import Cadi.Adapter.Chronicle

namespace Cadi
open Library
set_option autoImplicit true

namespace ContinuityAdapter

/-- Records were added, and each of them meets the condition. -/
def Adds (P : SemanticActionRecord → Prop) (h h' : Host ContinuityAdapter) : Prop :=
  ∃ rs, h'.world.records = h.world.records ++ rs ∧ ∀ r ∈ rs, P r

section Added
variable {P : SemanticActionRecord → Prop} {h h' : Host ContinuityAdapter}

theorem Adds.of_records (hr : h'.world.records = h.world.records) : Adds P h h' :=
  ⟨[], hr.trans (List.append_nil _).symm, fun _ h => absurd h List.not_mem_nil⟩

theorem Adds.trans (h : Adds P h₁ h₂) (h' : Adds P h₂ h₃) : Adds P h₁ h₃ := by
  obtain ⟨rs, hrs, hall⟩ := h
  obtain ⟨rs', hrs', hall'⟩ := h'
  refine ⟨rs ++ rs', by rw [hrs', hrs, List.append_assoc], fun r hr => ?_⟩
  rcases List.mem_append.mp hr with hr | hr
  · exact hall r hr
  · exact hall' r hr

theorem Adds.mono {Q : SemanticActionRecord → Prop} (h : Adds P h₁ h₂) (hPQ : ∀ r, P r → Q r) :
    Adds Q h₁ h₂ := by
  obtain ⟨rs, hrs, hall⟩ := h
  exact ⟨rs, hrs, fun r hr => hPQ r (hall r hr)⟩

end Added

/-- The method keeps a condition on the core and only adds records of some kind, whether it returns
or raises. -/
def Recording (I : ContinuityCore → Prop) (P : SemanticActionRecord → Prop) (x : AdapterM α) : Prop :=
  Within (fun h => I h.world.core) (Adds P) x

namespace Recording
variable {semanticValidity : SemanticValidity} {sha256 : String → String}
  {I : ContinuityCore → Prop} {P : SemanticActionRecord → Prop}

theorem pure (a : α) : Recording I P (Pure.pure a : AdapterM α) := Within.pure fun _ => .of_records rfl

theorem bind {x : AdapterM α} {f : α → AdapterM β} (hx : Recording I P x)
    (hf : ∀ a, Recording I P (f a)) : Recording I P (x >>= f) :=
  Within.bind (fun _ _ _ => Adds.trans) hx hf

/-- A later step can rely on what the earlier one returned from such a core. -/
theorem chain {x : AdapterM α} {f : α → AdapterM β} (hx : Recording I P x)
    (hf : ∀ a h h', I h.world.core → x h = .ok a h' → Recording I P (f a)) :
    Recording I P (x >>= f) := by
  intro h hc
  have hends := hx h hc
  unfold Ends at hends
  apply Ends.bind
  · intro a h' hok
    rw [hok] at hends
    exact (hf a h h' hc hok h' hends.1).mono fun h'' hlast => ⟨hlast.1, hends.2.trans hlast.2⟩
  · intro e h' herror
    rwa [herror] at hends

theorem get_bind {f : Host ContinuityAdapter → AdapterM α}
    (hf : ∀ h, I h.world.core → Recording I P (f h)) : Recording I P (get >>= f) :=
  Within.get_bind hf

theorem lift (x : Except PyError α) : Recording I P (liftM x : AdapterM α) :=
  Within.lift fun _ => .of_records rfl

theorem modifyWorld {f : ContinuityAdapter → ContinuityAdapter}
    (hf : ∀ w, (f w).core = w.core ∧ (f w).records = w.records) :
    Recording I P (Cadi.modifyWorld f) :=
  Within.modify fun h hc => ⟨(hf h.world).1 ▸ hc, .of_records (hf h.world).2⟩

theorem onCore {method : CoreM α} (hm : ∀ c, I c → I (finalState (method c))) :
    Recording I P (ContinuityAdapter.onCore method) := by
  intro h hc
  have hlast := hm _ hc
  unfold Ends ContinuityAdapter.onCore
  cases hcall : method h.world.core with
  | ok a c' =>
    rw [hcall] at hlast
    exact ⟨hlast, .of_records rfl⟩
  | error e c' =>
    rw [hcall] at hlast
    exact ⟨hlast, .of_records rfl⟩

theorem catching {x : AdapterM α} (caught : PyError → Bool) (hx : Recording I P x) :
    Recording I P (Cadi.catching caught x) := fun h hc => ends_catching caught (hx h hc)

theorem assertOracle : Recording I P (ContinuityAdapter.assertOracle semanticValidity) :=
  .get_bind fun _ _ => .lift _

theorem semanticFingerprint : Recording I P (ContinuityAdapter.semanticFingerprint sha256) :=
  .get_bind fun _ _ => .lift _

theorem appendRecord (event : SimEvent) {operation : String} {outcome : AdapterOutcome}
    {resultId : Option String} {error : Option AdapterError} {fingerprint : String}
    (hp : ∀ now, P (recordOf now event operation outcome resultId error fingerprint)) :
    Recording I P
      (ContinuityAdapter.appendRecord event operation outcome resultId error fingerprint) :=
  fun _ hc => ⟨hc, _, rfl, fun _ hr => List.mem_singleton.mp hr ▸ hp _⟩

theorem note (event : SimEvent) {operation : String} {outcome : AdapterOutcome}
    {resultId : Option String} {error : Option AdapterError}
    (hp : ∀ now fingerprint, P (recordOf now event operation outcome resultId error fingerprint)) :
    Recording I P
      (ContinuityAdapter.note semanticValidity sha256 event operation outcome resultId error) :=
  .bind .assertOracle fun _ => .bind .semanticFingerprint fun fingerprint =>
    .appendRecord event fun now => hp now fingerprint

/-- A call under a name whose records all meet the condition. -/
theorem apply [Entity α] {method : CoreM α} (event : SimEvent) {operation : String}
    (hm : ∀ c, I c → I (finalState (method c))) (hp : ∀ r, r.operation = operation → P r) :
    Recording I P (ContinuityAdapter.apply semanticValidity sha256 event operation method) := by
  refine .bind .semanticFingerprint fun before => .bind (.catching _ (.onCore hm)) fun result => ?_
  refine .bind .assertOracle fun _ => .bind .semanticFingerprint fun after => ?_
  cases result with
  | error e =>
    exact .bind (.lift _) fun _ => .bind (.appendRecord event fun _ => hp _ rfl) fun _ => .pure _
  | ok b => exact .bind (.appendRecord event fun _ => hp _ rfl) fun _ => .pure _

theorem orElseUndo (r : ScheduleRequest) {undo : ContinuityAdapter → ContinuityAdapter}
    (hundo : ∀ w, (undo w).core = w.core ∧ (undo w).records = w.records) :
    Recording I P (Cadi.orElseUndo (scheduleEvent r) undo) := by
  intro h hc
  refine ends_orElseUndo ⟨hc, .of_records rfl⟩ ⟨?_, .of_records (hundo h.world).2⟩
  dsimp only
  rwa [(hundo h.world).1]

end Recording

end ContinuityAdapter

end Cadi
