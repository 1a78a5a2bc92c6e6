import Cadi.Adapter.Finalizations

namespace Cadi
open Library
set_option autoImplicit true

namespace ContinuityAdapter

/-- The action was performed, or had been performed before. -/
def Successful (r : SemanticActionRecord) : Prop := r.outcome = .applied ∨ r.outcome = .idempotent

/-- Every record after those of the first host is of a successful action. -/
def Succeeds (h h' : Host ContinuityAdapter) : Prop :=
  ∀ r ∈ h'.world.records.drop h.world.records.length, Successful r

/-- What the adapter does only adds, to the core and to the records. -/
structure Extends (h h' : Host ContinuityAdapter) : Prop where
  grounded : Grounded h'.world.core
  persists : Persists h.world.core h'.world.core
  records : h.world.records <+: h'.world.records

theorem Extends.refl (hg : Grounded h.world.core) : Extends h h :=
  ⟨hg, .refl _, List.prefix_refl _⟩

theorem Extends.trans (he : Extends h h') (he' : Extends h' h'') : Extends h h'' :=
  ⟨he'.grounded, he.persists.trans he'.persists, he.records.trans he'.records⟩

theorem Succeeds.split (hs : Succeeds h h'') (he : Extends h h') (he' : Extends h' h'') :
    Succeeds h h' ∧ Succeeds h' h'' := by
  obtain ⟨rs, hrs⟩ := he.records
  obtain ⟨rs', hrs'⟩ := he'.records
  unfold Succeeds at hs ⊢
  rw [← hrs', List.drop_left, ← hrs, List.drop_left]
  rw [← hrs', ← hrs, List.append_assoc, List.drop_left] at hs
  constructor
  · exact fun r hr => hs r (List.mem_append_left _ hr)
  · exact fun r hr => hs r (List.mem_append_right _ hr)

theorem Succeeds.appended (hs : Succeeds h h') (h' : h'.world.records = h.world.records ++ [r]) :
    Successful r := by
  apply hs
  rw [h', List.drop_left]
  exact List.mem_singleton_self r

/-- From this host the method only adds and, where it returns and all it recorded is successful, its
result and the core meet the condition. -/
def Tells (h : Host ContinuityAdapter) (x : AdapterM α) (post : α → ContinuityCore → Prop) : Prop :=
  Ends x h (Extends h) ∧ ∀ a h', x h = .ok a h' → Succeeds h h' → post a h'.world.core

namespace Tells
variable {semanticValidity : SemanticValidity} {sha256 : String → String}
  {h : Host ContinuityAdapter} {x : AdapterM α} {f : α → AdapterM β}
  {post post' : α → ContinuityCore → Prop}

theorem extended (ht : Tells h x post) (hx : x h = .ok a h') : Extends h h' := by
  have hend := ht.1
  unfold Ends at hend
  rwa [hx] at hend

theorem mono (ht : Tells h x post) (hp : ∀ a c, post a c → post' a c) : Tells h x post' :=
  ⟨ht.1, fun a h' hx hs => hp _ _ (ht.2 a h' hx hs)⟩

theorem pure (hg : Grounded h.world.core) (hp : post a h.world.core) :
    Tells h (Pure.pure a) post := by
  refine ⟨.refl hg, fun b h' hb _ => ?_⟩
  obtain ⟨rfl, rfl⟩ := pure_eq_ok.mp hb
  exact hp

theorem lift (hg : Grounded h.world.core) (x : Except PyError α) :
    Tells h (liftM x : AdapterM α) fun _ c => c = h.world.core := by
  constructor
  · cases x with
    | ok a => exact .refl hg
    | error e => exact .refl hg
  · intro a h' hx _
    exact congrArg (·.world.core) (lift_eq_ok.mp hx).2.symm

theorem modifyWorld (hg : Grounded h.world.core) {f : ContinuityAdapter → ContinuityAdapter}
    (hf : ∀ w, (f w).core = w.core ∧ (f w).records = w.records) :
    Tells h (Cadi.modifyWorld f) fun _ _ => True := by
  refine ⟨⟨?_, ?_, ?_⟩, fun _ _ _ _ => True.intro⟩
  · exact (hf h.world).1 ▸ hg
  · exact (hf h.world).1 ▸ Persists.refl _
  · exact (hf h.world).2 ▸ List.prefix_refl _

theorem get_bind {f : Host ContinuityAdapter → AdapterM α} (hf : Tells h (f h) post) :
    Tells h (get >>= f) post := hf

theorem chain {result : β → ContinuityCore → Prop} (hx : Tells h x post)
    (hf : ∀ a h', x h = .ok a h' → Extends h h' →
      Tells h' (f a) fun b c => post a h'.world.core → Persists h'.world.core c → result b c) :
    Tells h (x >>= f) result := by
  constructor
  · apply Ends.bind
    · intro a h' hok
      have he := hx.extended hok
      exact (hf a h' hok he).1.mono fun _ he' => he.trans he'
    · intro e h' herror
      have hend := hx.1
      unfold Ends at hend
      rwa [herror] at hend
  · intro b h'' hb hs
    obtain ⟨a, h', hok, hb⟩ := bind_eq_ok.mp hb
    have he := hx.extended hok
    have he' := (hf a h' hok he).extended hb
    obtain ⟨hbefore, hafter⟩ := hs.split he he'
    exact (hf a h' hok he).2 b h'' hb hafter (hx.2 a h' hok hbefore) he'.persists

theorem bind {last : α → β → ContinuityCore → Prop} {result : β → ContinuityCore → Prop}
    (hx : Tells h x post) (hf : ∀ a h', Extends h h' → Tells h' (f a) (last a))
    (hresult : ∀ a b c c', post a c → Persists c c' → last a b c' → result b c') :
    Tells h (x >>= f) result :=
  hx.chain fun a h' _ he => (hf a h' he).mono fun b c hlast hpost hp => hresult a b _ c hpost hp hlast

theorem assertOracle (hg : Grounded h.world.core) :
    Tells h (ContinuityAdapter.assertOracle semanticValidity) fun _ c => c = h.world.core :=
  .get_bind (.lift hg _)

theorem semanticFingerprint (hg : Grounded h.world.core) :
    Tells h (ContinuityAdapter.semanticFingerprint sha256) fun _ c => c = h.world.core :=
  .get_bind (.lift hg _)

theorem appendRecord (hg : Grounded h.world.core) (event : SimEvent) (operation : String)
    (outcome : AdapterOutcome) (resultId : Option String) (error : Option AdapterError)
    (fingerprint : String) : Tells h
      (ContinuityAdapter.appendRecord event operation outcome resultId error fingerprint)
      fun _ c => c = h.world.core ∧ (outcome = .applied ∨ outcome = .idempotent) := by
  refine ⟨⟨hg, .refl _, List.prefix_append _ _⟩, fun a h' hok hs => ?_⟩
  cases hok
  exact ⟨rfl, hs.appended rfl⟩

theorem note (hg : Grounded h.world.core) (event : SimEvent) (operation : String)
    (outcome : AdapterOutcome) (resultId : Option String) (error : Option AdapterError) :
    Tells h (ContinuityAdapter.note semanticValidity sha256 event operation outcome resultId error)
      fun _ _ => outcome = .applied ∨ outcome = .idempotent := by
  refine .bind (.assertOracle hg) (fun _ h₁ he₁ => ?_) fun _ _ _ _ _ _ ho => ho
  refine .bind (.semanticFingerprint he₁.grounded) (fun _ h₂ he₂ => ?_) fun _ _ _ _ _ _ ho => ho
  exact (appendRecord he₂.grounded event _ _ _ _ _).mono fun _ _ ho => ho.2

theorem onCore [Entity α] {method : CoreM α} (hg : Grounded h.world.core) (call : Call)
    (hd : Driven semanticValidity h.world.core call method) :
    Tells h (ContinuityAdapter.onCore method) fun b c => method h.world.core = .ok b c := by
  cases hm : method h.world.core with
  | ok b c' =>
    have hcall : ContinuityAdapter.onCore method h = _ := onCore_ok hm
    constructor
    · unfold Ends
      rw [hcall]
      refine ⟨?_, ?_, List.prefix_refl _⟩
      · exact hd.steps hm ▸ hg.step semanticValidity call
      · exact hd.steps hm ▸ hg.persists_run semanticValidity [call]
    · intro a h' hok _
      rw [hcall] at hok
      cases hok
      rfl
  | error e c' =>
    obtain rfl := hd.unchanged hg hm
    have hcall : ContinuityAdapter.onCore method h = _ := onCore_error hm
    constructor
    · unfold Ends
      rw [hcall]
      exact .refl hg
    · intro a h' hok _
      rw [hcall] at hok
      cases hok

theorem catching (caught : PyError → Bool) (hx : Tells h x post) :
    Tells h (Cadi.catching caught x) fun a c => ∀ b, a = .ok b → post b c := by
  constructor
  · exact ends_catching caught hx.1
  · rintro a h' hok hs b rfl
    unfold Cadi.catching at hok
    split at hok
    · next hx' =>
      cases hok
      exact hx.2 _ _ hx' hs
    · split at hok
      · cases hok
      · cases hok

theorem apply [Entity α] {method : CoreM α} (hg : Grounded h.world.core) (event : SimEvent)
    (call : Call) (hd : Driven semanticValidity h.world.core call method) :
    Tells h (ContinuityAdapter.apply semanticValidity sha256 event (label call.operation) method)
      fun a c => ∃ b, a = some b ∧ method h.world.core = .ok b c := by
  refine .chain (.semanticFingerprint hg) fun before h₁ hok _ => ?_
  obtain rfl : h = h₁ := (lift_eq_ok.mp hok).2
  refine .mono ?_ fun _ _ hresult _ _ => hresult
  refine .chain (.catching PyError.rejection (.onCore hg call hd)) fun result h₂ _ he₂ => ?_
  refine .chain (.assertOracle he₂.grounded) fun _ h₃ hok _ => ?_
  obtain rfl : h₂ = h₃ := (lift_eq_ok.mp hok).2
  refine .chain (.semanticFingerprint he₂.grounded) fun after h₄ hok _ => ?_
  obtain rfl : h₂ = h₄ := (lift_eq_ok.mp hok).2
  cases result with
  | error e =>
    refine .bind (.lift he₂.grounded _) (fun _ h₅ he₅ => ?_) fun _ _ _ _ _ _ h => h
    refine .chain (.appendRecord he₅.grounded event _ .rejected none _ after) fun _ h₆ _ he₆ => ?_
    exact .pure he₆.grounded fun ho => absurd ho.2 (by decide)
  | ok b =>
    refine .chain (.appendRecord he₂.grounded event _ _ _ none after) fun _ h₅ hok he₅ => ?_
    refine .pure he₅.grounded fun hrecord _ _ _ _ _ hmethod _ => ?_
    exact ⟨b, rfl, hrecord.1 ▸ hmethod b rfl⟩

end Tells

section Methods
variable {c c' : ContinuityCore}

theorem createRequest_stores {id : String} (h : createRequest id continuationId c = .ok r c') :
    id ∈ c'.requests := by
  obtain ⟨_, _, rfl⟩ := (createRequest_takes c id continuationId).of_ok h
  exact Dict.mem_set.mpr (.inl rfl)

theorem startAttempt_stores (hg : Grounded c) {id : String}
    (h : startAttempt id requestId c = .ok a c') : id ∈ c'.attempts := by
  obtain ⟨_, _, _, _, rfl⟩ := (startAttempt_takes hg id requestId).of_ok h
  exact Dict.mem_set.mpr (.inl rfl)

theorem createOutput_stores {id : String}
    (h : createOutput id attemptId terminal evidenceIds c = .ok o c') : id ∈ c'.outputs := by
  obtain ⟨rfl, _, rfl⟩ := (createOutput_takes c id attemptId terminal evidenceIds).of_ok h
  exact Dict.mem_set.mpr (.inl rfl)

/-- The Attempt has ended in this way. -/
def AttemptEnded (c : ContinuityCore) (attemptId : String) (succeeded : Bool) : Prop :=
  ∃ a, c.attempts.get? attemptId = some a ∧
    a.executionStatus = if succeeded then .succeeded else .failed

theorem AttemptEnded.persists (h : AttemptEnded c attemptId succeeded) (hp : Persists c c') :
    AttemptEnded c' attemptId succeeded := by
  obtain ⟨a, ha, hstatus⟩ := h
  obtain ⟨a', ha', hstays⟩ := hp.attempts attemptId a ha
  have hterminal : a.executionStatus.terminal := by
    rw [hstatus]
    cases succeeded <;> decide
  exact ⟨a', ha', (hstays.execution hterminal).trans hstatus⟩

theorem completeAttempt_ends (hg : Grounded c)
    (h : completeAttempt attemptId succeeded c = .ok a c') : AttemptEnded c' attemptId succeeded := by
  obtain ⟨_, hstatus, hget⟩ := (setAttemptExecution_result hg attemptId _).of_ok h
  exact ⟨a, hget, hstatus⟩

/-- What a successful delivery of an event of this kind with these fields leaves in the core. -/
def Settled (c : ContinuityCore) (p : String → String) : EventKind → Prop
  | .requestCreated => p "request_id" ∈ c.requests
  | .attemptStarted => p "attempt_id" ∈ c.attempts
  | .retryStarted => p "retry_attempt_id" ∈ c.attempts
  | .attemptCompleted | .lateResult => AttemptEnded c (p "attempt_id") true
  | .attemptFailed => AttemptEnded c (p "attempt_id") false
  | .observationCreated | .observationDuplicated =>
    p "evidence_id" ∈ c.evidence ∧ p "output_id" ∈ c.outputs ∧ RequestCompleted c (p "request_id")
  | _ => True

theorem Settled.persists (h : Settled c p kind) (hp : Persists c c') : Settled c' p kind := by
  cases kind with
  | requestCreated => exact hp.requests.mem h
  | attemptStarted | retryStarted => exact hp.attempts.mem h
  | attemptCompleted | lateResult | attemptFailed => exact AttemptEnded.persists h hp
  | observationCreated | observationDuplicated =>
    exact ⟨hp.evidence.mem h.1, hp.outputs.mem h.2.1, h.2.2.persists hp⟩
  | _ => exact True.intro

end Methods

section Handlers
variable {semanticValidity : SemanticValidity} {sha256 : String → String}
  {h h' : Host ContinuityAdapter}

theorem apply_tells [Entity α] {method : CoreM α} {post : ContinuityCore → Prop}
    (hg : Grounded h.world.core) (event : SimEvent) (call : Call)
    (hd : Driven semanticValidity h.world.core call method)
    (hpost : ∀ a c, method h.world.core = .ok a c → post c) :
    Tells h (do let _ ← apply semanticValidity sha256 event (label call.operation) method)
      fun _ c => post c := by
  have hreturned : Tells h
      (apply semanticValidity sha256 event (label call.operation) method) fun _ c => post c :=
    (Tells.apply hg event call hd).mono fun _ _ ⟨b, _, hm⟩ => hpost b _ hm
  obtain ⟨hends, htells⟩ := hreturned
  refine ⟨?_, fun a h' hok hs => ?_⟩
  · exact hends.discard
  · obtain ⟨b, h', hb, hpure⟩ := bind_eq_ok.mp hok
    obtain ⟨_, rfl⟩ := pure_eq_ok.mp hpure
    exact htells b h' hb hs

theorem startRunning_tells (hg : Grounded h.world.core) (event : SimEvent) (hid : attemptId ≠ "")
    (requestId : String) :
    Tells h (startRunning semanticValidity sha256 event attemptId requestId)
      fun _ c => attemptId ∈ c.attempts := by
  have hrun (attempt : Option Attempt) (h' : Host ContinuityAdapter) (he : Extends h h') :
      Tells h' (if attempt.isSome then do
        let _ ← apply semanticValidity sha256 event "set_attempt_execution:RUNNING"
          (setAttemptExecution attemptId .running)
        else Pure.pure ⟨⟩) fun _ _ => True := by
    split
    · exact apply_tells he.grounded event ⟨.int 0, .setAttemptExecution attemptId .running⟩
        (driven_setAttemptExecution he.grounded semanticValidity _ attemptId
          .running) fun _ _ _ => True.intro
    · exact .pure he.grounded True.intro
  refine .bind (.apply hg event ⟨.int 0, .startAttempt attemptId requestId⟩
    (driven_startAttempt hg semanticValidity _ hid requestId)) hrun ?_
  rintro _ b c c' ⟨a, rfl, hstart⟩ hp _
  exact hp.attempts.mem (startAttempt_stores hg hstart)

theorem ensureTerminalEvidence_tells (hg : Grounded h.world.core) (event : SimEvent)
    (attemptId : String) (hid : evidenceId ≠ "") (observedAt : Time) :
    Tells h (ensureTerminalEvidence semanticValidity sha256 event attemptId evidenceId observedAt)
      fun _ c => evidenceId ∈ c.evidence := by
  apply Tells.get_bind
  split
  · next existing hget =>
    refine .bind (.lift hg _) (fun _ h' he => .note he.grounded event _ _ _ _) ?_
    rintro _ _ c c' rfl hp _
    exact hp.evidence.mem (Dict.mem_of_get? hget)
  · refine apply_tells hg event
      ⟨.int 0, .recordEvidence (terminalEvidence attemptId evidenceId observedAt)⟩
      (driven_recordEvidence hg semanticValidity _ hid rfl
        (terminalEvidence_finite attemptId evidenceId observedAt)) ?_
    intro a c hm
    exact Dict.mem_of_get? ((recordEvidence_result hg _).of_ok hm).2.1

theorem ensureTerminalOutput_tells (hg : Grounded h.world.core) (event : SimEvent)
    (attemptId evidenceId : String) (hid : outputId ≠ "") :
    Tells h (ensureTerminalOutput semanticValidity sha256 event attemptId evidenceId outputId)
      fun _ c => outputId ∈ c.outputs := by
  apply Tells.get_bind
  split
  · next existing hget =>
    refine .bind (.lift hg _) (fun _ h' he => .note he.grounded event _ _ _ _) ?_
    rintro _ _ c c' rfl hp _
    exact hp.outputs.mem (Dict.mem_of_get? hget)
  · exact apply_tells hg event ⟨.int 0, .createOutput outputId attemptId true [evidenceId]⟩
      (driven_createOutput semanticValidity _ _ hid attemptId true [evidenceId])
      fun _ _ hm => createOutput_stores hm

/-- The Evidence and the Output of an observation are there, or its identity is refused. -/
theorem ensureTerminals_tells {p : String → String} (hg : Grounded h.world.core) (event : SimEvent)
    (he : p "evidence_id" ≠ "") (ho : p "output_id" ≠ "") (observedAt : Time) :
    Tells h (do
      ensureTerminalEvidence semanticValidity sha256 event (p "attempt_id") (p "evidence_id")
        observedAt
      ensureTerminalOutput semanticValidity sha256 event (p "attempt_id") (p "evidence_id")
        (p "output_id")) fun _ c => p "evidence_id" ∈ c.evidence ∧ p "output_id" ∈ c.outputs :=
  .bind (ensureTerminalEvidence_tells hg event _ he observedAt)
    (fun _ _ he' => ensureTerminalOutput_tells he'.grounded event _ _ ho)
    fun _ _ _ _ hevidence hp houtput => ⟨hp.evidence.mem hevidence, houtput⟩

theorem presentObservation_tells (hg : Grounded h.world.core) (event : SimEvent)
    (he : p "evidence_id" ≠ "") (ho : p "output_id" ≠ "") (observedAt : Time) :
    Tells h (presentObservation semanticValidity sha256 event p observedAt) fun _ c =>
      p "evidence_id" ∈ c.evidence ∧ p "output_id" ∈ c.outputs ∧
        RequestCompleted c (p "request_id") := by
  have hresult (ensured : Except PyError Unit) (_ : Unit) (c c' : ContinuityCore)
      (hstored : ∀ b, ensured = .ok b → p "evidence_id" ∈ c.evidence ∧ p "output_id" ∈ c.outputs)
      (hp : Persists c c') (h : ensured = .ok ⟨⟩ ∧ RequestCompleted c' (p "request_id")) :
      p "evidence_id" ∈ c'.evidence ∧ p "output_id" ∈ c'.outputs ∧
        RequestCompleted c' (p "request_id") := by
    obtain ⟨hevidence, houtput⟩ := hstored ⟨⟩ h.1
    exact ⟨hp.evidence.mem hevidence, hp.outputs.mem houtput, h.2⟩
  refine .bind (.catching PyError.continuity (ensureTerminals_tells hg event he ho observedAt))
    (fun ensured h' he' => ?_) hresult
  split
  · exact (Tells.note he'.grounded event _ _ none _).mono fun _ _ h => absurd h (by decide)
  · have hg := he'.grounded
    apply Tells.get_bind
    refine apply_tells he'.grounded event ⟨_, .finalizeRequest (p "request_id") (p "output_id")
      (some h'.history.sim.now.toNumber)⟩
      (driven_finalizeRequest hg semanticValidity _ _ _ _) ?_
    intro r c hm
    obtain ⟨_, hget, hcompleted, _⟩ := (finalizeRequest_result hg _ _ _ _).of_ok hm
    exact ⟨rfl, r, hget, hcompleted⟩

end Handlers

end ContinuityAdapter

end Cadi
