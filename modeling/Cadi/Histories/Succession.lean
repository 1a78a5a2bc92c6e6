import Cadi.Histories.Reachable

namespace Cadi
open Library
set_option autoImplicit true

/-- At most one Attempt of a request is CURRENT and the pointer names it; at most one Binding of a
subject is ACTIVE. -/
structure SingleAuthority (c : ContinuityCore) : Prop where
  current : ∀ requestId k k', Holder c.attempts requestId .current k →
    Holder c.attempts requestId .current k' → k = k'
  pointer : ∀ k r, c.requests.get? k = some r → Names c.attempts k .current r.currentAttemptId
  active : ∀ k b k' b', c.bindings.get? k = some b → c.bindings.get? k' = some b' →
    b.subjectId = b'.subjectId → b.status = .active → b'.status = .active → k = k'

/-- An accepted start or commit leaves what was current before it SUPERSEDED. -/
def SupersedesPrevious (semanticValidity : SemanticValidity) (c : ContinuityCore) (call : Call) :
    Prop :=
  accepted semanticValidity c call = true → match call.operation with
    | .startAttempt _ requestId => ∀ k, Holder c.attempts requestId .current k →
      ∃ a, (step semanticValidity c call).attempts.get? k = some a ∧
        a.authorityStatus = .superseded
    | .commitMigration bindingId _ _ => ∀ b k, c.bindings.get? bindingId = some b →
      c.currentBindingBySubject.get? b.subjectId = some k →
      ∃ old, (step semanticValidity c call).bindings.get? k = some old ∧ old.status = .superseded
    | _ => True

/-- The call does not pass over a stored pointer to the empty identifier: the pointer names another
one, or the call is rejected before the pointer matters. -/
def KeepsPointer (c : ContinuityCore) (call : Call) : Prop :=
  match call.operation with
  | .startAttempt id requestId => ∀ r, c.requests.get? requestId = some r →
    r.currentAttemptId = some "" → ¬ c.Fresh id
  | .commitMigration bindingId evidenceIds now => ∀ b, c.bindings.get? bindingId = some b →
    c.currentBindingBySubject.get? b.subjectId = some "" →
    ¬ Committable call.clock c b evidenceIds now
  | _ => True

/-- The invariant behind single authority, which every identifier but the empty one keeps. -/
structure Succession (c : ContinuityCore) : Prop where
  reached : Reached c
  authority : AuthorityPointers c.requests c.attempts
  bindings : BindingAuthority c.bindings c.currentBindingBySubject c.currentEpochBySubject

theorem Succession.empty : Succession {} where
  reached := .empty
  authority := by constructor <;> intro k r h <;> cases h
  bindings := by constructor <;> intro k r h <;> cases h

section Steps
variable {c : ContinuityCore} {semanticValidity : SemanticValidity}

theorem Succession.singleAuthority (h : Succession c) : SingleAuthority c where
  current requestId k k' hk hk' := by
    obtain ⟨a, ha, hreq, _⟩ := hk
    obtain ⟨r, hr⟩ := Dict.mem_iff.mp (hreq ▸ h.reached.grounded.scopes.attempt k a ha)
    have hp := (h.authority.current requestId r hr k).mpr ⟨a, ha, hreq, by assumption⟩
    have hp' := (h.authority.current requestId r hr k').mpr hk'
    exact Option.some.inj (hp.symm.trans hp')
  pointer := h.authority.current
  active k b k' b' hb hb' hs ha ha' := by
    have hp := h.bindings.active k b hb ha
    have hp' := h.bindings.active k' b' hb' ha'
    rw [hs] at hp
    exact Option.some.inj (hp.symm.trans hp')

/-- Every transition of a call is safe, given that the pointer it replaces is not empty. -/
theorem Succession.effect {e : Effect} (h : Succession c) (ha : e.Allowed c) (hs : e.Safe c) :
    Succession (e.apply c) where
  reached := ⟨Effect.grounded h.reached.grounded ha, Effect.ledger h.reached.ledger ha,
    Effect.uncommitted h.reached.uncommitted ha⟩
  authority := Effect.authorityPointers h.authority h.reached.grounded.scopes.attempt ha hs
  bindings := Effect.bindingAuthority h.bindings ha fun b he => by
    subst he
    exact hs

theorem startAttempt_accepted {id requestId : String} (h : Grounded c)
    (ha : accepted semanticValidity c ⟨clock, .startAttempt id requestId⟩ = true) :
    ∃ r : LogicalRequest, r.id = requestId ∧ StartAllowed c id r ∧
      step semanticValidity c ⟨clock, .startAttempt id requestId⟩ =
        (Effect.startAttempt id r).apply c := by
  obtain ⟨es, ⟨r, hid, rfl⟩, hallowed, hc⟩ := step_accepted h ha
  exact ⟨r, hid, hallowed, hc⟩

theorem commitMigration_accepted (h : Grounded c)
    (ha : accepted semanticValidity c ⟨clock, .commitMigration bindingId evidenceIds now⟩ = true) :
    ∃ b : Binding, b.id = bindingId ∧ Committable clock c b evidenceIds now ∧ CommitAllowed c b ∧
      step semanticValidity c ⟨clock, .commitMigration bindingId evidenceIds now⟩ =
        (Effect.commitMigration b).apply c := by
  have htakes := (commitMigration_takes h clock bindingId evidenceIds now).discard
  unfold accepted at ha
  unfold step
  cases hcall : PublicOperation.call semanticValidity clock
      (.commitMigration bindingId evidenceIds now) c with
  | ok u c' =>
    obtain ⟨_, b, hid, hcommittable, hallowed, hc⟩ := htakes.of_ok hcall
    exact ⟨b, hid, hcommittable, hallowed, hc⟩
  | error e c' =>
    rw [hcall] at ha
    cases ha

theorem Succession.guarded (h : Succession c) (hk : KeepsPointer c call) :
    AcceptedGuarded semanticValidity c call := by
  intro ha
  obtain ⟨clock, operation⟩ := call
  cases operation with
  | startAttempt id requestId =>
    obtain ⟨r, rfl, hallowed, _⟩ := startAttempt_accepted h.reached.grounded ha
    exact fun r' hr' he => hk r' hr' he hallowed.fresh
  | finalizeRequest requestId outputId now => exact h.reached.uncommitted requestId
  | proposeBinding id subjectId locationId => exact h.reached.ledger.allocatable subjectId
  | activateInitialBinding id subjectId locationId => exact h.reached.ledger.base_le_last subjectId
  | commitMigration bindingId evidenceIds now =>
    obtain ⟨b, rfl, hcommittable, hallowed, _⟩ := commitMigration_accepted h.reached.grounded ha
    intro b' hb' he
    obtain rfl := Option.some.inj (hallowed.stored.symm.trans hb')
    exact hk b hb' he hcommittable
  | _ => exact True.intro

theorem Succession.step (h : Succession c) (hk : KeepsPointer c call) :
    Succession (step semanticValidity c call) :=
  step_keeps h.reached.grounded h fun ha _ _ hes ht =>
    ht.invariant ((h.guarded hk ha).safe hes ht) h fun _ _ hc hallowed hsafe =>
      hc.effect hallowed hsafe

theorem Succession.supersedesPrevious (h : Succession c) (hk : KeepsPointer c call) :
    SupersedesPrevious semanticValidity c call := by
  intro ha
  have hguarded := h.guarded hk ha
  obtain ⟨clock, operation⟩ := call
  cases operation with
  | startAttempt id requestId =>
    obtain ⟨r, rfl, hallowed, hstep⟩ := startAttempt_accepted h.reached.grounded ha
    intro k hholder
    have hpointer := (h.authority.current r.id r hallowed.stored k).mpr hholder
    have htruthy : truthy r.currentAttemptId = some k :=
      (truthy_of_ne (hguarded r hallowed.stored)).trans hpointer
    obtain ⟨a, hget, _⟩ := hholder
    have hne : id ≠ k := by
      rintro rfl
      exact hallowed.fresh.unused.attempts (Dict.mem_of_get? hget)
    refine ⟨{ a with authorityStatus := .superseded }, ?_, rfl⟩
    simp only [hstep, Effect.apply, Dict.get?_set_ne _ _ hne, get?_superseded, hget, htruthy,
      ↓reduceIte, Option.map_some]
  | commitMigration bindingId evidenceIds now =>
    obtain ⟨b, rfl, hcommittable, hallowed, hstep⟩ :=
      commitMigration_accepted h.reached.grounded ha
    intro b' k hb' hpointer
    obtain rfl := Option.some.inj (hallowed.stored.symm.trans hb')
    have htruthy : truthy (c.currentBindingBySubject.get? b.subjectId) = some k :=
      (truthy_of_ne (hguarded b hb')).trans hpointer
    obtain ⟨old, hold, _, hactive, _⟩ := h.bindings.current _ k hpointer
    have hne : b.id ≠ k := by
      rintro rfl
      obtain rfl := Option.some.inj (hb'.symm.trans hold)
      rcases hcommittable.candidate with hs | hs <;> rw [hs] at hactive <;> cases hactive
    refine ⟨{ old with status := .superseded }, ?_, rfl⟩
    simp only [hstep, Effect.apply, Dict.get?_set_ne _ _ hne, get?_supersededBinding, hold, htruthy,
      ↓reduceIte, Option.map_some]
  | _ => exact True.intro

end Steps

/-- In a run from the empty core that never passes over a pointer to the empty identifier,
authority is single in every core and every start and every commit supersedes what it replaces. -/
theorem singleAuthority_throughout (semanticValidity : SemanticValidity) (calls : List Call)
    (h : Along (step semanticValidity) KeepsPointer {} calls) :
    Throughout (step semanticValidity) SingleAuthority {} calls ∧
      Along (step semanticValidity) (SupersedesPrevious semanticValidity) {} calls :=
  ⟨(invariant_throughout .empty (fun _ _ hc hk => Succession.step hc hk) h).mono fun _ hc =>
      hc.singleAuthority,
    h.of_invariant .empty (fun _ _ hc hk => Succession.step hc hk) fun _ _ hc hk =>
      hc.supersedesPrevious hk⟩

/-- Without empty identifiers there is no pointer to pass over. -/
theorem keepsPointer_along (semanticValidity : SemanticValidity) {calls : List Call}
    (h : ∀ call ∈ calls, call.operation.newId ≠ some "") :
    Along (step semanticValidity) KeepsPointer {} calls := by
  refine .of_invariant .empty (fun _ _ hc hid => Sound.step hc hid) (fun c call hc _ => ?_)
    (.of_forall h _)
  obtain ⟨clock, operation⟩ := call
  cases operation with
  | startAttempt id requestId => exact fun r hr he => (hc.attempt_ne hr he).elim
  | commitMigration bindingId evidenceIds now => exact fun b _ he => (hc.binding_ne _ he).elim
  | _ => exact True.intro

theorem singleAuthority_throughout_retried :
    Throughout (step defaultValidity) SingleAuthority {} retriedRun ∧
      Along (step defaultValidity) (SupersedesPrevious defaultValidity) {} retriedRun :=
  singleAuthority_throughout defaultValidity retriedRun (keepsPointer_along _ (by decide))

/-- A request whose first Attempt has the empty identifier, and a retry. -/
def retriedEmpty : List Call :=
  [⟨.int 0, .createProgram "p"⟩, ⟨.int 0, .createSession "s" "p"⟩,
    ⟨.int 0, .createContinuation "c" "s" [] .active⟩, ⟨.int 0, .createRequest "r" "c"⟩,
    ⟨.int 0, .startAttempt "" "r"⟩, ⟨.int 0, .startAttempt "b" "r"⟩]

theorem retriedEmpty_twoCurrent : ¬ Throughout (step defaultValidity) SingleAuthority {} retriedEmpty := by
  intro h
  have hfirst : Holder (run (step defaultValidity) {} retriedEmpty).attempts "r" .current "" :=
    ⟨{ id := "", requestId := "r", generation := 1, authorityStatus := .current }, by decide +kernel,
      rfl, rfl⟩
  have hsecond : Holder (run (step defaultValidity) {} retriedEmpty).attempts "r" .current "b" :=
    ⟨{ id := "b", requestId := "r", generation := 2, authorityStatus := .current }, by decide +kernel,
      rfl, rfl⟩
  have hsame := h.last.current "r" "" "b" hfirst hsecond
  exact absurd hsame (by decide)

end Cadi
