import Cadi.Invariants.Persistence

namespace Cadi
open Library
set_option autoImplicit true

section Keys
variable {c : ContinuityCore}

theorem KeysMatch.refreshed (h : KeysMatch c) : KeysMatch c.refreshed where
  __ := h
  states := h.states.mapValues fun _ => rfl

theorem Keyed.superseded {attempts : Dict String Attempt} (h : Keyed attempts) :
    Keyed (superseded attempts pointer) := by
  intro k a ha
  rw [get?_superseded, Option.map_eq_some_iff] at ha
  obtain ⟨a, ha, rfl⟩ := ha
  have hid := h k a ha
  split <;> exact hid

theorem Keyed.supersededBinding {bindings : Dict String Binding} (h : Keyed bindings) :
    Keyed (supersededBinding bindings pointer) := by
  intro k b hb
  rw [get?_supersededBinding, Option.map_eq_some_iff] at hb
  obtain ⟨b, hb, rfl⟩ := hb
  have hid := h k b hb
  split <;> exact hid

theorem Effect.keysMatch (h : KeysMatch c) (e : Effect) : KeysMatch (e.apply c) := by
  cases e with
  | createProgram | setProgramStatus => exact { h with programs := h.programs.set rfl }
  | createSession => exact { h with sessions := h.sessions.set rfl }
  | createContinuation | setLifecycle =>
    exact KeysMatch.refreshed { h with continuations := h.continuations.set rfl }
  | createRequest => exact { h with requests := h.requests.set rfl }
  | startAttempt id r => exact { h with
      attempts := h.attempts.superseded.set rfl
      requests := h.requests.set rfl }
  | setExecution => exact { h with attempts := h.attempts.set rfl }
  | createPhase | setPhaseStatus => exact { h with phases := h.phases.set rfl }
  | createOutput => exact { h with outputs := h.outputs.set rfl }
  | finalize r a o => exact { h with
      attempts := h.attempts.set rfl
      requests := h.requests.set rfl }
  | createState => exact KeysMatch.refreshed { h with states := h.states.set rfl }
  | setValidity => exact { h with states := h.states.set rfl }
  | addReplica | setReplicaStatus => exact { h with replicas := h.replicas.set rfl }
  | propose | activateInitial | beginMigration => exact { h with bindings := h.bindings.set rfl }
  | commitMigration => exact { h with bindings := h.bindings.supersededBinding.set rfl }
  | recordEvent => exact { h with events := h.events.set rfl }
  | recordEvidence => exact { h with evidence := h.evidence.set rfl }

end Keys

section Scopes
variable {c : ContinuityCore}

theorem attempt_superseded {attempts : Dict String Attempt} {P : String → Prop}
    (h : ∀ k a, attempts.get? k = some a → P a.requestId) :
    ∀ k a, (superseded attempts pointer).get? k = some a → P a.requestId := by
  intro k a ha
  rw [get?_superseded, Option.map_eq_some_iff] at ha
  obtain ⟨a, ha, rfl⟩ := ha
  have hP := h k a ha
  split <;> exact hP

/-- References stay resolved: new entities name stored ones, and stored ones persist. -/
theorem Effect.parentScopes {e : Effect} (h : ParentScopes c.programs c.sessions c.continuations
      c.requests c.attempts c.phases) (ha : e.Allowed c) :
    ParentScopes (e.apply c).programs (e.apply c).sessions (e.apply c).continuations
      (e.apply c).requests (e.apply c).attempts (e.apply c).phases := by
  have hp := e.persists ha
  have hprogram {k : String} := hp.programs.mem (k := k)
  have hsession {k : String} := hp.sessions.mem (k := k)
  have hcontinuation {k : String} := hp.continuations.mem (k := k)
  have hrequest {k : String} := hp.requests.mem (k := k)
  have hattempt {k : String} := hp.attempts.mem (k := k)
  have hparent {p sid : String} (hp' : ∃ pc, c.continuations.get? p = some pc ∧ pc.sessionId = sid) :
      ∃ pc, (e.apply c).continuations.get? p = some pc ∧ pc.sessionId = sid := by
    obtain ⟨pc, hpc, hsid⟩ := hp'
    obtain ⟨pc', hpc', hs⟩ := hp.continuations p pc hpc
    exact ⟨pc', hpc', hs.session.trans hsid⟩
  cases e with
  | createProgram | setProgramStatus =>
    exact { h with session := fun k s hs => hprogram (h.session k s hs) }
  | createSession s => exact { h with
      session := Dict.forall_set h.session ha.2
      continuation := fun k ct hct => hsession (h.continuation k ct hct) }
  | createContinuation ct => exact { h with
      continuation := Dict.forall_set h.continuation ha.session
      parent := Dict.forall_set (fun k ct hct p hp => hparent (h.parent k ct hct p hp))
        fun p hp => hparent (ha.parent p hp)
      request := fun k r hr => hcontinuation (h.request k r hr) }
  | setLifecycle ct lifecycle => exact { h with
      continuation := Dict.forall_set h.continuation (h.continuation _ ct ha.1)
      parent := Dict.forall_set (fun k ct hct p hp => hparent (h.parent k ct hct p hp))
        fun p hp => hparent (h.parent _ ct ha.1 p hp)
      request := fun k r hr => hcontinuation (h.request k r hr) }
  | createRequest id continuationId => exact { h with
      request := Dict.forall_set h.request ha.2
      attempt := fun k a hat => hrequest (h.attempt k a hat) }
  | startAttempt id r => exact { h with
      request := Dict.forall_set h.request (h.request _ r ha.stored)
      attempt := Dict.forall_set (attempt_superseded fun k a hat => hrequest (h.attempt k a hat))
        (hrequest (Dict.mem_of_get? ha.stored))
      phase := fun k p hph => hattempt (h.phase k p hph) }
  | setExecution a status => exact { h with
      attempt := Dict.forall_set h.attempt (h.attempt _ a ha.1)
      phase := fun k p hph => hattempt (h.phase k p hph) }
  | createPhase id attemptId phaseType => exact { h with
      phase := Dict.forall_set h.phase ha.2 }
  | setPhaseStatus p status => exact { h with
      phase := Dict.forall_set h.phase (h.phase _ p ha.1) }
  | finalize r a o => exact { h with
      request := Dict.forall_set h.request (h.request _ r ha.request)
      attempt := Dict.forall_set (fun k a hat => hrequest (h.attempt k a hat))
        (hrequest (h.attempt _ a ha.attempt))
      phase := fun k p hph => hattempt (h.phase k p hph) }
  | createOutput | createState | setValidity | addReplica | setReplicaStatus | propose
  | activateInitial | beginMigration | commitMigration | recordEvent | recordEvidence => exact h

end Scopes

section Dependencies
variable {c : ContinuityCore}

theorem DependenciesKnown.refreshed (h : DependenciesKnown c.states) :
    DependenciesKnown c.refreshed.states := by
  intro k w hw d hd
  rw [ContinuityCore.refreshed, Dict.get?_mapValues, Option.map_eq_some_iff] at hw
  obtain ⟨x, hx, rfl⟩ := hw
  rw [ContinuityCore.refreshed, Dict.mem_mapValues]
  exact h k x hx d hd

theorem Effect.dependenciesKnown {e : Effect} (h : DependenciesKnown c.states)
    (ha : e.Allowed c) : DependenciesKnown (e.apply c).states := by
  cases e with
  | createState x =>
    obtain ⟨origin, _, _, hchecked⟩ := ha.origin
    exact DependenciesKnown.refreshed (c := { c with states := c.states.set x.id x })
      (h.set fun d hd => checkDependencies_known hchecked d hd)
  | setValidity x validity => exact h.set fun d hd => h _ x ha.1 d hd
  | createContinuation ct =>
    exact DependenciesKnown.refreshed (c := { c with continuations := c.continuations.set ct.id ct }) h
  | setLifecycle ct lifecycle =>
    exact DependenciesKnown.refreshed
      (c := { c with continuations := c.continuations.set ct.id { ct with lifecycle } }) h
  | createProgram | setProgramStatus | createSession | createRequest | startAttempt | setExecution
  | createPhase | setPhaseStatus | createOutput | finalize | addReplica | setReplicaStatus
  | propose | activateInitial | beginMigration | commitMigration | recordEvent
  | recordEvidence => exact h

end Dependencies

section Runs
variable {c : ContinuityCore}

theorem Effect.grounded {e : Effect} (h : Grounded c) (ha : e.Allowed c) :
    Grounded (e.apply c) where
  keys := e.keysMatch h.keys
  scopes := e.parentScopes h.scopes ha
  dependencies := e.dependenciesKnown h.dependencies ha

theorem Takes.grounded (ht : Takes c es c') (h : Grounded c) : Grounded c' :=
  ht.invariant (A := fun _ _ => True) (.trivial _ _) h fun _ _ hc ha _ => Effect.grounded hc ha

theorem Takes.persists (ht : Takes c es c') : Persists c c' := by
  induction es generalizing c with
  | nil =>
    cases ht
    exact .refl _
  | cons e es ih => exact (e.persists ht.1).trans (ih ht.2)

theorem Grounded.step (h : Grounded c) (semanticValidity : SemanticValidity) (call : Call) :
    Grounded (step semanticValidity c call) :=
  step_keeps h h fun _ _ _ _ ht => ht.grounded h

theorem Grounded.persists (h : Grounded c) (semanticValidity : SemanticValidity) (call : Call) :
    Persists c (Cadi.step semanticValidity c call) :=
  step_keeps (P := Persists c) h (.refl c) fun _ _ _ _ ht => ht.persists

/-- Every core that a run of calls reaches from the empty one is grounded. -/
theorem grounded_run (semanticValidity : SemanticValidity) (calls : List Call) :
    Grounded (run (step semanticValidity) {} calls) :=
  invariant_run (A := fun _ _ => True) .empty (fun _ call hc _ => hc.step semanticValidity call)
    (.trivial (fun _ _ => True.intro) _ _)

theorem Grounded.persists_run (h : Grounded c) (semanticValidity : SemanticValidity)
    (calls : List Call) : Persists c (run (Cadi.step semanticValidity) c calls) :=
  relation_run (A := fun _ _ => True) .refl .trans h
    (fun _ call hc _ => hc.step semanticValidity call)
    (fun _ call hc _ => hc.persists semanticValidity call) (.trivial (fun _ _ => True.intro) _ _)

end Runs

end Cadi
