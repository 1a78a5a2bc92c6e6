import Cadi.Oracle.Records

namespace Cadi
open Library
set_option autoImplicit true

/-- The states in which a transition keeps the property of the oracle. -/
def Effect.Safe (c : ContinuityCore) : Effect → Prop
  | .startAttempt _ r => r.currentAttemptId ≠ some ""
  | .finalize r _ _ => r.committedAttemptId = none
  | .propose _ subjectId _ => Allocatable c subjectId
  | .activateInitial _ subjectId _ => c.currentEpoch subjectId ≤ c.lastAllocatedEpoch subjectId
  | .commitMigration b => c.currentBindingBySubject.get? b.subjectId ≠ some ""
  | _ => True

section Transitions
variable {c : ContinuityCore}

theorem Effect.authorityPointers {e : Effect} (h : AuthorityPointers c.requests c.attempts)
    (hscope : ∀ k a, c.attempts.get? k = some a → a.requestId ∈ c.requests) (ha : e.Allowed c)
    (hs : e.Safe c) : AuthorityPointers (e.apply c).requests (e.apply c).attempts := by
  cases e with
  | createRequest id continuationId => exact h.createRequest hscope ha.1.unused.requests
  | startAttempt id r => exact h.startAttempt ha hs
  | setExecution a status => exact h.setExecution ha.1
  | finalize r a o => exact h.finalize ha hs
  | createProgram | setProgramStatus | createSession | createContinuation | setLifecycle
  | createPhase | setPhaseStatus | createOutput | createState | setValidity | addReplica
  | setReplicaStatus | propose | activateInitial | beginMigration | commitMigration | recordEvent
  | recordEvidence => exact h

/-- Every allowed transition taken where it is safe keeps the property of the oracle. -/
theorem Effect.oracleHolds {e : Effect} (h : OracleHolds c) (ha : e.Allowed c) (hs : e.Safe c) :
    OracleHolds (e.apply c) where
  keys := e.keysMatch h.keys
  identity := Effect.ids_nodup h.identity ha
  scopes := Effect.parentScopes h.scopes ha
  authority := Effect.authorityPointers h.authority h.scopes.attempt ha hs
  generations := Effect.generations h.generations h.scopes.attempt ha
  commits := Effect.commits h.commits h.authority ha
  dag := Effect.dag h.dag h.scopes.parentsKnown ha
  ordinals := Effect.ordinals h.ordinals h.scopes.phase ha
  acyclic := Effect.acyclic h.acyclic h.dependenciesKnown ha
  provenance _ _ hx := Effect.provenance ha h.keys h.scopes h.commits h.provenance hx
  replicas := Effect.replicas h.replicas ha
  bindings := Effect.bindingAuthority h.bindings ha fun b he => by
    subst he
    exact hs
  epochs := Effect.bindingGenerations h.epochs ha (fun id s l he => by subst he; exact hs)
    fun id s l he => by subst he; exact hs
  evidence := Effect.derivations h.evidence ha
  events := Effect.eventsOrdered h.events ha
  outputs := Effect.outputsGrounded h.outputs ha

end Transitions

section Calls
variable {c : ContinuityCore} {semanticValidity : SemanticValidity}

/-- The states in which a call, if accepted, keeps the property of the oracle. -/
def PublicOperation.Guarded (c : ContinuityCore) : PublicOperation → Prop
  | .startAttempt _ requestId =>
    ∀ r, c.requests.get? requestId = some r → r.currentAttemptId ≠ some ""
  | .finalizeRequest requestId _ _ =>
    ∀ r, c.requests.get? requestId = some r → ¬ r.status.terminal → r.committedAttemptId = none
  | .proposeBinding _ subjectId _ => Allocatable c subjectId
  | .activateInitialBinding _ subjectId _ =>
    c.currentEpoch subjectId ≤ c.lastAllocatedEpoch subjectId
  | .commitMigration bindingId _ _ => ∀ b, c.bindings.get? bindingId = some b →
    c.currentBindingBySubject.get? b.subjectId ≠ some ""
  | _ => True

theorem PublicOperation.Guarded.safe {operation : PublicOperation} (hg : operation.Guarded c)
    (hes : operation.Performs es) (ht : Takes c es c') : AlongEffects Effect.Safe c es := by
  cases operation with
  | startAttempt id requestId =>
    obtain ⟨r, rfl, rfl⟩ := hes
    exact ⟨hg r ht.1.stored, True.intro⟩
  | finalizeRequest requestId outputId now =>
    rcases hes with rfl | ⟨r, a, o, rfl, rfl, rfl⟩
    · exact True.intro
    · exact ⟨hg r ht.1.request ht.1.opened, True.intro⟩
  | proposeBinding id subjectId locationId =>
    cases hes
    exact ⟨hg, True.intro⟩
  | activateInitialBinding id subjectId locationId =>
    cases hes
    exact ⟨hg, True.intro⟩
  | commitMigration bindingId evidenceIds now =>
    obtain ⟨b, rfl, rfl⟩ := hes
    exact ⟨hg b ht.1.stored, True.intro⟩
  | createProgram | createSession | createContinuation | createRequest | createPhase | createOutput
  | addReplica =>
    cases hes
    exact ⟨True.intro, True.intro⟩
  | setProgramStatus | setContinuationLifecycle | setAttemptExecution | completeAttempt
  | setPhaseStatus | completePhase | createState | setStateValidity | setReplicaStatus
  | beginMigration =>
    obtain ⟨_, _, rfl⟩ := hes
    exact ⟨True.intro, True.intro⟩
  | resumeAfterWait =>
    obtain ⟨_, _, _, rfl⟩ := hes
    exact ⟨True.intro, True.intro, True.intro⟩
  | recordEvent | recordEvidence =>
    rcases hes with rfl | rfl
    · exact True.intro
    · exact ⟨True.intro, True.intro⟩
  | isAncestor | stateCompatible | canConsumeState | requireEvidence | reconcile =>
    cases hes
    exact True.intro

/-- The step condition: an accepted call is guarded. -/
def AcceptedGuarded (semanticValidity : SemanticValidity) (c : ContinuityCore) (call : Call) :
    Prop :=
  accepted semanticValidity c call = true → call.operation.Guarded c

theorem OracleHolds.step (h : OracleHolds c) (hg : AcceptedGuarded semanticValidity c call) :
    OracleHolds (step semanticValidity c call) :=
  step_keeps h.grounded h fun ha _ _ hes ht =>
    ht.invariant ((hg ha).safe hes ht) h fun _ _ hc hallowed hsafe =>
      Effect.oracleHolds hc hallowed hsafe

theorem OracleHolds.throughout (h : OracleHolds c)
    (hg : Along (Cadi.step semanticValidity) (AcceptedGuarded semanticValidity) c calls) :
    Throughout (Cadi.step semanticValidity) OracleHolds c calls :=
  invariant_throughout h (fun _ _ hc hcall => hc.step hcall) hg

end Calls

end Cadi
