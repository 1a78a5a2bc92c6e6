import Cadi.Invariants.Ledger
import Cadi.Oracle.Checks

namespace Cadi
open Library
set_option autoImplicit true

/-- The identifier keys an Attempt of the request that has the authority. -/
def Holder (attempts : Dict String Attempt) (requestId : String) (authority : AttemptAuthority)
    (k : String) : Prop :=
  ∃ a, attempts.get? k = some a ∧ a.requestId = requestId ∧ a.authorityStatus = authority

/-- The pointer names exactly the Attempts of the request that have the authority. -/
def Names (attempts : Dict String Attempt) (requestId : String) (authority : AttemptAuthority)
    (pointer : Option String) : Prop :=
  ∀ k, pointer = some k ↔ Holder attempts requestId authority k

structure AuthorityPointers (requests : Dict String LogicalRequest)
    (attempts : Dict String Attempt) : Prop where
  current : ∀ k r, requests.get? k = some r → Names attempts k .current r.currentAttemptId
  committed : ∀ k r, requests.get? k = some r → Names attempts k .committed r.committedAttemptId

/-- The numbers are one to the length of the list, in some order. -/
def Numbered (l : List Int) : Prop := l.Perm (oneTo l.length)

/-- The numbers of the entities that belong to one owner, in the order of the store. -/
def numbersOf (owner : α → String) (number : α → Int) (d : Dict String α) (k : String) :
    List Int :=
  (d.values.filter (owner · = k)).map number

def generationsOf (attempts : Dict String Attempt) : String → List Int :=
  numbersOf Attempt.requestId Attempt.generation attempts

def ordinalsOf (phases : Dict String Phase) : String → List Int :=
  numbersOf Phase.attemptId Phase.ordinal phases

/-- What a COMPLETED request points to. -/
structure Completed (attempts : Dict String Attempt) (outputs : Dict String Output)
    (r : LogicalRequest) : Prop where
  current : r.currentAttemptId = none
  attempt : ∃ k a, r.committedAttemptId = some k ∧ attempts.get? k = some a ∧
    a.requestId = r.id ∧ a.authorityStatus = .committed ∧ a.executionStatus = .succeeded
  output : ∃ k o, r.authoritativeOutputId = some k ∧ outputs.get? k = some o ∧
    some o.attemptId = r.committedAttemptId ∧ o.terminal = true

structure CommitConsistent (requests : Dict String LogicalRequest) (attempts : Dict String Attempt)
    (outputs : Dict String Output) : Prop where
  completed : ∀ k r, requests.get? k = some r → r.status = .completed →
    Completed attempts outputs r
  closed : ∀ k r, requests.get? k = some r → r.status = .failed ∨ r.status = .cancelled →
    r.currentAttemptId = none ∧ r.committedAttemptId = none ∧ r.authoritativeOutputId = none

section Provenance
variable (continuations : Dict String Continuation) (requests : Dict String LogicalRequest)
  (attempts : Dict String Attempt) (phases : Dict String Phase) (states : Dict String ReusableState)

/-- The origin a State declares resolves to the entities it records. -/
def DeclaredOrigin (x : ReusableState) : Prop :=
  match x.originType with
  | "continuation" => ∃ ct, continuations.get? x.originId = some ct ∧
    x.originContinuationId = ct.id ∧ x.originRequestId = none ∧ x.producerAttemptId = none ∧
    x.producerPhaseId = none
  | "request" => ∃ r, requests.get? x.originId = some r ∧ r.status = .completed ∧
    r.committedAttemptId ≠ none ∧ x.originRequestId = some r.id ∧
    x.originContinuationId = r.continuationId ∧ x.producerAttemptId = r.committedAttemptId ∧
    x.producerPhaseId = none
  | "attempt" => ∃ a r, attempts.get? x.originId = some a ∧ requests.get? a.requestId = some r ∧
    x.producerAttemptId = some a.id ∧ x.originRequestId = some r.id ∧
    x.originContinuationId = r.continuationId ∧ x.producerPhaseId = none
  | "phase" => ∃ p a r, phases.get? x.originId = some p ∧ attempts.get? p.attemptId = some a ∧
    requests.get? a.requestId = some r ∧ x.producerPhaseId = some p.id ∧
    x.producerAttemptId = some a.id ∧ x.originRequestId = some r.id ∧
    x.originContinuationId = r.continuationId
  | _ => False

/-- Within one Attempt a State depends on States of strictly earlier Phases only. -/
def PhasePrecedence (x y : ReusableState) : Prop :=
  ∀ k j, truthy x.producerPhaseId = some k → truthy y.producerPhaseId = some j →
    y.producerAttemptId = x.producerAttemptId →
    ∃ p q, phases.get? k = some p ∧ phases.get? j = some q ∧ q.ordinal < p.ordinal

structure Provenance (x : ReusableState) : Prop where
  continuation : x.originContinuationId ∈ continuations
  origin : DeclaredOrigin continuations requests attempts phases x
  dependency : ∀ d ∈ x.derivedFrom, ∃ y, states.get? d = some y ∧
    AncestorOrSelf continuations y.originContinuationId x.originContinuationId ∧
    PhasePrecedence phases x y
  producer : ∀ k, truthy x.producerAttemptId = some k → ∃ a, attempts.get? k = some a ∧
    ∀ q, truthy x.originRequestId = some q → a.requestId = q
  producerPhase : ∀ k, truthy x.producerPhaseId = some k → ∃ p, phases.get? k = some p ∧
    some p.attemptId = x.producerAttemptId ∧ p.status = .completed

end Provenance

def ReplicasPlaced (states : Dict String ReusableState) (replicas : Dict String StateReplica)
    (bindings : Dict String Binding) : Prop :=
  ∀ k r, replicas.get? k = some r → r.stateId ∈ states ∧ ∀ j, r.bindingId = some j →
    ∃ b, bindings.get? j = some b ∧ r.bindingEpoch = some b.epoch

structure BindingAuthority (bindings : Dict String Binding)
    (currentBindingBySubject : Dict String String) (currentEpochBySubject : Dict String Int) :
    Prop where
  current : ∀ s k, currentBindingBySubject.get? s = some k → ∃ b, bindings.get? k = some b ∧
    b.subjectId = s ∧ b.status = .active ∧ currentEpochBySubject.get? s = some b.epoch
  active : ∀ k b, bindings.get? k = some b → b.status = .active →
    currentBindingBySubject.get? b.subjectId = some k

structure BindingGenerations (bindings : Dict String Binding)
    (currentEpochBySubject lastAllocatedEpochBySubject : Dict String Int) : Prop where
  above : ∀ k b, bindings.get? k = some b → b.baseEpoch < b.epoch
  distinct : ∀ k b k' b', bindings.get? k = some b → bindings.get? k' = some b' →
    b.subjectId = b'.subjectId → b.epoch = b'.epoch → k = k'
  last : ∀ k b, bindings.get? k = some b →
    ∃ l, lastAllocatedEpochBySubject.get? b.subjectId = some l ∧ b.epoch ≤ l ∧
      ∃ k' b', bindings.get? k' = some b' ∧ b'.subjectId = b.subjectId ∧ b'.epoch = l
  current : ∀ k b e, bindings.get? k = some b →
    currentEpochBySubject.get? b.subjectId = some e →
    ∃ k' b', bindings.get? k' = some b' ∧ b'.subjectId = b.subjectId ∧ b'.epoch = e

structure Derivation (evidence : Dict String Evidence) (e : Evidence) : Prop where
  derived : e.authority = .derived → e.derivedFrom ≠ ∅ ∧ truthy e.derivationRule ≠ none
  direct : e.authority ≠ .derived → e.derivedFrom = ∅ ∧ truthy e.derivationRule = none
  support : ∀ d ∈ e.derivedFrom, ∃ s, evidence.get? d = some s ∧
    (e.status = .valid → s.status = .valid)
  scope : e.derivedFrom ≠ ∅ → ∀ p ∈ e.scope, ∃ d ∈ e.derivedFrom, ∃ s,
    evidence.get? d = some s ∧ p ∈ s.scope

structure EventsOrdered (events : Dict String SemanticEvent) (eventOrder : List String) : Prop where
  nodup : eventOrder.Nodup
  mem : ∀ k, k ∈ eventOrder ↔ k ∈ events

def OutputsGrounded (attempts : Dict String Attempt) (evidence : Dict String Evidence)
    (outputs : Dict String Output) : Prop :=
  ∀ k o, outputs.get? k = some o → o.attemptId ∈ attempts ∧ ∀ e ∈ o.evidenceIds, e ∈ evidence

/-- The property of the stores that the invariant oracle decides. -/
structure OracleHolds (c : ContinuityCore) : Prop where
  keys : KeysMatch c
  identity : c.ids.Nodup
  scopes : ParentScopes c.programs c.sessions c.continuations c.requests c.attempts c.phases
  authority : AuthorityPointers c.requests c.attempts
  generations : ∀ k ∈ c.requests, Numbered (generationsOf c.attempts k)
  commits : CommitConsistent c.requests c.attempts c.outputs
  dag : ContinuationsAcyclic c.continuations
  ordinals : ∀ k ∈ c.attempts, Numbered (ordinalsOf c.phases k)
  acyclic : StatesAcyclic c.states
  provenance : ∀ k x, c.states.get? k = some x →
    Provenance c.continuations c.requests c.attempts c.phases c.states x
  replicas : ReplicasPlaced c.states c.replicas c.bindings
  bindings : BindingAuthority c.bindings c.currentBindingBySubject c.currentEpochBySubject
  epochs : BindingGenerations c.bindings c.currentEpochBySubject c.lastAllocatedEpochBySubject
  evidence : ∀ k e, c.evidence.get? k = some e → Derivation c.evidence e
  events : EventsOrdered c.events c.eventOrder
  outputs : OutputsGrounded c.attempts c.evidence c.outputs

theorem OracleHolds.dependenciesKnown (h : OracleHolds c) : DependenciesKnown c.states := by
  intro k x hx d hd
  obtain ⟨y, hy, _⟩ := (h.provenance k x hx).dependency d hd
  exact Dict.mem_of_get? hy

theorem OracleHolds.grounded (h : OracleHolds c) : Grounded c :=
  ⟨h.keys, h.scopes, h.dependenciesKnown⟩

end Cadi
