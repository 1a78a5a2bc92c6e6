import Cadi.Invariants.Grounded

namespace Cadi
open Library
set_option autoImplicit true

/-- The non-strippable check of the oracle. -/
def require (condition : Prop) [Decidable condition] : Except PyError Unit :=
  raiseIf (¬ condition) (.assertionError "Continuity invariant violation")

@[simp] theorem require_eq_ok [Decidable p] : require p = .ok () ↔ p := by
  simp only [require, raiseIf_eq_ok, Decidable.not_not]

section Identity

/-- Checks one collection against the keys seen so far and adds its own. -/
def seenKeys [Entity α] : List String → List (String × α) → Except PyError (List String)
  | seen, [] => .ok seen
  | seen, (key, entity) :: rest => do
    require (Entity.id entity = key)
    require (key ∉ seen)
    seenKeys (key :: seen) rest

def globalIdentityUniqueness (c : ContinuityCore) : Except PyError Unit := do
  let seen ← seenKeys [] c.programs.entries
  let seen ← seenKeys seen c.sessions.entries
  let seen ← seenKeys seen c.continuations.entries
  let seen ← seenKeys seen c.requests.entries
  let seen ← seenKeys seen c.attempts.entries
  let seen ← seenKeys seen c.phases.entries
  let seen ← seenKeys seen c.states.entries
  let seen ← seenKeys seen c.replicas.entries
  let seen ← seenKeys seen c.bindings.entries
  let seen ← seenKeys seen c.evidence.entries
  let seen ← seenKeys seen c.outputs.entries
  let _ ← seenKeys seen c.events.entries

def checkParentScopes (c : ContinuityCore) : Except PyError Unit := do
  c.sessions.values.forM fun session => require (session.programId ∈ c.programs)
  c.continuations.values.forM fun continuation => do
    require (continuation.sessionId ∈ c.sessions)
    (elements continuation.parentIds).forM fun parentId => do
      let parent ← item c.continuations parentId
      require (parent.sessionId = continuation.sessionId)
  c.requests.values.forM fun request => require (request.continuationId ∈ c.continuations)
  c.attempts.values.forM fun attempt => require (attempt.requestId ∈ c.requests)
  c.phases.values.forM fun phase => require (phase.attemptId ∈ c.attempts)

end Identity

section Authority

/-- The Attempts of a request with the given authority. -/
def ContinuityCore.withAuthority (c : ContinuityCore) (requestId : String)
    (authority : AttemptAuthority) : List Attempt :=
  c.attempts.values.filter fun attempt =>
    attempt.requestId = requestId ∧ attempt.authorityStatus = authority

/-- At most one Attempt has an authority, and a pointer names it. -/
def checkPointer (pointer : Option String) (attempts : List Attempt) : Except PyError Unit :=
  match pointer with
  | none => require (attempts = [])
  | some id => require (attempts.map (·.id) = [id])

def checkAttemptAuthority (c : ContinuityCore) : Except PyError Unit :=
  c.requests.entries.forM fun (rid, request) => do
    let current := c.withAuthority rid .current
    let committed := c.withAuthority rid .committed
    require (current.length ≤ 1)
    require (committed.length ≤ 1)
    checkPointer request.currentAttemptId current
    checkPointer request.committedAttemptId committed
    (c.withAuthority rid .superseded).forM fun attempt => do
      require (some attempt.id ≠ request.currentAttemptId)
      require (some attempt.id ≠ request.committedAttemptId)

/-- The integers from one to the given length. -/
def oneTo (n : Nat) : List Int := (List.range n).map fun (i : Nat) => (i : Int) + 1

def checkAttemptGenerations (c : ContinuityCore) : Except PyError Unit :=
  c.requests.keys.forM fun requestId => do
    let attempts := c.attemptsOf requestId
    let generations := (attempts.map (·.generation)).insertionSort (· ≤ ·)
    require (generations = oneTo attempts.length)

/-- The checks on a COMPLETED request. -/
def checkCompleted (c : ContinuityCore) (request : LogicalRequest) : Except PyError Unit := do
  require (request.currentAttemptId = none)
  require (request.committedAttemptId ≠ none)
  require (request.authoritativeOutputId ≠ none)
  let attempt ← item c.attempts (request.committedAttemptId.getD "")
  let output ← item c.outputs (request.authoritativeOutputId.getD "")
  require (attempt.requestId = request.id)
  require (attempt.authorityStatus = .committed)
  require (attempt.executionStatus = .succeeded)
  require (some output.attemptId = request.committedAttemptId)
  require (output.terminal = true)

def checkRequestCommitConsistency (c : ContinuityCore) : Except PyError Unit :=
  c.requests.values.forM fun request =>
    if request.status = .completed then checkCompleted c request
    else if request.status = .failed ∨ request.status = .cancelled then do
      require (request.currentAttemptId = none)
      require (request.committedAttemptId = none)
      require (request.authoritativeOutputId = none)
    else .ok ()

end Authority

section Graphs

def checkContinuationDags (c : ContinuityCore) : Except PyError Unit :=
  c.sessions.keys.forM fun sessionId => do
    let cyclic ← c.hasCycle sessionId
    require (cyclic = false)

def checkPhaseOrdering (c : ContinuityCore) : Except PyError Unit :=
  c.attempts.keys.forM fun attemptId => do
    let phases := (c.phasesOf attemptId).insertionSort fun p q => p.ordinal ≤ q.ordinal
    require (phases.map (·.ordinal) = oneTo phases.length)
    require (∀ p ∈ phases, p.attemptId = attemptId)

def checkDeclaredOrigin (c : ContinuityCore) (x : ReusableState) : Except PyError Unit :=
  match x.originType with
  | "continuation" => do
    let continuation ← item c.continuations x.originId
    require (x.originContinuationId = continuation.id)
    require (x.originRequestId = none)
    require (x.producerAttemptId = none)
    require (x.producerPhaseId = none)
  | "request" => do
    let request ← item c.requests x.originId
    require (request.status = .completed)
    require (request.committedAttemptId ≠ none)
    require (x.originRequestId = some request.id)
    require (x.originContinuationId = request.continuationId)
    require (x.producerAttemptId = request.committedAttemptId)
    require (x.producerPhaseId = none)
  | "attempt" => do
    let attempt ← item c.attempts x.originId
    let request ← item c.requests attempt.requestId
    require (x.producerAttemptId = some attempt.id)
    require (x.originRequestId = some request.id)
    require (x.originContinuationId = request.continuationId)
    require (x.producerPhaseId = none)
  | "phase" => do
    let phase ← item c.phases x.originId
    let attempt ← item c.attempts phase.attemptId
    let request ← item c.requests attempt.requestId
    require (x.producerPhaseId = some phase.id)
    require (x.producerAttemptId = some attempt.id)
    require (x.originRequestId = some request.id)
    require (x.originContinuationId = request.continuationId)
  | _ => .error (.assertionError s!"unsupported State origin_type: {x.originType}")

/-- The order of two Phases of one Attempt when a State of the one depends on one of the other. -/
def checkPhasePrecedence (c : ContinuityCore) (x dependency : ReusableState) :
    Except PyError Unit :=
  match truthy x.producerPhaseId, truthy dependency.producerPhaseId with
  | some producer, some earlier =>
    if dependency.producerAttemptId = x.producerAttemptId then do
      let producerPhase ← item c.phases producer
      let dependencyPhase ← item c.phases earlier
      require (dependencyPhase.ordinal < producerPhase.ordinal)
    else .ok ()
  | _, _ => .ok ()

def checkProvenanceEdge (c : ContinuityCore) (x : ReusableState) (dependencyId : String) :
    Except PyError Unit := do
  let dependency ← item c.states dependencyId
  let causal ← c.isAncestor dependency.originContinuationId x.originContinuationId
  require (causal = true)
  checkPhasePrecedence c x dependency

def checkProducerAttempt (c : ContinuityCore) (x : ReusableState) : Except PyError Unit :=
  match truthy x.producerAttemptId with
  | none => .ok ()
  | some producer => do
    let attempt ← item c.attempts producer
    match truthy x.originRequestId with
    | none => return
    | some origin => require (attempt.requestId = origin)

def checkProducerPhase (c : ContinuityCore) (x : ReusableState) : Except PyError Unit :=
  match truthy x.producerPhaseId with
  | none => .ok ()
  | some producer => do
    let phase ← item c.phases producer
    require (some phase.attemptId = x.producerAttemptId)
    require (phase.status = .completed)

def checkStateProvenance (c : ContinuityCore) : Except PyError Unit := do
  let cyclic ← c.stateCycle
  require (cyclic = false)
  c.states.values.forM fun x => do
    require (x.originContinuationId ∈ c.continuations)
    checkDeclaredOrigin c x
    (elements x.derivedFrom).forM (checkProvenanceEdge c x)
    checkProducerAttempt c x
    checkProducerPhase c x

end Graphs

section Placement

def checkReplicaIntegrity (c : ContinuityCore) : Except PyError Unit :=
  c.replicas.values.forM fun replica => do
    require (replica.stateId ∈ c.states)
    match replica.bindingId with
    | none => return
    | some bindingId =>
      let binding ← item c.bindings bindingId
      require (replica.bindingEpoch = some binding.epoch)

def checkBindingAuthority (c : ContinuityCore) : Except PyError Unit := do
  c.currentBindingBySubject.entries.forM fun (subject, bindingId) => do
    let binding ← item c.bindings bindingId
    require (binding.subjectId = subject)
    require (binding.status = .active)
    let epoch ← item c.currentEpochBySubject subject
    require (epoch = binding.epoch)
  c.bindings.values.forM fun binding =>
    if binding.status = .active then
      require (c.currentBindingBySubject.get? binding.subjectId = some binding.id)
    else .ok ()

/-- The Bindings grouped by subject, in the order of the store. -/
def bySubject (bindings : List Binding) : Dict String (List Binding) :=
  bindings.foldl (fun d b => d.set b.subjectId ((d.get? b.subjectId).getD [] ++ [b])) ∅

/-- The checks on the epochs of one subject. -/
def checkEpochs (c : ContinuityCore) (subject : String) (epochs : List Int) :
    Except PyError Unit := do
  require (epochs.length = epochs.toFinset.card)
  let lastAllocated ← item c.lastAllocatedEpochBySubject subject
  require (lastAllocated = maxDefault 0 epochs)
  match c.currentEpochBySubject.get? subject with
  | none => return
  | some currentEpoch => require (currentEpoch ∈ epochs)

def checkBindingGenerations (c : ContinuityCore) : Except PyError Unit := do
  c.bindings.values.forM fun binding => require (binding.epoch > binding.baseEpoch)
  (bySubject c.bindings.values).entries.forM fun (subject, bindings) =>
    checkEpochs c subject (bindings.map (·.epoch))

end Placement

section Records

/-- The support checks of the oracle, against the supports stored now. -/
def checkStoredSupports (c : ContinuityCore) (e : Evidence) : Except PyError Unit := do
  let supports ← (elements e.derivedFrom).mapM (item c.evidence)
  require (∀ s ∈ e.scope, ∃ support ∈ supports, s ∈ support.scope)
  if e.status = .valid then require (∀ support ∈ supports, support.status = .valid)

/-- The authority checks on one item. -/
def checkRecordedDerivation (e : Evidence) : Except PyError Unit :=
  if e.authority = .derived then do
    require (e.derivedFrom ≠ ∅)
    require (truthy e.derivationRule ≠ none)
  else require (¬ (e.derivedFrom ≠ ∅ ∨ truthy e.derivationRule ≠ none))

def checkEvidenceDerivation (c : ContinuityCore) : Except PyError Unit :=
  c.evidence.values.forM fun e => do
    checkRecordedDerivation e
    if e.derivedFrom ≠ ∅ then checkStoredSupports c e

def checkEventIdentity (c : ContinuityCore) : Except PyError Unit := do
  require (c.eventOrder.length = c.eventOrder.toFinset.card)
  require (c.eventOrder.toFinset = c.events.keys.toFinset)
  c.eventOrder.forM fun eventId => do
    let event ← item c.events eventId
    require (event.id = eventId)

def checkOutputIntegrity (c : ContinuityCore) : Except PyError Unit :=
  c.outputs.values.forM fun output => do
    require (output.attemptId ∈ c.attempts)
    (elements output.evidenceIds).forM fun evidenceId => require (evidenceId ∈ c.evidence)

/-- The context of a request with a current Attempt, as the oracle builds it. -/
def requestContext (c : ContinuityCore) (request : LogicalRequest) (attemptId : String) :
    Except PyError ExecutionContext := do
  let continuation ← item c.continuations request.continuationId
  let session ← item c.sessions continuation.sessionId
  return {
    programId := session.programId
    sessionId := session.id
    continuationId := continuation.id
    requestId := request.id
    attemptId }

def checkStateValidity (semanticValidity : SemanticValidity) (c : ContinuityCore) :
    Except PyError Unit :=
  c.states.values.forM fun x =>
    if x.validity = .invalid then
      c.requests.values.forM fun request =>
        match truthy request.currentAttemptId with
        | none => .ok ()
        | some attemptId => do
          let ctx ← requestContext c request attemptId
          let compatible ← stateCompatible semanticValidity c x.id ctx
          require (compatible = false)
    else .ok ()

end Records

/-- `InvariantOracle.assert_all`. -/
def assertAll (semanticValidity : SemanticValidity) (c : ContinuityCore) : Except PyError Unit := do
  globalIdentityUniqueness c
  checkParentScopes c
  checkAttemptAuthority c
  checkAttemptGenerations c
  checkRequestCommitConsistency c
  checkContinuationDags c
  checkPhaseOrdering c
  checkStateProvenance c
  checkReplicaIntegrity c
  checkBindingAuthority c
  checkBindingGenerations c
  checkEvidenceDerivation c
  checkEventIdentity c
  checkOutputIntegrity c
  checkStateValidity semanticValidity c

end Cadi
