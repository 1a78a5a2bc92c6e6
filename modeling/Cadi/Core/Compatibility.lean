import Cadi.Core.Evidence

namespace Cadi
open Library
set_option autoImplicit true

/-- The callback of the core; a Python callable may raise. -/
abbrev SemanticValidity := ReusableState → ExecutionContext → Except PyError Bool

/-- The default callback accepts every State. -/
def defaultValidity : SemanticValidity := fun _ _ => .ok true

/-- The Phase of a context, when it names one, belongs to the Attempt and has started. -/
def phaseConsistent (c : ContinuityCore) (a : Attempt) (phaseId : Option String) : Bool :=
  match phaseId with
  | none => true
  | some id =>
    match c.phases.get? id with
    | none => false
    | some phase => phase.attemptId = a.id && (phase.status = .running || phase.status = .completed)

def contextConsistent (c : ContinuityCore) (ctx : ExecutionContext) : Bool :=
  match c.programs.get? ctx.programId, c.sessions.get? ctx.sessionId,
    c.continuations.get? ctx.continuationId, c.requests.get? ctx.requestId,
    c.attempts.get? ctx.attemptId with
  | some p, some s, some ct, some r, some a =>
    s.programId = p.id && ct.sessionId = s.id && r.continuationId = ct.id &&
    a.requestId = r.id && r.currentAttemptId = some a.id && a.authorityStatus = .current &&
    phaseConsistent c a ctx.phaseId
  | _, _, _, _, _ => false

/-- The producer Attempt of a State, if any, still speaks for it in the context. -/
def producerAuthoritative (c : ContinuityCore) (x : ReusableState) (ctx : ExecutionContext) :
    Except PyError Bool :=
  match truthy x.producerAttemptId with
  | none => .ok true
  | some producer => do
    let pa ← item c.attempts producer
    let isCurrent : Bool := pa.id = ctx.attemptId && pa.authorityStatus = .current
    if pa.authorityStatus = .superseded then .ok false
    else match truthy x.originRequestId with
      | none => .ok isCurrent
      | some origin => do
        let pr ← item c.requests origin
        if pr.status = .completed then .ok (pr.committedAttemptId = some pa.id)
        else .ok isCurrent

/-- A State produced by a Phase of the consuming Attempt comes from a strictly earlier Phase. -/
def phaseOrdered (c : ContinuityCore) (x : ReusableState) (ctx : ExecutionContext) :
    Except PyError Bool :=
  match truthy x.producerPhaseId with
  | none => .ok true
  | some producer =>
    if x.producerAttemptId = some ctx.attemptId then
      match ctx.phaseId with
      | none => .ok false
      | some consumer => do
        let producerPhase ← item c.phases producer
        let consumerPhase ← item c.phases consumer
        .ok (producerPhase.ordinal < consumerPhase.ordinal)
    else .ok true

section Callback
variable (semanticValidity : SemanticValidity)

/-- The recursion over dependencies; `visiting` holds the States on the current path. -/
def stateCompatibleRecursive (c : ContinuityCore) (ctx : ExecutionContext) :
    Nat → String → List String → Except PyError Bool
  | 0, _, _ => .error .exhausted
  | fuel + 1, stateId, visiting =>
    match c.states.get? stateId with
    | none => .ok false
    | some x =>
      if x.validity ≠ .valid then .ok false
      else if stateId ∈ visiting then .ok false
      else do
        let reached ← c.isAncestor x.originContinuationId ctx.continuationId
        if !reached then return false
        let authoritative ← producerAuthoritative c x ctx
        if !authoritative then return false
        let ordered ← phaseOrdered c x ctx
        if !ordered then return false
        let compatible ← allHold
          (fun dependencyId => stateCompatibleRecursive c ctx fuel dependencyId (stateId :: visiting))
          (elements x.derivedFrom)
        if !compatible then return false
        semanticValidity x ctx

def stateCompatible (c : ContinuityCore) (stateId : String) (ctx : ExecutionContext) :
    Except PyError Bool :=
  if contextConsistent c ctx then
    stateCompatibleRecursive semanticValidity c ctx (c.states.keys.length + 1) stateId []
  else .ok false

def canConsumeState (clock : Number) (c : ContinuityCore) (stateId replicaId : String)
    (ctx : ExecutionContext) (evidenceIds : List String) (now : Option Number := none) :
    Except PyError Bool := do
  let r ← item c.replicas replicaId
  if r.stateId ≠ stateId ∨ r.status ≠ .valid then return false
  let compatible ← stateCompatible semanticValidity c stateId ctx
  if !compatible then return false
  match c.requireEvidence clock "consume_state" evidenceIds now
    (some {("state", stateId), ("replica", replicaId)}) none with
  | .ok _ => return true
  | .error (.insufficientEvidence _) => return false
  | .error e => throw e

end Callback

end Cadi
