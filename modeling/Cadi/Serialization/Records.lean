import Cadi.Serialization.Annotations

namespace Cadi
open Library Restored
set_option autoImplicit true

/-- A dataclass of the snapshots whose fields pass the checks of its own annotations. -/
class Record (α : Type) [Stored α] [Restored α] where
  entityType : String
  id : α → String
  id_normal : ∀ a : α, ∃ fields, (value a).normal = .entity entityType fields ∧
    fieldOfEntity fields "id" = .str (id a)
  valid : ∀ a : α, InRange a → ∀ shown name,
    validateEntity shown entityType name (value a).normal = .ok ()

section Programs

def Program.ofFields (fields : List (String × Value)) : Option Program := do
  let id ← readField fields "id"
  let status ← readField fields "status"
  return ⟨id, status⟩

instance : Restored Program where
  hint := .entity "Program"
  ofValue
    | .entity "Program" fields => Program.ofFields fields
    | _ => none
  Finite _ := True
  InRange _ := True
  ofValue_normal p := by
    change Program.ofFields
      [("id", (value p.id).normal), ("status", (value p.status).normal)] = some p
    simp (disch := decide) only [Program.ofFields, readField_head, readField_tail]
    rfl
  plain p _ := by
    refine .entity (mem_dataclass rfl) rfl ?_ fun h => absurd h (by decide)
    simp only [List.forall_mem_cons, List.not_mem_nil, false_implies, implies_true, and_true]
    exact ⟨plain p.id True.intro, plain p.status True.intro⟩
  accepts _ _ := rfl

instance : Record Program where
  entityType := "Program"
  id := Program.id
  id_normal _ := ⟨_, rfl, rfl⟩
  valid p _ shown name := by
    apply validateEntity_ok rfl
    simp only [List.forall_mem_cons, List.not_mem_nil, false_implies, implies_true, and_true]
    exact ⟨accepts p.id True.intro, accepts p.status True.intro⟩

end Programs

section Sessions

def Session.ofFields (fields : List (String × Value)) : Option Session := do
  let id ← readField fields "id"
  let programId ← readField fields "program_id"
  return ⟨id, programId⟩

instance : Restored Session where
  hint := .entity "Session"
  ofValue
    | .entity "Session" fields => Session.ofFields fields
    | _ => none
  Finite _ := True
  InRange _ := True
  ofValue_normal s := by
    change Session.ofFields
      [("id", (value s.id).normal), ("program_id", (value s.programId).normal)] = some s
    simp (disch := decide) only [Session.ofFields, readField_head, readField_tail]
    rfl
  plain s _ := by
    refine .entity (mem_dataclass rfl) rfl ?_ fun h => absurd h (by decide)
    simp only [List.forall_mem_cons, List.not_mem_nil, false_implies, implies_true, and_true]
    exact ⟨plain s.id True.intro, plain s.programId True.intro⟩
  accepts _ _ := rfl

instance : Record Session where
  entityType := "Session"
  id := Session.id
  id_normal _ := ⟨_, rfl, rfl⟩
  valid s _ shown name := by
    apply validateEntity_ok rfl
    simp only [List.forall_mem_cons, List.not_mem_nil, false_implies, implies_true, and_true]
    exact ⟨accepts s.id True.intro, accepts s.programId True.intro⟩

end Sessions

section Continuations

def Continuation.ofFields (fields : List (String × Value)) : Option Continuation := do
  let id ← readField fields "id"
  let sessionId ← readField fields "session_id"
  let parentIds ← readField fields "parent_ids"
  let lifecycle ← readField fields "lifecycle"
  return ⟨id, sessionId, parentIds, lifecycle⟩

instance : Restored Continuation where
  hint := .entity "Continuation"
  ofValue
    | .entity "Continuation" fields => Continuation.ofFields fields
    | _ => none
  Finite _ := True
  InRange _ := True
  ofValue_normal ct := by
    change Continuation.ofFields
      [("id", (value ct.id).normal), ("session_id", (value ct.sessionId).normal),
        ("parent_ids", (value ct.parentIds).normal), ("lifecycle", (value ct.lifecycle).normal)] = some ct
    simp (disch := decide) only [Continuation.ofFields, readField_head, readField_tail]
    rfl
  plain ct _ := by
    refine .entity (mem_dataclass rfl) rfl ?_ fun h => absurd h (by decide)
    simp only [List.forall_mem_cons, List.not_mem_nil, false_implies, implies_true, and_true]
    exact ⟨plain ct.id True.intro, plain ct.sessionId True.intro, plain ct.parentIds True.intro,
      plain ct.lifecycle True.intro⟩
  accepts _ _ := rfl

instance : Record Continuation where
  entityType := "Continuation"
  id := Continuation.id
  id_normal _ := ⟨_, rfl, rfl⟩
  valid ct _ shown name := by
    apply validateEntity_ok rfl
    simp only [List.forall_mem_cons, List.not_mem_nil, false_implies, implies_true, and_true]
    exact ⟨accepts ct.id True.intro, accepts ct.sessionId True.intro,
      accepts ct.parentIds True.intro, accepts ct.lifecycle True.intro⟩

end Continuations

section LogicalRequests

def LogicalRequest.ofFields (fields : List (String × Value)) : Option LogicalRequest := do
  let id ← readField fields "id"
  let continuationId ← readField fields "continuation_id"
  let status ← readField fields "status"
  let currentAttemptId ← readField fields "current_attempt_id"
  let committedAttemptId ← readField fields "committed_attempt_id"
  let authoritativeOutputId ← readField fields "authoritative_output_id"
  return ⟨id, continuationId, status, currentAttemptId, committedAttemptId, authoritativeOutputId⟩

instance : Restored LogicalRequest where
  hint := .entity "LogicalRequest"
  ofValue
    | .entity "LogicalRequest" fields => LogicalRequest.ofFields fields
    | _ => none
  Finite _ := True
  InRange _ := True
  ofValue_normal r := by
    change LogicalRequest.ofFields
      [("id", (value r.id).normal), ("continuation_id", (value r.continuationId).normal),
        ("status", (value r.status).normal),
        ("current_attempt_id", (value r.currentAttemptId).normal),
        ("committed_attempt_id", (value r.committedAttemptId).normal),
        ("authoritative_output_id", (value r.authoritativeOutputId).normal)] = some r
    simp (disch := decide) only [LogicalRequest.ofFields, readField_head, readField_tail]
    rfl
  plain r _ := by
    refine .entity (mem_dataclass rfl) rfl ?_ fun h => absurd h (by decide)
    simp only [List.forall_mem_cons, List.not_mem_nil, false_implies, implies_true, and_true]
    exact ⟨plain r.id True.intro, plain r.continuationId True.intro, plain r.status True.intro,
      (plain r.currentAttemptId fun _ _ => True.intro),
      (plain r.committedAttemptId fun _ _ => True.intro),
      (plain r.authoritativeOutputId fun _ _ => True.intro)⟩
  accepts _ _ := rfl

instance : Record LogicalRequest where
  entityType := "LogicalRequest"
  id := LogicalRequest.id
  id_normal _ := ⟨_, rfl, rfl⟩
  valid r _ shown name := by
    apply validateEntity_ok rfl
    simp only [List.forall_mem_cons, List.not_mem_nil, false_implies, implies_true, and_true]
    exact ⟨accepts r.id True.intro, accepts r.continuationId True.intro,
      accepts r.status True.intro, (accepts r.currentAttemptId fun _ _ => True.intro),
      (accepts r.committedAttemptId fun _ _ => True.intro),
      (accepts r.authoritativeOutputId fun _ _ => True.intro)⟩

end LogicalRequests

section Attempts

def Attempt.ofFields (fields : List (String × Value)) : Option Attempt := do
  let id ← readField fields "id"
  let requestId ← readField fields "request_id"
  let generation ← readField fields "generation"
  let executionStatus ← readField fields "execution_status"
  let authorityStatus ← readField fields "authority_status"
  return ⟨id, requestId, generation, executionStatus, authorityStatus⟩

instance : Restored Attempt where
  hint := .entity "Attempt"
  ofValue
    | .entity "Attempt" fields => Attempt.ofFields fields
    | _ => none
  Finite _ := True
  InRange _ := True
  ofValue_normal a := by
    change Attempt.ofFields
      [("id", (value a.id).normal), ("request_id", (value a.requestId).normal),
        ("generation", (value a.generation).normal),
        ("execution_status", (value a.executionStatus).normal),
        ("authority_status", (value a.authorityStatus).normal)] = some a
    simp (disch := decide) only [Attempt.ofFields, readField_head, readField_tail]
    rfl
  plain a _ := by
    refine .entity (mem_dataclass rfl) rfl ?_ fun h => absurd h (by decide)
    simp only [List.forall_mem_cons, List.not_mem_nil, false_implies, implies_true, and_true]
    exact ⟨plain a.id True.intro, plain a.requestId True.intro, plain a.generation True.intro,
      plain a.executionStatus True.intro, plain a.authorityStatus True.intro⟩
  accepts _ _ := rfl

instance : Record Attempt where
  entityType := "Attempt"
  id := Attempt.id
  id_normal _ := ⟨_, rfl, rfl⟩
  valid a _ shown name := by
    apply validateEntity_ok rfl
    simp only [List.forall_mem_cons, List.not_mem_nil, false_implies, implies_true, and_true]
    exact ⟨accepts a.id True.intro, accepts a.requestId True.intro, accepts a.generation True.intro,
      accepts a.executionStatus True.intro, accepts a.authorityStatus True.intro⟩

end Attempts

section Phases

def Phase.ofFields (fields : List (String × Value)) : Option Phase := do
  let id ← readField fields "id"
  let attemptId ← readField fields "attempt_id"
  let ordinal ← readField fields "ordinal"
  let phaseType ← readField fields "phase_type"
  let status ← readField fields "status"
  return ⟨id, attemptId, ordinal, phaseType, status⟩

instance : Restored Phase where
  hint := .entity "Phase"
  ofValue
    | .entity "Phase" fields => Phase.ofFields fields
    | _ => none
  Finite _ := True
  InRange _ := True
  ofValue_normal p := by
    change Phase.ofFields
      [("id", (value p.id).normal), ("attempt_id", (value p.attemptId).normal),
        ("ordinal", (value p.ordinal).normal), ("phase_type", (value p.phaseType).normal),
        ("status", (value p.status).normal)] = some p
    simp (disch := decide) only [Phase.ofFields, readField_head, readField_tail]
    rfl
  plain p _ := by
    refine .entity (mem_dataclass rfl) rfl ?_ fun h => absurd h (by decide)
    simp only [List.forall_mem_cons, List.not_mem_nil, false_implies, implies_true, and_true]
    exact ⟨plain p.id True.intro, plain p.attemptId True.intro, plain p.ordinal True.intro,
      plain p.phaseType True.intro, plain p.status True.intro⟩
  accepts _ _ := rfl

instance : Record Phase where
  entityType := "Phase"
  id := Phase.id
  id_normal _ := ⟨_, rfl, rfl⟩
  valid p _ shown name := by
    apply validateEntity_ok rfl
    simp only [List.forall_mem_cons, List.not_mem_nil, false_implies, implies_true, and_true]
    exact ⟨accepts p.id True.intro, accepts p.attemptId True.intro, accepts p.ordinal True.intro,
      accepts p.phaseType True.intro, accepts p.status True.intro⟩

end Phases

section ReusableStates

def ReusableState.ofFields (fields : List (String × Value)) : Option ReusableState := do
  let id ← readField fields "id"
  let originType ← readField fields "origin_type"
  let originId ← readField fields "origin_id"
  let originContinuationId ← readField fields "origin_continuation_id"
  let originRequestId ← readField fields "origin_request_id"
  let producerAttemptId ← readField fields "producer_attempt_id"
  let semanticType ← readField fields "semantic_type"
  let representation ← readField fields "representation"
  let lifecycle ← readField fields "lifecycle"
  let validity ← readField fields "validity"
  let derivedFrom ← readField fields "derived_from"
  let producerPhaseId ← readField fields "producer_phase_id"
  return ⟨id, originType, originId, originContinuationId, originRequestId, producerAttemptId,
    semanticType, representation, lifecycle, validity, derivedFrom, producerPhaseId⟩

instance : Restored ReusableState where
  hint := .entity "ReusableState"
  ofValue
    | .entity "ReusableState" fields => ReusableState.ofFields fields
    | _ => none
  Finite _ := True
  InRange _ := True
  ofValue_normal x := by
    change ReusableState.ofFields
      [("id", (value x.id).normal), ("origin_type", (value x.originType).normal),
        ("origin_id", (value x.originId).normal),
        ("origin_continuation_id", (value x.originContinuationId).normal),
        ("origin_request_id", (value x.originRequestId).normal),
        ("producer_attempt_id", (value x.producerAttemptId).normal),
        ("semantic_type", (value x.semanticType).normal),
        ("representation", (value x.representation).normal),
        ("lifecycle", (value x.lifecycle).normal), ("validity", (value x.validity).normal),
        ("derived_from", (value x.derivedFrom).normal),
        ("producer_phase_id", (value x.producerPhaseId).normal)] = some x
    simp (disch := decide) only [ReusableState.ofFields, readField_head, readField_tail]
    rfl
  plain x _ := by
    refine .entity (mem_dataclass rfl) rfl ?_ fun h => absurd h (by decide)
    simp only [List.forall_mem_cons, List.not_mem_nil, false_implies, implies_true, and_true]
    exact ⟨plain x.id True.intro, plain x.originType True.intro, plain x.originId True.intro,
      plain x.originContinuationId True.intro, (plain x.originRequestId fun _ _ => True.intro),
      (plain x.producerAttemptId fun _ _ => True.intro), plain x.semanticType True.intro,
      plain x.representation True.intro, plain x.lifecycle True.intro,
      plain x.validity True.intro, plain x.derivedFrom True.intro,
      (plain x.producerPhaseId fun _ _ => True.intro)⟩
  accepts _ _ := rfl

instance : Record ReusableState where
  entityType := "ReusableState"
  id := ReusableState.id
  id_normal _ := ⟨_, rfl, rfl⟩
  valid x _ shown name := by
    apply validateEntity_ok rfl
    simp only [List.forall_mem_cons, List.not_mem_nil, false_implies, implies_true, and_true]
    exact ⟨accepts x.id True.intro, accepts x.originType True.intro, accepts x.originId True.intro,
      accepts x.originContinuationId True.intro,
      (accepts x.originRequestId fun _ _ => True.intro),
      (accepts x.producerAttemptId fun _ _ => True.intro), accepts x.semanticType True.intro,
      accepts x.representation True.intro, accepts x.lifecycle True.intro,
      accepts x.validity True.intro, accepts x.derivedFrom True.intro,
      (accepts x.producerPhaseId fun _ _ => True.intro)⟩

end ReusableStates

section StateReplicas

def StateReplica.ofFields (fields : List (String × Value)) : Option StateReplica := do
  let id ← readField fields "id"
  let stateId ← readField fields "state_id"
  let locationId ← readField fields "location_id"
  let status ← readField fields "status"
  let bindingId ← readField fields "binding_id"
  let bindingEpoch ← readField fields "binding_epoch"
  return ⟨id, stateId, locationId, status, bindingId, bindingEpoch⟩

instance : Restored StateReplica where
  hint := .entity "StateReplica"
  ofValue
    | .entity "StateReplica" fields => StateReplica.ofFields fields
    | _ => none
  Finite _ := True
  InRange _ := True
  ofValue_normal r := by
    change StateReplica.ofFields
      [("id", (value r.id).normal), ("state_id", (value r.stateId).normal),
        ("location_id", (value r.locationId).normal), ("status", (value r.status).normal),
        ("binding_id", (value r.bindingId).normal),
        ("binding_epoch", (value r.bindingEpoch).normal)] = some r
    simp (disch := decide) only [StateReplica.ofFields, readField_head, readField_tail]
    rfl
  plain r _ := by
    refine .entity (mem_dataclass rfl) rfl ?_ fun h => absurd h (by decide)
    simp only [List.forall_mem_cons, List.not_mem_nil, false_implies, implies_true, and_true]
    exact ⟨plain r.id True.intro, plain r.stateId True.intro, plain r.locationId True.intro,
      plain r.status True.intro, (plain r.bindingId fun _ _ => True.intro),
      (plain r.bindingEpoch fun _ _ => True.intro)⟩
  accepts _ _ := rfl

instance : Record StateReplica where
  entityType := "StateReplica"
  id := StateReplica.id
  id_normal _ := ⟨_, rfl, rfl⟩
  valid r _ shown name := by
    apply validateEntity_ok rfl
    simp only [List.forall_mem_cons, List.not_mem_nil, false_implies, implies_true, and_true]
    exact ⟨accepts r.id True.intro, accepts r.stateId True.intro, accepts r.locationId True.intro,
      accepts r.status True.intro, (accepts r.bindingId fun _ _ => True.intro),
      (accepts r.bindingEpoch fun _ _ => True.intro)⟩

end StateReplicas

section Bindings

def Binding.ofFields (fields : List (String × Value)) : Option Binding := do
  let id ← readField fields "id"
  let subjectId ← readField fields "subject_id"
  let locationId ← readField fields "location_id"
  let baseEpoch ← readField fields "base_epoch"
  let epoch ← readField fields "epoch"
  let status ← readField fields "status"
  return ⟨id, subjectId, locationId, baseEpoch, epoch, status⟩

instance : Restored Binding where
  hint := .entity "Binding"
  ofValue
    | .entity "Binding" fields => Binding.ofFields fields
    | _ => none
  Finite _ := True
  InRange _ := True
  ofValue_normal b := by
    change Binding.ofFields
      [("id", (value b.id).normal), ("subject_id", (value b.subjectId).normal),
        ("location_id", (value b.locationId).normal), ("base_epoch", (value b.baseEpoch).normal),
        ("epoch", (value b.epoch).normal), ("status", (value b.status).normal)] = some b
    simp (disch := decide) only [Binding.ofFields, readField_head, readField_tail]
    rfl
  plain b _ := by
    refine .entity (mem_dataclass rfl) rfl ?_ fun h => absurd h (by decide)
    simp only [List.forall_mem_cons, List.not_mem_nil, false_implies, implies_true, and_true]
    exact ⟨plain b.id True.intro, plain b.subjectId True.intro, plain b.locationId True.intro,
      plain b.baseEpoch True.intro, plain b.epoch True.intro, plain b.status True.intro⟩
  accepts _ _ := rfl

instance : Record Binding where
  entityType := "Binding"
  id := Binding.id
  id_normal _ := ⟨_, rfl, rfl⟩
  valid b _ shown name := by
    apply validateEntity_ok rfl
    simp only [List.forall_mem_cons, List.not_mem_nil, false_implies, implies_true, and_true]
    exact ⟨accepts b.id True.intro, accepts b.subjectId True.intro, accepts b.locationId True.intro,
      accepts b.baseEpoch True.intro, accepts b.epoch True.intro, accepts b.status True.intro⟩

end Bindings

section Evidence

def Evidence.ofFields (fields : List (String × Value)) : Option Evidence := do
  let id ← readField fields "id"
  let claim ← readField fields "claim"
  let source ← readField fields "source"
  let authority ← readField fields "authority"
  let status ← readField fields "status"
  let observedAt ← readField fields "observed_at"
  let scope ← readField fields "scope"
  let validUntil ← readField fields "valid_until"
  let confidence ← readField fields "confidence"
  let derivedFrom ← readField fields "derived_from"
  let derivationRule ← readField fields "derivation_rule"
  let claimKey ← readField fields "claim_key"
  let claimValue ← readField fields "claim_value"
  if paired : ClaimPaired claimKey claimValue then
    return ⟨id, claim, source, authority, status, observedAt, scope, validUntil, confidence,
      derivedFrom, derivationRule, claimKey, claimValue, paired⟩
  else none

theorem Evidence.ofFields_ok {e : Evidence} {fields : List (String × Value)}
    (hid : readField fields "id" = some e.id)
    (hclaim : readField fields "claim" = some e.claim)
    (hsource : readField fields "source" = some e.source)
    (hauthority : readField fields "authority" = some e.authority)
    (hstatus : readField fields "status" = some e.status)
    (hobservedAt : readField fields "observed_at" = some e.observedAt)
    (hscope : readField fields "scope" = some e.scope)
    (hvalidUntil : readField fields "valid_until" = some e.validUntil)
    (hconfidence : readField fields "confidence" = some e.confidence)
    (hderivedFrom : readField fields "derived_from" = some e.derivedFrom)
    (hderivationRule : readField fields "derivation_rule" = some e.derivationRule)
    (hclaimKey : readField fields "claim_key" = some e.claimKey)
    (hclaimValue : readField fields "claim_value" = some e.claimValue) :
    Evidence.ofFields fields = some e := by
  rw [Evidence.ofFields]
  simp only [hid, hclaim, hsource, hauthority, hstatus, hobservedAt, hscope, hvalidUntil, hconfidence,
    hderivedFrom, hderivationRule, hclaimKey, hclaimValue, Option.bind_eq_bind, Option.bind_some]
  exact dif_pos e.paired

theorem Evidence.checkClaim_paired (e : Evidence) {fields : List (String × Value)}
    (hkey : fieldOfEntity fields "claim_key" = value e.claimKey)
    (hvalue : fieldOfEntity fields "claim_value" = value e.claimValue) : checkClaim fields = .ok () := by
  have hpaired := e.paired
  rw [checkClaim, hkey, hvalue]
  cases hk : e.claimKey with
  | none =>
    cases hv : e.claimValue with
    | none => rfl
    | some text =>
      rw [hk, hv] at hpaired
      exact hpaired.elim
  | some key =>
    cases hv : e.claimValue with
    | none =>
      rw [hk, hv] at hpaired
      exact hpaired.elim
    | some text =>
      rw [hk, hv] at hpaired
      obtain ⟨hkey, htext⟩ := hpaired
      simp only [value, raiseIf, hkey, htext, ↓reduceIte, Except.ok_bind]

instance : Restored Evidence where
  hint := .entity "Evidence"
  ofValue
    | .entity "Evidence" fields => Evidence.ofFields fields
    | _ => none
  Finite e := Finite e.observedAt ∧ Finite e.validUntil ∧ Finite e.confidence
  InRange e := InRange e.observedAt ∧ InRange e.validUntil ∧ InRange e.confidence
  ofValue_normal e := by
    change Evidence.ofFields
      [("id", (value e.id).normal), ("claim", (value e.claim).normal),
        ("source", (value e.source).normal), ("authority", (value e.authority).normal),
        ("status", (value e.status).normal), ("observed_at", (value e.observedAt).normal),
        ("scope", (value e.scope).normal), ("valid_until", (value e.validUntil).normal),
        ("confidence", (value e.confidence).normal),
        ("derived_from", (value e.derivedFrom).normal),
        ("derivation_rule", (value e.derivationRule).normal),
        ("claim_key", (value e.claimKey).normal), ("claim_value", (value e.claimValue).normal)] = some e
    apply Evidence.ofFields_ok
    all_goals simp (disch := decide) only [readField_head, readField_tail]
  plain e h := by
    refine .entity (mem_dataclass rfl) rfl ?_ fun _ => e.checkClaim_paired rfl rfl
    simp only [List.forall_mem_cons, List.not_mem_nil, false_implies, implies_true, and_true]
    exact ⟨plain e.id True.intro, plain e.claim True.intro, plain e.source True.intro,
      plain e.authority True.intro, plain e.status True.intro, plain e.observedAt h.1,
      plain e.scope True.intro, plain e.validUntil h.2.1, plain e.confidence h.2.2,
      plain e.derivedFrom True.intro, (plain e.derivationRule fun _ _ => True.intro),
      (plain e.claimKey fun _ _ => True.intro), (plain e.claimValue fun _ _ => True.intro)⟩
  accepts _ _ := rfl

instance : Record Evidence where
  entityType := "Evidence"
  id := Evidence.id
  id_normal _ := ⟨_, rfl, rfl⟩
  valid e h shown name := by
    apply validateEntity_ok rfl
    simp only [List.forall_mem_cons, List.not_mem_nil, false_implies, implies_true, and_true]
    exact ⟨accepts e.id True.intro, accepts e.claim True.intro, accepts e.source True.intro,
      accepts e.authority True.intro, accepts e.status True.intro, accepts e.observedAt h.1,
      accepts e.scope True.intro, accepts e.validUntil h.2.1, accepts e.confidence h.2.2,
      accepts e.derivedFrom True.intro, (accepts e.derivationRule fun _ _ => True.intro),
      (accepts e.claimKey fun _ _ => True.intro), (accepts e.claimValue fun _ _ => True.intro)⟩

end Evidence

section Outputs

def Output.ofFields (fields : List (String × Value)) : Option Output := do
  let id ← readField fields "id"
  let attemptId ← readField fields "attempt_id"
  let terminal ← readField fields "terminal"
  let evidenceIds ← readField fields "evidence_ids"
  return ⟨id, attemptId, terminal, evidenceIds⟩

instance : Restored Output where
  hint := .entity "Output"
  ofValue
    | .entity "Output" fields => Output.ofFields fields
    | _ => none
  Finite _ := True
  InRange _ := True
  ofValue_normal o := by
    change Output.ofFields
      [("id", (value o.id).normal), ("attempt_id", (value o.attemptId).normal),
        ("terminal", (value o.terminal).normal), ("evidence_ids", (value o.evidenceIds).normal)] = some o
    simp (disch := decide) only [Output.ofFields, readField_head, readField_tail]
    rfl
  plain o _ := by
    refine .entity (mem_dataclass rfl) rfl ?_ fun h => absurd h (by decide)
    simp only [List.forall_mem_cons, List.not_mem_nil, false_implies, implies_true, and_true]
    exact ⟨plain o.id True.intro, plain o.attemptId True.intro, plain o.terminal True.intro,
      plain o.evidenceIds True.intro⟩
  accepts _ _ := rfl

instance : Record Output where
  entityType := "Output"
  id := Output.id
  id_normal _ := ⟨_, rfl, rfl⟩
  valid o _ shown name := by
    apply validateEntity_ok rfl
    simp only [List.forall_mem_cons, List.not_mem_nil, false_implies, implies_true, and_true]
    exact ⟨accepts o.id True.intro, accepts o.attemptId True.intro, accepts o.terminal True.intro,
      accepts o.evidenceIds True.intro⟩

end Outputs

section SemanticEvent

def SemanticEvent.ofFields (fields : List (String × Value)) : Option SemanticEvent := do
  let id ← readField fields "id"
  let kind ← readField fields "kind"
  let subjectType ← readField fields "subject_type"
  let subjectId ← readField fields "subject_id"
  let payload ← readField fields "payload"
  return ⟨id, kind, subjectType, subjectId, payload⟩

instance : Restored SemanticEvent where
  hint := .entity "SemanticEvent"
  ofValue
    | .entity "SemanticEvent" fields => SemanticEvent.ofFields fields
    | _ => none
  Finite _ := True
  InRange _ := True
  ofValue_normal event := by
    change SemanticEvent.ofFields
      [("id", (value event.id).normal), ("kind", (value event.kind).normal),
        ("subject_type", (value event.subjectType).normal),
        ("subject_id", (value event.subjectId).normal), ("payload", (value event.payload).normal)] =
        some event
    simp (disch := decide) only [SemanticEvent.ofFields, readField_head, readField_tail]
    rfl
  plain event _ := by
    refine .entity (mem_dataclass rfl) rfl ?_ fun h => absurd h (by decide)
    simp only [List.forall_mem_cons, List.not_mem_nil, false_implies, implies_true, and_true]
    exact ⟨plain event.id True.intro, plain event.kind True.intro, plain event.subjectType True.intro,
      plain event.subjectId True.intro, plain event.payload True.intro⟩
  accepts _ _ := rfl

instance : Record SemanticEvent where
  entityType := "SemanticEvent"
  id := SemanticEvent.id
  id_normal _ := ⟨_, rfl, rfl⟩
  valid event _ shown name := by
    apply validateEntity_ok rfl
    simp only [List.forall_mem_cons, List.not_mem_nil, false_implies, implies_true, and_true]
    exact ⟨accepts event.id True.intro, accepts event.kind True.intro,
      accepts event.subjectType True.intro, accepts event.subjectId True.intro,
      accepts event.payload True.intro⟩

end SemanticEvent

end Cadi
