import Cadi.Adapter.Handlers
import Cadi.Evidence.Sufficiency
import Cadi.Library.Failing
import Cadi.Serialization.Accepted
import Cadi.Simulator.Notices

namespace Cadi
open Library
set_option autoImplicit true

namespace ContinuityAdapter

section Calls
variable {c : ContinuityCore}

/-- The core is one that the oracle accepts in every run and that can be written. -/
structure Ready (c : ContinuityCore) : Prop where
  sound : Sound c
  numbers : FiniteNumbers c

theorem Ready.step (h : Ready c) (hid : call.operation.newId ≠ some "") (hf : RecordsFinite call) :
    Ready (step semanticValidity c call) where
  sound := h.sound.step hid
  numbers := h.numbers.step h.sound.reached.grounded hf

theorem Ready.of_run {calls : List Call}
    (hnamed : ∀ call ∈ calls, call.operation.newId ≠ some "")
    (hfloats : ∀ call ∈ calls, RecordsFloats call) :
    Ready (run (Cadi.step semanticValidity) {} calls) where
  sound := Sound.empty.run hnamed
  numbers := finiteNumbers_run fun call hcall => (hfloats call hcall).finite

/-- The name under which the adapter records a call. -/
def label : PublicOperation → String
  | .createRequest _ _ => "create_request"
  | .startAttempt _ _ => "start_attempt"
  | .setAttemptExecution _ _ => "set_attempt_execution:RUNNING"
  | .completeAttempt _ succeeded =>
    if succeeded then "complete_attempt:SUCCEEDED" else "complete_attempt:FAILED"
  | .recordEvidence _ => "record_evidence"
  | .createOutput _ _ _ _ => "create_output"
  | .finalizeRequest _ _ _ => "finalize_request"
  | _ => ""

/-- The identifier of what a call returns. -/
def subject : PublicOperation → String
  | .createRequest id _ | .startAttempt id _ | .setAttemptExecution id _ | .completeAttempt id _
  | .createOutput id _ _ _ | .finalizeRequest id _ _ => id
  | .recordEvidence e => e.id
  | _ => ""

/-- What the adapter relies on in a method of the core that it calls. -/
structure Driven [Entity α] (semanticValidity : SemanticValidity) (c : ContinuityCore) (call : Call)
    (method : CoreM α) : Prop where
  performs : call.operation.call semanticValidity call.clock = discard method
  subject : ∀ a c', method c = .ok a c' → Entity.id a = subject call.operation
  rejects : ∀ e c', method c = .error e c' → e.rejection = true
  named : call.operation.newId ≠ some ""
  finite : RecordsFinite call

theorem unique_failing (id : String) : Failing (fun e => e.rejection = true) (unique id) :=
  .bind .get fun _ => .raiseIf rfl

theorem item_failing (d : Dict String α) (k : String) :
    Failing (fun e => e.rejection = true) (liftM (item d k) : CoreM α) := by
  apply Failing.lift
  intro e h
  unfold item at h
  split at h
  · cases h
  · cases h
    rfl

theorem driven_createRequest (semanticValidity : SemanticValidity) (c : ContinuityCore)
    (clock : Number) {id : String} (hid : id ≠ "") (continuationId : String) :
    Driven semanticValidity c ⟨clock, .createRequest id continuationId⟩
      (createRequest id continuationId) where
  performs := rfl
  subject a c' h := by
    obtain ⟨rfl, _⟩ := (createRequest_takes c id continuationId).of_ok h
    rfl
  rejects e c' h := by
    have hfailing : Failing (fun e => e.rejection = true) (createRequest id continuationId) :=
      .bind (unique_failing id) fun _ => .bind .get fun _ => .bind (item_failing _ _) fun _ =>
        .bind (.modify _) fun _ => .pure _
    exact hfailing c e c' h
  named h := hid (Option.some.inj h)
  finite _ h := by cases h

theorem driven_startAttempt (hg : Grounded c) (semanticValidity : SemanticValidity) (clock : Number)
    {id : String} (hid : id ≠ "") (requestId : String) :
    Driven semanticValidity c ⟨clock, .startAttempt id requestId⟩ (startAttempt id requestId) where
  performs := rfl
  subject a c' h := by
    obtain ⟨_, _, rfl, _⟩ := (startAttempt_takes hg id requestId).of_ok h
    rfl
  rejects e c' h := by
    have hsupersede (pointer : Option String) :
        Failing (fun e => e.rejection = true) (supersedeCurrent pointer) := by
      unfold supersedeCurrent
      split
      · exact .pure _
      · exact .bind .get fun _ => .bind (item_failing _ _) fun _ => .bind (.raiseIf rfl) fun _ =>
          .modify _
    have hfailing : Failing (fun e => e.rejection = true) (startAttempt id requestId) :=
      .bind (unique_failing id) fun _ => .bind .get fun _ => .bind (item_failing _ _) fun _ =>
        .bind (.raiseIf rfl) fun _ => .bind (hsupersede _) fun _ => .bind (.modify _) fun _ =>
          .bind (.modify _) fun _ => .pure _
    exact hfailing c e c' h
  named h := hid (Option.some.inj h)
  finite _ h := by cases h

theorem setAttemptExecution_failing (attemptId : String) (status : ExecutionStatus) :
    Failing (fun e => e.rejection = true) (setAttemptExecution attemptId status) :=
  .bind .get fun _ => .bind (item_failing _ _) fun _ => .bind (.raiseIf rfl) fun _ =>
    .bind (.raiseIf rfl) fun _ => .bind (.modify _) fun _ => .pure _

theorem setAttemptExecution_result (hg : Grounded c) (attemptId : String) (status : ExecutionStatus) :
    Atomic c (setAttemptExecution attemptId status) c fun a c' =>
      a.id = attemptId ∧ a.executionStatus = status ∧ c'.attempts.get? attemptId = some a := by
  unfold setAttemptExecution
  apply Atomic.get_bind
  apply Atomic.lift_bind
  intro a ha
  apply Atomic.raiseIf_bind
  intro _
  apply Atomic.raiseIf_bind
  intro _
  obtain ⟨_, hid⟩ := hg.keys.attempts.item ha
  exact Atomic.modify_bind (Atomic.pure ⟨hid, rfl, Dict.get?_set_self _ _ _⟩)

theorem driven_setAttemptExecution (hg : Grounded c) (semanticValidity : SemanticValidity)
    (clock : Number) (attemptId : String) (status : ExecutionStatus) :
    Driven semanticValidity c ⟨clock, .setAttemptExecution attemptId status⟩
      (setAttemptExecution attemptId status) where
  performs := rfl
  subject _ _ h := ((setAttemptExecution_result hg attemptId status).of_ok h).1
  rejects e c' h := setAttemptExecution_failing attemptId status c e c' h
  named h := by cases h
  finite _ h := by cases h

theorem driven_completeAttempt (hg : Grounded c) (semanticValidity : SemanticValidity)
    (clock : Number) (attemptId : String) (succeeded : Bool) :
    Driven semanticValidity c ⟨clock, .completeAttempt attemptId succeeded⟩
      (completeAttempt attemptId succeeded) where
  performs := rfl
  subject _ _ h := ((setAttemptExecution_result hg attemptId _).of_ok h).1
  rejects e c' h := setAttemptExecution_failing attemptId _ c e c' h
  named h := by cases h
  finite _ h := by cases h

theorem driven_createOutput (semanticValidity : SemanticValidity) (c : ContinuityCore)
    (clock : Number) {id : String} (hid : id ≠ "") (attemptId : String) (terminal : Bool)
    (evidenceIds : List String) :
    Driven semanticValidity c ⟨clock, .createOutput id attemptId terminal evidenceIds⟩
      (createOutput id attemptId terminal evidenceIds) where
  performs := rfl
  subject a c' h := by
    obtain ⟨rfl, _⟩ := (createOutput_takes c id attemptId terminal evidenceIds).of_ok h
    rfl
  rejects e c' h := by
    have hfailing : Failing (fun e => e.rejection = true)
        (createOutput id attemptId terminal evidenceIds) :=
      .bind (unique_failing id) fun _ => .bind .get fun _ => .bind (item_failing _ _) fun _ =>
        .bind (.raiseIf rfl) fun _ => .bind (.modify _) fun _ => .pure _
    exact hfailing c e c' h
  named h := hid (Option.some.inj h)
  finite _ h := by cases h

/-- An item that names no supports is recorded, or an item is there under its identifier. -/
theorem recordEvidence_result (hg : Grounded c) (e : Evidence) :
    Atomic c (recordEvidence e) c fun a c' => a.id = e.id ∧ c'.evidence.get? e.id = some a ∧
      (a = e ∨ a.eq e = true) := by
  unfold recordEvidence
  apply Atomic.get_bind
  cases hget : c.evidence.get? e.id with
  | some existing =>
    apply Atomic.raiseIf_bind
    intro hsame
    exact Atomic.pure ⟨hg.keys.evidence _ _ hget, hget, .inr (Bool.eq_true_of_not_eq_false hsame)⟩
  | none =>
    have hwrite : Atomic c (do
        unique e.id
        modify fun c => { c with evidence := c.evidence.set e.id e }
        return e) c fun a c' => a.id = e.id ∧ c'.evidence.get? e.id = some a ∧
          (a = e ∨ a.eq e = true) :=
      unique_bind fun _ => Atomic.modify_bind
        (Atomic.pure ⟨rfl, Dict.get?_set_self _ _ _, .inl rfl⟩)
    apply Atomic.lift_bind
    intro _ _
    by_cases hderived : e.derivedFrom = ∅
    · simp only [hderived, ne_eq, not_true_eq_false, ↓reduceIte]
      exact hwrite
    · simp only [hderived, ne_eq, not_false_eq_true, ↓reduceIte]
      exact Atomic.lift_bind fun _ _ => hwrite

theorem driven_recordEvidence (hg : Grounded c) (semanticValidity : SemanticValidity)
    (clock : Number) {e : Evidence} (hid : e.id ≠ "") (hderived : e.derivedFrom = ∅)
    (hfinite : Restored.Finite e) :
    Driven semanticValidity c ⟨clock, .recordEvidence e⟩ (recordEvidence e) where
  performs := rfl
  subject _ _ h := ((recordEvidence_result hg e).of_ok h).1
  rejects x c' h := by
    have hfailing : Failing (fun e => e.rejection = true) (recordEvidence e) := by
      unfold recordEvidence
      refine .bind .get fun c => ?_
      split
      · exact .bind (.raiseIf rfl) fun _ => .pure _
      · have hchecks : ∀ x, checkDerivation e = .error x → x.rejection = true := by
          intro x hx
          unfold checkDerivation at hx
          split at hx
          · exact (raiseIf_eq_error.mp hx).2 ▸ rfl
          · exact (raiseIf_eq_error.mp hx).2 ▸ rfl
        simp only [hderived, ne_eq, not_true_eq_false, ↓reduceIte]
        exact .bind (.lift hchecks) fun _ => .bind (unique_failing _) fun _ => .bind (.modify _)
          fun _ => .pure _
    exact hfailing c x c' h
  named h := hid (Option.some.inj h)
  finite x h := by
    cases h
    exact hfinite

theorem finalizeRequest_result (hg : Grounded c) (clock : Number) (requestId outputId : String)
    (now : Option Number) :
    Atomic c (finalizeRequest clock requestId outputId now) c fun r c' => r.id = requestId ∧
      c'.requests.get? requestId = some r ∧ r.status = .completed ∧
      r.authoritativeOutputId = some outputId := by
  unfold finalizeRequest
  apply Atomic.get_bind
  apply Atomic.lift_bind
  intro r hr
  apply Atomic.lift_bind
  intro o ho
  apply Atomic.lift_bind
  intro a _
  obtain ⟨hget, hid⟩ := hg.keys.requests.item hr
  obtain ⟨_, hoid⟩ := hg.keys.outputs.item ho
  split
  · next hcompleted =>
    split
    · next hauthoritative => exact Atomic.pure ⟨hid, hget, hcompleted, hauthoritative⟩
    · exact Atomic.throw rfl
  · apply Atomic.raiseIf_bind
    intro _
    apply Atomic.raiseIf_bind
    intro _
    apply Atomic.raiseIf_bind
    intro _
    apply Atomic.lift_bind
    intro _ _
    apply Atomic.modify_bind
    apply Atomic.modify_bind
    exact Atomic.pure ⟨hid, Dict.get?_set_self _ _ _, rfl, congrArg some hoid⟩

theorem driven_finalizeRequest (hg : Grounded c) (semanticValidity : SemanticValidity)
    (clock : Number) (requestId outputId : String) (now : Option Number) :
    Driven semanticValidity c ⟨clock, .finalizeRequest requestId outputId now⟩
      (finalizeRequest clock requestId outputId now) where
  performs := rfl
  subject _ _ h := ((finalizeRequest_result hg clock requestId outputId now).of_ok h).1
  rejects e c' h := by
    have hfailing : Failing (fun e => e.rejection = true)
        (finalizeRequest clock requestId outputId now) := by
      refine .bind .get fun c => .bind (item_failing _ _) fun r => .bind (item_failing _ _) fun o =>
        .bind (item_failing _ _) fun a => ?_
      split
      · split
        · exact .pure _
        · exact .throw rfl
      · refine .bind (.raiseIf rfl) fun _ => .bind (.raiseIf rfl) fun _ => .bind (.raiseIf rfl)
          fun _ => .bind (.lift fun e he => ?_) fun _ => .bind (.modify _) fun _ =>
            .bind (.modify _) fun _ => .pure _
        rcases requireEvidence_spec "finalize" (by decide) c clock (elements o.evidenceIds) now
          (some {("attempt", a.id)}) with ⟨good, hgood, _⟩ | ⟨message, hmessage, _⟩
        · rw [hgood] at he
          cases he
        · rw [hmessage] at he
          cases he
          rfl
    exact hfailing c e c' h
  named h := by cases h
  finite _ h := by cases h

end Calls

end ContinuityAdapter

end Cadi
