import Cadi.Evidence.Sufficiency
import Cadi.Histories.Reachable

namespace Cadi
open Library
set_option autoImplicit true

/-- The Output is a terminal result of the request's CURRENT Attempt, which succeeded, and its
evidence suffices. -/
def Finalizable (c : ContinuityCore) (r : LogicalRequest) (outputId : String) (now : Number) : Prop :=
  ∃ o a, c.outputs.get? outputId = some o ∧ o.terminal = true ∧
    c.attempts.get? o.attemptId = some a ∧ r.currentAttemptId = some o.attemptId ∧
    a.authorityStatus = .current ∧ a.executionStatus = .succeeded ∧
    Suffices (c.knownEvidence (elements o.evidenceIds)) now (some {("attempt", a.id)})

/-- The Binding may become the current one of its subject, and its evidence suffices. -/
def Migratable (c : ContinuityCore) (bindingId : String) (evidenceIds : List String)
    (now : Number) : Prop :=
  ∃ b, c.bindings.get? bindingId = some b ∧ b.baseEpoch = c.currentEpoch b.subjectId ∧
    (b.status = .proposed ∨ b.status = .migrating) ∧
    Suffices (c.knownEvidence evidenceIds) now
      (some {("binding", b.id), ("epoch", toString b.epoch)})

/-- The replica is a VALID one of a compatible State, and its evidence suffices. -/
def Consumable (semanticValidity : SemanticValidity) (c : ContinuityCore)
    (stateId replicaId : String) (ctx : ExecutionContext) (evidenceIds : List String)
    (now : Number) : Prop :=
  (∃ r, c.replicas.get? replicaId = some r ∧ r.stateId = stateId ∧ r.status = .valid) ∧
    stateCompatible semanticValidity c stateId ctx = .ok true ∧
    Suffices (c.knownEvidence evidenceIds) now (some {("state", stateId), ("replica", replicaId)})

/-- The three commit paths and the reconciler decide by the same evidence. -/
structure EvidenceGates (semanticValidity : SemanticValidity) (c : ContinuityCore) : Prop where
  finalize : ∀ clock requestId outputId now r, c.requests.get? requestId = some r →
    ¬ r.status.terminal →
    ((∃ r' c', finalizeRequest clock requestId outputId now c = .ok r' c' ∧
        c'.requests.get? requestId = some r' ∧ r'.status = .completed) ↔
      Finalizable c r outputId (now.getD clock))
  commit : ∀ clock bindingId evidenceIds now,
    (∃ b' c', commitMigration clock bindingId evidenceIds now c = .ok b' c' ∧
        c'.bindings.get? bindingId = some b' ∧ b'.status = .active ∧
        c'.currentBindingBySubject.get? b'.subjectId = some bindingId ∧
        c'.currentEpochBySubject.get? b'.subjectId = some b'.epoch) ↔
      Migratable c bindingId evidenceIds (now.getD clock)
  consume : ∀ clock stateId replicaId ctx evidenceIds now,
    canConsumeState semanticValidity clock c stateId replicaId ctx evidenceIds now = .ok true ↔
      Consumable semanticValidity c stateId replicaId ctx evidenceIds (now.getD clock)
  reconcile : ∀ clock action evidenceIds now requiredScope,
    action ∈ correctnessSensitiveEvidenceActions →
    ∃ outcome, c.reconcile clock action evidenceIds now requiredScope = .ok outcome ∧
      (outcome = .matched ∨ outcome = .wait ∨ outcome = .ambiguous) ∧
      (outcome = .matched ↔
        Suffices (c.knownEvidence evidenceIds) (now.getD clock) requiredScope) ∧
      (outcome = .ambiguous ↔ (∃ e ∈ c.knownEvidence evidenceIds, e.status = .ambiguous) ∨
        ¬ Consistent (c.knownEvidence evidenceIds) (now.getD clock))

section Paths
variable {c : ContinuityCore}

theorem finalizeRequest_iff (hr : c.requests.get? requestId = some r) (hopen : ¬ r.status.terminal) :
    (∃ r' c', finalizeRequest clock requestId outputId now c = .ok r' c' ∧
        c'.requests.get? requestId = some r' ∧ r'.status = .completed) ↔
      Finalizable c r outputId (now.getD clock) := by
  change Returns (finalizeRequest clock requestId outputId now) c (fun r' c' =>
    c'.requests.get? requestId = some r' ∧ r'.status = .completed) ↔ _
  simp only [RequestStatus.terminal, List.mem_cons, List.not_mem_nil, or_false, not_or] at hopen
  obtain ⟨hcompleted, hfailed, hcancelled⟩ := hopen
  simp only [finalizeRequest, Returns.get_bind_iff, Returns.modify_bind_iff, Returns.lift_bind_iff,
    Returns.pure_iff, item_eq_ok, raiseIf_eq_ok, hr, hcompleted, hfailed, hcancelled,
    Option.some.injEq, exists_eq_left', or_self, not_false_eq_true, ↓reduceIte, exists_const,
    Dict.get?_set_self, and_self, and_true, not_or, Decidable.not_not, Bool.not_eq_false]
  have hgate (o : Output) (a : Attempt) := requireEvidence_iff "finalize" (by decide) c clock
    (elements o.evidenceIds) now (some {("attempt", a.id)})
  simp only [hgate, Finalizable]
  constructor
  · rintro ⟨o, ho, a, ha, _, ⟨hpointer, hcurrent⟩, ⟨hsucceeded, hterminal⟩, hs⟩
    exact ⟨o, a, ho, hterminal, ha, hpointer.symm, hcurrent, hsucceeded, hs⟩
  · rintro ⟨o, a, ho, hterminal, ha, hpointer, hcurrent, hsucceeded, hs⟩
    exact ⟨o, ho, a, ha, True.intro, ⟨hpointer.symm, hcurrent⟩, ⟨hsucceeded, hterminal⟩, hs⟩

/-- The Binding a pointer names is stored, so superseding it does not raise. -/
theorem supersedeBinding_returns (h : Ledger c) {f : Unit → CoreM α}
    {post : α → ContinuityCore → Prop} :
    Returns (supersedeBinding subjectId >>= f) c post ↔ Returns (f ()) { c with
      bindings := supersededBinding c.bindings (c.currentBindingBySubject.get? subjectId) } post := by
  rw [Returns.bind_iff]
  unfold supersedeBinding supersededBinding
  rw [Returns.get_bind_iff]
  cases hpointer : truthy (c.currentBindingBySubject.get? subjectId) with
  | none => exact Returns.pure_iff
  | some oldId =>
    obtain ⟨old, hold, _⟩ := h.pointer subjectId oldId (truthy_eq_some.mp hpointer).1
    simp only [Returns.lift_bind_iff, item_eq_ok, hold, Option.some.injEq, exists_eq_left']
    exact Returns.pure_iff

theorem commitMigration_iff (h : Reached c) :
    (∃ b' c', commitMigration clock bindingId evidenceIds now c = .ok b' c' ∧
        c'.bindings.get? bindingId = some b' ∧ b'.status = .active ∧
        c'.currentBindingBySubject.get? b'.subjectId = some bindingId ∧
        c'.currentEpochBySubject.get? b'.subjectId = some b'.epoch) ↔
      Migratable c bindingId evidenceIds (now.getD clock) := by
  change Returns (commitMigration clock bindingId evidenceIds now) c (fun b' c' =>
    c'.bindings.get? bindingId = some b' ∧ b'.status = .active ∧
      c'.currentBindingBySubject.get? b'.subjectId = some bindingId ∧
      c'.currentEpochBySubject.get? b'.subjectId = some b'.epoch) ↔ _
  simp only [commitMigration, Returns.get_bind_iff, Returns.lift_bind_iff, item_eq_ok, raiseIf_eq_ok,
    exists_const, supersedeBinding_returns h.ledger, Returns.modify_bind_iff, Returns.pure_iff,
    Dict.get?_set_self, and_true, true_and, Decidable.not_not, not_and_or, exists_and_right]
  have hgate (b : Binding) := requireEvidence_iff "commit_migration" (by decide) c clock evidenceIds
    now (some {("binding", b.id), ("epoch", toString b.epoch)})
  simp only [hgate, Migratable]
  constructor
  · rintro ⟨b, hb, hbase, hstatus, hs, _⟩
    exact ⟨b, hb, hbase, hstatus, hs⟩
  · rintro ⟨b, hb, hbase, hstatus, hs⟩
    have hid : b.id = bindingId := h.grounded.keys.bindings _ b hb
    subst hid
    exact ⟨b, hb, hbase, hstatus, hs, Dict.get?_set_self _ _ _, rfl⟩

theorem consumeGate_iff :
    (match c.requireEvidence clock "consume_state" evidenceIds now requiredScope none with
      | .ok _ => .ok true
      | .error (.insufficientEvidence _) => .ok false
      | .error e => .error e : Except PyError Bool) = .ok true ↔
      Suffices (c.knownEvidence evidenceIds) (now.getD clock) requiredScope := by
  rcases requireEvidence_spec "consume_state" (by decide) c clock evidenceIds now requiredScope with
    ⟨good, hok, hs⟩ | ⟨message, herror, hs⟩
  · simp only [hok, hs]
  · simp only [herror, hs, Except.ok.injEq, Bool.false_eq_true]

theorem canConsumeState_iff :
    canConsumeState semanticValidity clock c stateId replicaId ctx evidenceIds now = .ok true ↔
      Consumable semanticValidity c stateId replicaId ctx evidenceIds (now.getD clock) := by
  unfold canConsumeState Consumable
  rw [item_bind_eq_ok, ← consumeGate_iff]
  constructor
  · rintro ⟨r, hr, hrest⟩
    by_cases hreplica : r.stateId ≠ stateId ∨ r.status ≠ .valid
    · rw [if_pos hreplica] at hrest
      cases hrest
    · rw [if_neg hreplica, Except.bind_eq_ok] at hrest
      obtain ⟨compatible, hcompatible, hrest⟩ := hrest
      simp only [not_or, Decidable.not_not] at hreplica
      cases compatible with
      | false => cases hrest
      | true => exact ⟨⟨r, hr, hreplica⟩, hcompatible, hrest⟩
  · rintro ⟨⟨r, hr, hstate, hstatus⟩, hcompatible, hgate⟩
    have hreplica : ¬ (r.stateId ≠ stateId ∨ r.status ≠ .valid) :=
      not_or.mpr ⟨not_not_intro hstate, not_not_intro hstatus⟩
    refine ⟨r, hr, ?_⟩
    rw [if_neg hreplica, hcompatible]
    exact hgate

end Paths

/-- On every core of a run, with any identifiers, the three correctness-sensitive paths and the
reconciler agree with one predicate on the listed evidence. -/
theorem evidenceGates_run (semanticValidity : SemanticValidity) (calls : List Call) :
    EvidenceGates semanticValidity (run (step semanticValidity) {} calls) where
  finalize _ _ _ _ _ hr hopen := finalizeRequest_iff hr hopen
  commit _ _ _ _ := commitMigration_iff (Reached.empty.run semanticValidity calls)
  consume _ _ _ _ _ _ := canConsumeState_iff
  reconcile clock _ evidenceIds now requiredScope h :=
    reconcile_spec h _ clock evidenceIds now requiredScope

end Cadi
