import Cadi.Oracle.Preservation

namespace Cadi
open Library
set_option autoImplicit true

section Converse
variable {c : ContinuityCore} {id : String}

/-- An Attempt with the empty identifier stays current beside the one that is started. -/
theorem startAttempt_breaks (h : OracleHolds c) (ha : StartAllowed c id r)
    (hempty : r.currentAttemptId = some "") :
    ¬ OracleHolds ((Effect.startAttempt id r).apply c) := by
  intro h'
  obtain ⟨a, hget, howner, hstatus⟩ := (h.authority.current r.id r ha.stored "").mp hempty
  have hne : id ≠ "" := by
    rintro rfl
    exact ha.fresh.unused.attempts (Dict.mem_of_get? hget)
  have hsame : ((Effect.startAttempt id r).apply c).attempts.get? "" = some a := by
    change ((superseded c.attempts r.currentAttemptId).set id _).get? "" = _
    rw [hempty, Dict.get?_set_ne _ _ hne]
    exact hget
  have hpointer := (h'.authority.current r.id _ (Dict.get?_set_self _ _ _) "").mpr
    ⟨a, hsame, howner, hstatus⟩
  exact hne (Option.some.inj hpointer)

theorem finalize_breaks (h : OracleHolds c) (ha : FinalizeAllowed c r a o)
    (hcommitted : r.committedAttemptId = some k) : ¬ OracleHolds ((Effect.finalize r a o).apply c) := by
  intro h'
  obtain ⟨b, hget, howner, hstatus⟩ := (h.authority.committed r.id r ha.request k).mp hcommitted
  have hne : a.id ≠ k := by
    rintro rfl
    obtain rfl := Option.some.inj (ha.attempt.symm.trans hget)
    have hboth := ha.authority.symm.trans hstatus
    cases hboth
  have hsame : ((Effect.finalize r a o).apply c).attempts.get? k = some b :=
    (Dict.get?_set_ne _ _ hne).trans hget
  have hpointer := (h'.authority.committed r.id _ (Dict.get?_set_self _ _ _) k).mpr
    ⟨b, hsame, howner, hstatus⟩
  exact hne (Option.some.inj hpointer)

theorem allocatable_of_proposed (h' : OracleHolds ((Effect.propose id subjectId locationId).apply c)) :
    Allocatable c subjectId := by
  have hnew : ((Effect.propose id subjectId locationId).apply c).bindings.get? id =
      some (c.proposal id subjectId locationId) := Dict.get?_set_self _ _ _
  have habove : c.currentEpoch subjectId < c.lastAllocatedEpoch subjectId + 1 :=
    h'.epochs.above id _ hnew
  refine ⟨by omega, ?_⟩
  cases hcurrent : c.currentEpochBySubject.get? subjectId with
  | none => exact .inl rfl
  | some e =>
    obtain ⟨k, b, hb, hsubject, hepoch⟩ := h'.epochs.current id _ e hnew hcurrent
    rcases Dict.get?_set_eq_some_iff.mp hb with ⟨rfl, rfl⟩ | ⟨_, hb⟩
    · -- the epoch of the proposal is above the current one
      have hbase : c.currentEpoch subjectId = e := by
        rw [ContinuityCore.currentEpoch, hcurrent]
        rfl
      change c.lastAllocatedEpoch subjectId + 1 = e at hepoch
      omega
    · exact .inr ⟨k, b, hb, hsubject⟩

theorem commitMigration_breaks (h : OracleHolds c) (ha : CommitAllowed c b)
    (hempty : c.currentBindingBySubject.get? b.subjectId = some "") :
    ¬ OracleHolds ((Effect.commitMigration b).apply c) := by
  intro h'
  obtain ⟨old, hold, hsubject, hactive, _⟩ := h.bindings.current b.subjectId "" hempty
  have hne : b.id ≠ "" := by
    intro he
    obtain rfl := Option.some.inj (ha.stored.symm.trans (he ▸ hold))
    rcases ha.candidate with hs | hs <;> rw [hs] at hactive <;> cases hactive
  have hsame : ((Effect.commitMigration b).apply c).bindings.get? "" = some old := by
    change ((supersededBinding c.bindings (c.currentBindingBySubject.get? b.subjectId)).set b.id
      _).get? "" = _
    rw [hempty, Dict.get?_set_ne _ _ hne]
    exact hold
  have hpointer := h'.bindings.active "" old hsame hactive
  rw [hsubject] at hpointer
  change (c.currentBindingBySubject.set b.subjectId b.id).get? b.subjectId = some "" at hpointer
  rw [Dict.get?_set_self] at hpointer
  exact hne (Option.some.inj hpointer)

/-- A transition that keeps the property of the oracle is taken where it is safe. -/
theorem Effect.safe_of_oracleHolds {e : Effect} (h : OracleHolds c) (ha : e.Allowed c)
    (h' : OracleHolds (e.apply c)) : e.Safe c := by
  cases e with
  | startAttempt id r => exact fun hempty => startAttempt_breaks h ha hempty h'
  | finalize r a o =>
    change r.committedAttemptId = none
    cases hcommitted : r.committedAttemptId with
    | none => rfl
    | some k => exact (finalize_breaks h ha hcommitted h').elim
  | propose id subjectId locationId => exact allocatable_of_proposed h'
  | activateInitial id subjectId locationId =>
    have habove : c.currentEpoch subjectId < c.lastAllocatedEpoch subjectId + 1 :=
      h'.epochs.above id _ (Dict.get?_set_self _ _ _)
    change c.currentEpoch subjectId ≤ c.lastAllocatedEpoch subjectId
    omega
  | commitMigration b => exact fun hempty => commitMigration_breaks h ha hempty h'
  | _ => exact True.intro

end Converse

section Calls
variable {c : ContinuityCore} {semanticValidity : SemanticValidity}

theorem finalizeRequest_guarded (h : OracleHolds c)
    (ha : accepted semanticValidity c ⟨clock, .finalizeRequest requestId outputId now⟩ = true)
    (h' : OracleHolds (step semanticValidity c ⟨clock, .finalizeRequest requestId outputId now⟩)) :
    PublicOperation.Guarded c (.finalizeRequest requestId outputId now) := by
  have htakes := (finalizeRequest_takes h.grounded clock requestId outputId now).discard
  unfold accepted at ha
  unfold step at h'
  intro r hr hopen
  cases hcall : PublicOperation.call semanticValidity clock
      (.finalizeRequest requestId outputId now) c with
  | error e c' =>
    rw [hcall] at ha
    cases ha
  | ok u c' =>
    rw [hcall] at h'
    obtain ⟨_, ⟨rfl, r', hr', hcompleted⟩ | ⟨r', a, o, rfl, rfl, hallowed, rfl⟩⟩ := htakes.of_ok hcall
    · obtain rfl := Option.some.inj (hr.symm.trans hr')
      refine absurd ?_ hopen
      rw [hcompleted]
      decide
    · obtain rfl := Option.some.inj (hr.symm.trans hallowed.request)
      exact Effect.safe_of_oracleHolds (e := .finalize r a o) h hallowed h'

/-- An accepted call keeps the property of the oracle just when it is guarded. -/
theorem OracleHolds.step_iff (h : OracleHolds c) :
    OracleHolds (Cadi.step semanticValidity c call) ↔ AcceptedGuarded semanticValidity c call := by
  refine ⟨fun h' ha => ?_, fun hg => h.step hg⟩
  obtain ⟨es, hes, ht⟩ := step_accepted h.grounded ha
  have hone {e : Effect} (ht : Takes c [e] (Cadi.step semanticValidity c call)) : e.Safe c := by
    obtain ⟨hallowed, hc⟩ := ht
    have hafter : Cadi.step semanticValidity c call = e.apply c := hc
    exact Effect.safe_of_oracleHolds h hallowed (hafter ▸ h')
  obtain ⟨clock, operation⟩ := call
  cases operation with
  | startAttempt id requestId =>
    obtain ⟨r, rfl, rfl⟩ := hes
    intro r' hr'
    obtain rfl := Option.some.inj (ht.1.stored.symm.trans hr')
    exact hone ht
  | finalizeRequest requestId outputId now => exact finalizeRequest_guarded h ha h'
  | proposeBinding id subjectId locationId =>
    cases hes
    exact hone ht
  | activateInitialBinding id subjectId locationId =>
    cases hes
    exact hone ht
  | commitMigration bindingId evidenceIds now =>
    obtain ⟨b, rfl, rfl⟩ := hes
    intro b' hb'
    obtain rfl := Option.some.inj (ht.1.stored.symm.trans hb')
    exact hone ht
  | _ => exact True.intro

end Calls

end Cadi
