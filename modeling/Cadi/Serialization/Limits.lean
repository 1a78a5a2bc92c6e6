import Cadi.Oracle.Converse
import Cadi.Serialization.Accepted

namespace Cadi
open Library
set_option autoImplicit true

section Exact
variable {c c' : ContinuityCore} {semanticValidity : SemanticValidity} {shown : Value → String}

/-- Evidence that the call stores under a new identity has numbers in range. -/
def StoresFloats (c : ContinuityCore) (call : Call) : Prop :=
  ∀ e, call.operation = .recordEvidence e → e.id ∉ c.evidence → Restored.InRange e

/-- The step condition: an accepted call is guarded, and so are the numbers it stores. -/
def AcceptedRestorable (semanticValidity : SemanticValidity) (c : ContinuityCore) (call : Call) :
    Prop :=
  accepted semanticValidity c call = true → call.operation.Guarded c ∧ StoresFloats c call

theorem FloatNumbers.same (h : FloatNumbers c) (hs : SameStores c c') : FloatNumbers c' :=
  fun k e he => h k e ((hs.evidence k).trans he)

theorem restorable_iff : Restorable c ↔ OracleHolds c ∧ FloatNumbers c := by
  refine ⟨fun h => ?_, fun h => .of_oracle h.1 h.2⟩
  obtain ⟨text, c', -, hrestored, hsame, -⟩ := h defaultValidity fun _ => ""
  obtain ⟨horacle, raw, hread⟩ := restoreCore_eq_ok hrestored
  exact ⟨horacle.same hsame, (readState_floatNumbers hread).same hsame⟩

/-- An accepted call keeps the numbers of the stored Evidence in range just when those it stores
are. -/
theorem FloatNumbers.step_iff (h : FloatNumbers c) (hg : Grounded c) :
    FloatNumbers (Cadi.step semanticValidity c call) ↔
      (accepted semanticValidity c call = true → StoresFloats c call) := by
  constructor
  · intro h' ha e hoperation hnew
    obtain ⟨clock, operation⟩ := call
    cases hoperation
    have htakes := (recordEvidence_takes c e).discard
    unfold accepted at ha
    unfold Cadi.step at h'
    cases hcall : PublicOperation.call semanticValidity clock (.recordEvidence e) c with
    | error e c' =>
      rw [hcall] at ha
      cases ha
    | ok u c' =>
      rw [hcall] at h'
      obtain ⟨_, ⟨_, hknown⟩ | ht⟩ := htakes.of_ok hcall
      · exact absurd hknown hnew
      · obtain ⟨_, hc⟩ := ht
        obtain rfl : c' = (Effect.recordEvidence e).apply c := hc
        exact h' e.id e (Dict.get?_set_self _ _ _)
  · intro hstores
    apply step_keeps hg h
    intro ha es c' hes ht
    have hrecords : ∀ e ∈ es, ∀ x, e = .recordEvidence x → Restored.InRange x := by
      rintro _ he x rfl
      have hoperation := (PublicOperation.recorded_of_performs hes he).1 x rfl
      rw [hoperation] at hes
      rcases hes with rfl | rfl
      · cases he
      · exact hstores ha x hoperation ht.1.1.unused.evidence
    exact ht.invariant (.of_forall hrecords c) h fun _ e hc _ he => Effect.allEvidence hc he

/-- Whatever text is restored, a run keeps what the oracle asks just when its accepted calls are
guarded, and stays restorable just when, besides, the numbers they store are in range. -/
theorem restored_exactly (h : restoreCore semanticValidity shown text = .ok c) (calls : List Call) :
    (Throughout (step semanticValidity) (fun c => assertAll semanticValidity c = .ok ()) c calls ↔
      Along (step semanticValidity) (AcceptedGuarded semanticValidity) c calls) ∧
    (Throughout (step semanticValidity) Restorable c calls ↔
      Along (step semanticValidity) (AcceptedRestorable semanticValidity) c calls) := by
  obtain ⟨horacle, raw, hread⟩ := restoreCore_eq_ok h
  constructor
  · apply throughout_iff_along (P := fun c => assertAll semanticValidity c = .ok ())
      ((assertAll_eq_ok semanticValidity c).mpr horacle)
    intro d call hd
    rw [assertAll_eq_ok]
    exact ((assertAll_eq_ok semanticValidity d).mp hd).step_iff
  · apply throughout_iff_along (P := Restorable) (.of_oracle horacle (readState_floatNumbers hread))
    intro d call hd
    obtain ⟨hd, hfloat⟩ := restorable_iff.mp hd
    rw [restorable_iff, hd.step_iff, hfloat.step_iff hd.grounded]
    exact ⟨fun hboth ha => ⟨hboth.1 ha, hboth.2 ha⟩,
      fun hboth => ⟨fun ha => (hboth ha).1, fun ha => (hboth ha).2⟩⟩

/-- A core with an epoch for a subject that has no Binding. -/
def orphanedEpoch : ContinuityCore where
  currentEpochBySubject := Dict.empty.set "x" 1

theorem orphanedEpoch_oracle : OracleHolds orphanedEpoch :=
  (assertAll_eq_ok defaultValidity orphanedEpoch).mp (by decide +kernel)

theorem orphanedEpoch_floats : FloatNumbers orphanedEpoch := by
  intro k e he
  cases he

theorem orphanedEpoch_restored :
    ∃ text, restoreCore defaultValidity (fun _ => "") text = .ok orphanedEpoch.listed :=
  ⟨_, restoreCore_snapshotCore orphanedEpoch_oracle orphanedEpoch_floats
    (snapshotCore_ok orphanedEpoch_floats.finite)⟩

/-- A restored core whose oracle a proposal breaks. -/
theorem restored_proposed : ∃ text c, restoreCore defaultValidity (fun _ => "") text = .ok c ∧
    ¬ Throughout (step defaultValidity) (fun c => assertAll defaultValidity c = .ok ()) c
      [⟨.int 0, .proposeBinding "b" "x" "l"⟩] := by
  obtain ⟨text, htext⟩ := orphanedEpoch_restored
  refine ⟨text, _, htext, fun h => ?_⟩
  have hlast := h.last
  revert hlast
  decide +kernel

/-- A Binding of another subject, beside the epoch. -/
def boundElsewhere : List Call :=
  [⟨.int 0, .createProgram "p"⟩, ⟨.int 0, .activateInitialBinding "b" "y" "l"⟩]

theorem restored_exactly_elsewhere :
    Throughout (step defaultValidity) (fun c => assertAll defaultValidity c = .ok ())
        orphanedEpoch.listed boundElsewhere ∧
      Throughout (step defaultValidity) Restorable orphanedEpoch.listed boundElsewhere := by
  obtain ⟨text, htext⟩ := orphanedEpoch_restored
  obtain ⟨horacle, hrestorable⟩ := restored_exactly htext boundElsewhere
  have hguarded : PublicOperation.Guarded (step defaultValidity orphanedEpoch.listed
      ⟨.int 0, .createProgram "p"⟩) (.activateInitialBinding "b" "y" "l") := by
    change ContinuityCore.currentEpoch _ _ ≤ ContinuityCore.lastAllocatedEpoch _ _
    decide +kernel
  have hstores (operation : PublicOperation) (hother : ∀ e, operation ≠ .recordEvidence e)
      (c : ContinuityCore) : StoresFloats c ⟨.int 0, operation⟩ := fun e he => absurd he (hother e)
  exact ⟨horacle.mpr ⟨fun _ => True.intro, fun _ => hguarded, True.intro⟩,
    hrestorable.mpr ⟨fun _ => ⟨True.intro, hstores _ (fun _ => PublicOperation.noConfusion) _⟩,
      fun _ => ⟨hguarded, hstores _ (fun _ => PublicOperation.noConfusion) _⟩, True.intro⟩⟩

end Exact

section Canonical
variable {c : ContinuityCore} {semanticValidity : SemanticValidity}

end Canonical

end Cadi
