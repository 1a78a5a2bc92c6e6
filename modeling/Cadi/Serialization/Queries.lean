import Cadi.Serialization.Accepted

namespace Cadi
open Library
set_option autoImplicit true

section Graphs
variable {c c' : ContinuityCore}

theorem eq_of_false_iff {b b' : Bool} (h : b = false ↔ b' = false) : b = b' := by
  cases b with
  | false => exact (h.mp rfl).symm
  | true => exact (Bool.eq_true_of_not_eq_false fun hb' => Bool.false_ne_true (h.mpr hb').symm).symm

theorem item_same {d e : Dict String α} (h : d.Same e) (k : String) : item d k = item e k := by
  rw [item, item, h k]

theorem ParentsKnown.same {d e : Dict String Continuation} (h : ParentsKnown d) (hs : d.Same e) :
    ParentsKnown e := by
  intro k ct hct p hp
  exact (same_mem hs p).mp (h k ct ((hs k).trans hct) p hp)

theorem DependenciesKnown.same {d e : Dict String ReusableState} (h : DependenciesKnown d)
    (hs : d.Same e) : DependenciesKnown e := by
  intro k x hx p hp
  exact (same_mem hs p).mp (h k x ((hs k).trans hx) p hp)

theorem Grounded.same (h : Grounded c) (hs : SameStores c c') : Grounded c' where
  keys := h.keys.same hs
  scopes := h.scopes.same hs
  dependencies := h.dependencies.same hs.states

theorem parents_same (h : SameStores c c') : c.parents = c'.parents := by
  funext k
  rw [ContinuityCore.parents, ContinuityCore.parents, item_same h.continuations]

/-- Ancestry is searched in the order of the parents, with fuel for the edges. -/
theorem isAncestor_same (h : SameStores c c') (a d : String) : c.isAncestor a d = c'.isAncestor a d := by
  have hfuel (todo : Nat) : c.searchFuel todo = c'.searchFuel todo := by
    rw [ContinuityCore.searchFuel, ContinuityCore.searchFuel, Graph.searchFuel, Graph.searchFuel,
      parentsIn_same h.continuations, ((keys_perm h.continuations).map _).sum_nat]
  simp only [ContinuityCore.isAncestor, parents_same h, hfuel]

/-- The order in which the roots of a search are tried does not show in what it finds. -/
theorem hasCycle_same (h : SameStores c c') (sessionId : String) :
    c.hasCycle sessionId = c'.hasCycle sessionId := by
  obtain ⟨b, hb, hacyclic⟩ := hasCycle_spec c sessionId
  obtain ⟨b', hb', hacyclic'⟩ := hasCycle_spec c' sessionId
  have hnodes (n : String) : n ∈ c.sessionNodes sessionId ↔ n ∈ c'.sessionNodes sessionId := by
    rw [mem_sessionNodes, mem_sessionNodes, h.continuations n]
  simp only [hnodes, parentsIn_same h.continuations] at hacyclic
  rw [hb, hb', eq_of_false_iff (hacyclic.trans hacyclic'.symm)]

theorem stateCycle_same (h : SameStores c c') (hknown : DependenciesKnown c.states) :
    c.stateCycle = c'.stateCycle := by
  obtain ⟨b, hb, hacyclic⟩ := stateCycle_spec hknown
  obtain ⟨b', hb', hacyclic'⟩ := stateCycle_spec (hknown.same h.states)
  simp only [StatesAcyclic, same_mem h.states, dependenciesIn_same h.states] at hacyclic
  rw [hb, hb', eq_of_false_iff (hacyclic.trans hacyclic'.symm)]

theorem strongest_congr {l m : List StateLifecycle} (h : ∀ life, life ∈ l ↔ life ∈ m) :
    ContinuityCore.strongest l = ContinuityCore.strongest m := by
  simp only [ContinuityCore.strongest, h]

theorem lifecycleOf_same (h : SameStores c c') (hknown : ParentsKnown c.continuations)
    (hkeyed : Keyed c.continuations) (x : ReusableState) : c.lifecycleOf x = c'.lifecycleOf x := by
  obtain ⟨l, hl, hmem⟩ := lifecycleCandidates_total hknown x.originContinuationId
    c.continuations.values fun ct hct => values_known hkeyed hct
  obtain ⟨l', hl', hmem'⟩ := lifecycleCandidates_total (hknown.same h.continuations)
    x.originContinuationId c'.continuations.values
    fun ct hct => values_known (hkeyed.same h.continuations) hct
  have hcandidates (life : StateLifecycle) : life ∈ l ↔ life ∈ l' := by
    simp only [hmem, hmem', (values_perm h.continuations).mem_iff, AncestorOrSelf,
      parentsIn_same h.continuations]
  rw [ContinuityCore.lifecycleOf, ContinuityCore.lifecycleOf, ContinuityCore.derivedLifecycle,
    ContinuityCore.derivedLifecycle, hl, hl', Except.ok_bind, Except.ok_bind,
    strongest_congr hcandidates]

theorem SameStores.refreshed (h : SameStores c c') (hknown : ParentsKnown c.continuations)
    (hkeyed : Keyed c.continuations) : SameStores c.refreshed c'.refreshed :=
  { h with
    states := by
      have hlife : c.lifecycleOf = c'.lifecycleOf := funext (lifecycleOf_same h hknown hkeyed)
      intro k
      rw [ContinuityCore.refreshed, ContinuityCore.refreshed, Dict.get?_mapValues, Dict.get?_mapValues,
        h.states k, hlife] }

end Graphs

section Numbers
variable {c c' : ContinuityCore}

theorem maxDefault_perm {l m : List Int} (h : l.Perm m) (n : Int) : maxDefault n l = maxDefault n m := by
  by_cases hl : l = []
  · subst hl
    rw [h.nil_eq]
  · have hm : m ≠ [] := fun hm => hl (hm ▸ h).eq_nil
    exact le_antisymm (le_maxDefault (h.mem_iff.mp (maxDefault_mem hl)))
      (le_maxDefault (h.mem_iff.mpr (maxDefault_mem hm)))

theorem nextGeneration_same (h : SameStores c c') (requestId : String) :
    maxDefault 0 ((c.attemptsOf requestId).map (·.generation)) =
      maxDefault 0 ((c'.attemptsOf requestId).map (·.generation)) :=
  maxDefault_perm (((values_perm h.attempts).filter _).map _) 0

theorem nextOrdinal_same (h : SameStores c c') (attemptId : String) :
    maxDefault 0 ((c.phasesOf attemptId).map (·.ordinal)) =
      maxDefault 0 ((c'.phasesOf attemptId).map (·.ordinal)) :=
  maxDefault_perm (((values_perm h.phases).filter _).map _) 0

end Numbers

section Evidence
variable {c c' : ContinuityCore} {clock : Number}

theorem knownEvidence_same (h : SameStores c c') (evidenceIds : List String) :
    c.knownEvidence evidenceIds = c'.knownEvidence evidenceIds := by
  rw [ContinuityCore.knownEvidence, ContinuityCore.knownEvidence, funext h.evidence]

theorem requireEvidence_same (h : SameStores c c') (action : String) (evidenceIds : List String)
    (now : Option Number) (scope : Option (FrozenSet (String × String))) (maxAge : Option Number) :
    c.requireEvidence clock action evidenceIds now scope maxAge =
      c'.requireEvidence clock action evidenceIds now scope maxAge := by
  rw [ContinuityCore.requireEvidence, ContinuityCore.requireEvidence, knownEvidence_same h]

theorem reconcile_same (h : SameStores c c') (action : String) (evidenceIds : List String)
    (now : Option Number) (scope : Option (FrozenSet (String × String))) :
    c.reconcile clock action evidenceIds now scope = c'.reconcile clock action evidenceIds now scope := by
  rw [ContinuityCore.reconcile, ContinuityCore.reconcile, knownEvidence_same h]
  simp only [requireEvidence_same h]

theorem checkSupports_same (h : SameStores c c') (e : Evidence) :
    checkSupports c e = checkSupports c' e := by
  simp only [checkSupports, h.evidence _]

end Evidence

section Checks
variable {c c' : ContinuityCore}

theorem checkParents_same (h : SameStores c c') (sessionId : String) (parentIds : List String) :
    checkParents c sessionId parentIds = checkParents c' sessionId parentIds := by
  simp only [checkParents, item_same h.continuations]

theorem checkCompletion_same (h : SameStores c c') (attemptId : String) (status : PhaseStatus) :
    checkCompletion c attemptId status = checkCompletion c' attemptId status := by
  simp only [checkCompletion, item_same h.attempts]

theorem resolveOrigin_same (h : SameStores c c') (originType originId : String) :
    c.resolveOrigin originType originId = c'.resolveOrigin originType originId := by
  simp only [ContinuityCore.resolveOrigin, item_same h.continuations, item_same h.requests,
    item_same h.attempts, item_same h.phases]

theorem checkDependencies_same (h : SameStores c c') (origin : Origin) (sids : List String) :
    checkDependencies c origin sids = checkDependencies c' origin sids := by
  have hcheck : checkDependency c origin = checkDependency c' origin := by
    funext sid
    simp only [checkDependency, checkPhaseOrder, item_same h.states, item_same h.phases, isAncestor_same h]
  rw [checkDependencies, checkDependencies, hcheck]

end Checks

section Compatibility
variable {c c' : ContinuityCore} {semanticValidity : SemanticValidity}

theorem contextConsistent_same (h : SameStores c c') (ctx : ExecutionContext) :
    contextConsistent c ctx = contextConsistent c' ctx := by
  simp only [contextConsistent, phaseConsistent, h.programs _, h.sessions _, h.continuations _,
    h.requests _, h.attempts _, h.phases _]

theorem stateCompatibleRecursive_same (h : SameStores c c') (ctx : ExecutionContext) (fuel : Nat)
    (stateId : String) (visiting : List String) :
    stateCompatibleRecursive semanticValidity c ctx fuel stateId visiting =
      stateCompatibleRecursive semanticValidity c' ctx fuel stateId visiting := by
  have hproducer (x : ReusableState) : producerAuthoritative c x ctx = producerAuthoritative c' x ctx := by
    simp only [producerAuthoritative, item_same h.attempts, item_same h.requests]
  have hordered (x : ReusableState) : phaseOrdered c x ctx = phaseOrdered c' x ctx := by
    simp only [phaseOrdered, item_same h.phases]
  induction fuel generalizing stateId visiting with
  | zero => rfl
  | succ fuel ih =>
    rw [stateCompatibleRecursive, stateCompatibleRecursive, h.states stateId]
    simp only [isAncestor_same h, hproducer, hordered, ih]

theorem stateCompatible_same (h : SameStores c c') (stateId : String) (ctx : ExecutionContext) :
    stateCompatible semanticValidity c stateId ctx = stateCompatible semanticValidity c' stateId ctx := by
  rw [stateCompatible, stateCompatible, contextConsistent_same h, (keys_perm h.states).length_eq,
    stateCompatibleRecursive_same h]

theorem canConsumeState_same (h : SameStores c c') (clock : Number) (stateId replicaId : String)
    (ctx : ExecutionContext) (evidenceIds : List String) (now : Option Number) :
    canConsumeState semanticValidity clock c stateId replicaId ctx evidenceIds now =
      canConsumeState semanticValidity clock c' stateId replicaId ctx evidenceIds now := by
  simp only [canConsumeState, item_same h.replicas, stateCompatible_same h, requireEvidence_same h]

end Compatibility

end Cadi
