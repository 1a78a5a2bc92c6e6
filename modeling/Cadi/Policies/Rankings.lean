import Cadi.Policies.Placement

namespace Cadi
open Library
set_option autoImplicit true

section Rankings
variable {o : PolicyObservation}

/-- The workers that can be ranked. -/
def PolicyObservation.available (o : PolicyObservation) : List WorkerObservation :=
  availableWorkers o.workers

/-- The ranking by load alone. -/
def PolicyObservation.loadRanking (o : PolicyObservation) : List String :=
  workerIds (sortedByLoad o.available)

/-- A ranking with the given locations first, both parts in its order. -/
def localFirst (locations ranking : List String) : List String :=
  ranking.filter (· ∈ locations) ++ ranking.filter (· ∉ locations)

theorem PolicyObservation.key_injective (o : PolicyObservation) :
    ∀ a ∈ o.available, ∀ b ∈ o.available, workerLoadKey a = workerLoadKey b → a = b := by
  intro a ha b hb hab
  refine o.worker_unique (List.mem_filter.mp ha).1 (List.mem_filter.mp hb).1 ?_
  have hload := (Prod.mk.inj (toLex.injective hab)).2
  have hqueue := (Prod.mk.inj (toLex.injective hload)).2
  exact (Prod.mk.inj (toLex.injective hqueue)).2

theorem loadRanking_perm (o : PolicyObservation) : o.loadRanking.Perm (workerIds o.available) :=
  (perm_sortedBy _ _).map _

theorem loadRanking_nodup (o : PolicyObservation) : o.loadRanking.Nodup :=
  (loadRanking_perm o).nodup_iff.mpr (o.workerIds_nodup.sublist (List.filter_sublist.map _))

theorem localFirst_perm (locations ranking : List String) :
    (localFirst locations ranking).Perm ranking := by
  simpa [localFirst] using List.filter_append_perm (· ∈ locations) ranking

theorem localFirst_eq (h : ¬ ∃ w ∈ ranking, w ∈ locations) : localFirst locations ranking = ranking := by
  have hnone : ∀ w ∈ ranking, w ∉ locations := fun w hw hl => h ⟨w, hw, hl⟩
  rw [localFirst, List.filter_eq_nil_iff.mpr fun w hw => by simpa using hnone w hw,
    List.filter_eq_self.mpr fun w hw => by simpa using hnone w hw, List.nil_append]

/-- The separate sort by locality and load is the load ranking, split by locality. -/
theorem sortedByLocality_eq (o : PolicyObservation) (locations : List String) :
    workerIds (sortedByLocality locations o.available) = localFirst locations o.loadRanking := by
  have hsplit := sortedBy_partition (fun w : WorkerObservation => w.workerId ∈ locations)
    o.key_injective
  change workerIds (sortedBy _ o.available) = _
  rw [show localityKey locations = fun w => toLex (if w.workerId ∈ locations then 0 else 1,
    workerLoadKey w) from rfl, hsplit, workerIds, List.map_append, localFirst,
    PolicyObservation.loadRanking, workerIds, List.filter_map, List.filter_map]
  rfl

theorem local_iff (o : PolicyObservation) (locations : List String) :
    (∃ w ∈ o.available, w.workerId ∈ locations) ↔ ∃ id ∈ o.loadRanking, id ∈ locations := by
  have hmem (id : String) : id ∈ o.loadRanking ↔ ∃ w ∈ o.available, w.workerId = id := by
    rw [(loadRanking_perm o).mem_iff, workerIds, List.mem_map]
  constructor
  · rintro ⟨w, hw, hl⟩
    exact ⟨w.workerId, (hmem _).mpr ⟨w, hw, rfl⟩, hl⟩
  · rintro ⟨id, hid, hl⟩
    obtain ⟨w, hw, rfl⟩ := (hmem id).mp hid
    exact ⟨w, hw, hl⟩

theorem loadRanking_nil : o.loadRanking = [] ↔ o.available = [] := by
  rw [PolicyObservation.loadRanking, workerIds, List.map_eq_nil_iff]
  constructor
  · intro h
    have hperm := perm_sortedBy workerLoadKey o.available
    rw [sortedByLoad] at h
    rw [h] at hperm
    exact hperm.symm.eq_nil
  · intro h
    rw [h]
    rfl

end Rankings

section Decisions
variable {o : PolicyObservation} {policyId : PolicyID} {ranking : List String}

theorem workers_project (o : PolicyObservation) (policyId : PolicyID) :
    workersFromView (projectObservation o policyId) = .ok o.workers := by
  rw [workersFromView, project_value o (by cases policyId <;> decide)]
  rfl

theorem locations_project (h : .stateLocation ∈ informationContracts policyId) :
    stateLocationsFromView (projectObservation o policyId) = .ok o.stateLocations := by
  have hnone : ¬ ∃ v ∈ o.stateLocations, v = "" := by
    rintro ⟨v, hv, rfl⟩
    exact o.locations_canonical.nonempty _ hv rfl
  rw [stateLocationsFromView, project_value o h]
  change (raiseIf _ _ >>= fun _ => _) = _
  rw [raiseIf, if_neg hnone]
  rfl

theorem text_project {field : InformationField} (h : field ∈ informationContracts policyId)
    (hvalue : o.source field = .text value) :
    textFromView (projectObservation o policyId) field = .ok value := by
  rw [textFromView, project_value o h, hvalue]
  rfl

/-- The ranking that B1 falls back to or refines. -/
def PolicyObservation.cacheRanking (o : PolicyObservation) : List String :=
  if o.stateCandidateKey ≠ none then localFirst o.stateLocations o.loadRanking else o.loadRanking

theorem cacheAware_project (o : PolicyObservation) (policyId : PolicyID)
    (hkey : .stateCandidateKey ∈ informationContracts policyId)
    (hloc : .stateLocation ∈ informationContracts policyId) :
    ∃ ranked used, rankWorkersCacheAware (projectObservation o policyId) o.available =
      .ok (ranked, used) ∧ workerIds ranked = o.cacheRanking := by
  have hids : candidateLocalIds (projectObservation o policyId) =
      .ok (if o.stateCandidateKey ≠ none then o.stateLocations else []) := by
    rw [candidateLocalIds, text_project hkey rfl, locations_project hloc]
    rfl
  rw [rankWorkersCacheAware, hids, Except.ok_bind, PolicyObservation.cacheRanking]
  by_cases hcand : o.stateCandidateKey ≠ none
  · rw [if_pos hcand, if_pos hcand]
    by_cases hlocal : ∃ w ∈ o.available, w.workerId ∈ o.stateLocations
    · rw [if_pos hlocal]
      exact ⟨_, _, rfl, sortedByLocality_eq o _⟩
    · rw [if_neg hlocal]
      rw [local_iff] at hlocal
      exact ⟨_, _, rfl, (localFirst_eq hlocal).symm⟩
  · have hlocal : ¬ ∃ w ∈ o.available, w.workerId ∈ ([] : List String) :=
      fun ⟨_, _, hw⟩ => List.not_mem_nil hw
    rw [if_neg hcand, if_neg hcand, if_neg hlocal]
    exact ⟨_, _, rfl, rfl⟩

/-- What a decision is that ranks the available workers, if there are any. -/
structure Ranks (o : PolicyObservation) (policyId : PolicyID) (ranking : List String)
    (d : PlacementDecision) : Prop where
  policyId_eq : d.policyId = policyId
  ranked : d.rankedWorkerIds = ranking
  first : d.workerId = ranking.head?
  perm : ranking.Perm (workerIds o.available)
  nodup : ranking.Nodup

theorem ranking_nonempty (hperm : ranking.Perm o.loadRanking) : ∀ id ∈ ranking, id ≠ "" := by
  intro id hid
  rw [(hperm.trans (loadRanking_perm o)).mem_iff] at hid
  obtain ⟨w, -, rfl⟩ := List.mem_map.mp hid
  exact w.workerId_nonempty

theorem placeFirst_ranks (policyId : PolicyID) (o : PolicyObservation) (heq : ranked = ranking)
    (hperm : ranking.Perm o.loadRanking) (hne : o.available ≠ []) {reason : String}
    (hreason : reason ≠ "") :
    ∃ d, placeFirst policyId ranked reason = .ok d ∧ Ranks o policyId ranking d := by
  subst heq
  have hperm' := hperm.trans (loadRanking_perm o)
  have hnodup := hperm.nodup_iff.mpr (loadRanking_nodup o)
  have hnonempty := ranking_nonempty hperm
  cases ranked with
  | nil => exact (hne (loadRanking_nil.mp hperm.symm.eq_nil)).elim
  | cons first rest =>
    have hfirst : ¬ some first = some "" :=
      fun h => hnonempty first List.mem_cons_self (Option.some.inj h)
    have hall : ¬ ∃ v ∈ first :: rest, v = "" := fun ⟨v, hv, he⟩ => hnonempty v hv he
    refine ⟨⟨policyId, some first, first :: rest, reason⟩, ?_, rfl, rfl, rfl, hperm', hnodup⟩
    change PlacementDecision.postInit ⟨policyId, some first, _, reason⟩ = _
    simp only [PlacementDecision.postInit, raiseIf, hall, hfirst, hreason, reduceCtorEq, false_and,
      if_false, Except.ok_bind]
    simp

theorem noPlacement_ok {reason : String} (h : reason ≠ "") :
    noPlacement policyId reason = .ok ⟨policyId, none, [], reason⟩ := by
  simp [noPlacement, PlacementDecision.postInit, raiseIf, h, Except.ok_bind]

/-- Without an available worker nothing is placed, which ranks all of them. -/
theorem noPlacement_ranks (hranking : ranking.Perm o.loadRanking) (hnone : o.available = []) :
    ∃ d, noPlacement policyId "NO_AVAILABLE_WORKER" = .ok d ∧ Ranks o policyId ranking d := by
  have hnil : ranking = [] := (loadRanking_nil.mpr hnone ▸ hranking).eq_nil
  refine ⟨_, noPlacement_ok (by decide), rfl, hnil.symm, ?_, ?_, ?_⟩
  · rw [hnil]
    rfl
  · rw [hnil, hnone]
    exact .nil
  · rw [hnil]
    exact .nil

theorem decidePlacement_ranks {policy : PolicyView → Except PolicyError PlacementDecision}
    (h : ∃ d, policy (projectObservation o policyId) = .ok d ∧ Ranks o policyId ranking d) :
    ∃ d, decidePlacement policyId policy o = .ok d ∧ Ranks o policyId ranking d := by
  obtain ⟨d, hd, hranks⟩ := h
  refine ⟨d, ?_, hranks⟩
  rw [decidePlacement, hd, Except.ok_bind, raiseIf, if_neg (not_not.mpr hranks.policyId_eq)]
  rfl

theorem requirePolicyView_project (o : PolicyObservation) (policyId : PolicyID) (name : String) :
    requirePolicyView (projectObservation o policyId) policyId name = .ok () := by
  rw [requirePolicyView, raiseIf]
  exact if_neg (not_not.mpr rfl)

theorem cacheRanking_perm (o : PolicyObservation) : o.cacheRanking.Perm o.loadRanking := by
  rw [PolicyObservation.cacheRanking]
  split
  · exact localFirst_perm _ _
  · exact .refl _

theorem requestCentric_ranks (o : PolicyObservation) :
    ∃ d, decidePlacement .b0 requestCentricPolicy o = .ok d ∧ Ranks o .b0 o.loadRanking d := by
  apply decidePlacement_ranks
  simp only [requestCentricPolicy, requirePolicyView_project, workers_project, Except.ok_bind]
  split
  · rename_i hnone
    exact noPlacement_ranks (.refl _) hnone
  · rename_i hsome
    exact placeFirst_ranks _ o rfl (.refl _) hsome (by decide)

theorem cacheAware_ranks (o : PolicyObservation) :
    ∃ d, decidePlacement .b1 cacheAwarePolicy o = .ok d ∧ Ranks o .b1 o.cacheRanking d := by
  apply decidePlacement_ranks
  obtain ⟨ranked, used, hrank, hids⟩ :=
    cacheAware_project o .b1 (by decide) (by decide)
  simp only [cacheAwarePolicy, requirePolicyView_project, workers_project, Except.ok_bind]
  split
  · rename_i hnone
    exact noPlacement_ranks (cacheRanking_perm o) hnone
  · rename_i hsome
    change ∃ d, (rankWorkersCacheAware _ o.available >>= _) = _ ∧ _
    rw [hrank, Except.ok_bind]
    have hreason : ∀ used : Bool, (if used = true then "CACHE_LOCALITY_THEN_LOAD"
        else "CACHE_AWARE_LOAD_FALLBACK") ≠ "" := by decide
    exact placeFirst_ranks _ o hids (cacheRanking_perm o) hsome (hreason used)

/-- The ranking with a known and available preference first. -/
def PolicyObservation.sessionRanking (o : PolicyObservation) : List String :=
  match o.sessionId, o.sessionPreferredLocation with
  | some _, some preferred =>
    if preferred ∈ o.cacheRanking then preferred :: o.cacheRanking.filter (· ≠ preferred)
    else o.cacheRanking
  | _, _ => o.cacheRanking

theorem cacheRanking_nodup (o : PolicyObservation) : o.cacheRanking.Nodup :=
  (cacheRanking_perm o).nodup_iff.mpr (loadRanking_nodup o)

theorem sessionRanking_perm (o : PolicyObservation) : o.sessionRanking.Perm o.loadRanking := by
  refine List.Perm.trans ?_ (cacheRanking_perm o)
  rw [PolicyObservation.sessionRanking]
  split
  · split
    · rename_i preferred _ _ hmem
      have herase : o.cacheRanking.filter (· ≠ preferred) = o.cacheRanking.erase preferred := by
        rw [(cacheRanking_nodup o).erase_eq_filter]
        exact List.filter_congr fun v _ => by simp [bne, beq_eq_decide]
      rw [herase]
      exact (List.perm_cons_erase hmem).symm
    · exact .refl _
  · exact .refl _

theorem find_preferred (o : PolicyObservation) (preferred : String) :
    (preferred ∈ o.cacheRanking ∧ ∃ w, o.available.find? (fun w => some w.workerId = some preferred) =
      some w ∧ w.workerId = preferred) ∨
    (preferred ∉ o.cacheRanking ∧
    o.available.find? (fun w => some w.workerId = some preferred) = none) := by
  have hmem : preferred ∈ o.cacheRanking ↔ ∃ w ∈ o.available, w.workerId = preferred := by
    rw [((cacheRanking_perm o).trans (loadRanking_perm o)).mem_iff, workerIds, List.mem_map]
  cases hfind : o.available.find? (fun w => some w.workerId = some preferred) with
  | none =>
    refine .inr ⟨fun h => ?_, rfl⟩
    obtain ⟨w, hw, rfl⟩ := hmem.mp h
    exact List.find?_eq_none.mp hfind w hw (decide_eq_true rfl)
  | some w =>
    have heq : w.workerId = preferred := by simpa using List.find?_some hfind
    exact .inl ⟨hmem.mpr ⟨w, List.mem_of_find?_eq_some hfind, heq⟩, w, rfl, heq⟩

theorem sessionAffinity_ranks (o : PolicyObservation) :
    ∃ d, decidePlacement .b2 sessionAffinityPolicy o = .ok d ∧ Ranks o .b2 o.sessionRanking d := by
  apply decidePlacement_ranks
  obtain ⟨ranked, used, hrank, hids⟩ :=
    cacheAware_project o .b2 (by decide) (by decide)
  have hsession : textFromView (projectObservation o .b2) .sessionId = .ok o.sessionId :=
    text_project (by decide) rfl
  have hpreferred : textFromView (projectObservation o .b2) .sessionPreferredLocation =
      .ok o.sessionPreferredLocation := text_project (by decide) rfl
  simp only [sessionAffinityPolicy, requirePolicyView_project, workers_project, Except.ok_bind]
  split
  · rename_i hnone
    exact noPlacement_ranks (sessionRanking_perm o) hnone
  · rename_i hsome
    change ∃ d, (rankWorkersCacheAware _ o.available >>= _) = _ ∧ _
    simp only [hrank, Except.ok_bind, hsession, hpreferred]
    cases hs : o.sessionId with
    | none =>
      have heq : o.sessionRanking = o.cacheRanking := by rw [PolicyObservation.sessionRanking, hs]
      exact placeFirst_ranks _ o (hids.trans heq.symm) (sessionRanking_perm o) hsome (by decide)
    | some sessionId =>
      cases hp : o.sessionPreferredLocation with
      | none =>
        have heq : o.sessionRanking = o.cacheRanking := by rw [PolicyObservation.sessionRanking, hs, hp]
        have hfind : (availableWorkers o.workers).find? (fun w => some w.workerId = none) = none := by
          simp
        rw [hfind]
        exact placeFirst_ranks _ o (hids.trans heq.symm) (sessionRanking_perm o) hsome (by decide)
      | some preferred =>
        rcases find_preferred o preferred with ⟨hmem, w, hfind, hw⟩ | ⟨hmem, hfind⟩
        · have heq : o.sessionRanking = preferred :: o.cacheRanking.filter (· ≠ preferred) := by
            rw [PolicyObservation.sessionRanking, hs, hp]
            exact if_pos hmem
          have hranked : workerIds (w :: ranked.filter fun v => some v.workerId ≠ some preferred) =
              o.sessionRanking := by
            rw [heq, ← hids, workerIds, List.map_cons, hw, workerIds, List.filter_map]
            congr 2
            exact List.filter_congr fun v _ => by simp
          rw [PolicyObservation.available] at hfind
          rw [hfind]
          exact placeFirst_ranks _ o hranked (sessionRanking_perm o) hsome (by decide)
        · have heq : o.sessionRanking = o.cacheRanking := by
            rw [PolicyObservation.sessionRanking, hs, hp]
            exact if_neg hmem
          rw [PolicyObservation.available] at hfind
          rw [hfind]
          exact placeFirst_ranks _ o (hids.trans heq.symm) (sessionRanking_perm o) hsome (by decide)

/-- The ranking of B3: an exact State puts its locations first, otherwise a candidate does. -/
def PolicyObservation.stateRanking (o : PolicyObservation) : List String :=
  if o.exactStateId ≠ none ∨ o.stateCandidateKey ≠ none then
    localFirst o.stateLocations o.loadRanking
  else o.loadRanking

theorem stateRanking_perm (o : PolicyObservation) : o.stateRanking.Perm o.loadRanking := by
  rw [PolicyObservation.stateRanking]
  split
  · exact localFirst_perm _ _
  · exact .refl _

theorem stateAware_ranks (o : PolicyObservation) :
    ∃ d, decidePlacement .b3 stateAwarePolicy o = .ok d ∧ Ranks o .b3 o.stateRanking d := by
  apply decidePlacement_ranks
  obtain ⟨ranked, used, hrank, hids⟩ :=
    cacheAware_project o .b3 (by decide) (by decide)
  have hexact : textFromView (projectObservation o .b3) .exactStateId = .ok o.exactStateId :=
    text_project (by decide) rfl
  have hlocations : stateLocationsFromView (projectObservation o .b3) = .ok o.stateLocations :=
    locations_project (by decide)
  simp only [stateAwarePolicy, requirePolicyView_project, workers_project, Except.ok_bind]
  split
  · rename_i hnone
    exact noPlacement_ranks (stateRanking_perm o) hnone
  · rename_i hsome
    simp only [hexact, hlocations, Except.ok_bind]
    have hreason : ∀ used : Bool, (if used = true then "STATE_AWARE_CANDIDATE_FALLBACK"
        else "STATE_AWARE_LOAD_FALLBACK") ≠ "" := by decide
    by_cases hstate : o.exactStateId ≠ none
    · have heq : o.stateRanking = localFirst o.stateLocations o.loadRanking := if_pos (.inl hstate)
      simp only [if_pos hstate]
      split
      · have hranked := (sortedByLocality_eq o o.stateLocations).trans heq.symm
        exact placeFirst_ranks _ o hranked (stateRanking_perm o) hsome (by decide)
      · rename_i hlocal
        change ∃ d, (rankWorkersCacheAware _ o.available >>= _) = _ ∧ _
        rw [hrank, Except.ok_bind]
        have hload := localFirst_eq (mt (local_iff o o.stateLocations).mpr hlocal)
        have hranked : o.cacheRanking = o.stateRanking := by
          rw [heq, PolicyObservation.cacheRanking]
          split
          · rfl
          · exact hload.symm
        exact placeFirst_ranks _ o (hids.trans hranked) (stateRanking_perm o) hsome (hreason used)
    · have hlocal : ¬ ∃ w ∈ availableWorkers o.workers, w.workerId ∈ ([] : List String) :=
        fun ⟨_, _, hw⟩ => List.not_mem_nil hw
      simp only [if_neg hstate, if_neg hlocal]
      change ∃ d, (rankWorkersCacheAware _ o.available >>= _) = _ ∧ _
      rw [hrank, Except.ok_bind]
      have hranked : o.cacheRanking = o.stateRanking := by
        rw [PolicyObservation.cacheRanking, PolicyObservation.stateRanking]
        simp only [hstate, false_or]
      exact placeFirst_ranks _ o (hids.trans hranked) (stateRanking_perm o) hsome (hreason used)

end Decisions

section ContinuityAware
variable {o : PolicyObservation} {semanticValidity : SemanticValidity} {core : ContinuityCore}

theorem optionalString_project {field : InformationField} {name : String} (hvalue : o.source field =
    .text value) (hne : value ≠ some "") :
    optionalString (projectObservation o .b4) field name = .ok value := by
  rw [optionalString, project_value o field.mem_canonical, hvalue]
  change (raiseIf _ _ >>= fun _ => _) = _
  rw [raiseIf, if_neg hne]
  rfl

/-- What the core answers about the observed State in the observed context, where it finds the
Attempt current and the reconciliation matched. -/
def Answers (semanticValidity : SemanticValidity) (core : ContinuityCore) (o : PolicyObservation)
    (answer : Except PyError Bool) : Prop :=
  ∃ attemptId programId sessionId continuationId stateId, o.attemptId = some attemptId ∧
    o.programId = some programId ∧ o.sessionId = some sessionId ∧
    o.continuationId = some continuationId ∧ o.exactStateId = some stateId ∧
    attemptCurrent core o.requestId attemptId = .ok true ∧ o.reconciliation = some "MATCHED" ∧
    stateCompatible semanticValidity core stateId
      { programId, sessionId, continuationId, requestId := o.requestId, attemptId } = answer

/-- The core finds the State compatible. -/
def Continues (semanticValidity : SemanticValidity) (core : ContinuityCore) (o : PolicyObservation) :
    Prop :=
  Answers semanticValidity core o (.ok true)

/-- What the policy can decide; it raises only where the core raises when it is asked. -/
inductive ContinuityOutcome (semanticValidity : SemanticValidity) (core : ContinuityCore)
    (o : PolicyObservation) : Except PolicyError PlacementDecision → Prop
  | nothing (reason : String) : ContinuityOutcome semanticValidity core o
      (.ok ⟨.b4, none, [], reason⟩)
  | fallback (d : PlacementDecision) (h : Ranks o .b4 o.loadRanking d) :
      ContinuityOutcome semanticValidity core o (.ok d)
  | located (d : PlacementDecision) (h : Ranks o .b4 (localFirst o.stateLocations o.loadRanking) d)
      (hcontinues : Continues semanticValidity core o) : ContinuityOutcome semanticValidity core o (.ok d)
  | raised (e : PyError) (h : Answers semanticValidity core o (.error e)) :
      ContinuityOutcome semanticValidity core o (.error (.raised e))

theorem loadFallback_outcome (hsome : o.available ≠ []) {reason : String} (hreason : reason ≠ "") :
    ContinuityOutcome semanticValidity core o (loadFallback .b4 o.available reason) := by
  obtain ⟨d, hd, hranks⟩ := placeFirst_ranks .b4 o rfl (.refl o.loadRanking) hsome hreason
  change ContinuityOutcome _ _ _ (placeFirst .b4 o.loadRanking reason)
  rw [hd]
  exact .fallback d hranks

theorem noPlacement_outcome {reason : String} (hreason : reason ≠ "") :
    ContinuityOutcome semanticValidity core o (noPlacement .b4 reason) := by
  rw [noPlacement_ok hreason]
  exact .nothing reason

theorem authority_eq {ctx : ExecutionContext} {stateId : String} (hstate : stateId ≠ "")
    (hprogram : ctx.programId ≠ "") (hsession : ctx.sessionId ≠ "")
    (hcontinuation : ctx.continuationId ≠ "") (hrequest : ctx.requestId ≠ "")
    (hattempt : ctx.attemptId ≠ "") : authorityStateCompatible semanticValidity core stateId ctx =
      (stateCompatible semanticValidity core stateId ctx).mapError .raised := by
  simp only [authorityStateCompatible, requireNonempty, raiseIf, if_neg hstate, if_neg hprogram,
    if_neg hsession, if_neg hcontinuation, if_neg hrequest, if_neg hattempt, Except.ok_bind]

theorem optional_ne (o : PolicyObservation) {v : Option String} (h : v ∈ [o.attemptId,
    o.attemptAuthority, o.sessionId, o.sessionPreferredLocation, o.continuationId, o.stateCandidateKey,
    o.exactStateId, o.producerAttemptId, o.bindingId, o.evidenceAuthority, o.evidenceStatus, o.programId,
    o.stateLifecycle, o.reconciliation]) : v ≠ some "" := o.optional_nonempty v h

theorem placeWithContext_outcome (hsome : o.available ≠ [])
    {programId sessionId continuationId attemptId : String} (hprogram : o.programId = some programId)
    (hsession : o.sessionId = some sessionId) (hcontinuation : o.continuationId = some continuationId)
    (hattempt : o.attemptId = some attemptId)
    (hcurrent : attemptCurrent core o.requestId attemptId = .ok true) :
    ContinuityOutcome semanticValidity core o
      (placeWithContext semanticValidity core (projectObservation o .b4) o.available
        { programId, sessionId, continuationId, requestId := o.requestId, attemptId }) := by
  have hexact : optionalString (projectObservation o .b4) .exactStateId "exact_state_id" =
      .ok o.exactStateId := optionalString_project rfl (optional_ne o (by simp))
  have hrec : optionalString (projectObservation o .b4) .reconciliation "reconciliation" =
      .ok o.reconciliation := optionalString_project rfl (optional_ne o (by simp))
  have hlocations : stateLocationsFromView (projectObservation o .b4) = .ok o.stateLocations :=
    locations_project (by decide)
  have hne {v : String} {w : Option String} (hw : w = some v) (h : w ≠ some "") : v ≠ "" := by
    rintro rfl
    exact h hw
  simp only [placeWithContext, hexact, hlocations, Except.ok_bind]
  cases hstate : o.exactStateId with
  | none => exact loadFallback_outcome hsome (by decide)
  | some stateId =>
    simp only [hrec, Except.ok_bind]
    split
    · exact loadFallback_outcome hsome (by decide)
    · split
      · exact loadFallback_outcome hsome (by decide)
      · rename_i hmatched
        rw [authority_eq (hne hstate (optional_ne o (by simp))) (hne hprogram (optional_ne o (by simp)))
          (hne hsession (optional_ne o (by simp))) (hne hcontinuation (optional_ne o (by simp)))
          o.requestId_nonempty (hne hattempt (optional_ne o (by simp)))]
        have hanswers : Answers semanticValidity core o (stateCompatible semanticValidity core stateId
            { programId, sessionId, continuationId, requestId := o.requestId, attemptId }) :=
          ⟨attemptId, programId, sessionId, continuationId, stateId, hattempt, hprogram, hsession,
            hcontinuation, hstate, hcurrent, not_not.mp hmatched, rfl⟩
        cases hcompatible : stateCompatible semanticValidity core stateId
            { programId, sessionId, continuationId, requestId := o.requestId, attemptId } with
        | error e =>
          rw [hcompatible] at hanswers
          exact .raised e hanswers
        | ok compatible =>
          rw [hcompatible] at hanswers
          simp only [Except.mapError, Except.ok_bind]
          cases compatible with
          | false => exact loadFallback_outcome hsome (by decide)
          | true =>
            simp only [Bool.not_true, Bool.false_eq_true, if_false]
            split
            · exact loadFallback_outcome hsome (by decide)
            · obtain ⟨d, hd, hranks⟩ := placeFirst_ranks .b4 o
                (sortedByLocality_eq o o.stateLocations) (localFirst_perm _ _) hsome
                (show "COMPATIBLE_STATE_LOCALITY_THEN_LOAD" ≠ "" by decide)
              rw [hd]
              exact .located d hranks hanswers

theorem attemptCurrent_ok (core : ContinuityCore) {requestId attemptId : String} (hrequest : requestId ≠ "")
    (hattempt : attemptId ≠ "") : ∃ b, attemptCurrent core requestId attemptId = .ok b := by
  simp only [attemptCurrent, requireNonempty, raiseIf, if_neg hrequest, if_neg hattempt,
    Except.ok_bind]
  split
  · exact ⟨_, rfl⟩
  · exact ⟨_, rfl⟩

theorem continuityAwarePolicy_outcome (semanticValidity : SemanticValidity) (core : ContinuityCore)
    (o : PolicyObservation) :
    ContinuityOutcome semanticValidity core o
      (continuityAwarePolicy semanticValidity core (projectObservation o .b4)) := by
  have hoptional (field : InformationField) {value : Option String} {name : String}
      (h : o.source field = .text value) (hne : value ≠ some "") :
      optionalString (projectObservation o .b4) field name = .ok value := optionalString_project h hne
  simp only [continuityAwarePolicy, requirePolicyView_project, workers_project,
    hoptional .logicalRequestId rfl fun h => o.requestId_nonempty (Option.some.inj h),
    hoptional .attemptId rfl (optional_ne o (by simp)),
    hoptional .attemptAuthority rfl (optional_ne o (by simp)),
    hoptional .programId rfl (optional_ne o (by simp)),
    hoptional .sessionId rfl (optional_ne o (by simp)),
    hoptional .continuationId rfl (optional_ne o (by simp)), Except.ok_bind]
  cases hattempt : o.attemptId with
  | none => exact noPlacement_outcome (by decide)
  | some attemptId =>
    have hne : attemptId ≠ "" := by
      rintro rfl
      exact optional_ne o (by simp) hattempt
    obtain ⟨current, hcurrent⟩ := attemptCurrent_ok core o.requestId_nonempty hne
    simp only [hcurrent, Except.ok_bind]
    split
    · exact noPlacement_outcome (by decide)
    · cases current with
      | false => exact noPlacement_outcome (by decide)
      | true =>
        simp only [Bool.not_true, Bool.false_eq_true, if_false]
        split
        · exact noPlacement_outcome (by decide)
        · rename_i hsome
          split
          · rename_i hprogram hsession hcontinuation
            exact placeWithContext_outcome hsome hprogram hsession hcontinuation hattempt hcurrent
          · exact noPlacement_outcome (by decide)

/-- B4 places nothing, ranks by load, or splits the ranking where the core allows it. -/
theorem continuityAware_outcome (o : PolicyObservation) : ContinuityOutcome semanticValidity core o
    (decidePlacement .b4 (continuityAwarePolicy semanticValidity core) o) := by
  have houtcome := continuityAwarePolicy_outcome semanticValidity core o
  rw [decidePlacement]
  generalize continuityAwarePolicy semanticValidity core (projectObservation o .b4) = x at houtcome
  have hkeep {d : PlacementDecision} (h : d.policyId = .b4) :
      ((.ok d : Except PolicyError PlacementDecision) >>= fun decision => do
        raiseIf (decision.policyId ≠ .b4) (.valueError "policy decision identifies a different policy")
        return decision) = .ok d := by
    rw [Except.ok_bind, raiseIf, if_neg (not_not.mpr h)]
    rfl
  cases houtcome with
  | nothing reason =>
    rw [hkeep rfl]
    exact .nothing reason
  | fallback d h =>
    rw [hkeep h.policyId_eq]
    exact .fallback d h
  | located d h hcontinues =>
    rw [hkeep h.policyId_eq]
    exact .located d h hcontinues
  | raised e h => exact .raised e h

/-- The rankings of B0 to B4 for an observation: one order by load, refined by locality and by the
preference of the session. -/
structure Placements (semanticValidity : SemanticValidity) (core : ContinuityCore)
    (o : PolicyObservation) (b0 b1 b2 b3 : PlacementDecision) : Prop where
  requestCentric : decidePlacement .b0 requestCentricPolicy o = .ok b0
  cacheAware : decidePlacement .b1 cacheAwarePolicy o = .ok b1
  sessionAffinity : decidePlacement .b2 sessionAffinityPolicy o = .ok b2
  stateAware : decidePlacement .b3 stateAwarePolicy o = .ok b3
  byLoad : Ranks o .b0 o.loadRanking b0
  byCandidate : Ranks o .b1
    (if o.stateCandidateKey ≠ none ∧ ∃ w ∈ o.available, w.workerId ∈ o.stateLocations then
      localFirst o.stateLocations b0.rankedWorkerIds
    else b0.rankedWorkerIds) b1
  bySession : Ranks o .b2
    (match o.sessionId, o.sessionPreferredLocation with
    | some _, some preferred =>
      if ∃ w ∈ o.available, w.workerId = preferred then
        preferred :: b1.rankedWorkerIds.filter (· ≠ preferred)
      else b1.rankedWorkerIds
    | _, _ => b1.rankedWorkerIds) b2
  byState : Ranks o .b3
    (if (o.exactStateId ≠ none ∨ o.stateCandidateKey ≠ none) ∧
        ∃ w ∈ o.available, w.workerId ∈ o.stateLocations then
      localFirst o.stateLocations b0.rankedWorkerIds
    else b0.rankedWorkerIds) b3
  continuityAware : ContinuityOutcome semanticValidity core o
    (decidePlacement .b4 (continuityAwarePolicy semanticValidity core) o)

theorem localFirst_if (o : PolicyObservation) (p : Prop) [Decidable p] :
    (if p ∧ ∃ w ∈ o.available, w.workerId ∈ o.stateLocations then
      localFirst o.stateLocations o.loadRanking
    else o.loadRanking) = if p then localFirst o.stateLocations o.loadRanking else o.loadRanking := by
  by_cases hp : p
  · by_cases hlocal : ∃ w ∈ o.available, w.workerId ∈ o.stateLocations
    · rw [if_pos ⟨hp, hlocal⟩, if_pos hp]
    · rw [if_neg fun h => hlocal h.2, if_pos hp]
      exact (localFirst_eq (mt (local_iff o o.stateLocations).mpr hlocal)).symm
  · rw [if_neg fun h => hp h.1, if_neg hp]

/-- Every observation has its decisions. -/
theorem placements (semanticValidity : SemanticValidity) (core : ContinuityCore)
    (o : PolicyObservation) : ∃ b0 b1 b2 b3, Placements semanticValidity core o b0 b1 b2 b3 := by
  obtain ⟨b0, hb0, h0⟩ := requestCentric_ranks o
  obtain ⟨b1, hb1, h1⟩ := cacheAware_ranks o
  obtain ⟨b2, hb2, h2⟩ := sessionAffinity_ranks o
  obtain ⟨b3, hb3, h3⟩ := stateAware_ranks o
  refine ⟨b0, b1, b2, b3, hb0, hb1, hb2, hb3, h0, ?_, ?_, ?_, continuityAware_outcome o⟩
  · rw [h0.ranked, localFirst_if]
    exact h1
  · rw [h1.ranked]
    have hmem (preferred : String) : (∃ w ∈ o.available, w.workerId = preferred) ↔
        preferred ∈ o.cacheRanking := by
      rw [((cacheRanking_perm o).trans (loadRanking_perm o)).mem_iff, workerIds, List.mem_map]
    simp only [hmem]
    exact h2
  · rw [h0.ranked, localFirst_if]
    exact h3

end ContinuityAware

end Cadi
