import Cadi.Correctness.Reading

namespace Cadi
open Library Correctness
set_option autoImplicit true

section Opportunities

def Opportunity.key (o : Opportunity) := toLex (o.metric.value, toLex (o.eventId, o.scope.value))

theorem MetricOpportunityScope.value_injective {s t : MetricOpportunityScope} (h : s.value = t.value) :
    s = t := by
  revert h
  cases s <;> cases t <;> decide

theorem Opportunity.key_injective {o p : Opportunity} (h : o.key = p.key) : o = p := by
  obtain ⟨hmetric, hrest⟩ := Prod.mk.inj (toLex.injective h)
  obtain ⟨hid, hscope⟩ := Prod.mk.inj (toLex.injective hrest)
  cases o
  cases p
  obtain rfl := CorrectnessMetric.value_injective hmetric
  obtain rfl := MetricOpportunityScope.value_injective hscope
  cases hid
  rfl

/-- What the constructor asks of the opportunities of an operation. -/
structure Acceptable (ts : List Opportunity) : Prop where
  gates : ∀ o ∈ ts, o.metric ∈ gateG1Metrics
  named : ∀ o ∈ ts, o.eventId ≠ ""
  distinct : (ts.map Opportunity.eventId).Nodup
  scopes : ∀ o ∈ ts, checkScope o = .ok ()

theorem Acceptable.perm {ts ts' : List Opportunity} (hperm : ts.Perm ts') (h : Acceptable ts) :
    Acceptable ts' where
  gates o ho := h.gates o (hperm.mem_iff.mpr ho)
  named o ho := h.named o (hperm.mem_iff.mpr ho)
  distinct := (hperm.map _).nodup_iff.mp h.distinct
  scopes o ho := h.scopes o (hperm.mem_iff.mpr ho)

theorem opportunityTriples_maps (ts : List Opportunity) :
    opportunityTriples (ts.map (·.metric)) (ts.map (·.eventId)) (ts.map (·.scope)) = ts := by
  induction ts with
  | nil => rfl
  | cons o ts ih => exact congrArg (o :: ·) ih

theorem exists_triples {metrics : List CorrectnessMetric} {eventIds : List String}
    {scopes : List MetricOpportunityScope} (h : metrics.length = eventIds.length)
    (h' : metrics.length = scopes.length) : ∃ ts : List Opportunity,
      metrics = ts.map (·.metric) ∧ eventIds = ts.map (·.eventId) ∧ scopes = ts.map (·.scope) := by
  induction metrics generalizing eventIds scopes with
  | nil =>
    refine ⟨[], rfl, ?_, ?_⟩
    · exact List.length_eq_zero_iff.mp h.symm
    · exact List.length_eq_zero_iff.mp h'.symm
  | cons m metrics ih =>
    cases eventIds with
    | nil => cases h
    | cons e eventIds =>
      cases scopes with
      | nil => cases h'
      | cons s scopes =>
        obtain ⟨ts, hm, he, hs⟩ := ih (Nat.succ.inj h) (Nat.succ.inj h')
        exact ⟨⟨m, e, s⟩ :: ts, congrArg _ hm, congrArg _ he, congrArg _ hs⟩

/-- Which opportunities are accepted, and in which order they are left. -/
theorem canonicalizeOpportunityEvents_ok {ts os : List Opportunity} :
    canonicalizeOpportunityEvents (ts.map (·.metric)) (ts.map (·.eventId)) (ts.map (·.scope)) = .ok os ↔
      Acceptable ts ∧ os = sortedBy Opportunity.key ts := by
  rw [canonicalizeOpportunityEvents]
  simp only [Except.then_eq_ok, raiseIf_eq_ok, metricTuple, opportunityTriples_maps, Except.forM_eq_ok,
    Except.pure_eq_ok, not_not, List.length_map]
  constructor
  · intro h
    obtain ⟨hgates, -, -, hnamed, hdistinct, hscopes, hsorted⟩ := h
    refine ⟨⟨fun o ho => ?_, fun o ho he => ?_, hdistinct, hscopes⟩, hsorted.symm⟩
    · by_contra hn
      exact hgates ⟨o.metric, List.mem_map_of_mem ho, hn⟩
    · exact hnamed (he ▸ List.mem_map_of_mem ho)
  · intro h
    obtain ⟨hts, rfl⟩ := h
    refine ⟨fun hex => ?_, fun hne => ?_, fun hempty => ?_, fun hmem => ?_, hts.distinct, hts.scopes, rfl⟩
    · obtain ⟨m, hm, hn⟩ := hex
      obtain ⟨o, ho, rfl⟩ := List.mem_map.mp hm
      exact hn (hts.gates o ho)
    · rcases hne with hne | hne <;> exact hne rfl
    · exact hempty.1 (List.map_eq_nil_iff.mpr (List.map_eq_nil_iff.mp hempty.2))
    · obtain ⟨o, ho, he⟩ := List.mem_map.mp hmem
      exact hts.named o ho he

theorem canonicalizeOpportunityEvents_columns {os : List Opportunity}
    (h : canonicalizeOpportunityEvents metrics eventIds scopes = .ok os) : ∃ ts : List Opportunity,
      metrics = ts.map (·.metric) ∧ eventIds = ts.map (·.eventId) ∧ scopes = ts.map (·.scope) := by
  rw [canonicalizeOpportunityEvents] at h
  simp only [Except.then_eq_ok, raiseIf_eq_ok, not_or, not_not] at h
  obtain ⟨-, ⟨hids, hscopes⟩, -⟩ := h
  exact exists_triples hids hscopes

theorem canonicalizeOpportunityEvents_own {os : List Opportunity}
    (h : canonicalizeOpportunityEvents metrics eventIds scopes = .ok os) :
    canonicalizeOpportunityEvents (os.map (·.metric)) (os.map (·.eventId)) (os.map (·.scope)) = .ok os := by
  obtain ⟨ts, rfl, rfl, rfl⟩ := canonicalizeOpportunityEvents_columns h
  obtain ⟨hts, rfl⟩ := canonicalizeOpportunityEvents_ok.mp h
  refine canonicalizeOpportunityEvents_ok.mpr ⟨hts.perm (perm_sortedBy _ ts).symm, ?_⟩
  exact (pairwise_sortedBy _ ts).insertionSort_eq.symm

end Opportunities

section Violations

def Violation.key (v : Violation) := toLex (v.metric.value, v.eventId)

theorem Violation.key_injective {v w : Violation} (h : v.key = w.key) : v = w := by
  obtain ⟨hmetric, hid⟩ := Prod.mk.inj (toLex.injective h)
  cases v
  cases w
  obtain rfl := CorrectnessMetric.value_injective hmetric
  cases hid
  rfl

/-- What the constructor asks of the violations of an operation. -/
structure Violation.Acceptable (os : List Opportunity) (vs : List Violation) : Prop where
  gates : ∀ v ∈ vs, v.metric ∈ gateG1Metrics
  named : ∀ v ∈ vs, v.eventId ≠ ""
  distinct : (vs.map Violation.eventId).Nodup
  matched : ∀ v ∈ vs, v ∈ os.map Opportunity.pair

theorem Violation.Acceptable.perm {vs vs' : List Violation} (hperm : vs.Perm vs')
    (h : Violation.Acceptable os vs) : Violation.Acceptable os vs' where
  gates v hv := h.gates v (hperm.mem_iff.mpr hv)
  named v hv := h.named v (hperm.mem_iff.mpr hv)
  distinct := (hperm.map _).nodup_iff.mp h.distinct
  matched v hv := h.matched v (hperm.mem_iff.mpr hv)

theorem zipWith_maps (vs : List Violation) :
    List.zipWith Violation.mk (vs.map (·.metric)) (vs.map (·.eventId)) = vs := by
  induction vs with
  | nil => rfl
  | cons v vs ih => exact congrArg (v :: ·) ih

theorem exists_pairs {metrics : List CorrectnessMetric} {eventIds : List String}
    (h : metrics.length = eventIds.length) :
    ∃ vs : List Violation, metrics = vs.map (·.metric) ∧ eventIds = vs.map (·.eventId) := by
  induction metrics generalizing eventIds with
  | nil => exact ⟨[], rfl, List.length_eq_zero_iff.mp h.symm⟩
  | cons m metrics ih =>
    cases eventIds with
    | nil => cases h
    | cons e eventIds =>
      obtain ⟨vs, hm, he⟩ := ih (Nat.succ.inj h)
      exact ⟨⟨m, e⟩ :: vs, congrArg _ hm, congrArg _ he⟩

theorem canonicalizeViolationEvents_ok {vs ws : List Violation} :
    canonicalizeViolationEvents (vs.map (·.metric)) (vs.map (·.eventId)) os = .ok ws ↔
      Violation.Acceptable os vs ∧ ws = sortedBy Violation.key vs := by
  rw [canonicalizeViolationEvents]
  simp only [Except.then_eq_ok, raiseIf_eq_ok, metricTuple, zipWith_maps, Except.pure_eq_ok, not_not,
    List.length_map]
  constructor
  · intro h
    obtain ⟨hgates, -, hnamed, hdistinct, hmatched, hsorted⟩ := h
    refine ⟨⟨fun v hv => ?_, fun v hv he => ?_, hdistinct, fun v hv => ?_⟩, hsorted.symm⟩
    · by_contra hn
      exact hgates ⟨v.metric, List.mem_map_of_mem hv, hn⟩
    · exact hnamed (he ▸ List.mem_map_of_mem hv)
    · by_contra hn
      exact hmatched ⟨v, hv, hn⟩
  · intro h
    obtain ⟨hvs, rfl⟩ := h
    refine ⟨fun hex => ?_, True.intro, fun hmem => ?_, hvs.distinct, fun hex => ?_, rfl⟩
    · obtain ⟨m, hm, hn⟩ := hex
      obtain ⟨v, hv, rfl⟩ := List.mem_map.mp hm
      exact hn (hvs.gates v hv)
    · obtain ⟨v, hv, he⟩ := List.mem_map.mp hmem
      exact hvs.named v hv he
    · obtain ⟨v, hv, hn⟩ := hex
      exact hn (hvs.matched v hv)

theorem canonicalizeViolationEvents_own {os : List Opportunity} {ws : List Violation}
    (h : canonicalizeViolationEvents metrics eventIds os = .ok ws) :
    canonicalizeViolationEvents (ws.map (·.metric)) (ws.map (·.eventId)) os = .ok ws := by
  have hlength := h
  rw [canonicalizeViolationEvents] at hlength
  simp only [Except.then_eq_ok, raiseIf_eq_ok, not_not] at hlength
  obtain ⟨vs, rfl, rfl⟩ := exists_pairs hlength.2.1
  obtain ⟨hvs, rfl⟩ := canonicalizeViolationEvents_ok.mp h
  refine canonicalizeViolationEvents_ok.mpr ⟨hvs.perm (perm_sortedBy _ vs).symm, ?_⟩
  exact (pairwise_sortedBy _ vs).insertionSort_eq.symm

end Violations

section Records

/-- The arguments that a record keeps. -/
def CorrectnessEvaluationRecord.arguments (r : CorrectnessEvaluationRecord) : RecordArguments where
  cohortId := r.cohortId
  trialId := r.trialId
  operationId := r.operationId
  policyId := r.policyId
  scenarioId := r.scenarioId
  validationLevel := r.validationLevel
  evidenceProvenance := r.evidenceProvenance
  groundTruthJson := r.groundTruthJson
  observedEvidenceJson := r.observedEvidenceJson
  policyDecisionJson := r.policyDecisionJson
  semanticResult := r.semanticResult
  metricOpportunities := r.opportunities.map (·.metric)
  metricOpportunityEventIds := r.opportunities.map (·.eventId)
  metricOpportunityScopes := r.opportunities.map (·.scope)
  metricViolations := r.violations.map (·.metric)
  metricViolationEventIds := r.violations.map (·.eventId)
  faultId := r.faultId
  faultClass := r.faultClass

/-- What the constructor of a record accepts, and what it makes of it. -/
theorem CorrectnessEvaluationRecord.create_ok {a : RecordArguments} {r : CorrectnessEvaluationRecord} :
    create a = .ok r ↔ checkRecordTexts a = .ok () ∧
      canonicalizeOpportunityEvents a.metricOpportunities a.metricOpportunityEventIds
        a.metricOpportunityScopes = .ok r.opportunities ∧
      canonicalizeViolationEvents a.metricViolations a.metricViolationEventIds r.opportunities =
        .ok r.violations ∧
      a.withEvents [] [] = r.arguments.withEvents [] [] := by
  rw [create, Except.then_eq_ok]
  constructor
  · intro h
    obtain ⟨htexts, h⟩ := h
    split at h
    · cases h
    · next os hos =>
      split at h
      · cases h
      · next vs hvs =>
        split at h
        · cases h
        · cases h
          exact ⟨htexts, hos, hvs, rfl⟩
  · intro h
    obtain ⟨htexts, hos, hvs, hsame⟩ := h
    refine ⟨htexts, ?_⟩
    have hfault : checkFault a.faultId a.faultClass r.opportunities = .ok () := by
      have hid : a.faultId = r.faultId := congrArg RecordArguments.faultId hsame
      have hclass : a.faultClass = r.faultClass := congrArg RecordArguments.faultClass hsame
      rw [hid, hclass]
      exact r.faulted
    split
    · next e he =>
      rw [hos] at he
      cases he
    · next os hos' =>
      obtain rfl := Except.ok.inj (hos.symm.trans hos')
      split
      · next e he =>
        rw [hvs] at he
        cases he
      · next vs hvs' =>
        obtain rfl := Except.ok.inj (hvs.symm.trans hvs')
        split
        · next e he =>
          rw [hfault] at he
          cases he
        · cases a
          cases r
          cases hsame
          rfl

theorem CorrectnessEvaluationRecord.create_arguments {a : RecordArguments}
    {r : CorrectnessEvaluationRecord} (h : create a = .ok r) : create r.arguments = .ok r := by
  obtain ⟨htexts, hos, hvs, hsame⟩ := create_ok.mp h
  have hown : checkRecordTexts (a.withEvents [] []) = checkRecordTexts (r.arguments.withEvents [] []) :=
    congrArg checkRecordTexts hsame
  exact create_ok.mpr ⟨hown.symm.trans htexts, canonicalizeOpportunityEvents_own hos,
    canonicalizeViolationEvents_own hvs, rfl⟩

theorem CorrectnessEvaluationRecord.documents {a : RecordArguments} (h : checkRecordTexts a = .ok ()) :
    requireCanonicalObject a.groundTruthJson "ground_truth_json" = .ok () ∧
      requireCanonicalObject a.observedEvidenceJson "observed_evidence_json" = .ok () ∧
      requireCanonicalObject a.policyDecisionJson "policy_decision_json" = .ok () := by
  rw [checkRecordTexts] at h
  simp only [Except.then_eq_ok] at h
  exact ⟨h.2.2.2.2.1, h.2.2.2.2.2.1, h.2.2.2.2.2.2⟩

theorem CorrectnessEvaluationRecord.members_writable (r : CorrectnessEvaluationRecord) {g o p : Json}
    (hg : g.Writable) (ho : o.Writable) (hp : p.Writable) : (Json.obj (r.members g o p)).Writable := by
  have htext (s : String) : (Json.str s).Writable := ⟨rfl, rfl⟩
  have hmember : ∀ m ∈ r.members g o p, m.2.Writable := by
    simp only [members, List.forall_mem_cons]
    exact ⟨htext _, htext _, htext _, htext _, htext _, htext _, optionalJson_writable htext _,
      optionalJson_writable htext _, htext _, htext _, hg, ho, hp, r.semanticResult.toDict_writable,
      htext _, texts_writable (fun o : Opportunity => o.metric.value) _,
      texts_writable Opportunity.eventId _, texts_writable (fun o : Opportunity => o.scope.value) _,
      texts_writable (fun v : Violation => v.metric.value) _, texts_writable Violation.eventId _,
      fun m hm => absurd hm List.not_mem_nil⟩
  exact .of_members (by decide : keys.Nodup) hmember

theorem CorrectnessEvaluationRecord.fromDict_sorted {r : CorrectnessEvaluationRecord} {g o p : Json}
    (hresult : SemanticResult.fromDict (Json.obj r.semanticResult.toDict).sorted = .ok r.semanticResult)
    (hg : ∀ name, canonicalMappingJson g.sorted name = .ok r.groundTruthJson)
    (ho : ∀ name, canonicalMappingJson o.sorted name = .ok r.observedEvidenceJson)
    (hp : ∀ name, canonicalMappingJson p.sorted name = .ok r.policyDecisionJson)
    (hown : create r.arguments = .ok r) : fromDict (Json.obj (r.members g o p)).sorted = .ok r := by
  have hnodup : ((r.members g o p).map Prod.fst).Nodup := (by decide : keys.Nodup)
  have hkeys (k : String) : k ∈ (r.members g o p).map Prod.fst ↔ k ∈ keys := Iff.rfl
  have hfield {key : String} {j : Json} (i : Nat) (h : (r.members g o p)[i]? = some (key, j)) :=
    fieldOf_sorted hnodup i h
  have hleaf (s : String) : (Json.str s).sorted = .str s := rfl
  have hobject : (Json.obj (r.members g o p)).sorted = .obj (byKey (sortedMembers (r.members g o p))) := rfl
  have hids {α : Type} (f : α → String) (l : List α) :
      (l.map fun a => Json.str (f a)).map identifierOf = l.map f :=
    List.map_map
  rw [hobject, fromDict, requireExactKeys_sorted hkeys, Except.ok_bind, hfield 0 rfl, Except.ok_bind, hleaf,
    requireText_str, Except.ok_bind, hfield 13 rfl, Except.ok_bind, hresult, Except.ok_bind, hfield 1 rfl,
    Except.ok_bind, hfield 2 rfl, Except.ok_bind, hfield 3 rfl, Except.ok_bind, hfield 4 rfl,
    Except.ok_bind, hleaf, PolicyID.ofJson_value, Except.ok_bind, hfield 5 rfl, Except.ok_bind,
    hfield 8 rfl, Except.ok_bind, hleaf, ValidationEvidenceLevel.ofJson_value, Except.ok_bind,
    hfield 9 rfl, Except.ok_bind, hleaf, ResultEvidenceProvenance.ofJson_value, Except.ok_bind,
    hfield 10 rfl, Except.ok_bind, hfield 11 rfl, Except.ok_bind, hfield 12 rfl, Except.ok_bind,
    readMembers_sorted (fun o : Opportunity => o.metric.ofJson_value) hnodup 15 rfl, Except.ok_bind,
    readMembers_sorted (fun _ : Opportunity => rfl) hnodup 16 rfl, Except.ok_bind,
    readMembers_sorted (fun o : Opportunity => o.scope.ofJson_value) hnodup 17 rfl, Except.ok_bind,
    readMembers_sorted (fun v : Violation => v.metric.ofJson_value) hnodup 18 rfl, Except.ok_bind,
    readMembers_sorted (fun _ : Violation => rfl) hnodup 19 rfl, Except.ok_bind, hfield 6 rfl,
    Except.ok_bind, hfield 7 rfl, Except.ok_bind, hg, Except.ok_bind, ho, Except.ok_bind, hp,
    Except.ok_bind, hids, hids, optionalJson_sorted fun _ => rfl, optionalIdentifier_json,
    optionalJson_sorted fun _ => rfl, optionalIdentifier_json]
  change (create r.arguments >>= _) = _
  rw [hown, Except.ok_bind, hfield 14 rfl, Except.ok_bind, hleaf, requireText_str]
  rfl

theorem CorrectnessEvaluationRecord.fromJson_toJson {a : RecordArguments} {r : CorrectnessEvaluationRecord}
    (hresult : SemanticResult.create b c o d actions = .ok a.semanticResult) (h : create a = .ok r) :
    ∃ text, r.toJson = .ok text ∧ fromJson text = .ok r := by
  have hown := create_arguments h
  obtain ⟨htexts, -, -, -⟩ := create_ok.mp hown
  obtain ⟨hground, hevidence, hdecision⟩ :
      requireCanonicalObject r.groundTruthJson "ground_truth_json" = .ok () ∧
      requireCanonicalObject r.observedEvidenceJson "observed_evidence_json" = .ok () ∧
      requireCanonicalObject r.policyDecisionJson "policy_decision_json" = .ok () := documents htexts
  obtain ⟨gs, hg, hgw, hgt⟩ := requireCanonicalObject_ok hground
  obtain ⟨os, ho, how, hot⟩ := requireCanonicalObject_ok hevidence
  obtain ⟨ps, hp, hpw, hpt⟩ := requireCanonicalObject_ok hdecision
  have hsame : a.semanticResult = r.semanticResult :=
    congrArg RecordArguments.semanticResult (create_ok.mp h).2.2.2
  have hwritable := r.members_writable hgw how hpw
  refine ⟨String.ofList (Json.obj (r.members (.obj gs) (.obj os) (.obj ps))).sorted.text, ?_, ?_⟩
  · rw [toJson, toDict, groundTruth, hg, Except.ok_bind, observedEvidence, ho, Except.ok_bind,
      policyDecision, hp, Except.ok_bind]
    exact canonicalJson_ok hwritable.finite
  · rw [fromJson, loadJsonNoDuplicates_text hwritable, Except.ok_bind]
    refine fromDict_sorted ?_ (fun name => ?_) (fun name => ?_) (fun name => ?_) hown
    · rw [hsame] at hresult
      exact SemanticResult.fromDict_sorted hresult
    · rw [canonicalMappingJson_sorted hgw, hgt]
    · rw [canonicalMappingJson_sorted how, hot]
    · rw [canonicalMappingJson_sorted hpw, hpt]

theorem constructRecord_perm {a : RecordArguments} {r : CorrectnessEvaluationRecord}
    {actions actions' : List RecoveryAction} {ts ts' : List Opportunity} {vs vs' : List Violation}
    (hactions : actions.Perm actions') (hts : ts.Perm ts') (hvs : vs.Perm vs')
    (h : constructRecord b c o d actions (a.withEvents ts vs) = .ok r) :
    constructRecord b c o d actions' (a.withEvents ts' vs') = .ok r := by
  obtain ⟨s, hs, h⟩ := Except.bind_eq_ok.mp h
  obtain ⟨htexts, hos, hws, hsame⟩ := CorrectnessEvaluationRecord.create_ok.mp h
  obtain ⟨haccepted, hsorted⟩ := canonicalizeOpportunityEvents_ok.mp hos
  obtain ⟨hviolations, hordered⟩ := canonicalizeViolationEvents_ok.mp hws
  refine Except.bind_eq_ok.mpr ⟨s, SemanticResult.create_perm hactions hs, ?_⟩
  refine CorrectnessEvaluationRecord.create_ok.mpr ⟨htexts, ?_, ?_, hsame⟩
  · refine canonicalizeOpportunityEvents_ok.mpr ⟨haccepted.perm hts, ?_⟩
    rw [hsorted]
    exact sortedBy_perm (fun _ _ _ _ => Opportunity.key_injective) hts
  · refine canonicalizeViolationEvents_ok.mpr ⟨hviolations.perm hvs, ?_⟩
    rw [hordered]
    exact sortedBy_perm (fun _ _ _ _ => Violation.key_injective) hvs

/-- Records are canonical: they survive their text, and do not depend on the order of what they are
made from. -/
theorem constructRecord_canonical (sha256 : String → Digest) (b c : Bool) (o : Option Bool)
    (d : Option ExplicitNonSuccess) (a : RecordArguments) :
    (∀ actions r, constructRecord b c o d actions a = .ok r →
      ∃ text, r.toJson = .ok text ∧ CorrectnessEvaluationRecord.fromJson text = .ok r) ∧
    ∀ (actions actions' : List RecoveryAction) (ts ts' : List Opportunity) (vs vs' : List Violation),
      actions.Perm actions' → ts.Perm ts' → vs.Perm vs' →
      (∀ r, constructRecord b c o d actions (a.withEvents ts vs) = .ok r ↔
        constructRecord b c o d actions' (a.withEvents ts' vs') = .ok r) ∧
      ∀ r r', constructRecord b c o d actions (a.withEvents ts vs) = .ok r →
        constructRecord b c o d actions' (a.withEvents ts' vs') = .ok r' →
        r'.toJson = r.toJson ∧ r'.fingerprint sha256 = r.fingerprint sha256 := by
  refine ⟨fun actions r h => ?_, fun actions actions' ts ts' vs vs' hactions hts hvs => ⟨fun r => ?_, ?_⟩⟩
  · obtain ⟨s, hs, h⟩ := Except.bind_eq_ok.mp h
    exact CorrectnessEvaluationRecord.fromJson_toJson hs h
  · exact ⟨constructRecord_perm hactions hts hvs, constructRecord_perm hactions.symm hts.symm hvs.symm⟩
  · intro r r' h h'
    obtain rfl := Except.ok.inj ((constructRecord_perm hactions hts hvs h).symm.trans h')
    exact ⟨rfl, rfl⟩

def staleOpportunity : Opportunity := ⟨.staleAttemptAcceptanceRate, "e2", .exogenousPaired⟩

def duplicateOpportunity : Opportunity := ⟨.duplicateFinalizationRate, "e1", .policyDerived⟩

/-- An operation with a fault, before its events are given. -/
def faultedArguments (policyId : PolicyID) : RecordArguments where
  cohortId := "c"
  trialId := "t"
  operationId := "o"
  policyId
  scenarioId := "s"
  validationLevel := .deterministicSemantics
  evidenceProvenance := .simulated
  groundTruthJson := "{}"
  observedEvidenceJson := "{}"
  policyDecisionJson := "{}"
  semanticResult :=
    { reportedSuccess := true, authoritativeCommit := true, semanticallyCorrect := some true }
  faultId := some "f"
  faultClass := some "WORKER_LOSS"

/-- Two opportunities with their violations and two actions, in either order. -/
theorem constructRecord_canonical_recovered : ∃ r text,
    constructRecord true true (some true) none [.retry, .migration]
      ((faultedArguments .b4).withEvents [staleOpportunity, duplicateOpportunity]
        [staleOpportunity.pair, duplicateOpportunity.pair]) = .ok r ∧
    constructRecord true true (some true) none [.migration, .retry]
      ((faultedArguments .b4).withEvents [duplicateOpportunity, staleOpportunity]
        [duplicateOpportunity.pair, staleOpportunity.pair]) = .ok r ∧
    r.toJson = .ok text ∧ CorrectnessEvaluationRecord.fromJson text = .ok r ∧
    r.opportunities = [duplicateOpportunity, staleOpportunity] ∧
    r.semanticResult.recoveryActions = [.migration, .retry] := by
  have hmade : (constructRecord true true (some true) none [.retry, .migration]
      ((faultedArguments .b4).withEvents [staleOpportunity, duplicateOpportunity]
        [staleOpportunity.pair, duplicateOpportunity.pair])).toOption.map
      (fun r => (r.opportunities, r.semanticResult.recoveryActions)) =
        some ([duplicateOpportunity, staleOpportunity], [.migration, .retry]) := by decide +kernel
  generalize hresult : constructRecord true true (some true) none [.retry, .migration]
    ((faultedArguments .b4).withEvents [staleOpportunity, duplicateOpportunity]
      [staleOpportunity.pair, duplicateOpportunity.pair]) = result at hmade
  cases result with
  | error e => cases hmade
  | ok r =>
    obtain ⟨hopportunities, hactions⟩ := Prod.mk.inj (Option.some.inj hmade)
    have hcanonical := constructRecord_canonical (fun _ => ⟨List.replicate 32 0, List.length_replicate⟩)
      true true (some true) none ((faultedArguments .b4).withEvents
        [staleOpportunity, duplicateOpportunity] [staleOpportunity.pair, duplicateOpportunity.pair])
    obtain ⟨text, htext, hread⟩ := hcanonical.1 _ r hresult
    have hsame := (hcanonical.2 [.retry, .migration] [.migration, .retry]
      [staleOpportunity, duplicateOpportunity] [duplicateOpportunity, staleOpportunity]
      [staleOpportunity.pair, duplicateOpportunity.pair] [duplicateOpportunity.pair, staleOpportunity.pair]
      (.swap _ _ _) (.swap _ _ _) (.swap _ _ _)).1 r
    exact ⟨r, text, rfl, hsame.mp hresult, htext, hread, hopportunities, hactions⟩

end Records

end Cadi
