import Cadi.Oracle.Numbering

namespace Cadi
open Library Relation
set_option autoImplicit true

section Acyclic
variable {c : ContinuityCore}

theorem parentsIn_set_old {continuations : Dict String Continuation}
    (h : continuations.get? ct.id = some ct) (lifecycle : ContinuationLifecycle) :
    parentsIn (continuations.set ct.id { ct with lifecycle }) = parentsIn continuations := by
  funext k
  by_cases hk : ct.id = k
  · subst hk
    simp only [parentsIn, Dict.get?_set_self, h]
  · simp only [parentsIn, Dict.get?_set_ne _ _ hk]

theorem ContinuationsAcyclic.set_old {continuations : Dict String Continuation}
    (h : ContinuationsAcyclic continuations) (hct : continuations.get? ct.id = some ct) :
    ContinuationsAcyclic (continuations.set ct.id { ct with lifecycle }) := by
  intro k hk
  rw [parentsIn_set_old hct]
  exact h k ((Dict.mem_set.mp hk).elim (fun he => he ▸ Dict.mem_of_get? hct) fun hk => hk)

theorem ContinuationsAcyclic.set_new {continuations : Dict String Continuation}
    (h : ContinuationsAcyclic continuations) (hknown : ParentsKnown continuations)
    (hct : ct.id ∉ continuations) (hp : ∀ p ∈ ct.parentIds, p ∈ continuations) :
    ContinuationsAcyclic (continuations.set ct.id ct) := by
  have hsame (k : String) (hk : k ≠ ct.id) :
      parentsIn (continuations.set ct.id ct) k = parentsIn continuations k := by
    simp only [parentsIn, Dict.get?_set_ne _ _ (Ne.symm hk)]
  have hfresh (k : String) : ct.id ∉ parentsIn continuations k := by
    intro hm
    obtain ⟨w, hw, hm⟩ := mem_parentsIn.mp hm
    exact hct (hknown k w hw _ hm)
  have hold (k : String) (hk : k ∈ continuations) :
      Acc (Graph.Below (parentsIn (continuations.set ct.id ct))) k :=
    Graph.acc_extend hsame hfresh (h k hk) fun he => hct (he ▸ hk)
  intro k hk
  rcases Dict.mem_set.mp hk with rfl | hk
  · refine .intro _ fun p hp' => hold p (hp p ?_)
    simpa only [Graph.Below, parentsIn, Dict.get?_set_self, mem_elements] using hp'
  · exact hold k hk

theorem Effect.dag {e : Effect} (h : ContinuationsAcyclic c.continuations)
    (hknown : ParentsKnown c.continuations) (ha : e.Allowed c) :
    ContinuationsAcyclic (e.apply c).continuations := by
  cases e with
  | createContinuation ct =>
    refine h.set_new hknown ha.fresh.unused.continuations fun p hp => ?_
    obtain ⟨pc, hpc, _⟩ := ha.parent p hp
    exact Dict.mem_of_get? hpc
  | setLifecycle ct lifecycle => exact h.set_old ha.1
  | createProgram | setProgramStatus | createSession | createRequest | startAttempt | setExecution
  | createPhase | setPhaseStatus | createOutput | finalize | createState | setValidity | addReplica
  | setReplicaStatus | propose | activateInitial | beginMigration | commitMigration | recordEvent
  | recordEvidence => exact h

theorem dependenciesIn_refreshed (c : ContinuityCore) :
    dependenciesIn c.refreshed.states = dependenciesIn c.states := by
  funext k
  simp only [dependenciesIn, ContinuityCore.refreshed, Dict.get?_mapValues]
  cases c.states.get? k with
  | none => rfl
  | some x => rfl

theorem StatesAcyclic.refreshed (h : StatesAcyclic c.states) : StatesAcyclic c.refreshed.states := by
  intro k hk
  rw [dependenciesIn_refreshed]
  exact h k ((Dict.mem_mapValues _ _ _).mp hk)

theorem StatesAcyclic.set_old {states : Dict String ReusableState} (h : StatesAcyclic states)
    (hx : states.get? x.id = some x) (validity : StateValidity) :
    StatesAcyclic (states.set x.id { x with validity }) := by
  have hsame : dependenciesIn (states.set x.id { x with validity }) = dependenciesIn states := by
    funext k
    by_cases hk : x.id = k
    · subst hk
      simp only [dependenciesIn, Dict.get?_set_self, hx]
    · simp only [dependenciesIn, Dict.get?_set_ne _ _ hk]
  intro k hk
  rw [hsame]
  exact h k ((Dict.mem_set.mp hk).elim (fun he => he ▸ Dict.mem_of_get? hx) fun hk => hk)

theorem StatesAcyclic.set_new {states : Dict String ReusableState} (h : StatesAcyclic states)
    (hknown : DependenciesKnown states) (hx : x.id ∉ states)
    (hd : ∀ d ∈ x.derivedFrom, d ∈ states) : StatesAcyclic (states.set x.id x) := by
  have hsame (k : String) (hk : k ≠ x.id) :
      dependenciesIn (states.set x.id x) k = dependenciesIn states k := by
    simp only [dependenciesIn, Dict.get?_set_ne _ _ (Ne.symm hk)]
  have hfresh (k : String) : x.id ∉ dependenciesIn states k := by
    intro hm
    obtain ⟨w, hw, hm⟩ := mem_dependenciesIn.mp hm
    exact hx (hknown k w hw _ hm)
  have hold (k : String) (hk : k ∈ states) :
      Acc (Graph.Below (dependenciesIn (states.set x.id x))) k :=
    Graph.acc_extend hsame hfresh (h k hk) fun he => hx (he ▸ hk)
  intro k hk
  rcases Dict.mem_set.mp hk with rfl | hk
  · refine .intro _ fun d hd' => hold d (hd d ?_)
    simpa only [Graph.Below, dependenciesIn, Dict.get?_set_self, mem_elements] using hd'
  · exact hold k hk

theorem Effect.acyclic {e : Effect} (h : StatesAcyclic c.states)
    (hknown : DependenciesKnown c.states) (ha : e.Allowed c) : StatesAcyclic (e.apply c).states := by
  cases e with
  | createContinuation ct =>
    exact StatesAcyclic.refreshed (c := { c with continuations := c.continuations.set ct.id ct }) h
  | setLifecycle ct lifecycle =>
    exact StatesAcyclic.refreshed
      (c := { c with continuations := c.continuations.set ct.id { ct with lifecycle } }) h
  | createState x =>
    obtain ⟨origin, _, _, hchecked⟩ := ha.origin
    exact StatesAcyclic.refreshed (c := { c with states := c.states.set x.id x })
      (h.set_new hknown ha.fresh.unused.states (checkDependencies_known hchecked))
  | setValidity x validity => exact h.set_old ha.1 validity
  | createProgram | setProgramStatus | createSession | createRequest | startAttempt | setExecution
  | createPhase | setPhaseStatus | createOutput | finalize | addReplica | setReplicaStatus | propose
  | activateInitial | beginMigration | commitMigration | recordEvent | recordEvidence => exact h

end Acyclic

section Provenance
variable {c c' : ContinuityCore} {x x' : ReusableState}

/-- Ancestry is never lost: stored continuations keep their parents. -/
theorem AncestorOrSelf.persists (h : AncestorOrSelf c.continuations a d) (hp : Persists c c') :
    AncestorOrSelf c'.continuations a d := by
  refine ReflTransGen.mono (fun m n hmn => ?_) d a h
  obtain ⟨ct, hct, hn⟩ := mem_parentsIn.mp hmn
  obtain ⟨ct', hct', hs⟩ := hp.continuations m ct hct
  exact mem_parentsIn.mpr ⟨ct', hct', hs.parents.symm ▸ hn⟩

theorem DeclaredOrigin.persists
    (h : DeclaredOrigin c.continuations c.requests c.attempts c.phases x) (hp : Persists c c') :
    DeclaredOrigin c'.continuations c'.requests c'.attempts c'.phases x := by
  unfold DeclaredOrigin at h ⊢
  generalize x.originType = originType at h ⊢
  split at h
  · obtain ⟨ct, hct, hid, hrest⟩ := h
    obtain ⟨ct', hct', hs⟩ := hp.continuations _ ct hct
    exact ⟨ct', hct', hid.trans hs.id.symm, hrest⟩
  · obtain ⟨r, hr, hdone, hrest⟩ := h
    obtain ⟨r', hr', hs⟩ := hp.requests _ r hr
    have hsame : r' = r := hs.closed (by rw [hdone]; decide)
    subst hsame
    exact ⟨r', hr', hdone, hrest⟩
  · obtain ⟨a, r, ha, hr, hprod, hreq, hcont, hphase⟩ := h
    obtain ⟨a', ha', hsa⟩ := hp.attempts _ a ha
    obtain ⟨r', hr', hsr⟩ := hp.requests _ r hr
    exact ⟨a', r', ha', hsa.request ▸ hr', hprod.trans (congrArg some hsa.id.symm),
      hreq.trans (congrArg some hsr.id.symm), hcont.trans hsr.continuation.symm, hphase⟩
  · obtain ⟨p, a, r, hph, ha, hr, hpp, hprod, hreq, hcont⟩ := h
    obtain ⟨p', hph', hsp⟩ := hp.phases _ p hph
    obtain ⟨a', ha', hsa⟩ := hp.attempts _ a ha
    obtain ⟨r', hr', hsr⟩ := hp.requests _ r hr
    exact ⟨p', a', r', hph', hsp.attempt ▸ ha', hsa.request ▸ hr',
      hpp.trans (congrArg some hsp.id.symm), hprod.trans (congrArg some hsa.id.symm),
      hreq.trans (congrArg some hsr.id.symm), hcont.trans hsr.continuation.symm⟩
  · exact h.elim

theorem PhasePrecedence.persists (h : PhasePrecedence c.phases x y) (hp : Persists c c') :
    PhasePrecedence c'.phases x y := by
  intro k j hk hj hprod
  obtain ⟨p, q, hget, hget', hlt⟩ := h k j hk hj hprod
  obtain ⟨p', hp', hsp⟩ := hp.phases k p hget
  obtain ⟨q', hq', hsq⟩ := hp.phases j q hget'
  exact ⟨p', q', hp', hq', by rwa [hsp.ordinal, hsq.ordinal]⟩

theorem Provenance.persists
    (h : Provenance c.continuations c.requests c.attempts c.phases c.states x)
    (hp : Persists c c') :
    Provenance c'.continuations c'.requests c'.attempts c'.phases c'.states x where
  continuation := hp.continuations.mem h.continuation
  origin := h.origin.persists hp
  dependency d hd := by
    obtain ⟨y, hy, hanc, hprec⟩ := h.dependency d hd
    obtain ⟨y', hy', hs⟩ := hp.states d y hy
    refine ⟨y', hy', ?_, ?_⟩
    · rw [hs.provenance]
      exact hanc.persists hp
    · rw [hs.provenance]
      exact PhasePrecedence.persists (y := y) hprec hp
  producer k hk := by
    obtain ⟨a, ha, hreq⟩ := h.producer k hk
    obtain ⟨a', ha', hs⟩ := hp.attempts k a ha
    exact ⟨a', ha', fun q hq => hs.request.trans (hreq q hq)⟩
  producerPhase k hk := by
    obtain ⟨p, hget, hatt, hdone⟩ := h.producerPhase k hk
    obtain ⟨p', hp', hs⟩ := hp.phases k p hget
    refine ⟨p', hp', (congrArg some hs.attempt).trans hatt, (hs.status ?_).trans hdone⟩
    rw [hdone]
    decide

theorem Provenance.stays
    (h : Provenance c.continuations c.requests c.attempts c.phases c.states x)
    (hs : x.Stays x') :
    Provenance c.continuations c.requests c.attempts c.phases c.states x' := by
  rw [hs.provenance]
  exact ⟨h.continuation, h.origin, h.dependency, h.producer, h.producerPhase⟩

/-- What a resolved origin says about the State recorded with it. -/
theorem resolveOrigin_spec (hk : KeysMatch c)
    (hscope : ParentScopes c.programs c.sessions c.continuations c.requests c.attempts c.phases)
    (hcommit : CommitConsistent c.requests c.attempts c.outputs)
    (h : c.resolveOrigin x.originType x.originId = .ok origin) (hx : x.FromOrigin origin) :
    x.originContinuationId ∈ c.continuations ∧
      DeclaredOrigin c.continuations c.requests c.attempts c.phases x ∧
      (∀ k, truthy x.producerAttemptId = some k → ∃ a, c.attempts.get? k = some a ∧
        ∀ q, truthy x.originRequestId = some q → a.requestId = q) ∧
      (∀ k, truthy x.producerPhaseId = some k → ∃ p, c.phases.get? k = some p ∧
        some p.attemptId = x.producerAttemptId ∧ p.status = .completed) := by
  obtain ⟨hcont, hreq, hatt, hphase⟩ := hx
  have hnone {P : String → Prop} (k : String) (hk' : truthy (none : Option String) = some k) : P k := by
    cases hk'
  unfold DeclaredOrigin
  unfold ContinuityCore.resolveOrigin at h
  rw [hcont, hreq, hatt, hphase]
  generalize x.originType = originType at h ⊢
  split at h
  · obtain ⟨ct, hct, ho⟩ := Except.bind_eq_ok.mp h
    obtain ⟨hct, hid⟩ := hk.continuations.item hct
    cases ho
    refine ⟨?_, ⟨ct, hct, rfl, rfl, rfl, rfl⟩, hnone, hnone⟩
    exact Dict.mem_of_get? ((congrArg _ hid).trans hct)
  · obtain ⟨r, hr, ho⟩ := Except.bind_eq_ok.mp h
    obtain ⟨u, hopen, ho⟩ := Except.bind_eq_ok.mp ho
    rw [raiseIf_eq_ok, not_or, Decidable.not_not] at hopen
    obtain ⟨hr, hid⟩ := hk.requests.item hr
    cases ho
    refine ⟨hscope.request _ r hr, ⟨r, hr, hopen.1, hopen.2, rfl, rfl, rfl, rfl⟩, ?_, hnone⟩
    intro k hk'
    obtain ⟨j, a, hj, ha, hareq, _⟩ := (hcommit.completed _ r hr hopen.1).attempt
    obtain ⟨hk', _⟩ := truthy_eq_some.mp hk'
    simp only [hj, Option.some.injEq] at hk'
    subst hk'
    refine ⟨a, ha, fun q hq => ?_⟩
    obtain ⟨hq, _⟩ := truthy_eq_some.mp hq
    exact hareq.trans (Option.some.inj hq)
  · obtain ⟨a, ha, ho⟩ := Except.bind_eq_ok.mp h
    obtain ⟨u, _, ho⟩ := Except.bind_eq_ok.mp ho
    obtain ⟨r, hr, ho⟩ := Except.bind_eq_ok.mp ho
    obtain ⟨ha, haid⟩ := hk.attempts.item ha
    obtain ⟨hr, hrid⟩ := hk.requests.item hr
    change a.id = x.originId at haid
    change r.id = a.requestId at hrid
    cases ho
    refine ⟨hscope.request _ r hr, ⟨a, r, ha, hr, rfl, rfl, rfl, rfl⟩, ?_, hnone⟩
    intro k hk'
    obtain ⟨hk', _⟩ := truthy_eq_some.mp hk'
    obtain rfl := Option.some.inj hk'
    refine ⟨a, haid ▸ ha, fun q hq => ?_⟩
    obtain ⟨hq, _⟩ := truthy_eq_some.mp hq
    exact hrid.symm.trans (Option.some.inj hq)
  · obtain ⟨p, hp, ho⟩ := Except.bind_eq_ok.mp h
    obtain ⟨u, hdone, ho⟩ := Except.bind_eq_ok.mp ho
    obtain ⟨a, ha, ho⟩ := Except.bind_eq_ok.mp ho
    obtain ⟨u, _, ho⟩ := Except.bind_eq_ok.mp ho
    obtain ⟨r, hr, ho⟩ := Except.bind_eq_ok.mp ho
    rw [raiseIf_eq_ok, Decidable.not_not] at hdone
    obtain ⟨hp, hpid⟩ := hk.phases.item hp
    obtain ⟨ha, haid⟩ := hk.attempts.item ha
    obtain ⟨hr, hrid⟩ := hk.requests.item hr
    change p.id = x.originId at hpid
    change a.id = p.attemptId at haid
    change r.id = a.requestId at hrid
    cases ho
    refine ⟨hscope.request _ r hr, ⟨p, a, r, hp, ha, hr, rfl, rfl, rfl, rfl⟩, ?_, ?_⟩
    · intro k hk'
      obtain ⟨hk', _⟩ := truthy_eq_some.mp hk'
      obtain rfl := Option.some.inj hk'
      refine ⟨a, haid ▸ ha, fun q hq => ?_⟩
      obtain ⟨hq, _⟩ := truthy_eq_some.mp hq
      exact hrid.symm.trans (Option.some.inj hq)
    · intro k hk'
      obtain ⟨hk', _⟩ := truthy_eq_some.mp hk'
      obtain rfl := Option.some.inj hk'
      exact ⟨p, hpid ▸ hp, congrArg some haid.symm, hdone⟩
  · cases h

theorem checkPhaseOrder_spec (h : checkPhaseOrder c origin y = .ok ()) (hx : x.FromOrigin origin) :
    PhasePrecedence c.phases x y := by
  intro k j hk hj hprod
  rw [hx.phase] at hk
  rw [hx.attempt] at hprod
  simp only [checkPhaseOrder, hk, hj, hprod, ↓reduceIte] at h
  obtain ⟨p, hp, h⟩ := Except.bind_eq_ok.mp h
  obtain ⟨q, hq, h⟩ := Except.bind_eq_ok.mp h
  rw [raiseIf_eq_ok, ge_iff_le, not_le] at h
  exact ⟨p, q, item_eq_ok.mp hp, item_eq_ok.mp hq, h⟩

theorem StateAllowed.provenance (ha : StateAllowed c x) (hk : KeysMatch c)
    (hscope : ParentScopes c.programs c.sessions c.continuations c.requests c.attempts c.phases)
    (hcommit : CommitConsistent c.requests c.attempts c.outputs) :
    Provenance c.continuations c.requests c.attempts c.phases c.states x := by
  obtain ⟨origin, horigin, hx, hchecked⟩ := ha.origin
  obtain ⟨hcont, hdecl, hproducer, hphase⟩ := resolveOrigin_spec hk hscope hcommit horigin hx
  refine ⟨hcont, hdecl, fun d hd => ?_, hproducer, hphase⟩
  have hcheck := Except.forM_eq_ok.mp hchecked d (mem_elements.mpr hd)
  obtain ⟨y, hy, hcheck⟩ := Except.bind_eq_ok.mp hcheck
  obtain ⟨causal, hcausal, hcheck⟩ := Except.bind_eq_ok.mp hcheck
  obtain ⟨u, htrue, horder⟩ := Except.bind_eq_ok.mp hcheck
  rw [raiseIf_eq_ok, Bool.not_eq_false] at htrue
  subst htrue
  refine ⟨y, item_eq_ok.mp hy, ?_, checkPhaseOrder_spec horder hx⟩
  rw [hx.continuation] at hcont ⊢
  exact (isAncestor_true hscope.parentsKnown hcont).mp hcausal

theorem refreshed_stays (h : c.refreshed.states.get? k = some x') :
    ∃ x, c.states.get? k = some x ∧ x.Stays x' := by
  rw [ContinuityCore.refreshed, Dict.get?_mapValues, Option.map_eq_some_iff] at h
  obtain ⟨x, hx, rfl⟩ := h
  exact ⟨x, hx, rfl, fun h => h⟩

theorem Effect.stateSource {e : Effect} (ha : e.Allowed c)
    (h : (e.apply c).states.get? k = some x') :
    ∃ x, x.Stays x' ∧ (c.states.get? k = some x ∨ e = .createState x) := by
  cases e with
  | createContinuation ct =>
    obtain ⟨x, hx, hs⟩ := refreshed_stays
      (c := { c with continuations := c.continuations.set ct.id ct }) h
    exact ⟨x, hs, .inl hx⟩
  | setLifecycle ct lifecycle =>
    obtain ⟨x, hx, hs⟩ := refreshed_stays
      (c := { c with continuations := c.continuations.set ct.id { ct with lifecycle } }) h
    exact ⟨x, hs, .inl hx⟩
  | createState y =>
    obtain ⟨x, hx, hs⟩ := refreshed_stays (c := { c with states := c.states.set y.id y }) h
    rcases Dict.get?_set_eq_some_iff.mp hx with ⟨_, rfl⟩ | ⟨_, hx⟩
    · exact ⟨y, hs, .inr rfl⟩
    · exact ⟨x, hs, .inl hx⟩
  | setValidity y validity =>
    rcases Dict.get?_set_eq_some_iff.mp h with ⟨rfl, rfl⟩ | ⟨_, hx⟩
    · exact ⟨y, ⟨rfl, ha.2⟩, .inl ha.1⟩
    · exact ⟨x', .refl x', .inl hx⟩
  | createProgram | setProgramStatus | createSession | createRequest | startAttempt | setExecution
  | createPhase | setPhaseStatus | createOutput | finalize | addReplica | setReplicaStatus | propose
  | activateInitial | beginMigration | commitMigration | recordEvent | recordEvidence =>
    exact ⟨x', .refl x', .inl h⟩

theorem Effect.provenance {e : Effect} (ha : e.Allowed c) (hk : KeysMatch c)
    (hscope : ParentScopes c.programs c.sessions c.continuations c.requests c.attempts c.phases)
    (hcommit : CommitConsistent c.requests c.attempts c.outputs)
    (h : ∀ k x, c.states.get? k = some x →
      Provenance c.continuations c.requests c.attempts c.phases c.states x)
    (hx : (e.apply c).states.get? k = some x') :
    Provenance (e.apply c).continuations (e.apply c).requests (e.apply c).attempts
      (e.apply c).phases (e.apply c).states x' := by
  obtain ⟨x, hs, hsource⟩ := Effect.stateSource ha hx
  have hprov : Provenance c.continuations c.requests c.attempts c.phases c.states x := by
    rcases hsource with hx | rfl
    · exact h k x hx
    · exact StateAllowed.provenance ha hk hscope hcommit
  exact (hprov.persists (e.persists ha)).stays hs

end Provenance

end Cadi
