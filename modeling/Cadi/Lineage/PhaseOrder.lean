import Cadi.Lineage.Taint

namespace Cadi
open Library Relation
set_option autoImplicit true

/-- The State is produced by the Phase. -/
def ProducedIn (c : ContinuityCore) (stateId : String) (p : Phase) : Prop :=
  ∃ x k, c.states.get? stateId = some x ∧ x.producerPhaseId = some k ∧ c.phases.get? k = some p

/-- Within one Attempt, a State depends, directly or not, on States of earlier Phases only. -/
def PhaseOrdered (c : ContinuityCore) : Prop :=
  ∀ s t p q, ProducedIn c s p → ProducedIn c t q → q.attemptId = p.attemptId →
    TransGen (Graph.Edge (dependenciesIn c.states)) s t → q.ordinal < p.ordinal

/-- A dependency chain through States that no Phase of the Attempt produced. -/
def Detour (c : ContinuityCore) (attemptId : String) : String → String → Prop :=
  ReflTransGen fun s t => Graph.Edge (dependenciesIn c.states) s t ∧
    ∀ q, ProducedIn c s q → q.attemptId ≠ attemptId

/-- The dependency is not the State of a Phase itself, or an identifier of the two Phases is empty,
so that the check of direct dependencies passes over it. -/
def Unchecked (c : ContinuityCore) (phaseId dependencyId stateId : String) : Prop :=
  dependencyId ≠ stateId ∨ phaseId = "" ∨
    ∃ x, c.states.get? stateId = some x ∧ x.producerPhaseId = some ""

/-- A State that passes the checks of its creation reaches, on the detours these checks do not see,
only States of earlier Phases of its Attempt. -/
def KeepsPhaseOrder (c : ContinuityCore) (call : Call) : Prop :=
  match call.operation with
  | .createState id originType originId _ _ derivedFrom => originType = "phase" →
    ∀ p origin, c.phases.get? originId = some p → c.Fresh id →
    c.resolveOrigin originType originId = .ok origin →
    checkDependencies c origin (elements derivedFrom.toFinset) = .ok () →
    ∀ d ∈ derivedFrom, ∀ t q, Detour c p.attemptId d t → Unchecked c originId d t →
    ProducedIn c t q → q.attemptId = p.attemptId → q.ordinal < p.ordinal
  | _ => True

/-- The recorded producer Phase of a State is stored and belongs to its recorded Attempt. -/
def PhasesRecorded (c : ContinuityCore) : Prop :=
  ∀ s x k, c.states.get? s = some x → x.producerPhaseId = some k →
    ∃ p, c.phases.get? k = some p ∧ x.producerAttemptId = some p.attemptId

/-- The law on all chains with what carries it. -/
structure PhaseLineage (c : ContinuityCore) : Prop where
  grounded : Grounded c
  recorded : PhasesRecorded c
  ordered : PhaseOrdered c

theorem PhaseLineage.empty : PhaseLineage {} where
  grounded := .empty
  recorded s x k hx := by cases hx
  ordered s t p q hs := by
    obtain ⟨x, k, hx, _⟩ := hs
    cases hx

section Chains
variable {c c' : ContinuityCore}

theorem ProducedIn.unique (h : ProducedIn c s p) (h' : ProducedIn c s q) : p = q := by
  obtain ⟨x, k, hx, hk, hp⟩ := h
  obtain ⟨x', k', hx', hk', hq⟩ := h'
  obtain rfl := Option.some.inj (hx.symm.trans hx')
  obtain rfl := Option.some.inj (hk.symm.trans hk')
  exact Option.some.inj (hp.symm.trans hq)

/-- The first State of a Phase of the Attempt on a chain ends a detour. -/
theorem exists_detour (hp : ReflTransGen (Graph.Edge (dependenciesIn c.states)) d t)
    (ht : ProducedIn c t q) (ha : q.attemptId = attemptId) :
    ∃ u v, Detour c attemptId d u ∧ ProducedIn c u v ∧ v.attemptId = attemptId ∧
      ReflTransGen (Graph.Edge (dependenciesIn c.states)) u t := by
  induction hp using ReflTransGen.head_induction_on with
  | refl => exact ⟨t, q, .refl, ht, ha, .refl⟩
  | head hedge hrest ih =>
    next s d =>
    by_cases hs : ∃ v, ProducedIn c s v ∧ v.attemptId = attemptId
    · obtain ⟨v, hv, hva⟩ := hs
      exact ⟨s, v, .refl, hv, hva, .head hedge hrest⟩
    · obtain ⟨u, v, hdetour, hrest⟩ := ih
      exact ⟨u, v, .head ⟨hedge, fun v hv hva => hs ⟨v, hv, hva⟩⟩ hdetour, hrest⟩

/-- What the States of a later core say about earlier ones, when no State is new. -/
structure SameStates (c c' : ContinuityCore) : Prop where
  persists : Persists c c'
  back : ∀ k x', c'.states.get? k = some x' → ∃ x, c.states.get? k = some x ∧ x.Stays x'

theorem SameStates.edge (h : SameStates c c')
    (he : Graph.Edge (dependenciesIn c'.states) s t) : Graph.Edge (dependenciesIn c.states) s t := by
  obtain ⟨x', hx', ht⟩ := mem_dependenciesIn.mp he
  obtain ⟨x, hx, hs⟩ := h.back s x' hx'
  apply mem_dependenciesIn.mpr
  exact ⟨x, hx, hs.derivedFrom ▸ ht⟩

theorem ReusableState.Stays.phase {x x' : ReusableState} (h : x.Stays x') :
    x'.producerPhaseId = x.producerPhaseId := by
  rw [h.provenance]

theorem SameStates.recorded (h : SameStates c c') (hr : PhasesRecorded c) : PhasesRecorded c' := by
  intro s x' k hx' hk
  obtain ⟨x, hx, hs⟩ := h.back s x' hx'
  obtain ⟨p, hp, hattempt⟩ := hr s x k hx (hs.phase ▸ hk)
  obtain ⟨p', hp', hstays⟩ := h.persists.phases k p hp
  refine ⟨p', hp', ?_⟩
  rw [hs.producer, hattempt, hstays.attempt]

theorem SameStates.producedIn (h : SameStates c c') (hr : PhasesRecorded c)
    (hp : ProducedIn c' s p') : ∃ p, ProducedIn c s p ∧ p.Stays p' := by
  obtain ⟨x', k, hx', hk, hp'⟩ := hp
  obtain ⟨x, hx, hs⟩ := h.back s x' hx'
  rw [hs.phase] at hk
  obtain ⟨p, hp, _⟩ := hr s x k hx hk
  obtain ⟨p'', hp'', hstays⟩ := h.persists.phases k p hp
  obtain rfl := Option.some.inj (hp'.symm.trans hp'')
  exact ⟨p, ⟨x, k, hx, hk, hp⟩, hstays⟩

theorem SameStates.ordered (h : SameStates c c') (hr : PhasesRecorded c) (ho : PhaseOrdered c) :
    PhaseOrdered c' := by
  intro s t p' q' hs ht ha hchain
  obtain ⟨p, hp, hps⟩ := h.producedIn hr hs
  obtain ⟨q, hq, hqs⟩ := h.producedIn hr ht
  rw [hps.ordinal, hqs.ordinal]
  rw [hps.attempt, hqs.attempt] at ha
  exact ho s t p q hp hq ha (TransGen.mono (fun _ _ he => h.edge he) _ _ hchain)

end Chains

section Creation
variable {c : ContinuityCore} {x : ReusableState} {origin : Origin}

theorem resolveOrigin_phase (hk : KeysMatch c) (h : c.resolveOrigin originType originId = .ok origin)
    (hp : origin.phaseId = some k) : originType = "phase" ∧ k = originId ∧
      ∃ p, c.phases.get? originId = some p ∧ origin.attemptId = some p.attemptId := by
  unfold ContinuityCore.resolveOrigin at h
  split at h
  · obtain ⟨ct, _, hret⟩ := item_bind_eq_ok.mp h
    cases hret
    cases hp
  · obtain ⟨r, _, hrest⟩ := item_bind_eq_ok.mp h
    obtain ⟨_, _, hret⟩ := Except.bind_eq_ok.mp hrest
    cases hret
    cases hp
  · obtain ⟨a, _, hrest⟩ := item_bind_eq_ok.mp h
    obtain ⟨_, _, hrest⟩ := Except.bind_eq_ok.mp hrest
    obtain ⟨r, _, hret⟩ := item_bind_eq_ok.mp hrest
    cases hret
    cases hp
  · obtain ⟨p, hget, hrest⟩ := item_bind_eq_ok.mp h
    obtain ⟨_, _, hrest⟩ := Except.bind_eq_ok.mp hrest
    obtain ⟨a, ha, hrest⟩ := item_bind_eq_ok.mp hrest
    obtain ⟨_, _, hrest⟩ := Except.bind_eq_ok.mp hrest
    obtain ⟨r, _, hret⟩ := item_bind_eq_ok.mp hrest
    cases hret
    have hid : p.id = originId := hk.phases _ p hget
    have haid : a.id = p.attemptId := hk.attempts _ a ha
    exact ⟨rfl, (Option.some.inj hp).symm.trans hid, p, hget, congrArg some haid⟩
  · cases h

theorem checkDependencies_ordered (h : checkDependencies c origin (elements s) = .ok ())
    (hd : d ∈ s) (hx : c.states.get? d = some x) (hk : origin.phaseId = some k) (hkne : k ≠ "")
    (hj : x.producerPhaseId = some j) (hjne : j ≠ "") (ha : x.producerAttemptId = origin.attemptId)
    (hp : c.phases.get? k = some p) (hq : c.phases.get? j = some q) : q.ordinal < p.ordinal := by
  have hcheck := Except.forM_eq_ok.mp h d (mem_elements.mpr hd)
  obtain ⟨y, hy, hrest⟩ := item_bind_eq_ok.mp hcheck
  obtain rfl := Option.some.inj (hx.symm.trans hy)
  obtain ⟨_, _, hrest⟩ := Except.bind_eq_ok.mp hrest
  obtain ⟨_, _, horder⟩ := Except.bind_eq_ok.mp hrest
  simp only [checkPhaseOrder, hk, hj, truthy_some hkne, truthy_some hjne, ha, ↓reduceIte,
    item_of_get? hp, item_of_get? hq, bind, Except.bind, raiseIf_eq_ok] at horder
  exact Int.lt_of_not_ge horder

theorem get?_created (c : ContinuityCore) (x : ReusableState) (k : String) :
    ((Effect.createState x).apply c).states.get? k =
      ((c.states.set x.id x).get? k).map fun y => { y with lifecycle :=
        ({ c with states := c.states.set x.id x } : ContinuityCore).lifecycleOf y } :=
  Dict.get?_mapValues _ _ _

theorem created_back (hy : ((Effect.createState x).apply c).states.get? k = some y') :
    (k = x.id ∧ x.Stays y') ∨ (k ≠ x.id ∧ ∃ y, c.states.get? k = some y ∧ y.Stays y') := by
  rw [get?_created, Option.map_eq_some_iff] at hy
  obtain ⟨y, hy, rfl⟩ := hy
  rcases Dict.get?_set_eq_some_iff.mp hy with ⟨rfl, rfl⟩ | ⟨hne, hy⟩
  · exact .inl ⟨rfl, rfl, fun h => h⟩
  · exact .inr ⟨Ne.symm hne, y, hy, rfl, fun h => h⟩

theorem created_edge (he : Graph.Edge (dependenciesIn ((Effect.createState x).apply c).states) s t) :
    (s = x.id ∧ t ∈ x.derivedFrom) ∨ (s ≠ x.id ∧ Graph.Edge (dependenciesIn c.states) s t) := by
  obtain ⟨y', hy', ht⟩ := mem_dependenciesIn.mp he
  rcases created_back hy' with ⟨rfl, hs⟩ | ⟨hne, y, hy, hs⟩
  · exact .inl ⟨rfl, hs.derivedFrom ▸ ht⟩
  · exact .inr ⟨hne, mem_dependenciesIn.mpr ⟨y, hy, hs.derivedFrom ▸ ht⟩⟩

theorem edge_known (h : Grounded c) (he : Graph.Edge (dependenciesIn c.states) s t) :
    t ∈ c.states := by
  obtain ⟨y, hy, ht⟩ := mem_dependenciesIn.mp he
  exact h.dependencies s y hy t ht

theorem created_chain (h : Grounded c) (hx : x.id ∉ c.states) (hs : s ≠ x.id)
    (hchain : ReflTransGen (Graph.Edge (dependenciesIn ((Effect.createState x).apply c).states)) s t) :
    ReflTransGen (Graph.Edge (dependenciesIn c.states)) s t ∧ t ≠ x.id := by
  induction hchain with
  | refl => exact ⟨.refl, hs⟩
  | tail _ he ih =>
    rcases created_edge he with ⟨rfl, _⟩ | ⟨_, he⟩
    · exact (ih.2 rfl).elim
    · refine ⟨ih.1.tail he, ?_⟩
      rintro rfl
      exact hx (edge_known h he)

theorem created_producedIn (hp : ProducedIn ((Effect.createState x).apply c) s p) (hs : s ≠ x.id) :
    ProducedIn c s p := by
  obtain ⟨y', k, hy', hk, hp⟩ := hp
  rcases created_back hy' with ⟨rfl, _⟩ | ⟨_, y, hy, hstays⟩
  · exact (hs rfl).elim
  · exact ⟨y, k, hy, hstays.phase ▸ hk, hp⟩

theorem FromOrigin.phase (hk : KeysMatch c)
    (h : c.resolveOrigin x.originType x.originId = .ok origin) (hx : x.FromOrigin origin)
    (hp : x.producerPhaseId = some k) : x.originType = "phase" ∧ k = x.originId ∧
      ∃ p, c.phases.get? k = some p ∧ x.producerAttemptId = some p.attemptId := by
  obtain ⟨htype, rfl, p, hget, hattempt⟩ := resolveOrigin_phase hk h (hx.phase.symm.trans hp)
  exact ⟨htype, rfl, p, hget, hx.attempt.trans hattempt⟩

theorem created_recorded (h : PhaseLineage c) (ha : StateAllowed c x) :
    PhasesRecorded ((Effect.createState x).apply c) := by
  intro s y' k hy' hk
  rcases created_back hy' with ⟨rfl, hstays⟩ | ⟨_, y, hy, hstays⟩
  · obtain ⟨origin, horigin, hfrom, _⟩ := ha.origin
    rw [hstays.phase] at hk
    obtain ⟨_, _, p, hp, hattempt⟩ := FromOrigin.phase h.grounded.keys horigin hfrom hk
    exact ⟨p, hp, hstays.producer.trans hattempt⟩
  · obtain ⟨p, hp, hattempt⟩ := h.recorded s y k hy (hstays.phase ▸ hk)
    exact ⟨p, hp, hstays.producer.trans hattempt⟩

/-- The chains of a new State lead to States of earlier Phases only. -/
theorem created_reaches (h : PhaseLineage c) (ha : StateAllowed c x)
    (hcall : KeepsPhaseOrder c ⟨clock, .createState x.id x.originType x.originId t r derivedFrom⟩)
    (hd : x.derivedFrom = derivedFrom.toFinset) (hk : x.producerPhaseId = some k)
    (hp : c.phases.get? k = some p) (hdep : d ∈ x.derivedFrom)
    (hchain : ReflTransGen (Graph.Edge (dependenciesIn c.states)) d u)
    (hu : ProducedIn c u q) (hattempt : q.attemptId = p.attemptId) : q.ordinal < p.ordinal := by
  obtain ⟨origin, horigin, hfrom, hcheck⟩ := ha.origin
  obtain ⟨htype, rfl, p', hp', hrecorded⟩ := FromOrigin.phase h.grounded.keys horigin hfrom hk
  obtain rfl := Option.some.inj (hp.symm.trans hp')
  obtain ⟨v, w, hdetour, hv, hw, hrest⟩ := exists_detour hchain hu hattempt
  -- the first State of the Attempt on the chain is of an earlier Phase
  have hfirst : w.ordinal < p.ordinal := by
    by_cases hunchecked : Unchecked c x.originId d v
    · rw [hd] at hcheck hdep
      exact hcall htype p origin hp ha.fresh horigin hcheck d (List.mem_toFinset.mp hdep) v w hdetour
        hunchecked hv hw
    · simp only [Unchecked, not_or, not_exists, not_and, Decidable.not_not] at hunchecked
      obtain ⟨rfl, hne, hproducer⟩ := hunchecked
      obtain ⟨y, j, hy, hj, hq⟩ := hv
      obtain ⟨w', hw', hyattempt⟩ := h.recorded d y j hy hj
      obtain rfl := Option.some.inj (hq.symm.trans hw')
      apply checkDependencies_ordered hcheck hdep hy (hfrom.phase.symm.trans hk) hne hj _ _ hp hq
      · rintro rfl
        exact hproducer y hy hj
      · rw [hyattempt, hw, ← hfrom.attempt, hrecorded]
  -- and what it depends on is ordered already
  rcases reflTransGen_iff_eq_or_transGen.mp hrest with rfl | hrest
  · obtain rfl := hu.unique hv
    exact hfirst
  · have hlater := h.ordered v u w q hv hu (hattempt.trans hw.symm) hrest
    exact hlater.trans hfirst

theorem created_ordered (h : PhaseLineage c) (ha : StateAllowed c x)
    (hcall : KeepsPhaseOrder c ⟨clock, .createState x.id x.originType x.originId t r derivedFrom⟩)
    (hd : x.derivedFrom = derivedFrom.toFinset) : PhaseOrdered ((Effect.createState x).apply c) := by
  have hnew := ha.fresh.unused.states
  intro s u p q hs hu hattempt hchain
  obtain ⟨d, hedge, hrest⟩ := TransGen.head'_iff.mp hchain
  rcases created_edge hedge with ⟨rfl, hdep⟩ | ⟨hne, hold⟩
  · obtain ⟨origin, _, _, hcheck⟩ := ha.origin
    have hdne : d ≠ x.id := by
      rintro rfl
      exact hnew (checkDependencies_known hcheck _ hdep)
    obtain ⟨hchain', hune⟩ := created_chain h.grounded hnew hdne hrest
    obtain ⟨y', k, hy', hk, hp⟩ := hs
    rcases created_back hy' with ⟨_, hstays⟩ | ⟨hne, _⟩
    · exact created_reaches h ha hcall hd (hstays.phase ▸ hk) hp hdep hchain'
        (created_producedIn hu hune) hattempt
    · exact (hne rfl).elim
  · have hdne : d ≠ x.id := by
      rintro rfl
      exact hnew (edge_known h.grounded hold)
    obtain ⟨hchain', hune⟩ := created_chain h.grounded hnew hdne hrest
    exact h.ordered s u p q (created_producedIn hs hne) (created_producedIn hu hune) hattempt
      (.head' hold hchain')

end Creation

section Steps
variable {c : ContinuityCore}

theorem refreshed_back (hx' : c.refreshed.states.get? k = some x') :
    ∃ x, c.states.get? k = some x ∧ x.Stays x' := by
  rw [ContinuityCore.refreshed, Dict.get?_mapValues, Option.map_eq_some_iff] at hx'
  obtain ⟨x, hx, rfl⟩ := hx'
  exact ⟨x, hx, rfl, fun h => h⟩

theorem Effect.sameStates {e : Effect} (ha : e.Allowed c) (he : ∀ x, e ≠ .createState x) :
    SameStates c (e.apply c) where
  persists := Effect.persists ha
  back k x' hx' := by
    cases e with
    | createState x => exact (he x rfl).elim
    | setValidity x validity =>
      rcases Dict.get?_set_eq_some_iff.mp hx' with ⟨rfl, rfl⟩ | ⟨_, hx'⟩
      · exact ⟨x, ha.1, rfl, ha.2⟩
      · exact ⟨x', hx', .refl x'⟩
    | createContinuation | setLifecycle =>
      obtain ⟨x, hx, hs⟩ := refreshed_back hx'
      exact ⟨x, hx, hs⟩
    | _ => exact ⟨x', hx', .refl x'⟩

theorem PhaseLineage.of_sameStates (h : PhaseLineage c) (hg : Grounded c') (hs : SameStates c c') :
    PhaseLineage c' where
  grounded := hg
  recorded := hs.recorded h.recorded
  ordered := hs.ordered h.recorded h.ordered

theorem PublicOperation.Performs.no_state {operation : PublicOperation}
    (h : operation.Performs es) (hne : ∀ id t o s r d, operation ≠ .createState id t o s r d)
    (he : e ∈ es) (x : ReusableState) : e ≠ .createState x := by
  rintro rfl
  cases operation with
  | createState => exact (hne _ _ _ _ _ _ rfl).elim
  | createProgram | createSession | createContinuation | createRequest | createPhase | createOutput
  | addReplica | proposeBinding | activateInitialBinding =>
    cases h
    cases List.mem_singleton.mp he
  | startAttempt | setProgramStatus | setContinuationLifecycle | setAttemptExecution
  | completeAttempt | setPhaseStatus | completePhase | setStateValidity | setReplicaStatus
  | beginMigration | commitMigration =>
    obtain ⟨_, _, rfl⟩ := h
    cases List.mem_singleton.mp he
  | resumeAfterWait =>
    obtain ⟨_, _, _, rfl⟩ := h
    rcases List.mem_pair.mp he with he | he <;> cases he
  | finalizeRequest =>
    rcases h with rfl | ⟨_, _, _, _, _, rfl⟩
    · cases he
    · cases List.mem_singleton.mp he
  | recordEvent | recordEvidence =>
    rcases h with rfl | rfl
    · cases he
    · cases List.mem_singleton.mp he
  | isAncestor | stateCompatible | canConsumeState | requireEvidence | reconcile =>
    cases h
    cases he

theorem PhaseLineage.effect {e : Effect} (h : PhaseLineage c) (ha : e.Allowed c)
    (he : ∀ x, e ≠ .createState x) : PhaseLineage (e.apply c) :=
  h.of_sameStates (Effect.grounded h.grounded ha) (Effect.sameStates ha he)

theorem PhaseLineage.step (h : PhaseLineage c) (semanticValidity : SemanticValidity) {call : Call}
    (hcall : KeepsPhaseOrder c call) : PhaseLineage (step semanticValidity c call) := by
  by_cases hne : ∀ id t o s r d, call.operation ≠ .createState id t o s r d
  · exact step_keeps h.grounded h fun _ _ _ hes ht =>
      ht.invariant (.of_forall (fun _ he => hes.no_state hne he) c) h fun _ _ hc ha he =>
        hc.effect ha he
  · simp only [not_forall, not_not] at hne
    obtain ⟨id, t, o, s, r, d, hop⟩ := hne
    obtain ⟨clock, operation⟩ := call
    change operation = _ at hop
    subst hop
    apply (createState_takes h.grounded id t o s r d).discard.keeps h
    rintro _ _ ⟨_, x, rfl, rfl, rfl, hd, ha, rfl⟩
    exact {
      grounded := Effect.grounded h.grounded ha
      recorded := created_recorded h ha
      ordered := created_ordered h ha hcall hd }

end Steps

/-- In a run whose accepted creations reach, past what the checks see, only States of earlier
Phases, no State depends on one of the same or a later Phase of its Attempt. -/
theorem phaseOrdered_throughout (semanticValidity : SemanticValidity) (calls : List Call)
    (h : Along (step semanticValidity) KeepsPhaseOrder {} calls) :
    Throughout (step semanticValidity) PhaseOrdered {} calls :=
  (invariant_throughout (P := PhaseLineage) .empty
    (fun _ _ hc hcall => hc.step semanticValidity hcall) h).mono fun _ hc => hc.ordered

theorem ordinal_lt_of_all {c : ContinuityCore} {n : Int}
    (h : ∀ e ∈ c.states.entries, ∀ k ∈ e.2.producerPhaseId, ∀ q ∈ c.phases.get? k, q.ordinal < n)
    (hp : ProducedIn c s q) : q.ordinal < n := by
  obtain ⟨x, k, hx, hk, hq⟩ := hp
  exact h (s, x) (Dict.get?_eq_some_iff.mp hx) k hk q hq

/-- An Attempt with two completed Phases and a State of the first one. -/
def twoPhasesRun : List Call :=
  [⟨.int 0, .createProgram "p"⟩, ⟨.int 0, .createSession "s" "p"⟩,
    ⟨.int 0, .createContinuation "c" "s" [] .active⟩, ⟨.int 0, .createRequest "r" "c"⟩,
    ⟨.int 0, .startAttempt "a" "r"⟩, ⟨.int 0, .createPhase "f" "a" .prefill none⟩,
    ⟨.int 0, .createPhase "g" "a" .decode none⟩, ⟨.int 0, .completePhase "f"⟩,
    ⟨.int 0, .completePhase "g"⟩,
    ⟨.int 0, .createState "x" "phase" "f" "PREFIX" "OPAQUE" []⟩,
    ⟨.int 0, .createState "m" "attempt" "a" "PREFIX" "OPAQUE" ["x"]⟩]

/-- The second Phase's State `y` depends on the first one's `x`, also over the Attempt's `m`. -/
def forwardRun : List Call :=
  twoPhasesRun ++ [⟨.int 0, .createState "y" "phase" "g" "PREFIX" "OPAQUE" ["x", "m"]⟩]

theorem phaseOrdered_throughout_forward :
    Throughout (step defaultValidity) PhaseOrdered {} forwardRun ∧
      "m" ∈ dependenciesIn (run (step defaultValidity) {} forwardRun).states "y" := by
  refine ⟨phaseOrdered_throughout defaultValidity forwardRun (Along.concat ?_ ?_), by decide +kernel⟩
  · refine ⟨True.intro, True.intro, True.intro, True.intro, True.intro, True.intro, True.intro,
      True.intro, True.intro, ?_, ?_, True.intro⟩
    · intro _ p origin _ _ _ _ d hd
      cases hd
    · intro htype
      exact absurd htype (by decide)
  · -- when `y` is created, the first Phase alone has produced a State
    intro _ p origin hp _ _ _ d _ t q _ _ hq _
    have hget : ((run (step defaultValidity) {} twoPhasesRun).phases.get? "g").map Phase.ordinal =
        some 2 := by decide +kernel
    rw [hp] at hget
    rw [Option.some.inj hget]
    refine ordinal_lt_of_all ?_ hq
    decide +kernel

/-- The first Phase's State `x` depends over the Attempt's `m` on the second one's `y`. -/
def detourRun : List Call :=
  twoPhasesRun.take 9 ++ [⟨.int 0, .createState "y" "phase" "g" "PREFIX" "OPAQUE" []⟩,
    ⟨.int 0, .createState "m" "attempt" "a" "PREFIX" "OPAQUE" ["y"]⟩,
    ⟨.int 0, .createState "x" "phase" "f" "PREFIX" "OPAQUE" ["m"]⟩]

/-- A State of the request's only Attempt in that run, produced by one of its Phases. -/
def phaseState (id originId dependency : String) : ReusableState where
  id := id
  originType := "phase"
  originId := originId
  originContinuationId := "c"
  originRequestId := some "r"
  producerAttemptId := some "a"
  lifecycle := .active
  derivedFrom := if dependency = "" then ∅ else {dependency}
  producerPhaseId := some originId

theorem detour_unordered :
    ¬ Throughout (step defaultValidity) PhaseOrdered {} detourRun := by
  intro h
  have hlast := h.last
  have hm : "m" ∈ dependenciesIn (run (step defaultValidity) {} detourRun).states "x" := by
    decide +kernel
  have hy : "y" ∈ dependenciesIn (run (step defaultValidity) {} detourRun).states "m" := by
    decide +kernel
  have hlt := hlast "x" "y" ⟨"f", "a", 1, .prefill, .completed⟩ ⟨"g", "a", 2, .decode, .completed⟩
    ⟨phaseState "x" "f" "m", "f", by decide +kernel, rfl, by decide +kernel⟩
    ⟨phaseState "y" "g" "", "g", by decide +kernel, rfl, by decide +kernel⟩ rfl
    (.head hm (.single hy))
  exact absurd hlt (by decide)

end Cadi
