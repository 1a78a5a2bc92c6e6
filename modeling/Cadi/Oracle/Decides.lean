import Cadi.Oracle.Preservation

namespace Cadi
open Library Relation
set_option autoImplicit true

section Identity
variable {c : ContinuityCore}

/-- The check of one collection passes when its keys are the identifiers and none was seen. -/
theorem seenKeys_eq_ok [Entity α] {l : List (String × α)} :
    seenKeys seen l = .ok seen' ↔ (∀ p ∈ l, Entity.id p.2 = p.1) ∧ (l.map Prod.fst).Nodup ∧
      (∀ k ∈ l.map Prod.fst, k ∉ seen) ∧ seen' = (l.map Prod.fst).reverse ++ seen := by
  induction l generalizing seen with
  | nil =>
    simp only [seenKeys, Except.ok.injEq, List.not_mem_nil, false_imp_iff, implies_true,
      List.map_nil, List.nodup_nil, List.reverse_nil, List.nil_append, true_and]
    exact eq_comm
  | cons p l ih =>
    obtain ⟨key, entity⟩ := p
    simp only [seenKeys, Except.then_eq_ok, require_eq_ok, ih, List.mem_cons, forall_eq_or_imp,
      List.map_cons, List.nodup_cons, List.reverse_cons, List.append_assoc, List.singleton_append,
      not_or]
    constructor
    · rintro ⟨hid, hkey, hids, hnodup, hout, rfl⟩
      exact ⟨⟨hid, hids⟩, ⟨fun hm => (hout key hm).1 rfl, hnodup⟩,
        ⟨hkey, fun k hk => (hout k hk).2⟩, rfl⟩
    · rintro ⟨⟨hid, hids⟩, ⟨hfresh, hnodup⟩, ⟨hkey, hout⟩, rfl⟩
      exact ⟨hid, hkey, hids, hnodup, fun k hk => ⟨fun he => hfresh (he ▸ hk), hout k hk⟩, rfl⟩

theorem keyed_iff [Entity α] {d : Dict String α} :
    (∀ p ∈ d.entries, Entity.id p.2 = p.1) ↔ Keyed d :=
  Dict.forall_entries_iff

theorem seenKeys_sound [Entity α] {d : Dict String α} (h : seenKeys seen d.entries = .ok seen')
    (hp : seen.Perm pre ∧ pre.Nodup) :
    Keyed d ∧ seen'.Perm (pre ++ d.keys) ∧ (pre ++ d.keys).Nodup := by
  obtain ⟨hids, hnodup, hout, rfl⟩ := seenKeys_eq_ok.mp h
  refine ⟨keyed_iff.mp hids, ?_, ?_⟩
  · exact (List.perm_append_comm.trans (hp.1.append (List.reverse_perm _)))
  · refine List.nodup_append.mpr ⟨hp.2, hnodup, fun k hk j hj he => ?_⟩
    exact hout j hj (he ▸ hp.1.mem_iff.mpr hk)

theorem seenKeys_complete [Entity α] {d : Dict String α} (hk : Keyed d) (hp : seen.Perm pre)
    (hn : (pre ++ d.keys).Nodup) :
    ∃ seen', seenKeys seen d.entries = .ok seen' ∧ seen'.Perm (pre ++ d.keys) := by
  obtain ⟨_, hkeys, hdisjoint⟩ := List.nodup_append.mp hn
  refine ⟨_, seenKeys_eq_ok.mpr ⟨keyed_iff.mpr hk, hkeys, fun k hk hs => ?_, rfl⟩, ?_⟩
  · exact hdisjoint k (hp.mem_iff.mp hs) k hk rfl
  · exact (List.perm_append_comm.trans (hp.append (List.reverse_perm _)))

theorem globalIdentityUniqueness_eq_ok :
    globalIdentityUniqueness c = .ok () ↔ KeysMatch c ∧ c.ids.Nodup := by
  constructor
  · intro h
    obtain ⟨_, h1, h⟩ := Except.bind_eq_ok.mp h
    obtain ⟨_, h2, h⟩ := Except.bind_eq_ok.mp h
    obtain ⟨_, h3, h⟩ := Except.bind_eq_ok.mp h
    obtain ⟨_, h4, h⟩ := Except.bind_eq_ok.mp h
    obtain ⟨_, h5, h⟩ := Except.bind_eq_ok.mp h
    obtain ⟨_, h6, h⟩ := Except.bind_eq_ok.mp h
    obtain ⟨_, h7, h⟩ := Except.bind_eq_ok.mp h
    obtain ⟨_, h8, h⟩ := Except.bind_eq_ok.mp h
    obtain ⟨_, h9, h⟩ := Except.bind_eq_ok.mp h
    obtain ⟨_, h10, h⟩ := Except.bind_eq_ok.mp h
    obtain ⟨_, h11, h⟩ := Except.bind_eq_ok.mp h
    obtain ⟨_, h12, _⟩ := Except.bind_eq_ok.mp h
    obtain ⟨programs, hp⟩ := seenKeys_sound h1 ⟨.refl [], .nil⟩
    obtain ⟨sessions, hp⟩ := seenKeys_sound h2 hp
    obtain ⟨continuations, hp⟩ := seenKeys_sound h3 hp
    obtain ⟨requests, hp⟩ := seenKeys_sound h4 hp
    obtain ⟨attempts, hp⟩ := seenKeys_sound h5 hp
    obtain ⟨phases, hp⟩ := seenKeys_sound h6 hp
    obtain ⟨states, hp⟩ := seenKeys_sound h7 hp
    obtain ⟨replicas, hp⟩ := seenKeys_sound h8 hp
    obtain ⟨bindings, hp⟩ := seenKeys_sound h9 hp
    obtain ⟨evidence, hp⟩ := seenKeys_sound h10 hp
    obtain ⟨outputs, hp⟩ := seenKeys_sound h11 hp
    obtain ⟨events, hp⟩ := seenKeys_sound h12 hp
    exact ⟨⟨programs, sessions, continuations, requests, attempts, phases, states, replicas,
      bindings, evidence, outputs, events⟩, hp.2⟩
  · rintro ⟨hk, hn⟩
    have n11 := hn.of_append_left
    have n10 := n11.of_append_left
    have n9 := n10.of_append_left
    have n8 := n9.of_append_left
    have n7 := n8.of_append_left
    have n6 := n7.of_append_left
    have n5 := n6.of_append_left
    have n4 := n5.of_append_left
    have n3 := n4.of_append_left
    have n2 := n3.of_append_left
    obtain ⟨_, h1, hp⟩ := seenKeys_complete hk.programs (.refl []) n2.of_append_left
    obtain ⟨_, h2, hp⟩ := seenKeys_complete hk.sessions hp n2
    obtain ⟨_, h3, hp⟩ := seenKeys_complete hk.continuations hp n3
    obtain ⟨_, h4, hp⟩ := seenKeys_complete hk.requests hp n4
    obtain ⟨_, h5, hp⟩ := seenKeys_complete hk.attempts hp n5
    obtain ⟨_, h6, hp⟩ := seenKeys_complete hk.phases hp n6
    obtain ⟨_, h7, hp⟩ := seenKeys_complete hk.states hp n7
    obtain ⟨_, h8, hp⟩ := seenKeys_complete hk.replicas hp n8
    obtain ⟨_, h9, hp⟩ := seenKeys_complete hk.bindings hp n9
    obtain ⟨_, h10, hp⟩ := seenKeys_complete hk.evidence hp n10
    obtain ⟨_, h11, hp⟩ := seenKeys_complete hk.outputs hp n11
    obtain ⟨_, h12, _⟩ := seenKeys_complete hk.events hp hn
    simp only [globalIdentityUniqueness, h1, h2, h3, h4, h5, h6, h7, h8, h9, h10, h11, h12, bind,
      Except.bind]
    rfl

theorem checkParentScopes_eq_ok : checkParentScopes c = .ok () ↔
    ParentScopes c.programs c.sessions c.continuations c.requests c.attempts c.phases := by
  simp only [checkParentScopes, Except.then_eq_ok, Except.forM_eq_ok, require_eq_ok,
    item_bind_eq_ok, mem_elements, Dict.forall_values_iff]
  constructor
  · rintro ⟨session, continuation, request, attempt, phase⟩
    exact ⟨session, fun k ct hct => (continuation k ct hct).1,
      fun k ct hct => (continuation k ct hct).2, request, attempt, phase⟩
  · intro h
    exact ⟨h.session, fun k ct hct => ⟨h.continuation k ct hct, h.parent k ct hct⟩, h.request,
      h.attempt, h.phase⟩

end Identity

section Authority
variable {c : ContinuityCore}

theorem eq_singleton_iff {l : List α} (h : l.Nodup) : l = [a] ↔ ∀ b, a = b ↔ b ∈ l := by
  constructor
  · rintro rfl b
    rw [List.mem_singleton, eq_comm]
  · intro hmem
    refine List.perm_singleton.mp ?_
    rw [List.perm_ext_iff_of_nodup h (List.nodup_singleton a)]
    intro b
    rw [← hmem, List.mem_singleton, eq_comm]

theorem values_map_id [Entity α] {d : Dict String α} (h : Keyed d) :
    d.values.map Entity.id = d.keys := by
  rw [Dict.values, Dict.keys, List.map_map]
  exact List.map_congr_left fun p hp => keyed_iff.mpr h p hp

theorem mem_withAuthority (h : Keyed c.attempts) :
    k ∈ (c.withAuthority rid s).map Entity.id ↔ Holder c.attempts rid s k := by
  simp only [ContinuityCore.withAuthority, List.mem_map, List.mem_filter, decide_eq_true_eq,
    Dict.mem_values_iff, Holder]
  constructor
  · rintro ⟨a, ⟨⟨j, ha⟩, hs⟩, rfl⟩
    exact ⟨a, (h j a ha) ▸ ha, hs⟩
  · rintro ⟨a, ha, hs⟩
    exact ⟨a, ⟨⟨k, ha⟩, hs⟩, h k a ha⟩

theorem withAuthority_nodup (h : Keyed c.attempts) :
    ((c.withAuthority rid s).map Entity.id).Nodup := by
  have hall : (c.attempts.values.map Entity.id).Nodup := by
    rw [values_map_id h]
    exact c.attempts.nodup
  exact hall.sublist (List.filter_sublist.map _)

theorem checkPointer_eq_ok (h : Keyed c.attempts) {pointer : Option String} :
    checkPointer pointer (c.withAuthority rid s) = .ok () ↔ Names c.attempts rid s pointer := by
  cases pointer with
  | none =>
    rw [checkPointer, require_eq_ok, ← List.map_eq_nil_iff (f := Entity.id),
      List.eq_nil_iff_forall_not_mem]
    simp only [mem_withAuthority h, Names, reduceCtorEq, false_iff]
  | some k =>
    rw [checkPointer, require_eq_ok]
    change (c.withAuthority rid s).map Entity.id = [k] ↔ _
    rw [eq_singleton_iff (withAuthority_nodup h)]
    simp only [mem_withAuthority h, Names, Option.some.injEq]

theorem Names.length_le (h : Keyed c.attempts) (hn : Names c.attempts rid s pointer) :
    (c.withAuthority rid s).length ≤ 1 := by
  have hcheck := (checkPointer_eq_ok h).mpr hn
  cases pointer with
  | none =>
    rw [checkPointer, require_eq_ok] at hcheck
    rw [hcheck]
    decide
  | some k =>
    rw [checkPointer, require_eq_ok] at hcheck
    rw [← List.length_map (f := fun a : Attempt => a.id), hcheck]
    exact Nat.le_refl 1

theorem checkAttemptAuthority_eq_ok (h : Keyed c.attempts) :
    checkAttemptAuthority c = .ok () ↔ AuthorityPointers c.requests c.attempts := by
  simp only [checkAttemptAuthority, Except.forM_eq_ok, Dict.forall_entries_iff, Except.then_eq_ok,
    require_eq_ok, checkPointer_eq_ok h]
  constructor
  · intro hall
    exact ⟨fun k r hr => (hall k r hr).2.2.1, fun k r hr => (hall k r hr).2.2.2.1⟩
  · intro hp k r hr
    have hcurrent := hp.current k r hr
    have hcommitted := hp.committed k r hr
    refine ⟨hcurrent.length_le h, hcommitted.length_le h, hcurrent, hcommitted, ?_⟩
    intro a ha
    have hholder := (mem_withAuthority h).mp (List.mem_map_of_mem (f := Entity.id) ha)
    obtain ⟨a', ha', _, hs⟩ := hholder
    constructor
    · intro he
      obtain ⟨w, hw, _, hws⟩ := (hcurrent a.id).mp he.symm
      obtain rfl := Option.some.inj (ha'.symm.trans hw)
      rw [hs] at hws
      cases hws
    · intro he
      obtain ⟨w, hw, _, hws⟩ := (hcommitted a.id).mp he.symm
      obtain rfl := Option.some.inj (ha'.symm.trans hw)
      rw [hs] at hws
      cases hws

theorem pairwise_oneTo (n : Nat) : (oneTo n).Pairwise (· ≤ ·) := by
  rw [oneTo, List.pairwise_map]
  refine List.pairwise_lt_range.imp fun h => ?_
  omega

theorem sorted_eq_oneTo {l m : List Int} (hs : l.Pairwise (· ≤ ·)) (hp : l.Perm m) :
    l = oneTo n ↔ m.Perm (oneTo n) := by
  constructor
  · intro he
    exact he ▸ hp.symm
  · intro hm
    exact (hp.trans hm).eq_of_pairwise' hs (pairwise_oneTo n)

theorem checkAttemptGenerations_eq_ok : checkAttemptGenerations c = .ok () ↔
    ∀ k ∈ c.requests, Numbered (generationsOf c.attempts k) := by
  simp only [checkAttemptGenerations, Except.forM_eq_ok, require_eq_ok]
  refine forall₂_congr fun k hk => ?_
  rw [sorted_eq_oneTo (List.pairwise_insertionSort _ _) (List.perm_insertionSort _ _)]
  unfold Numbered generationsOf numbersOf
  rw [List.length_map]
  rfl

theorem checkPhaseOrdering_eq_ok : checkPhaseOrdering c = .ok () ↔
    ∀ k ∈ c.attempts, Numbered (ordinalsOf c.phases k) := by
  simp only [checkPhaseOrdering, Except.forM_eq_ok, Except.then_eq_ok, require_eq_ok]
  refine forall₂_congr fun k hk => ?_
  have hperm := List.perm_insertionSort (fun p q : Phase => p.ordinal ≤ q.ordinal) (c.phasesOf k)
  have hsorted := List.pairwise_map.mpr
    (List.pairwise_insertionSort (fun p q : Phase => p.ordinal ≤ q.ordinal) (c.phasesOf k))
  have howner : ∀ p ∈ (c.phasesOf k).insertionSort fun p q => p.ordinal ≤ q.ordinal,
      p.attemptId = k := by
    intro p hp
    have hp' := (List.mem_filter.mp (hperm.mem_iff.mp hp)).2
    exact of_decide_eq_true hp'
  rw [and_iff_left howner, sorted_eq_oneTo hsorted (hperm.map _), hperm.length_eq]
  unfold Numbered ordinalsOf numbersOf
  rw [List.length_map]
  rfl

theorem checkCompleted_eq_ok {r : LogicalRequest} :
    checkCompleted c r = .ok () ↔ Completed c.attempts c.outputs r := by
  simp only [checkCompleted, Except.then_eq_ok, require_eq_ok, item_bind_eq_ok]
  constructor
  · rintro ⟨hcurrent, hcommitted, houtput, a, ha, o, ho, hreq, hauth, hexec, hprod, hterm⟩
    obtain ⟨k, hk⟩ := Option.ne_none_iff_exists'.mp hcommitted
    obtain ⟨j, hj⟩ := Option.ne_none_iff_exists'.mp houtput
    rw [hk] at ha
    rw [hj] at ho
    exact ⟨hcurrent, ⟨k, a, hk, ha, hreq, hauth, hexec⟩, ⟨j, o, hj, ho, hprod, hterm⟩⟩
  · rintro ⟨hcurrent, ⟨k, a, hk, ha, hreq, hauth, hexec⟩, j, o, hj, ho, hprod, hterm⟩
    refine ⟨hcurrent, ?_, ?_, a, ?_, o, ?_, hreq, hauth, hexec, hprod, hterm⟩
    · rw [hk]
      exact Option.some_ne_none k
    · rw [hj]
      exact Option.some_ne_none j
    · rw [hk]
      exact ha
    · rw [hj]
      exact ho

theorem checkRequestCommitConsistency_eq_ok :
    checkRequestCommitConsistency c = .ok () ↔
      CommitConsistent c.requests c.attempts c.outputs := by
  simp only [checkRequestCommitConsistency, Except.forM_eq_ok, Dict.forall_values_iff]
  constructor
  · intro h
    refine ⟨fun k r hr hs => ?_, fun k r hr hs => ?_⟩
    · have hcheck := h k r hr
      rw [if_pos hs] at hcheck
      exact checkCompleted_eq_ok.mp hcheck
    · have hcheck := h k r hr
      have hopen : r.status ≠ .completed := by
        rcases hs with hs | hs <;> rw [hs] <;> decide
      rw [if_neg hopen, if_pos hs] at hcheck
      simpa only [Except.then_eq_ok, require_eq_ok] using hcheck
  · intro h k r hr
    split
    · next hs => exact checkCompleted_eq_ok.mpr (h.completed k r hr hs)
    · split
      · next hs => simpa only [Except.then_eq_ok, require_eq_ok] using h.closed k r hr hs
      · rfl

end Authority

section Graphs
variable {c : ContinuityCore}

/-- The graph of one Session is closed, so searching it alone finds every cycle through it. -/
theorem sessionNodes_acc (hs : ParentScopes c.programs c.sessions c.continuations c.requests
      c.attempts c.phases) (hk : k ∈ c.sessionNodes sid) :
    Acc (Graph.Below fun k => (parentsIn c.continuations k).filter (· ∈ c.sessionNodes sid)) k ↔
      Acc (Graph.Below (parentsIn c.continuations)) k := by
  have hparent {k p : String} (hk : k ∈ c.sessionNodes sid) (hp : p ∈ parentsIn c.continuations k) :
      p ∈ c.sessionNodes sid := by
    obtain ⟨ct, hct, hsid⟩ := mem_sessionNodes.mp hk
    obtain ⟨ct', hct', hp⟩ := mem_parentsIn.mp hp
    obtain rfl := Option.some.inj (hct.symm.trans hct')
    obtain ⟨pc, hpc, hpsid⟩ := hs.parent k ct hct p hp
    exact mem_sessionNodes.mpr ⟨pc, hpc, hpsid.trans hsid⟩
  constructor
  · intro h
    induction h with
    | intro k _ ih =>
      refine .intro k fun p hp => ih p ?_ (hparent hk hp)
      exact List.mem_filter.mpr ⟨hp, decide_eq_true (hparent hk hp)⟩
  · intro h
    induction h with
    | intro k _ ih =>
      refine .intro k fun p hp => ?_
      have hp' := (List.mem_filter.mp hp).1
      exact ih p hp' (hparent hk hp')

theorem checkContinuationDags_eq_ok (hs : ParentScopes c.programs c.sessions c.continuations
      c.requests c.attempts c.phases) :
    checkContinuationDags c = .ok () ↔ ContinuationsAcyclic c.continuations := by
  have hsession (sid : String) : ((do
      let cyclic ← c.hasCycle sid
      require (cyclic = false)) = .ok ()) ↔ ∀ n ∈ c.sessionNodes sid,
        Acc (Graph.Below (parentsIn c.continuations)) n := by
    obtain ⟨b, hb, hiff⟩ := hasCycle_spec c sid
    rw [hb]
    change require (b = false) = .ok () ↔ _
    rw [require_eq_ok, hiff]
    exact forall₂_congr fun n hn => sessionNodes_acc hs hn
  simp only [checkContinuationDags, Except.forM_eq_ok, hsession]
  constructor
  · intro h k hk
    obtain ⟨ct, hct⟩ := Dict.mem_iff.mp hk
    exact h ct.sessionId (hs.continuation k ct hct) k (mem_sessionNodes.mpr ⟨ct, hct, rfl⟩)
  · exact fun h sid _ n hn => h n (sessionNodes_known hn)

theorem checkDeclaredOrigin_eq_ok {x : ReusableState} : checkDeclaredOrigin c x = .ok () ↔
    DeclaredOrigin c.continuations c.requests c.attempts c.phases x := by
  unfold checkDeclaredOrigin DeclaredOrigin
  generalize x.originType = originType
  split
  · simp only [item_bind_eq_ok, Except.then_eq_ok, require_eq_ok]
  · simp only [item_bind_eq_ok, Except.then_eq_ok, require_eq_ok]
  · simp only [item_bind_eq_ok, Except.then_eq_ok, require_eq_ok, exists_and_left]
  · simp only [item_bind_eq_ok, Except.then_eq_ok, require_eq_ok, exists_and_left]
  · simp only [reduceCtorEq]

theorem checkPhasePrecedence_eq_ok {x y : ReusableState} :
    checkPhasePrecedence c x y = .ok () ↔ PhasePrecedence c.phases x y := by
  unfold checkPhasePrecedence PhasePrecedence
  split
  · next k j hk hj =>
    simp only [hk, hj, Option.some.injEq]
    split
    · next hprod =>
      simp only [item_bind_eq_ok, require_eq_ok, exists_and_left]
      constructor
      · rintro h _ _ rfl rfl _
        exact h
      · exact fun h => h k j rfl rfl hprod
    · next hprod => exact iff_of_true rfl fun _ _ _ _ hp => (hprod hp).elim
  · next hno => exact iff_of_true rfl fun k j hk hj => (hno k j hk hj).elim

theorem checkProvenanceEdge_eq_ok {x : ReusableState} (hs : ParentsKnown c.continuations)
    (hx : x.originContinuationId ∈ c.continuations) :
    checkProvenanceEdge c x d = .ok () ↔ ∃ y, c.states.get? d = some y ∧
      AncestorOrSelf c.continuations y.originContinuationId x.originContinuationId ∧
      PhasePrecedence c.phases x y := by
  simp only [checkProvenanceEdge, item_bind_eq_ok]
  refine exists_congr fun y => and_congr_right fun _ => ?_
  obtain ⟨b, hb, hanc⟩ := isAncestor_spec (a := y.originContinuationId) hs hx
  rw [hb]
  change (require (b = true) >>= fun _ => checkPhasePrecedence c x y) = .ok () ↔ _
  rw [Except.then_eq_ok, require_eq_ok, hanc, checkPhasePrecedence_eq_ok]

theorem checkProducerAttempt_eq_ok {x : ReusableState} : checkProducerAttempt c x = .ok () ↔
    ∀ k, truthy x.producerAttemptId = some k → ∃ a, c.attempts.get? k = some a ∧
      ∀ q, truthy x.originRequestId = some q → a.requestId = q := by
  unfold checkProducerAttempt
  cases truthy x.producerAttemptId with
  | none => simp only [reduceCtorEq, false_imp_iff, implies_true]
  | some k =>
    simp only [item_bind_eq_ok, Option.some.injEq, forall_eq']
    cases truthy x.originRequestId with
    | none => simp only [reduceCtorEq, false_imp_iff, implies_true, pure, Except.pure]
    | some q => simp only [require_eq_ok, Option.some.injEq, forall_eq']

theorem checkProducerPhase_eq_ok {x : ReusableState} : checkProducerPhase c x = .ok () ↔
    ∀ k, truthy x.producerPhaseId = some k → ∃ p, c.phases.get? k = some p ∧
      some p.attemptId = x.producerAttemptId ∧ p.status = .completed := by
  unfold checkProducerPhase
  cases truthy x.producerPhaseId with
  | none => simp only [reduceCtorEq, false_imp_iff, implies_true]
  | some k =>
    simp only [item_bind_eq_ok, Option.some.injEq, forall_eq', Except.then_eq_ok, require_eq_ok]

theorem checkStateProvenance_eq_ok (hs : ParentsKnown c.continuations) :
    checkStateProvenance c = .ok () ↔ StatesAcyclic c.states ∧ ∀ k x, c.states.get? k = some x →
      Provenance c.continuations c.requests c.attempts c.phases c.states x := by
  have hstate (x : ReusableState) : (do
      require (x.originContinuationId ∈ c.continuations)
      checkDeclaredOrigin c x
      (elements x.derivedFrom).forM (checkProvenanceEdge c x)
      checkProducerAttempt c x
      checkProducerPhase c x) = .ok () ↔
        Provenance c.continuations c.requests c.attempts c.phases c.states x := by
    simp only [Except.then_eq_ok, require_eq_ok, checkDeclaredOrigin_eq_ok, Except.forM_eq_ok,
      mem_elements, checkProducerAttempt_eq_ok, checkProducerPhase_eq_ok]
    constructor
    · rintro ⟨hcont, horigin, hdep, hproducer, hphase⟩
      exact ⟨hcont, horigin, fun d hd => (checkProvenanceEdge_eq_ok hs hcont).mp (hdep d hd),
        hproducer, hphase⟩
    · intro h
      exact ⟨h.continuation, h.origin, fun d hd =>
        (checkProvenanceEdge_eq_ok hs h.continuation).mpr (h.dependency d hd), h.producer,
        h.producerPhase⟩
  have hknown (h : ∀ k x, c.states.get? k = some x →
      Provenance c.continuations c.requests c.attempts c.phases c.states x) :
      DependenciesKnown c.states := by
    intro k x hx d hd
    obtain ⟨y, hy, _⟩ := (h k x hx).dependency d hd
    exact Dict.mem_of_get? hy
  rw [checkStateProvenance, Except.bind_eq_ok]
  simp only [Except.then_eq_ok, require_eq_ok, Except.forM_eq_ok, Dict.forall_values_iff, hstate]
  constructor
  · rintro ⟨cyclic, hcycle, rfl, hall⟩
    obtain ⟨b, hb, hacyclic⟩ := stateCycle_spec (hknown hall)
    rw [hcycle, Except.ok.injEq] at hb
    exact ⟨hacyclic.mp hb.symm, hall⟩
  · rintro ⟨hacyclic, hall⟩
    obtain ⟨b, hb, hiff⟩ := stateCycle_spec (hknown hall)
    exact ⟨b, hb, hiff.mpr hacyclic, hall⟩

end Graphs

section Placement
variable {c : ContinuityCore}

theorem checkReplicaIntegrity_eq_ok :
    checkReplicaIntegrity c = .ok () ↔ ReplicasPlaced c.states c.replicas c.bindings := by
  simp only [checkReplicaIntegrity, Except.forM_eq_ok, Dict.forall_values_iff, Except.then_eq_ok,
    require_eq_ok, ReplicasPlaced]
  refine forall₃_congr fun k r _ => and_congr_right fun _ => ?_
  cases r.bindingId with
  | none => simp only [reduceCtorEq, false_imp_iff, implies_true, pure, Except.pure]
  | some j => simp only [item_bind_eq_ok, require_eq_ok, Option.some.injEq, forall_eq']

theorem checkBindingAuthority_eq_ok (h : Keyed c.bindings) : checkBindingAuthority c = .ok () ↔
    BindingAuthority c.bindings c.currentBindingBySubject c.currentEpochBySubject := by
  simp only [checkBindingAuthority, Except.forM_eq_ok, Dict.forall_values_iff,
    Dict.forall_entries_iff, Except.then_eq_ok, item_bind_eq_ok, require_eq_ok, ↓existsAndEq,
    and_true]
  constructor
  · rintro ⟨hcurrent, hactive⟩
    refine ⟨hcurrent, fun k b hb hs => ?_⟩
    have hcheck := hactive k b hb
    have hid : b.id = k := h k b hb
    rw [if_pos hs, require_eq_ok, hid] at hcheck
    exact hcheck
  · intro hb
    refine ⟨hb.current, fun k b hget => ?_⟩
    split
    · next hs =>
      have hid : b.id = k := h k b hget
      rw [require_eq_ok, hid]
      exact hb.active k b hget hs
    · rfl

theorem get?_bySubject (l : List Binding) (s : String) : (bySubject l).get? s =
    if l.filter (·.subjectId = s) = [] then none else some (l.filter (·.subjectId = s)) := by
  induction l using List.reverseRecOn with
  | nil => rfl
  | append_singleton l b ih =>
    have hsnoc : bySubject (l ++ [b]) =
        (bySubject l).set b.subjectId (((bySubject l).get? b.subjectId).getD [] ++ [b]) := by
      rw [bySubject, List.foldl_append]
      rfl
    rw [hsnoc, Dict.get?_set, List.filter_append, List.filter_cons, List.filter_nil]
    by_cases hs : b.subjectId = s
    · subst hs
      simp only [↓reduceIte, decide_true, List.append_eq_nil_iff, List.cons_ne_nil, and_false, ih]
      split
      · next hnil => simp only [hnil, Option.getD_none]
      · simp only [Option.getD_some]
    · simp only [hs, ↓reduceIte, decide_false, Bool.false_eq_true, List.append_nil, ih]

def epochsOf (bindings : Dict String Binding) : String → List Int :=
  numbersOf Binding.subjectId Binding.epoch bindings

theorem mem_epochsOf {bindings : Dict String Binding} : e ∈ epochsOf bindings s ↔
    ∃ k b, bindings.get? k = some b ∧ b.subjectId = s ∧ b.epoch = e := by
  simp only [epochsOf, numbersOf, List.mem_map, List.mem_filter, Dict.mem_values_iff,
    decide_eq_true_eq]
  constructor
  · rintro ⟨b, ⟨⟨k, hb⟩, hs⟩, he⟩
    exact ⟨k, b, hb, hs, he⟩
  · rintro ⟨k, b, hb, hs, he⟩
    exact ⟨b, ⟨⟨k, hb⟩, hs⟩, he⟩

theorem epochsOf_nodup {bindings : Dict String Binding} : (epochsOf bindings s).Nodup ↔
    ∀ k b k' b', bindings.get? k = some b → bindings.get? k' = some b' → b.subjectId = s →
      b'.subjectId = s → b.epoch = b'.epoch → k = k' := by
  have hentries : epochsOf bindings s =
      (bindings.entries.filter (·.2.subjectId = s)).map fun p => p.2.epoch := by
    rw [epochsOf, numbersOf, Dict.values, List.filter_map, List.map_map]
    rfl
  have hnodup : (bindings.entries.filter (·.2.subjectId = s)).Nodup :=
    (List.Nodup.of_map _ bindings.nodup).filter _
  rw [hentries, List.nodup_map_iff_inj_on hnodup]
  simp only [List.mem_filter, decide_eq_true_eq, Prod.forall, ← Dict.get?_eq_some_iff, and_imp,
    Prod.mk.injEq]
  constructor
  · intro h k b k' b' hb hb' hs hs' he
    exact (h k b hb hs k' b' hb' hs' he).1
  · intro h k b hb hs k' b' hb' hs' he
    have hk := h k b k' b' hb hb' hs hs' he
    subst hk
    exact ⟨rfl, Option.some.inj (hb.symm.trans hb')⟩

theorem length_eq_card_iff {l : List α} [DecidableEq α] :
    l.length = l.toFinset.card ↔ l.Nodup := by
  rw [eq_comm, ← Multiset.coe_nodup, ← Multiset.toFinset_card_eq_card_iff_nodup]
  rfl

theorem eq_maxDefault_iff {l : List Int} (hne : l ≠ []) :
    n = maxDefault d l ↔ n ∈ l ∧ ∀ m ∈ l, m ≤ n := by
  constructor
  · rintro rfl
    exact ⟨maxDefault_mem hne, fun m hm => le_maxDefault hm⟩
  · rintro ⟨hmem, hle⟩
    exact le_antisymm (le_maxDefault hmem) (hle _ (maxDefault_mem hne))

theorem checkEpochs_eq_ok {epochs : List Int} (hne : epochs ≠ []) :
    checkEpochs c s epochs = .ok () ↔
      epochs.Nodup ∧ (∃ l, c.lastAllocatedEpochBySubject.get? s = some l ∧ l ∈ epochs ∧
        ∀ e ∈ epochs, e ≤ l) ∧ ∀ e, c.currentEpochBySubject.get? s = some e → e ∈ epochs := by
  simp only [checkEpochs, Except.then_eq_ok, require_eq_ok, item_bind_eq_ok, length_eq_card_iff,
    eq_maxDefault_iff hne]
  refine and_congr_right fun _ => ?_
  cases c.currentEpochBySubject.get? s with
  | none => simp only [pure, Except.pure, and_true, reduceCtorEq, false_imp_iff, implies_true]
  | some e => simp only [require_eq_ok, Option.some.injEq, forall_eq', ← and_assoc,
      exists_and_right]

theorem checkBindingGenerations_eq_ok : checkBindingGenerations c = .ok () ↔
    BindingGenerations c.bindings c.currentEpochBySubject c.lastAllocatedEpochBySubject := by
  have hgroup (s : String) (bs : List Binding)
      (h : (bySubject c.bindings.values).get? s = some bs) :
      bs.map (·.epoch) = epochsOf c.bindings s ∧ epochsOf c.bindings s ≠ [] := by
    rw [get?_bySubject] at h
    split at h
    · cases h
    · next hne =>
      cases h
      exact ⟨rfl, fun hnil => hne (List.map_eq_nil_iff.mp hnil)⟩
  have hstored (s : String) (k : String) (b : Binding) (hb : c.bindings.get? k = some b)
      (hs : b.subjectId = s) : ∃ bs, (bySubject c.bindings.values).get? s = some bs := by
    rw [get?_bySubject, if_neg]
    · exact ⟨_, rfl⟩
    · intro hnil
      have hmem : b ∈ c.bindings.values.filter (·.subjectId = s) :=
        List.mem_filter.mpr ⟨Dict.mem_values_iff.mpr ⟨k, hb⟩, decide_eq_true hs⟩
      rw [hnil] at hmem
      cases hmem
  simp only [checkBindingGenerations, Except.then_eq_ok, Except.forM_eq_ok, require_eq_ok,
    Dict.forall_values_iff, Dict.forall_entries_iff]
  constructor
  · rintro ⟨habove, hgroups⟩
    have hsubject {k b} (hb : c.bindings.get? k = some b) :=
      (hstored b.subjectId k b hb rfl).elim fun bs hbs => by
        obtain ⟨hepochs, hne⟩ := hgroup _ bs hbs
        have hcheck := hgroups _ bs hbs
        rw [hepochs] at hcheck
        exact (checkEpochs_eq_ok hne).mp hcheck
    refine ⟨habove, fun k b k' b' hb hb' hs he => ?_, fun k b hb => ?_, fun k b e hb he => ?_⟩
    · exact epochsOf_nodup.mp (hsubject hb).1 k b k' b' hb hb' rfl hs.symm he
    · obtain ⟨l, hl, hmem, hle⟩ := (hsubject hb).2.1
      exact ⟨l, hl, hle _ (mem_epochsOf.mpr ⟨k, b, hb, rfl, rfl⟩), mem_epochsOf.mp hmem⟩
    · exact mem_epochsOf.mp ((hsubject hb).2.2 e he)
  · intro h
    refine ⟨h.above, fun s bs hbs => ?_⟩
    obtain ⟨hepochs, hne⟩ := hgroup s bs hbs
    rw [hepochs]
    refine (checkEpochs_eq_ok hne).mpr ⟨?_, ?_, fun e he => ?_⟩
    · exact epochsOf_nodup.mpr fun k b k' b' hb hb' hs hs' he =>
        h.distinct k b k' b' hb hb' (hs.trans hs'.symm) he
    · obtain ⟨e, he⟩ := List.exists_mem_of_ne_nil _ hne
      obtain ⟨k, b, hb, rfl, rfl⟩ := mem_epochsOf.mp he
      obtain ⟨l, hl, _, htop⟩ := h.last k b hb
      refine ⟨l, hl, mem_epochsOf.mpr htop, fun e he => ?_⟩
      obtain ⟨k', b', hb', hs, rfl⟩ := mem_epochsOf.mp he
      obtain ⟨l', hl', hle, _⟩ := h.last k' b' hb'
      rw [hs, hl, Option.some.injEq] at hl'
      exact hl' ▸ hle
    · obtain ⟨e', he'⟩ := List.exists_mem_of_ne_nil _ hne
      obtain ⟨k, b, hb, rfl, rfl⟩ := mem_epochsOf.mp he'
      exact mem_epochsOf.mpr (h.current k b e hb he)

end Placement

section Records
variable {c : ContinuityCore}

theorem checkStoredSupports_eq_ok {e : Evidence} : checkStoredSupports c e = .ok () ↔
    (∀ d ∈ e.derivedFrom, ∃ s, c.evidence.get? d = some s ∧
      (e.status = .valid → s.status = .valid)) ∧
    ∀ p ∈ e.scope, ∃ d ∈ e.derivedFrom, ∃ s, c.evidence.get? d = some s ∧ p ∈ s.scope := by
  have htail (supports : List Evidence) : ((do
      require (∀ s ∈ e.scope, ∃ support ∈ supports, s ∈ support.scope)
      if e.status = .valid then require (∀ support ∈ supports, support.status = .valid)) :
        Except PyError Unit) = .ok () ↔
      (∀ s ∈ e.scope, ∃ support ∈ supports, s ∈ support.scope) ∧
      (e.status = .valid → ∀ support ∈ supports, support.status = .valid) := by
    rw [Except.then_eq_ok, require_eq_ok]
    refine and_congr_right fun _ => ?_
    split
    · next hs => rw [require_eq_ok, imp_iff_right hs]
    · next hs => exact iff_of_true rfl fun hv => (hs hv).elim
  rw [checkStoredSupports, Except.bind_eq_ok]
  simp only [htail]
  constructor
  · rintro ⟨supports, hfound, hscope, hvalid⟩
    constructor
    · intro d hd
      obtain ⟨s, hs, hds⟩ := Except.mapM_result hfound (mem_elements.mpr hd)
      exact ⟨s, item_eq_ok.mp hds, fun hv => hvalid hv s hs⟩
    · intro p hp
      obtain ⟨s, hs, hps⟩ := hscope p hp
      obtain ⟨d, hd, hds⟩ := Except.mapM_source hfound hs
      exact ⟨d, mem_elements.mp hd, s, item_eq_ok.mp hds, hps⟩
  · rintro ⟨hsupport, hscope⟩
    obtain ⟨supports, hfound⟩ := Except.mapM_total (f := item c.evidence) (l := elements e.derivedFrom)
      fun d hd => by
        obtain ⟨s, hs, _⟩ := hsupport d (mem_elements.mp hd)
        exact ⟨s, item_of_get? hs⟩
    refine ⟨supports, hfound, fun p hp => ?_, fun hv s hs => ?_⟩
    · obtain ⟨d, hd, s, hs, hps⟩ := hscope p hp
      obtain ⟨s', hs', hds⟩ := Except.mapM_result hfound (mem_elements.mpr hd)
      rw [item_eq_ok, hs, Option.some.injEq] at hds
      exact ⟨s', hs', hds ▸ hps⟩
    · obtain ⟨d, hd, hds⟩ := Except.mapM_source hfound hs
      obtain ⟨s', hs', hvalid⟩ := hsupport d (mem_elements.mp hd)
      rw [item_eq_ok, hs', Option.some.injEq] at hds
      exact hds ▸ hvalid hv

theorem checkEvidenceDerivation_eq_ok : checkEvidenceDerivation c = .ok () ↔
    ∀ k e, c.evidence.get? k = some e → Derivation c.evidence e := by
  simp only [checkEvidenceDerivation, Except.forM_eq_ok, Dict.forall_values_iff]
  refine forall₃_congr fun k e _ => ?_
  have hauthority : checkRecordedDerivation e = .ok () ↔
      (e.authority = .derived → e.derivedFrom ≠ ∅ ∧ truthy e.derivationRule ≠ none) ∧
      (e.authority ≠ .derived → e.derivedFrom = ∅ ∧ truthy e.derivationRule = none) := by
    unfold checkRecordedDerivation
    split
    · next hd => simp only [Except.then_eq_ok, require_eq_ok, hd, forall_const, ne_eq,
        not_true_eq_false, false_imp_iff, and_true]
    · next hd => simp only [require_eq_ok, not_or, Decidable.not_not, hd, false_imp_iff, ne_eq,
        not_false_eq_true, forall_const, true_and]
  have hsupports : (if e.derivedFrom ≠ ∅ then checkStoredSupports c e else pure ⟨⟩) = .ok () ↔
      (∀ d ∈ e.derivedFrom, ∃ s, c.evidence.get? d = some s ∧
        (e.status = .valid → s.status = .valid)) ∧ (e.derivedFrom ≠ ∅ →
      ∀ p ∈ e.scope, ∃ d ∈ e.derivedFrom, ∃ s, c.evidence.get? d = some s ∧ p ∈ s.scope) := by
    split
    · next hne => rw [checkStoredSupports_eq_ok, imp_iff_right hne]
    · next hnil =>
      rw [Decidable.not_not] at hnil
      refine iff_of_true rfl ⟨fun d hd => ?_, fun hne => (hne hnil).elim⟩
      rw [hnil] at hd
      exact (Finset.notMem_empty d hd).elim
  rw [Except.then_eq_ok, hauthority, hsupports]
  exact ⟨fun ⟨⟨hd, hn⟩, hs, hp⟩ => ⟨hd, hn, hs, hp⟩,
    fun h => ⟨⟨h.derived, h.direct⟩, h.support, h.scope⟩⟩

theorem checkEventIdentity_eq_ok (h : Keyed c.events) :
    checkEventIdentity c = .ok () ↔ EventsOrdered c.events c.eventOrder := by
  simp only [checkEventIdentity, Except.then_eq_ok, require_eq_ok, length_eq_card_iff,
    Except.forM_eq_ok, item_bind_eq_ok]
  have hmem : c.eventOrder.toFinset = c.events.keys.toFinset ↔
      ∀ k, k ∈ c.eventOrder ↔ k ∈ c.events := by
    simp only [Finset.ext_iff, List.mem_toFinset]
    rfl
  rw [hmem]
  constructor
  · rintro ⟨hnodup, hmem, _⟩
    exact ⟨hnodup, hmem⟩
  · rintro ⟨hnodup, hmem⟩
    refine ⟨hnodup, hmem, fun k hk => ?_⟩
    obtain ⟨event, hevent⟩ := Dict.mem_iff.mp ((hmem k).mp hk)
    exact ⟨event, hevent, h k event hevent⟩

theorem checkOutputIntegrity_eq_ok :
    checkOutputIntegrity c = .ok () ↔ OutputsGrounded c.attempts c.evidence c.outputs := by
  simp only [checkOutputIntegrity, Except.forM_eq_ok, Dict.forall_values_iff, Except.then_eq_ok,
    require_eq_ok, mem_elements, OutputsGrounded]

theorem stateCompatible_invalid (semanticValidity : SemanticValidity)
    (hx : c.states.get? k = some x) (hi : x.validity = .invalid) (ctx : ExecutionContext) :
    stateCompatible semanticValidity c k ctx = .ok false := by
  unfold stateCompatible
  split
  · simp only [stateCompatibleRecursive, hx, hi, ne_eq, reduceCtorEq, not_false_eq_true,
      ↓reduceIte]
  · rfl

theorem checkStateValidity_eq_ok (semanticValidity : SemanticValidity) (h : Grounded c) :
    checkStateValidity semanticValidity c = .ok () := by
  simp only [checkStateValidity, Except.forM_eq_ok, Dict.forall_values_iff]
  intro k x hx
  split
  · next hi =>
    simp only [Except.forM_eq_ok, Dict.forall_values_iff]
    intro j r hr
    cases truthy r.currentAttemptId with
    | none => rfl
    | some attemptId =>
      obtain ⟨ct, hct⟩ := Dict.mem_iff.mp (h.scopes.request j r hr)
      obtain ⟨s, hs⟩ := Dict.mem_iff.mp (h.scopes.continuation _ ct hct)
      have hid : x.id = k := h.keys.states k x hx
      have hincompatible := stateCompatible_invalid semanticValidity hx hi
      simp only [requestContext, item_of_get? hct, item_of_get? hs, bind, Except.bind, pure,
        Except.pure, hid, hincompatible, require_eq_ok]
  · rfl

end Records

/-- The invariant oracle accepts exactly the cores that satisfy its declarative reading, under
every callback. -/
theorem assertAll_eq_ok (semanticValidity : SemanticValidity) (c : ContinuityCore) :
    assertAll semanticValidity c = .ok () ↔ OracleHolds c := by
  simp only [assertAll, Except.then_eq_ok, globalIdentityUniqueness_eq_ok, checkParentScopes_eq_ok,
    checkAttemptGenerations_eq_ok, checkRequestCommitConsistency_eq_ok, checkPhaseOrdering_eq_ok,
    checkReplicaIntegrity_eq_ok, checkBindingGenerations_eq_ok, checkEvidenceDerivation_eq_ok,
    checkOutputIntegrity_eq_ok]
  constructor
  · rintro ⟨⟨keys, identity⟩, scopes, authority, generations, commits, dag, ordinals, provenance,
      replicas, bindings, epochs, evidence, events, outputs, _⟩
    rw [checkStateProvenance_eq_ok scopes.parentsKnown] at provenance
    exact {
      keys, identity, scopes, generations, commits, ordinals, replicas, epochs, evidence, outputs
      authority := (checkAttemptAuthority_eq_ok keys.attempts).mp authority
      dag := (checkContinuationDags_eq_ok scopes).mp dag
      acyclic := provenance.1
      provenance := provenance.2
      bindings := (checkBindingAuthority_eq_ok keys.bindings).mp bindings
      events := (checkEventIdentity_eq_ok keys.events).mp events }
  · intro h
    exact ⟨⟨h.keys, h.identity⟩, h.scopes, (checkAttemptAuthority_eq_ok h.keys.attempts).mpr
      h.authority, h.generations, h.commits, (checkContinuationDags_eq_ok h.scopes).mpr h.dag,
      h.ordinals, (checkStateProvenance_eq_ok h.scopes.parentsKnown).mpr ⟨h.acyclic, h.provenance⟩,
      h.replicas, (checkBindingAuthority_eq_ok h.keys.bindings).mpr h.bindings, h.epochs,
      h.evidence, (checkEventIdentity_eq_ok h.keys.events).mpr h.events, h.outputs,
      checkStateValidity_eq_ok semanticValidity h.grounded⟩

end Cadi
