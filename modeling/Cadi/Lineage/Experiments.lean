import Cadi.Lineage.Recursion

namespace Cadi
open Library Relation
set_option autoImplicit true

section Oracles
variable (c : ContinuityCore)

/-- `_ancestors` of one experiment and `_independent_ancestors` of the other; an unknown node on
the way empties the result. -/
def independentAncestors (continuationId : String) : Except PyError (List String) :=
  match c.continuations.get? continuationId with
  | none => .ok []
  | some ct =>
    let todo := elements ct.parentIds
    match Graph.worklist c.parents .exhausted (fun _ => false) (c.searchFuel todo.length)
      [continuationId] todo.reverse with
    | .ok (_, result) => .ok result
    | .error (.keyError _) => .ok []
    | .error e => .error e

/-- The links both experiments check, and then the Phase of the context. -/
def independentLinks (ctx : ExecutionContext) (phase : Attempt → Bool) : Bool :=
  match c.programs.get? ctx.programId, c.sessions.get? ctx.sessionId,
    c.continuations.get? ctx.continuationId, c.requests.get? ctx.requestId,
    c.attempts.get? ctx.attemptId with
  | some program, some session, some continuation, some request, some attempt =>
    session.programId = program.id && continuation.sessionId = session.id &&
    request.continuationId = continuation.id && attempt.requestId = request.id &&
    request.currentAttemptId = some attempt.id && attempt.authorityStatus = .current &&
    phase attempt
  | _, _, _, _, _ => false

/-- The producer checks of both experiments. They look for `None`, not for a truth value. -/
def independentProducer (state : ReusableState) (ctx : ExecutionContext) : Bool :=
  match state.producerAttemptId with
  | none => true
  | some producer =>
    match c.attempts.get? producer with
    | none => false
    | some producerAttempt =>
      let own : Bool := producerAttempt.id = ctx.attemptId && producerAttempt.authorityStatus = .current
      if producerAttempt.authorityStatus = .superseded then false
      else match state.originRequestId with
        | none => own
        | some origin =>
          match c.requests.get? origin with
          | none => false
          | some producerRequest =>
            if producerRequest.status = .completed then
              producerRequest.committedAttemptId = some producerAttempt.id
            else own

/-- The Phase checks of the adversarial experiment. -/
def independentPhase (state : ReusableState) (ctx : ExecutionContext) : Bool :=
  match state.producerPhaseId with
  | none => true
  | some producer =>
    match c.phases.get? producer with
    | none => false
    | some producerPhase =>
      if producerPhase.status ≠ .completed then false
      else if state.producerAttemptId = some ctx.attemptId then
        match ctx.phaseId with
        | none => false
        | some consumer =>
          match c.phases.get? consumer with
          | none => false
          | some consumerPhase =>
            consumerPhase.attemptId = ctx.attemptId && producerPhase.ordinal < consumerPhase.ordinal
      else true

/-- The recursion of `_independent_compatible`, which checks the context at every State. -/
def independentCompatibleRecursive (ctx : ExecutionContext) :
    Nat → String → List String → Except PyError Bool
  | 0, _, _ => .error .exhausted
  | fuel + 1, stateId, visiting =>
    if !independentLinks c ctx (phaseConsistent c · ctx.phaseId) then .ok false
    else match c.states.get? stateId with
    | none => .ok false
    | some state =>
      if state.validity ≠ .valid then .ok false
      else if stateId ∈ visiting then .ok false
      else match c.continuations.get? state.originContinuationId,
        c.continuations.get? ctx.continuationId with
      | some origin, some consumer =>
        if origin.sessionId ≠ consumer.sessionId then .ok false
        else do
          let ancestors ← independentAncestors c ctx.continuationId
          if state.originContinuationId ∉ ancestors then return false
          if !independentProducer c state ctx then return false
          if !independentPhase c state ctx then return false
          allHold
            (fun dependencyId =>
              independentCompatibleRecursive ctx fuel dependencyId (stateId :: visiting))
            (elements state.derivedFrom)
      | _, _ => .ok false

def independentCompatible (stateId : String) (ctx : ExecutionContext) : Except PyError Bool :=
  independentCompatibleRecursive c ctx (c.states.keys.length + 1) stateId []

/-- The other experiment's oracle, for States without producer Phase and dependencies only. -/
def independentLineageCompatible (stateId : String) (ctx : ExecutionContext) :
    Except PyError Bool :=
  if !independentLinks c ctx (fun _ => ctx.phaseId.isNone) then .ok false
  else match c.states.get? stateId, c.continuations.get? ctx.continuationId,
    c.sessions.get? ctx.sessionId with
  | some state, some consumer, some session =>
    if state.validity ≠ .valid then .ok false
    else match c.continuations.get? state.originContinuationId with
    | none => .ok false
    | some origin =>
      if origin.sessionId ≠ consumer.sessionId ∨ consumer.sessionId ≠ session.id then .ok false
      else do
        let ancestors ← independentAncestors c ctx.continuationId
        if state.originContinuationId ∉ ancestors then return false
        if !independentProducer c state ctx then return false
        raiseIf (state.producerPhaseId ≠ none)
          (.assertionError "C4.3a independent oracle excludes Phase-origin State")
        raiseIf (state.derivedFrom ≠ ∅)
          (.assertionError "C4.3a independent oracle excludes derived State")
        return true
  | _, _, _ => .ok false

end Oracles

section Checks
variable {c : ContinuityCore} {ctx : ExecutionContext} {x : ReusableState}

theorem independentAncestors_spec (h : Sound c) (hd : d ∈ c.continuations) :
    ∃ result, independentAncestors c d = .ok result ∧
      ∀ a, a ∈ result ↔ AncestorOrSelf c.continuations a d := by
  obtain ⟨ct, hct⟩ := Dict.mem_iff.mp hd
  obtain ⟨seen, hr, hseen⟩ := Graph.worklist_closure PyError.exhausted
    (parents_closed h.oracle.scopes.parentsKnown) hd (Nat.le_refl _)
  have hparents : parentsIn c.continuations d = elements ct.parentIds := by
    simp only [parentsIn, hct]
  rw [hparents] at hr
  refine ⟨seen, ?_, hseen⟩
  simp only [independentAncestors, hct, ContinuityCore.searchFuel, hr]

theorem AncestorOrSelf.session (h : Sound c) (hp : AncestorOrSelf c.continuations a d)
    (hd : c.continuations.get? d = some ct) (ha : c.continuations.get? a = some act) :
    act.sessionId = ct.sessionId := by
  unfold AncestorOrSelf at hp
  induction hp generalizing act with
  | refl => rw [Option.some.inj (ha.symm.trans hd)]
  | @tail b e hb he ih =>
    obtain ⟨bct, hbct, hm⟩ := mem_parentsIn.mp he
    obtain ⟨pct, hpct, hs⟩ := h.oracle.scopes.parent b bct hbct e hm
    rw [Option.some.inj (ha.symm.trans hpct), hs, ih hbct]

theorem independentLinks_eq_contextConsistent :
    independentLinks c ctx (phaseConsistent c · ctx.phaseId) = contextConsistent c ctx := rfl

theorem independentLinks_iff (h : KeysMatch c) :
    independentLinks c ctx (phaseConsistent c · ctx.phaseId) = true ↔ ContextLinked c ctx := by
  rw [independentLinks_eq_contextConsistent, contextConsistent_iff h]

theorem independentLinks_noPhase (h : KeysMatch c) (hphase : ctx.phaseId = none) :
    independentLinks c ctx (fun _ => ctx.phaseId.isNone) = true ↔ ContextLinked c ctx := by
  rw [← independentLinks_iff h]
  simp only [hphase, phaseConsistent, Option.isNone_none]

theorem independentProducer_iff (h : Sound c) (hx : c.states.get? s = some x) :
    independentProducer c x ctx = true ↔
      ∀ k, x.producerAttemptId = some k → Authoritative c ctx k := by
  unfold independentProducer
  cases hk : x.producerAttemptId with
  | none => exact ⟨fun _ _ hn => (by cases hn), fun _ => rfl⟩
  | some k =>
    obtain ⟨a, r, hp⟩ := h.producer hx hk
    simp only [Option.some.injEq, forall_eq', hp.authoritative_iff h.oracle, hp.attempt, hp.origin,
      hp.request]
    by_cases hlost : a.authorityStatus = .superseded
    · simp only [hlost, ↓reduceIte, Bool.false_eq_true, ne_eq, not_true_eq_false, false_and]
    · simp only [hlost, ↓reduceIte, ne_eq, not_false_eq_true, true_and]
      split
      · exact decide_eq_true_iff
      · simp only [Bool.and_eq_true, decide_eq_true_eq]

theorem independentPhase_iff (h : Sound c) (hl : ContextLinked c ctx)
    (hx : c.states.get? s = some x) :
    independentPhase c x ctx = true ↔ ∀ k, x.producerPhaseId = some k → Earlier c ctx k := by
  unfold independentPhase
  cases hk : x.producerPhaseId with
  | none => exact ⟨fun _ _ hn => (by cases hn), fun _ => rfl⟩
  | some k =>
    obtain ⟨hne, p, hp, hattempt, hdone⟩ := h.producerPhase hx hk
    simp only [Option.some.injEq, forall_eq', Earlier, hp, hdone, ne_eq, not_true_eq_false,
      ↓reduceIte]
    by_cases hown : x.producerAttemptId = some ctx.attemptId
    · have hsame : p.attemptId = ctx.attemptId := Option.some.inj (hattempt.trans hown)
      simp only [hown, ↓reduceIte, hsame, true_implies]
      cases hj : ctx.phaseId with
      | none => simp only [Bool.false_eq_true, reduceCtorEq, false_and, exists_false]
      | some j =>
        obtain ⟨q, hq, hattempt, _⟩ := hl.phase j hj
        simp only [Option.some.injEq, exists_and_left, exists_eq_left', hq, hattempt, decide_true,
          Bool.true_and, decide_eq_true_eq]
    · have hother : p.attemptId ≠ ctx.attemptId := fun he =>
        hown (hattempt.symm.trans (congrArg some he))
      simp only [hown, ↓reduceIte, hother, false_implies]

end Checks

section Agreement
variable {c : ContinuityCore} {ctx : ExecutionContext}

/-- The checks of one State that both oracles share, in their order. -/
theorem lineage_decides (h : Sound c) (hl : ContextLinked c ctx) (hx : c.states.get? s = some x)
    {y : Except PyError Bool} (hy : Decides y Q) :
    Decides (do
        let ancestors ← independentAncestors c ctx.continuationId
        if x.originContinuationId ∉ ancestors then return false
        if !independentProducer c x ctx then return false
        y)
      (AncestorOrSelf c.continuations x.originContinuationId ctx.continuationId ∧
        (∀ k, x.producerAttemptId = some k → Authoritative c ctx k) ∧ Q) := by
  obtain ⟨ct, hct, _⟩ := hl.continuation
  obtain ⟨result, hr, hmem⟩ := independentAncestors_spec h (Dict.mem_of_get? hct)
  simp only [hr, bind, Except.bind]
  by_cases hanc : x.originContinuationId ∈ result
  · rw [if_neg (not_not_intro hanc)]
    exact (Decides.guard (.of_iff (independentProducer_iff h hx)) fun _ => hy).congr
      ⟨fun hq => ⟨(hmem _).mp hanc, hq⟩, fun hq => hq.2⟩
  · rw [if_pos hanc]
    exact .of_not fun hq => hanc ((hmem _).mpr hq.1)

theorem independent_step (h : Sound c) (hl : ContextLinked c ctx) {Q : String → Prop}
    (hfresh : k ∉ visiting)
    (hrec : ∀ d ∈ dependenciesIn c.states k, Decides
      (independentCompatibleRecursive c ctx fuel d (k :: visiting)) (Q d)) :
    Decides (independentCompatibleRecursive c ctx (fuel + 1) k visiting)
      (UsableAt c (fun _ _ => true) ctx k ∧ ∀ d ∈ dependenciesIn c.states k, Q d) := by
  have hlinks : (!independentLinks c ctx (phaseConsistent c · ctx.phaseId)) = false := by
    rw [(independentLinks_iff h.oracle.keys).mpr hl, Bool.not_true]
  simp only [independentCompatibleRecursive, hlinks, Bool.false_eq_true, ↓reduceIte]
  cases hx : c.states.get? k with
  | none => exact .of_not fun ⟨⟨x, hget, _⟩, _⟩ => (by rw [hx] at hget; cases hget)
  | some x =>
    by_cases hvalid : x.validity = .valid
    · obtain ⟨ct, hct, _⟩ := hl.continuation
      obtain ⟨origin, horigin⟩ := Dict.mem_iff.mp (h.oracle.provenance k x hx).continuation
      rw [dependenciesIn_of_get? hx] at hrec ⊢
      simp only [hvalid, ne_eq, not_true_eq_false, ↓reduceIte, hfresh, horigin, hct]
      by_cases hsession : origin.sessionId = ct.sessionId
      · simp only [hsession, not_true_eq_false, ↓reduceIte]
        refine (lineage_decides h hl hx (Decides.guard (.of_iff (independentPhase_iff h hl hx))
          fun _ => allHold_decides hrec)).congr ?_
        rw [usableAt_iff hx, usable_iff hvalid]
        tauto
      · simp only [hsession, not_false_eq_true, ↓reduceIte]
        refine .of_not fun ⟨hu, _⟩ => hsession ?_
        exact ((usableAt_iff hx).mp hu).origin.session h hct horigin
    · simp only [hvalid, ne_eq, not_false_eq_true, ↓reduceIte]
      exact .of_not fun ⟨hu, _⟩ => hvalid ((usableAt_iff hx).mp hu).valid

theorem independentCompatible_decides (h : Sound c) (stateId : String) (ctx : ExecutionContext) :
    Decides (independentCompatible c stateId ctx)
      (Compatible c (fun _ _ => true) stateId ctx) := by
  unfold independentCompatible
  by_cases hl : ContextLinked c ctx
  · refine (Graph.recursion_decides (P := UsableAt c (fun _ _ => true) ctx)
      (independentCompatibleRecursive c ctx) (fun k hk => dependenciesIn_unknown hk)
      (fun fuel k visiting hfresh hrec => independent_step h hl hfresh hrec)
      (statesAcyclic_acc h.oracle.acyclic stateId) List.nodup_nil
      (fun v hv => (List.not_mem_nil hv).elim)
      (by simp only [List.length_nil, Nat.add_zero, Nat.lt_add_one])).congr ?_
    exact ⟨fun hall => ⟨hl, hall⟩, fun hc => hc.closure⟩
  · have hlinks : (!independentLinks c ctx (phaseConsistent c · ctx.phaseId)) = true := by
      rw [Bool.not_eq_true']
      exact Bool.eq_false_iff.mpr fun hc => hl ((independentLinks_iff h.oracle.keys).mp hc)
    simp only [independentCompatibleRecursive, hlinks, ↓reduceIte]
    exact .of_not fun hc => hl hc.context

/-- The other oracle raises on no State it is asked about without Phase and dependencies. -/
theorem independentLineageCompatible_decides (h : Sound c) (hphase : ctx.phaseId = none)
    (hplain : ∀ x, c.states.get? stateId = some x → x.producerPhaseId = none ∧ x.derivedFrom = ∅) :
    Decides (independentLineageCompatible c stateId ctx)
      (Compatible c (fun _ _ => true) stateId ctx) := by
  unfold independentLineageCompatible
  by_cases hl : ContextLinked c ctx
  · have hlinks : (!independentLinks c ctx (fun _ => ctx.phaseId.isNone)) = false := by
      rw [(independentLinks_noPhase h.oracle.keys hphase).mpr hl, Bool.not_true]
    obtain ⟨ct, hct, hsid⟩ := hl.continuation
    obtain ⟨s, hs, _⟩ := hl.session
    have hid : s.id = ctx.sessionId := h.oracle.keys.sessions _ s hs
    simp only [hlinks, Bool.false_eq_true, ↓reduceIte, hct, hs]
    cases hx : c.states.get? stateId with
    | none =>
      refine .of_not fun hc => ?_
      obtain ⟨x, hget, _⟩ := hc.closure stateId .refl
      rw [hx] at hget
      cases hget
    | some x =>
      have hiff : Compatible c (fun _ _ => true) stateId ctx ↔
          Usable c (fun _ _ => true) ctx x := by
        rw [← usableAt_iff hx]
        refine ⟨fun hc => hc.closure stateId .refl, fun hu => ⟨hl, fun t ht => ?_⟩⟩
        rcases ReflTransGen.cases_head ht with rfl | ⟨d, hd, _⟩
        · exact hu
        · rw [Graph.Edge, dependenciesIn_of_get? hx, (hplain x hx).2] at hd
          exact (List.not_mem_nil hd).elim
      refine Decides.congr ?_ hiff.symm
      obtain ⟨origin, horigin⟩ := Dict.mem_iff.mp (h.oracle.provenance _ x hx).continuation
      by_cases hvalid : x.validity = .valid
      · simp only [hvalid, ne_eq, not_true_eq_false, ↓reduceIte, horigin]
        by_cases hsession : origin.sessionId = ct.sessionId
        · simp only [hsession, hid, hsid, not_true_eq_false, or_self, ↓reduceIte,
            (hplain x hx).1, (hplain x hx).2]
          refine (lineage_decides h hl hx (Decides.of_iff (P := True) ⟨fun _ => True.intro,
            fun _ => rfl⟩)).congr ?_
          rw [usable_iff hvalid, (hplain x hx).1]
          simp only [reduceCtorEq, false_implies, implies_true, and_true]
        · simp only [hsession, not_false_eq_true, true_or, ↓reduceIte]
          exact .of_not fun hu => hsession (hu.origin.session h hct horigin)
      · simp only [hvalid, ne_eq, not_false_eq_true, ↓reduceIte]
        exact .of_not fun hu => hvalid hu.valid
  · have hlinks : (!independentLinks c ctx (fun _ => ctx.phaseId.isNone)) = true := by
      rw [Bool.not_eq_true']
      exact Bool.eq_false_iff.mpr fun hc => hl ((independentLinks_noPhase h.oracle.keys hphase).mp hc)
    simp only [hlinks, ↓reduceIte]
    exact .of_not fun hc => hl hc.context

end Agreement

/-- On every core of a run without empty identifiers the independent oracles of the experiments
return what the core returns. -/
theorem independentCompatible_agrees (calls : List Call)
    (h : ∀ call ∈ calls, call.operation.newId ≠ some "") (stateId : String)
    (ctx : ExecutionContext) :
    ∃ compatible, stateCompatible defaultValidity (run (step defaultValidity) {} calls) stateId ctx =
        .ok compatible ∧
      independentCompatible (run (step defaultValidity) {} calls) stateId ctx = .ok compatible ∧
      (ctx.phaseId = none →
        (∀ x, (run (step defaultValidity) {} calls).states.get? stateId = some x →
          x.producerPhaseId = none ∧ x.derivedFrom = ∅) →
        independentLineageCompatible (run (step defaultValidity) {} calls) stateId ctx =
          .ok compatible) := by
  have hc : Sound (run (step defaultValidity) {} calls) := Sound.empty.run h
  obtain ⟨compatible, hok, hiff⟩ : Decides (stateCompatible defaultValidity _ stateId ctx)
      (Compatible _ (fun _ _ => true) stateId ctx) := stateCompatible_decides hc stateId ctx
  have hcore : Decides (.ok compatible : Except PyError Bool) _ := .of_iff hiff
  refine ⟨compatible, hok, (independentCompatible_decides hc stateId ctx).unique hcore,
    fun hphase hplain => ?_⟩
  exact (independentLineageCompatible_decides hc hphase hplain).unique hcore

theorem independentCompatible_agrees_retried :
    ∃ compatible, stateCompatible defaultValidity (run (step defaultValidity) {} retriedRun) "x"
        ⟨"p", "s", "c", "r", "b", none⟩ = .ok compatible ∧
      independentCompatible (run (step defaultValidity) {} retriedRun) "x"
        ⟨"p", "s", "c", "r", "b", none⟩ = .ok compatible ∧
      independentLineageCompatible (run (step defaultValidity) {} retriedRun) "x"
        ⟨"p", "s", "c", "r", "b", none⟩ = .ok compatible := by
  obtain ⟨compatible, hcore, hindependent, hlineage⟩ :=
    independentCompatible_agrees retriedRun (by decide) "x" ⟨"p", "s", "c", "r", "b", none⟩
  refine ⟨compatible, hcore, hindependent, hlineage rfl fun x hx => ?_⟩
  have hplain : ((run (step defaultValidity) {} retriedRun).states.get? "x").all
      (fun x => x.producerPhaseId = none ∧ x.derivedFrom = ∅) = true := by decide +kernel
  rw [hx] at hplain
  exact of_decide_eq_true hplain

end Cadi
