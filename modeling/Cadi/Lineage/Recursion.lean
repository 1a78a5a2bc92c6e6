import Cadi.Lineage.Compatible

namespace Cadi
open Library Relation
set_option autoImplicit true

section Checks
variable {c : ContinuityCore} {ctx : ExecutionContext} {x : ReusableState}

theorem truthy_some (h : k ≠ "") : truthy (some k) = some k := truthy_eq_some.mpr ⟨rfl, h⟩

theorem ancestry_decides (h : Sound c) (hd : d ∈ c.continuations) (a : String) :
    Decides (c.isAncestor a d) (AncestorOrSelf c.continuations a d) :=
  isAncestor_spec h.oracle.scopes.parentsKnown hd

theorem producerAuthoritative_decides (h : Sound c) (hx : c.states.get? s = some x) :
    Decides (producerAuthoritative c x ctx)
      (∀ k, x.producerAttemptId = some k → Authoritative c ctx k) := by
  unfold producerAuthoritative
  cases hk : x.producerAttemptId with
  | none => exact .of_iff ⟨fun _ _ hn => (by cases hn), fun _ => rfl⟩
  | some k =>
    obtain ⟨a, r, hp⟩ := h.producer hx hk
    simp only [Option.some.injEq, forall_eq', hp.authoritative_iff h.oracle, truthy_some hp.named,
      hp.origin, truthy_some hp.requestNamed, item_of_get? hp.attempt, item_of_get? hp.request, bind,
      Except.bind]
    by_cases hlost : a.authorityStatus = .superseded
    · simp only [hlost, ↓reduceIte, ne_eq, not_true_eq_false, false_and]
      exact .of_not id
    · simp only [hlost, ↓reduceIte, ne_eq, not_false_eq_true, true_and]
      split
      · exact .of_iff decide_eq_true_iff
      · exact .of_iff (by simp only [Bool.and_eq_true, decide_eq_true_eq])

theorem phaseOrdered_decides (h : Sound c) (hl : ContextLinked c ctx)
    (hx : c.states.get? s = some x) :
    Decides (phaseOrdered c x ctx) (∀ k, x.producerPhaseId = some k → Earlier c ctx k) := by
  unfold phaseOrdered
  cases hk : x.producerPhaseId with
  | none => exact .of_iff ⟨fun _ _ hn => (by cases hn), fun _ => rfl⟩
  | some k =>
    obtain ⟨hne, p, hp, hattempt, _⟩ := h.producerPhase hx hk
    simp only [Option.some.injEq, forall_eq', truthy_some hne, Earlier, hp]
    by_cases hown : x.producerAttemptId = some ctx.attemptId
    · have hsame : p.attemptId = ctx.attemptId := Option.some.inj (hattempt.trans hown)
      simp only [hown, ↓reduceIte, hsame, true_implies]
      cases hj : ctx.phaseId with
      | none =>
        refine .of_not fun hex => ?_
        obtain ⟨_, _, hn, _⟩ := hex
        cases hn
      | some j =>
        obtain ⟨q, hq, _⟩ := hl.phase j hj
        simp only [item_of_get? hp, item_of_get? hq, bind, Except.bind, Option.some.injEq,
          exists_and_left, exists_eq_left', hq]
        exact .of_iff decide_eq_true_iff
    · have hother : p.attemptId ≠ ctx.attemptId := fun he => hown (hattempt.symm.trans (congrArg some he))
      simp only [hown, ↓reduceIte, hother, false_implies]
      exact .of_iff ⟨fun _ => True.intro, fun _ => rfl⟩

theorem dependenciesIn_unknown (hk : k ∉ c.states.keys) : dependenciesIn c.states k = [] := by
  unfold dependenciesIn
  cases hx : c.states.get? k with
  | none => rfl
  | some x => exact (hk (Dict.mem_of_get? hx)).elim

theorem dependenciesIn_of_get? (hx : c.states.get? k = some x) :
    dependenciesIn c.states k = elements x.derivedFrom := by
  simp only [dependenciesIn, hx]

theorem statesAcyclic_acc (h : StatesAcyclic c.states) (k : String) :
    Acc (Graph.Below (dependenciesIn c.states)) k := by
  by_cases hk : k ∈ c.states.keys
  · exact h k hk
  · refine .intro k fun d hd => ?_
    rw [Graph.Below, dependenciesIn_unknown hk] at hd
    exact (List.not_mem_nil hd).elim

end Checks

section Recursion
variable {c : ContinuityCore} {ctx : ExecutionContext}
  {semanticValidity : ReusableState → ExecutionContext → Bool}

/-- The State is stored and usable in the context. -/
def UsableAt (c : ContinuityCore) (semanticValidity : ReusableState → ExecutionContext → Bool)
    (ctx : ExecutionContext) (k : String) : Prop :=
  ∃ x, c.states.get? k = some x ∧ Usable c semanticValidity ctx x

theorem usableAt_iff (hx : c.states.get? k = some x) :
    UsableAt c semanticValidity ctx k ↔ Usable c semanticValidity ctx x := by
  simp only [UsableAt, hx, Option.some.injEq, exists_eq_left']

theorem usable_iff (hvalid : x.validity = .valid) : Usable c semanticValidity ctx x ↔
    AncestorOrSelf c.continuations x.originContinuationId ctx.continuationId ∧
    (∀ k, x.producerAttemptId = some k → Authoritative c ctx k) ∧
    (∀ k, x.producerPhaseId = some k → Earlier c ctx k) ∧ semanticValidity x ctx = true :=
  ⟨fun h => ⟨h.origin, h.producer, h.phase, h.semantic⟩,
    fun ⟨origin, producer, phase, semantic⟩ => ⟨hvalid, origin, producer, phase, semantic⟩⟩

theorem recursive_step (h : Sound c) (hl : ContextLinked c ctx) {Q : String → Prop}
    (hfresh : k ∉ visiting)
    (hrec : ∀ d ∈ dependenciesIn c.states k, Decides
      (stateCompatibleRecursive (fun x ctx => .ok (semanticValidity x ctx)) c ctx fuel d
        (k :: visiting)) (Q d)) :
    Decides (stateCompatibleRecursive (fun x ctx => .ok (semanticValidity x ctx)) c ctx (fuel + 1) k
      visiting) (UsableAt c semanticValidity ctx k ∧ ∀ d ∈ dependenciesIn c.states k, Q d) := by
  unfold stateCompatibleRecursive
  cases hx : c.states.get? k with
  | none =>
    refine .of_not fun hall => ?_
    obtain ⟨⟨x, hget, _⟩, _⟩ := hall
    rw [hx] at hget
    cases hget
  | some x =>
    by_cases hvalid : x.validity = .valid
    · obtain ⟨ct, hct, _⟩ := hl.continuation
      have hdeps := dependenciesIn_of_get? hx
      rw [hdeps] at hrec ⊢
      simp only [hvalid, ne_eq, not_true_eq_false, ↓reduceIte, hfresh]
      refine Decides.congr ((ancestry_decides h (Dict.mem_of_get? hct) _).guard fun _ =>
        (producerAuthoritative_decides h hx).guard fun _ =>
        (phaseOrdered_decides h hl hx).guard fun _ =>
        (allHold_decides hrec).guard fun _ => .of_iff Iff.rfl) ?_
      rw [usableAt_iff hx, usable_iff hvalid]
      tauto
    · simp only [hvalid, ne_eq, not_false_eq_true, ↓reduceIte]
      exact .of_not fun hall => hvalid ((usableAt_iff hx).mp hall.1).valid

theorem stateCompatible_decides (h : Sound c) (stateId : String) (ctx : ExecutionContext) :
    Decides (stateCompatible (fun x ctx => .ok (semanticValidity x ctx)) c stateId ctx)
      (Compatible c semanticValidity stateId ctx) := by
  unfold stateCompatible
  by_cases hl : ContextLinked c ctx
  · rw [if_pos ((contextConsistent_iff h.oracle.keys).mpr hl)]
    refine (Graph.recursion_decides (P := UsableAt c semanticValidity ctx)
      (stateCompatibleRecursive (fun x ctx => .ok (semanticValidity x ctx)) c ctx)
      (fun k hk => dependenciesIn_unknown hk) (fun fuel k visiting hfresh hrec =>
        recursive_step h hl hfresh hrec) (statesAcyclic_acc h.oracle.acyclic stateId) List.nodup_nil
      (fun v hv => (List.not_mem_nil hv).elim)
      (by simp only [List.length_nil, Nat.add_zero, Nat.lt_add_one])).congr ?_
    exact ⟨fun hall => ⟨hl, hall⟩, fun hc => hc.closure⟩
  · rw [if_neg fun hc => hl ((contextConsistent_iff h.oracle.keys).mp hc)]
    exact .of_not fun hc => hl hc.context

end Recursion

/-- On every core of a run without empty identifiers, the recursion ends and decides the
declarative reading of compatibility, for any State, any context and any pure callback. -/
theorem stateCompatible_iff (semanticValidity : ReusableState → ExecutionContext → Bool)
    (calls : List Call) (h : ∀ call ∈ calls, call.operation.newId ≠ some "") (stateId : String)
    (ctx : ExecutionContext) :
    Decides (stateCompatible (fun x ctx => .ok (semanticValidity x ctx))
        (run (step fun x ctx => .ok (semanticValidity x ctx)) {} calls) stateId ctx)
      (Compatible (run (step fun x ctx => .ok (semanticValidity x ctx)) {} calls) semanticValidity
        stateId ctx) :=
  stateCompatible_decides (Sound.empty.run h) stateId ctx

/-- Two States derived from a common one, and one derived from both. -/
def sharedRun : List Call :=
  retriedRun ++ [⟨.int 0, .createState "y" "continuation" "c" "PREFIX" "OPAQUE" ["x"]⟩,
    ⟨.int 0, .createState "z" "attempt" "b" "PREFIX" "OPAQUE" ["x"]⟩,
    ⟨.int 0, .createState "w" "continuation" "c" "PREFIX" "OPAQUE" ["y", "z"]⟩]

theorem stateCompatible_iff_shared :
    Decides (stateCompatible (fun x _ => .ok (x.id != "v"))
        (run (step fun x _ => .ok (x.id != "v")) {} sharedRun) "w" ⟨"p", "s", "c", "r", "b", none⟩)
      (Compatible (run (step fun x _ => .ok (x.id != "v")) {} sharedRun) (fun x _ => x.id != "v") "w"
        ⟨"p", "s", "c", "r", "b", none⟩) ∧
      stateCompatible (fun x _ => .ok (x.id != "v"))
        (run (step fun x _ => .ok (x.id != "v")) {} sharedRun) "w" ⟨"p", "s", "c", "r", "b", none⟩ =
          .ok true :=
  ⟨stateCompatible_iff (fun x _ => x.id != "v") sharedRun (by decide) "w" ⟨"p", "s", "c", "r", "b", none⟩,
    by decide +kernel⟩

end Cadi
