import Cadi.Core.PublicOperation

namespace Cadi
open Library Relation
set_option autoImplicit true

/-- A stored entity carries its own identifier. -/
class Entity (α : Type) where
  id : α → String

instance : Entity Program := ⟨Program.id⟩
instance : Entity Session := ⟨Session.id⟩
instance : Entity Continuation := ⟨Continuation.id⟩
instance : Entity LogicalRequest := ⟨LogicalRequest.id⟩
instance : Entity Attempt := ⟨Attempt.id⟩
instance : Entity Phase := ⟨Phase.id⟩
instance : Entity ReusableState := ⟨ReusableState.id⟩
instance : Entity StateReplica := ⟨StateReplica.id⟩
instance : Entity Binding := ⟨Binding.id⟩
instance : Entity Evidence := ⟨Evidence.id⟩
instance : Entity Output := ⟨Output.id⟩
instance : Entity SemanticEvent := ⟨SemanticEvent.id⟩

/-- Every key is the identifier of its entity. -/
def Keyed [Entity α] (d : Dict String α) : Prop := ∀ k v, d.get? k = some v → Entity.id v = k

theorem Keyed.set [Entity α] {d : Dict String α} (h : Keyed d) (hv : Entity.id v = k) :
    Keyed (d.set k v) := by
  intro x w hw
  rcases Dict.get?_set_eq_some_iff.mp hw with ⟨rfl, rfl⟩ | ⟨_, hw⟩
  · exact hv
  · exact h x w hw

theorem Keyed.mapValues [Entity α] {d : Dict String α} (h : Keyed d) {f : α → α}
    (hf : ∀ v, Entity.id (f v) = Entity.id v) : Keyed (d.mapValues f) := by
  intro k w hw
  rw [Dict.get?_mapValues, Option.map_eq_some_iff] at hw
  obtain ⟨v, hv, rfl⟩ := hw
  rw [hf]
  exact h k v hv

structure KeysMatch (c : ContinuityCore) : Prop where
  programs : Keyed c.programs
  sessions : Keyed c.sessions
  continuations : Keyed c.continuations
  requests : Keyed c.requests
  attempts : Keyed c.attempts
  phases : Keyed c.phases
  states : Keyed c.states
  replicas : Keyed c.replicas
  bindings : Keyed c.bindings
  evidence : Keyed c.evidence
  outputs : Keyed c.outputs
  events : Keyed c.events

/-- Every reference to an enclosing entity resolves, and parents share the Session. -/
structure ParentScopes (programs : Dict String Program) (sessions : Dict String Session)
    (continuations : Dict String Continuation) (requests : Dict String LogicalRequest)
    (attempts : Dict String Attempt) (phases : Dict String Phase) : Prop where
  session : ∀ k s, sessions.get? k = some s → s.programId ∈ programs
  continuation : ∀ k ct, continuations.get? k = some ct → ct.sessionId ∈ sessions
  parent : ∀ k ct, continuations.get? k = some ct → ∀ p ∈ ct.parentIds,
    ∃ pc, continuations.get? p = some pc ∧ pc.sessionId = ct.sessionId
  request : ∀ k r, requests.get? k = some r → r.continuationId ∈ continuations
  attempt : ∀ k a, attempts.get? k = some a → a.requestId ∈ requests
  phase : ∀ k p, phases.get? k = some p → p.attemptId ∈ attempts

def DependenciesKnown (states : Dict String ReusableState) : Prop :=
  ∀ k x, states.get? k = some x → ∀ d ∈ x.derivedFrom, d ∈ states

/-- The part of the invariant every operation keeps, whatever identifiers it is given. -/
structure Grounded (c : ContinuityCore) : Prop where
  keys : KeysMatch c
  scopes : ParentScopes c.programs c.sessions c.continuations c.requests c.attempts c.phases
  dependencies : DependenciesKnown c.states

theorem Keyed.empty [Entity α] : Keyed (∅ : Dict String α) := by
  intro k v h
  cases h

theorem Grounded.empty : Grounded {} where
  keys := ⟨.empty, .empty, .empty, .empty, .empty, .empty, .empty, .empty, .empty, .empty, .empty,
    .empty⟩
  scopes := by constructor <;> intro k v h <;> cases h
  dependencies := by
    intro k v h
    cases h

/-- The reflexive and transitive closure of the parent relation. -/
def AncestorOrSelf (continuations : Dict String Continuation) (a d : String) : Prop :=
  ReflTransGen (Graph.Edge (parentsIn continuations)) d a

theorem mem_parentsIn {continuations : Dict String Continuation} :
    p ∈ parentsIn continuations k ↔
      ∃ ct, continuations.get? k = some ct ∧ p ∈ ct.parentIds := by
  unfold parentsIn
  cases continuations.get? k with
  | none => simp only [List.not_mem_nil, reduceCtorEq, false_and, exists_false]
  | some ct => simp only [mem_elements, Option.some.injEq, exists_eq_left']

theorem mem_dependenciesIn {states : Dict String ReusableState} :
    d ∈ dependenciesIn states k ↔ ∃ x, states.get? k = some x ∧ d ∈ x.derivedFrom := by
  unfold dependenciesIn
  cases states.get? k with
  | none => simp only [List.not_mem_nil, reduceCtorEq, false_and, exists_false]
  | some x => simp only [mem_elements, Option.some.injEq, exists_eq_left']

section Search
variable {c : ContinuityCore}

/-- Parents of stored continuations are stored. -/
def ParentsKnown (continuations : Dict String Continuation) : Prop :=
  ∀ k ct, continuations.get? k = some ct → ∀ p ∈ ct.parentIds, p ∈ continuations

theorem ParentScopes.parentsKnown (h : ParentScopes programs sessions continuations requests
    attempts phases) : ParentsKnown continuations := by
  intro k ct hk p hp
  obtain ⟨pc, hpc, _⟩ := h.parent k ct hk p hp
  exact Dict.mem_of_get? hpc

theorem parents_eq (h : k ∈ c.continuations) :
    c.parents k = .ok (parentsIn c.continuations k) := by
  obtain ⟨ct, hct⟩ := Dict.mem_iff.mp h
  simp only [ContinuityCore.parents, item_of_get? hct, bind, Except.bind, parentsIn, hct]
  rfl

theorem parents_closed (h : ParentsKnown c.continuations) :
    Graph.Closed c.parents (parentsIn c.continuations) c.continuations.keys where
  succ_eq _ hn := parents_eq hn
  next_mem n _ p hp := by
    obtain ⟨ct, hct, hp⟩ := mem_parentsIn.mp hp
    exact h n ct hct p hp

/-- On stored continuations the search always ends and decides ancestry. -/
theorem isAncestor_spec (h : ParentsKnown c.continuations) (hd : d ∈ c.continuations) :
    ∃ b, c.isAncestor a d = .ok b ∧ (b = true ↔ AncestorOrSelf c.continuations a d) := by
  unfold ContinuityCore.isAncestor
  by_cases he : a = d
  · subst he
    exact ⟨true, if_pos rfl, fun _ => .refl, fun _ => rfl⟩
  obtain ⟨⟨b, seen⟩, hr, hb⟩ := Graph.worklist_reaches PyError.exhausted
    (fun x => decide (x = a)) (parents_closed h) hd (Nat.le_refl _)
  refine ⟨b, ?_, ?_⟩
  · rw [if_neg he, parents_eq hd]
    simp only [bind, Except.bind, ContinuityCore.searchFuel, hr]
    rfl
  · simp only at hb
    rw [hb]
    constructor
    · rintro ⟨x, hx, hp⟩
      rw [decide_eq_true_eq] at hx
      subst hx
      exact hp.to_reflTransGen
    · intro hp
      rcases ReflTransGen.cases_head hp with rfl | ⟨x, hx, hp⟩
      · exact (he rfl).elim
      · exact ⟨a, decide_eq_true rfl, .head' hx hp⟩

theorem isAncestor_true (h : ParentsKnown c.continuations) (hd : d ∈ c.continuations) :
    c.isAncestor a d = .ok true ↔ AncestorOrSelf c.continuations a d := by
  obtain ⟨b, hb, hiff⟩ := isAncestor_spec (a := a) h hd
  rw [hb, Except.ok.injEq, hiff]

theorem dependencies_eq (h : k ∈ c.states) :
    c.dependencies k = .ok (dependenciesIn c.states k) := by
  obtain ⟨x, hx⟩ := Dict.mem_iff.mp h
  simp only [ContinuityCore.dependencies, item_of_get? hx, bind, Except.bind, dependenciesIn, hx]
  rfl

/-- The State graph has no cycle. -/
def StatesAcyclic (states : Dict String ReusableState) : Prop :=
  ∀ k ∈ states, Acc (Graph.Below (dependenciesIn states)) k

theorem stateCycle_spec (h : DependenciesKnown c.states) :
    ∃ b, c.stateCycle = .ok b ∧ (b = false ↔ StatesAcyclic c.states) := by
  apply Graph.anyCycle_spec
  refine ⟨fun n hn => dependencies_eq hn, fun n _ d hd => ?_⟩
  obtain ⟨x, hx, hd⟩ := mem_dependenciesIn.mp hd
  exact h n x hx d hd

theorem mem_sessionNodes :
    n ∈ c.sessionNodes sid ↔ ∃ ct, c.continuations.get? n = some ct ∧ ct.sessionId = sid := by
  simp only [ContinuityCore.sessionNodes, List.mem_map, List.mem_filter, decide_eq_true_eq,
    Prod.exists, ← Dict.get?_eq_some_iff, exists_and_right, exists_eq_right]

theorem sessionNodes_known (h : n ∈ c.sessionNodes sid) : n ∈ c.continuations := by
  obtain ⟨ct, hct, _⟩ := mem_sessionNodes.mp h
  exact Dict.mem_of_get? hct

/-- The continuation graph has no cycle. -/
def ContinuationsAcyclic (continuations : Dict String Continuation) : Prop :=
  ∀ k ∈ continuations, Acc (Graph.Below (parentsIn continuations)) k

/-- The check of one Session always ends and decides acyclicity among its continuations. -/
theorem hasCycle_spec (c : ContinuityCore) (sid : String) :
    ∃ b, c.hasCycle sid = .ok b ∧ (b = false ↔ ∀ n ∈ c.sessionNodes sid,
      Acc (Graph.Below fun k => (parentsIn c.continuations k).filter (· ∈ c.sessionNodes sid)) n) := by
  apply Graph.anyCycle_spec
  refine ⟨fun n hn => ?_, fun n _ p hp => ?_⟩
  · simp only [parents_eq (sessionNodes_known hn), bind, Except.bind]
    rfl
  · exact of_decide_eq_true (List.mem_filter.mp hp).2

end Search

section Refresh
variable {c : ContinuityCore}

theorem lifecycleCandidates_total (h : ParentsKnown c.continuations) (origin : String)
    (cts : List Continuation) (hc : ∀ ct ∈ cts, ct.id ∈ c.continuations) :
    ∃ candidates, c.lifecycleCandidates origin cts = .ok candidates ∧
      ∀ life, life ∈ candidates ↔ ∃ ct ∈ cts, ct.lifecycle.rank = some life ∧
        AncestorOrSelf c.continuations origin ct.id := by
  induction cts with
  | nil => exact ⟨[], rfl, fun _ => by simp only [List.not_mem_nil, false_and, exists_false]⟩
  | cons ct cts ih =>
    obtain ⟨rest, hrest, hmem⟩ := ih fun ct' h' => hc ct' (List.mem_cons_of_mem _ h')
    obtain ⟨b, hb, hanc⟩ := isAncestor_spec (a := origin) h (hc ct List.mem_cons_self)
    simp only [ContinuityCore.lifecycleCandidates, hb, hrest, bind, Except.bind, pure, Except.pure,
      Except.ok.injEq, exists_eq_left', List.mem_cons, exists_eq_or_imp]
    intro life
    cases b with
    | false =>
      have hno : ¬ AncestorOrSelf c.continuations origin ct.id := fun ha =>
        Bool.false_ne_true (hanc.mpr ha)
      simp only [hmem, hno, and_false, false_or]
    | true =>
      have hyes := hanc.mp rfl
      cases hrank : ct.lifecycle.rank with
      | none => simp only [hmem, reduceCtorEq, false_and, false_or]
      | some l => simp only [List.mem_cons, hmem, Option.some.injEq, hyes, and_true,
          eq_comm (a := l)]

/-- The lifecycle a State gets from the continuation graph. -/
def ContinuityCore.lifecycleOf (c : ContinuityCore) (x : ReusableState) : StateLifecycle :=
  match c.derivedLifecycle x with
  | .ok life => life
  | .error _ => x.lifecycle

def ContinuityCore.refreshed (c : ContinuityCore) : ContinuityCore :=
  { c with states := c.states.mapValues fun x => { x with lifecycle := c.lifecycleOf x } }

theorem values_known (hk : Keyed c.continuations) (h : ct ∈ c.continuations.values) :
    ct.id ∈ c.continuations := by
  obtain ⟨k, hct⟩ := Dict.mem_values_iff.mp h
  have he : ct.id = k := hk k ct hct
  rw [he]
  exact Dict.mem_of_get? hct

theorem derivedLifecycle_eq (h : ParentsKnown c.continuations) (hk : Keyed c.continuations)
    (x : ReusableState) : c.derivedLifecycle x = .ok (c.lifecycleOf x) := by
  obtain ⟨candidates, hcand, _⟩ := lifecycleCandidates_total h x.originContinuationId
    c.continuations.values fun ct hct => values_known hk hct
  unfold ContinuityCore.lifecycleOf
  simp only [ContinuityCore.derivedLifecycle, hcand, bind, Except.bind]
  rfl

/-- Ancestry reads the continuations alone. -/
theorem isAncestor_congr {c' : ContinuityCore} (h : c'.continuations = c.continuations)
    (a d : String) : c'.isAncestor a d = c.isAncestor a d := by
  have hp : c'.parents = c.parents := by
    funext k
    simp only [ContinuityCore.parents, h]
  simp only [ContinuityCore.isAncestor, ContinuityCore.searchFuel, hp, h]

theorem derivedLifecycle_congr {c' : ContinuityCore} (h : c'.continuations = c.continuations)
    (x : ReusableState) : c'.derivedLifecycle x = c.derivedLifecycle x := by
  have hl (cts : List Continuation) : c'.lifecycleCandidates x.originContinuationId cts =
      c.lifecycleCandidates x.originContinuationId cts := by
    induction cts with
    | nil => rfl
    | cons ct cts ih => simp only [ContinuityCore.lifecycleCandidates, isAncestor_congr h, ih]
  simp only [ContinuityCore.derivedLifecycle, hl, h]

theorem refreshState_forM (h : ParentsKnown c.continuations) (hk : Keyed c.continuations)
    (l : List (String × ReusableState)) (states : Dict String ReusableState) :
    l.forM refreshState { c with states } = .ok () { c with
      states := l.foldl (fun d p => d.set p.1 { p.2 with lifecycle := c.lifecycleOf p.2 }) states } := by
  induction l generalizing states with
  | nil => rfl
  | cons p l ih =>
    have hstep : refreshState p { c with states } = .ok () { c with
        states := states.set p.1 { p.2 with lifecycle := c.lifecycleOf p.2 } } := by
      have hl : ({ c with states } : ContinuityCore).derivedLifecycle p.2 =
          .ok (c.lifecycleOf p.2) := by
        have hcongr := @derivedLifecycle_congr c { c with states } rfl p.2
        exact hcongr.trans (derivedLifecycle_eq h hk p.2)
      unfold refreshState
      rw [get_bind_apply, bind_eq_ok]
      exact ⟨_, _, lift_eq_ok.mpr ⟨hl, rfl⟩, rfl⟩
    change (refreshState p >>= fun _ => l.forM refreshState) { c with states } = _
    rw [bind_eq_ok]
    exact ⟨_, _, hstep, ih _⟩

/-- The refresh never raises and rewrites exactly the lifecycles. -/
theorem refreshStateLifecycles_eq (h : ParentsKnown c.continuations) (hk : Keyed c.continuations) :
    refreshStateLifecycles c = .ok () c.refreshed := by
  have hloop := refreshState_forM h hk c.states.entries c.states
  rw [Dict.foldl_set_entries (fun x : ReusableState => { x with lifecycle := c.lifecycleOf x })]
    at hloop
  exact hloop

end Refresh

end Cadi
