import Cadi.Oracle.Authority

namespace Cadi
open Library
set_option autoImplicit true

section Numbers

theorem oneTo_succ (n : Nat) : oneTo (n + 1) = oneTo n ++ [(n : Int) + 1] := by
  simp only [oneTo, List.range_succ, List.map_append, List.map_cons, List.map_nil]

theorem mem_oneTo {x : Int} : x ∈ oneTo n ↔ 1 ≤ x ∧ x ≤ n := by
  simp only [oneTo, List.mem_map, List.mem_range]
  constructor
  · rintro ⟨i, hi, rfl⟩
    omega
  · rintro ⟨h1, hn⟩
    exact ⟨(x - 1).toNat, by omega, by omega⟩

theorem foldl_max_spec (n : Int) (ns : List Int) :
    ns.foldl max n ∈ n :: ns ∧ ∀ x ∈ n :: ns, x ≤ ns.foldl max n := by
  induction ns generalizing n with
  | nil => simp only [List.foldl_nil, List.mem_singleton, forall_eq, le_refl, and_self]
  | cons m ns ih =>
    obtain ⟨hmem, hle⟩ := ih (max n m)
    rw [List.foldl_cons]
    constructor
    · rcases List.mem_cons.mp hmem with he | hmem
      · rcases max_choice n m with hm | hm <;> rw [he, hm] <;>
          simp only [List.mem_cons, true_or, or_true]
      · exact List.mem_cons_of_mem _ (List.mem_cons_of_mem _ hmem)
    · intro x hx
      have hmax := hle (max n m) List.mem_cons_self
      rcases List.mem_cons.mp hx with rfl | hx
      · exact (le_max_left _ _).trans hmax
      · rcases List.mem_cons.mp hx with rfl | hx
        · exact (le_max_right _ _).trans hmax
        · exact hle x (List.mem_cons_of_mem _ hx)

theorem le_maxDefault (hx : x ∈ l) : x ≤ maxDefault d l := by
  cases l with
  | nil => cases hx
  | cons n ns => exact (foldl_max_spec n ns).2 x hx

theorem maxDefault_mem (h : l ≠ []) : maxDefault d l ∈ l := by
  cases l with
  | nil => exact (h rfl).elim
  | cons n ns => exact (foldl_max_spec n ns).1

theorem Numbered.nil : Numbered [] := .refl []

theorem Numbered.maxDefault_eq (h : Numbered l) : maxDefault 0 l = l.length := by
  by_cases hl : l = []
  · subst hl
    rfl
  have hlow := mem_oneTo.mp (h.mem_iff.mp (maxDefault_mem (d := 0) hl))
  have hpos := List.length_pos_iff.mpr hl
  have htop : (l.length : Int) ∈ l := h.mem_iff.mpr (mem_oneTo.mpr ⟨by omega, le_refl _⟩)
  have hle := le_maxDefault (d := 0) htop
  omega

theorem Numbered.next (h : Numbered l) : Numbered (l ++ [maxDefault 0 l + 1]) := by
  unfold Numbered
  rw [List.length_append, List.length_singleton, oneTo_succ, h.maxDefault_eq]
  exact h.append_right _

end Numbers

section Owners
variable {owner : α → String} {number : α → Int} {d : Dict String α}

theorem numbersOf_eq (owner : α → String) (number : α → Int) (d : Dict String α) (k : String) :
    numbersOf owner number d k =
      ((d.values.map fun v => (owner v, number v)).filter (·.1 = k)).map Prod.snd := by
  rw [numbersOf, List.filter_map, List.map_map]
  rfl

theorem numbersOf_set_old (h : d.get? j = some v) (ho : owner w = owner v)
    (hn : number w = number v) : numbersOf owner number (d.set j w) k = numbersOf owner number d k := by
  rw [numbersOf_eq, numbersOf_eq, Dict.values_map_set_old _ h (by rw [ho, hn])]

theorem numbersOf_set_new (owner : α → String) (number : α → Int) (h : j ∉ d) (v : α) :
    numbersOf owner number (d.set j v) k =
    numbersOf owner number d k ++ if owner v = k then [number v] else [] := by
  rw [numbersOf, Dict.values_set_new h, List.filter_append, List.map_append]
  by_cases hv : owner v = k <;> simp only [numbersOf, hv, decide_true, decide_false,
    List.filter_cons_of_pos, List.filter_cons, Bool.false_eq_true, ↓reduceIte, List.filter_nil,
    List.map_cons, List.map_nil]

theorem numbersOf_eq_nil (h : ∀ j v, d.get? j = some v → owner v ≠ k) :
    numbersOf owner number d k = [] := by
  rw [numbersOf, List.filter_eq_nil_iff.mpr, List.map_nil]
  intro v hv
  obtain ⟨j, hj⟩ := Dict.mem_values_iff.mp hv
  rw [decide_eq_true_eq]
  exact h j v hj

theorem generationsOf_superseded (attempts : Dict String Attempt) (pointer : Option String)
    (k : String) : generationsOf (superseded attempts pointer) k = generationsOf attempts k := by
  unfold superseded
  cases truthy pointer with
  | none => rfl
  | some current =>
    cases hold : attempts.get? current with
    | none => simp only [hold]
    | some old =>
      simp only [hold]
      exact numbersOf_set_old hold rfl rfl

end Owners

section Generations
variable {c : ContinuityCore}

/-- Attempts of a request stay numbered from one without a gap. -/
theorem Effect.generations {e : Effect} (h : ∀ k ∈ c.requests, Numbered (generationsOf c.attempts k))
    (hscope : ∀ k a, c.attempts.get? k = some a → a.requestId ∈ c.requests) (ha : e.Allowed c) :
    ∀ k ∈ (e.apply c).requests, Numbered (generationsOf (e.apply c).attempts k) := by
  cases e with
  | createRequest id continuationId =>
    intro k hk
    rcases Dict.mem_set.mp hk with rfl | hk
    · have hnone : generationsOf c.attempts id = [] := numbersOf_eq_nil fun j a hj he =>
        ha.1.unused.requests (he ▸ hscope j a hj)
      exact hnone ▸ Numbered.nil
    · exact h k hk
  | startAttempt id r =>
    intro k hk
    have hr := Dict.mem_of_get? ha.stored
    have hk' : k ∈ c.requests := (Dict.mem_set.mp hk).elim (fun he => he ▸ hr) fun hk => hk
    have hout : id ∉ superseded c.attempts r.currentAttemptId := fun hm =>
      ha.fresh.unused.attempts (mem_superseded.mp hm)
    have hsplit := numbersOf_set_new (k := k) Attempt.requestId Attempt.generation
      hout (c.nextAttempt id r.id)
    change generationsOf _ k = generationsOf _ k ++ _ at hsplit
    rw [generationsOf_superseded] at hsplit
    change Numbered (generationsOf ((superseded c.attempts r.currentAttemptId).set id
      (c.nextAttempt id r.id)) k)
    rw [hsplit]
    by_cases he : (c.nextAttempt id r.id).requestId = k
    · rw [if_pos he]
      change r.id = k at he
      subst he
      exact (h r.id hk').next
    · rw [if_neg he, List.append_nil]
      exact h k hk'
  | setExecution a status =>
    intro k hk
    have hsame : generationsOf (c.attempts.set a.id { a with executionStatus := status }) k =
      generationsOf c.attempts k := numbersOf_set_old ha.1 rfl rfl
    exact hsame ▸ h k hk
  | finalize r a o =>
    intro k hk
    have hr := Dict.mem_of_get? ha.request
    have hk' : k ∈ c.requests := (Dict.mem_set.mp hk).elim (fun he => he ▸ hr) fun hk => hk
    have hsame : generationsOf (c.attempts.set a.id { a with authorityStatus := .committed }) k =
      generationsOf c.attempts k := numbersOf_set_old ha.attempt rfl rfl
    exact hsame ▸ h k hk'
  | createProgram | setProgramStatus | createSession | createContinuation | setLifecycle
  | createPhase | setPhaseStatus | createOutput | createState | setValidity | addReplica
  | setReplicaStatus | propose | activateInitial | beginMigration | commitMigration | recordEvent
  | recordEvidence => exact h

/-- Phases of an Attempt stay numbered from one without a gap. -/
theorem Effect.ordinals {e : Effect} (h : ∀ k ∈ c.attempts, Numbered (ordinalsOf c.phases k))
    (hscope : ∀ k p, c.phases.get? k = some p → p.attemptId ∈ c.attempts) (ha : e.Allowed c) :
    ∀ k ∈ (e.apply c).attempts, Numbered (ordinalsOf (e.apply c).phases k) := by
  cases e with
  | startAttempt id r =>
    intro k hk
    rcases Dict.mem_set.mp hk with rfl | hk
    · have hnone : ordinalsOf c.phases id = [] := numbersOf_eq_nil fun j p hj he =>
        ha.fresh.unused.attempts (he ▸ hscope j p hj)
      exact hnone ▸ Numbered.nil
    · exact h k (mem_superseded.mp hk)
  | createPhase id attemptId phaseType =>
    intro k hk
    have hsplit := numbersOf_set_new (k := k) Phase.attemptId Phase.ordinal
      ha.1.unused.phases (c.nextPhase id attemptId phaseType)
    change Numbered (numbersOf Phase.attemptId Phase.ordinal
      (c.phases.set id (c.nextPhase id attemptId phaseType)) k)
    rw [hsplit]
    by_cases he : (c.nextPhase id attemptId phaseType).attemptId = k
    · rw [if_pos he]
      change attemptId = k at he
      subst he
      exact (h attemptId hk).next
    · rw [if_neg he, List.append_nil]
      exact h k hk
  | setPhaseStatus p status =>
    intro k hk
    have hsame : ordinalsOf (c.phases.set p.id { p with status }) k = ordinalsOf c.phases k :=
      numbersOf_set_old ha.1 rfl rfl
    exact hsame ▸ h k hk
  | setExecution a status =>
    intro k hk
    exact h k ((Dict.mem_set.mp hk).elim (fun he => he ▸ Dict.mem_of_get? ha.1) fun hk => hk)
  | finalize r a o =>
    intro k hk
    exact h k ((Dict.mem_set.mp hk).elim (fun he => he ▸ Dict.mem_of_get? ha.attempt) fun hk => hk)
  | createProgram | setProgramStatus | createSession | createContinuation | setLifecycle
  | createRequest | createOutput | createState | setValidity | addReplica | setReplicaStatus
  | propose | activateInitial | beginMigration | commitMigration | recordEvent
  | recordEvidence => exact h

end Generations

section Commits
variable {c c' : ContinuityCore}

theorem Completed.persists (h : Completed c.attempts c.outputs r) (hp : Persists c c') :
    Completed c'.attempts c'.outputs r where
  current := h.current
  attempt := by
    obtain ⟨k, a, hk, ha, hreq, hauth, hexec⟩ := h.attempt
    obtain ⟨a', ha', hs⟩ := hp.attempts k a ha
    refine ⟨k, a', hk, ha', hs.request.trans hreq, ?_, ?_⟩
    · exact (hs.authority (.inr hauth)).trans hauth
    · refine (hs.execution ?_).trans hexec
      rw [hexec]
      decide
  output := by
    obtain ⟨k, o, hk, ho, hprod, hterm⟩ := h.output
    obtain ⟨o', ho', rfl⟩ := hp.outputs k o ho
    exact ⟨k, o, hk, ho', hprod, hterm⟩

/-- Completed requests keep what they point to, and finalizing sets the pointers up. -/
theorem Effect.commits {e : Effect} (h : CommitConsistent c.requests c.attempts c.outputs)
    (hpointers : AuthorityPointers c.requests c.attempts) (ha : e.Allowed c) :
    CommitConsistent (e.apply c).requests (e.apply c).attempts (e.apply c).outputs := by
  have hp := e.persists ha
  have hold (k : String) (r : LogicalRequest) (hr : c.requests.get? k = some r)
      (hs : r.status = .completed) : Completed (e.apply c).attempts (e.apply c).outputs r :=
    (h.completed k r hr hs).persists hp
  cases e with
  | createRequest id continuationId => exact {
      completed := Dict.forall_set hold fun hs => by cases hs
      closed := Dict.forall_set h.closed fun hs => by rcases hs with hs | hs <;> cases hs }
  | startAttempt id r => exact {
      completed := Dict.forall_set hold fun hs => by cases hs
      closed := Dict.forall_set h.closed fun hs => by rcases hs with hs | hs <;> cases hs }
  | finalize r a o =>
    refine ⟨Dict.forall_set hold fun _ => ?_, Dict.forall_set h.closed fun hs => ?_⟩
    · have hreq := (holder_of_get? ha.attempt).mp ((hpointers.current r.id r ha.request a.id).mp
        ha.current)
      refine ⟨rfl, ⟨a.id, _, rfl, Dict.get?_set_self _ _ _, hreq.1, rfl, ha.succeeded⟩, ?_⟩
      exact ⟨o.id, o, rfl, ha.output, congrArg some ha.produced, ha.terminal⟩
    · rcases hs with hs | hs <;> cases hs
  | createProgram | setProgramStatus | createSession | createContinuation | setLifecycle
  | setExecution | createPhase | setPhaseStatus | createOutput | createState | setValidity
  | addReplica | setReplicaStatus | propose | activateInitial | beginMigration | commitMigration
  | recordEvent | recordEvidence => exact ⟨hold, h.closed⟩

end Commits

end Cadi
