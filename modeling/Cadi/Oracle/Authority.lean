import Cadi.Oracle.Holds

namespace Cadi
open Library
set_option autoImplicit true

section Identity
variable {c : ContinuityCore}

theorem keys_superseded (attempts : Dict String Attempt) (pointer : Option String) :
    (superseded attempts pointer).keys = attempts.keys := by
  unfold superseded
  cases truthy pointer with
  | none => rfl
  | some current =>
    cases hold : attempts.get? current with
    | none => simp only [hold]
    | some old => simp only [hold, Dict.keys_set_old (Dict.mem_of_get? hold)]

theorem keys_supersededBinding (bindings : Dict String Binding) (pointer : Option String) :
    (supersededBinding bindings pointer).keys = bindings.keys := by
  unfold supersededBinding
  cases truthy pointer with
  | none => rfl
  | some current =>
    cases hold : bindings.get? current with
    | none => simp only [hold]
    | some old => simp only [hold, Dict.keys_set_old (Dict.mem_of_get? hold)]

/-- The identifier a transition brings into use, if any. -/
def Effect.newId : Effect → Option String
  | .createProgram id | .createRequest id _ | .startAttempt id _ | .createPhase id _ _
  | .propose id _ _ | .activateInitial id _ _ => some id
  | .createSession s => some s.id
  | .createContinuation ct => some ct.id
  | .createOutput o => some o.id
  | .createState x => some x.id
  | .addReplica r => some r.id
  | .recordEvent event => some event.id
  | .recordEvidence e => some e.id
  | _ => none

theorem Effect.fresh {e : Effect} {id : String} (ha : e.Allowed c) (hid : e.newId = some id) :
    c.Fresh id := by
  cases e <;> simp only [newId, Option.some.injEq, reduceCtorEq] at hid <;> subst hid
  case createProgram | propose | recordEvent => exact ha
  case createContinuation | startAttempt | createState => exact ha.fresh
  all_goals exact ha.1

theorem Effect.ids_perm {e : Effect} (ha : e.Allowed c) :
    (e.apply c).ids.Perm (e.newId.toList ++ c.ids) := by
  have hnew {id : String} (h : e.newId = some id) := (Effect.fresh ha h).unused
  rw [List.perm_iff_count]
  intro k
  cases e with
  | setProgramStatus p _ =>
    simp only [apply, ContinuityCore.ids, newId, Option.toList_none, List.nil_append,
      Dict.keys_set_old (Dict.mem_of_get? ha.1)]
  | setLifecycle ct _ =>
    simp only [apply, ContinuityCore.ids, ContinuityCore.refreshed, newId, Option.toList_none,
      List.nil_append, Dict.keys_set_old (Dict.mem_of_get? ha.1), Dict.keys_mapValues]
  | setExecution a _ =>
    simp only [apply, ContinuityCore.ids, newId, Option.toList_none, List.nil_append,
      Dict.keys_set_old (Dict.mem_of_get? ha.1)]
  | setPhaseStatus p _ =>
    simp only [apply, ContinuityCore.ids, newId, Option.toList_none, List.nil_append,
      Dict.keys_set_old (Dict.mem_of_get? ha.1)]
  | finalize r a o =>
    simp only [apply, ContinuityCore.ids, newId, Option.toList_none, List.nil_append,
      Dict.keys_set_old (Dict.mem_of_get? ha.attempt),
      Dict.keys_set_old (Dict.mem_of_get? ha.request)]
  | setValidity x _ =>
    simp only [apply, ContinuityCore.ids, newId, Option.toList_none, List.nil_append,
      Dict.keys_set_old (Dict.mem_of_get? ha.1)]
  | setReplicaStatus r _ =>
    simp only [apply, ContinuityCore.ids, newId, Option.toList_none, List.nil_append,
      Dict.keys_set_old (Dict.mem_of_get? ha)]
  | beginMigration b =>
    simp only [apply, ContinuityCore.ids, newId, Option.toList_none, List.nil_append,
      Dict.keys_set_old (Dict.mem_of_get? ha.1)]
  | commitMigration b =>
    have hb : b.id ∈ supersededBinding c.bindings (c.currentBindingBySubject.get? b.subjectId) :=
      mem_supersededBinding.mpr (Dict.mem_of_get? ha.stored)
    simp only [apply, ContinuityCore.ids, newId, Option.toList_none, List.nil_append,
      Dict.keys_set_old hb, keys_supersededBinding]
  | startAttempt id r =>
    have hout : id ∉ superseded c.attempts r.currentAttemptId := fun hm =>
      (hnew rfl).attempts (mem_superseded.mp hm)
    simp only [apply, ContinuityCore.ids, newId, Option.toList_some, List.count_append,
      Dict.keys_set_new hout, keys_superseded, Dict.keys_set_old (Dict.mem_of_get? ha.stored)]
    omega
  | createProgram id =>
    simp only [apply, ContinuityCore.ids, newId, Option.toList_some, List.count_append,
      Dict.keys_set_new (hnew rfl).programs]
    omega
  | createSession s =>
    simp only [apply, ContinuityCore.ids, newId, Option.toList_some, List.count_append,
      Dict.keys_set_new (hnew rfl).sessions]
    omega
  | createContinuation ct =>
    simp only [apply, ContinuityCore.ids, ContinuityCore.refreshed, newId, Option.toList_some,
      List.count_append, Dict.keys_set_new (hnew rfl).continuations, Dict.keys_mapValues]
    omega
  | createRequest id _ =>
    simp only [apply, ContinuityCore.ids, newId, Option.toList_some, List.count_append,
      Dict.keys_set_new (hnew rfl).requests]
    omega
  | createPhase id _ _ =>
    simp only [apply, ContinuityCore.ids, newId, Option.toList_some, List.count_append,
      Dict.keys_set_new (hnew rfl).phases]
    omega
  | createOutput o =>
    simp only [apply, ContinuityCore.ids, newId, Option.toList_some, List.count_append,
      Dict.keys_set_new (hnew rfl).outputs]
    omega
  | createState x =>
    simp only [apply, ContinuityCore.ids, ContinuityCore.refreshed, newId, Option.toList_some,
      List.count_append, Dict.keys_set_new (hnew rfl).states, Dict.keys_mapValues]
    omega
  | addReplica r =>
    simp only [apply, ContinuityCore.ids, newId, Option.toList_some, List.count_append,
      Dict.keys_set_new (hnew rfl).replicas]
    omega
  | propose id _ _ | activateInitial id _ _ =>
    simp only [apply, ContinuityCore.ids, newId, Option.toList_some, List.count_append,
      Dict.keys_set_new (hnew rfl).bindings]
    omega
  | recordEvent event =>
    simp only [apply, ContinuityCore.ids, newId, Option.toList_some, List.count_append,
      Dict.keys_set_new (hnew rfl).events]
    omega
  | recordEvidence e =>
    simp only [apply, ContinuityCore.ids, newId, Option.toList_some, List.count_append,
      Dict.keys_set_new (hnew rfl).evidence]
    omega

theorem Effect.ids_nodup {e : Effect} (h : c.ids.Nodup) (ha : e.Allowed c) :
    (e.apply c).ids.Nodup := by
  rw [(Effect.ids_perm ha).nodup_iff]
  cases hid : e.newId with
  | none => exact h
  | some id => exact List.nodup_cons.mpr ⟨Effect.fresh ha hid, h⟩

end Identity

section Pointers
variable {c : ContinuityCore} {attempts : Dict String Attempt}

theorem holder_of_get? (h : attempts.get? k = some a) :
    Holder attempts rid s k ↔ a.requestId = rid ∧ a.authorityStatus = s := by
  simp only [Holder, h, Option.some.injEq, exists_eq_left']

theorem holder_set : Holder (attempts.set j a) rid s k ↔
    (j = k ∧ a.requestId = rid ∧ a.authorityStatus = s) ∨ (j ≠ k ∧ Holder attempts rid s k) := by
  by_cases hj : j = k
  · subst hj
    simp only [Holder, Dict.get?_set_self, Option.some.injEq, exists_eq_left', true_and, ne_eq,
      not_true_eq_false, false_and, or_false]
  · simp only [Holder, Dict.get?_set_ne _ _ hj, hj, false_and, ne_eq, not_false_eq_true, true_and,
      false_or]

theorem holder_superseded (h : ∀ j, truthy pointer = some j →
      ∃ old, attempts.get? j = some old ∧ old.authorityStatus = .current)
    (hs : s = .current ∨ s = .committed) : Holder (superseded attempts pointer) rid s k ↔
      Holder attempts rid s k ∧ (s = .current → truthy pointer ≠ some k) := by
  cases hk : attempts.get? k with
  | none => simp only [Holder, get?_superseded, hk, Option.map_none, reduceCtorEq, false_and,
      exists_false]
  | some a =>
    have hget := get?_superseded attempts pointer k
    rw [hk, Option.map_some] at hget
    rw [holder_of_get? hget, holder_of_get? hk]
    by_cases hp : truthy pointer = some k
    · obtain ⟨old, hold, hcur⟩ := h k hp
      rw [hk, Option.some.injEq] at hold
      subst hold
      simp only [hp, ↓reduceIte, hcur]
      rcases hs with rfl | rfl <;> simp only [reduceCtorEq, and_false, false_and, ne_eq,
        not_true_eq_false, imp_false]
    · simp only [hp, ↓reduceIte, ne_eq, not_false_eq_true, implies_true, and_true]

theorem AuthorityPointers.setExecution {status : ExecutionStatus}
    (h : AuthorityPointers requests attempts) (ha : attempts.get? a.id = some a) :
    AuthorityPointers requests (attempts.set a.id { a with executionStatus := status }) := by
  have hsame {rid s k} : Holder (attempts.set a.id { a with executionStatus := status }) rid s k ↔
      Holder attempts rid s k := by
    rw [holder_set]
    by_cases hk : a.id = k
    · subst hk
      rw [holder_of_get? ha]
      simp only [true_and, ne_eq, not_true_eq_false, false_and, or_false]
    · simp only [hk, false_and, ne_eq, not_false_eq_true, true_and, false_or]
  exact ⟨fun k r hr j => (h.current k r hr j).trans hsame.symm,
    fun k r hr j => (h.committed k r hr j).trans hsame.symm⟩

theorem AuthorityPointers.createRequest {id continuationId : String}
    (h : AuthorityPointers requests attempts)
    (hscope : ∀ k a, attempts.get? k = some a → a.requestId ∈ requests) (hid : id ∉ requests) :
    AuthorityPointers (requests.set id { id, continuationId, status := .ready }) attempts := by
  have hnone (s k) : ¬ Holder attempts id s k := by
    rintro ⟨a, ha, rfl, _⟩
    exact hid (hscope k a ha)
  refine ⟨Dict.forall_set h.current fun k => ?_, Dict.forall_set h.committed fun k => ?_⟩
  · exact ⟨fun hk => (by cases hk), fun hk => (hnone _ k hk).elim⟩
  · exact ⟨fun hk => (by cases hk), fun hk => (hnone _ k hk).elim⟩

/-- A start hands the authority of its request over to the new Attempt. -/
theorem AuthorityPointers.startAttempt {id : String} {r : LogicalRequest}
    (h : AuthorityPointers c.requests c.attempts) (ha : StartAllowed c id r)
    (hs : r.currentAttemptId ≠ some "") :
    AuthorityPointers (c.requests.set r.id (r.started id))
      ((superseded c.attempts r.currentAttemptId).set id (c.nextAttempt id r.id)) := by
  have hptr := truthy_of_ne hs
  have hcurrent := h.current r.id r ha.stored
  have hcommitted := h.committed r.id r ha.stored
  have hnew {rid s k} (hk : Holder c.attempts rid s k) : id ≠ k := by
    obtain ⟨a, hget, _⟩ := hk
    rintro rfl
    exact ha.fresh.unused.attempts (Dict.mem_of_get? hget)
  have hother {rid s k} (hrid : r.id ≠ rid) (hs : s = .current ∨ s = .committed) :
      Holder ((superseded c.attempts r.currentAttemptId).set id (c.nextAttempt id r.id)) rid s k ↔
        Holder c.attempts rid s k := by
    rw [holder_set, holder_superseded ha.current hs]
    constructor
    · rintro (⟨_, hr, _⟩ | ⟨_, hk, _⟩)
      · exact (hrid hr).elim
      · exact hk
    · intro hk
      refine .inr ⟨hnew hk, hk, fun _ hp => ?_⟩
      obtain ⟨a, hget, hreq, _⟩ := hk
      obtain ⟨a', hget', hreq', _⟩ := (hcurrent k).mp (hptr ▸ hp)
      rw [hget, Option.some.injEq] at hget'
      subst hget'
      exact hrid (hreq'.symm.trans hreq)
  constructor
  · intro rid r' hr' k
    rcases Dict.get?_set_eq_some_iff.mp hr' with ⟨rfl, rfl⟩ | ⟨hne, hr'⟩
    · rw [holder_set, holder_superseded ha.current (.inl rfl)]
      constructor
      · intro hk
        exact .inl ⟨Option.some.inj hk, rfl, rfl⟩
      · rintro (⟨rfl, _⟩ | ⟨_, hk, hp⟩)
        · rfl
        · exact (hp rfl (hptr.trans ((hcurrent k).mpr hk))).elim
    · exact (h.current rid r' hr' k).trans (hother hne (.inl rfl)).symm
  · intro rid r' hr' k
    rcases Dict.get?_set_eq_some_iff.mp hr' with ⟨rfl, rfl⟩ | ⟨hne, hr'⟩
    · rw [holder_set, holder_superseded ha.current (.inr rfl)]
      refine (hcommitted k).trans ⟨fun hk => .inr ⟨hnew hk, hk, fun he => by cases he⟩, ?_⟩
      rintro (⟨_, _, hs⟩ | ⟨_, hk, _⟩)
      · cases hs
      · exact hk
    · exact (h.committed rid r' hr' k).trans (hother hne (.inr rfl)).symm

/-- Finalizing turns the current Attempt of an uncommitted request into the committed one. -/
theorem AuthorityPointers.finalize {r : LogicalRequest} {a : Attempt} {o : Output}
    (h : AuthorityPointers c.requests c.attempts) (ha : FinalizeAllowed c r a o)
    (hs : r.committedAttemptId = none) :
    AuthorityPointers (c.requests.set r.id (r.finalized a o))
      (c.attempts.set a.id { a with authorityStatus := .committed }) := by
  have hcurrent := h.current r.id r ha.request
  have hcommitted := h.committed r.id r ha.request
  have hreq : a.requestId = r.id := ((holder_of_get? ha.attempt).mp ((hcurrent a.id).mp ha.current)).1
  have hother {rid s k} (hrid : r.id ≠ rid) :
      Holder (c.attempts.set a.id { a with authorityStatus := .committed }) rid s k ↔
        Holder c.attempts rid s k := by
    rw [holder_set]
    constructor
    · rintro (⟨_, hr, _⟩ | ⟨_, hk⟩)
      · exact (hrid (hreq.symm.trans hr)).elim
      · exact hk
    · intro hk
      refine .inr ⟨?_, hk⟩
      rintro rfl
      exact hrid (hreq.symm.trans ((holder_of_get? ha.attempt).mp hk).1)
  constructor
  · intro rid r' hr' k
    rcases Dict.get?_set_eq_some_iff.mp hr' with ⟨rfl, rfl⟩ | ⟨hne, hr'⟩
    · rw [holder_set]
      refine ⟨fun hk => (by cases hk), ?_⟩
      rintro (⟨_, _, hs⟩ | ⟨hk, hholder⟩)
      · cases hs
      · have hp := (hcurrent k).mpr hholder
        rw [ha.current, Option.some.injEq] at hp
        exact (hk hp).elim
    · exact (h.current rid r' hr' k).trans (hother hne).symm
  · intro rid r' hr' k
    rcases Dict.get?_set_eq_some_iff.mp hr' with ⟨rfl, rfl⟩ | ⟨hne, hr'⟩
    · rw [holder_set]
      constructor
      · intro hk
        exact .inl ⟨Option.some.inj hk, hreq, rfl⟩
      · rintro (⟨rfl, _⟩ | ⟨_, hk⟩)
        · rfl
        · have hp := (hcommitted k).mpr hk
          rw [hs] at hp
          cases hp
    · exact (h.committed rid r' hr' k).trans (hother hne).symm

end Pointers

end Cadi
