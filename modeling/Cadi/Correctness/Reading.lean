import Cadi.Correctness.Documents
import Cadi.Library.JsonProper
import Cadi.Library.JsonSorting

namespace Cadi
open Library Correctness
set_option autoImplicit true

section Values

theorem validateJsonValue_ok (path : String) (j : Json) :
    validateJsonValue path j = .ok () ↔ j.finite = true := by
  induction j using Json.induct generalizing path with
  | null => exact ⟨fun _ => rfl, fun _ => rfl⟩
  | bool b => exact ⟨fun _ => rfl, fun _ => rfl⟩
  | str s => exact ⟨fun _ => rfl, fun _ => rfl⟩
  | num n =>
    cases n with
    | int z => exact ⟨fun _ => rfl, fun _ => rfl⟩
    | float x => rw [validateJsonValue, raiseIf_eq_ok, Bool.not_eq_false, Json.finite]
  | arr items ih =>
    have hloop (k : Nat) : validateJsonItems path k items = .ok () ↔ finiteItems items = true := by
      induction items generalizing k with
      | nil => exact ⟨fun _ => rfl, fun _ => rfl⟩
      | cons j js ihs =>
        rw [validateJsonItems, Except.then_eq_ok, finiteItems, Bool.and_eq_true,
          ih j List.mem_cons_self, ihs fun j' hj' => ih j' (List.mem_cons_of_mem _ hj')]
    rw [validateJsonValue, Json.finite]
    exact hloop 0
  | obj members ih =>
    have hloop : validateJsonMembers path members = .ok () ↔ finiteMembers members = true := by
      induction members with
      | nil => exact ⟨fun _ => rfl, fun _ => rfl⟩
      | cons m ms ihs =>
        rw [validateJsonMembers, Except.then_eq_ok, finiteMembers, Bool.and_eq_true,
          ih m List.mem_cons_self, ihs fun m' hm' => ih m' (List.mem_cons_of_mem _ hm')]
    rw [validateJsonValue, Json.finite]
    exact hloop

theorem loadJsonNoDuplicates_ok {text name : String} :
    loadJsonNoDuplicates text name = .ok j ↔ loadsWith distinctHooks text.toList = .ok j := by
  rw [loadJsonNoDuplicates]
  cases h : loadsWith distinctHooks text.toList with
  | ok i => exact ⟨fun h => congrArg _ (Except.ok.inj h), fun h => congrArg _ (Except.ok.inj h)⟩
  | error e =>
    constructor
    · intro hj
      cases e <;> cases hj
    · intro hj
      cases hj

/-- The canonical text of a value is read as the value with its keys sorted. -/
theorem loadJsonNoDuplicates_text {j : Json} (h : j.Writable) (name : String) :
    loadJsonNoDuplicates (String.ofList j.sorted.text) name = .ok j.sorted := by
  rw [loadJsonNoDuplicates_ok, String.toList_ofList]
  exact loadsWith_text distinctHooks_keeps h.sorted

theorem canonicalJson_ok {j : Json} (h : j.finite = true) :
    canonicalJson j = .ok (String.ofList j.sorted.text) := by
  rw [canonicalJson, if_pos h]
  rfl

/-- What an embedded document of an accepted record is: the canonical text of an object. -/
theorem requireCanonicalObject_ok {text name : String} (h : requireCanonicalObject text name = .ok ()) :
    ∃ ms, (∀ name, loadJsonNoDuplicates text name = .ok (.obj ms)) ∧ (Json.obj ms).Writable ∧
      String.ofList (Json.obj ms).sorted.text = text := by
  obtain ⟨j, hj, h⟩ := Except.bind_eq_ok.mp h
  have hloads := loadJsonNoDuplicates_ok.mp hj
  cases j with
  | obj ms =>
    obtain ⟨hvalid, htext⟩ := Except.then_eq_ok.mp h
    rw [raiseIf_eq_ok, not_not] at htext
    exact ⟨ms, fun _ => loadJsonNoDuplicates_ok.mpr hloads, ⟨(validateJsonValue_ok _ _).mp hvalid,
      (loadsWith_proper distinctHooks_proper hloads).distinct⟩, htext⟩
  | _ => cases h

theorem canonicalMappingJson_sorted {ms : List (String × Json)} (h : (Json.obj ms).Writable)
    (name : String) :
    canonicalMappingJson (Json.obj ms).sorted name = .ok (String.ofList (Json.obj ms).sorted.text) := by
  have hfinite := (validateJsonValue_ok name _).mpr h.sorted.finite
  have htwice := Json.sorted_sorted (.obj ms)
  rw [Json.sorted] at hfinite htwice ⊢
  rw [canonicalMappingJson, hfinite, Except.ok_bind, htwice]
  rfl

end Values

section Reading
variable {members : List (String × Json)}

theorem Correctness.fieldOf_sorted (hkeys : (members.map Prod.fst).Nodup) (i : Nat)
    (h : members[i]? = some (key, j)) : fieldOf (byKey (sortedMembers members)) key = .ok j.sorted := by
  have hfind : Dict.find members key = some j := (Dict.find_eq_some_iff hkeys).mpr (List.mem_of_getElem? h)
  rw [fieldOf, find_sorted hkeys, hfind]
  rfl

theorem Correctness.requireExactKeys_sorted {expected : List String}
    (h : ∀ k, k ∈ members.map Prod.fst ↔ k ∈ expected) (name : String) :
    requireExactKeys (byKey (sortedMembers members)) expected name = .ok () := by
  have hkeys (k : String) : k ∈ (byKey (sortedMembers members)).map Prod.fst ↔ k ∈ expected :=
    (keys_sorted members).mem_iff.trans (h k)
  have hmissing : expected.filter (· ∉ (byKey (sortedMembers members)).map Prod.fst) = [] := by
    rw [List.filter_eq_nil_iff]
    intro k hk
    rw [decide_eq_true_eq, not_not]
    exact (hkeys k).mpr hk
  have hextra : ((byKey (sortedMembers members)).map Prod.fst).filter (· ∉ expected) = [] := by
    rw [List.filter_eq_nil_iff]
    intro k hk
    rw [decide_eq_true_eq, not_not]
    exact (hkeys k).mp hk
  rw [requireExactKeys, raiseIf_eq_ok, hmissing, hextra]
  exact not_or.mpr ⟨not_not.mpr rfl, not_not.mpr rfl⟩

theorem texts_sorted (f : α → String) (l : List α) :
    (Json.arr (l.map fun a => .str (f a))).sorted = .arr (l.map fun a => .str (f a)) := by
  rw [Json.sorted, sortedItems_eq, List.map_map]
  rfl

theorem texts_writable (f : α → String) (l : List α) : (Json.arr (l.map fun a => .str (f a))).Writable := by
  apply Json.Writable.of_items
  intro j hj
  obtain ⟨a, -, rfl⟩ := List.mem_map.mp hj
  exact ⟨rfl, rfl⟩

theorem mapM_texts {read : Json → Except PyError α} {f : β → String} {g : β → α}
    (h : ∀ b, read (.str (f b)) = .ok (g b)) (l : List β) :
    (l.map fun b => Json.str (f b)).mapM read = .ok (l.map g) := by
  induction l with
  | nil => rfl
  | cons b l ih =>
    rw [List.map_cons, List.mapM_cons, h, Except.ok_bind, ih]
    rfl

theorem readMembers_sorted {read : Json → Except PyError α} {f : β → String} {g : β → α}
    (h : ∀ b, read (.str (f b)) = .ok (g b)) {l : List β} (hkeys : (members.map Prod.fst).Nodup) (i : Nat)
    (hi : members[i]? = some (key, .arr (l.map fun b => .str (f b)))) :
    CorrectnessEvaluationRecord.readMembers (byKey (sortedMembers members)) key read = .ok (l.map g) := by
  rw [CorrectnessEvaluationRecord.readMembers, fieldOf_sorted hkeys i hi, Except.ok_bind, texts_sorted,
    requireJsonArray, Except.ok_bind, mapM_texts h]

theorem Correctness.requireText_str (text message : String) :
    requireText (.str text) text message = .ok () :=
  raiseIf_eq_ok.mpr fun hne => hne rfl

theorem optionalIdentifier_json (o : Option String) : optionalIdentifier (optionalJson .str o) = o := by
  cases o <;> rfl

theorem optionalJson_sorted {write : α → Json} (h : ∀ a, (write a).sorted = write a) (o : Option α) :
    (optionalJson write o).sorted = optionalJson write o := by
  cases o with
  | none => rfl
  | some a => exact h a

theorem optionalJson_writable {write : α → Json} (h : ∀ a, (write a).Writable) (o : Option α) :
    (optionalJson write o).Writable := by
  cases o with
  | none => exact ⟨rfl, rfl⟩
  | some a => exact h a

theorem PolicyID.ofJson_value (p : PolicyID) : ofJson (.str p.value) = .ok p := by
  cases p <;> rfl

theorem ValidationEvidenceLevel.ofJson_value (l : ValidationEvidenceLevel) :
    ofJson (.str l.value) = .ok l := by
  cases l <;> rfl

theorem ResultEvidenceProvenance.ofJson_value (p : ResultEvidenceProvenance) :
    ofJson (.str p.value) = .ok p := by
  cases p <;> rfl

theorem ExplicitNonSuccess.ofJson_value (d : ExplicitNonSuccess) : ofJson (.str d.value) = .ok d := by
  cases d <;> rfl

theorem RecoveryAction.ofJson_value (a : RecoveryAction) : ofJson (.str a.value) = .ok a := by
  cases a <;> rfl

theorem CorrectnessMetric.ofJson_value (m : CorrectnessMetric) : ofJson (.str m.value) = .ok m := by
  cases m <;> rfl

theorem MetricOpportunityScope.ofJson_value (s : MetricOpportunityScope) :
    ofJson (.str s.value) = .ok s := by
  cases s <;> rfl

theorem optionalMember_json (o : Option ExplicitNonSuccess) :
    optionalMember ExplicitNonSuccess.ofJson (optionalJson (fun d => .str d.value) o) = .ok o := by
  cases o with
  | none => rfl
  | some d =>
    change some <$> ExplicitNonSuccess.ofJson (.str d.value) = .ok (some d)
    rw [d.ofJson_value]
    rfl

end Reading

section Results

theorem RecoveryAction.value_injective {a b : RecoveryAction} (h : a.value = b.value) : a = b := by
  revert h
  cases a <;> cases b <;> decide

theorem recoveryTuple_ok {actions sorted : List RecoveryAction} :
    recoveryTuple actions = .ok sorted ↔ actions.Nodup ∧
    sorted = sortedBy RecoveryAction.value actions := by
  rw [recoveryTuple, Except.then_eq_ok, raiseIf_eq_ok, not_not, Except.pure_eq_ok, eq_comm (a := sorted)]
  rfl

/-- What the constructor of a result accepts, and what it makes of it. -/
theorem SemanticResult.create_ok {s : SemanticResult} : create b c o d actions = .ok s ↔
    actions.Nodup ∧ (s.reportedSuccess = b ∧ s.authoritativeCommit = c ∧ s.semanticallyCorrect = o ∧
      s.explicitNonSuccess = d) ∧ s.recoveryActions = sortedBy RecoveryAction.value actions := by
  rw [create]
  simp only [Except.bind_eq_ok, recoveryTuple_ok]
  constructor
  · intro h
    obtain ⟨sorted, ⟨hnodup, rfl⟩, h⟩ := h
    split at h
    · cases h
      exact ⟨hnodup, ⟨rfl, rfl, rfl, rfl⟩, rfl⟩
    · cases h
  · intro h
    obtain ⟨hnodup, ⟨rfl, rfl, rfl, rfl⟩, hsorted⟩ := h
    refine ⟨_, ⟨hnodup, rfl⟩, ?_⟩
    split
    · cases s
      cases hsorted
      rfl
    · next e he =>
      rw [s.disposed] at he
      cases he

theorem SemanticResult.create_perm {s : SemanticResult} {actions actions' : List RecoveryAction}
    (hperm : actions.Perm actions') (h : create b c o d actions = .ok s) :
    create b c o d actions' = .ok s := by
  obtain ⟨hnodup, hfields, hsorted⟩ := create_ok.mp h
  refine create_ok.mpr ⟨hperm.nodup_iff.mp hnodup, hfields, ?_⟩
  rw [hsorted]
  exact sortedBy_perm (fun _ _ _ _ => RecoveryAction.value_injective) hperm

theorem SemanticResult.create_own {s : SemanticResult} (h : create b c o d actions = .ok s) :
    create s.reportedSuccess s.authoritativeCommit s.semanticallyCorrect s.explicitNonSuccess
      s.recoveryActions = .ok s := by
  obtain ⟨hnodup, -, hsorted⟩ := create_ok.mp h
  have hperm := perm_sortedBy RecoveryAction.value actions
  refine create_ok.mpr ⟨?_, ⟨rfl, rfl, rfl, rfl⟩, ?_⟩ <;> rw [hsorted]
  · exact hperm.nodup_iff.mpr hnodup
  · exact (pairwise_sortedBy _ actions).insertionSort_eq.symm

theorem SemanticResult.toDict_writable (s : SemanticResult) : (Json.obj s.toDict).Writable := by
  have hmember : ∀ m ∈ s.toDict, m.2.Writable := by
    simp only [toDict, List.forall_mem_cons]
    exact ⟨⟨rfl, rfl⟩, ⟨rfl, rfl⟩, optionalJson_writable (fun _ => ⟨rfl, rfl⟩) _,
      optionalJson_writable (fun _ => ⟨rfl, rfl⟩) _, texts_writable RecoveryAction.value _,
      fun m hm => absurd hm List.not_mem_nil⟩
  exact .of_members (by decide : SemanticResult.keys.Nodup) hmember

theorem correctnessOf_json (b : Bool) (o : Option Bool) : correctnessOf b (optionalJson .bool o) = o := by
  cases o <;> rfl

theorem SemanticResult.fromDict_sorted {s : SemanticResult} (h : create b c o d actions = .ok s) :
    fromDict (Json.obj s.toDict).sorted = .ok s := by
  have hnodup : (s.toDict.map Prod.fst).Nodup := (by decide : keys.Nodup)
  have hkeys (k : String) : k ∈ s.toDict.map Prod.fst ↔ k ∈ keys := Iff.rfl
  have hfield {key : String} {j : Json} (i : Nat) (h : s.toDict[i]? = some (key, j)) :=
    fieldOf_sorted hnodup i h
  have hbool (b : Bool) (name : String) : requireBool (.bool b) name = .ok b := rfl
  have hleaf (b : Bool) : (Json.bool b : Json).sorted = .bool b := rfl
  have hactions : (s.recoveryActions.map fun a => Json.str a.value).mapM RecoveryAction.ofJson =
      .ok s.recoveryActions := by
    have hread := mapM_texts (g := id) RecoveryAction.ofJson_value s.recoveryActions
    rwa [List.map_id] at hread
  have hobject : (Json.obj s.toDict).sorted = .obj (byKey (sortedMembers s.toDict)) := rfl
  rw [hobject, fromDict, requireExactKeys_sorted hkeys, Except.ok_bind, hfield 0 rfl,
    Except.ok_bind, hfield 1 rfl,
    Except.ok_bind, hfield 2 rfl, Except.ok_bind, hfield 3 rfl, Except.ok_bind,
    optionalJson_sorted fun _ => rfl, optionalJson_sorted fun _ => rfl, optionalMember_json, Except.ok_bind,
    hfield 4 rfl, Except.ok_bind, texts_sorted, requireJsonArray, Except.ok_bind, hactions, Except.ok_bind,
    hleaf, hbool, Except.ok_bind, hleaf, hbool, Except.ok_bind, correctnessOf_json]
  exact create_own h

end Results

end Cadi
