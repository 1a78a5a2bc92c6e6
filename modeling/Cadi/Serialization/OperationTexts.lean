import Cadi.Evidence.Sufficiency
import Cadi.Serialization.Journal

namespace Cadi
open Library
set_option autoImplicit true

section Calls
variable {semanticValidity : SemanticValidity}

/-- Calls that do the same on every core, whatever the clock shows. -/
def CallsAlike (operation operation' : PublicOperation) : Prop :=
  ∀ (semanticValidity : SemanticValidity) (clock : Number),
    operation.call semanticValidity clock = operation'.call semanticValidity clock

theorem callsAlike_createContinuation {id : String} (h : parentIds'.Perm parentIds) :
    CallsAlike (.createContinuation id sessionId parentIds' lifecycle)
      (.createContinuation id sessionId parentIds lifecycle) := by
  intro semanticValidity clock
  simp only [PublicOperation.call, createContinuation, List.toFinset_eq_of_perm _ _ h]

theorem callsAlike_createOutput {id : String} (h : evidenceIds'.Perm evidenceIds) :
    CallsAlike (.createOutput id attemptId terminal evidenceIds')
      (.createOutput id attemptId terminal evidenceIds) := by
  intro semanticValidity clock
  simp only [PublicOperation.call, createOutput, List.toFinset_eq_of_perm _ _ h]

theorem callsAlike_createState {id : String} (h : derivedFrom'.Perm derivedFrom) :
    CallsAlike (.createState id originType originId semanticType representation derivedFrom')
      (.createState id originType originId semanticType representation derivedFrom) := by
  intro semanticValidity clock
  simp only [PublicOperation.call, createState, List.toFinset_eq_of_perm _ _ h]

theorem lift_discard {x y : Except PyError α} {f : CoreM β}
    (h : x.map (fun _ => ()) = y.map fun _ => ()) :
    ((liftM x : CoreM α) >>= fun _ => f) = (liftM y : CoreM α) >>= fun _ => f := by
  cases x with
  | error e =>
    cases y with
    | error e' =>
      obtain rfl := Except.error.inj h
      rfl
    | ok b => cases h
  | ok a =>
    cases y with
    | error e' => cases h
    | ok b => rfl

theorem callsAlike_commitMigration (h : evidenceIds'.Perm evidenceIds) :
    CallsAlike (.commitMigration bindingId evidenceIds' now)
      (.commitMigration bindingId evidenceIds now) := by
  intro semanticValidity clock
  simp only [PublicOperation.call, commitMigration, lift_discard
    (requireEvidence_perm "commit_migration" (by decide) clock h now _)]

end Calls

section Reading
open Restored Relisted
variable {arguments : String → Option Value}

theorem required_relisted [Stored α] [Restored α] [Relisted α] (arguments : String → Option Value)
    (name : String) : (required (fun name => (arguments name).map Value.normal) name : Option α) =
      required arguments name := by
  rw [required, required]
  cases arguments name with
  | none => rfl
  | some v => exact ofValue_normal_eq v

theorem given_relisted [Stored α] [Restored α] [Relisted α] (arguments : String → Option Value)
    (name : String) (default : α) :
    given (fun name => (arguments name).map Value.normal) name default =
      given arguments name default := by
  rw [given, given]
  cases arguments name with
  | none => rfl
  | some v => exact ofValue_normal_eq v

theorem textsIn_relisted (v : Value) : Option.Rel List.Perm (textsIn v.normal) (textsIn v) := by
  have hrefl (x : Option (List String)) : Option.Rel List.Perm x x := by
    cases x with
    | none => exact .none
    | some l => exact .some (.refl l)
  cases v with
  | list items =>
    have hsame : textsIn (Value.list items).normal = textsIn (.list items) :=
      mapM_normalItems stringIn_normal items
    exact hsame ▸ hrefl _
  | tuple items =>
    have hsame : textsIn (Value.tuple items).normal = textsIn (.tuple items) :=
      mapM_normalItems stringIn_normal items
    exact hsame ▸ hrefl _
  | frozenset items => exact mapM_listed stringIn_normal items
  | _ => exact .none

theorem requiredTexts_relisted (arguments : String → Option Value) (name : String) :
    Option.Rel List.Perm (requiredTexts (fun name => (arguments name).map Value.normal) name)
      (requiredTexts arguments name) := by
  rw [requiredTexts, requiredTexts]
  cases arguments name with
  | none => exact .none
  | some v => exact textsIn_relisted v

theorem givenTexts_relisted (arguments : String → Option Value) (name : String) :
    Option.Rel List.Perm (givenTexts (fun name => (arguments name).map Value.normal) name)
      (givenTexts arguments name) := by
  rw [givenTexts, givenTexts]
  cases arguments name with
  | none => exact .some (.refl _)
  | some v => exact textsIn_relisted v

theorem rel_same {x : Option α} {f g : α → Option PublicOperation}
    (h : ∀ a, Option.Rel CallsAlike (f a) (g a)) : Option.Rel CallsAlike (x >>= f) (x >>= g) := by
  cases x with
  | none => exact .none
  | some a => exact h a

theorem rel_texts {x y : Option (List String)} {f g : List String → Option PublicOperation}
    (hxy : Option.Rel List.Perm x y) (h : ∀ l l', l.Perm l' → Option.Rel CallsAlike (f l) (g l')) :
    Option.Rel CallsAlike (x >>= f) (y >>= g) := by
  cases hxy with
  | none => exact .none
  | some hp => exact h _ _ hp

theorem rel_refl (x : Option PublicOperation) : Option.Rel CallsAlike x x := by
  cases x with
  | none => exact .none
  | some operation => exact .some fun _ _ => rfl

/-- The call of an action does the same however the sets among its arguments are listed. -/
theorem toOperation_relisted (arguments : String → Option Value) (action : String) :
    Option.Rel CallsAlike (toOperation (fun name => (arguments name).map Value.normal) action)
      (toOperation arguments action) := by
  unfold toOperation
  simp only [required_relisted, given_relisted]
  split
  case h_4 =>
    refine rel_same fun id => rel_same fun sessionId => rel_texts (givenTexts_relisted _ _) ?_
    exact fun _ _ hp => rel_same fun lifecycle => .some (callsAlike_createContinuation hp)
  case h_14 =>
    refine rel_same fun id => rel_same fun attemptId => rel_same fun terminal => ?_
    exact rel_texts (givenTexts_relisted _ _) fun _ _ hp => .some (callsAlike_createOutput hp)
  case h_16 =>
    refine rel_same fun id => rel_same fun originType => rel_same fun originId => ?_
    refine rel_same fun semanticType => rel_same fun representation => ?_
    exact rel_texts (givenTexts_relisted _ _) fun _ _ hp => .some (callsAlike_createState hp)
  case h_23 =>
    refine rel_same fun bindingId => rel_texts (requiredTexts_relisted _ _) ?_
    exact fun _ _ hp => rel_same fun now => .some (callsAlike_commitMigration hp)
  all_goals exact rel_refl _

end Reading

section Replays
variable {semanticValidity : SemanticValidity} {shown : Value → String}
  {operation : SemanticOperation} {operations : List SemanticOperation}

theorem SemanticOperation.Built.listed_valid (h : operation.Built shown) :
    validatedOperationArguments shown operation.listed = .ok operation.listed.arguments := by
  obtain ⟨hid, haction, hnames, htime, hvalid⟩ := h.checks
  have hnames' : (operation.listed.arguments.map Prod.fst).Nodup :=
    (relisted_names operation.arguments).symm ▸ hnames
  have hkwargs : operation.listed.kwargs = operation.listed.arguments := entries_ofList hnames'
  rw [← requireExplicitReplayTime_relisted] at htime
  rw [← validateOperationArguments_relisted] at hvalid
  rw [validatedOperationArguments, hkwargs]
  simp only [raiseIf, ne_eq, not_true_eq_false, ↓reduceIte, Except.ok_bind]
  rw [if_neg (show ¬ operation.listed.id = "" from hid),
    if_neg (show ¬ operation.listed.action ∉ allowedActions from not_not.mpr haction)]
  change (do
    requireExplicitReplayTime shown operation.action (relisted operation.arguments)
    validateOperationArguments shown operation.action (relisted operation.arguments)
    return relisted operation.arguments) = _
  rw [htime, Except.ok_bind, hvalid]
  rfl

/-- A built operation does the same with its sets in the order in which they are written. -/
theorem applyOperation_listed (h : operation.Built shown) (clock : Number) :
    applyOperation semanticValidity shown clock operation.listed =
      applyOperation semanticValidity shown clock operation := by
  funext c
  rw [applyOperation, applyOperation, ok_bind_apply (lift_eq_ok.mpr ⟨h.listed_valid, rfl⟩),
    ok_bind_apply (lift_eq_ok.mpr ⟨h.valid, rfl⟩)]
  have hcall := toOperation_relisted (Dict.find operation.arguments) operation.action
  have hfind : (fun name => (Dict.find operation.arguments name).map Value.normal) =
      Dict.find operation.listed.arguments :=
    funext fun name => (find_relisted operation.arguments name).symm
  rw [hfind] at hcall
  change Option.Rel CallsAlike (toOperation (Dict.find operation.listed.arguments) operation.listed.action)
    (toOperation (Dict.find operation.arguments) operation.action) at hcall
  revert hcall
  generalize toOperation (Dict.find operation.listed.arguments) operation.listed.action = x
  generalize toOperation (Dict.find operation.arguments) operation.action = y
  rintro (halike | _)
  · exact congrFun (halike semanticValidity clock) c
  · rfl

/-- The operations one after the other, each when the clock shows its time. -/
def applyInOrder (semanticValidity : SemanticValidity) (shown : Value → String)
    (clock : SemanticOperation → Number) (operations : List SemanticOperation) : CoreM Unit :=
  operations.forM fun operation =>
    applyOperation semanticValidity shown (clock operation) operation

theorem replayFrom_listed (clock : Nat → Number) (clock' : SemanticOperation → Number)
    {seen : List String} (h : ∀ operation ∈ operations, operation.Built shown)
    (hids : (seen ++ operations.map (·.id)).Nodup) :
    replayFrom semanticValidity shown clock seen (operations.map SemanticOperation.listed) =
      applyInOrder semanticValidity shown clock' operations := by
  induction operations generalizing seen with
  | nil => rfl
  | cons operation operations ih =>
    have hnew : operation.id ∉ seen := fun hmem =>
      (List.nodup_append.mp hids).2.2 _ hmem _ List.mem_cons_self rfl
    have hseen : raiseIf (operation.id ∈ seen) (PyError.valueError
        s!"duplicate semantic operation identity: {operation.id}") = .ok ⟨⟩ := if_neg hnew
    have happly : applyOperation semanticValidity shown (clock seen.length) operation.listed =
        applyOperation semanticValidity shown (clock' operation) operation :=
      (applyOperation_clock _ _ _).trans (applyOperation_listed (h operation List.mem_cons_self) _)
    have hrest := @ih (operation.id :: seen) (fun o ho => h o (List.mem_cons_of_mem _ ho))
      ((List.perm_middle.nodup_iff).mp hids)
    funext c
    rw [List.map_cons, replayFrom]
    change ((do
      raiseIf (operation.id ∈ seen)
        (PyError.valueError s!"duplicate semantic operation identity: {operation.id}")
      applyOperation semanticValidity shown (clock seen.length) operation.listed
      replayFrom semanticValidity shown clock (operation.id :: seen)
        (operations.map SemanticOperation.listed)) : CoreM Unit) c = _
    rw [ok_bind_apply (lift_eq_ok.mpr ⟨hseen, rfl⟩), happly, hrest]
    rfl

end Replays

section Made
variable {shown : Value → String} {operation : SemanticOperation}

/-- A value that an argument can be: as `Value.Plain`, with any numbers. -/
inductive Value.Held : Value → Prop
  | none : Held .none
  | bool (b : Bool) : Held (.bool b)
  | num (n : Number) : Held (.num n)
  | str (s : String) : Held (.str s)
  | enum (h : (t, names) ∈ enumTypes) (hname : name ∈ names) : Held (.enum t name)
  | texts {items : List String} (h : items.Nodup) : Held (.frozenset (items.map .str))
  | pairs {items : List (String × String)} (h : items.Nodup) :
    Held (.frozenset (items.map pairValue))
  | tuple (h : ∀ v ∈ items, Held v) : Held (.tuple items)
  | list (h : ∀ v ∈ items, Held v) : Held (.list items)
  | entity (ht : (t, specs) ∈ dataclassTypes) (hnames : fields.map Prod.fst = specs.map (·.name))
      (h : ∀ f ∈ fields, Held f.2) (hclaim : t = "Evidence" → checkClaim fields = .ok ()) :
    Held (.entity t fields)

/-- An annotation of values that hold no dataclass. -/
def Annotation.flat : Annotation → Bool
  | .optional a => a.flat
  | .frozenset a => a.flat
  | .pair a b => a.flat && b.flat
  | .iterable _ => false
  | .entity _ => false
  | _ => true

theorem Value.Held.plain_of_matches {v : Value} {a : Annotation} (h : v.Held)
    (hflat : a.flat = true) (ha : annotationMatches a v = true) : v.Plain := by
  induction a generalizing v with
  | str => cases h <;> cases ha; exact .str _
  | int =>
    cases h with
    | num n =>
      cases n with
      | int z => exact .num rfl
      | float x => cases ha
    | _ => cases ha
  | float =>
    cases h with
    | num n => exact .num (Number.JsonFinite.of_isFinite ha)
    | _ => cases ha
  | bool => cases h <;> cases ha; exact .bool _
  | enum t =>
    cases h with
    | enum h hname => exact .enum h hname
    | _ => cases ha
  | optional a ih =>
    rw [annotationMatches, Bool.or_eq_true] at ha
    rcases ha with hnone | ha
    · cases h <;> cases hnone
      exact .none
    · exact ih h hflat ha
  | frozenset a =>
    cases h with
    | texts h => exact .texts h
    | pairs h => exact .pairs h
    | _ => cases ha
  | pair a b iha ihb =>
    obtain ⟨hflata, hflatb⟩ := Bool.and_eq_true_iff.mp hflat
    cases h with
    | @tuple items h =>
      match items with
      | [] => cases ha
      | [v] => cases ha
      | [v, w] =>
        rw [annotationMatches, Bool.and_eq_true] at ha
        have hv := iha (h v (by simp)) hflata ha.1
        have hw := ihb (h w (by simp)) hflatb ha.2
        refine .tuple fun u hu => ?_
        simp only [List.mem_cons, List.not_mem_nil, or_false] at hu
        rcases hu with rfl | rfl
        · exact hv
        · exact hw
      | v :: w :: u :: rest => cases ha
    | _ => cases ha
  | iterable a => cases hflat
  | entity t => cases hflat

/-- An annotation of a parameter of an action. -/
def Annotation.passed : Annotation → Bool
  | .iterable a => a.flat
  | .entity _ => true
  | a => a.flat

theorem signatures_passed (h : Dict.find signatures action = some parameters) (hp : p ∈ parameters) :
    p.hint.passed = true := by
  have hall : ∀ e ∈ signatures, ∀ p ∈ e.2, p.hint.passed = true := by decide
  exact hall _ ((Dict.find_eq_some_iff (by decide : (signatures.map Prod.fst).Nodup)).mp h) p hp

theorem dataclassTypes_flat (h : (t, specs) ∈ dataclassTypes) (hs : spec ∈ specs) :
    spec.hint.flat = true := by
  have hall : ∀ e ∈ dataclassTypes.map fun e => e.2.map (·.hint), ∀ a ∈ e, a.flat = true := by decide
  exact hall _ (List.mem_map_of_mem h) _ (List.mem_map_of_mem hs)

theorem operationAnnotationMatches_flat {a : Annotation} (h : a.flat = true) (v : Value) :
    operationAnnotationMatches a v = annotationMatches a v := by
  induction a generalizing v with
  | optional a ih => rw [operationAnnotationMatches, annotationMatches, ih h]
  | iterable a => cases h
  | entity t => cases h
  | _ => rfl

/-- What an annotation of a parameter accepts can be written. -/
theorem Value.Held.plain {v : Value} {a : Annotation} (h : v.Held) (hpassed : a.passed = true)
    (ha : operationAnnotationMatches a v = true) : v.Plain := by
  cases a with
  | iterable a =>
    have hitems {items : List Value} (hheld : ∀ v ∈ items, v.Held)
        (hall : items.all (operationAnnotationMatches a) = true) : ∀ v ∈ items, v.Plain := by
      intro v hv
      have hmatches := List.all_eq_true.mp hall v hv
      rw [operationAnnotationMatches_flat hpassed] at hmatches
      exact (hheld v hv).plain_of_matches hpassed hmatches
    cases h with
    | texts h => exact .texts h
    | pairs h => exact .pairs h
    | tuple h => exact .tuple (hitems h ha)
    | list h => exact .list (hitems h ha)
    | _ => cases ha
  | entity t =>
    cases h with
    | @entity t' specs fields ht hnames h hclaim =>
      rw [operationAnnotationMatches, Bool.and_eq_true] at ha
      obtain ⟨hsame, hfields⟩ := ha
      obtain rfl := of_decide_eq_true hsame
      rw [find_dataclass ht] at hfields
      refine .entity ht hnames (fun f hf => ?_) hclaim
      obtain ⟨spec, hspec, hname⟩ :=
        List.mem_map.mp (hnames ▸ List.mem_map_of_mem hf : f.1 ∈ specs.map (·.name))
      have hnodup : (fields.map Prod.fst).Nodup := hnames ▸ (dataclass_names ht).1
      have hfield : fieldOfEntity fields spec.name = f.2 := by
        rw [fieldOfEntity, hname, (Dict.find_eq_some_iff hnodup).mpr hf]
        rfl
      have hmatches := List.all_eq_true.mp hfields spec hspec
      rw [hfield] at hmatches
      exact (h f hf).plain_of_matches (dataclassTypes_flat ht hspec) hmatches
    | _ => cases ha
  | _ => exact h.plain_of_matches hpassed (operationAnnotationMatches_flat hpassed _ ▸ ha)

theorem checkArguments_accepts {arguments : List (String × Value)} {parameters : List Parameter}
    (h : checkArguments shown action arguments parameters = .ok ()) (hp : p ∈ parameters)
    (hfind : Dict.find arguments p.name = some v) : operationAnnotationMatches p.hint v = true := by
  induction parameters with
  | nil => exact absurd hp List.not_mem_nil
  | cons q parameters ih =>
    rw [checkArguments] at h
    cases hq : Dict.find arguments q.name with
    | none =>
      rw [hq] at h
      rcases List.mem_cons.mp hp with rfl | hp
      · rw [hq] at hfind
        cases hfind
      · exact ih h hp
    | some w =>
      rw [hq] at h
      obtain ⟨hcheck, hrest⟩ := Except.then_eq_ok.mp h
      rcases List.mem_cons.mp hp with rfl | hp
      · obtain rfl := Option.some.inj (hq.symm.trans hfind)
        exact Bool.eq_true_of_not_eq_false (raiseIf_eq_ok.mp hcheck)
      · exact ih hrest hp

/-- The operation is what `build` returns for some keyword arguments. -/
def SemanticOperation.Made (shown : Value → String) (operation : SemanticOperation) : Prop :=
  ∃ arguments : List (String × Value), (arguments.map Prod.fst).Nodup ∧
    (∀ a ∈ arguments, a.2.Held) ∧
    SemanticOperation.build shown operation.id operation.action arguments = .ok operation

theorem SemanticOperation.Made.built (h : operation.Made shown) : operation.Built shown := by
  obtain ⟨arguments, hnames, hheld, hbuild⟩ := h
  rw [SemanticOperation.build] at hbuild
  obtain ⟨hid, hbuild⟩ := Except.then_eq_ok.mp hbuild
  obtain ⟨htime, hbuild⟩ := Except.then_eq_ok.mp hbuild
  obtain ⟨hvalid, hbuild⟩ := Except.then_eq_ok.mp hbuild
  have harguments : operation.arguments = byName arguments :=
    (congrArg SemanticOperation.arguments (Except.ok.inj hbuild)).symm
  have hperm : arguments.Perm operation.arguments :=
    harguments ▸ (List.perm_insertionSort _ _).symm
  refine ⟨?_, ?_, ?_⟩
  · have hvalidated := validated_byName (raiseIf_eq_ok.mp hid) hnames htime hvalid
    rw [← harguments] at hvalidated
    exact hvalidated
  · exact harguments ▸ List.pairwise_insertionSort _ _
  · intro a ha
    have ha := hperm.mem_iff.mpr ha
    obtain ⟨parameters, hfound, hbinds, hcheck⟩ := validateOperationArguments_ok hvalid
    rw [binds, Bool.and_eq_true, List.all_eq_true] at hbinds
    have hname := of_decide_eq_true (hbinds.1 a.1 (List.mem_map_of_mem ha))
    obtain ⟨p, hp, hpname⟩ := List.mem_map.mp hname
    have hfind : Dict.find arguments p.name = some a.2 :=
      (Dict.find_eq_some_iff hnames).mpr (hpname ▸ ha)
    exact (hheld a ha).plain (signatures_passed hfound hp) (checkArguments_accepts hcheck hp hfind)

end Made

section RoundTrip

instance (operation : SemanticOperation) : Decidable operation.Unbroken :=
  inferInstanceAs (Decidable (_ ∧ _))

variable {shown : Value → String} {operations : List SemanticOperation}

/-- The text of the operations holds them, their sets in the order in which they are written, and
its replay does what the operations do one after the other, up to each of them. -/
def RoundTrips (shown : Value → String) (operations : List SemanticOperation) : Prop :=
  ∃ text, operationsToJsonl shown operations = .ok text ∧
    operationsFromJsonl shown text = .ok (operations.map SemanticOperation.listed) ∧
    ∀ semanticValidity clock clock',
      replayOperationJsonl semanticValidity shown clock text =
        applyInOrder semanticValidity shown clock' operations ∧
      ∀ n, replayOperations semanticValidity shown clock
          ((operations.map SemanticOperation.listed).take n) =
        applyInOrder semanticValidity shown clock' (operations.take n)

theorem not_roundTrips (h : ∀ operation ∈ operations, operation.Built shown)
    (hbroken : ∃ operation ∈ operations, ¬ operation.Unbroken) : ¬ RoundTrips shown operations := by
  rintro ⟨text, htext, hread, -⟩
  rw [operationsToJsonl_ok h] at htext
  obtain rfl := Except.ok.inj htext
  exact operationsFromJsonl_refused h hbroken _ hread

theorem roundTrips_of_unbroken (h : ∀ operation ∈ operations, operation.Built shown)
    (hids : (operations.map (·.id)).Nodup) (hunbroken : ∀ operation ∈ operations, operation.Unbroken) :
    RoundTrips shown operations := by
  have hread := operationsFromJsonl_written h hids hunbroken
  refine ⟨_, operationsToJsonl_ok h, hread, fun semanticValidity clock clock' => ⟨?_, fun n => ?_⟩⟩
  · funext c
    rw [replayOperationJsonl, ok_bind_apply (lift_eq_ok.mpr ⟨hread, rfl⟩)]
    exact congrFun (replayFrom_listed clock clock' h hids) c
  · rw [← List.map_take]
    refine replayFrom_listed clock clock' (fun o ho => h o (List.mem_of_mem_take ho)) ?_
    rw [List.nil_append, List.map_take]
    exact hids.sublist (List.take_sublist n _)

/-- A list of built operations with distinct identities survives its text just when no string of
them has a line break that the text does not escape. -/
theorem roundTrips_iff (shown : Value → String) (operations : List SemanticOperation)
    (hmade : ∀ operation ∈ operations, operation.Made shown)
    (hids : (operations.map (·.id)).Nodup) :
    RoundTrips shown operations ↔ ∀ operation ∈ operations, operation.Unbroken := by
  have hbuilt : ∀ operation ∈ operations, operation.Built shown := fun o ho => (hmade o ho).built
  refine ⟨fun h operation ho => ?_, roundTrips_of_unbroken hbuilt hids⟩
  by_contra hbroken
  exact not_roundTrips hbuilt ⟨operation, ho, hbroken⟩ h

/-- The creation of a continuation whose parents are given as a set in an order of its own. -/
def joinOperation : SemanticOperation where
  id := "op-2"
  action := "create_continuation"
  arguments := [("id_", .str "join"), ("parent_ids", .frozenset [.str "right", .str "left"]),
    ("session_id", .str "s")]

def programOperation (name : String) : SemanticOperation where
  id := "op-1"
  action := "create_program"
  arguments := [("id_", .str name)]

theorem programOperation_made (name : String) : (programOperation name).Made fun _ => "" := by
  refine ⟨[("id_", .str name)], List.nodup_singleton _, fun a ha => ?_, rfl⟩
  obtain rfl := List.mem_singleton.mp ha
  exact .str name

theorem joinOperation_made : joinOperation.Made fun _ => "" := by
  refine ⟨[("session_id", .str "s"), ("id_", .str "join"),
    ("parent_ids", .frozenset (["right", "left"].map .str))], by decide, fun a ha => ?_, ?_⟩
  · simp only [List.mem_cons, List.not_mem_nil, or_false] at ha
    rcases ha with rfl | rfl | rfl
    · exact .str _
    · exact .str _
    · exact .texts (by decide)
  · rfl

theorem roundTrips_iff_join :
    RoundTrips (fun _ => "") [programOperation "caf\u00e9", joinOperation] := by
  refine (roundTrips_iff (fun _ => "") _ ?_ (by decide)).mpr (by decide)
  simp only [List.forall_mem_cons]
  exact ⟨programOperation_made _, joinOperation_made, fun o ho => absurd ho List.not_mem_nil⟩

/-- A line separator in an identifier ends the line of its operation. -/
theorem programOperation_lost : (programOperation "line\u2028separated").Made (fun _ => "") ∧
    ¬ RoundTrips (fun _ => "") [programOperation "line\u2028separated"] := by
  refine ⟨programOperation_made _, not_roundTrips (fun o ho => ?_) ⟨_, List.mem_singleton_self _, ?_⟩⟩
  · exact List.mem_singleton.mp ho ▸ (programOperation_made _).built
  · decide

end RoundTrip

end Cadi
