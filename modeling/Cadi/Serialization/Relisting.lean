import Cadi.Serialization.Records

namespace Cadi
open Library
set_option autoImplicit true

section Relisting

theorem isNone_normal (v : Value) : v.normal.isNone = v.isNone := by
  cases v <;> rfl

theorem listed_perm (items : List Value) : (listed items).Perm items :=
  List.perm_insertionSort _ items

theorem all_listed {p : Value → Bool} (hp : ∀ v, p v.normal = p v) (items : List Value) :
    (listed (normalItems items)).all p = items.all p := by
  rw [(listed_perm _).all_eq, normalItems_eq, List.all_map]
  exact congrArg items.all (funext hp)

theorem all_normalItems {p : Value → Bool} (hp : ∀ v, p v.normal = p v) (items : List Value) :
    (normalItems items).all p = items.all p := by
  rw [normalItems_eq, List.all_map]
  exact congrArg items.all (funext hp)

/-- An annotation accepts a value however its sets are listed. -/
theorem annotationMatches_normal (a : Annotation) (v : Value) :
    annotationMatches a v.normal = annotationMatches a v := by
  induction a generalizing v with
  | optional a ih => rw [annotationMatches, annotationMatches, isNone_normal, ih]
  | frozenset a ih =>
    cases v with
    | frozenset items =>
      rw [Value.normal, annotationMatches, annotationMatches]
      exact all_listed ih items
    | _ => rfl
  | pair a b iha ihb =>
    cases v with
    | tuple items =>
      rw [Value.normal, normalItems_eq]
      match items with
      | [] => rfl
      | [v] => rfl
      | [v, w] =>
        rw [List.map_cons, List.map_cons, List.map_nil, annotationMatches, annotationMatches, iha, ihb]
      | v :: w :: u :: rest => rfl
    | _ => rfl
  | _ => cases v <;> rfl

/-- What is read from a value does not depend on the order in which its sets are listed. -/
class Relisted (α : Type) [Stored α] [Restored α] : Prop where
  ofValue_normal_eq : ∀ v : Value, (Restored.ofValue v.normal : Option α) = Restored.ofValue v

open Restored Relisted

instance : Relisted String := ⟨fun v => by cases v <;> rfl⟩
instance : Relisted Bool := ⟨fun v => by cases v <;> rfl⟩
instance : Relisted Int := ⟨fun v => by cases v <;> rfl⟩
instance : Relisted Number := ⟨fun v => by cases v <;> rfl⟩
instance [DecidableEq α] [Enumeration α] [Known α] : Relisted α := ⟨fun v => by cases v <;> rfl⟩

instance [Stored α] [Restored α] [Present α] [Relisted α] : Relisted (Option α) where
  ofValue_normal_eq v := by
    change (if v.normal.isNone = true then some none else (ofValue v.normal : Option α).map some) =
      if v.isNone = true then some none else (ofValue v : Option α).map some
    rw [isNone_normal, ofValue_normal_eq]

theorem mapM_normalItems {g : Value → Option α} (hg : ∀ v, g v.normal = g v) (items : List Value) :
    (normalItems items).mapM g = items.mapM g := by
  induction items with
  | nil => rfl
  | cons v items ih => rw [normalItems, List.mapM_cons, List.mapM_cons, hg, ih]

theorem rel_perm_trans {x y z : Option (List α)} (h : Option.Rel List.Perm x y)
    (h' : Option.Rel List.Perm y z) : Option.Rel List.Perm x z := by
  cases h with
  | none => exact h'
  | some h =>
    cases h' with
    | some h' => exact .some (h.trans h')

/-- Items that are read in another order are the same items. -/
theorem mapM_perm {g : Value → Option α} {items items' : List Value} (h : items.Perm items') :
    Option.Rel List.Perm (items.mapM g) (items'.mapM g) := by
  induction h with
  | nil => exact .some (.refl [])
  | @cons v items items' _ ih =>
    rw [List.mapM_cons, List.mapM_cons]
    revert ih
    generalize items.mapM g = read
    generalize items'.mapM g = read'
    intro ih
    cases g v with
    | none => exact .none
    | some a =>
      cases ih with
      | none => exact .none
      | some hp => exact .some (hp.cons a)
  | swap v w l =>
    simp only [List.mapM_cons]
    cases g v <;> cases g w <;> cases l.mapM g
    all_goals first | exact .none | exact .some (.swap _ _ _)
  | trans _ _ ih ih' => exact rel_perm_trans ih ih'

theorem mapM_listed {g : Value → Option α} (hg : ∀ v, g v.normal = g v) (items : List Value) :
    Option.Rel List.Perm ((listed (normalItems items)).mapM g) (items.mapM g) :=
  mapM_normalItems hg items ▸ mapM_perm (listed_perm _)

theorem stringIn_normal (v : Value) : stringIn v.normal = stringIn v := by
  cases v <;> rfl

theorem pairIn_normal (v : Value) : pairIn v.normal = pairIn v := by
  cases v with
  | tuple items =>
    rw [Value.normal, normalItems_eq]
    match items with
    | [] => rfl
    | [v] => cases v <;> rfl
    | [v, w] => cases v <;> cases w <;> rfl
    | v :: w :: u :: rest => cases v <;> cases w <;> rfl
  | _ => rfl

theorem toFinset_listed [DecidableEq α] {g : Value → Option α} (hg : ∀ v, g v.normal = g v)
    (items : List Value) :
    ((listed (normalItems items)).mapM g).map List.toFinset = (items.mapM g).map List.toFinset := by
  have h := mapM_listed hg items
  revert h
  generalize (listed (normalItems items)).mapM g = x
  generalize items.mapM g = y
  rintro (h | _)
  · exact congrArg some (List.toFinset_eq_of_perm _ _ h)
  · rfl

instance : Relisted (FrozenSet String) where
  ofValue_normal_eq v := by
    cases v with
    | frozenset items => exact toFinset_listed stringIn_normal items
    | _ => rfl

instance : Relisted (FrozenSet (String × String)) where
  ofValue_normal_eq v := by
    cases v with
    | frozenset items => exact toFinset_listed pairIn_normal items
    | _ => rfl

theorem readField_normal [Stored α] [Restored α] [Relisted α] (fields : List (String × Value))
    (name : String) : (readField (normalFields fields) name : Option α) = readField fields name := by
  rw [readField, readField, normalFields_eq, find_map_snd]
  cases Dict.find fields name with
  | none => rfl
  | some v => exact ofValue_normal_eq v

instance : Relisted Evidence where
  ofValue_normal_eq v := by
    cases v with
    | entity t fields =>
      by_cases ht : t = "Evidence"
      · subst ht
        change Evidence.ofFields (normalFields fields) = Evidence.ofFields fields
        simp only [Evidence.ofFields, readField_normal]
      · simp only [Restored.ofValue, Value.normal]
        split
        · next heq => exact absurd (Value.entity.inj heq).1 ht
        · split
          · next heq => exact absurd (Value.entity.inj heq).1 ht
          · rfl
    | _ => rfl

instance : Relisted SemanticEvent where
  ofValue_normal_eq v := by
    cases v with
    | entity t fields =>
      by_cases ht : t = "SemanticEvent"
      · subst ht
        change SemanticEvent.ofFields (normalFields fields) = SemanticEvent.ofFields fields
        simp only [SemanticEvent.ofFields, readField_normal]
      · simp only [Restored.ofValue, Value.normal]
        split
        · next heq => exact absurd (Value.entity.inj heq).1 ht
        · split
          · next heq => exact absurd (Value.entity.inj heq).1 ht
          · rfl
    | _ => rfl

end Relisting

end Cadi
