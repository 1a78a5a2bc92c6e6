import Cadi.Library.Combinations
import Mathlib.Algebra.BigOperators.Group.List.Basic

namespace Cadi
open Library
set_option autoImplicit true

/-- What the polynomial features raise. -/
inductive MatrixError where
  | valueError (message : String)
  | indexError
  | runtimeError (message : String)
deriving DecidableEq

section Powers

/-- How often each feature is chosen. -/
def exponents (featureCount : Nat) (indices : List Nat) : List Nat :=
  indices.foldl (fun exponents index => exponents.modify index (· + 1)) (List.replicate featureCount 0)

/-- The rows for checked arguments; `combinations` are choices without repetition. -/
def polynomialPowers (featureCount degree : Nat) (interactionOnly includeBias : Bool) :
    List (List Nat) :=
  (if includeBias then [List.replicate featureCount 0] else []) ++
    (List.range' 1 degree).flatMap fun totalDegree =>
      (choices (!interactionOnly) totalDegree (List.range featureCount)).map (exponents featureCount)

def sourcePolynomialPowers (featureCount degree : Int) (interactionOnly includeBias : Bool) :
    Except MatrixError (List (List Nat)) :=
  if featureCount ≤ 0 then .error (.valueError "feature_count must be positive")
  else if degree < 1 then .error (.valueError "degree must be a positive integer")
  else .ok (polynomialPowers featureCount.toNat degree.toNat interactionOnly includeBias)

end Powers

section Matrix
variable {R : Type}

/-- A matrix by its columns; what `np.empty` leaves unset is absent. -/
abbrev Columns (R : Type) := List (Option (List R))

def Columns.slice (m : Columns R) (start stop : Nat) : Columns R := (m.drop start).take (stop - start)

/-- Writing a block over a slice of columns, which must be as wide. -/
def Columns.assign (m : Columns R) (start stop : Nat) (block : Columns R) :
    Except MatrixError (Columns R) :=
  if stop ≤ m.length ∧ block.length = stop - start then
    .ok (m.take start ++ block ++ m.drop stop)
  else .error (.valueError "operands could not be broadcast together")

/-- Subscription of a list by a position. -/
def nth (l : List Nat) (i : Nat) : Except MatrixError Nat :=
  match l[i]? with
  | some v => .ok v
  | none => .error .indexError

/-- The local variables of the loop over the features. -/
structure Filling (R : Type) where
  columns : Columns R
  currentCol : Nat
  newIndex : List Nat

variable [Mul R]

/-- Each column of the block times the column of a feature. -/
def timesColumn (block : Columns R) (x : List R) : Columns R :=
  block.map (Option.map fun column => List.zipWith (· * ·) column x)

/-- The loop over the features for one degree. -/
def fillDegree (x : List (List R)) (interactionOnly : Bool) (index : List Nat) (stop : Nat) :
    List Nat → Filling R → Except MatrixError (Filling R)
  | [], s => .ok s
  | feature :: features, s => do
    let first ← nth index feature
    let newIndex := s.newIndex ++ [s.currentCol]
    let start ←
      if interactionOnly then do
        let next ← nth index (feature + 1)
        pure (first + next - first)
      else pure first
    let nextCol := s.currentCol + stop - start
    -- the block of the feature is empty, and so are those of the features after it
    if nextCol ≤ s.currentCol then .ok { s with newIndex }
    else do
      let columns ← s.columns.assign s.currentCol nextCol
        (timesColumn (s.columns.slice start stop) (x.getD feature []))
      fillDegree x interactionOnly index stop features ⟨columns, nextCol, newIndex⟩

/-- The loop over the degrees from the second on; it also returns the number of columns filled. -/
def fillDegrees (x : List (List R)) (interactionOnly : Bool) :
    Nat → Columns R → Nat → List Nat → Except MatrixError (Columns R × Nat)
  | 0, columns, currentCol, _ => .ok (columns, currentCol)
  | rounds + 1, columns, currentCol, index => do
    let stop ← nth index (index.length - 1)
    let s ← fillDegree x interactionOnly index stop (List.range x.length) ⟨columns, currentCol, []⟩
    fillDegrees x interactionOnly rounds s.columns s.currentCol (s.newIndex ++ [s.currentCol])

/-- The checks of the rows; `width` is that of the rows before. -/
def checkRows (width : Option Nat) : List (List R) → Except MatrixError Unit
  | [] => .ok ()
  | row :: rows =>
    if row = [] then .error (.valueError "feature rows must be non-empty")
    else if ∃ w ∈ width, row.length ≠ w then
      .error (.valueError "feature rows must have equal width")
    else checkRows (some (width.getD row.length)) rows

def sourceDensePolynomialMatrix [One R] (featureRows : List (List R)) (degree : Int)
    (interactionOnly includeBias : Bool) : Except MatrixError (Columns R) := do
  checkRows none featureRows
  match featureRows with
  | [] => .error (.valueError "feature_rows must contain at least one row")
  | row :: _ => do
    let powers ← sourcePolynomialPowers row.length degree interactionOnly includeBias
    let x := (List.range row.length).map fun column => featureRows.filterMap (·[column]?)
    let columns : Columns R := List.replicate powers.length none
    let (columns, currentCol) ←
      if includeBias then do
        let columns ← columns.assign 0 1 [some (featureRows.map fun _ => 1)]
        pure (columns, 1)
      else pure (columns, 0)
    let columns ← columns.assign currentCol (currentCol + row.length) (x.map some)
    let index := List.range' currentCol (row.length + 1)
    let (columns, currentCol) ← fillDegrees x interactionOnly (degree - 1).toNat columns
      (currentCol + row.length) index
    if currentCol ≠ powers.length then
      .error (.runtimeError "source polynomial construction disagrees with powers")
    else .ok columns

end Matrix

end Cadi
