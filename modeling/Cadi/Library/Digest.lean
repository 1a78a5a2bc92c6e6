import Cadi.Library.Json
import Mathlib.Algebra.Order.Field.Rat
import Mathlib.Algebra.Order.Floor.Semiring
import Mathlib.Data.Rat.Floor
import Mathlib.Tactic.Linarith
import Mathlib.Tactic.Positivity

namespace Library
set_option autoImplicit true

/-- The digest of a hash of 32 bytes. -/
structure Digest where
  bytes : List UInt8
  length_eq : bytes.length = 32

/-- The number of some bytes, the highest first. -/
def fromBytesBig (b : List UInt8) : Nat := b.foldl (fun n c => n * 256 + c.toNat) 0

theorem fromBytesBig_lt (b : List UInt8) : fromBytesBig b < 256 ^ b.length := by
  have hloop (b : List UInt8) (n k : Nat) (h : n < 256 ^ k) :
      b.foldl (fun n c => n * 256 + c.toNat) n < 256 ^ (k + b.length) := by
    induction b generalizing n k with
    | nil => exact h
    | cons c b ih =>
      have hc := c.toNat_lt
      have hstep : n * 256 + c.toNat < 256 ^ (k + 1) := by
        rw [pow_succ]
        omega
      have hrest := ih (n * 256 + c.toNat) (k + 1) hstep
      rw [List.foldl_cons, List.length_cons]
      exact Nat.lt_of_lt_of_eq hrest (congrArg _ (by omega))
  exact Nat.lt_of_lt_of_eq (hloop b 0 0 Nat.one_pos) (congrArg _ (Nat.zero_add _))

/-- The number of the first eight bytes of a digest. -/
def Digest.head64 (d : Digest) : Nat := fromBytesBig (d.bytes.take 8)

theorem Digest.head64_lt (d : Digest) : d.head64 < 2 ^ 64 := by
  have h := fromBytesBig_lt (d.bytes.take 8)
  rwa [List.length_take, d.length_eq] at h

/-- The number of the eight bytes after those. -/
def Digest.next64 (d : Digest) : Nat := fromBytesBig ((d.bytes.drop 8).take 8)

/-- The text of a digest: 64 lowercase hexadecimal digits. -/
def IsSha256 (s : String) : Prop := s.toList.length = 64 ∧ ∀ c ∈ s.toList, c ∈ hexDigits

instance (s : String) : Decidable (IsSha256 s) :=
  @instDecidableAnd _ _ inferInstance (List.decidableBAll (· ∈ hexDigits) s.toList)

/-- The two digits of a byte. -/
def hexOf (b : UInt8) : Text := [hexDigits.getD (b.toNat / 16) '0', hexDigits.getD (b.toNat % 16) '0']

def Digest.hexdigest (d : Digest) : String := String.ofList (d.bytes.flatMap hexOf)

theorem Digest.isSha256_hexdigest (d : Digest) : IsSha256 d.hexdigest := by
  have hmem (i : Nat) : hexDigits.getD i '0' ∈ hexDigits := by
    rw [List.getD_eq_getElem?_getD]
    cases h : hexDigits[i]? with
    | none => decide
    | some c => exact List.mem_of_getElem? h
  constructor
  · rw [hexdigest, String.toList_ofList, List.length_flatMap]
    have hsum : (d.bytes.map fun b => (hexOf b).length) = List.replicate 32 2 := by
      rw [← d.length_eq]
      exact List.eq_replicate_iff.mpr ⟨List.length_map _, fun n hn => by
        obtain ⟨b, -, rfl⟩ := List.mem_map.mp hn
        rfl⟩
    rw [hsum]
    rfl
  · intro c hc
    rw [hexdigest, String.toList_ofList, List.mem_flatMap] at hc
    obtain ⟨b, -, hb⟩ := hc
    rw [hexOf, List.mem_cons, List.mem_singleton] at hb
    rcases hb with rfl | rfl
    · exact hmem _
    · exact hmem _

/-- The fraction of the unit interval that a digest names. -/
def Digest.unit (d : Digest) : ℚ := d.head64 / 2 ^ 64

theorem Digest.unit_nonneg (d : Digest) : 0 ≤ d.unit := by
  unfold Digest.unit
  positivity

theorem Digest.unit_lt_one (d : Digest) : d.unit < 1 := by
  unfold Digest.unit
  rw [div_lt_one (by positivity)]
  exact_mod_cast d.head64_lt

/-- A fraction of a count is a position below it. -/
theorem Digest.floor_lt (d : Digest) {n : Nat} (h : 0 < n) : ⌊d.unit * (n : ℚ)⌋₊ < n := by
  have hn : (0 : ℚ) < n := Nat.cast_pos.mpr h
  rw [Nat.floor_lt (mul_nonneg d.unit_nonneg hn.le)]
  have hlt := d.unit_lt_one
  nlinarith

end Library
