import Mathlib.Data.List.Basic
import Mathlib.Algebra.Group.Nat.Defs

namespace Library
set_option autoImplicit true

/-- A number as four bytes, the highest first. -/
def packU32 (n : Nat) : ByteArray :=
  [UInt8.ofNat (n / 2 ^ 24), UInt8.ofNat (n / 2 ^ 16), UInt8.ofNat (n / 2 ^ 8),
    UInt8.ofNat n].toByteArray

/-- The number of four bytes, the highest first. -/
def unpackU32 (b : ByteArray) : Nat := b.data.toList.foldl (fun n c => n * 256 + c.toNat) 0

theorem packU32_size (n : Nat) : (packU32 n).size = 4 := List.size_toByteArray

theorem unpackU32_toByteArray (a b c d : UInt8) :
    unpackU32 [a, b, c, d].toByteArray =
      ((a.toNat * 256 + b.toNat) * 256 + c.toNat) * 256 + d.toNat := by
  simp only [unpackU32, List.data_toByteArray, List.foldl_cons, List.foldl_nil, Nat.zero_mul,
    Nat.zero_add]

theorem unpackU32_packU32 (h : n < 2 ^ 32) : unpackU32 (packU32 n) = n := by
  rw [packU32, unpackU32_toByteArray]
  simp only [UInt8.toNat_ofNat']
  omega

theorem packU32_unpackU32 (h : b.size = 4) : packU32 (unpackU32 b) = b := by
  obtain ⟨⟨l⟩⟩ := b
  obtain ⟨a, b, c, d, rfl⟩ := List.length_eq_four.mp h
  have hbytes : (ByteArray.mk ⟨[a, b, c, d]⟩) = [a, b, c, d].toByteArray := by
    rw [ByteArray.ext_iff, List.data_toByteArray]
  have ha := a.toNat_lt
  have hb := b.toNat_lt
  have hc := c.toNat_lt
  have hd := d.toNat_lt
  have hbyte (m : Nat) (x : UInt8) (hm : m % 256 = x.toNat) : UInt8.ofNat m = x := by
    rw [← UInt8.toNat_inj, UInt8.toNat_ofNat', hm]
  rw [hbytes, unpackU32_toByteArray, packU32, hbyte _ a (by omega), hbyte _ b (by omega),
    hbyte _ c (by omega), hbyte _ d (by omega)]

theorem fromUTF8?_toUTF8 (s : String) : String.fromUTF8? s.toUTF8 = some s := by
  have hvalid : s.toUTF8.IsValidUTF8 := s.isValidUTF8
  rw [String.fromUTF8?, dif_pos hvalid]
  rfl

end Library
