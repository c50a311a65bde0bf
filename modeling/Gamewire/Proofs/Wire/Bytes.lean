import Gamewire.Wire.Codec
import Mathlib.Algebra.Group.Nat.Defs

/-! Numbers and texts as bytes, in both directions. Bytes of a fixed width and numbers below a power
of 256 are the same thing, and so are well-formed bytes and texts. -/
namespace Gamewire
set_option autoImplicit false

/-! ## Little-endian numbers -/

theorem toLittleEndian_length (width n : Nat) : (toLittleEndian width n).length = width := by
  induction width generalizing n with
  | zero => rfl
  | succ width ih => rw [toLittleEndian, List.length_cons, ih]

theorem ofLittleEndian_toLittleEndian (width n : Nat) :
    ofLittleEndian (toLittleEndian width n) = n % 256 ^ width := by
  induction width generalizing n with
  | zero => rw [Nat.pow_zero, Nat.mod_one]; rfl
  | succ width ih =>
    have hbyte : (UInt8.ofNat (n % 256)).toNat = n % 256 := by simp
    rw [toLittleEndian, ofLittleEndian, ih, hbyte, Nat.pow_succ', Nat.mod_mul]

theorem ofLittleEndian_lt (bytes : List UInt8) : ofLittleEndian bytes < 256 ^ bytes.length := by
  induction bytes with
  | nil => decide
  | cons b bytes ih =>
    have hb : b.toNat < 256 := b.toNat_lt
    rw [ofLittleEndian, List.length_cons, Nat.pow_succ]
    omega

theorem toLittleEndian_ofLittleEndian (bytes : List UInt8) :
    toLittleEndian bytes.length (ofLittleEndian bytes) = bytes := by
  induction bytes with
  | nil => rfl
  | cons b bytes ih =>
    have hb : b.toNat < 256 := b.toNat_lt
    have hlow : (b.toNat + 256 * ofLittleEndian bytes) % 256 = b.toNat := by omega
    have hhigh : (b.toNat + 256 * ofLittleEndian bytes) / 256 = ofLittleEndian bytes := by omega
    rw [ofLittleEndian, List.length_cons, toLittleEndian, hlow, hhigh, ih, UInt8.ofNat_toNat]

/-- A binary32 pattern survives its four bytes. -/
theorem pattern_of_bytes (bits : UInt32) :
    UInt32.ofNat (ofLittleEndian (toLittleEndian 4 bits.toNat)) = bits := by
  have hb : bits.toNat < 2 ^ 32 := bits.toNat_lt
  rw [ofLittleEndian_toLittleEndian, Nat.mod_eq_of_lt (by omega), UInt32.ofNat_toNat]

theorem bytes_of_pattern (bytes : List UInt8) (h : bytes.length = 4) :
    toLittleEndian 4 (UInt32.ofNat (ofLittleEndian bytes)).toNat = bytes := by
  have hlt := ofLittleEndian_lt bytes
  rw [h] at hlt
  rw [UInt32.toNat_ofNat_of_lt' (by simpa using hlt), ← h, toLittleEndian_ofLittleEndian]

/-! ## Integers of a type -/

namespace Primitive

/-- An integer of the range of its type is the one that its bytes stand for. -/
theorem intOfBytes_toLittleEndian {p : Primitive} {min max n : Int}
    (hr : p.range? = some (min, max)) (hn : min ≤ n ∧ n ≤ max) :
    p.intOfBytes (toLittleEndian p.size (n % Nat.pow 256 p.size).toNat) = n := by
  unfold intOfBytes
  rw [ofLittleEndian_toLittleEndian]
  cases p <;> simp only [range?, Option.some.injEq, Prod.mk.injEq, reduceCtorEq] at hr <;>
    simp only [isSigned, size, if_true, Bool.false_eq_true, if_false, Int.bmod_def, Nat.pow_eq,
      Nat.reducePow] <;> omega

theorem intOfBytes_range {p : Primitive} {min max : Int} {bytes : List UInt8}
    (hr : p.range? = some (min, max)) (hb : bytes.length = p.size) :
    min ≤ p.intOfBytes bytes ∧ p.intOfBytes bytes ≤ max := by
  have hlt := ofLittleEndian_lt bytes
  rw [hb] at hlt
  unfold intOfBytes
  cases p <;> simp only [range?, Option.some.injEq, Prod.mk.injEq, reduceCtorEq] at hr <;>
    simp only [isSigned, size, if_true, Bool.false_eq_true, if_false, Int.bmod_def, Nat.pow_eq,
      Nat.reducePow] at hlt ⊢ <;> omega

theorem toLittleEndian_intOfBytes {p : Primitive} {bytes : List UInt8}
    (hb : bytes.length = p.size) :
    toLittleEndian p.size (p.intOfBytes bytes % Nat.pow 256 p.size).toNat = bytes := by
  have hlt := ofLittleEndian_lt bytes
  rw [hb] at hlt
  have hn : (p.intOfBytes bytes % Nat.pow 256 p.size).toNat = ofLittleEndian bytes := by
    unfold intOfBytes
    cases p <;>
      simp only [isSigned, size, if_true, Bool.false_eq_true, if_false, Int.bmod_def, Nat.pow_eq,
      Nat.reducePow] at hlt ⊢ <;> omega
  rw [hn, ← hb, toLittleEndian_ofLittleEndian]

end Primitive

/-! ## Texts -/

namespace Text

theorem utf8Bytes_length (s : String) : (utf8Bytes s).length = s.utf8ByteSize := by
  rw [utf8Bytes, Array.length_toList, ← String.size_toByteArray]
  rfl

theorem ofUtf8?_utf8Bytes (s : String) : ofUtf8? (utf8Bytes s) = some s := by
  have hs : ofUtf8? (utf8Bytes s) = String.fromUTF8? s.toByteArray := rfl
  rw [hs, String.fromUTF8?, dif_pos s.isValidUTF8]
  rfl

theorem utf8Bytes_of_ofUtf8? {bytes : List UInt8} {s : String} (h : ofUtf8? bytes = some s) :
    utf8Bytes s = bytes := by
  unfold ofUtf8? String.fromUTF8? at h
  split at h
  · cases h
    rfl
  · cases h

end Text

end Gamewire
