import Gamewire.Text.Utf8
import Mathlib.Data.String.Basic
import Mathlib.Data.List.Infix

/-! Texts that are cut to a number of bytes. What is kept ends with a character, and no more could be kept;
since a character takes at most four bytes, at most three of those allowed are given away. -/
namespace Gamewire.Text
set_option autoImplicit false

/-- What is kept of a text of which `limit` bytes are allowed: everything up to the last end of a
character within the limit. -/
structure Cut (limit : Nat) (s head : String) : Prop where
  starts : ∃ rest, s = head ++ rest
  fits : head.utf8ByteSize ≤ limit
  longest : ∀ k ≤ limit, String.Pos.Raw.IsValid s ⟨k⟩ → k ≤ head.utf8ByteSize

/-- Goes back from a number of bytes to the end of a character. -/
def lastBoundary (s : String) : Nat → Nat
  | 0 => 0
  | k + 1 => if String.Pos.Raw.isValid s ⟨k + 1⟩ then k + 1 else lastBoundary s k

/-! ## Characters -/

variable {max : Nat} {cs : List Char}

theorem utf8ByteSize_replicate (n : Nat) (c : Char) :
    (String.ofList (List.replicate n c)).utf8ByteSize = n * c.utf8Size := by
  rw [String.utf8ByteSize_ofList]
  induction n with
  | zero => exact (Nat.zero_mul _).symm
  | succ n ih => rw [List.replicate_succ, String.utf8Len_cons, ih, Nat.succ_mul]

theorem takeBytes_isPrefix (max : Nat) (cs : List Char) : takeBytes max cs <+: cs := by
  induction cs generalizing max with
  | nil => exact List.prefix_rfl
  | cons c cs ih =>
    rw [takeBytes]
    split
    · exact List.cons_prefix_cons.mpr ⟨rfl, ih _⟩
    · exact List.nil_prefix

theorem utf8Len_takeBytes_le (max : Nat) (cs : List Char) :
    String.utf8Len (takeBytes max cs) ≤ max := by
  induction cs generalizing max with
  | nil => exact Nat.zero_le max
  | cons c cs ih =>
    rw [takeBytes]
    split
    · have hrest := ih (max - c.utf8Size)
      rw [String.utf8Len_cons]
      omega
    · exact Nat.zero_le max

/-- Whatever the text starts with and fits is kept. -/
theorem utf8Len_le_takeBytes {head : List Char} (h : head <+: cs)
    (hfits : String.utf8Len head ≤ max) : String.utf8Len head ≤ String.utf8Len (takeBytes max cs) := by
  induction head generalizing cs max with
  | nil => exact Nat.zero_le _
  | cons c head ih =>
    obtain ⟨cs', rfl, hhead⟩ := List.cons_prefix_iff.mp h
    rw [String.utf8Len_cons] at hfits
    have hrest : String.utf8Len head ≤ String.utf8Len (takeBytes (max - c.utf8Size) cs') :=
      ih hhead (by omega)
    rw [takeBytes, if_pos (by omega), String.utf8Len_cons, String.utf8Len_cons]
    omega

/-- The first character that is left out does not fit any more. -/
theorem lt_utf8Len_takeBytes (h : max < String.utf8Len cs) :
    max < String.utf8Len (takeBytes max cs) + 4 := by
  induction cs generalizing max with
  | nil => exact absurd h (Nat.not_lt_zero max)
  | cons c cs ih =>
    have hwidth := c.utf8Size_le_four
    rw [String.utf8Len_cons] at h
    rw [takeBytes]
    split
    · have hrest : max - c.utf8Size < String.utf8Len (takeBytes (max - c.utf8Size) cs) + 4 :=
        ih (by omega)
      rw [String.utf8Len_cons]
      omega
    · rw [String.utf8Len_nil]
      omega

/-! ## Texts -/

variable {limit : Nat} {s head : String}

theorem truncateBytes_of_le (h : s.utf8ByteSize ≤ limit) : truncateBytes limit s = s := if_pos h

theorem cut_truncateBytes (limit : Nat) (s : String) : Cut limit s (truncateBytes limit s) := by
  by_cases h : s.utf8ByteSize ≤ limit
  · rw [truncateBytes_of_le h]
    exact ⟨⟨"", (String.append_empty).symm⟩, h, fun k _ hk => hk.le_rawEndPos⟩
  rw [truncateBytes, if_neg h]
  refine ⟨?_, ?_, ?_⟩
  · obtain ⟨rest, hrest⟩ := takeBytes_isPrefix limit s.toList
    refine ⟨String.ofList rest, ?_⟩
    rw [← String.ofList_append, hrest, String.ofList_toList]
  · rw [String.utf8ByteSize_ofList]
    exact utf8Len_takeBytes_le limit s.toList
  · intro k hk hvalid
    -- a boundary is where the text can be taken apart
    obtain ⟨before, after, hs, hpos⟩ := String.Pos.Raw.isValid_iff_exists_append.mp hvalid
    have hsize : k = String.utf8Len before.toList := by
      rw [← String.utf8ByteSize_ofList, String.ofList_toList]
      exact congrArg String.Pos.Raw.byteIdx hpos
    have hstarts : before.toList <+: s.toList := ⟨after.toList, by rw [hs, String.toList_append]⟩
    rw [String.utf8ByteSize_ofList, hsize]
    exact utf8Len_le_takeBytes hstarts (hsize ▸ hk)

theorem Cut.isValid (h : Cut limit s head) : String.Pos.Raw.IsValid s ⟨head.utf8ByteSize⟩ := by
  obtain ⟨rest, hrest⟩ := h.starts
  exact String.Pos.Raw.isValid_iff_exists_append.mpr ⟨head, rest, hrest, rfl⟩

theorem lt_truncateBytes (h : limit < s.utf8ByteSize) :
    limit < (truncateBytes limit s).utf8ByteSize + 4 := by
  rw [truncateBytes, if_neg (not_le.mpr h), String.utf8ByteSize_ofList]
  refine lt_utf8Len_takeBytes ?_
  rwa [← String.utf8ByteSize_ofList, String.ofList_toList]

/-- Going back from the limit finds the end of what is kept. -/
theorem Cut.lastBoundary_eq (h : Cut limit s head) : lastBoundary s limit = head.utf8ByteSize := by
  have hend := h.isValid
  have hfits := h.fits
  have hlongest := h.longest
  clear h
  induction limit with
  | zero => exact (Nat.le_zero.mp hfits).symm
  | succ limit ih =>
    rw [lastBoundary]
    split
    · rename_i hvalid
      exact le_antisymm (hlongest _ le_rfl (String.Pos.Raw.isValid_eq_true_iff.mp hvalid)) hfits
    · rename_i hinside
      have hne : head.utf8ByteSize ≠ limit + 1 := by
        intro hsize
        rw [hsize] at hend
        exact hinside (String.Pos.Raw.isValid_eq_true_iff.mpr hend)
      exact ih (by omega) fun k hk => hlongest k (by omega)

end Gamewire.Text
