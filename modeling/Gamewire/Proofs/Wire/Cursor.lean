import Gamewire.Proofs.Wire.Bytes

/-! What lies between two positions of a reader. Each reading step succeeds exactly when the bytes
that it asks for lie there, so reading is put in terms of the bytes read. -/
namespace Gamewire.Cursor
set_option autoImplicit false

/-- Reading `bytes` from `c` leads to `c'`. -/
def Spans (c : Cursor) (bytes : List UInt8) (c' : Cursor) : Prop :=
  c.rest = bytes ++ c'.rest ∧ c'.offset = c.offset + bytes.length

theorem Spans.refl (c : Cursor) : c.Spans [] c := ⟨rfl, rfl⟩

theorem spans_nil {c c' : Cursor} : c.Spans [] c' ↔ c = c' := by
  constructor
  · rintro ⟨hr, ho⟩
    cases c
    cases c'
    simp only [List.nil_append, List.length_nil, Nat.add_zero] at hr ho
    rw [hr, ho]
  · rintro rfl
    exact Spans.refl c

theorem Spans.trans {c c' c'' : Cursor} {first second : List UInt8} (h : c.Spans first c')
    (h' : c'.Spans second c'') : c.Spans (first ++ second) c'' := by
  refine ⟨?_, ?_⟩
  · rw [h.1, h'.1, List.append_assoc]
  · rw [h'.2, h.2, List.length_append, Nat.add_assoc]

theorem spans_append {c c'' : Cursor} {first second : List UInt8} :
    c.Spans (first ++ second) c'' ↔ ∃ c', c.Spans first c' ∧ c'.Spans second c'' := by
  constructor
  · rintro ⟨hr, ho⟩
    refine ⟨⟨c.offset + first.length, second ++ c''.rest⟩, ⟨?_, rfl⟩, rfl, ?_⟩
    · rw [hr, List.append_assoc]
    · rw [ho, List.length_append, Nat.add_assoc]
  · rintro ⟨c', h, h'⟩
    exact h.trans h'

theorem spans_cons {c c'' : Cursor} {b : UInt8} {bytes : List UInt8} :
    c.Spans (b :: bytes) c'' ↔ ∃ c', c.Spans [b] c' ∧ c'.Spans bytes c'' := by
  rw [← spans_append, List.singleton_append]

/-! ## Steps -/

theorem take_ok_iff {n : Nat} {c c' : Cursor} {bytes : List UInt8} :
    c.take n = .ok (bytes, c') ↔ bytes.length = n ∧ c.Spans bytes c' := by
  unfold take
  constructor
  · intro h
    split at h
    · cases h
    · cases h
      have hlen : (c.rest.take n).length = n := by rw [List.length_take]; omega
      refine ⟨hlen, (List.take_append_drop n c.rest).symm, ?_⟩
      rw [hlen]
  · rintro ⟨rfl, hr, ho⟩
    have hlen : ¬ c.rest.length < bytes.length := by rw [hr, List.length_append]; omega
    rw [if_neg hlen, hr, List.take_left, List.drop_left, ← ho]

theorem byte_ok_iff {c c' : Cursor} {b : UInt8} : c.byte = .ok (b, c') ↔ c.Spans [b] c' := by
  obtain ⟨offset, rest⟩ := c
  obtain ⟨offset', rest'⟩ := c'
  cases rest with
  | nil => simp [byte, Spans]
  | cons x rest =>
    simp only [byte, Spans, Except.ok.injEq, Prod.mk.injEq, mk.injEq, List.singleton_append,
      List.cons.injEq, List.length_singleton]
    constructor
    · rintro ⟨hb, ho, hr⟩
      exact ⟨⟨hb, hr⟩, ho.symm⟩
    · rintro ⟨⟨hb, hr⟩, ho⟩
      exact ⟨hb, ho.symm, hr⟩

/-- A text is read exactly when its length byte and its bytes lie there. -/
theorem text_ok_iff {capacity : Nat} {c c' : Cursor} {s : String} (hcap : capacity < 256) :
    c.text capacity = .ok (s, c') ↔
      s.utf8ByteSize ≤ capacity ∧
        c.Spans (UInt8.ofNat s.utf8ByteSize :: Text.utf8Bytes s) c' := by
  unfold text
  constructor
  · intro h
    split at h
    · cases h
    · rename_i length c₁ hbyte
      split at h
      · cases h
      · rename_i hfits
        split at h
        · cases h
        · rename_i bytes c₂ htake
          split at h
          · rename_i s' hutf
            cases h
            obtain ⟨hlen, hspan⟩ := take_ok_iff.mp htake
            have hbytes := Text.utf8Bytes_of_ofUtf8? hutf
            have hsize : s.utf8ByteSize = length.toNat := by
              rw [← Text.utf8Bytes_length, hbytes, hlen]
            refine ⟨by omega, ?_⟩
            rw [hsize, UInt8.ofNat_toNat, hbytes]
            exact spans_cons.mpr ⟨c₁, byte_ok_iff.mp hbyte, hspan⟩
          · cases h
  · rintro ⟨hfits, hspan⟩
    obtain ⟨c₁, hlength, hbytes⟩ := spans_cons.mp hspan
    have hsize : (UInt8.ofNat s.utf8ByteSize).toNat = s.utf8ByteSize :=
      UInt8.toNat_ofNat_of_lt' (by simpa using Nat.lt_of_le_of_lt hfits hcap)
    rw [byte_ok_iff.mpr hlength]
    simp only [hsize, if_neg (Nat.not_lt.mpr hfits)]
    rw [take_ok_iff.mpr ⟨Text.utf8Bytes_length s, hbytes⟩]
    simp only [Text.ofUtf8?_utf8Bytes]

theorem finish_ok_iff {c : Cursor} : c.finish = .ok () ↔ c.rest = [] := by
  unfold finish
  cases c.rest with
  | nil => simp
  | cons b rest => simp

end Gamewire.Cursor
