import Gamewire.Proofs.Schema.WellFormed

/-! How long frames get. A value takes no more bytes than its type says, so that no frame of a checked
message is longer than the memory that it is meant for. -/
namespace Gamewire
set_option autoImplicit false

theorem encodeScalar_length {field : String} {type : FieldType} {p : Primitive} {v : Value}
    {bytes : List UInt8} (h : encodeScalar field type p v = .ok bytes) : bytes.length = p.size := by
  unfold encodeScalar at h
  split at h
  · split at h
    · rename_i hfloat
      cases h
      rw [toLittleEndian_length, hfloat]
      rfl
    · cases h
  · split at h
    · rename_i hbool
      cases h
      rw [hbool]
      rfl
    · cases h
  · split at h
    · split at h
      · cases h
        exact toLittleEndian_length _ _
      · cases h
    · cases h
  · cases h

theorem encodeElements_length {field : String} {type : FieldType} {p : Primitive} {vs : List Value}
    {bytes : List UInt8} (h : encodeElements field type p vs = .ok bytes) :
    bytes.length = p.size * vs.length := by
  induction vs generalizing bytes with
  | nil =>
    cases h
    rfl
  | cons v vs ih =>
    obtain ⟨first, more, hfirst, hmore, rfl⟩ := encodeElements_cons_ok_iff.mp h
    rw [List.length_append, List.length_cons, Nat.mul_succ, encodeScalar_length hfirst, ih hmore]
    exact Nat.add_comm _ _

theorem encodeValue_length_le {field : String} {type : FieldType} {v : Value} {bytes : List UInt8}
    (h : encodeValue field type v = .ok bytes) : bytes.length ≤ type.maxSize := by
  cases type with
  | scalar p => exact (encodeScalar_length h).le
  | text capacity =>
    obtain ⟨s, -, hfits, rfl⟩ := encodeValue_text_ok_iff.mp h
    rw [List.length_cons, Text.utf8Bytes_length, FieldType.maxSize]
    omega
  | array element count =>
    obtain ⟨vs, -, hlength, helements⟩ := encodeValue_array_ok_iff.mp h
    rw [FieldType.maxSize, ← hlength]
    exact (encodeElements_length helements).le

theorem encodeField_length_le {f : FieldSpec} {v? : Option Value} {bytes : List UInt8}
    (h : encodeField f v? = .ok bytes) : bytes.length ≤ f.maxSize := by
  cases v? with
  | none =>
    obtain ⟨hoptional, rfl⟩ := encodeField_none_ok_iff.mp h
    rw [FieldSpec.maxSize, hoptional]
    exact Nat.le_add_left 1 _
  | some v =>
    obtain ⟨body, hbody, rfl⟩ := encodeField_some_ok_iff.mp h
    have hvalue := encodeValue_length_le hbody
    rw [FieldSpec.maxSize]
    split
    · rw [List.length_cons]
      omega
    · exact hvalue

theorem encodeFields_length_le {fs : List FieldSpec} {vs : List (Option Value)} {bytes : List UInt8}
    (h : encodeFields fs vs = .ok bytes) :
    bytes.length ≤ fs.foldr (fun f size => f.maxSize + size) 0 := by
  induction fs generalizing vs bytes with
  | nil =>
    rw [encodeFields] at h
    · cases h
      exact Nat.le_refl 0
    · simp
  | cons f fs ih =>
    cases vs with
    | nil =>
      cases h
      exact Nat.zero_le _
    | cons v vs =>
      obtain ⟨first, more, hfirst, hmore, rfl⟩ := encodeFields_cons_ok_iff.mp h
      have hfield := encodeField_length_le hfirst
      have hrest := ih hmore
      rw [List.length_append, List.foldr_cons]
      omega

theorem MessageSpec.encode_length_le {m : MessageSpec} {msg : Message} {frame : List UInt8}
    (h : m.encode msg = .ok frame) : frame.length ≤ m.maxFrameSize := by
  obtain ⟨-, -, body, hbody, rfl⟩ := MessageSpec.encode_ok_iff.mp h
  have hfields := encodeFields_length_le hbody
  rw [List.length_cons, MessageSpec.maxFrameSize]
  omega

theorem Schema.maxFrameSize_le {s : Schema} {p : Protocol} (h : s.validate = .ok p) {tag : UInt8}
    {m : MessageSpec} (hm : p.ofTag? tag = some m) : m.maxFrameSize ≤ 128 := by
  obtain ⟨d, hd, hbecomes⟩ := Schema.source_of_validate h (List.mem_of_getElem? hm)
  rw [MessageSpec.maxFrameSize, maxSize_of_becomes hbecomes.fields]
  exact hd.fits

end Gamewire
