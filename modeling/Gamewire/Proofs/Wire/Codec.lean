import Gamewire.Proofs.Wire.Cursor

/-! Writing and reading are two views of one relation between values and bytes: a reader gives a
value exactly when the bytes that the writer makes of it lie between its two positions. This is
shown level by level, from scalars up to the frames of a protocol. -/
namespace Gamewire
set_option autoImplicit false

/-! ## Scalars -/

theorem range?_eq_none_iff (p : Primitive) : p.range? = none ↔ p = .float ∨ p = .bool := by
  cases p <;> decide

/-- The writer of an integer type: the number has to be in range. -/
theorem encodeScalar_int_ok_iff {field : String} {type : FieldType} {p : Primitive} {n : Int}
    {bytes : List UInt8} :
    encodeScalar field type p (.int n) = .ok bytes ↔
      ∃ min max, p.range? = some (min, max) ∧ (min ≤ n ∧ n ≤ max) ∧
        bytes = toLittleEndian p.size (n % Nat.pow 256 p.size).toNat := by
  simp only [encodeScalar]
  constructor
  · intro h
    split at h
    · rename_i min max hr
      split at h
      · rename_i hn
        cases h
        exact ⟨min, max, hr, hn, rfl⟩
      · cases h
    · cases h
  · rintro ⟨min, max, hr, hn, rfl⟩
    simp only [hr, if_pos hn]

theorem int_of_encodeScalar {field : String} {type : FieldType} {p : Primitive}
    (hp : p.range? ≠ none) {v : Value} {bytes : List UInt8}
    (h : encodeScalar field type p v = .ok bytes) : ∃ n, v = .int n := by
  have hkind := not_or.mp (fun hk => hp ((range?_eq_none_iff p).mpr hk))
  cases v with
  | int n => exact ⟨n, rfl⟩
  | float bits => simp [encodeScalar, hkind.1] at h
  | bool b => simp [encodeScalar, hkind.2] at h
  | text s => simp [encodeScalar] at h
  | array vs => simp [encodeScalar] at h

/-- The reader of an integer type: every run of bytes of its size is a number. -/
theorem decodeScalar_int_ok_iff {p : Primitive} (hp : p.range? ≠ none) {c c' : Cursor} {v : Value} :
    decodeScalar p c = .ok (v, c') ↔
      ∃ bytes, bytes.length = p.size ∧ c.Spans bytes c' ∧ v = .int (p.intOfBytes bytes) := by
  have hkind : p ≠ .float ∧ p ≠ .bool := not_or.mp (fun h => hp ((range?_eq_none_iff p).mpr h))
  unfold decodeScalar
  constructor
  · intro h
    split at h
    · cases h
    · rename_i bytes c₁ htake
      obtain ⟨hlen, hspan⟩ := Cursor.take_ok_iff.mp htake
      cases p <;> simp only [ne_eq, reduceCtorEq, not_true_eq_false, and_false, false_and] at hkind <;>
        cases h <;> exact ⟨bytes, hlen, hspan, rfl⟩
  · rintro ⟨bytes, hlen, hspan, rfl⟩
    rw [Cursor.take_ok_iff.mpr ⟨hlen, hspan⟩]
    cases p <;> first | rfl | exact absurd rfl hkind.1 | exact absurd rfl hkind.2

theorem decodeScalar_float_ok_iff {c c' : Cursor} {v : Value} :
    decodeScalar .float c = .ok (v, c') ↔
      ∃ bits : UInt32, c.Spans (toLittleEndian 4 bits.toNat) c' ∧ v = .float bits := by
  unfold decodeScalar
  constructor
  · intro h
    split at h
    · cases h
    · rename_i bytes c₁ htake
      cases h
      obtain ⟨hlen, hspan⟩ := Cursor.take_ok_iff.mp htake
      refine ⟨UInt32.ofNat (ofLittleEndian bytes), ?_, rfl⟩
      rw [bytes_of_pattern bytes hlen]
      exact hspan
  · rintro ⟨bits, hspan, rfl⟩
    have htake : c.take Primitive.float.size = .ok (toLittleEndian 4 bits.toNat, c') :=
      Cursor.take_ok_iff.mpr ⟨toLittleEndian_length 4 bits.toNat, hspan⟩
    rw [htake]
    simp only [pattern_of_bytes]

theorem decodeScalar_bool_ok_iff {c c' : Cursor} {v : Value} :
    decodeScalar .bool c = .ok (v, c') ↔
      ∃ b : Bool, c.Spans [if b then 1 else 0] c' ∧ v = .bool b := by
  unfold decodeScalar
  constructor
  · intro h
    split at h
    · cases h
    · rename_i bytes c₁ htake
      obtain ⟨-, hspan⟩ := Cursor.take_ok_iff.mp htake
      simp only at h
      split at h
      · cases h
        exact ⟨false, hspan, rfl⟩
      · cases h
        exact ⟨true, hspan, rfl⟩
      · cases h
  · rintro ⟨b, hspan, rfl⟩
    have htake : c.take Primitive.bool.size = .ok ([if b then 1 else 0], c') :=
      Cursor.take_ok_iff.mpr ⟨rfl, hspan⟩
    rw [htake]
    cases b <;> rfl

theorem decodeScalar_ok_iff (field : String) (type : FieldType) {p : Primitive} {c c' : Cursor}
    {v : Value} :
    decodeScalar p c = .ok (v, c') ↔
      ∃ bytes, encodeScalar field type p v = .ok bytes ∧ c.Spans bytes c' := by
  by_cases hp : p.range? = none
  · obtain rfl | rfl := (range?_eq_none_iff p).mp hp
    · rw [decodeScalar_float_ok_iff]
      cases v <;> simp [encodeScalar, hp]
    · rw [decodeScalar_bool_ok_iff]
      cases v <;> simp [encodeScalar, hp]
  · obtain ⟨⟨min, max⟩, hr⟩ := Option.ne_none_iff_exists'.mp hp
    rw [decodeScalar_int_ok_iff hp]
    constructor
    · rintro ⟨bytes, hlen, hspan, rfl⟩
      refine ⟨bytes, encodeScalar_int_ok_iff.mpr ⟨min, max, hr, ?_, ?_⟩, hspan⟩
      · exact Primitive.intOfBytes_range hr hlen
      · exact (Primitive.toLittleEndian_intOfBytes hlen).symm
    · rintro ⟨bytes, henc, hspan⟩
      obtain ⟨n, rfl⟩ := int_of_encodeScalar hp henc
      obtain ⟨min, max, hr, hn, rfl⟩ := encodeScalar_int_ok_iff.mp henc
      refine ⟨_, toLittleEndian_length _ _, hspan, ?_⟩
      rw [Primitive.intOfBytes_toLittleEndian hr hn]

/-! ## Values -/

/-- Two parts are written one behind the other, unless one of them cannot be. -/
theorem append_ok_iff {x y : Except EncodeFault (List UInt8)} {bytes : List UInt8} :
    (match x with
      | .error e => .error e
      | .ok first =>
        match y with
        | .error e => .error e
        | .ok more => .ok (first ++ more)) = Except.ok bytes ↔
      ∃ first more, x = .ok first ∧ y = .ok more ∧ bytes = first ++ more := by
  constructor
  · intro h
    split at h
    · cases h
    · rename_i first
      split at h
      · cases h
      · rename_i more
        cases h
        exact ⟨first, more, rfl, rfl, rfl⟩
  · rintro ⟨first, more, rfl, rfl, rfl⟩
    rfl

theorem encodeElements_cons_ok_iff {field : String} {type : FieldType} {p : Primitive} {v : Value}
    {vs : List Value} {bytes : List UInt8} :
    encodeElements field type p (v :: vs) = .ok bytes ↔
      ∃ first more, encodeScalar field type p v = .ok first ∧
        encodeElements field type p vs = .ok more ∧ bytes = first ++ more := by
  rw [encodeElements]
  exact append_ok_iff

theorem decodeElements_succ_ok_iff {p : Primitive} {count : Nat} {c c' : Cursor}
    {vs : List Value} :
    decodeElements p (count + 1) c = .ok (vs, c') ↔
      ∃ v c₁ ws, decodeScalar p c = .ok (v, c₁) ∧ decodeElements p count c₁ = .ok (ws, c') ∧
        vs = v :: ws := by
  simp only [decodeElements]
  constructor
  · intro h
    split at h
    · cases h
    · rename_i v c₁ hv
      split at h
      · cases h
      · rename_i ws c₂ hws
        cases h
        exact ⟨v, c₁, ws, hv, hws, rfl⟩
  · rintro ⟨v, c₁, ws, hv, hws, rfl⟩
    simp only [hv, hws]

theorem decodeElements_ok_iff (field : String) (type : FieldType) {p : Primitive} {count : Nat}
    {c c' : Cursor} {vs : List Value} :
    decodeElements p count c = .ok (vs, c') ↔
      vs.length = count ∧
        ∃ bytes, encodeElements field type p vs = .ok bytes ∧ c.Spans bytes c' := by
  induction count generalizing c vs with
  | zero =>
    simp only [decodeElements, Except.ok.injEq, Prod.mk.injEq, List.length_eq_zero_iff]
    constructor
    · rintro ⟨rfl, rfl⟩
      exact ⟨rfl, [], rfl, Cursor.Spans.refl c⟩
    · rintro ⟨rfl, bytes, henc, hspan⟩
      cases henc
      exact ⟨rfl, Cursor.spans_nil.mp hspan⟩
  | succ count ih =>
    rw [decodeElements_succ_ok_iff]
    constructor
    · rintro ⟨v, c₁, ws, hv, hws, rfl⟩
      obtain ⟨first, hfirst, hspan⟩ := (decodeScalar_ok_iff field type).mp hv
      obtain ⟨hlen, more, hmore, hspan'⟩ := ih.mp hws
      refine ⟨by rw [List.length_cons, hlen], first ++ more, ?_, hspan.trans hspan'⟩
      exact encodeElements_cons_ok_iff.mpr ⟨first, more, hfirst, hmore, rfl⟩
    · rintro ⟨hlen, bytes, henc, hspan⟩
      obtain ⟨v, ws, rfl⟩ := List.exists_cons_of_length_eq_add_one hlen
      obtain ⟨first, more, hfirst, hmore, rfl⟩ := encodeElements_cons_ok_iff.mp henc
      obtain ⟨c₁, hspan₁, hspan₂⟩ := Cursor.spans_append.mp hspan
      refine ⟨v, c₁, ws, (decodeScalar_ok_iff field type).mpr ⟨first, hfirst, hspan₁⟩, ?_, rfl⟩
      exact ih.mpr ⟨Nat.succ.inj hlen, more, hmore, hspan₂⟩

theorem encodeValue_text_ok_iff {field : String} {capacity : UInt8} {v : Value}
    {bytes : List UInt8} :
    encodeValue field (.text capacity) v = .ok bytes ↔
      ∃ s, v = .text s ∧ s.utf8ByteSize ≤ capacity.toNat ∧
        bytes = UInt8.ofNat s.utf8ByteSize :: Text.utf8Bytes s := by
  cases v with
  | text s =>
    simp only [encodeValue]
    constructor
    · intro h
      split at h
      · cases h
      · rename_i hfits
        cases h
        exact ⟨s, rfl, Nat.not_lt.mp hfits, rfl⟩
    · rintro ⟨_, hs, hfits, rfl⟩
      cases hs
      rw [if_neg (Nat.not_lt.mpr hfits)]
  | _ => simp [encodeValue]

theorem encodeValue_array_ok_iff {field : String} {element : Primitive} {count : UInt8} {v : Value}
    {bytes : List UInt8} :
    encodeValue field (.array element count) v = .ok bytes ↔
      ∃ vs, v = .array vs ∧ vs.length = count.toNat ∧
        encodeElements field (.array element count) element vs = .ok bytes := by
  cases v with
  | array vs =>
    simp only [encodeValue]
    constructor
    · intro h
      split at h
      · rename_i hlen
        exact ⟨vs, rfl, hlen, h⟩
      · cases h
    · rintro ⟨_, hvs, hlen, henc⟩
      cases hvs
      rw [if_pos hlen, henc]
  | _ => simp [encodeValue]

theorem decodeValue_ok_iff (field : String) {type : FieldType} {c c' : Cursor} {v : Value} :
    decodeValue type c = .ok (v, c') ↔
      ∃ bytes, encodeValue field type v = .ok bytes ∧ c.Spans bytes c' := by
  cases type with
  | scalar p =>
    simp only [decodeValue, encodeValue]
    exact decodeScalar_ok_iff field (.scalar p)
  | text capacity =>
    simp only [encodeValue_text_ok_iff, decodeValue]
    constructor
    · intro h
      split at h
      · cases h
      · rename_i s c₁ hs
        cases h
        obtain ⟨hfits, hspan⟩ := (Cursor.text_ok_iff capacity.toNat_lt).mp hs
        exact ⟨_, ⟨s, rfl, hfits, rfl⟩, hspan⟩
    · rintro ⟨_, ⟨s, rfl, hfits, rfl⟩, hspan⟩
      rw [(Cursor.text_ok_iff capacity.toNat_lt).mpr ⟨hfits, hspan⟩]
  | array element count =>
    simp only [encodeValue_array_ok_iff, decodeValue]
    constructor
    · intro h
      split at h
      · cases h
      · rename_i vs c₁ hvs
        cases h
        obtain ⟨hlen, bytes, henc, hspan⟩ :=
          (decodeElements_ok_iff field (.array element count)).mp hvs
        exact ⟨bytes, ⟨vs, rfl, hlen, henc⟩, hspan⟩
    · rintro ⟨bytes, ⟨vs, rfl, hlen, henc⟩, hspan⟩
      rw [(decodeElements_ok_iff field (.array element count)).mpr ⟨hlen, bytes, henc, hspan⟩]

/-! ## Fields -/

theorem encodeField_some_ok_iff {f : FieldSpec} {v : Value} {bytes : List UInt8} :
    encodeField f (some v) = .ok bytes ↔
      ∃ body, encodeValue f.name f.type v = .ok body ∧
        bytes = if f.optional then 1 :: body else body := by
  simp only [encodeField]
  constructor
  · intro h
    split at h
    · rename_i body hbody
      cases h
      exact ⟨body, hbody, rfl⟩
    · cases h
  · rintro ⟨body, hbody, rfl⟩
    simp only [hbody]

theorem encodeField_none_ok_iff {f : FieldSpec} {bytes : List UInt8} :
    encodeField f none = .ok bytes ↔ f.optional = true ∧ bytes = [0] := by
  simp only [encodeField]
  cases f.optional
  · simp
  · simp [eq_comm]

theorem decodePresent_ok_iff (field : String) {type : FieldType} {c c' : Cursor}
    {v? : Option Value} :
    decodePresent type c = .ok (v?, c') ↔
      ∃ v body, v? = some v ∧ encodeValue field type v = .ok body ∧ c.Spans body c' := by
  unfold decodePresent
  constructor
  · intro h
    split at h
    · rename_i v c₁ hv
      cases h
      obtain ⟨body, hbody, hspan⟩ := (decodeValue_ok_iff field).mp hv
      exact ⟨v, body, rfl, hbody, hspan⟩
    · cases h
  · rintro ⟨v, body, rfl, hbody, hspan⟩
    rw [(decodeValue_ok_iff field).mpr ⟨body, hbody, hspan⟩]

theorem decodeField_optional_ok_iff {f : FieldSpec} (hf : f.optional = true) {c c' : Cursor}
    {v? : Option Value} :
    decodeField f c = .ok (v?, c') ↔
      (v? = none ∧ c.Spans [0] c') ∨
        ∃ c₁, c.Spans [1] c₁ ∧ decodePresent f.type c₁ = .ok (v?, c') := by
  unfold decodeField
  rw [if_pos hf]
  constructor
  · intro h
    split at h
    · cases h
    · rename_i mark c₁ hmark
      split at h
      · rename_i hzero
        subst hzero
        cases h
        exact .inl ⟨rfl, Cursor.byte_ok_iff.mp hmark⟩
      · split at h
        · rename_i hone
          subst hone
          exact .inr ⟨c₁, Cursor.byte_ok_iff.mp hmark, h⟩
        · cases h
  · rintro (⟨rfl, hspan⟩ | ⟨c₁, hspan, hv⟩)
    · rw [Cursor.byte_ok_iff.mpr hspan]
      rfl
    · rw [Cursor.byte_ok_iff.mpr hspan]
      exact hv

theorem decodeField_ok_iff {f : FieldSpec} {c c' : Cursor} {v? : Option Value} :
    decodeField f c = .ok (v?, c') ↔ ∃ bytes, encodeField f v? = .ok bytes ∧ c.Spans bytes c' := by
  by_cases hf : f.optional = true
  · rw [decodeField_optional_ok_iff hf]
    constructor
    · rintro (⟨rfl, hspan⟩ | ⟨c₁, hspan, hv⟩)
      · exact ⟨[0], encodeField_none_ok_iff.mpr ⟨hf, rfl⟩, hspan⟩
      · obtain ⟨v, body, rfl, hbody, hspan'⟩ := (decodePresent_ok_iff f.name).mp hv
        refine ⟨1 :: body, encodeField_some_ok_iff.mpr ⟨body, hbody, ?_⟩, ?_⟩
        · rw [if_pos hf]
        · exact Cursor.spans_cons.mpr ⟨c₁, hspan, hspan'⟩
    · rintro ⟨bytes, henc, hspan⟩
      cases v? with
      | none =>
        obtain ⟨-, rfl⟩ := encodeField_none_ok_iff.mp henc
        exact .inl ⟨rfl, hspan⟩
      | some v =>
        obtain ⟨body, hbody, rfl⟩ := encodeField_some_ok_iff.mp henc
        rw [if_pos hf] at hspan
        obtain ⟨c₁, hmark, hrest⟩ := Cursor.spans_cons.mp hspan
        exact .inr ⟨c₁, hmark, (decodePresent_ok_iff f.name).mpr ⟨v, body, rfl, hbody, hrest⟩⟩
  · unfold decodeField
    rw [if_neg hf, decodePresent_ok_iff f.name]
    constructor
    · rintro ⟨v, body, rfl, hbody, hspan⟩
      refine ⟨body, encodeField_some_ok_iff.mpr ⟨body, hbody, ?_⟩, hspan⟩
      rw [if_neg hf]
    · rintro ⟨bytes, henc, hspan⟩
      cases v? with
      | none => exact absurd (encodeField_none_ok_iff.mp henc).1 hf
      | some v =>
        obtain ⟨body, hbody, rfl⟩ := encodeField_some_ok_iff.mp henc
        rw [if_neg hf] at hspan
        exact ⟨v, body, rfl, hbody, hspan⟩

theorem encodeFields_cons_ok_iff {f : FieldSpec} {fs : List FieldSpec} {v? : Option Value}
    {vs : List (Option Value)} {bytes : List UInt8} :
    encodeFields (f :: fs) (v? :: vs) = .ok bytes ↔
      ∃ first more, encodeField f v? = .ok first ∧ encodeFields fs vs = .ok more ∧
        bytes = first ++ more := by
  rw [encodeFields]
  exact append_ok_iff

theorem decodeFields_cons_ok_iff {f : FieldSpec} {fs : List FieldSpec} {c c' : Cursor}
    {vs : List (Option Value)} :
    decodeFields (f :: fs) c = .ok (vs, c') ↔
      ∃ v? c₁ ws, decodeField f c = .ok (v?, c₁) ∧ decodeFields fs c₁ = .ok (ws, c') ∧
        vs = v? :: ws := by
  simp only [decodeFields]
  constructor
  · intro h
    split at h
    · cases h
    · rename_i v? c₁ hv
      split at h
      · cases h
      · rename_i ws c₂ hws
        cases h
        exact ⟨v?, c₁, ws, hv, hws, rfl⟩
  · rintro ⟨v?, c₁, ws, hv, hws, rfl⟩
    simp only [hv, hws]

theorem decodeFields_ok_iff {fs : List FieldSpec} {c c' : Cursor} {vs : List (Option Value)} :
    decodeFields fs c = .ok (vs, c') ↔
      vs.length = fs.length ∧ ∃ bytes, encodeFields fs vs = .ok bytes ∧ c.Spans bytes c' := by
  induction fs generalizing c vs with
  | nil =>
    simp only [decodeFields, Except.ok.injEq, Prod.mk.injEq, List.length_nil,
      List.length_eq_zero_iff]
    constructor
    · rintro ⟨rfl, rfl⟩
      exact ⟨rfl, [], rfl, Cursor.Spans.refl c⟩
    · rintro ⟨rfl, bytes, henc, hspan⟩
      cases henc
      exact ⟨rfl, Cursor.spans_nil.mp hspan⟩
  | cons f fs ih =>
    rw [decodeFields_cons_ok_iff]
    constructor
    · rintro ⟨v?, c₁, ws, hv, hws, rfl⟩
      obtain ⟨first, hfirst, hspan⟩ := decodeField_ok_iff.mp hv
      obtain ⟨hlen, more, hmore, hspan'⟩ := ih.mp hws
      refine ⟨by rw [List.length_cons, List.length_cons, hlen], first ++ more, ?_,
        hspan.trans hspan'⟩
      exact encodeFields_cons_ok_iff.mpr ⟨first, more, hfirst, hmore, rfl⟩
    · rintro ⟨hlen, bytes, henc, hspan⟩
      obtain ⟨v?, ws, rfl⟩ := List.exists_cons_of_length_eq_add_one hlen
      obtain ⟨first, more, hfirst, hmore, rfl⟩ := encodeFields_cons_ok_iff.mp henc
      obtain ⟨c₁, hspan₁, hspan₂⟩ := Cursor.spans_append.mp hspan
      refine ⟨v?, c₁, ws, decodeField_ok_iff.mpr ⟨first, hfirst, hspan₁⟩, ?_, rfl⟩
      exact ih.mpr ⟨Nat.succ.inj hlen, more, hmore, hspan₂⟩

/-! ## Frames -/

namespace MessageSpec

theorem encode_ok_iff {m : MessageSpec} {msg : Message} {frame : List UInt8} :
    m.encode msg = .ok frame ↔
      msg.tag = m.tag ∧ msg.fields.length = m.fields.length ∧
        ∃ bytes, encodeFields m.fields msg.fields = .ok bytes ∧ frame = m.tag :: bytes := by
  unfold encode
  constructor
  · intro h
    split at h
    · cases h
    · rename_i htag
      split at h
      · cases h
      · rename_i hlen
        split at h
        · rename_i bytes hbytes
          cases h
          exact ⟨Decidable.not_not.mp htag, Decidable.not_not.mp hlen, bytes, hbytes, rfl⟩
        · cases h
  · rintro ⟨htag, hlen, bytes, hbytes, rfl⟩
    rw [if_neg (not_not_intro htag), if_neg (not_not_intro hlen), hbytes]

/-- The reader of a message gives exactly the messages that its writer makes the frame of. -/
theorem decode_ok_iff {m : MessageSpec} {msg : Message} {frame : List UInt8} :
    m.decode frame = .ok msg ↔ m.encode msg = .ok frame := by
  rw [encode_ok_iff]
  unfold decode
  constructor
  · intro h
    split at h
    · cases h
    · rename_i tag c htag
      split at h
      · cases h
      · rename_i hsame
        split at h
        · cases h
        · rename_i fields c' hfields
          split at h
          · rename_i hfinish
            cases h
            obtain ⟨hlen, bytes, hbytes, hspan⟩ := decodeFields_ok_iff.mp hfields
            have hframe : frame = [tag] ++ (bytes ++ c'.rest) := by
              have h₁ : frame = [tag] ++ c.rest := (Cursor.byte_ok_iff.mp htag).1
              rw [h₁, hspan.1]
            rw [Cursor.finish_ok_iff.mp hfinish, List.append_nil] at hframe
            have htags : tag = m.tag := Decidable.not_not.mp hsame
            refine ⟨htags, hlen, bytes, hbytes, ?_⟩
            rw [hframe, htags]
            rfl
          · cases h
  · rintro ⟨htag, hlen, bytes, hbytes, rfl⟩
    have hspan : (Cursor.start (m.tag :: bytes)).Spans [m.tag] ⟨1, bytes⟩ := ⟨rfl, rfl⟩
    have hspan' : Cursor.Spans ⟨1, bytes⟩ bytes ⟨1 + bytes.length, []⟩ :=
      ⟨(List.append_nil bytes).symm, rfl⟩
    rw [Cursor.byte_ok_iff.mpr hspan]
    simp only [ne_eq, not_true_eq_false, if_false]
    rw [decodeFields_ok_iff.mpr ⟨hlen, bytes, hbytes, hspan'⟩]
    simp only [Cursor.finish_ok_iff.mpr]
    rw [← htag]

end MessageSpec

namespace Protocol

theorem encode_ok_iff {p : Protocol} {msg : Message} {frame : List UInt8} :
    p.encode msg = .ok frame ↔ ∃ m, p.ofTag? msg.tag = some m ∧ m.encode msg = .ok frame := by
  unfold encode
  constructor
  · intro h
    split at h
    · rename_i m hm
      exact ⟨m, hm, h⟩
    · cases h
  · rintro ⟨m, hm, henc⟩
    rw [hm]
    exact henc

/-- The reader of a protocol gives exactly the messages that its writer makes the frame of. -/
theorem decode_ok_iff {p : Protocol} {msg : Message} {frame : List UInt8} :
    p.decode frame = .ok msg ↔ p.encode msg = .ok frame := by
  rw [encode_ok_iff]
  constructor
  · intro h
    unfold decode at h
    split at h
    · cases h
    · rename_i tag bytes
      split at h
      · rename_i m hm
        have henc := MessageSpec.decode_ok_iff.mp h
        obtain ⟨htag, -, body, -, hframe⟩ := MessageSpec.encode_ok_iff.mp henc
        have hhead : msg.tag = tag := by rw [htag]; exact (List.cons.inj hframe).1.symm
        exact ⟨m, by rw [hhead]; exact hm, henc⟩
      · cases h
  · rintro ⟨m, hm, henc⟩
    obtain ⟨htag, -, body, -, rfl⟩ := MessageSpec.encode_ok_iff.mp henc
    unfold decode
    rw [htag] at hm
    simp only [hm]
    exact MessageSpec.decode_ok_iff.mpr henc

end Protocol

end Gamewire
