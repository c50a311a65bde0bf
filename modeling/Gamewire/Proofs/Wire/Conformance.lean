import Gamewire.Proofs.Wire.Tags

/-! Which messages can be written. The writer takes exactly the messages that conform to the definition
under their tag, and of any other it says what is wrong first: the tag, the number of fields, or the first
field that holds something else than a value of its type. -/
namespace Gamewire
set_option autoImplicit false

/-! ## Values of a type -/

/-- The kinds of values, which are also those of types. -/
inductive Kind where
  | int
  | float
  | bool
  | text
  | array
deriving DecidableEq

def Value.kind : Value → Kind
  | .int _ => .int
  | .float _ => .float
  | .bool _ => .bool
  | .text _ => .text
  | .array _ => .array

def Primitive.kind : Primitive → Kind
  | .float => .float
  | .bool => .bool
  | _ => .int

def FieldType.kind : FieldType → Kind
  | .scalar p => p.kind
  | .text _ => .text
  | .array _ _ => .array

/-- An integer type holds the integers of its range. -/
inductive Primitive.Holds : Primitive → Value → Prop
  | int {p : Primitive} {min max n : Int} (range : p.range? = some (min, max)) (lower : min ≤ n)
      (upper : n ≤ max) : Holds p (.int n)
  | float (bits : UInt32) : Holds .float (.float bits)
  | bool (b : Bool) : Holds .bool (.bool b)

inductive FieldType.Holds : FieldType → Value → Prop
  | scalar {p : Primitive} {v : Value} (value : p.Holds v) : Holds (.scalar p) v
  | text {capacity : UInt8} {s : String} (fits : s.utf8ByteSize ≤ capacity.toNat) :
      Holds (.text capacity) (.text s)
  | array {element : Primitive} {count : UInt8} {vs : List Value} (length : vs.length = count.toNat)
      (values : ∀ v ∈ vs, element.Holds v) : Holds (.array element count) (.array vs)

/-- Only an optional field may be absent. -/
inductive FieldSpec.Takes (f : FieldSpec) : Option Value → Prop
  | absent (optional : f.optional = true) : Takes f none
  | present {v : Value} (value : f.type.Holds v) : Takes f (some v)

structure MessageSpec.Takes (m : MessageSpec) (msg : Message) : Prop where
  tag : m.tag = msg.tag
  count : msg.fields.length = m.fields.length
  fields : ∀ x ∈ m.fields.zip msg.fields, x.1.Takes x.2

/-! ## What is wrong -/

/-- The fault is that of the first element that is not taken. -/
def FirstFault {α : Type} (Takes : α → Prop) (Refuses : α → EncodeFault → Prop) (xs : List α)
    (fault : EncodeFault) : Prop :=
  ∃ before x after, xs = before ++ x :: after ∧ (∀ y ∈ before, Takes y) ∧ Refuses x fault

/-- What is wrong with a value where the field `field`, whose whole type is `type`, has a scalar. -/
inductive Primitive.Refuses (field : String) (type : FieldType) :
    Primitive → Value → EncodeFault → Prop
  | kind {p : Primitive} {v : Value} (other : v.kind ≠ p.kind) :
      Refuses field type p v (.typeMismatch field type)
  | range {p : Primitive} {min max n : Int} (range : p.range? = some (min, max))
      (outside : n < min ∨ max < n) : Refuses field type p (.int n) (.outOfRange field n)

/-- What is wrong with a value of the field `field`. The elements of an array count only when there are
as many as there should be. -/
inductive FieldType.Refuses (field : String) : FieldType → Value → EncodeFault → Prop
  | scalar {p : Primitive} {v : Value} {fault : EncodeFault}
      (value : p.Refuses field (.scalar p) v fault) : Refuses field (.scalar p) v fault
  | notText {capacity : UInt8} {v : Value} (other : v.kind ≠ .text) :
      Refuses field (.text capacity) v (.typeMismatch field (.text capacity))
  | tooLong {capacity : UInt8} {s : String} (long : capacity.toNat < s.utf8ByteSize) :
      Refuses field (.text capacity) (.text s) (.stringTooLong field capacity.toNat s.utf8ByteSize)
  | notArray {element : Primitive} {count : UInt8} {v : Value} (other : v.kind ≠ .array) :
      Refuses field (.array element count) v (.typeMismatch field (.array element count))
  | length {element : Primitive} {count : UInt8} {vs : List Value} (other : vs.length ≠ count.toNat) :
      Refuses field (.array element count) (.array vs) (.arrayLength field count.toNat vs.length)
  | element {element : Primitive} {count : UInt8} {vs : List Value} {fault : EncodeFault}
      (length : vs.length = count.toNat)
      (first : FirstFault element.Holds (element.Refuses field (.array element count)) vs fault) :
      Refuses field (.array element count) (.array vs) fault

inductive FieldSpec.Refuses (f : FieldSpec) : Option Value → EncodeFault → Prop
  | missing (required : f.optional = false) : Refuses f none (.missingField f.name)
  | value {v : Value} {fault : EncodeFault} (value : f.type.Refuses f.name v fault) :
      Refuses f (some v) fault

/-- What is wrong with a message: its tag before the number of its fields, and that before what the
fields hold. -/
inductive Protocol.Refuses (p : Protocol) (msg : Message) : EncodeFault → Prop
  | tag (unknown : ∀ m ∈ p.messages, m.tag ≠ msg.tag) : Refuses p msg (.unknownTag msg.tag)
  | count {m : MessageSpec} (mem : m ∈ p.messages) (tag : m.tag = msg.tag)
      (other : msg.fields.length ≠ m.fields.length) :
      Refuses p msg (.fieldCount m.fields.length msg.fields.length)
  | field {m : MessageSpec} {fault : EncodeFault} (mem : m ∈ p.messages) (tag : m.tag = msg.tag)
      (count : msg.fields.length = m.fields.length)
      (first : FirstFault (fun x => x.1.Takes x.2) (fun x => FieldSpec.Refuses x.1 x.2)
        (m.fields.zip msg.fields) fault) :
      Refuses p msg fault

section FirstFault

variable {α : Type} {Takes : α → Prop} {Refuses : α → EncodeFault → Prop} {fault : EncodeFault}

theorem firstFault_nil : ¬ FirstFault Takes Refuses [] fault := by
  rintro ⟨before, x, after, hsplit, -⟩
  exact List.append_ne_nil_of_right_ne_nil before (List.cons_ne_nil x after) hsplit.symm

theorem firstFault_cons {x : α} {xs : List α} :
    FirstFault Takes Refuses (x :: xs) fault ↔
      Refuses x fault ∨ (Takes x ∧ FirstFault Takes Refuses xs fault) := by
  constructor
  · rintro ⟨before, y, after, hsplit, hbefore, hy⟩
    cases before with
    | nil =>
      cases hsplit
      exact .inl hy
    | cons z before =>
      cases hsplit
      obtain ⟨hx, hbefore⟩ := List.forall_mem_cons.mp hbefore
      exact .inr ⟨hx, before, y, after, rfl, hbefore, hy⟩
  · rintro (hx | ⟨hx, before, y, after, rfl, hbefore, hy⟩)
    · exact ⟨[], x, xs, rfl, List.forall_mem_nil _, hx⟩
    · exact ⟨x :: before, y, after, rfl, List.forall_mem_cons.mpr ⟨hx, hbefore⟩, hy⟩

end FirstFault

theorem exists_append_iff {P Q : List UInt8 → Prop} :
    (∃ bytes first more, P first ∧ Q more ∧ bytes = first ++ more) ↔
      (∃ first, P first) ∧ ∃ more, Q more := by
  constructor
  · rintro ⟨_, first, more, hfirst, hmore, -⟩
    exact ⟨⟨first, hfirst⟩, more, hmore⟩
  · rintro ⟨⟨first, hfirst⟩, more, hmore⟩
    exact ⟨_, first, more, hfirst, hmore, rfl⟩

/-- Of two parts that are written one behind the other, the fault of the first comes first. -/
theorem append_error_iff {x y : Except EncodeFault (List UInt8)} {fault : EncodeFault} :
    (match x with
      | .error e => .error e
      | .ok first =>
        match y with
        | .error e => .error e
        | .ok more => .ok (first ++ more)) = Except.error fault ↔
      x = .error fault ∨ ((∃ first, x = .ok first) ∧ y = .error fault) := by
  cases x with
  | error e => simp
  | ok first => cases y <;> simp

/-! ## Scalars -/

variable {field : String} {type : FieldType} {p : Primitive} {v : Value} {vs : List Value}
  {fault : EncodeFault}

theorem kind_eq_int_iff : p.kind = .int ↔ ∃ min max, p.range? = some (min, max) := by
  cases p <;> simp [Primitive.kind, Primitive.range?]

theorem kind_eq_float_iff : p.kind = .float ↔ p = .float := by
  cases p <;> simp [Primitive.kind]

theorem kind_eq_bool_iff : p.kind = .bool ↔ p = .bool := by
  cases p <;> simp [Primitive.kind]

/-- A value of the wrong kind is refused as such by every scalar. -/
theorem encodeScalar_of_kind_ne (h : v.kind ≠ p.kind) :
    encodeScalar field type p v = .error (.typeMismatch field type) := by
  cases v with
  | int n =>
    have hrange : p.range? = none := by
      cases hr : p.range? with
      | none => rfl
      | some range => exact absurd (kind_eq_int_iff.mpr ⟨range.1, range.2, hr⟩).symm h
    simp only [encodeScalar, hrange]
  | float bits =>
    have hp : p ≠ .float := fun hp => h (kind_eq_float_iff.mpr hp).symm
    simp only [encodeScalar, if_neg hp]
  | bool b =>
    have hp : p ≠ .bool := fun hp => h (kind_eq_bool_iff.mpr hp).symm
    simp only [encodeScalar, if_neg hp]
  | text s => rfl
  | array vs => rfl

theorem encodeScalar_exists_ok_iff :
    (∃ bytes, encodeScalar field type p v = .ok bytes) ↔ p.Holds v := by
  constructor
  · rintro ⟨bytes, h⟩
    have hkind : v.kind = p.kind := by
      by_contra hne
      rw [encodeScalar_of_kind_ne hne] at h
      cases h
    cases v with
    | int n =>
      obtain ⟨min, max, hrange, ⟨hmin, hmax⟩, -⟩ := encodeScalar_int_ok_iff.mp h
      exact .int hrange hmin hmax
    | float bits =>
      obtain rfl := kind_eq_float_iff.mp hkind.symm
      exact .float bits
    | bool b =>
      obtain rfl := kind_eq_bool_iff.mp hkind.symm
      exact .bool b
    | text s => cases h
    | array vs => cases h
  · intro h
    cases h with
    | int hrange hmin hmax =>
      exact ⟨_, encodeScalar_int_ok_iff.mpr ⟨_, _, hrange, ⟨hmin, hmax⟩, rfl⟩⟩
    | float bits => exact ⟨_, rfl⟩
    | bool b => exact ⟨_, rfl⟩

theorem encodeScalar_error_iff :
    encodeScalar field type p v = .error fault ↔ p.Refuses field type v fault := by
  constructor
  · intro h
    by_cases hkind : v.kind = p.kind
    · cases v with
      | int n =>
        obtain ⟨min, max, hrange⟩ := kind_eq_int_iff.mp hkind.symm
        by_cases hn : min ≤ n ∧ n ≤ max
        · simp [encodeScalar, hrange, hn] at h
        · simp only [encodeScalar, hrange, if_neg hn, Except.error.injEq] at h
          subst h
          exact .range hrange (by omega)
      | float bits =>
        obtain rfl := kind_eq_float_iff.mp hkind.symm
        cases h
      | bool b =>
        obtain rfl := kind_eq_bool_iff.mp hkind.symm
        cases h
      | text s => cases p <;> cases hkind
      | array vs => cases p <;> cases hkind
    · rw [encodeScalar_of_kind_ne hkind] at h
      cases h
      exact .kind hkind
  · intro h
    cases h with
    | kind hother => exact encodeScalar_of_kind_ne hother
    | @range min max n hrange houtside =>
      have hn : ¬ (min ≤ n ∧ n ≤ max) := by omega
      simp only [encodeScalar, hrange, if_neg hn]

/-! ## Values -/

theorem encodeElements_exists_ok_iff :
    (∃ bytes, encodeElements field type p vs = .ok bytes) ↔ ∀ v ∈ vs, p.Holds v := by
  induction vs with
  | nil => exact iff_of_true ⟨[], rfl⟩ (List.forall_mem_nil _)
  | cons v vs ih =>
    simp only [encodeElements_cons_ok_iff, exists_append_iff, encodeScalar_exists_ok_iff, ih,
      List.forall_mem_cons]

theorem encodeElements_cons_error_iff :
    encodeElements field type p (v :: vs) = .error fault ↔
      encodeScalar field type p v = .error fault ∨
        ((∃ first, encodeScalar field type p v = .ok first) ∧
          encodeElements field type p vs = .error fault) := by
  rw [encodeElements]
  exact append_error_iff

theorem encodeElements_error_iff :
    encodeElements field type p vs = .error fault ↔
      FirstFault p.Holds (p.Refuses field type) vs fault := by
  induction vs with
  | nil => exact iff_of_false (by simp [encodeElements]) firstFault_nil
  | cons v vs ih =>
    rw [encodeElements_cons_error_iff, encodeScalar_error_iff, encodeScalar_exists_ok_iff, ih,
      firstFault_cons]

theorem encodeValue_exists_ok_iff :
    (∃ bytes, encodeValue field type v = .ok bytes) ↔ type.Holds v := by
  cases type with
  | scalar p =>
    simp only [encodeValue, encodeScalar_exists_ok_iff]
    exact ⟨.scalar, fun h => by cases h; assumption⟩
  | text capacity =>
    simp only [encodeValue_text_ok_iff]
    constructor
    · rintro ⟨_, s, rfl, hfits, -⟩
      exact .text hfits
    · intro h
      cases h with
      | text hfits => exact ⟨_, _, rfl, hfits, rfl⟩
  | array element count =>
    simp only [encodeValue_array_ok_iff]
    constructor
    · rintro ⟨bytes, vs, rfl, hlength, henc⟩
      exact .array hlength (encodeElements_exists_ok_iff.mp ⟨bytes, henc⟩)
    · intro h
      cases h with
      | array hlength hvalues =>
        obtain ⟨bytes, henc⟩ := encodeElements_exists_ok_iff.mpr hvalues
        exact ⟨bytes, _, rfl, hlength, henc⟩

theorem encodeText_error_iff {capacity : UInt8} :
    encodeValue field (.text capacity) v = .error fault ↔
      FieldType.Refuses field (.text capacity) v fault := by
  constructor
  · intro h
    cases v with
    | text s =>
      simp only [encodeValue] at h
      split at h
      · rename_i hlong
        cases h
        exact .tooLong hlong
      · cases h
    | _ =>
      cases h
      exact .notText (by rintro ⟨⟩)
  · intro h
    cases h with
    | notText hother =>
      cases v with
      | text s => exact absurd rfl hother
      | _ => rfl
    | tooLong hlong => simp only [encodeValue, if_pos hlong]

theorem encodeArray_error_iff {element : Primitive} {count : UInt8} :
    encodeValue field (.array element count) v = .error fault ↔
      FieldType.Refuses field (.array element count) v fault := by
  constructor
  · intro h
    cases v with
    | array vs =>
      simp only [encodeValue] at h
      split at h
      · rename_i hlength
        exact .element hlength (encodeElements_error_iff.mp h)
      · rename_i hlength
        cases h
        exact .length hlength
    | _ =>
      cases h
      exact .notArray (by rintro ⟨⟩)
  · intro h
    cases h with
    | notArray hother =>
      cases v with
      | array vs => exact absurd rfl hother
      | _ => rfl
    | length hother => simp only [encodeValue, if_neg hother]
    | element hlength hfirst =>
      simp only [encodeValue, if_pos hlength]
      exact encodeElements_error_iff.mpr hfirst

theorem encodeValue_error_iff :
    encodeValue field type v = .error fault ↔ type.Refuses field v fault := by
  cases type with
  | scalar p =>
    rw [encodeValue, encodeScalar_error_iff]
    exact ⟨.scalar, fun h => by cases h; assumption⟩
  | text capacity => exact encodeText_error_iff
  | array element count => exact encodeArray_error_iff

/-! ## Fields -/

variable {f : FieldSpec} {v? : Option Value} {fs : List FieldSpec} {vs? : List (Option Value)}

theorem encodeField_exists_ok_iff : (∃ bytes, encodeField f v? = .ok bytes) ↔ f.Takes v? := by
  cases v? with
  | none =>
    simp only [encodeField_none_ok_iff]
    constructor
    · rintro ⟨_, hoptional, -⟩
      exact .absent hoptional
    · intro h
      cases h with
      | absent hoptional => exact ⟨[0], hoptional, rfl⟩
  | some v =>
    simp only [encodeField_some_ok_iff]
    constructor
    · rintro ⟨_, body, hbody, -⟩
      exact .present (encodeValue_exists_ok_iff.mp ⟨body, hbody⟩)
    · intro h
      cases h with
      | present hv =>
        obtain ⟨body, hbody⟩ := encodeValue_exists_ok_iff.mpr hv
        exact ⟨_, body, hbody, rfl⟩

theorem encodeField_error_iff : encodeField f v? = .error fault ↔ f.Refuses v? fault := by
  cases v? with
  | none =>
    simp only [encodeField]
    cases hoptional : f.optional with
    | true =>
      refine iff_of_false (by simp) fun h => ?_
      cases h with
      | missing hrequired =>
        rw [hoptional] at hrequired
        cases hrequired
    | false =>
      constructor
      · intro h
        cases h
        exact .missing hoptional
      · intro h
        cases h
        rfl
  | some v =>
    have hvalue : f.Refuses (some v) fault ↔ f.type.Refuses f.name v fault :=
      ⟨fun h => by cases h; assumption, .value⟩
    rw [hvalue, ← encodeValue_error_iff, encodeField]
    cases encodeValue f.name f.type v <;> simp

theorem encodeFields_exists_ok_iff :
    (∃ bytes, encodeFields fs vs? = .ok bytes) ↔ ∀ x ∈ fs.zip vs?, x.1.Takes x.2 := by
  induction fs generalizing vs? with
  | nil => exact iff_of_true ⟨[], rfl⟩ (List.forall_mem_nil _)
  | cons f fs ih =>
    cases vs? with
    | nil => exact iff_of_true ⟨[], rfl⟩ (List.forall_mem_nil _)
    | cons v? vs? =>
      simp only [encodeFields_cons_ok_iff, exists_append_iff, encodeField_exists_ok_iff, ih,
        List.zip_cons_cons, List.forall_mem_cons]

theorem encodeFields_cons_error_iff :
    encodeFields (f :: fs) (v? :: vs?) = .error fault ↔
      encodeField f v? = .error fault ∨
        ((∃ first, encodeField f v? = .ok first) ∧ encodeFields fs vs? = .error fault) := by
  rw [encodeFields]
  exact append_error_iff

theorem encodeFields_error_iff :
    encodeFields fs vs? = .error fault ↔
      FirstFault (fun x => x.1.Takes x.2) (fun x => FieldSpec.Refuses x.1 x.2) (fs.zip vs?) fault := by
  induction fs generalizing vs? with
  | nil => exact iff_of_false (by simp [encodeFields]) firstFault_nil
  | cons f fs ih =>
    cases vs? with
    | nil => exact iff_of_false (by simp [encodeFields]) firstFault_nil
    | cons v? vs? =>
      rw [encodeFields_cons_error_iff, encodeField_error_iff, encodeField_exists_ok_iff, ih,
        List.zip_cons_cons, firstFault_cons]

/-! ## Messages -/

namespace MessageSpec

variable {m : MessageSpec} {msg : Message}

theorem encode_exists_ok_iff : (∃ frame, m.encode msg = .ok frame) ↔ m.Takes msg := by
  simp only [encode_ok_iff]
  constructor
  · rintro ⟨_, htag, hcount, bytes, hbytes, -⟩
    exact ⟨htag.symm, hcount, encodeFields_exists_ok_iff.mp ⟨bytes, hbytes⟩⟩
  · intro h
    obtain ⟨bytes, hbytes⟩ := encodeFields_exists_ok_iff.mpr h.fields
    exact ⟨_, h.tag.symm, h.count, bytes, hbytes, rfl⟩

/-- Under its own tag a message refuses another number of fields, or the first field that it does not
take. -/
theorem encode_error_iff (htag : m.tag = msg.tag) :
    m.encode msg = .error fault ↔
      (msg.fields.length ≠ m.fields.length ∧
        fault = .fieldCount m.fields.length msg.fields.length) ∨
      (msg.fields.length = m.fields.length ∧
        FirstFault (fun x => x.1.Takes x.2) (fun x => FieldSpec.Refuses x.1 x.2)
          (m.fields.zip msg.fields) fault) := by
  rw [encode, if_neg (not_not_intro htag.symm), ← encodeFields_error_iff]
  by_cases hcount : msg.fields.length = m.fields.length
  · rw [if_neg (not_not_intro hcount)]
    simp only [hcount, ne_eq, not_true_eq_false, false_and, true_and, false_or]
    cases encodeFields m.fields msg.fields <;> simp
  · rw [if_pos hcount]
    simp only [hcount, ne_eq, not_false_eq_true, true_and, false_and, or_false, Except.error.injEq]
    exact eq_comm

end MessageSpec

namespace Schema

variable {s : Schema} {p : Protocol}

theorem encode_exists_ok_iff (h : s.validate = .ok p) (msg : Message) :
    (∃ frame, p.encode msg = .ok frame) ↔ ∃ m ∈ p.messages, m.Takes msg := by
  have hindexed := indexed_of_validate h
  simp only [Protocol.encode_ok_iff]
  constructor
  · rintro ⟨frame, m, hm, henc⟩
    exact ⟨m, ((hindexed.ofTag_iff _ _).mp hm).1, MessageSpec.encode_exists_ok_iff.mp ⟨frame, henc⟩⟩
  · rintro ⟨m, hm, htakes⟩
    obtain ⟨frame, henc⟩ := MessageSpec.encode_exists_ok_iff.mpr htakes
    exact ⟨frame, m, (hindexed.ofTag_iff _ _).mpr ⟨hm, htakes.tag⟩, henc⟩

theorem encode_error_iff (h : s.validate = .ok p) (msg : Message) :
    p.encode msg = .error fault ↔ p.Refuses msg fault := by
  have hindexed := indexed_of_validate h
  unfold Protocol.encode
  cases hm : p.ofTag? msg.tag with
  | none =>
    have hunknown : ∀ m ∈ p.messages, m.tag ≠ msg.tag := by
      intro m hmem htag
      rw [(hindexed.ofTag_iff _ _).mpr ⟨hmem, htag⟩] at hm
      cases hm
    constructor
    · intro herror
      cases herror
      exact .tag hunknown
    · intro herror
      cases herror with
      | tag _ => rfl
      | count hmem htag _ => exact absurd htag (hunknown _ hmem)
      | field hmem htag _ _ => exact absurd htag (hunknown _ hmem)
  | some m =>
    obtain ⟨hmem, htag⟩ := (hindexed.ofTag_iff _ _).mp hm
    -- no other message has the tag
    have hunique : ∀ m' ∈ p.messages, m'.tag = msg.tag → m' = m := by
      intro m' hmem' htag'
      have hm' := (hindexed.ofTag_iff _ _).mpr ⟨hmem', htag'⟩
      rw [hm] at hm'
      exact (Option.some.inj hm').symm
    simp only [MessageSpec.encode_error_iff htag]
    constructor
    · rintro (⟨hcount, rfl⟩ | ⟨hcount, hfirst⟩)
      · exact .count hmem htag hcount
      · exact .field hmem htag hcount hfirst
    · intro herror
      cases herror with
      | tag hunknown => exact absurd htag (hunknown m hmem)
      | count hmem' htag' hcount =>
        obtain rfl := hunique _ hmem' htag'
        exact .inl ⟨hcount, rfl⟩
      | field hmem' htag' hcount hfirst =>
        obtain rfl := hunique _ hmem' htag'
        exact .inr ⟨hcount, hfirst⟩

/-- Exactly the messages that conform can be written. Of any other, exactly one thing is said to be wrong,
which is the first in the order of tag, number of fields and fields. -/
theorem encode_conforming (h : s.validate = .ok p) (msg : Message) :
    ((∃ frame, p.encode msg = .ok frame) ↔ ∃ m ∈ p.messages, m.Takes msg) ∧
      ∀ fault, p.encode msg = .error fault ↔ p.Refuses msg fault :=
  ⟨encode_exists_ok_iff h msg, fun _ => encode_error_iff h msg⟩

/-- The text is too long by a byte, and behind it the second element of the array is out of range. -/
def spoiledMessage : Message :=
  ⟨1, [some (.int 7), some (.float 0), some (.text "aé!?"), none,
    some (.array [.int 127, .int 128])]⟩

theorem encode_conforming_arcadeSchema :
    arcadeSchema.validate = .ok arcadeProtocol ∧
      (∃ m ∈ arcadeProtocol.messages, m.Takes arcadeMessage) ∧
      arcadeProtocol.encode spoiledMessage = .error (.stringTooLong "nick" 4 5) := by
  refine ⟨arcadeSchema_validate, ?_, ?_⟩
  · exact (encode_conforming arcadeSchema_validate arcadeMessage).1.mp ⟨_, arcadeMessage_encode⟩
  · refine ((encode_conforming arcadeSchema_validate spoiledMessage).2 _).mpr ?_
    refine .field (List.mem_cons_of_mem _ List.mem_cons_self) rfl rfl
      ⟨_ :: _ :: [], _, _, rfl, ?_, .value (.tooLong (by decide))⟩
    rw [List.forall_mem_cons, List.forall_mem_cons]
    exact ⟨.present (.scalar (.int rfl (by decide) (by decide))), .present (.scalar (.float 0)),
      List.forall_mem_nil _⟩

end Schema

end Gamewire
