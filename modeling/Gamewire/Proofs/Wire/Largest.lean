import Gamewire.Proofs.Schema.Report
import Gamewire.Proofs.Text.Truncation
import Gamewire.Proofs.Wire.Conformance
import Gamewire.Proofs.Wire.Size

/-! The size that a definition gives to the frames of a message is the size of the largest of them: every
frame takes at most so many bytes, and one takes just as many. A definition is therefore refused for its
size exactly when a message that conforms to it does not fit. -/
namespace Gamewire
set_option autoImplicit false

/-! ## Largest messages -/

/-- Any value will do, as all values of a scalar take the same number of bytes. -/
def Primitive.zero : Primitive → Value
  | .float => .float 0
  | .bool => .bool false
  | _ => .int 0

def FieldType.largest : FieldType → Value
  | .scalar p => p.zero
  | .text capacity => .text (String.ofList (List.replicate capacity.toNat 'a'))
  | .array element count => .array (List.replicate count.toNat element.zero)

/-- Every field is there and holds a largest value of its type. -/
def MessageSpec.largest (m : MessageSpec) : Message :=
  ⟨m.tag, m.fields.map fun f => some f.type.largest⟩

theorem Primitive.holds_zero (p : Primitive) : p.Holds p.zero := by
  cases p with
  | float => exact .float 0
  | bool => exact .bool false
  | _ => exact .int rfl (by decide) (by decide)

theorem size_text_largest (n : Nat) : (String.ofList (List.replicate n 'a')).utf8ByteSize = n :=
  (Text.utf8ByteSize_replicate n 'a').trans (Nat.mul_one n)

theorem FieldType.holds_largest (type : FieldType) : type.Holds type.largest := by
  cases type with
  | scalar p => exact .scalar p.holds_zero
  | text capacity => exact .text (size_text_largest capacity.toNat).le
  | array element count =>
    refine .array List.length_replicate fun v hv => ?_
    rw [List.eq_of_mem_replicate hv]
    exact element.holds_zero

theorem MessageSpec.takes_map {m : MessageSpec} {value : FieldSpec → Option Value}
    (h : ∀ f : FieldSpec, f.Takes (value f)) : m.Takes ⟨m.tag, m.fields.map value⟩ where
  tag := rfl
  count := List.length_map _
  fields := by
    rw [List.zip_map_right, List.forall_mem_map]
    intro x hx
    obtain ⟨f, hf⟩ : ∃ f : FieldSpec, x = (f, f) := by
      obtain ⟨i, hi⟩ := List.mem_iff_getElem?.mp hx
      rw [List.getElem?_zip_eq_some] at hi
      exact ⟨x.1, Prod.ext rfl (Option.some.inj (hi.2.symm.trans hi.1))⟩
    rw [hf]
    exact h f

theorem MessageSpec.takes_largest (m : MessageSpec) : m.Takes m.largest :=
  takes_map fun f => FieldSpec.Takes.present f.type.holds_largest

/-! ## Their frames -/

theorem encodeValue_largest_length {field : String} {type : FieldType} {bytes : List UInt8}
    (h : encodeValue field type type.largest = .ok bytes) : bytes.length = type.maxSize := by
  cases type with
  | scalar p => exact encodeScalar_length h
  | text capacity =>
    obtain ⟨s, hs, -, rfl⟩ := encodeValue_text_ok_iff.mp h
    cases hs
    rw [List.length_cons, Text.utf8Bytes_length, size_text_largest, FieldType.maxSize]
    exact Nat.add_comm _ _
  | array element count =>
    obtain ⟨vs, hvs, hlength, helements⟩ := encodeValue_array_ok_iff.mp h
    rw [encodeElements_length helements, hlength, FieldType.maxSize]

theorem encodeField_largest_length {f : FieldSpec} {bytes : List UInt8}
    (h : encodeField f (some f.type.largest) = .ok bytes) : bytes.length = f.maxSize := by
  obtain ⟨body, hbody, rfl⟩ := encodeField_some_ok_iff.mp h
  have hvalue := encodeValue_largest_length hbody
  rw [FieldSpec.maxSize, ← hvalue]
  split
  · exact List.length_cons
  · rfl

theorem encodeFields_largest_length {fs : List FieldSpec} {bytes : List UInt8}
    (h : encodeFields fs (fs.map fun f => some f.type.largest) = .ok bytes) :
    bytes.length = fs.foldr (fun f size => f.maxSize + size) 0 := by
  induction fs generalizing bytes with
  | nil =>
    cases h
    rfl
  | cons f fs ih =>
    obtain ⟨first, more, hfirst, hmore, rfl⟩ := encodeFields_cons_ok_iff.mp h
    rw [List.length_append, List.foldr_cons, encodeField_largest_length hfirst, ih hmore]

theorem MessageSpec.encode_largest (m : MessageSpec) :
    ∃ frame, m.encode m.largest = .ok frame ∧ frame.length = m.maxFrameSize := by
  obtain ⟨frame, henc⟩ := encode_exists_ok_iff.mpr m.takes_largest
  obtain ⟨-, -, body, hbody, rfl⟩ := encode_ok_iff.mp henc
  refine ⟨_, henc, ?_⟩
  rw [List.length_cons, encodeFields_largest_length hbody, maxFrameSize]
  exact Nat.add_comm _ _

/-- Some message that conforms takes more bytes than there are, if the largest does. -/
theorem MessageSpec.exists_longer_iff {m : MessageSpec} {limit : Nat} :
    (∃ msg frame, m.encode msg = .ok frame ∧ limit < frame.length) ↔ limit < m.maxFrameSize := by
  constructor
  · rintro ⟨msg, frame, henc, hlong⟩
    exact hlong.trans_le (encode_length_le henc)
  · intro hlong
    obtain ⟨frame, henc, hlength⟩ := m.encode_largest
    exact ⟨m.largest, frame, henc, hlength ▸ hlong⟩

/-- Among the messages under a tag, the largest frame that is written or read is of this size. -/
structure LargestFrame (encode : Message → Except EncodeFault (List UInt8))
    (decode : List UInt8 → Except DecodeFault Message) (tag : UInt8) (size : Nat) : Prop where
  written : ∀ msg frame, encode msg = .ok frame → msg.tag = tag → frame.length ≤ size
  read : ∀ frame msg, decode frame = .ok msg → msg.tag = tag → frame.length ≤ size
  reached : ∃ msg frame, encode msg = .ok frame ∧ decode frame = .ok msg ∧ msg.tag = tag ∧
    frame.length = size

theorem MessageSpec.largestFrame (m : MessageSpec) :
    LargestFrame m.encode m.decode m.tag m.maxFrameSize where
  written _ _ henc _ := encode_length_le henc
  read _ _ hdec _ := encode_length_le (decode_ok_iff.mp hdec)
  reached := by
    obtain ⟨frame, henc, hlength⟩ := m.encode_largest
    exact ⟨m.largest, frame, henc, decode_ok_iff.mpr henc, rfl, hlength⟩

theorem Protocol.largestFrame {p : Protocol} {m : MessageSpec} (h : p.ofTag? m.tag = some m) :
    LargestFrame p.encode p.decode m.tag m.maxFrameSize := by
  have henc : ∀ msg frame, msg.tag = m.tag →
      (p.encode msg = .ok frame ↔ m.encode msg = .ok frame) := by
    intro msg frame htag
    rw [encode, htag, h]
  refine ⟨?_, ?_, ?_⟩
  · intro msg frame hp htag
    exact MessageSpec.encode_length_le ((henc msg frame htag).mp hp)
  · intro frame msg hp htag
    exact MessageSpec.encode_length_le ((henc msg frame htag).mp (decode_ok_iff.mp hp))
  · obtain ⟨frame, hframe, hlength⟩ := m.encode_largest
    have hp := (henc m.largest frame rfl).mpr hframe
    exact ⟨m.largest, frame, hp, decode_ok_iff.mpr hp, rfl, hlength⟩

/-! ## Definitions that are too large -/

/-- Nothing is wrong with the message, its size left aside. -/
structure MessageDef.Measured (before : List MessageDef) (m : MessageDef) : Prop where
  named : m.Named before
  shaped : m.Shaped
  fieldNames : (m.fields.map (·.name)).Nodup
  fieldIdentifiers : ∀ f ∈ m.fields, isIdentifier f.name = true
  resolves : ∀ f ∈ m.fields, ∃ type, FieldType.resolve f.typeName f.capacity = .ok type

def MessageDef.size (m : MessageDef) : Nat := 1 + (m.fields.map FieldDef.maxSize).sum

variable {index size limit : Nat} {before : List MessageDef} {m : MessageDef}

theorem not_mem_checkHeartbeat :
    .ofMessage index (.frameTooLarge size limit) ∉ checkHeartbeat index m := by
  intro hq
  unfold checkHeartbeat at hq
  split at hq
  · obtain hq | hq := List.mem_append.mp hq
    · split at hq
      · cases hq
      · cases List.mem_singleton.mp hq
    · split at hq
      · cases hq
      · cases List.mem_singleton.mp hq
  · split at hq
    · cases List.mem_singleton.mp hq
    · cases hq

theorem not_mem_checkFields (index : Nat) (fs : List FieldDef) (reason : Reason) :
    .ofMessage index reason ∉ (checkFields index [] 0 fs).1 := by
  intro hq
  have htold : InTurn (FieldDef.Told index) [] fs (checkFields index [] 0 fs).1 := checkFields_told [] fs
  obtain ⟨k, f, own, -, rfl | ⟨reason', -, rfl⟩, hq⟩ := htold.own_of_mem hq
  · cases hq
  · cases List.mem_singleton.mp hq

/-- The body of a message whose names are in order is refused for its size when that is all. -/
theorem mem_checkBody_iff (hnamed : m.Named before) {ident : String} {own : List Problem}
    (h : checkBody index ident m = .error own) :
    .ofMessage index (.frameTooLarge size limit) ∈ own ↔
      m.Measured before ∧ 128 < m.size ∧ size = m.size ∧ limit = 128 := by
  rw [checkBody] at h
  cases hfields : checkFields index [] 0 m.fields with
  | mk problems specs =>
  have hpassed : (checkHeartbeat index m ++ problems).isEmpty = true ↔
      m.Shaped ∧ problems = [] := by
    rw [List.isEmpty_iff, List.append_eq_nil_iff, checkHeartbeat_eq_nil_iff]
  rw [hfields] at h
  simp only at h
  split at h
  · rename_i hclean
    obtain ⟨hshaped, rfl⟩ := hpassed.mp hclean
    obtain ⟨hfresh, hidents, hspecs⟩ := checkFields_iff.mp hfields
    rw [fresh_nil_left] at hfresh
    have hmeasured : m.Measured before :=
      ⟨hnamed, hshaped, hfresh, hidents, resolves_of_becomes hspecs⟩
    rw [MessageSpec.maxFrameSize, maxSize_of_becomes hspecs, ← MessageDef.size, frameLimit] at h
    split at h
    · cases h
    · rename_i hlarge
      cases h
      simp [Problem.ofMessage, hmeasured, not_le.mp hlarge]
  · rename_i hclean
    cases h
    refine iff_of_false ?_ ?_
    · rw [List.mem_append, not_or]
      have hfield := not_mem_checkFields index m.fields (.frameTooLarge size limit)
      rw [hfields] at hfield
      exact ⟨not_mem_checkHeartbeat, hfield⟩
    · rintro ⟨hmeasured, -⟩
      -- fields in order leave no problem behind
      obtain ⟨fields, hbecomes⟩ := exists_becomes_of_resolves hmeasured.resolves
      have hpass : checkFields index [] 0 m.fields = ([], fields) :=
        checkFields_iff.mpr
          ⟨fresh_nil_left.mpr hmeasured.fieldNames, hmeasured.fieldIdentifiers, hbecomes⟩
      rw [hfields] at hpass
      exact hclean (hpassed.mpr ⟨hmeasured.shaped, congrArg Prod.fst hpass⟩)

/-- What the checks say of the size of a message behind others. -/
structure MessageDef.Weighed (before : List MessageDef) (m : MessageDef) (own : List Problem) :
    Prop where
  place : ∀ q ∈ own, q.message? = some before.length
  size_iff : ∀ size limit, .ofMessage before.length (.frameTooLarge size limit) ∈ own ↔
    m.Measured before ∧ 128 < m.size ∧ size = m.size ∧ limit = 128

theorem checkMessages_weighed {seen : NamesSeen} (h : seen.Notes before) (ms : List MessageDef) :
    InTurn MessageDef.Weighed before ms (checkMessages seen before.length ms).1 := by
  induction ms generalizing seen before with
  | nil =>
    rw [checkMessages]
    exact .nil before
  | cons m ms ih =>
    obtain ⟨own, seen', hnotes, heq, hown⟩ := checkMessages_cons_cases h m ms
    rw [heq]
    refine .cons ?_ (ih hnotes)
    obtain ⟨hnamed, reason, -, hother, rfl⟩ | ⟨hnamed, ⟨spec, hbody, rfl⟩ | hbody⟩ := hown
    · refine ⟨fun q hq => List.mem_singleton.mp hq ▸ rfl, fun size limit => iff_of_false ?_ ?_⟩
      · intro hq
        cases List.mem_singleton.mp hq
        exact hother size limit rfl
      · rintro ⟨hmeasured, -⟩
        exact hnamed hmeasured.named
    · refine ⟨List.forall_mem_nil _, fun size limit => iff_of_false List.not_mem_nil ?_⟩
      rintro ⟨-, hlarge, -⟩
      obtain ⟨-, -, -, -, hfits⟩ := checkBody_iff.mp hbody
      exact not_le.mpr hlarge hfits
    · refine ⟨fun q hq => ((checkBody_report before hbody).1 q hq).message, fun size limit => ?_⟩
      exact mem_checkBody_iff hnamed hbody

namespace Schema

variable {s : Schema}

theorem mem_validate_iff {q : Problem} :
    (∃ problems, s.validate = .error problems ∧ q ∈ problems) ↔
      q ∈ checkCount s ++ (checkMessages {} 0 s.messages).1 := by
  unfold validate
  simp only
  constructor
  · rintro ⟨problems, hproblems, hq⟩
    split at hproblems
    · cases hproblems
    · cases hproblems
      exact hq
  · intro hq
    have hsome : ¬ (checkCount s ++ (checkMessages {} 0 s.messages).1).isEmpty = true := by
      rw [List.isEmpty_iff]
      exact List.ne_nil_of_mem hq
    rw [if_neg hsome]
    exact ⟨_, rfl, hq⟩

/-- A message is reported for its size exactly when nothing else is wrong with it and it is too large. -/
theorem reports_size_iff {i : Nat} (hm : s.messages[i]? = some m) :
    (∃ problems, s.validate = .error problems ∧
        .ofMessage i (.frameTooLarge size limit) ∈ problems) ↔
      m.Measured (s.messages.take i) ∧ 128 < m.size ∧ size = m.size ∧ limit = 128 := by
  have hweighed : InTurn MessageDef.Weighed [] s.messages (checkMessages {} 0 s.messages).1 :=
    checkMessages_weighed .empty s.messages
  have hlength := length_take_of_getElem? hm
  rw [mem_validate_iff, List.mem_append]
  constructor
  · rintro (hq | hq)
    · have hplace := (checkCount_bears hq).2.1
      cases hplace
    · obtain ⟨j, m', own, hm', hown, hq⟩ := hweighed.own_of_mem hq
      have hplace := hown.place _ hq
      rw [List.nil_append, length_take_of_getElem? hm'] at hplace
      cases hplace
      rw [hm] at hm'
      cases hm'
      have hsize := hown.size_iff size limit
      rw [List.nil_append, hlength] at hsize
      exact hsize.mp hq
  · intro hlarge
    obtain ⟨own, hown, hsub⟩ := hweighed.own_of_getElem? hm
    have hsize := hown.size_iff size limit
    rw [List.nil_append, hlength] at hsize
    exact .inr (hsub (hsize.mpr hlarge))

end Schema

theorem MessageDef.Becomes.maxFrameSize_eq {tag : UInt8} {spec : MessageSpec}
    (h : m.Becomes tag spec) : spec.maxFrameSize = m.size := by
  rw [MessageSpec.maxFrameSize, maxSize_of_becomes h.fields, size]

theorem MessageDef.Measured.exists_becomes (h : m.Measured before) :
    ∃ spec, m.Becomes spec.tag spec := by
  obtain ⟨fields, hbecomes⟩ := exists_becomes_of_resolves h.resolves
  exact ⟨⟨0, m.name, pascalCase m.name, m.direction, m.heartbeat, fields⟩, rfl, rfl, rfl, rfl, rfl,
    hbecomes⟩

namespace Schema

/-- The size given for the frames of a message is that of the largest frame, and a message is refused for
its size exactly when, with nothing else wrong, some message that conforms to its definition does not
fit. -/
theorem largest_frames (s : Schema) :
    (∀ p, s.validate = .ok p → ∀ m ∈ p.messages, m.maxFrameSize ≤ 128 ∧
      LargestFrame p.encode p.decode m.tag m.maxFrameSize ∧
      LargestFrame m.encode m.decode m.tag m.maxFrameSize) ∧
    ∀ i d, s.messages[i]? = some d → ∀ size limit,
      (∃ problems, s.validate = .error problems ∧
        .ofMessage i (.frameTooLarge size limit) ∈ problems) ↔
      d.Measured (s.messages.take i) ∧ limit = 128 ∧
        ∃ spec, d.Becomes spec.tag spec ∧ size = spec.maxFrameSize ∧
          ∃ msg frame, spec.encode msg = .ok frame ∧ limit < frame.length := by
  constructor
  · intro p h m hm
    have hindexed := indexed_of_validate h
    have htag : p.ofTag? m.tag = some m := (hindexed.ofTag_iff m.tag m).mpr ⟨hm, rfl⟩
    exact ⟨maxFrameSize_le h htag, Protocol.largestFrame htag, m.largestFrame⟩
  · intro i d hd size limit
    rw [reports_size_iff hd]
    simp only [MessageSpec.exists_longer_iff]
    constructor
    · rintro ⟨hmeasured, hlarge, rfl, rfl⟩
      obtain ⟨spec, hspec⟩ := hmeasured.exists_becomes
      exact ⟨hmeasured, rfl, spec, hspec, hspec.maxFrameSize_eq.symm, hspec.maxFrameSize_eq ▸ hlarge⟩
    · rintro ⟨hmeasured, rfl, spec, hspec, rfl, hlarge⟩
      rw [hspec.maxFrameSize_eq] at hlarge ⊢
      exact ⟨hmeasured, hlarge, rfl, rfl⟩

def spillDef : MessageDef where
  name := "spill"
  direction := .bidirectional
  fields := [
    { name := "text", typeName := "string", capacity := some 125 },
    { name := "more", typeName := "bool", optional := true }]

/-- The first message fits with no byte to spare, and the second has one too many. -/
def brimSchema : Schema where
  messages := [
    { name := "brim", direction := .bidirectional, fields := [
      { name := "text", typeName := "string", capacity := some 126 }] },
    spillDef]

theorem largest_frames_brimSchema :
    arcadeSchema.validate = .ok arcadeProtocol ∧
      (∃ msg frame, arcadeProtocol.encode msg = .ok frame ∧ msg.tag = 1 ∧ frame.length = 17) ∧
      brimSchema.validate = .error [.ofMessage 1 (.frameTooLarge 129 128)] ∧
      ∃ spec : MessageSpec, spillDef.Becomes spec.tag spec ∧
        ∃ msg frame, spec.encode msg = .ok frame ∧ 128 < frame.length := by
  have hbrim : brimSchema.validate = .error [.ofMessage 1 (.frameTooLarge 129 128)] := by cbv
  refine ⟨arcadeSchema_validate, ?_, hbrim, ?_⟩
  · obtain ⟨-, hlargest, -⟩ := (largest_frames arcadeSchema).1 _ arcadeSchema_validate _
      (List.mem_cons_of_mem _ List.mem_cons_self)
    obtain ⟨msg, frame, henc, -, htag, hlength⟩ := hlargest.reached
    exact ⟨msg, frame, henc, htag, hlength⟩
  · obtain ⟨-, -, spec, hspec, -, hlonger⟩ := ((largest_frames brimSchema).2 1 spillDef rfl 129 128).mp
      ⟨_, hbrim, List.mem_singleton_self _⟩
    exact ⟨spec, hspec, hlonger⟩

end Schema

end Gamewire
