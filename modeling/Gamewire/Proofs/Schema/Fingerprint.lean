import Gamewire.Proofs.Schema.WellFormed
import Gamewire.Schema.Fingerprint

/-! Which protocols a fingerprint can tell apart. The hashed bytes can be read back: every part says
where it ends before the next begins, so equal bytes come from equal parts. What is not hashed, the
tags and the generated names, follows from the rest. -/
namespace Gamewire.Fingerprint
set_option autoImplicit false

/-! ## Bytes that say where they end -/

/-- Of things with the property `P`, the bytes tell the `view` of each and where it ends. -/
def Tells {α β : Type} (P : α → Prop) (view : α → β) (encode : α → List UInt8) : Prop :=
  ∀ a b x y, P a → P b → encode a ++ x = encode b ++ y → view a = view b ∧ x = y

theorem Tells.flatMap {α β : Type} {P : α → Prop} {view : α → β} {encode : α → List UInt8}
    (h : Tells P view encode) {as bs : List α} {x y : List UInt8} (has : ∀ a ∈ as, P a)
    (hbs : ∀ b ∈ bs, P b) (hlength : as.length = bs.length)
    (heq : as.flatMap encode ++ x = bs.flatMap encode ++ y) :
    as.map view = bs.map view ∧ x = y := by
  induction as generalizing bs with
  | nil =>
    have hbs' : bs = [] := List.length_eq_zero_iff.mp hlength.symm
    subst hbs'
    exact ⟨rfl, heq⟩
  | cons a as ih =>
    obtain ⟨b, bs, rfl⟩ := List.exists_cons_of_length_eq_add_one hlength.symm
    rw [List.flatMap_cons, List.flatMap_cons, List.append_assoc, List.append_assoc] at heq
    obtain ⟨hview, hrest⟩ := h a b _ _ (has a List.mem_cons_self) (hbs b List.mem_cons_self) heq
    obtain ⟨hviews, hend⟩ := ih (fun a' ha' => has a' (List.mem_cons_of_mem a ha'))
      (fun b' hb' => hbs b' (List.mem_cons_of_mem b hb')) (Nat.succ.inj hlength) hrest
    refine ⟨?_, hend⟩
    rw [List.map_cons, List.map_cons, hview, hviews]

/-! ## Counts and texts -/

theorem bytesOfWord_inj {a b : UInt32} (h : Blake3.bytesOfWord a = Blake3.bytesOfWord b) :
    a = b := by
  simp only [Blake3.bytesOfWord, List.cons.injEq, and_true] at h
  obtain ⟨h₀, h₁, h₂, h₃⟩ := h
  have n₀ := congrArg UInt8.toNat h₀
  have n₁ := congrArg UInt8.toNat h₁
  have n₂ := congrArg UInt8.toNat h₂
  have n₃ := congrArg UInt8.toNat h₃
  simp [Nat.shiftRight_eq_div_pow] at n₀ n₁ n₂ n₃
  apply UInt32.toNat_inj.mp
  have ha := a.toNat_lt
  have hb := b.toNat_lt
  omega

theorem tells_word : Tells (· < 2 ^ 32) id word := by
  intro a b x y ha hb h
  have hsplit := List.append_inj h rfl
  have hword : a.toUInt32 = b.toUInt32 := bytesOfWord_inj hsplit.1
  refine ⟨?_, hsplit.2⟩
  show a = b
  have hnat := congrArg UInt32.toNat hword
  simp at hnat
  have h₁ : a % 4294967296 = a := Nat.mod_eq_of_lt ha
  have h₂ : b % 4294967296 = b := Nat.mod_eq_of_lt hb
  omega

/-- A length of four bytes is enough for the text. -/
def Measured (s : String) : Prop := s.utf8ByteSize < 2 ^ 32

instance (s : String) : Decidable (Measured s) := inferInstanceAs (Decidable (_ < _))

theorem tells_text : Tells Measured id text := by
  intro a b x y ha hb h
  unfold text at h
  rw [List.append_assoc, List.append_assoc] at h
  obtain ⟨hsize, hrest⟩ := tells_word _ _ _ _ ha hb h
  have hlength : (Text.utf8Bytes a).length = (Text.utf8Bytes b).length := by
    rw [Text.utf8Bytes_length, Text.utf8Bytes_length]
    exact hsize
  obtain ⟨hbytes, hend⟩ := List.append_inj hrest hlength
  refine ⟨?_, hend⟩
  have hread := Text.ofUtf8?_utf8Bytes a
  have hsame : Text.utf8Bytes a = Text.utf8Bytes b := hbytes
  rw [hsame, Text.ofUtf8?_utf8Bytes] at hread
  exact (Option.some.inj hread).symm

/-! ## Types, fields and messages -/

theorem flag_inj {a b : Bool} (h : flag a = flag b) : a = b := by
  cases a <;> cases b <;> first | rfl | cases h

theorem primitive_code_inj {p q : Primitive} (h : p.code = q.code) : p = q := by
  cases p <;> cases q <;> first | rfl | cases h

theorem direction_code_inj {d e : Direction} (h : d.code = e.code) : d = e := by
  cases d <;> cases e <;> first | rfl | cases h

theorem tells_type : Tells (fun _ => True) id type := by
  intro a b x y _ _ h
  show a = b ∧ x = y
  cases a with
  | scalar p =>
    cases b with
    | scalar q =>
      obtain ⟨hcode, hend⟩ : p.code = q.code ∧ x = y := by simpa [type] using h
      exact ⟨congrArg FieldType.scalar (primitive_code_inj hcode), hend⟩
    | _ => simp [type] at h
  | text capacity =>
    cases b with
    | text capacity' =>
      obtain ⟨hcapacity, hend⟩ : capacity = capacity' ∧ x = y := by simpa [type] using h
      exact ⟨congrArg FieldType.text hcapacity, hend⟩
    | _ => simp [type] at h
  | array element count =>
    cases b with
    | array element' count' =>
      obtain ⟨hcode, hcount, hend⟩ : element.code = element'.code ∧ count = count' ∧ x = y := by
        simpa [type] using h
      rw [primitive_code_inj hcode, hcount]
      exact ⟨rfl, hend⟩
    | _ => simp [type] at h

theorem tells_field : Tells (fun f => Measured f.name) id field := by
  intro a b x y ha hb h
  show a = b ∧ x = y
  simp only [field, List.append_assoc, List.singleton_append] at h
  obtain ⟨hname, hrest⟩ := tells_text _ _ _ _ ha hb h
  obtain ⟨hflag, hrest⟩ := List.cons.inj hrest
  obtain ⟨htype, hend⟩ := tells_type _ _ _ _ trivial trivial hrest
  have hoptional : a.optional = b.optional := flag_inj hflag
  obtain ⟨name, type, optional⟩ := a
  obtain ⟨name', type', optional'⟩ := b
  cases hname
  cases htype
  cases hoptional
  exact ⟨rfl, hend⟩

/-- What is hashed of a message. -/
def content (m : MessageSpec) : String × Direction × Bool × List FieldSpec :=
  (m.name, m.direction, m.heartbeat, m.fields)

structure MeasuredMessage (m : MessageSpec) : Prop where
  name : Measured m.name
  count : m.fields.length < 2 ^ 32
  fields : ∀ f ∈ m.fields, Measured f.name

theorem tells_message : Tells MeasuredMessage content message := by
  intro a b x y ha hb h
  simp only [message, List.append_assoc, List.cons_append, List.nil_append] at h
  obtain ⟨hname, hrest⟩ := tells_text _ _ _ _ ha.name hb.name h
  obtain ⟨hcode, hrest⟩ := List.cons.inj hrest
  obtain ⟨hflag, hrest⟩ := List.cons.inj hrest
  obtain ⟨hcount, hrest⟩ := tells_word _ _ _ _ ha.count hb.count hrest
  obtain ⟨hfields, hend⟩ := tells_field.flatMap ha.fields hb.fields hcount hrest
  rw [List.map_id, List.map_id] at hfields
  have hname' : a.name = b.name := hname
  refine ⟨?_, hend⟩
  rw [content, content, hname', direction_code_inj hcode, flag_inj hflag, hfields]

theorem contents_of_bytes {ms ns : List MessageSpec} (hms : ms.length < 2 ^ 32)
    (hns : ns.length < 2 ^ 32) (hm : ∀ m ∈ ms, MeasuredMessage m)
    (hn : ∀ n ∈ ns, MeasuredMessage n) (h : bytes ms = bytes ns) :
    ms.map content = ns.map content := by
  unfold bytes at h
  obtain ⟨hlength, hrest⟩ := tells_word _ _ _ _ hms hns h
  have hnil : ms.flatMap message ++ [] = ns.flatMap message ++ [] := by rw [hrest]
  exact (tells_message.flatMap hm hn hlength hnil).1

end Gamewire.Fingerprint

namespace Gamewire
set_option autoImplicit false

/-! ## Everything else follows -/

theorem FieldType.resolveArray_one_le {whole : String} {element rest : List Char}
    {type : FieldType} (h : FieldType.resolveArray whole element rest = .ok type) :
    1 ≤ type.maxSize := by
  unfold FieldType.resolveArray at h
  split at h
  · dsimp only at h
    split at h
    · rename_i p _
      split at h
      · rename_i n _
        split at h
        · rename_i hn
          cases h
          have hsize : 1 ≤ p.size := by cases p <;> decide
          have hcount : n.toUInt8.toNat = n := by
            unfold maxArrayLength at hn
            exact UInt8.toNat_ofNat_of_lt' (by rw [UInt8.size]; omega)
          show 1 ≤ p.size * n.toUInt8.toNat
          rw [hcount]
          exact Nat.mul_pos hsize hn.1
        · cases h
      · cases h
    · split at h <;> cases h
  · cases h

/-- Every value takes a byte at least. -/
theorem FieldType.one_le_maxSize {written : String} {capacity : Option UInt16} {type : FieldType}
    (h : FieldType.resolve written capacity = .ok type) : 1 ≤ type.maxSize := by
  unfold FieldType.resolve at h
  dsimp only at h
  split at h
  · unfold FieldType.resolveText at h
    split at h
    · cases h
      decide
    · split at h
      · cases h
        exact Nat.le_add_right 1 _
      · cases h
  split at h
  · cases h
  split at h
  · exact resolveArray_one_le h
  split at h
  · rename_i p _
    cases h
    cases p <;> decide
  · cases h

/-- The limit of a frame is one of its fields too. -/
theorem MessageDef.WellFormed.fields_le {m : MessageDef} (h : m.WellFormed) :
    m.fields.length ≤ 127 := by
  have hsum : m.fields.length ≤ (m.fields.map FieldDef.maxSize).sum := by
    rw [← List.length_map (f := FieldDef.maxSize)]
    refine List.length_le_sum_of_one_le _ fun size hsize => ?_
    obtain ⟨f, hf, rfl⟩ := List.mem_map.mp hsize
    obtain ⟨type, htype⟩ := h.resolves f hf
    have hone := FieldType.one_le_maxSize htype
    simp only [FieldDef.maxSize, htype]
    omega
  have hfits := h.fits
  omega

namespace Schema

variable {s t : Schema} {p q : Protocol}

/-- The tag of a message is its place, and the generated name comes from its name. -/
theorem Becomes.eq_of_contents (hp : s.Becomes p) (hq : t.Becomes q)
    (h : p.messages.map Fingerprint.content = q.messages.map Fingerprint.content) : p = q := by
  have hmessages : p.messages = q.messages := by
    apply List.ext_getElem?
    intro i
    have hi : (p.messages[i]?).map Fingerprint.content =
        (q.messages[i]?).map Fingerprint.content := by
      rw [← List.getElem?_map, ← List.getElem?_map, h]
    cases hm : p.messages[i]? with
    | none =>
      rw [hm, Option.map_none, eq_comm, Option.map_eq_none_iff] at hi
      exact hi.symm
    | some m =>
      rw [hm, Option.map_some, eq_comm, Option.map_eq_some_iff] at hi
      obtain ⟨n, hn, hcontent⟩ := hi
      obtain ⟨d, -, htag, hd⟩ := hp.source hm
      obtain ⟨e, -, htag', he⟩ := hq.source hn
      have hname : n.name = m.name := congrArg (·.1) hcontent
      have htags : n.tag = m.tag := UInt8.toNat_inj.mp (htag'.trans htag.symm)
      have hident : n.ident = m.ident := by
        rw [hd.ident, he.ident, ← hd.name, ← he.name, hname]
      obtain ⟨tag, name, ident, direction, heartbeat, fields⟩ := m
      obtain ⟨tag', name', ident', direction', heartbeat', fields'⟩ := n
      cases hcontent
      cases htags
      cases hident
      exact hn.symm
  cases p
  cases q
  exact congrArg Protocol.mk hmessages

end Schema

/-! ## Fingerprints -/

/-- Four bytes are enough for the length of every name. -/
structure Protocol.Measured (p : Protocol) : Prop where
  messages : ∀ m ∈ p.messages, Fingerprint.Measured m.name
  fields : ∀ m ∈ p.messages, ∀ f ∈ m.fields, Fingerprint.Measured f.name

/-- Two inputs that the shortened hash does not tell apart. -/
def Fingerprint.Collide (x y : List UInt8) : Prop :=
  x ≠ y ∧ Blake3.littleEndian 4 (Blake3.hash x) = Blake3.littleEndian 4 (Blake3.hash y)

namespace Schema

variable {s t : Schema} {p q : Protocol}

theorem length_lt_of_validate (h : s.validate = .ok p) : p.messages.length < 2 ^ 32 := by
  have hfew := (validate_ok_iff.mp h).1.few
  rw [← (becomes_of_validate h).length] at hfew
  omega

theorem measuredMessage_of_validate (h : s.validate = .ok p) (hp : p.Measured) :
    ∀ m ∈ p.messages, Fingerprint.MeasuredMessage m := by
  intro m hm
  obtain ⟨d, hd, hbecomes⟩ := source_of_validate h hm
  have hfields := hd.fields_le
  rw [hbecomes.fields.length_eq] at hfields
  exact ⟨hp.messages m hm, by omega, hp.fields m hm⟩

theorem eq_of_fingerprint_bytes (hs : s.validate = .ok p) (ht : t.validate = .ok q)
    (hp : p.Measured) (hq : q.Measured)
    (h : Fingerprint.bytes p.messages = Fingerprint.bytes q.messages) : p = q :=
  (becomes_of_validate hs).eq_of_contents (becomes_of_validate ht)
    (Fingerprint.contents_of_bytes (length_lt_of_validate hs) (length_lt_of_validate ht)
      (measuredMessage_of_validate hs hp) (measuredMessage_of_validate ht hq) h)

/-- The hashed bytes determine the messages of a protocol in all their parts. Protocols that differ
share a fingerprint only if the shortened hash has a collision at their bytes. -/
theorem fingerprint_determines (hs : s.validate = .ok p) (ht : t.validate = .ok q)
    (hp : p.Measured) (hq : q.Measured) :
    (Fingerprint.bytes p.messages = Fingerprint.bytes q.messages → p.messages = q.messages) ∧
      (p.messages ≠ q.messages → p.fingerprint = q.fingerprint →
        Fingerprint.Collide (Fingerprint.bytes p.messages) (Fingerprint.bytes q.messages)) := by
  have hbytes : Fingerprint.bytes p.messages = Fingerprint.bytes q.messages →
      p.messages = q.messages :=
    fun h => congrArg Protocol.messages (eq_of_fingerprint_bytes hs ht hp hq h)
  exact ⟨hbytes, fun hne hsame => ⟨mt hbytes hne, hsame⟩⟩

/-! ## Names that run into each other -/

/-- One message with one field of a byte. -/
def byteSchema (message field : String) : Schema where
  messages := [
    { name := message, direction := .bidirectional,
      fields := [{ name := field, typeName := "uint8" }] }]

def byteProtocol (message ident field : String) : Protocol where
  messages := [⟨0, message, ident, .bidirectional, false, [⟨field, .scalar .uint8, false⟩]⟩]

theorem byteSchema_validate_ab :
    (byteSchema "ab" "c").validate = .ok (byteProtocol "ab" "Ab" "c") := by cbv

theorem byteSchema_validate_a :
    (byteSchema "a" "bc").validate = .ok (byteProtocol "a" "A" "bc") := by cbv

theorem byteProtocol_measured {message ident field : String} (hm : Fingerprint.Measured message)
    (hf : Fingerprint.Measured field) : (byteProtocol message ident field).Measured := by
  constructor
  · intro m h
    obtain rfl := List.mem_singleton.mp h
    exact hm
  · intro m h f hf'
    obtain rfl := List.mem_singleton.mp h
    obtain rfl := List.mem_singleton.mp hf'
    exact hf

/-- The letters of the names are the same, only divided in another way. -/
theorem fingerprint_bytes_ab_ne_a :
    (byteSchema "ab" "c").validate = .ok (byteProtocol "ab" "Ab" "c") ∧
      (byteSchema "a" "bc").validate = .ok (byteProtocol "a" "A" "bc") ∧
      (byteProtocol "ab" "Ab" "c").Measured ∧ (byteProtocol "a" "A" "bc").Measured ∧
      Fingerprint.bytes (byteProtocol "ab" "Ab" "c").messages ≠
        Fingerprint.bytes (byteProtocol "a" "A" "bc").messages := by
  have hp : (byteProtocol "ab" "Ab" "c").Measured :=
    byteProtocol_measured (by decide) (by decide)
  have hq : (byteProtocol "a" "A" "bc").Measured :=
    byteProtocol_measured (by decide) (by decide)
  have hne : (byteProtocol "ab" "Ab" "c").messages ≠ (byteProtocol "a" "A" "bc").messages := by
    decide
  have hdetermines :=
    fingerprint_determines byteSchema_validate_ab byteSchema_validate_a hp hq
  exact ⟨byteSchema_validate_ab, byteSchema_validate_a, hp, hq, mt hdetermines.1 hne⟩

end Schema

end Gamewire
