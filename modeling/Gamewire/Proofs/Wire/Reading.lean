import Gamewire.Proofs.Wire.Cursor
import Gamewire.Wire.Control

/-! Readers of frames as small steps, one behind another. Every reader of the wire format is put
together in this way, so that what holds of the steps and of their composition holds of all of it. -/
namespace Gamewire
set_option autoImplicit false

/-- A step of reading: what it gives and the position behind it. -/
abbrev Reading (α : Type) := Cursor → Except DecodeFault (α × Cursor)

namespace Reading

variable {α β : Type}

def give (a : α) : Reading α := fun c => .ok (a, c)

def fail (f : DecodeFault) : Reading α := fun _ => .error f

/-- One step behind another, which may depend on the offset at which the first began. -/
def andThen (read : Reading α) (next : Nat → α → Reading β) : Reading β := fun c =>
  match read c with
  | .error f => .error f
  | .ok (a, c') => next c.offset a c'

/-- A byte that is 0 or 1. -/
def flag (bad : Nat → UInt8 → DecodeFault) : Reading Bool :=
  andThen Cursor.byte fun offset b =>
    if b = 0 then give false else if b = 1 then give true else fail (bad offset b)

theorem andThen_ok_iff {read : Reading α} {next : Nat → α → Reading β} {c c' : Cursor} {b : β} :
    read.andThen next c = .ok (b, c') ↔
      ∃ a c₁, read c = .ok (a, c₁) ∧ next c.offset a c₁ = .ok (b, c') := by
  unfold andThen
  rcases read c with f | ⟨a, c₁⟩
  · simp
  · simp only [Except.ok.injEq, Prod.mk.injEq]
    constructor
    · intro h
      exact ⟨a, c₁, ⟨rfl, rfl⟩, h⟩
    · rintro ⟨_, _, ⟨rfl, rfl⟩, h⟩
      exact h

theorem andThen_error_iff {read : Reading α} {next : Nat → α → Reading β} {c : Cursor}
    {f : DecodeFault} :
    read.andThen next c = .error f ↔
      read c = .error f ∨ ∃ a c₁, read c = .ok (a, c₁) ∧ next c.offset a c₁ = .error f := by
  unfold andThen
  rcases read c with g | ⟨a, c₁⟩
  · simp
  · simp only [Except.ok.injEq, Prod.mk.injEq, reduceCtorEq, false_or]
    constructor
    · intro h
      exact ⟨a, c₁, ⟨rfl, rfl⟩, h⟩
    · rintro ⟨_, _, ⟨rfl, rfl⟩, h⟩
      exact h

theorem andThen_give (read : Reading α) : (read.andThen fun _ => give) = read := by
  funext c
  unfold andThen
  cases read c <;> rfl

/-! ## Values -/

theorem word_eq : Cursor.word = andThen (Cursor.take 4) fun _ bytes =>
    give (UInt32.ofNat (ofLittleEndian bytes)) := by
  funext c
  unfold Cursor.word andThen
  cases c.take 4 <;> rfl

/-- The length byte is judged before any byte of the text is asked for. -/
theorem text_eq (capacity : Nat) : Cursor.text capacity = andThen Cursor.byte fun offset length =>
    if capacity < length.toNat then fail (.stringTooLong offset capacity length.toNat)
    else andThen (Cursor.take length.toNat) fun _ bytes =>
      match Text.ofUtf8? bytes with
      | some s => give s
      | none => fail (.invalidUtf8 (offset + 1)) := by
  funext c
  unfold Cursor.text andThen
  rcases c.byte with f | ⟨length, c₁⟩
  · rfl
  · dsimp only
    by_cases hlong : capacity < length.toNat
    · rw [if_pos hlong, if_pos hlong]
      rfl
    · rw [if_neg hlong, if_neg hlong]
      rcases c₁.take length.toNat with f | ⟨bytes, c₂⟩
      · rfl
      · dsimp only
        cases Text.ofUtf8? bytes <;> rfl

theorem decodeScalar_float : decodeScalar .float = andThen (Cursor.take 4) fun _ bytes =>
    give (.float (UInt32.ofNat (ofLittleEndian bytes))) := by
  funext c
  have hsize : Primitive.float.size = 4 := rfl
  unfold decodeScalar andThen
  rw [hsize]
  cases c.take 4 <;> rfl

theorem decodeScalar_bool :
    decodeScalar .bool = andThen (flag .invalidBool) fun _ b => give (.bool b) := by
  funext c
  obtain ⟨offset, rest⟩ := c
  cases rest with
  | nil => rfl
  | cons b rest =>
    have htake : Cursor.take 1 ⟨offset, b :: rest⟩ = .ok ([b], ⟨offset + 1, rest⟩) := rfl
    have hbyte : Cursor.byte ⟨offset, b :: rest⟩ = .ok (b, ⟨offset + 1, rest⟩) := rfl
    simp only [decodeScalar, Primitive.size, htake, flag, andThen, hbyte]
    by_cases hzero : b = 0
    · subst hzero
      rfl
    · by_cases hone : b = 1
      · subst hone
        rfl
      · simp [hzero, hone, fail]

theorem decodeScalar_int {p : Primitive} (hp : p.range? ≠ none) :
    decodeScalar p = andThen (Cursor.take p.size) fun _ bytes => give (.int (p.intOfBytes bytes)) := by
  funext c
  unfold decodeScalar andThen
  rcases c.take p.size with f | ⟨bytes, c₁⟩
  · rfl
  · cases p <;> first | rfl | exact absurd rfl hp

theorem decodeElements_succ (p : Primitive) (count : Nat) :
    decodeElements p (count + 1) = andThen (decodeScalar p) fun _ v =>
      andThen (decodeElements p count) fun _ vs => give (v :: vs) := by
  funext c
  rw [decodeElements]
  unfold andThen
  rcases decodeScalar p c with f | ⟨v, c₁⟩
  · rfl
  · dsimp only
    cases decodeElements p count c₁ <;> rfl

theorem decodeValue_text (capacity : UInt8) : decodeValue (.text capacity) =
    andThen (Cursor.text capacity.toNat) fun _ s => give (.text s) := by
  funext c
  simp only [decodeValue, andThen]
  cases c.text capacity.toNat <;> rfl

theorem decodeValue_array (element : Primitive) (count : UInt8) :
    decodeValue (.array element count) =
      andThen (decodeElements element count.toNat) fun _ vs => give (.array vs) := by
  funext c
  simp only [decodeValue, andThen]
  cases decodeElements element count.toNat c <;> rfl

/-! ## Fields -/

theorem decodePresent_eq (type : FieldType) :
    decodePresent type = andThen (decodeValue type) fun _ v => give (some v) := by
  funext c
  unfold decodePresent andThen
  cases decodeValue type c <;> rfl

theorem decodeField_optional {f : FieldSpec} (hf : f.optional = true) :
    decodeField f = andThen (flag .invalidPresence) fun _ present =>
      if present then decodePresent f.type else give none := by
  funext c
  unfold decodeField flag andThen
  rw [if_pos hf]
  rcases c.byte with e | ⟨mark, c₁⟩
  · rfl
  · dsimp only
    by_cases hzero : mark = 0
    · rw [if_pos hzero, if_pos hzero]
      rfl
    · rw [if_neg hzero, if_neg hzero]
      by_cases hone : mark = 1
      · rw [if_pos hone, if_pos hone]
        rfl
      · rw [if_neg hone, if_neg hone]
        rfl

theorem decodeField_required {f : FieldSpec} (hf : ¬ f.optional = true) :
    decodeField f = decodePresent f.type := by
  funext c
  rw [decodeField, if_neg hf]

theorem decodeFields_cons (f : FieldSpec) (fs : List FieldSpec) :
    decodeFields (f :: fs) = andThen (decodeField f) fun _ v =>
      andThen (decodeFields fs) fun _ vs => give (v :: vs) := by
  funext c
  rw [decodeFields]
  unfold andThen
  rcases decodeField f c with e | ⟨v, c₁⟩
  · rfl
  · dsimp only
    cases decodeFields fs c₁ <;> rfl

/-! ## Control frames -/

theorem decodeWords_eq : ControlFrame.decodeWords = andThen Cursor.word fun _ a =>
    andThen Cursor.word fun _ b => give (a, b) := by
  funext c
  unfold ControlFrame.decodeWords andThen
  rcases c.word with f | ⟨a, c₁⟩
  · rfl
  · dsimp only
    cases c₁.word <;> rfl

theorem decodeBody_eq (tag : UInt8) : ControlFrame.decodeBody tag =
    if tag = 0xf0 then andThen ControlFrame.decodeWords fun _ words =>
      give (.join (if words.1 = 0 then none else some words.1) words.2)
    else if tag = 0xf1 then andThen ControlFrame.decodeWords fun _ words =>
      give (.joined words.1 words.2)
    else if tag = 0xf2 then andThen Cursor.byte fun offset code =>
      (Refusal.ofCode? code).elim (fail (.unknownRejectCode offset code)) fun refusal =>
        give (.rejected refusal)
    else if tag = 0xf3 then andThen (Cursor.text ControlFrame.reasonLimit) fun _ reason =>
      give (.closing reason)
    else fail (.unknownTag 0 tag) := by
  funext c
  unfold ControlFrame.decodeBody
  split
  · simp only [andThen]
    cases ControlFrame.decodeWords c <;> rfl
  split
  · simp only [andThen]
    cases ControlFrame.decodeWords c <;> rfl
  split
  · simp only [andThen]
    rcases c.byte with f | ⟨code, c₁⟩
    · rfl
    · dsimp only
      cases Refusal.ofCode? code <;> rfl
  split
  · simp only [andThen]
    cases c.text ControlFrame.reasonLimit <;> rfl
  · rfl

/-! ## Whole frames -/

/-- Reads a frame, which has to end where the reading ends. -/
def whole (read : Reading α) (frame : List UInt8) : Except DecodeFault α :=
  match read (Cursor.start frame) with
  | .error f => .error f
  | .ok (a, c) =>
    match c.finish with
    | .ok () => .ok a
    | .error f => .error f

end Reading

/-! ## Messages -/

namespace MessageSpec

/-- What follows the tag in a frame, if the tag is that of the message. -/
def body (m : MessageSpec) (tag : UInt8) : Reading Message :=
  if tag ≠ m.tag then Reading.fail (.tagMismatch 0 m.tag tag)
  else Reading.andThen (decodeFields m.fields) fun _ fields => Reading.give ⟨tag, fields⟩

theorem decode_eq_whole (m : MessageSpec) :
    m.decode = (Reading.andThen Cursor.byte fun _ tag => m.body tag).whole := by
  funext frame
  unfold decode Reading.whole body Reading.andThen
  rcases (Cursor.start frame).byte with f | ⟨tag, c⟩
  · rfl
  · dsimp only
    by_cases htag : tag ≠ m.tag
    · rw [if_pos htag, if_pos htag]
      rfl
    · rw [if_neg htag, if_neg htag]
      rcases decodeFields m.fields c with f | ⟨fields, c'⟩ <;> rfl

end MessageSpec

namespace Protocol

/-- What follows the tag, which alone says whose frame it is. -/
def body (p : Protocol) (tag : UInt8) : Reading Message :=
  match p.ofTag? tag with
  | some m => m.body tag
  | none => Reading.fail (.unknownTag 0 tag)

theorem decode_eq_whole (p : Protocol) :
    p.decode = (Reading.andThen Cursor.byte fun _ tag => p.body tag).whole := by
  funext frame
  cases frame with
  | nil => rfl
  | cons tag frame =>
    unfold decode Reading.whole Reading.andThen body
    cases hm : p.ofTag? tag with
    | none =>
      simp only [Cursor.start, Cursor.byte, hm]
      rfl
    | some m =>
      simp only [m.decode_eq_whole, Reading.whole, Reading.andThen, Cursor.start, Cursor.byte, hm]

end Protocol

end Gamewire
