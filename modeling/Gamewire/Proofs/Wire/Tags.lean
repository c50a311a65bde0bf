import Gamewire.Proofs.Schema.WellFormed
import Gamewire.Wire.Control

/-! The first byte of a frame says whose it is. The tags of a protocol end where those of control frames
begin, so no frame can be taken for one of the other kind, and of the messages of a protocol only the one
under that byte can read the frame. -/
namespace Gamewire
set_option autoImplicit false

variable {tag : UInt8} {rest frame : List UInt8}

/-! ## Control frames -/

theorem isControlFrame_cons : isControlFrame (tag :: rest) = true ↔ controlTagMin ≤ tag :=
  decide_eq_true_iff

namespace ControlFrame

theorem encode_eq_cons (f : ControlFrame) :
    ∃ tag rest, f.encode = tag :: rest ∧ controlTagMin ≤ tag := by
  cases f with
  | join room fingerprint => exact ⟨0xf0, _, rfl, by decide⟩
  | joined room conn => exact ⟨0xf1, _, rfl, by decide⟩
  | rejected refusal => exact ⟨0xf2, _, rfl, by decide⟩
  | closing reason => exact ⟨0xf3, _, rfl, by decide⟩

/-- A tag below those of control frames is refused before anything behind it is looked at. -/
theorem decode_of_lt (h : tag < controlTagMin) :
    decode (tag :: rest) = .error (.unknownTag 0 tag) := by
  have hne : ∀ t : UInt8, controlTagMin ≤ t → tag ≠ t := by
    rintro t ht rfl
    exact UInt8.not_lt.mpr ht h
  have hbody : ∀ c, decodeBody tag c = .error (.unknownTag 0 tag) := by
    intro c
    rw [decodeBody, if_neg (hne 0xf0 (by decide)), if_neg (hne 0xf1 (by decide)),
      if_neg (hne 0xf2 (by decide)), if_neg (hne 0xf3 (by decide))]
  simp only [decode, Cursor.start, Cursor.byte, hbody]

end ControlFrame

/-! ## Messages -/

namespace MessageSpec

theorem decode_of_ne {m : MessageSpec} (h : m.tag ≠ tag) :
    m.decode (tag :: rest) = .error (.tagMismatch 0 m.tag tag) := by
  simp only [decode, Cursor.start, Cursor.byte]
  rw [if_pos (Ne.symm h)]

end MessageSpec

namespace Protocol

variable {p : Protocol}

theorem decode_of_ofTag?_none (h : p.ofTag? tag = none) :
    p.decode (tag :: rest) = .error (.unknownTag 0 tag) := by
  simp only [decode, h]

theorem decode_of_ofTag?_some {m : MessageSpec} (h : p.ofTag? tag = some m) :
    p.decode (tag :: rest) = m.decode (tag :: rest) := by
  simp only [decode, h]

/-- A frame goes to the message under its first byte, which is the only one that does not refuse it for
that byte. -/
structure Dispatches (p : Protocol) : Prop where
  tags : (p.messages.map (·.tag)).Nodup
  known : ∀ m ∈ p.messages, ∀ rest, p.decode (m.tag :: rest) = m.decode (m.tag :: rest)
  others : ∀ m ∈ p.messages, ∀ tag rest, m.tag ≠ tag →
    m.decode (tag :: rest) = .error (.tagMismatch 0 m.tag tag)
  unknown : ∀ tag rest, (∀ m ∈ p.messages, m.tag ≠ tag) →
    p.decode (tag :: rest) = .error (.unknownTag 0 tag)
  empty : p.decode [] = .error (.truncated 0 1 0) ∧
    ∀ m ∈ p.messages, m.decode [] = .error (.truncated 0 1 0)

/-- No frame is of both kinds. What is written for a message or for a control frame is refused for its tag
where frames of the other kind are read. -/
structure Apart (p : Protocol) : Prop where
  message : ∀ msg frame, p.encode msg = .ok frame →
    ∃ tag rest, frame = tag :: rest ∧ tag < 0xf0 ∧ isControlFrame frame = false ∧
      ControlFrame.decode frame = .error (.unknownTag 0 tag)
  control : ∀ f : ControlFrame, isControlFrame f.encode = true ∧
    ∃ tag rest, f.encode = tag :: rest ∧ p.decode f.encode = .error (.unknownTag 0 tag)
  exclusive : ∀ frame msg f, p.decode frame = .ok msg → ControlFrame.decode frame ≠ .ok f

end Protocol

/-! ## Checked schemas -/

namespace Schema

variable {s : Schema} {p : Protocol}

theorem tag_lt (h : s.validate = .ok p) {tag : UInt8} {m : MessageSpec}
    (hm : p.ofTag? tag = some m) : tag < controlTagMin := by
  obtain ⟨hlt, -⟩ := List.getElem?_eq_some_iff.mp hm
  have hlength := (becomes_of_validate h).length
  have hfew := (validate_ok_iff.mp h).1.few
  have htag : tag.toNat < (240 : UInt8).toNat := by
    rw [hlength] at hlt
    exact Nat.lt_of_lt_of_le hlt hfew
  exact UInt8.lt_iff_toNat_lt.mpr htag

theorem ofTag?_eq_none (h : s.validate = .ok p) (htag : controlTagMin ≤ tag) :
    p.ofTag? tag = none :=
  Option.eq_none_iff_forall_ne_some.mpr fun _ hm => UInt8.not_lt.mpr htag (tag_lt h hm)

theorem encode_eq_cons (h : s.validate = .ok p) {msg : Message}
    (henc : p.encode msg = .ok frame) : ∃ tag rest, frame = tag :: rest ∧ tag < controlTagMin := by
  obtain ⟨m, hm, henc⟩ := Protocol.encode_ok_iff.mp henc
  obtain ⟨htag, -, body, -, hframe⟩ := MessageSpec.encode_ok_iff.mp henc
  exact ⟨m.tag, body, hframe, htag ▸ tag_lt h hm⟩

theorem Becomes.tags_nodup (h : s.Becomes p) : (p.messages.map (·.tag)).Nodup := by
  rw [List.Nodup, List.pairwise_map, List.pairwise_iff_getElem]
  intro i j hi hj hlt htag
  -- the tag of a message is its place
  obtain ⟨-, -, hplace, -⟩ := h.source (List.getElem?_eq_getElem hi)
  obtain ⟨-, -, hplace', -⟩ := h.source (List.getElem?_eq_getElem hj)
  rw [htag, hplace'] at hplace
  exact Nat.ne_of_gt hlt hplace

theorem dispatches (h : s.validate = .ok p) : p.Dispatches := by
  have hindexed := indexed_of_validate h
  refine ⟨(becomes_of_validate h).tags_nodup, ?_, ?_, ?_, rfl, fun _ _ => rfl⟩
  · intro m hm rest
    exact Protocol.decode_of_ofTag?_some ((hindexed.ofTag_iff m.tag m).mpr ⟨hm, rfl⟩)
  · intro m _ tag rest hne
    exact MessageSpec.decode_of_ne hne
  · intro tag rest hnone
    refine Protocol.decode_of_ofTag?_none (Option.eq_none_iff_forall_ne_some.mpr fun m hm => ?_)
    obtain ⟨hmem, htag⟩ := (hindexed.ofTag_iff tag m).mp hm
    exact hnone m hmem htag

theorem apart (h : s.validate = .ok p) : p.Apart := by
  have hmessage : ∀ msg frame, p.encode msg = .ok frame →
      ∃ tag rest, frame = tag :: rest ∧ tag < controlTagMin ∧
        ControlFrame.decode frame = .error (.unknownTag 0 tag) := by
    intro msg frame henc
    obtain ⟨tag, rest, rfl, hlt⟩ := encode_eq_cons h henc
    exact ⟨tag, rest, rfl, hlt, ControlFrame.decode_of_lt hlt⟩
  refine ⟨?_, ?_, ?_⟩
  · intro msg frame henc
    obtain ⟨tag, rest, rfl, hlt, hdecode⟩ := hmessage msg frame henc
    refine ⟨tag, rest, rfl, hlt, ?_, hdecode⟩
    rw [← Bool.not_eq_true, isControlFrame_cons]
    exact UInt8.not_le.mpr hlt
  · intro f
    obtain ⟨tag, rest, hf, htag⟩ := f.encode_eq_cons
    rw [hf]
    exact ⟨isControlFrame_cons.mpr htag, tag, rest, rfl,
      Protocol.decode_of_ofTag?_none (ofTag?_eq_none h htag)⟩
  · intro frame msg f hdecode
    obtain ⟨tag, rest, -, -, hrefused⟩ := hmessage msg frame (Protocol.decode_ok_iff.mp hdecode)
    rw [hrefused]
    simp

/-- Messages and control frames never meet on the wire, and the first byte of a frame tells which message
it can be. -/
theorem frames_apart (h : s.validate = .ok p) : p.Apart ∧ p.Dispatches :=
  ⟨apart h, dispatches h⟩

theorem frames_apart_arcadeSchema :
    arcadeSchema.validate = .ok arcadeProtocol ∧
      ControlFrame.decode arcadeFrame = .error (.unknownTag 0 1) ∧
      arcadeProtocol.decode (ControlFrame.closing "é").encode = .error (.unknownTag 0 0xf3) ∧
      ∀ m ∈ arcadeProtocol.messages, m.tag ≠ 1 →
        m.decode arcadeFrame = .error (.tagMismatch 0 m.tag 1) := by
  obtain ⟨hapart, hdispatches⟩ := frames_apart arcadeSchema_validate
  refine ⟨arcadeSchema_validate, ?_, ?_, fun m hm hne => hdispatches.others m hm 1 _ hne⟩
  · obtain ⟨tag, rest, hframe, -, -, hdecode⟩ := hapart.message _ _ arcadeMessage_encode
    cases hframe
    exact hdecode
  · obtain ⟨-, tag, rest, hframe, hdecode⟩ := hapart.control (.closing "é")
    cases hframe
    exact hdecode

end Schema

end Gamewire
