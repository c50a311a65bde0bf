import Gamewire.Proofs.Wire.Codec
import Gamewire.Proofs.Wire.Reading

/-! What more bytes at the end of a frame change. A reading step looks at nothing behind the bytes
that it reads, so it comes to the same end when the frame goes on, unless it lacked bytes. Reading a
whole frame therefore tells the three cases apart: a frame that is cut short, one that is complete,
and one that is wrong whatever follows. -/
namespace Gamewire
set_option autoImplicit false

/-! ## Frames that go on -/

namespace Cursor

/-- The same position in a frame that goes on with `more`. -/
def extend (c : Cursor) (more : List UInt8) : Cursor := ⟨c.offset, c.rest ++ more⟩

/-- The offset at which the frame ends. -/
def stop (c : Cursor) : Nat := c.offset + c.rest.length

theorem Spans.stop_eq {c c' : Cursor} {bytes : List UInt8} (h : c.Spans bytes c') :
    c'.stop = c.stop := by
  unfold stop
  rw [h.1, h.2, List.length_append]
  omega

theorem Spans.extend {c c' : Cursor} {bytes : List UInt8} (h : c.Spans bytes c')
    (more : List UInt8) : (c.extend more).Spans bytes (c'.extend more) := by
  refine ⟨?_, h.2⟩
  show c.rest ++ more = bytes ++ (c'.rest ++ more)
  rw [h.1, List.append_assoc]

theorem finish_error_iff {c : Cursor} {f : DecodeFault} :
    c.finish = .error f ↔ c.rest ≠ [] ∧ f = .trailingBytes c.offset c.offset c.stop := by
  unfold finish stop
  cases c.rest with
  | nil => simp
  | cons b rest => simp [eq_comm]

end Cursor

namespace DecodeFault

/-- Bytes were lacking: there were fewer than asked for up to the end of the frame at `stop`. -/
def Lacks (f : DecodeFault) (stop : Nat) : Prop :=
  ∃ offset expected got, f = truncated offset expected got ∧ offset + got = stop ∧ got < expected

/-- The fault is about bytes that are there, and not about the length of the frame. -/
def Lasting : DecodeFault → Prop
  | truncated .. | trailingBytes .. => False
  | _ => True

end DecodeFault

/-! ## Steps that look at nothing behind what they read -/

variable {α β : Type}

structure Reading.Local (read : Reading α) : Prop where
  goes : ∀ {c c' a}, read c = .ok (a, c') →
    c'.stop = c.stop ∧ ∀ more, read (c.extend more) = .ok (a, c'.extend more)
  fails : ∀ {c f}, read c = .error f →
    f.Lacks c.stop ∨ (f.Lasting ∧ ∀ more, read (c.extend more) = .error f)

namespace Reading

theorem Local.andThen {read : Reading α} {next : Nat → α → Reading β} (h : read.Local)
    (hnext : ∀ offset a, (next offset a).Local) : (read.andThen next).Local := by
  constructor
  · intro c c' b hrun
    obtain ⟨a, c₁, hread, hrest⟩ := andThen_ok_iff.mp hrun
    obtain ⟨hstop, hmore⟩ := h.goes hread
    obtain ⟨hstop', hmore'⟩ := (hnext _ _).goes hrest
    refine ⟨hstop'.trans hstop, fun more => ?_⟩
    exact andThen_ok_iff.mpr ⟨a, c₁.extend more, hmore more, hmore' more⟩
  · intro c f hrun
    obtain herror | ⟨a, c₁, hread, herror⟩ := andThen_error_iff.mp hrun
    · obtain hlacks | ⟨hlasts, hmore⟩ := h.fails herror
      · exact .inl hlacks
      · exact .inr ⟨hlasts, fun more => andThen_error_iff.mpr (.inl (hmore more))⟩
    · obtain ⟨hstop, hmore⟩ := h.goes hread
      rw [← hstop]
      obtain hlacks | ⟨hlasts, hmore'⟩ := (hnext _ _).fails herror
      · exact .inl hlacks
      · refine .inr ⟨hlasts, fun more => andThen_error_iff.mpr (.inr ?_)⟩
        exact ⟨a, c₁.extend more, hmore more, hmore' more⟩

theorem local_give (a : α) : (give a).Local := by
  constructor
  · intro c c' b h
    cases h
    exact ⟨rfl, fun more => rfl⟩
  · intro c f h
    cases h

theorem local_fail {f : DecodeFault} (hf : f.Lasting) : (fail (α := α) f).Local := by
  constructor
  · intro c c' b h
    cases h
  · intro c g h
    cases h
    exact .inr ⟨hf, fun more => rfl⟩

theorem local_take (n : Nat) : Local (Cursor.take n) := by
  constructor
  · intro c c' bytes h
    obtain ⟨hlen, hspan⟩ := Cursor.take_ok_iff.mp h
    exact ⟨hspan.stop_eq, fun more => Cursor.take_ok_iff.mpr ⟨hlen, hspan.extend more⟩⟩
  · intro c f h
    unfold Cursor.take at h
    split at h
    · rename_i hshort
      cases h
      exact .inl ⟨_, _, _, rfl, rfl, hshort⟩
    · cases h

theorem local_byte : Local Cursor.byte := by
  constructor
  · intro c c' b h
    have hspan := Cursor.byte_ok_iff.mp h
    exact ⟨hspan.stop_eq, fun more => Cursor.byte_ok_iff.mpr (hspan.extend more)⟩
  · intro c f h
    unfold Cursor.byte at h
    split at h
    · cases h
    · rename_i hnone
      cases h
      refine .inl ⟨c.offset, 1, 0, rfl, ?_, Nat.one_pos⟩
      rw [Cursor.stop, hnone]
      rfl

theorem local_flag {bad : Nat → UInt8 → DecodeFault} (hbad : ∀ offset b, (bad offset b).Lasting) :
    (flag bad).Local := by
  refine local_byte.andThen fun offset b => ?_
  split
  · exact local_give false
  · split
    · exact local_give true
    · exact local_fail (hbad offset b)

theorem local_word : Local Cursor.word := by
  rw [word_eq]
  exact (local_take 4).andThen fun _ _ => local_give _

/-! ## Values -/

theorem local_text (capacity : Nat) : Local (Cursor.text capacity) := by
  rw [text_eq]
  refine local_byte.andThen fun offset length => ?_
  split
  · exact local_fail trivial
  · refine (local_take length.toNat).andThen fun _ bytes => ?_
    cases Text.ofUtf8? bytes with
    | none => exact local_fail trivial
    | some s => exact local_give s

theorem local_decodeScalar (p : Primitive) : Local (decodeScalar p) := by
  by_cases hp : p.range? = none
  · obtain rfl | rfl := (range?_eq_none_iff p).mp hp
    · rw [decodeScalar_float]
      exact (local_take 4).andThen fun _ _ => local_give _
    · rw [decodeScalar_bool]
      have hbad : ∀ offset b, (DecodeFault.invalidBool offset b).Lasting := fun _ _ => trivial
      exact (local_flag hbad).andThen fun _ _ => local_give _
  · rw [decodeScalar_int hp]
    exact (local_take p.size).andThen fun _ _ => local_give _

theorem local_decodeElements (p : Primitive) (count : Nat) : Local (decodeElements p count) := by
  induction count with
  | zero => exact local_give []
  | succ count ih =>
    rw [decodeElements_succ]
    exact (local_decodeScalar p).andThen fun _ _ => ih.andThen fun _ _ => local_give _

theorem local_decodeValue (type : FieldType) : Local (decodeValue type) := by
  cases type with
  | scalar p => exact local_decodeScalar p
  | text capacity =>
    rw [decodeValue_text]
    exact (local_text capacity.toNat).andThen fun _ _ => local_give _
  | array element count =>
    rw [decodeValue_array]
    exact (local_decodeElements element count.toNat).andThen fun _ _ => local_give _

/-! ## Fields -/

theorem local_decodePresent (type : FieldType) : Local (decodePresent type) := by
  rw [decodePresent_eq]
  exact (local_decodeValue type).andThen fun _ _ => local_give _

theorem local_decodeField (f : FieldSpec) : Local (decodeField f) := by
  by_cases hf : f.optional = true
  · rw [decodeField_optional hf]
    have hbad : ∀ offset b, (DecodeFault.invalidPresence offset b).Lasting := fun _ _ => trivial
    refine (local_flag hbad).andThen fun _ present => ?_
    cases present
    · exact local_give none
    · exact local_decodePresent f.type
  · rw [decodeField_required hf]
    exact local_decodePresent f.type

theorem local_decodeFields (fs : List FieldSpec) : Local (decodeFields fs) := by
  induction fs with
  | nil => exact local_give []
  | cons f fs ih =>
    rw [decodeFields_cons]
    exact (local_decodeField f).andThen fun _ _ => ih.andThen fun _ _ => local_give _

/-! ## Control frames -/

theorem local_decodeWords : Local ControlFrame.decodeWords := by
  rw [decodeWords_eq]
  exact local_word.andThen fun _ _ => local_word.andThen fun _ _ => local_give _

theorem local_refusal (offset : Nat) (code : UInt8) :
    Local ((Refusal.ofCode? code).elim (fail (.unknownRejectCode offset code)) fun refusal =>
      give (ControlFrame.rejected refusal)) := by
  cases Refusal.ofCode? code with
  | none => exact local_fail trivial
  | some refusal => exact local_give _

theorem local_decodeBody (tag : UInt8) : Local (ControlFrame.decodeBody tag) := by
  rw [decodeBody_eq]
  split
  · exact local_decodeWords.andThen fun _ _ => local_give _
  split
  · exact local_decodeWords.andThen fun _ _ => local_give _
  split
  · exact local_byte.andThen local_refusal
  split
  · exact (local_text ControlFrame.reasonLimit).andThen fun _ _ => local_give _
  · exact local_fail trivial

/-! ## Whole frames -/

theorem whole_ok_iff {read : Reading α} {frame : List UInt8} {a : α} :
    read.whole frame = .ok a ↔
      ∃ c, read (Cursor.start frame) = .ok (a, c) ∧ c.rest = [] := by
  unfold whole
  rcases hread : read (Cursor.start frame) with f | ⟨b, c⟩
  · simp
  · simp only [Except.ok.injEq, Prod.mk.injEq]
    cases hfinish : c.finish with
    | error f =>
      have hrest := (Cursor.finish_error_iff.mp hfinish).1
      refine iff_of_false (by rintro ⟨⟩) ?_
      rintro ⟨c', ⟨-, rfl⟩, hnil⟩
      exact hrest hnil
    | ok u =>
      have hrest := Cursor.finish_ok_iff.mp hfinish
      constructor
      · intro h
        exact ⟨c, ⟨Except.ok.inj h, rfl⟩, hrest⟩
      · rintro ⟨c', ⟨hb, -⟩, -⟩
        exact congrArg Except.ok hb

theorem whole_error_iff {read : Reading α} {frame : List UInt8} {f : DecodeFault} :
    read.whole frame = .error f ↔
      read (Cursor.start frame) = .error f ∨
        ∃ a c, read (Cursor.start frame) = .ok (a, c) ∧ c.finish = .error f := by
  unfold whole
  rcases hread : read (Cursor.start frame) with g | ⟨b, c⟩
  · simp
  · simp only [Except.ok.injEq, Prod.mk.injEq, reduceCtorEq, false_or]
    cases hfinish : c.finish with
    | error g =>
      constructor
      · intro h
        have hg : g = f := Except.error.inj h
        exact ⟨b, c, ⟨rfl, rfl⟩, hg ▸ hfinish⟩
      · rintro ⟨b', c', ⟨-, rfl⟩, h⟩
        rw [hfinish] at h
        exact congrArg Except.error (Except.error.inj h)
    | ok u =>
      refine iff_of_false (by rintro ⟨⟩) ?_
      rintro ⟨b', c', ⟨-, rfl⟩, h⟩
      rw [hfinish] at h
      cases h

end Reading

/-! ## Whole frames that go on -/

namespace Reading.Local

open Reading

variable {read : Reading α} {frame more : List UInt8} {f : DecodeFault}
  {offset expected got : Nat}

theorem start_append (frame more : List UInt8) :
    Cursor.start (frame ++ more) = (Cursor.start frame).extend more := rfl

theorem start_stop (frame : List UInt8) : (Cursor.start frame).stop = frame.length :=
  Nat.zero_add _

theorem whole_complete (h : read.Local) {a : α} (hok : read.whole frame = .ok a)
    (hmore : more ≠ []) :
    read.whole (frame ++ more) =
      .error (.trailingBytes frame.length frame.length (frame.length + more.length)) := by
  obtain ⟨c, hread, hrest⟩ := whole_ok_iff.mp hok
  obtain ⟨hstop, hgoes⟩ := h.goes hread
  have hoffset : c.offset = frame.length := by
    rw [← start_stop, ← hstop, Cursor.stop, hrest]
    rfl
  have hfinish : (c.extend more).finish =
      .error (.trailingBytes frame.length frame.length (frame.length + more.length)) := by
    rw [Cursor.finish_error_iff, ← hoffset, Cursor.stop, Cursor.extend, hrest]
    exact ⟨hmore, rfl⟩
  rw [whole_error_iff, start_append]
  exact .inr ⟨a, c.extend more, hgoes more, hfinish⟩

theorem whole_overlong (h : read.Local)
    (herror : read.whole frame = .error (.trailingBytes offset expected got)) :
    read.whole (frame ++ more) =
      .error (.trailingBytes offset expected (got + more.length)) := by
  rw [whole_error_iff, start_append]
  obtain hread | ⟨a, c, hread, hfinish⟩ := whole_error_iff.mp herror
  · obtain ⟨_, _, _, hf, -⟩ | ⟨hlasts, -⟩ := h.fails hread
    · cases hf
    · exact hlasts.elim
  · obtain ⟨hrest, hf⟩ := Cursor.finish_error_iff.mp hfinish
    cases hf
    refine .inr ⟨a, c.extend more, (h.goes hread).2 more, Cursor.finish_error_iff.mpr ⟨?_, ?_⟩⟩
    · exact List.append_ne_nil_of_left_ne_nil hrest more
    · simp only [Cursor.stop, Cursor.extend, List.length_append, Nat.add_assoc]

theorem whole_wrong (h : read.Local) (herror : read.whole frame = .error f)
    (hlasts : f.Lasting) : read.whole (frame ++ more) = .error f := by
  rw [whole_error_iff, start_append]
  obtain hread | ⟨a, c, hread, hfinish⟩ := whole_error_iff.mp herror
  · obtain ⟨_, _, _, rfl, -⟩ | ⟨-, hmore⟩ := h.fails hread
    · exact hlasts.elim
    · exact .inl (hmore more)
  · obtain ⟨-, rfl⟩ := Cursor.finish_error_iff.mp hfinish
    exact hlasts.elim

theorem whole_truncated (h : read.Local)
    (herror : read.whole frame = .error (.truncated offset expected got)) :
    offset + got = frame.length ∧ got < expected := by
  obtain hread | ⟨a, c, hread, hfinish⟩ := whole_error_iff.mp herror
  · obtain ⟨_, _, _, hf, hsum, hless⟩ | ⟨hlasts, -⟩ := h.fails hread
    · cases hf
      exact ⟨hsum.trans (start_stop frame), hless⟩
    · exact hlasts.elim
  · cases (Cursor.finish_error_iff.mp hfinish).2

/-- What comes before the end of a frame is cut short: no other outcome could still be mended. -/
theorem whole_cut (h : read.Local) {a : α} (hok : read.whole (frame ++ more) = .ok a)
    (hmore : more ≠ []) :
    ∃ offset expected got, read.whole frame = .error (.truncated offset expected got) ∧
      offset + got = frame.length ∧ got < expected := by
  cases hcut : read.whole frame with
  | ok b =>
    rw [h.whole_complete hcut hmore] at hok
    cases hok
  | error f =>
    cases f with
    | truncated offset expected got =>
      exact ⟨offset, expected, got, rfl, h.whole_truncated hcut⟩
    | trailingBytes offset expected got =>
      rw [h.whole_overlong hcut] at hok
      cases hok
    | _ =>
      rw [h.whole_wrong hcut trivial] at hok
      cases hok

end Reading.Local

/-- How a reader of frames takes more bytes at the end, and how it takes the lack of some. -/
structure SelfDelimiting (decode : List UInt8 → Except DecodeFault α) : Prop where
  complete : ∀ frame a more, decode frame = .ok a → more ≠ [] →
    decode (frame ++ more) =
      .error (.trailingBytes frame.length frame.length (frame.length + more.length))
  overlong : ∀ frame offset expected got more,
    decode frame = .error (.trailingBytes offset expected got) →
    decode (frame ++ more) = .error (.trailingBytes offset expected (got + more.length))
  wrong : ∀ frame f more, decode frame = .error f → f.Lasting → decode (frame ++ more) = .error f
  cut : ∀ frame a more, decode (frame ++ more) = .ok a → more ≠ [] →
    ∃ offset expected got, decode frame = .error (.truncated offset expected got) ∧
      offset + got = frame.length ∧ got < expected

theorem Reading.Local.selfDelimiting {read : Reading α} (h : read.Local) :
    SelfDelimiting read.whole where
  complete _ _ _ hok hmore := h.whole_complete hok hmore
  overlong _ _ _ _ _ herror := h.whole_overlong herror
  wrong _ _ _ herror hlasts := h.whole_wrong herror hlasts
  cut _ _ _ hok hmore := h.whole_cut hok hmore

/-! ## Messages and control frames -/

theorem MessageSpec.local_body (m : MessageSpec) (tag : UInt8) : (m.body tag).Local := by
  unfold body
  split
  · exact Reading.local_fail trivial
  · exact (Reading.local_decodeFields m.fields).andThen fun _ _ => Reading.local_give _

theorem Protocol.local_body (p : Protocol) (tag : UInt8) : (p.body tag).Local := by
  unfold body
  cases p.ofTag? tag with
  | none => exact Reading.local_fail trivial
  | some m => exact m.local_body tag

theorem ControlFrame.decode_eq_whole :
    ControlFrame.decode =
      (Reading.andThen Cursor.byte fun _ tag => ControlFrame.decodeBody tag).whole := by
  funext frame
  unfold ControlFrame.decode Reading.whole Reading.andThen
  rcases (Cursor.start frame).byte with f | ⟨tag, c⟩
  · rfl
  · dsimp only
    rcases ControlFrame.decodeBody tag c with f | ⟨body, c'⟩ <;> rfl

/-- Frames end where their content says. A complete frame that goes on is too long by what follows, a
wrong one stays wrong in the same way, and every part before the end of a complete one is cut short. -/
theorem frames_self_delimiting :
    (∀ p : Protocol, SelfDelimiting p.decode) ∧ SelfDelimiting ControlFrame.decode := by
  constructor
  · intro p
    rw [p.decode_eq_whole]
    exact (Reading.local_byte.andThen fun _ tag => p.local_body tag).selfDelimiting
  · rw [ControlFrame.decode_eq_whole]
    exact (Reading.local_byte.andThen fun _ tag => Reading.local_decodeBody tag).selfDelimiting

end Gamewire
