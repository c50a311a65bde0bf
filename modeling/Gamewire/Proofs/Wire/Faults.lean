import Gamewire.Proofs.Wire.Extension
import Mathlib.Tactic.Choose

/-! What a fault of reading says of a frame is true, and where it points is what is wrong. The same holds
of each step of reading from any place in a frame, and a step that comes to an end leaves the cursor in the
frame, so that no step begins behind its end. -/
namespace Gamewire
set_option autoImplicit false

/-! ## What faults say -/

/-- What the fault says is true of the frame. An offset with a byte under it lies before the end. -/
def DecodeFault.PointsInto (frame : List UInt8) : DecodeFault → Prop
  | truncated offset expected got => offset + got = frame.length ∧ got < expected
  | trailingBytes offset expected got => offset = expected ∧ expected < got ∧ got = frame.length
  | unknownTag offset tag => offset = 0 ∧ frame[0]? = some tag
  | tagMismatch offset expected got => offset = 0 ∧ frame[0]? = some got ∧ got ≠ expected
  | invalidBool offset got => frame[offset]? = some got ∧ 2 ≤ got
  | invalidPresence offset got => frame[offset]? = some got ∧ 2 ≤ got
  | stringTooLong offset expected got =>
    ∃ length, frame[offset]? = some length ∧ length.toNat = got ∧ expected < got
  | invalidUtf8 offset =>
    1 ≤ offset ∧ ∃ length, frame[offset - 1]? = some length ∧
      offset + length.toNat ≤ frame.length ∧
      ∀ s, Text.utf8Bytes s ≠ (frame.drop offset).take length.toNat
  | unknownRejectCode offset got => frame[offset]? = some got ∧ ¬ (1 ≤ got ∧ got ≤ 5)

/-! ## Positions in a frame -/

namespace Cursor

/-- Reading the frame from its start may come to `c`. -/
def LiesIn (frame : List UInt8) (c : Cursor) : Prop := ∃ before, (start frame).Spans before c

variable {frame bytes : List UInt8} {c c' : Cursor} {b : UInt8}

theorem liesIn_start (frame : List UInt8) : LiesIn frame (start frame) := ⟨[], Spans.refl _⟩

theorem LiesIn.spans (h : LiesIn frame c) (hspan : c.Spans bytes c') : LiesIn frame c' := by
  obtain ⟨before, hbefore⟩ := h
  exact ⟨before ++ bytes, hbefore.trans hspan⟩

theorem LiesIn.stop_eq (h : LiesIn frame c) : c.stop = frame.length := by
  obtain ⟨before, hbefore⟩ := h
  rw [hbefore.stop_eq]
  exact Nat.zero_add _

theorem LiesIn.offset_le (h : LiesIn frame c) : c.offset ≤ frame.length := by
  rw [← h.stop_eq]
  exact Nat.le_add_right _ _

theorem LiesIn.drop_eq (h : LiesIn frame c) : frame.drop c.offset = c.rest := by
  obtain ⟨before, hframe, hoffset⟩ := h
  have hsplit : frame = before ++ c.rest := hframe
  rw [hoffset, hsplit, start, Nat.zero_add, List.drop_left]

theorem LiesIn.getElem?_eq (h : LiesIn frame c) (hspan : c.Spans [b] c') :
    frame[c.offset]? = some b := by
  have hhead : (frame.drop c.offset)[0]? = some b := by
    rw [h.drop_eq, hspan.1]
    rfl
  rwa [List.getElem?_drop] at hhead

theorem LiesIn.take_eq (h : LiesIn frame c) (hspan : c.Spans bytes c') :
    (frame.drop c.offset).take bytes.length = bytes := by
  rw [h.drop_eq, hspan.1, List.take_left]

end Cursor

/-! ## Readings as plans -/

/-- The steps of a reading: it asks for some bytes, and how it goes on depends on where they begin and on
what they are. -/
inductive Plan (α : Type) where
  | give (a : α)
  | fail (f : DecodeFault)
  | take (n : Nat) (next : Nat → List UInt8 → Plan α)

namespace Plan

variable {α β : Type} {frame : List UInt8} {c c' : Cursor} {a : α}

def run : Plan α → Reading α
  | give a => Reading.give a
  | fail f => Reading.fail f
  | take n next => Reading.andThen (Cursor.take n) fun offset bytes => (next offset bytes).run

/-- Carries the plan out on a frame with nothing but the position reached. Where it asks for bytes, those
left are the length of the frame less the position; there is no outcome if the position is the greater. -/
def runAt (frame : List UInt8) : Plan α → Nat → Option (Except DecodeFault (α × Nat))
  | give a, pos => some (.ok (a, pos))
  | fail f, _ => some (.error f)
  | take n next, pos =>
    if frame.length < pos then none
    else if frame.length - pos < n then some (.error (.truncated pos n (frame.length - pos)))
    else runAt frame (next pos ((frame.drop pos).take n)) (pos + n)

/-- As `runAt`, and the frame has to end at the position reached. -/
def decodeAt (plan : Plan α) (frame : List UInt8) : Option (Except DecodeFault α) :=
  (plan.runAt frame 0).map fun outcome => outcome.bind fun x =>
    if x.2 < frame.length then .error (.trailingBytes x.2 x.2 frame.length) else .ok x.1

def bind : Plan α → (α → Plan β) → Plan β
  | give a, next => next a
  | fail f, _ => fail f
  | take n rest, next => take n fun offset bytes => (rest offset bytes).bind next

theorem run_bind (plan : Plan α) (next : α → Plan β) :
    (plan.bind next).run = plan.run.andThen fun _ a => (next a).run := by
  induction plan with
  | give a => rfl
  | fail f => rfl
  | take n rest ih =>
    funext c
    simp only [bind, run, ih]
    unfold Reading.andThen
    cases c.take n <;> rfl

/-- The position is never behind the end of the frame, and with it alone the plan comes to the same. -/
theorem runAt_eq (plan : Plan α) (h : Cursor.LiesIn frame c) :
    plan.runAt frame c.offset = some ((plan.run c).map fun x => (x.1, x.2.offset)) := by
  induction plan generalizing c with
  | give a => rfl
  | fail f => rfl
  | take n next ih =>
    have hleft : frame.length - c.offset = c.rest.length := by
      rw [← h.drop_eq, List.length_drop]
    rw [runAt, if_neg (Nat.not_lt.mpr h.offset_le), hleft, run]
    unfold Reading.andThen
    by_cases hshort : c.rest.length < n
    · rw [if_pos hshort, Cursor.take, if_pos hshort]
      rfl
    · have htake : c.take n = .ok (c.rest.take n, ⟨c.offset + n, c.rest.drop n⟩) := if_neg hshort
      obtain ⟨-, hspan⟩ := Cursor.take_ok_iff.mp htake
      rw [if_neg hshort, htake, h.drop_eq]
      exact ih _ _ (h.spans hspan)

theorem liesIn_of_run {plan : Plan α} (h : Cursor.LiesIn frame c) (hrun : plan.run c = .ok (a, c')) :
    Cursor.LiesIn frame c' := by
  induction plan generalizing c with
  | give b =>
    cases hrun
    exact h
  | fail f => cases hrun
  | take n next ih =>
    obtain ⟨bytes, c₁, htake, hrest⟩ := Reading.andThen_ok_iff.mp hrun
    exact ih _ _ (h.spans (Cursor.take_ok_iff.mp htake).2) hrest

end Plan

/-! ## Steps that are right about the frame -/

variable {α β : Type} {About : List UInt8 → Prop}

/-- The faults of the reading are right on the frames that it is about, wherever in them it begins; and it
carries out a plan. -/
structure Reading.Sound (About : List UInt8 → Prop) (read : Reading α) : Prop where
  planned : ∃ plan : Plan α, plan.run = read
  points : ∀ {frame c f}, About frame → Cursor.LiesIn frame c → read c = .error f →
    f.PointsInto frame

namespace Reading

theorem sound_give (a : α) : Sound About (give a) := by
  refine ⟨⟨.give a, rfl⟩, ?_⟩
  intro frame c f _ _ h
  cases h

theorem sound_fail {f : DecodeFault} (h : ∀ frame, About frame → f.PointsInto frame) :
    Sound About (fail (α := α) f) := by
  refine ⟨⟨.fail f, rfl⟩, ?_⟩
  intro frame c g habout _ hf
  cases hf
  exact h frame habout

theorem Sound.andThen {read : Reading α} {next : α → Reading β} (h : Sound About read)
    (hnext : ∀ a, Sound About (next a)) : Sound About (read.andThen fun _ => next) := by
  obtain ⟨plan, rfl⟩ := h.planned
  choose rest hrest using fun a => (hnext a).planned
  refine ⟨⟨plan.bind rest, ?_⟩, ?_⟩
  · rw [Plan.run_bind, funext hrest]
  · intro frame c f habout hc herror
    obtain herror | ⟨a, c₁, hread, herror⟩ := andThen_error_iff.mp herror
    · exact h.points habout hc herror
    · exact (hnext a).points habout (Plan.liesIn_of_run hc hread) herror

theorem sound_take (n : Nat) : Sound About (Cursor.take n) := by
  refine ⟨⟨.take n fun _ => .give, andThen_give _⟩, ?_⟩
  intro frame c f _ hc h
  unfold Cursor.take at h
  split at h
  · rename_i hshort
    cases h
    exact ⟨hc.stop_eq, hshort⟩
  · cases h

theorem byte_eq : Cursor.byte = andThen (Cursor.take 1) fun _ bytes => give (bytes.headD 0) := by
  funext c
  obtain ⟨offset, rest⟩ := c
  cases rest <;> rfl

theorem sound_byte : Sound About Cursor.byte := by
  rw [byte_eq]
  exact (sound_take 1).andThen fun bytes => sound_give _

theorem planned_byte_andThen {next : Nat → UInt8 → Reading α}
    (h : ∀ offset b, ∃ plan : Plan α, plan.run = next offset b) :
    ∃ plan : Plan α, plan.run = andThen Cursor.byte next := by
  choose rest hrest using h
  refine ⟨.take 1 fun offset bytes => rest offset (bytes.headD 0), ?_⟩
  funext c
  obtain ⟨offset, bytes⟩ := c
  simp only [Plan.run, hrest]
  cases bytes <;> rfl

/-- What follows a byte may be wrong about it: it lies under the offset at which it began. -/
theorem sound_byte_andThen {next : Nat → UInt8 → Reading α}
    (hnext : ∀ offset b, Sound (fun frame => About frame ∧ frame[offset]? = some b) (next offset b)) :
    Sound About (andThen Cursor.byte next) := by
  refine ⟨planned_byte_andThen fun offset b => (hnext offset b).planned, ?_⟩
  intro frame c f habout hc herror
  obtain herror | ⟨b, c₁, hbyte, herror⟩ := andThen_error_iff.mp herror
  · exact sound_byte.points habout hc herror
  · have hspan := Cursor.byte_ok_iff.mp hbyte
    exact (hnext c.offset b).points ⟨habout, hc.getElem?_eq hspan⟩ (hc.spans hspan) herror

theorem sound_flag {bad : Nat → UInt8 → DecodeFault}
    (hbad : ∀ frame offset b, frame[offset]? = some b → 2 ≤ b → (bad offset b).PointsInto frame) :
    Sound About (flag bad) := by
  refine sound_byte_andThen fun offset b => ?_
  split
  · exact sound_give false
  split
  · exact sound_give true
  rename_i hzero hone
  have hmore : 2 ≤ b := by
    have h₀ : b.toNat ≠ 0 := fun h => hzero (UInt8.toNat_inj.mp h)
    have h₁ : b.toNat ≠ 1 := fun h => hone (UInt8.toNat_inj.mp h)
    show 2 ≤ b.toNat
    omega
  exact sound_fail fun frame h => hbad frame offset b h.2 hmore

theorem sound_word : Sound About Cursor.word := by
  rw [word_eq]
  exact (sound_take 4).andThen fun _ => sound_give _

/-! ## Values -/

theorem planned_text (capacity : Nat) : ∃ plan : Plan String, plan.run = Cursor.text capacity := by
  rw [text_eq]
  refine planned_byte_andThen fun offset length => ?_
  split
  · exact ⟨.fail _, rfl⟩
  · refine ⟨.take length.toNat fun _ bytes =>
      (Text.ofUtf8? bytes).elim (.fail (.invalidUtf8 (offset + 1))) .give, ?_⟩
    funext c
    simp only [Plan.run]
    unfold andThen
    rcases c.take length.toNat with f | ⟨bytes, c₁⟩
    · rfl
    · cases hs : Text.ofUtf8? bytes <;> simp only [hs] <;> rfl

theorem sound_text (capacity : Nat) : Sound About (Cursor.text capacity) := by
  refine ⟨planned_text capacity, ?_⟩
  intro frame c f habout hc herror
  rw [text_eq] at herror
  obtain herror | ⟨length, c₁, hbyte, herror⟩ := andThen_error_iff.mp herror
  · exact sound_byte.points habout hc herror
  have hspan := Cursor.byte_ok_iff.mp hbyte
  have hlength := hc.getElem?_eq hspan
  by_cases hlong : capacity < length.toNat
  · rw [if_pos hlong] at herror
    cases herror
    exact ⟨length, hlength, rfl, hlong⟩
  rw [if_neg hlong] at herror
  obtain herror | ⟨bytes, c₂, htake, herror⟩ := andThen_error_iff.mp herror
  · exact (sound_take _).points habout (hc.spans hspan) herror
  obtain ⟨hcount, hspan'⟩ := Cursor.take_ok_iff.mp htake
  cases hs : Text.ofUtf8? bytes with
  | some s =>
    rw [hs] at herror
    cases herror
  | none =>
    rw [hs] at herror
    cases herror
    have hc₁ := hc.spans hspan
    have hoffset : c₁.offset = c.offset + 1 := hspan.2
    refine ⟨Nat.le_add_left 1 _, length, hlength, ?_, fun s hbytes => ?_⟩
    · rw [← hoffset, ← hcount, ← hspan'.2]
      exact (hc₁.spans hspan').offset_le
    · rw [← hoffset, ← hcount, hc₁.take_eq hspan'] at hbytes
      rw [← hbytes, Text.ofUtf8?_utf8Bytes] at hs
      cases hs

theorem sound_decodeScalar (p : Primitive) : Sound About (decodeScalar p) := by
  by_cases hp : p.range? = none
  · obtain rfl | rfl := (range?_eq_none_iff p).mp hp
    · rw [decodeScalar_float]
      exact (sound_take 4).andThen fun _ => sound_give _
    · rw [decodeScalar_bool]
      have hflag : Sound About (flag .invalidBool) := sound_flag fun _ _ _ hb hmore => ⟨hb, hmore⟩
      exact hflag.andThen fun _ => sound_give _
  · rw [decodeScalar_int hp]
    exact (sound_take p.size).andThen fun _ => sound_give _

theorem sound_decodeElements (p : Primitive) (count : Nat) : Sound About (decodeElements p count) := by
  induction count with
  | zero => exact sound_give []
  | succ count ih =>
    rw [decodeElements_succ]
    exact (sound_decodeScalar p).andThen fun _ => ih.andThen fun _ => sound_give _

theorem sound_decodeValue (type : FieldType) : Sound About (decodeValue type) := by
  cases type with
  | scalar p => exact sound_decodeScalar p
  | text capacity =>
    rw [decodeValue_text]
    exact (sound_text capacity.toNat).andThen fun _ => sound_give _
  | array element count =>
    rw [decodeValue_array]
    exact (sound_decodeElements element count.toNat).andThen fun _ => sound_give _

/-! ## Fields -/

theorem sound_decodePresent (type : FieldType) : Sound About (decodePresent type) := by
  rw [decodePresent_eq]
  exact (sound_decodeValue type).andThen fun _ => sound_give _

theorem sound_decodeField (f : FieldSpec) : Sound About (decodeField f) := by
  by_cases hf : f.optional = true
  · rw [decodeField_optional hf]
    have hflag : Sound About (flag .invalidPresence) := sound_flag fun _ _ _ hb hmore => ⟨hb, hmore⟩
    refine hflag.andThen fun present => ?_
    cases present
    · exact sound_give none
    · exact sound_decodePresent f.type
  · rw [decodeField_required hf]
    exact sound_decodePresent f.type

theorem sound_decodeFields (fs : List FieldSpec) : Sound About (decodeFields fs) := by
  induction fs with
  | nil => exact sound_give []
  | cons f fs ih =>
    rw [decodeFields_cons]
    exact (sound_decodeField f).andThen fun _ => ih.andThen fun _ => sound_give _

/-! ## What follows a tag -/

theorem sound_message (m : MessageSpec) (tag : UInt8) :
    Sound (fun frame => frame[0]? = some tag) (m.body tag) := by
  unfold MessageSpec.body
  split
  · rename_i hother
    exact sound_fail fun frame hhead => ⟨rfl, hhead, hother⟩
  · exact (sound_decodeFields m.fields).andThen fun _ => sound_give _

theorem sound_protocol (p : Protocol) (tag : UInt8) :
    Sound (fun frame => frame[0]? = some tag) (p.body tag) := by
  unfold Protocol.body
  cases p.ofTag? tag with
  | none => exact sound_fail fun frame hhead => ⟨rfl, hhead⟩
  | some m => exact sound_message m tag

theorem sound_decodeWords : Sound About ControlFrame.decodeWords := by
  rw [decodeWords_eq]
  exact sound_word.andThen fun _ => sound_word.andThen fun _ => sound_give _

theorem ofCode?_eq_none {code : UInt8} (h : Refusal.ofCode? code = none) :
    ¬ (1 ≤ code ∧ code ≤ 5) := by
  rintro ⟨hlow, hhigh⟩
  have hcodes : ∀ n : Fin 6, 1 ≤ n.val → Refusal.ofCode? (UInt8.ofNat n) ≠ none := by decide
  have hlt : code.toNat < 6 := Nat.lt_succ_of_le (UInt8.le_iff_toNat_le.mp hhigh)
  refine hcodes ⟨code.toNat, hlt⟩ (UInt8.le_iff_toNat_le.mp hlow) ?_
  rw [UInt8.ofNat_toNat]
  exact h

theorem sound_refusal (offset : Nat) (code : UInt8) :
    Sound (fun frame => About frame ∧ frame[offset]? = some code)
      ((Refusal.ofCode? code).elim (fail (.unknownRejectCode offset code)) fun refusal =>
        give (ControlFrame.rejected refusal)) := by
  cases hcode : Refusal.ofCode? code with
  | none => exact sound_fail fun frame h => ⟨h.2, ofCode?_eq_none hcode⟩
  | some refusal => exact sound_give _

theorem sound_control (tag : UInt8) :
    Sound (fun frame => frame[0]? = some tag) (ControlFrame.decodeBody tag) := by
  rw [decodeBody_eq]
  split
  · exact sound_decodeWords.andThen fun _ => sound_give _
  split
  · exact sound_decodeWords.andThen fun _ => sound_give _
  split
  · exact sound_byte_andThen sound_refusal
  split
  · exact (sound_text ControlFrame.reasonLimit).andThen fun _ => sound_give _
  · exact sound_fail fun frame hhead => ⟨rfl, hhead⟩

end Reading

/-! ## Whole frames -/

/-- A reader of frames whose faults are right, and which can do with the position reached: the number of
bytes left, that is the length less the position, is never asked for from behind the end. -/
structure Traced (decode : List UInt8 → Except DecodeFault α) : Prop where
  points : ∀ frame f, decode frame = .error f → f.PointsInto frame
  inside : ∃ plan : Plan α, ∀ frame, plan.decodeAt frame = some (decode frame)

namespace Reading

theorem decodeAt_eq {plan : Plan α} (frame : List UInt8) :
    plan.decodeAt frame = some (plan.run.whole frame) := by
  have hrun := plan.runAt_eq (Cursor.liesIn_start frame)
  have hstart : (Cursor.start frame).offset = 0 := rfl
  rw [hstart] at hrun
  rw [Plan.decodeAt, hrun, whole]
  rcases hread : plan.run (Cursor.start frame) with f | ⟨a, c⟩
  · rfl
  have hc := Plan.liesIn_of_run (Cursor.liesIn_start frame) hread
  simp only [Option.map_some, Except.map, Except.bind, ← hc.stop_eq]
  by_cases hend : c.rest = []
  · rw [if_neg (by rw [Cursor.stop, hend]; simp), Cursor.finish_ok_iff.mpr hend]
  · have hmore : 0 < c.rest.length := List.length_pos_iff.mpr hend
    rw [if_pos (by rw [Cursor.stop]; omega), Cursor.finish_error_iff.mpr ⟨hend, rfl⟩]

/-- The first byte of a frame is its tag, and what follows may be wrong about it. -/
theorem traced_whole {body : UInt8 → Reading α}
    (h : ∀ tag, Sound (fun frame => frame[0]? = some tag) (body tag)) :
    Traced (andThen Cursor.byte fun _ tag => body tag).whole := by
  obtain ⟨plan, hplan⟩ := planned_byte_andThen fun _ tag => (h tag).planned
  refine ⟨fun frame f herror => ?_, plan, fun frame => hplan ▸ decodeAt_eq frame⟩
  have hstart := Cursor.liesIn_start frame
  obtain herror | ⟨a, c, hread, hfinish⟩ := whole_error_iff.mp herror
  · obtain herror | ⟨tag, c, hbyte, herror⟩ := andThen_error_iff.mp herror
    · have hsound : Sound (fun _ => True) Cursor.byte := sound_byte
      exact hsound.points trivial hstart herror
    · have hspan := Cursor.byte_ok_iff.mp hbyte
      exact (h tag).points (hstart.getElem?_eq hspan) (hstart.spans hspan) herror
  · obtain ⟨hrest, rfl⟩ := Cursor.finish_error_iff.mp hfinish
    have hc : Cursor.LiesIn frame c := Plan.liesIn_of_run hstart (hplan ▸ hread)
    exact ⟨rfl, Nat.lt_add_of_pos_right (List.length_pos_iff.mpr hrest), hc.stop_eq⟩

end Reading

/-- Whatever is read, by a protocol, by one of its messages or as a control frame: what the fault says is
true of the frame, and no step of reading begins behind its end. -/
theorem faults_traced :
    (∀ p : Protocol, Traced p.decode) ∧ (∀ m : MessageSpec, Traced m.decode) ∧
      Traced ControlFrame.decode := by
  refine ⟨fun p => ?_, fun m => ?_, ?_⟩
  · rw [p.decode_eq_whole]
    exact Reading.traced_whole (Reading.sound_protocol p)
  · rw [m.decode_eq_whole]
    exact Reading.traced_whole (Reading.sound_message m)
  · rw [ControlFrame.decode_eq_whole]
    exact Reading.traced_whole Reading.sound_control

end Gamewire
