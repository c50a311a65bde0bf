import Gamewire.Proofs.Client.Follows
import Gamewire.Proofs.Client.Writing

/-! The readers of a client module make the same of a frame as the wire format, and leave an object to which
each field has been assigned. -/
namespace Gamewire.Client
set_option autoImplicit false

variable {nan : UInt32}

/-! ## Values -/

theorem follows_signed (size : Nat) :
    Follows (fun bytes => Int.bmod (ofLittleEndian bytes) (Nat.pow 256 size)) (Cursor.take size)
      (Script.signed size) :=
  (follows_unsigned size).after fun n => Int.bmod n (Nat.pow 256 size)

theorem intOfBytes_signed {p : Primitive} (hp : p.isSigned = true) (bytes : List UInt8) :
    p.intOfBytes bytes = Int.bmod (ofLittleEndian bytes) (Nat.pow 256 p.size) := by
  rw [Primitive.intOfBytes, if_pos hp]

theorem follows_scalar (p : Primitive) :
    Follows (seenScalar nan) (decodeScalar p) ((ScalarRead.ofPrimitive p).run nan) := by
  cases p with
  | float =>
    rw [Reading.decodeScalar_float]
    exact (follows_unsigned 4).map fun _ => rfl
  | bool =>
    rw [Reading.decodeScalar_bool]
    exact (follows_flag fun _ _ => rfl).map fun _ => rfl
  | uint8 | uint16 | uint32 =>
    rw [Reading.decodeScalar_int (by decide)]
    exact (follows_unsigned _).map fun _ => rfl
  | int8 | int16 | int32 =>
    rw [Reading.decodeScalar_int (by decide)]
    exact (follows_signed _).map fun bytes => congrArg Value.int (intOfBytes_signed rfl bytes)

theorem seen_of_decodeScalar {p : Primitive} {c c' : Cursor} {v : Value}
    (h : decodeScalar p c = .ok (v, c')) : seen nan v = seenScalar nan v := by
  obtain ⟨bytes, hbytes, -⟩ := (decodeScalar_ok_iff "" (.scalar p)).mp h
  cases v with
  | array vs => cases hbytes
  | _ => rfl

theorem follows_elements (p : Primitive) (count : Nat) :
    Follows (List.map (seenScalar nan)) (decodeElements p count)
      (Script.array count ((ScalarRead.ofPrimitive p).run nan)) := by
  induction count with
  | zero => exact Follows.give _ []
  | succ count ih =>
    rw [Reading.decodeElements_succ]
    exact (follows_scalar p).bind fun v => ih.map fun vs => rfl

theorem follows_value (type : FieldType) :
    Follows (seen nan) (decodeValue type) ((FieldRead.ofType type).run nan) := by
  cases type with
  | scalar p => exact (follows_scalar p).congr seen_of_decodeScalar
  | text capacity =>
    rw [Reading.decodeValue_text]
    exact (follows_text capacity.toNat).map fun s => rfl
  | array element count =>
    rw [Reading.decodeValue_array]
    exact (follows_elements element count.toNat).map fun vs => rfl

/-! ## Fields -/

def readerStepOf (f : FieldSpec) : ReaderStep := ⟨f.name, f.optional, .ofType f.type⟩

/-- The object with what a reader assigns to a field. -/
def Object.take (o : Object) (nan : UInt32) (f : FieldSpec) (v : Option Value) : Object :=
  o.set f.name (v.map (seen nan))

theorem follows_present (o : Object) (f : FieldSpec) :
    Follows (o.take nan f) (decodePresent f.type)
      (do return o.set f.name (some (← (FieldRead.ofType f.type).run nan))) := by
  rw [Reading.decodePresent_eq]
  exact (follows_value f.type).map fun v => rfl

theorem follows_field (o : Object) (f : FieldSpec) :
    Follows (o.take nan f) (decodeField f) (ReaderStep.run nan o (readerStepOf f)) := by
  by_cases hf : f.optional = true
  · rw [Reading.decodeField_optional hf]
    simp only [ReaderStep.run, readerStepOf, hf, if_true]
    refine (follows_flag fun _ _ => rfl).bind fun present => ?_
    cases present
    · exact Follows.give (o.take nan f) none
    · exact follows_present o f
  · rw [Reading.decodeField_required hf]
    simp only [ReaderStep.run, readerStepOf, hf]
    exact follows_present o f

theorem Follows.relabel {α β γ : Type} {see : α → β} {see' : γ → β} {read : Reading α}
    {after : α → γ} {script : Script β} (h : Follows see read script)
    (hafter : ∀ a, see' (after a) = see a) :
    Follows see' (read.andThen fun _ a => .give (after a)) script := by
  have hmap : Follows see' (read.andThen fun _ a => .give (after a)) (script >>= pure) := h.map hafter
  rwa [bind_pure] at hmap

/-- The values are assigned field by field, in order. -/
theorem follows_fields (o : Object) (fs : List FieldSpec) :
    Follows (fun vs => o.assign fs (vs.map (Option.map (seen nan)))) (decodeFields fs)
      ((fs.map readerStepOf).foldlM (ReaderStep.run nan) o) := by
  induction fs generalizing o with
  | nil => exact Follows.give _ []
  | cons f fs ih =>
    rw [Reading.decodeFields_cons, List.map_cons, List.foldlM_cons]
    exact (follows_field o f).bind fun v => (ih (o.take nan f v)).relabel fun vs => rfl

/-! ## Frames -/

/-- The object that a reader leaves. -/
def objectOf (nan : UInt32) (m : MessageSpec) (msg : Message) : Object :=
  Object.assign {} m.fields (seenMessage nan msg).fields

theorem follows_runReader (m : MessageSpec) :
    Follows (fun vs => Object.assign {} m.fields (vs.map (Option.map (seen nan))))
      (decodeFields m.fields) (runReader nan (Reader.ofMessage m).steps) := follows_fields {} m.fields

/-- What is left to do when the fields are read: the frame has to end there. -/
def ended {β : Type} (frame : List UInt8) (answer : Object → β) :
    Except Thrown (Object × Nat) → Except Thrown β
  | .error e => .error e
  | .ok (o, pos) =>
    if pos ≠ frame.length then .error (.decode "trailing bytes" pos) else .ok (answer o)

theorem unsigned_cons (tag : UInt8) (rest : List UInt8) :
    Script.unsigned 1 (tag :: rest) 0 = .ok (tag.toNat, 1) := by
  have hstart : Within (tag :: rest) (Cursor.start (tag :: rest)) := ⟨Nat.zero_le _, rfl⟩
  exact (follows_byte.goes hstart rfl).1

theorem runDecodeAs_cons (steps : List ReaderStep) (expected tag : UInt8) (rest : List UInt8) :
    (Shared.runDecodeAs nan expected.toNat steps).onFrame (tag :: rest) =
      if tag ≠ expected then .error (.decode "tag mismatch" 0)
      else ended (tag :: rest) id (runReader nan steps (tag :: rest) 1) := by
  simp only [Script.onFrame, Shared.runDecodeAs, bind_run, ite_run, throw_run, pure_run,
    unsigned_cons, ok_bind, finish_run]
  by_cases htag : tag = expected
  · subst htag
    simp only [ne_eq, not_true_eq_false, if_false]
    rcases runReader nan steps (tag :: rest) 1 with e | ⟨o, pos⟩
    · rfl
    · simp only [ok_bind, ended]
      split <;> rfl
  · have hnat : tag.toNat ≠ expected.toNat := fun h => htag (UInt8.toNat_inj.mp h)
    simp only [ne_eq, htag, hnat, not_false_eq_true, if_true]
    rfl

/-- The outcome of a reading in the words of a script. -/
def outcome {α β : Type} (see : α → β) : Except DecodeFault α → Except Thrown β
  | .ok a => .ok (see a)
  | .error f => .error (refusal f)

/-- From the tag of a message on, its reader comes to the end that the message comes to. -/
theorem ended_runReader {β : Type} (m : MessageSpec) (rest : List UInt8) (answer : Object → β) :
    ended (m.tag :: rest) answer (runReader nan (Reader.ofMessage m).steps (m.tag :: rest) 1) =
      outcome (fun msg => answer (objectOf nan m msg)) (m.decode (m.tag :: rest)) := by
  have hstart : Within (m.tag :: rest) ⟨1, rest⟩ := ⟨Nat.succ_le_succ (Nat.zero_le _), rfl⟩
  have hbyte : (Cursor.start (m.tag :: rest)).byte = .ok (m.tag, ⟨1, rest⟩) := rfl
  rcases hfields : decodeFields m.fields ⟨1, rest⟩ with f | ⟨fields, c⟩
  · have hdecode : m.decode (m.tag :: rest) = .error f := by
      simp only [MessageSpec.decode, hbyte, ne_eq, not_true_eq_false, if_false, hfields]
    rw [(follows_runReader m).fails hstart hfields, hdecode]
    rfl
  · obtain ⟨hscript, hc⟩ := (follows_runReader m).goes hstart hfields
    rw [hscript]
    -- both sides look at the position behind the fields
    by_cases hend : c.offset = (m.tag :: rest).length
    · have hdecode : m.decode (m.tag :: rest) = .ok ⟨m.tag, fields⟩ := by
        simp only [MessageSpec.decode, hbyte, ne_eq, not_true_eq_false, if_false, hfields,
          hc.finish_eq, hend]
      rw [hdecode, ended, if_neg (not_not_intro hend)]
      rfl
    · have hdecode : m.decode (m.tag :: rest) =
          .error (.trailingBytes c.offset c.offset (m.tag :: rest).length) := by
        simp only [MessageSpec.decode, hbyte, ne_eq, not_true_eq_false, if_false, hfields,
          hc.finish_eq, hend, not_false_eq_true, if_true]
      rw [hdecode, ended, if_pos hend]
      rfl

theorem runDecodeAs_onFrame (m : MessageSpec) (frame : List UInt8) :
    (Shared.runDecodeAs nan m.tag.toNat (Reader.ofMessage m).steps).onFrame frame =
      outcome (objectOf nan m) (m.decode frame) := by
  cases frame with
  | nil => rfl
  | cons tag rest =>
    rw [runDecodeAs_cons]
    by_cases htag : tag = m.tag
    · subst htag
      rw [if_neg (not_not_intro rfl)]
      exact ended_runReader m rest id
    · have hdecode : m.decode (tag :: rest) = .error (.tagMismatch 0 m.tag tag) := by
        simp only [MessageSpec.decode, Cursor.start, Cursor.byte, ne_eq, htag, not_false_eq_true,
          if_true]
      rw [if_pos htag, hdecode]
      rfl

/-- What the fields read leave is told with the position behind them. -/
theorem runDecodeAt_cons {scope : Scope} {tag : UInt8} {row : Row} {steps : List ReaderStep}
    (hrow : scope.messages[tag.toNat]? = some row)
    (hread : scope.function? row.read = some (.reader steps)) (rest : List UInt8) :
    (Shared.runDecodeAt nan scope).onFrame (tag :: rest) =
      (runReader nan steps (tag :: rest) 1).map fun x => ⟨tag.toNat, row.name, x.1, x.2⟩ := by
  simp only [Script.onFrame, Shared.runDecodeAt, bind_run, unsigned_cons, ok_bind, hrow, hread]
  rcases runReader nan steps (tag :: rest) 1 with e | ⟨o, pos⟩ <;> rfl

theorem runDecodeAt_unknown {scope : Scope} {tag : UInt8} (hrow : scope.messages[tag.toNat]? = none)
    (rest : List UInt8) : (Shared.runDecodeAt nan scope).onFrame (tag :: rest) =
      .error (.decode s!"unknown tag {tag.toNat}" 0) := by
  simp only [Script.onFrame, Shared.runDecodeAt, bind_run, unsigned_cons, ok_bind, hrow]
  rfl

end Gamewire.Client
