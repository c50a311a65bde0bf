import Gamewire.Proofs.Client.Readers
import Gamewire.Proofs.Client.Scope
import Gamewire.Proofs.Wire.Extension
import Gamewire.Proofs.Wire.Largest

/-! Calls of the functions of a module by their names: what comes of them when each name stands for the
function of its message, and what comes of them when it is overridden. -/
namespace Gamewire.Client
set_option autoImplicit false

variable {e : Engine} {scope : Scope} {m : MessageSpec} {frame : List UInt8}

theorem Engine.exists_stack (e : Engine) : ∃ n, e.stack = n + 2 := by
  have hroom := e.room
  exact ⟨e.stack - 2, by omega⟩

/-! ## Functions of messages -/

theorem callByName_encoder {name : String} {commands : List Command} {o : Object}
    (hname : scope.function? name = some (.encoder commands))
    (hrun : pushEach (Command.run e o scope) commands = .ok frame) :
    scope.callByName e name [.object o] = .ok (.frame frame) := by
  obtain ⟨n, hn⟩ := e.exists_stack
  rw [Scope.callByName, hname]
  simp only [hn, Scope.call, hrun]
  rfl

theorem callByName_decoder {name reader : String}
    (hname : scope.function? name = some (.decoder m.tag.toNat reader))
    (hdecodeAs : scope.function? "decodeAs" = some (.shared .decodeAs))
    (hread : scope.function? reader = some (.reader (Reader.ofMessage m).steps)) :
    scope.callByName e name [.frame frame] =
      outcome (fun msg => .message (objectOf e.nan m msg)) (m.decode frame) := by
  obtain ⟨n, hn⟩ := e.exists_stack
  rw [Scope.callByName, hname]
  simp only [hn, Scope.call, hdecodeAs, hread, runDecodeAs_onFrame]
  cases m.decode frame <;> rfl

/-- A decoder that has the name of the shared function calls itself. -/
theorem call_overflow {tag : Nat} {reader : String}
    (hdecodeAs : scope.function? "decodeAs" = some (.decoder tag reader))
    (hread : (scope.function? reader).isSome) (stack tag' : Nat) {reader' : String}
    (hread' : (scope.function? reader').isSome) (a : Argument) (more : List Argument) :
    scope.call e stack (.decoder tag' reader') (a :: more) = .error .stackOverflow := by
  induction stack generalizing tag' reader' a more with
  | zero => rfl
  | succ stack ih =>
    obtain ⟨read, hsome⟩ := Option.isSome_iff_exists.mp hread'
    simp only [Scope.call, hdecodeAs, hsome]
    exact ih tag hread _ _

theorem callByName_overflow {name reader reader' : String} {tag tag' : Nat}
    (hname : scope.function? name = some (.decoder tag' reader'))
    (hdecodeAs : scope.function? "decodeAs" = some (.decoder tag reader))
    (hread : (scope.function? reader).isSome) (hread' : (scope.function? reader').isSome) :
    scope.callByName e name [.frame frame] = .error .stackOverflow := by
  rw [Scope.callByName, hname]
  exact call_overflow hdecodeAs hread e.stack tag' hread' _ _

/-! ## Functions of the session -/

variable {name : String}

theorem callByName_encodeJoin (hname : scope.function? name = some (.shared .encodeJoin)) (o : Object) :
    scope.callByName e name [.object o] = .error (.noInteger "join.room") := by
  obtain ⟨n, hn⟩ := e.exists_stack
  rw [Scope.callByName, hname]
  simp only [hn, Scope.call]
  rfl

/-- The tag of a message is none of a control frame. -/
theorem runDecodeSystem_message {tag : UInt8} (htag : tag < controlTagMin) (rest : List UInt8) :
    Shared.runDecodeSystem.onFrame (tag :: rest) =
      .error (.decode s!"unknown system tag {tag.toNat}" 0) := by
  have hless : tag.toNat < 0xf0 := UInt8.lt_iff_toNat_lt.mp htag
  have hjoined : tag.toNat ≠ 0xf1 := by omega
  have hrejected : tag.toNat ≠ 0xf2 := by omega
  have hclosing : tag.toNat ≠ 0xf3 := by omega
  simp only [Script.onFrame, Shared.runDecodeSystem, Shared.controlBody, bind_run, ite_run,
    throw_run, unsigned_cons, ok_bind, hjoined, hrejected, hclosing, if_false]
  rfl

theorem callByName_decodeSystem (hname : scope.function? name = some (.shared .decodeSystem)) :
    scope.callByName e name [.frame frame] = (Shared.runDecodeSystem.onFrame frame).map .control := by
  obtain ⟨n, hn⟩ := e.exists_stack
  rw [Scope.callByName, hname]
  simp only [hn, Scope.call]
  cases Shared.runDecodeSystem.onFrame frame <;> rfl

theorem callByName_decodeAt (hname : scope.function? name = some (.shared .decodeAt)) :
    scope.callByName e name [.frame frame] =
      ((Shared.runDecodeAt e.nan scope).onFrame frame).map .received := by
  obtain ⟨n, hn⟩ := e.exists_stack
  rw [Scope.callByName, hname]
  simp only [hn, Scope.call]
  cases (Shared.runDecodeAt e.nan scope).onFrame frame <;> rfl

theorem callByName_decode (hname : scope.function? name = some (.shared .decode))
    (hdecodeAt : scope.function? "decodeAt" = some (.shared .decodeAt)) :
    scope.callByName e name [.frame frame] =
      match (Shared.runDecodeAt e.nan scope).onFrame frame with
      | .error t => .error t
      | .ok out =>
        if out.length ≠ frame.length then .error (.decode "trailing bytes" out.length)
        else .ok (.received out) := by
  obtain ⟨n, hn⟩ := e.exists_stack
  rw [Scope.callByName, hname]
  simp only [hn, Scope.call, hdecodeAt]
  rcases (Shared.runDecodeAt e.nan scope).onFrame frame with t | out
  · rfl
  · simp only [bind, Except.bind, pure, Except.pure]
    rfl

/-! ## Telling messages apart -/

/-- The row under a tag is that of the message, and its reader is the one of the message. -/
structure Scope.Finds (scope : Scope) (m : MessageSpec) : Prop where
  row : scope.messages[m.tag.toNat]? = some (.ofMessage m)
  read : scope.function? ("read" ++ m.ident) = some (.reader (Reader.ofMessage m).steps)

theorem callByName_decode_found (hname : scope.function? name = some (.shared .decode))
    (hdecodeAt : scope.function? "decodeAt" = some (.shared .decodeAt)) (hfinds : scope.Finds m)
    (rest : List UInt8) : scope.callByName e name [.frame (m.tag :: rest)] =
      outcome (fun msg => .received
        ⟨m.tag.toNat, m.name, objectOf e.nan m msg, (m.tag :: rest).length⟩)
        (m.decode (m.tag :: rest)) := by
  rw [callByName_decode hname hdecodeAt, runDecodeAt_cons hfinds.row hfinds.read,
    ← ended_runReader m rest fun o =>
      Answer.received ⟨m.tag.toNat, m.name, o, (m.tag :: rest).length⟩]
  rcases runReader e.nan (Reader.ofMessage m).steps (m.tag :: rest) 1 with t | ⟨o, pos⟩
  · rfl
  · simp only [Except.map, ended]
    split
    · rfl
    · rename_i hend
      rw [Decidable.not_not.mp hend]
      rfl

/-- One byte too many is refused by the message, and seen by no one who does not ask for the end. -/
theorem decodeAt_overlong (hname : scope.function? name = some (.shared .decodeAt))
    (hfinds : scope.Finds m) {msg : Message} (h : m.encode msg = .ok frame) (b : UInt8) :
    (∃ f, m.decode (frame ++ [b]) = .error f) ∧
      ∃ received, scope.callByName e name [.frame (frame ++ [b])] = .ok (.received received) := by
  obtain ⟨-, hlength, bytes, hbytes, rfl⟩ := MessageSpec.encode_ok_iff.mp h
  have hspan : Cursor.Spans ⟨1, bytes ++ [b]⟩ bytes ⟨1 + bytes.length, [b]⟩ := ⟨rfl, rfl⟩
  have hfields : decodeFields m.fields ⟨1, bytes ++ [b]⟩ = .ok (msg.fields, ⟨1 + bytes.length, [b]⟩) :=
    decodeFields_ok_iff.mpr ⟨hlength, bytes, hbytes, hspan⟩
  constructor
  · have hbyte : (Cursor.start (m.tag :: (bytes ++ [b]))).byte = .ok (m.tag, ⟨1, bytes ++ [b]⟩) := rfl
    rw [List.cons_append, MessageSpec.decode, hbyte]
    simp only [ne_eq, not_true_eq_false, if_false, hfields]
    exact ⟨_, rfl⟩
  · have hstart : Within (m.tag :: (bytes ++ [b])) ⟨1, bytes ++ [b]⟩ :=
      ⟨Nat.succ_le_succ (Nat.zero_le _), rfl⟩
    have hrun : runReader e.nan (Reader.ofMessage m).steps (m.tag :: (bytes ++ [b])) 1 =
        .ok (objectOf e.nan m msg, 1 + bytes.length) :=
      ((follows_runReader m).goes hstart hfields).1
    rw [List.cons_append, callByName_decodeAt hname, runDecodeAt_cons hfinds.row hfinds.read, hrun]
    exact ⟨_, rfl⟩

/-! ## Messages of each kind -/

/-- A message of this kind without a NaN, and without what it need not have. -/
def sampleOf (m : MessageSpec) : Message :=
  ⟨m.tag, m.fields.map fun f => if f.optional then none else some f.type.largest⟩

theorem takes_sampleOf (m : MessageSpec) : m.Takes (sampleOf m) := by
  refine MessageSpec.takes_map fun f => ?_
  split
  · rename_i hoptional
    exact .absent hoptional
  · exact .present f.type.holds_largest

theorem numeric_largest (type : FieldType) : ∀ bits ∈ floats type.largest, Value.isNaN bits = false := by
  have hzero : ∀ p : Primitive, ∀ bits, p.zero.asFloat? = some bits → Value.isNaN bits = false := by
    intro p bits hbits
    cases p <;> cases hbits
    decide
  intro bits hbits
  cases type with
  | scalar p =>
    refine hzero p bits ?_
    cases p <;> simp_all [FieldType.largest, Primitive.zero, floats, Value.asFloat?]
  | text capacity => cases hbits
  | array element count =>
    obtain ⟨v, hv, hv'⟩ := List.mem_filterMap.mp hbits
    rw [List.eq_of_mem_replicate hv] at hv'
    exact hzero element bits hv'

theorem numeric_sampleOf (m : MessageSpec) : Numeric (sampleOf m) := by
  intro v hv
  obtain ⟨f, -, hf⟩ := List.mem_map.mp hv
  split at hf
  · cases hf
  · cases hf
    exact numeric_largest f.type

theorem exists_sample (m : MessageSpec) : ∃ frame, m.encode (sampleOf m) = .ok frame :=
  MessageSpec.encode_exists_ok_iff.mpr (takes_sampleOf m)

end Gamewire.Client
