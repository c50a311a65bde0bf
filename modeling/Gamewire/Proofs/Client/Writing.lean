import Gamewire.Proofs.Client.Objects
import Gamewire.Proofs.Client.Source
import Gamewire.Proofs.Schema.WellFormed
import Gamewire.Proofs.Wire.Codec

/-! The bytes that the commands of an encoder push. They are the bytes of the wire format for the values
as a script has them, level by level from scalars up to messages. -/
namespace Gamewire.Client
set_option autoImplicit false

variable {e : Engine} {scope : Scope} {o : Object}

/-! ## Numbers -/

theorem intBytes_of_multiple {size : Nat} {n q : Int} {k : Nat} (h : n = k + 256 ^ size * q) :
    intBytes size n = toLittleEndian size k := by
  induction size generalizing n k with
  | zero => rfl
  | succ size ih =>
    -- each byte takes one factor of 256 off the multiple, and rounding down keeps the rest
    rw [Int.pow_succ', Int.mul_assoc] at h
    have hlow : (n % 256).toNat = k % 256 := by omega
    have hhigh : n / 256 = (k / 256 : Nat) + 256 ^ size * q := by omega
    rw [intBytes, toLittleEndian, hlow, ih hhigh]

theorem intBytes_eq (size : Nat) (n : Int) :
    intBytes size n = toLittleEndian size (n % Nat.pow 256 size).toNat := by
  have hpos : (0 : Int) < Nat.pow 256 size := by exact_mod_cast Nat.pow_pos (by decide)
  have hk : ((n % Nat.pow 256 size).toNat : Int) = n % Nat.pow 256 size :=
    Int.toNat_of_nonneg (Int.emod_nonneg n hpos.ne')
  have hcast : ((Nat.pow 256 size : Nat) : Int) = 256 ^ size := by exact_mod_cast rfl
  refine intBytes_of_multiple (q := n / Nat.pow 256 size) ?_
  rw [hk, ← hcast]
  exact (Int.emod_add_mul_ediv n _).symm

/-! ## Values -/

variable {field path : String} {type : FieldType} {place : Place} {turn : Nat} {v : Value}

theorem push_of_encode {p : Primitive} {bytes : List UInt8} (hplace : place.get o turn = .value v)
    (h : encodeScalar field type p (seenScalar e.nan v) = .ok bytes) :
    ((ScalarWrite.ofPrimitive p).push place path).run e o turn = .ok bytes := by
  cases v with
  | int n =>
    obtain ⟨min, max, hrange, hn, rfl⟩ := encodeScalar_int_ok_iff.mp h
    have hout : ¬ (n < min ∨ n > max) := by omega
    simp only [ScalarWrite.ofPrimitive, hrange, ScalarWrite.push, Push.run, hplace, if_neg hout,
      intBytes_eq]
    rfl
  | float bits =>
    simp only [seenScalar, encodeScalar] at h
    split at h
    · rename_i hp
      cases h
      subst hp
      simp only [ScalarWrite.ofPrimitive, Primitive.range?, if_true, ScalarWrite.push, Push.run, hplace]
      rfl
    · cases h
  | bool b =>
    simp only [seenScalar, encodeScalar] at h
    split at h
    · rename_i hp
      cases h
      subst hp
      have hwrite : ScalarWrite.ofPrimitive .bool = .bool := rfl
      simp only [hwrite, ScalarWrite.push, Push.run, hplace]
      rfl
    · cases h
  | text s => cases h
  | array vs => cases h

section

variable {α : Type} {push : α → Except Thrown (List UInt8)} {x : α} {xs ys : List α}
  {first more bytes : List UInt8}

theorem pushEach_cons_ok_iff : pushEach push (x :: xs) = .ok bytes ↔
    ∃ first more, push x = .ok first ∧ pushEach push xs = .ok more ∧ bytes = first ++ more := by
  rw [pushEach]
  rcases push x with t | first
  · simp [bind, Except.bind]
  · rcases pushEach push xs with t | more
    · simp [bind, Except.bind]
    · simp only [bind, Except.bind, pure, Except.pure, Except.ok.injEq]
      constructor
      · rintro rfl
        exact ⟨first, more, rfl, rfl, rfl⟩
      · rintro ⟨_, _, rfl, rfl, rfl⟩
        rfl

theorem pushEach_cons (hfirst : push x = .ok first) (hmore : pushEach push xs = .ok more) :
    pushEach push (x :: xs) = .ok (first ++ more) :=
  pushEach_cons_ok_iff.mpr ⟨first, more, hfirst, hmore, rfl⟩

theorem pushEach_singleton (h : push x = .ok bytes) : pushEach push [x] = .ok bytes := by
  have hnil : pushEach push [] = .ok [] := rfl
  rw [pushEach_cons h hnil, List.append_nil]

theorem pushEach_append (hfirst : pushEach push xs = .ok first)
    (hmore : pushEach push ys = .ok more) : pushEach push (xs ++ ys) = .ok (first ++ more) := by
  induction xs generalizing first with
  | nil =>
    cases hfirst
    exact hmore
  | cons x xs ih =>
    obtain ⟨head, tail, hhead, htail, rfl⟩ := pushEach_cons_ok_iff.mp hfirst
    rw [List.append_assoc]
    exact pushEach_cons hhead (ih htail)

end

/-- The loop comes to the elements of an array one by one. -/
theorem pushEach_of_encodeElements {p : Primitive} {bytes : List UInt8} {vs : List Value} {start : Nat}
    (path : String) (hplace : ∀ i, (hi : i < vs.length) → place.get o (start + i) = .value vs[i])
    (h : encodeElements field type p (vs.map (seenScalar e.nan)) = .ok bytes) :
    pushEach (fun turn => ((ScalarWrite.ofPrimitive p).push place path).run e o turn)
      (List.range' start vs.length) = .ok bytes := by
  induction vs generalizing start bytes with
  | nil =>
    cases h
    rfl
  | cons v vs ih =>
    obtain ⟨first, more, hfirst, hmore, rfl⟩ := encodeElements_cons_ok_iff.mp h
    refine pushEach_cons (push_of_encode (hplace 0 (Nat.succ_pos _)) hfirst) (ih ?_ hmore)
    intro i hi
    have hturn : start + 1 + i = start + (i + 1) := by omega
    rw [hturn]
    exact hplace (i + 1) (Nat.succ_lt_succ hi)

/-- The check of arrays is not overridden. -/
def Scope.Checks (scope : Scope) : Prop :=
  scope.function? "checkArray" = some (.shared .checkArray)

theorem statements_of_encode {label : String} {bytes : List UInt8} (path : String)
    (hscope : scope.Checks) (hget : o.get field = .value v)
    (h : encodeValue label type (seen e.nan v) = .ok bytes) :
    pushEach (Statement.run e o scope) ((FieldWrite.ofType type).statements field path) =
      .ok bytes := by
  have hplace : ∀ turn, Place.get o turn ⟨field, false⟩ = .value v := fun _ => hget
  cases type with
  | scalar p =>
    cases v with
    | array vs => cases h
    | _ => exact pushEach_singleton (push_of_encode (hplace 0) h)
  | text capacity =>
    obtain ⟨s, hs, hfits, rfl⟩ := encodeValue_text_ok_iff.mp h
    cases v <;> cases hs
    have hout : ¬ s.utf8ByteSize > capacity.toNat := by omega
    refine pushEach_singleton ?_
    simp only [Statement.run, Push.run, hplace, Text.utf8Bytes_length, if_neg hout]
    rfl
  | array element count =>
    obtain ⟨ws, hws, hlength, hbytes⟩ := encodeValue_array_ok_iff.mp h
    cases v with
    | array vs =>
      cases hws
      rw [List.length_map] at hlength
      have hcheck : Statement.run e o scope (.check ⟨field, false⟩ count.toNat path) = .ok [] := by
        simp only [Statement.run, hplace, hlength, if_true]
        exact if_pos hscope
      have helement : ∀ i, (hi : i < vs.length) → Place.get o (0 + i) ⟨field, true⟩ = .value vs[i] := by
        intro i hi
        simp only [Place.get, hget, Nat.zero_add, List.getElem?_eq_getElem hi, if_true]
        rfl
      have hloop := pushEach_of_encodeElements path helement hbytes
      rw [← List.range_eq_range', hlength] at hloop
      exact pushEach_cons hcheck (pushEach_singleton hloop)
    | _ => cases hws

/-! ## Fields -/

def stepOf (f : FieldSpec) : EncoderStep := ⟨f.name, f.optional, .ofType f.type⟩

theorem pushEach_plain (statements : List Statement) :
    pushEach (Command.run e o scope) (statements.map .plain) =
      pushEach (Statement.run e o scope) statements := by
  induction statements with
  | nil => rfl
  | cons s statements ih =>
    rw [List.map_cons, pushEach, pushEach, ih]
    rfl

theorem commands_of_encode {message : String} {f : FieldSpec} {v : Option Value}
    {bytes : List UInt8} (hscope : scope.Checks) (hget : o.get f.name = .ofField v)
    (h : encodeField f (v.map (seen e.nan)) = .ok bytes) :
    pushEach (Command.run e o scope) ((stepOf f).commands message) = .ok bytes := by
  cases v with
  | none =>
    obtain ⟨hf, rfl⟩ := encodeField_none_ok_iff.mp h
    simp only [EncoderStep.commands, stepOf, hf, if_true]
    refine pushEach_singleton ?_
    simp only [Command.run, hget, Property.ofField]
    rfl
  | some v =>
    obtain ⟨body, hbody, rfl⟩ := encodeField_some_ok_iff.mp h
    have hstatements := fun path => statements_of_encode path hscope hget hbody
    cases hf : f.optional with
    | true =>
      have hbyte : Statement.run e o scope (.push (.byte 1)) = .ok [1] := rfl
      simp only [EncoderStep.commands, stepOf, hf, if_true]
      refine pushEach_singleton ?_
      simp only [Command.run, hget, Property.ofField]
      exact pushEach_cons hbyte (hstatements _)
    | false =>
      simp only [EncoderStep.commands, stepOf, hf, Bool.false_eq_true, if_false, pushEach_plain]
      exact hstatements _

/-- The commands of a message read the values of its fields off the object, whatever else it holds. -/
theorem commands_of_encodeFields {message : String} {fs : List FieldSpec}
    {vs : List (Option Value)} {bytes : List UInt8} (hscope : scope.Checks) (hobject : o.Holds fs vs)
    (h : encodeFields fs (vs.map (Option.map (seen e.nan))) = .ok bytes) :
    pushEach (Command.run e o scope) ((fs.map stepOf).flatMap (EncoderStep.commands message)) =
      .ok bytes := by
  -- the object stays the same while the fields go by
  induction hobject generalizing bytes with
  | nil =>
    cases h
    rfl
  | cons hget _ ih =>
    obtain ⟨first, more, hfirst, hmore, rfl⟩ := encodeFields_cons_ok_iff.mp h
    exact pushEach_append (commands_of_encode hscope hget hfirst) (ih hmore)

/-! ## Messages -/

/-- The message as a script has it. -/
def seenMessage (nan : UInt32) (msg : Message) : Message :=
  ⟨msg.tag, msg.fields.map (Option.map (seen nan))⟩

theorem commands_of_encodeMessage {m : MessageSpec} {msg : Message} {frame : List UInt8}
    (hscope : scope.Checks) (hobject : o.Holds m.fields msg.fields)
    (h : m.encode (seenMessage e.nan msg) = .ok frame) :
    pushEach (Command.run e o scope) (Encoder.ofMessage m).commands = .ok frame := by
  obtain ⟨-, -, bytes, hbytes, rfl⟩ := MessageSpec.encode_ok_iff.mp h
  have htag : Command.run e o scope (.plain (.push (.byte m.tag.toNat))) = .ok [m.tag] := by
    show Except.ok [UInt8.ofNat m.tag.toNat] = _
    rw [UInt8.ofNat_toNat]
  exact pushEach_cons htag (commands_of_encodeFields hscope hobject hbytes)

/-- The patterns of all floats of a value. -/
def floats : Value → List UInt32
  | .float bits => [bits]
  | .array elements => elements.filterMap Value.asFloat?
  | _ => []

/-- No float of the message is a NaN. -/
def Numeric (msg : Message) : Prop :=
  ∀ v, some v ∈ msg.fields → ∀ bits ∈ floats v, Value.isNaN bits = false

theorem seenScalar_eq {nan : UInt32} {v : Value}
    (h : ∀ bits, v.asFloat? = some bits → Value.isNaN bits = false) : seenScalar nan v = v := by
  cases v with
  | float bits =>
    rw [seenScalar, seenFloat, h bits rfl]
    rfl
  | _ => rfl

theorem seen_eq {nan : UInt32} {v : Value} (h : ∀ bits ∈ floats v, Value.isNaN bits = false) :
    seen nan v = v := by
  cases v with
  | float bits =>
    show seenScalar nan (.float bits) = .float bits
    refine seenScalar_eq fun bits' hbits => ?_
    cases hbits
    exact h bits List.mem_cons_self
  | array elements =>
    have hsame : elements.map (seenScalar nan) = elements.map id := by
      refine List.map_congr_left fun v hv => seenScalar_eq fun bits hbits => ?_
      exact h bits (List.mem_filterMap.mpr ⟨v, hv, hbits⟩)
    rw [List.map_id] at hsame
    exact congrArg Value.array hsame
  | _ => rfl

theorem seenMessage_eq {nan : UInt32} {msg : Message} (h : Numeric msg) : seenMessage nan msg = msg := by
  have hsame : msg.fields.map (Option.map (seen nan)) = msg.fields.map id := by
    refine List.map_congr_left fun v? hv => ?_
    cases v? with
    | none => rfl
    | some v => exact congrArg some (seen_eq (h v hv))
  rw [List.map_id] at hsame
  show Message.mk msg.tag _ = msg
  rw [hsame]

end Gamewire.Client
