import Gamewire.Proofs.Client.Calls
import Gamewire.Proofs.Schema.Fingerprint
import Gamewire.Proofs.Wire.Tags

/-! Where a client module speaks the wire format of its protocol, and where it does not. What the text of a
module declares pushes the bytes of the wire format and makes the same of every frame, message by message.
Two things stand against it: names that messages and the module itself declare both, and a field with the
name under which every object finds what it is linked to. -/
namespace Gamewire.Client
set_option autoImplicit false

/-! ## Agreement -/

/-- The encoder makes the frame of a message out of every object that holds its values. -/
def Encodes (e : Engine) (scope : Scope) (m : MessageSpec) : Prop :=
  ∀ o msg frame, Numeric msg → m.encode msg = .ok frame → o.Holds m.fields msg.fields →
    scope.callByName e ("encode" ++ m.ident) [.object o] = .ok (.frame frame)

/-- The decoder accepts the frames of the message and no other, and gives an object with the same
values. -/
structure Decodes (e : Engine) (scope : Scope) (m : MessageSpec) : Prop where
  accepts : ∀ frame msg, m.decode frame = .ok msg →
    ∃ o, scope.callByName e ("decode" ++ m.ident) [.frame frame] = .ok (.message o) ∧
      o.Holds m.fields (seenMessage e.nan msg).fields
  refuses : ∀ frame f, m.decode frame = .error f →
    ∃ t, scope.callByName e ("decode" ++ m.ident) [.frame frame] = .error t

/-- Under each tag the table has the message of that tag, and the first byte of a frame selects it. -/
structure Dispatches (e : Engine) (scope : Scope) (p : Protocol) : Prop where
  length : scope.messages.length = p.messages.length
  rows : ∀ m ∈ p.messages, scope.messages[m.tag.toNat]? = some (.ofMessage m)
  accepts : ∀ frame msg, p.decode frame = .ok msg → ∃ m ∈ p.messages, m.tag = msg.tag ∧
    scope.callByName e "decode" [.frame frame] =
      .ok (.received ⟨m.tag.toNat, m.name, objectOf e.nan m msg, frame.length⟩)
  refuses : ∀ frame f, p.decode frame = .error f →
    scope.callByName e "decode" [.frame frame] = .error (refusal f)

/-- Client and protocol use one wire format. Of a NaN only that it is one comes through. -/
structure Agrees (e : Engine) (scope : Scope) (p : Protocol) : Prop where
  encodes : ∀ m ∈ p.messages, Encodes e scope m
  decodes : ∀ m ∈ p.messages, Decodes e scope m
  values : ∀ msg, Numeric msg → seenMessage e.nan msg = msg
  dispatches : Dispatches e scope p

/-- The decoder of the message is not overridden, nor is the function that it calls. -/
structure Reachable (p : Protocol) (m : MessageSpec) : Prop where
  decoder : m.ident ∉ ["At", "System"]
  shared : ∀ n ∈ p.messages, n.ident ≠ "As"

/-- What is assigned under the name of the link is found again if it is an array. -/
def Keeps (m : MessageSpec) : Prop :=
  ∀ f ∈ m.fields, f.name = linkName →
    f.optional = false ∧ ∃ element count, f.type = .array element count

/-! ## Values -/

variable {e : Engine} {s : Schema} {p : Protocol} {m : MessageSpec} {msg : Message}
  {frame : List UInt8} {nan : UInt32}

theorem fieldNames_of_validate (hs : s.validate = .ok p) (hm : m ∈ p.messages) :
    (m.fields.map (·.name)).Nodup := by
  obtain ⟨d, hwf, hbecomes⟩ := Schema.source_of_validate hs hm
  rw [Schema.field_names_eq hbecomes.fields]
  exact hwf.fieldNames

theorem holds_objectOf_iff (hnames : (m.fields.map (·.name)).Nodup)
    (hlength : msg.fields.length = m.fields.length) :
    (objectOf nan m msg).Holds m.fields (seenMessage nan msg).fields ↔
      List.Forall₂ (fun f v => f.name = linkName → ∃ elements, v = some (.array elements))
        m.fields msg.fields := by
  have hlength' : (seenMessage nan msg).fields.length = m.fields.length := by
    rw [seenMessage, List.length_map, hlength]
  have harray : ∀ v : Option Value, (∃ elements, v.map (seen nan) = some (.array elements)) ↔
      ∃ elements, v = some (.array elements) := by
    intro v
    cases v with
    | none => simp
    | some v => cases v <;> simp [seen, seenScalar]
  have hempty : Object.Linkable {} m.fields := fun _ => ⟨rfl, rfl⟩
  rw [objectOf, holds_assign_iff hnames hlength' hempty, seenMessage, List.forall₂_map_right_iff]
  simp only [harray]

theorem holds_objectOf (hnames : (m.fields.map (·.name)).Nodup) (hkeeps : Keeps m)
    (h : m.encode msg = .ok frame) :
    (objectOf nan m msg).Holds m.fields (seenMessage nan msg).fields := by
  have htakes := MessageSpec.encode_exists_ok_iff.mp ⟨frame, h⟩
  rw [holds_objectOf_iff hnames htakes.count, List.forall₂_iff_zip]
  refine ⟨htakes.count.symm, fun {f v} hmem hf => ?_⟩
  obtain ⟨hrequired, element, count, htype⟩ := hkeeps f (List.of_mem_zip hmem).1 hf
  have htaken : f.Takes v := htakes.fields _ hmem
  cases htaken with
  | absent hoptional =>
    rw [hrequired] at hoptional
    cases hoptional
  | present hvalue =>
    rw [htype] at hvalue
    cases hvalue with
    | array => exact ⟨_, rfl⟩

theorem keeps_of_notMem (h : linkName ∉ m.fields.map (·.name)) : Keeps m :=
  fun _ hf hlink => absurd (hlink ▸ List.mem_map_of_mem hf) h

/-- The sample of a message comes through only if all messages of its kind do. -/
theorem keeps_of_holds (hnames : (m.fields.map (·.name)).Nodup)
    (h : (objectOf nan m (sampleOf m)).Holds m.fields (seenMessage nan (sampleOf m)).fields) :
    Keeps m := by
  rw [holds_objectOf_iff hnames (takes_sampleOf m).count, sampleOf, List.forall₂_map_right_iff,
    List.forall₂_same] at h
  intro f hf hlink
  obtain ⟨elements, hvalue⟩ := h f hf hlink
  split at hvalue
  · cases hvalue
  · rename_i hoptional
    refine ⟨Bool.not_eq_true _ ▸ hoptional, ?_⟩
    cases htype : f.type with
    | array element count => exact ⟨element, count, rfl⟩
    | text capacity =>
      rw [htype] at hvalue
      cases hvalue
    | scalar p =>
      rw [htype] at hvalue
      cases p <;> cases hvalue

/-! ## Encoders -/

theorem encodes_iff (hs : s.validate = .ok p) (hm : m ∈ p.messages) :
    Encodes e (.ofProtocol p) m ↔ m.ident ≠ "Join" := by
  constructor
  · intro hencodes hident
    obtain ⟨frame, hframe⟩ := exists_sample m
    have hholds := holds_ofFields (fieldNames_of_validate hs hm) (takes_sampleOf m).count
    have hcall := hencodes _ _ frame (numeric_sampleOf m) hframe hholds
    have hjoin : (Scope.ofProtocol p).function? "encodeJoin" = some (.shared .encodeJoin) :=
      function?_session (f := .encodeJoin) (by simp [sessionDeclarations])
    have hname : "encode" ++ m.ident = "encodeJoin" := by
      rw [hident]
      rfl
    rw [hname, callByName_encodeJoin hjoin] at hcall
    cases hcall
  · intro hident o msg frame hnumeric hencode hholds
    have hseen : m.encode (seenMessage e.nan msg) = .ok frame := by rwa [seenMessage_eq hnumeric]
    exact callByName_encoder (function?_encode hs hm hident)
      (commands_of_encodeMessage (checks_ofProtocol p) hholds hseen)

/-! ## Decoders -/

theorem callByName_reachable (hs : s.validate = .ok p) (hm : m ∈ p.messages)
    (hreachable : Reachable p m) (frame : List UInt8) :
    (Scope.ofProtocol p).callByName e ("decode" ++ m.ident) [.frame frame] =
      outcome (fun msg => .message (objectOf e.nan m msg)) (m.decode frame) :=
  callByName_decoder (function?_decode hs hm hreachable.decoder)
    (function?_decodeAs hreachable.shared) (function?_read hs hm)

theorem row_ofProtocol (p : Protocol) (tag : UInt8) :
    (Scope.ofProtocol p).messages[tag.toNat]? = (p.ofTag? tag).map Row.ofMessage := List.getElem?_map

theorem finds_ofProtocol (hs : s.validate = .ok p) (hm : m ∈ p.messages) :
    (Scope.ofProtocol p).Finds m where
  row := by
    rw [row_ofProtocol, ((Schema.indexed_of_validate hs).ofTag_iff m.tag m).mpr ⟨hm, rfl⟩]
    rfl
  read := function?_read hs hm

theorem function?_decodeAt (p : Protocol) :
    (Scope.ofProtocol p).function? "decodeAt" = some (.shared .decodeAt) :=
  function?_session (f := .decodeAt) (by simp [sessionDeclarations])

/-- A message called `at` is decoded by a function that does not ask where a frame ends. -/
theorem not_decodes_at (hs : s.validate = .ok p) (hm : m ∈ p.messages) (hident : m.ident = "At") :
    ¬ Decodes e (.ofProtocol p) m := by
  intro hdecodes
  obtain ⟨frame, hframe⟩ := exists_sample m
  have hname : "decode" ++ m.ident = "decodeAt" := by
    rw [hident]
    rfl
  obtain ⟨⟨f, hrefused⟩, received, hcall⟩ :=
    decodeAt_overlong (e := e) (function?_decodeAt p) (finds_ofProtocol hs hm) hframe 0
  obtain ⟨t, hthrown⟩ := hdecodes.refuses _ f hrefused
  rw [hname, hcall] at hthrown
  cases hthrown

/-- A message called `system` is decoded by a function that knows control frames only. -/
theorem not_decodes_system (hs : s.validate = .ok p) (hm : m ∈ p.messages)
    (hident : m.ident = "System") : ¬ Decodes e (.ofProtocol p) m := by
  intro hdecodes
  obtain ⟨frame, hframe⟩ := exists_sample m
  obtain ⟨-, -, bytes, -, rfl⟩ := MessageSpec.encode_ok_iff.mp hframe
  have hsystem : (Scope.ofProtocol p).function? "decodeSystem" = some (.shared .decodeSystem) :=
    function?_session (f := .decodeSystem) (by simp [sessionDeclarations])
  have hname : "decode" ++ m.ident = "decodeSystem" := by
    rw [hident]
    rfl
  have htag : m.tag < controlTagMin :=
    Schema.tag_lt hs (((Schema.indexed_of_validate hs).ofTag_iff m.tag m).mpr ⟨hm, rfl⟩)
  obtain ⟨o, hcall, -⟩ := hdecodes.accepts _ _ (MessageSpec.decode_ok_iff.mpr hframe)
  rw [hname, callByName_decodeSystem hsystem, runDecodeSystem_message htag] at hcall
  cases hcall

/-- A message called `as` takes the function away on which all decoders rest. -/
theorem not_decodes_as (hs : s.validate = .ok p) (hm : m ∈ p.messages) {n : MessageSpec}
    (hn : n ∈ p.messages) (has : n.ident = "As") (hident : m.ident ∉ ["At", "System"]) :
    ¬ Decodes e (.ofProtocol p) m := by
  intro hdecodes
  obtain ⟨frame, hframe⟩ := exists_sample m
  have hfree : n.ident ∉ ["At", "System"] := by
    rw [has]
    decide
  have hdecodeAs : (Scope.ofProtocol p).function? "decodeAs" =
      some (.decoder n.tag.toNat ("read" ++ n.ident)) := by
    rw [← function?_decode hs hn hfree, has]
    rfl
  have hread : ∀ k ∈ p.messages, ((Scope.ofProtocol p).function? ("read" ++ k.ident)).isSome := by
    intro k hk
    rw [function?_read hs hk]
    rfl
  obtain ⟨o, hcall, -⟩ := hdecodes.accepts _ _ (MessageSpec.decode_ok_iff.mpr hframe)
  rw [callByName_overflow (function?_decode hs hm hident) hdecodeAs (hread n hn) (hread m hm)]
    at hcall
  cases hcall

theorem decodes_iff (hs : s.validate = .ok p) (hm : m ∈ p.messages) :
    Decodes e (.ofProtocol p) m ↔ Reachable p m ∧ Keeps m := by
  have hnames := fieldNames_of_validate hs hm
  constructor
  · intro hdecodes
    have hident : m.ident ∉ ["At", "System"] := by
      simp only [List.mem_cons, List.not_mem_nil, or_false, not_or]
      exact ⟨fun h => not_decodes_at hs hm h hdecodes, fun h => not_decodes_system hs hm h hdecodes⟩
    have hshared : ∀ n ∈ p.messages, n.ident ≠ "As" := fun n hn has =>
      not_decodes_as hs hm hn has hident hdecodes
    have hreachable : Reachable p m := ⟨hident, hshared⟩
    refine ⟨hreachable, ?_⟩
    obtain ⟨frame, hframe⟩ := exists_sample m
    have hdecode := MessageSpec.decode_ok_iff.mpr hframe
    obtain ⟨o, hcall, hholds⟩ := hdecodes.accepts _ _ hdecode
    rw [callByName_reachable hs hm hreachable, hdecode] at hcall
    cases hcall
    exact keeps_of_holds hnames hholds
  · rintro ⟨hreachable, hkeeps⟩
    constructor
    · intro frame msg hdecode
      refine ⟨objectOf e.nan m msg, ?_,
        holds_objectOf hnames hkeeps (MessageSpec.decode_ok_iff.mp hdecode)⟩
      rw [callByName_reachable hs hm hreachable, hdecode]
      rfl
    · intro frame f hdecode
      refine ⟨refusal f, ?_⟩
      rw [callByName_reachable hs hm hreachable, hdecode]
      rfl

/-! ## The table of messages -/

theorem dispatches_ofProtocol (hs : s.validate = .ok p) (e : Engine) :
    Dispatches e (.ofProtocol p) p := by
  have hindexed := Schema.indexed_of_validate hs
  have hdecode : (Scope.ofProtocol p).function? "decode" = some (.shared .decode) :=
    function?_session (f := .decode) (by simp [sessionDeclarations])
  have hfound : ∀ m ∈ p.messages, ∀ rest, (Scope.ofProtocol p).callByName e "decode"
      [.frame (m.tag :: rest)] = outcome (fun msg => .received
        ⟨m.tag.toNat, m.name, objectOf e.nan m msg, (m.tag :: rest).length⟩)
          (p.decode (m.tag :: rest)) := by
    intro m hm rest
    have hsame : p.decode (m.tag :: rest) = m.decode (m.tag :: rest) := by
      simp only [Protocol.decode, (hindexed.ofTag_iff m.tag m).mpr ⟨hm, rfl⟩]
    rw [hsame]
    exact callByName_decode_found hdecode (function?_decodeAt p) (finds_ofProtocol hs hm) rest
  constructor
  case length => exact List.length_map _
  case rows => exact fun m hm => (finds_ofProtocol hs hm).row
  case accepts =>
    intro frame msg h
    obtain ⟨m, hm, henc⟩ := Protocol.encode_ok_iff.mp (Protocol.decode_ok_iff.mp h)
    obtain ⟨htag, -, bytes, -, rfl⟩ := MessageSpec.encode_ok_iff.mp henc
    have hmem := ((hindexed.ofTag_iff msg.tag m).mp hm).1
    refine ⟨m, hmem, htag.symm, ?_⟩
    rw [hfound m hmem, h]
    rfl
  case refuses =>
    intro frame f h
    cases frame with
    | nil =>
      cases h
      rw [callByName_decode hdecode (function?_decodeAt p)]
      rfl
    | cons tag rest =>
      cases hm : p.ofTag? tag with
      | none =>
        have hrow : (Scope.ofProtocol p).messages[tag.toNat]? = none := by
          rw [row_ofProtocol, hm]
          rfl
        have hfault : p.decode (tag :: rest) = .error (.unknownTag 0 tag) := by
          simp only [Protocol.decode, hm]
        rw [hfault] at h
        cases h
        rw [callByName_decode hdecode (function?_decodeAt p), runDecodeAt_unknown hrow]
        rfl
      | some m =>
        obtain ⟨hmem, rfl⟩ := (hindexed.ofTag_iff tag m).mp hm
        rw [hfound m hmem, h]
        rfl

/-! ## The module -/

theorem agrees_iff (hs : s.validate = .ok p) : Agrees e (.ofProtocol p) p ↔
    ∀ m ∈ p.messages, m.ident ∉ ["Join", "As", "At", "System"] ∧ Keeps m := by
  constructor
  · intro hagrees m hm
    have hjoin := (encodes_iff hs hm).mp (hagrees.encodes m hm)
    obtain ⟨hreachable, hkeeps⟩ := (decodes_iff hs hm).mp (hagrees.decodes m hm)
    have has := hreachable.shared m hm
    have hdecoder := hreachable.decoder
    refine ⟨?_, hkeeps⟩
    simp only [List.mem_cons, List.not_mem_nil, or_false, not_or] at hdecoder ⊢
    exact ⟨hjoin, has, hdecoder⟩
  · intro h
    have hidents : ∀ m ∈ p.messages,
        m.ident ≠ "Join" ∧ m.ident ≠ "As" ∧ m.ident ∉ ["At", "System"] := by
      intro m hm
      simpa only [List.mem_cons, List.not_mem_nil, or_false, not_or] using (h m hm).1
    refine ⟨fun m hm => (encodes_iff hs hm).mpr (hidents m hm).1, fun m hm => ?_,
      fun _ hnumeric => seenMessage_eq hnumeric, dispatches_ofProtocol hs e⟩
    have hreachable : Reachable p m := ⟨(hidents m hm).2.2, fun n hn => (hidents n hn).2.1⟩
    exact (decodes_iff hs hm).mpr ⟨hreachable, (h m hm).2⟩

/-- What the text of a module declares agrees with the protocol but for the messages that are named here:
an encoder and decoders that are overridden, and decoders that lose what they assign to the link. -/
theorem module_agrees_iff (h : s.validate = .ok p) (e : Engine) :
    ∃ scope, Scope.ofText? (moduleText p) = some scope ∧ Dispatches e scope p ∧
      (∀ m ∈ p.messages,
        (Encodes e scope m ↔ m.ident ≠ "Join") ∧
        (Decodes e scope m ↔ Reachable p m ∧ Keeps m) ∧
        (Reachable p m → ∀ frame,
          scope.callByName e ("decode" ++ m.ident) [.frame frame] =
            outcome (fun msg => .message (objectOf e.nan m msg)) (m.decode frame))) ∧
      (Agrees e scope p ↔
        ∀ m ∈ p.messages, m.ident ∉ ["Join", "As", "At", "System"] ∧ Keeps m) := by
  refine ⟨.ofProtocol p, ofText?_moduleText (speltNames_of_validate h), dispatches_ofProtocol h e,
    fun m hm => ?_, agrees_iff h⟩
  exact ⟨encodes_iff h hm, decodes_iff h hm, callByName_reachable h hm⟩

/-- An absent field, an empty text and a float that is a number. -/
def stillMessage : Message :=
  ⟨1, [some (.int (-2)), some (.float 0xbf800000), some (.text ""), some (.bool true), none]⟩

def stillFrame : List UInt8 := [1, 0xfe, 0xff, 0, 0, 0x80, 0xbf, 0, 1, 1, 0]

theorem stillMessage_numeric : Numeric stillMessage := by
  intro v hv bits hbits
  simp only [stillMessage, List.mem_cons, Option.some.injEq, reduceCtorEq, List.not_mem_nil,
    or_false] at hv
  obtain rfl | rfl | rfl | rfl := hv
  · cases hbits
  · obtain rfl := List.mem_singleton.mp hbits
    decide
  · cases hbits
  · cases hbits

def smallEngine : Engine := ⟨0x7fc00000, 8, Nat.le_refl 8⟩

/-- A message without a NaN is written as the protocol writes it; one with a NaN is read, and only the
payload of the NaN is lost. -/
theorem module_agrees_iff_arcadeProtocol :
    arcadeSchema.validate = .ok arcadeProtocol ∧
      ∃ scope, Scope.ofText? (moduleText arcadeProtocol) = some scope ∧
        Agrees smallEngine scope arcadeProtocol ∧
        (∃ m ∈ arcadeProtocol.messages, m.encode stillMessage = .ok stillFrame ∧
          scope.callByName smallEngine "encodeState" [.object (.ofFields m.fields stillMessage.fields)] =
            .ok (.frame stillFrame)) ∧
        ∃ o, scope.callByName smallEngine "decodeState" [.frame arcadeFrame] = .ok (.message o) ∧
          o.Holds [⟨"speed", .scalar .float, false⟩, ⟨"boost", .scalar .bool, true⟩]
            [some (.float 0x7fc00000), none] := by
  obtain ⟨scope, hscope, -, hmessages, hagrees⟩ :=
    module_agrees_iff arcadeSchema_validate smallEngine
  have hkeeps : ∀ m ∈ arcadeProtocol.messages, m.ident ∉ ["Join", "As", "At", "System"] ∧ Keeps m := by
    intro m hm
    simp only [arcadeProtocol, List.mem_cons, List.not_mem_nil, or_false] at hm
    obtain rfl | rfl := hm
    · exact ⟨by decide, keeps_of_notMem (by decide)⟩
    · exact ⟨by decide, keeps_of_notMem (by decide)⟩
  have hfrom := hagrees.mpr hkeeps
  refine ⟨arcadeSchema_validate, scope, hscope, hfrom, ?_, ?_⟩
  · refine ⟨_, List.mem_cons_of_mem _ List.mem_cons_self, rfl, ?_⟩
    exact hfrom.encodes _ (List.mem_cons_of_mem _ List.mem_cons_self) _ _ _ stillMessage_numeric rfl
      (holds_ofFields (by decide) rfl)
  · obtain ⟨-, hdecodes, hall⟩ := hmessages _ (List.mem_cons_of_mem _ List.mem_cons_self)
    have hreachable := (hdecodes.mp (hfrom.decodes _ (List.mem_cons_of_mem _ List.mem_cons_self))).1
    refine ⟨_, hall hreachable arcadeFrame, ?_⟩
    exact .cons rfl (.cons rfl .nil)

/-! ## Messages that do not come through -/

/-- One message with one field, which has the name of the link. -/
def linkProtocol : Protocol := Schema.byteProtocol "probe" "Probe" linkName

/-- One message that is called as the function on which all decoders rest. -/
def asProtocol : Protocol := Schema.byteProtocol "as" "As" "seat"

theorem linkProtocol_valid : (Schema.byteSchema "probe" linkName).validate = .ok linkProtocol := by cbv

theorem asProtocol_valid : (Schema.byteSchema "as" "seat").validate = .ok asProtocol := by cbv

/-- A byte that is assigned to the link is lost, and a decoder that has taken the name of the function
it calls does not end. -/
theorem byte_lost_or_overflow :
    ((Schema.byteSchema "probe" linkName).validate = .ok linkProtocol ∧
      ∃ scope, Scope.ofText? (moduleText linkProtocol) = some scope ∧
        ¬ Agrees smallEngine scope linkProtocol ∧
        linkProtocol.decode [0, 7] = .ok ⟨0, [some (.int 7)]⟩ ∧
        ∃ o, scope.callByName smallEngine "decodeProbe" [.frame [0, 7]] = .ok (.message o) ∧
          o.get linkName = .foreign) ∧
    ((Schema.byteSchema "as" "seat").validate = .ok asProtocol ∧
      ∃ scope, Scope.ofText? (moduleText asProtocol) = some scope ∧
        ¬ Agrees smallEngine scope asProtocol ∧
        asProtocol.decode [0, 7] = .ok ⟨0, [some (.int 7)]⟩ ∧
        scope.callByName smallEngine "decodeAs" [.frame [0, 7]] = .error .stackOverflow) := by
  constructor
  · refine ⟨linkProtocol_valid, _, ofText?_moduleText (speltNames_of_validate linkProtocol_valid), ?_,
      rfl, ?_⟩
    · intro hagrees
      have hkeeps := ((agrees_iff linkProtocol_valid).mp hagrees _ List.mem_cons_self).2
      obtain ⟨-, element, count, htype⟩ := hkeeps _ List.mem_cons_self rfl
      cases htype
    · have hreachable : Reachable linkProtocol ⟨0, "probe", "Probe", .bidirectional, false,
          [⟨linkName, .scalar .uint8, false⟩]⟩ := by
        refine ⟨by decide, fun n hn => ?_⟩
        obtain rfl := List.mem_singleton.mp hn
        decide
      exact ⟨_, callByName_reachable linkProtocol_valid List.mem_cons_self hreachable [0, 7], rfl⟩
  · refine ⟨asProtocol_valid, _, ofText?_moduleText (speltNames_of_validate asProtocol_valid), ?_,
      rfl, ?_⟩
    · intro hagrees
      exact ((agrees_iff asProtocol_valid).mp hagrees _ List.mem_cons_self).1 (by decide)
    · have hdecode := function?_decode asProtocol_valid List.mem_cons_self (by decide)
      have hread := function?_read asProtocol_valid List.mem_cons_self
      exact callByName_overflow hdecode hdecode (by rw [hread]; rfl) (by rw [hread]; rfl)

end Gamewire.Client
