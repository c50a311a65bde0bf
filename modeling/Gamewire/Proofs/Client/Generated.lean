import Gamewire.Client.Bundle
import Gamewire.Proofs.Client.Shell
import Gamewire.Proofs.Json.RoundTrip
import Gamewire.Proofs.Schema.WellFormed

/-! Everything that is generated can stand in a block, and every line is a single line. The names of an
accepted schema have no `<`, and those in the fixed lines and in the loops of a module begin neither a
comment nor the end of a body. -/
namespace Gamewire.Client
set_option autoImplicit false

open Text

/-! ## Texts -/

variable {a b : String} {lines inner : List String} {value path : String}

/-- No tag is opened and no line is ended. -/
def Plain (cs : List Char) : Prop := ∀ c ∈ cs, c ≠ '<' ∧ c ≠ '\n'

instance (cs : List Char) : Decidable (Plain cs) :=
  List.decidableBAll (fun c : Char => c ≠ '<' ∧ c ≠ '\n') cs

@[simp] theorem plain_nil : Plain [] := List.forall_mem_nil _

@[simp] theorem plain_cons {c : Char} {cs : List Char} :
    Plain (c :: cs) ↔ (c ≠ '<' ∧ c ≠ '\n') ∧ Plain cs := List.forall_mem_cons

@[simp] theorem plain_append {cs ds : List Char} : Plain (cs ++ ds) ↔ Plain cs ∧ Plain ds :=
  List.forall_mem_append

theorem Plain.of_not_mem {cs : List Char} (htag : '<' ∉ cs) (hline : '\n' ∉ cs) : Plain cs :=
  fun _ hc => ⟨ne_of_mem_of_not_mem hc htag, ne_of_mem_of_not_mem hc hline⟩

theorem Plain.no_tag {cs : List Char} (h : Plain cs) : '<' ∉ cs := fun hmem => (h _ hmem).1 rfl

theorem Plain.no_newline {cs : List Char} (h : Plain cs) : '\n' ∉ cs := fun hmem => (h _ hmem).2 rfl

theorem mild_append (ha : Mild a.toList) (hb : Mild b.toList) : Mild (a ++ b).toList := by
  rw [String.toList_append]
  exact ha.append hb

theorem mild_flatMap {α : Type} {f : α → List Char} {xs : List α} (h : ∀ x ∈ xs, Mild (f x)) :
    Mild (xs.flatMap f) := by
  induction xs with
  | nil => exact mild_of_not_mem List.not_mem_nil
  | cons x xs ih =>
    obtain ⟨hx, hxs⟩ := List.forall_mem_cons.mp h
    rw [List.flatMap_cons]
    exact hx.append (ih hxs)

/-! ## Lines -/

/-- A single line that can stand in a block. -/
def MildLine (line : String) : Prop := Mild line.toList ∧ '\n' ∉ line.toList

theorem Plain.line (h : Plain a.toList) : MildLine a := ⟨mild_of_not_mem h.no_tag, h.no_newline⟩

theorem MildLine.append (ha : MildLine a) (hb : MildLine b) : MildLine (a ++ b) := by
  refine ⟨mild_append ha.1 hb.1, ?_⟩
  rw [String.toList_append, List.mem_append, not_or]
  exact ⟨ha.2, hb.2⟩

def MildLines (lines : List String) : Prop := ∀ line ∈ lines, MildLine line

@[simp] theorem mildLines_nil : MildLines [] := List.forall_mem_nil _

@[simp] theorem mildLines_cons : MildLines (a :: lines) ↔ MildLine a ∧ MildLines lines :=
  List.forall_mem_cons

@[simp] theorem mildLines_append :
    MildLines (lines ++ inner) ↔ MildLines lines ∧ MildLines inner := List.forall_mem_append

theorem mildLines_flatMap {α : Type} {f : α → List String} {xs : List α} :
    MildLines (xs.flatMap f) ↔ ∀ x ∈ xs, MildLines (f x) := List.forall_mem_flatMap

theorem MildLines.indented (h : MildLines lines) : MildLines (indented lines) := by
  refine List.forall_mem_map.mpr fun line hline => ?_
  split
  · exact h line hline
  · exact (Plain.line (by simp)).append (h line hline)

theorem MildLines.block (ha : MildLine a) (hinner : MildLines inner) (hb : MildLine b) :
    MildLines (block a inner b) := by
  rw [Client.block, mildLines_append, mildLines_cons, mildLines_cons]
  exact ⟨⟨ha, hinner.indented⟩, hb, mildLines_nil⟩

theorem mildLines_parts {parts : List Part} (h : ∀ part ∈ parts, MildLines part.lines) :
    MildLines (partLines parts) := by
  fun_induction partLines parts with
  | case1 => exact mildLines_nil
  | case2 part => exact h part List.mem_cons_self
  | case3 part rest _ ih =>
    obtain ⟨hpart, hrest⟩ := List.forall_mem_cons.mp h
    rw [mildLines_append, mildLines_cons]
    exact ⟨hpart, Plain.line (by simp), ih hrest⟩

theorem toList_fileText (lines : List String) :
    (fileText lines).toList = lines.flatMap fun line => line.toList ++ ['\n'] := by
  rw [fileText, String.toList_join, List.flatMap_map]
  congr 1
  funext line
  rw [String.toList_append]
  rfl

theorem mild_fileText (h : MildLines lines) : Mild (fileText lines).toList := by
  rw [fileText, String.toList_join, List.flatMap_map]
  exact mild_flatMap fun line hline => mild_append (h line hline).1 (mild_of_not_mem (by simp))

/-! ## Numbers -/

theorem not_mem_toDigits {base : Nat} {c : Char} (hbase : 1 < base) (hc : ∀ d : Nat, d.digitChar ≠ c)
    (n : Nat) : c ∉ Nat.toDigits base n := by
  have hdigit : ∀ d : Nat, c ∉ [d.digitChar] := fun d hmem => hc d (List.mem_singleton.mp hmem).symm
  induction n using Nat.strongRecOn with
  | ind n ih =>
    rw [Nat.toDigits_eq_if hbase]
    split
    · exact hdigit n
    · have hless : n / base < n := Nat.div_lt_self (by omega) hbase
      rw [List.mem_append, not_or]
      exact ⟨ih _ hless, hdigit _⟩

theorem not_mem_zeroPad {c : Char} (hc : ∀ d : Nat, d.digitChar ≠ c) (width n : Nat) :
    c ∉ zeroPad width (hexDigits n) := by
  rw [zeroPad, List.mem_append, not_or]
  exact ⟨fun hmem => hc 0 (List.eq_of_mem_replicate hmem).symm, not_mem_toDigits (by omega) hc n⟩

theorem not_mem_hexLiteral {c : Char} (hc : ∀ d : Nat, d.digitChar ≠ c) (hx : c ≠ 'x')
    (width n : Nat) : c ∉ (hexLiteral width n).toList := by
  rw [hexLiteral, String.toList_append, List.mem_append, not_or]
  refine ⟨by simpa using ⟨(hc 0).symm, hx⟩, ?_⟩
  rw [String.toList_ofList]
  exact not_mem_zeroPad hc width n

/-- No digit opens a tag or ends a line. -/
theorem digitChar_plain (d : Nat) : d.digitChar ≠ '<' ∧ d.digitChar ≠ '\n' :=
  ⟨Nat.digitChar_ne '<' rfl, Nat.digitChar_ne '\n' rfl⟩

@[simp] theorem plain_decimal (n : Nat) : Plain (Nat.toDigits 10 n) :=
  .of_not_mem (not_mem_toDigits (by omega) (fun d => (digitChar_plain d).1) n)
    (not_mem_toDigits (by omega) (fun d => (digitChar_plain d).2) n)

theorem plain_natText (n : Nat) : Plain n.repr.toList := by
  rw [Nat.toList_repr]
  exact plain_decimal n

theorem plain_intText (n : Int) : Plain n.repr.toList := by
  cases n with
  | ofNat n => exact plain_natText n
  | negSucc n =>
    rw [Int.repr, String.toList_append, plain_append]
    exact ⟨by simp, plain_natText (n + 1)⟩

theorem plain_zeroPad (width n : Nat) : Plain (zeroPad width (hexDigits n)) :=
  .of_not_mem (not_mem_zeroPad (fun d => (digitChar_plain d).1) width n)
    (not_mem_zeroPad (fun d => (digitChar_plain d).2) width n)

theorem plain_hexLiteral (width n : Nat) : Plain (hexLiteral width n).toList :=
  .of_not_mem (not_mem_hexLiteral (fun d => (digitChar_plain d).1) (by decide) width n)
    (not_mem_hexLiteral (fun d => (digitChar_plain d).2) (by decide) width n)

/-! ## Programs -/

theorem ScalarWrite.text_plain (hvalue : Plain value.toList) (hpath : Plain path.toList)
    (write : ScalarWrite) : Plain (write.text value path).toList := by
  unfold ScalarWrite.text
  split
  · rename_i size min max
    have hsize := plain_natText size
    have hmin := plain_intText min
    have hmax := plain_intText max
    simp only [toString, String.toList_append, plain_append]
    refine ⟨⟨⟨⟨⟨⟨⟨⟨⟨⟨?_, hvalue⟩, ?_⟩, hsize⟩, ?_⟩, hmin⟩, ?_⟩, hmax⟩, ?_⟩, hpath⟩, ?_⟩
    all_goals simp
  · simp [toString, hvalue]
  · simp [toString, hvalue]

theorem FieldWrite.lines_mild (hvalue : Plain value.toList) (hpath : Plain path.toList)
    (write : FieldWrite) : MildLines (write.lines value path) := by
  cases write with
  | scalar write =>
    rw [FieldWrite.lines, mildLines_cons]
    exact ⟨(write.text_plain hvalue hpath).line, mildLines_nil⟩
  | text max =>
    rw [FieldWrite.lines, mildLines_cons]
    exact ⟨Plain.line (by simp [toString, hvalue, hpath]), mildLines_nil⟩
  | array length write =>
    -- the loop over the elements compares, with a blank behind the sign
    have hloop : MildLine "for (let i = 0; i < " := by
      rw [MildLine, String.toList_ofList]
      decide
    have helement : Plain (value ++ "[i]").toList := by simp [hvalue]
    have hrest := write.text_plain helement hpath
    rw [FieldWrite.lines, mildLines_cons, mildLines_cons]
    refine ⟨Plain.line (by simp [toString, hvalue, hpath]), ?_, mildLines_nil⟩
    refine ((hloop.append ?_).append ?_).append hrest.line
    · exact (plain_natText length).line
    · exact Plain.line (by simp [toString])

theorem EncoderStep.lines_mild {message : String} {s : EncoderStep} (hmessage : Plain message.toList)
    (hfield : Plain s.field.toList) : MildLines (s.lines message) := by
  have hvalue : Plain ("msg." ++ s.field).toList := by simp [hfield]
  have hpath : Plain (message ++ "." ++ s.field).toList := by simp [hmessage, hfield]
  have hwrite := s.write.lines_mild hvalue hpath
  rw [EncoderStep.lines]
  split
  · rw [mildLines_append, mildLines_cons]
    refine ⟨⟨Plain.line (by simp [toString, hfield]), ?_⟩, ?_⟩
    · exact MildLines.indented (mildLines_cons.mpr ⟨Plain.line (by simp), mildLines_nil⟩)
    · refine .block (Plain.line (by simp)) ?_ (Plain.line (by simp))
      exact mildLines_cons.mpr ⟨Plain.line (by simp), hwrite⟩
  · exact hwrite

theorem parameter_plain (value : String) (hvalue : Plain value.toList) (isEmpty : Bool) :
    Plain (parameter value isEmpty).toList := by
  unfold parameter
  split
  · simp
  · exact hvalue

theorem Encoder.part_mild {e : Encoder} (hident : Plain e.ident.toList)
    (hmessage : Plain e.message.toList) (hsteps : ∀ s ∈ e.steps, Plain s.field.toList) :
    MildLines e.part.lines := by
  have hparameter := parameter_plain "msg" (by simp) e.steps.isEmpty
  refine .block (Plain.line (by simp [hident, hparameter])) ?_ (Plain.line (by simp))
  rw [mildLines_append, mildLines_append, mildLines_flatMap]
  refine ⟨⟨?_, fun s hs => EncoderStep.lines_mild hmessage (hsteps s hs)⟩, ?_⟩
  · rw [mildLines_cons, mildLines_cons]
    exact ⟨Plain.line (by simp), Plain.line (by simp [toString]), mildLines_nil⟩
  · exact mildLines_cons.mpr ⟨Plain.line (by simp), mildLines_nil⟩

theorem ScalarRead.text_plain (read : ScalarRead) : Plain read.text.toList := by
  cases read <;> simp [ScalarRead.text]

theorem FieldRead.expression_plain (read : FieldRead) : Plain read.expression.toList := by
  cases read with
  | scalar read => exact read.text_plain
  | text max => simp [FieldRead.expression, toString]
  | array length read => simp [FieldRead.expression, toString, read.text_plain]

theorem ReaderStep.line_plain {s : ReaderStep} (hfield : Plain s.field.toList) :
    Plain s.line.toList := by
  have hread := s.read.expression_plain
  unfold ReaderStep.line
  split <;> simp [hfield, hread]

theorem Reader.part_mild {r : Reader} (hident : Plain r.ident.toList)
    (hsteps : ∀ s ∈ r.steps, Plain s.field.toList) : MildLines r.part.lines := by
  have hparameter := parameter_plain "r" (by simp) r.steps.isEmpty
  refine .block (Plain.line (by simp [hident, hparameter])) ?_ (Plain.line (by simp))
  rw [mildLines_append, mildLines_cons]
  refine ⟨⟨Plain.line (by simp), ?_⟩, ?_⟩
  · exact List.forall_mem_map.mpr fun s hs => (ReaderStep.line_plain (hsteps s hs)).line
  · exact mildLines_cons.mpr ⟨Plain.line (by simp), mildLines_nil⟩

theorem decoderPart_mild {m : MessageSpec} (hident : Plain m.ident.toList) :
    MildLines (decoderPart m).lines := by
  refine .block (Plain.line (by simp [hident])) ?_ (Plain.line (by simp))
  exact mildLines_cons.mpr ⟨Plain.line (by simp [toString, hident]), mildLines_nil⟩

/-! ## Names -/

theorem isNameChar_of_isIdentifier {word : String} (h : isIdentifier word = true) :
    ∀ c ∈ word.toList, isNameChar c = true := by
  unfold isIdentifier at h
  split at h
  · cases h
  · rename_i c cs hchars
    obtain ⟨hfirst, hrest⟩ := Bool.and_eq_true_iff.mp h
    rw [hchars]
    refine List.forall_mem_cons.mpr ⟨?_, List.all_eq_true.mp hrest⟩
    rw [isNameChar, hfirst, Bool.true_or]

theorem isNameChar_upperAscii {c : Char} (h : isNameChar c = true) :
    isNameChar (upperAscii c) = true := by
  unfold upperAscii
  split
  · rename_i hlower
    have hrange : 97 ≤ c.toNat ∧ c.toNat ≤ 122 := hlower
    have hupper : ∀ n, 65 ≤ n → n ≤ 90 → isNameChar (Char.ofNat n) = true := by decide
    exact hupper _ (by omega) (by omega)
  · exact h

theorem isNameChar_pascalChars {cs : List Char} (h : ∀ c ∈ cs, isNameChar c = true) (fresh : Bool) :
    ∀ c ∈ pascalChars fresh cs, isNameChar c = true := by
  induction cs generalizing fresh with
  | nil => exact List.forall_mem_nil _
  | cons c cs ih =>
    obtain ⟨hc, hcs⟩ := List.forall_mem_cons.mp h
    rw [pascalChars]
    split
    · exact ih hcs true
    · refine List.forall_mem_cons.mpr ⟨?_, ih hcs false⟩
      split
      · exact isNameChar_upperAscii hc
      · exact hc

theorem not_mem_of_nameChars {cs : List Char} {c : Char} (h : ∀ c ∈ cs, isNameChar c = true)
    (hc : isNameChar c = false) : c ∉ cs := fun hmem => by
  rw [h c hmem] at hc
  cases hc

theorem plain_of_nameChars {cs : List Char} (h : ∀ c ∈ cs, isNameChar c = true) : Plain cs :=
  .of_not_mem (not_mem_of_nameChars h rfl) (not_mem_of_nameChars h rfl)

theorem identifier_plain (h : isIdentifier value = true) : Plain value.toList :=
  plain_of_nameChars (isNameChar_of_isIdentifier h)

/-- The names of a message can be read back. -/
structure SpeltNames (m : MessageSpec) : Prop where
  name : isIdentifier m.name = true
  ident : ∀ c ∈ m.ident.toList, isNameChar c = true
  fields : ∀ f ∈ m.fields, isIdentifier f.name = true

theorem speltNames_of_validate {s : Schema} {p : Protocol} (h : s.validate = .ok p) :
    ∀ m ∈ p.messages, SpeltNames m := by
  intro m hm
  obtain ⟨d, hwf, hbecomes⟩ := Schema.source_of_validate h hm
  refine ⟨hbecomes.name ▸ hwf.identifier, ?_, fun f hf => ?_⟩
  · rw [hbecomes.ident, pascalCase, String.toList_ofList]
    exact isNameChar_pascalChars (isNameChar_of_isIdentifier hwf.identifier) true
  · have hnames := Schema.field_names_eq hbecomes.fields
    have hmem : f.name ∈ d.fields.map (·.name) := hnames ▸ List.mem_map_of_mem hf
    obtain ⟨fieldDef, hfield, heq⟩ := List.mem_map.mp hmem
    rw [← heq]
    exact hwf.fieldIdentifiers fieldDef hfield

/-! ## The description of a protocol -/

theorem writeChar_plain {c : Char} (hc : c ≠ '<') : Plain (Json.writeChar c) := by
  unfold Json.writeChar
  split_ifs with _ _ _ _ hnewline
  any_goals decide
  · rw [plain_cons, plain_cons]
    exact ⟨by decide, by decide, plain_zeroPad 4 _⟩
  · exact plain_cons.mpr ⟨⟨hc, hnewline⟩, plain_nil⟩

theorem writeText_plain (hvalue : '<' ∉ value.toList) : Plain (Json.writeText value) := by
  have hcontent : Plain (value.toList.flatMap Json.writeChar) :=
    List.forall_mem_flatMap.mpr fun c hc => writeChar_plain (ne_of_mem_of_not_mem hc hvalue)
  rw [Json.writeText, plain_append, plain_cons]
  exact ⟨⟨by decide, hcontent⟩, by decide⟩

theorem writeElements_plain {elements : List Json.Value} (h : ∀ v ∈ elements, Plain (Json.write v)) :
    Plain (Json.writeElements elements) := by
  intro c hc
  obtain rfl | ⟨v, hv, hmem⟩ := Json.mem_writeElements hc
  · decide
  · exact h v hv c hmem

theorem writeEntries_plain {entries : List (String × Json.Value)}
    (h : ∀ e ∈ entries, '<' ∉ e.1.toList ∧ Plain (Json.write e.2)) :
    Plain (Json.writeEntries entries) := by
  intro c hc
  obtain rfl | rfl | ⟨e, he, hkey | hvalue⟩ := Json.mem_writeEntries hc
  · decide
  · decide
  · exact writeText_plain (h e he).1 c hkey
  · exact (h e he).2 c hvalue

theorem render_plain (type : FieldType) : Plain type.render.toList := by
  have hname : ∀ p : Primitive, Plain p.name.toList := by
    intro p
    cases p <;> simp [Primitive.name]
  cases type with
  | scalar p => exact hname p
  | text capacity => simp [FieldType.render, toString]
  | array element count => simp [FieldType.render, toString, hname]

theorem direction_plain (d : Direction) : Plain d.name.toList := by
  cases d <;> simp [Direction.name]

theorem describeField_plain {f : FieldSpec} (h : isIdentifier f.name = true) :
    Plain (Json.write (describeField f)) := by
  have hentries : Plain (Json.writeEntries [("name", .text f.name), ("type", .text f.type.render),
      ("optional", .boolean f.optional)]) := by
    refine writeEntries_plain ?_
    simp only [List.forall_mem_cons]
    refine ⟨⟨by simp, ?_⟩, ⟨by simp, ?_⟩, ⟨by simp, ?_⟩, List.forall_mem_nil _⟩
    · exact writeText_plain (identifier_plain h).no_tag
    · exact writeText_plain (render_plain f.type).no_tag
    · cases f.optional <;> simp [Json.write]
  rw [describeField, Json.write]
  simp [hentries]

theorem describeMessage_plain {m : MessageSpec} (h : SpeltNames m) :
    Plain (Json.write (describeMessage m)) := by
  have hfields : Plain (Json.writeElements (m.fields.map describeField)) :=
    writeElements_plain (List.forall_mem_map.mpr fun f hf => describeField_plain (h.fields f hf))
  have hentries : Plain (Json.writeEntries [("tag", .integer m.tag.toNat), ("name", .text m.name),
      ("direction", .text m.direction.name), ("fields", .array (m.fields.map describeField))]) := by
    refine writeEntries_plain ?_
    simp only [List.forall_mem_cons]
    refine ⟨⟨by simp, ?_⟩, ⟨by simp, ?_⟩, ⟨by simp, ?_⟩, ⟨by simp, ?_⟩, List.forall_mem_nil _⟩
    · rw [Json.write]
      exact plain_intText _
    · exact writeText_plain (identifier_plain h.name).no_tag
    · exact writeText_plain (direction_plain m.direction).no_tag
    · rw [Json.write]
      simp [hfields]
  rw [describeMessage, Json.write]
  simp [hentries]

theorem describe_plain {p : Protocol} (h : ∀ m ∈ p.messages, SpeltNames m) :
    Plain (describe p).render.toList := by
  have hmessages : Plain (Json.writeElements (p.messages.map describeMessage)) :=
    writeElements_plain (List.forall_mem_map.mpr fun m hm => describeMessage_plain (h m hm))
  rw [Json.Value.render, String.toList_ofList, describe, Json.write]
  simp [hmessages]

/-! ## Modules -/

theorem runtime_mild : ∀ part ∈ runtime, MildLines part.lines := by
  simp only [runtime, List.forall_mem_cons, MildLines, MildLine, decodeErrorPart, toBytesPart,
    checkArrayPart, writerPart, readerPart, decodeAsPart, List.not_mem_nil, false_implies,
    implies_true, and_true]
  and_intros
  all_goals rw [String.toList_ofList]
  all_goals decide

theorem session_mild : ∀ part ∈ session, MildLines part.lines := by
  simp only [session, List.forall_mem_cons, MildLines, MildLine, decodeAtPart, decodePart,
    controlTagsPart, isSystemFramePart, encodeJoinPart, decodeSystemPart, connectPart,
    String.toList_append, List.not_mem_nil, false_implies, implies_true, and_true]
  and_intros
  all_goals repeat rw [String.toList_ofList]
  all_goals decide

theorem constantsPart_mild {p : Protocol} (h : ∀ m ∈ p.messages, SpeltNames m) :
    MildLines (constantsPart p).lines := by
  have hfingerprint : Plain (fingerprintText p).toList := plain_hexLiteral 8 _
  have hdescription := describe_plain h
  rw [constantsPart, mildLines_cons, mildLines_cons, mildLines_cons]
  refine ⟨?_, ?_, ?_, mildLines_nil⟩
  · exact Plain.line (by simp [toString, hfingerprint])
  · exact Plain.line (by simp [toString])
  · exact Plain.line (by simp [hdescription])

theorem messageParts_mild {m : MessageSpec} (h : SpeltNames m) :
    ∀ part ∈ messageParts m, MildLines part.lines := by
  have hident := plain_of_nameChars h.ident
  have hfields : ∀ f ∈ m.fields, Plain f.name.toList := fun f hf => identifier_plain (h.fields f hf)
  simp only [messageParts, List.forall_mem_cons]
  refine ⟨?_, ?_, decoderPart_mild hident, List.forall_mem_nil _⟩
  · exact Encoder.part_mild hident (identifier_plain h.name) (List.forall_mem_map.mpr hfields)
  · exact Reader.part_mild hident (List.forall_mem_map.mpr hfields)

theorem tablePart_mild {p : Protocol} (h : ∀ m ∈ p.messages, SpeltNames m) :
    MildLines (tablePart p).lines := by
  refine .block (Plain.line (by simp)) ?_ (Plain.line (by simp))
  refine List.forall_mem_map.mpr fun m hm => Plain.line ?_
  have hname := identifier_plain (h m hm).name
  have hident := plain_of_nameChars (h m hm).ident
  unfold tableRow
  simp [hname, hident, direction_plain]

theorem exportPart_mild {p : Protocol} (h : ∀ m ∈ p.messages, SpeltNames m) :
    MildLines (exportPart p).lines := by
  have hexports : ∀ name ∈ exports p, Plain name.toList := by
    refine List.forall_mem_append.mpr ⟨?_, List.forall_mem_flatMap.mpr fun m hm => ?_⟩
    · simp [sharedExports]
    · simp [plain_of_nameChars (h m hm).ident]
  refine .block (Plain.line (by simp)) ?_ (Plain.line (by simp))
  refine List.forall_mem_map.mpr fun name hname => Plain.line ?_
  simp [toString, hexports name hname]

theorem moduleLines_mild {p : Protocol} (h : ∀ m ∈ p.messages, SpeltNames m) :
    MildLines (moduleLines p) := by
  have hfingerprint : Plain (fingerprintText p).toList := plain_hexLiteral 8 _
  have hparts : ∀ part ∈ parts p, MildLines part.lines := by
    simp only [parts, List.forall_mem_append, List.forall_mem_cons, List.forall_mem_flatMap]
    refine ⟨⟨⟨⟨⟨⟨?_, constantsPart_mild h, List.forall_mem_nil _⟩, runtime_mild⟩, ?_⟩, ?_⟩,
      session_mild⟩, exportPart_mild h, List.forall_mem_nil _⟩
    · exact mildLines_cons.mpr ⟨Plain.line (by simp), mildLines_nil⟩
    · exact fun m hm => messageParts_mild (h m hm)
    · exact ⟨tablePart_mild h, List.forall_mem_nil _⟩
  refine mildLines_append.mpr ⟨?_, ?_⟩
  · rw [mildLines_cons, mildLines_cons]
    refine ⟨Plain.line (by simp), Plain.line ?_, mildLines_nil⟩
    simp [toString, hfingerprint]
  · exact .block (Plain.line (by simp)) (mildLines_parts hparts) (Plain.line (by simp))

theorem mild_moduleText {p : Protocol} (h : ∀ m ∈ p.messages, SpeltNames m) :
    Mild (moduleText p).toList := mild_fileText (moduleLines_mild h)

/-! ## Blocks -/

theorem debuggerScriptLines_mild : MildLines debuggerScriptLines := by
  simp only [MildLines, MildLine, debuggerScriptLines, List.forall_mem_cons, List.not_mem_nil,
    false_implies, implies_true, and_true]
  and_intros
  all_goals rw [String.toList_ofList]
  all_goals decide

theorem debuggerStyleLines_mild : MildLines debuggerStyleLines := by
  simp only [MildLines, MildLine, debuggerStyleLines, List.forall_mem_cons, List.not_mem_nil,
    false_implies, implies_true, and_true]
  and_intros
  all_goals rw [String.toList_ofList]
  all_goals decide

theorem mild_scriptElement (ha : Mild a.toList) : Mild (scriptElement a).toList := by
  have hopen : Mild "<script>\n".toList := by
    rw [String.toList_ofList]
    decide
  have hclose : Mild "</script>".toList := by
    rw [String.toList_ofList]
    decide
  exact mild_append (mild_append hopen ha) hclose

theorem mild_styleElement (ha : Mild a.toList) : Mild (styleElement a).toList := by
  have hopen : Mild "<style>\n".toList := by
    rw [String.toList_ofList]
    decide
  have hclose : Mild "</style>".toList := by
    rw [String.toList_ofList]
    decide
  exact mild_append (mild_append hopen ha) hclose

theorem mild_scriptLink (hpath : '<' ∉ path.toList) : Mild (scriptLink path).toList := by
  have hopen : Mild "<script src=\"".toList := by
    rw [String.toList_ofList]
    decide
  have hclose : Mild "\"></script>".toList := by
    rw [String.toList_ofList]
    decide
  exact mild_append (mild_append hopen (mild_of_not_mem hpath)) hclose

theorem mild_styleLink (hpath : '<' ∉ path.toList) : Mild (styleLink path).toList := by
  have hopen : Mild "<link rel=\"stylesheet\" href=\"".toList := by
    rw [String.toList_ofList]
    decide
  exact mild_append (mild_append hopen (mild_of_not_mem hpath)) (mild_of_not_mem (by simp))

/-- Whatever an action puts into a page can stand in a block. -/
theorem blocks_mild {p : Protocol} {w : Wishes} (h : ∀ m ∈ p.messages, SpeltNames m)
    (hassets : '<' ∉ w.assetPrefix.toList) (action : PageAction) :
    ∀ x ∈ blocks w (moduleText p) action, Mild x.2.toList := by
  have hlf : Mild "\n".toList := mild_of_not_mem (by simp)
  have hscript := mild_scriptElement (mild_fileText debuggerScriptLines_mild)
  have hstyle := mild_styleElement (mild_fileText debuggerStyleLines_mild)
  cases action with
  | embed =>
    refine List.forall_mem_cons.mpr ⟨mild_scriptElement (mild_moduleText h), ?_⟩
    split
    · exact List.forall_mem_singleton.mpr (mild_append (mild_append hstyle hlf) hscript)
    · exact List.forall_mem_nil _
  | link =>
    refine List.forall_mem_cons.mpr
      ⟨mild_scriptLink (by simp [hassets, moduleFile]), ?_⟩
    split
    · refine List.forall_mem_singleton.mpr (mild_append (mild_append ?_ hlf) ?_)
      · exact mild_styleLink (by simp [hassets, debuggerStyleFile])
      · exact mild_scriptLink (by simp [hassets, debuggerScriptFile])
    · exact List.forall_mem_nil _
  | remove => exact List.forall_mem_nil _
  | removeDebugger => exact List.forall_mem_nil _

end Gamewire.Client
