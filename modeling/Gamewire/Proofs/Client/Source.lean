import Gamewire.Proofs.Client.Declarations

/-! The text of a module is read back: it declares the shared functions and, between them, the three
functions of each message, made of the statements that the protocol asks for, and the table of messages. -/
namespace Gamewire.Client
set_option autoImplicit false

open Text

/-! ## Functions of messages -/

def Encoder.commands (e : Encoder) : List Command :=
  .plain (.push (.byte e.tag.toNat)) :: e.steps.flatMap (EncoderStep.commands e.message)

/-- The name of a field in error texts ends where it is quoted. -/
theorem no_quote_path {message field : String} (hmessage : isIdentifier message = true)
    (hfield : isIdentifier field = true) : '"' ∉ (message ++ "." ++ field).toList := by
  have h := not_mem_of_nameChars (c := '"') (isNameChar_of_isIdentifier hmessage) rfl
  have h' := not_mem_of_nameChars (c := '"') (isNameChar_of_isIdentifier hfield) rfl
  simp [h, h']

theorem commands?_steps {message : String} {steps : List EncoderStep}
    (hmessage : isIdentifier message = true) (hsteps : ∀ s ∈ steps, isIdentifier s.field = true) :
    commands? "msg" (steps.flatMap (EncoderStep.lines message)) =
      some (steps.flatMap (EncoderStep.commands message)) := by
  induction steps with
  | nil =>
    rw [List.flatMap_nil, commands?]
    rfl
  | cons s steps ih =>
    obtain ⟨hs, hsteps⟩ := List.forall_mem_cons.mp hsteps
    rw [List.flatMap_cons, EncoderStep.commands?_lines hs (no_quote_path hmessage hs), ih hsteps]
    rfl

theorem Encoder.commands?_lines {e : Encoder} (hmessage : isIdentifier e.message = true)
    (hsteps : ∀ s ∈ e.steps, isIdentifier s.field = true) :
    commands? (parameter "msg" e.steps.isEmpty)
      (s!"w.u8({e.tag.toNat});" :: e.steps.flatMap (EncoderStep.lines e.message)) =
        some e.commands := by
  have hrest : commands? (parameter "msg" e.steps.isEmpty)
      (e.steps.flatMap (EncoderStep.lines e.message)) =
        some (e.steps.flatMap (EncoderStep.commands e.message)) := by
    -- without a step there is no parameter, and no line to read with it
    cases hempty : e.steps with
    | nil =>
      rw [List.flatMap_nil, commands?]
      rfl
    | cons s steps =>
      rw [hempty] at hsteps
      exact commands?_steps hmessage hsteps
  rw [commands?, statement_byte]
  simp only
  rw [hrest]
  rfl

theorem encoder?_enclosed {d : Declaration} {lines : List String}
    (hbody : d.body = "const w = new Writer();" :: (lines ++ ["return w.finish();"])) :
    d.encoder? = (commands? d.parameters lines).map .encoder := by
  rw [Declaration.encoder?, hbody]
  exact (if_pos ⟨rfl, List.getLast?_concat⟩).trans (by rw [List.dropLast_concat])

theorem reader?_enclosed {d : Declaration} {lines : List String}
    (hbody : d.body = "const msg = \x7b\x7d;" :: (lines ++ ["return msg;"])) :
    d.reader? = (lines.mapM (Scan.readerStep d.parameters).whole).map .reader := by
  rw [Declaration.reader?, hbody]
  exact (if_pos ⟨rfl, List.getLast?_concat⟩).trans (by rw [List.dropLast_concat])

def Encoder.declaration (e : Encoder) : Declaration where
  name := "encode" ++ e.ident
  parameters := parameter "msg" e.steps.isEmpty
  body := "const w = new Writer();" :: ((s!"w.u8({e.tag.toNat});" ::
    e.steps.flatMap (EncoderStep.lines e.message)) ++ ["return w.finish();"])

theorem Encoder.function_declaration {e : Encoder} (hmessage : isIdentifier e.message = true)
    (hsteps : ∀ s ∈ e.steps, isIdentifier s.field = true) :
    e.declaration.function = .encoder e.commands := by
  have hencoder : e.declaration.encoder? = some (.encoder e.commands) := by
    rw [encoder?_enclosed rfl]
    exact congrArg _ (e.commands?_lines hmessage hsteps)
  rw [Declaration.function, hencoder]
  rfl

def Reader.declaration (r : Reader) : Declaration where
  name := "read" ++ r.ident
  parameters := parameter "r" r.steps.isEmpty
  body := "const msg = \x7b\x7d;" :: (r.steps.map ReaderStep.line ++ ["return msg;"])

theorem readerSteps_whole {steps : List ReaderStep}
    (hsteps : ∀ s ∈ steps, isIdentifier s.field = true) :
    (steps.map ReaderStep.line).mapM (Scan.readerStep "r").whole = some steps := by
  induction steps with
  | nil => rfl
  | cons s steps ih =>
    obtain ⟨hs, hsteps⟩ := List.forall_mem_cons.mp hsteps
    rw [List.map_cons, List.mapM_cons, readerStep_whole hs, ih hsteps]
    rfl

theorem Reader.function_declaration {r : Reader}
    (hsteps : ∀ s ∈ r.steps, isIdentifier s.field = true) :
    r.declaration.function = .reader r.steps := by
  have hlines : (r.steps.map ReaderStep.line).mapM (Scan.readerStep r.declaration.parameters).whole =
      some r.steps := by
    cases hempty : r.steps with
    | nil => rfl
    | cons s steps =>
      have hparameters : r.declaration.parameters = "r" := by
        rw [declaration, hempty]
        rfl
      rw [hparameters]
      exact readerSteps_whole (hempty ▸ hsteps)
  have hreader : r.declaration.reader? = some (.reader r.steps) := by
    rw [reader?_enclosed rfl, hlines]
    rfl
  rw [Declaration.function, encoder?_apart _ _ rfl (by decide), hreader]
  rfl

def decoderDeclaration (m : MessageSpec) : Declaration where
  name := "decode" ++ m.ident
  parameters := "input"
  body := [s!"return decodeAs({m.tag.toNat}, read{m.ident}, input);"]

theorem append_ne {word text : String} (h : ¬ Meets text.toList word.toList) (more : String) :
    word ++ more ≠ text := by
  rintro rfl
  rw [String.toList_append] at h
  exact h (.inr (List.prefix_append _ _))

theorem call_whole {name : String} (hname : isIdentifier name = true) {d : Declaration}
    (hparameters : d.parameters = "input") (tag : Nat) : (Declaration.decoder?.call d).whole
      ("return decodeAs(" ++ (tag.repr ++ ", " ++ name ++ ", input);")) = some (.decoder tag name) := by
  have hlast : ", input);".toList = ", ".toList ++ ("input".toList ++ ");".toList) := rfl
  have hcomma : Halts isNameChar ", " := by decide
  refine Scan.whole_of_run fun rest => ?_
  simp (disch := decide) only [String.toList_append, List.append_assoc, hlast,
    Declaration.decoder?.call, hparameters, Scan.bind_run, Scan.literal_run, Scan.number_run,
    Scan.name_run hname hcomma, Scan.pure_run]

theorem function_decoderDeclaration {m : MessageSpec}
    (hident : ∀ c ∈ m.ident.toList, isNameChar c = true) :
    (decoderDeclaration m).function = .decoder m.tag.toNat ("read" ++ m.ident) := by
  have hname : isIdentifier ("read" ++ m.ident) = true := isIdentifier_append (by decide) hident
  have hline : s!"return decodeAs({m.tag.toNat}, read{m.ident}, input);" =
      "return decodeAs(" ++ (m.tag.toNat.repr ++ ", " ++ ("read" ++ m.ident) ++ ", input);") := by
    apply String.toList_inj.mp
    simp [toString]
  have hbody : (decoderDeclaration m).body =
      ["return decodeAs(" ++ (m.tag.toNat.repr ++ ", " ++ ("read" ++ m.ident) ++ ", input);")] :=
    congrArg (fun line => [line]) hline
  have hencoder := encoder?_apart _ _ hbody (append_ne (by decide) _)
  have hreader : (decoderDeclaration m).reader? = none := by
    rw [Declaration.reader?, hbody]
    exact if_neg fun h => append_ne (by decide) _ h.1
  have hdecoder : (decoderDeclaration m).decoder? = some (.decoder m.tag.toNat ("read" ++ m.ident)) := by
    rw [Declaration.decoder?, hbody]
    exact call_whole hname rfl m.tag.toNat
  rw [Declaration.function, hencoder, hreader, hdecoder]
  rfl

/-! ## Messages -/

def messageDeclarations (m : MessageSpec) : List Declaration :=
  [(Encoder.ofMessage m).declaration, (Reader.ofMessage m).declaration, decoderDeclaration m]

theorem no_bracket_parameter {name : String} (hname : ')' ∉ name.toList) (isEmpty : Bool) :
    ')' ∉ (parameter name isEmpty).toList := by
  unfold parameter
  split
  · decide
  · exact hname

theorem declarations_generated {kind opening ident parameters : String} {inner : List String}
    (hopening : opening = "function " ++ kind) (hkind : isIdentifier kind = true)
    (hident : ∀ c ∈ ident.toList, isNameChar c = true) (hparameters : ')' ∉ parameters.toList) :
    declarations (block (opening ++ ident ++ "(" ++ parameters ++ ") \x7b") inner "\x7d") =
      [⟨kind ++ ident, parameters, inner⟩] := by
  have hheader := header_whole (isIdentifier_append hkind hident) hparameters
  rw [declarations_block closes_brace, hopening, @String.append_assoc "function ", hheader]
  rfl

theorem declarations_messageParts {m : MessageSpec}
    (hident : ∀ c ∈ m.ident.toList, isNameChar c = true) :
    ((messageParts m).flatMap fun part => declarations part.lines) = messageDeclarations m := by
  have hencoder : declarations (Encoder.ofMessage m).part.lines =
      [(Encoder.ofMessage m).declaration] :=
    declarations_generated rfl (by decide) hident (no_bracket_parameter (by decide) _)
  have hreader : declarations (Reader.ofMessage m).part.lines = [(Reader.ofMessage m).declaration] :=
    declarations_generated rfl (by decide) hident (no_bracket_parameter (by decide) _)
  have hdecoder : declarations (decoderPart m).lines = [decoderDeclaration m] := by
    have hopening : "function decode" ++ m.ident ++ "(input) \x7b" =
        "function decode" ++ m.ident ++ "(" ++ "input" ++ ") \x7b" := by
      apply String.toList_inj.mp
      simp
    rw [decoderPart, hopening]
    exact declarations_generated rfl (by decide) hident (by decide)
  rw [messageParts, List.flatMap_cons, List.flatMap_cons, List.flatMap_cons, hencoder, hreader,
    hdecoder]
  rfl

/-! ## Modules -/

theorem closed_shared : ∀ part ∈ runtime ++ session, Closed part.lines := by
  have hbrace : ∀ part ∈ runtime ++ session, part.lines.getLast? = some "\x7d" ∨
      part.lines.getLast? = some "\x7d;" := by
    simp only [runtime, session, List.cons_append, List.nil_append, List.forall_mem_cons,
      List.not_mem_nil, false_implies, implies_true, and_true]
    and_intros
    all_goals first | exact .inl rfl | exact .inr rfl
  intro part hpart
  obtain hlast | hlast := hbrace part hpart
  · exact closes_brace.closed hlast
  · exact Closes.closed ⟨by decide, by decide⟩ hlast

theorem closed_parts (p : Protocol) : ∀ part ∈ parts p, Closed part.lines := by
  have hshared := List.forall_mem_append.mp closed_shared
  have hstrict : Closes "\"use strict\";" := ⟨by decide, by decide⟩
  have hconstants : Closes ("const SCHEMA = " ++ (describe p).render ++ ";") := by
    rw [String.append_assoc]
    exact ⟨isInner_apart (by decide) _, header_apart (by decide) _⟩
  have htable : Closed (tablePart p).lines := Closes.closed_block ⟨by decide, by decide⟩
  have hexport : Closed (exportPart p).lines := Closes.closed_block ⟨by decide, by decide⟩
  have hmessage : ∀ m ∈ p.messages, ∀ part ∈ messageParts m, Closed part.lines := by
    intro m _
    simp only [messageParts, List.forall_mem_cons, List.not_mem_nil, false_implies, implies_true,
      and_true]
    exact ⟨closes_brace.closed_block, closes_brace.closed_block, closes_brace.closed_block⟩
  simp only [parts, List.forall_mem_append, List.forall_mem_cons, List.forall_mem_flatMap,
    List.not_mem_nil, false_implies, implies_true, and_true]
  exact ⟨⟨⟨⟨⟨⟨hstrict.closed rfl, hconstants.closed rfl⟩, hshared.1⟩, hmessage⟩, htable⟩,
    hshared.2⟩, hexport⟩

def moduleDeclarations (p : Protocol) : List Declaration :=
  runtimeDeclarations ++ p.messages.flatMap messageDeclarations ++ sessionDeclarations

theorem declarations_parts {p : Protocol} (h : ∀ m ∈ p.messages, SpeltNames m) :
    declarations (partLines (parts p)) = moduleDeclarations p := by
  have hstrict : declarations strictPart.lines = [] :=
    declarations_silent (List.forall_mem_singleton.mpr (by decide))
  have hconstants : declarations (constantsPart p).lines = [] := by
    refine declarations_silent ?_
    simp only [constantsPart, toString, String.append_assoc, List.forall_mem_cons, List.not_mem_nil,
      false_implies, implies_true, and_true]
    exact ⟨header_apart (by decide) _, header_apart (by decide) _, header_apart (by decide) _⟩
  have htable : declarations (tablePart p).lines = [] := by
    rw [tablePart, declarations_block ⟨by decide, by decide⟩,
      show declarations.header.whole "const MESSAGES = [" = none by decide]
    rfl
  have hexport : declarations (exportPart p).lines = [] := by
    rw [exportPart, declarations_block ⟨by decide, by decide⟩,
      show declarations.header.whole "global.HNP = Object.freeze(\x7b" = none by decide]
    rfl
  have hmessages : ((p.messages.flatMap messageParts).flatMap fun part => declarations part.lines) =
      p.messages.flatMap messageDeclarations := by
    rw [List.flatMap_assoc]
    exact List.flatMap_congr fun m hm => declarations_messageParts (h m hm).ident
  rw [declarations_partLines (closed_parts p), parts]
  simp only [List.flatMap_append, List.flatMap_cons, List.flatMap_nil, hstrict, hconstants, htable,
    hexport, hmessages, declarations_runtime, declarations_session, List.nil_append, List.append_nil]
  rfl

/-! ## The table -/

def Row.ofMessage (m : MessageSpec) : Row :=
  ⟨m.name, m.direction.name, "encode" ++ m.ident, "read" ++ m.ident⟩

theorem row_whole {message direction encode read : String} (hmessage : '"' ∉ message.toList)
    (hdirection : '"' ∉ direction.toList) (hencode : isIdentifier encode = true)
    (hread : isIdentifier read = true) : Scan.row.whole ("\x7b name: \"" ++ message ++
      "\", direction: \"" ++ direction ++ "\", encode: " ++ encode ++ ", read: " ++ read ++ " \x7d,") =
        some ⟨message, direction, encode, read⟩ := by
  have hopen : "\x7b name: \"".toList = "\x7b name: ".toList ++ "\"".toList := rfl
  have hdirection' : "\", direction: \"".toList =
      "\"".toList ++ (", direction: ".toList ++ "\"".toList) := rfl
  have hencode' : "\", encode: ".toList = "\"".toList ++ ", encode: ".toList := rfl
  have hcomma : Halts isNameChar ", read: " := by decide
  have hclose : Halts isNameChar " \x7d," := by decide
  refine Scan.whole_of_run fun rest => ?_
  simp only [String.toList_append, List.append_assoc, hopen, hdirection', hencode', Scan.row,
    Scan.bind_run, Scan.literal_run, Scan.quoted_run hmessage, Scan.quoted_run hdirection,
    Scan.name_run hencode hcomma, Scan.name_run hread hclose, Scan.pure_run]

theorem tableRow_whole {m : MessageSpec} (h : SpeltNames m) :
    Scan.row.whole (tableRow m) = some (.ofMessage m) := by
  have hdirection : '"' ∉ m.direction.name.toList := by cases m.direction <;> decide
  have hmessage := not_mem_of_nameChars (c := '"') (isNameChar_of_isIdentifier h.name) rfl
  have hencode : isIdentifier ("encode" ++ m.ident) = true := isIdentifier_append (by decide) h.ident
  have hread : isIdentifier ("read" ++ m.ident) = true := isIdentifier_append (by decide) h.ident
  have htext : tableRow m = "\x7b name: \"" ++ m.name ++ "\", direction: \"" ++ m.direction.name ++
      "\", encode: " ++ ("encode" ++ m.ident) ++ ", read: " ++ ("read" ++ m.ident) ++ " \x7d," := by
    apply String.toList_inj.mp
    simp [tableRow]
  rw [htext]
  exact row_whole hmessage hdirection hencode hread

theorem rows_whole {messages : List MessageSpec} (h : ∀ m ∈ messages, SpeltNames m) :
    (messages.map tableRow).mapM Scan.row.whole = some (messages.map Row.ofMessage) := by
  induction messages with
  | nil => rfl
  | cons m messages ih =>
    obtain ⟨hm, hmessages⟩ := List.forall_mem_cons.mp h
    rw [List.map_cons, List.mapM_cons, tableRow_whole hm, ih hmessages]
    rfl

theorem partLines_append_cons (before : List Part) (part : Part) (rest : List Part) :
    partLines (before ++ part :: rest) =
      before.flatMap (fun part => part.lines ++ [""]) ++ partLines (part :: rest) := by
  induction before with
  | nil => rfl
  | cons first before ih =>
    obtain ⟨next, more, hmore⟩ : ∃ next more, before ++ part :: rest = next :: more :=
      List.exists_cons_of_ne_nil (by simp)
    rw [List.cons_append, hmore, partLines, ← hmore, ih, List.flatMap_cons, List.append_assoc,
      List.append_assoc, List.singleton_append]
    exact fun h => List.cons_ne_nil _ _ h

/-- The line with which the table begins. -/
def tableHeader : String := "const MESSAGES = ["

theorem not_mem_block {text first last : String} {inner : List String} (h : isInner text = false)
    (hfirst : first ≠ text) (hlast : last ≠ text) : text ∉ block first inner last := by
  rw [block, List.mem_append, List.mem_cons, List.mem_singleton, not_or, not_or]
  refine ⟨⟨hfirst.symm, fun hmem => ?_⟩, hlast.symm⟩
  obtain ⟨line, -, rfl⟩ := List.mem_map.mp hmem
  rw [isInner_indent] at h
  cases h

theorem tableHeader_not_mem {p : Protocol} : ∀ part ∈ [strictPart, constantsPart p] ++ runtime ++
    p.messages.flatMap messageParts, tableHeader ∉ part.lines := by
  have hconstants : tableHeader ∉ (constantsPart p).lines := by
    simp only [constantsPart, toString, String.append_assoc, List.mem_cons, List.not_mem_nil, not_or]
    exact ⟨(append_ne (by decide) _).symm, (append_ne (by decide) _).symm,
      (append_ne (by decide) _).symm, not_false⟩
  have hmessage : ∀ m ∈ p.messages, ∀ part ∈ messageParts m, tableHeader ∉ part.lines := by
    intro m _
    simp only [messageParts, List.forall_mem_cons, List.not_mem_nil, false_implies, implies_true,
      and_true]
    refine ⟨not_mem_block (by decide) ?_ (by decide), not_mem_block (by decide) ?_ (by decide),
      not_mem_block (by decide) ?_ (by decide)⟩
    all_goals
      simp only [String.append_assoc]
      exact append_ne (by decide) _
  have hruntime : ∀ part ∈ runtime, tableHeader ∉ part.lines := by
    decide +kernel
  simp only [List.forall_mem_append, List.forall_mem_cons, List.forall_mem_flatMap,
    List.not_mem_nil, false_implies, implies_true, and_true]
  exact ⟨⟨⟨by decide, hconstants⟩, hruntime⟩, hmessage⟩

theorem rows?_parts {p : Protocol} (h : ∀ m ∈ p.messages, SpeltNames m) :
    rows? (partLines (parts p)) = some (p.messages.map Row.ofMessage) := by
  have hparts : parts p = ([strictPart, constantsPart p] ++ runtime ++
      p.messages.flatMap messageParts) ++ tablePart p :: (session ++ [exportPart p]) := by
    rw [parts, List.append_assoc, List.append_assoc]
    rfl
  have hmore : partLines (tablePart p :: (session ++ [exportPart p])) =
      tableHeader :: (indented (p.messages.map tableRow) ++
        "];" :: "" :: partLines (session ++ [exportPart p])) := by
    rw [session, List.cons_append, partLines, tablePart, block, List.append_assoc]
    · rfl
    · exact fun h => List.cons_ne_nil _ _ h
  have hbefore : ∀ line ∈ ([strictPart, constantsPart p] ++ runtime ++
      p.messages.flatMap messageParts).flatMap (fun part => part.lines ++ [""]),
        (line != tableHeader) = true := by
    refine List.forall_mem_flatMap.mpr fun part hpart => List.forall_mem_append.mpr ⟨?_, ?_⟩
    · exact fun line hline =>
        bne_iff_ne.mpr (ne_of_mem_of_not_mem hline (tableHeader_not_mem part hpart))
    · exact List.forall_mem_singleton.mpr (by decide)
  have hdrop : (partLines (parts p)).dropWhile (· != tableHeader) =
      tableHeader :: (indented (p.messages.map tableRow) ++
        "];" :: "" :: partLines (session ++ [exportPart p])) := by
    rw [hparts, partLines_append_cons, hmore, List.dropWhile_append_of_pos hbefore,
      List.dropWhile_cons_of_neg (by simp)]
  rw [rows?]
  show List.mapM _ (inside (((partLines (parts p)).dropWhile (· != tableHeader)).drop 1)) = _
  have hclose : isInner "];" = false := by decide
  rw [hdrop, List.drop_one, List.tail_cons, (inside_indented _ hclose _).1]
  exact rows_whole h

/-! ## The text -/

theorem textLines_fileText {lines : List String} (h : ∀ line ∈ lines, '\n' ∉ line.toList) :
    Scope.textLines (fileText lines) = lines ++ [""] := by
  rw [Scope.textLines, toList_fileText]
  induction lines with
  | nil => rfl
  | cons line lines ih =>
    obtain ⟨hline, hlines⟩ := List.forall_mem_cons.mp h
    rw [List.flatMap_cons, List.append_assoc, List.singleton_append,
      List.splitOn_append_cons_self_of_not_mem hline, List.map_cons, ih hlines, String.ofList_toList]
    rfl

def Declaration.named (d : Declaration) : String × Function := (d.name, d.function)

/-- What is in scope in the module of a protocol. -/
def Scope.ofProtocol (p : Protocol) : Scope where
  functions := (moduleDeclarations p).map Declaration.named
  messages := p.messages.map Row.ofMessage

theorem ofText?_moduleText {p : Protocol} (h : ∀ m ∈ p.messages, SpeltNames m) :
    Scope.ofText? (moduleText p) = some (.ofProtocol p) := by
  have hcomments : ∀ line ∈ ["// Generated by hnp. Do not edit.",
      s!"// Protocol fingerprint {fingerprintText p}, {p.messages.length} message(s)."],
        (line != "(function (global) \x7b") = true := by
    simp only [toString, String.append_assoc, List.forall_mem_cons, List.not_mem_nil,
      false_implies, implies_true, and_true]
    exact ⟨by decide, bne_iff_ne.mpr (append_ne (by decide) _)⟩
  have hopen : (moduleLines p ++ [""]).dropWhile (· != "(function (global) \x7b") =
      "(function (global) \x7b" :: (indented (partLines (parts p)) ++
        "\x7d)(typeof window !== \"undefined\" ? window : globalThis);" :: [""]) := by
    rw [moduleLines, block_eq, List.append_assoc, List.dropWhile_append_of_pos hcomments,
      List.cons_append, List.dropWhile_cons_of_neg (by simp), List.append_assoc,
      List.singleton_append]
  have hlines : Scope.textLines (moduleText p) = moduleLines p ++ [""] :=
    textLines_fileText fun line hline => (moduleLines_mild h line hline).2
  have hclose : isInner "\x7d)(typeof window !== \"undefined\" ? window : globalThis);" = false := by
    decide
  rw [Scope.ofText?, hlines, hopen, List.drop_one, List.tail_cons, (inside_indented _ hclose _).1,
    declarations_parts h]
  simp only [rows?_parts h]
  rfl

end Gamewire.Client
