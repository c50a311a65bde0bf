import Gamewire.Client.Module
import Gamewire.Proofs.Client.Scan

/-! The functions that lines of a module declare. Parts of a module are read one by one, since each of them
ends with a line to the left that opens nothing, and a part that is one function declares that function. -/
namespace Gamewire.Client
set_option autoImplicit false

open Text

/-! ## Declarations -/

theorem isIdentifier_append {a b : String} (ha : isIdentifier a = true)
    (hb : ∀ c ∈ b.toList, isNameChar c = true) : isIdentifier (a ++ b) = true := by
  unfold isIdentifier at ha ⊢
  split at ha
  · cases ha
  · rename_i c cs hchars
    obtain ⟨hfirst, hrest⟩ := Bool.and_eq_true_iff.mp ha
    rw [String.toList_append, hchars, List.cons_append]
    simp only
    rw [hfirst, List.all_append, hrest, List.all_eq_true.mpr hb]
    rfl

theorem header_whole {name parameters : String} (hname : isIdentifier name = true)
    (hparameters : ')' ∉ parameters.toList) :
    declarations.header.whole ("function " ++ name ++ "(" ++ parameters ++ ") \x7b") =
      some (name, parameters) := by
  have hinside : ∀ c ∈ parameters.toList, (c != ')') = true := fun c hc =>
    bne_iff_ne.mpr (ne_of_mem_of_not_mem hc hparameters)
  refine Scan.whole_of_run fun rest => ?_
  have hstop : Halts isNameChar "(" := by decide
  have hbracket : Halts (· != ')') ") \x7b" := by decide
  obtain ⟨htake, hdrop⟩ := takeWhile_run hinside hbracket rest
  simp only [String.toList_append, List.append_assoc, declarations.header, Scan.bind_run,
    Scan.literal_run, Scan.name_run hname hstop, htake, hdrop, String.ofList_toList, Scan.pure_run]

/-- A line that begins with another word declares no function. -/
theorem header_apart {word : String} (h : ¬ Meets "function ".toList word.toList) (more : String) :
    declarations.header.whole (word ++ more) = none := by
  unfold Scan.whole
  simp only [String.toList_append, declarations.header, Scan.bind_run, Scan.literal_apart h]

theorem header_of_isInner {line : String} (h : isInner line = true) :
    declarations.header.whole line = none := by
  obtain hempty | hindented := Bool.or_eq_true_iff.mp h
  · rw [String.isEmpty_iff.mp hempty]
    decide
  · obtain ⟨more, hmore⟩ := List.isPrefixOf_iff_prefix.mp hindented
    have hline : line = "  " ++ String.ofList more := by
      rw [← String.toList_inj, ← hmore, String.toList_append, String.toList_ofList (l := more)]
    rw [hline]
    exact header_apart (by decide) _

theorem isInner_apart {word : String} (h : ¬ Meets "  ".toList word.toList) (more : String) :
    isInner (word ++ more) = false := by
  rw [isInner, Bool.or_eq_false_iff, Bool.eq_false_iff, Bool.eq_false_iff]
  constructor
  · intro hempty
    have hchars := congrArg String.toList (String.isEmpty_iff.mp hempty)
    rw [String.toList_append] at hchars
    rw [(List.append_eq_nil_iff.mp hchars).1] at h
    exact h (.inr List.nil_prefix)
  · intro hprefix
    rw [String.toList_append] at hprefix
    exact h (Meets.of_append (.inl (List.isPrefixOf_iff_prefix.mp hprefix)))

/-- The last line stands to the left and opens nothing. -/
def Closed (lines : List String) : Prop :=
  ∀ last ∈ lines.getLast?, isInner last = false ∧ declarations.header.whole last = none

/-- What the first lines declare does not depend on the lines behind them. -/
theorem declarations_append {lines : List String} (h : Closed lines) (rest : List String) :
    declarations (lines ++ rest) = declarations lines ++ declarations rest := by
  induction lines with
  | nil => rfl
  | cons line lines ih =>
    obtain rfl | ⟨before, last, rfl⟩ := List.eq_nil_or_concat' lines
    · obtain ⟨-, hheader⟩ := h line rfl
      rw [List.singleton_append, declarations, declarations, hheader]
      rfl
    · have hlast := h last (by
        rw [← List.cons_append]
        exact List.getLast?_concat)
      have hclosed : Closed (before ++ [last]) := by
        rw [Closed, List.getLast?_concat]
        intro x hx
        cases hx
        exact hlast
      have hshort : (List.takeWhile isInner (before ++ [last])).length ≠ (before ++ [last]).length := by
        intro hlength
        have hall := List.takeWhile_eq_self_iff.mp
          ((List.takeWhile_prefix isInner).eq_of_length hlength) last (by simp)
        rw [hlast.1] at hall
        cases hall
      have hinside : inside (before ++ [last] ++ rest) = inside (before ++ [last]) := by
        rw [inside, List.takeWhile_append, if_neg hshort, inside]
      rw [List.cons_append, declarations, declarations, hinside, ih hclosed]
      cases declarations.header.whole line <;> rfl

theorem declarations_partLines {parts : List Part} (h : ∀ part ∈ parts, Closed part.lines) :
    declarations (partLines parts) = parts.flatMap fun part => declarations part.lines := by
  have hempty : declarations.header.whole "" = none := by decide
  fun_induction partLines parts with
  | case1 => rfl
  | case2 part => exact (List.flatMap_singleton (fun part => declarations part.lines) part).symm
  | case3 part rest _ ih =>
    obtain ⟨hpart, hrest⟩ := List.forall_mem_cons.mp h
    rw [declarations_append hpart, declarations, hempty, List.flatMap_cons, ← ih hrest]

variable {first last : String} {inner : List String}

/-- The last line of a block. -/
structure Closes (last : String) : Prop where
  outer : isInner last = false
  silent : declarations.header.whole last = none

theorem Closes.closed (h : Closes last) {lines : List String} (hlines : lines.getLast? = some last) :
    Closed lines := by
  intro x hx
  rw [hlines] at hx
  cases hx
  exact ⟨h.outer, h.silent⟩

theorem Closes.closed_block (h : Closes last) : Closed (block first inner last) := by
  refine h.closed ?_
  rw [block]
  exact List.getLast?_concat

theorem closes_brace : Closes "\x7d" := ⟨by decide, by decide⟩

theorem declarations_silent {lines : List String}
    (h : ∀ line ∈ lines, declarations.header.whole line = none) : declarations lines = [] := by
  induction lines with
  | nil => rfl
  | cons line lines ih =>
    obtain ⟨hline, hlines⟩ := List.forall_mem_cons.mp h
    rw [declarations, hline]
    exact ih hlines

/-- Lines to the right between two others are one declaration or none. -/
theorem declarations_enclosed (first : String) (h : Closes last)
    (hinner : ∀ line ∈ inner, isInner line = true) :
    declarations (first :: (inner ++ [last])) =
      ((declarations.header.whole first).map fun x => ⟨x.1, x.2, inner.map outdent⟩).toList := by
  have hsilent : declarations (inner ++ [last]) = [] := by
    refine declarations_silent (List.forall_mem_append.mpr ⟨?_, ?_⟩)
    · exact fun line hline => header_of_isInner (hinner line hline)
    · exact List.forall_mem_singleton.mpr h.silent
  rw [declarations, hsilent, (inside_append hinner h.outer []).1]
  cases declarations.header.whole first <;> rfl

theorem block_eq : block first inner last = first :: (indented inner ++ [last]) := rfl

theorem declarations_block (h : Closes last) : declarations (block first inner last) =
    ((declarations.header.whole first).map fun x => ⟨x.1, x.2, inner⟩).toList := by
  rw [block_eq, declarations_enclosed first h isInner_of_mem_indented, map_outdent_indented]

/-! ## Shared functions -/

theorem isInner_spaces {cs : List Char} : isInner (String.ofList (' ' :: ' ' :: cs)) = true := by
  rw [isInner, String.toList_ofList (l := ' ' :: ' ' :: cs), Bool.or_eq_true]
  exact .inr (List.isPrefixOf_iff_prefix.mpr (List.prefix_append [' ', ' '] cs))

/-- The lines of the shared parts, but for the first and last ones, stand to the right. -/
theorem isInner_runtime : ∀ part ∈ runtime, ∀ line ∈ part.lines.tail.dropLast, isInner line = true := by
  simp only [runtime, decodeErrorPart, toBytesPart, checkArrayPart, writerPart, readerPart,
    decodeAsPart, List.tail_cons, List.dropLast_cons_cons, List.dropLast_singleton,
    List.forall_mem_cons, List.not_mem_nil, false_implies, implies_true, and_true]
  and_intros
  all_goals exact isInner_spaces

theorem isInner_session : ∀ part ∈ [decodeAtPart, decodePart, isSystemFramePart, encodeJoinPart,
    decodeSystemPart, connectPart], ∀ line ∈ part.lines.tail.dropLast, isInner line = true := by
  simp only [decodeAtPart, decodePart, isSystemFramePart, encodeJoinPart, decodeSystemPart,
    connectPart, String.reduceAppend, List.tail_cons, List.dropLast_cons_cons, List.dropLast_singleton,
    List.forall_mem_cons, List.not_mem_nil, false_implies, implies_true, and_true]
  and_intros
  all_goals exact isInner_spaces

/-- A part that is one function. -/
def Part.declaration (part : Part) (name parameters : String) : Declaration :=
  ⟨name, parameters, part.lines.tail.dropLast.map outdent⟩

/-- Lines of which all but the first and the last one stand to the right. -/
theorem declarations_part {part : Part} (header : Option (String × String)) (h : Closes last)
    (hinner : ∀ line ∈ part.lines.tail.dropLast, isInner line = true)
    (hlines : part.lines = first :: (part.lines.tail.dropLast ++ [last]))
    (hheader : declarations.header.whole first = header) :
    declarations part.lines = (header.map fun x => part.declaration x.1 x.2).toList := by
  have henclosed := declarations_enclosed first h hinner
  rw [← hlines, hheader] at henclosed
  exact henclosed

namespace Shared

def declaration : Shared → Declaration
  | checkArray => checkArrayPart.declaration "checkArray" "value, len, path"
  | decodeAs => decodeAsPart.declaration "decodeAs" "tag, read, input"
  | decodeAt => decodeAtPart.declaration "decodeAt" "input"
  | decode => decodePart.declaration "decode" "input"
  | encodeJoin => encodeJoinPart.declaration "encodeJoin" "room"
  | decodeSystem => decodeSystemPart.declaration "decodeSystem" "input"

theorem declarations_part (f : Shared) : declarations f.part.lines = [f.declaration] := by
  have hruntime := isInner_runtime
  have hsession := isInner_session
  simp only [runtime, List.forall_mem_cons] at hruntime hsession
  obtain ⟨-, -, harray, -, -, has, -⟩ := hruntime
  obtain ⟨hat, hdecode, -, hjoin, hsystem, -, -⟩ := hsession
  have hbrace := closes_brace
  cases f with
  | checkArray =>
    exact Client.declarations_part (some ("checkArray", "value, len, path")) hbrace harray rfl
      (by decide)
  | decodeAs =>
    exact Client.declarations_part (some ("decodeAs", "tag, read, input")) hbrace has rfl (by decide)
  | decodeAt => exact Client.declarations_part (some ("decodeAt", "input")) hbrace hat rfl (by decide)
  | decode => exact Client.declarations_part (some ("decode", "input")) hbrace hdecode rfl (by decide)
  | encodeJoin =>
    exact Client.declarations_part (some ("encodeJoin", "room")) hbrace hjoin rfl (by decide)
  | decodeSystem =>
    exact Client.declarations_part (some ("decodeSystem", "input")) hbrace hsystem rfl (by decide)

end Shared

def runtimeDeclarations : List Declaration :=
  [toBytesPart.declaration "toBytes" "input", Shared.checkArray.declaration,
    Shared.decodeAs.declaration]

def sessionDeclarations : List Declaration :=
  [Shared.decodeAt.declaration, Shared.decode.declaration,
    isSystemFramePart.declaration "isSystemFrame" "input", Shared.encodeJoin.declaration,
    Shared.decodeSystem.declaration, connectPart.declaration "connect" "url, handlers"]

theorem declarations_runtime :
    (runtime.flatMap fun part => declarations part.lines) = runtimeDeclarations := by
  have hinner := isInner_runtime
  simp only [runtime, List.forall_mem_cons] at hinner
  obtain ⟨herror, hbytes, -, hwriter, hreader, -, -⟩ := hinner
  have harray : declarations checkArrayPart.lines = _ := Shared.checkArray.declarations_part
  have has : declarations decodeAsPart.lines = _ := Shared.decodeAs.declarations_part
  have hbrace := closes_brace
  simp only [runtime, List.flatMap_cons, List.flatMap_nil]
  rw [declarations_part none hbrace herror rfl (by decide),
    declarations_part (some ("toBytes", "input")) hbrace hbytes rfl (by decide), harray,
    declarations_part none hbrace hwriter rfl (by decide),
    declarations_part none hbrace hreader rfl (by decide), has]
  rfl

theorem declarations_session :
    (session.flatMap fun part => declarations part.lines) = sessionDeclarations := by
  have hinner := isInner_session
  simp only [List.forall_mem_cons] at hinner
  obtain ⟨-, -, hcontrol, -, -, hconnect, -⟩ := hinner
  have hat : declarations decodeAtPart.lines = _ := Shared.decodeAt.declarations_part
  have hdecode : declarations decodePart.lines = _ := Shared.decode.declarations_part
  have htags : declarations controlTagsPart.lines = [] := by decide +kernel
  have hjoin : declarations encodeJoinPart.lines = _ := Shared.encodeJoin.declarations_part
  have hsystem : declarations decodeSystemPart.lines = _ := Shared.decodeSystem.declarations_part
  have hbrace := closes_brace
  simp only [session, List.flatMap_cons, List.flatMap_nil]
  rw [hat, hdecode, htags,
    declarations_part (some ("isSystemFrame", "input")) hbrace hcontrol rfl (by decide), hjoin,
    hsystem, declarations_part (some ("connect", "url, handlers")) hbrace hconnect rfl (by decide)]
  rfl

/-! ## What a shared function is taken for -/

theorem encoder?_apart {d : Declaration} (line : String) (more : List String)
    (hbody : d.body = line :: more) (hline : line ≠ "const w = new Writer();") :
    d.encoder? = none := by
  rw [Declaration.encoder?, hbody]
  exact if_neg fun h => hline h.1

theorem encoder?_foreign {d : Declaration} (line next : String) (more : List String)
    (hbody : d.body = line :: next :: more)
    (hstatement : (Scan.statement d.parameters).whole next = none)
    (habsence : (Scan.absence d.parameters).whole next = none) (hmore : more ≠ []) :
    d.encoder? = none := by
  have hcommands : commands? d.parameters (next :: more).dropLast = none := by
    rw [List.dropLast_cons_of_ne_nil hmore, commands?, hstatement, habsence]
  rw [Declaration.encoder?, hbody]
  simp only [hcommands]
  split <;> rfl

/-- A body of several lines that begins neither as an encoder nor as a reader. -/
theorem function_apart {d : Declaration} (line next : String) (more : List String)
    (hbody : d.body = line :: next :: more) (hencoder : d.encoder? = none)
    (hline : line ≠ "const msg = \x7b\x7d;") : d.function = d.shared?.getD .other := by
  have hreader : d.reader? = none := by
    rw [Declaration.reader?, hbody]
    exact if_neg fun h => hline h.1
  have hdecoder : d.decoder? = none := by rw [Declaration.decoder?, hbody]
  rw [Declaration.function, hencoder, hreader, hdecoder]
  rfl

namespace Shared

theorem declaration_injective : Function.Injective declaration := by
  intro f g h
  have hname := congrArg Declaration.name h
  cases f <;> cases g <;> first | rfl | simp [declaration, Part.declaration] at hname

theorem shared?_declaration (f : Shared) : f.declaration.shared? = some (.shared f) := by
  have hsame : (fun g : Shared => declarations g.part.lines == [f.declaration]) = (· == f) := by
    funext g
    rw [declarations_part, Bool.eq_iff_iff, beq_iff_eq, beq_iff_eq, List.cons.injEq]
    simp only [and_true, declaration_injective.eq_iff]
  rw [Declaration.shared?, hsame]
  cases f <;> rfl

theorem function_declaration (f : Shared) : f.declaration.function = .shared f := by
  have happart : f.declaration.function = f.declaration.shared?.getD .other := by
    cases f with
    | checkArray | decodeAs | decodeAt | decode | decodeSystem =>
      exact function_apart _ _ _ rfl (encoder?_apart _ _ rfl (by decide)) (by decide)
    | encodeJoin =>
      -- it begins and ends as an encoder of a message, but the byte that it writes is no number
      have hencoder : encodeJoin.declaration.encoder? = none :=
        encoder?_foreign _ _ _ rfl (by decide) (by decide) (List.cons_ne_nil _ _)
      exact function_apart _ _ _ rfl hencoder (by decide)
  rw [happart, shared?_declaration]
  rfl

end Shared

end Gamewire.Client
