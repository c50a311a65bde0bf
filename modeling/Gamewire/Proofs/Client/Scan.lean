import Gamewire.Client.Source
import Gamewire.Proofs.Client.Generated
import Gamewire.Proofs.Text.Search
import Gamewire.Proofs.Text.Words

/-! Texts of generated programs are read back. A text is made of fixed words, names and numbers, and each of
these is read up to the fixed word behind it. -/
namespace Gamewire.Client
set_option autoImplicit false

open Text

/-! ## Pieces of a text -/

/-- A text begins with a character that does not pass a test. -/
def Halts (test : Char → Bool) (text : String) : Prop := ∃ c ∈ text.toList.head?, test c = false

instance (test : Char → Bool) (text : String) : Decidable (Halts test text) :=
  Option.decidableExistsMem (p := fun c => test c = false) text.toList.head?

/-- What is read as long as characters pass a test ends in front of a text at which they do not. -/
theorem takeWhile_run {test : Char → Bool} {inside : List Char} {stop : String}
    (hinside : ∀ c ∈ inside, test c = true) (hstop : Halts test stop) (rest : List Char) :
    (inside ++ (stop.toList ++ rest)).takeWhile test = inside ∧
      (inside ++ (stop.toList ++ rest)).dropWhile test = stop.toList ++ rest := by
  obtain ⟨c, hc, hfails⟩ := hstop
  obtain ⟨cs, hcs⟩ := List.head?_eq_some_iff.mp hc
  have hnot := Bool.eq_false_iff.mp hfails
  rw [hcs, List.cons_append, List.takeWhile_append_of_pos hinside, List.dropWhile_append_of_pos hinside,
    List.takeWhile_cons_of_neg hnot, List.dropWhile_cons_of_neg hnot, List.append_nil]
  exact ⟨rfl, rfl⟩

namespace Scan

variable {α β : Type}

theorem bind_run (scan : Scan α) (next : α → Scan β) (cs : List Char) :
    (scan >>= next) cs =
      match scan cs with
      | some x => next x.1 x.2
      | none => none := by
  show (scan cs).bind _ = _
  cases scan cs <;> rfl

theorem pure_run (a : α) (cs : List Char) : (pure a : Scan α) cs = some (a, cs) := rfl

theorem ite_run (c : Prop) [Decidable c] (yes no : Scan α) (cs : List Char) :
    (if c then yes else no) cs = if c then yes cs else no cs := by split <;> rfl

theorem literal_run (text : String) (rest : List Char) :
    literal text (text.toList ++ rest) = some ((), rest) := by
  unfold literal
  rw [if_pos (List.isPrefixOf_iff_prefix.mpr (List.prefix_append _ _)), List.drop_left]

theorem has_run (text : String) (rest : List Char) :
    has text (text.toList ++ rest) = some (true, rest) := by
  unfold has
  rw [if_pos (List.isPrefixOf_iff_prefix.mpr (List.prefix_append _ _)), List.drop_left]

/-- Two fixed words that differ are told apart. -/
theorem has_apart {text word : String} (h : ¬ Meets text.toList word.toList) (rest : List Char) :
    has text (word.toList ++ rest) = some (false, word.toList ++ rest) := by
  unfold has
  rw [if_neg]
  exact fun hprefix => h (Meets.of_append (.inl (List.isPrefixOf_iff_prefix.mp hprefix)))

theorem literal_apart {text word : String} (h : ¬ Meets text.toList word.toList) (rest : List Char) :
    literal text (word.toList ++ rest) = none := by
  unfold literal
  rw [if_neg]
  exact fun hprefix => h (Meets.of_append (.inl (List.isPrefixOf_iff_prefix.mp hprefix)))

theorem name_run {word : String} (hword : isIdentifier word = true) {stop : String}
    (hstop : Halts isNameChar stop) (rest : List Char) :
    name (word.toList ++ (stop.toList ++ rest)) = some (word, stop.toList ++ rest) := by
  obtain ⟨htake, hdrop⟩ := takeWhile_run (isNameChar_of_isIdentifier hword) hstop rest
  unfold name
  rw [htake, hdrop, String.ofList_toList]
  exact if_pos hword

theorem number_run (n : Nat) {stop : String} (hstop : Halts isDigit stop) (rest : List Char) :
    number (n.repr.toList ++ (stop.toList ++ rest)) = some (n, stop.toList ++ rest) := by
  have hdigits := numeral?_toDigits n
  obtain ⟨-, hall, -⟩ := numeral?_iff.mp hdigits
  obtain ⟨htake, hdrop⟩ := takeWhile_run hall hstop rest
  unfold number
  rw [Nat.toList_repr, htake, hdrop, hdigits]
  rfl

/-- No digit is a sign. -/
theorem has_minus_run (n : Nat) (rest : List Char) :
    has "-" (n.repr.toList ++ rest) = some (false, n.repr.toList ++ rest) := by
  obtain ⟨c, cs, heq⟩ := List.exists_cons_of_ne_nil (Nat.toDigits_ne_nil (b := 10) (n := n))
  have hdigit : c.isDigit = true := isDigit_of_mem_decimal (heq ▸ List.mem_cons_self)
  rw [Nat.toList_repr, heq]
  unfold has
  rw [if_neg]
  intro hprefix
  have hminus : ['-'] <+: c :: (cs ++ rest) := List.isPrefixOf_iff_prefix.mp hprefix
  obtain rfl := (List.cons_prefix_cons.mp hminus).1
  cases hdigit

theorem integer_run (n : Int) {stop : String} (hstop : Halts isDigit stop) (rest : List Char) :
    integer (n.repr.toList ++ (stop.toList ++ rest)) = some (n, stop.toList ++ rest) := by
  cases n with
  | ofNat n =>
    have hnat : (Int.ofNat n).repr = n.repr := rfl
    simp only [integer, bind_run, ite_run, hnat, has_minus_run, Bool.false_eq_true, if_false,
      number_run n hstop]
    rfl
  | negSucc n =>
    have hneg : (Int.negSucc n).repr = "-" ++ (n + 1).repr := rfl
    simp only [integer, bind_run, ite_run, hneg, String.toList_append, List.append_assoc, has_run,
      if_true, number_run (n + 1) hstop]
    rfl

theorem quoted_run {text : String} (h : '"' ∉ text.toList) (rest : List Char) :
    quoted ("\"".toList ++ (text.toList ++ ("\"".toList ++ rest))) = some (text, rest) := by
  have hinside : ∀ c ∈ text.toList, (c != '"') = true := fun c hc =>
    bne_iff_ne.mpr (ne_of_mem_of_not_mem hc h)
  have hstop : Halts (· != '"') "\"" := by decide
  obtain ⟨htake, hdrop⟩ := takeWhile_run hinside hstop rest
  simp only [quoted, bind_run, pure_run, literal_run, htake, hdrop, String.ofList_toList]

/-- What a whole text is read as, if it is so whatever stands behind the text. -/
theorem whole_of_run {text : String} {a : α} {scan : Scan α}
    (h : ∀ rest, scan (text.toList ++ rest) = some (a, rest)) : scan.whole text = some a := by
  have hend := h []
  rw [List.append_nil] at hend
  rw [whole, hend]

end Scan

theorem quote_comma : ", \"".toList = ", ".toList ++ "\"".toList := rfl

theorem quote_close : "\");".toList = "\"".toList ++ ");".toList := rfl

/-! ## Statements of encoders -/

/-- The call that writes a scalar. -/
def ScalarWrite.push (value : Place) (path : String) : ScalarWrite → Push
  | .int size min max => .int value size min max path
  | .float => .float value
  | .bool => .bool value

def FieldWrite.statements (field path : String) : FieldWrite → List Statement
  | .scalar write => [.push (write.push ⟨field, false⟩ path)]
  | .text max => [.push (.text ⟨field, false⟩ max path)]
  | .array length write =>
    [.check ⟨field, false⟩ length path, .each length (write.push ⟨field, true⟩ path)]

variable {field path value text : String} {place : Place} {inLoop : Bool}

/-- The text of a value is read as a place, up to a word that no name goes on with. -/
def Spells (inLoop : Bool) (value : String) (place : Place) : Prop :=
  ∀ (stop : String) (rest : List Char), Halts isNameChar stop →
    Scan.place "msg" inLoop (value.toList ++ (stop.toList ++ rest)) = some (place, stop.toList ++ rest)

theorem msg_dot : "msg.".toList = "msg".toList ++ ".".toList := rfl

theorem spells_field (hfield : isIdentifier field = true) :
    Spells false ("msg." ++ field) ⟨field, false⟩ := by
  intro stop rest hstop
  simp only [String.toList_append, List.append_assoc, msg_dot, Scan.place, Scan.bind_run,
    Scan.literal_run, Scan.name_run hfield hstop, Bool.false_eq_true, if_false]
  rfl

theorem spells_element (hfield : isIdentifier field = true) :
    Spells true ("msg." ++ field ++ "[i]") ⟨field, true⟩ := by
  intro stop rest hstop
  have hbracket : Halts isNameChar "[i]" := by decide
  simp only [String.toList_append, List.append_assoc, msg_dot, Scan.place, Scan.bind_run,
    Scan.literal_run, Scan.name_run hfield hbracket, if_true, Scan.has_run,
    Scan.pure_run]

theorem push_run (hvalue : Spells inLoop value place) (hpath : '"' ∉ path.toList)
    (write : ScalarWrite) (rest : List Char) :
    Scan.push "msg" inLoop ((write.text value path).toList ++ rest) =
      some (write.push place path, rest) := by
  cases write with
  | int size min max =>
    simp (disch := first | assumption | decide) only [ScalarWrite.text, toString,
      String.toList_append, List.append_assoc, quote_comma, quote_close, Scan.push, Scan.bind_run,
      Scan.ite_run, Scan.has_apart, Scan.has_run, Scan.literal_run, hvalue _ _, Scan.number_run,
      Scan.integer_run, Scan.quoted_run, Scan.pure_run, Bool.false_eq_true, if_false, if_true,
      ScalarWrite.push]
  | float | bool =>
    simp (disch := decide) only [ScalarWrite.text, toString, String.toList_append,
      List.append_assoc, Scan.push, Scan.bind_run, Scan.ite_run, Scan.has_apart, Scan.has_run,
      Scan.literal_run, hvalue _ _, Scan.pure_run, Bool.false_eq_true, if_false, if_true,
      ScalarWrite.push]

theorem ScalarWrite.text_opens (value path : String) (write : ScalarWrite) :
    ∃ more, (write.text value path).toList = "w.".toList ++ more := by
  cases write with
  | int size min max =>
    simp only [text, String.toList_append, List.append_assoc]
    exact ⟨_, rfl⟩
  | float | bool =>
    simp only [text, String.toList_append, List.append_assoc]
    exact ⟨_, rfl⟩

/-- A call of the writer is neither a check nor a loop. -/
theorem statement_of_push {object : String} {p : Push}
    (hopens : ∃ more, text.toList = "w.".toList ++ more)
    (hpush : ∀ rest, Scan.push object false (text.toList ++ rest) = some (p, rest)) :
    (Scan.statement object).whole text = some (.push p) := by
  refine Scan.whole_of_run fun rest => ?_
  have hread := hpush rest
  obtain ⟨more, hmore⟩ := hopens
  rw [hmore, List.append_assoc] at hread ⊢
  simp (disch := decide) only [Scan.statement, Scan.bind_run, Scan.ite_run, Scan.has_apart, hread,
    Scan.pure_run, Bool.false_eq_true, if_false]

theorem statement_byte (object : String) (n : Nat) :
    (Scan.statement object).whole s!"w.u8({n});" = some (.push (.byte n)) := by
  refine statement_of_push ?_ fun rest => ?_
  · simp only [String.toList_append, List.append_assoc]
    exact ⟨_, rfl⟩
  · simp (disch := decide) only [toString, String.toList_append, List.append_assoc, Scan.push,
      Scan.bind_run, Scan.ite_run, Scan.has_run, Scan.literal_run, Scan.number_run, Scan.pure_run,
      if_true]

theorem FieldWrite.whole_lines (hfield : isIdentifier field = true) (hpath : '"' ∉ path.toList)
    (write : FieldWrite) : (write.lines ("msg." ++ field) path).mapM (Scan.statement "msg").whole =
      some (write.statements field path) := by
  have hvalue := spells_field hfield
  cases write with
  | scalar write =>
    have hline := statement_of_push (write.text_opens _ path) (push_run hvalue hpath write)
    simp only [lines, List.mapM_cons, List.mapM_nil, hline, statements]
    rfl
  | text max =>
    generalize "msg." ++ field = value at hvalue
    have hline : (Scan.statement "msg").whole (s!"w.str({value}, {max}, \"" ++ path ++ "\");") =
        some (.push (.text ⟨field, false⟩ max path)) := by
      refine statement_of_push ?_ fun rest => ?_
      · simp only [String.toList_append, List.append_assoc]
        exact ⟨_, rfl⟩
      · simp (disch := first | assumption | decide) only [toString, String.toList_append,
          List.append_assoc, quote_comma, quote_close, Scan.push, Scan.bind_run, Scan.ite_run,
          Scan.has_apart, Scan.literal_run, hvalue _ _, Scan.number_run, Scan.quoted_run,
          Scan.pure_run, Bool.false_eq_true, if_false]
    simp only [lines, List.mapM_cons, List.mapM_nil, hline, statements]
    rfl
  | array length write =>
    have hloop := push_run (spells_element hfield) hpath write
    generalize "msg." ++ field = value at hvalue hloop
    have hcheck : (Scan.statement "msg").whole
        (s!"checkArray({value}, {length}, \"" ++ path ++ "\");") =
          some (.check ⟨field, false⟩ length path) := by
      refine Scan.whole_of_run fun rest => ?_
      simp (disch := first | assumption | decide) only [toString, String.toList_append,
        List.append_assoc, quote_comma, quote_close, Scan.statement, Scan.bind_run, Scan.ite_run,
        Scan.has_run, Scan.literal_run, hvalue _ _, Scan.number_run, Scan.quoted_run,
        Scan.pure_run, if_true]
    have heach : (Scan.statement "msg").whole
        (s!"for (let i = 0; i < {length}; i++) " ++ write.text (value ++ "[i]") path) =
          some (.each length (write.push ⟨field, true⟩ path)) := by
      refine Scan.whole_of_run fun rest => ?_
      simp (disch := decide) only [toString, String.toList_append, List.append_assoc,
        Scan.statement, Scan.bind_run, Scan.ite_run, Scan.has_apart, Scan.has_run,
        Scan.literal_run, Scan.number_run, hloop, Scan.pure_run, Bool.false_eq_true, if_false,
        if_true]
    simp only [lines, List.mapM_cons, List.mapM_nil, hcheck, heach, statements]
    rfl

/-! ## Blocks -/

theorem isInner_indent (line : String) :
    isInner (if line.isEmpty then line else "  " ++ line) = true := by
  unfold isInner
  split
  · rename_i hempty
    rw [hempty, Bool.true_or]
  · rw [String.toList_append, List.isPrefixOf_iff_prefix.mpr (List.prefix_append _ _), Bool.or_true]

theorem outdent_indent (line : String) :
    outdent (if line.isEmpty then line else "  " ++ line) = line := by
  unfold outdent
  split
  · rename_i hempty
    rw [String.isEmpty_iff.mp hempty]
    rfl
  · rw [String.toList_append]
    exact String.ofList_toList

theorem map_outdent_indented (lines : List String) : (indented lines).map outdent = lines := by
  rw [indented, List.map_map]
  exact (List.map_congr_left fun line _ => outdent_indent line).trans (List.map_id lines)

theorem isInner_of_mem_indented {lines : List String} : ∀ line ∈ indented lines, isInner line = true :=
  List.forall_mem_map.mpr fun line _ => isInner_indent line

/-- The lines inside a block end in front of the first one that stands to the left. -/
theorem inside_append {inner : List String} (hinner : ∀ line ∈ inner, isInner line = true)
    {last : String} (hlast : isInner last = false) (rest : List String) :
    inside (inner ++ last :: rest) = inner.map outdent ∧
      behind (inner ++ last :: rest) = last :: rest := by
  have hnot := Bool.eq_false_iff.mp hlast
  unfold inside behind
  rw [List.takeWhile_append_of_pos hinner, List.dropWhile_append_of_pos hinner,
    List.takeWhile_cons_of_neg hnot, List.dropWhile_cons_of_neg hnot, List.append_nil]
  exact ⟨rfl, rfl⟩

/-- A block is read back with the lines behind it. -/
theorem inside_indented (lines : List String) {last : String} (hlast : isInner last = false)
    (rest : List String) : inside (indented lines ++ last :: rest) = lines ∧
      behind (indented lines ++ last :: rest) = last :: rest := by
  obtain ⟨hinside, hbehind⟩ := inside_append isInner_of_mem_indented hlast rest
  exact ⟨hinside.trans (map_outdent_indented lines), hbehind⟩

/-! ## Bodies of encoders -/

def EncoderStep.commands (message : String) (s : EncoderStep) : List Command :=
  let statements := s.write.statements s.field (message ++ "." ++ s.field)
  if s.optional then [.ifAbsent s.field [.push (.byte 0)] (.push (.byte 1) :: statements)]
  else statements.map .plain

theorem absence_whole {value : String} (hvalue : Spells false value ⟨field, false⟩) :
    (Scan.absence "msg").whole s!"if ({value} === undefined || {value} === null) \x7b" =
      some field := by
  refine Scan.whole_of_run fun rest => ?_
  simp (disch := decide) only [toString, String.toList_append, List.append_assoc, Scan.absence,
    Scan.bind_run, Scan.literal_run, hvalue _ _, Scan.pure_run, if_true]

/-- A test is no statement. -/
theorem statement_absence (value : String) :
    (Scan.statement "msg").whole s!"if ({value} === undefined || {value} === null) \x7b" = none := by
  have hpush : ∀ rest, Scan.push "msg" false ("if (".toList ++ rest) = none := by
    intro rest
    simp (disch := decide) only [Scan.push, Scan.bind_run, Scan.ite_run, Scan.has_apart,
      Scan.literal_apart, Bool.false_eq_true, if_false]
  have hstatement : ∀ rest, Scan.statement "msg" ("if (".toList ++ rest) = none := by
    intro rest
    simp (disch := decide) only [Scan.statement, Scan.bind_run, Scan.ite_run, Scan.has_apart,
      hpush, Bool.false_eq_true, if_false]
  unfold Scan.whole
  simp only [toString, String.toList_append, List.append_assoc, hstatement]

theorem commands?_statements {lines : List String} {statements : List Statement}
    (h : lines.mapM (Scan.statement "msg").whole = some statements) (rest : List String) :
    commands? "msg" (lines ++ rest) = (commands? "msg" rest).map (statements.map .plain ++ ·) := by
  induction lines generalizing statements with
  | nil =>
    cases h
    simp
  | cons line lines ih =>
    simp only [List.mapM_cons, Option.bind_eq_bind, Option.bind_eq_some_iff, Option.pure_def,
      Option.some.injEq] at h
    obtain ⟨s, hs, more, hmore, rfl⟩ := h
    rw [List.cons_append, commands?, hs]
    simp only
    rw [ih hmore, Option.map_map]
    rfl

theorem branches?_indented (absent present rest : List String) :
    branches? (indented absent ++ "\x7d else \x7b" :: (indented present ++ "\x7d" :: rest)) =
      some (absent, present, rest) := by
  have helse : isInner "\x7d else \x7b" = false := by decide
  have hclose : isInner "\x7d" = false := by decide
  obtain ⟨hin, hbehind⟩ := inside_indented absent helse (indented present ++ "\x7d" :: rest)
  obtain ⟨hin', hbehind'⟩ := inside_indented present hclose rest
  simp only [branches?, hbehind, hbehind', hin, hin']

/-- A test with its two blocks is read back. -/
theorem commands?_ifAbsent {value : String} (hvalue : Spells false value ⟨field, false⟩)
    {lines lines' : List String} {absent present : List Statement}
    (habsent : lines.mapM (Scan.statement "msg").whole = some absent)
    (hpresent : lines'.mapM (Scan.statement "msg").whole = some present) (rest : List String) :
    commands? "msg" (s!"if ({value} === undefined || {value} === null) \x7b" ::
        (indented lines ++ "\x7d else \x7b" :: (indented lines' ++ "\x7d" :: rest))) =
      (commands? "msg" rest).map (.ifAbsent field absent present :: ·) := by
  rw [commands?, statement_absence, absence_whole hvalue]
  simp only
  split
  · rename_i heq
    rw [branches?_indented] at heq
    cases heq
    rw [habsent, hpresent]
    rfl
  · rename_i heq
    rw [branches?_indented] at heq
    cases heq

theorem EncoderStep.commands?_lines {message : String} {s : EncoderStep}
    (hfield : isIdentifier s.field = true) (hpath : '"' ∉ (message ++ "." ++ s.field).toList)
    (rest : List String) : commands? "msg" (s.lines message ++ rest) =
      (commands? "msg" rest).map (s.commands message ++ ·) := by
  have hwrite := s.write.whole_lines hfield hpath
  unfold lines commands
  by_cases hopt : s.optional = true
  · have habsent : ["w.u8(0);"].mapM (Scan.statement "msg").whole = some [.push (.byte 0)] := by
      rw [List.mapM_cons, show "w.u8(0);" = s!"w.u8({0});" from rfl, statement_byte]
      rfl
    have hpresent : ("w.u8(1);" :: s.write.lines ("msg." ++ s.field) (message ++ "." ++ s.field)).mapM
        (Scan.statement "msg").whole = some (.push (.byte 1) ::
          s.write.statements s.field (message ++ "." ++ s.field)) := by
      rw [List.mapM_cons, show "w.u8(1);" = s!"w.u8({1});" from rfl, statement_byte, hwrite]
      rfl
    simp only [hopt, if_true, block, List.cons_append, List.append_assoc, List.nil_append]
    exact commands?_ifAbsent (spells_field hfield) habsent hpresent rest
  · simp only [hopt]
    exact commands?_statements hwrite rest

/-! ## Statements of readers -/

/-- Every method is spelled as the reader of a scalar writes it. -/
theorem spelled_methods : ∀ x ∈ Scan.scalarRead.methods, isIdentifier x.1 = true ∧
    Scan.scalarRead.methods.lookup x.1 = some x.2 ∧
      x.2.text.toList = "r".toList ++ (".".toList ++ (x.1.toList ++ "()".toList)) := by
  decide

theorem exists_method (read : ScalarRead) : ∃ x ∈ Scan.scalarRead.methods, x.2 = read := by
  cases read <;> decide

theorem scalarRead_run (read : ScalarRead) (rest : List Char) :
    Scan.scalarRead "r" (read.text.toList ++ rest) = some (read, rest) := by
  obtain ⟨⟨method, _⟩, hmem, rfl⟩ := exists_method read
  obtain ⟨hname, hlookup, htext⟩ := spelled_methods _ hmem
  have hstop : Halts isNameChar "()" := by decide
  simp only at hname hlookup htext
  simp only [htext, List.append_assoc, Scan.scalarRead, Scan.bind_run, Scan.literal_run,
    Scan.name_run hname hstop, hlookup, Option.map_some]

/-- The methods for scalars are neither of the other two, and none asks whether a value is there. -/
theorem text_apart (read : ScalarRead) : ¬ Meets "r.str(".toList read.text.toList ∧
    ¬ Meets "r.array(".toList read.text.toList ∧
      ¬ Meets "r.present() ? ".toList read.text.toList := by
  cases read <;> decide

theorem str_call : "r" ++ ".str(" = "r.str(" := rfl

theorem array_call : "r" ++ ".array(" = "r.array(" := rfl

theorem present_call : "r" ++ ".present() ? " = "r.present() ? " := rfl

theorem fieldRead_run (read : FieldRead) (rest : List Char) :
    Scan.fieldRead "r" (read.expression.toList ++ rest) = some (read, rest) := by
  cases read with
  | scalar read =>
    obtain ⟨hstr, harray, -⟩ := text_apart read
    simp only [FieldRead.expression, Scan.fieldRead, str_call, array_call, Scan.bind_run,
      Scan.ite_run, Scan.has_apart hstr, Scan.has_apart harray, scalarRead_run,
      Bool.false_eq_true, if_false, Scan.pure_run]
  | text max =>
    simp (disch := decide) only [FieldRead.expression, toString, String.toList_append,
      List.append_assoc, Scan.fieldRead, str_call, Scan.bind_run, Scan.ite_run, Scan.has_run,
      Scan.number_run, Scan.literal_run, if_true, Scan.pure_run]
  | array length read =>
    simp (disch := decide) only [FieldRead.expression, toString, String.toList_append,
      List.append_assoc, Scan.fieldRead, str_call, array_call, Scan.bind_run, Scan.ite_run,
      Scan.has_run, Scan.has_apart, Scan.number_run, Scan.literal_run, scalarRead_run,
      Bool.false_eq_true, if_false, if_true, Scan.pure_run]

theorem has_present_expression (read : FieldRead) (rest : List Char) :
    Scan.has "r.present() ? " (read.expression.toList ++ rest) =
      some (false, read.expression.toList ++ rest) := by
  cases read with
  | scalar read => exact Scan.has_apart (text_apart read).2.2 rest
  | text max =>
    simp (disch := decide) only [FieldRead.expression, String.toList_append, List.append_assoc,
      Scan.has_apart]
  | array length read =>
    simp (disch := decide) only [FieldRead.expression, String.toList_append, List.append_assoc,
      Scan.has_apart]

theorem readerStep_whole {s : ReaderStep} (hfield : isIdentifier s.field = true) :
    (Scan.readerStep "r").whole s.line = some s := by
  have hstop : Halts isNameChar " = " := by decide
  have hnull : " : null;".toList = " : null".toList ++ ";".toList := rfl
  obtain ⟨field, optional, read⟩ := s
  refine Scan.whole_of_run fun rest => ?_
  cases optional with
  | true =>
    have hlast : Scan.literal " : null;" (" : null".toList ++ (";".toList ++ rest)) = some ((), rest) := by
      rw [← List.append_assoc, ← hnull, Scan.literal_run]
    simp only [ReaderStep.line, if_true, String.toList_append, List.append_assoc, Scan.readerStep,
      present_call, Scan.bind_run, Scan.literal_run, Scan.name_run hfield hstop, Scan.has_run,
      fieldRead_run, hlast, Scan.pure_run]
  | false =>
    simp only [ReaderStep.line, Bool.false_eq_true, if_false, String.toList_append,
      List.append_assoc, Scan.readerStep, present_call, Scan.bind_run, Scan.literal_run,
      Scan.name_run hfield hstop, has_present_expression, fieldRead_run, Scan.pure_run]

end Gamewire.Client
