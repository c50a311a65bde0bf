import Gamewire.Proofs.Toml.Number
import Gamewire.Toml.Document
import Gamewire.Toml.Printer

/-! Documents of sections come back as their statements: each value, key, line and header is read up to
its own end, whatever stands behind it. -/
namespace Gamewire.Toml
set_option autoImplicit false

/-! ## Values -/

/-- The value that an atom stands for. -/
def Atom.value : Atom → Value
  | .text s => .text s
  | .integer n => .integer n
  | .boolean b => .boolean b
  | .emptyArray => .array []

/-- Integers have a range. -/
def Atom.Fits : Atom → Prop
  | .integer n => minInteger ≤ n ∧ n ≤ maxInteger
  | _ => True

theorem writeText_head (cs : List Char) :
    ∃ r, writeText cs = '"' :: r ∨ writeText cs = '\'' :: r := by
  rw [writeText]
  cases formOf cs with
  | basic => exact ⟨_, .inl rfl⟩
  | literal => exact ⟨_, .inr rfl⟩
  | basicLines => exact ⟨_, .inl rfl⟩
  | literalLines => exact ⟨_, .inr rfl⟩

theorem readValue_text (fuel depth : Nat) (s : String) (r : List Char) :
    readValue (fuel + 1) depth (writeText s.toList ++ '\n' :: r) = some (.text s, '\n' :: r) := by
  have hread := readText_writeText s.toList ('\n' :: r) (by simp) (by simp)
  obtain ⟨w, hw | hw⟩ := writeText_head s.toList
  · rw [hw, List.cons_append] at hread ⊢
    rw [readValue, hread]
    simp only [String.ofList_toList]
  · rw [hw, List.cons_append] at hread ⊢
    rw [readValue, hread]
    simp only [String.ofList_toList]

theorem readValue_emptyArray (fuel depth : Nat) (r : List Char) :
    readValue (fuel + 2) (depth + 1) ('[' :: ']' :: r) = some (.array [], r) := by
  have hskip : skipLines fuel (']' :: r) = ']' :: r := by
    cases fuel <;> rfl
  rw [readValue, readElements, hskip]
  rfl

theorem readValue_integer {n : Int} (hmin : minInteger ≤ n) (hmax : n ≤ maxInteger)
    (fuel depth : Nat) (r : List Char) :
    readValue (fuel + 1) depth ((toString n).toList ++ '\n' :: r) = some (.integer n, '\n' :: r) := by
  obtain ⟨c, cs, hcs, hc⟩ := toString_head n
  have hread := readNumberOrMoment_toString hmin hmax r
  rw [hcs, List.cons_append] at hread ⊢
  have hne : ∀ d, Text.isDigit d = false → d ≠ '-' → ∀ cs', c :: (cs ++ '\n' :: r) ≠ d :: cs' := by
    rintro d hdigit hminus cs' heq
    obtain rfl := (List.cons.inj heq).1
    obtain hc | hc := hc
    · rw [hdigit] at hc
      cases hc
    · exact hminus hc
  rw [readValue, hread]
  · exact hne '"' rfl (by decide)
  · exact hne '\'' rfl (by decide)
  · exact fun _ => hne 't' rfl (by decide) _
  · exact fun _ => hne 'f' rfl (by decide) _
  · exact hne '[' rfl (by decide)
  · exact hne '\x7b' rfl (by decide)

theorem readWholeValue_write {a : Atom} (h : a.Fits) (r : List Char) :
    readWholeValue (a.write ++ '\n' :: r) = some (a.value, '\n' :: r) := by
  rw [readWholeValue]
  cases a with
  | text s => exact readValue_text _ _ s r
  | integer n => exact readValue_integer h.1 h.2 _ _ r
  | boolean b =>
    cases b with
    | true => rfl
    | false => rfl
  | emptyArray => exact readValue_emptyArray _ _ _

/-! ## Keys -/

/-- A key that needs no quotes. -/
def BareKey (key : String) : Prop :=
  key.toList.isEmpty = false ∧ key.toList.all isBareKeyChar = true

instance : DecidablePred BareKey := fun key =>
  inferInstanceAs (Decidable (key.toList.isEmpty = false ∧ key.toList.all isBareKeyChar = true))

theorem BareKey.chars {key : String} (h : BareKey key) : ∀ c ∈ key.toList, isBareKeyChar c = true :=
  List.all_eq_true.mp h.2

theorem skipSpaces_of_not_isSpace {c : Char} (h : isSpace c = false) (cs : List Char) :
    skipSpaces (c :: cs) = c :: cs :=
  List.dropWhile_cons_of_neg (by simp [h])

theorem isSpace_of_isBareKeyChar {c : Char} (h : isBareKeyChar c = true) : isSpace c = false := by
  rw [isSpace, beq_eq_false_iff_ne.mpr (ne_of_class h rfl),
    beq_eq_false_iff_ne.mpr (ne_of_class h rfl)]
  rfl

theorem BareKey.head {key : String} (h : BareKey key) :
    ∃ c cs, key.toList = c :: cs ∧ isBareKeyChar c = true := by
  obtain ⟨c, cs, hkey⟩ := List.exists_cons_of_ne_nil (List.isEmpty_eq_false_iff.mp h.1)
  exact ⟨c, cs, hkey, h.chars c (hkey ▸ List.mem_cons_self)⟩

/-- A bare key goes on up to the first character that cannot be part of one. -/
theorem readKeyPart_bare {key : String} (h : BareKey key) {c : Char} (hc : isBareKeyChar c = false)
    (r : List Char) : readKeyPart (key.toList ++ c :: r) = some (key, c :: r) := by
  obtain ⟨d, ds, hkey, hd⟩ := h.head
  have htake : (key.toList ++ c :: r).takeWhile isBareKeyChar = key.toList := by
    rw [List.takeWhile_append_of_pos h.chars, List.takeWhile_cons_of_neg (by simp [hc]), List.append_nil]
  have hdrop : (key.toList ++ c :: r).dropWhile isBareKeyChar = c :: r := by
    rw [List.dropWhile_append_of_pos h.chars, List.dropWhile_cons_of_neg (by simp [hc])]
  have hback : String.ofList (d :: ds) = key := by
    rw [← hkey, String.ofList_toList]
  rw [hkey] at htake hdrop ⊢
  rw [List.cons_append] at htake hdrop ⊢
  rw [readKeyPart, htake, hdrop]
  · simp only [hback]
  · rintro r' heq
    exact ne_of_class hd rfl (List.cons.inj heq).1
  · rintro r' heq
    exact ne_of_class hd rfl (List.cons.inj heq).1

/-- The parts of a path with a point behind each. -/
def writePath (path : List String) : List Char := path.flatMap (·.toList ++ ['.'])

theorem BareKey.skipSpaces {key : String} (h : BareKey key) (r : List Char) :
    skipSpaces (key.toList ++ r) = key.toList ++ r := by
  obtain ⟨c, cs, hkey, hc⟩ := h.head
  rw [hkey, List.cons_append, skipSpaces_of_not_isSpace (isSpace_of_isBareKeyChar hc)]

theorem readKey_last {key : String} (h : BareKey key) (limit : Nat) {c d : Char} {r r' : List Char}
    (hc : isBareKeyChar c = false) (hskip : skipSpaces (c :: r) = d :: r') (hd : d ≠ '.') :
    readKey (limit + 1) (key.toList ++ c :: r) = some (([], key), d :: r') := by
  rw [readKey, h.skipSpaces, readKeyPart_bare h hc]
  simp only [hskip]
  split
  · rename_i heq
    exact absurd (List.cons.inj heq).1 hd
  · rfl

theorem readKey_point {k : String} (h : BareKey k) (limit : Nat) (r : List Char) :
    readKey (limit + 1) (k.toList ++ '.' :: r) =
      (readKey limit r).map fun x => ((k :: x.1.1, x.1.2), x.2) := by
  have hskip : Toml.skipSpaces ('.' :: r) = '.' :: r := rfl
  rw [readKey, h.skipSpaces, readKeyPart_bare h rfl]
  simp only [hskip]
  cases readKey limit r <;> rfl

theorem readKey_write {path : List String} {key : String} (hpath : ∀ k ∈ path, BareKey k)
    (hkey : BareKey key) {limit : Nat} (hlimit : path.length < limit) {c d : Char} {r r' : List Char}
    (hc : isBareKeyChar c = false) (hskip : skipSpaces (c :: r) = d :: r') (hd : d ≠ '.') :
    readKey limit (writePath path ++ key.toList ++ c :: r) = some ((path, key), d :: r') := by
  obtain ⟨limit, rfl⟩ : ∃ n, limit = n + 1 := ⟨limit - 1, by omega⟩
  induction path generalizing limit with
  | nil => exact readKey_last hkey limit hc hskip hd
  | cons k path ih =>
    obtain ⟨hk, hpath⟩ := List.forall_mem_cons.mp hpath
    rw [List.length_cons] at hlimit
    obtain ⟨limit, rfl⟩ : ∃ n, limit = n + 1 := ⟨limit - 1, by omega⟩
    have htext : writePath (k :: path) ++ key.toList ++ c :: r =
        k.toList ++ '.' :: (writePath path ++ key.toList ++ c :: r) := by
      simp [writePath]
    rw [htext, readKey_point hk, ih hpath limit (by omega)]
    rfl

/-! ## Statements -/

theorem endLine_break (r : List Char) : endLine ('\n' :: r) = some r := rfl

/-- What follows the end of a statement's line says the other statements. -/
def Says (cs : List Char) (ss : List Statement) : Prop :=
  ∀ fuel, cs.length < fuel → readStatements fuel cs = some ss

theorem says_nil : Says [] [] := by
  intro fuel hfuel
  obtain ⟨fuel, rfl⟩ : ∃ n, fuel = n + 1 := ⟨fuel - 1, by omega⟩
  rfl

theorem says_break {r : List Char} {ss : List Statement} (h : Says r ss) : Says ('\n' :: r) ss := by
  intro fuel hfuel
  rw [List.length_cons] at hfuel
  obtain ⟨fuel, rfl⟩ : ∃ n, fuel = n + 1 := ⟨fuel - 1, by omega⟩
  exact h fuel (by omega)

/-- A character that a statement may begin with. -/
def Opens (c : Char) : Prop := isBareKeyChar c = true ∨ c = '['

theorem endLine_opens {c : Char} (h : Opens c) (cs : List Char) :
    skipSpaces (c :: cs) = c :: cs ∧ endLine (c :: cs) = none := by
  have hne : ∀ d, isBareKeyChar d = false → d ≠ '[' → c ≠ d := by
    rintro d hkey hbracket rfl
    obtain h | h := h
    · rw [h] at hkey
      cases hkey
    · exact hbracket h
  have hskip : skipSpaces (c :: cs) = c :: cs := by
    apply skipSpaces_of_not_isSpace
    rw [isSpace, beq_eq_false_iff_ne.mpr (hne ' ' rfl (by decide)),
      beq_eq_false_iff_ne.mpr (hne '\t' rfl (by decide))]
    rfl
  refine ⟨hskip, ?_⟩
  rw [endLine, hskip]
  split
  · rename_i heq
    exact absurd (List.cons.inj heq).1 (hne '#' rfl (by decide))
  · rw [if_neg (by simp), lineBreak?_of_ne ⟨hne '\n' rfl (by decide), hne '\r' rfl (by decide)⟩]

theorem says_statement {c : Char} {cs r : List Char} {s : Statement} {ss : List Statement}
    (hc : Opens c) (hread : readStatement (c :: cs) = some (s, '\n' :: r))
    (hless : r.length < cs.length) (h : Says r ss) : Says (c :: cs) (s :: ss) := by
  intro fuel hfuel
  rw [List.length_cons] at hfuel
  obtain ⟨fuel, rfl⟩ : ∃ n, fuel = n + 1 := ⟨fuel - 1, by omega⟩
  obtain ⟨hskip, hend⟩ := endLine_opens hc cs
  rw [readStatements, hskip]
  simp only [hend, hread, endLine_break, h fuel (by omega)]

/-! ## Lines -/

/-- A line that can be read back. -/
structure Line.Readable (l : Line) : Prop where
  key : BareKey l.key
  value : l.value.Fits

/-- What a line says. -/
def Line.assignment (l : Line) : Assignment := ⟨[], l.key, l.value.value⟩

theorem readWholeKey_bare {key : String} (h : BareKey key) (r : List Char) :
    readWholeKey (key.toList ++ ' ' :: '=' :: r) = some (([], key), '=' :: r) :=
  readKey_last h _ rfl rfl (by decide)

theorem Atom.write_head (a : Atom) : ∃ c cs, a.write = c :: cs ∧ isSpace c = false := by
  cases a with
  | text s =>
    obtain ⟨r, hw | hw⟩ := writeText_head s.toList
    · exact ⟨'"', r, hw, rfl⟩
    · exact ⟨'\'', r, hw, rfl⟩
  | integer n =>
    obtain ⟨c, cs, hcs, hc | rfl⟩ := toString_head n
    · refine ⟨c, cs, hcs, ?_⟩
      rw [isSpace, beq_eq_false_iff_ne.mpr (ne_of_class hc rfl),
        beq_eq_false_iff_ne.mpr (ne_of_class hc rfl)]
      rfl
    · exact ⟨'-', cs, hcs, rfl⟩
  | boolean b =>
    cases b with
    | true => exact ⟨'t', _, rfl, rfl⟩
    | false => exact ⟨'f', _, rfl, rfl⟩
  | emptyArray => exact ⟨'[', _, rfl, rfl⟩

theorem readStatement_line {l : Line} (h : l.Readable) (r : List Char) :
    readStatement (l.write ++ r) = some (.assign l.assignment, '\n' :: r) := by
  obtain ⟨c, cs, hkey, hc⟩ := h.key.head
  obtain ⟨d, ds, hvalue, hd⟩ := l.value.write_head
  have htext : l.write ++ r =
      l.key.toList ++ ' ' :: '=' :: ' ' :: (l.value.write ++ '\n' :: r) := by
    simp [Line.write]
  have hskip : skipSpaces (' ' :: (l.value.write ++ '\n' :: r)) = l.value.write ++ '\n' :: r := by
    rw [hvalue, List.cons_append]
    exact skipSpaces_of_not_isSpace hd _
  have hread := readWholeKey_bare h.key (' ' :: (l.value.write ++ '\n' :: r))
  have hother : ∀ r',
      l.key.toList ++ ' ' :: '=' :: ' ' :: (l.value.write ++ '\n' :: r) ≠ '[' :: r' := by
    intro r' heq
    rw [hkey] at heq
    exact ne_of_class hc rfl (List.cons.inj heq).1
  rw [htext, readStatement, hread]
  · simp only [hskip, readWholeValue_write h.value]
    rfl
  · exact fun _ => hother _
  · exact hother

theorem says_line {l : Line} (h : l.Readable) {r : List Char} {ss : List Statement} (hr : Says r ss) :
    Says (l.write ++ r) (.assign l.assignment :: ss) := by
  obtain ⟨c, cs, hkey, hc⟩ := h.key.head
  have hread := readStatement_line h r
  have htext : l.write ++ r = c :: (cs ++ " = ".toList ++ l.value.write ++ '\n' :: r) := by
    simp [Line.write, hkey]
  rw [htext] at hread ⊢
  refine says_statement (.inl hc) hread ?_ hr
  rw [List.length_append, List.length_cons]
  omega

theorem says_lines {ls : List Line} (h : ∀ l ∈ ls, l.Readable) {r : List Char} {ss : List Statement}
    (hr : Says r ss) : Says (ls.flatMap Line.write ++ r) (ls.map (.assign ·.assignment) ++ ss) := by
  induction ls with
  | nil => exact hr
  | cons l ls ih =>
    obtain ⟨hl, hls⟩ := List.forall_mem_cons.mp h
    rw [List.flatMap_cons, List.append_assoc]
    exact says_line hl (ih hls)

/-! ## Sections -/

/-- A section that can be read back: its header has a bare key for each part, and not too many. -/
structure Section.Readable (s : Section) : Prop where
  header : ∀ k ∈ s.header, BareKey k
  shallow : s.header.length < nestingLimit
  lines : ∀ l ∈ s.lines, l.Readable

/-- What a section says. -/
def Section.statements (s : Section) : List Statement :=
  (match s.header.getLast? with
    | some key => [.listHeader s.header.dropLast key]
    | none => []) ++ s.lines.map (.assign ·.assignment)

theorem toList_header (path : List String) (key : String) :
    (".".intercalate (path ++ [key])).toList = writePath path ++ key.toList := by
  rw [String.toList_intercalate]
  induction path with
  | nil => simp [writePath]
  | cons k path ih =>
    rw [List.cons_append, List.map_cons, List.intercalate_cons_of_ne_nil (by simp), ih]
    simp [writePath]

theorem says_header {path : List String} {key : String} (hpath : ∀ k ∈ path, BareKey k)
    (hkey : BareKey key) (hshallow : path.length + 1 < nestingLimit) {r : List Char}
    {ss : List Statement} (hr : Says r ss) :
    Says ("[[".toList ++ (writePath path ++ key.toList) ++ "]]\n".toList ++ r)
      (.listHeader path key :: ss) := by
  have hskip : skipSpaces (']' :: ']' :: '\n' :: r) = ']' :: ']' :: '\n' :: r := rfl
  have hread : readWholeKey (writePath path ++ key.toList ++ ']' :: ']' :: '\n' :: r) =
      some ((path, key), ']' :: ']' :: '\n' :: r) :=
    readKey_write hpath hkey (by omega) rfl hskip (by decide)
  have htext : "[[".toList ++ (writePath path ++ key.toList) ++ "]]\n".toList ++ r =
      '[' :: '[' :: (writePath path ++ key.toList ++ ']' :: ']' :: '\n' :: r) := by
    simp
  have hstatement : readStatement ('[' :: '[' :: (writePath path ++ key.toList ++
      ']' :: ']' :: '\n' :: r)) = some (.listHeader path key, '\n' :: r) := by
    rw [readStatement, hread]
    rfl
  rw [htext]
  refine says_statement (.inr rfl) hstatement ?_ hr
  simp only [List.length_cons, List.length_append]
  omega

theorem says_section {s : Section} (h : s.Readable) {r : List Char} {ss : List Statement}
    (hr : Says r ss) : Says (s.write ++ r) (s.statements ++ ss) := by
  have hlines := says_lines h.lines hr
  rw [Section.write, Section.statements, List.append_assoc, List.append_assoc]
  cases hlast : s.header.getLast? with
  | none =>
    rw [List.getLast?_eq_none_iff] at hlast
    rw [hlast]
    exact hlines
  | some key =>
    obtain ⟨path, hheader⟩ := List.getLast?_eq_some_iff.mp hlast
    have hkeys := h.header
    have hshallow := h.shallow
    rw [hheader, List.length_append, List.length_singleton] at hshallow
    rw [hheader] at hkeys
    rw [hheader, if_neg (by simp), toList_header, List.dropLast_concat]
    refine says_header (fun k hk => hkeys k (List.mem_append_left _ hk)) ?_ hshallow hlines
    exact hkeys key (List.mem_append_right _ (List.mem_singleton_self key))

/-- Sections are read back as what they say, one after the other. -/
theorem says_sections {sections : List Section} (h : ∀ s ∈ sections, s.Readable) :
    Says (writeSections sections) (sections.flatMap Section.statements) := by
  induction sections with
  | nil => exact says_nil
  | cons s rest ih =>
    obtain ⟨hs, hrest⟩ := List.forall_mem_cons.mp h
    cases rest with
    | nil =>
      have hsection := says_section hs says_nil
      rwa [List.append_nil] at hsection
    | cons s' rest => exact says_section hs (says_break (ih hrest))

/-! ## Documents -/

theorem Section.write_head {s : Section} (h : s.Readable) : s.write.head? ≠ some '\ufeff' := by
  rw [Section.write]
  by_cases hheader : s.header = []
  · rw [if_pos (by simp [hheader]), List.nil_append]
    cases hlines : s.lines with
    | nil => simp
    | cons l ls =>
      obtain ⟨c, cs, hkey, hc⟩ := (h.lines l (hlines ▸ List.mem_cons_self)).key.head
      rw [List.flatMap_cons, Line.write, hkey]
      exact fun heq => ne_of_class hc rfl (Option.some.inj heq)
  · rw [if_neg (by simp [hheader])]
    exact fun heq => absurd (Option.some.inj heq) (by decide)

theorem writeSections_head {sections : List Section} (h : ∀ s ∈ sections, s.Readable) :
    (writeSections sections).head? ≠ some '\ufeff' := by
  cases sections with
  | nil => simp [writeSections]
  | cons s rest =>
    have hhead := Section.write_head (h s List.mem_cons_self)
    cases rest with
    | nil => exact hhead
    | cons s' rest =>
      rw [writeSections, List.head?_append]
      · cases hs : s.write.head? with
        | none => simp
        | some c =>
          rw [hs] at hhead
          exact hhead
      · exact List.cons_ne_nil s' rest

theorem skipMark_of_head {cs : List Char} (h : cs.head? ≠ some '\ufeff') : skipMark cs = cs := by
  rw [skipMark.eq_def]
  split
  · exact absurd rfl h
  · rfl

/-- A document of sections describes the table that their statements do. -/
theorem parse?_writeSections {sections : List Section} (h : ∀ s ∈ sections, s.Readable) :
    parse? (String.ofList (writeSections sections)) =
      (tableOfStatements (sections.flatMap Section.statements)).map .table := by
  have hread := says_sections h _ (Nat.lt_succ_self _)
  rw [parse?, String.toList_ofList, skipMark_of_head (writeSections_head h)]
  simp only [hread]
  cases tableOfStatements (sections.flatMap Section.statements) <;> rfl

end Gamewire.Toml
