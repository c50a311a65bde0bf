import Gamewire.Toml.Quoted
import Mathlib.Data.List.Basic

/-! Texts come back from each of their written forms. A character is written as itself or escaped, and
either is read as one character; on several lines, the quotes of the content are told from the closing
ones because no three of them are written in a row. -/
namespace Gamewire.Toml
set_option autoImplicit false

/-! ## Characters -/

theorem char_le_iff {c d : Char} : c ≤ d ↔ c.toNat ≤ d.toNat := Iff.rfl

theorem isPlain_of_not_isControl {c : Char} (h : isControl c = false) (hline : c ≠ '\n') :
    isPlain c = true := by
  have hcode : c.toNat ≠ 10 := fun h => hline (Char.toNat_inj.mp h)
  by_cases htab : c = '\t'
  · subst htab
    rfl
  · rw [isControl, bne_iff_ne.mpr htab, bne_iff_ne.mpr hline] at h
    simp only [Bool.and_true, Bool.or_eq_false_iff, decide_eq_false_iff_not, beq_eq_false_iff_ne] at h
    simp only [isPlain, Bool.or_eq_true, Bool.and_eq_true, decide_eq_true_eq, char_le_iff]
    have hspace : ' '.toNat = 32 := rfl
    have htilde : '~'.toNat = 126 := rfl
    omega

theorem isBasicChar_iff {c : Char} :
    isBasicChar c = true ↔ isPlain c = true ∧ c ≠ '"' ∧ c ≠ '\\' := by
  simp [isBasicChar, and_assoc]

theorem isLiteralChar_iff {c : Char} : isLiteralChar c = true ↔ isPlain c = true ∧ c ≠ '\'' := by
  simp [isLiteralChar]

theorem ne_of_class {p : Char → Bool} {c d : Char} (hc : p c = true) (hd : p d = false) : c ≠ d := by
  rintro rfl
  rw [hc] at hd
  cases hd

theorem ne_of_isPlain {c : Char} (h : isPlain c = true) : c ≠ '\n' ∧ c ≠ '\r' :=
  ⟨ne_of_class h rfl, ne_of_class h rfl⟩

theorem lineBreak?_of_ne {c : Char} {cs : List Char} (h : c ≠ '\n' ∧ c ≠ '\r') :
    lineBreak? (c :: cs) = none := by
  simp [lineBreak?, h.1, h.2]

/-- What stands after the backslash of a short escape is neither a mark of a longer one nor blank. -/
theorem shortEscape?_letter {e c : Char} (h : shortEscape? e = some c) :
    e ≠ 'u' ∧ e ≠ 'U' ∧ isSpace e = false ∧ e ≠ '\n' ∧ e ≠ '\r' := by
  have hletter : ∀ d, shortEscape? d = none → e ≠ d := by
    rintro d hd rfl
    rw [hd] at h
    cases h
  refine ⟨hletter 'u' rfl, hletter 'U' rfl, ?_, hletter '\n' rfl, hletter '\r' rfl⟩
  rw [isSpace, beq_eq_false_iff_ne.mpr (hletter ' ' rfl), beq_eq_false_iff_ne.mpr (hletter '\t' rfl)]
  rfl

theorem codeEscape?_ascii : ∀ n < 128,
    (Text.zeroPad 4 ((Text.hexDigits n).map Char.toUpper)).length = 4 ∧
      codeEscape? (Text.zeroPad 4 ((Text.hexDigits n).map Char.toUpper)) = some (Char.ofNat n) := by
  decide

/-- How a character may be written between double quotes. -/
inductive Written (c : Char) : List Char → Prop
  | plain (basic : isBasicChar c = true) : Written c [c]
  | short {e : Char} (escape : shortEscape? e = some c) : Written c ['\\', e]
  | code {d₁ d₂ d₃ d₄ : Char} (escape : codeEscape? [d₁, d₂, d₃, d₄] = some c) :
      Written c ['\\', 'u', d₁, d₂, d₃, d₄]

theorem written_code {c : Char} (h : isControl c = true) :
    Written c ('\\' :: 'u' :: Text.zeroPad 4 ((Text.hexDigits c.toNat).map Char.toUpper)) := by
  have hcode : c.toNat < 128 := by
    simp only [isControl, Bool.or_eq_true, Bool.and_eq_true, decide_eq_true_eq, beq_iff_eq] at h
    omega
  obtain ⟨hlength, hescape⟩ := codeEscape?_ascii c.toNat hcode
  rw [Char.ofNat_toNat] at hescape
  obtain ⟨d₁, d₂, d₃, d₄, hdigits⟩ := List.length_eq_four.mp hlength
  rw [hdigits] at hescape ⊢
  exact .code hescape

theorem writeBasicChar_written (c : Char) : Written c (writeBasicChar c) := by
  unfold writeBasicChar
  split_ifs with hb ht hn hf hr hquote hslash hcontrol
  · subst hb
    exact .short rfl
  · subst ht
    exact .short rfl
  · subst hn
    exact .short rfl
  · subst hf
    exact .short rfl
  · subst hr
    exact .short rfl
  · subst hquote
    exact .short rfl
  · subst hslash
    exact .short rfl
  · exact written_code hcontrol
  · refine .plain (isBasicChar_iff.mpr ⟨?_, hquote, hslash⟩)
    exact isPlain_of_not_isControl (Bool.eq_false_iff.mpr hcontrol) hn

theorem Written.head {c : Char} {w : List Char} (h : Written c w) :
    ∃ d t, w = d :: t ∧ isPlain d = true ∧ d ≠ '"' := by
  cases h with
  | plain basic =>
    obtain ⟨hplain, hquote, -⟩ := isBasicChar_iff.mp basic
    exact ⟨c, [], rfl, hplain, hquote⟩
  | @short e => exact ⟨'\\', [e], rfl, rfl, by decide⟩
  | @code d₁ d₂ d₃ d₄ => exact ⟨'\\', ['u', d₁, d₂, d₃, d₄], rfl, rfl, by decide⟩

/-! ## On one line -/

theorem readBasic_written {c : Char} {w : List Char} (h : Written c w) (r : List Char) :
    readBasic (w ++ r) = consRead c (readBasic r) := by
  cases h with
  | plain basic =>
    obtain ⟨-, hquote, hslash⟩ := isBasicChar_iff.mp basic
    rw [List.singleton_append, readBasic.eq_def]
    simp only [hquote, hslash, basic, if_false, if_true]
  | short escape =>
    obtain ⟨hu, hU, -⟩ := shortEscape?_letter escape
    rw [List.cons_append, List.singleton_append, readBasic.eq_def]
    simp only [Char.reduceEq, hu, hU, escape, if_false, if_true]
  | code escape =>
    rw [readBasic.eq_def]
    simp only [List.cons_append, List.nil_append, Char.reduceEq, escape, if_false, if_true]

theorem readBasic_write (cs rest : List Char) :
    readBasic (cs.flatMap writeBasicChar ++ '"' :: rest) = some (cs, rest) := by
  induction cs with
  | nil =>
    rw [List.flatMap_nil, List.nil_append, readBasic.eq_def]
    rfl
  | cons c cs ih =>
    rw [List.flatMap_cons, List.append_assoc, readBasic_written (writeBasicChar_written c), ih]
    rfl

theorem readLiteral_write {cs : List Char} (h : ∀ c ∈ cs, isLiteralChar c = true)
    (rest : List Char) : readLiteral (cs ++ '\'' :: rest) = some (cs, rest) := by
  induction cs with
  | nil => rw [List.nil_append, readLiteral, if_pos rfl]
  | cons c cs ih =>
    obtain ⟨hc, hcs⟩ := List.forall_mem_cons.mp h
    rw [List.cons_append, readLiteral, if_neg (isLiteralChar_iff.mp hc).2, if_pos hc, ih hcs]
    rfl

/-! ## On several lines -/

section
variable {q : Char} {rest : List Char}

theorem closeLines_nil (h : rest.head? ≠ some q) : closeLines q rest = ([], rest) := by
  cases rest with
  | nil => rfl
  | cons a r =>
    have ha : a ≠ q := fun heq => h (congrArg some heq)
    cases r with
    | nil => rw [closeLines, if_neg ha]
    | cons b r => rw [closeLines, if_neg ha]

theorem closeLines_one (h : rest.head? ≠ some q) : closeLines q (q :: rest) = ([q], rest) := by
  cases rest with
  | nil => rw [closeLines, if_pos rfl]
  | cons b r =>
    have hb : b ≠ q := fun heq => h (congrArg some heq)
    rw [closeLines, if_pos rfl, if_neg hb]

theorem closeLines_two : closeLines q (q :: q :: rest) = ([q, q], rest) := by
  rw [closeLines, if_pos rfl, if_pos rfl]

/-- Before the closing quotes a text is empty or one quote, or two characters that are not both quotes
can be looked ahead at. -/
theorem lookahead {w : List Char} (h : w.take 2 ≠ [q, q]) (rest : List Char) : w = [] ∨ w = [q] ∨
    ∃ d e r, w ++ [q, q, q] ++ rest = d :: e :: r ∧ ¬ (d = q ∧ e = q) := by
  cases w with
  | nil => exact .inl rfl
  | cons d w =>
    cases w with
    | nil =>
      by_cases hd : d = q
      · exact .inr (.inl (congrArg (fun d => [d]) hd))
      · exact .inr (.inr ⟨d, q, q :: q :: rest, rfl, fun hboth => hd hboth.1⟩)
    | cons e w =>
      refine .inr (.inr ⟨d, e, w ++ [q, q, q] ++ rest, rfl, ?_⟩)
      rintro ⟨rfl, rfl⟩
      exact h rfl

end

section
variable {rest : List Char}

/-- A quote in front of fewer than two others is content, for a reader that looks two characters
ahead. -/
theorem read_quote {q : Char} {read : List Char → Option (List Char × List Char)}
    (hclose : ∀ r, read ([q, q, q] ++ r) = some (closeLines q r))
    (hahead : ∀ d e r, ¬ (d = q ∧ e = q) → read (q :: d :: e :: r) = consRead q (read (d :: e :: r)))
    (hrest : rest.head? ≠ some q) {w : List Char} (h : w.take 2 ≠ [q, q]) :
    read (q :: (w ++ [q, q, q] ++ rest)) = consRead q (read (w ++ [q, q, q] ++ rest)) := by
  obtain rfl | rfl | ⟨d, e, r, htext, hboth⟩ := lookahead h rest
  · rw [List.nil_append, hclose, closeLines_nil hrest]
    exact (hclose (q :: rest)).trans (congrArg some (closeLines_one hrest))
  · have hone : read ([q] ++ [q, q, q] ++ rest) = some (closeLines q (q :: rest)) := hclose (q :: rest)
    rw [hone, closeLines_one hrest]
    exact (hclose (q :: q :: rest)).trans (congrArg some closeLines_two)
  · rw [htext, hahead d e r hboth]

theorem readLiteralLines_close (r : List Char) :
    readLiteralLines (threeSingle ++ r) = some (closeLines '\'' r) := rfl

theorem readLiteralLines_quote (hrest : rest.head? ≠ some '\'') {w : List Char}
    (h : w.take 2 ≠ ['\'', '\'']) : readLiteralLines ('\'' :: (w ++ threeSingle ++ rest)) =
      consRead '\'' (readLiteralLines (w ++ threeSingle ++ rest)) := by
  refine read_quote readLiteralLines_close (fun d e r hboth => ?_) hrest h
  rw [readLiteralLines.eq_def]
  simp only [Char.reduceEq, hboth, if_false, if_true]

theorem readBasicLines_close (r : List Char) :
    readBasicLines false (threeDouble ++ r) = some (closeLines '"' r) := by
  rw [threeDouble, List.cons_append, List.cons_append, List.cons_append, readBasicLines.eq_def]
  rfl

theorem readBasicLines_quote (hrest : rest.head? ≠ some '"') {w : List Char}
    (h : w.take 2 ≠ ['"', '"']) : readBasicLines false ('"' :: (w ++ threeDouble ++ rest)) =
      consRead '"' (readBasicLines false (w ++ threeDouble ++ rest)) := by
  refine read_quote readBasicLines_close (fun d e r hboth => ?_) hrest h
  rw [readBasicLines.eq_def]
  simp only [Bool.false_and, Bool.false_eq_true, Char.reduceEq, hboth, if_false, if_true]

theorem readBasicLines_written {c : Char} {w : List Char} (h : Written c w) (r : List Char) :
    readBasicLines false (w ++ r) = consRead c (readBasicLines false r) := by
  cases h with
  | plain basic =>
    obtain ⟨hplain, hquote, hslash⟩ := isBasicChar_iff.mp basic
    obtain ⟨hn, hr⟩ := ne_of_isPlain hplain
    rw [List.singleton_append, readBasicLines.eq_def]
    simp only [Bool.false_and, Bool.false_eq_true, hn, hr, hquote, hslash, basic, if_false, if_true]
  | @short e escape =>
    obtain ⟨hu, hU, hspace, hbreak⟩ := shortEscape?_letter escape
    have hline : lineBreak? ((e :: r).dropWhile isSpace) = none := by
      rw [List.dropWhile_cons_of_neg (by simp [hspace]), lineBreak?_of_ne hbreak]
    rw [List.cons_append, List.singleton_append, readBasicLines.eq_def]
    simp only [Bool.false_and, Bool.false_eq_true, Char.reduceEq, hline, Option.isSome_none, hu, hU,
      escape, if_false, if_true]
  | @code d₁ d₂ d₃ d₄ escape =>
    have hline : lineBreak? (('u' :: d₁ :: d₂ :: d₃ :: d₄ :: r).dropWhile isSpace) = none := rfl
    rw [readBasicLines.eq_def]
    simp only [List.cons_append, List.nil_append, Bool.false_and, Bool.false_eq_true, Char.reduceEq,
      hline, Option.isSome_none, escape, if_false, if_true]

theorem readBasicLines_break (r : List Char) :
    readBasicLines false ('\n' :: r) = consRead '\n' (readBasicLines false r) := by
  rw [readBasicLines.eq_def]
  rfl

end

/-- No third quote in a row is written, and none in front of another character. -/
theorem writeBasicLines_head (run : Nat) (cs : List Char) (h : 2 ≤ run ∨ cs.head? ≠ some '"') :
    (writeBasicLines run cs).head? ≠ some '"' := by
  cases cs with
  | nil => simp [writeBasicLines]
  | cons c cs =>
    rw [writeBasicLines]
    by_cases hquote : c = '"'
    · have hrun : ¬ run < 2 := by
        obtain hrun | hhead := h
        · omega
        · exact absurd (congrArg some hquote) hhead
      rw [if_pos hquote, if_neg hrun]
      simp
    · rw [if_neg hquote]
      by_cases hline : c = '\n'
      · rw [if_pos hline]
        simp
      · obtain ⟨d, t, hw, -, hd⟩ := (writeBasicChar_written c).head
        rw [if_neg hline, hw]
        simpa using hd

theorem writeBasicLines_take {run : Nat} (hrun : run < 2) (cs : List Char) :
    (writeBasicLines (run + 1) cs).take 2 ≠ ['"', '"'] := by
  intro htake
  cases hw : writeBasicLines (run + 1) cs with
  | nil => simp [hw] at htake
  | cons d w =>
    have hhead : cs.head? = some '"' := by
      by_contra hother
      refine writeBasicLines_head (run + 1) cs (.inr hother) ?_
      rw [hw] at htake ⊢
      simp only [List.take_succ_cons, List.cons.injEq] at htake
      exact congrArg some htake.1
    obtain ⟨cs', rfl⟩ := List.head?_eq_some_iff.mp hhead
    rw [writeBasicLines, if_pos rfl] at htake
    split_ifs at htake with hmore
    · have hnext := writeBasicLines_head (run + 1 + 1) cs' (.inl (by omega))
      cases hw' : writeBasicLines (run + 1 + 1) cs' with
      | nil => simp [hw'] at htake
      | cons e w' =>
        rw [hw'] at htake hnext
        simp only [List.take_succ_cons, List.cons.injEq] at htake
        exact hnext (congrArg some htake.2.1)
    · simp at htake

theorem readBasicLines_write {rest : List Char} (hrest : rest.head? ≠ some '"') (run : Nat)
    (cs : List Char) :
    readBasicLines false (writeBasicLines run cs ++ threeDouble ++ rest) = some (cs, rest) := by
  -- reading keeps no count of the quotes before, so the claim is the same for every run
  induction cs generalizing run with
  | nil => rw [writeBasicLines, List.nil_append, readBasicLines_close, closeLines_nil hrest]
  | cons c cs ih =>
    rw [writeBasicLines]
    by_cases hquote : c = '"'
    · subst hquote
      rw [if_pos rfl]
      by_cases hrun : run < 2
      · rw [if_pos hrun, List.cons_append, List.cons_append,
          readBasicLines_quote hrest (writeBasicLines_take hrun cs), ih]
        rfl
      · have hescaped : Written '"' ['\\', '"'] := .short rfl
        rw [if_neg hrun]
        exact (readBasicLines_written hescaped _).trans (congrArg (consRead '"') (ih 0))
    · rw [if_neg hquote]
      by_cases hline : c = '\n'
      · subst hline
        rw [if_pos rfl, List.cons_append, List.cons_append, readBasicLines_break, ih]
        rfl
      · rw [if_neg hline, List.append_assoc, List.append_assoc,
          readBasicLines_written (writeBasicChar_written c), ← List.append_assoc, ih]
        rfl

theorem le_longestRun (q : Char) (run : Nat) (cs : List Char) : run ≤ longestRun q run cs := by
  induction cs generalizing run with
  | nil => exact Nat.le_refl run
  | cons c cs ih =>
    rw [longestRun]
    split_ifs
    · exact Nat.le_trans (Nat.le_succ run) (ih (run + 1))
    · exact Nat.le_max_left _ _

theorem take_of_longestRun {q : Char} {run : Nat} {cs : List Char}
    (h : longestRun q (run + 1) cs ≤ 2) : cs.take 2 ≠ [q, q] := by
  intro htake
  obtain ⟨rest, rfl⟩ : ∃ rest, cs = [q, q] ++ rest :=
    ⟨cs.drop 2, by rw [← htake, List.take_append_drop]⟩
  have hle := le_longestRun q (run + 1 + 1 + 1) rest
  rw [List.cons_append, List.singleton_append, longestRun, if_pos rfl, longestRun, if_pos rfl] at h
  omega

theorem readLiteralLines_write {rest : List Char} (hrest : rest.head? ≠ some '\'') {run : Nat}
    {cs : List Char} (hchars : ∀ c ∈ cs, isControl c = false) (hruns : longestRun '\'' run cs ≤ 2) :
    readLiteralLines (cs ++ threeSingle ++ rest) = some (cs, rest) := by
  induction cs generalizing run with
  | nil => rw [List.nil_append, readLiteralLines_close, closeLines_nil hrest]
  | cons c cs ih =>
    obtain ⟨hc, hcs⟩ := List.forall_mem_cons.mp hchars
    rw [longestRun] at hruns
    rw [List.cons_append, List.cons_append]
    by_cases hquote : c = '\''
    · subst hquote
      rw [if_pos rfl] at hruns
      rw [readLiteralLines_quote hrest (take_of_longestRun hruns), ih hcs hruns]
      rfl
    · rw [if_neg hquote] at hruns
      have hread := ih hcs (Nat.le_trans (Nat.le_max_right _ _) hruns)
      rw [readLiteralLines.eq_def]
      by_cases hline : c = '\n'
      · simp only [hline, if_true, hread]
        rfl
      · have hplain := isPlain_of_not_isControl hc hline
        have hliteral := isLiteralChar_iff.mpr ⟨hplain, hquote⟩
        simp only [hline, (ne_of_isPlain hplain).2, hquote, hliteral, if_false, if_true, hread]
        rfl

/-! ## All forms -/

/-- A text that is written without escapes on one line, between single quotes. -/
theorem formOf_literal {cs : List Char} (h : formOf cs = .literal) :
    ∀ c ∈ cs, isLiteralChar c = true := by
  unfold formOf at h
  simp only at h
  split_ifs at h with _ hform
  simp only [Bool.and_eq_true, Bool.not_eq_true', List.any_eq_false, List.contains_eq_mem,
    decide_eq_false_iff_not] at hform
  obtain ⟨⟨hcontrol, hline⟩, hquote⟩ := hform
  intro c hc
  have hplain := isPlain_of_not_isControl (Bool.eq_false_iff.mpr (hcontrol c hc))
    (ne_of_mem_of_not_mem hc hline)
  exact isLiteralChar_iff.mpr ⟨hplain, ne_of_mem_of_not_mem hc hquote⟩

theorem formOf_literalLines {cs : List Char} (h : formOf cs = .literalLines) :
    (∀ c ∈ cs, isControl c = false) ∧ longestRun '\'' 0 cs ≤ 2 := by
  unfold formOf at h
  simp only at h
  split_ifs at h with _ _ _ hform
  simpa using hform

/-- The line break after the opening quotes goes, and no line break of the content does. -/
theorem skipFirstBreak_firstBreak {cs w : List Char}
    (h : '\n' ∉ cs → ∃ d t, w = d :: t ∧ isPlain d = true) :
    skipFirstBreak (firstBreak cs ++ w) = w := by
  rw [firstBreak]
  by_cases hlines : '\n' ∈ cs
  · rw [if_pos (List.contains_iff_mem.mpr hlines)]
    rfl
  · obtain ⟨d, t, rfl, hd⟩ := h hlines
    rw [if_neg (mt List.contains_iff_mem.mp hlines), List.nil_append, skipFirstBreak,
      lineBreak?_of_ne (ne_of_isPlain hd)]
    rfl

theorem readText_basic {r : List Char} (h : ∀ r', r ≠ '"' :: '"' :: r') :
    readText ('"' :: r) = readBasic r := by
  rw [readText]
  exact h

theorem readText_literal {r : List Char} (h : ∀ r', r ≠ '\'' :: '\'' :: r') :
    readText ('\'' :: r) = readLiteral r := by
  rw [readText]
  exact h

/-- Where the content has no line break, what follows the opening quotes begins with none. -/
theorem head_basicLines {cs : List Char} (h : '\n' ∉ cs) (rest : List Char) :
    ∃ d t, writeBasicLines 0 cs ++ threeDouble ++ rest = d :: t ∧ isPlain d = true := by
  cases cs with
  | nil => exact ⟨'"', '"' :: '"' :: rest, rfl, rfl⟩
  | cons c cs =>
    have hline : c ≠ '\n' := Ne.symm (List.ne_of_not_mem_cons h)
    rw [writeBasicLines]
    by_cases hquote : c = '"'
    · subst hquote
      exact ⟨'"', _, rfl, rfl⟩
    · obtain ⟨d, t, hw, hd, -⟩ := (writeBasicChar_written c).head
      rw [if_neg hquote, if_neg hline, hw]
      exact ⟨d, _, rfl, hd⟩

theorem head_literalLines {cs : List Char} (hcontrol : ∀ c ∈ cs, isControl c = false)
    (h : '\n' ∉ cs) (rest : List Char) :
    ∃ d t, cs ++ threeSingle ++ rest = d :: t ∧ isPlain d = true := by
  cases cs with
  | nil => exact ⟨'\'', '\'' :: '\'' :: rest, rfl, rfl⟩
  | cons c cs =>
    have hline : c ≠ '\n' := Ne.symm (List.ne_of_not_mem_cons h)
    exact ⟨c, _, rfl, isPlain_of_not_isControl (hcontrol c List.mem_cons_self) hline⟩

/-- A text is read back from the form that it is written in, if no quote follows. -/
theorem readText_writeText (cs rest : List Char) (hdouble : rest.head? ≠ some '"')
    (hsingle : rest.head? ≠ some '\'') : readText (writeText cs ++ rest) = some (cs, rest) := by
  rw [writeText]
  cases hform : formOf cs with
  | basic =>
    have htext : ('"' :: cs.flatMap writeBasicChar ++ ['"']) ++ rest =
        '"' :: (cs.flatMap writeBasicChar ++ '"' :: rest) := by simp
    simp only [htext]
    rw [readText_basic, readBasic_write]
    intro r' heq
    cases cs with
    | nil =>
      rw [List.flatMap_nil, List.nil_append] at heq
      cases heq
      exact hdouble rfl
    | cons c cs =>
      obtain ⟨d, t, hw, -, hd⟩ := (writeBasicChar_written c).head
      rw [List.flatMap_cons, hw] at heq
      exact hd (List.cons.inj heq).1
  | literal =>
    have htext : ('\'' :: cs ++ ['\'']) ++ rest = '\'' :: (cs ++ '\'' :: rest) := by simp
    have hchars := formOf_literal hform
    simp only [htext]
    rw [readText_literal, readLiteral_write hchars]
    intro r' heq
    cases cs with
    | nil =>
      cases heq
      exact hsingle rfl
    | cons c cs =>
      exact (isLiteralChar_iff.mp (hchars c List.mem_cons_self)).2 (List.cons.inj heq).1
  | basicLines =>
    have htext : threeDouble ++ firstBreak cs ++ writeBasicLines 0 cs ++ threeDouble ++ rest =
        threeDouble ++ (firstBreak cs ++ (writeBasicLines 0 cs ++ threeDouble ++ rest)) := by simp
    have hopen : ∀ r, readText (threeDouble ++ r) = readBasicLines false (skipFirstBreak r) :=
      fun _ => rfl
    simp only [htext]
    rw [hopen, skipFirstBreak_firstBreak fun h => head_basicLines h rest,
      readBasicLines_write hdouble]
  | literalLines =>
    obtain ⟨hcontrol, hruns⟩ := formOf_literalLines hform
    have htext : threeSingle ++ firstBreak cs ++ cs ++ threeSingle ++ rest =
        threeSingle ++ (firstBreak cs ++ (cs ++ threeSingle ++ rest)) := by simp
    have hopen : ∀ r, readText (threeSingle ++ r) = readLiteralLines (skipFirstBreak r) :=
      fun _ => rfl
    simp only [htext]
    rw [hopen, skipFirstBreak_firstBreak fun h => head_literalLines hcontrol h rest,
      readLiteralLines_write hsingle hcontrol hruns]

example : writeText "it's\nso".toList = "\"\"\"\nit's\nso\"\"\"".toList := by decide

end Gamewire.Toml
