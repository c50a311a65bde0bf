import Gamewire.Json.Reader
import Gamewire.Proofs.Toml.Number

/-! JSON values come back from their compact texts. A text is read up to its closing quote whatever its
characters are; a number up to the mark behind it; arrays and objects element by element, for which fuel
in proportion to the text is enough. -/
namespace Gamewire.Json
set_option autoImplicit false

/-! ## Texts -/

/-- What stands between quotes for a character. -/
inductive Written (c : Char) : List Char → Prop
  | plain (quote : c ≠ '"') (slash : c ≠ '\\') (code : ¬ c.toNat < 0x20) : Written c [c]
  | short {e : Char} (escape : shortEscape? e = some c) : Written c ['\\', e]
  | code {d₁ d₂ d₃ d₄ : Char} {n : Nat} (digits : Text.numeral? 16 [d₁, d₂, d₃, d₄] = some n)
      (valid : n.isValidChar) (char : Char.ofNat n = c) : Written c ['\\', 'u', d₁, d₂, d₃, d₄]

theorem numeral?_control : ∀ n < 0x20,
    (Text.zeroPad 4 (Text.hexDigits n)).length = 4 ∧
      Text.numeral? 16 (Text.zeroPad 4 (Text.hexDigits n)) = some n := by
  decide

theorem written_control {c : Char} (h : c.toNat < 0x20) :
    Written c ('\\' :: 'u' :: Text.zeroPad 4 (Text.hexDigits c.toNat)) := by
  obtain ⟨hlength, hdigits⟩ := numeral?_control c.toNat h
  obtain ⟨d₁, d₂, d₃, d₄, heq⟩ := List.length_eq_four.mp hlength
  rw [heq] at hdigits ⊢
  exact .code hdigits c.valid (Char.ofNat_toNat c)

theorem writeChar_written (c : Char) : Written c (writeChar c) := by
  unfold writeChar
  split_ifs with hquote hslash hb hf hn hr ht hcontrol
  · subst hquote
    exact .short rfl
  · subst hslash
    exact .short rfl
  · subst hb
    exact .short rfl
  · subst hf
    exact .short rfl
  · subst hn
    exact .short rfl
  · subst hr
    exact .short rfl
  · subst ht
    exact .short rfl
  · exact written_control hcontrol
  · exact .plain hquote hslash hcontrol

theorem readContent_written {c : Char} {w : List Char} (h : Written c w) (r : List Char) :
    readContent (w ++ r) = readContent.push c (readContent r) := by
  cases h with
  | plain hquote hslash hcode =>
    rw [List.singleton_append, readContent.eq_def]
    simp only [hquote, hslash, hcode, if_false]
  | @short e escape =>
    have hu : e ≠ 'u' := by
      rintro rfl
      cases escape
    rw [List.cons_append, List.singleton_append, readContent.eq_def]
    simp only [Char.reduceEq, hu, escape, if_false, if_true]
  | code hdigits hvalid hchar =>
    rw [readContent.eq_def]
    simp only [List.cons_append, List.nil_append, Char.reduceEq, hdigits, hvalid, hchar, if_false,
      if_true]

theorem readContent_write (cs rest : List Char) :
    readContent (cs.flatMap writeChar ++ '"' :: rest) = some (cs, rest) := by
  induction cs with
  | nil =>
    rw [List.flatMap_nil, List.nil_append, readContent.eq_def]
    rfl
  | cons c cs ih =>
    rw [List.flatMap_cons, List.append_assoc, readContent_written (writeChar_written c), ih]
    rfl

theorem readText_write (s : String) (rest : List Char) :
    readText (writeText s ++ rest) = some (s, rest) := by
  rw [writeText, List.append_assoc, List.cons_append, List.singleton_append, readText,
    readContent_write]
  simp only [String.ofList_toList]

/-! ## Numbers -/

/-- No number goes on with the text. -/
def EndsNumber (rest : List Char) : Prop :=
  ∀ c ∈ rest.head?, Text.isDigit c = false ∧ c ≠ '.' ∧ c ≠ 'e' ∧ c ≠ 'E'

theorem splitDigits_append {ds rest : List Char} (h : ∀ d ∈ ds, Text.isDigit d = true)
    (hrest : EndsNumber rest) : splitDigits (ds ++ rest) = (ds, rest) := by
  have hstop : rest.takeWhile Text.isDigit = [] ∧ rest.dropWhile Text.isDigit = rest := by
    cases rest with
    | nil => exact ⟨rfl, rfl⟩
    | cons c rest =>
      have hc := Bool.eq_false_iff.mp (hrest c rfl).1
      exact ⟨List.takeWhile_cons_of_neg hc, List.dropWhile_cons_of_neg hc⟩
  rw [splitDigits, List.takeWhile_append_of_pos h, List.dropWhile_append_of_pos h, hstop.1, hstop.2,
    List.append_nil]

theorem readExponent_of_ends {rest : List Char} (h : EndsNumber rest) :
    readExponent rest = some (none, rest) := by
  cases rest with
  | nil => rfl
  | cons c rest =>
    obtain ⟨-, -, he, hE⟩ := h c rfl
    simp [readExponent, he, hE]

theorem exceedsBinary64_short {ds : List Char} (h : ds.length < 309) :
    Text.exceedsBinary64 ds 0 = false := by
  have hdrop : (ds.dropWhile (· == '0')).length ≤ ds.length := (List.dropWhile_sublist _).length_le
  have hsmall : ((ds.dropWhile (· == '0')).length : Int) + 0 < 309 := by omega
  exact if_pos (Bool.or_eq_true_iff.mpr (.inr (decide_eq_true hsmall)))

/-- The digits of a number of 64 bits, up to what does not go on with them. -/
theorem readUnsigned_decimal (negative : Bool) {n : Nat} (hn : n < Nat.pow 2 64) {rest : List Char}
    (hrest : EndsNumber rest) :
    readUnsigned negative (Nat.toDigits 10 n ++ rest) =
      some (integerOrFloat negative (Nat.toDigits 10 n), rest) := by
  have hdigits := Toml.isDigit_decimal (n := n)
  have hlength : (Nat.toDigits 10 n).length ≤ 20 :=
    Nat.toDigits_length 10 n 20 (by omega) (hn.trans (by decide))
  have hshort : Text.exceedsBinary64 (Nat.toDigits 10 n) 0 = false := exceedsBinary64_short (by omega)
  have hpoint : ∀ r, rest ≠ '.' :: r := by
    rintro r rfl
    exact (hrest '.' rfl).2.1 rfl
  unfold readUnsigned
  obtain hzero | ⟨d, ds, heq, hd⟩ := Toml.decimal_cases n
  · rw [hzero] at hshort ⊢
    simp only [List.cons_append, List.nil_append, readExponent_of_ends hrest, List.isEmpty_nil,
      Option.isNone_none, and_self, if_true, hshort, Bool.false_eq_true, if_false]
  · have hsplit := splitDigits_append hdigits hrest
    rw [heq] at hsplit hshort ⊢
    rw [List.cons_append] at hsplit ⊢
    simp [hsplit, hd, readExponent_of_ends hrest, hshort]

theorem readNumber_integer {n : Int} (hmin : -Nat.pow 2 63 ≤ n) (hmax : n < Nat.pow 2 64)
    {rest : List Char} (hrest : EndsNumber rest) :
    readNumber ((toString n).toList ++ rest) = some (.integer n, rest) := by
  cases n with
  | ofNat k =>
    have hk : k < Nat.pow 2 64 := Int.ofNat_lt.mp hmax
    have htext : (toString (Int.ofNat k)).toList = Nat.toDigits 10 k := Nat.toList_repr
    rw [htext, readNumber.eq_def]
    split
    · rename_i heq
      obtain ⟨d, ds, hdecimal⟩ := List.exists_cons_of_ne_nil (Nat.toDigits_ne_nil (n := k) (b := 10))
      have hdigit := Toml.isDigit_decimal d (hdecimal ▸ List.mem_cons_self)
      rw [hdecimal] at heq
      exact absurd (List.cons.inj heq).1 (Toml.ne_of_class hdigit rfl)
    · rw [readUnsigned_decimal false hk hrest, integerOrFloat, Text.numeral?_toDigits,
        if_neg (by decide), Option.getD_some, if_pos hk]
      rfl
  | negSucc k =>
    have hk : k + 1 ≤ Nat.pow 2 63 := by
      rw [Int.negSucc_eq] at hmin
      omega
    have hwide : k + 1 < Nat.pow 2 64 := hk.trans_lt (by decide)
    have htext : (toString (Int.negSucc k)).toList = '-' :: Nat.toDigits 10 (k + 1) := by
      show ("-" ++ (k + 1).repr).toList = _
      rw [String.toList_append, Nat.toList_repr]
      rfl
    rw [htext, List.cons_append, readNumber, readUnsigned_decimal true hwide hrest, integerOrFloat,
      Text.numeral?_toDigits, if_pos rfl, Option.getD_some, if_neg (by omega)]
    rfl

/-! ## Values -/

/-- A value whose text holds all of it: no floats, integers of 64 bits, and arrays and objects that nest
`depth` levels at most. -/
inductive Fits : (depth : Nat) → Value → Prop
  | null {d : Nat} : Fits d .null
  | boolean {d : Nat} (b : Bool) : Fits d (.boolean b)
  | integer {d : Nat} {n : Int} (hmin : -Nat.pow 2 63 ≤ n) (hmax : n < Nat.pow 2 64) : Fits d (.integer n)
  | text {d : Nat} (s : String) : Fits d (.text s)
  | array {d : Nat} {vs : List Value} (h : ∀ v ∈ vs, Fits d v) : Fits (d + 1) (.array vs)
  | object {d : Nat} {entries : List (String × Value)} (h : ∀ e ∈ entries, Fits d e.2) :
      Fits (d + 1) (.object entries)

theorem fits_integer_iff {d : Nat} {n : Int} :
    Fits d (.integer n) ↔ -Nat.pow 2 63 ≤ n ∧ n < Nat.pow 2 64 :=
  ⟨fun h => by cases h with | integer hmin hmax => exact ⟨hmin, hmax⟩, fun h => .integer h.1 h.2⟩

@[simp]
theorem fits_array_iff {d : Nat} {vs : List Value} : Fits (d + 1) (.array vs) ↔ ∀ v ∈ vs, Fits d v :=
  ⟨fun h => by cases h with | array h => exact h, .array⟩

@[simp]
theorem fits_object_iff {d : Nat} {entries : List (String × Value)} :
    Fits (d + 1) (.object entries) ↔ ∀ e ∈ entries, Fits d e.2 :=
  ⟨fun h => by cases h with | object h => exact h, .object⟩

attribute [simp] Fits.null Fits.boolean Fits.text

/-- A number begins with a digit or a sign, and with nothing else. -/
theorem ne_of_number {c e : Char} (hc : Text.isDigit c = true ∨ c = '-')
    (hdigit : Text.isDigit e = false) (hminus : '-' ≠ e) : c ≠ e := by
  obtain hc | rfl := hc
  · exact Toml.ne_of_class hc hdigit
  · exact hminus

theorem isBlank_of_number {c : Char} (hc : Text.isDigit c = true ∨ c = '-') : isBlank c = false := by
  have hne : ∀ e, Text.isDigit e = false → '-' ≠ e → c ≠ e := fun e => ne_of_number hc
  simp [isBlank, hne ' ' rfl, hne '\n' rfl, hne '\t' rfl, hne '\r' rfl]

/-- The text of a value begins with it. -/
theorem write_head (v : Value) : ∃ c cs, write v = c :: cs ∧ isBlank c = false ∧ c ≠ ']' := by
  cases v with
  | null => exact ⟨_, _, rfl, rfl, by decide⟩
  | boolean b => cases b <;> exact ⟨_, _, rfl, rfl, by decide⟩
  | float => exact ⟨_, _, rfl, rfl, by decide⟩
  | text s => exact ⟨_, _, rfl, rfl, by decide⟩
  | array vs => exact ⟨_, _, rfl, rfl, by decide⟩
  | object entries => exact ⟨_, _, rfl, rfl, by decide⟩
  | integer n =>
    obtain ⟨c, cs, htext, hc⟩ := Toml.toString_head n
    exact ⟨c, cs, htext, isBlank_of_number hc, ne_of_number hc rfl (by decide)⟩

theorem skipBlanks_cons {c : Char} (h : isBlank c = false) (cs : List Char) :
    skipBlanks (c :: cs) = c :: cs :=
  List.dropWhile_cons_of_neg (Bool.eq_false_iff.mp h)

/-- Reading takes the text of a value and nothing behind it. -/
def Reads (depth : Nat) (v : Value) : Prop :=
  ∀ fuel rest, EndsNumber rest → 2 * (write v).length ≤ fuel →
    readValue fuel depth (write v ++ rest) = some (v, rest)

theorem ends_of {c : Char} (h : c = ',' ∨ c = ']' ∨ c = '\x7d') (rest : List Char) :
    EndsNumber (c :: rest) := by
  rintro _ ⟨⟩
  obtain rfl | rfl | rfl := h <;> decide

theorem readElements_write {d : Nat} {vs : List Value} (hne : vs ≠ []) (h : ∀ v ∈ vs, Reads d v) :
    ∀ fuel rest, 2 * (writeElements vs).length < fuel →
      readElements fuel d (writeElements vs ++ ']' :: rest) = some (vs, rest) := by
  induction vs with
  | nil => exact absurd rfl hne
  | cons v vs ih =>
    obtain ⟨hv, hvs⟩ := List.forall_mem_cons.mp h
    intro fuel rest hfuel
    obtain ⟨fuel, rfl⟩ : ∃ k, fuel = k + 1 := ⟨fuel - 1, by omega⟩
    cases vs with
    | nil =>
      rw [writeElements] at hfuel ⊢
      rw [readElements, hv fuel _ (ends_of (.inr (.inl rfl)) _) (by omega)]
      rfl
    | cons v' vs =>
      have hnext := ih (List.cons_ne_nil _ _) hvs fuel rest
      simp only [writeElements, List.length_append, List.length_cons, List.append_assoc,
        List.cons_append] at hfuel hnext ⊢
      rw [readElements, hv fuel _ (ends_of (.inl rfl) _) (by omega)]
      simp only [skipBlanks_cons (c := ',') rfl]
      rw [hnext (by omega)]

theorem readEntries_write {d : Nat} {entries : List (String × Value)} (hne : entries ≠ [])
    (h : ∀ e ∈ entries, Reads d e.2) : ∀ fuel rest, 2 * (writeEntries entries).length < fuel →
      readEntries fuel d (writeEntries entries ++ '\x7d' :: rest) = some (entries, rest) := by
  induction entries with
  | nil => exact absurd rfl hne
  | cons e entries ih =>
    obtain ⟨key, v⟩ := e
    have hv : Reads d v := h _ List.mem_cons_self
    have hentries := fun e he => h e (List.mem_cons_of_mem _ he)
    intro fuel rest hfuel
    obtain ⟨fuel, rfl⟩ : ∃ k, fuel = k + 1 := ⟨fuel - 1, by omega⟩
    have hkey : ∀ r, readText (skipBlanks (writeText key ++ r)) = some (key, r) := by
      intro r
      rw [writeText, List.cons_append, List.cons_append, skipBlanks_cons rfl]
      exact readText_write key r
    cases entries with
    | nil =>
      simp only [writeEntries, List.length_append, List.length_cons, List.append_assoc,
        List.cons_append] at hfuel ⊢
      rw [readEntries, hkey]
      simp only [skipBlanks_cons (c := ':') rfl]
      rw [hv fuel _ (ends_of (.inr (.inr rfl)) _) (by omega)]
      rfl
    | cons e' entries =>
      have hnext := ih (List.cons_ne_nil _ _) hentries fuel rest
      simp only [writeEntries, List.length_append, List.length_cons, List.append_assoc,
        List.cons_append] at hfuel hnext ⊢
      rw [readEntries, hkey]
      simp only [skipBlanks_cons (c := ':') rfl]
      rw [hv fuel _ (ends_of (.inl rfl) _) (by omega)]
      simp only [skipBlanks_cons (c := ',') rfl]
      rw [hnext (by omega)]

/-- Reading begins at the text of a value, with no blanks to skip. -/
theorem reads_of_step {d : Nat} {v : Value} (h : ∀ fuel rest, EndsNumber rest →
    2 * (write v).length ≤ fuel + 1 → skipBlanks (write v ++ rest) = write v ++ rest →
      readValue (fuel + 1) d (write v ++ rest) = some (v, rest)) : Reads d v := by
  intro fuel rest hrest hfuel
  obtain ⟨c, cs, hwrite, hblank, -⟩ := write_head v
  have hskip : skipBlanks (write v ++ rest) = write v ++ rest := by
    rw [hwrite, List.cons_append, skipBlanks_cons hblank]
  cases fuel with
  | zero =>
    rw [hwrite, List.length_cons] at hfuel
    omega
  | succ fuel => exact h fuel rest hrest hfuel hskip

theorem readValue_number {c : Char} (hc : Text.isDigit c = true ∨ c = '-') (fuel depth : Nat)
    (cs : List Char) : readValue (fuel + 1) depth (c :: cs) = readNumber (c :: cs) := by
  rw [readValue, skipBlanks_cons (isBlank_of_number hc)]
  split
  case h_7 => rfl
  all_goals
    rename_i heq
    exact absurd (List.cons.inj heq).1 (ne_of_number hc rfl (by decide))

theorem writeElements_head (v : Value) (vs : List Value) :
    ∃ c cs, writeElements (v :: vs) = c :: cs ∧ isBlank c = false ∧ c ≠ ']' := by
  obtain ⟨c, cs, hwrite, hc⟩ := write_head v
  cases vs with
  | nil => exact ⟨c, cs, hwrite, hc⟩
  | cons v' vs =>
    refine ⟨c, cs ++ ',' :: writeElements (v' :: vs), ?_, hc⟩
    rw [writeElements, hwrite, List.cons_append]
    exact List.cons_ne_nil v' vs

theorem writeEntries_head (e : String × Value) (entries : List (String × Value)) :
    ∃ cs, writeEntries (e :: entries) = '"' :: cs := by
  cases entries with
  | nil => exact ⟨_, rfl⟩
  | cons e' entries => exact ⟨_, rfl⟩

theorem reads_of_fits {d : Nat} {v : Value} (h : Fits d v) : Reads d v := by
  induction h with
  | null => exact reads_of_step fun fuel rest _ _ _ => rfl
  | boolean b => exact reads_of_step fun fuel rest _ _ _ => by cases b <;> rfl
  | @integer d n hmin hmax =>
    refine reads_of_step fun fuel rest hrest _ _ => ?_
    have hnumber := readNumber_integer hmin hmax hrest
    obtain ⟨c, cs, htext, hc⟩ := Toml.toString_head n
    rw [htext] at hnumber
    rw [write, htext]
    exact (readValue_number hc fuel d _).trans hnumber
  | text s =>
    refine reads_of_step fun fuel rest _ _ hskip => ?_
    have htext := readText_write s rest
    rw [readValue, hskip]
    simp only [write, writeText, List.cons_append] at htext ⊢
    rw [htext]
  | @array d vs h ih =>
    refine reads_of_step fun fuel rest _ hfuel hskip => ?_
    rw [readValue, hskip]
    cases vs with
    | nil => rfl
    | cons v vs =>
      have helements := readElements_write (List.cons_ne_nil v vs) ih fuel rest
      obtain ⟨c, cs, hhead, hblank, hc⟩ := writeElements_head v vs
      simp only [write, List.length_append, List.length_cons, List.append_assoc, List.cons_append,
        List.nil_append] at hfuel ⊢
      rw [hhead] at helements hfuel ⊢
      rw [List.cons_append, skipBlanks_cons hblank]
      rw [List.cons_append] at helements
      split
      · rename_i heq
        exact absurd (List.cons.inj heq).1 hc
      · rw [helements (by omega)]
  | @object d entries h ih =>
    refine reads_of_step fun fuel rest _ hfuel hskip => ?_
    rw [readValue, hskip]
    cases entries with
    | nil => rfl
    | cons e entries =>
      have hentries := readEntries_write (List.cons_ne_nil e entries) ih fuel rest
      obtain ⟨cs, hhead⟩ := writeEntries_head e entries
      simp only [write, List.length_append, List.length_cons, List.append_assoc, List.cons_append,
        List.nil_append] at hfuel ⊢
      rw [hhead] at hentries hfuel ⊢
      rw [List.cons_append, skipBlanks_cons rfl]
      rw [List.cons_append] at hentries
      split
      · rename_i heq
        exact absurd (List.cons.inj heq).1 (by decide)
      · rw [hentries (by omega)]

/-- A value of at most 127 levels is read back from its compact text. -/
theorem parse?_render {v : Value} (h : Fits (nestingLimit - 1) v) : parse? v.render = some v := by
  have hread := reads_of_fits h (2 * (write v).length + 2) [] (by rintro c ⟨⟩) (by omega)
  rw [List.append_nil] at hread
  rw [parse?, Value.render, String.toList_ofList, hread]
  rfl

/-! ## Characters of a text -/

theorem mem_writeElements {c : Char} {vs : List Value} (h : c ∈ writeElements vs) :
    c = ',' ∨ ∃ v ∈ vs, c ∈ write v := by
  induction vs with
  | nil => cases h
  | cons v vs ih =>
    cases vs with
    | nil => exact .inr ⟨v, List.mem_cons_self, h⟩
    | cons v' vs =>
      rw [writeElements, List.mem_append, List.mem_cons] at h
      · obtain hv | rfl | hvs := h
        · exact .inr ⟨v, List.mem_cons_self, hv⟩
        · exact .inl rfl
        · exact (ih hvs).imp_right fun ⟨w, hw, hmem⟩ => ⟨w, List.mem_cons_of_mem v hw, hmem⟩
      · exact List.cons_ne_nil v' vs

theorem mem_writeEntries {c : Char} {entries : List (String × Value)} (h : c ∈ writeEntries entries) :
    c = ',' ∨ c = ':' ∨ ∃ e ∈ entries, c ∈ writeText e.1 ∨ c ∈ write e.2 := by
  induction entries with
  | nil => cases h
  | cons e entries ih =>
    cases entries with
    | nil =>
      rw [writeEntries, List.mem_append, List.mem_cons] at h
      obtain hkey | rfl | hv := h
      · exact .inr (.inr ⟨e, List.mem_cons_self, .inl hkey⟩)
      · exact .inr (.inl rfl)
      · exact .inr (.inr ⟨e, List.mem_cons_self, .inr hv⟩)
    | cons e' entries =>
      rw [writeEntries, List.mem_append, List.mem_append, List.mem_cons, List.mem_cons] at h
      · obtain (hkey | rfl | hv) | rfl | hentries := h
        · exact .inr (.inr ⟨e, List.mem_cons_self, .inl hkey⟩)
        · exact .inr (.inl rfl)
        · exact .inr (.inr ⟨e, List.mem_cons_self, .inr hv⟩)
        · exact .inl rfl
        · obtain hcomma | hcolon | ⟨x, hx, hmem⟩ := ih hentries
          · exact .inl hcomma
          · exact .inr (.inl hcolon)
          · exact .inr (.inr ⟨x, List.mem_cons_of_mem e hx, hmem⟩)
      · exact List.cons_ne_nil e' entries

/-- There are no control characters among the characters. -/
def Printable (cs : List Char) : Prop := ∀ c ∈ cs, 0x20 ≤ c.toNat

instance (cs : List Char) : Decidable (Printable cs) :=
  List.decidableBAll (fun c : Char => 0x20 ≤ c.toNat) cs

@[simp]
theorem printable_cons {c : Char} {cs : List Char} :
    Printable (c :: cs) ↔ 0x20 ≤ c.toNat ∧ Printable cs := List.forall_mem_cons

@[simp]
theorem printable_append {cs ds : List Char} :
    Printable (cs ++ ds) ↔ Printable cs ∧ Printable ds := List.forall_mem_append

@[simp] theorem printable_nil : Printable [] := List.forall_mem_nil _

theorem printable_control : ∀ n < 0x20, Printable (Text.zeroPad 4 (Text.hexDigits n)) := by decide

theorem printable_writeChar (c : Char) : Printable (writeChar c) := by
  unfold writeChar
  split_ifs with _ _ _ _ _ _ _ hcontrol
  any_goals decide
  · exact printable_cons.mpr ⟨by decide, printable_cons.mpr ⟨by decide, printable_control _ hcontrol⟩⟩
  · exact printable_cons.mpr ⟨Nat.le_of_not_lt hcontrol, printable_nil⟩

theorem printable_writeText (s : String) : Printable (writeText s) := by
  have hcontent : Printable (s.toList.flatMap writeChar) :=
    List.forall_mem_flatMap.mpr fun c _ => printable_writeChar c
  rw [writeText, printable_append, printable_cons]
  exact ⟨⟨by decide, hcontent⟩, by decide⟩

theorem printable_integer (n : Int) : Printable (toString n).toList := by
  obtain ⟨negative, k, -, htext⟩ := Toml.toString_int n
  have hdigits : Printable (Nat.toDigits 10 k) := by
    intro c hc
    have hrange : '0' ≤ c ∧ c ≤ '9' := by simpa [Text.isDigit] using Toml.isDigit_decimal c hc
    have hzero : '0'.toNat ≤ c.toNat := hrange.1
    exact le_trans (by decide) hzero
  rw [htext, printable_append]
  exact ⟨by cases negative <;> decide, hdigits⟩

theorem printable_writeElements {vs : List Value} (h : ∀ v ∈ vs, Printable (write v)) :
    Printable (writeElements vs) := by
  intro c hc
  obtain rfl | ⟨v, hv, hmem⟩ := mem_writeElements hc
  · decide
  · exact h v hv c hmem

theorem printable_writeEntries {entries : List (String × Value)}
    (h : ∀ e ∈ entries, Printable (write e.2)) : Printable (writeEntries entries) := by
  intro c hc
  obtain rfl | rfl | ⟨e, he, hkey | hv⟩ := mem_writeEntries hc
  · decide
  · decide
  · exact printable_writeText e.1 c hkey
  · exact h e he c hv

/-- The text of a value is a part of a line. -/
theorem Fits.printable {d : Nat} {v : Value} (h : Fits d v) : Printable (write v) := by
  induction h with
  | null => decide
  | boolean b => cases b <;> decide
  | @integer d n => exact printable_integer n
  | text s => exact printable_writeText s
  | array h ih =>
    rw [write, printable_append, printable_cons]
    exact ⟨⟨by decide, printable_writeElements ih⟩, by decide⟩
  | object h ih =>
    rw [write, printable_append, printable_cons]
    exact ⟨⟨by decide, printable_writeEntries ih⟩, by decide⟩

end Gamewire.Json
