import Gamewire.Proofs.Text.Words
import Gamewire.Proofs.Toml.Quoted
import Gamewire.Toml.Number
import Mathlib.Tactic

/-! Integers come back from their decimal digits: these are taken as one run up to the end of the line,
and none of them is the beginning of a date, of a time or of a number in another base. -/
namespace Gamewire.Toml
set_option autoImplicit false

/-! ## Digits -/

theorem isDigit_decimal {n : Nat} : ∀ c ∈ Nat.toDigits 10 n, Text.isDigit c = true :=
  fun _ hc => Text.isDigit_of_mem_decimal hc

/-- A decimal is the digit zero, or a run of digits that begins with another one. -/
theorem decimal_cases (n : Nat) : Nat.toDigits 10 n = ['0'] ∨
    ∃ d ds, Nat.toDigits 10 n = d :: ds ∧ d ≠ '0' := by
  induction n using Nat.strongRecOn with
  | ind n ih =>
    rw [Nat.toDigits_eq_if (by omega)]
    split
    · rename_i hn
      interval_cases n
      · exact .inl rfl
      all_goals exact .inr ⟨_, [], rfl, by decide⟩
    · have hless : n / 10 < n := Nat.div_lt_self (by omega) (by omega)
      obtain hzero | ⟨d, ds, hdigits, hd⟩ := ih (n / 10) hless
      · have hread := Text.numeral?_toDigits (n / 10)
        rw [hzero] at hread
        have hdiv : n / 10 = 0 := (Option.some.inj hread).symm
        omega
      · rw [hdigits]
        exact .inr ⟨d, _, rfl, hd⟩

theorem moreDigits_run {ds r : List Char} {c : Char} (h : ∀ d ∈ ds, Text.isDigit d = true)
    (hc : Text.isDigit c = false) (hmark : c ≠ '_') :
    moreDigits Text.isDigit (ds ++ c :: r) = (ds, c :: r) := by
  induction ds with
  | nil =>
    rw [List.nil_append, moreDigits.eq_def]
    simp only [hc, hmark, Bool.false_eq_true, if_false]
  | cons d ds ih =>
    obtain ⟨hd, hds⟩ := List.forall_mem_cons.mp h
    rw [List.cons_append, moreDigits.eq_def]
    simp only [hd, if_true, ih hds]

theorem wholePart?_decimal (n : Nat) (r : List Char) :
    wholePart? (Nat.toDigits 10 n ++ '\n' :: r) = some (Nat.toDigits 10 n, '\n' :: r) := by
  have hdigits := isDigit_decimal (n := n)
  obtain hzero | ⟨d, ds, heq, hd⟩ := decimal_cases n
  · rw [hzero]
    rfl
  · rw [heq] at hdigits ⊢
    obtain ⟨hdigit, hds⟩ := List.forall_mem_cons.mp hdigits
    rw [List.cons_append, wholePart?, digitRun?, if_pos hdigit, moreDigits_run hds rfl (by decide)]
    rintro r' heq
    exact hd (List.cons.inj heq).1

/-! ## Integers -/

theorem readDecimal_decimal (negative : Bool) (n : Nat) (r : List Char) :
    readDecimal negative (Nat.toDigits 10 n ++ '\n' :: r) =
      (integer? (if negative then -(n : Int) else n)).map (·, '\n' :: r) := by
  rw [readDecimal, wholePart?_decimal]
  show readDecimal.readInteger negative (Nat.toDigits 10 n) ('\n' :: r) = _
  rw [readDecimal.readInteger, Text.numeral?_toDigits]
  simp only
  cases integer? (if negative then -(n : Int) else n) <;> rfl

/-- What a digit follows is no name of a float. -/
theorem readNumber_signed {cs ds : List Char} {d : Char} {negative : Bool}
    (hdigit : Text.isDigit d = true)
    (hbase : ∀ c r, cs = '0' :: c :: r → c ≠ 'x' ∧ c ≠ 'o' ∧ c ≠ 'b')
    (hsign : readSign cs = (negative, d :: ds)) : readNumber cs = readDecimal negative (d :: ds) := by
  rw [readNumber.eq_def]
  split
  · exact absurd rfl (hbase _ _ rfl).1
  · exact absurd rfl (hbase _ _ rfl).2.1
  · exact absurd rfl (hbase _ _ rfl).2.2
  · rw [hsign]
    split
    · rename_i heq
      exact absurd (List.cons.inj (Prod.mk.inj heq).2).1 (ne_of_class hdigit rfl)
    · rename_i heq
      exact absurd (List.cons.inj (Prod.mk.inj heq).2).1 (ne_of_class hdigit rfl)
    · rename_i heq
      cases heq
      rfl

theorem readSign_digit {d : Char} (h : Text.isDigit d = true) (ds : List Char) :
    readSign (d :: ds) = (false, d :: ds) := by
  rw [readSign.eq_def]
  split
  · rename_i heq
    exact absurd (List.cons.inj heq).1 (ne_of_class h rfl)
  · rename_i heq
    exact absurd (List.cons.inj heq).1 (ne_of_class h rfl)
  · rfl

/-- The sign that an integer is written with. -/
def signOf (negative : Bool) : List Char := if negative then ['-'] else []

theorem readNumber_decimal (negative : Bool) (n : Nat) (r : List Char) :
    readNumber (signOf negative ++ Nat.toDigits 10 n ++ '\n' :: r) =
      (integer? (if negative then -(n : Int) else n)).map (·, '\n' :: r) := by
  have hdigits := isDigit_decimal (n := n)
  obtain ⟨d, ds, hdecimal⟩ := List.exists_cons_of_ne_nil (Nat.toDigits_ne_nil (n := n) (b := 10))
  rw [← readDecimal_decimal]
  cases negative with
  | true =>
    rw [hdecimal] at hdigits ⊢
    exact readNumber_signed (hdigits d List.mem_cons_self) (by rintro c r' ⟨⟩) rfl
  | false =>
    have hbase : ∀ c r', Nat.toDigits 10 n ++ '\n' :: r = '0' :: c :: r' →
        c ≠ 'x' ∧ c ≠ 'o' ∧ c ≠ 'b' := by
      intro c r' heq
      obtain hzero | ⟨e, es, hother, he⟩ := decimal_cases n
      · rw [hzero] at heq
        obtain ⟨rfl, -⟩ := List.cons.inj (List.cons.inj heq).2
        decide
      · rw [hother] at heq
        exact absurd (List.cons.inj heq).1 he
    rw [signOf, if_neg (by decide), List.nil_append]
    rw [hdecimal] at hbase hdigits ⊢
    have hdigit := hdigits d List.mem_cons_self
    exact readNumber_signed hdigit hbase (readSign_digit hdigit _)

/-! ## Neither dates nor times -/

/-- What stands behind the first digits of a line that has digits only is a digit or the end. -/
theorem head_of_fixedDigits? {count n : Nat} {ds r t : List Char} {c : Char}
    (hds : ∀ d ∈ ds, Text.isDigit d = true)
    (h : fixedDigits? count (ds ++ '\n' :: r) = some (n, c :: t)) :
    Text.isDigit c = true ∨ c = '\n' := by
  unfold fixedDigits? at h
  simp only at h
  split_ifs at h with hfixed
  obtain ⟨hlength, hall⟩ := hfixed
  have hcount : count ≤ ds.length := by
    by_contra hmore
    rw [List.take_append, show count - ds.length = (count - ds.length - 1) + 1 by omega,
      List.take_succ_cons, List.all_append, List.all_cons] at hall
    simp [Text.isDigit] at hall
  split at h
  · have hdrop : (ds ++ '\n' :: r).drop count = c :: t := (Prod.mk.inj (Option.some.inj h)).2
    rw [List.drop_append_of_le_length hcount] at hdrop
    cases hrest : ds.drop count with
    | nil =>
      rw [hrest] at hdrop
      exact .inr (List.cons.inj hdrop).1.symm
    | cons e es =>
      rw [hrest] at hdrop
      rw [← (List.cons.inj hdrop).1]
      exact .inl (hds e (List.mem_of_mem_drop (hrest ▸ List.mem_cons_self)))
  · cases h

theorem readNumberOrMoment_eq {cs : List Char} (hdate : ∀ n t, fixedDigits? 4 cs ≠ some (n, '-' :: t))
    (htime : ∀ n t, fixedDigits? 2 cs ≠ some (n, ':' :: t)) :
    readNumberOrMoment cs = readNumber cs := by
  rw [readNumberOrMoment]
  split
  · rename_i heq
    exact absurd heq (hdate _ _)
  · split
    · rename_i heq
      exact absurd heq (htime _ _)
    · rfl

/-- A sign is no digit. -/
theorem fixedDigits?_minus {count : Nat} (hcount : 0 < count) (cs : List Char) :
    fixedDigits? count ('-' :: cs) = none := by
  unfold fixedDigits?
  simp only
  rw [if_neg]
  rintro ⟨-, hall⟩
  obtain ⟨count, rfl⟩ : ∃ k, count = k + 1 := ⟨count - 1, by omega⟩
  rw [List.take_succ_cons, List.all_cons] at hall
  simp [Text.isDigit] at hall

theorem readNumberOrMoment_decimal (negative : Bool) (n : Nat) (r : List Char) :
    readNumberOrMoment (signOf negative ++ Nat.toDigits 10 n ++ '\n' :: r) =
      (integer? (if negative then -(n : Int) else n)).map (·, '\n' :: r) := by
  have hmark : ∀ count k c t, 0 < count → fixedDigits? count
      (signOf negative ++ Nat.toDigits 10 n ++ '\n' :: r) = some (k, c :: t) →
      Text.isDigit c = true ∨ c = '\n' := by
    intro count k c t hcount hfixed
    cases negative with
    | true =>
      have hnone := fixedDigits?_minus hcount (Nat.toDigits 10 n ++ '\n' :: r)
      rw [signOf, if_pos rfl, List.append_assoc, List.singleton_append, hnone] at hfixed
      cases hfixed
    | false => exact head_of_fixedDigits? isDigit_decimal hfixed
  rw [← readNumber_decimal]
  refine readNumberOrMoment_eq (fun k t hfixed => ?_) fun k t hfixed => ?_
  · exact absurd (hmark 4 k '-' t (by decide) hfixed) (by decide)
  · exact absurd (hmark 2 k ':' t (by decide) hfixed) (by decide)

theorem toString_int (n : Int) : ∃ (negative : Bool) (k : Nat),
    (if negative then -(k : Int) else k) = n ∧
      (toString n).toList = signOf negative ++ Nat.toDigits 10 k := by
  cases n with
  | ofNat k => exact ⟨false, k, rfl, Nat.toList_repr⟩
  | negSucc k =>
    refine ⟨true, k + 1, rfl, ?_⟩
    show ("-" ++ (k + 1).repr).toList = _
    rw [String.toList_append, Nat.toList_repr]
    rfl

theorem toString_head (n : Int) :
    ∃ c cs, (toString n).toList = c :: cs ∧ (Text.isDigit c = true ∨ c = '-') := by
  obtain ⟨negative, k, -, htext⟩ := toString_int n
  rw [htext]
  cases negative with
  | true => exact ⟨'-', _, rfl, .inr rfl⟩
  | false =>
    obtain ⟨d, ds, hdecimal⟩ := List.exists_cons_of_ne_nil (Nat.toDigits_ne_nil (n := k) (b := 10))
    exact ⟨d, ds, hdecimal, .inl (isDigit_decimal d (hdecimal ▸ List.mem_cons_self))⟩

/-- An integer of the format is read back from the end of a line. -/
theorem readNumberOrMoment_toString {n : Int} (hmin : minInteger ≤ n) (hmax : n ≤ maxInteger)
    (r : List Char) :
    readNumberOrMoment ((toString n).toList ++ '\n' :: r) = some (.integer n, '\n' :: r) := by
  obtain ⟨negative, k, hvalue, htext⟩ := toString_int n
  rw [htext, readNumberOrMoment_decimal, hvalue, integer?, if_pos ⟨hmin, hmax⟩]
  rfl

end Gamewire.Toml
