import Gamewire.Text.Blank
import Gamewire.Text.Numeral
import Mathlib.Data.List.DropRight

/-! Words of a text: what is left of it when the blanks at both ends are dropped, and the decimal numerals
with the numbers that they denote. Every number is denoted by its digits. -/
namespace Gamewire.Text
set_option autoImplicit false

/-! ## Blanks around a text -/

/-- Blanks and nothing else. -/
def Blanks (cs : List Char) : Prop := ∀ c ∈ cs, isBlank c = true

/-- Neither end is a blank. -/
structure Tight (cs : List Char) : Prop where
  starts : ∀ c ∈ cs.head?, isBlank c = false
  ends : ∀ c ∈ cs.getLast?, isBlank c = false

variable {cs lead core trail : List Char}

theorem tight_of_forall (h : ∀ c ∈ cs, isBlank c = false) : Tight cs :=
  ⟨fun c hc => h c (List.mem_of_mem_head? hc), fun c hc => h c (List.mem_of_mem_getLast? hc)⟩

theorem trimChars_eq (cs : List Char) :
    trimChars cs = (cs.dropWhile isBlank).rdropWhile isBlank := rfl

theorem tight_trimChars (cs : List Char) : Tight (trimChars cs) := by
  rw [trimChars_eq]
  constructor
  · intro c hc
    obtain ⟨trail, htrail⟩ := List.rdropWhile_prefix isBlank (l := cs.dropWhile isBlank)
    have hfirst := List.head?_dropWhile_not isBlank cs
    rw [← htrail, List.head?_append, hc] at hfirst
    exact hfirst
  · intro c hc
    obtain ⟨hne, rfl⟩ := List.mem_getLast?_eq_getLast hc
    exact Bool.eq_false_iff.mpr (List.rdropWhile_last_not isBlank _ hne)

theorem exists_trimChars (cs : List Char) :
    ∃ lead trail, Blanks lead ∧ Blanks trail ∧ cs = lead ++ trimChars cs ++ trail := by
  refine ⟨cs.takeWhile isBlank, (cs.dropWhile isBlank).rtakeWhile isBlank, ?_, ?_, ?_⟩
  · exact fun c hc => List.mem_takeWhile_imp hc
  · exact fun c hc => List.mem_rtakeWhile_imp hc
  · rw [trimChars_eq, List.append_assoc, List.rdropWhile_append_rtakeWhile,
      List.takeWhile_append_dropWhile]

theorem trimChars_of_tight (hlead : Blanks lead) (hcore : Tight core) (htrail : Blanks trail) :
    trimChars (lead ++ core ++ trail) = core := by
  rw [trimChars_eq, List.append_assoc, List.dropWhile_append_of_pos hlead]
  cases core with
  | nil =>
    rw [List.nil_append, List.dropWhile_eq_nil_iff.mpr htrail, List.rdropWhile_nil]
  | cons c core =>
    have hfirst : ¬ isBlank c = true := Bool.eq_false_iff.mp (hcore.starts c rfl)
    have hlast : ∀ hne, ¬ isBlank ((c :: core).getLast hne) = true := fun hne =>
      Bool.eq_false_iff.mp (hcore.ends _ (List.getLast?_eq_getLast_of_ne_nil hne))
    rw [List.cons_append, List.dropWhile_cons_of_neg hfirst, ← List.cons_append, List.rdropWhile,
      List.reverse_append,
      List.dropWhile_append_of_pos fun c hc => htrail c (List.mem_reverse.mp hc)]
    exact List.rdropWhile_eq_self_iff.mpr hlast

/-- Of a text the blanks at both ends are dropped, and nothing else is. -/
theorem trim_eq_iff {s t : String} : trim s = t ↔ Tight t.toList ∧
    ∃ lead trail, Blanks lead ∧ Blanks trail ∧ s.toList = lead ++ t.toList ++ trail := by
  constructor
  · rintro rfl
    rw [trim, String.toList_ofList]
    exact ⟨tight_trimChars _, exists_trimChars _⟩
  · rintro ⟨htight, lead, trail, hlead, htrail, hs⟩
    rw [trim, hs, trimChars_of_tight hlead htight htrail, String.ofList_toList]

/-- Nothing is left of blanks alone. -/
theorem trimChars_eq_nil_iff : trimChars cs = [] ↔ Blanks cs := by
  constructor
  · intro h
    obtain ⟨lead, trail, hlead, htrail, hcs⟩ := exists_trimChars cs
    rw [h, List.append_nil] at hcs
    rw [hcs]
    exact List.forall_mem_append.mpr ⟨hlead, htrail⟩
  · intro h
    exact List.rdropWhile_eq_nil_iff.mpr fun c hc => h c ((List.dropWhile_sublist isBlank).subset hc)

theorem trim_eq_empty_iff {s : String} : trim s = "" ↔ Blanks s.toList := by
  rw [← trimChars_eq_nil_iff, ← String.toList_inj, trim, String.toList_ofList]
  rfl

/-! ## Numerals -/

/-- A decimal numeral, with one plus sign or none before its digits, and the number that it denotes. -/
inductive Denotes : List Char → Nat → Prop
  | plain {digits : List Char} (written : digits ≠ []) (all : ∀ c ∈ digits, isDigit c = true) :
      Denotes digits (Nat.ofDigitChars 10 digits 0)
  | signed {digits : List Char} (written : digits ≠ []) (all : ∀ c ∈ digits, isDigit c = true) :
      Denotes ('+' :: digits) (Nat.ofDigitChars 10 digits 0)

theorem digitValue?_iff {c : Char} {v : Nat} :
    digitValue? 10 c = some v ↔ isDigit c = true ∧ c.toNat - '0'.toNat = v := by
  rw [digitValue?, isDigit, Bool.and_eq_true, decide_eq_true_iff, decide_eq_true_iff]
  by_cases hdigit : '0' ≤ c ∧ c ≤ '9'
  · have hnine : c.toNat ≤ 57 := hdigit.2
    have hvalue : c.toNat - 48 < 10 := by omega
    simp only [if_pos hdigit, if_pos hvalue, Option.some.injEq]
    exact (and_iff_right hdigit).symm
  · refine iff_of_false ?_ fun h => hdigit h.1
    -- a letter stands for ten at least
    by_cases hlower : 'a' ≤ c ∧ c ≤ 'f'
    · have ha : 97 ≤ c.toNat := hlower.1
      have hvalue : ¬ c.toNat - 87 < 10 := by omega
      simp [hdigit, hlower, hvalue]
    by_cases hupper : 'A' ≤ c ∧ c ≤ 'F'
    · have hA : 65 ≤ c.toNat := hupper.1
      have hvalue : ¬ c.toNat - 55 < 10 := by omega
      simp [hdigit, hlower, hupper, hvalue]
    simp [hdigit, hlower, hupper]

theorem digitsFrom?_iff {acc n : Nat} : digitsFrom? 10 acc cs = some n ↔
    (∀ c ∈ cs, isDigit c = true) ∧ Nat.ofDigitChars 10 cs acc = n := by
  induction cs generalizing acc with
  | nil => simp [digitsFrom?]
  | cons c cs ih =>
    rw [digitsFrom?, List.forall_mem_cons, Nat.ofDigitChars_cons]
    cases hv : digitValue? 10 c with
    | none =>
      refine iff_of_false (Option.some_ne_none n).symm ?_
      rintro ⟨⟨hdigit, -⟩, -⟩
      rw [digitValue?_iff.mpr ⟨hdigit, rfl⟩] at hv
      cases hv
    | some v =>
      obtain ⟨hdigit, rfl⟩ := digitValue?_iff.mp hv
      simp only [ih, hdigit, true_and, Nat.mul_comm]

theorem numeral?_iff {n : Nat} : numeral? 10 cs = some n ↔
    cs ≠ [] ∧ (∀ c ∈ cs, isDigit c = true) ∧ Nat.ofDigitChars 10 cs 0 = n := by
  cases cs with
  | nil => exact iff_of_false (Option.some_ne_none n).symm fun h => h.1 rfl
  | cons c cs =>
    rw [numeral?, List.isEmpty_cons, if_neg Bool.false_ne_true, digitsFrom?_iff]
    exact (and_iff_right (List.cons_ne_nil c cs)).symm

theorem unsigned?_iff {n : Nat} : unsigned? cs = some n ↔ Denotes cs n := by
  unfold unsigned?
  split
  · rename_i digits
    rw [numeral?_iff]
    constructor
    · rintro ⟨hwritten, hall, rfl⟩
      exact .signed hwritten hall
    · intro h
      cases h with
      | plain _ hall => cases hall '+' List.mem_cons_self
      | signed hwritten hall => exact ⟨hwritten, hall, rfl⟩
  · rename_i hunsigned
    rw [numeral?_iff]
    constructor
    · rintro ⟨hwritten, hall, rfl⟩
      exact .plain hwritten hall
    · intro h
      cases h with
      | plain hwritten hall => exact ⟨hwritten, hall, rfl⟩
      | signed => exact absurd rfl (hunsigned _)

theorem Denotes.tight {n : Nat} (h : Denotes cs n) : Tight cs := by
  have hdigit : ∀ c, isDigit c = true → isBlank c = false := by
    intro c hc
    obtain ⟨hzero, hnine⟩ := Bool.and_eq_true_iff.mp hc
    have hlow : 48 ≤ c.toNat := of_decide_eq_true hzero
    have hhigh : c.toNat ≤ 57 := of_decide_eq_true hnine
    simp only [isBlank, Bool.or_eq_false_iff, Bool.and_eq_false_iff, decide_eq_false_iff_not,
      beq_eq_false_iff_ne]
    omega
  cases h with
  | plain _ hall => exact tight_of_forall fun c hc => hdigit c (hall c hc)
  | signed _ hall =>
    exact tight_of_forall (List.forall_mem_cons.mpr ⟨rfl, fun c hc => hdigit c (hall c hc)⟩)

/-! ## Decimal digits of a number -/

theorem isDigit_of_mem_decimal {n : Nat} {c : Char} (hc : c ∈ Nat.toDigits 10 n) : c.isDigit :=
  Nat.isDigit_of_mem_toDigits (by omega) (le_refl 10) hc

theorem numeral?_toDigits (n : Nat) : numeral? 10 (Nat.toDigits 10 n) = some n :=
  numeral?_iff.mpr
    ⟨Nat.toDigits_ne_nil, fun _ hc => isDigit_of_mem_decimal hc, Nat.ofDigitChars_ten_toDigits⟩

theorem denotes_toDigits (n : Nat) : Denotes (Nat.toDigits 10 n) n := by
  obtain ⟨hwritten, hall, hvalue⟩ := numeral?_iff.mp (numeral?_toDigits n)
  have hdenotes := Denotes.plain hwritten hall
  rwa [hvalue] at hdenotes

end Gamewire.Text
