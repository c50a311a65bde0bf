import Gamewire.Text.Search

/-! Searches in texts made of pieces. A piece in which nothing can begin that is looked for is passed
over, whatever comes behind it. That holds of a line without the pattern too: no pattern goes on behind
a newline. -/
namespace Gamewire.Text
set_option autoImplicit false

/-! ## Places where a pattern may begin -/

/-- Pattern and text agree as far as both go. -/
def Meets (pattern text : List Char) : Prop := pattern <+: text ∨ text <+: pattern

instance (pattern text : List Char) : Decidable (Meets pattern text) :=
  inferInstanceAs (Decidable (_ ∨ _))

theorem Meets.of_append {pattern text rest : List Char} (h : Meets pattern (text ++ rest)) :
    Meets pattern text := by
  obtain h | h := h
  · exact List.prefix_or_prefix_of_prefix h (List.prefix_append text rest)
  · exact .inr ((List.prefix_append text rest).trans h)

theorem Meets.of_prefix {short pattern text : List Char} (hshort : short <+: pattern)
    (h : Meets pattern text) : Meets short text := by
  obtain h | h := h
  · exact .inl (hshort.trans h)
  · exact List.prefix_or_prefix_of_prefix hshort h

/-- At no place of a text a pattern can begin, whatever comes behind the text. The text is read
through `f`. -/
def Silent (pattern : List Char) (f : Char → Char) : List Char → Prop
  | [] => True
  | c :: text => ¬ Meets pattern (f c :: text.map f) ∧ Silent pattern f text

instance decidableSilent (pattern : List Char) (f : Char → Char) :
    (text : List Char) → Decidable (Silent pattern f text)
  | [] => .isTrue trivial
  | _ :: text =>
    have := decidableSilent pattern f text
    inferInstanceAs (Decidable (_ ∧ _))

variable {pattern short : List Char} {f : Char → Char} {a b rest text before after : List Char}

theorem Silent.append (ha : Silent pattern f a) (hb : Silent pattern f b) :
    Silent pattern f (a ++ b) := by
  induction a with
  | nil => exact hb
  | cons c a ih =>
    rw [List.cons_append]
    refine ⟨fun h => ha.1 ?_, ih ha.2⟩
    rw [List.map_append, ← List.cons_append] at h
    exact h.of_append

theorem Silent.of_prefix (hshort : short <+: pattern) (h : Silent short f a) :
    Silent pattern f a := by
  induction a with
  | nil => trivial
  | cons c a ih => exact ⟨fun hmeets => h.1 (hmeets.of_prefix hshort), ih h.2⟩

/-- A text is silent if it has no character with which the pattern begins. -/
theorem silent_of_forall {c : Char} (h : ∀ x ∈ a, f x ≠ c) : Silent (c :: pattern) f a := by
  induction a with
  | nil => trivial
  | cons x a ih =>
    refine ⟨?_, ih fun y hy => h y (List.mem_cons_of_mem x hy)⟩
    rintro (hmeets | hmeets)
    · exact h x List.mem_cons_self (List.cons_prefix_cons.mp hmeets).1.symm
    · exact h x List.mem_cons_self (List.cons_prefix_cons.mp hmeets).1

theorem Silent.not_prefix (h : Silent pattern f a) (hne : pattern ≠ []) {y : List Char}
    (hy : y <:+ a) : ¬ pattern <+: y.map f := by
  induction a with
  | nil =>
    rw [List.suffix_nil.mp hy]
    exact fun hprefix => hne (List.prefix_nil.mp hprefix)
  | cons c a ih =>
    obtain rfl | hy := List.suffix_cons_iff.mp hy
    · exact fun hprefix => h.1 (.inl hprefix)
    · exact ih h.2 hy

/-- A line is silent if the pattern is nowhere in it. -/
theorem silent_line (hline : f '\n' ∉ pattern) (h : ¬ pattern <:+: a.map f) :
    Silent pattern f (a ++ ['\n']) := by
  have hfits : ∀ x : List Char, Meets pattern (x ++ [f '\n']) → pattern <+: x := by
    rintro x (hmeets | hmeets)
    · obtain hwhole | hbefore := List.prefix_concat_iff.mp hmeets
      · exact absurd (by rw [hwhole]; simp) hline
      · exact hbefore
    · exact absurd (hmeets.subset (by simp)) hline
  induction a with
  | nil => exact ⟨fun hmeets => h (hfits [] hmeets).isInfix, trivial⟩
  | cons c a ih =>
    rw [List.cons_append]
    refine ⟨fun hmeets => h ?_, ih fun hmem => h ?_⟩
    · rw [List.map_append] at hmeets
      exact (hfits (f c :: a.map f) hmeets).isInfix
    · exact hmem.trans (List.suffix_cons (f c) (a.map f)).isInfix

/-! ## The first place -/

theorem cutFirst?_self (hne : pattern ≠ []) (rest : List Char) :
    cutFirst? pattern (pattern ++ rest) = some ([], rest) := by
  cases pattern with
  | nil => exact absurd rfl hne
  | cons c cs =>
    rw [List.cons_append, cutFirst?, ← List.cons_append, if_pos, List.drop_left]
    exact List.isPrefixOf_iff_prefix.mpr (List.prefix_append _ _)

theorem Silent.cutFirst?_append (h : Silent pattern id a) (rest : List Char) :
    cutFirst? pattern (a ++ rest) = (cutFirst? pattern rest).map fun x => (a ++ x.1, x.2) := by
  induction a with
  | nil =>
    rw [List.nil_append]
    cases cutFirst? pattern rest <;> rfl
  | cons c a ih =>
    have hnot : pattern.isPrefixOf (c :: (a ++ rest)) = false := by
      rw [Bool.eq_false_iff]
      intro hprefix
      have hmeets : Meets pattern ((c :: a) ++ rest) := .inl (List.isPrefixOf_iff_prefix.mp hprefix)
      have hfirst := hmeets.of_append
      rw [← List.map_id (c :: a)] at hfirst
      exact h.1 hfirst
    rw [List.cons_append, cutFirst?, hnot, if_neg Bool.false_ne_true, ih h.2]
    cases cutFirst? pattern rest <;> rfl

theorem cutFirst?_eq_none (h : ¬ pattern <:+: text) : cutFirst? pattern text = none := by
  cases hcut : cutFirst? pattern text with
  | none => rfl
  | some x =>
    have htext := cutFirst?_eq hcut
    exact absurd ⟨x.1, x.2, htext.symm⟩ h

/-! ## The last place -/

variable {test : List Char → Bool}

theorem cutBeforeLast?_eq (h : cutBeforeLast? test text = some (before, after)) :
    text = before ++ after := by
  induction text generalizing before with
  | nil =>
    simp only [cutBeforeLast?] at h
    split at h
    · cases h
      rfl
    · cases h
  | cons c text ih =>
    simp only [cutBeforeLast?] at h
    split at h
    · rename_i b r hcut
      cases h
      rw [ih hcut, List.cons_append]
    · split at h
      · cases h
        rfl
      · cases h

theorem cutBeforeLast?_append (h : cutBeforeLast? test rest = some (before, after)) (a : List Char) :
    cutBeforeLast? test (a ++ rest) = some (a ++ before, after) := by
  induction a with
  | nil => exact h
  | cons c a ih => rw [List.cons_append, cutBeforeLast?, ih, List.cons_append]

/-- What is behind the cut begins with what was looked for, and has it nowhere else. -/
theorem cutBeforeLast?_after (h : cutBeforeLast? test text = some (before, after)) :
    cutBeforeLast? test after = some ([], after) := by
  induction text generalizing before with
  | nil =>
    have hnil := h
    simp only [cutBeforeLast?] at h
    split at h
    · cases h
      exact hnil
    · cases h
  | cons c text ih =>
    have hwhole := h
    simp only [cutBeforeLast?] at h
    split at h
    · rename_i b r hcut
      cases h
      exact ih hcut
    · split at h
      · cases h
        exact hwhole
      · cases h

theorem cutBeforeLast?_eq_none_iff :
    cutBeforeLast? test text = none ↔ ∀ y, y <:+ text → test y = false := by
  induction text with
  | nil =>
    simp only [cutBeforeLast?, ite_eq_right_iff, reduceCtorEq, imp_false, Bool.not_eq_true,
      List.suffix_nil, forall_eq]
  | cons c text ih =>
    constructor
    · intro h y hy
      simp only [cutBeforeLast?] at h
      split at h
      · cases h
      · rename_i hrest
        obtain rfl | hy := List.suffix_cons_iff.mp hy
        · simpa using h
        · exact ih.mp hrest y hy
    · intro h
      have hrest := ih.mpr fun y hy => h y (hy.trans (List.suffix_cons c text))
      rw [cutBeforeLast?, hrest, h _ (List.suffix_refl _)]
      rfl

/-! ## Whole lines -/

/-- A text is empty, or it is a line after all, or it becomes one. -/
theorem endLine_cases (text : List Char) : (text = [] ∧ endLine text = []) ∨
    (∃ line, text = line ++ ['\n'] ∧ endLine text = line ++ ['\n']) ∨
    endLine text = text ++ ['\n'] := by
  unfold endLine
  split
  · rename_i h
    obtain h | h := Bool.or_eq_true_iff.mp h
    · have hnil := List.isEmpty_iff.mp h
      exact .inl ⟨hnil, hnil⟩
    · obtain ⟨line, rfl⟩ := List.getLast?_eq_some_iff.mp (beq_iff_eq.mp h)
      exact .inr (.inl ⟨line, rfl, rfl⟩)
  · exact .inr (.inr rfl)

theorem endLine_line (line : List Char) : endLine (line ++ ['\n']) = line ++ ['\n'] := by
  unfold endLine
  rw [if_pos]
  simp

@[simp] theorem endLine_endLine (text : List Char) : endLine (endLine text) = endLine text := by
  obtain ⟨-, h⟩ | ⟨line, -, h⟩ | h := endLine_cases text
  · rw [h]
    rfl
  · rw [h, endLine_line]
  · rw [h, endLine_line]

/-- Lines behind lines are lines. -/
theorem endLine_append (ha : endLine a = a) (hb : endLine b = b) : endLine (a ++ b) = a ++ b := by
  obtain ⟨-, h⟩ | ⟨line, hline, -⟩ | h := endLine_cases b
  · rw [← hb, h, List.append_nil]
    exact ha
  · rw [hline, ← List.append_assoc, endLine_line]
  · rw [← hb, h, ← List.append_assoc, endLine_line]

theorem silent_endLine (hline : f '\n' ∉ pattern) (h : ¬ pattern <:+: text.map f) :
    Silent pattern f (endLine text) := by
  obtain ⟨-, hend⟩ | ⟨line, hwhole, hend⟩ | hend := endLine_cases text
  · rw [hend]
    trivial
  · rw [hend]
    refine silent_line hline fun hmem => h ?_
    rw [hwhole, List.map_append]
    exact hmem.trans (List.prefix_append _ _).isInfix
  · rw [hend]
    exact silent_line hline h

end Gamewire.Text
