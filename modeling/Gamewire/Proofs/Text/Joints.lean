import Gamewire.Proofs.Text.Search

/-! Texts that are put together of pieces. Something that is in no piece can still stand across a joint,
but not if it stands within one line and every piece in front of a joint is whole lines. -/
namespace Gamewire.Text
set_option autoImplicit false

variable {x a c pattern text before after : List Char}

/-! ## In front of the first place -/

theorem not_infix_of_cutFirst? (hne : pattern ≠ [])
    (h : cutFirst? pattern text = some (before, after)) : ¬ pattern <:+: before := by
  induction text generalizing before with
  | nil =>
    simp only [cutFirst?, List.isEmpty_iff, if_neg hne, reduceCtorEq] at h
  | cons y text ih =>
    simp only [cutFirst?] at h
    split at h
    · cases h
      exact fun hmem => hne (List.infix_nil.mp hmem)
    · rename_i hnot
      split at h
      · rename_i b r hcut
        cases h
        intro hmem
        obtain hfirst | hlater := List.infix_cons_iff.mp hmem
        · have htext : y :: text = (y :: b) ++ (pattern ++ after) := by
            rw [cutFirst?_eq hcut, List.append_assoc, List.cons_append]
          refine hnot (List.isPrefixOf_iff_prefix.mpr ?_)
          rw [htext]
          exact hfirst.trans (List.prefix_append _ _)
        · exact ih hcut hlater
      · cases h

theorem not_infix_of_cutFirst?_eq_none (h : cutFirst? pattern text = none) :
    ¬ pattern <:+: text := by
  induction text with
  | nil =>
    simp only [cutFirst?] at h
    split at h
    · cases h
    · rename_i hne
      exact fun hmem => hne (List.isEmpty_iff.mpr (List.infix_nil.mp hmem))
  | cons y text ih =>
    simp only [cutFirst?] at h
    split at h
    · cases h
    · rename_i hnot
      split at h
      · cases h
      · rename_i hcut
        intro hmem
        obtain hfirst | hlater := List.infix_cons_iff.mp hmem
        · exact hnot (List.isPrefixOf_iff_prefix.mpr hfirst)
        · exact ih hcut hlater

/-- The first place stays the first when more comes behind. -/
theorem cutFirst?_append (h : cutFirst? pattern text = some (before, after)) (rest : List Char) :
    cutFirst? pattern (text ++ rest) = some (before, after ++ rest) := by
  induction text generalizing before with
  | nil =>
    simp only [cutFirst?] at h
    split at h
    · rename_i hnil
      cases h
      obtain rfl := List.isEmpty_iff.mp hnil
      cases rest <;> rfl
    · cases h
  | cons y text ih =>
    rw [List.cons_append, cutFirst?]
    simp only [cutFirst?] at h
    split at h
    · rename_i hfirst
      have hprefix := List.isPrefixOf_iff_prefix.mp hfirst
      have hmore : pattern <+: y :: (text ++ rest) := hprefix.trans (List.prefix_append _ rest)
      cases h
      rw [if_pos (List.isPrefixOf_iff_prefix.mpr hmore), ← List.cons_append,
        List.drop_append_of_le_length hprefix.length_le]
    · rename_i hnot
      split at h
      · rename_i b r hcut
        cases h
        have hmore : ¬ pattern.isPrefixOf (y :: (text ++ rest)) = true := by
          intro hfirst
          refine hnot (List.isPrefixOf_iff_prefix.mpr ?_)
          refine List.prefix_of_prefix_length_le (List.isPrefixOf_iff_prefix.mp hfirst)
            (List.prefix_append (y :: text) rest) ?_
          -- the place that was found has room for the pattern
          have hlength := congrArg List.length (cutFirst?_eq hcut)
          simp only [List.length_append, List.length_cons] at hlength ⊢
          omega
        rw [if_neg hmore, ih hcut]
      · cases h

/-! ## Across joints -/

/-- The text begins at the end of `a` and goes on at the beginning of `c`. -/
def Across (x a c : List Char) : Prop := ∃ u v, u ≠ [] ∧ v ≠ [] ∧ x = u ++ v ∧ u <:+ a ∧ v <+: c

theorem infix_append_across_iff : x <:+: a ++ c ↔ x <:+: a ∨ x <:+: c ∨ Across x a c := by
  rw [List.infix_append_iff]
  constructor
  · rintro (h | h | ⟨u, v, rfl, hu, hv⟩)
    · exact .inl h
    · exact .inr (.inl h)
    · cases u with
      | nil => exact .inr (.inl hv.isInfix)
      | cons y u =>
        cases v with
        | nil =>
          rw [List.append_nil]
          exact .inl hu.isInfix
        | cons z v =>
          exact .inr (.inr ⟨_, _, List.cons_ne_nil y u, List.cons_ne_nil z v, rfl, hu, hv⟩)
  · rintro (h | h | ⟨u, v, -, -, hx, hu, hv⟩)
    · exact .inl h
    · exact .inr (.inl h)
    · exact .inr (.inr ⟨u, v, hx, hu, hv⟩)

/-- What is in no piece is in the whole only across a joint. -/
theorem infix_flatten_iff {pieces : List (List Char)} (hne : x ≠ [])
    (h : ∀ piece ∈ pieces, ¬ x <:+: piece) :
    x <:+: pieces.flatten ↔
      ∃ left right, pieces = left ++ right ∧ Across x left.flatten right.flatten := by
  constructor
  · intro hx
    induction pieces with
    | nil => exact absurd (List.infix_nil.mp hx) hne
    | cons piece pieces ih =>
      obtain ⟨hpiece, hpieces⟩ := List.forall_mem_cons.mp h
      rw [List.flatten_cons, infix_append_across_iff] at hx
      obtain hx | hx | hx := hx
      · exact absurd hx hpiece
      · obtain ⟨left, right, rfl, u, v, hu, hv, huv, hleft, hright⟩ := ih hpieces hx
        refine ⟨piece :: left, right, rfl, u, v, hu, hv, huv, ?_, hright⟩
        exact hleft.trans (List.suffix_append piece left.flatten)
      · refine ⟨[piece], pieces, rfl, ?_⟩
        rw [List.flatten_singleton]
        exact hx
  · rintro ⟨left, right, rfl, hacross⟩
    rw [List.flatten_append]
    exact infix_append_across_iff.mpr (.inr (.inr hacross))

/-! ## Lines -/

theorem endLine_eq_iff_last : endLine a = a ↔ a = [] ∨ a.getLast? = some '\n' := by
  unfold endLine
  cases a <;> simp

/-- The end of whole lines ends a line. -/
theorem endLine_of_append (h : endLine (a ++ c) = a ++ c) : endLine c = c := by
  rw [endLine_eq_iff_last] at h ⊢
  cases c with
  | nil => exact .inl rfl
  | cons y c =>
    have hlast := h.resolve_left (List.append_ne_nil_of_right_ne_nil a (List.cons_ne_nil y c))
    exact .inr (by simpa using hlast)

theorem mem_of_endLine (h : endLine a = a) (hne : a ≠ []) : '\n' ∈ a :=
  List.mem_of_getLast? ((endLine_eq_iff_last.mp h).resolve_left hne)

/-- What stands within a line stands on one side of the end of a line. -/
theorem append_eq_of_line (hline : '\n' ∉ x) (ha : endLine a = a)
    (h : a ++ c = before ++ (x ++ after)) :
    (∃ rest, a = before ++ (x ++ rest)) ∨ ∃ rest, before = a ++ rest ∧ c = rest ++ (x ++ after) := by
  obtain ⟨rest, hbefore, hc⟩ | ⟨start, rfl, hstart⟩ := List.append_eq_append_iff.mp h
  · exact .inr ⟨rest, hbefore, hc⟩
  · obtain ⟨rest, rfl, -⟩ | ⟨more, rfl, hc⟩ := List.append_eq_append_iff.mp hstart
    · exact .inl ⟨rest, rfl⟩
    · cases start with
      | nil => exact .inr ⟨[], by simp, by simpa using hc⟩
      | cons y start =>
        -- the lines would end within the text
        have hend : endLine (y :: start) = y :: start := endLine_of_append ha
        have hmem := mem_of_endLine hend (List.cons_ne_nil y start)
        exact absurd (List.mem_append_left more hmem) hline

/-- Up to its last newline a text is whole lines. -/
theorem endLine_dropLine (text : List Char) :
    endLine (text.reverse.dropWhile (· != '\n')).reverse =
      (text.reverse.dropWhile (· != '\n')).reverse := by
  rw [endLine_eq_iff_last, List.getLast?_reverse, List.reverse_eq_nil_iff]
  cases hrest : text.reverse.dropWhile (· != '\n') with
  | nil => exact .inl rfl
  | cons y rest =>
    have hy := List.head?_dropWhile_not (· != '\n') text.reverse
    rw [hrest] at hy
    exact .inr (congrArg some (by simpa using hy))

end Gamewire.Text
