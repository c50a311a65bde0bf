/-! Looking for a text inside another one. -/
namespace Gamewire.Text
set_option autoImplicit false

/-- Cuts a text at the first place where `pattern` stands: what is before it and what is after. -/
def cutFirst? (pattern : List Char) : List Char → Option (List Char × List Char)
  | [] => if pattern.isEmpty then some ([], []) else none
  | c :: cs =>
    if pattern.isPrefixOf (c :: cs) then some ([], (c :: cs).drop pattern.length)
    else
      match cutFirst? pattern cs with
      | some (before, after) => some (c :: before, after)
      | none => none

/-- The pieces and the pattern make up the text. -/
theorem cutFirst?_eq {pattern text before after : List Char}
    (h : cutFirst? pattern text = some (before, after)) : text = before ++ pattern ++ after := by
  induction text generalizing before with
  | nil =>
    simp only [cutFirst?] at h
    split at h
    · next he => simp_all
    · simp at h
  | cons c cs ih =>
    simp only [cutFirst?] at h
    split at h
    · next hp =>
      obtain ⟨rest, hrest⟩ := List.isPrefixOf_iff_prefix.1 hp
      simp only [Option.some.injEq, Prod.mk.injEq] at h
      obtain ⟨rfl, rfl⟩ := h
      simp [← hrest]
    · split at h
      · next b a hcut =>
        simp only [Option.some.injEq, Prod.mk.injEq] at h
        obtain ⟨rfl, rfl⟩ := h
        simp [ih hcut]
      · simp at h

theorem cutFirst?_length {pattern text before after : List Char}
    (h : cutFirst? pattern text = some (before, after)) (hp : pattern ≠ []) :
    after.length < text.length := by
  have hlen := congrArg List.length (cutFirst?_eq h)
  have hpos := List.length_pos_iff.2 hp
  simp only [List.length_append] at hlen
  omega

/-- Cuts a text in front of the last place where a test on the rest of the text holds. -/
def cutBeforeLast? (test : List Char → Bool) : List Char → Option (List Char × List Char)
  | [] => if test [] then some ([], []) else none
  | c :: cs =>
    match cutBeforeLast? test cs with
    | some (before, rest) => some (c :: before, rest)
    | none => if test (c :: cs) then some ([], c :: cs) else none

/-- Adds a newline unless the text ends in one. -/
def closeLine (cs : List Char) : List Char :=
  if cs.getLast? == some '\n' then cs else cs ++ ['\n']

/-- Adds a newline unless the text is empty or ends in one. -/
def endLine (cs : List Char) : List Char :=
  if cs.isEmpty || cs.getLast? == some '\n' then cs else cs ++ ['\n']

end Gamewire.Text
