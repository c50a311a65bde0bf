import Gamewire.Client.Shell
import Gamewire.Proofs.Text.Search

/-! Pages with blocks. Blocks are put in at one place of a page, on lines of their own, and are found
again there: taking out the blocks of a name leaves the page with the other blocks, and what is left of
a page without any is the page, with its line ended at that place. -/
namespace Gamewire.Client
set_option autoImplicit false

open Text

/-! ## Text that can stand in a block -/

def commentStart : List Char := ['<', '!', '-', '-']

def bodyEnd : List Char := ['<', '/', 'b', 'o', 'd', 'y', '>']

/-- No comment begins in the text and no body ends, whatever comes behind it. -/
structure Mild (text : List Char) : Prop where
  comment : Silent commentStart id text
  body : Silent bodyEnd lowerAscii text

instance (text : List Char) : Decidable (Mild text) :=
  decidable_of_iff (Silent commentStart id text ∧ Silent bodyEnd lowerAscii text)
    ⟨fun h => ⟨h.1, h.2⟩, fun h => ⟨h.comment, h.body⟩⟩

variable {a c page before rest : List Char} {b b' : BlockName}

theorem Mild.append (ha : Mild a) (hc : Mild c) : Mild (a ++ c) :=
  ⟨ha.comment.append hc.comment, ha.body.append hc.body⟩

theorem ofNat_ne {n : Nat} (hsmall : n < 128) (hn : n ≠ 60) : Char.ofNat n ≠ '<' := by
  have hnat : (Char.ofNat n).toNat = n := by
    rw [Char.ofNat, dif_pos (.inl (by omega))]
    rfl
  intro heq
  rw [heq] at hnat
  exact hn hnat.symm

theorem lowerAscii_ne {x : Char} (h : x ≠ '<') : lowerAscii x ≠ '<' := by
  unfold lowerAscii
  split
  · rename_i hupper
    have hrange : 65 ≤ x.toNat ∧ x.toNat ≤ 90 := hupper
    exact ofNat_ne (by omega) (by omega)
  · exact h

theorem mild_of_not_mem (h : '<' ∉ a) : Mild a :=
  ⟨silent_of_forall fun _ hx => ne_of_mem_of_not_mem hx h,
    silent_of_forall fun _ hx => lowerAscii_ne (ne_of_mem_of_not_mem hx h)⟩

theorem Mild.closeLine (h : Mild a) : Mild (closeLine a) := by
  unfold Text.closeLine
  split
  · exact h
  · exact h.append (mild_of_not_mem (by decide))

/-! ## Markers -/

namespace BlockName

/-- The beginning of every marker. -/
def markerStart : List Char := "<!-- hnp:".toList

theorem markerStart_prefix (b : BlockName) : markerStart <+: b.beginMarker := by
  cases b <;> decide

theorem commentStart_prefix_begin (b : BlockName) : commentStart <+: b.beginMarker := by
  cases b <;> decide

theorem commentStart_prefix_end (b : BlockName) : commentStart <+: b.endMarker := by
  cases b <;> decide

theorem beginMarker_line (b : BlockName) : id '\n' ∉ b.beginMarker := by
  cases b <;> decide

theorem beginMarker_silent (h : b ≠ b') : Silent b.beginMarker id b'.beginMarker := by
  cases b <;> cases b' <;> first | exact absurd rfl h | decide

theorem endMarker_silent (b b' : BlockName) : Silent b.beginMarker id b'.endMarker := by
  cases b <;> cases b' <;> decide

theorem beginMarker_body (b : BlockName) : Silent bodyEnd lowerAscii b.beginMarker := by
  cases b <;> decide

theorem endMarker_body (b : BlockName) : Silent bodyEnd lowerAscii b.endMarker := by
  cases b <;> decide

end BlockName

theorem Mild.silent_begin (h : Mild a) (b : BlockName) : Silent b.beginMarker id a :=
  h.comment.of_prefix b.commentStart_prefix_begin

theorem Mild.silent_end (h : Mild a) (b : BlockName) : Silent b.endMarker id a :=
  h.comment.of_prefix b.commentStart_prefix_end

/-- A page of which no part looks like a marker. -/
def Unmarked (page : List Char) : Prop := ¬ BlockName.markerStart <:+: page

theorem Unmarked.of_infix (h : Unmarked page) (hpart : a <:+: page) : Unmarked a :=
  fun hmem => h (hmem.trans hpart)

theorem Unmarked.no_marker (h : Unmarked page) (b : BlockName) : ¬ b.beginMarker <:+: page :=
  fun hmem => h (b.markerStart_prefix.isInfix.trans hmem)

/-! ## Blocks -/

theorem blockText_eq (b : BlockName) (content : List Char) :
    blockText b content = b.beginMarker ++ (['\n'] ++ closeLine content ++ (b.endMarker ++ ['\n'])) := by
  simp only [blockText, List.append_assoc, List.cons_append, List.nil_append]

theorem endLine_blockText (b : BlockName) (content : List Char) :
    endLine (blockText b content) = blockText b content := endLine_line _

/-- Blocks of other names are passed over. -/
theorem blockText_silent (h : b ≠ b') (hc : Mild c) : Silent b.beginMarker id (blockText b' c) := by
  have hlf : Mild ['\n'] := mild_of_not_mem (by decide)
  rw [blockText_eq]
  refine (BlockName.beginMarker_silent h).append ?_
  refine ((hlf.append hc.closeLine).silent_begin b).append ?_
  exact (BlockName.endMarker_silent b b').append (hlf.silent_begin b)

theorem blockText_body (b : BlockName) (hc : Mild c) :
    Silent bodyEnd lowerAscii (blockText b c) := by
  have hlf : Mild ['\n'] := mild_of_not_mem (by decide)
  rw [blockText_eq]
  exact b.beginMarker_body.append ((hlf.append hc.closeLine).body.append (b.endMarker_body.append hlf.body))

/-! ## Taking blocks out -/

theorem takeWhile_append_cons {α : Type} {p : α → Bool} {x : α} (hx : p x = false) (l m : List α) :
    (l ++ x :: m).takeWhile p = l.takeWhile p := by
  induction l with
  | nil => simp [hx]
  | cons y l ih =>
    rw [List.cons_append, List.takeWhile_cons, List.takeWhile_cons, ih]

theorem dropWhile_append_cons {α : Type} {p : α → Bool} {x : α} (hx : p x = false) (l m : List α) :
    (l ++ x :: m).dropWhile p = l.dropWhile p ++ x :: m := by
  induction l with
  | nil => simp [hx]
  | cons y l ih =>
    rw [List.cons_append, List.dropWhile_cons, List.dropWhile_cons, ih]
    split <;> rfl

/-- Indentation is looked for in the last line only. -/
theorem dropIndent_append (ha : endLine a = a) (head : List Char) :
    dropIndent (a ++ head) = a ++ dropIndent head := by
  have hline : ∀ line : List Char,
      dropIndent ((line ++ ['\n']) ++ head) = (line ++ ['\n']) ++ dropIndent head := by
    intro line
    have hlf : (fun c => c != '\n') '\n' = false := rfl
    have hreverse : ((line ++ ['\n']) ++ head).reverse =
        head.reverse ++ '\n' :: line.reverse := by simp
    rw [dropIndent, dropIndent, hreverse, takeWhile_append_cons (p := (· != '\n')) hlf,
      dropWhile_append_cons (p := (· != '\n')) hlf]
    split
    · simp
    · rfl
  obtain ⟨hnil, -⟩ | ⟨line, h, -⟩ | h := endLine_cases a
  · rw [hnil, List.nil_append, List.nil_append]
  · rw [h]
    exact hline line
  · rw [← ha, h]
    exact hline a

theorem strip_of_none (h : cutFirst? b.beginMarker page = none) : strip b page = some page := by
  rw [strip]
  split
  · rfl
  · rename_i hcut
    rw [h] at hcut
    cases hcut

/-- At a begin marker the end marker decides. -/
theorem strip_of_cut {head inner : List Char}
    (h : cutFirst? b.beginMarker page = some (head, inner)) :
    strip b page = (cutFirst? b.endMarker inner).bind fun x =>
      (strip b (dropNewline x.2)).map (dropIndent head ++ ·) := by
  rw [strip]
  split
  · rename_i hcut
    rw [h] at hcut
    cases hcut
  · rename_i hcut
    rw [h] at hcut
    cases hcut
    split
    · rename_i hend
      rw [hend, Option.bind_none]
    · rename_i hend
      rw [hend, Option.bind_some]

theorem strip_of_some {head inner block tail : List Char}
    (h : cutFirst? b.beginMarker page = some (head, inner))
    (hend : cutFirst? b.endMarker inner = some (block, tail)) :
    strip b page = (strip b (dropNewline tail)).map (dropIndent head ++ ·) := by
  rw [strip_of_cut h, hend, Option.bind_some]

theorem strip_of_open {head inner : List Char}
    (h : cutFirst? b.beginMarker page = some (head, inner))
    (hend : cutFirst? b.endMarker inner = none) : strip b page = none := by
  rw [strip_of_cut h, hend, Option.bind_none]

/-- Lines without a marker stay, whatever comes behind them. -/
theorem strip_append (ha : endLine a = a) (hs : Silent b.beginMarker id a) (rest : List Char) :
    strip b (a ++ rest) = (strip b rest).map (a ++ ·) := by
  have hcut := hs.cutFirst?_append rest
  cases hrest : cutFirst? b.beginMarker rest with
  | none =>
    rw [hrest] at hcut
    rw [strip_of_none hcut, strip_of_none hrest]
    rfl
  | some x =>
    obtain ⟨head, inner⟩ := x
    rw [hrest] at hcut
    rw [strip_of_cut hcut, strip_of_cut hrest]
    cases cutFirst? b.endMarker inner with
    | none => rfl
    | some y =>
      rw [Option.bind_some, Option.bind_some, Option.map_map, dropIndent_append ha]
      simp only [Function.comp_def, List.append_assoc]

/-- A block in front of a page is taken out, to the end of its last line. -/
theorem strip_blockText (hc : Mild c) (rest : List Char) :
    strip b (blockText b c ++ rest) = strip b rest := by
  have hlf : Mild ['\n'] := mild_of_not_mem (by decide)
  have hopen : cutFirst? b.beginMarker (blockText b c ++ rest) =
      some ([], (['\n'] ++ closeLine c) ++ (b.endMarker ++ ('\n' :: rest))) := by
    rw [blockText_eq, List.append_assoc, cutFirst?_self b.beginMarker_ne_nil]
    simp only [List.append_assoc, List.cons_append, List.nil_append]
  have hclose : cutFirst? b.endMarker ((['\n'] ++ closeLine c) ++ (b.endMarker ++ ('\n' :: rest))) =
      some (['\n'] ++ closeLine c, '\n' :: rest) := by
    rw [((hlf.append hc.closeLine).silent_end b).cutFirst?_append,
      cutFirst?_self b.endMarker_ne_nil, Option.map_some, List.append_nil]
  rw [strip_of_some hopen hclose]
  exact Option.map_id_apply

/-! ## Pages with blocks -/

/-- A page, cut where blocks are put in: in front of the last end of its body, or at its end. -/
def seam (page : List Char) : List Char × List Char :=
  (cutBeforeLast? startsBodyEnd page).getD (page, [])

/-- A page with blocks at its seam, each on lines of its own. -/
def withBlocks (page : List Char) (blocks : List (BlockName × List Char)) : List Char :=
  endLine (seam page).1 ++ (blocks.flatMap fun x => blockText x.1 x.2) ++ (seam page).2

theorem startsBodyEnd_iff {text : List Char} :
    startsBodyEnd text = true ↔ bodyEnd <+: text.map lowerAscii := by
  have hbody : "</body>".toList = bodyEnd := by decide
  rw [startsBodyEnd, hbody, List.isPrefixOf_iff_prefix, List.map_take, List.prefix_take_iff]
  exact and_iff_left (Nat.le_refl 7)

theorem seam_append (page : List Char) : (seam page).1 ++ (seam page).2 = page := by
  unfold seam
  cases hcut : cutBeforeLast? startsBodyEnd page with
  | none => exact List.append_nil page
  | some x => exact (cutBeforeLast?_eq hcut).symm

theorem insert_eq (b : BlockName) (content page : List Char) :
    insert b content page = endLine (seam page).1 ++ blockText b content ++ (seam page).2 := by
  unfold insert seam
  cases cutBeforeLast? startsBodyEnd page with
  | none => exact (List.append_nil _).symm
  | some x => rfl

variable {blocks : List (BlockName × List Char)}

theorem endLine_blocks (page : List Char) (blocks : List (BlockName × List Char)) :
    endLine (endLine (seam page).1 ++ blocks.flatMap fun x => blockText x.1 x.2) =
      endLine (seam page).1 ++ blocks.flatMap fun x => blockText x.1 x.2 := by
  refine endLine_append (endLine_endLine _) ?_
  induction blocks with
  | nil => rfl
  | cons x blocks ih =>
    rw [List.flatMap_cons]
    exact endLine_append (endLine_blockText x.1 x.2) ih

/-- The seam of a page stays where it is when blocks are put in. -/
theorem seam_withBlocks (page : List Char) (h : ∀ x ∈ blocks, Mild x.2) :
    seam (withBlocks page blocks) =
      (endLine (seam page).1 ++ blocks.flatMap (fun x => blockText x.1 x.2), (seam page).2) := by
  cases hcut : cutBeforeLast? startsBodyEnd page with
  | some x =>
    have hafter := cutBeforeLast?_append (cutBeforeLast?_after hcut)
      (endLine x.1 ++ blocks.flatMap fun x => blockText x.1 x.2)
    simp only [seam, withBlocks, hcut, Option.getD_some, hafter, List.append_nil]
  | none =>
    -- neither in the page nor in the blocks there is an end of a body
    have hpage : ¬ bodyEnd <:+: page.map lowerAscii := by
      rintro ⟨s, t, hst⟩
      obtain ⟨y, hy, hmap⟩ : ∃ y, y <:+ page ∧ y.map lowerAscii = bodyEnd ++ t := by
        refine ⟨page.drop s.length, List.drop_suffix _ _, ?_⟩
        rw [List.map_drop, ← hst, List.append_assoc, List.drop_left]
      have hnot := cutBeforeLast?_eq_none_iff.mp hcut y hy
      have hyes := startsBodyEnd_iff.mpr (hmap ▸ List.prefix_append bodyEnd t)
      rw [hyes] at hnot
      cases hnot
    have hsilent : Silent bodyEnd lowerAscii
        (endLine page ++ blocks.flatMap fun x => blockText x.1 x.2) := by
      refine (silent_endLine (by decide) hpage).append ?_
      clear hcut hpage
      induction blocks with
      | nil => trivial
      | cons x blocks ih =>
        rw [List.flatMap_cons]
        refine (blockText_body x.1 (h x List.mem_cons_self)).append ?_
        exact ih fun y hy => h y (List.mem_cons_of_mem x hy)
    have hnone : cutBeforeLast? startsBodyEnd
        (endLine page ++ blocks.flatMap fun x => blockText x.1 x.2) = none := by
      refine cutBeforeLast?_eq_none_iff.mpr fun y hy => Bool.eq_false_iff.mpr fun hyes => ?_
      exact hsilent.not_prefix (by decide) hy (startsBodyEnd_iff.mp hyes)
    simp only [seam, withBlocks, hcut, Option.getD_none, List.append_nil, hnone]

/-- A new block comes behind those that are there. -/
theorem insert_withBlocks (b : BlockName) (content page : List Char) (h : ∀ x ∈ blocks, Mild x.2) :
    insert b content (withBlocks page blocks) = withBlocks page (blocks ++ [(b, content)]) := by
  rw [insert_eq, seam_withBlocks page h, endLine_blocks, withBlocks, List.flatMap_append,
    List.flatMap_singleton, ← List.append_assoc]

theorem insert_eq_withBlocks (b : BlockName) (content page : List Char) :
    insert b content page = withBlocks page [(b, content)] := by
  rw [insert_eq, withBlocks, List.flatMap_singleton]

theorem strip_of_unmarked (h : Unmarked page) (b : BlockName) : strip b page = some page :=
  strip_of_none (cutFirst?_eq_none (h.no_marker b))

theorem strip_blocks (h : ∀ x ∈ blocks, Mild x.2) (hrest : Unmarked rest) (b : BlockName) :
    strip b ((blocks.flatMap fun x => blockText x.1 x.2) ++ rest) =
      some (((blocks.filter (·.1 != b)).flatMap fun x => blockText x.1 x.2) ++ rest) := by
  induction blocks with
  | nil => exact strip_of_unmarked hrest b
  | cons x blocks ih =>
    have hx := h x List.mem_cons_self
    have hblocks := ih fun y hy => h y (List.mem_cons_of_mem x hy)
    rw [List.flatMap_cons, List.append_assoc]
    by_cases hb : x.1 = b
    · subst hb
      rw [strip_blockText hx, hblocks, List.filter_cons_of_neg (by simp)]
    · have hkept : (x :: blocks).filter (·.1 != b) = x :: blocks.filter (·.1 != b) :=
        List.filter_cons_of_pos (by simpa using hb)
      rw [strip_append (endLine_blockText x.1 x.2) (blockText_silent (Ne.symm hb) hx), hblocks,
        hkept, List.flatMap_cons, List.append_assoc, Option.map_some]

/-- Taking out the blocks of a name leaves the page with all others. -/
theorem strip_withBlocks (hpage : Unmarked page) (h : ∀ x ∈ blocks, Mild x.2) (b : BlockName) :
    strip b (withBlocks page blocks) = some (withBlocks page (blocks.filter (·.1 != b))) := by
  have hpieces := seam_append page
  have hbefore : Unmarked (seam page).1 := hpage.of_infix ⟨[], (seam page).2, hpieces⟩
  have hafter : Unmarked (seam page).2 :=
    hpage.of_infix ⟨(seam page).1, [], (List.append_nil _).trans hpieces⟩
  have hsilent : Silent b.beginMarker id (endLine (seam page).1) :=
    silent_endLine b.beginMarker_line ((List.map_id (seam page).1).symm ▸ hbefore.no_marker b)
  rw [withBlocks, List.append_assoc, strip_append (endLine_endLine _) hsilent,
    strip_blocks h hafter, Option.map_some, withBlocks, List.append_assoc]

end Gamewire.Client
