import Gamewire.Proofs.Client.Rewriting
import Gamewire.Proofs.Text.Joints

/-! What is left of a page when the blocks of a name are taken out. A page is cut at its blocks and the
pieces are put together without another look at the joints, so a begin marker that no piece has can come
about across a joint. Exactly then the page is not left as it is when the blocks are taken out again. On
a page with all begin markers at the beginning of their lines this does not happen. -/
namespace Gamewire.Client
set_option autoImplicit false

open Text

variable {b b' : BlockName} {page rest before after x : List Char} {pieces : List (List Char)}

/-! ## What is cut off at a block -/

theorem prefix_dropIndent (head : List Char) : dropIndent head <+: head := by
  unfold dropIndent
  split
  · rw [← List.reverse_suffix, List.reverse_reverse]
    exact List.dropWhile_suffix _
  · exact List.prefix_rfl

theorem suffix_dropNewline (tail : List Char) : dropNewline tail <:+ tail := by
  unfold dropNewline
  split
  · exact List.suffix_append ['\r', '\n'] _
  · exact List.suffix_cons '\n' _
  · exact List.suffix_rfl

/-- What stays around a block is less than what was there. -/
theorem length_around_block {head inner content tail : List Char}
    (hopen : cutFirst? b.beginMarker page = some (head, inner))
    (hclose : cutFirst? b.endMarker inner = some (content, tail)) :
    (dropIndent head).length + (dropNewline tail).length < page.length := by
  have hhead := (prefix_dropIndent head).length_le
  have hdrop := dropNewline_length tail
  have hpage := congrArg List.length (cutFirst?_eq hopen)
  have hinner := cutFirst?_length hclose b.endMarker_ne_nil
  rw [List.length_append, List.length_append] at hpage
  omega

/-! ## Pieces that stay -/

/-- What stays of a page: the pieces in front of its blocks, and the rest that has no block. -/
inductive Kept (b : BlockName) : List Char → List (List Char) → Prop
  | rest {page : List Char} (clean : cutFirst? b.beginMarker page = none) : Kept b page [page]
  | piece {page head inner content tail : List Char} {pieces : List (List Char)}
      (opens : cutFirst? b.beginMarker page = some (head, inner))
      (closes : cutFirst? b.endMarker inner = some (content, tail))
      (more : Kept b (dropNewline tail) pieces) : Kept b page (dropIndent head :: pieces)

theorem strip_eq_some_iff :
    strip b page = some rest ↔ ∃ pieces, Kept b page pieces ∧ rest = pieces.flatten := by
  constructor
  · intro h
    induction page using strip.induct b generalizing rest with
    | case1 page hopen =>
      rw [strip_of_none hopen] at h
      cases h
      exact ⟨_, .rest hopen, List.flatten_singleton.symm⟩
    | case2 page head inner hopen hclose =>
      rw [strip_of_open hopen hclose] at h
      cases h
    | case3 page head inner hopen content tail hclose ih =>
      rw [strip_of_some hopen hclose, Option.map_eq_some_iff] at h
      obtain ⟨left, hleft, rfl⟩ := h
      obtain ⟨pieces, hpieces, rfl⟩ := ih hleft
      exact ⟨_, .piece hopen hclose hpieces, List.flatten_cons.symm⟩
  · rintro ⟨pieces, hkept, rfl⟩
    induction hkept with
    | rest hclean => rw [strip_of_none hclean, List.flatten_singleton]
    | piece hopen hclose _ ih => rw [strip_of_some hopen hclose, ih, Option.map_some, List.flatten_cons]

namespace Kept

theorem clean (h : Kept b page pieces) : ∀ piece ∈ pieces, ¬ b.beginMarker <:+: piece := by
  induction h with
  | rest hclean => exact List.forall_mem_singleton.mpr (not_infix_of_cutFirst?_eq_none hclean)
  | piece hopen _ _ ih =>
    refine List.forall_mem_cons.mpr ⟨fun hmem => ?_, ih⟩
    exact not_infix_of_cutFirst? b.beginMarker_ne_nil hopen (hmem.trans (prefix_dropIndent _).isInfix)

theorem length_le (h : Kept b page pieces) : pieces.flatten.length ≤ page.length := by
  induction h with
  | rest _ => rw [List.flatten_singleton]
  | piece hopen hclose _ ih =>
    have hless := length_around_block hopen hclose
    rw [List.flatten_cons, List.length_append]
    omega

/-- Where there was a block there is less left. -/
theorem length_lt (h : Kept b page pieces) (hmem : b.beginMarker <:+: page) :
    pieces.flatten.length < page.length := by
  cases h with
  | rest hclean => exact absurd hmem (not_infix_of_cutFirst?_eq_none hclean)
  | piece hopen hclose hmore =>
    have hrest := hmore.length_le
    have hless := length_around_block hopen hclose
    rw [List.flatten_cons, List.length_append]
    omega

end Kept

/-- Taking out leaves a page as it is only if there is no begin marker in it. -/
theorem strip_eq_self_iff : strip b page = some page ↔ ¬ b.beginMarker <:+: page := by
  constructor
  · intro h hmem
    obtain ⟨pieces, hkept, hpage⟩ := strip_eq_some_iff.mp h
    have hless := hkept.length_lt hmem
    rw [← hpage] at hless
    exact Nat.lt_irrefl _ hless
  · exact fun h => strip_of_none (cutFirst?_eq_none h)

/-! ## Begin markers at the beginning of lines -/

/-- Only blanks stand between the beginning of the last line of a text and its end. -/
def LineStart (text : List Char) : Prop :=
  (text.reverse.takeWhile (· != '\n')).all (fun c => c == ' ' || c == '\t') = true

instance (text : List Char) : Decidable (LineStart text) := inferInstanceAs (Decidable (_ = true))

theorem LineStart.append (hbefore : endLine before = before) (h : LineStart after) :
    LineStart (before ++ after) := by
  obtain ⟨rfl, -⟩ | ⟨line, rfl, -⟩ | hend := endLine_cases before
  · exact h
  · have hreverse : ((line ++ ['\n']) ++ after).reverse = after.reverse ++ '\n' :: line.reverse := by
      simp
    rw [LineStart, hreverse, takeWhile_append_cons (by rfl)]
    exact h
  · rw [hend] at hbefore
    simp at hbefore

theorem LineStart.of_append (h : LineStart (before ++ after)) : LineStart after := by
  rw [LineStart, List.all_eq_true] at h ⊢
  intro c hc
  refine h c ?_
  rw [List.reverse_append, List.takeWhile_append]
  split
  · exact List.mem_append_left _ ((List.takeWhile_prefix _).subset hc)
  · exact hc

/-- A block at the beginning of its line leaves whole lines in front of it. -/
theorem LineStart.endLine_dropIndent {head : List Char} (h : LineStart head) :
    endLine (dropIndent head) = dropIndent head := by
  unfold LineStart at h
  rw [dropIndent, if_pos h]
  exact endLine_dropLine head

/-- Every begin marker of the name has nothing but blanks in front of it in its line. -/
def Lined (b : BlockName) (page : List Char) : Prop :=
  ∀ before after, page = before ++ (b.beginMarker ++ after) → LineStart before

theorem lined_iff : Lined b page ↔
    ∀ n < page.length + 1, b.beginMarker <+: page.drop n → LineStart (page.take n) := by
  constructor
  · rintro h n - ⟨after, hafter⟩
    exact h _ after (by rw [hafter, List.take_append_drop])
  · rintro h before after rfl
    have hstart := h before.length (by simp)
    rw [List.drop_left, List.take_left] at hstart
    exact hstart (List.prefix_append _ _)

instance (b : BlockName) (page : List Char) : Decidable (Lined b page) :=
  decidable_of_iff' _ lined_iff

theorem Lined.of_suffix (h : Lined b page) (hrest : rest <:+ page) : Lined b rest := by
  obtain ⟨front, rfl⟩ := hrest
  rintro before after rfl
  exact (h (front ++ before) after (List.append_assoc _ _ _).symm).of_append

theorem Kept.more_suffix {head inner content tail : List Char}
    (hopen : cutFirst? b.beginMarker page = some (head, inner))
    (hclose : cutFirst? b.endMarker inner = some (content, tail)) : dropNewline tail <:+ page := by
  refine (suffix_dropNewline tail).trans ?_
  rw [cutFirst?_eq hopen, cutFirst?_eq hclose]
  exact (List.suffix_append _ tail).trans (List.suffix_append _ _)

/-- What stands within a line of what is left stands in one of the pieces. So it stood in the page, and if
at the beginning of a line there, then still. -/
theorem Kept.source (hkept : Kept b page pieces) (hlined : Lined b page) (hx : '\n' ∉ x)
    (h : pieces.flatten = before ++ (x ++ after)) :
    (∃ piece ∈ pieces, x <:+: piece) ∧
      ∃ before' after', page = before' ++ (x ++ after') ∧ (LineStart before' → LineStart before) := by
  induction hkept generalizing before with
  | rest _ =>
    rw [List.flatten_singleton] at h
    refine ⟨⟨_, List.mem_singleton_self _, before, after, ?_⟩, before, after, h, id⟩
    rw [h, List.append_assoc]
  | @piece page head inner content tail pieces hopen hclose _ ih =>
    have hpage := cutFirst?_eq hopen
    rw [List.append_assoc] at hpage
    have hwhole := (hlined _ _ hpage).endLine_dropIndent
    rw [List.flatten_cons] at h
    obtain ⟨more, hhead⟩ | ⟨more, rfl, hmore⟩ := append_eq_of_line hx hwhole h
    · obtain ⟨indent, hindent⟩ := prefix_dropIndent head
      refine ⟨⟨_, List.mem_cons_self, before, more, ?_⟩,
        before, more ++ (indent ++ (b.beginMarker ++ inner)), ?_, id⟩
      · rw [hhead, List.append_assoc]
      · rw [hpage, ← hindent, hhead]
        simp only [List.append_assoc]
    · have hsuffix := more_suffix hopen hclose
      obtain ⟨⟨piece, hpiece, hmem⟩, before', after', hrest, hstart⟩ :=
        ih (hlined.of_suffix hsuffix) hmore
      obtain ⟨front, hfront⟩ := hsuffix
      refine ⟨⟨piece, List.mem_cons_of_mem _ hpiece, hmem⟩, front ++ before', after', ?_, fun hline => ?_⟩
      · rw [← hfront, hrest, List.append_assoc]
      · exact (hstart hline.of_append).append hwhole

namespace Lined

variable (hlined : Lined b page) (h : strip b page = some rest)

include hlined h

theorem not_infix_strip : ¬ b.beginMarker <:+: rest := by
  rintro ⟨before, after, hrest⟩
  obtain ⟨pieces, hkept, rfl⟩ := strip_eq_some_iff.mp h
  rw [List.append_assoc] at hrest
  obtain ⟨⟨piece, hpiece, hmem⟩, -⟩ := hkept.source hlined b.beginMarker_line hrest.symm
  exact hkept.clean piece hpiece hmem

theorem infix_of_strip (hx : '\n' ∉ x) (hmem : x <:+: rest) : x <:+: page := by
  obtain ⟨before, after, hrest⟩ := hmem
  obtain ⟨pieces, hkept, rfl⟩ := strip_eq_some_iff.mp h
  rw [List.append_assoc] at hrest
  obtain ⟨-, before', after', rfl, -⟩ := hkept.source hlined hx hrest.symm
  exact ⟨before', after', List.append_assoc _ _ _⟩

/-- The begin markers that are left are still at the beginning of their lines. -/
theorem lined_strip (h' : Lined b' page) : Lined b' rest := by
  obtain ⟨pieces, hkept, rfl⟩ := strip_eq_some_iff.mp h
  intro before after hrest
  obtain ⟨-, before', after', hpage, hstart⟩ := hkept.source hlined b'.beginMarker_line hrest
  exact hstart (h' before' after' hpage)

end Lined

/-! ## Both names -/

section Both

variable {names : List BlockName}

theorem stripAll_cons_ok_iff :
    stripAll (b :: names) page = .ok rest ↔
      ∃ between, strip b page = some between ∧ stripAll names between = .ok rest := by
  rw [stripAll]
  cases strip b page <;> simp

theorem length_strip_le (h : strip b page = some rest) : rest.length ≤ page.length := by
  obtain ⟨pieces, hkept, rfl⟩ := strip_eq_some_iff.mp h
  exact hkept.length_le

theorem length_stripAll_le (h : stripAll names page = .ok rest) : rest.length ≤ page.length := by
  induction names generalizing page with
  | nil =>
    cases h
    exact Nat.le_refl _
  | cons b names ih =>
    obtain ⟨between, hstrip, hrest⟩ := stripAll_cons_ok_iff.mp h
    exact (ih hrest).trans (length_strip_le hstrip)

theorem stripAll_eq_self_iff :
    stripAll names page = .ok page ↔ ∀ b ∈ names, ¬ b.beginMarker <:+: page := by
  induction names with
  | nil => exact iff_of_true rfl (List.forall_mem_nil _)
  | cons b names ih =>
    rw [List.forall_mem_cons, ← ih, ← strip_eq_self_iff, stripAll_cons_ok_iff]
    constructor
    · rintro ⟨between, hstrip, hrest⟩
      obtain ⟨pieces, hkept, rfl⟩ := strip_eq_some_iff.mp hstrip
      have hclean : ¬ b.beginMarker <:+: page := fun hmem =>
        absurd (length_stripAll_le hrest) (Nat.not_le_of_lt (hkept.length_lt hmem))
      have hself := strip_eq_self_iff.mpr hclean
      rw [hself, Option.some.injEq] at hstrip
      rw [← hstrip] at hrest
      exact ⟨hself, hrest⟩
    · exact fun ⟨hstrip, hrest⟩ => ⟨page, hstrip, hrest⟩

theorem infix_of_stripAll (hlined : ∀ b, Lined b page) (h : stripAll names page = .ok rest)
    (hx : '\n' ∉ x) (hmem : x <:+: rest) : x <:+: page := by
  induction names generalizing page with
  | nil =>
    cases h
    exact hmem
  | cons b names ih =>
    obtain ⟨between, hstrip, hrest⟩ := stripAll_cons_ok_iff.mp h
    exact (hlined b).infix_of_strip hstrip hx
      (ih (fun b' => (hlined b).lined_strip hstrip (hlined b')) hrest)

theorem not_infix_stripAll (hlined : ∀ b, Lined b page) (h : stripAll names page = .ok rest) :
    ∀ b ∈ names, ¬ b.beginMarker <:+: rest := by
  induction names generalizing page with
  | nil => exact List.forall_mem_nil _
  | cons b names ih =>
    obtain ⟨between, hstrip, hrest⟩ := stripAll_cons_ok_iff.mp h
    have hbetween : ∀ b', Lined b' between := fun b' => (hlined b).lined_strip hstrip (hlined b')
    refine List.forall_mem_cons.mpr ⟨fun hmem => ?_, ih hbetween hrest⟩
    exact (hlined b).not_infix_strip hstrip (infix_of_stripAll hbetween hrest b.beginMarker_line hmem)

end Both

/-! ## Runs that remove -/

variable {r : Run} {start after : Page}

/-- A remove takes out the blocks of both names and does nothing else. -/
theorem Run.next_of_remove (haction : (r.wishes.on start).action = .ok (some .remove)) :
    r.next start = (stripAll [.protocol, .debugger] start.content.toList).map fun rest =>
      ⟨start.name, String.ofList rest⟩ := by
  have hbundle : r.generate start =
      (applyAction (r.wishes.on start) (moduleText r.protocol) .remove start.content >>= fun content =>
        .ok ⟨Bundle.filesOf (r.wishes.on start) (moduleText r.protocol),
          some ⟨start.name, content⟩⟩) := by
    rw [generate, Bundle.generate, haction]
    rfl
  have hstripped : stripped .remove = [.protocol, .debugger] := rfl
  rw [next, hbundle, applyAction, hstripped]
  cases stripAll [.protocol, .debugger] start.content.toList <;> rfl

theorem Run.next_remove_iff (haction : (r.wishes.on start).action = .ok (some .remove)) :
    r.next start = .ok after ↔ after.name = start.name ∧
      stripAll [.protocol, .debugger] start.content.toList = .ok after.content.toList := by
  rw [next_of_remove haction]
  obtain ⟨name, content⟩ := after
  cases stripAll [.protocol, .debugger] start.content.toList with
  | error e => simp [Except.map]
  | ok rest =>
    simp only [Except.map, Except.ok.injEq, Page.mk.injEq]
    refine and_congr eq_comm ⟨?_, ?_⟩
    · rintro rfl
      exact String.toList_ofList.symm
    · rintro rfl
      exact String.ofList_toList

theorem Run.action_of_next (h : r.next start = .ok after) (hremove : r.wishes.remove = true)
    (page : Page) : (r.wishes.on page).action = .ok (some .remove) := by
  cases haction : (r.wishes.on start).action with
  | error e =>
    rw [next, generate, Bundle.generate, haction] at h
    cases h
  | ok action =>
    rw [← action_of_remove haction hremove]
    exact haction

/-- What is left when the blocks of a name are taken out stays as it is exactly if it has no begin marker,
and it has one only across a joint of the pieces. A remove of both names settles a page in the same way.
There are no such joints if all begin markers are at the beginning of their lines. -/
theorem removal_settles_iff (page : Page) :
    (∀ (b : BlockName) (rest : List Char), strip b page.content.toList = some rest →
      (strip b rest = some rest ↔ ¬ b.beginMarker <:+: rest) ∧
      (∃ pieces, Kept b page.content.toList pieces ∧ rest = pieces.flatten ∧
        (b.beginMarker <:+: rest ↔ ∃ left right, pieces = left ++ right ∧
          Across b.beginMarker left.flatten right.flatten)) ∧
      (Lined b page.content.toList → strip b rest = some rest)) ∧
    ∀ (r : Run) (after : Page), r.wishes.remove = true → r.next page = .ok after →
      (r.next after = .ok after ↔ ∀ b : BlockName, ¬ b.beginMarker <:+: after.content.toList) ∧
      ((∀ b, Lined b page.content.toList) → r.next after = .ok after) := by
  have hnames : ∀ b : BlockName, b ∈ [BlockName.protocol, .debugger] := by
    rintro (_ | _) <;> decide
  constructor
  · intro b rest h
    refine ⟨strip_eq_self_iff, ?_, fun hlined => strip_eq_self_iff.mpr (hlined.not_infix_strip h)⟩
    obtain ⟨pieces, hkept, rfl⟩ := strip_eq_some_iff.mp h
    exact ⟨pieces, hkept, rfl, infix_flatten_iff b.beginMarker_ne_nil hkept.clean⟩
  · intro r after hremove h
    have haction := Run.action_of_next h hremove
    obtain ⟨-, hstrip⟩ := (Run.next_remove_iff (haction page)).mp h
    have hsettled : r.next after = .ok after ↔
        ∀ b : BlockName, ¬ b.beginMarker <:+: after.content.toList := by
      rw [Run.next_remove_iff (haction after), and_iff_right rfl, stripAll_eq_self_iff]
      exact forall_congr' fun b => imp_iff_right (hnames b)
    exact ⟨hsettled, fun hlined => hsettled.mpr fun b => not_infix_stripAll hlined hstrip b (hnames b)⟩

/-- The first block of a page, of which the first begin marker and behind it the first end marker are
known. -/
theorem strip_block (head content tail : List Char)
    (hhead : cutFirst? b.beginMarker (head ++ b.beginMarker) = some (head, []))
    (hcontent : cutFirst? b.endMarker (content ++ b.endMarker) = some (content, [])) :
    strip b ((head ++ b.beginMarker) ++ ((content ++ b.endMarker) ++ tail)) =
      (strip b (dropNewline tail)).map (dropIndent head ++ ·) :=
  strip_of_some (cutFirst?_append hhead _) (cutFirst?_append hcontent tail)

/-- An indented block. -/
def indentedShell : Page :=
  ⟨"index.html", "<p>\n <!-- hnp:begin debugger -->x<!-- hnp:end debugger -->\n</p>"⟩

def paragraphShell : Page := ⟨"index.html", "<p>\n</p>"⟩

theorem indentedShell_strip :
    strip .debugger indentedShell.content.toList = some paragraphShell.content.toList := by
  have h := strip_block (b := .debugger) ['<', 'p', '>', '\n', ' '] ['x']
    ['\n', '<', '/', 'p', '>'] (by decide) (by decide)
  have hrest : strip .debugger ['<', '/', 'p', '>'] = some ['<', '/', 'p', '>'] :=
    strip_of_none (by decide)
  rw [indentedShell, paragraphShell, String.toList_ofList, String.toList_ofList]
  exact h.trans (congrArg _ hrest)

theorem indentedShell_next : removeRun.next indentedShell = .ok paragraphShell := by
  have hprotocol : strip .protocol indentedShell.content.toList = some indentedShell.content.toList := by
    rw [indentedShell, String.toList_ofList]
    exact strip_of_none (by decide)
  refine (Run.next_remove_iff rfl).mpr ⟨rfl, ?_⟩
  rw [stripAll_cons hprotocol, stripAll_cons indentedShell_strip]
  rfl

theorem removal_settles_indentedShell :
    strip .debugger indentedShell.content.toList = some paragraphShell.content.toList ∧
      (∀ b, Lined b indentedShell.content.toList) ∧
      strip .debugger paragraphShell.content.toList = some paragraphShell.content.toList ∧
      removeRun.next indentedShell = .ok paragraphShell ∧
      removeRun.next paragraphShell = .ok paragraphShell := by
  have hlined : ∀ b, Lined b indentedShell.content.toList := by
    rw [indentedShell, String.toList_ofList]
    rintro (_ | _) <;> decide +kernel
  obtain ⟨hstrip, hremove⟩ := removal_settles_iff indentedShell
  exact ⟨indentedShell_strip, hlined, (hstrip _ _ indentedShell_strip).2.2 (hlined .debugger),
    indentedShell_next, (hremove removeRun _ rfl indentedShell_next).2 hlined⟩

/-! ## Markers in two halves -/

/-- A begin marker with a block in its middle. -/
def halvedMarker : String :=
  "<!-- hnp:be<!-- hnp:begin protocol --><!-- hnp:end protocol -->gin protocol -->"

def halvedShell : Page := ⟨"index.html", halvedMarker ++ "<!-- hnp:end protocol -->"⟩

def joinedShell : Page := ⟨"index.html", "<!-- hnp:begin protocol --><!-- hnp:end protocol -->"⟩

/-- The same without an end. -/
def halvedStub : Page := ⟨"index.html", halvedMarker⟩

def joinedStub : Page := ⟨"index.html", "<!-- hnp:begin protocol -->"⟩

/-- The block in the middle goes, and the halves come together. -/
theorem strip_halvedMarker (tail : List Char)
    (h : cutFirst? (BlockName.beginMarker .protocol) ("gin protocol -->".toList ++ tail) = none) :
    strip .protocol (halvedMarker.toList ++ tail) =
      some ("<!-- hnp:begin protocol -->".toList ++ tail) := by
  have hblock := strip_block (b := .protocol) "<!-- hnp:be".toList [] ("gin protocol -->".toList ++ tail)
    (by decide) (by decide)
  have hrest : strip .protocol (dropNewline ("gin protocol -->".toList ++ tail)) =
      some ("gin protocol -->".toList ++ tail) := strip_of_none h
  rw [hrest] at hblock
  exact hblock

theorem halvedShell_strip :
    strip .protocol halvedShell.content.toList = some joinedShell.content.toList := by
  have h := strip_halvedMarker "<!-- hnp:end protocol -->".toList (by decide)
  rw [halvedShell, String.toList_append, h]
  rfl

theorem halvedStub_strip :
    strip .protocol halvedStub.content.toList = some joinedStub.content.toList := by
  have h := strip_halvedMarker [] (by decide)
  rw [List.append_nil] at h
  exact h

/-- The inner block goes, and the halves come together: a whole block is left, or a begin marker alone, on
which the next run fails. -/
theorem removal_joins_marker :
    strip .protocol halvedShell.content.toList = some joinedShell.content.toList ∧
      BlockName.beginMarker .protocol <:+: joinedShell.content.toList ∧
      strip .protocol joinedShell.content.toList ≠ some joinedShell.content.toList ∧
      removeRun.next halvedStub = .ok joinedStub ∧
      removeRun.next joinedStub = .error (.malformedHtml .protocol) := by
  have hmarker : BlockName.beginMarker .protocol <:+: joinedShell.content.toList := by decide
  refine ⟨halvedShell_strip, hmarker, mt strip_eq_self_iff.mp (not_not_intro hmarker), ?_, ?_⟩
  · have hdebugger : strip .debugger joinedStub.content.toList = some joinedStub.content.toList :=
      strip_of_none (by decide)
    refine (Run.next_remove_iff rfl).mpr ⟨rfl, ?_⟩
    rw [stripAll_cons halvedStub_strip, stripAll_cons hdebugger]
    rfl
  · have hcut : cutFirst? (BlockName.beginMarker .protocol) joinedStub.content.toList = some ([], []) := by
      decide
    have hopen : strip .protocol joinedStub.content.toList = none := strip_of_open hcut (by decide)
    rw [Run.next_of_remove rfl, stripAll, hopen]
    rfl

end Gamewire.Client
