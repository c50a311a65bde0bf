import Gamewire.Proofs.Client.Generated

/-! Runs of the generator on one page. A page without markers becomes, after any runs, that page with
blocks at its seam; what one run puts there takes the place of everything that runs before it put
there. -/
namespace Gamewire.Client
set_option autoImplicit false

open Text

/-! ## Pages with what was put in -/

/-- The page itself, or the page with blocks at its seam. -/
def Dressed (page after : List Char) : Prop :=
  after = page ∨ ∃ blocks, (∀ x ∈ blocks, Mild x.2) ∧ after = withBlocks page blocks

variable {page after : List Char} {blocks : List (BlockName × List Char)}
  {new : List (BlockName × String)}

def texts (new : List (BlockName × String)) : List (BlockName × List Char) :=
  new.map fun x => (x.1, x.2.toList)

theorem texts_mild (h : ∀ x ∈ new, Mild x.2.toList) : ∀ x ∈ texts new, Mild x.2 :=
  List.forall_mem_map.mpr h

theorem stripAll_cons {b : BlockName} {rest : List Char} (h : strip b page = some rest)
    (names : List BlockName) : stripAll (b :: names) page = stripAll names rest := by
  rw [stripAll, h]

theorem stripAll_unmarked (hpage : Unmarked page) (names : List BlockName) :
    stripAll names page = .ok page := by
  induction names with
  | nil => rfl
  | cons b names ih => rw [stripAll_cons (strip_of_unmarked hpage b), ih]

theorem stripAll_withBlocks (hpage : Unmarked page) (h : ∀ x ∈ blocks, Mild x.2)
    (names : List BlockName) :
    stripAll names (withBlocks page blocks) =
      .ok (withBlocks page (blocks.filter (·.1 ∉ names))) := by
  induction names generalizing blocks with
  | nil => simp [stripAll]
  | cons b names ih =>
    have hrest : ∀ x ∈ blocks.filter (·.1 != b), Mild x.2 := fun x hx => h x (List.mem_filter.mp hx).1
    have hboth : (blocks.filter (·.1 != b)).filter (·.1 ∉ names) =
        blocks.filter (·.1 ∉ b :: names) := by
      rw [List.filter_filter]
      refine List.filter_congr fun x _ => ?_
      by_cases hb : x.1 = b <;> simp [hb]
    rw [stripAll_cons (strip_withBlocks hpage h b), ih hrest, hboth]

theorem insertAll_withBlocks (h : ∀ x ∈ blocks, Mild x.2) (hnew : ∀ x ∈ new, Mild x.2.toList) :
    insertAll (withBlocks page blocks) new = withBlocks page (blocks ++ texts new) := by
  induction new generalizing blocks with
  | nil => rw [texts, List.map_nil, List.append_nil, insertAll, List.foldl_nil]
  | cons x new ih =>
    obtain ⟨hx, hnew⟩ := List.forall_mem_cons.mp hnew
    have hmore : ∀ y ∈ blocks ++ [(x.1, x.2.toList)], Mild y.2 :=
      List.forall_mem_append.mpr ⟨h, List.forall_mem_singleton.mpr hx⟩
    have hrest := ih hmore hnew
    rw [List.append_assoc] at hrest
    rw [insertAll, List.foldl_cons, insert_withBlocks x.1 x.2.toList page h]
    exact hrest

theorem insertAll_cons {x : BlockName × String} (h : ∀ y ∈ x :: new, Mild y.2.toList) :
    insertAll page (x :: new) = withBlocks page (texts (x :: new)) := by
  obtain ⟨hx, hnew⟩ := List.forall_mem_cons.mp h
  have hfirst : ∀ y ∈ [(x.1, x.2.toList)], Mild y.2 := List.forall_mem_singleton.mpr hx
  rw [insertAll, List.foldl_cons, insert_eq_withBlocks]
  exact insertAll_withBlocks hfirst hnew

theorem Dressed.insertAll (h : Dressed page after) (hnew : ∀ x ∈ new, Mild x.2.toList) :
    Dressed page (insertAll after new) := by
  obtain rfl | ⟨blocks, hblocks, rfl⟩ := h
  · cases new with
    | nil => exact .inl rfl
    | cons x new => exact .inr ⟨_, texts_mild hnew, insertAll_cons hnew⟩
  · refine .inr ⟨_, ?_, insertAll_withBlocks hblocks hnew⟩
    exact List.forall_mem_append.mpr ⟨hblocks, texts_mild hnew⟩

theorem Dressed.stripAll (hpage : Unmarked page) (h : Dressed page after) (names : List BlockName) :
    ∃ rest, stripAll names after = .ok rest ∧ Dressed page rest := by
  obtain rfl | ⟨blocks, hblocks, rfl⟩ := h
  · exact ⟨_, stripAll_unmarked hpage names, .inl rfl⟩
  · refine ⟨_, stripAll_withBlocks hpage hblocks names, .inr ⟨_, ?_, rfl⟩⟩
    exact fun x hx => hblocks x (List.mem_filter.mp hx).1

/-- Taking out the blocks of both names. -/
theorem stripAll_both (hpage : Unmarked page) (h : ∀ x ∈ blocks, Mild x.2) :
    stripAll [.protocol, .debugger] (withBlocks page blocks) = .ok (withBlocks page []) := by
  have hnone : blocks.filter (·.1 ∉ [BlockName.protocol, BlockName.debugger]) = [] := by
    refine List.filter_eq_nil_iff.mpr fun x _ => ?_
    cases x.1 <;> decide
  rw [stripAll_withBlocks hpage h, hnone]

/-! ## Actions -/

variable {w : Wishes} {module : String} {action : PageAction} {content : String}

theorem applyAction_dressed (hpage : Unmarked page)
    (hnew : ∀ x ∈ Client.blocks w module action, Mild x.2.toList)
    (h : Dressed page content.toList) :
    ∃ result, applyAction w module action content = .ok result ∧ Dressed page result.toList := by
  obtain ⟨rest, hstrip, hrest⟩ := h.stripAll hpage (stripped action)
  refine ⟨_, by rw [applyAction, hstrip], ?_⟩
  rw [String.toList_ofList]
  exact hrest.insertAll hnew

/-- The two actions that put blocks into a page leave none that was there before. -/
theorem applyAction_puts (hpage : Unmarked page)
    (hnew : ∀ x ∈ Client.blocks w module action, Mild x.2.toList)
    (haction : action = .embed ∨ action = .link) (h : Dressed page content.toList) :
    applyAction w module action content =
      .ok (String.ofList (withBlocks page (texts (Client.blocks w module action)))) := by
  have hboth : stripped action = [.protocol, .debugger] := by
    obtain rfl | rfl := haction <;> rfl
  obtain ⟨x, new, hblocks⟩ : ∃ x new, Client.blocks w module action = x :: new := by
    obtain rfl | rfl := haction <;> exact ⟨_, _, rfl⟩
  rw [hblocks] at hnew ⊢
  obtain heq | ⟨old, hold, heq⟩ := h
  · rw [applyAction, heq, stripAll_unmarked hpage, hblocks]
    simp only [insertAll_cons hnew]
  · have hnone : ∀ y ∈ ([] : List (BlockName × List Char)), Mild y.2 := List.forall_mem_nil _
    rw [applyAction, heq, hboth, stripAll_both hpage hold, hblocks]
    simp only [insertAll_withBlocks hnone hnew, List.nil_append]

theorem applyAction_remove (hpage : Unmarked page) (h : ∀ x ∈ blocks, Mild x.2)
    (hcontent : content.toList = withBlocks page blocks) :
    applyAction w module .remove content = .ok (String.ofList (withBlocks page [])) := by
  have hstrip : stripAll (stripped .remove) content.toList = .ok (withBlocks page []) := by
    rw [hcontent]
    exact stripAll_both hpage h
  rw [applyAction, hstrip]
  rfl

/-! ## Wishes -/

theorem action_ok {a : Option PageAction} (h : w.action = .ok a) :
    w.exclusive.length ≤ 1 ∧
      a = (w.exclusive.head? <|> (if w.removeDebugger then some .removeDebugger else none)) := by
  unfold Wishes.action at h
  split at h
  · cases h
  · rename_i hfew
    refine ⟨Nat.le_of_not_lt hfew, ?_⟩
    split at h
    · cases h
    · simp only at h
      split at h
      · rename_i hsome
        split at h
        · cases h
        · cases h
          exact hsome.symm
      · rename_i hnone
        cases h
        exact hnone.symm

theorem action_of_puts {a : Option PageAction} (h : w.action = .ok a)
    (hputs : w.embed = true ∨ w.link = true) : a = some .embed ∨ a = some .link := by
  obtain ⟨-, rfl⟩ := action_ok h
  cases hembed : w.embed with
  | true => simp [Wishes.exclusive, hembed]
  | false =>
    have hlink : w.link = true := hputs.resolve_left (by simp [hembed])
    simp [Wishes.exclusive, hembed, hlink]

theorem action_of_remove {a : Option PageAction} (h : w.action = .ok a) (hremove : w.remove = true) :
    a = some .remove := by
  obtain ⟨hfew, rfl⟩ := action_ok h
  simp only [Wishes.exclusive, hremove, if_true, List.length_append, List.length_singleton] at hfew
  have hembed : w.embed = false := by
    by_contra hembed
    simp [hembed] at hfew
  have hlink : w.link = false := by
    by_contra hlink
    simp [hlink] at hfew
  simp [Wishes.exclusive, hembed, hlink, hremove]

theorem generate_of_none {p : Protocol} (h : w.action = .ok none) :
    Bundle.generate p w = .ok ⟨Bundle.filesOf w (moduleText p), none⟩ := by
  rw [Bundle.generate, h]
  rfl

theorem generate_of_some {p : Protocol} {q : Page} {result : String} (hpage : w.page = some q)
    (h : w.action = .ok (some action))
    (happly : applyAction w (moduleText p) action q.content = .ok result) :
    Bundle.generate p w = .ok ⟨Bundle.filesOf w (moduleText p), some ⟨q.name, result⟩⟩ := by
  have hbind : Bundle.generate p w = applyAction w (moduleText p) action q.content >>=
      fun content => .ok ⟨Bundle.filesOf w (moduleText p), some ⟨q.name, content⟩⟩ := by
    rw [Bundle.generate, h, hpage]
    rfl
  rw [hbind, happly]
  rfl

/-! ## Runs -/

def Wishes.on (w : Wishes) (page : Page) : Wishes := { w with page := some page }

/-- A run of the generator: a protocol, and all that is wished for but the page. -/
structure Run where
  protocol : Protocol
  wishes : Wishes

namespace Run

def generate (r : Run) (page : Page) : Except GenerationFault Bundle :=
  Bundle.generate r.protocol (r.wishes.on page)

/-- The page after a run; one without an action for the page leaves it as it is. -/
def next (r : Run) (page : Page) : Except GenerationFault Page :=
  (r.generate page).map fun bundle => bundle.page.getD page

/-- The protocol passed the checks, the wishes are accepted for a page, and the prefix for files opens
no tag. -/
structure Allowed (r : Run) : Prop where
  checked : ∃ s : Schema, s.validate = .ok r.protocol
  accepted : ∃ page action, (r.wishes.on page).action = .ok action
  assets : '<' ∉ r.wishes.assetPrefix.toList

end Run

/-- The page after one run after the other. -/
def runAll (page : Page) (runs : List Run) : Except GenerationFault Page :=
  runs.foldlM (fun page r => r.next page) page

variable {r q : Run} {start current : Page}

/-- What a page has become: its name is the same, and blocks may have been put in. -/
structure Page.Became (start current : Page) : Prop where
  name : current.name = start.name
  dressed : Dressed start.content.toList current.content.toList

theorem Page.Became.refl (start : Page) : start.Became start := ⟨rfl, .inl rfl⟩

namespace Run

/-- The page decides nothing about what is done. -/
theorem Allowed.exists_action (hr : r.Allowed) : ∃ action, ∀ page, (r.wishes.on page).action = .ok action := by
  obtain ⟨page, action, h⟩ := hr.accepted
  exact ⟨action, fun _ => h⟩

theorem Allowed.blocks_mild (hr : r.Allowed) (page : Page) (action : PageAction) :
    ∀ x ∈ Client.blocks (r.wishes.on page) (moduleText r.protocol) action, Mild x.2.toList := by
  obtain ⟨s, hs⟩ := hr.checked
  exact Client.blocks_mild (speltNames_of_validate hs) hr.assets action

theorem Allowed.next_became (hr : r.Allowed) (hstart : Unmarked start.content.toList)
    (h : start.Became current) : ∃ after, r.next current = .ok after ∧ start.Became after := by
  obtain ⟨action, haction⟩ := hr.exists_action
  cases action with
  | none =>
    have hbundle := generate_of_none (p := r.protocol) (haction current)
    exact ⟨current, by rw [next, generate, hbundle]; rfl, h⟩
  | some action =>
    obtain ⟨result, happly, hresult⟩ :=
      applyAction_dressed hstart (hr.blocks_mild current action) h.dressed
    have hbundle := generate_of_some rfl (haction current) happly
    exact ⟨⟨current.name, result⟩, by rw [next, generate, hbundle]; rfl, h.name, hresult⟩

/-- An embed or an import gives one bundle on all that a page may have become. -/
theorem Allowed.generate_became (hr : r.Allowed) (hputs : r.wishes.embed = true ∨ r.wishes.link = true)
    (hstart : Unmarked start.content.toList) :
    ∃ (bundle : Bundle) (blocks : List (BlockName × List Char)), (∀ x ∈ blocks, Mild x.2) ∧
      bundle.page = some ⟨start.name, String.ofList (withBlocks start.content.toList blocks)⟩ ∧
      ∀ current, start.Became current → r.generate current = .ok bundle := by
  obtain ⟨action, haction⟩ := hr.exists_action
  obtain ⟨action, rfl⟩ : ∃ a, action = some a := by
    obtain rfl | rfl := action_of_puts (haction start) hputs <;> exact ⟨_, rfl⟩
  have hwhich : action = .embed ∨ action = .link := by
    simpa using action_of_puts (haction start) hputs
  have hmild := hr.blocks_mild start action
  refine ⟨⟨Bundle.filesOf (r.wishes.on start) (moduleText r.protocol), some ⟨start.name, _⟩⟩, _,
    texts_mild hmild, rfl, fun current h => ?_⟩
  have happly := applyAction_puts hstart (hr.blocks_mild current action) hwhich h.dressed
  have hsame : Client.blocks (r.wishes.on current) (moduleText r.protocol) action =
      Client.blocks (r.wishes.on start) (moduleText r.protocol) action := by
    cases action <;> rfl
  rw [hsame] at happly
  rw [generate, generate_of_some rfl (haction current) happly, h.name]
  rfl

end Run

theorem runAll_became {runs : List Run} (hruns : ∀ r ∈ runs, r.Allowed)
    (hstart : Unmarked start.content.toList) (h : start.Became current) :
    ∃ after, runAll current runs = .ok after ∧ start.Became after := by
  induction runs generalizing current with
  | nil => exact ⟨current, rfl, h⟩
  | cons r runs ih =>
    obtain ⟨hr, hruns⟩ := List.forall_mem_cons.mp hruns
    obtain ⟨between, hnext, hbetween⟩ := hr.next_became hstart h
    obtain ⟨after, hafter, hbecame⟩ := ih hruns hbetween
    refine ⟨after, ?_, hbecame⟩
    rw [runAll, List.foldlM_cons, hnext]
    exact hafter

/-- Runs on a page without markers succeed, and an embed or an import after them gives the bundle that
it gives on the page itself. So does doing it again. -/
theorem generate_forgets {runs : List Run} (hstart : Unmarked start.content.toList)
    (hruns : ∀ r ∈ runs, r.Allowed) (hr : r.Allowed)
    (hputs : r.wishes.embed = true ∨ r.wishes.link = true) :
    ∃ after bundle once, runAll start runs = .ok after ∧ r.generate start = .ok bundle ∧
      bundle.page = some once ∧ r.generate after = .ok bundle ∧ r.generate once = .ok bundle := by
  obtain ⟨after, hafter, hbecame⟩ := runAll_became hruns hstart (.refl start)
  obtain ⟨bundle, blocks, hblocks, honce, hbundle⟩ := hr.generate_became hputs hstart
  refine ⟨after, bundle, _, hafter, hbundle start (.refl start), honce, hbundle after hbecame, ?_⟩
  refine hbundle _ ⟨rfl, .inr ⟨blocks, hblocks, ?_⟩⟩
  rw [String.toList_ofList]

def bareShell : Page := ⟨"index.html", "<body></body>"⟩

def embedRun : Run := ⟨arcadeProtocol, { embed := true, withDebugger := true }⟩

def linkRun : Run := ⟨arcadeProtocol, { link := true, assetPrefix := "js/" }⟩

def removeRun : Run := ⟨arcadeProtocol, { remove := true }⟩

theorem bareShell_unmarked : Unmarked bareShell.content.toList := by
  rw [bareShell, String.toList_ofList, Unmarked]
  decide

theorem embedRun_allowed : embedRun.Allowed :=
  ⟨⟨arcadeSchema, arcadeSchema_validate⟩, ⟨bareShell, some .embed, rfl⟩, by simp [embedRun]⟩

theorem linkRun_allowed : linkRun.Allowed :=
  ⟨⟨arcadeSchema, arcadeSchema_validate⟩, ⟨bareShell, some .link, rfl⟩, by simp [linkRun]⟩

theorem removeRun_allowed : removeRun.Allowed :=
  ⟨⟨arcadeSchema, arcadeSchema_validate⟩, ⟨bareShell, some .remove, rfl⟩, by simp [removeRun]⟩

theorem generate_forgets_bareShell :
    Unmarked bareShell.content.toList ∧
      ∃ after bundle once, runAll bareShell [embedRun, removeRun, embedRun] = .ok after ∧
        linkRun.generate bareShell = .ok bundle ∧ bundle.page = some once ∧
        linkRun.generate after = .ok bundle ∧ linkRun.generate once = .ok bundle := by
  refine ⟨bareShell_unmarked, generate_forgets bareShell_unmarked ?_ linkRun_allowed (.inr rfl)⟩
  simp only [List.forall_mem_cons]
  exact ⟨embedRun_allowed, removeRun_allowed, embedRun_allowed, List.forall_mem_nil _⟩

/-! ## Removing -/

theorem withBlocks_nil (page : List Char) :
    withBlocks page [] = endLine (seam page).1 ++ (seam page).2 := by
  rw [withBlocks, List.flatMap_nil, List.append_nil]

theorem Run.Allowed.removed (hr : r.Allowed) (hputs : r.wishes.embed = true ∨ r.wishes.link = true)
    (hq : q.Allowed) (hremove : q.wishes.remove = true) (hstart : Unmarked start.content.toList) :
    ∃ once, r.next start = .ok once ∧ q.next once = .ok ⟨start.name, String.ofList
      (endLine (seam start.content.toList).1 ++ (seam start.content.toList).2)⟩ := by
  obtain ⟨bundle, blocks, hblocks, honce, hbundle⟩ := hr.generate_became hputs hstart
  generalize hcontent : String.ofList (withBlocks start.content.toList blocks) = content at honce
  have hcontent : content.toList = withBlocks start.content.toList blocks := by
    rw [← hcontent, String.toList_ofList]
  refine ⟨⟨start.name, content⟩, ?_, ?_⟩
  · rw [Run.next, hbundle start (.refl start)]
    simp only [Except.map, honce, Option.getD_some]
  · obtain ⟨action, haction⟩ := hq.exists_action
    obtain rfl := action_of_remove (haction start) hremove
    have happly : applyAction (q.wishes.on ⟨start.name, content⟩) (moduleText q.protocol) .remove
        content = .ok (String.ofList (withBlocks start.content.toList [])) :=
      applyAction_remove hstart hblocks hcontent
    rw [Run.next, Run.generate, generate_of_some rfl (haction _) happly, ← withBlocks_nil]
    simp only [Except.map, Option.getD_some]

theorem endLine_eq_self_iff {text : List Char} :
    endLine text = text ↔ text = [] ∨ ∃ line, text = line ++ ['\n'] := by
  constructor
  · intro h
    obtain ⟨hnil, -⟩ | ⟨line, hline, -⟩ | hend := endLine_cases text
    · exact .inl hnil
    · exact .inr ⟨line, hline⟩
    · exact absurd (h.symm.trans hend) (by simp)
  · rintro (rfl | ⟨line, rfl⟩)
    · rfl
    · exact endLine_line line

/-- Removing gives back the page, but for a newline at the seam: the page itself only if what is in
front of the seam is empty or a whole line already. -/
theorem remove_restores_iff (hstart : Unmarked start.content.toList) (hr : r.Allowed)
    (hputs : r.wishes.embed = true ∨ r.wishes.link = true) (hq : q.Allowed)
    (hremove : q.wishes.remove = true) :
    ∃ once removed, r.next start = .ok once ∧ q.next once = .ok removed ∧
      removed.name = start.name ∧
      removed.content.toList =
        endLine (seam start.content.toList).1 ++ (seam start.content.toList).2 ∧
      (removed = start ↔ (seam start.content.toList).1 = [] ∨
        ∃ line, (seam start.content.toList).1 = line ++ ['\n']) := by
  obtain ⟨once, honce, hremoved⟩ := hr.removed hputs hq hremove hstart
  refine ⟨once, _, honce, hremoved, rfl, String.toList_ofList, ?_⟩
  have hwhole := seam_append start.content.toList
  rw [← endLine_eq_self_iff]
  constructor
  · intro h
    have hcontent := congrArg (fun page => page.content.toList) h
    simp only [String.toList_ofList] at hcontent
    exact List.append_cancel_right (hcontent.trans hwhole.symm)
  · intro h
    obtain ⟨name, content⟩ := start
    rw [h, hwhole, String.ofList_toList]

def lineShell : Page := ⟨"index.html", "<body>\n</body>\n"⟩

theorem remove_restores_lineShell :
    Unmarked lineShell.content.toList ∧
      ∃ once, linkRun.next lineShell = .ok once ∧ removeRun.next once = .ok lineShell := by
  have hshell : Unmarked lineShell.content.toList := by
    rw [lineShell, String.toList_ofList, Unmarked]
    decide
  obtain ⟨once, removed, honce, hremoved, -, -, hrestored⟩ :=
    remove_restores_iff hshell linkRun_allowed (.inr rfl) removeRun_allowed rfl
  have hline : (seam lineShell.content.toList).1 = ['<', 'b', 'o', 'd', 'y', '>'] ++ ['\n'] := by
    rw [lineShell, String.toList_ofList]
    decide
  refine ⟨hshell, once, honce, ?_⟩
  rw [hremoved, hrestored.mpr (.inr ⟨_, hline⟩)]

/-- A body that ends within a line is not given back: the newline stays. -/
theorem remove_leaves_newline :
    Unmarked bareShell.content.toList ∧ linkRun.Allowed ∧ removeRun.Allowed ∧
      ∃ once removed, linkRun.next bareShell = .ok once ∧ removeRun.next once = .ok removed ∧
        removed.content = "<body>\n</body>" ∧ removed ≠ bareShell := by
  obtain ⟨once, honce, hremoved⟩ := linkRun_allowed.removed (.inr rfl) removeRun_allowed rfl
    bareShell_unmarked
  refine ⟨bareShell_unmarked, linkRun_allowed, removeRun_allowed, once, _, honce, hremoved, ?_, ?_⟩
  · apply String.toList_inj.mp
    rw [String.toList_ofList, bareShell, String.toList_ofList, String.toList_ofList]
    decide
  · intro h
    have hcontent := congrArg (fun page => page.content.toList.length) h
    rw [String.toList_ofList, bareShell, String.toList_ofList] at hcontent
    revert hcontent
    decide

end Gamewire.Client
