import Gamewire.Client.Module
import Gamewire.Proofs.Schema.WellFormed

/-! When the names in a client module are told apart. Generated names differ from each other because
the idents of an accepted schema do. They differ from the fixed names of a module unless one of four
idents completes a fixed name, which the checks of a schema do not look at. -/
namespace Gamewire.Client
set_option autoImplicit false

/-! ## Names with a beginning -/

/-- What the names of a list that begin with `kind` go on with. -/
def endingsOf (kind : String) (names : List String) : List String :=
  names.filterMap fun name => (name.toList.dropPrefix? kind.toList).map String.ofList

theorem mem_endingsOf {kind ending : String} {names : List String} :
    ending ∈ endingsOf kind names ↔ kind ++ ending ∈ names := by
  have hname : ∀ name : String,
      (name.toList.dropPrefix? kind.toList).map String.ofList = some ending ↔
        name = kind ++ ending := by
    intro name
    simp only [Option.map_eq_some_iff, List.dropPrefix?_eq_some_iff, beq_iff_eq]
    constructor
    · rintro ⟨rest, ⟨_, hsplit, rfl⟩, rfl⟩
      apply String.toList_inj.mp
      rw [String.toList_append, String.toList_ofList, hsplit]
    · rintro rfl
      exact ⟨ending.toList, ⟨_, String.toList_append, rfl⟩, String.ofList_toList⟩
  unfold endingsOf
  rw [List.mem_filterMap]
  constructor
  · rintro ⟨name, hmem, hsome⟩
    exact (hname name).mp hsome ▸ hmem
  · intro hmem
    exact ⟨_, hmem, (hname _).mpr rfl⟩

/-- The beginnings of generated names. -/
def kinds : List String := ["encode", "read", "decode"]

/-- A generated name shows its beginning and its ident. -/
theorem kind_append_inj {kind kind' ident ident' : String} (hkind : kind ∈ kinds)
    (hkind' : kind' ∈ kinds) (h : kind ++ ident = kind' ++ ident') :
    kind = kind' ∧ ident = ident' := by
  have hsame : kind = kind' := by
    have hchars := congrArg String.toList h
    simp only [kinds, List.mem_cons, List.not_mem_nil, or_false] at hkind hkind'
    obtain rfl | rfl | rfl := hkind <;> obtain rfl | rfl | rfl := hkind' <;>
      first | rfl | simp at hchars
  subst hsame
  exact ⟨rfl, (String.append_right_inj kind).mp h⟩

/-! ## Fixed and generated names together -/

def namesOf (used : List String) (m : MessageSpec) : List String := used.map (· ++ m.ident)

variable {used : List String} {messages : List MessageSpec}

theorem namesOf_nodup (hused : used.Sublist kinds) (hidents : (messages.map (·.ident)).Nodup) :
    (messages.flatMap (namesOf used)).Nodup := by
  have hmem : ∀ kind ∈ used, kind ∈ kinds := fun kind h => hused.subset h
  have hkinds : used.Nodup := hused.nodup (by decide)
  refine List.nodup_flatMap.mpr ⟨fun m _ => ?_, ?_⟩
  · refine hkinds.map_on fun kind hkind kind' hkind' h => ?_
    exact (kind_append_inj (hmem kind hkind) (hmem kind' hkind') h).1
  · refine (List.pairwise_map.mp hidents).imp fun hne name hname hname' => ?_
    obtain ⟨kind, hkind, rfl⟩ := List.mem_map.mp hname
    obtain ⟨kind', hkind', h⟩ := List.mem_map.mp hname'
    exact hne (kind_append_inj (hmem kind' hkind') (hmem kind hkind) h).2.symm

/-- Nothing but a fixed name that an ident completes can be met twice. -/
theorem nodup_append_namesOf_iff {fixed : List String} (hfixed : fixed.Nodup)
    (hused : used.Sublist kinds) (hidents : (messages.map (·.ident)).Nodup) :
    (fixed ++ messages.flatMap (namesOf used)).Nodup ↔
      ∀ m ∈ messages, m.ident ∉ used.flatMap (endingsOf · fixed) := by
  rw [List.nodup_append']
  simp only [hfixed, namesOf_nodup hused hidents, true_and, List.Disjoint, List.mem_flatMap,
    namesOf, List.mem_map, mem_endingsOf]
  constructor
  · rintro hdisjoint m hm ⟨kind, hkind, hclash⟩
    exact hdisjoint hclash ⟨m, hm, kind, hkind, rfl⟩
  · rintro hfree name hname ⟨m, hm, kind, hkind, rfl⟩
    exact hfree m hm ⟨kind, hkind, hname⟩

/-! ## The names of a module -/

/-- The names that every module declares. -/
def fixedNames : List String :=
  ["FINGERPRINT", "GPIO_SIZE", "SCHEMA"] ++ runtime.flatMap Part.names ++ ["MESSAGES"] ++
    session.flatMap Part.names

theorem declaredNames_perm (p : Protocol) :
    (declaredNames p).Perm (fixedNames ++ p.messages.flatMap (namesOf kinds)) := by
  have hgenerated : (p.messages.flatMap messageParts).flatMap Part.names =
      p.messages.flatMap (namesOf kinds) := by
    rw [List.flatMap_assoc]
    rfl
  have hnames : declaredNames p = ["FINGERPRINT", "GPIO_SIZE", "SCHEMA"] ++
      runtime.flatMap Part.names ++ p.messages.flatMap (namesOf kinds) ++ ["MESSAGES"] ++
        session.flatMap Part.names := by
    unfold declaredNames parts
    rw [List.flatMap_append, List.flatMap_append, List.flatMap_append, List.flatMap_append,
      List.flatMap_append, hgenerated]
    simp [strictPart, constantsPart, tablePart, exportPart]
  rw [hnames]
  simp only [fixedNames, List.append_assoc]
  refine .append_left _ (.append_left _ ?_)
  -- the generated names stand before the table and the session
  rw [← List.append_assoc _ _ (p.messages.flatMap _)]
  exact List.perm_append_comm

theorem fixedNames_nodup : fixedNames.Nodup := by decide

/-- The idents that complete a declared name; the empty one is none of a message. -/
theorem endings_fixedNames :
    kinds.flatMap (endingsOf · fixedNames) = ["Join", "As", "At", "", "System"] := by cbv

theorem endings_sharedExports :
    ["encode", "decode"].flatMap (endingsOf · sharedExports) = ["Join", "", "At", "System"] := by
  cbv

theorem idents_of_validate {s : Schema} {p : Protocol} (h : s.validate = .ok p) :
    (p.messages.map (·.ident)).Nodup ∧ ∀ m ∈ p.messages, m.ident ≠ "" := by
  have hbecomes := Schema.becomes_of_validate h
  have hwf := (Schema.validate_ok_iff.mp h).1
  refine ⟨hbecomes.idents_eq ▸ hwf.idents, fun m hm => ?_⟩
  obtain ⟨d, hd, hm'⟩ := hbecomes.source_of_mem hwf hm
  rw [hm'.ident]
  exact hd.generated

/-- The names that a module declares are told apart, and so are the keys of the object that it
exports, unless a message has one of the idents that complete a name of every module. -/
theorem module_names_nodup_iff {s : Schema} {p : Protocol} (h : s.validate = .ok p) :
    ((declaredNames p).Nodup ↔
        ∀ m ∈ p.messages, m.ident ∉ ["Join", "As", "At", "System"]) ∧
      ((exports p).Nodup ↔ ∀ m ∈ p.messages, m.ident ∉ ["Join", "At", "System"]) := by
  obtain ⟨hidents, hnonempty⟩ := idents_of_validate h
  constructor
  · rw [(declaredNames_perm p).nodup_iff,
      nodup_append_namesOf_iff fixedNames_nodup (List.Sublist.refl kinds) hidents,
      endings_fixedNames]
    refine forall₂_congr fun m hm => ?_
    have hne := hnonempty m hm
    simp only [List.mem_cons, List.not_mem_nil, hne, false_or, or_false]
  · have hshared : sharedExports.Nodup := by decide
    have hused : ["encode", "decode"].Sublist kinds := by decide
    have hexports : exports p =
        sharedExports ++ p.messages.flatMap (namesOf ["encode", "decode"]) := rfl
    rw [hexports, nodup_append_namesOf_iff hshared hused hidents, endings_sharedExports]
    refine forall₂_congr fun m hm => ?_
    have hne := hnonempty m hm
    simp only [List.mem_cons, List.not_mem_nil, hne, false_or, or_false]

theorem module_names_nodup_arcadeProtocol :
    arcadeSchema.validate = .ok arcadeProtocol ∧ (declaredNames arcadeProtocol).Nodup ∧
      (exports arcadeProtocol).Nodup := by
  have h := module_names_nodup_iff arcadeSchema_validate
  exact ⟨arcadeSchema_validate, h.1.mpr (by decide), h.2.mpr (by decide)⟩

/-! ## A message that takes the name of a shared function -/

def joinSchema : Schema where
  messages := [
    { name := "join", direction := .bidirectional,
      fields := [{ name := "seat", typeName := "uint8" }] }]

def joinProtocol : Protocol where
  messages := [⟨0, "join", "Join", .bidirectional, false, [⟨"seat", .scalar .uint8, false⟩]⟩]

theorem joinSchema_validate : joinSchema.validate = .ok joinProtocol := by cbv

theorem joinProtocol_names_clash :
    joinSchema.validate = .ok joinProtocol ∧ ¬ (declaredNames joinProtocol).Nodup ∧
      ¬ (exports joinProtocol).Nodup :=
  ⟨joinSchema_validate, by decide, by decide⟩

end Gamewire.Client
