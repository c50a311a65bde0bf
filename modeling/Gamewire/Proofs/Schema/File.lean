import Gamewire.Proofs.Toml.Tree
import Gamewire.Schema.File

/-! Every schema comes back from its protocol file, be it in order or not: the names in it may be any
texts, and lists without elements are written as well. -/
namespace Gamewire.Schema
set_option autoImplicit false

open Toml (Section Line Entries Item BareKey listed tableValue)

/-! ## Fields -/

theorem capacity_fits (n : UInt16) : (Toml.Atom.integer n.toNat).Fits := by
  have hless := n.toNat_lt
  show -9223372036854775808 ≤ (n.toNat : Int) ∧ (n.toNat : Int) ≤ 9223372036854775807
  omega

theorem asNat?_capacity (n : UInt16) : (Toml.Value.integer n.toNat).asNat? 65535 = some n.toNat :=
  Toml.Value.asNat?_integer (Nat.le_of_lt_succ n.toNat_lt)

theorem fieldSection_readable (f : FieldDef) : (fieldSection f).Readable where
  header := by
    show ∀ k ∈ ["message", "field"], BareKey k
    decide
  shallow := by
    show 2 < Toml.nestingLimit
    decide
  lines := by
    intro l hl
    rw [fieldSection] at hl
    simp only [List.mem_append, List.mem_cons, List.not_mem_nil, or_false] at hl
    obtain (rfl | rfl | rfl) | hl := hl
    · exact ⟨show BareKey "name" by decide, trivial⟩
    · exact ⟨show BareKey "type" by decide, trivial⟩
    · exact ⟨show BareKey "optional" by decide, trivial⟩
    · cases hcapacity : f.capacity with
      | none =>
        rw [hcapacity] at hl
        cases hl
      | some n =>
        rw [hcapacity] at hl
        rw [List.mem_singleton.mp hl]
        exact ⟨show BareKey "max_len" by decide, capacity_fits n⟩

/-- The table of a field. -/
def fieldEntries (f : FieldDef) : Entries := (fieldSection f).lines.map Line.entry

theorem fill_fieldSection (f : FieldDef) :
    Entries.fill ((fieldSection f).lines.map Line.assignment) [] = some (fieldEntries f) := by
  refine Toml.fill_lines [] ?_
  rw [fieldSection]
  cases f.capacity with
  | none =>
    show (["name", "type", "optional"] : List String).Nodup
    decide
  | some n =>
    show (["name", "type", "optional", "max_len"] : List String).Nodup
    decide

theorem readField_fieldEntries (f : FieldDef) : readField (tableValue (fieldEntries f)) = some f := by
  obtain ⟨name, typeName, optional, capacity⟩ := f
  cases capacity with
  | none => rfl
  | some n =>
    have hread : readField (tableValue (fieldEntries ⟨name, typeName, optional, some n⟩)) =
        (((Toml.Value.integer n.toNat).asNat? 65535).map (some ·.toUInt16)).bind
          fun capacity => some ⟨name, typeName, optional, capacity⟩ := rfl
    rw [hread, asNat?_capacity]
    show some (FieldDef.mk name typeName optional (some n.toNat.toUInt16)) = _
    rw [Nat.toUInt16_eq, UInt16.ofNat_toNat]

/-! ## Messages -/

/-- The section of a message, without those of its fields. -/
def messageSection (m : MessageDef) : Section where
  header := ["message"]
  lines :=
    [⟨"name", .text m.name⟩, ⟨"direction", .text m.direction.name⟩,
      ⟨"heartbeat", .boolean m.heartbeat⟩] ++
      (if m.fields.isEmpty then [⟨"field", .emptyArray⟩] else [])

theorem messageSections_eq (m : MessageDef) :
    messageSections m = messageSection m :: m.fields.map fieldSection := rfl

theorem messageSection_readable (m : MessageDef) : (messageSection m).Readable where
  header := by
    show ∀ k ∈ ["message"], BareKey k
    decide
  shallow := by
    show 1 < Toml.nestingLimit
    decide
  lines := by
    intro l hl
    rw [messageSection] at hl
    simp only [List.mem_append, List.mem_cons, List.not_mem_nil, or_false] at hl
    obtain (rfl | rfl | rfl) | hl := hl
    · exact ⟨show BareKey "name" by decide, trivial⟩
    · exact ⟨show BareKey "direction" by decide, trivial⟩
    · exact ⟨show BareKey "heartbeat" by decide, trivial⟩
    · split at hl
      · rw [List.mem_singleton.mp hl]
        exact ⟨show BareKey "field" by decide, trivial⟩
      · cases hl

/-- What the section of a message itself gives. -/
def messageBase (m : MessageDef) : Entries := (messageSection m).lines.map Line.entry

/-- The table of a message. -/
def messageEntries (m : MessageDef) : Entries :=
  messageBase m ++ listed "field" (m.fields.map fieldEntries)

theorem fill_messageSection (m : MessageDef) :
    Entries.fill ((messageSection m).lines.map Line.assignment) [] = some (messageBase m) := by
  refine Toml.fill_lines [] ?_
  rw [messageSection]
  cases m.fields with
  | nil =>
    show (["name", "direction", "heartbeat", "field"] : List String).Nodup
    decide
  | cons f fs =>
    show (["name", "direction", "heartbeat"] : List String).Nodup
    decide

theorem add_messageSection (tables : List Entries) (m : MessageDef) :
    Section.add (listed "message" tables) (messageSection m) =
      some (listed "message" (tables ++ [messageBase m])) := by
  have hbase : "message" ∉ ([] : Entries).map (·.1) := List.not_mem_nil
  exact Toml.addToList_listed hbase (fill_messageSection m) tables

theorem add_fieldSections {base : Entries} (hbase : "field" ∉ base.map (·.1)) (tables : List Entries)
    (done : List Entries) (fs : List FieldDef) :
    (fs.map fieldSection).foldlM Section.add
        (listed "message" (tables ++ [base ++ listed "field" done])) =
      some (listed "message" (tables ++ [base ++ listed "field" (done ++ fs.map fieldEntries)])) := by
  induction fs generalizing done with
  | nil => simp
  | cons f fs ih =>
    have hadd : Section.add (listed "message" (tables ++ [base ++ listed "field" done]))
        (fieldSection f) =
        some (listed "message" (tables ++ [base ++ listed "field" (done ++ [fieldEntries f])])) := by
      have hlist := Toml.addToList_listed hbase (fill_fieldSection f) done
      refine (Toml.atPath_listed _ "message" tables _).trans ?_
      exact congrArg (Option.map fun last => listed "message" (tables ++ [last])) hlist
    rw [List.map_cons, List.foldlM_cons, hadd]
    show List.foldlM _ _ _ = _
    rw [ih, List.map_cons, List.append_assoc, List.singleton_append]

theorem field_not_mem_messageBase {m : MessageDef} (h : m.fields ≠ []) :
    "field" ∉ (messageBase m).map (·.1) := by
  rw [messageBase, messageSection, if_neg (by simpa using h)]
  show "field" ∉ ["name", "direction", "heartbeat"]
  decide

theorem add_messageSections (tables : List Entries) (m : MessageDef) :
    (messageSections m).foldlM Section.add (listed "message" tables) =
      some (listed "message" (tables ++ [messageEntries m])) := by
  rw [messageSections_eq, List.foldlM_cons, add_messageSection]
  show (m.fields.map fieldSection).foldlM Section.add (listed "message" (tables ++ [messageBase m])) = _
  by_cases hfields : m.fields = []
  · rw [messageEntries, hfields, List.map_nil, List.map_nil, Toml.listed_nil, List.append_nil]
    rfl
  · have hadd := add_fieldSections (field_not_mem_messageBase hfields) tables [] m.fields
    rw [Toml.listed_nil, List.append_nil, List.nil_append] at hadd
    exact hadd

theorem mapM_map {α β : Type} {read : β → Option α} {write : α → β}
    (h : ∀ a, read (write a) = some a) (as : List α) : (as.map write).mapM read = some as := by
  induction as with
  | nil => rfl
  | cons a as ih =>
    rw [List.map_cons, List.mapM_cons, h, ih]
    rfl

theorem readDirection_name (d : Direction) : readDirection (.text d.name) = some d := by
  cases d <;> rfl

theorem readMessage_messageEntries (m : MessageDef) :
    readMessage (tableValue (messageEntries m)) = some m := by
  obtain ⟨name, direction, heartbeat, fields⟩ := m
  rw [messageEntries, tableValue, Toml.entriesToValues_append]
  cases fields with
  | nil =>
    have hread : readMessage (.table
        (Item.entriesToValues (messageBase ⟨name, direction, heartbeat, []⟩) ++
          Item.entriesToValues (listed "field" []))) = (readDirection (.text direction.name)).bind
            fun direction => some ⟨name, direction, heartbeat, []⟩ := rfl
    rw [List.map_nil, hread, readDirection_name]
    rfl
  | cons f fs =>
    rw [Toml.entriesToValues_listed "field" (by simp), List.map_map]
    have hread : ∀ vs, readMessage (.table
        (Item.entriesToValues (messageBase ⟨name, direction, heartbeat, f :: fs⟩) ++
          [("field", .array vs)])) = (readDirection (.text direction.name)).bind fun direction =>
            (vs.mapM readField).bind fun fields => some ⟨name, direction, heartbeat, fields⟩ :=
      fun _ => rfl
    have hfields : ((f :: fs).map (tableValue ∘ fieldEntries)).mapM readField = some (f :: fs) :=
      mapM_map readField_fieldEntries _
    rw [hread, readDirection_name, hfields]
    rfl

/-! ## Schemas -/

theorem add_sections (tables : List Entries) (ms : List MessageDef) :
    (ms.flatMap messageSections).foldlM Section.add (listed "message" tables) =
      some (listed "message" (tables ++ ms.map messageEntries)) := by
  induction ms generalizing tables with
  | nil => simp
  | cons m ms ih =>
    rw [List.flatMap_cons, List.foldlM_append, add_messageSections]
    show (ms.flatMap messageSections).foldlM Section.add _ = _
    rw [ih, List.map_cons, List.append_assoc, List.singleton_append]

theorem sections_readable (s : Schema) : ∀ x ∈ s.sections, x.Readable := by
  intro x hx
  rw [sections] at hx
  split at hx
  · rw [List.mem_singleton.mp hx]
    refine ⟨List.forall_mem_nil _, show 0 < Toml.nestingLimit by decide, fun l hl => ?_⟩
    rw [List.mem_singleton.mp hl]
    exact ⟨show BareKey "message" by decide, trivial⟩
  · obtain ⟨m, -, hm⟩ := List.mem_flatMap.mp hx
    rw [messageSections_eq] at hm
    obtain rfl | hm := List.mem_cons.mp hm
    · exact messageSection_readable m
    · obtain ⟨f, -, rfl⟩ := List.mem_map.mp hm
      exact fieldSection_readable f

theorem header_messageSections {ms : List MessageDef} :
    ∀ x ∈ ms.flatMap messageSections, x.header ≠ [] := by
  intro x hx
  obtain ⟨m, -, hm⟩ := List.mem_flatMap.mp hx
  rw [messageSections_eq] at hm
  obtain rfl | hm := List.mem_cons.mp hm
  · exact List.cons_ne_nil _ _
  · obtain ⟨f, -, rfl⟩ := List.mem_map.mp hm
    exact List.cons_ne_nil _ _

/-- The document has one list, that of the messages. -/
theorem tableOfStatements_sections (s : Schema) :
    Toml.tableOfStatements (s.sections.flatMap Section.statements) =
      some [("message", .array ((s.messages.map messageEntries).map tableValue))] := by
  rw [sections]
  by_cases hmessages : s.messages = []
  · rw [hmessages]
    rfl
  · rw [if_neg (by simpa using hmessages), Toml.tableOfStatements_sections header_messageSections,
      ← Toml.listed_nil "message", add_sections, Option.map_some, List.nil_append,
      Toml.entriesToValues_listed "message" (by simpa using hmessages)]

/-- A schema is read back from the file that is written for it. -/
theorem parse_render (s : Schema) : parse? s.render = some s := by
  rw [parse?, render, Toml.parse?_writeSections s.sections_readable, tableOfStatements_sections]
  show (((s.messages.map messageEntries).map tableValue).mapM readMessage).bind
    (fun messages => some (Schema.mk messages)) = some s
  have hmessages : (s.messages.map (tableValue ∘ messageEntries)).mapM readMessage = some s.messages :=
    mapM_map readMessage_messageEntries _
  rw [List.map_map, hmessages]
  rfl

end Gamewire.Schema
