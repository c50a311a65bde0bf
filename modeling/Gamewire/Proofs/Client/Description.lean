import Gamewire.Proofs.Client.Generated
import Gamewire.Proofs.Json.RoundTrip
import Gamewire.Proofs.Schema.Fingerprint
import Gamewire.Proofs.Schema.TypeName
import Gamewire.Proofs.Text.Search

/-! What a module tells of its protocol. The description stands on a line of its own and is read back from
there. The flag of a heartbeat and the generated names are not in it; an accepted schema has no choice
about them, so that a module belongs to one protocol only. -/
namespace Gamewire.Client
set_option autoImplicit false

open Text

/-! ## The line of the description -/

def schemaDeclaration : String := "const SCHEMA = "

/-- What is declared on the first line that declares the schema, up to the mark at the line's end. -/
def schemaLiteral? (text : String) : Option String :=
  match cutFirst? schemaDeclaration.toList text.toList with
  | none => none
  | some (_, after) =>
    let line := after.takeWhile (· != '\n')
    if line.getLast? = some ';' then some (String.ofList line.dropLast) else none

theorem partLines_cons (part : Part) (rest : List Part) :
    ∃ more, partLines (part :: rest) = part.lines ++ more := by
  cases rest with
  | nil => exact ⟨[], (List.append_nil _).symm⟩
  | cons next rest => exact ⟨_, rfl⟩

/-- The lines before the description have no capital h. -/
theorem moduleLines_split (p : Protocol) : ∃ before after,
    moduleLines p = before ++ ("  " ++ (schemaDeclaration ++ (describe p).render ++ ";")) :: after ∧
      ∀ line ∈ before, 'H' ∉ line.toList := by
  have hdigit : ∀ d : Nat, d.digitChar ≠ 'H' := fun _ => Nat.digitChar_ne 'H' rfl
  have hdecimal : ∀ n, 'H' ∉ Nat.toDigits 10 n := not_mem_toDigits (by omega) hdigit
  have hfingerprint : 'H' ∉ (fingerprintText p).toList := not_mem_hexLiteral hdigit (by decide) 8 _
  obtain ⟨more, hmore⟩ := partLines_cons (constantsPart p)
    (runtime ++ p.messages.flatMap messageParts ++ [tablePart p] ++ session ++ [exportPart p])
  have hparts : partLines (parts p) =
      "\"use strict\";" :: "" :: ((constantsPart p).lines ++ more) := by
    rw [← hmore]
    rfl
  refine ⟨["// Generated by hnp. Do not edit.",
    s!"// Protocol fingerprint {fingerprintText p}, {p.messages.length} message(s).",
    "(function (global) \x7b", "  \"use strict\";", "",
    "  " ++ s!"const FINGERPRINT = {fingerprintText p};", "  " ++ s!"const GPIO_SIZE = {frameLimit};"],
    indented more ++ ["\x7d)(typeof window !== \"undefined\" ? window : globalThis);"], ?_, ?_⟩
  · rw [moduleLines, hparts]
    simp [block, indented, constantsPart, schemaDeclaration, toString]
  · simp [hfingerprint, hdecimal, toString]

/-- Lines without the capital are passed over. -/
theorem silent_lines {lines : List String} (h : ∀ line ∈ lines, 'H' ∉ line.toList) :
    Silent schemaDeclaration.toList id (lines.flatMap fun line => line.toList ++ ['\n']) := by
  induction lines with
  | nil => trivial
  | cons line lines ih =>
    obtain ⟨hline, hlines⟩ := List.forall_mem_cons.mp h
    rw [List.flatMap_cons]
    refine .append (silent_line (by decide) fun hinfix => hline ?_) (ih hlines)
    rw [List.map_id] at hinfix
    exact hinfix.subset (by decide)

theorem fits_describe (d : Nat) (p : Protocol) : Json.Fits (d + 4) (describe p) := by
  have htag : ∀ m : MessageSpec, Json.Fits (d + 2) (.integer m.tag.toNat) := by
    intro m
    have htag := m.tag.toNat_lt
    rw [Json.fits_integer_iff]
    exact ⟨le_trans (by decide) (Int.natCast_nonneg _), Int.ofNat_lt.mpr (htag.trans (by decide))⟩
  simp [describe, describeMessage, describeField, htag]

theorem schemaLiteral?_moduleText (p : Protocol) :
    schemaLiteral? (moduleText p) = some (describe p).render := by
  obtain ⟨before, after, hlines, hbefore⟩ := moduleLines_split p
  have hline : Json.Printable (Json.write (describe p) ++ [';']) :=
    Json.printable_append.mpr ⟨(fits_describe 0 p).printable, by simp⟩
  have hends : ∀ c ∈ Json.write (describe p) ++ [';'], (c != '\n') = true := by
    intro c hc
    rw [bne_iff_ne]
    rintro rfl
    exact absurd (hline '\n' hc) (by decide)
  have htext : (moduleText p).toList =
      ((before.flatMap fun line => line.toList ++ ['\n']) ++ [' ', ' ']) ++
        (schemaDeclaration.toList ++ ((Json.write (describe p) ++ [';']) ++ '\n' ::
          (fileText after).toList)) := by
    rw [moduleText, toList_fileText, toList_fileText, hlines]
    simp [Json.Value.render]
  have hsilent : Silent schemaDeclaration.toList id [' ', ' '] := by decide
  rw [schemaLiteral?, htext, ((silent_lines hbefore).append hsilent).cutFirst?_append,
    cutFirst?_self (by decide), Option.map_some]
  simp only
  rw [List.takeWhile_append_of_pos hends, List.takeWhile_cons_of_neg (by decide), List.append_nil,
    List.getLast?_concat, if_pos rfl, List.dropLast_concat]
  rfl

/-! ## What the description determines -/

theorem direction_name_injective {d e : Direction} (h : d.name = e.name) : d = e := by
  cases d <;> cases e <;> simp [Direction.name] at h ⊢

theorem describeField_injective : Function.Injective describeField := by
  rintro ⟨name, type, optional⟩ ⟨name', type', optional'⟩ h
  simp only [describeField, Json.Value.object.injEq, List.cons.injEq, Prod.mk.injEq,
    Json.Value.text.injEq, Json.Value.boolean.injEq, true_and, and_true] at h
  obtain ⟨rfl, hrender, rfl⟩ := h
  rw [FieldType.render_inj hrender]

/-- What is described is everything but the flag of a heartbeat and the generated name. -/
theorem describeMessage_eq {m n : MessageSpec} (h : describeMessage m = describeMessage n) :
    m.name = n.name ∧ m.direction = n.direction ∧ m.fields = n.fields := by
  simp only [describeMessage, Json.Value.object.injEq, List.cons.injEq, Prod.mk.injEq,
    Json.Value.text.injEq, Json.Value.array.injEq, true_and, and_true] at h
  obtain ⟨-, hname, hdirection, hfields⟩ := h
  exact ⟨hname, direction_name_injective hdirection,
    List.map_injective_iff.mpr describeField_injective hfields⟩

/-- A message is a heartbeat if it has no fields, and only then. -/
def Beating (m : MessageSpec) : Prop := m.heartbeat = m.fields.isEmpty

theorem beating_of_validate {s : Schema} {p : Protocol} (h : s.validate = .ok p) :
    ∀ m ∈ p.messages, Beating m := by
  intro m hm
  obtain ⟨d, hwf, hbecomes⟩ := Schema.source_of_validate h hm
  have hlength := hbecomes.fields.length_eq
  rw [Beating, hbecomes.heartbeat]
  obtain ⟨hbeat, -, hempty⟩ | ⟨hquiet, hsome⟩ := hwf.shaped
  · rw [hempty, List.length_nil, eq_comm, List.length_eq_zero_iff] at hlength
    rw [hbeat, hlength]
    rfl
  · rw [hquiet, eq_comm, List.isEmpty_eq_false_iff]
    rintro hempty
    rw [hempty, List.length_nil, List.length_eq_zero_iff] at hlength
    exact hsome hlength

theorem contents_of_describe {ms ns : List MessageSpec} (hms : ∀ m ∈ ms, Beating m)
    (hns : ∀ n ∈ ns, Beating n) (h : ms.map describeMessage = ns.map describeMessage) :
    ms.map Fingerprint.content = ns.map Fingerprint.content := by
  induction ms generalizing ns with
  | nil =>
    rw [List.map_nil, eq_comm, List.map_eq_nil_iff] at h
    rw [h]
  | cons m ms ih =>
    obtain ⟨n, ns, rfl⟩ : ∃ n ns', ns = n :: ns' := by
      cases ns with
      | nil => cases h
      | cons n ns => exact ⟨n, ns, rfl⟩
    obtain ⟨hm, hms⟩ := List.forall_mem_cons.mp hms
    obtain ⟨hn, hns⟩ := List.forall_mem_cons.mp hns
    obtain ⟨hhead, htail⟩ := List.cons.inj h
    obtain ⟨hname, hdirection, hfields⟩ := describeMessage_eq hhead
    have hheartbeat : m.heartbeat = n.heartbeat := by rw [hm, hn, hfields]
    rw [List.map_cons, List.map_cons, ih hms hns htail, Fingerprint.content, Fingerprint.content,
      hname, hdirection, hheartbeat, hfields]

/-- The line of the description of an accepted schema holds its messages in the order of the tags. Two
accepted schemas with one module are the same protocol. -/
theorem module_describes_protocol {s : Schema} {p : Protocol} (hs : s.validate = .ok p) :
    (∃ literal, schemaLiteral? (moduleText p) = some literal ∧
        Json.parse? literal = some (.array (p.messages.map describeMessage))) ∧
      (∀ (i : Nat) (m : MessageSpec), p.messages[i]? = some m → m.tag.toNat = i) ∧
      ∀ (t : Schema) (q : Protocol), t.validate = .ok q → moduleText q = moduleText p →
        q = p ∧ q.fingerprint = p.fingerprint := by
  have hliteral := schemaLiteral?_moduleText p
  have hparse : ∀ q : Protocol, Json.parse? (describe q).render = some (describe q) := fun q =>
    Json.parse?_render (fits_describe 123 q)
  refine ⟨⟨_, hliteral, hparse p⟩, fun i m hm => ?_, fun t q ht htext => ?_⟩
  · obtain ⟨-, -, htag, -⟩ := (Schema.becomes_of_validate hs).source hm
    exact htag
  · have hother := schemaLiteral?_moduleText q
    rw [htext, hliteral, Option.some.injEq] at hother
    have hsame : describe q = describe p := by
      have hread := hparse q
      rw [← hother, hparse p] at hread
      exact (Option.some.inj hread).symm
    have hmessages : q.messages.map describeMessage = p.messages.map describeMessage :=
      Json.Value.array.inj hsame
    have hcontents := contents_of_describe (beating_of_validate ht) (beating_of_validate hs) hmessages
    have heq : q = p :=
      (Schema.becomes_of_validate ht).eq_of_contents (Schema.becomes_of_validate hs) hcontents
    exact ⟨heq, heq ▸ rfl⟩

/-- One message with one field of a byte; a module of other messages is another one. -/
theorem module_describes_protocol_byte :
    (Schema.byteSchema "ab" "c").validate = .ok (Schema.byteProtocol "ab" "Ab" "c") ∧
      schemaLiteral? (moduleText (Schema.byteProtocol "ab" "Ab" "c")) =
        some ("[\x7b\"tag\":0,\"name\":\"ab\",\"direction\":\"bidirectional\",\"fields\":" ++
          "[\x7b\"name\":\"c\",\"type\":\"uint8\",\"optional\":false\x7d]\x7d]") ∧
      (∃ literal, schemaLiteral? (moduleText (Schema.byteProtocol "ab" "Ab" "c")) = some literal ∧
        Json.parse? literal = some (describe (Schema.byteProtocol "ab" "Ab" "c"))) ∧
      arcadeSchema.validate = .ok arcadeProtocol ∧
      moduleText arcadeProtocol ≠ moduleText (Schema.byteProtocol "ab" "Ab" "c") := by
  have hvalid := Schema.byteSchema_validate_ab
  obtain ⟨hliteral, -, hdetermines⟩ := module_describes_protocol hvalid
  refine ⟨hvalid, ?_, hliteral, arcadeSchema_validate, fun htext => ?_⟩
  · rw [schemaLiteral?_moduleText]
    decide +kernel
  · have hsame := (hdetermines arcadeSchema arcadeProtocol arcadeSchema_validate htext).1
    exact absurd hsame (by decide)

end Gamewire.Client
