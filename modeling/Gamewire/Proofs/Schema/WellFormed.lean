import Gamewire.Proofs.Wire.RoundTrip

/-! Which schemas are accepted. The checks go through a schema once and leave some of it unseen when
they find something wrong; all the same they pass exactly the schemas that are in order, and the
protocol has what the schema says, message by message. -/
namespace Gamewire
set_option autoImplicit false

/-! ## Schemas that are in order -/

/-- The field as it is in a checked protocol. -/
structure FieldDef.Becomes (f : FieldDef) (spec : FieldSpec) : Prop where
  name : spec.name = f.name
  type : FieldType.resolve f.typeName f.capacity = .ok spec.type
  optional : spec.optional = f.optional

/-- Most bytes of the field; one whose type is not understood counts nothing. -/
def FieldDef.maxSize (f : FieldDef) : Nat :=
  match FieldType.resolve f.typeName f.capacity with
  | .ok type => type.maxSize + if f.optional then 1 else 0
  | .error _ => 0

namespace MessageDef

/-- A heartbeat goes both ways and is empty, any other message is not. -/
def Shaped (m : MessageDef) : Prop :=
  (m.heartbeat = true ∧ m.direction = .bidirectional ∧ m.fields = []) ∨
    (m.heartbeat = false ∧ m.fields ≠ [])

structure WellFormed (m : MessageDef) : Prop where
  identifier : isIdentifier m.name = true
  generated : pascalCase m.name ≠ ""
  shaped : m.Shaped
  fieldNames : (m.fields.map (·.name)).Nodup
  fieldIdentifiers : ∀ f ∈ m.fields, isIdentifier f.name = true
  resolves : ∀ f ∈ m.fields, ∃ type, FieldType.resolve f.typeName f.capacity = .ok type
  fits : 1 + (m.fields.map FieldDef.maxSize).sum ≤ 128

/-- The message as it is in a checked protocol. -/
structure Becomes (m : MessageDef) (tag : UInt8) (spec : MessageSpec) : Prop where
  tag : spec.tag = tag
  name : spec.name = m.name
  ident : spec.ident = pascalCase m.name
  direction : spec.direction = m.direction
  heartbeat : spec.heartbeat = m.heartbeat
  fields : List.Forall₂ FieldDef.Becomes m.fields spec.fields

end MessageDef

namespace Schema

structure WellFormed (s : Schema) : Prop where
  some : 1 ≤ s.messages.length
  few : s.messages.length ≤ 240
  names : (s.messages.map (·.name)).Nodup
  idents : (s.messages.map (pascalCase ·.name)).Nodup
  messages : ∀ m ∈ s.messages, m.WellFormed

/-- Message for message in order, the place of each being its tag. -/
structure Becomes (s : Schema) (p : Protocol) : Prop where
  length : p.messages.length = s.messages.length
  messages : ∀ (i : Nat) (m : MessageDef), s.messages[i]? = some m →
    ∃ spec, p.messages[i]? = some spec ∧ spec.tag.toNat = i ∧ m.Becomes spec.tag spec

end Schema

/-! ## Names met before -/

/-- Names that are told apart and were not met before. -/
def Fresh (seen names : List String) : Prop := names.Nodup ∧ ∀ name ∈ names, name ∉ seen

theorem fresh_nil (seen : List String) : Fresh seen [] := ⟨List.nodup_nil, List.forall_mem_nil _⟩

theorem fresh_cons {seen names : List String} {name : String} :
    Fresh seen (name :: names) ↔ name ∉ seen ∧ Fresh (name :: seen) names := by
  simp only [Fresh, List.nodup_cons, List.mem_cons, forall_eq_or_imp, not_or]
  constructor
  · rintro ⟨⟨hname, hnodup⟩, hseen, hnames⟩
    exact ⟨hseen, hnodup, fun x hx => ⟨ne_of_mem_of_not_mem hx hname, hnames x hx⟩⟩
  · rintro ⟨hseen, hnodup, hnames⟩
    exact ⟨⟨fun hname => (hnames name hname).1 rfl, hnodup⟩, hseen, fun x hx => (hnames x hx).2⟩

theorem fresh_nil_left {names : List String} : Fresh [] names ↔ names.Nodup := by
  simp [Fresh]

theorem forall₂_mem_left {α β : Type} {R : α → β → Prop} {xs : List α} {ys : List β}
    (h : List.Forall₂ R xs ys) {x : α} (hx : x ∈ xs) : ∃ y ∈ ys, R x y := by
  induction h with
  | nil => cases hx
  | @cons a b as bs hab _ ih =>
    obtain rfl | hx := List.mem_cons.mp hx
    · exact ⟨b, List.mem_cons_self, hab⟩
    · obtain ⟨y, hy, hxy⟩ := ih hx
      exact ⟨y, List.mem_cons_of_mem b hy, hxy⟩

theorem exists_forall₂ {α β : Type} {R : α → β → Prop} {xs : List α}
    (h : ∀ x ∈ xs, ∃ y, R x y) : ∃ ys, List.Forall₂ R xs ys := by
  induction xs with
  | nil => exact ⟨[], .nil⟩
  | cons x xs ih =>
    obtain ⟨⟨y, hy⟩, hrest⟩ := List.forall_mem_cons.mp h
    obtain ⟨ys, hys⟩ := ih hrest
    exact ⟨y :: ys, .cons hy hys⟩

/-! ## Fields -/

variable {message index : Nat} {seen : List String}

theorem checkFields_cons_iff {f : FieldDef} {fs : List FieldDef} {specs : List FieldSpec} :
    checkFields message seen index (f :: fs) = ([], specs) ↔
      f.name ∉ seen ∧ isIdentifier f.name = true ∧ ∃ spec rest, f.Becomes spec ∧
        checkFields message (f.name :: seen) (index + 1) fs = ([], rest) ∧ specs = spec :: rest := by
  rw [checkFields]
  cases hrest : checkFields message (f.name :: seen) (index + 1) fs with
  | mk problems rest =>
  simp only
  by_cases hseen : f.name ∈ seen
  · simp [hseen]
  · by_cases hident : isIdentifier f.name = true
    · rw [if_neg hseen, if_neg (not_not_intro hident)]
      cases hresolve : FieldType.resolve f.typeName f.capacity with
      | error fault =>
        refine iff_of_false (by simp) ?_
        rintro ⟨-, -, spec, rest', hspec, -⟩
        have htype := hspec.type
        rw [hresolve] at htype
        cases htype
      | ok type =>
        simp only [Prod.mk.injEq]
        constructor
        · rintro ⟨rfl, rfl⟩
          exact ⟨hseen, hident, _, rest, ⟨rfl, hresolve, rfl⟩, ⟨rfl, rfl⟩, rfl⟩
        · rintro ⟨-, -, spec, rest', hspec, ⟨rfl, rfl⟩, rfl⟩
          obtain ⟨name, type', optional⟩ := spec
          obtain ⟨rfl, htype, rfl⟩ := hspec
          rw [hresolve] at htype
          cases htype
          exact ⟨rfl, rfl⟩
    · simp [hseen, hident]

theorem checkFields_iff {fs : List FieldDef} {specs : List FieldSpec} :
    checkFields message seen index fs = ([], specs) ↔
      Fresh seen (fs.map (·.name)) ∧ (∀ f ∈ fs, isIdentifier f.name = true) ∧
        List.Forall₂ FieldDef.Becomes fs specs := by
  induction fs generalizing seen index specs with
  | nil =>
    rw [checkFields, List.forall₂_nil_left_iff]
    constructor
    · intro h
      cases h
      exact ⟨fresh_nil seen, List.forall_mem_nil _, rfl⟩
    · rintro ⟨-, -, rfl⟩
      rfl
  | cons f fs ih =>
    -- what was met before grows by the name of the field
    rw [checkFields_cons_iff, List.map_cons, fresh_cons, List.forall_mem_cons,
      List.forall₂_cons_left_iff]
    constructor
    · rintro ⟨hseen, hident, spec, rest, hspec, hrest, rfl⟩
      obtain ⟨hfresh, hidents, hspecs⟩ := ih.mp hrest
      exact ⟨⟨hseen, hfresh⟩, ⟨hident, hidents⟩, spec, rest, hspec, hspecs, rfl⟩
    · rintro ⟨⟨hseen, hfresh⟩, ⟨hident, hidents⟩, spec, rest, hspec, hspecs, rfl⟩
      exact ⟨hseen, hident, spec, rest, hspec, ih.mpr ⟨hfresh, hidents, hspecs⟩, rfl⟩

theorem maxSize_of_becomes {fs : List FieldDef} {specs : List FieldSpec}
    (h : List.Forall₂ FieldDef.Becomes fs specs) :
    specs.foldr (fun f size => f.maxSize + size) 0 = (fs.map FieldDef.maxSize).sum := by
  induction h with
  | nil => rfl
  | cons hspec _ ih =>
    rw [List.foldr_cons, ih, List.map_cons, List.sum_cons, FieldSpec.maxSize, FieldDef.maxSize,
      hspec.type, hspec.optional]

/-! ## Messages -/

theorem checkHeartbeat_eq_nil_iff {m : MessageDef} : checkHeartbeat index m = [] ↔ m.Shaped := by
  unfold checkHeartbeat MessageDef.Shaped
  cases m.heartbeat
  · simp
  · simp [and_comm]

/-- Everything but the name. -/
theorem checkBody_iff {m : MessageDef} {spec : MessageSpec} :
    checkBody index (pascalCase m.name) m = .ok spec ↔
      m.Shaped ∧ (m.fields.map (·.name)).Nodup ∧ (∀ f ∈ m.fields, isIdentifier f.name = true) ∧
        m.Becomes (tagOfIndex index) spec ∧ 1 + (m.fields.map FieldDef.maxSize).sum ≤ 128 := by
  rw [checkBody]
  cases hfields : checkFields index [] 0 m.fields with
  | mk problems fields =>
  have hpassed : (checkHeartbeat index m ++ problems).isEmpty = true ↔
      m.Shaped ∧ problems = [] := by
    rw [List.isEmpty_iff, List.append_eq_nil_iff, checkHeartbeat_eq_nil_iff]
  simp only
  by_cases hclean : m.Shaped ∧ problems = []
  · rw [if_pos (hpassed.mpr hclean)]
    obtain ⟨hshaped, rfl⟩ := hclean
    obtain ⟨hfresh, hidents, hspecs⟩ := checkFields_iff.mp hfields
    rw [fresh_nil_left] at hfresh
    have hsize := maxSize_of_becomes hspecs
    rw [MessageSpec.maxFrameSize, hsize, frameLimit]
    constructor
    · intro h
      split at h
      · rename_i hfits
        cases h
        exact ⟨hshaped, hfresh, hidents, ⟨rfl, rfl, rfl, rfl, rfl, hspecs⟩, hfits⟩
      · cases h
    · rintro ⟨-, -, -, hspec, hfits⟩
      have hsame : checkFields index [] 0 m.fields = ([], spec.fields) :=
        checkFields_iff.mpr ⟨fresh_nil_left.mpr hfresh, hidents, hspec.fields⟩
      rw [hfields, Prod.mk.injEq] at hsame
      obtain ⟨tag, name, ident, direction, heartbeat, specs⟩ := spec
      obtain ⟨rfl, rfl, rfl, rfl, rfl, -⟩ := hspec
      rw [if_pos hfits, hsame.2]
  · rw [if_neg (mt hpassed.mp hclean)]
    refine iff_of_false (by simp) ?_
    rintro ⟨hshaped, hnodup, hidents, hspec, -⟩
    have hpass : checkFields index [] 0 m.fields = ([], spec.fields) :=
      checkFields_iff.mpr ⟨fresh_nil_left.mpr hnodup, hidents, hspec.fields⟩
    rw [hfields] at hpass
    exact hclean ⟨hshaped, congrArg Prod.fst hpass⟩

theorem resolves_of_becomes {fs : List FieldDef} {specs : List FieldSpec}
    (h : List.Forall₂ FieldDef.Becomes fs specs) :
    ∀ f ∈ fs, ∃ type, FieldType.resolve f.typeName f.capacity = .ok type := by
  intro f hf
  obtain ⟨spec, -, hspec⟩ := forall₂_mem_left h hf
  exact ⟨spec.type, hspec.type⟩

theorem exists_becomes_of_resolves {fs : List FieldDef}
    (h : ∀ f ∈ fs, ∃ type, FieldType.resolve f.typeName f.capacity = .ok type) :
    ∃ specs, List.Forall₂ FieldDef.Becomes fs specs :=
  exists_forall₂ fun f hf => by
    obtain ⟨type, htype⟩ := h f hf
    exact ⟨⟨f.name, type, f.optional⟩, rfl, htype, rfl⟩

theorem wellFormed_of_checkBody {m : MessageDef} {spec : MessageSpec}
    (hidentifier : isIdentifier m.name = true) (hgenerated : pascalCase m.name ≠ "")
    (h : checkBody index (pascalCase m.name) m = .ok spec) : m.WellFormed := by
  obtain ⟨hshaped, hnodup, hfields, hspec, hfits⟩ := checkBody_iff.mp h
  exact ⟨hidentifier, hgenerated, hshaped, hnodup, hfields, resolves_of_becomes hspec.fields, hfits⟩

theorem checkBody_error {ident : String} {m : MessageDef} {problems : List Problem}
    (h : checkBody index ident m = .error problems) : problems ≠ [] := by
  unfold checkBody at h
  simp only at h
  split at h
  · split at h
    · cases h
    · cases h
      exact List.cons_ne_nil _ _
  · rename_i hsome
    cases h
    simpa using hsome

theorem not_mem_keys_iff {key : String} {pairs : List (String × String)} :
    key ∉ pairs.map (·.1) ↔ pairs.lookup key = none := by
  rw [List.lookup_eq_none_iff, List.mem_map]
  constructor
  · intro h pair hpair
    exact bne_iff_ne.mpr fun heq => h ⟨pair, hpair, heq.symm⟩
  · rintro h ⟨pair, hpair, rfl⟩
    exact absurd rfl (bne_iff_ne.mp (h pair hpair))

theorem checkMessages_cons_iff {seen : NamesSeen} {m : MessageDef} {ms : List MessageDef}
    {specs : List MessageSpec} :
    checkMessages seen index (m :: ms) = ([], specs) ↔
      m.name ∉ seen.names ∧ pascalCase m.name ∉ seen.idents.map (·.1) ∧
        (isIdentifier m.name = true ∧ pascalCase m.name ≠ "") ∧
        ∃ spec rest, checkBody index (pascalCase m.name) m = .ok spec ∧
          checkMessages ⟨m.name :: seen.names, (pascalCase m.name, m.name) :: seen.idents⟩
            (index + 1) ms = ([], rest) ∧ specs = spec :: rest := by
  rw [not_mem_keys_iff, checkMessages]
  simp only
  by_cases hname : m.name ∈ seen.names
  · simp [hname]
  by_cases hident : isIdentifier m.name = true ∧ pascalCase m.name ≠ ""
  · have hrefused : ¬ (¬ isIdentifier m.name = true ∨ pascalCase m.name = "") :=
      fun h => h.elim (fun hnot => hnot hident.1) hident.2
    rw [if_neg hname, if_neg hrefused]
    cases hclaimed : seen.idents.lookup (pascalCase m.name) with
    | some other => simp
    | none =>
      simp only [hname, hident, not_false_eq_true, true_and, ne_eq]
      cases hrest : checkMessages ⟨m.name :: seen.names,
        (pascalCase m.name, m.name) :: seen.idents⟩ (index + 1) ms with
      | mk problems rest =>
      cases hbody : checkBody index (pascalCase m.name) m with
      | error own =>
        have hown := checkBody_error hbody
        simp [hown]
      | ok spec =>
        simp only [Prod.mk.injEq, Except.ok.injEq]
        constructor
        · rintro ⟨rfl, rfl⟩
          exact ⟨spec, rest, rfl, ⟨rfl, rfl⟩, rfl⟩
        · rintro ⟨-, -, rfl, ⟨rfl, rfl⟩, rfl⟩
          exact ⟨rfl, rfl⟩
  · have hrefused : ¬ isIdentifier m.name = true ∨ pascalCase m.name = "" := by
      by_cases h : isIdentifier m.name = true
      · exact .inr (not_not.mp fun hne => hident ⟨h, hne⟩)
      · exact .inl h
    rw [if_neg hname, if_pos hrefused]
    refine iff_of_false (by simp) ?_
    rintro ⟨-, -, hnamed, -⟩
    exact hident hnamed

/-- The messages pass if each is in order and both their names and their generated names are told
apart. -/
theorem checkMessages_iff {seen : NamesSeen} {ms : List MessageDef} {specs : List MessageSpec} :
    checkMessages seen index ms = ([], specs) ↔
      Fresh seen.names (ms.map (·.name)) ∧
        Fresh (seen.idents.map (·.1)) (ms.map (pascalCase ·.name)) ∧
        (∀ m ∈ ms, m.WellFormed) ∧
        List.Forall₂ (fun x spec => MessageDef.Becomes x.1 (tagOfIndex x.2) spec)
          (ms.zipIdx index) specs := by
  induction ms generalizing seen index specs with
  | nil =>
    rw [checkMessages, List.zipIdx_nil, List.forall₂_nil_left_iff]
    constructor
    · intro h
      cases h
      exact ⟨fresh_nil _, fresh_nil _, List.forall_mem_nil _, rfl⟩
    · rintro ⟨-, -, -, rfl⟩
      rfl
  | cons m ms ih =>
    rw [checkMessages_cons_iff, List.map_cons, List.map_cons, fresh_cons, fresh_cons,
      List.forall_mem_cons, List.zipIdx_cons, List.forall₂_cons_left_iff]
    constructor
    · rintro ⟨hname, hident, ⟨hidentifier, hgenerated⟩, spec, rest, hbody, hrest, rfl⟩
      obtain ⟨hnames, hidents, hms, hspecs⟩ := ih.mp hrest
      obtain ⟨-, -, -, hspec, -⟩ := checkBody_iff.mp hbody
      exact ⟨⟨hname, hnames⟩, ⟨hident, hidents⟩,
        ⟨wellFormed_of_checkBody hidentifier hgenerated hbody, hms⟩, spec, rest, hspec, hspecs, rfl⟩
    · rintro ⟨⟨hname, hnames⟩, ⟨hident, hidents⟩, ⟨hm, hms⟩, spec, rest, hspec, hspecs, rfl⟩
      refine ⟨hname, hident, ⟨hm.identifier, hm.generated⟩, spec, rest, ?_,
        ih.mpr ⟨hnames, hidents, hms, hspecs⟩, rfl⟩
      exact checkBody_iff.mpr ⟨hm.shaped, hm.fieldNames, hm.fieldIdentifiers, hspec, hm.fits⟩

/-! ## Schemas -/

theorem MessageDef.WellFormed.exists_becomes {m : MessageDef} (h : m.WellFormed) (tag : UInt8) :
    ∃ spec, m.Becomes tag spec := by
  obtain ⟨fields, hspecs⟩ := exists_becomes_of_resolves h.resolves
  exact ⟨⟨tag, m.name, pascalCase m.name, m.direction, m.heartbeat, fields⟩,
    rfl, rfl, rfl, rfl, rfl, hspecs⟩

theorem checkCount_eq_nil_iff {s : Schema} :
    checkCount s = [] ↔ 1 ≤ s.messages.length ∧ s.messages.length ≤ 240 := by
  have hsome : s.messages.isEmpty = true ↔ ¬ 1 ≤ s.messages.length := by
    rw [List.isEmpty_iff_length_eq_zero]
    omega
  have hfew : s.messages.length > maxMessages ↔ ¬ s.messages.length ≤ 240 := by
    rw [maxMessages]
    omega
  simp only [checkCount, hsome, hfew, List.append_eq_nil_iff, ite_eq_right_iff, List.cons_ne_nil,
    imp_false, not_not]

namespace Schema

variable {s : Schema} {p : Protocol}

theorem validate_ok_iff : s.validate = .ok p ↔
    s.WellFormed ∧ List.Forall₂ (fun x spec => MessageDef.Becomes x.1 (tagOfIndex x.2) spec)
      s.messages.zipIdx p.messages := by
  have hmessages : checkMessages {} 0 s.messages = ([], p.messages) ↔ _ := checkMessages_iff
  rw [List.map_nil, fresh_nil_left, fresh_nil_left] at hmessages
  unfold validate
  cases hcheck : checkMessages {} 0 s.messages with
  | mk problems specs =>
  rw [hcheck, Prod.mk.injEq] at hmessages
  simp only
  constructor
  · intro h
    split at h
    · rename_i hclean
      rw [List.isEmpty_iff, List.append_eq_nil_iff, checkCount_eq_nil_iff] at hclean
      cases h
      obtain ⟨hnames, hidents, hall, hspecs⟩ := hmessages.mp ⟨hclean.2, rfl⟩
      exact ⟨⟨hclean.1.1, hclean.1.2, hnames, hidents, hall⟩, hspecs⟩
    · cases h
  · rintro ⟨hwf, hspecs⟩
    obtain ⟨rfl, rfl⟩ := hmessages.mpr ⟨hwf.names, hwf.idents, hwf.messages, hspecs⟩
    rw [checkCount_eq_nil_iff.mpr ⟨hwf.some, hwf.few⟩]
    rfl

theorem exists_validate_iff : (∃ p, s.validate = .ok p) ↔ s.WellFormed := by
  constructor
  · rintro ⟨p, hp⟩
    exact (validate_ok_iff.mp hp).1
  · intro hwf
    have hall : ∀ x ∈ s.messages.zipIdx, ∃ spec, MessageDef.Becomes x.1 (tagOfIndex x.2) spec :=
      fun x hx => (hwf.messages x.1 (List.fst_mem_of_mem_zipIdx hx)).exists_becomes _
    obtain ⟨specs, hspecs⟩ := exists_forall₂ hall
    exact ⟨⟨specs⟩, validate_ok_iff.mpr ⟨hwf, hspecs⟩⟩

theorem becomes_of_validate (h : s.validate = .ok p) : s.Becomes p := by
  obtain ⟨hwf, hspecs⟩ := validate_ok_iff.mp h
  obtain ⟨hlength, hall⟩ := List.forall₂_iff_get.mp hspecs
  rw [List.length_zipIdx] at hlength
  refine ⟨hlength.symm, fun i m hm => ?_⟩
  obtain ⟨hi, rfl⟩ := List.getElem?_eq_some_iff.mp hm
  have hspec := hall i (by rwa [List.length_zipIdx]) (hlength ▸ hi)
  simp only [List.get_eq_getElem, List.getElem_zipIdx, Nat.zero_add] at hspec
  -- there are fewer messages than tags
  have htag : (tagOfIndex i).toNat = i := by
    have hfew := hwf.few
    rw [tagOfIndex, if_pos (by omega)]
    exact UInt8.toNat_ofNat_of_lt' (by rw [UInt8.size]; omega)
  refine ⟨_, List.getElem?_eq_getElem _, by rw [hspec.tag, htag], ?_⟩
  rw [hspec.tag]
  exact hspec

end Schema

/-! ## Lookups -/

theorem find?_key_iff {α : Type} {key : α → String} {xs : List α} (hn : (xs.map key).Nodup)
    {name : String} {x : α} :
    xs.find? (key · == name) = some x ↔ x ∈ xs ∧ key x = name := by
  constructor
  · intro h
    have hkey := List.find?_some h
    exact ⟨List.mem_of_find?_eq_some h, beq_iff_eq.mp hkey⟩
  · rintro ⟨hx, hkey⟩
    cases hfind : xs.find? (key · == name) with
    | none => exact absurd hkey (by simpa using List.find?_eq_none.mp hfind x hx)
    | some y =>
      have hy := List.mem_of_find?_eq_some hfind
      have hkey' := List.find?_some hfind
      have hsame : key y = key x := (beq_iff_eq.mp hkey').trans hkey.symm
      rw [List.inj_on_of_nodup_map hn hy hx hsame]

theorem findIdx?_key_iff {α : Type} {key : α → String} {xs : List α} (hn : (xs.map key).Nodup)
    {name : String} {i : Nat} :
    xs.findIdx? (key · == name) = some i ↔ ∃ x, xs[i]? = some x ∧ key x = name := by
  rw [List.findIdx?_eq_some_iff_getElem]
  constructor
  · rintro ⟨hi, hkey, -⟩
    exact ⟨xs[i], List.getElem?_eq_getElem hi, beq_iff_eq.mp hkey⟩
  · rintro ⟨x, hx, rfl⟩
    obtain ⟨hi, rfl⟩ := List.getElem?_eq_some_iff.mp hx
    refine ⟨hi, beq_self_eq_true _, fun j hji => ?_⟩
    have hne := List.pairwise_iff_getElem.mp hn j i (by simp; omega) (by simpa using hi) hji
    simpa using hne

/-- Every message is found by its tag and by its name and no other way, and every field by its name. -/
structure Protocol.Indexed (p : Protocol) : Prop where
  ofTag_iff : ∀ tag m, p.ofTag? tag = some m ↔ m ∈ p.messages ∧ m.tag = tag
  find_iff : ∀ name m, p.find? name = some m ↔ m ∈ p.messages ∧ m.name = name
  byName_iff : ∀ name m, p.byName? name = some m ↔ m ∈ p.messages ∧ m.name = name
  fieldIndex_iff : ∀ m ∈ p.messages, ∀ name i,
    m.fieldIndex? name = some i ↔ ∃ f, m.fields[i]? = some f ∧ f.name = name

namespace Schema

variable {s : Schema} {p : Protocol}

theorem Becomes.source (h : s.Becomes p) {i : Nat} {spec : MessageSpec}
    (hspec : p.messages[i]? = some spec) :
    ∃ m, s.messages[i]? = some m ∧ spec.tag.toNat = i ∧ m.Becomes spec.tag spec := by
  obtain ⟨hi, -⟩ := List.getElem?_eq_some_iff.mp hspec
  obtain ⟨spec', hspec', htag, hbecomes⟩ := h.messages i _ (List.getElem?_eq_getElem (h.length ▸ hi))
  rw [hspec] at hspec'
  cases hspec'
  exact ⟨_, List.getElem?_eq_getElem _, htag, hbecomes⟩

/-- Every message of a checked protocol comes of a definition that is in order. -/
theorem Becomes.source_of_mem (h : s.Becomes p) (hwf : s.WellFormed) {spec : MessageSpec}
    (hspec : spec ∈ p.messages) : ∃ m : MessageDef, m.WellFormed ∧ m.Becomes spec.tag spec := by
  obtain ⟨i, hi⟩ := List.mem_iff_getElem?.mp hspec
  obtain ⟨m, hm, -, hbecomes⟩ := h.source hi
  exact ⟨m, hwf.messages m (List.mem_of_getElem? hm), hbecomes⟩

theorem source_of_validate (h : s.validate = .ok p) {spec : MessageSpec}
    (hspec : spec ∈ p.messages) : ∃ m : MessageDef, m.WellFormed ∧ m.Becomes spec.tag spec :=
  (becomes_of_validate h).source_of_mem (validate_ok_iff.mp h).1 hspec

theorem bidirectional_of_heartbeat (h : s.validate = .ok p) {tag : UInt8} {spec : MessageSpec}
    (hspec : p.ofTag? tag = some spec) (hbeat : spec.heartbeat = true) :
    spec.direction = .bidirectional := by
  obtain ⟨m, hwf, hbecomes⟩ := source_of_validate h (List.mem_of_getElem? hspec)
  obtain ⟨-, hways, -⟩ | ⟨hnot, -⟩ := hwf.shaped
  · rw [hbecomes.direction, hways]
  · rw [hbecomes.heartbeat, hnot] at hbeat
    cases hbeat

/-- What a checked message takes over from its definition, it takes over in order. -/
theorem Becomes.map_eq {α : Type} {ofSpec : MessageSpec → α} {ofDef : MessageDef → α}
    (hsame : ∀ m tag spec, MessageDef.Becomes m tag spec → ofSpec spec = ofDef m)
    (h : s.Becomes p) : p.messages.map ofSpec = s.messages.map ofDef := by
  apply List.ext_getElem?
  intro i
  rw [List.getElem?_map, List.getElem?_map]
  cases hm : s.messages[i]? with
  | none =>
    rw [List.getElem?_eq_none_iff] at hm
    rw [List.getElem?_eq_none (h.length ▸ hm)]
    rfl
  | some m =>
    obtain ⟨spec, hspec, -, hbecomes⟩ := h.messages i m hm
    rw [hspec]
    exact congrArg some (hsame m spec.tag spec hbecomes)

theorem Becomes.names_eq (h : s.Becomes p) :
    p.messages.map (·.name) = s.messages.map (·.name) :=
  h.map_eq fun _ _ _ hbecomes => hbecomes.name

theorem Becomes.idents_eq (h : s.Becomes p) :
    p.messages.map (·.ident) = s.messages.map (pascalCase ·.name) :=
  h.map_eq fun _ _ _ hbecomes => hbecomes.ident

theorem field_names_eq {fs : List FieldDef} {specs : List FieldSpec}
    (h : List.Forall₂ FieldDef.Becomes fs specs) : specs.map (·.name) = fs.map (·.name) := by
  induction h with
  | nil => rfl
  | cons hspec _ ih => rw [List.map_cons, List.map_cons, ih, hspec.name]

theorem Becomes.indexed (h : s.Becomes p) (hwf : s.WellFormed) : p.Indexed := by
  have hnames : (p.messages.map (·.name)).Nodup := h.names_eq ▸ hwf.names
  have htag : ∀ tag m, p.ofTag? tag = some m ↔ m ∈ p.messages ∧ m.tag = tag := by
    intro tag m
    rw [Protocol.ofTag?]
    constructor
    · intro hm
      obtain ⟨-, -, htoNat, -⟩ := h.source hm
      exact ⟨List.mem_of_getElem? hm, UInt8.toNat_inj.mp htoNat⟩
    · rintro ⟨hm, rfl⟩
      obtain ⟨i, hi⟩ := List.mem_iff_getElem?.mp hm
      obtain ⟨-, -, htoNat, -⟩ := h.source hi
      rw [htoNat, hi]
  refine ⟨htag, fun name m => find?_key_iff hnames, ?_, ?_⟩
  · intro name m
    have hreversed : (p.messages.reverse.map (·.name)).Nodup := by
      rw [List.map_reverse]
      exact List.nodup_reverse.mpr hnames
    have hfind : ∀ m, p.messages.reverse.find? (·.name == name) = some m ↔
        m ∈ p.messages ∧ m.name = name := by
      intro m
      rw [find?_key_iff hreversed, List.mem_reverse]
    unfold Protocol.byName?
    constructor
    · intro hm
      split at hm
      · rename_i m' hm'
        obtain ⟨hmem', hname'⟩ := (hfind m').mp hm'
        rw [(htag m'.tag m').mpr ⟨hmem', rfl⟩] at hm
        cases hm
        exact ⟨hmem', hname'⟩
      · cases hm
    · intro hm
      rw [(hfind m).mpr hm]
      exact (htag m.tag m).mpr ⟨hm.1, rfl⟩
  · intro m hm name i
    obtain ⟨d, hd, hbecomes⟩ := h.source_of_mem hwf hm
    apply findIdx?_key_iff
    rw [field_names_eq hbecomes.fields]
    exact hd.fieldNames

theorem indexed_of_validate (h : s.validate = .ok p) : p.Indexed :=
  (becomes_of_validate h).indexed (validate_ok_iff.mp h).1

/-- Exactly the schemas that are in order are accepted. The protocol has their messages in order, with
the types of their fields understood, and finds each by its tag and by its name. -/
theorem validate_faithful (s : Schema) :
    ((∃ p, s.validate = .ok p) ↔ s.WellFormed) ∧
      ∀ p, s.validate = .ok p → s.Becomes p ∧ p.Indexed := by
  refine ⟨exists_validate_iff, fun p hp => ?_⟩
  exact ⟨becomes_of_validate hp, indexed_of_validate hp⟩

theorem validate_faithful_arcadeSchema :
    arcadeSchema.validate = .ok arcadeProtocol ∧ arcadeSchema.WellFormed ∧
      arcadeSchema.Becomes arcadeProtocol ∧
      arcadeProtocol.byName? "state" = arcadeProtocol.ofTag? 1 := by
  have h := validate_faithful arcadeSchema
  obtain ⟨hbecomes, hindexed⟩ := h.2 arcadeProtocol arcadeSchema_validate
  refine ⟨arcadeSchema_validate, h.1.mp ⟨_, arcadeSchema_validate⟩, hbecomes, ?_⟩
  exact (hindexed.byName_iff "state" _).mpr ⟨List.mem_cons_of_mem _ List.mem_cons_self, rfl⟩

end Schema

end Gamewire
