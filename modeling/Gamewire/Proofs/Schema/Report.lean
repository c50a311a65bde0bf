import Gamewire.Proofs.Schema.WellFormed
import Mathlib.Data.Prod.Lex

/-! What the report on a schema tells. Every problem in it is one that the schema has at the place given,
every message with something wrong has a problem of its own there, and the problems come in the order of
their places. -/
namespace Gamewire
set_option autoImplicit false

/-! ## Problems that a schema has -/

/-- The reason is true of the field, `before` being the fields of its message that stand before it. -/
inductive FieldDef.Deserves (before : List FieldDef) (f : FieldDef) : Reason → Prop
  | duplicate {e : FieldDef} (earlier : e ∈ before) (same : e.name = f.name) :
      Deserves before f (.duplicateField f.name)
  | identifier (bad : isIdentifier f.name = false) : Deserves before f (.invalidIdentifier f.name)
  | type {fault : TypeFault} (bad : FieldType.resolve f.typeName f.capacity = .error fault) :
      Deserves before f (.badType fault)

/-- The reason is true of the message, `before` being the messages that stand before it. A name has to
be an identifier from which a name for generated code can be made. -/
inductive MessageDef.Deserves (before : List MessageDef) (m : MessageDef) : Reason → Prop
  | duplicate {e : MessageDef} (earlier : e ∈ before) (same : e.name = m.name) :
      Deserves before m (.duplicateMessage m.name)
  | identifier (bad : isIdentifier m.name = false ∨ pascalCase m.name = "") :
      Deserves before m (.invalidIdentifier m.name)
  | collision {e : MessageDef} (earlier : e ∈ before) (other : e.name ≠ m.name)
      (same : pascalCase e.name = pascalCase m.name) :
      Deserves before m (.generatedNameCollision (pascalCase m.name) e.name)
  | empty (plain : m.heartbeat = false) (bare : m.fields = []) : Deserves before m .emptyMessage
  | fields (heartbeat : m.heartbeat = true) (filled : m.fields ≠ []) :
      Deserves before m .heartbeatWithFields
  | direction (heartbeat : m.heartbeat = true) (oneWay : m.direction ≠ .bidirectional) :
      Deserves before m (.heartbeatDirection m.direction)
  | size (resolves : ∀ f ∈ m.fields, ∃ type, FieldType.resolve f.typeName f.capacity = .ok type)
      (large : 128 < 1 + (m.fields.map FieldDef.maxSize).sum) :
      Deserves before m (.frameTooLarge (1 + (m.fields.map FieldDef.maxSize).sum) 128)

/-- The problem is one of message `index`, or of one of its fields. -/
inductive MessageDef.Bears (before : List MessageDef) (index : Nat) (m : MessageDef) : Problem → Prop
  | own {reason : Reason} (deserved : m.Deserves before reason) :
      Bears before index m (.ofMessage index reason)
  | field {k : Nat} {f : FieldDef} {reason : Reason} (place : m.fields[k]? = some f)
      (deserved : f.Deserves (m.fields.take k) reason) : Bears before index m (.ofField index k reason)

inductive Schema.Bears (s : Schema) : Problem → Prop
  | none (bare : s.messages = []) : Bears s (.ofSchema .noMessages)
  | many (long : 240 < s.messages.length) :
      Bears s (.ofSchema (.tooManyMessages s.messages.length 240))
  | message {i : Nat} {m : MessageDef} {q : Problem} (place : s.messages[i]? = some m)
      (borne : m.Bears (s.messages.take i) i q) : Bears s q

/-- Something is wrong with the message, by itself or because of one that stands before it. -/
def MessageDef.Faulty (before : List MessageDef) (m : MessageDef) : Prop :=
  ¬ m.WellFormed ∨ (∃ e ∈ before, e.name = m.name) ∨
    ∃ e ∈ before, isIdentifier e.name = true ∧ pascalCase e.name = pascalCase m.name

/-- Where a problem stands: the schema comes before its messages, and a message before its fields. -/
def Problem.place (q : Problem) : ℕ ×ₗ ℕ :=
  toLex (q.message?.elim 0 (· + 1), q.field?.elim 0 (· + 1))

def Ordered (problems : List Problem) : Prop := problems.Pairwise fun p q => p.place ≤ q.place

/-- What a report tells. -/
structure Schema.Report (s : Schema) (problems : List Problem) : Prop where
  nonempty : problems ≠ []
  sound : ∀ q ∈ problems, s.Bears q
  complete : ∀ i m, s.messages[i]? = some m →
    ((∃ q ∈ problems, q.message? = some i) ↔ m.Faulty (s.messages.take i))
  ordered : Ordered problems

/-! ## One after the other -/

/-- The problems are those of the elements in turn: `Own before x own` says which the element `x` has
behind the elements `before`. -/
inductive InTurn {α : Type} (Own : List α → α → List Problem → Prop) :
    List α → List α → List Problem → Prop
  | nil (before : List α) : InTurn Own before [] []
  | cons {before : List α} {x : α} {xs : List α} {own rest : List Problem} (head : Own before x own)
      (tail : InTurn Own (before ++ [x]) xs rest) : InTurn Own before (x :: xs) (own ++ rest)

namespace InTurn

variable {α : Type} {Own : List α → α → List Problem → Prop} {before xs : List α}
  {problems : List Problem}

theorem own_of_mem (h : InTurn Own before xs problems) {q : Problem} (hq : q ∈ problems) :
    ∃ i x own, xs[i]? = some x ∧ Own (before ++ xs.take i) x own ∧ q ∈ own := by
  induction h with
  | nil => cases hq
  | @cons before x xs own rest hown _ ih =>
    obtain hq | hq := List.mem_append.mp hq
    · exact ⟨0, x, own, rfl, by rwa [List.take_zero, List.append_nil], hq⟩
    · obtain ⟨i, y, own', hy, hown', hq⟩ := ih hq
      exact ⟨i + 1, y, own', hy, by rwa [List.take_succ_cons, List.append_cons], hq⟩

theorem own_of_getElem? (h : InTurn Own before xs problems) {i : Nat} {x : α}
    (hx : xs[i]? = some x) : ∃ own, Own (before ++ xs.take i) x own ∧ own ⊆ problems := by
  induction h generalizing i with
  | nil => cases hx
  | @cons before y ys own rest hown _ ih =>
    cases i with
    | zero =>
      cases hx
      exact ⟨own, by rwa [List.take_zero, List.append_nil], List.subset_append_left own rest⟩
    | succ i =>
      obtain ⟨own', hown', hsub⟩ := ih hx
      exact ⟨own', by rwa [List.take_succ_cons, List.append_cons],
        List.subset_append_of_subset_right own hsub⟩

/-- Lists in order, one behind the other, are in order. -/
theorem ordered (h : InTurn Own before xs problems) (At : Nat → Problem → Prop)
    (hown : ∀ {before x own}, Own before x own → Ordered own ∧ ∀ q ∈ own, At before.length q)
    (hplace : ∀ {i j p q}, At i p → At j q → i < j → p.place ≤ q.place) : Ordered problems := by
  induction h with
  | nil => exact List.Pairwise.nil
  | @cons before x xs own rest hx hrest ih =>
    obtain ⟨hordered, hat⟩ := hown hx
    refine List.pairwise_append.mpr ⟨hordered, ih, fun p hp q hq => ?_⟩
    obtain ⟨i, y, own', -, hy, hq⟩ := hrest.own_of_mem hq
    refine hplace (hat p hp) ((hown hy).2 q hq) ?_
    rw [List.length_append, List.length_append, List.length_singleton]
    omega

end InTurn

theorem length_take_of_getElem? {α : Type} {xs : List α} {i : Nat} {x : α}
    (h : xs[i]? = some x) : (xs.take i).length = i := by
  obtain ⟨hi, -⟩ := List.getElem?_eq_some_iff.mp h
  exact List.length_take_of_le hi.le

theorem Problem.place_le_of_message {p q : Problem} {i j : Nat} (hp : p.message? = some i)
    (hq : q.message? = some j) (h : i < j) : p.place ≤ q.place := by
  rw [place, place, hp, hq]
  exact Prod.Lex.toLex_le_toLex.mpr (.inl (Nat.add_lt_add_right h 1))

theorem Problem.place_le_of_field {p q : Problem} (hmessage : p.message? = q.message?)
    (hfield : p.field?.elim 0 (· + 1) ≤ q.field?.elim 0 (· + 1)) : p.place ≤ q.place := by
  rw [place, place, hmessage]
  exact Prod.Lex.toLex_le_toLex.mpr (.inr ⟨rfl, hfield⟩)

/-! ## Fields -/

variable {index : Nat}

/-- What the checks say of a field: nothing, or one reason that is true of it. -/
def FieldDef.Told (index : Nat) (before : List FieldDef) (f : FieldDef) (own : List Problem) :
    Prop :=
  own = [] ∨ ∃ reason, f.Deserves before reason ∧ own = [.ofField index before.length reason]

theorem checkFields_cons_told (before : List FieldDef) (f : FieldDef) (fs : List FieldDef) :
    ∃ own, f.Told index before own ∧
      (checkFields index (before.map (·.name)).reverse before.length (f :: fs)).1 = own ++
        (checkFields index ((before ++ [f]).map (·.name)).reverse (before ++ [f]).length fs).1 := by
  have hseen : ((before ++ [f]).map (·.name)).reverse =
      f.name :: (before.map (·.name)).reverse := by
    rw [List.map_append, List.reverse_append]
    rfl
  rw [hseen, List.length_append, List.length_singleton, checkFields]
  cases checkFields index (f.name :: (before.map (·.name)).reverse) (before.length + 1) fs with
  | mk problems specs =>
  simp only
  by_cases hdup : f.name ∈ (before.map (·.name)).reverse
  · rw [if_pos hdup]
    obtain ⟨e, he, hname⟩ := List.mem_map.mp (List.mem_reverse.mp hdup)
    exact ⟨_, .inr ⟨_, .duplicate he hname, rfl⟩, rfl⟩
  rw [if_neg hdup]
  by_cases hident : isIdentifier f.name = true
  · rw [if_neg (not_not_intro hident)]
    cases hresolve : FieldType.resolve f.typeName f.capacity with
    | ok type => exact ⟨[], .inl rfl, rfl⟩
    | error fault => exact ⟨_, .inr ⟨_, .type hresolve, rfl⟩, rfl⟩
  · rw [if_pos hident]
    exact ⟨_, .inr ⟨_, .identifier (Bool.eq_false_iff.mpr hident), rfl⟩, rfl⟩

theorem checkFields_told (before fs : List FieldDef) :
    InTurn (FieldDef.Told index) before fs
      (checkFields index (before.map (·.name)).reverse before.length fs).1 := by
  induction fs generalizing before with
  | nil =>
    rw [checkFields]
    exact .nil before
  | cons f fs ih =>
    obtain ⟨own, htold, heq⟩ := checkFields_cons_told before f fs
    rw [heq]
    exact .cons htold (ih (before ++ [f]))

/-- The problems of the fields are true of them, and in order. -/
theorem checkFields_report (index : Nat) (before : List MessageDef) (m : MessageDef) :
    (∀ q ∈ (checkFields index [] 0 m.fields).1, m.Bears before index q) ∧
      Ordered (checkFields index [] 0 m.fields).1 := by
  have htold : InTurn (FieldDef.Told index) [] m.fields (checkFields index [] 0 m.fields).1 :=
    checkFields_told [] m.fields
  constructor
  · intro q hq
    obtain ⟨k, f, own, hf, hown, hq⟩ := htold.own_of_mem hq
    obtain rfl | ⟨reason, hdeserved, rfl⟩ := hown
    · cases hq
    · rw [List.nil_append, length_take_of_getElem? hf, List.mem_singleton] at hq
      subst hq
      exact .field hf hdeserved
  · refine htold.ordered (fun k q => q.message? = some index ∧ q.field? = some k) ?_ ?_
    · rintro before f own (rfl | ⟨reason, -, rfl⟩)
      · exact ⟨List.Pairwise.nil, List.forall_mem_nil _⟩
      · exact ⟨List.pairwise_singleton _ _, by simp [Problem.ofField]⟩
    · rintro k l p q ⟨hp, hpf⟩ ⟨hq, hqf⟩ hlt
      refine Problem.place_le_of_field (hp.trans hq.symm) ?_
      rw [hpf, hqf]
      exact Nat.add_le_add_right hlt.le 1

/-! ## Messages -/

theorem MessageDef.Bears.message {before : List MessageDef} {m : MessageDef} {q : Problem}
    (h : m.Bears before index q) : q.message? = some index := by
  cases h with
  | own => rfl
  | field => rfl

theorem checkHeartbeat_report (index : Nat) (before : List MessageDef) (m : MessageDef) :
    (∀ q ∈ checkHeartbeat index m, m.Bears before index q ∧ q.field? = none) ∧
      Ordered (checkHeartbeat index m) := by
  have hown : ∀ q ∈ checkHeartbeat index m, ∃ reason, m.Deserves before reason ∧
      q = .ofMessage index reason := by
    intro q hq
    unfold checkHeartbeat at hq
    by_cases hbeat : m.heartbeat = true
    · rw [if_pos hbeat] at hq
      obtain hq | hq := List.mem_append.mp hq
      · by_cases hbare : m.fields = []
        · simp [hbare] at hq
        · rw [if_neg (by rwa [List.isEmpty_iff]), List.mem_singleton] at hq
          exact ⟨_, .fields hbeat hbare, hq⟩
      · by_cases hways : m.direction = .bidirectional
        · simp [hways] at hq
        · rw [if_neg hways, List.mem_singleton] at hq
          exact ⟨_, .direction hbeat hways, hq⟩
    · rw [if_neg hbeat] at hq
      by_cases hbare : m.fields = []
      · rw [if_pos (by rwa [List.isEmpty_iff]), List.mem_singleton] at hq
        exact ⟨_, .empty (Bool.eq_false_iff.mpr hbeat) hbare, hq⟩
      · simp [hbare] at hq
  refine ⟨fun q hq => ?_, List.pairwise_of_forall_mem_list fun p hp q hq => ?_⟩
  · obtain ⟨reason, hdeserved, rfl⟩ := hown q hq
    exact ⟨.own hdeserved, rfl⟩
  · obtain ⟨reason, -, rfl⟩ := hown p hp
    obtain ⟨reason', -, rfl⟩ := hown q hq
    exact le_rfl

/-- What the checks say of a message behind others. -/
structure MessageDef.Told (before : List MessageDef) (m : MessageDef) (own : List Problem) :
    Prop where
  sound : ∀ q ∈ own, m.Bears before before.length q
  complete : own ≠ [] ↔ m.Faulty before
  ordered : Ordered own

theorem MessageDef.told_singleton {before : List MessageDef} {m : MessageDef} {reason : Reason}
    (hdeserved : m.Deserves before reason) (hfaulty : m.Faulty before) :
    m.Told before [.ofMessage before.length reason] where
  sound _ hq := List.mem_singleton.mp hq ▸ .own hdeserved
  complete := iff_of_true (List.cons_ne_nil _ _) hfaulty
  ordered := List.pairwise_singleton _ _

/-- The frame is measured only when nothing else is wrong with the message. -/
theorem checkBody_error_cases (before : List MessageDef) {ident : String} {m : MessageDef}
    {own : List Problem} (h : checkBody index ident m = .error own) :
    own = checkHeartbeat index m ++ (checkFields index [] 0 m.fields).1 ∨
      ∃ reason, m.Deserves before reason ∧ own = [.ofMessage index reason] := by
  rw [checkBody] at h
  cases hfields : checkFields index [] 0 m.fields with
  | mk problems specs =>
  rw [hfields] at h
  simp only at h
  split at h
  · rename_i hclean
    split at h
    · cases h
    · rename_i hlarge
      rw [List.isEmpty_iff, List.append_eq_nil_iff] at hclean
      obtain ⟨-, rfl⟩ := hclean
      obtain ⟨-, -, hspecs⟩ := checkFields_iff.mp hfields
      rw [MessageSpec.maxFrameSize, maxSize_of_becomes hspecs] at hlarge h
      cases h
      exact .inr ⟨_, .size (resolves_of_becomes hspecs) (not_le.mp hlarge), rfl⟩
  · cases h
    exact .inl rfl

theorem checkBody_report (before : List MessageDef) {ident : String} {m : MessageDef}
    {own : List Problem} (h : checkBody index ident m = .error own) :
    (∀ q ∈ own, m.Bears before index q) ∧ Ordered own := by
  obtain ⟨hbeat, hbeats⟩ := checkHeartbeat_report index before m
  obtain ⟨hfield, hfields⟩ := checkFields_report index before m
  obtain rfl | ⟨reason, hdeserved, rfl⟩ := checkBody_error_cases before h
  · constructor
    · intro q hq
      obtain hq | hq := List.mem_append.mp hq
      · exact (hbeat q hq).1
      · exact hfield q hq
    · refine List.pairwise_append.mpr ⟨hbeats, hfields, fun p hp q hq => ?_⟩
      obtain ⟨hp, hnone⟩ := hbeat p hp
      refine Problem.place_le_of_field (hp.message.trans (hfield q hq).message.symm) ?_
      rw [hnone]
      exact Nat.zero_le _
  · exact ⟨fun q hq => List.mem_singleton.mp hq ▸ .own hdeserved, List.pairwise_singleton _ _⟩

theorem not_wellFormed_of_checkBody {m : MessageDef} {own : List Problem}
    (h : checkBody index (pascalCase m.name) m = .error own) : ¬ m.WellFormed := by
  intro hwf
  obtain ⟨spec, hspec⟩ := hwf.exists_becomes (tagOfIndex index)
  rw [checkBody_iff.mpr ⟨hwf.shaped, hwf.fieldNames, hwf.fieldIdentifiers, hspec, hwf.fits⟩] at h
  cases h

/-- The names of the message are in order, by themselves and beside those of the messages before it. -/
structure MessageDef.Named (before : List MessageDef) (m : MessageDef) : Prop where
  identifier : isIdentifier m.name = true
  generated : pascalCase m.name ≠ ""
  name : ∀ e ∈ before, e.name ≠ m.name
  ident : ∀ e ∈ before, isIdentifier e.name = true → pascalCase e.name ≠ pascalCase m.name

/-- A message whose names are in order can be wrong by itself only. -/
theorem MessageDef.Named.faulty_iff {before : List MessageDef} {m : MessageDef}
    (h : m.Named before) : m.Faulty before ↔ ¬ m.WellFormed := by
  refine ⟨fun hfaulty => ?_, .inl⟩
  obtain hwrong | ⟨e, he, hsame⟩ | ⟨e, he, hidentifier, hsame⟩ := hfaulty
  · exact hwrong
  · exact absurd hsame (h.name e he)
  · exact absurd hsame (h.ident e he hidentifier)

theorem MessageDef.faulty_of_not_named {before : List MessageDef} {m : MessageDef}
    (h : ¬ m.Named before) : m.Faulty before := by
  by_contra hfaulty
  obtain ⟨hwf, hnames, hidents⟩ := not_or.mp hfaulty |>.imp_right not_or.mp
  refine h ⟨(not_not.mp hwf).identifier, (not_not.mp hwf).generated, ?_, ?_⟩
  · exact fun e he hsame => hnames ⟨e, he, hsame⟩
  · exact fun e he hidentifier hsame => hidents ⟨e, he, hidentifier, hsame⟩

/-- What was noted of the messages checked before: their names, and the generated names that were
claimed by one of them. -/
structure NamesSeen.Notes (seen : NamesSeen) (before : List MessageDef) : Prop where
  names : ∀ name, name ∈ seen.names ↔ ∃ e ∈ before, e.name = name
  sound : ∀ ident other, seen.idents.lookup ident = some other →
    ∃ e ∈ before, isIdentifier e.name = true ∧ e.name = other ∧ pascalCase e.name = ident
  complete : ∀ e ∈ before, isIdentifier e.name = true → pascalCase e.name ≠ "" →
    ∃ other, seen.idents.lookup (pascalCase e.name) = some other

namespace NamesSeen.Notes

variable {seen : NamesSeen} {before : List MessageDef} {m : MessageDef}

theorem empty : Notes {} [] where
  names name := by simp
  sound ident other h := by cases h
  complete e he := by cases he

theorem mem_names_append (h : seen.Notes before) (name : String) :
    name ∈ m.name :: seen.names ↔ ∃ e ∈ before ++ [m], e.name = name := by
  rw [List.mem_cons, h.names]
  simp only [List.mem_append, List.mem_singleton, or_and_right, exists_or, exists_eq_left]
  rw [or_comm, eq_comm]

/-- A message may leave its generated name unclaimed when it has none, or when it is claimed. -/
theorem named (h : seen.Notes before) (hclaimed : isIdentifier m.name = true →
    pascalCase m.name ≠ "" → ∃ other, seen.idents.lookup (pascalCase m.name) = some other) :
    Notes { seen with names := m.name :: seen.names } (before ++ [m]) where
  names := h.mem_names_append
  sound ident other hlookup := by
    obtain ⟨e, he, hprops⟩ := h.sound ident other hlookup
    exact ⟨e, List.mem_append_left [m] he, hprops⟩
  complete e he := by
    obtain he | he := List.mem_append.mp he
    · exact h.complete e he
    · rw [List.mem_singleton.mp he]
      exact hclaimed

theorem claimed (h : seen.Notes before) (hident : isIdentifier m.name = true) :
    Notes ⟨m.name :: seen.names, (pascalCase m.name, m.name) :: seen.idents⟩ (before ++ [m]) where
  names := h.mem_names_append
  sound ident other hlookup := by
    rw [List.lookup_cons] at hlookup
    by_cases hsame : ident = pascalCase m.name
    · subst hsame
      rw [beq_self_eq_true] at hlookup
      cases hlookup
      exact ⟨m, List.mem_append_right before (List.mem_singleton_self m), hident, rfl, rfl⟩
    · rw [beq_eq_false_iff_ne.mpr hsame] at hlookup
      obtain ⟨e, he, hprops⟩ := h.sound ident other hlookup
      exact ⟨e, List.mem_append_left [m] he, hprops⟩
  complete e he hidentifier hgenerated := by
    rw [List.lookup_cons]
    by_cases hsame : pascalCase e.name = pascalCase m.name
    · rw [hsame, beq_self_eq_true]
      exact ⟨m.name, rfl⟩
    · rw [beq_eq_false_iff_ne.mpr hsame]
      obtain he | he := List.mem_append.mp he
      · exact h.complete e he hidentifier hgenerated
      · rw [List.mem_singleton.mp he] at hsame
        exact absurd rfl hsame

/-- Names that were not met before are in order when they are by themselves. -/
theorem isNamed (h : seen.Notes before) (hidentifier : isIdentifier m.name = true)
    (hgenerated : pascalCase m.name ≠ "") (hname : m.name ∉ seen.names)
    (hclaimed : seen.idents.lookup (pascalCase m.name) = none) : m.Named before where
  identifier := hidentifier
  generated := hgenerated
  name e he hsame := hname ((h.names _).mpr ⟨e, he, hsame⟩)
  ident e he hother hsame := by
    obtain ⟨other, hlookup⟩ := h.complete e he hother (hsame ▸ hgenerated)
    rw [hsame, hclaimed] at hlookup
    cases hlookup

end NamesSeen.Notes

/-- One message: its own problems, and then those of the messages behind it. A message with a name that
is refused has one problem, and any other has those that its body has. -/
theorem checkMessages_cons_cases {seen : NamesSeen} {before : List MessageDef}
    (h : seen.Notes before) (m : MessageDef) (ms : List MessageDef) :
    ∃ own seen', seen'.Notes (before ++ [m]) ∧
      (checkMessages seen before.length (m :: ms)).1 =
        own ++ (checkMessages seen' (before ++ [m]).length ms).1 ∧
      ((¬ m.Named before ∧ ∃ reason, m.Deserves before reason ∧
          (∀ size limit, reason ≠ .frameTooLarge size limit) ∧
          own = [.ofMessage before.length reason]) ∨
        (m.Named before ∧
          ((∃ spec, checkBody before.length (pascalCase m.name) m = .ok spec ∧ own = []) ∨
            checkBody before.length (pascalCase m.name) m = .error own))) := by
  rw [List.length_append, List.length_singleton, checkMessages]
  simp only
  -- whatever is wrong with a name, the name itself is noted; a generated name is claimed even by a
  -- message that finds it claimed
  by_cases hdup : m.name ∈ seen.names
  · obtain ⟨e, he, hname⟩ := (h.names m.name).mp hdup
    rw [if_pos hdup]
    refine ⟨_, _, h.named ?_, rfl, .inl ⟨fun hnamed => hnamed.name e he hname, _,
      .duplicate he hname, by rintro _ _ ⟨⟩, rfl⟩⟩
    rw [← hname]
    exact h.complete e he
  rw [if_neg hdup]
  by_cases hident : isIdentifier m.name = true ∧ pascalCase m.name ≠ ""
  · have hrefused : ¬ (¬ isIdentifier m.name = true ∨ pascalCase m.name = "") :=
      fun h => h.elim (fun hnot => hnot hident.1) hident.2
    rw [if_neg hrefused]
    cases hclaimed : seen.idents.lookup (pascalCase m.name) with
    | some other =>
      obtain ⟨e, he, hidentifier, rfl, hsame⟩ := h.sound _ _ hclaimed
      have hother : e.name ≠ m.name := fun hname => hdup ((h.names _).mpr ⟨e, he, hname⟩)
      exact ⟨_, _, h.claimed hident.1, rfl,
        .inl ⟨fun hnamed => hnamed.ident e he hidentifier hsame, _, .collision he hother hsame,
          by rintro _ _ ⟨⟩, rfl⟩⟩
    | none =>
      have hnamed : m.Named before := h.isNamed hident.1 hident.2 hdup hclaimed
      cases hbody : checkBody before.length (pascalCase m.name) m with
      | ok spec => exact ⟨[], _, h.claimed hident.1, rfl, .inr ⟨hnamed, .inl ⟨spec, rfl, rfl⟩⟩⟩
      | error own => exact ⟨own, _, h.claimed hident.1, rfl, .inr ⟨hnamed, .inr rfl⟩⟩
  · have hbad : isIdentifier m.name = false ∨ pascalCase m.name = "" := by
      by_cases hidentifier : isIdentifier m.name = true
      · exact .inr (not_not.mp fun hne => hident ⟨hidentifier, hne⟩)
      · exact .inl (Bool.eq_false_iff.mpr hidentifier)
    rw [if_pos (hbad.imp_left Bool.eq_false_iff.mp)]
    refine ⟨_, _, h.named ?_, rfl, .inl ⟨fun hnamed => hident ⟨hnamed.identifier, hnamed.generated⟩, _,
      .identifier hbad, by rintro _ _ ⟨⟩, rfl⟩⟩
    exact fun hidentifier hgenerated => absurd ⟨hidentifier, hgenerated⟩ hident

theorem checkMessages_cons_told {seen : NamesSeen} {before : List MessageDef}
    (h : seen.Notes before) (m : MessageDef) (ms : List MessageDef) :
    ∃ own seen', m.Told before own ∧ seen'.Notes (before ++ [m]) ∧
      (checkMessages seen before.length (m :: ms)).1 =
        own ++ (checkMessages seen' (before ++ [m]).length ms).1 := by
  obtain ⟨own, seen', hnotes, heq, hown⟩ := checkMessages_cons_cases h m ms
  refine ⟨own, seen', ?_, hnotes, heq⟩
  obtain ⟨hnamed, reason, hdeserved, -, rfl⟩ | ⟨hnamed, ⟨spec, hbody, rfl⟩ | hbody⟩ := hown
  · exact MessageDef.told_singleton hdeserved (MessageDef.faulty_of_not_named hnamed)
  · have hwf := wellFormed_of_checkBody hnamed.identifier hnamed.generated hbody
    exact ⟨List.forall_mem_nil _, by simp [hnamed.faulty_iff, hwf], List.Pairwise.nil⟩
  · obtain ⟨hsound, hordered⟩ := checkBody_report before hbody
    have hwrong := not_wellFormed_of_checkBody hbody
    exact ⟨hsound, iff_of_true (checkBody_error hbody) (hnamed.faulty_iff.mpr hwrong), hordered⟩

theorem checkMessages_told {seen : NamesSeen} {before : List MessageDef} (h : seen.Notes before)
    (ms : List MessageDef) :
    InTurn MessageDef.Told before ms (checkMessages seen before.length ms).1 := by
  induction ms generalizing seen before with
  | nil =>
    rw [checkMessages]
    exact .nil before
  | cons m ms ih =>
    obtain ⟨own, seen', htold, hnotes, heq⟩ := checkMessages_cons_told h m ms
    rw [heq]
    exact .cons htold (ih hnotes)

/-! ## Schemas -/

namespace Schema

variable {s : Schema}

theorem checkCount_bears {q : Problem} (hq : q ∈ checkCount s) :
    s.Bears q ∧ q.message? = none ∧ q.place = ⊥ := by
  unfold checkCount at hq
  obtain hq | hq := List.mem_append.mp hq
  · by_cases hbare : s.messages = []
    · rw [if_pos (by rwa [List.isEmpty_iff]), List.mem_singleton] at hq
      subst hq
      exact ⟨.none hbare, rfl, rfl⟩
    · simp [hbare] at hq
  · by_cases hlong : s.messages.length > maxMessages
    · rw [if_pos hlong, List.mem_singleton] at hq
      subst hq
      exact ⟨.many hlong, rfl, rfl⟩
    · simp [hlong] at hq

/-- Whatever the checks find, they report it as a report should. -/
theorem report_problems (hsome : checkCount s ++ (checkMessages {} 0 s.messages).1 ≠ []) :
    s.Report (checkCount s ++ (checkMessages {} 0 s.messages).1) := by
  have htold : InTurn MessageDef.Told [] s.messages (checkMessages {} 0 s.messages).1 :=
    checkMessages_told .empty s.messages
  have hborne : ∀ q ∈ (checkMessages {} 0 s.messages).1, ∃ i, ∃ m : MessageDef, ∃ own,
      s.messages[i]? = some m ∧ m.Told (s.messages.take i) own ∧ q ∈ own ∧
        m.Bears (s.messages.take i) i q := by
    intro q hq
    obtain ⟨i, m, own, hm, hown, hq⟩ := htold.own_of_mem hq
    have hbears := hown.sound q hq
    rw [List.nil_append, length_take_of_getElem? hm] at hbears
    exact ⟨i, m, own, hm, hown, hq, hbears⟩
  refine ⟨hsome, fun q hq => ?_, fun i m hm => ⟨?_, fun hfaulty => ?_⟩, ?_⟩
  · obtain hq | hq := List.mem_append.mp hq
    · exact (checkCount_bears hq).1
    · obtain ⟨i, m, -, hm, -, -, hbears⟩ := hborne q hq
      exact .message hm hbears
  · rintro ⟨q, hq, hmessage⟩
    obtain hq | hq := List.mem_append.mp hq
    · rw [(checkCount_bears hq).2.1] at hmessage
      cases hmessage
    · obtain ⟨j, m', own, hm', htold', hmem, hbears⟩ := hborne q hq
      rw [hbears.message] at hmessage
      cases hmessage
      rw [hm] at hm'
      cases hm'
      exact htold'.complete.mp (List.ne_nil_of_mem hmem)
  · obtain ⟨own, hown, hsub⟩ := htold.own_of_getElem? hm
    obtain ⟨q, hq⟩ := List.exists_mem_of_ne_nil own (hown.complete.mpr hfaulty)
    have hbears := hown.sound q hq
    rw [List.nil_append, length_take_of_getElem? hm] at hbears
    exact ⟨q, List.mem_append_right _ (hsub hq), hbears.message⟩
  · have hmessages : Ordered (checkMessages {} 0 s.messages).1 := by
      refine htold.ordered (fun i q => q.message? = some i) ?_ Problem.place_le_of_message
      exact fun hown => ⟨hown.ordered, fun q hq => (hown.sound q hq).message⟩
    have hfirst : ∀ p ∈ checkCount s, ∀ q : Problem, p.place ≤ q.place := by
      intro p hp q
      rw [(checkCount_bears hp).2.2]
      exact bot_le
    have hcount : Ordered (checkCount s) :=
      List.pairwise_of_forall_mem_list fun p hp q _ => hfirst p hp q
    exact List.pairwise_append.mpr ⟨hcount, hmessages, fun p hp q _ => hfirst p hp q⟩

theorem report_of_validate {problems : List Problem} (h : s.validate = .error problems) :
    s.Report problems := by
  unfold validate at h
  simp only at h
  split at h
  · cases h
  · rename_i hsome
    cases h
    exact report_problems (by simpa using hsome)

/-- A schema that is not in order is refused with a report, and the first problem of the report is what
the check for one problem gives. -/
theorem validate_reports (h : ¬ s.WellFormed) :
    ∃ first rest, s.validate = .error (first :: rest) ∧ s.Report (first :: rest) ∧
      s.validateFirst = .error (some first) := by
  have herror : ∃ problems, s.validate = .error problems := by
    cases hvalidate : s.validate with
    | error problems => exact ⟨problems, rfl⟩
    | ok p => exact absurd (exists_validate_iff.mp ⟨p, hvalidate⟩) h
  obtain ⟨problems, hproblems⟩ := herror
  have hreport : s.Report problems := report_of_validate hproblems
  obtain ⟨first, rest, rfl⟩ := List.exists_cons_of_ne_nil hreport.nonempty
  refine ⟨first, rest, hproblems, hreport, ?_⟩
  rw [validateFirst, hproblems]
  rfl

/-- The second message is empty as well, and the third has one name with it; a message with a problem of
its name is not looked into. -/
def clashingSchema : Schema where
  messages := [
    { name := "player_move", direction := .clientToServer, fields := [
      { name := "x", typeName := "int8" }, { name := "x", typeName := "int9" },
      { name := "y", typeName := "int9" }] },
    { name := "playerMove", direction := .serverToClient },
    { name := "playerMove", direction := .serverToClient }]

def clashingProblems : List Problem :=
  [.ofField 0 1 (.duplicateField "x"), .ofField 0 2 (.badType (.unknownType "int9")),
    .ofMessage 1 (.generatedNameCollision "PlayerMove" "player_move"),
    .ofMessage 2 (.duplicateMessage "playerMove")]

theorem validate_reports_clashingSchema :
    ¬ clashingSchema.WellFormed ∧ clashingSchema.Report clashingProblems ∧
      clashingSchema.validateFirst = .error (some (.ofField 0 1 (.duplicateField "x"))) := by
  have hvalidate : clashingSchema.validate = .error clashingProblems := by rfl
  have hbad : ¬ clashingSchema.WellFormed := by
    intro hwf
    obtain ⟨p, hp⟩ := exists_validate_iff.mpr hwf
    rw [hvalidate] at hp
    cases hp
  obtain ⟨first, rest, hproblems, hreport, hfirst⟩ := validate_reports hbad
  rw [hvalidate] at hproblems
  cases hproblems
  exact ⟨hbad, hreport, hfirst⟩

end Schema

end Gamewire
