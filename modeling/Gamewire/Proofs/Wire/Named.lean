import Gamewire.Proofs.Wire.Conformance

/-! Fields by name. A message is made from names and values, of which the last for a name counts. What was
set under a name is found under it again, in the message and in the message that its frame is read as. -/
namespace Gamewire
set_option autoImplicit false

namespace MessageSpec

variable {m : MessageSpec} {msg : Message} {name : String} {i : Nat} {fault : EncodeFault}
  {values : List (String × Value)} {fields result : List (Option Value)}

/-! ## Names and places -/

def Declares (m : MessageSpec) (name : String) : Prop := ∃ f ∈ m.fields, f.name = name

instance (m : MessageSpec) (name : String) : Decidable (m.Declares name) :=
  inferInstanceAs (Decidable (∃ f ∈ m.fields, f.name = name))

theorem fieldIndex?_eq_none_iff : m.fieldIndex? name = none ↔ ¬ m.Declares name := by
  simp [fieldIndex?, Declares, List.findIdx?_eq_none_iff]

theorem name_of_fieldIndex? (h : m.fieldIndex? name = some i) :
    ∃ f, m.fields[i]? = some f ∧ f.name = name := by
  obtain ⟨hi, hname, -⟩ := List.findIdx?_eq_some_iff_getElem.mp h
  exact ⟨_, List.getElem?_eq_getElem hi, beq_iff_eq.mp hname⟩

/-! ## Setting fields -/

/-- The first name that is not declared is what is wrong. -/
def Stranger (m : MessageSpec) : List (String × Value) → EncodeFault → Prop :=
  FirstFault (fun x => m.Declares x.1) fun x fault => ¬ m.Declares x.1 ∧ fault = .unknownField x.1

theorem stranger_cons {x : String × Value} :
    m.Stranger (x :: values) fault ↔
      (¬ m.Declares x.1 ∧ fault = .unknownField x.1) ∨ (m.Declares x.1 ∧ m.Stranger values fault) :=
  firstFault_cons

theorem stranger_iff : (∃ fault, m.Stranger values fault) ↔ ∃ x ∈ values, ¬ m.Declares x.1 := by
  induction values with
  | nil => simp [Stranger, firstFault_nil]
  | cons x values ih =>
    simp only [stranger_cons, List.exists_mem_cons_iff]
    by_cases hx : m.Declares x.1
    · simp only [hx, not_true_eq_false, false_and, false_or, true_and]
      exact ih
    · simp [hx]

theorem setFields_error_iff : m.setFields values fields = .error fault ↔ m.Stranger values fault := by
  induction values generalizing fields with
  | nil => exact iff_of_false (by simp [setFields]) firstFault_nil
  | cons x values ih =>
    obtain ⟨name, v⟩ := x
    rw [stranger_cons, setFields]
    cases hindex : m.fieldIndex? name with
    | none =>
      have hname := fieldIndex?_eq_none_iff.mp hindex
      simp [hname, eq_comm]
    | some i =>
      have hname : m.Declares name := by
        by_contra hnot
        rw [fieldIndex?_eq_none_iff.mpr hnot] at hindex
        cases hindex
      simp only [hname, not_true_eq_false, false_and, false_or, true_and]
      exact ih

/-- At the place of a name there is the value given last for it, or else what was there. -/
theorem getElem?_of_setFields (h : m.setFields values fields = .ok result)
    (hindex : m.fieldIndex? name = some i) :
    result[i]? = (fields[i]?).map fun old => (values.reverse.lookup name).or old := by
  induction values generalizing fields with
  | nil =>
    cases h
    simp
  | cons x values ih =>
    obtain ⟨other, v⟩ := x
    rw [setFields] at h
    split at h
    · rename_i j hj
      rw [ih h, List.reverse_cons, List.lookup_append]
      by_cases hname : other = name
      · subst hname
        obtain rfl : j = i := Option.some.inj (hj.symm.trans hindex)
        have hlast : List.lookup other [(other, v)] = some v := by simp
        rw [hlast, List.getElem?_set_self']
        cases fields[j]? <;> simp
      · have hplace : j ≠ i := by
          rintro rfl
          obtain ⟨f, hf, rfl⟩ := name_of_fieldIndex? hj
          obtain ⟨f', hf', rfl⟩ := name_of_fieldIndex? hindex
          rw [hf] at hf'
          cases hf'
          exact hname rfl
        have hlast : List.lookup name [(other, v)] = none := by
          simp [List.lookup_cons, beq_eq_false_iff_ne.mpr (Ne.symm hname)]
        rw [hlast, List.getElem?_set_ne hplace, Option.or_none]
    · cases h

/-! ## Messages from names and values -/

theorem instance?_error_iff : m.instance? values = .error fault ↔ m.Stranger values fault := by
  have hset : m.setFields values (List.replicate m.fields.length none) = .error fault ↔
      m.Stranger values fault := setFields_error_iff
  rw [← hset, instance?]
  cases m.setFields values (List.replicate m.fields.length none) <;> simp

theorem declares_of_instance? (h : m.instance? values = .ok msg) : ∀ x ∈ values, m.Declares x.1 := by
  intro x hx
  by_contra hnot
  obtain ⟨fault, hfault⟩ := stranger_iff.mpr ⟨x, hx, hnot⟩
  rw [instance?_error_iff.mpr hfault] at h
  cases h

theorem lookup_of_not_declares (h : m.instance? values = .ok msg) (hname : ¬ m.Declares name) :
    values.reverse.lookup name = none := by
  refine List.lookup_eq_none_iff.mpr fun x hx => ?_
  rw [bne_iff_ne]
  rintro rfl
  exact hname (declares_of_instance? h x (List.mem_reverse.mp hx))

/-- Every place that a name stands for holds the value given last for the name. -/
theorem getElem?_of_instance? (h : m.instance? values = .ok msg) (hindex : m.fieldIndex? name = some i) :
    msg.fields[i]? = some (values.reverse.lookup name) := by
  have hplace : i < m.fields.length := by
    obtain ⟨f, hf, -⟩ := name_of_fieldIndex? hindex
    exact (List.getElem?_eq_some_iff.mp hf).1
  rw [instance?] at h
  split at h
  · rename_i fields hset
    cases h
    rw [getElem?_of_setFields hset hindex, List.getElem?_replicate_of_lt hplace]
    simp
  · cases h

theorem get?_of_instance? (h : m.instance? values = .ok msg) (name : String) :
    m.get? msg name = values.reverse.lookup name := by
  unfold get?
  cases hindex : m.fieldIndex? name with
  | none => exact (lookup_of_not_declares h (fieldIndex?_eq_none_iff.mp hindex)).symm
  | some i =>
    simp only [getElem?_of_instance? h hindex]
    rfl

theorem get?_of_not_declares (msg : Message) (hname : ¬ m.Declares name) : m.get? msg name = none := by
  rw [get?, fieldIndex?_eq_none_iff.mpr hname]

theorem tag_of_instance? (h : m.instance? values = .ok msg) : msg.tag = m.tag := by
  rw [instance?] at h
  split at h
  · cases h
    rfl
  · cases h

end MessageSpec

namespace Schema

variable {s : Schema} {p : Protocol} {m : MessageSpec}

/-- A message is made from names and values unless a name is not declared, and the first such name is
told. If the message can be written, its frame is read as a message in which every name has the value
that was given last for it, in the place of its field. -/
theorem named_values_return (h : s.validate = .ok p) (hm : m ∈ p.messages)
    (values : List (String × Value)) :
    (∀ fault, m.instance? values = .error fault ↔ m.Stranger values fault) ∧
    ((∃ fault, m.instance? values = .error fault) ↔ ∃ x ∈ values, ¬ m.Declares x.1) ∧
    ∀ msg frame, m.instance? values = .ok msg → (m.encode msg = .ok frame ∨ p.encode msg = .ok frame) →
      ∃ back, m.decode frame = .ok back ∧ p.decode frame = .ok back ∧
        (∀ name, m.get? back name = values.reverse.lookup name) ∧
        (∀ name, ¬ m.Declares name → m.get? back name = none) ∧
        ∀ (i : Nat) (f : FieldSpec), m.fields[i]? = some f →
          back.fields[i]? = some (values.reverse.lookup f.name) := by
  have hindexed := indexed_of_validate h
  refine ⟨fun fault => MessageSpec.instance?_error_iff, ?_, fun msg frame hmsg hframe => ?_⟩
  · simp only [MessageSpec.instance?_error_iff]
    exact MessageSpec.stranger_iff
  · have hsame : p.encode msg = m.encode msg := by
      have htag := (hindexed.ofTag_iff msg.tag m).mpr ⟨hm, (MessageSpec.tag_of_instance? hmsg).symm⟩
      rw [Protocol.encode, htag]
    rw [hsame, or_self] at hframe
    refine ⟨msg, MessageSpec.decode_ok_iff.mpr hframe, Protocol.decode_ok_iff.mpr (hsame.trans hframe),
      MessageSpec.get?_of_instance? hmsg, fun name => MessageSpec.get?_of_not_declares msg,
      fun i f hf => ?_⟩
    have hindex := (hindexed.fieldIndex_iff m hm f.name i).mpr ⟨f, hf, rfl⟩
    exact MessageSpec.getElem?_of_instance? hmsg hindex

def stateSpec : MessageSpec :=
  ⟨1, "state", "State", .serverToClient, false, [
    ⟨"x", .scalar .int16, false⟩, ⟨"speed", .scalar .float, false⟩, ⟨"nick", .text 4, false⟩,
    ⟨"boost", .scalar .bool, true⟩, ⟨"cells", .array .int8 2, true⟩]⟩

/-- One field is set twice, and one not at all. -/
def stateValues : List (String × Value) :=
  [("x", .int 70000), ("nick", .text "é!"), ("cells", .array [.int (-128), .int 127]),
    ("speed", .float 0x7fc00001), ("x", .int (-2))]

theorem named_values_return_stateSpec :
    arcadeSchema.validate = .ok arcadeProtocol ∧ stateSpec ∈ arcadeProtocol.messages ∧
      stateSpec.instance? stateValues = .ok arcadeMessage ∧
      arcadeProtocol.encode arcadeMessage = .ok arcadeFrame ∧
      (∃ back, arcadeProtocol.decode arcadeFrame = .ok back ∧
        stateSpec.get? back "x" = some (.int (-2)) ∧ stateSpec.get? back "boost" = none) ∧
      stateSpec.instance? [("x", .int 1), ("y", .int 2), ("z", .int 3)] = .error (.unknownField "y") := by
  have hmem : stateSpec ∈ arcadeProtocol.messages := List.mem_cons_of_mem _ List.mem_cons_self
  have hmade : stateSpec.instance? stateValues = .ok arcadeMessage := rfl
  obtain ⟨-, -, hreturn⟩ := named_values_return arcadeSchema_validate hmem stateValues
  obtain ⟨back, -, hback, hget, -⟩ := hreturn _ _ hmade (.inr arcadeMessage_encode)
  refine ⟨arcadeSchema_validate, hmem, hmade, arcadeMessage_encode,
    ⟨back, hback, by rw [hget]; rfl, by rw [hget]; rfl⟩, ?_⟩
  obtain ⟨hstranger, -⟩ := named_values_return arcadeSchema_validate hmem
    [("x", .int 1), ("y", .int 2), ("z", .int 3)]
  refine (hstranger _).mpr ⟨[("x", .int 1)], ("y", .int 2), [("z", .int 3)], rfl, ?_, by decide, rfl⟩
  exact List.forall_mem_singleton.mpr (by decide)

end Schema

end Gamewire
