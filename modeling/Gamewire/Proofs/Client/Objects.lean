import Gamewire.Client.Meaning
import Mathlib.Data.List.Forall2

/-! Objects to which fields are assigned one after another. Each field is found again with its value,
unless it has the name of the link: then an array is found again, but no absence and no other value. -/
namespace Gamewire.Client
set_option autoImplicit false

theorem lookup_of_nodup {α : Type} {key : String} {a : α} {xs : List (String × α)}
    (hnodup : (xs.map (·.1)).Nodup) (h : (key, a) ∈ xs) : xs.lookup key = some a := by
  obtain ⟨before, after, rfl⟩ := List.append_of_mem h
  refine List.lookup_eq_some_iff.mpr ⟨before, after, rfl, fun x hx => ?_⟩
  rw [List.map_append, List.map_cons] at hnodup
  have hne := (List.nodup_append.mp hnodup).2.2 x.1 (List.mem_map_of_mem hx) key List.mem_cons_self
  exact bne_iff_ne.mpr hne.symm

/-! ## One assignment -/

namespace Object

variable {o : Object} {name name' : String} {v : Option Value}

theorem set_of_ne (h : name ≠ linkName) : o.set name v = { o with own := (name, v) :: o.own } := by
  unfold set
  exact if_neg fun hlink => h hlink.1

theorem lookup_own_set (h : name' ≠ name) : (o.set name v).own.lookup name' = o.own.lookup name' := by
  have hcons : ((name, v) :: o.own).lookup name' = o.own.lookup name' := by
    rw [List.lookup_cons, beq_eq_false_iff_ne.mpr h]
  unfold set
  split
  · split
    · exact hcons
    · rfl
    · rfl
    · rfl
  · exact hcons

theorem prototype_set (h : name ≠ linkName) : (o.set name v).prototype = o.prototype := by
  rw [set_of_ne h]

/-- An assignment under the name of the link to an object that is new. -/
def relinked : Option Value → Prototype
  | none => .null
  | some (.array elements) => .array elements
  | some _ => .root

theorem set_linkName (hown : o.own.lookup linkName = none) (hroot : o.prototype = .root) :
    o.set linkName v = { o with prototype := relinked v } := by
  obtain ⟨own, prototype⟩ := o
  subst hroot
  have hfree : linkName = linkName ∧ (own.lookup linkName).isNone := ⟨rfl, by rw [hown]; rfl⟩
  unfold set
  rw [if_pos hfree]
  cases v with
  | none => rfl
  | some v => cases v <;> rfl

end Object

/-! ## Assignments in a row -/

/-- Fields and values side by side. -/
def Object.assign (o : Object) : List FieldSpec → List (Option Value) → Object
  | f :: fs, v :: vs => (o.set f.name v).assign fs vs
  | _, _ => o

variable {o : Object} {fs : List FieldSpec} {vs : List (Option Value)} {name : String}

theorem lookup_own_assign (h : name ∉ fs.map (·.name)) :
    (o.assign fs vs).own.lookup name = o.own.lookup name := by
  fun_induction Object.assign o fs vs with
  | case1 o f fs v vs ih =>
    rw [List.map_cons, List.mem_cons, not_or] at h
    rw [ih h.2, Object.lookup_own_set h.1]
  | case2 => rfl

theorem prototype_assign (h : linkName ∉ fs.map (·.name)) :
    (o.assign fs vs).prototype = o.prototype := by
  fun_induction Object.assign o fs vs with
  | case1 o f fs v vs ih =>
    rw [List.map_cons, List.mem_cons, not_or] at h
    rw [ih h.2, Object.prototype_set (Ne.symm h.1)]
  | case2 => rfl

/-- What is found under a name when the value has been assigned. -/
def found (name : String) (v : Option Value) : Property :=
  if name = linkName then (Object.relinked v).get linkName else .ofField v

/-- The object can still be linked to something else, as far as a field asks for it. -/
def Object.Linkable (o : Object) (fs : List FieldSpec) : Prop :=
  linkName ∈ fs.map (·.name) → o.own.lookup linkName = none ∧ o.prototype = .root

theorem get_assign (hnames : (fs.map (·.name)).Nodup) (hlength : vs.length = fs.length)
    (hlink : o.Linkable fs) :
    List.Forall₂ (fun f v => (o.assign fs vs).get f.name = found f.name v) fs vs := by
  induction fs generalizing o vs with
  | nil =>
    rw [List.length_eq_zero_iff.mp hlength]
    exact .nil
  | cons f fs ih =>
    obtain ⟨v, vs, rfl⟩ := List.exists_cons_of_length_eq_add_one hlength
    rw [List.map_cons, List.nodup_cons] at hnames
    have hlength' : vs.length = fs.length := Nat.succ_inj.mp hlength
    rw [Object.assign]
    by_cases hf : f.name = linkName
    · obtain ⟨hown, hroot⟩ := hlink (by rw [List.map_cons, hf]; exact List.mem_cons_self)
      have hrest : linkName ∉ fs.map (·.name) := hf ▸ hnames.1
      refine .cons ?_ (ih hnames.2 hlength' fun hmem => absurd hmem hrest)
      rw [hf, Object.get, lookup_own_assign hrest, prototype_assign hrest,
        Object.set_linkName hown hroot, hown, found, if_pos rfl]
    · refine .cons ?_ (ih hnames.2 hlength' fun hmem => ?_)
      · rw [Object.get, lookup_own_assign hnames.1, Object.set_of_ne hf, List.lookup_cons_self,
          found, if_neg hf]
      · obtain ⟨hown, hroot⟩ := hlink (List.mem_cons_of_mem _ hmem)
        rw [Object.lookup_own_set (Ne.symm hf), Object.prototype_set hf]
        exact ⟨hown, hroot⟩

/-! ## Objects that hold a message -/

/-- The fields have these values, and are `null` where there is none. -/
def Object.Holds (o : Object) (fs : List FieldSpec) (vs : List (Option Value)) : Prop :=
  List.Forall₂ (fun f v => o.get f.name = .ofField v) fs vs

/-- An object with nothing but these fields of its own. -/
def Object.ofFields (fs : List FieldSpec) (vs : List (Option Value)) : Object where
  own := (fs.map (·.name)).zip vs

theorem holds_ofFields (hnames : (fs.map (·.name)).Nodup) (hlength : vs.length = fs.length) :
    (Object.ofFields fs vs).Holds fs vs := by
  have hkeys : (((fs.map (·.name)).zip vs).map (·.1)).Nodup := by
    rwa [List.map_fst_zip]
    rw [List.length_map]
    exact Nat.le_of_eq hlength.symm
  refine List.forall₂_iff_get.mpr ⟨hlength.symm, fun i hi hi' => ?_⟩
  have hmem : ((fs.get ⟨i, hi⟩).name, vs.get ⟨i, hi'⟩) ∈ (fs.map (·.name)).zip vs := by
    refine List.mem_iff_getElem?.mpr ⟨i, List.getElem?_zip_eq_some.mpr ⟨?_, ?_⟩⟩
    · rw [List.getElem?_map, List.getElem?_eq_getElem hi]
      rfl
    · exact List.getElem?_eq_getElem hi'
  have hlookup : (Object.ofFields fs vs).own.lookup (fs.get ⟨i, hi⟩).name = some (vs.get ⟨i, hi'⟩) :=
    lookup_of_nodup hkeys hmem
  rw [Object.get, hlookup]

theorem found_iff {v : Option Value} : found name v = .ofField v ↔
    (name = linkName → ∃ elements, v = some (.array elements)) := by
  by_cases hname : name = linkName
  · subst hname
    rw [found, if_pos rfl]
    cases v with
    | none => simp [Object.relinked, Prototype.get, Property.ofField]
    | some v =>
      cases v <;> simp [Object.relinked, Prototype.get, Property.ofField, Prototype.rootNames]
  · rw [found, if_neg hname]
    simp [hname]

theorem holds_iff_of {α β : Type} {R S T : α → β → Prop} {xs : List α} {ys : List β}
    (h : List.Forall₂ T xs ys) (hsame : ∀ a b, T a b → (R a b ↔ S a b)) :
    List.Forall₂ R xs ys ↔ List.Forall₂ S xs ys := by
  induction h with
  | nil => simp
  | cons hab _ ih => rw [List.forall₂_cons, List.forall₂_cons, hsame _ _ hab, ih]

/-- The fields that were assigned are found again unless the link took one of them. -/
theorem holds_assign_iff (hnames : (fs.map (·.name)).Nodup) (hlength : vs.length = fs.length)
    (hlink : o.Linkable fs) : (o.assign fs vs).Holds fs vs ↔
      List.Forall₂ (fun f v => f.name = linkName → ∃ elements, v = some (.array elements)) fs vs :=
  holds_iff_of (get_assign hnames hlength hlink) fun _ _ hget => by rw [hget, found_iff]

end Gamewire.Client
