import Gamewire.Proofs.Text.Words
import Gamewire.Schema.Type
import Mathlib.Tactic

/-! The names of field types. What a name has to look like and why another one is refused is said without
the reader; a name that is not of one kind is of the other, so the reader does nothing else. The names that
reports show are told apart and read back. -/
namespace Gamewire
set_option autoImplicit false

/-! ## Names -/

namespace FieldType

/-- The name of an element, maybe some blanks, and a text in brackets. -/
def Bracketed (element inside name : String) : Prop :=
  ∃ gap, Text.Blanks gap ∧
    name.toList = element.toList ++ gap ++ '[' :: (inside.toList ++ [']'])

/-- A numeral for the length of an array, maybe between blanks. -/
def Counts (inside : String) (count : UInt8) : Prop :=
  ∃ lead numeral trail, Text.Blanks lead ∧ Text.Blanks trail ∧
    inside.toList = lead ++ numeral ++ trail ∧ Text.Denotes numeral count.toNat ∧
    1 ≤ count.toNat ∧ count.toNat ≤ 127

/-- The name of a type with nothing around it, and the capacity beside it. -/
inductive Spelled : String → Option UInt16 → FieldType → Prop
  | plain : Spelled "string" none (.text 32)
  | text {capacity : UInt8} (positive : 1 ≤ capacity.toNat) :
      Spelled "string" (some capacity.toUInt16) (.text capacity)
  | scalar (p : Primitive) : Spelled p.name none (.scalar p)
  | array {p : Primitive} {inside name : String} {count : UInt8}
      (bracketed : Bracketed p.name inside name) (counts : Counts inside count) :
      Spelled name none (.array p count)

/-- Why a name with nothing around it is refused. A capacity that is out of place is noticed first, and the
length of an array last. -/
inductive Refused (name : String) : Option UInt16 → TypeFault → Prop
  | capacity {n : UInt16} (text : name = "string") (bad : n.toNat = 0 ∨ 255 < n.toNat) :
      Refused name (some n) (.invalidMaxLen n)
  | misplaced {n : UInt16} (other : name ≠ "string") :
      Refused name (some n) (.maxLenNotAllowed name)
  | texts {inside : String} (bracketed : Bracketed "string" inside name) :
      Refused name none (.unsupportedArrayElement "string")
  | length {p : Primitive} {inside : String} (bracketed : Bracketed p.name inside name)
      (bad : ∀ count, ¬ Counts inside count) :
      Refused name none (.invalidArrayLength inside)
  | unknown (other : name ≠ "string") (noScalar : ∀ p : Primitive, name ≠ p.name)
      (noArray : ∀ (p : Primitive) (inside : String), ¬ Bracketed p.name inside name)
      (noTexts : ∀ inside, ¬ Bracketed "string" inside name) :
      Refused name none (.unknownType name)

end FieldType

/-! ## Scalars -/

theorem Primitive.ofName?_iff {s : String} {p : Primitive} : ofName? s = some p ↔ s = p.name := by
  constructor
  · intro h
    have hname := List.find?_some h
    exact (beq_iff_eq.mp hname).symm
  · rintro rfl
    cases p <;> rfl

theorem Primitive.name_injective {p q : Primitive} (h : p.name = q.name) : p = q := by
  have hread := ofName?_iff.mpr h
  rw [ofName?_iff.mpr rfl] at hread
  exact Option.some.inj hread

namespace FieldType

variable {name element inside : String} {count : UInt8} {capacity : Option UInt16}

/-- The names that may stand before brackets. -/
def IsElement (element : String) : Prop := element = "string" ∨ ∃ p : Primitive, element = p.name

theorem IsElement.tight (h : IsElement element) : Text.Tight element.toList := by
  have hall : element.toList.all (fun c => !Text.isBlank c) = true := by
    obtain rfl | ⟨p, rfl⟩ := h
    · rfl
    · cases p <;> rfl
  refine Text.tight_of_forall fun c hc => ?_
  simpa using List.all_eq_true.mp hall c hc

theorem IsElement.unbracketed (h : IsElement element) : '[' ∉ element.toList := by
  obtain rfl | ⟨p, rfl⟩ := h
  · decide
  · cases p <;> decide

/-! ## Brackets -/

theorem Bracketed.opens (h : Bracketed element inside name) : '[' ∈ name.toList := by
  obtain ⟨gap, -, hname⟩ := h
  rw [hname]
  simp

theorem Bracketed.not_isElement (h : Bracketed element inside name) : ¬ IsElement name :=
  fun hname => hname.unbracketed h.opens

/-- A name in brackets falls apart at its first bracket. -/
theorem Bracketed.split (helement : IsElement element) (h : Bracketed element inside name) :
    Text.trimChars (name.toList.takeWhile (· != '[')) = element.toList ∧
      name.toList.dropWhile (· != '[') = '[' :: (inside.toList ++ [']']) := by
  obtain ⟨gap, hgap, hname⟩ := h
  have hbefore : ∀ c ∈ element.toList ++ gap, (c != '[') = true := by
    refine List.forall_mem_append.mpr ⟨fun c hc => ?_, fun c hc => ?_⟩
    · exact bne_iff_ne.mpr fun heq => helement.unbracketed (heq ▸ hc)
    · refine bne_iff_ne.mpr fun heq => ?_
      have hblank := hgap c hc
      rw [heq] at hblank
      cases hblank
  rw [hname, List.takeWhile_append_of_pos hbefore, List.dropWhile_append_of_pos hbefore]
  refine ⟨?_, rfl⟩
  rw [List.takeWhile_cons_of_neg (by decide), List.append_nil]
  exact Text.trimChars_of_tight (List.forall_mem_nil _) helement.tight hgap

/-- What comes before a bracket is an element with blanks after it. -/
theorem bracketed_of_split {before : List Char} (htight : Text.Tight name.toList)
    (hname : name.toList = before ++ '[' :: (inside.toList ++ [']'])) :
    Bracketed (String.ofList (Text.trimChars before)) inside name := by
  obtain ⟨lead, trail, hlead, htrail, hbefore⟩ := Text.exists_trimChars before
  cases lead with
  | nil =>
    refine ⟨trail, htrail, ?_⟩
    rw [String.toList_ofList, hname]
    exact congrArg (· ++ _) hbefore
  | cons c lead =>
    have hfirst := htight.starts c (by rw [hname, hbefore]; rfl)
    rw [hlead c List.mem_cons_self] at hfirst
    cases hfirst

/-! ## Lengths -/

theorem counts_iff : Counts inside count ↔
    Text.unsigned? (Text.trimChars inside.toList) = some count.toNat ∧
      1 ≤ count.toNat ∧ count.toNat ≤ maxArrayLength := by
  rw [Text.unsigned?_iff]
  constructor
  · rintro ⟨lead, numeral, trail, hlead, htrail, hinside, hdenotes, hbounds⟩
    rw [hinside, Text.trimChars_of_tight hlead hdenotes.tight htrail]
    exact ⟨hdenotes, hbounds⟩
  · rintro ⟨hdenotes, hbounds⟩
    obtain ⟨lead, trail, hlead, htrail, hinside⟩ := Text.exists_trimChars inside.toList
    exact ⟨lead, _, trail, hlead, htrail, hinside, hdenotes, hbounds⟩

/-! ## Reading -/

/-- The type of so many scalars, for a length that is written between brackets. -/
theorem resolveArray_scalar {p : Primitive} {whole : String} {before : List Char}
    (hbefore : Text.trimChars before = p.name.toList) :
    (∀ count, Counts inside count →
      resolveArray whole before (inside.toList ++ [']']) = .ok (.array p count)) ∧
    ((∀ count, ¬ Counts inside count) →
      resolveArray whole before (inside.toList ++ [']']) = .error (.invalidArrayLength inside)) := by
  simp only [resolveArray, List.getLast?_concat, List.dropLast_concat, if_true, hbefore,
    String.ofList_toList, Primitive.ofName?_iff.mpr rfl]
  constructor
  · intro count hcounts
    obtain ⟨hread, hbounds⟩ := counts_iff.mp hcounts
    simp only [hread, if_pos hbounds]
    rw [Nat.toUInt8, UInt8.ofNat_toNat]
  · intro hbad
    split
    · rename_i n hread
      split
      · rename_i hbounds
        have hn : n.toUInt8.toNat = n :=
          UInt8.toNat_ofNat_of_lt' (lt_of_le_of_lt hbounds.2 (by decide))
        refine absurd (counts_iff.mpr ?_) (hbad n.toUInt8)
        rw [hn]
        exact ⟨hread, hbounds⟩
      · rfl
    · rfl

theorem resolve_of_bracketed {written : String} (helement : IsElement element)
    (h : Bracketed element inside (Text.trim written)) :
    resolve written none = resolveArray (Text.trim written)
      ((Text.trim written).toList.takeWhile (· != '[')) (inside.toList ++ [']']) := by
  have hname : Text.trim written ≠ "string" := fun heq => h.not_isElement (.inl heq)
  simp only [resolve, if_neg hname, (h.split helement).2]
  rfl

/-- What is no element in brackets is no array either. -/
theorem resolveArray_unknown {c : Char} {rest : List Char} (htight : Text.Tight name.toList)
    (hdrop : name.toList.dropWhile (· != '[') = c :: rest)
    (hnoArray : ∀ (p : Primitive) (inside : String), ¬ Bracketed p.name inside name)
    (hnoTexts : ∀ inside, ¬ Bracketed "string" inside name) :
    resolveArray name (name.toList.takeWhile (· != '[')) rest = .error (.unknownType name) := by
  have hopens := List.head?_dropWhile_not (· != '[') name.toList
  rw [hdrop] at hopens
  obtain rfl : c = '[' := bne_eq_false_iff_eq.mp hopens
  rw [resolveArray]
  split
  · rename_i hlast
    obtain ⟨inside, rfl⟩ := List.getLast?_eq_some_iff.mp hlast
    have hname : name.toList = name.toList.takeWhile (· != '[') ++
        '[' :: ((String.ofList inside).toList ++ [']']) := by
      rw [String.toList_ofList, ← hdrop, List.takeWhile_append_dropWhile]
    have hbracketed := bracketed_of_split htight hname
    simp only
    split
    · rename_i p hread
      rw [Primitive.ofName?_iff.mp hread] at hbracketed
      exact absurd hbracketed (hnoArray p _)
    · split
      · rename_i htext
        rw [htext] at hbracketed
        exact absurd hbracketed (hnoTexts _)
      · rfl
  · rfl

theorem resolve_of_spelled {written : String} {t : FieldType}
    (h : Spelled (Text.trim written) capacity t) : resolve written capacity = .ok t := by
  generalize hname : Text.trim written = name at h
  cases h with
  | plain =>
    simp only [resolve, hname, if_true]
    rfl
  | @text n hpositive =>
    have hbounds : 1 ≤ n.toUInt16.toNat ∧ n.toUInt16.toNat ≤ 255 := by
      rw [UInt8.toNat_toUInt16]
      exact ⟨hpositive, Nat.le_of_lt_succ n.toNat_lt⟩
    simp only [resolve, hname, if_true, resolveText, if_pos hbounds, UInt8.toUInt8_toUInt16]
  | scalar p =>
    have hother : p.name ≠ "string" := by cases p <;> decide
    have hdrop : p.name.toList.dropWhile (· != '[') = [] := by cases p <;> rfl
    simp only [resolve, hname, if_neg hother, hdrop, Primitive.ofName?_iff.mpr rfl]
    rfl
  | @array p inside _ count hbracketed hcounts =>
    subst hname
    have helement : IsElement p.name := .inr ⟨p, rfl⟩
    rw [resolve_of_bracketed helement hbracketed]
    exact (resolveArray_scalar (hbracketed.split helement).1).1 count hcounts

theorem resolve_of_refused {written : String} {fault : TypeFault}
    (h : Refused (Text.trim written) capacity fault) : resolve written capacity = .error fault := by
  cases h with
  | @capacity n htext hbad =>
    have hbounds : ¬ (1 ≤ n.toNat ∧ n.toNat ≤ 255) := by omega
    simp only [resolve, htext, if_true, resolveText, if_neg hbounds]
  | misplaced hother =>
    simp only [resolve, if_neg hother, Option.isSome_some, if_true]
  | texts hbracketed =>
    have helement : IsElement "string" := .inl rfl
    rw [resolve_of_bracketed helement hbracketed, resolveArray, if_pos List.getLast?_concat]
    simp only [(hbracketed.split helement).1, String.ofList_toList]
    rfl
  | @length p inside hbracketed hbad =>
    have helement : IsElement p.name := .inr ⟨p, rfl⟩
    rw [resolve_of_bracketed helement hbracketed]
    exact (resolveArray_scalar (hbracketed.split helement).1).2 hbad
  | unknown hother hnoScalar hnoArray hnoTexts =>
    have htight : Text.Tight (Text.trim written).toList := (Text.trim_eq_iff.mp rfl).1
    simp only [resolve, if_neg hother, Option.isSome_none, Bool.false_eq_true, if_false]
    generalize Text.trim written = name at *
    split
    · rename_i c rest hdrop
      exact resolveArray_unknown htight hdrop hnoArray hnoTexts
    · split
      · rename_i p hread
        exact absurd (Primitive.ofName?_iff.mp hread) (hnoScalar p)
      · rfl

/-- A name of no kind is refused. -/
theorem exists_spelled_or_refused (name : String) (capacity : Option UInt16) :
    (∃ t, Spelled name capacity t) ∨ ∃ fault, Refused name capacity fault := by
  cases capacity with
  | some n =>
    by_cases htext : name = "string"
    · subst htext
      by_cases hbad : n.toNat = 0 ∨ 255 < n.toNat
      · exact .inr ⟨_, .capacity rfl hbad⟩
      · -- a capacity has eight bits
        have hn : n.toUInt8.toNat = n.toNat := by
          rw [UInt16.toNat_toUInt8]
          omega
        have hwide : n.toUInt8.toUInt16 = n :=
          UInt16.toNat_inj.mp (by rw [UInt8.toNat_toUInt16, hn])
        have hspelled : Spelled "string" (some n.toUInt8.toUInt16) (.text n.toUInt8) :=
          .text (by omega)
        rw [hwide] at hspelled
        exact .inl ⟨_, hspelled⟩
    · exact .inr ⟨_, .misplaced htext⟩
  | none =>
    by_cases htext : name = "string"
    · subst htext
      exact .inl ⟨_, .plain⟩
    by_cases hscalar : ∃ p : Primitive, name = p.name
    · obtain ⟨p, rfl⟩ := hscalar
      exact .inl ⟨_, .scalar p⟩
    by_cases harray : ∃ (p : Primitive) (inside : String), Bracketed p.name inside name
    · obtain ⟨p, inside, hbracketed⟩ := harray
      by_cases hcounts : ∃ count, Counts inside count
      · obtain ⟨count, hcounts⟩ := hcounts
        exact .inl ⟨_, .array hbracketed hcounts⟩
      · exact .inr ⟨_, .length hbracketed (not_exists.mp hcounts)⟩
    by_cases htexts : ∃ inside, Bracketed "string" inside name
    · obtain ⟨inside, hbracketed⟩ := htexts
      exact .inr ⟨_, .texts hbracketed⟩
    · refine .inr ⟨_, .unknown htext (not_exists.mp hscalar) ?_ (not_exists.mp htexts)⟩
      exact fun p inside hbracketed => harray ⟨p, inside, hbracketed⟩

theorem resolve_ok_iff {written : String} {t : FieldType} :
    resolve written capacity = .ok t ↔ Spelled (Text.trim written) capacity t := by
  refine ⟨fun h => ?_, resolve_of_spelled⟩
  obtain ⟨u, hspelled⟩ | ⟨fault, hrefused⟩ := exists_spelled_or_refused (Text.trim written) capacity
  · have hread := resolve_of_spelled hspelled
    rw [h] at hread
    cases hread
    exact hspelled
  · rw [resolve_of_refused hrefused] at h
    cases h

theorem resolve_error_iff {written : String} {fault : TypeFault} :
    resolve written capacity = .error fault ↔ Refused (Text.trim written) capacity fault := by
  refine ⟨fun h => ?_, resolve_of_refused⟩
  obtain ⟨t, hspelled⟩ | ⟨other, hrefused⟩ := exists_spelled_or_refused (Text.trim written) capacity
  · rw [resolve_of_spelled hspelled] at h
    cases h
  · have hread := resolve_of_refused hrefused
    rw [h] at hread
    cases hread
    exact hrefused

/-! ## Names in reports -/

theorem toList_render_text (n : UInt8) :
    (text n).render.toList = "string(".toList ++ n.toNat.repr.toList ++ [')'] := by
  show ("string(" ++ n.toNat.repr ++ ")").toList = _
  rw [String.toList_append, String.toList_append]
  rfl

theorem bracketed_render (p : Primitive) (count : UInt8) :
    Bracketed p.name count.toNat.repr (array p count).render := by
  refine ⟨[], List.forall_mem_nil _, ?_⟩
  show (p.name ++ "[" ++ count.toNat.repr ++ "]").toList = _
  simp only [String.toList_append, List.append_assoc, List.nil_append]
  rfl

theorem counts_repr {count : UInt8} (hlow : 1 ≤ count.toNat) (hhigh : count.toNat ≤ 127) :
    Counts count.toNat.repr count := by
  refine ⟨[], count.toNat.repr.toList, [], List.forall_mem_nil _, List.forall_mem_nil _, ?_, ?_, hlow,
    hhigh⟩
  · rw [List.nil_append, List.append_nil]
  · rw [Nat.toList_repr]
    exact Text.denotes_toDigits _

theorem eq_of_repr {m n : UInt8} (h : m.toNat.repr = n.toNat.repr) : m = n := by
  have hread := congrArg (fun s => Nat.ofDigitChars 10 s.toList 0) h
  simp only [Nat.toList_repr, Nat.ofDigitChars_ten_toDigits] at hread
  exact UInt8.toNat_inj.mp hread

/-- No other name ends like that of a text. -/
theorem render_text_ne {n : UInt8} {t : FieldType} (h : ∀ m, t ≠ text m) :
    t.render ≠ (text n).render := by
  intro heq
  have hlast : t.render.toList.getLast? = some ')' := by
    rw [heq, toList_render_text, List.getLast?_concat]
  cases t with
  | scalar p => cases p <;> cases hlast
  | text m => exact h m rfl
  | array p count =>
    obtain ⟨gap, -, hname⟩ := bracketed_render p count
    rw [hname, ← List.cons_append, ← List.append_assoc, List.getLast?_concat] at hlast
    cases hlast

theorem render_inj {t u : FieldType} (h : t.render = u.render) : t = u := by
  cases t with
  | scalar p =>
    cases u with
    | scalar q => rw [Primitive.name_injective h]
    | text m => exact absurd h (render_text_ne (by simp))
    | array q m =>
      have hbracketed := bracketed_render q m
      rw [← h] at hbracketed
      exact absurd (.inr ⟨p, rfl⟩) hbracketed.not_isElement
  | text n =>
    cases u with
    | text m =>
      have hlist := congrArg String.toList h
      rw [toList_render_text, toList_render_text, List.append_left_inj, List.append_right_inj] at hlist
      rw [eq_of_repr (String.toList_inj.mp hlist)]
    | scalar q => exact absurd h.symm (render_text_ne (by simp))
    | array q m => exact absurd h.symm (render_text_ne (by simp))
  | array p n =>
    have hbracketed := bracketed_render p n
    cases u with
    | scalar q =>
      rw [h] at hbracketed
      exact absurd (.inr ⟨q, rfl⟩) hbracketed.not_isElement
    | text m => exact absurd h (render_text_ne (by simp))
    | array q m =>
      rw [h] at hbracketed
      obtain ⟨hp, hn⟩ := hbracketed.split (.inr ⟨p, rfl⟩)
      obtain ⟨hq, hm⟩ := (bracketed_render q m).split (.inr ⟨q, rfl⟩)
      rw [hp] at hq
      rw [hn, List.cons_inj_right, List.append_left_inj] at hm
      rw [Primitive.name_injective (String.toList_inj.mp hq), eq_of_repr (String.toList_inj.mp hm)]

/-- The name that reports show for a scalar or an array is a name of it. -/
theorem spelled_render {written : String} {t : FieldType}
    (h : resolve written capacity = .ok t) (htext : ∀ n, t ≠ text n) : Spelled t.render none t := by
  have hspelled := resolve_ok_iff.mp h
  generalize Text.trim written = name at hspelled
  cases hspelled with
  | plain => exact absurd rfl (htext _)
  | text => exact absurd rfl (htext _)
  | scalar p => exact .scalar p
  | array _ hcounts =>
    obtain ⟨-, -, -, -, -, -, -, hlow, hhigh⟩ := hcounts
    exact .array (bracketed_render _ _) (counts_repr hlow hhigh)

theorem tight_render {t : FieldType} (htext : ∀ n, t ≠ text n) : Text.Tight t.render.toList := by
  cases t with
  | scalar p => exact IsElement.tight (.inr ⟨p, rfl⟩)
  | text n => exact absurd rfl (htext n)
  | array p count =>
    obtain ⟨gap, -, hname⟩ := bracketed_render p count
    have helement : IsElement p.name := .inr ⟨p, rfl⟩
    have hwritten : p.name.toList ≠ [] := by cases p <;> decide
    rw [hname]
    refine ⟨fun c hc => helement.tight.starts c ?_, fun c hc => ?_⟩
    · rwa [List.append_assoc, List.head?_append_of_ne_nil _ hwritten] at hc
    · rw [← List.cons_append, ← List.append_assoc, List.getLast?_concat] at hc
      cases hc
      rfl

/-- Without the blanks around it a type name is the spelling of a type, or it is refused for the first thing
that is wrong with it. Reports call different types differently, and a scalar or an array by a name that is
read as that type. -/
theorem resolve_iff_spelled :
    (∀ written capacity,
      (∀ t, resolve written capacity = .ok t ↔ Spelled (Text.trim written) capacity t) ∧
        ∀ fault, resolve written capacity = .error fault ↔
          Refused (Text.trim written) capacity fault) ∧
      (∀ t u : FieldType, t.render = u.render → t = u) ∧
      ∀ written capacity t, resolve written capacity = .ok t → (∀ n, t ≠ text n) →
        resolve t.render none = .ok t := by
  refine ⟨fun written capacity => ⟨fun t => resolve_ok_iff, fun fault => resolve_error_iff⟩,
    fun t u => render_inj, fun written capacity t h htext => resolve_ok_iff.mpr ?_⟩
  have hbare : Text.trim t.render = t.render :=
    Text.trim_eq_iff.mpr ⟨tight_render htext, [], [], List.forall_mem_nil _, List.forall_mem_nil _,
      (List.append_nil _).symm⟩
  rw [hbare]
  exact spelled_render h htext

theorem resolve_iff_spelled_padded :
    resolve " uint8 [ +007\t] " none = .ok (.array .uint8 7) ∧
      Spelled (Text.trim " uint8 [ +007\t] ") none (.array .uint8 7) ∧
      resolve (array .uint8 7).render none = .ok (.array .uint8 7) ∧
      (array .uint8 7).render ≠ (text 7).render ∧
      Refused (Text.trim "uint8[128 ]") none (.invalidArrayLength "128 ") := by
  obtain ⟨hread, hapart, hback⟩ := resolve_iff_spelled
  have hseven : resolve " uint8 [ +007\t] " none = .ok (.array .uint8 7) := by rfl
  have hlong : resolve "uint8[128 ]" none = .error (.invalidArrayLength "128 ") := by rfl
  refine ⟨hseven, ((hread _ _).1 _).mp hseven, hback _ _ _ hseven (by simp), fun heq => ?_,
    ((hread _ _).2 _).mp hlong⟩
  cases hapart _ _ heq

end FieldType

end Gamewire
