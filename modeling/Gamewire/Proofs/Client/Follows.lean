import Gamewire.Client.Meaning
import Gamewire.Proofs.Wire.Reading

/-! When a script makes the same of a frame as a reader of the wire format: from the same position it
gives the same and stops at the same position, or it throws where the reader refuses. The relation is
kept by putting steps one behind another, so it is enough to look at the smallest steps. -/
namespace Gamewire.Client
set_option autoImplicit false

variable {α β γ δ : Type}

/-! ## Runs of scripts -/

theorem ok_bind {ε : Type} (a : α) (next : α → Except ε β) : (Except.ok a >>= next) = next a := rfl

theorem bind_run (script : Script α) (cont : α → Script β) (frame : List UInt8) (pos : Nat) :
    (script >>= cont) frame pos = (script frame pos >>= fun x => cont x.1 frame x.2) := rfl

theorem pure_run (a : α) (frame : List UInt8) (pos : Nat) :
    (pure a : Script α) frame pos = .ok (a, pos) := rfl

theorem throw_run (e : Thrown) (frame : List UInt8) (pos : Nat) :
    (throw e : Script α) frame pos = .error e := rfl

theorem get_run (frame : List UInt8) (pos : Nat) :
    (get : Script Nat) frame pos = .ok (pos, pos) := rfl

theorem read_run (frame : List UInt8) (pos : Nat) :
    (read : Script (List UInt8)) frame pos = .ok (frame, pos) := rfl

theorem set_run (frame : List UInt8) (pos pos' : Nat) :
    (set pos' : Script PUnit) frame pos = .ok (.unit, pos') := rfl

theorem ite_run {c : Prop} [Decidable c] (yes no : Script α) (frame : List UInt8) (pos : Nat) :
    (if c then yes else no) frame pos = if c then yes frame pos else no frame pos := by
  split <;> rfl

theorem take_run (n : Nat) (frame : List UInt8) (pos : Nat) : Script.take n frame pos =
    if pos + n > frame.length then .error (.decode "truncated frame" pos)
    else .ok ((frame.drop pos).take n, pos + n) := by
  simp only [Script.take, Script.need, bind_run, get_run, read_run, ite_run, throw_run, pure_run,
    set_run, ok_bind]
  split <;> rfl

theorem finish_run (frame : List UInt8) (pos : Nat) : Script.finish frame pos =
    if pos ≠ frame.length then .error (.decode "trailing bytes" pos) else .ok ((), pos) := by
  simp only [Script.finish, bind_run, get_run, read_run, ite_run, throw_run, pure_run, ok_bind]

/-! ## Outcomes -/

/-- The words of a script for a fault. No frame of a message has a reject code. -/
def reason : DecodeFault → String
  | .truncated .. => "truncated frame"
  | .trailingBytes .. => "trailing bytes"
  | .unknownTag _ tag => s!"unknown tag {tag.toNat}"
  | .tagMismatch .. => "tag mismatch"
  | .invalidBool .. => "invalid bool"
  | .invalidPresence .. => "invalid presence byte"
  | .stringTooLong .. => "string too long"
  | .invalidUtf8 .. => "invalid utf-8"
  | .unknownRejectCode .. => "unknown"

def refusal (f : DecodeFault) : Thrown := .decode (reason f) f.offset

/-- A position in a frame. -/
def Within (frame : List UInt8) (c : Cursor) : Prop :=
  c.offset ≤ frame.length ∧ c.rest = frame.drop c.offset

theorem Within.finish_eq {frame : List UInt8} {c : Cursor} (h : Within frame c) : c.finish =
    if c.offset ≠ frame.length then .error (.trailingBytes c.offset c.offset frame.length)
    else .ok () := by
  obtain ⟨hoffset, hrest⟩ := h
  unfold Cursor.finish
  by_cases hend : c.offset = frame.length
  · have hnil : c.rest = [] := by rw [hrest, hend, List.drop_length]
    simp [hend, hnil]
  · have hlen : c.offset + c.rest.length = frame.length := by
      rw [hrest, List.length_drop]
      omega
    have hne : ¬ c.rest.isEmpty = true := by
      rw [List.isEmpty_iff_length_eq_zero]
      omega
    simp only [hne, hend, hlen, ne_eq, not_false_eq_true, if_true]
    rfl

/-- The script makes the same of a frame as the reading, with what it gives as `see` has it. -/
structure Follows (see : α → β) (read : Reading α) (script : Script β) : Prop where
  goes : ∀ {frame c c' a}, Within frame c → read c = .ok (a, c') →
    script frame c.offset = .ok (see a, c'.offset) ∧ Within frame c'
  fails : ∀ {frame c f}, Within frame c → read c = .error f →
    script frame c.offset = .error (refusal f)

namespace Follows

theorem give (see : α → β) (a : α) : Follows see (.give a) (pure (see a)) := by
  constructor
  · intro frame c c' b hc h
    cases h
    exact ⟨rfl, hc⟩
  · intro frame c f hc h
    cases h

theorem fail (see : α → β) (f : DecodeFault) : Follows see (.fail f) (throw (refusal f)) := by
  constructor
  · intro frame c c' b hc h
    cases h
  · intro frame c g hc h
    cases h
    rfl

/-- The steps behind may depend on where the first began, on both sides. -/
theorem andThen {see : α → β} {see' : γ → δ} {read : Reading α} {next : Nat → α → Reading γ}
    {script : Script β} {cont : Nat → β → Script δ} (h : Follows see read script)
    (hnext : ∀ offset a, Follows see' (next offset a) (cont offset (see a))) :
    Follows see' (read.andThen next) (do
      let start ← get
      let b ← script
      cont start b) := by
  constructor
  · intro frame c c' d hc hok
    obtain ⟨a, c₁, hread, hrest⟩ := Reading.andThen_ok_iff.mp hok
    obtain ⟨hscript, hc₁⟩ := h.goes hc hread
    simp only [bind_run, get_run, ok_bind, hscript]
    exact (hnext _ _).goes hc₁ hrest
  · intro frame c f hc herror
    obtain herror | ⟨a, c₁, hread, herror⟩ := Reading.andThen_error_iff.mp herror
    · simp only [bind_run, get_run, ok_bind, h.fails hc herror]
      rfl
    · obtain ⟨hscript, hc₁⟩ := h.goes hc hread
      simp only [bind_run, get_run, ok_bind, hscript]
      exact (hnext _ _).fails hc₁ herror

theorem bind {see : α → β} {see' : γ → δ} {read : Reading α} {next : α → Reading γ}
    {script : Script β} {cont : β → Script δ} (h : Follows see read script)
    (hnext : ∀ a, Follows see' (next a) (cont (see a))) :
    Follows see' (read.andThen fun _ => next) (script >>= cont) :=
  andThen h fun _ => hnext

/-- What both give is taken further on each side. -/
theorem map {see : α → β} {see' : γ → δ} {read : Reading α} {after : α → γ} {script : Script β}
    {cont : β → δ} (h : Follows see read script) (hafter : ∀ a, see' (after a) = cont (see a)) :
    Follows see' (read.andThen fun _ a => .give (after a)) (do return cont (← script)) := by
  refine h.bind fun a => ?_
  rw [← hafter]
  exact give see' (after a)

theorem after {see : α → β} {read : Reading α} {script : Script β}
    (h : Follows see read script) (cont : β → δ) :
    Follows (fun a => cont (see a)) read (do return cont (← script)) := by
  rw [← Reading.andThen_give read]
  exact h.map fun _ => rfl

theorem congr {see see' : α → β} {read : Reading α} {script : Script β}
    (h : Follows see read script) (hsee : ∀ {c c' a}, read c = .ok (a, c') → see' a = see a) :
    Follows see' read script := by
  refine ⟨fun hc hok => ?_, fun hc herror => h.fails hc herror⟩
  rw [hsee hok]
  exact h.goes hc hok

end Follows

/-! ## Bytes -/

theorem follows_take (n : Nat) : Follows id (Cursor.take n) (Script.take n) := by
  have hshort : ∀ {frame c}, Within frame c →
      (c.rest.length < n ↔ c.offset + n > frame.length) := by
    intro frame c hc
    rw [hc.2, List.length_drop]
    have hoffset := hc.1
    omega
  constructor
  · intro frame c c' bytes hc h
    unfold Cursor.take at h
    split at h
    · cases h
    · rename_i henough
      have hn : ¬ c.offset + n > frame.length := mt (hshort hc).mpr henough
      cases h
      rw [take_run, if_neg hn, ← hc.2]
      refine ⟨rfl, Nat.not_lt.mp hn, ?_⟩
      show c.rest.drop n = frame.drop (c.offset + n)
      rw [hc.2, List.drop_drop]
  · intro frame c f hc h
    unfold Cursor.take at h
    split at h
    · rename_i hless
      cases h
      rw [take_run, if_pos ((hshort hc).mp hless)]
      rfl
    · cases h

theorem follows_unsigned (size : Nat) :
    Follows ofLittleEndian (Cursor.take size) (Script.unsigned size) :=
  (follows_take size).after ofLittleEndian

theorem follows_byte : Follows UInt8.toNat Cursor.byte (Script.unsigned 1) := by
  constructor
  · intro frame c c' b hc h
    have htake : c.take 1 = .ok ([b], c') := Cursor.take_ok_iff.mpr ⟨rfl, Cursor.byte_ok_iff.mp h⟩
    have hb : ofLittleEndian [b] = b.toNat := by simp [ofLittleEndian]
    rw [← hb]
    exact (follows_unsigned 1).goes hc htake
  · intro frame c f hc h
    have htake : c.take 1 = .error f := by
      unfold Cursor.byte at h
      split at h
      · cases h
      · rename_i hnone
        simp [Cursor.take, hnone, Except.error.inj h]
    exact (follows_unsigned 1).fails hc htake

theorem follows_flag {bad : Nat → UInt8 → DecodeFault} {words : String}
    (hbad : ∀ offset b, refusal (bad offset b) = .decode words offset) :
    Follows id (Reading.flag bad) (Script.flag words) := by
  refine follows_byte.andThen fun offset b => ?_
  by_cases hzero : b = 0
  · subst hzero
    exact Follows.give id false
  · by_cases hone : b = 1
    · subst hone
      exact Follows.give id true
    · have hmore : b.toNat > 1 := by
        have h₀ : b.toNat ≠ 0 := fun h => hzero (UInt8.toNat_inj.mp h)
        have h₁ : b.toNat ≠ 1 := fun h => hone (UInt8.toNat_inj.mp h)
        omega
      rw [if_neg hzero, if_neg hone]
      simp only [hmore, if_true]
      rw [← hbad offset b]
      exact Follows.fail id (bad offset b)

theorem follows_text (capacity : Nat) :
    Follows id (Cursor.text capacity) (Script.str capacity) := by
  rw [Reading.text_eq]
  refine follows_byte.andThen fun offset length => ?_
  by_cases hlong : capacity < length.toNat
  · rw [if_pos hlong]
    simp only [gt_iff_lt, hlong, if_true]
    exact Follows.fail id (.stringTooLong offset capacity length.toNat)
  · rw [if_neg hlong]
    simp only [gt_iff_lt, hlong, if_false]
    refine (follows_take length.toNat).bind fun bytes => ?_
    dsimp only [id]
    cases Text.ofUtf8? bytes with
    | none => exact Follows.fail id (.invalidUtf8 (offset + 1))
    | some s => exact Follows.give id s

end Gamewire.Client
