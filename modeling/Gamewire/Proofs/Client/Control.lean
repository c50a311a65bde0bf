import Gamewire.Proofs.Client.Calls
import Gamewire.Proofs.Wire.Control

/-! Control frames as a page sees them: what a server sends besides messages is told to the page as it was
sent. -/
namespace Gamewire.Client
set_option autoImplicit false

theorem follows_word : Follows UInt32.toNat Cursor.word (Script.unsigned 4) := by
  constructor
  · intro frame c c' n hc h
    have htake : c.take 4 = .ok (wordBytes n, c') :=
      Cursor.take_ok_iff.mpr ⟨toLittleEndian_length 4 _, Cursor.word_ok_iff.mp h⟩
    have hn : ofLittleEndian (wordBytes n) = n.toNat := by
      rw [wordBytes, ofLittleEndian_toLittleEndian]
      exact Nat.mod_eq_of_lt n.toNat_lt
    rw [← hn]
    exact (follows_unsigned 4).goes hc htake
  · intro frame c f hc h
    rw [Reading.word_eq, Reading.andThen_error_iff] at h
    obtain herror | ⟨bytes, c₁, -, hgive⟩ := h
    · exact (follows_unsigned 4).fails hc herror
    · cases hgive

theorem follows_words : Follows (fun words => ControlSeen.joined words.1.toNat words.2.toNat)
    ControlFrame.decodeWords (do
      let room ← Script.unsigned 4
      return .joined room (← Script.unsigned 4)) := by
  rw [Reading.decodeWords_eq]
  exact follows_word.bind fun room => follows_word.map fun conn => rfl

/-- What a page is told of a control frame. It is not sent the one with which clients begin. -/
def seenControl? : ControlFrame → Option ControlSeen
  | .join _ _ => none
  | .joined room conn => some (.joined room.toNat conn.toNat)
  | .rejected refusal => some (.rejected refusal.code.toNat refusal.text)
  | .closing reason => some (.closing reason)

variable {frame : List UInt8} {f : ControlFrame} {seen : ControlSeen}

theorem controlBody_goes {tag : UInt8} {c c' : Cursor} (hc : Within frame c)
    (h : ControlFrame.decodeBody tag c = .ok (f, c')) (hseen : seenControl? f = some seen) :
    Shared.controlBody tag.toNat frame c.offset = .ok (seen, c'.offset) ∧ Within frame c' := by
  rw [Reading.decodeBody_eq] at h
  split at h
  · obtain ⟨words, c₁, -, hgive⟩ := Reading.andThen_ok_iff.mp h
    cases hgive
    cases hseen
  split at h
  · rename_i htag
    obtain ⟨words, c₁, hwords, hgive⟩ := Reading.andThen_ok_iff.mp h
    cases hgive
    cases hseen
    subst htag
    exact follows_words.goes hc hwords
  split at h
  · rename_i htag
    obtain ⟨code, c₁, hbyte, hrefusal⟩ := Reading.andThen_ok_iff.mp h
    obtain ⟨hscript, hc₁⟩ := follows_byte.goes hc hbyte
    cases hcode : Refusal.ofCode? code with
    | none =>
      rw [hcode] at hrefusal
      cases hrefusal
    | some refusal =>
      rw [hcode] at hrefusal
      cases hrefusal
      cases hseen
      subst htag
      obtain rfl := Refusal.ofCode?_iff.mp hcode
      have hreason : (rejectReasons.lookup refusal.code.toNat).getD "unknown" = refusal.text := by
        cases refusal <;> rfl
      refine ⟨?_, hc₁⟩
      show (Script.unsigned 1 frame c.offset >>= _) = _
      rw [hscript, ok_bind, ← hreason]
      rfl
  split at h
  · rename_i htag
    obtain ⟨reason, c₁, htext, hgive⟩ := Reading.andThen_ok_iff.mp h
    cases hgive
    cases hseen
    subst htag
    exact ((follows_text 255).after ControlSeen.closing).goes hc htext
  · cases h

theorem runDecodeSystem_onFrame (h : ControlFrame.decode frame = .ok f)
    (hseen : seenControl? f = some seen) : Shared.runDecodeSystem.onFrame frame = .ok seen := by
  rw [ControlFrame.decode_eq_whole, Reading.whole_ok_iff] at h
  obtain ⟨c, hread, hrest⟩ := h
  obtain ⟨tag, c₁, hbyte, hbody⟩ := Reading.andThen_ok_iff.mp hread
  have hstart : Within frame (Cursor.start frame) := ⟨Nat.zero_le _, rfl⟩
  obtain ⟨htag, hc₁⟩ := follows_byte.goes hstart hbyte
  obtain ⟨hscript, hc⟩ := controlBody_goes hc₁ hbody hseen
  have hend : c.offset = frame.length := by
    have hfinish := hc.finish_eq
    rw [Cursor.finish_ok_iff.mpr hrest] at hfinish
    split at hfinish
    · cases hfinish
    · exact Decidable.not_not.mp ‹_›
  have hzero : Script.unsigned 1 frame 0 = .ok (tag.toNat, c₁.offset) := htag
  simp only [Script.onFrame, Shared.runDecodeSystem, bind_run, hzero, ok_bind, hscript, finish_run,
    hend, ne_eq, not_true_eq_false, if_false]
  rfl

/-- No message of a protocol keeps a page from what the server tells it. -/
theorem callByName_control (e : Engine) (p : Protocol) (h : ControlFrame.decode frame = .ok f)
    (hseen : seenControl? f = some seen) :
    (Scope.ofProtocol p).callByName e "decodeSystem" [.frame frame] = .ok (.control seen) := by
  have hname : (Scope.ofProtocol p).function? "decodeSystem" = some (.shared .decodeSystem) :=
    function?_session (f := .decodeSystem) (by simp [sessionDeclarations])
  rw [callByName_decodeSystem hname, runDecodeSystem_onFrame h hseen]
  rfl

end Gamewire.Client
