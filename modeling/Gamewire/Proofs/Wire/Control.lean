import Gamewire.Proofs.Text.Truncation
import Gamewire.Proofs.Wire.Tags
import Gamewire.Proofs.Wire.Extension

/-! Control frames on the wire. A frame is what it is written as, up to two things that its bytes do not
say: room 0 stands for no room, and of a long reason only the head is sent. Every frame that can be read
is written as it came. -/
namespace Gamewire
set_option autoImplicit false

/-! ## Words -/

theorem Cursor.word_ok_iff {c c' : Cursor} {n : UInt32} :
    c.word = .ok (n, c') ↔ c.Spans (wordBytes n) c' := by
  rw [Reading.word_eq, Reading.andThen_ok_iff]
  constructor
  · rintro ⟨bytes, c₁, htake, hgive⟩
    cases hgive
    obtain ⟨hlength, hspan⟩ := take_ok_iff.mp htake
    rwa [wordBytes, bytes_of_pattern bytes hlength]
  · intro hspan
    refine ⟨wordBytes n, c', take_ok_iff.mpr ⟨toLittleEndian_length 4 _, hspan⟩, ?_⟩
    rw [wordBytes, pattern_of_bytes]
    rfl

theorem Refusal.ofCode?_iff {code : UInt8} {refusal : Refusal} :
    ofCode? code = some refusal ↔ refusal.code = code := by
  constructor
  · intro h
    have hcode := List.find?_some h
    exact beq_iff_eq.mp hcode
  · rintro rfl
    cases refusal <;> rfl

namespace ControlFrame

theorem decodeWords_ok_iff {c c' : Cursor} {words : UInt32 × UInt32} :
    decodeWords c = .ok (words, c') ↔ c.Spans (wordBytes words.1 ++ wordBytes words.2) c' := by
  rw [Reading.decodeWords_eq, Reading.andThen_ok_iff, Cursor.spans_append]
  simp only [Reading.andThen_ok_iff, Cursor.word_ok_iff]
  constructor
  · rintro ⟨a, c₁, hfirst, b, c₂, hsecond, hgive⟩
    cases hgive
    exact ⟨c₁, hfirst, hsecond⟩
  · rintro ⟨c₁, hfirst, hsecond⟩
    exact ⟨words.1, c₁, hfirst, words.2, c', hsecond, rfl⟩

/-! ## Frames in normal form -/

/-- The bytes of the frame say all of it. -/
def Normal : ControlFrame → Prop
  | join room _ => room ≠ some 0
  | joined _ _ => True
  | rejected _ => True
  | closing reason => reason.utf8ByteSize ≤ 255

/-- A room is asked for by its number, and any room by 0. -/
theorem getD_zero {room : Option RoomId} (h : room ≠ some 0) :
    (if room.getD 0 = 0 then none else some (room.getD 0)) = room := by
  cases room with
  | none => rfl
  | some id =>
    rw [Option.getD_some, if_neg fun hid => h (congrArg some hid)]

theorem encode_closing {reason : String} (h : reason.utf8ByteSize ≤ 255) :
    (closing reason).encode =
      0xf3 :: UInt8.ofNat reason.utf8ByteSize :: Text.utf8Bytes reason := by
  rw [encode, reasonLimit, Text.truncateBytes_of_le h]

theorem normal_of_decodeBody {tag : UInt8} {c c' : Cursor} {f : ControlFrame}
    (h : decodeBody tag c = .ok (f, c')) :
    f.Normal ∧ ∃ bytes, f.encode = tag :: bytes ∧ c.Spans bytes c' := by
  rw [Reading.decodeBody_eq] at h
  split at h
  · rename_i htag
    obtain ⟨⟨room, fingerprint⟩, c₁, hwords, hgive⟩ := Reading.andThen_ok_iff.mp h
    cases hgive
    have hspan := decodeWords_ok_iff.mp hwords
    simp only
    split
    · rename_i hroom
      rw [hroom] at hspan
      exact ⟨by rintro ⟨⟩, _, congrArg (· :: _) htag.symm, hspan⟩
    · rename_i hroom
      exact ⟨fun h => hroom (Option.some.inj h), _, congrArg (· :: _) htag.symm, hspan⟩
  split at h
  · rename_i htag
    obtain ⟨⟨room, conn⟩, c₁, hwords, hgive⟩ := Reading.andThen_ok_iff.mp h
    cases hgive
    exact ⟨trivial, _, congrArg (· :: _) htag.symm, decodeWords_ok_iff.mp hwords⟩
  split at h
  · rename_i htag
    obtain ⟨code, c₁, hbyte, hrest⟩ := Reading.andThen_ok_iff.mp h
    cases hcode : Refusal.ofCode? code with
    | none =>
      rw [hcode] at hrest
      cases hrest
    | some refusal =>
      rw [hcode] at hrest
      cases hrest
      refine ⟨trivial, [code], ?_, Cursor.byte_ok_iff.mp hbyte⟩
      rw [encode, Refusal.ofCode?_iff.mp hcode, htag]
  split at h
  · rename_i htag
    obtain ⟨reason, c₁, htext, hgive⟩ := Reading.andThen_ok_iff.mp h
    cases hgive
    obtain ⟨hfits, hspan⟩ := (Cursor.text_ok_iff (by decide)).mp htext
    exact ⟨hfits, _, by rw [encode_closing hfits, htag], hspan⟩
  · cases h

theorem decodeBody_of_normal {tag : UInt8} {bytes : List UInt8} {c c' : Cursor} {f : ControlFrame}
    (h : f.Normal) (hf : f.encode = tag :: bytes) (hspan : c.Spans bytes c') :
    decodeBody tag c = .ok (f, c') := by
  rw [Reading.decodeBody_eq]
  cases f with
  | join room fingerprint =>
    cases hf
    rw [if_pos rfl]
    refine Reading.andThen_ok_iff.mpr
      ⟨(room.getD 0, fingerprint), c', decodeWords_ok_iff.mpr hspan, ?_⟩
    simp only [getD_zero h]
    rfl
  | joined room conn =>
    cases hf
    rw [if_neg (by decide), if_pos rfl]
    exact Reading.andThen_ok_iff.mpr ⟨(room, conn), c', decodeWords_ok_iff.mpr hspan, rfl⟩
  | rejected refusal =>
    cases hf
    rw [if_neg (by decide), if_neg (by decide), if_pos rfl]
    refine Reading.andThen_ok_iff.mpr ⟨refusal.code, c', Cursor.byte_ok_iff.mpr hspan, ?_⟩
    rw [Refusal.ofCode?_iff.mpr rfl]
    rfl
  | closing reason =>
    rw [encode_closing h] at hf
    cases hf
    rw [if_neg (by decide), if_neg (by decide), if_neg (by decide), if_pos rfl]
    have htext : c.text reasonLimit = .ok (reason, c') :=
      (Cursor.text_ok_iff (by decide)).mpr ⟨h, hspan⟩
    exact Reading.andThen_ok_iff.mpr ⟨reason, c', htext, rfl⟩

/-- What is read is the frame in normal form that is written so. -/
theorem decode_ok_iff {frame : List UInt8} {f : ControlFrame} :
    decode frame = .ok f ↔ f.Normal ∧ f.encode = frame := by
  rw [decode_eq_whole, Reading.whole_ok_iff]
  simp only [Reading.andThen_ok_iff, Cursor.byte_ok_iff]
  constructor
  · rintro ⟨c, ⟨tag, c₁, htag, hbody⟩, hrest⟩
    obtain ⟨hnormal, bytes, hencode, hspan⟩ := normal_of_decodeBody hbody
    have hframe : frame = [tag] ++ c₁.rest := htag.1
    rw [hspan.1, hrest, List.append_nil] at hframe
    exact ⟨hnormal, hencode.trans hframe.symm⟩
  · rintro ⟨hnormal, rfl⟩
    obtain ⟨tag, bytes, hencode, -⟩ := f.encode_eq_cons
    rw [hencode]
    have hspan : Cursor.Spans ⟨1, bytes⟩ bytes ⟨1 + bytes.length, []⟩ :=
      ⟨(List.append_nil bytes).symm, rfl⟩
    exact ⟨⟨1 + bytes.length, []⟩,
      ⟨tag, ⟨1, bytes⟩, ⟨rfl, rfl⟩, decodeBody_of_normal hnormal hencode hspan⟩, rfl⟩

/-! ## What comes back -/

/-- What a frame is read back as: itself, with room 0 as no room and a reason of more than 255 bytes cut
to as many bytes as end with a character. -/
inductive Returns : ControlFrame → ControlFrame → Prop
  | join {room : Option RoomId} (fingerprint : UInt32) (numbered : room ≠ some 0) :
      Returns (join room fingerprint) (join room fingerprint)
  | anyRoom (fingerprint : UInt32) : Returns (join (some 0) fingerprint) (join none fingerprint)
  | joined (room : RoomId) (conn : ConnId) : Returns (joined room conn) (joined room conn)
  | rejected (refusal : Refusal) : Returns (rejected refusal) (rejected refusal)
  | closing {reason : String} (fits : reason.utf8ByteSize ≤ 255) :
      Returns (closing reason) (closing reason)
  | cut {reason head : String} (long : 255 < reason.utf8ByteSize) (cut : Text.Cut 255 reason head)
      (low : 252 ≤ head.utf8ByteSize) (scanned : Text.lastBoundary reason 255 = head.utf8ByteSize) :
      Returns (closing reason) (closing head)

/-- Every frame is written like one in normal form. -/
theorem exists_normal (f : ControlFrame) : ∃ g, f.Returns g ∧ g.Normal ∧ g.encode = f.encode := by
  cases f with
  | join room fingerprint =>
    by_cases hroom : room = some 0
    · subst hroom
      exact ⟨_, .anyRoom fingerprint, by rintro ⟨⟩, rfl⟩
    · exact ⟨_, .join fingerprint hroom, hroom, rfl⟩
  | joined room conn => exact ⟨_, .joined room conn, trivial, rfl⟩
  | rejected refusal => exact ⟨_, .rejected refusal, trivial, rfl⟩
  | closing reason =>
    by_cases hfits : reason.utf8ByteSize ≤ 255
    · exact ⟨_, .closing hfits, hfits, rfl⟩
    · have hcut := Text.cut_truncateBytes 255 reason
      have hlow := Text.lt_truncateBytes (not_le.mp hfits)
      refine ⟨_, .cut (not_le.mp hfits) hcut (by omega) hcut.lastBoundary_eq, hcut.fits, ?_⟩
      rw [encode_closing hcut.fits]
      rfl

/-- A frame is read back as it was, room 0 and the end of a long reason apart, and what is read is written
as it came. -/
theorem round_trips :
    (∀ f : ControlFrame, ∃ g, decode f.encode = .ok g ∧ f.Returns g) ∧
      ∀ frame g, decode frame = .ok g → g.encode = frame := by
  constructor
  · intro f
    obtain ⟨g, hreturns, hnormal, hencode⟩ := f.exists_normal
    exact ⟨g, decode_ok_iff.mpr ⟨hnormal, hencode⟩, hreturns⟩
  · intro frame g h
    exact (decode_ok_iff.mp h).2

/-- Two hundred characters of two bytes each, so that the limit falls into a character. -/
def longReason : String := String.ofList (List.replicate 200 'é')

theorem longReason_utf8ByteSize : longReason.utf8ByteSize = 400 :=
  Text.utf8ByteSize_replicate 200 'é'

theorem round_trips_longReason :
    decode (join (some 0) 7).encode = .ok (join none 7) ∧
      (∃ head, decode (closing longReason).encode = .ok (closing head) ∧
        Text.Cut 255 longReason head ∧ 252 ≤ head.utf8ByteSize ∧ head.utf8ByteSize ≤ 255) ∧
      decode [0xf2, 3] = .ok (rejected .shuttingDown) ∧
      (rejected .shuttingDown).encode = [0xf2, 3] := by
  obtain ⟨hreturns, hwritten⟩ := round_trips
  have hrejected : decode [0xf2, 3] = .ok (rejected .shuttingDown) := rfl
  refine ⟨?_, ?_, hrejected, hwritten _ _ hrejected⟩
  · obtain ⟨g, hdecode, hg⟩ := hreturns (join (some 0) 7)
    cases hg with
    | join _ hnumbered => exact absurd rfl hnumbered
    | anyRoom => exact hdecode
  · obtain ⟨g, hdecode, hg⟩ := hreturns (closing longReason)
    have hlong := longReason_utf8ByteSize
    generalize longReason = reason at *
    cases hg with
    | closing hfits => omega
    | cut _ hcut hlow => exact ⟨_, hdecode, hcut, hlow, hcut.fits⟩

end ControlFrame

end Gamewire
