import Gamewire.Room.Mailbox

/-! The two ways to read a queue. A reader has the end of a channel of frames and that of a slot for the
notice. It either waits for the next item or takes what is there; in whatever state the slot is, both find
what a read of the queue finds. -/
namespace Gamewire
set_option autoImplicit false

inductive NoticeSlot where
  | empty
  | filled (reason : String)
  /-- The room let go of it and left no notice. -/
  | abandoned

def NoticeSlot.notice? : NoticeSlot → Option String
  | filled reason => some reason
  | empty | abandoned => none

structure Receiver where
  frames : List (List UInt8)
  /-- Whether a room still holds the other end of the channel. -/
  connected : Bool
  /-- The slot, until the reader is done with it. -/
  slot : Option NoticeSlot

/-- What there is without waiting. -/
inductive Found where
  | item (d : Delivery)
  | ended
  | pending

def Found.delivery? : Found → Option Delivery
  | item d => some d
  | ended | pending => none

namespace Receiver

def nextFrame (r : Receiver) : Found × Receiver :=
  match r.frames with
  | frame :: frames => (.item (.frame frame), { r with frames := frames })
  | [] => (if r.connected then .pending else .ended, r)

/-- What a reader that waits finds at once. It looks at the slot first, and once more at everything when
the slot turns out to be abandoned. -/
def recv (r : Receiver) : Found × Receiver :=
  match _h : r.slot with
  | some (.filled reason) => (.item (.closed reason), { r with slot := none })
  | some .abandoned => recv { r with slot := none }
  | some .empty | none => r.nextFrame
termination_by r.slot.isSome.toNat
decreasing_by simp [_h]

/-- Takes what is there. -/
def tryRecv (r : Receiver) : Option Delivery × Receiver :=
  match r.slot with
  | some (.filled reason) => (some (.closed reason), { r with slot := none })
  | some .abandoned =>
    let r := { r with slot := none }
    (r.nextFrame.1.delivery?, r.nextFrame.2)
  | some .empty | none => (r.nextFrame.1.delivery?, r.nextFrame.2)

/-- The queue that a reader has the end of. -/
def mailbox (bound : Nat) (r : Receiver) : Mailbox where
  bound := bound
  frames := r.frames
  notice := r.slot.bind NoticeSlot.notice?
  connected := r.connected

/-- A reader finds what is next in its queue, whether it waits or not. A reader that waits is told the end
exactly when the queue is over. -/
structure Reads (bound : Nat) (r : Receiver) : Prop where
  receive : (r.tryRecv.1, r.tryRecv.2.mailbox bound) = (r.mailbox bound).receive
  agree : r.recv.1.delivery? = r.tryRecv.1 ∧ r.recv.2 = r.tryRecv.2
  ended : r.recv.1 = .ended ↔ (r.mailbox bound).isOver = true

variable {bound : Nat} {r : Receiver}

/-- A reader that finds no notice reads frames. -/
theorem reads_frames (hslot : r.slot.bind NoticeSlot.notice? = none) (hrecv : r.recv = r.nextFrame)
    (htry : r.tryRecv = (r.nextFrame.1.delivery?, r.nextFrame.2)) : r.Reads bound := by
  obtain ⟨frames, connected, slot⟩ := r
  refine ⟨?_, ?_, ?_⟩
  · rw [htry, Mailbox.receive]
    cases frames with
    | nil =>
      simp only [mailbox, hslot, nextFrame]
      cases connected <;> rfl
    | cons frame frames =>
      simp only [mailbox, hslot, nextFrame]
      rfl
  · rw [hrecv, htry]
    exact ⟨rfl, rfl⟩
  · rw [hrecv, Mailbox.isOver]
    cases frames with
    | nil =>
      simp only [mailbox, hslot, nextFrame]
      cases connected <;> simp
    | cons frame frames => simp [mailbox, hslot, nextFrame]

theorem reads (bound : Nat) (r : Receiver) : r.Reads bound := by
  obtain ⟨frames, connected, slot⟩ := r
  have hnone : Reads bound ⟨frames, connected, none⟩ := reads_frames rfl (by rw [recv]) rfl
  cases slot with
  | none => exact hnone
  | some slot =>
    cases slot with
    | empty => exact reads_frames rfl (by rw [recv]) rfl
    | filled reason =>
      have hrecv : recv ⟨frames, connected, some (.filled reason)⟩ =
        (.item (.closed reason), ⟨frames, connected, none⟩) := by rw [recv]
      refine ⟨rfl, ?_, ?_⟩
      · rw [hrecv]
        exact ⟨rfl, rfl⟩
      · rw [hrecv]
        simp [Mailbox.isOver, mailbox, NoticeSlot.notice?]
    | abandoned =>
      -- the second look is that of a reader that is done with the slot
      have hrecv : recv ⟨frames, connected, some .abandoned⟩ = recv ⟨frames, connected, none⟩ := by
        rw [recv]
      refine ⟨hnone.receive, ?_, ?_⟩
      · rw [hrecv]
        exact hnone.agree
      · rw [hrecv]
        exact hnone.ended

end Receiver

end Gamewire
