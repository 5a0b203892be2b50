import Mathlib.Logic.Function.Basic

/-!
# One-shot and bounded channels

The two channel shapes of an asynchronous runtime, as plain values.

* `Oneshot` — one value at most: the sender's half is `slot` (nothing yet, a value, or
  dropped without one), the receiver's half is `closed`;
* `Mpsc` — a queue with many senders and one receiver.  `accepted` is a history of
  everything that ever entered the queue; it decides nothing.

The sender of a `Oneshot` is used up by `send` and `dropSender`, so both act on a
pending slot only and a resolved slot never changes again (`slot_send_of_resolved`,
`slot_dropSender_of_resolved`).
-/

namespace Channel

/-- The sender's half of a one-shot channel. -/
inductive Slot (α : Type*) where
  | empty
  | sent (value : α)
  | dropped
  deriving DecidableEq, Repr

/-- The sender was dropped. -/
def Slot.isDropped {α : Type*} : Slot α → Bool
  | .dropped => true
  | _ => false

/-- Whether the sender was dropped can be decided. -/
theorem Slot.isDropped_iff {α : Type*} (s : Slot α) : s.isDropped = true ↔ s = .dropped := by
  cases s <;> simp [isDropped]

/-- A one-shot channel: what the sender did, and whether the receiver is gone. -/
structure Oneshot (α : Type*) where
  slot : Slot α := .empty
  closed : Bool := false
  deriving DecidableEq, Repr

namespace Oneshot

variable {α : Type*}

/-- The sender has neither sent nor been dropped. -/
def isPending (c : Oneshot α) : Bool :=
  match c.slot with
  | .empty => true
  | _ => false

/-- Send a value; the value is lost when the receiver is gone, the sender is used up
    either way. -/
def send (c : Oneshot α) (v : α) : Oneshot α :=
  if c.isPending then { c with slot := .sent v } else c

/-- Drop the sender. -/
def dropSender (c : Oneshot α) : Oneshot α :=
  if c.isPending then { c with slot := .dropped } else c

/-- Drop the receiver. -/
def close (c : Oneshot α) : Oneshot α := { c with closed := true }

/-- A channel is pending while nothing is in it. -/
theorem isPending_iff (c : Oneshot α) : c.isPending = true ↔ c.slot = .empty := by
  unfold isPending
  cases c.slot <;> simp

/-- Sending leaves the receiver as it is. -/
@[simp] theorem send_closed (c : Oneshot α) (v : α) : (c.send v).closed = c.closed := by
  unfold send; split <;> rfl

/-- So does dropping the sender. -/
@[simp] theorem dropSender_closed (c : Oneshot α) : c.dropSender.closed = c.closed := by
  unfold dropSender; split <;> rfl

/-- Closing keeps what was sent. -/
@[simp] theorem close_slot (c : Oneshot α) : c.close.slot = c.slot := rfl
/-- Closing drops the receiver. -/
@[simp] theorem close_closed (c : Oneshot α) : c.close.closed = true := rfl

/-- Closing leaves pending what is. -/
@[simp] theorem close_isPending (c : Oneshot α) : c.close.isPending = c.isPending := rfl

/-- The sender is used up by a send. -/
@[simp] theorem send_isPending (c : Oneshot α) (v : α) : (c.send v).isPending = false := by
  unfold send
  split
  · rfl
  · simpa using ‹¬ c.isPending = true›

/-- Without a sender nothing is pending. -/
@[simp] theorem dropSender_isPending (c : Oneshot α) : c.dropSender.isPending = false := by
  unfold dropSender
  split
  · rfl
  · simpa using ‹¬ c.isPending = true›

/-- The first value sent is kept. -/
theorem slot_send_of_pending {c : Oneshot α} (h : c.slot = .empty) (v : α) :
    (c.send v).slot = .sent v := by
  rw [send, if_pos ((isPending_iff c).mpr h)]

/-- A later one is lost. -/
theorem slot_send_of_resolved {c : Oneshot α} (h : c.slot ≠ .empty) (v : α) :
    c.send v = c := by
  rw [send, if_neg (fun hp => h ((isPending_iff c).mp hp))]

/-- A sender dropped before it has sent leaves a mark. -/
theorem slot_dropSender_of_pending {c : Oneshot α} (h : c.slot = .empty) :
    c.dropSender.slot = .dropped := by
  rw [dropSender, if_pos ((isPending_iff c).mpr h)]

/-- A sender dropped after that leaves none. -/
theorem slot_dropSender_of_resolved {c : Oneshot α} (h : c.slot ≠ .empty) :
    c.dropSender = c := by
  rw [dropSender, if_neg (fun hp => h ((isPending_iff c).mp hp))]

/-- A slot that holds a value after `send` held it before, or is the value just sent. -/
theorem slot_send_eq_sent {c : Oneshot α} {v w : α} (h : (c.send v).slot = .sent w) :
    c.slot = .sent w ∨ (c.slot = .empty ∧ v = w) := by
  by_cases hp : c.slot = .empty
  · rw [slot_send_of_pending hp, Slot.sent.injEq] at h
    exact Or.inr ⟨hp, h⟩
  · rw [slot_send_of_resolved hp] at h
    exact Or.inl h

/-- A send never drops the sender. -/
theorem slot_send_eq_dropped {c : Oneshot α} {v : α} (h : (c.send v).slot = .dropped) :
    c.slot = .dropped := by
  by_cases hp : c.slot = .empty
  · rw [slot_send_of_pending hp] at h
    cases h
  · rwa [slot_send_of_resolved hp] at h

/-- Dropping a sender never produces a value. -/
theorem slot_dropSender_eq_sent {c : Oneshot α} {w : α} (h : c.dropSender.slot = .sent w) :
    c.slot = .sent w := by
  by_cases hp : c.slot = .empty
  · rw [slot_dropSender_of_pending hp] at h
    exact absurd h (by simp)
  · rwa [slot_dropSender_of_resolved hp] at h

end Oneshot

/-- A queue with one receiver, oldest element first. -/
structure Mpsc (α : Type*) where
  buffer : List α := []
  closed : Bool := false
  accepted : List α := []
  deriving DecidableEq, Repr

namespace Mpsc

variable {α : Type*}

/-- A send succeeds at once: the receiver is there and the buffer is not full. -/
def hasRoom (capacity : Nat) (c : Mpsc α) : Bool := !c.closed && decide (c.buffer.length < capacity)

/-- Append an element. -/
def push (c : Mpsc α) (v : α) : Mpsc α :=
  { c with buffer := c.buffer ++ [v], accepted := c.accepted ++ [v] }

/-- Take the oldest element off. -/
def pop (c : Mpsc α) : Mpsc α := { c with buffer := c.buffer.tail }

/-- Drop the receiver: the channel closes and what is still buffered is dropped with it. -/
def dropReceiver (c : Mpsc α) : Mpsc α := { c with buffer := [], closed := true }

end Mpsc

end Channel
