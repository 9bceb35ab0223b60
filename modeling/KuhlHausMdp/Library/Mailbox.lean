import Mathlib.Order.Basic

/-! A queue of one place between two processes. What is put goes into a buffer
of the writer, where the reader does not see it, until a feeder thread writes it
to the pipe; the place is taken from the put to the get. -/

set_option autoImplicit false

inductive Mailbox (α : Type*) where
  | empty
  | buffered (item : α)
  | piped (item : α)
  deriving DecidableEq

namespace Mailbox

variable {α : Type*}

def put (item : α) : Mailbox α → Mailbox α
  | empty => buffered item
  | full => full

def feed : Mailbox α → Mailbox α
  | buffered item => piped item
  | mailbox => mailbox

def get : Mailbox α → Option α × Mailbox α
  | piped item => (some item, empty)
  | mailbox => (none, mailbox)

def held : Mailbox α → Option α
  | empty => none
  | buffered item => some item
  | piped item => some item

@[simp] theorem held_empty : (empty : Mailbox α).held = none := rfl

@[simp] theorem held_feed (mailbox : Mailbox α) : mailbox.feed.held = mailbox.held := by
  cases mailbox <;> rfl

theorem held_put (item : α) (mailbox : Mailbox α) : (mailbox.put item).held = some (mailbox.held.getD item) := by
  cases mailbox <;> rfl

theorem get_eq_some_iff {mailbox : Mailbox α} {item : α} : mailbox.get.1 = some item ↔ mailbox = .piped item := by
  cases mailbox <;> simp [get]

theorem held_get {mailbox : Mailbox α} {item : α} (held : mailbox.get.2.held = some item) : mailbox.held = some item := by
  cases mailbox with
  | empty => cases held
  | buffered => exact held
  | piped => cases held

end Mailbox
