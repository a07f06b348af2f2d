/-!
# Oneshot channels

A channel for one value. The two halves share a slot and a flag: the flag is set
when the value has been sent, when the sending half is dropped without it, or
when the receiving half is closed or dropped. Whoever finds the flag set knows
that nothing more will come: a value that is sent then is handed back, and a
receiving half that finds the slot empty is told that the value never comes.

Both halves set the same flag, and it is not recorded which of them did. That is enough,
since nothing depends on it: with the flag set and the slot empty a sender is refused
and a receiver is told that nothing comes, whoever has gone.

Waking is left out. A receiving half that finds nothing has to be polled again, and the
channel does not remember who wants to be told.
-/

namespace Rtsp
namespace Lib

/-- What a oneshot channel answers. -/
inductive OneshotAnswer (α : Type) where
  | received (a : α)
  | notReady
  /-- The sending half is gone. -/
  | canceled
  deriving DecidableEq

structure Oneshot (α : Type) where
  complete : Bool
  slot : Option α
  deriving DecidableEq

namespace Oneshot

variable {α : Type} {c : Oneshot α} {a : α}

def new : Oneshot α := ⟨false, none⟩

/-- A value is sent, and the sending half is gone. -/
def send (c : Oneshot α) (a : α) : Oneshot α := if c.complete then c else ⟨true, some a⟩

/-- The receiving half looks for the value, and takes it. -/
def poll (c : Oneshot α) : OneshotAnswer α × Oneshot α :=
  if c.complete then
    match c.slot with
    | some a => (.received a, { c with slot := none })
    | none => (.canceled, c)
  else (.notReady, c)

/-- What each clone of a shared receiving half is told: the first one to find the value keeps it
    for the others. -/
def shared (c : Oneshot α) : OneshotAnswer α := c.poll.1

/-- Either half is dropped, or the receiving half is closed. -/
def close (c : Oneshot α) : Oneshot α := { c with complete := true }

/-- No value is there, and none will come. -/
def Canceled (c : Oneshot α) : Prop := c.complete = true ∧ c.slot = none

instance : Decidable c.Canceled := inferInstanceAs (Decidable (_ ∧ _))

/-- A value is there. -/
def filled (a : α) : Oneshot α := ⟨true, some a⟩

@[simp] theorem send_new (a : α) : (new : Oneshot α).send a = filled a := rfl

@[simp] theorem poll_new : (new : Oneshot α).poll = (.notReady, new) := rfl

@[simp] theorem poll_filled (a : α) : (filled a).poll = (.received a, ⟨true, none⟩) := rfl

@[simp] theorem shared_new : (new : Oneshot α).shared = .notReady := rfl

@[simp] theorem shared_filled (a : α) : (filled a).shared = .received a := rfl

@[simp] theorem close_filled (a : α) : (filled a).close = filled a := rfl

theorem send_of_open (h : c.complete = false) (a : α) : c.send a = filled a :=
  if_neg (h ▸ Bool.false_ne_true)

theorem not_canceled_new : ¬ (new : Oneshot α).Canceled := nofun

theorem not_canceled_filled (a : α) : ¬ (filled a).Canceled := nofun

theorem filled_injective {b : α} (h : filled a = filled b) : a = b := by
  cases h
  rfl

theorem filled_ne_new : filled a ≠ (new : Oneshot α) := nofun

end Oneshot

end Lib
end Rtsp
