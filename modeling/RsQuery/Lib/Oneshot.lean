/-!
# Oneshot channels

A oneshot channel carries one value.  It is open until the value is sent or the sender is
dropped; the value that was sent is received once, and after that, as after a dropped
sender, receives report that there is nothing to come.  A receiver is asked with `tryRecv`,
or polled, which yields nothing while the channel is open.
-/

/-- Nothing is received any more. -/
inductive Canceled where
  | canceled
deriving DecidableEq

/-- Where a oneshot channel stands. -/
inductive OneshotStatus where
  | waiting
  | sent
  | received
  | dropped
deriving DecidableEq

namespace OneshotStatus

/-- A receive takes the value that was sent. -/
def receive : OneshotStatus → OneshotStatus
  | .sent => .received
  | s => s

def tryRecv : OneshotStatus → Except Canceled (Option Unit)
  | .waiting => .ok none
  | .sent => .ok (some ())
  | .received | .dropped => .error .canceled

def poll : OneshotStatus → Option (Except Canceled Unit)
  | .waiting => none
  | .sent => some (.ok ())
  | .received | .dropped => some (.error .canceled)

end OneshotStatus

/-- A oneshot channel for the unit value. -/
structure Oneshot (C : Type) where
  channel : C
  send : C → C
  dropSender : C → C
  tryRecv : C → Except Canceled (Option Unit) × C
  poll : C → Option (Except Canceled Unit) × C
  status : C → OneshotStatus
  status_channel : status channel = .waiting
  status_send : ∀ c, status c = .waiting → status (send c) = .sent
  status_dropSender : ∀ c, status c = .waiting → status (dropSender c) = .dropped
  status_tryRecv : ∀ c, status (tryRecv c).2 = (status c).receive
  status_poll : ∀ c, status (poll c).2 = (status c).receive
  tryRecv_eq : ∀ c, (tryRecv c).1 = (status c).tryRecv
  poll_eq : ∀ c, (poll c).1 = (status c).poll

/-- The channel that is its own status. -/
def Oneshot.ofStatus : Oneshot OneshotStatus where
  channel := .waiting
  send _ := .sent
  dropSender _ := .dropped
  tryRecv s := (s.tryRecv, s.receive)
  poll s := (s.poll, s.receive)
  status := id
  status_channel := rfl
  status_send _ _ := rfl
  status_dropSender _ _ := rfl
  status_tryRecv _ := rfl
  status_poll _ := rfl
  tryRecv_eq _ := rfl
  poll_eq _ := rfl
