/-
  Easel.Event — events by name, and the bus that carries them to subscribers.

  A subscription collects the events whose name is among its names, in the order they were sent. When
  the bus closes nothing more is sent, and what is already collected stays.
-/

namespace Easel

inductive Event.Name where
  /-- The application starts up. -/
  | systemOpen
  /-- The application shuts down. -/
  | systemClose
  /-- The framebuffer of this canvas changed its size. -/
  | canvasResize (canvas : Nat)
  deriving DecidableEq, Repr

structure Event where
  name : Event.Name
  /-- The canvas that sent it, if one did. -/
  source : Option Nat
  deriving DecidableEq, Repr

def Event.resized (canvas : Nat) : Event := ⟨.canvasResize canvas, some canvas⟩

structure Subscription where
  id : Nat
  names : List Event.Name
  /-- Events not yet taken, oldest first. -/
  inbox : List Event
  deriving DecidableEq, Repr

/-- The inbox gains the event if it is one of those subscribed to. -/
def Subscription.receive (e : Event) (s : Subscription) : Subscription :=
  if e.name ∈ s.names then { s with inbox := s.inbox ++ [e] } else s

structure Bus where
  isOpen : Bool := true
  subscriptions : List Subscription := []
  /-- The number of the next subscription. -/
  next : Nat := 0
  deriving DecidableEq, Repr

namespace Bus

def subscribe (b : Bus) (names : List Event.Name) : Nat × Bus :=
  (b.next, { b with subscriptions := b.subscriptions ++ [⟨b.next, names, []⟩], next := b.next + 1 })

def unsubscribe (b : Bus) (id : Nat) : Bus :=
  { b with subscriptions := b.subscriptions.filter (·.id != id) }

def broadcast (b : Bus) (e : Event) : Nat × Bus :=
  if b.isOpen then
    (b.subscriptions.countP fun s => decide (e.name ∈ s.names),
      { b with subscriptions := b.subscriptions.map (Subscription.receive e) })
  else (0, b)

def pending (b : Bus) (id : Nat) : List Event :=
  ((b.subscriptions.find? (·.id == id)).map (·.inbox)).getD []

def drain (b : Bus) (id : Nat) : List Event × Bus :=
  (b.pending id,
    { b with subscriptions := b.subscriptions.map fun s => if s.id = id then { s with inbox := [] } else s })

def listeners (b : Bus) : Nat := b.subscriptions.length

def close (b : Bus) : Bus := { b with isOpen := false }

end Bus

end Easel
