/-
  Easel.Handle — numbered resources with shared owners.

  A handle names a resource by its index; handles are the same when their indices are. A `Pool` hands
  indices out and counts the owners of each. The index of a resource that lost its last owner waits in
  `delayed`, in the order of the losses, until `reclaim` reports it; then it may be handed out again,
  the last one reclaimed first, unless the pool never reuses indices.
-/

namespace Easel

/-- Names a resource. A counted handle is one of the owners its pool knows of. -/
structure Handle where
  index : Nat
  counted : Bool
  deriving Repr, Inhabited

instance : BEq Handle := ⟨fun a b => a.index == b.index⟩

structure Pool where
  reuses : Bool
  /-- Indices ever handed out: those below. -/
  issued : Nat := 0
  /-- Indices to hand out again, the next one first. -/
  free : List Nat := []
  /-- Indices whose last owner is gone, not yet reclaimed. -/
  delayed : List Nat := []
  /-- How many owners an index has. -/
  owners : Nat → Nat := fun _ => 0

namespace Pool

/-- `f`, but `v` at `i`. -/
def update (f : Nat → Nat) (i v : Nat) : Nat → Nat := fun j => if j = i then v else f j

@[simp] theorem update_same (f : Nat → Nat) (i v : Nat) : update f i v i = v := by simp [update]

def allocate (p : Pool) : Nat × Pool :=
  match p.free with
  | i :: rest => (i, { p with free := rest, owners := update p.owners i 1 })
  | [] => (p.issued, { p with issued := p.issued + 1, owners := update p.owners p.issued 1 })

def retain (p : Pool) (i : Nat) : Pool := { p with owners := update p.owners i (p.owners i + 1) }

/-- One owner less; without the last one the index waits to be reclaimed. -/
def release (p : Pool) (i : Nat) : Pool :=
  match p.owners i with
  | 0 => p
  | 1 => { p with owners := update p.owners i 0, delayed := p.delayed ++ [i] }
  | n + 2 => { p with owners := update p.owners i (n + 1) }

/-- Every index that lost its last owner since the last time. -/
def reclaim (p : Pool) : List Nat × Pool :=
  (p.delayed, { p with delayed := [], free := if p.reuses then p.delayed.reverse ++ p.free else p.free })

def share (p : Pool) (h : Handle) : Pool := if h.counted then p.retain h.index else p

/-- The owner that a handle was is gone. -/
def drop (p : Pool) (h : Handle) : Pool := if h.counted then p.release h.index else p

end Pool

def Pool.describe (p : Pool) (i : Nat) : String :=
  "#" ++ toString i ++ " (" ++ toString (p.owners i) ++ " owners)"

end Easel
