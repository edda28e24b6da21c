import Mathlib.Data.List.Basic

/-!
# A bounded queue, and refinement by a function

The first part is a queue of at most `capacity` items that is filled at the
back, emptied at the front and can be closed.  The second part says when a
machine whose operations may fail and return results behaves as a second one
that never fails: an abstraction function that every operation commutes with.
-/

namespace Sponge

/-- A queue of at most `capacity` items. -/
@[ext] structure Fifo (α : Type*) where
  capacity : ℕ
  items : List α
  closed : Bool
  failed : Bool
  length_le : items.length ≤ capacity

namespace Fifo

variable {α : Type*}

/-- An open queue without items. -/
def empty (capacity : ℕ) : Fifo α :=
  ⟨capacity, [], false, false, Nat.zero_le capacity⟩

/-- The number of items that still fit. -/
def room (q : Fifo α) : ℕ := q.capacity - q.items.length

/-- Append the first items of `xs`, as many as fit. -/
def push (q : Fifo α) (xs : List α) : Fifo α :=
  { q with
    items := q.items ++ xs.take (min xs.length q.room)
    length_le := by
      have hle := q.length_le
      simp only [List.length_append, List.length_take, room]
      omega }

/-- The first `n` items, or all if there are fewer. -/
def front (q : Fifo α) (n : ℕ) : List α :=
  q.items.take (min n q.items.length)

/-- Remove the items that `front` returns. -/
def pop (q : Fifo α) (n : ℕ) : Fifo α :=
  { q with
    items := q.items.drop (min n q.items.length)
    length_le := by
      have hle := q.length_le
      simp only [List.length_drop]
      omega }

/-- Mark the queue as complete. -/
def close (q : Fifo α) : Fifo α := { q with closed := true }

/-- Mark the queue as failed. -/
def fail (q : Fifo α) : Fifo α := { q with failed := true }

end Fifo

/-! ## Machines with results -/

section Refinement

variable {σ τ ι ο : Type*}

/-- Take the operations in order and collect their results.  A failing
operation ends the run. -/
def perform (step : σ → ι → Option (ο × σ)) :
    σ → List ι → Option (List ο × σ)
  | s, [] => some ([], s)
  | s, op :: ops =>
      (step s op).bind fun r =>
        (perform step r.2 ops).map fun rest => (r.1 :: rest.1, rest.2)

/-- The same for a machine none of whose operations fails. -/
def collect (spec : τ → ι → ο × τ) : τ → List ι → List ο × τ
  | t, [] => ([], t)
  | t, op :: ops =>
      let r := spec t op
      let rest := collect spec r.2 ops
      (r.1 :: rest.1, rest.2)

/-- Every operation succeeds, with the result that the specification gives
for the abstract state, and commutes with the abstraction. -/
def Refines (step : σ → ι → Option (ο × σ)) (spec : τ → ι → ο × τ)
    (abs : σ → τ) : Prop :=
  ∀ s op, ∃ s', step s op = some ((spec (abs s) op).1, s') ∧
    abs s' = (spec (abs s) op).2

theorem Refines.perform
    {step : σ → ι → Option (ο × σ)} {spec : τ → ι → ο × τ} {abs : σ → τ}
    (h : Refines step spec abs) (s : σ) (ops : List ι) :
    ∃ s', Sponge.perform step s ops =
        some ((collect spec (abs s) ops).1, s') ∧
      abs s' = (collect spec (abs s) ops).2 := by
  induction ops generalizing s with
  | nil => exact ⟨s, rfl, rfl⟩
  | cons op ops ih =>
      obtain ⟨mid, hstep, hmid⟩ := h s op
      obtain ⟨s', hrest, habs⟩ := ih mid
      rw [hmid] at hrest habs
      refine ⟨s', ?_, habs⟩
      rw [Sponge.perform, hstep, Option.bind_some, hrest, Option.map_some]
      rfl

end Refinement

end Sponge
