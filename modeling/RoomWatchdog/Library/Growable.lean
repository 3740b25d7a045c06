import Mathlib.Algebra.GroupWithZero.Nat
import Mathlib.Data.List.Basic

/-! A text that grows piece by piece and moves to a larger buffer when it no longer fits. -/

namespace Growable

variable {α : Type*}

/-- `moves` counts how often the buffer was exchanged. -/
structure Buffer (α : Type*) where
  contents : List α := []
  capacity : Nat := 0
  moves : Nat := 0

namespace Buffer

-- what the allocator hands out for a size asked for
variable (room : Nat → Nat)

def reserve (b : Buffer α) (size : Nat) : Buffer α :=
  if size ≤ b.capacity then b else { b with capacity := room size, moves := b.moves + 1 }

def append (b : Buffer α) (piece : List α) : Buffer α :=
  let b := b.reserve room (b.contents.length + piece.length)
  { b with contents := b.contents ++ piece }

def appendAll (b : Buffer α) (pieces : List (List α)) : Buffer α :=
  pieces.foldl (Buffer.append room) b

variable {room} {b : Buffer α} {piece : List α} {pieces : List (List α)} {size : Nat}

@[simp] theorem reserve_contents : (b.reserve room size).contents = b.contents := by
  rw [reserve]
  split_ifs <;> rfl

theorem reserve_capacity (hroom : ∀ n, n ≤ room n) : size ≤ (b.reserve room size).capacity := by
  rw [reserve]
  split_ifs with h
  · exact h
  · exact hroom size

@[simp] theorem append_contents : (b.append room piece).contents = b.contents ++ piece := by
  simp only [append, reserve_contents]

/-- A piece that fits is only copied. -/
theorem append_of_fits (h : b.contents.length + piece.length ≤ b.capacity) :
    b.append room piece = { b with contents := b.contents ++ piece } := by
  simp only [append, reserve, if_pos h]

@[simp] theorem appendAll_contents :
    (b.appendAll room pieces).contents = b.contents ++ pieces.flatten := by
  induction pieces generalizing b with
  | nil => exact (List.append_nil _).symm
  | cons piece pieces ih =>
    change ((b.append room piece).appendAll room pieces).contents = _
    rw [ih, append_contents, List.flatten_cons, List.append_assoc]

theorem appendAll_of_fits (h : b.contents.length + pieces.flatten.length ≤ b.capacity) :
    b.appendAll room pieces = { b with contents := b.contents ++ pieces.flatten } := by
  induction pieces generalizing b with
  | nil =>
    rw [List.flatten_nil, List.append_nil]
    rfl
  | cons piece pieces ih =>
    rw [List.flatten_cons, List.length_append] at h
    change (b.append room piece).appendAll room pieces = _
    rw [append_of_fits (by omega), ih]
    · rw [List.flatten_cons, List.append_assoc]
    · rw [List.length_append]
      change _ ≤ b.capacity
      omega

end Buffer

end Growable
