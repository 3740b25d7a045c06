import Mathlib.Data.List.Chain
import Mathlib.Data.List.ReduceOption
import RoomWatchdog.Library.Mealy

/-! A mailbox of one slot whose sender overwrites and whose receiver empties it. -/
namespace Mailbox

variable {α : Type*}

inductive Op (α : Type*) where
  | put (a : α)
  | take
  deriving DecidableEq

namespace Op

def item : Op α → Option α
  | put a => some a
  | take => none

/-- Two sendings in a row: the first one is overwritten. -/
def Overwrites (p q : Op α) : Prop := p.item.isSome ∧ q.item.isSome

end Op

def step (slot : Option α) : Op α → Option α × Option α
  | .put a => (some a, none)
  | .take => (none, slot)

/-- What the receiver got from `ops`, in order. -/
def received (slot : Option α) (ops : List (Op α)) : List α :=
  (Mealy.outputs step slot ops).reduceOption

def sent (ops : List (Op α)) : List α := ops.filterMap Op.item

/-- The items whose sending the receiver answers before the next one. -/
def answered : List (Op α) → List α
  | .put a :: .take :: ops => a :: answered ops
  | _ :: ops => answered ops
  | [] => []

variable {slot : Option α} {ops : List (Op α)}

@[simp] theorem received_nil : received slot [] = [] := rfl

@[simp] theorem received_put (a : α) : received slot (.put a :: ops) = received (some a) ops := rfl

@[simp] theorem received_take :
    received slot (.take :: ops) = slot.toList ++ received none ops := by
  cases slot <;> rfl

theorem received_append (slot : Option α) (ops more : List (Op α)) :
    received slot (ops ++ more) =
      received slot ops ++ received (Mealy.run step slot ops) more := by
  simp [received, Mealy.outputs_append, List.reduceOption_append]

/-- The receiver gets exactly the items answered before the next sending. -/
theorem received_eq_answered (ops : List (Op α)) : received none ops = answered ops := by
  suffices h : received none ops = answered ops ∧
      ∀ a, received (some a) ops = answered (.put a :: ops) from h.1
  induction ops with
  | nil => exact ⟨rfl, fun _ => rfl⟩
  | cons op ops ih =>
    obtain ⟨hnone, hsome⟩ := ih
    cases op with
    | put b => exact ⟨hsome b, fun _ => hsome b⟩
    | take =>
      rw [received_take]
      refine ⟨hnone, fun a => ?_⟩
      rw [received_take, hnone]
      rfl

/-- In order, each at most once, and the slot holds the one still to come. -/
theorem received_sublist (slot : Option α) (ops : List (Op α)) :
    (received slot ops ++ (Mealy.run step slot ops).toList).Sublist (slot.toList ++ sent ops) := by
  induction ops generalizing slot with
  | nil => simp [sent]
  | cons op ops ih =>
    cases op with
    | put a => exact (ih (some a)).trans (List.sublist_append_right _ _)
    | take =>
      rw [received_take, List.append_assoc]
      exact (List.Sublist.refl _).append (ih none)

/-- Nothing is lost exactly when no sending overwrites. -/
theorem received_eq_sent_iff (slot : Option α) (ops : List (Op α)) :
    received slot ops ++ (Mealy.run step slot ops).toList = slot.toList ++ sent ops ↔
      (slot.toList.map Op.put ++ ops).IsChain fun p q => ¬ p.Overwrites q := by
  induction ops generalizing slot with
  | nil => cases slot <;> simp [sent]
  | cons op ops ih =>
    cases op with
    | put a =>
      cases slot with
      | none => exact ih (some a)
      | some b =>
        have hshort := (received_sublist (some a) ops).length_le
        have hlost : received (some a) ops ++ (Mealy.run step (some a) ops).toList ≠
            b :: a :: sent ops := by
          intro heq
          rw [heq] at hshort
          exact Nat.not_succ_le_self (a :: sent ops).length hshort
        have hchain : ¬ ((some b).toList.map Op.put ++ .put a :: ops).IsChain
            fun p q => ¬ Op.Overwrites p q := by
          intro hchain
          exact (List.isChain_cons_cons.mp hchain).1 ⟨rfl, rfl⟩
        exact iff_of_false hlost hchain
    | take =>
      have hchain : (slot.toList.map Op.put ++ .take :: ops).IsChain
            (fun p q => ¬ Op.Overwrites p q) ↔ ops.IsChain fun p q => ¬ Op.Overwrites p q := by
        cases slot <;> cases ops <;> simp [Op.Overwrites, Op.item]
      rw [hchain, received_take, List.append_assoc]
      exact (List.append_right_inj slot.toList).trans (ih none)

end Mailbox
