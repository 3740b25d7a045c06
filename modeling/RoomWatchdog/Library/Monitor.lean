import Mathlib.Data.List.Chain
import RoomWatchdog.Library.Mealy

/-! A monitor reads a trace item by item, allowing each one or not and remembering what it
needs for the next. -/
namespace Monitor

variable {σ τ ι ο α : Type*}

/-- Every item is allowed in the memory left by those before it. -/
def Accepts (guard : τ → ο → Prop) (next : τ → ο → τ) (m : τ) : List ο → Prop
  | [] => True
  | o :: os => guard m o ∧ Accepts guard next (next m o) os

variable {guard : τ → ο → Prop} {next : τ → ο → τ} {m : τ}

@[simp] theorem accepts_nil : Accepts guard next m [] := trivial

@[simp] theorem accepts_cons {o : ο} {os : List ο} :
    Accepts guard next m (o :: os) ↔ guard m o ∧ Accepts guard next (next m o) os := Iff.rfl

@[simp] theorem accepts_append {os ps : List ο} :
    Accepts guard next m (os ++ ps) ↔
      Accepts guard next m os ∧ Accepts guard next (os.foldl next m) ps := by
  induction os generalizing m with
  | nil => simp
  | cons o os ih => simp [ih, and_assoc]

/-- A machine whose every step hands out items that the monitor allows, and keeps in touch
with the monitor's memory, is accepted along every run. -/
theorem run_accepts {step : σ → ι → σ × List ο} (R : σ → τ → Prop)
    (hstep : ∀ s m i, R s m →
      Accepts guard next m (step s i).2 ∧ R (step s i).1 ((step s i).2.foldl next m))
    {s : σ} (hs : R s m) (is : List ι) :
    Accepts guard next m (Mealy.outputs step s is).flatten := by
  induction is generalizing s m with
  | nil => trivial
  | cons i is ih =>
    obtain ⟨hitems, hnext⟩ := hstep s m i hs
    rw [Mealy.outputs_cons, List.flatten_cons, accepts_append]
    exact ⟨hitems, ih hnext⟩

/-- If the monitor remembers the last item of a kind and allows the next one only in
relation `R` to it, the items of that kind form an `R`-chain. -/
theorem accepts_chain {R : α → α → Prop} (last : τ → Option α) (kind : ο → Option α)
    (hkeep : ∀ m o, kind o = none → last (next m o) = last m)
    (hset : ∀ m o b, guard m o → kind o = some b →
      last (next m o) = some b ∧ ∀ a ∈ last m, R a b)
    {os : List ο} (h : Accepts guard next m os) :
    ((last m).toList ++ os.filterMap kind).IsChain R := by
  induction os generalizing m with
  | nil => cases last m <;> simp
  | cons o os ih =>
    obtain ⟨hguard, hrest⟩ := h
    have hchain := ih hrest
    cases hk : kind o with
    | none =>
      rw [hkeep m o hk] at hchain
      simpa [List.filterMap_cons, hk] using hchain
    | some b =>
      obtain ⟨hlast, hrel⟩ := hset m o b hguard hk
      rw [hlast] at hchain
      cases ha : last m with
      | none => simpa [List.filterMap_cons, hk] using hchain
      | some a => simpa [List.filterMap_cons, hk, hrel a ha] using hchain

end Monitor
