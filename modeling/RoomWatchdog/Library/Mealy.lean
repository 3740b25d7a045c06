import Mathlib.Data.List.Basic

/-! Runs of a deterministic machine that answers every input with one output. -/
namespace Mealy

variable {σ τ ι ο : Type*}

/-- The state left behind by a list of inputs. -/
def run (step : σ → ι → σ × ο) (s : σ) : List ι → σ
  | [] => s
  | i :: is => run step (step s i).1 is

/-- The outputs, one for each input. -/
def outputs (step : σ → ι → σ × ο) (s : σ) : List ι → List ο
  | [] => []
  | i :: is => (step s i).2 :: outputs step (step s i).1 is

variable {step : σ → ι → σ × ο} {s : σ}

@[simp] theorem run_nil : run step s [] = s := rfl

@[simp] theorem run_cons (i : ι) (is : List ι) :
    run step s (i :: is) = run step (step s i).1 is := rfl

@[simp] theorem outputs_nil : outputs step s [] = [] := rfl

@[simp] theorem outputs_cons (i : ι) (is : List ι) :
    outputs step s (i :: is) = (step s i).2 :: outputs step (step s i).1 is := rfl

theorem run_append (is js : List ι) :
    run step s (is ++ js) = run step (run step s is) js := by
  induction is generalizing s with
  | nil => rfl
  | cons i is ih => exact ih

theorem outputs_append (is js : List ι) :
    outputs step s (is ++ js) = outputs step s is ++ outputs step (run step s is) js := by
  induction is generalizing s with
  | nil => rfl
  | cons i is ih => simp [ih]

@[simp] theorem outputs_length (is : List ι) : (outputs step s is).length = is.length := by
  induction is generalizing s with
  | nil => rfl
  | cons i is ih => simp [ih]

/-- The output at position `n` is that of one step from the state before it. -/
theorem outputs_getElem? (is : List ι) (n : Nat) :
    (outputs step s is)[n]? = is[n]?.map fun i => (step (run step s (is.take n)) i).2 := by
  induction is generalizing s n with
  | nil => simp
  | cons i is ih =>
    cases n with
    | zero => simp
    | succ n => simpa using ih n

/-- A shorter run gives the first outputs of a longer one. -/
theorem outputs_take (is : List ι) (n : Nat) :
    (outputs step s is).take n = outputs step s (is.take n) := by
  induction is generalizing s n with
  | nil => simp
  | cons i is ih =>
    cases n with
    | zero => rfl
    | succ n => simp [ih]

/-- The inputs `is` lead from `s` to `t` and are answered by `os`. -/
def Runs (step : σ → ι → σ × ο) (s : σ) (is : List ι) (t : σ) (os : List ο) : Prop :=
  run step s is = t ∧ outputs step s is = os

theorem Runs.refl (s : σ) : Runs step s [] s [] := ⟨rfl, rfl⟩

theorem Runs.single {i : ι} {t : σ} {o : ο} (h : step s i = (t, o)) : Runs step s [i] t [o] := by
  simp [Runs, h]

theorem Runs.append {t u : σ} {is js : List ι} {os ps : List ο} (h : Runs step s is t os)
    (k : Runs step t js u ps) : Runs step s (is ++ js) u (os ++ ps) := by
  obtain ⟨hrun, hout⟩ := h
  obtain ⟨krun, kout⟩ := k
  exact ⟨by rw [run_append, hrun, krun], by rw [outputs_append, hrun, hout, kout]⟩

theorem Runs.cons {t u : σ} {i : ι} {is : List ι} {o : ο} {os : List ο} (h : step s i = (t, o))
    (k : Runs step t is u os) : Runs step s (i :: is) u (o :: os) :=
  (Runs.single h).append k

/-- A relation that every pair of steps preserves, with equal outputs. -/
def Simulation (R : σ → τ → Prop) (step : σ → ι → σ × ο) (spec : τ → ι → τ × ο) : Prop :=
  ∀ s t i, R s t → R (step s i).1 (spec t i).1 ∧ (step s i).2 = (spec t i).2

/-- A simulation carries related states to related states along every run. -/
theorem Simulation.run {R : σ → τ → Prop} {spec : τ → ι → τ × ο} (h : Simulation R step spec)
    {t : τ} (hs : R s t) (is : List ι) : R (run step s is) (run spec t is) := by
  induction is generalizing s t with
  | nil => exact hs
  | cons i is ih => exact ih (h s t i hs).1

/-- Machines related by a simulation cannot be told apart by their outputs. -/
theorem Simulation.outputs {R : σ → τ → Prop} {spec : τ → ι → τ × ο}
    (h : Simulation R step spec) {t : τ} (hs : R s t) (is : List ι) :
    outputs step s is = outputs spec t is := by
  induction is generalizing s t with
  | nil => rfl
  | cons i is ih =>
    obtain ⟨hnext, hout⟩ := h s t i hs
    simp [hout, ih hnext]

end Mealy
