import Mathlib.Data.Option.Basic

/-! Runs of a system whose steps may be disabled: a list of actions is an interleaving, and
it has a result when each action is enabled where it is taken. -/
namespace Guarded

variable {σ α : Type*}

def exec (step : σ → α → Option σ) (s : σ) : List α → Option σ
  | [] => some s
  | a :: as => (step s a).bind fun t => exec step t as

variable {step : σ → α → Option σ} {s t u : σ} {a : α} {as : List α}

theorem exec_cons : exec step s (a :: as) = some u ↔
    ∃ t, step s a = some t ∧ exec step t as = some u := Option.bind_eq_some_iff

theorem exec_append {bs : List α} :
    exec step s (as ++ bs) = (exec step s as).bind fun t => exec step t bs := by
  induction as generalizing s with
  | nil => rfl
  | cons a as ih =>
    rw [List.cons_append, exec, exec]
    cases step s a with
    | none => rfl
    | some t => exact ih

/-- A run that can be finished can be interrupted anywhere. -/
theorem exec_of_prefix {bs : List α} (h : exec step s bs = some t) (hpre : as <+: bs) :
    ∃ u, exec step s as = some u := by
  obtain ⟨later, rfl⟩ := hpre
  rw [exec_append] at h
  obtain ⟨u, hu, -⟩ := Option.bind_eq_some_iff.mp h
  exact ⟨u, hu⟩

/-- What every enabled step preserves holds at the end of every run. -/
theorem exec_preserves (I : σ → Prop) (hstep : ∀ s a t, step s a = some t → I s → I t)
    (h : exec step s as = some t) (hs : I s) : I t := by
  induction as generalizing s with
  | nil =>
    cases h
    exact hs
  | cons a as ih =>
    obtain ⟨u, ha, has⟩ := exec_cons.mp h
    exact ih has (hstep s a u ha hs)

/-- Where no action moves away from the end and each one of a kind comes nearer to it, the end is
reached with as many of that kind as the rank says. -/
theorem exec_ends (I : σ → Prop) (P : α → Prop) (kind : α → Bool) (ended : σ → Bool)
    (rank : σ → Nat)
    (hstep : ∀ s a t, step s a = some t → P a → I s →
      I t ∧ (ended s = true → ended t = true) ∧
        (ended t = false → rank t + (if kind a then 1 else 0) ≤ rank s))
    (h : exec step s as = some t) (hP : ∀ a ∈ as, P a) (hs : I s) :
    I t ∧ (ended s = true → ended t = true) ∧
      (ended t = false → rank t + as.countP kind ≤ rank s) := by
  induction as generalizing s with
  | nil =>
    cases h
    exact ⟨hs, id, fun _ => Nat.le_refl _⟩
  | cons a as ih =>
    obtain ⟨u, ha, has⟩ := exec_cons.mp h
    obtain ⟨hu, hkeep, hnearer⟩ := hstep s a u ha (hP a List.mem_cons_self) hs
    obtain ⟨ht, hlater, hrank⟩ := ih has (fun b hb => hP b (List.mem_cons_of_mem a hb)) hu
    refine ⟨ht, hlater ∘ hkeep, ?_⟩
    intro hgoing
    have hhere : ended u = false := by
      apply Bool.eq_false_iff.mpr
      intro hended
      rw [hlater hended] at hgoing
      cases hgoing
    have hone := hnearer hhere
    have hrest := hrank hgoing
    rw [List.countP_cons]
    omega

/-- Where each action of a kind comes nearer to a goal that is not there yet, and none moves away
from it, a run comes past the goal or has no more of that kind than the rank says. -/
theorem exec_reaches (I goal : σ → Prop) (kind : α → Bool) (rank : σ → Nat)
    (hstep : ∀ s a t, step s a = some t → I s →
      I t ∧ (goal s ∨ rank t + (if kind a then 1 else 0) ≤ rank s))
    (h : exec step s as = some t) (hs : I s) :
    (∃ early u, early <+: as ∧ exec step s early = some u ∧ I u ∧ goal u) ∨
      I t ∧ rank t + as.countP kind ≤ rank s := by
  induction as generalizing s with
  | nil =>
    cases h
    exact Or.inr ⟨hs, Nat.le_refl _⟩
  | cons a as ih =>
    obtain ⟨u, ha, has⟩ := exec_cons.mp h
    obtain ⟨hu, hthere | hnearer⟩ := hstep s a u ha hs
    · exact Or.inl ⟨[], s, List.nil_prefix, rfl, hs, hthere⟩
    · rcases ih has hu with ⟨early, v, hearly, hv, hinv, hthere⟩ | ⟨ht, hrest⟩
      · left
        exact ⟨a :: early, v, (List.prefix_cons_inj a).mpr hearly, exec_cons.mpr ⟨u, ha, hv⟩, hinv,
          hthere⟩
      · right
        refine ⟨ht, ?_⟩
        rw [List.countP_cons]
        omega

/-- `C` is met by each action of a run in the state where it is taken. -/
def Throughout (step : σ → α → Option σ) (C : σ → α → Prop) (s : σ) : List α → Prop
  | [] => True
  | a :: as => C s a ∧ ∀ t ∈ step s a, Throughout step C t as

theorem throughout_cons {C : σ → α → Prop} (h : step s a = some t) :
    Throughout step C s (a :: as) ↔ C s a ∧ Throughout step C t as := by
  simp only [Throughout, h, Option.mem_some_iff, forall_eq']

/-- A law that every step extends exactly under a condition holds at the end of a run exactly
if the condition was met throughout. -/
theorem exec_iff (I P : σ → Prop) {C : σ → α → Prop}
    (hstep : ∀ s a t, step s a = some t → I s → I t ∧ (P t ↔ P s ∧ C s a))
    (h : exec step s as = some t) (hs : I s) : P t ↔ P s ∧ Throughout step C s as := by
  induction as generalizing s with
  | nil =>
    cases h
    exact (and_iff_left trivial).symm
  | cons a as ih =>
    obtain ⟨u, ha, has⟩ := exec_cons.mp h
    obtain ⟨hu, hlaw⟩ := hstep s a u ha hs
    rw [ih has hu, hlaw, throughout_cons ha, and_assoc]

end Guarded
