import RoomWatchdog.Library.Mealy

/-! Machines whose steps can go wrong, none being the step with no defined result. -/
namespace Faulting

variable {σ τ ι ο : Type*}

/-- The state and the outputs of a run, none when one of its steps goes wrong. -/
def exec (step : σ → ι → Option (σ × ο)) (s : σ) : List ι → Option (σ × List ο)
  | [] => some (s, [])
  | i :: is => do
    let (t, o) ← step s i
    let (u, os) ← exec step t is
    some (u, o :: os)

/-- Related states answer alike, and the machine's step does not go wrong. -/
def Implements (R : σ → τ → Prop) (step : σ → ι → Option (σ × ο)) (spec : τ → ι → τ × ο) : Prop :=
  ∀ s t i, R s t → ∃ s', step s i = some (s', (spec t i).2) ∧ R s' (spec t i).1

/-- An implementation never goes wrong and cannot be told from its specification. -/
theorem Implements.exec {R : σ → τ → Prop} {step : σ → ι → Option (σ × ο)} {spec : τ → ι → τ × ο}
    (h : Implements R step spec) {s : σ} {t : τ} (hs : R s t) (is : List ι) :
    ∃ s', exec step s is = some (s', Mealy.outputs spec t is) ∧ R s' (Mealy.run spec t is) := by
  induction is generalizing s t with
  | nil => exact ⟨s, rfl, hs⟩
  | cons i is ih =>
    obtain ⟨u, hstep, hu⟩ := h s t i hs
    obtain ⟨s', hrest, hs'⟩ := ih hu
    refine ⟨s', ?_, hs'⟩
    simp only [Faulting.exec, hstep, Option.bind_eq_bind, Option.bind_some, hrest,
      Mealy.outputs_cons]

section runs
variable {step : σ → ι → Option (σ × ο)} {s u : σ} {i : ι} {is : List ι} {os : List ο}

theorem exec_cons : exec step s (i :: is) = some (u, os) ↔
    ∃ t o later, step s i = some (t, o) ∧ exec step t is = some (u, later) ∧ o :: later = os := by
  constructor
  · intro h
    obtain ⟨⟨t, o⟩, hstep, hrest⟩ := Option.bind_eq_some_iff.mp h
    obtain ⟨⟨u', later⟩, hlater, hresult⟩ := Option.bind_eq_some_iff.mp hrest
    obtain ⟨rfl, rfl⟩ := Prod.mk.inj (Option.some.inj hresult)
    exact ⟨t, o, later, hstep, hlater, rfl⟩
  · rintro ⟨t, o, later, hstep, hlater, rfl⟩
    simp only [exec, hstep, hlater, Option.bind_eq_bind, Option.bind_some]

theorem exec_length (h : exec step s is = some (u, os)) : os.length = is.length := by
  induction is generalizing s os with
  | nil =>
    obtain ⟨-, rfl⟩ := Prod.mk.inj (Option.some.inj h)
    rfl
  | cons i is ih =>
    obtain ⟨t, o, later, -, hrest, rfl⟩ := exec_cons.mp h
    rw [List.length_cons, List.length_cons, ih hrest]

/-- Inputs that leave the state as it is can be taken out of a run: it ends in the same state,
and the other inputs are answered as before. -/
theorem exec_purge (idle : ι → Bool)
    (hidle : ∀ s i t o, idle i = true → step s i = some (t, o) → t = s)
    (h : exec step s is = some (u, os)) :
    exec step s (is.filter fun i => !idle i) =
      some (u, ((is.zip os).filter fun io => !idle io.1).map Prod.snd) := by
  induction is generalizing s os with
  | nil =>
    obtain ⟨rfl, rfl⟩ := Prod.mk.inj (Option.some.inj h)
    rfl
  | cons i is ih =>
    obtain ⟨t, o, later, hstep, hrest, rfl⟩ := exec_cons.mp h
    cases hquiet : idle i with
    | true =>
      obtain rfl := hidle s i t o hquiet hstep
      simpa [hquiet] using ih hrest
    | false =>
      simp only [List.zip_cons_cons, List.filter_cons, hquiet, Bool.not_false, if_true,
        List.map_cons]
      exact exec_cons.mpr ⟨t, o, _, hstep, ih hrest, rfl⟩

/-- Where an input is taken, and what it is answered there. -/
theorem exec_getElem? {k : Nat} (h : exec step s is = some (u, os)) (hk : is[k]? = some i) :
    ∃ t v o, exec step s (is.take k) = some (t, os.take k) ∧ step t i = some (v, o) ∧
      os[k]? = some o := by
  induction is generalizing s os k with
  | nil => cases hk
  | cons j is ih =>
    obtain ⟨t, o, later, hstep, hrest, rfl⟩ := exec_cons.mp h
    cases k with
    | zero =>
      obtain rfl := Option.some.inj hk
      exact ⟨s, t, o, rfl, hstep, rfl⟩
    | succ k =>
      obtain ⟨t', v, o', hbefore, hthere, hanswer⟩ := ih hrest hk
      exact ⟨t', v, o', exec_cons.mpr ⟨t, o, _, hstep, hbefore, rfl⟩, hthere, hanswer⟩

/-- An invariant that knows the inputs so far holds at the end of every run. -/
theorem exec_invariant (I : List ι → σ → Prop)
    (hstep : ∀ past s i t o, step s i = some (t, o) → I past s → I (past ++ [i]) t)
    {past : List ι} (h : exec step s is = some (u, os)) (hs : I past s) : I (past ++ is) u := by
  induction is generalizing s os past with
  | nil =>
    obtain ⟨rfl, -⟩ := Prod.mk.inj (Option.some.inj h)
    rwa [List.append_nil]
  | cons i is ih =>
    obtain ⟨t, o, later, hhere, hrest, -⟩ := exec_cons.mp h
    have hnext := ih hrest (hstep past s i t o hhere hs)
    rwa [List.append_assoc] at hnext

end runs

end Faulting
