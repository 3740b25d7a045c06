import Mathlib.Data.List.Basic

/-! Codes whose words say where they end. -/

namespace SelfDelimiting

variable {α β : Type*} {encode : α → List β}

/-- Equal texts that begin with code words begin with the same one and go on alike. -/
def Separates (encode : α → List β) : Prop :=
  ∀ a b s t, encode a ++ s = encode b ++ t → a = b ∧ s = t

theorem Separates.eq_of_prefix (h : Separates encode) {a b : α} (hpre : encode a <+: encode b) :
    a = b := by
  obtain ⟨s, hs⟩ := hpre
  apply (h a b s [] _).1
  rw [hs, List.append_nil]

theorem Separates.injective (h : Separates encode) : Function.Injective encode := by
  intro a b hab
  apply h.eq_of_prefix
  exact hab ▸ List.prefix_rfl

/-- A sequence of code words is read back without any mark between them. -/
theorem Separates.flatMap_injective (h : Separates encode) (hne : ∀ a, encode a ≠ [])
    {as bs : List α} (heq : as.flatMap encode = bs.flatMap encode) : as = bs := by
  induction as generalizing bs with
  | nil =>
    cases bs with
    | nil => rfl
    | cons b bs =>
      rw [List.flatMap_nil, List.flatMap_cons] at heq
      exact absurd (List.append_eq_nil_iff.mp heq.symm).1 (hne b)
  | cons a as ih =>
    cases bs with
    | nil =>
      rw [List.flatMap_nil, List.flatMap_cons] at heq
      exact absurd (List.append_eq_nil_iff.mp heq).1 (hne a)
    | cons b bs =>
      rw [List.flatMap_cons, List.flatMap_cons] at heq
      obtain ⟨rfl, hrest⟩ := h a b _ _ heq
      rw [ih hrest]

end SelfDelimiting
