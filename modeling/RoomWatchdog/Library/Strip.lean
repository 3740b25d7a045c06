import Mathlib.Data.List.DropRight
import Mathlib.Data.List.TakeWhile

/-! Lists without what stands at their two ends. -/
namespace Strip

variable {α : Type*} {p : α → Bool} {l inner stem : List α}

def strip (p : α → Bool) (l : List α) : List α := (l.dropWhile p).rdropWhile p

/-- `inner` with more of the kind `p` on both sides. -/
def Pads (p : α → Bool) (l inner : List α) : Prop :=
  ∃ lead trail : List α, (∀ a ∈ lead, p a = true) ∧ (∀ a ∈ trail, p a = true) ∧
    l = lead ++ inner ++ trail

/-- Nothing of the kind `p` at either end. -/
structure Bare (p : α → Bool) (inner : List α) : Prop where
  first : ∀ a ∈ inner.head?, p a = false
  last : ∀ a ∈ inner.getLast?, p a = false

theorem bare_iff : Bare p inner ↔
    (inner.head?.all fun a => !p a) = true ∧ (inner.getLast?.all fun a => !p a) = true := by
  simp only [Option.all_eq_true, Bool.not_eq_true']
  exact ⟨fun h => ⟨h.first, h.last⟩, fun h => ⟨h.1, h.2⟩⟩

instance : Decidable (Bare p inner) := decidable_of_iff _ bare_iff.symm

theorem pads_strip (p : α → Bool) (l : List α) : Pads p l (strip p l) := by
  refine ⟨l.takeWhile p, (l.dropWhile p).rtakeWhile p, ?_, ?_, ?_⟩
  · intro a ha
    exact List.mem_takeWhile_imp ha
  · intro a ha
    exact List.mem_rtakeWhile_imp ha
  · rw [strip, List.append_assoc, List.rdropWhile_append_rtakeWhile,
      List.takeWhile_append_dropWhile]

theorem length_strip_le (p : α → Bool) (l : List α) : (strip p l).length ≤ l.length := by
  obtain ⟨lead, trail, -, -, hl⟩ := pads_strip p l
  have hlength := congrArg List.length hl
  rw [List.length_append, List.length_append] at hlength
  omega

theorem rdropWhile_append_of_pos {trail : List α} (h : ∀ a ∈ trail, p a = true) :
    (l ++ trail).rdropWhile p = l.rdropWhile p := by
  rw [List.rdropWhile, List.reverse_append, List.dropWhile_append_of_pos, List.rdropWhile]
  intro a ha
  exact h a (List.mem_reverse.mp ha)

theorem rdropWhile_of_last (h : ∀ a ∈ l.getLast?, p a = false) : l.rdropWhile p = l := by
  apply List.rdropWhile_eq_self_iff.mpr
  intro hne
  rw [h _ (List.getLast?_eq_some_getLast hne)]
  exact Bool.false_ne_true

/-- A bare list is what remains exactly of the lists that pad it. -/
theorem strip_eq_iff (h : Bare p inner) : strip p l = inner ↔ Pads p l inner := by
  constructor
  · intro hstrip
    rw [← hstrip]
    exact pads_strip p l
  · rintro ⟨lead, trail, hlead, htrail, rfl⟩
    rw [strip, List.append_assoc, List.dropWhile_append_of_pos hlead]
    cases inner with
    | nil =>
      rw [List.nil_append, List.dropWhile_eq_nil_iff.mpr htrail, List.rdropWhile_nil]
    | cons a inner =>
      have hfirst : ¬ p a = true := by
        rw [h.first a rfl]
        exact Bool.false_ne_true
      rw [List.cons_append, List.dropWhile_cons_of_neg hfirst, ← List.cons_append,
        rdropWhile_append_of_pos htrail, rdropWhile_of_last h.last]

theorem last_rdropWhile {a : α} (h : a ∈ (l.rdropWhile p).getLast?) : p a = false := by
  have hne : l.rdropWhile p ≠ [] := by
    intro hnil
    rw [hnil] at h
    cases h
  rw [List.getLast?_eq_some_getLast hne, Option.mem_some_iff] at h
  rw [← h]
  exact Bool.eq_false_iff.mpr (List.rdropWhile_last_not p l hne)

/-- What remains begins with a bare list exactly if that comes first behind the padding. -/
theorem strip_begins_iff (hne : stem ≠ []) (h : Bare p stem) :
    (∃ rest, strip p l = stem ++ rest) ↔
      ∃ lead rest : List α, (∀ a ∈ lead, p a = true) ∧ l = lead ++ stem ++ rest := by
  constructor
  · rintro ⟨rest, hstrip⟩
    obtain ⟨lead, trail, hlead, -, hl⟩ := pads_strip p l
    refine ⟨lead, rest ++ trail, hlead, ?_⟩
    rw [hl, hstrip]
    simp only [List.append_assoc]
  · rintro ⟨lead, rest, hlead, rfl⟩
    refine ⟨rest.rdropWhile p, ?_⟩
    have hbare : Bare p (stem ++ rest.rdropWhile p) := by
      refine ⟨?_, ?_⟩
      · rw [List.head?_append_of_ne_nil _ hne]
        exact h.first
      · intro a ha
        rw [List.getLast?_append, Option.mem_def, Option.or_eq_some_iff] at ha
        rcases ha with ha | ⟨-, ha⟩
        · exact last_rdropWhile ha
        · exact h.last a ha
    apply (strip_eq_iff hbare).mpr
    refine ⟨lead, rest.rtakeWhile p, hlead, fun a ha => List.mem_rtakeWhile_imp ha, ?_⟩
    simp only [List.append_assoc, List.rdropWhile_append_rtakeWhile]

end Strip
