import Mathlib.Data.List.Infix
import RoomWatchdog.ArduinoString

namespace RoomWatchdog

namespace ApiToken

/-- The characters of PREFIX. -/
def bearer : List UInt8 := ['B', 'e', 'a', 'r', 'e', 'r', ' '].map Char.toUInt8

/-- The loop over PREFIX, none when it reads past the end of the buffer. -/
def startsWith : List UInt8 → List UInt8 → Option Bool
  | _, [] => some true
  | [], _ :: _ => none
  | c :: header, p :: pre => if c ≠ p then some false else startsWith header pre

/-- Bytes to skip if the header value carries a "Bearer " prefix, else 0. -/
def bearerPrefixLength (header : List UInt8) : Option Nat := do
  some (if ← startsWith header bearer then bearer.length else 0)

section loop
variable (supplied : List UInt8) (suppliedLength : Nat) (expected : List UInt8)
  (expectedLength : Nat)

/-- The accumulator after `i` turns of the loop, none when a read leaves its array. -/
def differenceAfter : Nat → Option UInt8
  | 0 => some (if suppliedLength = expectedLength then 0 else 1)
  | i + 1 => do
    let difference ← differenceAfter i
    let candidate ← if i < suppliedLength then supplied[i]? else some 0
    let wanted ← expected[i]?
    some (difference ||| (candidate ^^^ wanted))

def «matches» : Option Bool := do
  let difference ←
    differenceAfter supplied suppliedLength expected expectedLength expectedLength
  some (difference = 0 ∧ expectedLength > 0)

end loop

/-- A prefix without a NUL is looked for without leaving the String. -/
theorem startsWith_cStr {pre : List UInt8} (hpre : 0 ∉ pre) (s : List UInt8) :
    startsWith (cStr s) pre = some (decide (pre <+: s)) := by
  induction pre generalizing s with
  | nil => simp [startsWith]
  | cons p pre ih =>
    have hp : (0 : UInt8) ≠ p := by
      intro h
      apply hpre
      rw [h]
      exact List.mem_cons_self
    cases s with
    | nil => simp [cStr, startsWith, hp]
    | cons c s =>
      have htail := ih (fun h => hpre (List.mem_cons_of_mem p h)) s
      change (if c ≠ p then some false else startsWith (cStr s) pre) = _
      by_cases hcp : c = p
      · rw [if_neg (not_not.mpr hcp), htail, hcp]
        simp
      · rw [if_pos hcp]
        simp [List.cons_prefix_cons, Ne.symm hcp]

theorem bearerPrefixLength_cStr (s : List UInt8) :
    bearerPrefixLength (cStr s) = some (if bearer <+: s then bearer.length else 0) := by
  rw [bearerPrefixLength, startsWith_cStr (by decide)]
  by_cases h : bearer <+: s <;> simp [h]

theorem take_succ_inj {s e : List UInt8} {i : Nat} {c w : UInt8} (hc : s[i]? = some c)
    (hw : e[i]? = some w) : s.take (i + 1) = e.take (i + 1) ↔ s.take i = e.take i ∧ c = w := by
  rw [List.take_add_one, List.take_add_one, hc, hw]
  constructor
  · intro h
    obtain ⟨hinit, hlast⟩ := List.append_inj' h rfl
    exact ⟨hinit, by simpa using hlast⟩
  · rintro ⟨hinit, rfl⟩
    rw [hinit]

section loop
variable {supplied : List UInt8} {suppliedLength : Nat} {expected : List UInt8}
  {expectedLength : Nat}

/-- The accumulator stays zero as long as the lengths and the bytes agree. -/
theorem differenceAfter_spec (hs : suppliedLength ≤ supplied.length) {i : Nat}
    (he : i ≤ expected.length) (hi : i ≤ expectedLength) :
    ∃ difference,
      differenceAfter supplied suppliedLength expected expectedLength i = some difference ∧
      (difference = 0 ↔
        suppliedLength = expectedLength ∧ supplied.take i = expected.take i) := by
  induction i with
  | zero =>
    refine ⟨_, rfl, ?_⟩
    split_ifs with h <;> simp [h]
  | succ i ih =>
    obtain ⟨difference, hrun, hzero⟩ := ih (by omega) (by omega)
    obtain ⟨wanted, hwanted⟩ : ∃ wanted, expected[i]? = some wanted :=
      ⟨_, List.getElem?_eq_getElem (by omega)⟩
    by_cases hin : i < suppliedLength
    · obtain ⟨candidate, hcandidate⟩ : ∃ candidate, supplied[i]? = some candidate :=
        ⟨_, List.getElem?_eq_getElem (by omega)⟩
      refine ⟨difference ||| (candidate ^^^ wanted), ?_, ?_⟩
      · simp [differenceAfter, hrun, hin, hcandidate, hwanted]
      · rw [UInt8.or_eq_zero_iff, UInt8.xor_eq_zero_iff, hzero, take_succ_inj hcandidate hwanted,
          and_assoc]
    · -- the lengths differ here, so the accumulator is not zero already
      have hlen : suppliedLength ≠ expectedLength := by omega
      refine ⟨difference ||| (0 ^^^ wanted), ?_, ?_⟩
      · simp [differenceAfter, hrun, hin, hwanted]
      · rw [UInt8.or_eq_zero_iff, hzero]
        simp [hlen]

/-- The whole loop is an equality test that fails on the empty token. -/
theorem matches_eq (hs : suppliedLength ≤ supplied.length)
    (he : expectedLength ≤ expected.length) :
    ApiToken.matches supplied suppliedLength expected expectedLength =
      some (decide (0 < expectedLength ∧ suppliedLength = expectedLength ∧
        supplied.take expectedLength = expected.take expectedLength)) := by
  obtain ⟨difference, hrun, hzero⟩ := differenceAfter_spec hs he (Nat.le_refl _)
  rw [ApiToken.matches, hrun, Option.bind_eq_bind, Option.bind_some, Option.some_inj,
    decide_eq_decide, hzero]
  exact and_comm

end loop

theorem cStr_take (s : List UInt8) : (cStr s).take s.length = s := List.take_left

/-- On whole Strings that is equality of the bytes. -/
theorem matches_cStr (supplied expected : List UInt8) :
    ApiToken.matches (cStr supplied) supplied.length (cStr expected) expected.length =
      some (decide (expected ≠ [] ∧ supplied = expected)) := by
  have hlen : ∀ s : List UInt8, s.length ≤ (cStr s).length := by
    intro s
    simp [cStr]
  rw [matches_eq (hlen supplied) (hlen expected), Option.some_inj, decide_eq_decide]
  apply and_congr List.length_pos_iff
  constructor
  · rintro ⟨hsame, htake⟩
    rwa [cStr_take, ← hsame, cStr_take] at htake
  · intro h
    rw [h]
    exact ⟨rfl, rfl⟩

end ApiToken

end RoomWatchdog
