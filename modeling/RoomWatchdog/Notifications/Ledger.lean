import RoomWatchdog.Library.Monitor
import RoomWatchdog.Notifications.Loop

/-! What the events of one node promise to whoever reads them, with no detector in sight. -/

namespace RoomWatchdog.Notifications

/-- The presence session that a trace tells, one word of (presence moved* cleared)*. -/
def session (moves : Nat) : List EventType :=
  .presence :: List.replicate moves .moved ++ [.cleared]

namespace Mark

/-- The events that make up sessions. -/
def kind : Mark → Option EventType
  | .event .presence _ _ => some .presence
  | .event .moved _ _ => some .moved
  | .event .cleared _ _ => some .cleared
  | _ => none

def edge : Mark → Option Nat
  | .event .presence _ time => some time
  | .event .cleared _ time => some time
  | _ => none

def move : Mark → Option (UInt16 × Nat)
  | .event .moved distanceCm time => some (distanceCm, time)
  | _ => none

/-- A published distance other than zero, which means no target. -/
def sighting : Mark → Option (UInt16 × Nat)
  | .reading distanceCm time => if distanceCm = 0 then none else some (distanceCm, time)
  | _ => none

def loud : Mark → Option Nat
  | .event .sound _ time => some time
  | _ => none

end Mark

/-- The second position is worth an update after the first. -/
def Worth (t : Tuning) (a b : UInt16 × Nat) : Prop :=
  b.1 ≠ 0 ∧ t.deltaCm.toNat ≤ ((b.1.toNat : Int) - a.1.toNat).natAbs ∧
    a.2 + t.minIntervalMs.toNat ≤ b.2

/-- The first sighting of a session and the moves after it are each worth an update after
the one before; without a sighting there is no move. -/
def Paced (t : Tuning) (marks : List Mark) : Prop :=
  match marks.filterMap Mark.sighting with
  | [] => marks.filterMap Mark.move = []
  | first :: _ => (first :: marks.filterMap Mark.move).IsChain (Worth t)

/-- What has to be remembered of a trace to judge the next mark. -/
structure Ledger where
  present : Bool := false
  edgeAt : Option Nat := none
  base : Option (UInt16 × Nat) := none
  soundAt : Option Nat := none

namespace Ledger

def next (l : Ledger) : Mark → Ledger
  | .event .presence _ time => { l with present := true, edgeAt := some time, base := none }
  | .event .cleared _ time => { l with present := false, edgeAt := some time, base := none }
  | .event .moved distanceCm time => { l with base := some (distanceCm, time) }
  | .event .sound _ time => { l with soundAt := some time }
  | .reading distanceCm time =>
    if l.present ∧ l.base = none ∧ distanceCm ≠ 0 then { l with base := some (distanceCm, time) }
    else l
  | _ => l

def Allows (t : Tuning) (l : Ledger) : Mark → Prop
  | .event .presence _ time =>
    l.present = false ∧ ∀ last ∈ l.edgeAt, last + t.debounceMs.toNat ≤ time
  | .event .cleared _ time =>
    l.present = true ∧ ∀ last ∈ l.edgeAt, last + t.debounceMs.toNat ≤ time
  | .event .moved distanceCm time =>
    l.present = true ∧ ∃ base ∈ l.base, Worth t base (distanceCm, time)
  | .event .sound _ time => ∀ last ∈ l.soundAt, last + t.soundCooldownMs.toNat ≤ time
  | _ => True

/-- A trace that the ledger allows from `l` on. -/
abbrev Lawful (t : Tuning) (l : Ledger) (marks : List Mark) : Prop :=
  Monitor.Accepts (Allows t) next l marks

variable {t : Tuning} {l : Ledger} {marks : List Mark}

/-- The kinds that may follow, by whether a session is open. -/
def continuation (isOpen : Bool) (moves : Nat) (counts : List Nat) : List EventType :=
  (if isOpen then List.replicate moves .moved ++ [.cleared] else []) ++
    (counts.map session).flatten

theorem lawful_kinds (h : Lawful t l marks) :
    ∃ moves counts, marks.filterMap Mark.kind <+: continuation l.present moves counts := by
  induction marks generalizing l with
  | nil => exact ⟨0, [], List.nil_prefix⟩
  | cons mark marks ih =>
    obtain ⟨hallowed, hrest⟩ := h
    obtain ⟨moves, counts, hword⟩ := ih hrest
    cases mark with
    | reading distanceCm time =>
      have hpresent : (l.next (.reading distanceCm time)).present = l.present := by
        simp only [next]
        split_ifs <;> rfl
      rw [hpresent] at hword
      exact ⟨moves, counts, hword⟩
    | event type distanceCm time =>
      cases type with
      | presence =>
        refine ⟨0, moves :: counts, ?_⟩
        rw [hallowed.1]
        simpa [continuation, session, next, Mark.kind] using hword
      | cleared =>
        refine ⟨0, counts, ?_⟩
        rw [hallowed.1]
        simpa [continuation, next, Mark.kind] using hword
      | moved =>
        refine ⟨moves + 1, counts, ?_⟩
        have hopen : (l.next (.event .moved distanceCm time)).present = l.present := rfl
        rw [hopen, hallowed.1] at hword
        rw [hallowed.1]
        simpa [continuation, List.replicate_succ, Mark.kind] using hword
      | boot => exact ⟨moves, counts, hword⟩
      | sound => exact ⟨moves, counts, hword⟩
      | calibration => exact ⟨moves, counts, hword⟩

theorem lawful_edges (h : Lawful t l marks) :
    (l.edgeAt.toList ++ marks.filterMap Mark.edge).IsChain
      (fun a b => a + t.debounceMs.toNat ≤ b) := by
  apply Monitor.accepts_chain Ledger.edgeAt Mark.edge _ _ h
  · intro l mark hnone
    cases mark with
    | reading distanceCm time =>
      simp only [next]
      split_ifs <;> rfl
    | event type distanceCm time => cases type <;> simp_all [Mark.edge, next]
  · intro l mark time hallowed hsome
    cases mark with
    | reading distanceCm time => simp [Mark.edge] at hsome
    | event type distanceCm time =>
      cases type <;> simp_all [Mark.edge, next, Allows]

theorem lawful_sounds (h : Lawful t l marks) :
    (l.soundAt.toList ++ marks.filterMap Mark.loud).IsChain
      (fun a b => a + t.soundCooldownMs.toNat ≤ b) := by
  apply Monitor.accepts_chain Ledger.soundAt Mark.loud _ _ h
  · intro l mark hnone
    cases mark with
    | reading distanceCm time =>
      simp only [next]
      split_ifs <;> rfl
    | event type distanceCm time => cases type <;> simp_all [Mark.loud, next]
  · intro l mark time hallowed hsome
    cases mark with
    | reading distanceCm time => simp [Mark.loud] at hsome
    | event type distanceCm time =>
      cases type <;> simp_all [Mark.loud, next, Allows]

section session
variable (hedges : marks.filterMap Mark.edge = [])
include hedges

/-- Inside a session the moves continue the chain from the last position told. -/
theorem lawful_moves {base : UInt16 × Nat} (h : Lawful t l marks) (hbase : l.base = some base) :
    (base :: marks.filterMap Mark.move).IsChain (Worth t) := by
  induction marks generalizing l base with
  | nil => exact List.isChain_singleton base
  | cons mark marks ih =>
    obtain ⟨hallowed, hrest⟩ := h
    cases mark with
    | reading distanceCm time =>
      have hkept : l.next (.reading distanceCm time) = l := by simp [next, hbase]
      rw [hkept] at hrest
      exact ih hedges hrest hbase
    | event type distanceCm time =>
      cases type with
      | presence => simp [Mark.edge] at hedges
      | cleared => simp [Mark.edge] at hedges
      | moved =>
        obtain ⟨-, last, hlast, hworth⟩ := hallowed
        obtain rfl : base = last := by simpa [hbase] using hlast
        have htail := ih hedges hrest rfl
        exact List.isChain_cons_cons.mpr ⟨hworth, htail⟩
      | boot => exact ih hedges hrest hbase
      | sound => exact ih hedges hrest hbase
      | calibration => exact ih hedges hrest hbase

/-- A session that has seen nothing yet is paced from its first sighting. -/
theorem lawful_paced (h : Lawful t l marks) (hpresent : l.present = true) (hbase : l.base = none) :
    Paced t marks := by
  induction marks generalizing l with
  | nil => rfl
  | cons mark marks ih =>
    obtain ⟨hallowed, hrest⟩ := h
    cases mark with
    | reading distanceCm time =>
      by_cases hzero : distanceCm = 0
      · have hkept : l.next (.reading distanceCm time) = l := by simp [next, hzero]
        rw [hkept] at hrest
        subst hzero
        exact ih hedges hrest hpresent hbase
      · have hset : (l.next (.reading distanceCm time)).base = some (distanceCm, time) := by
          simp [next, hpresent, hbase, hzero]
        have hmarks : marks.filterMap Mark.edge = [] := hedges
        have hchain := lawful_moves hmarks hrest hset
        have hsighting : Mark.sighting (.reading distanceCm time) = some (distanceCm, time) :=
          if_neg hzero
        rw [Paced, List.filterMap_cons_some hsighting]
        exact hchain
    | event type distanceCm time =>
      cases type with
      | presence => simp [Mark.edge] at hedges
      | cleared => simp [Mark.edge] at hedges
      | moved =>
        obtain ⟨-, last, hlast, -⟩ := hallowed
        rw [hbase] at hlast
        cases hlast
      | boot => exact ih hedges hrest hpresent hbase
      | sound => exact ih hedges hrest hpresent hbase
      | calibration => exact ih hedges hrest hpresent hbase

end session

end Ledger

end RoomWatchdog.Notifications
