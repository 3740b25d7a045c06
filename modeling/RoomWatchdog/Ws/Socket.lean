import Mathlib.Data.List.Induction
import Mathlib.Data.List.Nodup
import Mathlib.Data.List.ReduceOption
import RoomWatchdog.Library.Mealy

namespace RoomWatchdog.Ws

/-- The events that touch the slot, with client->id(). -/
inductive SocketEvent where
  | connect (id : UInt32)
  | disconnect (id : UInt32)
  | error (id : UInt32)
  deriving DecidableEq

/-- A call of socket.close. -/
structure Close where
  id : UInt32
  code : UInt16
  reason : String
  deriving DecidableEq

def replaced (id : UInt32) : Close := ⟨id, 1001, "replaced by a newer client"⟩

/-- compare_exchange_strong with 0 as the desired value. -/
def compareExchange (activeClientId expected : UInt32) : UInt32 :=
  if activeClientId = expected then 0 else activeClientId

def onSocketEvent (activeClientId : UInt32) : SocketEvent → UInt32 × Option Close
  | .connect id =>
    let previous := activeClientId
    (id, if previous ≠ 0 ∧ previous ≠ id then some (replaced previous) else none)
  | .disconnect id => (compareExchange activeClientId id, none)
  | .error id => (compareExchange activeClientId id, none)

/-- The slot after the events `es`, zero meaning nobody. -/
def activeClientId (es : List SocketEvent) : UInt32 := Mealy.run onSocketEvent 0 es

/-- The clients asked to close, in order. -/
def askedToClose (es : List SocketEvent) : List UInt32 :=
  (Mealy.outputs onSocketEvent 0 es).reduceOption.map Close.id

namespace SocketEvent

def connected : SocketEvent → Option UInt32
  | connect id => some id
  | _ => none

/-- An error ends its client as a disconnect does. -/
def Ends (id : UInt32) (e : SocketEvent) : Prop := e = disconnect id ∨ e = error id

instance (id : UInt32) : DecidablePred (Ends id) := fun _ => inferInstanceAs (Decidable (_ ∨ _))

end SocketEvent

/-- The ids of the connects, in order. -/
def connects (es : List SocketEvent) : List UInt32 := es.filterMap SocketEvent.connected

def track (clients : List UInt32) : SocketEvent → List UInt32
  | .connect id => clients ++ [id]
  | .disconnect id => clients.filter (· ≠ id)
  | .error id => clients.filter (· ≠ id)

/-- The clients that have connected and not ended. -/
def clients (es : List SocketEvent) : List UInt32 := es.foldl track []

variable {es : List SocketEvent} {id : UInt32}

@[simp] theorem compareExchange_zero : compareExchange 0 id = 0 := ite_self 0

@[simp] theorem compareExchange_self : compareExchange id id = 0 := if_pos rfl

theorem compareExchange_of_ne {active : UInt32} (h : active ≠ id) :
    compareExchange active id = active := if_neg h

/-- An event connects a client or ends one. -/
theorem connect_or_ends (e : SocketEvent) :
    (∃ id, e = .connect id) ∨ ∃ id, SocketEvent.Ends id e := by
  cases e with
  | connect id => exact Or.inl ⟨id, rfl⟩
  | disconnect id => exact Or.inr ⟨id, Or.inl rfl⟩
  | error id => exact Or.inr ⟨id, Or.inr rfl⟩

theorem onSocketEvent_ends {e : SocketEvent} (h : SocketEvent.Ends id e) (active : UInt32) :
    onSocketEvent active e = (compareExchange active id, none) := by
  rcases h with rfl | rfl <;> rfl

theorem track_ends {e : SocketEvent} (h : SocketEvent.Ends id e) (cs : List UInt32) :
    track cs e = cs.filter (· ≠ id) := by
  rcases h with rfl | rfl <;> rfl

theorem connects_ends {e : SocketEvent} (h : SocketEvent.Ends id e) (es : List SocketEvent) :
    connects (e :: es) = connects es := by
  rcases h with rfl | rfl <;> rfl

@[simp] theorem connects_append (es fs : List SocketEvent) :
    connects (es ++ fs) = connects es ++ connects fs := List.filterMap_append

theorem activeClientId_append (es : List SocketEvent) (e : SocketEvent) :
    activeClientId (es ++ [e]) = (onSocketEvent (activeClientId es) e).1 :=
  Mealy.run_append es [e]

theorem clients_append (es : List SocketEvent) (e : SocketEvent) :
    clients (es ++ [e]) = track (clients es) e := List.foldl_append

theorem askedToClose_append (es : List SocketEvent) (e : SocketEvent) :
    askedToClose (es ++ [e]) =
      askedToClose es ++ ((onSocketEvent (activeClientId es) e).2.map Close.id).toList := by
  simp only [askedToClose, activeClientId]
  rw [Mealy.outputs_append, List.reduceOption_append, List.map_append]
  cases h : (onSocketEvent (Mealy.run onSocketEvent 0 es) e).2 <;> simp [h]

/-- Without a further connect the slot keeps its client until that client ends. -/
theorem run_of_no_connect (active : UInt32) (hpost : connects es = []) :
    Mealy.run onSocketEvent active es =
      if ∃ e ∈ es, SocketEvent.Ends active e then 0 else active := by
  induction es generalizing active with
  | nil => simp
  | cons e es ih =>
    obtain ⟨id, hid⟩ : ∃ id, SocketEvent.Ends id e := by
      apply (connect_or_ends e).resolve_left
      rintro ⟨id, rfl⟩
      simp [connects, SocketEvent.connected] at hpost
    rw [connects_ends hid] at hpost
    rw [Mealy.run_cons, onSocketEvent_ends hid, ih _ hpost]
    by_cases h : active = id
    · subst h
      have hends : ∃ f ∈ e :: es, SocketEvent.Ends active f := ⟨e, List.mem_cons_self, hid⟩
      rw [if_pos hends, compareExchange_self, ite_self]
    · rw [compareExchange_of_ne h]
      have hother : ¬ SocketEvent.Ends active e := by
        intro hactive
        apply h
        rcases hid with rfl | rfl <;> rcases hactive with hsame | hsame <;> cases hsame <;> rfl
      congr 1
      simp [hother]

/-- Nobody is in the slot who has not connected. -/
theorem active_mem (h : activeClientId es ≠ 0) : activeClientId es ∈ connects es := by
  induction es using List.reverseRecOn with
  | nil => exact absurd rfl h
  | append_singleton es e ih =>
    rw [activeClientId_append] at h ⊢
    rw [connects_append]
    rcases connect_or_ends e with ⟨id, rfl⟩ | ⟨id, hid⟩
    · exact List.mem_append_right _ (List.mem_singleton_self id)
    · apply List.mem_append_left
      simp only [onSocketEvent_ends hid, compareExchange] at h ⊢
      split_ifs at h ⊢
      · exact absurd rfl h
      · exact ih h

theorem clients_sublist (es : List SocketEvent) : (clients es).Sublist (connects es) := by
  induction es using List.reverseRecOn with
  | nil => exact List.Sublist.refl []
  | append_singleton es e ih =>
    rw [clients_append, connects_append]
    rcases connect_or_ends e with ⟨id, rfl⟩ | ⟨id, hid⟩
    · exact ih.append (List.Sublist.refl [id])
    · rw [track_ends hid]
      exact (List.filter_sublist.trans ih).trans (List.sublist_append_left _ _)

/-- A client of its own id, at the moment it connects, closes the one in the slot. -/
theorem connect_closes (hunique : (connects (es ++ [.connect id])).Nodup) :
    (onSocketEvent (activeClientId es) (.connect id)).2 =
      if activeClientId es = 0 then none else some (replaced (activeClientId es)) := by
  by_cases hzero : activeClientId es = 0
  · rw [if_pos hzero]
    exact if_neg (not_and_of_not_left _ (not_not.mpr hzero))
  · rw [if_neg hzero]
    apply if_pos
    refine ⟨hzero, ?_⟩
    intro hsame
    rw [connects_append] at hunique
    have hdisjoint := List.disjoint_of_nodup_append hunique
    apply hdisjoint (active_mem hzero)
    rw [hsame]
    exact List.mem_singleton_self id

/-- Every connected client is in the slot or has been asked to close. -/
theorem clients_accounted (hids : ∀ id ∈ connects es, id ≠ 0) (hunique : (connects es).Nodup) :
    ∀ c ∈ clients es, c = activeClientId es ∨ c ∈ askedToClose es := by
  induction es using List.reverseRecOn with
  | nil =>
    intro c hc
    cases hc
  | append_singleton es e ih =>
    have hshorter : (connects es).Sublist (connects (es ++ [e])) := by
      rw [connects_append]
      exact List.sublist_append_left _ _
    have hold := ih (fun id hid => hids id (hshorter.subset hid)) (hunique.sublist hshorter)
    intro c hc
    rw [clients_append] at hc
    rw [activeClientId_append, askedToClose_append]
    rcases connect_or_ends e with ⟨id, rfl⟩ | ⟨id, hid⟩
    · rw [connect_closes hunique]
      rcases List.mem_append.mp hc with hmem | hnew
      · right
        rcases hold c hmem with hactive | hasked
        · have hc0 : c ≠ 0 := by
            apply hids
            exact hshorter.subset ((clients_sublist es).subset hmem)
          rw [← hactive, if_neg hc0]
          simp [replaced]
        · exact List.mem_append_left _ hasked
      · left
        exact List.mem_singleton.mp hnew
    · rw [track_ends hid] at hc
      obtain ⟨hmem, hne⟩ := List.mem_filter.mp hc
      rw [onSocketEvent_ends hid]
      rcases hold c hmem with hactive | hasked
      · left
        rw [← hactive]
        exact (compareExchange_of_ne (of_decide_eq_true hne)).symm
      · right
        exact List.mem_append_left _ hasked

/-- A list without repetition whose members are all one value has at most that one. -/
theorem length_le_one {l : List UInt32} {a : UInt32} (hl : l.Nodup) (h : ∀ c ∈ l, c = a) :
    l.length ≤ 1 := by
  have hrep := List.eq_replicate_of_mem h
  rw [hrep] at hl
  exact List.nodup_replicate.mp hl

/-- The slot holds the client that connected last unless it has ended since, and a late end
of any other client leaves it alone. A connect closes the client in the slot, nothing else
closes anyone, and at most one connected client has not been asked to close. -/
theorem newest_client_wins (es : List SocketEvent) (hids : ∀ id ∈ connects es, id ≠ 0)
    (hunique : (connects es).Nodup) :
    (∀ pre id post, es = pre ++ .connect id :: post → connects post = [] →
      activeClientId es = (if ∃ e ∈ post, SocketEvent.Ends id e then 0 else id) ∧
      ∀ late e, late ≠ id → SocketEvent.Ends late e →
        activeClientId (es ++ [e]) = activeClientId es) ∧
    (connects es = [] → activeClientId es = 0) ∧
    (∀ pre id post, es = pre ++ .connect id :: post →
      (onSocketEvent (activeClientId pre) (.connect id)).2 =
        if activeClientId pre = 0 then none else some (replaced (activeClientId pre))) ∧
    (∀ active id e, SocketEvent.Ends id e → (onSocketEvent active e).2 = none) ∧
    ((clients es).filter (· ∉ askedToClose es)).length ≤ 1 := by
  refine ⟨?_, ?_, ?_, ?_, ?_⟩
  · intro pre id post hes hpost
    have hslot : activeClientId es = if ∃ e ∈ post, SocketEvent.Ends id e then 0 else id := by
      rw [hes, activeClientId, Mealy.run_append, Mealy.run_cons]
      exact run_of_no_connect id hpost
    refine ⟨hslot, ?_⟩
    intro late e hlate hend
    rw [activeClientId_append, onSocketEvent_ends hend, hslot]
    split_ifs
    · exact compareExchange_zero
    · exact compareExchange_of_ne hlate.symm
  · intro hnone
    rw [activeClientId, run_of_no_connect 0 hnone, ite_self]
  · intro pre id post hes
    apply connect_closes
    rw [hes, List.append_cons, connects_append] at hunique
    exact hunique.sublist (List.sublist_append_left _ _)
  · intro active id e hend
    rw [onSocketEvent_ends hend]
  · apply length_le_one ((hunique.sublist (clients_sublist es)).filter _)
    intro c hc
    obtain ⟨hmem, hasked⟩ := List.mem_filter.mp hc
    exact (clients_accounted hids hunique c hmem).resolve_right (of_decide_eq_true hasked)

/-- A killed app's socket is reaped only after its successor has been replaced as well. -/
def zombieSockets : List SocketEvent :=
  [.connect 1, .connect 2, .connect 3, .error 1, .disconnect 1, .disconnect 2]

theorem zombies_leave_newest :
    activeClientId zombieSockets = 3 ∧ askedToClose zombieSockets = [1, 2] ∧
    activeClientId (zombieSockets ++ [.error 2]) = 3 ∧
    ((clients zombieSockets).filter (· ∉ askedToClose zombieSockets)).length ≤ 1 := by
  have hids : ∀ id ∈ connects zombieSockets, id ≠ 0 := by
    intro id hid hzero
    rw [hzero] at hid
    exact absurd hid (by decide)
  obtain ⟨hslot, -, -, -, hone⟩ := newest_client_wins zombieSockets hids (by decide)
  obtain ⟨hactive, hlate⟩ :=
    hslot [.connect 1, .connect 2] 3 [.error 1, .disconnect 1, .disconnect 2] rfl rfl
  have hthree : activeClientId zombieSockets = 3 := hactive.trans (by decide)
  exact ⟨hthree, by decide, (hlate 2 (.error 2) (by decide) (Or.inr rfl)).trans hthree, hone⟩

end RoomWatchdog.Ws
