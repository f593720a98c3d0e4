import ConvoyChat.Lib.Chan
import ConvoyChat.Websocket.Handlers
import Mathlib.Data.Finset.Basic
import Mathlib.Logic.Function.Basic

/-!
# The Hub

The state that `Hub.Run` owns (`internal/websocket/hub.go`) and the functions that
change it. A command changes the maps at once, which no other goroutine sees, and
leaves a list of `HubTask`s: the sends, the `close` and the notifications that
other goroutines do see, in the order of the source. The Hub performs them one by
one and takes the next command when none is left.

Go's `range` over a map visits the keys in any order: the functions below get the
order as an argument.

* `Maps.Inv`: `rooms`, `users` and the `rooms` field of every client agree with
  `clients`, and no entry of an index is empty.
-/

namespace ConvoyChat.Websocket

open ConvoyChat.Lib

/-! ## The indexes -/

/-- A map from ids to sets of clients, `h.rooms` or `h.users`; `none` is a missing
    entry. -/
abbrev Index := UUID → Option (Finset Client)

namespace Index

/-- The clients under `key`. -/
def members (ix : Index) (key : UUID) : Finset Client := (ix key).getD ∅

/-- Add `c` under `key`, with a new entry where there is none. -/
def attach (ix : Index) (key : UUID) (c : Client) : Index :=
  Function.update ix key (some (insert c (ix.members key)))

/-- Remove `c` under `key`; the flag tells that it was the last one, whose entry is
    deleted. -/
def detach (ix : Index) (key : UUID) (c : Client) : Index × Bool :=
  match ix key with
  | none => (ix, false)
  | some members =>
    if members.erase c = ∅ then (Function.update ix key none, true)
    else (Function.update ix key (some (members.erase c)), false)

/-- No entry is empty. -/
def Trim (ix : Index) : Prop := ∀ key, ix key ≠ some ∅

variable {ix : Index} {key key' : UUID} {c c' : Client}

theorem mem_attach :
    c' ∈ (ix.attach key c).members key' ↔ (key' = key ∧ c' = c) ∨ c' ∈ ix.members key' := by
  by_cases h : key' = key
  · subst h
    simp [attach, members]
  · simp [attach, members, h]

theorem trim_attach (h : ix.Trim) : (ix.attach key c).Trim := by
  intro key'
  by_cases hk : key' = key
  · subst hk
    simp [attach]
  · simpa [attach, hk] using h key'

theorem mem_detach :
    c' ∈ (ix.detach key c).1.members key' ↔ c' ∈ ix.members key' ∧ ¬ (key' = key ∧ c' = c) := by
  unfold detach members
  split
  · rename_i hnone
    by_cases hk : key' = key
    · subst hk
      simp [hnone]
    · simp [hk]
  · rename_i m hm
    by_cases hk : key' = key
    · subst hk
      split_ifs with he
      · simp only [Function.update_self, Option.getD_none, Finset.notMem_empty, hm,
          Option.getD_some, true_and, false_iff]
        rintro ⟨hmem, hne⟩
        have : c' ∈ m.erase c := Finset.mem_erase.mpr ⟨hne, hmem⟩
        simp [he] at this
      · simp [hm, and_comm]
    · split_ifs <;> simp [hk]

theorem trim_detach (h : ix.Trim) : (ix.detach key c).1.Trim := by
  unfold detach
  split
  · exact h
  · rename_i m hm
    intro key'
    by_cases hk : key' = key
    · subst hk
      split_ifs with he
      · simp
      · simpa using he
    · split_ifs <;> simpa [hk] using h key'

end Index

/-! ## The Hub -/

def registerBuffer : ℕ := 64

def commandBuffer : ℕ := 256

/-- What is left to do of the command that the Hub processes. -/
inductive HubTask
  /-- one round of `deliver` or `deliverToUser` -/
  | deliver (k : Kind) (id : UUID) (payload : Event) (c : Client)
  /-- `h.subscriber.Unsubscribe` or `h.userSubscriber.UnsubscribeUser` -/
  | unsubscribe (k : Kind) (id : UUID)
  | closeSend (c : Client)
  /-- `h.presence.ClientDisconnected` -/
  | disconnected (userID : UUID) (rooms : List UUID)
deriving DecidableEq, Repr

/-- The maps that only `Hub.Run` touches; `clientRooms c` is `c.rooms`. -/
structure Maps where
  clients : Finset Client
  rooms : Index
  users : Index
  clientRooms : Client → Finset UUID

/-- Model of `Hub` (lines 28–70). `dropped` holds the clients that were logged as
    `ws client dropped: send buffer full`. -/
structure Hub where
  register : List Client
  unregister : List Client
  join : List (Client × UUID)
  leave : List (Client × UUID)
  /-- `broadcast` and `userBroadcast` -/
  broadcast : Kind → List (UUID × Event)
  /-- `done` is closed -/
  done : Bool
  maps : Maps
  todo : List HubTask
  dropped : Finset Client

/-- Model of `NewHub` (lines 133–147). -/
def Hub.new : Hub where
  register := []
  unregister := []
  join := []
  leave := []
  broadcast := fun _ => []
  done := false
  maps := ⟨∅, fun _ => none, fun _ => none, fun _ => ∅⟩
  todo := []
  dropped := ∅

namespace Maps

/-- The index of a kind of broadcasts. -/
def index (h : Maps) : Kind → Index
  | .room => h.rooms
  | .user => h.users

/-- The `register` branch of `Run` (lines 158–166). -/
def registerClient (h : Maps) (c : Client) : Maps :=
  { h with clients := insert c h.clients, users := h.users.attach c.userID c }

/-- Model of `detach` (lines 295–308), which only changes `h.rooms`. -/
def detach (rooms : Index) (roomID : UUID) (c : Client) : Index × List HubTask :=
  ((rooms.detach roomID c).1,
    if (rooms.detach roomID c).2 then [.unsubscribe .room roomID] else [])

/-- Model of `detachUser` (lines 253–265), which only changes `h.users`. -/
def detachUser (users : Index) (c : Client) : Index × List HubTask :=
  ((users.detach c.userID c).1,
    if (users.detach c.userID c).2 then [.unsubscribe .user c.userID] else [])

/-- The loop of `removeClient` over `c.rooms`, in the order `ids`. -/
def detachAll (c : Client) : List UUID → Index → Index × List HubTask
  | [], rooms => (rooms, [])
  | roomID :: ids, rooms =>
    ((detachAll c ids (detach rooms roomID c).1).1,
      (detach rooms roomID c).2 ++ (detachAll c ids (detach rooms roomID c).1).2)

/-- Model of `removeClient` (lines 232–248); `ids` lists `c.rooms`. -/
def removeClient (h : Maps) (ids : List UUID) (c : Client) : Maps × List HubTask :=
  if c ∉ h.clients then (h, [])
  else
    ({ h with
        clients := h.clients.erase c
        rooms := (detachAll c ids h.rooms).1
        users := (detachUser h.users c).1 },
      (detachAll c ids h.rooms).2 ++ (detachUser h.users c).2 ++
        [.closeSend c, .disconnected c.userID ids])

/-- Model of `addToRoom` (lines 267–282). -/
def addToRoom (h : Maps) (c : Client) (roomID : UUID) : Maps :=
  if c ∉ h.clients then h
  else if roomID ∈ h.clientRooms c then h
  else
    { h with
      rooms := h.rooms.attach roomID c
      clientRooms := Function.update h.clientRooms c (insert roomID (h.clientRooms c)) }

/-- Model of `removeFromRoom` (lines 284–291). -/
def removeFromRoom (h : Maps) (c : Client) (roomID : UUID) : Maps × List HubTask :=
  if roomID ∉ h.clientRooms c then (h, [])
  else
    ({ h with
        rooms := (detach h.rooms roomID c).1
        clientRooms := Function.update h.clientRooms c ((h.clientRooms c).erase roomID) },
      (detach h.rooms roomID c).2)

/-! ## The invariant of the maps -/

/-- The indexes agree with `clients` and with the rooms of every client. -/
structure Inv (h : Maps) : Prop where
  rooms : ∀ r c, c ∈ h.rooms.members r ↔ c ∈ h.clients ∧ r ∈ h.clientRooms c
  users : ∀ u c, c ∈ h.users.members u ↔ c ∈ h.clients ∧ c.userID = u
  trim_rooms : h.rooms.Trim
  trim_users : h.users.Trim

variable {h : Maps} {c : Client}

theorem inv_new : Hub.new.maps.Inv where
  rooms := by simp [Hub.new, Index.members]
  users := by simp [Hub.new, Index.members]
  trim_rooms := by simp [Hub.new, Index.Trim]
  trim_users := by simp [Hub.new, Index.Trim]

theorem Inv.mem_clients {k : Kind} {id : UUID} (hinv : h.Inv) (hc : c ∈ (h.index k).members id) :
    c ∈ h.clients := by
  cases k with
  | room => exact ((hinv.rooms id c).mp hc).1
  | user => exact ((hinv.users id c).mp hc).1

theorem Inv.registerClient (hinv : h.Inv) (hrooms : h.clientRooms c = ∅) :
    (h.registerClient c).Inv where
  rooms := by
    intro r c'
    show c' ∈ h.rooms.members r ↔ c' ∈ insert c h.clients ∧ r ∈ h.clientRooms c'
    rw [hinv.rooms, Finset.mem_insert]
    constructor
    · rintro ⟨hc', hr⟩
      exact ⟨.inr hc', hr⟩
    · rintro ⟨rfl | hc', hr⟩
      · simp [hrooms] at hr
      · exact ⟨hc', hr⟩
  users := by
    intro u c'
    show c' ∈ (h.users.attach c.userID c).members u ↔ c' ∈ insert c h.clients ∧ c'.userID = u
    rw [Index.mem_attach, hinv.users, Finset.mem_insert]
    constructor
    · rintro (⟨rfl, rfl⟩ | ⟨hc', hu⟩)
      · exact ⟨.inl rfl, rfl⟩
      · exact ⟨.inr hc', hu⟩
    · rintro ⟨rfl | hc', rfl⟩
      · exact .inl ⟨rfl, rfl⟩
      · exact .inr ⟨hc', rfl⟩
  trim_rooms := hinv.trim_rooms
  trim_users := Index.trim_attach hinv.trim_users

theorem Inv.addToRoom {r : UUID} (hinv : h.Inv) : (h.addToRoom c r).Inv := by
  unfold Maps.addToRoom
  by_cases hc : c ∈ h.clients
  · rw [if_neg (not_not.mpr hc)]
    split
    · exact hinv
    refine ⟨?_, hinv.users, Index.trim_attach hinv.trim_rooms, hinv.trim_users⟩
    intro r' c'
    show c' ∈ (h.rooms.attach r c).members r' ↔
      c' ∈ h.clients ∧ r' ∈ Function.update h.clientRooms c (insert r (h.clientRooms c)) c'
    rw [Index.mem_attach, hinv.rooms]
    by_cases hcc : c' = c
    · subst hcc
      simp [hc]
    · simp [hcc]
  · rw [if_pos hc]
    exact hinv

theorem Inv.removeFromRoom {r : UUID} (hinv : h.Inv) : (h.removeFromRoom c r).1.Inv := by
  unfold Maps.removeFromRoom
  by_cases hr : r ∈ h.clientRooms c
  · rw [if_neg (not_not.mpr hr)]
    refine ⟨?_, hinv.users, Index.trim_detach hinv.trim_rooms, hinv.trim_users⟩
    intro r' c'
    show c' ∈ (h.rooms.detach r c).1.members r' ↔
      c' ∈ h.clients ∧ r' ∈ Function.update h.clientRooms c ((h.clientRooms c).erase r) c'
    rw [Index.mem_detach, hinv.rooms]
    by_cases hcc : c' = c
    · subst hcc
      simp only [and_true, Function.update_self, Finset.mem_erase]
      tauto
    · simp [hcc]
  · rw [if_pos hr]
    exact hinv

/-! ## Removing a client -/

theorem mem_detachAll {ids : List UUID} {ix : Index} {r : UUID} {c' : Client} :
    c' ∈ (detachAll c ids ix).1.members r ↔ c' ∈ ix.members r ∧ ¬ (r ∈ ids ∧ c' = c) := by
  induction ids generalizing ix with
  | nil => simp [detachAll]
  | cons r' ids ih =>
    show c' ∈ (detachAll c ids (ix.detach r' c).1).1.members r ↔ _
    rw [ih, Index.mem_detach, List.mem_cons]
    tauto

theorem trim_detachAll {ids : List UUID} {ix : Index} (ht : ix.Trim) :
    (detachAll c ids ix).1.Trim := by
  induction ids generalizing ix with
  | nil => exact ht
  | cons r ids ih => exact ih (Index.trim_detach ht)

/-- Every task of `detach` is an `Unsubscribe`. -/
theorem mem_detach_tasks {ix : Index} {r : UUID} {t : HubTask} (ht : t ∈ (detach ix r c).2) :
    t = .unsubscribe .room r := by
  unfold detach at ht
  split_ifs at ht
  · simpa using ht
  · simp at ht

theorem mem_detachAll_tasks {ids : List UUID} {ix : Index} {t : HubTask}
    (ht : t ∈ (detachAll c ids ix).2) : ∃ r, t = .unsubscribe .room r := by
  induction ids generalizing ix with
  | nil => simp [detachAll] at ht
  | cons r ids ih =>
    rcases List.mem_append.mp ht with h₁ | h₁
    · exact ⟨r, mem_detach_tasks h₁⟩
    · exact ih h₁

theorem mem_detachUser_tasks {ix : Index} {t : HubTask} (ht : t ∈ (detachUser ix c).2) :
    t = .unsubscribe .user c.userID := by
  unfold detachUser at ht
  split_ifs at ht
  · simpa using ht
  · simp at ht

/-- What `removeClient` does to a client that is there. -/
structure Removed (h h' : Maps) (tasks : List HubTask) (c : Client) (ids : List UUID) : Prop where
  clients : h'.clients = h.clients.erase c
  rooms : ∀ r c', c' ∈ h'.rooms.members r ↔ c' ∈ h.rooms.members r ∧ c' ≠ c
  users : ∀ u c', c' ∈ h'.users.members u ↔ c' ∈ h.users.members u ∧ c' ≠ c
  trim_rooms : h'.rooms.Trim
  trim_users : h'.users.Trim
  clientRooms : h'.clientRooms = h.clientRooms
  tasks : ∃ ts, (∀ t ∈ ts, ∃ k id, t = .unsubscribe k id) ∧
    tasks = ts ++ [.closeSend c, .disconnected c.userID ids]

theorem removeClient_of_not_mem {ids : List UUID} (hc : c ∉ h.clients) :
    h.removeClient ids c = (h, []) := by
  unfold removeClient
  rw [if_pos hc]

theorem removeClient_removed (hinv : h.Inv) (hc : c ∈ h.clients) {ids : List UUID}
    (hids : ids.toFinset = h.clientRooms c) :
    Removed h (h.removeClient ids c).1 (h.removeClient ids c).2 c ids := by
  unfold removeClient
  rw [if_neg (not_not.mpr hc)]
  refine ⟨rfl, ?_, ?_, trim_detachAll hinv.trim_rooms, Index.trim_detach hinv.trim_users, rfl,
    _, ?_, rfl⟩
  · intro r c'
    show c' ∈ (detachAll c ids h.rooms).1.members r ↔ _
    rw [mem_detachAll]
    -- `c` sits only in the rooms of its own set, and the loop visits all of these
    have hvisit : c' ∈ h.rooms.members r → c' = c → r ∈ ids := by
      rintro hc' rfl
      have hr := ((hinv.rooms r c').mp hc').2
      rw [← hids] at hr
      simpa using hr
    tauto
  · intro u c'
    show c' ∈ (h.users.detach c.userID c).1.members u ↔ _
    rw [Index.mem_detach]
    have hself : c' ∈ h.users.members u → c' = c → u = c.userID := by
      rintro hc' rfl
      exact ((hinv.users u c').mp hc').2.symm
    tauto
  · intro t ht
    rcases List.mem_append.mp ht with h₁ | h₁
    · obtain ⟨r, rfl⟩ := mem_detachAll_tasks h₁
      exact ⟨.room, r, rfl⟩
    · exact ⟨.user, c.userID, mem_detachUser_tasks h₁⟩

theorem Removed.inv {h' : Maps} {tasks : List HubTask} {ids : List UUID}
    (hrem : Removed h h' tasks c ids) (hinv : h.Inv) : h'.Inv where
  rooms := by
    intro r c'
    rw [hrem.rooms, hinv.rooms, hrem.clients, hrem.clientRooms, Finset.mem_erase]
    tauto
  users := by
    intro u c'
    rw [hrem.users, hinv.users, hrem.clients, Finset.mem_erase]
    tauto
  trim_rooms := hrem.trim_rooms
  trim_users := hrem.trim_users

end Maps

end ConvoyChat.Websocket
