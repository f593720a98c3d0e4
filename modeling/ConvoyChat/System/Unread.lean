import ConvoyChat.Handlers.ReadEndpoints
import ConvoyChat.Store.MessageWrites
import ConvoyChat.Store.ReadCursors
import ConvoyChat.System.Traffic

/-!
# What is unread

`unread_count` of `ListRoomsForUser` along every history of joins, departures, kicks,
invitations, reactivations of direct rooms, messages, deletions and `AdvanceLastRead`
calls. A step is the commit of one transaction, which is when its rows become visible;
its timestamps are `NOW()`, the time when the transaction began, so they may be any time
up to the present one.

`since` records, for a room and a user, which messages became visible since the start of
the user's membership or the last `AdvanceLastRead` in it.

* `unread_count_iff`: along every run in which a message is stamped later than the
  cursors of the other members, and no message of others is later than the cursor that
  an `AdvanceLastRead` or the start of a membership sets, `unread_count` is the number of
  undeleted messages of others since; and a step that breaks the condition breaks this.
* `rejoined_counts_absence`: a member who comes back is shown the messages of the time
  in between.
-/

namespace ConvoyChat.System

open ConvoyChat.Lib ConvoyChat.Store ConvoyChat.Handlers

structure Readers where
  snap : Snapshot
  clock : Time
  since : UUID → UUID → List UUID

inductive ReadersAction
  /-- time passes -/
  | tick (now : Time)
  /-- a store call of a room handler commits -/
  | room (o : RoomOp) (st : Stamp)
  /-- `AdvanceLastRead` commits -/
  | advanceLastRead (roomID userID : UUID) (now : Time)
  /-- `InsertMessage` commits -/
  | insertMessage (roomID userID : UUID) (content : String) (messageType : MessageType) (st : Stamp)
  /-- `SoftDeleteMessage` commits -/
  | softDeleteMessage (id : UUID) (now : Time)

/-- The tables of the room handlers. -/
def tablesOf (snap : Snapshot) : Database :=
  ⟨snap.accounts.map fun a => ⟨a.id, a.username⟩, snap.rooms, snap.members⟩

namespace Readers

/-- Nothing but the accounts of `snap` is there. -/
def start (snap : Snapshot) : Readers where
  snap := { snap with
    rooms := []
    members := []
    history := ⟨[], snap.history.users, [], [], List.nodup_nil,
      fun _ hm => absurd hm List.not_mem_nil⟩ }
  clock := 0
  since _ _ := []

/-- The tables after a store call. -/
def afterRoom (s : Readers) (o : RoomOp) (st : Stamp) : Database :=
  (o.serve (fun _ => st) ⟨tablesOf s.snap, 0, []⟩).2.db

/-- The store call starts a membership of `u` in `r`. -/
def Starts (s : Readers) (o : RoomOp) (st : Stamp) (r u : UUID) : Prop :=
  ¬ Active (tablesOf s.snap) r u ∧ Active (s.afterRoom o st) r u

instance (s : Readers) (o : RoomOp) (st : Stamp) (r u : UUID) : Decidable (s.Starts o st r u) :=
  inferInstanceAs (Decidable (_ ∧ _))

/-- The messages change, and the users do not. -/
def withHistory (s : Readers) (t : MessageTables) (since : UUID → UUID → List UUID) :
    Option Readers :=
  if h : t.users = s.snap.history.users then
    some { s with
      snap := { s.snap with history := t, history_users := h.trans s.snap.history_users }
      since }
  else none

def step (s : Readers) : ReadersAction → Option Readers
  | .tick now => if s.clock ≤ now then some { s with clock := now } else none
  | .room o st =>
    if st.now ≤ s.clock then
      some { s with
        snap := { s.snap with
          rooms := (s.afterRoom o st).rooms, members := (s.afterRoom o st).members }
        since := fun r u => if s.Starts o st r u then [] else s.since r u }
    else none
  | .advanceLastRead roomID userID now =>
    match Store.advanceLastRead now roomID userID (tablesOf s.snap) with
    | (.ok (), db) =>
      if now ≤ s.clock then
        some { s with
          snap := { s.snap with members := db.members }
          since := fun r u => if r = roomID ∧ u = userID then [] else s.since r u }
      else none
    | (.error _, _) => none
  | .insertMessage roomID userID content messageType st =>
    match Store.insertMessage st.now (st.uuid 0) roomID userID content messageType
      s.snap.history with
    | .ok t =>
      if st.now ≤ s.clock ∧ s.snap.rooms.any (·.id = roomID) then
        s.withHistory t fun r u => if r = roomID then s.since r u ++ [st.uuid 0] else s.since r u
      else none
    | .error _ => none
  | .softDeleteMessage id now =>
    match Store.softDeleteMessage now id s.snap.history with
    | .ok (_, t) => if now ≤ s.clock then s.withHistory t s.since else none
    | .error _ => none

end Readers

/-- `msg` is an undeleted message of somebody else in the room. -/
def isOthers (r u : UUID) (msg : Message) : Bool :=
  msg.roomID = r && msg.deletedAt.isNone && msg.userID ≠ u

/-- The number of undeleted messages of others that became visible since the membership
    of `u` in `r` started, or since the last `AdvanceLastRead` in it. -/
def Readers.unreadSince (s : Readers) (r u : UUID) : ℕ :=
  s.snap.history.messages.countP fun msg => isOthers r u msg && (s.since r u).contains msg.id

/-- Every `unread_count` is that number. -/
def Readers.Exact (s : Readers) : Prop :=
  ∀ u, ∀ row ∈ s.snap.listRoomsForUser u, row.2 = s.unreadSince row.1.id u

/-- No undeleted message of others in the room is later than `t`. -/
def Readers.NothingLater (s : Readers) (r u : UUID) (t : Time) : Prop :=
  ∀ msg ∈ s.snap.history.messages, isOthers r u msg = true → msg.createdAt ≤ t

/-- The times of the transactions agree with the order of their commits, as far as
    cursors and messages go, and nobody starts a membership with a cursor from an earlier
    one that messages of others have passed. -/
def Timely (s : Readers) : ReadersAction → Prop
  | .room o st => ∀ r u, s.Starts o st r u →
    s.NothingLater r u (startCursor st.now (tablesOf s.snap) r u)
  | .advanceLastRead r u now => s.NothingLater r u now
  | .insertMessage r u _ _ st =>
    ∀ m ∈ s.snap.members, m.isActiveIn r = true → m.userID ≠ u → m.cursor < st.now
  | _ => True

/-! ## The listing, row by row -/

section

variable {s s' : Readers} {a : ReadersAction}

theorem listing_row {snap : Snapshot} {u : UUID} {row : Room × ℕ}
    (h : row ∈ snap.listRoomsForUser u) :
    ∃ m ∈ snap.members, m.leftAt = none ∧ m.userID = u ∧ row.1.id = m.roomID ∧
      row.2 = snap.unreadCount m := by
  obtain ⟨m, hm, hrow⟩ := List.mem_filterMap.mp h
  rw [List.mem_insertionSort, List.mem_filter] at hm
  simp only [Bool.and_eq_true, decide_eq_true_eq, Option.isNone_iff_eq_none] at hm
  obtain ⟨room, hroom, rfl⟩ := Option.map_eq_some_iff.mp hrow
  exact ⟨m, hm.1, hm.2.2, hm.2.1, by simpa using List.find?_some hroom, rfl⟩

theorem row_listed {snap : Snapshot} (href : (tablesOf snap).Referenced) {m : RoomMember}
    (hm : m ∈ snap.members) (hleft : m.leftAt = none) :
    ∃ row ∈ snap.listRoomsForUser m.userID, row.1.id = m.roomID ∧ row.2 = snap.unreadCount m := by
  obtain ⟨room, hroom, hid⟩ := href m hm
  have hfind : ∃ room, snap.getRoomByID m.roomID = some room := by
    rw [← Option.isSome_iff_exists, Snapshot.getRoomByID, List.find?_isSome]
    exact ⟨room, hroom, by simpa using hid⟩
  obtain ⟨found, hfound⟩ := hfind
  refine ⟨(found, snap.unreadCount m), ?_, by simpa using List.find?_some hfound, rfl⟩
  refine List.mem_filterMap.mpr ⟨m, ?_, by rw [hfound]; rfl⟩
  rw [List.mem_insertionSort, List.mem_filter]
  exact ⟨hm, by simp [hleft]⟩

theorem exact_iff (href : (tablesOf s.snap).Referenced) :
    s.Exact ↔ ∀ m ∈ s.snap.members, m.leftAt = none →
      s.snap.unreadCount m = s.unreadSince m.roomID m.userID := by
  constructor
  · intro h m hm hleft
    obtain ⟨row, hrow, hid, hcount⟩ := row_listed href hm hleft
    rw [← hcount, ← hid]
    exact h m.userID row hrow
  · intro h u row hrow
    obtain ⟨m, hm, hleft, rfl, hid, hcount⟩ := listing_row hrow
    rw [hcount, hid]
    exact h m hm hleft

theorem unreadCount_eq (snap : Snapshot) (m : RoomMember) :
    snap.unreadCount m = snap.history.messages.countP fun msg =>
      isOthers m.roomID m.userID msg && decide (m.cursor < msg.createdAt) := rfl

/-- Nothing is counted exactly when nothing is later than the cursor. -/
theorem unreadCount_eq_zero {m : RoomMember} :
    s.snap.unreadCount m = 0 ↔ s.NothingLater m.roomID m.userID m.cursor := by
  rw [unreadCount_eq, List.countP_eq_zero]
  constructor
  · intro h msg hmsg hothers
    have hno := h msg hmsg
    rw [hothers, Bool.true_and, decide_eq_true_eq] at hno
    exact Nat.le_of_not_lt hno
  · intro h msg hmsg hcounted
    rw [Bool.and_eq_true, decide_eq_true_eq] at hcounted
    exact absurd hcounted.2 (Nat.not_lt.mpr (h msg hmsg hcounted.1))

theorem unreadSince_of_nil {r u : UUID} (h : s.since r u = []) : s.unreadSince r u = 0 := by
  rw [Readers.unreadSince, List.countP_eq_zero]
  intro msg _ hcounted
  rw [h, Bool.and_eq_true] at hcounted
  exact absurd hcounted.2 (by simp)

/-! ## The invariant -/

/-- The messages of others later than the cursor of an active row are those since. -/
def Readers.InStep (s : Readers) : Prop :=
  ∀ m ∈ s.snap.members, m.leftAt = none → ∀ msg ∈ s.snap.history.messages,
    isOthers m.roomID m.userID msg = true →
      (m.cursor < msg.createdAt ↔ msg.id ∈ s.since m.roomID m.userID)

structure ReadInv (s : Readers) : Prop where
  keyed : (tablesOf s.snap).Keyed
  referenced : (tablesOf s.snap).Referenced
  inStep : s.InStep

theorem Readers.InStep.rows (h : s.InStep) {m : RoomMember} (hm : m ∈ s.snap.members)
    (hleft : m.leftAt = none) : s.snap.unreadCount m = s.unreadSince m.roomID m.userID := by
  rw [unreadCount_eq, Readers.unreadSince]
  refine List.countP_congr fun msg hmsg => ?_
  simp only [Bool.and_eq_true, decide_eq_true_eq, List.contains_iff_mem]
  exact and_congr_right fun hothers => h m hm hleft msg hmsg hothers

theorem ReadInv.start (snap : Snapshot) : ReadInv (.start snap) where
  keyed := ⟨List.nodup_nil, List.nodup_nil, List.nodup_nil⟩
  referenced _ hm := absurd hm List.not_mem_nil
  inStep _ hm := absurd hm List.not_mem_nil

/-! ## What a step does -/

theorem withHistory_some {t : MessageTables} {since : UUID → UUID → List UUID}
    (h : s.withHistory t since = some s') :
    s'.snap.rooms = s.snap.rooms ∧ s'.snap.members = s.snap.members ∧ s'.snap.history = t ∧
      s'.since = since := by
  unfold Readers.withHistory at h
  split_ifs at h
  cases h
  exact ⟨rfl, rfl, rfl, rfl⟩

theorem room_some {o : RoomOp} {st : Stamp} (hs : s.step (.room o st) = some s') :
    s' = { s with
      snap := { s.snap with
        rooms := (s.afterRoom o st).rooms, members := (s.afterRoom o st).members }
      since := fun r u => if s.Starts o st r u then [] else s.since r u } := by
  simp only [Readers.step] at hs
  split_ifs at hs
  cases hs
  rfl

theorem advanceLastRead_some {roomID userID : UUID} {now : Time}
    (hs : s.step (.advanceLastRead roomID userID now) = some s') :
    (∃ m ∈ s.snap.members, m.isActiveRow roomID userID = true) ∧
    s' = { s with
      snap := { s.snap with
        members := updateWhere (·.isActiveRow roomID userID) ({ · with lastReadAt := some now })
          s.snap.members }
      since := fun r u => if r = roomID ∧ u = userID then [] else s.since r u } := by
  simp only [Readers.step, Store.advanceLastRead, updateActive] at hs
  by_cases hany : (tablesOf s.snap).members.any (·.isActiveRow roomID userID) = true
  · rw [if_pos hany] at hs
    dsimp only at hs
    split_ifs at hs
    cases hs
    exact ⟨List.any_eq_true.mp hany, rfl⟩
  · rw [if_neg hany] at hs
    cases hs

theorem insertMessage_some {roomID userID : UUID} {content : String} {messageType : MessageType}
    {st : Stamp} (hs : s.step (.insertMessage roomID userID content messageType st) = some s') :
    (∀ msg ∈ s.snap.history.messages, msg.id ≠ st.uuid 0) ∧ s'.snap.rooms = s.snap.rooms ∧
    s'.snap.members = s.snap.members ∧
    s'.snap.history.messages = s.snap.history.messages ++
      [⟨st.uuid 0, roomID, userID, content, messageType, none, none, st.now, st.now⟩] ∧
    s'.since = fun r u => if r = roomID then s.since r u ++ [st.uuid 0] else s.since r u := by
  simp only [Readers.step] at hs
  split at hs
  · rename_i t hinsert
    split_ifs at hs
    obtain ⟨hrooms, hmembers, hhistory, hsince⟩ := withHistory_some hs
    obtain ⟨hnew, hmessages, -, -⟩ := insertMessage_ok hinsert
    exact ⟨hnew, hrooms, hmembers, by rw [hhistory, hmessages], hsince⟩
  · cases hs

theorem softDeleteMessage_some {id : UUID} {now : Time}
    (hs : s.step (.softDeleteMessage id now) = some s') :
    s'.snap.rooms = s.snap.rooms ∧ s'.snap.members = s.snap.members ∧
    s'.snap.history.messages = updateWhere (isLive id)
      (fun m => { m with deletedAt := some now, updatedAt := now }) s.snap.history.messages ∧
    s'.since = s.since := by
  simp only [Readers.step] at hs
  split at hs
  · rename_i deletedAt t hdelete
    split_ifs at hs
    obtain ⟨hrooms, hmembers, hhistory, hsince⟩ := withHistory_some hs
    unfold Store.softDeleteMessage at hdelete
    split_ifs at hdelete
    cases hdelete
    exact ⟨hrooms, hmembers, by rw [hhistory]; rfl, hsince⟩
  · cases hs

/-! ## The tables -/

theorem tables_of_same (hrooms : s'.snap.rooms = s.snap.rooms)
    (hmembers : s'.snap.members = s.snap.members)
    (hk : (tablesOf s.snap).Keyed) (href : (tablesOf s.snap).Referenced) :
    (tablesOf s'.snap).Keyed ∧ (tablesOf s'.snap).Referenced := by
  have hr : (tablesOf s'.snap).rooms = (tablesOf s.snap).rooms := hrooms
  have hm : (tablesOf s'.snap).members = (tablesOf s.snap).members := hmembers
  refine ⟨⟨?_, ?_, ?_⟩, ?_⟩
  · rw [hr]
    exact hk.rooms
  · rw [hm]
    exact hk.memberIDs
  · rw [hm]
    exact hk.members
  · unfold Database.Referenced
    rw [hr, hm]
    exact href

/-- Every step keeps the keys and the references. -/
theorem step_tables (hk : (tablesOf s.snap).Keyed) (href : (tablesOf s.snap).Referenced)
    (hs : s.step a = some s') : (tablesOf s'.snap).Keyed ∧ (tablesOf s'.snap).Referenced := by
  cases a with
  | tick now =>
    simp only [Readers.step] at hs
    split_ifs at hs
    cases hs
    exact ⟨hk, href⟩
  | room o st =>
    rw [room_some hs]
    have hk' : (o.serve (fun _ => st) ⟨tablesOf s.snap, 0, []⟩).2.db.Keyed := serve_keys o hk
    have href' : (o.serve (fun _ => st) ⟨tablesOf s.snap, 0, []⟩).2.db.Referenced :=
      serve_referenced o href
    exact ⟨⟨hk'.rooms, hk'.memberIDs, hk'.members⟩, href'⟩
  | advanceLastRead roomID userID now =>
    obtain ⟨-, rfl⟩ := advanceLastRead_some hs
    have htouch : Touches roomID (tablesOf s.snap) { tablesOf s.snap with
        members := updateWhere (·.isActiveRow roomID userID) ({ · with lastReadAt := some now })
          s.snap.members } := by
      refine touches_updateWhere _ (fun m _ hm => ?_) (fun _ => rfl) (fun _ => rfl) fun _ => rfl
      exact (RoomMember.isActiveRow_iff.mp hm).1
    have href' : Database.Referenced { tablesOf s.snap with
        members := updateWhere (·.isActiveRow roomID userID) ({ · with lastReadAt := some now })
          s.snap.members } :=
      referenced_updateWhere (fun _ => rfl) href
    have hk' := htouch.keyed hk
    exact ⟨⟨hk'.rooms, hk'.memberIDs, hk'.members⟩, href'⟩
  | insertMessage roomID userID content messageType st =>
    obtain ⟨-, hrooms, hmembers, -, -⟩ := insertMessage_some hs
    exact tables_of_same hrooms hmembers hk href
  | softDeleteMessage id now =>
    obtain ⟨hrooms, hmembers, -, -⟩ := softDeleteMessage_some hs
    exact tables_of_same hrooms hmembers hk href

/-! ## Timely steps -/

theorem afterRoom_carries (s : Readers) (o : RoomOp) (st : Stamp) :
    Carries st.now (tablesOf s.snap) (s.afterRoom o st) :=
  serve_carries (fun _ => st) o ⟨tablesOf s.snap, 0, []⟩

/-- An active row after a store call: its membership goes on, or it starts. -/
theorem afterRoom_row (hk : (tablesOf s.snap).Keyed) {o : RoomOp} {st : Stamp} {m' : RoomMember}
    (hm' : m' ∈ (s.afterRoom o st).members) (hleft : m'.leftAt = none) :
    (¬ s.Starts o st m'.roomID m'.userID ∧ ∃ m ∈ s.snap.members, m.roomID = m'.roomID ∧
      m.userID = m'.userID ∧ m.leftAt = none ∧ m'.cursor = m.cursor) ∨
    s.Starts o st m'.roomID m'.userID ∧
      m'.cursor = startCursor st.now (tablesOf s.snap) m'.roomID m'.userID := by
  rcases cursor_of_start hk (afterRoom_carries s o st) hm' hleft with
    ⟨m, hm, hactive, hcursor⟩ | ⟨hnone, hcursor⟩
  · refine .inl ⟨fun hstart => hstart.1 ⟨m, hm, hactive⟩, m, hm, ?_⟩
    obtain ⟨hroom, huser, hmleft⟩ := RoomMember.isActiveRow_iff.mp hactive
    exact ⟨hroom, huser, hmleft, hcursor⟩
  · refine .inr ⟨⟨?_, m', hm', RoomMember.isActiveRow_iff.mpr ⟨rfl, rfl, hleft⟩⟩, hcursor⟩
    rintro ⟨m, hm, hactive⟩
    rw [hnone m hm] at hactive
    cases hactive

/-- A cursor that nothing passes, and nothing since. -/
theorem not_later_iff {r u : UUID} {t : Time} (h : s.NothingLater r u t) {msg : Message}
    (hmsg : msg ∈ s.snap.history.messages) (hothers : isOthers r u msg = true) :
    t < msg.createdAt ↔ msg.id ∈ ([] : List UUID) := by
  have hle := h msg hmsg hothers
  constructor
  · intro hlt
    exact absurd hlt (Nat.not_lt.mpr hle)
  · intro hmem
    exact absurd hmem List.not_mem_nil

theorem ReadInv.room (h : ReadInv s) {o : RoomOp} {st : Stamp} (hok : Timely s (.room o st))
    (hs : s.step (.room o st) = some s') : s'.InStep := by
  rw [room_some hs]
  intro m' hm' hleft msg hmsg hothers
  dsimp only at hm' hmsg ⊢
  rcases afterRoom_row h.keyed hm' hleft with
    ⟨hgoes, m, hm, hroom, huser, hmleft, hcursor⟩ | ⟨hstart, hcursor⟩
  · rw [if_neg hgoes, hcursor, ← hroom, ← huser]
    rw [← hroom, ← huser] at hothers
    exact h.inStep m hm hmleft msg hmsg hothers
  · rw [if_pos hstart, hcursor]
    exact not_later_iff (hok _ _ hstart) hmsg hothers

theorem ReadInv.advanceLastRead (h : ReadInv s) {roomID userID : UUID} {now : Time}
    (hok : Timely s (.advanceLastRead roomID userID now))
    (hs : s.step (.advanceLastRead roomID userID now) = some s') : s'.InStep := by
  obtain ⟨-, rfl⟩ := advanceLastRead_some hs
  intro m' hm' hleft msg hmsg hothers
  dsimp only at hm' hmsg ⊢
  obtain ⟨m, hm, rfl⟩ := mem_updateWhere.mp hm'
  by_cases hrow : m.isActiveRow roomID userID = true
  · simp only [if_pos hrow] at hleft hothers ⊢
    obtain ⟨rfl, rfl, -⟩ := RoomMember.isActiveRow_iff.mp hrow
    rw [if_pos ⟨rfl, rfl⟩]
    exact not_later_iff hok hmsg hothers
  · simp only [if_neg hrow] at hleft hothers ⊢
    have hother : ¬ (m.roomID = roomID ∧ m.userID = userID) := fun hsame =>
      hrow (RoomMember.isActiveRow_iff.mpr ⟨hsame.1, hsame.2, hleft⟩)
    rw [if_neg hother]
    exact h.inStep m hm hleft msg hmsg hothers

theorem ReadInv.insertMessage (h : ReadInv s) {roomID userID : UUID} {content : String}
    {messageType : MessageType} {st : Stamp}
    (hok : Timely s (.insertMessage roomID userID content messageType st))
    (hs : s.step (.insertMessage roomID userID content messageType st) = some s') : s'.InStep := by
  obtain ⟨hnew, -, hmembers, hmessages, hsince⟩ := insertMessage_some hs
  intro m hm hleft msg hmsg hothers
  rw [hmembers] at hm
  rw [hmessages] at hmsg
  rw [hsince]
  rcases List.mem_append.mp hmsg with hold | hrow
  · -- an earlier message
    rw [h.inStep m hm hleft msg hold hothers]
    dsimp only
    split_ifs
    · simp [hnew msg hold]
    · rfl
  · -- the message of this step
    rw [List.mem_singleton.mp hrow] at hothers ⊢
    simp only [isOthers, Bool.and_eq_true, decide_eq_true_eq] at hothers
    obtain ⟨⟨hroom, -⟩, huser⟩ := hothers
    have hlater := hok m hm (RoomMember.isActiveIn_iff.mpr ⟨hroom.symm, hleft⟩) (Ne.symm huser)
    dsimp only
    rw [if_pos hroom.symm]
    exact ⟨fun _ => List.mem_append_right _ (List.mem_singleton.mpr rfl), fun _ => hlater⟩

/-- A deleted message is not counted, and it is nobody's unread message. -/
theorem ReadInv.softDeleteMessage (h : ReadInv s) {id : UUID} {now : Time}
    (hs : s.step (.softDeleteMessage id now) = some s') : s'.InStep := by
  obtain ⟨-, hmembers, hmessages, hsince⟩ := softDeleteMessage_some hs
  intro m hm hleft msg hmsg hothers
  rw [hmembers] at hm
  rw [hmessages] at hmsg
  rw [hsince]
  obtain ⟨msg₀, hmsg₀, rfl⟩ := mem_updateWhere.mp hmsg
  by_cases hlive : isLive id msg₀ = true
  · rw [if_pos hlive] at hothers
    simp [isOthers] at hothers
  · rw [if_neg hlive] at hothers ⊢
    exact h.inStep m hm hleft msg₀ hmsg₀ hothers

theorem ReadInv.step (h : ReadInv s) (hok : Timely s a) (hs : s.step a = some s') : ReadInv s' := by
  obtain ⟨hk, href⟩ := step_tables h.keyed h.referenced hs
  refine ⟨hk, href, ?_⟩
  cases a with
  | tick now =>
    simp only [Readers.step] at hs
    split_ifs at hs
    cases hs
    exact h.inStep
  | room o st => exact h.room hok hs
  | advanceLastRead roomID userID now => exact h.advanceLastRead hok hs
  | insertMessage roomID userID content messageType st => exact h.insertMessage hok hs
  | softDeleteMessage id now => exact h.softDeleteMessage hs

/-! ## Steps that are not timely -/

theorem timely_room (h : ReadInv s) {o : RoomOp} {st : Stamp} (hs : s.step (.room o st) = some s')
    (hexact : s'.Exact) : Timely s (.room o st) := by
  obtain ⟨-, href⟩ := step_tables h.keyed h.referenced hs
  rw [exact_iff href] at hexact
  rw [room_some hs] at hexact
  intro r u hstart
  obtain ⟨m', hm', hactive⟩ := hstart.2
  obtain ⟨rfl, rfl, hleft⟩ := RoomMember.isActiveRow_iff.mp hactive
  rcases afterRoom_row h.keyed hm' hleft with ⟨hgoes, -⟩ | ⟨-, hcursor⟩
  · exact absurd hstart hgoes
  · have hcount := (hexact m' hm' hleft).trans (unreadSince_of_nil (if_pos hstart))
    rw [← hcursor]
    exact unreadCount_eq_zero.mp hcount

theorem timely_advanceLastRead (h : ReadInv s) {roomID userID : UUID} {now : Time}
    (hs : s.step (.advanceLastRead roomID userID now) = some s') (hexact : s'.Exact) :
    Timely s (.advanceLastRead roomID userID now) := by
  obtain ⟨-, href⟩ := step_tables h.keyed h.referenced hs
  rw [exact_iff href] at hexact
  obtain ⟨⟨m, hm, hactive⟩, rfl⟩ := advanceLastRead_some hs
  obtain ⟨rfl, rfl, hleft⟩ := RoomMember.isActiveRow_iff.mp hactive
  have hm' :=
    mem_updateWhere_of (f := fun x : RoomMember => { x with lastReadAt := some now }) hm hactive
  have hcount := (hexact _ hm' hleft).trans (unreadSince_of_nil (if_pos ⟨rfl, rfl⟩))
  exact unreadCount_eq_zero.mp hcount

/-- The number since grows by the message of the step. -/
theorem unreadSince_insert {roomID userID : UUID} {content : String} {messageType : MessageType}
    {st : Stamp} (hs : s.step (.insertMessage roomID userID content messageType st) = some s')
    {u : UUID} (huser : u ≠ userID) : s'.unreadSince roomID u = s.unreadSince roomID u + 1 := by
  obtain ⟨hnew, -, -, hmessages, hsince⟩ := insertMessage_some hs
  rw [Readers.unreadSince, Readers.unreadSince, hmessages, hsince, List.countP_append]
  have hold : s.snap.history.messages.countP (fun msg => isOthers roomID u msg &&
      (if roomID = roomID then s.since roomID u ++ [st.uuid 0] else s.since roomID u).contains
        msg.id) =
      s.snap.history.messages.countP fun msg =>
        isOthers roomID u msg && (s.since roomID u).contains msg.id := by
    refine List.countP_congr fun msg hmsg => ?_
    simp [hnew msg hmsg]
  rw [hold]
  congr 1
  simp [isOthers, Ne.symm huser]

theorem timely_insertMessage (h : ReadInv s) {roomID userID : UUID} {content : String}
    {messageType : MessageType} {st : Stamp}
    (hs : s.step (.insertMessage roomID userID content messageType st) = some s')
      (hexact : s'.Exact) :
    Timely s (.insertMessage roomID userID content messageType st) := by
  obtain ⟨-, href⟩ := step_tables h.keyed h.referenced hs
  rw [exact_iff href] at hexact
  intro m hm hactive huser
  obtain ⟨rfl, hleft⟩ := RoomMember.isActiveIn_iff.mp hactive
  obtain ⟨-, -, hmembers, hmessages, -⟩ := insertMessage_some hs
  have hcount := hexact m (hmembers ▸ hm) hleft
  have hbefore := h.inStep.rows hm hleft
  rw [unreadSince_insert hs huser, ← hbefore, unreadCount_eq, unreadCount_eq, hmessages,
    List.countP_append] at hcount
  by_contra hnot
  have hzero : List.countP (fun msg : Message => isOthers m.roomID m.userID msg &&
      decide (m.cursor < msg.createdAt))
      [⟨st.uuid 0, m.roomID, userID, content, messageType, none, none, st.now, st.now⟩] = 0 := by
    simp [hnot]
  omega

theorem timely_of_exact (h : ReadInv s) (hs : s.step a = some s') (hexact : s'.Exact) :
    Timely s a := by
  cases a with
  | tick now => trivial
  | room o st => exact timely_room h hs hexact
  | advanceLastRead roomID userID now => exact timely_advanceLastRead h hs hexact
  | insertMessage roomID userID content messageType st => exact timely_insertMessage h hs hexact
  | softDeleteMessage id now => trivial

/-- Along every timely run, every `unread_count` is the number of undeleted messages of
    others since; and a step that is not timely breaks this. -/
theorem unread_count_iff {snap : Snapshot} (hrun : Reach Readers.step Timely (.start snap) s) :
    s.Exact ∧ ∀ a s', s.step a = some s' → (s'.Exact ↔ Timely s a) := by
  have hinv : ReadInv s :=
    hrun.invariant ReadInv (fun _ _ _ h hok hs => h.step hok hs) (.start snap)
  have hexact : ∀ {s : Readers}, ReadInv s → s.Exact := fun h =>
    (exact_iff h.referenced).mpr fun _ hm hleft => h.inStep.rows hm hleft
  refine ⟨hexact hinv, fun a s' hs => ⟨timely_of_exact hinv hs, fun hok => ?_⟩⟩
  exact hexact (hinv.step hok hs)

end

/-! ## A member who comes back -/

/-- Alice and Bob have accounts. -/
def twoReaders : Snapshot := directory [] []

/-- Alice creates the channel 5, Bob joins it and opens it. -/
def bobReads : List ReadersAction :=
  [.tick 1, .room (.createChannel 1 "team" none true) ⟨1, fun k => 5 + k⟩, .tick 2,
    .room (.addMember 5 2 .member) ⟨2, fun k => 15 + k⟩, .tick 3, .advanceLastRead 5 2 3]

def aliceWrites : List ReadersAction :=
  [.tick 5, .insertMessage 5 1 "hello" .text ⟨5, fun k => 35 + k⟩]

/-- Bob leaves, Alice writes, and Bob joins again. -/
def bobReturns : List ReadersAction :=
  [.tick 4, .room (.removeMember 5 2) ⟨4, fun k => 25 + k⟩] ++ aliceWrites ++
    [.tick 6, .room (.addMember 5 2 .member) ⟨6, fun k => 45 + k⟩]

def readersAfter (as : List ReadersAction) : Readers :=
  (exec Readers.step (.start twoReaders) as).getD (.start twoReaders)

/-- Memberships and cursors start before there are messages, and messages are later than
    all cursors. -/
def timelyCheck (s : Readers) : ReadersAction → Bool
  | .room _ _ => s.snap.history.messages.isEmpty
  | .advanceLastRead _ _ _ => s.snap.history.messages.isEmpty
  | .insertMessage _ _ _ _ st => s.snap.members.all fun m => decide (m.cursor < st.now)
  | _ => true

theorem timely_of_check (s : Readers) (a : ReadersAction) (h : timelyCheck s a = true) :
    Timely s a := by
  have hempty : s.snap.history.messages.isEmpty = true → ∀ r u t, s.NothingLater r u t := by
    intro h r u t msg hmsg
    rw [List.isEmpty_iff.mp h] at hmsg
    cases hmsg
  cases a with
  | tick now => trivial
  | room o st => exact fun r u _ => hempty h _ _ _
  | advanceLastRead r u now => exact hempty h _ _ _
  | insertMessage r u content messageType st =>
    exact fun m hm _ _ => of_decide_eq_true (List.all_eq_true.mp h m hm)
  | softDeleteMessage id now => trivial

/-- Bob is shown the message that Alice writes after he has opened the channel. -/
theorem unread_count_shown :
    (readersAfter (bobReads ++ aliceWrites)).Exact ∧
      ((readersAfter (bobReads ++ aliceWrites)).snap.listRoomsForUser 2).map (·.2) = [1] := by
  have hmeets : Meets Readers.step Timely (.start twoReaders) (bobReads ++ aliceWrites) :=
    meets_of_checks timely_of_check (by decide)
  exact ⟨(unread_count_iff (Reach.of_exec hmeets rfl)).1, by decide⟩

/-- Bob is shown the message that was written while he was away, although he joined
    later. -/
theorem rejoined_counts_absence :
    ¬ ∀ (snap : Snapshot) (s : Readers), Reach Readers.step Unguarded (.start snap) s →
    s.Exact := by
  intro h
  have hmeets : Meets Readers.step Unguarded (.start twoReaders) (bobReads ++ bobReturns) :=
    meets_unguarded _ _ _
  have hexact := h twoReaders (readersAfter (bobReads ++ bobReturns)) (Reach.of_exec hmeets rfl) 2
  exact absurd hexact (by decide)

end ConvoyChat.System
