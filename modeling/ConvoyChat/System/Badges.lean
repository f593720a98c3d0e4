import ConvoyChat.System.RoomSync
import ConvoyChat.System.Unread
import Mathlib.Tactic.FinCases

/-!
# The unread badges of a client

The `["rooms"]` cache of a client that loads `GET /rooms`, once or again, while messages are
sent, edited and deleted. The server counts the rows again for every `GET /rooms`
(`ListRoomsForUser`, `internal/store/rooms.go` lines 416–454); the client adds one for
each `message.new` of somebody else in a room that is not on its screen (`routeEvent`,
`frontend/hooks/useWebSocket.tsx` lines 228–241). `message.deleted` and `message.edited`
patch the messages only, and `SendMessage` over REST publishes nothing.

An event is published some time after the commit, and delivered in the order of the
publications; none is lost. The answer to `GET /rooms` is computed in one snapshot and
arrives later; at the first request anything may be committed and not delivered yet.

* `badge_iff`: the cache agrees with a fresh `GET /rooms`, when all events are delivered, in
  every run in which a message of others is announced if and only if it is later than the
  cursor, no message is deleted that is counted, and no announcement is overtaken by an answer
  that counts its message, or overtakes one that does not; and a step that breaks the
  condition breaks this.
* `deleted_stays_on_badge`, `announced_after_answer`: what happens else.
-/

namespace ConvoyChat.System

open ConvoyChat.Lib ConvoyChat.Store ConvoyChat.Handlers

structure Badges where
  server : Readers
  /-- committed, and not published yet -/
  pending : List LiveEvent
  /-- on its way to the client -/
  queue : List LiveEvent
  /-- the answer to `GET /rooms`, on its way to the client -/
  answer : Option (List (Room × ℕ))
  /-- `["rooms"]` -/
  rooms : Option (List (Room × ℕ))
  /-- `activeRoomRef` -/
  activeRoom : Option UUID

inductive BadgeAction
  | tick (now : Time)
  /-- a message is sent, over the WebSocket, or over REST and then without an event -/
  | send (live : Bool) (roomID userID : UUID) (content : String) (messageType : MessageType)
      (clientID : String) (st : Stamp)
  | softDelete (id : UUID) (now : Time)
  | edit (id : UUID) (content : String) (now : Time)
  | advanceLastRead (roomID userID : UUID) (now : Time)
  /-- the `i`-th of the pending events is published -/
  | publish (i : ℕ)
  | deliver
  /-- `ListRoomsForUser` answers a `GET /rooms` of the client -/
  | answer
  /-- the answer arrives -/
  | load
  /-- it does not -/
  | lose
  /-- `ChatWindow` is mounted -/
  | openRoom (roomID : UUID)
  /-- `ChatWindow` is unmounted -/
  | closeRoom (roomID : UUID)

/-- The update of `["rooms"]` in the `message.new` branch of `routeEvent`. -/
def bumpUnread (roomID : UUID) (rows : List (Room × ℕ)) : List (Room × ℕ) :=
  rows.map fun row => if row.1.id = roomID then (row.1, row.2 + 1) else row

/-- The optimistic update of `useMarkRoomRead` (`useRooms.ts` lines 51–59). -/
def clearUnread (roomID : UUID) (rows : List (Room × ℕ)) : List (Room × ℕ) :=
  rows.map fun row => if row.1.id = roomID then (row.1, 0) else row

/-- What `routeEvent` does with `["rooms"]`. -/
def routeRooms (currentUserID : UUID) (activeRoom : Option UUID)
    (rooms : Option (List (Room × ℕ))) :
    LiveEvent → Option (List (Room × ℕ))
  | .messageNew row user _ =>
    if activeRoom ≠ some row.roomID ∧ user.id ≠ currentUserID then rooms.map (bumpUnread row.roomID)
    else rooms
  | _ => rooms

namespace Badges

/-- The client has not loaded `GET /rooms`; some events may have yet to reach it. -/
def start (server : Readers) (pending queue : List LiveEvent) (activeRoom : Option UUID) : Badges :=
  ⟨server, pending, queue, none, none, activeRoom⟩

/-- A transaction commits, and an event is to be published. -/
def commit (s : Badges) (server : Readers) (events : List LiveEvent) : Badges :=
  { s with server, pending := s.pending ++ events }

def step (currentUserID : UUID) (s : Badges) : BadgeAction → Option Badges
  | .tick now => (s.server.step (.tick now)).map fun server => s.commit server []
  | .send live roomID userID content messageType clientID st =>
    match s.server.step (.insertMessage roomID userID content messageType st),
        s.server.snap.history.users.find? fun u => u.id = userID with
    | some server, some user =>
      let row : Message :=
        ⟨st.uuid 0, roomID, userID, content, messageType, none, none, st.now, st.now⟩
      some (s.commit server (if live then [.messageNew row user clientID] else []))
    | _, _ => none
  | .softDelete id now =>
    (s.server.step (.softDeleteMessage id now)).map fun server =>
      s.commit server [.messageDeleted id now]
  | .edit id content now =>
    match Store.editMessage now id content s.server.snap.history with
    | .ok (editedAt, t) =>
      (s.server.withHistory t s.server.since).map fun server =>
        s.commit server [.messageEdited id content editedAt]
    | .error _ => none
  | .advanceLastRead roomID userID now =>
    (s.server.step (.advanceLastRead roomID userID now)).map fun server => s.commit server []
  | .publish i =>
    match s.pending[i]? with
    | some event => some { s with pending := s.pending.eraseIdx i, queue := s.queue ++ [event] }
    | none => none
  | .deliver =>
    match s.queue with
    | event :: rest =>
      some { s with queue := rest, rooms := routeRooms currentUserID s.activeRoom s.rooms event }
    | [] => none
  | .answer =>
    match s.answer with
    | none => some { s with answer := some (s.server.snap.listRoomsForUser currentUserID) }
    | some _ => none
  | .load => s.answer.map fun rows => { s with answer := none, rooms := some rows }
  | .lose => s.answer.map fun _ => { s with answer := none }
  | .openRoom roomID =>
    some { s with activeRoom := some roomID, rooms := s.rooms.map (clearUnread roomID) }
  | .closeRoom roomID =>
    some { s with activeRoom := none, rooms := s.rooms.map (clearUnread roomID) }

end Badges

/-- The `unread_count` of room `r` in a list of rooms. -/
def badge (rows : List (Room × ℕ)) (r : UUID) : Option ℕ :=
  (rows.find? fun row => row.1.id = r).map (·.2)

/-- A `message.new` of somebody else in `r`. -/
def isNews (r u : UUID) : LiveEvent → Bool
  | .messageNew row user _ => row.roomID = r && user.id ≠ u
  | _ => false

namespace Badges

variable (s : Badges) (r u : UUID)

def cached : Option ℕ := s.rooms.bind fun rows => badge rows r

/-- What `GET /rooms` would show now. -/
def fresh : Option ℕ := badge (s.server.snap.listRoomsForUser u) r

/-- All published events are delivered, and nothing is to be published. -/
def Delivered : Prop := s.pending = [] ∧ s.queue = []

/-- The messages of others in `r` that the client has yet to hear of. -/
def onTheWay : ℕ := (s.pending ++ s.queue).countP (isNews r u)

/-- The client has a list, or is about to get one. -/
def Lists (rows : List (Room × ℕ)) : Prop := s.rooms = some rows ∨ s.answer = some rows

/-- The lists of the client and what is on the way to it make up the fresh count. -/
def Balanced : Prop :=
  ∀ rows, s.Lists rows → s.fresh r u = (badge rows r).map (· + s.onTheWay r u)

end Badges

/-- The client neither opens `r` nor does its user read it elsewhere. -/
def LeavesUnread (r u : UUID) : BadgeAction → Prop
  | .openRoom roomID => roomID ≠ r
  | .closeRoom roomID => roomID ≠ r
  | .advanceLastRead roomID userID _ => ¬ (roomID = r ∧ userID = u)
  | _ => True

/-- Once the client has a list or is about to get one, a message of somebody else in `r` is
    announced if and only if it is later than the cursor of `u`, and what is deleted is not
    counted; no such announcement is on the way when `GET /rooms` is answered, and none is
    delivered before the answer. -/
def KeepsBadge (r u : UUID) (s : Badges) : BadgeAction → Prop
  | .send live roomID userID _ _ _ st => (∃ rows, s.Lists rows) → roomID = r → userID ≠ u →
    ∀ m ∈ s.server.snap.members, m.isActiveRow r u = true → (live = true ↔ m.cursor < st.now)
  | .softDelete id _ => (∃ rows, s.Lists rows) →
    ∀ m ∈ s.server.snap.members, m.isActiveRow r u = true →
    ∀ msg ∈ s.server.snap.history.messages, msg.id = id → isOthers r u msg = true →
      ¬ m.cursor < msg.createdAt
  | .answer => ∀ event ∈ s.pending ++ s.queue, isNews r u event = false
  | .deliver => ∀ event ∈ s.queue.head?, isNews r u event = true → s.answer = none
  | _ => True

/-! ## The two counts -/

section

variable {s s' : Badges} {a : BadgeAction} {r u roomID : UUID} {m : RoomMember} {c : ℕ}
  {server : Readers} {events : List LiveEvent}

/-- `u` is a member of `r`, which is in the lists of the client and not on the screen. -/
structure BadgeInv (r u : UUID) (m : RoomMember) (s : Badges) : Prop where
  keyed : (tablesOf s.server.snap).Keyed
  referenced : (tablesOf s.server.snap).Referenced
  member : m ∈ s.server.snap.members
  active : m.isActiveRow r u = true
  closed : s.activeRoom ≠ some r
  known : ∀ rows, s.Lists rows → ∃ c, badge rows r = some c

theorem badge_map {rows : List (Room × ℕ)} {f : Room × ℕ → Room × ℕ}
    (hf : ∀ row, (f row).1.id = row.1.id) :
    badge (rows.map f) r = ((rows.find? fun row => row.1.id = r).map f).map (·.2) := by
  unfold badge
  rw [List.find?_map]
  congr 2
  refine congrArg (fun p => List.find? p rows) (funext fun row => ?_)
  show decide ((f row).1.id = r) = decide (row.1.id = r)
  rw [hf]

/-- A row of room `r` that is found. -/
theorem find_room {rows : List (Room × ℕ)} {row : Room × ℕ}
    (h : (rows.find? fun row => row.1.id = r) = some row) : row.1.id = r := by
  simpa using List.find?_some h

theorem badge_bumpUnread (rows : List (Room × ℕ)) (roomID r : UUID) :
    badge (bumpUnread roomID rows) r =
      (badge rows r).map fun n => if roomID = r then n + 1 else n := by
  rw [bumpUnread, badge_map fun row => by split_ifs <;> rfl, badge]
  cases hfind : rows.find? fun row => row.1.id = r with
  | none => rfl
  | some row =>
    have hid := find_room hfind
    by_cases hroom : roomID = r
    · simp only [Option.map_some, hid, hroom, if_true]
    · simp only [Option.map_some, hid, if_neg hroom, if_neg (Ne.symm hroom)]

theorem badge_clearUnread (rows : List (Room × ℕ)) (h : roomID ≠ r) :
    badge (clearUnread roomID rows) r = badge rows r := by
  rw [clearUnread, badge_map fun row => by split_ifs <;> rfl, badge]
  cases hfind : rows.find? fun row => row.1.id = r with
  | none => rfl
  | some row => simp only [Option.map_some, find_room hfind, if_neg (Ne.symm h)]

/-- What `GET /rooms` shows a member. -/
theorem badge_listing {snap : Snapshot} (hk : (tablesOf snap).Keyed)
    (href : (tablesOf snap).Referenced)
    (hm : m ∈ snap.members) (hactive : m.isActiveRow r u = true) :
    badge (snap.listRoomsForUser u) r = some (snap.unreadCount m) := by
  obtain ⟨hroom, huser, hleft⟩ := RoomMember.isActiveRow_iff.mp hactive
  obtain ⟨row, hrow, hid, -⟩ := row_listed href hm hleft
  rw [huser] at hrow
  unfold badge
  cases hfind : (snap.listRoomsForUser u).find? fun row => row.1.id = r with
  | none => exact absurd (decide_eq_true (hid.trans hroom)) (List.find?_eq_none.mp hfind row hrow)
  | some found =>
    obtain ⟨m', hm', hleft', huser', hid', hcount⟩ := listing_row (List.mem_of_find?_eq_some hfind)
    have hsame : m' = m := hk.member_eq hm' hm
      ((hid'.symm.trans (find_room hfind)).trans hroom.symm) (huser'.trans huser.symm)
    rw [Option.map_some, hcount, hsame]

theorem BadgeInv.fresh_eq (h : BadgeInv r u m s) :
    s.fresh r u = some (s.server.snap.unreadCount m) :=
  badge_listing h.keyed h.referenced h.member h.active

theorem BadgeInv.balanced_iff (h : BadgeInv r u m s) :
    s.Balanced r u ↔ ∀ rows c, s.Lists rows → badge rows r = some c →
      s.server.snap.unreadCount m = c + s.onTheWay r u := by
  refine forall_congr' fun rows => ?_
  rw [h.fresh_eq]
  constructor
  · intro hrows c hlists hc
    have hfresh := hrows hlists
    rw [hc, Option.map_some, Option.some.injEq] at hfresh
    exact hfresh
  · intro hrows hlists
    obtain ⟨c, hc⟩ := h.known rows hlists
    rw [hc, Option.map_some, Option.some.injEq]
    exact hrows c hlists hc

/-- After a commit. -/
theorem onTheWay_commit (s : Badges) (server : Readers) (events : List LiveEvent) (r u : UUID) :
    (s.commit server events).onTheWay r u = s.onTheWay r u + events.countP (isNews r u) := by
  show ((s.pending ++ events) ++ s.queue).countP (isNews r u) =
    (s.pending ++ s.queue).countP (isNews r u) + _
  rw [List.countP_append, List.countP_append, List.countP_append]
  omega

theorem BadgeInv.commit (h : BadgeInv r u m s) (hk : (tablesOf server.snap).Keyed)
    (href : (tablesOf server.snap).Referenced) (hm : m ∈ server.snap.members) :
    BadgeInv r u m (s.commit server events) :=
  ⟨hk, href, hm, h.active, h.closed, h.known⟩

theorem BadgeInv.balanced_commit (h : BadgeInv r u m s) (hb : s.Balanced r u)
    (h' : BadgeInv r u m (s.commit server events)) :
    (s.commit server events).Balanced r u ↔ ((∃ rows, s.Lists rows) →
      server.snap.unreadCount m = s.server.snap.unreadCount m + events.countP (isNews r u)) := by
  rw [h'.balanced_iff, onTheWay_commit]
  constructor
  · rintro hafter ⟨rows, hlists⟩
    obtain ⟨c, hc⟩ := h.known rows hlists
    have hbefore := h.balanced_iff.mp hb rows c hlists hc
    have hcount : server.snap.unreadCount m = _ := hafter rows c hlists hc
    omega
  · intro hcount rows c hlists hc
    have hbefore := h.balanced_iff.mp hb rows c hlists hc
    have hafter := hcount ⟨rows, hlists⟩
    show server.snap.unreadCount m = _
    omega

/-! ## Commits -/

theorem BadgeInv.server_step (h : BadgeInv r u m s) {act : ReadersAction}
    (hs : s.server.step act = some server) (hm : m ∈ server.snap.members) :
    BadgeInv r u m (s.commit server events) := by
  obtain ⟨hk, href⟩ := step_tables h.keyed h.referenced hs
  exact h.commit hk href hm

/-- Nothing that is counted changes. -/
theorem BadgeInv.balanced_same (h : BadgeInv r u m s) (hb : s.Balanced r u)
    (h' : BadgeInv r u m (s.commit server events))
    (hcount : server.snap.unreadCount m = s.server.snap.unreadCount m)
    (hevents : events.countP (isNews r u) = 0) : (s.commit server events).Balanced r u := by
  rw [h.balanced_commit hb h', hcount, hevents]
  exact fun _ => rfl

theorem badge_tick (h : BadgeInv r u m s) (hb : s.Balanced r u) {now : Time}
    (hs : s.step u (.tick now) = some s') : BadgeInv r u m s' ∧ s'.Balanced r u := by
  obtain ⟨server, hserver, rfl⟩ := Option.map_eq_some_iff.mp hs
  have hsnap : server.snap = s.server.snap := by
    simp only [Readers.step] at hserver
    split_ifs at hserver
    cases hserver
    rfl
  have h' : BadgeInv r u m (s.commit server []) := h.server_step hserver (hsnap ▸ h.member)
  exact ⟨h', h.balanced_same hb h' (by rw [hsnap]) rfl⟩

theorem badge_advanceLastRead (h : BadgeInv r u m s) (hb : s.Balanced r u)
    {userID : UUID} {now : Time}
    (hother : ¬ (roomID = r ∧ userID = u))
      (hs : s.step u (.advanceLastRead roomID userID now) = some s') :
    BadgeInv r u m s' ∧ s'.Balanced r u := by
  obtain ⟨server, hserver, rfl⟩ := Option.map_eq_some_iff.mp hs
  obtain ⟨-, hsnap⟩ := advanceLastRead_some hserver
  have hrow : m.isActiveRow roomID userID = false := by
    rw [← Bool.not_eq_true]
    intro hactive
    obtain ⟨hroom, huser, -⟩ := RoomMember.isActiveRow_iff.mp hactive
    obtain ⟨hroom', huser', -⟩ := RoomMember.isActiveRow_iff.mp h.active
    exact hother ⟨hroom.symm.trans hroom', huser.symm.trans huser'⟩
  have hmember : m ∈ server.snap.members := by
    rw [hsnap]
    exact mem_updateWhere_of_not h.member hrow
  have h' : BadgeInv r u m (s.commit server []) := h.server_step hserver hmember
  exact ⟨h', h.balanced_same hb h' (by rw [hsnap]; rfl) rfl⟩

/-- An edit keeps what is counted. -/
theorem badge_edit (h : BadgeInv r u m s) (hb : s.Balanced r u) {id : UUID} {content : String}
    {now : Time}
    (hs : s.step u (.edit id content now) = some s') : BadgeInv r u m s' ∧ s'.Balanced r u := by
  simp only [Badges.step] at hs
  split at hs
  · rename_i editedAt t hedit
    obtain ⟨server, hserver, rfl⟩ := Option.map_eq_some_iff.mp hs
    obtain ⟨hrooms, hmembers, hhistory, -⟩ := withHistory_some hserver
    obtain ⟨hk, href⟩ := tables_of_same hrooms hmembers h.keyed h.referenced
    have h' : BadgeInv r u m (s.commit server [.messageEdited id content editedAt]) :=
      h.commit hk href (hmembers ▸ h.member)
    refine ⟨h', h.balanced_same hb h' ?_ rfl⟩
    have hmessages : server.snap.history.messages = updateWhere (isLive id)
        (fun m => { m with content, editedAt := some now, updatedAt := now })
        s.server.snap.history.messages := by
      rw [hhistory]
      unfold Store.editMessage at hedit
      split_ifs at hedit
      cases hedit
      rfl
    rw [unreadCount_eq, unreadCount_eq, hmessages]
    refine countP_updateWhere_same (fun msg => ?_) _
    rfl
  · cases hs

/-- The message of a send is counted if it is later than the cursor. -/
theorem badge_send (h : BadgeInv r u m s) (hb : s.Balanced r u) {live : Bool} {userID : UUID}
    {content clientID : String} {messageType : MessageType} {st : Stamp}
    (hs : s.step u (.send live roomID userID content messageType clientID st) = some s') :
    BadgeInv r u m s' ∧ (s'.Balanced r u ↔ ((∃ rows, s.Lists rows) → roomID = r → userID ≠ u →
      (live = true ↔ m.cursor < st.now))) := by
  simp only [Badges.step] at hs
  split at hs
  · rename_i server user hserver huser
    cases hs
    obtain ⟨-, -, hmembers, hmessages, -⟩ := insertMessage_some hserver
    obtain ⟨hroom, hself, -⟩ := RoomMember.isActiveRow_iff.mp h.active
    have hid : user.id = userID := by simpa using List.find?_some huser
    have h' : BadgeInv r u m (s.commit server (if live then [.messageNew
        ⟨st.uuid 0, roomID, userID, content, messageType, none, none, st.now, st.now⟩ user clientID]
        else [])) :=
      h.server_step hserver (hmembers ▸ h.member)
    refine ⟨h', (h.balanced_commit hb h').trans (imp_congr_right fun _ => ?_)⟩
    rw [unreadCount_eq, unreadCount_eq, hmessages, List.countP_append, Nat.add_left_cancel_iff]
    have hcounted : List.countP (fun msg : Message => isOthers m.roomID m.userID msg &&
        decide (m.cursor < msg.createdAt))
        [⟨st.uuid 0, roomID, userID, content, messageType, none, none, st.now, st.now⟩] =
        if roomID = r ∧ userID ≠ u ∧ m.cursor < st.now then 1 else 0 := by
      rw [List.countP_singleton, hroom, hself]
      simp [isOthers, and_assoc]
    have hnews : List.countP (isNews r u) (if live then [.messageNew
        ⟨st.uuid 0, roomID, userID, content, messageType, none, none, st.now, st.now⟩ user clientID]
        else []) = if roomID = r ∧ userID ≠ u ∧ live = true then 1 else 0 := by
      cases live with
      | true =>
        rw [if_pos rfl, List.countP_singleton]
        simp [isNews, hid]
      | false => simp
    rw [hcounted, hnews]
    by_cases hothers : roomID = r ∧ userID ≠ u
    · obtain ⟨hin, hne⟩ := hothers
      by_cases hlater : m.cursor < st.now <;> cases live <;> simp [hin, hne, hlater]
    · have hcursor : ¬ (roomID = r ∧ userID ≠ u ∧ m.cursor < st.now) :=
        fun h => hothers ⟨h.1, h.2.1⟩
      have hlive : ¬ (roomID = r ∧ userID ≠ u ∧ live = true) := fun h => hothers ⟨h.1, h.2.1⟩
      rw [if_neg hcursor, if_neg hlive]
      exact ⟨fun _ hin hne => absurd ⟨hin, hne⟩ hothers, fun _ => rfl⟩
  · cases hs

/-- A deleted message is not counted any more. -/
theorem badge_softDelete (h : BadgeInv r u m s) (hb : s.Balanced r u) {id : UUID} {now : Time}
    (hs : s.step u (.softDelete id now) = some s') :
    BadgeInv r u m s' ∧ (s'.Balanced r u ↔ ((∃ rows, s.Lists rows) →
      ∀ msg ∈ s.server.snap.history.messages, msg.id = id → isOthers r u msg = true →
        ¬ m.cursor < msg.createdAt)) := by
  obtain ⟨server, hserver, rfl⟩ := Option.map_eq_some_iff.mp hs
  obtain ⟨-, hmembers, hmessages, -⟩ := softDeleteMessage_some hserver
  obtain ⟨hroom, hself, -⟩ := RoomMember.isActiveRow_iff.mp h.active
  have h' : BadgeInv r u m (s.commit server [.messageDeleted id now]) :=
    h.server_step hserver (hmembers ▸ h.member)
  refine ⟨h', (h.balanced_commit hb h').trans (imp_congr_right fun _ => ?_)⟩
  have hgone : ∀ msg : Message, isLive id msg = true →
      (isOthers m.roomID m.userID { msg with deletedAt := some now, updatedAt := now } &&
        decide (m.cursor < msg.createdAt)) = false := by
    intro msg _
    simp [isOthers]
  have hsplit := countP_split (isLive id)
    (fun msg => isOthers m.roomID m.userID msg && decide (m.cursor < msg.createdAt))
    s.server.snap.history.messages
  have hzero : [LiveEvent.messageDeleted id now].countP (isNews r u) = 0 := rfl
  rw [unreadCount_eq, unreadCount_eq, hmessages, countP_updateWhere hgone, hzero]
  have hiff : (List.countP (fun msg => (isOthers m.roomID m.userID msg &&
      decide (m.cursor < msg.createdAt)) && isLive id msg) s.server.snap.history.messages = 0) ↔
      ∀ msg ∈ s.server.snap.history.messages, msg.id = id → isOthers r u msg = true →
        ¬ m.cursor < msg.createdAt := by
    rw [List.countP_eq_zero, hroom, hself]
    refine forall₂_congr fun msg _ => ?_
    simp only [isOthers, isLive, Bool.and_eq_true, decide_eq_true_eq, not_and]
    constructor
    · intro hno hid hothers hlater
      exact hno ⟨hothers, hlater⟩ hid hothers.1.2
    · rintro hno ⟨hothers, hlater⟩ hid _
      exact hno hid hothers hlater
  rw [← hiff]
  omega

/-! ## The client -/

/-- A step of the client: each list it has now comes from one that it had. -/
theorem BadgeInv.client (h : BadgeInv r u m s) (hserver : s'.server = s.server)
    (hclosed : s'.activeRoom ≠ some r) (hb : s.Balanced r u)
    (hlists : ∀ rows', s'.Lists rows' → ∃ rows c c', s.Lists rows ∧ badge rows r = some c ∧
      badge rows' r = some c' ∧ c' + s'.onTheWay r u = c + s.onTheWay r u) :
    BadgeInv r u m s' ∧ s'.Balanced r u := by
  have h' : BadgeInv r u m s' := by
    refine ⟨?_, ?_, ?_, h.active, hclosed, fun rows' hrows' => ?_⟩
    · rw [hserver]
      exact h.keyed
    · rw [hserver]
      exact h.referenced
    · rw [hserver]
      exact h.member
    · obtain ⟨-, -, c', -, -, hc', -⟩ := hlists rows' hrows'
      exact ⟨c', hc'⟩
  refine ⟨h', h'.balanced_iff.mpr fun rows' d hrows' hd => ?_⟩
  obtain ⟨rows, c, c', hrows, hc, hc', hsum⟩ := hlists rows' hrows'
  cases hc'.symm.trans hd
  rw [hserver, hsum]
  exact h.balanced_iff.mp hb rows c hrows hc

/-- A step of the client that leaves its lists and what is on the way as they are. -/
theorem BadgeInv.client_same (h : BadgeInv r u m s) (hserver : s'.server = s.server)
    (hclosed : s'.activeRoom ≠ some r) (hb : s.Balanced r u)
    (hway : s'.onTheWay r u = s.onTheWay r u) (hlists : ∀ rows, s'.Lists rows → s.Lists rows) :
    BadgeInv r u m s' ∧ s'.Balanced r u := by
  refine h.client hserver hclosed hb fun rows hrows => ?_
  obtain ⟨c, hc⟩ := h.known rows (hlists rows hrows)
  exact ⟨rows, c, c, hlists rows hrows, hc, hc, by rw [hway]⟩

theorem badge_publish (h : BadgeInv r u m s) (hb : s.Balanced r u) {i : ℕ}
    (hs : s.step u (.publish i) = some s') : BadgeInv r u m s' ∧ s'.Balanced r u := by
  simp only [Badges.step] at hs
  split at hs
  · rename_i event hevent
    cases hs
    refine h.client_same rfl h.closed hb ?_ fun _ hrows => hrows
    obtain ⟨hi, rfl⟩ := List.getElem?_eq_some_iff.mp hevent
    have hperm :
        (s.pending.eraseIdx i ++ (s.queue ++ [s.pending[i]])).Perm (s.pending ++ s.queue) := by
      rw [← List.append_assoc]
      refine List.perm_append_comm.trans ?_
      exact List.Perm.append_right s.queue (List.getElem_cons_eraseIdx_perm hi)
    exact hperm.countP_eq _
  · cases hs

/-- The client adds one for a message of somebody else. -/
theorem routeRooms_badge {activeRoom : Option UUID} {rows : List (Room × ℕ)}
    (hclosed : activeRoom ≠ some r) (hc : badge rows r = some c) (event : LiveEvent) :
    ∃ rows', routeRooms u activeRoom (some rows) event = some rows' ∧
      badge rows' r = some (if isNews r u event = true then c + 1 else c) := by
  cases event with
  | messageNew row user clientID =>
    have hnews : isNews r u (.messageNew row user clientID) = true ↔
        row.roomID = r ∧ user.id ≠ u := by
      simp [isNews]
    simp only [routeRooms, hnews]
    split_ifs with hbump hin hin
    · refine ⟨_, rfl, ?_⟩
      rw [badge_bumpUnread, hc, Option.map_some, if_pos hin.1]
    · refine ⟨_, rfl, ?_⟩
      rw [badge_bumpUnread, hc, Option.map_some, if_neg fun hroom => hin ⟨hroom, hbump.2⟩]
    · exact absurd ⟨fun heq => hclosed (heq.trans (congrArg some hin.1)), hin.2⟩ hbump
    · exact ⟨rows, rfl, hc⟩
  | _ => exact ⟨rows, rfl, hc⟩

theorem routeRooms_none {activeRoom : Option UUID} (event : LiveEvent) :
    routeRooms u activeRoom none event = none := by
  cases event with
  | messageNew row user clientID =>
    simp only [routeRooms]
    split_ifs <;> rfl
  | _ => rfl

/-- The list that the client has after an event, and the one that it had. -/
theorem BadgeInv.routed (h : BadgeInv r u m s) (event : LiveEvent) {rows' : List (Room × ℕ)}
    (hrows' : routeRooms u s.activeRoom s.rooms event = some rows') :
    ∃ rows c, s.rooms = some rows ∧ badge rows r = some c ∧
      badge rows' r = some (if isNews r u event = true then c + 1 else c) := by
  cases hold : s.rooms with
  | none =>
    rw [hold, routeRooms_none] at hrows'
    cases hrows'
  | some rows =>
    obtain ⟨c, hc⟩ := h.known rows (.inl hold)
    obtain ⟨rows'', heq, hbadge⟩ := routeRooms_badge (u := u) h.closed hc event
    rw [hold, heq] at hrows'
    cases hrows'
    exact ⟨rows, c, rfl, hc, hbadge⟩

theorem onTheWay_cons {event : LiveEvent} {rest : List LiveEvent}
    (hqueue : s.queue = event :: rest) :
    s.onTheWay r u = (s.pending ++ rest).countP (isNews r u) +
      if isNews r u event = true then 1 else 0 := by
  unfold Badges.onTheWay
  rw [hqueue, List.countP_append, List.countP_cons, List.countP_append]
  omega

/-- An event is delivered: it must not overtake an answer that does not count its message. -/
theorem badge_deliver (h : BadgeInv r u m s) (hb : s.Balanced r u)
    (hs : s.step u .deliver = some s') :
    BadgeInv r u m s' ∧ (s'.Balanced r u ↔ KeepsBadge r u s .deliver) := by
  simp only [Badges.step] at hs
  split at hs
  · rename_i event rest hqueue
    cases hs
    have hsum := onTheWay_cons (r := r) (u := u) hqueue
    have hkeeps : KeepsBadge r u s .deliver ↔ (isNews r u event = true → s.answer = none) := by
      simp [KeepsBadge, hqueue]
    by_cases hlate : isNews r u event = true ∧ s.answer ≠ none
    · -- the answer to come does not count the message
      obtain ⟨hnews, hanswer⟩ := hlate
      obtain ⟨rows, hrows⟩ := Option.ne_none_iff_exists'.mp hanswer
      obtain ⟨c, hc⟩ := h.known rows (.inr hrows)
      have h' : BadgeInv r u m
          { s with queue := rest, rooms := routeRooms u s.activeRoom s.rooms event } := by
        refine ⟨h.keyed, h.referenced, h.member, h.active, h.closed, fun rows' hrows' => ?_⟩
        rcases hrows' with hrows' | hrows'
        · obtain ⟨rows₀, c₀, -, -, hbadge⟩ := h.routed event hrows'
          exact ⟨_, hbadge⟩
        · exact h.known rows' (.inr hrows')
      refine ⟨h', iff_of_false (fun hb' => ?_) fun hkeep => hanswer (hkeeps.mp hkeep hnews)⟩
      have hbefore := h.balanced_iff.mp hb rows c (.inr hrows) hc
      have hafter : s.server.snap.unreadCount m = c + (s.pending ++ rest).countP (isNews r u) :=
        h'.balanced_iff.mp hb' rows c (.inr hrows) hc
      rw [hsum, if_pos hnews] at hbefore
      omega
    · have hclient : BadgeInv r u m
            { s with queue := rest, rooms := routeRooms u s.activeRoom s.rooms event } ∧
          Badges.Balanced
            { s with queue := rest, rooms := routeRooms u s.activeRoom s.rooms event } r u := by
        refine h.client rfl h.closed hb fun rows' hrows' => ?_
        rcases hrows' with hrows' | hrows'
        · obtain ⟨rows, c, hrows, hc, hbadge⟩ := h.routed event hrows'
          refine ⟨rows, c, _, .inl hrows, hc, hbadge, ?_⟩
          show (if isNews r u event = true then c + 1 else c) +
            (s.pending ++ rest).countP (isNews r u) = _
          rw [hsum]
          split_ifs <;> omega
        · obtain ⟨c, hc⟩ := h.known rows' (.inr hrows')
          refine ⟨rows', c, c, .inr hrows', hc, hc, ?_⟩
          have hnews : ¬ isNews r u event = true := by
            intro hnews
            refine hlate ⟨hnews, ?_⟩
            rw [show s.answer = some rows' from hrows']
            exact Option.some_ne_none rows'
          show c + (s.pending ++ rest).countP (isNews r u) = _
          rw [hsum, if_neg hnews]
          rfl
      refine ⟨hclient.1, iff_of_true hclient.2 (hkeeps.mpr fun hnews => ?_)⟩
      by_contra hanswer
      exact hlate ⟨hnews, hanswer⟩
  · cases hs

/-- `GET /rooms` is answered: nothing that the answer counts may be on the way. -/
theorem badge_answer (h : BadgeInv r u m s) (hb : s.Balanced r u)
    (hs : s.step u .answer = some s') :
    BadgeInv r u m s' ∧ (s'.Balanced r u ↔ KeepsBadge r u s .answer) := by
  simp only [Badges.step] at hs
  split at hs
  · rename_i hnone
    cases hs
    have hlisting : badge (s.server.snap.listRoomsForUser u) r =
        some (s.server.snap.unreadCount m) :=
      badge_listing h.keyed h.referenced h.member h.active
    have hlists : ∀ rows, Badges.Lists
        { s with answer := some (s.server.snap.listRoomsForUser u) } rows →
        s.Lists rows ∨ rows = s.server.snap.listRoomsForUser u := by
      rintro rows (hrows | hrows)
      · exact .inl (.inl hrows)
      · exact .inr (Option.some.inj hrows).symm
    have h' : BadgeInv r u m { s with answer := some (s.server.snap.listRoomsForUser u) } := by
      refine ⟨h.keyed, h.referenced, h.member, h.active, h.closed, fun rows hrows => ?_⟩
      rcases hlists rows hrows with hrows | rfl
      · exact h.known rows hrows
      · exact ⟨_, hlisting⟩
    have hway : s.onTheWay r u = 0 ↔ KeepsBadge r u s .answer := by
      rw [Badges.onTheWay, List.countP_eq_zero]
      simp only [KeepsBadge, Bool.not_eq_true]
    refine ⟨h',
      Iff.trans ⟨fun hb' => ?_, fun hzero => h'.balanced_iff.mpr fun rows c hrows hc => ?_⟩ hway⟩
    · have hcount : s.server.snap.unreadCount m = s.server.snap.unreadCount m + s.onTheWay r u :=
        h'.balanced_iff.mp hb' _ _ (.inr rfl) hlisting
      omega
    · rcases hlists rows hrows with hrows | rfl
      · exact h.balanced_iff.mp hb rows c hrows hc
      · cases hlisting.symm.trans hc
        show s.server.snap.unreadCount m = _ + s.onTheWay r u
        rw [hzero]
        rfl
  · cases hs

/-- The answer arrives, or does not. -/
theorem badge_load (h : BadgeInv r u m s) (hb : s.Balanced r u) (hs : s.step u .load = some s') :
    BadgeInv r u m s' ∧ s'.Balanced r u := by
  obtain ⟨rows, hanswer, rfl⟩ := Option.map_eq_some_iff.mp hs
  refine h.client_same rfl h.closed hb rfl ?_
  rintro rows' (hrows | hrows)
  · exact .inr (hanswer.trans hrows)
  · cases hrows

theorem badge_lose (h : BadgeInv r u m s) (hb : s.Balanced r u) (hs : s.step u .lose = some s') :
    BadgeInv r u m s' ∧ s'.Balanced r u := by
  obtain ⟨rows, -, rfl⟩ := Option.map_eq_some_iff.mp hs
  refine h.client_same rfl h.closed hb rfl ?_
  rintro rows' (hrows | hrows)
  · exact .inl hrows
  · cases hrows

theorem badge_turn (h : BadgeInv r u m s) (hb : s.Balanced r u) {activeRoom : Option UUID}
    (hroom : roomID ≠ r) (hclosed : activeRoom ≠ some r) :
    BadgeInv r u m { s with activeRoom := activeRoom, rooms := s.rooms.map (clearUnread roomID) } ∧
      Badges.Balanced { s with activeRoom := activeRoom, rooms := s.rooms.map (clearUnread roomID) }
        r u := by
  refine h.client rfl hclosed hb fun rows' hrows' => ?_
  rcases hrows' with hrows' | hrows'
  · obtain ⟨rows, hrows, rfl⟩ := Option.map_eq_some_iff.mp hrows'
    obtain ⟨c, hc⟩ := h.known rows (.inl hrows)
    exact ⟨rows, c, c, .inl hrows, hc, (badge_clearUnread rows hroom).trans hc, rfl⟩
  · obtain ⟨c, hc⟩ := h.known rows' (.inr hrows')
    exact ⟨rows', c, c, .inr hrows', hc, hc, rfl⟩

/-! ## Runs -/

/-- A step keeps the balance if and only if it is as `KeepsBadge` says. -/
theorem badge_step (h : BadgeInv r u m s) (hb : s.Balanced r u) (hstay : LeavesUnread r u a)
    (hs : s.step u a = some s') : BadgeInv r u m s' ∧ (s'.Balanced r u ↔ KeepsBadge r u s a) := by
  have honly : ∀ m' ∈ s.server.snap.members, m'.isActiveRow r u = true → m' = m := by
    intro m' hm' hactive
    obtain ⟨hroom, huser, -⟩ := RoomMember.isActiveRow_iff.mp hactive
    obtain ⟨hroom', huser', -⟩ := RoomMember.isActiveRow_iff.mp h.active
    exact h.keyed.member_eq hm' h.member (hroom.trans hroom'.symm) (huser.trans huser'.symm)
  have hplain : BadgeInv r u m s' ∧ s'.Balanced r u → KeepsBadge r u s a →
      BadgeInv r u m s' ∧ (s'.Balanced r u ↔ KeepsBadge r u s a) :=
    fun h hk => ⟨h.1, iff_of_true h.2 hk⟩
  cases a with
  | tick now => exact hplain (badge_tick h hb hs) trivial
  | send live roomID userID content messageType clientID st =>
    obtain ⟨h', hiff⟩ := badge_send h hb hs
    refine ⟨h', hiff.trans ⟨fun hrow hlists hroom huser m' hm' hactive => ?_,
      fun hrow hlists hroom huser => hrow hlists hroom huser m h.member h.active⟩⟩
    rw [honly m' hm' hactive]
    exact hrow hlists hroom huser
  | softDelete id now =>
    obtain ⟨h', hiff⟩ := badge_softDelete h hb hs
    refine ⟨h', hiff.trans ⟨fun hrow hlists m' hm' hactive => ?_,
      fun hrow hlists => hrow hlists m h.member h.active⟩⟩
    rw [honly m' hm' hactive]
    exact hrow hlists
  | edit id content now => exact hplain (badge_edit h hb hs) trivial
  | advanceLastRead roomID userID now => exact hplain (badge_advanceLastRead h hb hstay hs) trivial
  | publish i => exact hplain (badge_publish h hb hs) trivial
  | deliver => exact badge_deliver h hb hs
  | answer => exact badge_answer h hb hs
  | load => exact hplain (badge_load h hb hs) trivial
  | lose => exact hplain (badge_lose h hb hs) trivial
  | openRoom roomID =>
    cases hs
    exact hplain (badge_turn h hb hstay fun heq => hstay (Option.some.inj heq)) trivial
  | closeRoom roomID =>
    cases hs
    exact hplain (badge_turn h hb hstay (Option.some_ne_none r).symm) trivial

/-- Before `GET /rooms`. -/
theorem badge_start {server : Readers} {pending queue : List LiveEvent} {activeRoom : Option UUID}
    (hk : (tablesOf server.snap).Keyed) (href : (tablesOf server.snap).Referenced)
    (hm : m ∈ server.snap.members) (hactive : m.isActiveRow r u = true)
    (hclosed : activeRoom ≠ some r) :
    BadgeInv r u m (.start server pending queue activeRoom) ∧
      (Badges.start server pending queue activeRoom).Balanced r u := by
  have hnone : ∀ rows, ¬ (Badges.start server pending queue activeRoom).Lists rows := by
    rintro rows (hrows | hrows) <;> cases hrows
  exact ⟨⟨hk, href, hm, hactive, hclosed, fun rows hrows => absurd hrows (hnone rows)⟩,
    fun rows hrows => absurd hrows (hnone rows)⟩

/-- A client that loads `GET /rooms` and leaves room `r` unread, whatever is on its way to it
    before: in every run whose steps are as `KeepsBadge` says, the count in its cache and the
    messages on their way to it make up the count of a fresh `GET /rooms`, so that the two
    agree when everything is delivered; and a step that is not as it says breaks this. -/
theorem badge_iff {server : Readers} {pending queue : List LiveEvent} {activeRoom : Option UUID}
    (hk : (tablesOf server.snap).Keyed) (href : (tablesOf server.snap).Referenced)
    (hm : m ∈ server.snap.members) (hactive : m.isActiveRow r u = true)
    (hclosed : activeRoom ≠ some r)
    (hrun : Reach (Badges.step u) (fun s a => LeavesUnread r u a ∧ KeepsBadge r u s a)
      (.start server pending queue activeRoom) s) :
    s.Balanced r u ∧ (s.rooms ≠ none → s.Delivered → s.cached r = s.fresh r u) ∧
      ∀ a s', s.step u a = some s' → LeavesUnread r u a →
      (s'.Balanced r u ↔ KeepsBadge r u s a) := by
  have hinv : BadgeInv r u m s ∧ s.Balanced r u := by
    refine hrun.invariant (fun s => BadgeInv r u m s ∧ s.Balanced r u) (fun s a s' h hok hs => ?_)
      (badge_start hk href hm hactive hclosed)
    obtain ⟨h', hiff⟩ := badge_step h.1 h.2 hok.1 hs
    exact ⟨h', hiff.mpr hok.2⟩
  refine ⟨hinv.2, fun hloaded hdelivered => ?_,
    fun a s' hs hstay => (badge_step hinv.1 hinv.2 hstay hs).2⟩
  obtain ⟨rows, hrows⟩ := Option.ne_none_iff_exists'.mp hloaded
  obtain ⟨c, hc⟩ := hinv.1.known rows (.inl hrows)
  have hnone : s.onTheWay r u = 0 := by
    unfold Badges.onTheWay
    rw [hdelivered.1, hdelivered.2]
    rfl
  rw [hinv.2 rows (.inl hrows), hnone, hc, Badges.cached, hrows, Option.bind_some, hc]
  rfl

end

/-! ## A message that is taken back -/

/-- Bob loads `GET /rooms`. -/
def bobStarts : Badges := .start (readersAfter bobReads) [] [] none

def bobLoads : List BadgeAction := [.answer, .load]

/-- Alice writes. -/
def aliceSends : List BadgeAction :=
  [.tick 5, .send true 5 1 "hello" .text "n1" ⟨5, fun k => 35 + k⟩, .publish 0, .deliver]

/-- She deletes the message. -/
def aliceDeletes : List BadgeAction := [.tick 6, .softDelete 35 6, .publish 0, .deliver]

/-- She edits it, and Bob answers from another device and deletes his answer. -/
def bobAnswers : List BadgeAction :=
  [.tick 6, .edit 35 "hello!" 6, .publish 0, .send true 5 2 "hi" .text "" ⟨6, fun k => 45 + k⟩,
    .softDelete 45 6, .deliver, .publish 0, .publish 0, .deliver, .deliver]

def badgesAfter (as : List BadgeAction) : Badges :=
  (exec (Badges.step 2) bobStarts as).getD bobStarts

theorem bobStarts_keyed : (tablesOf (readersAfter bobReads).snap).Keyed :=
  ⟨by decide, by decide, by decide⟩

theorem bobStarts_referenced : (tablesOf (readersAfter bobReads).snap).Referenced := by
  unfold Database.Referenced
  decide

/-- Messages are announced, and later than all cursors; Bob deletes his own. -/
def badgeCheck (s : Badges) : BadgeAction → Bool
  | .send live _ _ _ _ _ st => live && s.server.snap.members.all fun m => decide (m.cursor < st.now)
  | .softDelete id _ => s.server.snap.history.messages.all fun msg => msg.id ≠ id || msg.userID = 2
  | .advanceLastRead _ _ _ => false
  | .openRoom _ => false
  | .closeRoom _ => false
  | .answer => (s.pending ++ s.queue).isEmpty
  | .deliver => s.answer.isNone
  | _ => true

theorem keepsBadge_of_check (s : Badges) (a : BadgeAction) (h : badgeCheck s a = true) :
    LeavesUnread 5 2 a ∧ KeepsBadge 5 2 s a := by
  cases a with
  | send live roomID userID content messageType clientID st =>
    obtain ⟨hlive, hall⟩ := Bool.and_eq_true_iff.mp h
    refine ⟨trivial, fun _ _ _ m hm _ => iff_of_true hlive ?_⟩
    exact of_decide_eq_true (List.all_eq_true.mp hall m hm)
  | softDelete id now =>
    refine ⟨trivial, fun _ m _ _ msg hmsg hid hothers => ?_⟩
    have hown := List.all_eq_true.mp h msg hmsg
    simp only [isOthers, Bool.and_eq_true, decide_eq_true_eq] at hothers
    simp [hid, hothers.2] at hown
  | advanceLastRead roomID userID now => cases h
  | openRoom roomID => cases h
  | closeRoom roomID => cases h
  | answer =>
    refine ⟨trivial, fun event hevent => ?_⟩
    rw [List.isEmpty_iff.mp h] at hevent
    cases hevent
  | deliver => exact ⟨trivial, fun _ _ _ => Option.isNone_iff_eq_none.mp h⟩
  | _ => exact ⟨trivial, trivial⟩

theorem badge_iff_alice :
    (badgesAfter (bobLoads ++ aliceSends ++ bobAnswers)).cached 5 =
      (badgesAfter (bobLoads ++ aliceSends ++ bobAnswers)).fresh 5 2 := by
  have hexec : exec (Badges.step 2) bobStarts (bobLoads ++ aliceSends ++ bobAnswers) =
      some (badgesAfter (bobLoads ++ aliceSends ++ bobAnswers)) := rfl
  have hmeets : Meets (Badges.step 2) (fun s a => LeavesUnread 5 2 a ∧ KeepsBadge 5 2 s a) bobStarts
      (bobLoads ++ aliceSends ++ bobAnswers) := meets_of_checks keepsBadge_of_check (by decide)
  have hbob : ∃ m ∈ (readersAfter bobReads).snap.members, m.isActiveRow 5 2 = true := by decide
  obtain ⟨m, hm, hactive⟩ := hbob
  have hall :=
    badge_iff bobStarts_keyed bobStarts_referenced hm hactive (Option.some_ne_none 5).symm
    (Reach.of_exec hmeets hexec)
  exact hall.2.1 (by decide) ⟨by decide, by decide⟩

/-- Alice writes, Bob loads `GET /rooms`, and her message is announced. -/
def announcedLate : List BadgeAction :=
  [.tick 5, .send true 5 1 "hello" .text "n1" ⟨5, fun k => 35 + k⟩] ++ bobLoads ++
    [.publish 0, .deliver]

/-- The message is counted by the answer, and once more when it is announced. -/
theorem announced_after_answer :
    (badgesAfter announcedLate).Delivered ∧ (badgesAfter announcedLate).cached 5 = some 2 ∧
      (badgesAfter announcedLate).fresh 5 2 = some 1 :=
  ⟨⟨by decide, by decide⟩, by decide, by decide⟩

/-- The message is counted by the client and not by the server. -/
theorem deleted_stays_on_badge :
    ¬ ∀ (server : Readers) (r u : UUID) (m : RoomMember) (s : Badges),
      (tablesOf server.snap).Keyed → (tablesOf server.snap).Referenced → m ∈ server.snap.members →
      m.isActiveRow r u = true →
      Reach (Badges.step u) (fun _ a => LeavesUnread r u a) (.start server [] [] none) s →
      s.rooms ≠ none → s.Delivered → s.cached r = s.fresh r u := by
  intro h
  have hexec : exec (Badges.step 2) bobStarts (bobLoads ++ aliceSends ++ aliceDeletes) =
      some (badgesAfter (bobLoads ++ aliceSends ++ aliceDeletes)) := rfl
  have hmeets : Meets (Badges.step 2) (fun _ a => LeavesUnread 5 2 a) bobStarts
      (bobLoads ++ aliceSends ++ aliceDeletes) := by
    refine meets_of_forall (fun a ha s => ?_) _
    fin_cases ha <;> trivial
  have hbob : ∃ m ∈ (readersAfter bobReads).snap.members, m.isActiveRow 5 2 = true := by decide
  obtain ⟨m, hm, hactive⟩ := hbob
  have hagree := h _ 5 2 m _ bobStarts_keyed bobStarts_referenced hm hactive
    (Reach.of_exec hmeets hexec) (by decide) ⟨by decide, by decide⟩
  revert hagree
  decide

end ConvoyChat.System
