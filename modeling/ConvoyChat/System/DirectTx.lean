import ConvoyChat.Handlers.DirectRooms
import ConvoyChat.Store.RoleTx
import ConvoyChat.System.World

/-!
# Concurrent requests for direct rooms

`GetOrCreateDirectRoom` (`internal/store/rooms.go` lines 324–409) statement by
statement, for any number of requests at once, next to the other requests that change
rooms and memberships. The store calls of these are single statements, insert-only
transactions, or, for `ChangeMemberRole`, a transaction that locks the one row it
updates (`Store/RoleTx.lean` has its statements); they are steps of their own here.

A statement reads the committed tables, and the transaction's own writes. The rows
that `reactivateStmt` updates are locked until the transaction ends, and a store call
that would write one of them waits. The advisory lock is keyed by a hash of the sorted
pair; `hash` is any function, so two pairs may share a lock. An id that another
transaction has inserted and not committed is found to be taken at the commit.

* `directNext`: the statements of one call.
* `direct_rooms_unique`: in every reachable state there is at most one direct room for
  two users, it has exactly their two rows, both plain members and never banned, and
  every successful call returned that room, with both rows active, as created once for
  the pair, and with `peerReactivated` exactly when the peer had left.
-/

namespace ConvoyChat.System

open ConvoyChat.Lib ConvoyChat.Store ConvoyChat.Handlers

/-- Where a `GetOrCreateDirectRoom` call is. `before` is what the table `room_members`
    showed to the call just before its last statement on it. -/
inductive DirectPoint
  | begun
  /-- the advisory lock is held -/
  | locked
  /-- `findStmt` has returned a room -/
  | found (room : Room)
  /-- `reactivateStmt` has written these rows -/
  | reactivated (room : Room) (rows before : List RoomMember)
  /-- `findStmt` has returned no room -/
  | missing
  | insertedRoom
  | insertedA
  | insertedB (before : List RoomMember)

/-- A `GetOrCreateDirectRoom(userA, userB)` call; the stamp is `NOW()` of its
    transaction and its `uuid.New()`s. -/
structure DirectTx where
  userA : UUID
  userB : UUID
  stamp : Stamp
  point : DirectPoint

/-- The row of `insertRoomStmt`. -/
def DirectTx.room (tx : DirectTx) : Room :=
  ⟨tx.stamp.uuid 0, none, .direct, tx.userA, none, none, false, true, tx.stamp.now, tx.stamp.now⟩

/-- The row of the first `insertMember`. -/
def DirectTx.rowA (tx : DirectTx) : RoomMember :=
  ⟨tx.stamp.uuid 1, tx.room.id, tx.userA, .member, tx.stamp.now, none, none, none⟩

/-- The row of the second `insertMember`. -/
def DirectTx.rowB (tx : DirectTx) : RoomMember :=
  ⟨tx.stamp.uuid 2, tx.room.id, tx.userB, .member, tx.stamp.now, none, none, none⟩

/-- What a successful call returned, with `room_members` as it saw it just before and
    right after its reactivation, or its last insert. -/
structure DirectResult where
  userA : UUID
  userB : UUID
  room : Room
  created : Bool
  peerReactivated : Bool
  before : List RoomMember
  after : List RoomMember

structure DirectState where
  /-- the committed tables -/
  db : Database
  /-- the store calls so far -/
  calls : ℕ
  requests : ℕ → Option (RoomProc Response)
  /-- the `GetOrCreateDirectRoom` of each request, while it runs -/
  txs : ℕ → Option DirectTx
  advisory : ℕ → Option ℕ
  /-- the locks of the rows of `room_members` -/
  locks : UUID × UUID → Option ℕ
  log : List DirectResult

inductive DirectAction
  | request (n : ℕ) (req : RoomRequest)
  /-- the handler makes its next store call, or begins the transaction -/
  | serve (n : ℕ)
  /-- the next statement of the transaction -/
  | next (n : ℕ)
  /-- the store call or the statement fails and has no effect; its transaction is rolled back -/
  | fail (n : ℕ)

def DirectState.start (users : List User) : DirectState where
  db := ⟨users, [], []⟩
  calls := 0
  requests := fun _ => none
  txs := fun _ => none
  advisory := fun _ => none
  locks := fun _ => none
  log := []

/-- The key of `lockStmt`, a hash of the sorted pair. -/
def pairKey (hash : UUID → UUID → ℕ) (a b : UUID) : ℕ := hash (min a b) (max a b)

/-- The new versions take the place of the rows with their key. -/
def overlay (rows members : List RoomMember) : List RoomMember :=
  members.map fun m => (rows.find? fun v => v.isRow m.roomID m.userID).getD m

namespace DirectState

def resume (s : DirectState) (n : ℕ) (p : RoomProc Response) : DirectState :=
  { s with requests := Function.update s.requests n (some p) }

def setPoint (s : DirectState) (n : ℕ) (tx : DirectTx) (point : DirectPoint) : DirectState :=
  { s with txs := Function.update s.txs n (some { tx with point }) }

/-- The tables after a commit, with the result that is returned. -/
def commit (s : DirectState) (db : Database) (result : DirectResult) : DirectState :=
  { s with db, log := s.log ++ [result] }

/-- The transaction ends and gives up its locks; the handler goes on with `p`. -/
def finish (s : DirectState) (n : ℕ) (p : RoomProc Response) : DirectState :=
  { s.resume n p with
    txs := Function.update s.txs n none
    advisory := fun key => if s.advisory key = some n then none else s.advisory key
    locks := fun key => if s.locks key = some n then none else s.locks key }

/-- No row that another transaction has locked is written. -/
def unblocked (s : DirectState) (db' : Database) : Bool :=
  s.db.members.all fun m => s.locks m.rowKey = none || db'.members.contains m

end DirectState

/-- The inserts of the call, on the tables that they are committed to. -/
def DirectTx.inserts (tx : DirectTx) (db : Database) : Except StoreErr Database := do
  let db₁ ← insertRoom tx.room db
  let db₂ ← insertMember tx.stamp.now (tx.stamp.uuid 1) tx.room.id tx.userA .member db₁
  insertMember tx.stamp.now (tx.stamp.uuid 2) tx.room.id tx.userB .member db₂

/-- The next statement of a call; `none` while it waits for a lock. `k` is the rest of
    the handler. -/
def directNext (hash : UUID → UUID → ℕ) (s : DirectState) (n : ℕ) (tx : DirectTx)
    (k : Except StoreErr (Room × Bool × Bool) → RoomProc Response) : Option DirectState :=
  match tx.point with
  | .begun =>
    let key := pairKey hash tx.userA tx.userB
    if s.advisory key = none ∨ s.advisory key = some n then
      some { s.setPoint n tx .locked with advisory := Function.update s.advisory key (some n) }
    else none
  | .locked =>
    match findDirectRoom tx.userA tx.userB s.db with
    | some room => some (s.setPoint n tx (.found room))
    | none => some (s.setPoint n tx .missing)
  | .found room =>
    let departed := s.db.members.filter (departedPair room.id tx.userA tx.userB)
    if departed.all fun m => s.locks m.rowKey = none || s.locks m.rowKey = some n then
      let rows := departed.map fun m => { m with leftAt := none, joinedAt := tx.stamp.now }
      some { s.setPoint n tx (.reactivated room rows s.db.members) with
        locks := fun key => if departed.any fun m => m.rowKey = key then some n else s.locks key }
    else none
  | .reactivated room rows before =>
    let reactivatedB := rows.any fun v => v.userID = tx.userB
    some ((s.commit { s.db with members := overlay rows s.db.members }
      ⟨tx.userA, tx.userB, room, false, reactivatedB, before, overlay rows before⟩).finish n
        (k (.ok (room, false, reactivatedB))))
  | .missing =>
    match insertRoom tx.room s.db with
    | .error _ => some (s.finish n (k (.error .internal)))
    | .ok _ => some (s.setPoint n tx .insertedRoom)
  | .insertedRoom =>
    match insertMember tx.stamp.now (tx.stamp.uuid 1) tx.room.id tx.userA .member
        { s.db with rooms := s.db.rooms ++ [tx.room] } with
    | .error _ => some (s.finish n (k (.error .internal)))
    | .ok _ => some (s.setPoint n tx .insertedA)
  | .insertedA =>
    match insertMember tx.stamp.now (tx.stamp.uuid 2) tx.room.id tx.userB .member
        { s.db with rooms := s.db.rooms ++ [tx.room], members := s.db.members ++ [tx.rowA] } with
    | .error _ => some (s.finish n (k (.error .internal)))
    | .ok _ => some (s.setPoint n tx (.insertedB (s.db.members ++ [tx.rowA])))
  | .insertedB before =>
    match tx.inserts s.db with
    | .error _ => some (s.finish n (k (.error .internal)))
    | .ok db' =>
      some ((s.commit db'
        ⟨tx.userA, tx.userB, tx.room, true, false, before, before ++ [tx.rowB]⟩).finish n
          (k (.ok (tx.room, true, false))))

def DirectState.step (parse : String → Option UUID) (hash : UUID → UUID → ℕ) (stamps : ℕ → Stamp)
    (s : DirectState) : DirectAction → Option DirectState
  | .request n req =>
    match s.requests n with
    | none => some (s.resume n (req.handler parse))
    | some _ => none
  | .serve n =>
    match s.txs n, s.requests n with
    | none, some (.op (.getOrCreateDirectRoom a b) _) =>
      some { s with
        calls := s.calls + 1
        txs := Function.update s.txs n (some ⟨a, b, stamps s.calls, .begun⟩) }
    | none, some (.op o k) =>
      let out := o.serve stamps ⟨s.db, s.calls, []⟩
      if s.unblocked out.2.db then
        some ({ s with db := out.2.db, calls := out.2.calls }.resume n (k out.1))
      else none
    | _, _ => none
  | .next n =>
    match s.txs n, s.requests n with
    | some tx, some (.op (.getOrCreateDirectRoom _ _) k) => directNext hash s n tx k
    | _, _ => none
  | .fail n =>
    match s.txs n, s.requests n with
    | some _, some (.op (.getOrCreateDirectRoom _ _) k) => some (s.finish n (k (.error .internal)))
    | none, some (.op o k) => some (s.resume n (k (failed o)))
    | _, _ => none

/-! ## Direct rooms in the tables -/

/-- `room` is a direct room with a row of each of the two users. -/
structure PairRoom (db : Database) (a b : UUID) (room : Room) : Prop where
  mem : room ∈ db.rooms
  direct : room.type = .direct
  rowA : ∃ m ∈ db.members, m.isRow room.id a = true
  rowB : ∃ m ∈ db.members, m.isRow room.id b = true

/-- A plain member who was never banned. -/
def Plain (x : FixedPart) : Prop := x.role = .member ∧ x.bannedAt = none

/-- The direct rooms of the tables. -/
structure DirectDb (db : Database) : Prop where
  keyed : db.Keyed
  referenced : db.Referenced
  rows : ∀ room ∈ db.rooms, room.type = .direct → ∃ x y, fixedRows db room.id = [x, y] ∧
    x.userID ≠ y.userID ∧ Plain x ∧ Plain y
  unique : ∀ a b room room', a ≠ b → PairRoom db a b room → PairRoom db a b room' → room = room'

variable {parse : String → Option UUID} {hash : UUID → UUID → ℕ} {stamps : ℕ → Stamp}
  {db db' : Database} {a b : UUID} {room : Room}

theorem PairRoom.symm (h : PairRoom db a b room) : PairRoom db b a room :=
  ⟨h.mem, h.direct, h.rowB, h.rowA⟩

/-- A user has a row in the room when one of its fixed parts is theirs. -/
theorem hasRow_iff {r u : UUID} :
    (∃ m ∈ db.members, m.isRow r u = true) ↔ ∃ x ∈ fixedRows db r, x.userID = u := by
  simp only [fixedRows, List.mem_map, List.mem_filter, decide_eq_true_eq, RoomMember.isRow_iff]
  constructor
  · rintro ⟨m, hm, hr, hu⟩
    exact ⟨fixedPart m, ⟨m, ⟨hm, hr⟩, rfl⟩, hu⟩
  · rintro ⟨x, ⟨m, ⟨hm, hr⟩, rfl⟩, hu⟩
    exact ⟨m, hm, hr, hu⟩

/-- What keeps the direct rooms keeps the rooms of each pair. -/
theorem pairRoom_calm (hcalm : Calm db db') : PairRoom db' a b room ↔ PairRoom db a b room := by
  constructor
  · intro h
    have hmem : room ∈ db.rooms :=
      (hcalm.added room h.mem).resolve_right fun htype => htype h.direct
    have hrows := hcalm.rows room hmem h.direct
    refine ⟨hmem, h.direct, ?_, ?_⟩
    · rw [hasRow_iff, ← hrows, ← hasRow_iff]
      exact h.rowA
    · rw [hasRow_iff, ← hrows, ← hasRow_iff]
      exact h.rowB
  · intro h
    have hrows := hcalm.rows room h.mem h.direct
    refine ⟨hcalm.kept room h.mem, h.direct, ?_, ?_⟩
    · rw [hasRow_iff, hrows, ← hasRow_iff]
      exact h.rowA
    · rw [hasRow_iff, hrows, ← hasRow_iff]
      exact h.rowB

theorem DirectDb.calm (h : DirectDb db) (hcalm : Calm db db') : DirectDb db' where
  keyed := hcalm.keyed h.keyed
  referenced := hcalm.referenced h.referenced
  rows room hroom hdirect := by
    have hmem : room ∈ db.rooms :=
      (hcalm.added room hroom).resolve_right fun htype => htype hdirect
    rw [hcalm.rows room hmem hdirect]
    exact h.rows room hmem hdirect
  unique a b room room' hne h₁ h₂ :=
    h.unique a b room room' hne ((pairRoom_calm hcalm).mp h₁) ((pairRoom_calm hcalm).mp h₂)

/-! ## Reactivation -/

/-- These are versions of rows of the room that keep the fixed part. -/
def Versions (db : Database) (r : UUID) (rows : List RoomMember) : Prop :=
  ∀ v ∈ rows, v.roomID = r ∧ fixedPart v ∈ fixedRows db r

/-- The row that is shown for `m`. -/
theorem overlay_row {r : UUID} {rows : List RoomMember} (hk : db.Keyed) (hrows : Versions db r rows)
    {m : RoomMember} (hm : m ∈ db.members) :
    ((rows.find? fun v => v.isRow m.roomID m.userID).getD m).roomID = m.roomID ∧
      fixedPart ((rows.find? fun v => v.isRow m.roomID m.userID).getD m) = fixedPart m := by
  cases hfind : rows.find? fun v => v.isRow m.roomID m.userID with
  | none => exact ⟨rfl, rfl⟩
  | some v =>
    obtain ⟨hvr, hvu⟩ := RoomMember.isRow_iff.mp (List.find?_some hfind)
    obtain ⟨hr, hfixed⟩ := hrows v (List.mem_of_find?_eq_some hfind)
    obtain ⟨m₀, hm₀, heq⟩ := List.mem_map.mp hfixed
    obtain ⟨hm₀, hr₀⟩ := List.mem_filter.mp hm₀
    have hu₀ : m₀.userID = v.userID := congrArg FixedPart.userID heq
    have hsame : m₀ = m := by
      refine hk.member_eq hm₀ hm ?_ (hu₀.trans hvu)
      rw [of_decide_eq_true hr₀, ← hr, hvr]
    rw [Option.getD_some, ← heq, hsame]
    exact ⟨hvr, rfl⟩

theorem fixedRows_map {f : RoomMember → RoomMember} {members : List RoomMember}
    (h : ∀ m ∈ members, (f m).roomID = m.roomID ∧ fixedPart (f m) = fixedPart m) (r : UUID) :
    ((members.map f).filter fun m => m.roomID = r).map fixedPart =
      (members.filter fun m => m.roomID = r).map fixedPart := by
  induction members with
  | nil => rfl
  | cons m ms ih =>
    obtain ⟨hroom, hfixed⟩ := h m List.mem_cons_self
    have hrest := ih fun x hx => h x (List.mem_cons_of_mem _ hx)
    rw [List.map_cons, List.filter_cons, List.filter_cons, hroom]
    split_ifs
    · rw [List.map_cons, List.map_cons, hrest, hfixed]
    · exact hrest

/-- A reactivation keeps the direct rooms. -/
theorem overlay_calm {r : UUID} {rows : List RoomMember} (hk : db.Keyed)
    (hrows : Versions db r rows) : Calm db { db with members := overlay rows db.members } := by
  have hrow := fun m hm => overlay_row hk hrows (m := m) hm
  have hids : (overlay rows db.members).map (·.id) = db.members.map (·.id) := by
    rw [overlay, List.map_map]
    exact List.map_congr_left fun m hm => congrArg FixedPart.id (hrow m hm).2
  have hkeys : (overlay rows db.members).map (fun m => (m.roomID, m.userID)) =
      db.members.map fun m => (m.roomID, m.userID) := by
    rw [overlay, List.map_map]
    refine List.map_congr_left fun m hm => ?_
    exact Prod.ext (hrow m hm).1 (congrArg FixedPart.userID (hrow m hm).2)
  refine ⟨fun h => ⟨h.rooms, ?_, ?_⟩, fun href m' hm' => ?_, fun _ h => h, fun _ h => .inl h,
    fun room _ _ => fixedRows_map hrow room.id⟩
  · rw [hids]
    exact h.memberIDs
  · rw [hkeys]
    exact h.members
  · obtain ⟨m, hm, rfl⟩ := List.mem_map.mp hm'
    rw [(hrow m hm).1]
    exact href m hm

/-- The call saw both rows active right after its statement, and reports the peer as
    reactivated exactly when the peer's row was there and inactive just before. -/
structure DirectResult.Exact (e : DirectResult) : Prop where
  activeA : ∃ m ∈ e.after, m.isActiveRow e.room.id e.userA = true
  activeB : ∃ m ∈ e.after, m.isActiveRow e.room.id e.userB = true
  peer : e.peerReactivated = true ↔
    ∃ m ∈ e.before, m.isRow e.room.id e.userB = true ∧ m.leftAt.isSome = true

/-- The rows that `reactivateStmt` writes. -/
def reactivatedRows (now : Time) (r a b : UUID) (members : List RoomMember) : List RoomMember :=
  (members.filter (departedPair r a b)).map fun m => { m with leftAt := none, joinedAt := now }

theorem reactivatedRows_versions (now : Time) (r a b : UUID) (db : Database) :
    Versions db r (reactivatedRows now r a b db.members) := by
  intro v hv
  obtain ⟨m, hm, rfl⟩ := List.mem_map.mp hv
  obtain ⟨hm, hdep⟩ := List.mem_filter.mp hm
  simp only [departedPair, Bool.and_eq_true, decide_eq_true_eq] at hdep
  exact ⟨hdep.1.1, List.mem_map.mpr ⟨m, List.mem_filter.mpr ⟨hm, by simp [hdep.1.1]⟩, rfl⟩⟩

/-- After the reactivation the row of each of the two users is active. -/
theorem active_overlay (now : Time) {r a b u : UUID} (hu : u = a ∨ u = b)
    (hrow : ∃ m ∈ db.members, m.isRow r u = true) :
    ∃ m ∈ overlay (reactivatedRows now r a b db.members) db.members,
      m.isActiveRow r u = true := by
  obtain ⟨m, hm, hmrow⟩ := hrow
  obtain ⟨hmr, hmu⟩ := RoomMember.isRow_iff.mp hmrow
  refine ⟨_, List.mem_map_of_mem hm, ?_⟩
  cases hfind : (reactivatedRows now r a b db.members).find? fun v => v.isRow m.roomID m.userID with
  | some v =>
    obtain ⟨hvr, hvu⟩ := RoomMember.isRow_iff.mp (List.find?_some hfind)
    obtain ⟨m₀, -, rfl⟩ := List.mem_map.mp (List.mem_of_find?_eq_some hfind)
    exact RoomMember.isActiveRow_iff.mpr ⟨hvr.trans hmr, hvu.trans hmu, rfl⟩
  | none =>
    -- the row was not written, so it was active before
    refine RoomMember.isActiveRow_iff.mpr ⟨hmr, hmu, ?_⟩
    rw [Option.getD_none]
    cases hleft : m.leftAt with
    | none => rfl
    | some t =>
      have hdep : m ∈ db.members.filter (departedPair r a b) := by
        refine List.mem_filter.mpr ⟨hm, ?_⟩
        rcases hu with rfl | rfl <;> simp [departedPair, hmr, hmu, hleft]
      have hmem : { m with leftAt := none, joinedAt := now } ∈
          reactivatedRows now r a b db.members := List.mem_map.mpr ⟨m, hdep, rfl⟩
      refine absurd ?_ (List.find?_eq_none.mp hfind _ hmem)
      exact RoomMember.isRow_iff.mpr ⟨rfl, rfl⟩

theorem reactivated_exact (now : Time) (h : PairRoom db a b room) :
    DirectResult.Exact ⟨a, b, room, false,
      (reactivatedRows now room.id a b db.members).any fun v => v.userID = b, db.members,
      overlay (reactivatedRows now room.id a b db.members) db.members⟩ where
  activeA := active_overlay now (.inl rfl) h.rowA
  activeB := active_overlay now (.inr rfl) h.rowB
  peer := by
    simp only [reactivatedRows, List.any_map, List.any_eq_true, List.mem_filter, departedPair,
      Function.comp_apply, Bool.and_eq_true, Bool.or_eq_true, decide_eq_true_eq,
      RoomMember.isRow_iff]
    constructor
    · rintro ⟨m, ⟨hm, ⟨hr, -⟩, hleft⟩, hu⟩
      exact ⟨m, hm, ⟨hr, hu⟩, hleft⟩
    · rintro ⟨m, hm, ⟨hr, hu⟩, hleft⟩
      exact ⟨m, ⟨hm, ⟨hr, .inr hu⟩, hleft⟩, hu⟩

/-! ## Creation -/

variable {tx : DirectTx}

/-- What the inserts have found free and what they leave. -/
theorem inserts_ok (h : tx.inserts db = .ok db') :
    db' = { db with
      rooms := db.rooms ++ [tx.room]
      members := db.members ++ [tx.rowA, tx.rowB] } ∧
    (∀ x ∈ db.rooms, x.id ≠ tx.room.id) ∧ Touches tx.room.id db db' ∧
    (db.Referenced → db'.Referenced) := by
  obtain ⟨db₁, h₁, h⟩ := bind_eq_ok.mp h
  obtain ⟨db₂, h₂, h₃⟩ := bind_eq_ok.mp h
  refine ⟨?_, (insertRoom_ok h₁).2, ?_, ?_⟩
  · obtain ⟨rfl, -⟩ := insertRoom_ok h₁
    obtain ⟨rfl, -⟩ := insertMember_ok h₂
    rw [(insertMember_ok h₃).1, List.append_assoc]
    rfl
  · exact ((insertRoom_touches h₁).trans (insertMember_touches h₂)).trans (insertMember_touches h₃)
  · exact fun href => referenced_insertMember h₃
      (referenced_insertMember h₂ (referenced_insertRoom h₁ href))

theorem inserts_rows (href : db.Referenced) (h : tx.inserts db = .ok db') :
    fixedRows db' tx.room.id = [fixedPart tx.rowA, fixedPart tx.rowB] := by
  obtain ⟨rfl, hfresh, -, -⟩ := inserts_ok h
  have hnone : db.members.filter (fun m => m.roomID = tx.room.id) = [] := by
    rw [List.filter_eq_nil_iff]
    intro m hm
    obtain ⟨x, hx, hid⟩ := href m hm
    simpa [← hid] using hfresh x hx
  rw [fixedRows, List.filter_append, hnone]
  simp [DirectTx.rowA, DirectTx.rowB]

/-- The inserts add one direct room, with the two users of the call. -/
theorem pairRoom_inserts (href : db.Referenced) (h : tx.inserts db = .ok db') :
    PairRoom db' a b room ↔ PairRoom db a b room ∨
      (room = tx.room ∧ (a = tx.userA ∨ a = tx.userB) ∧ (b = tx.userA ∨ b = tx.userB)) := by
  have hnew := inserts_rows href h
  obtain ⟨hdb, hfresh, htouch, -⟩ := inserts_ok h
  have hold : ∀ x ∈ db.rooms, fixedRows db' x.id = fixedRows db x.id := by
    intro x hx
    rw [fixedRows, fixedRows, htouch.others x.id (hfresh x hx)]
  have hrow : ∀ u, (∃ m ∈ db'.members, m.isRow tx.room.id u = true) ↔
      u = tx.userA ∨ u = tx.userB := by
    intro u
    rw [hasRow_iff, hnew]
    simp [fixedPart, DirectTx.rowA, DirectTx.rowB, eq_comm]
  constructor
  · intro hpair
    have hmem := hpair.mem
    rw [hdb] at hmem
    rcases List.mem_append.mp hmem with hmem | hmem
    · refine .inl ⟨hmem, hpair.direct, ?_, ?_⟩
      · rw [hasRow_iff, ← hold room hmem, ← hasRow_iff]
        exact hpair.rowA
      · rw [hasRow_iff, ← hold room hmem, ← hasRow_iff]
        exact hpair.rowB
    · rw [List.mem_singleton.mp hmem] at hpair ⊢
      exact .inr ⟨rfl, (hrow a).mp hpair.rowA, (hrow b).mp hpair.rowB⟩
  · rintro (hpair | ⟨rfl, ha, hb⟩)
    · refine ⟨?_, hpair.direct, ?_, ?_⟩
      · rw [hdb]
        exact List.mem_append_left _ hpair.mem
      · rw [hasRow_iff, hold room hpair.mem, ← hasRow_iff]
        exact hpair.rowA
      · rw [hasRow_iff, hold room hpair.mem, ← hasRow_iff]
        exact hpair.rowB
    · refine ⟨?_, rfl, (hrow a).mpr ha, (hrow b).mpr hb⟩
      rw [hdb]
      exact List.mem_append_right _ (List.mem_singleton.mpr rfl)

/-- A room for a pair that had none keeps the tables in order. -/
theorem DirectDb.inserts (hdb : DirectDb db) (hne : tx.userA ≠ tx.userB)
    (hnone : ∀ room, ¬ PairRoom db tx.userA tx.userB room) (h : tx.inserts db = .ok db') :
    DirectDb db' := by
  have hnew := inserts_rows hdb.referenced h
  obtain ⟨heq, hfresh, htouch, href⟩ := inserts_ok h
  refine ⟨htouch.keyed hdb.keyed, href hdb.referenced, fun room hroom hdirect => ?_, ?_⟩
  · rw [heq] at hroom
    rcases List.mem_append.mp hroom with hroom | hroom
    · rw [fixedRows, htouch.others room.id (hfresh room hroom), ← fixedRows]
      exact hdb.rows room hroom hdirect
    · rw [List.mem_singleton.mp hroom, hnew]
      exact ⟨_, _, rfl, hne, ⟨rfl, rfl⟩, rfl, rfl⟩
  · intro x y room room' hxy h₁ h₂
    rw [pairRoom_inserts hdb.referenced h] at h₁ h₂
    -- the new room has the pair of the call, which no old room has
    have hno : ∀ {z}, PairRoom db x y z → (x = tx.userA ∨ x = tx.userB) →
        (y = tx.userA ∨ y = tx.userB) → False := by
      rintro z hz (rfl | rfl) (rfl | rfl)
      · exact hxy rfl
      · exact hnone z hz
      · exact hnone z hz.symm
      · exact hxy rfl
    rcases h₁ with h₁ | ⟨rfl, hx, hy⟩
    · rcases h₂ with h₂ | ⟨rfl, hx, hy⟩
      · exact hdb.unique x y room room' hxy h₁ h₂
      · exact (hno h₁ hx hy).elim
    · rcases h₂ with h₂ | ⟨rfl, -, -⟩
      · exact (hno h₂ hx hy).elim
      · rfl

/-! ## The invariant -/

/-- What a call in progress has found holds until it commits. -/
def DirectTx.Finds (db : Database) (tx : DirectTx) : Prop :=
  match tx.point with
  | .begun => True
  | .locked => True
  | .found room => PairRoom db tx.userA tx.userB room
  | .reactivated room rows before =>
    PairRoom db tx.userA tx.userB room ∧ Versions db room.id rows ∧
      DirectResult.Exact ⟨tx.userA, tx.userB, room, false, rows.any fun v => v.userID = tx.userB,
        before, overlay rows before⟩
  | .insertedB before =>
    (∀ room, ¬ PairRoom db tx.userA tx.userB room) ∧
      DirectResult.Exact ⟨tx.userA, tx.userB, tx.room, true, false, before, before ++ [tx.rowB]⟩
  | _ => ∀ room, ¬ PairRoom db tx.userA tx.userB room

structure DirectTx.Sound (hash : UUID → UUID → ℕ) (s : DirectState) (n : ℕ) (tx : DirectTx) :
    Prop where
  distinct : tx.userA ≠ tx.userB
  holds : tx.point ≠ .begun → s.advisory (pairKey hash tx.userA tx.userB) = some n
  finds : tx.Finds s.db

/-- What remains of a request alters no direct room, and asks for none of a user with
    themselves. -/
structure Tame (db : Database) (p : RoomProc Response) : Prop where
  shut : ∀ r, NonDirect db r ∨ p.Never (Shut r) (Alters r)
  distinct : p.Never Proc.Always SelfDirect

/-- The result reports a new room for the two users. -/
def DirectResult.creates (a b : UUID) (e : DirectResult) : Bool :=
  e.created && ((e.userA = a && e.userB = b) || (e.userA = b && e.userB = a))

structure DirectResult.Good (db : Database) (e : DirectResult) : Prop where
  distinct : e.userA ≠ e.userB
  pair : PairRoom db e.userA e.userB e.room
  exact : e.Exact

structure DirectInv (hash : UUID → UUID → ℕ) (s : DirectState) : Prop where
  tables : DirectDb s.db
  requests : ∀ n p, s.requests n = some p → Tame s.db p
  txs : ∀ n tx, s.txs n = some tx → tx.Sound hash s n
  logged : ∀ e ∈ s.log, e.Good s.db
  created : ∀ a b room, a ≠ b → PairRoom s.db a b room → s.log.countP (·.creates a b) = 1
  uncreated : ∀ a b, a ≠ b → (∀ room, ¬ PairRoom s.db a b room) →
    s.log.countP (·.creates a b) = 0

variable {s s' : DirectState} {n : ℕ} {p : RoomProc Response}

/-- The findings of a call only depend on the rooms of its pair. -/
theorem DirectTx.Finds.mono
    (hpair : ∀ room, PairRoom db' tx.userA tx.userB room ↔ PairRoom db tx.userA tx.userB room)
    (hrows : ∀ room, PairRoom db tx.userA tx.userB room →
      fixedRows db' room.id = fixedRows db room.id) (h : tx.Finds db) : tx.Finds db' := by
  have hnone : (∀ room, ¬ PairRoom db tx.userA tx.userB room) →
      ∀ room, ¬ PairRoom db' tx.userA tx.userB room :=
        fun h room hroom => h room ((hpair room).mp hroom)
  unfold DirectTx.Finds at h ⊢
  cases hpoint : tx.point <;> rw [hpoint] at h <;> dsimp only at h ⊢
  case found room => exact (hpair room).mpr h
  case reactivated room rows before =>
    refine ⟨(hpair room).mpr h.1, fun v hv => ?_, h.2.2⟩
    rw [hrows room h.1]
    exact h.2.1 v hv
  case missing => exact hnone h
  case insertedRoom => exact hnone h
  case insertedA => exact hnone h
  case insertedB before => exact ⟨hnone h.1, h.2⟩

theorem DirectTx.Finds.calm (hcalm : Calm db db') (h : tx.Finds db) : tx.Finds db' :=
  h.mono (fun _ => pairRoom_calm hcalm) fun room hroom => hcalm.rows room hroom.mem hroom.direct

theorem Tame.mono (hkept : ∀ room ∈ db.rooms, room ∈ db'.rooms) (h : Tame db p) : Tame db' p := by
  refine ⟨fun r => ?_, h.distinct⟩
  rcases h.shut r with ⟨room, hroom, hid, htype⟩ | hnever
  · exact .inl ⟨room, hkept room hroom, hid, htype⟩
  · exact .inr hnever

/-- A new request is tame. -/
theorem Tame.handler (db : Database) (req : RoomRequest) : Tame db (req.handler parse) :=
  ⟨fun r => .inr (handler_shut parse req r), handler_distinct parse req⟩

/-- The answer of a store call that did not go through, and of one that is not about
    a membership or a room, shuts every room. -/
theorem Tame.next {o : RoomOp} {k : o.Res → RoomProc Response} {res : o.Res}
    (hshut : ∀ r, ¬ NonDirect db r → Shut r o res) (h : Tame db (.op o k)) : Tame db (k res) := by
  refine ⟨fun r => ?_, h.distinct.next trivial⟩
  rcases h.shut r with hr | hnever
  · exact .inl hr
  · by_cases hr : NonDirect db r
    · exact .inl hr
    · exact .inr (hnever.next (hshut r hr))

theorem failed_shut (o : RoomOp) (r : UUID) : Shut r o (failed o) := by
  cases o with
  | getMembership r' u => exact fun _ m hm => nomatch hm
  | getRoomByID r' => exact fun _ room hroom => nomatch hroom
  | _ => trivial

/-! ## The steps -/

theorem DirectInv.resume (hinv : DirectInv hash s) (hp : Tame s.db p) :
    DirectInv hash (s.resume n p) where
  tables := hinv.tables
  requests n' p' h := by
    have h : Function.update s.requests n (some p) n' = some p' := h
    rcases eq_or_ne n' n with rfl | hne
    · rw [Function.update_self] at h
      exact Option.some.inj h ▸ hp
    · rw [Function.update_of_ne hne] at h
      exact hinv.requests n' p' h
  txs n' tx' h :=
    let hsound := hinv.txs n' tx' h
    ⟨hsound.distinct, hsound.holds, hsound.finds⟩
  logged := hinv.logged
  created := hinv.created
  uncreated := hinv.uncreated

/-- The tables change, and no direct room with them. -/
theorem DirectInv.calm (hinv : DirectInv hash s) (hcalm : Calm s.db db') (calls : ℕ) :
    DirectInv hash { s with db := db', calls } where
  tables := hinv.tables.calm hcalm
  requests n' p' h := (hinv.requests n' p' h).mono hcalm.kept
  txs n' tx' h :=
    let hsound := hinv.txs n' tx' h
    ⟨hsound.distinct, hsound.holds, hsound.finds.calm hcalm⟩
  logged e he :=
    let hgood := hinv.logged e he
    ⟨hgood.distinct, (pairRoom_calm hcalm).mpr hgood.pair, hgood.exact⟩
  created a b room hne h := hinv.created a b room hne ((pairRoom_calm hcalm).mp h)
  uncreated a b hne h :=
    hinv.uncreated a b hne fun room hroom => h room ((pairRoom_calm hcalm).mpr hroom)

/-- A transaction begins, or goes on to a point that it has reached soundly. -/
theorem DirectInv.setTx (hinv : DirectInv hash s) (calls : ℕ) (advisory : ℕ → Option ℕ)
    (locks : UUID × UUID → Option ℕ)
    (hadvisory : ∀ key n', n' ≠ n → s.advisory key = some n' → advisory key = some n')
    (hsound : tx.Sound hash { s with advisory } n) :
    DirectInv hash { s with
      calls, advisory, locks, txs := Function.update s.txs n (some tx) } where
  tables := hinv.tables
  requests := hinv.requests
  txs n' tx' h := by
    have h : Function.update s.txs n (some tx) n' = some tx' := h
    rcases eq_or_ne n' n with rfl | hne
    · rw [Function.update_self] at h
      obtain rfl := Option.some.inj h
      exact ⟨hsound.distinct, hsound.holds, hsound.finds⟩
    · rw [Function.update_of_ne hne] at h
      have hold := hinv.txs n' tx' h
      exact ⟨hold.distinct, fun hpoint => hadvisory _ _ hne (hold.holds hpoint), hold.finds⟩
  logged := hinv.logged
  created := hinv.created
  uncreated := hinv.uncreated

/-- A transaction ends; the rest of its handler is tame. -/
theorem DirectInv.finish (hinv : DirectInv hash s) (hp : Tame s.db p) :
    DirectInv hash (s.finish n p) where
  tables := hinv.tables
  requests := (hinv.resume (n := n) hp).requests
  txs n' tx' h := by
    have h : Function.update s.txs n none n' = some tx' := h
    rcases eq_or_ne n' n with rfl | hne
    · rw [Function.update_self] at h
      cases h
    · rw [Function.update_of_ne hne] at h
      have hold := hinv.txs n' tx' h
      refine ⟨hold.distinct, fun hpoint => ?_, hold.finds⟩
      show (if s.advisory _ = some n then none else s.advisory _) = some n'
      rw [hold.holds hpoint, if_neg fun heq => hne (Option.some.inj heq)]
  logged := hinv.logged
  created := hinv.created
  uncreated := hinv.uncreated

theorem not_creates {e : DirectResult} (h : e.created = false) : ¬ e.creates a b = true := by
  simp [DirectResult.creates, h]

/-- A call returns a room that was there. -/
theorem DirectInv.returns {e : DirectResult} (hinv : DirectInv hash s) (hgood : e.Good s.db)
    (hcreated : e.created = false) : DirectInv hash (s.commit s.db e) where
  tables := hinv.tables
  requests := hinv.requests
  txs n' tx' h :=
    let hsound := hinv.txs n' tx' h
    ⟨hsound.distinct, hsound.holds, hsound.finds⟩
  logged e' he' := by
    rcases List.mem_append.mp he' with he' | he'
    · exact hinv.logged e' he'
    · exact List.mem_singleton.mp he' ▸ hgood
  created a b room hne h := by
    show (s.log ++ [e]).countP _ = 1
    rw [List.countP_append, List.countP_singleton, if_neg (not_creates hcreated)]
    exact hinv.created a b room hne h
  uncreated a b hne h := by
    show (s.log ++ [e]).countP _ = 0
    rw [List.countP_append, List.countP_singleton, if_neg (not_creates hcreated)]
    exact hinv.uncreated a b hne h

theorem pairKey_comm (hash : UUID → UUID → ℕ) (a b : UUID) :
    pairKey hash a b = pairKey hash b a := by
  rw [pairKey, pairKey, min_comm, max_comm]

/-- A call that holds the lock of the pair returns a room that it has inserted. -/
theorem DirectInv.inserts {before : List RoomMember} (hinv : DirectInv hash s)
    (hfree : s.advisory (pairKey hash tx.userA tx.userB) = none) (hne : tx.userA ≠ tx.userB)
    (hnone : ∀ room, ¬ PairRoom s.db tx.userA tx.userB room)
    (hexact : DirectResult.Exact
      ⟨tx.userA, tx.userB, tx.room, true, false, before, before ++ [tx.rowB]⟩)
    (h : tx.inserts s.db = .ok db') :
    DirectInv hash (s.commit db'
      ⟨tx.userA, tx.userB, tx.room, true, false, before, before ++ [tx.rowB]⟩) := by
  have hpair : ∀ a b room, PairRoom db' a b room ↔ PairRoom s.db a b room ∨
      (room = tx.room ∧ (a = tx.userA ∨ a = tx.userB) ∧ (b = tx.userA ∨ b = tx.userB)) :=
    fun _ _ _ => pairRoom_inserts hinv.tables.referenced h
  obtain ⟨hdb, hfresh, htouch, -⟩ := inserts_ok h
  have hkept : ∀ room ∈ s.db.rooms, room ∈ db'.rooms := by
    intro room hroom
    rw [hdb]
    exact List.mem_append_left _ hroom
  -- two different users that both are of the pair are the pair
  have hsame : ∀ {a b}, a ≠ b → (a = tx.userA ∨ a = tx.userB) → (b = tx.userA ∨ b = tx.userB) →
      (tx.userA = a ∧ tx.userB = b) ∨ (tx.userA = b ∧ tx.userB = a) := by
    rintro a b hab (rfl | rfl) (rfl | rfl)
    · exact absurd rfl hab
    · exact .inl ⟨rfl, rfl⟩
    · exact .inr ⟨rfl, rfl⟩
    · exact absurd rfl hab
  refine ⟨hinv.tables.inserts hne hnone h, fun n' p' h' => (hinv.requests n' p' h').mono hkept,
    fun n' tx' h' => ?_, fun e he => ?_, fun a b room hab hroom => ?_, fun a b hab hno => ?_⟩
  · -- a call for the same pair does not hold the lock, so it has found nothing yet
    have hold := hinv.txs n' tx' h'
    refine ⟨hold.distinct, hold.holds, ?_⟩
    by_cases hpoint : tx'.point = .begun
    · rw [DirectTx.Finds, hpoint]
      trivial
    have hother : ∀ room, PairRoom db' tx'.userA tx'.userB room ↔
        PairRoom s.db tx'.userA tx'.userB room := by
      intro room
      rw [hpair]
      refine or_iff_left ?_
      rintro ⟨-, ha, hb⟩
      have hheld := hold.holds hpoint
      rcases hsame hold.distinct ha hb with ⟨hA, hB⟩ | ⟨hA, hB⟩
      · rw [← hA, ← hB, hfree] at hheld
        cases hheld
      · rw [pairKey_comm, ← hA, ← hB, hfree] at hheld
        cases hheld
    refine hold.finds.mono hother fun room hroom => ?_
    show fixedRows db' room.id = fixedRows s.db room.id
    rw [fixedRows, fixedRows, htouch.others room.id (hfresh room hroom.mem)]
  · rcases List.mem_append.mp he with he | he
    · have hgood := hinv.logged e he
      exact ⟨hgood.distinct, (hpair _ _ _).mpr (.inl hgood.pair), hgood.exact⟩
    · rw [List.mem_singleton.mp he]
      exact ⟨hne, (hpair _ _ _).mpr (.inr ⟨rfl, .inl rfl, .inr rfl⟩), hexact⟩
  · show (s.log ++ [_]).countP _ = 1
    rw [List.countP_append, List.countP_singleton]
    by_cases hnew : (tx.userA = a ∧ tx.userB = b) ∨ (tx.userA = b ∧ tx.userB = a)
    · have hold : s.log.countP (·.creates a b) = 0 := by
        refine hinv.uncreated a b hab fun room' hroom' => ?_
        rcases hnew with ⟨rfl, rfl⟩ | ⟨rfl, rfl⟩
        · exact hnone room' hroom'
        · exact hnone room' hroom'.symm
      rw [hold, if_pos (by simpa [DirectResult.creates] using hnew)]
    · rw [if_neg (by simpa [DirectResult.creates] using hnew)]
      rcases (hpair a b room).mp hroom with hroom | ⟨-, ha, hb⟩
      · exact hinv.created a b room hab hroom
      · exact absurd (hsame hab ha hb) hnew
  · show (s.log ++ [_]).countP _ = 0
    have hnew : ¬ ((tx.userA = a ∧ tx.userB = b) ∨ (tx.userA = b ∧ tx.userB = a)) := by
      rintro (⟨rfl, rfl⟩ | ⟨rfl, rfl⟩)
      · exact hno _ ((hpair _ _ _).mpr (.inr ⟨rfl, .inl rfl, .inr rfl⟩))
      · exact hno _ ((hpair _ _ _).mpr (.inr ⟨rfl, .inr rfl, .inl rfl⟩))
    rw [List.countP_append, List.countP_singleton,
      if_neg (by simpa [DirectResult.creates] using hnew)]
    exact hinv.uncreated a b hab fun room hroom => hno room ((hpair a b room).mpr (.inl hroom))

/-- `findStmt` finds a room of the pair when there is one. -/
theorem findDirectRoom_some (h : findDirectRoom a b db = some room) : PairRoom db a b room := by
  have hmem := List.argmin_mem (Option.mem_def.mpr h)
  rw [List.mem_filter, Bool.and_eq_true, Bool.and_eq_true, decide_eq_true_eq, List.any_eq_true,
    List.any_eq_true] at hmem
  exact ⟨hmem.1, hmem.2.1.1, hmem.2.1.2, hmem.2.2⟩

theorem findDirectRoom_none (h : findDirectRoom a b db = none) (room : Room) :
    ¬ PairRoom db a b room := by
  intro hpair
  have hnil := List.argmin_eq_none.mp h
  rw [List.filter_eq_nil_iff] at hnil
  refine hnil room hpair.mem ?_
  rw [Bool.and_eq_true, Bool.and_eq_true, decide_eq_true_eq, List.any_eq_true, List.any_eq_true]
  exact ⟨⟨hpair.direct, hpair.rowA⟩, hpair.rowB⟩

/-- The inserted rows are active, and the peer had no row before. -/
theorem inserted_exact
    (h : insertMember tx.stamp.now (tx.stamp.uuid 2) tx.room.id tx.userB .member
      { db with rooms := db.rooms ++ [tx.room], members := db.members ++ [tx.rowA] } = .ok db') :
    DirectResult.Exact ⟨tx.userA, tx.userB, tx.room, true, false, db.members ++ [tx.rowA],
      db.members ++ [tx.rowA] ++ [tx.rowB]⟩ where
  activeA := ⟨tx.rowA, by simp, RoomMember.isActiveRow_iff.mpr ⟨rfl, rfl, rfl⟩⟩
  activeB := ⟨tx.rowB, by simp, RoomMember.isActiveRow_iff.mpr ⟨rfl, rfl, rfl⟩⟩
  peer := by
    obtain ⟨-, -, hnoRow⟩ := insertMember_ok h
    refine iff_of_false Bool.false_ne_true ?_
    rintro ⟨m, hm, hrow, -⟩
    rw [hnoRow m hm] at hrow
    cases hrow

/-- One statement of a call keeps the invariant. -/
theorem directNext_inv {k : Except StoreErr (Room × Bool × Bool) → RoomProc Response}
    (hinv : DirectInv hash s) (htx : s.txs n = some tx)
    (hreq : s.requests n = some (.op (.getOrCreateDirectRoom a b) k))
    (h : directNext hash s n tx k = some s') : DirectInv hash s' := by
  have hsound := hinv.txs n tx htx
  have hfinds := hsound.finds
  have hrest : ∀ res, Tame s.db (k res) := by
    intro res
    refine Tame.next ?_ (hinv.requests n _ hreq)
    intro r _
    trivial
  have hfail := hinv.finish (n := n) (hrest (.error .internal))
  have hsame : ∀ key n', n' ≠ n → s.advisory key = some n' → s.advisory key = some n' :=
    fun _ _ _ h => h
  have hset : tx.point ≠ .begun → ∀ point locks, DirectTx.Finds s.db { tx with point } →
      DirectInv hash { s.setPoint n tx point with locks } := by
    intro hpoint point locks hnew
    exact hinv.setTx s.calls s.advisory locks hsame
      ⟨hsound.distinct, fun _ => hsound.holds hpoint, hnew⟩
  unfold directNext at h
  unfold DirectTx.Finds at hfinds
  cases hpoint : tx.point with
  | begun =>
    simp only [hpoint] at h
    split_ifs at h with hfree
    cases h
    refine hinv.setTx s.calls _ s.locks ?_ ⟨hsound.distinct, fun _ => Function.update_self _ _ _,
      trivial⟩
    -- who holds the key is this call
    intro key n' hne hheld
    rw [Function.update_of_ne]
    · exact hheld
    · rintro rfl
      rcases hfree with hfree | hfree <;> rw [hheld] at hfree
      · cases hfree
      · exact hne (Option.some.inj hfree)
  | locked =>
    simp only [hpoint] at h
    have hne : tx.point ≠ .begun := by rw [hpoint]; exact nofun
    cases hfind : findDirectRoom tx.userA tx.userB s.db with
    | some room =>
      rw [hfind] at h
      cases h
      exact hset hne (.found room) s.locks (findDirectRoom_some hfind)
    | none =>
      rw [hfind] at h
      cases h
      exact hset hne .missing s.locks (findDirectRoom_none hfind)
  | found room =>
    simp only [hpoint] at h hfinds
    have hne : tx.point ≠ .begun := by rw [hpoint]; exact nofun
    split_ifs at h
    cases h
    refine hset hne (.reactivated room (reactivatedRows tx.stamp.now room.id tx.userA tx.userB
      s.db.members) s.db.members) _ ⟨hfinds, ?_, ?_⟩
    · exact reactivatedRows_versions _ _ _ _ _
    · exact reactivated_exact _ hfinds
  | reactivated room rows before =>
    simp only [hpoint, Option.some.injEq] at h hfinds
    obtain ⟨hpair, hversions, hexact⟩ := hfinds
    subst h
    have hdone := (hinv.returns ⟨hsound.distinct, hpair, hexact⟩ rfl).finish (n := n)
      (hrest (.ok (room, false, rows.any fun v => v.userID = tx.userB)))
    exact hdone.calm (overlay_calm hinv.tables.keyed hversions) s.calls
  | missing =>
    simp only [hpoint] at h hfinds
    have hne : tx.point ≠ .begun := by rw [hpoint]; exact nofun
    split at h
    · exact Option.some.inj h ▸ hfail
    · exact Option.some.inj h ▸ hset hne .insertedRoom s.locks hfinds
  | insertedRoom =>
    simp only [hpoint] at h hfinds
    have hne : tx.point ≠ .begun := by rw [hpoint]; exact nofun
    split at h
    · exact Option.some.inj h ▸ hfail
    · exact Option.some.inj h ▸ hset hne .insertedA s.locks hfinds
  | insertedA =>
    simp only [hpoint] at h hfinds
    have hne : tx.point ≠ .begun := by rw [hpoint]; exact nofun
    split at h
    · exact Option.some.inj h ▸ hfail
    · rename_i hinsert
      exact Option.some.inj h ▸ hset hne _ s.locks ⟨hfinds, inserted_exact hinsert⟩
  | insertedB before =>
    simp only [hpoint] at h hfinds
    have hne : tx.point ≠ .begun := by rw [hpoint]; exact nofun
    split at h
    · exact Option.some.inj h ▸ hfail
    · rename_i db' hinserts
      cases h
      have hdone := hinv.finish (n := n) (hrest (.ok (tx.room, true, false)))
      refine hdone.inserts ?_ hsound.distinct hfinds.1 hfinds.2 hinserts
      -- the lock of the pair was this call's
      show (if s.advisory _ = some n then none else s.advisory _) = none
      rw [hsound.holds hne, if_pos rfl]

/-- Every step keeps the invariant. -/
theorem direct_step (hinv : DirectInv hash s) {act : DirectAction}
    (h : s.step parse hash stamps act = some s') : DirectInv hash s' := by
  unfold DirectState.step at h
  cases act with
  | request n req =>
    cases hreq : s.requests n with
    | some p => simp [hreq] at h
    | none =>
      simp only [hreq, Option.some.injEq] at h
      exact h ▸ hinv.resume (Tame.handler s.db req)
  | serve n =>
    dsimp only at h
    split at h
    · rename_i a b k htx hreq
      cases h
      have hdistinct : a ≠ b := (hinv.requests n _ hreq).distinct.not
      exact hinv.setTx (s.calls + 1) s.advisory s.locks (fun _ _ _ h => h)
        ⟨hdistinct, fun hpoint => absurd rfl hpoint, trivial⟩
    · rename_i o k hdirect htx hreq
      split_ifs at h
      cases h
      have htame := hinv.requests n _ hreq
      have hcalm : Calm s.db (o.serve stamps ⟨s.db, s.calls, []⟩).2.db := by
        refine serve_calm stamps (s := ⟨s.db, s.calls, []⟩) hinv.tables.keyed ?_ fun r hr => ?_
        · rintro a b rfl
          exact hdirect a b k rfl HEq.rfl
        · exact (htame.shut r).resolve_right fun hnever => hnever.not hr
      refine (hinv.calm hcalm _).resume ((htame.next fun r hr => ?_).mono hcalm.kept)
      refine serve_shut stamps (s := ⟨s.db, s.calls, []⟩) hinv.tables.referenced ?_ hr o
      intro room hroom hdirect x hx
      obtain ⟨y, z, hrows, -, hy, hz⟩ := hinv.tables.rows room hroom hdirect
      have hmem : x ∈ [y, z] := hrows ▸ hx
      simp only [List.mem_cons, List.not_mem_nil, or_false] at hmem
      rcases hmem with rfl | rfl
      · exact hy.1
      · exact hz.1
    · cases h
  | next n =>
    dsimp only at h
    split at h
    · rename_i tx a b k htx hreq
      exact directNext_inv hinv htx hreq h
    · cases h
  | fail n =>
    dsimp only at h
    split at h
    · rename_i tx a b k htx hreq
      refine Option.some.inj h ▸ hinv.finish ?_
      refine Tame.next ?_ (hinv.requests n _ hreq)
      intro r _
      trivial
    · rename_i o k htx hreq
      exact Option.some.inj h ▸ hinv.resume
        ((hinv.requests n _ hreq).next fun r _ => failed_shut o r)
    · cases h

theorem start_inv (hash : UUID → UUID → ℕ) (users : List User) :
    DirectInv hash (DirectState.start users) where
  tables := by
    refine ⟨⟨.nil, .nil, .nil⟩, fun m hm => ?_, fun room hroom => ?_, fun a b room _ _ h => ?_⟩
    · cases hm
    · cases hroom
    · cases h.mem
  requests := nofun
  txs := nofun
  logged := nofun
  created a b room _ h := by cases h.mem
  uncreated _ _ _ _ := rfl

/-- Two users have at most one direct room; a direct room has the rows of two users,
    plain members who were never banned; and what `GetOrCreateDirectRoom` has returned
    is that room, active for both, created by one call of the pair. -/
theorem direct_rooms_unique (parse : String → Option UUID) (hash : UUID → UUID → ℕ)
    (stamps : ℕ → Stamp) (users : List User) (s : DirectState)
    (hrun : Reach (DirectState.step parse hash stamps) Unguarded (DirectState.start users) s) :
    (∀ a b room room', a ≠ b → PairRoom s.db a b room → PairRoom s.db a b room' → room = room') ∧
    (∀ room ∈ s.db.rooms, room.type = .direct → ∃ m₁ m₂,
      s.db.members.filter (fun m => m.roomID = room.id) = [m₁, m₂] ∧ m₁.userID ≠ m₂.userID ∧
      m₁.role = .member ∧ m₂.role = .member ∧ m₁.bannedAt = none ∧ m₂.bannedAt = none) ∧
    (∀ a b room, a ≠ b → PairRoom s.db a b room → s.log.countP (·.creates a b) = 1) ∧
    ∀ e ∈ s.log, PairRoom s.db e.userA e.userB e.room ∧ e.Exact ∧
      s.log.countP (·.creates e.userA e.userB) = 1 := by
  have hinv : DirectInv hash s := hrun.invariant (DirectInv hash)
    (fun _ _ _ hinv _ hs => direct_step hinv hs) (start_inv hash users)
  refine ⟨hinv.tables.unique, fun room hroom hdirect => ?_, hinv.created, fun e he => ?_⟩
  · obtain ⟨x, y, hrows, hne, hx, hy⟩ := hinv.tables.rows room hroom hdirect
    obtain ⟨m₁, ms, hfilter, rfl, hms⟩ := List.map_eq_cons_iff.mp hrows
    obtain ⟨m₂, ms', rfl, rfl, hnil⟩ := List.map_eq_cons_iff.mp hms
    rw [List.map_eq_nil_iff] at hnil
    subst hnil
    exact ⟨m₁, m₂, hfilter, hne, hx.1, hy.1, hx.2, hy.2⟩
  · have hgood := hinv.logged e he
    exact ⟨hgood.pair, hgood.exact, hinv.created _ _ _ hgood.distinct hgood.pair⟩

/-- The text of the direct room of the peers. -/
def directID : String := "00000000-0000-0000-0000-000000000019"

def parsePeer (text : String) : Option UUID := if text = directID then some 25 else parseId text

/-- User `u` asks for the direct room with `peer`. -/
def resumeDirect (u : UUID) (peer : String) : RoomRequest :=
  .createRoom u (some ⟨"direct", "", none, peer, none, []⟩)

/-- Both users ask at once; then user 2 leaves, and user 1 asks again. -/
def bothAsk : List DirectAction :=
  [.request 0 (resumeDirect 1 idTwo), .request 1 (resumeDirect 2 idOne), .serve 0, .serve 1,
    .serve 0, .serve 1, .next 0, .next 0, .next 0, .next 0, .next 0, .next 0] ++
  [.next 1, .next 1, .next 1, .next 1] ++
  [.request 2 (.leaveRoom 2 directID), .serve 2] ++
  [.request 3 (resumeDirect 1 idTwo), .serve 3, .serve 3, .next 3, .next 3, .next 3, .next 3]

def directAfter (as : List DirectAction) : DirectState :=
  (exec (DirectState.step parsePeer (fun _ _ => 0) fiveStamps)
    (DirectState.start [⟨1, "alice"⟩, ⟨2, "bob"⟩]) as).getD (DirectState.start [])

theorem direct_rooms_unique_resumed :
    (directAfter bothAsk).log.map (fun e => (e.userA, e.room.id, e.created, e.peerReactivated)) =
      [(1, 25, true, false), (2, 25, false, false), (1, 25, false, true)] ∧
    ∀ a b room room', a ≠ b → PairRoom (directAfter bothAsk).db a b room →
      PairRoom (directAfter bothAsk).db a b room' → room = room' := by
  have hexec : exec (DirectState.step parsePeer (fun _ _ => 0) fiveStamps)
      (DirectState.start [⟨1, "alice"⟩, ⟨2, "bob"⟩]) bothAsk = some (directAfter bothAsk) := rfl
  have hrun := Reach.of_exec (meets_unguarded _ _ bothAsk) hexec
  exact ⟨by decide, (direct_rooms_unique _ _ _ _ _ hrun).1⟩

end ConvoyChat.System
