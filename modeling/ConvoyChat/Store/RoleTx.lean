import ConvoyChat.Lib.ReadCommitted
import ConvoyChat.Lib.Runs
import ConvoyChat.Store.RoomLemmas

/-!
# Concurrent role changes

`ChangeMemberRole` (`internal/store/rooms.go` lines 143–202) statement by
statement, for any number of transactions at once. Its row lock is on the row of
the *target*, while the admin count reads the other rows without locking them:
two transactions that demote two different admins can both count two.

* `roleStep_cases`: all that one statement can do.
* `SpareAdmin`: the invariant, an active admin whom no transaction that has
  passed its count is about to demote.
* `roleTxs_keep_admin`: in a run in which each count that is passed leaves such
  an admin, the room never loses its last one.
* `two_demotions_no_admin`: a run without that.
-/

namespace ConvoyChat.Store

open ConvoyChat.Lib

/-- Where a `ChangeMemberRole` call is. -/
inductive RolePoint
  | begun
  /-- `SELECT role … FOR UPDATE` has returned `currentRole` -/
  | locked (currentRole : MemberRole)
  /-- the admin count was at least two -/
  | counted
  /-- the `UPDATE` is done, the `COMMIT` is next -/
  | updated (currentRole : MemberRole)
  | returned (result : Except StoreErr Bool)
deriving DecidableEq

/-- A `ChangeMemberRole(roomID, userID, newRole)` call. -/
structure RoleTx where
  roomID : UUID
  userID : UUID
  newRole : MemberRole
  point : RolePoint
deriving DecidableEq

/-- A `room_members` row is identified by its `UNIQUE (room_id, user_id)`. -/
def RoomMember.rowKey (m : RoomMember) : UUID × UUID := (m.roomID, m.userID)

def RoleTx.rowKey (tx : RoleTx) : UUID × UUID := (tx.roomID, tx.userID)

/-- The table and the calls, by transaction number. -/
structure RoleState where
  table : Table RoomMember (UUID × UUID) ℕ
  txs : ℕ → Option RoleTx

inductive RoleAction
  | begin (t : ℕ) (roomID userID : UUID) (newRole : MemberRole)
  /-- the next statement of `t` -/
  | next (t : ℕ)
  /-- a statement of `t` fails and the deferred rollback runs -/
  | fail (t : ℕ)

def RoleState.setPoint (s : RoleState) (t : ℕ) (tx : RoleTx) (p : RolePoint) : RoleState :=
  { s with txs := Function.update s.txs t (some { tx with point := p }) }

/-- Return from the call; the deferred `Rollback` runs first. -/
def RoleState.returns (s : RoleState) (t : ℕ) (tx : RoleTx) (r : Except StoreErr Bool) :
    RoleState :=
  { s.setPoint t tx (.returned r) with table := s.table.rollback t }

/-- The `UPDATE` of the locked row. -/
def RoleState.update (s : RoleState) (t : ℕ) (tx : RoleTx) (currentRole : MemberRole) :
    RoleState :=
  match (s.table.view RoomMember.rowKey t).find? (·.isActiveRow tx.roomID tx.userID) with
  | none => s.setPoint t tx (.updated currentRole)
  | some m =>
    { s.setPoint t tx (.updated currentRole) with
      table := s.table.write t tx.rowKey { m with role := tx.newRole } }

/-- The next statement of transaction `t`; `none` while it waits for a lock. -/
def roleNext (s : RoleState) (t : ℕ) (tx : RoleTx) : Option RoleState :=
  match tx.point with
  | .begun =>
    match (s.table.view RoomMember.rowKey t).find? (·.isActiveRow tx.roomID tx.userID) with
    | none => some (s.returns t tx (.error .notFound))
    | some m =>
      if s.table.Free t tx.rowKey then
        some { s.setPoint t tx (.locked m.role) with table := s.table.acquire t tx.rowKey }
      else none
  | .locked currentRole =>
    if currentRole = tx.newRole then some (s.returns t tx (.ok false))
    else if currentRole = .admin && tx.newRole ≠ .admin then
      if (s.table.view RoomMember.rowKey t).countP (·.isAdminIn tx.roomID) ≤ 1 then
        some (s.returns t tx (.error .lastAdmin))
      else some (s.setPoint t tx .counted)
    else some (s.update t tx currentRole)
  | .counted => some (s.update t tx .admin)
  | .updated _ =>
    some { s.setPoint t tx (.returned (.ok true)) with
      table := s.table.commit RoomMember.rowKey t }
  | .returned _ => none

def roleStep (s : RoleState) : RoleAction → Option RoleState
  | .begin t roomID userID newRole =>
    match s.txs t with
    | some _ => none
    | none =>
      some { s with txs := Function.update s.txs t (some ⟨roomID, userID, newRole, .begun⟩) }
  | .next t =>
    match s.txs t with
    | none => none
    | some tx => roleNext s t tx
  | .fail t =>
    match s.txs t with
    | none => none
    | some tx =>
      match tx.point with
      | .returned _ => none
      | _ => some (s.returns t tx (.error .internal))

/-! ## What a statement can do -/

/-- All that one action can do, with what the code has checked. -/
inductive RoleMove (s : RoleState) (t : ℕ) : RoleAction → RoleState → Prop
  | begin {roomID userID newRole} : s.txs t = none →
      RoleMove s t (.begin t roomID userID newRole)
        { s with txs := Function.update s.txs t (some ⟨roomID, userID, newRole, .begun⟩) }
  | returns {a tx r} : s.txs t = some tx → RoleMove s t a (s.returns t tx r)
  | select {tx m} : s.txs t = some tx → tx.point = .begun →
      (s.table.view RoomMember.rowKey t).find? (·.isActiveRow tx.roomID tx.userID) = some m →
      s.table.Free t tx.rowKey →
      RoleMove s t (.next t)
        { s.setPoint t tx (.locked m.role) with table := s.table.acquire t tx.rowKey }
  | count {tx} : s.txs t = some tx → tx.point = .locked .admin → tx.newRole ≠ .admin →
      1 < (s.table.view RoomMember.rowKey t).countP (·.isAdminIn tx.roomID) →
      RoleMove s t (.next t) (s.setPoint t tx .counted)
  | update {tx c} : s.txs t = some tx →
      (tx.point = .locked c ∧ (c = .admin → tx.newRole = .admin)) ∨
        (tx.point = .counted ∧ c = .admin) →
      RoleMove s t (.next t) (s.update t tx c)
  | commit {tx c} : s.txs t = some tx → tx.point = .updated c →
      RoleMove s t (.next t) { s.setPoint t tx (.returned (.ok true)) with
        table := s.table.commit RoomMember.rowKey t }

theorem roleNext_cases {s s' : RoleState} {t : ℕ} {tx : RoleTx} (htx : s.txs t = some tx)
    (h : roleNext s t tx = some s') : RoleMove s t (.next t) s' := by
  unfold roleNext at h
  split at h
  · rename_i hpoint
    split at h
    · cases h
      exact .returns htx
    · rename_i m hfind
      split_ifs at h with hfree
      cases h
      exact .select htx hpoint hfind hfree
  · rename_i c hpoint
    split_ifs at h with hsame hdemote hcount
    · cases h
      exact .returns htx
    · cases h
      exact .returns htx
    · cases h
      obtain ⟨rfl, hrole⟩ : c = .admin ∧ tx.newRole ≠ .admin := by simpa using hdemote
      exact .count htx hpoint hrole (Nat.lt_of_not_le hcount)
    · cases h
      refine .update htx (.inl ⟨hpoint, fun hc => ?_⟩)
      by_contra hrole
      exact hdemote (by simp [hc, hrole])
  · rename_i hpoint
    cases h
    exact .update htx (.inr ⟨hpoint, rfl⟩)
  · rename_i c hpoint
    cases h
    exact .commit htx hpoint
  · cases h

theorem roleStep_cases {s s' : RoleState} {a : RoleAction} (h : roleStep s a = some s') :
    ∃ t, RoleMove s t a s' := by
  cases a with
  | begin t roomID userID newRole =>
    simp only [roleStep] at h
    split at h
    · cases h
    · rename_i hnone
      cases h
      exact ⟨t, .begin hnone⟩
  | next t =>
    simp only [roleStep] at h
    split at h
    · cases h
    · rename_i tx htx
      exact ⟨t, roleNext_cases htx h⟩
  | fail t =>
    simp only [roleStep] at h
    split at h
    · cases h
    · rename_i tx htx
      split at h
      · cases h
      · cases h
        exact ⟨t, .returns htx⟩

/-! ## The spare admin -/

/-- `tx` has passed the count and will take the admin role from its target. -/
def RoleTx.Demotes (tx : RoleTx) : Prop :=
  tx.point = .counted ∨ (tx.point = .updated .admin ∧ tx.newRole ≠ .admin)

/-- No transaction that has passed its count is about to demote `m`. -/
def RoleState.Spared (s : RoleState) (m : RoomMember) : Prop :=
  ∀ t tx, s.txs t = some tx → tx.Demotes → tx.rowKey ≠ m.rowKey

/-- Room `r` has an active admin whom nobody is about to demote. -/
def SpareAdmin (r : UUID) (s : RoleState) : Prop :=
  ∃ m ∈ s.table.rows, m.isAdminIn r = true ∧ s.Spared m

/-- A count that is passed leaves, next to its own target, an active admin of the
    room whom no other transaction that has passed its count is about to demote. -/
def CountLeavesAdmin (s : RoleState) : RoleAction → Prop
  | .next t => ∀ tx, s.txs t = some tx → tx.point = .locked .admin → tx.newRole ≠ .admin →
      1 < (s.table.view RoomMember.rowKey t).countP (·.isAdminIn tx.roomID) →
      ∃ m ∈ s.table.rows, m.isAdminIn tx.roomID = true ∧ m.rowKey ≠ tx.rowKey ∧ s.Spared m
  | _ => True

/-- The role that the transaction has read under its lock. -/
def RolePoint.lockedRole : RolePoint → Option MemberRole
  | .locked c => some c
  | .counted => some .admin
  | .updated c => some c
  | _ => none

/-- Locks, uncommitted versions and committed rows agree with where each
    transaction is. -/
structure RoleInv (s : RoleState) : Prop where
  owned : s.table.Owned RoomMember.rowKey
  keys : (s.table.rows.map RoomMember.rowKey).Nodup
  pending : s.table.pending = []
  locks : ∀ t tx c, s.txs t = some tx → tx.point.lockedRole = some c →
    s.table.lock tx.rowKey = some t ∧ ∃ m ∈ s.table.rows, m.rowKey = tx.rowKey ∧ m.role = c
  writes : ∀ t k v, s.table.versions t k = some v → ∃ tx c, s.txs t = some tx ∧ k = tx.rowKey ∧
    tx.point = .updated c ∧ ∃ m ∈ s.table.rows, v = { m with role := tx.newRole }

theorem roleInv_fresh {rows : List RoomMember} (h : (rows.map RoomMember.rowKey).Nodup) :
    RoleInv ⟨.fresh rows, fun _ => none⟩ where
  owned := Table.owned_fresh rows
  keys := h
  pending := rfl
  locks _ _ _ h := by cases h
  writes _ _ _ h := by cases h

theorem RoleState.setPoint_txs {s : RoleState} {t t' : ℕ} {tx tx' : RoleTx} {p : RolePoint}
    (h : (s.setPoint t tx p).txs t' = some tx') :
    (t' = t ∧ tx' = { tx with point := p }) ∨ (t' ≠ t ∧ s.txs t' = some tx') :=
  update_eq_some h

theorem RoleState.setPoint_txs_other {s : RoleState} {t t' : ℕ} {tx : RoleTx} {p : RolePoint}
    (ht : t' ≠ t) : (s.setPoint t tx p).txs t' = s.txs t' := by
  unfold RoleState.setPoint
  simp [ht]

/-- A transaction that has written nothing sees the committed rows. -/
theorem RoleInv.view_eq {s : RoleState} (h : RoleInv s) {t : ℕ} {tx : RoleTx}
    (htx : s.txs t = some tx) (hpoint : ∀ c, tx.point ≠ .updated c) :
    s.table.view RoomMember.rowKey t = s.table.rows := by
  have hcur : ∀ m ∈ s.table.rows, s.table.current RoomMember.rowKey t m = m := by
    intro m _
    unfold Table.current
    cases hv : s.table.versions t m.rowKey with
    | none => rfl
    | some v =>
      obtain ⟨tx', c, htx', -, hp, -⟩ := h.writes t _ v hv
      rw [htx] at htx'
      cases htx'
      exact absurd hp (hpoint c)
  unfold Table.view
  rw [h.pending, List.map_congr_left hcur]
  simp

/-- The row that a statement finds for the target of `tx`. -/
theorem RoleInv.find_target {s : RoleState} (h : RoleInv s) {t : ℕ} {tx : RoleTx}
    (htx : s.txs t = some tx) (hpoint : ∀ c, tx.point ≠ .updated c) {m : RoomMember}
    (hfind : (s.table.view RoomMember.rowKey t).find? (·.isActiveRow tx.roomID tx.userID) =
      some m) :
    m ∈ s.table.rows ∧ m.rowKey = tx.rowKey := by
  rw [h.view_eq htx hpoint] at hfind
  obtain ⟨hr, hu, -⟩ := RoomMember.isActiveRow_iff.mp (List.find?_some hfind)
  refine ⟨List.mem_of_find?_eq_some hfind, ?_⟩
  simp [RoomMember.rowKey, RoleTx.rowKey, hr, hu]

/-- Moving `t` to a point at which it holds no row, with its locks released. -/
theorem RoleInv.finish {s : RoleState} (h : RoleInv s) {t : ℕ} {tx : RoleTx} {p : RolePoint}
    (hp : p.lockedRole = none) {rows : List RoomMember}
    (hkeys : (rows.map RoomMember.rowKey).Nodup)
    (hrows : ∀ m ∈ s.table.rows, s.table.lock m.rowKey ≠ some t → m ∈ rows) :
    RoleInv { s.setPoint t tx p with table := { s.table.rollback t with rows := rows } } where
  owned := h.owned.rollback
  keys := hkeys
  pending := by
    show s.table.pending.filter _ = []
    rw [h.pending]
    rfl
  locks := by
    intro t' tx' c htx' hc
    rcases RoleState.setPoint_txs htx' with ⟨-, rfl⟩ | ⟨ht, htx'⟩
    · rw [hp] at hc
      cases hc
    · obtain ⟨hlock, m, hm, hkey, hrole⟩ := h.locks t' tx' c htx' hc
      refine ⟨Table.rollback_lock_other ht hlock, m, hrows m hm ?_, hkey, hrole⟩
      rw [hkey, hlock]
      simpa using ht
  writes := by
    intro t' k v hv
    have ht : t' ≠ t := by
      rintro rfl
      simp [Table.rollback] at hv
    have hv' : s.table.versions t' k = some v := by
      rw [← Table.rollback_versions_other ht]
      exact hv
    obtain ⟨tx', c, htx', hk, hpt, m, hm, rfl⟩ := h.writes t' k v hv'
    obtain ⟨hlock, hkey⟩ := h.owned t' k _ hv'
    refine ⟨tx', c, ?_, hk, hpt, m, hrows m hm ?_, rfl⟩
    · exact (RoleState.setPoint_txs_other ht).trans htx'
    · rw [show m.rowKey = k from hkey, hlock]
      simpa using ht

theorem RoleInv.keys_commit {s : RoleState} (h : RoleInv s) (t : ℕ) :
    ((s.table.commit RoomMember.rowKey t).rows.map RoomMember.rowKey).Nodup := by
  have hmap : (s.table.commit RoomMember.rowKey t).rows.map RoomMember.rowKey =
      s.table.rows.map RoomMember.rowKey := by
    rw [Table.commit_rows, Table.view, h.pending]
    simp only [List.filter_nil, List.map_nil, List.append_nil, List.map_map]
    exact List.map_congr_left fun m _ => h.owned.key_current m
  rw [hmap]
  exact h.keys

/-- What the versions say survives a move of a transaction that has written nothing. -/
theorem RoleInv.writes_setPoint {s : RoleState} (h : RoleInv s) {t : ℕ} {tx : RoleTx}
    (htx : s.txs t = some tx) (hpoint : ∀ c, tx.point ≠ .updated c) (p : RolePoint) {t' : ℕ}
    {k : UUID × UUID} {v : RoomMember} (hv : s.table.versions t' k = some v) :
    ∃ tx' c, (s.setPoint t tx p).txs t' = some tx' ∧ k = tx'.rowKey ∧ tx'.point = .updated c ∧
      ∃ m ∈ s.table.rows, v = { m with role := tx'.newRole } := by
  obtain ⟨tx', c, htx', hk, hpt, hrow⟩ := h.writes t' k v hv
  have ht : t' ≠ t := by
    rintro rfl
    rw [htx] at htx'
    cases htx'
    exact hpoint c hpt
  exact ⟨tx', c, (RoleState.setPoint_txs_other ht).trans htx', hk, hpt, hrow⟩

theorem RoleMove.inv {s s' : RoleState} {t : ℕ} {a : RoleAction} (h : RoleInv s)
    (hmove : RoleMove s t a s') : RoleInv s' := by
  cases hmove with
  | begin hnone =>
    refine ⟨h.owned, h.keys, h.pending, ?_, ?_⟩
    · intro t' tx' c htx' hc
      rcases update_eq_some htx' with ⟨-, rfl⟩ | ⟨-, htx'⟩
      · cases hc
      · exact h.locks t' tx' c htx' hc
    · intro t' k v hv
      obtain ⟨tx', c, htx', hrest⟩ := h.writes t' k v hv
      have ht : t' ≠ t := by
        rintro rfl
        rw [hnone] at htx'
        cases htx'
      exact ⟨tx', c, by simpa [ht] using htx', hrest⟩
  | returns htx => exact h.finish rfl h.keys fun m hm _ => hm
  | select htx hpoint hfind hfree =>
    rename_i tx m
    have hnot : ∀ c, tx.point ≠ .updated c := by simp [hpoint]
    obtain ⟨hm, hkey⟩ := h.find_target htx hnot hfind
    refine ⟨h.owned.acquire hfree, h.keys, h.pending, ?_, fun _ _ _ => h.writes_setPoint htx hnot _⟩
    intro t' tx' c htx' hc
    rcases RoleState.setPoint_txs htx' with ⟨rfl, rfl⟩ | ⟨ht, htx'⟩
    · cases hc
      exact ⟨Table.acquire_lock_self, m, hm, hkey, rfl⟩
    · obtain ⟨hlock, hrow⟩ := h.locks t' tx' c htx' hc
      exact ⟨Table.acquire_lock_of_free hfree hlock, hrow⟩
  | count htx hpoint hrole hcount =>
    rename_i tx
    have hnot : ∀ c, tx.point ≠ .updated c := by simp [hpoint]
    refine ⟨h.owned, h.keys, h.pending, ?_, fun _ _ _ => h.writes_setPoint htx hnot _⟩
    intro t' tx' c htx' hc
    rcases RoleState.setPoint_txs htx' with ⟨rfl, rfl⟩ | ⟨ht, htx'⟩
    · cases hc
      exact h.locks t' tx .admin htx (by rw [hpoint]; rfl)
    · exact h.locks t' tx' c htx' hc
  | update htx hpoint =>
    rename_i tx c
    have hrole : tx.point.lockedRole = some c := by
      rcases hpoint with ⟨hp, -⟩ | ⟨hp, rfl⟩
      · rw [hp]; rfl
      · rw [hp]; rfl
    have hnot : ∀ c', tx.point ≠ .updated c' := by
      intro c' hp'
      rcases hpoint with ⟨hp, -⟩ | ⟨hp, -⟩
      · rw [hp] at hp'; cases hp'
      · rw [hp] at hp'; cases hp'
    have hlocks : ∀ t' tx' c', (s.setPoint t tx (.updated c)).txs t' = some tx' →
        tx'.point.lockedRole = some c' → s.table.lock tx'.rowKey = some t' ∧
          ∃ m ∈ s.table.rows, m.rowKey = tx'.rowKey ∧ m.role = c' := by
      intro t' tx' c' htx' hc
      rcases RoleState.setPoint_txs htx' with ⟨rfl, rfl⟩ | ⟨ht, htx'⟩
      · cases hc
        exact h.locks t' tx c htx hrole
      · exact h.locks t' tx' c' htx' hc
    unfold RoleState.update
    split
    · exact ⟨h.owned, h.keys, h.pending, hlocks, fun _ _ _ => h.writes_setPoint htx hnot _⟩
    · rename_i m hfind
      obtain ⟨hm, hkey⟩ := h.find_target htx hnot hfind
      refine ⟨h.owned.write (h.locks t tx c htx hrole).1 hkey, h.keys, h.pending, hlocks, ?_⟩
      intro t' k v hv
      rcases Table.write_versions_cases hv with ⟨rfl, rfl, rfl⟩ | hv
      · exact ⟨{ tx with point := .updated c }, c, by simp [RoleState.setPoint], rfl, rfl, m, hm,
          rfl⟩
      · exact h.writes_setPoint htx hnot _ hv
  | commit htx hpoint =>
    exact h.finish rfl (h.keys_commit t) fun m hm hlock => h.owned.mem_commit_of_unlocked hm hlock

/-- Where nobody starts a demotion, an admin who was spared stays spared. -/
theorem RoleState.Spared.setPoint {s : RoleState} {m : RoomMember} (h : s.Spared m) {t : ℕ}
    {tx : RoleTx} {p : RolePoint}
    (hp : RoleTx.Demotes { tx with point := p } → tx.rowKey ≠ m.rowKey) :
    (s.setPoint t tx p).Spared m := by
  intro t' tx' htx' hd
  rcases RoleState.setPoint_txs htx' with ⟨-, rfl⟩ | ⟨-, htx'⟩
  · exact hp hd
  · exact h t' tx' htx' hd

theorem not_demotes_of {tx : RoleTx} (hc : tx.point ≠ .counted) (hu : tx.point ≠ .updated .admin) :
    ¬ tx.Demotes := by
  rintro (h | ⟨h, -⟩)
  · exact hc h
  · exact hu h

/-- The commit of a transaction that does not demote the spare admin leaves an
    admin in their row. -/
theorem RoleInv.commit_keeps {s : RoleState} (h : RoleInv s) {t : ℕ} {tx : RoleTx}
    {c : MemberRole} (htx : s.txs t = some tx) (hpoint : tx.point = .updated c) {r : UUID}
    {m : RoomMember} (hm : m ∈ s.table.rows) (hadmin : m.isAdminIn r = true) (hspare : s.Spared m) :
    ∃ m' ∈ (s.table.commit RoomMember.rowKey t).rows, m'.isAdminIn r = true ∧
      m'.rowKey = m.rowKey := by
  obtain ⟨hr, hleft, hrole⟩ := RoomMember.isAdminIn_iff.mp hadmin
  refine ⟨s.table.current RoomMember.rowKey t m, Table.mem_view.mpr (.inl ⟨m, hm, rfl⟩), ?_,
    h.owned.key_current m⟩
  unfold Table.current
  cases hv : s.table.versions t m.rowKey with
  | none => exact hadmin
  | some v =>
    obtain ⟨tx', c', htx', hkey, hpt, m', hm', rfl⟩ := h.writes t _ v hv
    rw [htx] at htx'
    cases htx'
    rw [hpoint] at hpt
    cases hpt
    have heq : m' = m := by
      refine List.inj_on_of_nodup_map h.keys hm' hm ?_
      exact (h.owned t _ _ hv).2
    subst heq
    -- the target is the spare admin, so the role it is given is `admin`
    obtain ⟨-, x, hx, hxkey, hxrole⟩ := h.locks t tx c htx (by rw [hpoint]; rfl)
    have hxm : x = m' := List.inj_on_of_nodup_map h.keys hx hm (hxkey.trans hkey.symm)
    subst hxm
    have hnew : tx.newRole = .admin := by
      by_contra hne
      refine hspare t tx htx (.inr ⟨?_, hne⟩) hkey.symm
      rw [hpoint, ← hxrole, hrole]
    exact RoomMember.isAdminIn_iff.mpr ⟨hr, hleft, hnew⟩

theorem RoleMove.spareAdmin {s s' : RoleState} {t : ℕ} {a : RoleAction} {r : UUID}
    (hinv : RoleInv s) (h : SpareAdmin r s) (hok : CountLeavesAdmin s a)
    (hmove : RoleMove s t a s') : SpareAdmin r s' := by
  obtain ⟨m, hm, hadmin, hspare⟩ := h
  cases hmove with
  | begin hnone =>
    refine ⟨m, hm, hadmin, ?_⟩
    intro t' tx' htx' hd
    rcases update_eq_some htx' with ⟨-, rfl⟩ | ⟨-, htx'⟩
    · exact absurd hd (not_demotes_of (by simp) (by simp))
    · exact hspare t' tx' htx' hd
  | returns htx =>
    exact ⟨m, hm, hadmin, hspare.setPoint fun hd => absurd hd (not_demotes_of (by simp) (by simp))⟩
  | select htx hpoint hfind hfree =>
    exact ⟨m, hm, hadmin, hspare.setPoint fun hd => absurd hd (not_demotes_of (by simp) (by simp))⟩
  | count htx hpoint hrole hcount =>
    rename_i tx
    by_cases hroom : tx.roomID = r
    · -- the guard names another admin of the room
      obtain ⟨m', hm', hadmin', hne, hspare'⟩ := hok tx htx hpoint hrole hcount
      rw [hroom] at hadmin'
      exact ⟨m', hm', hadmin', hspare'.setPoint fun _ => hne.symm⟩
    · refine ⟨m, hm, hadmin, hspare.setPoint fun _ hkey => hroom ?_⟩
      rw [← (RoomMember.isAdminIn_iff.mp hadmin).1]
      exact congrArg Prod.fst hkey
  | update htx hpoint =>
    rename_i tx c
    have hspare' : (s.setPoint t tx (.updated c)).Spared m := by
      refine hspare.setPoint ?_
      rintro (hd | ⟨hd, hne⟩)
      · cases hd
      · cases hd
        rcases hpoint with ⟨-, himp⟩ | ⟨hp, -⟩
        · exact absurd (himp rfl) hne
        · exact hspare t tx htx (.inl hp)
    unfold RoleState.update
    split
    · exact ⟨m, hm, hadmin, hspare'⟩
    · exact ⟨m, hm, hadmin, hspare'⟩
  | commit htx hpoint =>
    obtain ⟨m', hm', hadmin', hkey⟩ := hinv.commit_keeps htx hpoint hm hadmin hspare
    refine ⟨m', hm', hadmin', ?_⟩
    have hspare' : s.Spared m' := by
      intro t' tx' htx' hd
      rw [hkey]
      exact hspare t' tx' htx' hd
    exact hspare'.setPoint fun hd => absurd hd (not_demotes_of (by simp) (by simp))

/-- The room with its members, before any call. -/
def roleStart (rows : List RoomMember) : RoleState := ⟨.fresh rows, fun _ => none⟩

/-- A room that starts with an active admin has one in every state of every run in
    which no transaction passes its count while all the other admins are the
    targets of transactions that have passed theirs. -/
theorem roleTxs_keep_admin (r : UUID) (rows : List RoomMember)
    (hkeys : (rows.map RoomMember.rowKey).Nodup) (hadmin : ∃ m ∈ rows, m.isAdminIn r = true)
    (s : RoleState) (hrun : Reach roleStep CountLeavesAdmin (roleStart rows) s) :
    ∃ m ∈ s.table.rows, m.isAdminIn r = true := by
  have hstart : RoleInv (roleStart rows) ∧ SpareAdmin r (roleStart rows) := by
    obtain ⟨m, hm, hm'⟩ := hadmin
    exact ⟨roleInv_fresh hkeys, m, hm, hm', fun _ _ h => by cases h⟩
  have hinv : RoleInv s ∧ SpareAdmin r s := by
    refine Reach.invariant (fun s => RoleInv s ∧ SpareAdmin r s) ?_ hrun hstart
    rintro s₁ a s₂ ⟨hinv, hspare⟩ hok hstep
    obtain ⟨t, hmove⟩ := roleStep_cases hstep
    exact ⟨hmove.inv hinv, hmove.spareAdmin hinv hspare hok⟩
  obtain ⟨m, hm, hm', -⟩ := hinv.2
  exact ⟨m, hm, hm'⟩

/-- Room 7 with the admins 1 and 2. -/
def twoAdmins : List RoomMember :=
  [⟨71, 7, 1, .admin, 10, none, none, none⟩, ⟨72, 7, 2, .admin, 11, none, none, none⟩]

/-- The state after running `as`, or the start if some action is not possible. -/
def roleRun (rows : List RoomMember) (as : List RoleAction) : RoleState :=
  (exec roleStep (roleStart rows) as).getD (roleStart rows)

/-- Admin 1 is demoted, on their own. -/
def oneDemotion : List RoleAction := [.begin 0 7 1 .member, .next 0, .next 0, .next 0, .next 0]

/-- Only a count is guarded. -/
theorem countLeavesAdmin_of_point {s : RoleState} {t : ℕ} {tx : RoleTx} (htx : s.txs t = some tx)
    (hpoint : tx.point ≠ .locked .admin) : CountLeavesAdmin s (.next t) := by
  intro tx' htx' hp
  rw [htx] at htx'
  cases htx'
  exact absurd hp hpoint

theorem roleTxs_keep_admin_one :
    Reach roleStep CountLeavesAdmin (roleStart twoAdmins) (roleRun twoAdmins oneDemotion) ∧
      ∃ m ∈ (roleRun twoAdmins oneDemotion).table.rows, m.isAdminIn 7 = true := by
  have hexec : exec roleStep (roleStart twoAdmins) oneDemotion =
      some (roleRun twoAdmins oneDemotion) := rfl
  have hmeets : Meets roleStep CountLeavesAdmin (roleStart twoAdmins) oneDemotion := by
    refine ⟨trivial, fun s₁ h₁ => ?_⟩
    cases h₁
    refine ⟨countLeavesAdmin_of_point rfl (by simp), fun s₂ h₂ => ?_⟩
    cases h₂
    refine ⟨fun tx htx _ _ _ => ?_, fun s₃ h₃ => ?_⟩
    · -- at the count, admin 2 is nobody's target
      cases htx
      refine ⟨⟨72, 7, 2, .admin, 11, none, none, none⟩, by decide, by decide, by decide, ?_⟩
      intro t tx htx hd
      match t with
      | 0 =>
        cases htx
        exact absurd hd (not_demotes_of (by simp) (by simp))
      | t + 1 => cases htx
    · cases h₃
      refine ⟨countLeavesAdmin_of_point rfl (by simp), fun s₄ h₄ => ?_⟩
      cases h₄
      exact ⟨countLeavesAdmin_of_point rfl (by simp), fun _ _ => trivial⟩
  have hrun := Reach.of_exec hmeets hexec
  exact ⟨hrun, roleTxs_keep_admin 7 twoAdmins (by decide) (by decide) _ hrun⟩

/-- Both admins are demoted, and each count runs before the other commit. -/
def crossedDemotions : List RoleAction :=
  [.begin 0 7 1 .member, .begin 1 7 2 .member, .next 0, .next 1, .next 0, .next 1, .next 0,
    .next 1, .next 0, .next 1]

/-- Both calls succeed, and the room has no admin left. -/
theorem two_demotions_no_admin :
    Reach roleStep Unguarded (roleStart twoAdmins) (roleRun twoAdmins crossedDemotions) ∧
      (∃ m ∈ twoAdmins, m.isAdminIn 7 = true) ∧
      (∀ t tx, (roleRun twoAdmins crossedDemotions).txs t = some tx →
        tx.point = .returned (.ok true)) ∧
      ¬ ∃ m ∈ (roleRun twoAdmins crossedDemotions).table.rows, m.isAdminIn 7 = true := by
  have hexec : exec roleStep (roleStart twoAdmins) crossedDemotions =
      some (roleRun twoAdmins crossedDemotions) := rfl
  refine ⟨Reach.of_exec (meets_unguarded _ _ _) hexec, by decide, ?_, by decide⟩
  intro t tx htx
  match t with
  | 0 =>
    cases htx
    rfl
  | 1 =>
    cases htx
    rfl
  | t + 2 => cases htx

end ConvoyChat.Store
