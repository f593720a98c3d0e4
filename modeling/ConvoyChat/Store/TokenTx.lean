import ConvoyChat.Lib.ReadCommitted
import ConvoyChat.Lib.Runs
import ConvoyChat.Store.RefreshTokens

/-!
# Concurrent rotations and revocations

`RotateRefreshToken` and `Logout` statement by statement, for any number of
transactions at once. A family revocation is one `UPDATE`: it picks its rows from
a snapshot taken when it starts and then visits them one by one, waiting for each
row lock and re-checking the row. A rotation that is in progress at that moment
has inserted its new token without committing it, so the snapshot does not
contain it; when the rotation commits, the revocation goes on with the old row,
finds it revoked and skips it, and the new token survives.

* `tokenNext_cases`: all that one statement can do.
* `TokenTxInv`: what a revocation in progress still has to visit.
* `revoked_family_stays_dead`: in a run in which no rotation commits while a
  revocation of its family is under way, a family that was revoked has no live
  token from the commit of the revocation on.
* `rotation_survives_logout`: a run without that.
-/

namespace ConvoyChat.Store

open ConvoyChat.Lib

/-- A call of `RotateRefreshToken` or `Logout`. `now` is the `NOW()` of its
    transaction, `clock` its `time.Now()` and `newID` its `uuid.New()`. -/
inductive TokenCall
  | rotate (now clock : Time) (newID : UUID) (oldHash newHash : String) (newExpiresAt : Time)
  | logout (now : Time) (callerID : UUID) (tokenHash : String)
deriving DecidableEq

def TokenCall.now : TokenCall → Time
  | .rotate now _ _ _ _ _ => now
  | .logout now _ _ => now

/-- Where a call is. -/
inductive TokenPoint
  | begun
  /-- the old row is locked and live; its `UPDATE` is next -/
  | rotating (old : RefreshToken)
  /-- the old row is updated; the `INSERT` is next -/
  | replaced (old : RefreshToken)
  /-- the new row is inserted; the `COMMIT` is next -/
  | inserted (old : RefreshToken)
  /-- the family `UPDATE` is next -/
  | condemned (familyID : UUID)
  /-- the family `UPDATE` has its snapshot and still has to visit these rows -/
  | revoking (familyID : UUID) (todo : List UUID)
  | returned (result : Except StoreErr Unit)
deriving DecidableEq

structure TokenTx where
  call : TokenCall
  point : TokenPoint
deriving DecidableEq

/-- The table, with its primary key, and the calls by transaction number. -/
structure TokenTxState where
  table : Table RefreshToken UUID ℕ
  txs : ℕ → Option TokenTx

inductive TokenTxAction
  | begin (t : ℕ) (call : TokenCall)
  /-- the next statement of `t`, or the next row of its family `UPDATE` -/
  | next (t : ℕ)
  /-- a statement of `t` fails and the deferred rollback runs -/
  | fail (t : ℕ)

namespace TokenTxState

def setPoint (s : TokenTxState) (t : ℕ) (tx : TokenTx) (p : TokenPoint) : TokenTxState :=
  { s with txs := Function.update s.txs t (some { tx with point := p }) }

/-- Return from the call; the deferred `Rollback` runs first. -/
def returns (s : TokenTxState) (t : ℕ) (tx : TokenTx) (r : Except StoreErr Unit) : TokenTxState :=
  { s.setPoint t tx (.returned r) with table := s.table.rollback t }

/-- `COMMIT` and return. -/
def commits (s : TokenTxState) (t : ℕ) (tx : TokenTx) (r : Except StoreErr Unit) : TokenTxState :=
  { s.setPoint t tx (.returned r) with table := s.table.commit RefreshToken.id t }

/-- The version of row `id` that `t` sees. -/
def lookUp (s : TokenTxState) (t : ℕ) (id : UUID) : Option RefreshToken :=
  (s.table.view RefreshToken.id t).find? fun x => x.id = id

/-- Lock row `id` and set its `revoked_at`. -/
def revokeRow (s : TokenTxState) (t : ℕ) (now : Time) (x : RefreshToken) :
    Table RefreshToken UUID ℕ :=
  (s.table.acquire t x.id).write t x.id { x with revokedAt := some now }

end TokenTxState

/-- `family_id = $1 AND revoked_at IS NULL`. -/
def RefreshToken.isLiveIn (familyID : UUID) (x : RefreshToken) : Bool :=
  x.familyID = familyID && x.revokedAt.isNone

/-- What `RotateRefreshToken` does with the row that its `SELECT … FOR UPDATE`
    returned. -/
def afterSelect (s : TokenTxState) (t : ℕ) (tx : TokenTx) (clock : Time) (old : RefreshToken) :
    TokenTxState :=
  if old.revokedAt.isSome then
    { s.setPoint t tx (.condemned old.familyID) with table := s.table.acquire t old.id }
  else if old.expiresAt < clock then s.returns t tx (.error .tokenExpired)
  else { s.setPoint t tx (.rotating old) with table := s.table.acquire t old.id }

/-- The `INSERT` of the new token; it waits for another transaction that is
    inserting the same id or hash. -/
def insertNext (s : TokenTxState) (t : ℕ) (tx : TokenTx) (old next : RefreshToken) :
    Option TokenTxState :=
  let clashes (x : RefreshToken) : Bool := x.id = next.id || x.tokenHash = next.tokenHash
  if s.table.pending.any fun p => p.1 ≠ t && clashes p.2 then none
  else if (s.table.view RefreshToken.id t).any clashes then
    some (s.returns t tx (.error .internal))
  else some { s.setPoint t tx (.inserted old) with table := s.table.insert t next }

/-- The next statement of transaction `t`; `none` while it waits. -/
def tokenNext (s : TokenTxState) (t : ℕ) (tx : TokenTx) : Option TokenTxState :=
  match tx.point, tx.call with
  | .begun, .rotate _ clock _ oldHash _ _ =>
    match (s.table.view RefreshToken.id t).find? fun x => x.tokenHash = oldHash with
    | none => some (s.returns t tx (.error .notFound))
    | some old => if s.table.Free t old.id then some (afterSelect s t tx clock old) else none
  | .begun, .logout _ callerID tokenHash =>
    match (s.table.view RefreshToken.id t).find? fun x => x.tokenHash = tokenHash with
    | none => some (s.returns t tx (.ok ()))
    | some rt =>
      if rt.userID ≠ callerID then some (s.returns t tx (.ok ()))
      else some (s.setPoint t tx (.condemned rt.familyID))
  | .rotating old, call =>
    match s.lookUp t old.id with
    | none => some (s.setPoint t tx (.replaced old))
    | some x => some { s.setPoint t tx (.replaced old) with table := s.revokeRow t call.now x }
  | .replaced old, .rotate now _ newID _ newHash newExpiresAt =>
    insertNext s t tx old
      ⟨newID, old.userID, newHash, old.familyID, now, newExpiresAt, none⟩
  | .inserted _, _ => some (s.commits t tx (.ok ()))
  | .condemned familyID, _ =>
    some (s.setPoint t tx (.revoking familyID
      (((s.table.view RefreshToken.id t).filter (·.isLiveIn familyID)).map (·.id))))
  | .revoking familyID (id :: todo), call =>
    if s.table.Free t id then
      match s.lookUp t id with
      | none => some (s.setPoint t tx (.revoking familyID todo))
      | some x =>
        if x.isLiveIn familyID then
          some { s.setPoint t tx (.revoking familyID todo) with
            table := s.revokeRow t call.now x }
        else some (s.setPoint t tx (.revoking familyID todo))
    else none
  | .revoking _ [], .rotate .. => some (s.commits t tx (.error .refreshTokenReused))
  | .revoking _ [], .logout .. => some (s.commits t tx (.ok ()))
  | .replaced _, .logout .. => none
  | .returned _, _ => none

def tokenTxStep (s : TokenTxState) : TokenTxAction → Option TokenTxState
  | .begin t call =>
    match s.txs t with
    | some _ => none
    | none => some { s with txs := Function.update s.txs t (some ⟨call, .begun⟩) }
  | .next t =>
    match s.txs t with
    | none => none
    | some tx => tokenNext s t tx
  | .fail t =>
    match s.txs t with
    | none => none
    | some tx =>
      match tx.point with
      | .returned _ => none
      | _ => some (s.returns t tx (.error .internal))

/-! ## What a statement can do -/

/-- The row that a rotation has locked and found live. -/
def TokenPoint.rotates : TokenPoint → Option RefreshToken
  | .rotating old => some old
  | .replaced old => some old
  | .inserted old => some old
  | _ => none

/-- All that one action can do, with what the code has checked. -/
inductive TokenMove (s : TokenTxState) (t : ℕ) : TokenTxAction → TokenTxState → Prop
  | begin {call} : s.txs t = none → TokenMove s t (.begin t call)
      { s with txs := Function.update s.txs t (some ⟨call, .begun⟩) }
  | returns {a tx r} : s.txs t = some tx → TokenMove s t a (s.returns t tx r)
  | select {tx old p} : s.txs t = some tx → tx.point = .begun →
      old ∈ s.table.view RefreshToken.id t → s.table.Free t old.id →
      p = .condemned old.familyID ∨ (p = .rotating old ∧ old.revokedAt = none) →
      TokenMove s t (.next t)
        { s.setPoint t tx p with table := s.table.acquire t old.id }
  | lookedUp {tx familyID} : s.txs t = some tx → tx.point = .begun →
      TokenMove s t (.next t) (s.setPoint t tx (.condemned familyID))
  | replace {tx old} : s.txs t = some tx → tx.point = .rotating old →
      TokenMove s t (.next t) (match s.lookUp t old.id with
        | none => s.setPoint t tx (.replaced old)
        | some x => { s.setPoint t tx (.replaced old) with table := s.revokeRow t tx.call.now x })
  | insert {tx old next} : s.txs t = some tx → tx.point = .replaced old →
      next.familyID = old.familyID → (∀ p ∈ s.table.pending, p.2.id ≠ next.id) →
      (∀ x ∈ s.table.view RefreshToken.id t, x.id ≠ next.id) →
      TokenMove s t (.next t)
        { s.setPoint t tx (.inserted old) with table := s.table.insert t next }
  | rotated {tx old} : s.txs t = some tx → tx.point = .inserted old →
      TokenMove s t (.next t) (s.commits t tx (.ok ()))
  | snapshot {tx familyID} : s.txs t = some tx → tx.point = .condemned familyID →
      TokenMove s t (.next t) (s.setPoint t tx (.revoking familyID
        (((s.table.view RefreshToken.id t).filter (·.isLiveIn familyID)).map (·.id))))
  | visit {tx familyID id todo x} : s.txs t = some tx → tx.point = .revoking familyID (id :: todo) →
      s.table.Free t id → s.lookUp t id = some x → x.isLiveIn familyID = true →
      TokenMove s t (.next t) { s.setPoint t tx (.revoking familyID todo) with
        table := s.revokeRow t tx.call.now x }
  | skip {tx familyID id todo} : s.txs t = some tx → tx.point = .revoking familyID (id :: todo) →
      (∀ x, s.lookUp t id = some x → x.isLiveIn familyID = false) →
      TokenMove s t (.next t) (s.setPoint t tx (.revoking familyID todo))
  | revoked {tx familyID r} : s.txs t = some tx → tx.point = .revoking familyID [] →
      TokenMove s t (.next t) (s.commits t tx r)

theorem afterSelect_cases {s : TokenTxState} {t : ℕ} {tx : TokenTx} {clock : Time}
    {old : RefreshToken} (htx : s.txs t = some tx) (hpoint : tx.point = .begun)
    (hold : old ∈ s.table.view RefreshToken.id t) (hfree : s.table.Free t old.id) :
    TokenMove s t (.next t) (afterSelect s t tx clock old) := by
  unfold afterSelect
  split_ifs with hrev hexp
  · exact .select htx hpoint hold hfree (.inl rfl)
  · exact .returns htx
  · exact .select htx hpoint hold hfree (.inr ⟨rfl, by simpa using hrev⟩)

theorem insertNext_cases {s s' : TokenTxState} {t : ℕ} {tx : TokenTx} {old next : RefreshToken}
    (htx : s.txs t = some tx) (hpoint : tx.point = .replaced old)
    (hfam : next.familyID = old.familyID) (h : insertNext s t tx old next = some s') :
    TokenMove s t (.next t) s' := by
  unfold insertNext at h
  dsimp only at h
  split_ifs at h with hpend hdup
  · cases h
    exact .returns htx
  · cases h
    simp only [List.any_eq_true, Bool.and_eq_true, Bool.or_eq_true, decide_eq_true_eq,
      not_exists, not_and, not_or] at hpend hdup
    refine .insert htx hpoint hfam ?_ fun x hx => (hdup x hx).1
    rintro ⟨t', x⟩ hp
    by_cases ht : t' = t
    · subst ht
      exact (hdup x (Table.mem_view.mpr (.inr hp))).1
    · exact (hpend (t', x) hp ht).1

theorem tokenNext_cases {s s' : TokenTxState} {t : ℕ} {tx : TokenTx} (htx : s.txs t = some tx)
    (h : tokenNext s t tx = some s') : TokenMove s t (.next t) s' := by
  unfold tokenNext at h
  split at h
  · rename_i hpoint hcall
    split at h
    · cases h
      exact .returns htx
    · rename_i old hfind
      split_ifs at h with hfree
      cases h
      exact afterSelect_cases htx hpoint (List.mem_of_find?_eq_some hfind) hfree
  · rename_i hpoint hcall
    split at h
    · cases h
      exact .returns htx
    · split_ifs at h
      · cases h
        exact .returns htx
      · cases h
        exact .lookedUp htx hpoint
  · rename_i old hpoint
    have hmove := TokenMove.replace htx hpoint
    split at h <;> rename_i hx <;> cases h <;> simpa only [hx] using hmove
  · rename_i old _ _ _ _ _ _ hpoint hcall
    exact insertNext_cases htx hpoint (by rfl) h
  · rename_i hpoint
    cases h
    exact .rotated htx hpoint
  · rename_i hpoint
    cases h
    exact .snapshot htx hpoint
  · rename_i familyID id todo hpoint
    split_ifs at h with hfree
    split at h
    · rename_i hnone
      cases h
      exact .skip htx hpoint fun x hx => by rw [hnone] at hx; cases hx
    · rename_i x hx
      split_ifs at h with hlive
      · cases h
        exact .visit htx hpoint hfree hx hlive
      · cases h
        refine .skip htx hpoint fun y hy => ?_
        rw [hx] at hy
        cases hy
        simpa using hlive
  · rename_i hpoint hcall
    cases h
    exact .revoked htx hpoint
  · rename_i hpoint hcall
    cases h
    exact .revoked htx hpoint
  · cases h
  · cases h

theorem tokenTxStep_cases {s s' : TokenTxState} {a : TokenTxAction}
    (h : tokenTxStep s a = some s') : ∃ t, TokenMove s t a s' := by
  cases a with
  | begin t call =>
    simp only [tokenTxStep] at h
    split at h
    · cases h
    · rename_i hnone
      cases h
      exact ⟨t, .begin hnone⟩
  | next t =>
    simp only [tokenTxStep] at h
    split at h
    · cases h
    · rename_i tx htx
      exact ⟨t, tokenNext_cases htx h⟩
  | fail t =>
    simp only [tokenTxStep] at h
    split at h
    · cases h
    · rename_i tx htx
      split at h
      · cases h
      · cases h
        exact ⟨t, .returns htx⟩

/-! ## What a revocation still has to visit -/

/-- Locks, versions and committed rows agree with where each transaction is. -/
structure TokenTxInv (s : TokenTxState) : Prop where
  owned : s.table.Owned RefreshToken.id
  keys : ((s.table.rows ++ s.table.pending.map (·.2)).map (·.id)).Nodup
  /-- an uncommitted version only sets `revoked_at` -/
  writes : ∀ t k v, s.table.versions t k = some v → v.revokedAt.isSome = true
  /-- an uncommitted insert continues the family of the row its rotation holds -/
  inserts : ∀ t x, (t, x) ∈ s.table.pending → ∃ tx old, s.txs t = some tx ∧
    tx.point = .inserted old ∧ x.familyID = old.familyID
  /-- a rotation holds the lock of a live row -/
  holds : ∀ t tx old, s.txs t = some tx → tx.point.rotates = some old →
    s.table.lock old.id = some t ∧ old ∈ s.table.rows ∧ old.revokedAt = none
  /-- a revocation has revoked every live row of the family or has yet to visit it -/
  visits : ∀ t tx familyID todo, s.txs t = some tx → tx.point = .revoking familyID todo →
    ∀ x ∈ s.table.rows, x.isLiveIn familyID = true →
      x.id ∈ todo ∨ (s.table.versions t x.id).isSome = true

/-- No rotation commits while a revocation of its family is under way, that is,
    between the snapshot and the commit of the family `UPDATE`. -/
def RotationsCommitAlone (s : TokenTxState) : TokenTxAction → Prop
  | .next t => ∀ tx old, s.txs t = some tx → tx.point = .inserted old →
      ∀ t' tx' todo, s.txs t' = some tx' → tx'.point ≠ .revoking old.familyID todo
  | _ => True

namespace TokenTxInv

variable {s : TokenTxState} {t : ℕ} {tx : TokenTx}

theorem fresh {rows : List RefreshToken} (h : (rows.map (·.id)).Nodup) :
    TokenTxInv ⟨.fresh rows, fun _ => none⟩ where
  owned := Table.owned_fresh rows
  keys := by simpa [Table.fresh] using h
  writes _ _ _ h := by cases h
  inserts _ _ h := by cases h
  holds _ _ _ h := by cases h
  visits _ _ _ _ h := by cases h

theorem map_id_view (h : TokenTxInv s) (t : ℕ) :
    (s.table.view RefreshToken.id t).map (·.id) =
      s.table.rows.map (·.id) ++ (s.table.pending.filter fun p => p.1 = t).map (·.2.id) := by
  unfold Table.view
  rw [List.map_append, List.map_map, List.map_map]
  congr 1
  exact List.map_congr_left fun x _ => h.owned.key_current x

/-- A row that `t` sees is the one it finds under its id. -/
theorem lookUp_eq (h : TokenTxInv s) {x : RefreshToken}
    (hx : x ∈ s.table.view RefreshToken.id t) : s.lookUp t x.id = some x := by
  have hnodup : ((s.table.view RefreshToken.id t).map (·.id)).Nodup := by
    rw [h.map_id_view t]
    refine h.keys.sublist ?_
    rw [List.map_append, List.map_map]
    exact (List.Sublist.refl _).append (List.Sublist.map _ List.filter_sublist)
  unfold TokenTxState.lookUp
  cases hfind : (s.table.view RefreshToken.id t).find? fun y => y.id = x.id with
  | none => simpa using List.find?_eq_none.mp hfind x hx
  | some y =>
    have hy : y.id = x.id := by simpa using List.find?_some hfind
    rw [List.inj_on_of_nodup_map hnodup (List.mem_of_find?_eq_some hfind) hx hy]

theorem lookUp_some {id : UUID} {x : RefreshToken} (hx : s.lookUp t id = some x) : x.id = id := by
  simpa using List.find?_some hx

/-- A live row that `t` sees is committed and unwritten, or its own insert. -/
theorem live_view (h : TokenTxInv s) {x : RefreshToken}
    (hx : x ∈ s.table.view RefreshToken.id t) (hlive : x.revokedAt = none) :
    (x ∈ s.table.rows ∧ s.table.versions t x.id = none) ∨ (t, x) ∈ s.table.pending := by
  rcases Table.mem_view.mp hx with ⟨y, hy, rfl⟩ | hp
  · refine .inl ?_
    unfold Table.current at hlive ⊢
    cases hv : s.table.versions t y.id with
    | none => exact ⟨hy, hv⟩
    | some v =>
      have hrev := h.writes t _ v hv
      rw [hv] at hlive
      rw [show v.revokedAt = none from hlive] at hrev
      cases hrev
  · exact .inr hp

/-- A committed row that `t` has not written is in its view. -/
theorem mem_view_of_unwritten {x : RefreshToken} (hx : x ∈ s.table.rows)
    (hv : s.table.versions t x.id = none) : x ∈ s.table.view RefreshToken.id t := by
  refine Table.mem_view.mpr (.inl ⟨x, hx, ?_⟩)
  unfold Table.current
  rw [hv]
  rfl

/-- A statement of `t` that publishes and inserts nothing. -/
theorem step (h : TokenTxInv s) (htx : s.txs t = some tx)
    (hnot : ∀ old, tx.point ≠ .inserted old) {p : TokenPoint} {T : Table RefreshToken UUID ℕ}
    (hrows : T.rows = s.table.rows) (hpend : T.pending = s.table.pending)
    (howned : T.Owned RefreshToken.id)
    (hlock : ∀ k t', s.table.lock k = some t' → T.lock k = some t')
    (hwrites : ∀ t' k v, T.versions t' k = some v → v.revokedAt.isSome = true)
    (hgrow : ∀ t' k, (s.table.versions t' k).isSome = true → (T.versions t' k).isSome = true)
    (hholds : ∀ old, p.rotates = some old →
      T.lock old.id = some t ∧ old ∈ s.table.rows ∧ old.revokedAt = none)
    (hvisits : ∀ familyID todo, p = .revoking familyID todo → ∀ x ∈ s.table.rows,
      x.isLiveIn familyID = true → x.id ∈ todo ∨ (T.versions t x.id).isSome = true) :
    TokenTxInv { s.setPoint t tx p with table := T } where
  owned := howned
  keys := by
    show ((T.rows ++ T.pending.map (·.2)).map (·.id)).Nodup
    rw [hrows, hpend]
    exact h.keys
  writes := hwrites
  inserts := by
    intro t' x hx
    have hx' : (t', x) ∈ s.table.pending := by
      rw [← hpend]
      exact hx
    obtain ⟨tx', old, htx', hpt, hfam⟩ := h.inserts t' x hx'
    have ht : t' ≠ t := by
      rintro rfl
      rw [htx] at htx'
      cases htx'
      exact hnot old hpt
    exact ⟨tx', old, by simpa [TokenTxState.setPoint, ht] using htx', hpt, hfam⟩
  holds := by
    intro t' tx' old htx' hrot
    show T.lock old.id = some t' ∧ old ∈ T.rows ∧ _
    rw [hrows]
    rcases update_eq_some htx' with ⟨rfl, rfl⟩ | ⟨-, htx'⟩
    · exact hholds old hrot
    · obtain ⟨hl, hmem, hlive⟩ := h.holds t' tx' old htx' hrot
      exact ⟨hlock _ _ hl, hmem, hlive⟩
  visits := by
    intro t' tx' familyID todo htx' hpt x hx hlive
    have hx' : x ∈ s.table.rows := by
      rw [← hrows]
      exact hx
    rcases update_eq_some htx' with ⟨rfl, rfl⟩ | ⟨-, htx'⟩
    · exact hvisits familyID todo hpt x hx' hlive
    · rcases h.visits t' tx' familyID todo htx' hpt x hx' hlive with hmem | hv
      · exact .inl hmem
      · exact .inr (hgrow t' _ hv)

/-- A statement of `t` that does not write either. -/
theorem stepPoint (h : TokenTxInv s) (htx : s.txs t = some tx)
    (hnot : ∀ old, tx.point ≠ .inserted old) {p : TokenPoint} (hrot : p.rotates = none)
    (hvisits : ∀ familyID todo, p = .revoking familyID todo → ∀ x ∈ s.table.rows,
      x.isLiveIn familyID = true → x.id ∈ todo ∨ (s.table.versions t x.id).isSome = true) :
    TokenTxInv (s.setPoint t tx p) :=
  h.step htx hnot rfl rfl h.owned (fun _ _ hl => hl) h.writes (fun _ _ hv => hv)
    (fun old hold => by rw [hrot] at hold; cases hold) hvisits

/-- A statement of `t` that revokes a row which it can lock. -/
theorem stepRevoke (h : TokenTxInv s) (htx : s.txs t = some tx)
    (hnot : ∀ old, tx.point ≠ .inserted old) {p : TokenPoint} {x : RefreshToken} {now : Time}
    (hfree : s.table.Free t x.id)
    (hholds : ∀ old, p.rotates = some old →
      s.table.lock old.id = some t ∧ old ∈ s.table.rows ∧ old.revokedAt = none)
    (hvisits : ∀ familyID todo, p = .revoking familyID todo → ∀ y ∈ s.table.rows,
      y.isLiveIn familyID = true →
        y.id ∈ todo ∨ y.id = x.id ∨ (s.table.versions t y.id).isSome = true) :
    TokenTxInv { s.setPoint t tx p with table := s.revokeRow t now x } := by
  have hlock : ∀ k t', s.table.lock k = some t' → (s.revokeRow t now x).lock k = some t' :=
    fun k t' hl => Table.acquire_lock_of_free hfree hl
  refine h.step htx hnot rfl rfl ((h.owned.acquire hfree).write Table.acquire_lock_self rfl) hlock
    ?_ ?_ ?_ ?_
  · intro t' k v hv
    rcases Table.write_versions_cases hv with ⟨-, -, rfl⟩ | hv
    · rfl
    · exact h.writes t' k v hv
  · intro t' k hv
    exact Table.write_versions_isSome hv
  · intro old hold
    obtain ⟨hl, hrest⟩ := hholds old hold
    exact ⟨hlock _ _ hl, hrest⟩
  · intro familyID todo hp y hy hlive
    rcases hvisits familyID todo hp y hy hlive with hmem | heq | hv
    · exact .inl hmem
    · refine .inr ?_
      rw [heq]
      exact Table.write_versions_self
    · exact .inr (Table.write_versions_isSome hv)

/-- Return from `t`, with `rows` committed afterwards. -/
theorem finish (h : TokenTxInv s) {r : Except StoreErr Unit} {rows : List RefreshToken}
    (hkeys : ((rows ++ (s.table.rollback t).pending.map (·.2)).map (·.id)).Nodup)
    (hrows : ∀ x ∈ s.table.rows, s.table.lock x.id ≠ some t → x ∈ rows)
    (hlive : ∀ x ∈ rows, x.revokedAt = none → x ∈ s.table.rows ∨ (t, x) ∈ s.table.pending)
    (hpend : ∀ x, (t, x) ∈ s.table.pending → x ∈ rows →
      ∀ t' tx' todo, s.txs t' = some tx' → tx'.point ≠ .revoking x.familyID todo) :
    TokenTxInv { s.setPoint t tx (.returned r) with
      table := { s.table.rollback t with rows := rows } } where
  owned := h.owned.rollback
  keys := hkeys
  writes := by
    intro t' k v hv
    have ht : t' ≠ t := by
      rintro rfl
      simp [Table.rollback] at hv
    exact h.writes t' k v (by rw [← Table.rollback_versions_other ht]; exact hv)
  inserts := by
    intro t' x hx
    obtain ⟨hx, ht⟩ := List.mem_filter.mp (show (t', x) ∈ s.table.pending.filter _ from hx)
    obtain ⟨tx', old, htx', hrest⟩ := h.inserts t' x hx
    have ht' : t' ≠ t := by simpa using ht
    exact ⟨tx', old, by simpa [TokenTxState.setPoint, ht'] using htx', hrest⟩
  holds := by
    intro t' tx' old htx' hrot
    rcases update_eq_some htx' with ⟨-, rfl⟩ | ⟨ht, htx'⟩
    · cases hrot
    · obtain ⟨hl, hmem, hlive⟩ := h.holds t' tx' old htx' hrot
      refine ⟨Table.rollback_lock_other ht hl, hrows old hmem ?_, hlive⟩
      rw [hl]
      simpa using ht
  visits := by
    intro t' tx' familyID todo htx' hpt x hx hlivex
    rcases update_eq_some htx' with ⟨-, rfl⟩ | ⟨ht, htx'⟩
    · cases hpt
    · obtain ⟨hfam, hnone⟩ : x.familyID = familyID ∧ x.revokedAt = none := by
        simpa [RefreshToken.isLiveIn] using hlivex
      rcases hlive x hx hnone with hx' | hx'
      · rcases h.visits t' tx' familyID todo htx' hpt x hx' hlivex with hmem | hv
        · exact .inl hmem
        · refine .inr ?_
          show ((s.table.rollback t).versions t' x.id).isSome = true
          rw [Table.rollback_versions_other ht]
          exact hv
      · refine absurd hpt ?_
        rw [← hfam]
        exact hpend x hx' hx t' tx' todo htx'

theorem returns (h : TokenTxInv s) (r : Except StoreErr Unit) : TokenTxInv (s.returns t tx r) := by
  refine h.finish ?_ (fun x hx _ => hx) (fun x hx _ => .inl hx) ?_
  · refine h.keys.sublist ?_
    exact ((List.Sublist.refl _).append (List.filter_sublist.map _)).map _
  · intro x hp hx
    -- an uncommitted insert is not committed: its id is new
    exfalso
    have hdup := h.keys
    rw [List.map_append, List.nodup_append] at hdup
    refine hdup.2.2 x.id (List.mem_map_of_mem hx) x.id ?_ rfl
    exact List.mem_map.mpr ⟨x, List.mem_map.mpr ⟨(t, x), hp, rfl⟩, rfl⟩

theorem commits (h : TokenTxInv s) (r : Except StoreErr Unit)
    (hpend : ∀ x, (t, x) ∈ s.table.pending →
      ∀ t' tx' todo, s.txs t' = some tx' → tx'.point ≠ .revoking x.familyID todo) :
    TokenTxInv (s.commits t tx r) := by
  refine h.finish ?_ (fun x hx hl => h.owned.mem_commit_of_unlocked hx hl) ?_
    (fun x hp _ => hpend x hp)
  · show ((s.table.view RefreshToken.id t ++ (s.table.pending.filter fun p => p.1 ≠ t).map
      (·.2)).map (·.id)).Nodup
    rw [List.map_append, h.map_id_view t, List.append_assoc]
    refine (List.Perm.nodup_iff ?_).mp h.keys
    rw [List.map_append, List.map_map, List.map_map]
    refine (List.Perm.refl _).append ?_
    have hperm := List.filter_append_perm (fun p => decide (p.1 = t)) s.table.pending
    simpa [Function.comp_def] using (hperm.map (·.2.id)).symm
  · intro x hx hnone
    rcases h.live_view hx hnone with ⟨hx, -⟩ | hp
    · exact .inl hx
    · exact .inr hp

/-- A transaction with an uncommitted insert has just made it. -/
theorem inserted_of_pending (h : TokenTxInv s) (htx : s.txs t = some tx) {x : RefreshToken}
    (hx : (t, x) ∈ s.table.pending) :
    ∃ old, tx.point = .inserted old ∧ x.familyID = old.familyID := by
  obtain ⟨tx', old, htx', hpt, hfam⟩ := h.inserts t x hx
  rw [htx] at htx'
  cases htx'
  exact ⟨old, hpt, hfam⟩

/-- A live row that `t` sees at its first statement is committed. -/
theorem mem_rows_of_begun (h : TokenTxInv s) (htx : s.txs t = some tx) (hpoint : tx.point = .begun)
    {x : RefreshToken} (hx : x ∈ s.table.view RefreshToken.id t) (hlive : x.revokedAt = none) :
    x ∈ s.table.rows := by
  rcases h.live_view hx hlive with ⟨hmem, -⟩ | hpend
  · exact hmem
  · obtain ⟨old, hpt, -⟩ := h.inserted_of_pending htx hpend
    rw [hpoint] at hpt
    cases hpt

theorem begins (h : TokenTxInv s) (hnone : s.txs t = none) (hrot : tx.point.rotates = none)
    (hpt : ∀ familyID todo, tx.point ≠ .revoking familyID todo) :
    TokenTxInv { s with txs := Function.update s.txs t (some tx) } := by
  refine ⟨h.owned, h.keys, h.writes, ?_, ?_, ?_⟩
  · intro t' x hx
    obtain ⟨tx', old, htx', hrest⟩ := h.inserts t' x hx
    have ht : t' ≠ t := by
      rintro rfl
      rw [hnone] at htx'
      cases htx'
    exact ⟨tx', old, by simpa [ht] using htx', hrest⟩
  · intro t' tx' old htx' hold
    rcases update_eq_some htx' with ⟨-, rfl⟩ | ⟨-, htx'⟩
    · rw [hrot] at hold
      cases hold
    · exact h.holds t' tx' old htx' hold
  · intro t' tx' familyID todo htx' hrev
    rcases update_eq_some htx' with ⟨-, rfl⟩ | ⟨-, htx'⟩
    · exact absurd hrev (hpt familyID todo)
    · exact h.visits t' tx' familyID todo htx' hrev

/-- The `SELECT ... FOR UPDATE` of `t`, which locks a row that it sees. -/
theorem stepSelect (h : TokenTxInv s) (htx : s.txs t = some tx) (hpoint : tx.point = .begun)
    {old : RefreshToken} (hold : old ∈ s.table.view RefreshToken.id t)
    (hfree : s.table.Free t old.id) {p : TokenPoint}
    (hp : p = .condemned old.familyID ∨ p = .rotating old ∧ old.revokedAt = none) :
    TokenTxInv { s.setPoint t tx p with table := s.table.acquire t old.id } := by
  refine h.step htx (by simp [hpoint]) rfl rfl (h.owned.acquire hfree)
    (fun k t' hl => Table.acquire_lock_of_free hfree hl) h.writes (fun _ _ hv => hv) ?_ ?_
  · intro old' hold'
    rcases hp with rfl | ⟨rfl, hlive⟩
    · cases hold'
    · cases hold'
      exact ⟨Table.acquire_lock_self, h.mem_rows_of_begun htx hpoint hold hlive, hlive⟩
  · intro familyID todo hpt
    rcases hp with rfl | ⟨rfl, -⟩ <;> cases hpt

/-- The `INSERT` of a rotation. -/
theorem stepInsert (h : TokenTxInv s) (htx : s.txs t = some tx) {old next : RefreshToken}
    (hpoint : tx.point = .replaced old) (hfam : next.familyID = old.familyID)
    (hpend : ∀ p ∈ s.table.pending, p.2.id ≠ next.id)
    (hview : ∀ x ∈ s.table.view RefreshToken.id t, x.id ≠ next.id) :
    TokenTxInv { s.setPoint t tx (.inserted old) with table := s.table.insert t next } := by
  refine ⟨h.owned.insert next, ?_, h.writes, ?_, ?_, ?_⟩
  · show ((s.table.rows ++ (s.table.pending ++ [(t, next)]).map (·.2)).map (·.id)).Nodup
    have hmap : (s.table.pending ++ [(t, next)]).map (·.2) =
        s.table.pending.map (·.2) ++ [next] := by
      simp
    rw [hmap, ← List.append_assoc]
    refine nodup_map_append_singleton h.keys fun x hx => ?_
    rcases List.mem_append.mp hx with hx | hx
    · -- a committed row keeps its id in the view
      have := hview _ (Table.mem_view.mpr (.inl ⟨x, hx, rfl⟩))
      rwa [h.owned.key_current x] at this
    · obtain ⟨p, hp, rfl⟩ := List.mem_map.mp hx
      exact hpend p hp
  · intro t' x hx
    rcases List.mem_append.mp (show (t', x) ∈ s.table.pending ++ [(t, next)] from hx) with hx | hx
    · obtain ⟨tx', old', htx', hpt, hfam'⟩ := h.inserts t' x hx
      have ht : t' ≠ t := by
        rintro rfl
        rw [htx] at htx'
        cases htx'
        rw [hpoint] at hpt
        cases hpt
      exact ⟨tx', old', by simpa [TokenTxState.setPoint, ht] using htx', hpt, hfam'⟩
    · cases List.mem_singleton.mp hx
      exact ⟨{ tx with point := .inserted old }, old, by simp [TokenTxState.setPoint], rfl, hfam⟩
  · intro t' tx' old' htx' hrot
    rcases update_eq_some htx' with ⟨rfl, rfl⟩ | ⟨-, htx'⟩
    · cases hrot
      exact h.holds t' tx old htx (by rw [hpoint]; rfl)
    · exact h.holds t' tx' old' htx' hrot
  · intro t' tx' familyID todo htx' hpt
    rcases update_eq_some htx' with ⟨-, rfl⟩ | ⟨-, htx'⟩
    · cases hpt
    · exact h.visits t' tx' familyID todo htx' hpt

/-- The live rows of a family when its revocation comes to the row `id`. -/
theorem visits_next (h : TokenTxInv s) (htx : s.txs t = some tx) {familyID id : UUID}
    {todo : List UUID} (hpoint : tx.point = .revoking familyID (id :: todo)) {x : RefreshToken}
    (hx : x ∈ s.table.rows) (hlive : x.isLiveIn familyID = true) :
    x.id = id ∨ x.id ∈ todo ∨ (s.table.versions t x.id).isSome = true := by
  rcases h.visits t tx familyID (id :: todo) htx hpoint x hx hlive with hmem | hv
  · exact (List.mem_cons.mp hmem).imp_right .inl
  · exact .inr (.inr hv)

end TokenTxInv

theorem TokenMove.inv {s s' : TokenTxState} {t : ℕ} {a : TokenTxAction} (h : TokenTxInv s)
    (hok : RotationsCommitAlone s a) (hmove : TokenMove s t a s') : TokenTxInv s' := by
  cases hmove with
  | begin hnone => exact h.begins hnone rfl fun _ _ hp => by cases hp
  | returns htx => exact h.returns _
  | select htx hpoint hold hfree hp => exact h.stepSelect htx hpoint hold hfree hp
  | lookedUp htx hpoint =>
    exact h.stepPoint htx (by simp [hpoint]) rfl fun _ _ hp => by cases hp
  | replace htx hpoint =>
    rename_i tx old
    have hholds := h.holds t tx old htx (by rw [hpoint]; rfl)
    split
    · refine h.step htx (by simp [hpoint]) rfl rfl h.owned (fun _ _ hl => hl) h.writes
        (fun _ _ hv => hv) (fun old' hold' => ?_) fun _ _ hp => by cases hp
      cases hold'
      exact hholds
    · rename_i x hx
      refine h.stepRevoke htx (by simp [hpoint]) (.inr ?_) (fun old' hold' => ?_)
        fun _ _ hp => by cases hp
      · rw [TokenTxInv.lookUp_some hx]
        exact hholds.1
      · cases hold'
        exact hholds
  | insert htx hpoint hfam hpend hview => exact h.stepInsert htx hpoint hfam hpend hview
  | rotated htx hpoint =>
    rename_i tx old
    refine h.commits _ fun x hx t' tx' todo htx' => ?_
    obtain ⟨old₁, hpt₁, hfam⟩ := h.inserted_of_pending htx hx
    rw [hpoint] at hpt₁
    cases hpt₁
    rw [hfam]
    exact hok tx old htx hpoint t' tx' todo htx'
  | snapshot htx hpoint =>
    rename_i tx familyID
    refine h.stepPoint htx (by simp [hpoint]) rfl ?_
    intro familyID' todo hp x hx hlive
    cases hp
    cases hv : s.table.versions t x.id with
    | some v => exact .inr rfl
    | none =>
      refine .inl (List.mem_map.mpr ⟨x, List.mem_filter.mpr ⟨?_, hlive⟩, rfl⟩)
      exact TokenTxInv.mem_view_of_unwritten hx hv
  | visit htx hpoint hfree hx hlive =>
    rename_i tx familyID id todo x
    have hid := TokenTxInv.lookUp_some hx
    refine h.stepRevoke htx (by simp [hpoint]) (by rw [hid]; exact hfree)
      (fun old hold => by cases hold) ?_
    intro familyID' todo' hp y hy hlivey
    cases hp
    rcases h.visits_next htx hpoint hy hlivey with heq | hmem | hv
    · exact .inr (.inl (heq.trans hid.symm))
    · exact .inl hmem
    · exact .inr (.inr hv)
  | skip htx hpoint hskip =>
    rename_i tx familyID id todo
    refine h.stepPoint htx (by simp [hpoint]) rfl ?_
    intro familyID' todo' hp y hy hlivey
    cases hp
    rcases h.visits_next htx hpoint hy hlivey with heq | hrest
    · -- the row was visited and is not live any more in the view, so `t` has written it
      cases hv : s.table.versions t y.id with
      | some v => exact .inr rfl
      | none =>
        have hfound := h.lookUp_eq (TokenTxInv.mem_view_of_unwritten hy hv)
        rw [heq] at hfound
        rw [hskip y hfound] at hlivey
        cases hlivey
    · exact hrest
  | revoked htx hpoint =>
    rename_i tx familyID r
    refine h.commits _ fun x hx => ?_
    obtain ⟨old₁, hpt₁, -⟩ := h.inserted_of_pending htx hx
    rw [hpoint] at hpt₁
    cases hpt₁

/-! ## A revoked family -/

/-- No committed token of the family is live, and no rotation holds one. -/
structure DeadFamily (familyID : UUID) (s : TokenTxState) : Prop where
  rows : ∀ x ∈ s.table.rows, x.familyID = familyID → x.revokedAt.isSome = true
  rotations : ∀ t tx old, s.txs t = some tx → tx.point.rotates = some old →
    old.familyID ≠ familyID

/-- The commit of a family `UPDATE` that has visited its whole snapshot. -/
theorem deadFamily_of_revoked {s : TokenTxState} (h : TokenTxInv s) {t : ℕ} {tx : TokenTx}
    {familyID : UUID} (htx : s.txs t = some tx) (hpoint : tx.point = .revoking familyID [])
    (r : Except StoreErr Unit) : DeadFamily familyID (s.commits t tx r) where
  rows := by
    intro x hx hfam
    by_contra hlive
    have hnone : x.revokedAt = none := by simpa using hlive
    rcases h.live_view hx hnone with ⟨hx, hv⟩ | hp
    · have hlivex : x.isLiveIn familyID = true := by simp [RefreshToken.isLiveIn, hfam, hnone]
      rcases h.visits t tx familyID [] htx hpoint x hx hlivex with hmem | hv'
      · cases hmem
      · rw [hv] at hv'
        cases hv'
    · obtain ⟨tx₁, old₁, htx₁, hpt₁, -⟩ := h.inserts t x hp
      rw [htx] at htx₁
      cases htx₁
      rw [hpoint] at hpt₁
      cases hpt₁
  rotations := by
    intro t' tx' old htx' hrot hfam
    rcases update_eq_some htx' with ⟨-, rfl⟩ | ⟨ht, htx'⟩
    · cases hrot
    · -- the rotation and the revocation would both hold the lock of `old`
      obtain ⟨hl, hmem, hnone⟩ := h.holds t' tx' old htx' hrot
      have hlive : old.isLiveIn familyID = true := by simp [RefreshToken.isLiveIn, hfam, hnone]
      rcases h.visits t tx familyID [] htx hpoint old hmem hlive with hnil | hv
      · cases hnil
      · obtain ⟨v, hv⟩ := Option.isSome_iff_exists.mp hv
        rw [(h.owned t old.id v hv).1] at hl
        cases hl
        exact ht rfl

/-- After the last row of the family `UPDATE` comes the `COMMIT`. -/
theorem tokenNext_revoked (s : TokenTxState) (t : ℕ) {tx : TokenTx} {familyID : UUID}
    (hpoint : tx.point = .revoking familyID []) :
    ∃ r, tokenNext s t tx = some (s.commits t tx r) := by
  obtain ⟨call, point⟩ := tx
  subst hpoint
  cases call with
  | rotate => exact ⟨_, rfl⟩
  | logout => exact ⟨_, rfl⟩

theorem DeadFamily.setPoint {familyID : UUID} {s : TokenTxState} (hd : DeadFamily familyID s)
    {t : ℕ} {tx : TokenTx} {p : TokenPoint} {T : Table RefreshToken UUID ℕ}
    (hrows : ∀ x ∈ T.rows, x.familyID = familyID → x.revokedAt.isSome = true)
    (hrot : ∀ old, p.rotates = some old → old.familyID ≠ familyID) :
    DeadFamily familyID { s.setPoint t tx p with table := T } := by
  refine ⟨hrows, ?_⟩
  intro t' tx' old htx' hrot'
  rcases update_eq_some htx' with ⟨-, rfl⟩ | ⟨-, htx'⟩
  · exact hrot old hrot'
  · exact hd.rotations t' tx' old htx' hrot'

/-- A commit publishes no live token of a dead family. -/
theorem DeadFamily.commits {familyID : UUID} {s : TokenTxState} (h : TokenTxInv s)
    (hd : DeadFamily familyID s) (t : ℕ) (tx : TokenTx) (r : Except StoreErr Unit) :
    DeadFamily familyID (s.commits t tx r) := by
  refine hd.setPoint ?_ fun old hold => by cases hold
  intro x hx hfam
  by_contra hlive
  have hnone : x.revokedAt = none := by simpa using hlive
  rcases h.live_view hx hnone with ⟨hx, -⟩ | hp
  · exact hlive (hd.rows x hx hfam)
  · obtain ⟨tx₁, old₁, htx₁, hpt₁, hfam₁⟩ := h.inserts t x hp
    exact hd.rotations t tx₁ old₁ htx₁ (by rw [hpt₁]; rfl) (hfam₁.symm.trans hfam)

theorem TokenMove.dead {s s' : TokenTxState} {t : ℕ} {a : TokenTxAction} {familyID : UUID}
    (h : TokenTxInv s) (hd : DeadFamily familyID s) (hmove : TokenMove s t a s') :
    DeadFamily familyID s' := by
  have hkeep : ∀ (tx : TokenTx) (old : RefreshToken) (p : TokenPoint), s.txs t = some tx →
      tx.point.rotates = some old → p.rotates = some old →
      ∀ old', p.rotates = some old' → old'.familyID ≠ familyID := by
    intro tx old p htx hrot hp old' hp'
    rw [hp] at hp'
    cases hp'
    exact hd.rotations t tx old htx hrot
  cases hmove with
  | begin hnone =>
    refine ⟨hd.rows, ?_⟩
    intro t' tx' old htx' hrot
    rcases update_eq_some htx' with ⟨-, rfl⟩ | ⟨-, htx'⟩
    · cases hrot
    · exact hd.rotations t' tx' old htx' hrot
  | returns htx => exact hd.setPoint hd.rows fun old hold => by cases hold
  | select htx hpoint hold hfree hp =>
    rename_i tx old p
    refine hd.setPoint hd.rows fun old' hold' => ?_
    rcases hp with rfl | ⟨rfl, hlive⟩
    · cases hold'
    · cases hold'
      intro hfam
      have hrev := hd.rows _ (h.mem_rows_of_begun htx hpoint hold hlive) hfam
      rw [hlive] at hrev
      cases hrev
  | lookedUp htx hpoint => exact hd.setPoint hd.rows fun old hold => by cases hold
  | replace htx hpoint =>
    rename_i tx old
    have hrot := hkeep tx old (.replaced old) htx (by rw [hpoint]; rfl) rfl
    split
    · exact hd.setPoint hd.rows hrot
    · exact hd.setPoint hd.rows hrot
  | insert htx hpoint _ _ _ =>
    rename_i tx old _ _ _ _
    exact hd.setPoint hd.rows (hkeep _ _ _ htx (by rw [hpoint]; rfl) rfl)
  | rotated htx hpoint => exact hd.commits h t _ _
  | snapshot htx hpoint => exact hd.setPoint hd.rows fun old hold => by cases hold
  | visit htx hpoint _ _ _ => exact hd.setPoint hd.rows fun old hold => by cases hold
  | skip htx hpoint _ => exact hd.setPoint hd.rows fun old hold => by cases hold
  | revoked htx hpoint => exact hd.commits h t _ _

/-- The table before any of the calls. -/
def tokenTxStart (rows : RefreshTokens) : TokenTxState := ⟨.fresh rows, fun _ => none⟩

/-- From the commit of a family revocation on (`s` to `s₁`, by a `Logout` or by the
    reuse branch of a rotation), no token of the family is live, in any state of
    any run in which no rotation commits while a revocation of its family is
    under way. The transactions that overlapped need not even have finished. -/
theorem revoked_family_stays_dead (rows : RefreshTokens) (hkeys : (rows.map (·.id)).Nodup)
    (s s₁ s₂ : TokenTxState) (t : ℕ) (tx : TokenTx) (familyID : UUID)
    (hrun : Reach tokenTxStep RotationsCommitAlone (tokenTxStart rows) s)
    (htx : s.txs t = some tx) (hpoint : tx.point = .revoking familyID [])
    (hcommit : tokenTxStep s (.next t) = some s₁)
    (hlater : Reach tokenTxStep RotationsCommitAlone s₁ s₂) :
    ∀ x ∈ s₂.table.rows, x.familyID = familyID → x.revokedAt.isSome = true := by
  have hstep : ∀ s a s', TokenTxInv s → RotationsCommitAlone s a → tokenTxStep s a = some s' →
      TokenTxInv s' := by
    intro s a s' hinv hok hs
    obtain ⟨t, hmove⟩ := tokenTxStep_cases hs
    exact hmove.inv hinv hok
  have hinv : TokenTxInv s := Reach.invariant TokenTxInv hstep hrun (.fresh hkeys)
  have hdead : DeadFamily familyID s₁ := by
    obtain ⟨r, hr⟩ := tokenNext_revoked s t hpoint
    simp only [tokenTxStep, htx, hr] at hcommit
    cases hcommit
    exact deadFamily_of_revoked hinv htx hpoint r
  have hinv₁ : TokenTxInv s₁ := by
    refine hstep s (.next t) s₁ hinv ?_ hcommit
    intro tx' old htx' hpt
    rw [htx] at htx'
    cases htx'
    rw [hpoint] at hpt
    cases hpt
  have hboth : TokenTxInv s₂ ∧ DeadFamily familyID s₂ := by
    refine Reach.invariant (fun s => TokenTxInv s ∧ DeadFamily familyID s) ?_ hlater
      ⟨hinv₁, hdead⟩
    rintro s a s' ⟨hinv, hd⟩ hok hs
    refine ⟨hstep s a s' hinv hok hs, ?_⟩
    obtain ⟨t, hmove⟩ := tokenTxStep_cases hs
    exact hmove.dead hinv hd
  exact hboth.2.rows

/-- The state after running `as`, or the start if some action is not possible. -/
def tokenTxRun (rows : RefreshTokens) (as : List TokenTxAction) : TokenTxState :=
  (exec tokenTxStep (tokenTxStart rows) as).getD (tokenTxStart rows)

/-- One session of user 7, logged in at time 10. -/
def oneSession : RefreshTokens := [⟨1, 7, "gen1", 3, 10, 100, none⟩]

/-- Rotate "gen1" to "gen2". -/
def rotation : TokenCall := .rotate 20 20 2 "gen1" "gen2" 120

/-- The token is rotated, then its owner logs out. -/
def rotateThenLogout : List TokenTxAction :=
  [.begin 0 rotation, .next 0, .next 0, .next 0, .next 0,
    .begin 1 (.logout 30 7 "gen2"), .next 1, .next 1, .next 1]

/-- Only the commit of a rotation is guarded. -/
theorem rotationsCommitAlone_of_point {s : TokenTxState} {t : ℕ} {tx : TokenTx}
    (htx : s.txs t = some tx) (hpoint : ∀ old, tx.point ≠ .inserted old) :
    RotationsCommitAlone s (.next t) := by
  intro tx' old htx' hp
  rw [htx] at htx'
  cases htx'
  exact absurd hp (hpoint old)

theorem revoked_family_stays_dead_rotated :
    (tokenTxRun oneSession (rotateThenLogout ++ [.next 1])).table.rows.length = 2 ∧
      ∀ x ∈ (tokenTxRun oneSession (rotateThenLogout ++ [.next 1])).table.rows,
        x.familyID = 3 → x.revokedAt.isSome = true := by
  have hexec : exec tokenTxStep (tokenTxStart oneSession) rotateThenLogout =
      some (tokenTxRun oneSession rotateThenLogout) := rfl
  have hmeets : Meets tokenTxStep RotationsCommitAlone (tokenTxStart oneSession)
      rotateThenLogout := by
    refine ⟨trivial, fun s₁ h₁ => ?_⟩
    cases h₁
    refine ⟨rotationsCommitAlone_of_point rfl (by simp), fun s₂ h₂ => ?_⟩
    cases h₂
    refine ⟨rotationsCommitAlone_of_point rfl (by simp), fun s₃ h₃ => ?_⟩
    cases h₃
    refine ⟨rotationsCommitAlone_of_point rfl (by simp), fun s₄ h₄ => ?_⟩
    cases h₄
    refine ⟨?_, fun s₅ h₅ => ?_⟩
    · -- the rotation commits alone: there is no other call yet
      intro tx old _ _ t' tx' todo htx'
      match t' with
      | 0 =>
        cases htx'
        simp
      | t' + 1 => cases htx'
    · cases h₅
      refine ⟨trivial, fun s₆ h₆ => ?_⟩
      cases h₆
      refine ⟨rotationsCommitAlone_of_point rfl (by simp), fun s₇ h₇ => ?_⟩
      cases h₇
      refine ⟨rotationsCommitAlone_of_point rfl (by simp), fun s₈ h₈ => ?_⟩
      cases h₈
      exact ⟨rotationsCommitAlone_of_point rfl (by simp), fun _ _ => trivial⟩
  refine ⟨by decide, ?_⟩
  exact revoked_family_stays_dead oneSession (by decide) _ _ _ 1
    ⟨.logout 30 7 "gen2", .revoking 3 []⟩ 3 (Reach.of_exec hmeets hexec) rfl rfl rfl .refl

/-- The logout takes its snapshot while the rotation has not committed, waits for
    the old row, and skips it. -/
def logoutDuringRotation : List TokenTxAction :=
  [.begin 0 rotation, .next 0, .next 0, .next 0,
    .begin 1 (.logout 30 7 "gen1"), .next 1, .next 1, .next 0, .next 1]

/-- Both calls have returned, the revocation has committed, and "gen2" is live. -/
theorem rotation_survives_logout :
    Reach tokenTxStep Unguarded (tokenTxStart oneSession)
      (tokenTxRun oneSession logoutDuringRotation) ∧
    (tokenTxRun oneSession logoutDuringRotation).txs 1 =
      some ⟨.logout 30 7 "gen1", .revoking 3 []⟩ ∧
    tokenTxStep (tokenTxRun oneSession logoutDuringRotation) (.next 1) =
      some (tokenTxRun oneSession (logoutDuringRotation ++ [.next 1])) ∧
    (∀ t tx, (tokenTxRun oneSession (logoutDuringRotation ++ [.next 1])).txs t = some tx →
      tx.point = .returned (.ok ())) ∧
    ∃ x ∈ (tokenTxRun oneSession (logoutDuringRotation ++ [.next 1])).table.rows,
      x.familyID = 3 ∧ x.revokedAt = none := by
  have hexec : exec tokenTxStep (tokenTxStart oneSession) logoutDuringRotation =
      some (tokenTxRun oneSession logoutDuringRotation) := rfl
  refine ⟨Reach.of_exec (meets_unguarded _ _ _) hexec, rfl, rfl, ?_, by decide⟩
  intro t tx htx
  match t with
  | 0 =>
    cases htx
    rfl
  | 1 =>
    cases htx
    rfl
  | t + 2 => cases htx

end ConvoyChat.Store
