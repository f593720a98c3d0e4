import ConvoyChat.Lib.Proc
import ConvoyChat.Models
import Mathlib.Data.Int.Notation
import Mathlib.Data.Nat.Notation

/-!
# Presence

Models of `PresenceConnect`, `PresenceDisconnect`, `PresenceHeartbeat` and
`PresenceSetStatus` (`internal/store/presence.go` lines 33–125), as procedures over the
single commands they send to Redis and Postgres, and what these commands do to the two
keys and the row of one user. Keys do not expire here; a time to live is only recorded.

* `presenceConnect_run`, `presenceDisconnect_run`, `presenceHeartbeat_run`: the calls with
  nothing in between.
-/

namespace ConvoyChat.Store

open ConvoyChat.Lib

/-- A time to live in seconds. -/
abbrev Seconds := ℕ

/-- `connsSafetyTTL`. -/
def connsSafetyTTL : Seconds := 24 * 60 * 60

/-- A Redis key: what it holds, and its time to live if it has one. -/
structure RedisKey (α : Type) where
  value : α
  ttl : Option Seconds
deriving DecidableEq, Repr

/-- What Redis and Postgres hold about the presence of one user. -/
structure PresenceKeys where
  /-- `presence:conns:{user_id}` -/
  conns : Option (RedisKey ℤ)
  /-- `presence:status:{user_id}` -/
  status : Option (RedisKey PresenceStatus)
  /-- `status` and `last_seen_at` of the row in `user_presence` -/
  row : Option (PresenceStatus × Time)
deriving DecidableEq, Repr

/-- The commands that the presence functions send. -/
inductive PresenceOp
  | incrConns
  | decrConns
  | expireConns (ttl : Seconds)
  | setConns (n : ℤ) (ttl : Seconds)
  | expireStatus (ttl : Seconds)
  | setStatus (status : PresenceStatus) (ttl : Seconds)
  | delStatus
  | upsertUserPresence (status : PresenceStatus)
deriving DecidableEq, Repr

/-- `EXPIRE` tells whether the key exists. -/
abbrev PresenceOp.Res : PresenceOp → Type
  | incrConns => Except StoreErr ℤ
  | decrConns => Except StoreErr ℤ
  | expireConns _ => Except StoreErr Bool
  | setConns _ _ => Except StoreErr Unit
  | expireStatus _ => Except StoreErr Bool
  | setStatus _ _ => Except StoreErr Unit
  | delStatus => Except StoreErr Unit
  | upsertUserPresence _ => Except StoreErr Unit

abbrev PresenceProc := Proc PresenceOp PresenceOp.Res

namespace PresenceKeys

/-- No connection, and never seen. -/
def empty : PresenceKeys := ⟨none, none, none⟩

/-- An absent counter is 0. -/
def count (keys : PresenceKeys) : ℤ := (keys.conns.map (·.value)).getD 0

/-- The user's status, which is offline when the key is absent. -/
def seen (keys : PresenceKeys) : PresenceStatus := (keys.status.map (·.value)).getD .offline

/-- The value of the status key. -/
def statusValue (keys : PresenceKeys) : Option PresenceStatus := keys.status.map (·.value)

/-- `INCRBY`, which keeps the time to live. -/
def addConns (keys : PresenceKeys) (n : ℤ) : PresenceKeys :=
  { keys with conns := some ⟨keys.count + n, keys.conns.bind (·.ttl)⟩ }

end PresenceKeys

/-- The command, when it does not fail; `now` is `NOW()`. -/
def PresenceOp.serve (now : Time) : (o : PresenceOp) → PresenceKeys → o.Res × PresenceKeys
  | .incrConns, keys => (.ok (keys.count + 1), keys.addConns 1)
  | .decrConns, keys => (.ok (keys.count - 1), keys.addConns (-1))
  | .expireConns ttl, keys =>
    (.ok keys.conns.isSome, { keys with conns := keys.conns.map fun key => { key with ttl } })
  | .setConns n ttl, keys => (.ok (), { keys with conns := some ⟨n, ttl⟩ })
  | .expireStatus ttl, keys =>
    (.ok keys.status.isSome, { keys with status := keys.status.map fun key => { key with ttl } })
  | .setStatus status ttl, keys => (.ok (), { keys with status := some ⟨status, ttl⟩ })
  | .delStatus, keys => (.ok (), { keys with status := none })
  | .upsertUserPresence status, keys => (.ok (), { keys with row := some (status, now) })

/-! ## The calls -/

/-- Model of `PresenceConnect` (lines 33–56): whether the user went online. -/
def presenceConnect (ttl : Seconds) : PresenceProc (Except StoreErr Bool) := do
  match ← Proc.perform PresenceOp.incrConns with
  | .error err => return .error err
  | .ok count =>
    match ← Proc.perform (PresenceOp.expireConns connsSafetyTTL) with
    | .error err => return .error err
    | .ok _ =>
      if count > 1 then
        match ← Proc.perform (PresenceOp.expireStatus ttl) with
        | .error err => return .error err
        | .ok _ => return .ok false
      else
        match ← Proc.perform (PresenceOp.setStatus .online ttl) with
        | .error err => return .error err
        | .ok () =>
          match ← Proc.perform (PresenceOp.upsertUserPresence .online) with
          | .error err => return .error err
          | .ok () => return .ok true

/-- The end of `PresenceDisconnect` (lines 77–83). -/
def clearStatus : PresenceProc (Except StoreErr Bool) := do
  match ← Proc.perform PresenceOp.delStatus with
  | .error err => return .error err
  | .ok () =>
    match ← Proc.perform (PresenceOp.upsertUserPresence .offline) with
    | .error err => return .error err
    | .ok () => return .ok true

/-- Model of `PresenceDisconnect` (lines 61–84): whether the user went offline. -/
def presenceDisconnect : PresenceProc (Except StoreErr Bool) := do
  match ← Proc.perform PresenceOp.decrConns with
  | .error err => return .error err
  | .ok count =>
    if count > 0 then return .ok false
    else if count < 0 then
      match ← Proc.perform (PresenceOp.setConns 0 connsSafetyTTL) with
      | .error err => return .error err
      | .ok () => clearStatus
    else clearStatus

/-- The end of `PresenceHeartbeat` (lines 103–106). -/
def refreshConns : PresenceProc (Except StoreErr Unit) := do
  match ← Proc.perform (PresenceOp.expireConns connsSafetyTTL) with
  | .error err => return .error err
  | .ok _ => return .ok ()

/-- Model of `PresenceHeartbeat` (lines 92–107). -/
def presenceHeartbeat (ttl : Seconds) : PresenceProc (Except StoreErr Unit) := do
  match ← Proc.perform (PresenceOp.expireStatus ttl) with
  | .error err => return .error err
  | .ok refreshed =>
    if !refreshed then
      match ← Proc.perform (PresenceOp.setStatus .online ttl) with
      | .error err => return .error err
      | .ok () => refreshConns
    else refreshConns

/-- Model of `PresenceSetStatus` (lines 112–117). -/
def presenceSetStatus (status : PresenceStatus)
    (ttl : Seconds) : PresenceProc (Except StoreErr Unit) := do
  match ← Proc.perform (PresenceOp.setStatus status ttl) with
  | .error err => return .error err
  | .ok () => Proc.perform (PresenceOp.upsertUserPresence status)

/-! ## One call at a time -/

variable (keys : PresenceKeys) (ttl : Seconds) (now : Time)

/-- A time to live changes no value. -/
theorem map_value_map_ttl {α : Type} (key : Option (RedisKey α)) (ttl : Seconds) :
    (key.map fun key => { key with ttl := some ttl }).map (·.value) = key.map (·.value) := by
  rw [Option.map_map]
  rfl

theorem expireConns_count :
    ((PresenceOp.expireConns ttl).serve now keys).2.count = keys.count := by
  show ((keys.conns.map _).map _).getD 0 = _
  rw [map_value_map_ttl]
  rfl

theorem expireStatus_statusValue :
    ((PresenceOp.expireStatus ttl).serve now keys).2.statusValue = keys.statusValue :=
  map_value_map_ttl _ _

theorem presenceConnect_run :
    ((presenceConnect ttl).run (PresenceOp.serve now) keys).1 = .ok (decide (keys.count ≤ 0)) ∧
    ((presenceConnect ttl).run (PresenceOp.serve now) keys).2.count = keys.count + 1 ∧
    ((presenceConnect ttl).run (PresenceOp.serve now) keys).2.statusValue =
      if keys.count ≤ 0 then some .online else keys.statusValue := by
  by_cases hfirst : keys.count ≤ 0
  · have hcount : ¬ keys.count + 1 > 1 := by omega
    simp only [presenceConnect, Proc.run_bind]
    simp only [Proc.perform, Proc.run, PresenceOp.serve]
    rw [if_neg hcount, decide_eq_true hfirst, if_pos hfirst]
    exact ⟨rfl, expireConns_count (keys.addConns 1) connsSafetyTTL now, rfl⟩
  · have hcount : keys.count + 1 > 1 := by omega
    simp only [presenceConnect, Proc.run_bind]
    simp only [Proc.perform, Proc.run, PresenceOp.serve]
    rw [if_pos hcount, decide_eq_false hfirst, if_neg hfirst]
    exact ⟨rfl, expireConns_count (keys.addConns 1) connsSafetyTTL now,
      expireStatus_statusValue keys ttl now⟩

/-- A disconnect that finds the counter at 0 or below leaves it at 0. -/
theorem presenceDisconnect_run :
    (presenceDisconnect.run (PresenceOp.serve now) keys).1 = .ok (decide (keys.count ≤ 1)) ∧
    (presenceDisconnect.run (PresenceOp.serve now) keys).2.count = max 0 (keys.count - 1) ∧
    (presenceDisconnect.run (PresenceOp.serve now) keys).2.statusValue =
      if keys.count ≤ 1 then none else keys.statusValue := by
  by_cases hlast : keys.count ≤ 1
  · have hcount : ¬ keys.count - 1 > 0 := by omega
    simp only [presenceDisconnect, Proc.run_bind]
    simp only [Proc.perform, Proc.run, PresenceOp.serve]
    rw [if_neg hcount, decide_eq_true hlast, if_pos hlast]
    by_cases hneg : keys.count - 1 < 0
    · rw [if_pos hneg, Int.max_eq_left (Int.le_of_lt hneg)]
      exact ⟨rfl, rfl, rfl⟩
    · rw [if_neg hneg, Int.max_eq_right (Int.not_lt.mp hneg)]
      exact ⟨rfl, rfl, rfl⟩
  · have hcount : keys.count - 1 > 0 := by omega
    simp only [presenceDisconnect, Proc.run_bind]
    simp only [Proc.perform, Proc.run, PresenceOp.serve]
    rw [if_pos hcount, decide_eq_false hlast, if_neg hlast, Int.max_eq_right (Int.le_of_lt hcount)]
    exact ⟨rfl, rfl, rfl⟩

/-- A heartbeat finds the status of a live connection. -/
theorem presenceHeartbeat_run {status : PresenceStatus} (h : keys.statusValue = some status) :
    ((presenceHeartbeat ttl).run (PresenceOp.serve now) keys).2.count = keys.count ∧
    ((presenceHeartbeat ttl).run (PresenceOp.serve now) keys).2.statusValue = keys.statusValue := by
  have hkey : keys.status.isSome = true := by
    obtain ⟨key, hkey, -⟩ := Option.map_eq_some_iff.mp h
    rw [hkey]
    rfl
  simp only [presenceHeartbeat, Proc.run_bind]
  simp only [Proc.perform, Proc.run, PresenceOp.serve, hkey]
  exact ⟨expireConns_count keys connsSafetyTTL now, expireStatus_statusValue keys ttl now⟩

end ConvoyChat.Store
