import ConvoyChat.Lib.Runs
import ConvoyChat.Store.Presence
import Mathlib.Algebra.BigOperators.Ring.Finset
import Mathlib.Algebra.Order.BigOperators.Group.Finset
import Mathlib.Tactic.Ring

/-!
# The connections of one user

Any number of connections of a user, on any servers. Each one calls `PresenceConnect`
once, `PresenceHeartbeat` any number of times while it is live, each in a goroutine of
its own (`internal/websocket/client.go` lines 117–126), and `PresenceDisconnect` once,
after its `PresenceConnect` has returned (`server.go` lines 151–165). The commands of
all these calls reach Redis and Postgres in any order; none fails and no key expires.

The counter is right in every run. The status key is not: a `DEL` decided on by a last
disconnect may be executed after a new connection has set the key, and a heartbeat may
set it after that `DEL`.

* `presence_settles`: when all calls have returned, the counter is the number of the
  connections; and the key exists if and only if there is one, in every run in which
  each `SET` finds a connection or comes before a `DEL`, and each `DEL` finds none or
  comes before a `SET`.
* `reconnect_deleted`: two runs in which the last command on the key is the wrong one.
-/

namespace ConvoyChat.System

open ConvoyChat.Lib ConvoyChat.Store

/-- `presenceTTL` (`internal/websocket/presence.go` line 17). -/
def presenceTTL : Seconds := 30

/-- The call of connection `n` that a goroutine makes. -/
inductive PresenceCaller
  | connect (n : ℕ)
  /-- the `j`-th heartbeat -/
  | heartbeat (n j : ℕ)
  | disconnect (n : ℕ)
deriving DecidableEq, Repr

/-- A call whose result nobody reads here. -/
def discard {α : Type} (p : PresenceProc α) : PresenceProc Unit := p >>= fun _ => pure ()

structure Presence where
  keys : PresenceKeys
  /-- the connections so far are `0, …, opened - 1` -/
  opened : ℕ
  /-- the calls so far, with what is left of them -/
  calls : PresenceCaller → Option (PresenceProc Unit)

inductive PresenceAction
  | connect
  | heartbeat (n j : ℕ)
  | disconnect (n : ℕ)
  /-- the next command of a call is executed -/
  | serve (c : PresenceCaller) (now : Time)
deriving DecidableEq, Repr

namespace Presence

def start : Presence := ⟨.empty, 0, fun _ => none⟩

def resume (s : Presence) (c : PresenceCaller) (p : PresenceProc Unit) : Presence :=
  { s with calls := Function.update s.calls c (some p) }

/-- A call has returned. -/
def returned : Option (PresenceProc Unit) → Bool
  | some (.ret _) => true
  | _ => false

def step (s : Presence) : PresenceAction → Option Presence
  | .connect =>
    some ({ s with opened := s.opened + 1 }.resume (.connect s.opened)
      (discard (presenceConnect presenceTTL)))
  | .heartbeat n j =>
    if n < s.opened ∧ (s.calls (.disconnect n)).isNone ∧ (s.calls (.heartbeat n j)).isNone then
      some (s.resume (.heartbeat n j) (discard (presenceHeartbeat presenceTTL)))
    else none
  | .disconnect n =>
    if returned (s.calls (.connect n)) ∧ (s.calls (.disconnect n)).isNone then
      some (s.resume (.disconnect n) (discard presenceDisconnect))
    else none
  | .serve c now =>
    match s.calls c with
    | some (.op o k) =>
      some ({ s with keys := (o.serve now s.keys).2 }.resume c (k (o.serve now s.keys).1))
    | _ => none

/-- The connections that have connected and not disconnected. -/
def connected (s : Presence) : ℕ :=
  ((Finset.range s.opened).filter fun n =>
    returned (s.calls (.connect n)) ∧ (s.calls (.disconnect n)).isNone).card

/-- All calls have returned. -/
def Quiet (s : Presence) : Prop := ∀ c p, s.calls c = some p → p = .ret ()

end Presence

/-- An answer of Redis or Postgres. -/
def Answered (o : PresenceOp) (r : o.Res) : Prop := ∃ now keys, (o.serve now keys).1 = r

/-- Some call is going to execute `o`. -/
def Presence.Pending (s : Presence) (o : PresenceOp) : Prop :=
  ∃ c p, s.calls c = some p ∧ p.Owes Answered (fun _ => False) o

/-- A `SET` of the status finds a connection, or a `DEL` comes after it; a `DEL` finds no
    connection, or a `SET` comes after it. -/
def Orderly (s : Presence) : PresenceAction → Prop
  | .serve c _ => ∀ o k, s.calls c = some (.op o k) →
    ((∃ status ttl, o = .setStatus status ttl) → 0 < s.keys.count ∨ s.Pending .delStatus) ∧
      (o = .delStatus → s.keys.count ≤ 0 ∨ s.Pending (.setStatus .online presenceTTL))
  | _ => True

/-- The commands that change the counter. -/
def Counts (o : PresenceOp) : Prop :=
  o = .incrConns ∨ o = .decrConns ∨ ∃ n ttl, o = .setConns n ttl

/-! ## What the calls do -/

theorem never_nothing (p : PresenceProc Unit) (allow : (o : PresenceOp) → o.Res → Prop) :
    p.Never allow fun _ => False := by
  induction p with
  | ret a => exact id
  | op o k ih =>
    rintro (h | ⟨a, -, h⟩)
    · exact h
    · exact ih a h

theorem not_counts_expireConns (ttl : Seconds) : ¬ Counts (.expireConns ttl) := by simp [Counts]

theorem not_counts_expireStatus (ttl : Seconds) : ¬ Counts (.expireStatus ttl) := by simp [Counts]

theorem not_counts_setStatus (status : PresenceStatus) (ttl : Seconds) :
    ¬ Counts (.setStatus status ttl) := by simp [Counts]

theorem not_counts_delStatus : ¬ Counts .delStatus := by simp [Counts]

theorem not_counts_upsert (status : PresenceStatus) : ¬ Counts (.upsertUserPresence status) := by
  simp [Counts]

/-- `PresenceConnect` counts first, and never again. -/
theorem presenceConnect_counts (ttl : Seconds) :
    ∃ k, presenceConnect ttl = .op .incrConns k ∧ (∀ err, k (.error err) = .ret (.error err)) ∧
      ∀ r, (k r).Never Proc.Always Counts := by
  refine ⟨_, rfl, fun _ => rfl, fun r => ?_⟩
  cases r with
  | error err => exact Proc.Never.ret _
  | ok count =>
    refine Proc.Never.perform (not_counts_expireConns _) fun r _ => ?_
    cases r with
    | error err => exact Proc.Never.ret _
    | ok b =>
      dsimp only
      split_ifs
      · refine Proc.Never.perform (not_counts_expireStatus _) fun r _ => ?_
        cases r with
        | error err => exact Proc.Never.ret _
        | ok b => exact Proc.Never.ret _
      · refine Proc.Never.perform (not_counts_setStatus _ _) fun r _ => ?_
        cases r with
        | error err => exact Proc.Never.ret _
        | ok b =>
          refine Proc.Never.perform (not_counts_upsert _) fun r _ => ?_
          cases r with
          | error err => exact Proc.Never.ret _
          | ok b => exact Proc.Never.ret _

/-- A first connection sets the status after it has counted. -/
theorem presenceConnect_spec (ttl : Seconds) :
    ∃ k, discard (presenceConnect ttl) = .op .incrConns k ∧
      (∀ r, (k r).Never Proc.Always Counts) ∧
      ∀ count : ℤ, count ≤ 1 →
        (k (.ok count)).Owes Answered (fun _ => False) (.setStatus .online ttl) := by
  refine ⟨_, rfl, fun r => ?_, fun count hcount => ?_⟩
  · obtain ⟨k, hk, -, hnever⟩ := presenceConnect_counts ttl
    cases hk
    exact (hnever r).bind fun _ => Proc.Never.ret _
  · refine .inr ⟨id, fun a ha => ?_⟩
    obtain ⟨now, keys, rfl⟩ := ha
    have hle : ¬ count > 1 := by omega
    simp only [PresenceOp.serve, if_neg hle]
    exact .inl ⟨rfl, fun _ => never_nothing _ _⟩

theorem clearStatus_never : clearStatus.Never Proc.Always Counts := by
  refine Proc.Never.perform not_counts_delStatus fun r _ => ?_
  cases r with
  | error err => exact Proc.Never.ret _
  | ok u =>
    refine Proc.Never.perform (not_counts_upsert _) fun r _ => ?_
    cases r with
    | error err => exact Proc.Never.ret _
    | ok u => exact Proc.Never.ret _

/-- `PresenceDisconnect` counts first; unless the counter went below 0 it does not touch
    it again, and a last one deletes the status. -/
theorem presenceDisconnect_spec :
    ∃ k, discard presenceDisconnect = .op .decrConns k ∧
      (∀ count : ℤ, 0 ≤ count → (k (.ok count)).Never Proc.Always Counts) ∧
      (k (.ok 0)).Owes Answered (fun _ => False) .delStatus := by
  refine ⟨_, rfl, fun count hcount => ?_, ?_⟩
  · refine Proc.Never.bind ?_ fun _ => Proc.Never.ret _
    have hneg : ¬ count < 0 := by omega
    simp only [Proc.bind, if_neg hneg]
    split_ifs
    · exact Proc.Never.ret _
    · exact clearStatus_never
  · exact .inl ⟨rfl, fun _ => never_nothing _ _⟩

theorem refreshConns_never : refreshConns.Never Proc.Always Counts := by
  refine Proc.Never.perform (not_counts_expireConns _) fun r _ => ?_
  cases r with
  | error err => exact Proc.Never.ret _
  | ok b => exact Proc.Never.ret _

/-- `PresenceHeartbeat` does not count. -/
theorem presenceHeartbeat_spec (ttl : Seconds) :
    (discard (presenceHeartbeat ttl)).Never Proc.Always Counts := by
  refine Proc.Never.bind ?_ fun _ => Proc.Never.ret _
  refine Proc.Never.perform (not_counts_expireStatus _) fun r _ => ?_
  cases r with
  | error err => exact Proc.Never.ret _
  | ok refreshed =>
    dsimp only
    split_ifs
    · refine Proc.Never.perform (not_counts_setStatus _ _) fun r _ => ?_
      cases r with
      | error err => exact Proc.Never.ret _
      | ok u => exact refreshConns_never
    · exact refreshConns_never

/-! ## The counter -/

/-- The `INCR` of a connect was executed. -/
def begun : Option (PresenceProc Unit) → Bool
  | none => false
  | some (.op .incrConns _) => false
  | some _ => true

/-- The `DECR` of a disconnect was executed. -/
def ended : Option (PresenceProc Unit) → Bool
  | none => false
  | some (.op .decrConns _) => false
  | some _ => true

/-- What connection `n` contributes to the counter. -/
def Presence.weight (s : Presence) (n : ℕ) : ℤ :=
  if begun (s.calls (.connect n)) && !ended (s.calls (.disconnect n)) then 1 else 0

/-- A connect or a disconnect has yet to count, or will not count any more; a heartbeat
    never counts. -/
def CallOk : PresenceCaller → PresenceProc Unit → Prop
  | .connect _, p => p = discard (presenceConnect presenceTTL) ∨ p.Never Proc.Always Counts
  | .heartbeat _ _, p => p.Never Proc.Always Counts
  | .disconnect _, p => p = discard presenceDisconnect ∨ p.Never Proc.Always Counts

structure Tallied (s : Presence) : Prop where
  unopened : ∀ n, s.opened ≤ n → s.calls (.connect n) = none
  calls : ∀ c p, s.calls c = some p → CallOk c p
  connected : ∀ n p, s.calls (.disconnect n) = some p → s.calls (.connect n) = some (.ret ())
  count : s.keys.count = ∑ n ∈ Finset.range s.opened, s.weight n

variable {s s' : Presence} {a : PresenceAction} {c : PresenceCaller} {o : PresenceOp} {now : Time}
  {ok : Presence → PresenceAction → Prop} {n : ℕ}

theorem weight_nonneg (s : Presence) (n : ℕ) : 0 ≤ s.weight n := by
  unfold Presence.weight
  split_ifs <;> omega

/-- A sum of which one term changes. -/
theorem sum_change {f g : ℕ → ℤ} {l : Finset ℕ} (hn : n ∈ l) {d : ℤ} (hd : g n = f n + d)
    (hsame : ∀ m, m ≠ n → g m = f m) : ∑ m ∈ l, g m = ∑ m ∈ l, f m + d := by
  have hrest : ∑ m ∈ l.erase n, g m = ∑ m ∈ l.erase n, f m :=
    Finset.sum_congr rfl fun m hm => hsame m (Finset.ne_of_mem_erase hm)
  rw [← Finset.add_sum_erase l g hn, ← Finset.add_sum_erase l f hn, hd, hrest]
  ring

theorem resume_self (s : Presence) (c : PresenceCaller) (p : PresenceProc Unit) :
    (s.resume c p).calls c = some p := Function.update_self _ _ _

theorem resume_of_ne {c' : PresenceCaller} (s : Presence) (p : PresenceProc Unit) (h : c' ≠ c) :
    (s.resume c p).calls c' = s.calls c' := Function.update_of_ne h _ _

/-- A command that does not count leaves the counter. -/
theorem count_serve (h : ¬ Counts o) (now : Time) (keys : PresenceKeys) :
    (o.serve now keys).2.count = keys.count := by
  cases o with
  | incrConns => exact absurd (.inl rfl) h
  | decrConns => exact absurd (.inr (.inl rfl)) h
  | setConns n ttl => exact absurd (.inr (.inr ⟨n, ttl, rfl⟩)) h
  | expireConns ttl =>
    simp only [PresenceOp.serve, PresenceKeys.count, Option.map_map]
    rfl
  | _ => rfl

theorem begun_of_never {p : PresenceProc Unit} (hp : p.Never Proc.Always Counts) :
    begun (some p) = true := by
  cases p with
  | ret u => rfl
  | op o k =>
    cases o with
    | incrConns => exact absurd (.inl rfl) hp.not
    | _ => rfl

theorem ended_of_never {p : PresenceProc Unit} (hp : p.Never Proc.Always Counts) :
    ended (some p) = true := by
  cases p with
  | ret u => rfl
  | op o k =>
    cases o with
    | decrConns => exact absurd (.inr (.inl rfl)) hp.not
    | _ => rfl

theorem callOk_of_never {p : PresenceProc Unit} (hp : p.Never Proc.Always Counts) : CallOk c p := by
  cases c with
  | connect n => exact .inr hp
  | heartbeat n j => exact hp
  | disconnect n => exact .inr hp

theorem Tallied.opened (h : Tallied s) {p : PresenceProc Unit}
    (hc : s.calls (.connect n) = some p) :
    n < s.opened := by
  by_contra hn
  rw [h.unopened n (by omega)] at hc
  cases hc

/-- A connection whose connect has not returned does not disconnect. -/
theorem Tallied.connecting (h : Tallied s) {k : o.Res → PresenceProc Unit}
    (hc : s.calls (.connect n) = some (.op o k)) : s.calls (.disconnect n) = none := by
  cases hd : s.calls (.disconnect n) with
  | none => rfl
  | some p =>
    rw [h.connected n p hd] at hc
    cases hc

/-- The contributions do not change with a call that has counted before and after, or
    neither before nor after. -/
theorem weight_resume {p : PresenceProc Unit}
    (hbegun : ∀ n, c = .connect n → begun (some p) = begun (s.calls c))
    (hended : ∀ n, c = .disconnect n → ended (some p) = ended (s.calls c)) (m : ℕ) :
    (s.resume c p).weight m = s.weight m := by
  have hconnect : begun ((s.resume c p).calls (.connect m)) = begun (s.calls (.connect m)) := by
    by_cases hm : .connect m = c
    · rw [hm, resume_self, hbegun m hm.symm]
    · rw [resume_of_ne _ _ hm]
  have hdisconnect : ended ((s.resume c p).calls (.disconnect m)) =
      ended (s.calls (.disconnect m)) := by
    by_cases hm : .disconnect m = c
    · rw [hm, resume_self, hended m hm.symm]
    · rw [resume_of_ne _ _ hm]
  rw [Presence.weight, Presence.weight, hconnect, hdisconnect]

/-- The contributions of the other connections do not change. -/
theorem weight_resume_of_ne {p : PresenceProc Unit} {m : ℕ} (hconnect : c ≠ .connect m)
    (hdisconnect : c ≠ .disconnect m) : (s.resume c p).weight m = s.weight m := by
  rw [Presence.weight, Presence.weight, resume_of_ne _ _ hconnect.symm,
    resume_of_ne _ _ hdisconnect.symm]

/-- A call begins, or goes on. -/
theorem Tallied.resume (h : Tallied s) (keys : PresenceKeys) {p : PresenceProc Unit}
    (hok : CallOk c p)
    (hconnect : ∀ n, c = .connect n → n < s.opened ∧ s.calls (.disconnect n) = none)
    (hdisconnect : ∀ n, c = .disconnect n → s.calls (.connect n) = some (.ret ()))
    (hcount : keys.count = ∑ n ∈ Finset.range s.opened, (s.resume c p).weight n) :
    Tallied ({ s with keys }.resume c p) := by
  refine ⟨fun n hn => ?_, fun c' p' hc' => ?_, fun n p' hn => ?_, hcount⟩
  · have hne : .connect n ≠ c := by
      intro heq
      have hlt := (hconnect n heq.symm).1
      have hn : s.opened ≤ n := hn
      omega
    rw [resume_of_ne _ _ hne]
    exact h.unopened n hn
  · by_cases hcc : c' = c
    · subst hcc
      rw [resume_self] at hc'
      cases hc'
      exact hok
    · rw [resume_of_ne _ _ hcc] at hc'
      exact h.calls c' p' hc'
  · have hret : s.calls (.connect n) = some (.ret ()) := by
      by_cases hnc : .disconnect n = c
      · exact hdisconnect n hnc.symm
      · rw [resume_of_ne _ _ hnc] at hn
        exact h.connected n p' hn
    have hne : .connect n ≠ c := by
      rintro rfl
      have hother : PresenceCaller.disconnect n ≠ .connect n := by simp
      rw [resume_of_ne _ _ hother] at hn
      rw [(hconnect n rfl).2] at hn
      cases hn
    rw [resume_of_ne _ _ hne]
    exact hret

/-- A call that does not count executes a command. -/
theorem Tallied.serve_never (h : Tallied s) {k : o.Res → PresenceProc Unit}
    (hc : s.calls c = some (.op o k)) (hp : (Proc.op o k).Never Proc.Always Counts) (now : Time) :
    Tallied ({ s with keys := (o.serve now s.keys).2 }.resume c (k (o.serve now s.keys).1)) := by
  have hk : (k (o.serve now s.keys).1).Never Proc.Always Counts := hp.next trivial
  refine h.resume _ (callOk_of_never hk) ?_ ?_ ?_
  · rintro n rfl
    exact ⟨h.opened hc, h.connecting hc⟩
  · rintro n rfl
    exact h.connected n _ hc
  · rw [count_serve hp.not, h.count]
    refine Finset.sum_congr rfl fun n _ => (weight_resume ?_ ?_ n).symm
    · intro m _
      rw [hc, begun_of_never hk, begun_of_never hp]
    · intro m _
      rw [hc, ended_of_never hk, ended_of_never hp]

/-- The `INCR` of a connection. -/
theorem Tallied.incr (h : Tallied s) {k : PresenceOp.incrConns.Res → PresenceProc Unit}
    (hc : s.calls (.connect n) = some (.op .incrConns k))
    (hk : ∀ r, (k r).Never Proc.Always Counts) :
    Tallied ({ s with keys := s.keys.addConns 1 }.resume (.connect n)
      (k (.ok (s.keys.count + 1)))) := by
  have hnone := h.connecting hc
  refine h.resume _ (callOk_of_never (hk _)) ?_ nofun ?_
  · intro m hm
    cases hm
    exact ⟨h.opened hc, hnone⟩
  · have hn : n ∈ Finset.range s.opened := Finset.mem_range.mpr (h.opened hc)
    have hother : PresenceCaller.disconnect n ≠ .connect n := by simp
    show s.keys.count + 1 = _
    rw [h.count]
    refine (sum_change hn ?_ fun m hm => ?_).symm
    · rw [Presence.weight, Presence.weight, resume_self, resume_of_ne _ _ hother, hc, hnone,
        begun_of_never (hk _)]
      rfl
    · exact weight_resume_of_ne (by simpa using Ne.symm hm) (by simp)

/-- The `DECR` of a connection leaves the counter at 0 or above. -/
theorem Tallied.decr (h : Tallied s) {k : PresenceOp.decrConns.Res → PresenceProc Unit}
    (hc : s.calls (.disconnect n) = some (.op .decrConns k))
    (hk : ∀ count : ℤ, 0 ≤ count → (k (.ok count)).Never Proc.Always Counts) :
    0 ≤ s.keys.count - 1 ∧ Tallied ({ s with keys := s.keys.addConns (-1) }.resume (.disconnect n)
      (k (.ok (s.keys.count - 1)))) := by
  have hret := h.connected n _ hc
  have hn : n ∈ Finset.range s.opened := Finset.mem_range.mpr (h.opened hret)
  have hweight : s.weight n = 1 := by
    rw [Presence.weight, hret, hc]
    rfl
  have hpos : 0 ≤ s.keys.count - 1 := by
    have hle : s.weight n ≤ ∑ m ∈ Finset.range s.opened, s.weight m :=
      Finset.single_le_sum (fun m _ => weight_nonneg s m) hn
    rw [h.count]
    omega
  refine ⟨hpos, h.resume _ (callOk_of_never (hk _ hpos)) nofun ?_ ?_⟩
  · intro m hm
    cases hm
    exact hret
  · have hother : PresenceCaller.connect n ≠ .disconnect n := by simp
    show s.keys.count + -1 = _
    have hsum : ∑ m ∈ Finset.range s.opened, (s.resume (.disconnect n)
        (k (.ok (s.keys.count - 1)))).weight m = ∑ m ∈ Finset.range s.opened, s.weight m + -1 := by
      refine sum_change hn ?_ fun m hm => ?_
      · rw [hweight, Presence.weight, resume_self, resume_of_ne _ _ hother, hret,
          ended_of_never (hk _ hpos)]
        rfl
      · exact weight_resume_of_ne (by simp) (by simpa using Ne.symm hm)
    rw [hsum, h.count]

/-- A call in progress is about to count, or will not count any more. -/
theorem Tallied.serving (h : Tallied s) {k : o.Res → PresenceProc Unit}
    (hc : s.calls c = some (.op o k)) :
    (∃ n, c = .connect n ∧ Proc.op o k = discard (presenceConnect presenceTTL)) ∨
    (∃ n, c = .disconnect n ∧ Proc.op o k = discard presenceDisconnect) ∨
    (Proc.op o k).Never Proc.Always Counts := by
  have hok := h.calls c _ hc
  cases c with
  | connect n =>
    rcases hok with hfresh | hnever
    · exact .inl ⟨n, rfl, hfresh⟩
    · exact .inr (.inr hnever)
  | heartbeat n j => exact .inr (.inr hok)
  | disconnect n =>
    rcases hok with hfresh | hnever
    · exact .inr (.inl ⟨n, rfl, hfresh⟩)
    · exact .inr (.inr hnever)

theorem Tallied.nonneg (h : Tallied s) : 0 ≤ s.keys.count := by
  rw [h.count]
  exact Finset.sum_nonneg fun n _ => weight_nonneg s n

theorem Tallied.start : Tallied Presence.start :=
  ⟨fun _ _ => rfl, nofun, nofun, rfl⟩

/-- A new connection. -/
theorem Tallied.connect (h : Tallied s) :
    Tallied ({ s with opened := s.opened + 1 }.resume (.connect s.opened)
      (discard (presenceConnect presenceTTL))) := by
  have hnew : s.calls (.connect s.opened) = none := h.unopened _ le_rfl
  refine ⟨fun n hn => ?_, fun c p hc => ?_, fun n p hn => ?_, ?_⟩
  · have hn : s.opened + 1 ≤ n := hn
    have hne : PresenceCaller.connect n ≠ .connect s.opened := by
      rw [Ne, PresenceCaller.connect.injEq]
      omega
    rw [resume_of_ne _ _ hne]
    exact h.unopened n (by omega)
  · by_cases hcc : c = .connect s.opened
    · subst hcc
      rw [resume_self] at hc
      cases hc
      exact .inl rfl
    · rw [resume_of_ne _ _ hcc] at hc
      exact h.calls c p hc
  · have hother : PresenceCaller.disconnect n ≠ .connect s.opened := by simp
    rw [resume_of_ne _ _ hother] at hn
    have hret := h.connected n p hn
    have hne : PresenceCaller.connect n ≠ .connect s.opened := by
      intro heq
      rw [heq, hnew] at hret
      cases hret
    rw [resume_of_ne _ _ hne]
    exact hret
  · obtain ⟨k, hk, -, -⟩ := presenceConnect_spec presenceTTL
    have hlast : (s.resume (.connect s.opened) (discard (presenceConnect presenceTTL))).weight
        s.opened = 0 := by
      rw [Presence.weight, resume_self, hk]
      rfl
    show s.keys.count = ∑ n ∈ Finset.range (s.opened + 1), (s.resume (.connect s.opened)
      (discard (presenceConnect presenceTTL))).weight n
    rw [Finset.sum_range_succ, hlast, add_zero, h.count]
    refine Finset.sum_congr rfl fun n hn => (weight_resume_of_ne ?_ (by simp)).symm
    have hn := Finset.mem_range.mp hn
    rw [Ne, PresenceCaller.connect.injEq]
    omega

theorem tallied_step (h : Tallied s) (hs : s.step a = some s') : Tallied s' := by
  cases a with
  | connect =>
    cases hs
    exact h.connect
  | heartbeat n j =>
    simp only [Presence.step] at hs
    split_ifs at hs
    cases hs
    refine h.resume s.keys (presenceHeartbeat_spec _) nofun nofun ?_
    rw [h.count]
    exact Finset.sum_congr rfl fun m _ => (weight_resume_of_ne (by simp) (by simp)).symm
  | disconnect n =>
    simp only [Presence.step] at hs
    split_ifs at hs with hfree
    cases hs
    obtain ⟨hret, hnone⟩ := hfree
    have hret : s.calls (.connect n) = some (.ret ()) := by
      unfold Presence.returned at hret
      split at hret
      · assumption
      · cases hret
    obtain ⟨k, hk, -, -⟩ := presenceDisconnect_spec
    refine h.resume s.keys (.inl rfl) nofun ?_ ?_
    · intro m hm
      cases hm
      exact hret
    · rw [h.count]
      refine Finset.sum_congr rfl fun m _ => (weight_resume ?_ ?_ m).symm
      · intro m hm
        cases hm
      · intro m _
        rw [Option.isNone_iff_eq_none.mp hnone, hk]
        rfl
  | serve c now =>
    simp only [Presence.step] at hs
    split at hs
    · rename_i o k hc
      cases hs
      rcases h.serving hc with ⟨n, rfl, hfresh⟩ | ⟨n, rfl, hfresh⟩ | hnever
      · obtain ⟨k', hk', hnever, -⟩ := presenceConnect_spec presenceTTL
        rw [hk'] at hfresh
        cases hfresh
        exact h.incr hc hnever
      · obtain ⟨k', hk', hnever, -⟩ := presenceDisconnect_spec
        rw [hk'] at hfresh
        cases hfresh
        exact (h.decr hc hnever).2
      · exact h.serve_never hc hnever now
    · cases hs

/-- When all calls have returned, the counter is the number of the connections. -/
theorem Tallied.connected_eq (h : Tallied s) (hquiet : s.Quiet) : s.keys.count = s.connected := by
  rw [h.count, Presence.connected, Finset.card_filter, Nat.cast_sum]
  refine Finset.sum_congr rfl fun n _ => ?_
  rw [Presence.weight]
  cases hc : s.calls (.connect n) with
  | none => rfl
  | some p =>
    rw [hquiet _ p hc]
    cases hd : s.calls (.disconnect n) with
    | none => rfl
    | some p' =>
      rw [hquiet _ p' hd]
      rfl

/-! ## The status key -/

/-- With connections the key exists, or some call is going to set it; without, it does
    not, or some call is going to delete it. -/
structure StatusOk (s : Presence) : Prop where
  online : 0 < s.keys.count → s.keys.status.isSome ∨ s.Pending (.setStatus .online presenceTTL)
  offline : s.keys.count ≤ 0 → s.keys.status = none ∨ s.Pending .delStatus

theorem Presence.Pending.here {keys : PresenceKeys} {p : PresenceProc Unit}
    (h : p.Owes Answered (fun _ => False) o) : ({ s with keys }.resume c p).Pending o :=
  ⟨c, p, resume_self _ _ _, h⟩

/-- A call begins. -/
theorem Presence.Pending.begin (h : s.Pending o) (opened : ℕ) {p : PresenceProc Unit}
    (hc : s.calls c = none) : ({ s with opened }.resume c p).Pending o := by
  obtain ⟨c', p', hc', howes⟩ := h
  have hne : c' ≠ c := by
    rintro rfl
    rw [hc] at hc'
    cases hc'
  exact ⟨c', p', (resume_of_ne _ _ hne).trans hc', howes⟩

/-- Another command is executed. -/
theorem Presence.Pending.serve (h : s.Pending o) {o' : PresenceOp} {k : o'.Res → PresenceProc Unit}
    (hc : s.calls c = some (.op o' k)) (hne : o' ≠ o) (now : Time) :
    ({ s with keys := (o'.serve now s.keys).2 }.resume c (k (o'.serve now s.keys).1)).Pending
      o := by
  obtain ⟨c', p, hc', howes⟩ := h
  by_cases hcc : c' = c
  · subst hcc
    rw [hc] at hc'
    cases hc'
    rcases howes with ⟨heq, -⟩ | ⟨-, hrest⟩
    · exact absurd heq hne
    · exact .here (hrest _ ⟨now, s.keys, rfl⟩)
  · exact ⟨c', p, (resume_of_ne _ _ hcc).trans hc', howes⟩

/-- A call begins, and nothing is executed. -/
theorem StatusOk.begin (h : StatusOk s) (opened : ℕ) {p : PresenceProc Unit}
    (hc : s.calls c = none) : StatusOk ({ s with opened }.resume c p) := by
  constructor
  · intro hpos
    rcases h.online hpos with hsome | hpending
    · exact .inl hsome
    · exact .inr (hpending.begin opened hc)
  · intro hle
    rcases h.offline hle with hnone | hpending
    · exact .inl hnone
    · exact .inr (hpending.begin opened hc)

/-- The commands that neither count nor set or delete the status keep whether it exists. -/
theorem status_serve (hset : ∀ status ttl, o ≠ .setStatus status ttl) (hdel : o ≠ .delStatus)
    (now : Time) (keys : PresenceKeys) :
    (o.serve now keys).2.status.isSome = keys.status.isSome := by
  cases o with
  | setStatus status ttl => exact absurd rfl (hset status ttl)
  | delStatus => exact absurd rfl hdel
  | expireStatus ttl => simp [PresenceOp.serve]
  | _ => rfl

/-- A command that does not count is executed by a call that meets the condition. -/
theorem StatusOk.serve (h : StatusOk s) {k : o.Res → PresenceProc Unit}
    (hc : s.calls c = some (.op o k)) (hcounts : ¬ Counts o)
    (hset : (∃ status ttl, o = .setStatus status ttl) → 0 < s.keys.count ∨ s.Pending .delStatus)
    (hdel : o = .delStatus → s.keys.count ≤ 0 ∨ s.Pending (.setStatus .online presenceTTL))
    (now : Time) :
    StatusOk ({ s with keys := (o.serve now s.keys).2 }.resume c (k (o.serve now s.keys).1)) := by
  have hcount : (o.serve now s.keys).2.count = s.keys.count := count_serve hcounts now s.keys
  by_cases hisSet : ∃ status ttl, o = .setStatus status ttl
  · -- the key exists now
    obtain ⟨status, ttl, rfl⟩ := hisSet
    refine ⟨fun _ => .inl rfl, fun hle => .inr ?_⟩
    rcases hset ⟨status, ttl, rfl⟩ with hpos | hpending
    · have hle : (PresenceOp.serve now (.setStatus status ttl) s.keys).2.count ≤ 0 := hle
      omega
    · exact hpending.serve hc (by simp) now
  by_cases hisDel : o = .delStatus
  · -- it does not exist now
    subst hisDel
    refine ⟨fun hpos => .inr ?_, fun _ => .inl rfl⟩
    rcases hdel rfl with hle | hpending
    · have hpos : 0 < (PresenceOp.serve now .delStatus s.keys).2.count := hpos
      omega
    · exact hpending.serve hc (by simp) now
  have hstatus : (o.serve now s.keys).2.status.isSome = s.keys.status.isSome :=
    status_serve (fun status ttl heq => hisSet ⟨status, ttl, heq⟩) hisDel now s.keys
  constructor
  · intro hpos
    have hpos : 0 < (o.serve now s.keys).2.count := hpos
    rw [hcount] at hpos
    rcases h.online hpos with hsome | hpending
    · exact .inl (hstatus.trans hsome)
    · exact .inr (hpending.serve hc (fun heq => hisSet ⟨_, _, heq⟩) now)
  · intro hle
    have hle : (o.serve now s.keys).2.count ≤ 0 := hle
    rw [hcount] at hle
    rcases h.offline hle with hnone | hpending
    · refine .inl ?_
      show (o.serve now s.keys).2.status = none
      rw [← Option.isNone_iff_eq_none, ← Option.not_isSome, hstatus, hnone]
      rfl
    · exact .inr (hpending.serve hc hisDel now)

theorem statusOk_step (htally : Tallied s) (h : StatusOk s) (hok : Orderly s a)
    (hs : s.step a = some s') : StatusOk s' := by
  cases a with
  | connect =>
    cases hs
    exact h.begin (s.opened + 1) (htally.unopened _ le_rfl)
  | heartbeat n j =>
    simp only [Presence.step] at hs
    split_ifs at hs with hfree
    cases hs
    exact h.begin s.opened (Option.isNone_iff_eq_none.mp hfree.2.2)
  | disconnect n =>
    simp only [Presence.step] at hs
    split_ifs at hs with hfree
    cases hs
    exact h.begin s.opened (Option.isNone_iff_eq_none.mp hfree.2)
  | serve c now =>
    simp only [Presence.step] at hs
    split at hs
    · rename_i o k hc
      cases hs
      rcases htally.serving hc with ⟨n, rfl, hfresh⟩ | ⟨n, rfl, hfresh⟩ | hnever
      · -- counted in; a first connection is going to set the key
        obtain ⟨k', hk', -, howes⟩ := presenceConnect_spec presenceTTL
        rw [hk'] at hfresh
        cases hfresh
        refine ⟨fun _ => ?_, fun hle => ?_⟩
        · by_cases hfirst : s.keys.count + 1 ≤ 1
          · exact .inr (.here (howes _ hfirst))
          · rcases h.online (by omega) with hsome | hpending
            · exact .inl hsome
            · exact .inr (hpending.serve hc (by simp) now)
        · have hle : s.keys.count + 1 ≤ 0 := hle
          have hnonneg := htally.nonneg
          omega
      · -- counted out; a last connection is going to delete the key
        obtain ⟨k', hk', hnever, howes⟩ := presenceDisconnect_spec
        rw [hk'] at hfresh
        cases hfresh
        obtain ⟨hpos, -⟩ := htally.decr hc hnever
        refine ⟨fun hleft => ?_, fun hle => ?_⟩
        · have hleft : 0 < s.keys.count + -1 := hleft
          rcases h.online (by omega) with hsome | hpending
          · exact .inl hsome
          · exact .inr (hpending.serve hc (by simp) now)
        · have hle : s.keys.count + -1 ≤ 0 := hle
          have hzero : s.keys.count - 1 = 0 := by omega
          refine .inr (.here ?_)
          show (k' (.ok (s.keys.count - 1))).Owes _ _ _
          rw [hzero]
          exact howes
      · obtain ⟨hset, hdel⟩ := hok o k hc
        exact h.serve hc hnever.not hset hdel now
    · cases hs

theorem StatusOk.start : StatusOk Presence.start :=
  ⟨fun h => absurd h (lt_irrefl 0), fun _ => .inl rfl⟩

/-- Nothing is pending when all calls have returned. -/
theorem Presence.Quiet.not_pending (h : s.Quiet) : ¬ s.Pending o := by
  rintro ⟨c, p, hc, howes⟩
  rw [h c p hc] at howes
  exact howes

/-- For every order of the commands of any number of connections: when all calls have
    returned, the counter is the number of the connections that have connected and not
    disconnected. If moreover each `SET` found a connection or came before a `DEL`, and
    each `DEL` found none or came before a `SET`, then the status key exists if and only
    if that number is positive. -/
theorem presence_settles (hrun : Reach Presence.step ok Presence.start s) (hquiet : s.Quiet) :
    s.keys.count = s.connected ∧
      ((∀ s a, ok s a → Orderly s a) → (s.keys.status.isSome ↔ 0 < s.connected)) := by
  have htally : Tallied s := hrun.invariant Tallied (fun _ _ _ h _ hs => tallied_step h hs) .start
  have hcount := htally.connected_eq hquiet
  refine ⟨hcount, fun horderly => ?_⟩
  have hinv : Tallied s ∧ StatusOk s := by
    refine hrun.invariant (fun s => Tallied s ∧ StatusOk s) (fun s a s' h hok hs => ?_)
      ⟨.start, .start⟩
    exact ⟨tallied_step h.1 hs, statusOk_step h.1 h.2 (horderly s a hok) hs⟩
  constructor
  · intro hsome
    by_contra hzero
    rcases hinv.2.offline (by omega) with hnone | hpending
    · rw [hnone] at hsome
      cases hsome
    · exact hquiet.not_pending hpending
  · intro hpos
    rcases hinv.2.online (by omega) with hsome | hpending
    · exact hsome
    · exact absurd hpending hquiet.not_pending

/-! ## Three runs -/

/-- The action with which a call begins. -/
def PresenceCaller.begins : PresenceCaller → PresenceAction
  | .connect _ => .connect
  | .heartbeat n j => .heartbeat n j
  | .disconnect n => .disconnect n

theorem step_begins (hs : s.step a = some s') (hc : s.calls c = none) (hc' : s'.calls c ≠ none) :
    a = c.begins := by
  have hnew : ∀ {t : Presence} {c' : PresenceCaller} {p : PresenceProc Unit},
      t.calls c = none → (t.resume c' p).calls c ≠ none → c = c' := by
    intro t c' p hnone hsome
    by_contra hne
    rw [resume_of_ne _ _ hne] at hsome
    exact hsome hnone
  cases a with
  | connect =>
    cases hs
    rw [hnew (t := { s with opened := s.opened + 1 }) hc hc']
    rfl
  | heartbeat n j =>
    simp only [Presence.step] at hs
    split_ifs at hs
    cases hs
    rw [hnew hc hc']
    rfl
  | disconnect n =>
    simp only [Presence.step] at hs
    split_ifs at hs
    cases hs
    rw [hnew hc hc']
    rfl
  | serve c' now =>
    simp only [Presence.step] at hs
    split at hs
    · rename_i o k hsome
      cases hs
      rw [hnew (t := { s with keys := _ }) hc hc', hsome] at hc
      cases hc
    · cases hs

theorem exec_begins {as : List PresenceAction} (hexec : exec Presence.step s as = some s')
    (hc : s.calls c = none) (hc' : s'.calls c ≠ none) : c.begins ∈ as := by
  induction as generalizing s with
  | nil =>
    cases hexec
    exact absurd hc hc'
  | cons a as ih =>
    obtain ⟨t, ht, hrest⟩ := Option.bind_eq_some_iff.mp hexec
    by_cases hnone : t.calls c = none
    · exact List.mem_cons_of_mem _ (ih hrest hnone)
    · rw [step_begins ht hc hnone]
      exact List.mem_cons_self

/-- All the calls that the actions began have returned. -/
def allReturned (s : Presence) (as : List PresenceAction) : Bool :=
  (List.range s.opened).all (fun n => Presence.returned (s.calls (.connect n))) &&
    as.all fun a =>
      match a with
      | .heartbeat n j => Presence.returned (s.calls (.heartbeat n j))
      | .disconnect n => Presence.returned (s.calls (.disconnect n))
      | _ => true

theorem quiet_of_exec {as : List PresenceAction} (hexec : exec Presence.step .start as = some s)
    (hall : allReturned s as = true) : s.Quiet := by
  obtain ⟨hconnects, hothers⟩ := Bool.and_eq_true_iff.mp hall
  have htally : Tallied s := (Reach.of_exec (meets_unguarded _ _ _) hexec).invariant Tallied
    (fun _ _ _ h _ hs => tallied_step h hs) .start
  have hret : ∀ {c p}, s.calls c = some p → Presence.returned (s.calls c) = true → p = .ret () := by
    intro c p hc hr
    rw [hc] at hr
    cases p with
    | ret u => rfl
    | op o k => cases hr
  intro c p hc
  have hbegun : c.begins ∈ as := exec_begins hexec rfl (by rw [hc]; simp)
  cases c with
  | connect n =>
    exact hret hc (List.all_eq_true.mp hconnects n (List.mem_range.mpr (htally.opened hc)))
  | heartbeat n j => exact hret hc (List.all_eq_true.mp hothers _ hbegun)
  | disconnect n => exact hret hc (List.all_eq_true.mp hothers _ hbegun)

/-- A `SET` finds a connection and a `DEL` none. -/
def orderly (s : Presence) : PresenceAction → Bool
  | .serve c _ =>
    match s.calls c with
    | some (.op (.setStatus _ _) _) => 0 < s.keys.count
    | some (.op .delStatus _) => s.keys.count ≤ 0
    | _ => true
  | _ => true

theorem orderly_of_check (s : Presence) (a : PresenceAction) (h : orderly s a = true) :
    Orderly s a := by
  cases a with
  | serve c now =>
    intro o k hc
    simp only [orderly, hc] at h
    constructor
    · rintro ⟨status, ttl, rfl⟩
      exact .inl (of_decide_eq_true h)
    · rintro rfl
      exact .inl (of_decide_eq_true h)
  | _ => trivial

def presenceAfter (as : List PresenceAction) : Presence :=
  (exec Presence.step .start as).getD .start

/-- The next `n` commands of a call. -/
def commands (c : PresenceCaller) (n : ℕ) : List PresenceAction := List.replicate n (.serve c 0)

/-- A connection opens, and a second one; the first one closes. -/
def secondTab : List PresenceAction :=
  [.connect] ++ commands (.connect 0) 4 ++ [.connect] ++ commands (.connect 1) 3 ++
    [.disconnect 0] ++ commands (.disconnect 0) 1

/-- The user reconnects while the old connection is torn down: its `DEL` is executed after
    the `SET` of the new one. -/
def reconnected : List PresenceAction :=
  [.connect] ++ commands (.connect 0) 4 ++ [.disconnect 0] ++ commands (.disconnect 0) 1 ++
    [.connect] ++ commands (.connect 1) 4 ++ commands (.disconnect 0) 2

/-- The commands of the last heartbeat are executed after those of the disconnect. -/
def lateHeartbeat : List PresenceAction :=
  [.connect] ++ commands (.connect 0) 4 ++ [.heartbeat 0 0, .disconnect 0] ++
    commands (.disconnect 0) 3 ++ commands (.heartbeat 0 0) 3

theorem presence_settles_second_tab :
    (presenceAfter secondTab).Quiet ∧ (presenceAfter secondTab).keys.count = 1 ∧
      ((presenceAfter secondTab).keys.status.isSome ↔ 0 < (presenceAfter secondTab).connected) := by
  have hexec : exec Presence.step .start secondTab = some (presenceAfter secondTab) := rfl
  have hquiet := quiet_of_exec hexec (by decide)
  have hrun := Reach.of_exec (meets_of_checks orderly_of_check rfl) hexec
  obtain ⟨hcount, hstatus⟩ := presence_settles hrun hquiet
  exact ⟨hquiet, by rfl, hstatus fun _ _ hok => hok⟩

/-- A user with a connection has no status, and one without has the status online. -/
theorem reconnect_deleted :
    (Reach Presence.step Unguarded .start (presenceAfter reconnected) ∧
      (presenceAfter reconnected).Quiet ∧ (presenceAfter reconnected).connected = 1 ∧
      (presenceAfter reconnected).keys.status = none) ∧
    Reach Presence.step Unguarded .start (presenceAfter lateHeartbeat) ∧
      (presenceAfter lateHeartbeat).Quiet ∧ (presenceAfter lateHeartbeat).connected = 0 ∧
      (presenceAfter lateHeartbeat).keys.status = some ⟨.online, some presenceTTL⟩ := by
  have hreconnect : exec Presence.step .start reconnected = some (presenceAfter reconnected) := rfl
  have hlate : exec Presence.step .start lateHeartbeat = some (presenceAfter lateHeartbeat) := rfl
  exact ⟨⟨Reach.of_exec (meets_unguarded _ _ _) hreconnect, quiet_of_exec hreconnect (by decide),
    by decide, rfl⟩, Reach.of_exec (meets_unguarded _ _ _) hlate, quiet_of_exec hlate (by decide),
    by decide, rfl⟩

end ConvoyChat.System
