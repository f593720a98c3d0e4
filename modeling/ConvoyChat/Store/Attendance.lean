import ConvoyChat.Lib.Runs
import ConvoyChat.Store.Presence
import Mathlib.Data.Finset.Card

/-!
# Presence calls one after another

What the presence functions (`internal/store/presence.go`) are for: the set of a user's
live connections, and the status that the user has chosen. `Attendance` says so without
Redis, and the keys follow it as long as one call ends before the next one begins, none
of them fails, and no key expires. `System/Presence.lean` is about calls that overlap.

* `presence_serial`: along every such sequence the counter is the number of the live
  connections, the status key is there if and only if there is one and holds the chosen
  status, and `PresenceConnect` and `PresenceDisconnect` tell the first from the later
  connections and the last from the earlier disconnects.
-/

namespace ConvoyChat.Store

open ConvoyChat.Lib

/-- The calls that connection `n` makes. -/
inductive PresenceCall
  | connect (n : ℕ)
  | disconnect (n : ℕ)
  | heartbeat (n : ℕ)
  | setStatus (n : ℕ) (status : PresenceStatus)
deriving DecidableEq, Repr

/-- The live connections, and the last status set since the first of them connected,
    which is online when there was none. -/
structure Attendance where
  live : Finset ℕ
  chosen : PresenceStatus
deriving DecidableEq

namespace Attendance

def step (a : Attendance) : PresenceCall → Option Attendance
  | .connect n =>
    if n ∈ a.live then none
    else some ⟨insert n a.live, if a.live = ∅ then .online else a.chosen⟩
  | .disconnect n => if n ∈ a.live then some { a with live := a.live.erase n } else none
  | .heartbeat n => if n ∈ a.live then some a else none
  | .setStatus n status => if n ∈ a.live then some { a with chosen := status } else none

/-- The status to be shown, when anybody is there. -/
def status (a : Attendance) : Option PresenceStatus := if a.live = ∅ then none else some a.chosen

end Attendance

/-- The keys of the user after a call; `now` is `NOW()`. -/
def PresenceCall.serve (ttl : Seconds) (now : Time) : PresenceCall → PresenceKeys → PresenceKeys
  | .connect _, keys => ((presenceConnect ttl).run (PresenceOp.serve now) keys).2
  | .disconnect _, keys => (presenceDisconnect.run (PresenceOp.serve now) keys).2
  | .heartbeat _, keys => ((presenceHeartbeat ttl).run (PresenceOp.serve now) keys).2
  | .setStatus _ status, keys => ((presenceSetStatus status ttl).run (PresenceOp.serve now) keys).2

structure PresenceSerial where
  keys : PresenceKeys
  user : Attendance

namespace PresenceSerial

def start : PresenceSerial := ⟨.empty, ⟨∅, .online⟩⟩

def step (ttl : Seconds) (s : PresenceSerial) (call : PresenceCall × Time) :
    Option PresenceSerial :=
  (s.user.step call.1).map fun user => ⟨call.1.serve ttl call.2 s.keys, user⟩

end PresenceSerial

/-- The keys show the user. -/
structure PresenceKeys.Shows (keys : PresenceKeys) (user : Attendance) : Prop where
  count : keys.count = user.live.card
  status : keys.statusValue = user.status

/-! ## Runs -/

section

variable {ttl : Seconds} {s s' : PresenceSerial}

theorem PresenceKeys.Shows.connect {keys : PresenceKeys} {user : Attendance}
    (h : keys.Shows user) {n : ℕ} (hn : n ∉ user.live) (now : Time) :
    ((PresenceCall.connect n).serve ttl now keys).Shows
      ⟨insert n user.live, if user.live = ∅ then .online else user.chosen⟩ := by
  obtain ⟨-, hcount, hstatus⟩ := presenceConnect_run keys ttl now
  have hpos : 0 ≤ keys.count := by
    rw [h.count]
    exact Int.natCast_nonneg _
  refine ⟨?_, ?_⟩
  · show _ = ((insert n user.live).card : ℤ)
    rw [Finset.card_insert_of_notMem hn]
    show _ = ((user.live.card + 1 : ℕ) : ℤ)
    have hshown := h.count
    have hserved : ((PresenceCall.connect n).serve ttl now keys).count = keys.count + 1 := hcount
    omega
  · have hserved : ((PresenceCall.connect n).serve ttl now keys).statusValue =
        if keys.count ≤ 0 then some .online else keys.statusValue := hstatus
    rw [hserved, Attendance.status, if_neg (Finset.insert_ne_empty n user.live), h.count, h.status]
    by_cases hempty : user.live = ∅
    · rw [if_pos hempty, if_pos]
      rw [hempty, Finset.card_empty]
      exact le_refl 0
    · have hlive : ¬ (user.live.card : ℤ) ≤ 0 := by
        have hcard := Finset.card_pos.mpr (Finset.nonempty_iff_ne_empty.mpr hempty)
        omega
      rw [if_neg hempty, if_neg hlive, Attendance.status, if_neg hempty]

theorem PresenceKeys.Shows.pos {keys : PresenceKeys} {user : Attendance}
    (h : keys.Shows user) {n : ℕ} (hn : n ∈ user.live) : 0 < keys.count := by
  have hcard := Finset.card_pos.mpr ⟨n, hn⟩
  have hcount := h.count
  omega

theorem PresenceKeys.Shows.disconnect {keys : PresenceKeys} {user : Attendance}
    (h : keys.Shows user) {n : ℕ} (hn : n ∈ user.live) (now : Time) :
    ((PresenceCall.disconnect n).serve ttl now keys).Shows
      { user with live := user.live.erase n } := by
  obtain ⟨-, hcount, hstatus⟩ := presenceDisconnect_run keys now
  have hcard := Finset.card_erase_add_one hn
  have hshown := h.count
  refine ⟨?_, ?_⟩
  · have hserved : ((PresenceCall.disconnect n).serve ttl now keys).count =
        max 0 (keys.count - 1) := hcount
    show _ = ((user.live.erase n).card : ℤ)
    omega
  · have hserved : ((PresenceCall.disconnect n).serve ttl now keys).statusValue =
        if keys.count ≤ 1 then none else keys.statusValue := hstatus
    rw [hserved, h.status, Attendance.status, Attendance.status,
      if_neg (Finset.ne_empty_of_mem hn)]
    by_cases hlast : user.live.erase n = ∅
    · rw [if_pos hlast, if_pos]
      rw [hlast, Finset.card_empty] at hcard
      omega
    · have hpos := Finset.card_pos.mpr (Finset.nonempty_iff_ne_empty.mpr hlast)
      have hmore : ¬ keys.count ≤ 1 := by omega
      rw [if_neg hlast, if_neg hmore]

/-- A call keeps what the keys show. -/
theorem PresenceKeys.Shows.serve {keys : PresenceKeys} {user user' : Attendance}
    (h : keys.Shows user) {call : PresenceCall} (hs : user.step call = some user') (now : Time) :
    (call.serve ttl now keys).Shows user' := by
  cases call with
  | connect n =>
    by_cases hn : n ∈ user.live
    · rw [Attendance.step, if_pos hn] at hs
      cases hs
    · rw [Attendance.step, if_neg hn] at hs
      cases hs
      exact h.connect hn now
  | disconnect n =>
    simp only [Attendance.step] at hs
    split_ifs at hs with hn
    cases hs
    exact h.disconnect hn now
  | heartbeat n =>
    simp only [Attendance.step] at hs
    split_ifs at hs with hn
    cases hs
    have hstatus : keys.statusValue = some user.chosen := by
      rw [h.status, Attendance.status, if_neg (Finset.ne_empty_of_mem hn)]
    obtain ⟨hcount, hvalue⟩ := presenceHeartbeat_run keys ttl now hstatus
    exact ⟨hcount.trans h.count, hvalue.trans h.status⟩
  | setStatus n status =>
    simp only [Attendance.step] at hs
    split_ifs at hs with hn
    cases hs
    refine ⟨h.count, ?_⟩
    rw [Attendance.status, if_neg (Finset.ne_empty_of_mem hn)]
    rfl

/-- The keys follow the connections and the status that the user has chosen. -/
theorem presence_serial (ttl : Seconds)
    (hrun : Reach (PresenceSerial.step ttl) Unguarded .start s) :
    s.keys.count = s.user.live.card ∧ s.keys.statusValue = s.user.status ∧
    ∀ (n : ℕ) (now : Time),
      (n ∉ s.user.live → ((presenceConnect ttl).run (PresenceOp.serve now) s.keys).1 =
        .ok (decide (s.user.live.card = 0))) ∧
      (n ∈ s.user.live → (presenceDisconnect.run (PresenceOp.serve now) s.keys).1 =
        .ok (decide ((s.user.live.erase n).card = 0))) := by
  have hshows : s.keys.Shows s.user := by
    refine hrun.invariant (fun s => s.keys.Shows s.user) (fun s call s' h _ hs => ?_) ⟨rfl, rfl⟩
    obtain ⟨user, huser, rfl⟩ := Option.map_eq_some_iff.mp hs
    exact h.serve huser call.2
  have hcount := hshows.count
  refine ⟨hcount, hshows.status, fun n now => ⟨fun _ => ?_, fun hn => ?_⟩⟩
  · rw [(presenceConnect_run s.keys ttl now).1]
    have hiff : s.keys.count ≤ 0 ↔ s.user.live.card = 0 := by
      omega
    rw [decide_eq_decide.mpr hiff]
  · rw [(presenceDisconnect_run s.keys now).1]
    have hcard := Finset.card_erase_add_one hn
    have hiff : s.keys.count ≤ 1 ↔ (s.user.live.erase n).card = 0 := by
      omega
    rw [decide_eq_decide.mpr hiff]

end

/-- Two tabs of a user who is away, one of which is closed. -/
def awayThenClosed : List (PresenceCall × Time) :=
  [(.connect 0, 1), (.connect 1, 2), (.setStatus 1 .away, 3), (.heartbeat 0, 4), (.disconnect 1, 5)]

theorem presence_serial_away :
    (((exec (PresenceSerial.step 30) .start awayThenClosed).getD .start).keys.statusValue =
      some .away) ∧
      (presenceDisconnect.run (PresenceOp.serve 6)
        ((exec (PresenceSerial.step 30) .start awayThenClosed).getD .start).keys).1 = .ok true := by
  have hrun : Reach (PresenceSerial.step 30) Unguarded .start
      ((exec (PresenceSerial.step 30) .start awayThenClosed).getD .start) :=
    Reach.of_exec (meets_unguarded _ _ awayThenClosed) rfl
  obtain ⟨-, hstatus, hcalls⟩ := presence_serial 30 hrun
  exact ⟨hstatus.trans (by decide), ((hcalls 0 6).2 (by decide)).trans (by decide)⟩

end ConvoyChat.Store
