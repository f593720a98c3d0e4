import ConvoyChat.Lib.RowVersions
import ConvoyChat.Lib.Runs
import ConvoyChat.Store.MessageWrites

/-!
# Concurrent reaction toggles

`ToggleReaction` (`internal/store/reactions.go` lines 28–51) below the level of its one statement,
for any number of calls at once: the `DELETE` of the first `WITH` query looks at the versions that
the statement's snapshot saw, the `INSERT … ON CONFLICT DO NOTHING` of the second one at those of
now, and the statement commits by itself.

* `toggleMove_of_step`: all that one step can do.
* `toggles_linearize`: the calls take effect one after another, each at one moment between its begin
  and its return; a call that answers `added` found no reaction, or one that another call added
  while it ran, and one that answers `removed` took the reaction away.
* `toggles_go_on`: a call that waits, waits for one that can go on.
-/

namespace ConvoyChat.Store

open ConvoyChat.Lib

/-- The columns of `UNIQUE (message_id, user_id, emoji)`, as `Reaction.key`. -/
abbrev ReactionKey := UUID × UUID × String

/-- Where a `ToggleReaction` call is. -/
inductive TogglePoint
  /-- `DELETE` has these versions of its snapshot still to look at -/
  | deleting (targets : List ℕ) (didDelete : Bool)
  /-- the statement has selected its two `EXISTS`; its commit is next -/
  | executed (didDelete didInsert : Bool)
  /-- `none` is an error -/
  | returned (added : Option Bool)
deriving DecidableEq, Repr

/-- A `ToggleReaction(messageID, userID, emoji)` call. `began` is not part of the code: it is how
    many calls had taken effect when it began. -/
structure ToggleTx where
  key : ReactionKey
  point : TogglePoint
  began : ℕ
deriving DecidableEq, Repr

/-- A call that has taken effect. -/
structure ToggleEntry where
  call : ℕ
  key : ReactionKey
  added : Bool
  began : ℕ
deriving DecidableEq, Repr

/-- The table and the calls, each with the number of its transaction; `log` is not part of the
    code. -/
structure ToggleState where
  heap : VersionHeap ReactionKey
  txs : ℕ → Option ToggleTx
  log : List ToggleEntry

inductive ToggleAction
  | begin (t : ℕ) (key : ReactionKey)
  /-- the call goes on -/
  | next (t : ℕ)
  /-- it fails and is rolled back -/
  | fail (t : ℕ)
deriving DecidableEq, Repr

namespace ToggleState

def start (heap : VersionHeap ReactionKey) : ToggleState := ⟨heap, fun _ => none, []⟩

def setPoint (s : ToggleState) (t : ℕ) (tx : ToggleTx) (point : TogglePoint) : ToggleState :=
  { s with txs := Function.update s.txs t (some { tx with point }) }

/-- The call takes effect. -/
def record (s : ToggleState) (t : ℕ) (tx : ToggleTx) (added : Bool) : ToggleState :=
  { s with log := s.log ++ [⟨t, tx.key, added, tx.began⟩] }

/-- The call goes on; `none` while it waits. -/
def next (s : ToggleState) (t : ℕ) (tx : ToggleTx) : Option ToggleState :=
  match tx.point with
  | .deleting (i :: targets) didDelete =>
    (s.heap.deleteAt t i).map fun out =>
      { s with heap := out.1 }.setPoint t tx (.deleting targets (didDelete || out.2))
  | .deleting [] true => some (s.setPoint t tx (.executed true false))
  | .deleting [] false =>
    (s.heap.insertNew t tx.key).map fun out =>
      let executed := { s with heap := out.1 }.setPoint t tx (.executed false out.2)
      if out.2 then executed else executed.record t tx true
  | .executed didDelete didInsert =>
    let returned := { s with heap := s.heap.finish t .committed }.setPoint t tx
      (.returned (some !didDelete))
    some (if didDelete || didInsert then returned.record t tx (!didDelete) else returned)
  | .returned _ => none

def step (s : ToggleState) : ToggleAction → Option ToggleState
  | .begin t key =>
    if s.txs t = none ∧ s.heap.status t = .running then
      some { s with
        txs := Function.update s.txs t
          (some ⟨key, .deleting (s.heap.snapshot key) false, s.log.length⟩) }
    else none
  | .next t =>
    match s.txs t with
    | none => none
    | some tx => s.next t tx
  | .fail t =>
    match s.txs t with
    | none => none
    | some tx =>
      match tx.point with
      | .returned _ => none
      | _ => some ({ s with heap := s.heap.finish t .aborted }.setPoint t tx (.returned none))

end ToggleState

/-! ## What a step can do -/

/-- All that one step can do, with what it has found. -/
inductive ToggleMove (s : ToggleState) (t : ℕ) : ToggleState → Prop
  | begin {key : ReactionKey} (hnone : s.txs t = none) (hrun : s.heap.status t = .running) :
      ToggleMove s t { s with
        txs := Function.update s.txs t
          (some ⟨key, .deleting (s.heap.snapshot key) false, s.log.length⟩) }
  | delete {tx i targets didDelete v} (htx : s.txs t = some tx)
      (hpoint : tx.point = .deleting (i :: targets) didDelete) (hv : s.heap.versions[i]? = some v)
      (hfree : ∀ t', v.deletedBy = some t' → s.heap.status t' = .aborted) :
      ToggleMove s t ({ s with heap := s.heap.mark t i }.setPoint t tx (.deleting targets true))
  | skip {tx i targets didDelete} (htx : s.txs t = some tx)
      (hpoint : tx.point = .deleting (i :: targets) didDelete)
      (hgone : ∀ v, s.heap.versions[i]? = some v → s.heap.gone v = true) :
      ToggleMove s t (s.setPoint t tx (.deleting targets didDelete))
  | deleted {tx} (htx : s.txs t = some tx) (hpoint : tx.point = .deleting [] true) :
      ToggleMove s t (s.setPoint t tx (.executed true false))
  | insert {tx} (htx : s.txs t = some tx) (hpoint : tx.point = .deleting [] false)
      (hfree : ∀ v ∈ s.heap.versions, v.key = tx.key → s.heap.standing v = false) :
      ToggleMove s t ({ s with heap := s.heap.append t tx.key }.setPoint t tx
        (.executed false true))
  | conflict {tx v} (htx : s.txs t = some tx) (hpoint : tx.point = .deleting [] false)
      (hv : v ∈ s.heap.versions) (hkey : v.key = tx.key) (hlive : s.heap.live v = true) :
      ToggleMove s t ((s.setPoint t tx (.executed false false)).record t tx true)
  | commit {tx didDelete didInsert} (htx : s.txs t = some tx)
      (hpoint : tx.point = .executed didDelete didInsert)
        (heffect : (didDelete || didInsert) = true) :
      ToggleMove s t (({ s with heap := s.heap.finish t .committed }.setPoint t tx
        (.returned (some !didDelete))).record t tx (!didDelete))
  | return {tx} (htx : s.txs t = some tx) (hpoint : tx.point = .executed false false) :
      ToggleMove s t ({ s with heap := s.heap.finish t .committed }.setPoint t tx
        (.returned (some true)))
  | fail {tx} (htx : s.txs t = some tx) (hrun : ∀ r, tx.point ≠ .returned r) :
      ToggleMove s t ({ s with heap := s.heap.finish t .aborted }.setPoint t tx (.returned none))

variable {s s' : ToggleState} {t : ℕ} {tx : ToggleTx} {a : ToggleAction}

theorem toggleMove_of_next (htx : s.txs t = some tx) (h : s.next t tx = some s') :
    ToggleMove s t s' := by
  unfold ToggleState.next at h
  split at h
  · rename_i i targets didDelete hpoint
    obtain ⟨out, hout, rfl⟩ := Option.map_eq_some_iff.mp h
    rcases VersionHeap.deleteAt_cases hout with ⟨v, hv, hfree, rfl⟩ | ⟨hgone, rfl⟩
    · rw [Bool.or_true]
      exact .delete htx hpoint hv hfree
    · rw [Bool.or_false]
      exact .skip htx hpoint hgone
  · rename_i hpoint
    cases h
    exact .deleted htx hpoint
  · rename_i hpoint
    obtain ⟨out, hout, rfl⟩ := Option.map_eq_some_iff.mp h
    rcases VersionHeap.insertNew_cases hout with ⟨hfree, rfl⟩ | ⟨⟨v, hv, hkey, hlive⟩, rfl⟩
    · exact .insert htx hpoint hfree
    · exact .conflict htx hpoint hv hkey hlive
  · rename_i didDelete didInsert hpoint
    cases h
    split_ifs with heffect
    · exact .commit htx hpoint heffect
    · rw [Bool.or_eq_true, not_or, Bool.not_eq_true, Bool.not_eq_true] at heffect
      obtain ⟨rfl, rfl⟩ := heffect
      exact .return htx hpoint
  · cases h

theorem toggleMove_of_step (h : s.step a = some s') : ∃ t, ToggleMove s t s' := by
  cases a with
  | begin t key =>
    simp only [ToggleState.step] at h
    split_ifs at h with hnew
    cases h
    exact ⟨t, .begin hnew.1 hnew.2⟩
  | next t =>
    simp only [ToggleState.step] at h
    split at h
    · cases h
    · rename_i htx
      exact ⟨t, toggleMove_of_next htx h⟩
  | fail t =>
    simp only [ToggleState.step] at h
    split at h
    · cases h
    · rename_i htx
      split at h
      · cases h
      · rename_i hrun
        cases h
        exact ⟨t, .fail htx hrun⟩

/-! ## What the calls should do -/

/-- The reactions after the calls of the log, from `p`. -/
def replay (p : ReactionKey → Bool) (log : List ToggleEntry) : ReactionKey → Bool :=
  log.foldl (fun p e => Function.update p e.key e.added) p

theorem replay_concat (p : ReactionKey → Bool) (log : List ToggleEntry) (e : ToggleEntry) :
    replay p (log ++ [e]) = Function.update (replay p log) e.key e.added := by
  simp [replay]

/-- A call that removes finds the reaction. One that adds finds none, or another call has added it
    since this one began. -/
def Permits (p : ReactionKey → Bool) (log : List ToggleEntry) (e : ToggleEntry) : Prop :=
  if e.added then
    replay p log e.key = false ∨ ∃ e' ∈ log.drop e.began, e'.key = e.key ∧ e'.added = true
  else replay p log e.key = true

/-- Each call took effect as it may. -/
inductive Legal (p : ReactionKey → Bool) : List ToggleEntry → Prop
  | nil : Legal p []
  | concat {log : List ToggleEntry} {e : ToggleEntry} (hlog : Legal p log) (he : Permits p log e) :
      Legal p (log ++ [e])

/-! ## The invariant -/

/-- What is known of a call at each point. -/
def PointOk (s : ToggleState) (t : ℕ) (tx : ToggleTx) : TogglePoint → Prop
  | .deleting targets false =>
    s.heap.status t = .running ∧ targets.length ≤ 1 ∧
      (∀ i ∈ targets, ∃ v, s.heap.versions[i]? = some v ∧ v.key = tx.key ∧
        s.heap.status v.insertedBy = .committed) ∧
      (∀ (i : ℕ) v, s.heap.versions[i]? = some v → v.key = tx.key → s.heap.live v = true →
        i ∈ targets ∨ ∃ e ∈ s.log.drop tx.began, e.key = tx.key ∧ e.added = true) ∧
      ∀ e ∈ s.log, e.call ≠ t
  | .deleting targets true =>
    s.heap.status t = .running ∧ targets = [] ∧
      (∃ v ∈ s.heap.versions, v.key = tx.key ∧ v.deletedBy = some t ∧
        s.heap.status v.insertedBy = .committed) ∧
      ∀ e ∈ s.log, e.call ≠ t
  | .executed true didInsert =>
    s.heap.status t = .running ∧ didInsert = false ∧
      (∃ v ∈ s.heap.versions, v.key = tx.key ∧ v.deletedBy = some t ∧
        s.heap.status v.insertedBy = .committed) ∧
      ∀ e ∈ s.log, e.call ≠ t
  | .executed false true =>
    s.heap.status t = .running ∧
      (∃ v ∈ s.heap.versions, v.key = tx.key ∧ v.insertedBy = t) ∧ ∀ e ∈ s.log, e.call ≠ t
  | .executed false false =>
    s.heap.status t = .running ∧ (⟨t, tx.key, true, tx.began⟩ : ToggleEntry) ∈ s.log
  | .returned (some added) => (⟨t, tx.key, added, tx.began⟩ : ToggleEntry) ∈ s.log
  | .returned none => True

/-- What a running transaction has done, its call knows. -/
structure Owners (s : ToggleState) : Prop where
  inserted : ∀ v ∈ s.heap.versions, s.heap.status v.insertedBy = .running → v.deletedBy = none ∧
    ∃ tx, s.txs v.insertedBy = some tx ∧ tx.key = v.key ∧ tx.point = .executed false true
  deleted : ∀ v ∈ s.heap.versions, ∀ t, v.deletedBy = some t → s.heap.status t = .running →
    ∃ tx, s.txs t = some tx ∧ tx.key = v.key ∧
      (tx.point = .deleting [] true ∨ tx.point = .executed true false)

/-- What every step keeps. -/
structure ToggleInv (p : ReactionKey → Bool) (s : ToggleState) : Prop where
  distinct : s.heap.Distinct
  present : s.heap.present = replay p s.log
  legal : Legal p s.log
  once : (s.log.map ToggleEntry.call).Nodup
  called : ∀ e ∈ s.log, (s.txs e.call).isSome = true
  began : ∀ t tx, s.txs t = some tx → tx.began ≤ s.log.length
  owners : Owners s
  points : ∀ t tx, s.txs t = some tx → PointOk s t tx tx.point

/-- What a step of `t` leaves to the other calls. -/
structure Framed (t : ℕ) (s s' : ToggleState) : Prop where
  txs : ∀ u, u ≠ t → s'.txs u = s.txs u
  status : ∀ u, u ≠ t → s'.heap.status u = s.heap.status u
  committed : ∀ u, s.heap.status u = .committed → s'.heap.status u = .committed
  versions : ∀ (i : ℕ) v, s.heap.versions[i]? = some v → ∃ v', s'.heap.versions[i]? = some v' ∧
    v'.key = v.key ∧ v'.insertedBy = v.insertedBy ∧
    ∀ u, s.heap.status u = .running → v.deletedBy = some u → v'.deletedBy = some u
  live : ∀ (i : ℕ) v', s'.heap.versions[i]? = some v' → s'.heap.live v' = true →
    (∃ v, s.heap.versions[i]? = some v ∧ v.key = v'.key ∧ s.heap.live v = true) ∨
    ∃ e, s'.log = s.log ++ [e] ∧ e.key = v'.key ∧ e.added = true
  log : s'.log = s.log ∨ ∃ e, e.call = t ∧ s'.log = s.log ++ [e]

namespace Framed

variable {u : ℕ}

/-- The log only grows. -/
theorem mem_log (h : Framed t s s') {e : ToggleEntry} (he : e ∈ s.log) : e ∈ s'.log := by
  rcases h.log with hlog | ⟨e', -, hlog⟩
  · rw [hlog]
    exact he
  · rw [hlog]
    exact List.mem_append_left _ he

theorem mem_drop (h : Framed t s s') {n : ℕ} {e : ToggleEntry} (he : e ∈ s.log.drop n) :
    e ∈ s'.log.drop n := by
  rcases h.log with hlog | ⟨e', -, hlog⟩
  · rw [hlog]
    exact he
  · rw [hlog, List.drop_append]
    exact List.mem_append_left _ he

/-- Nobody else takes effect for `u`. -/
theorem no_entry (h : Framed t s s') (hu : u ≠ t) (hnone : ∀ e ∈ s.log, e.call ≠ u) :
    ∀ e ∈ s'.log, e.call ≠ u := by
  intro e he
  rcases h.log with hlog | ⟨e', hcall, hlog⟩
  · rw [hlog] at he
    exact hnone e he
  · rw [hlog] at he
    rcases List.mem_append.mp he with hold | hnew
    · exact hnone e hold
    · rw [List.mem_singleton] at hnew
      rw [hnew, hcall]
      exact Ne.symm hu

theorem version (h : Framed t s s') {P : RowVersion ReactionKey → Prop} {v : RowVersion ReactionKey}
    (hv : v ∈ s.heap.versions)
    (hP : ∀ v', v'.key = v.key → v'.insertedBy = v.insertedBy →
      (∀ u, s.heap.status u = .running → v.deletedBy = some u → v'.deletedBy = some u) → P v') :
    ∃ v' ∈ s'.heap.versions, P v' := by
  obtain ⟨i, hi⟩ := List.mem_iff_getElem?.mp hv
  obtain ⟨v', hv', hkey, hins, hdel⟩ := h.versions i v hi
  exact ⟨v', List.mem_of_getElem? hv', hP v' hkey hins hdel⟩

/-- The row that a call has marked stays so. -/
theorem marked (h : Framed t s s') {k : ReactionKey} (hrun : s.heap.status u = .running)
    (hrow : ∃ v ∈ s.heap.versions, v.key = k ∧ v.deletedBy = some u ∧
      s.heap.status v.insertedBy = .committed) :
    ∃ v ∈ s'.heap.versions, v.key = k ∧ v.deletedBy = some u ∧
      s'.heap.status v.insertedBy = .committed := by
  obtain ⟨v, hv, hkey, hdel, hins⟩ := hrow
  refine h.version hv fun v' hkey' hins' hdel' => ⟨hkey'.trans hkey, hdel' u hrun hdel, ?_⟩
  rw [hins']
  exact h.committed _ hins

/-- What is known of another call stays true. -/
theorem pointOk (h : Framed t s s') (hu : u ≠ t) (hbegan : tx.began ≤ s.log.length)
    {point : TogglePoint} (hpoint : PointOk s u tx point) : PointOk s' u tx point := by
  match point, hpoint with
  | .deleting targets false, hpoint =>
    obtain ⟨hrun, hone, htargets, hseen, hnone⟩ := hpoint
    refine ⟨(h.status u hu).trans hrun, hone, fun i hi => ?_, fun i v' hv' hkey hlive => ?_,
      h.no_entry hu hnone⟩
    · obtain ⟨v, hv, hkey, hins⟩ := htargets i hi
      obtain ⟨v', hv', hkey', hins', -⟩ := h.versions i v hv
      refine ⟨v', hv', hkey'.trans hkey, ?_⟩
      rw [hins']
      exact h.committed _ hins
    · rcases h.live i v' hv' hlive with ⟨v, hv, hkey', hold⟩ | ⟨e, hlog, hekey, hadded⟩
      · exact (hseen i v hv (hkey'.trans hkey) hold).imp_right
          fun ⟨e, he, hrest⟩ => ⟨e, h.mem_drop he, hrest⟩
      · -- another call has added the reaction meanwhile
        refine .inr ⟨e, ?_, hekey.trans hkey, hadded⟩
        rw [hlog, List.drop_append_of_le_length hbegan]
        exact List.mem_append_right _ (List.mem_singleton.mpr rfl)
  | .deleting targets true, hpoint =>
    obtain ⟨hrun, hempty, hrow, hnone⟩ := hpoint
    exact ⟨(h.status u hu).trans hrun, hempty, h.marked hrun hrow, h.no_entry hu hnone⟩
  | .executed true didInsert, hpoint =>
    obtain ⟨hrun, hnot, hrow, hnone⟩ := hpoint
    exact ⟨(h.status u hu).trans hrun, hnot, h.marked hrun hrow, h.no_entry hu hnone⟩
  | .executed false true, hpoint =>
    obtain ⟨hrun, ⟨v, hv, hkey, hins⟩, hnone⟩ := hpoint
    refine ⟨(h.status u hu).trans hrun, ?_, h.no_entry hu hnone⟩
    exact h.version hv fun v' hkey' hins' _ => ⟨hkey'.trans hkey, hins'.trans hins⟩
  | .executed false false, hpoint => exact ⟨(h.status u hu).trans hpoint.1, h.mem_log hpoint.2⟩
  | .returned (some added), hpoint => exact h.mem_log hpoint
  | .returned none, _ => trivial

end Framed

/-! ## One step -/

variable {p : ReactionKey → Bool}

/-- The parts of the invariant that a step of `t` can break. -/
theorem ToggleInv.of_framed (h : ToggleInv p s) (hframed : Framed t s s') {tx' : ToggleTx}
    (htx' : s'.txs t = some tx') (hbegan : tx'.began ≤ s.log.length) (hdistinct : s'.heap.Distinct)
    (hpresent : s'.heap.present = replay p s'.log) (hlegal : Legal p s'.log)
    (hlog : s'.log = s.log ∨ ∀ e ∈ s.log, e.call ≠ t) (howners : Owners s')
    (hpoint : PointOk s' t tx' tx'.point) : ToggleInv p s' where
  distinct := hdistinct
  present := hpresent
  legal := hlegal
  once := by
    rcases hframed.log with hsame | ⟨e, hcall, happend⟩
    · rw [hsame]
      exact h.once
    · rcases hlog with hsame | hnone
      · rw [hsame]
        exact h.once
      · rw [happend, List.map_append, List.map_singleton, List.nodup_append]
        refine ⟨h.once, List.nodup_singleton _, fun u hu u' hu' => ?_⟩
        obtain ⟨e', he', rfl⟩ := List.mem_map.mp hu
        rw [List.mem_singleton] at hu'
        rw [hu', hcall]
        exact hnone e' he'
  called e he := by
    by_cases hcall : e.call = t
    · rw [hcall, htx']
      rfl
    · rw [hframed.txs e.call hcall]
      refine h.called e ?_
      rcases hframed.log with hsame | ⟨e', hcall', happend⟩
      · rwa [hsame] at he
      · rw [happend] at he
        rcases List.mem_append.mp he with hold | hnew
        · exact hold
        · rw [List.mem_singleton] at hnew
          rw [hnew] at hcall
          exact absurd hcall' hcall
  began u tx htx := by
    have hlen : s.log.length ≤ s'.log.length := by
      rcases hframed.log with hsame | ⟨e, -, happend⟩
      · rw [hsame]
      · rw [happend, List.length_append]
        omega
    by_cases hu : u = t
    · subst hu
      rw [htx'] at htx
      cases htx
      omega
    · rw [hframed.txs u hu] at htx
      have hold := h.began u tx htx
      omega
  owners := howners
  points u tx htx := by
    by_cases hu : u = t
    · subst hu
      rw [htx'] at htx
      cases htx
      exact hpoint
    · rw [hframed.txs u hu] at htx
      exact hframed.pointOk hu (h.began u tx htx) (h.points u tx htx)

/-- The transaction has not ended. -/
theorem ToggleInv.running (h : ToggleInv p s) (htx : s.txs t = some tx)
    (hnot : ∀ r, tx.point ≠ .returned r) : s.heap.status t = .running := by
  have hpoint := h.points t tx htx
  match hp : tx.point, hpoint with
  | .deleting _ false, hpoint => exact hpoint.1
  | .deleting _ true, hpoint => exact hpoint.1
  | .executed true _, hpoint => exact hpoint.1
  | .executed false true, hpoint => exact hpoint.1
  | .executed false false, hpoint => exact hpoint.1
  | .returned r, _ => exact absurd hp (hnot r)

/-- A call that has not executed its `INSERT` has inserted nothing. -/
theorem ToggleInv.insertedBy_ne (h : ToggleInv p s) (htx : s.txs t = some tx)
    (hrun : s.heap.status t = .running) (hnot : tx.point ≠ .executed false true)
    {v : RowVersion ReactionKey} (hv : v ∈ s.heap.versions) : v.insertedBy ≠ t := by
  rintro rfl
  obtain ⟨-, tx', htx', -, hpoint⟩ := h.owners.inserted v hv hrun
  rw [htx] at htx'
  cases htx'
  exact hnot hpoint

/-- A call that has not executed its `DELETE` has deleted nothing. -/
theorem ToggleInv.deletedBy_ne (h : ToggleInv p s) (htx : s.txs t = some tx)
    (hrun : s.heap.status t = .running) (hdel : tx.point ≠ .deleting [] true)
    (hexec : tx.point ≠ .executed true false) {v : RowVersion ReactionKey}
    (hv : v ∈ s.heap.versions) : v.deletedBy ≠ some t := by
  intro hdt
  obtain ⟨tx', htx', -, hpoint⟩ := h.owners.deleted v hv t hdt hrun
  rw [htx] at htx'
  cases htx'
  rcases hpoint with hpoint | hpoint
  · exact hdel hpoint
  · exact hexec hpoint

section Steps

variable {i : ℕ} {targets : List ℕ} {didDelete didInsert : Bool} {point : TogglePoint}

theorem setPoint_self : (s.setPoint t tx point).txs t = some { tx with point } :=
  Function.update_self ..

theorem setPoint_of_ne {u : ℕ} (hu : u ≠ t) : (s.setPoint t tx point).txs u = s.txs u :=
  Function.update_of_ne hu ..

/-- A step that only moves its call. -/
theorem framed_setPoint : Framed t s (s.setPoint t tx point) where
  txs _ hu := setPoint_of_ne hu
  status _ _ := rfl
  committed _ hu := hu
  versions _ v hv := ⟨v, hv, rfl, rfl, fun _ _ hdel => hdel⟩
  live _ v hv hlive := .inl ⟨v, hv, rfl, hlive⟩
  log := .inl rfl

theorem owners_setPoint (h : Owners s) (hins : ∀ v ∈ s.heap.versions, v.insertedBy ≠ t)
    (hdel : ∀ v ∈ s.heap.versions, v.deletedBy = some t → v.key = tx.key ∧
      (point = .deleting [] true ∨ point = .executed true false)) :
    Owners (s.setPoint t tx point) where
  inserted v hv hrun := by
    rw [setPoint_of_ne (hins v hv)]
    exact h.inserted v hv hrun
  deleted v hv u hdu hrun := by
    by_cases hu : u = t
    · subst hu
      obtain ⟨hkey, hpoint⟩ := hdel v hv hdu
      exact ⟨_, setPoint_self, hkey.symm, hpoint⟩
    · rw [setPoint_of_ne hu]
      exact h.deleted v hv u hdu hrun

/-- The transaction ends. -/
theorem owners_finish (h : Owners s) {status : TxStatus} (hended : status ≠ .running) :
    Owners ({ s with heap := s.heap.finish t status }.setPoint t tx point) := by
  have hne : ∀ u, Function.update s.heap.status t status u = .running → u ≠ t := by
    rintro u hu rfl
    rw [Function.update_self] at hu
    exact hended hu
  refine ⟨fun v hv hrun => ?_, fun v hv u hdu hrun => ?_⟩
  · have hu := hne _ hrun
    change Function.update s.heap.status t status v.insertedBy = .running at hrun
    rw [Function.update_of_ne hu] at hrun
    rw [setPoint_of_ne hu]
    exact h.inserted v hv hrun
  · have hu := hne _ hrun
    change Function.update s.heap.status t status u = .running at hrun
    rw [Function.update_of_ne hu] at hrun
    rw [setPoint_of_ne hu]
    exact h.deleted v hv u hdu hrun

theorem ToggleInv.begin (h : ToggleInv p s) {key : ReactionKey} (hnone : s.txs t = none)
    (hrun : s.heap.status t = .running) :
    ToggleInv p { s with
      txs := Function.update s.txs t
        (some ⟨key, .deleting (s.heap.snapshot key) false, s.log.length⟩) } := by
  have hfree : ∀ v ∈ s.heap.versions, v.insertedBy ≠ t := by
    rintro v hv rfl
    obtain ⟨-, tx, htx, -⟩ := h.owners.inserted v hv hrun
    rw [hnone] at htx
    cases htx
  have hkept : ∀ v ∈ s.heap.versions, v.deletedBy ≠ some t := by
    intro v hv hdt
    obtain ⟨tx, htx, -⟩ := h.owners.deleted v hv t hdt hrun
    rw [hnone] at htx
    cases htx
  refine h.of_framed (t := t) ?_ (Function.update_self ..) le_rfl h.distinct h.present h.legal
    (.inl rfl) ?_ ⟨hrun, ?_, fun i hi => ?_, fun i v hv hkey hlive => ?_, fun e he hcall => ?_⟩
  · exact ⟨fun _ hu => Function.update_of_ne hu .., fun _ _ => rfl, fun _ hu => hu,
      fun _ v hv => ⟨v, hv, rfl, rfl, fun _ _ hdel => hdel⟩,
      fun _ v hv hlive => .inl ⟨v, hv, rfl, hlive⟩, .inl rfl⟩
  · refine ⟨fun v hv hv' => ?_, fun v hv u hdu hu => ?_⟩
    · show v.deletedBy = none ∧ ∃ tx, Function.update s.txs t _ v.insertedBy = some tx ∧ _
      rw [Function.update_of_ne (hfree v hv)]
      exact h.owners.inserted v hv hv'
    · have hut : u ≠ t := by
        rintro rfl
        exact hkept v hv hdu
      show ∃ tx, Function.update s.txs t _ u = some tx ∧ _
      rw [Function.update_of_ne hut]
      exact h.owners.deleted v hv u hdu hu
  · rcases VersionHeap.snapshot_eq_or h.distinct key with hnil | ⟨i, hone⟩
    · simp [hnil]
    · simp [hone]
  · obtain ⟨v, hv, hkey, hlive⟩ := VersionHeap.mem_snapshot.mp hi
    exact ⟨v, hv, hkey, (VersionHeap.live_iff.mp hlive).1⟩
  · exact .inl (VersionHeap.mem_snapshot.mpr ⟨v, hv, hkey, hlive⟩)
  · have hsome := h.called e he
    rw [hcall, hnone] at hsome
    cases hsome

/-- A call that looks at its snapshot has marked nothing yet. -/
theorem ToggleInv.unmarked (h : ToggleInv p s) (htx : s.txs t = some tx)
    (hpoint : tx.point = .deleting (i :: targets) didDelete) :
    didDelete = false ∧ targets = [] ∧ PointOk s t tx (.deleting [i] false) := by
  have hok := h.points t tx htx
  rw [hpoint] at hok
  cases didDelete with
  | true =>
    obtain ⟨-, hempty, -⟩ := hok
    cases hempty
  | false =>
    have hlen := hok.2.1
    have hempty : targets = [] := by
      cases targets with
      | nil => rfl
      | cons j targets => simp at hlen
    subst hempty
    exact ⟨rfl, rfl, hok⟩

theorem ToggleInv.skip (h : ToggleInv p s) (htx : s.txs t = some tx)
    (hpoint : tx.point = .deleting (i :: targets) didDelete)
    (hgone : ∀ v, s.heap.versions[i]? = some v → s.heap.gone v = true) :
    ToggleInv p (s.setPoint t tx (.deleting targets didDelete)) := by
  obtain ⟨rfl, rfl, hrun, -, -, hseen, hnone⟩ := h.unmarked htx hpoint
  refine h.of_framed framed_setPoint setPoint_self (h.began t tx htx) h.distinct h.present h.legal
    (.inl rfl) (owners_setPoint h.owners (fun v hv => ?_) fun v hv hdt => ?_)
    ⟨hrun, Nat.zero_le _, nofun, fun j v hv hkey hlive => ?_, hnone⟩
  · exact h.insertedBy_ne htx hrun (by simp [hpoint]) hv
  · exact absurd hdt (h.deletedBy_ne htx hrun (by simp [hpoint]) (by simp [hpoint]) hv)
  · rcases hseen j v hv hkey hlive with hmem | hentry
    · -- the version is gone, so it is no row
      rw [List.mem_singleton] at hmem
      subst hmem
      have hnot := (VersionHeap.live_iff.mp hlive).2
      change s.heap.gone v = false at hnot
      rw [hgone v hv] at hnot
      cases hnot
    · exact .inr hentry

theorem ToggleInv.deleted (h : ToggleInv p s) (htx : s.txs t = some tx)
    (hpoint : tx.point = .deleting [] true) :
    ToggleInv p (s.setPoint t tx (.executed true false)) := by
  have hok := h.points t tx htx
  rw [hpoint] at hok
  obtain ⟨hrun, -, hrow, hnone⟩ := hok
  refine h.of_framed framed_setPoint setPoint_self (h.began t tx htx) h.distinct h.present h.legal
    (.inl rfl) (owners_setPoint h.owners (fun v hv => ?_) fun v hv hdt => ?_)
      ⟨hrun, rfl, hrow, hnone⟩
  · exact h.insertedBy_ne htx hrun (by simp [hpoint]) hv
  · obtain ⟨tx', htx', hkey, -⟩ := h.owners.deleted v hv t hdt hrun
    rw [htx] at htx'
    cases htx'
    exact ⟨hkey.symm, .inr rfl⟩

theorem ToggleInv.delete (h : ToggleInv p s) (htx : s.txs t = some tx)
    (hpoint : tx.point = .deleting (i :: targets) didDelete) {v : RowVersion ReactionKey}
    (hv : s.heap.versions[i]? = some v)
    (hfree : ∀ t', v.deletedBy = some t' → s.heap.status t' = .aborted) :
    ToggleInv p ({ s with heap := s.heap.mark t i }.setPoint t tx (.deleting targets true)) := by
  obtain ⟨rfl, rfl, hrun, -, htargets, -, hnone⟩ := h.unmarked htx hpoint
  obtain ⟨v', hv', hkey, hins⟩ := htargets i (List.mem_singleton.mpr rfl)
  rw [hv] at hv'
  cases hv'
  have hgone : s.heap.gone v = false := by
    refine VersionHeap.gone_eq_false.mpr fun t' ht' => ?_
    rw [hfree t' ht']
    exact nofun
  have hmarked : (s.heap.mark t i).versions[i]? = some { v with deletedBy := some t } := by
    rw [VersionHeap.getElem?_mark, if_pos rfl, hv]
    rfl
  have hsame : ∀ w ∈ (s.heap.mark t i).versions,
      w = { v with deletedBy := some t } ∨ w ∈ s.heap.versions ∧ w.deletedBy ≠ some t := by
    intro w hw
    obtain ⟨j, hj⟩ := List.mem_iff_getElem?.mp hw
    obtain ⟨x, hx, hcase⟩ := VersionHeap.of_getElem?_mark hj
    rcases hcase with ⟨rfl, rfl⟩ | ⟨-, rfl⟩
    · rw [hv] at hx
      cases hx
      exact .inl rfl
    · have hmem := List.mem_of_getElem? hx
      exact .inr ⟨hmem, h.deletedBy_ne htx hrun (by simp [hpoint]) (by simp [hpoint]) hmem⟩
  refine h.of_framed (t := t) ?_ setPoint_self (h.began t tx htx) (h.distinct.mark hv hfree)
    ((VersionHeap.present_mark hrun hv hgone).trans h.present) h.legal (.inl rfl) ?_
    ⟨hrun, rfl, ⟨_, List.mem_of_getElem? hmarked, hkey, rfl, hins⟩, hnone⟩
  · refine ⟨fun _ hu => setPoint_of_ne hu, fun _ _ => rfl, fun _ hu => hu, fun j w hw => ?_,
      fun j w hw hlive => .inl ?_, .inl rfl⟩
    · by_cases hji : j = i
      · subst hji
        rw [hv] at hw
        cases hw
        refine ⟨_, hmarked, rfl, rfl, fun u hu hdu => ?_⟩
        rw [hfree u hdu] at hu
        cases hu
      · refine ⟨w, ?_, rfl, rfl, fun _ _ hdel => hdel⟩
        show (s.heap.mark t i).versions[j]? = some w
        rw [VersionHeap.getElem?_mark, if_neg hji]
        exact hw
    · obtain ⟨x, hx, hcase⟩ := VersionHeap.of_getElem?_mark hw
      rcases hcase with ⟨rfl, rfl⟩ | ⟨-, rfl⟩
      · rw [hv] at hx
        cases hx
        exact ⟨v, hv, rfl, VersionHeap.live_iff.mpr ⟨hins, hgone⟩⟩
      · exact ⟨w, hx, rfl, hlive⟩
  · refine ⟨fun w hw hw' => ?_, fun w hw u hdu hu => ?_⟩
    · rcases hsame w hw with rfl | ⟨hold, -⟩
      · change s.heap.status v.insertedBy = .running at hw'
        rw [hins] at hw'
        cases hw'
      · rw [setPoint_of_ne (h.insertedBy_ne htx hrun (by simp [hpoint]) hold)]
        exact h.owners.inserted w hold hw'
    · rcases hsame w hw with rfl | ⟨hold, hne⟩
      · cases hdu
        exact ⟨_, setPoint_self, hkey.symm, .inl rfl⟩
      · have hut : u ≠ t := by
          rintro rfl
          exact hne hdu
        rw [setPoint_of_ne hut]
        exact h.owners.deleted w hold u hdu hu

theorem ToggleInv.insert (h : ToggleInv p s) (htx : s.txs t = some tx)
    (hpoint : tx.point = .deleting [] false)
    (hfree : ∀ v ∈ s.heap.versions, v.key = tx.key → s.heap.standing v = false) :
    ToggleInv p
      ({ s with heap := s.heap.append t tx.key }.setPoint t tx (.executed false true)) := by
  have hok := h.points t tx htx
  rw [hpoint] at hok
  obtain ⟨hrun, -, -, -, hnone⟩ := hok
  have hins : ∀ v ∈ s.heap.versions, v.insertedBy ≠ t :=
    fun v hv => h.insertedBy_ne htx hrun (by simp [hpoint]) hv
  have hdel : ∀ v ∈ s.heap.versions, v.deletedBy ≠ some t :=
    fun v hv => h.deletedBy_ne htx hrun (by simp [hpoint]) (by simp [hpoint]) hv
  have hcases : ∀ v ∈ (s.heap.append t tx.key).versions,
      v ∈ s.heap.versions ∨ v = ⟨tx.key, t, none⟩ := by
    intro v hv
    rcases List.mem_append.mp hv with hold | hnew
    · exact .inl hold
    · exact .inr (List.mem_singleton.mp hnew)
  refine h.of_framed (t := t) ?_ setPoint_self (h.began t tx htx)
    (h.distinct.append hrun fun v hv hkey => .inl (hfree v hv hkey))
    ((VersionHeap.present_append hrun).trans h.present) h.legal (.inl rfl) ?_
    ⟨hrun, ⟨⟨tx.key, t, none⟩, List.mem_append_right _ (List.mem_singleton.mpr rfl), rfl, rfl⟩,
      hnone⟩
  · refine ⟨fun _ hu => setPoint_of_ne hu, fun _ _ => rfl, fun _ hu => hu, fun j w hw => ?_,
      fun j w hw hlive => .inl ?_, .inl rfl⟩
    · refine ⟨w, ?_, rfl, rfl, fun _ _ hdu => hdu⟩
      show (s.heap.versions ++ [_])[j]? = some w
      rw [List.getElem?_append_left (List.getElem?_eq_some_iff.mp hw).1]
      exact hw
    · rcases VersionHeap.of_getElem?_append hw with hold | ⟨-, rfl⟩
      · exact ⟨w, hold, rfl, hlive⟩
      · -- the new version is not committed
        have hcommitted := (VersionHeap.live_iff.mp hlive).1
        change s.heap.status t = .committed at hcommitted
        rw [hrun] at hcommitted
        cases hcommitted
  · refine ⟨fun w hw hw' => ?_, fun w hw u hdu hu => ?_⟩
    · rcases hcases w hw with hold | rfl
      · rw [setPoint_of_ne (hins w hold)]
        exact h.owners.inserted w hold hw'
      · exact ⟨rfl, _, setPoint_self, rfl, rfl⟩
    · rcases hcases w hw with hold | rfl
      · have hut : u ≠ t := by
          rintro rfl
          exact hdel w hold hdu
        rw [setPoint_of_ne hut]
        exact h.owners.deleted w hold u hdu hu
      · cases hdu

/-- The reaction is there; a call that began later than this one has added it. -/
theorem ToggleInv.conflict (h : ToggleInv p s) (htx : s.txs t = some tx)
    (hpoint : tx.point = .deleting [] false) {v : RowVersion ReactionKey}
    (hv : v ∈ s.heap.versions) (hkey : v.key = tx.key) (hlive : s.heap.live v = true) :
    ToggleInv p ((s.setPoint t tx (.executed false false)).record t tx true) := by
  have hok := h.points t tx htx
  rw [hpoint] at hok
  obtain ⟨hrun, -, -, hseen, hnone⟩ := hok
  obtain ⟨j, hj⟩ := List.mem_iff_getElem?.mp hv
  have hmet := (hseen j v hj hkey hlive).resolve_left (List.not_mem_nil)
  have hthere : replay p s.log tx.key = true := by
    rw [← h.present]
    exact VersionHeap.present_iff.mpr ⟨v, hv, hkey, hlive⟩
  have howners := @owners_setPoint s t tx (.executed false false) h.owners
    (fun v hv => h.insertedBy_ne htx hrun (by simp [hpoint]) hv)
    fun v hv hdt => absurd hdt (h.deletedBy_ne htx hrun (by simp [hpoint]) (by simp [hpoint]) hv)
  refine h.of_framed (t := t) ?_ setPoint_self (h.began t tx htx) h.distinct ?_
    (h.legal.concat (.inr hmet)) (.inr hnone) ⟨howners.inserted, howners.deleted⟩
    ⟨hrun, List.mem_append_right _ (List.mem_singleton.mpr rfl)⟩
  · exact ⟨fun _ hu => setPoint_of_ne hu, fun _ _ => rfl, fun _ hu => hu,
      fun _ v hv => ⟨v, hv, rfl, rfl, fun _ _ hdel => hdel⟩,
      fun _ v hv hlive => .inl ⟨v, hv, rfl, hlive⟩, .inr ⟨_, rfl, rfl⟩⟩
  · show s.heap.present = replay p (s.log ++ [_])
    rw [replay_concat, h.present]
    exact (Function.update_eq_self_iff.mpr hthere.symm).symm

/-- What a transaction that ends leaves to the other calls. -/
theorem framed_finish (hrun : s.heap.status t = .running) {status : TxStatus}
    (hlive : ∀ (i : ℕ) v', s.heap.versions[i]? = some v' → (s.heap.finish t status).live v' = true →
      (∃ v, s.heap.versions[i]? = some v ∧ v.key = v'.key ∧ s.heap.live v = true) ∨
      ∃ e, s'.log = s.log ++ [e] ∧ e.key = v'.key ∧ e.added = true)
    (hheap : s'.heap = s.heap.finish t status) (htxs : ∀ u, u ≠ t → s'.txs u = s.txs u)
    (hlog : s'.log = s.log ∨ ∃ e, e.call = t ∧ s'.log = s.log ++ [e]) : Framed t s s' where
  txs := htxs
  status u hu := by
    rw [hheap]
    exact Function.update_of_ne hu ..
  committed u hu := by
    have hut : u ≠ t := by
      rintro rfl
      rw [hrun] at hu
      cases hu
    rw [hheap]
    exact (Function.update_of_ne hut ..).trans hu
  versions i v hv := by
    rw [hheap]
    exact ⟨v, hv, rfl, rfl, fun _ _ hdel => hdel⟩
  live i v' hv' hlive' := by
    rw [hheap] at hv' hlive'
    exact hlive i v' hv' hlive'
  log := hlog

theorem ToggleInv.fail (h : ToggleInv p s) (htx : s.txs t = some tx)
    (hnot : ∀ r, tx.point ≠ .returned r) :
    ToggleInv p ({ s with heap := s.heap.finish t .aborted }.setPoint t tx (.returned none)) := by
  have hrun := h.running htx hnot
  refine h.of_framed (t := t) ?_ setPoint_self (h.began t tx htx)
    (h.distinct.finish hrun (by decide)) ((VersionHeap.present_abort hrun).trans h.present) h.legal
    (.inl rfl) (owners_finish h.owners (by decide)) trivial
  refine framed_finish hrun (fun i v hv hlive => .inl ⟨v, hv, rfl, ?_⟩) rfl
    (fun _ hu => setPoint_of_ne hu) (.inl rfl)
  rwa [VersionHeap.live_abort hrun] at hlive

/-- A commit of `t` changes the rows of one key only, if any. -/
theorem ToggleInv.present_commit_of_ne (h : ToggleInv p s) (htx : s.txs t = some tx)
    (hrun : s.heap.status t = .running) {k : ReactionKey} (hk : k ≠ tx.key) :
    (s.heap.finish t .committed).present k = s.heap.present k := by
  rw [Bool.eq_iff_iff, VersionHeap.present_commit hrun, VersionHeap.present_iff]
  constructor
  · rintro ⟨v, hv, hkey, -, hgone, hins⟩
    have hcommitted : s.heap.status v.insertedBy = .committed := by
      rcases hins with hit | hcommitted
      · obtain ⟨-, tx', htx', hkey', -⟩ := h.owners.inserted v hv (hit ▸ hrun)
        rw [hit, htx] at htx'
        cases htx'
        exact absurd (hkey.symm.trans hkey'.symm) hk
      · exact hcommitted
    exact ⟨v, hv, hkey, VersionHeap.live_iff.mpr ⟨hcommitted, hgone⟩⟩
  · rintro ⟨v, hv, hkey, hlive⟩
    obtain ⟨hcommitted, hgone⟩ := VersionHeap.live_iff.mp hlive
    refine ⟨v, hv, hkey, fun hdt => ?_, hgone, .inr hcommitted⟩
    obtain ⟨tx', htx', hkey', -⟩ := h.owners.deleted v hv t hdt hrun
    rw [htx] at htx'
    cases htx'
    exact hk (hkey.symm.trans hkey'.symm)

/-- A commit after `DELETE` found the reaction and takes it away. -/
theorem ToggleInv.present_removed (h : ToggleInv p s) (htx : s.txs t = some tx)
    (hpoint : tx.point = .executed true didInsert) : s.heap.present tx.key = true ∧
      (s.heap.finish t .committed).present tx.key = false := by
  have hok := h.points t tx htx
  rw [hpoint] at hok
  obtain ⟨hrun, -, ⟨v, hv, hkey, hdel, hins⟩, -⟩ := hok
  have hlive : s.heap.live v = true := by
    refine VersionHeap.live_iff.mpr ⟨hins, VersionHeap.gone_eq_false.mpr fun t' ht' => ?_⟩
    rw [hdel] at ht'
    cases ht'
    rw [hrun]
    exact nofun
  refine ⟨VersionHeap.present_iff.mpr ⟨v, hv, hkey, hlive⟩, Bool.eq_false_iff.mpr fun hthere => ?_⟩
  obtain ⟨w, hw, hkeyw, hnot, hgone, hinsw⟩ := (VersionHeap.present_commit hrun).mp hthere
  have hcommitted : s.heap.status w.insertedBy = .committed :=
    hinsw.resolve_left (h.insertedBy_ne htx hrun (by simp [hpoint]) hw)
  -- both are rows of the key, so they are one
  obtain ⟨m, hm⟩ := List.mem_iff_getElem?.mp hv
  obtain ⟨n, hn⟩ := List.mem_iff_getElem?.mp hw
  have hmn := VersionHeap.live_unique h.distinct hm hn (hkey.trans hkeyw.symm) hlive
    (VersionHeap.live_iff.mpr ⟨hcommitted, hgone⟩)
  subst hmn
  rw [hm] at hn
  cases hn
  exact hnot hdel

/-- A commit after `INSERT` found no reaction and adds one. -/
theorem ToggleInv.present_added (h : ToggleInv p s) (htx : s.txs t = some tx)
    (hpoint : tx.point = .executed false true) : s.heap.present tx.key = false ∧
      (s.heap.finish t .committed).present tx.key = true := by
  have hok := h.points t tx htx
  rw [hpoint] at hok
  obtain ⟨hrun, ⟨v, hv, hkey, rfl⟩, -⟩ := hok
  obtain ⟨hdel, -⟩ := h.owners.inserted v hv hrun
  have hgone : s.heap.gone v = false := VersionHeap.gone_eq_false.mpr fun t' ht' => by
    rw [hdel] at ht'
    cases ht'
  refine ⟨Bool.eq_false_iff.mpr fun hthere => ?_, (VersionHeap.present_commit hrun).mpr
    ⟨v, hv, hkey, by simp [hdel], hgone, .inl rfl⟩⟩
  obtain ⟨w, hw, hkeyw, hlive⟩ := VersionHeap.present_iff.mp hthere
  have hstanding : s.heap.standing v = true :=
    VersionHeap.standing_iff.mpr ⟨by simp [hrun], hgone⟩
  obtain ⟨m, hm⟩ := List.mem_iff_getElem?.mp hv
  obtain ⟨n, hn⟩ := List.mem_iff_getElem?.mp hw
  rcases Nat.lt_trichotomy m n with hlt | heq | hlt
  · obtain ⟨t', -, hdel', -⟩ := h.distinct m n v w hlt hm hn (hkey.trans hkeyw.symm) hstanding
      (VersionHeap.standing_of_live hlive)
    rw [hdel] at hdel'
    cases hdel'
  · subst heq
    rw [hm] at hn
    cases hn
    have hcommitted := (VersionHeap.live_iff.mp hlive).1
    rw [hrun] at hcommitted
    cases hcommitted
  · obtain ⟨t', -, hdel', hins'⟩ := h.distinct n m w v hlt hn hm (hkeyw.trans hkey.symm)
      (VersionHeap.standing_of_live hlive) hstanding
    subst hins'
    exact h.deletedBy_ne htx hrun (by simp [hpoint]) (by simp [hpoint]) hw hdel'

/-- A call that has executed with an effect takes effect at its commit. -/
theorem ToggleInv.commit (h : ToggleInv p s) (htx : s.txs t = some tx)
    (hpoint : tx.point = .executed didDelete didInsert)
      (heffect : (didDelete || didInsert) = true) :
    ToggleInv p (({ s with heap := s.heap.finish t .committed }.setPoint t tx
      (.returned (some !didDelete))).record t tx (!didDelete)) := by
  have hrun := h.running htx (by simp [hpoint])
  have hok := h.points t tx htx
  rw [hpoint] at hok
  have hnone : ∀ e ∈ s.log, e.call ≠ t := by
    match didDelete, didInsert, hok with
    | true, _, hok => exact hok.2.2.2
    | false, true, hok => exact hok.2.2
  have hkey : s.heap.present tx.key = didDelete ∧
      (s.heap.finish t .committed).present tx.key = !didDelete := by
    match didDelete, didInsert, hpoint with
    | true, _, hpoint => exact h.present_removed htx hpoint
    | false, true, hpoint => exact h.present_added htx hpoint
  have hpermits : Permits p s.log ⟨t, tx.key, !didDelete, tx.began⟩ := by
    unfold Permits
    rw [← h.present, hkey.1]
    cases didDelete with
    | true => rfl
    | false => exact .inl rfl
  refine h.of_framed (t := t) ?_ setPoint_self (h.began t tx htx)
    (h.distinct.finish hrun (by decide))
    ?_ (h.legal.concat hpermits) (.inr hnone) ?_ ?_
  · refine framed_finish hrun (fun i v hv hlive => ?_) rfl (fun _ hu => setPoint_of_ne hu)
      (.inr ⟨_, rfl, rfl⟩)
    obtain ⟨-, hgone, hins⟩ := (VersionHeap.live_commit hrun).mp hlive
    rcases hins with hit | hcommitted
    · -- the version that this call inserted
      obtain ⟨-, tx', htx', hkey', hpoint'⟩ :=
        h.owners.inserted v (List.mem_of_getElem? hv) (hit ▸ hrun)
      rw [hit, htx] at htx'
      cases htx'
      rw [hpoint] at hpoint'
      cases hpoint'
      exact .inr ⟨_, rfl, hkey', rfl⟩
    · exact .inl ⟨v, hv, rfl, VersionHeap.live_iff.mpr ⟨hcommitted, hgone⟩⟩
  · show (s.heap.finish t .committed).present = replay p (s.log ++ [_])
    rw [replay_concat, ← h.present]
    funext k
    by_cases hk : k = tx.key
    · subst hk
      rw [Function.update_self, hkey.2]
    · rw [Function.update_of_ne hk, h.present_commit_of_ne htx hrun hk]
  · have howners := @owners_finish s t tx (.returned (some !didDelete)) h.owners
      .committed (by decide)
    exact ⟨howners.inserted, howners.deleted⟩
  · exact List.mem_append_right _ (List.mem_singleton.mpr rfl)

/-- A call that did nothing returns. -/
theorem ToggleInv.return (h : ToggleInv p s) (htx : s.txs t = some tx)
    (hpoint : tx.point = .executed false false) :
    ToggleInv p ({ s with heap := s.heap.finish t .committed }.setPoint t tx
      (.returned (some true))) := by
  have hok := h.points t tx htx
  rw [hpoint] at hok
  obtain ⟨hrun, hentry⟩ := hok
  have hlive : ∀ v ∈ s.heap.versions,
      (s.heap.finish t .committed).live v = true ↔ s.heap.live v = true := by
    intro v hv
    rw [VersionHeap.live_commit hrun, VersionHeap.live_iff]
    have hins := h.insertedBy_ne htx hrun (by simp [hpoint]) hv
    have hdel := h.deletedBy_ne htx hrun (by simp [hpoint]) (by simp [hpoint]) hv
    constructor
    · exact fun hafter => ⟨hafter.2.2.resolve_left hins, hafter.2.1⟩
    · exact fun hbefore => ⟨hdel, hbefore.2, .inr hbefore.1⟩
  refine h.of_framed (t := t) ?_ setPoint_self (h.began t tx htx)
    (h.distinct.finish hrun (by decide)) ?_ h.legal (.inl rfl)
    (owners_finish h.owners (by decide)) hentry
  · refine framed_finish hrun (fun i v hv hafter => .inl ⟨v, hv, rfl, ?_⟩) rfl
      (fun _ hu => setPoint_of_ne hu) (.inl rfl)
    exact (hlive v (List.mem_of_getElem? hv)).mp hafter
  · show (s.heap.finish t .committed).present = replay p s.log
    rw [← h.present]
    funext k
    rw [Bool.eq_iff_iff, VersionHeap.present_iff, VersionHeap.present_iff]
    exact exists_congr fun v => and_congr_right fun hv => and_congr_right fun _ => hlive v hv

theorem ToggleInv.move (h : ToggleInv p s) (hmove : ToggleMove s t s') : ToggleInv p s' := by
  cases hmove with
  | begin hnone hrun => exact h.begin hnone hrun
  | delete htx hpoint hv hfree => exact h.delete htx hpoint hv hfree
  | skip htx hpoint hgone => exact h.skip htx hpoint hgone
  | deleted htx hpoint => exact h.deleted htx hpoint
  | insert htx hpoint hfree => exact h.insert htx hpoint hfree
  | conflict htx hpoint hv hkey hlive => exact h.conflict htx hpoint hv hkey hlive
  | commit htx hpoint heffect => exact h.commit htx hpoint heffect
  | «return» htx hpoint => exact h.return htx hpoint
  | fail htx hnot => exact h.fail htx hnot

end Steps

/-! ## Runs -/

/-- No transaction is under way, and no key has two rows. -/
structure Settled (heap : VersionHeap ReactionKey) : Prop where
  inserted : ∀ v ∈ heap.versions, heap.status v.insertedBy ≠ .running
  deleted : ∀ v ∈ heap.versions, ∀ t, v.deletedBy = some t → heap.status t ≠ .running
  distinct : heap.Distinct

variable {heap : VersionHeap ReactionKey}

theorem toggleInv_start (h : Settled heap) : ToggleInv heap.present (ToggleState.start heap) where
  distinct := h.distinct
  present := rfl
  legal := .nil
  once := List.nodup_nil
  called := nofun
  began := nofun
  owners := ⟨fun v hv hrun => absurd hrun (h.inserted v hv),
    fun v hv t hdel hrun => absurd hrun (h.deleted v hv t hdel)⟩
  points := nofun

theorem toggleInv_of_reach (h : Settled heap)
    (hrun : Reach ToggleState.step Unguarded (ToggleState.start heap) s) :
    ToggleInv heap.present s := by
  refine hrun.invariant (ToggleInv heap.present) (fun s a s' hinv _ hstep => ?_) (toggleInv_start h)
  obtain ⟨t, hmove⟩ := toggleMove_of_step hstep
  exact hinv.move hmove

/-- In every run the rows are what the calls leave that have taken effect, one after another, each
    as it may; a call that has answered is among them, once, with its answer. -/
theorem toggles_linearize (h : Settled heap)
    (hrun : Reach ToggleState.step Unguarded (ToggleState.start heap) s) :
    Legal heap.present s.log ∧ s.heap.present = replay heap.present s.log ∧
      (s.log.map ToggleEntry.call).Nodup ∧
      (∀ t tx added, s.txs t = some tx → tx.point = .returned (some added) →
        (⟨t, tx.key, added, tx.began⟩ : ToggleEntry) ∈ s.log) ∧
      ∀ (i j : ℕ) v w, s.heap.versions[i]? = some v → s.heap.versions[j]? = some w →
        v.key = w.key → s.heap.live v = true → s.heap.live w = true → i = j := by
  have hinv := toggleInv_of_reach h hrun
  refine ⟨hinv.legal, hinv.present, hinv.once, fun t tx added htx hpoint => ?_,
    fun i j v w hi hj hkey
    hv hw => VersionHeap.live_unique hinv.distinct hi hj hkey hv hw⟩
  have hok := hinv.points t tx htx
  rw [hpoint] at hok
  exact hok

/-- User 2 has reacted to message 5. -/
def reactedHeap : VersionHeap ReactionKey where
  versions := [⟨(5, 2, "👍"), 0, none⟩]
  status t := if t = 0 then .committed else .running

theorem settled_reactedHeap : Settled reactedHeap where
  inserted v hv := by
    rw [List.mem_singleton.mp hv]
    decide
  deleted v hv t hdel := by
    rw [List.mem_singleton.mp hv] at hdel
    cases hdel
  distinct i j v w hij hi hj := by
    have hlt : i < 1 := (List.getElem?_eq_some_iff.mp hi).1
    have hlt' : j < 1 := (List.getElem?_eq_some_iff.mp hj).1
    omega

/-- Three calls begin; the first one deletes, and the others wait for it. -/
def toggledThrice : List ToggleAction :=
  [.begin 1 (5, 2, "👍"), .begin 2 (5, 2, "👍"), .begin 3 (5, 2, "👍"), .next 1]

/-- The first one commits, the second one adds the reaction again, and the third one finds it. -/
def toggledOn : List ToggleAction :=
  [.next 1, .next 1, .next 2, .next 2, .next 2, .next 3, .next 3, .next 3]

def toggled (as : List ToggleAction) : ToggleState :=
  (exec ToggleState.step (ToggleState.start reactedHeap) as).getD (ToggleState.start reactedHeap)

theorem reach_toggled (as : List ToggleAction)
    (h : (exec ToggleState.step (ToggleState.start reactedHeap) as).isSome = true) :
    Reach ToggleState.step Unguarded (ToggleState.start reactedHeap) (toggled as) := by
  obtain ⟨s, hs⟩ := Option.isSome_iff_exists.mp h
  refine Reach.of_exec (meets_unguarded _ _ as) ?_
  rw [toggled, hs]
  rfl

theorem toggles_linearize_thrice :
    (toggled (toggledThrice ++ toggledOn)).log.map (fun e => (e.call, e.added)) =
        [(1, false), (2, true), (3, true)] ∧
      Legal reactedHeap.present (toggled (toggledThrice ++ toggledOn)).log ∧
      (toggled (toggledThrice ++ toggledOn)).heap.present =
        replay reactedHeap.present (toggled (toggledThrice ++ toggledOn)).log := by
  have hall :=
    toggles_linearize settled_reactedHeap (reach_toggled (toggledThrice ++ toggledOn) rfl)
  exact ⟨rfl, hall.1, hall.2.1⟩

/-! ### Waiting -/

/-- A transaction that others wait for has executed its statement, or is about to. -/
theorem owner_steps {t' : ℕ} {tx' : ToggleTx} (htx' : s.txs t' = some tx')
    (hpoint : tx'.point = .deleting [] true ∨ ∃ d i, tx'.point = .executed d i) :
    (s.step (.next t')).isSome = true := by
  simp only [ToggleState.step, htx', ToggleState.next]
  rcases hpoint with hpoint | ⟨d, i, hpoint⟩ <;> rw [hpoint] <;> rfl

/-- A call that cannot go on waits for one that can. -/
theorem toggles_go_on (h : Settled heap)
    (hrun : Reach ToggleState.step Unguarded (ToggleState.start heap) s) (htx : s.txs t = some tx)
    (hnot : ∀ r, tx.point ≠ .returned r) : (s.step (.next t)).isSome = true ∨
      ∃ t' tx', t' ≠ t ∧ s.txs t' = some tx' ∧ tx'.key = tx.key ∧
        (s.step (.next t')).isSome = true := by
  have hinv := toggleInv_of_reach h hrun
  by_cases hsome : (s.step (.next t)).isSome = true
  · exact .inl hsome
  refine .inr ?_
  -- whoever can go on is not `t`
  have hother : ∀ t', (s.step (.next t')).isSome = true → t' ≠ t := by
    rintro t' ht' rfl
    exact hsome ht'
  have hinserted : ∀ v ∈ s.heap.versions, v.key = tx.key → s.heap.status v.insertedBy = .running →
      ∃ t' tx', t' ≠ t ∧ s.txs t' = some tx' ∧ tx'.key = tx.key ∧
        (s.step (.next t')).isSome = true := by
    intro v hv hkey hv'
    obtain ⟨-, tx', htx', hkey', hpoint'⟩ := hinv.owners.inserted v hv hv'
    have hgo := owner_steps htx' (.inr ⟨_, _, hpoint'⟩)
    exact ⟨_, tx', hother _ hgo, htx', hkey'.trans hkey, hgo⟩
  have hdeleted : ∀ v ∈ s.heap.versions, v.key = tx.key → ∀ t', v.deletedBy = some t' →
      s.heap.status t' = .running →
      ∃ t' tx', t' ≠ t ∧ s.txs t' = some tx' ∧ tx'.key = tx.key ∧
        (s.step (.next t')).isSome = true := by
    intro v hv hkey t' hdel hv'
    obtain ⟨tx', htx', hkey', hpoint'⟩ := hinv.owners.deleted v hv t' hdel hv'
    have hgo := owner_steps htx' (hpoint'.imp_right fun hexec => ⟨_, _, hexec⟩)
    exact ⟨t', tx', hother _ hgo, htx', hkey'.trans hkey, hgo⟩
  simp only [ToggleState.step, htx, ToggleState.next] at hsome
  split at hsome
  · rename_i i targets didDelete hpoint
    obtain ⟨-, -, -, -, htargets, -⟩ := hinv.unmarked htx hpoint
    obtain ⟨v, hv, hkey, -⟩ := htargets i (List.mem_singleton.mpr rfl)
    rw [Option.isSome_map] at hsome
    obtain ⟨t', hdel, hrun'⟩ :=
      VersionHeap.deleteAt_waits (Option.not_isSome_iff_eq_none.mp hsome) hv
    exact hdeleted v (List.mem_of_getElem? hv) hkey t' hdel hrun'
  · exact absurd rfl hsome
  · rw [Option.isSome_map] at hsome
    obtain ⟨v, hv, hkey, hwait⟩ :=
      VersionHeap.insertNew_waits (Option.not_isSome_iff_eq_none.mp hsome)
    rcases hwait with hins | ⟨t', hdel, hrun'⟩
    · exact hinserted v hv hkey hins
    · exact hdeleted v hv hkey t' hdel hrun'
  · exact absurd rfl hsome
  · rename_i r hpoint
    exact absurd hpoint (hnot r)

theorem toggles_go_on_thrice : ((toggled toggledThrice).step (.next 2)).isSome = false ∧
    ∃ t' tx', t' ≠ 2 ∧ (toggled toggledThrice).txs t' = some tx' ∧ tx'.key = (5, 2, "👍") ∧
      ((toggled toggledThrice).step (.next t')).isSome = true := by
  have hwaits : ((toggled toggledThrice).step (.next 2)).isSome = false := rfl
  refine ⟨hwaits, ?_⟩
  have hgo := @toggles_go_on _ 2 ⟨(5, 2, "👍"), .deleting [0] false, 0⟩ _ settled_reactedHeap
    (reach_toggled toggledThrice rfl) rfl nofun
  exact hgo.resolve_left (by rw [hwaits]; exact Bool.false_ne_true)

end ConvoyChat.Store
