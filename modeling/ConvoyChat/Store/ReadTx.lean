import ConvoyChat.Lib.RowVersions
import ConvoyChat.Lib.Runs
import ConvoyChat.Store.MessageWrites

/-!
# Concurrent read receipts

`MarkMessageRead` (`internal/store/read_receipts.go` lines 14–25) below the level of its one
statement, with the end of its caller `handleMessageRead` (`internal/websocket/handlers.go` lines
282–297), which publishes `message.read_by` unless the message was read before. Any number of calls
run at once, of any connections and servers. A call that fails is rolled back: that a commit takes
effect while its answer is lost is left out.

* `reads_announced_once`: each receipt has exactly one call that was told that it is new, and
  `message.read_by` is published at most once for it and never for another; a call that was told
  that the message was read before, met the receipt.
-/

namespace ConvoyChat.Store

open ConvoyChat.Lib

/-- The columns of `UNIQUE (message_id, user_id)`. -/
abbrev ReceiptKey := UUID × UUID

/-- Where a `handleMessageRead` call is, from `MarkMessageRead` on. -/
inductive ReadPoint
  | begun
  /-- the `INSERT` is done, with the rows that it affected; its commit is next -/
  | executed (didInsert : Bool)
  /-- `MarkMessageRead` has returned; `none` is an error -/
  | returned (alreadyRead : Option Bool)
  /-- the publication went through, or failed -/
  | published (ok : Bool)
deriving DecidableEq, Repr

structure ReadTx where
  key : ReceiptKey
  point : ReadPoint
deriving DecidableEq, Repr

/-- The table, the calls, each with the number of its transaction, and the receipts that
    `message.read_by` was published for. -/
structure ReadState where
  heap : VersionHeap ReceiptKey
  txs : ℕ → Option ReadTx
  announced : List ReceiptKey

inductive ReadAction
  | begin (t : ℕ) (key : ReceiptKey)
  /-- the call goes on -/
  | next (t : ℕ)
  /-- its statement fails and is rolled back, or its publication fails -/
  | fail (t : ℕ)
deriving DecidableEq, Repr

namespace ReadState

def start (heap : VersionHeap ReceiptKey) : ReadState := ⟨heap, fun _ => none, []⟩

def setPoint (s : ReadState) (t : ℕ) (tx : ReadTx) (point : ReadPoint) : ReadState :=
  { s with txs := Function.update s.txs t (some { tx with point }) }

/-- The call goes on; `none` while it waits, and when it has ended. -/
def next (s : ReadState) (t : ℕ) (tx : ReadTx) : Option ReadState :=
  match tx.point with
  | .begun =>
    (s.heap.insertNew t tx.key).map fun out =>
      { s with heap := out.1 }.setPoint t tx (.executed out.2)
  | .executed didInsert =>
    some ({ s with heap := s.heap.finish t .committed }.setPoint t tx (.returned (some !didInsert)))
  | .returned (some false) =>
    some ({ s with announced := s.announced ++ [tx.key] }.setPoint t tx (.published true))
  | _ => none

def step (s : ReadState) : ReadAction → Option ReadState
  | .begin t key =>
    if s.txs t = none ∧ s.heap.status t = .running then
      some { s with txs := Function.update s.txs t (some ⟨key, .begun⟩) }
    else none
  | .next t =>
    match s.txs t with
    | none => none
    | some tx => s.next t tx
  | .fail t =>
    match s.txs t with
    | none => none
    | some tx =>
      match tx.point with
      | .returned (some false) => some (s.setPoint t tx (.published false))
      | .returned _ | .published _ => none
      | _ => some ({ s with heap := s.heap.finish t .aborted }.setPoint t tx (.returned none))

end ReadState

/-! ## What a step can do -/

/-- All that one step can do, with what it has found. -/
inductive ReadMove (s : ReadState) (t : ℕ) : ReadState → Prop
  | begin {key : ReceiptKey} (hnone : s.txs t = none) (hrun : s.heap.status t = .running) :
      ReadMove s t { s with txs := Function.update s.txs t (some ⟨key, .begun⟩) }
  | insert {tx} (htx : s.txs t = some tx) (hpoint : tx.point = .begun)
      (hfree : ∀ v ∈ s.heap.versions, v.key = tx.key → s.heap.standing v = false) :
      ReadMove s t ({ s with heap := s.heap.append t tx.key }.setPoint t tx (.executed true))
  | conflict {tx v} (htx : s.txs t = some tx) (hpoint : tx.point = .begun)
      (hv : v ∈ s.heap.versions) (hkey : v.key = tx.key) (hlive : s.heap.live v = true) :
      ReadMove s t (s.setPoint t tx (.executed false))
  | commit {tx didInsert} (htx : s.txs t = some tx) (hpoint : tx.point = .executed didInsert) :
      ReadMove s t ({ s with heap := s.heap.finish t .committed }.setPoint t tx
        (.returned (some !didInsert)))
  | publish {tx} (htx : s.txs t = some tx) (hpoint : tx.point = .returned (some false)) :
      ReadMove s t ({ s with announced := s.announced ++ [tx.key] }.setPoint t tx (.published true))
  | unpublished {tx} (htx : s.txs t = some tx) (hpoint : tx.point = .returned (some false)) :
      ReadMove s t (s.setPoint t tx (.published false))
  | fail {tx} (htx : s.txs t = some tx) (hpoint : tx.point = .begun ∨ ∃ b, tx.point = .executed b) :
      ReadMove s t ({ s with heap := s.heap.finish t .aborted }.setPoint t tx (.returned none))

variable {s s' : ReadState} {t : ℕ} {tx : ReadTx} {a : ReadAction}

theorem readMove_of_next (htx : s.txs t = some tx) (h : s.next t tx = some s') :
    ReadMove s t s' := by
  unfold ReadState.next at h
  split at h
  · rename_i hpoint
    obtain ⟨out, hout, rfl⟩ := Option.map_eq_some_iff.mp h
    rcases VersionHeap.insertNew_cases hout with ⟨hfree, rfl⟩ | ⟨⟨v, hv, hkey, hlive⟩, rfl⟩
    · exact .insert htx hpoint hfree
    · exact .conflict htx hpoint hv hkey hlive
  · rename_i hpoint
    cases h
    exact .commit htx hpoint
  · rename_i hpoint
    cases h
    exact .publish htx hpoint
  · cases h

theorem readMove_of_step (h : s.step a = some s') : ∃ t, ReadMove s t s' := by
  cases a with
  | begin t key =>
    simp only [ReadState.step] at h
    split_ifs at h with hnew
    cases h
    exact ⟨t, .begin hnew.1 hnew.2⟩
  | next t =>
    simp only [ReadState.step] at h
    split at h
    · cases h
    · rename_i htx
      exact ⟨t, readMove_of_next htx h⟩
  | fail t =>
    simp only [ReadState.step] at h
    split at h
    · cases h
    · rename_i tx htx
      cases hpoint : tx.point with
      | begun =>
        rw [hpoint] at h
        cases h
        exact ⟨t, .fail htx (.inl hpoint)⟩
      | executed b =>
        rw [hpoint] at h
        cases h
        exact ⟨t, .fail htx (.inr ⟨b, hpoint⟩)⟩
      | returned r =>
        rw [hpoint] at h
        match r, hpoint, h with
        | some false, hpoint, h =>
          cases h
          exact ⟨t, .unpublished htx hpoint⟩
        | some true, _, h => cases h
        | none, _, h => cases h
      | published ok =>
        rw [hpoint] at h
        cases h

/-! ## The invariant -/

/-- The call was told that its receipt is new. -/
def ReadTx.Told (tx : ReadTx) : Prop :=
  tx.point = .returned (some false) ∨ ∃ ok, tx.point = .published ok

/-- What is known of a call at each point. -/
def ReadOk (s : ReadState) (t : ℕ) (tx : ReadTx) : ReadPoint → Prop
  | .begun => s.heap.status t = .running ∧ ∀ v ∈ s.heap.versions, v.insertedBy ≠ t
  | .executed true => s.heap.status t = .running ∧
      ∃ v ∈ s.heap.versions, v.key = tx.key ∧ v.insertedBy = t
  | .executed false => s.heap.status t = .running ∧ (∀ v ∈ s.heap.versions, v.insertedBy ≠ t) ∧
      s.heap.present tx.key = true
  | .returned (some true) => s.heap.present tx.key = true
  | .returned (some false) => s.heap.status t = .committed ∧
      ∃ v ∈ s.heap.versions, v.key = tx.key ∧ v.insertedBy = t
  | .published ok => s.heap.status t = .committed ∧
      (∃ v ∈ s.heap.versions, v.key = tx.key ∧ v.insertedBy = t) ∧
      (ok = true → tx.key ∈ s.announced)
  | .returned none => True

/-- What every step keeps, from `heap` on. -/
structure ReadInv (heap : VersionHeap ReceiptKey) (s : ReadState) : Prop where
  distinct : s.heap.Distinct
  kept : ∀ v ∈ s.heap.versions, v.deletedBy = none
  old : ∀ v ∈ heap.versions, v ∈ s.heap.versions
  ended : ∀ u, heap.status u ≠ .running → s.txs u = none ∧ s.heap.status u = heap.status u
  own : ∀ v ∈ s.heap.versions, v ∈ heap.versions ∨ ∃ tx, s.txs v.insertedBy = some tx ∧
    tx.key = v.key
  committed : ∀ v ∈ s.heap.versions, s.heap.status v.insertedBy = .committed → v ∈ heap.versions ∨
    ∃ tx, s.txs v.insertedBy = some tx ∧ tx.Told
  points : ∀ t tx, s.txs t = some tx → ReadOk s t tx tx.point
  announced : ∀ k ∈ s.announced, ∃ t tx, s.txs t = some tx ∧ tx.key = k ∧ tx.point = .published true
  once : s.announced.Nodup

/-- No receipt is ever deleted, and no transaction is under way. -/
structure ReadSettled (heap : VersionHeap ReceiptKey) : Prop where
  inserted : ∀ v ∈ heap.versions, heap.status v.insertedBy = .committed
  kept : ∀ v ∈ heap.versions, v.deletedBy = none
  distinct : heap.Distinct

variable {heap : VersionHeap ReceiptKey}

theorem readInv_start (h : ReadSettled heap) : ReadInv heap (ReadState.start heap) where
  distinct := h.distinct
  kept := h.kept
  old _ hv := hv
  ended _ _ := ⟨rfl, rfl⟩
  own _ hv := .inl hv
  committed _ hv _ := .inl hv
  points := nofun
  announced := nofun
  once := List.nodup_nil

/-- A row that nobody deletes is a row as soon as it is committed. -/
theorem ReadInv.live_iff (h : ReadInv heap s) {v : RowVersion ReceiptKey}
    (hv : v ∈ s.heap.versions) :
    s.heap.live v = true ↔ s.heap.status v.insertedBy = .committed := by
  rw [VersionHeap.live_iff]
  refine and_iff_left (VersionHeap.gone_eq_false.mpr fun t ht => ?_)
  rw [h.kept v hv] at ht
  cases ht

/-- The row of a committed call is the only one of its key. -/
theorem ReadInv.insertedBy_unique (h : ReadInv heap s) {v w : RowVersion ReceiptKey}
    (hv : v ∈ s.heap.versions) (hw : w ∈ s.heap.versions) (hkey : v.key = w.key)
    (hvc : s.heap.status v.insertedBy = .committed)
      (hwc : s.heap.status w.insertedBy = .committed) :
    v = w := by
  obtain ⟨m, hm⟩ := List.mem_iff_getElem?.mp hv
  obtain ⟨n, hn⟩ := List.mem_iff_getElem?.mp hw
  have hmn := VersionHeap.live_unique h.distinct hm hn hkey ((h.live_iff hv).mpr hvc)
    ((h.live_iff hw).mpr hwc)
  rw [hmn, hn] at hm
  exact (Option.some.inj hm).symm

/-! ## One step -/

theorem readPoint_self {point : ReadPoint} :
    (s.setPoint t tx point).txs t = some { tx with point } := Function.update_self ..

theorem readPoint_of_ne {point : ReadPoint} {u : ℕ} (hu : u ≠ t) :
    (s.setPoint t tx point).txs u = s.txs u := Function.update_of_ne hu ..

/-- What a step of `t` leaves to the other calls. -/
structure ReadFramed (t : ℕ) (s s' : ReadState) : Prop where
  txs : ∀ u, u ≠ t → s'.txs u = s.txs u
  status : ∀ u, u ≠ t → s'.heap.status u = s.heap.status u
  committed : s.heap.status t = .committed → s'.heap.status t = .committed
  versions : s'.heap.versions = s.heap.versions ∨
    ∃ k, s'.heap.versions = s.heap.versions ++ [⟨k, t, none⟩]
  announced : s.announced ⊆ s'.announced

namespace ReadFramed

variable {u : ℕ} {v : RowVersion ReceiptKey}

theorem mem (h : ReadFramed t s s') (hv : v ∈ s.heap.versions) : v ∈ s'.heap.versions := by
  rcases h.versions with hsame | ⟨k, hnew⟩
  · rw [hsame]
    exact hv
  · rw [hnew]
    exact List.mem_append_left _ hv

theorem of_mem (h : ReadFramed t s s') (hv : v ∈ s'.heap.versions) :
    v ∈ s.heap.versions ∨ (v.insertedBy = t ∧ v.deletedBy = none) := by
  rcases h.versions with hsame | ⟨k, hnew⟩
  · exact .inl (hsame ▸ hv)
  · rw [hnew] at hv
    rcases List.mem_append.mp hv with hold | hnew
    · exact .inl hold
    · rw [List.mem_singleton.mp hnew]
      exact .inr ⟨rfl, rfl⟩

theorem committed_of (h : ReadFramed t s s') (hu : s.heap.status u = .committed) :
    s'.heap.status u = .committed := by
  by_cases hut : u = t
  · rw [hut] at hu ⊢
    exact h.committed hu
  · exact (h.status u hut).trans hu

/-- A receipt that is there stays. -/
theorem present (h : ReadFramed t s s') (hinv : ReadInv heap s) {k : ReceiptKey}
    (hk : s.heap.present k = true) : s'.heap.present k = true := by
  obtain ⟨v, hv, hkey, hlive⟩ := VersionHeap.present_iff.mp hk
  refine VersionHeap.present_iff.mpr ⟨v, h.mem hv, hkey, VersionHeap.live_iff.mpr ⟨?_, ?_⟩⟩
  · exact h.committed_of ((hinv.live_iff hv).mp hlive)
  · refine VersionHeap.gone_eq_false.mpr fun t' ht' => ?_
    rw [hinv.kept v hv] at ht'
    cases ht'

/-- What is known of another call stays true. -/
theorem readOk (h : ReadFramed t s s') (hinv : ReadInv heap s) (hu : u ≠ t) {point : ReadPoint}
    (hpoint : ReadOk s u tx point) : ReadOk s' u tx point := by
  have hfree : (∀ v ∈ s.heap.versions, v.insertedBy ≠ u) → ∀ v ∈ s'.heap.versions,
      v.insertedBy ≠ u := by
    intro hnone v hv
    rcases h.of_mem hv with hold | ⟨hnew, -⟩
    · exact hnone v hold
    · rw [hnew]
      exact Ne.symm hu
  have hrow : (∃ v ∈ s.heap.versions, v.key = tx.key ∧ v.insertedBy = u) →
      ∃ v ∈ s'.heap.versions, v.key = tx.key ∧ v.insertedBy = u :=
    fun ⟨v, hv, hrest⟩ => ⟨v, h.mem hv, hrest⟩
  match point, hpoint with
  | .begun, hpoint => exact ⟨(h.status u hu).trans hpoint.1, hfree hpoint.2⟩
  | .executed true, hpoint => exact ⟨(h.status u hu).trans hpoint.1, hrow hpoint.2⟩
  | .executed false, hpoint =>
    exact ⟨(h.status u hu).trans hpoint.1, hfree hpoint.2.1, h.present hinv hpoint.2.2⟩
  | .returned (some true), hpoint => exact h.present hinv hpoint
  | .returned (some false), hpoint => exact ⟨(h.status u hu).trans hpoint.1, hrow hpoint.2⟩
  | .published _, hpoint =>
    exact ⟨(h.status u hu).trans hpoint.1, hrow hpoint.2.1, fun hok => h.announced (hpoint.2.2 hok)⟩
  | .returned none, _ => trivial

end ReadFramed

/-- The parts of the invariant that a step of `t` can break. -/
theorem ReadInv.of_framed (h : ReadInv heap s) (hframed : ReadFramed t s s') {tx' : ReadTx}
    (htx' : s'.txs t = some tx') (hnew : heap.status t = .running) (hdistinct : s'.heap.Distinct)
    (hown : ∀ v ∈ s'.heap.versions, v.insertedBy = t → v ∈ heap.versions ∨ tx'.key = v.key)
    (hcommitted : ∀ v ∈ s'.heap.versions, v.insertedBy = t →
      s'.heap.status t = .committed → tx'.Told)
    (hpoint : ReadOk s' t tx' tx'.point)
    (hannounced : ∀ k ∈ s'.announced, ∃ t tx, s'.txs t = some tx ∧ tx.key = k ∧
      tx.point = .published true)
    (honce : s'.announced.Nodup) : ReadInv heap s' where
  distinct := hdistinct
  kept v hv := by
    rcases hframed.of_mem hv with hold | ⟨-, hnone⟩
    · exact h.kept v hold
    · exact hnone
  old v hv := hframed.mem (h.old v hv)
  ended u hu := by
    have hut : u ≠ t := by
      rintro rfl
      exact hu hnew
    obtain ⟨hnone, hstatus⟩ := h.ended u hu
    exact ⟨(hframed.txs u hut).trans hnone, (hframed.status u hut).trans hstatus⟩
  own v hv := by
    by_cases hvt : v.insertedBy = t
    · rw [hvt]
      exact (hown v hv hvt).imp_right fun hkey => ⟨tx', htx', hkey⟩
    · rw [hframed.txs _ hvt]
      rcases hframed.of_mem hv with hold | ⟨heq, -⟩
      · exact h.own v hold
      · exact absurd heq hvt
  committed v hv hvc := by
    by_cases hvt : v.insertedBy = t
    · rw [hvt] at hvc ⊢
      exact .inr ⟨tx', htx', hcommitted v hv hvt hvc⟩
    · rw [hframed.txs _ hvt]
      rcases hframed.of_mem hv with hold | ⟨heq, -⟩
      · exact h.committed v hold ((hframed.status _ hvt).symm.trans hvc)
      · exact absurd heq hvt
  points u tx htx := by
    by_cases hu : u = t
    · subst hu
      rw [htx'] at htx
      cases htx
      exact hpoint
    · rw [hframed.txs u hu] at htx
      exact hframed.readOk h hu (h.points u tx htx)
  announced := hannounced
  once := honce

/-- A call has begun after the start. -/
theorem ReadInv.new (h : ReadInv heap s) (htx : s.txs t = some tx) : heap.status t = .running := by
  by_contra hnot
  rw [(h.ended t hnot).1] at htx
  cases htx

/-- The announcements of the calls, when `t` has announced nothing. -/
theorem ReadInv.announced_of_ne (h : ReadInv heap s) (htx : s.txs t = some tx)
    (hnot : tx.point ≠ .published true) (htxs : ∀ u, u ≠ t → s'.txs u = s.txs u) :
    ∀ k ∈ s.announced, ∃ t tx, s'.txs t = some tx ∧ tx.key = k ∧ tx.point = .published true := by
  intro k hk
  obtain ⟨u, tx', htx', hkey, hpoint⟩ := h.announced k hk
  have hu : u ≠ t := by
    rintro rfl
    rw [htx] at htx'
    cases htx'
    exact hnot hpoint
  exact ⟨u, tx', (htxs u hu).trans htx', hkey, hpoint⟩

/-- The rows of a call are of its key. -/
theorem ReadInv.own_key (h : ReadInv heap s) (htx : s.txs t = some tx) :
    ∀ v ∈ s.heap.versions, v.insertedBy = t → v ∈ heap.versions ∨ tx.key = v.key := by
  intro v hv hvt
  refine (h.own v hv).imp_right fun ⟨tx', htx', hkey⟩ => ?_
  rw [hvt, htx] at htx'
  cases htx'
  exact hkey

theorem ReadInv.begin (hset : ReadSettled heap) (h : ReadInv heap s) {key : ReceiptKey}
    (hnone : s.txs t = none) (hrun : s.heap.status t = .running) :
    ReadInv heap { s with txs := Function.update s.txs t (some ⟨key, .begun⟩) } := by
  have hnew : heap.status t = .running := by
    by_contra hnot
    exact hnot ((h.ended t hnot).2.symm.trans hrun)
  have hfree : ∀ v ∈ s.heap.versions, v.insertedBy ≠ t := by
    intro v hv hvt
    rcases h.own v hv with hold | ⟨tx', htx', -⟩
    · have hcommitted := hset.inserted v hold
      rw [hvt, hnew] at hcommitted
      cases hcommitted
    · rw [hvt, hnone] at htx'
      cases htx'
  have htxs : ∀ u, u ≠ t →
      Function.update s.txs t (some (⟨key, .begun⟩ : ReadTx)) u = s.txs u :=
    fun u hu => Function.update_of_ne hu ..
  refine h.of_framed (t := t) ⟨htxs, fun _ _ => rfl, id, .inl rfl, List.Subset.refl _⟩
    (Function.update_self ..) hnew
    h.distinct (fun v hv hvt => absurd hvt (hfree v hv)) (fun v hv hvt => absurd hvt (hfree v hv))
    ⟨hrun, hfree⟩ (fun k hk => ?_) h.once
  obtain ⟨u, tx', htx', hrest⟩ := h.announced k hk
  have hu : u ≠ t := by
    rintro rfl
    rw [hnone] at htx'
    cases htx'
  exact ⟨u, tx', (htxs u hu).trans htx', hrest⟩

theorem ReadInv.insert (h : ReadInv heap s) (htx : s.txs t = some tx) (hpoint : tx.point = .begun)
    (hfree : ∀ v ∈ s.heap.versions, v.key = tx.key → s.heap.standing v = false) :
    ReadInv heap ({ s with heap := s.heap.append t tx.key }.setPoint t tx (.executed true)) := by
  have hok := h.points t tx htx
  rw [hpoint] at hok
  have hrun := hok.1
  refine h.of_framed (t := t) ⟨fun _ hu => readPoint_of_ne hu, fun _ _ => rfl, id, .inr ⟨_, rfl⟩,
    List.Subset.refl _⟩
    readPoint_self (h.new htx) (h.distinct.append hrun fun v hv hkey => .inl (hfree v hv hkey))
    (fun v hv hvt => ?_) (fun v _ _ hcommitted => ?_)
    ⟨hrun, ⟨tx.key, t, none⟩, List.mem_append_right _ (List.mem_singleton.mpr rfl), rfl, rfl⟩
    (h.announced_of_ne htx (by simp [hpoint]) fun _ hu => readPoint_of_ne hu) h.once
  · rcases List.mem_append.mp hv with hold | hnew
    · exact absurd hvt (hok.2 v hold)
    · rw [List.mem_singleton.mp hnew]
      exact .inr rfl
  · change s.heap.status t = .committed at hcommitted
    rw [hrun] at hcommitted
    cases hcommitted

theorem ReadInv.conflict (h : ReadInv heap s) (htx : s.txs t = some tx) (hpoint : tx.point = .begun)
    {v : RowVersion ReceiptKey} (hv : v ∈ s.heap.versions) (hkey : v.key = tx.key)
    (hlive : s.heap.live v = true) : ReadInv heap (s.setPoint t tx (.executed false)) := by
  have hok := h.points t tx htx
  rw [hpoint] at hok
  have hthere : s.heap.present tx.key = true := VersionHeap.present_iff.mpr ⟨v, hv, hkey, hlive⟩
  exact h.of_framed (t := t) ⟨fun _ hu => readPoint_of_ne hu, fun _ _ => rfl, id, .inl rfl,
    List.Subset.refl _⟩
    readPoint_self (h.new htx) h.distinct (fun v hv hvt => absurd hvt (hok.2 v hv))
    (fun v hv hvt => absurd hvt (hok.2 v hv)) ⟨hok.1, hok.2, hthere⟩
    (h.announced_of_ne htx (by simp [hpoint]) fun _ hu => readPoint_of_ne hu) h.once

/-- What a transaction that ends leaves to the other calls. -/
theorem readFramed_finish {status : TxStatus} {point : ReadPoint}
    (hrun : s.heap.status t = .running) :
    ReadFramed t s ({ s with heap := s.heap.finish t status }.setPoint t tx point) where
  txs _ hu := readPoint_of_ne hu
  status _ hu := Function.update_of_ne hu ..
  committed hu := by
    rw [hrun] at hu
    cases hu
  versions := .inl rfl
  announced := List.Subset.refl _

theorem ReadInv.commit (h : ReadInv heap s) (htx : s.txs t = some tx) {didInsert : Bool}
    (hpoint : tx.point = .executed didInsert) :
    ReadInv heap ({ s with heap := s.heap.finish t .committed }.setPoint t tx
      (.returned (some !didInsert))) := by
  have hok := h.points t tx htx
  rw [hpoint] at hok
  have hrun : s.heap.status t = .running := by
    cases didInsert <;> exact hok.1
  have hframed : ReadFramed t s ({ s with heap := s.heap.finish t .committed }.setPoint t tx
      (.returned (some !didInsert))) := readFramed_finish hrun
  refine h.of_framed hframed readPoint_self (h.new htx) (h.distinct.finish hrun (by decide))
    (fun v hv hvt => h.own_key htx v hv hvt) (fun v hv hvt _ => ?_) ?_
    (h.announced_of_ne htx (by simp [hpoint]) hframed.txs) h.once
  · cases didInsert with
    | true => exact .inl rfl
    | false => exact absurd hvt (hok.2.1 v hv)
  · cases didInsert with
    | true => exact ⟨Function.update_self .., hok.2⟩
    | false => exact hframed.present h hok.2.2

/-- A step that only moves a call that was told. -/
theorem ReadInv.told (h : ReadInv heap s) (htx : s.txs t = some tx)
    (hpoint : tx.point = .returned (some false)) {ok : Bool} (announced : List ReceiptKey)
    (hgrows : s.announced ⊆ announced) (hkey : ok = true → tx.key ∈ announced)
    (hannounced : ∀ k ∈ announced, ∃ u tx', (s.setPoint t tx (.published ok)).txs u = some tx' ∧
      tx'.key = k ∧ tx'.point = .published true) (honce : announced.Nodup) :
    ReadInv heap ({ s with announced }.setPoint t tx (.published ok)) := by
  have hok := h.points t tx htx
  rw [hpoint] at hok
  exact h.of_framed (t := t) ⟨fun _ hu => readPoint_of_ne hu, fun _ _ => rfl, id, .inl rfl, hgrows⟩
    readPoint_self (h.new htx) h.distinct (fun v hv hvt => h.own_key htx v hv hvt)
    (fun _ _ _ _ => .inr ⟨ok, rfl⟩) ⟨hok.1, hok.2, hkey⟩ hannounced honce

/-- The row of a call that was told. -/
theorem ReadInv.row_of_told (h : ReadInv heap s) (htx : s.txs t = some tx) (htold : tx.Told) :
    s.heap.status t = .committed ∧ ∃ v ∈ s.heap.versions, v.key = tx.key ∧ v.insertedBy = t := by
  have hok := h.points t tx htx
  rcases htold with hpoint | ⟨ok, hpoint⟩
  · rw [hpoint] at hok
    exact hok
  · rw [hpoint] at hok
    exact ⟨hok.1, hok.2.1⟩

/-- Two calls that were told have different keys. -/
theorem ReadInv.told_unique (h : ReadInv heap s) {u : ℕ} {tx' : ReadTx} (htx : s.txs t = some tx)
    (htx' : s.txs u = some tx') (htold : tx.Told) (htold' : tx'.Told) (hkey : tx.key = tx'.key) :
    t = u := by
  obtain ⟨hc, v, hv, hvkey, rfl⟩ := h.row_of_told htx htold
  obtain ⟨hc', w, hw, hwkey, rfl⟩ := h.row_of_told htx' htold'
  rw [h.insertedBy_unique hv hw (hvkey.trans (hkey.trans hwkey.symm)) hc hc']

theorem ReadInv.publish (h : ReadInv heap s) (htx : s.txs t = some tx)
    (hpoint : tx.point = .returned (some false)) :
    ReadInv heap
      ({ s with announced := s.announced ++ [tx.key] }.setPoint t tx (.published true)) := by
  refine h.told htx hpoint _ (List.subset_append_left _ _)
    (fun _ => List.mem_append_right _ (List.mem_singleton.mpr rfl)) (fun k hk => ?_) ?_
  · rcases List.mem_append.mp hk with hold | hnew
    · exact h.announced_of_ne htx (by simp [hpoint]) (fun _ hu => readPoint_of_ne hu) k hold
    · exact ⟨t, _, readPoint_self, (List.mem_singleton.mp hnew).symm, rfl⟩
  · rw [List.nodup_append]
    refine ⟨h.once, List.nodup_singleton _, fun k hk k' hk' heq => ?_⟩
    -- another call has announced the key
    rw [List.mem_singleton] at hk'
    obtain ⟨u, tx', htx', hkey, hpublished⟩ := h.announced k hk
    have hut := h.told_unique htx htx' (.inl hpoint) (.inr ⟨true, hpublished⟩)
      (hk'.symm.trans (heq.symm.trans hkey.symm))
    subst hut
    rw [htx] at htx'
    cases htx'
    rw [hpoint] at hpublished
    cases hpublished

theorem ReadInv.fail (h : ReadInv heap s) (htx : s.txs t = some tx)
    (hpoint : tx.point = .begun ∨ ∃ b, tx.point = .executed b) :
    ReadInv heap ({ s with heap := s.heap.finish t .aborted }.setPoint t tx (.returned none)) := by
  have hrun : s.heap.status t = .running := by
    have hok := h.points t tx htx
    rcases hpoint with hpoint | ⟨b, hpoint⟩
    · rw [hpoint] at hok
      exact hok.1
    · rw [hpoint] at hok
      cases b <;> exact hok.1
  have hframed : ReadFramed t s ({ s with heap := s.heap.finish t .aborted }.setPoint t tx
      (.returned none)) := readFramed_finish hrun
  refine h.of_framed hframed readPoint_self (h.new htx) (h.distinct.finish hrun (by decide))
    (fun v hv hvt => h.own_key htx v hv hvt) (fun _ _ _ hcommitted => ?_) trivial
    (h.announced_of_ne htx ?_ hframed.txs) h.once
  · change Function.update s.heap.status t .aborted t = .committed at hcommitted
    rw [Function.update_self] at hcommitted
    cases hcommitted
  · rcases hpoint with hpoint | ⟨b, hpoint⟩ <;> simp [hpoint]

theorem ReadInv.move (hset : ReadSettled heap) (h : ReadInv heap s) (hmove : ReadMove s t s') :
    ReadInv heap s' := by
  cases hmove with
  | begin hnone hrun => exact h.begin hset hnone hrun
  | insert htx hpoint hfree => exact h.insert htx hpoint hfree
  | conflict htx hpoint hv hkey hlive => exact h.conflict htx hpoint hv hkey hlive
  | commit htx hpoint => exact h.commit htx hpoint
  | publish htx hpoint => exact h.publish htx hpoint
  | unpublished htx hpoint =>
    exact h.told htx hpoint s.announced (List.Subset.refl _) nofun
      (h.announced_of_ne htx (by simp [hpoint]) fun _ hu => readPoint_of_ne hu) h.once
  | fail htx hpoint => exact h.fail htx hpoint

/-! ## Runs -/

/-- In every run, a receipt was there before or belongs to the one call that was told that it is
    new; `message.read_by` goes out at most once for each of these, and for no other; and a call
    that was told that the message was read before, met the receipt. -/
theorem reads_announced_once (hset : ReadSettled heap)
    (hrun : Reach ReadState.step Unguarded (ReadState.start heap) s) :
    (∀ k, s.heap.present k = true ↔
      heap.present k = true ∨ ∃ t tx, s.txs t = some tx ∧ tx.key = k ∧ tx.Told) ∧
    (∀ t tx, s.txs t = some tx → tx.Told → heap.present tx.key = false ∧
      ∀ u tx', s.txs u = some tx' → tx'.Told → tx'.key = tx.key → u = t) ∧
    s.announced.Nodup ∧
    (∀ k, k ∈ s.announced ↔ ∃ t tx, s.txs t = some tx ∧ tx.key = k ∧ tx.point = .published true) ∧
    ∀ t tx, s.txs t = some tx → tx.point = .returned (some true) →
    s.heap.present tx.key = true := by
  have hinv : ReadInv heap s := by
    refine hrun.invariant (ReadInv heap) (fun s a s' hinv _ hstep => ?_) (readInv_start hset)
    obtain ⟨t, hmove⟩ := readMove_of_step hstep
    exact hinv.move hset hmove
  have hold : ∀ v ∈ heap.versions, s.heap.status v.insertedBy = .committed := by
    intro v hv
    have hcommitted := hset.inserted v hv
    rw [(hinv.ended v.insertedBy (by simp [hcommitted])).2]
    exact hcommitted
  refine ⟨fun k => ⟨fun hk => ?_, fun hk => ?_⟩, fun t tx htx htold => ⟨?_, ?_⟩, hinv.once,
    fun k => ⟨hinv.announced k, ?_⟩, fun t tx htx hpoint => ?_⟩
  · obtain ⟨v, hv, rfl, hlive⟩ := VersionHeap.present_iff.mp hk
    rcases hinv.committed v hv ((hinv.live_iff hv).mp hlive) with hvold | ⟨tx, htx, htold⟩
    · refine .inl (VersionHeap.present_iff.mpr ⟨v, hvold, rfl, VersionHeap.live_iff.mpr ⟨?_, ?_⟩⟩)
      · exact hset.inserted v hvold
      · refine VersionHeap.gone_eq_false.mpr fun t ht => ?_
        rw [hset.kept v hvold] at ht
        cases ht
    · rcases hinv.own_key htx v hv rfl with hvold | hkey
      · rw [(hinv.ended v.insertedBy (by simp [hset.inserted v hvold])).1] at htx
        cases htx
      · exact .inr ⟨_, tx, htx, hkey, htold⟩
  · rcases hk with hk | ⟨t, tx, htx, rfl, htold⟩
    · obtain ⟨v, hv, hkey, -⟩ := VersionHeap.present_iff.mp hk
      have hmem := hinv.old v hv
      exact VersionHeap.present_iff.mpr ⟨v, hmem, hkey, (hinv.live_iff hmem).mpr (hold v hv)⟩
    · obtain ⟨hcommitted, v, hv, hkey, rfl⟩ := hinv.row_of_told htx htold
      exact VersionHeap.present_iff.mpr ⟨v, hv, hkey, (hinv.live_iff hv).mpr hcommitted⟩
  · refine Bool.eq_false_iff.mpr fun hk => ?_
    obtain ⟨w, hw, hwkey, -⟩ := VersionHeap.present_iff.mp hk
    obtain ⟨hcommitted, v, hv, hkey, rfl⟩ := hinv.row_of_told htx htold
    have hvw :=
      hinv.insertedBy_unique hv (hinv.old w hw) (hkey.trans hwkey.symm) hcommitted (hold w hw)
    rw [hvw, (hinv.ended w.insertedBy (by simp [hset.inserted w hw])).1] at htx
    cases htx
  · exact fun u tx' htx' htold' hkey => hinv.told_unique htx' htx htold' htold hkey
  · rintro ⟨t, tx, htx, rfl, hpoint⟩
    have hok := hinv.points t tx htx
    rw [hpoint] at hok
    exact hok.2.2 rfl
  · have hok := hinv.points t tx htx
    rw [hpoint] at hok
    exact hok

/-- User 2 reads message 5 on two devices at once. -/
def readTwice : List ReadAction :=
  [.begin 1 (5, 2), .begin 2 (5, 2), .next 1, .next 1, .next 2, .next 2, .next 1]

def noReads : VersionHeap ReceiptKey := ⟨[], fun _ => .running⟩

theorem readSettled_noReads : ReadSettled noReads := ⟨nofun, nofun, nofun⟩

theorem reads_announced_once_twice :
    ∃ s, exec ReadState.step (ReadState.start noReads) readTwice = some s ∧
    s.txs 2 = some ⟨(5, 2), .returned (some true)⟩ ∧ s.announced = [(5, 2)] ∧
    s.heap.present (5, 2) = true := by
  refine ⟨_, rfl, rfl, rfl, ?_⟩
  have hall := reads_announced_once readSettled_noReads
    (Reach.of_exec (meets_unguarded ReadState.step (ReadState.start noReads) readTwice) rfl)
  exact hall.2.2.2.2 2 ⟨(5, 2), .returned (some true)⟩ rfl rfl

end ConvoyChat.Store
