import ConvoyChat.System.Backfill

/-!
# Gaps that a resync closes

* `no_hole`: in every run that lets no message slip through (`NoSlip`), once the most
  recent `resyncRoom` has completed and all events are applied, the cache has no hole.
* `gap_beyond_cap`: after a gap of 1001 messages a resync ends with its twentieth page,
  and the oldest of them is never fetched.
-/

namespace ConvoyChat.System

open ConvoyChat.Lib ConvoyChat.Store ConvoyChat.Frontend

variable {w : Wire} {roomID : UUID} {uid : String} {s s' : Watched} {f f' : Fetch}
  {e : Time ×ₗ UUID} {n : ℕ}

/-! ## Runs -/

theorem Whole.start (users : List ConvoyChat.UserSummary) :
    Whole w roomID (Watched.start users) where
  announced := by
    rintro e ⟨row, user, clientID, hmem, -⟩
    cases hmem
  plain := nofun
  cached := nofun
  fetched := nofun
  running := nofun
  covered := nofun

theorem Whole.insertLive (h : Whole w roomID s) {now : Time} {id userID : UUID}
    {content clientID : String} {messageType : MessageType} {t : MessageTables}
    (user : ConvoyChat.UserSummary)
    (hinsert : insertMessage now id roomID userID content messageType s.sync.tables = .ok t) :
    Whole w roomID ⟨s.sync.commit t (.messageNew
      ⟨id, roomID, userID, content, messageType, none, none, now, now⟩ user clientID), s.call⟩ := by
  have hunder : ∀ e, Announces (s.sync.queue ++ (s.sync.pending ++ [.messageNew
      ⟨id, roomID, userID, content, messageType, none, none, now, now⟩ user clientID])) e ↔
      Announces s.sync.under e ∨ toLex (now, id) = e := by
    intro e
    rw [← List.append_assoc, announces_append, announces_new]
    rfl
  refine h.insert (entries_insert hinsert) (fun e he => (hunder e).mpr (.inl he)) (fun e he => ?_)
    (.inl ((hunder _).mpr (.inr rfl)))
  rcases (hunder e).mp he with he | rfl
  · exact .inl he
  · exact .inr rfl

/-- An event for a room that is not loaded is dropped. -/
theorem Whole.deliverDropped (h : Whole w roomID s) {x : LiveEvent} {rest : List LiveEvent}
    (hqueue : s.sync.queue = x :: rest)
    (hquery : (w.update uid x).apply s.sync.query = s.sync.query)
    (hlost : SparesLost w s (rest ++ s.sync.pending)) :
    Whole w roomID ⟨{ s.sync with queue := rest }.updateCache (w.update uid x), s.call⟩ := by
  have hleft := h.left s.sync.subscribed hlost fun y hy => mem_under_tail hqueue hy
  rw [RoomSync.updateCache, hquery]
  exact hleft

theorem Whole.deliver (h : Whole w roomID s) {x : LiveEvent} {rest : List LiveEvent}
    (hqueue : s.sync.queue = x :: rest) (hok : NoSlip w roomID s .deliver) :
    Whole w roomID ⟨{ s.sync with queue := rest }.updateCache (w.update uid x), s.call⟩ := by
  obtain ⟨hlost, hnew⟩ := hok
  rw [hqueue] at hlost hnew
  cases hchange : LiveEvent.change w x with
  | some c => exact h.deliverChange hqueue hchange
  | none =>
    cases x with
    | messageNew row user clientID =>
      obtain ⟨hnonce, hjoins⟩ := hnew row user clientID rfl
      cases hdata : s.sync.query.data with
      | some d =>
        have hloaded : s.sync.query.data ≠ none := by
          rw [hdata]
          exact Option.some_ne_none d
        exact h.deliverNew hqueue hloaded hnonce (hjoins hloaded)
      | none =>
        refine h.deliverDropped hqueue ?_ (hlost hdata)
        simp only [Wire.update, CacheUpdate.apply, hdata, Option.map_none]
        rw [← hdata]
    | _ => simp [LiveEvent.change] at hchange

/-- The most recent resync is another fetch than an initial query. -/
theorem Whole.not_running (h : Whole w roomID s) {f : Fetch} (hf : s.sync.fetches n = some f)
    (hseen : f.lastSeen = none) : s.call ≠ .running n := by
  intro hcall
  obtain ⟨g, hg, hresync⟩ := h.running n hcall
  rw [hf] at hg
  cases hg
  rw [hseen] at hresync
  cases hresync

/-- The initial query starts. -/
theorem Whole.loadStart (h : Whole w roomID s) (hf : s.sync.fetches n = none) :
    Whole w roomID ⟨s.sync.setFetch n (some ⟨none, [], none, 0, .asked⟩), s.call⟩ := by
  have hanchor : ∀ c, none = some c → ∃ e, s.sync.Holds w e ∧ c = w.timeText (entryTime e) := by
    intro c hc
    cases hc
  refine h.begin hf hanchor (.inr rfl) fun hcall => ?_
  obtain ⟨g, hg, -⟩ := h.running n hcall
  rw [hf] at hg
  cases hg

/-- Every step that lets no message slip through keeps the invariant. -/
theorem whole_step {a : SyncAction} (h : Whole w roomID s) (hok : NoSlip w roomID s a)
    (hmove : s.step w roomID uid a = some s') : Whole w roomID s' := by
  obtain ⟨after, hs, rfl⟩ := Option.map_eq_some_iff.mp hmove
  cases step_move hs with
  | insertLive hinsert _ => exact h.insertLive _ hinsert
  | insertSilent hinsert _ =>
    refine h.insert (entries_insert hinsert) (fun e he => he) (fun e he => .inl he) (.inr ?_)
    exact hok.resolve_left Bool.false_ne_true
  | edit hedit => exact h.commit (entries_edit roomID hedit) rfl
  | delete hdelete => exact h.commit (entries_delete roomID hdelete) rfl
  | markRead hread => exact h.commit (entries_read roomID hread) rfl
  | toggle htoggle => exact h.commit (entries_toggle roomID htoggle) rfl
  | toggleRaced _ => exact h.commit rfl rfl
  | publish hi _ =>
    refine h.left s.sync.subscribed (fun e he hnot => ?_) fun y hy => (mem_under_publish hi y).mp hy
    exact absurd (Announces.mono he fun y hy => (mem_under_publish hi y).mpr hy) hnot
  | lose _ => exact h.left s.sync.subscribed hok fun y hy => mem_under_lose hy
  | subscribe => exact h.left true (fun e he hnot => absurd he hnot) fun _ hy => hy
  | unsubscribe => exact h.left false hok fun y hy => List.mem_append_right _ hy
  | deliver hqueue => exact h.deliver hqueue hok
  | send _ _ => exact absurd hok id
  | sendFailed => exact h.patch fun x hx => by simp [hx]
  | retried =>
    simp only [RoomSync.updateCache, CacheUpdate.apply]
    split_ifs
    · exact h.patch fun x hx => by simp [hx]
    · exact h
  | load _ hf => exact h.loadStart hf
  | resync hf => exact h.resync hf hok
  | list hf hst =>
    obtain ⟨hlisted, hread, hahead⟩ :=
      (h.fetched _ _ hf).list hf hst hok fun _ he => h.holds_mem he
    exact h.setFetch hf hlisted rfl hread hahead
  | @readReceipts n f rows hf hst =>
    have hrows : (fillReadBy s.sync.tables.reads rows).map (·.entry) = rows.map (·.entry) := by
      rw [fillReadBy, List.map_map]
      rfl
    refine h.fill hf (by rw [hst]; exact hrows) fun t => ?_
    rw [Fetch.Ahead, Fetch.Ahead, hst]
    exact belowPage_congr hrows t
  | @readReactions n f rows hf hst =>
    have hrows : (fillReactions s.sync.tables.reactions rows).map (·.entry) =
        rows.map (·.entry) := by
      rw [fillReactions, List.map_map]
      rfl
    refine h.fill hf (by rw [hst]; exact hrows) fun t => ?_
    rw [Fetch.Ahead, Fetch.Ahead, hst]
    exact belowPage_congr hrows t
  | receivePage hf hst hseen => exact h.receivePage hf hst hseen hok
  | loaded hf hst hseen hdata =>
    exact h.load hf hst hseen hdata (nextCall_receive (setFetch_self _ _ _))
  | loadedBefore hf hseen =>
    have hother := h.not_running hf hseen
    refine h.drop (.inr ⟨hother, ?_⟩)
    rw [Watched.nextCall, if_neg fun hand => hother hand.1]
  | @fail n f hf =>
    refine h.drop ?_
    by_cases hcall : s.call = .running n
    · exact .inl (if_pos hcall)
    · exact .inr ⟨hcall, if_neg hcall⟩

/-- In every run in which no message slips through: once the most recent `resyncRoom`
    has completed and all events are applied, the cache has no hole. -/
theorem no_hole {users : List ConvoyChat.UserSummary}
    (hrun : Reach (Watched.step w roomID uid) (NoSlip w roomID) (Watched.start users) s)
    (hcall : s.call = .done) (hqueue : s.sync.queue = []) (hpending : s.sync.pending = []) :
    s.sync.NoHole w roomID := by
  have h : Whole w roomID s := hrun.invariant (Whole w roomID)
    (fun _ _ _ h hok hs => whole_step h hok hs) (Whole.start users)
  intro x hx y hy m hm hroom a b ha hb ham hmb
  have hentry : messageEntry m ∈ s.sync.tables.entries roomID :=
    List.mem_map_of_mem (List.mem_filter.mpr ⟨hm, by simpa using hroom⟩)
  -- the times of the two confirmed messages
  have htime : ∀ z ∈ s.sync.confirmed, ∀ t, w.parseTime z.createdAt = some t →
      ∃ e, s.sync.Holds w e ∧ entryTime e = t := by
    intro z hz t ht
    obtain ⟨e, -, hshows⟩ := h.cached z hz
    rw [hshows.2, w.parse_time] at ht
    exact ⟨e, ⟨z, hz, hshows⟩, Option.some.inj ht⟩
  obtain ⟨ea, hea, rfl⟩ := htime x hx a ha
  obtain ⟨eb, heb, rfl⟩ := htime y hy b hb
  have hunder : s.sync.under = [] := by rw [RoomSync.under, hqueue, hpending]; rfl
  have hnotfailed : s.call ≠ .failed := by
    rw [hcall]
    intro hn
    cases hn
  rcases h.covered hnotfailed _ hentry ⟨⟨ea, hea, ham⟩, eb, heb, hmb⟩ with
    (⟨z, hz, hshows⟩ | hunder') | ⟨n, f, hn, -⟩
  · exact ⟨z, hz, hshows.1⟩
  · rw [hunder] at hunder'
    obtain ⟨row, user, clientID, hmem, -⟩ := hunder'
    cases hmem
  · rw [hcall] at hn
    cases hn

/-! ## A gap that is closed -/

/-- A message newer than all others is spared: nothing reaches across it. -/
theorem Whole.spared (h : Whole w roomID s)
    (hnewest : ∀ a ∈ s.sync.tables.entries roomID, a = e ∨ entryTime a < entryTime e) :
    Spared w s e := by
  constructor
  · rintro - ⟨-, b, hb, hle⟩
    rcases hnewest b (h.holds_mem hb) with rfl | hlt
    · exact .inl hb
    · exact absurd hle (not_le.mpr hlt)
  · intro n f hf hreach
    obtain ⟨b, hb, hle⟩ : ∃ b, f.Holds w b ∧ entryTime e ≤ entryTime b := by
      rcases hreach with ⟨-, hb⟩ | ⟨-, hb⟩
      · exact hb
      · exact hb
    rcases hnewest b ((h.fetched n f hf).stored b hb) with rfl | hlt
    · exact .inl hb
    · exact absurd hle (not_le.mpr hlt)

/-- `Holds`, evaluated. -/
def holds (w : Wire) (s : RoomSync) (e : Time ×ₗ UUID) : Bool :=
  s.confirmed.any fun x => x.id = w.uuidText (ofLex e).2 && x.createdAt = w.timeText (entryTime e)

theorem holds_of_check {s : RoomSync} (h : holds w s e = true) : s.Holds w e := by
  obtain ⟨x, hx, hshows⟩ := List.any_eq_true.mp h
  simp only [Bool.and_eq_true, decide_eq_true_eq] at hshows
  exact ⟨x, hx, hshows⟩

/-- Conditions under which no message slips through: a message that is not announced, or
    whose announcement alone is lost, is the newest one; nothing is on its way when the
    connection ends; when a `message.new` is applied, or a resync starts, every older
    message is held; and the pages are short. -/
def noSlip (w : Wire) (roomID : UUID) (s : Watched) : SyncAction → Bool
  | .insert now id _ _ _ _ live =>
    live || (s.sync.tables.entries roomID).all fun a => a = toLex (now, id) || entryTime a < now
  | .lose i =>
    match s.sync.queue, s.sync.pending with
    | [], [.messageNew row _ _] => i = 0 && (s.sync.tables.entries roomID).all fun a =>
        a = messageEntry row || entryTime a < row.createdAt
    | _, _ => false
  | .unsubscribe => s.sync.queue.isEmpty
  | .deliver =>
    match s.sync.queue with
    | .messageNew row _ clientID :: _ => s.sync.query.data.isSome &&
        (s.sync.confirmed.all fun x => x.id ≠ clientID) &&
        (s.sync.tables.entries roomID).all fun a => a = messageEntry row || holds w s.sync a
    | _ => false
  | .send _ => false
  | .resync _ =>
    match (newestConfirmedCreatedAt s.sync.query.data).bind w.parseTime with
    | some c => (s.sync.tables.entries roomID).all fun a => c < entryTime a || holds w s.sync a
    | none => false
  | .list n =>
    match s.sync.fetches n with
    | some f => (s.sync.listPage w roomID f).length < PAGE_SIZE
    | none => false
  | .receive n =>
    match s.sync.fetches n with
    | some f => f.stage.rows.length < PAGE_SIZE
    | none => false
  | _ => true

theorem noSlip_of_check (s : Watched) (a : SyncAction) (h : Whole w roomID s)
    (hcheck : noSlip w roomID s a = true) : NoSlip w roomID s a := by
  cases a with
  | insert now id userID content messageType clientID live =>
    rcases (Bool.or_eq_true _ _).mp hcheck with hlive | hnewest
    · exact .inl hlive
    · refine .inr (h.spared fun a ha => ?_)
      show _ ∨ entryTime a < now
      simpa using List.all_eq_true.mp hnewest a ha
  | lose i =>
    simp only [noSlip] at hcheck
    split at hcheck
    · rename_i row user clientID hqueue hpending
      rw [Bool.and_eq_true] at hcheck
      intro e he _
      have hentry : messageEntry row = e := by
        rw [RoomSync.under, hqueue, hpending] at he
        exact announces_new.mp he
      subst hentry
      refine h.spared fun a ha => ?_
      show _ ∨ entryTime a < row.createdAt
      simpa using List.all_eq_true.mp hcheck.2 a ha
    · cases hcheck
  | unsubscribe =>
    have hqueue : s.sync.queue = [] := by simpa [noSlip] using hcheck
    intro e he hnot
    rw [RoomSync.under, hqueue] at he
    exact absurd he hnot
  | deliver =>
    simp only [noSlip] at hcheck
    split at hcheck
    · rename_i row user clientID rest hqueue
      rw [Bool.and_eq_true, Bool.and_eq_true] at hcheck
      obtain ⟨⟨hdata, hnonce⟩, hheld⟩ := hcheck
      refine ⟨fun hnone => ?_, fun row' user' clientID' hhead => ⟨fun x hx => ?_,
        fun _ _ a ha _ => ?_⟩⟩
      · rw [hnone] at hdata
        cases hdata
      · rw [hqueue] at hhead
        cases hhead
        simpa using List.all_eq_true.mp hnonce x hx
      · rw [hqueue] at hhead
        cases hhead
        rcases (Bool.or_eq_true _ _).mp (List.all_eq_true.mp hheld a ha) with heq | hholds
        · exact .inl (by simpa using heq)
        · exact .inr (.inl (holds_of_check hholds))
    · cases hcheck
  | send bubble => cases hcheck
  | resync n =>
    intro lastSeen c hlast hparse e he _ hle
    simp only [noSlip, hlast, Option.bind_some, hparse] at hcheck
    rcases (Bool.or_eq_true _ _).mp (List.all_eq_true.mp hcheck e he) with hlt | hholds
    · exact absurd hle (not_le.mpr (by simpa using hlt))
    · exact .inl (holds_of_check hholds)
  | list n =>
    intro f oldest hf hfull
    simp only [noSlip, hf, decide_eq_true_eq] at hcheck
    omega
  | receive n =>
    intro f rows lastSeen oldest c hf hstage _ hfull
    simp only [noSlip, hf, hstage, FetchStage.rows, decide_eq_true_eq] at hcheck
    omega
  | _ => trivial

/-- Room 5, read by user 1. -/
abbrev watchedStep : Watched → SyncAction → Option Watched := Watched.step sampleWire 5 (spell 1)

abbrev watchedStart : Watched := Watched.start [⟨1, "alice", none⟩]

def watchedAfter (as : List SyncAction) : Watched :=
  (exec watchedStep watchedStart as).getD watchedStart

/-- Message 1 is loaded, message 2 is live, message 3 is missed; the first resync fails,
    the second one fetches message 3, and message 4 is live again. -/
def missedAndBack : List SyncAction :=
  [.insert 1 1 1 "one" .text "" false, .load 0] ++ fetchPage ++
    [.subscribe, .insert 2 2 1 "two" .text "" true, .publish 0, .deliver, .unsubscribe,
      .insert 3 3 1 "three" .text "" true, .lose 0, .subscribe, .resync 0, .list 0, .fail 0,
      .resync 0] ++ fetchPage ++ [.insert 4 4 1 "four" .text "" true, .publish 0, .deliver]

theorem no_hole_missed :
    (watchedAfter missedAndBack).sync.confirmed.map (·.id) = [spell 4, spell 3, spell 2, spell 1] ∧
      (watchedAfter missedAndBack).sync.NoHole sampleWire 5 := by
  have hexec : exec watchedStep watchedStart missedAndBack = some (watchedAfter missedAndBack) :=
    rfl
  have hmeets : Meets watchedStep (NoSlip sampleWire 5) watchedStart missedAndBack :=
    meets_of_checks_invariant (Whole sampleWire 5) (fun _ _ _ h hok hs => whole_step h hok hs)
      noSlip_of_check (Whole.start _) rfl
  exact ⟨by decide, no_hole (Reach.of_exec hmeets hexec) rfl rfl rfl⟩

/-! ## A gap beyond the cap -/

/-- The RFC 3339 text of the instant `100001 + 10 * t` microseconds after a full second,
    for `t` below 89999. -/
def microText (t : Time) : String :=
  String.ofList ("2026-07-05T15:30:00.".toList ++ (Nat.toDigits 10 (100001 + 10 * t) ++ ['Z']))

def parseMicro (text : String) : Option Time :=
  some ((Nat.ofDigitChars 10 (text.toList.drop 20).dropLast 0 - 100001) / 10)

theorem parseMicro_microText (t : Time) : parseMicro (microText t) = some t := by
  have hprefix : "2026-07-05T15:30:00.".toList.length = 20 := by decide
  unfold parseMicro microText
  rw [String.toList_ofList, List.drop_left' hprefix, List.dropLast_concat,
    Nat.ofDigitChars_toDigits (by decide) (by decide), Nat.add_sub_cancel_left,
    Nat.mul_div_cancel_left t (by decide)]

theorem microText_ne (t : Time) : microText t ≠ "" := by
  unfold microText
  rw [Ne, ← String.toList_inj, String.toList_ofList, String.toList_empty]
  exact List.append_ne_nil_of_right_ne_nil _
    (List.append_ne_nil_of_right_ne_nil _ (List.cons_ne_nil _ _))

def microWire : Wire where
  uuidText := spell
  timeText := microText
  parseTime := parseMicro
  uuid_inj := sampleWire.uuid_inj
  time_ne := microText_ne
  parse_time := parseMicro_microText

/-- Message `i + 1` of the gap. -/
def gapRow (i : ℕ) : Message := ⟨i + 1, 5, 1, "hi", .text, none, none, i + 1, i + 1⟩

def gapEntry (i : ℕ) : Time ×ₗ UUID := toLex (i + 1, i + 1)

/-- The tables hold the first `k` messages. -/
structure GapTables (k : ℕ) (t : MessageTables) : Prop where
  messages : t.messages = (List.range k).map gapRow
  users : t.users = [⟨1, "alice", none⟩]

section

variable {t : MessageTables} {k m : ℕ} {before : Option Time}

theorem GapTables.entries (h : GapTables k t) : t.entries 5 = (List.range k).map gapEntry := by
  have hroom : (t.messages.filter fun m => m.roomID = 5) = t.messages := by
    rw [List.filter_eq_self, h.messages]
    intro m hm
    obtain ⟨i, -, rfl⟩ := List.mem_map.mp hm
    rfl
  rw [MessageTables.entries, hroom, h.messages, List.map_map]
  rfl

theorem GapTables.listing (h : GapTables k t) :
    t.listing 5 = ((List.range k).map gapEntry).reverse := by
  refine List.Perm.eq_of_pairwise' (r := (· ≥ ·)) (listing_sorted t 5) ?_ ?_
  · rw [List.pairwise_reverse, List.pairwise_map]
    refine List.pairwise_lt_range.imp ?_
    intro a b hab
    exact (Prod.Lex.toLex_le_toLex.mpr (.inl (Nat.succ_lt_succ hab)))
  · rw [← h.entries]
    exact (listing_perm t 5).trans (List.reverse_perm _).symm

/-- The page before message `m + 1`. -/
theorem GapTables.page (h : GapTables k t) (hm : m ≤ k) (hsize : 50 ≤ m)
    (hbefore : ∀ i < k, isBefore before (i + 1) = decide (i < m)) :
    (queryRoomMessages t 5 50 before).map (·.entry) =
      ((List.range 50).map fun j => gapEntry (m - 50 + j)).reverse := by
  have hfilter : (List.range k).filter (fun i => isBefore before (i + 1)) = List.range m := by
    obtain ⟨d, rfl⟩ := Nat.exists_eq_add_of_le hm
    rw [List.range_add, List.filter_append, List.filter_eq_self.mpr, List.filter_eq_nil_iff.mpr,
      List.append_nil]
    · intro i hi
      obtain ⟨j, hj, rfl⟩ := List.mem_map.mp hi
      rw [List.mem_range] at hj
      rw [hbefore _ (by omega)]
      simp
    · intro i hi
      rw [List.mem_range] at hi
      rw [hbefore _ (by omega)]
      simpa using hi
  have hsplit : List.range m = List.range (m - 50) ++ (List.range 50).map fun j => m - 50 + j := by
    rw [← List.range_add]
    congr 1
    omega
  have hkey : ((List.range k).map gapEntry).filter (fun e => isBefore before (ofLex e).1) =
      (List.range m).map gapEntry := by
    rw [List.filter_map, ← hfilter]
    rfl
  rw [map_entry_queryRoomMessages, h.listing, List.filter_reverse, hkey, hsplit, List.map_append,
    List.reverse_append, List.take_left', List.map_map]
  · rfl
  · simp

end

/-- Room 5, read by user 1, with the texts of `microWire`. -/
abbrev gapStep : Watched → SyncAction → Option Watched := Watched.step microWire 5 (spell 1)

/-- Message 1 is loaded, and then the connection ends. -/
def loadOne : List SyncAction :=
  [.insert 1 1 1 "hi" .text "" false, .load 0] ++ fetchPage ++ [.subscribe, .unsubscribe]

def afterLoad : Watched := (exec gapStep watchedStart loadOne).getD watchedStart

/-- The client is away, and the room has `k` messages. -/
structure GapAway (k : ℕ) (s : Watched) : Prop where
  tables : GapTables k s.sync.tables
  pending : s.sync.pending = []
  queue : s.sync.queue = []
  query : s.sync.query = afterLoad.sync.query
  idle : s.sync.fetches 0 = none

/-- One more message that the client misses. -/
theorem GapAway.missed {k : ℕ} {s : Watched} (h : GapAway k s) :
    ∃ s', Reach gapStep Unguarded s s' ∧ GapAway (k + 1) s' := by
  have hfresh : (∀ m ∈ s.sync.tables.messages, m.id ≠ k + 1) ∧
      ∃ u ∈ s.sync.tables.users, u.id = 1 := by
    constructor
    · intro m hm
      rw [h.tables.messages] at hm
      obtain ⟨i, hi, rfl⟩ := List.mem_map.mp hm
      have hlt := List.mem_range.mp hi
      intro heq
      have heq : i + 1 = k + 1 := heq
      omega
    · rw [h.tables.users]
      exact ⟨_, List.mem_singleton_self _, rfl⟩
  obtain ⟨t, ht, hmessages, husers⟩ :
    ∃ t, insertMessage (k + 1) (k + 1) 5 1 "hi" .text s.sync.tables =
      .ok t ∧ t.messages = s.sync.tables.messages ++ [gapRow k] ∧ t.users = s.sync.tables.users :=
    ⟨_, dif_pos hfresh, rfl, rfl⟩
  have hinsert : gapStep s (.insert (k + 1) (k + 1) 1 "hi" .text "" true) =
      some ⟨s.sync.commit t (.messageNew (gapRow k) ⟨1, "alice", none⟩ ""), s.call⟩ := by
    simp only [gapStep, Watched.step, RoomSync.step, ht, h.tables.users]
    rfl
  have hlose :
    gapStep ⟨s.sync.commit t (.messageNew (gapRow k) ⟨1, "alice", none⟩ ""), s.call⟩ (.lose 0) =
      some ⟨{ s.sync with tables := t, pending := [] }, s.call⟩ := by
    simp only [gapStep, Watched.step, RoomSync.step, RoomSync.commit, h.pending]
    rfl
  refine ⟨_, (Reach.single trivial hinsert).trans (Reach.single trivial hlose),
    ⟨⟨?_, ?_⟩, rfl, h.queue, h.query, h.idle⟩⟩
  · show t.messages = _
    rw [hmessages, h.tables.messages, List.range_succ, List.map_append]
    rfl
  · exact husers.trans h.tables.users

theorem GapAway.missedMany {k : ℕ} {s : Watched} (h : GapAway k s) (j : ℕ) :
    ∃ s', Reach gapStep Unguarded s s' ∧ GapAway (k + j) s' := by
  induction j with
  | zero => exact ⟨s, .refl, h⟩
  | succ j ih =>
    obtain ⟨s', hrun, h'⟩ := ih
    obtain ⟨s'', hrun', h''⟩ := h'.missed
    exact ⟨s'', hrun.trans hrun', h''⟩

theorem gapAway_afterLoad :
    Reach gapStep Unguarded watchedStart afterLoad ∧ GapAway 1 afterLoad := by
  have hexec : exec gapStep watchedStart loadOne = some afterLoad := rfl
  exact ⟨Reach.of_exec (meets_unguarded _ _ _) hexec, ⟨⟨rfl, rfl⟩, rfl, rfl, rfl, rfl⟩⟩

/-- The cursor of the `i`-th page, from 0. -/
def gapCursor : ℕ → Option String
  | 0 => none
  | i + 1 => some (microText (953 - 50 * i))

/-- The resync is about to ask for its page `i`: it has collected later messages only. -/
structure GapLoop (i : ℕ) (s : Watched) : Prop where
  tables : GapTables 1002 s.sync.tables
  pending : s.sync.pending = []
  queue : s.sync.queue = []
  query : s.sync.query = afterLoad.sync.query
  call : s.call = .running 0
  fetch : ∃ collected, s.sync.fetches 0 =
      some ⟨some (microText 1), collected, gapCursor i, i, .asked⟩ ∧
    (∀ x ∈ collected, x.status = none ∧ ∃ k, 3 ≤ k ∧ x.id = spell k ∧ x.createdAt = microText k) ∧
    (i = 0 ∨ ∃ x ∈ collected, x.id = spell 1002)

theorem gapLoop_start {s : Watched} (h : GapAway 1002 s) :
    ∃ s', Reach gapStep Unguarded s s' ∧ GapLoop 0 s' := by
  have hnewest : newestConfirmedCreatedAt s.sync.query.data = some (microText 1) := by
    rw [h.query]
    rfl
  have hsubscribe : gapStep s .subscribe = some ⟨{ s.sync with subscribed := true }, s.call⟩ := rfl
  have hresync : gapStep ⟨{ s.sync with subscribed := true }, s.call⟩ (.resync 0) =
      some ⟨RoomSync.setFetch { s.sync with subscribed := true } 0
        (some ⟨some (microText 1), [], none, 0, .asked⟩), .running 0⟩ := by
    simp only [gapStep, Watched.step, RoomSync.step, h.idle, RoomSync.resyncRoom, hnewest,
      if_neg (microText_ne 1), Option.map_some, Watched.nextCall, setFetch_self, Option.isSome_some,
      if_true]
  refine ⟨_, (Reach.single trivial hsubscribe).trans (Reach.single trivial hresync),
    ⟨h.tables, h.pending, h.queue, h.query, rfl, [], setFetch_self _ _ _, ?_, .inl rfl⟩⟩
  intro x hx
  cases hx

theorem setFetch_setFetch (s : RoomSync) (n : ℕ) (g g' : Option Fetch) :
    (s.setFetch n g).setFetch n g' = s.setFetch n g' := by
  unfold RoomSync.setFetch
  rw [Function.update_idem]

/-- The three statements of a page. -/
theorem page_answered (w : Wire) (roomID : UUID) (uid : String) {s : Watched} {f : Fetch} {n : ℕ}
    (hf : s.sync.fetches n = some f) (hstage : f.stage = .asked) :
    ∃ rows, rows.map (·.entry) = (s.sync.listPage w roomID f).map (·.entry) ∧
      Reach (Watched.step w roomID uid) Unguarded s
        ⟨s.sync.setFetch n (some { f with stage := .answered rows }), s.call⟩ := by
  set page := s.sync.listPage w roomID f with hpage
  have hlist : Watched.step w roomID uid s (.list n) =
      some ⟨s.sync.setFetch n (some { f with stage := .listed page }), s.call⟩ := by
    simp only [Watched.step, RoomSync.step, RoomSync.advance, hf, hstage, Option.map_some]
    rfl
  have hreads : Watched.step w roomID uid
      ⟨s.sync.setFetch n (some { f with stage := .listed page }), s.call⟩ (.readReceipts n) =
      some ⟨s.sync.setFetch n
        (some { f with stage := .readBy (fillReadBy s.sync.tables.reads page) }), s.call⟩ := by
    simp only [Watched.step, RoomSync.step, RoomSync.advance, setFetch_self, Option.map_some,
      setFetch_setFetch]
    rfl
  have hreactions : Watched.step w roomID uid
      ⟨s.sync.setFetch n (some { f with stage := .readBy (fillReadBy s.sync.tables.reads page) }),
        s.call⟩
      (.readReactions n) =
      some ⟨s.sync.setFetch n (some { f with
        stage := .answered (fillReactions s.sync.tables.reactions
          (fillReadBy s.sync.tables.reads page)) }), s.call⟩ := by
    simp only [Watched.step, RoomSync.step, RoomSync.advance, setFetch_self, Option.map_some,
      setFetch_setFetch]
    rfl
  refine ⟨_, ?_, ((Reach.single trivial hlist).trans (Reach.single trivial hreads)).trans
    (Reach.single trivial hreactions)⟩
  rw [fillReactions, List.map_map, fillReadBy, List.map_map]
  rfl

/-- The `i`-th page of the resync. -/
theorem GapLoop.page {i : ℕ} {s : Watched} (h : GapLoop i s) (hi : i < 20) :
    (queryRoomMessages s.sync.tables 5 PAGE_SIZE ((gapCursor i).bind parseMicro)).map (·.entry) =
      ((List.range 50).map fun j => gapEntry (952 - 50 * i + j)).reverse := by
  have hm : 952 - 50 * i = 1002 - 50 * i - 50 := by omega
  rw [hm]
  refine h.tables.page (by omega) (by omega) ?_
  · intro j hj
    cases i with
    | zero => simpa [gapCursor, isBefore] using hj
    | succ i =>
      rw [gapCursor, Option.bind_some, parseMicro_microText]
      show decide (j + 1 < 953 - 50 * i) = _
      congr 1
      rw [eq_iff_iff]
      omega

/-- What the page holds. -/
theorem GapLoop.rows {i : ℕ} {s : Watched} (h : GapLoop i s) (hi : i < 20)
    {rows : List HistoryMessage} (hrows : rows.map (·.entry) =
      (queryRoomMessages s.sync.tables 5 PAGE_SIZE ((gapCursor i).bind parseMicro)).map (·.entry)) :
    rows.length = PAGE_SIZE ∧ (∃ oldest, rows.getLast? = some oldest ∧
        oldest.createdAt = 953 - 50 * i) ∧
      (∀ row ∈ rows, 3 ≤ row.id ∧ row.createdAt = row.id) ∧
      (i = 0 → ∃ row ∈ rows, row.id = 1002) := by
  rw [h.page hi] at hrows
  have hlen : rows.length = PAGE_SIZE := by
    have hlen := congrArg List.length hrows
    rw [List.length_map, List.length_reverse, List.length_map, List.length_range] at hlen
    exact hlen
  refine ⟨hlen, ?_, ?_, ?_⟩
  · have hlast := congrArg List.getLast? hrows
    rw [List.getLast?_reverse, List.getLast?_map] at hlast
    have hhead : ((List.range 50).map fun j => gapEntry (952 - 50 * i + j)).head? =
        some (gapEntry (952 - 50 * i)) := rfl
    rw [hhead] at hlast
    obtain ⟨oldest, holdest, hentry⟩ := Option.map_eq_some_iff.mp hlast
    refine ⟨oldest, holdest, ?_⟩
    have htime : oldest.createdAt = 952 - 50 * i + 1 := congrArg (fun e => (ofLex e).1) hentry
    have hnum : 952 - 50 * i + 1 = 953 - 50 * i := by omega
    exact htime.trans hnum
  · intro row hrow
    have hmem : row.entry ∈ rows.map (·.entry) := List.mem_map_of_mem hrow
    rw [hrows, List.mem_reverse] at hmem
    obtain ⟨j, -, hentry⟩ := List.mem_map.mp hmem
    have hid : 952 - 50 * i + j + 1 = row.id := congrArg (fun e => (ofLex e).2) hentry
    have htime : 952 - 50 * i + j + 1 = row.createdAt := congrArg (fun e => (ofLex e).1) hentry
    have hnum : 3 ≤ 952 - 50 * i + j + 1 := by omega
    refine ⟨?_, htime.symm.trans hid⟩
    rw [← hid]
    exact hnum
  · rintro rfl
    have hmem : gapEntry (952 - 50 * 0 + 49) ∈ rows.map (·.entry) := by
      rw [hrows, List.mem_reverse]
      exact List.mem_map.mpr ⟨49, by decide, rfl⟩
    obtain ⟨row, hrow, hentry⟩ := List.mem_map.mp hmem
    exact ⟨row, hrow, congrArg (fun e => (ofLex e).2) hentry⟩

/-- The pages before the last one. -/
theorem gap_texts : ∀ i < 19, ¬ microText (953 - 50 * i) ≤ microText 1 := by decide

/-- A page changes the fetch that it is for, whatever its stage was. -/
theorem receivePage_setFetch (uid : String) (s : RoomSync) (n : ℕ) (g : Option Fetch) {f f' : Fetch}
    (hcollected : f'.collected = f.collected) (hpage : f'.page = f.page) (lastSeen : String)
    (page : List ChatMessage) :
    (s.setFetch n g).receivePage uid n f' lastSeen page = s.receivePage uid n f lastSeen page := by
  have hmerge : ∀ collected, (s.setFetch n g).merge uid n collected = s.merge uid n collected := by
    intro collected
    unfold RoomSync.merge
    split_ifs
    · exact setFetch_setFetch s n g none
    · exact setFetch_setFetch (s.updateCache
        (.resynced (collected.map fun message => ⟨message, none⟩) uid)) n g none
  unfold RoomSync.receivePage
  simp only [hmerge, setFetch_setFetch, hcollected, hpage]

/-- An iteration of the loop of `resyncRoom`. -/
theorem page_received (w : Wire) (roomID : UUID) (uid : String) {s : Watched} {f : Fetch} {n : ℕ}
    {lastSeen : String} (hf : s.sync.fetches n = some f) (hstage : f.stage = .asked)
    (hseen : f.lastSeen = some lastSeen) :
    ∃ rows : List HistoryMessage,
      rows.map (·.entry) = (s.sync.listPage w roomID f).map (·.entry) ∧
      Reach (Watched.step w roomID uid) Unguarded s
        ⟨s.sync.receivePage uid n f lastSeen (rows.map w.message), Watched.nextCall s.call
          (s.sync.receivePage uid n f lastSeen (rows.map w.message)) (.receive n)⟩ := by
  obtain ⟨rows, hrows, hrun⟩ := page_answered w roomID uid hf hstage
  set f' : Fetch := { f with stage := .answered rows }
  have hreceive : (s.sync.setFetch n (some f')).step w roomID uid (.receive n) =
      some (s.sync.receivePage uid n f lastSeen (rows.map w.message)) := by
    have hf' : (s.sync.setFetch n (some f')).fetches n = some f' := setFetch_self _ _ _
    have hseen' : f'.lastSeen = some lastSeen := hseen
    simp only [RoomSync.step, hf', hseen']
    exact congrArg some (receivePage_setFetch uid s.sync n (some f') rfl rfl lastSeen _)
  refine ⟨rows, hrows, hrun.trans (Reach.single (a := .receive n) trivial ?_)⟩
  rw [Watched.step, hreceive]
  rfl

/-- A page adds later messages to what is collected. -/
theorem gap_collected {collected : List ChatMessage} {rows : List HistoryMessage}
    (hcollected : ∀ x ∈ collected,
      x.status = none ∧ ∃ k, 3 ≤ k ∧ x.id = spell k ∧ x.createdAt = microText k)
    (hids : ∀ row ∈ rows, 3 ≤ row.id ∧ row.createdAt = row.id) :
    ∀ x ∈ collected ++ rows.map microWire.message,
      x.status = none ∧ ∃ k, 3 ≤ k ∧ x.id = spell k ∧ x.createdAt = microText k := by
  intro x hx
  rcases List.mem_append.mp hx with hx | hx
  · exact hcollected x hx
  · obtain ⟨row, hrow, rfl⟩ := List.mem_map.mp hx
    exact ⟨rfl, row.id, (hids row hrow).1, rfl, congrArg microText (hids row hrow).2⟩

/-- A page that is not the last one. -/
theorem GapLoop.next {i : ℕ} {s : Watched} (h : GapLoop i s) (hi : i < 19) :
    ∃ s', Reach gapStep Unguarded s s' ∧ GapLoop (i + 1) s' := by
  obtain ⟨collected, hf, hcollected, hnewest⟩ := h.fetch
  obtain ⟨rows, hrows, hrun⟩ := page_received microWire 5 (spell 1) hf rfl rfl
  obtain ⟨hlen, ⟨oldest, hlast, htime⟩, hids, htop⟩ := h.rows (by omega) hrows
  have hmore : RoomSync.receivePage (spell 1) s.sync 0
      ⟨some (microText 1), collected, gapCursor i, i, .asked⟩ (microText 1)
      (rows.map microWire.message) = s.sync.setFetch 0 (some ⟨some (microText 1),
        collected ++ rows.map microWire.message, gapCursor (i + 1), i + 1, .asked⟩) := by
    have holdest : (microWire.message oldest).createdAt = microText (953 - 50 * i) :=
      congrArg microText htime
    unfold RoomSync.receivePage
    rw [List.getLast?_map, hlast]
    dsimp only [Option.map_some]
    rw [if_neg, holdest]
    · rfl
    · rw [List.length_map, hlen, holdest]
      rintro (hlt | hle | hcap)
      · exact lt_irrefl _ hlt
      · exact gap_texts i hi hle
      · have hcap : i + 1 = 20 := hcap
        omega
  rw [hmore] at hrun
  refine ⟨_, hrun, ⟨h.tables, h.pending, h.queue, h.query, ?_, _, setFetch_self _ _ _,
    gap_collected hcollected hids, .inr ?_⟩⟩
  · rw [Watched.nextCall, setFetch_self, if_neg, h.call]
    rintro ⟨-, hnone⟩
    cases hnone
  · rcases hnewest with hzero | ⟨x, hx, hid⟩
    · obtain ⟨row, hrow, hid⟩ := htop hzero
      exact ⟨_, List.mem_append_right _ (List.mem_map_of_mem hrow), congrArg spell hid⟩
    · exact ⟨x, List.mem_append_left _ hx, hid⟩

theorem GapLoop.last {i : ℕ} {s : Watched} (h : GapLoop 0 s) (hi : i ≤ 19) :
    ∃ s', Reach gapStep Unguarded s s' ∧ GapLoop i s' := by
  induction i with
  | zero => exact ⟨s, .refl, h⟩
  | succ i ih =>
    obtain ⟨s', hrun, h'⟩ := ih (by omega)
    obtain ⟨s'', hrun', h''⟩ := h'.next (by omega)
    exact ⟨s'', hrun.trans hrun', h''⟩

/-- The resync ends with its twentieth page. -/
theorem GapLoop.finish {s : Watched} (h : GapLoop 19 s) :
    ∃ s', Reach gapStep Unguarded s s' ∧ s'.call = .done ∧ s'.sync.queue = [] ∧
    s'.sync.pending = [] ∧
      s'.sync.tables = s.sync.tables ∧
      (∃ x ∈ s'.sync.confirmed, x.id = spell 1 ∧ x.createdAt = microText 1) ∧
      (∃ x ∈ s'.sync.confirmed, x.id = spell 1002 ∧ x.createdAt = microText 1002) ∧
      ∀ x ∈ s'.sync.confirmed, x.id ≠ spell 2 := by
  obtain ⟨collected, hf, hcollected, hnewest⟩ := h.fetch
  obtain ⟨rows, hrows, hrun⟩ := page_received microWire 5 (spell 1) hf rfl rfl
  obtain ⟨hlen, ⟨oldest, hlast, htime⟩, hids, htop⟩ := h.rows (by omega) hrows
  set batch := collected ++ rows.map microWire.message with hbatch
  have hend : RoomSync.receivePage (spell 1) s.sync 0
      ⟨some (microText 1), collected, gapCursor 19, 19, .asked⟩ (microText 1)
      (rows.map microWire.message) = s.sync.merge (spell 1) 0 batch := by
    unfold RoomSync.receivePage
    rw [List.getLast?_map, hlast]
    exact if_pos (.inr (.inr rfl))
  rw [hend] at hrun
  have hids' : ∀ x ∈ batch, x.status = none ∧ ∃ k, 3 ≤ k ∧ x.id = spell k ∧
      x.createdAt = microText k :=
    gap_collected hcollected hids
  obtain ⟨top, htop, htopid⟩ : ∃ x ∈ batch, x.id = spell 1002 := by
    rcases hnewest with hzero | ⟨x, hx, hid⟩
    · cases hzero
    · exact ⟨x, List.mem_append_left _ hx, hid⟩
  have hmerge : s.sync.merge (spell 1) 0 batch = (s.sync.updateCache (.resynced (batch.map
      fun message => ⟨message, none⟩) (spell 1))).setFetch 0 none := by
    unfold RoomSync.merge
    rw [if_neg (List.ne_nil_of_mem htop)]
  -- the cache before the merge is message 1
  obtain ⟨first, hfirst, hid, htext, hstatus⟩ : ∃ first : ChatMessage,
      (pagesOf s.sync.query.data).flatten = [first] ∧ first.id = spell 1 ∧
        first.createdAt = microText 1 ∧ first.status = none := by
    rw [h.query]
    exact ⟨_, rfl, rfl, rfl, rfl⟩
  have hflat : (pagesOf (s.sync.merge (spell 1) 0 batch).query.data).flatten =
      (applyAll (pagesOf s.sync.query.data) (batch.map fun message => ⟨message, none⟩)
        (spell 1)).flatten := by
    rw [hmerge]
    exact upsertMessages_flatten _ _ _
  have hnonce : ∀ inc ∈ batch.map fun message => (⟨message, none⟩ : IncomingMessage),
      inc.clientId = none ∧ inc.message.status = none := by
    intro inc hinc
    obtain ⟨x, hx, rfl⟩ := List.mem_map.mp hinc
    exact ⟨rfl, (hids' x hx).1⟩
  have hplain : ∀ x ∈ (pagesOf s.sync.query.data).flatten, x.status = none := by
    rw [hfirst]
    intro x hx
    rw [List.mem_singleton.mp hx, hstatus]
  have hmem : ∀ x ∈ (pagesOf (s.sync.merge (spell 1) 0 batch).query.data).flatten,
      x = first ∨ x ∈ batch := by
    intro x hx
    rw [hflat] at hx
    rcases mem_applyAll hx with hx | ⟨inc, hinc, rfl⟩
    · rw [hfirst] at hx
      exact .inl (List.mem_singleton.mp hx)
    · obtain ⟨y, hy, rfl⟩ := List.mem_map.mp hinc
      exact .inr hy
  have hconfirmed : ∀ x ∈ (pagesOf (s.sync.merge (spell 1) 0 batch).query.data).flatten,
      x ∈ (s.sync.merge (spell 1) 0 batch).confirmed := by
    intro x hx
    refine mem_confirmed.mpr ⟨hx, ?_⟩
    rcases hmem x hx with rfl | hx
    · exact hstatus
    · exact (hids' x hx).1
  have hspell : ∀ a b, spell a = spell b → a = b := fun a b h => sampleWire.uuid_inj h
  refine ⟨_, hrun, ?_, ?_, ?_, ?_, ⟨first, hconfirmed first ?_, hid, htext⟩, ?_, ?_⟩
  · rw [Watched.nextCall, merge_fetches, if_pos ⟨h.call, rfl⟩]
  · rw [hmerge]
    exact h.queue
  · rw [hmerge]
    exact h.pending
  · rw [hmerge]
    rfl
  · rw [hflat]
    refine confirmed_applyAll (fun inc hinc => (hnonce inc hinc).1) ?_ hstatus
    rw [hfirst]
    exact List.mem_singleton_self first
  · have hheld : Held (applyAll (pagesOf s.sync.query.data)
      (batch.map fun message => ⟨message, none⟩)
        (spell 1)) top.id := held_applyAll (fun inc hinc => (hnonce inc hinc).1)
      (fun inc hinc => (hnonce inc hinc).2) hplain (List.mem_map_of_mem htop)
    obtain ⟨x, hx, hxid⟩ := hheld
    rw [← hflat] at hx
    have hxid := hxid.trans htopid
    refine ⟨x, hconfirmed x hx, hxid, ?_⟩
    rcases hmem x hx with rfl | hx
    · cases hspell 1 1002 (hid.symm.trans hxid)
    · obtain ⟨-, k, -, hkid, hktext⟩ := hids' x hx
      rw [hktext, hspell k 1002 (hkid.symm.trans hxid)]
  · intro x hx heq
    rcases hmem x (mem_confirmed.mp hx).1 with rfl | hx
    · cases hspell 1 2 (hid.symm.trans heq)
    · obtain ⟨-, k, hk, hkid, -⟩ := hids' x hx
      rw [hspell k 2 (hkid.symm.trans heq)] at hk
      revert hk
      decide

/-- Message 1 is loaded, and 1001 messages are missed. The resync that follows completes
    after twenty full pages, which end with message 3. Message 2 stays missing. -/
theorem gap_beyond_cap :
    ∃ s, Reach gapStep Unguarded watchedStart s ∧ s.call = .done ∧ s.sync.queue = [] ∧
      s.sync.pending = [] ∧ ¬ s.sync.NoHole microWire 5 := by
  obtain ⟨hload, haway⟩ := gapAway_afterLoad
  obtain ⟨s₁, hrun₁, h₁⟩ := haway.missedMany 1001
  obtain ⟨s₂, hrun₂, h₂⟩ := gapLoop_start h₁
  obtain ⟨s₃, hrun₃, h₃⟩ := h₂.last le_rfl
  obtain ⟨s, hrun, hcall, hqueue, hpending, htables, ⟨x, hx, -, hxtext⟩, ⟨y, hy, -, hytext⟩,
      hmissing⟩ :=
    h₃.finish
  refine ⟨s, (((hload.trans hrun₁).trans hrun₂).trans hrun₃).trans hrun, hcall,
    hqueue, hpending, ?_⟩
  intro hwhole
  have hrow : gapRow 1 ∈ s.sync.tables.messages := by
    rw [htables, h₃.tables.messages]
    exact List.mem_map_of_mem (List.mem_range.mpr (by decide))
  have hfirst : parseMicro x.createdAt = some 1 := by rw [hxtext, parseMicro_microText]
  have hlast : parseMicro y.createdAt = some 1002 := by rw [hytext, parseMicro_microText]
  obtain ⟨z, hz, hid⟩ :=
    hwhole x hx y hy (gapRow 1) hrow rfl 1 1002 hfirst hlast (by decide) (by decide)
  exact hmissing z hz hid

end ConvoyChat.System
