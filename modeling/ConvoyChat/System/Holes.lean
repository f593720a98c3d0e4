import ConvoyChat.System.Resynced

/-!
# Holes in the cache of a room

`resyncRoom` pages backwards from the newest message of the room until a page reaches
the newest message that the client held when the call began (`lastSeen`), or the page is
short, or `MAX_RESYNC_PAGES` pages are read, and merges what it collected. The cache has
no hole when it holds every message whose `created_at` lies between those of two
confirmed messages.

A message that is missing in between must be announced by an event under way, or be in
the pages of the running resync, or be below the page that it reads and newer than its
`lastSeen` (`Whole`). Here are the steps that keep this and have no part in a fetch:
writes, events that are published, lost or applied. The condition on them, and on the
others, is `NoSlip`.
-/

namespace ConvoyChat.System

open ConvoyChat.Lib ConvoyChat.Store ConvoyChat.Frontend

/-- How the most recent call of `resyncRoom` stands. -/
inductive ResyncCall
  /-- it has returned, or there was no call yet -/
  | done
  | running (n : ℕ)
  /-- `api.get` rejected -/
  | failed
deriving DecidableEq, Repr

/-- The room and the client, with the most recent call of `resyncRoom`. -/
structure Watched where
  sync : RoomSync
  call : ResyncCall

namespace Watched

def start (users : List ConvoyChat.UserSummary) : Watched := ⟨RoomSync.start users, .done⟩

/-- The most recent call after a step that led to `after`. -/
def nextCall (call : ResyncCall) (after : RoomSync) : SyncAction → ResyncCall
  | .resync n => if (after.fetches n).isSome then .running n else .done
  | .receive n => if call = .running n ∧ (after.fetches n).isNone then .done else call
  | .fail n => if call = .running n then .failed else call
  | _ => call

def step (w : Wire) (roomID : UUID) (currentUserId : String) (s : Watched) (a : SyncAction) :
    Option Watched :=
  (s.sync.step w roomID currentUserId a).map fun after => ⟨after, nextCall s.call after a⟩

end Watched

section

variable (w : Wire)

/-- `x` is the message of the room with this `(created_at, id)`. -/
def Wire.Shows (x : ChatMessage) (e : Time ×ₗ UUID) : Prop :=
  x.id = w.uuidText (ofLex e).2 ∧ x.createdAt = w.timeText (entryTime e)

def RoomSync.Holds (s : RoomSync) (e : Time ×ₗ UUID) : Prop := ∃ x ∈ s.confirmed, w.Shows x e

/-- A `message.new` among `events` announces `e`. -/
def Announces (events : List LiveEvent) (e : Time ×ₗ UUID) : Prop :=
  ∃ row user clientID, .messageNew row user clientID ∈ events ∧ messageEntry row = e

/-- The client holds `e`, or its announcement is under way. -/
def RoomSync.Settled (s : RoomSync) (e : Time ×ₗ UUID) : Prop := s.Holds w e ∨ Announces s.under e

/-- Every message of the room whose `created_at` lies between those of two confirmed
    messages is in the cache. -/
def RoomSync.NoHole (roomID : UUID) (s : RoomSync) : Prop :=
  ∀ x ∈ s.confirmed, ∀ y ∈ s.confirmed, ∀ m ∈ s.tables.messages, m.roomID = roomID →
    ∀ a b, w.parseTime x.createdAt = some a → w.parseTime y.createdAt = some b →
      a ≤ m.createdAt → m.createdAt ≤ b → ∃ z ∈ s.confirmed, z.id = w.uuidText m.id

/-! ## Fetches -/

/-- The fetch has read `e`. -/
def Fetch.Holds (f : Fetch) (e : Time ×ₗ UUID) : Prop := ∃ c ∈ f.copies w, w.Shows c.2 e

/-- A page is full, and messages of time `t` are below it. -/
def BelowPage (rows : List HistoryMessage) (t : Time) : Prop :=
  PAGE_SIZE ≤ rows.length ∧ ∃ oldest, rows.getLast? = some oldest ∧ t < oldest.createdAt

/-- Messages of time `t` are still to be read, if the fetch goes on. -/
def Fetch.Ahead (f : Fetch) (t : Time) : Prop :=
  match f.stage with
  | .asked => isBefore (f.cursor.bind w.parseTime) t = true
  | .listed rows => BelowPage rows t
  | .readBy rows => BelowPage rows t
  | .answered rows => BelowPage rows t

/-- Time `t` is after the anchor of a resync. -/
def Fetch.Since (f : Fetch) (t : Time) : Prop :=
  ∃ c, f.lastSeen.bind w.parseTime = some c ∧ c < t

/-- `e` lies between two messages of the pages read so far, or between the anchor and
    one of them. -/
def Fetch.Reaches (f : Fetch) (e : Time ×ₗ UUID) : Prop :=
  Spanned entryTime (f.Holds w) e ∨
    f.Since w (entryTime e) ∧ ∃ b, f.Holds w b ∧ entryTime e ≤ entryTime b

/-- The running resync has read `e`, or is going to. -/
def Watched.Brings (s : Watched) (e : Time ×ₗ UUID) : Prop :=
  ∃ n f, s.call = .running n ∧ s.sync.fetches n = some f ∧
    (f.Holds w e ∨ f.Ahead w (entryTime e) ∧ f.Since w (entryTime e))

/-! ## Steps that let no message slip through -/

variable (roomID : UUID) (s : Watched)

/-- The client can do without the announcement of `e`: neither what it holds nor the
    pages of a fetch reach across it, or it gets `e` without. -/
def Spared (e : Time ×ₗ UUID) : Prop :=
  (s.call ≠ .failed → Spanned entryTime (s.sync.Holds w) e → s.sync.Holds w e ∨ s.Brings w e) ∧
    ∀ n f, s.sync.fetches n = some f → f.Reaches w e →
      f.Holds w e ∨ s.sync.Holds w e ∨ f.Ahead w (entryTime e)

/-- Of the events under way only `left` remain. -/
def SparesLost (left : List LiveEvent) : Prop :=
  ∀ e, Announces s.sync.under e → ¬ Announces left e → Spared w s e

/-- The live message `new` is not separated from what the client holds by a missing one
    that is neither announced nor being fetched. -/
def Joins (new : Time ×ₗ UUID) : Prop :=
  s.call ≠ .failed → ∀ e ∈ s.sync.tables.entries roomID,
    (∃ a, (s.sync.Holds w a ∨ a = new) ∧ (entryTime a ≤ entryTime e ∧ entryTime e ≤ entryTime new ∨
      entryTime new ≤ entryTime e ∧ entryTime e ≤ entryTime a)) →
    e = new ∨ s.sync.Holds w e ∨ Announces (s.sync.queue.tail ++ s.sync.pending) e ∨ s.Brings w e

/-- No message between those that the client holds, up to the anchor of a resync that
    starts now, is missing. -/
def AnchorOk : Prop :=
  ∀ lastSeen c, newestConfirmedCreatedAt s.sync.query.data = some lastSeen →
    w.parseTime lastSeen = some c → ∀ e ∈ s.sync.tables.entries roomID,
      Spanned entryTime (s.sync.Holds w) e → entryTime e ≤ c → s.sync.Settled w e

/-- The page that fetch `n` reads next does not end between two messages of the same
    `created_at`, unless the client has the ones that it leaves out. -/
def PageApart (n : ℕ) : Prop :=
  ∀ f oldest, s.sync.fetches n = some f → PAGE_SIZE ≤ (s.sync.listPage w roomID f).length →
    (s.sync.listPage w roomID f).getLast? = some oldest →
      ∀ e ∈ s.sync.tables.entries roomID, entryTime e = oldest.createdAt →
        (∃ row ∈ s.sync.listPage w roomID f, row.entry = e) ∨ s.sync.Settled w e

/-- A resync that ends with a full page, because it is the last one allowed or because
    the texts of the times say so, leaves out no message newer than its anchor. -/
def ReachesAnchor (n : ℕ) : Prop :=
  ∀ f rows lastSeen oldest c, s.sync.fetches n = some f → f.stage = .answered rows →
    f.lastSeen = some lastSeen → PAGE_SIZE ≤ rows.length → rows.getLast? = some oldest →
    w.timeText oldest.createdAt ≤ lastSeen ∨ f.page + 1 = MAX_RESYNC_PAGES →
    w.parseTime lastSeen = some c → ∀ e ∈ s.sync.tables.entries roomID,
      c < entryTime e → entryTime e < oldest.createdAt → s.sync.Settled w e

/-- The steps that let no message slip through. The messages that the client sends
    itself are not part of these runs. -/
def NoSlip : SyncAction → Prop
  | .insert now id _ _ _ _ live => live = true ∨ Spared w s (toLex (now, id))
  | .lose i => SparesLost w s (s.sync.queue ++ s.sync.pending.eraseIdx i)
  | .unsubscribe => SparesLost w s s.sync.pending
  | .deliver =>
    (s.sync.query.data = none → SparesLost w s (s.sync.queue.tail ++ s.sync.pending)) ∧
      ∀ row user clientID, s.sync.queue.head? = some (.messageNew row user clientID) →
        (∀ x ∈ s.sync.confirmed, x.id ≠ clientID) ∧
          (s.sync.query.data ≠ none → Joins w roomID s (messageEntry row))
  | .send _ => False
  | .resync _ => AnchorOk w roomID s
  | .list n => PageApart w roomID s n
  | .receive n => ReachesAnchor w roomID s n
  | _ => True

/-! ## The invariant -/

structure FetchOk (s : RoomSync) (f : Fetch) : Prop where
  initial : f.lastSeen = none → f.collected = []
  shown : ∀ c ∈ f.copies w, c.2.status = none ∧ ∃ e, w.Shows c.2 e
  stored : ∀ e, f.Holds w e → e ∈ s.tables.entries roomID
  cursor : ∀ c, f.cursor = some c → ∃ e, f.Holds w e ∧ c = w.timeText (entryTime e)
  anchor : ∀ c, f.lastSeen = some c → ∃ e, s.Holds w e ∧ c = w.timeText (entryTime e)
  below : ∀ t, f.Ahead w t → ∀ e, f.Holds w e → t < entryTime e
  topped : ∀ c, f.lastSeen = some (w.timeText c) → ∀ a, f.Holds w a →
    ∃ b, f.Holds w b ∧ c ≤ entryTime b
  reached : ∀ e ∈ s.tables.entries roomID, f.Reaches w e →
    f.Holds w e ∨ s.Settled w e ∨ f.Ahead w (entryTime e)

structure Whole : Prop where
  announced : ∀ e, Announces s.sync.under e → e ∈ s.sync.tables.entries roomID
  plain : ∀ x ∈ (pagesOf s.sync.query.data).flatten, x.status = none
  cached : ∀ x ∈ s.sync.confirmed, ∃ e ∈ s.sync.tables.entries roomID, w.Shows x e
  fetched : ∀ n f, s.sync.fetches n = some f → FetchOk w roomID s.sync f
  running : ∀ n, s.call = .running n → ∃ f, s.sync.fetches n = some f ∧ f.lastSeen.isSome
  covered : s.call ≠ .failed → ∀ e ∈ s.sync.tables.entries roomID,
    Spanned entryTime (s.sync.Holds w) e → s.sync.Settled w e ∨ s.Brings w e

end

variable {w : Wire} {roomID : UUID} {uid : String} {s s' : Watched} {f f' : Fetch}
  {e : Time ×ₗ UUID} {events : List LiveEvent} {n : ℕ}

theorem announces_append {a b : List LiveEvent} :
    Announces (a ++ b) e ↔ Announces a e ∨ Announces b e := by
  constructor
  · rintro ⟨row, user, clientID, hmem, hrow⟩
    rcases List.mem_append.mp hmem with hmem | hmem
    · exact .inl ⟨row, user, clientID, hmem, hrow⟩
    · exact .inr ⟨row, user, clientID, hmem, hrow⟩
  · rintro (⟨row, user, clientID, hmem, hrow⟩ | ⟨row, user, clientID, hmem, hrow⟩)
    · exact ⟨row, user, clientID, List.mem_append_left _ hmem, hrow⟩
    · exact ⟨row, user, clientID, List.mem_append_right _ hmem, hrow⟩

theorem Announces.mono {a b : List LiveEvent} (h : Announces a e) (hab : ∀ x ∈ a, x ∈ b) :
    Announces b e := by
  obtain ⟨row, user, clientID, hmem, hrow⟩ := h
  exact ⟨row, user, clientID, hab _ hmem, hrow⟩

theorem announces_new {row : Message} {user : ConvoyChat.UserSummary} {clientID : String} :
    Announces [.messageNew row user clientID] e ↔ messageEntry row = e := by
  constructor
  · rintro ⟨row', user', clientID', hmem, hrow⟩
    cases List.mem_singleton.mp hmem
    exact hrow
  · intro hrow
    exact ⟨row, user, clientID, List.mem_singleton_self _, hrow⟩

theorem not_announces_change {x : LiveEvent} {c : Change} (hx : LiveEvent.change w x = some c) :
    ¬ Announces [x] e := by
  rintro ⟨row, user, clientID, hmem, -⟩
  rw [← List.mem_singleton.mp hmem] at hx
  cases hx

/-! ## Steps outside the fetches -/

/-- A step that leaves the fetches alone. -/
theorem Whole.transfer (h : Whole w roomID s) (hfetches : s'.sync.fetches = s.sync.fetches)
    (hcall : s'.call = s.call)
    (hentries : ∀ e ∈ s.sync.tables.entries roomID, e ∈ s'.sync.tables.entries roomID)
    (hholds : ∀ e, s.sync.Holds w e → s'.sync.Holds w e)
    (hannounced : ∀ e, Announces s'.sync.under e → e ∈ s'.sync.tables.entries roomID)
    (hplain : ∀ x ∈ (pagesOf s'.sync.query.data).flatten, x.status = none)
    (hcached : ∀ x ∈ s'.sync.confirmed, ∃ e ∈ s'.sync.tables.entries roomID, w.Shows x e)
    (hreached : ∀ n f, s.sync.fetches n = some f → ∀ e ∈ s'.sync.tables.entries roomID,
      f.Reaches w e → f.Holds w e ∨ s'.sync.Settled w e ∨ f.Ahead w (entryTime e))
    (hcovered : s.call ≠ .failed → ∀ e ∈ s'.sync.tables.entries roomID,
      Spanned entryTime (s'.sync.Holds w) e → s'.sync.Settled w e ∨ s.Brings w e) :
    Whole w roomID s' where
  announced := hannounced
  plain := hplain
  cached := hcached
  fetched n f hf := by
    rw [hfetches] at hf
    have hok := h.fetched n f hf
    refine ⟨hok.initial, hok.shown, fun e he => hentries e (hok.stored e he),
      hok.cursor, fun c hc => ?_, hok.below, hok.topped, hreached n f hf⟩
    · obtain ⟨e, he, hc⟩ := hok.anchor c hc
      exact ⟨e, hholds e he, hc⟩
  running n hn := by
    rw [hcall] at hn
    rw [hfetches]
    exact h.running n hn
  covered hcall' e he hspan := by
    rw [hcall] at hcall'
    rcases hcovered hcall' e he hspan with hsettled | ⟨n, f, hn, hf, hbrings⟩
    · exact .inl hsettled
    · exact .inr ⟨n, f, hcall.trans hn, by rw [hfetches, hf], hbrings⟩

/-- A step that neither adds a message, nor takes an announcement away. -/
theorem Whole.quiet (h : Whole w roomID s) (hfetches : s'.sync.fetches = s.sync.fetches)
    (hcall : s'.call = s.call)
    (hentries : s'.sync.tables.entries roomID = s.sync.tables.entries roomID)
    (hholds : ∀ e, s'.sync.Holds w e ↔ s.sync.Holds w e)
    (hannounces : ∀ e, Announces s'.sync.under e ↔ Announces s.sync.under e)
    (hplain : ∀ x ∈ (pagesOf s'.sync.query.data).flatten, x.status = none)
    (hcached : ∀ x ∈ s'.sync.confirmed, ∃ e ∈ s.sync.tables.entries roomID, w.Shows x e) :
    Whole w roomID s' := by
  have hsettled : ∀ e, s.sync.Settled w e → s'.sync.Settled w e := by
    rintro e (he | he)
    · exact .inl ((hholds e).mpr he)
    · exact .inr ((hannounces e).mpr he)
  refine h.transfer hfetches hcall ?_ (fun e => (hholds e).mpr) ?_ hplain ?_ ?_ ?_
  · intro e he
    rw [hentries]
    exact he
  · intro e he
    rw [hentries]
    exact h.announced e ((hannounces e).mp he)
  · rw [hentries]
    exact hcached
  · intro n f hf e he hreach
    rw [hentries] at he
    rcases (h.fetched n f hf).reached e he hreach with hread | hset | hahead
    · exact .inl hread
    · exact .inr (.inl (hsettled e hset))
    · exact .inr (.inr hahead)
  · intro hcall e he hspan
    rw [hentries] at he
    rcases h.covered hcall e he (hspan.mono fun a => (hholds a).mp) with hset | hbrings
    · exact .inl (hsettled e hset)
    · exact .inr hbrings

/-- Events are published or lost. -/
theorem Whole.left (h : Whole w roomID s) {queue pending : List LiveEvent} (subscribed : Bool)
    (hlost : SparesLost w s (queue ++ pending)) (hsub : ∀ x ∈ queue ++ pending, x ∈ s.sync.under) :
    Whole w roomID ⟨{ s.sync with pending, subscribed, queue }, s.call⟩ := by
  refine h.transfer rfl rfl (fun _ he => he) (fun _ he => he)
    (fun e he => ?_) h.plain h.cached ?_ ?_
  · exact h.announced e (Announces.mono he hsub)
  · intro n f hf e he hreach
    by_cases hleft : Announces (queue ++ pending) e
    · exact .inr (.inl (.inr hleft))
    · rcases (h.fetched n f hf).reached e he hreach with hread | (hheld | hunder) | hahead
      · exact .inl hread
      · exact .inr (.inl (.inl hheld))
      · rcases (hlost e hunder hleft).2 n f hf hreach with hread | hheld | hahead
        · exact .inl hread
        · exact .inr (.inl (.inl hheld))
        · exact .inr (.inr hahead)
      · exact .inr (.inr hahead)
  · intro hcall e he hspan
    by_cases hleft : Announces (queue ++ pending) e
    · exact .inl (.inr hleft)
    · rcases h.covered hcall e he hspan with (hheld | hunder) | hbrings
      · exact .inl (.inl hheld)
      · rcases (hlost e hunder hleft).1 hcall hspan with hheld | hbrings
        · exact .inl (.inl hheld)
        · exact .inr hbrings
      · exact .inr hbrings

/-- A write that adds no message, and its event. -/
theorem Whole.commit (h : Whole w roomID s) {t : MessageTables} {x : LiveEvent} {c : Change}
    (hentries : t.entries roomID = s.sync.tables.entries roomID)
    (hx : LiveEvent.change w x = some c) : Whole w roomID ⟨s.sync.commit t x, s.call⟩ := by
  refine h.quiet rfl rfl hentries (fun _ => Iff.rfl) (fun e => ?_) h.plain h.cached
  have hunder : (s.sync.commit t x).under = s.sync.under ++ [x] := (List.append_assoc _ _ _).symm
  rw [hunder, announces_append]
  constructor
  · rintro (he | he)
    · exact he
    · exact absurd he (not_announces_change hx)
  · exact .inl

/-- A new message that is announced, or whose announcement the client can do without. -/
theorem Whole.insert (h : Whole w roomID s) {t : MessageTables} {pending : List LiveEvent}
    {new : Time ×ₗ UUID} (hentries : t.entries roomID = s.sync.tables.entries roomID ++ [new])
    (hold : ∀ e, Announces s.sync.under e → Announces (s.sync.queue ++ pending) e)
    (hpending : ∀ e, Announces (s.sync.queue ++ pending) e → Announces s.sync.under e ∨ e = new)
    (hnew : Announces (s.sync.queue ++ pending) new ∨ Spared w s new) :
    Whole w roomID ⟨{ s.sync with tables := t, pending }, s.call⟩ := by
  have hmem : ∀ e ∈ s.sync.tables.entries roomID, e ∈ t.entries roomID := by
    intro e he
    rw [hentries]
    exact List.mem_append_left _ he
  have hsplit : ∀ e ∈ t.entries roomID, e ∈ s.sync.tables.entries roomID ∨ e = new := by
    intro e he
    rw [hentries] at he
    rcases List.mem_append.mp he with he | he
    · exact .inl he
    · exact .inr (List.mem_singleton.mp he)
  refine h.transfer rfl rfl hmem (fun _ he => he) (fun e he => ?_) h.plain ?_ ?_ ?_
  · rcases hpending e he with he | rfl
    · exact hmem e (h.announced e he)
    · show e ∈ t.entries roomID
      rw [hentries]
      exact List.mem_append_right _ (List.mem_singleton_self e)
  · intro x hx
    obtain ⟨e, he, hshows⟩ := h.cached x hx
    exact ⟨e, hmem e he, hshows⟩
  · intro n f hf e he hreach
    rcases hsplit e he with he | rfl
    · rcases (h.fetched n f hf).reached e he hreach with hread | (hheld | hunder) | hahead
      · exact .inl hread
      · exact .inr (.inl (.inl hheld))
      · exact .inr (.inl (.inr (hold e hunder)))
      · exact .inr (.inr hahead)
    · rcases hnew with hnew | hspared
      · exact .inr (.inl (.inr hnew))
      · rcases hspared.2 n f hf hreach with hread | hheld | hahead
        · exact .inl hread
        · exact .inr (.inl (.inl hheld))
        · exact .inr (.inr hahead)
  · intro hcall e he hspan
    rcases hsplit e he with he | rfl
    · rcases h.covered hcall e he hspan with (hheld | hunder) | hbrings
      · exact .inl (.inl hheld)
      · exact .inl (.inr (hold e hunder))
      · exact .inr hbrings
    · rcases hnew with hnew | hspared
      · exact .inl (.inr hnew)
      · rcases hspared.1 hcall hspan with hheld | hbrings
        · exact .inl (.inl hheld)
        · exact .inr hbrings

/-! ## The cache -/

theorem timeText_inj {a b : Time} (h : w.timeText a = w.timeText b) : a = b := by
  have hparse := w.parse_time a
  rw [h, w.parse_time] at hparse
  exact (Option.some.inj hparse).symm

theorem shows_inj {x : ChatMessage} {a b : Time ×ₗ UUID} (ha : w.Shows x a) (hb : w.Shows x b) :
    a = b := by
  have hid : (ofLex a).2 = (ofLex b).2 := w.uuid_inj (ha.1.symm.trans hb.1)
  have htime : (ofLex a).1 = (ofLex b).1 := timeText_inj (ha.2.symm.trans hb.2)
  exact ofLex.injective (Prod.ext htime hid)

theorem entry_eq_of_id {t : MessageTables} {a b : Time ×ₗ UUID} (ha : a ∈ t.entries roomID)
    (hb : b ∈ t.entries roomID) (hid : (ofLex a).2 = (ofLex b).2) : a = b :=
  entry_eq_of_snd t ((listing_perm t roomID).mem_iff.mpr ha)
    ((listing_perm t roomID).mem_iff.mpr hb) hid

/-- What the client holds is stored. -/
theorem Whole.holds_mem (h : Whole w roomID s) (he : s.sync.Holds w e) :
    e ∈ s.sync.tables.entries roomID := by
  obtain ⟨x, hx, hshows⟩ := he
  obtain ⟨e', he', hshows'⟩ := h.cached x hx
  exact shows_inj hshows' hshows ▸ he'

/-- What the confirmed messages of `query` are: those of the state, and `batch`. -/
structure Merged (w : Wire) (roomID : UUID) (s : RoomSync) (query : RoomQuery)
    (batch : List ChatMessage) : Prop where
  plain : ∀ x ∈ (pagesOf query.data).flatten, x.status = none
  cached : ∀ x ∈ RoomSync.confirmed { s with query }, ∃ e ∈ s.tables.entries roomID, w.Shows x e
  holds : ∀ e, RoomSync.Holds w { s with query } e ↔ s.Holds w e ∨ ∃ x ∈ batch, w.Shows x e

/-- A merge that keeps what is held and adds `batch`. -/
theorem Whole.merged (h : Whole w roomID s) {query : RoomQuery} {batch : List ChatMessage}
    (hbatch : ∀ x ∈ batch, x.status = none ∧ ∃ e ∈ s.sync.tables.entries roomID, w.Shows x e)
    (hmem : ∀ x ∈ (pagesOf query.data).flatten, x ∈ (pagesOf s.sync.query.data).flatten ∨ x ∈ batch)
    (hkeep : ∀ x ∈ (pagesOf s.sync.query.data).flatten, x ∈ (pagesOf query.data).flatten)
    (hheld : ∀ x ∈ batch, ∃ z ∈ (pagesOf query.data).flatten, z.id = x.id) :
    Merged w roomID s.sync query batch := by
  have hplain : ∀ x ∈ (pagesOf query.data).flatten, x.status = none := by
    intro x hx
    rcases hmem x hx with hx | hx
    · exact h.plain x hx
    · exact (hbatch x hx).1
  have hcached : ∀ x ∈ (pagesOf query.data).flatten,
      ∃ e ∈ s.sync.tables.entries roomID, w.Shows x e := by
    intro x hx
    rcases hmem x hx with hold | hx
    · exact h.cached x (mem_confirmed.mpr ⟨hold, h.plain x hold⟩)
    · exact (hbatch x hx).2
  refine ⟨hplain, fun x hx => hcached x (mem_confirmed.mp hx).1, fun e => ⟨?_, ?_⟩⟩
  · rintro ⟨x, hx, hshows⟩
    obtain ⟨hx, hstatus⟩ := mem_confirmed.mp hx
    rcases hmem x hx with hx | hx
    · exact .inl ⟨x, mem_confirmed.mpr ⟨hx, hstatus⟩, hshows⟩
    · exact .inr ⟨x, hx, hshows⟩
  · rintro (⟨x, hx, hshows⟩ | ⟨x, hx, hshows⟩)
    · obtain ⟨hx, hstatus⟩ := mem_confirmed.mp hx
      exact ⟨x, mem_confirmed.mpr ⟨hkeep x hx, hstatus⟩, hshows⟩
    · -- the copy that is held may be another one
      obtain ⟨z, hz, hid⟩ := hheld x hx
      obtain ⟨e', he', hshows'⟩ := hcached z hz
      obtain ⟨-, e'', he'', hshows''⟩ := hbatch x hx
      obtain rfl : e'' = e := shows_inj hshows'' hshows
      have heq : e' = e'' := by
        refine entry_eq_of_id he' he'' (w.uuid_inj ?_)
        rw [← hshows'.1, hid, hshows.1]
      exact ⟨z, mem_confirmed.mpr ⟨hz, hplain z hz⟩, heq ▸ hshows'⟩

/-- A patch of bubbles, of which there are none. -/
theorem Whole.patch (h : Whole w roomID s) {patch : ChatMessage → ChatMessage}
    (hconf : ∀ x : ChatMessage, x.status = none → patch x = x) :
    Whole w roomID ⟨{ s.sync with
      query := { s.sync.query with data := patchMessages patch s.sync.query.data } }, s.call⟩ := by
  have hflat : (pagesOf (patchMessages patch s.sync.query.data)).flatten =
      (pagesOf s.sync.query.data).flatten := by
    rw [flatten_patchMessages]
    conv_rhs => rw [← List.map_id (pagesOf s.sync.query.data).flatten]
    exact List.map_congr_left fun x hx => hconf x (h.plain x hx)
  have hconfirmed : RoomSync.confirmed { s.sync with
      query := { s.sync.query with data := patchMessages patch s.sync.query.data } } =
      s.sync.confirmed := by
    rw [RoomSync.confirmed, hflat]
    rfl
  have hholds : ∀ e, RoomSync.Holds w { s.sync with
      query := { s.sync.query with data := patchMessages patch s.sync.query.data } } e ↔
      s.sync.Holds w e := by
    intro e
    rw [RoomSync.Holds, hconfirmed]
    rfl
  refine h.quiet rfl rfl rfl hholds (fun _ => Iff.rfl) ?_ ?_
  · rw [hflat]
    exact h.plain
  · rw [hconfirmed]
    exact h.cached

theorem Whole.deliverChange (h : Whole w roomID s) {x : LiveEvent} {rest : List LiveEvent}
    {c : Change} (hqueue : s.sync.queue = x :: rest) (hx : LiveEvent.change w x = some c) :
    Whole w roomID ⟨{ s.sync with queue := rest }.updateCache (w.update uid x), s.call⟩ := by
  have hflat : (pagesOf ((w.update uid x).apply s.sync.query).data).flatten =
      (pagesOf s.sync.query.data).flatten.map (c.patch (w.uuidText x.about)) := by
    rw [apply_update hx]
    exact flatten_patchMessages _ _
  have hshows : ∀ y e, w.Shows (c.patch (w.uuidText x.about) y) e ↔ w.Shows y e := by
    intro y e
    rw [Wire.Shows, patch_id, patch_createdAt]
    rfl
  refine h.quiet rfl rfl rfl (fun e => ⟨?_, ?_⟩) (fun e => ?_) ?_ ?_
  · rintro ⟨z, hz, hze⟩
    obtain ⟨hz, hstatus⟩ := mem_confirmed.mp hz
    obtain ⟨y, hy, rfl⟩ := List.mem_map.mp (hflat ▸ hz)
    rw [patch_status] at hstatus
    exact ⟨y, mem_confirmed.mpr ⟨hy, hstatus⟩, (hshows y e).mp hze⟩
  · rintro ⟨y, hy, hye⟩
    obtain ⟨hy, hstatus⟩ := mem_confirmed.mp hy
    refine ⟨c.patch (w.uuidText x.about) y, mem_confirmed.mpr ⟨?_, ?_⟩, (hshows y e).mpr hye⟩
    · show _ ∈ (pagesOf ((w.update uid x).apply s.sync.query).data).flatten
      rw [hflat]
      exact List.mem_map_of_mem hy
    · rw [patch_status, hstatus]
  · have hunder : s.sync.under = [x] ++ (rest ++ s.sync.pending) := by
      rw [RoomSync.under, hqueue]
      rfl
    rw [hunder, announces_append]
    constructor
    · exact .inr
    · rintro (he | he)
      · exact absurd he (not_announces_change hx)
      · exact he
  · intro z hz
    obtain ⟨y, hy, rfl⟩ := List.mem_map.mp (hflat ▸ hz)
    rw [patch_status]
    exact h.plain y hy
  · intro z hz
    obtain ⟨hz, hstatus⟩ := mem_confirmed.mp hz
    obtain ⟨y, hy, rfl⟩ := List.mem_map.mp (hflat ▸ hz)
    obtain ⟨e, he, hye⟩ := h.cached y (mem_confirmed.mpr ⟨hy, h.plain y hy⟩)
    exact ⟨e, he, (hshows y e).mpr hye⟩

theorem Whole.deliverNew (h : Whole w roomID s) {row : Message} {user : ConvoyChat.UserSummary}
    {clientID : String} {rest : List LiveEvent}
    (hqueue : s.sync.queue = .messageNew row user clientID :: rest)
      (hdata : s.sync.query.data ≠ none)
    (hnonce : ∀ x ∈ s.sync.confirmed, x.id ≠ clientID)
    (hjoins : Joins w roomID s (messageEntry row)) :
    Whole w roomID ⟨{ s.sync with queue := rest }.updateCache
      (w.update uid (.messageNew row user clientID)), s.call⟩ := by
  have hunder : s.sync.under = [.messageNew row user clientID] ++ (rest ++ s.sync.pending) := by
    rw [RoomSync.under, hqueue]
    rfl
  have hnew : messageEntry row ∈ s.sync.tables.entries roomID := by
    refine h.announced _ ?_
    rw [hunder, announces_append, announces_new]
    exact .inl rfl
  have hshows : w.Shows (w.wsMessageToChat row user) (messageEntry row) := ⟨rfl, rfl⟩
  obtain ⟨d, hd⟩ := Option.ne_none_iff_exists'.mp hdata
  have hflat :
    (pagesOf ((w.update uid (.messageNew row user clientID)).apply s.sync.query).data).flatten =
      (applyOne (pagesOf s.sync.query.data) ⟨w.wsMessageToChat row user, some clientID⟩
        uid).flatten := by
    simp only [Wire.update, CacheUpdate.apply, hd, Option.map_some]
    exact upsertMessages_flatten _ _ _
  have hmerged : Merged w roomID s.sync
      ((w.update uid (.messageNew row user clientID)).apply s.sync.query)
      [w.wsMessageToChat row user] := by
    refine h.merged ?_ ?_ ?_ ?_
    · intro x hx
      rw [List.mem_singleton.mp hx]
      exact ⟨rfl, _, hnew, hshows⟩
    · intro x hx
      rw [hflat] at hx
      rcases mem_applyOne hx with hx | rfl
      · exact .inl hx
      · exact .inr (List.mem_singleton_self _)
    · intro x hx
      rw [hflat]
      refine confirmed_applyOne hx (h.plain x hx) fun heq => ?_
      exact hnonce x (mem_confirmed.mpr ⟨hx, h.plain x hx⟩) (Option.some.inj heq).symm
    · intro x hx
      rw [hflat, List.mem_singleton.mp hx]
      exact (held_applyOne _ _ uid _).mpr (.inl rfl)
  -- what was announced by this event is held now
  have hholds : ∀ e, RoomSync.Holds w ({ s.sync with queue := rest }.updateCache
      (w.update uid (.messageNew row user clientID))) e ↔ s.sync.Holds w e ∨
        e = messageEntry row := by
    intro e
    refine (hmerged.holds e).trans (or_congr_right ⟨?_, ?_⟩)
    · rintro ⟨x, hx, he⟩
      rw [List.mem_singleton.mp hx] at he
      exact shows_inj he hshows
    · rintro rfl
      exact ⟨_, List.mem_singleton_self _, hshows⟩
  have hsettled : ∀ e, s.sync.Settled w e →
      RoomSync.Settled w ({ s.sync with queue := rest }.updateCache
      (w.update uid (.messageNew row user clientID))) e := by
    rintro e (he | he)
    · exact .inl ((hholds e).mpr (.inl he))
    · rw [hunder, announces_append, announces_new] at he
      rcases he with rfl | he
      · exact .inl ((hholds _).mpr (.inr rfl))
      · exact .inr he
  refine h.transfer rfl rfl (fun _ he => he) (fun e he => (hholds e).mpr (.inl he)) ?_ hmerged.plain
    hmerged.cached ?_ ?_
  · intro e he
    refine h.announced e ?_
    rw [hunder, announces_append]
    exact .inr he
  · intro n f hf e he hreach
    rcases (h.fetched n f hf).reached e he hreach with hread | hset | hahead
    · exact .inl hread
    · exact .inr (.inl (hsettled e hset))
    · exact .inr (.inr hahead)
  · intro hcall e he hspan
    -- between messages that were held before, or between one of these and the new one
    rcases (hspan.mono fun a => (hholds a).mp).of_insert with hspan | hbetween
    · rcases h.covered hcall e he hspan with hset | hbrings
      · exact .inl (hsettled e hset)
      · exact .inr hbrings
    · rcases hjoins hcall e he hbetween with rfl | hheld | hleft | hbrings
      · exact .inl (.inl ((hholds _).mpr (.inr rfl)))
      · exact .inl (.inl ((hholds e).mpr (.inl hheld)))
      · rw [hqueue] at hleft
        exact .inl (.inr hleft)
      · exact .inr hbrings

end ConvoyChat.System
