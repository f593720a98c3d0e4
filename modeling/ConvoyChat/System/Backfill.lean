import ConvoyChat.System.Holes

/-!
# Fetches that leave no hole

The initial query and `resyncRoom`, statement by statement, keep the invariant `Whole`:
a page starts from the cursor and has every message down to its last row; the next one
starts there; the merge that ends a resync joins what was held with the pages, which
reach from the newest message of the room back to the anchor.
-/

namespace ConvoyChat.System

open ConvoyChat.Lib ConvoyChat.Store ConvoyChat.Frontend

variable {w : Wire} {roomID : UUID} {uid : String} {s s' : Watched} {f f' : Fetch}
  {e : Time ×ₗ UUID} {n : ℕ}

theorem setFetch_self (s : RoomSync) (n : ℕ) (g : Option Fetch) :
    (s.setFetch n g).fetches n = g := by
  show Function.update s.fetches n g n = g
  rw [Function.update_self]

theorem setFetch_of_ne (s : RoomSync) {n j : ℕ} (hj : j ≠ n) (g : Option Fetch) :
    (s.setFetch n g).fetches j = s.fetches j := by
  show Function.update s.fetches n g j = s.fetches j
  rw [Function.update_of_ne hj]

theorem FetchOk.setFetch {s : RoomSync} (h : FetchOk w roomID s f) (n : ℕ) (g : Option Fetch) :
    FetchOk w roomID (s.setFetch n g) f :=
  ⟨h.initial, h.shown, h.stored, h.cursor, h.anchor, h.below, h.topped, h.reached⟩

/-- Fetch `n` goes on. -/
theorem Whole.setFetch (h : Whole w roomID s) (hf : s.sync.fetches n = some f)
    (hok : FetchOk w roomID s.sync f') (hseen : f'.lastSeen = f.lastSeen)
    (hread : ∀ e, f.Holds w e → f'.Holds w e)
    (hahead : ∀ e ∈ s.sync.tables.entries roomID, f.Ahead w (entryTime e) →
      f'.Holds w e ∨ s.sync.Settled w e ∨ f'.Ahead w (entryTime e)) :
    Whole w roomID ⟨s.sync.setFetch n (some f'), s.call⟩ where
  announced := h.announced
  plain := h.plain
  cached := h.cached
  fetched j g hg := by
    by_cases hj : j = n
    · subst hj
      rw [setFetch_self] at hg
      cases hg
      exact hok.setFetch j _
    · rw [setFetch_of_ne _ hj] at hg
      exact (h.fetched j g hg).setFetch n _
  running j hcall := by
    obtain ⟨g, hg, hresync⟩ := h.running j hcall
    by_cases hj : j = n
    · subst hj
      rw [hf] at hg
      cases hg
      exact ⟨f', setFetch_self _ _ _, by rw [hseen]; exact hresync⟩
    · exact ⟨g, by rw [setFetch_of_ne _ hj, hg], hresync⟩
  covered hcall e he hspan := by
    rcases h.covered hcall e he hspan with hset | ⟨j, g, hj, hg, hbrings⟩
    · exact .inl hset
    · by_cases hjn : j = n
      · subst hjn
        rw [hf] at hg
        cases hg
        rcases hbrings with hheld | ⟨hnext, hsince⟩
        · exact .inr ⟨j, f', hj, setFetch_self _ _ _, .inl (hread e hheld)⟩
        · rcases hahead e he hnext with hheld | hset | hnext
          · exact .inr ⟨j, f', hj, setFetch_self _ _ _, .inl hheld⟩
          · exact .inl hset
          · refine .inr ⟨j, f', hj, setFetch_self _ _ _, .inr ⟨hnext, ?_⟩⟩
            rw [Fetch.Since, hseen]
            exact hsince
      · exact .inr ⟨j, g, hj, by rw [setFetch_of_ne _ hjn, hg], hbrings⟩

/-- The rows of a page under way. -/
def FetchStage.rows : FetchStage → List HistoryMessage
  | .asked => []
  | .listed rows => rows
  | .readBy rows => rows
  | .answered rows => rows

theorem shows_message {row : HistoryMessage} : w.Shows (w.message row) e ↔ row.entry = e := by
  have hself : w.Shows (w.message row) row.entry := ⟨rfl, rfl⟩
  constructor
  · exact fun h => shows_inj hself h
  · rintro rfl
    exact hself

theorem mem_copies {stage : FetchStage} {c : ℕ × ChatMessage} (hc : c ∈ stage.copies w) :
    ∃ row ∈ stage.rows, w.message row = c.2 := by
  cases stage with
  | asked => cases hc
  | _ =>
    obtain ⟨row, hrow, rfl⟩ := List.mem_map.mp hc
    exact ⟨row, hrow, rfl⟩

theorem copies_of_rows {stage : FetchStage} {row : HistoryMessage} (hrow : row ∈ stage.rows) :
    ∃ c ∈ stage.copies w, c.2 = w.message row := by
  cases stage with
  | asked => cases hrow
  | _ => exact ⟨_, List.mem_map_of_mem hrow, rfl⟩

/-- What a fetch has read, in the pages before and in this one. -/
theorem holds_iff : f.Holds w e ↔
    (∃ x ∈ f.collected, w.Shows x e) ∨ ∃ row ∈ f.stage.rows, row.entry = e := by
  constructor
  · rintro ⟨c, hc, hshows⟩
    rcases List.mem_append.mp hc with hc | hc
    · obtain ⟨x, hx, rfl⟩ := List.mem_map.mp hc
      exact .inl ⟨x, hx, hshows⟩
    · obtain ⟨row, hrow, heq⟩ := mem_copies hc
      rw [← heq] at hshows
      exact .inr ⟨row, hrow, shows_message.mp hshows⟩
  · rintro (⟨x, hx, hshows⟩ | ⟨row, hrow, hentry⟩)
    · exact ⟨(3, x), List.mem_append_left _ (List.mem_map_of_mem hx), hshows⟩
    · obtain ⟨c, hc, heq⟩ := copies_of_rows hrow
      refine ⟨c, List.mem_append_right _ hc, ?_⟩
      rw [heq]
      exact shows_message.mpr hentry

/-- The messages of a fetch, as far as the rows of its page are concerned. -/
theorem shown_copies (hcollected : ∀ x ∈ f.collected, x.status = none ∧ ∃ e, w.Shows x e) :
    ∀ c ∈ f.copies w, c.2.status = none ∧ ∃ e, w.Shows c.2 e := by
  intro c hc
  rcases List.mem_append.mp hc with hc | hc
  · obtain ⟨x, hx, rfl⟩ := List.mem_map.mp hc
    exact hcollected x hx
  · obtain ⟨row, -, heq⟩ := mem_copies hc
    rw [← heq]
    exact ⟨rfl, row.entry, shows_message.mpr rfl⟩

theorem FetchOk.collected {s : RoomSync} (h : FetchOk w roomID s f) :
    ∀ x ∈ f.collected, x.status = none ∧ ∃ e, w.Shows x e :=
  fun x hx => h.shown (3, x) (List.mem_append_left _ (List.mem_map_of_mem hx))

/-- A step of a fetch that reads no message and leaves the same ones to be read. -/
theorem FetchOk.same {s : RoomSync} (h : FetchOk w roomID s f)
    (hinitial : f'.lastSeen = none → f'.collected = [])
    (hcollected : ∀ x ∈ f'.collected, x.status = none ∧ ∃ e, w.Shows x e)
    (hholds : ∀ e, f'.Holds w e ↔ f.Holds w e) (hahead : ∀ t, f'.Ahead w t ↔ f.Ahead w t)
    (hcursor : ∀ c, f'.cursor = some c → ∃ e, f.Holds w e ∧ c = w.timeText (entryTime e))
    (hseen : f'.lastSeen = f.lastSeen) : FetchOk w roomID s f' where
  initial := hinitial
  shown := shown_copies hcollected
  stored e he := h.stored e ((hholds e).mp he)
  cursor c hc := by
    obtain ⟨e, he, hc⟩ := hcursor c hc
    exact ⟨e, (hholds e).mpr he, hc⟩
  anchor c hc := h.anchor c (by rw [← hseen, hc])
  below t ht e he := h.below t ((hahead t).mp ht) e ((hholds e).mp he)
  topped c hc a ha := by
    obtain ⟨b, hb, hle⟩ := h.topped c (by rw [← hseen, hc]) a ((hholds a).mp ha)
    exact ⟨b, (hholds b).mpr hb, hle⟩
  reached e he hreach := by
    have hreach' : f.Reaches w e := by
      rcases hreach with hspan | ⟨hsince, b, hb, hle⟩
      · exact .inl (hspan.mono fun a => (hholds a).mp)
      · rw [Fetch.Since, hseen] at hsince
        exact .inr ⟨hsince, b, (hholds b).mp hb, hle⟩
    rcases h.reached e he hreach' with hread | hset | hnext
    · exact .inl ((hholds e).mpr hread)
    · exact .inr (.inl hset)
    · exact .inr (.inr ((hahead _).mpr hnext))

theorem holds_listed (hstage : f.stage = .asked) (page : List HistoryMessage) (e : Time ×ₗ UUID) :
    Fetch.Holds w { f with stage := .listed page } e ↔
      f.Holds w e ∨ ∃ row ∈ page, row.entry = e := by
  rw [holds_iff, holds_iff, hstage]
  constructor
  · rintro (hx | hrow)
    · exact .inl (.inl hx)
    · exact .inr hrow
  · rintro ((hx | ⟨row, hrow, -⟩) | hrow)
    · exact .inl hx
    · cases hrow
    · exact .inr hrow

theorem ahead_asked (hstage : f.stage = .asked) (t : Time) :
    f.Ahead w t ↔ isBefore (f.cursor.bind w.parseTime) t = true := by
  rw [Fetch.Ahead, hstage]

theorem ahead_listPage {s : RoomSync} (hstage : f.stage = .asked) {row : HistoryMessage}
    (hrow : row ∈ s.listPage w roomID f) : f.Ahead w row.createdAt :=
  (ahead_asked hstage _).mpr (entry_mem_page hrow).2

/-- What is before the cursor is on the page, or below it, or tied with its last row. -/
theorem listPage_covers (hf : s.sync.fetches n = some f) (hstage : f.stage = .asked)
    (hapart : PageApart w roomID s n) {e : Time ×ₗ UUID}
    (he : e ∈ s.sync.tables.entries roomID) (hahead : f.Ahead w (entryTime e)) :
    (∃ row ∈ s.sync.listPage w roomID f, row.entry = e) ∨ s.sync.Settled w e ∨
      BelowPage (s.sync.listPage w roomID f) (entryTime e) := by
  have hsize : 0 < PAGE_SIZE := by decide
  rcases mem_page_or hsize he ((ahead_asked hstage _).mp hahead) with
    hrow | ⟨hfull, oldest, hlast, hle⟩
  · exact .inl hrow
  · rcases lt_or_eq_of_le hle with hlt | heq
    · exact .inr (.inr ⟨hfull, oldest, hlast, hlt⟩)
    · rcases hapart f oldest hf hfull hlast e he heq with hrow | hset
      · exact .inl hrow
      · exact .inr (.inl hset)

/-- A message that is not before the cursor lies between the ones that were read before
    the page, if it does with the page. -/
theorem FetchOk.reaches_of_listed {s : RoomSync} (h : FetchOk w roomID s f)
    (hstage : f.stage = .asked)
    {page : List HistoryMessage} (hpage : ∀ row ∈ page, f.Ahead w row.createdAt) {e : Time ×ₗ UUID}
    (hahead : ¬ f.Ahead w (entryTime e))
    (hreach : Fetch.Reaches w { f with stage := .listed page } e) : f.Reaches w e := by
  rw [ahead_asked hstage] at hahead
  cases hcursor : f.cursor with
  | none =>
    rw [hcursor] at hahead
    exact absurd rfl hahead
  | some text =>
    obtain ⟨last, hlast, rfl⟩ := h.cursor text hcursor
    have hbefore : ∀ t, isBefore (f.cursor.bind w.parseTime) t = true ↔ t < entryTime last := by
      intro t
      rw [hcursor, Option.bind_some, w.parse_time]
      exact decide_eq_true_iff
    have hle : entryTime last ≤ entryTime e := by
      rw [hbefore] at hahead
      exact not_lt.mp hahead
    have hupper : ∀ b, Fetch.Holds w { f with stage := .listed page } b →
        entryTime e ≤ entryTime b → f.Holds w b := by
      intro b hb heb
      rcases (holds_listed hstage page b).mp hb with hb | ⟨row, hrow, rfl⟩
      · exact hb
      · have hlt : entryTime row.entry < entryTime last :=
          (hbefore _).mp ((ahead_asked hstage _).mp (hpage row hrow))
        exact absurd (hle.trans heb) (not_le.mpr hlt)
    rcases hreach with ⟨-, b, hb, heb⟩ | ⟨hsince, b, hb, heb⟩
    · exact .inl ⟨⟨last, hlast, hle⟩, b, hupper b hb heb, heb⟩
    · exact .inr ⟨hsince, b, hupper b hb heb, heb⟩

/-- The page of the first statement. Rows that it leaves out are below it, unless they
    are tied with its last one. -/
theorem FetchOk.list (h : FetchOk w roomID s.sync f) (hf : s.sync.fetches n = some f)
    (hstage : f.stage = .asked) (hapart : PageApart w roomID s n)
    (hcached : ∀ e, s.sync.Holds w e → e ∈ s.sync.tables.entries roomID) :
    FetchOk w roomID s.sync { f with stage := .listed (s.sync.listPage w roomID f) } ∧
      (∀ e, f.Holds w e →
        Fetch.Holds w { f with stage := .listed (s.sync.listPage w roomID f) } e) ∧
      ∀ e ∈ s.sync.tables.entries roomID, f.Ahead w (entryTime e) →
        Fetch.Holds w { f with stage := .listed (s.sync.listPage w roomID f) } e ∨
          s.sync.Settled w e ∨
          Fetch.Ahead w { f with stage := .listed (s.sync.listPage w roomID f) } (entryTime e) := by
  set page := s.sync.listPage w roomID f with hpage
  have hholds : ∀ e, Fetch.Holds w { f with stage := .listed page } e ↔
      f.Holds w e ∨ ∃ row ∈ page, row.entry = e := holds_listed hstage page
  have hrows : ∀ row ∈ page, f.Ahead w row.createdAt := fun row hrow => ahead_listPage hstage hrow
  have hnext : ∀ e ∈ s.sync.tables.entries roomID, f.Ahead w (entryTime e) →
      Fetch.Holds w { f with stage := .listed page } e ∨ s.sync.Settled w e ∨
        BelowPage page (entryTime e) := by
    intro e he hahead
    exact (listPage_covers hf hstage hapart he hahead).imp_left fun hrow =>
      (hholds e).mpr (.inr hrow)
  refine ⟨?_, fun e he => (hholds e).mpr (.inl he), hnext⟩
  refine ⟨h.initial, shown_copies h.collected, ?_, ?_, h.anchor, ?_, ?_, ?_⟩
  · intro e he
    rcases (hholds e).mp he with he | ⟨row, hrow, rfl⟩
    · exact h.stored e he
    · exact (entry_mem_page hrow).1
  · intro c hc
    obtain ⟨e, he, hc⟩ := h.cursor c hc
    exact ⟨e, (hholds e).mpr (.inl he), hc⟩
  · rintro t ⟨-, oldest, hlast, hlt⟩ e he
    rcases (hholds e).mp he with he | ⟨row, hrow, rfl⟩
    · exact hlt.trans (h.below _ (hrows oldest (List.mem_of_getLast? hlast)) e he)
    · exact lt_of_lt_of_le hlt (oldest_le hlast hrow)
  · intro c hc a ha
    rcases (hholds a).mp ha with ha | -
    · obtain ⟨b, hb, hle⟩ := h.topped c hc a ha
      exact ⟨b, (hholds b).mpr (.inl hb), hle⟩
    · cases hcursor : f.cursor with
      | some text =>
        obtain ⟨e, he, -⟩ := h.cursor text hcursor
        obtain ⟨b, hb, hle⟩ := h.topped c hc e he
        exact ⟨b, (hholds b).mpr (.inl hb), hle⟩
      | none =>
        -- the first page has the anchor, or only newer messages
        obtain ⟨anchor, hanchor, htime⟩ := h.anchor _ hc
        rw [timeText_inj htime]
        have hbefore : isBefore (f.cursor.bind w.parseTime) (entryTime anchor) = true := by
          rw [hcursor]
          rfl
        have hsize : 0 < PAGE_SIZE := by decide
        rcases mem_page_or hsize (hcached anchor hanchor) hbefore with hrow | ⟨-,
          oldest, hlast, hle⟩
        · exact ⟨anchor, (hholds anchor).mpr (.inr hrow), le_rfl⟩
        · exact ⟨oldest.entry, (hholds _).mpr (.inr ⟨oldest, List.mem_of_getLast? hlast, rfl⟩), hle⟩
  · intro e he hreach
    by_cases hahead : f.Ahead w (entryTime e)
    · exact hnext e he hahead
    · rcases h.reached e he (h.reaches_of_listed hstage hrows hahead hreach) with
        hread | hset | hnext
      · exact .inl ((hholds e).mpr (.inl hread))
      · exact .inr (.inl hset)
      · exact absurd hnext hahead

/-- A page is full, and below it lies the same, whatever was filled into its rows. -/
theorem belowPage_congr {rows rows' : List HistoryMessage}
    (h : rows'.map (·.entry) = rows.map (·.entry)) (t : Time) : BelowPage rows' t ↔
    BelowPage rows t := by
  have hentries : ∀ l : List HistoryMessage, BelowPage l t ↔
      PAGE_SIZE ≤ (l.map (·.entry)).length ∧
        ∃ e, (l.map (·.entry)).getLast? = some e ∧ t < entryTime e := by
    intro l
    rw [BelowPage, List.length_map, List.getLast?_map]
    refine and_congr_right fun _ => ⟨?_, ?_⟩
    · rintro ⟨oldest, hlast, hlt⟩
      exact ⟨oldest.entry, by rw [hlast]; rfl, hlt⟩
    · rintro ⟨e, hlast, hlt⟩
      obtain ⟨oldest, holdest, rfl⟩ := Option.map_eq_some_iff.mp hlast
      exact ⟨oldest, holdest, hlt⟩
  rw [hentries, hentries, h]

theorem mem_rows_congr {rows rows' : List HistoryMessage}
    (h : rows'.map (·.entry) = rows.map (·.entry)) :
    (∃ row ∈ rows', row.entry = e) ↔ ∃ row ∈ rows, row.entry = e := by
  rw [← List.mem_map, ← List.mem_map, h]

/-- A statement that fills in the rows of the page. -/
theorem Whole.fill (h : Whole w roomID s) (hf : s.sync.fetches n = some f) {stage : FetchStage}
    (hrows : stage.rows.map (·.entry) = f.stage.rows.map (·.entry))
    (hahead : ∀ t, Fetch.Ahead w { f with stage } t ↔ f.Ahead w t) :
    Whole w roomID ⟨s.sync.setFetch n (some { f with stage }), s.call⟩ := by
  have hok := h.fetched n f hf
  have hholds : ∀ e, Fetch.Holds w { f with stage } e ↔ f.Holds w e := by
    intro e
    rw [holds_iff, holds_iff]
    exact or_congr_right (mem_rows_congr hrows)
  refine h.setFetch hf (hok.same hok.initial hok.collected hholds hahead hok.cursor rfl) rfl
    (fun e he => (hholds e).mpr he) fun e _ hnext => .inr (.inr ((hahead _).mpr hnext))

/-- The next page is asked for. -/
theorem Whole.more (h : Whole w roomID s) (hf : s.sync.fetches n = some f)
    {rows : List HistoryMessage}
    (hstage : f.stage = .answered rows) {lastSeen : String} (hseen : f.lastSeen = some lastSeen)
    {oldest : HistoryMessage} (hlast : rows.getLast? = some oldest)
      (hfull : PAGE_SIZE ≤ rows.length)
    (page : ℕ) :
    Whole w roomID ⟨s.sync.setFetch n (some ⟨some lastSeen, f.collected ++ rows.map w.message,
      some (w.message oldest).createdAt, page, .asked⟩), s.call⟩ := by
  have hok := h.fetched n f hf
  have hholds : ∀ e, Fetch.Holds w ⟨some lastSeen, f.collected ++ rows.map w.message,
      some (w.message oldest).createdAt, page, .asked⟩ e ↔ f.Holds w e := by
    intro e
    rw [holds_iff, holds_iff, hstage]
    constructor
    · rintro (⟨x, hx, hshows⟩ | ⟨row, hrow, -⟩)
      · rcases List.mem_append.mp hx with hx | hx
        · exact .inl ⟨x, hx, hshows⟩
        · obtain ⟨row, hrow, rfl⟩ := List.mem_map.mp hx
          exact .inr ⟨row, hrow, shows_message.mp hshows⟩
      · cases hrow
    · rintro (⟨x, hx, hshows⟩ | ⟨row, hrow, hentry⟩)
      · exact .inl ⟨x, List.mem_append_left _ hx, hshows⟩
      · exact .inl ⟨w.message row, List.mem_append_right _ (List.mem_map_of_mem hrow),
          shows_message.mpr hentry⟩
  have hahead : ∀ t, Fetch.Ahead w ⟨some lastSeen, f.collected ++ rows.map w.message,
      some (w.message oldest).createdAt, page, .asked⟩ t ↔ f.Ahead w t := by
    intro t
    have hasked : Fetch.Ahead w ⟨some lastSeen, f.collected ++ rows.map w.message,
        some (w.message oldest).createdAt, page, .asked⟩ t ↔ t < oldest.createdAt := by
      show isBefore (w.parseTime (w.timeText oldest.createdAt)) t = true ↔ _
      rw [w.parse_time]
      exact decide_eq_true_iff
    rw [hasked, Fetch.Ahead, hstage]
    constructor
    · exact fun hlt => ⟨hfull, oldest, hlast, hlt⟩
    · rintro ⟨-, oldest', hlast', hlt⟩
      rw [hlast] at hlast'
      cases hlast'
      exact hlt
  refine h.setFetch hf (hok.same nofun ?_ hholds hahead ?_ hseen.symm) hseen.symm
    (fun e he => (hholds e).mpr he) fun e _ hnext => .inr (.inr ((hahead _).mpr hnext))
  · intro x hx
    rcases List.mem_append.mp hx with hx | hx
    · exact hok.collected x hx
    · obtain ⟨row, -, rfl⟩ := List.mem_map.mp hx
      exact ⟨rfl, row.entry, shows_message.mpr rfl⟩
  · intro c hc
    cases hc
    refine ⟨oldest.entry, holds_iff.mpr (.inr ⟨oldest, ?_, rfl⟩), rfl⟩
    rw [hstage]
    exact List.mem_of_getLast? hlast

/-- A fetch that starts. -/
theorem FetchOk.asked {s : RoomSync} {lastSeen : Option String}
    (hanchor : ∀ c, lastSeen = some c → ∃ e, s.Holds w e ∧ c = w.timeText (entryTime e)) :
    FetchOk w roomID s ⟨lastSeen, [], none, 0, .asked⟩ := by
  have hnone : ∀ e, ¬ Fetch.Holds w ⟨lastSeen, [], none, 0, .asked⟩ e := by
    rintro e ⟨c, hc, -⟩
    cases hc
  refine ⟨fun _ => rfl, nofun, fun e he => absurd he (hnone e), nofun, hanchor,
    fun t _ e he => absurd he (hnone e), fun c _ a ha => absurd ha (hnone a), ?_⟩
  rintro e - (⟨⟨a, ha, -⟩, -⟩ | ⟨-, b, hb, -⟩)
  · exact absurd ha (hnone a)
  · exact absurd hb (hnone b)

theorem FetchOk.cache {s : RoomSync} (h : FetchOk w roomID s f) {query : RoomQuery}
    (hholds : ∀ e, s.Holds w e → RoomSync.Holds w { s with query } e) :
    FetchOk w roomID { s with query } f := by
  refine ⟨h.initial, h.shown, h.stored, h.cursor, fun c hc => ?_, h.below, h.topped,
    fun e he hreach => ?_⟩
  · obtain ⟨e, he, hc⟩ := h.anchor c hc
    exact ⟨e, hholds e he, hc⟩
  · rcases h.reached e he hreach with hread | (hheld | hunder) | hahead
    · exact .inl hread
    · exact .inr (.inl (.inl (hholds e hheld)))
    · exact .inr (.inl (.inr hunder))
    · exact .inr (.inr hahead)

/-- A fetch ends without a merge: a request fails, or the initial query is not needed
    any more. -/
theorem Whole.drop (h : Whole w roomID s) {call : ResyncCall}
    (hcall : call = .failed ∨ s.call ≠ .running n ∧ call = s.call) :
    Whole w roomID ⟨s.sync.setFetch n none, call⟩ := by
  have hother : ∀ j, call = .running j → j ≠ n ∧ s.call = .running j := by
    rintro j rfl
    rcases hcall with hcall | ⟨hne, hcall⟩
    · cases hcall
    · refine ⟨?_, hcall.symm⟩
      rintro rfl
      exact hne hcall.symm
  refine ⟨h.announced, h.plain, h.cached, fun j g hg => ?_, fun j hj => ?_,
    fun hne e he hspan => ?_⟩
  · by_cases hj : j = n
    · rw [hj, setFetch_self] at hg
      cases hg
    · rw [setFetch_of_ne _ hj] at hg
      exact (h.fetched j g hg).setFetch n none
  · obtain ⟨hjn, hj⟩ := hother j hj
    obtain ⟨g, hg, hresync⟩ := h.running j hj
    exact ⟨g, by rw [setFetch_of_ne _ hjn, hg], hresync⟩
  · rcases hcall with rfl | ⟨hrun, rfl⟩
    · exact absurd rfl hne
    · rcases h.covered hne e he hspan with hset | ⟨j, g, hj, hg, hbrings⟩
      · exact .inl hset
      · have hjn := (hother j hj).1
        exact .inr ⟨j, g, hj, by rw [setFetch_of_ne _ hjn, hg], hbrings⟩

/-- A fetch ends, and what it has read is merged. The messages that are held from then
    on span what was spanned before, and what the pages of the fetch reach across. -/
theorem Whole.finish (h : Whole w roomID s) (hf : s.sync.fetches n = some f) {query : RoomQuery}
    {batch : List ChatMessage} (hmerged : Merged w roomID s.sync query batch)
    (hbatch : ∀ e, (∃ x ∈ batch, w.Shows x e) ↔ f.Holds w e)
    (hspan : ∀ e, Spanned entryTime (fun a => s.sync.Holds w a ∨ f.Holds w a) e →
      Spanned entryTime (s.sync.Holds w) e ∨ f.Reaches w e)
    (hend : ∀ e ∈ s.sync.tables.entries roomID, f.Ahead w (entryTime e) → f.Since w (entryTime e) →
      s.sync.Settled w e) {call : ResyncCall}
    (hcall : s.call = .running n ∧ call = .done ∨ s.call ≠ .running n ∧ call = s.call) :
    Whole w roomID ⟨RoomSync.setFetch { s.sync with query } n none, call⟩ := by
  have hholds : ∀ e, RoomSync.Holds w { s.sync with query } e ↔ s.sync.Holds w e ∨ f.Holds w e :=
    fun e => (hmerged.holds e).trans (or_congr_right (hbatch e))
  have hsettled : ∀ e, s.sync.Settled w e → RoomSync.Settled w { s.sync with query } e := by
    rintro e (he | he)
    · exact .inl ((hholds e).mpr (.inl he))
    · exact .inr he
  have hother : ∀ j, call = .running j → j ≠ n ∧ s.call = .running j := by
    rintro j rfl
    rcases hcall with ⟨-, hcall⟩ | ⟨hne, hcall⟩
    · cases hcall
    · refine ⟨?_, hcall.symm⟩
      rintro rfl
      exact hne hcall.symm
  refine ⟨h.announced, hmerged.plain, hmerged.cached, fun j g hg => ?_, fun j hj => ?_,
    fun hne e he hspan' => ?_⟩
  · by_cases hj : j = n
    · rw [hj, setFetch_self] at hg
      cases hg
    · rw [setFetch_of_ne _ hj] at hg
      exact ((h.fetched j g hg).cache fun e he => (hholds e).mpr (.inl he)).setFetch n none
  · obtain ⟨hjn, hj⟩ := hother j hj
    obtain ⟨g, hg, hresync⟩ := h.running j hj
    exact ⟨g, by rw [setFetch_of_ne _ hjn, ← hg], hresync⟩
  · have hne' : s.call ≠ .failed := by
      rcases hcall with ⟨hcall, -⟩ | ⟨-, rfl⟩
      · rw [hcall]
        nofun
      · exact hne
    rcases hspan e (hspan'.mono fun a => (hholds a).mp) with hspan | hreach
    · rcases h.covered hne' e he hspan with hset | ⟨j, g, hj, hg, hbrings⟩
      · exact .inl (hsettled e hset)
      · by_cases hjn : j = n
        · -- it was this fetch that was to bring the message
          subst hjn
          rw [hf] at hg
          cases hg
          rcases hbrings with hread | ⟨hahead, hsince⟩
          · exact .inl (.inl ((hholds e).mpr (.inr hread)))
          · exact .inl (hsettled e (hend e he hahead hsince))
        · have hcall' : call = s.call := by
            rcases hcall with ⟨hn, -⟩ | ⟨-, hcall⟩
            · rw [hn] at hj
              cases hj
              exact absurd rfl hjn
            · exact hcall
          exact .inr ⟨j, g, hcall'.trans hj, by rw [setFetch_of_ne _ hjn, ← hg], hbrings⟩
    · rcases (h.fetched n f hf).reached e he hreach with hread | hset | hahead
      · exact .inl (.inl ((hholds e).mpr (.inr hread)))
      · exact .inl (hsettled e hset)
      · rcases hreach with ⟨⟨a, ha, hle⟩, -⟩ | ⟨hsince, -⟩
        · exact absurd ((h.fetched n f hf).below _ hahead a ha) (not_lt.mpr hle)
        · exact .inl (hsettled e (hend e he hahead hsince))

/-- The merge that ends a resync. -/
theorem Whole.merge (h : Whole w roomID s) (hf : s.sync.fetches n = some f)
    {rows : List HistoryMessage} (hstage : f.stage = .answered rows) {lastSeen : String}
    (hseen : f.lastSeen = some lastSeen)
    (hend : ∀ e ∈ s.sync.tables.entries roomID, f.Ahead w (entryTime e) → f.Since w (entryTime e) →
      s.sync.Settled w e) {call : ResyncCall}
    (hcall : s.call = .running n ∧ call = .done ∨ s.call ≠ .running n ∧ call = s.call) :
    Whole w roomID ⟨s.sync.merge uid n (f.collected ++ rows.map w.message), call⟩ := by
  have hok := h.fetched n f hf
  set batch := f.collected ++ rows.map w.message with hbatch
  have hread : ∀ e, (∃ x ∈ batch, w.Shows x e) ↔ f.Holds w e := by
    intro e
    rw [holds_iff, hstage]
    constructor
    · rintro ⟨x, hx, hshows⟩
      rcases List.mem_append.mp hx with hx | hx
      · exact .inl ⟨x, hx, hshows⟩
      · obtain ⟨row, hrow, rfl⟩ := List.mem_map.mp hx
        exact .inr ⟨row, hrow, shows_message.mp hshows⟩
    · rintro (⟨x, hx, hshows⟩ | ⟨row, hrow, hentry⟩)
      · exact ⟨x, List.mem_append_left _ hx, hshows⟩
      · exact ⟨w.message row, List.mem_append_right _ (List.mem_map_of_mem hrow),
          shows_message.mpr hentry⟩
  have hrows : ∀ x ∈ batch, x.status = none ∧ ∃ e ∈ s.sync.tables.entries roomID, w.Shows x e := by
    intro x hx
    have hshown : x.status = none ∧ ∃ e, w.Shows x e := by
      rcases List.mem_append.mp hx with hx | hx
      · exact hok.collected x hx
      · obtain ⟨row, -, rfl⟩ := List.mem_map.mp hx
        exact ⟨rfl, row.entry, shows_message.mpr rfl⟩
    obtain ⟨hstatus, e, he⟩ := hshown
    exact ⟨hstatus, e, hok.stored e ((hread e).mp ⟨x, hx, he⟩), he⟩
  have hspan : ∀ e, Spanned entryTime (fun a => s.sync.Holds w a ∨ f.Holds w a) e →
      Spanned entryTime (s.sync.Holds w) e ∨ f.Reaches w e := by
    intro e he
    obtain ⟨anchor, hanchor, rfl⟩ := hok.anchor lastSeen hseen
    rcases spanned_or ⟨anchor, hanchor, rfl⟩ (hok.topped _ hseen) he with he | he | ⟨hlt, hb⟩
    · exact .inl he
    · exact .inr (.inl he)
    · refine .inr (.inr ⟨⟨entryTime anchor, ?_, hlt⟩, hb⟩)
      rw [hseen, Option.bind_some, w.parse_time]
  unfold RoomSync.merge
  split_ifs with hnil
  · have hmerged : Merged w roomID s.sync s.sync.query batch := by
      refine h.merged hrows (fun x hx => .inl hx) (fun x hx => hx) ?_
      rw [hnil]
      nofun
    exact h.finish hf hmerged hread hspan hend hcall
  · have hflat : (pagesOf (some (upsertMessages s.sync.query.data
        (batch.map fun message => ⟨message, none⟩) uid))).flatten =
        (applyAll (pagesOf s.sync.query.data) (batch.map fun message => ⟨message, none⟩)
          uid).flatten :=
      upsertMessages_flatten _ _ _
    have hnonce : ∀ inc ∈ batch.map fun message => (⟨message, none⟩ : IncomingMessage),
        inc.clientId = none ∧ inc.message.status = none := by
      intro inc hinc
      obtain ⟨x, hx, rfl⟩ := List.mem_map.mp hinc
      exact ⟨rfl, (hrows x hx).1⟩
    refine h.finish hf (h.merged hrows ?_ ?_ ?_) hread hspan hend hcall
    · intro x hx
      rw [CacheUpdate.apply, hflat] at hx
      rcases mem_applyAll hx with hx | ⟨inc, hinc, rfl⟩
      · exact .inl hx
      · obtain ⟨y, hy, rfl⟩ := List.mem_map.mp hinc
        exact .inr hy
    · intro x hx
      rw [CacheUpdate.apply, hflat]
      exact confirmed_applyAll (fun inc hinc => (hnonce inc hinc).1) hx (h.plain x hx)
    · intro x hx
      rw [CacheUpdate.apply, hflat]
      exact held_applyAll (fun inc hinc => (hnonce inc hinc).1)
        (fun inc hinc => (hnonce inc hinc).2)
        h.plain (List.mem_map_of_mem hx)

theorem merge_fetches (s : RoomSync) (n : ℕ) (collected : List ChatMessage) :
    (s.merge uid n collected).fetches n = none := by
  unfold RoomSync.merge
  split_ifs
  · exact setFetch_self _ _ _
  · exact setFetch_self _ _ _

/-- The most recent call when fetch `n` has ended with a page. -/
theorem nextCall_receive {call : ResyncCall} {after : RoomSync} (h : after.fetches n = none) :
    call = .running n ∧ Watched.nextCall call after (.receive n) = .done ∨
      call ≠ .running n ∧ Watched.nextCall call after (.receive n) = call := by
  by_cases hcall : call = .running n
  · exact .inl ⟨hcall, by rw [Watched.nextCall, if_pos ⟨hcall, by rw [h]; rfl⟩]⟩
  · exact .inr ⟨hcall, by rw [Watched.nextCall, if_neg fun hand => hcall hand.1]⟩

/-- The loop of `resyncRoom` after a page. -/
theorem Whole.receivePage (h : Whole w roomID s) (hf : s.sync.fetches n = some f)
    {rows : List HistoryMessage} (hstage : f.stage = .answered rows) {lastSeen : String}
    (hseen : f.lastSeen = some lastSeen) (hreach : ReachesAnchor w roomID s n) :
    Whole w roomID ⟨s.sync.receivePage uid n f lastSeen (rows.map w.message),
      Watched.nextCall s.call (s.sync.receivePage uid n f lastSeen (rows.map w.message))
        (.receive n)⟩ := by
  have hbelow : ∀ t, f.Ahead w t ↔ BelowPage rows t := by
    intro t
    rw [Fetch.Ahead, hstage]
  obtain ⟨anchor, -, hanchor⟩ := (h.fetched n f hf).anchor lastSeen hseen
  have hsince : ∀ t, f.Since w t → entryTime anchor < t := by
    rintro t ⟨c, hc, hlt⟩
    rw [hseen, Option.bind_some, hanchor, w.parse_time] at hc
    cases hc
    exact hlt
  unfold RoomSync.receivePage
  cases hlast : rows.getLast? with
  | none =>
    rw [List.getLast?_map, hlast]
    refine h.merge hf hstage hseen (fun e _ hahead _ => ?_) (nextCall_receive (merge_fetches _ _ _))
    obtain ⟨-, oldest, holdest, -⟩ := (hbelow _).mp hahead
    rw [hlast] at holdest
    cases holdest
  | some oldest =>
    rw [List.getLast?_map, hlast]
    dsimp only [Option.map_some]
    split_ifs with hends
    · refine h.merge hf hstage hseen (fun e he hahead hafter => ?_)
        (nextCall_receive (merge_fetches _ _ _))
      obtain ⟨hfull, oldest', holdest, hlt⟩ := (hbelow _).mp hahead
      rw [hlast] at holdest
      cases holdest
      rw [List.length_map] at hends
      have hends : w.timeText oldest.createdAt ≤ lastSeen ∨ f.page + 1 = MAX_RESYNC_PAGES := by
        rcases hends with hshort | hends
        · omega
        · exact hends
      refine hreach f rows lastSeen oldest (entryTime anchor) hf hstage hseen hfull
        hlast hends ?_ e he
        (hsince _ hafter) hlt
      rw [hanchor, w.parse_time]
    · have hfull : PAGE_SIZE ≤ rows.length := by
        rw [List.length_map] at hends
        omega
      have hcall : Watched.nextCall s.call (s.sync.setFetch n (some ⟨some lastSeen,
          f.collected ++ rows.map w.message, some (w.message oldest).createdAt,
            f.page + 1, .asked⟩))
          (.receive n) = s.call := by
        rw [Watched.nextCall, setFetch_self, if_neg]
        rintro ⟨-, hnone⟩
        cases hnone
      rw [hcall]
      exact h.more hf hstage hseen hlast hfull (f.page + 1)

/-- The page of the initial query. -/
theorem Whole.load (h : Whole w roomID s) (hf : s.sync.fetches n = some f)
    {rows : List HistoryMessage} (hstage : f.stage = .answered rows) (hseen : f.lastSeen = none)
    (hdata : s.sync.query.data = none) {call : ResyncCall}
    (hcall : s.call = .running n ∧ call = .done ∨ s.call ≠ .running n ∧ call = s.call) :
    Whole w roomID ⟨(s.sync.updateCache (.fetched ⟨[rows.map w.message], [none]⟩)).setFetch n none,
      call⟩ := by
  have hok := h.fetched n f hf
  have hread : ∀ e, (∃ x ∈ rows.map w.message, w.Shows x e) ↔ f.Holds w e := by
    intro e
    rw [holds_iff, hstage, hok.initial hseen]
    constructor
    · rintro ⟨x, hx, hshows⟩
      obtain ⟨row, hrow, rfl⟩ := List.mem_map.mp hx
      exact .inr ⟨row, hrow, shows_message.mp hshows⟩
    · rintro (⟨x, hx, -⟩ | ⟨row, hrow, hentry⟩)
      · cases hx
      · exact ⟨w.message row, List.mem_map_of_mem hrow, shows_message.mpr hentry⟩
  have hempty : ∀ e, ¬ s.sync.Holds w e := by
    rintro e ⟨x, hx, -⟩
    have hx := (mem_confirmed.mp hx).1
    rw [hdata] at hx
    cases hx
  have hmerged : Merged w roomID s.sync
      ((CacheUpdate.fetched ⟨[rows.map w.message], [none]⟩).apply s.sync.query)
        (rows.map w.message) := by
    refine h.merged ?_ ?_ ?_ ?_
    · intro x hx
      obtain ⟨row, hrow, rfl⟩ := List.mem_map.mp hx
      have hshows : w.Shows (w.message row) row.entry := shows_message.mpr rfl
      exact ⟨rfl, row.entry, hok.stored _ ((hread _).mp ⟨_, hx, hshows⟩), hshows⟩
    · intro x hx
      refine .inr ?_
      simpa [CacheUpdate.apply, pagesOf] using hx
    · intro x hx
      rw [hdata] at hx
      cases hx
    · intro x hx
      refine ⟨x, ?_, rfl⟩
      simpa [CacheUpdate.apply, pagesOf] using hx
  refine h.finish hf hmerged hread ?_ ?_ hcall
  · rintro e ⟨⟨a, ha, hae⟩, b, hb, heb⟩
    refine .inr (.inl ⟨⟨a, ?_, hae⟩, b, ?_, heb⟩)
    · exact ha.resolve_left (hempty a)
    · exact hb.resolve_left (hempty b)
  · rintro e - - ⟨c, hc, -⟩
    rw [hseen] at hc
    cases hc

/-- A fetch starts. -/
theorem Whole.begin (h : Whole w roomID s) (hn : s.sync.fetches n = none) {call : ResyncCall}
    {lastSeen : Option String}
    (hanchor : ∀ c, lastSeen = some c → ∃ e, s.sync.Holds w e ∧ c = w.timeText (entryTime e))
    (hcall : call = .running n ∧ lastSeen.isSome ∨ call = s.call)
    (hcovered : call = .running n → ∀ e ∈ s.sync.tables.entries roomID,
      Spanned entryTime (s.sync.Holds w) e → s.sync.Settled w e ∨
        Fetch.Since w ⟨lastSeen, [], none, 0, .asked⟩ (entryTime e)) :
    Whole w roomID ⟨s.sync.setFetch n (some ⟨lastSeen, [], none, 0, .asked⟩), call⟩ := by
  have hother : ∀ j, s.call = .running j → j ≠ n := by
    rintro j hj rfl
    obtain ⟨f, hf, -⟩ := h.running j hj
    rw [hn] at hf
    cases hf
  refine ⟨h.announced, h.plain, h.cached, fun j g hg => ?_, fun j hj => ?_,
    fun hne e he hspan => ?_⟩
  · by_cases hj : j = n
    · subst hj
      rw [setFetch_self] at hg
      cases hg
      exact (FetchOk.asked hanchor).setFetch j _
    · rw [setFetch_of_ne _ hj] at hg
      exact (h.fetched j g hg).setFetch n _
  · rcases hcall with ⟨rfl, hresync⟩ | rfl
    · cases hj
      exact ⟨_, setFetch_self _ _ _, hresync⟩
    · obtain ⟨g, hg, hresync⟩ := h.running j hj
      exact ⟨g, by rw [setFetch_of_ne _ (hother j hj), hg], hresync⟩
  · rcases hcall with ⟨rfl, -⟩ | rfl
    · rcases hcovered rfl e he hspan with hset | hsince
      · exact .inl hset
      · -- the first page starts from the top
        exact .inr ⟨n, _, rfl, setFetch_self _ _ _, .inr ⟨rfl, hsince⟩⟩
    · rcases h.covered hne e he hspan with hset | ⟨j, g, hj, hg, hbrings⟩
      · exact .inl hset
      · exact .inr ⟨j, g, hj, by rw [setFetch_of_ne _ (hother j hj), hg], hbrings⟩

/-- `resyncRoom` is called. -/
theorem Whole.resync (h : Whole w roomID s) (hn : s.sync.fetches n = none)
    (hanchor : AnchorOk w roomID s) :
    Whole w roomID ⟨s.sync.resyncRoom n,
      Watched.nextCall s.call (s.sync.resyncRoom n) (.resync n)⟩ := by
  have hnewest := newestConfirmedCreatedAt_mem s.sync.query.data
  -- nothing is held when there is no anchor
  have hnothing : (∀ e, ¬ s.sync.Holds w e) → Whole w roomID ⟨s.sync, .done⟩ := by
    intro hempty
    refine ⟨h.announced, h.plain, h.cached, fun j g hg => h.fetched j g hg, nofun, ?_⟩
    rintro - e - ⟨⟨a, ha, -⟩, -⟩
    exact absurd ha (hempty a)
  unfold RoomSync.resyncRoom
  cases hlast : newestConfirmedCreatedAt s.sync.query.data with
  | none =>
    rw [hlast] at hnewest
    show Whole w roomID ⟨s.sync, Watched.nextCall s.call s.sync (.resync n)⟩
    rw [Watched.nextCall, hn]
    refine hnothing ?_
    rintro e ⟨x, hx, -⟩
    obtain ⟨hx, hstatus⟩ := mem_confirmed.mp hx
    exact hnewest x hx hstatus
  | some lastSeen =>
    rw [hlast] at hnewest
    obtain ⟨m, hm, hstatus, rfl⟩ := hnewest
    have hmem := mem_confirmed.mpr ⟨hm, hstatus⟩
    obtain ⟨e, -, hshows⟩ := h.cached m hmem
    dsimp only
    rw [if_neg (by rw [hshows.2]; exact w.time_ne _)]
    have hcall :
      Watched.nextCall s.call (s.sync.setFetch n (some ⟨some m.createdAt, [], none, 0, .asked⟩))
        (.resync n) = .running n := by
      rw [Watched.nextCall, setFetch_self]
      rfl
    rw [hcall]
    refine h.begin hn ?_ (.inl ⟨rfl, rfl⟩) fun _ e' he' hspan => ?_
    · rintro c hc
      cases hc
      exact ⟨e, ⟨m, hmem, hshows⟩, hshows.2⟩
    · have hparse : w.parseTime m.createdAt = some (entryTime e) := by
        rw [hshows.2, w.parse_time]
      rcases le_or_gt (entryTime e') (entryTime e) with hle | hlt
      · exact .inl (hanchor m.createdAt (entryTime e) hlast hparse e' he' hspan hle)
      · exact .inr ⟨entryTime e, hparse, hlt⟩

end ConvoyChat.System
