import ConvoyChat.Frontend.Timestamps
import ConvoyChat.Frontend.Validation
import ConvoyChat.Handlers.ReadEndpoints
import ConvoyChat.Lib.JsonLiterals
import ConvoyChat.Lib.Percent
import ConvoyChat.Lib.Rfc3339

/-!
# Query strings between client and server

What the client puts into a URL and what a handler finds there: the search of `useSearchUsers`
(`frontend/hooks/useRooms.ts` lines 136–149), the pages of `useMessages`
(`frontend/hooks/useMessages.tsx` lines 46–57) and the token of the socket
(`frontend/hooks/useWebSocket.tsx` line 436). The client writes a value with
`encodeURIComponent` and the browser escapes what it does not allow in a query; the server
reads it with `url.ParseQuery`, and a cursor with `time.Parse`.

* `query_values_read`: a search arrives as it was typed but for the blanks around it, the other
  values as they were; nothing is sent for a blank search or a text with a lone surrogate.
* `history_read_over_http`: the walk through the history of a room by URLs is the walk by
  times, whatever the zones of the servers: no page is asked for with a cursor that the server
  rejects or reads as another time.
-/

namespace ConvoyChat.System

open ConvoyChat.Frontend ConvoyChat.Handlers ConvoyChat.Lib ConvoyChat.Lib.JsonString
open ConvoyChat.Lib.Percent ConvoyChat.Lib.Utf16 ConvoyChat.Store

/-! ## The client -/

/-- The characters that `encodeURIComponent` keeps: letters, digits and `-_.!~*'()`. -/
def uriUnreserved (b : UInt8) : Bool :=
  (0x30 ≤ b && b ≤ 0x39) || (0x41 ≤ b && b ≤ 0x5A) || (0x61 ≤ b && b ≤ 0x7A) ||
    [0x2D, 0x5F, 0x2E, 0x21, 0x7E, 0x2A, 0x27, 0x28, 0x29].contains b

/-- A character in UTF-8, escaped; a lone surrogate is a `URIError`. -/
def encodeCodePoint : CodePoint → Option Bytes
  | .char c => some (Percent.escape uriUnreserved (String.utf8EncodeChar c))
  | .lone _ _ => none

/-- `encodeURIComponent`. -/
def encodeURIComponent (units : List UInt16) : Option Bytes :=
  ((codePoints units).mapM encodeCodePoint).map List.flatten

/-- The bytes of a literal in ASCII. -/
def literal (text : String) : Bytes := utf8 text.toList

/-- The query of `useMessages` and of `resyncRoom`, with `PAGE_SIZE`. -/
def messagesQuery (pageParam : Option (List UInt16)) : Option Bytes :=
  match pageParam with
  | none | some [] => some (literal "limit=50")
  | some cursor => do
    return literal "limit=50" ++ (literal "&before=" ++ (← encodeURIComponent cursor))

/-- The bytes that a browser keeps in the query of an `http` or `ws` URL. -/
def urlKeeps (b : UInt8) : Bool :=
  0x21 ≤ b && b ≤ 0x7E && !([0x22, 0x23, 0x27, 0x3C, 0x3E].contains b)

/-- The query that `fetch` or `new WebSocket` sends. -/
def sent (q : Bytes) : Bytes := Percent.escape urlKeeps q

/-! ## The server -/

/-- `r.URL.Query().Get(name)`, if it is a text. -/
def param (raw : Bytes) (name : String) : Option String :=
  readText (get (parseQuery raw) (literal name))

/-- `time.Parse(time.RFC3339Nano, …)`, in the microseconds that a `TIMESTAMPTZ` keeps: the strict
    reader, and the one for layouts in general for what that rejects. -/
def parseTimestamp (general : List Char → Option ℤ) (raw : String) : Option Time :=
  ((parseRFC3339 raw.toList).or (general raw.toList)).map fun nanos => (nanos / 1000).toNat

/-- The request that `ListMessages` serves. -/
def readMessages (roomParam : String) (raw : Bytes) : Option ReadRequest := do
  return .listMessages roomParam (← param raw "limit") (← param raw "before")

/-! ## Values -/

section

variable {units room : List UInt16}

theorem flatten_mapM_encode {cps : List CodePoint} {bytes : List Bytes}
    (h : cps.mapM encodeCodePoint = some bytes) :
    bytes.flatten = Percent.escape uriUnreserved (utf8 (cps.map CodePoint.scalar)) := by
  induction cps generalizing bytes with
  | nil =>
    cases h
    rfl
  | cons cp cps ih =>
    rw [List.mapM_cons] at h
    cases cp with
    | char c =>
      simp only [encodeCodePoint, Option.bind_eq_bind, Option.bind_some] at h
      obtain ⟨tail, htail, hbytes⟩ := Option.bind_eq_some_iff.mp h
      cases hbytes
      rw [List.flatten_cons, ih htail, List.map_cons, scalar_char, ← List.singleton_append,
        utf8_append, escape_append]
      simp [utf8]
    | lone u hu => cases h

/-- A text is written as its characters in UTF-8, escaped. -/
theorem encodeURIComponent_some {bs : Bytes} (h : encodeURIComponent units = some bs) :
    bs = Percent.escape uriUnreserved (utf8 (decode units)) := by
  obtain ⟨bytes, hbytes, rfl⟩ := Option.map_eq_some_iff.mp h
  exact flatten_mapM_encode hbytes

/-- Only a lone surrogate is not written. -/
theorem encodeURIComponent_isSome :
    (encodeURIComponent units).isSome ↔ ∀ u hu, CodePoint.lone u hu ∉ codePoints units := by
  unfold encodeURIComponent
  rw [Option.isSome_map]
  induction codePoints units with
  | nil => simp
  | cons cp cps ih =>
    cases cp with
    | char c =>
      rw [List.mapM_cons]
      simp only [encodeCodePoint, Option.bind_eq_bind, Option.bind_some]
      rw [show (∀ u hu, CodePoint.lone u hu ∉ CodePoint.char c :: cps) ↔
        ∀ u hu, CodePoint.lone u hu ∉ cps by simp, ← ih]
      cases cps.mapM encodeCodePoint <;> simp
    | lone u hu =>
      rw [List.mapM_cons]
      simp only [encodeCodePoint, Option.bind_eq_bind, Option.bind_none, Option.isSome_none,
        Bool.false_eq_true, false_iff, not_forall, not_not]
      exact ⟨u, hu, List.mem_cons_self⟩

/-- Both passes together. -/
def wireKeeps (b : UInt8) : Bool := uriUnreserved b && urlKeeps b

theorem urlKeeps_hexDigit : ∀ d ∈ (List.range 16).map Percent.hexDigit, urlKeeps d = true :=
  List.all_eq_true.mp (by decide)

/-- What is sent for some fields. -/
theorem sent_query {ps : List (Bytes × Bytes)} (hkeys : ∀ p ∈ ps, ∀ b ∈ p.1, urlKeeps b = true) :
    sent (query uriUnreserved ps) = query wireKeeps ps :=
  escape_query (List.all_eq_true.mp (by decide)) urlKeeps_hexDigit hkeys

theorem wireKeeps_delimiters : ∀ b ∈ delimiters, wireKeeps b = false := by
  have hall : delimiters.all (fun b => !wireKeeps b) = true := by decide
  intro b hb
  simpa using List.all_eq_true.mp hall b hb

/-- A name that both passes leave alone. -/
def isFieldName (name : Bytes) : Bool :=
  !name.isEmpty && (delimiters.all fun b => !name.contains b) && name.all urlKeeps

theorem isFieldName_iff {name : Bytes} :
    isFieldName name = true ↔ Plain name ∧ ∀ b ∈ name, urlKeeps b = true := by
  simp [isFieldName, Plain]

/-- The fields are read as they were written. -/
theorem parseQuery_sent (ps : List (Bytes × Bytes)) (hne : ps ≠ [])
    (hkeys : ∀ p ∈ ps, isFieldName p.1 = true) :
    parseQuery (sent (query uriUnreserved ps)) = ps := by
  have hnames := fun p hp => isFieldName_iff.mp (hkeys p hp)
  rw [sent_query fun p hp => (hnames p hp).2]
  exact parseQuery_query wireKeeps_delimiters hne fun p hp => (hnames p hp).1

/-- One field. -/
theorem query_one (key value : Bytes) :
    query uriUnreserved [(key, value)] = key ++ 0x3D :: Percent.escape uriUnreserved value := by
  simp [query, pair]

/-- Two fields. -/
theorem query_two (key value key' value' : Bytes) :
    query uriUnreserved [(key, value), (key', value')] =
      key ++ 0x3D :: Percent.escape uriUnreserved value ++
        (0x26 :: key' ++ 0x3D :: Percent.escape uriUnreserved value') := by
  simp [query, pair]

theorem param_eq {raw : Bytes} {name : String} (cs : List Char)
    (h : get (parseQuery raw) (literal name) = utf8 cs) :
    param raw name = some (String.ofList cs) := by
  rw [param, h, readText_utf8]

/-- A page of the client. -/
theorem messagesQuery_read {pageParam : Option (List UInt16)} {q : Bytes} (roomParam : String)
    (h : messagesQuery pageParam = some q) :
    readMessages roomParam (sent q) = some (.listMessages roomParam "50"
      (String.ofList (decode (pageParam.getD [])))) := by
  have hone : q = literal "limit=50" → pageParam.getD [] = [] →
      readMessages roomParam (sent q) = some (.listMessages roomParam "50"
        (String.ofList (decode (pageParam.getD [])))) := by
    rintro rfl hcursor
    have hwritten : literal "limit=50" =
        query uriUnreserved [(literal "limit", utf8 "50".toList)] := by
      rw [query_one]
      decide
    have hfields := parseQuery_sent [(literal "limit", utf8 "50".toList)] (by simp)
      (by simp; decide)
    rw [hcursor, hwritten, readMessages, param_eq "50".toList (by rw [hfields]; rfl),
      param_eq [] (by rw [hfields]; rfl)]
    rfl
  unfold messagesQuery at h
  split at h
  · cases h
    exact hone rfl rfl
  · cases h
    exact hone rfl rfl
  · rename_i cursor hne
    obtain ⟨cs, hcs, hq⟩ := Option.bind_eq_some_iff.mp h
    cases hq
    have hwritten : literal "limit=50" ++ (literal "&before=" ++ cs) = query uriUnreserved
        [(literal "limit", utf8 "50".toList), (literal "before", utf8 (decode cursor))] := by
      have hlimit : Percent.escape uriUnreserved (utf8 "50".toList) = literal "50" := by decide
      rw [query_two, encodeURIComponent_some hcs, hlimit]
      rfl
    have hfields := parseQuery_sent
      [(literal "limit", utf8 "50".toList), (literal "before", utf8 (decode cursor))]
      (by simp) (by simp; decide)
    rw [hwritten, readMessages, param_eq "50".toList (by rw [hfields]; rfl),
      param_eq (decode cursor) (by rw [hfields]; rfl)]
    rfl

theorem messagesQuery_isSome {pageParam : Option (List UInt16)} :
    (messagesQuery pageParam).isSome ↔ WellFormed (pageParam.getD []) := by
  unfold messagesQuery WellFormed
  rw [← encodeURIComponent_isSome]
  split
  · simp [encodeURIComponent, codePoints]
  · simp [encodeURIComponent, codePoints]
  · rename_i cursor _
    cases hcursor : encodeURIComponent cursor <;> simp [hcursor]

end

/-! ## The history -/

/-- `time.Time.MarshalJSON` at a server whose zone is `zone t` minutes ahead of UTC, without the
    quotes: there is no text outside the years 0 to 9999 or in a zone of a day or more. -/
def timestampText (zone : Time → ℤ) (t : Time) : Option String :=
  let wall : ℤ := (t / 1000000 : ℕ) + zone t * 60
  if 0 ≤ wall ∧ wall < (daysBefore 10000 * 86400 : ℕ) ∧ (zone t).natAbs < 1440 then
    some (String.ofList (dateTime wall.toNat ++
      fractionThen (fraction 6 (t % 1000000)) (zoneText (zone t))))
  else none

/-- The cursor behind a page: the `created_at` of its last message, as the client got it. -/
def nextCursorText (zone : Time → ℤ) (page : List HistoryMessage) : Option (List UInt16) :=
  if page.length < 50 then none
  else page.getLast?.bind fun m => (timestampText zone m.createdAt).map asciiUnits

section

variable (parse : String → Option UUID) (general : List Char → Option ℤ) (locale : Store.Locale)

/-- The answer to the request of a page. -/
def servePage (db : Snapshot) (userID : UUID) (roomParam : String)
    (pageParam : Option (List UInt16)) : Option (List HistoryMessage) := do
  let q ← messagesQuery pageParam
  match serveRead parse (parseTimestamp general) locale db userID
      (← readMessages roomParam (sent q)) with
  | .ok (.messages page) => return page
  | _ => none

/-- `fetchNextPage` until there is no next page; the `i`-th fetch finds the tables `dbs i` and a
    server whose zone is `zones i`. -/
def readPages (zones : ℕ → Time → ℤ) (dbs : ℕ → Snapshot) (userID : UUID) (roomParam : String) :
    ℕ → ℕ → Option (List UInt16) → Option (List (List HistoryMessage))
  | 0, _, _ => none
  | fuel + 1, i, pageParam => do
    let page ← servePage parse general locale (dbs i) userID roomParam pageParam
    match nextCursorText (zones i) page with
    | none => return [page]
    | some cursor =>
      return page :: (← readPages zones dbs userID roomParam fuel (i + 1) (some cursor))

end

section

variable {parse : String → Option UUID} {general : List Char → Option ℤ} {locale : Store.Locale}
variable {zone : Time → ℤ} {t : Time} {text : String}

/-- What a timestamp has when it has a text. -/
theorem timestampText_some (h : timestampText zone t = some text) :
    ∃ s : ℕ, (s : ℤ) = (t / 1000000 : ℕ) + zone t * 60 ∧ s / 86400 < daysBefore 10000 ∧
      (zone t).natAbs < 1440 ∧ text.toList = dateTime s ++
        fractionThen (fraction 6 (t % 1000000)) (zoneText (zone t)) := by
  unfold timestampText at h
  simp only [] at h
  split_ifs at h with hrange
  obtain ⟨hfirst, hlast, hzone⟩ := hrange
  cases h
  refine ⟨_, Int.toNat_of_nonneg hfirst, Nat.div_lt_of_lt_mul ?_, hzone, String.toList_ofList⟩
  rw [Nat.mul_comm]
  exact (Int.toNat_lt hfirst).mpr hlast

/-- The text of a time is read as that time, whatever the zone of the writer. -/
theorem parseRFC3339_text (h : timestampText zone t = some text) :
    parseRFC3339 text.toList = some ((t * 1000 : ℕ) : ℤ) := by
  obtain ⟨s, hs, hlast, hzone, htext⟩ := timestampText_some h
  obtain ⟨hmonth, hshort, hyear⟩ := civil_bounds (s / 86400)
  have hyear := hyear hlast
  have hread := parseRFC3339_written (civil (s / 86400)) (s % 86400 / 3600)
    (s % 86400 % 3600 / 60) (s % 86400 % 60) (w := 6) (n := t % 1000000)
    (by omega) ⟨by simp [civil], hmonth⟩ (civil_day _) hshort (by omega) (by omega) (by omega)
    (by omega) (by omega) hzone
  rw [htext]
  refine hread.trans ?_
  rw [number_civil]
  congr 1
  omega

theorem ascii_pad {w n : ℕ} (hn : n < 10 ^ w) {c : Char} (hc : c ∈ pad w n) : c.toNat < 128 := by
  have hle : c ≤ '9' := (mem_pad hn hc).2
  have htoNat : c.toNat ≤ '9'.toNat := hle
  exact htoNat.trans_lt (by decide)

theorem ascii_dateTime {s : ℕ} (hlast : s / 86400 < daysBefore 10000) {c : Char}
    (hc : c ∈ dateTime s) : c.toNat < 128 := by
  obtain ⟨hmonth, hday, hyear⟩ := civil_bounds (s / 86400)
  have hyear := hyear hlast
  have htwo : ∀ {n : ℕ}, n < 100 → c ∈ pad 2 n → c.toNat < 128 := fun h => ascii_pad (by omega)
  simp only [dateTime, dateText, clockText, List.mem_append, List.mem_cons] at hc
  rcases hc with (hc | rfl | hc | rfl | hc) | rfl | hc | rfl | hc | rfl | hc
  · exact ascii_pad (w := 4) (by omega) hc
  · decide
  · exact htwo (by omega) hc
  · decide
  · exact htwo (by omega) hc
  · decide
  · exact htwo (by omega) hc
  · decide
  · exact htwo (by omega) hc
  · decide
  · exact htwo (by omega) hc

theorem ascii_zoneText {offset : ℤ} (h : offset.natAbs < 1440) {c : Char}
    (hc : c ∈ zoneText offset) : c.toNat < 128 := by
  have htwo : ∀ {n : ℕ}, n < 100 → c ∈ pad 2 n → c.toNat < 128 := fun h => ascii_pad (by omega)
  unfold zoneText at hc
  split_ifs at hc
  · rw [List.mem_singleton] at hc
    rw [hc]
    decide
  all_goals
    simp only [List.mem_cons, List.mem_append] at hc
    rcases hc with rfl | hc | rfl | hc
    · decide
    · exact htwo (by omega) hc
    · decide
    · exact htwo (by omega) hc

theorem ascii_text (h : timestampText zone t = some text) : isAscii text = true := by
  obtain ⟨s, -, hlast, hzone, htext⟩ := timestampText_some h
  rw [isAscii_iff]
  intro c hc
  rw [htext, List.mem_append] at hc
  rcases hc with hc | hc
  · exact ascii_dateTime hlast hc
  · unfold fractionThen at hc
    rw [List.mem_append] at hc
    rcases hc with hc | hc
    · split_ifs at hc
      · cases hc
      · rcases List.mem_cons.mp hc with rfl | hc
        · decide
        · exact ascii_pad (w := 6) (n := t % 1000000) (by omega)
            ((List.rdropWhile_prefix _ _).subset hc)
    · exact ascii_zoneText hzone hc

theorem parseTimestamp_text (h : timestampText zone t = some text) :
    parseTimestamp general text = some t := by
  have hdiv : (((t * 1000 : ℕ) : ℤ) / 1000).toNat = t := by omega
  rw [parseTimestamp, parseRFC3339_text h, Option.some_or, Option.map_some, hdiv]

theorem timestampText_ne (h : timestampText zone t = some text) : text ≠ "" := by
  rintro rfl
  obtain ⟨s, -, -, -, htext⟩ := timestampText_some h
  have hlength := congrArg List.length htext
  rw [List.length_append, length_dateTime, show "".toList.length = 0 from rfl] at hlength
  omega

/-- What the client holds as a cursor: none before the first page, and then the text of a time
    that some server wrote. -/
inductive WrittenCursor : Option Time → Option (List UInt16) → Prop
  | first : WrittenCursor none none
  | text {zone : Time → ℤ} {t : Time} {text : String} (h : timestampText zone t = some text) :
    WrittenCursor (some t) (some (asciiUnits text))

/-- The page behind a time, or the first one, is the page of the store. -/
theorem servePage_eq {db : Snapshot} {userID roomID : UUID} {roomParam : String}
    {before : Option Time} {pageParam : Option (List UInt16)}
    (hmember : activeRoom parse db userID roomParam = .ok roomID)
    (hcursor : WrittenCursor before pageParam) :
    servePage parse general locale db userID roomParam pageParam =
      some (listRoomMessages db.history roomID 50 before) := by
  have hwell : WellFormed (pageParam.getD []) := by
    cases hcursor with
    | first => exact fun u hu => List.not_mem_nil
    | text h => exact (decode_asciiUnits (ascii_text h)).1
  obtain ⟨q, hq⟩ := Option.isSome_iff_exists.mp (messagesQuery_isSome.mpr hwell)
  have hbefore : parseMessageBefore (parseTimestamp general)
      (String.ofList (decode (pageParam.getD []))) = .ok before := by
    cases hcursor with
    | first => rfl
    | text h =>
      rw [Option.getD_some, (decode_asciiUnits (ascii_text h)).2, String.ofList_toList,
        parseMessageBefore, if_neg (timestampText_ne h), parseTimestamp_text h]
  have hlimit : parseMessageLimit "50" = .ok 50 := by decide
  rw [servePage, hq, Option.bind_eq_bind, Option.bind_some, messagesQuery_read roomParam hq,
    Option.bind_eq_bind, Option.bind_some]
  simp only [serveRead, listMessages, hmember, hlimit, hbefore]
  rfl

/-- A page holds messages of the room only. -/
theorem createdAt_of_mem_page {db : Snapshot} {roomID : UUID} {limit : ℕ} {before : Option Time}
    {row : HistoryMessage} (h : row ∈ listRoomMessages db.history roomID limit before) :
    ∃ m ∈ db.history.messages, row.createdAt = m.createdAt := by
  obtain ⟨base, hbase, rfl⟩ := List.mem_map.mp h
  obtain ⟨m, hm, -, u, rfl⟩ := mem_queryRoomMessages hbase
  exact ⟨m, hm, rfl⟩

/-- The walk by URLs, from any cursor, is the walk by times. -/
theorem readPages_eq {zones : ℕ → Time → ℤ} {dbs : ℕ → Snapshot} {userID roomID : UUID}
    {roomParam : String} {before : Option Time} {pageParam : Option (List UInt16)}
    (hmember : ∀ i, activeRoom parse (dbs i) userID roomParam = .ok roomID)
    (htexts : ∀ i, ∀ m ∈ (dbs i).history.messages, (timestampText (zones i) m.createdAt).isSome)
    (fuel i : ℕ) (hcursor : WrittenCursor before pageParam) :
    readPages parse general locale zones dbs userID roomParam fuel i pageParam =
      fetchPages (·.createdAt) 50
        (fun i before => listRoomMessages (dbs i).history roomID 50 before) fuel i before := by
  induction fuel generalizing i before pageParam with
  | zero => rfl
  | succ fuel ih =>
    rw [readPages, servePage_eq (hmember i) hcursor, Option.bind_eq_bind, Option.bind_some]
    generalize hpage : listRoomMessages (dbs i).history roomID 50 before = page
    have htext : nextCursorText (zones i) page = (cursorAfter (·.createdAt) 50 page).bind fun t =>
        (timestampText (zones i) t).map asciiUnits := by
      unfold nextCursorText cursorAfter
      split_ifs
      · rfl
      · cases page.getLast? <;> rfl
    cases hafter : cursorAfter (·.createdAt) 50 page with
    | none =>
      rw [fetchPages_last fuel (by rw [hpage]; exact hafter), hpage, htext, hafter]
      rfl
    | some c =>
      have hlast : ∃ row ∈ page, row.createdAt = c := by
        unfold cursorAfter at hafter
        split_ifs at hafter
        obtain ⟨row, hrow, rfl⟩ := Option.map_eq_some_iff.mp hafter
        exact ⟨row, List.mem_of_getLast? hrow, rfl⟩
      obtain ⟨row, hrow, rfl⟩ := hlast
      obtain ⟨m, hm, hcreated⟩ := createdAt_of_mem_page (hpage ▸ hrow)
      obtain ⟨text, hwritten⟩ := Option.isSome_iff_exists.mp (htexts i m hm)
      rw [← hcreated] at hwritten
      have hnext := ih (i + 1) (.text hwritten)
      rw [fetchPages_more fuel (by rw [hpage]; exact hafter), hpage, htext, hafter,
        Option.bind_some, hwritten, Option.map_some]
      simp only [hnext]
      cases fetchPages (·.createdAt) 50
        (fun i before => listRoomMessages (dbs i).history roomID 50 before) fuel (i + 1)
        (some row.createdAt) <;> rfl

/-- The walk through the history of a room by URLs is the walk by times, for an active member
    and messages whose times have a text, whatever the zones of the servers and whatever the
    reader of other layouts does. -/
theorem history_read_over_http (parse : String → Option UUID) (general : List Char → Option ℤ)
    (locale : Store.Locale) (zones : ℕ → Time → ℤ) (dbs : ℕ → Snapshot) (userID roomID : UUID)
    (roomParam : String) (hmember : ∀ i, activeRoom parse (dbs i) userID roomParam = .ok roomID)
    (htexts : ∀ i, ∀ m ∈ (dbs i).history.messages, (timestampText (zones i) m.createdAt).isSome)
    (fuel : ℕ) :
    readPages parse general locale zones dbs userID roomParam fuel 0 none =
      readHistory (fun i => (dbs i).history) roomID 50 fuel :=
  readPages_eq hmember htexts fuel 0 .first

/-- The `i`-th message of Bob's channel. -/
def numbered (i : ℕ) : Message where
  id := i
  roomID := 7
  userID := 2
  content := "hello"
  messageType := .text
  editedAt := none
  deletedAt := none
  createdAt := i * 1000000
  updatedAt := i * 1000000

theorem numbered_nodup : (((List.range 51).map numbered).map (·.id)).Nodup := by decide

theorem numbered_author : ∀ m ∈ (List.range 51).map numbered,
    ∃ u ∈ [alice.summary, bob.summary], u.id = m.userID := by
  intro m hm
  obtain ⟨i, -, rfl⟩ := List.mem_map.mp hm
  exact ⟨bob.summary, by simp, rfl⟩

theorem members_ids : ([alice, bob].map (·.id)).Nodup := by decide

theorem members_usernames : ([alice, bob].map (·.username)).Nodup := by decide

theorem members_summaries : [alice.summary, bob.summary] = [alice, bob].map Account.summary := rfl

/-- Bob's channel with more messages than fit on a page. -/
def fullChannel : Snapshot where
  accounts := [alice, bob]
  rooms := [privateChannel]
  members := [⟨9, 7, 2, .admin, 0, none, none, none⟩]
  history :=
    { messages := (List.range 51).map numbered
      users := [alice.summary, bob.summary]
      reads := []
      reactions := []
      message_id := numbered_nodup
      author := numbered_author }
  presence := []
  status := fun _ => none
  account_id := members_ids
  username := members_usernames
  history_users := members_summaries

/-- The zone of Kolkata, half past five hours ahead of UTC. -/
def kolkata (_ : Time) : ℤ := 330

example : timestampText kolkata 63950484605250000 = some "2026-07-05T21:00:05.25+05:30" := by decide

theorem history_read_over_http_two :
    readPages parseSeven (fun _ => none) asciiLocale (fun _ => kolkata) (fun _ => fullChannel) 2
        channelParam 2 0 none =
      readHistory (fun _ => fullChannel.history) 7 50 2 := by
  refine history_read_over_http parseSeven (fun _ => none) asciiLocale (fun _ => kolkata)
    (fun _ => fullChannel) 2 7 channelParam (fun _ => rfl) (fun _ m hm => ?_) 2
  obtain ⟨i, hi, rfl⟩ := List.mem_map.mp hm
  have hlt : i < 51 := List.mem_range.mp hi
  have hbound : daysBefore 10000 = 3652425 := by decide
  have hrange : 0 ≤ ((i * 1000000 / 1000000 : ℕ) : ℤ) + 330 * 60 ∧
      ((i * 1000000 / 1000000 : ℕ) : ℤ) + 330 * 60 < (3652425 * 86400 : ℕ) ∧
      (330 : ℤ).natAbs < 1440 := by omega
  simp only [timestampText, numbered, kolkata, hbound]
  rw [if_pos hrange]
  rfl

end

end ConvoyChat.System
