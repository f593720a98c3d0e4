import ConvoyChat.Frontend.MessagePatches
import ConvoyChat.Lib.Calendar
import ConvoyChat.Lib.Decimals
import ConvoyChat.Frontend.MergeKeeps
import Mathlib.Order.Lattice.Nat

/-!
# Comparing the server's timestamps as texts

`newestConfirmedCreatedAt` (`frontend/lib/messagesCache.ts` lines 306–313) and the stop test
of `resyncRoom` (`frontend/hooks/useWebSocket.tsx` lines 129–147) compare `created_at` texts
with `>` and `<=`. The server encodes a time as `encoding/json` does: RFC 3339 in UTC, the
fraction of the second without the zeros at its end.

* `text_lt_iff`: the order of the texts.
* `comparisons_agree_iff`: it is the order of the times exactly when neither text is the other
  one with the fraction cut short.
* `newestConfirmed_iff`: when the anchor of a resync is the latest confirmed message.
-/

namespace ConvoyChat.Frontend

open ConvoyChat.Lib

/-! ## The encoding -/

/-- A time that `encoding/json` accepts, in microseconds from the start of year 0: the last
    year is 9999. -/
@[ext] structure Instant where
  micros : ℕ
  inRange : micros < daysBefore 10000 * 86400000000

/-- The date of day `d`, as in `2006-01-02`. -/
def dateText (d : ℕ) : List Char :=
  pad 4 (civil d).year ++ '-' :: (pad 2 (civil d).month ++ '-' :: pad 2 (civil d).day)

/-- The time of day, as in `15:04:05`. -/
def clockText (s : ℕ) : List Char :=
  pad 2 (s / 3600) ++ ':' :: (pad 2 (s % 3600 / 60) ++ ':' :: pad 2 (s % 60))

/-- Date and time of second `s`. -/
def dateTime (s : ℕ) : List Char := dateText (s / 86400) ++ 'T' :: clockText (s % 86400)

namespace Instant

def seconds (t : Instant) : ℕ := t.micros / 1000000

/-- The digits of the fraction of the second. -/
def digits (t : Instant) : List Char := fraction 6 (t.micros % 1000000)

/-- `time.Time.MarshalJSON`, in UTC, without the quotes. -/
def text (t : Instant) : String := String.ofList (dateTime t.seconds ++ ended t.digits)

/-- The times lie in one second, and the digits of `t` are those of `t'` cut short. -/
def CutOf (t t' : Instant) : Prop := t.seconds = t'.seconds ∧ Begins t.digits t'.digits

end Instant

section

variable {d d' s s' : ℕ} {t t' : Instant}

theorem length_dateText (d : ℕ) : (dateText d).length = 10 := by
  simp [dateText]

theorem length_dateTime (s : ℕ) : (dateTime s).length = 19 := by
  simp [dateTime, dateText, clockText]

theorem dateText_lt_iff (hd : d < daysBefore 10000) (hd' : d' < daysBefore 10000) :
    dateText d < dateText d' ↔ d < d' := by
  obtain ⟨hmonth, hday, hyear⟩ := civil_bounds d
  obtain ⟨hmonth', hday', hyear'⟩ := civil_bounds d'
  have htwo : ∀ {n : ℕ}, n ≤ 31 → n < 10 ^ 2 := fun h => by omega
  unfold dateText
  rw [block_lt_iff (hyear hd) (hyear' hd'), block_lt_iff (htwo (by omega)) (htwo (by omega)),
    pad_lt_pad_iff (htwo hday) (htwo hday')]
  exact (civil_lt_iff d d').symm

theorem clockText_lt_iff (hs : s < 86400) (hs' : s' < 86400) :
    clockText s < clockText s' ↔ s < s' := by
  have htwo : ∀ {n : ℕ}, n < 60 → n < 10 ^ 2 := fun h => by omega
  unfold clockText
  rw [block_lt_iff (htwo (by omega)) (htwo (by omega)), block_lt_iff (htwo (by omega))
    (htwo (by omega)), pad_lt_pad_iff (htwo (by omega)) (htwo (by omega))]
  omega

theorem dateText_inj (hd : d < daysBefore 10000) (hd' : d' < daysBefore 10000)
    (h : dateText d = dateText d') : d = d' := by
  by_contra hne
  rcases Nat.lt_or_gt_of_ne hne with hlt | hgt
  · exact ((dateText_lt_iff hd hd').mpr hlt).ne h
  · exact ((dateText_lt_iff hd' hd).mpr hgt).ne' h

/-- Dates and times compare as the seconds. -/
theorem dateTime_lt_iff (hs : s < daysBefore 10000 * 86400) (hs' : s' < daysBefore 10000 * 86400) :
    dateTime s < dateTime s' ↔ s < s' := by
  have hd : s / 86400 < daysBefore 10000 := Nat.div_lt_of_lt_mul (by rwa [Nat.mul_comm])
  have hd' : s' / 86400 < daysBefore 10000 := Nat.div_lt_of_lt_mul (by rwa [Nat.mul_comm])
  have hclock : s % 86400 < 86400 := Nat.mod_lt _ (by decide)
  have hclock' : s' % 86400 < 86400 := Nat.mod_lt _ (by decide)
  have hday : dateText (s / 86400) = dateText (s' / 86400) ↔ s / 86400 = s' / 86400 :=
    ⟨dateText_inj hd hd', congrArg dateText⟩
  unfold dateTime
  rw [append_lt_append_iff (by rw [length_dateText, length_dateText]), dateText_lt_iff hd hd', hday,
    List.cons_lt_cons_iff, clockText_lt_iff hclock hclock', lt_iff_div_mod 86400 s s']
  simp

theorem dateTime_inj (hs : s < daysBefore 10000 * 86400) (hs' : s' < daysBefore 10000 * 86400)
    (h : dateTime s = dateTime s') : s = s' := by
  by_contra hne
  rcases Nat.lt_or_gt_of_ne hne with hlt | hgt
  · exact ((dateTime_lt_iff hs hs').mpr hlt).ne h
  · exact ((dateTime_lt_iff hs' hs).mpr hgt).ne' h

theorem seconds_lt (t : Instant) : t.seconds < daysBefore 10000 * 86400 := by
  have h := t.inRange
  unfold Instant.seconds
  omega

/-- Texts compare by the second, then by what follows it. -/
theorem text_lt_iff : t.text < t'.text ↔
    t.seconds < t'.seconds ∨ t.seconds = t'.seconds ∧ ended t.digits < ended t'.digits := by
  rw [String.lt_iff_toList_lt, Instant.text, Instant.text, String.toList_ofList,
    String.toList_ofList, append_lt_append_iff (by rw [length_dateTime, length_dateTime]),
    dateTime_lt_iff (seconds_lt t) (seconds_lt t')]
  refine or_congr_right (and_congr_left fun _ => ⟨dateTime_inj (seconds_lt t) (seconds_lt t'), ?_⟩)
  intro heq
  rw [heq]

theorem micros_lt_iff : t.micros < t'.micros ↔
    t.seconds < t'.seconds ∨ t.seconds = t'.seconds ∧ t.micros % 1000000 < t'.micros % 1000000 :=
  lt_iff_div_mod 1000000 t.micros t'.micros

/-- A fraction that is cut short belongs to an earlier time and to a larger text. -/
theorem Instant.CutOf.text_lt (h : t.CutOf t') : t.micros < t'.micros ∧ t'.text < t.text := by
  have hfraction := ended_lt_of_begins (Nat.mod_lt t.micros (by decide))
    (Nat.mod_lt t'.micros (by decide)) h.2
  rw [micros_lt_iff, text_lt_iff]
  exact ⟨.inr ⟨h.1, hfraction.1⟩, .inr ⟨h.1.symm, hfraction.2⟩⟩

/-- Otherwise the texts are in the order of the times. -/
theorem text_lt_iff_micros (h : ¬ t.CutOf t') (h' : ¬ t'.CutOf t) :
    t.text < t'.text ↔ t.micros < t'.micros := by
  rw [text_lt_iff, micros_lt_iff]
  refine or_congr_right (and_congr_right fun hsecond => ?_)
  exact ended_lt_iff (Nat.mod_lt t.micros (by decide)) (Nat.mod_lt t'.micros (by decide))
    (fun hbegins => h ⟨hsecond, hbegins⟩) fun hbegins => h' ⟨hsecond.symm, hbegins⟩

theorem text_inj (h : t.text = t'.text) : t.micros = t'.micros := by
  by_cases hcut : t.CutOf t'
  · exact absurd h hcut.text_lt.2.ne'
  · by_cases hcut' : t'.CutOf t
    · exact absurd h hcut'.text_lt.2.ne
    · by_contra hne
      rcases Nat.lt_or_gt_of_ne hne with hlt | hgt
      · exact ((text_lt_iff_micros hcut hcut').mpr hlt).ne h
      · exact ((text_lt_iff_micros hcut' hcut).mpr hgt).ne' h

/-- The comparisons of the client on two timestamps say what they are meant to. -/
def ComparisonsAgree (t t' : Instant) : Prop :=
  (t.text > t'.text ↔ t.micros > t'.micros) ∧ (t.text ≤ t'.text ↔ t.micros ≤ t'.micros)

theorem comparisons_agree_iff : ComparisonsAgree t t' ↔ ¬ t.CutOf t' ∧ ¬ t'.CutOf t := by
  unfold ComparisonsAgree
  rw [← not_lt, ← not_lt, not_iff_not, gt_iff_lt, gt_iff_lt, and_self]
  constructor
  · intro hagree
    refine ⟨fun hcut => ?_, fun hcut => ?_⟩
    · have hlt := hagree.mp hcut.text_lt.2
      have hgt := hcut.text_lt.1
      omega
    · exact absurd (hagree.mpr hcut.text_lt.1) hcut.text_lt.2.asymm
  · rintro ⟨hcut, hcut'⟩
    exact text_lt_iff_micros hcut' hcut

end

/-! ## The anchor -/

/-- Every confirmed message carries a time of the server. -/
def Timestamped (data : Option MessagesData) : Prop :=
  ∀ m ∈ (pagesOf data).flatten, m.status = none → ∃ t : Instant, m.createdAt = t.text

/-- `t` is the time of a confirmed message, and no confirmed message is later. -/
structure IsLatest (data : Option MessagesData) (t : Instant) : Prop where
  held : ∃ m ∈ (pagesOf data).flatten, m.status = none ∧ m.createdAt = t.text
  last : ∀ m ∈ (pagesOf data).flatten, m.status = none →
    ∀ t' : Instant, m.createdAt = t'.text → t'.micros ≤ t.micros

section

variable {data : Option MessagesData} {t : Instant}

/-- The anchor is the largest text. -/
theorem le_newestConfirmedCreatedAt (data : Option MessagesData) :
    ∀ m ∈ (pagesOf data).flatten, m.status = none →
      ∃ newest, newestConfirmedCreatedAt data = some newest ∧ m.createdAt ≤ newest := by
  unfold newestConfirmedCreatedAt
  -- from the end of the list, as `newestConfirmedCreatedAt_mem`
  induction (pagesOf data).flatten using List.reverseRecOn with
  | nil => simp
  | append_singleton messages last ih =>
    intro m hm hnone
    rw [List.foldl_append]
    simp only [List.foldl_cons, List.foldl_nil]
    generalize List.foldl _ none messages = newest at ih ⊢
    rcases List.mem_append.mp hm with hm | hm
    · obtain ⟨text, rfl, hle⟩ := ih m hm hnone
      split_ifs with hstatus hnewer
      · exact ⟨text, rfl, hle⟩
      · refine ⟨last.createdAt, rfl, ?_⟩
        by_cases hempty : text = ""
        · rw [hempty] at hle
          refine le_trans hle (not_lt.mp fun hlt => ?_)
          exact absurd (String.lt_iff_toList_lt.mp hlt) (List.not_lt_nil _)
        · have hlt : text < last.createdAt := by simpa [isFalsy, hempty] using hnewer
          exact le_trans hle hlt.le
      · exact ⟨text, rfl, hle⟩
    · rw [List.mem_singleton.mp hm] at hnone ⊢
      rw [if_neg (by simp [hnone])]
      split_ifs with hnewer
      · exact ⟨last.createdAt, rfl, le_refl _⟩
      · cases newest with
        | none => simp [isFalsy] at hnewer
        | some text =>
          refine ⟨text, rfl, not_lt.mp fun hlt => hnewer ?_⟩
          simp [hlt]

theorem IsLatest.unique {t' : Instant} (h : IsLatest data t) (h' : IsLatest data t') : t = t' := by
  obtain ⟨m, hm, hnone, htext⟩ := h.held
  obtain ⟨m', hm', hnone', htext'⟩ := h'.held
  have hle := h'.last m hm hnone t htext
  have hge := h.last m' hm' hnone' t' htext'
  exact Instant.ext (le_antisymm hle hge)

/-- There is a latest time, the encoding being bounded. -/
theorem exists_latest (hstamped : Timestamped data)
    (h : ∃ m ∈ (pagesOf data).flatten, m.status = none) : ∃ t, IsLatest data t := by
  let times : Set ℕ := fun n => ∃ m ∈ (pagesOf data).flatten, m.status = none ∧
    ∃ t : Instant, m.createdAt = t.text ∧ t.micros = n
  have hnonempty : times.Nonempty := by
    obtain ⟨m, hm, hnone⟩ := h
    obtain ⟨t, htext⟩ := hstamped m hm hnone
    exact ⟨t.micros, m, hm, hnone, t, htext, rfl⟩
  have hbounded : BddAbove times := by
    refine ⟨daysBefore 10000 * 86400000000, ?_⟩
    rintro n ⟨-, -, -, t, -, rfl⟩
    exact t.inRange.le
  obtain ⟨m, hm, hnone, t, htext, hmicros⟩ := Nat.sSup_mem hnonempty hbounded
  refine ⟨t, ⟨m, hm, hnone, htext⟩, fun m' hm' hnone' t' htext' => ?_⟩
  rw [hmicros]
  exact le_csSup hbounded ⟨m', hm', hnone', t', htext', rfl⟩

/-- If a message is confirmed, the anchor is the time of a latest one. -/
def AnchorIsLatest (data : Option MessagesData) : Prop :=
  (∃ m ∈ (pagesOf data).flatten, m.status = none) →
    ∃ t, newestConfirmedCreatedAt data = some t.text ∧ IsLatest data t

/-- No confirmed message has the time of the latest one with its fraction cut short. -/
def NoneCutShort (data : Option MessagesData) : Prop :=
  ∀ t, IsLatest data t → ∀ m ∈ (pagesOf data).flatten, m.status = none →
    ∀ t' : Instant, m.createdAt = t'.text → ¬ t'.CutOf t

theorem AnchorIsLatest.noneCutShort (h : AnchorIsLatest data) : NoneCutShort data := by
  intro t hlatest m hm hnone t' htext hcut
  obtain ⟨anchor, hanchor, hlast⟩ := h ⟨m, hm, hnone⟩
  obtain ⟨newest, hnewest, hle⟩ := le_newestConfirmedCreatedAt data m hm hnone
  rw [hanchor, hlast.unique hlatest, Option.some_inj] at hnewest
  rw [htext, ← hnewest] at hle
  exact absurd hcut.text_lt.2 (not_lt.mpr hle)

theorem NoneCutShort.anchorIsLatest (hstamped : Timestamped data) (h : NoneCutShort data) :
    AnchorIsLatest data := by
  intro hconfirmed
  obtain ⟨t, hlatest⟩ := exists_latest hstamped hconfirmed
  obtain ⟨m, hm, hnone, htext⟩ := hlatest.held
  obtain ⟨newest, hnewest, hle⟩ := le_newestConfirmedCreatedAt data m hm hnone
  have hmem := newestConfirmedCreatedAt_mem data
  rw [hnewest] at hmem
  obtain ⟨m', hm', hnone', rfl⟩ := hmem
  obtain ⟨t', htext'⟩ := hstamped m' hm' hnone'
  have hearlier := hlatest.last m' hm' hnone' t' htext'
  have hcut : ¬ t.CutOf t' := fun hcut => absurd hcut.text_lt.1 (not_lt.mpr hearlier)
  rw [htext, htext'] at hle
  -- the anchor is not before the latest time, its text being the largest
  have hlater : t.micros ≤ t'.micros := by
    rw [← not_lt, ← text_lt_iff_micros (h t hlatest m' hm' hnone' t' htext') hcut]
    exact not_lt.mpr hle
  refine ⟨t, ?_, hlatest⟩
  rw [hnewest, htext', Instant.ext (le_antisymm hearlier hlater)]

/-- Two timestamps compare as texts as they do as times exactly when neither is the other cut
    short; the anchor is a latest confirmed message exactly when none of them is that one's
    time cut short. -/
theorem newestConfirmed_iff (t t' : Instant) (data : Option MessagesData)
    (hstamped : Timestamped data) :
    (ComparisonsAgree t t' ↔ ¬ t.CutOf t' ∧ ¬ t'.CutOf t) ∧
    (AnchorIsLatest data ↔ NoneCutShort data) :=
  ⟨comparisons_agree_iff, AnchorIsLatest.noneCutShort, NoneCutShort.anchorIsLatest hstamped⟩

end

/-- 2026-07-05 15:30:05. -/
def wholeSecond : Instant := ⟨63950484605000000, by decide⟩

/-- Half a second after it. -/
def halfSecond : Instant := ⟨63950484605500000, by decide⟩

/-- A second after it. -/
def nextSecond : Instant := ⟨63950484606000000, by decide⟩

theorem sample_texts : wholeSecond.text = "2026-07-05T15:30:05Z" ∧
    halfSecond.text = "2026-07-05T15:30:05.5Z" ∧ nextSecond.text = "2026-07-05T15:30:06Z" := by
  refine ⟨?_, ?_, ?_⟩ <;> decide

theorem wholeSecond_cutOf : wholeSecond.CutOf halfSecond :=
  ⟨rfl, '5', [], by decide⟩

/-- A confirmed message with this time. -/
def stampedMessage (id createdAt : String) : ChatMessage :=
  { confirmedMessage id "alice" "hello" with createdAt := createdAt }

/-- A message of the half second before one of the next second. -/
def apartCache : MessagesData :=
  ⟨[[stampedMessage "m2" "2026-07-05T15:30:06Z", stampedMessage "m1" "2026-07-05T15:30:05.5Z"]],
    [none]⟩

/-- A message of the whole second before one of the same second. -/
def cutShortCache : MessagesData :=
  ⟨[[stampedMessage "m2" "2026-07-05T15:30:05.5Z", stampedMessage "m1" "2026-07-05T15:30:05Z"]],
    [none]⟩

theorem newestConfirmed_iff_apart :
    Timestamped (some apartCache) ∧
      (ComparisonsAgree halfSecond nextSecond ↔
        ¬ halfSecond.CutOf nextSecond ∧ ¬ nextSecond.CutOf halfSecond) ∧
      AnchorIsLatest (some apartCache) := by
  obtain ⟨-, hhalf, hnext⟩ := sample_texts
  have hstamped : Timestamped (some apartCache) := by
    intro m hm _
    rcases List.mem_pair.mp hm with rfl | rfl
    · exact ⟨nextSecond, hnext.symm⟩
    · exact ⟨halfSecond, hhalf.symm⟩
  have htimes : ∀ m ∈ (pagesOf (some apartCache)).flatten, ∀ t : Instant, m.createdAt = t.text →
      t.micros = 63950484606000000 ∨ t.micros = 63950484605500000 := by
    intro m hm t htext
    rcases List.mem_pair.mp hm with rfl | rfl
    · exact .inl (text_inj (htext.symm.trans hnext.symm))
    · exact .inr (text_inj (htext.symm.trans hhalf.symm))
  have hiff := newestConfirmed_iff halfSecond nextSecond (some apartCache) hstamped
  refine ⟨hstamped, hiff.1, hiff.2.mpr fun t hlatest m hm _ t' htext hcut => ?_⟩
  -- the latest is of the next second, and the other message is not
  obtain ⟨held, hheld, -, hheldText⟩ := hlatest.held
  have hnewest : 63950484606000000 ≤ t.micros :=
    hlatest.last _ List.mem_cons_self rfl nextSecond hnext.symm
  have hlatestTime := htimes held hheld t hheldText
  have htime := htimes m hm t' htext
  have hseconds : t'.micros / 1000000 = t.micros / 1000000 := hcut.1
  have hlt := hcut.text_lt.1
  omega

/-- The anchor of this cache is the earlier of its two messages. -/
theorem cutShortCache_anchor :
    Timestamped (some cutShortCache) ∧ ¬ ComparisonsAgree wholeSecond halfSecond ∧
      newestConfirmedCreatedAt (some cutShortCache) = some "2026-07-05T15:30:05Z" ∧
      ¬ AnchorIsLatest (some cutShortCache) := by
  obtain ⟨hwhole, hhalf, -⟩ := sample_texts
  have hstamped : Timestamped (some cutShortCache) := by
    intro m hm _
    rcases List.mem_pair.mp hm with rfl | rfl
    · exact ⟨halfSecond, hhalf.symm⟩
    · exact ⟨wholeSecond, hwhole.symm⟩
  refine ⟨hstamped, fun hagree => ?_, by decide +kernel, fun hanchor => ?_⟩
  · exact (comparisons_agree_iff.mp hagree).1 wholeSecond_cutOf
  · have hlatest : IsLatest (some cutShortCache) halfSecond := by
      refine ⟨⟨_, List.mem_cons_self, rfl, hhalf.symm⟩, fun m hm _ t' htext => ?_⟩
      rcases List.mem_pair.mp hm with rfl | rfl
      · rw [text_inj (hhalf.trans htext)]
      · rw [← text_inj (hwhole.trans htext)]
        decide
    exact hanchor.noneCutShort halfSecond hlatest _ (List.mem_cons_of_mem _ List.mem_cons_self) rfl
      wholeSecond hwhole.symm wholeSecond_cutOf

end ConvoyChat.Frontend
