import Mathlib.Data.List.Basic
import Mathlib.Data.List.Nodup
import Mathlib.Order.Basic
import Mathlib.Tactic.Ring

/-!
# Keyset pagination

A listing is read page by page. Each page holds at most `limit` rows, largest
key first; the cursor for the next page is the key of the last row read, and only
rows with a smaller key are served then. A page shorter than the limit is the
last one.

* `fetchPages_flatten`: when no page ends between two rows of equal key, the
  pages put together are the listing, and the reading ends.
* `fetchPages_misses`: otherwise some row of the listing is on no page.
* `fetchPages_map`: paging commutes with a projection of the rows that keeps the
  key.
* `spanned_or`: what lies between two rows of a set and of the pages that were read
  back to one of its rows.
-/

namespace ConvoyChat.Lib

universe u v w

variable {α : Type u} {β : Type w} {κ : Type v}

/-- The cursor after `page`: the key of its last row, and `none` if the page is
    short. -/
def cursorAfter (key : α → κ) (limit : ℕ) (page : List α) : Option κ :=
  if page.length < limit then none else page.getLast?.map key

/-- Fetch pages until one has no cursor, at most `fuel` of them. `fetch i before`
    is the answer to the `i`-th fetch: the rows may have changed between two. -/
def fetchPages (key : α → κ) (limit : ℕ) (fetch : ℕ → Option κ → List α) :
    ℕ → ℕ → Option κ → Option (List (List α))
  | 0, _, _ => none
  | fuel + 1, i, before =>
    match cursorAfter key limit (fetch i before) with
    | none => some [fetch i before]
    | some c => (fetchPages key limit fetch fuel (i + 1) (some c)).map (fetch i before :: ·)

theorem fetchPages_last {key : α → κ} {limit : ℕ} {fetch : ℕ → Option κ → List α} (fuel : ℕ) {i : ℕ}
    {before : Option κ} (h : cursorAfter key limit (fetch i before) = none) :
    fetchPages key limit fetch (fuel + 1) i before = some [fetch i before] := by
  rw [fetchPages, h]

theorem fetchPages_more {key : α → κ} {limit : ℕ} {fetch : ℕ → Option κ → List α} (fuel : ℕ) {i : ℕ}
    {before : Option κ} {c : κ} (h : cursorAfter key limit (fetch i before) = some c) :
    fetchPages key limit fetch (fuel + 1) i before =
      (fetchPages key limit fetch fuel (i + 1) (some c)).map (fetch i before :: ·) := by
  rw [fetchPages, h]

/-- The cursor reads the key only. -/
theorem cursorAfter_map {key : α → κ} {key' : β → κ} {f : α → β} (hkey : ∀ a, key' (f a) = key a)
    (limit : ℕ) (page : List α) :
    cursorAfter key' limit (page.map f) = cursorAfter key limit page := by
  simp only [cursorAfter, List.length_map, List.getLast?_map, Option.map_map]
  congr 1
  exact congrArg (Option.map · _) (funext hkey)

theorem fetchPages_map {key : α → κ} {key' : β → κ} {f : α → β} (hkey : ∀ a, key' (f a) = key a)
    (limit : ℕ) (fetch : ℕ → Option κ → List α) (fuel i : ℕ) (before : Option κ) :
    (fetchPages key limit fetch fuel i before).map (List.map (List.map f)) =
      fetchPages key' limit (fun i before => (fetch i before).map f) fuel i before := by
  induction fuel generalizing i before with
  | zero => rfl
  | succ fuel ih =>
    have hcursor := cursorAfter_map hkey limit (fetch i before)
    cases hc : cursorAfter key limit (fetch i before) with
    | none => rw [fetchPages_last fuel hc, fetchPages_last fuel (hcursor.trans hc)]; rfl
    | some c =>
      rw [fetchPages_more fuel hc, fetchPages_more fuel (hcursor.trans hc), ← ih]
      simp only [Option.map_map]
      rfl

variable {key : α → κ} {limit : ℕ} {rows : List α} {fetch : ℕ → Option κ → List α}

/-- No page of `limit` rows ends between two rows of the same key. -/
def Apart (key : α → κ) (limit : ℕ) (rows : List α) : Prop :=
  ∀ k a b, rows[(k + 1) * limit - 1]? = some a → rows[(k + 1) * limit]? = some b → key a ≠ key b

/-- A full page has a last row, the cursor is its key, and it splits the listing. -/
theorem cursorAfter_take (key : α → κ) (hlimit : 0 < limit) {rest : List α}
    (hlong : limit ≤ rest.length) :
    ∃ a, (rest.take limit).getLast? = some a ∧ rest[limit - 1]? = some a ∧
      cursorAfter key limit (rest.take limit) = some (key a) := by
  have hlen : (rest.take limit).length = limit := by simpa using hlong
  obtain ⟨a, ha⟩ : ∃ a, (rest.take limit).getLast? = some a := by
    cases h : (rest.take limit).getLast? with
    | some a => exact ⟨a, rfl⟩
    | none =>
      rw [List.getLast?_eq_none_iff] at h
      simp only [h, List.length_nil] at hlen
      omega
  refine ⟨a, ha, ?_, ?_⟩
  · rw [List.getLast?_eq_getElem?, hlen, List.getElem?_take_of_lt (by omega)] at ha
    exact ha
  · rw [cursorAfter, hlen, if_neg (lt_irrefl _), ha]
    rfl

theorem cursorAfter_short (key : α → κ) {rest : List α} (hshort : rest.length < limit) :
    cursorAfter key limit (rest.take limit) = none := by
  rw [cursorAfter, if_pos]
  simpa using hshort

/-- The cursor is the key of a row of the page. -/
theorem cursorAfter_eq_some {page : List α} {c : κ} (h : cursorAfter key limit page = some c) :
    ∃ a ∈ page, key a = c := by
  unfold cursorAfter at h
  split_ifs at h
  obtain ⟨a, ha, hkey⟩ := Option.map_eq_some_iff.mp h
  exact ⟨a, List.mem_of_getLast? ha, hkey⟩

theorem Apart.drop (h : Apart key limit rows) : Apart key limit (rows.drop limit) := by
  intro k a b ha hb
  rw [List.getElem?_drop] at ha hb
  have hlimit : 0 < limit ∨ limit = 0 := by omega
  rcases hlimit with hlimit | rfl
  · have hmul : (k + 1 + 1) * limit = limit + (k + 1) * limit := by ring
    have hpos : 0 < (k + 1) * limit := Nat.mul_pos (Nat.succ_pos k) hlimit
    refine h (k + 1) a b ?_ ?_
    · rw [hmul, show limit + (k + 1) * limit - 1 = limit + ((k + 1) * limit - 1) by omega]
      exact ha
    · rw [hmul]
      exact hb
  · exact h k a b (by simpa using ha) (by simpa using hb)

theorem Apart.head (h : Apart key limit rows) {a b : α}
    (ha : rows[limit - 1]? = some a) (hb : (rows.drop limit).head? = some b) : key a ≠ key b := by
  rw [List.head?_drop] at hb
  exact h 0 a b (by simpa using ha) (by simpa using hb)

/-! ## A listing in descending order -/

variable [LinearOrder κ]

/-- The rows are listed largest key first. -/
def Descending (key : α → κ) (rows : List α) : Prop := rows.Pairwise fun a b => key b ≤ key a

/-- The fetches serve the listing `rows`: the first page from its top, a later one
    from below the key of one of its rows. -/
structure Serves (key : α → κ) (limit : ℕ) (rows : List α) (fetch : ℕ → Option κ → List α) :
    Prop where
  first : fetch 0 none = rows.take limit
  next : ∀ i, ∀ a ∈ rows, fetch (i + 1) (some (key a)) =
    (rows.filter fun x => key x < key a).take limit

/-- What lies below the last row of `done` is what follows it, when the next row
    has another key. -/
theorem filter_lt_of_apart {done rest : List α} {a : α} (hsorted : Descending key (done ++ rest))
    (hlast : done.getLast? = some a) (hapart : ∀ b, rest.head? = some b → key a ≠ key b) :
    (done ++ rest).filter (fun x => key x < key a) = rest := by
  obtain ⟨done, rfl⟩ := List.getLast?_eq_some_iff.mp hlast
  unfold Descending at hsorted
  rw [List.pairwise_append] at hsorted
  obtain ⟨hdone, hrest, hcross⟩ := hsorted
  have habove : (done ++ [a]).filter (fun x => key x < key a) = [] := by
    rw [List.filter_eq_nil_iff]
    intro x hx
    rcases List.mem_append.mp hx with hx | hx
    · have := (List.pairwise_append.mp hdone).2.2 x hx a (by simp)
      simpa using this
    · simp [List.mem_singleton.mp hx]
  rw [List.filter_append, habove, List.nil_append, List.filter_eq_self]
  intro x hx
  have hle : ∀ y ∈ rest, key y ≤ key a := fun y hy => hcross a (by simp) y hy
  cases rest with
  | nil => simp at hx
  | cons b rest =>
    have hb : key b < key a := lt_of_le_of_ne (hle b List.mem_cons_self) (hapart b rfl).symm
    rcases List.mem_cons.mp hx with rfl | hx
    · simpa using hb
    · simpa using lt_of_le_of_lt ((List.pairwise_cons.mp hrest).1 x hx) hb

/-- The answer to the fetch after a full page. -/
theorem Serves.after (hserves : Serves key limit rows fetch) (hsorted : Descending key rows)
    {done rest : List α} (hsplit : rows = done ++ rest) {a : α}
    (hlast : (rest.take limit).getLast? = some a)
    (hapart : ∀ b, (rest.drop limit).head? = some b → key a ≠ key b) (i : ℕ) :
    fetch (i + 1) (some (key a)) = (rest.drop limit).take limit := by
  have hsplit' : rows = (done ++ rest.take limit) ++ rest.drop limit := by
    rw [List.append_assoc, List.take_append_drop, hsplit]
  have hmem : a ∈ rows := by
    rw [hsplit]
    exact List.mem_append_right _ (List.mem_of_mem_take (List.mem_of_getLast? hlast))
  rw [hserves.next i a hmem]
  congr 1
  rw [hsplit'] at hsorted ⊢
  refine filter_lt_of_apart hsorted ?_ hapart
  rw [List.getLast?_append, hlast]
  rfl

theorem fetchPages_rest (hlimit : 0 < limit) (hserves : Serves key limit rows fetch)
    (hsorted : Descending key rows) (fuel : ℕ) {done rest : List α} (hsplit : rows = done ++ rest)
    {i : ℕ} {before : Option κ} (hfetch : fetch i before = rest.take limit)
    (hapart : Apart key limit rest) (hfuel : rest.length < fuel) :
    ∃ pages, fetchPages key limit fetch fuel i before = some pages ∧ pages.flatten = rest := by
  -- the fuel bounds the rows that are still to come; every full page has a row
  induction fuel generalizing done rest i before with
  | zero => omega
  | succ fuel ih =>
    rcases lt_or_ge rest.length limit with hshort | hlong
    · have hcursor := cursorAfter_short key hshort
      rw [← hfetch] at hcursor
      refine ⟨[fetch i before], fetchPages_last fuel hcursor, ?_⟩
      simp [hfetch, List.take_of_length_le hshort.le]
    · obtain ⟨a, hlast, hget, hcursor⟩ := cursorAfter_take key hlimit hlong
      have hnext := hserves.after hsorted hsplit hlast (fun b hb => hapart.head hget hb) i
      have hsplit' : rows = (done ++ rest.take limit) ++ rest.drop limit := by
        rw [List.append_assoc, List.take_append_drop, hsplit]
      have hlen : (rest.drop limit).length < fuel := by
        rw [List.length_drop]
        omega
      obtain ⟨pages, hpages, hflat⟩ := ih hsplit' hnext hapart.drop hlen
      rw [← hfetch] at hcursor
      refine ⟨fetch i before :: pages, ?_, ?_⟩
      · rw [fetchPages_more fuel hcursor, hpages]
        rfl
      · rw [List.flatten_cons, hflat, hfetch, List.take_append_drop]

/-- When no page ends between two rows of one key, the pages are the listing, for
    every fuel above its length. -/
theorem fetchPages_flatten (hlimit : 0 < limit) (hserves : Serves key limit rows fetch)
    (hsorted : Descending key rows) (hapart : Apart key limit rows) {fuel : ℕ}
    (hfuel : rows.length < fuel) :
    ∃ pages, fetchPages key limit fetch fuel 0 none = some pages ∧ pages.flatten = rows :=
  fetchPages_rest hlimit hserves hsorted fuel (List.nil_append rows).symm hserves.first hapart hfuel

omit [LinearOrder κ] in
/-- What holds of the rows of a page, and of all later ones, holds of all pages. -/
theorem fetchPages_forall {P : α → Prop} {fuel i : ℕ} {before : Option κ} {pages : List (List α)}
    (h : fetchPages key limit fetch (fuel + 1) i before = some pages)
    (hpage : ∀ x ∈ fetch i before, P x)
    (hlater : ∀ c later, cursorAfter key limit (fetch i before) = some c →
      fetchPages key limit fetch fuel (i + 1) (some c) = some later → ∀ x ∈ later.flatten, P x) :
    ∀ x ∈ pages.flatten, P x := by
  intro x hx
  cases hc : cursorAfter key limit (fetch i before) with
  | none =>
    rw [fetchPages_last fuel hc] at h
    cases h
    exact hpage x (by simpa using hx)
  | some c =>
    rw [fetchPages_more fuel hc] at h
    obtain ⟨later, hrest, rfl⟩ := Option.map_eq_some_iff.mp h
    rcases List.mem_append.mp hx with hx | hx
    · exact hpage x hx
    · exact hlater c later hc hrest x hx

/-- After the cursor `key a` only rows below it are served. -/
theorem fetchPages_below (hserves : Serves key limit rows fetch) (fuel : ℕ) {i : ℕ} {a : α}
    (ha : a ∈ rows) {pages : List (List α)}
    (h : fetchPages key limit fetch fuel (i + 1) (some (key a)) = some pages) :
    ∀ x ∈ pages.flatten, x ∈ rows ∧ key x < key a := by
  induction fuel generalizing i a pages with
  | zero => simp [fetchPages] at h
  | succ fuel ih =>
    have hpage : ∀ x ∈ fetch (i + 1) (some (key a)), x ∈ rows ∧ key x < key a := by
      intro x hx
      rw [hserves.next i a ha] at hx
      simpa using List.mem_filter.mp (List.mem_of_mem_take hx)
    refine fetchPages_forall h hpage fun c later hc hlater x hx => ?_
    obtain ⟨b, hb, rfl⟩ := cursorAfter_eq_some hc
    obtain ⟨hbrows, hblt⟩ := hpage b hb
    obtain ⟨hxrows, hxlt⟩ := ih hbrows hlater x hx
    exact ⟨hxrows, hxlt.trans hblt⟩

/-- The pages hold rows of the listing only. -/
theorem fetchPages_subset (hserves : Serves key limit rows fetch) {fuel : ℕ} {pages : List (List α)}
    (h : fetchPages key limit fetch fuel 0 none = some pages) : ∀ x ∈ pages.flatten, x ∈ rows := by
  have hpage : ∀ x ∈ fetch 0 none, x ∈ rows := by
    intro x hx
    rw [hserves.first] at hx
    exact List.mem_of_mem_take hx
  cases fuel with
  | zero => simp [fetchPages] at h
  | succ fuel =>
    refine fetchPages_forall h hpage fun c later hc hlater x hx => ?_
    obtain ⟨b, hb, rfl⟩ := cursorAfter_eq_some hc
    exact (fetchPages_below hserves fuel (hpage b hb) hlater x hx).1

/-- A page holds no row of what follows it. -/
theorem not_mem_page (hnodup : rows.Nodup) {done rest : List α}
    (hsplit : rows = done ++ rest) {b : α} (hb : b ∈ rest.drop limit) : b ∉ rest.take limit := by
  intro hmem
  have hrest : rest.Nodup := (List.nodup_append.mp (hsplit ▸ hnodup)).2.1
  rw [← List.take_append_drop limit rest] at hrest
  exact (List.nodup_append.mp hrest).2.2 b hmem b hb rfl

omit [LinearOrder κ] in
/-- A row behind the first page that is on none of the later ones is on no page. -/
theorem not_mem_fetchPages (hnodup : rows.Nodup) {done rest : List α} (hsplit : rows = done ++ rest)
    {i : ℕ} {before : Option κ} (hfetch : fetch i before = rest.take limit) {c b : α}
    (hcursor : cursorAfter key limit (rest.take limit) = some (key c)) (hb : b ∈ rest.drop limit)
    (hlater : ∀ fuel later, fetchPages key limit fetch fuel (i + 1) (some (key c)) = some later →
      b ∉ later.flatten) {fuel : ℕ} {pages : List (List α)}
    (hpages : fetchPages key limit fetch fuel i before = some pages) : b ∉ pages.flatten := by
  intro hmem
  cases fuel with
  | zero => simp [fetchPages] at hpages
  | succ fuel =>
    rw [← hfetch] at hcursor
    rw [fetchPages_more fuel hcursor] at hpages
    obtain ⟨later, hrest, rfl⟩ := Option.map_eq_some_iff.mp hpages
    rw [List.flatten_cons, List.mem_append, hfetch] at hmem
    rcases hmem with hmem | hmem
    · exact not_mem_page hnodup hsplit hb hmem
    · exact hlater fuel later hrest hmem

/-- The row behind a page that ends in a row of the same key is on no page. -/
theorem misses_tied (hlimit : 0 < limit) (hserves : Serves key limit rows fetch)
    (hnodup : rows.Nodup) {a b : α} (htie : key a = key b) {done rest : List α}
    (hsplit : rows = done ++ rest) {i : ℕ} {before : Option κ}
    (hfetch : fetch i before = rest.take limit) (ha : rest[limit - 1]? = some a)
    (hb : rest[limit]? = some b) {fuel : ℕ} {pages : List (List α)}
    (hpages : fetchPages key limit fetch fuel i before = some pages) : b ∉ pages.flatten := by
  obtain ⟨hlen, -⟩ := List.getElem?_eq_some_iff.mp hb
  obtain ⟨a', -, hget, hcursor⟩ := cursorAfter_take key hlimit hlen.le
  obtain rfl : a = a' := by
    rw [ha] at hget
    exact Option.some.inj hget
  have hdrop : b ∈ rest.drop limit := by
    refine List.mem_of_getElem? (i := 0) ?_
    rw [List.getElem?_drop, add_zero]
    exact hb
  have hrows : a ∈ rows := by
    rw [hsplit]
    exact List.mem_append_right _ (List.mem_of_getElem? ha)
  refine not_mem_fetchPages hnodup hsplit hfetch hcursor hdrop
    (fun fuel later hlater hmem => ?_) hpages
  have hlt : key b < key a := (fetchPages_below hserves fuel hrows hlater b hmem).2
  exact absurd htie.symm hlt.ne

theorem misses_rest (hlimit : 0 < limit) (hserves : Serves key limit rows fetch)
    (hsorted : Descending key rows) (hnodup : rows.Nodup) (k : ℕ) {a b : α} (htie : key a = key b)
    {done rest : List α} (hsplit : rows = done ++ rest) {i : ℕ} {before : Option κ}
    (hfetch : fetch i before = rest.take limit)
    (ha : rest[(k + 1) * limit - 1]? = some a) (hb : rest[(k + 1) * limit]? = some b) :
    ∃ lost ∈ rest, ∀ fuel pages, fetchPages key limit fetch fuel i before = some pages →
      lost ∉ pages.flatten := by
  -- by induction on the number of full pages before the tied boundary
  induction k generalizing done rest i before with
  | zero =>
    rw [zero_add, one_mul] at ha hb
    exact ⟨b, List.mem_of_getElem? hb,
      fun _ _ => misses_tied hlimit hserves hnodup htie hsplit hfetch ha hb⟩
  | succ k ih =>
    have hmul : (k + 1 + 1) * limit = limit + (k + 1) * limit := by ring
    have hpos : 0 < (k + 1) * limit := Nat.mul_pos (Nat.succ_pos k) hlimit
    obtain ⟨hlen, -⟩ := List.getElem?_eq_some_iff.mp hb
    obtain ⟨c, hlast, hget, hcursor⟩ := cursorAfter_take key hlimit
      (show limit ≤ rest.length by omega)
    by_cases hfirst : ∃ d, (rest.drop limit).head? = some d ∧ key c = key d
    · obtain ⟨d, hd, hcd⟩ := hfirst
      rw [List.head?_drop] at hd
      exact ⟨d, List.mem_of_getElem? hd,
        fun _ _ => misses_tied hlimit hserves hnodup hcd hsplit hfetch hget hd⟩
    · have hnext := hserves.after hsorted hsplit hlast (fun d hd hcd => hfirst ⟨d, hd, hcd⟩) i
      have hsplit' : rows = (done ++ rest.take limit) ++ rest.drop limit := by
        rw [List.append_assoc, List.take_append_drop, hsplit]
      have ha' : (rest.drop limit)[(k + 1) * limit - 1]? = some a := by
        rw [List.getElem?_drop, ← ha]
        congr 1
        omega
      have hb' : (rest.drop limit)[(k + 1) * limit]? = some b := by
        rw [List.getElem?_drop, ← hb, hmul]
      obtain ⟨lost, hlost, hmiss⟩ := ih hsplit' hnext ha' hb'
      exact ⟨lost, List.mem_of_mem_drop hlost, fun fuel pages hpages =>
        not_mem_fetchPages hnodup hsplit hfetch hcursor hlost hmiss hpages⟩

/-- When some page ends between two rows of one key, a row of the listing is on no
    page, however long the reading goes on. -/
theorem fetchPages_misses (hlimit : 0 < limit) (hserves : Serves key limit rows fetch)
    (hsorted : Descending key rows) (hnodup : rows.Nodup) (htied : ¬ Apart key limit rows) :
    ∃ lost ∈ rows, ∀ fuel pages, fetchPages key limit fetch fuel 0 none = some pages →
      lost ∉ pages.flatten := by
  simp only [Apart, not_forall, not_not] at htied
  obtain ⟨k, a, b, ha, hb, htie⟩ := htied
  exact misses_rest hlimit hserves hsorted hnodup k htie (List.nil_append rows).symm hserves.first
    ha hb

/-! ## Rows between others -/

/-- The last row of a page has the smallest key. -/
theorem Descending.getLast?_le {page : List α} (hsorted : Descending key page) {last a : α}
    (hlast : page.getLast? = some last) (ha : a ∈ page) : key last ≤ key a := by
  obtain ⟨page, rfl⟩ := List.getLast?_eq_some_iff.mp hlast
  rcases List.mem_append.mp ha with ha | ha
  · exact (List.pairwise_append.mp hsorted).2.2 a ha last (List.mem_singleton_self last)
  · rw [List.mem_singleton.mp ha]

/-- A row that a page leaves out is below the last row of the page, which is full. -/
theorem Descending.mem_take_or (hsorted : Descending key rows) (hlimit : 0 < limit) {a : α}
    (ha : a ∈ rows) :
    a ∈ rows.take limit ∨ (rows.take limit).length = limit ∧
      ∃ last, (rows.take limit).getLast? = some last ∧ key a ≤ key last := by
  have hsplit := List.take_append_drop limit rows
  rw [← hsplit] at ha
  rcases List.mem_append.mp ha with ha | ha
  · exact .inl ha
  · right
    have hlong : limit ≤ rows.length := by
      have hpos := List.length_pos_of_mem ha
      rw [List.length_drop] at hpos
      omega
    obtain ⟨last, hlast, -, -⟩ := cursorAfter_take key hlimit hlong
    refine ⟨by simpa using hlong, last, hlast, ?_⟩
    rw [Descending, ← hsplit, List.pairwise_append] at hsorted
    exact hsorted.2.2 last (List.mem_of_getLast? hlast) a ha

/-- The key of `e` lies between those of two rows of `p`. -/
def Spanned (key : α → κ) (p : α → Prop) (e : α) : Prop :=
  (∃ a, p a ∧ key a ≤ key e) ∧ ∃ b, p b ∧ key e ≤ key b

theorem Spanned.mono {p q : α → Prop} {e : α} (h : Spanned key p e) (hpq : ∀ a, p a → q a) :
    Spanned key q e := by
  obtain ⟨⟨a, ha, hae⟩, b, hb, heb⟩ := h
  exact ⟨⟨a, hpq a ha, hae⟩, b, hpq b hb, heb⟩

/-- What one more element spans, it spans with one of the others, or the others do. -/
theorem Spanned.of_insert {p : α → Prop} {x e : α} (h : Spanned key (fun a => p a ∨ a = x) e) :
    Spanned key p e ∨ ∃ a, (p a ∨ a = x) ∧
      (key a ≤ key e ∧ key e ≤ key x ∨ key x ≤ key e ∧ key e ≤ key a) := by
  obtain ⟨⟨a, ha | rfl, hae⟩, b, hb, heb⟩ := h
  · rcases hb with hb | rfl
    · exact .inl ⟨⟨a, ha, hae⟩, b, hb, heb⟩
    · exact .inr ⟨a, .inl ha, .inl ⟨hae, heb⟩⟩
  · exact .inr ⟨b, hb, .inr ⟨hae, heb⟩⟩

/-- The rows `p` have one of key `c`, and the pages `q`, unless they are empty, one from
    there on. What lies between two rows of both lies between two of one of them, or
    between `c` and a row of the pages. -/
theorem spanned_or {p q : α → Prop} {c : κ} {e : α} (hp : ∃ a, p a ∧ key a = c)
    (hq : ∀ a, q a → ∃ b, q b ∧ c ≤ key b) (h : Spanned key (fun a => p a ∨ q a) e) :
    Spanned key p e ∨ Spanned key q e ∨ c < key e ∧ ∃ b, q b ∧ key e ≤ key b := by
  obtain ⟨anchor, hanchor, hkey⟩ := hp
  obtain ⟨⟨a, ha, hae⟩, b, hb, heb⟩ := h
  rcases lt_or_ge c (key e) with hc | hc
  · rcases hb with hb | hb
    · exact .inl ⟨⟨anchor, hanchor, by rw [hkey]; exact hc.le⟩, b, hb, heb⟩
    · exact .inr (.inr ⟨hc, b, hb, heb⟩)
  · rcases ha with ha | ha
    · exact .inl ⟨⟨a, ha, hae⟩, anchor, hanchor, by rw [hkey]; exact hc⟩
    · obtain ⟨top, htop, hle⟩ := hq a ha
      exact .inr (.inl ⟨⟨a, ha, hae⟩, top, htop, hc.trans hle⟩)

end ConvoyChat.Lib
