import ConvoyChat.Frontend.Confluence
import ConvoyChat.Lib.Rows
import ConvoyChat.Lib.Sorting
import Mathlib.Data.Prod.Lex
import Mathlib.Order.Basic
import Mathlib.Data.List.Find
import Mathlib.Data.List.Induction

/-!
# The order in which messages are displayed

`flattenSortedDedup` (`frontend/lib/messagesCache.ts` lines 334–345) keeps one copy of each
message and sorts the copies by `new Date(created_at).getTime()`, then by `localeCompare` of
the ids. `ListRoomMessages` (`internal/store/messages.go` lines 72–79) sorts the rows by
`created_at`, then by id; `created_at` has microseconds, and `Date` keeps milliseconds.

* `mem_flattenSortedDedup`: the copy of each message that is displayed.
* `flattenSortedDedup_sorted`: what the list holds and in which order, and that pages do not
  matter.
* `displayed_iff`: the list is in the server's order exactly when no two messages of one
  millisecond have their ids in the opposite order.
-/

namespace ConvoyChat.Frontend

open ConvoyChat.Lib

/-! ## The copy that is kept -/

/-- The first confirmed copy of message `id`; the first copy if none is confirmed. -/
def chosenCopy (held : List ChatMessage) (id : String) : Option ChatMessage :=
  (held.find? fun m => m.id = id && m.status.isNone).or (held.find? fun m => m.id = id)

/-- A confirmed copy is not overwritten, any other one is by the first confirmed copy. -/
def nextCopy (m : ChatMessage) : Option ChatMessage → ChatMessage
  | none => m
  | some existing => if existing.status.isSome && m.status.isNone then m else existing

/-- Replacing the copy of `m` keeps every copy where it stands. -/
theorem find?_replace (byId : List ChatMessage) (m : ChatMessage) (id : String) :
    ((byId.map fun x => if x.id = m.id then m else x).find? fun x => x.id = id) =
      (byId.find? fun x => x.id = id).map fun x => if x.id = m.id then m else x := by
  have hsame :
    (fun x : ChatMessage => decide (x.id = id)) ∘ (fun x => if x.id = m.id then m else x) =
      fun x => decide (x.id = id) := by
    funext x
    by_cases hx : x.id = m.id
    · simp [hx]
    · simp [hx]
  rw [List.find?_map, hsame]

theorem find?_setById (byId : List ChatMessage) (m : ChatMessage) (id : String) :
    ((setById byId m).find? fun x => x.id = id) =
      if m.id = id then some (nextCopy m (byId.find? fun x => x.id = id))
      else byId.find? fun x => x.id = id := by
  unfold setById
  split_ifs with hid
  · subst hid
    cases hfind : byId.find? fun x => x.id = m.id with
    | none => simp [hfind, nextCopy]
    | some existing =>
      simp only [nextCopy]
      split_ifs with hnewer
      · have hid : existing.id = m.id := by simpa using List.find?_some hfind
        rw [find?_replace, hfind]
        simp [hid]
      · exact hfind
  · cases hfind : byId.find? fun x => x.id = m.id with
    | none => simp [hid]
    | some existing =>
      dsimp only
      split_ifs with hnewer
      · rw [find?_replace]
        cases hother : byId.find? fun x => x.id = id with
        | none => rfl
        | some x =>
          have hx : x.id = id := by simpa using List.find?_some hother
          have hne : ¬ x.id = m.id := fun h => hid (h.symm.trans hx)
          simp [hne]
      · rfl

theorem chosenCopy_append (held : List ChatMessage) (m : ChatMessage) (id : String) :
    chosenCopy (held ++ [m]) id =
      if m.id = id then some (nextCopy m (chosenCopy held id)) else chosenCopy held id := by
  unfold chosenCopy
  rw [List.find?_append, List.find?_append]
  split_ifs with hid
  · cases hconfirmed : held.find? fun x => x.id = id && x.status.isNone with
    | some existing =>
      have hnone : existing.status = none := by
        have := List.find?_some hconfirmed
        simp at this
        exact this.2
      simp [nextCopy, hnone]
    | none =>
      cases hfirst : held.find? fun x => x.id = id with
      | none => cases hm : m.status <;> simp [hid, hm, nextCopy]
      | some existing =>
        -- the first copy is not confirmed, as no copy is
        have hsome : existing.status.isSome = true := by
          have hno := List.find?_eq_none.mp hconfirmed existing (List.mem_of_find?_eq_some hfirst)
          have hexisting : existing.id = id := by simpa using List.find?_some hfirst
          simpa [hexisting, Option.isSome_iff_ne_none] using hno
        cases hm : m.status <;> simp [hid, hm, nextCopy, hsome]
  · simp [hid]

/-- The map holds the chosen copy under each id. -/
theorem find?_foldl_setById (held : List ChatMessage) (id : String) :
    ((held.foldl setById []).find? fun x => x.id = id) = chosenCopy held id := by
  induction held using List.reverseRecOn with
  | nil => rfl
  | append_singleton held m ih =>
    rw [List.foldl_append, List.foldl_cons, List.foldl_nil, find?_setById, chosenCopy_append, ih]

theorem mem_foldl_setById {held : List ChatMessage} {x : ChatMessage} :
    x ∈ held.foldl setById [] ↔ chosenCopy held x.id = some x := by
  rw [← find?_foldl_setById]
  constructor
  · intro hx
    cases hfind : (held.foldl setById []).find? fun y => y.id = x.id with
    | none => exact absurd (decide_eq_true rfl) (List.find?_eq_none.mp hfind x hx)
    | some y =>
      have hnodup := (setById_ids held [] List.nodup_nil).1
      have hid : y.id = x.id := by simpa using List.find?_some hfind
      rw [List.inj_on_of_nodup_map hnodup (List.mem_of_find?_eq_some hfind) hx hid]
  · intro hfind
    exact List.mem_of_find?_eq_some hfind

theorem mem_of_chosenCopy {held : List ChatMessage} {id : String} {x : ChatMessage}
    (h : chosenCopy held id = some x) : x ∈ held ∧ x.id = id := by
  unfold chosenCopy at h
  rcases Option.or_eq_some_iff.mp h with hfind | ⟨-, hfind⟩
  · have hpred := List.find?_some hfind
    simp only [Bool.and_eq_true, decide_eq_true_eq] at hpred
    exact ⟨List.mem_of_find?_eq_some hfind, hpred.1⟩
  · exact ⟨List.mem_of_find?_eq_some hfind, by simpa using List.find?_some hfind⟩

/-! ## The order -/

/-- `localeCompare` orders the texts `ids` totally. -/
structure Orders (localeCompare : String → String → ℤ) (ids : List String) : Prop where
  eq_zero : ∀ a ∈ ids, ∀ b ∈ ids, localeCompare a b = 0 ↔ a = b
  swap : ∀ a ∈ ids, ∀ b ∈ ids, 0 < localeCompare a b ↔ localeCompare b a < 0
  trans : ∀ a ∈ ids, ∀ b ∈ ids, ∀ c ∈ ids,
    localeCompare a b < 0 → localeCompare b c < 0 → localeCompare a c < 0

/-- `a` comes before `b` by time, or by id at the same time. -/
def Before (time : String → Option ℤ) (localeCompare : String → String → ℤ) (a b : ChatMessage) :
    Prop :=
  ∃ s t, time a.createdAt = some s ∧ time b.createdAt = some t ∧
    (s < t ∨ s = t ∧ localeCompare a.id b.id < 0)

/-- The times of the messages parse and their ids are ordered. -/
structure Comparable (time : String → Option ℤ) (localeCompare : String → String → ℤ)
    (held : List ChatMessage) : Prop where
  time : ∀ m ∈ held, (time m.createdAt).isSome
  ids : Orders localeCompare (held.map (·.id))

section

variable {time : String → Option ℤ} {localeCompare : String → String → ℤ}
  {data data' : Option MessagesData} {held : List ChatMessage} {a b c : ChatMessage}

theorem mem_flattenSortedDedup :
    a ∈ flattenSortedDedup time localeCompare data ↔
      chosenCopy (pagesOf data).flatten a.id = some a := by
  rw [flattenSortedDedup, List.mem_mergeSort]
  exact mem_foldl_setById

theorem held_of_mem (ha : a ∈ flattenSortedDedup time localeCompare data) :
    a ∈ (pagesOf data).flatten :=
  (mem_of_chosenCopy (mem_flattenSortedDedup.mp ha)).1

variable (time localeCompare data) in
theorem flattenSortedDedup_ids :
    ((flattenSortedDedup time localeCompare data).map (·.id)).Nodup ∧
      ∀ id, id ∈ (flattenSortedDedup time localeCompare data).map (·.id) ↔
        ∃ m ∈ (pagesOf data).flatten, m.id = id := by
  obtain ⟨hnodup, hids⟩ := setById_ids (pagesOf data).flatten [] List.nodup_nil
  have hperm : ((flattenSortedDedup time localeCompare data).map (·.id)).Perm
      (((pagesOf data).flatten.foldl setById []).map (·.id)) :=
    (List.mergeSort_perm _ _).map _
  refine ⟨hperm.nodup_iff.mpr hnodup, fun id => ?_⟩
  rw [hperm.mem_iff, hids id]
  simp

theorem before_iff {s t : ℤ} (hs : time a.createdAt = some s) (ht : time b.createdAt = some t) :
    Before time localeCompare a b ↔ s < t ∨ s = t ∧ localeCompare a.id b.id < 0 := by
  simp only [Before, hs, ht, Option.some.injEq]
  constructor
  · rintro ⟨s', t', rfl, rfl, hlt⟩
    exact hlt
  · intro hlt
    exact ⟨s, t, rfl, rfl, hlt⟩

namespace Comparable

variable (h : Comparable time localeCompare held)
include h

theorem parses (ha : a ∈ held) : ∃ s, time a.createdAt = some s :=
  Option.isSome_iff_exists.mp (h.time a ha)

theorem compare_le (ha : a ∈ held) (hb : b ∈ held) :
    compareMessages time localeCompare a b ≤ 0 ↔ ¬ Before time localeCompare b a := by
  obtain ⟨s, hs⟩ := h.parses ha
  obtain ⟨t, ht⟩ := h.parses hb
  have hswap := h.ids.swap a.id (List.mem_map_of_mem ha) b.id (List.mem_map_of_mem hb)
  rw [before_iff ht hs, compareMessages, hs, ht]
  dsimp only
  split_ifs with hne
  · omega
  · omega

theorem before_asymm (ha : a ∈ held) (hb : b ∈ held) (hab : Before time localeCompare a b) :
    ¬ Before time localeCompare b a := by
  obtain ⟨s, hs⟩ := h.parses ha
  obtain ⟨t, ht⟩ := h.parses hb
  have hswap := h.ids.swap b.id (List.mem_map_of_mem hb) a.id (List.mem_map_of_mem ha)
  rw [before_iff hs ht] at hab
  rw [before_iff ht hs]
  omega

theorem before_trans (ha : a ∈ held) (hb : b ∈ held) (hc : c ∈ held)
    (hab : Before time localeCompare a b) (hbc : Before time localeCompare b c) :
    Before time localeCompare a c := by
  obtain ⟨s, hs⟩ := h.parses ha
  obtain ⟨t, ht⟩ := h.parses hb
  obtain ⟨u, hu⟩ := h.parses hc
  have htrans := h.ids.trans a.id (List.mem_map_of_mem ha) b.id (List.mem_map_of_mem hb)
    c.id (List.mem_map_of_mem hc)
  rw [before_iff hs ht] at hab
  rw [before_iff ht hu] at hbc
  rw [before_iff hs hu]
  omega

theorem before_total (ha : a ∈ held) (hb : b ∈ held) (hne : a.id ≠ b.id) :
    Before time localeCompare a b ∨ Before time localeCompare b a := by
  obtain ⟨s, hs⟩ := h.parses ha
  obtain ⟨t, ht⟩ := h.parses hb
  have hne' : localeCompare a.id b.id ≠ 0 := fun hzero =>
    hne ((h.ids.eq_zero a.id (List.mem_map_of_mem ha) b.id (List.mem_map_of_mem hb)).mp hzero)
  have hswap := h.ids.swap a.id (List.mem_map_of_mem ha) b.id (List.mem_map_of_mem hb)
  rw [before_iff hs ht, before_iff ht hs]
  omega

end Comparable

/-- Copies in the map with the same id are the same. -/
theorem copy_unique (ha : a ∈ (pagesOf data).flatten.foldl setById [])
    (hb : b ∈ (pagesOf data).flatten.foldl setById []) (hid : a.id = b.id) : a = b :=
  List.inj_on_of_nodup_map (setById_ids _ [] List.nodup_nil).1 ha hb hid

theorem copy_held (ha : a ∈ (pagesOf data).flatten.foldl setById []) : a ∈ (pagesOf data).flatten :=
  (mem_of_chosenCopy (mem_foldl_setById.mp ha)).1

/-- On the copies of the map the comparison is the order. -/
theorem Comparable.compare_copies (h : Comparable time localeCompare (pagesOf data).flatten)
    (ha : a ∈ (pagesOf data).flatten.foldl setById [])
      (hb : b ∈ (pagesOf data).flatten.foldl setById []) :
    compareMessages time localeCompare a b ≤ 0 ↔ a = b ∨ Before time localeCompare a b := by
  have haheld := copy_held ha
  have hbheld := copy_held hb
  rw [h.compare_le haheld hbheld]
  constructor
  · intro hnot
    by_cases hid : a.id = b.id
    · exact .inl (copy_unique ha hb hid)
    · exact .inr ((h.before_total haheld hbheld hid).resolve_right hnot)
  · rintro (rfl | hab)
    · intro haa
      exact h.before_asymm haheld haheld haa haa
    · exact h.before_asymm haheld hbheld hab

theorem flattenSortedDedup_pairwise (h : Comparable time localeCompare (pagesOf data).flatten) :
    (flattenSortedDedup time localeCompare data).Pairwise (Before time localeCompare) := by
  have hsorted : (flattenSortedDedup time localeCompare data).Pairwise fun x y =>
      decide (compareMessages time localeCompare x y ≤ 0) = true := by
    apply pairwise_mergeSort_of_mem
    · intro x hx y hy z hz hxy hyz
      rw [decide_eq_true_eq] at hxy hyz ⊢
      rw [h.compare_copies hx hy] at hxy
      rw [h.compare_copies hy hz] at hyz
      rw [h.compare_copies hx hz]
      rcases hxy with rfl | hxy
      · exact hyz
      · rcases hyz with rfl | hyz
        · exact .inr hxy
        · exact .inr (h.before_trans (copy_held hx) (copy_held hy) (copy_held hz) hxy hyz)
    · intro x hx y hy
      rw [Bool.or_eq_true, decide_eq_true_eq, decide_eq_true_eq, h.compare_copies hx hy,
        h.compare_copies hy hx]
      by_cases hid : x.id = y.id
      · exact .inl (.inl (copy_unique hx hy hid))
      · exact (h.before_total (copy_held hx) (copy_held hy) hid).imp .inr .inr
  have hdistinct := List.pairwise_map.mp (flattenSortedDedup_ids time localeCompare data).1
  refine (hsorted.and hdistinct).imp_of_mem ?_
  intro x y hx hy hxy
  rw [decide_eq_true_eq, h.compare_copies (List.mem_mergeSort.mp hx)
    (List.mem_mergeSort.mp hy)] at hxy
  rcases hxy.1 with rfl | hbefore
  · exact absurd rfl hxy.2
  · exact hbefore

/-- The chosen copy depends only on which copies there are, when copies with the same id
    that are both confirmed or both unconfirmed are the same. -/
theorem chosenCopy_congr {held' : List ChatMessage} (hmem : ∀ x, x ∈ held ↔ x ∈ held')
    (hcopies : ∀ x ∈ held, ∀ y ∈ held, x.id = y.id → x.status.isNone = y.status.isNone → x = y)
    (id : String) : chosenCopy held id = chosenCopy held' id := by
  have hconfirmed : (held.find? fun m => m.id = id && m.status.isNone) =
      held'.find? fun m => m.id = id && m.status.isNone := by
    apply find?_eq_of_mem_iff hmem
    intro x hx y hy hpx hpy
    simp only [Bool.and_eq_true, decide_eq_true_eq] at hpx hpy
    exact hcopies x hx y hy (hpx.1.trans hpy.1.symm) (hpx.2.trans hpy.2.symm)
  unfold chosenCopy
  rw [hconfirmed]
  cases hnone : held'.find? fun m => m.id = id && m.status.isNone with
  | some x => rfl
  | none =>
    -- then every copy of this id is unconfirmed
    have hopen : ∀ x ∈ held, x.id = id → x.status.isNone = false := by
      intro x hx hid
      have hno := List.find?_eq_none.mp (hconfirmed.trans hnone) x hx
      rw [Option.isNone_eq_false_iff, Option.isSome_iff_ne_none]
      simpa [hid] using hno
    have hfirst : (held.find? fun m => m.id = id) = held'.find? fun m => m.id = id := by
      apply find?_eq_of_mem_iff hmem
      intro x hx y hy hpx hpy
      rw [decide_eq_true_eq] at hpx hpy
      exact hcopies x hx y hy (hpx.trans hpy.symm) ((hopen x hx hpx).trans (hopen y hy hpy).symm)
    rw [hfirst]

/-- Caches with the same copies, in any pages and in any order, display the same. -/
theorem flattenSortedDedup_congr (h : Comparable time localeCompare (pagesOf data).flatten)
    (hmem : ∀ x, x ∈ (pagesOf data).flatten ↔ x ∈ (pagesOf data').flatten)
    (hcopies : ∀ x ∈ (pagesOf data).flatten, ∀ y ∈ (pagesOf data).flatten, x.id = y.id →
      x.status.isNone = y.status.isNone → x = y) :
    flattenSortedDedup time localeCompare data = flattenSortedDedup time localeCompare data' := by
  have hids : ∀ id, id ∈ (pagesOf data').flatten.map (·.id) →
      id ∈ (pagesOf data).flatten.map (·.id) := by
    intro id hid
    obtain ⟨x, hx, rfl⟩ := List.mem_map.mp hid
    exact List.mem_map_of_mem ((hmem x).mpr hx)
  have h' : Comparable time localeCompare (pagesOf data').flatten :=
    { time := fun m hm => h.time m ((hmem m).mpr hm)
      ids :=
        { eq_zero := fun a ha b hb => h.ids.eq_zero a (hids a ha) b (hids b hb)
          swap := fun a ha b hb => h.ids.swap a (hids a ha) b (hids b hb)
          trans := fun a ha b hb c hc => h.ids.trans a (hids a ha) b (hids b hb) c (hids c hc) } }
  have hasymm : ∀ x ∈ flattenSortedDedup time localeCompare data,
      ∀ y ∈ flattenSortedDedup time localeCompare data,
      Before time localeCompare x y → ¬ Before time localeCompare y x :=
    fun x hx y hy => h.before_asymm (held_of_mem hx) (held_of_mem hy)
  refine eq_of_pairwise_of_mem_iff hasymm (flattenSortedDedup_pairwise h)
    (flattenSortedDedup_pairwise h') ?_
  intro x
  rw [mem_flattenSortedDedup, mem_flattenSortedDedup, chosenCopy_congr hmem hcopies]

end

/-- The list is strictly increasing in `(time, id)`, holds every id of the cache once, in
    the chosen copy, and depends neither on the pages nor on the order within them. -/
theorem flattenSortedDedup_sorted (time : String → Option ℤ)
    (localeCompare : String → String → ℤ) (data : Option MessagesData)
    (h : Comparable time localeCompare (pagesOf data).flatten) :
    (flattenSortedDedup time localeCompare data).Pairwise (Before time localeCompare) ∧
      ((flattenSortedDedup time localeCompare data).map (·.id)).Nodup ∧
      (∀ id, id ∈ (flattenSortedDedup time localeCompare data).map (·.id) ↔
        ∃ m ∈ (pagesOf data).flatten, m.id = id) ∧
      (∀ x ∈ flattenSortedDedup time localeCompare data,
        chosenCopy (pagesOf data).flatten x.id = some x) ∧
      ((∀ x ∈ (pagesOf data).flatten, ∀ y ∈ (pagesOf data).flatten, x.id = y.id →
          x.status.isNone = y.status.isNone → x = y) →
        ∀ data' : Option MessagesData, (pagesOf data).flatten.Perm (pagesOf data').flatten →
          flattenSortedDedup time localeCompare data' =
            flattenSortedDedup time localeCompare data) := by
  refine ⟨flattenSortedDedup_pairwise h, (flattenSortedDedup_ids time localeCompare data).1,
    (flattenSortedDedup_ids time localeCompare data).2, fun x hx =>
      mem_flattenSortedDedup.mp hx, ?_⟩
  intro hcopies data' hperm
  exact (flattenSortedDedup_congr h (fun x => hperm.mem_iff) hcopies).symm

/-- `new Date(createdAt).getTime()` of the texts that are used below. -/
def sampleTime (createdAt : String) : Option ℤ :=
  if createdAt = "2026-07-05T15:30:00.123401Z" then some 1783265400123
  else if createdAt = "2026-07-05T15:30:00.123456Z" then some 1783265400123
  else if createdAt = "2026-07-05T15:30:01Z" then some 1783265401000
  else none

def earlyId : String := "3f2504e0-4f89-41d3-9a0c-0305e82c3301"

def lateId : String := "9b1deb4d-3b7d-4bad-9bdd-2b0d7b3dcb6d"

def messageAt (id createdAt : String) : ChatMessage :=
  { confirmedMessage id "alice" "hello" with createdAt := createdAt }

/-- A message in two pages, in one of them still as a bubble. -/
def overlappingCache : MessagesData :=
  ⟨[[messageAt lateId "2026-07-05T15:30:01Z",
      { messageAt earlyId "2026-07-05T15:30:01Z" with status := some .sending }],
    [messageAt earlyId "2026-07-05T15:30:00.123401Z", messageAt lateId "2026-07-05T15:30:01Z"]],
    [none, none]⟩

theorem flattenSortedDedup_sorted_overlapping :
    (flattenSortedDedup sampleTime compareTexts (some overlappingCache)).Pairwise
        (Before sampleTime compareTexts) ∧
      flattenSortedDedup sampleTime compareTexts
          (some ⟨[(pagesOf (some overlappingCache)).flatten.reverse], [none]⟩) =
        flattenSortedDedup sampleTime compareTexts (some overlappingCache) := by
  have hspec := flattenSortedDedup_sorted sampleTime compareTexts (some overlappingCache)
    { time := by decide
      ids := { eq_zero := by decide, swap := by decide, trans := by decide } }
  refine ⟨hspec.1, hspec.2.2.2.2 (by decide) _ ?_⟩
  show (pagesOf (some overlappingCache)).flatten.Perm ([_] : List MessagesPage).flatten
  rw [List.flatten_singleton]
  exact (List.reverse_perm _).symm

/-! ## The server's order -/

/-- The cache holds the server's texts: `micros` is the instant of a `created_at`, of which
    `Date` keeps the milliseconds, and `uuid` the number that an id spells; `localeCompare`
    orders the spellings as the numbers. -/
structure FromServer (time : String → Option ℤ) (localeCompare : String → String → ℤ)
    (micros : String → ℤ) (uuid : String → ℕ) (held : List ChatMessage) : Prop where
  time : ∀ m ∈ held, time m.createdAt = some (micros m.createdAt / 1000)
  less : ∀ a ∈ held, ∀ b ∈ held, localeCompare a.id b.id < 0 ↔ uuid a.id < uuid b.id
  equal : ∀ a ∈ held, ∀ b ∈ held, localeCompare a.id b.id = 0 ↔ a.id = b.id
  uuid_inj : ∀ a ∈ held, ∀ b ∈ held, uuid a.id = uuid b.id → a.id = b.id

/-- `ORDER BY m.created_at, m.id`. -/
def ServerBefore (micros : String → ℤ) (uuid : String → ℕ) (a b : ChatMessage) : Prop :=
  toLex (micros a.createdAt, uuid a.id) < toLex (micros b.createdAt, uuid b.id)

/-- `m` is the first copy of its message. -/
def IsFirstCopy (held : List ChatMessage) (m : ChatMessage) : Prop :=
  (held.find? fun x => x.id = m.id) = some m

/-- Two messages of one millisecond whose ids are in the opposite order. -/
def Crossed (micros : String → ℤ) (uuid : String → ℕ) (a b : ChatMessage) : Prop :=
  micros a.createdAt / 1000 = micros b.createdAt / 1000 ∧
    micros a.createdAt < micros b.createdAt ∧ uuid b.id < uuid a.id

section

variable {time : String → Option ℤ} {localeCompare : String → String → ℤ}
  {micros : String → ℤ} {uuid : String → ℕ} {held : List ChatMessage}
  {data : Option MessagesData} {a b : ChatMessage}

theorem FromServer.comparable (h : FromServer time localeCompare micros uuid held) :
    Comparable time localeCompare held where
  time m hm := by rw [h.time m hm]; rfl
  ids :=
    { eq_zero := by
        intro s hs t ht
        obtain ⟨a, ha, rfl⟩ := List.mem_map.mp hs
        obtain ⟨b, hb, rfl⟩ := List.mem_map.mp ht
        exact h.equal a ha b hb
      swap := by
        intro s hs t ht
        obtain ⟨a, ha, rfl⟩ := List.mem_map.mp hs
        obtain ⟨b, hb, rfl⟩ := List.mem_map.mp ht
        have hab := h.less a ha b hb
        have hba := h.less b hb a ha
        have hzero : localeCompare a.id b.id = 0 ↔ uuid a.id = uuid b.id := by
          rw [h.equal a ha b hb]
          exact ⟨fun hid => by rw [hid], h.uuid_inj a ha b hb⟩
        omega
      trans := by
        intro s hs t ht u hu
        obtain ⟨a, ha, rfl⟩ := List.mem_map.mp hs
        obtain ⟨b, hb, rfl⟩ := List.mem_map.mp ht
        obtain ⟨c, hc, rfl⟩ := List.mem_map.mp hu
        rw [h.less a ha b hb, h.less b hb c hc, h.less a ha c hc]
        exact lt_trans }

/-- The client's order looks at milliseconds, then at ids. -/
theorem FromServer.before_iff (h : FromServer time localeCompare micros uuid held) (ha : a ∈ held)
    (hb : b ∈ held) :
    Before time localeCompare a b ↔ micros a.createdAt / 1000 < micros b.createdAt / 1000 ∨
      micros a.createdAt / 1000 = micros b.createdAt / 1000 ∧ uuid a.id < uuid b.id := by
  rw [Frontend.before_iff (h.time a ha) (h.time b hb), h.less a ha b hb]

theorem serverBefore_iff :
    ServerBefore micros uuid a b ↔ micros a.createdAt < micros b.createdAt ∨
      micros a.createdAt = micros b.createdAt ∧ uuid a.id < uuid b.id :=
  Prod.Lex.toLex_lt_toLex

/-- Who is displayed before whom. -/
theorem FromServer.displayed_before_iff
    (h : FromServer time localeCompare micros uuid (pagesOf data).flatten)
    (ha : a ∈ flattenSortedDedup time localeCompare data)
    (hb : b ∈ flattenSortedDedup time localeCompare data) :
    [a, b].Sublist (flattenSortedDedup time localeCompare data) ↔
      micros a.createdAt / 1000 < micros b.createdAt / 1000 ∨
        micros a.createdAt / 1000 = micros b.createdAt / 1000 ∧ uuid a.id < uuid b.id := by
  have hasymm : ∀ x ∈ flattenSortedDedup time localeCompare data,
      ∀ y ∈ flattenSortedDedup time localeCompare data,
      Before time localeCompare x y → ¬ Before time localeCompare y x :=
    fun x hx y hy => h.comparable.before_asymm (held_of_mem hx) (held_of_mem hy)
  rw [pair_sublist_iff_of_pairwise hasymm (flattenSortedDedup_pairwise h.comparable) ha hb]
  exact h.before_iff (held_of_mem ha) (held_of_mem hb)

/-- Without bubbles, the copy that is displayed is the first one. -/
theorem isFirstCopy_iff (hconfirmed : ∀ m ∈ held, m.status = none) :
    IsFirstCopy held a ↔ chosenCopy held a.id = some a := by
  have hsame : (held.find? fun x => x.id = a.id && x.status.isNone) =
      held.find? fun x => x.id = a.id := by
    apply List.find?_congr
    intro x hx
    rw [hconfirmed x hx]
    simp
  unfold IsFirstCopy chosenCopy
  rw [hsame, Option.or_self]

end

/-- Confirmed messages are displayed in the server's order if and only if no two of one
    millisecond have their ids in the opposite order. -/
theorem displayed_iff (time : String → Option ℤ) (localeCompare : String → String → ℤ)
    (micros : String → ℤ) (uuid : String → ℕ) (data : Option MessagesData)
    (h : FromServer time localeCompare micros uuid (pagesOf data).flatten)
    (hconfirmed : ∀ m ∈ (pagesOf data).flatten, m.status = none) :
    (∀ a ∈ flattenSortedDedup time localeCompare data,
      ∀ b ∈ flattenSortedDedup time localeCompare data, ServerBefore micros uuid a b →
        [a, b].Sublist (flattenSortedDedup time localeCompare data)) ↔
      ∀ a b, IsFirstCopy (pagesOf data).flatten a → IsFirstCopy (pagesOf data).flatten b →
        ¬ Crossed micros uuid a b := by
  have hmem : ∀ x, x ∈ flattenSortedDedup time localeCompare data ↔
      IsFirstCopy (pagesOf data).flatten x := by
    intro x
    rw [mem_flattenSortedDedup, isFirstCopy_iff hconfirmed]
  constructor
  · rintro hserver a b ha hb ⟨hms, hmicros, hid⟩
    rw [← hmem] at ha hb
    have hsub := hserver a ha b hb (serverBefore_iff.mpr (.inl hmicros))
    rw [h.displayed_before_iff ha hb] at hsub
    omega
  · intro hfree a ha b hb hserver
    have hnot := hfree a b ((hmem a).mp ha) ((hmem b).mp hb)
    rw [serverBefore_iff] at hserver
    rw [h.displayed_before_iff ha hb]
    by_cases hid : uuid a.id = uuid b.id
    · -- one message has one instant
      have hsame : a = b :=
        List.inj_on_of_nodup_map (flattenSortedDedup_ids time localeCompare data).1
        ha hb (h.uuid_inj a (held_of_mem ha) b (held_of_mem hb) hid)
      rw [hsame] at hserver
      omega
    · unfold Crossed at hnot
      omega

/-- The instants of the texts above, in microseconds. -/
def sampleMicros (createdAt : String) : ℤ :=
  if createdAt = "2026-07-05T15:30:00.123401Z" then 1783265400123401
  else if createdAt = "2026-07-05T15:30:00.123456Z" then 1783265400123456
  else if createdAt = "2026-07-05T15:30:01Z" then 1783265401000000
  else 0

/-- The number that an id spells. -/
def hexValue (id : String) : ℕ :=
  id.toList.foldl (fun n c =>
    if c = '-' then n
    else 16 * n + if c.isDigit then c.toNat - '0'.toNat else c.toNat - 'a'.toNat + 10) 0

/-- Two messages of one burst, in the order of their ids. -/
def alignedBurst : MessagesData :=
  ⟨[[messageAt lateId "2026-07-05T15:30:00.123456Z",
    messageAt earlyId "2026-07-05T15:30:00.123401Z"]], [none]⟩

/-- The same burst, the second message with the smaller id. -/
def crossedBurst : MessagesData :=
  ⟨[[messageAt earlyId "2026-07-05T15:30:00.123456Z",
    messageAt lateId "2026-07-05T15:30:00.123401Z"]], [none]⟩

theorem alignedBurst_fromServer :
    FromServer sampleTime compareTexts sampleMicros hexValue
      (pagesOf (some alignedBurst)).flatten :=
  ⟨by decide, by decide, by decide, by decide⟩

theorem crossedBurst_fromServer :
    FromServer sampleTime compareTexts sampleMicros hexValue
      (pagesOf (some crossedBurst)).flatten :=
  ⟨by decide, by decide, by decide, by decide⟩

theorem displayed_iff_aligned :
    [messageAt earlyId "2026-07-05T15:30:00.123401Z",
      messageAt lateId "2026-07-05T15:30:00.123456Z"].Sublist
      (flattenSortedDedup sampleTime compareTexts (some alignedBurst)) := by
  have hfree : ∀ a ∈ (pagesOf (some alignedBurst)).flatten,
      ∀ b ∈ (pagesOf (some alignedBurst)).flatten, ¬ Crossed sampleMicros hexValue a b := by
    unfold Crossed
    decide
  refine (displayed_iff _ _ _ _ _ alignedBurst_fromServer (by decide)).mpr ?_ _ ?_ _ ?_ ?_
  · intro a b ha hb
    exact hfree a (List.mem_of_find?_eq_some ha) b (List.mem_of_find?_eq_some hb)
  · rw [mem_flattenSortedDedup]
    decide
  · rw [mem_flattenSortedDedup]
    decide
  · rw [serverBefore_iff]
    decide

/-- Two messages of one millisecond: the server serves the one with the smaller id last, the
    client shows it first. -/
theorem crossedBurst_displayed :
    ServerBefore sampleMicros hexValue (messageAt lateId "2026-07-05T15:30:00.123401Z")
        (messageAt earlyId "2026-07-05T15:30:00.123456Z") ∧
      [messageAt earlyId "2026-07-05T15:30:00.123456Z",
        messageAt lateId "2026-07-05T15:30:00.123401Z"].Sublist
        (flattenSortedDedup sampleTime compareTexts (some crossedBurst)) ∧
      ¬ [messageAt lateId "2026-07-05T15:30:00.123401Z",
        messageAt earlyId "2026-07-05T15:30:00.123456Z"].Sublist
        (flattenSortedDedup sampleTime compareTexts (some crossedBurst)) := by
  have hlate : messageAt lateId "2026-07-05T15:30:00.123401Z" ∈
      flattenSortedDedup sampleTime compareTexts (some crossedBurst) := by
    rw [mem_flattenSortedDedup]
    decide
  have hearly : messageAt earlyId "2026-07-05T15:30:00.123456Z" ∈
      flattenSortedDedup sampleTime compareTexts (some crossedBurst) := by
    rw [mem_flattenSortedDedup]
    decide
  rw [serverBefore_iff, crossedBurst_fromServer.displayed_before_iff hearly hlate,
    crossedBurst_fromServer.displayed_before_iff hlate hearly]
  decide

end ConvoyChat.Frontend
