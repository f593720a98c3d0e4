import ConvoyChat.Frontend.MergeKeeps
import Mathlib.Data.Int.Notation
import Mathlib.Data.List.Nodup

/-!
# Merging in any order

The same message reaches the cache of the web client as a live echo, as the answer to a
REST send and in a resync, in any order and any number of times
(`frontend/lib/messagesCache.ts` lines 79–147), and replaces the bubble it confirms by
rule (a) or rule (c) of `applyOne`, or is held already. `flattenSortedDedup` (lines
334–345) is what the list shows.

* `merged_applyOne`: what one delivery does, whichever rule merges it.
* `upserts_confluent`: the ids that are shown do not depend on the order.
-/

namespace ConvoyChat.Frontend

/-! ## The list that is shown -/

/-- One turn of the loop of `flattenSortedDedup`; a `Map` keeps the place of a key that is
    set again. -/
def setById (byId : List ChatMessage) (m : ChatMessage) : List ChatMessage :=
  match byId.find? fun x => x.id = m.id with
  | none => byId ++ [m]
  | some existing =>
    if existing.status.isSome && m.status.isNone then
      byId.map fun x => if x.id = m.id then m else x
    else byId

section

variable (time : String → Option ℤ) (localeCompare : String → String → ℤ)

/-- The comparison of `flattenSortedDedup`; `time` is `none` where `Date` parses to `NaN`,
    and then the difference is falsy. -/
def compareMessages (a b : ChatMessage) : ℤ :=
  match time a.createdAt, time b.createdAt with
  | some s, some t => if s - t ≠ 0 then s - t else localeCompare a.id b.id
  | _, _ => localeCompare a.id b.id

/-- Model of `flattenSortedDedup`. -/
def flattenSortedDedup (data : Option MessagesData) : List ChatMessage :=
  ((pagesOf data).flatten.foldl setById []).mergeSort fun a b =>
    compareMessages time localeCompare a b ≤ 0

/-- Merge calls one after another. -/
def upserts (data : Option MessagesData) (calls : List (List IncomingMessage)) (uid : String) :
    Option MessagesData :=
  calls.foldl (fun data incoming => some (upsertMessages data incoming uid)) data

/-! ## Confirmations -/

/-- The bubble `b` waits for the message `m` of the current user. -/
def Confirms (uid : String) (m b : ChatMessage) : Prop :=
  m.user.id = uid ∧ b.status ≠ none ∧ b.content = m.content

/-- Two payloads of one message. -/
structure SameMessage (m x : ChatMessage) : Prop where
  id : x.id = m.id
  author : x.user.id = m.user.id
  content : x.content = m.content
  status : x.status = m.status

/-- The messages `messages` may be merged into the cache `held`: each of the current
    user confirms one bubble and is not held, or has the content of no bubble. -/
structure Mergeable (uid : String) (held messages : List ChatMessage) : Prop where
  ids : (held.map (·.id)).Nodup
  contents : ∀ b ∈ held, ∀ b' ∈ held, b.status ≠ none → b'.status ≠ none →
    b.content = b'.content → b = b'
  distinct : (messages.map (·.id)).Nodup
  confirmed : ∀ m ∈ messages, m.status = none
  apart : ∀ m ∈ messages, ∀ b ∈ held, b.status ≠ none → m.id ≠ b.id
  own : ∀ m ∈ messages, m.user.id = uid →
    (∃! b, b ∈ held ∧ Confirms uid m b) ∧ (∀ x ∈ held, x.id ≠ m.id) ∨
      ∀ b ∈ held, b.status ≠ none → b.content ≠ m.content

/-- `inc` delivers `m`: bare, with the nonce of its own bubble, or with the nonce of
    another client. -/
def Delivers (uid : String) (held messages : List ChatMessage) (inc : IncomingMessage)
    (m : ChatMessage) : Prop :=
  SameMessage m inc.message ∧
    (inc.clientId = none ∨ (∃ b ∈ held, Confirms uid m b ∧ inc.clientId = some b.id) ∨
      ∃ c, inc.clientId = some c ∧ (∀ x ∈ held, x.id ≠ c) ∧ ∀ x ∈ messages, x.id ≠ c)

/-- Every message is delivered at least once, and nothing else is. -/
def DeliversAll (uid : String) (held messages : List ChatMessage)
    (calls : List (List IncomingMessage)) : Prop :=
  (∀ inc ∈ calls.flatten, ∃ m ∈ messages, Delivers uid held messages inc m) ∧
    ∀ m ∈ messages, ∃ inc ∈ calls.flatten, SameMessage m inc.message

end

/-! ## One delivery -/

section

variable {uid : String} {held messages : List ChatMessage} {done : List IncomingMessage}
  {inc : IncomingMessage} {m : ChatMessage} {pages : List MessagesPage}

/-- The cache `flat` after the deliveries `done` into `held`. -/
structure Merged (uid : String) (held messages : List ChatMessage) (done : List IncomingMessage)
    (flat : List ChatMessage) : Prop where
  nodup : (flat.map (·.id)).Nodup
  origin : ∀ x ∈ flat, (x ∈ held ∧ ∀ inc ∈ done, ¬ Confirms uid inc.message x) ∨
    ∃ inc ∈ done, inc.message = x
  kept : ∀ x ∈ held, (∀ inc ∈ done, ¬ Confirms uid inc.message x) → x ∈ flat
  arrived : ∀ inc ∈ done, ∃ x ∈ flat, x.id = inc.message.id
  delivered : ∀ inc ∈ done, ∃ m ∈ messages, Delivers uid held messages inc m

theorem SameMessage.confirms {x b : ChatMessage} (h : SameMessage m x) :
    Confirms uid x b ↔ Confirms uid m b := by
  unfold Confirms
  rw [h.author, h.content]

/-- Two bubbles that one message confirms are the same. -/
theorem Mergeable.bubble_unique (h : Mergeable uid held messages) {b b' : ChatMessage}
    (hb : b ∈ held) (hb' : b' ∈ held) (hc : Confirms uid m b) (hc' : Confirms uid m b') : b = b' :=
  h.contents b hb b' hb' hc.2.1 hc'.2.1 (hc.2.2.trans hc'.2.2.symm)

/-- Two deliveries with one id deliver the same message. -/
theorem Mergeable.message_unique (h : Mergeable uid held messages) {m' x x' : ChatMessage}
    (hm : m ∈ messages) (hm' : m' ∈ messages) (hx : SameMessage m x) (hx' : SameMessage m' x')
    (hid : x.id = x'.id) : m = m' :=
  List.inj_on_of_nodup_map h.distinct hm hm' (hx.id.symm.trans (hid.trans hx'.id))

/-- As long as its bubble is there, a message is not held. -/
theorem Merged.not_held {flat : List ChatMessage} (h : Mergeable uid held messages)
    (hmerged : Merged uid held messages done flat) (hm : m ∈ messages)
    (hinc : Delivers uid held messages inc m) {b : ChatMessage} (hb : b ∈ held)
    (hopen : ∀ inc ∈ done, ¬ Confirms uid inc.message b) (hc : Confirms uid inc.message b) :
    ∀ x ∈ flat, x.id ≠ inc.message.id := by
  have hcm : Confirms uid m b := hinc.1.confirms.mp hc
  intro x hx hid
  rcases hmerged.origin x hx with ⟨hx, -⟩ | ⟨j, hj, rfl⟩
  · rcases h.own m hm hcm.1 with ⟨-, hfree⟩ | hother
    · exact hfree x hx (hid.trans hinc.1.id)
    · exact hother b hb hcm.2.1 hcm.2.2
  · obtain ⟨m', hm', hdelivers⟩ := hmerged.delivered j hj
    have hsame : m' = m := h.message_unique hm' hm hdelivers.1 hinc.1 hid
    rw [hsame] at hdelivers
    exact hopen j hj (hdelivers.1.confirms.mpr hcm)

/-- What a delivery overwrites is the bubble that it confirms. -/
theorem Merged.overwritten_bubble (h : Mergeable uid held messages)
    (hmerged : Merged uid held messages done pages.flatten)
    (hinc : Delivers uid held messages inc m) {b : ChatMessage}
    (hover : overwritten pages.flatten inc uid = some b) :
    b ∈ held ∧ (∀ inc ∈ done, ¬ Confirms uid inc.message b) ∧ Confirms uid inc.message b := by
  unfold overwritten at hover
  rcases Option.or_eq_some_iff.mp hover with hby | ⟨-, hrest⟩
  · -- rule (a)
    obtain ⟨c, hc, hfind⟩ := Option.bind_eq_some_iff.mp hby
    split_ifs at hfind
    have hmem := List.mem_of_find?_eq_some hfind
    have hid : b.id = c := by simpa using List.find?_some hfind
    rcases hinc.2 with hbare | ⟨b₀, hb₀, hconf, hnonce⟩ | ⟨c', hnonce, hheld, hother⟩
    · rw [hbare] at hc
      cases hc
    · rw [hnonce] at hc
      cases hc
      rcases hmerged.origin b hmem with ⟨hb, hopen⟩ | ⟨j, hj, rfl⟩
      · rw [List.inj_on_of_nodup_map h.ids hb hb₀ hid] at hopen ⊢
        exact ⟨hb₀, hopen, hinc.1.confirms.mpr hconf⟩
      · obtain ⟨m', hm', hdelivers⟩ := hmerged.delivered j hj
        exact absurd (hdelivers.1.id.symm.trans hid) (h.apart m' hm' b₀ hb₀ hconf.2.1)
    · rw [hnonce] at hc
      cases hc
      rcases hmerged.origin b hmem with ⟨hb, -⟩ | ⟨j, hj, rfl⟩
      · exact absurd hid (hheld b hb)
      · obtain ⟨m', hm', hdelivers⟩ := hmerged.delivered j hj
        exact absurd (hdelivers.1.id.symm.trans hid) (hother m' hm')
  · -- rule (c)
    split_ifs at hrest with hany hown
    have hpred := List.find?_some hrest
    simp only [Bool.and_eq_true, decide_eq_true_eq] at hown hpred
    have hstatus : b.status ≠ none := Option.isSome_iff_ne_none.mp hpred.1
    rcases hmerged.origin b (List.mem_of_find?_eq_some hrest) with ⟨hb, hopen⟩ | ⟨j, hj, rfl⟩
    · exact ⟨hb, hopen, hown.2, hstatus, hpred.2⟩
    · obtain ⟨m', hm', hdelivers⟩ := hmerged.delivered j hj
      exact absurd (hdelivers.1.status.trans (h.confirmed m' hm')) hstatus

/-- A delivery that overwrites nothing finds its bubble gone, or never had one. -/
theorem Merged.no_bubble (h : Mergeable uid held messages)
    (hmerged : Merged uid held messages done pages.flatten) (hm : m ∈ messages)
    (hinc : Delivers uid held messages inc m)
    (hover : overwritten pages.flatten inc uid = none) {b : ChatMessage} (hb : b ∈ held)
    (hopen : ∀ inc ∈ done, ¬ Confirms uid inc.message b) : ¬ Confirms uid inc.message b := by
  intro hc
  have hnot := hmerged.not_held h hm hinc hb hopen hc
  have hbubble := hmerged.kept b hb hopen
  have hstatus : inc.message.status.isNone = true := by
    rw [hinc.1.status, h.confirmed m hm]
    rfl
  have hany : ¬ (pages.flatten.any fun x => x.id = inc.message.id) = true := by
    rw [List.any_eq_true]
    rintro ⟨x, hx, hid⟩
    exact hnot x hx (of_decide_eq_true hid)
  have hown : (inc.message.status.isNone && inc.message.user.id = uid) = true := by
    rw [hstatus, Bool.true_and]
    exact decide_eq_true hc.1
  -- rule (c) would find the bubble
  have hcontent := (Option.or_eq_none_iff.mp hover).2
  rw [if_neg hany, if_pos hown, List.find?_eq_none] at hcontent
  apply hcontent b hbubble
  rw [Bool.and_eq_true]
  exact ⟨Option.isSome_iff_ne_none.mpr hc.2.1, decide_eq_true hc.2.2⟩

/-- A bubble that is left is one of the cache, and open. -/
theorem Merged.bubble_open {flat : List ChatMessage} (h : Mergeable uid held messages)
    (hmerged : Merged uid held messages done flat) {b : ChatMessage} (hb : b ∈ flat)
    (hstatus : b.status ≠ none) : b ∈ held ∧ ∀ inc ∈ done, ¬ Confirms uid inc.message b := by
  rcases hmerged.origin b hb with hopen | ⟨j, hj, rfl⟩
  · exact hopen
  · obtain ⟨m', hm', hdelivers⟩ := hmerged.delivered j hj
    exact absurd (hdelivers.1.status.trans (h.confirmed m' hm')) hstatus

theorem Merged.delivered_snoc {flat : List ChatMessage}
    (hmerged : Merged uid held messages done flat)
    (hm : m ∈ messages) (hinc : Delivers uid held messages inc m) :
    ∀ j ∈ done ++ [inc], ∃ m ∈ messages, Delivers uid held messages j m := by
  rw [List.forall_mem_append, List.forall_mem_singleton]
  exact ⟨hmerged.delivered, m, hm, hinc⟩

/-- A delivery that adds its message and removes the bubble that it confirms. -/
theorem Merged.deliver {flat flat' : List ChatMessage} (h : Mergeable uid held messages)
    (hmerged : Merged uid held messages done flat) (hm : m ∈ messages)
    (hinc : Delivers uid held messages inc m) (hnodup : (flat'.map (·.id)).Nodup)
    (hmem : ∀ x, x ∈ flat' ↔ x = inc.message ∨ x ∈ flat ∧ ¬ Confirms uid inc.message x) :
    Merged uid held messages (done ++ [inc]) flat' := by
  refine ⟨hnodup, fun x hx => ?_, fun x hx hopen => ?_, fun j hj => ?_,
    hmerged.delivered_snoc hm hinc⟩
  · rcases (hmem x).mp hx with rfl | ⟨hx, hc⟩
    · exact .inr ⟨inc, List.mem_append_right _ (List.mem_singleton_self _), rfl⟩
    · rcases hmerged.origin x hx with ⟨hx, hopen⟩ | ⟨j, hj, rfl⟩
      · refine .inl ⟨hx, ?_⟩
        rw [List.forall_mem_append, List.forall_mem_singleton]
        exact ⟨hopen, hc⟩
      · exact .inr ⟨j, List.mem_append_left _ hj, rfl⟩
  · rw [List.forall_mem_append, List.forall_mem_singleton] at hopen
    exact (hmem x).mpr (.inr ⟨hmerged.kept x hx hopen.1, hopen.2⟩)
  · rcases List.mem_append.mp hj with hj | hj
    · obtain ⟨x, hx, hid⟩ := hmerged.arrived j hj
      have hplain : ¬ Confirms uid inc.message x := by
        intro hc
        obtain ⟨m', hm', hdelivers⟩ := hmerged.delivered j hj
        exact h.apart m' hm' x (hmerged.bubble_open h hx hc.2.1).1 hc.2.1
          (hdelivers.1.id.symm.trans hid.symm)
      exact ⟨x, (hmem x).mpr (.inr ⟨hx, hplain⟩), hid⟩
    · rw [List.mem_singleton.mp hj]
      exact ⟨inc.message, (hmem _).mpr (.inl rfl), rfl⟩

/-- A delivery of a message that is held. -/
theorem Merged.again {flat : List ChatMessage} (hmerged : Merged uid held messages done flat)
    (hm : m ∈ messages) (hinc : Delivers uid held messages inc m)
    (hheld : ∃ x ∈ flat, x.id = inc.message.id)
    (hgone : ∀ b ∈ held, (∀ inc ∈ done, ¬ Confirms uid inc.message b) →
      ¬ Confirms uid inc.message b) : Merged uid held messages (done ++ [inc]) flat := by
  refine ⟨hmerged.nodup, fun x hx => ?_, fun x hx hopen => ?_, fun j hj => ?_,
    hmerged.delivered_snoc hm hinc⟩
  · rcases hmerged.origin x hx with ⟨hx, hopen⟩ | ⟨j, hj, rfl⟩
    · refine .inl ⟨hx, ?_⟩
      rw [List.forall_mem_append, List.forall_mem_singleton]
      exact ⟨hopen, hgone x hx hopen⟩
    · exact .inr ⟨j, List.mem_append_left _ hj, rfl⟩
  · exact hmerged.kept x hx fun j hj => hopen j (List.mem_append_left _ hj)
  · rcases List.mem_append.mp hj with hj | hj
    · exact hmerged.arrived j hj
    · rw [List.mem_singleton.mp hj]
      exact hheld

/-- One delivery, whichever rule merges it. -/
theorem merged_applyOne (h : Mergeable uid held messages)
    (hmerged : Merged uid held messages done pages.flatten) (hm : m ∈ messages)
    (hinc : Delivers uid held messages inc m) :
    Merged uid held messages (done ++ [inc]) (applyOne pages inc uid).flatten := by
  rcases applyOne_cases pages inc uid with
    ⟨a, b, c, hover, hflat, hflat'⟩ | ⟨hover, hheld, hflat'⟩ | ⟨hover, hnot, hflat'⟩
  · -- the bubble `b` is replaced
    obtain ⟨hb, hopen, hc⟩ := hmerged.overwritten_bubble h hinc hover
    have hnot := hmerged.not_held h hm hinc hb hopen hc
    have hnodup := hmerged.nodup
    rw [hflat] at hnot hnodup
    rw [List.map_append, List.map_cons, List.nodup_middle, List.nodup_cons, ← List.map_append]
      at hnodup
    have hfresh : inc.message.id ∉ (a ++ c).map (·.id) := by
      rintro hmem
      obtain ⟨x, hx, hid⟩ := List.mem_map.mp hmem
      refine hnot x ?_ hid
      rw [List.mem_append, List.mem_cons]
      exact (List.mem_append.mp hx).imp_right .inr
    refine hmerged.deliver h hm hinc ?_ fun x => ?_
    · rw [hflat', List.map_append, List.map_cons, List.nodup_middle, List.nodup_cons,
        ← List.map_append]
      exact ⟨hfresh, hnodup.2⟩
    · have hrest : x ∈ pages.flatten ∧ ¬ Confirms uid inc.message x ↔ x ∈ a ++ c := by
        rw [hflat, List.mem_append, List.mem_cons, List.mem_append]
        constructor
        · rintro ⟨hx | rfl | hx, hno⟩
          · exact .inl hx
          · exact absurd hc hno
          · exact .inr hx
        · intro hx
          refine ⟨hx.imp_right .inr, fun hcx => ?_⟩
          have hxf : x ∈ pages.flatten := by
            rw [hflat, List.mem_append, List.mem_cons]
            exact hx.imp_right .inr
          have hxb : x = b :=
            h.bubble_unique (hmerged.bubble_open h hxf hcx.2.1).1 hb hcx hc
          exact hnodup.1 (List.mem_map.mpr ⟨x, List.mem_append.mpr hx, congrArg _ hxb⟩)
      rw [hrest, hflat', List.mem_append, List.mem_cons, List.mem_append]
      exact or_left_comm
  · rw [hflat']
    exact hmerged.again hm hinc hheld fun b hb hopen => hmerged.no_bubble h hm hinc hover hb hopen
  · rw [hflat']
    refine hmerged.deliver h hm hinc ?_ fun x => ?_
    · rw [List.map_cons, List.nodup_cons]
      exact ⟨fun hmem => hnot (List.mem_map.mp hmem), hmerged.nodup⟩
    · have hplain : x ∈ pages.flatten → ¬ Confirms uid inc.message x := by
        intro hx hc
        obtain ⟨hb, hopen⟩ := hmerged.bubble_open h hx hc.2.1
        exact hmerged.no_bubble h hm hinc hover hb hopen hc
      rw [List.mem_cons, and_iff_left_of_imp hplain]

/-! ## All deliveries -/

theorem merged_start (h : Mergeable uid held messages) : Merged uid held messages [] held where
  nodup := h.ids
  origin _ hx := .inl ⟨hx, fun _ hj => absurd hj List.not_mem_nil⟩
  kept _ hx _ := hx
  arrived _ hj := absurd hj List.not_mem_nil
  delivered _ hj := absurd hj List.not_mem_nil

theorem merged_applyAll (h : Mergeable uid held messages) {incoming : List IncomingMessage}
    (hmerged : Merged uid held messages done pages.flatten)
    (hinc : ∀ inc ∈ incoming, ∃ m ∈ messages, Delivers uid held messages inc m) :
    Merged uid held messages (done ++ incoming) (applyAll pages incoming uid).flatten := by
  induction incoming generalizing done pages with
  | nil =>
    rw [List.append_nil]
    exact hmerged
  | cons inc rest ih =>
    obtain ⟨⟨m, hm, hdelivers⟩, hrest⟩ := List.forall_mem_cons.mp hinc
    rw [List.append_cons]
    exact ih (merged_applyOne h hmerged hm hdelivers) hrest

theorem merged_upserts (h : Mergeable uid held messages) {calls : List (List IncomingMessage)}
    {data : Option MessagesData} (hmerged : Merged uid held messages done (pagesOf data).flatten)
    (hinc : ∀ inc ∈ calls.flatten, ∃ m ∈ messages, Delivers uid held messages inc m) :
    Merged uid held messages (done ++ calls.flatten)
      (pagesOf (upserts data calls uid)).flatten := by
  induction calls generalizing done data with
  | nil =>
    rw [List.flatten_nil, List.append_nil]
    exact hmerged
  | cons incoming rest ih =>
    rw [List.flatten_cons, List.forall_mem_append] at hinc
    rw [List.flatten_cons, ← List.append_assoc]
    refine ih ?_ hinc.2
    show Merged uid held messages (done ++ incoming)
      (upsertMessages data incoming uid).pages.flatten
    rw [upsertMessages_flatten]
    exact merged_applyAll h hmerged hinc.1

/-! ## What is shown -/

theorem map_id_setById (byId : List ChatMessage) (m : ChatMessage) :
    (setById byId m).map (·.id) =
      if m.id ∈ byId.map (·.id) then byId.map (·.id) else byId.map (·.id) ++ [m.id] := by
  unfold setById
  cases hfind : byId.find? fun x => x.id = m.id with
  | none =>
    have hnone : m.id ∉ byId.map (·.id) := by
      intro hmem
      obtain ⟨x, hx, hid⟩ := List.mem_map.mp hmem
      exact List.find?_eq_none.mp hfind x hx (decide_eq_true hid)
    rw [if_neg hnone]
    exact List.map_append
  | some existing =>
    have hmem : m.id ∈ byId.map (·.id) :=
      List.mem_map.mpr ⟨existing, List.mem_of_find?_eq_some hfind,
        by simpa using List.find?_some hfind⟩
    rw [if_pos hmem]
    dsimp only
    split_ifs
    · rw [List.map_map]
      refine List.map_congr_left fun x _ => ?_
      show (if x.id = m.id then m else x).id = x.id
      split_ifs with hid
      · exact hid.symm
      · rfl
    · rfl

/-- The map has every id once. -/
theorem setById_ids (l byId : List ChatMessage) (h : (byId.map (·.id)).Nodup) :
    ((l.foldl setById byId).map (·.id)).Nodup ∧
      ∀ id, id ∈ (l.foldl setById byId).map (·.id) ↔ id ∈ byId.map (·.id) ∨ ∃ x ∈ l, x.id = id := by
  induction l generalizing byId with
  | nil => exact ⟨h, fun id => by simp⟩
  | cons m l ih =>
    have hids := map_id_setById byId m
    have hnodup : ((setById byId m).map (·.id)).Nodup := by
      rw [hids]
      split_ifs with hmem
      · exact h
      · exact List.nodup_append_comm.mp (List.nodup_cons.mpr ⟨hmem, h⟩)
    refine ⟨(ih _ hnodup).1, fun id => ?_⟩
    rw [List.foldl_cons, (ih _ hnodup).2 id, hids, List.exists_mem_cons_iff, ← or_assoc]
    refine or_congr_left ?_
    split_ifs with hmem
    · exact ⟨.inl, fun hid => hid.elim (fun hid => hid) fun hid => hid ▸ hmem⟩
    · rw [List.mem_append, List.mem_singleton, eq_comm (a := id)]

/-- The ids that the list shows after the calls. -/
def shownIds (time : String → Option ℤ) (localeCompare : String → String → ℤ)
    (data : Option MessagesData) (calls : List (List IncomingMessage)) (uid : String) :
    List String :=
  (flattenSortedDedup time localeCompare (upserts data calls uid)).map (·.id)

/-- The ids of the cache without the bubbles that `messages` confirm, and of `messages`. -/
def Expected (uid : String) (held messages : List ChatMessage) (id : String) : Prop :=
  (∃ x ∈ held, x.id = id ∧ ∀ m ∈ messages, ¬ Confirms uid m x) ∨ ∃ m ∈ messages, m.id = id

theorem shownIds_spec {data : Option MessagesData} {calls : List (List IncomingMessage)}
    (time : String → Option ℤ) (localeCompare : String → String → ℤ)
    (h : Mergeable uid (pagesOf data).flatten messages)
    (hcalls : DeliversAll uid (pagesOf data).flatten messages calls) :
    (shownIds time localeCompare data calls uid).Nodup ∧
      ∀ id, id ∈ shownIds time localeCompare data calls uid ↔
        Expected uid (pagesOf data).flatten messages id := by
  have hmerged := merged_upserts h (merged_start h) hcalls.1
  rw [List.nil_append] at hmerged
  obtain ⟨hnodup, hids⟩ := setById_ids (pagesOf (upserts data calls uid)).flatten [] List.nodup_nil
  have hperm : (shownIds time localeCompare data calls uid).Perm
      (((pagesOf (upserts data calls uid)).flatten.foldl setById []).map (·.id)) :=
    (List.mergeSort_perm _ _).map _
  refine ⟨hperm.nodup_iff.mpr hnodup, fun id => ?_⟩
  rw [hperm.mem_iff, hids id, List.map_nil, or_iff_right List.not_mem_nil]
  have hopen : ∀ x, (∀ inc ∈ calls.flatten, ¬ Confirms uid inc.message x) ↔
      ∀ m ∈ messages, ¬ Confirms uid m x := by
    intro x
    constructor
    · intro hno m hm hc
      obtain ⟨inc, hinc, hsame⟩ := hcalls.2 m hm
      exact hno inc hinc (hsame.confirms.mpr hc)
    · intro hno inc hinc hc
      obtain ⟨m, hm, hdelivers⟩ := hcalls.1 inc hinc
      exact hno m hm (hdelivers.1.confirms.mp hc)
  constructor
  · rintro ⟨x, hx, rfl⟩
    rcases hmerged.origin x hx with ⟨hx, hno⟩ | ⟨inc, hinc, rfl⟩
    · exact .inl ⟨x, hx, rfl, (hopen x).mp hno⟩
    · obtain ⟨m, hm, hdelivers⟩ := hcalls.1 inc hinc
      exact .inr ⟨m, hm, hdelivers.1.id.symm⟩
  · rintro (⟨x, hx, rfl, hno⟩ | ⟨m, hm, rfl⟩)
    · exact ⟨x, hmerged.kept x hx ((hopen x).mpr hno), rfl⟩
    · obtain ⟨inc, hinc, hsame⟩ := hcalls.2 m hm
      rw [← hsame.id]
      exact hmerged.arrived inc hinc

end

/-- Two sequences of merges that deliver the same messages, each in its own order and as
    often as it likes, show the same ids, each once. -/
theorem upserts_confluent (time : String → Option ℤ) (localeCompare : String → String → ℤ)
    (data : Option MessagesData) (messages : List ChatMessage) (uid : String)
    (calls calls' : List (List IncomingMessage))
    (h : Mergeable uid (pagesOf data).flatten messages)
    (hcalls : DeliversAll uid (pagesOf data).flatten messages calls)
    (hcalls' : DeliversAll uid (pagesOf data).flatten messages calls') :
    (shownIds time localeCompare data calls uid).Perm
      (shownIds time localeCompare data calls' uid) ∧
      (shownIds time localeCompare data calls uid).Nodup ∧
      ∀ id, id ∈ shownIds time localeCompare data calls uid ↔
        Expected uid (pagesOf data).flatten messages id := by
  have hspec := shownIds_spec time localeCompare h hcalls
  have hspec' := shownIds_spec time localeCompare h hcalls'
  refine ⟨?_, hspec⟩
  rw [List.perm_ext_iff_of_nodup hspec.1 hspec'.1]
  exact fun id => (hspec.2 id).trans (hspec'.2 id).symm

/-- Alice's bubble "on my way", with the nonce "n1". -/
def onMyWayBubble : ChatMessage :=
  { confirmedMessage "n1" "alice" "on my way" with status := some .sending }

def pendingCache : MessagesData :=
  ⟨[[onMyWayBubble, confirmedMessage "m1" "alice" "hello"]], [none]⟩

def onMyWay : ChatMessage := confirmedMessage "m2" "alice" "on my way"

/-- Bob happens to write the same. -/
def bobToo : ChatMessage := confirmedMessage "m3" "bob" "on my way"

theorem pendingCache_mergeable :
    Mergeable "alice" [onMyWayBubble, confirmedMessage "m1" "alice" "hello"] [onMyWay, bobToo] where
  ids := by decide
  contents := by decide
  distinct := by decide
  confirmed := by decide
  apart := by decide
  own := by
    have hconfirms : Confirms "alice" onMyWay onMyWayBubble := ⟨rfl, Option.some_ne_none _, rfl⟩
    have hunique : ∀ b ∈ [onMyWayBubble, confirmedMessage "m1" "alice" "hello"], b.status ≠ none →
        b = onMyWayBubble := by decide
    have hbob : ∀ m ∈ [bobToo], m.user.id ≠ "alice" := by decide
    refine List.forall_mem_cons.mpr ⟨fun _ => .inl ⟨⟨onMyWayBubble, ?_, ?_⟩, by decide⟩,
      fun m hm hown => absurd hown (hbob m hm)⟩
    · exact ⟨List.mem_cons_self, hconfirms⟩
    · exact fun b hb => hunique b hb.1 hb.2.2.1

/-- `Date` on the one text of a time in the cache. -/
def halfPastThree (createdAt : String) : Option ℤ :=
  if createdAt = "2026-07-05T15:30:00Z" then some 1783265400000 else none

/-- `localeCompare` on lower-case texts of hexadecimal digits and dashes. -/
def compareTexts (a b : String) : ℤ := if a = b then 0 else if a < b then -1 else 1

/-- The echo, then a resync; and a resync, Bob's echo and twice the answer of `POST`. -/
theorem upserts_confluent_alice :
    (shownIds halfPastThree compareTexts (some pendingCache)
        [[⟨onMyWay, some "n1"⟩], [⟨bobToo, none⟩, ⟨onMyWay, none⟩]] "alice").Perm
      (shownIds halfPastThree compareTexts (some pendingCache)
        [[⟨onMyWay, none⟩], [⟨bobToo, some "n9"⟩], [⟨onMyWay, some "n1"⟩, ⟨onMyWay, some "n1"⟩]]
        "alice") := by
  have hself : ∀ m : ChatMessage, SameMessage m m := fun _ => ⟨rfl, rfl, rfl, rfl⟩
  have hbare : ∀ m ∈ [onMyWay, bobToo], ∃ m' ∈ [onMyWay, bobToo], Delivers "alice"
      (pagesOf (some pendingCache)).flatten [onMyWay, bobToo] ⟨m, none⟩ m' :=
    fun m hm => ⟨m, hm, hself m, .inl rfl⟩
  have hecho : ∃ m' ∈ [onMyWay, bobToo], Delivers "alice"
      (pagesOf (some pendingCache)).flatten [onMyWay, bobToo] ⟨onMyWay, some "n1"⟩ m' :=
    ⟨onMyWay, List.mem_cons_self, hself _, .inr (.inl ⟨onMyWayBubble, List.mem_cons_self,
      ⟨rfl, Option.some_ne_none _, rfl⟩, rfl⟩)⟩
  have hforeign : ∃ m' ∈ [onMyWay, bobToo], Delivers "alice"
      (pagesOf (some pendingCache)).flatten [onMyWay, bobToo] ⟨bobToo, some "n9"⟩ m' :=
    ⟨bobToo, by decide, hself _, .inr (.inr ⟨"n9", rfl, by decide, by decide⟩)⟩
  refine (upserts_confluent _ _ _ _ _ _ _ pendingCache_mergeable ⟨?_, ?_⟩ ⟨?_, ?_⟩).1
  · simp only [List.flatten_cons, List.flatten_nil, List.cons_append, List.nil_append,
      List.forall_mem_cons]
    exact ⟨hecho, hbare _ (by decide), hbare _ (by decide), fun _ h => absurd h List.not_mem_nil⟩
  · exact List.forall_mem_cons.mpr ⟨⟨_, List.mem_cons_self, hself _⟩,
      List.forall_mem_cons.mpr ⟨⟨⟨bobToo, none⟩, by decide, hself _⟩, fun _ h =>
        absurd h List.not_mem_nil⟩⟩
  · simp only [List.flatten_cons, List.flatten_nil, List.cons_append, List.nil_append,
      List.forall_mem_cons]
    exact ⟨hbare _ (by decide), hforeign, hecho, hecho, fun _ h => absurd h List.not_mem_nil⟩
  · exact List.forall_mem_cons.mpr ⟨⟨_, List.mem_cons_self, hself _⟩,
      List.forall_mem_cons.mpr ⟨⟨⟨bobToo, some "n9"⟩, by decide, hself _⟩, fun _ h =>
        absurd h List.not_mem_nil⟩⟩

end ConvoyChat.Frontend
