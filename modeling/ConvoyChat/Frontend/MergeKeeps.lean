import ConvoyChat.Frontend.MessagesCache
import Mathlib.Data.List.Induction

/-!
# What a merge keeps

`upsertMessages` is meant to reconcile an echo with the sender's own optimistic
bubble. Rule (a) of `applyOne` looks for the nonce among the ids of *all* held
messages, confirmed ones included, and the nonce is whatever the sender put into
`client_id`: a nonce that equals the id of a confirmed message overwrites it.

* `held_applyOne`: exactly which ids one merge step keeps.
* `mergeKeeps_iff`: a call keeps every confirmed id and every incoming id if and
  only if no step overwrites the only copy of such an id for good.
* `nonce_overwrites_confirmed`: a foreign nonce drops a confirmed message.
-/

namespace ConvoyChat.Frontend

/-- Some message of the cache has this id. -/
def Held (pages : List MessagesPage) (id : String) : Prop := ∃ m ∈ pages.flatten, m.id = id

/-- Every id held without `status` before the call and every incoming id is held
    after it. -/
def MergeKeeps (data : Option MessagesData) (incoming : List IncomingMessage) (uid : String) :
    Prop :=
  (∀ m ∈ (pagesOf data).flatten, m.status = none →
    Held (upsertMessages data incoming uid).pages m.id) ∧
  ∀ inc ∈ incoming, Held (upsertMessages data incoming uid).pages inc.message.id

/-- The message that merging `inc` overwrites is the only held copy of `id`, and
    `inc` does not carry that id itself. -/
def Drops (held : List ChatMessage) (inc : IncomingMessage) (uid id : String) : Prop :=
  ∃ m, overwritten held inc uid = some m ∧ m.id = id ∧ inc.message.id ≠ id ∧
    held.countP (fun x => x.id = id) = 1

/-- `id` has to survive: a confirmed message of the cache had it, or one of the
    messages merged so far. -/
def Owed (data : Option MessagesData) (merged : List IncomingMessage) (id : String) : Prop :=
  (∃ m ∈ (pagesOf data).flatten, m.status = none ∧ m.id = id) ∨
    ∃ inc ∈ merged, inc.message.id = id

/-- Whenever a message is merged, the held message it overwrites is not the only
    copy of an id that has to survive, unless a later incoming message carries
    that id again. -/
def SparesOwed (data : Option MessagesData) (incoming : List IncomingMessage) (uid : String) :
    Prop :=
  ∀ pre inc post, incoming = pre ++ inc :: post → ∀ id,
    Drops (applyAll (pagesOf data) pre uid).flatten inc uid id → Owed data pre id →
    ∃ later ∈ post, later.message.id = id

/-! ## One step -/

theorem held_iff_of_flatten {pages : List MessagesPage} {a b : List ChatMessage} {m : ChatMessage}
    (h : pages.flatten = a ++ m :: b) (id : String) :
    Held pages id ↔ m.id = id ∨ ∃ x, (x ∈ a ∨ x ∈ b) ∧ x.id = id := by
  simp only [Held, h, List.mem_append, List.mem_cons]
  constructor
  · rintro ⟨x, hx | rfl | hx, rfl⟩
    · exact .inr ⟨x, .inl hx, rfl⟩
    · exact .inl rfl
    · exact .inr ⟨x, .inr hx, rfl⟩
  · rintro (rfl | ⟨x, hx | hx, rfl⟩)
    · exact ⟨m, .inr (.inl rfl), rfl⟩
    · exact ⟨x, .inl hx, rfl⟩
    · exact ⟨x, .inr (.inr hx), rfl⟩

theorem countP_eq_one_iff {a b : List ChatMessage} {m : ChatMessage} {id : String}
    (hm : m.id = id) :
    (a ++ m :: b).countP (fun x => x.id = id) = 1 ↔ ¬ ∃ x, (x ∈ a ∨ x ∈ b) ∧ x.id = id := by
  rw [List.countP_append, List.countP_cons_of_pos (by simpa using hm)]
  have hzero : a.countP (fun x => x.id = id) + b.countP (fun x => x.id = id) = 0 ↔
      ¬ ∃ x, (x ∈ a ∨ x ∈ b) ∧ x.id = id := by
    rw [Nat.add_eq_zero_iff, List.countP_eq_zero, List.countP_eq_zero]
    simp only [decide_eq_true_eq, not_exists, not_and]
    constructor
    · rintro ⟨ha, hb⟩ x (hx | hx)
      · exact ha x hx
      · exact hb x hx
    · intro h
      exact ⟨fun x hx => h x (.inl hx), fun x hx => h x (.inr hx)⟩
  rw [← hzero]
  omega

/-- One merge step keeps the incoming id and every held id it does not drop, and
    nothing else. -/
theorem held_applyOne (pages : List MessagesPage) (inc : IncomingMessage) (uid id : String) :
    Held (applyOne pages inc uid) id ↔
      inc.message.id = id ∨ (Held pages id ∧ ¬ Drops pages.flatten inc uid id) := by
  rcases applyOne_cases pages inc uid with
    ⟨a, m, b, hover, hflat, hflat'⟩ | ⟨hover, hheld, hflat'⟩ | ⟨hover, -, hflat'⟩
  · rw [held_iff_of_flatten hflat', held_iff_of_flatten hflat]
    by_cases hself : inc.message.id = id
    · simp [hself]
    · have hdrops : Drops pages.flatten inc uid id ↔
          m.id = id ∧ ¬ ∃ x, (x ∈ a ∨ x ∈ b) ∧ x.id = id := by
        constructor
        · rintro ⟨m', hm', hid, -, hcount⟩
          rw [hover] at hm'
          cases hm'
          rw [hflat, countP_eq_one_iff hid] at hcount
          exact ⟨hid, hcount⟩
        · rintro ⟨hid, hrest⟩
          refine ⟨m, hover, hid, hself, ?_⟩
          rw [hflat, countP_eq_one_iff hid]
          exact hrest
      rw [hdrops]
      by_cases hrest : ∃ x, (x ∈ a ∨ x ∈ b) ∧ x.id = id
      · simp [hrest]
      · simp only [hself, hrest, or_false, not_false_eq_true, and_true, and_not_self]
  · have hno : ¬ Drops pages.flatten inc uid id := by
      rintro ⟨m, hm, -⟩
      rw [hover] at hm
      cases hm
    have hsame : Held (applyOne pages inc uid) id ↔ Held pages id := by
      simp only [Held, hflat']
    rw [hsame]
    constructor
    · exact fun h => .inr ⟨h, hno⟩
    · rintro (rfl | ⟨h, -⟩)
      · exact hheld
      · exact h
  · have hno : ¬ Drops pages.flatten inc uid id := by
      rintro ⟨m, hm, -⟩
      rw [hover] at hm
      cases hm
    rw [held_iff_of_flatten (a := []) hflat']
    simp [hno, Held]

/-- A merge adds the incoming message and nothing else. -/
theorem mem_applyOne {pages : List MessagesPage} {inc : IncomingMessage} {uid : String}
    {x : ChatMessage} (hx : x ∈ (applyOne pages inc uid).flatten) :
    x ∈ pages.flatten ∨ x = inc.message := by
  rcases applyOne_cases pages inc uid with
    ⟨a, m, b, -, hflat, hflat'⟩ | ⟨-, -, hflat'⟩ | ⟨-, -, hflat'⟩ <;> rw [hflat'] at hx
  · rw [hflat]
    rcases List.mem_append.mp hx with hx | hx
    · exact .inl (List.mem_append_left _ hx)
    · rcases List.mem_cons.mp hx with rfl | hx
      · exact .inr rfl
      · exact .inl (List.mem_append_right _ (List.mem_cons_of_mem _ hx))
  · exact .inl hx
  · rcases List.mem_cons.mp hx with rfl | hx
    · exact .inr rfl
    · exact .inl hx

/-- A merge keeps the confirmed messages that the nonce does not name. -/
theorem confirmed_applyOne {pages : List MessagesPage} {inc : IncomingMessage} {uid : String}
    {x : ChatMessage} (hx : x ∈ pages.flatten) (hstatus : x.status = none)
    (hnonce : inc.clientId ≠ some x.id) : x ∈ (applyOne pages inc uid).flatten := by
  rcases applyOne_cases pages inc uid with
    ⟨a, m, b, hover, hflat, hflat'⟩ | ⟨-, -, hflat'⟩ | ⟨-, -, hflat'⟩ <;> rw [hflat']
  · have hne : x ≠ m := by
      rintro rfl
      unfold overwritten at hover
      rcases Option.or_eq_some_iff.mp hover with hby | ⟨-, hrest⟩
      · obtain ⟨c, hc, hfind⟩ := Option.bind_eq_some_iff.mp hby
        split_ifs at hfind
        have hid : x.id = c := by simpa using List.find?_some hfind
        rw [hc, hid] at hnonce
        exact hnonce rfl
      · split_ifs at hrest
        have hpred := List.find?_some hrest
        simp [hstatus] at hpred
    rw [hflat] at hx
    rcases List.mem_append.mp hx with hx | hx
    · exact List.mem_append_left _ hx
    · rcases List.mem_cons.mp hx with rfl | hx
      · exact absurd rfl hne
      · exact List.mem_append_right _ (List.mem_cons_of_mem _ hx)
  · exact hx
  · exact List.mem_cons_of_mem _ hx

/-- A message that is held is not merged again, unless it comes with a nonce. -/
theorem applyOne_of_held {pages : List MessagesPage} {inc : IncomingMessage} (uid : String)
    (hnonce : inc.clientId = none) (hheld : Held pages inc.message.id) :
    applyOne pages inc uid = pages := by
  have hby : applyByNonce pages inc = none := by simp only [applyByNonce, hnonce]
  simp only [applyOne, hby, if_pos (findById_iff.mpr hheld)]

/-! ## The whole call -/

theorem applyAll_snoc (pages : List MessagesPage) (pre : List IncomingMessage)
    (inc : IncomingMessage) (uid : String) :
    applyAll pages (pre ++ [inc]) uid = applyOne (applyAll pages pre uid) inc uid := by
  simp [applyAll]

theorem applyAll_append (pages : List MessagesPage) (pre post : List IncomingMessage)
    (uid : String) :
    applyAll pages (pre ++ post) uid = applyAll (applyAll pages pre uid) post uid := by
  simp [applyAll]

/-- An id that is not held comes back only with an incoming message. -/
theorem not_held_applyAll {pages : List MessagesPage} {incoming : List IncomingMessage}
    (uid : String) {id : String} (hnot : ¬ Held pages id)
    (hinc : ∀ inc ∈ incoming, inc.message.id ≠ id) :
    ¬ Held (applyAll pages incoming uid) id := by
  induction incoming generalizing pages with
  | nil => exact hnot
  | cons inc rest ih =>
    refine ih ?_ fun j hj => hinc j (List.mem_cons_of_mem _ hj)
    rw [held_applyOne]
    rintro (h | ⟨h, -⟩)
    · exact hinc inc List.mem_cons_self h
    · exact hnot h

/-- Along the call, an id that has to survive is held or still to come. -/
theorem held_or_later {data : Option MessagesData} {incoming : List IncomingMessage} {uid : String}
    (hspare : SparesOwed data incoming uid) (pre post : List IncomingMessage)
    (hsplit : incoming = pre ++ post) {id : String} (howed : Owed data pre id) :
    Held (applyAll (pagesOf data) pre uid) id ∨ ∃ later ∈ post, later.message.id = id := by
  induction pre using List.reverseRecOn generalizing post with
  | nil =>
    rcases howed with ⟨m, hm, -, hid⟩ | ⟨inc, hinc, -⟩
    · exact .inl ⟨m, hm, hid⟩
    · simp at hinc
  | append_singleton pre inc ih =>
    have hsplit' : incoming = pre ++ inc :: post := by simpa using hsplit
    rw [applyAll_snoc, held_applyOne]
    by_cases hself : inc.message.id = id
    · exact .inl (.inl hself)
    · have howed' : Owed data pre id := by
        rcases howed with h | ⟨j, hj, hid⟩
        · exact .inl h
        · rcases List.mem_append.mp hj with hj | hj
          · exact .inr ⟨j, hj, hid⟩
          · rw [List.mem_singleton.mp hj] at hid
            exact absurd hid hself
      rcases ih (inc :: post) hsplit' howed' with hheld | ⟨later, hlater, hid⟩
      · by_cases hdrop : Drops (applyAll (pagesOf data) pre uid).flatten inc uid id
        · exact .inr (hspare pre inc post hsplit' id hdrop howed')
        · exact .inl (.inr ⟨hheld, hdrop⟩)
      · rcases List.mem_cons.mp hlater with rfl | hlater
        · exact absurd hid hself
        · exact .inr ⟨later, hlater, hid⟩

theorem held_upsertMessages (data : Option MessagesData) (incoming : List IncomingMessage)
    (uid id : String) :
    Held (upsertMessages data incoming uid).pages id ↔
      Held (applyAll (pagesOf data) incoming uid) id := by
  simp only [Held, upsertMessages_flatten]

/-- A merge without nonces keeps every confirmed message. -/
theorem confirmed_applyAll {pages : List MessagesPage} {incoming : List IncomingMessage}
    {uid : String} (hnonce : ∀ inc ∈ incoming, inc.clientId = none) {x : ChatMessage}
    (hx : x ∈ pages.flatten) (hstatus : x.status = none) :
    x ∈ (applyAll pages incoming uid).flatten := by
  induction incoming generalizing pages with
  | nil => exact hx
  | cons inc rest ih =>
    refine ih (fun j hj => hnonce j (List.mem_cons_of_mem _ hj)) (confirmed_applyOne hx hstatus ?_)
    rw [hnonce inc List.mem_cons_self]
    exact nofun

/-- After a merge without nonces the confirmed messages are as they should be, if they
    were, and if every incoming message is, or a confirmed message with its id is held. -/
theorem good_applyAll {pages : List MessagesPage} {incoming : List IncomingMessage} {uid : String}
    {P : ChatMessage → Prop} (hnonce : ∀ inc ∈ incoming, inc.clientId = none)
    (hold : ∀ x ∈ pages.flatten, x.status = none → P x)
    (hinc : ∀ inc ∈ incoming, P inc.message ∨
      ∃ x ∈ pages.flatten, x.status = none ∧ x.id = inc.message.id) :
    ∀ x ∈ (applyAll pages incoming uid).flatten, x.status = none → P x := by
  induction incoming generalizing pages with
  | nil => exact hold
  | cons inc rest ih =>
    have hnone := hnonce inc List.mem_cons_self
    refine ih (fun j hj => hnonce j (List.mem_cons_of_mem _ hj)) ?_ fun j hj => ?_
    · intro x hx hstatus
      have hx : x ∈ (applyOne pages inc uid).flatten := hx
      rcases hinc inc List.mem_cons_self with hP | ⟨y, hy, -, hid⟩
      · rcases mem_applyOne hx with hx | rfl
        · exact hold x hx hstatus
        · exact hP
      · rw [applyOne_of_held uid hnone ⟨y, hy, hid⟩] at hx
        exact hold x hx hstatus
    · rcases hinc j (List.mem_cons_of_mem _ hj) with hP | ⟨y, hy, hstatus, hid⟩
      · exact .inl hP
      · refine .inr ⟨y, confirmed_applyOne hy hstatus ?_, hstatus, hid⟩
        rw [hnone]
        exact nofun

/-- A call adds incoming messages and nothing else. -/
theorem mem_applyAll {pages : List MessagesPage} {incoming : List IncomingMessage} {uid : String}
    {x : ChatMessage} (hx : x ∈ (applyAll pages incoming uid).flatten) :
    x ∈ pages.flatten ∨ ∃ inc ∈ incoming, inc.message = x := by
  induction incoming generalizing pages with
  | nil => exact .inl hx
  | cons inc rest ih =>
    rcases ih hx with hx | ⟨j, hj, rfl⟩
    · rcases mem_applyOne hx with hx | rfl
      · exact .inl hx
      · exact .inr ⟨inc, List.mem_cons_self, rfl⟩
    · exact .inr ⟨j, List.mem_cons_of_mem _ hj, rfl⟩

/-- A merge without nonces of confirmed messages, into a cache without bubbles, holds
    every incoming message. -/
theorem held_applyAll {pages : List MessagesPage} {incoming : List IncomingMessage} {uid : String}
    (hnonce : ∀ inc ∈ incoming, inc.clientId = none)
    (hstatus : ∀ inc ∈ incoming, inc.message.status = none)
    (hplain : ∀ x ∈ pages.flatten, x.status = none) {inc : IncomingMessage}
      (hinc : inc ∈ incoming) :
    Held (applyAll pages incoming uid) inc.message.id := by
  induction incoming generalizing pages with
  | nil => cases hinc
  | cons first rest ih =>
    have hplain' : ∀ x ∈ (applyOne pages first uid).flatten, x.status = none := by
      intro x hx
      rcases mem_applyOne hx with hx | rfl
      · exact hplain x hx
      · exact hstatus first List.mem_cons_self
    have hrest : ∀ j ∈ rest, j.clientId = none := fun j hj => hnonce j (List.mem_cons_of_mem _ hj)
    rcases List.mem_cons.mp hinc with rfl | hinc
    · obtain ⟨x, hx, hid⟩ := (held_applyOne pages inc uid inc.message.id).mpr (.inl rfl)
      exact ⟨x, confirmed_applyAll hrest hx (hplain' x hx), hid⟩
    · exact ih hrest (fun j hj => hstatus j (List.mem_cons_of_mem _ hj)) hplain' hinc

/-- A call of `upsertMessages` keeps every confirmed id and every incoming id
    exactly when no merge step overwrites the only copy of one of them for good. -/
theorem mergeKeeps_iff (data : Option MessagesData) (incoming : List IncomingMessage)
    (uid : String) : MergeKeeps data incoming uid ↔ SparesOwed data incoming uid := by
  have howed : MergeKeeps data incoming uid ↔
      ∀ id, Owed data incoming id → Held (applyAll (pagesOf data) incoming uid) id := by
    simp only [MergeKeeps, held_upsertMessages, Owed]
    constructor
    · rintro ⟨hconf, hinc⟩ id (⟨m, hm, hs, rfl⟩ | ⟨inc, hi, rfl⟩)
      · exact hconf m hm hs
      · exact hinc inc hi
    · intro h
      exact ⟨fun m hm hs => h m.id (.inl ⟨m, hm, hs, rfl⟩), fun inc hi => h _ (.inr ⟨inc, hi, rfl⟩)⟩
  rw [howed]
  constructor
  · intro hkeep pre inc post hsplit id hdrop hid
    by_contra hlater
    have hlost : ¬ Held (applyOne (applyAll (pagesOf data) pre uid) inc uid) id := by
      rw [held_applyOne]
      rintro (h | ⟨-, h⟩)
      · obtain ⟨m, -, -, hne, -⟩ := hdrop
        exact hne h
      · exact h hdrop
    have hgone := not_held_applyAll uid hlost fun j hj hji => hlater ⟨j, hj, hji⟩
    rw [← applyAll_snoc, ← applyAll_append, List.append_assoc, List.singleton_append, ← hsplit]
      at hgone
    refine hgone (hkeep id ?_)
    rcases hid with h | ⟨j, hj, hji⟩
    · exact .inl h
    · exact .inr ⟨j, by rw [hsplit]; exact List.mem_append_left _ hj, hji⟩
  · intro hspare id hid
    rcases held_or_later hspare incoming [] (by simp) hid with h | ⟨_, h, -⟩
    · exact h
    · simp at h

/-- A confirmed message, as `GET /rooms/{id}/messages` serves it. -/
def confirmedMessage (id author content : String) : ChatMessage where
  id := id
  roomId := "r"
  user := { id := author, username := author }
  content := some content
  messageType := "text"
  createdAt := "2026-07-05T15:30:00Z"
  updatedAt := "2026-07-05T15:30:00Z"
  readBy := []
  reactions := []

/-- The cache of a room with one confirmed message. -/
def evidenceCache : MessagesData :=
  ⟨[[confirmedMessage "m1" "alice" "the evidence"]], [none]⟩

/-- Another member's message, sent with the id of that message as its nonce. -/
def foreignNonce : IncomingMessage :=
  ⟨confirmedMessage "m2" "mallory" "hi", some "m1"⟩

/-- The echo overwrites the confirmed message in every cache of the room. -/
theorem nonce_overwrites_confirmed :
    ¬ MergeKeeps (some evidenceCache) [foreignNonce] "alice" := by
  rintro ⟨hconf, -⟩
  obtain ⟨m, hm, hid⟩ := hconf (confirmedMessage "m1" "alice" "the evidence") (by decide) rfl
  revert hid
  revert m
  decide

end ConvoyChat.Frontend
