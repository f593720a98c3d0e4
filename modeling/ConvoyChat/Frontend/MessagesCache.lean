import Mathlib.Data.List.Basic

/-!
# The message cache of the web client

Models of the merge helpers of `frontend/lib/messagesCache.ts`. The cache is the
`useInfiniteQuery` structure: a list of pages, newest first, and their cursors.

A JavaScript string used as a condition is true when it is not empty; an absent
optional field is `none`; `null` content is `none`.

* `replaceFirst_eq_some`, `replaceFirst_eq_none`: `replaceFirst` on pages is the
  replacement of the first match in the flattened list.
* `applyOne_cases`: the four merge rules, on the flattened list.
-/

namespace ConvoyChat.Frontend

/-- `status?: "sending" | "failed"` of an unconfirmed bubble (line 20). -/
inductive SendStatus
  | sending
  | failed
deriving DecidableEq, Repr

/-- `UserSummary` of `frontend/lib/types.ts`. -/
structure UserSummary where
  id : String
  username : String
  avatarUrl : Option String := none
deriving DecidableEq, Repr

/-- `MessageReactionSummary` of `frontend/lib/types.ts`. -/
structure ReactionGroup where
  emoji : String
  count : Nat
  userIds : List String
deriving DecidableEq, Repr

/-- `ChatMessage` (`messagesCache.ts` line 20): a `MessageWithAuthor` with the
    client-only `status`. -/
structure ChatMessage where
  id : String
  roomId : String
  user : UserSummary
  content : Option String
  messageType : String
  editedAt : Option String := none
  deletedAt : Option String := none
  createdAt : String
  updatedAt : String
  readBy : List String
  reactions : List ReactionGroup
  status : Option SendStatus := none
deriving DecidableEq, Repr

abbrev MessagesPage := List ChatMessage

/-- `MessagesData`, the `InfiniteData<MessagesPage>` of the query client. -/
structure MessagesData where
  pages : List MessagesPage
  pageParams : List (Option String)
deriving DecidableEq, Repr

/-- `IncomingMessage` (lines 62–65). -/
structure IncomingMessage where
  message : ChatMessage
  clientId : Option String := none
deriving DecidableEq, Repr

/-- `findById` (lines 67–69). -/
def findById (pages : List MessagesPage) (id : String) : Bool :=
  pages.any fun page => page.any fun m => m.id = id

/-- The inner `page.map` of `replaceFirst`, threading the flag `done`. -/
def replaceInPage (pred : ChatMessage → Bool) (replacement : ChatMessage) :
    Bool → MessagesPage → Bool × MessagesPage
  | done, [] => (done, [])
  | done, m :: page =>
    if !done && pred m then
      let (d, rest) := replaceInPage pred replacement true page
      (d, replacement :: rest)
    else
      let (d, rest) := replaceInPage pred replacement done page
      (d, m :: rest)

/-- The outer `pages.map` of `replaceFirst`. -/
def replaceInPages (pred : ChatMessage → Bool) (replacement : ChatMessage) :
    Bool → List MessagesPage → Bool × List MessagesPage
  | done, [] => (done, [])
  | done, page :: pages =>
    let (d₁, page') := replaceInPage pred replacement done page
    let (d₂, pages') := replaceInPages pred replacement d₁ pages
    (d₂, page' :: pages')

/-- Model of `replaceFirst` (lines 82–97). -/
def replaceFirst (pages : List MessagesPage) (pred : ChatMessage → Bool)
    (replacement : ChatMessage) : Option (List MessagesPage) :=
  let (done, next) := replaceInPages pred replacement false pages
  if done then some next else none

/-- Rule (a) of `applyOne` (lines 104–107): replace the message whose id is the
    nonce. An empty `clientId` is falsy. -/
def applyByNonce (pages : List MessagesPage) (inc : IncomingMessage) : Option (List MessagesPage) :=
  match inc.clientId with
  | none => none
  | some clientId =>
    if clientId = "" then none
    else replaceFirst pages (fun m => m.id = clientId) inc.message

/-- Rule (c) of `applyOne` (lines 118–121): a confirmed message of our own
    replaces the first pending bubble of the same content. -/
def applyByContent (pages : List MessagesPage) (message : ChatMessage) (currentUserId : String) :
    Option (List MessagesPage) :=
  if message.status.isNone && message.user.id = currentUserId then
    replaceFirst pages (fun m => m.status.isSome && m.content = message.content) message
  else none

/-- Rule (d) of `applyOne` (lines 126–127): the front of page 0. -/
def prependMessage (pages : List MessagesPage) (message : ChatMessage) : List MessagesPage :=
  match pages with
  | [] => [[message]]
  | page :: rest => (message :: page) :: rest

/-- Model of `applyOne` (lines 99–128). -/
def applyOne (pages : List MessagesPage) (inc : IncomingMessage) (currentUserId : String) :
    List MessagesPage :=
  match applyByNonce pages inc with
  | some byNonce => byNonce
  | none =>
    if findById pages inc.message.id then pages
    else
      match applyByContent pages inc.message currentUserId with
      | some byContent => byContent
      | none => prependMessage pages inc.message

/-- The `for (const inc of incoming)` loop of `upsertMessages` (lines 139–141). -/
def applyAll (pages : List MessagesPage) (incoming : List IncomingMessage)
    (currentUserId : String) : List MessagesPage :=
  incoming.foldl (fun pages inc => applyOne pages inc currentUserId) pages

/-- The pages a cache holds; a missing cache holds none (line 138). -/
def pagesOf (data : Option MessagesData) : List MessagesPage :=
  match data with
  | none => []
  | some d => d.pages

/-- Model of `upsertMessages` (lines 133–147). -/
def upsertMessages (data : Option MessagesData) (incoming : List IncomingMessage)
    (currentUserId : String) : MessagesData :=
  let merged := applyAll (pagesOf data) incoming currentUserId
  let pages := if merged.length = 0 then [[]] else merged
  let pageParams :=
    match data with
    | some d => if d.pageParams.length = pages.length then d.pageParams
        else List.replicate pages.length none
    | none => List.replicate pages.length none
  { pages := pages, pageParams := pageParams }

/-! ## The flattened cache -/

theorem findById_iff {pages : List MessagesPage} {id : String} :
    findById pages id = true ↔ ∃ m ∈ pages.flatten, m.id = id := by
  simp only [findById, List.any_eq_true, decide_eq_true_eq, List.mem_flatten]
  constructor
  · rintro ⟨page, hpage, m, hm, rfl⟩
    exact ⟨m, ⟨page, hpage, hm⟩, rfl⟩
  · rintro ⟨m, ⟨page, hpage, hm⟩, rfl⟩
    exact ⟨page, hpage, m, hm, rfl⟩

section Replace

variable (pred : ChatMessage → Bool) (r : ChatMessage)

@[simp] theorem replaceInPage_true (page : MessagesPage) :
    replaceInPage pred r true page = (true, page) := by
  induction page with
  | nil => rfl
  | cons m page ih => simp [replaceInPage, ih]

@[simp] theorem replaceInPages_true (pages : List MessagesPage) :
    replaceInPages pred r true pages = (true, pages) := by
  induction pages with
  | nil => rfl
  | cons page pages ih => simp [replaceInPages, ih]

/-- The outcome of a scan of `before`: nothing matched and nothing changed, or
    the first match was replaced. -/
def Scanned (pred : ChatMessage → Bool) (r : ChatMessage) (before : List ChatMessage)
    (found : Bool) (after : List ChatMessage) : Prop :=
  (found = false ∧ after = before ∧ ∀ m ∈ before, pred m = false) ∨
  (found = true ∧ ∃ a m b, before = a ++ m :: b ∧ pred m = true ∧ (∀ x ∈ a, pred x = false) ∧
    after = a ++ r :: b)

variable {pred r}

theorem Scanned.cons {m : ChatMessage} (hm : pred m = false) {before after : List ChatMessage}
    {found : Bool} (h : Scanned pred r before found after) :
    Scanned pred r (m :: before) found (m :: after) := by
  rcases h with ⟨hf, rfl, hnone⟩ | ⟨hf, a, x, b, rfl, hx, ha, rfl⟩
  · refine .inl ⟨hf, rfl, ?_⟩
    intro y hy
    rcases List.mem_cons.mp hy with rfl | hy
    · exact hm
    · exact hnone y hy
  · refine .inr ⟨hf, m :: a, x, b, rfl, hx, ?_, rfl⟩
    intro y hy
    rcases List.mem_cons.mp hy with rfl | hy
    · exact hm
    · exact ha y hy

/-- A scan that finds nothing in `xs` goes on in `ys`. -/
theorem Scanned.append {xs ys ys' : List ChatMessage} {found : Bool}
    (hxs : ∀ m ∈ xs, pred m = false) (h : Scanned pred r ys found ys') :
    Scanned pred r (xs ++ ys) found (xs ++ ys') := by
  induction xs with
  | nil => exact h
  | cons m xs ih =>
    exact (ih fun y hy => hxs y (List.mem_cons_of_mem _ hy)).cons (hxs m List.mem_cons_self)

variable (pred r)

theorem replaceInPage_scanned (page : MessagesPage) :
    Scanned pred r page (replaceInPage pred r false page).1
      (replaceInPage pred r false page).2 := by
  induction page with
  | nil => exact .inl ⟨rfl, rfl, by simp⟩
  | cons m page ih =>
    by_cases hm : pred m = true
    · exact .inr ⟨by simp [replaceInPage, hm], [], m, page, rfl, hm, by simp,
        by simp [replaceInPage, hm]⟩
    · have hm' : pred m = false := by simpa using hm
      simpa [replaceInPage, hm'] using ih.cons hm'

theorem replaceInPages_scanned (pages : List MessagesPage) :
    Scanned pred r pages.flatten (replaceInPages pred r false pages).1
      (replaceInPages pred r false pages).2.flatten := by
  induction pages with
  | nil => exact .inl ⟨rfl, rfl, by simp⟩
  | cons page pages ih =>
    rcases hpage : replaceInPage pred r false page with ⟨d, page'⟩
    have hscan := replaceInPage_scanned pred r page
    rw [hpage] at hscan
    simp only [replaceInPages, hpage, List.flatten_cons]
    rcases hscan with ⟨hd, hp, hnone⟩ | ⟨hd, a, m, b, hp, hm, ha, hp'⟩
    · dsimp only at hd hp
      subst hd hp
      exact ih.append hnone
    · dsimp only at hd hp'
      subst hd hp'
      simp only [replaceInPages_true, hp]
      exact .inr ⟨rfl, a, m, b ++ pages.flatten, by simp, hm, ha, by simp⟩

variable {pred r}

theorem replaceFirst_eq_some {pages next : List MessagesPage}
    (h : replaceFirst pages pred r = some next) :
    ∃ a m b, pages.flatten = a ++ m :: b ∧ pred m = true ∧ (∀ x ∈ a, pred x = false) ∧
      next.flatten = a ++ r :: b := by
  have hscan := replaceInPages_scanned pred r pages
  simp only [replaceFirst] at h
  split_ifs at h with hd
  cases h
  rcases hscan with ⟨hf, -, -⟩ | ⟨-, hfound⟩
  · simp [hf] at hd
  · exact hfound

theorem replaceFirst_eq_none {pages : List MessagesPage} (h : replaceFirst pages pred r = none) :
    ∀ m ∈ pages.flatten, pred m = false := by
  have hscan := replaceInPages_scanned pred r pages
  simp only [replaceFirst] at h
  split_ifs at h with hd
  rcases hscan with ⟨-, -, hnone⟩ | ⟨hf, -⟩
  · exact hnone
  · exact absurd hf hd

end Replace

theorem flatten_prependMessage (pages : List MessagesPage) (message : ChatMessage) :
    (prependMessage pages message).flatten = message :: pages.flatten := by
  cases pages <;> simp [prependMessage]

/-- The held message that merging `inc` overwrites: the first one whose id is
    its (non-empty) nonce; failing that, and if the incoming id is not held, the
    first pending bubble of the same content when the message is a confirmed one
    of the current user. -/
def overwritten (held : List ChatMessage) (inc : IncomingMessage) (currentUserId : String) :
    Option ChatMessage :=
  let byNonce := inc.clientId.bind fun c => if c = "" then none else held.find? fun m => m.id = c
  byNonce.or <|
    if held.any fun m => m.id = inc.message.id then none
    else if inc.message.status.isNone && inc.message.user.id = currentUserId then
      held.find? fun m => m.status.isSome && m.content = inc.message.content
    else none

/-- `applyOne` on the flattened list: it overwrites the message `overwritten`
    names, in place; if there is none it keeps the list when the incoming id is
    held and prepends the message otherwise. -/
theorem applyOne_cases (pages : List MessagesPage) (inc : IncomingMessage) (uid : String) :
    (∃ a m b, overwritten pages.flatten inc uid = some m ∧ pages.flatten = a ++ m :: b ∧
      (applyOne pages inc uid).flatten = a ++ inc.message :: b) ∨
    (overwritten pages.flatten inc uid = none ∧ (∃ m ∈ pages.flatten, m.id = inc.message.id) ∧
      (applyOne pages inc uid).flatten = pages.flatten) ∨
    (overwritten pages.flatten inc uid = none ∧ (¬ ∃ m ∈ pages.flatten, m.id = inc.message.id) ∧
      (applyOne pages inc uid).flatten = inc.message :: pages.flatten) := by
  have hfind : ∀ {pred : ChatMessage → Bool} {a b : List ChatMessage} {m : ChatMessage},
      pages.flatten = a ++ m :: b → pred m = true → (∀ x ∈ a, pred x = false) →
      pages.flatten.find? pred = some m := by
    intro pred a b m hflat hm ha
    rw [hflat, List.find?_append, List.find?_eq_none.mpr fun x hx => by simp [ha x hx]]
    simp [hm]
  have hnone : ∀ {pred : ChatMessage → Bool}, (∀ x ∈ pages.flatten, pred x = false) →
      pages.flatten.find? pred = none :=
    fun h => List.find?_eq_none.mpr fun x hx => by simp [h x hx]
  unfold applyOne
  cases hby : applyByNonce pages inc with
  | some next =>
    -- rule (a)
    simp only [applyByNonce] at hby
    cases hc : inc.clientId with
    | none => simp [hc] at hby
    | some c =>
      simp only [hc] at hby
      split_ifs at hby with hempty
      obtain ⟨a, m, b, hflat, hm, ha, hnext⟩ := replaceFirst_eq_some hby
      refine .inl ⟨a, m, b, ?_, hflat, hnext⟩
      simp only [overwritten, hc, Option.bind_some, if_neg hempty, hfind hflat hm ha,
        Option.some_or]
  | none =>
    have hnonce : (inc.clientId.bind fun c =>
        if c = "" then none else pages.flatten.find? fun m => m.id = c) = none := by
      simp only [applyByNonce] at hby
      cases hc : inc.clientId with
      | none => rfl
      | some c =>
        simp only [hc] at hby
        split_ifs at hby with hempty
        · simp [hempty]
        · simp only [Option.bind_some, if_neg hempty]
          exact hnone (replaceFirst_eq_none hby)
    simp only [overwritten, hnonce, Option.none_or]
    have hany : (pages.flatten.any fun m => m.id = inc.message.id) =
        findById pages inc.message.id := by
      rw [Bool.eq_iff_iff, findById_iff]
      simp only [List.any_eq_true, decide_eq_true_eq]
    rw [hany]
    by_cases hheld : findById pages inc.message.id = true
    · -- rule (b)
      exact .inr (.inl ⟨by rw [if_pos hheld], findById_iff.mp hheld, by rw [if_pos hheld]⟩)
    · simp only [hheld]
      cases hcont : applyByContent pages inc.message uid with
      | some next =>
        -- rule (c)
        simp only [applyByContent] at hcont
        split_ifs at hcont with hown
        obtain ⟨a, m, b, hflat, hm, ha, hnext⟩ := replaceFirst_eq_some hcont
        refine .inl ⟨a, m, b, ?_, hflat, hnext⟩
        rw [if_neg (by simp), if_pos hown]
        exact hfind hflat hm ha
      | none =>
        -- rule (d)
        refine .inr (.inr ⟨?_, fun h => hheld (findById_iff.mpr h),
          flatten_prependMessage pages inc.message⟩)
        rw [if_neg (by simp)]
        split_ifs with hown
        · simp only [applyByContent, if_pos hown] at hcont
          exact hnone (replaceFirst_eq_none hcont)
        · rfl

/-- `upsertMessages` holds what the loop leaves; the extra empty page adds
    nothing. -/
theorem upsertMessages_flatten (data : Option MessagesData) (incoming : List IncomingMessage)
    (uid : String) :
    (upsertMessages data incoming uid).pages.flatten =
      (applyAll (pagesOf data) incoming uid).flatten := by
  simp only [upsertMessages]
  split_ifs with h
  · simp [List.length_eq_zero_iff.mp h]
  · rfl

end ConvoyChat.Frontend
