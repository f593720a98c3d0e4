import ConvoyChat.Lib.Runs
import ConvoyChat.Store.RefreshTokens
import Mathlib.Logic.Function.Basic

/-!
# One browser session

`doRefresh` and `refreshAccessToken` (`frontend/lib/api.ts` lines 78–132) in any
number of tabs, against `Refresh` and `RotateRefreshToken`. Every tab has its own
copy of the refresh token (`frontend/lib/auth-store.ts`): `persist` writes it to
`localStorage` on each `set` and reads it back only when a tab loads, and the
shared `refreshPromise` covers the callers of one tab.

* `SessionInv`: at most one refresh is outstanding, and the token it presents, or
  else the persisted one, is live on the server.
* `refresh_never_reused`: in a run in which every tab refreshes with the persisted
  token while no other refresh is outstanding, and every committed rotation is
  answered, `RotateRefreshToken` never reports a reuse.
* `second_tab_reused`: two tabs of an idle session.
-/

namespace ConvoyChat.Frontend

open ConvoyChat.Lib ConvoyChat.Store

/-- The in-memory part of a tab: its copy of the refresh token, and whether its
    `refreshPromise` is set. -/
structure Tab where
  refreshToken : Option String
  refreshing : Bool
deriving DecidableEq

/-- The answer of `POST /auth/refresh`. -/
inductive RefreshReply
  | ok (refreshToken : String)
  | error (status : ℕ) (code message : String)
deriving DecidableEq

/-- A refresh on its way: a request, or the reply to one with whether its rotation
    was committed. `tab` is `none` once nobody waits for it any more. -/
inductive Packet
  | request (tab : Option ℕ) (refreshToken : String)
  | reply (tab : Option ℕ) (committed : Bool) (reply : RefreshReply)
deriving DecidableEq

/-- The table, `localStorage`, the open tabs, the refreshes on their way, and the
    results of `RotateRefreshToken` so far. -/
structure Session where
  table : RefreshTokens
  storage : Option String
  tabs : ℕ → Option Tab
  network : List Packet
  results : List (Except StoreErr RefreshToken)

inductive SessionAction
  /-- a tab opens, or reloads after `close` -/
  | load (tab : ℕ)
  /-- a tab calls `refreshAccessToken` -/
  | refresh (tab : ℕ)
  /-- the server handles the `i`-th packet; `failure` is the message of a 500 after
      the rotation -/
  | process (i : ℕ) (now clock : Time) (newID : UUID) (newToken : String) (newExpiresAt : Time)
      (failure : Option String)
  | deliver (i : ℕ)
  /-- the packet is lost and the `fetch` of its tab rejects -/
  | lose (i : ℕ)
  /-- the `fetch` of its tab rejects, but the packet travels on -/
  | giveUp (i : ℕ)
  | close (tab : ℕ)

/-- JavaScript's `!refreshToken`. -/
def missing (refreshToken : Option String) : Bool :=
  refreshToken = none || refreshToken = some ""

namespace Session

/-- `refreshPromise = null`, if the tab is still open. -/
def settle (s : Session) (tab : Option ℕ) : Session :=
  match tab with
  | none => s
  | some n =>
    match s.tabs n with
    | none => s
    | some t => { s with tabs := Function.update s.tabs n (some { t with refreshing := false }) }

/-- `setAuth` or `clearAuth` in tab `n`: the store of the tab, and `localStorage`. -/
def setAuth (s : Session) (n : ℕ) (refreshToken : Option String) : Session :=
  { s with
    tabs := Function.update s.tabs n (some { refreshToken, refreshing := false })
    storage := refreshToken }

/-- Nobody waits for the packet any more. -/
def orphan (n : ℕ) : Packet → Packet
  | .request tab token => .request (if tab = some n then none else tab) token
  | .reply tab committed r => .reply (if tab = some n then none else tab) committed r

/-- Model of `doRefresh` up to its `fetch` (`api.ts` lines 80–96). -/
def startRefresh (s : Session) (n : ℕ) (t : Tab) : Session :=
  match t.refreshToken with
  | none => s.setAuth n none
  | some token =>
    if missing (some token) then s.setAuth n none
    else
      { s with
        tabs := Function.update s.tabs n (some { t with refreshing := true })
        network := s.network ++ [.request (some n) token] }

/-- Model of `doRefresh` from its reply on (lines 98–112). -/
def receive (s : Session) (tab : Option ℕ) (r : RefreshReply) : Session :=
  match tab with
  | none => s
  | some n =>
    match s.tabs n, r with
    | none, _ => s
    | some _, .ok token => s.setAuth n (some token)
    | some _, .error _ _ _ => s.setAuth n none

end Session

/-- Model of `Refresh` after the JSON decoding (`internal/handlers/auth.go` lines
    221–259) on the result of the rotation. -/
def refreshReply (newToken : String) (failure : Option String) :
    Except StoreErr RefreshToken → RefreshReply
  | .error .notFound => .error 401 "unauthorized" "invalid or expired refresh token"
  | .error .refreshTokenReused => .error 401 "unauthorized" "invalid or expired refresh token"
  | .error .tokenExpired => .error 401 "unauthorized" "invalid or expired refresh token"
  | .error _ => .error 500 "internal_error" "failed to refresh session"
  | .ok _ =>
    match failure with
    | none => .ok newToken
    | some message => .error 500 "internal_error" message

def isOk : Except StoreErr RefreshToken → Bool
  | .ok _ => true
  | .error _ => false

/-- One step of the session; `hash` is `auth.HashRefreshToken`. -/
def sessionStep (hash : String → String) (s : Session) : SessionAction → Option Session
  | .load n =>
    match s.tabs n with
    | some _ => none
    | none => some { s with tabs := Function.update s.tabs n (some ⟨s.storage, false⟩) }
  | .refresh n =>
    match s.tabs n with
    | none => none
    | some t => if t.refreshing then some s else some (s.startRefresh n t)
  | .process i now clock newID newToken newExpiresAt failure =>
    match s.network[i]? with
    | some (.request tab token) =>
      let out :=
        rotateRefreshToken now clock newID (hash token) (hash newToken) newExpiresAt s.table
      some { s with
        table := out.2
        network := s.network.set i (.reply tab (isOk out.1) (refreshReply newToken failure out.1))
        results := s.results ++ [out.1] }
    | _ => none
  | .deliver i =>
    match s.network[i]? with
    | some (.reply tab _ r) => some ({ s with network := s.network.eraseIdx i }.receive tab r)
    | _ => none
  | .lose i =>
    match s.network[i]? with
    | some (.request tab _) => some ({ s with network := s.network.eraseIdx i }.settle tab)
    | some (.reply tab _ _) => some ({ s with network := s.network.eraseIdx i }.settle tab)
    | none => none
  | .giveUp i =>
    match s.network[i]? with
    | some (.request tab token) =>
      some ({ s with network := s.network.set i (.request none token) }.settle tab)
    | some (.reply tab committed r) =>
      some ({ s with network := s.network.set i (.reply none committed r) }.settle tab)
    | none => none
  | .close n =>
    match s.tabs n with
    | none => none
    | some _ =>
      some { s with
        tabs := Function.update s.tabs n none
        network := s.network.map (Session.orphan n) }

/-- The packet may still lead to a rotation, or reports a committed one. -/
def Packet.Matters : Packet → Prop
  | .request _ _ => True
  | .reply _ committed _ => committed = true

def Packet.tab : Packet → Option ℕ
  | .request tab _ => tab
  | .reply tab _ _ => tab

/-- A tab starts a refresh only while no refresh of any tab is outstanding and with
    the persisted token; no reply to a committed rotation is lost, and no tab gives
    up or closes while its request is on its way or its rotation is committed. -/
def RefreshesInTurn (s : Session) : SessionAction → Prop
  | .refresh n => ∀ t, s.tabs n = some t → t.refreshing = false →
      s.network = [] ∧ t.refreshToken = s.storage
  | .lose i => ∀ tab committed r, s.network[i]? = some (.reply tab committed r) → committed = false
  | .giveUp i => ∀ p, s.network[i]? = some p → ¬ p.Matters
  | .close n => ∀ p ∈ s.network, p.tab = some n → ¬ p.Matters
  | _ => True

/-! ## At most one refresh at a time -/

/-- The server would accept the token as unrevoked. -/
def Live (hash : String → String) (t : RefreshTokens) (token : String) : Prop :=
  ∃ x, getRefreshTokenByHash (hash token) t = .ok x ∧ x.revokedAt = none

/-- The persisted token, if there is one, is live. -/
def StorageLive (hash : String → String) (s : Session) : Prop :=
  ∀ token, s.storage = some token → Live hash s.table token

/-- What is live while a packet is on its way. -/
inductive Travels (hash : String → String) (s : Session) : Packet → Prop
  | request {n : ℕ} {token : String} (hopen : (s.tabs n).isSome = true)
      (hlive : StorageLive hash s) (htoken : Live hash s.table token) :
      Travels hash s (.request (some n) token)
  | reply {n : ℕ} {committed : Bool} {r : RefreshReply} (hopen : (s.tabs n).isSome = true)
      (hlive : committed = false → StorageLive hash s)
      (htoken : ∀ token, r = .ok token → Live hash s.table token) :
      Travels hash s (.reply (some n) committed r)
  | orphan {r : RefreshReply} (hlive : StorageLive hash s) : Travels hash s (.reply none false r)

/-- At most one packet is on its way. -/
def Outstanding (hash : String → String) (s : Session) : Prop :=
  (s.network = [] ∧ StorageLive hash s) ∨ ∃ p, s.network = [p] ∧ Travels hash s p

structure SessionInv (hash : String → String) (s : Session) : Prop where
  outstanding : Outstanding hash s
  results : Except.error StoreErr.refreshTokenReused ∉ s.results

section

variable {hash : String → String} {s : Session}

/-- An action on the `i`-th packet is on the only one. -/
theorem Outstanding.packet {i : ℕ} {p : Packet} (h : Outstanding hash s)
    (hi : s.network[i]? = some p) : i = 0 ∧ s.network = [p] ∧ Travels hash s p := by
  rcases h with ⟨hnet, -⟩ | ⟨q, hnet, hq⟩
  · simp [hnet] at hi
  · rw [hnet] at hi
    cases i with
    | zero =>
      obtain rfl : q = p := by simpa using hi
      exact ⟨rfl, hnet, hq⟩
    | succ i => simp at hi

theorem storageLive_of_eq {s' : Session} (h : StorageLive hash s) (ht : s'.table = s.table)
    (hs : s'.storage = s.storage) : StorageLive hash s' := by
  intro token htoken
  rw [ht]
  exact h token (by rw [← hs]; exact htoken)

theorem settle_storage (tab : Option ℕ) : (s.settle tab).storage = s.storage := by
  unfold Session.settle
  split
  · rfl
  · split <;> rfl

theorem settle_table (tab : Option ℕ) : (s.settle tab).table = s.table := by
  unfold Session.settle
  split
  · rfl
  · split <;> rfl

theorem settle_network (tab : Option ℕ) : (s.settle tab).network = s.network := by
  unfold Session.settle
  split
  · rfl
  · split <;> rfl

theorem settle_results (tab : Option ℕ) : (s.settle tab).results = s.results := by
  unfold Session.settle
  split
  · rfl
  · split <;> rfl

/-- Rotating a live token is not a reuse, and the token it issues is live. -/
theorem rotate_live {token : String} (newToken : String) (hlive : Live hash s.table token)
    (now clock : Time) (newID : UUID) (newExpiresAt : Time) :
    let out := rotateRefreshToken now clock newID (hash token) (hash newToken) newExpiresAt s.table
    out.1 ≠ .error .refreshTokenReused ∧ (isOk out.1 = false → out.2 = s.table) ∧
      (isOk out.1 = true → Live hash out.2 newToken) := by
  intro out
  obtain ⟨x, hx, hnone⟩ := hlive
  rcases rotateRefreshToken_cases now clock newID (hash token) (hash newToken) newExpiresAt s.table
    with ⟨⟨e, he, hne⟩, hsame⟩ | ⟨old, -, -, hrev, hget, -, -⟩ |
      ⟨old, -, -, -, -, hfresh, -, hok, htable⟩
  · refine ⟨?_, fun _ => hsame, ?_⟩
    · show out.1 ≠ _
      rw [show out.1 = .error e from he]
      simpa using hne
    · intro h
      rw [show out.1 = .error e from he] at h
      cases h
  · -- the row that is found is live
    rw [hx] at hget
    cases hget
    rw [hnone] at hrev
    cases hrev
  · have hok' : out.1 = .ok _ := hok
    refine ⟨by rw [hok']; simp, ?_, fun _ => ?_⟩
    · intro h
      rw [hok'] at h
      cases h
    · refine ⟨⟨newID, old.userID, hash newToken, old.familyID, now, newExpiresAt, none⟩, ?_, rfl⟩
      rw [show out.2 = _ from htable]
      unfold getRefreshTokenByHash
      rw [List.find?_append, List.find?_eq_none.mpr]
      · simp
      · intro y hy
        obtain ⟨z, hz, rfl⟩ := mem_updateWhere.mp hy
        split_ifs
        · simpa using hfresh z hz
        · simpa using hfresh z hz

/-- Without a packet on its way, the persisted token is live. -/
theorem Outstanding.storageLive (h : Outstanding hash s) (hnet : s.network = []) :
    StorageLive hash s := by
  rcases h with ⟨-, hlive⟩ | ⟨p, hp, -⟩
  · exact hlive
  · rw [hnet] at hp
    cases hp

theorem outstanding_setAuth {n : ℕ} {token : Option String} (hnet : s.network = [])
    (hlive : ∀ t, token = some t → Live hash s.table t) : Outstanding hash (s.setAuth n token) :=
  .inl ⟨hnet, hlive⟩

theorem SessionInv.load {n : ℕ} {t : Tab} (h : SessionInv hash s) :
    SessionInv hash { s with tabs := Function.update s.tabs n (some t) } := by
  refine ⟨?_, h.results⟩
  have hopen : ∀ m, (s.tabs m).isSome = true →
      (Function.update s.tabs n (some t) m).isSome = true := by
    intro m hm
    by_cases hmn : m = n
    · simp [hmn]
    · simpa [hmn] using hm
  rcases h.outstanding with hidle | ⟨p, hnet, hp⟩
  · exact .inl hidle
  · refine .inr ⟨p, hnet, ?_⟩
    cases hp with
    | request ho hlive htoken => exact .request (hopen _ ho) hlive htoken
    | reply ho hlive htoken => exact .reply (hopen _ ho) hlive htoken
    | orphan hlive => exact .orphan hlive

theorem SessionInv.startRefresh {n : ℕ} {t : Tab} (h : SessionInv hash s) (hnet : s.network = [])
    (htoken : t.refreshToken = s.storage) : SessionInv hash (s.startRefresh n t) := by
  have hlive := h.outstanding.storageLive hnet
  unfold Session.startRefresh
  split
  · exact ⟨outstanding_setAuth hnet (by simp), h.results⟩
  · rename_i token htok
    split_ifs
    · exact ⟨outstanding_setAuth hnet (by simp), h.results⟩
    · refine ⟨.inr ⟨.request (some n) token, by simp [hnet], ?_⟩, h.results⟩
      exact .request (by simp) hlive (hlive token (by rw [← htoken, htok]))

theorem refreshReply_ok {newToken token : String} {failure : Option String}
    {out : Except StoreErr RefreshToken} (h : refreshReply newToken failure out = .ok token) :
    isOk out = true ∧ token = newToken := by
  unfold refreshReply at h
  split at h
  · cases h
  · cases h
  · cases h
  · cases h
  · split at h
    · cases h
      exact ⟨rfl, rfl⟩
    · cases h

theorem SessionInv.process {i : ℕ} {tab : Option ℕ} {token newToken : String}
    (h : SessionInv hash s) (hi : s.network[i]? = some (.request tab token)) (now clock : Time)
    (newID : UUID) (newExpiresAt : Time) (failure : Option String) :
    let out := rotateRefreshToken now clock newID (hash token) (hash newToken) newExpiresAt s.table
    SessionInv hash { s with
      table := out.2
      network := s.network.set i (.reply tab (isOk out.1) (refreshReply newToken failure out.1))
      results := s.results ++ [out.1] } := by
  intro out
  obtain ⟨rfl, hnet, hp⟩ := h.outstanding.packet hi
  cases hp with
  | request hopen hlive htoken =>
    obtain ⟨hreuse, hsame, hnew⟩ := rotate_live newToken htoken now clock newID newExpiresAt
    refine ⟨.inr ⟨_, by rw [hnet]; rfl, .reply hopen ?_ ?_⟩, ?_⟩
    · exact fun hc => storageLive_of_eq hlive (hsame hc) rfl
    · intro token' hr
      obtain ⟨hok, rfl⟩ := refreshReply_ok hr
      exact hnew hok
    · simp only [List.mem_append, List.mem_singleton, not_or]
      exact ⟨h.results, fun heq => hreuse heq.symm⟩

theorem receive_results (tab : Option ℕ) (r : RefreshReply) :
    (s.receive tab r).results = s.results := by
  unfold Session.receive
  split
  · rfl
  · split <;> rfl

theorem SessionInv.deliver {i : ℕ} {tab : Option ℕ} {c : Bool} {r : RefreshReply}
    (h : SessionInv hash s) (hi : s.network[i]? = some (.reply tab c r)) :
    SessionInv hash (Session.receive { s with network := s.network.eraseIdx i } tab r) := by
  refine ⟨?_, by rw [receive_results]; exact h.results⟩
  obtain ⟨rfl, hnet, hp⟩ := h.outstanding.packet hi
  have hempty : s.network.eraseIdx 0 = [] := by simp [hnet]
  cases hp with
  | reply hopen hlive htoken =>
    obtain ⟨t, ht⟩ := Option.isSome_iff_exists.mp hopen
    simp only [Session.receive, ht]
    cases r with
    | ok token =>
      refine outstanding_setAuth hempty fun token' htok => ?_
      cases htok
      exact htoken token rfl
    | error status code message => exact outstanding_setAuth hempty (by simp)
  | orphan hlive => exact .inl ⟨hempty, hlive⟩

/-- A packet that does not matter goes, and its tab stops waiting. -/
theorem SessionInv.lose {i : ℕ} {p : Packet} {tab : Option ℕ} (h : SessionInv hash s)
    (hi : s.network[i]? = some p) (hp : ∀ tab c r, p = .reply tab c r → c = false) :
    SessionInv hash (Session.settle { s with network := s.network.eraseIdx i } tab) := by
  obtain ⟨rfl, hnet, htravels⟩ := h.outstanding.packet hi
  have hlive : StorageLive hash s := by
    cases htravels with
    | request _ hlive _ => exact hlive
    | reply _ hlive _ => exact hlive (hp _ _ _ rfl)
    | orphan hlive => exact hlive
  refine ⟨.inl ⟨?_, ?_⟩, ?_⟩
  · rw [settle_network]
    simp [hnet]
  · exact storageLive_of_eq hlive (settle_table tab) (settle_storage tab)
  · rw [settle_results]
    exact h.results

theorem SessionInv.giveUp {i : ℕ} {tab tab' : Option ℕ} {r : RefreshReply}
    (h : SessionInv hash s) (hi : s.network[i]? = some (.reply tab false r)) :
    SessionInv hash
      (Session.settle { s with network := s.network.set i (.reply none false r) } tab') := by
  obtain ⟨rfl, hnet, htravels⟩ := h.outstanding.packet hi
  have hlive : StorageLive hash s := by
    cases htravels with
    | reply _ hlive _ => exact hlive rfl
    | orphan hlive => exact hlive
  refine ⟨.inr ⟨.reply none false r, ?_, .orphan ?_⟩, ?_⟩
  · rw [settle_network]
    simp [hnet]
  · exact storageLive_of_eq hlive (settle_table tab') (settle_storage tab')
  · rw [settle_results]
    exact h.results

theorem SessionInv.close {n : ℕ} (h : SessionInv hash s)
    (hn : ∀ p ∈ s.network, p.tab = some n → ¬ p.Matters) :
    SessionInv hash { s with
      tabs := Function.update s.tabs n none
      network := s.network.map (Session.orphan n) } := by
  refine ⟨?_, h.results⟩
  rcases h.outstanding with ⟨hnet, hlive⟩ | ⟨p, hnet, hp⟩
  · exact .inl ⟨by simp [hnet], hlive⟩
  · refine .inr ⟨Session.orphan n p, by simp [hnet], ?_⟩
    have hother : ∀ m, p.tab = some m → p.Matters → m ≠ n := by
      rintro m hm hmat rfl
      exact hn p (by simp [hnet]) hm hmat
    cases hp with
    | request hopen hlive htoken =>
      rename_i m token
      have hm : m ≠ n := hother m rfl trivial
      simp only [Session.orphan, hm, if_false, Option.some.injEq]
      exact .request (by simpa [hm] using hopen) hlive htoken
    | reply hopen hlive htoken =>
      rename_i m c r
      by_cases hm : m = n
      · -- only a reply without a rotation is left behind
        have hc : c = false := by
          by_contra hc
          exact hother m rfl (by simpa [Packet.Matters] using hc) hm
        simp only [Session.orphan, hm, if_true, hc]
        exact .orphan (hlive hc)
      · simp only [Session.orphan, Option.some.injEq, hm, if_false]
        exact .reply (by simpa [hm] using hopen) hlive htoken
    | orphan hlive => exact .orphan hlive

theorem SessionInv.step {a : SessionAction} {s' : Session} (h : SessionInv hash s)
    (hok : RefreshesInTurn s a) (hstep : sessionStep hash s a = some s') : SessionInv hash s' := by
  cases a with
  | load n =>
    simp only [sessionStep] at hstep
    split at hstep
    · cases hstep
    · cases hstep
      exact h.load
  | refresh n =>
    simp only [sessionStep] at hstep
    split at hstep
    · cases hstep
    · rename_i t ht
      split_ifs at hstep with hbusy
      · cases hstep
        exact h
      · cases hstep
        obtain ⟨hnet, htoken⟩ := hok t ht (by simpa using hbusy)
        exact h.startRefresh hnet htoken
  | process i now clock newID newToken newExpiresAt failure =>
    simp only [sessionStep] at hstep
    split at hstep
    · rename_i tab token hi
      cases hstep
      exact h.process hi now clock newID newExpiresAt failure
    · cases hstep
  | deliver i =>
    simp only [sessionStep] at hstep
    split at hstep
    · rename_i hi
      cases hstep
      exact h.deliver hi
    · cases hstep
  | lose i =>
    simp only [sessionStep] at hstep
    split at hstep
    · rename_i hi
      cases hstep
      exact h.lose hi (by simp)
    · rename_i tab c r hi
      cases hstep
      refine h.lose hi fun tab' c' r' hp => ?_
      cases hp
      exact hok tab c r hi
    · cases hstep
  | giveUp i =>
    simp only [sessionStep] at hstep
    split at hstep
    · rename_i hi
      exact absurd trivial (hok _ hi)
    · rename_i tab c r hi
      cases hstep
      have hc : c = false := by simpa [Packet.Matters] using hok _ hi
      subst hc
      exact h.giveUp hi
    · cases hstep
  | close n =>
    simp only [sessionStep] at hstep
    split at hstep
    · cases hstep
    · cases hstep
      exact h.close hok

end

/-- A session right after the login, before any tab has loaded it. -/
def loggedIn (table : RefreshTokens) (token : String) : Session :=
  ⟨table, some token, fun _ => none, [], []⟩

/-- In every run whose refreshes are taken in turn, `RotateRefreshToken` never
    returns `ErrRefreshTokenReused`. -/
theorem refresh_never_reused (hash : String → String) (table : RefreshTokens) (token : String)
    (hlive : Live hash table token) (s : Session)
    (hrun : Reach (sessionStep hash) RefreshesInTurn (loggedIn table token) s) :
    Except.error StoreErr.refreshTokenReused ∉ s.results := by
  have hstart : SessionInv hash (loggedIn table token) := by
    refine ⟨.inl ⟨rfl, fun token' htok => ?_⟩, by simp [loggedIn]⟩
    cases htok
    exact hlive
  have hinv : SessionInv hash s :=
    Reach.invariant (SessionInv hash) (fun _ _ _ h hok hs => h.step hok hs) hrun hstart
  exact hinv.results

/-- A login of user 7: one live token. -/
def loginTable : RefreshTokens := [⟨1, 7, "gen1", 3, 10, 100, none⟩]

/-- A tab loads the session and refreshes it. -/
def refreshActions (tab : ℕ) (newID : UUID) (newToken : String) : List SessionAction :=
  [.refresh tab, .process 0 20 20 newID newToken 200 none, .deliver 0]

theorem refreshActions_meets {s : Session} {t : Tab} {newID : UUID} {newToken : String} (n : ℕ)
    (hnet : s.network = []) (ht : s.tabs n = some t) (htoken : t.refreshToken = s.storage) :
    Meets (sessionStep id) RefreshesInTurn s (refreshActions n newID newToken) := by
  refine ⟨?_, fun s₁ _ => ⟨trivial, fun s₂ _ => ⟨trivial, fun s₃ _ => trivial⟩⟩⟩
  intro t' ht' _
  rw [ht] at ht'
  cases ht'
  exact ⟨hnet, htoken⟩

/-- The tab that a login opens, after its first refresh. -/
def refreshedSession : Session :=
  (exec (sessionStep id) (loggedIn loginTable "gen1") (.load 0 :: refreshActions 0 2 "gen2")).getD
    (loggedIn loginTable "gen1")

theorem refresh_never_reused_once :
    refreshedSession.results = [.ok ⟨2, 7, "gen2", 3, 20, 200, none⟩] ∧
      Except.error StoreErr.refreshTokenReused ∉ refreshedSession.results := by
  refine ⟨rfl, refresh_never_reused id loginTable "gen1" ⟨_, rfl, rfl⟩ refreshedSession ?_⟩
  have hmeets : Meets (sessionStep id) RefreshesInTurn (loggedIn loginTable "gen1")
      (.load 0 :: refreshActions 0 2 "gen2") := by
    refine ⟨trivial, fun s₁ h₁ => ?_⟩
    cases h₁
    exact refreshActions_meets 0 rfl rfl rfl
  exact Reach.of_exec hmeets rfl

/-- Two tabs load the session; the first one refreshes it, and later the second
    one, with the token that it loaded. -/
def twoTabsActions : List SessionAction :=
  [.load 0, .load 1] ++ refreshActions 0 2 "gen2" ++
    [.refresh 1, .process 0 50 50 4 "gen3" 250 none]

def twoTabsSession : Session :=
  (exec (sessionStep id) (loggedIn loginTable "gen1") twoTabsActions).getD
    (loggedIn loginTable "gen1")

/-- The second tab of an idle session is taken for a thief, and the whole family is
    revoked. -/
theorem second_tab_reused :
    Live id loginTable "gen1" ∧
      Reach (sessionStep id) Unguarded (loggedIn loginTable "gen1") twoTabsSession ∧
      Except.error StoreErr.refreshTokenReused ∈ twoTabsSession.results ∧
      ∀ x ∈ twoTabsSession.table, x.revokedAt ≠ none := by
  refine ⟨⟨_, rfl, rfl⟩, Reach.of_exec (meets_unguarded _ _ twoTabsActions) rfl, ?_, ?_⟩
  · decide
  · decide

end ConvoyChat.Frontend
