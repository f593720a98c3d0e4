import ConvoyChat.Frontend.MessagesCache
import ConvoyChat.Frontend.Session

/-!
# The auth store of one tab

`useAuthStore` (`frontend/lib/auth-store.ts` lines 27–46) and everything that writes it:
`doRefresh` behind `refreshAccessToken` (`api.ts` lines 78–132), the successes of login
and signup, and `logout` with the retry of its request after a `401` (`useAuth.ts` lines
23–60, `api.ts` lines 134–180). A refresh reads the refresh token before its `fetch` and
writes the store after it, whatever has happened to the store in between.

`owner` records which session a refresh token was issued for: a login or signup begins a
session, a rotation continues the session of the token that was presented. Tokens are
random, so a new one was never issued before.

* `refresh_own_session_iff`: an answered refresh leaves every session but its own alone
  if and only if no login, signup or logout has written the store since it began, or it
  changes nothing (the server was not reached, or it rejects and the store is empty).
* `refresh_outlives_logout`: a refresh that is answered after a logout.
-/

namespace ConvoyChat.Frontend

open ConvoyChat.Lib

/-- The persisted part of the store. -/
structure AuthState where
  user : Option UserSummary
  token : Option String
  refreshToken : Option String
deriving DecidableEq

/-- The state that `clearAuth` sets. -/
def AuthState.empty : AuthState := ⟨none, none, none⟩

/-- The answer of login, signup and refresh. -/
structure AuthResponse where
  user : UserSummary
  token : String
  refreshToken : String
deriving DecidableEq

/-- The state that `setAuth` sets. -/
def AuthResponse.state (auth : AuthResponse) : AuthState :=
  ⟨some auth.user, some auth.token, some auth.refreshToken⟩

/-- `refreshPromise`: the `fetch` is on its way with the token `presented`, or the promise
    is settled and its `finally` has not run yet. `disturbed` if a login, a signup or a
    logout has written the store since `doRefresh` read it. -/
inductive RefreshCall
  | fetching (presented : String) (disturbed : Bool)
  | settled (ok : Bool)
deriving DecidableEq

/-- A call of `logout`. -/
inductive LogoutCall
  /-- the `POST` is on its way, the second one if `retried` -/
  | posted (retried : Bool)
  /-- it waits for `refreshAccessToken` -/
  | waiting
  /-- what it waited for is settled -/
  | resumed (ok : Bool)
deriving DecidableEq

/-- What becomes of the `fetch` of `doRefresh`. -/
inductive RefreshResult
  | ok (auth : AuthResponse)
  /-- `!res.ok` -/
  | rejected
  /-- `fetch` or the reading of the body throws -/
  | unreachable
deriving DecidableEq

structure AuthTab where
  store : AuthState
  refreshPromise : Option RefreshCall
  logouts : ℕ → Option LogoutCall
  /-- the session of a refresh token -/
  owner : String → Option ℕ
  /-- the number of sessions so far -/
  sessions : ℕ

inductive AuthAction
  /-- something calls `refreshAccessToken` -/
  | refresh
  | respond (result : RefreshResult)
  /-- the `finally` of `refreshAccessToken` -/
  | settle
  /-- `onSuccess` of login or signup -/
  | signIn (auth : AuthResponse)
  | logout (n : ℕ)
  /-- the `POST` of `logout` is answered, with a `401` if `unauthorized`, or fails -/
  | logoutAnswered (n : ℕ) (unauthorized : Bool)
  /-- a `logout` goes on after `refreshAccessToken` -/
  | logoutResumed (n : ℕ)
deriving DecidableEq

namespace AuthTab

/-- The tab has loaded what `localStorage` holds. -/
def start (persisted : AuthState) : AuthTab where
  store := persisted
  refreshPromise := none
  logouts _ := none
  owner token := if persisted.refreshToken = some token then some 0 else none
  sessions := 1

/-- The session that the store holds. -/
def session (s : AuthTab) : Option ℕ := s.store.refreshToken.bind s.owner

/-- Note that the store was written by something else than the refresh. -/
def disturb (s : AuthTab) : AuthTab :=
  match s.refreshPromise with
  | some (.fetching presented _) => { s with refreshPromise := some (.fetching presented true) }
  | _ => s

/-- `clearAuth()` at the end of `logout`. -/
def signOut (s : AuthTab) (n : ℕ) : AuthTab :=
  { s with store := .empty, logouts := Function.update s.logouts n none }.disturb

/-- Model of `refreshAccessToken`, with `doRefresh` up to its `fetch`. -/
def refreshAccessToken (s : AuthTab) : AuthTab :=
  match s.refreshPromise with
  | some _ => s
  | none =>
    match s.store.refreshToken with
    | none => { s with store := .empty, refreshPromise := some (.settled false) }
    | some token =>
      if missing (some token) then
        { s with store := .empty, refreshPromise := some (.settled false) }
      else { s with refreshPromise := some (.fetching token false) }

/-- The promise of `refreshAccessToken` is settled. -/
def finish (s : AuthTab) (ok : Bool) : AuthTab :=
  { s with
    refreshPromise := some (.settled ok)
    logouts := fun n => (s.logouts n).map fun c => if c = .waiting then .resumed ok else c }

/-- A `logout` that calls `refreshAccessToken` waits for its promise. -/
def await (s : AuthTab) (n : ℕ) : AuthTab :=
  let s' := s.refreshAccessToken
  let stage :=
    match s'.refreshPromise with
    | some (.settled ok) => LogoutCall.resumed ok
    | _ => .waiting
  { s' with logouts := Function.update s'.logouts n (some stage) }

/-- The server issues a token that it never issued before. -/
def IsNew (s : AuthTab) (auth : AuthResponse) : Prop :=
  auth.refreshToken ≠ "" ∧ s.owner auth.refreshToken = none

instance (s : AuthTab) (auth : AuthResponse) : Decidable (s.IsNew auth) :=
  inferInstanceAs (Decidable (_ ∧ _))

/-- Model of `doRefresh` from the answer on (`api.ts` lines 98–111). -/
def respond (s : AuthTab) (presented : String) : RefreshResult → Option AuthTab
  | .ok auth =>
    if s.IsNew auth then
      some ({ s with
        store := auth.state
        owner := Function.update s.owner auth.refreshToken (s.owner presented) }.finish true)
    else none
  | .rejected => some ({ s with store := .empty }.finish false)
  | .unreachable => some (s.finish false)

def step (s : AuthTab) : AuthAction → Option AuthTab
  | .refresh => some s.refreshAccessToken
  | .respond result =>
    match s.refreshPromise with
    | some (.fetching presented _) => s.respond presented result
    | _ => none
  | .settle =>
    match s.refreshPromise with
    | some (.settled _) => some { s with refreshPromise := none }
    | _ => none
  | .signIn auth =>
    if s.IsNew auth then
      some ({ s with
        store := auth.state
        owner := Function.update s.owner auth.refreshToken (some s.sessions)
        sessions := s.sessions + 1 }.disturb)
    else none
  | .logout n =>
    match s.logouts n with
    | some _ => none
    | none =>
      if missing s.store.refreshToken then some (s.signOut n)
      else some { s with logouts := Function.update s.logouts n (some (.posted false)) }
  | .logoutAnswered n unauthorized =>
    match s.logouts n with
    | some (.posted retried) =>
      if unauthorized && !retried then some (s.await n) else some (s.signOut n)
    | _ => none
  | .logoutResumed n =>
    match s.logouts n with
    | some (.resumed ok) =>
      if ok then some { s with logouts := Function.update s.logouts n (some (.posted true)) }
      else some (s.signOut n)
    | _ => none

end AuthTab

/-! ## Sessions -/

/-- From `s` to `s'`, the store did not change, or it held the session of the token
    `presented` and holds the same one or none. -/
def OwnSession (presented : String) (s s' : AuthTab) : Prop :=
  s'.store = s.store ∨
    s.session = s.owner presented ∧ (s'.session = s.owner presented ∨ s'.store = .empty)

/-- Nothing else has written the store since the refresh began, or its result changes
    nothing. -/
def Uninterrupted (s : AuthTab) : AuthAction → Prop
  | .respond result => ∀ presented disturbed,
      s.refreshPromise = some (.fetching presented disturbed) →
      disturbed = false ∨ result = .unreachable ∨ result = .rejected ∧ s.store = .empty
  | _ => True

/-- What the store holds while a refresh of session `k` is on its way. -/
def Outlook (s : AuthTab) (presented : String) (k : ℕ) : Bool → Prop
  | false => s.store.refreshToken = some presented
  | true => s.store = .empty ∨
      ∃ token k', s.store.refreshToken = some token ∧ s.owner token = some k' ∧ k' ≠ k

structure AuthInv (s : AuthTab) : Prop where
  /-- sessions are numbered as they begin -/
  issued : ∀ token k, s.owner token = some k → k < s.sessions
  held : ∀ token, s.store.refreshToken = some token → s.owner token ≠ none
  fetching : ∀ presented disturbed, s.refreshPromise = some (.fetching presented disturbed) →
    ∃ k, s.owner presented = some k ∧ Outlook s presented k disturbed

section

variable {s s' : AuthTab} {a : AuthAction}

/-- Without a `fetch` on its way only the tokens matter. -/
theorem authInv_idle (hissued : ∀ token k, s.owner token = some k → k < s.sessions)
    (hheld : ∀ token, s.store.refreshToken = some token → s.owner token ≠ none)
    (hidle : ∀ presented disturbed, s.refreshPromise ≠ some (.fetching presented disturbed)) :
    AuthInv s :=
  ⟨hissued, hheld, fun presented disturbed h => absurd h (hidle presented disturbed)⟩

theorem AuthInv.start (persisted : AuthState) : AuthInv (.start persisted) := by
  refine authInv_idle (fun token k h => ?_) (fun token h => ?_) fun _ _ h => by cases h
  · simp only [AuthTab.start] at h ⊢
    split_ifs at h
    cases h
    omega
  · simp only [AuthTab.start] at h ⊢
    rw [if_pos h]
    exact Option.some_ne_none _

theorem AuthInv.refreshAccessToken (h : AuthInv s) : AuthInv s.refreshAccessToken := by
  have hempty : AuthInv { s with store := .empty, refreshPromise := some (.settled false) } := by
    refine authInv_idle h.issued (fun token ht => ?_) fun _ _ hp => ?_
    · cases ht
    · cases hp
  unfold AuthTab.refreshAccessToken
  split
  · exact h
  · split
    · exact hempty
    · rename_i token htoken
      split_ifs
      · exact hempty
      · refine ⟨h.issued, h.held, fun presented disturbed hp => ?_⟩
        cases hp
        obtain ⟨k, hk⟩ := Option.ne_none_iff_exists'.mp (h.held token htoken)
        exact ⟨k, hk, htoken⟩

/-- What is written to the store apart from a refresh. -/
theorem AuthInv.disturb (hissued : ∀ token k, s.owner token = some k → k < s.sessions)
    (hheld : ∀ token, s.store.refreshToken = some token → s.owner token ≠ none)
    (hfetch : ∀ presented disturbed, s.refreshPromise = some (.fetching presented disturbed) →
      ∃ k, s.owner presented = some k ∧ Outlook s presented k true) : AuthInv s.disturb := by
  unfold AuthTab.disturb
  split
  · rename_i presented disturbed hp
    refine ⟨hissued, hheld, fun presented' disturbed' hp' => ?_⟩
    cases hp'
    exact hfetch presented disturbed hp
  · rename_i hidle
    exact authInv_idle hissued hheld fun presented disturbed hp => hidle presented disturbed hp

theorem AuthInv.signOut (h : AuthInv s) (n : ℕ) : AuthInv (s.signOut n) := by
  refine AuthInv.disturb h.issued (fun token ht => ?_) fun presented disturbed hp => ?_
  · cases ht
  · obtain ⟨k, hk, -⟩ := h.fetching presented disturbed hp
    exact ⟨k, hk, .inl rfl⟩

theorem AuthInv.signIn (h : AuthInv s) {auth : AuthResponse} (hnew : s.IsNew auth) :
    AuthInv ({ s with
      store := auth.state
      owner := Function.update s.owner auth.refreshToken (some s.sessions)
      sessions := s.sessions + 1 } : AuthTab).disturb := by
  refine AuthInv.disturb (fun token k hk => ?_) (fun token ht => ?_)
    fun presented disturbed hp => ?_
  · show k < s.sessions + 1
    by_cases htoken : token = auth.refreshToken
    · subst htoken
      have hk : Function.update s.owner auth.refreshToken (some s.sessions) auth.refreshToken =
        some k := hk
      rw [Function.update_self] at hk
      cases hk
      omega
    · have hold : s.owner token = some k := (Function.update_of_ne htoken _ _).symm.trans hk
      have := h.issued token k hold
      omega
  · have htoken : auth.refreshToken = token := Option.some.inj ht
    show Function.update s.owner auth.refreshToken (some s.sessions) token ≠ none
    rw [htoken, Function.update_self]
    exact Option.some_ne_none _
  · obtain ⟨k, hk, -⟩ := h.fetching presented disturbed hp
    have hne : presented ≠ auth.refreshToken := by
      rintro rfl
      exact Option.some_ne_none k (hk.symm.trans hnew.2)
    refine ⟨k, (Function.update_of_ne hne _ _).trans hk,
      .inr ⟨auth.refreshToken, s.sessions, rfl, ?_, ?_⟩⟩
    · exact Function.update_self _ _ _
    · have := h.issued presented k hk
      omega

theorem AuthInv.logouts (h : AuthInv s) (logouts : ℕ → Option LogoutCall) :
    AuthInv { s with logouts } :=
  ⟨h.issued, h.held, h.fetching⟩

theorem AuthInv.respond (h : AuthInv s) {presented : String} {disturbed : Bool}
    {result : RefreshResult} (hp : s.refreshPromise = some (.fetching presented disturbed))
    (hs : s.respond presented result = some s') : AuthInv s' := by
  obtain ⟨k, hk, -⟩ := h.fetching presented disturbed hp
  cases result with
  | ok auth =>
    simp only [AuthTab.respond] at hs
    split_ifs at hs
    cases hs
    refine authInv_idle (fun token k' hk' => ?_) (fun token ht => ?_) fun _ _ hp => by cases hp
    · by_cases htoken : token = auth.refreshToken
      · subst htoken
        have hk' : Function.update s.owner auth.refreshToken (s.owner presented) auth.refreshToken =
          some k' := hk'
        rw [Function.update_self] at hk'
        exact h.issued presented k' hk'
      · exact h.issued token k' ((Function.update_of_ne htoken _ _).symm.trans hk')
    · have htoken : auth.refreshToken = token := Option.some.inj ht
      show Function.update s.owner auth.refreshToken (s.owner presented) token ≠ none
      rw [htoken, Function.update_self, hk]
      exact Option.some_ne_none k
  | rejected =>
    cases hs
    exact authInv_idle h.issued (fun token ht => by cases ht) fun _ _ hp => by cases hp
  | unreachable =>
    cases hs
    exact authInv_idle h.issued h.held fun _ _ hp => by cases hp

theorem AuthInv.step (h : AuthInv s) (hs : s.step a = some s') : AuthInv s' := by
  cases a with
  | refresh =>
    cases hs
    exact h.refreshAccessToken
  | respond result =>
    simp only [AuthTab.step] at hs
    split at hs
    · rename_i presented disturbed hp
      exact h.respond hp hs
    · cases hs
  | settle =>
    simp only [AuthTab.step] at hs
    split at hs
    · cases hs
      exact authInv_idle h.issued h.held fun _ _ hp => by cases hp
    · cases hs
  | signIn auth =>
    simp only [AuthTab.step] at hs
    split_ifs at hs with hnew
    cases hs
    exact h.signIn hnew
  | logout n =>
    simp only [AuthTab.step] at hs
    split at hs
    · cases hs
    · split_ifs at hs
      · cases hs
        exact h.signOut n
      · cases hs
        exact h.logouts _
  | logoutAnswered n unauthorized =>
    simp only [AuthTab.step] at hs
    split at hs
    · split_ifs at hs
      · cases hs
        exact h.refreshAccessToken.logouts _
      · cases hs
        exact h.signOut n
    · cases hs
  | logoutResumed n =>
    simp only [AuthTab.step] at hs
    split at hs
    · split_ifs at hs
      · cases hs
        exact h.logouts _
      · cases hs
        exact h.signOut n
    · cases hs

theorem reach_authInv {persisted : AuthState}
    (hrun : Reach AuthTab.step Unguarded (.start persisted) s) : AuthInv s :=
  hrun.invariant AuthInv (fun _ _ _ h _ hs => h.step hs) (.start persisted)

theorem disturb_store (s : AuthTab) : s.disturb.store = s.store := by
  unfold AuthTab.disturb
  split
  · rfl
  · rfl

/-- After an undisturbed refresh the store holds the same session, or none. -/
theorem ownSession_of_undisturbed {presented : String} {result : RefreshResult}
    (hstore : s.store.refreshToken = some presented) (hs : s.respond presented result = some s') :
    OwnSession presented s s' := by
  have hown : s.session = s.owner presented := by
    unfold AuthTab.session
    rw [hstore]
    rfl
  cases result with
  | ok auth =>
    simp only [AuthTab.respond] at hs
    split_ifs at hs
    cases hs
    refine .inr ⟨hown, .inl ?_⟩
    show Function.update s.owner auth.refreshToken (s.owner presented) auth.refreshToken = _
    exact Function.update_self _ _ _
  | rejected =>
    cases hs
    exact .inr ⟨hown, .inr rfl⟩
  | unreachable =>
    cases hs
    exact .inl rfl

/-- A disturbed refresh finds another session in the store, or none. -/
theorem session_of_disturbed {presented : String} {k : ℕ} (hk : s.owner presented = some k)
    (h : Outlook s presented k true) : s.session ≠ s.owner presented := by
  unfold AuthTab.session
  rcases h with hempty | ⟨token, k', htoken, hk', hne⟩
  · rw [hempty, hk]
    exact fun h => by cases h
  · rw [htoken, hk]
    exact fun h => hne (Option.some.inj (hk'.symm.trans h))

theorem not_ownSession_of_disturbed {presented : String} {k : ℕ} {result : RefreshResult}
    (hk : s.owner presented = some k) (h : Outlook s presented k true)
    (hheld : ∀ token, s.store.refreshToken = some token → s.owner token ≠ none)
    (hs : s.respond presented result = some s') (hreached : result ≠ .unreachable)
    (hchanges : result = .rejected → s.store ≠ .empty) : ¬ OwnSession presented s s' := by
  rintro (hsame | ⟨hown, -⟩)
  · cases result with
    | ok auth =>
      simp only [AuthTab.respond] at hs
      split_ifs at hs with hnew
      cases hs
      have htoken : s.store.refreshToken = some auth.refreshToken := by
        rw [← hsame]
        rfl
      exact hheld _ htoken hnew.2
    | rejected =>
      cases hs
      exact hchanges rfl hsame.symm
    | unreachable => exact hreached rfl
  · exact session_of_disturbed hk h hown

/-- Nothing but a login or signup fills an empty store, if refreshes are undisturbed. -/
theorem store_stays_empty (hinv : AuthInv s) (hempty : s.store = .empty)
    (ha : ∀ auth, a ≠ .signIn auth)
    (hok : Uninterrupted s a) (hs : s.step a = some s') : s'.store = .empty := by
  have hrefresh : s.refreshAccessToken.store = .empty := by
    unfold AuthTab.refreshAccessToken
    split
    · exact hempty
    · split
      · rfl
      · rename_i token htoken
        rw [hempty] at htoken
        cases htoken
  have hsignOut : ∀ n, (s.signOut n).store = .empty := fun n => disturb_store _
  cases a with
  | refresh =>
    cases hs
    exact hrefresh
  | respond result =>
    simp only [AuthTab.step] at hs
    split at hs
    · rename_i presented disturbed hp
      cases result with
      | ok auth =>
        -- the store would still hold the token that was presented
        rcases hok presented disturbed hp with rfl | hun | ⟨hrej, -⟩
        · obtain ⟨k, -, hstore⟩ := hinv.fetching presented false hp
          have hstore : s.store.refreshToken = some presented := hstore
          rw [hempty] at hstore
          cases hstore
        · cases hun
        · cases hrej
      | rejected =>
        cases hs
        rfl
      | unreachable =>
        cases hs
        exact hempty
    · cases hs
  | settle =>
    simp only [AuthTab.step] at hs
    split at hs
    · cases hs
      exact hempty
    · cases hs
  | signIn auth => exact absurd rfl (ha auth)
  | logout n =>
    simp only [AuthTab.step] at hs
    split at hs
    · cases hs
    · split_ifs at hs
      · cases hs
        exact hsignOut n
      · cases hs
        exact hempty
  | logoutAnswered n unauthorized =>
    simp only [AuthTab.step] at hs
    split at hs
    · split_ifs at hs
      · cases hs
        exact hrefresh
      · cases hs
        exact hsignOut n
    · cases hs
  | logoutResumed n =>
    simp only [AuthTab.step] at hs
    split at hs
    · split_ifs at hs
      · cases hs
        exact hempty
      · cases hs
        exact hsignOut n
    · cases hs

/-- In every run: an answered refresh leaves every session but its own alone if and only
    if it was not interrupted; and while no refresh is interrupted, an empty store stays
    empty until a login or signup. -/
theorem refresh_own_session_iff {persisted : AuthState}
    (hrun : Reach AuthTab.step Unguarded (.start persisted) s) :
    (∀ presented disturbed result s', s.refreshPromise = some (.fetching presented disturbed) →
      s.step (.respond result) = some s' →
      (OwnSession presented s s' ↔ Uninterrupted s (.respond result))) ∧
    (s.store = .empty → ∀ s', Reach AuthTab.step
      (fun s a => (∀ auth, a ≠ .signIn auth) ∧ Uninterrupted s a) s s' → s'.store = .empty) := by
  have hinv := reach_authInv hrun
  refine ⟨fun presented disturbed result s' hp hs => ?_, fun hempty s' hrun' => ?_⟩
  · simp only [AuthTab.step, hp] at hs
    obtain ⟨k, hk, hlook⟩ := hinv.fetching presented disturbed hp
    cases disturbed with
    | false =>
      refine ⟨fun _ presented' disturbed' hp' => ?_, fun _ => ownSession_of_undisturbed hlook hs⟩
      cases hp.symm.trans hp'
      exact .inl rfl
    | true =>
      constructor
      · intro hown presented' disturbed' hp'
        by_contra hno
        push Not at hno
        exact not_ownSession_of_disturbed hk hlook hinv.held hs hno.2.1 hno.2.2 hown
      · intro hok
        rcases hok presented true hp with h | rfl | ⟨rfl, hempty⟩
        · cases h
        · cases hs
          exact .inl rfl
        · cases hs
          exact .inl hempty.symm
  · have hboth := hrun'.invariant (fun s => AuthInv s ∧ s.store = .empty)
      (fun _ _ _ h hok hs => ⟨h.1.step hs, store_stays_empty h.1 h.2 hok.1 hok.2 hs⟩) ⟨hinv, hempty⟩
    exact hboth.2

end

/-! ## A logout during a refresh -/

/-- What a tab finds in `localStorage`. -/
def persistedAuth : AuthState := ⟨some ⟨"1", "ada", none⟩, some "token", some "first"⟩

/-- A rotated pair of tokens. -/
def rotatedAuth : AuthResponse := ⟨⟨"1", "ada", none⟩, "newer", "second"⟩

def authAfter (as : List AuthAction) : AuthTab :=
  (exec AuthTab.step (.start persistedAuth) as).getD (.start persistedAuth)

theorem reach_authAfter {as : List AuthAction}
    (h : exec AuthTab.step (.start persistedAuth) as = some (authAfter as)) :
    Reach AuthTab.step Unguarded (.start persistedAuth) (authAfter as) :=
  Reach.of_exec (meets_unguarded _ _ _) h

/-- A refresh that nothing interrupts continues its session. -/
theorem refresh_own_session_rotated :
    OwnSession "first" (authAfter [.refresh])
      (authAfter [.refresh, .respond (.ok rotatedAuth)]) := by
  have hreached : Reach AuthTab.step Unguarded (.start persistedAuth) (authAfter [.refresh]) :=
    reach_authAfter rfl
  have hown := (refresh_own_session_iff hreached).1 "first" false (.ok rotatedAuth)
    (authAfter [.refresh, .respond (.ok rotatedAuth)]) rfl rfl
  refine hown.mpr fun presented disturbed hp => ?_
  cases hp
  exact .inl rfl

/-- The refresh is answered after `logout` has cleared the store, and fills it again. -/
theorem refresh_outlives_logout :
    ¬ ∀ (persisted : AuthState) (s s' : AuthTab) (presented : String) (disturbed : Bool)
      (result : RefreshResult), Reach AuthTab.step Unguarded (.start persisted) s →
      s.refreshPromise = some (.fetching presented disturbed) →
      s.step (.respond result) = some s' → OwnSession presented s s' := by
  intro h
  have hown := h persistedAuth (authAfter [.refresh, .logout 0, .logoutAnswered 0 false])
    (authAfter [.refresh, .logout 0, .logoutAnswered 0 false, .respond (.ok rotatedAuth)])
      "first" true
    (.ok rotatedAuth) (reach_authAfter rfl) rfl rfl
  rcases hown with hsame | ⟨hsession, -⟩
  · exact absurd hsame (by decide)
  · exact absurd hsession (by decide)

end ConvoyChat.Frontend
