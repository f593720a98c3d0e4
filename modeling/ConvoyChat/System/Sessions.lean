import ConvoyChat.Frontend.Validation
import ConvoyChat.Handlers.Auth
import ConvoyChat.Lib.Runs
import Mathlib.Logic.Function.Basic

/-!
# Who may act as whom

Any number of signups, logins, refreshes, logouts, Bearer-protected requests and handshakes, their
calls in any order. A call may fail, or take effect while its answer is lost; accounts may be
promoted. The two tables start empty.

* `sessions_rest_on_passwords`: the family of every session that is handed out for a user was begun
  by the signup of that user, or by a login with a password that matches the stored hash.
* `admitted_hold_session`: whoever is admitted as a user holds the access token of such a session,
  and it is younger than its time to live. The tokens that clients present and the secret accepts
  are assumed to have been handed out: `Unforged`.
* `logouts_revoke_own_families`: a logout revokes families of the user whose session it holds.
-/

namespace ConvoyChat.System

open ConvoyChat.Lib ConvoyChat.Store ConvoyChat.Handlers

/-- A request, the calls that were answered so far, and what is left of its handler. -/
structure Exchange where
  request : AuthRequest
  calls : List AuthCall
  rest : AuthProc AuthReply

/-- The tables `users` and `refresh_tokens`, the clock, and the requests by number. -/
structure Sessions where
  accounts : Accounts
  tokens : RefreshTokens
  now : Time
  exchanges : ℕ → Option Exchange

/-- A call is served, or fails, or it takes effect and the answer is lost. -/
inductive Fate
  | served
  | failed
  | lost
deriving DecidableEq, Repr

/-- What a call draws: a UUID, and a bcrypt hash or a refresh token. -/
structure Draw where
  id : UUID
  text : String

inductive SessionsAction
  | request (n : ℕ) (req : AuthRequest)
  | serve (n : ℕ) (draw : Draw) (fate : Fate)
  | tick (now : Time)
  | promote (email : String)

namespace Sessions

def start : Sessions := ⟨[], [], 0, fun _ => none⟩

/-- The answer of a call, and the state after it. -/
def execute (s : Sessions) (draw : Draw) : (o : AuthOp) → o.Res × Sessions
  | .now => (s.now, s)
  | .newUUID => (draw.id, s)
  | .hashPassword _ => (some draw.text, s)
  | .generateRefreshToken => (some draw.text, s)
  | .createUser username email passwordHash =>
    let out := createUser s.now draw.id username email passwordHash s.accounts
    (out.1, { s with accounts := out.2 })
  | .getUserByEmail email => (getUserByEmail email s.accounts, s)
  | .getUserByID userID => (getAccountByID userID s.accounts, s)
  | .createRefreshToken userID familyID tokenHash expiresAt =>
    let out := createRefreshToken s.now draw.id userID familyID tokenHash expiresAt s.tokens
    (out.1, { s with tokens := out.2 })
  | .rotateRefreshToken oldHash newHash newExpiresAt =>
    let out := rotateRefreshToken s.now s.now draw.id oldHash newHash newExpiresAt s.tokens
    (out.1, { s with tokens := out.2 })
  | .getRefreshTokenByHash tokenHash => (getRefreshTokenByHash tokenHash s.tokens, s)
  | .revokeRefreshTokenFamily familyID =>
    (.ok (), { s with tokens := revokeRefreshTokenFamily s.now familyID s.tokens })
  | .upgrade => (true, s)

/-- The answer of a call that failed; `time.Now` and `uuid.New` do not. -/
def failure (s : Sessions) (draw : Draw) : (o : AuthOp) → o.Res
  | .now => s.now
  | .newUUID => draw.id
  | .hashPassword _ => none
  | .generateRefreshToken => none
  | .createUser _ _ _ => .error .internal
  | .getUserByEmail _ => .error .internal
  | .getUserByID _ => .error .internal
  | .createRefreshToken _ _ _ _ => .error .internal
  | .rotateRefreshToken _ _ _ => .error .internal
  | .getRefreshTokenByHash _ => .error .internal
  | .revokeRefreshTokenFamily _ => .error .internal
  | .upgrade => false

def answer (s : Sessions) (draw : Draw) (o : AuthOp) : Fate → o.Res × Sessions
  | .served => s.execute draw o
  | .failed => (s.failure draw o, s)
  | .lost => (s.failure draw o, (s.execute draw o).2)

def put (s : Sessions) (n : ℕ) (e : Exchange) : Sessions :=
  { s with exchanges := Function.update s.exchanges n (some e) }

def step (lib : AuthLib) (jwtTTL : Time) (s : Sessions) : SessionsAction → Option Sessions
  | .request n req =>
    match s.exchanges n with
    | none => some (s.put n ⟨req, [], req.handler lib jwtTTL⟩)
    | some _ => none
  | .serve n draw fate =>
    match s.exchanges n with
    | some ⟨req, calls, .op o k⟩ =>
      let out := s.answer draw o fate
      some (out.2.put n ⟨req, calls ++ [⟨o, out.1⟩], k out.1⟩)
    | _ => none
  | .tick now => some { s with now := now }
  | .promote email =>
    some { s with accounts := promoteToSystemAdmin lib.normalize email s.accounts }

/-! ## What the requests have done -/

/-- Request `m`, which is `req`, has made the call `c`. -/
def Called (s : Sessions) (m : ℕ) (req : AuthRequest) (c : AuthCall) : Prop :=
  ∃ e, s.exchanges m = some e ∧ e.request = req ∧ c ∈ e.calls

/-- Request `m` has begun a family of `u`. -/
def Begins (s : Sessions) (m : ℕ) (familyID u : UUID) : Prop :=
  ∃ req tokenHash expiresAt r,
    s.Called m req ⟨.createRefreshToken u familyID tokenHash expiresAt, r⟩

/-- Request `m` was told that the row `rt` is stored. -/
def Stores (s : Sessions) (m : ℕ) (rt : RefreshToken) : Prop :=
  ∃ req, (∃ u familyID tokenHash expiresAt,
      s.Called m req ⟨.createRefreshToken u familyID tokenHash expiresAt, .ok rt⟩) ∨
    ∃ oldHash newHash expiresAt,
      s.Called m req ⟨.rotateRefreshToken oldHash newHash expiresAt, .ok rt⟩

/-- A request has asked for the account `a`. -/
def Created (s : Sessions) (a : Account) : Prop :=
  ∃ m req r, s.Called m req ⟨.createUser a.username a.email a.passwordHash, r⟩

/-- Request `m` is the signup of `u`, or a login of `u` whose password matches the hash that the
    signup of the account has made of its own one. -/
inductive Password (s : Sessions) (lib : AuthLib) (m : ℕ) (u : UUID) : Prop
  | signup {body : SignupRequest} {hash : String} {user : Account}
      (hhash : s.Called m (.signup (some body)) ⟨.hashPassword body.password, some hash⟩)
      (hcreate : s.Called m (.signup (some body))
        ⟨.createUser (trimSpace body.username) (lib.normalize body.email) hash, .ok user⟩)
      (hid : user.id = u)
  | login {body : LoginRequest} {e : Exchange} {n : ℕ} {first : SignupRequest} {hash : String}
      {r : Except CreateUserErr Account} {a : Account}
      (hm : s.exchanges m = some e) (hreq : e.request = .login (some body))
      (hhash : s.Called n (.signup (some first)) ⟨.hashPassword first.password, some hash⟩)
      (hcreate : s.Called n (.signup (some first))
        ⟨.createUser (trimSpace first.username) (lib.normalize first.email) hash, r⟩)
      (ha : a ∈ s.accounts) (hid : a.id = u) (hemail : a.email = lib.normalize first.email)
      (hlogin : a.email = lib.normalize body.email) (hstored : a.passwordHash = hash)
      (hpassword : lib.comparePassword hash body.password = true)

/-- A session with this access token was handed out. -/
def HandedOut (s : Sessions) (token : String) : Prop :=
  ∃ m e status refreshToken user, s.exchanges m = some e ∧
    e.rest = .ret (.session status token refreshToken user)

end Sessions

/-- The access token that a request presents. -/
def presents : AuthRequest → Option String
  | .logout authorization _ => bearerToken authorization
  | .bearer authorization => bearerToken authorization
  | .connect token => some token
  | _ => none

/-- The server accepts the token at some time. -/
def Acceptable (lib : AuthLib) (token : String) : Prop :=
  ∃ now claims, lib.parseToken now token = some claims

/-- Nobody signs tokens without the secret: an acceptable one that is presented was handed out. -/
def Unforged (lib : AuthLib) (s : Sessions) (a : SessionsAction) : Prop :=
  ∀ n req token, a = .request n req → presents req = some token → Acceptable lib token →
    s.HandedOut token

/-- The request was admitted as `u`: by the Bearer middleware, or as a WebSocket client. -/
def Exchange.AdmittedAs (e : Exchange) (u : UUID) : Prop :=
  e.rest = .ret (.entered u) ∨ ∃ username, e.rest = .ret (.connected u username)

/-- The request presents the access token of a session of `u`, within its time to live from when it
    was signed; the family of that session was begun with a password of `u`. -/
def HoldsSession (lib : AuthLib) (jwtTTL : Time) (s : Sessions) (e : Exchange) (u : UUID) : Prop :=
  ∃ m e' status token refreshToken user signed now, presents e.request = some token ∧
    s.exchanges m = some e' ∧ e'.rest = .ret (.session status token refreshToken user) ∧
    user.id = u ∧ ⟨.now, signed⟩ ∈ e'.calls ∧
    lib.sign ⟨lib.uuidText u, signed / 1000000, (signed + jwtTTL) / 1000000⟩ = some token ∧
    ⟨.now, now⟩ ∈ e.calls ∧ now < signed + jwtTTL ∧
    ∃ l rt, s.Password lib l u ∧ s.Begins l rt.familyID u ∧ s.Stores m rt

/-! ## What a step changes -/

namespace Sessions

variable {lib : AuthLib} {jwtTTL : Time} {s s' : Sessions} {a : SessionsAction}

/-- Calls and accounts are only added, and a request that has ended stays as it is. -/
structure Grows (s s' : Sessions) : Prop where
  exchanges : ∀ n e, s.exchanges n = some e → ∃ e', s'.exchanges n = some e' ∧
    e'.request = e.request ∧ e.calls ⊆ e'.calls ∧ ∀ reply, e.rest = .ret reply →
    e'.rest = .ret reply
  accounts : ∀ a ∈ s.accounts, ∃ b ∈ s'.accounts, a.Same b

/-- What the answer to a call says. -/
def Told (s : Sessions) : (o : AuthOp) → o.Res → Prop
  | .createUser _ _ _, .ok user => ∃ a ∈ s.accounts, user.Same a
  | .getUserByEmail email, .ok user => user.email = email ∧ ∃ a ∈ s.accounts, user.Same a
  | .getUserByID id, .ok user => user.id = id ∧ ∃ a ∈ s.accounts, user.Same a
  | .createRefreshToken u familyID tokenHash _, .ok rt =>
    rt.userID = u ∧ rt.familyID = familyID ∧ rt.tokenHash = tokenHash
  | .rotateRefreshToken _ newHash _, .ok rt =>
    rt.tokenHash = newHash ∧ ∃ m, s.Begins m rt.familyID rt.userID
  | .getRefreshTokenByHash _, .ok rt => ∃ m, s.Begins m rt.familyID rt.userID
  | _, _ => True

theorem Grows.called (h : Grows s s') {m : ℕ} {req : AuthRequest} {c : AuthCall}
    (hc : s.Called m req c) : s'.Called m req c := by
  obtain ⟨e, he, hreq, hmem⟩ := hc
  obtain ⟨e', he', hreq', hsub, -⟩ := h.exchanges m e he
  exact ⟨e', he', hreq'.trans hreq, hsub hmem⟩

theorem Grows.begins (h : Grows s s') {m : ℕ} {familyID u : UUID} (hb : s.Begins m familyID u) :
    s'.Begins m familyID u := by
  obtain ⟨req, tokenHash, expiresAt, r, hc⟩ := hb
  exact ⟨req, tokenHash, expiresAt, r, h.called hc⟩

theorem Grows.handedOut (h : Grows s s') {token : String} (ht : s.HandedOut token) :
    s'.HandedOut token := by
  obtain ⟨m, e, status, refreshToken, user, he, hrest⟩ := ht
  obtain ⟨e', he', -, -, hret⟩ := h.exchanges m e he
  exact ⟨m, e', status, refreshToken, user, he', hret _ hrest⟩

theorem Grows.same (h : Grows s s') {user : Account} (hu : ∃ a ∈ s.accounts, user.Same a) :
    ∃ a ∈ s'.accounts, user.Same a := by
  obtain ⟨a, ha, hsame⟩ := hu
  obtain ⟨b, hb, hab⟩ := h.accounts a ha
  exact ⟨b, hb, hsame.trans hab⟩

theorem Grows.told (h : Grows s s') {o : AuthOp} {r : o.Res} (ht : s.Told o r) : s'.Told o r := by
  cases o with
  | createUser username email hash =>
    cases r with
    | error _ => trivial
    | ok user => exact h.same ht
  | getUserByEmail email =>
    cases r with
    | error _ => trivial
    | ok user => exact ⟨ht.1, h.same ht.2⟩
  | getUserByID userID =>
    cases r with
    | error _ => trivial
    | ok user => exact ⟨ht.1, h.same ht.2⟩
  | createRefreshToken userID familyID tokenHash expiresAt =>
    cases r with
    | error _ => trivial
    | ok rt => exact ht
  | rotateRefreshToken oldHash newHash expiresAt =>
    cases r with
    | error _ => trivial
    | ok rt =>
      obtain ⟨hhash, m, hm⟩ := ht
      exact ⟨hhash, m, h.begins hm⟩
  | getRefreshTokenByHash tokenHash =>
    cases r with
    | error _ => trivial
    | ok rt =>
      obtain ⟨m, hm⟩ := ht
      exact ⟨m, h.begins hm⟩
  | now => trivial
  | newUUID => trivial
  | hashPassword password => trivial
  | generateRefreshToken => trivial
  | revokeRefreshTokenFamily familyID => trivial
  | upgrade => trivial

/-- A call does not touch the requests, and an account that it adds is the one it asks for. -/
structure Served (s s' : Sessions) (o : AuthOp) : Prop where
  exchanges : s'.exchanges = s.exchanges
  accounts : ∀ a ∈ s.accounts, a ∈ s'.accounts
  created : ∀ a ∈ s'.accounts, a ∈ s.accounts ∨ o = .createUser a.username a.email a.passwordHash
  tokens : ∀ rt ∈ s'.tokens, (∃ x ∈ s.tokens, x.familyID = rt.familyID ∧ x.userID = rt.userID) ∨
    ∃ tokenHash expiresAt, o = .createRefreshToken rt.userID rt.familyID tokenHash expiresAt

theorem Served.refl (s : Sessions) (o : AuthOp) : Served s s o :=
  ⟨rfl, fun _ ha => ha, fun _ ha => .inl ha, fun rt hrt => .inl ⟨rt, hrt, rfl, rfl⟩⟩

theorem revoke_rows {now : Time} {familyID : UUID} {t : RefreshTokens} {rt : RefreshToken}
    (h : rt ∈ revokeRefreshTokenFamily now familyID t) :
    ∃ x ∈ t, x.familyID = rt.familyID ∧ x.userID = rt.userID := by
  obtain ⟨x, hx, rfl⟩ := mem_updateWhere.mp h
  refine ⟨x, hx, ?_⟩
  split_ifs <;> exact ⟨rfl, rfl⟩

/-- The rows behind a rotation: the new one continues the family of the old one. -/
theorem rotate_rows {now clock : Time} {newID : UUID} {oldHash newHash : String}
    {newExpiresAt : Time} {t : RefreshTokens} {rt : RefreshToken}
    (h : rt ∈ (rotateRefreshToken now clock newID oldHash newHash newExpiresAt t).2) :
    ∃ x ∈ t, x.familyID = rt.familyID ∧ x.userID = rt.userID := by
  rcases rotateRefreshToken_cases now clock newID oldHash newHash newExpiresAt t with
    ⟨-, hout⟩ | ⟨old, -, -, -, -, -, hout⟩ | ⟨old, hmem, -, -, -, -, -, -, hout⟩
  · rw [hout] at h
    exact ⟨rt, h, rfl, rfl⟩
  · rw [hout] at h
    exact revoke_rows h
  · rw [hout] at h
    rcases List.mem_append.mp h with h | h
    · obtain ⟨x, hx, rfl⟩ := mem_updateWhere.mp h
      refine ⟨x, hx, ?_⟩
      split_ifs <;> exact ⟨rfl, rfl⟩
    · cases List.mem_singleton.mp h
      exact ⟨old, hmem, rfl, rfl⟩

theorem createRefreshToken_rows {now : Time} {id u familyID : UUID} {tokenHash : String}
    {expiresAt : Time} {t : RefreshTokens} {rt : RefreshToken}
    (h : rt ∈ (createRefreshToken now id u familyID tokenHash expiresAt t).2) :
    rt ∈ t ∨ rt.userID = u ∧ rt.familyID = familyID := by
  unfold createRefreshToken at h
  dsimp only at h
  split at h
  · exact .inl h
  · rename_i t' hins
    obtain ⟨rfl, -, -⟩ := insertRefreshToken_ok hins
    rcases List.mem_append.mp h with h | h
    · exact .inl h
    · cases List.mem_singleton.mp h
      exact .inr ⟨rfl, rfl⟩

theorem execute_served (s : Sessions) (draw : Draw) (o : AuthOp) :
    Served s (s.execute draw o).2 o := by
  cases o with
  | createUser username email passwordHash =>
    rcases createUser_cases s.now draw.id username email passwordHash s.accounts with
      ⟨-, ht⟩ | ⟨user, -, ht, huser, -⟩
    · refine ⟨rfl, fun a ha => ?_, fun a ha => .inl ?_, fun rt hrt => .inl ⟨rt, hrt, rfl, rfl⟩⟩
      · simpa only [execute, ht] using ha
      · simpa only [execute, ht] using ha
    · refine ⟨rfl, fun a ha => ?_, fun a ha => ?_, fun rt hrt => .inl ⟨rt, hrt, rfl, rfl⟩⟩
      · simp only [execute, ht]
        exact List.mem_append_left _ ha
      · simp only [execute, ht] at ha
        rcases List.mem_append.mp ha with ha | ha
        · exact .inl ha
        · cases List.mem_singleton.mp ha
          subst huser
          exact .inr rfl
  | createRefreshToken u familyID tokenHash expiresAt =>
    refine ⟨rfl, fun _ ha => ha, fun _ ha => .inl ha, fun rt hrt => ?_⟩
    rcases createRefreshToken_rows hrt with hrt | ⟨rfl, rfl⟩
    · exact .inl ⟨rt, hrt, rfl, rfl⟩
    · exact .inr ⟨tokenHash, expiresAt, rfl⟩
  | rotateRefreshToken oldHash newHash expiresAt =>
    exact ⟨rfl, fun _ ha => ha, fun _ ha => .inl ha, fun rt hrt => .inl (rotate_rows hrt)⟩
  | revokeRefreshTokenFamily familyID =>
    exact ⟨rfl, fun _ ha => ha, fun _ ha => .inl ha, fun rt hrt => .inl (revoke_rows hrt)⟩
  | now => exact .refl s _
  | newUUID => exact .refl s _
  | hashPassword password => exact .refl s _
  | generateRefreshToken => exact .refl s _
  | getUserByEmail email => exact .refl s _
  | getUserByID userID => exact .refl s _
  | getRefreshTokenByHash tokenHash => exact .refl s _
  | upgrade => exact .refl s _

theorem answer_served (s : Sessions) (draw : Draw) (o : AuthOp) (fate : Fate) :
    Served s (s.answer draw o fate).2 o := by
  cases fate with
  | served => exact execute_served s draw o
  | failed => exact .refl s o
  | lost => exact execute_served s draw o

theorem failure_told (s s' : Sessions) (draw : Draw) (o : AuthOp) :
    s'.Told o (s.failure draw o) := by
  cases o <;> trivial

/-- Every family in the table was begun by a request. -/
def Founded (s : Sessions) : Prop := ∀ rt ∈ s.tokens, ∃ m, s.Begins m rt.familyID rt.userID

theorem execute_told (hs : s.Founded) (draw : Draw) (o : AuthOp) :
    (s.execute draw o).2.Told o (s.execute draw o).1 := by
  cases o with
  | createUser username email passwordHash =>
    rcases createUser_cases s.now draw.id username email passwordHash s.accounts with
      ⟨⟨e, he⟩, -⟩ | ⟨user, hr, ht, -⟩
    · simp only [execute, he]
      trivial
    · simp only [execute, hr]
      exact ⟨user, by simp [ht], .refl user⟩
  | getUserByEmail email =>
    cases h : getUserByEmail email s.accounts with
    | error e =>
      simp only [execute, h]
      trivial
    | ok user =>
      obtain ⟨hmem, hemail⟩ := scanUser_ok h
      simp only [execute, h]
      exact ⟨by simpa using hemail, user, hmem, .refl user⟩
  | getUserByID userID =>
    cases h : getAccountByID userID s.accounts with
    | error e =>
      simp only [execute, h]
      trivial
    | ok user =>
      obtain ⟨hmem, hid⟩ := scanUser_ok h
      simp only [execute, h]
      exact ⟨by simpa using hid, user, hmem, .refl user⟩
  | createRefreshToken u familyID tokenHash expiresAt =>
    cases h : insertRefreshToken ⟨draw.id, u, tokenHash, familyID, s.now, expiresAt,
      none⟩ s.tokens with
    | error e =>
      simp only [execute, createRefreshToken, h]
      trivial
    | ok t =>
      simp only [execute, createRefreshToken, h]
      exact ⟨rfl, rfl, rfl⟩
  | rotateRefreshToken oldHash newHash expiresAt =>
    rcases rotateRefreshToken_cases s.now s.now draw.id oldHash newHash expiresAt s.tokens with
      ⟨⟨e, he, -⟩, -⟩ | ⟨old, -, -, -, -, he, -⟩ | ⟨old, hmem, -, -, -, -, -, hr, -⟩
    · simp only [execute, he]
      trivial
    · simp only [execute, he]
      trivial
    · simp only [execute, hr]
      exact ⟨rfl, hs old hmem⟩
  | getRefreshTokenByHash tokenHash =>
    cases h : getRefreshTokenByHash tokenHash s.tokens with
    | error e =>
      simp only [execute, h]
      trivial
    | ok rt =>
      simp only [execute, h]
      exact hs rt (getRefreshTokenByHash_ok h).1
  | now => trivial
  | newUUID => trivial
  | hashPassword password => trivial
  | generateRefreshToken => trivial
  | revokeRefreshTokenFamily familyID => trivial
  | upgrade => trivial

theorem answer_told (hs : s.Founded) (draw : Draw) (o : AuthOp) (fate : Fate) :
    (s.answer draw o fate).2.Told o (s.answer draw o fate).1 := by
  cases fate with
  | served => exact execute_told hs draw o
  | failed => exact failure_told s s draw o
  | lost => exact failure_told s _ draw o

theorem put_exchanges {n m : ℕ} {e e' : Exchange} (h : (s.put n e).exchanges m = some e') :
    (m = n ∧ e' = e) ∨ (m ≠ n ∧ s.exchanges m = some e') := by
  have h : Function.update s.exchanges n (some e) m = some e' := h
  by_cases hm : m = n
  · subst hm
    rw [Function.update_self] at h
    cases h
    exact .inl ⟨rfl, rfl⟩
  · rw [Function.update_of_ne hm] at h
    exact .inr ⟨hm, h⟩

@[simp] theorem put_self (s : Sessions) (n : ℕ) (e : Exchange) : (s.put n e).exchanges n = some e :=
  Function.update_self ..

theorem Served.grows {o : AuthOp} {n : ℕ} {e : Exchange} (h : Served s s' o)
    (hn : ∀ e₀, s.exchanges n = some e₀ → e.request = e₀.request ∧ e₀.calls ⊆ e.calls ∧
      ∀ reply, e₀.rest = .ret reply → e.rest = .ret reply) : Grows s (s'.put n e) := by
  refine ⟨fun m e₀ he₀ => ?_, fun a ha => ⟨a, h.accounts a ha, .refl a⟩⟩
  by_cases hm : m = n
  · subst hm
    exact ⟨e, put_self s' m e, hn e₀ he₀⟩
  · refine ⟨e₀, ?_, rfl, fun _ hc => hc, fun _ hr => hr⟩
    change Function.update s'.exchanges n (some e) m = some e₀
    rw [Function.update_of_ne hm, h.exchanges]
    exact he₀

end Sessions

/-! ## The invariant -/

/-- What is known of every request, account and family. -/
structure SessionsInv (lib : AuthLib) (jwtTTL : Time) (s : Sessions) : Prop where
  follows : ∀ n e, s.exchanges n = some e → (e.request.handler lib jwtTTL).Follows e.calls e.rest
  told : ∀ n e, s.exchanges n = some e → ∀ c ∈ e.calls, s.Told c.1 c.2
  created : ∀ a ∈ s.accounts, s.Created a
  founded : s.Founded

section

open Sessions

variable {lib : AuthLib} {jwtTTL : Time} {s s' : Sessions} {a : SessionsAction}

theorem sessionsInv_start (lib : AuthLib) (jwtTTL : Time) : SessionsInv lib jwtTTL Sessions.start :=
  ⟨by simp [Sessions.start], by simp [Sessions.start], by simp [Sessions.start],
    by simp [Sessions.start, Founded]⟩

/-- The tables and the clock change, and the requests do not. -/
theorem SessionsInv.keep (h : SessionsInv lib jwtTTL s) (hg : Grows s s')
    (hx : s'.exchanges = s.exchanges) (ht : s'.tokens = s.tokens)
    (ha : ∀ b ∈ s'.accounts, ∃ a ∈ s.accounts, a.Same b) : SessionsInv lib jwtTTL s' := by
  refine ⟨fun n e he => h.follows n e (hx ▸ he),
    fun n e he c hc => hg.told (h.told n e (hx ▸ he) c hc), fun b hb => ?_, fun rt hrt => ?_⟩
  · obtain ⟨a, hmem, hsame⟩ := ha b hb
    obtain ⟨m, req, r, hc⟩ := h.created a hmem
    rw [hsame.username, hsame.email, hsame.passwordHash] at hc
    exact ⟨m, req, r, hg.called hc⟩
  · obtain ⟨m, hm⟩ := h.founded rt (ht ▸ hrt)
    exact ⟨m, hg.begins hm⟩

/-- Request `n` goes on with the call `o`, if it makes one. -/
theorem SessionsInv.put (h : SessionsInv lib jwtTTL s) {o : AuthOp} {n : ℕ} {e : Exchange}
    (hserved : Served s s' o) (hg : Grows s (s'.put n e))
    (hfollows : (e.request.handler lib jwtTTL).Follows e.calls e.rest)
    (htold : ∀ c ∈ e.calls, (s'.put n e).Told c.1 c.2)
    (hmade : (∃ r, ⟨o, r⟩ ∈ e.calls) ∨ s' = s) : SessionsInv lib jwtTTL (s'.put n e) := by
  -- what the call has added to the tables is recorded with it
  have hcalled : s' ≠ s → ∃ r, (s'.put n e).Called n e.request ⟨o, r⟩ := by
    intro hne
    obtain ⟨r, hr⟩ := hmade.resolve_right hne
    exact ⟨r, e, put_self s' n e, rfl, hr⟩
  refine ⟨fun m e' he' => ?_, fun m e' he' c hc => ?_, fun b hb => ?_, fun rt hrt => ?_⟩
  · rcases put_exchanges he' with ⟨rfl, rfl⟩ | ⟨-, he'⟩
    · exact hfollows
    · exact h.follows m e' (hserved.exchanges ▸ he')
  · rcases put_exchanges he' with ⟨rfl, rfl⟩ | ⟨-, he'⟩
    · exact htold c hc
    · exact hg.told (h.told m e' (hserved.exchanges ▸ he') c hc)
  · have hb : b ∈ s'.accounts := hb
    by_cases hsame : s' = s
    · obtain ⟨m, req, r, hc⟩ := h.created b (hsame ▸ hb)
      exact ⟨m, req, r, hg.called hc⟩
    · rcases hserved.created b hb with hold | rfl
      · obtain ⟨m, req, r, hc⟩ := h.created b hold
        exact ⟨m, req, r, hg.called hc⟩
      · obtain ⟨r, hc⟩ := hcalled hsame
        exact ⟨n, e.request, r, hc⟩
  · have hrt : rt ∈ s'.tokens := hrt
    by_cases hsame : s' = s
    · obtain ⟨m, hm⟩ := h.founded rt (hsame ▸ hrt)
      exact ⟨m, hg.begins hm⟩
    · rcases hserved.tokens rt hrt with ⟨x, hx, hfamily, huser⟩ | ⟨tokenHash, expiresAt, rfl⟩
      · obtain ⟨m, hm⟩ := h.founded x hx
        rw [hfamily, huser] at hm
        exact ⟨m, hg.begins hm⟩
      · obtain ⟨r, hc⟩ := hcalled hsame
        exact ⟨n, e.request, tokenHash, expiresAt, r, hc⟩

/-- A request goes on with the answer to its next call. -/
theorem SessionsInv.serve (h : SessionsInv lib jwtTTL s) {n : ℕ} {req : AuthRequest}
    {calls : List AuthCall} {o : AuthOp} {k : o.Res → AuthProc AuthReply}
    (hn : s.exchanges n = some ⟨req, calls, .op o k⟩) (draw : Draw) (fate : Fate) :
    let out := s.answer draw o fate
    let e : Exchange := ⟨req, calls ++ [⟨o, out.1⟩], k out.1⟩
    SessionsInv lib jwtTTL (out.2.put n e) ∧ Grows s (out.2.put n e) := by
  intro out e
  have hserved : Served s out.2 o := answer_served s draw o fate
  have hext : ∀ e₀, s.exchanges n = some e₀ → e.request = e₀.request ∧ e₀.calls ⊆ e.calls ∧
      ∀ reply, e₀.rest = .ret reply → e.rest = .ret reply := by
    intro e₀ he₀
    rw [hn] at he₀
    cases he₀
    exact ⟨rfl, fun _ hc => List.mem_append_left _ hc, fun _ hr => by cases hr⟩
  have hg : Grows s (out.2.put n e) := hserved.grows hext
  have htold : ∀ c ∈ e.calls, (out.2.put n e).Told c.1 c.2 := by
    intro c hc
    rcases List.mem_append.mp hc with hc | hc
    · exact hg.told (h.told n _ hn c hc)
    · cases List.mem_singleton.mp hc
      have hput : Grows out.2 (out.2.put n e) :=
        (Served.refl out.2 o).grows fun e₀ he₀ => hext e₀ (hserved.exchanges ▸ he₀)
      exact hput.told (answer_told h.founded draw o fate)
  have hmade : ⟨o, out.1⟩ ∈ e.calls := List.mem_append_right _ (List.mem_singleton.mpr rfl)
  exact ⟨h.put hserved hg ((h.follows n _ hn).answer out.1) htold (.inl ⟨out.1, hmade⟩), hg⟩

theorem SessionsInv.step (h : SessionsInv lib jwtTTL s) (hs : s.step lib jwtTTL a = some s') :
    SessionsInv lib jwtTTL s' ∧ Grows s s' := by
  cases a with
  | request n req =>
    simp only [Sessions.step] at hs
    split at hs
    · rename_i hn
      cases hs
      have hg : Grows s (s.put n ⟨req, [], req.handler lib jwtTTL⟩) :=
        (Served.refl s .now).grows fun e₀ he₀ => by rw [hn] at he₀; cases he₀
      exact ⟨h.put (.refl s .now) hg (.refl _) (by simp) (.inr rfl), hg⟩
    · cases hs
  | serve n draw fate =>
    simp only [Sessions.step] at hs
    split at hs
    · rename_i req calls o k hn
      cases hs
      exact h.serve hn draw fate
    · cases hs
  | tick now =>
    cases hs
    have hg : Grows s { s with now := now } :=
      ⟨fun n e he => ⟨e, he, rfl, fun _ hc => hc, fun _ hr => hr⟩, fun a ha => ⟨a, ha, .refl a⟩⟩
    exact ⟨h.keep hg rfl rfl fun b hb => ⟨b, hb, .refl b⟩, hg⟩
  | promote email =>
    cases hs
    have hg : Grows s { s with accounts := promoteToSystemAdmin lib.normalize email s.accounts } :=
      ⟨fun n e he => ⟨e, he, rfl, fun _ hc => hc, fun _ hr => hr⟩, fun a ha => same_promote ha⟩
    exact ⟨h.keep hg rfl rfl fun b hb => (promote_cases hb).imp fun a ha => ⟨ha.1, ha.2.1⟩, hg⟩

theorem SessionsInv.reach {ok : Sessions → SessionsAction → Prop}
    (hrun : Reach (Sessions.step lib jwtTTL) ok Sessions.start s) : SessionsInv lib jwtTTL s :=
  hrun.invariant (SessionsInv lib jwtTTL) (fun _ _ _ h _ hs => (h.step hs).1)
    (sessionsInv_start lib jwtTTL)

/-- An account goes back to a signup that has hashed its password. -/
theorem SessionsInv.signedUp (h : SessionsInv lib jwtTTL s) {b : Account} (hb : b ∈ s.accounts) :
    ∃ n first r, s.Called n (.signup (some first)) ⟨.hashPassword first.password,
      some b.passwordHash⟩ ∧
      s.Called n (.signup (some first))
        ⟨.createUser (trimSpace first.username) (lib.normalize first.email) b.passwordHash, r⟩ ∧
      b.email = lib.normalize first.email := by
  obtain ⟨n, req, r, e, he, rfl, hmem⟩ := h.created b hb
  obtain ⟨first, hreq, husername, hemail, -, -, -, hhash⟩ := handler_created (h.follows n e he) hmem
  rw [husername, hemail] at hmem
  exact ⟨n, first, r, ⟨e, he, hreq, hhash⟩, ⟨e, he, hreq, hmem⟩, hemail⟩

/-- Whoever begins a family has given the password. -/
theorem SessionsInv.password (h : SessionsInv lib jwtTTL s) {m : ℕ} {familyID u : UUID}
    (hm : s.Begins m familyID u) : s.Password lib m u := by
  obtain ⟨req, tokenHash, expiresAt, r, e, he, rfl, hmem⟩ := hm
  rcases handler_issued (h.follows m e he) hmem with
    ⟨body, hash, user, hreq, hhash, hcreate, hid⟩ | ⟨body, user, hreq, hget, hpassword, rfl⟩
  · exact .signup ⟨e, he, hreq, hhash⟩ ⟨e, he, hreq, hcreate⟩ hid
  · obtain ⟨hemail, a, ha, hsame⟩ := h.told m e he _ hget
    obtain ⟨n, first, r, hhash, hcreate, hfirst⟩ := h.signedUp ha
    refine .login he hreq hhash hcreate ha hsame.id.symm hfirst ?_ rfl ?_
    · exact hsame.email.symm.trans hemail
    · exact hsame.passwordHash ▸ hpassword

/-- The refresh token of a session is stored in a family that a request has begun. -/
theorem SessionsInv.session (h : SessionsInv lib jwtTTL s) {n : ℕ} {e : Exchange} {status : ℕ}
    {token refreshToken : String} {user : Account} (hn : s.exchanges n = some e)
    (hreply : e.rest = .ret (.session status token refreshToken user)) :
    ∃ m rt, s.Begins m rt.familyID user.id ∧ s.Stores n rt ∧ rt.userID = user.id ∧
      rt.tokenHash = lib.hashRefreshToken refreshToken := by
  have hfollows := h.follows n e hn
  rw [hreply] at hfollows
  obtain ⟨-, hgrounds⟩ := handler_session hfollows
  -- a signup and a login begin the family themselves
  have hissued : ∀ req, e.request = req → Issued lib e.calls refreshToken user.id →
      ∃ m rt, s.Begins m rt.familyID user.id ∧ s.Stores n rt ∧ rt.userID = user.id ∧
        rt.tokenHash = lib.hashRefreshToken refreshToken := by
    rintro req hreq ⟨familyID, expiresAt, rt, hmem⟩
    obtain ⟨huser, rfl, hhash⟩ := h.told n e hn _ hmem
    exact ⟨n, rt, ⟨req, _, expiresAt, _, e, hn, hreq, hmem⟩,
      ⟨req, .inl ⟨_, _, _, expiresAt, e, hn, hreq, hmem⟩⟩, huser, hhash⟩
  generalize hreq : e.request = req at hgrounds
  cases hgrounds with
  | signup _ _ h => exact hissued _ hreq h
  | login _ _ h => exact hissued _ hreq h
  | @refresh presented expiresAt rotated hrotate hget =>
    obtain ⟨hhash, m, hm⟩ := h.told n e hn _ hrotate
    obtain ⟨hid, -⟩ := h.told n e hn _ hget
    rw [← hid] at hm
    exact ⟨m, rotated, hm, ⟨_, .inr ⟨_, _, expiresAt, e, hn, hreq, hrotate⟩⟩, hid.symm, hhash⟩

/-- The family of every session that is handed out was begun with a password of its user. -/
theorem sessions_rest_on_passwords {n : ℕ} {e : Exchange} {status : ℕ} {token refreshToken : String}
    {user : Account} (hrun : Reach (Sessions.step lib jwtTTL) Unguarded Sessions.start s)
    (hn : s.exchanges n = some e)
    (hreply : e.rest = .ret (.session status token refreshToken user)) :
    ∃ m rt, s.Password lib m user.id ∧ s.Begins m rt.familyID user.id ∧ s.Stores n rt ∧
      rt.userID = user.id ∧ rt.tokenHash = lib.hashRefreshToken refreshToken := by
  have h := SessionsInv.reach hrun
  obtain ⟨m, rt, hbegins, hstores⟩ := h.session hn hreply
  exact ⟨m, rt, h.password hbegins, hbegins, hstores⟩

/-! ## A user who signs up, refreshes, and logs out -/

/-- The reply to request `n`, when its handler has ended. -/
def Sessions.reply (s : Sessions) (n : ℕ) : Option AuthReply :=
  match s.exchanges n with
  | some ⟨_, _, .ret reply⟩ => some reply
  | _ => none

theorem reply_eq_some {n : ℕ} {reply : AuthReply} (h : s.reply n = some reply) :
    ∃ e, s.exchanges n = some e ∧ e.rest = .ret reply := by
  unfold Sessions.reply at h
  split at h
  · rename_i hn
    cases h
    exact ⟨_, hn, rfl⟩
  · cases h

/-- The claims of Ada's access tokens, for 15 minutes. -/
def adaClaims : Claims := ⟨spell 7, 0, 900⟩

/-- Libraries that know Ada only. -/
def adaLib : AuthLib where
  classes := Frontend.asciiClasses
  toLower email := email
  parseAddress email := email = "ada@convoy"
  comparePassword hash password := hash = "$2a$" ++ password
  hashRefreshToken token := "sha256:" ++ token
  sign claims := if claims = adaClaims then some "ada.jwt" else none
  parseToken now token :=
    if token = "ada.jwt" ∧ now < adaClaims.expiresAt * 1000000 then some adaClaims else none
  uuidText := spell
  parseUUID := unspell

theorem adaLib_lawful : adaLib.Lawful := by
  refine ⟨fun claims token now h => ?_, unspell_spell⟩
  simp only [adaLib] at h ⊢
  split_ifs at h with hclaims
  cases h
  simp [hclaims]

/-- Serve the calls of request `n`, one draw for each. -/
def serveCalls (n : ℕ) (draws : List (ℕ × String)) : List SessionsAction :=
  draws.map fun d => .serve n ⟨d.1, d.2⟩ .served

/-- Ada signs up, refreshes her session, opens a page and logs out. -/
def adaVisits : List SessionsAction :=
  .request 0 (.signup (some ⟨"ada", "ada@convoy", "Lovelace1815"⟩)) ::
    serveCalls 0 [(0, "$2a$Lovelace1815"), (7, ""), (0, ""), (9, ""), (0, "first"),
      (0, ""), (11, "")] ++
  .request 1 (.refresh (some "first")) ::
    serveCalls 1 [(0, "second"), (0, ""), (12, ""), (0, ""), (0, "")] ++
  .request 2 (.bearer "Bearer ada.jwt") :: serveCalls 2 [(0, "")] ++
  .request 3 (.logout "Bearer ada.jwt" (some "second")) :: serveCalls 3 [(0, ""), (0, ""), (0, "")]

def adaStep : Sessions → SessionsAction → Option Sessions := Sessions.step adaLib 900000000

def adaAfter : Sessions := (exec adaStep Sessions.start adaVisits).getD Sessions.start

theorem exec_adaVisits : exec adaStep Sessions.start adaVisits = some adaAfter := by
  have hsome : (exec adaStep Sessions.start adaVisits).isSome = true := by decide +kernel
  rw [adaAfter, ← Option.get_eq_getD (h := hsome), Option.some_get]

def adaAccount : Account := ⟨7, "ada", "ada@convoy", "$2a$Lovelace1815", none, none, false, 0, 0⟩

example : [0, 1, 2, 3].map adaAfter.reply =
    [some (.session 201 "ada.jwt" "first" adaAccount),
      some (.session 200 "ada.jwt" "second" adaAccount),
      some (.entered 7), some .loggedOut] := by decide +kernel

/-- Ada's second session continues the family of her signup. -/
theorem sessions_rest_on_passwords_refreshed :
    ∃ m rt, adaAfter.Password adaLib m 7 ∧ adaAfter.Begins m rt.familyID 7 ∧ adaAfter.Stores 1 rt ∧
      rt.userID = 7 ∧ rt.tokenHash = "sha256:second" := by
  have hrun : Reach adaStep Unguarded Sessions.start adaAfter :=
    Reach.of_exec (meets_unguarded adaStep Sessions.start adaVisits) exec_adaVisits
  have hreply : adaAfter.reply 1 =
      some (.session 200 "ada.jwt" "second" adaAccount) := by decide +kernel
  obtain ⟨e, hn, he⟩ := reply_eq_some hreply
  exact sessions_rest_on_passwords hrun hn he

/-- The acceptable tokens that are presented were handed out. -/
def PresentsHandedOut (lib : AuthLib) (s : Sessions) : Prop :=
  ∀ n e token, s.exchanges n = some e → presents e.request = some token → Acceptable lib token →
    s.HandedOut token

theorem PresentsHandedOut.step (h : PresentsHandedOut lib s) (hinv : SessionsInv lib jwtTTL s)
    (hok : Unforged lib s a) (hs : s.step lib jwtTTL a = some s') : PresentsHandedOut lib s' := by
  have hg := (hinv.step hs).2
  intro m e token hm hpresents hacceptable
  cases a with
  | request n req =>
    simp only [Sessions.step] at hs
    split at hs
    · cases hs
      rcases put_exchanges hm with ⟨rfl, rfl⟩ | ⟨-, hm⟩
      · exact hg.handedOut (hok _ _ _ rfl hpresents hacceptable)
      · exact hg.handedOut (h m e token hm hpresents hacceptable)
    · cases hs
  | serve n draw fate =>
    simp only [Sessions.step] at hs
    split at hs
    · rename_i req calls o k hn
      cases hs
      rcases put_exchanges hm with ⟨rfl, rfl⟩ | ⟨-, hm⟩
      · exact hg.handedOut (h m _ token hn hpresents hacceptable)
      · exact hg.handedOut (h m e token ((answer_served s draw o fate).exchanges ▸ hm)
          hpresents hacceptable)
    · cases hs
  | tick now =>
    cases hs
    exact hg.handedOut (h m e token hm hpresents hacceptable)
  | promote email =>
    cases hs
    exact hg.handedOut (h m e token hm hpresents hacceptable)

/-- What an admitted request has validated. -/
theorem SessionsInv.admitted (h : SessionsInv lib jwtTTL s) {n : ℕ} {e : Exchange} {u : UUID}
    (hn : s.exchanges n = some e) (hadmitted : e.AdmittedAs u) :
    ∃ token, presents e.request = some token ∧ ValidFor lib e.calls token u := by
  have hfollows := h.follows n e hn
  rcases hadmitted with hreply | ⟨username, hreply⟩
  · rw [hreply] at hfollows
    obtain ⟨authorization, token, hreq, hbearer, hvalid⟩ := handler_entered hfollows
    exact ⟨token, by rw [hreq]; exact hbearer, hvalid⟩
  · rw [hreply] at hfollows
    obtain ⟨token, user, hreq, hvalid, -⟩ := handler_connected hfollows
    exact ⟨token, by rw [hreq]; rfl, hvalid⟩

/-- A valid token that is presented is that of a session, within its time to live. -/
theorem SessionsInv.holds (h : SessionsInv lib jwtTTL s) (hpresents : PresentsHandedOut lib s)
    (hlib : lib.Lawful) {n : ℕ} {e : Exchange} {token : String} {u : UUID}
    (hn : s.exchanges n = some e) (htoken : presents e.request = some token)
    (hvalid : ValidFor lib e.calls token u) : HoldsSession lib jwtTTL s e u := by
  obtain ⟨now, claims, hnow, hparse, hsubject⟩ := hvalid
  obtain ⟨m, e', status, refreshToken, user, hm, hreply⟩ :=
    hpresents n e token hn htoken ⟨now, claims, hparse⟩
  have hfollows := h.follows m e' hm
  rw [hreply] at hfollows
  obtain ⟨⟨signed, hsigned, hsign⟩, -⟩ := handler_session hfollows
  -- the token is read as it was signed, until it expires
  rw [hlib.parse_sign _ _ now hsign] at hparse
  split_ifs at hparse with hlive
  cases hparse
  have hu : user.id = u := by
    rw [hlib.parse_text] at hsubject
    exact Option.some.inj hsubject
  have hyoung : now < signed + jwtTTL := by
    have hfloor := Nat.div_mul_le_self (signed + jwtTTL) 1000000
    exact lt_of_lt_of_le hlive hfloor
  obtain ⟨l, rt, hbegins, hstores, -⟩ := h.session hm hreply
  rw [hu] at hbegins
  rw [hu] at hsign
  exact ⟨m, e', status, token, refreshToken, user, signed, now, htoken, hm, hreply, hu, hsigned,
    hsign, hnow, hyoung, l, rt, h.password hbegins, hbegins, hstores⟩

theorem presentsHandedOut_reach (hrun : Reach (Sessions.step lib jwtTTL)
    (Unforged lib) Sessions.start s) :
    PresentsHandedOut lib s := by
  have hboth : SessionsInv lib jwtTTL s ∧ PresentsHandedOut lib s := by
    refine hrun.invariant (fun x => SessionsInv lib jwtTTL x ∧ PresentsHandedOut lib x) ?_
      ⟨sessionsInv_start lib jwtTTL, by intro n e token hn; cases hn⟩
    rintro x a x' ⟨hinv, hpresents⟩ hok hs
    exact ⟨(hinv.step hs).1, hpresents.step hinv hok hs⟩
  exact hboth.2

/-- Whoever is admitted as `u` holds a session of `u`. -/
theorem admitted_hold_session (hlib : lib.Lawful) {n : ℕ} {e : Exchange} {u : UUID}
    (hrun : Reach (Sessions.step lib jwtTTL) (Unforged lib) Sessions.start s)
    (hn : s.exchanges n = some e) (hadmitted : e.AdmittedAs u) : HoldsSession lib jwtTTL s e u := by
  have h := SessionsInv.reach hrun
  obtain ⟨token, htoken, hvalid⟩ := h.admitted hn hadmitted
  exact h.holds (presentsHandedOut_reach hrun) hlib hn htoken hvalid

/-- Every request but the first two presents the token that was handed out first. -/
def presentsFirst (s : Sessions) : SessionsAction → Bool
  | .request _ req =>
    match presents req, s.reply 0 with
    | none, _ => true
    | some token, some (.session _ token' _ _) => token = token'
    | _, _ => false
  | _ => true

theorem unforged_of_presentsFirst (s : Sessions) (a : SessionsAction)
    (h : presentsFirst s a = true) :
    Unforged adaLib s a := by
  rintro n req token rfl hpresents -
  simp only [presentsFirst, hpresents] at h
  split at h
  · rename_i hnone
    simp at hnone
  · rename_i status token' refreshToken user htoken hreply
    cases htoken
    obtain ⟨e, hn, he⟩ := reply_eq_some hreply
    cases of_decide_eq_true h
    exact ⟨0, e, status, refreshToken, user, hn, he⟩
  · cases h

theorem reach_adaAfter : Reach adaStep (Unforged adaLib) Sessions.start adaAfter :=
  Reach.of_exec (meets_of_checks unforged_of_presentsFirst
    (by decide +kernel : checks adaStep presentsFirst Sessions.start adaVisits = true))
      exec_adaVisits

/-- Ada's page is hers. -/
theorem admitted_hold_session_entered :
    ∃ e, adaAfter.exchanges 2 = some e ∧ HoldsSession adaLib 900000000 adaAfter e 7 := by
  have hreply : adaAfter.reply 2 = some (.entered 7) := by decide +kernel
  obtain ⟨e, hn, he⟩ := reply_eq_some hreply
  exact ⟨e, hn, admitted_hold_session adaLib_lawful reach_adaAfter hn (.inl he)⟩

/-- A logout revokes a family of the user whose session it holds, and no other. -/
theorem logouts_revoke_own_families (hlib : lib.Lawful) {n : ℕ} {e : Exchange} {familyID : UUID}
    {r : Except StoreErr Unit}
    (hrun : Reach (Sessions.step lib jwtTTL) (Unforged lib) Sessions.start s)
    (hn : s.exchanges n = some e) (hrevoke : ⟨.revokeRefreshTokenFamily familyID, r⟩ ∈ e.calls) :
    ∃ u, HoldsSession lib jwtTTL s e u ∧ ∃ m, s.Begins m familyID u ∧ s.Password lib m u := by
  have h := SessionsInv.reach hrun
  obtain ⟨authorization, presented, token, rt, hreq, hbearer, hvalid, hget, rfl⟩ :=
    handler_revoked (h.follows n e hn) hrevoke
  have htoken : presents e.request = some token := by
    rw [hreq]
    exact hbearer
  obtain ⟨m, hm⟩ := h.told n e hn _ hget
  exact ⟨rt.userID, h.holds (presentsHandedOut_reach hrun) hlib hn htoken hvalid, m,
    hm, h.password hm⟩

/-- The call has revoked the family. -/
def hasRevoked (familyID : UUID) : AuthCall → Bool
  | ⟨.revokeRefreshTokenFamily revoked, .ok ()⟩ => revoked = familyID
  | _ => false

theorem eq_of_hasRevoked {familyID : UUID} {c : AuthCall} (h : hasRevoked familyID c = true) :
    c = ⟨.revokeRefreshTokenFamily familyID, .ok ()⟩ := by
  unfold hasRevoked at h
  split at h
  · cases of_decide_eq_true h
    rfl
  · cases h

/-- Ada's logout revokes family 9. -/
theorem logouts_revoke_own_families_ada :
    ∃ e u, adaAfter.exchanges 3 = some e ∧ HoldsSession adaLib 900000000 adaAfter e u ∧
      ∃ m, adaAfter.Begins m 9 u ∧ adaAfter.Password adaLib m u := by
  have hrevoked : (adaAfter.exchanges 3).any (fun e => e.calls.any (hasRevoked 9)) = true := by
    decide +kernel
  obtain ⟨e, hn, hany⟩ := (Option.any_eq_true ..).mp hrevoked
  obtain ⟨c, hc, hcall⟩ := List.any_eq_true.mp hany
  rw [eq_of_hasRevoked hcall] at hc
  obtain ⟨u, hholds, hfamily⟩ := logouts_revoke_own_families adaLib_lawful reach_adaAfter hn hc
  exact ⟨e, u, hn, hholds, hfamily⟩

end

end ConvoyChat.System
