import ConvoyChat.Handlers.Validators
import ConvoyChat.Lib.Transcript
import ConvoyChat.Store.Accounts
import ConvoyChat.Store.RefreshTokens

/-!
# Accounts and sessions

Models of the handlers of `internal/handlers/auth.go`, of `internal/auth` and of the
handshake of `internal/websocket/server.go` up to the upgrade. A handler is a procedure
over its store calls, the clock and the sources of random values; what other requests do
between two calls is up to the environment.

`bcrypt`, `golang-jwt`, SHA-256, `net/mail` and `strings.ToLower` are the parameters
`AuthLib`, with what is documented of tokens and of `uuid` in `AuthLib.Lawful`.

* `handler_session`: what a session that is handed out rests on, among the calls of its request.
* `handler_entered`, `handler_connected`: what an admitted request rests on.
* `handler_created`, `handler_issued`, `handler_revoked`: what the writes rest on.
-/

namespace ConvoyChat.Handlers

open ConvoyChat.Lib ConvoyChat.Store

/-- `auth.Claims`; times are in seconds, as `jwt.NumericDate` keeps them. -/
structure Claims where
  subject : String
  issuedAt : ℕ
  expiresAt : ℕ
deriving DecidableEq, Repr

/-- The packages behind the handlers. -/
structure AuthLib where
  classes : UnicodeClasses
  /-- `strings.ToLower` -/
  toLower : String → String
  /-- `mail.ParseAddress` accepts the text -/
  parseAddress : String → Bool
  /-- `bcrypt.CompareHashAndPassword` -/
  comparePassword : (hash password : String) → Bool
  /-- `auth.HashRefreshToken` -/
  hashRefreshToken : String → String
  /-- `token.SignedString` with the secret -/
  sign : Claims → Option String
  /-- `jwt.ParseWithClaims` with the secret, at a time -/
  parseToken : Time → String → Option Claims
  /-- `uuid.UUID.String` and `uuid.Parse` -/
  uuidText : UUID → String
  parseUUID : String → Option UUID

/-- A signed token is read as its claims until it expires, and a UUID as it was printed. -/
structure AuthLib.Lawful (lib : AuthLib) : Prop where
  parse_sign : ∀ claims token now, lib.sign claims = some token →
    lib.parseToken now token = if now < claims.expiresAt * 1000000 then some claims else none
  parse_text : ∀ u, lib.parseUUID (lib.uuidText u) = some u

/-! ## Calls and replies -/

/-- What the handlers ask of their environment. -/
inductive AuthOp
  | now
  | newUUID
  | hashPassword (password : String)
  | generateRefreshToken
  | createUser (username email passwordHash : String)
  | getUserByEmail (email : String)
  | getUserByID (userID : UUID)
  | createRefreshToken (userID familyID : UUID) (tokenHash : String) (expiresAt : Time)
  | rotateRefreshToken (oldHash newHash : String) (newExpiresAt : Time)
  | getRefreshTokenByHash (tokenHash : String)
  | revokeRefreshTokenFamily (familyID : UUID)
  | upgrade
deriving DecidableEq, Repr

/-- The answers; `generateRefreshToken` gives the plaintext. -/
abbrev AuthOp.Res : AuthOp → Type
  | now => Time
  | newUUID => UUID
  | hashPassword _ => Option String
  | generateRefreshToken => Option String
  | createUser _ _ _ => Except CreateUserErr Account
  | getUserByEmail _ => Except StoreErr Account
  | getUserByID _ => Except StoreErr Account
  | createRefreshToken _ _ _ _ => Except StoreErr RefreshToken
  | rotateRefreshToken _ _ _ => Except StoreErr RefreshToken
  | getRefreshTokenByHash _ => Except StoreErr RefreshToken
  | revokeRefreshTokenFamily _ => Except StoreErr Unit
  | upgrade => Bool

abbrev AuthProc := Proc AuthOp AuthOp.Res

abbrev AuthCall := Call AuthOp AuthOp.Res

/-- The end of a request: an error, an `authResponse`, `logged_out`, a Bearer-protected handler
    that is entered, a WebSocket client, or an upgrade that failed. -/
inductive AuthReply
  | error (status : ℕ) (code message : String)
  | session (status : ℕ) (token refreshToken : String) (user : Account)
  | loggedOut
  | entered (userID : UUID)
  | connected (userID : UUID) (username : String)
  | refused
deriving DecidableEq, Repr

namespace AuthReply

def badRequest (message : String) : AuthReply := .error 400 "invalid_input" message

def unauthorized (message : String) : AuthReply := .error 401 "unauthorized" message

def conflict (message : String) : AuthReply := .error 409 "conflict" message

def internalError (message : String) : AuthReply := .error 500 "internal_error" message

end AuthReply

structure SignupRequest where
  username : String
  email : String
  password : String
deriving DecidableEq, Repr

structure LoginRequest where
  email : String
  password : String
deriving DecidableEq, Repr

/-- A request; a body is `none` when it is not valid JSON, and a header or a query parameter
    that is missing is empty. -/
inductive AuthRequest
  | signup (body : Option SignupRequest)
  | login (body : Option LoginRequest)
  | refresh (refreshToken : Option String)
  | logout (authorization : String) (refreshToken : Option String)
  | bearer (authorization : String)
  | connect (token : String)
deriving DecidableEq, Repr

/-! ## The handlers -/

/-- `refreshTokenTTL` (line 25). -/
def refreshTokenTTL : Time := 30 * 24 * 3600 * 1000000

def maxEmailLen : ℕ := 255

section

variable (lib : AuthLib) (jwtTTL : Time)

/-- `strings.ToLower(strings.TrimSpace(email))`. -/
def AuthLib.normalize (email : String) : String := lib.toLower (trimSpace email)

/-- Model of `validateEmail` (lines 46–54). -/
def validateEmail (email : String) : Except String Unit :=
  if maxEmailLen < email.utf8ByteSize then .error "email is too long"
  else if !lib.parseAddress email then .error "email is not a valid address"
  else .ok ()

/-- Model of `GenerateToken` (`internal/auth/auth.go` lines 21–37). -/
def generateToken (userID : UUID) : AuthProc (Option String) := do
  let now ← .perform AuthOp.now
  return lib.sign ⟨lib.uuidText userID, now / 1000000, (now + jwtTTL) / 1000000⟩

/-- Model of `ValidateToken` (lines 41–57). -/
def validateToken (token : String) : AuthProc (Option Claims) := do
  let now ← .perform AuthOp.now
  return lib.parseToken now token

/-- Model of `bearerToken` (`internal/auth/middleware.go` lines 48–59). -/
def bearerToken (authorization : String) : Option String :=
  if "Bearer ".toList.isPrefixOf authorization.toList then
    let token := String.ofList (authorization.toList.drop 7)
    if token = "" then none else some token
  else none

/-- Model of `Middleware` (lines 21–46). -/
def middleware (authorization : String) (next : UUID → AuthProc AuthReply) : AuthProc AuthReply :=
  match bearerToken authorization with
  | none => return .unauthorized "missing or malformed Authorization header"
  | some token => do
    match ← validateToken lib token with
    | none => return .unauthorized "invalid or expired token"
    | some claims =>
      match lib.parseUUID claims.subject with
      | none => return .unauthorized "invalid or expired token"
      | some userID => next userID

/-- Model of `issueRefreshToken` (lines 84–93). -/
def issueRefreshToken (userID familyID : UUID) : AuthProc (Option String) := do
  match ← .perform AuthOp.generateRefreshToken with
  | none => return none
  | some plaintext =>
    let now ← .perform AuthOp.now
    match ← .perform (AuthOp.createRefreshToken userID familyID (lib.hashRefreshToken plaintext)
        (now + refreshTokenTTL)) with
    | .error _ => return none
    | .ok _ => return some plaintext

/-- The end of `Signup` and of `Login` (lines 141–153, 191–203). -/
def writeSession (status : ℕ) (user : Account) : AuthProc AuthReply := do
  match ← generateToken lib jwtTTL user.id with
  | none => return .internalError "failed to generate token"
  | some token =>
    let familyID ← .perform AuthOp.newUUID
    match ← issueRefreshToken lib user.id familyID with
    | none => return .internalError "failed to generate refresh token"
    | some refreshToken => return .session status token refreshToken user

/-- Model of `Signup` (lines 96–155). -/
def signup (body : Option SignupRequest) : AuthProc AuthReply :=
  match body with
  | none => return .badRequest "request body must be valid JSON"
  | some req =>
    let username := trimSpace req.username
    let email := lib.normalize req.email
    match validateUsername username with
    | .error message => return .badRequest message
    | .ok () =>
      match validateEmail lib email with
      | .error message => return .badRequest message
      | .ok () =>
        match validatePassword lib.classes req.password with
        | .error message => return .badRequest message
        | .ok () => do
          match ← .perform (AuthOp.hashPassword req.password) with
          | none => return .internalError "failed to process password"
          | some hash =>
            match ← .perform (AuthOp.createUser username email hash) with
            | .error .duplicateUsername => return .conflict "username is already taken"
            | .error .duplicateEmail => return .conflict "email is already registered"
            | .error .internal => return .internalError "failed to create user"
            | .ok user => writeSession lib jwtTTL 201 user

/-- Model of `Login` (lines 158–205). -/
def login (body : Option LoginRequest) : AuthProc AuthReply :=
  match body with
  | none => return .badRequest "request body must be valid JSON"
  | some req =>
    let email := lib.normalize req.email
    if email = "" || req.password = "" then return .badRequest "email and password are required"
    else do
      match ← .perform (AuthOp.getUserByEmail email) with
      | .error .notFound => return .unauthorized "invalid email or password"
      | .error _ => return .internalError "failed to look up user"
      | .ok user =>
        if !lib.comparePassword user.passwordHash req.password then
          return .unauthorized "invalid email or password"
        else writeSession lib jwtTTL 200 user

/-- Model of `Refresh` (lines 215–261). -/
def refresh (body : Option String) : AuthProc AuthReply :=
  match body with
  | none => return .badRequest "request body must be valid JSON"
  | some presented =>
    if presented = "" then return .badRequest "refresh_token is required"
    else do
      match ← .perform AuthOp.generateRefreshToken with
      | none => return .internalError "failed to generate refresh token"
      | some plaintext =>
        let now ← .perform AuthOp.now
        match ← .perform (AuthOp.rotateRefreshToken (lib.hashRefreshToken presented)
            (lib.hashRefreshToken plaintext) (now + refreshTokenTTL)) with
        | .error .notFound | .error .refreshTokenReused | .error .tokenExpired =>
          return .unauthorized "invalid or expired refresh token"
        | .error _ => return .internalError "failed to refresh session"
        | .ok rotated =>
          match ← .perform (AuthOp.getUserByID rotated.userID) with
          | .error _ => return .internalError "failed to look up user"
          | .ok user =>
            match ← generateToken lib jwtTTL user.id with
            | none => return .internalError "failed to generate token"
            | some token => return .session 200 token plaintext user

/-- Model of `Logout` (lines 272–311) behind the middleware. -/
def logoutHandler (authorization : String) (body : Option String) : AuthProc AuthReply :=
  middleware lib authorization fun callerID =>
    match body with
    | none => return .badRequest "request body must be valid JSON"
    | some presented =>
      if presented = "" then return .loggedOut
      else do
        match ← .perform (AuthOp.getRefreshTokenByHash (lib.hashRefreshToken presented)) with
        | .error .notFound => return .loggedOut
        | .error _ => return .internalError "failed to look up refresh token"
        | .ok rt =>
          if rt.userID ≠ callerID then return .loggedOut
          else
            match ← .perform (AuthOp.revokeRefreshTokenFamily rt.familyID) with
            | .error _ => return .internalError "failed to revoke session"
            | .ok () => return .loggedOut

/-- Model of `Server.Handler` (`internal/websocket/server.go` lines 84–131) up to `newClient`. -/
def serverHandler (token : String) : AuthProc AuthReply :=
  if token = "" then return .unauthorized "missing token query parameter"
  else do
    match ← validateToken lib token with
    | none => return .unauthorized "invalid or expired token"
    | some claims =>
      match lib.parseUUID claims.subject with
      | none => return .unauthorized "invalid or expired token"
      | some userID =>
        match ← .perform (AuthOp.getUserByID userID) with
        | .error .notFound => return .unauthorized "invalid or expired token"
        | .error _ => return .internalError "failed to load user"
        | .ok user =>
          if ← .perform AuthOp.upgrade then return .connected userID user.username
          else return .refused

/-- The handler of a request; any other Bearer-protected one is `entered`. -/
def AuthRequest.handler : AuthRequest → AuthProc AuthReply
  | .signup body => Handlers.signup lib jwtTTL body
  | .login body => Handlers.login lib jwtTTL body
  | .refresh refreshToken => Handlers.refresh lib jwtTTL refreshToken
  | .logout authorization refreshToken => logoutHandler lib authorization refreshToken
  | .bearer authorization => middleware lib authorization fun userID => return .entered userID
  | .connect token => Handlers.serverHandler lib token

/-! ## What a reply rests on -/

/-- A token for `u`, signed at a time that the request has read. -/
def Signed (calls : List AuthCall) (token : String) (u : UUID) : Prop :=
  ∃ now : Time, ⟨.now, now⟩ ∈ calls ∧
    lib.sign ⟨lib.uuidText u, now / 1000000, (now + jwtTTL) / 1000000⟩ = some token

/-- A token that was valid for `u` at a time that the request has read. -/
def ValidFor (calls : List AuthCall) (token : String) (u : UUID) : Prop :=
  ∃ (now : Time) (claims : Claims), ⟨.now, now⟩ ∈ calls ∧ lib.parseToken now token = some claims ∧
    lib.parseUUID claims.subject = some u

/-- A refresh token was stored for `u`. -/
def Issued (calls : List AuthCall) (refreshToken : String) (u : UUID) : Prop :=
  ∃ familyID expiresAt rt,
    ⟨.createRefreshToken u familyID (lib.hashRefreshToken refreshToken) expiresAt, .ok rt⟩ ∈ calls

end

variable {lib : AuthLib} {jwtTTL : Time} {calls : List AuthCall} {token refreshToken : String}
  {u familyID : UUID} {user user' : Account} {status status' : ℕ}

theorem generateToken_follows {r : Option String} :
    (generateToken lib jwtTTL u).Follows calls (.ret r) ↔ ∃ now : Time, calls = [⟨.now, now⟩] ∧
      lib.sign ⟨lib.uuidText u, now / 1000000, (now + jwtTTL) / 1000000⟩ = r := by
  simp only [generateToken, Proc.follows_perform, Proc.follows_pure]
  constructor
  · rintro ⟨now, rest, rfl, rfl, h⟩
    exact ⟨now, rfl, h⟩
  · rintro ⟨now, rfl, h⟩
    exact ⟨now, [], rfl, rfl, h⟩

theorem issueRefreshToken_follows
    (h : (issueRefreshToken lib u familyID).Follows calls (.ret (some refreshToken))) :
    Issued lib calls refreshToken u := by
  obtain ⟨r, rest, rfl, h₁⟩ := Proc.follows_perform.mp h
  cases r with
  | none => cases (Proc.follows_pure.mp h₁).2
  | some plaintext =>
    obtain ⟨now, rest, rfl, h₂⟩ := Proc.follows_perform.mp h₁
    obtain ⟨r, rest, rfl, h₃⟩ := Proc.follows_perform.mp h₂
    cases r with
    | error e => cases (Proc.follows_pure.mp h₃).2
    | ok rt =>
      cases (Proc.follows_pure.mp h₃).2
      exact ⟨familyID, now + refreshTokenTTL, rt, by simp⟩

/-- The token and the refresh token of `Signup` and `Login` are for `user`. -/
theorem writeSession_session
    (h : (writeSession lib jwtTTL status user).Follows calls
      (.ret (.session status' token refreshToken user'))) :
    user' = user ∧ Signed lib jwtTTL calls token user.id ∧
    Issued lib calls refreshToken user.id := by
  obtain ⟨before, after, r, rfl, hsign, h₁⟩ := Proc.follows_bind.mp h
  obtain ⟨now, rfl, hr⟩ := generateToken_follows.mp hsign
  cases r with
  | none => cases (Proc.follows_pure.mp h₁).2
  | some signed =>
    obtain ⟨familyID, rest, rfl, h₂⟩ := Proc.follows_perform.mp h₁
    obtain ⟨before, after, r, rfl, hissue, h₃⟩ := Proc.follows_bind.mp h₂
    cases r with
    | none => cases (Proc.follows_pure.mp h₃).2
    | some plaintext =>
      obtain ⟨rfl, hreply⟩ := Proc.follows_pure.mp h₃
      cases hreply
      obtain ⟨fam, expiresAt, rt, hmem⟩ := issueRefreshToken_follows hissue
      exact ⟨rfl, ⟨now, by simp, hr⟩, fam, expiresAt, rt, by simp [hmem]⟩

/-- What the request of a session has been told of `user`. -/
inductive Grounds (lib : AuthLib) (calls : List AuthCall) (refreshToken : String) (user : Account) :
    AuthRequest → Prop
  | signup {req : SignupRequest} {hash : String}
      (hhash : ⟨.hashPassword req.password, some hash⟩ ∈ calls)
      (hcreate : ⟨.createUser (trimSpace req.username) (lib.normalize req.email) hash, .ok user⟩ ∈
        calls)
      (hissued : Issued lib calls refreshToken user.id) :
      Grounds lib calls refreshToken user (.signup (some req))
  | login {req : LoginRequest}
    (hget : ⟨.getUserByEmail (lib.normalize req.email), .ok user⟩ ∈ calls)
      (hpassword : lib.comparePassword user.passwordHash req.password = true)
      (hissued : Issued lib calls refreshToken user.id) :
      Grounds lib calls refreshToken user (.login (some req))
  | refresh {presented : String} {expiresAt : Time} {rotated : RefreshToken}
      (hrotate : ⟨.rotateRefreshToken (lib.hashRefreshToken presented)
        (lib.hashRefreshToken refreshToken)
        expiresAt, .ok rotated⟩ ∈ calls)
      (hget : ⟨.getUserByID rotated.userID, .ok user⟩ ∈ calls) :
      Grounds lib calls refreshToken user (.refresh (some presented))

theorem signup_session {body : Option SignupRequest}
    (h : (signup lib jwtTTL body).Follows calls (.ret (.session status token refreshToken user))) :
    Signed lib jwtTTL calls token user.id ∧ Grounds lib calls refreshToken user (.signup body) := by
  unfold signup at h
  split at h
  · cases (Proc.follows_pure.mp h).2
  rename_i req
  dsimp only at h
  split at h
  · cases (Proc.follows_pure.mp h).2
  split at h
  · cases (Proc.follows_pure.mp h).2
  split at h
  · cases (Proc.follows_pure.mp h).2
  obtain ⟨r, rest, rfl, h₁⟩ := Proc.follows_perform.mp h
  cases r with
  | none => cases (Proc.follows_pure.mp h₁).2
  | some hash =>
    obtain ⟨r, rest, rfl, h₂⟩ := Proc.follows_perform.mp h₁
    cases r with
    | error e => cases e <;> cases (Proc.follows_pure.mp h₂).2
    | ok created =>
      obtain ⟨rfl, ⟨now, hnow, hsign⟩, fam, expiresAt, rt, hissued⟩ := writeSession_session h₂
      exact ⟨⟨now, by simp [hnow], hsign⟩, .signup (.head _) (.tail _ (.head _))
        ⟨fam, expiresAt, rt, by simp [hissued]⟩⟩

theorem login_session {body : Option LoginRequest}
    (h : (login lib jwtTTL body).Follows calls (.ret (.session status token refreshToken user))) :
    Signed lib jwtTTL calls token user.id ∧ Grounds lib calls refreshToken user (.login body) := by
  unfold login at h
  split at h
  · cases (Proc.follows_pure.mp h).2
  rename_i req
  dsimp only at h
  split at h
  · cases (Proc.follows_pure.mp h).2
  obtain ⟨r, rest, rfl, h₁⟩ := Proc.follows_perform.mp h
  cases r with
  | error e => cases e <;> cases (Proc.follows_pure.mp h₁).2
  | ok found =>
    dsimp only at h₁
    split at h₁
    · cases (Proc.follows_pure.mp h₁).2
    rename_i hpassword
    obtain ⟨rfl, ⟨now, hnow, hsign⟩, fam, expiresAt, rt, hissued⟩ := writeSession_session h₁
    exact ⟨⟨now, by simp [hnow], hsign⟩, .login (.head _) (by simpa using hpassword)
      ⟨fam, expiresAt, rt, by simp [hissued]⟩⟩

theorem refresh_session {body : Option String}
    (h : (refresh lib jwtTTL body).Follows calls (.ret (.session status token refreshToken user))) :
    Signed lib jwtTTL calls token user.id ∧
    Grounds lib calls refreshToken user (.refresh body) := by
  unfold refresh at h
  split at h
  · cases (Proc.follows_pure.mp h).2
  rename_i presented
  split at h
  · cases (Proc.follows_pure.mp h).2
  obtain ⟨r, rest, rfl, h₁⟩ := Proc.follows_perform.mp h
  cases r with
  | none => cases (Proc.follows_pure.mp h₁).2
  | some plaintext =>
    obtain ⟨now, rest, rfl, h₂⟩ := Proc.follows_perform.mp h₁
    obtain ⟨r, rest, rfl, h₃⟩ := Proc.follows_perform.mp h₂
    cases r with
    | error e => cases e <;> cases (Proc.follows_pure.mp h₃).2
    | ok rotated =>
      obtain ⟨r, rest, rfl, h₄⟩ := Proc.follows_perform.mp h₃
      cases r with
      | error e => cases (Proc.follows_pure.mp h₄).2
      | ok found =>
        obtain ⟨before, after, r, rfl, hsign, h₅⟩ := Proc.follows_bind.mp h₄
        obtain ⟨now', rfl, hr⟩ := generateToken_follows.mp hsign
        cases r with
        | none => cases (Proc.follows_pure.mp h₅).2
        | some signed =>
          cases (Proc.follows_pure.mp h₅).2
          exact ⟨⟨now', by simp, hr⟩, .refresh (.tail _ (.tail _ (.head _)))
            (.tail _ (.tail _ (.tail _ (.head _))))⟩

/-! ## What each handler may do -/

/-- Accounts are created by signups, tokens by signups and logins; they are rotated by refreshes and
    revoked by logouts. -/
def AuthRequest.MayCall : AuthRequest → AuthOp → Prop
  | .signup _, .createUser _ _ _ => True
  | _, .createUser _ _ _ => False
  | .refresh _, .rotateRefreshToken _ _ _ => True
  | _, .rotateRefreshToken _ _ _ => False
  | .logout _ _, .revokeRefreshTokenFamily _ => True
  | _, .revokeRefreshTokenFamily _ => False
  | .signup _, .createRefreshToken _ _ _ _ => True
  | .login _, .createRefreshToken _ _ _ _ => True
  | _, .createRefreshToken _ _ _ _ => False
  | _, _ => True

/-- The replies of a request, by its kind. -/
def AuthRequest.MayReply : AuthRequest → AuthReply → Prop
  | _, .error _ _ _ => True
  | .signup _, .session _ _ _ _ => True
  | .login _, .session _ _ _ _ => True
  | .refresh _, .session _ _ _ _ => True
  | .logout _ _, .loggedOut => True
  | .bearer _, .entered _ => True
  | .connect _, .connected _ _ => True
  | .connect _, .refused => True
  | _, _ => False

/-- The procedure does what `req` may do. -/
def Allowed (req : AuthRequest) (p : AuthProc AuthReply) : Prop := p.Within req.MayCall req.MayReply

theorem generateToken_within (req : AuthRequest) :
    (generateToken lib jwtTTL u).Within req.MayCall fun _ => True :=
  .perform (by cases req <;> trivial) fun _ => trivial

theorem validateToken_within (req : AuthRequest) :
    (validateToken lib token).Within req.MayCall fun _ => True :=
  .perform (by cases req <;> trivial) fun _ => trivial

theorem issueRefreshToken_within {req : AuthRequest}
    (hcreate : ∀ u familyID hash expiresAt,
      req.MayCall (.createRefreshToken u familyID hash expiresAt)) :
    (issueRefreshToken lib u familyID).Within req.MayCall fun _ => True := by
  refine .perform (by cases req <;> trivial) fun plaintext => ?_
  cases plaintext with
  | none => exact trivial
  | some plaintext =>
    refine .perform (by cases req <;> trivial) fun now => .perform (hcreate _ _ _ _) fun rt => ?_
    cases rt <;> exact trivial

theorem writeSession_allowed {req : AuthRequest}
    (hcreate : ∀ u familyID hash expiresAt,
      req.MayCall (.createRefreshToken u familyID hash expiresAt))
    (h : ∀ token refreshToken, req.MayReply (.session status token refreshToken user)) :
    Allowed req (writeSession lib jwtTTL status user) := by
  refine (generateToken_within req).bind fun token => ?_
  cases token with
  | none => cases req <;> exact trivial
  | some token =>
    refine .perform (by cases req <;> trivial) fun familyID =>
      (issueRefreshToken_within hcreate).bind fun refreshToken => ?_
    cases refreshToken with
    | none => cases req <;> exact trivial
    | some refreshToken => exact h token refreshToken

theorem middleware_allowed {req : AuthRequest} {authorization : String}
    {next : UUID → AuthProc AuthReply}
    (h : ∀ u, Allowed req (next u)) : Allowed req (middleware lib authorization next) := by
  unfold middleware
  cases bearerToken authorization with
  | none => cases req <;> exact trivial
  | some token =>
    refine (validateToken_within req).bind fun claims => ?_
    cases claims with
    | none => cases req <;> exact trivial
    | some claims =>
      dsimp only
      cases lib.parseUUID claims.subject with
      | none => cases req <;> exact trivial
      | some userID => exact h userID

theorem signup_allowed (body : Option SignupRequest) :
    Allowed (.signup body) (signup lib jwtTTL body) := by
  unfold signup
  cases body with
  | none => exact trivial
  | some req =>
    dsimp only
    cases validateUsername (trimSpace req.username) with
    | error _ => exact trivial
    | ok _ =>
      dsimp only
      cases validateEmail lib (lib.normalize req.email) with
      | error _ => exact trivial
      | ok _ =>
        dsimp only
        cases validatePassword lib.classes req.password with
        | error _ => exact trivial
        | ok _ =>
          refine .perform trivial fun hash => ?_
          cases hash with
          | none => exact trivial
          | some hash =>
            refine .perform trivial fun user => ?_
            cases user with
            | error e => cases e <;> exact trivial
            | ok user => exact writeSession_allowed (fun _ _ _ _ => trivial) fun _ _ => trivial

theorem login_allowed (body : Option LoginRequest) :
    Allowed (.login body) (login lib jwtTTL body) := by
  unfold login
  cases body with
  | none => exact trivial
  | some req =>
    dsimp only
    split_ifs
    · exact trivial
    · refine .perform trivial fun user => ?_
      cases user with
      | error e => cases e <;> exact trivial
      | ok user =>
        dsimp only
        split_ifs
        · exact trivial
        · exact writeSession_allowed (fun _ _ _ _ => trivial) fun _ _ => trivial

theorem refresh_allowed (body : Option String) :
    Allowed (.refresh body) (refresh lib jwtTTL body) := by
  unfold refresh
  cases body with
  | none => exact trivial
  | some presented =>
    dsimp only
    split_ifs
    · exact trivial
    · refine .perform trivial fun plaintext => ?_
      cases plaintext with
      | none => exact trivial
      | some plaintext =>
        refine .perform trivial fun now => .perform trivial fun rotated => ?_
        cases rotated with
        | error e => cases e <;> exact trivial
        | ok rotated =>
          refine .perform trivial fun user => ?_
          cases user with
          | error _ => exact trivial
          | ok user =>
            refine (generateToken_within _).bind fun token => ?_
            cases token <;> exact trivial

theorem logout_allowed (authorization : String) (body : Option String) :
    Allowed (.logout authorization body) (logoutHandler lib authorization body) := by
  refine middleware_allowed fun callerID => ?_
  cases body with
  | none => exact trivial
  | some presented =>
    dsimp only
    split_ifs
    · exact trivial
    · refine .perform trivial fun rt => ?_
      cases rt with
      | error e => cases e <;> exact trivial
      | ok rt =>
        dsimp only
        split_ifs
        · exact trivial
        · refine .perform trivial fun revoked => ?_
          cases revoked <;> exact trivial

theorem serverHandler_allowed (token : String) :
    Allowed (.connect token) (serverHandler lib token) := by
  unfold serverHandler
  split_ifs
  · exact trivial
  · refine (validateToken_within _).bind fun claims => ?_
    cases claims with
    | none => exact trivial
    | some claims =>
      dsimp only
      cases lib.parseUUID claims.subject with
      | none => exact trivial
      | some userID =>
        refine .perform trivial fun user => ?_
        cases user with
        | error e => cases e <;> exact trivial
        | ok user =>
          refine .perform trivial fun upgraded => ?_
          cases upgraded <;> exact trivial

theorem handler_allowed (req : AuthRequest) : Allowed req (req.handler lib jwtTTL) := by
  cases req with
  | signup body =>
    show Allowed _ (signup lib jwtTTL body)
    exact signup_allowed body
  | login body => exact login_allowed body
  | refresh body => exact refresh_allowed body
  | logout authorization body => exact logout_allowed authorization body
  | bearer authorization => exact middleware_allowed fun _ => trivial
  | connect token => exact serverHandler_allowed token

/-! ## What a reply rests on, for all requests -/

/-- Only a signup, a login and a refresh hand out tokens. -/
theorem handler_session {req : AuthRequest}
    (h : (req.handler lib jwtTTL).Follows calls (.ret (.session status token refreshToken user))) :
    Signed lib jwtTTL calls token user.id ∧ Grounds lib calls refreshToken user req := by
  have hreply : req.MayReply (.session status token refreshToken user) :=
    (handler_allowed req).result h
  cases req with
  | signup body => exact signup_session h
  | login body => exact login_session h
  | refresh body => exact refresh_session h
  | logout authorization body => exact hreply.elim
  | bearer authorization => exact hreply.elim
  | connect token => exact hreply.elim

/-- The middleware reads the time, and rejects the request or goes on with the handler behind it. -/
theorem middleware_cases {authorization : String} {next : UUID → AuthProc AuthReply}
    {q : AuthProc AuthReply} {c : AuthCall}
    (h : (middleware lib authorization next).Follows (c :: calls) q) :
    (∃ now : Time, c = ⟨.now, now⟩) ∧
      (calls = [] ∧ (∃ code message, q = .ret (.error 401 code message)) ∨
        ∃ token u, bearerToken authorization = some token ∧ ValidFor lib [c] token u ∧
          (next u).Follows calls q) := by
  unfold middleware at h
  cases hb : bearerToken authorization with
  | none =>
    rw [hb] at h
    cases h
  | some token =>
    rw [hb] at h
    change (Proc.perform AuthOp.now >>= fun now => match lib.parseToken now token with
      | none => pure (.unauthorized "invalid or expired token")
      | some claims =>
        match lib.parseUUID claims.subject with
        | none => pure (.unauthorized "invalid or expired token")
        | some userID => next userID : AuthProc AuthReply).Follows (c :: calls) q at h
    obtain ⟨now, rfl, h₁⟩ := Proc.follows_perform_cons.mp h
    refine ⟨⟨now, rfl⟩, ?_⟩
    split at h₁
    · cases h₁
      exact .inl ⟨rfl, _, _, rfl⟩
    · rename_i claims hclaims
      split at h₁
      · cases h₁
        exact .inl ⟨rfl, _, _, rfl⟩
      · rename_i userID huser
        exact .inr ⟨token, userID, rfl, ⟨now, claims, by simp, hclaims, huser⟩, h₁⟩

/-- A Bearer-protected handler is entered with a valid token. -/
theorem handler_entered {req : AuthRequest}
    (h : (req.handler lib jwtTTL).Follows calls (.ret (.entered u))) :
    ∃ authorization token, req = .bearer authorization ∧ bearerToken authorization = some token ∧
      ValidFor lib calls token u := by
  have hreply : req.MayReply (.entered u) := (handler_allowed req).result h
  cases req with
  | bearer authorization =>
    cases calls with
    | nil =>
      change (middleware lib authorization _).Follows _ _ at h
      unfold middleware at h
      split at h <;> cases h
    | cons c calls =>
      obtain ⟨-, ⟨-, code, message, hq⟩ | ⟨token, v, hb, ⟨now, claims, hnow, hparse, hv⟩, h₁⟩⟩ :=
        middleware_cases h
      · cases hq
      · obtain ⟨rfl, hvu⟩ := Proc.follows_pure.mp h₁
        cases hvu
        exact ⟨authorization, token, rfl, hb, now, claims, hnow, hparse, hv⟩
  | signup body => exact hreply.elim
  | login body => exact hreply.elim
  | refresh body => exact hreply.elim
  | logout authorization body => exact hreply.elim
  | connect token => exact hreply.elim

/-- A WebSocket client is made for a valid token and an account that exists. -/
theorem handler_connected {req : AuthRequest} {username : String}
    (h : (req.handler lib jwtTTL).Follows calls (.ret (.connected u username))) :
    ∃ token user, req = .connect token ∧ ValidFor lib calls token u ∧
      ⟨.getUserByID u, .ok user⟩ ∈ calls ∧ user.username = username := by
  have hreply : req.MayReply (.connected u username) := (handler_allowed req).result h
  cases req with
  | connect token =>
    change (serverHandler lib token).Follows calls _ at h
    unfold serverHandler at h
    split_ifs at h
    · cases (Proc.follows_pure.mp h).2
    obtain ⟨before, after, claims, rfl, hvalid, h₁⟩ := Proc.follows_bind.mp h
    obtain ⟨now, rest, rfl, hnow⟩ := Proc.follows_perform.mp hvalid
    obtain ⟨rfl, hclaims⟩ := Proc.follows_pure.mp hnow
    split at h₁
    · cases (Proc.follows_pure.mp h₁).2
    rename_i claims
    split at h₁
    · cases (Proc.follows_pure.mp h₁).2
    rename_i userID huser
    obtain ⟨r, rest, rfl, h₂⟩ := Proc.follows_perform.mp h₁
    cases r with
    | error e => cases e <;> cases (Proc.follows_pure.mp h₂).2
    | ok user =>
      obtain ⟨upgraded, rest, rfl, h₃⟩ := Proc.follows_perform.mp h₂
      cases upgraded with
      | false => cases (Proc.follows_pure.mp h₃).2
      | true =>
        cases (Proc.follows_pure.mp h₃).2
        exact ⟨token, user, rfl, ⟨now, claims, by simp, hclaims, huser⟩, by simp, rfl⟩
  | signup body => exact hreply.elim
  | login body => exact hreply.elim
  | refresh body => exact hreply.elim
  | logout authorization body => exact hreply.elim
  | bearer authorization => exact hreply.elim

/-- How far a signup has come, whose first call is `c`. -/
theorem signup_calls {body : Option SignupRequest} {q : AuthProc AuthReply} {c : AuthCall}
    (h : (signup lib jwtTTL body).Follows (c :: calls) q) :
    ∃ req, body = some req ∧ validateUsername (trimSpace req.username) = .ok () ∧
      validateEmail lib (lib.normalize req.email) = .ok () ∧
      validatePassword lib.classes req.password = .ok () ∧
      ∃ hashed, c = ⟨.hashPassword req.password, hashed⟩ ∧
        (calls = [] ∨ ∃ hash created rest, hashed = some hash ∧
          calls = ⟨.createUser (trimSpace req.username) (lib.normalize req.email) hash, created⟩ ::
            rest ∧
          (rest = [] ∨ ∃ user, created = .ok user ∧
            (writeSession lib jwtTTL 201 user).Follows rest q)) := by
  unfold signup at h
  split at h
  · cases h
  rename_i req
  dsimp only at h
  split at h
  · cases h
  rename_i husername
  split at h
  · cases h
  rename_i hemail
  split at h
  · cases h
  rename_i hpassword
  obtain ⟨hashed, rfl, h₁⟩ := Proc.follows_perform_cons.mp h
  refine ⟨req, rfl, husername, hemail, hpassword, hashed, rfl, ?_⟩
  clear h
  cases calls with
  | nil => exact .inl rfl
  | cons c calls =>
    cases hashed with
    | none => cases h₁
    | some hash =>
      obtain ⟨created, rfl, h₂⟩ := Proc.follows_perform_cons.mp h₁
      refine .inr ⟨hash, created, calls, rfl, rfl, ?_⟩
      clear h₁
      cases created with
      | error e =>
        left
        cases e <;> cases h₂ <;> rfl
      | ok user => exact .inr ⟨user, rfl, h₂⟩

/-- The signup behind an account has passed the checks and has hashed its password. -/
theorem handler_created {req : AuthRequest} {q : AuthProc AuthReply} {username email hash : String}
    {r : Except CreateUserErr Account} (h : (req.handler lib jwtTTL).Follows calls q)
    (hcall : ⟨.createUser username email hash, r⟩ ∈ calls) :
    ∃ body, req = .signup (some body) ∧ username = trimSpace body.username ∧
      email = lib.normalize body.email ∧ validateUsername username = .ok () ∧
      validateEmail lib email = .ok () ∧ validatePassword lib.classes body.password = .ok () ∧
      ⟨.hashPassword body.password, some hash⟩ ∈ calls := by
  have hcalls : req.MayCall (.createUser username email hash) :=
    (handler_allowed req).calls h _ hcall
  cases req with
  | signup body =>
    change (signup lib jwtTTL body).Follows calls q at h
    cases calls with
    | nil => cases hcall
    | cons c calls =>
      obtain ⟨req, rfl, husername, hemail, hpassword, hashed, rfl,
          rfl | ⟨hash', created, rest, rfl, rfl, h₁⟩⟩ :=
        signup_calls h
      · simp at hcall
      have hnext := (List.mem_cons.mp hcall).resolve_left (by simp)
      rcases List.mem_cons.mp hnext with heq | hlater
      · cases heq
        exact ⟨req, rfl, rfl, rfl, husername, hemail, hpassword, by simp⟩
      · -- no second account is created behind the first one
        rcases h₁ with rfl | ⟨user, -, h₁⟩
        · cases hlater
        · have hrest : Allowed (.login none) (writeSession lib jwtTTL 201 user) :=
            writeSession_allowed (fun _ _ _ _ => trivial) fun _ _ => trivial
          exact (hrest.calls h₁ _ hlater).elim
  | login body => exact hcalls.elim
  | refresh body => exact hcalls.elim
  | logout authorization body => exact hcalls.elim
  | bearer authorization => exact hcalls.elim
  | connect token => exact hcalls.elim

/-- `writeSession` creates refresh tokens of its user only. -/
theorem writeSession_issues : (writeSession lib jwtTTL status user).Within
    (fun o => ∀ u familyID hash expiresAt, o = .createRefreshToken u familyID hash expiresAt →
      u = user.id)
    fun _ => True := by
  have htoken : (generateToken lib jwtTTL user.id).Within
      (fun o => ∀ u familyID hash expiresAt, o = .createRefreshToken u familyID hash expiresAt →
        u = user.id) fun _ => True :=
    .perform (by simp) fun _ => trivial
  refine htoken.bind fun token => ?_
  cases token with
  | none => exact trivial
  | some token =>
    refine .perform (by simp) fun fam => ?_
    have hissue : (issueRefreshToken lib user.id fam).Within
        (fun o => ∀ u familyID hash expiresAt, o = .createRefreshToken u familyID hash expiresAt →
          u = user.id) fun _ => True := by
      refine .perform (by simp) fun plaintext => ?_
      cases plaintext with
      | none => exact trivial
      | some plaintext =>
        refine .perform (by simp) fun now => .perform ?_ fun rt => ?_
        · intro u familyID hash expiresAt h
          cases h
          rfl
        · cases rt <;> exact trivial
    refine hissue.bind fun refreshToken => ?_
    cases refreshToken <;> exact trivial

/-- A family begins with a signup of its user, or with a login by the right password. -/
theorem handler_issued {req : AuthRequest} {q : AuthProc AuthReply} {hash : String}
    {expiresAt : Time}
    {r : Except StoreErr RefreshToken} (h : (req.handler lib jwtTTL).Follows calls q)
    (hcall : ⟨.createRefreshToken u familyID hash expiresAt, r⟩ ∈ calls) :
    (∃ body passwordHash user, req = .signup (some body) ∧
      ⟨.hashPassword body.password, some passwordHash⟩ ∈ calls ∧
      ⟨.createUser (trimSpace body.username) (lib.normalize body.email) passwordHash, .ok user⟩ ∈
        calls ∧
      user.id = u) ∨
    ∃ body user, req = .login (some body) ∧
      ⟨.getUserByEmail (lib.normalize body.email), .ok user⟩ ∈ calls ∧
      lib.comparePassword user.passwordHash body.password = true ∧ user.id = u := by
  have hcalls : req.MayCall (.createRefreshToken u familyID hash expiresAt) :=
    (handler_allowed req).calls h _ hcall
  cases req with
  | signup body =>
    change (signup lib jwtTTL body).Follows calls q at h
    cases calls with
    | nil => cases hcall
    | cons c calls =>
      obtain ⟨req, rfl, -, -, -, hashed, rfl, rfl | ⟨passwordHash, created, rest, rfl, rfl, h₁⟩⟩ :=
        signup_calls h
      · simp at hcall
      have hnext := (List.mem_cons.mp hcall).resolve_left (by simp)
      have hlater := (List.mem_cons.mp hnext).resolve_left (by simp)
      rcases h₁ with rfl | ⟨user, rfl, h₁⟩
      · cases hlater
      · have hu := writeSession_issues.calls h₁ _ hlater _ _ _ _ rfl
        exact .inl ⟨req, passwordHash, user, rfl, by simp, by simp, hu.symm⟩
  | login body =>
    change (login lib jwtTTL body).Follows calls q at h
    cases calls with
    | nil => cases hcall
    | cons c calls =>
      unfold login at h
      split at h
      · cases h
      rename_i req
      dsimp only at h
      split at h
      · cases h
      obtain ⟨found, rfl, h₁⟩ := Proc.follows_perform_cons.mp h
      have hlater := (List.mem_cons.mp hcall).resolve_left (by simp)
      clear h hcall
      cases found with
      | error e => cases e <;> cases h₁ <;> cases hlater
      | ok user =>
        dsimp only at h₁
        split at h₁
        · cases h₁
          cases hlater
        rename_i hpassword
        have hu := writeSession_issues.calls h₁ _ hlater _ _ _ _ rfl
        exact .inr ⟨req, user, rfl, by simp, by simpa using hpassword, hu.symm⟩
  | refresh body => exact hcalls.elim
  | logout authorization body => exact hcalls.elim
  | bearer authorization => exact hcalls.elim
  | connect token => exact hcalls.elim

/-- A family is revoked by the logout of the user whose token is presented. -/
theorem handler_revoked {req : AuthRequest} {q : AuthProc AuthReply} {r : Except StoreErr Unit}
    (h : (req.handler lib jwtTTL).Follows calls q)
    (hcall : ⟨.revokeRefreshTokenFamily familyID, r⟩ ∈ calls) :
    ∃ authorization presented token rt, req = .logout authorization (some presented) ∧
      bearerToken authorization = some token ∧ ValidFor lib calls token rt.userID ∧
      ⟨.getRefreshTokenByHash (lib.hashRefreshToken presented), .ok rt⟩ ∈ calls ∧
      rt.familyID = familyID := by
  have hcalls : req.MayCall (.revokeRefreshTokenFamily familyID) :=
    (handler_allowed req).calls h _ hcall
  cases req with
  | logout authorization body =>
    change (logoutHandler lib authorization body).Follows calls q at h
    cases calls with
    | nil => cases hcall
    | cons c calls =>
      obtain ⟨⟨now, rfl⟩, ⟨rfl, -⟩ | ⟨token, u, hb, ⟨t, claims, ht, hparse, hu⟩, h₁⟩⟩ :=
        middleware_cases h
      · simp at hcall
      have hnext := (List.mem_cons.mp hcall).resolve_left (by simp)
      cases calls with
      | nil => cases hnext
      | cons c calls =>
        split at h₁
        · cases h₁
        rename_i presented
        split at h₁
        · cases h₁
        obtain ⟨found, rfl, h₂⟩ := Proc.follows_perform_cons.mp h₁
        have hlast := (List.mem_cons.mp hnext).resolve_left (by simp)
        clear h h₁ hcall hnext
        cases calls with
        | nil => cases hlast
        | cons c calls =>
          cases found with
          | error e => cases e <;> cases h₂
          | ok rt =>
            dsimp only at h₂
            split at h₂
            · cases h₂
            rename_i huser
            obtain ⟨revoked, rfl, h₃⟩ := Proc.follows_perform_cons.mp h₂
            clear h₂
            rcases List.mem_cons.mp hlast with heq | hlater
            · cases heq
              have hu' : u = rt.userID := (not_not.mp huser).symm
              subst hu'
              exact ⟨authorization, presented, token, rt, rfl, hb,
                ⟨t, claims, List.mem_cons.mpr (.inl (List.mem_singleton.mp ht)), hparse, hu⟩,
                  by simp, rfl⟩
            · cases revoked <;> cases h₃ <;> cases hlater
  | signup body => exact hcalls.elim
  | login body => exact hcalls.elim
  | refresh body => exact hcalls.elim
  | bearer authorization => exact hcalls.elim
  | connect token => exact hcalls.elim

end ConvoyChat.Handlers
