import ConvoyChat.Lib.Rows
import ConvoyChat.Models

/-!
# The refresh-token table

Models of `internal/store/refresh_tokens.go` and of the token part of
`internal/handlers/auth.go`. The table is a list of rows; `id` is its primary
key and `token_hash` is `UNIQUE` (`migrations/005_add_refresh_tokens.up.sql`),
so an insert that repeats either fails and its transaction rolls back.

`NOW()` is the argument `now`, the Go clock `time.Now()` is `clock`, and the
values of `uuid.New()` and `auth.GenerateRefreshToken` are arguments too.
-/

namespace ConvoyChat.Store

open ConvoyChat.Lib

/-- A row of `refresh_tokens` (`internal/models/refresh_token.go`). -/
structure RefreshToken where
  id : UUID
  userID : UUID
  tokenHash : String
  familyID : UUID
  createdAt : Time
  expiresAt : Time
  revokedAt : Option Time
deriving DecidableEq, Repr

abbrev RefreshTokens := List RefreshToken

/-- `INSERT INTO refresh_tokens …`, refused when the primary key or the
    `UNIQUE` hash is taken. -/
def insertRefreshToken (row : RefreshToken) (t : RefreshTokens) : Except StoreErr RefreshTokens :=
  if t.any fun x => x.id = row.id || x.tokenHash = row.tokenHash then .error .internal
  else .ok (t ++ [row])

/-- Model of `CreateRefreshToken` (`refresh_tokens.go` lines 29–50). -/
def createRefreshToken (now : Time) (id userID familyID : UUID) (tokenHash : String)
    (expiresAt : Time) (t : RefreshTokens) : Except StoreErr RefreshToken × RefreshTokens :=
  let rt : RefreshToken := ⟨id, userID, tokenHash, familyID, now, expiresAt, none⟩
  match insertRefreshToken rt t with
  | .error e => (.error e, t)
  | .ok t' => (.ok rt, t')

/-- `SELECT … FROM refresh_tokens WHERE token_hash = $1`, as used by
    `GetRefreshTokenByHash` (lines 121–124) and, with `FOR UPDATE`, by
    `RotateRefreshToken`. -/
def getRefreshTokenByHash (tokenHash : String) (t : RefreshTokens) :
    Except StoreErr RefreshToken :=
  match t.find? fun x => x.tokenHash = tokenHash with
  | some rt => .ok rt
  | none => .error .notFound

/-- Model of `RevokeRefreshTokenFamily` (lines 129–135). -/
def revokeRefreshTokenFamily (now : Time) (familyID : UUID) (t : RefreshTokens) : RefreshTokens :=
  updateWhere (fun x => x.familyID = familyID && x.revokedAt.isNone)
    (fun x => { x with revokedAt := some now }) t

/-- Model of `RotateRefreshToken` (lines 65–117), run as one transaction: an
    error other than the reuse branch rolls back. -/
def rotateRefreshToken (now clock : Time) (newID : UUID) (oldHash newHash : String)
    (newExpiresAt : Time) (t : RefreshTokens) : Except StoreErr RefreshToken × RefreshTokens :=
  match getRefreshTokenByHash oldHash t with
  | .error e => (.error e, t)
  | .ok old =>
    if old.revokedAt.isSome then
      -- the reuse branch commits the family revocation before it returns
      (.error .refreshTokenReused, revokeRefreshTokenFamily now old.familyID t)
    else if old.expiresAt < clock then (.error .tokenExpired, t)
    else
      let t₁ := updateWhere (fun x => x.id = old.id) (fun x => { x with revokedAt := some now }) t
      let next : RefreshToken :=
        ⟨newID, old.userID, newHash, old.familyID, now, newExpiresAt, none⟩
      match insertRefreshToken next t₁ with
      | .error e => (.error e, t)
      | .ok t₂ => (.ok next, t₂)

/-- The body of `Logout` after the JSON decoding (`internal/handlers/auth.go`
    lines 282–309) on the presented plaintext; `hash` is
    `auth.HashRefreshToken`. Every path answers 200 `logged_out`. -/
def logout (hash : String → String) (now : Time) (callerID : UUID) (presented : String)
    (t : RefreshTokens) : RefreshTokens :=
  if presented = "" then t
  else
    match getRefreshTokenByHash (hash presented) t with
    | .error _ => t
    | .ok rt =>
      if rt.userID ≠ callerID then t else revokeRefreshTokenFamily now rt.familyID t

/-! ## What each operation does to the table -/

theorem insertRefreshToken_ok {row : RefreshToken} {t t' : RefreshTokens}
    (h : insertRefreshToken row t = .ok t') :
    t' = t ++ [row] ∧ (∀ x ∈ t, x.id ≠ row.id) ∧ ∀ x ∈ t, x.tokenHash ≠ row.tokenHash := by
  unfold insertRefreshToken at h
  split_ifs at h with hdup
  cases h
  simp only [List.any_eq_true, Bool.or_eq_true, decide_eq_true_eq, not_exists, not_and,
    not_or] at hdup
  exact ⟨rfl, fun x hx => (hdup x hx).1, fun x hx => (hdup x hx).2⟩

theorem getRefreshTokenByHash_ok {h : String} {t : RefreshTokens} {rt : RefreshToken}
    (hg : getRefreshTokenByHash h t = .ok rt) : rt ∈ t ∧ rt.tokenHash = h := by
  unfold getRefreshTokenByHash at hg
  split at hg
  · rename_i x hx
    cases hg
    exact ⟨List.mem_of_find?_eq_some hx, by simpa using List.find?_some hx⟩
  · cases hg

theorem getRefreshTokenByHash_ne_error {h : String} {t : RefreshTokens} {x : RefreshToken}
    (hx : x ∈ t) (hh : x.tokenHash = h) (e : StoreErr) : getRefreshTokenByHash h t ≠ .error e := by
  unfold getRefreshTokenByHash
  split
  · simp
  · rename_i hnone
    have := List.find?_eq_none.mp hnone x hx
    simp [hh] at this

/-- The four outcomes of `RotateRefreshToken` that the doc comment lists (lines
    52–64), and the unique violation on insert, with the table each leaves. -/
theorem rotateRefreshToken_cases (now clock : Time) (newID : UUID) (oldHash newHash : String)
    (newExpiresAt : Time) (t : RefreshTokens) :
    let out := rotateRefreshToken now clock newID oldHash newHash newExpiresAt t
    ((∃ e, out.1 = .error e ∧ e ≠ .refreshTokenReused) ∧ out.2 = t) ∨
    (∃ old ∈ t, old.tokenHash = oldHash ∧ old.revokedAt.isSome = true ∧
      getRefreshTokenByHash oldHash t = .ok old ∧ out.1 = .error .refreshTokenReused ∧
      out.2 = revokeRefreshTokenFamily now old.familyID t) ∨
    (∃ old ∈ t, old.tokenHash = oldHash ∧ old.revokedAt = none ∧ clock ≤ old.expiresAt ∧
      (∀ x ∈ t, x.tokenHash ≠ newHash) ∧
      getRefreshTokenByHash oldHash t = .ok old ∧
      out.1 = .ok ⟨newID, old.userID, newHash, old.familyID, now, newExpiresAt, none⟩ ∧
      out.2 = updateWhere (fun x => x.id = old.id) (fun x => { x with revokedAt := some now }) t ++
        [⟨newID, old.userID, newHash, old.familyID, now, newExpiresAt, none⟩]) := by
  intro out
  have hout : out = rotateRefreshToken now clock newID oldHash newHash newExpiresAt t := rfl
  rw [rotateRefreshToken] at hout
  cases hg : getRefreshTokenByHash oldHash t with
  | error e =>
    rw [hg] at hout
    refine .inl ⟨⟨e, by rw [hout], ?_⟩, by rw [hout]⟩
    rintro rfl
    unfold getRefreshTokenByHash at hg
    split at hg <;> cases hg
  | ok old =>
    obtain ⟨hmem, hhash⟩ := getRefreshTokenByHash_ok hg
    rw [hg] at hout
    simp only at hout
    split_ifs at hout with hrev hexp
    · exact .inr (.inl ⟨old, hmem, hhash, hrev, rfl, by rw [hout], by rw [hout]⟩)
    · exact .inl ⟨⟨.tokenExpired, by rw [hout], by simp⟩, by rw [hout]⟩
    · cases hins : insertRefreshToken
        ⟨newID, old.userID, newHash, old.familyID, now, newExpiresAt, none⟩
        (updateWhere (fun x => x.id = old.id) (fun x => { x with revokedAt := some now }) t) with
      | error e =>
        rw [hins] at hout
        refine .inl ⟨⟨e, by rw [hout], ?_⟩, by rw [hout]⟩
        rintro rfl
        unfold insertRefreshToken at hins
        split_ifs at hins
        cases hins
      | ok t₂ =>
        rw [hins] at hout
        obtain ⟨rfl, -, hfresh⟩ := insertRefreshToken_ok hins
        refine .inr (.inr ⟨old, hmem, hhash, by simpa using hrev, Nat.le_of_not_lt hexp, ?_, rfl,
          by rw [hout], by rw [hout]⟩)
        intro x hx
        have hcol := map_updateWhere (p := fun x => decide (x.id = old.id))
          (f := fun x : RefreshToken => { x with revokedAt := some now }) (g := (·.tokenHash))
          (fun _ => rfl) t
        have hx' : x.tokenHash ∈ t.map (·.tokenHash) := List.mem_map_of_mem hx
        rw [← hcol] at hx'
        obtain ⟨y, hy, hxy⟩ := List.mem_map.mp hx'
        rw [← hxy]
        exact hfresh y hy

end ConvoyChat.Store
