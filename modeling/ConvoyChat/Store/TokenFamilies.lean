import Mathlib.Data.List.Nodup
import ConvoyChat.Lib.Runs
import ConvoyChat.Store.RefreshTokens

/-!
# Rotation families under serial requests

Runs of the refresh-token table through sign-ups and logins (a new token in a
new family), rotations of any presented hash under any clock, and logouts by any
caller with any presented token, executed one after another.

* `tokenStep_cases`: a step only revokes rows and appends at most one row, and
  the appended row either starts a family or continues the family of a live
  token that the same step revokes.
* `FamilyInv`: hashes are distinct, a family has at most one unrevoked token and
  one owner.
* `tokenFamilies_serial`: the five guarantees of the rotation design, in every
  reachable table.
-/

namespace ConvoyChat.Store

open ConvoyChat.Lib

/-- A request that touches `refresh_tokens`. -/
inductive TokenRequest
  /-- `Signup` or `Login` through `issueRefreshToken` (`auth.go` lines 84–93). -/
  | issue (now : Time) (id userID familyID : UUID) (tokenHash : String) (expiresAt : Time)
  /-- `Refresh` calling `RotateRefreshToken`. -/
  | rotate (now clock : Time) (newID : UUID) (oldHash newHash : String) (newExpiresAt : Time)
  | logout (now : Time) (callerID : UUID) (presented : String)
deriving DecidableEq, Repr

section

variable (hash : String → String)

/-- One complete request; `hash` is `auth.HashRefreshToken`. -/
def tokenStep (t : RefreshTokens) : TokenRequest → Option RefreshTokens
  | .issue now id userID familyID tokenHash expiresAt =>
    some (createRefreshToken now id userID familyID tokenHash expiresAt t).2
  | .rotate now clock newID oldHash newHash newExpiresAt =>
    some (rotateRefreshToken now clock newID oldHash newHash newExpiresAt t).2
  | .logout now callerID presented => some (logout hash now callerID presented t)

end

/-- The family id of a sign-up or login is a fresh `uuid.New()`. The hashes need
    no such condition: a repeated one is refused by the `UNIQUE` column. -/
def FreshFamily (t : RefreshTokens) : TokenRequest → Prop
  | .issue _ _ _ familyID _ _ => ∀ x ∈ t, x.familyID ≠ familyID
  | .rotate .. => True
  | .logout .. => True

/-- `SET revoked_at = NOW()`. -/
def revoke (now : Time) (x : RefreshToken) : RefreshToken := { x with revokedAt := some now }

/-- A row that an `INSERT` may add to `t` while the rows `p` are revoked: its
    hash is new and it is unrevoked, and either its family is new or it continues
    the family of an unrevoked row among `p`. -/
def Continues (t : RefreshTokens) (p : RefreshToken → Bool) (row : RefreshToken) : Prop :=
  (∀ x ∈ t, x.tokenHash ≠ row.tokenHash) ∧ row.revokedAt = none ∧
    ((∀ x ∈ t, x.familyID ≠ row.familyID) ∨
      ∃ old ∈ t, old.revokedAt = none ∧ p old = true ∧ old.familyID = row.familyID ∧
        old.userID = row.userID)

theorem updateWhere_false (now : Time) (t : RefreshTokens) :
    updateWhere (fun _ => false) (revoke now) t = t := by
  simp [updateWhere]

/-- Everything a request can do to the table. -/
theorem tokenStep_cases {hash : String → String} {t t' : RefreshTokens} {a : TokenRequest}
    (hfresh : FreshFamily t a) (h : tokenStep hash t a = some t') :
    ∃ (p : RefreshToken → Bool) (now : Time) (new : List RefreshToken),
      t' = updateWhere p (revoke now) t ++ new ∧
      (new = [] ∨ ∃ row, new = [row] ∧ Continues t p row) := by
  have hnone : ∀ now, t = updateWhere (fun _ => false) (revoke now) t ++ [] := fun now => by
    rw [updateWhere_false, List.append_nil]
  cases a with
  | issue now id userID familyID tokenHash expiresAt =>
    simp only [tokenStep, createRefreshToken, Option.some.injEq] at h
    cases hins : insertRefreshToken ⟨id, userID, tokenHash, familyID, now, expiresAt, none⟩ t with
    | error e =>
      rw [hins] at h
      subst h
      exact ⟨fun _ => false, now, [], hnone now, .inl rfl⟩
    | ok t₂ =>
      rw [hins] at h
      subst h
      obtain ⟨rfl, -, hh⟩ := insertRefreshToken_ok hins
      refine ⟨fun _ => false, now, _, by rw [updateWhere_false], .inr ⟨_, rfl, ?_⟩⟩
      exact ⟨hh, rfl, .inl hfresh⟩
  | rotate now clock newID oldHash newHash newExpiresAt =>
    simp only [tokenStep, Option.some.injEq] at h
    rcases rotateRefreshToken_cases now clock newID oldHash newHash newExpiresAt t with
      ⟨-, hout⟩ | ⟨old, -, -, -, -, -, hout⟩ | ⟨old, hmem, -, hlive, -, hnew, -, -, hout⟩
    · rw [hout] at h
      subst h
      exact ⟨fun _ => false, now, [], hnone now, .inl rfl⟩
    · rw [hout] at h
      subst h
      exact ⟨_, now, [], (List.append_nil _).symm, .inl rfl⟩
    · rw [hout] at h
      subst h
      refine ⟨_, now, _, rfl, .inr ⟨_, rfl, hnew, rfl, .inr ⟨old, hmem, hlive, ?_, rfl, rfl⟩⟩⟩
      simp
  | logout now callerID presented =>
    simp only [tokenStep, logout, Option.some.injEq] at h
    split_ifs at h with hempty
    · subst h
      exact ⟨fun _ => false, now, [], hnone now, .inl rfl⟩
    · cases hg : getRefreshTokenByHash (hash presented) t with
      | error e =>
        rw [hg] at h
        subst h
        exact ⟨fun _ => false, now, [], hnone now, .inl rfl⟩
      | ok rt =>
        rw [hg] at h
        simp only at h
        split_ifs at h with howner
        · subst h
          exact ⟨fun _ => false, now, [], hnone now, .inl rfl⟩
        · subst h
          exact ⟨_, now, [], (List.append_nil _).symm, .inl rfl⟩

/-- A row of the next table is an old row, possibly revoked meanwhile, or the
    row the step inserted. -/
theorem tokenStep_mem {hash : String → String} {t t' : RefreshTokens} {a : TokenRequest}
    (hfresh : FreshFamily t a) (h : tokenStep hash t a = some t') {x' : RefreshToken}
    (hx' : x' ∈ t') :
    (∃ x ∈ t, x' = x ∨ ∃ now, x' = revoke now x) ∨ ∃ p, Continues t p x' := by
  obtain ⟨p, now, new, rfl, hnew⟩ := tokenStep_cases hfresh h
  rcases List.mem_append.mp hx' with hx' | hx'
  · obtain ⟨x, hx, rfl⟩ := mem_updateWhere.mp hx'
    refine .inl ⟨x, hx, ?_⟩
    by_cases hp : p x = true
    · exact .inr ⟨now, by simp [hp]⟩
    · exact .inl (by simp [hp])
  · rcases hnew with rfl | ⟨row, rfl, hrow⟩
    · simp at hx'
    · rw [List.mem_singleton.mp hx']
      exact .inr ⟨p, hrow⟩

/-- Rows are never deleted: a row keeps its hash, family and owner. -/
theorem tokenStep_keeps {hash : String → String} {t t' : RefreshTokens} {a : TokenRequest}
    (hfresh : FreshFamily t a) (h : tokenStep hash t a = some t') {x : RefreshToken} (hx : x ∈ t) :
    ∃ x' ∈ t', x'.tokenHash = x.tokenHash ∧ x'.familyID = x.familyID := by
  obtain ⟨p, now, new, rfl, -⟩ := tokenStep_cases hfresh h
  refine ⟨_, List.mem_append_left _ (mem_updateWhere.mpr ⟨x, hx, rfl⟩), ?_⟩
  split_ifs <;> exact ⟨rfl, rfl⟩

/-! ## The invariant -/

/-- `x` is an unrevoked token of family `f`. -/
def liveIn (f : UUID) (x : RefreshToken) : Bool := x.familyID = f && x.revokedAt.isNone

structure FamilyInv (t : RefreshTokens) : Prop where
  hash_nodup : (t.map (·.tokenHash)).Nodup
  live_le_one : ∀ f, t.countP (liveIn f) ≤ 1
  one_owner : ∀ x ∈ t, ∀ y ∈ t, x.familyID = y.familyID → x.userID = y.userID

theorem familyInv_nil : FamilyInv [] :=
  ⟨List.nodup_nil, by simp, by simp⟩

theorem countP_liveIn_revoke (f : UUID) (p : RefreshToken → Bool) (now : Time) (t : RefreshTokens) :
    (updateWhere p (revoke now) t).countP (liveIn f) = t.countP fun x => liveIn f x && !p x :=
  countP_updateWhere (fun x _ => by simp [liveIn, revoke]) t

theorem countP_liveIn_append_le {t : RefreshTokens} {p : RefreshToken → Bool} {now : Time}
    {row : RefreshToken} (hle : ∀ f, t.countP (liveIn f) ≤ 1) (hrow : Continues t p row)
    (f : UUID) :
    (updateWhere p (revoke now) t ++ [row]).countP (liveIn f) ≤ 1 := by
  rw [List.countP_append, countP_liveIn_revoke]
  have hsplit := countP_split p (liveIn f) t
  have := hle f
  by_cases hf : row.familyID = f
  · have hzero : (t.countP fun x => liveIn f x && !p x) = 0 := by
      obtain ⟨-, -, hnew | ⟨old, hold, hlive, hp, hfam, -⟩⟩ := hrow
      · refine List.countP_eq_zero.mpr fun x hx => ?_
        simp [liveIn, hf ▸ hnew x hx]
      · -- the live token that is rotated out is among the revoked rows
        have hpos : 0 < t.countP fun x => liveIn f x && p x :=
          List.countP_pos_iff.mpr ⟨old, hold, by simp [liveIn, hfam.trans hf, hlive, hp]⟩
        omega
    rw [hzero]
    simp only [List.countP_singleton]
    split_ifs <;> omega
  · have : [row].countP (liveIn f) = 0 := by simp [liveIn, hf]
    omega

/-- A row of the next table shares family and owner with an old row, unless it
    is the one inserted row and its family is new. -/
theorem tokenStep_donor {t : RefreshTokens} {p : RefreshToken → Bool} {now : Time}
    {new : List RefreshToken} (hnew : new = [] ∨ ∃ row, new = [row] ∧ Continues t p row)
    {x : RefreshToken} (hx : x ∈ updateWhere p (revoke now) t ++ new) :
    (∃ x₀ ∈ t, x₀.familyID = x.familyID ∧ x₀.userID = x.userID) ∨
      (new = [x] ∧ ∀ z ∈ t, z.familyID ≠ x.familyID) := by
  rcases List.mem_append.mp hx with hx | hx
  · obtain ⟨x₀, hx₀, rfl⟩ := mem_updateWhere.mp hx
    refine .inl ⟨x₀, hx₀, ?_⟩
    split_ifs <;> exact ⟨rfl, rfl⟩
  · rcases hnew with rfl | ⟨row, rfl, -, -, hfam⟩
    · simp at hx
    · obtain rfl := List.mem_singleton.mp hx
      rcases hfam with hfam | ⟨old, hold, -, -, h1, h2⟩
      · exact .inr ⟨rfl, hfam⟩
      · exact .inl ⟨old, hold, h1, h2⟩

theorem tokenStep_inv {hash : String → String} {t t' : RefreshTokens} {a : TokenRequest}
    (hinv : FamilyInv t) (hfresh : FreshFamily t a) (h : tokenStep hash t a = some t') :
    FamilyInv t' := by
  obtain ⟨p, now, new, rfl, hnew⟩ := tokenStep_cases hfresh h
  have hcol := map_updateWhere (p := p) (f := revoke now) (g := (·.tokenHash)) (fun _ => rfl) t
  refine ⟨?_, ?_, ?_⟩
  · rw [List.map_append, hcol]
    rcases hnew with rfl | ⟨row, rfl, hrow⟩
    · simpa using hinv.hash_nodup
    · refine List.nodup_append.mpr ⟨hinv.hash_nodup, by simp, ?_⟩
      rintro s hs s' hs' rfl
      obtain ⟨x, hx, rfl⟩ := List.mem_map.mp hs
      exact hrow.1 x hx (by simpa using hs')
  · intro f
    rcases hnew with rfl | ⟨row, rfl, hrow⟩
    · rw [List.append_nil, countP_liveIn_revoke]
      have := countP_split p (liveIn f) t
      have := hinv.live_le_one f
      omega
    · exact countP_liveIn_append_le hinv.live_le_one hrow f
  · intro x hx y hy hxy
    rcases tokenStep_donor hnew hx with ⟨x₀, hx₀, hxf, hxu⟩ | ⟨hxn, hxf⟩ <;>
      rcases tokenStep_donor hnew hy with ⟨y₀, hy₀, hyf, hyu⟩ | ⟨hyn, hyf⟩
    · rw [← hxu, ← hyu]
      exact hinv.one_owner x₀ hx₀ y₀ hy₀ (by rw [hxf, hyf, hxy])
    · exact absurd (hxf.trans hxy) (hyf x₀ hx₀)
    · exact absurd (hyf.trans hxy.symm) (hxf y₀ hy₀)
    · rw [hxn] at hyn
      cases hyn
      rfl

theorem reach_familyInv {hash : String → String} {t : RefreshTokens}
    (h : Reach (tokenStep hash) FreshFamily [] t) : FamilyInv t :=
  h.invariant FamilyInv (fun _ _ _ hinv hok hs => tokenStep_inv hinv hok hs) familyInv_nil

/-! ## Spent hashes and dead families -/

/-- The table holds rows of `P`, all of them revoked. -/
def AllRevoked (P : RefreshToken → Prop) (t : RefreshTokens) : Prop :=
  (∃ x ∈ t, P x) ∧ ∀ x ∈ t, P x → x.revokedAt.isSome = true

/-- Being dead is permanent for a family and for a hash: a new row never takes a
    hash that is in the table, and it continues only a live family. -/
theorem tokenStep_allRevoked {hash : String → String} {P : RefreshToken → Prop}
    (hP : (∃ h, P = fun x => x.tokenHash = h) ∨ ∃ f, P = fun x => x.familyID = f)
    {t t' : RefreshTokens} {a : TokenRequest} (hdead : AllRevoked P t) (hfresh : FreshFamily t a)
    (h : tokenStep hash t a = some t') : AllRevoked P t' := by
  obtain ⟨⟨x₀, hx₀, hPx₀⟩, hall⟩ := hdead
  constructor
  · obtain ⟨x', hx', hh, hf⟩ := tokenStep_keeps hfresh h hx₀
    refine ⟨x', hx', ?_⟩
    rcases hP with ⟨s, rfl⟩ | ⟨f, rfl⟩
    · exact hh.trans hPx₀
    · exact hf.trans hPx₀
  · intro x' hx' hPx'
    rcases tokenStep_mem hfresh h hx' with ⟨x, hx, rfl | ⟨now, rfl⟩⟩ | ⟨p, hnewhash, -, hfam⟩
    · exact hall _ hx hPx'
    · rfl
    · exfalso
      rcases hP with ⟨s, rfl⟩ | ⟨f, rfl⟩
      · exact hnewhash x₀ hx₀ (hPx₀.trans hPx'.symm)
      · rcases hfam with hfam | ⟨old, hold, hlive, -, hof, -⟩
        · exact hfam x₀ hx₀ (hPx₀.trans hPx'.symm)
        · have := hall old hold (hof.trans hPx')
          simp [hlive] at this

theorem reach_allRevoked {hash : String → String} {P : RefreshToken → Prop}
    (hP : (∃ h, P = fun x => x.tokenHash = h) ∨ ∃ f, P = fun x => x.familyID = f)
    {t t' : RefreshTokens} (hdead : AllRevoked P t) (h : Reach (tokenStep hash) FreshFamily t t') :
    AllRevoked P t' :=
  h.invariant (AllRevoked P) (fun _ _ _ hd hok hs => tokenStep_allRevoked hP hd hok hs) hdead

/-- `RotateRefreshToken` returns a new token for `oldHash`. -/
def RotatesOk (t : RefreshTokens) (oldHash : String) : Prop :=
  ∃ now clock newID newHash newExpiresAt rt,
    (rotateRefreshToken now clock newID oldHash newHash newExpiresAt t).1 = .ok rt

theorem RotatesOk.live {t : RefreshTokens} {h : String} (hr : RotatesOk t h) :
    ∃ x ∈ t, x.tokenHash = h ∧ x.revokedAt = none ∧ getRefreshTokenByHash h t = .ok x := by
  obtain ⟨now, clock, newID, newHash, newExpiresAt, rt, hok⟩ := hr
  rcases rotateRefreshToken_cases now clock newID h newHash newExpiresAt t with
    ⟨⟨e, he, -⟩, -⟩ | ⟨old, -, -, -, -, he, -⟩ | ⟨old, hmem, hh, hlive, -, -, hget, -⟩
  · rw [hok] at he; cases he
  · rw [hok] at he; cases he
  · exact ⟨old, hmem, hh, hlive, hget⟩

theorem eq_of_tokenHash_eq {t : RefreshTokens} (hnd : (t.map (·.tokenHash)).Nodup)
    {x y : RefreshToken} (hx : x ∈ t) (hy : y ∈ t) (hxy : x.tokenHash = y.tokenHash) : x = y :=
  List.inj_on_of_nodup_map hnd hx hy hxy

theorem not_rotatesOk_of_spent {t : RefreshTokens} {h : String}
    (hs : AllRevoked (fun x => x.tokenHash = h) t) : ¬ RotatesOk t h := by
  intro hr
  obtain ⟨x, hx, hh, hlive, -⟩ := hr.live
  have := hs.2 x hx hh
  simp [hlive] at this

theorem not_rotatesOk_of_dead {t : RefreshTokens} {f : UUID} (hinv : FamilyInv t)
    (hd : AllRevoked (fun x => x.familyID = f) t) {x : RefreshToken} (hx : x ∈ t)
    (hf : x.familyID = f) : ¬ RotatesOk t x.tokenHash := by
  intro hr
  obtain ⟨y, hy, hh, hlive, -⟩ := hr.live
  obtain rfl := eq_of_tokenHash_eq hinv.hash_nodup hy hx hh
  have := hd.2 y hy hf
  simp [hlive] at this

/-- A rotated-out token is revoked. -/
theorem spent_of_rotate_ok {t : RefreshTokens} (hinv : FamilyInv t) {now clock : Time}
    {newID : UUID} {oldHash newHash : String} {newExpiresAt : Time} {rt : RefreshToken}
    (hok : (rotateRefreshToken now clock newID oldHash newHash newExpiresAt t).1 = .ok rt) :
    AllRevoked (fun x => x.tokenHash = oldHash)
      (rotateRefreshToken now clock newID oldHash newHash newExpiresAt t).2 := by
  rcases rotateRefreshToken_cases now clock newID oldHash newHash newExpiresAt t with
    ⟨⟨e, he, -⟩, -⟩ | ⟨old, -, -, -, -, he, -⟩ | ⟨old, hmem, hh, -, -, hnew, -, -, hout⟩
  · rw [hok] at he; cases he
  · rw [hok] at he; cases he
  · rw [hout]
    constructor
    · refine ⟨revoke now old, List.mem_append_left _ (mem_updateWhere.mpr ⟨old, hmem, ?_⟩), hh⟩
      simp [revoke]
    · intro x hx hxh
      rcases List.mem_append.mp hx with hx | hx
      · obtain ⟨x₀, hx₀, rfl⟩ := mem_updateWhere.mp hx
        have hx₀h : x₀.tokenHash = oldHash := by split_ifs at hxh <;> exact hxh
        obtain rfl := eq_of_tokenHash_eq hinv.hash_nodup hx₀ hmem (hx₀h.trans hh.symm)
        simp
      · obtain rfl := List.mem_singleton.mp hx
        exact absurd (hh.trans hxh.symm) (hnew old hmem)

/-- `UPDATE … WHERE family_id = f AND revoked_at IS NULL` leaves no live token
    in the family. -/
theorem dead_of_revokeFamily {t : RefreshTokens} {now : Time} {f : UUID}
    (hf : ∃ x ∈ t, x.familyID = f) :
    AllRevoked (fun x => x.familyID = f) (revokeRefreshTokenFamily now f t) := by
  obtain ⟨x₀, hx₀, hx₀f⟩ := hf
  constructor
  · refine ⟨_, mem_updateWhere.mpr ⟨x₀, hx₀, rfl⟩, ?_⟩
    split_ifs <;> exact hx₀f
  · intro x hx hxf
    obtain ⟨y, hy, rfl⟩ := mem_updateWhere.mp hx
    by_cases hp : (y.familyID = f && y.revokedAt.isNone) = true
    · simp [hp]
    · simp only [hp, Bool.false_eq_true, if_false] at hxf ⊢
      cases hr : y.revokedAt with
      | none => simp [hxf, hr] at hp
      | some _ => rfl

theorem dead_of_rotate_reused {t : RefreshTokens} {now clock : Time} {newID : UUID}
    {oldHash newHash : String} {newExpiresAt : Time}
    (hre : (rotateRefreshToken now clock newID oldHash newHash newExpiresAt t).1 =
      .error .refreshTokenReused) {x : RefreshToken}
    (hx : getRefreshTokenByHash oldHash t = .ok x) :
    AllRevoked (fun y => y.familyID = x.familyID)
      (rotateRefreshToken now clock newID oldHash newHash newExpiresAt t).2 := by
  rcases rotateRefreshToken_cases now clock newID oldHash newHash newExpiresAt t with
    ⟨⟨e, he, hne⟩, -⟩ | ⟨old, hmem, -, -, hget, -, hout⟩ | ⟨old, -, -, -, -, -, -, hok, -⟩
  · rw [hre] at he
    cases he
    exact absurd rfl hne
  · rw [hx] at hget
    cases hget
    rw [hout]
    exact dead_of_revokeFamily ⟨x, hmem, rfl⟩
  · rw [hre] at hok
    cases hok

/-! ## Logout -/

/-- `Logout` by `callerID` leaves every row of another user as it was. -/
theorem logout_other_users {hash : String → String} {t : RefreshTokens} (hinv : FamilyInv t)
    (now : Time) (callerID : UUID) (presented : String) :
    (logout hash now callerID presented t).filter (·.userID ≠ callerID) =
      t.filter (·.userID ≠ callerID) := by
  unfold logout
  split_ifs with hempty
  · rfl
  · cases hg : getRefreshTokenByHash (hash presented) t with
    | error e => rfl
    | ok rt =>
      simp only
      split_ifs with howner
      · rfl
      · have hrt := (getRefreshTokenByHash_ok hg).1
        -- every row of the revoked family belongs to the caller
        have hfam : ∀ x ∈ t, x.familyID = rt.familyID → x.userID = callerID := fun x hx hxf =>
          (hinv.one_owner x hx rt hrt hxf).trans (not_not.mp howner)
        have hid : revokeRefreshTokenFamily now rt.familyID t =
            updateWhere (fun x => x.familyID = rt.familyID && x.revokedAt.isNone) (revoke now) t :=
          rfl
        rw [hid]
        clear hid hg hinv hrt
        induction t with
        | nil => rfl
        | cons x t ih =>
          have ih' := ih fun y hy => hfam y (List.mem_cons_of_mem _ hy)
          rw [updateWhere_cons]
          by_cases hp : (x.familyID = rt.familyID && x.revokedAt.isNone) = true
          · have hxu : x.userID = callerID := hfam x List.mem_cons_self (by simp at hp; exact hp.1)
            rw [List.filter_cons_of_neg (by simp [hp, revoke, hxu]),
              List.filter_cons_of_neg (by simp [hxu]), ih']
          · simp only [hp, Bool.false_eq_true, if_false, List.filter_cons, ih']

/-- `presented` makes a `Logout` by `callerID` revoke the family of `x`. -/
def LogsOut (hash : String → String) (t : RefreshTokens) (callerID : UUID) (presented : String)
    (x : RefreshToken) : Prop :=
  presented ≠ "" ∧ getRefreshTokenByHash (hash presented) t = .ok x ∧ x.userID = callerID

theorem dead_of_logout {hash : String → String} {t : RefreshTokens} {now : Time} {callerID : UUID}
    {presented : String} {x : RefreshToken} (h : LogsOut hash t callerID presented x) :
    AllRevoked (fun y => y.familyID = x.familyID) (logout hash now callerID presented t) := by
  obtain ⟨hne, hget, howner⟩ := h
  have hx := (getRefreshTokenByHash_ok hget).1
  simp only [logout, if_neg hne, hget, howner, ne_eq, not_true, if_false]
  exact dead_of_revokeFamily ⟨x, hx, rfl⟩

/-! ## The five guarantees -/

/-- In every table reached by serial requests: a family has at most one
    unrevoked token; a hash is rotated successfully at most once; a family has
    one owner and a logout touches only the caller's rows; a family that saw a
    reuse or a logout never rotates again; and a rotation that finds no token or
    an expired one changes nothing. -/
theorem tokenFamilies_serial (hash : String → String) (t : RefreshTokens)
    (hreach : Reach (tokenStep hash) FreshFamily [] t) :
    (∀ f, t.countP (liveIn f) ≤ 1) ∧
    (∀ now clock newID oldHash newHash newExpiresAt rt t',
      rotateRefreshToken now clock newID oldHash newHash newExpiresAt t = (.ok rt, t') →
      ∀ t'', Reach (tokenStep hash) FreshFamily t' t'' → ¬ RotatesOk t'' oldHash) ∧
    ((∀ x ∈ t, ∀ y ∈ t, x.familyID = y.familyID → x.userID = y.userID) ∧
      ∀ now callerID presented, (logout hash now callerID presented t).filter
        (·.userID ≠ callerID) =
        t.filter (·.userID ≠ callerID)) ∧
    (∀ x ∈ t, ∀ t',
      ((∃ now clock newID newHash newExpiresAt,
          rotateRefreshToken now clock newID x.tokenHash newHash newExpiresAt t =
            (.error .refreshTokenReused, t')) ∨
        ∃ now callerID presented, LogsOut hash t callerID presented x ∧
          logout hash now callerID presented t = t') →
      ∀ t'', Reach (tokenStep hash) FreshFamily t' t'' →
        ∀ y ∈ t'', y.familyID = x.familyID → ¬ RotatesOk t'' y.tokenHash) ∧
    (∀ now clock newID oldHash newHash newExpiresAt e t',
      rotateRefreshToken now clock newID oldHash newHash newExpiresAt t = (.error e, t') →
      e = .notFound ∨ e = .tokenExpired → t' = t) := by
  have hinv := reach_familyInv hreach
  refine ⟨hinv.live_le_one, ?_, ⟨hinv.one_owner, fun now u s => logout_other_users hinv now u s⟩,
    ?_, ?_⟩
  · intro now clock newID oldHash newHash newExpiresAt rt t' hrot t'' hr
    have hspent := spent_of_rotate_ok hinv (congrArg Prod.fst hrot)
    rw [hrot] at hspent
    exact not_rotatesOk_of_spent (reach_allRevoked (.inl ⟨oldHash, rfl⟩) hspent hr)
  · intro x hx t' hdead t'' hr y hy hyf
    -- both ways of ending the family are requests, so `t'` is reachable too
    have hboth : Reach (tokenStep hash) FreshFamily t t' ∧
        AllRevoked (fun y => y.familyID = x.familyID) t' := by
      rcases hdead with ⟨now, clock, newID, newHash, newExpiresAt, hrot⟩ |
        ⟨now, callerID, presented, hlo, rfl⟩
      · have hget : getRefreshTokenByHash x.tokenHash t = .ok x := by
          cases hg : getRefreshTokenByHash x.tokenHash t with
          | error e => exact absurd hg (getRefreshTokenByHash_ne_error hx rfl e)
          | ok z =>
            obtain ⟨hz, hzh⟩ := getRefreshTokenByHash_ok hg
            rw [eq_of_tokenHash_eq hinv.hash_nodup hz hx hzh]
        have hd := dead_of_rotate_reused (congrArg Prod.fst hrot) hget
        rw [hrot] at hd
        refine ⟨Reach.single (a := .rotate now clock newID x.tokenHash newHash newExpiresAt) trivial
          ?_, hd⟩
        simp [tokenStep, hrot]
      · exact ⟨Reach.single (a := .logout now callerID presented) trivial rfl, dead_of_logout hlo⟩
    have hdead'' := reach_allRevoked (.inr ⟨x.familyID, rfl⟩) hboth.2 hr
    exact not_rotatesOk_of_dead (reach_familyInv ((hreach.trans hboth.1).trans hr)) hdead'' hy hyf
  · intro now clock newID oldHash newHash newExpiresAt e t' hrot he
    rcases rotateRefreshToken_cases now clock newID oldHash newHash newExpiresAt t with
      ⟨-, hout⟩ | ⟨old, -, -, -, -, he', -⟩ | ⟨old, -, -, -, -, -, -, hok, -⟩
    · rw [hrot] at hout
      exact hout
    · rw [hrot] at he'
      cases he'
      simp at he
    · rw [hrot] at hok
      cases hok

/-- A family that is logged in, rotated and then replayed. -/
def replayedFamily : RefreshTokens :=
  [⟨1, 7, "gen1", 3, 10, 100, some 11⟩, ⟨2, 7, "gen2", 3, 11, 110, some 12⟩]

theorem tokenFamilies_serial_replayed :
    Reach (tokenStep id) FreshFamily [] replayedFamily ∧
      replayedFamily.countP (liveIn 3) ≤ 1 := by
  have hexec : exec (tokenStep id) [] [.issue 10 1 7 3 "gen1" 100,
      .rotate 11 11 2 "gen1" "gen2" 110, .rotate 12 12 9 "gen1" "stolen" 120] =
      some replayedFamily := by decide
  have hreach : Reach (tokenStep id) FreshFamily [] replayedFamily := by
    refine Reach.of_exec ?_ hexec
    refine ⟨?_, fun _ _ => ⟨trivial, fun _ _ => ⟨trivial, fun _ _ => trivial⟩⟩⟩
    simp [FreshFamily]
  exact ⟨hreach, (tokenFamilies_serial id replayedFamily hreach).1 3⟩

end ConvoyChat.Store
