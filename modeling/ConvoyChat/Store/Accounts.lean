import ConvoyChat.Lib.Rows
import ConvoyChat.Store.Directory

/-!
# The users table

Models of `CreateUser`, `GetUserByID`, `GetUserByEmail` and `PromoteToSystemAdmin`
(`internal/store/users.go` lines 23–101). `id` is the primary key, and `username` and `email`
are `UNIQUE` (`migrations/001_init_schema.up.sql`).

* `createUser_cases`, `promote_cases`: what the two writes do.
* `Account.Same`: what no write changes of a row.
-/

namespace ConvoyChat.Store

open ConvoyChat.Lib

abbrev Accounts := List Account

/-- The errors of `CreateUser`. -/
inductive CreateUserErr
  | duplicateUsername
  | duplicateEmail
  | internal
deriving DecidableEq, Repr

/-- Model of `CreateUser` (lines 38–67); the constraints are checked in the order of their
    indexes. -/
def createUser (now : Time) (id : UUID) (username email passwordHash : String) (t : Accounts) :
    Except CreateUserErr Account × Accounts :=
  if t.any fun a => a.id = id then (.error .internal, t)
  else if t.any fun a => a.username = username then (.error .duplicateUsername, t)
  else if t.any fun a => a.email = email then (.error .duplicateEmail, t)
  else
    let user : Account := ⟨id, username, email, passwordHash, none, none, false, now, now⟩
    (.ok user, t ++ [user])

/-- The first row that `p` holds of, as `scanUser` returns it. -/
def scanUser (p : Account → Bool) (t : Accounts) : Except StoreErr Account :=
  match t.find? p with
  | some a => .ok a
  | none => .error .notFound

/-- Model of `GetUserByID` (lines 69–72). -/
def getAccountByID (id : UUID) : Accounts → Except StoreErr Account := scanUser fun a => a.id = id

/-- Model of `GetUserByEmail` (lines 74–77). -/
def getUserByEmail (email : String) : Accounts → Except StoreErr Account :=
  scanUser fun a => a.email = email

/-- `PromoteToSystemAdmin` (lines 92–101) behind the trimming, which `normalize` does. -/
def promoteToSystemAdmin (normalize : String → String) (email : String) (t : Accounts) : Accounts :=
  updateWhere (fun a => a.email = normalize email) (fun a => { a with isSystemAdmin := true }) t

/-! ## What the calls do -/

/-- The same account: what no statement changes. -/
structure Account.Same (a b : Account) : Prop where
  id : a.id = b.id
  username : a.username = b.username
  email : a.email = b.email
  passwordHash : a.passwordHash = b.passwordHash

section

variable {t t' : Accounts} {a b : Account} {normalize : String → String} {email : String}

theorem Account.Same.refl (a : Account) : a.Same a := ⟨rfl, rfl, rfl, rfl⟩

theorem Account.Same.trans {c : Account} (h : a.Same b) (h' : b.Same c) : a.Same c :=
  ⟨h.id.trans h'.id, h.username.trans h'.username, h.email.trans h'.email,
    h.passwordHash.trans h'.passwordHash⟩

theorem scanUser_ok {p : Account → Bool} (h : scanUser p t = .ok a) : a ∈ t ∧ p a = true := by
  unfold scanUser at h
  split at h
  · rename_i b hb
    cases h
    exact ⟨List.mem_of_find?_eq_some hb, by simpa using List.find?_some hb⟩
  · cases h

/-- A user is created, or the table stays as it is. -/
theorem createUser_cases (now : Time) (id : UUID) (username email passwordHash : String)
    (t : Accounts) :
    let out := createUser now id username email passwordHash t
    ((∃ e, out.1 = .error e) ∧ out.2 = t) ∨
      ∃ user : Account, out.1 = .ok user ∧ out.2 = t ++ [user] ∧
        user = ⟨id, username, email, passwordHash, none, none, false, now, now⟩ ∧
        (∀ a ∈ t, a.id ≠ id) ∧ (∀ a ∈ t, a.username ≠ username) ∧ ∀ a ∈ t, a.email ≠ email := by
  intro out
  have hout : out = createUser now id username email passwordHash t := rfl
  rw [createUser] at hout
  split_ifs at hout with hid husername hemail
  · exact .inl ⟨⟨_, congrArg Prod.fst hout⟩, congrArg Prod.snd hout⟩
  · exact .inl ⟨⟨_, congrArg Prod.fst hout⟩, congrArg Prod.snd hout⟩
  · exact .inl ⟨⟨_, congrArg Prod.fst hout⟩, congrArg Prod.snd hout⟩
  · simp only [List.any_eq_true, decide_eq_true_eq, not_exists, not_and] at hid husername hemail
    exact .inr ⟨_, congrArg Prod.fst hout, congrArg Prod.snd hout, rfl, hid, husername, hemail⟩

/-- A promotion keeps the accounts. -/
theorem same_promote (ha : a ∈ t) :
    ∃ b ∈ promoteToSystemAdmin normalize email t, a.Same b := by
  by_cases hp : a.email = normalize email
  · exact ⟨_, mem_updateWhere_of ha (by simpa using hp), ⟨rfl, rfl, rfl, rfl⟩⟩
  · exact ⟨a, mem_updateWhere_of_not ha (by simpa using hp), .refl a⟩

/-- The rows behind a promotion. -/
theorem promote_cases (h : b ∈ promoteToSystemAdmin normalize email t) :
    ∃ a ∈ t, a.Same b ∧ (b.isSystemAdmin = true →
      a.isSystemAdmin = true ∨ b.email = normalize email) := by
  obtain ⟨a, ha, rfl⟩ := mem_updateWhere.mp h
  refine ⟨a, ha, ?_⟩
  split_ifs with hp
  · exact ⟨⟨rfl, rfl, rfl, rfl⟩, fun _ => .inr (by simpa using hp)⟩
  · exact ⟨.refl a, .inl⟩

end

end ConvoyChat.Store
