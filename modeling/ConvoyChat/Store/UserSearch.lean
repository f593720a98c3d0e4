import ConvoyChat.Store.Directory
import ConvoyChat.Lib.Sorting
import Mathlib.Data.List.Infix

/-!
# The search for users

`SearchUsers` (`internal/store/users.go` lines 103–150) looks for the user names that start
with a text. The text may contain the metacharacters of `ILIKE`, which `likeEscaper`
neutralises.

* `ilike_likeEscape`: the escaped text, followed by `%`, matches the names that start with the
  text, whatever the case.
* `searchUsers_spec`: the first names of that kind in ascending order.
-/

namespace ConvoyChat.Store

open ConvoyChat.Lib

/-! ## The pattern -/

section

variable {lower : Char → Char}

/-- `%` at the end matches any rest. -/
theorem ilike_percent (text : List Char) : ilike lower ['%'] text = true := by
  rw [ilike, List.any_eq_true]
  exact ⟨[], (List.mem_tails _ _).mpr List.nil_suffix, by simp [ilike]⟩

/-- An escaped character matches itself, in either case. -/
theorem ilike_escaped (c : Char) (pattern text : List Char) :
    ilike lower ('\\' :: c :: pattern) text =
      match text with
      | [] => false
      | x :: text => lower c = lower x && ilike lower pattern text := by
  cases text <;> rw [ilike]

/-- So does a character that means nothing. -/
theorem ilike_plain {c : Char} (hpercent : c ≠ '%') (hunderscore : c ≠ '_') (hescape : c ≠ '\\')
    (pattern text : List Char) :
    ilike lower (c :: pattern) text =
      match text with
      | [] => false
      | x :: text => lower c = lower x && ilike lower pattern text := by
  cases text <;> rw [ilike] <;> simp_all

theorem ilike_likeEscape (query name : List Char) :
    ilike lower (likeEscape query ++ ['%']) name = true ↔ query.map lower <+: name.map lower := by
  induction query generalizing name with
  | nil => simp [likeEscape, ilike_percent]
  | cons c query ih =>
    -- escaped or not, the first character is compared with the first of the name
    have hfirst : ilike lower (likeEscape (c :: query) ++ ['%']) name =
        match name with
        | [] => false
        | x :: name => lower c = lower x && ilike lower (likeEscape query ++ ['%']) name := by
      rw [likeEscape]
      split_ifs with hmeta
      · exact ilike_escaped c _ name
      · simp only [Bool.or_eq_true, decide_eq_true_eq, not_or] at hmeta
        exact ilike_plain hmeta.1.2 hmeta.2 hmeta.1.1 _ name
    rw [hfirst]
    cases name with
    | nil => simp
    | cons x name => simp [List.cons_prefix_cons, ih]

end

/-! ## The result -/

/-- The name starts with the query, whatever the case. -/
def startsWith (locale : Locale) (query : String) (u : UserSummary) : Bool :=
  (query.toList.map locale.lower).isPrefixOf (u.username.toList.map locale.lower)

/-- Who may be found: the name starts with the query, the user is not the caller, and is not
    an active member of the room, if one is given. -/
def Snapshot.qualifies (db : Snapshot) (locale : Locale) (query : String) (excludeUserID : UUID)
    (excludeRoomID : Option UUID) (u : UserSummary) : Bool :=
  startsWith locale query u && u.id ≠ excludeUserID &&
    excludeRoomID.all fun roomID => !db.isActiveMember roomID u

/-- `ORDER BY u.username ASC`; user names are unique. -/
def nameBefore (locale : Locale) (a b : UserSummary) : Bool :=
  locale.le a.username b.username && a.username ≠ b.username

section

variable {db : Snapshot} {locale : Locale} {query : String} {excludeUserID : UUID}
  {excludeRoomID : Option UUID} {limit : ℕ} {a b u : UserSummary}

theorem isMatch_eq (locale : Locale) (query : String) (userID : UUID) (u : UserSummary) :
    isMatch locale query userID u = (startsWith locale query u && u.id ≠ userID) := by
  have hlike : ilike locale.lower (likeEscape query.toList ++ ['%']) u.username.toList =
      startsWith locale query u := by
    rw [Bool.eq_iff_iff, ilike_likeEscape, startsWith, List.isPrefixOf_iff_prefix]
  rw [isMatch, hlike]

/-- All who may be found, in order. -/
def Snapshot.found (db : Snapshot) (locale : Locale) (query : String) (excludeUserID : UUID)
    (excludeRoomID : Option UUID) : List UserSummary :=
  ((db.accounts.map Account.summary).filter
      (db.qualifies locale query excludeUserID excludeRoomID)).insertionSort
    fun a b => locale.le a.username b.username

theorem searchUsers_eq_take :
    db.searchUsers locale query excludeUserID excludeRoomID limit =
      (db.found locale query excludeUserID excludeRoomID).take limit := by
  rw [Snapshot.searchUsers, Snapshot.found]
  congr 2
  refine List.filter_congr fun u _ => ?_
  rw [isMatch_eq, Snapshot.qualifies]
  cases excludeRoomID <;> rfl

theorem nameBefore_asymm (h : nameBefore locale a b = true) : ¬ nameBefore locale b a = true := by
  simp only [nameBefore, Bool.and_eq_true, decide_eq_true_eq] at h ⊢
  rintro ⟨hba, -⟩
  exact h.2 (locale.le_antisymm _ _ h.1 hba)

theorem mem_found : u ∈ db.found locale query excludeUserID excludeRoomID ↔
    u ∈ db.accounts.map Account.summary ∧
      db.qualifies locale query excludeUserID excludeRoomID u = true := by
  rw [Snapshot.found, List.mem_insertionSort, List.mem_filter]

/-- The order is strict, since no name is taken twice. -/
theorem found_pairwise :
    (db.found locale query excludeUserID excludeRoomID).Pairwise fun a b =>
      nameBefore locale a b = true := by
  have htotal : Std.Total fun a b : UserSummary => locale.le a.username b.username = true :=
    ⟨fun a b => by simpa using locale.le_total a.username b.username⟩
  have htrans : IsTrans UserSummary fun a b => locale.le a.username b.username = true :=
    ⟨fun a b c => locale.le_trans a.username b.username c.username⟩
  have hnames : ((db.found locale query excludeUserID excludeRoomID).map (·.username)).Nodup := by
    have haccounts : ((db.accounts.map Account.summary).map (·.username)).Nodup := by
      rw [List.map_map]
      exact db.username
    have hperm :=
      (List.perm_insertionSort (fun a b : UserSummary => locale.le a.username b.username)
      ((db.accounts.map Account.summary).filter
        (db.qualifies locale query excludeUserID excludeRoomID))).map (·.username)
    refine hperm.nodup_iff.mpr (haccounts.sublist ?_)
    exact List.filter_sublist.map _
  have hsorted := List.pairwise_insertionSort
    (fun a b : UserSummary => locale.le a.username b.username = true)
    ((db.accounts.map Account.summary).filter
      (db.qualifies locale query excludeUserID excludeRoomID))
  refine (hsorted.and (List.pairwise_map.mp hnames)).imp ?_
  intro a b hab
  simpa [nameBefore] using hab

end

/-- The escaped text followed by `%` matches the names that start with the text, whatever the
    case, and the search returns, in ascending order, the users who may be found and come
    after fewer than `limit` of them. -/
theorem searchUsers_spec (db : Snapshot) (locale : Locale) (query : String) (excludeUserID : UUID)
    (excludeRoomID : Option UUID) (limit : ℕ) :
    (∀ username : String,
      ilike locale.lower (likeEscape query.toList ++ ['%']) username.toList = true ↔
        query.toList.map locale.lower <+: username.toList.map locale.lower) ∧
      (db.searchUsers locale query excludeUserID excludeRoomID limit).Pairwise
        (fun a b => nameBefore locale a b = true) ∧
      ∀ u, u ∈ db.searchUsers locale query excludeUserID excludeRoomID limit ↔
        (u ∈ db.accounts.map Account.summary ∧
          db.qualifies locale query excludeUserID excludeRoomID u = true) ∧
        ((db.accounts.map Account.summary).countP fun v =>
          db.qualifies locale query excludeUserID excludeRoomID v &&
            nameBefore locale v u) < limit := by
  refine ⟨fun username => ilike_likeEscape _ _, ?_, fun u => ?_⟩
  · rw [searchUsers_eq_take]
    exact found_pairwise.sublist (List.take_sublist _ _)
  · rw [searchUsers_eq_take, mem_take_iff_of_pairwise (fun _ _ _ _ => nameBefore_asymm)
      found_pairwise, mem_found]
    have hperm := List.perm_insertionSort (fun a b : UserSummary => locale.le a.username b.username)
      ((db.accounts.map Account.summary).filter
        (db.qualifies locale query excludeUserID excludeRoomID))
    have hcount : ((db.found locale query excludeUserID excludeRoomID).countP fun v =>
          nameBefore locale v u) =
        (db.accounts.map Account.summary).countP fun v =>
          db.qualifies locale query excludeUserID excludeRoomID v && nameBefore locale v u := by
      rw [Snapshot.found, hperm.countP_eq, List.countP_filter]
      refine List.countP_congr fun v _ => ?_
      rw [Bool.and_comm]
    simp only [Bool.decide_eq_true]
    rw [hcount]

end ConvoyChat.Store
