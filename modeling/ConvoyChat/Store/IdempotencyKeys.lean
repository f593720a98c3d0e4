import ConvoyChat.Models
import Mathlib.Data.List.Basic
import Mathlib.Tactic.NormNum

/-!
# The idempotency keys in Redis

Model of `messageIdempotencyKey` (`internal/store/messages.go` lines 187–189). The key embeds
the `Idempotency-Key` header as it came, whatever it contains; the two ids before it are
written without a colon, so the key determines all three.

* `messageIdempotencyKey_inj`: different rooms, users or headers have different keys.
* `canonicalUuid`: the canonical text of an id, which is such a text.
-/

namespace ConvoyChat.Store

/-- `uuid.UUID.String`: different ids have different texts, of hexadecimal digits and
    dashes. -/
structure UuidString where
  text : UUID → String
  inj : Function.Injective text
  noColon : ∀ u, ':' ∉ (text u).toList

/-- Model of `messageIdempotencyKey` (lines 187–189). -/
def messageIdempotencyKey (uuid : UuidString) : UUID × UUID × String → String
  | (roomID, userID, key) =>
    "idempotency:message:" ++ uuid.text roomID ++ ":" ++ uuid.text userID ++ ":" ++ key

/-- Texts without a colon before the first colon. -/
theorem append_colon_inj {a a' b b' : List Char} (ha : ':' ∉ a) (ha' : ':' ∉ a')
    (h : a ++ ':' :: b = a' ++ ':' :: b') : a = a' ∧ b = b' := by
  induction a generalizing a' with
  | nil =>
    cases a' with
    | nil => exact ⟨rfl, (List.cons.inj h).2⟩
    | cons c a' => exact absurd ((List.cons.inj h).1 ▸ List.mem_cons_self) ha'
  | cons c a ih =>
    cases a' with
    | nil => exact absurd ((List.cons.inj h).1 ▸ List.mem_cons_self) ha
    | cons c' a' =>
      obtain ⟨hc, hrest⟩ := List.cons.inj h
      obtain ⟨hrec, hb⟩ := ih (fun hm => ha (List.mem_cons_of_mem _ hm))
        (fun hm => ha' (List.mem_cons_of_mem _ hm)) hrest
      exact ⟨by rw [hc, hrec], hb⟩

/-- The key in Redis determines the room, the user and the `Idempotency-Key`. -/
theorem messageIdempotencyKey_inj (uuid : UuidString) :
    Function.Injective (messageIdempotencyKey uuid) := by
  rintro ⟨r, u, k⟩ ⟨r', u', k'⟩ h
  have hcolon : (":" : String).toList = [':'] := by decide
  have htext : ("idempotency:message:" ++ uuid.text r ++ ":" ++ uuid.text u ++ ":" ++ k).toList =
      ("idempotency:message:" ++ uuid.text r' ++ ":" ++ uuid.text u' ++ ":" ++ k').toList :=
    congrArg String.toList h
  simp only [String.toList_append, List.append_assoc, hcolon, List.cons_append,
    List.nil_append] at htext
  obtain ⟨hr, hrest⟩ :=
    append_colon_inj (uuid.noColon r) (uuid.noColon r') ((List.append_right_inj _).mp htext)
  obtain ⟨hu, hk⟩ := append_colon_inj (uuid.noColon u) (uuid.noColon u') hrest
  rw [uuid.inj (String.toList_inj.mp hr), uuid.inj (String.toList_inj.mp hu),
    String.toList_inj.mp hk]

/-! ## The canonical text -/

/-- A hexadecimal digit. -/
def hexDigit (d : ℕ) : Char := "0123456789abcdef".toList.getD d '0'

/-- The last `n` hexadecimal digits of `u`. -/
def hexDigits : ℕ → ℕ → List Char
  | 0, _ => []
  | n + 1, u => hexDigits n (u / 16) ++ [hexDigit (u % 16)]

theorem hexDigit_ne : ∀ d : Fin 16, hexDigit d ≠ ':' ∧ hexDigit d ≠ '-' := by decide

theorem hexDigit_inj : ∀ d e : Fin 16, hexDigit d = hexDigit e → d = e := by decide

theorem length_hexDigits (n u : ℕ) : (hexDigits n u).length = n := by
  induction n generalizing u with
  | zero => rfl
  | succ n ih => rw [hexDigits, List.length_append, ih, List.length_singleton]

theorem hexDigits_ne {n u : ℕ} {d : Char} (hd : d ∈ hexDigits n u) : d ≠ ':' ∧ d ≠ '-' := by
  induction n generalizing u with
  | zero => cases hd
  | succ n ih =>
    rcases List.mem_append.mp hd with hd | hd
    · exact ih hd
    · rw [List.mem_singleton.mp hd]
      exact hexDigit_ne ⟨u % 16, Nat.mod_lt u (by omega)⟩

theorem hexDigits_inj {n u v : ℕ} (hu : u < 16 ^ n) (hv : v < 16 ^ n)
    (h : hexDigits n u = hexDigits n v) : u = v := by
  induction n generalizing u v with
  | zero => omega
  | succ n ih =>
    rw [Nat.pow_succ] at hu hv
    obtain ⟨hinit, hlast⟩ := List.append_inj' h rfl
    have hquot : u / 16 = v / 16 := ih (by omega) (by omega) hinit
    have hrem := hexDigit_inj ⟨u % 16, Nat.mod_lt u (by omega)⟩ ⟨v % 16, Nat.mod_lt v (by omega)⟩
      (List.cons.inj hlast).1
    have hrem : u % 16 = v % 16 := Fin.mk.inj hrem
    omega

/-- Groups of 8, 4, 4, 4 and 12 digits. -/
def dashed (d : List Char) : List Char :=
  d.take 8 ++ '-' ::
    ((d.drop 8).take 4 ++ '-' :: ((d.drop 12).take 4 ++ '-' :: ((d.drop 16).take 4 ++
    '-' :: d.drop 20)))

theorem filter_dashed {d : List Char} (hd : ∀ c ∈ d, c ≠ '-') :
    (dashed d).filter (· ≠ '-') = d := by
  have hplain : ∀ {l : List Char}, (∀ c ∈ l, c ∈ d) → l.filter (· ≠ '-') = l := by
    intro l hl
    rw [List.filter_eq_self]
    exact fun c hc => decide_eq_true (hd c (hl c hc))
  have hgroup : ∀ i, ((d.drop i).take 4).filter (· ≠ '-') = (d.drop i).take 4 := fun i =>
    hplain fun c hc => List.mem_of_mem_drop (List.mem_of_mem_take hc)
  have hjoin : ∀ i, (d.drop i).take 4 ++ d.drop (i + 4) = d.drop i := by
    intro i
    rw [← List.drop_drop]
    exact List.take_append_drop 4 (d.drop i)
  have hdash : ∀ l : List Char, ('-' :: l).filter (· ≠ '-') = l.filter (· ≠ '-') := fun l =>
    List.filter_cons_of_neg (by decide)
  rw [dashed, List.filter_append, hdash, List.filter_append, hdash, List.filter_append, hdash,
    List.filter_append, hdash, hgroup, hgroup, hgroup, hplain fun c hc => List.mem_of_mem_take hc,
    hplain fun c hc => List.mem_of_mem_drop hc, hjoin 16, hjoin 12, hjoin 8]
  exact List.take_append_drop 8 d

/-- The text of an id; the ids of 128 bits have the canonical one. -/
def canonicalText (u : UUID) : List Char :=
  List.replicate (u / 16 ^ 32) 'f' ++ dashed (hexDigits 32 (u % 16 ^ 32))

theorem canonicalText_inj {u v : UUID} (h : canonicalText u = canonicalText v) : u = v := by
  have hfilter : ∀ u : UUID, (canonicalText u).filter (· ≠ '-') =
      List.replicate (u / 16 ^ 32) 'f' ++ hexDigits 32 (u % 16 ^ 32) := by
    intro u
    rw [canonicalText, List.filter_append, filter_dashed fun c hc => (hexDigits_ne hc).2]
    congr 1
    rw [List.filter_eq_self]
    intro c hc
    rw [List.eq_of_mem_replicate hc]
    decide
  have hdigits := congrArg (List.filter (· ≠ '-')) h
  rw [hfilter, hfilter] at hdigits
  obtain ⟨hhead, hrest⟩ :=
    List.append_inj' hdigits (by rw [length_hexDigits, length_hexDigits])
  have hquot : u / 16 ^ 32 = v / 16 ^ 32 := by
    have hlength := congrArg List.length hhead
    rw [List.length_replicate, List.length_replicate] at hlength
    exact hlength
  have hrem : u % 16 ^ 32 = v % 16 ^ 32 :=
    hexDigits_inj (Nat.mod_lt u (by decide)) (Nat.mod_lt v (by decide)) hrest
  rw [← Nat.div_add_mod u (16 ^ 32), hquot, hrem, Nat.div_add_mod]

theorem canonicalText_noColon (u : UUID) : ':' ∉ canonicalText u := by
  intro hc
  rcases List.mem_append.mp hc with hc | hc
  · cases List.eq_of_mem_replicate hc
  · have hmem : ':' ∈ (dashed (hexDigits 32 (u % 16 ^ 32))).filter (· ≠ '-') :=
      List.mem_filter.mpr ⟨hc, by decide⟩
    rw [filter_dashed fun c hc => (hexDigits_ne hc).2] at hmem
    exact (hexDigits_ne hmem).1 rfl

def canonicalUuid : UuidString where
  text u := String.ofList (canonicalText u)
  inj u v h := canonicalText_inj (by simpa using congrArg String.toList h)
  noColon u := by
    rw [String.toList_ofList]
    exact canonicalText_noColon u

example : canonicalUuid.text 0xf47ac10b58cc4372a5670e02b2c3d479 =
    "f47ac10b-58cc-4372-a567-0e02b2c3d479" := by decide

end ConvoyChat.Store
