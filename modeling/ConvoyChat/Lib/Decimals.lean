import Mathlib.Data.List.DropRight
import Mathlib.Data.Nat.Digits.Defs
import Mathlib.Data.String.Basic

/-!
# Numbers in decimal, as texts

Texts are compared character by character. Numbers of the same width compare as their texts
do, and so do texts that begin with such numbers. Without the zeros at its end, a number is
also compared with the character that follows it.

* `pad_lt_pad_iff`: texts of one width.
* `block_lt_iff`: a number of fixed width and what follows it.
* `ended_lt_iff`: two fractions without their last zeros, when neither begins the other.
* `ended_lt_of_begins`: the order of their texts when one does.
-/

namespace ConvoyChat.Lib

/-! ## Fixed width -/

/-- `n` in `width` decimal digits. -/
def pad : ℕ → ℕ → List Char
  | 0, _ => []
  | width + 1, n => Nat.digitChar (n / 10 ^ width) :: pad width (n % 10 ^ width)

section

variable {w m n : ℕ} {c : Char} {u v x y : List Char}

@[simp] theorem length_pad (w n : ℕ) : (pad w n).length = w := by
  induction w generalizing n with
  | zero => rfl
  | succ w ih => simp [pad, ih]

theorem digitChar_lt_iff (hm : m < 10) (hn : n < 10) :
    Nat.digitChar m < Nat.digitChar n ↔ m < n := by
  have hall : ∀ i j : Fin 10, Nat.digitChar i < Nat.digitChar j ↔ i.val < j.val := by decide
  exact hall ⟨m, hm⟩ ⟨n, hn⟩

theorem digitChar_inj (hm : m < 10) (hn : n < 10) :
    Nat.digitChar m = Nat.digitChar n ↔ m = n := by
  have hall : ∀ i j : Fin 10, Nat.digitChar i = Nat.digitChar j ↔ i.val = j.val := by decide
  exact hall ⟨m, hm⟩ ⟨n, hn⟩

theorem div_pow_lt (h : n < 10 ^ (w + 1)) : n / 10 ^ w < 10 := by
  rw [Nat.div_lt_iff_lt_mul (by positivity)]
  rwa [pow_succ, Nat.mul_comm] at h

theorem mod_pow_lt (w n : ℕ) : n % 10 ^ w < 10 ^ w := Nat.mod_lt _ (by positivity)

/-- A number is compared by its first digit, then by the rest. -/
theorem lt_iff_div_mod (d m n : ℕ) :
    m < n ↔ m / d < n / d ∨ m / d = n / d ∧ m % d < n % d := by
  have hm := Nat.div_add_mod m d
  have hn := Nat.div_add_mod n d
  rcases Nat.eq_zero_or_pos d with rfl | hd
  · simp
  · have hmd := Nat.mod_lt m hd
    have hnd := Nat.mod_lt n hd
    rcases lt_trichotomy (m / d) (n / d) with hlt | heq | hgt
    · have hmul := Nat.mul_le_mul_left d (Nat.succ_le_of_lt hlt)
      rw [Nat.mul_succ] at hmul
      omega
    · rw [heq] at hm
      omega
    · have hmul := Nat.mul_le_mul_left d (Nat.succ_le_of_lt hgt)
      rw [Nat.mul_succ] at hmul
      omega

theorem pad_inj (hm : m < 10 ^ w) (hn : n < 10 ^ w) : pad w m = pad w n ↔ m = n := by
  induction w generalizing m n with
  | zero => simp only [pow_zero] at hm hn; simp [pad]; omega
  | succ w ih =>
    rw [pad, pad, List.cons.injEq, digitChar_inj (div_pow_lt hm) (div_pow_lt hn),
      ih (mod_pow_lt w m) (mod_pow_lt w n)]
    constructor
    · rintro ⟨hdiv, hmod⟩
      rw [← Nat.div_add_mod m (10 ^ w), ← Nat.div_add_mod n (10 ^ w), hdiv, hmod]
    · rintro rfl
      exact ⟨rfl, rfl⟩

/-- Numbers of one width compare as their texts. -/
theorem pad_lt_pad_iff (hm : m < 10 ^ w) (hn : n < 10 ^ w) : pad w m < pad w n ↔ m < n := by
  induction w generalizing m n with
  | zero => simp only [pow_zero] at hm hn; simp [pad]; omega
  | succ w ih =>
    rw [pad, pad, List.cons_lt_cons_iff, digitChar_lt_iff (div_pow_lt hm) (div_pow_lt hn),
      digitChar_inj (div_pow_lt hm) (div_pow_lt hn), ih (mod_pow_lt w m) (mod_pow_lt w n)]
    exact (lt_iff_div_mod (10 ^ w) m n).symm

/-- Texts of one length, and what follows them. -/
theorem append_lt_append_iff (h : x.length = y.length) :
    x ++ u < y ++ v ↔ x < y ∨ x = y ∧ u < v := by
  induction x generalizing y with
  | nil =>
    have hy : y = [] := List.length_eq_zero_iff.mp h.symm
    simp [hy]
  | cons a x ih =>
    cases y with
    | nil => simp at h
    | cons b y =>
      rw [List.cons_append, List.cons_append, List.cons_lt_cons_iff, List.cons_lt_cons_iff,
        ih (by simpa using h), List.cons.injEq]
      tauto

/-- A number of fixed width before a separator. -/
theorem block_lt_iff (hm : m < 10 ^ w) (hn : n < 10 ^ w) :
    pad w m ++ c :: u < pad w n ++ c :: v ↔ m < n ∨ m = n ∧ u < v := by
  have hsep : c :: u < c :: v ↔ u < v := by
    rw [List.cons_lt_cons_iff]
    simp
  rw [append_lt_append_iff (by simp), pad_lt_pad_iff hm hn, pad_inj hm hn, hsep]

/-- Texts with a common beginning compare from where they part. -/
theorem append_cons_lt_iff {a b : Char} (h : a ≠ b) : x ++ a :: u < x ++ b :: v ↔ a < b := by
  rw [append_lt_append_iff rfl, List.cons_lt_cons_iff]
  simp [h]

end

/-! ## Without the last zeros -/

/-- The digits of the fraction `n / 10 ^ width` up to the last that is not zero. -/
def fraction (width n : ℕ) : List Char := (pad width n).rdropWhile (· = '0')

/-- The fraction behind a point, if there is one, and the end of the text. -/
def ended (digits : List Char) : List Char := (if digits = [] then [] else '.' :: digits) ++ ['Z']

/-- `y` begins with `x` and goes on. -/
def Begins (x y : List Char) : Prop := ∃ c z, y = x ++ c :: z

section

variable {w m n : ℕ} {c : Char} {x y : List Char}

theorem mem_pad (hn : n < 10 ^ w) (hc : c ∈ pad w n) : '0' ≤ c ∧ c ≤ '9' := by
  have hdigit : ∀ i : Fin 10, '0' ≤ Nat.digitChar i ∧ Nat.digitChar i ≤ '9' := by decide
  induction w generalizing n with
  | zero => simp [pad] at hc
  | succ w ih =>
    rcases List.mem_cons.mp hc with rfl | hc
    · exact hdigit ⟨n / 10 ^ w, div_pow_lt hn⟩
    · exact ih (mod_pow_lt w n) hc

theorem mem_fraction (hn : n < 10 ^ w) (hc : c ∈ fraction w n) : '0' ≤ c ∧ c ≤ '9' :=
  mem_pad hn ((List.rdropWhile_prefix _ (pad w n)).subset hc)

/-- What was left out is zeros. -/
theorem pad_eq_fraction (w n : ℕ) :
    ∃ k, pad w n = fraction w n ++ List.replicate k '0' := by
  refine ⟨((pad w n).rtakeWhile (· = '0')).length, ?_⟩
  have hzeros : (pad w n).rtakeWhile (· = '0') =
      List.replicate ((pad w n).rtakeWhile (· = '0')).length '0' := by
    rw [List.eq_replicate_iff]
    refine ⟨rfl, fun c hc => ?_⟩
    simpa using List.mem_rtakeWhile_imp hc
  rw [← hzeros]
  exact List.rdropWhile_append_rtakeWhile.symm

/-- The last digit of a fraction is not zero. -/
theorem last_fraction (h : fraction w n = x ++ c :: y) : ∃ d ∈ c :: y, d ≠ '0' := by
  have hne : fraction w n ≠ [] := by simp [h]
  have hlast := List.rdropWhile_last_not (fun c => decide (c = '0')) (pad w n) hne
  refine ⟨(c :: y).getLast (by simp), List.getLast_mem _, ?_⟩
  have heq : (fraction w n).getLast hne = (c :: y).getLast (by simp) := by
    simp only [h]
    exact List.getLast_append_of_ne_nil _ (by simp)
  rw [← heq]
  exact fun hzero => hlast (decide_eq_true hzero)

theorem fraction_inj (hm : m < 10 ^ w) (hn : n < 10 ^ w) (h : fraction w m = fraction w n) :
    m = n := by
  obtain ⟨k, hk⟩ := pad_eq_fraction w m
  obtain ⟨l, hl⟩ := pad_eq_fraction w n
  have hlen : k = l := by
    have hk' := congrArg List.length hk
    have hl' := congrArg List.length hl
    simp only [length_pad, List.length_append, List.length_replicate, h] at hk' hl'
    omega
  rw [← pad_inj hm hn, hk, hl, h, hlen]

/-- Zeros come before every other number of their width. -/
theorem zeros_lt (hdigits : ∀ c ∈ x, '0' ≤ c) (h : ∃ c ∈ x, c ≠ '0') :
    List.replicate x.length '0' < x := by
  induction x with
  | nil => simp at h
  | cons c x ih =>
    rw [List.length_cons, List.replicate_succ, List.cons_lt_cons_iff]
    by_cases hc : c = '0'
    · refine .inr ⟨hc.symm, ih (fun d hd => hdigits d (by simp [hd])) ?_⟩
      simpa [hc] using h
    · exact .inl (lt_of_le_of_ne (hdigits c (by simp)) (Ne.symm hc))

/-- Two texts are the same, or one begins the other, or they part at some place. -/
theorem begins_or_part (x y : List Char) :
    x = y ∨ Begins x y ∨ Begins y x ∨
      ∃ z a u b v, x = z ++ a :: u ∧ y = z ++ b :: v ∧ a ≠ b := by
  induction x generalizing y with
  | nil =>
    cases y with
    | nil => exact .inl rfl
    | cons b y => exact .inr (.inl ⟨b, y, rfl⟩)
  | cons a x ih =>
    cases y with
    | nil => exact .inr (.inr (.inl ⟨a, x, rfl⟩))
    | cons b y =>
      by_cases hab : a = b
      · subst hab
        rcases ih y with rfl | ⟨c, z, rfl⟩ | ⟨c, z, rfl⟩ | ⟨z, c, u, d, v, rfl, rfl, hcd⟩
        · exact .inl rfl
        · exact .inr (.inl ⟨c, z, rfl⟩)
        · exact .inr (.inr (.inl ⟨c, z, rfl⟩))
        · exact .inr (.inr (.inr ⟨a :: z, c, u, d, v, rfl, rfl, hcd⟩))
      · exact .inr (.inr (.inr ⟨[], a, x, b, y, rfl, rfl, hab⟩))

theorem ended_append (x : List Char) (c : Char) (y : List Char) :
    ended (x ++ c :: y) = ('.' :: x) ++ c :: (y ++ ['Z']) := by
  simp [ended]

/-- Of two fractions one of which goes on where the other ends, the longer is larger, and the
    end of the text comes after every digit. -/
theorem ended_lt_of_begins (hm : m < 10 ^ w) (hn : n < 10 ^ w)
    (h : Begins (fraction w m) (fraction w n)) :
    m < n ∧ ended (fraction w n) < ended (fraction w m) := by
  obtain ⟨c, z, hlonger⟩ := h
  constructor
  · obtain ⟨k, hk⟩ := pad_eq_fraction w m
    obtain ⟨l, hl⟩ := pad_eq_fraction w n
    rw [hlonger, List.append_assoc, List.cons_append] at hl
    have hlen : k = (c :: (z ++ List.replicate l '0')).length := by
      have hk' := congrArg List.length hk
      have hl' := congrArg List.length hl
      simp only [length_pad, List.length_append, List.length_replicate] at hk' hl'
      omega
    rw [← pad_lt_pad_iff hm hn, hk, hl, append_lt_append_iff rfl]
    refine .inr ⟨rfl, ?_⟩
    rw [hlen]
    apply zeros_lt
    · intro d hd
      have hmem : d ∈ pad w n := by
        rw [hl]
        exact List.mem_append_right _ hd
      exact (mem_pad hn hmem).1
    · obtain ⟨d, hd, hne⟩ := last_fraction hlonger
      refine ⟨d, ?_, hne⟩
      rw [← List.cons_append]
      exact List.mem_append_left _ hd
  · have hc : c ≤ '9' := (mem_fraction hn (by simp [hlonger])).2
    have hstop : c < 'Z' := lt_of_le_of_lt hc (by decide)
    rw [hlonger, ended_append]
    cases hshort : fraction w m with
    | nil =>
      show '.' :: _ < ['Z']
      rw [List.cons_lt_cons_iff]
      exact .inl (by decide)
    | cons d x =>
      have hended : ended (d :: x) = ('.' :: d :: x) ++ 'Z' :: [] := by simp [ended]
      rw [hended, append_cons_lt_iff hstop.ne]
      exact hstop

/-- When neither begins the other, the texts are in the order of the fractions. -/
theorem ended_lt_iff (hm : m < 10 ^ w) (hn : n < 10 ^ w)
    (h : ¬ Begins (fraction w m) (fraction w n)) (h' : ¬ Begins (fraction w n) (fraction w m)) :
    ended (fraction w m) < ended (fraction w n) ↔ m < n := by
  rcases begins_or_part (fraction w m) (fraction w n) with
    heq | hbegins | hbegins | ⟨z, a, u, b, v, hx, hy, hab⟩
  · rw [fraction_inj hm hn heq]
    simp
  · exact absurd hbegins h
  · exact absurd hbegins h'
  · obtain ⟨k, hk⟩ := pad_eq_fraction w m
    obtain ⟨l, hl⟩ := pad_eq_fraction w n
    rw [hx, List.append_assoc, List.cons_append] at hk
    rw [hy, List.append_assoc, List.cons_append] at hl
    rw [hx, hy, ended_append, ended_append, append_cons_lt_iff hab, ← pad_lt_pad_iff hm hn, hk, hl,
      append_cons_lt_iff hab]

end

end ConvoyChat.Lib
