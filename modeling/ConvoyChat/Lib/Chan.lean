import Mathlib.Data.List.Basic

/-!
# Buffered channels

A command channel that is never closed is the list of the values in its buffer,
and `push` is the blocking send: it is possible only while there is room.

A channel that is closed at some point is a `Chan`. A send in a `select` with a
`default` (`trySend`) delivers the value or, if the buffer is full, takes the
`default` branch; on a closed channel it panics, whatever the buffer holds. So
does a second `close`.
-/

namespace ConvoyChat.Lib

variable {α : Type}

/-- A blocking send into a buffer of depth `cap`; `none` while it is full. -/
def push (cap : ℕ) (q : List α) (x : α) : Option (List α) :=
  if q.length < cap then some (q ++ [x]) else none

theorem push_eq_some {cap : ℕ} {q q' : List α} {x : α} (h : push cap q x = some q') :
    q' = q ++ [x] := by
  unfold push at h
  split_ifs at h
  cases h
  rfl

/-- A channel with its buffer. -/
structure Chan (α : Type) where
  buffer : List α
  closed : Bool
deriving DecidableEq, Repr

/-- The outcome of a send that does not block. -/
inductive Sent (α : Type)
  | ok (ch : Chan α)
  | full
  | panic

namespace Chan

/-- `make(chan α, cap)`. -/
def empty : Chan α := ⟨[], false⟩

/-- `select { case ch <- x: default: }`. -/
def trySend (cap : ℕ) (ch : Chan α) (x : α) : Sent α :=
  if ch.closed then .panic
  else if ch.buffer.length < cap then .ok { ch with buffer := ch.buffer ++ [x] }
  else .full

theorem trySend_ok {cap : ℕ} {ch ch' : Chan α} {x : α} (h : ch.trySend cap x = .ok ch') :
    ch' = { ch with buffer := ch.buffer ++ [x] } := by
  unfold trySend at h
  split_ifs at h
  cases h
  rfl

theorem trySend_panic {cap : ℕ} {ch : Chan α} {x : α} (h : ch.trySend cap x = .panic) :
    ch.closed = true := by
  unfold trySend at h
  split_ifs at h with hclosed
  exact hclosed

end Chan

end ConvoyChat.Lib
