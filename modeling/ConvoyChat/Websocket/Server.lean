import ConvoyChat.Lib.Runs
import ConvoyChat.Websocket.Hub

/-!
# One server

The goroutines of `internal/websocket` on one server: `Hub.Run`, `Broker.Run`,
`processDisconnects` and, for every connection, the handler that becomes
`readPump`, and `writePump`. An `Action` is one step of one of them: it takes one
value from a channel or puts one on it, or it is one call of the store or of
Redis, whose answer the environment gives. A step is `none` while its goroutine is
blocked.

A send on a closed channel, like a second `close`, panics, and a panic in any
goroutine ends the process: `panicked` stops every step.

The heartbeats of `writePump` and the typing timers do nothing to this state and
are left out here; `TypingServer` has the timers.
-/

namespace ConvoyChat.Websocket

open ConvoyChat.Lib

def sendBuffer : ℕ := 256

def subRequestBuffer : ℕ := 256

def disconnectBuffer : ℕ := 256

/-! ## The Broker -/

/-- `subRequest` and `userSubRequest` (`broker.go` lines 14–30); `ready` names the
    channel of the caller that waits. -/
structure SubRequest where
  id : UUID
  subscribe : Bool
  ready : Option ℕ
deriving DecidableEq, Repr

/-- The Broker's side of one Redis Pub/Sub connection: `subReqs`, `subscribed`, the
    channels that Redis forwards, and what it has forwarded so far. -/
structure Subscription where
  reqs : List SubRequest
  subscribed : Finset UUID
  redis : Finset UUID
  messages : List (UUID × Event)
deriving DecidableEq

/-- What `Broker.Run` is doing. -/
inductive BrokerTask
  | idle
  | apply (k : Kind) (req : SubRequest)
  | forward (k : Kind) (id : UUID) (payload : Event)
  | returned
deriving DecidableEq, Repr

/-- Model of `Broker` (`broker.go` lines 41–65). `ready n` is what was put on the
    `n`-th `ready` channel. -/
structure Broker where
  subs : Kind → Subscription
  task : BrokerTask
  ready : ℕ → Option (Except StoreErr Unit)
  nextReady : ℕ

/-- Model of `applySubRequest` and `applyUserSubRequest` (`broker.go` lines
    200–245), with what they put on `req.ready`; `ok` tells that Redis answered. -/
def Subscription.apply (sub : Subscription) (req : SubRequest) (ok : Bool) :
    Subscription × Except StoreErr Unit :=
  if !req.subscribe then
    ({ sub with
        redis := if ok then sub.redis.erase req.id else sub.redis
        subscribed := sub.subscribed.erase req.id }, .ok ())
  else if req.id ∈ sub.subscribed then (sub, .ok ())
  else if ok then
    ({ sub with
        redis := insert req.id sub.redis
        subscribed := insert req.id sub.subscribed }, .ok ())
  else (sub, .error .internal)

/-! ## The server -/

/-- The goroutine of a connection: the handler and then `readPump`, which waits for
    a frame when its procedure has ended; `leaving` is its deferred `Unregister`. -/
inductive Thread
  | absent
  | running (p : ConnProc Unit)
  | leaving
  | gone

structure Server where
  hub : Hub
  broker : Broker
  thread : Client → Thread
  /-- the `ready` channel of the connection's `EnsureSubscribed`, once requested -/
  waiting : Client → Option ℕ
  send : Client → Chan Event
  /-- `writePump` is running -/
  writing : Client → Bool
  disconnects : List (UUID × List UUID)
  /-- what `processDisconnects` is doing -/
  offline : Option (EnvProc Unit)
  /-- the context of `Server.Run` is cancelled -/
  cancelled : Bool
  panicked : Bool

inductive Action
  /-- a connection is upgraded -/
  | accept (c : Client)
  /-- Redis forwards a publication -/
  | arrive (k : Kind) (id : UUID) (e : Event)
  | cancel
  | read (c : Client) (data : Option InboundEnvelope)
  | readError (c : Client)
  | unregister (c : Client)
  /-- the connection performs its next operation other than `ensure` -/
  | perform (c : Client) (env : (o : EnvOp) → o.Res)
  /-- `EnsureSubscribed` puts its request on `subReqs` -/
  | request (c : Client)
  /-- `EnsureSubscribed` receives from `ready` -/
  | receiveReady (c : Client)
  /-- the context of `EnsureSubscribed` is done -/
  | timeout (c : Client)
  | write (c : Client)
  /-- `writePump` returns after a failed write -/
  | writeStop (c : Client)
  | hubRegister
  | hubUnregister (ids : List UUID)
  | hubJoin
  | hubLeave
  | hubBroadcast (k : Kind) (order : List Client)
  | hubTask (ids : List UUID)
  | hubReturn
  | brokerTake (k : Kind)
  | brokerApply (ok : Bool)
  | brokerReceive (k : Kind)
  | brokerForward
  | brokerReturn
  | offlineTake
  | offlinePerform (env : (o : EnvOp) → o.Res)
  | offlineReturn

/-- `NewServer` and `Run`. -/
def Server.new : Server where
  hub := Hub.new
  broker := ⟨fun _ => ⟨[], ∅, ∅, []⟩, .idle, fun _ => none, 0⟩
  thread := fun _ => .absent
  waiting := fun _ => none
  send := fun _ => Chan.empty
  writing := fun _ => false
  disconnects := []
  offline := some (.ret ())
  cancelled := false
  panicked := false

/-- `select { case q <- x: case <-h.done: }`. Nobody reads `q` once `done` is
    closed, so a value that fits is put there in any case. -/
def offer {α : Type} (done : Bool) (cap : ℕ) (q : List α) (x : α) : Option (List α) :=
  match push cap q x with
  | some q' => some q'
  | none => if done then some q else none

namespace Server

/-- Go on with `p` in the goroutine of `c`. -/
def resume (s : Server) (c : Client) (p : ConnProc Unit) : Server :=
  { s with
    thread := Function.update s.thread c (.running p)
    waiting := Function.update s.waiting c none }

/-- Model of `Client.enqueue` (`client.go` lines 139–148). -/
def enqueue (s : Server) (c : Client) (e : Event) : Server :=
  match (s.send c).trySend sendBuffer e with
  | .ok ch => { s with send := Function.update s.send c ch }
  | .full => s
  | .panic => { s with panicked := true }

/-- The next operation of the goroutine of `c`, if it is not `ensure`. -/
def perform (s : Server) (c : Client) (env : (o : EnvOp) → o.Res) : Option Server :=
  match s.thread c with
  | .running (.op (.call o) k) => some (s.resume c (k (env o)))
  | .running (.op (.sendError code message) k) =>
    some ((s.enqueue c (.error code message)).resume c (k ()))
  | .running (.op .register k) =>
    (offer s.hub.done registerBuffer s.hub.register c).map fun q =>
      { s with hub := { s.hub with register := q } }.resume c (k ())
  | .running (.op (.join r) k) =>
    (offer s.hub.done commandBuffer s.hub.join (c, r)).map fun q =>
      { s with hub := { s.hub with join := q } }.resume c (k ())
  | .running (.op (.leave r) k) =>
    (offer s.hub.done commandBuffer s.hub.leave (c, r)).map fun q =>
      { s with hub := { s.hub with leave := q } }.resume c (k ())
  | .running (.op (.typingStart _) k) => some (s.resume c (k ()))
  | .running (.op (.typingStop _) k) => some (s.resume c (k ()))
  | _ => none

/-- The Hub is in its `select`. -/
def hubIdle (s : Server) : Bool := s.hub.todo.isEmpty && !s.hub.done

/-- `ids` lists a set, as `range` does. -/
def Lists {α : Type} [DecidableEq α] (ids : List α) (set : Finset α) : Prop :=
  ids.Nodup ∧ ids.toFinset = set

instance {α : Type} [DecidableEq α] (ids : List α) (set : Finset α) : Decidable (Lists ids set) :=
  inferInstanceAs (Decidable (_ ∧ _))

/-- Update one of the two subscriptions. -/
def setSub (s : Server) (k : Kind) (sub : Subscription) : Server :=
  { s with broker := { s.broker with subs := Function.update s.broker.subs k sub } }

/-- Model of `Unsubscribe` and `UnsubscribeUser` (`broker.go` lines 111–122 and
    151–158): a request that does not fit is dropped. -/
def unsubscribe (s : Server) (k : Kind) (id : UUID) : Server :=
  let sub := s.broker.subs k
  s.setSub k { sub with
    reqs := (push subRequestBuffer sub.reqs ⟨id, false, none⟩).getD sub.reqs }

/-- Model of `ClientDisconnected` (`presence.go` lines 40–46). -/
def clientDisconnected (s : Server) (userID : UUID) (rooms : List UUID) : Server :=
  { s with disconnects := (push disconnectBuffer s.disconnects (userID, rooms)).getD s.disconnects }

/-- One round of `deliver` or `deliverToUser` (`hub.go` lines 314–336); `rest` is
    left of the command after it. -/
def deliver (s : Server) (payload : Event) (c : Client) (rest : List HubTask) (ids : List UUID) :
    Option Server :=
  match (s.send c).trySend sendBuffer payload with
  | .ok ch => some { s with
      send := Function.update s.send c ch
      hub := { s.hub with todo := rest } }
  | .full =>
    if Lists ids (s.hub.maps.clientRooms c) then
      let out := s.hub.maps.removeClient ids c
      some { s with hub := { s.hub with
        maps := out.1
        todo := out.2 ++ rest
        dropped := insert c s.hub.dropped } }
    else none
  | .panic => some { s with panicked := true }

/-- `close(c.send)`. -/
def closeSend (s : Server) (c : Client) (rest : List HubTask) : Server :=
  if (s.send c).closed then { s with panicked := true }
  else
    { s with
      send := Function.update s.send c { s.send c with closed := true }
      hub := { s.hub with todo := rest } }

/-- The next task of the Hub. -/
def hubTask (s : Server) (ids : List UUID) : Option Server :=
  match s.hub.todo with
  | [] => none
  | .deliver _ _ payload c :: rest => s.deliver payload c rest ids
  | .unsubscribe k id :: rest =>
    some ({ s with hub := { s.hub with todo := rest } }.unsubscribe k id)
  | .closeSend c :: rest => some (s.closeSend c rest)
  | .disconnected u rooms :: rest =>
    some ({ s with hub := { s.hub with todo := rest } }.clientDisconnected u rooms)

/-- The answer of a request on its `ready` channel, if it has one. -/
def answerReady (s : Server) (req : SubRequest) (res : Except StoreErr Unit) : Server :=
  match req.ready with
  | none => s
  | some n => { s with broker := { s.broker with
      ready := Function.update s.broker.ready n (some res) } }

/-- The Broker applies the request that it has taken. -/
def brokerApply (s : Server) (k : Kind) (req : SubRequest) (ok : Bool) : Server :=
  let out := (s.broker.subs k).apply req ok
  answerReady ({ s with broker := { s.broker with task := .idle } }.setSub k out.1) req out.2

end Server

open Server in
/-- One step of a server that has not crashed. -/
def Server.act (parse : String → Option UUID) (s : Server) : Action → Option Server
  | .accept c =>
    match s.thread c with
    | .absent => some { s with
        thread := Function.update s.thread c (.running (handshake c))
        writing := Function.update s.writing c true }
    | _ => none
  | .arrive k id e =>
    let sub := s.broker.subs k
    if id ∈ sub.redis then some (s.setSub k { sub with messages := sub.messages ++ [(id, e)] })
    else none
  | .cancel => some { s with cancelled := true }
  | .read c data =>
    match s.thread c with
    | .running (.ret _) => some (s.resume c (dispatch parse c data))
    | _ => none
  | .readError c =>
    match s.thread c with
    | .running (.ret _) => some { s with thread := Function.update s.thread c .leaving }
    | _ => none
  | .unregister c =>
    match s.thread c with
    | .leaving => (offer s.hub.done registerBuffer s.hub.unregister c).map fun q =>
        { s with
          hub := { s.hub with unregister := q }
          thread := Function.update s.thread c .gone }
    | _ => none
  | .perform c env => s.perform c env
  | .request c =>
    match s.thread c, s.waiting c with
    | .running (.op (.ensure k id) _), none =>
      let sub := s.broker.subs k
      (push subRequestBuffer sub.reqs ⟨id, true, some s.broker.nextReady⟩).map fun reqs =>
        { s with
          broker := { s.broker with
            subs := Function.update s.broker.subs k { sub with reqs }
            nextReady := s.broker.nextReady + 1 }
          waiting := Function.update s.waiting c (some s.broker.nextReady) }
    | _, _ => none
  | .receiveReady c =>
    match s.thread c, s.waiting c with
    | .running (.op (.ensure _ _) k), some n =>
      (s.broker.ready n).map fun res => s.resume c (k res)
    | _, _ => none
  | .timeout c =>
    match s.thread c with
    | .running (.op (.ensure _ _) k) => some (s.resume c (k (.error .internal)))
    | _ => none
  | .write c =>
    match s.writing c, (s.send c).buffer, (s.send c).closed with
    | true, _ :: rest, _ =>
      some { s with send := Function.update s.send c { s.send c with buffer := rest } }
    | true, [], true => some { s with writing := Function.update s.writing c false }
    | _, _, _ => none
  | .writeStop c => some { s with writing := Function.update s.writing c false }
  | .hubRegister =>
    match s.hubIdle, s.hub.register with
    | true, c :: rest =>
      some { s with hub := { s.hub with
        register := rest
        maps := s.hub.maps.registerClient c } }
    | _, _ => none
  | .hubUnregister ids =>
    match s.hubIdle, s.hub.unregister with
    | true, c :: rest =>
      if Lists ids (s.hub.maps.clientRooms c) then
        let out := s.hub.maps.removeClient ids c
        some { s with hub := { s.hub with unregister := rest, maps := out.1, todo := out.2 } }
      else none
    | _, _ => none
  | .hubJoin =>
    match s.hubIdle, s.hub.join with
    | true, (c, r) :: rest =>
      some { s with hub := { s.hub with join := rest, maps := s.hub.maps.addToRoom c r } }
    | _, _ => none
  | .hubLeave =>
    match s.hubIdle, s.hub.leave with
    | true, (c, r) :: rest =>
      let out := s.hub.maps.removeFromRoom c r
      some { s with hub := { s.hub with leave := rest, maps := out.1, todo := out.2 } }
    | _, _ => none
  | .hubBroadcast k order =>
    match s.hubIdle, s.hub.broadcast k with
    | true, (id, payload) :: rest =>
      if Lists order ((s.hub.maps.index k).members id) then
        some { s with hub := { s.hub with
          broadcast := Function.update s.hub.broadcast k rest
          todo := order.map (.deliver k id payload) } }
      else none
    | _, _ => none
  | .hubTask ids => s.hubTask ids
  | .hubReturn =>
    if s.cancelled && s.hubIdle then some { s with hub := { s.hub with done := true } } else none
  | .brokerTake k =>
    match s.broker.task, (s.broker.subs k).reqs with
    | .idle, req :: rest =>
      some ({ s with broker := { s.broker with task := .apply k req } }.setSub k
        { s.broker.subs k with reqs := rest })
    | _, _ => none
  | .brokerApply ok =>
    match s.broker.task with
    | .apply k req => some (s.brokerApply k req ok)
    | _ => none
  | .brokerReceive k =>
    match s.broker.task, (s.broker.subs k).messages with
    | .idle, (id, e) :: rest =>
      some ({ s with broker := { s.broker with task := .forward k id e } }.setSub k
        { s.broker.subs k with messages := rest })
    | _, _ => none
  | .brokerForward =>
    match s.broker.task with
    | .forward k id e => (offer s.hub.done commandBuffer (s.hub.broadcast k) (id, e)).map fun q =>
        { s with
          hub := { s.hub with broadcast := Function.update s.hub.broadcast k q }
          broker := { s.broker with task := .idle } }
    | _ => none
  | .brokerReturn =>
    match s.cancelled, s.broker.task with
    | true, .idle => some { s with broker := { s.broker with
        task := .returned
        subs := fun k => { s.broker.subs k with redis := ∅ } } }
    | _, _ => none
  | .offlineTake =>
    match s.offline, s.disconnects with
    | some (.ret _), (userID, rooms) :: rest =>
      some { s with offline := some (presenceOffline userID rooms), disconnects := rest }
    | _, _ => none
  | .offlinePerform env =>
    match s.offline with
    | some (.op o k) => some { s with offline := some (k (env o)) }
    | _ => none
  | .offlineReturn =>
    match s.cancelled, s.offline with
    | true, some (.ret _) => some { s with offline := none }
    | _, _ => none

/-- One step; a crashed process takes none. -/
def Server.step (parse : String → Option UUID) (s : Server) (a : Action) : Option Server :=
  if s.panicked then none else s.act parse a

/-! ## What a step does -/

/-- Neither the Hub, the Broker nor the connections have changed. -/
structure Server.Same (s s' : Server) : Prop where
  hub : s'.hub = s.hub
  broker : s'.broker = s.broker
  thread : s'.thread = s.thread
  waiting : s'.waiting = s.waiting
  send : s'.send = s.send
  cancelled : s.cancelled = true → s'.cancelled = true
  panicked : s'.panicked = s.panicked

/-- The steps of a server, by what they need and what they change. -/
inductive Move (parse : String → Option UUID) (s : Server) : Action → Server → Prop
  | quiet {a : Action} {s' : Server} (h : s.Same s') : Move parse s a s'
  | accept {c : Client} (h : s.thread c = .absent) :
      Move parse s (.accept c) { s with
        thread := Function.update s.thread c (.running (handshake c))
        writing := Function.update s.writing c true }
  | arrive {k : Kind} {id : UUID} {e : Event} (h : id ∈ (s.broker.subs k).redis) :
      Move parse s (.arrive k id e) (s.setSub k { s.broker.subs k with
        messages := (s.broker.subs k).messages ++ [(id, e)] })
  | read {c : Client} {data : Option InboundEnvelope} {u : Unit}
      (h : s.thread c = .running (.ret u)) :
      Move parse s (.read c data) (s.resume c (dispatch parse c data))
  | readError {c : Client} {u : Unit} (h : s.thread c = .running (.ret u)) :
      Move parse s (.readError c) { s with thread := Function.update s.thread c .leaving }
  | unregister {c : Client} {q : List Client} (h : s.thread c = .leaving)
      (hq : offer s.hub.done registerBuffer s.hub.unregister c = some q) :
      Move parse s (.unregister c) { s with
        hub := { s.hub with unregister := q }
        thread := Function.update s.thread c .gone }
  | call {c : Client} {env : (o : EnvOp) → o.Res} {o : EnvOp} {k : o.Res → ConnProc Unit}
      (h : s.thread c = .running (.op (.call o) k)) :
      Move parse s (.perform c env) (s.resume c (k (env o)))
  | sendError {c : Client} {env : (o : EnvOp) → o.Res} {code message : String}
      {k : Unit → ConnProc Unit} (h : s.thread c = .running (.op (.sendError code message) k)) :
      Move parse s (.perform c env) ((s.enqueue c (.error code message)).resume c (k ()))
  | register {c : Client} {env : (o : EnvOp) → o.Res} {k : Unit → ConnProc Unit}
      {q : List Client} (h : s.thread c = .running (.op .register k))
      (hq : offer s.hub.done registerBuffer s.hub.register c = some q) :
      Move parse s (.perform c env)
        ({ s with hub := { s.hub with register := q } }.resume c (k ()))
  | join {c : Client} {env : (o : EnvOp) → o.Res} {r : UUID} {k : Unit → ConnProc Unit}
      {q : List (Client × UUID)} (h : s.thread c = .running (.op (.join r) k))
      (hq : offer s.hub.done commandBuffer s.hub.join (c, r) = some q) :
      Move parse s (.perform c env) ({ s with hub := { s.hub with join := q } }.resume c (k ()))
  | leave {c : Client} {env : (o : EnvOp) → o.Res} {r : UUID} {k : Unit → ConnProc Unit}
      {q : List (Client × UUID)} (h : s.thread c = .running (.op (.leave r) k))
      (hq : offer s.hub.done commandBuffer s.hub.leave (c, r) = some q) :
      Move parse s (.perform c env) ({ s with hub := { s.hub with leave := q } }.resume c (k ()))
  | typingStart {c : Client} {env : (o : EnvOp) → o.Res} {key : TypingKey}
      {k : Unit → ConnProc Unit} (h : s.thread c = .running (.op (.typingStart key) k)) :
      Move parse s (.perform c env) (s.resume c (k ()))
  | typingStop {c : Client} {env : (o : EnvOp) → o.Res} {key : TypingKey}
      {k : Unit → ConnProc Unit} (h : s.thread c = .running (.op (.typingStop key) k)) :
      Move parse s (.perform c env) (s.resume c (k ()))
  | request {c : Client} {kd : Kind} {id : UUID} {k : Except StoreErr Unit → ConnProc Unit}
      {reqs : List SubRequest} (h : s.thread c = .running (.op (.ensure kd id) k))
      (hwait : s.waiting c = none)
      (hq : push subRequestBuffer (s.broker.subs kd).reqs ⟨id, true, some s.broker.nextReady⟩ =
        some reqs) :
      Move parse s (.request c) { s with
        broker := { s.broker with
          subs := Function.update s.broker.subs kd { s.broker.subs kd with reqs }
          nextReady := s.broker.nextReady + 1 }
        waiting := Function.update s.waiting c (some s.broker.nextReady) }
  | receiveReady {c : Client} {kd : Kind} {id : UUID} {k : Except StoreErr Unit → ConnProc Unit}
      {n : ℕ} {res : Except StoreErr Unit} (h : s.thread c = .running (.op (.ensure kd id) k))
      (hwait : s.waiting c = some n) (hres : s.broker.ready n = some res) :
      Move parse s (.receiveReady c) (s.resume c (k res))
  | timeout {c : Client} {kd : Kind} {id : UUID} {k : Except StoreErr Unit → ConnProc Unit}
      (h : s.thread c = .running (.op (.ensure kd id) k)) :
      Move parse s (.timeout c) (s.resume c (k (.error .internal)))
  | write {c : Client} {e : Event} {rest : List Event} (hw : s.writing c = true)
      (h : (s.send c).buffer = e :: rest) :
      Move parse s (.write c)
        { s with send := Function.update s.send c { s.send c with buffer := rest } }
  | hubRegister {c : Client} {rest : List Client} (htodo : s.hub.todo = [])
      (h : s.hub.register = c :: rest) :
      Move parse s .hubRegister
        { s with hub := { s.hub with register := rest, maps := s.hub.maps.registerClient c } }
  | hubUnregister {ids : List UUID} {c : Client} {rest : List Client} (htodo : s.hub.todo = [])
      (h : s.hub.unregister = c :: rest) (hids : Server.Lists ids (s.hub.maps.clientRooms c)) :
      Move parse s (.hubUnregister ids) { s with hub := { s.hub with
        unregister := rest
        maps := (s.hub.maps.removeClient ids c).1
        todo := (s.hub.maps.removeClient ids c).2 } }
  | hubJoin {c : Client} {r : UUID} {rest : List (Client × UUID)} (htodo : s.hub.todo = [])
      (h : s.hub.join = (c, r) :: rest) :
      Move parse s .hubJoin
        { s with hub := { s.hub with join := rest, maps := s.hub.maps.addToRoom c r } }
  | hubLeave {c : Client} {r : UUID} {rest : List (Client × UUID)} (htodo : s.hub.todo = [])
      (h : s.hub.leave = (c, r) :: rest) :
      Move parse s .hubLeave { s with hub := { s.hub with
        leave := rest
        maps := (s.hub.maps.removeFromRoom c r).1
        todo := (s.hub.maps.removeFromRoom c r).2 } }
  | hubBroadcast {k : Kind} {order : List Client} {id : UUID} {payload : Event}
      {rest : List (UUID × Event)} (htodo : s.hub.todo = [])
      (h : s.hub.broadcast k = (id, payload) :: rest)
      (horder : Server.Lists order ((s.hub.maps.index k).members id)) :
      Move parse s (.hubBroadcast k order) { s with hub := { s.hub with
        broadcast := Function.update s.hub.broadcast k rest
        todo := order.map (.deliver k id payload) } }
  | delivered {ids : List UUID} {k : Kind} {id : UUID} {payload : Event} {c : Client}
      {rest : List HubTask} {ch : Chan Event} (h : s.hub.todo = .deliver k id payload c :: rest)
      (hch : (s.send c).trySend sendBuffer payload = .ok ch) :
      Move parse s (.hubTask ids) { s with
        send := Function.update s.send c ch
        hub := { s.hub with todo := rest } }
  | dropped {ids : List UUID} {k : Kind} {id : UUID} {payload : Event} {c : Client}
      {rest : List HubTask} (h : s.hub.todo = .deliver k id payload c :: rest)
      (hch : (s.send c).trySend sendBuffer payload = .full)
      (hids : Server.Lists ids (s.hub.maps.clientRooms c)) :
      Move parse s (.hubTask ids) { s with hub := { s.hub with
        maps := (s.hub.maps.removeClient ids c).1
        todo := (s.hub.maps.removeClient ids c).2 ++ rest
        dropped := insert c s.hub.dropped } }
  | deliverPanic {ids : List UUID} {k : Kind} {id : UUID} {payload : Event} {c : Client}
      {rest : List HubTask} (h : s.hub.todo = .deliver k id payload c :: rest)
      (hch : (s.send c).trySend sendBuffer payload = .panic) :
      Move parse s (.hubTask ids) { s with panicked := true }
  | unsubscribe {ids : List UUID} {k : Kind} {id : UUID} {rest : List HubTask}
      (h : s.hub.todo = .unsubscribe k id :: rest) :
      Move parse s (.hubTask ids)
        ({ s with hub := { s.hub with todo := rest } }.unsubscribe k id)
  | closeSend {ids : List UUID} {c : Client} {rest : List HubTask}
      (h : s.hub.todo = .closeSend c :: rest) :
      Move parse s (.hubTask ids) (s.closeSend c rest)
  | disconnected {ids : List UUID} {u : UUID} {rooms : List UUID} {rest : List HubTask}
      (h : s.hub.todo = .disconnected u rooms :: rest) :
      Move parse s (.hubTask ids)
        ({ s with hub := { s.hub with todo := rest } }.clientDisconnected u rooms)
  | hubReturn (hc : s.cancelled = true) (htodo : s.hub.todo = []) :
      Move parse s .hubReturn { s with hub := { s.hub with done := true } }
  | brokerTake {k : Kind} {req : SubRequest} {rest : List SubRequest}
      (h : s.broker.task = .idle) (hq : (s.broker.subs k).reqs = req :: rest) :
      Move parse s (.brokerTake k)
        ({ s with broker := { s.broker with task := .apply k req } }.setSub k
          { s.broker.subs k with reqs := rest })
  | brokerApply {ok : Bool} {k : Kind} {req : SubRequest} (h : s.broker.task = .apply k req) :
      Move parse s (.brokerApply ok) (s.brokerApply k req ok)
  | brokerReceive {k : Kind} {id : UUID} {e : Event} {rest : List (UUID × Event)}
      (h : s.broker.task = .idle) (hq : (s.broker.subs k).messages = (id, e) :: rest) :
      Move parse s (.brokerReceive k)
        ({ s with broker := { s.broker with task := .forward k id e } }.setSub k
          { s.broker.subs k with messages := rest })
  | brokerForward {k : Kind} {id : UUID} {e : Event} {q : List (UUID × Event)}
      (h : s.broker.task = .forward k id e)
      (hq : offer s.hub.done commandBuffer (s.hub.broadcast k) (id, e) = some q) :
      Move parse s .brokerForward { s with
        hub := { s.hub with broadcast := Function.update s.hub.broadcast k q }
        broker := { s.broker with task := .idle } }
  | brokerReturn (hc : s.cancelled = true) (h : s.broker.task = .idle) :
      Move parse s .brokerReturn { s with broker := { s.broker with
        task := .returned
        subs := fun k => { s.broker.subs k with redis := ∅ } } }

section

variable {parse : String → Option UUID} {s s' : Server} {a : Action}

theorem offer_eq_some {α : Type} {done : Bool} {cap : ℕ} {q q' : List α} {x : α}
    (h : offer done cap q x = some q') : q' = q ++ [x] ∨ q' = q := by
  unfold offer at h
  split at h
  · rename_i q'' hp
    cases h
    exact .inl (push_eq_some hp)
  · split_ifs at h
    cases h
    exact .inr rfl

theorem mem_offer {α : Type} {done : Bool} {cap : ℕ} {q q' : List α} {x y : α}
    (h : offer done cap q x = some q') (hy : y ∈ q') : y ∈ q ∨ y = x := by
  rcases offer_eq_some h with rfl | rfl
  · simpa using hy
  · exact .inl hy

theorem todo_of_hubIdle (h : s.hubIdle = true) : s.hub.todo = [] := by
  unfold Server.hubIdle at h
  simp only [Bool.and_eq_true, List.isEmpty_iff] at h
  exact h.1

theorem perform_move {c : Client} {env : (o : EnvOp) → o.Res} (h : s.perform c env = some s') :
    Move parse s (.perform c env) s' := by
  unfold Server.perform at h
  split at h
  · cases h
    exact .call ‹_›
  · cases h
    exact .sendError ‹_›
  · obtain ⟨q, hq, rfl⟩ := Option.map_eq_some_iff.mp h
    exact .register ‹_› hq
  · obtain ⟨q, hq, rfl⟩ := Option.map_eq_some_iff.mp h
    exact .join ‹_› hq
  · obtain ⟨q, hq, rfl⟩ := Option.map_eq_some_iff.mp h
    exact .leave ‹_› hq
  · cases h
    exact .typingStart ‹_›
  · cases h
    exact .typingStop ‹_›
  · cases h

theorem hubTask_move {ids : List UUID} (h : s.hubTask ids = some s') :
    Move parse s (.hubTask ids) s' := by
  unfold Server.hubTask at h
  split at h
  · cases h
  · rename_i k id payload c rest htodo
    unfold Server.deliver at h
    split at h
    · cases h
      exact .delivered htodo ‹_›
    · split_ifs at h with hids
      cases h
      exact .dropped htodo ‹_› hids
    · cases h
      exact .deliverPanic htodo ‹_›
  · cases h
    exact .unsubscribe ‹_›
  · cases h
    exact .closeSend ‹_›
  · cases h
    exact .disconnected ‹_›

/-- A step is a `Move`. -/
theorem Server.act_move (h : s.act parse a = some s') : Move parse s a s' := by
  cases a with
  | accept c =>
    simp only [Server.act] at h
    split at h
    · cases h
      exact .accept ‹_›
    · cases h
  | arrive k id e =>
    simp only [Server.act] at h
    split_ifs at h with hid
    cases h
    exact .arrive hid
  | cancel =>
    cases h
    exact .quiet ⟨rfl, rfl, rfl, rfl, rfl, fun _ => rfl, rfl⟩
  | read c data =>
    simp only [Server.act] at h
    split at h
    · cases h
      exact .read ‹_›
    · cases h
  | readError c =>
    simp only [Server.act] at h
    split at h
    · cases h
      exact .readError ‹_›
    · cases h
  | unregister c =>
    simp only [Server.act] at h
    split at h
    · obtain ⟨q, hq, rfl⟩ := Option.map_eq_some_iff.mp h
      exact .unregister ‹_› hq
    · cases h
  | perform c env => exact perform_move h
  | request c =>
    simp only [Server.act] at h
    split at h
    · obtain ⟨reqs, hq, rfl⟩ := Option.map_eq_some_iff.mp h
      exact .request ‹_› ‹_› hq
    · cases h
  | receiveReady c =>
    simp only [Server.act] at h
    split at h
    · obtain ⟨res, hres, rfl⟩ := Option.map_eq_some_iff.mp h
      exact .receiveReady ‹_› ‹_› hres
    · cases h
  | timeout c =>
    simp only [Server.act] at h
    split at h
    · cases h
      exact .timeout ‹_›
    · cases h
  | write c =>
    simp only [Server.act] at h
    split at h
    · cases h
      exact .write ‹_› ‹_›
    · cases h
      exact .quiet ⟨rfl, rfl, rfl, rfl, rfl, id, rfl⟩
    · cases h
  | writeStop c =>
    cases h
    exact .quiet ⟨rfl, rfl, rfl, rfl, rfl, id, rfl⟩
  | hubRegister =>
    simp only [Server.act] at h
    split at h
    · cases h
      exact .hubRegister (todo_of_hubIdle ‹_›) ‹_›
    · cases h
  | hubUnregister ids =>
    simp only [Server.act] at h
    split at h
    · split_ifs at h with hids
      cases h
      exact .hubUnregister (todo_of_hubIdle ‹_›) ‹_› hids
    · cases h
  | hubJoin =>
    simp only [Server.act] at h
    split at h
    · cases h
      exact .hubJoin (todo_of_hubIdle ‹_›) ‹_›
    · cases h
  | hubLeave =>
    simp only [Server.act] at h
    split at h
    · cases h
      exact .hubLeave (todo_of_hubIdle ‹_›) ‹_›
    · cases h
  | hubBroadcast k order =>
    simp only [Server.act] at h
    split at h
    · split_ifs at h with horder
      cases h
      exact .hubBroadcast (todo_of_hubIdle ‹_›) ‹_› horder
    · cases h
  | hubTask ids => exact hubTask_move h
  | hubReturn =>
    simp only [Server.act] at h
    split_ifs at h with hc
    cases h
    rw [Bool.and_eq_true] at hc
    exact .hubReturn hc.1 (todo_of_hubIdle hc.2)
  | brokerTake k =>
    simp only [Server.act] at h
    split at h
    · cases h
      exact .brokerTake ‹_› ‹_›
    · cases h
  | brokerApply ok =>
    simp only [Server.act] at h
    split at h
    · cases h
      exact .brokerApply ‹_›
    · cases h
  | brokerReceive k =>
    simp only [Server.act] at h
    split at h
    · cases h
      exact .brokerReceive ‹_› ‹_›
    · cases h
  | brokerForward =>
    simp only [Server.act] at h
    split at h
    · obtain ⟨q, hq, rfl⟩ := Option.map_eq_some_iff.mp h
      exact .brokerForward ‹_› hq
    · cases h
  | brokerReturn =>
    simp only [Server.act] at h
    split at h
    · cases h
      exact .brokerReturn ‹_› ‹_›
    · cases h
  | offlineTake =>
    simp only [Server.act] at h
    split at h
    · cases h
      exact .quiet ⟨rfl, rfl, rfl, rfl, rfl, id, rfl⟩
    · cases h
  | offlinePerform env =>
    simp only [Server.act] at h
    split at h
    · cases h
      exact .quiet ⟨rfl, rfl, rfl, rfl, rfl, id, rfl⟩
    · cases h
  | offlineReturn =>
    simp only [Server.act] at h
    split at h
    · cases h
      exact .quiet ⟨rfl, rfl, rfl, rfl, rfl, id, rfl⟩
    · cases h

theorem Server.step_move (h : s.step parse a = some s') :
    s.panicked = false ∧ Move parse s a s' := by
  unfold Server.step at h
  split_ifs at h with hp
  exact ⟨by simpa using hp, Server.act_move h⟩

/-- The answers that an operation of `c` can get from the step `a`. -/
def Server.Grants (s : Server) (a : Action) (c : Client) : (o : ConnOp) → o.Res → Prop
  | .call o, res => ∃ env, a = .perform c env ∧ res = env o
  | .ensure _ _, res =>
    (∃ n, s.waiting c = some n ∧ s.broker.ready n = some res) ∨
      (a = .timeout c ∧ res = .error .internal)
  | _, _ => True

/-- One step of the goroutine of `c`, or none. -/
inductive ThreadMove (parse : String → Option UUID) (s : Server) (a : Action) (c : Client) :
    Thread → Thread → Prop
  | same {t : Thread} : ThreadMove parse s a c t t
  | accept (h : a = .accept c) : ThreadMove parse s a c .absent (.running (handshake c))
  | read {u : Unit} {data : Option InboundEnvelope} (h : a = .read c data) :
      ThreadMove parse s a c (.running (.ret u)) (.running (dispatch parse c data))
  | next {o : ConnOp} {k : o.Res → ConnProc Unit} (res : o.Res) (h : s.Grants a c o res) :
      ThreadMove parse s a c (.running (.op o k)) (.running (k res))
  | readError {u : Unit} : ThreadMove parse s a c (.running (.ret u)) .leaving
  | unregister : ThreadMove parse s a c .leaving .gone

theorem enqueue_hub (c : Client) (e : Event) : (s.enqueue c e).hub = s.hub := by
  unfold Server.enqueue
  split <;> rfl

theorem enqueue_thread (c : Client) (e : Event) : (s.enqueue c e).thread = s.thread := by
  unfold Server.enqueue
  split <;> rfl

theorem closeSend_thread (c : Client) (rest : List HubTask) :
    (s.closeSend c rest).thread = s.thread := by
  unfold Server.closeSend
  split <;> rfl

theorem answerReady_hub (req : SubRequest) (res : Except StoreErr Unit) :
    (s.answerReady req res).hub = s.hub := by
  unfold Server.answerReady
  split <;> rfl

theorem answerReady_thread (req : SubRequest) (res : Except StoreErr Unit) :
    (s.answerReady req res).thread = s.thread := by
  unfold Server.answerReady
  split <;> rfl

theorem answerReady_send (req : SubRequest) (res : Except StoreErr Unit) :
    (s.answerReady req res).send = s.send := by
  unfold Server.answerReady
  split <;> rfl

theorem answerReady_panicked (req : SubRequest) (res : Except StoreErr Unit) :
    (s.answerReady req res).panicked = s.panicked := by
  unfold Server.answerReady
  split <;> rfl

theorem brokerApply_hub (k : Kind) (req : SubRequest) (ok : Bool) :
    (s.brokerApply k req ok).hub = s.hub := by
  unfold Server.brokerApply
  rw [answerReady_hub]
  rfl

theorem brokerApply_thread (k : Kind) (req : SubRequest) (ok : Bool) :
    (s.brokerApply k req ok).thread = s.thread := by
  unfold Server.brokerApply
  rw [answerReady_thread]
  rfl

theorem brokerApply_send (k : Kind) (req : SubRequest) (ok : Bool) :
    (s.brokerApply k req ok).send = s.send := by
  unfold Server.brokerApply
  rw [answerReady_send]
  rfl

theorem brokerApply_panicked (k : Kind) (req : SubRequest) (ok : Bool) :
    (s.brokerApply k req ok).panicked = s.panicked := by
  unfold Server.brokerApply
  rw [answerReady_panicked]
  rfl

theorem threadMove_update {thread : Client → Thread} {c₀ : Client} {t : Thread}
    (h : ThreadMove parse s a c₀ (thread c₀) t) (c : Client) :
    ThreadMove parse s a c (thread c) (Function.update thread c₀ t c) := by
  by_cases hc : c = c₀
  · subst hc
    simpa using h
  · rw [Function.update_of_ne hc]
    exact .same

theorem threadMove_next {thread : Client → Thread} {c₀ : Client} {o : ConnOp}
    {k : o.Res → ConnProc Unit} {res : o.Res} (h : thread c₀ = .running (.op o k))
    (hres : s.Grants a c₀ o res) (c : Client) :
    ThreadMove parse s a c (thread c)
      (Function.update thread c₀ (.running (k res)) c) :=
  threadMove_update (by rw [h]; exact .next res hres) c

/-- Every step is at most one step of each goroutine of a connection. -/
theorem Move.thread (hmove : Move parse s a s') (c : Client) :
    ThreadMove parse s a c (s.thread c) (s'.thread c) := by
  cases hmove with
  | quiet h =>
    rw [h.thread]
    exact .same
  | accept h => exact threadMove_update (by rw [h]; exact .accept rfl) c
  | read h => exact threadMove_update (by rw [h]; exact .read rfl) c
  | readError h => exact threadMove_update (by rw [h]; exact .readError) c
  | unregister h _ => exact threadMove_update (by rw [h]; exact .unregister) c
  | call h => exact threadMove_next h ⟨_, rfl, rfl⟩ c
  | sendError h =>
    show ThreadMove parse s _ c _ (Function.update (s.enqueue _ _).thread _ _ c)
    rw [enqueue_thread]
    exact threadMove_next h trivial c
  | register h _ => exact threadMove_next h trivial c
  | join h _ => exact threadMove_next h trivial c
  | leave h _ => exact threadMove_next h trivial c
  | typingStart h => exact threadMove_next h trivial c
  | typingStop h => exact threadMove_next h trivial c
  | receiveReady h hwait hres => exact threadMove_next h (.inl ⟨_, hwait, hres⟩) c
  | timeout h => exact threadMove_next h (.inr ⟨rfl, rfl⟩) c
  | closeSend _ =>
    rw [closeSend_thread]
    exact .same
  | brokerApply _ =>
    rw [brokerApply_thread]
    exact .same
  | _ => exact .same

theorem closeSend_hub (c : Client) (rest : List HubTask) :
    (s.closeSend c rest).hub = s.hub ∨ (s.closeSend c rest).hub = { s.hub with todo := rest } := by
  unfold Server.closeSend
  split
  · exact .inl rfl
  · exact .inr rfl

/-- One step of the Hub, or a value put on one of its channels. -/
inductive HubMove (s : Server) : Hub → Prop
  | same : HubMove s s.hub
  | task {t : HubTask} {rest : List HubTask} (h : s.hub.todo = t :: rest) :
      HubMove s { s.hub with todo := rest }
  | register {c : Client} {k : Unit → ConnProc Unit} {q : List Client}
      (h : s.thread c = .running (.op .register k))
      (hq : offer s.hub.done registerBuffer s.hub.register c = some q) :
      HubMove s { s.hub with register := q }
  | unregister {c : Client} {q : List Client} (h : s.thread c = .leaving)
      (hq : offer s.hub.done registerBuffer s.hub.unregister c = some q) :
      HubMove s { s.hub with unregister := q }
  | join {c : Client} {r : UUID} {k : Unit → ConnProc Unit} {q : List (Client × UUID)}
      (h : s.thread c = .running (.op (.join r) k))
      (hq : offer s.hub.done commandBuffer s.hub.join (c, r) = some q) :
      HubMove s { s.hub with join := q }
  | leave {c : Client} {r : UUID} {k : Unit → ConnProc Unit} {q : List (Client × UUID)}
      (h : s.thread c = .running (.op (.leave r) k))
      (hq : offer s.hub.done commandBuffer s.hub.leave (c, r) = some q) :
      HubMove s { s.hub with leave := q }
  | forward {k : Kind} {q : List (UUID × Event)} :
      HubMove s { s.hub with broadcast := Function.update s.hub.broadcast k q }
  | registerClient {c : Client} {rest : List Client} (htodo : s.hub.todo = [])
      (h : s.hub.register = c :: rest) :
      HubMove s { s.hub with register := rest, maps := s.hub.maps.registerClient c }
  | removeClient {ids : List UUID} {c : Client} {rest : List Client} (htodo : s.hub.todo = [])
      (h : s.hub.unregister = c :: rest) (hids : Server.Lists ids (s.hub.maps.clientRooms c)) :
      HubMove s { s.hub with
        unregister := rest
        maps := (s.hub.maps.removeClient ids c).1
        todo := (s.hub.maps.removeClient ids c).2 }
  | addToRoom {c : Client} {r : UUID} {rest : List (Client × UUID)} (htodo : s.hub.todo = [])
      (h : s.hub.join = (c, r) :: rest) :
      HubMove s { s.hub with join := rest, maps := s.hub.maps.addToRoom c r }
  | removeFromRoom {c : Client} {r : UUID} {rest : List (Client × UUID)} (htodo : s.hub.todo = [])
      (h : s.hub.leave = (c, r) :: rest) :
      HubMove s { s.hub with
        leave := rest
        maps := (s.hub.maps.removeFromRoom c r).1
        todo := (s.hub.maps.removeFromRoom c r).2 }
  | broadcast {k : Kind} {order : List Client} {id : UUID} {payload : Event}
      {rest : List (UUID × Event)} (htodo : s.hub.todo = [])
      (horder : Server.Lists order ((s.hub.maps.index k).members id)) :
      HubMove s { s.hub with
        broadcast := Function.update s.hub.broadcast k rest
        todo := order.map (.deliver k id payload) }
  | dropped {ids : List UUID} {k : Kind} {id : UUID} {payload : Event} {c : Client}
      {rest : List HubTask} (h : s.hub.todo = .deliver k id payload c :: rest)
      (hids : Server.Lists ids (s.hub.maps.clientRooms c)) :
      HubMove s { s.hub with
        maps := (s.hub.maps.removeClient ids c).1
        todo := (s.hub.maps.removeClient ids c).2 ++ rest
        dropped := insert c s.hub.dropped }
  | returned : HubMove s { s.hub with done := true }

/-- What a step does to the Hub. -/
theorem Move.hub (hmove : Move parse s a s') : HubMove s s'.hub := by
  cases hmove with
  | quiet h =>
    rw [h.hub]
    exact .same
  | sendError _ =>
    show HubMove s (s.enqueue _ _).hub
    rw [enqueue_hub]
    exact .same
  | unregister h hq => exact .unregister h hq
  | register h hq => exact .register h hq
  | join h hq => exact .join h hq
  | leave h hq => exact .leave h hq
  | hubRegister htodo h => exact .registerClient htodo h
  | hubUnregister htodo h hids => exact .removeClient htodo h hids
  | hubJoin htodo h => exact .addToRoom htodo h
  | hubLeave htodo h => exact .removeFromRoom htodo h
  | hubBroadcast htodo _ horder => exact .broadcast htodo horder
  | delivered h _ => exact .task h
  | dropped h _ hids => exact .dropped h hids
  | unsubscribe h => exact .task h
  | closeSend h =>
    rcases closeSend_hub (s := s) _ _ with heq | heq
    · rw [heq]
      exact .same
    · rw [heq]
      exact .task h
  | disconnected h => exact .task h
  | hubReturn _ _ => exact .returned
  | brokerApply _ =>
    rw [brokerApply_hub]
    exact .same
  | brokerForward _ _ => exact .forward
  | _ => exact .same

end

end ConvoyChat.Websocket
