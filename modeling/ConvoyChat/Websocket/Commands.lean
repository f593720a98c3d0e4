import ConvoyChat.Websocket.Holders

/-!
# The commands of the Hub

`Hub.Run` alone, under commands in any order: a client is registered at most once,
but its other commands may come before that, after its removal, or repeatedly, and
its send queue may be filled to any level. The sends, the `close` and the
notifications of a command are performed one by one (`HubRun.todo`); the Hub takes
its next command when none is left.

`removals` records what no goroutine sees: each client that `removeClient` took
out, with the rooms in which `h.rooms` had it.

* `HubRun.Inv`: the indexes agree, and the closes and notifications that were made
  or are still to do are those of the removed clients.
* `hub_indexes_agree`: in every reachable state.
* `Server.reach_hubRun`: the Hub of a server, with its goroutines, is such a run.
-/

namespace ConvoyChat.Websocket

open ConvoyChat.Lib

structure HubRun where
  maps : Maps
  todo : List HubTask
  send : Client → Chan Event
  registered : Finset Client
  /-- the calls of `close(c.send)` -/
  closes : List Client
  /-- the calls of `h.presence.ClientDisconnected` -/
  disconnects : List (UUID × List UUID)
  removals : List (Client × Set UUID)
  panicked : Bool

def HubRun.new : HubRun where
  maps := Hub.new.maps
  todo := []
  send := fun _ => Chan.empty
  registered := ∅
  closes := []
  disconnects := []
  removals := []
  panicked := false

inductive HubAction
  | register (c : Client)
  | unregister (c : Client) (ids : List UUID)
  | join (c : Client) (r : UUID)
  | leave (c : Client) (r : UUID)
  | broadcast (k : Kind) (id : UUID) (payload : Event) (order : List Client)
  /-- the Hub performs its next task -/
  | task (ids : List UUID)
  /-- `writePump` and `sendError` leave this in the queue of `c` -/
  | queue (c : Client) (buffer : List Event)

namespace HubRun

/-- Model of `removeClient`, with `rest` left of the command after it. -/
def remove (h : HubRun) (c : Client) (ids : List UUID) (rest : List HubTask) : HubRun :=
  { h with
    maps := (h.maps.removeClient ids c).1
    todo := (h.maps.removeClient ids c).2 ++ rest
    removals := if c ∈ h.maps.clients then h.removals ++ [(c, {r | c ∈ h.maps.rooms.members r})]
      else h.removals }

/-- One round of `deliver` or `deliverToUser`. -/
def deliver (h : HubRun) (payload : Event) (c : Client) (rest : List HubTask) (ids : List UUID) :
    Option HubRun :=
  match (h.send c).trySend sendBuffer payload with
  | .ok ch => some { h with send := Function.update h.send c ch, todo := rest }
  | .full => if Server.Lists ids (h.maps.clientRooms c) then some (h.remove c ids rest) else none
  | .panic => some { h with panicked := true }

/-- `close(c.send)`; closing twice panics. -/
def closeSend (h : HubRun) (c : Client) (rest : List HubTask) : HubRun :=
  { h with
    send := Function.update h.send c { h.send c with closed := true }
    closes := h.closes ++ [c]
    todo := rest
    panicked := h.panicked || (h.send c).closed }

def task (h : HubRun) (ids : List UUID) : Option HubRun :=
  match h.todo with
  | [] => none
  | .deliver _ _ payload c :: rest => h.deliver payload c rest ids
  | .unsubscribe _ _ :: rest => some { h with todo := rest }
  | .closeSend c :: rest => some (h.closeSend c rest)
  | .disconnected u rooms :: rest =>
    some { h with disconnects := h.disconnects ++ [(u, rooms)], todo := rest }

/-- One step of `Hub.Run` (lines 152–179), or a change of a queue. -/
def step (h : HubRun) : HubAction → Option HubRun
  | .register c =>
    if h.todo = [] ∧ c ∉ h.registered then
      some { h with registered := insert c h.registered, maps := h.maps.registerClient c }
    else none
  | .unregister c ids =>
    if h.todo = [] ∧ Server.Lists ids (h.maps.clientRooms c) then some (h.remove c ids []) else none
  | .join c r => if h.todo = [] then some { h with maps := h.maps.addToRoom c r } else none
  | .leave c r =>
    if h.todo = [] then
      some { h with maps := (h.maps.removeFromRoom c r).1, todo := (h.maps.removeFromRoom c r).2 }
    else none
  | .broadcast k id payload order =>
    if h.todo = [] ∧ Server.Lists order ((h.maps.index k).members id) then
      some { h with todo := order.map (.deliver k id payload) }
    else none
  | .task ids => h.task ids
  | .queue c buffer =>
    some { h with send := Function.update h.send c { h.send c with buffer } }

end HubRun

/-- The client whose queue the task closes. -/
def HubTask.closing : HubTask → Option Client
  | .closeSend c => some c
  | _ => none

/-- The notification of the task. -/
def HubTask.notice : HubTask → Option (UUID × List UUID)
  | .disconnected u rooms => some (u, rooms)
  | _ => none

/-- The notification names the user and lists the rooms of the removed client. -/
def Notice (gone : Client × Set UUID) (notice : UUID × List UUID) : Prop :=
  notice.1 = gone.1.userID ∧ notice.2.Nodup ∧ ∀ r, r ∈ notice.2 ↔ r ∈ gone.2

/-- Only deliveries follow a delivery. -/
def DeliversLast (t t' : HubTask) : Prop := t.receiver.isSome → t'.receiver.isSome

structure HubRun.Inv (h : HubRun) : Prop where
  maps : h.maps.Inv
  clients : ∀ c ∈ h.maps.clients, c ∈ h.registered
  rooms : ∀ c, h.maps.clientRooms c ≠ ∅ → c ∈ h.registered
  last : h.todo.Pairwise DeliversLast
  receivers : (h.todo.filterMap HubTask.receiver).Nodup
  members : ∀ c ∈ h.todo.filterMap HubTask.receiver, c ∈ h.maps.clients
  removed : ∀ c, c ∈ h.removals.map Prod.fst ↔ c ∈ h.registered ∧ c ∉ h.maps.clients
  nodup : (h.removals.map Prod.fst).Nodup
  closes : h.closes ++ h.todo.filterMap HubTask.closing = h.removals.map Prod.fst
  notices : List.Forall₂ Notice h.removals (h.disconnects ++ h.todo.filterMap HubTask.notice)
  closed : ∀ c, (h.send c).closed = true ↔ c ∈ h.closes
  calm : h.panicked = false

namespace HubRun

variable {h h' : HubRun} {c : Client}

theorem inv_new : HubRun.new.Inv where
  maps := Maps.inv_new
  clients := by simp [new, Hub.new]
  rooms := by simp [new, Hub.new]
  last := by simp [new]
  receivers := by simp [new]
  members := by simp [new]
  removed := by simp [new]
  nodup := by simp [new]
  closes := by simp [new]
  notices := by simp [new]
  closed := by simp [new, Chan.empty]
  calm := rfl

/-- The clients of the Hub have open queues. -/
theorem Inv.open (hinv : h.Inv) (hc : c ∈ h.maps.clients) : (h.send c).closed = false := by
  by_contra hclosed
  have hmem : c ∈ h.removals.map Prod.fst := by
    rw [← hinv.closes]
    exact List.mem_append_left _ ((hinv.closed c).mp (by simpa using hclosed))
  exact ((hinv.removed c).mp hmem).2 hc

/-! ## Commands -/

theorem Inv.register (hinv : h.Inv) (htodo : h.todo = []) (hc : c ∉ h.registered) :
    Inv { h with registered := insert c h.registered, maps := h.maps.registerClient c } := by
  have hrooms : h.maps.clientRooms c = ∅ := by
    by_contra hne
    exact hc (hinv.rooms c hne)
  refine ⟨hinv.maps.registerClient hrooms, ?_, ?_, hinv.last, hinv.receivers, ?_, ?_, hinv.nodup,
    hinv.closes, hinv.notices, hinv.closed, hinv.calm⟩
  · intro c' hc'
    rcases Finset.mem_insert.mp hc' with rfl | hc'
    · exact Finset.mem_insert_self _ _
    · exact Finset.mem_insert_of_mem (hinv.clients c' hc')
  · exact fun c' hc' => Finset.mem_insert_of_mem (hinv.rooms c' hc')
  · simp [htodo]
  · intro c'
    show _ ↔ c' ∈ insert c h.registered ∧ c' ∉ insert c h.maps.clients
    rw [hinv.removed, Finset.mem_insert, Finset.mem_insert]
    constructor
    · rintro ⟨hreg, hcl⟩
      refine ⟨.inr hreg, ?_⟩
      rintro (rfl | hmem)
      · exact hc hreg
      · exact hcl hmem
    · rintro ⟨hreg, hcl⟩
      rw [not_or] at hcl
      exact ⟨hreg.resolve_left hcl.1, hcl.2⟩

theorem Inv.join {r : UUID} (hinv : h.Inv) (htodo : h.todo = []) :
    Inv { h with maps := h.maps.addToRoom c r } := by
  refine ⟨hinv.maps.addToRoom, ?_, ?_, hinv.last, hinv.receivers, by simp [htodo], ?_, hinv.nodup,
    hinv.closes, hinv.notices, hinv.closed, hinv.calm⟩
  · intro c' hc'
    rw [addToRoom_clients] at hc'
    exact hinv.clients c' hc'
  · intro c' hc'
    have hc' : (h.maps.addToRoom c r).clientRooms c' ≠ ∅ := hc'
    unfold Maps.addToRoom at hc'
    split at hc'
    · exact hinv.rooms c' hc'
    · rename_i hmem
      split at hc'
      · exact hinv.rooms c' hc'
      · by_cases heq : c' = c
        · rw [heq]
          exact hinv.clients c (not_not.mp hmem)
        · exact hinv.rooms c' (by simpa [heq] using hc')
  · intro c'
    rw [addToRoom_clients]
    exact hinv.removed c'

theorem removeFromRoom_tasks {m : Maps} {r : UUID} :
    ∀ t ∈ (m.removeFromRoom c r).2, t = .unsubscribe .room r := by
  intro t ht
  unfold Maps.removeFromRoom at ht
  split at ht
  · cases ht
  · exact Maps.mem_detach_tasks ht

theorem Inv.leave {r : UUID} (hinv : h.Inv) (htodo : h.todo = []) :
    Inv { h with
      maps := (h.maps.removeFromRoom c r).1
      todo := (h.maps.removeFromRoom c r).2 } := by
  have htasks := removeFromRoom_tasks (c := c) (m := h.maps) (r := r)
  have hrecv : (h.maps.removeFromRoom c r).2.filterMap HubTask.receiver = [] :=
    filterMap_receivers removeFromRoom_receivers
  have hclosing : (h.maps.removeFromRoom c r).2.filterMap HubTask.closing = [] :=
    List.filterMap_eq_nil_iff.mpr fun t ht => by rw [htasks t ht]; rfl
  have hnotice : (h.maps.removeFromRoom c r).2.filterMap HubTask.notice = [] :=
    List.filterMap_eq_nil_iff.mpr fun t ht => by rw [htasks t ht]; rfl
  have hcloses := hinv.closes
  have hnotices := hinv.notices
  rw [htodo] at hcloses hnotices
  refine ⟨hinv.maps.removeFromRoom, ?_, ?_, ?_, ?_, ?_, ?_, hinv.nodup, ?_, ?_, hinv.closed,
    hinv.calm⟩
  · intro c' hc'
    rw [removeFromRoom_clients] at hc'
    exact hinv.clients c' hc'
  · intro c' hc'
    refine hinv.rooms c' fun hempty => hc' ?_
    show (h.maps.removeFromRoom c r).1.clientRooms c' = ∅
    unfold Maps.removeFromRoom
    split
    · exact hempty
    · by_cases heq : c' = c
      · subst heq
        simp [hempty]
      · simp [heq, hempty]
  · refine List.pairwise_of_forall_mem_list fun t ht t' _ hrec => ?_
    rw [htasks t ht] at hrec
    cases hrec
  · simp [hrecv]
  · simp [hrecv]
  · intro c'
    rw [removeFromRoom_clients]
    exact hinv.removed c'
  · simpa [hclosing] using hcloses
  · simpa [hnotice] using hnotices

theorem Inv.broadcast {k : Kind} {id : UUID} {payload : Event} {order : List Client}
    (hinv : h.Inv) (htodo : h.todo = [])
    (horder : Server.Lists order ((h.maps.index k).members id)) :
    Inv { h with todo := order.map (.deliver k id payload) } := by
  have hcloses := hinv.closes
  have hnotices := hinv.notices
  rw [htodo] at hcloses hnotices
  have hrecv : (order.map (HubTask.deliver k id payload)).filterMap HubTask.receiver = order := by
    simp [List.filterMap_map, Function.comp_def, HubTask.receiver]
  have hclosing : (order.map (HubTask.deliver k id payload)).filterMap HubTask.closing = [] := by
    simp [List.filterMap_map, Function.comp_def, HubTask.closing]
  have hnotice : (order.map (HubTask.deliver k id payload)).filterMap HubTask.notice = [] := by
    simp [List.filterMap_map, Function.comp_def, HubTask.notice]
  refine ⟨hinv.maps, hinv.clients, hinv.rooms, ?_, by rw [hrecv]; exact horder.1, ?_, hinv.removed,
    hinv.nodup, ?_, ?_, hinv.closed, hinv.calm⟩
  · exact List.pairwise_map.mpr (List.pairwise_of_forall fun _ _ _ => rfl)
  · intro c hc
    rw [hrecv] at hc
    have hmem : c ∈ (h.maps.index k).members id := by
      rw [← horder.2]
      simpa using hc
    exact hinv.maps.mem_clients hmem
  · simpa [hclosing] using hcloses
  · simpa [hnotice] using hnotices

/-- The tasks of `removeClient`: one `close`, one notification, and no delivery. -/
theorem removed_tasks {m m' : Maps} {tasks : List HubTask} {ids : List UUID}
    (hrem : Maps.Removed m m' tasks c ids) :
    (∀ t ∈ tasks, t.receiver = none) ∧ tasks.filterMap HubTask.closing = [c] ∧
      tasks.filterMap HubTask.notice = [(c.userID, ids)] := by
  obtain ⟨ts, hts, rfl⟩ := hrem.tasks
  have hnone : ts.filterMap HubTask.closing = [] ∧ ts.filterMap HubTask.notice = [] := by
    constructor <;>
    · refine List.filterMap_eq_nil_iff.mpr fun t ht => ?_
      obtain ⟨k, id, rfl⟩ := hts t ht
      rfl
  refine ⟨fun t ht => ?_, ?_, ?_⟩
  · rcases List.mem_append.mp ht with h₁ | h₁
    · obtain ⟨k, id, rfl⟩ := hts t h₁
      rfl
    · rcases List.mem_pair.mp h₁ with rfl | rfl <;> rfl
  · rw [List.filterMap_append, hnone.1]
    rfl
  · rw [List.filterMap_append, hnone.2]
    rfl

/-- Deliveries close nothing and notify nobody. -/
theorem delivers_quiet {rest : List HubTask} (hrest : ∀ t ∈ rest, t.receiver.isSome) :
    rest.filterMap HubTask.closing = [] ∧ rest.filterMap HubTask.notice = [] := by
  constructor <;>
  · refine List.filterMap_eq_nil_iff.mpr fun t ht => ?_
    have hsome := hrest t ht
    cases t with
    | deliver _ _ _ _ => rfl
    | _ => cases hsome

/-- `removeClient` in front of deliveries to other clients. -/
theorem Inv.remove {ids : List UUID} {rest : List HubTask} (hinv : h.Inv)
    (hids : Server.Lists ids (h.maps.clientRooms c)) (hrest : ∀ t ∈ rest, t.receiver.isSome)
    (hnodup : (rest.filterMap HubTask.receiver).Nodup)
    (hmembers : ∀ c' ∈ rest.filterMap HubTask.receiver, c' ∈ h.maps.clients ∧ c' ≠ c)
    (htodo : h.todo.filterMap HubTask.closing = [] ∧ h.todo.filterMap HubTask.notice = []) :
    (h.remove c ids rest).Inv := by
  have hcloses := hinv.closes
  have hnotices := hinv.notices
  rw [htodo.1, List.append_nil] at hcloses
  rw [htodo.2, List.append_nil] at hnotices
  have hpair : rest.Pairwise DeliversLast :=
    List.pairwise_of_forall_mem_list fun _ _ t' ht' _ => hrest t' ht'
  obtain ⟨hquiet₁, hquiet₂⟩ := delivers_quiet hrest
  by_cases hc : c ∈ h.maps.clients
  · have hrem := Maps.removeClient_removed hinv.maps hc hids.2
    obtain ⟨hfree, hclosing, hnotice⟩ := removed_tasks hrem
    have hgone : (h.remove c ids rest).removals =
        h.removals ++ [(c, {r | c ∈ h.maps.rooms.members r})] := if_pos hc
    have hfst : (h.remove c ids rest).removals.map Prod.fst = h.removals.map Prod.fst ++ [c] := by
      rw [hgone, List.map_append]
      rfl
    have hrecv : (h.remove c ids rest).todo.filterMap HubTask.receiver =
        rest.filterMap HubTask.receiver := by
      show ((h.maps.removeClient ids c).2 ++ rest).filterMap _ = _
      rw [List.filterMap_append, filterMap_receivers hfree, List.nil_append]
    refine ⟨hrem.inv hinv.maps, ?_, ?_, ?_, by rw [hrecv]; exact hnodup, ?_, ?_, ?_, ?_, ?_,
      hinv.closed, hinv.calm⟩
    · intro c' hc'
      have hc' : c' ∈ (h.maps.removeClient ids c).1.clients := hc'
      rw [hrem.clients] at hc'
      exact hinv.clients c' (Finset.mem_of_mem_erase hc')
    · intro c' hc'
      have hc' : (h.maps.removeClient ids c).1.clientRooms c' ≠ ∅ := hc'
      rw [hrem.clientRooms] at hc'
      exact hinv.rooms c' hc'
    · have hvoid : ∀ t ∈ (h.maps.removeClient ids c).2, ∀ t', DeliversLast t t' := by
        intro t ht t' hsome
        rw [hfree t ht] at hsome
        cases hsome
      refine List.pairwise_append.mpr ⟨?_, hpair, fun t ht t' _ => hvoid t ht t'⟩
      exact List.pairwise_of_forall_mem_list fun t ht t' _ => hvoid t ht t'
    · intro c' hc'
      rw [hrecv] at hc'
      show c' ∈ (h.maps.removeClient ids c).1.clients
      rw [hrem.clients]
      exact Finset.mem_erase.mpr ⟨(hmembers c' hc').2, (hmembers c' hc').1⟩
    · intro c'
      show _ ↔ c' ∈ h.registered ∧ c' ∉ (h.maps.removeClient ids c).1.clients
      rw [hfst, List.mem_append, hinv.removed, List.mem_singleton, hrem.clients, Finset.mem_erase]
      constructor
      · rintro (⟨hreg, hcl⟩ | rfl)
        · exact ⟨hreg, fun hmem => hcl hmem.2⟩
        · exact ⟨hinv.clients c' hc, fun hmem => hmem.1 rfl⟩
      · rintro ⟨hreg, hcl⟩
        by_cases heq : c' = c
        · exact .inr heq
        · exact .inl ⟨hreg, fun hmem => hcl ⟨heq, hmem⟩⟩
    · rw [hfst, List.nodup_append]
      refine ⟨hinv.nodup, by simp, fun a ha b hb heq => ?_⟩
      rw [heq, List.mem_singleton.mp hb, hinv.removed] at ha
      exact ha.2 hc
    · show h.closes ++ ((h.maps.removeClient ids c).2 ++ rest).filterMap _ = _
      rw [hfst, List.filterMap_append, hclosing, hquiet₁, List.append_nil, hcloses]
    · show List.Forall₂ Notice _
        (h.disconnects ++ ((h.maps.removeClient ids c).2 ++ rest).filterMap _)
      rw [hgone, List.filterMap_append, hnotice, hquiet₂, List.append_nil]
      refine List.rel_append hnotices (.cons ⟨rfl, hids.1, fun r => ?_⟩ .nil)
      show r ∈ ids ↔ c ∈ h.maps.rooms.members r
      rw [hinv.maps.rooms, ← List.mem_toFinset, hids.2]
      exact ⟨fun hr => ⟨hc, hr⟩, And.right⟩
  · have heq : h.remove c ids rest = { h with todo := rest } := by
      unfold HubRun.remove
      rw [Maps.removeClient_of_not_mem hc, if_neg hc]
      rfl
    rw [heq]
    refine ⟨hinv.maps, hinv.clients, hinv.rooms, hpair, hnodup, fun c' hc' => (hmembers c' hc').1,
      hinv.removed, hinv.nodup, ?_, ?_, hinv.closed, hinv.calm⟩
    · simpa [hquiet₁] using hcloses
    · simpa [hquiet₂] using hnotices

/-! ## Tasks -/

theorem Inv.deliver {k : Kind} {id : UUID} {payload : Event} {rest : List HubTask}
    {ids : List UUID} (hinv : h.Inv) (htodo : h.todo = .deliver k id payload c :: rest)
    (hs : h.deliver payload c rest ids = some h') : h'.Inv := by
  have hlast := hinv.last
  have hrecv := hinv.receivers
  have hmembers := hinv.members
  rw [htodo] at hlast hrecv hmembers
  have hrest : ∀ t ∈ rest, t.receiver.isSome :=
    fun t ht => List.rel_of_pairwise_cons hlast ht rfl
  have hall : ∀ t ∈ h.todo, t.receiver.isSome := by
    rw [htodo]
    exact List.forall_mem_cons.mpr ⟨rfl, hrest⟩
  have hnodup : c ∉ rest.filterMap HubTask.receiver ∧ (rest.filterMap HubTask.receiver).Nodup :=
    List.nodup_cons.mp hrecv
  have hc : c ∈ h.maps.clients := hmembers c List.mem_cons_self
  have hothers : ∀ c' ∈ rest.filterMap HubTask.receiver, c' ∈ h.maps.clients :=
    fun c' hc' => hmembers c' (List.mem_cons_of_mem _ hc')
  have hopen := hinv.open hc
  unfold HubRun.deliver at hs
  split at hs
  · rename_i ch hch
    cases hs
    have hcloses := hinv.closes
    have hnotices := hinv.notices
    rw [htodo] at hcloses hnotices
    refine ⟨hinv.maps, hinv.clients, hinv.rooms, hlast.tail, hnodup.2, hothers, hinv.removed,
      hinv.nodup, hcloses, hnotices, fun c' => ?_, hinv.calm⟩
    by_cases heq : c' = c
    · subst heq
      rw [← hinv.closed, Chan.trySend_ok hch]
      simp
    · simpa [heq] using hinv.closed c'
  · split_ifs at hs with hids
    cases hs
    refine hinv.remove hids hrest hnodup.2 (fun c' hc' => ⟨hothers c' hc', ?_⟩)
      (delivers_quiet hall)
    rintro rfl
    exact hnodup.1 hc'
  · rename_i hch
    rw [Chan.trySend_panic hch] at hopen
    cases hopen

/-- What is left after a task that is not a delivery. -/
theorem Inv.pop {t : HubTask} {rest : List HubTask} (hinv : h.Inv) (htodo : h.todo = t :: rest)
    (ht : t.receiver = none) :
    rest.Pairwise DeliversLast ∧ (rest.filterMap HubTask.receiver).Nodup ∧
      ∀ c ∈ rest.filterMap HubTask.receiver, c ∈ h.maps.clients := by
  have hlast := hinv.last
  have hrecv := hinv.receivers
  have hmembers := hinv.members
  rw [htodo] at hlast hrecv hmembers
  rw [List.filterMap_cons_none ht] at hrecv hmembers
  exact ⟨hlast.tail, hrecv, hmembers⟩

theorem Inv.closeSend {rest : List HubTask} (hinv : h.Inv)
    (htodo : h.todo = .closeSend c :: rest) : (h.closeSend c rest).Inv := by
  obtain ⟨hlast, hrecv, hmembers⟩ := hinv.pop htodo rfl
  have hcloses := hinv.closes
  have hnotices := hinv.notices
  have hnodup := hinv.nodup
  rw [htodo] at hcloses hnotices
  rw [← hcloses] at hnodup
  have hopen : (h.send c).closed = false := by
    by_contra hclosed
    have hmem : c ∈ h.closes := (hinv.closed c).mp (by simpa using hclosed)
    exact (List.nodup_append.mp hnodup).2.2 c hmem c List.mem_cons_self rfl
  refine ⟨hinv.maps, hinv.clients, hinv.rooms, hlast, hrecv, hmembers, hinv.removed, hinv.nodup,
    ?_, hnotices, fun c' => ?_, ?_⟩
  · show (h.closes ++ [c]) ++ rest.filterMap HubTask.closing = h.removals.map Prod.fst
    rw [← hcloses, List.append_assoc]
    rfl
  · show (Function.update h.send c _ c').closed = true ↔ c' ∈ h.closes ++ [c]
    by_cases heq : c' = c
    · subst heq
      simp
    · simpa [heq] using hinv.closed c'
  · show (h.panicked || (h.send c).closed) = false
    rw [hinv.calm, hopen]
    rfl

theorem Inv.task {ids : List UUID} (hinv : h.Inv) (hs : h.task ids = some h') : h'.Inv := by
  unfold HubRun.task at hs
  split at hs
  · cases hs
  · exact hinv.deliver ‹_› hs
  · rename_i htodo
    cases hs
    obtain ⟨hlast, hrecv, hmembers⟩ := hinv.pop htodo rfl
    have hcloses := hinv.closes
    have hnotices := hinv.notices
    rw [htodo] at hcloses hnotices
    exact ⟨hinv.maps, hinv.clients, hinv.rooms, hlast, hrecv, hmembers, hinv.removed, hinv.nodup,
      hcloses, hnotices, hinv.closed, hinv.calm⟩
  · cases hs
    exact hinv.closeSend ‹_›
  · rename_i u rooms rest htodo
    cases hs
    obtain ⟨hlast, hrecv, hmembers⟩ := hinv.pop htodo rfl
    have hcloses := hinv.closes
    have hnotices := hinv.notices
    rw [htodo] at hcloses hnotices
    refine ⟨hinv.maps, hinv.clients, hinv.rooms, hlast, hrecv, hmembers, hinv.removed, hinv.nodup,
      hcloses, ?_, hinv.closed, hinv.calm⟩
    show List.Forall₂ Notice _ ((h.disconnects ++ [(u, rooms)]) ++ _)
    rw [List.append_assoc]
    exact hnotices

theorem Inv.step {a : HubAction} (hinv : h.Inv) (hs : h.step a = some h') : h'.Inv := by
  cases a with
  | register c =>
    simp only [HubRun.step] at hs
    split_ifs at hs with hok
    cases hs
    exact hinv.register hok.1 hok.2
  | unregister c ids =>
    simp only [HubRun.step] at hs
    split_ifs at hs with hok
    cases hs
    exact hinv.remove hok.2 (by simp) (by simp) (by simp) (by simp [hok.1])
  | join c r =>
    simp only [HubRun.step] at hs
    split_ifs at hs with htodo
    cases hs
    exact hinv.join htodo
  | leave c r =>
    simp only [HubRun.step] at hs
    split_ifs at hs with htodo
    cases hs
    exact hinv.leave htodo
  | broadcast k id payload order =>
    simp only [HubRun.step] at hs
    split_ifs at hs with hok
    cases hs
    exact hinv.broadcast hok.1 hok.2
  | task ids => exact hinv.task hs
  | queue c buffer =>
    cases hs
    refine ⟨hinv.maps, hinv.clients, hinv.rooms, hinv.last, hinv.receivers, hinv.members,
      hinv.removed, hinv.nodup, hinv.closes, hinv.notices, fun c' => ?_, hinv.calm⟩
    rw [← hinv.closed]
    by_cases heq : c' = c
    · subst heq
      simp
    · simp [heq]

theorem inv_reach (hrun : Reach HubRun.step Unguarded HubRun.new h) : h.Inv :=
  hrun.invariant Inv (fun _ _ _ hinv _ hs => hinv.step hs) inv_new

end HubRun

/-- In every state of the Hub the indexes agree with `clients` and hold no empty
    set; and whenever the Hub waits for its next command, the closed queues are those
    of the clients that were registered and removed, each closed once, and each of
    them was reported once, with the rooms it was in. -/
theorem hub_indexes_agree (h : HubRun) (hrun : Reach HubRun.step Unguarded HubRun.new h) :
    (∀ r c, c ∈ h.maps.rooms.members r ↔ c ∈ h.maps.clients ∧ r ∈ h.maps.clientRooms c) ∧
    (∀ u c, c ∈ h.maps.users.members u ↔ c ∈ h.maps.clients ∧ c.userID = u) ∧
    (∀ r, h.maps.rooms r ≠ some ∅) ∧ (∀ u, h.maps.users u ≠ some ∅) ∧
    h.closes.Nodup ∧ h.panicked = false ∧
    (h.todo = [] →
      (∀ c, (h.send c).closed = true ↔ c ∈ h.registered ∧ c ∉ h.maps.clients) ∧
      h.closes = h.removals.map Prod.fst ∧
      (∀ c, c ∈ h.removals.map Prod.fst ↔ c ∈ h.registered ∧ c ∉ h.maps.clients) ∧
      List.Forall₂ Notice h.removals h.disconnects) := by
  have hinv := HubRun.inv_reach hrun
  have hcloses := hinv.closes
  have hnotices := hinv.notices
  have hnodup := hinv.nodup
  rw [← hcloses] at hnodup
  refine ⟨hinv.maps.rooms, hinv.maps.users, hinv.maps.trim_rooms, hinv.maps.trim_users,
    (List.nodup_append.mp hnodup).1, hinv.calm, fun htodo => ?_⟩
  rw [htodo, List.filterMap_nil, List.append_nil] at hcloses hnotices
  refine ⟨fun c => ?_, hcloses, hinv.removed, hnotices⟩
  rw [hinv.closed, hcloses]
  exact hinv.removed c

/-- A client registers, joins room 5 and is unregistered. -/
def visit : List HubAction :=
  [.register early, .join early 5, .unregister early [5], .task [], .task [], .task [], .task []]

def afterVisit : HubRun := (exec HubRun.step HubRun.new visit).getD HubRun.new

theorem hub_indexes_agree_visit :
    afterVisit.todo = [] ∧ afterVisit.disconnects = [(1, [5])] ∧
      (∀ c, (afterVisit.send c).closed = true ↔ c ∈ afterVisit.registered ∧
        c ∉ afterVisit.maps.clients) := by
  have hexec : exec HubRun.step HubRun.new visit = some afterVisit := rfl
  have hrun := Reach.of_exec (meets_unguarded HubRun.step _ visit) hexec
  exact ⟨rfl, rfl, ((hub_indexes_agree afterVisit hrun).2.2.2.2.2.2 rfl).1⟩

/-! ## The Hub of a server -/

/-- The Hub of the server is where `h` is. -/
structure Follows (s : Server) (h : HubRun) : Prop where
  maps : h.maps = s.hub.maps
  todo : h.todo = s.hub.todo
  send : h.send = s.send
  registered : ∀ c ∈ h.registered, Registered s.hub s.thread c

section

variable {parse : String → Option UUID} {s s' : Server} {a : Action} {h : HubRun}

/-- The step of the server is the step `b` of its Hub. -/
theorem Follows.step {h' : HubRun} (hfol : Follows s h) (hmove : Move parse s a s')
    (hlife : Life s.hub s.thread) {b : HubAction} (hs : h.step b = some h')
    (hmaps : h'.maps = s'.hub.maps) (htodo : h'.todo = s'.hub.todo) (hsend : h'.send = s'.send)
    (hreg : h'.registered = h.registered) :
    ∃ h', Reach HubRun.step Unguarded h h' ∧ Follows s' h' := by
  refine ⟨h', Reach.single trivial hs, hmaps, htodo, hsend, fun c hc => ?_⟩
  rw [hreg] at hc
  exact hmove.registered hlife (hfol.registered c hc)

theorem Follows.stutter (hfol : Follows s h) (hmove : Move parse s a s')
    (hlife : Life s.hub s.thread) (hmaps : s'.hub.maps = s.hub.maps)
    (htodo : s'.hub.todo = s.hub.todo) (hsend : s'.send = s.send) :
    ∃ h', Reach HubRun.step Unguarded h h' ∧ Follows s' h' := by
  refine ⟨h, .refl, by rw [hmaps]; exact hfol.maps, by rw [htodo]; exact hfol.todo,
    by rw [hsend]; exact hfol.send, fun c hc => ?_⟩
  exact hmove.registered hlife (hfol.registered c hc)

/-- A reply that `sendError` puts on the queue, or does not. -/
theorem enqueue_send (s : Server) (c : Client) (e : Event) :
    (s.enqueue c e).send = s.send ∨
      ∃ buffer, (s.enqueue c e).send = Function.update s.send c { s.send c with buffer } := by
  unfold Server.enqueue
  split
  · rename_i ch hch
    exact .inr ⟨_, by rw [Chan.trySend_ok hch]⟩
  · exact .inl rfl
  · exact .inl rfl

theorem Move.follows (hmove : Move parse s a s') (hlife : Life s.hub s.thread)
    (hfol : Follows s h) : ∃ h', Reach HubRun.step Unguarded h h' ∧ Follows s' h' := by
  have hm := hmove
  cases hmove with
  | quiet hsame =>
    exact hfol.stutter hm hlife (by rw [hsame.hub]) (by rw [hsame.hub]) hsame.send
  | sendError hc =>
    rename_i c env code message k
    rcases enqueue_send s c (.error code message) with heq | ⟨buffer, heq⟩
    · refine hfol.stutter hm hlife ?_ ?_ heq
      · show (s.enqueue c _).hub.maps = _
        rw [enqueue_hub]
      · show (s.enqueue c _).hub.todo = _
        rw [enqueue_hub]
    · refine hfol.step hm hlife (b := .queue c buffer) rfl ?_ ?_ ?_ rfl
      · show h.maps = (s.enqueue c _).hub.maps
        rw [enqueue_hub, hfol.maps]
      · show h.todo = (s.enqueue c _).hub.todo
        rw [enqueue_hub, hfol.todo]
      · show Function.update h.send c _ = (s.enqueue c _).send
        rw [heq, hfol.send]
  | write _ _ =>
    rename_i c e rest _ _
    refine hfol.step hm hlife (b := .queue c rest) rfl hfol.maps hfol.todo ?_ rfl
    show Function.update h.send c _ = Function.update s.send c _
    rw [hfol.send]
  | hubRegister htodo hreg =>
    rename_i c rest
    have hfresh : c ∉ h.registered := fun hc => (hfol.registered c hc).2 (by simp [hreg])
    refine ⟨_, Reach.single (a := .register c) trivial (if_pos ⟨hfol.todo.trans htodo, hfresh⟩),
      ?_, hfol.todo, hfol.send, fun c' hc' => ?_⟩
    · show h.maps.registerClient c = s.hub.maps.registerClient c
      rw [hfol.maps]
    · rcases Finset.mem_insert.mp hc' with rfl | hc'
      · exact (hm.life hlife).clients c' (Finset.mem_insert_self c' s.hub.maps.clients)
      · exact hm.registered hlife (hfol.registered c' hc')
  | hubUnregister htodo _ hids =>
    rename_i ids c rest _
    have hids' : Server.Lists ids (h.maps.clientRooms c) := by
      rw [hfol.maps]
      exact hids
    refine hfol.step hm hlife (b := .unregister c ids)
      (if_pos ⟨hfol.todo.trans htodo, hids'⟩) ?_ ?_ hfol.send rfl
    · show (h.maps.removeClient ids c).1 = _
      rw [hfol.maps]
    · show (h.maps.removeClient ids c).2 ++ [] = _
      rw [hfol.maps, List.append_nil]
  | hubJoin htodo _ =>
    rename_i c r rest _
    refine hfol.step hm hlife (b := .join c r) (if_pos (hfol.todo.trans htodo)) ?_ hfol.todo
      hfol.send rfl
    show h.maps.addToRoom c r = _
    rw [hfol.maps]
  | hubLeave htodo _ =>
    rename_i c r rest _
    refine hfol.step hm hlife (b := .leave c r) (if_pos (hfol.todo.trans htodo)) ?_ ?_
      hfol.send rfl
    · show (h.maps.removeFromRoom c r).1 = _
      rw [hfol.maps]
    · show (h.maps.removeFromRoom c r).2 = _
      rw [hfol.maps]
  | hubBroadcast htodo _ horder =>
    rename_i k order id payload rest _
    have horder' : Server.Lists order ((h.maps.index k).members id) := by
      rw [hfol.maps]
      exact horder
    exact hfol.step hm hlife (b := .broadcast k id payload order)
      (if_pos ⟨hfol.todo.trans htodo, horder'⟩) hfol.maps rfl hfol.send rfl
  | delivered htodo hch =>
    rename_i ids k id payload c rest ch
    have hs : h.step (.task ids) =
        some { h with send := Function.update h.send c ch, todo := rest } := by
      simp only [HubRun.step, HubRun.task, HubRun.deliver, hfol.todo, hfol.send, htodo, hch]
    refine hfol.step hm hlife hs hfol.maps rfl ?_ rfl
    show Function.update h.send c ch = Function.update s.send c ch
    rw [hfol.send]
  | dropped htodo hch hids =>
    rename_i ids k id payload c rest
    have hs : h.step (.task ids) = some (h.remove c ids rest) := by
      simp only [HubRun.step, HubRun.task, HubRun.deliver, hfol.todo, hfol.send, hfol.maps, htodo,
        hch, if_pos hids]
    refine hfol.step hm hlife hs ?_ ?_ hfol.send rfl
    · show (h.maps.removeClient ids c).1 = _
      rw [hfol.maps]
    · show (h.maps.removeClient ids c).2 ++ rest = _
      rw [hfol.maps]
  | unsubscribe htodo =>
    rename_i ids k id rest
    have hs : h.step (.task ids) = some { h with todo := rest } := by
      simp only [HubRun.step, HubRun.task, hfol.todo, htodo]
    exact hfol.step hm hlife hs hfol.maps rfl hfol.send rfl
  | closeSend htodo =>
    rename_i ids c rest
    by_cases hclosed : (s.send c).closed = true
    · have heq : s.closeSend c rest = { s with panicked := true } := if_pos hclosed
      rw [heq] at hm ⊢
      exact hfol.stutter hm hlife rfl rfl rfl
    · have heq : s.closeSend c rest = { s with
          send := Function.update s.send c { s.send c with closed := true }
          hub := { s.hub with todo := rest } } := if_neg hclosed
      rw [heq] at hm ⊢
      have hs : h.step (.task ids) = some (h.closeSend c rest) := by
        simp only [HubRun.step, HubRun.task, hfol.todo, htodo]
      refine hfol.step hm hlife hs hfol.maps rfl ?_ rfl
      show Function.update h.send c _ = Function.update s.send c _
      rw [hfol.send]
  | disconnected htodo =>
    rename_i ids u rooms rest
    have hs : h.step (.task ids) =
        some { h with disconnects := h.disconnects ++ [(u, rooms)], todo := rest } := by
      simp only [HubRun.step, HubRun.task, hfol.todo, htodo]
    exact hfol.step hm hlife hs hfol.maps rfl hfol.send rfl
  | brokerApply _ =>
    exact hfol.stutter hm hlife (by rw [brokerApply_hub]) (by rw [brokerApply_hub])
      (brokerApply_send ..)
  | _ => exact hfol.stutter hm hlife rfl rfl rfl

/-- What holds in every state of the free Hub holds of the Hub of every server. -/
theorem Server.reach_hubRun {ok : Server → Action → Prop}
    (hrun : Reach (Server.step parse) ok Server.new s) :
    ∃ h, Reach HubRun.step Unguarded HubRun.new h ∧ Follows s h := by
  have hinv : Life s.hub s.thread ∧ ∃ h, Reach HubRun.step Unguarded HubRun.new h ∧ Follows s h :=
    hrun.invariant
      (fun s => Life s.hub s.thread ∧
        ∃ h, Reach HubRun.step Unguarded HubRun.new h ∧ Follows s h)
      (fun _ _ _ hinv _ hs => by
        obtain ⟨hlife, h, hreach, hfol⟩ := hinv
        have hmove := (Server.step_move hs).2
        obtain ⟨h', hreach', hfol'⟩ := hmove.follows hlife hfol
        exact ⟨hmove.life hlife, h', hreach.trans hreach', hfol'⟩)
      ⟨life_new, HubRun.new, .refl, rfl, rfl, rfl, by simp [HubRun.new]⟩
  exact hinv.2

end

end ConvoyChat.Websocket
