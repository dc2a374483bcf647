import Rioring.Chat.Callbacks

/-! The chat server: its sockets on an `io_service`, the callbacks it registers, and
the pool of its clients. -/

namespace rioring

open World Service

namespace Chat

/-- A receive callback that has not returned: what its array holds, and the messages
    that it still has to send to every client. -/
structure Turn where
  array : List UInt8 := new_array
  output : List (List UInt8) := []

/-- A `pool::chat_all` that has not returned, and so holds the lock of the pool: the
    socket of the callback that called it, the message, and the clients that it has
    still to send it to. -/
structure Broadcast where
  speaker : ObjectId
  response : Bytes
  todo : List ObjectId

/-- The process of the chat server. `clients` is the pool, `names` are those of the
    `client` objects. -/
structure Server where
  service : Service
  turns : ObjectId → Option Turn := fun _ => none
  clients : List ObjectId := []
  names : ObjectId → List UInt8 := fun _ => []
  name_id : Nat := 1
  broadcast : Option Broadcast := none
  /-- the messages that the callbacks of each socket have popped -/
  taken : ObjectId → List (List UInt8) := fun _ => []
  /-- whether the last callback of a socket has refused a message -/
  refused : ObjectId → Bool := fun _ => false
  /-- the calls of `chat_all` so far: whose callback it was, and the message -/
  log : List (ObjectId × Bytes) := []
  /-- how many of them had passed each socket when it was made active -/
  joined : ObjectId → Nat := fun _ => 0

/-- What can happen next: a step of the service, or a part of one of the callbacks.
    `ring` is the ring that the submissions of the step go to. -/
inductive ServerEvent where
  | service (e : ServiceEvent)
  | on_accept (context : ContextId) (ring : Nat)
  | pass (socket : ObjectId) (ring : Nat) (sqe : Bool)
  | chat_all (socket : ObjectId) (order : List ObjectId)
  | send (ring : Nat)
  | send_locked (ring : Nat) (sqe : Bool)
  | sent_all
  | on_close (socket : ObjectId)

/-- The step of the service that an event is, if any. -/
def ServerEvent.library : ServerEvent → Option ServiceEvent
  | .service e => some e
  | _ => none

/-- `"client" + std::to_string( name_id )` -/
def client_name (name_id : Nat) : List UInt8 :=
  ("client" ++ toString (signed (name_id % 2 ^ 32))).toList.map fun c => UInt8.ofNat c.toNat

namespace Server

variable (p : Platform) (concurrency : Nat)

def world (s : Server) : World := s.service.world

/-- The socket that an accept callback has been given and has not returned from. -/
def accepted (s : Server) (c : ContextId) : Option ObjectId :=
  ((s.world.handling.find? (·.context = c)).bind (·.accepting)).map (·.2)

/-- The close callback of a socket has been called and has not taken it from the pool. -/
def closing (s : Server) (j : ObjectId) : Bool :=
  (s.world.history j).callbacks.contains .close && s.clients.contains j

/-- What the server does of the library's operations outside of the callbacks, and
    which handlers can go on: that of an accept goes on when `on_accept` has
    returned, that of a receive returns after its callback. -/
def obeys (s : Server) : Event → Bool
  | .create_server | .run .. | .stop .. | .close .. | .complete .. => true
  | .set_event i _ _ => (s.world.servers i).isSome
  | .resume c _ _ => (s.accepted c).all s.clients.contains
  | .finish c =>
    match (s.world.contexts c).type, (s.world.contexts c).handler with
    | .read, some j => (s.turns j).isNone && !s.closing j
    | _, _ => true
  | _ => false

/-- Whether a step has made a socket active. -/
def activated_since (w w' : World) (j : ObjectId) : Bool :=
  (w.sockets j).isSome && (w'.history j).activations != (w.history j).activations

/-- The clients that the call of `chat_all` under way has still to come to. -/
def todo (s : Server) : List ObjectId := s.broadcast.elim [] (·.todo)

/-- The calls of `chat_all` that have passed a socket: all but the one that has still
    to come to it. -/
def passed (s : Server) (j : ObjectId) : Nat := s.log.length - (s.todo.contains j).toNat

/-- `io_service::stop` may be called at any time. -/
def allows (s : Server) : ServiceEvent → Bool
  | .process e _ => s.obeys e
  | .stop | .cancelled _ => true

/-- A step of the service. The receive callbacks it calls begin. -/
def library (s : Server) (e : ServiceEvent) : Option Server :=
  if s.allows e then do
    let service ← s.service.step p concurrency e
    let begins := received_since s.world service.world
    some { s with
      service
      turns := fun j => if begins j then some {} else s.turns j
      refused := fun j => if begins j then false else s.refused j
      joined := fun j => if activated_since s.world service.world j then s.passed j else s.joined j }
  else none

/-- `event_receiver::on_accept`, with the constructor of `client`. -/
def on_accept (s : Server) (c : ContextId) (ring : Nat) : Option Server := do
  let j ← s.accepted c
  if s.broadcast.isNone && !s.clients.contains j then do
    let service ← s.service.process p concurrency (.set_event j .error true) ring
    let service ← service.process p concurrency (.set_event j .receive true) ring
    let service ← service.process p concurrency (.set_event j .close true) ring
    some { s with
      service
      clients := s.clients ++ [j]
      names := Function.update s.names j (client_name s.name_id)
      name_id := s.name_id + 1 }
  else none

/-- A message has been popped by the callback of a socket. -/
def pop (s : Server) (j : ObjectId) (buffer : IoBuffer) (size ring : Nat) : Option Server := do
  let service ← s.service.process p concurrency (.pop j size) ring
  some { s with
    service
    taken := Function.update s.taken j (s.taken j ++ [buffer.contents.take size]) }

/-- One pass through the loop of `event_receiver::on_receive`, when `chat_all` has
    returned for the message before. -/
def pass (s : Server) (j : ObjectId) (ring : Nat) (sqe : Bool) : Option Server := do
  let turn ← s.turns j
  let sock ← s.world.sockets j
  if turn.output.isEmpty && s.broadcast.all (·.speaker ≠ j) then
    match (event_receiver (s.names j)).pass sock.recv_buffer turn.array with
    | .error _ => none
    | .ok .waits => some { s with turns := Function.update s.turns j none }
    | .ok (.refuses size) => do
      let s ← s.pop p concurrency j sock.recv_buffer size ring
      let service ← s.service.process p concurrency (.close j .force sqe) ring
      some { s with
        service
        turns := Function.update s.turns j none
        refused := Function.update s.refused j true }
    | .ok (.handles array size output) => do
      let s ← s.pop p concurrency j sock.recv_buffer size ring
      some { s with turns := Function.update s.turns j (some { array, output }) }
  else none

/-- `pool::chat_all` has the lock. The clients come in the order of the hash table. -/
def chat_all (s : Server) (j : ObjectId) (order : List ObjectId) : Option Server := do
  let turn ← s.turns j
  match turn.output with
  | [] => none
  | response :: output =>
    if h : s.broadcast.isNone ∧ order.isPerm s.clients ∧ response.length ≤ PTRDIFF_MAX then
      some { s with
        turns := Function.update s.turns j (some { turn with output })
        broadcast := some { speaker := j, response := ⟨response, h.2.2⟩, todo := order }
        log := s.log ++ [(j, ⟨response, h.2.2⟩)] }
    else none

/-- The guard of the `send` to the next client. -/
def send (s : Server) (ring : Nat) : Option Server := do
  let broadcast ← s.broadcast
  match broadcast.todo with
  | [] => none
  | j :: todo =>
    if s.world.sends.isEmpty then do
      let service ← s.service.process p concurrency (.send j broadcast.response) ring
      some { s with service, broadcast := some { broadcast with todo } }
    else none

/-- The locked body of that `send`. -/
def send_locked (s : Server) (ring : Nat) (sqe : Bool) : Option Server := do
  let _ ← s.broadcast
  let service ← s.service.process p concurrency (.send_locked 0 sqe) ring
  some { s with service }

/-- `chat_all` releases the lock. -/
def sent_all (s : Server) : Option Server := do
  let broadcast ← s.broadcast
  if broadcast.todo.isEmpty && s.world.sends.isEmpty then some { s with broadcast := none } else none

/-- `event_receiver::on_close`. -/
def on_close (s : Server) (j : ObjectId) : Option Server :=
  if s.broadcast.isNone && s.closing j then some { s with clients := s.clients.erase j } else none

def step (s : Server) : ServerEvent → Option Server
  | .service e => s.library p concurrency e
  | .on_accept c ring => s.on_accept p concurrency c ring
  | .pass j ring sqe => s.pass p concurrency j ring sqe
  | .chat_all j order => s.chat_all j order
  | .send ring => s.send p concurrency ring
  | .send_locked ring sqe => s.send_locked p concurrency ring sqe
  | .sent_all => s.sent_all
  | .on_close j => s.on_close j

end Server

/-- The chat server with its `io_service` running. -/
def server (p : Platform) (concurrency : Nat) : Machine Server ServerEvent where
  init := { service := { world := World.start p } }
  step := Server.step p concurrency

namespace Server

variable {p : Platform} {concurrency : Nat} {s t : Server} {j : ObjectId} {ring : Nat} {sqe : Bool}

theorem library_spec {e : ServiceEvent} (hstep : s.library p concurrency e = some t) :
    s.allows e = true ∧
      (rioring.service p concurrency).step s.service e = some t.service ∧
      t = { s with
        service := t.service
        turns := fun j => if received_since s.world t.world j then some {} else s.turns j
        refused := fun j => if received_since s.world t.world j then false else s.refused j
        joined := fun j =>
          if activated_since s.world t.world j then s.passed j else s.joined j } := by
  obtain ⟨hallows, service, hservice, rfl⟩ := allowed_step hstep
  exact ⟨hallows, hservice, rfl⟩

theorem on_accept_spec {c : ContextId} (hstep : s.on_accept p concurrency c ring = some t) :
    ∃ j, s.accepted c = some j ∧ s.broadcast = none ∧ j ∉ s.clients ∧ ∃ s₁ s₂,
      s.service.process p concurrency (.set_event j .error true) ring = some s₁ ∧
      s₁.process p concurrency (.set_event j .receive true) ring = some s₂ ∧
      s₂.process p concurrency (.set_event j .close true) ring = some t.service ∧
      t = { s with
        service := t.service
        clients := s.clients ++ [j]
        names := Function.update s.names j (client_name s.name_id)
        name_id := s.name_id + 1 } := by
  obtain ⟨j, hj, hstep⟩ := Option.bind_eq_some_iff.mp hstep
  split at hstep
  · rename_i hguard
    simp only [Bool.and_eq_true, Option.isNone_iff_eq_none, Bool.not_eq_true',
      List.contains_eq_mem, decide_eq_false_iff_not] at hguard
    obtain ⟨s₁, h₁, hstep⟩ := Option.bind_eq_some_iff.mp hstep
    obtain ⟨s₂, h₂, hstep⟩ := Option.bind_eq_some_iff.mp hstep
    obtain ⟨s₃, h₃, hstep⟩ := Option.bind_eq_some_iff.mp hstep
    cases hstep
    exact ⟨j, hj, hguard.1, hguard.2, s₁, s₂, h₁, h₂, h₃, rfl⟩
  · cases hstep

theorem pop_spec {buffer : IoBuffer} {size : Nat}
    (hstep : s.pop p concurrency j buffer size ring = some t) :
    s.service.process p concurrency (.pop j size) ring = some t.service ∧
      t = { s with
        service := t.service
        taken := Function.update s.taken j (s.taken j ++ [buffer.contents.take size]) } := by
  obtain ⟨service, hservice, hstep⟩ := Option.bind_eq_some_iff.mp hstep
  cases hstep
  exact ⟨hservice, rfl⟩

/-- What a pass does: it leaves the loop, it pops a message that it refuses, and
    closes the socket, or it pops one and goes on. -/
theorem pass_step_spec (hstep : s.pass p concurrency j ring sqe = some t) :
    ∃ turn sock result, s.turns j = some turn ∧ s.world.sockets j = some sock ∧ turn.output = [] ∧
      (event_receiver (s.names j)).pass sock.recv_buffer turn.array = .ok result ∧
      ((result = .waits ∧ t = { s with turns := Function.update s.turns j none }) ∨
        (∃ size u, result = .refuses size ∧
          s.pop p concurrency j sock.recv_buffer size ring = some u ∧
          u.service.process p concurrency (.close j .force sqe) ring = some t.service ∧
          t = { u with
            service := t.service
            turns := Function.update s.turns j none
            refused := Function.update s.refused j true }) ∨
        ∃ array size output u, result = .handles array size output ∧
          s.pop p concurrency j sock.recv_buffer size ring = some u ∧
          t = { u with turns := Function.update s.turns j (some { array, output }) }) := by
  obtain ⟨turn, hturn, hstep⟩ := Option.bind_eq_some_iff.mp hstep
  obtain ⟨sock, hsock, hstep⟩ := Option.bind_eq_some_iff.mp hstep
  split at hstep
  · rename_i hguard
    rw [Bool.and_eq_true, List.isEmpty_iff] at hguard
    cases hpass : (event_receiver (s.names j)).pass sock.recv_buffer turn.array with
    | error fault =>
      rw [hpass] at hstep
      cases hstep
    | ok result =>
      rw [hpass] at hstep
      refine ⟨turn, sock, result, hturn, hsock, hguard.1, hpass, ?_⟩
      cases result with
      | waits =>
        cases hstep
        exact .inl ⟨rfl, rfl⟩
      | refuses size =>
        obtain ⟨u, hpop, hstep⟩ := Option.bind_eq_some_iff.mp hstep
        obtain ⟨service, hclose, hstep⟩ := Option.bind_eq_some_iff.mp hstep
        cases hstep
        refine .inr (.inl ⟨size, u, rfl, hpop, hclose, ?_⟩)
        rw [(pop_spec hpop).2]
      | handles array size output =>
        obtain ⟨u, hpop, hstep⟩ := Option.bind_eq_some_iff.mp hstep
        cases hstep
        refine .inr (.inr ⟨array, size, output, u, rfl, hpop, ?_⟩)
        rw [(pop_spec hpop).2]
  · cases hstep

theorem chat_all_spec {order : List ObjectId} (hstep : s.chat_all j order = some t) :
    ∃ turn output, ∃ response : Bytes, s.turns j = some turn ∧ s.broadcast = none ∧
      order.Perm s.clients ∧ turn.output = response.val :: output ∧
      t = { s with
        turns := Function.update s.turns j (some { turn with output })
        broadcast := some { speaker := j, response, todo := order }
        log := s.log ++ [(j, response)] } := by
  obtain ⟨turn, hturn, hstep⟩ := Option.bind_eq_some_iff.mp hstep
  cases houtput : turn.output with
  | nil =>
    rw [houtput] at hstep
    cases hstep
  | cons response output =>
    rw [houtput] at hstep
    dsimp only at hstep
    split at hstep
    · rename_i hguard
      cases hstep
      exact ⟨turn, output, ⟨response, hguard.2.2⟩, hturn, Option.isNone_iff_eq_none.mp hguard.1,
        List.isPerm_iff.mp hguard.2.1, houtput, rfl⟩
    · cases hstep

theorem send_spec (hstep : s.send p concurrency ring = some t) :
    ∃ broadcast j todo, s.broadcast = some broadcast ∧ broadcast.todo = j :: todo ∧
      s.world.sends = [] ∧
      s.service.process p concurrency (.send j broadcast.response) ring = some t.service ∧
      t = { s with service := t.service, broadcast := some { broadcast with todo } } := by
  obtain ⟨broadcast, hbroadcast, hstep⟩ := Option.bind_eq_some_iff.mp hstep
  cases htodo : broadcast.todo with
  | nil =>
    rw [htodo] at hstep
    cases hstep
  | cons j todo =>
    rw [htodo] at hstep
    dsimp only at hstep
    split at hstep
    · rename_i hsends
      obtain ⟨service, hservice, hstep⟩ := Option.bind_eq_some_iff.mp hstep
      cases hstep
      exact ⟨broadcast, j, todo, hbroadcast, htodo, List.isEmpty_iff.mp hsends, hservice, rfl⟩
    · cases hstep

theorem send_locked_spec (hstep : s.send_locked p concurrency ring sqe = some t) :
    ∃ broadcast, s.broadcast = some broadcast ∧
      s.service.process p concurrency (.send_locked 0 sqe) ring = some t.service ∧
      t = { s with service := t.service } := by
  obtain ⟨broadcast, hbroadcast, hstep⟩ := Option.bind_eq_some_iff.mp hstep
  obtain ⟨service, hservice, hstep⟩ := Option.bind_eq_some_iff.mp hstep
  cases hstep
  exact ⟨broadcast, hbroadcast, hservice, rfl⟩

theorem sent_all_spec (hstep : s.sent_all = some t) : ∃ broadcast, s.broadcast = some broadcast ∧
    broadcast.todo = [] ∧ s.world.sends = [] ∧ t = { s with broadcast := none } := by
  obtain ⟨broadcast, hbroadcast, hstep⟩ := Option.bind_eq_some_iff.mp hstep
  split at hstep
  · rename_i hguard
    rw [Bool.and_eq_true, List.isEmpty_iff, List.isEmpty_iff] at hguard
    cases hstep
    exact ⟨broadcast, hbroadcast, hguard.1, hguard.2, rfl⟩
  · cases hstep

theorem on_close_spec (hstep : s.on_close j = some t) : s.broadcast = none ∧ s.closing j = true ∧
    t = { s with clients := s.clients.erase j } := by
  unfold on_close at hstep
  split at hstep
  · rename_i hguard
    rw [Bool.and_eq_true, Option.isNone_iff_eq_none] at hguard
    cases hstep
    exact ⟨hguard.1, hguard.2, rfl⟩
  · cases hstep

/-- The server makes no socket active by a call. -/
theorem obeys_accepts_only {e : Event} (hobeys : s.obeys e = true) (i : ObjectId) :
    e.activates i = false := by
  cases e <;> first | rfl | cases hobeys

/-- Beside its callbacks the server is an `io_service`. -/
theorem serves : Program p concurrency (server p concurrency) Server.service ServerEvent.library
    (fun _ => True) accepts_only called where
  start := rfl
  hosts s e e' t hlibrary hstep := by
    change s.step p concurrency e = some t at hstep
    cases e with
    | service e =>
      cases hlibrary
      obtain ⟨hallows, hservice, _⟩ := library_spec hstep
      refine ⟨?_, hservice⟩
      cases e' with
      | process e k => exact obeys_accepts_only hallows
      | stop | cancelled => trivial
    | _ => cases hlibrary
  calls s e t _ hlibrary hstep := by
    change s.step p concurrency e = some t at hstep
    cases e with
    | service e => cases hlibrary
    | on_accept c ring =>
      obtain ⟨j, _, _, _, s₁, s₂, h₁, h₂, h₃, _⟩ := on_accept_spec hstep
      exact ((called_run rfl h₁).trans (called_run rfl h₂)).trans (called_run rfl h₃)
    | pass j ring sqe =>
      obtain ⟨turn, sock, result, _, _, _, _, hcase⟩ := pass_step_spec hstep
      rcases hcase with ⟨_, rfl⟩ | ⟨size, u, _, hpop, hclose, _⟩ | ⟨array, size, output, u, _, hpop, rfl⟩
      · exact .refl
      · exact (called_run rfl (pop_spec hpop).1).trans (called_run rfl hclose)
      · exact called_run rfl (pop_spec hpop).1
    | chat_all j order =>
      obtain ⟨_, _, _, _, _, _, _, rfl⟩ := chat_all_spec hstep
      exact .refl
    | send ring =>
      obtain ⟨_, _, _, _, _, _, hprocess, _⟩ := send_spec hstep
      exact called_run rfl hprocess
    | send_locked ring sqe =>
      obtain ⟨_, _, hprocess, _⟩ := send_locked_spec hstep
      exact called_run rfl hprocess
    | sent_all =>
      obtain ⟨_, _, _, _, rfl⟩ := sent_all_spec hstep
      exact .refl
    | on_close j =>
      obtain ⟨_, _, rfl⟩ := on_close_spec hstep
      exact .refl

end Server

end Chat

end rioring
