import Rioring.Chat.Words

/-! The chat client: what its `main` does with its one socket, and the receive
callback of that socket. -/

namespace rioring

open World

namespace Chat

/-- Where `main` of the client is: before `create`, before `connect`, at the input, in a
    `send`, in the loop that waits for the end of the connection, or past it. -/
inductive Stage where
  | starts
  | created
  | reads
  | sends (input : List UInt8)
  | waits
  | returned
  deriving DecidableEq

/-- The process of the chat client. -/
structure Client where
  service : Service
  stage : Stage := .starts
  /-- what the array of the receive callback holds that has not returned -/
  turn : Option (List UInt8) := none
  /-- the input of the calls of `send` that have returned true -/
  sent : List (List UInt8) := []
  /-- the messages that the callbacks have popped -/
  taken : List (List UInt8) := []
  /-- whether the last callback has refused a message -/
  refused : Bool := false
  /-- the names and texts that the callbacks have shown -/
  shown : List (List UInt8 × List UInt8) := []

/-- What can happen next: a step of the service, of `main`, or of the callback. `ring` is
    the ring that the submissions of the step go to. -/
inductive ClientEvent where
  | service (e : ServiceEvent)
  | create (ring : Nat)
  | connect (addresses : List TcpSocket.Attempt) (ring : Nat) (sqe : Bool)
  | input (input : List UInt8) (ring : Nat)
  | send_locked (ring : Nat) (sqe : Bool)
  | exit (ring : Nat) (sqe : Bool)
  | stop
  | pass (ring : Nat)

/-- The step of the service that an event is, if any. -/
def ClientEvent.library : ClientEvent → Option ServiceEvent
  | .service e => some e
  | _ => none

/-- The message of an input, as `send` is given it. -/
def request (input : List UInt8) : Bytes :=
  ⟨input_message input, by
    rw [input_message, request_chat_length, List.length_take]
    exact (Nat.add_le_add_left (Nat.min_le_left _ _) _).trans (by decide)⟩

namespace Client

variable (p : Platform) (concurrency : Nat)

/-- The only object of the process. -/
def socket : ObjectId := 1

/-- The input that ends the program. -/
def exit_word : List UInt8 := [101, 120, 105, 116]

def world (s : Client) : World := s.service.world

/-- Which of the library's operations go on by themselves: the handler of a receive
    returns after its callback. -/
def obeys (s : Client) : Event → Bool
  | .complete .. => true
  | .finish c =>
    match (s.world.contexts c).type, (s.world.contexts c).handler with
    | .read, some j => j != socket || s.turn.isNone
    | _, _ => true
  | _ => false

/-- `io_service::stop` is called by `main` alone. -/
def allows (s : Client) : ServiceEvent → Bool
  | .process e _ => s.obeys e
  | .stop => false
  | .cancelled _ => true

/-- A step of the service. The receive callback it calls begins. -/
def library (s : Client) (e : ServiceEvent) : Option Client :=
  if s.allows e then do
    let service ← s.service.step p concurrency e
    let begins := received_since s.world service.world socket
    some { s with
      service
      turn := if begins then some new_array else s.turn
      refused := if begins then false else s.refused }
  else none

/-- `tcp_socket::create` and the two callbacks. -/
def create (s : Client) (ring : Nat) : Option Client :=
  if s.stage = .starts then do
    let service ← s.service.process p concurrency .create_tcp ring
    let service ← service.process p concurrency (.set_event socket .receive true) ring
    let service ← service.process p concurrency (.set_event socket .close true) ring
    some { s with service, stage := .created }
  else none

/-- `connect`. The program ends when it fails. -/
def connect (s : Client) (addresses : List TcpSocket.Attempt) (ring : Nat) (sqe : Bool) :
    Option Client :=
  if s.stage = .created then do
    let sock ← s.world.sockets socket
    let (connected, _) ← TcpSocket.connect p s.world socket sock addresses sqe
    let service ← s.service.process p concurrency (.connect socket addresses sqe) ring
    some { s with service, stage := if connected then .reads else .returned }
  else none

/-- An input, and the guard of its `send`. -/
def input (s : Client) (input : List UInt8) (ring : Nat) : Option Client :=
  if s.stage = .reads ∧ input ≠ exit_word then do
    let sock ← s.world.sockets socket
    let service ← s.service.process p concurrency (.send socket (request input)) ring
    let passed := (TcpSocket.send s.world socket sock (request input)).1
    some { s with service, stage := if passed then .sends input else .reads }
  else none

/-- The locked body of the `send`. -/
def send_locked (s : Client) (ring : Nat) (sqe : Bool) : Option Client :=
  match s.stage with
  | .sends input => do
    let service ← s.service.process p concurrency (.send_locked 0 sqe) ring
    some { s with service, stage := .reads, sent := s.sent ++ [input] }
  | _ => none

/-- The input `exit`: `close` with its default. -/
def exit (s : Client) (ring : Nat) (sqe : Bool) : Option Client :=
  if s.stage = .reads then do
    let service ← s.service.process p concurrency (.close socket .graceful sqe) ring
    some { s with service, stage := .waits }
  else none

/-- The socket is no longer `connected`: `io_service::stop` is called. -/
def stop (s : Client) : Option Client := do
  let sock ← s.world.sockets socket
  if s.stage = .waits ∧ sock.connected_flag = false then do
    let service ← s.service.step p concurrency .stop
    some { s with service, stage := .returned }
  else none

/-- A message has been popped by the callback. -/
def pop (s : Client) (buffer : IoBuffer) (size ring : Nat) : Option Client := do
  let service ← s.service.process p concurrency (.pop socket size) ring
  some { s with service, taken := s.taken ++ [buffer.contents.take size] }

/-- One pass through the loop of `on_receive`. -/
def pass (s : Client) (ring : Nat) : Option Client := do
  let array ← s.turn
  let sock ← s.world.sockets socket
  match chat_client.pass sock.recv_buffer array with
  | .error _ => none
  | .ok .waits => some { s with turn := none }
  | .ok (.refuses size) => do
    let s ← s.pop p concurrency sock.recv_buffer size ring
    some { s with turn := none, refused := true }
  | .ok (.handles array size output) => do
    let s ← s.pop p concurrency sock.recv_buffer size ring
    some { s with turn := some array, shown := s.shown ++ output }

def step (s : Client) : ClientEvent → Option Client
  | .service e => s.library p concurrency e
  | .create ring => s.create p concurrency ring
  | .connect addresses ring sqe => s.connect p concurrency addresses ring sqe
  | .input input ring => s.input p concurrency input ring
  | .send_locked ring sqe => s.send_locked p concurrency ring sqe
  | .exit ring sqe => s.exit p concurrency ring sqe
  | .stop => s.stop p concurrency
  | .pass ring => s.pass p concurrency ring

end Client

/-- The chat client with its `io_service` running. -/
def client (p : Platform) (concurrency : Nat) : Machine Client ClientEvent where
  init := { service := { world := World.start p } }
  step := Client.step p concurrency

namespace Client

variable {p : Platform} {concurrency : Nat} {s t : Client} {ring : Nat} {sqe : Bool}

theorem library_spec {e : ServiceEvent} (hstep : s.library p concurrency e = some t) :
    s.allows e = true ∧ (rioring.service p concurrency).step s.service e = some t.service ∧
      t = { s with
        service := t.service
        turn := if received_since s.world t.world socket then some new_array else s.turn
        refused := if received_since s.world t.world socket then false else s.refused } := by
  obtain ⟨hallows, service, hservice, rfl⟩ := Service.allowed_step hstep
  exact ⟨hallows, hservice, rfl⟩

theorem create_spec (hstep : s.create p concurrency ring = some t) : s.stage = .starts ∧
    ∃ s₁ s₂, s.service.process p concurrency .create_tcp ring = some s₁ ∧
      s₁.process p concurrency (.set_event socket .receive true) ring = some s₂ ∧
      s₂.process p concurrency (.set_event socket .close true) ring = some t.service ∧
      t = { s with service := t.service, stage := .created } := by
  unfold create at hstep
  split at hstep
  · rename_i hstage
    obtain ⟨s₁, h₁, hstep⟩ := Option.bind_eq_some_iff.mp hstep
    obtain ⟨s₂, h₂, hstep⟩ := Option.bind_eq_some_iff.mp hstep
    obtain ⟨s₃, h₃, hstep⟩ := Option.bind_eq_some_iff.mp hstep
    cases hstep
    exact ⟨hstage, s₁, s₂, h₁, h₂, h₃, rfl⟩
  · cases hstep

theorem connect_spec {addresses : List TcpSocket.Attempt}
    (hstep : s.connect p concurrency addresses ring sqe = some t) : s.stage = .created ∧
      s.service.process p concurrency (.connect socket addresses sqe) ring = some t.service ∧
      ∃ connected : Bool, t = { s with
        service := t.service, stage := if connected then .reads else .returned } := by
  unfold connect at hstep
  split at hstep
  · rename_i hstage
    obtain ⟨sock, hsock, hstep⟩ := Option.bind_eq_some_iff.mp hstep
    obtain ⟨⟨connected, _⟩, _, hstep⟩ := Option.bind_eq_some_iff.mp hstep
    obtain ⟨service, hservice, hstep⟩ := Option.bind_eq_some_iff.mp hstep
    cases hstep
    exact ⟨hstage, hservice, connected, rfl⟩
  · cases hstep

theorem input_spec {input : List UInt8} (hstep : s.input p concurrency input ring = some t) :
    s.stage = .reads ∧ input ≠ exit_word ∧ ∃ sock, s.world.sockets socket = some sock ∧
      s.service.process p concurrency (.send socket (request input)) ring = some t.service ∧
      t = { s with
        service := t.service
        stage := if (TcpSocket.send s.world socket sock (request input)).1 then .sends input
          else .reads } := by
  unfold Client.input at hstep
  split at hstep
  · rename_i hguard
    obtain ⟨sock, hsock, hstep⟩ := Option.bind_eq_some_iff.mp hstep
    obtain ⟨service, hservice, hstep⟩ := Option.bind_eq_some_iff.mp hstep
    cases hstep
    exact ⟨hguard.1, hguard.2, sock, hsock, hservice, rfl⟩
  · cases hstep

theorem send_locked_spec (hstep : s.send_locked p concurrency ring sqe = some t) :
    ∃ input, s.stage = .sends input ∧
      s.service.process p concurrency (.send_locked 0 sqe) ring = some t.service ∧
      t = { s with service := t.service, stage := .reads, sent := s.sent ++ [input] } := by
  unfold send_locked at hstep
  split at hstep
  · rename_i input hstage
    obtain ⟨service, hservice, hstep⟩ := Option.bind_eq_some_iff.mp hstep
    cases hstep
    exact ⟨input, hstage, hservice, rfl⟩
  · cases hstep

theorem exit_spec (hstep : s.exit p concurrency ring sqe = some t) : s.stage = .reads ∧
    s.service.process p concurrency (.close socket .graceful sqe) ring = some t.service ∧
      t = { s with service := t.service, stage := .waits } := by
  unfold exit at hstep
  split at hstep
  · rename_i hstage
    obtain ⟨service, hservice, hstep⟩ := Option.bind_eq_some_iff.mp hstep
    cases hstep
    exact ⟨hstage, hservice, rfl⟩
  · cases hstep

theorem stop_spec (hstep : s.stop p concurrency = some t) : s.stage = .waits ∧
    (rioring.service p concurrency).step s.service .stop = some t.service ∧
      t = { s with service := t.service, stage := .returned } := by
  obtain ⟨sock, _, hstep⟩ := Option.bind_eq_some_iff.mp hstep
  split at hstep
  · rename_i hguard
    obtain ⟨service, hservice, hstep⟩ := Option.bind_eq_some_iff.mp hstep
    cases hstep
    exact ⟨hguard.1, hservice, rfl⟩
  · cases hstep

theorem pop_spec {buffer : IoBuffer} {size : Nat}
    (hstep : s.pop p concurrency buffer size ring = some t) :
    s.service.process p concurrency (.pop socket size) ring = some t.service ∧
      t = { s with service := t.service, taken := s.taken ++ [buffer.contents.take size] } := by
  obtain ⟨service, hservice, hstep⟩ := Option.bind_eq_some_iff.mp hstep
  cases hstep
  exact ⟨hservice, rfl⟩

/-- What a pass does: it leaves the loop, or it pops a message, which it refuses or
    shows. -/
theorem pass_step_spec (hstep : s.pass p concurrency ring = some t) :
    ∃ array sock result, s.turn = some array ∧ s.world.sockets socket = some sock ∧
      chat_client.pass sock.recv_buffer array = .ok result ∧
      ((result = .waits ∧ t = { s with turn := none }) ∨
        (∃ size u, result = .refuses size ∧
          s.pop p concurrency sock.recv_buffer size ring = some u ∧
          t = { u with turn := none, refused := true }) ∨
        ∃ array size output u, result = .handles array size output ∧
          s.pop p concurrency sock.recv_buffer size ring = some u ∧
          t = { u with turn := some array, shown := s.shown ++ output }) := by
  obtain ⟨array, hturn, hstep⟩ := Option.bind_eq_some_iff.mp hstep
  obtain ⟨sock, hsock, hstep⟩ := Option.bind_eq_some_iff.mp hstep
  cases hpass : chat_client.pass sock.recv_buffer array with
  | error fault =>
    rw [hpass] at hstep
    cases hstep
  | ok result =>
    rw [hpass] at hstep
    refine ⟨array, sock, result, hturn, hsock, hpass, ?_⟩
    cases result with
    | waits =>
      cases hstep
      exact .inl ⟨rfl, rfl⟩
    | refuses size =>
      obtain ⟨u, hpop, hstep⟩ := Option.bind_eq_some_iff.mp hstep
      cases hstep
      exact .inr (.inl ⟨size, u, rfl, hpop, rfl⟩)
    | handles array size output =>
      obtain ⟨u, hpop, hstep⟩ := Option.bind_eq_some_iff.mp hstep
      cases hstep
      refine .inr (.inr ⟨array, size, output, u, rfl, hpop, ?_⟩)
      rw [(pop_spec hpop).2]

end Client

end Chat

end rioring
