import Rioring.Service.Program

/-! The echo server: its receive callback on the threads of a service. -/

namespace rioring

open World Service

namespace Echo

/-- Where a receive callback is that has not returned: before its `send`, in it behind
    the guard, or before its `pop`. -/
inductive Stage where
  | called
  | sending
  | sent
  deriving DecidableEq

/-- The process of the echo server. -/
structure Server where
  service : Service
  turns : ObjectId → Option Stage := fun _ => none

/-- What can happen next: a step of the service, or a part of `on_read_message`. `ring` is
    the ring that the submissions of the step go to. -/
inductive ServerEvent where
  | service (e : ServiceEvent)
  | send (socket : ObjectId) (ring : Nat)
  | send_locked (index : Nat) (ring : Nat) (sqe : Bool)
  | pop (socket : ObjectId) (ring : Nat)

/-- The step of the service that an event is, if any. -/
def ServerEvent.library : ServerEvent → Option ServiceEvent
  | .service e => some e
  | _ => none

namespace Server

variable (p : Platform) (concurrency : Nat)

def world (s : Server) : World := s.service.world

/-- What the server does of the library's operations outside of `on_read_message`. The
    handler of a receive returns after its callback. -/
def obeys (s : Server) : Event → Bool
  | .create_server | .run .. | .stop .. | .set_event .. | .close .. | .complete .. | .resume .. => true
  | .finish c =>
    match (s.world.contexts c).type, (s.world.contexts c).handler with
    | .read, some j => (s.turns j).isNone
    | _, _ => true
  | _ => false

def allows (s : Server) : ServiceEvent → Bool
  | .process e _ => s.obeys e
  | .stop | .cancelled _ => true

/-- A step of the service. The receive callbacks it calls begin. -/
def library (s : Server) (e : ServiceEvent) : Option Server :=
  if s.allows e then do
    let service ← s.service.step p concurrency e
    let begins := received_since s.world service.world
    some { service, turns := fun j => if begins j then some .called else s.turns j }
  else none

/-- The guard of `tcp->send( *(*buffer), buffer->size() )`. -/
def send (s : Server) (j : ObjectId) (ring : Nat) : Option Server := do
  let sock ← s.world.sockets j
  if h : s.turns j = some .called ∧ sock.recv_buffer.contents.length ≤ PTRDIFF_MAX then do
    let bytes : Bytes := ⟨sock.recv_buffer.contents, h.2⟩
    let service ← s.service.process p concurrency (.send j bytes) ring
    let passed := (TcpSocket.send s.world j sock bytes).1
    some { service, turns := Function.update s.turns j (some (if passed then .sending else .sent)) }
  else none

/-- The locked body of a `send`. -/
def send_locked (s : Server) (index ring : Nat) (sqe : Bool) : Option Server := do
  let entry ← s.world.sends[index]?
  if s.turns entry.1 = some .sending then do
    let service ← s.service.process p concurrency (.send_locked index sqe) ring
    some { service, turns := Function.update s.turns entry.1 (some .sent) }
  else none

/-- `buffer->pop( buffer->size() )`, with which the callback returns. -/
def pop (s : Server) (j : ObjectId) (ring : Nat) : Option Server := do
  let sock ← s.world.sockets j
  if s.turns j = some .sent then do
    let service ← s.service.process p concurrency (.pop j sock.recv_buffer.size) ring
    some { service, turns := Function.update s.turns j none }
  else none

def step (s : Server) : ServerEvent → Option Server
  | .service e => s.library p concurrency e
  | .send j ring => s.send p concurrency j ring
  | .send_locked index ring sqe => s.send_locked p concurrency index ring sqe
  | .pop j ring => s.pop p concurrency j ring

end Server

/-- The echo server with its `io_service` running. -/
def server (p : Platform) (concurrency : Nat) : Machine Server ServerEvent where
  init := { service := { world := World.start p } }
  step := Server.step p concurrency

namespace Server

variable {p : Platform} {concurrency : Nat} {s t : Server} {j : ObjectId} {ring : Nat} {sqe : Bool}

theorem library_spec {e : ServiceEvent} (hstep : s.library p concurrency e = some t) :
    s.allows e = true ∧ (rioring.service p concurrency).step s.service e = some t.service ∧
      t.turns = fun j =>
        if received_since s.world t.world j then some .called else s.turns j := by
  obtain ⟨hallows, service, hservice, rfl⟩ := allowed_step hstep
  exact ⟨hallows, hservice, rfl⟩

theorem send_spec (hstep : s.send p concurrency j ring = some t) : ∃ sock, ∃ bytes : Bytes,
    s.world.sockets j = some sock ∧ s.turns j = some .called ∧
      bytes.val = sock.recv_buffer.contents ∧
      s.service.process p concurrency (.send j bytes) ring = some t.service ∧
      t.turns = Function.update s.turns j (some (if s.world.live j then .sending else .sent)) := by
  obtain ⟨sock, hsock, hstep⟩ := Option.bind_eq_some_iff.mp hstep
  split at hstep
  · rename_i h
    obtain ⟨service, hservice, hstep⟩ := Option.bind_eq_some_iff.mp hstep
    cases hstep
    refine ⟨sock, _, hsock, h.1, rfl, hservice, ?_⟩
    have hlive : s.world.live j = (sock.connected_flag && !sock.shutdown_gracefully) := live_eq hsock
    rw [hlive, TcpSocket.send]
    cases sock.shutdown_gracefully <;> cases sock.connected_flag <;> rfl
  · cases hstep

theorem send_locked_spec {index : Nat} (hstep : s.send_locked p concurrency index ring sqe = some t) :
    ∃ entry, s.world.sends[index]? = some entry ∧ s.turns entry.1 = some .sending ∧
      s.service.process p concurrency (.send_locked index sqe) ring = some t.service ∧
      t.turns = Function.update s.turns entry.1 (some .sent) := by
  obtain ⟨entry, hentry, hstep⟩ := Option.bind_eq_some_iff.mp hstep
  split at hstep
  · rename_i hturn
    obtain ⟨service, hservice, hstep⟩ := Option.bind_eq_some_iff.mp hstep
    cases hstep
    exact ⟨entry, hentry, hturn, hservice, rfl⟩
  · cases hstep

theorem pop_spec (hstep : s.pop p concurrency j ring = some t) : ∃ sock,
    s.world.sockets j = some sock ∧ s.turns j = some .sent ∧
      s.service.process p concurrency (.pop j sock.recv_buffer.size) ring = some t.service ∧
      t.turns = Function.update s.turns j none := by
  obtain ⟨sock, hsock, hstep⟩ := Option.bind_eq_some_iff.mp hstep
  split at hstep
  · rename_i hturn
    obtain ⟨service, hservice, hstep⟩ := Option.bind_eq_some_iff.mp hstep
    cases hstep
    exact ⟨sock, hsock, hturn, hservice, rfl⟩
  · cases hstep

/-- The server makes no socket active by a call. -/
theorem obeys_accepts_only {e : Event} (hobeys : s.obeys e = true) (i : ObjectId) :
    e.activates i = false := by
  cases e <;> first | rfl | cases hobeys

/-- Beside its callbacks the server is an `io_service`. -/
theorem serves : Program p concurrency (server p concurrency) Server.service ServerEvent.library
    (fun _ => True) accepts_only called where
  start := rfl
  hosts s e e' t hlibrary hstep := by
    change s.step p concurrency e = some t at hstep
    cases e with
    | service e =>
      cases hlibrary
      obtain ⟨hallows, hservice, _⟩ := library_spec hstep
      refine ⟨?_, hservice⟩
      cases e' with
      | process e k => exact obeys_accepts_only hallows
      | stop | cancelled => trivial
    | _ => cases hlibrary
  calls s e t _ hlibrary hstep := by
    change s.step p concurrency e = some t at hstep
    cases e with
    | service e => cases hlibrary
    | send j ring =>
      obtain ⟨_, _, _, _, _, hprocess, _⟩ := send_spec hstep
      exact called_run rfl hprocess
    | send_locked index ring sqe =>
      obtain ⟨_, _, _, hprocess, _⟩ := send_locked_spec hstep
      exact called_run rfl hprocess
    | pop j ring =>
      obtain ⟨_, _, _, hprocess, _⟩ := pop_spec hstep
      exact called_run rfl hprocess

end Server

end Echo

end rioring
