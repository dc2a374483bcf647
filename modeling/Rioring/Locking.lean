import Rioring.Mutex
import Rioring.View.Callbacks

/-! The threads of a process with the lock of each socket. A callback runs on
the thread that calls it, in front of what the thread still has to do. -/

namespace rioring

/-- A call of the library in the body of a callback; `sqe` is the outcome of
    `io_uring_get_sqe` in the submission it may make. -/
inductive Call where
  | send (bytes : Bytes) (sqe : Bool)
  | send_to (bytes : Bytes) (addr : SockAddr) (sqe : Bool)
  | close (type : CloseType) (sqe : Bool)

/-- What a thread does besides locking: it enters a call, made by the callback
    `origin` if by any, runs what `send` or `io_sent` do under the lock, or makes
    some other step of the process. -/
inductive Act where
  | call (origin : Option Callback) (i : ObjectId) (c : Call)
  | send_locked (i : ObjectId) (bytes : Bytes) (sqe : Bool)
  | io_sent (c : ContextId) (cqe : Cqe) (sqe : Bool)
  | step (e : Event)

abbrev Op := Mutex.Op ObjectId Act

/-- The process and its threads. `taken` are the contexts whose completion a
    thread has taken up and not yet handled. -/
structure Threads where
  world : World
  mutex : Mutex Nat ObjectId Act := {}
  taken : List ContextId := []

/-- What an idle thread can begin: a call of the application's own, a completion
    with its handler, or something that takes no socket's lock. -/
inductive Task where
  | call (i : ObjectId) (c : Call)
  | handle (c : ContextId) (cqe : Cqe) (sqe accept_sqe read_sqe : Bool)
  | step (e : Event)

/-- A thread begins something, or runs its next operation. `bodies` is what the
    callbacks do that the operation calls. -/
inductive ThreadEvent where
  | begin (t : Nat) (task : Task)
  | run (t : Nat) (bodies : ObjectId → Callback → List Call)

/-- The socket that a callback of object `i` is given. -/
def Callback.receiver (i : ObjectId) : Callback → ObjectId
  | .accept j => j
  | _ => i

/-- The events of the application that take no socket's lock. -/
def Event.lockless : Event → Bool
  | .create_tcp | .create_udp | .create_server | .set_event .. | .connect .. | .activate .. |
    .run_udp .. | .run .. | .stop .. | .pop .. => true
  | .send .. | .send_locked .. | .send_to .. | .close .. | .complete .. | .resume .. |
    .finish .. => false

namespace World

def is_object (w : World) (i : ObjectId) : Bool := (w.sockets i).isSome || (w.servers i).isSome

/-- The callbacks that a step has made, each with the socket it is given. -/
def called (w w' : World) : List (ObjectId × Callback) :=
  ((List.range w'.objects).filter w'.is_object).flatMap fun i =>
    (w.callbacks_since w' i).map fun callback => (callback.receiver i, callback)

/-- What a call does before any lock, and the code it enters. -/
def enter (w : World) (i : ObjectId) : Call → Option (World × List Op)
  | .send bytes sqe => do
    let s ← w.socket_of i .tcp
    let (passed, w) := TcpSocket.send w i s bytes
    some (w, if passed then [.lock i, .act (.send_locked i bytes sqe), .unlock i] else [])
  | .send_to bytes addr sqe => do
    let _ ← w.socket_of i .udp
    some (w, [.lock i, .act (.step (.send_to i bytes addr sqe)), .unlock i])
  | .close .graceful sqe => do
    let _ ← w.sockets i
    some (w, [.lock i, .act (.step (.close i .graceful sqe)), .unlock i])
  | .close .force sqe => do
    let _ ← w.sockets i
    some (w, [.act (.step (.close i .force sqe))])

/-- The code of `io_service::io` for one completion. Only `io_sent` takes a lock. -/
def handler (w : World) (c : ContextId) (cqe : Cqe) (sqe accept_sqe read_sqe : Bool) : List Op :=
  let io : Op := .act (.step (.complete c cqe sqe))
  let finish : Op := .act (.step (.finish c))
  match (w.contexts c).type, (w.contexts c).handler with
  | .write, some i =>
    if 0 < cqe.res then [.lock i, .act (.io_sent c cqe sqe), .unlock i, finish] else [io, finish]
  | .accept, _ =>
    if 0 < cqe.res then [io, .act (.step (.resume c accept_sqe read_sqe)), finish]
    else [io, finish]
  | _, _ => [io, finish]

/-- The step of the process that an action is. -/
def event (w : World) : Act → Option Event
  | .call .. => none
  | .send_locked i bytes sqe => some (.send_locked (w.sends.idxOf (i, bytes)) sqe)
  | .io_sent c cqe sqe =>
    if (w.contexts c).type = .write ∧ 0 < cqe.res then some (.complete c cqe sqe) else none
  | .step e => some e

/-- The code of the callbacks that a step has made, in their order. In the
    source their calls come last in the step, but that `on_send_complete`
    follows the send-complete callback. -/
def callback_code (w w' : World) (bodies : ObjectId → Callback → List Call) : List Op :=
  (w.called w').flatMap fun (i, callback) =>
    if (w'.sockets i).isSome then (bodies i callback).map (.act <| .call (some callback) i ·) else []

end World

namespace Threads

/-- The code of what a thread begins. -/
def task_code (s : Threads) : Task → Option (List Op)
  | .call i c => some [.act (.call none i c)]
  | .handle c cqe sqe accept_sqe read_sqe =>
    if c ∉ s.taken ∧ s.world.inflight.any (·.user_data = c) = true then
      some (s.world.handler c cqe sqe accept_sqe read_sqe)
    else none
  | .step e => if e.lockless then some [.act (.step e)] else none

def task_taken (s : Threads) : Task → List ContextId
  | .handle c _ _ _ _ => s.taken ++ [c]
  | _ => s.taken

/-- What is still taken up after a step of the process. -/
def still_taken (s : Threads) : Event → List ContextId
  | .complete c _ _ => s.taken.erase c
  | _ => s.taken

def step (p : Platform) (s : Threads) : ThreadEvent → Option Threads
  | .begin t task =>
    if (s.mutex.code t).isEmpty then do
      let ops ← s.task_code task
      some { s with mutex := s.mutex.set_code t ops, taken := s.task_taken task }
    else none
  | .run t bodies =>
    match s.mutex.code t with
    | [] => none
    | .lock i :: rest =>
      if s.mutex.holder i = none then
        some { s with mutex := (s.mutex.set_holder i (some t)).set_code t rest }
      else none
    | .unlock i :: rest => some { s with mutex := (s.mutex.set_holder i none).set_code t rest }
    | .act (.call _ i c) :: rest => do
      let (world, ops) ← s.world.enter i c
      some { s with world, mutex := s.mutex.set_code t (ops ++ rest) }
    | .act a :: rest => do
      let e ← s.world.event a
      let world ← s.world.step p e
      let ops := s.world.callback_code world bodies
      some { world, mutex := s.mutex.set_code t (ops ++ rest), taken := s.still_taken e }

end Threads

/-- The library running on a platform, thread by thread. -/
def threads (p : Platform) : Machine Threads ThreadEvent where
  init := { world := World.start p }
  step := Threads.step p

namespace Threads

variable {p : Platform} {s s' : Threads} {e : ThreadEvent}

/-- The steps of the threads. -/
inductive Does (p : Platform) (s : Threads) : ThreadEvent → Threads → Prop where
  | begin {t : Nat} {task : Task} {ops : List Op} (hcode : s.mutex.code t = [])
      (htask : s.task_code task = some ops) :
      Does p s (.begin t task) { s with
        mutex := s.mutex.set_code t ops, taken := s.task_taken task }
  | lock {t : Nat} {bodies : ObjectId → Callback → List Call} {i : ObjectId} {rest : List Op}
      (hcode : s.mutex.code t = .lock i :: rest) (hfree : s.mutex.holder i = none) :
      Does p s (.run t bodies) { s with
        mutex := (s.mutex.set_holder i (some t)).set_code t rest }
  | unlock {t : Nat} {bodies : ObjectId → Callback → List Call} {i : ObjectId} {rest : List Op}
      (hcode : s.mutex.code t = .unlock i :: rest) :
      Does p s (.run t bodies) { s with mutex := (s.mutex.set_holder i none).set_code t rest }
  | call {t : Nat} {bodies : ObjectId → Callback → List Call} {origin : Option Callback}
      {i : ObjectId} {c : Call} {rest ops : List Op} {world : World}
      (hcode : s.mutex.code t = .act (.call origin i c) :: rest)
      (henter : s.world.enter i c = some (world, ops)) :
      Does p s (.run t bodies) { s with world, mutex := s.mutex.set_code t (ops ++ rest) }
  | act {t : Nat} {bodies : ObjectId → Callback → List Call} {a : Act} {e : Event}
      {rest : List Op} {world : World} (hcode : s.mutex.code t = .act a :: rest)
      (hevent : s.world.event a = some e) (hstep : s.world.step p e = some world) :
      Does p s (.run t bodies) {
        world
        mutex := s.mutex.set_code t (s.world.callback_code world bodies ++ rest)
        taken := s.still_taken e }

theorem step_does (hstep : s.step p e = some s') : s.Does p e s' := by
  cases e with
  | begin t task =>
    rw [step] at hstep
    split at hstep
    · rename_i hidle
      obtain ⟨ops, htask, hstep⟩ := Option.bind_eq_some_iff.mp hstep
      cases hstep
      exact .begin (List.isEmpty_iff.mp hidle) htask
    · cases hstep
  | run t bodies =>
    rw [step] at hstep
    split at hstep
    · cases hstep
    · rename_i i rest hcode
      split at hstep
      · rename_i hfree
        cases hstep
        exact .lock hcode hfree
      · cases hstep
    · rename_i i rest hcode
      cases hstep
      exact .unlock hcode
    · rename_i origin i c rest hcode
      obtain ⟨⟨world, ops⟩, henter, hstep⟩ := Option.bind_eq_some_iff.mp hstep
      cases hstep
      exact .call hcode henter
    · rename_i a rest _ hcode
      obtain ⟨e, hevent, hstep⟩ := Option.bind_eq_some_iff.mp hstep
      obtain ⟨world, hworld, hstep⟩ := Option.bind_eq_some_iff.mp hstep
      cases hstep
      exact .act hcode hevent hworld

end Threads

end rioring
