import Rioring.Inbound.Intake
import Rioring.Service.Serial

/-! A service while bytes arrive: the handler of a read in the steps that other
threads and the kernel can come between. -/

namespace rioring

open IoService

/-- A service with the reads that bring bytes. The kernel writes the bytes of a read
    to `recv_bind_buffer` at any time between its submission and its completion:
    `arrived` are those that are there and not copied yet. `stage` is how far the
    handler of a context has come, and `copied` what has been pushed to the
    `recv_buffer` of each socket. -/
structure Receiving where
  service : Service
  arrived : ContextId → Option (List UInt8) := fun _ => none
  stage : ContextId → Option ReceiveStage := fun _ => none
  copied : ObjectId → List UInt8 := fun _ => []

/-- What can happen next. The bytes of a read arrive, its count is taken up, they are
    copied, the next read is submitted, and the callback is called; `service` is any
    other step. -/
inductive ReceiveEvent where
  | arrive (context : ContextId) (data : List UInt8)
  | take (context : ContextId) (peer : SockAddr)
  | copy (context : ContextId)
  | arm (context : ContextId) (sqe : Bool)
  | call (context : ContextId)
  | service (e : ServiceEvent)

namespace SocketObject

/-- The first statement of `io_received`. -/
def copy_received (p : Platform) (w : World) (i : ObjectId) (s : SocketObject)
    (bytes_transferred : Nat) : Except Fault World := do
  let recv_buffer ← s.recv_buffer.push p.malloc (s.recv_bind_buffer.take bytes_transferred)
  .ok (w.set_socket i { s with recv_buffer })

/-- The last statement of `io_received`. -/
def call_received (w : World) (i : ObjectId) (s : SocketObject) (addr : SockAddr) : World :=
  if s.recv_event then w.call i (.receive s.recv_buffer.contents addr) else w

end SocketObject

namespace World

/-- The socket a context is for. -/
def reader (w : World) (c : ContextId) : Option (ObjectId × SocketObject) := do
  let i ← (w.contexts c).handler
  let s ← w.sockets i
  some (i, s)

end World

namespace Receiving

/-- A step of the service that is none of the steps of a receive: a read completes in
    one step when it brings no bytes, and until the callback has been called it
    neither pops nor returns. -/
def leaves (x : Receiving) : ServiceEvent → Bool
  | .process (.complete c cqe _) _ =>
    match x.service.world.inflight.find? (·.user_data = c) with
    | some r => r.context.type != .read || (decide (cqe.res ≤ 0) && (x.arrived c).isNone)
    | none => false
  | .process (.pop i _) _ => x.service.world.handling.any fun h =>
    (x.service.world.contexts h.context).type == .read &&
      ((x.service.world.contexts h.context).handler == some i && (x.stage h.context).isNone)
  | .process (.finish c) _ => (x.stage c).isNone
  | _ => true

/-- Bytes arrive for a read in flight that has none yet. -/
def arrive (x : Receiving) (c : ContextId) (data : List UInt8) : Option Receiving := do
  let r ← x.service.world.inflight.find? (·.user_data = c)
  if r.context.type = .read ∧ x.arrived c = none ∧ data ≠ [] ∧ data.length ≤ r.context.iov.iov_len then
    some { x with
      service := { x.service with world := x.service.world.deliver_bytes r data }
      arrived := Function.update x.arrived c (some data) }
  else none

/-- The thread of the ring takes up the completion: `io_received` is called with the
    count of the bytes that have arrived. -/
def take (x : Receiving) (c : ContextId) (peer : SockAddr) : Option Receiving := do
  let r ← x.service.world.inflight.find? (·.user_data = c)
  let data ← x.arrived c
  let k := x.service.ring c
  if !x.service.exited.contains k && !x.service.busy k then
    some { x with
      service := { x.service with world := (x.service.world.completed c).kernel r { res := 0, peer } }
      stage := Function.update x.stage c (some (.taken data.length)) }
  else none

def copy (p : Platform) (x : Receiving) (c : ContextId) : Option Receiving :=
  match x.stage c with
  | some (.taken count) => do
    let (i, s) ← x.service.world.reader c
    let world ← (s.copy_received p x.service.world i count).toOption
    some {
      service := { x.service with world }
      arrived := Function.update x.arrived c none
      stage := Function.update x.stage c (some .copied)
      copied := Function.update x.copied i (x.copied i ++ s.recv_bind_buffer.take count) }
  | _ => none

/-- The next read goes to the ring of the thread. -/
def arm (p : Platform) (x : Receiving) (c : ContextId) (sqe : Bool) : Option Receiving :=
  if x.stage c = some .copied then do
    let (i, s) ← x.service.world.reader c
    let world := s.submit_receiving p x.service.world i sqe
    some { x with
      service := { x.service with
        world
        ring := fun c' => if c' ∈ x.service.world.submitted_contexts world then x.service.ring c
          else x.service.ring c' }
      stage := Function.update x.stage c (some .armed) }
  else none

def call (x : Receiving) (c : ContextId) : Option Receiving :=
  if x.stage c = some .armed then do
    let (i, s) ← x.service.world.reader c
    let world := s.call_received x.service.world i (current_sockaddr x.service.world c)
    some { x with
      service := { x.service with world }
      stage := Function.update x.stage c none }
  else none

def step (p : Platform) (concurrency : Nat) (x : Receiving) : ReceiveEvent → Option Receiving
  | .arrive c data => x.arrive c data
  | .take c peer => x.take c peer
  | .copy c => x.copy p c
  | .arm c sqe => x.arm p c sqe
  | .call c => x.call c
  | .service e =>
    if x.leaves e then (x.service.step p concurrency e).map fun service => { x with service } else none

/-- A condition on what happens to the socket `i`, as one on the steps of a receiver. -/
def permits (i : ObjectId) (ok : View → Action → Prop) (x : Receiving) : ReceiveEvent → Prop
  | .service e => Service.permits i ok x.service e
  | _ => True

instance (i : ObjectId) (ok : View → Action → Prop) [DecidableRel ok] :
    DecidableRel (permits i ok) := fun x e =>
  match e with
  | .service e => inferInstanceAs (Decidable (Service.permits i ok x.service e))
  | .arrive .. | .take .. | .copy .. | .arm .. | .call .. => .isTrue trivial

end Receiving

/-- A service whose reads bring their bytes step by step. -/
def receiver (p : Platform) (concurrency : Nat) : Machine Receiving ReceiveEvent where
  init := { service := { world := World.start p } }
  step := Receiving.step p concurrency

end rioring
