import Rioring.Server
import Rioring.Transition

namespace rioring

namespace IoService

/-- The switch of `io_service::io` on one completion. `sqe` is the outcome of
    `io_uring_get_sqe` in the one submission a handler may make. -/
def io (p : Platform) (w : World) (c : ContextId) (res : Int) (sqe : Bool) : Except Fault World :=
  match (w.contexts c).type, (w.contexts c).handler, w.to_socket_ptr (w.contexts c).handler with
  | .accept, some i, _ =>
    if 0 < res then
      match w.to_tcp_server_ptr (some i) with
      | some server => .ok (TcpServer.io_accepting w i server c res)
      | none => .ok w
    else .ok w
  | .read, some i, some socket =>
    if 0 < res then socket.io_received p w i res.toNat (current_sockaddr w c) sqe
    else .ok (socket.io_shutdown w i)
  | .write, some i, some socket =>
    if 0 < res then .ok (socket.io_sent w i res.toNat (current_sockaddr w c) sqe)
    else .ok (w.io_error i (-res))
  | .shutdown, some i, some socket => .ok (socket.shutdown_completed w i)
  | .shutdown, some i, none =>
    match w.to_tcp_server_ptr (some i) with
    | some server =>
      .ok ((w.set_server i { server with server_socket := 0 }).close_descriptor
        server.server_socket i)
    | none => .ok w
  | .unknown, _, _ => .ok w
  | _, _, _ => .error .null_pointer

end IoService

namespace World

/-- The results the kernel may give a request: never more than was asked for,
    and only descriptors that are not open. -/
def kernel_allows (w : World) (r : Request) (cqe : Cqe) : Bool :=
  match r.opcode with
  | .readv | .recvmsg => cqe.res ≤ r.context.iov.iov_len && cqe.data.length == cqe.res.toNat
  | .writev | .sendmsg => cqe.res ≤ r.payload.length
  | .accept => cqe.res < 0 || w.descriptors cqe.res == none
  | .shutdown | .nop => true

/-- The bytes of a read arrive in the `recv_bind_buffer` it names. -/
def deliver_bytes (w : World) (r : Request) (data : List UInt8) : World :=
  match r.context.iov.iov_base with
  | .recv_bind_buffer i =>
    match w.sockets i with
    | some s =>
      (w.set_socket i { s with recv_bind_buffer := data }).record i fun h =>
        { h with received := h.received ++ data }
    | none => w
  | _ => w

/-- The bytes the kernel takes from the region of a write. -/
def take_bytes (w : World) (r : Request) (cqe : Cqe) : World :=
  match r.context.handler with
  | some i => w.record i fun h =>
      { h with written := h.written ++ (w.load r.context.iov cqe.data).take cqe.res.toNat }
  | none => w

/-- The kernel's own effect on memory and descriptors when it completes `r`. -/
def kernel (w : World) (r : Request) (cqe : Cqe) : World :=
  match r.opcode with
  | .readv => if 0 < cqe.res then w.deliver_bytes r cqe.data else w
  | .recvmsg =>
    let ctx := w.contexts r.user_data
    let namelen := SockAddr.addr_len cqe.peer.sa_family
    let ctx : IoContext := { ctx with
      addr := ctx.addr.copy cqe.peer (min ctx.msg.msg_namelen namelen)
      msg := { ctx.msg with msg_namelen := namelen } }
    let w := if 0 ≤ cqe.res then w.set_context r.user_data ctx else w
    if 0 < cqe.res then w.deliver_bytes r cqe.data else w
  | .writev | .sendmsg => w.take_bytes r cqe
  | .accept =>
    match r.context.handler, w.to_tcp_server_ptr r.context.handler with
    | some i, some server =>
      if 0 ≤ cqe.res then
        (w.set_server i { server with
          addr6 := server.addr6.copy cqe.peer (min server.addr_len 28)
          addr_len := 28 }).open_descriptor cqe.res i
      else w
    | _, _ => w
  | .shutdown | .nop => w

/-- The process when the completion of a context has been taken up. -/
def completed (w : World) (c : ContextId) : World :=
  { w with
    inflight := w.inflight.eraseP (·.user_data = c)
    handling := w.handling ++ [{ context := c }] }

/-- A request completes and its completion is handled up to the callback. -/
def complete (p : Platform) (w : World) (c : ContextId) (cqe : Cqe) (sqe : Bool) : Option World := do
  let r ← w.inflight.find? (·.user_data = c)
  if w.kernel_allows r cqe then
    (IoService.io p ((w.completed c).kernel r cqe) c cqe.res sqe).toOption
  else none

/-- The accept callback has returned: `io_accepting` runs to its end. -/
def resume (p : Platform) (w : World) (c : ContextId) (accept_sqe read_sqe : Bool) :
    Option World := do
  let h ← w.handling.find? (·.context = c)
  let (i, j) ← h.accepting
  let w := { w with handling := w.handling.map fun h : Handling =>
    if h.context = c then { h with accepting := none } else h }
  (TcpServer.on_accepted p w i j accept_sqe read_sqe).toOption

/-- The handler has returned: its context goes back to the pool. -/
def finish (w : World) (c : ContextId) : Option World :=
  let h : Handling := { context := c }
  if h ∈ w.handling then
    some (IoService.deallocate_context { w with handling := w.handling.erase h } c)
  else none

/-- A receive callback of socket `i` pops from the buffer it was given. -/
def pop (w : World) (i : ObjectId) (s : SocketObject) (size : Nat) : Option World :=
  if w.handling.any fun h =>
      (w.contexts h.context).type == .read && (w.contexts h.context).handler == some i then
    some ((w.set_socket i { s with recv_buffer := s.recv_buffer.pop size }).record i fun h =>
      { h with popped := h.popped + if size ≤ s.recv_buffer.size then size else 0 })
  else none

end World

/-- The callbacks an application can register or clear. -/
inductive Slot where
  | receive
  | send_complete
  | close
  | error
  | accept

/-- What can happen next. The calls of the application come from any thread, a
    callback's own calls among them; `sqe` is the outcome of `io_uring_get_sqe`
    in the submission the step may make. -/
inductive Event where
  | create_tcp
  | create_udp
  | create_server
  | set_event (object : ObjectId) (slot : Slot) (registered : Bool)
  | connect (socket : ObjectId) (addresses : List TcpSocket.Attempt) (sqe : Bool)
  | activate (socket : ObjectId) (fd : Int) (bind sqe : Bool)
  | run_udp (socket : ObjectId) (fd : Int) (bind : Bool) (errno : Int) (sqe : Bool)
  | run (server : ObjectId) (fd : Int) (bind listen : Bool) (errno : Int) (sqe : Bool)
  | stop (server : ObjectId) (sqe : Bool)
  | send (socket : ObjectId) (bytes : Bytes)
  | send_locked (index : Nat) (sqe : Bool)
  | send_to (socket : ObjectId) (bytes : Bytes) (addr : SockAddr) (sqe : Bool)
  | close (socket : ObjectId) (type : CloseType) (sqe : Bool)
  | pop (socket : ObjectId) (size : Nat)
  | complete (context : ContextId) (cqe : Cqe) (sqe : Bool)
  | resume (context : ContextId) (accept_sqe read_sqe : Bool)
  | finish (context : ContextId)

namespace World

def create_socket (w : World) (type : SocketType) : World :=
  { w.set_socket w.objects { socket_type := type } with objects := w.objects + 1 }

def create_server (w : World) : World :=
  { w.set_server w.objects {} with objects := w.objects + 1 }

def set_event (w : World) (i : ObjectId) (slot : Slot) (registered : Bool) : Option World :=
  match w.sockets i, w.servers i, slot with
  | some s, _, .receive => some (w.set_socket i { s with recv_event := registered })
  | some s, _, .send_complete => some (w.set_socket i { s with send_complete_event := registered })
  | some s, _, .close => some (w.set_socket i { s with socket_close_event := registered })
  | some s, _, .error => some (w.set_socket i { s with error_event := registered })
  | none, some s, .error => some (w.set_server i { s with error_event := registered })
  | none, some s, .accept => some (w.set_server i { s with new_connect_event := registered })
  | _, _, _ => none

/-- The socket `i`, if it is one of the given class. -/
def socket_of (w : World) (i : ObjectId) (type : SocketType) : Option SocketObject :=
  (w.sockets i).filter (·.socket_type = type)

/-- A descriptor that `socket` may return: an error, or one that is not open. -/
def fresh_descriptor (w : World) (fd : Int) : Bool :=
  fd == -1 || (0 ≤ fd && w.descriptors fd == none)

/-- One step of the process. An event that cannot occur, and a call that does
    not return, have no next state. -/
def step (p : Platform) (w : World) : Event → Option World
  | .create_tcp => some (w.create_socket .tcp)
  | .create_udp => some (w.create_socket .udp)
  | .create_server => some w.create_server
  | .set_event i slot registered => w.set_event i slot registered
  | .connect i addresses sqe => do
    let s ← w.socket_of i .tcp
    let (_, w) ← TcpSocket.connect p w i s addresses sqe
    some w
  | .activate i fd bind sqe => do
    let s ← w.socket_of i .udp
    if w.fresh_descriptor fd then
      ((UdpSocket.activate p w i s fd bind sqe).map (·.2)).toOption
    else none
  | .run_udp i fd bind errno sqe => do
    let s ← w.socket_of i .udp
    if w.fresh_descriptor fd then
      ((UdpSocket.run p w i s fd bind errno sqe).map (·.2)).toOption
    else none
  | .run i fd bind listen errno sqe => do
    let s ← w.servers i
    if w.fresh_descriptor fd then some (TcpServer.run w i s fd bind listen errno sqe).2 else none
  | .stop i sqe => do
    let _ ← w.servers i
    some (TcpServer.stop w i sqe)
  | .send i bytes => do
    let s ← w.socket_of i .tcp
    some (TcpSocket.send w i s bytes).2
  | .send_locked index sqe => do
    let (i, bytes) ← w.sends[index]?
    let s ← w.socket_of i .tcp
    (TcpSocket.send_locked p { w with sends := w.sends.eraseIdx index } i s bytes sqe).toOption
  | .send_to i bytes addr sqe => do
    let s ← w.socket_of i .udp
    ((UdpSocket.send_to p w i s bytes addr sqe).map (·.2)).toOption
  | .close i type sqe => do
    let s ← w.sockets i
    some (s.close w i type sqe)
  | .pop i size => do
    let s ← w.sockets i
    w.pop i s size
  | .complete c cqe sqe => w.complete p c cqe sqe
  | .resume c accept_sqe read_sqe => w.resume p c accept_sqe read_sqe
  | .finish c => w.finish c

end World

/-- The library running on a platform. -/
def machine (p : Platform) : Machine World Event where
  init := World.start p
  step := World.step p

end rioring
