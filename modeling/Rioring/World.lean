import Rioring.Buffer.IoDoubleBuffer
import Rioring.Context

namespace rioring

inductive SocketType where
  | tcp
  | udp
  deriving DecidableEq, Repr

inductive CloseType where
  | graceful
  | force
  deriving DecidableEq, Repr

/-- The `socket_object` of the source, with the `connected_flag` that only
    `tcp_socket` has. An event field says whether a callback is registered;
    `recv_bind_buffer` is the front of the array, as the kernel last filled it. -/
structure SocketObject where
  socket_type : SocketType
  socket_handler : Int := 0
  addr_storage : SockAddr := {}
  recv_bind_buffer : List UInt8 := []
  shutdown_gracefully : Bool := false
  remote_port_number : Nat := 0
  recv_buffer : IoBuffer := {}
  send_buffer : IoDoubleBuffer := {}
  connected_flag : Bool := false
  recv_event : Bool := false
  send_complete_event : Bool := false
  socket_close_event : Bool := false
  error_event : Bool := false
  deriving DecidableEq

/-- The `tcp_server` of the source. -/
structure TcpServer where
  server_socket : Int := 0
  addr6 : SockAddr := {}
  addr_len : Nat := 28
  new_connect_event : Bool := false
  error_event : Bool := false
  deriving DecidableEq

/-- A call of a registered callback, with what it is given. -/
inductive Callback where
  | receive (contents : List UInt8) (addr : SockAddr)
  | send_complete
  | close
  | error (code : Int)
  | accept (socket : ObjectId)
  deriving DecidableEq

/-- What has happened to one object so far, oldest first. No function of the
    library reads it. -/
structure History where
  /-- payloads of the `send` calls whose locked body has run -/
  accepted : List UInt8 := []
  /-- payloads and destinations of the `send_to` calls -/
  requested : List (List UInt8 × SockAddr) := []
  /-- bytes the kernel has taken -/
  written : List UInt8 := []
  /-- bytes the kernel has delivered -/
  received : List UInt8 := []
  /-- how many of them a receive callback has popped -/
  popped : Nat := 0
  submitted : List Request := []
  callbacks : List Callback := []
  /-- descriptors its shutdown completions have passed to `::close` -/
  closed : List Int := []
  /-- runs of `on_active`, or of a server's `run` that returned true -/
  activations : Nat := 0

/-- A completion whose handler has not returned. `accepting` is set while
    `io_accepting` is in the accept callback: the server and the new socket. -/
structure Handling where
  context : ContextId
  accepting : Option (ObjectId × ObjectId) := none
  deriving DecidableEq

/-- One process: its contexts and their pool, its sockets and servers, the open
    descriptors with the object that opened each, the requests in flight, the
    completions being handled, and the `send` calls between guard and lock. -/
structure World where
  contexts : ContextId → IoContext := fun _ => {}
  allocated : Nat := 0
  pool : List ContextId := []
  sockets : ObjectId → Option SocketObject := fun _ => none
  servers : ObjectId → Option TcpServer := fun _ => none
  objects : ObjectId := 1
  descriptors : Int → Option ObjectId := fun _ => none
  inflight : List Request := []
  handling : List Handling := []
  sends : List (ObjectId × Bytes) := []
  history : ObjectId → History := fun _ => {}

/-- The process after the constructor of its `io_service`. -/
def World.start (p : Platform) : World where
  allocated := p.context_pool_size
  pool := List.range p.context_pool_size

namespace World

@[simps]
def set_socket (w : World) (i : ObjectId) (s : SocketObject) : World :=
  { w with sockets := Function.update w.sockets i (some s) }

@[simps]
def set_server (w : World) (i : ObjectId) (s : TcpServer) : World :=
  { w with servers := Function.update w.servers i (some s) }

@[simps]
def set_context (w : World) (c : ContextId) (ctx : IoContext) : World :=
  { w with contexts := Function.update w.contexts c ctx }

@[simps]
def record (w : World) (i : ObjectId) (f : History → History) : World :=
  { w with history := Function.update w.history i (f (w.history i)) }

def call (w : World) (i : ObjectId) (callback : Callback) : World :=
  w.record i fun h => { h with callbacks := h.callbacks ++ [callback] }

@[simps]
def open_descriptor (w : World) (fd : Int) (i : ObjectId) : World :=
  { w with descriptors := Function.update w.descriptors fd (some i) }

/-- `::close( fd )` of a descriptor that no object holds. -/
@[simps]
def free_descriptor (w : World) (fd : Int) : World :=
  { w with descriptors := Function.update w.descriptors fd none }

/-- `::close( fd )` in a shutdown completion of object `i`. -/
def close_descriptor (w : World) (fd : Int) (i : ObjectId) : World :=
  { w with descriptors := Function.update w.descriptors fd none }.record i fun h =>
    { h with closed := h.closed ++ [fd] }

/-- Whether the object has an error callback. -/
def has_error_event (w : World) (i : ObjectId) : Bool :=
  match w.sockets i with
  | some s => s.error_event
  | none => (w.servers i).any (·.error_event)

/-- `object_base::io_error`. -/
def io_error (w : World) (i : ObjectId) (code : Int) : World :=
  if w.has_error_event i then w.call i (.error code) else w

def to_socket_ptr (w : World) (handler : Option ObjectId) : Option SocketObject :=
  handler.bind w.sockets

def to_tcp_server_ptr (w : World) (handler : Option ObjectId) : Option TcpServer :=
  handler.bind w.servers

/-- The bytes the kernel finds in a region it is to send: those of the storage
    when it is still there, and `garbage` otherwise. -/
def load (w : World) (iov : Iovec) (garbage : List UInt8) : List UInt8 :=
  match iov.iov_base with
  | .send_buffer i generation =>
    match w.sockets i with
    | some s =>
      if s.send_buffer.main_buffer.generation = generation then
        s.send_buffer.main_buffer.storage.take iov.iov_len
      else garbage
    | none => garbage
  | _ => garbage

/-- Opening a descriptor that is free and closing it at once changes nothing. -/
theorem open_free_descriptor {w : World} {fd : Int} (hfree : w.descriptors fd = none) (i : ObjectId) :
    (w.open_descriptor fd i).free_descriptor fd = w := by
  have hsame : Function.update (Function.update w.descriptors fd (some i)) fd none = w.descriptors := by
    rw [Function.update_idem, ← hfree, Function.update_eq_self]
  rw [free_descriptor, open_descriptor, hsame]

theorem set_socket_self (w : World) (i : ObjectId) (s : SocketObject) :
    (w.set_socket i s).sockets i = some s := Function.update_self ..

theorem set_server_self (w : World) (i : ObjectId) (s : TcpServer) :
    (w.set_server i s).servers i = some s := Function.update_self ..

end World

namespace IoService

def EIO : Int := 5

/-- `context_pool.pop()`: the oldest pooled context, or a new one. -/
def allocate_context (w : World) : ContextId × World :=
  match w.pool with
  | c :: rest => (c, { w with pool := rest })
  | [] => (w.allocated, { w.set_context w.allocated {} with allocated := w.allocated + 1 })

def deallocate_context (w : World) (c : ContextId) : World :=
  { w.set_context c { w.contexts c with handler := none, iov := {} } with pool := w.pool ++ [c] }

/-- The address a handler is given. For a TCP context it is that of its socket. -/
def current_sockaddr (w : World) (c : ContextId) : SockAddr :=
  match (w.contexts c).ctype with
  | .tcp_context => ((w.to_socket_ptr (w.contexts c).handler).map (·.addr_storage)).getD {}
  | .udp_context => (w.contexts c).addr

/-- The switch of `io_service::submit`: the entry it writes for a context. -/
def prepare (w : World) (c : ContextId) : Request :=
  let ctx := w.contexts c
  let sqe := fun opcode fd payload =>
    { user_data := c, context := ctx, opcode := opcode, fd := fd, payload := payload : Request }
  match ctx.type with
  | .accept =>
    match w.to_tcp_server_ptr ctx.handler with
    | some server => sqe .accept server.server_socket []
    | none => sqe .nop 0 []
  | .read =>
    match w.to_socket_ptr ctx.handler with
    | some socket =>
      if ctx.ctype = .tcp_context then sqe .readv socket.socket_handler []
      else sqe .recvmsg socket.socket_handler []
    | none => sqe .nop 0 []
  | .write =>
    match w.to_socket_ptr ctx.handler with
    | some socket =>
      if ctx.ctype = .tcp_context then sqe .writev socket.socket_handler (w.load ctx.iov [])
      else sqe .sendmsg socket.socket_handler (w.load ctx.iov [])
    | none => sqe .nop 0 []
  | .shutdown =>
    match w.to_socket_ptr ctx.handler with
    | some socket => sqe .shutdown socket.socket_handler []
    | none =>
      match w.to_tcp_server_ptr ctx.handler with
      | some server => sqe .shutdown server.server_socket []
      | none => sqe .nop 0 []
  | .unknown => sqe .nop 0 []

/-- `io_service::submit`. `sqe` says whether `io_uring_get_sqe` returns an entry;
    when it does not, the context is neither submitted nor given back. -/
def submit (w : World) (c : ContextId) (sqe : Bool) : World :=
  match (w.contexts c).handler with
  | none => w
  | some i =>
    if sqe then
      { w with inflight := w.inflight ++ [prepare w c] }.record i fun h =>
        { h with submitted := h.submitted ++ [prepare w c] }
    else w.io_error i EIO

/-- What every submitter begins with: take a context and fill it in. -/
def take_context (w : World) (fill : IoContext → IoContext) : ContextId × World :=
  let (c, w) := allocate_context w
  (c, w.set_context c (fill (w.contexts c)))

/-- What a submitter does: take a context, fill it in, and submit it. -/
def submit_context (w : World) (fill : IoContext → IoContext) (sqe : Bool) : World :=
  let (c, w) := take_context w fill
  submit w c sqe

/-- The context that `allocate_context` returns, as it is found. -/
def next_context (w : World) : ContextId × IoContext :=
  match w.pool with
  | c :: _ => (c, w.contexts c)
  | [] => (w.allocated, {})

/-- Taking a context changes the pool and that one context, nothing else. -/
theorem take_context_eq (w : World) (fill : IoContext → IoContext) :
    take_context w fill = ((next_context w).1, { w with
      contexts := Function.update w.contexts (next_context w).1 (fill (next_context w).2)
      pool := w.pool.tail
      allocated := if w.pool = [] then w.allocated + 1 else w.allocated }) := by
  unfold take_context allocate_context next_context
  cases hpool : w.pool <;> simp [World.set_context, hpool]

/-- What a submission leaves as it was: everything but the contexts, their pool,
    the requests in flight and the histories. -/
structure Submitted (w w' : World) : Prop where
  sockets : w'.sockets = w.sockets
  servers : w'.servers = w.servers
  objects : w'.objects = w.objects
  descriptors : w'.descriptors = w.descriptors
  handling : w'.handling = w.handling
  sends : w'.sends = w.sends

theorem submit_submitted (w : World) (c : ContextId) (sqe : Bool) : Submitted w (submit w c sqe) := by
  unfold submit
  split
  · exact ⟨rfl, rfl, rfl, rfl, rfl, rfl⟩
  · split
    · exact ⟨rfl, rfl, rfl, rfl, rfl, rfl⟩
    · unfold World.io_error
      split <;> exact ⟨rfl, rfl, rfl, rfl, rfl, rfl⟩

theorem submit_context_submitted (w : World) (fill : IoContext → IoContext) (sqe : Bool) :
    Submitted w (submit_context w fill sqe) := by
  unfold submit_context
  rw [take_context_eq]
  obtain ⟨h1, h2, h3, h4, h5, h6⟩ := submit_submitted _ (next_context w).1 sqe
  exact ⟨h1, h2, h3, h4, h5, h6⟩

end IoService

end rioring
