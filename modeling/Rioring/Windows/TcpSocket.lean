import Rioring.Io

/-! The Windows half of the source: one `tcp_socket` over Registered I/O, with
its requests in flight. Nothing here depends on the identity of a context, of a
registered buffer or of a socket that has been closed, so those are left out. -/

namespace rioring.Windows

/-- The `tcp_socket` of the source with what it inherits from `socket_object`.
    `none` is `INVALID_SOCKET`; an event field says whether a callback is
    registered. -/
structure TcpSocket where
  socket_handler : Option Nat
  recv_bind_buffer : List UInt8
  send_bind_buffer : List UInt8
  shutdown_gracefully : Bool := false
  recv_buffer : IoBuffer := {}
  send_buffer : IoDoubleBuffer := {}
  connected_flag : Bool := false
  recv_event : Bool := false
  send_complete_event : Bool := false
  socket_close_event : Bool := false
  error_event : Bool := false
  deriving DecidableEq

inductive IoType where
  | unknown
  | read
  | write
  deriving DecidableEq, Repr

/-- An `io_context` in flight. `payload`, which no function reads, is what
    `send_bind_buffer` held for a write when it was submitted. -/
structure IoContext where
  type : IoType := .unknown
  Length : Nat := 0
  payload : List UInt8 := []
  deriving DecidableEq, Repr

inductive Callback where
  | receive (contents : List UInt8)
  | send_complete
  | close
  | error (code : Int)
  deriving DecidableEq, Repr

/-- What has happened to the socket so far, oldest first. -/
structure History where
  /-- payloads of the `send` calls whose locked body has run -/
  accepted : List UInt8 := []
  /-- bytes of the completed writes -/
  transmitted : List UInt8 := []
  callbacks : List Callback := []
  /-- runs of `on_active` -/
  activations : Nat := 0

/-- The socket, its requests in flight, and the `send` calls between guard and
    lock. `accepting` is set until the server that created it calls `on_active`. -/
structure Process where
  socket : TcpSocket
  requests : List IoContext := []
  sends : List Bytes := []
  accepting : Bool := false
  history : History := {}

/-- The process after `tcp_socket::create( io )`, or with a handle after the
    server's `tcp_socket::create( io, sock )`. -/
def Process.create (p : Platform) (sock : Option Nat) : Process where
  socket := {
    socket_handler := sock
    recv_bind_buffer := List.replicate p.data_buffer_size 0
    send_bind_buffer := List.replicate p.data_buffer_size 0 }
  accepting := sock.isSome

namespace Process

def call (w : Process) (callback : Callback) : Process :=
  { w with history := { w.history with callbacks := w.history.callbacks ++ [callback] } }

/-- `object_base::io_error`. -/
def io_error (w : Process) (code : Int) : Process :=
  if w.socket.error_event then w.call (.error code) else w

/-- `closesocket( socket_handler )` and the assignment of `INVALID_SOCKET`. -/
def closesocket (w : Process) : Process := { w with socket := { w.socket with socket_handler := none } }

/-- `io_service::submit`. `rio` says whether `RIOReceive` or `RIOSend` takes the
    request, which the source does not look at. -/
def submit (w : Process) (ctx : IoContext) (rio : Bool) : Process :=
  if rio then { w with requests := w.requests ++ [ctx] } else w

end Process

namespace TcpSocket

open Process

def submit_receiving (p : Platform) (w : Process) (rio : Bool) : Process :=
  w.submit { type := .read, Length := p.data_buffer_size } rio

/-- At most `RIORING_DATA_BUFFER_SIZE` bytes of the queue are copied into
    `send_bind_buffer`, whatever is still being sent from there. -/
def submit_sending (p : Platform) (w : Process) (rio : Bool) : Process :=
  let size := min w.socket.send_buffer.size p.data_buffer_size
  let send_bind_buffer := Block.overwrite w.socket.send_bind_buffer 0
    (w.socket.send_buffer.main_buffer.storage.take size)
  let w := { w with socket := { w.socket with send_bind_buffer } }
  w.submit { type := .write, Length := size, payload := send_bind_buffer.take size } rio

/-- `tcp_socket::on_active`. `failure` is the error code if the request queue or
    one of the two buffers could not be registered. -/
def on_active (p : Platform) (w : Process) (failure : Option Int) (rio : Bool) :
    Except Fault Process := do
  let recv_buffer ← w.socket.recv_buffer.assign p.malloc p.data_buffer_size
  let send_buffer ← w.socket.send_buffer.assign p.malloc p.data_buffer_size
  let w := { w with
    socket := { w.socket with connected_flag := true, recv_buffer, send_buffer }
    history := { w.history with activations := w.history.activations + 1 } }
  let w := match failure with
    | some code => w.io_error code
    | none => w
  .ok (submit_receiving p w rio)

def on_shutdown (w : Process) : Process :=
  { w with socket := { w.socket with connected_flag := false } }

def on_send_complete (w : Process) : Process :=
  if w.socket.shutdown_gracefully then w.closesocket else w

def close (w : Process) : CloseType → Process
  | .graceful =>
    if w.socket.send_buffer.empty then w.closesocket
    else { w with socket := { w.socket with shutdown_gracefully := true } }
  | .force => w.closesocket

def io_received (p : Platform) (w : Process) (bytes_transferred : Nat) (rio : Bool) :
    Except Fault Process := do
  let recv_buffer ← w.socket.recv_buffer.push p.malloc
    (w.socket.recv_bind_buffer.take bytes_transferred)
  let w := submit_receiving p { w with socket := { w.socket with recv_buffer } } rio
  .ok (if w.socket.recv_event then w.call (.receive recv_buffer.contents) else w)

def io_sent (p : Platform) (w : Process) (bytes_transferred : Nat) (rio : Bool) : Process :=
  let w := { w with socket := { w.socket with
    send_buffer := (w.socket.send_buffer.pop bytes_transferred).elevate } }
  if !w.socket.send_buffer.empty then submit_sending p w rio
  else
    let w := if w.socket.send_complete_event then w.call .send_complete else w
    on_send_complete w

def io_shutdown (w : Process) : Process :=
  let w := on_shutdown w
  let w := if w.socket.socket_handler ≠ none then w.closesocket else w
  if w.socket.socket_close_event then w.call .close else w

/-- The unlocked guard of `send`, and so the result of the call: a call that
    passes it takes the lock, runs `send_locked`, and returns true. -/
def send (w : Process) (bytes : Bytes) : Bool × Process :=
  if w.socket.shutdown_gracefully then (false, w)
  else if !w.socket.connected_flag then (false, w)
  else (true, { w with sends := w.sends ++ [bytes] })

/-- What `send` does under the lock. -/
def send_locked (p : Platform) (w : Process) (bytes : Bytes) (rio : Bool) : Except Fault Process := do
  let w := { w with history := { w.history with accepted := w.history.accepted ++ bytes } }
  if w.socket.send_buffer.empty then
    let send_buffer ← w.socket.send_buffer.push p.malloc bytes
    .ok (submit_sending p { w with socket := { w.socket with send_buffer } } rio)
  else
    let send_buffer ← w.socket.send_buffer.push p.malloc bytes
    .ok { w with socket := { w.socket with send_buffer } }

/-- One entry of the list that `resolve` returns: what `WSASocketW` returns for
    it, and whether `::connect` then succeeds. -/
structure Attempt where
  socket : Option Nat
  connected : Bool

/-- The loop of `connect`. A handle whose attempt failed is closed at once. -/
def connect_loop (s : TcpSocket) : List Attempt → TcpSocket
  | [] => s
  | a :: rest =>
    if a.socket = none then connect_loop s rest
    else if !a.connected then connect_loop s rest
    else { s with socket_handler := a.socket }

/-- `connect` with the addresses of `resolve`, none if that failed. -/
def connect (p : Platform) (w : Process) (addresses : List Attempt) (failure : Option Int)
    (rio : Bool) : Except Fault (Bool × Process) :=
  if addresses.isEmpty then .ok (false, w)
  else do
    let w := { w with socket := connect_loop w.socket addresses }
    if w.socket.socket_handler = none then .ok (false, w)
    else
      let w ← on_active p w failure rio
      .ok (true, w)

end TcpSocket

/-- The switch of `io_service::io` on one completion. `rio` is the outcome of
    the one submission a handler may make. -/
def io (p : Platform) (w : Process) (ctx : IoContext) (bytes_transferred : Nat) (rio : Bool) :
    Except Fault Process :=
  match ctx.type with
  | .read =>
    if bytes_transferred = 0 then .ok (TcpSocket.io_shutdown w)
    else TcpSocket.io_received p w bytes_transferred rio
  | .write => .ok (TcpSocket.io_sent p w bytes_transferred rio)
  | .unknown => .ok w

/-- What can happen next. A completion of the request at `index` transfers
    `bytes` bytes, which are `data` if they were received. -/
inductive Event where
  | set_event (slot : Slot) (registered : Bool)
  | connect (addresses : List TcpSocket.Attempt) (failure : Option Int) (rio : Bool)
  | accepted (failure : Option Int) (rio : Bool)
  | send (bytes : Bytes)
  | send_locked (index : Nat) (rio : Bool)
  | close (type : CloseType)
  | pop (size : Nat)
  | complete (index : Nat) (bytes : Nat) (data : List UInt8) (rio : Bool)

namespace Process

/-- Never more is transferred than was asked for. -/
def kernel_allows (ctx : IoContext) (bytes : Nat) (data : List UInt8) : Bool :=
  bytes ≤ ctx.Length && (ctx.type != .read || data.length == bytes)

/-- The kernel's own effect on memory: it fills `recv_bind_buffer`, and takes
    the bytes of a write from `send_bind_buffer`. -/
def kernel (w : Process) (ctx : IoContext) (bytes : Nat) (data : List UInt8) : Process :=
  match ctx.type with
  | .read => { w with socket := { w.socket with
      recv_bind_buffer := Block.overwrite w.socket.recv_bind_buffer 0 data } }
  | .write => { w with history := { w.history with
      transmitted := w.history.transmitted ++ w.socket.send_bind_buffer.take bytes } }
  | .unknown => w

def complete (p : Platform) (w : Process) (index bytes : Nat) (data : List UInt8) (rio : Bool) :
    Option Process := do
  let ctx ← w.requests[index]?
  if kernel_allows ctx bytes data then
    let w := { w with requests := w.requests.eraseIdx index }
    (io p (w.kernel ctx bytes data) ctx bytes rio).toOption
  else none

def set_event (w : Process) (slot : Slot) (registered : Bool) : Option Process :=
  match slot with
  | .receive => some { w with socket := { w.socket with recv_event := registered } }
  | .send_complete => some { w with socket := { w.socket with send_complete_event := registered } }
  | .close => some { w with socket := { w.socket with socket_close_event := registered } }
  | .error => some { w with socket := { w.socket with error_event := registered } }
  | .accept => none

/-- One step of the process. An event that cannot occur, and a call that does
    not return, have no next state. -/
def step (p : Platform) (w : Process) : Event → Option Process
  | .set_event slot registered => w.set_event slot registered
  | .connect addresses failure rio =>
    ((TcpSocket.connect p w addresses failure rio).map (·.2)).toOption
  | .accepted failure rio =>
    if w.accepting then (TcpSocket.on_active p { w with accepting := false } failure rio).toOption
    else none
  | .send bytes => some (TcpSocket.send w bytes).2
  | .send_locked index rio => do
    let bytes ← w.sends[index]?
    (TcpSocket.send_locked p { w with sends := w.sends.eraseIdx index } bytes rio).toOption
  | .close type => some (TcpSocket.close w type)
  | .pop size =>
    some { w with socket := { w.socket with recv_buffer := w.socket.recv_buffer.pop size } }
  | .complete index bytes data rio => w.complete p index bytes data rio

end Process

/-- The socket running on a platform. -/
def machine (p : Platform) (sock : Option Nat) : Machine Process Event where
  init := Process.create p sock
  step := Process.step p

end rioring.Windows
