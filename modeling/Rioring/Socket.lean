import Rioring.World

namespace rioring

open IoService

namespace TcpSocket

def submit_receiving (p : Platform) (w : World) (i : ObjectId) (sqe : Bool) : World :=
  submit_context w (fun ctx => { ctx with
    handler := some i
    type := .read
    iov := { iov_base := .recv_bind_buffer i, iov_len := p.data_buffer_size } }) sqe

def submit_sending (w : World) (i : ObjectId) (s : SocketObject) (sqe : Bool) : World :=
  submit_context w (fun ctx => { ctx with
    handler := some i
    type := .write
    iov := {
      iov_base := .send_buffer i s.send_buffer.main_buffer.generation
      iov_len := s.send_buffer.size } }) sqe

def on_shutdown (s : SocketObject) : SocketObject :=
  { s with
    connected_flag := false
    recv_buffer := s.recv_buffer.destroy
    send_buffer := s.send_buffer.destroy }

/-- The socket options set here have no effect on the modelled state. -/
def on_active (p : Platform) (w : World) (i : ObjectId) (s : SocketObject) (sqe : Bool) :
    Except Fault World := do
  let recv_buffer ← s.recv_buffer.assign p.malloc p.data_buffer_size
  let send_buffer ← s.send_buffer.assign p.malloc p.data_buffer_size
  let w := w.set_socket i { s with connected_flag := true, recv_buffer, send_buffer }
  let w := w.record i fun h => { h with activations := h.activations + 1 }
  .ok (submit_receiving p w i sqe)

def set_remote_info (s : SocketObject) (addr : SockAddr) : SocketObject :=
  { s with
    remote_port_number := addr.port
    addr_storage := s.addr_storage.copy addr (if addr.sa_family = AF_INET then 16 else 28) }

end TcpSocket

namespace UdpSocket

def submit_receiving (p : Platform) (w : World) (i : ObjectId) (sqe : Bool) : World :=
  submit_context w (fun ctx => { ctx with
    handler := some i
    type := .read
    ctype := .udp_context
    iov := { iov_base := .recv_bind_buffer i, iov_len := p.data_buffer_size }
    msg := { ctx.msg with msg_iov := true, msg_iovlen := 1 } }) sqe

/-- A destination of a family other than the two known ones is not submitted;
    its context is not given back either. -/
def submit_sending (w : World) (i : ObjectId) (s : SocketObject) (addr : SockAddr) (sqe : Bool) :
    World :=
  let fill := fun ctx : IoContext => { ctx with
    handler := some i
    type := .write
    ctype := .udp_context
    iov := {
      iov_base := .send_buffer i s.send_buffer.main_buffer.generation
      iov_len := s.send_buffer.size }
    msg := { ctx.msg with msg_iov := true, msg_iovlen := 1 } }
  let addr_len := SockAddr.addr_len addr.sa_family
  if addr_len ≠ 0 then
    submit_context w (fun ctx => { fill ctx with addr := ctx.addr.copy addr addr_len }) sqe
  else (take_context w fill).2

def on_shutdown (s : SocketObject) : SocketObject :=
  { s with recv_buffer := s.recv_buffer.destroy, send_buffer := s.send_buffer.destroy }

def on_active (p : Platform) (w : World) (i : ObjectId) (s : SocketObject) (sqe : Bool) :
    Except Fault World := do
  let recv_buffer ← s.recv_buffer.assign p.malloc p.data_buffer_size
  let send_buffer ← s.send_buffer.assign p.malloc p.data_buffer_size
  let w := w.set_socket i { s with recv_buffer, send_buffer }
  let w := w.record i fun h => { h with activations := h.activations + 1 }
  .ok (submit_receiving p w i sqe)

end UdpSocket

namespace SocketObject

/-- The virtual functions, by the class of the socket. -/
def submit_receiving (p : Platform) (w : World) (i : ObjectId) (s : SocketObject) (sqe : Bool) :
    World :=
  match s.socket_type with
  | .tcp => TcpSocket.submit_receiving p w i sqe
  | .udp => UdpSocket.submit_receiving p w i sqe

def submit_sending (w : World) (i : ObjectId) (s : SocketObject) (addr : SockAddr) (sqe : Bool) :
    World :=
  match s.socket_type with
  | .tcp => TcpSocket.submit_sending w i s sqe
  | .udp => UdpSocket.submit_sending w i s addr sqe

def on_shutdown (s : SocketObject) : SocketObject :=
  match s.socket_type with
  | .tcp => TcpSocket.on_shutdown s
  | .udp => UdpSocket.on_shutdown s

def submit_shutdown (w : World) (i : ObjectId) (sqe : Bool) : World :=
  submit_context w (fun ctx => { ctx with handler := some i, type := .shutdown }) sqe

theorem submit_receiving_submitted (p : Platform) (w : World) (i : ObjectId) (s : SocketObject)
    (sqe : Bool) : Submitted w (s.submit_receiving p w i sqe) := by
  unfold submit_receiving
  split
  · exact submit_context_submitted w _ sqe
  · exact submit_context_submitted w _ sqe

theorem submit_sending_submitted (w : World) (i : ObjectId) (s : SocketObject) (addr : SockAddr)
    (sqe : Bool) : Submitted w (s.submit_sending w i addr sqe) := by
  unfold submit_sending
  split
  · exact submit_context_submitted w _ sqe
  · unfold UdpSocket.submit_sending
    dsimp only
    split
    · exact submit_context_submitted w _ sqe
    · rw [take_context_eq]
      exact ⟨rfl, rfl, rfl, rfl, rfl, rfl⟩

theorem submit_shutdown_submitted (w : World) (i : ObjectId) (sqe : Bool) :
    Submitted w (submit_shutdown w i sqe) :=
  submit_context_submitted w _ sqe

def on_send_complete (w : World) (i : ObjectId) (s : SocketObject) (sqe : Bool) : World :=
  if s.shutdown_gracefully then submit_shutdown w i sqe else w

def close (w : World) (i : ObjectId) (s : SocketObject) (type : CloseType) (sqe : Bool) : World :=
  match type with
  | .graceful =>
    if s.send_buffer.empty then submit_shutdown w i sqe
    else w.set_socket i { s with shutdown_gracefully := true }
  | .force => submit_shutdown w i sqe

def io_received (p : Platform) (w : World) (i : ObjectId) (s : SocketObject)
    (bytes_transferred : Nat) (addr : SockAddr) (sqe : Bool) : Except Fault World := do
  let recv_buffer ← s.recv_buffer.push p.malloc (s.recv_bind_buffer.take bytes_transferred)
  let s := { s with recv_buffer }
  let w := submit_receiving p (w.set_socket i s) i s sqe
  .ok (if s.recv_event then w.call i (.receive s.recv_buffer.contents addr) else w)

def io_sent (w : World) (i : ObjectId) (s : SocketObject) (bytes_transferred : Nat)
    (addr : SockAddr) (sqe : Bool) : World :=
  let s := { s with send_buffer := (s.send_buffer.pop bytes_transferred).elevate }
  let w := w.set_socket i s
  if !s.send_buffer.empty then submit_sending w i s addr sqe
  else
    let w := if s.send_complete_event then w.call i .send_complete else w
    on_send_complete w i s sqe

def io_shutdown (w : World) (i : ObjectId) (s : SocketObject) : World :=
  let s := on_shutdown s
  let w := w.set_socket i s
  if s.socket_close_event then w.call i .close else w

/-- The shutdown branch of `io_service::io` for a socket. -/
def shutdown_completed (w : World) (i : ObjectId) (s : SocketObject) : World :=
  if s.socket_handler ≠ 0 then
    (w.set_socket i { s with socket_handler := 0 }).close_descriptor s.socket_handler i
  else w

end SocketObject

namespace TcpSocket

/-- The unlocked guard of `send`, and so the result of the call: a call that
    passes it takes the lock, runs `send_locked`, and returns true. -/
def send (w : World) (i : ObjectId) (s : SocketObject) (bytes : Bytes) : Bool × World :=
  if s.shutdown_gracefully then (false, w)
  else if !s.connected_flag then (false, w)
  else (true, { w with sends := w.sends ++ [(i, bytes)] })

/-- What `send` does under the lock. -/
def send_locked (p : Platform) (w : World) (i : ObjectId) (s : SocketObject) (bytes : Bytes)
    (sqe : Bool) : Except Fault World := do
  let w := w.record i fun h => { h with accepted := h.accepted ++ bytes }
  if s.send_buffer.empty then
    let send_buffer ← s.send_buffer.push p.malloc bytes
    let s := { s with send_buffer }
    .ok (submit_sending (w.set_socket i s) i s sqe)
  else
    let send_buffer ← s.send_buffer.push p.malloc bytes
    .ok (w.set_socket i { s with send_buffer })

/-- One entry of the list that `resolve` returns: what `socket` returns for it,
    and whether `::connect` then succeeds. -/
structure Attempt where
  socket : Int
  connected : Bool

/-- Whether the attempt gives the socket a connection. -/
def Attempt.connects (a : Attempt) : Bool := 0 ≤ a.socket && a.connected

/-- The descriptor of the first attempt that gives the socket a connection. -/
def first_connected (addresses : List Attempt) : Option Int :=
  (addresses.find? (·.connects)).map (·.socket)

/-- The loop of `connect`. A descriptor that `socket` returns is not open
    already; one whose attempt failed is closed at once. -/
def connect_loop (w : World) (i : ObjectId) (s : SocketObject) :
    List Attempt → Option (World × SocketObject)
  | [] => some (w, s)
  | a :: rest =>
    if a.socket < 0 then connect_loop w i s rest
    else if w.descriptors a.socket ≠ none then none
    else if !a.connected then
      connect_loop ((w.open_descriptor a.socket i).free_descriptor a.socket) i s rest
    else some (w.open_descriptor a.socket i, { s with socket_handler := a.socket })

/-- `connect` with the addresses of `resolve`, none if that failed. -/
def connect (p : Platform) (w : World) (i : ObjectId) (s : SocketObject)
    (addresses : List Attempt) (sqe : Bool) : Option (Bool × World) :=
  if addresses.isEmpty then some (false, w)
  else do
    let (w, s) ← connect_loop w i s addresses
    if s.socket_handler = 0 then some (false, w.set_socket i s)
    else
      let w ← (on_active p w i s sqe).toOption
      some (true, w)

end TcpSocket

namespace UdpSocket

/-- The result does not depend on the destination. -/
def send_to (p : Platform) (w : World) (i : ObjectId) (s : SocketObject) (bytes : Bytes)
    (addr : SockAddr) (sqe : Bool) : Except Fault (Bool × World) := do
  let w := w.record i fun h => { h with requested := h.requested ++ [(bytes.val, addr)] }
  if s.send_buffer.empty then
    let send_buffer ← s.send_buffer.push p.malloc bytes
    let s := { s with send_buffer }
    .ok (true, submit_sending (w.set_socket i s) i s addr sqe)
  else
    let send_buffer ← s.send_buffer.push p.malloc bytes
    .ok (true, w.set_socket i { s with send_buffer })

/-- `socket` returned `fd`, which is negative or not open already. -/
def opened (w : World) (i : ObjectId) (s : SocketObject) (fd : Int) : World :=
  let w := w.set_socket i { s with socket_handler := fd }
  if 0 ≤ fd then w.open_descriptor fd i else w

/-- `udp_socket::activate`, given what `socket` and `bind` return. -/
def activate (p : Platform) (w : World) (i : ObjectId) (s : SocketObject) (fd : Int) (bind : Bool)
    (sqe : Bool) : Except Fault (Bool × World) := do
  let w := opened w i s fd
  if fd < 0 then .ok (false, w)
  else if !bind then .ok (false, w)
  else
    let w ← on_active p w i { s with socket_handler := fd } sqe
    .ok (true, w)

/-- `udp_server::run`, given what `socket` and `bind` return and `errno`. -/
def run (p : Platform) (w : World) (i : ObjectId) (s : SocketObject) (fd : Int) (bind : Bool)
    (errno : Int) (sqe : Bool) : Except Fault (Bool × World) := do
  let w := opened w i s fd
  if fd = -1 then .ok (false, w.io_error i errno)
  else if !bind then .ok (false, w.io_error i errno)
  else
    let w ← on_active p w i { s with socket_handler := fd } sqe
    .ok (true, w)

end UdpSocket

end rioring
