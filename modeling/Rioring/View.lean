import Rioring.Io

/-! One socket of a process on its own: the part of the process that the
functions of that socket read and write, and the moves they make on it. The
contexts, their pool and the other objects are gone; what is left of a context
is the entry it submits. -/

namespace rioring

namespace SocketObject

/-- `World.load` for a region of the socket itself. -/
def load (s : SocketObject) (i : ObjectId) (iov : Iovec) (garbage : List UInt8) : List UInt8 :=
  if iov.iov_base = .send_buffer i s.send_buffer.main_buffer.generation then
    s.send_buffer.main_buffer.storage.take iov.iov_len
  else garbage

/-- `IoService.prepare` for a context of the socket itself. -/
def entry (s : SocketObject) (i : ObjectId) (c : ContextId) (ctx : IoContext) : Request where
  user_data := c
  context := ctx
  opcode := ctx.opcode
  fd := s.socket_handler
  payload := if ctx.type = .write then s.load i ctx.iov [] else []

/-- `IoService.current_sockaddr` for a context of the socket itself. -/
def current_sockaddr (s : SocketObject) (ctx : IoContext) : SockAddr :=
  match ctx.ctype with
  | .tcp_context => s.addr_storage
  | .udp_context => ctx.addr

end SocketObject

/-- The socket `object` with its requests in flight and its history. -/
structure View where
  object : ObjectId
  socket : SocketObject
  requests : List Request
  history : History

/-- What an event does to one socket. -/
inductive Action where
  | idle
  | set_event
  | start (sqe : Bool)
  | send (bytes : Bytes) (sqe : Bool)
  | send_to (bytes : Bytes) (addr : SockAddr) (sqe : Bool)
  | close (type : CloseType) (sqe : Bool)
  | received (r : Request) (data : List UInt8) (sqe : Bool)
  | receive_ended (r : Request) (res : Int)
  | sent (r : Request) (count : Nat) (sqe : Bool)
  | send_failed (r : Request) (res : Int)
  | shut_down (r : Request)
  | pop (size : Nat)

namespace View

/-- A socket that has just been created or accepted. -/
structure Fresh (v : View) : Prop where
  requests : v.requests = []
  history : v.history = {}
  recv_buffer : v.socket.recv_buffer = {}
  send_buffer : v.socket.send_buffer = {}
  shutdown_gracefully : v.socket.shutdown_gracefully = false
  connected_flag : v.socket.connected_flag = false

/-- The context a receive of the socket is submitted with. -/
structure ReadContext (p : Platform) (v : View) (ctx : IoContext) : Prop where
  type : ctx.type = .read
  handler : ctx.handler = some v.object
  iov : ctx.iov = { iov_base := .recv_bind_buffer v.object, iov_len := p.data_buffer_size }
  ctype : v.socket.socket_type = .udp → ctx.ctype = .udp_context

/-- The context a send of the socket's `main_buffer` is submitted with. -/
structure WriteContext (v : View) (addr : SockAddr) (ctx : IoContext) : Prop where
  type : ctx.type = .write
  handler : ctx.handler = some v.object
  iov : ctx.iov = {
    iov_base := .send_buffer v.object v.socket.send_buffer.main_buffer.generation
    iov_len := v.socket.send_buffer.size }
  datagram : v.socket.socket_type = .udp → ctx.ctype = .udp_context ∧
    SockAddr.addr_len addr.sa_family ≠ 0 ∧ ctx.addr.sa_family = addr.sa_family ∧
    ctx.addr.destination = addr.destination

structure ShutdownContext (v : View) (ctx : IoContext) : Prop where
  type : ctx.type = .shutdown
  handler : ctx.handler = some v.object

def call (v : View) (callback : Callback) : View :=
  { v with history := { v.history with callbacks := v.history.callbacks ++ [callback] } }

def error (v : View) (code : Int) : View :=
  if v.socket.error_event then v.call (.error code) else v

/-- Submission of a filled context: an entry in flight, or an error event. -/
def submit (v : View) (c : ContextId) (ctx : IoContext) (sqe : Bool) : View :=
  if sqe then
    { v with
      requests := v.requests ++ [v.socket.entry v.object c ctx]
      history := { v.history with
        submitted := v.history.submitted ++ [v.socket.entry v.object c ctx] } }
  else v.error IoService.EIO

/-- `submit_receiving`. -/
def Receives (p : Platform) (v : View) (sqe : Bool) (v' : View) : Prop :=
  ∃ c ctx, v.ReadContext p ctx ∧ v' = v.submit c ctx sqe

/-- `submit_sending`: nothing is submitted to an address of another family. -/
def Sends (v : View) (addr : SockAddr) (sqe : Bool) (v' : View) : Prop :=
  (∃ c ctx, v.WriteContext addr ctx ∧ v' = v.submit c ctx sqe) ∨
    (v.socket.socket_type = .udp ∧ SockAddr.addr_len addr.sa_family = 0 ∧ v' = v)

/-- `submit_shutdown`. -/
def Shuts (v : View) (sqe : Bool) (v' : View) : Prop :=
  ∃ c ctx, v.ShutdownContext ctx ∧ v' = v.submit c ctx sqe

def with_socket (v : View) (s : SocketObject) : View := { v with socket := s }

def with_send_buffer (v : View) (send_buffer : IoDoubleBuffer) : View :=
  { v with socket := { v.socket with send_buffer } }

/-- `r` is in flight and `v'` is the view without it. -/
def Completes (v : View) (r : Request) (v' : View) : Prop :=
  ∃ front back, v.requests = front ++ r :: back ∧ v' = { v with requests := front ++ back }

/-- The state `on_active` leaves before it submits the first receive. -/
def Activated (p : Platform) (v : View) (fd : Int) (v' : View) : Prop :=
  ∃ recv_buffer send_buffer,
    v.socket.recv_buffer.assign p.malloc p.data_buffer_size = .ok recv_buffer ∧
    v.socket.send_buffer.assign p.malloc p.data_buffer_size = .ok send_buffer ∧
    v' = { v with
      socket := { v.socket with
        socket_handler := fd
        connected_flag := v.socket.connected_flag || v.socket.socket_type == .tcp
        recv_buffer, send_buffer }
      history := { v.history with activations := v.history.activations + 1 } }

/-- The moves of one socket, by what happened to it. -/
inductive Move (p : Platform) : View → Action → View → Prop where
  | idle {v : View} : Move p v .idle v
  | set_event {v : View} (recv_event send_complete_event socket_close_event error_event : Bool) :
      Move p v .set_event (v.with_socket { v.socket with
        recv_event, send_complete_event, socket_close_event, error_event })
  | start_failed {v : View} {sqe : Bool} (fd : Int) :
      Move p v (.start sqe) (v.with_socket { v.socket with socket_handler := fd })
  | start_error {v : View} {sqe : Bool} (fd code : Int) :
      Move p v (.start sqe) ((v.with_socket { v.socket with socket_handler := fd }).error code)
  | start {v v₁ v' : View} {sqe : Bool} {fd : Int} (hactive : v.Activated p fd v₁)
      (hfd : v.socket.socket_type = .tcp → fd ≠ 0 ∨ v.socket.socket_handler = fd)
      (hreceive : v₁.Receives p sqe v') : Move p v (.start sqe) v'
  | send_first {v v' : View} {bytes : Bytes} {sqe : Bool} {send_buffer : IoDoubleBuffer}
      (htype : v.socket.socket_type = .tcp) (hempty : v.socket.send_buffer.empty = true)
      (hpush : v.socket.send_buffer.push p.malloc bytes = .ok send_buffer) (addr : SockAddr)
      (hsend : Sends { v.with_send_buffer send_buffer with
        history := { v.history with accepted := v.history.accepted ++ bytes } } addr sqe v') :
      Move p v (.send bytes sqe) v'
  | send_queued {v : View} {bytes : Bytes} {sqe : Bool} {send_buffer : IoDoubleBuffer}
      (htype : v.socket.socket_type = .tcp) (hempty : v.socket.send_buffer.empty = false)
      (hpush : v.socket.send_buffer.push p.malloc bytes = .ok send_buffer) :
      Move p v (.send bytes sqe) { v.with_send_buffer send_buffer with
        history := { v.history with accepted := v.history.accepted ++ bytes } }
  | send_to_first {v v' : View} {bytes : Bytes} {addr : SockAddr} {sqe : Bool}
      {send_buffer : IoDoubleBuffer}
      (htype : v.socket.socket_type = .udp) (hempty : v.socket.send_buffer.empty = true)
      (hpush : v.socket.send_buffer.push p.malloc bytes = .ok send_buffer)
      (hsend : Sends { v.with_send_buffer send_buffer with
        history := { v.history with requested := v.history.requested ++ [(bytes.val, addr)] } }
        addr sqe v') :
      Move p v (.send_to bytes addr sqe) v'
  | send_to_queued {v : View} {bytes : Bytes} {addr : SockAddr} {sqe : Bool}
      {send_buffer : IoDoubleBuffer}
      (htype : v.socket.socket_type = .udp) (hempty : v.socket.send_buffer.empty = false)
      (hpush : v.socket.send_buffer.push p.malloc bytes = .ok send_buffer) :
      Move p v (.send_to bytes addr sqe) { v.with_send_buffer send_buffer with
        history := { v.history with requested := v.history.requested ++ [(bytes.val, addr)] } }
  | close_drained {v v' : View} {sqe : Bool} (hempty : v.socket.send_buffer.empty = true)
      (hshut : v.Shuts sqe v') : Move p v (.close .graceful sqe) v'
  | close_queued {v : View} {sqe : Bool} (hempty : v.socket.send_buffer.empty = false) :
      Move p v (.close .graceful sqe)
        (v.with_socket { v.socket with shutdown_gracefully := true })
  | close_force {v v' : View} {sqe : Bool} (hshut : v.Shuts sqe v') :
      Move p v (.close .force sqe) v'
  | received {v v₁ v₂ : View} {r : Request} {data : List UInt8} {sqe : Bool}
      {recv_buffer : IoBuffer}
      (htype : r.context.type = .read) (hcomplete : v.Completes r v₁) (hdata : data ≠ [])
      (hlength : data.length ≤ r.context.iov.iov_len)
      (hpush : v.socket.recv_buffer.push p.malloc data = .ok recv_buffer)
      (hreceive : Receives p { v₁ with
        socket := { v₁.socket with recv_bind_buffer := data, recv_buffer }
        history := { v₁.history with received := v₁.history.received ++ data } } sqe v₂)
      (addr : SockAddr) :
      Move p v (.received r data sqe)
        (if v.socket.recv_event then v₂.call (.receive recv_buffer.contents addr) else v₂)
  | receive_ended {v v₁ : View} {r : Request} {res : Int}
      (htype : r.context.type = .read) (hcomplete : v.Completes r v₁) :
      Move p v (.receive_ended r res)
        (if v.socket.socket_close_event then
          (v₁.with_socket v₁.socket.on_shutdown).call .close
        else v₁.with_socket v₁.socket.on_shutdown)
  | sent_more {v v₁ v' : View} {r : Request} {count : Nat} {sqe : Bool} (garbage : List UInt8)
      (htype : r.context.type = .write) (hcomplete : v.Completes r v₁) (hcount : 0 < count)
      (hle : count ≤ r.payload.length)
      (hempty : ((v.socket.send_buffer.pop count).elevate).empty = false)
      (hsend : Sends { v₁.with_send_buffer (v.socket.send_buffer.pop count).elevate with
        history := { v.history with written := v.history.written ++
          (v.socket.load v.object r.context.iov garbage).take count } }
        (v.socket.current_sockaddr r.context) sqe v') :
      Move p v (.sent r count sqe) v'
  | sent_all {v v₁ v₂ v' : View} {r : Request} {count : Nat} {sqe : Bool} (garbage : List UInt8)
      (htype : r.context.type = .write) (hcomplete : v.Completes r v₁) (hcount : 0 < count)
      (hle : count ≤ r.payload.length)
      (hempty : ((v.socket.send_buffer.pop count).elevate).empty = true)
      (hpopped : v₂ = { v₁.with_send_buffer (v.socket.send_buffer.pop count).elevate with
        history := { v.history with
          written := v.history.written ++
            (v.socket.load v.object r.context.iov garbage).take count
          callbacks := v.history.callbacks ++
            if v.socket.send_complete_event then [.send_complete] else [] } })
      (hshut : if v.socket.shutdown_gracefully then v₂.Shuts sqe v' else v' = v₂) :
      Move p v (.sent r count sqe) v'
  | send_failed {v v₁ : View} {r : Request} {res : Int}
      (htype : r.context.type = .write) (hcomplete : v.Completes r v₁) :
      Move p v (.send_failed r res) (v₁.error (-res))
  | shut_down {v v₁ : View} {r : Request}
      (htype : r.context.type = .shutdown) (hcomplete : v.Completes r v₁) :
      Move p v (.shut_down r)
        (if v.socket.socket_handler ≠ 0 then
          { v₁ with
            socket := { v.socket with socket_handler := 0 }
            history := { v.history with closed := v.history.closed ++ [v.socket.socket_handler] } }
        else v₁)
  | pop {v : View} (size : Nat) :
      Move p v (.pop size) { v with
        socket := { v.socket with recv_buffer := v.socket.recv_buffer.pop size }
        history := { v.history with popped := v.history.popped +
          if size ≤ v.socket.recv_buffer.size then size else 0 } }

end View

namespace World

/-- The view of object `i` with the socket state `s`. -/
def view_with (w : World) (i : ObjectId) (s : SocketObject) : View where
  object := i
  socket := s
  requests := w.inflight.filter (·.context.handler = some i)
  history := w.history i

/-- The view of a socket of the process. -/
def view (w : World) (i : ObjectId) : Option View :=
  (w.sockets i).map (w.view_with i)

/-- What an event does to the socket `i`. -/
def action (w : World) (i : ObjectId) : Event → Action
  | .set_event j _ _ => if j = i then .set_event else .idle
  | .connect j addresses sqe => if j = i ∧ addresses.isEmpty = false then .start sqe else .idle
  | .activate j _ _ sqe => if j = i then .start sqe else .idle
  | .run_udp j _ _ _ sqe => if j = i then .start sqe else .idle
  | .send_locked index sqe =>
    match w.sends[index]? with
    | some (j, bytes) => if j = i then .send bytes sqe else .idle
    | none => .idle
  | .send_to j bytes addr sqe => if j = i then .send_to bytes addr sqe else .idle
  | .close j type sqe => if j = i then .close type sqe else .idle
  | .pop j size => if j = i then .pop size else .idle
  | .complete c cqe sqe =>
    match w.inflight.find? (·.user_data = c) with
    | some r =>
      if r.context.handler = some i then
        match r.context.type with
        | .read =>
          if 0 < cqe.res then .received r cqe.data sqe else .receive_ended r cqe.res
        | .write =>
          if 0 < cqe.res then .sent r cqe.res.toNat sqe else .send_failed r cqe.res
        | .shutdown => .shut_down r
        | _ => .idle
      else .idle
    | none => .idle
  | .resume c _ sqe =>
    match (w.handling.find? (·.context = c)).bind (·.accepting) with
    | some (_, j) => if j = i then .start sqe else .idle
    | none => .idle
  | _ => .idle

/-- A condition on what happens to the socket `i`, as one on the steps of the
    process. -/
def permits (i : ObjectId) (ok : View → Action → Prop) (w : World) (e : Event) : Prop :=
  ∀ v, w.view i = some v → ok v (w.action i e)

instance (i : ObjectId) (ok : View → Action → Prop) [DecidableRel ok] :
    DecidableRel (permits i ok) := fun w e =>
  match h : w.view i with
  | none => .isTrue fun v hv => by rw [h] at hv; cases hv
  | some v => decidable_of_iff (ok v (w.action i e)) <| by
      unfold permits
      rw [h]
      exact ⟨fun hok v' hv => by cases hv; exact hok, fun hall => hall v rfl⟩

end World

end rioring
