import Rioring.View

/-! The sending side of a socket on its own. -/

namespace rioring

/-- What sending depends on: the queue, the non-empty writes in flight, the
    flags, and the streams that went in and out. -/
structure Outbound where
  object : ObjectId
  socket_type : SocketType
  send_buffer : IoDoubleBuffer
  writes : List Request
  shutdown_gracefully : Bool
  connected_flag : Bool
  accepted : List UInt8
  requested : List (List UInt8 × SockAddr)
  written : List UInt8
  /-- the writes submitted so far, with the destinations given to the kernel -/
  handed : List (List UInt8 × SockAddr)
  activations : Nat

/-- A write of at least one byte. -/
def Request.is_write (r : Request) : Bool := r.context.type == .write && !r.payload.isEmpty

/-- What a write hands to the kernel. -/
def Request.datagram (r : Request) : List UInt8 × SockAddr := (r.payload, r.context.addr.destination)

namespace View

def outbound (v : View) : Outbound where
  object := v.object
  socket_type := v.socket.socket_type
  send_buffer := v.socket.send_buffer
  writes := v.requests.filter (·.is_write)
  shutdown_gracefully := v.socket.shutdown_gracefully
  connected_flag := v.socket.connected_flag
  accepted := v.history.accepted
  requested := v.history.requested
  written := v.history.written
  handed := (v.history.submitted.filter (·.context.type = .write)).map (·.datagram)
  activations := v.history.activations

end View

namespace Outbound

/-- A write request for what `main_buffer` holds. -/
structure Writes (o : Outbound) (addr : SockAddr) (r : Request) : Prop where
  type : r.context.type = .write
  iov : r.context.iov = {
    iov_base := .send_buffer o.object o.send_buffer.main_buffer.generation
    iov_len := o.send_buffer.size }
  payload : r.payload = o.send_buffer.main_buffer.contents
  datagram : o.socket_type = .udp → r.context.ctype = .udp_context ∧
    SockAddr.addr_len addr.sa_family ≠ 0 ∧ r.context.addr.sa_family = addr.sa_family ∧
    r.context.addr.destination = addr.destination

/-- A write request is submitted, unless there is no entry for it. -/
def submit (o : Outbound) (r : Request) (sqe : Bool) : Outbound :=
  if sqe then
    { o with
      writes := o.writes ++ [r].filter (·.is_write)
      handed := o.handed ++ [r.datagram] }
  else o

def Sends (o : Outbound) (addr : SockAddr) (sqe : Bool) (o' : Outbound) : Prop :=
  (∃ r, o.Writes addr r ∧ o' = o.submit r sqe) ∨
    (o.socket_type = .udp ∧ SockAddr.addr_len addr.sa_family = 0 ∧ o' = o)

/-- `push` and, when the queue was empty, a submission. -/
def Queues (p : Platform) (o : Outbound) (bytes : Bytes) (addr : SockAddr) (sqe : Bool)
    (o' : Outbound) : Prop :=
  ∃ send_buffer, o.send_buffer.push p.malloc bytes = .ok send_buffer ∧
    ((o.send_buffer.empty = true ∧ { o with send_buffer : Outbound }.Sends addr sqe o') ∨
      (o.send_buffer.empty = false ∧ o' = { o with send_buffer }))

def Completes (o : Outbound) (r : Request) (o' : Outbound) : Prop :=
  ∃ front back, o.writes = front ++ r :: back ∧ o' = { o with writes := front ++ back }

/-- `SocketObject.load` with the bytes there are. -/
def load (o : Outbound) (iov : Iovec) (garbage : List UInt8) : List UInt8 :=
  if iov.iov_base = .send_buffer o.object o.send_buffer.main_buffer.generation then
    o.send_buffer.main_buffer.storage.take iov.iov_len
  else garbage

/-- The moves of the sending side. -/
inductive Move (p : Platform) : Outbound → Action → Outbound → Prop where
  | same {o : Outbound} {a : Action}
      (hsend : ∀ bytes sqe, a ≠ .send bytes sqe) (hsend_to : ∀ bytes addr sqe, a ≠ .send_to bytes addr sqe)
      (hsent : ∀ r count sqe, a ≠ .sent r count sqe) (hended : ∀ r res, a ≠ .receive_ended r res)
      (hfailed : ∀ r res, a = .send_failed r res → r.payload = []) : Move p o a o
  | start {o : Outbound} {send_buffer : IoDoubleBuffer} {sqe : Bool}
      (hassign : o.send_buffer.assign p.malloc p.data_buffer_size = .ok send_buffer) :
      Move p o (.start sqe) { o with
        send_buffer
        connected_flag := o.connected_flag || o.socket_type == .tcp
        activations := o.activations + 1 }
  | send {o o' : Outbound} {bytes : Bytes} {sqe : Bool} (addr : SockAddr)
      (htype : o.socket_type = .tcp)
      (hqueues : Queues p { o with accepted := o.accepted ++ bytes } bytes addr sqe o') :
      Move p o (.send bytes sqe) o'
  | send_to {o o' : Outbound} {bytes : Bytes} {addr : SockAddr} {sqe : Bool}
      (htype : o.socket_type = .udp)
      (hqueues : Queues p { o with requested := o.requested ++ [(bytes.val, addr)] } bytes addr sqe o') :
      Move p o (.send_to bytes addr sqe) o'
  | close {o : Outbound} {sqe : Bool} (hempty : o.send_buffer.empty = false) :
      Move p o (.close .graceful sqe) { o with shutdown_gracefully := true }
  | receive_ended {o : Outbound} {r : Request} {res : Int} :
      Move p o (.receive_ended r res) { o with
        send_buffer := o.send_buffer.destroy
        connected_flag := o.connected_flag && o.socket_type != .tcp }
  | sent {o o₁ o' : Outbound} {r : Request} {count : Nat} {sqe : Bool} (garbage : List UInt8)
      (addr : SockAddr) (haddr : o.socket_type = .udp → r.context.ctype = .udp_context →
        addr = r.context.addr)
      (hcomplete : o.Completes r o₁) (hcount : 0 < count) (hle : count ≤ r.payload.length)
      {send_buffer : IoDoubleBuffer} (hpop : send_buffer = (o.send_buffer.pop count).elevate)
      {o₂ : Outbound} (ho₂ : o₂ = { o₁ with
        send_buffer
        written := o.written ++ (o.load r.context.iov garbage).take count })
      (hsend : (send_buffer.empty = true ∧ o' = o₂) ∨
        (send_buffer.empty = false ∧ o₂.Sends addr sqe o')) :
      Move p o (.sent r count sqe) o'
  | send_failed {o o' : Outbound} {r : Request} {res : Int} (hpayload : r.payload ≠ [])
      (hcomplete : o.Completes r o') : Move p o (.send_failed r res) o'

end Outbound

namespace View

variable {p : Platform} {v v' : View}

theorem outbound_call (callback : Callback) : (v.call callback).outbound = v.outbound := rfl

theorem outbound_error (code : Int) : (v.error code).outbound = v.outbound := by
  rw [error]
  split <;> rfl

/-- Submitting a request that is not a write does not concern the sending side. -/
theorem outbound_submit {c : ContextId} {ctx : IoContext} (htype : ctx.type ≠ .write) (sqe : Bool) :
    (v.submit c ctx sqe).outbound = v.outbound := by
  have hentry : (v.socket.entry v.object c ctx).context.type ≠ .write := htype
  have hwrite : (v.socket.entry v.object c ctx).is_write = false := by
    simp [Request.is_write, hentry]
  rw [submit]
  split
  · simp [outbound, hwrite, hentry]
  · exact outbound_error _

theorem Receives.outbound {sqe : Bool} (h : v.Receives p sqe v') : v'.outbound = v.outbound := by
  obtain ⟨c, ctx, hctx, rfl⟩ := h
  exact outbound_submit (by rw [hctx.type]; decide) sqe

theorem Shuts.outbound {sqe : Bool} (h : v.Shuts sqe v') : v'.outbound = v.outbound := by
  obtain ⟨c, ctx, hctx, rfl⟩ := h
  exact outbound_submit (by rw [hctx.type]; decide) sqe

/-- The payload of a write is what `main_buffer` holds when it is submitted. -/
theorem WriteContext.payload {addr : SockAddr} {ctx : IoContext} (hctx : v.WriteContext addr ctx)
    (c : ContextId) :
    (v.socket.entry v.object c ctx).payload = v.socket.send_buffer.main_buffer.contents := by
  simp only [SocketObject.entry, hctx.type, ↓reduceIte, SocketObject.load, hctx.iov]
  rfl

theorem Sends.outbound {addr : SockAddr} {sqe : Bool} (h : v.Sends addr sqe v') :
    v.outbound.Sends addr sqe v'.outbound := by
  rcases h with ⟨c, ctx, hctx, rfl⟩ | ⟨htype, hlen, rfl⟩
  · refine .inl ⟨v.socket.entry v.object c ctx, ⟨hctx.type, hctx.iov, hctx.payload c, hctx.datagram⟩, ?_⟩
    rw [submit, Outbound.submit]
    split
    · have htype : (v.socket.entry v.object c ctx).context.type = .write := hctx.type
      simp [View.outbound, htype]
    · exact outbound_error _
  · exact .inr ⟨htype, hlen, rfl⟩

/-- Taking out a request that is not a non-empty write changes nothing. -/
theorem Completes.outbound_same {r : Request} (h : v.Completes r v') (hwrite : r.is_write = false) :
    v'.outbound = v.outbound := by
  obtain ⟨front, back, hrequests, rfl⟩ := h
  simp [outbound, hrequests, hwrite]

theorem Completes.outbound {r : Request} (h : v.Completes r v') (hwrite : r.is_write = true) :
    v.outbound.Completes r v'.outbound := by
  obtain ⟨front, back, hrequests, rfl⟩ := h
  refine ⟨front.filter (·.is_write), back.filter (·.is_write), ?_, ?_⟩
  · simp [View.outbound, hrequests, hwrite]
  · simp [View.outbound]

theorem outbound_on_shutdown : (v.with_socket v.socket.on_shutdown).outbound = { v.outbound with
    send_buffer := v.outbound.send_buffer.destroy
    connected_flag := v.outbound.connected_flag && v.outbound.socket_type != .tcp } := by
  cases htype : v.socket.socket_type <;>
    simp [outbound, with_socket, SocketObject.on_shutdown, TcpSocket.on_shutdown, UdpSocket.on_shutdown,
      htype]

theorem is_write_of_count {r : Request} {count : Nat} (htype : r.context.type = .write)
    (hcount : 0 < count) (hle : count ≤ r.payload.length) : r.is_write = true := by
  have hpayload : r.payload ≠ [] := List.length_pos_iff.mp (lt_of_lt_of_le hcount hle)
  simp [Request.is_write, htype, hpayload]

/-- Every move of a socket is one of its sending side. -/
theorem Move.outbound {a : Action} (h : v.Move p a v') : Outbound.Move p v.outbound a v'.outbound := by
  -- the moves that leave the sending side alone
  have hsame : ∀ {a : Action}, v'.outbound = v.outbound →
      (∀ bytes sqe, a ≠ .send bytes sqe) → (∀ bytes addr sqe, a ≠ .send_to bytes addr sqe) →
      (∀ r count sqe, a ≠ .sent r count sqe) → (∀ r res, a ≠ .receive_ended r res) →
      (∀ r res, a = .send_failed r res → r.payload = []) →
      Outbound.Move p v.outbound a v'.outbound := by
    intro a heq h1 h2 h3 h4 h5
    rw [heq]
    exact .same h1 h2 h3 h4 h5
  cases h with
  | idle => exact hsame rfl (by simp) (by simp) (by simp) (by simp) (by simp)
  | set_event => exact hsame rfl (by simp) (by simp) (by simp) (by simp) (by simp)
  | start_failed fd => exact hsame rfl (by simp) (by simp) (by simp) (by simp) (by simp)
  | start_error fd code =>
    exact hsame (outbound_error code) (by simp) (by simp) (by simp) (by simp) (by simp)
  | start hactive _ hreceive =>
    obtain ⟨recv_buffer, send_buffer, _, hassign, rfl⟩ := hactive
    rw [hreceive.outbound]
    exact .start hassign
  | send_first htype hempty hpush addr hsend =>
    exact .send addr htype ⟨_, hpush, .inl ⟨hempty, hsend.outbound⟩⟩
  | send_queued htype hempty hpush => exact .send {} htype ⟨_, hpush, .inr ⟨hempty, rfl⟩⟩
  | send_to_first htype hempty hpush hsend =>
    exact .send_to htype ⟨_, hpush, .inl ⟨hempty, hsend.outbound⟩⟩
  | send_to_queued htype hempty hpush => exact .send_to htype ⟨_, hpush, .inr ⟨hempty, rfl⟩⟩
  | close_drained hempty hshut =>
    exact hsame hshut.outbound (by simp) (by simp) (by simp) (by simp) (by simp)
  | close_queued hempty => exact .close hempty
  | close_force hshut => exact hsame hshut.outbound (by simp) (by simp) (by simp) (by simp) (by simp)
  | received htype hcomplete hdata hlength hpush hreceive addr =>
    refine hsame ?_ (by simp) (by simp) (by simp) (by simp) (by simp)
    have hkept := hcomplete.outbound_same (by simp [Request.is_write, htype])
    obtain ⟨front, back, hrequests, rfl⟩ := hcomplete
    split
    · rw [outbound_call, hreceive.outbound]
      exact hkept
    · rw [hreceive.outbound]
      exact hkept
  | receive_ended htype hcomplete =>
    rename_i v₁ r res
    have hkept := hcomplete.outbound_same (by simp [Request.is_write, htype])
    have hreset := outbound_on_shutdown (v := v₁)
    rw [hkept] at hreset
    split
    · rw [outbound_call, hreset]
      exact .receive_ended
    · rw [hreset]
      exact .receive_ended
  | sent_more garbage htype hcomplete hcount hle hempty hsend =>
    rename_i r _ _
    have hwrite : r.is_write = true := is_write_of_count htype hcount hle
    have hcompletes := hcomplete.outbound hwrite
    obtain ⟨front, back, hrequests, rfl⟩ := hcomplete
    refine .sent garbage (v.socket.current_sockaddr r.context) (fun _ hctype => ?_) hcompletes hcount
      hle rfl rfl ?_
    · simp [SocketObject.current_sockaddr, hctype]
    · exact .inr ⟨hempty, hsend.outbound⟩
  | sent_all garbage htype hcomplete hcount hle hempty hpopped hshut =>
    rename_i r _ _
    have hwrite : r.is_write = true := is_write_of_count htype hcount hle
    have hcompletes := hcomplete.outbound hwrite
    obtain ⟨front, back, hrequests, rfl⟩ := hcomplete
    refine .sent garbage r.context.addr (fun _ _ => rfl) hcompletes hcount hle rfl rfl
      (.inl ⟨hempty, ?_⟩)
    split at hshut
    · rw [hshut.outbound, hpopped]
      rfl
    · rw [hshut, hpopped]
      rfl
  | send_failed htype hcomplete =>
    rename_i v₁ r res
    rw [outbound_error]
    by_cases hpayload : r.payload = []
    · rw [hcomplete.outbound_same (by simp [Request.is_write, hpayload])]
      exact .same (by simp) (by simp) (by simp) (by simp) (by simp [hpayload])
    · exact .send_failed hpayload (hcomplete.outbound (by simp [Request.is_write, htype, hpayload]))
  | shut_down htype hcomplete =>
    refine hsame ?_ (by simp) (by simp) (by simp) (by simp) (by simp)
    have hkept := hcomplete.outbound_same (by simp [Request.is_write, htype])
    obtain ⟨front, back, hrequests, rfl⟩ := hcomplete
    split
    · exact hkept
    · exact hkept
  | pop size => exact hsame rfl (by simp) (by simp) (by simp) (by simp) (by simp)

end View

end rioring
