import Rioring.View

/-! The receiving side of a socket on its own. -/

namespace rioring

/-- A callback of the receiving side. -/
def Callback.is_inbound : Callback → Bool
  | .receive _ _ | .close => true
  | _ => false

/-- What receiving depends on: the buffer, the reads in flight, the bytes that
    came in and were popped, and the events delivered. -/
structure Inbound where
  recv_buffer : IoBuffer
  reads : List Request
  received : List UInt8
  popped : Nat
  events : List Callback
  activations : Nat

def Request.is_read (r : Request) : Bool := r.context.type == .read

/-- The reads of a socket in flight. -/
def World.reads (w : World) (i : ObjectId) : List Request :=
  (w.inflight.filter (·.context.handler = some i)).filter (·.is_read)

namespace View

def inbound (v : View) : Inbound where
  recv_buffer := v.socket.recv_buffer
  reads := v.requests.filter (·.is_read)
  received := v.history.received
  popped := v.history.popped
  events := v.history.callbacks.filter (·.is_inbound)
  activations := v.history.activations

end View

namespace Inbound

/-- `submit_receiving`, of a whole `recv_bind_buffer`. -/
def Receives (p : Platform) (n : Inbound) (sqe : Bool) (n' : Inbound) : Prop :=
  ∃ r, r.context.iov.iov_len = p.data_buffer_size ∧
    n' = if sqe then { n with reads := n.reads ++ [r] } else n

def Completes (n : Inbound) (r : Request) (n' : Inbound) : Prop :=
  ∃ front back, n.reads = front ++ r :: back ∧ n' = { n with reads := front ++ back }

/-- The moves of the receiving side. -/
inductive Move (p : Platform) : Inbound → Action → Inbound → Prop where
  | same {n : Inbound} {a : Action} (hreceived : ∀ r data sqe, a ≠ .received r data sqe)
      (hended : ∀ r res, a ≠ .receive_ended r res) (hpop : ∀ size, a ≠ .pop size) : Move p n a n
  | start {n n' : Inbound} {recv_buffer : IoBuffer} {sqe : Bool}
      (hassign : n.recv_buffer.assign p.malloc p.data_buffer_size = .ok recv_buffer)
      (hreceive : Receives p { n with recv_buffer, activations := n.activations + 1 } sqe n') :
      Move p n (.start sqe) n'
  | received {n n₁ n₂ : Inbound} {r : Request} {data : List UInt8} {sqe : Bool}
      {recv_buffer : IoBuffer} (hcomplete : n.Completes r n₁) (hdata : data ≠ [])
      (hlength : data.length ≤ r.context.iov.iov_len)
      (hpush : n.recv_buffer.push p.malloc data = .ok recv_buffer)
      (hreceive : Receives p { n₁ with recv_buffer, received := n.received ++ data } sqe n₂)
      (registered : Bool) (addr : SockAddr) :
      Move p n (.received r data sqe) { n₂ with events := n.events ++
        if registered then [.receive recv_buffer.contents addr] else [] }
  | receive_ended {n n₁ : Inbound} {r : Request} {res : Int} (hcomplete : n.Completes r n₁)
      (registered : Bool) :
      Move p n (.receive_ended r res) { n₁ with
        recv_buffer := n.recv_buffer.destroy
        events := n.events ++ if registered then [.close] else [] }
  | pop {n : Inbound} (size : Nat) : Move p n (.pop size) { n with
      recv_buffer := n.recv_buffer.pop size
      popped := n.popped + if size ≤ n.recv_buffer.size then size else 0 }

end Inbound

namespace View

variable {p : Platform} {v v' : View}

theorem inbound_error (code : Int) : (v.error code).inbound = v.inbound := by
  rw [error]
  split
  · simp [inbound, call, Callback.is_inbound]
  · rfl

/-- Submitting a request that is not a read does not concern the receiving side. -/
theorem inbound_submit {c : ContextId} {ctx : IoContext} (htype : ctx.type ≠ .read) (sqe : Bool) :
    (v.submit c ctx sqe).inbound = v.inbound := by
  have hread : (v.socket.entry v.object c ctx).is_read = false := by
    simp [Request.is_read, SocketObject.entry, htype]
  rw [submit]
  split
  · simp [inbound, hread]
  · exact inbound_error _

theorem Receives.inbound {sqe : Bool} (h : v.Receives p sqe v') :
    v.inbound.Receives p sqe v'.inbound := by
  obtain ⟨c, ctx, hctx, rfl⟩ := h
  have hread : (v.socket.entry v.object c ctx).is_read = true := by
    simp [Request.is_read, SocketObject.entry, hctx.type]
  refine ⟨v.socket.entry v.object c ctx, congrArg Iovec.iov_len hctx.iov, ?_⟩
  rw [submit]
  split
  · simp [View.inbound, hread]
  · exact inbound_error _

theorem Shuts.inbound {sqe : Bool} (h : v.Shuts sqe v') : v'.inbound = v.inbound := by
  obtain ⟨c, ctx, hctx, rfl⟩ := h
  exact inbound_submit (by rw [hctx.type]; decide) sqe

theorem Sends.inbound {addr : SockAddr} {sqe : Bool} (h : v.Sends addr sqe v') :
    v'.inbound = v.inbound := by
  rcases h with ⟨c, ctx, hctx, rfl⟩ | ⟨_, _, rfl⟩
  · exact inbound_submit (by rw [hctx.type]; decide) sqe
  · rfl

theorem Completes.inbound_same {r : Request} (h : v.Completes r v') (htype : r.context.type ≠ .read) :
    v'.inbound = v.inbound := by
  obtain ⟨front, back, hrequests, rfl⟩ := h
  have hread : r.is_read = false := by simp [Request.is_read, htype]
  simp [inbound, hrequests, hread]

theorem Completes.inbound {r : Request} (h : v.Completes r v') (htype : r.context.type = .read) :
    v.inbound.Completes r v'.inbound := by
  obtain ⟨front, back, hrequests, rfl⟩ := h
  have hread : r.is_read = true := by simp [Request.is_read, htype]
  refine ⟨front.filter (·.is_read), back.filter (·.is_read), ?_, ?_⟩
  · simp [View.inbound, hrequests, hread]
  · simp [View.inbound]

/-- Every move of a socket is one of its receiving side. -/
theorem Move.inbound {a : Action} (h : v.Move p a v') : Inbound.Move p v.inbound a v'.inbound := by
  -- the moves that leave the receiving side alone
  have hsame : ∀ {a : Action}, v'.inbound = v.inbound → (∀ r data sqe, a ≠ .received r data sqe) →
      (∀ r res, a ≠ .receive_ended r res) → (∀ size, a ≠ .pop size) →
      Inbound.Move p v.inbound a v'.inbound := by
    intro a heq h1 h2 h3
    rw [heq]
    exact .same h1 h2 h3
  cases h with
  | idle => exact hsame rfl (by simp) (by simp) (by simp)
  | set_event => exact hsame rfl (by simp) (by simp) (by simp)
  | start_failed fd => exact hsame rfl (by simp) (by simp) (by simp)
  | start_error fd code => exact hsame (inbound_error code) (by simp) (by simp) (by simp)
  | start hactive _ hreceive =>
    obtain ⟨recv_buffer, send_buffer, hassign, _, rfl⟩ := hactive
    exact .start hassign hreceive.inbound
  | send_first htype hempty hpush addr hsend =>
    exact hsame hsend.inbound (by simp) (by simp) (by simp)
  | send_queued => exact hsame rfl (by simp) (by simp) (by simp)
  | send_to_first htype hempty hpush hsend => exact hsame hsend.inbound (by simp) (by simp) (by simp)
  | send_to_queued => exact hsame rfl (by simp) (by simp) (by simp)
  | close_drained hempty hshut => exact hsame hshut.inbound (by simp) (by simp) (by simp)
  | close_queued => exact hsame rfl (by simp) (by simp) (by simp)
  | close_force hshut => exact hsame hshut.inbound (by simp) (by simp) (by simp)
  | received htype hcomplete hdata hlength hpush hreceive addr =>
    rename_i v₁ v₂ r data sqe recv_buffer
    have hcompletes := hcomplete.inbound htype
    obtain ⟨front, back, hrequests, rfl⟩ := hcomplete
    have hmove := Inbound.Move.received hcompletes hdata hlength hpush hreceive.inbound
      v.socket.recv_event addr
    have hevents : v₂.inbound.events = v.inbound.events := by
      obtain ⟨_, _, hsame⟩ := hreceive.inbound
      rw [hsame]
      split <;> rfl
    split
    · rename_i hregistered
      rw [hregistered, ← hevents] at hmove
      simpa [View.inbound, call, Callback.is_inbound] using hmove
    · rename_i hregistered
      rw [if_neg hregistered, List.append_nil, ← hevents] at hmove
      exact hmove
  | receive_ended htype hcomplete =>
    rename_i v₁ r res
    have hcompletes := hcomplete.inbound htype
    obtain ⟨front, back, hrequests, rfl⟩ := hcomplete
    have hmove : Inbound.Move p v.inbound (.receive_ended r res) _ :=
      .receive_ended hcompletes v.socket.socket_close_event
    have hdestroy : v.socket.on_shutdown.recv_buffer = v.socket.recv_buffer.destroy := by
      rw [SocketObject.on_shutdown]
      split <;> rfl
    split
    · rename_i hregistered
      rw [hregistered] at hmove
      simpa [View.inbound, call, with_socket, Callback.is_inbound, hdestroy] using hmove
    · rename_i hregistered
      rw [if_neg hregistered, List.append_nil] at hmove
      simpa [View.inbound, with_socket, hdestroy] using hmove
  | sent_more garbage htype hcomplete hcount hle hempty hsend =>
    refine hsame ?_ (by simp) (by simp) (by simp)
    have hkept := hcomplete.inbound_same (by rw [htype]; decide)
    obtain ⟨front, back, hrequests, rfl⟩ := hcomplete
    rw [hsend.inbound]
    exact hkept
  | sent_all garbage htype hcomplete hcount hle hempty hpopped hshut =>
    refine hsame ?_ (by simp) (by simp) (by simp)
    have hkept := hcomplete.inbound_same (by rw [htype]; decide)
    obtain ⟨front, back, hrequests, rfl⟩ := hcomplete
    rename_i v₂ r count sqe
    have hevent : v₂.inbound = v.inbound := by
      rw [← hkept, hpopped]
      cases v.socket.send_complete_event <;> simp [View.inbound, with_send_buffer, Callback.is_inbound]
    split at hshut
    · rw [hshut.inbound, hevent]
    · rw [hshut, hevent]
  | send_failed htype hcomplete =>
    refine hsame ?_ (by simp) (by simp) (by simp)
    rw [inbound_error, hcomplete.inbound_same (by rw [htype]; decide)]
  | shut_down htype hcomplete =>
    refine hsame ?_ (by simp) (by simp) (by simp)
    have hkept := hcomplete.inbound_same (by rw [htype]; decide)
    obtain ⟨front, back, hrequests, rfl⟩ := hcomplete
    split
    · exact hkept
    · exact hkept
  | pop size => exact .pop size

end View

end rioring
