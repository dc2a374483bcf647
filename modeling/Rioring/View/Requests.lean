import Rioring.View

/-! What the moves of a socket do to its requests. -/

namespace rioring

/-- The request whose completion an action handles. -/
def Action.completed : Action → Option Request
  | .received r _ _ | .receive_ended r _ | .sent r _ _ | .send_failed r _ | .shut_down r => some r
  | _ => none

namespace View

variable {p : Platform} {v v' : View} {a : Action}

/-- The kind of request an action submits, if it gets that far and there is an
    entry for it. -/
def submits (v : View) : Action → Option IoType
  | .start sqe => if sqe then some .read else none
  | .received _ _ sqe => if sqe then some .read else none
  | .send _ sqe => if sqe && v.socket.send_buffer.empty then some .write else none
  | .send_to _ addr sqe =>
    if sqe && v.socket.send_buffer.empty && SockAddr.addr_len addr.sa_family != 0 then some .write
    else none
  | .close .graceful sqe => if sqe && v.socket.send_buffer.empty then some .shutdown else none
  | .close .force sqe => if sqe then some .shutdown else none
  | .sent _ count sqe =>
    if !sqe then none
    else if !((v.socket.send_buffer.pop count).elevate).empty then some .write
    else if v.socket.shutdown_gracefully then some .shutdown
    else none
  | _ => none

/-- The requests in flight without the one that completes. -/
def Remaining (v : View) (completed : Option Request) (rest : List Request) : Prop :=
  match completed with
  | none => rest = v.requests
  | some r => ∃ front back, v.requests = front ++ r :: back ∧ rest = front ++ back

/-- At most one request is submitted, of the kind given. -/
def Adds (v : View) (rest : List Request) (type : Option IoType) (v' : View) : Prop :=
  (v'.requests = rest ∧ v'.history.submitted = v.history.submitted) ∨
    ∃ r, type = some r.context.type ∧ r.context.handler = some v.object ∧
      r.fd = v'.socket.socket_handler ∧ v'.requests = rest ++ [r] ∧
      v'.history.submitted = v.history.submitted ++ [r]

theorem Adds.none {rest : List Request} {type : Option IoType} (hrequests : v'.requests = rest)
    (hsubmitted : v'.history.submitted = v.history.submitted) : v.Adds rest type v' :=
  .inl ⟨hrequests, hsubmitted⟩

theorem error_requests (code : Int) : (v.error code).requests = v.requests ∧
    (v.error code).history.submitted = v.history.submitted ∧ (v.error code).socket = v.socket := by
  rw [error]
  split
  · exact ⟨rfl, rfl, rfl⟩
  · exact ⟨rfl, rfl, rfl⟩

theorem submit_adds {c : ContextId} {ctx : IoContext} (hhandler : ctx.handler = some v.object)
    (sqe : Bool) {type : Option IoType} (htype : sqe = true → type = some ctx.type) :
    v.Adds v.requests type (v.submit c ctx sqe) := by
  rw [submit]
  split
  · rename_i hsqe
    exact .inr ⟨v.socket.entry v.object c ctx, htype hsqe, hhandler, rfl, rfl, rfl⟩
  · obtain ⟨hrequests, hsubmitted, _⟩ := error_requests (v := v) IoService.EIO
    exact .none hrequests hsubmitted

theorem Receives.adds {sqe : Bool} {type : Option IoType} (h : v.Receives p sqe v')
    (htype : sqe = true → type = some .read) : v.Adds v.requests type v' := by
  obtain ⟨c, ctx, hctx, rfl⟩ := h
  exact submit_adds hctx.handler sqe (by rw [hctx.type]; exact htype)

theorem Sends.adds {addr : SockAddr} {sqe : Bool} {type : Option IoType} (h : v.Sends addr sqe v')
    (htype : sqe = true → (v.socket.socket_type = .udp → SockAddr.addr_len addr.sa_family ≠ 0) →
      type = some .write) : v.Adds v.requests type v' := by
  rcases h with ⟨c, ctx, hctx, rfl⟩ | ⟨_, _, rfl⟩
  · refine submit_adds hctx.handler sqe ?_
    rw [hctx.type]
    exact fun hsqe => htype hsqe fun hudp => (hctx.datagram hudp).2.1
  · exact .none rfl rfl

theorem Shuts.adds {sqe : Bool} {type : Option IoType} (h : v.Shuts sqe v')
    (htype : sqe = true → type = some .shutdown) : v.Adds v.requests type v' := by
  obtain ⟨c, ctx, hctx, rfl⟩ := h
  exact submit_adds hctx.handler sqe (by rw [hctx.type]; exact htype)

theorem Completes.remaining {r : Request} (h : v.Completes r v') :
    v.Remaining (some r) v'.requests ∧ v'.object = v.object ∧ v'.history = v.history ∧
      v'.socket = v.socket := by
  obtain ⟨front, back, hrequests, rfl⟩ := h
  exact ⟨⟨front, back, hrequests, rfl⟩, rfl, rfl, rfl⟩

/-- A move takes out the request it completes and adds at most one, of the kind
    that the action submits. -/
theorem Move.adds (hmove : v.Move p a v') :
    ∃ rest, v.Remaining a.completed rest ∧ v.Adds rest (v.submits a) v' := by
  cases hmove with
  | idle => exact ⟨_, rfl, .none rfl rfl⟩
  | set_event => exact ⟨_, rfl, .none rfl rfl⟩
  | start_failed fd => exact ⟨_, rfl, .none rfl rfl⟩
  | start_error fd code =>
    obtain ⟨hrequests, hsubmitted, _⟩ := error_requests
      (v := v.with_socket { v.socket with socket_handler := fd }) code
    exact ⟨_, rfl, .none hrequests hsubmitted⟩
  | start hactive _ hreceive =>
    obtain ⟨recv_buffer, send_buffer, _, _, rfl⟩ := hactive
    exact ⟨_, rfl, hreceive.adds fun hsqe => by simp [submits, hsqe]⟩
  | send_first htype hempty hpush addr hsend =>
    exact ⟨_, rfl, hsend.adds fun hsqe _ => by simp [submits, hsqe, hempty]⟩
  | send_queued => exact ⟨_, rfl, .none rfl rfl⟩
  | send_to_first htype hempty hpush hsend =>
    exact ⟨_, rfl, hsend.adds fun hsqe hlen => by simp [submits, hsqe, hempty, hlen htype]⟩
  | send_to_queued => exact ⟨_, rfl, .none rfl rfl⟩
  | close_drained hempty hshut =>
    exact ⟨_, rfl, hshut.adds fun hsqe => by simp [submits, hsqe, hempty]⟩
  | close_queued => exact ⟨_, rfl, .none rfl rfl⟩
  | close_force hshut => exact ⟨_, rfl, hshut.adds fun hsqe => by simp [submits, hsqe]⟩
  | received htype hcomplete hdata hlength hpush hreceive addr =>
    obtain ⟨hremaining, hobject, hhistory, _⟩ := hcomplete.remaining
    refine ⟨_, hremaining, ?_⟩
    split
    all_goals
      rw [Adds, ← hobject, ← hhistory]
      exact hreceive.adds fun hsqe => by simp [submits, hsqe]
  | receive_ended htype hcomplete =>
    obtain ⟨hremaining, _, hhistory, _⟩ := hcomplete.remaining
    refine ⟨_, hremaining, ?_⟩
    split
    all_goals exact .none rfl (by rw [← hhistory]; rfl)
  | sent_more garbage htype hcomplete hcount hle hempty hsend =>
    obtain ⟨hremaining, hobject, _⟩ := hcomplete.remaining
    refine ⟨_, hremaining, ?_⟩
    rw [Adds, ← hobject]
    exact hsend.adds fun hsqe _ => by simp [submits, hsqe, hempty]
  | sent_all garbage htype hcomplete hcount hle hempty hpopped hshut =>
    obtain ⟨hremaining, hobject, _⟩ := hcomplete.remaining
    refine ⟨_, hremaining, ?_⟩
    split at hshut
    · rename_i hgraceful
      rw [hpopped] at hshut
      rw [Adds, ← hobject]
      exact hshut.adds fun hsqe => by simp [submits, hsqe, hempty, hgraceful]
    · rw [hshut, hpopped]
      exact .none rfl rfl
  | send_failed htype hcomplete =>
    rename_i v₁ r res
    obtain ⟨hremaining, _, hhistory, _⟩ := hcomplete.remaining
    obtain ⟨hrequests, hsubmitted, _⟩ := error_requests (v := v₁) (-res)
    exact ⟨_, hremaining, .none hrequests (by rw [hsubmitted, hhistory])⟩
  | shut_down htype hcomplete =>
    obtain ⟨hremaining, _, hhistory, _⟩ := hcomplete.remaining
    refine ⟨_, hremaining, ?_⟩
    split
    · exact .none rfl rfl
    · exact .none rfl (by rw [hhistory])
  | pop size => exact ⟨_, rfl, .none rfl rfl⟩

end View

end rioring
