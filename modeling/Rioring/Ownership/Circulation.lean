import Rioring.Outbound
import Rioring.Ownership.Step

/-! The contexts of a process as records in circulation: each of its steps is a
run of submissions, completions and releases. -/

namespace rioring

open IoService

def circulation (p : Platform) : Machine (Custody IoContext) (Custody.Move IoContext) :=
  Custody.machine {} World.cleared p.context_pool_size

/-- Filling in a context does not touch `msg_namelen`. -/
def KeepsLength (fill : IoContext → IoContext) : Prop :=
  ∀ ctx, (fill ctx).msg.msg_namelen = ctx.msg.msg_namelen

/-- The moves of a submission, which loses its context only when `lossy`. -/
def Submission (lossy : Prop) : Custody.Move IoContext → Prop
  | .submit fill => KeepsLength fill
  | .lose fill => lossy ∧ KeepsLength fill
  | .complete .. | .release _ => False

/-- The peer of the datagram that a completion brings. -/
def Request.peer (r : Request) (cqe : Cqe) : Option SockAddr :=
  if r.opcode = .recvmsg ∧ 0 ≤ cqe.res then some cqe.peer else none

/-- `msg_namelen` after a completion, which stores the length of the address of
    the peer, if there is one. -/
def MsgHdr.stored (msg : MsgHdr) : Option SockAddr → Nat
  | some peer => SockAddr.addr_len peer.sa_family
  | none => msg.msg_namelen

/-- What a completed write submits: the rest of the queue, or the shutdown that
    was waiting for it. -/
def SocketObject.sends_on (s : SocketObject) (count : Nat) : Bool :=
  !((s.send_buffer.pop count).elevate).empty || s.shutdown_gracefully

namespace World

/-- The handler of a completion submits again. -/
def resubmits (w : World) (ctx : IoContext) (res : Int) : Bool :=
  decide (0 < res) && match ctx.type with
    | .read => true
    | .write => (w.to_socket_ptr ctx.handler).any (·.sends_on res.toNat)
    | _ => false

/-- A submission that the step makes gets no entry, or it is the first of a
    `send_to` to an address of a family other than the two known ones. -/
def loses (w : World) : Event → Bool
  | .connect i addresses sqe => !sqe && !addresses.isEmpty && (w.sockets i).any fun s =>
      (TcpSocket.connect_loop w i s addresses).any (·.2.socket_handler != 0)
  | .activate _ fd bind sqe => !sqe && 0 ≤ fd && bind
  | .run_udp _ fd bind _ sqe => !sqe && fd != -1 && bind
  | .run _ fd bind listen _ sqe => !sqe && fd != -1 && bind && listen
  | .stop _ sqe => !sqe
  | .send_locked index sqe => !sqe && (w.sends[index]?).any fun send =>
      (w.sockets send.1).any (·.send_buffer.empty)
  | .send_to i _ addr sqe => (!sqe || SockAddr.addr_len addr.sa_family == 0) &&
      (w.sockets i).any (·.send_buffer.empty)
  | .close i type sqe => !sqe && (type == .force || (w.sockets i).any (·.send_buffer.empty))
  | .complete c cqe sqe => !sqe &&
      (w.inflight.find? (·.user_data = c)).any fun r => w.resubmits r.context cqe.res
  | .resume _ accept_sqe read_sqe => !accept_sqe || !read_sqe
  | _ => false

variable {p : Platform} {w w₁ w' : World} {i : ObjectId} {s : SocketObject} {sqe : Bool}
  {lossy : Prop}

/-- Contexts are submitted between two processes, and nothing else happens to
    the contexts. -/
def Passes (p : Platform) (lossy : Prop) (w w' : World) : Prop :=
  (circulation p).Run (fun _ => Submission lossy) w.custody w'.custody

theorem Passes.of_eq (h : w'.custody = w.custody) : Passes p lossy w w' := by
  rw [Passes, h]
  exact .refl

theorem Passes.of_same (h : Passes p lossy w₁ w') (hsame : w₁.custody = w.custody) :
    Passes p lossy w w' := by
  rw [Passes, ← hsame]
  exact h

theorem Passes.trans (h : Passes p lossy w w₁) (h' : Passes p lossy w₁ w') : Passes p lossy w w' :=
  Machine.Run.trans h h'

theorem Passes.mono {lossy' : Prop} (h : Passes p lossy w w') (himp : lossy → lossy') :
    Passes p lossy' w w' := by
  refine Machine.Run.mono h fun _ m hm => ?_
  cases m with
  | submit fill => exact hm
  | lose fill => exact hm.imp_left himp
  | complete k result => exact hm
  | release k => exact hm

theorem io_error_custody (w : World) (i : ObjectId) (code : Int) :
    (w.io_error i code).custody = w.custody := by
  unfold io_error
  split <;> rfl

theorem take_context_passes (hlossy : lossy) {fill : IoContext → IoContext}
    (hlength : KeepsLength fill) : Passes p lossy w (IoService.take_context w fill).2 := by
  refine .step .refl (e := .lose fill) ⟨hlossy, hlength⟩ ?_
  rw [take_context_custody]
  rfl

/-- A context that was taken is handed out when there is an entry for it, and
    lost otherwise. -/
theorem submit_context_passes {fill : IoContext → IoContext}
    (hhandler : ∀ ctx, (fill ctx).handler = some i) (hlength : KeepsLength fill) :
    Passes p (sqe = false) w (submit_context w fill sqe) := by
  have htake := take_context_custody w fill
  have hcontext : ((IoService.take_context w fill).2.contexts (next_context w).1).handler = some i := by
    rw [take_context_eq]
    simpa using hhandler _
  have hfirst : (IoService.take_context w fill).1 = (next_context w).1 := by rw [take_context_eq]
  unfold submit_context
  dsimp only
  rw [hfirst]
  unfold submit
  simp only [hcontext]
  cases sqe with
  | false =>
    refine .step .refl (e := .lose fill) ⟨rfl, hlength⟩ ?_
    rw [if_neg Bool.false_ne_true, io_error_custody, htake]
    rfl
  | true =>
    refine .step .refl (e := .submit fill) hlength ?_
    rw [if_pos rfl]
    generalize htaken : (IoService.take_context w fill).2 = u at htake ⊢
    have hcustody : ({ u with inflight := u.inflight ++ [prepare u (next_context w).1] } : World).custody =
        u.custody.hand_out (next_context w).1 := by
      simp [custody, Custody.hand_out, (prepare_context u _).1]
    rw [htake] at hcustody
    exact congrArg some hcustody.symm

theorem submit_receiving_passes : Passes p (sqe = false) w (s.submit_receiving p w i sqe) := by
  unfold SocketObject.submit_receiving
  split
  · exact submit_context_passes (fun _ => rfl) fun _ => rfl
  · exact submit_context_passes (fun _ => rfl) fun _ => rfl

theorem tcp_submit_sending_passes : Passes p (sqe = false) w (TcpSocket.submit_sending w i s sqe) :=
  submit_context_passes (fun _ => rfl) fun _ => rfl

theorem udp_submit_sending_passes {addr : SockAddr} :
    Passes p (sqe = false ∨ SockAddr.addr_len addr.sa_family = 0) w
      (UdpSocket.submit_sending w i s addr sqe) := by
  unfold UdpSocket.submit_sending
  dsimp only
  split
  · refine Passes.mono (submit_context_passes (i := i) ?_ ?_) .inl
    · exact fun _ => rfl
    · exact fun _ => rfl
  · rename_i hfamily
    -- the context is filled in and forgotten
    exact take_context_passes (.inr (not_not.mp hfamily)) fun _ => rfl

theorem submit_sending_passes {addr : SockAddr}
    (hfamily : s.socket_type = .udp → SockAddr.addr_len addr.sa_family ≠ 0) :
    Passes p (sqe = false) w (s.submit_sending w i addr sqe) := by
  unfold SocketObject.submit_sending
  split
  · exact tcp_submit_sending_passes
  · rename_i htype
    exact udp_submit_sending_passes.mono fun h => h.resolve_right (hfamily htype)

theorem submit_shutdown_passes : Passes p (sqe = false) w (SocketObject.submit_shutdown w i sqe) :=
  submit_context_passes (fun _ => rfl) fun _ => rfl

theorem submit_accept_passes : Passes p (sqe = false) w (TcpServer.submit_accept w i sqe) :=
  submit_context_passes (fun _ => rfl) fun _ => rfl

theorem tcp_on_active_passes (hactive : TcpSocket.on_active p w i s sqe = .ok w') :
    Passes p (sqe = false) w w' := by
  unfold TcpSocket.on_active at hactive
  rw [IoBuffer.bind_eq_ok_iff] at hactive
  obtain ⟨recv_buffer, _, hactive⟩ := hactive
  rw [IoBuffer.bind_eq_ok_iff] at hactive
  obtain ⟨send_buffer, _, hactive⟩ := hactive
  cases hactive
  exact .of_same (submit_context_passes (fun _ => rfl) fun _ => rfl) rfl

theorem udp_on_active_passes (hactive : UdpSocket.on_active p w i s sqe = .ok w') :
    Passes p (sqe = false) w w' := by
  unfold UdpSocket.on_active at hactive
  rw [IoBuffer.bind_eq_ok_iff] at hactive
  obtain ⟨recv_buffer, _, hactive⟩ := hactive
  rw [IoBuffer.bind_eq_ok_iff] at hactive
  obtain ⟨send_buffer, _, hactive⟩ := hactive
  cases hactive
  exact .of_same (submit_context_passes (fun _ => rfl) fun _ => rfl) rfl

theorem connect_passes {addresses : List TcpSocket.Attempt} {result : Bool}
    (hconnect : TcpSocket.connect p w i s addresses sqe = some (result, w')) : Passes p (sqe = false ∧
      addresses.isEmpty = false ∧ (TcpSocket.connect_loop w i s addresses).any
        (·.2.socket_handler != 0) = true) w w' := by
  unfold TcpSocket.connect at hconnect
  split at hconnect
  · cases hconnect
    exact .of_eq rfl
  · rename_i haddresses
    obtain ⟨⟨w₁, s₁⟩, hloop, hconnect⟩ := Option.bind_eq_some_iff.mp hconnect
    have hsame : w₁.custody = w.custody := by
      rcases connect_loop_spec hloop with ⟨rfl, _⟩ | ⟨fd, _, _, rfl, _⟩ <;> rfl
    dsimp only at hconnect
    split at hconnect
    · cases hconnect
      exact .of_eq hsame
    · rename_i hhandler
      obtain ⟨w₂, hactive, hconnect⟩ := Option.bind_eq_some_iff.mp hconnect
      cases hconnect
      refine .of_same ((tcp_on_active_passes (IoBuffer.toOption_eq_some_iff.mp hactive)).mono ?_) hsame
      intro hsqe
      exact ⟨hsqe, Bool.not_eq_true _ ▸ haddresses, by simpa [hloop] using hhandler⟩

theorem opened_custody (fd : Int) : (UdpSocket.opened w i s fd).custody = w.custody := by
  unfold UdpSocket.opened
  dsimp only
  split <;> rfl

theorem activate_passes {fd : Int} {bind result : Bool}
    (hactivate : UdpSocket.activate p w i s fd bind sqe = .ok (result, w')) :
    Passes p (sqe = false ∧ 0 ≤ fd ∧ bind = true) w w' := by
  unfold UdpSocket.activate at hactivate
  dsimp only at hactivate
  split at hactivate
  · cases hactivate
    exact .of_eq (opened_custody fd)
  · split at hactivate
    · cases hactivate
      exact .of_eq (opened_custody fd)
    · rename_i hfd hbind
      rw [IoBuffer.bind_eq_ok_iff] at hactivate
      obtain ⟨w₂, hactive, hactivate⟩ := hactivate
      cases hactivate
      refine .of_same ((udp_on_active_passes hactive).mono fun hsqe => ?_) (opened_custody fd)
      exact ⟨hsqe, Int.not_lt.mp hfd, by simpa using hbind⟩

theorem run_udp_passes {fd errno : Int} {bind result : Bool}
    (hrun : UdpSocket.run p w i s fd bind errno sqe = .ok (result, w')) :
    Passes p (sqe = false ∧ fd ≠ -1 ∧ bind = true) w w' := by
  unfold UdpSocket.run at hrun
  dsimp only at hrun
  split at hrun
  · cases hrun
    exact .of_eq ((io_error_custody _ _ _).trans (opened_custody fd))
  · split at hrun
    · cases hrun
      exact .of_eq ((io_error_custody _ _ _).trans (opened_custody fd))
    · rename_i hfd hbind
      rw [IoBuffer.bind_eq_ok_iff] at hrun
      obtain ⟨w₂, hactive, hrun⟩ := hrun
      cases hrun
      refine .of_same ((udp_on_active_passes hactive).mono fun hsqe => ?_) (opened_custody fd)
      exact ⟨hsqe, hfd, by simpa using hbind⟩

theorem run_passes {server : TcpServer} {fd errno : Int} {bind listen : Bool} :
    Passes p (sqe = false ∧ fd ≠ -1 ∧ bind = true ∧ listen = true) w
      (TcpServer.run w i server fd bind listen errno sqe).2 := by
  unfold TcpServer.run
  dsimp only
  split
  · exact .of_eq (io_error_custody _ _ _)
  · rename_i hfd
    split
    · exact .of_eq (io_error_custody _ _ _)
    · split
      · exact .of_eq (io_error_custody _ _ _)
      · rename_i hbind hlisten
        refine .of_same (submit_accept_passes.mono fun hsqe => ?_) rfl
        exact ⟨hsqe, hfd, by simpa using hbind, by simpa using hlisten⟩

theorem send_locked_passes {bytes : Bytes}
    (hsend : TcpSocket.send_locked p w i s bytes sqe = .ok w') :
    Passes p (sqe = false ∧ s.send_buffer.empty = true) w w' := by
  unfold TcpSocket.send_locked at hsend
  dsimp only at hsend
  split at hsend
  · rename_i hempty
    rw [IoBuffer.bind_eq_ok_iff] at hsend
    obtain ⟨send_buffer, _, hsend⟩ := hsend
    cases hsend
    exact .of_same (tcp_submit_sending_passes.mono fun hsqe => ⟨hsqe, hempty⟩) rfl
  · rw [IoBuffer.bind_eq_ok_iff] at hsend
    obtain ⟨send_buffer, _, hsend⟩ := hsend
    cases hsend
    exact .of_eq rfl

theorem send_to_passes {bytes : Bytes} {addr : SockAddr} {result : Bool}
    (hsend : UdpSocket.send_to p w i s bytes addr sqe = .ok (result, w')) : Passes p
    ((sqe = false ∨ SockAddr.addr_len addr.sa_family = 0) ∧ s.send_buffer.empty = true) w w' := by
  unfold UdpSocket.send_to at hsend
  dsimp only at hsend
  split at hsend
  · rename_i hempty
    rw [IoBuffer.bind_eq_ok_iff] at hsend
    obtain ⟨send_buffer, _, hsend⟩ := hsend
    cases hsend
    exact .of_same (udp_submit_sending_passes.mono fun hlost => ⟨hlost, hempty⟩) rfl
  · rw [IoBuffer.bind_eq_ok_iff] at hsend
    obtain ⟨send_buffer, _, hsend⟩ := hsend
    cases hsend
    exact .of_eq rfl

theorem close_passes {type : CloseType} :
    Passes p (sqe = false ∧ (type = .force ∨ s.send_buffer.empty = true)) w (s.close w i type sqe) := by
  unfold SocketObject.close
  split
  · split
    · rename_i hempty
      exact submit_shutdown_passes.mono fun hsqe => ⟨hsqe, .inr hempty⟩
    · exact .of_eq rfl
  · exact submit_shutdown_passes.mono fun hsqe => ⟨hsqe, .inl rfl⟩

theorem call_custody (w : World) (i : ObjectId) (callback : Callback) :
    (w.call i callback).custody = w.custody := rfl

theorem io_received_passes {count : Nat} {addr : SockAddr}
    (hio : s.io_received p w i count addr sqe = .ok w') : Passes p (sqe = false) w w' := by
  unfold SocketObject.io_received at hio
  rw [IoBuffer.bind_eq_ok_iff] at hio
  obtain ⟨recv_buffer, _, hio⟩ := hio
  cases hio
  split
  · exact .of_same (submit_receiving_passes.trans (.of_eq (call_custody _ _ _))) rfl
  · exact .of_same submit_receiving_passes rfl

theorem io_sent_passes {count : Nat} {addr : SockAddr}
    (hfamily : s.socket_type = .udp → SockAddr.addr_len addr.sa_family ≠ 0) :
    Passes p (sqe = false ∧ s.sends_on count = true) w (s.io_sent w i count addr sqe) := by
  unfold SocketObject.io_sent
  dsimp only
  split
  · rename_i hrest
    refine .of_same ((submit_sending_passes ?_).mono fun hsqe => ⟨hsqe, ?_⟩) rfl
    · exact hfamily
    · simp only [Bool.not_eq_true'] at hrest
      simp [SocketObject.sends_on, hrest]
  · unfold SocketObject.on_send_complete
    dsimp only
    split
    · rename_i hgraceful
      refine .of_same (submit_shutdown_passes.mono fun hsqe => ⟨hsqe, ?_⟩) ?_
      · simp [SocketObject.sends_on, hgraceful]
      · split <;> rfl
    · refine .of_eq ?_
      split <;> rfl

theorem io_shutdown_custody : (s.io_shutdown w i).custody = w.custody := by
  unfold SocketObject.io_shutdown
  dsimp only
  split <;> rfl

theorem shutdown_completed_custody : (s.shutdown_completed w i).custody = w.custody := by
  unfold SocketObject.shutdown_completed
  split <;> rfl

theorem io_accepting_custody {server : TcpServer} {c : ContextId} {new_socket : Int} :
    (TcpServer.io_accepting w i server c new_socket).custody = w.custody := by
  have hhandling : ∀ handling : List Handling, (handling.map fun h : Handling =>
      if h.context = c then { h with accepting := some (i, w.objects) } else h).map (·.context) =
      handling.map (·.context) := by
    intro handling
    rw [List.map_map]
    apply List.map_congr_left
    intro h _
    by_cases hc : h.context = c <;> simp [hc]
  unfold TcpServer.io_accepting
  dsimp only
  split
  · exact congrArg (Custody.mk _ _ _ _) (hhandling w.handling)
  · exact congrArg (Custody.mk _ _ _ _) (hhandling w.handling)

/-- A completion is handled with at most one submission. -/
theorem io_passes {c : ContextId} {res : Int} (hio : IoService.io p w c res sqe = .ok w')
    (hfamily : ∀ s, (w.contexts c).type = .write → 0 < res →
      w.to_socket_ptr (w.contexts c).handler = some s → s.socket_type = .udp →
      SockAddr.addr_len (current_sockaddr w c).sa_family ≠ 0) :
    Passes p (sqe = false ∧ w.resubmits (w.contexts c) res = true) w w' := by
  unfold IoService.io at hio
  split at hio
  · split at hio
    · split at hio
      · cases hio
        exact .of_eq io_accepting_custody
      · cases hio
        exact .of_eq rfl
    · cases hio
      exact .of_eq rfl
  · rename_i i s htype hhandler hsocket
    split at hio
    · rename_i hres
      refine (io_received_passes hio).mono fun hsqe => ⟨hsqe, ?_⟩
      simp [resubmits, hres, htype]
    · cases hio
      exact .of_eq io_shutdown_custody
  · rename_i i s htype hhandler hsocket
    split at hio
    · rename_i hres
      cases hio
      refine (io_sent_passes (hfamily s htype hres hsocket)).mono fun ⟨hsqe, hsends⟩ => ⟨hsqe, ?_⟩
      simp [resubmits, hres, htype, hsocket, hsends]
    · cases hio
      exact .of_eq (io_error_custody _ _ _)
  · cases hio
    exact .of_eq shutdown_completed_custody
  · split at hio
    · cases hio
      exact .of_eq rfl
    · cases hio
      exact .of_eq rfl
  · cases hio
    exact .of_eq rfl
  · cases hio

theorem deliver_bytes_custody (r : Request) (data : List UInt8) :
    (w.deliver_bytes r data).custody = w.custody := by
  unfold deliver_bytes
  split
  · split <;> rfl
  · rfl

/-- The kernel writes to the context of the request it completes, and there only
    the address of the peer and its length. -/
theorem kernel_custody (w : World) (r : Request) (cqe : Cqe) : ∃ addr msg,
    (w.kernel r cqe).custody = { w.custody with
      records := Function.update w.contexts r.user_data { w.contexts r.user_data with addr, msg } } ∧
      (r.opcode ≠ .recvmsg →
        { w.contexts r.user_data with addr, msg } = w.contexts r.user_data) ∧
      msg.msg_namelen = (w.contexts r.user_data).msg.stored (r.peer cqe) := by
  have hsame : w.custody = { w.custody with
      records := Function.update w.contexts r.user_data (w.contexts r.user_data) } := by
    rw [Function.update_eq_self]
    rfl
  have htake : (w.take_bytes r cqe).custody = w.custody := by
    unfold take_bytes
    split <;> rfl
  cases hop : r.opcode with
  | recvmsg =>
    rw [kernel, hop]
    dsimp only
    by_cases hres : 0 ≤ cqe.res
    · refine ⟨(w.contexts r.user_data).addr.copy cqe.peer
          (min (w.contexts r.user_data).msg.msg_namelen (SockAddr.addr_len cqe.peer.sa_family)),
        { (w.contexts r.user_data).msg with msg_namelen := SockAddr.addr_len cqe.peer.sa_family },
        ?_, fun h => absurd rfl h, by simp [Request.peer, hop, hres, MsgHdr.stored]⟩
      rw [if_pos hres]
      split
      · rw [deliver_bytes_custody]
        rfl
      · rfl
    · refine ⟨(w.contexts r.user_data).addr, (w.contexts r.user_data).msg, ?_, fun _ => rfl,
        by simp [Request.peer, hres, MsgHdr.stored]⟩
      rw [if_neg hres, if_neg (by omega)]
      exact hsame
  | readv =>
    refine ⟨(w.contexts r.user_data).addr, (w.contexts r.user_data).msg, ?_, fun _ => rfl,
      by simp [Request.peer, hop, MsgHdr.stored]⟩
    rw [kernel, hop]
    dsimp only
    split
    · rw [deliver_bytes_custody]
      exact hsame
    · exact hsame
  | writev | sendmsg =>
    refine ⟨(w.contexts r.user_data).addr, (w.contexts r.user_data).msg, ?_, fun _ => rfl,
      by simp [Request.peer, hop, MsgHdr.stored]⟩
    rw [kernel, hop]
    exact htake.trans hsame
  | accept =>
    refine ⟨(w.contexts r.user_data).addr, (w.contexts r.user_data).msg, ?_, fun _ => rfl,
      by simp [Request.peer, hop, MsgHdr.stored]⟩
    rw [kernel, hop]
    dsimp only
    split
    · split
      · exact hsame
      · exact hsame
    · exact hsame
  | shutdown | nop =>
    refine ⟨(w.contexts r.user_data).addr, (w.contexts r.user_data).msg, ?_, fun _ => rfl,
      by simp [Request.peer, hop, MsgHdr.stored]⟩
    rw [kernel, hop]
    exact hsame

/-- A write of bytes of a UDP socket goes to an address of a known family. -/
def Addressed (w : World) : Prop := ∀ r ∈ w.inflight, r.is_write = true →
  ∀ i s, r.context.handler = some i → w.sockets i = some s → s.socket_type = .udp →
    r.context.ctype = .udp_context ∧ SockAddr.addr_len r.context.addr.sa_family ≠ 0

theorem opcode_write {r : Request} (hopcode : r.opcode = r.context.opcode)
    (htype : r.context.type = .write) : r.opcode = .writev ∨ r.opcode = .sendmsg := by
  rw [hopcode, IoContext.opcode, htype]
  cases r.context.ctype with
  | tcp_context => exact .inl rfl
  | udp_context => exact .inr rfl

theorem kernel_write_sockets {r : Request} (hopcode : r.opcode = r.context.opcode)
    (htype : r.context.type = .write) (cqe : Cqe) : (w.kernel r cqe).sockets = w.sockets := by
  have htake : (w.take_bytes r cqe).sockets = w.sockets := by
    unfold take_bytes
    split <;> rfl
  rcases opcode_write hopcode htype with hop | hop
  · simpa only [kernel, hop] using htake
  · simpa only [kernel, hop] using htake

/-- A completion takes its context back, and then at most one is submitted. -/
theorem Wf.complete_passes (hwf : w.Wf) (haddressed : w.Addressed) {c : ContextId} {cqe : Cqe}
    (hcomplete : w.complete p c cqe sqe = some w') : c ∈ w.custody.out ∧
      ∃ r, w.inflight.find? (·.user_data = c) = some r ∧
        (∃ result, ((w.completed c).kernel r cqe).custody = w.custody.come_back c result ∧
          (result (w.contexts c)).msg.msg_namelen = (w.contexts c).msg.stored (r.peer cqe)) ∧
        Passes p (w.loses (.complete c cqe sqe) = true) ((w.completed c).kernel r cqe) w' := by
  obtain ⟨r, hfind, hcomplete⟩ := Option.bind_eq_some_iff.mp hcomplete
  obtain ⟨_, hr, huser, hcontext, _⟩ := hwf.completed hfind
  subst huser
  split at hcomplete
  · rename_i hallows
    have hio := IoBuffer.toOption_eq_some_iff.mp hcomplete
    obtain ⟨i, hhandler, _, hopcode⟩ := hwf.typed r hr
    obtain ⟨addr, msg, hcustody, hkept, hlength⟩ := kernel_custody (w.completed r.user_data) r cqe
    have hbefore : (w.completed r.user_data).contexts r.user_data = r.context := hcontext
    rw [hbefore] at hcustody hkept
    have hafter : ((w.completed r.user_data).kernel r cqe).contexts r.user_data =
        { r.context with addr, msg } :=
      (congrFun (congrArg Custody.records hcustody) _).trans (Function.update_self _ _ _)
    refine ⟨List.mem_map_of_mem hr, r, hfind, ⟨fun _ => { r.context with addr, msg }, ?_, hlength⟩,
      (io_passes hio ?_).mono ?_⟩
    · rw [hcustody, completed_custody]
      rfl
    · intro s htype hres hsocket hudp
      rw [hafter] at htype hsocket
      have hop := opcode_write hopcode htype
      have hsame : { r.context with addr, msg } = r.context := by
        apply hkept
        rcases hop with hop | hop <;> simp [hop]
      have hlength : cqe.res ≤ r.payload.length := by
        rw [kernel_allows] at hallows
        rcases hop with hop | hop <;> simpa [hop] using hallows
      have hwrite : r.is_write = true :=
        View.is_write_of_count htype (by omega : 0 < cqe.res.toNat) (by omega)
      have hsocket : w.sockets i = some s := by
        rw [← hsocket, to_socket_ptr, hhandler, Option.bind_some, kernel_write_sockets hopcode htype]
        rfl
      obtain ⟨hctype, hfamily⟩ := haddressed r hr hwrite i s hhandler hsocket hudp
      rw [current_sockaddr, hafter, hsame, hctype]
      exact hfamily
    · rintro ⟨rfl, hresubmits⟩
      rw [hafter] at hresubmits
      simp only [loses, hfind, Option.any_some, Bool.not_false, Bool.true_and]
      unfold resubmits at hresubmits ⊢
      rw [Bool.and_eq_true] at hresubmits ⊢
      refine ⟨hresubmits.1, ?_⟩
      have hsubmits := hresubmits.2
      cases htype : r.context.type with
      | read => rfl
      | write =>
        simp only [htype] at hsubmits
        rw [← hsubmits, to_socket_ptr, to_socket_ptr, kernel_write_sockets hopcode htype]
        rfl
      | accept | shutdown | unknown =>
        simp only [htype] at hsubmits
        cases hsubmits
  · cases hcomplete

theorem resume_passes {c : ContextId} {accept_sqe read_sqe : Bool}
    (hresume : w.resume p c accept_sqe read_sqe = some w') :
    Passes p (accept_sqe = false ∨ read_sqe = false) w w' := by
  obtain ⟨h, _, hresume⟩ := Option.bind_eq_some_iff.mp hresume
  obtain ⟨⟨i, j⟩, _, hresume⟩ := Option.bind_eq_some_iff.mp hresume
  have hio := IoBuffer.toOption_eq_some_iff.mp hresume
  unfold TcpServer.on_accepted at hio
  dsimp only at hio
  split at hio
  · refine .of_same (.trans (submit_accept_passes.mono .inl) ((tcp_on_active_passes hio).mono .inr)) ?_
    refine congrArg (Custody.mk _ _ _ _) ?_
    rw [List.map_map]
    apply List.map_congr_left
    intro h _
    by_cases hc : h.context = c <;> simp [hc]
  · cases hio

/-- What an event can do to the contexts. -/
def causes (w : World) (e : Event) : Custody.Move IoContext → Prop
  | .submit fill => KeepsLength fill
  | .lose fill => w.loses e = true ∧ KeepsLength fill
  | .complete c _ => ∃ cqe sqe, e = .complete c cqe sqe
  | .release c => e = .finish c

theorem Passes.circulates {e : Event} (h : Passes p (w.loses e = true) w₁ w') :
    (circulation p).Run (fun _ => w.causes e) w₁.custody w'.custody := by
  refine Machine.Run.mono h fun _ m hm => ?_
  cases m with
  | submit fill => exact hm
  | lose fill => exact hm
  | complete c result => exact hm.elim
  | release c => exact hm.elim

/-- Every step of the process is a run of the contexts in circulation. -/
theorem Wf.circulates (hwf : w.Wf) (haddressed : w.Addressed) {e : Event}
    (hstep : (machine p).step w e = some w') :
    (circulation p).Run (fun _ => w.causes e) w.custody w'.custody := by
  change w.step p e = some w' at hstep
  cases e with
  | create_tcp | create_udp | create_server =>
    cases hstep
    exact (Passes.of_eq rfl).circulates
  | set_event i slot registered =>
    refine Passes.circulates (.of_eq ?_)
    rcases set_event_spec hstep with ⟨s, _, _, _, _, _, rfl⟩ | ⟨server, _, _, _, _, rfl⟩ <;> rfl
  | connect i addresses sqe =>
    obtain ⟨s, hs, hstep⟩ := Option.bind_eq_some_iff.mp hstep
    obtain ⟨⟨result, w₁⟩, hconnect, hstep⟩ := Option.bind_eq_some_iff.mp hstep
    cases hstep
    refine ((connect_passes hconnect).mono fun ⟨hsqe, haddresses, hloop⟩ => ?_).circulates
    simp [loses, hsqe, haddresses, (socket_of_eq_some hs).1, hloop]
  | activate i fd bind sqe =>
    obtain ⟨s, hs, hstep⟩ := Option.bind_eq_some_iff.mp hstep
    split at hstep
    · obtain ⟨⟨result, w₁⟩, hactivate, rfl⟩ :=
        IoBuffer.map_eq_ok_iff.mp (IoBuffer.toOption_eq_some_iff.mp hstep)
      refine ((activate_passes hactivate).mono fun ⟨hsqe, hfd, hbind⟩ => ?_).circulates
      simp [loses, hsqe, hfd, hbind]
    · cases hstep
  | run_udp i fd bind errno sqe =>
    obtain ⟨s, hs, hstep⟩ := Option.bind_eq_some_iff.mp hstep
    split at hstep
    · obtain ⟨⟨result, w₁⟩, hrun, rfl⟩ :=
        IoBuffer.map_eq_ok_iff.mp (IoBuffer.toOption_eq_some_iff.mp hstep)
      refine ((run_udp_passes hrun).mono fun ⟨hsqe, hfd, hbind⟩ => ?_).circulates
      simp [loses, hsqe, hfd, hbind]
    · cases hstep
  | run i fd bind listen errno sqe =>
    obtain ⟨server, hserver, hstep⟩ := Option.bind_eq_some_iff.mp hstep
    split at hstep
    · cases hstep
      refine (run_passes.mono fun ⟨hsqe, hfd, hbind, hlisten⟩ => ?_).circulates
      simp [loses, hsqe, hfd, hbind, hlisten]
    · cases hstep
  | stop i sqe =>
    obtain ⟨server, hserver, hstep⟩ := Option.bind_eq_some_iff.mp hstep
    cases hstep
    have hpasses : Passes p (sqe = false) w (TcpServer.stop w i sqe) :=
      submit_context_passes (fun _ => rfl) fun _ => rfl
    refine (hpasses.mono fun hsqe => ?_).circulates
    simp [loses, hsqe]
  | send i bytes =>
    obtain ⟨s, hs, hstep⟩ := Option.bind_eq_some_iff.mp hstep
    cases hstep
    refine Passes.circulates (.of_eq ?_)
    unfold TcpSocket.send
    split
    · rfl
    · split <;> rfl
  | send_locked index sqe =>
    obtain ⟨⟨i, bytes⟩, hindex, hstep⟩ := Option.bind_eq_some_iff.mp hstep
    obtain ⟨s, hs, hstep⟩ := Option.bind_eq_some_iff.mp hstep
    have hsend := IoBuffer.toOption_eq_some_iff.mp hstep
    refine Passes.circulates (.of_same ((send_locked_passes hsend).mono fun ⟨hsqe, hempty⟩ => ?_) rfl)
    have hs : w.sockets i = some s := (socket_of_eq_some hs).1
    simp [loses, hsqe, hindex, hs, hempty]
  | send_to i bytes addr sqe =>
    obtain ⟨s, hs, hstep⟩ := Option.bind_eq_some_iff.mp hstep
    obtain ⟨⟨result, w₁⟩, hsend, rfl⟩ :=
      IoBuffer.map_eq_ok_iff.mp (IoBuffer.toOption_eq_some_iff.mp hstep)
    refine ((send_to_passes hsend).mono fun ⟨hlost, hempty⟩ => ?_).circulates
    simp [loses, hlost, (socket_of_eq_some hs).1, hempty]
  | close i type sqe =>
    obtain ⟨s, hs, hstep⟩ := Option.bind_eq_some_iff.mp hstep
    cases hstep
    refine (close_passes.mono fun ⟨hsqe, hnow⟩ => ?_).circulates
    simp [loses, hsqe, hs, hnow]
  | pop i size =>
    obtain ⟨s, hs, hstep⟩ := Option.bind_eq_some_iff.mp hstep
    unfold World.pop at hstep
    split at hstep
    · cases hstep
      exact (Passes.of_eq rfl).circulates
    · cases hstep
  | complete c cqe sqe =>
    obtain ⟨hout, r, _, ⟨result, hback, _⟩, hpasses⟩ := hwf.complete_passes haddressed hstep
    refine .trans (.step .refl (e := .complete c result) ⟨cqe, sqe, rfl⟩ ?_) hpasses.circulates
    rw [hback]
    exact if_pos hout
  | resume c accept_sqe read_sqe =>
    refine ((resume_passes hstep).mono fun hlost => ?_).circulates
    simpa [loses] using hlost
  | finish c =>
    obtain ⟨hused, hgiven⟩ := hwf.finish_custody hstep
    refine .step .refl (e := .release c) rfl ?_
    rw [hgiven]
    exact if_pos hused

end World

end rioring
