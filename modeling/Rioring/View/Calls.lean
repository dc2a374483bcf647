import Rioring.View.Submit

namespace rioring

open IoService

namespace World

variable {w w' : World} {i j : ObjectId} {s : SocketObject} {p : Platform} {type : CloseType} {sqe : Bool}

theorem local_submit_receiving (p : Platform) (s : SocketObject) (sqe : Bool) :
    Local i w (s.submit_receiving p w i sqe) := by
  rw [SocketObject.submit_receiving]
  split
  · exact local_submit_context rfl sqe
  · exact local_submit_context rfl sqe

theorem local_submit_sending (s : SocketObject) (addr : SockAddr) (sqe : Bool) :
    Local i w (s.submit_sending w i addr sqe) := by
  rw [SocketObject.submit_sending]
  split
  · exact local_submit_context rfl sqe
  · rw [UdpSocket.submit_sending]
    dsimp only
    split
    · exact local_submit_context rfl sqe
    · rw [take_context_eq]
      exact ⟨fun _ _ => rfl, fun _ _ => rfl, fun _ _ _ => rfl, fun _ _ => rfl⟩

theorem local_submit_shutdown (sqe : Bool) : Local i w (SocketObject.submit_shutdown w i sqe) :=
  local_submit_context rfl sqe

theorem local_submit_accept (sqe : Bool) : Local i w (TcpServer.submit_accept w i sqe) :=
  local_submit_context rfl sqe

theorem local_stop (sqe : Bool) : Local i w (TcpServer.stop w i sqe) :=
  local_submit_context rfl sqe

/-- Both classes become active in the same way. -/
theorem Wf.activated_view (hwf : w.Wf) (hs : w.sockets i = some s) (fd : Int)
    {recv_buffer : IoBuffer} {send_buffer : IoDoubleBuffer}
    (hrecv : s.recv_buffer.assign p.malloc p.data_buffer_size = .ok recv_buffer)
    (hsend : s.send_buffer.assign p.malloc p.data_buffer_size = .ok send_buffer) (sqe : Bool)
    {t : SocketObject} (ht : t = { s with
      socket_handler := fd
      connected_flag := s.connected_flag || s.socket_type == .tcp
      recv_buffer, send_buffer })
    (hw' : w' = t.submit_receiving p
      ((w.set_socket i t).record i fun h => { h with activations := h.activations + 1 }) i sqe) :
    Local i w w' ∧ w'.descriptors = w.descriptors ∧ ∃ t v₁, w'.sockets i = some t ∧
      t.socket_handler = fd ∧ (w.view_with i s).Activated p fd v₁ ∧
      v₁.Receives p sqe (w'.view_with i t) := by
  subst hw'
  generalize hw₁ : (w.set_socket i t).record i (fun h => { h with activations := h.activations + 1 }) =
    w₁
  have hset : (w.set_socket i t).Wf := hwf.set_socket hs (by rw [ht])
  have hwf₁ : w₁.Wf := hw₁ ▸ hset.record (hwf.socket_lt hs) _
  have ht₁ : w₁.sockets i = some t := by
    rw [← hw₁]
    exact set_socket_self w i t
  refine ⟨?_, ?_, t, w₁.view_with i t, ?_, by rw [ht], ?_, hwf₁.receiving_view ht₁ p rfl sqe⟩
  · rw [← hw₁]
    exact (local_set_socket.trans (local_record _)).trans (local_submit_receiving p t sqe)
  · rw [(SocketObject.submit_receiving_submitted p w₁ i t sqe).descriptors, ← hw₁]
    rfl
  · rw [(SocketObject.submit_receiving_submitted p w₁ i t sqe).sockets]
    exact ht₁
  · refine ⟨recv_buffer, send_buffer, hrecv, hsend, ?_⟩
    rw [← hw₁, view_with_record, ht]
    rfl

theorem Wf.tcp_on_active_view (hwf : w.Wf) (hs : w.sockets i = some s)
    (htype : s.socket_type = .tcp) {fd : Int} {sqe : Bool}
    (hactive : TcpSocket.on_active p w i { s with socket_handler := fd } sqe = .ok w') :
    Local i w w' ∧ w'.descriptors = w.descriptors ∧ ∃ t v₁, w'.sockets i = some t ∧
      t.socket_handler = fd ∧ (w.view_with i s).Activated p fd v₁ ∧
      v₁.Receives p sqe (w'.view_with i t) := by
  rw [TcpSocket.on_active, IoBuffer.bind_eq_ok_iff] at hactive
  obtain ⟨recv_buffer, hrecv, hactive⟩ := hactive
  rw [IoBuffer.bind_eq_ok_iff] at hactive
  obtain ⟨send_buffer, hsend, hactive⟩ := hactive
  cases hactive
  apply hwf.activated_view hs fd hrecv hsend sqe rfl
  simp [SocketObject.submit_receiving, htype]

theorem Wf.udp_on_active_view (hwf : w.Wf) (hs : w.sockets i = some s)
    (htype : s.socket_type = .udp) {fd : Int} {sqe : Bool}
    (hactive : UdpSocket.on_active p w i { s with socket_handler := fd } sqe = .ok w') :
    Local i w w' ∧ w'.descriptors = w.descriptors ∧ ∃ t v₁, w'.sockets i = some t ∧
      t.socket_handler = fd ∧ (w.view_with i s).Activated p fd v₁ ∧
      v₁.Receives p sqe (w'.view_with i t) := by
  rw [UdpSocket.on_active, IoBuffer.bind_eq_ok_iff] at hactive
  obtain ⟨recv_buffer, hrecv, hactive⟩ := hactive
  rw [IoBuffer.bind_eq_ok_iff] at hactive
  obtain ⟨send_buffer, hsend, hactive⟩ := hactive
  cases hactive
  have hflag : (s.connected_flag || s.socket_type == .tcp) = s.connected_flag := by
    rw [htype]
    exact Bool.or_false _
  apply hwf.activated_view hs fd hrecv hsend sqe rfl
  rw [hflag]
  simp [SocketObject.submit_receiving, htype]

/-- What a step shows of socket `i`: a move of the socket, or its creation. -/
structure Moves (p : Platform) (w : World) (e : Event) (i : ObjectId) (w' : World) : Prop where
  move : ∀ v, w.view i = some v → ∃ v', w'.view i = some v' ∧ v.Move p (w.action i e) v'
  fresh : ∀ v', w.view i = none → w'.view i = some v' → v'.Fresh

/-- What a step shows of server `i`. -/
structure Serves (w : World) (e : Event) (i : ObjectId) (w' : World) : Prop where
  move : ∀ b, w.server_view i = some b →
    ∃ b', w'.server_view i = some b' ∧ b.Move (w.server_action i e) b'
  fresh : ∀ b', w.server_view i = none → w'.server_view i = some b' → b'.Fresh

/-- The descriptor that an object has: of a socket or of a server. -/
def descriptor (w : World) (i : ObjectId) : Int :=
  match w.sockets i with
  | some s => s.socket_handler
  | none => ((w.servers i).map (·.server_socket)).getD 0

/-- What a step does to the open descriptors for object `j`, whose descriptor was
    `old` and is `new` afterwards. -/
inductive Rewires (w : World) (j : ObjectId) (old new : Int) (w' : World) : Prop where
  | same (hdescriptors : w'.descriptors = w.descriptors) (hnew : new = old)
  | missing (hdescriptors : w'.descriptors = w.descriptors) (hnew : new < 0)
  | opened (hfree : w.descriptors new = none)
      (hdescriptors : w'.descriptors = Function.update w.descriptors new (some j))
  | leaked (fd : Int) (hfree : w.descriptors fd = none)
      (hdescriptors : w'.descriptors = Function.update w.descriptors fd (some j)) (hnew : new = old)
  | closed (hdescriptors : w'.descriptors = Function.update w.descriptors old none) (hnew : new = 0)

/-- What a step does to the process, object by object and to its descriptors. -/
structure Does (p : Platform) (w : World) (e : Event) (w' : World) : Prop where
  moves : ∀ i, Moves p w e i w'
  serves : ∀ i, Serves w e i w'
  rewires : ∃ j, (∀ i, i ≠ j → w'.descriptor i = w.descriptor i) ∧
    Rewires w j (w.descriptor j) (w'.descriptor j) w'

theorem descriptor_socket (hs : w.sockets i = some s) : w.descriptor i = s.socket_handler := by
  rw [descriptor, hs]

theorem descriptor_server {server : TcpServer} (hs : w.sockets i = none)
    (hserver : w.servers i = some server) : w.descriptor i = server.server_socket := by
  rw [descriptor, hs, hserver]
  rfl

theorem Local.descriptor (hlocal : Local j w w') (hi : i ≠ j) : w'.descriptor i = w.descriptor i := by
  rw [World.descriptor, World.descriptor, hlocal.sockets i hi, hlocal.servers i hi]

theorem view_eq_none (hs : w.sockets i = none) : w.view i = none := by
  rw [view, hs, Option.map_none]

theorem server_view_eq {server : TcpServer} (hserver : w.servers i = some server) :
    w.server_view i = some (w.server_view_with i server) := by
  rw [server_view, hserver, Option.map_some]

theorem server_view_eq_none (hserver : w.servers i = none) : w.server_view i = none := by
  rw [server_view, hserver, Option.map_none]

theorem moves_of_same {e : Event} (hview : w'.view i = w.view i) (haction : w.action i e = .idle) :
    Moves p w e i w' := by
  refine ⟨fun v hv => ⟨v, hview.trans hv, haction ▸ .idle⟩, fun v' hnone hv' => ?_⟩
  rw [hview, hnone] at hv'
  cases hv'

theorem serves_of_same {e : Event} (hview : w'.server_view i = w.server_view i)
    (haction : w.server_action i e = .idle) : Serves w e i w' := by
  refine ⟨fun b hb => ⟨b, hview.trans hb, haction ▸ .idle⟩, fun b' hnone hb' => ?_⟩
  rw [hview, hnone] at hb'
  cases hb'

theorem moves_of_fresh {e : Event} (hnone : w.view i = none)
    (hfresh : ∀ v', w'.view i = some v' → v'.Fresh) : Moves p w e i w' := by
  refine ⟨fun v hv => ?_, fun v' _ hv' => hfresh v' hv'⟩
  rw [hnone] at hv
  cases hv

theorem serves_of_fresh {e : Event} (hnone : w.server_view i = none)
    (hfresh : ∀ b', w'.server_view i = some b' → b'.Fresh) : Serves w e i w' := by
  refine ⟨fun b hb => ?_, fun b' _ hb' => hfresh b' hb'⟩
  rw [hnone] at hb
  cases hb

theorem moves_of_none {e : Event} (hnone : w.sockets i = none) (hnone' : w'.sockets i = none) :
    Moves p w e i w' := by
  refine moves_of_fresh (view_eq_none hnone) fun v' hv' => ?_
  rw [view_eq_none hnone'] at hv'
  cases hv'

theorem serves_of_none {e : Event} (hnone : w.servers i = none) (hnone' : w'.servers i = none) :
    Serves w e i w' := by
  refine serves_of_fresh (server_view_eq_none hnone) fun b' hb' => ?_
  rw [server_view_eq_none hnone'] at hb'
  cases hb'

theorem moves_of_move {e : Event} {t : SocketObject} (hs : w.sockets i = some s)
    (ht : w'.sockets i = some t)
    (hmove : (w.view_with i s).Move p (w.action i e) (w'.view_with i t)) : Moves p w e i w' := by
  refine ⟨fun v hv => ?_, fun v' hnone _ => ?_⟩
  · rw [view_eq hs] at hv
    cases hv
    exact ⟨_, view_eq ht, hmove⟩
  · rw [view_eq hs] at hnone
    cases hnone

theorem serves_of_move {e : Event} {server server' : TcpServer} (hserver : w.servers i = some server)
    (hserver' : w'.servers i = some server')
    (hmove : (w.server_view_with i server).Move (w.server_action i e) (w'.server_view_with i server')) :
    Serves w e i w' := by
  refine ⟨fun b hb => ?_, fun b' hnone _ => ?_⟩
  · rw [server_view_eq hserver] at hb
    cases hb
    exact ⟨_, server_view_eq hserver', hmove⟩
  · rw [server_view_eq hserver] at hnone
    cases hnone

/-- A step of socket `j` is a move of `j`, and idle for the others. -/
theorem does_of_socket (hwf : w.Wf) (hwf' : w'.Wf) {e : Event} {a : Action} {t : SocketObject}
    (hlocal : Local j w w') (haction : ∀ i, w.action i e = if j = i then a else .idle)
    (hidle : ∀ i, j ≠ i → w.server_action i e = .idle) (hs : w.sockets j = some s)
    (ht : w'.sockets j = some t) (hmove : (w.view_with j s).Move p a (w'.view_with j t))
    (hrewires : Rewires w j s.socket_handler t.socket_handler w') : Does p w e w' := by
  refine ⟨fun i => ?_, fun i => ?_, j, fun i hi => hlocal.descriptor hi, ?_⟩
  · by_cases hj : j = i
    · subst j
      refine moves_of_move hs ht ?_
      rw [haction, if_pos rfl]
      exact hmove
    · apply moves_of_same (hlocal.view (Ne.symm hj))
      rw [haction, if_neg hj]
  · by_cases hj : j = i
    · subst j
      exact serves_of_none (hwf.separate i s hs) (hwf'.separate i t ht)
    · exact serves_of_same (hlocal.server_view (Ne.symm hj)) (hidle i hj)
  · rw [descriptor_socket hs, descriptor_socket ht]
    exact hrewires

/-- The same for a server `j`. -/
theorem does_of_server (hwf : w.Wf) (hwf' : w'.Wf) {e : Event} {a : ServerAction}
    {server server' : TcpServer} (hlocal : Local j w w')
    (haction : ∀ i, w.server_action i e = if j = i then a else .idle)
    (hidle : ∀ i, j ≠ i → w.action i e = .idle) (hserver : w.servers j = some server)
    (hserver' : w'.servers j = some server')
    (hmove : (w.server_view_with j server).Move a (w'.server_view_with j server'))
    (hrewires : Rewires w j server.server_socket server'.server_socket w') : Does p w e w' := by
  have hnone : w.sockets j = none := hwf.no_socket (by simp [hserver])
  have hnone' : w'.sockets j = none := hwf'.no_socket (by simp [hserver'])
  refine ⟨fun i => ?_, fun i => ?_, j, fun i hi => hlocal.descriptor hi, ?_⟩
  · by_cases hj : j = i
    · subst j
      exact moves_of_none hnone hnone'
    · exact moves_of_same (hlocal.view (Ne.symm hj)) (hidle i hj)
  · by_cases hj : j = i
    · subst j
      refine serves_of_move hserver hserver' ?_
      rw [haction, if_pos rfl]
      exact hmove
    · apply serves_of_same (hlocal.server_view (Ne.symm hj))
      rw [haction, if_neg hj]
  · rw [descriptor_server hnone hserver, descriptor_server hnone' hserver']
    exact hrewires

/-- A step that no object takes part in. -/
theorem does_of_same {e : Event} (hsockets : w'.sockets = w.sockets) (hservers : w'.servers = w.servers)
    (hview : ∀ i t, w'.view_with i t = w.view_with i t) (haccepting : ∀ i, w'.accepting i = w.accepting i)
    (hdescriptors : w'.descriptors = w.descriptors) (haction : ∀ i, w.action i e = .idle)
    (hidle : ∀ i, w.server_action i e = .idle) : Does p w e w' := by
  have hlocal : ∀ j, Local j w w' := fun j =>
    ⟨fun i _ => congrFun hsockets i, fun i _ => congrFun hservers i, fun i t _ => hview i t,
      fun i _ => haccepting i⟩
  have hdescriptor : ∀ i, w'.descriptor i = w.descriptor i := fun i =>
    (hlocal (i + 1)).descriptor (Nat.lt_succ_self i).ne
  refine ⟨fun i => ?_, fun i => ?_, 0, fun i _ => hdescriptor i, .same hdescriptors (hdescriptor 0)⟩
  · exact moves_of_same ((hlocal (i + 1)).view (Nat.lt_succ_self i).ne) (haction i)
  · exact serves_of_same ((hlocal (i + 1)).server_view (Nat.lt_succ_self i).ne) (hidle i)

theorem Rewires.trans_same {w₁ : World} {old new : Int} (h : Rewires w j old new w₁)
    (hsame : w'.descriptors = w₁.descriptors) : Rewires w j old new w' := by
  cases h with
  | same hdescriptors hnew => exact .same (hsame.trans hdescriptors) hnew
  | missing hdescriptors hnew => exact .missing (hsame.trans hdescriptors) hnew
  | opened hfree hdescriptors => exact .opened hfree (hsame.trans hdescriptors)
  | leaked fd hfree hdescriptors hnew => exact .leaked fd hfree (hsame.trans hdescriptors) hnew
  | closed hdescriptors hnew => exact .closed (hsame.trans hdescriptors) hnew

theorem Rewires.of_same {w₁ : World} {old new : Int} (h : Rewires w₁ j old new w')
    (hsame : w₁.descriptors = w.descriptors) : Rewires w j old new w' := by
  cases h with
  | same hdescriptors hnew => exact .same (hdescriptors.trans hsame) hnew
  | missing hdescriptors hnew => exact .missing (hdescriptors.trans hsame) hnew
  | opened hfree hdescriptors => exact .opened (hsame ▸ hfree) (hsame ▸ hdescriptors)
  | leaked fd hfree hdescriptors hnew => exact .leaked fd (hsame ▸ hfree) (hsame ▸ hdescriptors) hnew
  | closed hdescriptors hnew => exact .closed (hsame ▸ hdescriptors) hnew

theorem Wf.connect_does (hwf : w.Wf) (hwf' : w'.Wf) (hs : w.sockets j = some s)
    (htype : s.socket_type = .tcp) {addresses : List TcpSocket.Attempt} {sqe result : Bool}
    (hconnect : TcpSocket.connect p w j s addresses sqe = some (result, w')) :
    Does p w (.connect j addresses sqe) w' := by
  rw [TcpSocket.connect] at hconnect
  split at hconnect
  · rename_i hempty
    cases hconnect
    refine does_of_same rfl rfl (fun _ _ => rfl) (fun _ => rfl) rfl (fun i => ?_) (fun _ => rfl)
    simp [action, hempty]
  · rename_i hempty
    have haction : ∀ i, w.action i (.connect j addresses sqe) = if j = i then .start sqe else .idle := by
      intro i
      simp [action, hempty]
    obtain ⟨⟨w₁, s₁⟩, hloop, hconnect⟩ := Option.bind_eq_some_iff.mp hconnect
    obtain ⟨fd, hwf₁, hlocal, hs₁, hs₁', hview, hrewires⟩ : ∃ fd, w₁.Wf ∧ Local j w w₁ ∧
        w₁.sockets j = some s ∧ s₁ = { s with socket_handler := fd } ∧
        w₁.view_with j s = w.view_with j s ∧ Rewires w j s.socket_handler fd w₁ := by
      rcases connect_loop_spec hloop with ⟨rfl, rfl⟩ | ⟨fd, _, hfree, rfl, rfl⟩
      · exact ⟨s₁.socket_handler, hwf, .refl, hs, rfl, rfl, .same rfl rfl⟩
      · exact ⟨fd, hwf.open_descriptor fd j, local_open_descriptor fd, hs, rfl, rfl,
          .opened hfree rfl⟩
    subst hs₁'
    dsimp only at hconnect
    split at hconnect
    · cases hconnect
      refine does_of_socket hwf hwf' (hlocal.trans local_set_socket) haction (fun _ _ => rfl) hs
        (set_socket_self _ _ _) ?_ (hrewires.trans_same rfl)
      change (w.view_with j s).Move p _ ((w₁.view_with j s).with_socket _)
      rw [hview]
      exact .start_failed fd
    · obtain ⟨w₂, hactive, hconnect⟩ := Option.bind_eq_some_iff.mp hconnect
      cases hconnect
      obtain ⟨hlocal', hdescriptors, t, v₁, ht, hfd, hactivated, hreceives⟩ :=
        hwf₁.tcp_on_active_view hs₁ htype (IoBuffer.toOption_eq_some_iff.mp hactive)
      refine does_of_socket hwf hwf' (hlocal.trans hlocal') haction (fun _ _ => rfl) hs ht ?_
        (hfd ▸ hrewires.trans_same hdescriptors)
      rw [hview] at hactivated
      exact .start hactivated (fun _ => .inl ‹_›) hreceives

theorem opened_view (s : SocketObject) {fd : Int} (hfd : w.fresh_descriptor fd = true) :
    Local i w (UdpSocket.opened w i s fd) ∧
      (UdpSocket.opened w i s fd).sockets i = some { s with socket_handler := fd } ∧
      (UdpSocket.opened w i s fd).view_with i { s with socket_handler := fd } =
        (w.view_with i s).with_socket { s with socket_handler := fd } ∧
      Rewires w i s.socket_handler fd (UdpSocket.opened w i s fd) := by
  rw [UdpSocket.opened]
  split
  · rename_i hpos
    have hfree : w.descriptors fd = none := by
      simp only [fresh_descriptor, Bool.or_eq_true, Bool.and_eq_true, beq_iff_eq] at hfd
      rcases hfd with rfl | ⟨_, hfree⟩
      · omega
      · exact hfree
    exact ⟨local_set_socket.trans (local_open_descriptor fd), set_socket_self w i _, rfl, .opened hfree rfl⟩
  · rename_i hneg
    exact ⟨local_set_socket, set_socket_self w i _, rfl, .missing rfl (Int.not_le.mp hneg)⟩

/-- Activation after `socket` has been called, for both kinds of datagram socket. -/
theorem Wf.udp_started (hwf : w.Wf) (hwf' : w'.Wf) (hs : w.sockets j = some s)
    (htype : s.socket_type = .udp) {e : Event} {fd : Int} (hfd : w.fresh_descriptor fd = true)
    {sqe : Bool} (haction : ∀ i, w.action i e = if j = i then .start sqe else .idle)
    (hidle : ∀ i, w.server_action i e = .idle)
    (hactive : UdpSocket.on_active p (UdpSocket.opened w j s fd) j { s with socket_handler := fd } sqe =
      .ok w') : Does p w e w' := by
  obtain ⟨hlocal, hs₁, hview, hrewires⟩ := opened_view (i := j) s hfd
  obtain ⟨hlocal', hdescriptors, t, v₁, ht, hhandler, hactivated, hreceives⟩ :=
    (hwf.opened hs fd).1.udp_on_active_view hs₁ htype hactive
  rw [hview] at hactivated
  obtain ⟨recv_buffer, send_buffer, hrecv, hsend, hv₁⟩ := hactivated
  refine does_of_socket hwf hwf' (hlocal.trans hlocal') haction (fun i _ => hidle i) hs ht
    (.start ⟨_, _, hrecv, hsend, hv₁⟩ ?_ hreceives) (hhandler ▸ hrewires.trans_same hdescriptors)
  intro htcp
  cases htype.symm.trans htcp

theorem Wf.udp_start_failed (hwf : w.Wf) (hs : w.sockets j = some s) {e : Event} {fd : Int}
    (hfd : w.fresh_descriptor fd = true) {sqe : Bool}
    (haction : ∀ i, w.action i e = if j = i then .start sqe else .idle)
    (hidle : ∀ i, w.server_action i e = .idle) : Does p w e (UdpSocket.opened w j s fd) := by
  obtain ⟨hlocal, hs₁, hview, hrewires⟩ := opened_view (i := j) s hfd
  refine does_of_socket hwf (hwf.opened hs fd).1 hlocal haction (fun i _ => hidle i) hs hs₁ ?_ hrewires
  rw [hview]
  exact .start_failed fd

theorem Wf.udp_start_error (hwf : w.Wf) (hs : w.sockets j = some s) {e : Event} {fd : Int}
    (hfd : w.fresh_descriptor fd = true) (code : Int) {sqe : Bool}
    (haction : ∀ i, w.action i e = if j = i then .start sqe else .idle)
    (hidle : ∀ i, w.server_action i e = .idle) :
    Does p w e ((UdpSocket.opened w j s fd).io_error j code) := by
  obtain ⟨hlocal, hs₁, hview, hrewires⟩ := opened_view (i := j) s hfd
  obtain ⟨hopened, hself⟩ := hwf.opened hs fd
  have hsockets := io_error_sockets (UdpSocket.opened w j s fd) j code
  have hdescriptors := io_error_descriptors (UdpSocket.opened w j s fd) j code
  refine does_of_socket hwf (hopened.io_error (hopened.socket_lt hself) code)
    (hlocal.trans (local_io_error code)) haction (fun i _ => hidle i) hs
    ((congrFun hsockets j).trans hs₁) ?_ (hrewires.trans_same hdescriptors)
  rw [view_with_io_error hs₁, hview]
  exact .start_error fd code

theorem Wf.activate_does (hwf : w.Wf) (hwf' : w'.Wf) (hs : w.sockets j = some s)
    (htype : s.socket_type = .udp) {fd : Int} (hfd : w.fresh_descriptor fd = true)
    {bind sqe result : Bool}
    (hactivate : UdpSocket.activate p w j s fd bind sqe = .ok (result, w')) :
    Does p w (.activate j fd bind sqe) w' := by
  have haction : ∀ i, w.action i (.activate j fd bind sqe) = if j = i then .start sqe else .idle :=
    fun _ => rfl
  rw [UdpSocket.activate] at hactivate
  split at hactivate
  · cases hactivate
    exact hwf.udp_start_failed hs hfd haction fun _ => rfl
  · split at hactivate
    · cases hactivate
      exact hwf.udp_start_failed hs hfd haction fun _ => rfl
    · rw [IoBuffer.bind_eq_ok_iff] at hactivate
      obtain ⟨w₂, hactive, hactivate⟩ := hactivate
      cases hactivate
      exact hwf.udp_started hwf' hs htype hfd haction (fun _ => rfl) hactive

theorem Wf.run_udp_does (hwf : w.Wf) (hwf' : w'.Wf) (hs : w.sockets j = some s)
    (htype : s.socket_type = .udp) {fd errno : Int} (hfd : w.fresh_descriptor fd = true)
    {bind sqe result : Bool} (hrun : UdpSocket.run p w j s fd bind errno sqe = .ok (result, w')) :
    Does p w (.run_udp j fd bind errno sqe) w' := by
  have haction : ∀ i, w.action i (.run_udp j fd bind errno sqe) =
      if j = i then .start sqe else .idle := fun _ => rfl
  rw [UdpSocket.run] at hrun
  split at hrun
  · cases hrun
    exact hwf.udp_start_error hs hfd errno haction fun _ => rfl
  · split at hrun
    · cases hrun
      exact hwf.udp_start_error hs hfd errno haction fun _ => rfl
    · rw [IoBuffer.bind_eq_ok_iff] at hrun
      obtain ⟨w₂, hactive, hrun⟩ := hrun
      cases hrun
      exact hwf.udp_started hwf' hs htype hfd haction (fun _ => rfl) hactive

theorem submit_sending_tcp {t : SocketObject} (htype : t.socket_type = .tcp) (addr : SockAddr)
    (sqe : Bool) : t.submit_sending w j addr sqe = TcpSocket.submit_sending w j t sqe := by
  rw [SocketObject.submit_sending, htype]

theorem submit_sending_udp {t : SocketObject} (htype : t.socket_type = .udp) (addr : SockAddr)
    (sqe : Bool) : t.submit_sending w j addr sqe = UdpSocket.submit_sending w j t addr sqe := by
  rw [SocketObject.submit_sending, htype]

/-- Submission of the send buffer a socket has just been given. -/
theorem Wf.submit_sending_view (hwf : w.Wf) (hs : w.sockets j = some s)
    (send_buffer : IoDoubleBuffer) (addr : SockAddr) (sqe : Bool) {t : SocketObject}
    (ht : t = { s with send_buffer }) (hw' : w' = t.submit_sending (w.set_socket j t) j addr sqe) :
    Local j w w' ∧ w'.descriptors = w.descriptors ∧ w'.sockets j = some t ∧
      ((w.view_with j s).with_send_buffer send_buffer).Sends addr sqe (w'.view_with j t) := by
  subst ht hw'
  have hwf' : (w.set_socket j { s with send_buffer }).Wf := hwf.set_socket hs rfl
  have hsubmitted := SocketObject.submit_sending_submitted (w.set_socket j { s with send_buffer }) j
    { s with send_buffer } addr sqe
  refine ⟨local_set_socket.trans (local_submit_sending _ addr sqe), hsubmitted.descriptors, ?_,
    hwf'.sending_view (set_socket_self w j _) addr sqe⟩
  rw [hsubmitted.sockets]
  exact set_socket_self _ _ _

theorem Wf.send_locked_does (hwf : w.Wf) (hwf' : w'.Wf) (hs : w.sockets j = some s)
    (htype : s.socket_type = .tcp) {index : Nat} {bytes : Bytes} {sqe : Bool}
    (hindex : w.sends[index]? = some (j, bytes))
    (hsend : TcpSocket.send_locked p { w with sends := w.sends.eraseIdx index } j s bytes sqe =
      .ok w') : Does p w (.send_locked index sqe) w' := by
  have haction : ∀ i, w.action i (.send_locked index sqe) =
      if j = i then .send bytes sqe else .idle := by
    intro i
    simp [action, hindex]
  rw [TcpSocket.send_locked] at hsend
  generalize hw₁ : ({ w with sends := w.sends.eraseIdx index } : World).record j
    (fun h => { h with accepted := h.accepted ++ bytes }) = w₁ at hsend
  have hlocal : Local j w w₁ := by
    rw [← hw₁]
    exact ⟨fun _ _ => rfl, fun _ _ => rfl, (local_record _).view_with, fun _ _ => rfl⟩
  have hdescriptors : w₁.descriptors = w.descriptors := hw₁ ▸ rfl
  have hwf₁ : w₁.Wf := hw₁ ▸ (hwf.set_sends (w.sends.eraseIdx index)).record (hwf.socket_lt hs) _
  have hs₁ : w₁.sockets j = some s := by
    rw [← hw₁]
    exact hs
  have hview : ∀ t, w₁.view_with j t = { w.view_with j t with
      history := { (w.view_with j t).history with
        accepted := (w.view_with j t).history.accepted ++ bytes } } := by
    intro t
    rw [← hw₁, view_with_record]
    rfl
  dsimp only at hsend
  split at hsend
  · rename_i hempty
    rw [IoBuffer.bind_eq_ok_iff] at hsend
    obtain ⟨send_buffer, hpush, hsend⟩ := hsend
    cases hsend
    obtain ⟨hlocal', hkept, ht, hsends⟩ := hwf₁.submit_sending_view hs₁ send_buffer {} sqe rfl
      (submit_sending_tcp (t := { s with send_buffer }) htype {} sqe).symm
    rw [hview] at hsends
    exact does_of_socket hwf hwf' (hlocal.trans hlocal') haction (fun _ _ => rfl) hs ht
      (.send_first htype hempty hpush {} hsends) (.same (hkept.trans hdescriptors) rfl)
  · rename_i hempty
    rw [IoBuffer.bind_eq_ok_iff] at hsend
    obtain ⟨send_buffer, hpush, hsend⟩ := hsend
    cases hsend
    refine does_of_socket hwf hwf' (hlocal.trans local_set_socket) haction (fun _ _ => rfl) hs
      (set_socket_self w₁ j _) ?_ (.same hdescriptors rfl)
    rw [view_with_set_socket, hview]
    exact .send_queued htype (Bool.not_eq_true _ ▸ hempty) hpush

theorem Wf.send_to_does (hwf : w.Wf) (hwf' : w'.Wf) (hs : w.sockets j = some s)
    (htype : s.socket_type = .udp) {bytes : Bytes} {addr : SockAddr} {sqe : Bool}
    {result : Bool} (hsend : UdpSocket.send_to p w j s bytes addr sqe = .ok (result, w')) :
    Does p w (.send_to j bytes addr sqe) w' := by
  have haction : ∀ i, w.action i (.send_to j bytes addr sqe) =
      if j = i then .send_to bytes addr sqe else .idle := fun _ => rfl
  rw [UdpSocket.send_to] at hsend
  generalize hw₁ : w.record j
    (fun h => { h with requested := h.requested ++ [(bytes.val, addr)] }) = w₁ at hsend
  have hlocal : Local j w w₁ := hw₁ ▸ local_record _
  have hdescriptors : w₁.descriptors = w.descriptors := hw₁ ▸ rfl
  have hwf₁ : w₁.Wf := hw₁ ▸ hwf.record (hwf.socket_lt hs) _
  have hs₁ : w₁.sockets j = some s := by
    rw [← hw₁]
    exact hs
  have hview : ∀ t, w₁.view_with j t = { w.view_with j t with
      history := { (w.view_with j t).history with
        requested := (w.view_with j t).history.requested ++ [(bytes.val, addr)] } } := by
    intro t
    rw [← hw₁, view_with_record]
  dsimp only at hsend
  split at hsend
  · rename_i hempty
    rw [IoBuffer.bind_eq_ok_iff] at hsend
    obtain ⟨send_buffer, hpush, hsend⟩ := hsend
    cases hsend
    obtain ⟨hlocal', hkept, ht, hsends⟩ := hwf₁.submit_sending_view hs₁ send_buffer addr sqe rfl
      (submit_sending_udp (t := { s with send_buffer }) htype addr sqe).symm
    rw [hview] at hsends
    exact does_of_socket hwf hwf' (hlocal.trans hlocal') haction (fun _ _ => rfl) hs ht
      (.send_to_first htype hempty hpush hsends) (.same (hkept.trans hdescriptors) rfl)
  · rename_i hempty
    rw [IoBuffer.bind_eq_ok_iff] at hsend
    obtain ⟨send_buffer, hpush, hsend⟩ := hsend
    cases hsend
    refine does_of_socket hwf hwf' (hlocal.trans local_set_socket) haction (fun _ _ => rfl) hs
      (set_socket_self w₁ j _) ?_ (.same hdescriptors rfl)
    rw [view_with_set_socket, hview]
    exact .send_to_queued htype (Bool.not_eq_true _ ▸ hempty) hpush

theorem Wf.close_does (hwf : w.Wf) (hwf' : (s.close w j type sqe).Wf) (hs : w.sockets j = some s) :
    Does p w (.close j type sqe) (s.close w j type sqe) := by
  have haction : ∀ i, w.action i (.close j type sqe) =
      if j = i then .close type sqe else .idle := fun _ => rfl
  have hsubmitted := SocketObject.submit_shutdown_submitted w j sqe
  have hs' : (SocketObject.submit_shutdown w j sqe).sockets j = some s := by
    rw [hsubmitted.sockets]
    exact hs
  unfold SocketObject.close at hwf' ⊢
  cases type with
  | graceful =>
    dsimp only at hwf' ⊢
    split at hwf'
    · rename_i hempty
      rw [if_pos hempty]
      exact does_of_socket hwf hwf' (local_submit_shutdown sqe) haction (fun _ _ => rfl) hs hs'
        (.close_drained hempty (hwf.shutdown_view hs sqe)) (.same hsubmitted.descriptors rfl)
    · rename_i hempty
      rw [if_neg hempty]
      refine does_of_socket hwf hwf' local_set_socket haction (fun _ _ => rfl) hs
        (set_socket_self w j _) ?_ (.same rfl rfl)
      exact .close_queued (Bool.not_eq_true _ ▸ hempty)
  | force =>
    exact does_of_socket hwf hwf' (local_submit_shutdown sqe) haction (fun _ _ => rfl) hs hs'
      (.close_force (hwf.shutdown_view hs sqe)) (.same hsubmitted.descriptors rfl)

theorem Wf.pop_does (hwf : w.Wf) (hwf' : w'.Wf) (hs : w.sockets j = some s) {size : Nat}
    (hpop : w.pop j s size = some w') : Does p w (.pop j size) w' := by
  rw [World.pop] at hpop
  split at hpop
  · cases hpop
    refine does_of_socket hwf hwf' (local_set_socket.trans (local_record _)) (fun _ => rfl)
      (fun _ _ => rfl) hs (set_socket_self w j _) ?_ (.same rfl rfl)
    rw [view_with_record]
    exact .pop size
  · cases hpop

theorem Wf.set_event_does (hwf : w.Wf) (hwf' : w'.Wf) {slot : Slot} {registered : Bool}
    (hset : w.set_event j slot registered = some w') :
    Does p w (.set_event j slot registered) w' := by
  rcases set_event_spec hset with ⟨s, _, _, _, _, hs, rfl⟩ | ⟨server, _, _, hs, hserver, rfl⟩
  · refine does_of_socket hwf hwf' local_set_socket (fun _ => rfl) (fun i hi => ?_) hs
      (set_socket_self w j _) (.set_event _ _ _ _) (.same rfl rfl)
    simp [server_action, hi]
  · refine does_of_server hwf hwf' (local_set_server _) (fun _ => rfl) (fun i hi => ?_) hserver
      (set_server_self w j _) (.set_event _ _) (.same rfl rfl)
    simp [action, hi]

theorem finish_does {c : ContextId} (hfinish : w.finish c = some w') : Does p w (.finish c) w' := by
  rw [World.finish] at hfinish
  split at hfinish
  · rename_i hmem
    cases hfinish
    refine does_of_same rfl rfl (fun _ _ => rfl) (fun i => ?_) rfl (fun _ => rfl) (fun _ => rfl)
    change (w.handling.erase { context := c }).filter _ = w.handling.filter _
    rw [← List.erase_filter]
    exact List.erase_of_not_mem (by simp)
  · cases hfinish

theorem send_does {bytes : Bytes} : Does p w (.send j bytes) (TcpSocket.send w j s bytes).2 := by
  rw [TcpSocket.send]
  split
  · exact does_of_same rfl rfl (fun _ _ => rfl) (fun _ => rfl) rfl (fun _ => rfl) fun _ => rfl
  · split
    · exact does_of_same rfl rfl (fun _ _ => rfl) (fun _ => rfl) rfl (fun _ => rfl) fun _ => rfl
    · exact does_of_same rfl rfl (fun _ _ => rfl) (fun _ => rfl) rfl (fun _ => rfl) fun _ => rfl

end World

end rioring
