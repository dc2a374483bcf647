import Rioring.Outbound.Storage
import Rioring.Tcp.Sending
import Rioring.View.Callbacks

/-! What the next connection of a `tcp_socket` finds of the one before. -/

namespace rioring

namespace Outbound

variable {p : Platform} {o o' : Outbound} {a : Action}

/-- `connected_flag` says whether the socket is active. -/
theorem Move.connected (htcp : o.socket_type = .tcp) (hmove : Move p o a o') :
    o'.connected_flag = o.activity a o' o.connected_flag := by
  -- every move but an activation and the end of the receive side
  have hsame : o'.activations = o.activations → (∀ sqe, a ≠ .start sqe) →
      (∀ r res, a ≠ .receive_ended r res) → o'.connected_flag = o.activity a o' o.connected_flag := by
    intro hactivations hstart hended
    rw [activity_same hactivations hended]
    exact hmove.socket_type.2.2 hstart hended
  cases hmove with
  | same _ _ _ hended => exact (activity_same rfl hended).symm
  | start =>
    have hflag : (o.connected_flag || o.socket_type == .tcp) = true := by
      rw [htcp]
      exact Bool.or_true _
    exact hflag.trans (if_pos (Nat.lt_succ_self _)).symm
  | send addr htype hqueues => exact hsame hqueues.rebuffers.1 (by simp) (by simp)
  | send_to htype hqueues => exact hsame hqueues.rebuffers.1 (by simp) (by simp)
  | close => exact hsame rfl (by simp) (by simp)
  | receive_ended =>
    have hflag : (o.connected_flag && o.socket_type != .tcp) = false := by
      rw [htcp]
      exact Bool.and_false _
    exact hflag.trans (if_neg (Nat.lt_irrefl _)).symm
  | sent garbage addr haddr hcomplete hcount hle hpop ho₂ hsend =>
    refine hsame ?_ (by simp) (by simp)
    obtain ⟨front, back, _, rfl⟩ := hcomplete
    rcases hsend with ⟨_, rfl⟩ | ⟨_, hsends⟩
    · rw [ho₂]
    · rw [hsends.spec.1.activations, ho₂]
  | send_failed hpayload hcomplete =>
    refine hsame ?_ (by simp) (by simp)
    obtain ⟨front, back, _, rfl⟩ := hcomplete
    rfl

/-- A graceful shutdown is set pending only by a close that finds bytes queued. -/
theorem Move.stays_open (hmove : Move p o a o') (hopen : o.shutdown_gracefully = false)
    (hdrained : ∀ sqe, a = .close .graceful sqe → o.send_buffer.empty = true) :
    o'.shutdown_gracefully = false := by
  rcases hmove.shutdown_gracefully with hsame | ⟨_, hqueued, sqe, hclose⟩
  · exact hsame.trans hopen
  · rw [hdrained sqe hclose] at hqueued
    cases hqueued

end Outbound

/-- A graceful close finds nothing queued. -/
def View.closes_drained (v : View) : Action → Prop
  | .close .graceful _ => v.socket.send_buffer.empty = true
  | _ => True

instance : DecidableRel View.closes_drained := fun v a =>
  match a with
  | .close .graceful _ => inferInstanceAs (Decidable (v.socket.send_buffer.empty = true))
  | .idle | .set_event | .start _ | .send .. | .send_to .. | .close .force _ | .received .. |
    .receive_ended .. | .sent .. | .send_failed .. | .shut_down .. | .pop .. => .isTrue trivial

namespace World

variable {p : Platform} {i : ObjectId} {w w' : World} {s : SocketObject}

/-- As long as graceful closes find nothing queued, none is pending. -/
theorem drained_stays_open (hreach : (machine p).Reachable (permits i View.closes_drained) w)
    (hs : w.sockets i = some s) : s.shutdown_gracefully = false := by
  obtain ⟨_, hopen⟩ := reachable_outbound (P := fun o => o.shutdown_gracefully = false)
    (fun v hfresh => hfresh.shutdown_gracefully)
    (by
      intro v a o' _ hopen hallowed hmove
      refine hmove.stays_open hopen ?_
      rintro sqe rfl
      exact hallowed)
    hreach hs
  exact hopen

/-- A socket that is not connected has nothing queued and no storage. -/
theorem disconnected_unallocated (hreach : (machine p).Reachable Machine.Any w)
    (hs : w.sockets i = some s) (htcp : s.socket_type = .tcp) (hflag : s.connected_flag = false) :
    (w.view_with i s).outbound.Sound ∧ s.send_buffer.Unallocated := by
  obtain ⟨hsound, hallocated⟩ := reachable_outbound_of_type
    (P := fun o => Outbound.Allocated o.send_buffer o.connected_flag)
    (by
      intro v hfresh
      rw [show v.outbound.connected_flag = false from hfresh.connected_flag,
        show v.outbound.send_buffer = {} from hfresh.send_buffer]
      exact .default)
    (by
      intro v a o' htcp hsound hallocated _ hmove
      rw [hmove.connected htcp]
      exact hmove.allocates hsound hallocated)
    (permitted hreach) hs htcp
  refine ⟨hsound, ?_⟩
  rw [show (w.view_with i s).outbound.connected_flag = false from hflag] at hallocated
  exact hallocated

/-- An earlier connection of the socket has ended: its close event has been
    delivered, and its requests are completed and handled. -/
structure Ended (w : World) (i : ObjectId) (s : SocketObject) : Prop where
  activated : (w.history i).activations ≠ 0
  closed : s.connected_flag = false
  completed : ∀ r ∈ w.inflight, r.context.handler ≠ some i
  handled : ∀ h ∈ w.handling, (w.contexts h.context).handler ≠ some i

end World

/-- The connection lasts. -/
def View.stays_connected (_ : View) : Action → Prop
  | .start _ | .receive_ended _ _ => False
  | _ => True

/-- The send side of a newly connected socket: sends are accepted and submitted,
    and as long as the connection lasts, what is written and what is queued is
    what has been accepted since. -/
structure World.StartsClean (p : Platform) (w : World) (i : ObjectId) (s : SocketObject) : Prop where
  shutdown_gracefully : s.shutdown_gracefully = false
  main_buffer : s.send_buffer.main_buffer.contents = []
  sub_buffer : s.send_buffer.sub_buffer.contents = []
  accepts : ∀ bytes : Bytes, (TcpSocket.send w i s bytes).1 = true
  submits : ∀ (bytes : Bytes) (index : Nat) (w' : World),
    (TcpSocket.send w i s bytes).2.sends[index]? = some (i, bytes) →
    (machine p).step (TcpSocket.send w i s bytes).2 (.send_locked index true) = some w' →
    ∃ r, (w'.history i).submitted = (w.history i).submitted ++ [r] ∧ r.context.type = .write ∧
      r.payload = bytes.val
  stream : ∀ w' s', (machine p).Run (World.permits i View.stays_connected) w w' →
    w'.sockets i = some s' → ∃ accepted written,
      (w'.history i).accepted = (w.history i).accepted ++ accepted ∧
      (w'.history i).written = (w.history i).written ++ written ∧
      written ++ s'.send_buffer.main_buffer.contents ++ s'.send_buffer.sub_buffer.contents = accepted

namespace World

variable {p : Platform} {i : ObjectId} {w w' : World} {s : SocketObject}

/-- A `connect` that returns true has activated the socket. -/
theorem Wf.connect_active (hwf : w.Wf) (hs : w.sockets i = some s) (htcp : s.socket_type = .tcp)
    {addresses : List TcpSocket.Attempt} {sqe : Bool}
    (hconnect : TcpSocket.connect p w i s addresses sqe = some (true, w')) :
    ∃ fd s' v₁, w'.sockets i = some s' ∧ (w.view_with i s).Activated p fd v₁ ∧
      v₁.Receives p sqe (w'.view_with i s') := by
  rw [TcpSocket.connect] at hconnect
  split at hconnect
  · cases hconnect
  · obtain ⟨⟨w₁, s₁⟩, hloop, hconnect⟩ := Option.bind_eq_some_iff.mp hconnect
    obtain ⟨fd, hwf₁, hs₁, rfl, hview⟩ : ∃ fd, w₁.Wf ∧ w₁.sockets i = some s ∧
        s₁ = { s with socket_handler := fd } ∧ w₁.view_with i s = w.view_with i s := by
      rcases connect_loop_spec hloop with ⟨rfl, rfl⟩ | ⟨fd, _, _, rfl, rfl⟩
      · exact ⟨s₁.socket_handler, hwf, hs, rfl, rfl⟩
      · exact ⟨fd, hwf.open_descriptor fd i, hs, rfl, rfl⟩
    dsimp only at hconnect
    split at hconnect
    · cases hconnect
    · obtain ⟨w₂, hactive, hconnect⟩ := Option.bind_eq_some_iff.mp hconnect
      cases hconnect
      obtain ⟨_, _, s', v₁, hs', _, hactivated, hreceives⟩ :=
        hwf₁.tcp_on_active_view hs₁ htcp (IoBuffer.toOption_eq_some_iff.mp hactive)
      exact ⟨fd, s', v₁, hs', hview ▸ hactivated, hreceives⟩

/-- The sending side after a `connect` that returns true on a socket which is
    not connected and has no requests in flight. -/
theorem connect_outbound (hreach : (machine p).Reachable Machine.Any w) (hs : w.sockets i = some s)
    (htcp : s.socket_type = .tcp) (hended : w.Ended i s) {addresses : List TcpSocket.Attempt}
    {sqe : Bool} (hconnect : TcpSocket.connect p w i s addresses sqe = some (true, w')) :
    ∃ s', w'.sockets i = some s' ∧ s'.socket_type = .tcp ∧ s'.connected_flag = true ∧
      s'.shutdown_gracefully = s.shutdown_gracefully ∧
      s'.send_buffer.main_buffer.contents = [] ∧ s'.send_buffer.sub_buffer.contents = [] ∧
      (w'.view_with i s').outbound.Sound ∧ (w'.view_with i s').outbound.writes = [] := by
  obtain ⟨hsound, hnone⟩ := disconnected_unallocated hreach hs htcp hended.closed
  obtain ⟨fd, s', v₁, hs', hactivated, hreceives⟩ := (Wf.reachable hreach).connect_active hs htcp hconnect
  have hrequests : (w.view_with i s).requests = [] := by
    rw [view_with, List.filter_eq_nil_iff]
    intro r hr
    simpa using hended.completed r hr
  have houtbound := hreceives.outbound
  have hsocket : s' = v₁.socket := hreceives.errs.1
  obtain ⟨recv_buffer, send_buffer, _, hassign, hv₁⟩ := hactivated
  obtain ⟨hvalid, hmain, _, hsub⟩ :=
    IoDoubleBuffer.assign_spec p.malloc_le hsound.valid p.data_buffer_size_pos hassign
  have hempty : s.send_buffer.sub_buffer.contents = [] := (List.append_eq_nil_iff.mp hnone.1).2
  subst hsocket
  refine ⟨v₁.socket, hs', ?_, ?_, ?_, ?_, ?_, ?_, ?_⟩
  · rw [hv₁]
    exact htcp
  · rw [hv₁]
    change (s.connected_flag || s.socket_type == .tcp) = true
    rw [htcp]
    exact Bool.or_true _
  · rw [hv₁]
    rfl
  · rw [hv₁]
    exact hmain
  · rw [hv₁]
    change send_buffer.sub_buffer.contents = []
    rw [hsub]
    exact hempty
  · rw [houtbound, hv₁]
    exact hsound.move (a := .start sqe) (.start hassign)
  · rw [houtbound, hv₁]
    simp [View.outbound, hrequests]

/-- From a moment on at which nothing is queued or in flight, what is written
    and what is queued is what has been accepted since. -/
theorem Wf.stream_since (hwf : w.Wf) (hs : w.sockets i = some s) (htcp : s.socket_type = .tcp)
    (hsound : (w.view_with i s).outbound.Sound) (hwrites : (w.view_with i s).outbound.writes = [])
    (hnone : s.send_buffer.contents = []) {s' : SocketObject}
    (hrun : (machine p).Run (permits i View.stays_connected) w w') (hs' : w'.sockets i = some s') :
    ∃ accepted written, (w'.history i).accepted = (w.history i).accepted ++ accepted ∧
      (w'.history i).written = (w.history i).written ++ written ∧
      written ++ s'.send_buffer.main_buffer.contents ++ s'.send_buffer.sub_buffer.contents =
        accepted := by
  have hkept : ∃ v, w'.view i = some v ∧ v.outbound.Sound ∧ v.outbound.Steady ∧
      Outbox.Steps (w.view_with i s).outbound.outbox v.outbound.outbox ∧
      v.outbound.socket_type = .tcp := by
    refine run_view (P := fun v => v.outbound.Sound ∧ v.outbound.Steady ∧
      Outbox.Steps (w.view_with i s).outbound.outbox v.outbound.outbox ∧
      v.outbound.socket_type = .tcp) ?_ hwf hrun (view_eq hs) ⟨hsound, .of_none hwrites, .refl, htcp⟩
    rintro v a v' ⟨hsound, hsteady, hsteps, htype⟩ hallowed hmove
    have hmove := hmove.outbound
    have hstart : ∀ sqe, a ≠ .start sqe := by
      rintro sqe rfl
      exact hallowed
    have hended : ∀ r res, a ≠ .receive_ended r res := by
      rintro r res rfl
      exact hallowed
    refine ⟨hsound.move hmove, hsteady.move hsound hmove (fun sqe ha => absurd ha (hstart sqe))
      (fun r res ha => absurd ha (hended r res)), ?_, hmove.socket_type.2.1.trans htype⟩
    exact hsteps.trans (hmove.outbox hsound hsteady (fun sqe ha => absurd ha (hstart sqe)) hended)
  obtain ⟨v', hv', _, _, hsteps, htype⟩ := hkept
  rw [view_eq hs'] at hv'
  cases hv'
  have htaken : ∀ o : Outbound, o.socket_type = .tcp → o.outbox.accepted = o.accepted := by
    intro o ho
    simp [Outbound.outbox, Outbound.taken, ho]
  obtain ⟨accepted, written, haccepted, hwritten, hstream⟩ :=
    hsteps.since hnone (by simp [Outbound.outbox, hwrites])
  rw [htaken _ htype, htaken _ htcp] at haccepted
  refine ⟨accepted, written, haccepted, hwritten, ?_⟩
  rw [List.append_assoc]
  exact hstream

/-- The locked body of a send that finds nothing queued submits its bytes. -/
theorem Wf.submits_first (hwf : w.Wf) (hs : w.sockets i = some s)
    (hsound : (w.view_with i s).outbound.Sound) (hnone : s.send_buffer.contents = []) {bytes : Bytes}
    {index : Nat} (hindex : w.sends[index]? = some (i, bytes))
    (hstep : w.step p (.send_locked index true) = some w') :
    ∃ r, (w'.history i).submitted = (w.history i).submitted ++ [r] ∧ r.context.type = .write ∧
      r.payload = bytes.val := by
  obtain ⟨v', hv', hmove⟩ := ((hwf.step_does hstep).moves i).move _ (view_eq hs)
  obtain ⟨s', hs', rfl⟩ := Option.map_eq_some_iff.mp hv'
  have haction : w.action i (.send_locked index true) = .send bytes true := by
    simp [action, hindex]
  rw [haction] at hmove
  have hempty : s.send_buffer.empty = true := hsound.valid.empty_iff.mpr hnone
  generalize hv' : w'.view_with i s' = v' at hmove
  have hhistory : w'.history i = v'.history := congrArg View.history hv'
  cases hmove with
  | send_first htype _ hpush addr hsend =>
    obtain ⟨hpushed, _⟩ := hsound.pushed hpush
    rcases hsend with ⟨c, ctx, hctx, rfl⟩ | ⟨hudp, _⟩
    · refine ⟨_, by rw [hhistory]; rfl, hctx.type, ?_⟩
      rw [hctx.payload]
      exact hpushed.main_takes hnone
    · cases htype.symm.trans hudp
  | send_queued _ hkept => cases hempty.symm.trans hkept

/-- A connected socket with nothing queued or in flight, that is not closing. -/
theorem Wf.starts_clean (hwf : w.Wf) (hs : w.sockets i = some s) (htcp : s.socket_type = .tcp)
    (hflag : s.connected_flag = true) (hgraceful : s.shutdown_gracefully = false)
    (hmain : s.send_buffer.main_buffer.contents = []) (hsub : s.send_buffer.sub_buffer.contents = [])
    (hsound : (w.view_with i s).outbound.Sound) (hwrites : (w.view_with i s).outbound.writes = []) :
    w.StartsClean p i s := by
  have hnone : s.send_buffer.contents = [] := List.append_eq_nil_iff.mpr ⟨hmain, hsub⟩
  have hsend : ∀ bytes, TcpSocket.send w i s bytes =
      (true, { w with sends := w.sends ++ [(i, bytes)] }) := by
    intro bytes
    simp [TcpSocket.send, hgraceful, hflag]
  refine ⟨hgraceful, hmain, hsub, fun bytes => by rw [hsend], ?_, ?_⟩
  · intro bytes index w' hindex hstep
    rw [hsend] at hindex hstep
    have hwf' := hwf.set_sends (w.sends ++ [(i, bytes)])
    exact hwf'.submits_first (s := s) hs hsound hnone hindex hstep
  · intro w' s' hrun hs'
    exact hwf.stream_since hs htcp hsound hwrites hnone hrun hs'

/-- A new connection of a socket starts clean exactly if no graceful shutdown of
    an earlier one is still pending. -/
theorem starts_clean_iff (hreach : (machine p).Reachable Machine.Any w) (hs : w.sockets i = some s)
    (htcp : s.socket_type = .tcp) (hended : w.Ended i s) {addresses : List TcpSocket.Attempt}
    {sqe : Bool} (hconnect : TcpSocket.connect p w i s addresses sqe = some (true, w'))
    {s' : SocketObject} (hs' : w'.sockets i = some s') :
    w'.StartsClean p i s' ↔ s.shutdown_gracefully = false := by
  obtain ⟨t, ht, htype, hflag, hgraceful, hmain, hsub, hsound, hwrites⟩ :=
    connect_outbound hreach hs htcp hended hconnect
  obtain rfl : t = s' := Option.some.inj (ht.symm.trans hs')
  have hstep : (machine p).step w (.connect i addresses sqe) = some w' := by
    have hsocket : w.socket_of i .tcp = some s := by
      rw [socket_of, hs, Option.filter_some, htcp]
      rfl
    change w.step p (.connect i addresses sqe) = some w'
    rw [step, hsocket, Option.bind_eq_bind, Option.bind_some, hconnect]
    rfl
  have hwf' : w'.Wf := Wf.reachable (.step hreach trivial hstep)
  constructor
  · intro hclean
    rw [← hgraceful]
    exact hclean.shutdown_gracefully
  · intro hopen
    exact hwf'.starts_clean ht htype hflag (hgraceful.trans hopen) hmain hsub hsound hwrites

end World

end rioring
