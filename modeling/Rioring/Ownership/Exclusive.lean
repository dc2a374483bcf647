import Rioring.Descriptors
import Rioring.Outbound.Sending
import Rioring.Ownership.Circulation

/-! A context is held by one party at a time. -/

namespace rioring

open IoService

namespace Request

/-- What the completion of a request is to the socket that handles it. -/
def action (r : Request) (cqe : Cqe) (sqe : Bool) : Action :=
  match r.context.type with
  | .read => if 0 < cqe.res then .received r cqe.data sqe else .receive_ended r cqe.res
  | .write => if 0 < cqe.res then .sent r cqe.res.toNat sqe else .send_failed r cqe.res
  | .shutdown => .shut_down r
  | .accept | .unknown => .idle

/-- What the completion of a request is to the server that handles it. -/
def server_action (r : Request) (cqe : Cqe) : ServerAction :=
  match r.context.type with
  | .accept => .accept_completed r cqe.res
  | .shutdown => .shut_down r
  | .read | .write | .unknown => .idle

end Request

namespace Outbound

variable {p : Platform} {o o' : Outbound} {a : Action}

/-- The writes of a UDP socket go to addresses of a known family. -/
def Addressed (o : Outbound) : Prop := o.socket_type = .udp → ∀ r ∈ o.writes,
  r.context.ctype = .udp_context ∧ SockAddr.addr_len r.context.addr.sa_family ≠ 0

theorem Addressed.sends {addr : SockAddr} {sqe : Bool} (haddressed : o.Addressed)
    (h : o.Sends addr sqe o') : o'.Addressed := by
  obtain ⟨hsubmitted, hwrites⟩ := h.spec
  intro hudp r hr
  rw [hsubmitted.socket_type] at hudp
  rcases hwrites with hsame | ⟨r', hwrite, _, happend⟩
  · exact haddressed hudp r (hsame ▸ hr)
  · rw [happend, List.mem_append, List.mem_singleton] at hr
    rcases hr with hr | rfl
    · exact haddressed hudp r hr
    · obtain ⟨hctype, hfamily, hsame, _⟩ := hwrite.datagram hudp
      exact ⟨hctype, hsame ▸ hfamily⟩

theorem Addressed.move (haddressed : o.Addressed) (hmove : Move p o a o') : o'.Addressed := by
  have hqueued : ∀ {o₁ : Outbound} {bytes : Bytes} {addr : SockAddr} {sqe : Bool},
      Queues p o₁ bytes addr sqe o' → o₁.Addressed → o'.Addressed := by
    rintro o₁ bytes addr sqe ⟨send_buffer, _, ⟨_, hsends⟩ | ⟨_, rfl⟩⟩ h₁
    · exact Addressed.sends (o := { o₁ with send_buffer }) h₁ hsends
    · exact h₁
  have hcompleted : ∀ {o₁ : Outbound} {r : Request}, o.Completes r o₁ → o₁.Addressed := by
    rintro o₁ r ⟨front, back, hwrites, rfl⟩ hudp r' hr'
    apply haddressed hudp
    rw [hwrites]
    rcases List.mem_append.mp hr' with hr' | hr'
    · exact List.mem_append_left _ hr'
    · exact List.mem_append_right _ (List.mem_cons_of_mem _ hr')
  cases hmove with
  | same => exact haddressed
  | start hassign => exact haddressed
  | send addr htype hqueues => exact hqueued hqueues haddressed
  | send_to htype hqueues => exact hqueued hqueues haddressed
  | close hempty => exact haddressed
  | receive_ended => exact haddressed
  | sent garbage addr haddr hcomplete hcount hle hpop ho₂ hsend =>
    have h₁ := hcompleted hcomplete
    rcases hsend with ⟨_, rfl⟩ | ⟨_, hsends⟩
    · rw [ho₂]
      exact h₁
    · refine Addressed.sends ?_ hsends
      rw [ho₂]
      exact h₁
  | send_failed hpayload hcomplete => exact hcompleted hcomplete

end Outbound

namespace View

variable {p : Platform} {v v' : View} {a : Action}

/-- The remote address of a socket is set before the socket can be used. -/
theorem Move.remote_info (hmove : v.Move p a v') :
    v'.socket.addr_storage = v.socket.addr_storage ∧
      v'.socket.remote_port_number = v.socket.remote_port_number := by
  have hsubmits : ∀ {v₁ : View}, v'.socket = v₁.socket →
      (v₁.socket.addr_storage = v.socket.addr_storage ∧
        v₁.socket.remote_port_number = v.socket.remote_port_number) →
      v'.socket.addr_storage = v.socket.addr_storage ∧
        v'.socket.remote_port_number = v.socket.remote_port_number := by
    intro v₁ hsame hkept
    rw [hsame]
    exact hkept
  cases hmove with
  | idle => exact ⟨rfl, rfl⟩
  | set_event => exact ⟨rfl, rfl⟩
  | start_failed fd => exact ⟨rfl, rfl⟩
  | start_error fd code => exact hsubmits (error_descriptor code).1 ⟨rfl, rfl⟩
  | start hactive _ hreceive =>
    obtain ⟨recv_buffer, send_buffer, _, _, rfl⟩ := hactive
    exact hsubmits hreceive.descriptor.1 ⟨rfl, rfl⟩
  | send_first htype hempty hpush addr hsend => exact hsubmits hsend.descriptor.1 ⟨rfl, rfl⟩
  | send_queued htype hempty hpush => exact ⟨rfl, rfl⟩
  | send_to_first htype hempty hpush hsend => exact hsubmits hsend.descriptor.1 ⟨rfl, rfl⟩
  | send_to_queued htype hempty hpush => exact ⟨rfl, rfl⟩
  | close_drained hempty hshut => exact hsubmits hshut.descriptor.1 ⟨rfl, rfl⟩
  | close_queued hempty => exact ⟨rfl, rfl⟩
  | close_force hshut => exact hsubmits hshut.descriptor.1 ⟨rfl, rfl⟩
  | received htype hcomplete hdata hlength hpush hreceive addr =>
    rename_i v₁ v₂ r data sqe recv_buffer
    obtain ⟨front, back, _, rfl⟩ := hcomplete
    have hkept : v₂.socket.addr_storage = v.socket.addr_storage ∧
        v₂.socket.remote_port_number = v.socket.remote_port_number := by
      rw [hreceive.descriptor.1]
      exact ⟨rfl, rfl⟩
    split
    · exact hkept
    · exact hkept
  | receive_ended htype hcomplete =>
    obtain ⟨front, back, _, rfl⟩ := hcomplete
    have hkept : v.socket.on_shutdown.addr_storage = v.socket.addr_storage ∧
        v.socket.on_shutdown.remote_port_number = v.socket.remote_port_number := by
      unfold SocketObject.on_shutdown
      split
      · exact ⟨rfl, rfl⟩
      · exact ⟨rfl, rfl⟩
    split
    · exact hkept
    · exact hkept
  | sent_more garbage htype hcomplete hcount hle hempty hsend =>
    obtain ⟨front, back, _, rfl⟩ := hcomplete
    exact hsubmits hsend.descriptor.1 ⟨rfl, rfl⟩
  | sent_all garbage htype hcomplete hcount hle hempty hpopped hshut =>
    obtain ⟨front, back, _, rfl⟩ := hcomplete
    split at hshut
    · refine hsubmits hshut.descriptor.1 ?_
      rw [hpopped]
      exact ⟨rfl, rfl⟩
    · rw [hshut, hpopped]
      exact ⟨rfl, rfl⟩
  | send_failed htype hcomplete =>
    obtain ⟨front, back, _, rfl⟩ := hcomplete
    exact hsubmits (error_descriptor _).1 ⟨rfl, rfl⟩
  | shut_down htype hcomplete =>
    obtain ⟨front, back, _, rfl⟩ := hcomplete
    split
    · exact ⟨rfl, rfl⟩
    · exact ⟨rfl, rfl⟩
  | pop size => exact ⟨rfl, rfl⟩

end View

namespace World

variable {p : Platform} {w w₁ w' : World} {allowed : World → Event → Prop}

theorem Wf.addressed_step (hwf : w.Wf) (haddressed : w.Addressed) {e : Event}
    (hstep : (machine p).step w e = some w') : w'.Addressed := by
  intro r hr hwrite i s' hhandler hs' hudp
  have hdoes : Does p w e w' := hwf.step_does hstep
  have hkept : (w'.view_with i s').outbound.Addressed := by
    cases hs : w.sockets i with
    | none =>
      have hfresh := (hdoes.moves i).fresh _ (view_eq_none hs) (view_eq hs')
      intro _ r hr
      simp [View.outbound, hfresh.requests] at hr
    | some s =>
      obtain ⟨v', hv', hmove⟩ := (hdoes.moves i).move _ (view_eq hs)
      rw [view_eq hs'] at hv'
      cases hv'
      refine Outbound.Addressed.move ?_ hmove.outbound
      intro hudp r hr
      obtain ⟨hr, hwrite⟩ := List.mem_filter.mp hr
      obtain ⟨hr, hhandler⟩ := List.mem_filter.mp hr
      exact haddressed r hr hwrite i s (by simpa using hhandler) hs hudp
  apply hkept hudp
  exact List.mem_filter.mpr ⟨List.mem_filter.mpr ⟨hr, by simpa using hhandler⟩, hwrite⟩

theorem reachable_addressed (hreach : (machine p).Reachable allowed w) : w.Addressed := by
  have hkept : w.Wf ∧ w.Addressed := by
    refine Machine.Run.invariant (P := fun w => w.Wf ∧ w.Addressed) hreach
      ⟨Wf.start p, fun r hr => (by cases hr)⟩ ?_
    rintro w e w' _ ⟨hwf, haddressed⟩ _ hstep
    exact ⟨hwf.step hstep, hwf.addressed_step haddressed hstep⟩
  exact hkept.2

/-- A context that is being handled stays as it is until its handler returns. -/
theorem Wf.step_handled (hwf : w.Wf) (haddressed : w.Addressed) {e : Event} {c : ContextId}
    (hc : c ∈ w.custody.used) (hfinish : e ≠ .finish c) (hstep : (machine p).step w e = some w') :
    c ∈ w'.custody.used ∧ w'.contexts c = w.contexts c := by
  refine hwf.sound.used_along hc (hwf.circulates haddressed hstep) ?_
  rintro s m hm rfl
  exact hfinish hm

/-- A context in flight stays as it is until its request completes. -/
theorem Wf.step_out (hwf : w.Wf) (haddressed : w.Addressed) {e : Event} {c : ContextId}
    (hc : c ∈ w.custody.out) (hcomplete : ∀ cqe sqe, e ≠ .complete c cqe sqe)
    (hstep : (machine p).step w e = some w') :
    c ∈ w'.custody.out ∧ w'.contexts c = w.contexts c := by
  refine hwf.sound.out_along hc (hwf.circulates haddressed hstep) ?_
  rintro s m hm result rfl
  obtain ⟨cqe, sqe, heq⟩ := hm
  exact hcomplete cqe sqe heq

/-- Only the completion of its request puts a context in the hands of a handler. -/
theorem Wf.step_used (hwf : w.Wf) (haddressed : w.Addressed) {e : Event} {c : ContextId}
    (hcomplete : ∀ cqe sqe, e ≠ .complete c cqe sqe) (hstep : (machine p).step w e = some w')
    (hc : c ∈ w'.custody.used) : c ∈ w.custody.used := by
  refine Custody.used_since_run (hwf.circulates haddressed hstep) ?_ hc
  rintro s m hm result rfl
  obtain ⟨cqe, sqe, heq⟩ := hm
  exact hcomplete cqe sqe heq

/-- The socket of a handler keeps its address. -/
theorem Wf.step_addr_storage (hwf : w.Wf) {e : Event} {handler : Option ObjectId} {s : SocketObject}
    (hs : w.to_socket_ptr handler = some s) (hstep : (machine p).step w e = some w') :
    ∃ s', w'.to_socket_ptr handler = some s' ∧ s'.addr_storage = s.addr_storage := by
  obtain ⟨i, rfl, hs⟩ := Option.bind_eq_some_iff.mp hs
  obtain ⟨v', hv', hmove⟩ := ((hwf.step_does hstep).moves i).move _ (view_eq hs)
  obtain ⟨s', hs', rfl⟩ := Option.map_eq_some_iff.mp hv'
  exact ⟨s', hs', hmove.remote_info.1⟩

/-- The address a handler is given, from its context and its socket. -/
theorem current_sockaddr_congr {c : ContextId} {s s' : SocketObject}
    (hcontext : w'.contexts c = w.contexts c)
    (hs : w.to_socket_ptr (w.contexts c).handler = some s)
    (hs' : w'.to_socket_ptr (w.contexts c).handler = some s')
    (haddr : s'.addr_storage = s.addr_storage) : current_sockaddr w' c = current_sockaddr w c := by
  rw [current_sockaddr, current_sockaddr, hcontext, hs, hs', Option.map_some, Option.map_some, haddr]

/-- The address a handler is given stays as it is as well. -/
theorem Wf.run_handled (hreach : (machine p).Reachable Machine.Any w) {c : ContextId}
    (hc : c ∈ w.custody.used) (hrun : (machine p).Run (fun _ e => e ≠ .finish c) w w') :
    w'.contexts c = w.contexts c ∧
      ∀ s, w.to_socket_ptr (w.contexts c).handler = some s →
        ∃ s', w'.to_socket_ptr (w.contexts c).handler = some s' ∧ s'.addr_storage = s.addr_storage := by
  have hkept : c ∈ w'.custody.used ∧ w'.contexts c = w.contexts c ∧
      ∀ s, w.to_socket_ptr (w.contexts c).handler = some s →
        ∃ s', w'.to_socket_ptr (w.contexts c).handler = some s' ∧ s'.addr_storage = s.addr_storage := by
    refine Machine.Run.invariant (P := fun w' => c ∈ w'.custody.used ∧
      w'.contexts c = w.contexts c ∧ ∀ s, w.to_socket_ptr (w.contexts c).handler = some s →
        ∃ s', w'.to_socket_ptr (w.contexts c).handler = some s' ∧ s'.addr_storage = s.addr_storage)
      hrun ⟨hc, rfl, fun s hs => ⟨s, hs, rfl⟩⟩ ?_
    rintro u e u' hu ⟨hused, hcontext, hsocket⟩ hfinish hstep
    have hreached := Machine.Run.trans hreach hu.any
    have hwf := Wf.reachable hreached
    obtain ⟨hused', hcontext'⟩ := hwf.step_handled (reachable_addressed hreached) hused hfinish hstep
    refine ⟨hused', hcontext'.trans hcontext, fun s hs => ?_⟩
    obtain ⟨t, ht, haddr⟩ := hsocket s hs
    obtain ⟨t', ht', haddr'⟩ := hwf.step_addr_storage ht hstep
    exact ⟨t', ht', haddr'.trans haddr⟩
  exact hkept.2

/-- Of a socket the kernel changes the receive buffer, and nothing else. -/
theorem kernel_socket {r : Request} {cqe : Cqe} {i : ObjectId} {s : SocketObject}
    (hs : w.sockets i = some s) :
    ∃ recv_bind_buffer, (w.kernel r cqe).sockets i = some { s with recv_bind_buffer } := by
  have hsame : ∀ w₁ : World, w₁.sockets = w.sockets →
      ∃ recv_bind_buffer, w₁.sockets i = some { s with recv_bind_buffer } :=
    fun w₁ hsame => ⟨s.recv_bind_buffer, hsame ▸ hs⟩
  have hdeliver : ∀ w₁ : World, w₁.sockets = w.sockets → ∃ recv_bind_buffer,
      (w₁.deliver_bytes r cqe.data).sockets i = some { s with recv_bind_buffer } := by
    intro w₁ hw₁
    unfold deliver_bytes
    split
    · rename_i j _
      split
      · rename_i t ht
        by_cases hij : i = j
        · subst j
          rw [hw₁, hs] at ht
          cases ht
          exact ⟨cqe.data, set_socket_self w₁ i _⟩
        · exact ⟨s.recv_bind_buffer, by simpa [hij, hw₁] using hs⟩
      · exact hsame w₁ hw₁
    · exact hsame w₁ hw₁
  have htake : (w.take_bytes r cqe).sockets = w.sockets := by
    unfold take_bytes
    split <;> rfl
  have hset : ∀ ctx, (if 0 ≤ cqe.res then w.set_context r.user_data ctx else w).sockets =
      w.sockets := by
    intro ctx
    split <;> rfl
  unfold kernel
  split
  · split
    · exact hdeliver w rfl
    · exact hsame w rfl
  · dsimp only
    split
    · exact hdeliver _ (hset _)
    · exact hsame _ (hset _)
  · exact hsame _ htake
  · exact hsame _ htake
  · split
    · split
      · exact hsame _ rfl
      · exact hsame w rfl
    · exact hsame w rfl
  · exact hsame w rfl
  · exact hsame w rfl

theorem kernel_server {r : Request} {cqe : Cqe} {i : ObjectId} (hi : (w.servers i).isSome) :
    ((w.kernel r cqe).servers i).isSome := by
  have hdeliver : ∀ w₁ : World, w₁.servers = w.servers →
      (w₁.deliver_bytes r cqe.data).servers = w.servers := by
    intro w₁ hw₁
    unfold deliver_bytes
    split
    · split <;> exact hw₁
    · exact hw₁
  have htake : (w.take_bytes r cqe).servers = w.servers := by
    unfold take_bytes
    split <;> rfl
  have hset : ∀ ctx, (if 0 ≤ cqe.res then w.set_context r.user_data ctx else w).servers =
      w.servers := by
    intro ctx
    split <;> rfl
  unfold kernel
  split
  · split
    · rwa [hdeliver w rfl]
    · exact hi
  · dsimp only
    split
    · rwa [hdeliver _ (hset _)]
    · rwa [hset]
  · rwa [htake]
  · rwa [htake]
  · split
    · split
      · rename_i j _ _ _ _
        by_cases hij : i = j <;> simp [hij, hi]
      · exact hi
    · exact hi
  · exact hi
  · exact hi

theorem kernel_extends (w : World) (r : Request) (cqe : Cqe) : w.Extends (w.kernel r cqe) := by
  refine ⟨fun i s hs => ?_, fun i hi => kernel_server hi⟩
  obtain ⟨recv_bind_buffer, hs'⟩ := @kernel_socket w r cqe i s hs
  exact ⟨_, hs', rfl⟩

/-- The completion of `r` is dispatched on the type and the handler stored in its
    context, and that handler is an object of the class the type belongs to. -/
structure Dispatched (w : World) (r : Request) : Prop where
  type : (w.contexts r.user_data).type = r.context.type
  handler : (w.contexts r.user_data).handler = r.context.handler
  object : ∃ i, r.context.handler = some i ∧ w.Filled i (w.contexts r.user_data)

theorem Wf.dispatched (hwf : w.Wf) {r : Request} (hr : r ∈ w.inflight) (cqe : Cqe) :
    w.inflight.find? (·.user_data = r.user_data) = some r ∧
      ((w.completed r.user_data).kernel r cqe).Dispatched r := by
  have hfind := hwf.find_inflight hr
  obtain ⟨_, _, _, hcontext, _⟩ := hwf.completed hfind
  obtain ⟨i, hhandler, hfilled, _⟩ := hwf.typed r hr
  obtain ⟨addr, msg, hcustody, _, _⟩ := kernel_custody (w.completed r.user_data) r cqe
  have hrecord := congrFun (congrArg Custody.records hcustody) r.user_data
  have hafter : ((w.completed r.user_data).kernel r cqe).contexts r.user_data =
      { r.context with addr, msg } := by
    refine hrecord.trans ((Function.update_self _ _ _).trans ?_)
    have hbefore : (w.completed r.user_data).contexts r.user_data = r.context := hcontext
    rw [hbefore]
  refine ⟨hfind, by rw [hafter], by rw [hafter], i, hhandler, ?_⟩
  rw [hafter]
  have hcompleted : (w.completed r.user_data).Filled i { r.context with addr, msg } := hfilled
  exact hcompleted.mono (kernel_extends _ r cqe)

/-- A completion is handled by the object its submitter stored, in the way of the
    type it stored, and by no other object. -/
structure Handles (p : Platform) (w : World) (r : Request) (cqe : Cqe) (sqe : Bool) (w' : World) :
    Prop where
  socket : ∀ i v, r.context.handler = some i → w.view i = some v →
    ∃ v', w'.view i = some v' ∧ v.Move p (r.action cqe sqe) v'
  server : ∀ i b, r.context.handler = some i → w.server_view i = some b →
    ∃ b', w'.server_view i = some b' ∧ b.Move (r.server_action cqe) b'
  others : ∀ i, r.context.handler ≠ some i →
    (∀ v, w.view i = some v → w'.view i = some v) ∧
    ∀ b, w.server_view i = some b → w'.server_view i = some b
  created : ∀ i v', w.view i = none → w'.view i = some v' → v'.Fresh

theorem Wf.handles (hwf : w.Wf) {r : Request} (hr : r ∈ w.inflight) {cqe : Cqe} {sqe : Bool}
    (hstep : (machine p).step w (.complete r.user_data cqe sqe) = some w') :
    w.Handles p r cqe sqe w' := by
  have hdoes : Does p w (.complete r.user_data cqe sqe) w' := hwf.step_does hstep
  have hfind := hwf.find_inflight hr
  obtain ⟨j, hj, _⟩ := hwf.typed r hr
  refine ⟨fun i v hi hv => ?_, fun i b hi hb => ?_, fun i hi => ⟨fun v hv => ?_, fun b hb => ?_⟩,
    fun i => (hdoes.moves i).fresh⟩
  · obtain ⟨v', hv', hmove⟩ := (hdoes.moves i).move v hv
    rw [action_complete hfind hi, if_pos rfl] at hmove
    refine ⟨v', hv', ?_⟩
    unfold Request.action
    cases htype : r.context.type <;> rw [htype] at hmove <;> exact hmove
  · obtain ⟨b', hb', hmove⟩ := (hdoes.serves i).move b hb
    rw [server_action_complete hfind hi, if_pos rfl] at hmove
    refine ⟨b', hb', ?_⟩
    unfold Request.server_action
    cases htype : r.context.type <;> rw [htype] at hmove <;> exact hmove
  · obtain ⟨v', hv', hmove⟩ := (hdoes.moves i).move v hv
    rw [action_complete hfind hj, if_neg fun heq => hi (hj.trans (congrArg some heq))] at hmove
    cases hmove
    exact hv'
  · obtain ⟨b', hb', hmove⟩ := (hdoes.serves i).move b hb
    rw [server_action_complete hfind hj, if_neg fun heq => hi (hj.trans (congrArg some heq))] at hmove
    cases hmove
    exact hb'

/-- The buffer that a read which brings bytes pushes them into has room for them,
    or gets it. -/
def has_room (p : Platform) (w : World) (r : Request) (cqe : Cqe) : Prop :=
  ∃ i s recv_buffer, r.context.handler = some i ∧ w.sockets i = some s ∧
    s.recv_buffer.push p.malloc cqe.data = .ok recv_buffer

/-- A completion that the kernel may bring is handled, unless it is a read whose
    bytes cannot be pushed. -/
theorem Wf.complete_returns (hwf : w.Wf) {r : Request} (hr : r ∈ w.inflight) (cqe : Cqe)
    (sqe : Bool) : (∃ w', (machine p).step w (.complete r.user_data cqe sqe) = some w') ↔
      w.kernel_allows r cqe = true ∧
        (r.context.type = .read → 0 < cqe.res → has_room p w r cqe) := by
  obtain ⟨hfind, htype, hhandler, j, hj, hfilled⟩ := hwf.dispatched hr cqe
  rw [hj] at hhandler
  rw [Filled, htype] at hfilled
  have hstep : (machine p).step w (.complete r.user_data cqe sqe) =
      if w.kernel_allows r cqe then
        (IoService.io p ((w.completed r.user_data).kernel r cqe) r.user_data cqe.res sqe).toOption
      else none := by
    change World.complete p w _ _ _ = _
    rw [World.complete, hfind]
    rfl
  rw [hstep]
  by_cases hallows : w.kernel_allows r cqe = true
  · rw [if_pos hallows, IoService.io, htype, hhandler, to_socket_ptr, Option.bind_some]
    cases hread : r.context.type with
    | read =>
      obtain ⟨i, hi, hkind, hopcode⟩ := hwf.typed r hr
      cases hj.symm.trans hi
      rw [Filled, hread] at hkind
      obtain ⟨hsocket, hbase⟩ := hkind
      obtain ⟨s, hs⟩ := Option.isSome_iff_exists.mp hsocket
      obtain ⟨_, _, _, hcontext, _⟩ := hwf.completed hfind
      obtain ⟨_, _, _, heffect⟩ := kernel_read (w := w.completed r.user_data) hs cqe hread hbase
        hopcode hcontext
      by_cases hres : 0 < cqe.res
      · rw [if_pos hres] at heffect
        have htake : cqe.data.take cqe.res.toNat = cqe.data := by
          rw [← (read_length hallows hopcode hread).2, List.take_length]
        rw [heffect.1]
        dsimp only
        rw [if_pos hres, SocketObject.io_received, htake]
        constructor
        · rintro ⟨w', hw'⟩
          obtain ⟨recv_buffer, hpush, _⟩ :=
            IoBuffer.bind_eq_ok_iff.mp (IoBuffer.toOption_eq_some_iff.mp hw')
          exact ⟨hallows, fun _ _ => ⟨j, s, recv_buffer, hj, hs, hpush⟩⟩
        · rintro ⟨_, hroom⟩
          obtain ⟨i, t, recv_buffer, hi, ht, hpush⟩ := hroom rfl hres
          cases hj.symm.trans hi
          cases hs.symm.trans ht
          exact ⟨_, IoBuffer.toOption_eq_some_iff.mpr
            (IoBuffer.bind_eq_ok_iff.mpr ⟨recv_buffer, hpush, rfl⟩)⟩
      · rw [if_neg hres] at heffect
        rw [heffect.1]
        dsimp only
        rw [if_neg hres]
        exact ⟨fun _ => ⟨hallows, fun _ h => absurd h hres⟩, fun _ => ⟨_, rfl⟩⟩
    | write =>
      rw [hread] at hfilled
      obtain ⟨s, hs⟩ := Option.isSome_iff_exists.mp hfilled.1
      rw [hs]
      dsimp only
      refine ⟨fun _ => ⟨hallows, fun h => (by cases h)⟩, fun _ => ?_⟩
      split <;> exact ⟨_, rfl⟩
    | accept =>
      refine ⟨fun _ => ⟨hallows, fun h => (by cases h)⟩, fun _ => ?_⟩
      dsimp only
      split
      · split <;> exact ⟨_, rfl⟩
      · exact ⟨_, rfl⟩
    | shutdown =>
      refine ⟨fun _ => ⟨hallows, fun h => (by cases h)⟩, fun _ => ?_⟩
      cases hs : ((w.completed r.user_data).kernel r cqe).sockets j with
      | some s => exact ⟨_, rfl⟩
      | none =>
        dsimp only
        split <;> exact ⟨_, rfl⟩
    | unknown =>
      rw [hread] at hfilled
      exact hfilled.elim
  · rw [if_neg hallows]
    constructor
    · rintro ⟨w', hw'⟩
      cases hw'
    · exact fun h => absurd h.1 hallows

/-- Handling a completion leaves its context as the kernel left it. -/
theorem Wf.complete_handled (hwf : w.Wf) (haddressed : w.Addressed) {r : Request}
    (hr : r ∈ w.inflight) {cqe : Cqe} {sqe : Bool}
    (hstep : (machine p).step w (.complete r.user_data cqe sqe) = some w') :
    r.user_data ∈ w'.custody.used ∧
      w'.contexts r.user_data = ((w.completed r.user_data).kernel r cqe).contexts r.user_data := by
  obtain ⟨hout, r', hfind, ⟨result, hback, _⟩, hpasses⟩ := hwf.complete_passes haddressed hstep
  rw [hwf.find_inflight hr] at hfind
  cases hfind
  have hsound := hwf.sound.of_perm (Custody.held_come_back hout result) rfl
  rw [← hback] at hsound
  refine hsound.used_along ?_ hpasses ?_
  · rw [hback]
    exact List.mem_append_right _ (List.mem_singleton_self _)
  · rintro s m hm rfl
    exact hm

/-- A request in flight under a context that was in flight before is the one that
    was in flight then. -/
theorem Wf.step_kept (hwf : w.Wf) (haddressed : w.Addressed) {e : Event}
    (hstep : (machine p).step w e = some w') {r : Request} (hr : r ∈ w'.inflight)
    (hout : r.user_data ∈ w.custody.out) : ∃ r₀ ∈ w.inflight, r₀.user_data = r.user_data ∧
      r₀.context = r.context := by
  obtain ⟨r₀, hr₀, huser⟩ := List.mem_map.mp hout
  refine ⟨r₀, hr₀, huser, ?_⟩
  have hwf' : w'.Wf := Wf.step (p := p) (e := e) hwf hstep
  have hout' : r.user_data ∈ w'.custody.out := List.mem_map_of_mem hr
  have hkept : w'.contexts r.user_data = w.contexts r.user_data := by
    refine (hwf.step_out haddressed hout ?_ hstep).2
    rintro cqe sqe rfl
    rw [← huser] at hstep hout'
    obtain ⟨hused, _⟩ := hwf.complete_handled haddressed hr₀ hstep
    exact (hwf'.sound.disjoint hused).2 hout'
  rw [hwf'.contexts r hr, ← huser, hwf.contexts r₀ hr₀] at hkept
  exact hkept.symm

end World

open World

variable {p : Platform} {w : World}

/-- A context is in one place at a time: nothing that is in flight or being
    handled is taken from the pool, a completion is handled by the object and in
    the way that were submitted, and its context and the address in it last as
    long as the handler. -/
theorem contexts_exclusive (hreach : (machine p).Reachable Machine.Any w) :
    w.held.Nodup ∧
    (∀ c w₁, allocate_context w = (c, w₁) →
      (∀ r ∈ w.inflight, r.user_data ≠ c) ∧ ∀ h ∈ w.handling, h.context ≠ c) ∧
    (∀ e w', (machine p).step w e = some w' →
      (circulation p).Run (Custody.TakesFree {}) w.custody w'.custody) ∧
    (∀ r ∈ w.inflight, ∀ cqe,
      w.inflight.find? (·.user_data = r.user_data) = some r ∧
      ((w.completed r.user_data).kernel r cqe).Dispatched r ∧
      ∀ sqe, ((∃ w', (machine p).step w (.complete r.user_data cqe sqe) = some w') ↔
        w.kernel_allows r cqe = true ∧ (r.context.type = .read → 0 < cqe.res → has_room p w r cqe)) ∧
      ∀ w', (machine p).step w (.complete r.user_data cqe sqe) = some w' →
        w.Handles p r cqe sqe w' ∧
        w'.contexts r.user_data = ((w.completed r.user_data).kernel r cqe).contexts r.user_data ∧
        ∀ s, w.to_socket_ptr r.context.handler = some s → current_sockaddr w' r.user_data =
          current_sockaddr ((w.completed r.user_data).kernel r cqe) r.user_data) ∧
    ∀ h ∈ w.handling, ∀ w', (machine p).Run (fun _ e => e ≠ .finish h.context) w w' →
      w'.contexts h.context = w.contexts h.context ∧
      ∀ s, w.to_socket_ptr (w.contexts h.context).handler = some s →
        current_sockaddr w' h.context = current_sockaddr w h.context := by
  have hwf := Wf.reachable hreach
  have haddressed := reachable_addressed hreach
  refine ⟨hwf.nodup, ?_, ?_, ?_, ?_⟩
  · intro c w₁ hallocate
    have hc : (w.custody.next {}).1 = c := by
      unfold allocate_context at hallocate
      change (next_context w).1 = c
      unfold next_context
      split at hallocate
      · exact congrArg Prod.fst hallocate
      · exact congrArg Prod.fst hallocate
    obtain ⟨hout, hused⟩ := hwf.sound.next_free {}
    rw [hc] at hout hused
    exact ⟨fun r hr heq => hout (heq ▸ List.mem_map_of_mem hr),
      fun h hh heq => hused (heq ▸ List.mem_map_of_mem hh)⟩
  · intro e w' hstep
    exact hwf.sound.takes_free (hwf.circulates haddressed hstep)
  · intro r hr cqe
    obtain ⟨hfind, hdispatched⟩ := hwf.dispatched hr cqe
    refine ⟨hfind, hdispatched, fun sqe => ⟨hwf.complete_returns hr cqe sqe, fun w' hstep => ?_⟩⟩
    obtain ⟨_, hcontext⟩ := hwf.complete_handled haddressed hr hstep
    refine ⟨hwf.handles hr hstep, hcontext, fun s hs => ?_⟩
    obtain ⟨s', hs', haddr⟩ := hwf.step_addr_storage hs hstep
    obtain ⟨i, hhandler, hi⟩ := Option.bind_eq_some_iff.mp hs
    obtain ⟨recv_bind_buffer, ht⟩ :=
      @kernel_socket (w.completed r.user_data) r cqe i s hi
    have ht : ((w.completed r.user_data).kernel r cqe).to_socket_ptr r.context.handler =
        some { s with recv_bind_buffer } := by
      rw [hhandler]
      exact ht
    rw [← hdispatched.handler] at hs' ht
    exact current_sockaddr_congr hcontext ht hs' haddr
  · intro h hh w' hrun
    obtain ⟨hcontext, hsocket⟩ := Wf.run_handled hreach (List.mem_map_of_mem hh) hrun
    refine ⟨hcontext, fun s hs => ?_⟩
    obtain ⟨s', hs', haddr⟩ := hsocket s hs
    exact current_sockaddr_congr hcontext hs hs' haddr

/-- A datagram is being handled, and the next receive is in flight. -/
def receiving : List Event := [
  .create_udp,
  .activate 1 7 true true,
  .complete 0 { res := 1, data := [1], peer := { sa_family := AF_INET } } true]

theorem contexts_exclusive_receiving : ∃ w, (machine .small).Reachable Machine.Any w ∧
    w.inflight.length = 1 ∧ w.handling.length = 1 ∧
      (∀ r ∈ w.inflight, r.user_data ≠ (allocate_context w).1 ∧ ∀ cqe sqe w',
        (machine .small).step w (.complete r.user_data cqe sqe) = some w' →
          w.Handles .small r cqe sqe w') ∧
      ∀ h ∈ w.handling, h.context ≠ (allocate_context w).1 := by
  obtain ⟨w, hreach, hw⟩ := Machine.reachable_of_exec (machine .small) Machine.Any receiving
    (fun w => w.inflight.length == 1 && w.handling.length == 1) (by decide +kernel)
  simp only [Bool.and_eq_true, beq_iff_eq] at hw
  obtain ⟨_, hfree, _, hcompletes, _⟩ := contexts_exclusive hreach
  obtain ⟨hinflight, hhandling⟩ := hfree _ _ rfl
  refine ⟨w, hreach, hw.1, hw.2, fun r hr => ⟨hinflight r hr, fun cqe sqe w' hstep => ?_⟩, hhandling⟩
  exact (((hcompletes r hr cqe).2.2 sqe).2 w' hstep).1

end rioring
