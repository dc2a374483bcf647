import Rioring.View.Run

/-! Which object an open descriptor belongs to, and the descriptor that the
requests of a socket name. -/

namespace rioring

open World

variable {p : Platform} {i j : ObjectId} {w w' : World} {s : SocketObject}

namespace View

variable {v v' : View} {a : Action}

theorem error_descriptor (code : Int) : (v.error code).socket = v.socket ∧
    (v.error code).history.closed = v.history.closed := by
  rw [error]
  split
  · exact ⟨rfl, rfl⟩
  · exact ⟨rfl, rfl⟩

theorem submit_descriptor (c : ContextId) (ctx : IoContext) (sqe : Bool) :
    (v.submit c ctx sqe).socket = v.socket ∧
      (v.submit c ctx sqe).history.closed = v.history.closed := by
  rw [submit]
  split
  · exact ⟨rfl, rfl⟩
  · exact error_descriptor _

theorem Receives.descriptor {sqe : Bool} (h : v.Receives p sqe v') :
    v'.socket = v.socket ∧ v'.history.closed = v.history.closed := by
  obtain ⟨c, ctx, _, rfl⟩ := h
  exact submit_descriptor c ctx sqe

theorem Shuts.descriptor {sqe : Bool} (h : v.Shuts sqe v') :
    v'.socket = v.socket ∧ v'.history.closed = v.history.closed := by
  obtain ⟨c, ctx, _, rfl⟩ := h
  exact submit_descriptor c ctx sqe

theorem Sends.descriptor {addr : SockAddr} {sqe : Bool} (h : v.Sends addr sqe v') :
    v'.socket = v.socket ∧ v'.history.closed = v.history.closed := by
  rcases h with ⟨c, ctx, _, rfl⟩ | ⟨_, _, rfl⟩
  · exact submit_descriptor c ctx sqe
  · exact ⟨rfl, rfl⟩

/-- Only an activation opens a descriptor, and only a shutdown completion closes
    the one the socket has. -/
theorem Move.descriptor (hmove : v.Move p a v') :
    (v'.history.closed = v.history.closed ∧
      ((∀ sqe, a ≠ .start sqe) → v'.socket.socket_handler = v.socket.socket_handler)) ∨
    ((∃ r, a = .shut_down r) ∧ v.socket.socket_handler ≠ 0 ∧ v'.socket.socket_handler = 0 ∧
      v'.history.closed = v.history.closed ++ [v.socket.socket_handler]) := by
  cases hmove with
  | idle => exact .inl ⟨rfl, fun _ => rfl⟩
  | set_event => exact .inl ⟨rfl, fun _ => rfl⟩
  | start_failed fd => exact .inl ⟨rfl, fun hstart => absurd rfl (hstart _)⟩
  | start_error fd code =>
    obtain ⟨_, hclosed⟩ := error_descriptor
      (v := v.with_socket { v.socket with socket_handler := fd }) code
    exact .inl ⟨hclosed, fun hstart => absurd rfl (hstart _)⟩
  | start hactive _ hreceive =>
    obtain ⟨recv_buffer, send_buffer, _, _, rfl⟩ := hactive
    exact .inl ⟨hreceive.descriptor.2, fun hstart => absurd rfl (hstart _)⟩
  | send_first htype hempty hpush addr hsend =>
    obtain ⟨hsocket, hclosed⟩ := hsend.descriptor
    exact .inl ⟨hclosed, fun _ => by rw [hsocket]; rfl⟩
  | send_queued => exact .inl ⟨rfl, fun _ => rfl⟩
  | send_to_first htype hempty hpush hsend =>
    obtain ⟨hsocket, hclosed⟩ := hsend.descriptor
    exact .inl ⟨hclosed, fun _ => by rw [hsocket]; rfl⟩
  | send_to_queued => exact .inl ⟨rfl, fun _ => rfl⟩
  | close_drained hempty hshut =>
    obtain ⟨hsocket, hclosed⟩ := hshut.descriptor
    exact .inl ⟨hclosed, fun _ => by rw [hsocket]⟩
  | close_queued => exact .inl ⟨rfl, fun _ => rfl⟩
  | close_force hshut =>
    obtain ⟨hsocket, hclosed⟩ := hshut.descriptor
    exact .inl ⟨hclosed, fun _ => by rw [hsocket]⟩
  | received htype hcomplete hdata hlength hpush hreceive addr =>
    obtain ⟨front, back, _, rfl⟩ := hcomplete
    obtain ⟨hsocket, hclosed⟩ := hreceive.descriptor
    have hkept := congrArg SocketObject.socket_handler hsocket
    left
    split
    · exact ⟨hclosed, fun _ => hkept⟩
    · exact ⟨hclosed, fun _ => hkept⟩
  | receive_ended htype hcomplete =>
    obtain ⟨front, back, _, rfl⟩ := hcomplete
    have hkept : v.socket.on_shutdown.socket_handler = v.socket.socket_handler := by
      rw [SocketObject.on_shutdown]
      split <;> rfl
    left
    split
    · exact ⟨rfl, fun _ => hkept⟩
    · exact ⟨rfl, fun _ => hkept⟩
  | sent_more garbage htype hcomplete hcount hle hempty hsend =>
    obtain ⟨front, back, _, rfl⟩ := hcomplete
    obtain ⟨hsocket, hclosed⟩ := hsend.descriptor
    exact .inl ⟨hclosed, fun _ => by rw [hsocket]; rfl⟩
  | sent_all garbage htype hcomplete hcount hle hempty hpopped hshut =>
    obtain ⟨front, back, _, rfl⟩ := hcomplete
    left
    split at hshut
    · obtain ⟨hsocket, hclosed⟩ := hshut.descriptor
      rw [hsocket, hclosed, hpopped]
      exact ⟨rfl, fun _ => rfl⟩
    · rw [hshut, hpopped]
      exact ⟨rfl, fun _ => rfl⟩
  | send_failed htype hcomplete =>
    obtain ⟨front, back, _, rfl⟩ := hcomplete
    obtain ⟨hsocket, hclosed⟩ := error_descriptor (v := { v with requests := front ++ back }) _
    exact .inl ⟨hclosed, fun _ => by rw [hsocket]⟩
  | shut_down htype hcomplete =>
    obtain ⟨front, back, _, rfl⟩ := hcomplete
    split
    · rename_i hne
      exact .inr ⟨⟨_, rfl⟩, hne, rfl, rfl⟩
    · exact .inl ⟨rfl, fun _ => rfl⟩
  | pop size => exact .inl ⟨rfl, fun _ => rfl⟩

theorem Move.shut_down_closes {r : Request} (hmove : v.Move p (.shut_down r) v')
    (hne : v.socket.socket_handler ≠ 0) : v'.socket.socket_handler = 0 ∧
      v'.history.closed = v.history.closed ++ [v.socket.socket_handler] := by
  cases hmove with
  | shut_down htype hcomplete =>
    rw [if_pos hne]
    exact ⟨rfl, rfl⟩

end View

namespace ServerView

variable {b b' : ServerView} {a : ServerAction}

theorem error_descriptor (code : Int) : (b.error code).server = b.server ∧
    (b.error code).history.closed = b.history.closed := by
  rw [error]
  split
  · exact ⟨rfl, rfl⟩
  · exact ⟨rfl, rfl⟩

theorem Submits.descriptor {type : IoType} {sqe : Bool} (h : b.Submits type sqe b') :
    b'.server = b.server ∧ b'.history.closed = b.history.closed := by
  obtain ⟨r, _, _, _, rfl⟩ := h
  split
  · exact ⟨rfl, rfl⟩
  · exact error_descriptor _

/-- Only `run` gives a server a descriptor, and every shutdown completion closes
    the one it has. -/
theorem Move.descriptor (hmove : b.Move a b') :
    (b'.history.closed = b.history.closed ∧ (∀ r, a ≠ .shut_down r) ∧
      ((∀ sqe, a ≠ .run sqe) → b'.server.server_socket = b.server.server_socket)) ∨
    ((∃ r, a = .shut_down r) ∧ b'.server.server_socket = 0 ∧
      b'.history.closed = b.history.closed ++ [b.server.server_socket]) := by
  cases hmove with
  | idle => exact .inl ⟨rfl, by simp, fun _ => rfl⟩
  | set_event => exact .inl ⟨rfl, by simp, fun _ => rfl⟩
  | run_failed fd errno =>
    obtain ⟨_, hclosed⟩ := error_descriptor
      (b := b.with_server { b.server with server_socket := fd }) errno
    exact .inl ⟨hclosed, by simp, fun hrun => absurd rfl (hrun _)⟩
  | run fd hsubmit => exact .inl ⟨hsubmit.descriptor.2, by simp, fun hrun => absurd rfl (hrun _)⟩
  | stop hsubmit =>
    obtain ⟨hserver, hclosed⟩ := hsubmit.descriptor
    exact .inl ⟨hclosed, by simp, fun _ => by rw [hserver]⟩
  | accepted peer j htype hcomplete hres =>
    obtain ⟨front, back, _, rfl⟩ := hcomplete
    exact .inl ⟨rfl, by simp, fun _ => rfl⟩
  | accept_failed peer htype hcomplete hres =>
    obtain ⟨front, back, _, rfl⟩ := hcomplete
    refine .inl ⟨rfl, by simp, fun _ => ?_⟩
    unfold with_server
    dsimp only
    split <;> rfl
  | resume hreturn hsubmit =>
    obtain ⟨front, h, back, _, _, rfl⟩ := hreturn
    obtain ⟨hserver, hclosed⟩ := hsubmit.descriptor
    exact .inl ⟨hclosed, by simp, fun _ => by rw [hserver]⟩
  | shut_down htype hcomplete =>
    obtain ⟨front, back, _, rfl⟩ := hcomplete
    exact .inr ⟨⟨_, rfl⟩, rfl, rfl⟩

end ServerView

namespace World

/-- The descriptor of an object is open, and was opened for that object. -/
def Owned (w : World) : Prop :=
  ∀ i, 0 < w.descriptor i → w.descriptors (w.descriptor i) = some i

theorem Owned.opened (howned : w.Owned) {fd : Int} (hfree : w.descriptors fd = none)
    (hi : 0 < w.descriptor i) : Function.update w.descriptors fd (some j) (w.descriptor i) = some i := by
  have hne : w.descriptor i ≠ fd := by
    intro heq
    have hopen := howned i hi
    rw [heq, hfree] at hopen
    cases hopen
  rw [Function.update_of_ne hne, howned i hi]

theorem Owned.rewires (howned : w.Owned) (hothers : ∀ i, i ≠ j → w'.descriptor i = w.descriptor i)
    (hrewires : Rewires w j (w.descriptor j) (w'.descriptor j) w') : w'.Owned := by
  intro i hi
  by_cases hij : i = j
  · subst i
    cases hrewires with
    | same hdescriptors hnew =>
      rw [hnew] at hi ⊢
      rw [hdescriptors, howned j hi]
    | missing hdescriptors hnew => omega
    | opened hfree hdescriptors => rw [hdescriptors, Function.update_self]
    | leaked fd hfree hdescriptors hnew =>
      rw [hnew] at hi ⊢
      rw [hdescriptors, howned.opened hfree hi]
    | closed hdescriptors hnew => omega
  · rw [hothers i hij] at hi ⊢
    cases hrewires with
    | same hdescriptors hnew => rw [hdescriptors, howned i hi]
    | missing hdescriptors hnew => rw [hdescriptors, howned i hi]
    | opened hfree hdescriptors => rw [hdescriptors, howned.opened hfree hi]
    | leaked fd hfree hdescriptors hnew => rw [hdescriptors, howned.opened hfree hi]
    | closed hdescriptors hnew =>
      have hne : w.descriptor i ≠ w.descriptor j := by
        intro heq
        have hopen := howned i hi
        rw [heq, howned j (heq ▸ hi)] at hopen
        exact hij (Option.some.inj hopen).symm
      rw [hdescriptors, Function.update_of_ne hne, howned i hi]

/-- No two objects have the same descriptor, and none has a closed one. -/
theorem Owned.reachable {allowed : World → Event → Prop} (hreach : (machine p).Reachable allowed w) :
    w.Owned := by
  refine (Machine.Run.invariant (P := fun w => w.Wf ∧ w.Owned) hreach ⟨Wf.start p, ?_⟩ ?_).2
  · intro i hi
    have hnone : (World.start p).descriptor i = 0 := rfl
    exact absurd hi (by rw [show (machine p).init = World.start p from rfl, hnone]; simp)
  · rintro w e w' _ ⟨hwf, howned⟩ _ hstep
    obtain ⟨j, hothers, hrewires⟩ := (hwf.step_does hstep).rewires
    exact ⟨hwf.step hstep, howned.rewires hothers hrewires⟩

/-- The event makes socket `i` open a descriptor. -/
def opens (i : ObjectId) : Event → Bool
  | .connect j _ _ | .activate j _ _ _ | .run_udp j _ _ _ _ => j = i
  | _ => false

/-- An accepted socket becomes active with the descriptor it has. -/
theorem Wf.start_keeps (hwf : w.Wf) {e : Event} (hopens : opens i e = false)
    (hstep : w.step p e = some w') {sqe : Bool} (haction : w.action i e = .start sqe) :
    w'.descriptor i = w.descriptor i := by
  cases e with
  | resume c accept_sqe read_sqe => exact (hwf.resume_does (hwf.step hstep) hstep).2 i
  | connect j addresses sqe => simp_all [action, opens]
  | activate j fd bind sqe => simp_all [action, opens]
  | run_udp j fd bind errno sqe => simp_all [action, opens]
  | _ =>
    simp only [action] at haction
    repeat' split at haction
    all_goals cases haction

/-- A step in which socket `i` opens no descriptor leaves it the one it has, or
    handles the shutdown completion that closes it. -/
theorem Wf.step_descriptor (hwf : w.Wf) (hs : w.sockets i = some s) {e : Event}
    (hopens : opens i e = false) (hstep : w.step p e = some w') : ∃ s', w'.sockets i = some s' ∧
      (((w'.history i).closed = (w.history i).closed ∧ s'.socket_handler = s.socket_handler) ∨
        ((∃ r, w.action i e = .shut_down r) ∧ s.socket_handler ≠ 0 ∧ s'.socket_handler = 0 ∧
          (w'.history i).closed = (w.history i).closed ++ [s.socket_handler])) := by
  obtain ⟨v', hv', hmove⟩ := ((hwf.step_does hstep).moves i).move _ (view_eq hs)
  obtain ⟨s', hs', rfl⟩ := Option.map_eq_some_iff.mp hv'
  refine ⟨s', hs', ?_⟩
  rcases hmove.descriptor with ⟨hclosed, hkept⟩ | ⟨hshut, hne, hzero, hclosed⟩
  · refine .inl ⟨hclosed, ?_⟩
    by_cases hstart : ∃ sqe, w.action i e = .start sqe
    · obtain ⟨sqe, hstart⟩ := hstart
      have hsame := hwf.start_keeps hopens hstep hstart
      rwa [descriptor_socket hs, descriptor_socket hs'] at hsame
    · exact hkept fun sqe heq => hstart ⟨sqe, heq⟩
  · exact .inr ⟨hshut, hne, hzero, hclosed⟩

/-- The event makes the socket or server `i` open a descriptor. -/
def reopens (i : ObjectId) : Event → Bool
  | .run j _ _ _ _ _ => j = i
  | e => opens i e

/-- A step in which an object opens no descriptor leaves it the one it has, or
    closes that one. -/
theorem Wf.step_closes (hwf : w.Wf) (hobject : (w.sockets i).isSome ∨ (w.servers i).isSome) {e : Event}
    (hopens : reopens i e = false) (hstep : w.step p e = some w') :
    ((w'.sockets i).isSome ∨ (w'.servers i).isSome) ∧
      ((w'.descriptor i = w.descriptor i ∧ (w'.history i).closed = (w.history i).closed) ∨
        (w'.descriptor i = 0 ∧
          (w'.history i).closed = (w.history i).closed ++ [w.descriptor i])) := by
  cases hs : w.sockets i with
  | some s =>
    have hopens' : opens i e = false := by
      cases e with
      | run j fd bind listen errno sqe => rfl
      | _ => exact hopens
    obtain ⟨s', hs', hkept⟩ := hwf.step_descriptor hs hopens' hstep
    rw [descriptor_socket hs, descriptor_socket hs']
    refine ⟨.inl (by simp [hs']), ?_⟩
    rcases hkept with ⟨hclosed, hhandler⟩ | ⟨_, _, hzero, hclosed⟩
    · exact .inl ⟨hhandler, hclosed⟩
    · exact .inr ⟨hzero, hclosed⟩
  | none =>
    obtain ⟨server, hserver⟩ := Option.isSome_iff_exists.mp (hobject.resolve_left (by simp [hs]))
    obtain ⟨b', hb', hmove⟩ := ((hwf.step_does hstep).serves i).move _ (server_view_eq hserver)
    obtain ⟨server', hserver', rfl⟩ := Option.map_eq_some_iff.mp hb'
    have hs' : w'.sockets i = none := (hwf.step hstep).no_socket (by simp [hserver'])
    rw [descriptor_server hs hserver, descriptor_server hs' hserver']
    refine ⟨.inr (by simp [hserver']), ?_⟩
    rcases hmove.descriptor with ⟨hclosed, _, hkept⟩ | ⟨_, hzero, hclosed⟩
    · refine .inl ⟨hkept ?_, hclosed⟩
      intro sqe hrun
      unfold server_action at hrun
      repeat' split at hrun
      all_goals first | (cases hrun; done) | skip
      simp_all [reopens]
    · exact .inr ⟨hzero, hclosed⟩

/-- The completion of a shutdown closes the descriptor of its object. -/
theorem Wf.completion_closes (hwf : w.Wf) {r : Request} (hr : r ∈ w.inflight)
    (hhandler : r.context.handler = some i) (htype : r.context.type = .shutdown)
    (hfd : w.descriptor i ≠ 0) {cqe : Cqe} {sqe : Bool}
    (hstep : w.step p (.complete r.user_data cqe sqe) = some w') :
    w'.descriptor i = 0 ∧ (w'.history i).closed = (w.history i).closed ++ [w.descriptor i] := by
  have hfind := hwf.find_inflight hr
  obtain ⟨j, hj, hfilled, _⟩ := hwf.typed r hr
  rw [hhandler] at hj
  cases hj
  rw [Filled, htype] at hfilled
  cases hs : w.sockets i with
  | some s =>
    obtain ⟨v', hv', hmove⟩ := ((hwf.step_does hstep).moves i).move _ (view_eq hs)
    obtain ⟨s', hs', rfl⟩ := Option.map_eq_some_iff.mp hv'
    rw [action_complete hfind hhandler, if_pos rfl, htype] at hmove
    rw [descriptor_socket hs] at hfd ⊢
    rw [descriptor_socket hs']
    exact hmove.shut_down_closes hfd
  | none =>
    obtain ⟨server, hserver⟩ := Option.isSome_iff_exists.mp (hfilled.resolve_left (by simp [hs]))
    obtain ⟨b', hb', hmove⟩ := ((hwf.step_does hstep).serves i).move _ (server_view_eq hserver)
    obtain ⟨server', hserver', rfl⟩ := Option.map_eq_some_iff.mp hb'
    have hs' : w'.sockets i = none := (hwf.step hstep).no_socket (by simp [hserver'])
    rw [server_action_complete hfind hhandler, if_pos rfl, htype] at hmove
    rw [descriptor_server hs hserver, descriptor_server hs' hserver']
    rcases hmove.descriptor with ⟨_, hother, _⟩ | ⟨_, hzero, hclosed⟩
    · exact absurd rfl (hother r)
    · exact ⟨hzero, hclosed⟩

/-- Along a run of such steps the socket has the descriptor it began with until a
    shutdown completion closes it, and none from then on. -/
theorem Wf.keeps_descriptor (hwf : w.Wf) (hs : w.sockets i = some s)
    (hrun : (machine p).Run (fun _ e => opens i e = false) w w') : w'.Wf ∧ ∃ s', w'.sockets i = some s' ∧
      (((w'.history i).closed = (w.history i).closed ∧ s'.socket_handler = s.socket_handler) ∨
        ((w.history i).closed.length < (w'.history i).closed.length ∧ s'.socket_handler = 0)) := by
  refine Machine.Run.invariant (P := fun u => u.Wf ∧ ∃ t, u.sockets i = some t ∧
    (((u.history i).closed = (w.history i).closed ∧ t.socket_handler = s.socket_handler) ∨
      ((w.history i).closed.length < (u.history i).closed.length ∧ t.socket_handler = 0))) hrun
    ⟨hwf, s, hs, .inl ⟨rfl, rfl⟩⟩ ?_
  rintro u e u' _ ⟨hwf, t, ht, hcase⟩ hopens hstep
  obtain ⟨t', ht', hkept⟩ := hwf.step_descriptor ht hopens hstep
  refine ⟨hwf.step hstep, t', ht', ?_⟩
  rcases hkept with ⟨hclosed, hhandler⟩ | ⟨_, _, hzero, hclosed⟩
  · rwa [hclosed, hhandler]
  · refine .inr ⟨?_, hzero⟩
    have hle : (w.history i).closed.length ≤ (u.history i).closed.length := by
      rcases hcase with ⟨hsame, _⟩ | ⟨hlt, _⟩
      · rw [hsame]
      · exact hlt.le
    rw [hclosed, List.length_append, List.length_singleton]
    omega

end World

/-- From a socket that has opened or accepted a descriptor: a request it submits
    later names that descriptor, still open and its own, exactly when no shutdown
    completion has closed it before. -/
theorem requests_name_descriptor_iff (hreach : (machine p).Reachable Machine.Any w)
    (hs : w.sockets i = some s) (hfd : 0 < s.socket_handler) {w₁ w₂ : World}
    (hrun : (machine p).Run (fun _ e => opens i e = false) w w₁) {e : Event} (hopens : opens i e = false)
    (hstep : (machine p).step w₁ e = some w₂) {r : Request} (hr : r ∈ w₁.submitted_since w₂ i) :
    (r.fd = s.socket_handler ∧ w₂.descriptors r.fd = some i) ↔
      (w₁.history i).closed = (w.history i).closed := by
  obtain ⟨hwf₁, s₁, hs₁, hcase⟩ := (Wf.reachable hreach).keeps_descriptor hs hrun
  obtain ⟨s₂, hs₂, _, hsubmits, _, hrfd⟩ := hwf₁.submitted_since hs₁ hstep hr
  obtain ⟨s₂', hs₂', hkept⟩ := hwf₁.step_descriptor hs₁ hopens hstep
  rw [hs₂] at hs₂'
  cases hs₂'
  have hhandler : s₂.socket_handler = s₁.socket_handler := by
    rcases hkept with ⟨_, hhandler⟩ | ⟨⟨r', hshut⟩, _⟩
    · exact hhandler
    · rw [hshut] at hsubmits
      cases hsubmits
  have howned : w₂.Owned := Owned.reachable (hreach.trans (.step hrun.any trivial hstep))
  constructor
  · rintro ⟨heq, _⟩
    rcases hcase with ⟨hsame, _⟩ | ⟨_, hzero⟩
    · exact hsame
    · omega
  · intro hsame
    rcases hcase with ⟨_, hfirst⟩ | ⟨hlt, _⟩
    · have hdescriptor : w₂.descriptor i = r.fd := (descriptor_socket hs₂).trans hrfd.symm
      have hopen := howned i (by omega)
      rw [hdescriptor] at hopen
      exact ⟨by omega, hopen⟩
    · rw [hsame] at hlt
      exact absurd hlt (lt_irrefl _)

/-- A datagram socket with descriptor 7, whose receive is in flight. -/
def activated : List Event := [.create_udp, .activate 1 7 true true]

/-- It receives a datagram and submits the next receive. -/
def one_datagram : List Event := [.complete 0 { res := 2, data := [1, 2] } true, .finish 0]

theorem requests_name_descriptor_one_datagram : ∃ w w₁ w₂ s r,
    (machine .small).Reachable Machine.Any w ∧ w.sockets 1 = some s ∧ 0 < s.socket_handler ∧
      (machine .small).Run (fun _ e => opens 1 e = false) w w₁ ∧
      (machine .small).step w₁ (.complete 1 { res := 2, data := [3, 4] } true) = some w₂ ∧
      r ∈ w₁.submitted_since w₂ 1 ∧ r.fd = s.socket_handler ∧ w₂.descriptors r.fd = some 1 := by
  obtain ⟨w, hreach, hw⟩ := Machine.reachable_of_exec (machine .small) Machine.Any activated
    (fun w => (w.sockets 1).any (fun s => 0 < s.socket_handler) &&
      ((machine .small).exec (fun _ e => opens 1 e = false) w one_datagram).any fun w₁ =>
        (w₁.history 1).closed == (w.history 1).closed &&
        ((machine .small).step w₁ (.complete 1 { res := 2, data := [3, 4] } true)).any fun w₂ =>
          !(w₁.submitted_since w₂ 1).isEmpty) (by decide +kernel)
  simp only [Bool.and_eq_true, Option.any_eq_true, decide_eq_true_eq, beq_iff_eq, Bool.not_eq_true',
    List.isEmpty_eq_false_iff] at hw
  obtain ⟨⟨s, hs, hfd⟩, w₁, hexec, hclosed, w₂, hstep, hsubmitted⟩ := hw
  obtain ⟨r, hr⟩ := List.exists_mem_of_ne_nil _ hsubmitted
  have hrun := Machine.run_of_exec hexec
  exact ⟨w, w₁, w₂, s, r, hreach, hs, hfd, hrun, hstep, hr,
    (requests_name_descriptor_iff hreach hs hfd hrun rfl hstep hr).mpr hclosed⟩

/-- It is closed, and the shutdown completes while the receive is in flight. -/
def closed_receiving : List Event := [.close 1 .force true, .complete 1 { res := 0 } true, .finish 1]

/-- A datagram that arrives then makes the socket receive from descriptor 0. -/
theorem receive_names_stdin : ¬ ∀ w w₁ w₂ s r, (machine .small).Reachable Machine.Any w →
    w.sockets 1 = some s → 0 < s.socket_handler →
    (machine .small).Run (fun _ e => opens 1 e = false) w w₁ →
    (machine .small).step w₁ (.complete 0 { res := 2, data := [1, 2] } true) = some w₂ →
    r ∈ w₁.submitted_since w₂ 1 → r.context.type = .read ∨ r.context.type = .write →
    r.fd = s.socket_handler ∧ w₂.descriptors r.fd = some 1 := by
  intro hall
  obtain ⟨w, hreach, hw⟩ := Machine.reachable_of_exec (machine .small) Machine.Any activated
    (fun w => (w.sockets 1).any (fun s => 0 < s.socket_handler) &&
      ((machine .small).exec (fun _ e => opens 1 e = false) w closed_receiving).any fun w₁ =>
        ((machine .small).step w₁ (.complete 0 { res := 2, data := [1, 2] } true)).any fun w₂ =>
          (w₁.submitted_since w₂ 1).any fun r => r.context.type == .read && r.fd == 0)
    (by decide +kernel)
  simp only [Bool.and_eq_true, Option.any_eq_true, decide_eq_true_eq, List.any_eq_true, beq_iff_eq] at hw
  obtain ⟨⟨s, hs, hfd⟩, w₁, hexec, w₂, hstep, r, hr, htype, hzero⟩ := hw
  have hnamed := hall w w₁ w₂ s r hreach hs hfd (Machine.run_of_exec hexec) hstep hr (.inl htype)
  omega

end rioring
