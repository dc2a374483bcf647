import Rioring.View.Run

/-! What a step does to the completions being handled, and to the `send` calls
between guard and lock. -/

namespace rioring

open IoService

namespace World

variable {p : Platform} {w w' w'' : World} {i : ObjectId} {s : SocketObject} {sqe : Bool}

/-- Neither of them is touched. -/
structure Quiet (w w' : World) : Prop where
  handling : w'.handling = w.handling
  sends : w'.sends = w.sends
  objects : w'.objects = w.objects

theorem Quiet.refl : Quiet w w := ⟨rfl, rfl, rfl⟩

theorem Quiet.trans (h : Quiet w w') (h' : Quiet w' w'') : Quiet w w'' :=
  ⟨h'.handling.trans h.handling, h'.sends.trans h.sends, h'.objects.trans h.objects⟩

theorem Quiet.of_submitted (h : Submitted w w') : Quiet w w' := ⟨h.handling, h.sends, h.objects⟩

theorem quiet_io_error (code : Int) : Quiet w (w.io_error i code) := by
  rw [io_error]
  split <;> exact ⟨rfl, rfl, rfl⟩

theorem quiet_set_socket (t : SocketObject) : Quiet w (w.set_socket i t) := ⟨rfl, rfl, rfl⟩

theorem quiet_record (f : History → History) : Quiet w (w.record i f) := ⟨rfl, rfl, rfl⟩

theorem quiet_tcp_on_active (hactive : TcpSocket.on_active p w i s sqe = .ok w') : Quiet w w' := by
  rw [TcpSocket.on_active, IoBuffer.bind_eq_ok_iff] at hactive
  obtain ⟨recv_buffer, _, hactive⟩ := hactive
  rw [IoBuffer.bind_eq_ok_iff] at hactive
  obtain ⟨send_buffer, _, hactive⟩ := hactive
  cases hactive
  exact ((quiet_set_socket _).trans (quiet_record _)).trans
    (.of_submitted (submit_context_submitted _ _ _))

theorem quiet_udp_on_active (hactive : UdpSocket.on_active p w i s sqe = .ok w') : Quiet w w' := by
  rw [UdpSocket.on_active, IoBuffer.bind_eq_ok_iff] at hactive
  obtain ⟨recv_buffer, _, hactive⟩ := hactive
  rw [IoBuffer.bind_eq_ok_iff] at hactive
  obtain ⟨send_buffer, _, hactive⟩ := hactive
  cases hactive
  exact ((quiet_set_socket _).trans (quiet_record _)).trans
    (.of_submitted (submit_context_submitted _ _ _))

theorem quiet_connect_loop {addresses : List TcpSocket.Attempt} {s' : SocketObject}
    (hloop : TcpSocket.connect_loop w i s addresses = some (w', s')) : Quiet w w' := by
  induction addresses generalizing w with
  | nil =>
    cases hloop
    exact .refl
  | cons a rest ih =>
    rw [TcpSocket.connect_loop] at hloop
    by_cases hfd : a.socket < 0
    · rw [if_pos hfd] at hloop
      exact ih hloop
    · rw [if_neg hfd] at hloop
      by_cases hopen : w.descriptors a.socket ≠ none
      · rw [if_pos hopen] at hloop
        cases hloop
      · rw [if_neg hopen] at hloop
        split at hloop
        · have hfailed : Quiet w ((w.open_descriptor a.socket i).free_descriptor a.socket) :=
            ⟨rfl, rfl, rfl⟩
          exact hfailed.trans (ih hloop)
        · cases hloop
          exact ⟨rfl, rfl, rfl⟩

theorem quiet_connect {addresses : List TcpSocket.Attempt} {result : Bool}
    (hconnect : TcpSocket.connect p w i s addresses sqe = some (result, w')) : Quiet w w' := by
  unfold TcpSocket.connect at hconnect
  split at hconnect
  · cases hconnect
    exact .refl
  · obtain ⟨⟨w₁, s₁⟩, hloop, hconnect⟩ := Option.bind_eq_some_iff.mp hconnect
    have hquiet := quiet_connect_loop hloop
    dsimp only at hconnect
    split at hconnect
    · cases hconnect
      exact hquiet.trans (quiet_set_socket _)
    · obtain ⟨w₂, hactive, hconnect⟩ := Option.bind_eq_some_iff.mp hconnect
      cases hconnect
      exact hquiet.trans (quiet_tcp_on_active (IoBuffer.toOption_eq_some_iff.mp hactive))

theorem quiet_opened (fd : Int) : Quiet w (UdpSocket.opened w i s fd) := by
  unfold UdpSocket.opened
  dsimp only
  split <;> exact ⟨rfl, rfl, rfl⟩

theorem quiet_activate {fd : Int} {bind result : Bool}
    (hactivate : UdpSocket.activate p w i s fd bind sqe = .ok (result, w')) : Quiet w w' := by
  unfold UdpSocket.activate at hactivate
  dsimp only at hactivate
  split at hactivate
  · cases hactivate
    exact quiet_opened fd
  · split at hactivate
    · cases hactivate
      exact quiet_opened fd
    · obtain ⟨w₁, hactive, hactivate⟩ := IoBuffer.bind_eq_ok_iff.mp hactivate
      cases hactivate
      exact (quiet_opened fd).trans (quiet_udp_on_active hactive)

theorem quiet_run_udp {fd errno : Int} {bind result : Bool}
    (hrun : UdpSocket.run p w i s fd bind errno sqe = .ok (result, w')) : Quiet w w' := by
  unfold UdpSocket.run at hrun
  dsimp only at hrun
  split at hrun
  · cases hrun
    exact (quiet_opened fd).trans (quiet_io_error errno)
  · split at hrun
    · cases hrun
      exact (quiet_opened fd).trans (quiet_io_error errno)
    · obtain ⟨w₁, hactive, hrun⟩ := IoBuffer.bind_eq_ok_iff.mp hrun
      cases hrun
      exact (quiet_opened fd).trans (quiet_udp_on_active hactive)

theorem quiet_run {server : TcpServer} {fd errno : Int} {bind listen : Bool} :
    Quiet w (TcpServer.run w i server fd bind listen errno sqe).2 := by
  have hset : Quiet w (w.set_server i { server with server_socket := fd }) := ⟨rfl, rfl, rfl⟩
  have hopen : Quiet w ((w.set_server i { server with server_socket := fd }).open_descriptor fd i) :=
    ⟨rfl, rfl, rfl⟩
  unfold TcpServer.run
  dsimp only
  split
  · exact hset.trans (quiet_io_error errno)
  · split
    · exact hopen.trans (quiet_io_error errno)
    · split
      · exact hopen.trans (quiet_io_error errno)
      · have hsubmit : ∀ w₁ : World, Quiet w₁ (TcpServer.submit_accept w₁ i sqe) :=
          fun w₁ => .of_submitted (submit_context_submitted _ _ _)
        exact (hopen.trans (quiet_record _)).trans (hsubmit _)

theorem quiet_send_locked {bytes : Bytes} (hsend : TcpSocket.send_locked p w i s bytes sqe = .ok w') :
    Quiet w w' := by
  unfold TcpSocket.send_locked at hsend
  dsimp only at hsend
  split at hsend
  · obtain ⟨send_buffer, _, hsend⟩ := IoBuffer.bind_eq_ok_iff.mp hsend
    cases hsend
    exact ((quiet_record _).trans (quiet_set_socket _)).trans
      (.of_submitted (submit_context_submitted _ _ _))
  · obtain ⟨send_buffer, _, hsend⟩ := IoBuffer.bind_eq_ok_iff.mp hsend
    cases hsend
    exact (quiet_record _).trans (quiet_set_socket _)

theorem quiet_send_to {bytes : Bytes} {addr : SockAddr} {result : Bool}
    (hsend : UdpSocket.send_to p w i s bytes addr sqe = .ok (result, w')) : Quiet w w' := by
  unfold UdpSocket.send_to at hsend
  dsimp only at hsend
  split at hsend
  · obtain ⟨send_buffer, _, hsend⟩ := IoBuffer.bind_eq_ok_iff.mp hsend
    cases hsend
    exact ((quiet_record _).trans (quiet_set_socket _)).trans
      (.of_submitted (SocketObject.submit_sending_submitted _ _
        { s with socket_type := .udp, send_buffer } _ _))
  · obtain ⟨send_buffer, _, hsend⟩ := IoBuffer.bind_eq_ok_iff.mp hsend
    cases hsend
    exact (quiet_record _).trans (quiet_set_socket _)

theorem quiet_close (type : CloseType) : Quiet w (s.close w i type sqe) := by
  unfold SocketObject.close
  split
  · split
    · exact .of_submitted (SocketObject.submit_shutdown_submitted _ _ _)
    · exact quiet_set_socket _
  · exact .of_submitted (SocketObject.submit_shutdown_submitted _ _ _)

theorem quiet_io_received {count : Nat} {addr : SockAddr}
    (hio : s.io_received p w i count addr sqe = .ok w') : Quiet w w' := by
  unfold SocketObject.io_received at hio
  obtain ⟨recv_buffer, _, hio⟩ := IoBuffer.bind_eq_ok_iff.mp hio
  cases hio
  have hsubmit : Quiet w (({ s with recv_buffer } : SocketObject).submit_receiving p
      (w.set_socket i { s with recv_buffer }) i sqe) :=
    (quiet_set_socket _).trans (.of_submitted (SocketObject.submit_receiving_submitted _ _ _ _ _))
  dsimp only
  split
  · exact hsubmit.trans (quiet_record _)
  · exact hsubmit

theorem quiet_io_sent (count : Nat) (addr : SockAddr) : Quiet w (s.io_sent w i count addr sqe) := by
  unfold SocketObject.io_sent
  dsimp only
  split
  · exact (quiet_set_socket _).trans (.of_submitted (SocketObject.submit_sending_submitted _ _ _ _ _))
  · unfold SocketObject.on_send_complete
    split
    · refine Quiet.trans ?_ (.of_submitted (SocketObject.submit_shutdown_submitted _ _ _))
      split <;> exact ⟨rfl, rfl, rfl⟩
    · split <;> exact ⟨rfl, rfl, rfl⟩

theorem quiet_io_shutdown : Quiet w (s.io_shutdown w i) := by
  unfold SocketObject.io_shutdown
  dsimp only
  split <;> exact ⟨rfl, rfl, rfl⟩

theorem quiet_kernel (r : Request) (cqe : Cqe) : Quiet w (w.kernel r cqe) := by
  have hdeliver : ∀ w₁ : World, Quiet w₁ (w₁.deliver_bytes r cqe.data) := by
    intro w₁
    unfold deliver_bytes
    split
    · split <;> exact ⟨rfl, rfl, rfl⟩
    · exact .refl
  have htake : Quiet w (w.take_bytes r cqe) := by
    unfold take_bytes
    split <;> exact ⟨rfl, rfl, rfl⟩
  unfold kernel
  split
  · split
    · exact hdeliver w
    · exact .refl
  · dsimp only
    have hstored : ∀ ctx : IoContext,
        Quiet w (if 0 ≤ cqe.res then w.set_context r.user_data ctx else w) := by
      intro ctx
      split <;> exact ⟨rfl, rfl, rfl⟩
    split
    · exact (hstored _).trans (hdeliver _)
    · exact hstored _
  · exact htake
  · exact htake
  · split
    · split
      · exact ⟨rfl, rfl, rfl⟩
      · exact .refl
    · exact .refl
  · exact .refl
  · exact .refl

/-- The handler of a completion is quiet, unless it is that of an accept, which notes
    the new socket. -/
theorem quiet_io {c : ContextId} {res : Int} (hio : IoService.io p w c res sqe = .ok w') :
    Quiet w w' ∨ ∃ i, w'.handling = (w.handling.map fun h : Handling =>
      if h.context = c then { h with accepting := some (i, w.objects) } else h) ∧
        w'.sends = w.sends ∧ w'.objects = w.objects + 1 := by
  unfold IoService.io at hio
  split at hio
  · rename_i i _ _
    split at hio
    · split at hio
      · cases hio
        refine .inr ⟨i, ?_⟩
        unfold TcpServer.io_accepting
        dsimp only
        split <;> exact ⟨rfl, rfl, rfl⟩
      · cases hio
        exact .inl .refl
    · cases hio
      exact .inl .refl
  · split at hio
    · exact .inl (quiet_io_received hio)
    · cases hio
      exact .inl quiet_io_shutdown
  · split at hio
    · cases hio
      exact .inl (quiet_io_sent _ _)
    · cases hio
      exact .inl (quiet_io_error _)
  · cases hio
    left
    unfold SocketObject.shutdown_completed
    split <;> exact ⟨rfl, rfl, rfl⟩
  · split at hio
    · cases hio
      exact .inl ⟨rfl, rfl, rfl⟩
    · cases hio
      exact .inl .refl
  · cases hio
    exact .inl .refl
  · cases hio

/-- What a step does to the threads: to the completions being handled and to the
    `send` calls between guard and lock. -/
inductive Threads (w : World) : Event → World → Prop where
  | quiet {e : Event} {w' : World} (hresume : ∀ c accept_sqe read_sqe, e ≠ .resume c accept_sqe read_sqe)
      (hhandling : w'.handling = w.handling) (hsends : w'.sends = w.sends) : Threads w e w'
  | send {i : ObjectId} {bytes : Bytes} {s : SocketObject} {w' : World} (hs : w.sockets i = some s)
      (hconnected : s.connected_flag = true) (hopen : s.shutdown_gracefully = false)
      (hhandling : w'.handling = w.handling) (hsends : w'.sends = w.sends ++ [(i, bytes)]) :
      Threads w (.send i bytes) w'
  | send_locked {index : Nat} {sqe : Bool} {w' : World} (hhandling : w'.handling = w.handling)
      (hsends : w'.sends = w.sends.eraseIdx index) : Threads w (.send_locked index sqe) w'
  | complete {c : ContextId} {cqe : Cqe} {sqe : Bool} {w' : World}
      (accepting : Option (ObjectId × ObjectId))
      (hnew : ∀ i j, accepting = some (i, j) → j = w.objects ∧ w'.objects = w.objects + 1)
      (hhandling : w'.handling = w.handling ++ [{ context := c, accepting }])
      (hsends : w'.sends = w.sends) : Threads w (.complete c cqe sqe) w'
  | resume {c : ContextId} {accept_sqe read_sqe : Bool} {w' : World} (front back : List Handling)
      (i j : ObjectId) (hfind : w.handling.find? (·.context = c) =
        some { context := c, accepting := some (i, j) })
      (hbefore : w.handling = front ++ { context := c, accepting := some (i, j) } :: back)
      (hhandling : w'.handling = front ++ { context := c } :: back) (hsends : w'.sends = w.sends) :
      Threads w (.resume c accept_sqe read_sqe) w'
  | finish {c : ContextId} {w' : World}
      (hhandling : w'.handling = w.handling.erase { context := c }) (hsends : w'.sends = w.sends) :
      Threads w (.finish c) w'

theorem Quiet.threads (h : Quiet w w') {e : Event}
    (hresume : ∀ c accept_sqe read_sqe, e ≠ .resume c accept_sqe read_sqe) : Threads w e w' :=
  .quiet hresume h.handling h.sends

theorem Wf.complete_threads (hwf : w.Wf) {c : ContextId} {cqe : Cqe}
    (hcomplete : w.complete p c cqe sqe = some w') : Threads w (.complete c cqe sqe) w' := by
  obtain ⟨r, hfind, hcomplete⟩ := Option.bind_eq_some_iff.mp hcomplete
  obtain ⟨_, hr, rfl, _⟩ := hwf.completed hfind
  split at hcomplete
  · have hio := IoBuffer.toOption_eq_some_iff.mp hcomplete
    have hkernel := quiet_kernel (w := w.completed r.user_data) r cqe
    have hhandling : ((w.completed r.user_data).kernel r cqe).handling =
        w.handling ++ [{ context := r.user_data }] := hkernel.handling
    rcases quiet_io hio with hquiet | ⟨i, haccepting, hsends, hobjects⟩
    · exact .complete none (by simp) (hquiet.handling.trans hhandling)
        (hquiet.sends.trans hkernel.sends)
    · have hsame : ((w.completed r.user_data).kernel r cqe).objects = w.objects := hkernel.objects
      refine .complete (some (i, w.objects)) ?_ ?_ (hsends.trans hkernel.sends)
      · rintro i j heq
        cases heq
        exact ⟨rfl, by rw [hobjects, hsame]⟩
      · have hother : ∀ h ∈ w.handling, h.context ≠ r.user_data := hwf.not_handled hr
        rw [haccepting, hhandling, hsame, List.map_append, List.map_cons, if_pos rfl, List.map_nil,
          List.map_congr_left fun h hh => if_neg (hother h hh), List.map_id']
  · cases hcomplete

theorem Wf.resume_threads (hwf : w.Wf) {c : ContextId} {accept_sqe read_sqe : Bool}
    (hresume : w.resume p c accept_sqe read_sqe = some w') :
    Threads w (.resume c accept_sqe read_sqe) w' := by
  obtain ⟨h, hfind, hresume⟩ := Option.bind_eq_some_iff.mp hresume
  obtain ⟨⟨i, j⟩, haccepting, hresume⟩ := Option.bind_eq_some_iff.mp hresume
  obtain ⟨front, back, hhandling, hc, hother⟩ := hwf.handling_split hfind
  obtain rfl : h = { context := c, accepting := some (i, j) } := by
    obtain ⟨context, accepting⟩ := h
    cases hc
    cases haccepting
    rfl
  have hactive := IoBuffer.toOption_eq_some_iff.mp hresume
  rw [TcpServer.on_accepted] at hactive
  have hkept : ∀ l : List Handling, (∀ h' ∈ l, h'.context ≠ c) → (l.map fun h : Handling =>
      if h.context = c then { h with accepting := none } else h) = l := fun l hl =>
    (List.map_congr_left fun h' hh' => if_neg (hl h' hh')).trans (List.map_id _)
  have hnoted : (w.handling.map fun h : Handling =>
      if h.context = c then { h with accepting := none } else h) = front ++ { context := c } :: back := by
    rw [hhandling, List.map_append, List.map_cons, hkept front fun h' hh' => hother h' (by simp [hh']),
      hkept back fun h' hh' => hother h' (by simp [hh']), if_pos rfl]
  rw [hnoted] at hactive
  split at hactive
  · have hsubmit : Quiet { w with handling := front ++ { context := c } :: back } _ :=
      .of_submitted (submit_context_submitted _
        (fun ctx => { ctx with handler := some i, type := .accept }) accept_sqe)
    have hquiet := hsubmit.trans (quiet_tcp_on_active hactive)
    exact .resume front back i j hfind hhandling hquiet.handling hquiet.sends
  · cases hactive

theorem send_threads {bytes : Bytes} (hs : w.sockets i = some s) :
    Threads w (.send i bytes) (TcpSocket.send w i s bytes).2 := by
  unfold TcpSocket.send
  split
  · exact .quiet (by simp) rfl rfl
  · rename_i hopen
    split
    · exact .quiet (by simp) rfl rfl
    · rename_i hconnected
      exact .send hs (by simpa using hconnected) (by simpa using hopen) rfl rfl

theorem send_locked_threads {index : Nat} (hstep : w.step p (.send_locked index sqe) = some w') :
    w'.handling = w.handling ∧ w'.sends = w.sends.eraseIdx index := by
  obtain ⟨⟨j, bytes⟩, _, hstep⟩ := Option.bind_eq_some_iff.mp hstep
  obtain ⟨s, _, hstep⟩ := Option.bind_eq_some_iff.mp hstep
  have hquiet := quiet_send_locked (IoBuffer.toOption_eq_some_iff.mp hstep)
  exact ⟨hquiet.handling, hquiet.sends⟩

theorem Wf.step_threads (hwf : w.Wf) {e : Event} (hstep : (machine p).step w e = some w') :
    Threads w e w' := by
  change w.step p e = some w' at hstep
  cases e with
  | create_tcp | create_udp | create_server =>
    cases hstep
    exact .quiet (by simp) rfl rfl
  | set_event j slot registered =>
    rcases set_event_spec hstep with ⟨s, _, _, _, _, _, rfl⟩ | ⟨server, _, _, _, _, rfl⟩
    · exact .quiet (by simp) rfl rfl
    · exact .quiet (by simp) rfl rfl
  | connect j addresses sqe =>
    obtain ⟨s, _, hstep⟩ := Option.bind_eq_some_iff.mp hstep
    obtain ⟨⟨result, w₁⟩, hconnect, hstep⟩ := Option.bind_eq_some_iff.mp hstep
    cases hstep
    exact (quiet_connect hconnect).threads (by simp)
  | activate j fd bind sqe =>
    obtain ⟨s, _, hstep⟩ := Option.bind_eq_some_iff.mp hstep
    split at hstep
    · obtain ⟨⟨result, w₁⟩, hactivate, rfl⟩ :=
        IoBuffer.map_eq_ok_iff.mp (IoBuffer.toOption_eq_some_iff.mp hstep)
      exact (quiet_activate hactivate).threads (by simp)
    · cases hstep
  | run_udp j fd bind errno sqe =>
    obtain ⟨s, _, hstep⟩ := Option.bind_eq_some_iff.mp hstep
    split at hstep
    · obtain ⟨⟨result, w₁⟩, hrun, rfl⟩ :=
        IoBuffer.map_eq_ok_iff.mp (IoBuffer.toOption_eq_some_iff.mp hstep)
      exact (quiet_run_udp hrun).threads (by simp)
    · cases hstep
  | run j fd bind listen errno sqe =>
    obtain ⟨server, _, hstep⟩ := Option.bind_eq_some_iff.mp hstep
    split at hstep
    · cases hstep
      exact quiet_run.threads (by simp)
    · cases hstep
  | stop j sqe =>
    obtain ⟨server, _, hstep⟩ := Option.bind_eq_some_iff.mp hstep
    cases hstep
    exact (Quiet.of_submitted (submit_context_submitted _ _ _)).threads (by simp)
  | send j bytes =>
    obtain ⟨s, hs, hstep⟩ := Option.bind_eq_some_iff.mp hstep
    cases hstep
    exact send_threads (socket_of_eq_some hs).1
  | send_locked index sqe =>
    obtain ⟨hhandling, hsends⟩ := send_locked_threads hstep
    exact .send_locked hhandling hsends
  | send_to j bytes addr sqe =>
    obtain ⟨s, _, hstep⟩ := Option.bind_eq_some_iff.mp hstep
    obtain ⟨⟨result, w₁⟩, hsend, rfl⟩ :=
      IoBuffer.map_eq_ok_iff.mp (IoBuffer.toOption_eq_some_iff.mp hstep)
    exact (quiet_send_to hsend).threads (by simp)
  | close j type sqe =>
    obtain ⟨s, _, hstep⟩ := Option.bind_eq_some_iff.mp hstep
    cases hstep
    exact (quiet_close type).threads (by simp)
  | pop j size =>
    obtain ⟨s, _, hstep⟩ := Option.bind_eq_some_iff.mp hstep
    unfold World.pop at hstep
    split at hstep
    · cases hstep
      exact .quiet (by simp) rfl rfl
    · cases hstep
  | complete c cqe sqe => exact hwf.complete_threads hstep
  | resume c accept_sqe read_sqe => exact hwf.resume_threads hstep
  | finish c =>
    unfold World.step World.finish at hstep
    dsimp only at hstep
    split at hstep
    · cases hstep
      exact .finish rfl rfl
    · cases hstep

/-- Only `send` itself touches the calls of `send` that are between guard and lock. -/
theorem Threads.sends_kept (h : Threads w e w') (hsend : ∀ i bytes, e ≠ .send i bytes)
    (hlocked : ∀ index sqe, e ≠ .send_locked index sqe) : w'.sends = w.sends := by
  cases h with
  | quiet _ _ hsends => exact hsends
  | send => exact absurd rfl (hsend _ _)
  | send_locked => exact absurd rfl (hlocked _ _)
  | complete _ _ _ hsends => exact hsends
  | resume _ _ _ _ _ _ _ hsends => exact hsends
  | finish _ hsends => exact hsends

end World

end rioring
