import Rioring.Ownership.Submit

namespace rioring

open IoService

namespace World

variable {w w' : World} {i : ObjectId} {s : SocketObject}

/-- Activation of a socket, of either class. -/
theorem Wf.tcp_on_active (hwf : w.Wf) (hs : w.sockets i = some s) {p : Platform}
    {t : SocketObject} (htype : t.socket_type = s.socket_type) {sqe : Bool}
    (hactive : TcpSocket.on_active p w i t sqe = .ok w') : w'.Wf := by
  unfold TcpSocket.on_active at hactive
  rw [IoBuffer.bind_eq_ok_iff] at hactive
  obtain ⟨recv_buffer, _, hactive⟩ := hactive
  rw [IoBuffer.bind_eq_ok_iff] at hactive
  obtain ⟨send_buffer, _, hactive⟩ := hactive
  cases hactive
  have hset : (w.set_socket i { t with connected_flag := true, recv_buffer, send_buffer }).Wf :=
    hwf.set_socket hs htype
  have hrecord := hset.record (hwf.socket_lt hs) fun h => { h with activations := h.activations + 1 }
  exact hrecord.submit_receiving (w.set_socket_self i _) p { socket_type := .tcp } sqe

theorem Wf.udp_on_active (hwf : w.Wf) (hs : w.sockets i = some s) {p : Platform}
    {t : SocketObject} (htype : t.socket_type = s.socket_type) {sqe : Bool}
    (hactive : UdpSocket.on_active p w i t sqe = .ok w') : w'.Wf := by
  unfold UdpSocket.on_active at hactive
  rw [IoBuffer.bind_eq_ok_iff] at hactive
  obtain ⟨recv_buffer, _, hactive⟩ := hactive
  rw [IoBuffer.bind_eq_ok_iff] at hactive
  obtain ⟨send_buffer, _, hactive⟩ := hactive
  cases hactive
  have hset : (w.set_socket i { t with recv_buffer, send_buffer }).Wf := hwf.set_socket hs htype
  have hrecord := hset.record (hwf.socket_lt hs) fun h => { h with activations := h.activations + 1 }
  exact hrecord.submit_receiving (w.set_socket_self i _) p { socket_type := .udp } sqe

/-- The attempts of `connect` leave the process as it was, or with the
    descriptor of the first that connects. Those tried before it were free. -/
theorem connect_loop_first {addresses : List TcpSocket.Attempt} {s' : SocketObject}
    (hloop : TcpSocket.connect_loop w i s addresses = some (w', s')) :
    (∀ a ∈ addresses.takeWhile (fun a => !a.connects), 0 ≤ a.socket →
        w.descriptors a.socket = none) ∧
      match TcpSocket.first_connected addresses with
      | some fd => 0 ≤ fd ∧ w.descriptors fd = none ∧ w' = w.open_descriptor fd i ∧
          s' = { s with socket_handler := fd }
      | none => w' = w ∧ s' = s := by
  induction addresses with
  | nil =>
    cases hloop
    refine ⟨by simp, ?_⟩
    exact ⟨rfl, rfl⟩
  | cons a rest ih =>
    rw [TcpSocket.connect_loop] at hloop
    split at hloop
    · rename_i hneg
      have hfails : a.connects = false := by simp [TcpSocket.Attempt.connects, hneg]
      obtain ⟨htried, hfirst⟩ := ih hloop
      refine ⟨?_, by simpa [TcpSocket.first_connected, hfails] using hfirst⟩
      intro a' ha' hpos
      rw [List.takeWhile_cons, hfails] at ha'
      rcases List.mem_cons.mp ha' with rfl | hrest
      · exact absurd hneg (not_lt.mpr hpos)
      · exact htried a' hrest hpos
    · rename_i hpos
      split at hloop
      · cases hloop
      · rename_i hused
        have hfree : w.descriptors a.socket = none := not_not.mp hused
        split at hloop
        · rename_i hrefused
          have hfails : a.connects = false := by
            simp only [Bool.not_eq_true'] at hrefused
            simp [TcpSocket.Attempt.connects, hrefused]
          rw [World.open_free_descriptor hfree] at hloop
          obtain ⟨htried, hfirst⟩ := ih hloop
          refine ⟨?_, by simpa [TcpSocket.first_connected, hfails] using hfirst⟩
          intro a' ha' hpos
          rw [List.takeWhile_cons, hfails] at ha'
          rcases List.mem_cons.mp ha' with rfl | hrest
          · exact hfree
          · exact htried a' hrest hpos
        · rename_i hconnected
          have hconnects : a.connects = true := by
            simp only [Bool.not_eq_true', Bool.not_eq_false] at hconnected
            simp [TcpSocket.Attempt.connects, hconnected, Int.not_lt.mp hpos]
          cases hloop
          have hfirst : TcpSocket.first_connected (a :: rest) = some a.socket := by
            simp [TcpSocket.first_connected, hconnects]
          refine ⟨by simp [hconnects], ?_⟩
          rw [hfirst]
          exact ⟨Int.not_lt.mp hpos, hfree, rfl, rfl⟩

theorem connect_loop_spec {addresses : List TcpSocket.Attempt} {s' : SocketObject}
    (hloop : TcpSocket.connect_loop w i s addresses = some (w', s')) :
    (w' = w ∧ s' = s) ∨ ∃ fd, 0 ≤ fd ∧ w.descriptors fd = none ∧ w' = w.open_descriptor fd i ∧
      s' = { s with socket_handler := fd } := by
  obtain ⟨_, hfirst⟩ := connect_loop_first hloop
  cases hconnected : TcpSocket.first_connected addresses with
  | none =>
    rw [hconnected] at hfirst
    exact .inl hfirst
  | some fd =>
    rw [hconnected] at hfirst
    exact .inr ⟨fd, hfirst⟩

theorem Wf.connect (hwf : w.Wf) (hs : w.sockets i = some s) {p : Platform}
    {addresses : List TcpSocket.Attempt} {sqe result : Bool}
    (hconnect : TcpSocket.connect p w i s addresses sqe = some (result, w')) : w'.Wf := by
  unfold TcpSocket.connect at hconnect
  split at hconnect
  · cases hconnect
    exact hwf
  · obtain ⟨⟨w₁, s₁⟩, hloop, hconnect⟩ := Option.bind_eq_some_iff.mp hconnect
    have hreached : w₁.Wf ∧ w₁.sockets i = some s ∧ s₁.socket_type = s.socket_type := by
      rcases connect_loop_spec hloop with ⟨rfl, rfl⟩ | ⟨fd, _, _, rfl, rfl⟩
      · exact ⟨hwf, hs, rfl⟩
      · exact ⟨hwf.open_descriptor fd i, hs, rfl⟩
    obtain ⟨hwf₁, hs₁, htype⟩ := hreached
    dsimp only at hconnect
    split at hconnect
    · cases hconnect
      exact hwf₁.set_socket hs₁ htype
    · obtain ⟨w₂, hactive, hconnect⟩ := Option.bind_eq_some_iff.mp hconnect
      cases hconnect
      exact hwf₁.tcp_on_active hs₁ htype (IoBuffer.toOption_eq_some_iff.mp hactive)

/-- Registering one more object, of either class, under the next identity. -/
theorem Wf.create_socket (hwf : w.Wf) (t : SocketObject) :
    ({ w.set_socket w.objects t with objects := w.objects + 1 } : World).Wf := by
  obtain ⟨hnone, hserver, _⟩ := hwf.fresh w.objects le_rfl
  have hext : w.Extends { w.set_socket w.objects t with objects := w.objects + 1 } := by
    refine ⟨fun j u hu => ⟨u, ?_, rfl⟩, fun j hj => hj⟩
    have hne : j ≠ w.objects := (hwf.socket_lt hu).ne
    simpa [hne] using hu
  refine ⟨hwf.nodup, hwf.allocated, hwf.contexts, fun r hr => (hwf.typed r hr).mono hext, ?_, ?_, ?_⟩
  · intro j u hu
    by_cases hj : j = w.objects
    · subst j
      exact hserver
    · exact hwf.separate j u (by simpa [hj] using hu)
  · intro j hj
    have hlt : w.objects < j := hj
    obtain ⟨h1, h2, h3⟩ := hwf.fresh j hlt.le
    exact ⟨by simpa [hlt.ne'] using h1, h2, h3⟩
  · intro h hh a b hab
    obtain ⟨ha, u, hu, htcp⟩ := hwf.accepting h hh a b hab
    obtain ⟨u', hu', htype⟩ := hext.sockets b u hu
    exact ⟨ha, u', hu', htype.trans htcp⟩

theorem Wf.create_server (hwf : w.Wf) : w.create_server.Wf := by
  obtain ⟨hnone, hserver, _⟩ := hwf.fresh w.objects le_rfl
  have hext : w.Extends w.create_server := by
    refine ⟨fun j u hu => ⟨u, hu, rfl⟩, fun j hj => ?_⟩
    by_cases h : j = w.objects <;> simp [World.create_server, h, hj]
  refine ⟨hwf.nodup, hwf.allocated, hwf.contexts, fun r hr => (hwf.typed r hr).mono hext, ?_, ?_, ?_⟩
  · intro j u hu
    have hne : j ≠ w.objects := (hwf.socket_lt hu).ne
    simpa [World.create_server, hne] using hwf.separate j u hu
  · intro j hj
    have hlt : w.objects < j := hj
    obtain ⟨h1, h2, h3⟩ := hwf.fresh j hlt.le
    exact ⟨h1, by simpa [World.create_server, hlt.ne'] using h2, h3⟩
  · intro h hh a b hab
    obtain ⟨ha, hb⟩ := hwf.accepting h hh a b hab
    exact ⟨hext.servers a ha, hb⟩

/-- Changing what is noted about the completions being handled. -/
theorem Wf.set_handling (hwf : w.Wf) (handling : List Handling)
    (hcontexts : handling.map (·.context) = w.handling.map (·.context))
    (haccepting : ∀ h ∈ handling, ∀ a b, h.accepting = some (a, b) →
      (w.servers a).isSome ∧ ∃ t, w.sockets b = some t ∧ t.socket_type = .tcp) :
    ({ w with handling } : World).Wf := by
  have hheld : ({ w with handling } : World).held = w.held := by
    simp only [held, hcontexts]
  exact ⟨hheld ▸ hwf.nodup, fun c hc => hwf.allocated c (hheld ▸ hc), hwf.contexts, hwf.typed,
    hwf.separate, hwf.fresh, haccepting⟩

/-- A context that is not in flight may change. -/
theorem Wf.set_context (hwf : w.Wf) {c : ContextId} (hfree : ∀ r ∈ w.inflight, r.user_data ≠ c)
    (ctx : IoContext) : (w.set_context c ctx).Wf := by
  refine ⟨hwf.nodup, hwf.allocated, ?_, hwf.typed, hwf.separate, hwf.fresh, hwf.accepting⟩
  intro r hr
  simpa [hfree r hr] using hwf.contexts r hr

theorem find_eraseP {A : Type} {q : A → Bool} {l : List A} {a : A} (hfind : l.find? q = some a) :
    q a = true ∧ ∃ front back, l = front ++ a :: back ∧ l.eraseP q = front ++ back := by
  obtain ⟨ha, front, back, rfl, hfront⟩ := List.find?_eq_some_iff_append.mp hfind
  refine ⟨ha, front, back, rfl, ?_⟩
  rw [List.eraseP_append_right _ (by simpa using hfront), List.eraseP_cons_of_pos ha]

theorem completed_custody (w : World) (c : ContextId) :
    (w.completed c).custody = w.custody.come_back c id := by
  have hout : (w.inflight.eraseP (·.user_data = c)).map (·.user_data) =
      (w.inflight.map (·.user_data)).erase c := by
    rw [List.erase_eq_eraseP, List.eraseP_map]
    congr 2
    funext r
    simp only [Function.comp_apply, beq_eq_decide]
    exact decide_eq_decide.mpr eq_comm
  simp [custody, Custody.come_back, World.completed, hout]

/-- The context of a completion is out of flight and as it was submitted. -/
theorem Wf.completed (hwf : w.Wf) {c : ContextId} {r : Request}
    (hfind : w.inflight.find? (·.user_data = c) = some r) :
    (w.completed c).Wf ∧ r ∈ w.inflight ∧ r.user_data = c ∧ w.contexts c = r.context ∧
      ∀ r' ∈ (w.completed c).inflight, r'.user_data ≠ c := by
  have huser : r.user_data = c := by simpa using List.find?_some hfind
  have hr : r ∈ w.inflight := List.mem_of_find?_eq_some hfind
  have hout : c ∈ w.custody.out := huser ▸ List.mem_map_of_mem hr
  have hsub : ∀ r' ∈ (w.completed c).inflight, r' ∈ w.inflight := fun _ => List.mem_of_mem_eraseP
  have hsound : (w.completed c).custody.Sound := by
    rw [completed_custody]
    exact hwf.sound.of_perm (Custody.held_come_back hout id) rfl
  refine ⟨⟨hsound.nodup, hsound.made, fun r' hr' => hwf.contexts r' (hsub r' hr'),
    fun r' hr' => hwf.typed r' (hsub r' hr'), hwf.separate, hwf.fresh, ?_⟩, hr, huser, ?_, ?_⟩
  · intro h hh a b hab
    rcases List.mem_append.mp hh with hh | hh
    · exact hwf.accepting h hh a b hab
    · rw [List.mem_singleton.mp hh] at hab
      cases hab
  · rw [← huser]
    exact hwf.contexts r hr
  · intro r' hr' heq
    have hused : c ∈ (w.completed c).custody.used := by simp [custody, World.completed]
    have hout' : r'.user_data ∈ (w.completed c).custody.out := List.mem_map_of_mem hr'
    rw [heq] at hout'
    exact (hsound.disjoint hused).2 hout'

theorem Wf.deliver_bytes (hwf : w.Wf) (r : Request) (data : List UInt8) :
    (w.deliver_bytes r data).Wf := by
  unfold World.deliver_bytes
  split
  · rename_i j hbase
    cases hs : w.sockets j with
    | none => exact hwf
    | some t =>
      have hset : (w.set_socket j { t with recv_bind_buffer := data }).Wf := hwf.set_socket hs rfl
      exact hset.record (hwf.socket_lt hs) _
  · exact hwf

theorem Filled.lt (hwf : w.Wf) {ctx : IoContext} (hfilled : w.Filled i ctx) : i < w.objects := by
  have hobject : (w.sockets i).isSome ∨ (w.servers i).isSome := by
    unfold Filled at hfilled
    split at hfilled
    · exact .inl hfilled.1
    · exact .inl hfilled.1
    · exact .inr hfilled
    · exact hfilled
    · cases hfilled
  rcases hobject with hi | hi
  · obtain ⟨t, ht⟩ := Option.isSome_iff_exists.mp hi
    exact hwf.socket_lt ht
  · obtain ⟨t, ht⟩ := Option.isSome_iff_exists.mp hi
    exact hwf.server_lt ht

/-- What the kernel does for a request whose context is out of flight. -/
theorem Wf.kernel (hwf : w.Wf) {r : Request} (htyped : w.Typed r)
    (hfree : ∀ r' ∈ w.inflight, r'.user_data ≠ r.user_data) (cqe : Cqe) : (w.kernel r cqe).Wf := by
  obtain ⟨i, hi, hfilled, _⟩ := htyped
  unfold World.kernel
  split
  · split
    · exact hwf.deliver_bytes r cqe.data
    · exact hwf
  · have hset : ∀ ctx, (if 0 ≤ cqe.res then w.set_context r.user_data ctx else w).Wf := by
      intro ctx
      split
      · exact hwf.set_context hfree ctx
      · exact hwf
    dsimp only
    split
    · exact (hset _).deliver_bytes r cqe.data
    · exact hset _
  · unfold World.take_bytes
    simp only [hi]
    exact hwf.record (hfilled.lt hwf) _
  · unfold World.take_bytes
    simp only [hi]
    exact hwf.record (hfilled.lt hwf) _
  · split
    · rename_i j server hj hserver
      split
      · simp only [to_tcp_server_ptr, hj, Option.bind_some] at hserver
        exact (hwf.set_server _ hserver).open_descriptor _ _
      · exact hwf
    · exact hwf
  · exact hwf
  · exact hwf

theorem Wf.io_accepting (hwf : w.Wf) {server : TcpServer} (hserver : w.servers i = some server)
    (c : ContextId) (new_socket : Int) : (TcpServer.io_accepting w i server c new_socket).Wf := by
  have htype : ∀ t : SocketObject, (TcpSocket.set_remote_info t server.addr6).socket_type = t.socket_type :=
    fun t => rfl
  unfold TcpServer.io_accepting
  generalize hsocket : TcpSocket.set_remote_info
    { socket_type := .tcp, socket_handler := new_socket } server.addr6 = socket
  have hnew : ({ w.set_socket w.objects socket with objects := w.objects + 1 } : World).Wf :=
    hwf.create_socket socket
  have hhandling := hnew.set_handling (w.handling.map fun h : Handling =>
      if h.context = c then { h with accepting := some (i, w.objects) } else h) ?_ ?_
  · dsimp only
    split
    · exact (hhandling.open_descriptor new_socket w.objects).call
        (Nat.lt_succ_of_lt (hwf.server_lt hserver)) _
    · exact hhandling.open_descriptor new_socket w.objects
  · rw [List.map_map]
    apply List.map_congr_left
    intro h _
    by_cases hc : h.context = c <;> simp [hc]
  · intro h hh a b hab
    obtain ⟨h', hh', rfl⟩ := List.mem_map.mp hh
    split at hab
    · cases hab
      refine ⟨by simp [hserver], socket, by simp, ?_⟩
      rw [← hsocket]
      exact htype _
    · exact hnew.accepting h' hh' a b hab

theorem Wf.io_received (hwf : w.Wf) (hs : w.sockets i = some s) {p : Platform} {count : Nat}
    {addr : SockAddr} {sqe : Bool} (hio : s.io_received p w i count addr sqe = .ok w') : w'.Wf := by
  unfold SocketObject.io_received at hio
  rw [IoBuffer.bind_eq_ok_iff] at hio
  obtain ⟨recv_buffer, _, hio⟩ := hio
  cases hio
  have hset : (w.set_socket i { s with recv_buffer }).Wf := hwf.set_socket hs rfl
  have hreceive := hset.submit_receiving (w.set_socket_self i _) p { s with recv_buffer } sqe
  split
  · refine hreceive.call ?_ _
    rw [(SocketObject.submit_receiving_submitted p _ i _ sqe).objects]
    exact hwf.socket_lt hs
  · exact hreceive

theorem Wf.io_sent (hwf : w.Wf) (hs : w.sockets i = some s) (count : Nat) (addr : SockAddr)
    (sqe : Bool) : (s.io_sent w i count addr sqe).Wf := by
  unfold SocketObject.io_sent
  generalize hpopped : { s with send_buffer := (s.send_buffer.pop count).elevate : SocketObject } = t
  have htype : t.socket_type = s.socket_type := by rw [← hpopped]
  have hset : (w.set_socket i t).Wf := hwf.set_socket hs htype
  have ht : (w.set_socket i t).sockets i = some t := w.set_socket_self i t
  dsimp only
  split
  · exact hset.submit_sending ht t addr sqe
  · unfold SocketObject.on_send_complete
    have hcalled : (if t.send_complete_event then (w.set_socket i t).call i .send_complete
        else w.set_socket i t).Wf := by
      split
      · exact hset.call (hset.socket_lt ht) _
      · exact hset
    split
    · refine hcalled.submit_shutdown (s := t) ?_ sqe
      split <;> simp [World.call]
    · exact hcalled

theorem Wf.io_shutdown (hwf : w.Wf) (hs : w.sockets i = some s) : (s.io_shutdown w i).Wf := by
  have htype : s.on_shutdown.socket_type = s.socket_type := by
    unfold SocketObject.on_shutdown TcpSocket.on_shutdown UdpSocket.on_shutdown
    split <;> rfl
  have hset : (w.set_socket i s.on_shutdown).Wf := hwf.set_socket hs htype
  unfold SocketObject.io_shutdown
  dsimp only
  split
  · exact hset.call (hwf.socket_lt hs) _
  · exact hset

theorem Wf.shutdown_completed (hwf : w.Wf) (hs : w.sockets i = some s) :
    (s.shutdown_completed w i).Wf := by
  unfold SocketObject.shutdown_completed
  split
  · have hset : (w.set_socket i { s with socket_handler := 0 }).Wf := hwf.set_socket hs rfl
    exact hset.close_descriptor (hwf.socket_lt hs) _
  · exact hwf

/-- The dispatch of a completion. -/
theorem Wf.io (hwf : w.Wf) {p : Platform} {c : ContextId} {res : Int} {sqe : Bool}
    (hio : IoService.io p w c res sqe = .ok w') : w'.Wf := by
  unfold IoService.io at hio
  split at hio
  · rename_i i htype hhandler hsocket
    split at hio
    · split at hio
      · rename_i server hserver
        cases hio
        exact hwf.io_accepting hserver c res
      · cases hio
        exact hwf
    · cases hio
      exact hwf
  · rename_i i t htype hhandler hsocket
    rw [hhandler] at hsocket
    split at hio
    · exact hwf.io_received hsocket hio
    · cases hio
      exact hwf.io_shutdown hsocket
  · rename_i i t htype hhandler hsocket
    rw [hhandler] at hsocket
    split at hio
    · cases hio
      exact hwf.io_sent hsocket _ _ sqe
    · cases hio
      exact hwf.io_error (hwf.socket_lt hsocket) _
  · rename_i i t htype hhandler hsocket
    rw [hhandler] at hsocket
    cases hio
    exact hwf.shutdown_completed hsocket
  · rename_i i htype hhandler hsocket
    split at hio
    · rename_i server hserver
      cases hio
      exact (hwf.set_server _ hserver).close_descriptor (hwf.server_lt hserver) _
    · cases hio
      exact hwf
  · cases hio
    exact hwf
  · cases hio

theorem Wf.complete (hwf : w.Wf) {p : Platform} {c : ContextId} {cqe : Cqe} {sqe : Bool}
    (hcomplete : w.complete p c cqe sqe = some w') : w'.Wf := by
  obtain ⟨r, hfind, hcomplete⟩ := Option.bind_eq_some_iff.mp hcomplete
  obtain ⟨hcompleted, hr, huser, _, hfree⟩ := hwf.completed hfind
  split at hcomplete
  · have hio := IoBuffer.toOption_eq_some_iff.mp hcomplete
    rw [← huser] at hfree
    exact (hcompleted.kernel (hwf.typed r hr) (huser ▸ hfree) cqe).io hio
  · cases hcomplete

theorem Wf.on_accepted (hwf : w.Wf) {p : Platform} {j : ObjectId} {accept_sqe read_sqe : Bool}
    (hserver : (w.servers i).isSome)
    (hio : TcpServer.on_accepted p w i j accept_sqe read_sqe = .ok w') : w'.Wf := by
  unfold TcpServer.on_accepted at hio
  dsimp only at hio
  have haccept := hwf.submit_accept hserver accept_sqe
  split at hio
  · rename_i t ht
    exact haccept.tcp_on_active ht rfl hio
  · cases hio

theorem Wf.resume (hwf : w.Wf) {p : Platform} {c : ContextId} {accept_sqe read_sqe : Bool}
    (hresume : w.resume p c accept_sqe read_sqe = some w') : w'.Wf := by
  obtain ⟨h, hfind, hresume⟩ := Option.bind_eq_some_iff.mp hresume
  obtain ⟨⟨i, j⟩, haccepting, hresume⟩ := Option.bind_eq_some_iff.mp hresume
  have hserver := (hwf.accepting h (List.mem_of_find?_eq_some hfind) i j haccepting).1
  have hhandling := hwf.set_handling (w.handling.map fun h : Handling =>
      if h.context = c then { h with accepting := none } else h) ?_ ?_
  · exact hhandling.on_accepted hserver (IoBuffer.toOption_eq_some_iff.mp hresume)
  · rw [List.map_map]
    apply List.map_congr_left
    intro h _
    by_cases hc : h.context = c <;> simp [hc]
  · intro h hh a b hab
    obtain ⟨h', hh', rfl⟩ := List.mem_map.mp hh
    split at hab
    · cases hab
    · exact hwf.accepting h' hh' a b hab

theorem Wf.finish_custody (hwf : w.Wf) {c : ContextId} (hfinish : w.finish c = some w') :
    c ∈ w.custody.used ∧
      w'.custody = w.custody.give_back cleared c := by
  unfold World.finish at hfinish
  dsimp only at hfinish
  split at hfinish
  · rename_i hmem
    cases hfinish
    have hused : (w.handling.erase { context := c }).map (·.context) =
        w.custody.used.erase c := by
      change _ = (w.handling.map (·.context)).erase c
      have hnodup : (w.handling.map (·.context)).Nodup :=
        List.Nodup.sublist (.trans (List.sublist_append_right _ _) (List.sublist_append_right _ _))
          hwf.nodup
      obtain ⟨front, back, _, hhandling, herase⟩ := List.exists_erase_eq hmem
      rw [herase, hhandling]
      rw [hhandling, List.map_append, List.map_cons, List.nodup_middle] at hnodup
      have hfront : c ∉ front.map (·.context) := by
        intro hc
        exact (List.nodup_cons.mp hnodup).1 (List.mem_append_left _ hc)
      rw [List.map_append, List.map_append, List.map_cons, List.erase_append_right _ hfront,
        List.erase_cons_head]
    refine ⟨List.mem_map_of_mem (f := Handling.context) hmem, ?_⟩
    rw [Custody.give_back, ← hused]
    rfl
  · cases hfinish

/-- A handled context goes from the completions being handled to the pool. -/
theorem Wf.finish (hwf : w.Wf) {c : ContextId} (hfinish : w.finish c = some w') : w'.Wf := by
  obtain ⟨hused, hcustody⟩ := hwf.finish_custody hfinish
  have hsound := hwf.sound.of_perm (Custody.held_give_back cleared hused) rfl
  rw [← hcustody] at hsound
  unfold World.finish at hfinish
  dsimp only at hfinish
  split at hfinish
  · cases hfinish
    refine ⟨hsound.nodup, hsound.made, ?_, hwf.typed, hwf.separate, hwf.fresh, ?_⟩
    · intro r hr
      have hne : r.user_data ≠ c := by
        intro heq
        exact (hwf.sound.disjoint hused).2 (heq ▸ List.mem_map_of_mem hr)
      simpa [IoService.deallocate_context, hne] using hwf.contexts r hr
    · intro h hh a b hab
      exact hwf.accepting h (List.mem_of_mem_erase hh) a b hab
  · cases hfinish

theorem Wf.send_locked (hwf : w.Wf) (hs : w.sockets i = some s) {p : Platform} {bytes : Bytes}
    {sqe : Bool} (hsend : TcpSocket.send_locked p w i s bytes sqe = .ok w') : w'.Wf := by
  have hrecord : (w.record i fun h => { h with accepted := h.accepted ++ bytes }).Wf :=
    hwf.record (hwf.socket_lt hs) _
  unfold TcpSocket.send_locked at hsend
  dsimp only at hsend
  split at hsend
  · rw [IoBuffer.bind_eq_ok_iff] at hsend
    obtain ⟨send_buffer, _, hsend⟩ := hsend
    cases hsend
    have hset : (World.set_socket _ i { s with send_buffer }).Wf := hrecord.set_socket hs rfl
    exact hset.submit_sending (set_socket_self _ i _) { socket_type := .tcp, send_buffer } {} sqe
  · rw [IoBuffer.bind_eq_ok_iff] at hsend
    obtain ⟨send_buffer, _, hsend⟩ := hsend
    cases hsend
    exact hrecord.set_socket hs rfl

theorem Wf.send_to (hwf : w.Wf) (hs : w.sockets i = some s) {p : Platform} {bytes : Bytes}
    {addr : SockAddr} {sqe result : Bool}
    (hsend : UdpSocket.send_to p w i s bytes addr sqe = .ok (result, w')) : w'.Wf := by
  have hrecord : (w.record i fun h => { h with requested := h.requested ++ [(bytes.val, addr)] }).Wf :=
    hwf.record (hwf.socket_lt hs) _
  unfold UdpSocket.send_to at hsend
  dsimp only at hsend
  split at hsend
  · rw [IoBuffer.bind_eq_ok_iff] at hsend
    obtain ⟨send_buffer, _, hsend⟩ := hsend
    cases hsend
    have hset : (World.set_socket _ i { s with send_buffer }).Wf := hrecord.set_socket hs rfl
    exact hset.submit_sending (set_socket_self _ i _) { socket_type := .udp, send_buffer } addr sqe
  · rw [IoBuffer.bind_eq_ok_iff] at hsend
    obtain ⟨send_buffer, _, hsend⟩ := hsend
    cases hsend
    exact hrecord.set_socket hs rfl

theorem Wf.close (hwf : w.Wf) (hs : w.sockets i = some s) (type : CloseType) (sqe : Bool) :
    (s.close w i type sqe).Wf := by
  unfold SocketObject.close
  split
  · split
    · exact hwf.submit_shutdown hs sqe
    · exact hwf.set_socket hs rfl
  · exact hwf.submit_shutdown hs sqe

theorem Wf.pop (hwf : w.Wf) (hs : w.sockets i = some s) {size : Nat}
    (hpop : w.pop i s size = some w') : w'.Wf := by
  unfold World.pop at hpop
  split at hpop
  · cases hpop
    have hset : (w.set_socket i { s with recv_buffer := s.recv_buffer.pop size }).Wf :=
      hwf.set_socket hs rfl
    exact hset.record (hwf.socket_lt hs) _
  · cases hpop

theorem Wf.opened (hwf : w.Wf) (hs : w.sockets i = some s) (fd : Int) :
    (UdpSocket.opened w i s fd).Wf ∧
      (UdpSocket.opened w i s fd).sockets i = some { s with socket_handler := fd } := by
  have hset : (w.set_socket i { s with socket_handler := fd }).Wf := hwf.set_socket hs rfl
  unfold UdpSocket.opened
  dsimp only
  split
  · exact ⟨hset.open_descriptor fd i, set_socket_self w i _⟩
  · exact ⟨hset, set_socket_self w i _⟩

theorem Wf.activate (hwf : w.Wf) (hs : w.sockets i = some s) {p : Platform} {fd : Int}
    {bind sqe result : Bool} (hactivate : UdpSocket.activate p w i s fd bind sqe = .ok (result, w')) :
    w'.Wf := by
  obtain ⟨hopened, hself⟩ := hwf.opened hs fd
  unfold UdpSocket.activate at hactivate
  dsimp only at hactivate
  split at hactivate
  · cases hactivate
    exact hopened
  · split at hactivate
    · cases hactivate
      exact hopened
    · rw [IoBuffer.bind_eq_ok_iff] at hactivate
      obtain ⟨w₂, hactive, hactivate⟩ := hactivate
      cases hactivate
      exact hopened.udp_on_active hself rfl hactive

theorem Wf.run_udp (hwf : w.Wf) (hs : w.sockets i = some s) {p : Platform} {fd errno : Int}
    {bind sqe result : Bool} (hrun : UdpSocket.run p w i s fd bind errno sqe = .ok (result, w')) :
    w'.Wf := by
  obtain ⟨hopened, hself⟩ := hwf.opened hs fd
  unfold UdpSocket.run at hrun
  dsimp only at hrun
  split at hrun
  · cases hrun
    exact hopened.io_error (hopened.socket_lt hself) _
  · split at hrun
    · cases hrun
      exact hopened.io_error (hopened.socket_lt hself) _
    · rw [IoBuffer.bind_eq_ok_iff] at hrun
      obtain ⟨w₂, hactive, hrun⟩ := hrun
      cases hrun
      exact hopened.udp_on_active hself rfl hactive

theorem Wf.run (hwf : w.Wf) {server : TcpServer} (hserver : w.servers i = some server) (fd : Int)
    (bind listen : Bool) (errno : Int) (sqe : Bool) :
    (TcpServer.run w i server fd bind listen errno sqe).2.Wf := by
  have hset : (w.set_server i { server with server_socket := fd }).Wf := hwf.set_server _ hserver
  have hi := hwf.server_lt hserver
  have hopen := hset.open_descriptor fd i
  unfold TcpServer.run
  dsimp only
  split
  · exact hset.io_error hi _
  · split
    · exact hopen.io_error hi _
    · split
      · exact hopen.io_error hi _
      · exact (hopen.record hi _).submit_accept (by simp) sqe

/-- Registering a callback changes nothing else of the object. -/
theorem set_event_spec {slot : Slot} {registered : Bool}
    (hset : w.set_event i slot registered = some w') :
    (∃ s recv_event send_complete_event socket_close_event error_event, w.sockets i = some s ∧
      w' = w.set_socket i { s with
        recv_event, send_complete_event, socket_close_event, error_event }) ∨
    ∃ server new_connect_event error_event, w.sockets i = none ∧ w.servers i = some server ∧
      w' = w.set_server i { server with new_connect_event, error_event } := by
  unfold World.set_event at hset
  cases hs : w.sockets i with
  | some s =>
    left
    refine ⟨s, ?_⟩
    rw [hs] at hset
    cases slot with
    | receive =>
      cases hset
      exact ⟨registered, _, _, _, rfl, rfl⟩
    | send_complete =>
      cases hset
      exact ⟨_, registered, _, _, rfl, rfl⟩
    | close =>
      cases hset
      exact ⟨_, _, registered, _, rfl, rfl⟩
    | error =>
      cases hset
      exact ⟨_, _, _, registered, rfl, rfl⟩
    | accept => cases hset
  | none =>
    right
    rw [hs] at hset
    cases hserver : w.servers i with
    | none =>
      rw [hserver] at hset
      cases slot <;> cases hset
    | some server =>
      rw [hserver] at hset
      refine ⟨server, ?_⟩
      cases slot with
      | error =>
        cases hset
        exact ⟨_, registered, rfl, rfl, rfl⟩
      | accept =>
        cases hset
        exact ⟨registered, _, rfl, rfl, rfl⟩
      | receive => cases hset
      | send_complete => cases hset
      | close => cases hset

theorem Wf.set_event (hwf : w.Wf) {slot : Slot} {registered : Bool}
    (hset : w.set_event i slot registered = some w') : w'.Wf := by
  rcases set_event_spec hset with ⟨s, _, _, _, _, hs, rfl⟩ | ⟨server, _, _, _, hserver, rfl⟩
  · exact hwf.set_socket hs rfl
  · exact hwf.set_server _ hserver

theorem socket_of_eq_some {type : SocketType} (hs : w.socket_of i type = some s) :
    w.sockets i = some s ∧ s.socket_type = type := by
  obtain ⟨hsocket, htype⟩ := Option.filter_eq_some_iff.mp hs
  exact ⟨hsocket, of_decide_eq_true htype⟩

/-- Every step of the process keeps its contexts where they belong. -/
theorem Wf.step (hwf : w.Wf) {p : Platform} {e : Event} (hstep : w.step p e = some w') : w'.Wf := by
  cases e with
  | create_tcp =>
    cases hstep
    exact hwf.create_socket _
  | create_udp =>
    cases hstep
    exact hwf.create_socket _
  | create_server =>
    cases hstep
    exact hwf.create_server
  | set_event i slot registered => exact hwf.set_event hstep
  | connect i addresses sqe =>
    obtain ⟨s, hs, hstep⟩ := Option.bind_eq_some_iff.mp hstep
    obtain ⟨⟨result, w₁⟩, hconnect, hstep⟩ := Option.bind_eq_some_iff.mp hstep
    cases hstep
    exact hwf.connect (socket_of_eq_some hs).1 hconnect
  | activate i fd bind sqe =>
    obtain ⟨s, hs, hstep⟩ := Option.bind_eq_some_iff.mp hstep
    split at hstep
    · obtain ⟨⟨result, w₁⟩, hactivate, rfl⟩ :=
        IoBuffer.map_eq_ok_iff.mp (IoBuffer.toOption_eq_some_iff.mp hstep)
      exact hwf.activate (socket_of_eq_some hs).1 hactivate
    · cases hstep
  | run_udp i fd bind errno sqe =>
    obtain ⟨s, hs, hstep⟩ := Option.bind_eq_some_iff.mp hstep
    split at hstep
    · obtain ⟨⟨result, w₁⟩, hrun, rfl⟩ :=
        IoBuffer.map_eq_ok_iff.mp (IoBuffer.toOption_eq_some_iff.mp hstep)
      exact hwf.run_udp (socket_of_eq_some hs).1 hrun
    · cases hstep
  | run i fd bind listen errno sqe =>
    obtain ⟨server, hserver, hstep⟩ := Option.bind_eq_some_iff.mp hstep
    split at hstep
    · cases hstep
      exact hwf.run hserver fd bind listen errno sqe
    · cases hstep
  | stop i sqe =>
    obtain ⟨server, hserver, hstep⟩ := Option.bind_eq_some_iff.mp hstep
    cases hstep
    exact hwf.stop (by simp [hserver]) sqe
  | send i bytes =>
    obtain ⟨s, hs, hstep⟩ := Option.bind_eq_some_iff.mp hstep
    cases hstep
    unfold TcpSocket.send
    split
    · exact hwf
    · split
      · exact hwf
      · exact hwf.set_sends _
  | send_locked index sqe =>
    obtain ⟨⟨i, bytes⟩, _, hstep⟩ := Option.bind_eq_some_iff.mp hstep
    obtain ⟨s, hs, hstep⟩ := Option.bind_eq_some_iff.mp hstep
    exact (hwf.set_sends (w.sends.eraseIdx index)).send_locked (socket_of_eq_some hs).1
      (IoBuffer.toOption_eq_some_iff.mp hstep)
  | send_to i bytes addr sqe =>
    obtain ⟨s, hs, hstep⟩ := Option.bind_eq_some_iff.mp hstep
    obtain ⟨⟨result, w₁⟩, hsend, rfl⟩ :=
      IoBuffer.map_eq_ok_iff.mp (IoBuffer.toOption_eq_some_iff.mp hstep)
    exact hwf.send_to (socket_of_eq_some hs).1 hsend
  | close i type sqe =>
    obtain ⟨s, hs, hstep⟩ := Option.bind_eq_some_iff.mp hstep
    cases hstep
    exact hwf.close hs type sqe
  | pop i size =>
    obtain ⟨s, hs, hstep⟩ := Option.bind_eq_some_iff.mp hstep
    exact hwf.pop hs hstep
  | complete c cqe sqe => exact hwf.complete hstep
  | resume c accept_sqe read_sqe => exact hwf.resume hstep
  | finish c => exact hwf.finish hstep

/-- A process keeps its contexts where they belong over a whole run. -/
theorem Wf.along (hwf : w.Wf) {p : Platform} {allowed : World → Event → Prop}
    (hrun : (machine p).Run allowed w w') : w'.Wf :=
  Machine.Run.invariant hrun hwf fun _ _ _ _ hwf _ hstep => hwf.step hstep

theorem Wf.reachable {p : Platform} {allowed : World → Event → Prop}
    (hreach : (machine p).Reachable allowed w) : w.Wf :=
  (Wf.start p).along hreach

end World

end rioring
