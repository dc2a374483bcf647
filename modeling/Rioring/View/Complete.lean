import Rioring.View.Objects

namespace rioring

open IoService

namespace World

variable {w w' : World} {i j : ObjectId} {s : SocketObject} {p : Platform}

/-- A completion takes one request out of the view of its object. -/
theorem completed_view {c : ContextId} {r : Request}
    (hfind : w.inflight.find? (·.user_data = c) = some r) (hi : r.context.handler = some i) :
    Local i w (w.completed c) ∧
      (∀ t, (w.view_with i t).Completes r ((w.completed c).view_with i t)) ∧
      ∀ server, (w.server_view_with i server).Completes r ((w.completed c).server_view_with i server) := by
  obtain ⟨_, front, back, hinflight, herase⟩ := find_eraseP hfind
  have haccepting : ∀ j, (w.completed c).accepting j = w.accepting j := by
    intro j
    simp [World.accepting, completed]
  refine ⟨⟨fun _ _ => rfl, fun _ _ => rfl, ?_, fun j _ => haccepting j⟩, ?_, ?_⟩
  · intro j t hj
    have hne : some i ≠ some j := fun heq => hj (Option.some.inj heq).symm
    simp only [view_with, completed, herase]
    rw [hinflight]
    simp [hi, hne]
  · intro t
    refine ⟨front.filter (·.context.handler = some i), back.filter (·.context.handler = some i), ?_, ?_⟩
    · simp [view_with, hinflight, hi]
    · simp [view_with, completed, herase]
  · intro server
    refine ⟨front.filter (·.context.handler = some i), back.filter (·.context.handler = some i), ?_, ?_⟩
    · simp [server_view_with, hinflight, hi]
    · simp only [server_view_with, haccepting]
      simp [completed, herase]

/-- The bytes of a read reach the socket it was submitted by. -/
theorem deliver_bytes_view (hs : w.sockets i = some s) {r : Request}
    (hbase : r.context.iov.iov_base = .recv_bind_buffer i) (data : List UInt8) :
    Local i w (w.deliver_bytes r data) ∧
      (w.deliver_bytes r data).sockets i = some { s with recv_bind_buffer := data } ∧
      (w.deliver_bytes r data).contexts = w.contexts ∧
      ∀ t, (w.deliver_bytes r data).view_with i t = { w.view_with i t with
        history := { (w.view_with i t).history with
          received := (w.view_with i t).history.received ++ data } } := by
  rw [deliver_bytes]
  simp only [hbase, hs]
  refine ⟨local_set_socket.trans (local_record _), set_socket_self w i _, rfl, ?_⟩
  intro t
  rw [view_with_record]
  rfl

/-- What the kernel does for a read, as the socket sees it. -/
theorem kernel_read (hs : w.sockets i = some s) {r : Request} (cqe : Cqe)
    (htype : r.context.type = .read) (hbase : r.context.iov.iov_base = .recv_bind_buffer i)
    (hopcode : r.opcode = r.context.opcode) (hcontext : w.contexts r.user_data = r.context) :
    Local i w (w.kernel r cqe) ∧
      ((w.kernel r cqe).contexts r.user_data).type = r.context.type ∧
      ((w.kernel r cqe).contexts r.user_data).handler = r.context.handler ∧
      (if 0 < cqe.res then
        (w.kernel r cqe).sockets i = some { s with recv_bind_buffer := cqe.data } ∧
        ∀ t, (w.kernel r cqe).view_with i t = { w.view_with i t with
          history := { (w.view_with i t).history with
            received := (w.view_with i t).history.received ++ cqe.data } }
      else (w.kernel r cqe).sockets i = some s ∧
        ∀ t, (w.kernel r cqe).view_with i t = w.view_with i t) := by
  have hdeliver : ∀ w₁ : World, Local i w w₁ → w₁.sockets i = some s →
      (∀ t, w₁.view_with i t = w.view_with i t) →
      (w₁.contexts r.user_data).type = r.context.type →
      (w₁.contexts r.user_data).handler = r.context.handler →
      ∀ w₂, w₂ = (if 0 < cqe.res then w₁.deliver_bytes r cqe.data else w₁) →
      Local i w w₂ ∧ (w₂.contexts r.user_data).type = r.context.type ∧
        (w₂.contexts r.user_data).handler = r.context.handler ∧
        (if 0 < cqe.res then w₂.sockets i = some { s with recv_bind_buffer := cqe.data } ∧
          ∀ t, w₂.view_with i t = { w.view_with i t with
            history := { (w.view_with i t).history with
              received := (w.view_with i t).history.received ++ cqe.data } }
        else w₂.sockets i = some s ∧ ∀ t, w₂.view_with i t = w.view_with i t) := by
    intro w₁ hlocal hs₁ hview htype₁ hhandler₁ w₂ hw₂
    subst hw₂
    obtain ⟨hlocal', hs₂, hcontexts, hview'⟩ := deliver_bytes_view hs₁ hbase cqe.data
    by_cases hres : 0 < cqe.res
    · simp only [hres, ↓reduceIte]
      rw [hcontexts]
      refine ⟨hlocal.trans hlocal', htype₁, hhandler₁, hs₂, fun t => ?_⟩
      rw [hview', hview]
    · simp only [hres, ↓reduceIte]
      exact ⟨hlocal, htype₁, hhandler₁, hs₁, hview⟩
  have hop : r.opcode = .readv ∨ r.opcode = .recvmsg := by
    rw [hopcode, IoContext.opcode, htype]
    cases r.context.ctype with
    | tcp_context => exact .inl rfl
    | udp_context => exact .inr rfl
  rcases hop with hop | hop
  · apply hdeliver w .refl hs (fun _ => rfl) (by rw [hcontext]) (by rw [hcontext])
    rw [kernel, hop]
  · rw [kernel, hop]
    dsimp only
    refine hdeliver (if 0 ≤ cqe.res then w.set_context r.user_data _ else w) ?_ ?_ ?_ ?_ ?_ _ rfl
    · split
      · exact ⟨fun _ _ => rfl, fun _ _ => rfl, fun _ _ _ => rfl, fun _ _ => rfl⟩
      · exact .refl
    · split
      · exact hs
      · exact hs
    · intro t
      split <;> rfl
    · split
      · simp [hcontext]
      · rw [hcontext]
    · split
      · simp [hcontext]
      · rw [hcontext]

/-- Only an accept opens a descriptor. -/
theorem kernel_descriptors {r : Request} (cqe : Cqe) (hopcode : r.opcode = r.context.opcode)
    (htype : r.context.type ≠ .accept) : (w.kernel r cqe).descriptors = w.descriptors := by
  have hdeliver : ∀ w₁ : World, (w₁.deliver_bytes r cqe.data).descriptors = w₁.descriptors := by
    intro w₁
    rw [deliver_bytes]
    split
    · split <;> rfl
    · rfl
  have htake : (w.take_bytes r cqe).descriptors = w.descriptors := by
    rw [take_bytes]
    split <;> rfl
  cases hop : r.opcode with
  | accept =>
    rw [hopcode, IoContext.opcode] at hop
    split at hop <;> cases hop
    exact absurd ‹_› htype
  | readv =>
    simp only [kernel, hop]
    split
    · exact hdeliver w
    · rfl
  | recvmsg =>
    simp only [kernel, hop]
    split
    · rw [hdeliver]
      split <;> rfl
    · split <;> rfl
  | writev => simpa only [kernel, hop] using htake
  | sendmsg => simpa only [kernel, hop] using htake
  | shutdown => simp only [kernel, hop]
  | nop => simp only [kernel, hop]

/-- What the kernel does for a write, as the socket sees it. -/
theorem kernel_write (hs : w.sockets i = some s) {r : Request} (cqe : Cqe)
    (htype : r.context.type = .write) (hi : r.context.handler = some i) {generation : Nat}
    (hbase : r.context.iov.iov_base = .send_buffer i generation)
    (hopcode : r.opcode = r.context.opcode) :
    Local i w (w.kernel r cqe) ∧ (w.kernel r cqe).contexts = w.contexts ∧
      (w.kernel r cqe).sockets i = some s ∧
      ∀ t, (w.kernel r cqe).view_with i t = { w.view_with i t with
        history := { (w.view_with i t).history with
          written := (w.view_with i t).history.written ++
            (s.load i r.context.iov cqe.data).take cqe.res.toNat } } := by
  have hkernel : w.kernel r cqe = w.take_bytes r cqe := by
    rw [kernel, hopcode, IoContext.opcode, htype]
    cases r.context.ctype <;> rfl
  rw [hkernel, take_bytes, hi]
  dsimp only
  refine ⟨local_record _, rfl, hs, fun t => ?_⟩
  rw [view_with_record, load_eq hs hbase]

theorem io_received_view (hwf : w.Wf) (hs : w.sockets i = some s) {count : Nat} {addr : SockAddr}
    {sqe : Bool} (hio : s.io_received p w i count addr sqe = .ok w') :
    ∃ recv_buffer, s.recv_buffer.push p.malloc (s.recv_bind_buffer.take count) = .ok recv_buffer ∧
      Local i w w' ∧ w'.descriptors = w.descriptors ∧ w'.sockets i = some { s with recv_buffer } ∧
      ∃ v₂, ((w.view_with i s).with_socket { s with recv_buffer }).Receives p sqe v₂ ∧
        w'.view_with i { s with recv_buffer } =
          if s.recv_event then v₂.call (.receive recv_buffer.contents addr) else v₂ := by
  rw [SocketObject.io_received, IoBuffer.bind_eq_ok_iff] at hio
  obtain ⟨recv_buffer, hpush, hio⟩ := hio
  cases hio
  have hset : (w.set_socket i { s with recv_buffer }).Wf := hwf.set_socket hs rfl
  have hself : (w.set_socket i { s with recv_buffer }).sockets i = some { s with recv_buffer } :=
    set_socket_self w i _
  have hreceives := hset.receiving_view hself p rfl sqe
  have hsubmitted := SocketObject.submit_receiving_submitted p
    (w.set_socket i { s with recv_buffer }) i { s with recv_buffer } sqe
  have hlocal : Local i w (SocketObject.submit_receiving p (w.set_socket i { s with recv_buffer }) i
      { s with recv_buffer } sqe) := local_set_socket.trans (local_submit_receiving p _ sqe)
  refine ⟨recv_buffer, hpush, ?_, ?_, ?_, _, hreceives, ?_⟩
  · split
    · exact hlocal.trans (local_call _)
    · exact hlocal
  · split <;> exact hsubmitted.descriptors
  · split <;> exact (congrFun hsubmitted.sockets i).trans hself
  · split
    · exact view_with_call _
    · rfl

theorem io_shutdown_view :
    Local i w (s.io_shutdown w i) ∧ (s.io_shutdown w i).descriptors = w.descriptors ∧
      (s.io_shutdown w i).sockets i = some s.on_shutdown ∧
      (s.io_shutdown w i).view_with i s.on_shutdown =
        if s.socket_close_event then ((w.view_with i s).with_socket s.on_shutdown).call .close
        else (w.view_with i s).with_socket s.on_shutdown := by
  have hevent : s.on_shutdown.socket_close_event = s.socket_close_event := by
    rw [SocketObject.on_shutdown]
    split <;> rfl
  rw [SocketObject.io_shutdown, hevent]
  split
  · exact ⟨local_set_socket.trans (local_call _), rfl, set_socket_self w i _, view_with_call _⟩
  · exact ⟨local_set_socket, rfl, set_socket_self w i _, rfl⟩

theorem shutdown_completed_view (hs : w.sockets i = some s) :
    Local i w (s.shutdown_completed w i) ∧
      ∃ t, (s.shutdown_completed w i).sockets i = some t ∧
        Rewires w i s.socket_handler t.socket_handler (s.shutdown_completed w i) ∧
        (s.shutdown_completed w i).view_with i t = if s.socket_handler ≠ 0 then { w.view_with i s with
          socket := { s with socket_handler := 0 }
          history := { (w.view_with i s).history with
            closed := (w.view_with i s).history.closed ++ [s.socket_handler] } }
        else w.view_with i s := by
  rw [SocketObject.shutdown_completed]
  split
  · refine ⟨local_set_socket.trans (local_close_descriptor _), { s with socket_handler := 0 },
      set_socket_self w i _, .closed rfl rfl, ?_⟩
    rw [close_descriptor, view_with_record]
    rfl
  · exact ⟨.refl, s, hs, .same rfl rfl, rfl⟩

theorem io_sent_view (hwf : w.Wf) (hs : w.sockets i = some s) (count : Nat) (addr : SockAddr)
    (sqe : Bool) {send_buffer : IoDoubleBuffer} (hpop : send_buffer = (s.send_buffer.pop count).elevate) :
    Local i w (s.io_sent w i count addr sqe) ∧
      (s.io_sent w i count addr sqe).descriptors = w.descriptors ∧
      (s.io_sent w i count addr sqe).sockets i = some { s with send_buffer } ∧
      if send_buffer.empty then
        ∃ v₂, v₂ = { (w.view_with i s).with_send_buffer send_buffer with
          history := { (w.view_with i s).history with
            callbacks := (w.view_with i s).history.callbacks ++
              if s.send_complete_event then [.send_complete] else [] } } ∧
          if s.shutdown_gracefully then
            v₂.Shuts sqe ((s.io_sent w i count addr sqe).view_with i { s with send_buffer })
          else (s.io_sent w i count addr sqe).view_with i { s with send_buffer } = v₂
      else ((w.view_with i s).with_send_buffer send_buffer).Sends addr sqe
        ((s.io_sent w i count addr sqe).view_with i { s with send_buffer }) := by
  rw [SocketObject.io_sent]
  dsimp only
  rw [← hpop]
  by_cases hempty : send_buffer.empty = true
  · simp only [hempty, Bool.not_true, Bool.false_eq_true, ↓reduceIte]
    have hset : (w.set_socket i { s with send_buffer }).Wf := hwf.set_socket hs rfl
    have hself : (w.set_socket i { s with send_buffer }).sockets i = some { s with send_buffer } :=
      set_socket_self w i _
    obtain ⟨w₂, hw₂, hwf₂, hlocal, hdescriptors, hs₂, hview⟩ : ∃ w₂, w₂ = (if s.send_complete_event then
          (w.set_socket i { s with send_buffer }).call i .send_complete
        else w.set_socket i { s with send_buffer }) ∧ w₂.Wf ∧ Local i w w₂ ∧
        w₂.descriptors = w.descriptors ∧ w₂.sockets i = some { s with send_buffer } ∧
        w₂.view_with i { s with send_buffer } =
          { (w.view_with i s).with_send_buffer send_buffer with
            history := { (w.view_with i s).history with
              callbacks := (w.view_with i s).history.callbacks ++
                if s.send_complete_event then [.send_complete] else [] } } := by
      refine ⟨_, rfl, ?_⟩
      split
      · refine ⟨hset.call (hset.socket_lt hself) _, local_set_socket.trans (local_call _), rfl, hself, ?_⟩
        rw [view_with_call]
        rfl
      · refine ⟨hset, local_set_socket, rfl, hself, ?_⟩
        rw [List.append_nil]
        rfl
    rw [← hw₂, SocketObject.on_send_complete]
    dsimp only
    by_cases hgraceful : s.shutdown_gracefully = true
    · simp only [if_pos hgraceful]
      refine ⟨hlocal.trans (local_submit_shutdown sqe), ?_, ?_, _, rfl, ?_⟩
      · exact (SocketObject.submit_shutdown_submitted w₂ i sqe).descriptors.trans hdescriptors
      · rw [(SocketObject.submit_shutdown_submitted w₂ i sqe).sockets]
        exact hs₂
      · have hshuts := hwf₂.shutdown_view hs₂ sqe
        rw [hview] at hshuts
        exact hshuts
    · simp only [if_neg hgraceful]
      exact ⟨hlocal, hdescriptors, hs₂, _, rfl, hview⟩
  · have hkept : (!send_buffer.empty) = true := by simpa using hempty
    simp only [if_pos hkept, if_neg hempty]
    exact hwf.submit_sending_view hs send_buffer addr sqe rfl rfl

theorem action_complete {c : ContextId} {r : Request}
    (hfind : w.inflight.find? (·.user_data = c) = some r) (hj : r.context.handler = some j)
    (cqe : Cqe) (sqe : Bool) (i : ObjectId) :
    w.action i (.complete c cqe sqe) = if j = i then
      match r.context.type with
      | .read => if 0 < cqe.res then .received r cqe.data sqe else .receive_ended r cqe.res
      | .write => if 0 < cqe.res then .sent r cqe.res.toNat sqe else .send_failed r cqe.res
      | .shutdown => .shut_down r
      | _ => .idle
    else .idle := by
  by_cases hi : j = i
  · subst i
    rw [if_pos rfl, action, hfind]
    exact if_pos hj
  · rw [if_neg hi, action, hfind]
    exact if_neg (by simp [hj, hi])

theorem server_action_complete {c : ContextId} {r : Request}
    (hfind : w.inflight.find? (·.user_data = c) = some r) (hj : r.context.handler = some j)
    (cqe : Cqe) (sqe : Bool) (i : ObjectId) :
    w.server_action i (.complete c cqe sqe) = if j = i then
      match r.context.type with
      | .accept => .accept_completed r cqe.res
      | .shutdown => .shut_down r
      | _ => .idle
    else .idle := by
  by_cases hi : j = i
  · subst i
    rw [if_pos rfl, server_action, hfind]
    exact if_pos hj
  · rw [if_neg hi, server_action, hfind]
    exact if_neg (by simp [hj, hi])

theorem server_idle_complete {c : ContextId} {r : Request}
    (hfind : w.inflight.find? (·.user_data = c) = some r) (hj : r.context.handler = some j)
    (cqe : Cqe) (sqe : Bool) (i : ObjectId) (hi : j ≠ i) :
    w.server_action i (.complete c cqe sqe) = .idle := by
  rw [server_action_complete hfind hj, if_neg hi]

/-- What the kernel may bring to a read. -/
theorem read_length {r : Request} {cqe : Cqe} (hallows : w.kernel_allows r cqe = true)
    (hopcode : r.opcode = r.context.opcode) (htype : r.context.type = .read) :
    cqe.res ≤ r.context.iov.iov_len ∧ cqe.data.length = cqe.res.toNat := by
  rw [kernel_allows, hopcode, IoContext.opcode, htype] at hallows
  cases hctype : r.context.ctype <;> rw [hctype] at hallows <;> simpa using hallows

theorem Wf.read_does (hwf : w.Wf) (hwf' : w'.Wf) {c : ContextId} {cqe : Cqe} {sqe : Bool} {r : Request}
    (hfind : w.inflight.find? (·.user_data = c) = some r) (hallows : w.kernel_allows r cqe = true)
    (hj : r.context.handler = some j) (hfilled : w.Filled j r.context)
    (hopcode : r.opcode = r.context.opcode) (htype : r.context.type = .read)
    (hio : IoService.io p ((w.completed c).kernel r cqe) c cqe.res sqe = .ok w') :
    Does p w (.complete c cqe sqe) w' := by
  obtain ⟨hwf₁, hr, huser, hcontext, hfree⟩ := hwf.completed hfind
  obtain ⟨hlocal₁, hcompletes, _⟩ := completed_view hfind hj
  have hwf₂ := hwf₁.kernel (hwf.typed r hr) (huser ▸ hfree) cqe
  rw [Filled, htype] at hfilled
  obtain ⟨hsocket, hbase⟩ := hfilled
  obtain ⟨s, hs⟩ := Option.isSome_iff_exists.mp hsocket
  have hs₁ : (w.completed c).sockets j = some s := hs
  have hcontext₁ : (w.completed c).contexts r.user_data = r.context := huser ▸ hcontext
  obtain ⟨hlocal₂, htype₂, hhandler₂, heffect⟩ :=
    kernel_read hs₁ cqe htype hbase hopcode hcontext₁
  rw [huser, htype] at htype₂
  rw [huser, hj] at hhandler₂
  have haction := action_complete hfind hj cqe sqe
  have hidle := server_idle_complete hfind hj cqe sqe
  have hkernel := kernel_descriptors (w := w.completed c) cqe hopcode (by simp [htype])
  rw [htype] at haction
  rw [IoService.io, htype₂, hhandler₂, to_socket_ptr, Option.bind_some] at hio
  by_cases hres : 0 < cqe.res
  · simp only [hres, ↓reduceIte] at heffect haction hio
    obtain ⟨hs₂, hview₂⟩ := heffect
    rw [hs₂] at hio
    obtain ⟨recv_buffer, hpush, hlocal₃, hkept, ht, v₂, hreceives, hview₃⟩ :=
      io_received_view hwf₂ hs₂ hio
    have hlength := read_length hallows hopcode htype
    have htake : cqe.data.take cqe.res.toNat = cqe.data := by
      rw [← hlength.2, List.take_length]
    rw [htake] at hpush
    refine does_of_socket hwf hwf' ((hlocal₁.trans hlocal₂).trans hlocal₃) haction hidle hs ht ?_
      (.same (hkept.trans hkernel) rfl)
    rw [hview₃]
    refine .received htype (hcompletes s) ?_ ?_ hpush ?_ _
    · intro hnil
      rw [hnil, List.length_nil] at hlength
      omega
    · omega
    · rw [hview₂] at hreceives
      exact hreceives
  · simp only [hres, ↓reduceIte] at heffect haction hio
    obtain ⟨hs₂, hview₂⟩ := heffect
    rw [hs₂] at hio
    cases hio
    obtain ⟨hlocal₃, hkept, ht, hview₃⟩ :=
      io_shutdown_view (s := s) (w := (w.completed c).kernel r cqe)
    refine does_of_socket hwf hwf' ((hlocal₁.trans hlocal₂).trans hlocal₃) haction hidle hs ht ?_
      (.same (hkept.trans hkernel) ?_)
    swap
    · rw [SocketObject.on_shutdown]
      split <;> rfl
    rw [hview₃, hview₂]
    exact .receive_ended htype (hcompletes s)

theorem Wf.write_does (hwf : w.Wf) (hwf' : w'.Wf) {c : ContextId} {cqe : Cqe} {sqe : Bool} {r : Request}
    (hfind : w.inflight.find? (·.user_data = c) = some r) (hallows : w.kernel_allows r cqe = true)
    (hj : r.context.handler = some j) (hfilled : w.Filled j r.context)
    (hopcode : r.opcode = r.context.opcode) (htype : r.context.type = .write)
    (hio : IoService.io p ((w.completed c).kernel r cqe) c cqe.res sqe = .ok w') :
    Does p w (.complete c cqe sqe) w' := by
  obtain ⟨hwf₁, hr, huser, hcontext, hfree⟩ := hwf.completed hfind
  obtain ⟨hlocal₁, hcompletes, _⟩ := completed_view hfind hj
  have hwf₂ := hwf₁.kernel (hwf.typed r hr) (huser ▸ hfree) cqe
  rw [Filled, htype] at hfilled
  obtain ⟨hsocket, generation, hbase⟩ := hfilled
  obtain ⟨s, hs⟩ := Option.isSome_iff_exists.mp hsocket
  have hs₁ : (w.completed c).sockets j = some s := hs
  obtain ⟨hlocal₂, hcontexts₂, hs₂, hview₂⟩ := kernel_write hs₁ cqe htype hj hbase hopcode
  have hcontext₂ : ((w.completed c).kernel r cqe).contexts c = r.context := by
    rw [hcontexts₂]
    exact hcontext
  have haddr : current_sockaddr ((w.completed c).kernel r cqe) c = s.current_sockaddr r.context := by
    rw [IoService.current_sockaddr, SocketObject.current_sockaddr, hcontext₂, hj, to_socket_ptr,
      Option.bind_some, hs₂]
    cases r.context.ctype <;> rfl
  have haction := action_complete hfind hj cqe sqe
  have hidle := server_idle_complete hfind hj cqe sqe
  have hkernel := kernel_descriptors (w := w.completed c) cqe hopcode (by simp [htype])
  rw [htype] at haction
  rw [IoService.io, haddr, hcontext₂, htype, hj, to_socket_ptr, Option.bind_some, hs₂] at hio
  have hlocal := hlocal₁.trans hlocal₂
  by_cases hres : 0 < cqe.res
  · simp only [hres, ↓reduceIte] at haction hio
    cases hio
    have hlength : cqe.res ≤ r.payload.length := by
      rw [kernel_allows, hopcode, IoContext.opcode, htype] at hallows
      cases hctype : r.context.ctype <;> rw [hctype] at hallows <;> simpa using hallows
    obtain ⟨hlocal₃, hkept, ht, hsent⟩ := io_sent_view hwf₂ hs₂ cqe.res.toNat
      (s.current_sockaddr r.context) sqe rfl
    refine does_of_socket hwf hwf' (hlocal.trans hlocal₃) haction hidle hs ht ?_
      (.same (hkept.trans hkernel) rfl)
    rw [hview₂] at hsent
    by_cases hempty : ((s.send_buffer.pop cqe.res.toNat).elevate).empty = true
    · rw [if_pos hempty] at hsent
      obtain ⟨v₂, hv₂, hshuts⟩ := hsent
      exact .sent_all cqe.data htype (hcompletes s) (by omega) (by omega) hempty hv₂ hshuts
    · rw [if_neg hempty] at hsent
      exact .sent_more cqe.data htype (hcompletes s) (by omega) (by omega)
        (Bool.not_eq_true _ ▸ hempty) hsent
  · simp only [hres, ↓reduceIte] at haction hio
    cases hio
    have hsockets : (((w.completed c).kernel r cqe).io_error j (-cqe.res)).sockets j = some s := by
      rw [io_error_sockets]
      exact hs₂
    refine does_of_socket hwf hwf' (hlocal.trans (local_io_error _)) haction hidle hs hsockets ?_
      (.same ((io_error_descriptors _ _ _).trans hkernel) rfl)
    rw [view_with_io_error hs₂, hview₂]
    have hzero : cqe.res.toNat = 0 := by omega
    rw [hzero, List.take_zero, List.append_nil]
    exact .send_failed htype (hcompletes s)

theorem Wf.shutdown_does (hwf : w.Wf) (hwf' : w'.Wf) {c : ContextId} {cqe : Cqe} {sqe : Bool} {r : Request}
    (hfind : w.inflight.find? (·.user_data = c) = some r) (hj : r.context.handler = some j)
    (hfilled : w.Filled j r.context) (hopcode : r.opcode = r.context.opcode)
    (htype : r.context.type = .shutdown)
    (hio : IoService.io p ((w.completed c).kernel r cqe) c cqe.res sqe = .ok w') :
    Does p w (.complete c cqe sqe) w' := by
  obtain ⟨_, _, _, hcontext, _⟩ := hwf.completed hfind
  obtain ⟨hlocal₁, hcompletes, hserver_completes⟩ := completed_view hfind hj
  have hkernel : (w.completed c).kernel r cqe = w.completed c := by
    rw [World.kernel, hopcode, IoContext.opcode, htype]
  have haction := action_complete hfind hj cqe sqe
  have hserver_action := server_action_complete hfind hj cqe sqe
  rw [htype] at haction hserver_action
  have hcontext₁ : (w.completed c).contexts c = r.context := hcontext
  have hsockets : (w.completed c).sockets = w.sockets := rfl
  rw [Filled, htype] at hfilled
  rw [hkernel, IoService.io, hcontext₁, htype, hj, to_socket_ptr, Option.bind_some, hsockets] at hio
  cases hs : w.sockets j with
  | some s =>
    rw [hs] at hio
    cases hio
    obtain ⟨hlocal₂, t, ht, hrewires, hview⟩ := shutdown_completed_view (w := w.completed c) hs
    have hrewires : Rewires w j s.socket_handler t.socket_handler _ := hrewires.of_same rfl
    refine does_of_socket hwf hwf' (hlocal₁.trans hlocal₂) haction
      (server_idle_complete hfind hj cqe sqe) hs ht ?_ hrewires
    rw [hview]
    exact .shut_down htype (hcompletes s)
  | none =>
    rw [hs] at hio hfilled
    obtain ⟨server, hserver⟩ := Option.isSome_iff_exists.mp (hfilled.resolve_left (by simp))
    have hserver₁ : (w.completed c).to_tcp_server_ptr (some j) = some server := hserver
    simp only [hserver₁] at hio
    cases hio
    refine does_of_server hwf hwf' ((hlocal₁.trans (local_set_server _)).trans (local_close_descriptor _))
      hserver_action (fun i hi => ?_) hserver (set_server_self _ _ _) ?_ (.closed rfl rfl)
    · rw [haction, if_neg hi]
    · have hmove := ServerView.Move.shut_down htype (hserver_completes server)
      rw [World.close_descriptor, server_view_with_record]
      exact hmove

/-- What the kernel does for an accept. -/
theorem kernel_accept {server : TcpServer} (hserver : w.servers j = some server) {r : Request}
    (cqe : Cqe) (htype : r.context.type = .accept) (hj : r.context.handler = some j)
    (hopcode : r.opcode = r.context.opcode) :
    w.kernel r cqe = if 0 ≤ cqe.res then
      (w.set_server j { server with
        addr6 := server.addr6.copy cqe.peer (min server.addr_len 28)
        addr_len := 28 }).open_descriptor cqe.res j
    else w := by
  rw [kernel, hopcode, IoContext.opcode, htype]
  simp [hj, to_tcp_server_ptr, hserver]

theorem Wf.accept_does (hwf : w.Wf) (hwf' : w'.Wf) {c : ContextId} {cqe : Cqe} {sqe : Bool} {r : Request}
    (hfind : w.inflight.find? (·.user_data = c) = some r) (hallows : w.kernel_allows r cqe = true)
    (hj : r.context.handler = some j) (hfilled : w.Filled j r.context)
    (hopcode : r.opcode = r.context.opcode) (htype : r.context.type = .accept)
    (hio : IoService.io p ((w.completed c).kernel r cqe) c cqe.res sqe = .ok w') :
    Does p w (.complete c cqe sqe) w' := by
  obtain ⟨hwf₁, hr, huser, hcontext, hfree⟩ := hwf.completed hfind
  obtain ⟨hlocal₁, _, hcompletes⟩ := completed_view hfind hj
  have hwf₂ := hwf₁.kernel (hwf.typed r hr) (huser ▸ hfree) cqe
  rw [Filled, htype] at hfilled
  obtain ⟨server, hserver⟩ := Option.isSome_iff_exists.mp hfilled
  have hserver₁ : (w.completed c).servers j = some server := hserver
  have hcontext₁ : (w.completed c).contexts c = r.context := hcontext
  have hallows : cqe.res < 0 ∨ w.descriptors cqe.res = none := by
    rw [kernel_allows, hopcode, IoContext.opcode, htype] at hallows
    simpa using hallows
  have haction : ∀ i, w.action i (.complete c cqe sqe) = .idle := by
    intro i
    rw [action_complete hfind hj, htype]
    split <;> rfl
  have hserver_action := server_action_complete hfind hj cqe sqe
  rw [htype] at hserver_action
  rw [kernel_accept hserver₁ cqe htype hj hopcode] at hwf₂ hio
  by_cases hopens : 0 ≤ cqe.res
  · rw [if_pos hopens] at hwf₂ hio
    generalize hserver' : ({ server with
      addr6 := server.addr6.copy cqe.peer (min server.addr_len 28)
      addr_len := 28 } : TcpServer) = server' at hwf₂ hio
    generalize hw₂ : ((w.completed c).set_server j server').open_descriptor cqe.res j = w₂ at hwf₂ hio
    have hcontext₂ : w₂.contexts c = r.context := by
      rw [← hw₂]
      exact hcontext₁
    have hself : w₂.servers j = some server' := by
      rw [← hw₂]
      exact set_server_self _ _ _
    have hlocal : Local j w w₂ := by
      rw [← hw₂]
      exact (hlocal₁.trans (local_set_server _)).trans (local_open_descriptor _)
    rw [IoService.io, hcontext₂, htype, hj] at hio
    simp only [to_tcp_server_ptr, Option.bind_some, hself] at hio
    have hfree : w.descriptors cqe.res = none := hallows.resolve_left (Int.not_lt.mpr hopens)
    have hview : w₂.server_view_with j server' =
        ((w.completed c).server_view_with j server).with_server server' := by
      rw [← hw₂]
      rfl
    have hdescriptors : w₂.descriptors = Function.update w.descriptors cqe.res (some j) := by
      rw [← hw₂]
      rfl
    have hsocket : server'.server_socket = server.server_socket := by
      rw [← hserver']
    by_cases hres : 0 < cqe.res
    · rw [if_pos hres] at hio
      cases hio
      have hhandling : w₂.handling = w.handling ++ [{ context := c }] := by
        rw [← hw₂]
        rfl
      have hsockets : w₂.sockets = w.sockets ∧ w₂.objects = w.objects := by
        rw [← hw₂]
        exact ⟨rfl, rfl⟩
      have hnew : w.objects ≠ j := (hwf.server_lt hserver).ne'
      obtain ⟨hnone, hnoserver, _⟩ := hwf.fresh w.objects le_rfl
      obtain ⟨⟨t, ht, hhandler, hfresh⟩, hservers, hopened, hlook, hlisten, hmove⟩ :=
        hwf₂.io_accepting_view hself hhandling (huser ▸ hwf.not_handled hr) rfl
      rw [hsockets.1, hsockets.2] at ht
      rw [hsockets.2] at hopened hfresh hmove
      generalize TcpServer.io_accepting w₂ j server' c cqe.res = w₃ at *
      have hself₃ : w₃.sockets w.objects = some t := by
        rw [ht]
        exact Function.update_self ..
      have hserver₃ : w₃.servers j = some server' := by
        rw [hservers]
        exact hself
      -- the server is left as its view says, and then the new socket is added
      have hlocal₃ : Local j w { w₃ with sockets := w.sockets } :=
        ⟨fun _ _ => rfl, fun i hi => (congrFun hservers i).trans (hlocal.servers i hi),
          fun i u hi => (hlook i u hi).trans (hlocal.view_with i u hi),
          fun i hi => (hlisten i hi).trans (hlocal.accepting i hi)⟩
      have hadded : Local w.objects { w₃ with sockets := w.sockets } w₃ :=
        ⟨fun i hi => by rw [ht, Function.update_of_ne hi], fun _ _ => rfl, fun _ _ _ => rfl, fun _ _ => rfl⟩
      refine ⟨fun i => ?_, fun i => ?_, w.objects, fun i hi => ?_, ?_⟩
      · by_cases hi : i = w.objects
        · subst i
          refine moves_of_fresh (view_eq_none hnone) fun v' hv' => ?_
          rw [view_eq hself₃] at hv'
          cases hv'
          exact hfresh
        by_cases hij : i = j
        · subst i
          exact moves_of_none (hwf.no_socket hfilled) (hwf'.no_socket (by simp [hserver₃]))
        · exact moves_of_same ((hadded.view hi).trans (hlocal₃.view hij)) (haction i)
      · by_cases hi : i = w.objects
        · subst i
          exact serves_of_none hnoserver (hwf'.separate _ t hself₃)
        by_cases hij : i = j
        · subst i
          refine serves_of_move hserver hserver₃ ?_
          obtain ⟨front, back, hrequests, hafter⟩ := hcompletes server
          have haccepted := ServerView.Move.accepted cqe.peer w.objects htype
            ⟨front, back, hrequests, rfl⟩ hres
          rw [hserver_action, if_pos rfl, hmove, hview, hafter, ← hserver', ← huser]
          exact haccepted
        · apply serves_of_same ((hadded.server_view hi).trans (hlocal₃.server_view hij))
          rw [hserver_action, if_neg (Ne.symm hij)]
      · rw [hadded.descriptor hi]
        by_cases hij : i = j
        · subst i
          have hnone₃ : ({ w₃ with sockets := w.sockets } : World).sockets j = none :=
            hwf.no_socket hfilled
          rw [descriptor_server hnone₃ hserver₃, descriptor_server (hwf.no_socket hfilled) hserver, hsocket]
        · exact hlocal₃.descriptor hij
      · rw [hwf.descriptor_new, descriptor_socket hself₃, hhandler]
        exact .opened hfree (by rw [hopened, hdescriptors, Function.update_idem])
    · rw [if_neg hres] at hio
      cases hio
      refine does_of_server hwf hwf' hlocal hserver_action (fun i _ => haction i) hserver hself ?_
        (.leaked cqe.res hfree hdescriptors hsocket)
      have hmove := ServerView.Move.accept_failed cqe.peer htype (hcompletes server) (Int.not_lt.mp hres)
      rw [if_pos hopens] at hmove
      rw [hview, ← hserver']
      exact hmove
  · rw [if_neg hopens] at hwf₂ hio
    rw [IoService.io, hcontext₁, htype, hj] at hio
    simp only [if_neg (fun hpos => hopens (Int.le_of_lt hpos))] at hio
    cases hio
    refine does_of_server hwf hwf' hlocal₁ hserver_action (fun i _ => haction i) hserver hserver₁ ?_
      (.same rfl rfl)
    have hmove := ServerView.Move.accept_failed cqe.peer htype (hcompletes server)
      (Int.le_of_lt (Int.not_le.mp hopens))
    rw [if_neg hopens] at hmove
    exact hmove

theorem Wf.complete_does (hwf : w.Wf) (hwf' : w'.Wf) {c : ContextId} {cqe : Cqe} {sqe : Bool}
    (hcomplete : w.complete p c cqe sqe = some w') : Does p w (.complete c cqe sqe) w' := by
  obtain ⟨r, hfind, hcomplete⟩ := Option.bind_eq_some_iff.mp hcomplete
  split at hcomplete
  · rename_i hallows
    have hio := IoBuffer.toOption_eq_some_iff.mp hcomplete
    obtain ⟨j, hj, hfilled, hopcode⟩ := hwf.typed r (List.mem_of_find?_eq_some hfind)
    cases htype : r.context.type with
    | unknown =>
      rw [Filled, htype] at hfilled
      cases hfilled
    | accept => exact hwf.accept_does hwf' hfind hallows hj hfilled hopcode htype hio
    | read => exact hwf.read_does hwf' hfind hallows hj hfilled hopcode htype hio
    | write => exact hwf.write_does hwf' hfind hallows hj hfilled hopcode htype hio
    | shutdown => exact hwf.shutdown_does hwf' hfind hj hfilled hopcode htype hio
  · cases hcomplete

/-- What every step of the process does: for each of its objects its creation or
    a move of the object on its own, and the descriptors of one of them. -/
theorem Wf.step_does (hwf : w.Wf) {e : Event} (hstep : w.step p e = some w') : Does p w e w' := by
  have hwf' : w'.Wf := hwf.step hstep
  cases e with
  | create_tcp =>
    cases hstep
    exact hwf.create_socket_does (fun _ => rfl) (fun _ => rfl) _
  | create_udp =>
    cases hstep
    exact hwf.create_socket_does (fun _ => rfl) (fun _ => rfl) _
  | create_server =>
    cases hstep
    exact hwf.create_server_does
  | set_event j slot registered => exact hwf.set_event_does hwf' hstep
  | connect j addresses sqe =>
    obtain ⟨s, hs, hstep⟩ := Option.bind_eq_some_iff.mp hstep
    obtain ⟨⟨result, w₁⟩, hconnect, hstep⟩ := Option.bind_eq_some_iff.mp hstep
    cases hstep
    obtain ⟨hs, htype⟩ := socket_of_eq_some hs
    exact hwf.connect_does hwf' hs htype hconnect
  | activate j fd bind sqe =>
    obtain ⟨s, hs, hstep⟩ := Option.bind_eq_some_iff.mp hstep
    obtain ⟨hs, htype⟩ := socket_of_eq_some hs
    split at hstep
    · rename_i hfd
      obtain ⟨⟨result, w₁⟩, hactivate, rfl⟩ :=
        IoBuffer.map_eq_ok_iff.mp (IoBuffer.toOption_eq_some_iff.mp hstep)
      exact hwf.activate_does hwf' hs htype hfd hactivate
    · cases hstep
  | run_udp j fd bind errno sqe =>
    obtain ⟨s, hs, hstep⟩ := Option.bind_eq_some_iff.mp hstep
    obtain ⟨hs, htype⟩ := socket_of_eq_some hs
    split at hstep
    · rename_i hfd
      obtain ⟨⟨result, w₁⟩, hrun, rfl⟩ :=
        IoBuffer.map_eq_ok_iff.mp (IoBuffer.toOption_eq_some_iff.mp hstep)
      exact hwf.run_udp_does hwf' hs htype hfd hrun
    · cases hstep
  | run j fd bind listen errno sqe =>
    obtain ⟨server, hserver, hstep⟩ := Option.bind_eq_some_iff.mp hstep
    split at hstep
    · rename_i hfd
      cases hstep
      exact hwf.run_does hserver hfd bind listen errno sqe
    · cases hstep
  | stop j sqe =>
    obtain ⟨server, hserver, hstep⟩ := Option.bind_eq_some_iff.mp hstep
    cases hstep
    exact hwf.stop_does hserver sqe
  | send j bytes =>
    obtain ⟨s, hs, hstep⟩ := Option.bind_eq_some_iff.mp hstep
    cases hstep
    exact send_does
  | send_locked index sqe =>
    obtain ⟨⟨j, bytes⟩, hindex, hstep⟩ := Option.bind_eq_some_iff.mp hstep
    obtain ⟨s, hs, hstep⟩ := Option.bind_eq_some_iff.mp hstep
    obtain ⟨hs, htype⟩ := socket_of_eq_some hs
    exact hwf.send_locked_does hwf' hs htype hindex (IoBuffer.toOption_eq_some_iff.mp hstep)
  | send_to j bytes addr sqe =>
    obtain ⟨s, hs, hstep⟩ := Option.bind_eq_some_iff.mp hstep
    obtain ⟨hs, htype⟩ := socket_of_eq_some hs
    obtain ⟨⟨result, w₁⟩, hsend, rfl⟩ :=
      IoBuffer.map_eq_ok_iff.mp (IoBuffer.toOption_eq_some_iff.mp hstep)
    exact hwf.send_to_does hwf' hs htype hsend
  | close j type sqe =>
    obtain ⟨s, hs, hstep⟩ := Option.bind_eq_some_iff.mp hstep
    cases hstep
    exact hwf.close_does hwf' hs
  | pop j size =>
    obtain ⟨s, hs, hstep⟩ := Option.bind_eq_some_iff.mp hstep
    exact hwf.pop_does hwf' hs hstep
  | complete c cqe sqe => exact hwf.complete_does hwf' hstep
  | resume c accept_sqe read_sqe => exact (hwf.resume_does hwf' hstep).1
  | finish c => exact finish_does hstep

end World

end rioring
