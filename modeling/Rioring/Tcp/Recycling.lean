import Rioring.View.Run

namespace rioring

open IoService World

variable {p : Platform} {i : ObjectId} {w w' w₁ w₂ : World} {s : SocketObject}

/-- What decides the effect of a request on a stream: its kind, its descriptor,
    and its region. -/
def Request.target (r : Request) : Opcode × Int × Iovec := (r.opcode, r.fd, r.context.iov)

namespace World

/-- The region `tcp_socket::submit_receiving` names. -/
def read_region (p : Platform) (i : ObjectId) : Iovec where
  iov_base := .recv_bind_buffer i
  iov_len := p.data_buffer_size

/-- The region `tcp_socket::submit_sending` names. -/
def write_region (i : ObjectId) (s : SocketObject) : Iovec where
  iov_base := .send_buffer i s.send_buffer.main_buffer.generation
  iov_len := s.send_buffer.size

/-- The read and the write a TCP socket submits with the next context. -/
def tcp_targets (p : Platform) (w : World) (i : ObjectId) (s : SocketObject) :
    List (Opcode × Int × Iovec) :=
  (w.submitted_since (TcpSocket.submit_receiving p w i true) i ++
    w.submitted_since (TcpSocket.submit_sending w i s true) i).map (·.target)

/-- Whenever a request that was submitted for a socket completes, its handler is
    given the address of that socket. -/
def AnswersSocket (p : Platform) (w w' : World) (i : ObjectId) : Prop :=
  ∀ r ∈ w.submitted_since w' i, ∀ w'' s'' cqe, (machine p).Run Machine.Any w' w'' →
    w''.sockets i = some s'' → r ∈ w''.inflight →
    current_sockaddr ((w''.completed r.user_data).kernel r cqe) r.user_data = s''.addr_storage

/-- The context that a submitter gets still says TCP. -/
def next_is_tcp (w : World) : Prop := (next_context w).2.ctype = .tcp_context

instance : DecidablePred next_is_tcp := fun w => by
  unfold next_is_tcp
  infer_instance

end World

/-- A submission for a socket adds the one entry of the context it takes. -/
theorem submitted_entry (hwf : w.Wf) (hs : w.sockets i = some s) {fill : IoContext → IoContext}
    (hhandler : (fill (next_context w).2).handler = some i)
    (hfilled : w.Filled i (fill (next_context w).2)) :
    w.submitted_since (submit_context w fill true) i =
      [s.entry i (next_context w).1 (fill (next_context w).2)] := by
  have hview := hwf.submit_context_view hs hhandler hfilled true
  have hsubmitted := congrArg (fun v => v.history.submitted) hview
  change ((submit_context w fill true).history i).submitted = (w.history i).submitted ++ _ at hsubmitted
  rw [submitted_since, hsubmitted, List.drop_left]
  rfl

theorem read_entry (hwf : w.Wf) (hs : w.sockets i = some s) : ∃ ctx,
    ctx.type = .read ∧ ctx.handler = some i ∧ ctx.ctype = (next_context w).2.ctype ∧
      ctx.iov = read_region p i ∧
      w.submitted_since (TcpSocket.submit_receiving p w i true) i =
        [s.entry i (next_context w).1 ctx] := by
  have hi : (w.sockets i).isSome := by simp [hs]
  refine ⟨_, ?_, ?_, ?_, ?_, submitted_entry hwf hs rfl (by exact ⟨hi, rfl⟩)⟩
  all_goals rfl

theorem write_entry (hwf : w.Wf) (hs : w.sockets i = some s) : ∃ ctx,
    ctx.type = .write ∧ ctx.handler = some i ∧ ctx.ctype = (next_context w).2.ctype ∧
      ctx.iov = write_region i s ∧
      w.submitted_since (TcpSocket.submit_sending w i s true) i =
        [s.entry i (next_context w).1 ctx] := by
  have hi : (w.sockets i).isSome := by simp [hs]
  refine ⟨_, ?_, ?_, ?_, ?_, submitted_entry hwf hs rfl (by exact ⟨hi, _, rfl⟩)⟩
  all_goals rfl

/-- Both requests are stream requests exactly when the context says TCP. -/
theorem tcp_targets_iff (hwf : w.Wf) (hs : w.sockets i = some s) :
    w.tcp_targets p i s = [(.readv, s.socket_handler, read_region p i),
      (.writev, s.socket_handler, write_region i s)] ↔ w.next_is_tcp := by
  obtain ⟨read, hread, _, hreadCtype, hreadIov, hreadEntry⟩ := read_entry (p := p) hwf hs
  obtain ⟨write, hwrite, _, hwriteCtype, hwriteIov, hwriteEntry⟩ := write_entry hwf hs
  rw [tcp_targets, hreadEntry, hwriteEntry, next_is_tcp]
  cases hctype : (next_context w).2.ctype with
  | tcp_context =>
    rw [hctype] at hreadCtype hwriteCtype
    simp [Request.target, SocketObject.entry, IoContext.opcode, hread, hwrite, hreadCtype,
      hwriteCtype, hreadIov, hwriteIov]
  | udp_context =>
    rw [hctype] at hreadCtype hwriteCtype
    simp [Request.target, SocketObject.entry, IoContext.opcode, hread, hwrite, hreadCtype,
      hwriteCtype]

/-- The completion of a stream request leaves contexts and addresses alone. -/
theorem stream_kernel {r : Request} (cqe : Cqe) (hopcode : r.opcode = .readv ∨ r.opcode = .writev)
    (hs : w.sockets i = some s) :
    (w.kernel r cqe).contexts = w.contexts ∧
      ∃ s', (w.kernel r cqe).sockets i = some s' ∧ s'.addr_storage = s.addr_storage := by
  have hsame : w.contexts = w.contexts ∧ ∃ s', w.sockets i = some s' ∧ s'.addr_storage = s.addr_storage :=
    ⟨rfl, s, hs, rfl⟩
  rcases hopcode with hopcode | hopcode
  · rw [kernel, hopcode]
    dsimp only
    split
    · rw [deliver_bytes]
      split
      · rename_i j _
        split
        · rename_i t ht
          by_cases hj : j = i
          · subst j
            rw [hs] at ht
            cases ht
            exact ⟨rfl, _, set_socket_self .., rfl⟩
          · refine ⟨rfl, s, ?_, rfl⟩
            rw [record_sockets, set_socket_sockets, Function.update_of_ne (Ne.symm hj), hs]
        · exact hsame
      · exact hsame
    · exact hsame
  · rw [kernel, hopcode]
    dsimp only
    rw [take_bytes]
    split
    · exact hsame
    · exact hsame

/-- The completion of a TCP context hands over the address of its socket. -/
theorem answers_socket (hwf : w.Wf) (hs : w.sockets i = some s) {r : Request} (hr : r ∈ w.inflight)
    (hhandler : r.context.handler = some i) (hctype : r.context.ctype = .tcp_context)
    (htype : r.context.type = .read ∨ r.context.type = .write) (cqe : Cqe) :
    current_sockaddr ((w.completed r.user_data).kernel r cqe) r.user_data = s.addr_storage := by
  have hcontext := hwf.contexts r hr
  obtain ⟨_, _, _, hkind⟩ := hwf.typed r hr
  have hopcode : r.opcode = .readv ∨ r.opcode = .writev := by
    rw [hkind, IoContext.opcode, hctype]
    rcases htype with htype | htype
    · simp [htype]
    · simp [htype]
  obtain ⟨hcontexts, s', hs', haddr⟩ := stream_kernel (w := w.completed r.user_data) cqe hopcode hs
  have hsame : (w.completed r.user_data).contexts r.user_data = r.context := hcontext
  rw [current_sockaddr, hcontexts, hsame, hctype, hhandler, to_socket_ptr, Option.bind_some, hs']
  exact haddr

/-- The requests that a TCP socket submits with the next context answer with the
    address of the socket when that context says TCP. -/
theorem tcp_answers (hwf : w.Wf) (hs : w.sockets i = some s) (hnext : w.next_is_tcp) :
    AnswersSocket p w (TcpSocket.submit_receiving p w i true) i ∧
      AnswersSocket p w (TcpSocket.submit_sending w i s true) i := by
  obtain ⟨read, hread, hreadHandler, hreadCtype, _, hreadEntry⟩ := read_entry (p := p) hwf hs
  obtain ⟨write, hwrite, hwriteHandler, hwriteCtype, _, hwriteEntry⟩ := write_entry hwf hs
  rw [hnext] at hreadCtype hwriteCtype
  have hi : (w.sockets i).isSome := by simp [hs]
  have hafterRead : (TcpSocket.submit_receiving p w i true).Wf :=
    hwf.submit_context (hwf.socket_lt hs) rfl (by exact ⟨hi, rfl⟩) true
  have hafterWrite : (TcpSocket.submit_sending w i s true).Wf :=
    hwf.submit_context (hwf.socket_lt hs) rfl (by exact ⟨hi, _, rfl⟩) true
  constructor
  · intro r hr w'' s'' cqe hrun hs'' hflight
    rw [hreadEntry, List.mem_singleton] at hr
    subst r
    exact answers_socket (hafterRead.along hrun) hs'' hflight hreadHandler hreadCtype (.inl hread) cqe
  · intro r hr w'' s'' cqe hrun hs'' hflight
    rw [hwriteEntry, List.mem_singleton] at hr
    subst r
    exact answers_socket (hafterWrite.along hrun) hs'' hflight hwriteHandler hwriteCtype (.inr hwrite) cqe

/-- Two histories give a TCP socket the same requests and answers, namely its
    own, exactly when in both the next context says TCP. -/
theorem tcp_requests_same_iff (hreach₁ : (machine p).Reachable Machine.Any w₁)
    (hreach₂ : (machine p).Reachable Machine.Any w₂) (hs₁ : w₁.sockets i = some s)
    (hs₂ : w₂.sockets i = some s) :
    (w₁.tcp_targets p i s = w₂.tcp_targets p i s ∧
        w₂.tcp_targets p i s = [(.readv, s.socket_handler, read_region p i),
          (.writev, s.socket_handler, write_region i s)] ∧
        (∀ w ∈ [w₁, w₂], AnswersSocket p w (TcpSocket.submit_receiving p w i true) i ∧
          AnswersSocket p w (TcpSocket.submit_sending w i s true) i)) ↔
      w₁.next_is_tcp ∧ w₂.next_is_tcp := by
  have hwf₁ : w₁.Wf := Wf.reachable hreach₁
  have hwf₂ : w₂.Wf := Wf.reachable hreach₂
  have htargets₁ := tcp_targets_iff (p := p) hwf₁ hs₁
  have htargets₂ := tcp_targets_iff (p := p) hwf₂ hs₂
  constructor
  · rintro ⟨hsame, hproper, _⟩
    exact ⟨htargets₁.mp (hsame.trans hproper), htargets₂.mp hproper⟩
  · rintro ⟨hnext₁, hnext₂⟩
    refine ⟨(htargets₁.mpr hnext₁).trans (htargets₂.mpr hnext₂).symm, htargets₂.mpr hnext₂, ?_⟩
    intro w hw
    simp only [List.mem_cons, List.not_mem_nil, or_false] at hw
    rcases hw with rfl | rfl
    · exact tcp_answers hwf₁ hs₁ hnext₁
    · exact tcp_answers hwf₂ hs₂ hnext₂

/-- A TCP socket by itself. -/
def tcp_alone : List Event := [.create_tcp, .connect 1 [⟨7, true⟩] true]

/-- The same socket beside another, whose read has given back its context. -/
def tcp_after_tcp : List Event := [
  .create_tcp,
  .create_tcp,
  .connect 1 [⟨7, true⟩] true,
  .connect 2 [⟨8, true⟩] true,
  .complete 1 { res := 1, data := [5] } true,
  .finish 1]

theorem tcp_requests_same_after_tcp : ∃ w₁ w₂ s,
    (machine .small).Reachable Machine.Any w₁ ∧ (machine .small).Reachable Machine.Any w₂ ∧
      w₁.sockets 1 = some s ∧ w₂.sockets 1 = some s ∧ w₁.pool = [] ∧ w₂.pool = [1] ∧
      w₁.tcp_targets .small 1 s = w₂.tcp_targets .small 1 s := by
  have hruns : ((machine .small).exec Machine.Any (machine .small).init tcp_after_tcp).any
      (fun w₂ => w₂.pool == [1] && decide w₂.next_is_tcp &&
        ((machine .small).exec Machine.Any (machine .small).init tcp_alone).any fun w₁ =>
          w₁.pool == [] && decide w₁.next_is_tcp && (w₁.sockets 1).any fun s =>
            decide (w₂.sockets 1 = some s)) = true := by decide +kernel
  simp only [Bool.and_eq_true, Option.any_eq_true, beq_iff_eq, decide_eq_true_eq] at hruns
  obtain ⟨w₂, hexec₂, ⟨hpool₂, hnext₂⟩, w₁, hexec₁, ⟨hpool₁, hnext₁⟩, s, hs₁, hs₂⟩ := hruns
  have hreach₁ : (machine .small).Reachable Machine.Any w₁ := Machine.run_of_exec hexec₁
  have hreach₂ : (machine .small).Reachable Machine.Any w₂ := Machine.run_of_exec hexec₂
  have hsame := (tcp_requests_same_iff hreach₁ hreach₂ hs₁ hs₂).mpr ⟨hnext₁, hnext₂⟩
  exact ⟨w₁, w₂, s, hreach₁, hreach₂, hs₁, hs₂, hpool₁, hpool₂, hsame.1⟩

/-- The same socket beside a UDP socket, whose receive has given back its context. -/
def tcp_after_udp : List Event := [
  .create_tcp,
  .create_udp,
  .connect 1 [⟨7, true⟩] true,
  .activate 2 8 true true,
  .complete 1 { res := 1, data := [5], peer := { sa_family := AF_INET } } true,
  .finish 1]

theorem tcp_request_tainted : ¬ ∀ w₁ w₂ s,
    (machine .small).Reachable Machine.Any w₁ → (machine .small).Reachable Machine.Any w₂ →
      w₁.sockets 1 = some s → w₂.sockets 1 = some s → s.socket_type = .tcp →
      w₁.tcp_targets .small 1 s = w₂.tcp_targets .small 1 s := by
  intro hall
  have hruns : ((machine .small).exec Machine.Any (machine .small).init tcp_after_udp).any
      (fun w₂ => ((machine .small).exec Machine.Any (machine .small).init tcp_alone).any fun w₁ =>
        (w₁.sockets 1).any fun s => decide (w₂.sockets 1 = some s) && s.socket_type == .tcp &&
          w₁.tcp_targets .small 1 s != w₂.tcp_targets .small 1 s) = true := by decide +kernel
  simp only [Bool.and_eq_true, Option.any_eq_true, beq_iff_eq, decide_eq_true_eq, bne_iff_ne] at hruns
  obtain ⟨w₂, hexec₂, w₁, hexec₁, s, hs₁, ⟨hs₂, htcp⟩, hdiffer⟩ := hruns
  exact hdiffer (hall w₁ w₂ s (Machine.run_of_exec hexec₁) (Machine.run_of_exec hexec₂) hs₁ hs₂ htcp)

end rioring
