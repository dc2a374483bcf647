import Rioring.Ownership

namespace rioring

open IoService

namespace World

theorem prepare_context (w : World) (c : ContextId) :
    (prepare w c).user_data = c ∧ (prepare w c).context = w.contexts c := by
  unfold prepare
  dsimp only
  split
  · split <;> exact ⟨rfl, rfl⟩
  · split
    · split <;> exact ⟨rfl, rfl⟩
    · exact ⟨rfl, rfl⟩
  · split
    · split <;> exact ⟨rfl, rfl⟩
    · exact ⟨rfl, rfl⟩
  · split
    · exact ⟨rfl, rfl⟩
    · split <;> exact ⟨rfl, rfl⟩
  · exact ⟨rfl, rfl⟩

/-- The entry written for a filled context is of the kind the context says. -/
theorem prepare_eq {w : World} {c : ContextId} {i : ObjectId}
    (hhandler : (w.contexts c).handler = some i) (hfilled : w.Filled i (w.contexts c)) :
    (prepare w c).user_data = c ∧ (prepare w c).context = w.contexts c ∧
      (prepare w c).opcode = (w.contexts c).opcode := by
  unfold Filled at hfilled
  unfold prepare IoContext.opcode to_socket_ptr to_tcp_server_ptr
  simp only [hhandler, Option.bind_some]
  cases htype : (w.contexts c).type with
  | unknown =>
    rw [htype] at hfilled
    cases hfilled
  | accept =>
    rw [htype] at hfilled
    obtain ⟨server, hserver⟩ := Option.isSome_iff_exists.mp hfilled
    simp only [hserver]
    exact ⟨trivial, trivial, trivial⟩
  | read =>
    rw [htype] at hfilled
    obtain ⟨s, hs⟩ := Option.isSome_iff_exists.mp hfilled.1
    simp only [hs]
    cases hctype : (w.contexts c).ctype <;> exact ⟨rfl, rfl, rfl⟩
  | write =>
    rw [htype] at hfilled
    obtain ⟨s, hs⟩ := Option.isSome_iff_exists.mp hfilled.1
    simp only [hs]
    cases hctype : (w.contexts c).ctype <;> exact ⟨rfl, rfl, rfl⟩
  | shutdown =>
    rw [htype] at hfilled
    cases hs : w.sockets i with
    | some s => exact ⟨rfl, rfl, rfl⟩
    | none =>
      rw [hs] at hfilled
      obtain ⟨server, hserver⟩ := Option.isSome_iff_exists.mp (hfilled.resolve_left (by simp))
      simp only [hserver]
      exact ⟨trivial, trivial, trivial⟩

/-- Submission of a context that nobody holds. -/
theorem Wf.submit {w : World} (hwf : w.Wf) {c : ContextId} {i : ObjectId} (hi : i < w.objects)
    (hfree : c ∉ w.held) (hlt : c < w.allocated) (hhandler : (w.contexts c).handler = some i)
    (hfilled : w.Filled i (w.contexts c)) (sqe : Bool) : (submit w c sqe).Wf := by
  obtain ⟨huser, hcontext, hopcode⟩ := prepare_eq hhandler hfilled
  unfold IoService.submit
  simp only [hhandler]
  cases sqe with
  | false => exact hwf.io_error hi EIO
  | true =>
    have hcustody : ({ w with inflight := w.inflight ++ [prepare w c] } : World).custody =
        w.custody.hand_out c := by
      simp [custody, Custody.hand_out, huser]
    have hsound := hwf.sound.hand_out hfree hlt
    rw [← hcustody] at hsound
    have hwf' : ({ w with inflight := w.inflight ++ [prepare w c] } : World).Wf := by
      refine ⟨hsound.nodup, hsound.made, ?_, ?_, hwf.separate, hwf.fresh, hwf.accepting⟩
      · intro r hr
        rcases List.mem_append.mp hr with hr | hr
        · exact hwf.contexts r hr
        · rw [List.mem_singleton.mp hr, huser, hcontext]
      · intro r hr
        rcases List.mem_append.mp hr with hr | hr
        · exact hwf.typed r hr
        · rw [List.mem_singleton.mp hr]
          exact ⟨i, by rw [hcontext, hhandler], by rw [hcontext]; exact hfilled,
            by rw [hopcode, hcontext]⟩
    rw [if_pos rfl]
    exact hwf'.record hi _

/-- Every submitter takes a context and fills it in for its own object. -/
theorem Wf.submit_context {w : World} (hwf : w.Wf) {i : ObjectId} (hi : i < w.objects)
    {fill : IoContext → IoContext} (hhandler : (fill (next_context w).2).handler = some i)
    (hfilled : w.Filled i (fill (next_context w).2)) (sqe : Bool) :
    (IoService.submit_context w fill sqe).Wf := by
  obtain ⟨htake, hfree, hlt⟩ := hwf.take_context fill
  unfold IoService.submit_context
  rw [take_context_eq] at htake hfree hlt ⊢
  refine htake.submit hi hfree hlt (by simpa using hhandler) ?_ sqe
  dsimp only
  rw [Function.update_self]
  exact hfilled

variable {w : World} {i : ObjectId} {s : SocketObject}

theorem Wf.submit_receiving (hwf : w.Wf) (hs : w.sockets i = some s) (p : Platform)
    (t : SocketObject) (sqe : Bool) : (t.submit_receiving p w i sqe).Wf := by
  unfold SocketObject.submit_receiving TcpSocket.submit_receiving UdpSocket.submit_receiving
  have hi : (w.sockets i).isSome := by simp [hs]
  split
  · exact hwf.submit_context (hwf.socket_lt hs) rfl (by exact ⟨hi, rfl⟩) sqe
  · exact hwf.submit_context (hwf.socket_lt hs) rfl (by exact ⟨hi, rfl⟩) sqe

theorem Wf.submit_sending (hwf : w.Wf) (hs : w.sockets i = some s) (t : SocketObject)
    (addr : SockAddr) (sqe : Bool) : (t.submit_sending w i addr sqe).Wf := by
  unfold SocketObject.submit_sending TcpSocket.submit_sending UdpSocket.submit_sending
  have hi : (w.sockets i).isSome := by simp [hs]
  split
  · exact hwf.submit_context (hwf.socket_lt hs) rfl (by exact ⟨hi, _, rfl⟩) sqe
  · dsimp only
    split
    · exact hwf.submit_context (hwf.socket_lt hs) rfl (by exact ⟨hi, _, rfl⟩) sqe
    · exact (hwf.take_context _).1

theorem Wf.submit_shutdown (hwf : w.Wf) (hs : w.sockets i = some s) (sqe : Bool) :
    (SocketObject.submit_shutdown w i sqe).Wf :=
  hwf.submit_context (hwf.socket_lt hs) rfl (by exact .inl (by simp [hs])) sqe

theorem Wf.submit_accept (hwf : w.Wf) (hi : (w.servers i).isSome) (sqe : Bool) :
    (TcpServer.submit_accept w i sqe).Wf := by
  obtain ⟨server, hserver⟩ := Option.isSome_iff_exists.mp hi
  exact hwf.submit_context (hwf.server_lt hserver) rfl (by exact hi) sqe

theorem Wf.stop (hwf : w.Wf) (hi : (w.servers i).isSome) (sqe : Bool) :
    (TcpServer.stop w i sqe).Wf := by
  obtain ⟨server, hserver⟩ := Option.isSome_iff_exists.mp hi
  exact hwf.submit_context (hwf.server_lt hserver) rfl (by exact .inr hi) sqe

end World

end rioring
