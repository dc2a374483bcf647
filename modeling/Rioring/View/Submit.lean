import Rioring.Ownership.Step
import Rioring.ServerView

namespace rioring

open IoService

namespace World

variable {w w' : World} {i j : ObjectId} {s t : SocketObject}

/-- The objects other than `i` are seen as before. -/
structure Local (i : ObjectId) (w w' : World) : Prop where
  sockets : ∀ j, j ≠ i → w'.sockets j = w.sockets j
  servers : ∀ j, j ≠ i → w'.servers j = w.servers j
  view_with : ∀ j t, j ≠ i → w'.view_with j t = w.view_with j t
  accepting : ∀ j, j ≠ i → w'.accepting j = w.accepting j

theorem Local.refl : Local i w w := ⟨fun _ _ => rfl, fun _ _ => rfl, fun _ _ _ => rfl, fun _ _ => rfl⟩

theorem Local.trans {w'' : World} (h : Local i w w') (h' : Local i w' w'') : Local i w w'' :=
  ⟨fun j hj => (h'.sockets j hj).trans (h.sockets j hj),
    fun j hj => (h'.servers j hj).trans (h.servers j hj),
    fun j t hj => (h'.view_with j t hj).trans (h.view_with j t hj),
    fun j hj => (h'.accepting j hj).trans (h.accepting j hj)⟩

theorem Local.view (h : Local i w w') (hj : j ≠ i) : w'.view j = w.view j := by
  unfold World.view
  rw [h.sockets j hj]
  cases hs : w.sockets j with
  | none => rfl
  | some t => exact congrArg some (h.view_with j t hj)

theorem Local.server_view (h : Local i w w') (hj : j ≠ i) : w'.server_view j = w.server_view j := by
  unfold World.server_view
  rw [h.servers j hj]
  cases hs : w.servers j with
  | none => rfl
  | some server =>
    have hview := h.view_with j { socket_type := .tcp } hj
    have hrequests := congrArg View.requests hview
    have hhistory := congrArg View.history hview
    simp only [World.view_with] at hrequests hhistory
    simp only [Option.map_some, server_view_with, hrequests, hhistory, h.accepting j hj]

theorem view_eq (hs : w.sockets i = some s) : w.view i = some (w.view_with i s) := by
  rw [view, hs, Option.map_some]

theorem view_with_set_socket : (w.set_socket i s).view_with j t = w.view_with j t := rfl

theorem local_set_socket : Local i w (w.set_socket i s) :=
  ⟨fun j hj => by simp [hj], fun _ _ => rfl, fun _ _ _ => rfl, fun _ _ => rfl⟩

theorem local_set_server (server : TcpServer) : Local i w (w.set_server i server) :=
  ⟨fun _ _ => rfl, fun j hj => by simp [hj], fun _ _ _ => rfl, fun _ _ => rfl⟩

theorem local_record (f : History → History) : Local i w (w.record i f) :=
  ⟨fun _ _ => rfl, fun _ _ => rfl, fun j t hj => by simp [view_with, hj], fun _ _ => rfl⟩

theorem local_open_descriptor (fd : Int) : Local i w (w.open_descriptor fd i) :=
  ⟨fun _ _ => rfl, fun _ _ => rfl, fun _ _ _ => rfl, fun _ _ => rfl⟩

theorem local_close_descriptor (fd : Int) : Local i w (w.close_descriptor fd i) :=
  ⟨fun _ _ => rfl, fun _ _ => rfl, (local_record _).view_with, fun _ _ => rfl⟩

theorem local_call (callback : Callback) : Local i w (w.call i callback) := local_record _

theorem local_io_error (code : Int) : Local i w (w.io_error i code) := by
  unfold io_error
  split
  · exact local_call _
  · exact .refl

theorem view_with_record (f : History → History) :
    (w.record i f).view_with i s = { w.view_with i s with history := f (w.view_with i s).history } := by
  simp [view_with]

theorem view_with_call (callback : Callback) :
    (w.call i callback).view_with i s = (w.view_with i s).call callback :=
  view_with_record _

theorem io_error_sockets (w : World) (i : ObjectId) (code : Int) :
    (w.io_error i code).sockets = w.sockets := by
  rw [io_error]
  split <;> rfl

theorem io_error_descriptors (w : World) (i : ObjectId) (code : Int) :
    (w.io_error i code).descriptors = w.descriptors := by
  rw [io_error]
  split <;> rfl

theorem view_with_io_error (hs : w.sockets i = some s) (code : Int) :
    (w.io_error i code).view_with i s = (w.view_with i s).error code := by
  unfold io_error has_error_event View.error
  rw [hs]
  change (if s.error_event = true then w.call i (.error code) else w).view_with i s =
    if s.error_event = true then (w.view_with i s).call (.error code) else w.view_with i s
  split
  · exact view_with_call _
  · rfl

/-- A region of the socket's own is loaded from the socket alone. -/
theorem load_eq (hs : w.sockets i = some s) {iov : Iovec} {generation : Nat}
    (hbase : iov.iov_base = .send_buffer i generation) (garbage : List UInt8) :
    w.load iov garbage = s.load i iov garbage := by
  unfold load SocketObject.load
  rw [hbase]
  dsimp only
  rw [hs]
  by_cases hgeneration : s.send_buffer.main_buffer.generation = generation
  · simp [hgeneration]
  · have hregion : Region.send_buffer i generation ≠
        .send_buffer i s.send_buffer.main_buffer.generation := by
      intro heq
      cases heq
      exact hgeneration rfl
    simp only [hgeneration, hregion, ↓reduceIte]

/-- The entry of a socket's own context depends on that socket alone. -/
theorem Wf.prepare_entry (hwf : w.Wf) (hs : w.sockets i = some s) {c : ContextId}
    (hhandler : (w.contexts c).handler = some i) (hfilled : w.Filled i (w.contexts c)) :
    prepare w c = s.entry i c (w.contexts c) := by
  have hserver : w.servers i = none := hwf.separate i s hs
  unfold Filled at hfilled
  unfold prepare SocketObject.entry IoContext.opcode to_socket_ptr to_tcp_server_ptr
  simp only [hhandler, Option.bind_some, hs]
  cases htype : (w.contexts c).type with
  | unknown =>
    rw [htype] at hfilled
    cases hfilled
  | accept =>
    rw [htype, hserver] at hfilled
    cases hfilled
  | read => cases hctype : (w.contexts c).ctype <;> simp
  | write =>
    rw [htype] at hfilled
    obtain ⟨_, generation, hbase⟩ := hfilled
    cases hctype : (w.contexts c).ctype <;> simp [load_eq hs hbase]
  | shutdown => simp

theorem local_submit {c : ContextId} (hhandler : (w.contexts c).handler = some i) (sqe : Bool) :
    Local i w (submit w c sqe) := by
  unfold submit
  simp only [hhandler]
  cases sqe with
  | false => exact local_io_error _
  | true =>
    have hpush : Local i w { w with inflight := w.inflight ++ [prepare w c] } := by
      refine ⟨fun _ _ => rfl, fun _ _ => rfl, fun j t hj => ?_, fun _ _ => rfl⟩
      have hne : some i ≠ some j := fun heq => hj (Option.some.inj heq).symm
      simp [view_with, (prepare_context w c).2, hhandler, hne]
    rw [if_pos rfl]
    exact hpush.trans (local_record _)

theorem Wf.submit_view (hwf : w.Wf) (hs : w.sockets i = some s) {c : ContextId}
    (hhandler : (w.contexts c).handler = some i) (hfilled : w.Filled i (w.contexts c)) (sqe : Bool) :
    (IoService.submit w c sqe).view_with i s =
      (w.view_with i s).submit c (w.contexts c) sqe := by
  have hentry := hwf.prepare_entry hs hhandler hfilled
  unfold IoService.submit
  simp only [hhandler]
  cases sqe with
  | false => exact view_with_io_error hs _
  | true =>
    rw [if_pos rfl, view_with_record]
    have hcontext : (s.entry i c (w.contexts c)).context.handler = some i := hhandler
    simp [view_with, View.submit, hentry, hcontext]

theorem local_submit_context {fill : IoContext → IoContext}
    (hhandler : (fill (next_context w).2).handler = some i) (sqe : Bool) :
    Local i w (submit_context w fill sqe) := by
  unfold submit_context
  rw [take_context_eq]
  dsimp only
  have htake : Local i w { w with
      contexts := Function.update w.contexts (next_context w).1 (fill (next_context w).2)
      pool := w.pool.tail
      allocated := if w.pool = [] then w.allocated + 1 else w.allocated } :=
    ⟨fun _ _ => rfl, fun _ _ => rfl, fun _ _ _ => rfl, fun _ _ => rfl⟩
  exact htake.trans (local_submit (by simpa using hhandler) sqe)

/-- A submission, as the socket that makes it sees it. -/
theorem Wf.submit_context_view (hwf : w.Wf) (hs : w.sockets i = some s)
    {fill : IoContext → IoContext} (hhandler : (fill (next_context w).2).handler = some i)
    (hfilled : w.Filled i (fill (next_context w).2)) (sqe : Bool) :
    (IoService.submit_context w fill sqe).view_with i s =
      (w.view_with i s).submit (next_context w).1 (fill (next_context w).2) sqe := by
  have htake := (hwf.take_context fill).1
  unfold IoService.submit_context
  rw [take_context_eq] at htake ⊢
  have hfill : Function.update w.contexts (next_context w).1 (fill (next_context w).2)
      (next_context w).1 = fill (next_context w).2 := Function.update_self ..
  have hview := htake.submit_view (c := (next_context w).1) hs (by simpa using hhandler)
    (by dsimp only; rw [hfill]; exact hfilled) sqe
  dsimp only at hview
  rw [hfill] at hview
  exact hview

/-- A submission, as the socket that makes it sees it. -/
theorem Wf.receiving_view (hwf : w.Wf) (hs : w.sockets i = some s) (p : Platform) {t : SocketObject}
    (htype : t.socket_type = s.socket_type) (sqe : Bool) :
    (w.view_with i s).Receives p sqe ((t.submit_receiving p w i sqe).view_with i s) := by
  have hi : (w.sockets i).isSome := by simp [hs]
  unfold SocketObject.submit_receiving
  split
  · rename_i htcp
    refine ⟨_, _, ?_, hwf.submit_context_view hs rfl (by exact ⟨hi, rfl⟩) sqe⟩
    refine ⟨rfl, rfl, rfl, fun hudp => ?_⟩
    cases htcp.symm.trans (htype.trans hudp)
  · refine ⟨_, _, ?_, hwf.submit_context_view hs rfl (by exact ⟨hi, rfl⟩) sqe⟩
    exact ⟨rfl, rfl, rfl, fun _ => rfl⟩

theorem Wf.sending_view (hwf : w.Wf) (hs : w.sockets i = some s) (addr : SockAddr) (sqe : Bool) :
    (w.view_with i s).Sends addr sqe ((s.submit_sending w i addr sqe).view_with i s) := by
  have hi : (w.sockets i).isSome := by simp [hs]
  unfold SocketObject.submit_sending
  split
  · rename_i htcp
    left
    refine ⟨_, _, ?_, hwf.submit_context_view hs rfl (by exact ⟨hi, _, rfl⟩) sqe⟩
    refine ⟨rfl, rfl, rfl, fun hudp => ?_⟩
    cases htcp.symm.trans hudp
  · rename_i hudp
    unfold UdpSocket.submit_sending
    dsimp only
    split
    · rename_i hlen
      left
      refine ⟨_, _, ?_, hwf.submit_context_view hs rfl (by exact ⟨hi, _, rfl⟩) sqe⟩
      refine ⟨rfl, rfl, rfl, fun _ => ⟨rfl, hlen, ?_, SockAddr.destination_copy _ _ hlen⟩⟩
      simp [SockAddr.copy, hlen]
    · rename_i hlen
      right
      rw [take_context_eq]
      exact ⟨hudp, not_not.mp hlen, rfl⟩

theorem Wf.shutdown_view (hwf : w.Wf) (hs : w.sockets i = some s) (sqe : Bool) :
    (w.view_with i s).Shuts sqe ((SocketObject.submit_shutdown w i sqe).view_with i s) :=
  ⟨_, _, ⟨rfl, rfl⟩, hwf.submit_context_view hs rfl (by exact .inl (by simp [hs])) sqe⟩

end World

end rioring
