import Rioring.Tcp.Sending

namespace rioring

open World

variable {p : Platform} {i : ObjectId} {w w' : World} {s : SocketObject}

namespace View

/-- One activation without a force close, during which the receive side does not
    end. -/
def graceful_connection (v : View) : Action → Prop
  | .start _ => v.history.activations = 0
  | .receive_ended _ _ => False
  | .close .force _ => False
  | _ => True

instance : DecidableRel graceful_connection := fun v a =>
  match a with
  | .start _ => inferInstanceAs (Decidable (v.history.activations = 0))
  | .receive_ended .. | .close .force _ => .isFalse id
  | .idle | .set_event | .send .. | .send_to .. | .close .graceful _ | .received .. | .sent .. |
    .send_failed .. | .shut_down .. | .pop .. => .isTrue trivial

theorem graceful_connection.one_connection {v : View} {a : Action} (h : v.graceful_connection a) :
    v.one_connection a := by
  cases a with
  | start => exact h
  | receive_ended => exact h
  | _ => trivial

/-- Only a force close submits a shutdown while bytes are queued. -/
theorem Move.shutdown_drained {v v' : View} {a : Action} (hmove : v.Move p a v')
    (hforce : ∀ sqe, a ≠ .close .force sqe) (hsubmits : v.submits a = some .shutdown) :
    v'.socket.send_buffer.empty = true := by
  have hmove := hmove.outbound
  cases a with
  | close type sqe =>
    cases type with
    | force => exact absurd rfl (hforce sqe)
    | graceful =>
      have hempty : v.socket.send_buffer.empty = true := by
        simp only [submits, Option.ite_none_right_eq_some, Bool.and_eq_true] at hsubmits
        exact hsubmits.1.2
      have hsame : v'.socket.send_buffer = v.socket.send_buffer := by
        generalize ho' : v'.outbound = o' at hmove
        cases hmove with
        | same => exact congrArg Outbound.send_buffer ho'
        | close => exact congrArg Outbound.send_buffer ho'
      rw [hsame, hempty]
  | sent r count sqe =>
    generalize ho' : v'.outbound = o' at hmove
    cases hmove with
    | same _ _ hsent => exact absurd rfl (hsent _ _ _)
    | sent garbage addr haddr hcomplete hcount hle hpop ho₂ hsend =>
      rename_i o₁ send_buffer o₂
      have hkind : send_buffer.empty = true := by
        rw [submits] at hsubmits
        rw [hpop]
        split at hsubmits
        · cases hsubmits
        · split at hsubmits
          · cases hsubmits
          · rename_i hempty
            change ((v.socket.send_buffer.pop count).elevate).empty = true
            simpa using hempty
      have hbuffer : o'.send_buffer = send_buffer := by
        rcases hsend with ⟨_, rfl⟩ | ⟨hempty, _⟩
        · rw [ho₂]
        · rw [hkind] at hempty
          cases hempty
      have hsame : v'.socket.send_buffer = o'.send_buffer := congrArg Outbound.send_buffer ho'
      rw [hsame, hbuffer, hkind]
  | start | received | send | send_to =>
    simp [submits] at hsubmits
  | _ => cases hsubmits

end View

/-- A graceful close flushes first: whenever a shutdown is submitted, all that
    was accepted has been written. -/
theorem graceful_close_flushes
    (hreach : (machine p).Reachable (permits i View.graceful_connection) w)
    (hs : w.sockets i = some s) (htcp : s.socket_type = .tcp) {e : Event}
    (hallowed : permits i View.graceful_connection w e) (hstep : (machine p).step w e = some w')
    {r : Request} (hr : r ∈ w.submitted_since w' i) (htype : r.context.type = .shutdown) :
    ∃ s', w'.sockets i = some s' ∧ s'.send_buffer.empty = true ∧ w'.writes i = [] ∧
      (w'.history i).written = (w'.history i).accepted := by
  have hmono : ∀ w e, permits i View.graceful_connection w e → permits i View.one_connection w e :=
    fun _ _ hok v hv => (hok v hv).one_connection
  have hreach' : (machine p).Reachable (permits i View.one_connection) w' :=
    .step (hreach.mono hmono) (hmono _ _ hallowed) hstep
  obtain ⟨s', hs', hmove, hsubmits, _⟩ := (Wf.reachable hreach).submitted_since hs hstep hr
  rw [htype] at hsubmits
  have hforce : ∀ sqe, w.action i e ≠ .close .force sqe := by
    intro sqe heq
    have hok := hallowed _ (view_eq hs)
    rw [heq] at hok
    exact hok
  have hempty : s'.send_buffer.empty = true := hmove.shutdown_drained hforce hsubmits
  obtain ⟨hsound, hsteady, hok⟩ := one_connection_outbound hreach' hs'
  have hnil : s'.send_buffer.contents = [] := hsound.valid.empty_iff.mp hempty
  refine ⟨s', hs', hempty, hsteady.none_of_empty hsound hnil, ?_⟩
  have htaken : (w'.view_with i s').outbound.taken = (w'.history i).accepted := by
    have htcp' : (w'.view_with i s').outbound.socket_type = .tcp :=
      hmove.outbound.socket_type.2.1.trans htcp
    rw [Outbound.taken, htcp']
    rfl
  rw [← htaken]
  exact (hok.drained hnil).1

/-- A close with bytes queued, and a `send` that passed its guard before it. -/
def close_while_sending : List Event := [
  .create_tcp,
  .connect 1 [⟨7, true⟩] true,
  .send 1 five_bytes,
  .send_locked 0 true,
  .send 1 ⟨[6, 7], by decide⟩,
  .complete 1 { res := 2 } true,
  .close 1 .graceful true,
  .send_locked 0 true,
  .complete 2 { res := 3 } true]

theorem graceful_close_flushes_while_sending : ∃ w w' r s',
    (machine .small).Reachable (permits 1 View.graceful_connection) w ∧
      (machine .small).step w (.complete 3 { res := 2 } true) = some w' ∧
      r ∈ w.submitted_since w' 1 ∧ r.context.type = .shutdown ∧
      w'.sockets 1 = some s' ∧ s'.send_buffer.empty = true ∧ w'.writes 1 = [] ∧
      (w'.history 1).written = (w'.history 1).accepted := by
  obtain ⟨w, hreach, hw⟩ := Machine.reachable_of_exec (machine .small)
    (permits 1 View.graceful_connection) close_while_sending
    (fun w => (w.sockets 1).any (·.socket_type == .tcp) &&
      decide (permits 1 View.graceful_connection w (.complete 3 { res := 2 } true)) &&
      ((machine .small).step w (.complete 3 { res := 2 } true)).any fun w' =>
        (w.submitted_since w' 1).any (·.context.type == .shutdown)) (by decide +kernel)
  simp only [Bool.and_eq_true, Option.any_eq_true, List.any_eq_true, beq_iff_eq, decide_eq_true_eq] at hw
  obtain ⟨⟨⟨s, hs, htcp⟩, hallowed⟩, w', hstep, r, hr, htype⟩ := hw
  obtain ⟨s', hs', hflushed⟩ := graceful_close_flushes hreach hs htcp hallowed hstep hr htype
  exact ⟨w, w', r, s', hreach, hstep, hr, htype, hs', hflushed⟩

/-- Once a graceful shutdown is pending, every later `send` is refused. -/
theorem pending_shutdown_rejects (hwf : w.Wf) (hs : w.sockets i = some s)
    (hpending : s.shutdown_gracefully = true) {w'' : World} (hrun : (machine p).Run Machine.Any w w'')
    {s'' : SocketObject} (hs'' : w''.sockets i = some s'') (bytes : Bytes) :
    TcpSocket.send w'' i s'' bytes = (false, w'') := by
  obtain ⟨v, hv, hkept⟩ := run_view (P := fun v => v.outbound.shutdown_gracefully = true)
    (fun _ _ _ hP _ hmove => hmove.outbound.stays_pending hP) hwf (permitted hrun) (view_eq hs)
    hpending
  rw [view_eq hs''] at hv
  cases hv
  exact if_pos hkept

/-- After a graceful close every `send` is refused and changes nothing exactly
    when bytes were queued at the close or an earlier close is pending. -/
theorem close_rejects_sends_iff (hreach : (machine p).Reachable Machine.Any w)
    (hs : w.sockets i = some s) (hconnected : s.connected_flag = true) {sqe : Bool}
    (hstep : (machine p).step w (.close i .graceful sqe) = some w') :
    (∀ w'' s'' bytes, (machine p).Run Machine.Any w' w'' → w''.sockets i = some s'' →
        TcpSocket.send w'' i s'' bytes = (false, w'')) ↔
      s.send_buffer.empty = false ∨ s.shutdown_gracefully = true := by
  have hwf : w.Wf := Wf.reachable hreach
  have hwf' : w'.Wf := Wf.step (p := p) (e := .close i .graceful sqe) hwf hstep
  have hclose : w' = s.close w i .graceful sqe := by
    obtain ⟨s₀, hs₀, hw'⟩ := Option.bind_eq_some_iff.mp hstep
    rw [hs] at hs₀
    cases hs₀
    exact (Option.some.inj hw').symm
  constructor
  · intro hall
    by_contra hnot
    obtain ⟨hempty, hpending⟩ := not_or.mp hnot
    rw [Bool.not_eq_false] at hempty
    rw [SocketObject.close, if_pos hempty] at hclose
    have hs' : w'.sockets i = some s := by
      rw [hclose, (SocketObject.submit_shutdown_submitted w i sqe).sockets, hs]
    have hsend := hall w' s ⟨[], by simp⟩ .refl hs'
    rw [TcpSocket.send, if_neg hpending, hconnected] at hsend
    cases congrArg Prod.fst hsend
  · intro hcase w'' s'' bytes hrun hs''
    cases hempty : s.send_buffer.empty with
    | false =>
      rw [SocketObject.close, if_neg (by simp [hempty])] at hclose
      exact pending_shutdown_rejects hwf' (by rw [hclose, set_socket_self]) rfl hrun hs'' bytes
    | true =>
      rw [SocketObject.close, if_pos hempty] at hclose
      have hs' : w'.sockets i = some s := by
        rw [hclose, (SocketObject.submit_shutdown_submitted w i sqe).sockets, hs]
      have hpending : s.shutdown_gracefully = true := by simpa [hempty] using hcase
      exact pending_shutdown_rejects hwf' hs' hpending hrun hs'' bytes

theorem close_rejects_sends_partial_write : ∃ w w',
    (machine .small).Reachable Machine.Any w ∧
      (machine .small).step w (.close 1 .graceful true) = some w' ∧
      ∀ w'' s'' bytes, (machine .small).Run Machine.Any w' w'' → w''.sockets 1 = some s'' →
        TcpSocket.send w'' 1 s'' bytes = (false, w'') := by
  obtain ⟨w, hreach, hw⟩ := Machine.reachable_of_exec (machine .small) Machine.Any partial_write
    (fun w => (w.sockets 1).any (fun s => s.connected_flag && !s.send_buffer.empty) &&
      ((machine .small).step w (.close 1 .graceful true)).isSome) (by decide +kernel)
  simp only [Bool.and_eq_true, Option.any_eq_true, Bool.not_eq_true', Option.isSome_iff_exists] at hw
  obtain ⟨⟨s, hs, hconnected, hempty⟩, w', hstep⟩ := hw
  exact ⟨w, w', hreach, hstep, (close_rejects_sends_iff hreach hs hconnected hstep).mpr (.inl hempty)⟩

def connected : List Event := [.create_tcp, .connect 1 [⟨7, true⟩] true]

/-- A close that finds nothing queued leaves the socket accepting. -/
theorem send_accepted_after_close : ¬ ∀ w w' s s' bytes,
    (machine .small).Reachable Machine.Any w → w.sockets 1 = some s → s.connected_flag = true →
      (machine .small).step w (.close 1 .graceful true) = some w' → w'.sockets 1 = some s' →
      (TcpSocket.send w' 1 s' bytes).1 = false := by
  intro hall
  obtain ⟨w, hreach, hw⟩ := Machine.reachable_of_exec (machine .small) Machine.Any connected
    (fun w => (w.sockets 1).any (·.connected_flag) &&
      ((machine .small).step w (.close 1 .graceful true)).any fun w' =>
        (w'.sockets 1).any fun s' => (TcpSocket.send w' 1 s' one_byte).1) (by decide +kernel)
  simp only [Bool.and_eq_true, Option.any_eq_true] at hw
  obtain ⟨⟨s, hs, hconnected⟩, w', hstep, s', hs', hsend⟩ := hw
  rw [hall w w' s s' _ hreach hs hconnected hstep hs'] at hsend
  cases hsend

end rioring
