import Rioring.Tcp.Reconnect
import Rioring.Windows.Stream

namespace rioring.Windows

theorem Sending.Move.of_start {p : Platform} {o o' : Sending} (hmove : Move p o .start o') :
    o'.writes = o.writes := by
  cases hmove
  rfl

namespace Process

variable {p : Platform} {sock : Option Nat} {w w' : Process}

/-- An earlier connection of the socket has ended: its close event has been
    delivered and its requests are completed. -/
structure Ended (w : Process) : Prop where
  activated : w.history.activations ≠ 0
  closed : w.socket.connected_flag = false
  completed : w.requests = []

/-- The connection lasts, and its sends take their turns. -/
def stays_connected (w : Process) (e : Event) : Prop := w.action e ≠ .start ∧ w.sends_alone e

/-- The send side of a newly connected socket. A write carries the first bytes
    of what is queued, at most `RIORING_DATA_BUFFER_SIZE` of them. -/
structure StartsClean (p : Platform) (sock : Option Nat) (w : Process) : Prop where
  shutdown_gracefully : w.socket.shutdown_gracefully = false
  main_buffer : w.socket.send_buffer.main_buffer.contents = []
  sub_buffer : w.socket.send_buffer.sub_buffer.contents = []
  accepts : ∀ bytes : Bytes, (TcpSocket.send w bytes).1 = true
  submits : ∀ (bytes : Bytes) (index : Nat) (w' : Process),
    (TcpSocket.send w bytes).2.sends[index]? = some bytes →
    (machine p sock).step (TcpSocket.send w bytes).2 (.send_locked index true) = some w' →
    ∃ ctx, w'.requests = w.requests ++ [ctx] ∧ ctx.type = .write ∧
      ctx.payload = bytes.val.take p.data_buffer_size
  stream : ∀ w', (machine p sock).Run stays_connected w w' → ∃ accepted transmitted,
    w'.history.accepted = w.history.accepted ++ accepted ∧
    w'.history.transmitted = w.history.transmitted ++ transmitted ∧
    transmitted ++ w'.socket.send_buffer.main_buffer.contents ++
      w'.socket.send_buffer.sub_buffer.contents = accepted

theorem stored_of_reachable (hreach : (machine p sock).Reachable Machine.Any w) :
    w.sending.Stored p := by
  refine Machine.Run.invariant (P := fun w => w.sending.Stored p) hreach ?_ ?_
  · exact ⟨.default, List.length_replicate⟩
  · intro w e w' _ hstored _ hstep
    exact hstored.move (step_move hstep)

/-- What `on_active` does to the process. -/
theorem on_active_ok {failure : Option Int} {rio : Bool}
    (hactive : TcpSocket.on_active p w failure rio = .ok w') :
    ∃ send_buffer, w.socket.send_buffer.assign p.malloc p.data_buffer_size = .ok send_buffer ∧
      w'.socket.send_buffer = send_buffer ∧ w'.socket.connected_flag = true ∧
      w'.socket.shutdown_gracefully = w.socket.shutdown_gracefully := by
  unfold TcpSocket.on_active at hactive
  rw [IoBuffer.bind_eq_ok_iff] at hactive
  obtain ⟨recv_buffer, _, hactive⟩ := hactive
  rw [IoBuffer.bind_eq_ok_iff] at hactive
  obtain ⟨send_buffer, hassign, hactive⟩ := hactive
  cases hactive
  have hsubmit : ∀ w : Process, (TcpSocket.submit_receiving p w rio).socket = w.socket := by
    intro w
    cases rio <;> rfl
  rw [hsubmit]
  refine ⟨send_buffer, hassign, ?_⟩
  cases failure with
  | none => exact ⟨rfl, rfl, rfl⟩
  | some code =>
    simp only [io_error]
    split <;> exact ⟨rfl, rfl, rfl⟩

/-- The sending side after a `connect` that returns true on a socket without
    requests in flight. -/
theorem connect_sending (hstored : w.sending.Stored p) (hended : w.Ended)
    {addresses : List TcpSocket.Attempt} {failure : Option Int} {rio : Bool}
    (hconnect : TcpSocket.connect p w addresses failure rio = .ok (true, w')) :
    w'.sending.Stored p ∧ w'.writes = [] ∧ w'.socket.connected_flag = true ∧
      w'.socket.shutdown_gracefully = w.socket.shutdown_gracefully ∧
      w'.socket.send_buffer.main_buffer.contents = [] ∧
      w'.socket.send_buffer.sub_buffer = w.socket.send_buffer.sub_buffer := by
  obtain ⟨handler, ⟨hreturned, _⟩ | ⟨_, _, hactive⟩⟩ := connect_eq hconnect
  · cases hreturned
  · have hmove := on_active_move hactive rfl
    have hwrites : w'.writes = w.writes := hmove.of_start
    obtain ⟨send_buffer, hassign, hbuffer, hflag, hgraceful⟩ := on_active_ok hactive
    obtain ⟨_, hmain, _, hsub⟩ :=
      IoDoubleBuffer.assign_spec p.malloc_le hstored.valid p.data_buffer_size_pos hassign
    refine ⟨hstored.move hmove, ?_, hflag, hgraceful, hbuffer ▸ hmain, hbuffer ▸ hsub⟩
    rw [hwrites, writes, hended.completed]
    rfl

/-- The locked body of a send that finds nothing queued submits its bytes. -/
theorem submits_first (hstored : w.sending.Stored p) (hnone : w.socket.send_buffer.contents = [])
    {bytes : Bytes} {index : Nat} (hindex : w.sends[index]? = some bytes)
    (hstep : w.step p (.send_locked index true) = some w') :
    ∃ ctx, w'.requests = w.requests ++ [ctx] ∧ ctx.type = .write ∧
      ctx.payload = bytes.val.take p.data_buffer_size := by
  rw [step, hindex, Option.bind_eq_bind, Option.bind_some, IoBuffer.toOption_eq_some_iff] at hstep
  have hempty : w.socket.send_buffer.empty = true := hstored.valid.empty_iff.mpr hnone
  unfold TcpSocket.send_locked at hstep
  rw [if_pos hempty, IoBuffer.bind_eq_ok_iff] at hstep
  obtain ⟨send_buffer, hpush, hstep⟩ := hstep
  cases hstep
  have hpushed := IoDoubleBuffer.push_spec p.malloc_le hstored.valid bytes.property hpush
  have hstored' : ({ w.sending with send_buffer } : Sending).Stored p := ⟨hpushed.valid, hstored.room⟩
  obtain ⟨_, hpayload, _⟩ := hstored'.next_write
  refine ⟨({ w.sending with send_buffer } : Sending).next_write p, rfl, rfl, ?_⟩
  rw [hpayload]
  exact congrArg (·.take p.data_buffer_size) (hpushed.main_takes hnone)

/-- From a moment on at which nothing is queued or in flight, what is
    transmitted and what is queued is what has been accepted since. -/
theorem stream_since (hstored : w.sending.Stored p) (hwrites : w.writes = [])
    (hnone : w.socket.send_buffer.contents = []) (hrun : (machine p sock).Run stays_connected w w') :
    ∃ accepted transmitted, w'.history.accepted = w.history.accepted ++ accepted ∧
      w'.history.transmitted = w.history.transmitted ++ transmitted ∧
      transmitted ++ w'.socket.send_buffer.main_buffer.contents ++
        w'.socket.send_buffer.sub_buffer.contents = accepted := by
  have hkept : w'.sending.Sound p ∧ Outbox.Steps w.sending.outbox w'.sending.outbox := by
    refine Machine.Run.invariant (P := fun w' => w'.sending.Sound p ∧
      Outbox.Steps w.sending.outbox w'.sending.outbox) hrun ?_ ?_
    · exact ⟨.of_none hstored.valid hstored.room hwrites, .refl⟩
    · rintro w₁ e w₂ _ ⟨hsound, hsteps⟩ ⟨hstart, halone⟩ hstep
      have hmove := step_move hstep
      refine ⟨hsound.move hmove halone fun h => absurd h hstart, hsteps.trans ?_⟩
      exact hmove.outbox hsound halone fun h => absurd h hstart
  have hflight : w.sending.outbox.flight = [] := by
    simp [Sending.outbox, sending, hwrites]
  obtain ⟨accepted, transmitted, haccepted, htransmitted, hstream⟩ := hkept.2.since hnone hflight
  refine ⟨accepted, transmitted, haccepted, htransmitted, ?_⟩
  rw [List.append_assoc]
  exact hstream

/-- A new connection of a socket starts clean exactly if no graceful shutdown of
    an earlier one is pending and nothing is left in `sub_buffer`. -/
theorem starts_clean_iff (hreach : (machine p sock).Reachable Machine.Any w) (hended : w.Ended)
    {addresses : List TcpSocket.Attempt} {failure : Option Int} {rio : Bool}
    (hconnect : TcpSocket.connect p w addresses failure rio = .ok (true, w')) :
    w'.StartsClean p sock ↔ w.socket.shutdown_gracefully = false ∧
      w.socket.send_buffer.sub_buffer.contents = [] := by
  obtain ⟨hstored, hwrites, hflag, hgraceful, hmain, hsub⟩ :=
    connect_sending (stored_of_reachable hreach) hended hconnect
  constructor
  · intro hclean
    exact ⟨hgraceful ▸ hclean.shutdown_gracefully, hsub ▸ hclean.sub_buffer⟩
  · rintro ⟨hopen, hempty⟩
    rw [← hgraceful] at hopen
    rw [← hsub] at hempty
    have hnone : w'.socket.send_buffer.contents = [] := List.append_eq_nil_iff.mpr ⟨hmain, hempty⟩
    have hsend : ∀ bytes, TcpSocket.send w' bytes =
        (true, { w' with sends := w'.sends ++ [bytes] }) := by
      intro bytes
      simp [TcpSocket.send, hopen, hflag]
    refine ⟨hopen, hmain, hempty, fun bytes => by rw [hsend], ?_, ?_⟩
    · intro bytes index w'' hindex hstep
      rw [hsend] at hindex hstep
      exact submits_first (w := { w' with sends := w'.sends ++ [bytes] }) hstored hnone hindex hstep
    · intro w'' hrun
      exact stream_since hstored hwrites hnone hrun

/-- A graceful close finds nothing queued. -/
def closes_drained (w : Process) : Event → Prop
  | .close .graceful => w.socket.send_buffer.empty = true
  | _ => True

/-- A graceful shutdown is set pending only by a close that finds bytes queued. -/
theorem step_stays_open {e : Event} (hstep : w.step p e = some w')
    (hopen : w.socket.shutdown_gracefully = false) (hdrained : w.closes_drained e) :
    w'.socket.shutdown_gracefully = false := by
  have hreceive : ∀ (w : Process) (rio : Bool),
      (TcpSocket.submit_receiving p w rio).socket = w.socket := by
    intro w rio
    cases rio <;> rfl
  have hsend : ∀ (w : Process) (rio : Bool),
      (TcpSocket.submit_sending p w rio).socket.shutdown_gracefully = w.socket.shutdown_gracefully := by
    intro w rio
    cases rio <;> rfl
  cases e with
  | set_event slot registered => cases slot <;> cases hstep <;> exact hopen
  | connect addresses failure rio =>
    rw [step, IoBuffer.toOption_eq_some_iff, IoBuffer.map_eq_ok_iff] at hstep
    obtain ⟨⟨returned, w₁⟩, hconnect, rfl⟩ := hstep
    obtain ⟨handler, ⟨_, _, rfl⟩ | ⟨_, _, hactive⟩⟩ := connect_eq hconnect
    · exact hopen
    · obtain ⟨_, _, _, _, hgraceful⟩ := on_active_ok hactive
      exact hgraceful.trans hopen
  | accepted failure rio =>
    rw [step] at hstep
    split at hstep
    · rw [IoBuffer.toOption_eq_some_iff] at hstep
      obtain ⟨_, _, _, _, hgraceful⟩ := on_active_ok hstep
      exact hgraceful.trans hopen
    · cases hstep
  | send bytes =>
    cases hstep
    rw [TcpSocket.send, if_neg (by simp [hopen])]
    split <;> exact hopen
  | send_locked index rio =>
    obtain ⟨bytes, _, hlocked⟩ := Option.bind_eq_some_iff.mp hstep
    rw [IoBuffer.toOption_eq_some_iff] at hlocked
    unfold TcpSocket.send_locked at hlocked
    dsimp only at hlocked
    split at hlocked
    · rw [IoBuffer.bind_eq_ok_iff] at hlocked
      obtain ⟨send_buffer, _, hlocked⟩ := hlocked
      cases hlocked
      rw [hsend]
      exact hopen
    · rw [IoBuffer.bind_eq_ok_iff] at hlocked
      obtain ⟨send_buffer, _, hlocked⟩ := hlocked
      cases hlocked
      exact hopen
  | close type =>
    cases hstep
    cases type with
    | graceful =>
      have hempty : w.socket.send_buffer.empty = true := hdrained
      rw [TcpSocket.close, if_pos hempty]
      exact hopen
    | force => exact hopen
  | pop size =>
    cases hstep
    exact hopen
  | complete index bytes data rio =>
    obtain ⟨ctx, _, hcomplete⟩ := Option.bind_eq_some_iff.mp hstep
    split at hcomplete
    · rw [IoBuffer.toOption_eq_some_iff] at hcomplete
      cases htype : ctx.type with
      | read =>
        simp only [io, kernel, htype] at hcomplete
        split at hcomplete
        · cases hcomplete
          unfold TcpSocket.io_shutdown
          dsimp only
          split <;> split <;> exact hopen
        · unfold TcpSocket.io_received at hcomplete
          rw [IoBuffer.bind_eq_ok_iff] at hcomplete
          obtain ⟨recv_buffer, _, hcomplete⟩ := hcomplete
          cases hcomplete
          split
          · rw [call, hreceive]
            exact hopen
          · rw [hreceive]
            exact hopen
      | write =>
        simp only [io, kernel, htype] at hcomplete
        cases hcomplete
        unfold TcpSocket.io_sent
        dsimp only
        split
        · rw [hsend]
          exact hopen
        · unfold TcpSocket.on_send_complete
          split <;> split <;> exact hopen
      | unknown =>
        simp only [io, kernel, htype] at hcomplete
        cases hcomplete
        exact hopen
    · cases hcomplete

theorem drained_stays_open (hreach : (machine p sock).Reachable closes_drained w) :
    w.socket.shutdown_gracefully = false := by
  refine Machine.Run.invariant (P := fun w => w.socket.shutdown_gracefully = false) hreach rfl ?_
  intro w e w' _ hopen hdrained hstep
  exact step_stays_open hstep hopen hdrained

end Process

/-- A socket whose connection has ended starts clean when it is connected again
    exactly if no graceful shutdown is pending and, where `on_shutdown` does not
    destroy the buffers, `sub_buffer` is empty. None is pending in a run whose
    graceful closes find nothing queued. -/
theorem reused_socket_starts_clean (p : Platform) (i : ObjectId) (sock : Option Nat) :
    (∀ (w w' : World) (s s' : SocketObject) (addresses : List rioring.TcpSocket.Attempt) (sqe : Bool),
      (rioring.machine p).Reachable Machine.Any w → w.sockets i = some s → s.socket_type = .tcp →
      w.Ended i s → rioring.TcpSocket.connect p w i s addresses sqe = some (true, w') →
      w'.sockets i = some s' →
        (w'.StartsClean p i s' ↔ s.shutdown_gracefully = false) ∧
        ((rioring.machine p).Reachable (World.permits i View.closes_drained) w →
          w'.StartsClean p i s')) ∧
    ∀ (w w' : Process) (addresses : List TcpSocket.Attempt) (failure : Option Int) (rio : Bool),
      (machine p sock).Reachable Machine.Any w → w.Ended →
      TcpSocket.connect p w addresses failure rio = .ok (true, w') →
        (w'.StartsClean p sock ↔ w.socket.shutdown_gracefully = false ∧
          w.socket.send_buffer.sub_buffer.contents = []) ∧
        ((machine p sock).Reachable Process.closes_drained w →
          (w'.StartsClean p sock ↔ w.socket.send_buffer.sub_buffer.contents = [])) := by
  constructor
  · intro w w' s s' addresses sqe hreach hs htcp hended hconnect hs'
    have hclean := World.starts_clean_iff hreach hs htcp hended hconnect hs'
    exact ⟨hclean, fun hdrained => hclean.mpr (World.drained_stays_open hdrained hs)⟩
  · intro w w' addresses failure rio hreach hended hconnect
    have hclean := Process.starts_clean_iff hreach hended hconnect
    refine ⟨hclean, fun hdrained => hclean.trans ?_⟩
    exact and_iff_right (Process.drained_stays_open hdrained)

/-- The peer ends the connection. -/
def ended_by_peer : List rioring.Event := [
  .create_tcp,
  .connect 1 [⟨7, true⟩] true,
  .complete 0 { res := 0 } true,
  .finish 0]

theorem reused_socket_starts_clean_after_peer :
    (∃ (w w' : World) (s' : SocketObject),
      (rioring.machine .small).Reachable (World.permits 1 View.closes_drained) w ∧
      (w.history 1).activations = 1 ∧ w'.sockets 1 = some s' ∧ w'.StartsClean .small 1 s') ∧
    ∃ w w' : Process, (machine .small none).Reachable Machine.Any w ∧ w.history.activations = 1 ∧
      w'.StartsClean .small none := by
  constructor
  · obtain ⟨w, hreach, hw⟩ := Machine.reachable_of_exec (rioring.machine .small)
      (World.permits 1 View.closes_drained) ended_by_peer
      (fun w => (w.history 1).activations == 1 && w.inflight.isEmpty && w.handling.isEmpty &&
        (w.sockets 1).any fun s => s.socket_type == .tcp && !s.connected_flag &&
          (rioring.TcpSocket.connect .small w 1 s [⟨8, true⟩] true).any fun r =>
            r.1 && (r.2.sockets 1).isSome) (by decide +kernel)
    simp only [Bool.and_eq_true, Option.any_eq_true, beq_iff_eq, List.isEmpty_iff, Bool.not_eq_true',
      Option.isSome_iff_exists] at hw
    obtain ⟨⟨⟨hactive, hinflight⟩, hhandling⟩, s, hs, ⟨htcp, hflag⟩, ⟨returned, w'⟩, hconnect, rfl,
      s', hs'⟩ := hw
    have hended : w.Ended 1 s := by
      refine ⟨by simp [hactive], hflag, ?_, ?_⟩
      · simp [hinflight]
      · simp [hhandling]
    exact ⟨w, w', s', hreach, hactive, hs', ((reused_socket_starts_clean .small 1 none).1 w w' s s'
      [⟨8, true⟩] true hreach.any hs htcp hended hconnect hs').2 hreach⟩
  · obtain ⟨w, hreach, hw⟩ := Machine.reachable_of_exec (machine .small none) Machine.Any
      [.connect [⟨some 6, true⟩] none true, .complete 0 0 [] true]
      (fun w => w.history.activations == 1 && w.requests.isEmpty && !w.socket.connected_flag &&
        !w.socket.shutdown_gracefully && w.socket.send_buffer.sub_buffer.contents.isEmpty &&
        (TcpSocket.connect .small w [⟨some 8, true⟩] none true).toOption.any (·.1)) (by decide +kernel)
    simp only [Bool.and_eq_true, Option.any_eq_true, beq_iff_eq, List.isEmpty_iff, Bool.not_eq_true'] at hw
    obtain ⟨⟨⟨⟨⟨hactive, hrequests⟩, hflag⟩, hopen⟩, hsub⟩, ⟨returned, w'⟩, hconnect, rfl⟩ := hw
    have hended : w.Ended := ⟨by simp [hactive], hflag, hrequests⟩
    exact ⟨w, w', hreach, hactive, ((reused_socket_starts_clean .small 1 none).2 w w' [⟨some 8, true⟩] none
      true hreach hended (IoBuffer.toOption_eq_some_iff.mp hconnect)).1.mpr ⟨hopen, hsub⟩⟩

/-- A graceful close behind a queued byte, and then the connection is reset. -/
def reset_while_closing : List rioring.Event := [
  .create_tcp,
  .connect 1 [⟨7, true⟩] true,
  .send 1 one_byte,
  .send_locked 0 true,
  .close 1 .graceful true,
  .complete 0 { res := -104 } true,
  .finish 0,
  .complete 1 { res := -32 } true,
  .finish 1]

/-- The peer ends a connection with bytes in `sub_buffer`. -/
def ended_while_queued : List Event := [
  .connect [⟨some 6, true⟩] none true,
  .send five_bytes,
  .send_locked 0 true,
  .send five_bytes,
  .send_locked 0 true,
  .complete 0 0 [] true,
  .complete 0 0 [] false]

theorem reused_socket_not_clean :
    (¬ ∀ (p : Platform) (i : ObjectId) (w w' : World) (s s' : SocketObject)
        (addresses : List rioring.TcpSocket.Attempt) (sqe : Bool),
      (rioring.machine p).Reachable Machine.Any w → w.sockets i = some s → s.socket_type = .tcp →
      w.Ended i s → rioring.TcpSocket.connect p w i s addresses sqe = some (true, w') →
      w'.sockets i = some s' → s'.shutdown_gracefully = false) ∧
    ¬ ∀ (p : Platform) (sock : Option Nat) (w w' : Process) (addresses : List TcpSocket.Attempt)
        (failure : Option Int) (rio : Bool),
      (machine p sock).Reachable Machine.Any w → w.Ended →
      TcpSocket.connect p w addresses failure rio = .ok (true, w') →
        w'.socket.send_buffer.sub_buffer.contents = [] := by
  constructor
  · intro hall
    obtain ⟨w, hreach, hw⟩ := Machine.reachable_of_exec (rioring.machine .small) Machine.Any
      reset_while_closing
      (fun w => (w.history 1).activations == 1 && w.inflight.isEmpty && w.handling.isEmpty &&
        (w.sockets 1).any fun s => s.socket_type == .tcp && !s.connected_flag &&
          (rioring.TcpSocket.connect .small w 1 s [⟨8, true⟩] true).any fun r =>
            r.1 && (r.2.sockets 1).any (·.shutdown_gracefully)) (by decide +kernel)
    simp only [Bool.and_eq_true, Option.any_eq_true, beq_iff_eq, List.isEmpty_iff, Bool.not_eq_true'] at hw
    obtain ⟨⟨⟨hactive, hinflight⟩, hhandling⟩, s, hs, ⟨htcp, hflag⟩, ⟨returned, w'⟩, hconnect, rfl, s', hs',
      hpending⟩ := hw
    have hended : w.Ended 1 s := by
      refine ⟨by simp [hactive], hflag, ?_, ?_⟩
      · simp [hinflight]
      · simp [hhandling]
    have hopen := hall .small 1 w w' s s' [⟨8, true⟩] true hreach hs htcp hended hconnect hs'
    rw [hpending] at hopen
    cases hopen
  · intro hall
    obtain ⟨w, hreach, hw⟩ := Machine.reachable_of_exec (machine .small none) Machine.Any
      ended_while_queued
      (fun w => w.history.activations == 1 && w.requests.isEmpty && !w.socket.connected_flag &&
        (TcpSocket.connect .small w [⟨some 8, true⟩] none true).toOption.any fun r =>
          r.1 && !r.2.socket.send_buffer.sub_buffer.contents.isEmpty) (by decide +kernel)
    simp only [Bool.and_eq_true, Option.any_eq_true, beq_iff_eq, List.isEmpty_iff, Bool.not_eq_true'] at hw
    obtain ⟨⟨⟨hactive, hrequests⟩, hflag⟩, ⟨returned, w'⟩, hconnect, rfl, hqueued⟩ := hw
    have hended : w.Ended := ⟨by simp [hactive], hflag, hrequests⟩
    have hempty := hall .small none w w' [⟨some 8, true⟩] none true hreach hended
      (IoBuffer.toOption_eq_some_iff.mp hconnect)
    simp [hempty] at hqueued

end rioring.Windows
