import Rioring.Outbound.Storage
import Rioring.Tcp.Sending
import Rioring.View.Callbacks

namespace rioring

variable {p : Platform}

namespace Outbound

variable {o o' : Outbound} {a : Action}

/-- One connection. While it lasts the socket owes what it has accepted; after
    the end of its receive side the queue is gone, and what is still in flight
    comes next to what was written. -/
structure Once (o : Outbound) : Prop where
  single : o.writes.length ≤ 1
  live : o.connected_flag = true → o.Steady ∧ o.outbox.Ok
  ended : o.connected_flag = false → o.send_buffer.Unallocated ∧
    ∀ r ∈ o.writes, o.written ++ r.payload <+: o.accepted

theorem outbox_eq (htcp : o.socket_type = .tcp) : o.outbox = {
    accepted := o.accepted
    delivered := o.written
    queue := o.send_buffer.contents
    flight := o.writes.flatMap (·.payload) } := by
  rw [outbox, taken, htcp]

/-- A connection that is over, or has not begun, has no queue to submit from. -/
theorem Once.queues {bytes : Bytes} {addr : SockAddr} {sqe : Bool} (hvalid : o.send_buffer.Valid)
    (hnone : o.send_buffer.Unallocated) (h : Queues p o bytes addr sqe o') :
    bytes.val = [] ∧ o'.send_buffer = o.send_buffer ∧ o'.writes = o.writes ∧
      o'.written = o.written ∧ o'.accepted = o.accepted ∧ o'.connected_flag = o.connected_flag := by
  obtain ⟨send_buffer, hpush, hrest⟩ := h
  obtain ⟨hnil, rfl⟩ := IoDoubleBuffer.push_unallocated hvalid hnone bytes.property hpush
  refine ⟨hnil, ?_⟩
  rcases hrest with ⟨_, hsends⟩ | ⟨_, rfl⟩
  · obtain ⟨hsubmitted, hwrites⟩ := hsends.spec
    refine ⟨hsubmitted.send_buffer, ?_, hsubmitted.written, hsubmitted.accepted,
      hsubmitted.connected_flag⟩
    rcases hwrites with hsame | ⟨r, hr, hpayload, _⟩
    · exact hsame
    · have hmain : o.send_buffer.main_buffer.contents = [] := (List.append_eq_nil_iff.mp hnone.1).1
      exact absurd (hr.payload.trans hmain) hpayload
  · exact ⟨rfl, rfl, rfl, rfl, rfl⟩

/-- While the connection lasts. -/
theorem Once.move_live (hsound : o.Sound) (honce : o.Once) (htcp : o.socket_type = .tcp)
    (hflag : o.connected_flag = true) (hstart : ∀ sqe, a = .start sqe → o.activations = 0)
    (hmove : Move p o a o') : o'.Once := by
  obtain ⟨hsteady, hok⟩ := honce.live hflag
  have hnever : ∀ sqe, a ≠ .start sqe := by
    rintro sqe rfl
    rw [(hsound.inactive (hstart sqe rfl)).2.2.2.2] at hflag
    cases hflag
  by_cases hended : ∃ r res, a = .receive_ended r res
  · obtain ⟨r, res, rfl⟩ := hended
    cases hmove with
    | same _ _ _ h => exact absurd rfl (h r res)
    | receive_ended =>
      refine ⟨honce.single, fun h => ?_, fun _ => ⟨?_, fun r hr => ?_⟩⟩
      · simp [htcp] at h
      · exact IoDoubleBuffer.destroy_unallocated hsound.valid
      · rw [outbox_eq htcp] at hok
        obtain ⟨hconserved, hflight⟩ := hok
        have hall : o.writes = [r] := by
          obtain ⟨front, back, hwrites⟩ := List.append_of_mem hr
          exact (hsteady.completes ⟨front, back, hwrites, rfl⟩).1
        dsimp only at hconserved hflight ⊢
        rw [hall, List.flatMap_singleton] at hflight
        rw [← hconserved]
        exact (List.prefix_append_right_inj _).mpr hflight
  · have hnot : ∀ r res, a ≠ .receive_ended r res := fun r res h => hended ⟨r, res, h⟩
    have hsteady' := hsteady.move hsound hmove (fun sqe h => absurd h (hnever sqe))
      fun r res h => absurd h (hnot r res)
    have hok' := hok.steps (hmove.outbox hsound hsteady hstart hnot)
    refine ⟨hsteady'.single, fun _ => ⟨hsteady', hok'⟩, fun h => ?_⟩
    rw [hmove.socket_type.2.2 hnever hnot, hflag] at h
    cases h

/-- Before the connection, and after its end. -/
theorem Once.move_ended (hsound : o.Sound) (honce : o.Once) (htcp : o.socket_type = .tcp)
    (hflag : o.connected_flag = false) (hstart : ∀ sqe, a = .start sqe → o.activations = 0)
    (hmove : Move p o a o') : o'.Once := by
  obtain ⟨hnone, hrest⟩ := honce.ended hflag
  have hidle : ∀ o' : Outbound, o'.connected_flag = o.connected_flag →
      o'.send_buffer.Unallocated → o'.writes.length ≤ 1 →
      (∀ r ∈ o'.writes, o'.written ++ r.payload <+: o'.accepted) → o'.Once := by
    intro o' hsame hnone' hsingle hwrites
    refine ⟨hsingle, fun h => ?_, fun _ => ⟨hnone', hwrites⟩⟩
    rw [hsame, hflag] at h
    cases h
  cases hmove with
  | same => exact honce
  | start hassign =>
    rename_i send_buffer sqe
    obtain ⟨_, hwrites, haccepted, hwritten, _⟩ := hsound.inactive (hstart _ rfl)
    obtain ⟨_, hmain, _, hsub⟩ :=
      IoDoubleBuffer.assign_spec p.malloc_le hsound.valid p.data_buffer_size_pos hassign
    have hcontents : send_buffer.contents = [] := by
      rw [IoDoubleBuffer.contents, hmain, hsub, (List.append_eq_nil_iff.mp hnone.1).2]
      rfl
    refine ⟨honce.single, fun _ => ⟨.of_none hwrites, ?_⟩, fun h => ?_⟩
    · rw [outbox_eq (by exact htcp)]
      constructor
      · simp [haccepted, hwritten, hcontents]
      · simp [hwrites]
    · simp [htcp] at h
  | send addr htype hqueues =>
    obtain ⟨hnil, hbuffer, hwrites, hwritten, haccepted, hsame⟩ :=
      Once.queues (o := { o with accepted := o.accepted ++ _ }) hsound.valid hnone hqueues
    refine hidle o' hsame (by rw [hbuffer]; exact hnone) (by rw [hwrites]; exact honce.single) ?_
    rw [hwrites, hwritten, haccepted, hnil]
    simpa using hrest
  | send_to htype => cases htcp.symm.trans htype
  | close hempty =>
    rw [IoDoubleBuffer.empty, (hnone.empty hsound.valid).1, (hnone.empty hsound.valid).2] at hempty
    cases hempty
  | receive_ended =>
    refine hidle _ ?_ (IoDoubleBuffer.destroy_unallocated hsound.valid) honce.single hrest
    simp [hflag]
  | sent garbage addr haddr hcomplete hcount hle hpop ho₂ hsend =>
    rename_i o₁ r count sqe send_buffer o₂
    have hpopped : send_buffer.Unallocated := hpop ▸ pop_unallocated hsound.valid hnone count
    obtain ⟨hpopValid, _⟩ := IoDoubleBuffer.pop_spec hsound.valid count
    obtain ⟨hvalid, _⟩ := IoDoubleBuffer.elevate_spec hpopValid
    have hempty : send_buffer.empty = true := by
      obtain ⟨hmain, hsub⟩ := hpopped.empty (hpop ▸ hvalid)
      rw [IoDoubleBuffer.empty, hmain, hsub]
      rfl
    obtain ⟨front, back, hwrites, rfl⟩ := hcomplete
    have hnil : front ++ back = [] := by
      have hsingle := honce.single
      rw [hwrites, List.length_append, List.length_cons] at hsingle
      exact List.eq_nil_of_length_eq_zero (by simp only [List.length_append]; omega)
    rcases hsend with ⟨_, rfl⟩ | ⟨hkept, _⟩
    · rw [ho₂]
      exact hidle _ rfl hpopped (by simp [hnil]) (by simp [hnil])
    · rw [hempty] at hkept
      cases hkept
  | send_failed hpayload hcomplete =>
    obtain ⟨front, back, hwrites, rfl⟩ := hcomplete
    have hsingle := honce.single
    rw [hwrites, List.length_append, List.length_cons] at hsingle
    have hnil : front ++ back = [] :=
      List.eq_nil_of_length_eq_zero (by simp only [List.length_append]; omega)
    exact hidle _ rfl hnone (by simp [hnil]) (by simp [hnil])

theorem Once.move (hsound : o.Sound) (honce : o.Once) (htcp : o.socket_type = .tcp)
    (hstart : ∀ sqe, a = .start sqe → o.activations = 0) (hmove : Move p o a o') : o'.Once := by
  cases hflag : o.connected_flag with
  | true => exact honce.move_live hsound htcp hflag hstart hmove
  | false => exact honce.move_ended hsound htcp hflag hstart hmove

theorem Move.of_sent {r : Request} {count : Nat} {sqe : Bool} (hmove : Move p o (.sent r count sqe) o') :
    r ∈ o.writes ∧ count ≤ r.payload.length := by
  cases hmove with
  | same _ _ hsent => exact absurd rfl (hsent r count sqe)
  | sent garbage addr haddr hcomplete hcount hle =>
    obtain ⟨front, back, hwrites, _⟩ := hcomplete
    refine ⟨?_, hle⟩
    rw [hwrites]
    exact List.mem_append_right _ List.mem_cons_self

end Outbound

/-- A write that leaves an empty queue makes the event, and no other callback
    before an error. -/
theorem View.Move.send_complete {v v' : View} {r : Request} {count : Nat} {sqe : Bool}
    (hmove : v.Move p (.sent r count sqe) v') (hregistered : v.socket.send_complete_event = true)
    (hempty : ((v.socket.send_buffer.pop count).elevate).empty = true) :
    ∃ rest, v'.history.callbacks = v.history.callbacks ++ .send_complete :: rest := by
  cases hmove with
  | sent_more garbage htype hcomplete hcount hle hkept hsend =>
    rw [hempty] at hkept
    cases hkept
  | sent_all garbage htype hcomplete hcount hle hdrained hpopped hshut =>
    rename_i v₁ v₂
    have hcallbacks : v₂.history.callbacks = v.history.callbacks ++ [.send_complete] := by
      rw [hpopped, if_pos hregistered]
    split at hshut
    · obtain ⟨_, codes, hcodes⟩ := hshut.errs
      exact ⟨codes.map .error, by rw [hcodes, hcallbacks, List.append_assoc]; rfl⟩
    · exact ⟨[], by rw [hshut, hcallbacks]⟩

namespace World

variable {i : ObjectId} {w w' : World} {s : SocketObject} {c : ContextId} {cqe : Cqe} {sqe : Bool}
  {r : Request}

/-- What the kernel writes for the completion of a write. -/
theorem Wf.sent_written (hwf : w.Wf) (hs : w.sockets i = some s)
    (hfind : w.inflight.find? (·.user_data = c) = some r) (hi : r.context.handler = some i)
    (htype : r.context.type = .write) (hres : 0 < cqe.res)
    (hstep : w.step p (.complete c cqe sqe) = some w') :
    (w'.history i).written =
        (w.history i).written ++ (w.load r.context.iov cqe.data).take cqe.res.toNat ∧
      (w'.history i).accepted = (w.history i).accepted := by
  obtain ⟨r', hfind', hstep⟩ := Option.bind_eq_some_iff.mp hstep
  rw [hfind] at hfind'
  cases hfind'
  obtain ⟨hwf₁, hr, huser, hcontext, hfree⟩ := hwf.completed hfind
  obtain ⟨j, hj, hfilled, hopcode⟩ := hwf.typed r hr
  rw [hi] at hj
  cases hj
  rw [Filled, htype] at hfilled
  obtain ⟨_, generation, hbase⟩ := hfilled
  have hwf₂ := hwf₁.kernel (hwf.typed r hr) (huser ▸ hfree) cqe
  obtain ⟨_, hcontexts₂, hs₂, hview₂⟩ :=
    kernel_write (w := w.completed c) hs cqe htype hi hbase hopcode
  split at hstep
  · have hio := IoBuffer.toOption_eq_some_iff.mp hstep
    rw [IoService.io, hcontexts₂, show (w.completed c).contexts c = r.context from hcontext, htype, hi,
      to_socket_ptr, Option.bind_some, hs₂] at hio
    simp only [hres, ↓reduceIte] at hio
    cases hio
    obtain ⟨_, _, _, hsent⟩ := io_sent_view hwf₂ hs₂ cqe.res.toNat
      (IoService.current_sockaddr ((w.completed c).kernel r cqe) c) sqe rfl
    rw [hview₂] at hsent
    rw [load_eq hs hbase]
    split at hsent
    · obtain ⟨v₂, hv₂, hshuts⟩ := hsent
      split at hshuts
      · have hsame := hshuts.outbound
        rw [hv₂] at hsame
        exact ⟨congrArg Outbound.written hsame, congrArg Outbound.accepted hsame⟩
      · rw [hv₂] at hshuts
        exact ⟨congrArg (·.history.written) hshuts, congrArg (·.history.accepted) hshuts⟩
    · obtain ⟨hsubmitted, _⟩ := hsent.outbound.spec
      exact ⟨hsubmitted.written, hsubmitted.accepted⟩
  · cases hstep

/-- Bytes are sent by the completion of a write of the socket. -/
theorem action_sent {e : Event} {count : Nat} (haction : w.action i e = .sent r count sqe) :
    ∃ c cqe, e = .complete c cqe sqe ∧ w.inflight.find? (·.user_data = c) = some r ∧
      r.context.handler = some i ∧ r.context.type = .write ∧ 0 < cqe.res ∧ count = cqe.res.toNat := by
  cases e with
  | complete c cqe sqe =>
    rw [action] at haction
    cases hfind : w.inflight.find? (·.user_data = c) with
    | none =>
      rw [hfind] at haction
      cases haction
    | some r =>
      rw [hfind] at haction
      by_cases hi : r.context.handler = some i
      · simp only [hi, ↓reduceIte] at haction
        cases htype : r.context.type with
        | write =>
          rw [htype] at haction
          by_cases hres : 0 < cqe.res
          · simp only [hres, ↓reduceIte] at haction
            cases haction
            exact ⟨c, cqe, rfl, hfind, hi, htype, hres, rfl⟩
          · simp only [hres, ↓reduceIte] at haction
            cases haction
        | read =>
          rw [htype] at haction
          dsimp only at haction
          split at haction <;> cases haction
        | unknown | accept | shutdown =>
          rw [htype] at haction
          cases haction
      · simp only [hi, ↓reduceIte] at haction
        cases haction
  | _ =>
    simp only [action] at haction
    repeat' split at haction
    all_goals cases haction

/-- The write carries all that has not been written, and the kernel takes it
    whole, from storage that still holds it. -/
def TakesRest (w : World) (i : ObjectId) (r : Request) (cqe : Cqe) : Prop :=
  r.payload = (w.history i).accepted.drop (w.history i).written.length ∧
    cqe.res = r.payload.length ∧
    (w.load r.context.iov cqe.data).take r.payload.length = r.payload

/-- The completion of a write of bytes finds the receive side not ended, or no
    send-complete callback, or a write that takes the rest. -/
def ends_sending (i : ObjectId) (w : World) : Event → Prop
  | .complete c cqe sqe => ∀ s r count, w.sockets i = some s →
      w.action i (.complete c cqe sqe) = .sent r count sqe →
      s.connected_flag = true ∨ s.send_complete_event = false ∨ w.TakesRest i r cqe
  | _ => True

/-- A write takes the rest exactly when everything accepted is written with it. -/
theorem takes_rest_iff (hle : cqe.res.toNat ≤ r.payload.length) (hres : 0 < cqe.res)
    (hnext : (w.history i).written ++ r.payload <+: (w.history i).accepted) :
    (w.history i).written ++ (w.load r.context.iov cqe.data).take cqe.res.toNat =
      (w.history i).accepted ↔ w.TakesRest i r cqe := by
  obtain ⟨rest, hrest⟩ := hnext
  constructor
  · intro hall
    have hlength := congrArg List.length (hrest.trans hall.symm)
    have htaken : ((w.load r.context.iov cqe.data).take cqe.res.toNat).length ≤ cqe.res.toNat :=
      List.length_take_le ..
    simp only [List.length_append] at hlength
    have hnil : rest = [] := List.eq_nil_of_length_eq_zero (by omega)
    have hcount : cqe.res.toNat = r.payload.length := by omega
    rw [hnil, List.append_nil] at hrest
    refine ⟨?_, by omega, ?_⟩
    · rw [← hrest, List.drop_left]
    · rw [← hcount]
      exact List.append_cancel_left (hall.trans hrest.symm)
  · rintro ⟨hpayload, hcount, htake⟩
    have hwhole : cqe.res.toNat = r.payload.length := by omega
    rw [hwhole, htake, hpayload]
    have hprefix : (w.history i).written <+: (w.history i).accepted :=
      ⟨r.payload ++ rest, by rw [← hrest, List.append_assoc]⟩
    obtain ⟨after, hafter⟩ := hprefix
    rw [← hafter, List.drop_left]

end World

open World

variable {i : ObjectId} {w w' : World} {s : SocketObject}

theorem one_connection_once (hreach : (machine p).Reachable (permits i View.connected_once) w)
    (hs : w.sockets i = some s) (htcp : s.socket_type = .tcp) :
    (w.view_with i s).outbound.Sound ∧ (w.view_with i s).outbound.Once := by
  refine reachable_outbound_of_type (P := Outbound.Once) ?_ ?_ hreach hs htcp
  · intro v hfresh
    obtain ⟨_, hsteady, hok⟩ := hfresh.outbound
    refine ⟨hsteady.single, fun _ => ⟨hsteady, hok⟩, fun _ => ⟨?_, ?_⟩⟩
    · rw [show v.outbound.send_buffer = {} from hfresh.send_buffer]
      exact .default
    · simp [View.outbound, hfresh.requests]
  · intro v a o' htcp hsound honce hallowed hmove
    refine honce.move hsound htcp ?_ hmove
    rintro sqe rfl
    exact hallowed

/-- In every run of one connection the send-complete event tells the truth at a
    step exactly when the step meets the condition. -/
theorem send_complete_truthful_iff
    (hreach : (machine p).Reachable (permits i View.connected_once) w) (hs : w.sockets i = some s)
    (htcp : s.socket_type = .tcp) {e : Event} (hstep : (machine p).step w e = some w') :
    (.send_complete ∈ w.callbacks_since w' i → (w'.history i).written = (w'.history i).accepted) ↔
      w.ends_sending i e := by
  have hwf : w.Wf := Wf.reachable hreach
  obtain ⟨s', hs', hmove, happend, hcalled⟩ := hwf.callbacks_since hs hstep
  by_cases hsent : ∃ r count sqe, w.action i e = .sent r count sqe
  · obtain ⟨r, count, sqe, haction⟩ := hsent
    obtain ⟨c, cqe, rfl, hfind, hi, htype, hres, rfl⟩ := action_sent haction
    have hcondition : w.ends_sending i (.complete c cqe sqe) ↔
        s.connected_flag = true ∨ s.send_complete_event = false ∨ w.TakesRest i r cqe := by
      refine ⟨fun h => h s r _ hs haction, fun h t r' count ht haction' => ?_⟩
      rw [hs] at ht
      rw [haction] at haction'
      cases ht
      cases haction'
      exact h
    obtain ⟨hsound, honce⟩ := one_connection_once hreach hs htcp
    rw [haction] at hmove
    rw [hcondition]
    cases hflag : s.connected_flag with
    | true =>
      refine ⟨fun _ => .inl rfl, fun _ hmem => ?_⟩
      have hsound' := hsound.move hmove.outbound
      have honce' := honce.move hsound htcp (by simp) hmove.outbound
      obtain ⟨_, htcp', hflag'⟩ := hmove.outbound.socket_type
      obtain ⟨_, hok⟩ := honce'.live ((hflag' (by simp) (by simp)).trans hflag)
      have hempty : s'.send_buffer.contents = [] :=
        hsound'.valid.empty_iff.mp (hcalled _ hmem).2.2
      rw [Outbound.outbox_eq (htcp'.trans htcp)] at hok
      exact (hok.drained hempty).1
    | false =>
      cases hregistered : s.send_complete_event with
      | false =>
        refine ⟨fun _ => .inr (.inl rfl), fun _ hmem => ?_⟩
        have hmade : s.send_complete_event = true := (hcalled _ hmem).2.1
        rw [hregistered] at hmade
        cases hmade
      | true =>
        obtain ⟨hnone, hnext⟩ := honce.ended hflag
        have hpopped := Outbound.pop_unallocated hsound.valid hnone cqe.res.toNat
        have hempty : ((s.send_buffer.pop cqe.res.toNat).elevate).empty = true := by
          obtain ⟨hpopValid, _⟩ := IoDoubleBuffer.pop_spec hsound.valid cqe.res.toNat
          exact (IoDoubleBuffer.elevate_spec hpopValid).1.empty_iff.mpr hpopped.1
        have hmem : .send_complete ∈ w.callbacks_since w' i := by
          obtain ⟨rest, hrest⟩ := hmove.send_complete hregistered hempty
          have hsince := List.append_cancel_left (happend.symm.trans hrest)
          rw [hsince]
          exact List.mem_cons_self
        obtain ⟨hwritten, haccepted⟩ := hwf.sent_written hs hfind hi htype hres hstep
        obtain ⟨hwrite, hle⟩ := hmove.outbound.of_sent
        have hiff := takes_rest_iff hle hres (hnext r hwrite)
        rw [hwritten, haccepted]
        simp only [hmem, true_implies, Bool.false_eq_true, false_or, Bool.true_eq_false]
        exact hiff
  · refine ⟨fun _ => ?_, fun _ hmem => absurd (hcalled _ hmem).1 hsent⟩
    cases e with
    | complete c cqe sqe => exact fun s r count _ haction => absurd ⟨r, count, sqe, haction⟩ hsent
    | _ => trivial

/-- Five bytes are sent, and the kernel takes them all. -/
def whole_write : List Event := [
  .create_tcp,
  .set_event 1 .send_complete true,
  .connect 1 [⟨7, true⟩] true,
  .send 1 five_bytes,
  .send_locked 0 true]

theorem send_complete_truthful_whole_write : ∃ w w' s,
    (machine .small).Reachable (permits 1 View.connected_once) w ∧ w.sockets 1 = some s ∧
      s.socket_type = .tcp ∧ (machine .small).step w (.complete 1 { res := 5 } true) = some w' ∧
      (w.callbacks_since w' 1).length = 1 ∧
      ((.send_complete ∈ w.callbacks_since w' 1 →
          (w'.history 1).written = (w'.history 1).accepted) ↔
        w.ends_sending 1 (.complete 1 { res := 5 } true)) := by
  obtain ⟨w, hreach, hw⟩ := Machine.reachable_of_exec (machine .small)
    (permits 1 View.connected_once) whole_write
    (fun w => (w.sockets 1).any (·.socket_type == .tcp) &&
      ((machine .small).step w (.complete 1 { res := 5 } true)).any
        (fun w' => (w.callbacks_since w' 1).length == 1)) (by decide +kernel)
  simp only [Option.any_eq_true, Bool.and_eq_true, beq_iff_eq] at hw
  obtain ⟨⟨s, hs, htcp⟩, w', hstep, hmade⟩ := hw
  exact ⟨w, w', s, hreach, hs, htcp, hstep, hmade,
    send_complete_truthful_iff hreach hs htcp hstep⟩

/-- The end of the stream while five bytes are in flight, of which the kernel
    then takes two. -/
def end_before_write : List Event := whole_write ++ [.complete 0 { res := 0 } true]

theorem send_complete_untrue : ¬ ∀ w w' s e,
    (machine .small).Reachable (permits 1 View.connected_once) w → w.sockets 1 = some s →
      s.socket_type = .tcp → (machine .small).step w e = some w' →
      .send_complete ∈ w.callbacks_since w' 1 →
      (w'.history 1).written = (w'.history 1).accepted := by
  intro hall
  obtain ⟨w, hreach, hw⟩ := Machine.reachable_of_exec (machine .small)
    (permits 1 View.connected_once) end_before_write
    (fun w => (w.sockets 1).any (·.socket_type == .tcp) &&
      ((machine .small).step w (.complete 1 { res := 2 } true)).any
        (fun w' => decide (.send_complete ∈ w.callbacks_since w' 1) &&
          (w'.history 1).written != (w'.history 1).accepted)) (by decide +kernel)
  simp only [Option.any_eq_true, Bool.and_eq_true, beq_iff_eq, decide_eq_true_eq, bne_iff_ne] at hw
  obtain ⟨⟨s, hs, htcp⟩, w', hstep, hmade, huntrue⟩ := hw
  exact huntrue (hall w w' s _ hreach hs htcp hstep hmade)

end rioring
