import Rioring.Outbound.Run

namespace rioring

namespace View

/-- A socket is activated at most once. -/
def connected_once (v : View) : Action → Prop
  | .start _ => v.history.activations = 0
  | _ => True

/-- One activation, during which the receive side does not end. -/
def one_connection (v : View) : Action → Prop
  | .start _ => v.history.activations = 0
  | .receive_ended _ _ => False
  | _ => True

instance : DecidableRel connected_once := fun v a =>
  match a with
  | .start _ => inferInstanceAs (Decidable (v.history.activations = 0))
  | .idle | .set_event | .send .. | .send_to .. | .close .. | .received .. | .receive_ended .. |
    .sent .. | .send_failed .. | .shut_down .. | .pop .. => .isTrue trivial

instance : DecidableRel one_connection := fun v a =>
  match a with
  | .start _ => inferInstanceAs (Decidable (v.history.activations = 0))
  | .receive_ended .. => .isFalse id
  | .idle | .set_event | .send .. | .send_to .. | .close .. | .received .. | .sent .. |
    .send_failed .. | .shut_down .. | .pop .. => .isTrue trivial

end View

namespace World

/-- The non-empty writes of a socket in flight. -/
def writes (w : World) (i : ObjectId) : List Request :=
  (w.inflight.filter (·.context.handler = some i)).filter (·.is_write)

/-- The bytes of a socket that can be in the network or beyond it: those the kernel has
    reported as taken, and those of a write in flight, which it may have taken as well. -/
def outgoing (w : World) (i : ObjectId) : List UInt8 :=
  (w.history i).written ++ ((w.writes i).map (·.payload)).flatten

end World

open World

variable {p : Platform} {i : ObjectId} {w w' : World} {s : SocketObject}

/-- The whole of the sending side in one activation without an end of the
    receive side, whatever the results of its writes. -/
theorem one_connection_outbound (hreach : (machine p).Reachable (permits i View.one_connection) w)
    (hs : w.sockets i = some s) :
    (w.view_with i s).outbound.Sound ∧ (w.view_with i s).outbound.Steady ∧
      (w.view_with i s).outbound.outbox.Ok := by
  refine reachable_outbound (P := fun o => o.Steady ∧ o.outbox.Ok)
    (fun v hfresh => hfresh.outbound.2) ?_ hreach hs
  rintro v a o' hsound ⟨hsteady, hok⟩ hallowed hmove
  have hstart : ∀ sqe, a = .start sqe → v.outbound.activations = 0 := by
    rintro sqe rfl
    exact hallowed
  have hended : ∀ r res, a ≠ .receive_ended r res := by
    rintro r res rfl
    exact hallowed
  refine ⟨hsteady.move hsound hmove ?_ ?_, hok.steps (hmove.outbox hsound hsteady hstart hended)⟩
  · intro sqe ha
    exact (hsound.inactive (hstart sqe ha)).2.1
  · intro r res ha
    exact absurd ha (hended r res)

/-- What a socket has accepted the kernel has taken, or it is in the send buffers. -/
theorem sender_owes (hreach : (machine p).Reachable (permits i View.one_connection) w)
    (hs : w.sockets i = some s) (htcp : s.socket_type = .tcp) :
    (w.history i).accepted = (w.history i).written ++ s.send_buffer.contents := by
  obtain ⟨_, _, hok⟩ := one_connection_outbound hreach hs
  have hconserved : (w.history i).written ++ s.send_buffer.contents =
      (w.view_with i s).outbound.taken := hok.conserved
  have htaken : (w.view_with i s).outbound.taken = (w.history i).accepted := by
    rw [Outbound.taken, show (w.view_with i s).outbound.socket_type = s.socket_type from rfl, htcp]
    rfl
  exact (hconserved.trans htaken).symm

/-- The bytes of a write in flight are at the front of `main_buffer`, next to those
    that are written. -/
theorem outgoing_in_place (hreach : (machine p).Reachable (permits i View.one_connection) w)
    (hs : w.sockets i = some s) :
    w.outgoing i <+: (w.history i).written ++ s.send_buffer.main_buffer.contents := by
  obtain ⟨_, hsteady, _⟩ := one_connection_outbound hreach hs
  have hsingle : (w.writes i).length ≤ 1 := hsteady.single
  have hplace : ∀ r ∈ w.writes i, r.payload <+: s.send_buffer.main_buffer.contents :=
    fun r hr => (hsteady.in_place r hr).1
  rw [outgoing, List.prefix_append_right_inj]
  match hwrites : w.writes i with
  | [] => exact List.nil_prefix
  | [r] =>
    rw [List.map_singleton, List.flatten_singleton]
    exact hplace r (hwrites ▸ List.mem_singleton_self r)
  | _ :: _ :: _ =>
    rw [hwrites] at hsingle
    simp only [List.length_cons] at hsingle
    omega

/-- What can be in the network has been accepted. -/
theorem outgoing_accepted (hreach : (machine p).Reachable (permits i View.one_connection) w)
    (hs : w.sockets i = some s) (htcp : s.socket_type = .tcp) :
    w.outgoing i <+: (w.history i).accepted := by
  rw [sender_owes hreach hs htcp]
  refine (outgoing_in_place hreach hs).trans ?_
  rw [List.prefix_append_right_inj]
  exact List.prefix_append _ _

/-- TCP byte-stream integrity. -/
theorem tcp_stream_intact (hreach : (machine p).Reachable (permits i View.one_connection) w)
    (hs : w.sockets i = some s) (htcp : s.socket_type = .tcp) :
    (w.history i).written ++ s.send_buffer.main_buffer.contents ++
        s.send_buffer.sub_buffer.contents = (w.history i).accepted ∧
      (w.writes i).length ≤ 1 ∧
      ∀ r ∈ w.writes i, r.payload <+: s.send_buffer.main_buffer.contents := by
  obtain ⟨_, hsteady, _⟩ := one_connection_outbound hreach hs
  refine ⟨?_, hsteady.single, fun r hr => (hsteady.in_place r hr).1⟩
  rw [sender_owes hreach hs htcp, IoDoubleBuffer.contents, List.append_assoc]

/-- Five bytes of which the kernel takes two, and three more behind them. -/
def partial_write : List Event := [
  .create_tcp,
  .connect 1 [⟨7, true⟩] true,
  .send 1 five_bytes,
  .send_locked 0 true,
  .send 1 ⟨[6, 7, 8, 9], by decide⟩,
  .send_locked 0 true,
  .complete 1 { res := 2 } true]

theorem tcp_stream_intact_partial_write : ∃ w s,
    (machine .small).Reachable (permits 1 View.one_connection) w ∧ w.sockets 1 = some s ∧
      (w.history 1).written = [1, 2] ∧ s.send_buffer.sub_buffer.contents = [6, 7, 8, 9] ∧
      (w.history 1).written ++ s.send_buffer.main_buffer.contents ++
        s.send_buffer.sub_buffer.contents = (w.history 1).accepted ∧
      (w.writes 1).length ≤ 1 ∧
      ∀ r ∈ w.writes 1, r.payload <+: s.send_buffer.main_buffer.contents := by
  obtain ⟨w, hreach, hw⟩ := Machine.reachable_of_exec (machine .small)
    (permits 1 View.one_connection) partial_write
    (fun w => (w.sockets 1).any (fun s => s.socket_type == .tcp &&
      s.send_buffer.sub_buffer.contents == [6, 7, 8, 9]) && (w.history 1).written == [1, 2])
    (by decide +kernel)
  simp only [Bool.and_eq_true, Option.any_eq_true, beq_iff_eq] at hw
  obtain ⟨⟨s, hs, htcp, hsub⟩, hwritten⟩ := hw
  exact ⟨w, s, hreach, hs, hwritten, hsub, tcp_stream_intact hreach hs htcp⟩

/-- The socket is activated, and its receive side ends, only while no byte is in
    flight. -/
def View.resets_idle (v : View) : Action → Prop
  | .start _ => v.outbound.writes = []
  | .receive_ended _ _ => v.outbound.writes = []
  | _ => True

instance : DecidableRel View.resets_idle := fun v a =>
  match a with
  | .start _ | .receive_ended .. => inferInstanceAs (Decidable (v.outbound.writes = []))
  | .idle | .set_event | .send .. | .send_to .. | .close .. | .received .. | .sent .. |
    .send_failed .. | .shut_down .. | .pop .. => .isTrue trivial

/-- The kernel reads every write in flight from the live storage of
    `main_buffer`, where the bytes submitted are still at the start. -/
def World.RegionsStable (w : World) (i : ObjectId) (s : SocketObject) : Prop :=
  ∀ r ∈ w.writes i,
    r.context.iov = {
      iov_base := .send_buffer i s.send_buffer.main_buffer.generation
      iov_len := r.payload.length } ∧
    ∃ bytes, s.send_buffer.main_buffer.raw_buffer = some bytes ∧
      bytes.take r.payload.length = r.payload

theorem Outbound.Steady.region {o : Outbound} (hsound : o.Sound) (hsteady : o.Steady) {r : Request}
    (hr : r ∈ o.writes) :
    r.context.iov = {
      iov_base := .send_buffer o.object o.send_buffer.main_buffer.generation
      iov_len := r.payload.length } ∧
    ∃ bytes, o.send_buffer.main_buffer.raw_buffer = some bytes ∧
      bytes.take r.payload.length = r.payload := by
  obtain ⟨hpayload, hlength⟩ := hsound.writes r hr
  obtain ⟨hstarts, hbase⟩ := hsteady.in_place r hr
  refine ⟨by rw [hlength, ← hbase], ?_⟩
  have hload := hsteady.load_eq hsound hr []
  rw [Outbound.load, if_pos hbase, ← hlength, IoBuffer.storage] at hload
  cases hraw : o.send_buffer.main_buffer.raw_buffer with
  | some bytes =>
    rw [hraw] at hload
    exact ⟨bytes, rfl, hload⟩
  | none =>
    rw [hraw] at hload
    exact absurd (by simpa using hload.symm) hpayload

/-- An end of the receive side that finds a write in flight releases the storage
    the kernel reads it from. -/
theorem receive_end_releases_region {e : Event} (hwf : w.Wf) (hs : w.sockets i = some s)
    (hstep : (machine p).step w e = some w') {s' : SocketObject} (hs' : w'.sockets i = some s')
    {r : Request} {res : Int} (haction : w.action i e = .receive_ended r res)
    (hwrites : w.writes i ≠ []) : ¬ w'.RegionsStable i s' := by
  obtain ⟨v', hv', hmove⟩ := ((hwf.step_does hstep).moves i).move _ (view_eq hs)
  rw [view_eq hs'] at hv'
  cases hv'
  rw [haction] at hmove
  obtain ⟨hsame, hdestroy⟩ := hmove.outbound.of_receive_ended
  have hsend : s'.send_buffer = s.send_buffer.destroy := hdestroy
  have hwrites' : w'.writes i = w.writes i := hsame
  intro hstable
  obtain ⟨r', hr'⟩ := List.exists_mem_of_ne_nil _ hwrites
  obtain ⟨_, bytes, hbytes, _⟩ := hstable r' (hwrites' ▸ hr')
  rw [hsend, IoDoubleBuffer.destroy, IoBuffer.destroy_raw_buffer] at hbytes
  cases hbytes

/-- The region of a write in flight is stable in every run that never resets the
    queue while bytes are in flight, and no longer when the receive side then ends. -/
theorem tcp_regions_stable (hreach : (machine p).Reachable (permits i View.resets_idle) w)
    (hs : w.sockets i = some s) : w.RegionsStable i s ∧
      ∀ e w' s' r res, (machine p).step w e = some w' → w'.sockets i = some s' →
        w.action i e = .receive_ended r res → w.writes i ≠ [] → ¬ w'.RegionsStable i s' := by
  have hkept : (w.view_with i s).outbound.Sound ∧ (w.view_with i s).outbound.Steady := by
    refine reachable_outbound (P := Outbound.Steady) (fun v hfresh => hfresh.outbound.2.1) ?_ hreach hs
    intro v a o' hsound hsteady hallowed hmove
    refine hsteady.move hsound hmove ?_ ?_
    · rintro sqe rfl
      exact hallowed
    · rintro r res rfl
      exact hallowed
  refine ⟨fun r hr => hkept.2.region hkept.1 hr, ?_⟩
  intro e w' s' r res hstep hs' haction hwrites
  exact receive_end_releases_region (.reachable hreach) hs hstep hs' haction hwrites

theorem tcp_regions_stable_partial_write : ∃ w s,
    (machine .small).Reachable (permits 1 View.resets_idle) w ∧ w.sockets 1 = some s ∧
      (w.writes 1).length = 1 ∧ w.RegionsStable 1 s ∧
      ∀ e w' s' r res, (machine .small).step w e = some w' → w'.sockets 1 = some s' →
        w.action 1 e = .receive_ended r res → w.writes 1 ≠ [] → ¬ w'.RegionsStable 1 s' := by
  obtain ⟨w, hreach, hw⟩ := Machine.reachable_of_exec (machine .small) (permits 1 View.resets_idle)
    partial_write (fun w => (w.sockets 1).isSome && (w.writes 1).length == 1) (by decide +kernel)
  simp only [Bool.and_eq_true, Option.isSome_iff_exists, beq_iff_eq] at hw
  obtain ⟨⟨s, hs⟩, hlength⟩ := hw
  exact ⟨w, s, hreach, hs, hlength, tcp_regions_stable hreach hs⟩

/-- The end of the stream while three bytes are in flight. -/
def end_while_sending : List Event := [
  .create_tcp,
  .connect 1 [⟨7, true⟩] true,
  .send 1 ⟨[1, 2, 3], by decide⟩,
  .send_locked 0 true,
  .complete 0 { res := 0 } true]

theorem tcp_region_released : ¬ ∀ w s,
    (machine .small).Reachable (permits 1 View.connected_once) w → w.sockets 1 = some s →
      w.RegionsStable 1 s := by
  intro hall
  obtain ⟨w, hreach, hw⟩ := Machine.reachable_of_exec (machine .small) (permits 1 View.connected_once)
    end_while_sending (fun w => (w.sockets 1).any (·.send_buffer.main_buffer.raw_buffer.isNone) &&
      !(w.writes 1).isEmpty) (by decide +kernel)
  simp only [Bool.and_eq_true, Option.any_eq_true, Bool.not_eq_true', List.isEmpty_eq_false_iff] at hw
  obtain ⟨⟨s, hs, hraw⟩, hwrites⟩ := hw
  obtain ⟨r, hr⟩ := List.exists_mem_of_ne_nil _ hwrites
  obtain ⟨_, bytes, hbytes, _⟩ := hall w s hreach hs r hr
  rw [hbytes] at hraw
  cases hraw

namespace Outbound

variable {o o' : Outbound} {a : Action}

/-- A queue that is not empty is being sent. -/
def Flows (o : Outbound) : Prop := o.send_buffer.contents ≠ [] → o.writes ≠ []

/-- No write of bytes fails, and none that is due misses its entry, while bytes
    are queued and no other write is in flight. -/
def keeps_sending (o : Outbound) : Action → Prop
  | .send bytes sqe =>
    sqe = true ∨ bytes.val = [] ∨ o.send_buffer.empty = false ∨ o.writes ≠ []
  | .sent _ count sqe =>
    sqe = true ∨ (o.send_buffer.pop count).empty = true ∨ 1 < o.writes.length
  | .send_failed r _ => r.payload = [] ∨ o.send_buffer.empty = true ∨ 1 < o.writes.length
  | _ => True

instance : DecidableRel keeps_sending := fun o a =>
  match a with
  | .send bytes sqe => inferInstanceAs (Decidable
      (sqe = true ∨ bytes.val = [] ∨ o.send_buffer.empty = false ∨ o.writes ≠ []))
  | .sent _ count sqe => inferInstanceAs (Decidable
      (sqe = true ∨ (o.send_buffer.pop count).empty = true ∨ 1 < o.writes.length))
  | .send_failed r _ => inferInstanceAs (Decidable
      (r.payload = [] ∨ o.send_buffer.empty = true ∨ 1 < o.writes.length))
  | .idle | .set_event | .start .. | .send_to .. | .close .. | .received .. | .receive_ended .. |
    .shut_down .. | .pop .. => .isTrue trivial

/-- A submission for a queue with bytes sends them if it gets its entry, and
    otherwise leaves it to the writes already in flight. -/
theorem Sends.flows_iff {addr : SockAddr} {sqe : Bool} (htcp : o.socket_type = .tcp)
    (hne : o.send_buffer.contents ≠ []) (hmain : o.send_buffer.main_buffer.contents ≠ [])
    (h : o.Sends addr sqe o') : o'.Flows ↔ sqe = true ∨ o.writes ≠ [] := by
  rcases h with ⟨r, hr, rfl⟩ | ⟨hudp, _, _⟩
  · have hpayload : r.payload ≠ [] := by
      rw [hr.payload]
      exact hmain
    rw [Flows, (submit_submitted o r sqe).send_buffer, submit]
    cases sqe with
    | true => simp [Request.is_write, hr.type, hpayload]
    | false => simp [hne]
  · cases htcp.symm.trans hudp

theorem Completes.length {r : Request} (h : o.Completes r o') :
    o'.writes ≠ [] ↔ 1 < o.writes.length := by
  obtain ⟨front, back, hwrites, rfl⟩ := h
  rw [hwrites, ← List.length_pos_iff]
  simp only [List.length_append, List.length_cons]
  omega

theorem Flows.queues_iff {bytes : Bytes} {addr : SockAddr} {sqe : Bool} (hsound : o.Sound)
    (htcp : o.socket_type = .tcp) (hflows : o.Flows) (h : Queues p o bytes addr sqe o') :
    o'.Flows ↔ sqe = true ∨ bytes.val = [] ∨ o.send_buffer.empty = false ∨ o.writes ≠ [] := by
  obtain ⟨send_buffer, hpush, hrest⟩ := h
  obtain ⟨hpushed, _⟩ := hsound.pushed hpush
  rcases hrest with ⟨hempty, hsends⟩ | ⟨hkept, rfl⟩
  · have hnil : o.send_buffer.contents = [] := hsound.valid.empty_iff.mp hempty
    have hcontents : send_buffer.contents = bytes.val := by rw [hpushed.contents, hnil, List.nil_append]
    by_cases hbytes : bytes.val = []
    · have hsame : o'.send_buffer.contents = [] := by
        rw [hsends.spec.1.send_buffer]
        exact hcontents.trans hbytes
      simp [Flows, hsame, hbytes]
    · have hmain : send_buffer.main_buffer.contents ≠ [] := by
        rw [hpushed.main_takes hnil]
        exact hbytes
      rw [Sends.flows_iff (o := { o with send_buffer }) htcp (hcontents ▸ hbytes) hmain hsends]
      simp [hbytes, hempty]
  · have hne : o.send_buffer.contents ≠ [] := by
      intro hnil
      rw [hsound.valid.empty_iff.mpr hnil] at hkept
      cases hkept
    simp [Flows, hflows hne]

/-- A move keeps the queue being sent exactly when it meets the condition. -/
theorem Flows.move_iff (hsound : o.Sound) (htcp : o.socket_type = .tcp) (hflows : o.Flows)
    (hmove : Move p o a o') : o'.Flows ↔ o.keeps_sending a := by
  cases hmove with
  | same hsend _ hsent _ hfailed =>
    refine ⟨fun _ => ?_, fun _ => hflows⟩
    cases a with
    | send bytes sqe => exact absurd rfl (hsend bytes sqe)
    | sent r count sqe => exact absurd rfl (hsent r count sqe)
    | send_failed r res => exact .inl (hfailed r res rfl)
    | _ => trivial
  | start hassign =>
    rename_i send_buffer sqe
    obtain ⟨_, hmain, _, hsub⟩ :=
      IoDoubleBuffer.assign_spec p.malloc_le hsound.valid p.data_buffer_size_pos hassign
    refine ⟨fun _ => trivial, fun _ hne => hflows ?_⟩
    intro hnil
    apply hne
    change send_buffer.contents = []
    rw [IoDoubleBuffer.contents, hmain, hsub, (List.append_eq_nil_iff.mp hnil).2]
    rfl
  | send addr htype hqueues =>
    rename_i bytes sqe
    exact Flows.queues_iff (o := { o with accepted := o.accepted ++ bytes })
      (hsound.accept hqueues) htcp hflows hqueues
  | send_to htype => cases htcp.symm.trans htype
  | close => exact ⟨fun _ => trivial, fun _ => hflows⟩
  | receive_ended =>
    exact ⟨fun _ => trivial, fun _ hne => absurd (IoDoubleBuffer.destroy_spec hsound.valid).2 hne⟩
  | sent garbage addr haddr hcomplete hcount hle hpop ho₂ hsend =>
    rename_i o₁ r count sqe send_buffer o₂
    obtain ⟨hpopValid, _⟩ := IoDoubleBuffer.pop_spec hsound.valid count
    obtain ⟨hvalid, helevated, hmain⟩ := IoDoubleBuffer.elevate_spec hpopValid
    rw [← hpop] at hvalid helevated hmain
    have hlength := hcomplete.length
    have hsame : o₁.socket_type = o.socket_type := by
      obtain ⟨front, back, _, rfl⟩ := hcomplete
      rfl
    have hbuffer : o₂.send_buffer = send_buffer := by rw [ho₂]
    have hwrites : o₂.writes = o₁.writes := by rw [ho₂]
    have htype : o₂.socket_type = .tcp := by
      rw [ho₂]
      exact hsame.trans htcp
    rcases hsend with ⟨hempty, rfl⟩ | ⟨hkept, hsends⟩
    · have hnil : send_buffer.contents = [] := hvalid.empty_iff.mp hempty
      have hpopNil : (o.send_buffer.pop count).empty = true :=
        hpopValid.empty_iff.mpr (helevated ▸ hnil)
      exact ⟨fun _ => .inr (.inl hpopNil), fun _ hne => absurd (hbuffer ▸ hnil) hne⟩
    · have hne : send_buffer.contents ≠ [] := by
        intro hnil
        rw [hvalid.empty_iff.mpr hnil] at hkept
        cases hkept
      have hpopKept : (o.send_buffer.pop count).empty = false := by
        rw [← Bool.not_eq_true, hpopValid.empty_iff, ← helevated]
        exact hne
      rw [hsends.flows_iff htype (hbuffer ▸ hne) (hbuffer ▸ hmain (helevated ▸ hne)), hwrites,
        hlength]
      simp only [keeps_sending, hpopKept, Bool.false_eq_true, false_or]
  | send_failed hpayload hcomplete =>
    have hlength := hcomplete.length
    have hbuffer : o'.send_buffer = o.send_buffer := by
      obtain ⟨front, back, _, rfl⟩ := hcomplete
      rfl
    rw [Flows, hlength, hbuffer, Ne, ← hsound.valid.empty_iff]
    simp only [keeps_sending, hpayload, false_or]
    exact Decidable.imp_iff_not_or.trans (by rw [not_not])

end Outbound

def View.keeps_sending (v : View) (a : Action) : Prop := v.outbound.keeps_sending a

instance : DecidableRel View.keeps_sending := fun v a =>
  inferInstanceAs (Decidable (v.outbound.keeps_sending a))

/-- In a run whose steps meet the condition the queue of a TCP socket is being
    sent whenever it is not empty. -/
theorem tcp_queue_flows (hreach : (machine p).Reachable (permits i View.keeps_sending) w)
    (hs : w.sockets i = some s) (htcp : s.socket_type = .tcp)
    (hempty : s.send_buffer.empty = false) : w.writes i ≠ [] := by
  obtain ⟨hsound, hflows⟩ := reachable_outbound_of_type (P := Outbound.Flows)
    (by
      intro v hfresh hne
      refine absurd ?_ hne
      rw [show v.outbound.send_buffer = {} from hfresh.send_buffer]
      rfl)
    (fun v a o' htcp hsound hflows hallowed hmove =>
      (Outbound.Flows.move_iff hsound htcp hflows hmove).mpr hallowed)
    hreach hs htcp
  apply hflows
  intro hnil
  have hqueue : s.send_buffer.empty = true := hsound.valid.empty_iff.mpr hnil
  rw [hempty] at hqueue
  cases hqueue

theorem tcp_queue_flows_partial_write : ∃ w s,
    (machine .small).Reachable (permits 1 View.keeps_sending) w ∧ w.sockets 1 = some s ∧
      s.connected_flag = true ∧ s.send_buffer.empty = false ∧ w.writes 1 ≠ [] := by
  obtain ⟨w, hreach, hw⟩ := Machine.reachable_of_exec (machine .small)
    (permits 1 View.keeps_sending) partial_write
    (fun w => (w.sockets 1).any fun s => s.socket_type == .tcp && s.connected_flag &&
      !s.send_buffer.empty) (by decide +kernel)
  simp only [Option.any_eq_true, Bool.and_eq_true, beq_iff_eq, Bool.not_eq_true'] at hw
  obtain ⟨s, hs, ⟨htcp, hflag⟩, hempty⟩ := hw
  exact ⟨w, s, hreach, hs, hflag, hempty, tcp_queue_flows hreach hs htcp hempty⟩

/-- A write of three bytes that fails with `EPIPE`. -/
def failed_write : List Event := [
  .create_tcp,
  .connect 1 [⟨7, true⟩] true,
  .send 1 ⟨[1, 2, 3], by decide⟩,
  .send_locked 0 true,
  .complete 1 { res := -32 } true]

theorem tcp_queue_stalls : ¬ ∀ w s,
    (machine .small).Reachable (permits 1 View.connected_once) w → w.sockets 1 = some s →
      s.connected_flag = true → s.send_buffer.empty = false → w.writes 1 ≠ [] := by
  intro hall
  obtain ⟨w, hreach, hw⟩ := Machine.reachable_of_exec (machine .small)
    (permits 1 View.connected_once) failed_write
    (fun w => (w.sockets 1).any (fun s => s.connected_flag && !s.send_buffer.empty) &&
      (w.writes 1).isEmpty) (by decide +kernel)
  simp only [Bool.and_eq_true, Option.any_eq_true, Bool.not_eq_true', List.isEmpty_iff] at hw
  obtain ⟨⟨s, hs, hflag, hempty⟩, hwrites⟩ := hw
  exact hall w s hreach hs hflag hempty hwrites

end rioring
