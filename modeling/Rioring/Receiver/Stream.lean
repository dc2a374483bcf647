import Rioring.Receiver.Intake

/-! The stream of bytes that comes in on a socket, while the kernel and other threads
come between the steps of its receive handlers. -/

namespace rioring

open World

theorem View.Fresh.intake {p : Platform} {q : Intake} {v : View} (hfresh : v.Fresh)
    (hinbound : q.inbound = v.inbound) (harrived : ∀ c, q.arrived c = none)
    (hstage : ∀ c, q.stage c = none) (hcopied : q.copied = []) : q.Whole p := by
  obtain ⟨hsound, _⟩ := hfresh.inbound (p := p)
  obtain ⟨hrequests, hhistory, hrecv, _⟩ := hfresh
  have hreads : q.inbound.reads = [] := by simp [hinbound, View.inbound, hrequests]
  have hevents : q.inbound.events = [] := by simp [hinbound, View.inbound, hhistory]
  have hreceived : q.inbound.received = [] := by simp [hinbound, View.inbound, hhistory]
  have hpopped : q.inbound.popped = 0 := by simp [hinbound, View.inbound, hhistory]
  have hraw : q.inbound.recv_buffer.raw_buffer = none := by
    rw [hinbound]
    exact congrArg IoBuffer.raw_buffer hrecv
  refine ⟨hinbound ▸ hsound, by simp [hreads], fun c _ hc => absurd (hstage c) hc,
    fun c hc => absurd (hstage c) hc, fun c hc => ?_, fun c data hc => ?_, fun c count hc => ?_,
    fun _ => hreceived.trans hcopied.symm, fun h => ?_, fun _ => ⟨hreads, hstage⟩,
    fun _ => ⟨hraw, hcopied, hpopped, by simp [hevents]⟩, [], by simp, .inl hevents⟩
  · rw [hstage] at hc
    cases hc
  · rw [harrived] at hc
    cases hc
  · rw [hstage] at hc
    cases hc
  · rw [hraw] at h
    cases h

namespace Receiving

variable {p : Platform} {concurrency : Nat} {x x' : Receiving} {i : ObjectId} {c : ContextId}
  {s s' : SocketObject} {e : ReceiveEvent}

/-- A socket that a step makes has received nothing. -/
theorem Kept.appears (hkept : x.Kept) (hstep : (receiver p concurrency).step x e = some x')
    (hnone : x.service.world.sockets i = none) (hs' : x'.service.world.sockets i = some s') :
    (x'.intake i s').Whole p := by
  by_cases he : ∃ e', e = .service e'
  · obtain ⟨e', rfl⟩ := he
    have hkept' := hkept.step hstep
    obtain ⟨hleaves, t, ht, rfl⟩ := service_spec hstep
    cases e' with
    | process e k =>
      have hworld := (Service.process_spec ht).2.1
      have hkeeps := hkept.wf.step_keeps hkept.addressed hworld
      have hstays := hkept.stays hleaves ht
      have hfresh := ((hkept.wf.step_does hworld).moves i).fresh _ (view_eq_none hnone) (view_eq hs')
      have hother : ∀ c, x.arrived c ≠ none ∨ x.stage c ≠ none →
          (t.world.contexts c).handler ≠ some i := by
        intro c hc heq
        obtain ⟨j, hreads, hsome⟩ := hkept.owned c hc
        obtain ⟨k, hreads₁, hreads', _⟩ := hkept.owned_after hkeeps hc (hstays c hc)
        have hj : j = i := Option.some.inj
          ((hreads.2.symm.trans hreads₁.2).trans (hreads'.2.symm.trans heq))
        rw [hj, hnone] at hsome
        cases hsome
      refine hfresh.intake rfl (fun c => ?_) (fun c => ?_) (hkept.fresh i hnone)
      · by_contra harrived
        obtain ⟨hi, hc⟩ := of_socket_noted harrived
        exact hother c (.inl hc) hi
      · by_contra hstage
        obtain ⟨hi, hc⟩ := of_socket_noted hstage
        exact hother c (.inr hc) hi
    | stop =>
      rw [(Service.stop_spec ht).2] at hs'
      exact absurd (hnone.symm.trans hs') (by simp)
    | cancelled k =>
      rw [(Service.cancelled_spec ht).1] at hs'
      exact absurd (hnone.symm.trans hs') (by simp)
  · obtain ⟨j, t, t', hpiece⟩ := hkept.piece (fun e' heq => he ⟨e', heq⟩) hstep
    rw [hpiece.no_socket hnone] at hs'
    cases hs'

theorem whole (hreach : (receiver p concurrency).Reachable (permits i View.connected_once) x) :
    x.Kept ∧ ∀ s, x.service.world.sockets i = some s → (x.intake i s).Whole p := by
  refine Machine.Run.invariant (P := fun x : Receiving =>
    x.Kept ∧ ∀ s, x.service.world.sockets i = some s → (x.intake i s).Whole p) hreach
    ⟨.start p, fun s hs => (by cases hs)⟩ ?_
  rintro x e x' _ ⟨hkept, hwhole⟩ hallowed hstep
  refine ⟨hkept.step hstep, fun s' hs' => ?_⟩
  cases hs : x.service.world.sockets i with
  | none => exact hkept.appears hstep hs hs'
  | some s =>
    obtain ⟨s₁, hs₁, hmove⟩ := hkept.move hallowed hstep hs
    rw [hs'] at hs₁
    cases hs₁
    exact (hwhole s hs).move hmove

/-- Callbacks are never taken back. -/
theorem Kept.callbacks (hkept : x.Kept) (hstep : (receiver p concurrency).step x e = some x')
    (hs : x.service.world.sockets i = some s) :
    (x.service.world.history i).callbacks <+: (x'.service.world.history i).callbacks := by
  by_cases he : ∃ e', e = .service e'
  · obtain ⟨e', rfl⟩ := he
    obtain ⟨_, t, ht, rfl⟩ := service_spec hstep
    cases e' with
    | process e k =>
      obtain ⟨_, _, _, happend, _⟩ := hkept.wf.callbacks_since hs (Service.process_spec ht).2.1
      exact ⟨_, happend.symm⟩
    | stop =>
      rw [(Service.stop_spec ht).2]
      exact List.prefix_refl _
    | cancelled k =>
      rw [(Service.cancelled_spec ht).1]
  · obtain ⟨_, _, _, hpiece⟩ := hkept.piece (fun e' heq => he ⟨e', heq⟩) hstep
    exact hpiece.all_callbacks i

/-- The receive events of a step are those of the receiving side. -/
theorem Kept.receive_events (hkept : x.Kept) (hstep : (receiver p concurrency).step x e = some x')
    (hs : x.service.world.sockets i = some s) {added : List Callback}
    (hadded : (x'.intake i s').inbound.events = (x.intake i s).inbound.events ++ added)
    {contents : List UInt8} {addr : SockAddr}
    (hmem : .receive contents addr ∈ x.service.world.callbacks_since x'.service.world i) :
    .receive contents addr ∈ added := by
  obtain ⟨since, hsince⟩ := hkept.callbacks hstep hs
  have hevents : (x'.intake i s').inbound.events =
      (x.intake i s).inbound.events ++ since.filter (·.is_inbound) := by
    change (x'.service.world.history i).callbacks.filter (·.is_inbound) =
      (x.service.world.history i).callbacks.filter (·.is_inbound) ++ _
    rw [← hsince, List.filter_append]
  rw [World.callbacks_since, ← hsince, List.drop_left] at hmem
  rw [List.append_cancel_left (hadded.symm.trans hevents)]
  exact List.mem_filter.mpr ⟨hmem, rfl⟩

end Receiving

variable {p : Platform} {concurrency : Nat} {x : Receiving} {i : ObjectId} {s : SocketObject}

/-- Receive stream integrity. -/
theorem tcp_receive_intact
    (hreach : (receiver p concurrency).Reachable (Receiving.permits i View.connected_once) x)
    (hs : x.service.world.sockets i = some s) :
    (x.service.world.reads i).length ≤ 1 ∧
      (∀ e x' s', Receiving.permits i View.connected_once x e →
        (receiver p concurrency).step x e = some x' → x'.service.world.sockets i = some s' →
        (s'.recv_bind_buffer ≠ s.recv_bind_buffer ∨
          ∃ c data, e = .arrive c data ∧ x.service.world.Reads i c) →
        (x.service.world.history i).received = x.copied i ∧
          ∀ c, x.service.world.Reads i c → x.stage c = none ∨ x.stage c = some .armed) ∧
      (∀ c count, x.service.world.Reads i c → x.stage c = some (.taken count) →
        x.service.world.reads i = [] ∧ (s.recv_bind_buffer.take count).length = count ∧
          (x.service.world.history i).received = x.copied i ++ s.recv_bind_buffer.take count) ∧
      (s.recv_buffer.raw_buffer.isSome →
        s.recv_buffer.contents = (x.copied i).drop (x.service.world.history i).popped) ∧
      (∃ rest, (x.service.world.history i).received = x.copied i ++ rest ∧
        (rest ≠ [] → ∃ c, x.service.world.Reads i c ∧ x.arrived c = some rest)) ∧
      (∀ e x' contents addr, Receiving.permits i View.connected_once x e →
        (receiver p concurrency).step x e = some x' →
        .receive contents addr ∈ x.service.world.callbacks_since x'.service.world i →
        contents = (x'.copied i).drop (x'.service.world.history i).popped ∧
          ∃ s', x'.service.world.sockets i = some s' ∧ s'.recv_buffer.contents = contents) ∧
      (x.service.world.history i).callbacks.count .close ≤ 1 ∧
      ∀ front back, (x.service.world.history i).callbacks = front ++ .close :: back →
        ∀ contents addr, .receive contents addr ∉ back := by
  obtain ⟨hkept, hwholes⟩ := Receiving.whole hreach
  have hwhole := hwholes s hs
  have hnoted : ∀ {c}, x.service.world.Reads i c → (x.intake i s).stage c = x.stage c :=
    fun hreads => of_socket_self hreads.2
  refine ⟨hwhole.single, ?_, ?_, fun hraw => (hwhole.held hraw).1, ?_, ?_, ?_, ?_⟩
  · intro e x' s' hallowed hstep hs' hwrites
    have hwritable : (x.intake i s).inbound.received = (x.intake i s).copied ∧
        ∀ c, (x.intake i s).stage c = none ∨ (x.intake i s).stage c = some .armed := by
      rcases hwrites with hbuffer | ⟨c, data, rfl, hreads⟩
      · obtain ⟨s₁, hs₁, hmove⟩ := hkept.move hallowed hstep hs
        rw [hs'] at hs₁
        cases hs₁
        exact hwhole.overwrites hmove hbuffer
      · obtain ⟨r, hr, rfl, htype, harrived, _⟩ := Receiving.arrive_spec hstep
        have hhandler := hreads.2
        rw [hkept.wf.contexts r hr] at hhandler
        exact hwhole.writable (mem_reads.mpr ⟨hr, hhandler, htype⟩)
          ((of_socket_self hreads.2).trans harrived)
    exact ⟨hwritable.1, fun c hreads => hnoted hreads ▸ hwritable.2 c⟩
  · intro c count hreads hstage
    have hstage' := (hnoted hreads).trans hstage
    obtain ⟨data, _, hlength, _, hbuffer, hreceived⟩ := hwhole.count hstage'
    have hbuffer' : s.recv_bind_buffer.take count = data := hbuffer
    rw [hbuffer']
    exact ⟨hwhole.unarmed c (by simp [hstage']) (by simp [hstage']), hlength, hreceived⟩
  · obtain ⟨rest, hreceived, hrest⟩ := hwhole.pending
    refine ⟨rest, hreceived, fun hne => ?_⟩
    obtain ⟨c, hc⟩ := hrest hne
    have hnoted := of_socket_noted (Option.ne_none_iff_exists'.mpr ⟨_, hc⟩)
    obtain ⟨j, hreads, _⟩ := hkept.owned c (.inl hnoted.2)
    exact ⟨c, ⟨hreads.1, hnoted.1⟩, (of_socket_self hnoted.1).symm.trans hc⟩
  · intro e x' contents addr hallowed hstep hmem
    obtain ⟨s', hs', hmove⟩ := hkept.move hallowed hstep hs
    obtain ⟨added, hadded, hshows⟩ := hwhole.shows hmove
    obtain ⟨hcontents, hcopied⟩ := hshows contents addr (hkept.receive_events hstep hs hadded hmem)
    exact ⟨hcopied, s', hs', hcontents.symm⟩
  · have hcount : (x.intake i s).inbound.events.count .close =
        (x.service.world.history i).callbacks.count .close := List.count_filter rfl
    rw [← hcount]
    exact hwhole.close_once
  · intro front back hcallbacks contents addr hmem
    -- the events of the receiving side are the callbacks without those of the others
    have hevents : (x.intake i s).inbound.events =
        front.filter (·.is_inbound) ++ .close :: back.filter (·.is_inbound) := by
      change (x.service.world.history i).callbacks.filter (·.is_inbound) = _
      simp [hcallbacks, Callback.is_inbound]
    obtain ⟨_, hback⟩ := hwhole.close_last hevents
    have hin : Callback.receive contents addr ∈ back.filter (·.is_inbound) :=
      List.mem_filter.mpr ⟨hmem, rfl⟩
    rw [hback] at hin
    cases hin

/-- Three bytes come in and are copied, the next read brings two before the callback
    of the first is called, and the callback pops one. -/
def two_pieces : List ReceiveEvent := [
  .service (.process .create_tcp 0),
  .service (.process (.set_event 1 .receive true) 0),
  .service (.process (.set_event 1 .close true) 0),
  .service (.process (.connect 1 [⟨7, true⟩] true) 0),
  .arrive 0 [1, 2, 3],
  .take 0 {},
  .copy 0,
  .arm 0 true,
  .arrive 1 [4, 5],
  .call 0,
  .service (.process (.pop 1 1) 0),
  .service (.process (.finish 0) 0),
  .take 1 {}]

theorem tcp_receive_intact_two_pieces : ∃ x s,
    (receiver .small 1).Reachable (Receiving.permits 1 View.connected_once) x ∧
      x.service.world.sockets 1 = some s ∧ x.stage 1 = some (.taken 2) ∧
      (x.service.world.history 1).popped = 1 ∧
      (x.service.world.history 1).received = [1, 2, 3, 4, 5] ∧ s.recv_buffer.contents = [2, 3] ∧
      s.recv_buffer.contents = (x.copied 1).drop (x.service.world.history 1).popped ∧
      x.service.world.reads 1 = [] ∧ (s.recv_bind_buffer.take 2).length = 2 ∧
      (x.service.world.history 1).received = x.copied 1 ++ s.recv_bind_buffer.take 2 := by
  obtain ⟨x, hreach, hx⟩ := Machine.reachable_of_exec (receiver .small 1)
    (Receiving.permits 1 View.connected_once) two_pieces
    (fun x => (x.service.world.sockets 1).any (fun s => s.recv_buffer.contents == [2, 3] &&
        s.recv_buffer.raw_buffer.isSome) && x.stage 1 == some (.taken 2) &&
      (x.service.world.history 1).popped == 1 &&
      (x.service.world.history 1).received == [1, 2, 3, 4, 5] &&
      (x.service.world.contexts 1).type == .read && (x.service.world.contexts 1).handler == some 1)
    (by decide +kernel)
  simp only [Bool.and_eq_true, Option.any_eq_true, beq_iff_eq] at hx
  obtain ⟨⟨⟨⟨⟨⟨s, hs, hcontents, hraw⟩, hstage⟩, hpopped⟩, hreceived⟩, htype⟩, hhandler⟩ := hx
  obtain ⟨_, _, htaken, hheld, _⟩ := tcp_receive_intact hreach hs
  exact ⟨x, s, hreach, hs, hstage, hpopped, hreceived, hcontents, hheld hraw,
    htaken 1 2 ⟨htype, hhandler⟩ hstage⟩

end rioring
