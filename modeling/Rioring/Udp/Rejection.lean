import Rioring.Outbound.Run
import Rioring.Ownership.Exclusive
import Rioring.Tcp.Sending
import Rioring.Udp.Sending

/-! A `send_to` to an address of a family that cannot be sent to. -/

namespace rioring

open IoService

namespace Outbound

variable {p : Platform} {o o' : Outbound} {a : Action}

/-- `send_to` goes on and writes complete. -/
def continues (_ : Outbound) : Action → Prop
  | .start _ | .receive_ended .. => False
  | _ => True

/-- Bytes wait, and nothing in flight will send them on. -/
structure Stuck (o : Outbound) : Prop where
  waiting : o.send_buffer.contents ≠ []
  idle : o.writes = []

/-- A `send_to` to an address of another family queues its bytes all the same,
    and submits nothing. -/
theorem Queues.rejected {bytes : Bytes} {addr : SockAddr} {sqe : Bool}
    (h : Queues p o bytes addr sqe o') (hudp : o.socket_type = .udp)
    (hfamily : SockAddr.addr_len addr.sa_family = 0) :
    ∃ send_buffer, o.send_buffer.push p.malloc bytes = .ok send_buffer ∧
      o' = { o with send_buffer } := by
  obtain ⟨send_buffer, hpush, hrest⟩ := h
  refine ⟨send_buffer, hpush, ?_⟩
  rcases hrest with ⟨_, hsends⟩ | ⟨_, heq⟩
  · rcases hsends with ⟨r, hr, _⟩ | ⟨_, _, heq⟩
    · exact absurd hfamily (hr.datagram hudp).2.1
    · exact heq
  · exact heq

/-- What a stuck socket is given to send waits as well. -/
theorem Stuck.move (hsound : o.Sound) (hudp : o.socket_type = .udp) (hstuck : o.Stuck)
    (hallowed : o.continues a) (hmove : Move p o a o') :
    o'.Stuck ∧ o'.handed = o.handed ∧ o.send_buffer.contents <+: o'.send_buffer.contents := by
  obtain ⟨hwaiting, hidle⟩ := hstuck
  cases hmove with
  | same => exact ⟨⟨hwaiting, hidle⟩, rfl, List.prefix_rfl⟩
  | start => exact hallowed.elim
  | send addr htype => cases hudp.symm.trans htype
  | send_to htype hqueues =>
    obtain ⟨send_buffer, hpush, hrest⟩ := hqueues
    obtain ⟨hpushed, _⟩ := (hsound.request _).pushed hpush
    rcases hrest with ⟨hempty, _⟩ | ⟨_, rfl⟩
    · exact absurd (hsound.valid.empty_iff.mp hempty) hwaiting
    · have hbehind : o.send_buffer.contents <+: send_buffer.contents := by
        rw [hpushed.contents]
        exact List.prefix_append _ _
      refine ⟨⟨fun hnil => hwaiting ?_, hidle⟩, rfl, hbehind⟩
      have hnil : send_buffer.contents = [] := hnil
      rw [hnil] at hbehind
      exact List.prefix_nil.mp hbehind
  | close => exact ⟨⟨hwaiting, hidle⟩, rfl, List.prefix_rfl⟩
  | receive_ended => exact hallowed.elim
  | sent garbage addr haddr hcomplete =>
    obtain ⟨front, back, hwrites, _⟩ := hcomplete
    rw [hidle] at hwrites
    simp at hwrites
  | send_failed hpayload hcomplete =>
    obtain ⟨front, back, hwrites, _⟩ := hcomplete
    rw [hidle] at hwrites
    simp at hwrites

end Outbound

def View.continues (v : View) (a : Action) : Prop := v.outbound.continues a

namespace World

variable {p : Platform} {i : ObjectId} {w w' : World} {s : SocketObject}

/-- The bytes that wait in the queue of a socket. -/
def queued (w : World) (i : ObjectId) : List UInt8 :=
  ((w.sockets i).map (·.send_buffer.contents)).getD []

/-- What socket `i` goes on to do: datagrams for addresses of known families, and
    completions that succeed. -/
def goes_on (i : ObjectId) : Event → Bool
  | .send_to j _ addr _ => j == i && SockAddr.addr_len addr.sa_family != 0
  | .complete _ cqe _ => 0 < cqe.res
  | .finish _ => true
  | _ => false

/-- A call of socket `i` that fails and has no lasting effect: it queues nothing,
    keeps no context, and what is sent later goes out as without it. -/
structure TurnsDown (p : Platform) (i : ObjectId) (w w' : World) (result : Bool) : Prop where
  reported : result = false
  queue : w'.queued i = w.queued i
  contexts : w'.held = w.held
  later : ∀ events : List Event, events.all (goes_on i) = true →
    ((machine p).exec Machine.Any w' events).map (·.handed i) =
      ((machine p).exec Machine.Any w events).map (·.handed i)

theorem queued_eq (hs : w.sockets i = some s) : w.queued i = s.send_buffer.contents := by
  rw [queued, hs]
  rfl

/-- A stuck socket hands nothing over any more. -/
theorem stuck_along (hreach : (machine p).Reachable Machine.Any w) (hs : w.sockets i = some s)
    (hudp : s.socket_type = .udp) (hwaiting : w.queued i ≠ []) (hidle : w.writes i = [])
    (hrun : (machine p).Run (permits i View.continues) w w') :
    w'.handed i = w.handed i ∧ w.queued i <+: w'.queued i := by
  have hsound := reachable_sound hreach hs
  rw [queued_eq hs] at hwaiting ⊢
  obtain ⟨v, hv, _, _, _, hhanded, hqueued⟩ := run_view (P := fun v => v.outbound.Sound ∧
      v.outbound.socket_type = .udp ∧ v.outbound.Stuck ∧
      v.outbound.handed = w.handed i ∧ s.send_buffer.contents <+: v.outbound.send_buffer.contents)
    (by
      rintro v a v' ⟨hsound, hudp, hstuck, hhanded, hqueued⟩ hallowed hmove
      have hmove := hmove.outbound
      obtain ⟨hstuck', hhanded', hqueued'⟩ := hstuck.move hsound hudp hallowed hmove
      exact ⟨hsound.move hmove, hmove.socket_type.2.1.trans hudp, hstuck', hhanded'.trans hhanded,
        hqueued.trans hqueued'⟩)
    (Wf.reachable hreach) hrun (view_eq hs)
    ⟨hsound, hudp, ⟨hwaiting, hidle⟩, rfl, List.prefix_rfl⟩
  obtain ⟨s', hs', rfl⟩ := Option.map_eq_some_iff.mp hv
  rw [queued_eq hs']
  exact ⟨hhanded, hqueued⟩

/-- A context that nobody holds any more is not held again. -/
theorem lost_along (hreach : (machine p).Reachable Machine.Any w) {c : ContextId}
    (hmade : c < w.allocated) (hlost : c ∉ w.held) (hrun : (machine p).Run Machine.Any w w') :
    c ∉ w'.held := by
  have hkept : c < w'.allocated ∧ c ∉ w'.held := by
    refine Machine.Run.invariant (P := fun w' => c < w'.allocated ∧ c ∉ w'.held) hrun ⟨hmade, hlost⟩ ?_
    rintro u e u' hu ⟨hmade, hlost⟩ _ hstep
    have hreached := Machine.Run.trans hreach hu
    exact Custody.lost_along hmade hlost
      ((Wf.reachable hreached).circulates (reachable_addressed hreached) hstep)
  exact hkept.2

end World

namespace UdpSocket

variable {p : Platform} {w w' : World} {i : ObjectId} {s : SocketObject} {bytes : Bytes}
  {addr : SockAddr} {sqe result : Bool}

/-- The result of `send_to`, and what becomes of a context when it cannot send. -/
theorem send_to_rejected (hwf : w.Wf) (hs : w.sockets i = some s)
    (hfamily : SockAddr.addr_len addr.sa_family = 0)
    (hsend : send_to p w i s bytes addr sqe = .ok (result, w')) :
    result = true ∧
      (s.send_buffer.empty = true → (next_context w).1 < w'.allocated ∧ (next_context w).1 ∉ w'.held) ∧
      (s.send_buffer.empty = false → w'.held = w.held) := by
  unfold send_to at hsend
  dsimp only at hsend
  split at hsend
  · rename_i hempty
    rw [IoBuffer.bind_eq_ok_iff] at hsend
    obtain ⟨send_buffer, _, hsend⟩ := hsend
    rw [submit_sending, if_neg (not_not.mpr hfamily)] at hsend
    cases hsend
    refine ⟨rfl, fun _ => ?_, fun hkept => by rw [hempty] at hkept; cases hkept⟩
    have hrecord : (w.record i fun h => { h with requested := h.requested ++ [(bytes.val, addr)] }).Wf :=
      hwf.record (hwf.socket_lt hs) _
    have hset : (World.set_socket _ i { s with send_buffer }).Wf := hrecord.set_socket hs rfl
    obtain ⟨_, hlost, hmade⟩ := hset.take_context _
    exact ⟨hmade, hlost⟩
  · rename_i hkept
    rw [IoBuffer.bind_eq_ok_iff] at hsend
    obtain ⟨send_buffer, _, hsend⟩ := hsend
    cases hsend
    exact ⟨rfl, fun hempty => absurd hempty hkept, fun _ => rfl⟩

end UdpSocket

open World

variable {p : Platform} {i : ObjectId} {w w' : World} {s : SocketObject} {bytes : Bytes}
  {addr : SockAddr} {sqe result : Bool}

/-- A `send_to` to an address of another family is never turned down: it reports
    success and queues its bytes; when the queue was empty it takes a context that
    does not come back, and with nothing in flight to send the bytes on, nothing
    is handed over any more. -/
theorem send_to_never_turns_down (hreach : (machine p).Reachable Machine.Any w)
    (hs : w.sockets i = some s) (hudp : s.socket_type = .udp)
    (hfamily : SockAddr.addr_len addr.sa_family = 0)
    (hsend : UdpSocket.send_to p w i s bytes addr sqe = .ok (result, w')) :
    ¬ TurnsDown p i w w' result ∧
    result = true ∧
    w'.queued i = w.queued i ++ bytes.val ∧
    (s.send_buffer.empty = true → ∀ w'', (machine p).Run Machine.Any w' w'' →
      (next_context w).1 ∉ w''.held) ∧
    (s.send_buffer.empty = false → w'.held = w.held) ∧
    (w.queued i ++ bytes.val ≠ [] → w.writes i = [] → ∀ w'',
      (machine p).Run (permits i View.continues) w' w'' →
        w''.handed i = w.handed i ∧ w'.queued i <+: w''.queued i) := by
  have hwf : w.Wf := Wf.reachable hreach
  obtain ⟨hresult, hlost, hkept⟩ := UdpSocket.send_to_rejected hwf hs hfamily hsend
  have hstep : (machine p).step w (.send_to i bytes addr sqe) = some w' := by
    have hfind : w.socket_of i .udp = some s := by simp [socket_of, hs, hudp]
    change (w.socket_of i .udp).bind _ = _
    rw [hfind, Option.bind_some, hsend]
    rfl
  have hreach' : (machine p).Reachable Machine.Any w' := .step hreach trivial hstep
  have hdoes : Does p w (.send_to i bytes addr sqe) w' := hwf.step_does hstep
  obtain ⟨v', hv', hmove⟩ := (hdoes.moves i).move _ (view_eq hs)
  obtain ⟨s', hs', rfl⟩ := Option.map_eq_some_iff.mp hv'
  have hmove := hmove.outbound
  have haction : w.action i (.send_to i bytes addr sqe) = .send_to bytes addr sqe := if_pos rfl
  rw [haction] at hmove
  have hsound := reachable_sound hreach hs
  obtain ⟨hqueued, hwrites, hhanded, hudp'⟩ : s'.send_buffer.contents = s.send_buffer.contents ++ bytes.val ∧
      w'.writes i = w.writes i ∧ w'.handed i = w.handed i ∧ s'.socket_type = .udp := by
    generalize ho' : (w'.view_with i s').outbound = o' at hmove
    cases hmove with
    | same _ hsend_to => exact absurd rfl (hsend_to _ _ _)
    | send_to htype hqueues =>
      obtain ⟨send_buffer, hpush, heq⟩ := hqueues.rejected htype hfamily
      obtain ⟨hpushed, _⟩ := (hsound.request _).pushed hpush
      rw [heq] at ho'
      have hbuffer : s'.send_buffer = send_buffer := congrArg Outbound.send_buffer ho'
      refine ⟨?_, congrArg Outbound.writes ho', congrArg Outbound.handed ho',
        (congrArg Outbound.socket_type ho').trans htype⟩
      rw [hbuffer, hpushed.contents]
      rfl
  rw [← queued_eq hs, ← queued_eq hs'] at hqueued
  refine ⟨fun hdown => ?_, hresult, hqueued, fun hempty w'' hrun => ?_, hkept, ?_⟩
  · rw [hresult] at hdown
    cases hdown.reported
  · obtain ⟨hmade, hfree⟩ := hlost hempty
    exact World.lost_along hreach' hmade hfree hrun
  · intro hwaiting hidle w'' hrun
    rw [← hqueued] at hwaiting
    obtain ⟨hstays, hbehind⟩ := stuck_along hreach' hs' hudp' hwaiting (hwrites.trans hidle) hrun
    exact ⟨hstays.trans hhanded, hbehind⟩

def unix_address : SockAddr := { sa_family := 1 }

/-- A datagram for an address of the UNIX family, from an idle socket. -/
theorem send_to_never_turns_down_unix : ∃ w s w' result,
    (machine .small).Reachable Machine.Any w ∧ w.sockets 1 = some s ∧
      UdpSocket.send_to .small w 1 s one_byte unix_address true = .ok (result, w') ∧
      ¬ TurnsDown .small 1 w w' result ∧ result = true ∧ w'.queued 1 = w.queued 1 ++ one_byte.val ∧
      (∀ w'', (machine .small).Run Machine.Any w' w'' → (next_context w).1 ∉ w''.held) ∧
      ∀ w'', (machine .small).Run (permits 1 View.continues) w' w'' →
        w''.handed 1 = w.handed 1 ∧ w'.queued 1 <+: w''.queued 1 := by
  obtain ⟨w, hreach, hw⟩ := Machine.reachable_of_exec (machine .small) Machine.Any
    [.create_udp, .activate 1 7 true true]
    (fun w => (w.writes 1).isEmpty && (w.sockets 1).any fun s => s.socket_type == .udp &&
      (s.send_buffer.empty &&
        (UdpSocket.send_to .small w 1 s one_byte unix_address true).toOption.isSome))
    (by decide +kernel)
  simp only [Bool.and_eq_true, List.isEmpty_iff, Option.any_eq_true, beq_iff_eq,
    Option.isSome_iff_exists] at hw
  obtain ⟨hidle, s, hs, hudp, hempty, ⟨result, w'⟩, hsend⟩ := hw
  have hsend := IoBuffer.toOption_eq_some_iff.mp hsend
  obtain ⟨hdown, hresult, hqueued, hlost, _, hstuck⟩ :=
    send_to_never_turns_down hreach hs hudp (by decide) hsend
  exact ⟨w, s, w', result, hreach, hs, hsend, hdown, hresult, hqueued, hlost hempty,
    hstuck (by simp [one_byte]) hidle⟩

/-- The next datagram is not sent either. -/
theorem later_datagram_not_sent : ¬ ∀ w s w' result, (machine .small).Reachable Machine.Any w →
    w.sockets 1 = some s → s.socket_type = .udp → (w.history 1).activations ≠ 0 →
      UdpSocket.send_to .small w 1 s one_byte unix_address true = .ok (result, w') →
        TurnsDown .small 1 w w' result := by
  intro hall
  let next : List Event := [.send_to 1 one_byte (localhost 9) true]
  obtain ⟨w, hreach, hw⟩ := Machine.reachable_of_exec (machine .small) Machine.Any
    [.create_udp, .activate 1 7 true true]
    (fun w => (w.history 1).activations != 0 && (w.sockets 1).any fun s => s.socket_type == .udp &&
      (UdpSocket.send_to .small w 1 s one_byte unix_address true).toOption.any fun sent =>
        ((machine .small).exec Machine.Any sent.2 next).map (·.handed 1) !=
          ((machine .small).exec Machine.Any w next).map (·.handed 1))
    (by decide +kernel)
  simp only [Bool.and_eq_true, Option.any_eq_true, beq_iff_eq, bne_iff_ne] at hw
  obtain ⟨hactive, s, hs, hudp, ⟨result, w'⟩, hsend, hother⟩ := hw
  exact hother ((hall w s w' result hreach hs hudp hactive
    (IoBuffer.toOption_eq_some_iff.mp hsend)).later next (by decide))

end rioring
