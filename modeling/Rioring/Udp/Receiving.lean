import Rioring.Inbound.Receiving
import Rioring.Outbound.Run
import Rioring.Outbound.Storage

namespace rioring

namespace View

/-- One activation, every submission with an entry, and only datagrams with at
    least one byte. -/
def keeps_receiving (v : View) (a : Action) : Prop := v.inbound.keeps_receiving a

/-- One activation, every submission with an entry, datagrams of any length, and
    no close. -/
def any_datagram (v : View) : Action → Prop
  | .start sqe => v.history.activations = 0 ∧ sqe = true
  | .received _ _ sqe | .send_to _ _ sqe | .sent _ _ sqe => sqe = true
  | .receive_ended _ res => res = 0
  | .close _ _ => False
  | _ => True

instance : DecidableRel keeps_receiving := fun v a =>
  inferInstanceAs (Decidable (v.inbound.keeps_receiving a))

instance : DecidableRel any_datagram := fun v a =>
  match a with
  | .start sqe => inferInstanceAs (Decidable (v.history.activations = 0 ∧ sqe = true))
  | .received _ _ sqe | .send_to _ _ sqe | .sent _ _ sqe => inferInstanceAs (Decidable (sqe = true))
  | .receive_ended _ res => inferInstanceAs (Decidable (res = 0))
  | .close .. => .isFalse id
  | .idle | .set_event | .send .. | .send_failed .. | .shut_down .. | .pop .. => .isTrue trivial

end View

open World

variable {p : Platform} {i : ObjectId} {w : World} {s : SocketObject}

/-- In a run whose datagrams all have a byte the socket keeps receiving. -/
theorem udp_keeps_receiving (hreach : (machine p).Reachable (permits i View.keeps_receiving) w)
    (hs : w.sockets i = some s) (hactive : (w.history i).activations ≠ 0) :
    (w.reads i).length = 1 ∧ s.recv_buffer.raw_buffer.isSome ∧
      s.send_buffer.main_buffer.raw_buffer.isSome ∧ .close ∉ (w.history i).callbacks := by
  have hreceives : (w.view_with i s).inbound.Sound p ∧ (w.view_with i s).inbound.Live := by
    refine reachable_view (P := fun v => v.inbound.Sound p ∧ v.inbound.Live)
      (fun v hfresh => hfresh.inbound) ?_ hreach (view_eq hs)
    rintro v a v' ⟨hsound, hlive⟩ hallowed hmove
    exact ⟨hsound.move hmove.inbound, hlive.move hsound hallowed hmove.inbound⟩
  have hsends : (w.view_with i s).outbound.Sound ∧ ((w.view_with i s).outbound.activations ≠ 0 →
      (w.view_with i s).outbound.send_buffer.main_buffer.raw_buffer.isSome) := by
    refine reachable_outbound
      (P := fun o => o.activations ≠ 0 → o.send_buffer.main_buffer.raw_buffer.isSome) ?_ ?_ hreach hs
    · intro v hfresh h
      refine absurd ?_ h
      change v.history.activations = 0
      rw [hfresh.history]
    · intro v a o' hsound hallocated hallowed hmove
      refine hmove.allocated hsound ?_ hallocated
      rintro r res rfl
      exact absurd hallowed id
  obtain ⟨_, hlive⟩ := hreceives
  obtain ⟨_, hallocated⟩ := hsends
  obtain ⟨hone, hraw⟩ := hlive.active hactive
  refine ⟨hone, hraw, hallocated hactive, fun hclose => hlive.unclosed ?_⟩
  exact List.mem_filter.mpr ⟨hclose, rfl⟩

/-- A datagram of three bytes arrives. -/
def datagram_received : List Event := [
  .create_udp,
  .activate 1 7 true true,
  .complete 0 { res := 3, data := [1, 2, 3], peer := { sa_family := AF_INET } } true]

theorem udp_keeps_receiving_datagram : ∃ w s,
    (machine .small).Reachable (permits 1 View.keeps_receiving) w ∧ w.sockets 1 = some s ∧
      (w.history 1).received = [1, 2, 3] ∧ (w.reads 1).length = 1 ∧
      s.recv_buffer.raw_buffer.isSome ∧ s.send_buffer.main_buffer.raw_buffer.isSome ∧
      .close ∉ (w.history 1).callbacks := by
  obtain ⟨w, hreach, hw⟩ := Machine.reachable_of_exec (machine .small)
    (permits 1 View.keeps_receiving) datagram_received
    (fun w => (w.sockets 1).isSome && (w.history 1).received == [1, 2, 3] &&
      (w.history 1).activations != 0) (by decide +kernel)
  simp only [Bool.and_eq_true, Option.isSome_iff_exists, beq_iff_eq, bne_iff_ne] at hw
  obtain ⟨⟨⟨s, hs⟩, hreceived⟩, hactive⟩ := hw
  exact ⟨w, s, hreach, hs, hreceived, udp_keeps_receiving hreach hs hactive⟩

/-- A datagram without bytes arrives. -/
def empty_datagram : List Event := [
  .create_udp,
  .activate 1 7 true true,
  .complete 0 { res := 0, peer := { sa_family := AF_INET } } true]

theorem udp_silenced : ¬ ∀ w s,
    (machine .small).Reachable (permits 1 View.any_datagram) w → w.sockets 1 = some s →
      s.socket_type = .udp → (w.history 1).activations ≠ 0 → (w.reads 1).length = 1 := by
  intro hall
  obtain ⟨w, hreach, hw⟩ := Machine.reachable_of_exec (machine .small)
    (permits 1 View.any_datagram) empty_datagram
    (fun w => (w.sockets 1).any (·.socket_type == .udp) && (w.history 1).activations != 0 &&
      (w.reads 1).isEmpty) (by decide +kernel)
  simp only [Bool.and_eq_true, Option.any_eq_true, beq_iff_eq, bne_iff_ne, List.isEmpty_iff] at hw
  obtain ⟨⟨⟨s, hs, hudp⟩, hactive⟩, hnone⟩ := hw
  have hone := hall w s hreach hs hudp hactive
  rw [hnone] at hone
  cases hone

end rioring
