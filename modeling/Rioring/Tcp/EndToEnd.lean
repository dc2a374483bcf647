import Rioring.Network
import Rioring.Tcp.Receiving

/-! Two processes with a TCP connection between them. -/

namespace rioring

open World

/-- Two processes, and the connection of socket `i` of the first with socket `j` of the
    second: the kernel of each side has been given a part of the bytes that the kernel
    of the other has taken, of a write in flight too. -/
def connection (p q : Platform) (i j : ObjectId) : Network (fun _ : Bool => World) fun _ => Event where
  node side := machine (if side then q else p)
  carried w := ((w true).history j).received <+: (w false).outgoing i ∧
    ((w false).history i).received <+: (w true).outgoing j

instance (p q : Platform) (i j : ObjectId) : DecidablePred (connection p q i j).carried := fun w =>
  inferInstanceAs (Decidable (((w true).history j).received <+: (w false).outgoing i ∧
    ((w false).history i).received <+: (w true).outgoing j))

/-- Both sockets are activated once, and the receiving side of the sender does not
    end. -/
def one_way (i j : ObjectId) (side : Bool) : World → Event → Prop :=
  if side then permits j View.connected_once else permits i View.one_connection

instance (i j : ObjectId) (side : Bool) : DecidableRel (one_way i j side) :=
  match side with
  | true => inferInstanceAs (DecidableRel (permits j View.connected_once))
  | false => inferInstanceAs (DecidableRel (permits i View.one_connection))

variable {p q : Platform} {i j : ObjectId} {w : Bool → World} {s t : SocketObject}

/-- No byte is lost, doubled or moved between the `send` of one process and the receive
    callbacks of the other: what the sender has accepted is what the kernel has taken and
    what is in the two buffers; what has been received is a part of this, and not more
    than the kernel has taken and the write in flight holds; and what has been received
    is what the callbacks have popped and what is in the receive buffer. -/
theorem tcp_end_to_end
    (hreach : (connection p q i j).machine.Reachable ((connection p q i j).keeps (one_way i j)) w)
    (hs : (w false).sockets i = some s) (htcp : s.socket_type = .tcp)
    (ht : (w true).sockets j = some t) :
    ((w false).history i).accepted = ((w false).history i).written ++
      s.send_buffer.main_buffer.contents ++ s.send_buffer.sub_buffer.contents ∧
    ((w true).history j).received <+: (w false).outgoing i ∧
    (w false).outgoing i <+:
      ((w false).history i).written ++ s.send_buffer.main_buffer.contents ∧
    (t.recv_buffer.raw_buffer.isSome →
      ((w true).history j).received.take ((w true).history j).popped ++ t.recv_buffer.contents =
        ((w true).history j).received) := by
  have hcarried := Network.reachable_carried hreach ⟨List.nil_prefix, List.nil_prefix⟩
  have hsender : (machine p).Reachable (permits i View.one_connection) (w false) :=
    Network.reachable_node hreach false
  have howes := sender_owes hsender hs htcp
  obtain ⟨_, hwhole⟩ := received_whole (Network.reachable_node hreach true) ht
  refine ⟨?_, hcarried.1, outgoing_in_place hsender hs, fun hraw => ?_⟩
  · rw [howes, IoDoubleBuffer.contents, List.append_assoc]
  · have hheld : t.recv_buffer.contents =
        ((w true).history j).received.drop ((w true).history j).popped := (hwhole.held hraw).1
    rw [hheld, List.take_append_drop]

/-- Five bytes in flight, of which the receiver has two before the kernel reports three
    of them, and pops one. -/
def three_on_the_way : List (Σ _ : Bool, Event) := [
  ⟨false, .create_tcp⟩,
  ⟨false, .connect 1 [⟨7, true⟩] true⟩,
  ⟨true, .create_tcp⟩,
  ⟨true, .connect 1 [⟨7, true⟩] true⟩,
  ⟨false, .send 1 five_bytes⟩,
  ⟨false, .send_locked 0 true⟩,
  ⟨true, .complete 0 { res := 2, data := [1, 2] } true⟩,
  ⟨false, .complete 1 { res := 3 } true⟩,
  ⟨true, .pop 1 1⟩]

theorem tcp_end_to_end_three_on_the_way : ∃ w s t,
    (connection .small .small 1 1).machine.Reachable
      ((connection .small .small 1 1).keeps (one_way 1 1)) w ∧
    (w false).sockets 1 = some s ∧ (w true).sockets 1 = some t ∧ t.recv_buffer.contents = [2] ∧
    ((w false).history 1).accepted = ((w false).history 1).written ++
      s.send_buffer.main_buffer.contents ++ s.send_buffer.sub_buffer.contents ∧
    ((w true).history 1).received <+: (w false).outgoing 1 ∧
    ((w true).history 1).received.take ((w true).history 1).popped ++ t.recv_buffer.contents =
      ((w true).history 1).received := by
  obtain ⟨w, hreach, hw⟩ := Machine.reachable_of_exec (connection .small .small 1 1).machine
    ((connection .small .small 1 1).keeps (one_way 1 1)) three_on_the_way
    (fun w => ((w false).sockets 1).any (·.socket_type == .tcp) &&
      ((w true).sockets 1).any (fun t => t.recv_buffer.contents == [2] &&
        t.recv_buffer.raw_buffer.isSome)) (by decide +kernel)
  simp only [Bool.and_eq_true, Option.any_eq_true, beq_iff_eq] at hw
  obtain ⟨⟨s, hs, htcp⟩, t, ht, hcontents, hraw⟩ := hw
  obtain ⟨haccepted, hreceived, _, hheld⟩ := tcp_end_to_end hreach hs htcp ht
  exact ⟨w, s, t, hreach, hs, ht, hcontents, haccepted, hreceived, hheld hraw⟩

end rioring
