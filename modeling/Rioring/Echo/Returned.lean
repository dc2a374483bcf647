import Rioring.Echo.Echoes
import Rioring.Network

/-! The echo server and a client that is connected to it. -/

namespace rioring

open World Service

namespace Echo

namespace Server

variable {p : Platform} {concurrency : Nat} {s t : Server} {j : ObjectId}

/-- The receive side of a socket does not end. -/
def lasts (j : ObjectId) : Server → ServerEvent → Prop :=
  Program.lasts Server.service ServerEvent.library j

instance (j : ObjectId) : DecidableRel (lasts j) :=
  inferInstanceAs (DecidableRel (Program.lasts Server.service ServerEvent.library j))

end Server

/-- The process of each party: the server, or a client that does what it likes. -/
def Party : Bool → Type
  | false => Server
  | true => World

def PartyEvent : Bool → Type
  | false => ServerEvent
  | true => Event

abbrev Parties : Type := ∀ side, Party side

def Parties.server (s : Parties) : Server := s false

def Parties.client (s : Parties) : World := s true

/-- The kernel of each side has been given a part of the bytes that the kernel of the
    other has taken, of a write in flight too, from socket `j` of the server and socket
    `i` of the client. -/
def Carried (i j : ObjectId) (s : Parties) : Prop :=
  (s.server.world.history j).received <+: s.client.outgoing i ∧
    (s.client.history i).received <+: s.server.world.outgoing j

def echo_network (p q : Platform) (concurrency : Nat) (i j : ObjectId) : Network Party PartyEvent where
  node
    | false => server p concurrency
    | true => machine q
  carried := Carried i j

/-- The connection does not end on either side. -/
def staying (i j : ObjectId) : ∀ side, Party side → PartyEvent side → Prop
  | false => Server.lasts j
  | true => World.permits i View.one_connection

instance (i j : ObjectId) : DecidablePred (Carried i j) := fun s =>
  inferInstanceAs (Decidable ((s.server.world.history j).received <+: s.client.outgoing i ∧
    (s.client.history i).received <+: s.server.world.outgoing j))

instance (p q : Platform) (concurrency : Nat) (i j : ObjectId) :
    DecidablePred (echo_network p q concurrency i j).carried :=
  inferInstanceAs (DecidablePred (Carried i j))

instance (i j : ObjectId) (side : Bool) : DecidableRel (staying i j side) :=
  match side with
  | false => inferInstanceAs (DecidableRel (Server.lasts j))
  | true => inferInstanceAs (DecidableRel (World.permits i View.one_connection))

section EndToEnd

variable {p q : Platform} {concurrency : Nat} {i j : ObjectId} {s : Parties}

/-- What comes back to a client is what it has sent, byte for byte from the first: a
    part of it, and all of it once all has come in on both sides, and the callback of the
    server has popped it and returned. -/
theorem echo_returned (hreach : (echo_network p q concurrency i j).machine.Reachable
      ((echo_network p q concurrency i j).keeps (staying i j)) s) {sock csock : SocketObject}
    (hsock : s.server.world.sockets j = some sock)
    (hactive : (s.server.world.history j).activations ≠ 0)
    (hcsock : s.client.sockets i = some csock) (htcp : csock.socket_type = .tcp) :
    (s.client.history i).received <+: (s.client.history i).accepted ∧
      (sock.connected_flag = true → sock.shutdown_gracefully = false → s.server.turns j = none →
        (s.server.world.history j).received = (s.client.history i).accepted →
        (s.server.world.history j).popped = (s.server.world.history j).received.length →
        (s.client.history i).received = (s.server.world.history j).accepted →
        (s.client.history i).received = (s.client.history i).accepted) := by
  have hcarried := Network.reachable_carried hreach ⟨List.nil_prefix, List.nil_prefix⟩
  have hserver : (server p concurrency).Reachable (Server.lasts j) s.server :=
    Network.reachable_node hreach false
  have hclient : (machine q).Reachable (World.permits i View.one_connection) s.client :=
    Network.reachable_node hreach true
  have hcowes := outgoing_accepted hclient hcsock htcp
  obtain ⟨_, hcalled⟩ := accepts_only_permits (Server.serves.accepts_reached hserver) j
  have hlasted := permitted (Server.serves.accepts_lasted (fun _ _ h => h) hserver)
  have hsowes := outgoing_accepted hlasted hsock (accepted_tcp hcalled hsock hactive)
  have hechoed := (Server.echoes hserver j).echoed (by rw [← Server.world, hsock]; rfl)
  refine ⟨?_, fun hconnected hgraceful hturn harrived hpopped hback => ?_⟩
  · calc (s.client.history i).received
        <+: s.server.world.outgoing j := hcarried.2
      _ <+: (s.server.world.history j).accepted := hsowes
      _ <+: (s.server.world.history j).received := hechoed.part
      _ <+: s.client.outgoing i := hcarried.1
      _ <+: (s.client.history i).accepted := hcowes
  · rw [hturn] at hechoed
    have hlive : s.server.world.live j = (sock.connected_flag && !sock.shutdown_gracefully) :=
      live_eq hsock
    have hwhole := hechoed.whole (by rw [← Server.world, hlive, hconnected, hgraceful]; rfl)
    rw [hback, Server.world, hwhole, ← Server.world, hpopped, List.take_length, harrived]

end EndToEnd

/-- A client connects, and its five bytes come back to it. -/
def five_bytes_echoed : List (Σ side, PartyEvent side) :=
  let server (e : ServerEvent) : Σ side, PartyEvent side := ⟨false, e⟩
  let client (e : Event) : Σ side, PartyEvent side := ⟨true, e⟩
  [server (.service (.process .create_server 0)),
    server (.service (.process (.set_event 1 .accept true) 0)),
    server (.service (.process (.run 1 7 true true 0 true) 0)),
    client .create_tcp,
    client (.connect 1 [⟨7, true⟩] true),
    server (.service (.process (.complete 0 { res := 8 } true) 0)),
    server (.service (.process (.set_event 2 .receive true) 0)),
    server (.service (.process (.resume 0 true true) 0)),
    server (.service (.process (.finish 0) 0)),
    client (.send 1 five_bytes),
    client (.send_locked 0 true),
    server (.service (.process (.complete 2 { res := 5, data := [1, 2, 3, 4, 5] } true) 0)),
    client (.complete 1 { res := 5 } true),
    server (.send 2 0),
    server (.send_locked 0 0 true),
    server (.pop 2 0),
    server (.service (.process (.finish 2) 0)),
    client (.complete 0 { res := 5, data := [1, 2, 3, 4, 5] } true),
    server (.service (.process (.complete 3 { res := 5 } true) 0))]

/-- What the run has come to, checked by evaluation. -/
def returned (s : Parties) : Bool :=
  ((s.server.world.sockets 2).any fun sock => sock.connected_flag && !sock.shutdown_gracefully) &&
    (s.server.world.history 2).activations != 0 && (s.client.sockets 1).any (·.socket_type == .tcp) &&
    (s.server.turns 2).isNone && (s.server.world.history 2).received == (s.client.history 1).accepted &&
    (s.server.world.history 2).popped == (s.server.world.history 2).received.length &&
    (s.client.history 1).received == (s.server.world.history 2).accepted &&
    (s.client.history 1).received == [1, 2, 3, 4, 5]

theorem bytes_are_returned : ∃ s : Parties,
    (echo_network .roomy .roomy 2 1 2).machine.Reachable
      ((echo_network .roomy .roomy 2 1 2).keeps (staying 1 2)) s ∧ returned s = true :=
  Machine.reachable_of_exec _ _ five_bytes_echoed returned (by decide +kernel)

theorem echo_returned_five_bytes : ∃ s : Parties,
    (echo_network .roomy .roomy 2 1 2).machine.Reachable
      ((echo_network .roomy .roomy 2 1 2).keeps (staying 1 2)) s ∧
    (s.client.history 1).received = [1, 2, 3, 4, 5] ∧
    (s.client.history 1).received = (s.client.history 1).accepted := by
  obtain ⟨s, hreach, hs⟩ := bytes_are_returned
  simp only [returned, Bool.and_eq_true, Option.any_eq_true, Bool.not_eq_true',
    Option.isNone_iff_eq_none, bne_iff_ne, beq_iff_eq] at hs
  obtain ⟨⟨⟨⟨⟨⟨⟨⟨sock, hsock, hconnected, hgraceful⟩, hactive⟩, csock, hcsock, htcp⟩, hturn⟩,
    harrived⟩, hpopped⟩, hback⟩, hreceived⟩ := hs
  obtain ⟨_, hall⟩ := echo_returned hreach hsock hactive hcsock htcp
  exact ⟨s, hreach, hreceived, hall hconnected hgraceful hturn harrived hpopped hback⟩

end Echo

end rioring
