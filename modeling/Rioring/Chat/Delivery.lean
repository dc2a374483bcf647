import Rioring.Chat.Names
import Rioring.Tcp.EndToEnd

/-! The chat server with its clients: the way of a word from the input of one client
to the callback of another. -/

namespace rioring

open World Service

namespace Chat

namespace Server

variable {p : Platform} {concurrency : Nat} {s t : Server} {j : ObjectId}
  {allowed : Server → ServerEvent → Prop}

/-- The receive side of a client does not end. -/
def lasts (j : ObjectId) : Server → ServerEvent → Prop :=
  Program.lasts Server.service ServerEvent.library j

instance (j : ObjectId) : DecidableRel (lasts j) :=
  inferInstanceAs (DecidableRel (Program.lasts Server.service ServerEvent.library j))

/-- The name and the text of a message of the log. -/
def line (s : Server) (entry : ObjectId × Bytes) : List UInt8 × List UInt8 :=
  (s.names entry.1, entry.2.val.drop sizeof_response_chat)

theorem line_spec (hreach : (server p concurrency).Reachable allowed s) {entry : ObjectId × Bytes}
    (hentry : entry ∈ s.log) : Said (s.line entry) ∧ respond (s.line entry) = entry.2.val := by
  obtain ⟨_, _, text, hsaid, hmessage⟩ := (spoken hreach).log entry hentry
  have htext : entry.2.val.drop sizeof_response_chat = text := by
    rw [hmessage]
    exact response_chat_drop hsaid.name text
  rw [line, htext]
  exact ⟨hsaid, hmessage.symm⟩

end Server

/-- The process of each party: the server, or one of its clients. -/
def Party (κ : Type) : Option κ → Type
  | none => Server
  | some _ => Client

def PartyEvent (κ : Type) : Option κ → Type
  | none => ServerEvent
  | some _ => ClientEvent

variable {κ : Type}

/-- The processes of all parties. -/
abbrev Parties (κ : Type) : Type := ∀ i, Party κ i

def Parties.server (s : Parties κ) : Server := s none

def Parties.client (s : Parties κ) (n : κ) : Client := s (some n)

/-- The kernel of the server has been given, for the socket `peer n`, a part of the bytes
    that the kernel of client `n` has taken, of a write in flight too, and the other way
    round. -/
def Carried (peer : κ → ObjectId) (s : Parties κ) : Prop := ∀ n,
  (s.server.world.history (peer n)).received <+: (s.client n).world.outgoing Client.socket ∧
    ((s.client n).world.history Client.socket).received <+: s.server.world.outgoing (peer n)

def chat_network (p : Option κ → Platform) (concurrency : Option κ → Nat) (peer : κ → ObjectId) :
    Network (Party κ) (PartyEvent κ) where
  node
    | none => server (p none) (concurrency none)
    | some n => client (p (some n)) (concurrency (some n))
  carried := Carried peer

/-- The connection of client `n` does not end on its side, nor that of client `m` on the
    side of the server. The other clients come and go. -/
def staying [DecidableEq κ] (peer : κ → ObjectId) (n m : κ) :
    ∀ i, Party κ i → PartyEvent κ i → Prop
  | none => Server.lasts (peer m)
  | some k => fun s e => k = n → Client.lasts s e

instance [Fintype κ] (peer : κ → ObjectId) : DecidablePred (Carried peer) := fun s =>
  inferInstanceAs (Decidable (∀ n,
    (s.server.world.history (peer n)).received <+: (s.client n).world.outgoing Client.socket ∧
    ((s.client n).world.history Client.socket).received <+: s.server.world.outgoing (peer n)))

instance [Fintype κ] (p : Option κ → Platform) (concurrency : Option κ → Nat) (peer : κ → ObjectId) :
    DecidablePred (chat_network p concurrency peer).carried :=
  inferInstanceAs (DecidablePred (Carried peer))

instance [DecidableEq κ] (peer : κ → ObjectId) (n m : κ) (i : Option κ) :
    DecidableRel (staying peer n m i) :=
  match i with
  | none => inferInstanceAs (DecidableRel (Server.lasts (peer m)))
  | some k => fun (s : Client) (e : ClientEvent) => inferInstanceAs (Decidable (k = n → s.lasts e))

section Delivery

variable [DecidableEq κ] {p : Option κ → Platform} {concurrency : Option κ → Nat}
  {peer : κ → ObjectId} {n m : κ} {s : Parties κ}

/-- What the server has received from a client is a part of the messages of its
    input. -/
theorem types_input (hreach : (chat_network p concurrency peer).machine.Reachable
      ((chat_network p concurrency peer).keeps (staying peer n m)) s) :
    (s.server.world.history (peer n)).received <+: ((s.client n).sent.map input_message).flatten := by
  have hcarried := Network.reachable_carried hreach fun _ => ⟨List.nil_prefix, List.nil_prefix⟩
  have hclient : (client (p (some n)) (concurrency (some n))).Reachable
      (fun s e => n = n → Client.lasts s e) (s.client n) := Network.reachable_node hreach (some n)
  have hlasted := Client.lasted hclient fun s e h => h rfl
  obtain ⟨_, hbegun⟩ := Client.begun hclient
  refine (hcarried n).1.trans ?_
  rw [← (Client.sends hclient).accepted]
  by_cases hstarts : (s.client n).stage = .starts
  · have hworld : (s.client n).world = World.start (p (some n)) := hbegun.starts hstarts
    rw [hworld]
    exact List.nil_prefix
  · obtain ⟨sock, hsock, htcp⟩ := hbegun.made hstarts
    exact outgoing_accepted (permitted hlasted) hsock htcp

/-- What comes in to client `m` are the messages of the log from where it became
    active. -/
theorem brings_heard (hreach : (chat_network p concurrency peer).machine.Reachable
      ((chat_network p concurrency peer).keeps (staying peer n m)) s) {sock : SocketObject}
    (hsock : s.server.world.sockets (peer m) = some sock)
    (hactive : (s.server.world.history (peer m)).activations ≠ 0) :
    ∃ sent, sent <+: s.server.log.drop (s.server.joined (peer m)) ∧
      (s.server.world.history (peer m)).accepted = (sent.map (·.2.val)).flatten ∧
      ((s.client m).world.history Client.socket).received <+: (sent.map (·.2.val)).flatten ∧
      (∀ entry ∈ sent, Said (s.server.line entry) ∧ respond (s.server.line entry) = entry.2.val) ∧
      (sock.connected_flag = true → sock.shutdown_gracefully = false → s.server.broadcast = none →
        sent = s.server.log.drop (s.server.joined (peer m))) := by
  have hcarried := Network.reachable_carried hreach fun _ => ⟨List.nil_prefix, List.nil_prefix⟩
  have hserver : (server (p none) (concurrency none)).Reachable (Server.lasts (peer m)) s.server :=
    Network.reachable_node hreach none
  have hlasted := permitted (Server.serves.accepts_lasted (fun _ _ h => h) hserver)
  obtain ⟨_, hcalled⟩ := accepts_only_permits (Server.serves.accepts_reached hserver) (peer m)
  obtain ⟨sent, hsent, haccepted, hall⟩ := (Server.relayed hserver).piece hsock hactive
  refine ⟨sent, hsent, haccepted, ?_, fun entry hentry => ?_, hall⟩
  · rw [← haccepted]
    exact (hcarried m).2.trans (outgoing_accepted hlasted hsock (accepted_tcp hcalled hsock hactive))
  · exact Server.line_spec hserver (List.mem_of_mem_drop (hsent.subset hentry))

/-- What client `m` has taken and shown of the log. -/
theorem shown_heard (hreach : (chat_network p concurrency peer).machine.Reachable
      ((chat_network p concurrency peer).keeps (staying peer n m)) s) {sock : SocketObject}
    (hsock : s.server.world.sockets (peer m) = some sock)
    (hactive : (s.server.world.history (peer m)).activations ≠ 0) :
    ∃ sent, sent <+: s.server.log.drop (s.server.joined (peer m)) ∧
      (s.client m).taken <+: sent.map (·.2.val) ∧
      Showing (sent.map s.server.line) (s.client m).turn (s.client m).taken (s.client m).shown
        (s.client m).refused ∧
      (sock.connected_flag = true → sock.shutdown_gracefully = false → s.server.broadcast = none →
        ((s.client m).world.history Client.socket).received =
          (s.server.world.history (peer m)).accepted → (s.client m).turn = none →
        (s.client m).taken = sent.map (·.2.val) ∧
          sent = s.server.log.drop (s.server.joined (peer m))) := by
  have hclient : (client (p (some m)) (concurrency (some m))).Reachable
      (fun s e => m = n → Client.lasts s e) (s.client m) := Network.reachable_node hreach (some m)
  obtain ⟨sent, hsent, haccepted, hreceived, hlines, hall⟩ := brings_heard hreach hsock hactive
  have hencoded : (sent.map s.server.line).map respond = sent.map (·.2.val) := by
    rw [List.map_map]
    exact List.map_congr_left fun entry hentry => (hlines entry hentry).2
  have hsaid : ∀ response ∈ sent.map s.server.line, Said response := by
    intro response hresponse
    obtain ⟨entry, hentry, rfl⟩ := List.mem_map.mp hresponse
    exact (hlines entry hentry).1
  have hbrings : Brings (s.client m).world Client.socket ((sent.map s.server.line).map respond).flatten := by
    rw [hencoded]
    exact fun _ => hreceived
  have hshowing := Client.showing hsaid hclient hbrings
  have htaken := Client.taken_of hclient hsaid hbrings
  rw [hencoded] at htaken
  refine ⟨sent, hsent, htaken, hshowing, fun hconnected hgraceful hidle hcame hturn => ⟨?_, ?_⟩⟩
  · have hframes : ∀ message ∈ sent.map (·.2.val), scheme.IsFrame message := by
      rw [← hencoded]
      intro message hmessage
      obtain ⟨response, hresponse, rfl⟩ := List.mem_map.mp hmessage
      exact (hsaid response hresponse).message.whole
    rw [haccepted] at hcame
    have htuned := Client.tuned hclient
    cases hsocket : (s.client m).service.world.sockets Client.socket with
    | some csock =>
      exact ((htuned.heard csock hsocket).messages hframes hreceived).2 hcame hturn hshowing.known
    | none =>
      obtain ⟨_, hbegun⟩ := Client.begun hclient
      have hstarts : (s.client m).service.world = World.start (p (some m)) := by
        by_contra hworld
        obtain ⟨csock, hcsock, _⟩ := hbegun.made (mt hbegun.starts hworld)
        cases hsocket.symm.trans hcsock
      have hnothing : (sent.map (·.2.val)).flatten = [] := by
        rw [← hcame, Client.world, hstarts]
        rfl
      rw [(htuned.unmade hsocket).2.1]
      cases hmessages : sent.map (·.2.val) with
      | nil => rfl
      | cons message messages =>
        rw [hmessages] at hframes hnothing
        have hheader : sizeof_scheme ≤ message.length := (hframes _ List.mem_cons_self).header
        have hempty : message = [] := (List.append_eq_nil_iff.mp hnothing).1
        rw [hempty] at hheader
        cases hheader
  · exact hall hconnected hgraceful hidle

/-- The messages of the log in the name of client `n` are those of its words. -/
theorem words_said (hreach : (chat_network p concurrency peer).machine.Reachable
      ((chat_network p concurrency peer).keeps (staying peer n m)) s)
    (hlines : ∀ input ∈ (s.client n).sent, Line input)
    (hsorted : (s.client n).sent.Pairwise fun input input' => input.length ≤ input'.length) :
    (s.server.log.filter (·.1 = peer n)).map (·.2.val) <+:
      (s.client n).sent.map (response_chat (s.server.names (peer n))) := by
  have hserver : (server (p none) (concurrency none)).Reachable (Server.lasts (peer m)) s.server :=
    Network.reachable_node hreach none
  obtain ⟨hsaid, _, _⟩ := Server.worded hlines hsorted hserver fun _ => types_input hreach
  have hpart : (s.server.log.filter (·.1 = peer n)).map (·.2.val) <+: s.server.said (peer n) :=
    List.prefix_append _ _
  refine hpart.trans ?_
  rw [hsaid]
  exact (List.take_prefix _ _).map _

/-- The words of client `n` come to client `m` one after the other: what `m` has taken is
    a part of the sequence of all messages, and of those in the name of `n` there are in it
    the words of `n` in their order, without one twice and without one left out. -/
theorem words_delivered (hreach : (chat_network p concurrency peer).machine.Reachable
      ((chat_network p concurrency peer).keeps (staying peer n m)) s) {sock : SocketObject}
    (hsock : s.server.world.sockets (peer m) = some sock)
    (hactive : (s.server.world.history (peer m)).activations ≠ 0)
    (hlines : ∀ input ∈ (s.client n).sent, Line input)
    (hsorted : (s.client n).sent.Pairwise fun input input' => input.length ≤ input'.length) :
    ∃ heard, heard <+: s.server.log.drop (s.server.joined (peer m)) ∧
      (s.client m).taken = heard.map (·.2.val) ∧
      (heard.filter (·.1 = peer n)).map (·.2.val) <:+:
        (s.client n).sent.map (response_chat (s.server.names (peer n))) := by
  obtain ⟨sent, hsent, htaken, _⟩ := shown_heard hreach hsock hactive
  have hpart : (s.client m).taken = (sent.take (s.client m).taken.length).map (·.2.val) := by
    rw [List.map_take]
    exact List.prefix_iff_eq_take.mp htaken
  have hheard : sent.take (s.client m).taken.length <+: s.server.log.drop (s.server.joined (peer m)) :=
    (List.take_prefix _ _).trans hsent
  have hpiece := hheard.isInfix.trans (List.drop_suffix _ _).isInfix
  exact ⟨_, hheard, hpart, ((hpiece.filter _).map _).trans (words_said hreach hlines hsorted).isInfix⟩

/-- While no two clients have one name, the entries of a part of the log with the name of
    a client and a text are those of that client. -/
theorem named_entries (hreach : (chat_network p concurrency peer).machine.Reachable
      ((chat_network p concurrency peer).keeps (staying peer n m)) s)
    (hids : s.server.name_id ≤ 2 ^ 32) (hlines : ∀ input ∈ (s.client n).sent, Line input)
    (hsorted : (s.client n).sent.Pairwise fun input input' => input.length ≤ input'.length)
    {heard : List (ObjectId × Bytes)} (hheard : ∀ entry ∈ heard, entry ∈ s.server.log) :
    ((heard.map s.server.line).filter (·.2 ≠ [])).filter (·.1 = s.server.names (peer n)) =
      (heard.filter (·.1 = peer n)).map s.server.line := by
  have hserver : (server (p none) (concurrency none)).Reachable (Server.lasts (peer m)) s.server :=
    Network.reachable_node hreach none
  rw [List.filter_filter, List.filter_map]
  refine congrArg _ (List.filter_congr fun entry hentry => ?_)
  have hlog := hheard entry hentry
  obtain ⟨_, hname, _⟩ := (Server.spoken hserver).log entry hlog
  by_cases hpeer : entry.1 = peer n
  · have hsaid : entry.2.val ∈ (s.client n).sent.map (response_chat (s.server.names (peer n))) := by
      refine (words_said hreach hlines hsorted).subset (List.mem_map_of_mem ?_)
      rw [List.mem_filter, decide_eq_true_iff]
      exact ⟨hlog, hpeer⟩
    obtain ⟨input, hinput, hmessage⟩ := List.mem_map.mp hsaid
    have htext : (s.server.line entry).2 = input := by
      rw [Server.line, ← hmessage]
      exact response_chat_drop ((Server.named hserver).fits (peer n)) input
    have hnonempty : (s.server.line entry).2 ≠ [] := htext ▸ (hlines input hinput).nonempty
    have hnames : (s.server.line entry).1 = s.server.names (peer n) := by rw [Server.line, hpeer]
    simp [hnonempty, hnames, hpeer]
  · have hother : (s.server.line entry).1 ≠ s.server.names (peer n) := fun hsame =>
      hpeer ((Server.named hserver).distinct hids _ _ hname hsame)
    simp [hother, hpeer]

theorem texts_of (hreach : (chat_network p concurrency peer).machine.Reachable
      ((chat_network p concurrency peer).keeps (staying peer n m)) s) (words : List (List UInt8)) :
    (words.map (response_chat (s.server.names (peer n)))).map (·.drop sizeof_response_chat) = words := by
  have hserver : (server (p none) (concurrency none)).Reachable (Server.lasts (peer m)) s.server :=
    Network.reachable_node hreach none
  have hname : (s.server.names (peer n)).length < 20 := (Server.named hserver).fits (peer n)
  rw [List.map_map]
  exact (List.map_congr_left fun word _ => response_chat_drop hname word).trans (List.map_id _)

/-- What client `m` shows in the name of client `n` are the texts of the messages it has
    taken in that name. -/
theorem shown_named (hreach : (chat_network p concurrency peer).machine.Reachable
      ((chat_network p concurrency peer).keeps (staying peer n m)) s) {sock : SocketObject}
    (hsock : s.server.world.sockets (peer m) = some sock)
    (hactive : (s.server.world.history (peer m)).activations ≠ 0)
    (hids : s.server.name_id ≤ 2 ^ 32) (hlines : ∀ input ∈ (s.client n).sent, Line input)
    (hsorted : (s.client n).sent.Pairwise fun input input' => input.length ≤ input'.length) :
    ∃ heard, heard <+: s.server.log.drop (s.server.joined (peer m)) ∧
      (s.client m).taken = heard.map (·.2.val) ∧
      List.Forall₂ (fun shown word => word <+: shown.2)
        ((s.client m).shown.filter (·.1 = s.server.names (peer n)))
        (((heard.filter (·.1 = peer n)).map (·.2.val)).map (·.drop sizeof_response_chat)) ∧
      (((s.server.log.drop (s.server.joined (peer m))).Pairwise fun entry entry' =>
          entry.2.val.length ≤ entry'.2.val.length) →
        ((s.client m).shown.filter (·.1 = s.server.names (peer n))).map (·.2) =
          ((heard.filter (·.1 = peer n)).map (·.2.val)).map (·.drop sizeof_response_chat)) := by
  obtain ⟨sent, hsent, htaken, hshowing, _⟩ := shown_heard hreach hsock hactive
  have hpart : (s.client m).taken = (sent.take (s.client m).taken.length).map (·.2.val) := by
    rw [List.map_take]
    exact List.prefix_iff_eq_take.mp htaken
  have hheard : sent.take (s.client m).taken.length <+: s.server.log.drop (s.server.joined (peer m)) :=
    (List.take_prefix _ _).trans hsent
  have hentries := named_entries hreach hids hlines hsorted
    fun _ hentry => List.mem_of_mem_drop (hheard.subset hentry)
  rw [List.map_take] at hentries
  refine ⟨_, hheard, hpart, ?_, fun hgrows => ?_⟩
  · have hshows := hshowing.shows.named (s.server.names (peer n))
    rw [hentries] at hshows
    rw [List.map_map]
    exact List.forall₂_map_right_iff.mpr (List.forall₂_map_right_iff.mp hshows)
  · have hresponses : (sent.map s.server.line).Pairwise fun response response' =>
        response.2.length ≤ response'.2.length := by
      refine List.Pairwise.map _ (fun entry entry' hle => ?_) (hgrows.sublist hsent.sublist)
      rw [Server.line, Server.line, List.length_drop, List.length_drop]
      exact Nat.sub_le_sub_right hle _
    rw [hshowing.same hresponses, hentries, List.map_map, List.map_map]
    rfl

/-- What client `m` shows in the name of client `n` are words of `n`, in their order,
    without one twice and without one left out. Each is at the front of what is shown,
    and is all of it as long as no message is shorter than the one before it. -/
theorem words_shown (hreach : (chat_network p concurrency peer).machine.Reachable
      ((chat_network p concurrency peer).keeps (staying peer n m)) s) {sock : SocketObject}
    (hsock : s.server.world.sockets (peer m) = some sock)
    (hactive : (s.server.world.history (peer m)).activations ≠ 0)
    (hids : s.server.name_id ≤ 2 ^ 32) (hlines : ∀ input ∈ (s.client n).sent, Line input)
    (hsorted : (s.client n).sent.Pairwise fun input input' => input.length ≤ input'.length) :
    ∃ words, words <:+: (s.client n).sent ∧
      List.Forall₂ (fun shown word => word <+: shown.2)
        ((s.client m).shown.filter (·.1 = s.server.names (peer n))) words ∧
      (((s.server.log.drop (s.server.joined (peer m))).Pairwise fun entry entry' =>
          entry.2.val.length ≤ entry'.2.val.length) →
        ((s.client m).shown.filter (·.1 = s.server.names (peer n))).map (·.2) = words) := by
  obtain ⟨heard, hheard, _, hshows, hsame⟩ := shown_named hreach hsock hactive hids hlines hsorted
  have hpiece := hheard.isInfix.trans (List.drop_suffix _ _).isInfix
  have hsaid := ((hpiece.filter (·.1 = peer n)).map (·.2.val)).trans
    (words_said hreach hlines hsorted).isInfix
  have hwords := hsaid.map (·.drop sizeof_response_chat)
  rw [texts_of hreach] at hwords
  exact ⟨_, hwords, hshows, hsame⟩

/-- Nothing is on its way from client `n` to client `m`: the server has received what
    `n` has sent and its callback has returned, no `chat_all` is under way, and `m` has
    received what the server has sent and its callback has returned. -/
structure Settled (peer : κ → ObjectId) (n m : κ) (s : Parties κ) : Prop where
  arrived : (s.server.world.history (peer n)).received =
    ((s.client n).world.history Client.socket).accepted
  relayed : s.server.turns (peer n) = none
  sent : s.server.broadcast = none
  came : ((s.client m).world.history Client.socket).received =
    (s.server.world.history (peer m)).accepted
  shown : (s.client m).turn = none

/-- The server has all words of client `n` in its log when they have arrived and no
    callback is left to relay them. -/
theorem words_all_said (hreach : (chat_network p concurrency peer).machine.Reachable
      ((chat_network p concurrency peer).keeps (staying peer n m)) s) {speaker : SocketObject}
    (hspeaker : s.server.world.sockets (peer n) = some speaker)
    (hlines : ∀ input ∈ (s.client n).sent, Line input)
    (hsorted : (s.client n).sent.Pairwise fun input input' => input.length ≤ input'.length)
    (hsettled : Settled peer n m s) :
    (s.server.log.filter (·.1 = peer n)).map (·.2.val) =
      (s.client n).sent.map (response_chat (s.server.names (peer n))) := by
  have hserver : (server (p none) (concurrency none)).Reachable (Server.lasts (peer m)) s.server :=
    Network.reachable_node hreach none
  have hclient : (client (p (some n)) (concurrency (some n))).Reachable
      (fun s e => n = n → Client.lasts s e) (s.client n) := Network.reachable_node hreach (some n)
  have htypes := types_input hreach
  obtain ⟨hsaid, _, hknown⟩ := Server.worded hlines hsorted hserver fun _ => htypes
  have hframes : ∀ message ∈ (s.client n).sent.map input_message, scheme.IsFrame message := by
    intro message hmessage
    obtain ⟨input, _, rfl⟩ := List.mem_map.mp hmessage
    exact input_message_frame input
  obtain ⟨_, hwhole⟩ := ((Server.tuned hserver (peer n)).heard speaker hspeaker).messages hframes htypes
  have hturn := hsettled.relayed
  have htaken := hwhole (hsettled.arrived.trans (Client.sends hclient).accepted)
    (Server.array_none.mpr hturn) hknown
  rw [htaken, List.length_map, List.take_length, Server.said, hturn, Option.elim_none,
    List.append_nil] at hsaid
  exact hsaid

/-- When nothing is on its way any more client `m` has taken all words of client `n` from
    where it became active. -/
theorem words_all_delivered (hreach : (chat_network p concurrency peer).machine.Reachable
      ((chat_network p concurrency peer).keeps (staying peer n m)) s) {speaker sock : SocketObject}
    (hspeaker : s.server.world.sockets (peer n) = some speaker)
    (hsock : s.server.world.sockets (peer m) = some sock)
    (hactive : (s.server.world.history (peer m)).activations ≠ 0)
    (hlines : ∀ input ∈ (s.client n).sent, Line input)
    (hsorted : (s.client n).sent.Pairwise fun input input' => input.length ≤ input'.length)
    (hsettled : Settled peer n m s) (hconnected : sock.connected_flag = true)
    (hgraceful : sock.shutdown_gracefully = false) :
    (s.client m).taken = (s.server.log.drop (s.server.joined (peer m))).map (·.2.val) ∧
      (s.server.log.filter (·.1 = peer n)).map (·.2.val) =
        (s.client n).sent.map (response_chat (s.server.names (peer n))) := by
  obtain ⟨sent, _, _, _, hall⟩ := shown_heard hreach hsock hactive
  obtain ⟨htaken, hsent⟩ := hall hconnected hgraceful hsettled.sent hsettled.came hsettled.shown
  refine ⟨?_, words_all_said hreach hspeaker hlines hsorted hsettled⟩
  rw [htaken, hsent]

/-- When nothing is on its way any more client `m` has shown all words of client `n`,
    if it became active before the first of them. -/
theorem words_all_shown (hreach : (chat_network p concurrency peer).machine.Reachable
      ((chat_network p concurrency peer).keeps (staying peer n m)) s) {speaker sock : SocketObject}
    (hspeaker : s.server.world.sockets (peer n) = some speaker)
    (hsock : s.server.world.sockets (peer m) = some sock)
    (hactive : (s.server.world.history (peer m)).activations ≠ 0)
    (hids : s.server.name_id ≤ 2 ^ 32) (hlines : ∀ input ∈ (s.client n).sent, Line input)
    (hsorted : (s.client n).sent.Pairwise fun input input' => input.length ≤ input'.length)
    (hfirst : ∀ entry ∈ s.server.log.take (s.server.joined (peer m)), entry.1 ≠ peer n)
    (hsettled : Settled peer n m s) (hconnected : sock.connected_flag = true)
    (hgraceful : sock.shutdown_gracefully = false) :
    List.Forall₂ (fun shown word => word <+: shown.2)
      ((s.client m).shown.filter (·.1 = s.server.names (peer n))) (s.client n).sent := by
  obtain ⟨sent, _, _, _, hall⟩ := shown_heard hreach hsock hactive
  obtain ⟨htaken, rfl⟩ := hall hconnected hgraceful hsettled.sent hsettled.came hsettled.shown
  obtain ⟨heard, hheard, hpart, hshows, _⟩ := shown_named hreach hsock hactive hids hlines hsorted
  have hwhole : heard = s.server.log.drop (s.server.joined (peer m)) := by
    have hlength := congrArg List.length (hpart.symm.trans htaken)
    rw [List.length_map, List.length_map] at hlength
    exact hheard.eq_of_length hlength
  have hlog : heard.filter (·.1 = peer n) = s.server.log.filter (·.1 = peer n) := by
    have hbefore : (s.server.log.take (s.server.joined (peer m))).filter (·.1 = peer n) = [] := by
      refine List.filter_eq_nil_iff.mpr fun entry hentry => ?_
      rw [decide_eq_true_iff]
      exact hfirst entry hentry
    rw [hwhole, ← List.nil_append (List.filter _ (s.server.log.drop _)), ← hbefore,
      ← List.filter_append, List.take_append_drop]
  rw [hlog, words_all_said hreach hspeaker hlines hsorted hsettled, texts_of hreach] at hshows
  exact hshows

end Delivery

/-- The sockets of the server for two clients, in the order in which they are
    accepted. -/
def peers (n : Bool) : ObjectId := if n then 3 else 2

/-- Both clients connect, and the two words of the first come to the second. -/
def words_on_the_way : List (Σ i, PartyEvent Bool i) :=
  let server (e : ServerEvent) : Σ i, PartyEvent Bool i := ⟨none, e⟩
  let client (n : Bool) (e : ClientEvent) : Σ i, PartyEvent Bool i := ⟨some n, e⟩
  let requests := (growing_words.map input_message).flatten
  let responses := (growing_words.map (response_chat (client_name 1))).flatten
  [server (.service (.process .create_server 0)),
    server (.service (.process (.set_event 1 .accept true) 0)),
    server (.service (.process (.run 1 7 true true 0 true) 0)),
    client false (.create 0),
    client false (.connect [⟨7, true⟩] 0 true),
    client true (.create 0),
    client true (.connect [⟨7, true⟩] 0 true),
    server (.service (.process (.complete 0 { res := 8 } true) 0)),
    server (.on_accept 0 0),
    server (.service (.process (.resume 0 true true) 0)),
    server (.service (.process (.finish 0) 0)),
    server (.service (.process (.complete 1 { res := 9 } true) 0)),
    server (.on_accept 1 0),
    server (.service (.process (.resume 1 true true) 0)),
    server (.service (.process (.finish 1) 0)),
    client false (.input [65] 0),
    client false (.send_locked 0 true),
    client false (.input [66, 67] 0),
    client false (.send_locked 0 true),
    client false (.service (.process (.complete 1 { res := 8 } true) 0)),
    server (.service (.process (.complete 2 { res := 17, data := requests } true) 0)),
    server (.pass 2 0 true),
    server (.chat_all 2 [2, 3]),
    server (.send 0),
    server (.send_locked 0 true),
    server (.send 0),
    server (.send_locked 0 true),
    server .sent_all,
    server (.pass 2 0 true),
    server (.chat_all 2 [3, 2]),
    server (.send 0),
    server (.send_locked 0 true),
    server (.send 0),
    server (.send_locked 0 true),
    server .sent_all,
    server (.pass 2 0 true),
    server (.service (.process (.finish 2) 0)),
    server (.service (.process (.complete 5 { res := 28 } true) 0)),
    client true (.service (.process (.complete 0 { res := 57, data := responses } true) 0)),
    client true (.pass 0),
    client true (.pass 0),
    client true (.pass 0)]

/-- What the run has come to, checked by evaluation. -/
def delivered (s : Parties Bool) : Bool :=
  (s.server.world.sockets 2).isSome &&
    ((s.server.world.sockets 3).any fun sock => sock.connected_flag && !sock.shutdown_gracefully) &&
    (s.server.world.history 3).activations != 0 && (s.client false).sent == growing_words &&
    (s.server.world.history 2).received == ((s.client false).world.history 1).accepted &&
    (s.server.turns 2).isNone && s.server.broadcast.isNone &&
    ((s.client true).world.history 1).received == (s.server.world.history 3).accepted &&
    (s.client true).turn.isNone && decide (s.server.name_id ≤ 2 ^ 32) &&
    (s.client true).taken.length == 2 &&
    (s.client true).shown == growing_words.map (fun word => (client_name 1, word)) &&
    s.server.joined 3 == 0

theorem words_are_delivered : ∃ s : Parties Bool,
    (chat_network (fun _ => .roomy) (fun _ => 2) peers).machine.Reachable
      ((chat_network (fun _ => .roomy) (fun _ => 2) peers).keeps (staying peers false true)) s ∧
    delivered s = true :=
  Machine.reachable_of_exec _ _ words_on_the_way delivered (by decide +kernel)

theorem delivered_spec {s : Parties Bool} (hs : delivered s = true) : ∃ speaker sock,
    s.server.world.sockets (peers false) = some speaker ∧
    s.server.world.sockets (peers true) = some sock ∧ sock.connected_flag = true ∧
    sock.shutdown_gracefully = false ∧ (s.server.world.history (peers true)).activations ≠ 0 ∧
    (s.client false).sent = growing_words ∧ Settled peers false true s ∧
    s.server.name_id ≤ 2 ^ 32 ∧ (s.client true).taken.length = 2 ∧
    (s.client true).shown = growing_words.map (fun word => (client_name 1, word)) ∧
    s.server.joined (peers true) = 0 := by
  simp only [delivered, Bool.and_eq_true, Option.any_eq_true, Option.isSome_iff_exists, bne_iff_ne,
    beq_iff_eq, Bool.not_eq_true', Option.isNone_iff_eq_none, decide_eq_true_iff] at hs
  obtain ⟨⟨⟨⟨⟨⟨⟨⟨⟨⟨⟨⟨⟨speaker, hspeaker⟩, sock, hsock, hconnected, hgraceful⟩, hactive⟩, hsent⟩,
    harrived⟩, hrelayed⟩, hidle⟩, hcame⟩, hturn⟩, hids⟩, htaken⟩, hshown⟩, hjoined⟩ := hs
  exact ⟨speaker, sock, hspeaker, hsock, hconnected, hgraceful, hactive, hsent,
    ⟨harrived, hrelayed, hidle, hcame, hturn⟩, hids, htaken, hshown, hjoined⟩

theorem words_delivered_two_words : ∃ (s : Parties Bool) (heard : List (ObjectId × Bytes)),
    (chat_network (fun _ => .roomy) (fun _ => 2) peers).machine.Reachable
      ((chat_network (fun _ => .roomy) (fun _ => 2) peers).keeps (staying peers false true)) s ∧
    (s.client true).taken.length = 2 ∧ (s.client true).taken = heard.map (·.2.val) ∧
    (heard.filter (·.1 = 2)).map (·.2.val) <:+:
      growing_words.map (response_chat (s.server.names 2)) := by
  obtain ⟨s, hreach, hs⟩ := words_are_delivered
  obtain ⟨_, sock, _, hsock, _, _, hactive, hsent, _, _, htaken, _⟩ := delivered_spec hs
  obtain ⟨hlines, hsorted⟩ := growing_words_lines
  rw [← hsent] at hlines hsorted ⊢
  obtain ⟨heard, _, hheard, hwords⟩ := words_delivered hreach hsock hactive hlines hsorted
  exact ⟨s, heard, hreach, htaken, hheard, hwords⟩

theorem words_shown_two_words : ∃ (s : Parties Bool) (words : List (List UInt8)),
    (chat_network (fun _ => .roomy) (fun _ => 2) peers).machine.Reachable
      ((chat_network (fun _ => .roomy) (fun _ => 2) peers).keeps (staying peers false true)) s ∧
    (s.client true).shown = growing_words.map (fun word => (client_name 1, word)) ∧
    words <:+: growing_words ∧ List.Forall₂ (fun shown word => word <+: shown.2)
      ((s.client true).shown.filter (·.1 = s.server.names 2)) words := by
  obtain ⟨s, hreach, hs⟩ := words_are_delivered
  obtain ⟨_, sock, _, hsock, _, _, hactive, hsent, _, hids, _, hshown, _⟩ := delivered_spec hs
  obtain ⟨hlines, hsorted⟩ := growing_words_lines
  rw [← hsent] at hlines hsorted
  obtain ⟨words, hwords, hshows, _⟩ := words_shown hreach hsock hactive hids hlines hsorted
  rw [hsent] at hwords
  exact ⟨s, words, hreach, hshown, hwords, hshows⟩

theorem words_all_delivered_two_words : ∃ s : Parties Bool,
    (chat_network (fun _ => .roomy) (fun _ => 2) peers).machine.Reachable
      ((chat_network (fun _ => .roomy) (fun _ => 2) peers).keeps (staying peers false true)) s ∧
    (s.client true).taken = (s.server.log.drop (s.server.joined 3)).map (·.2.val) ∧
    (s.server.log.filter (·.1 = 2)).map (·.2.val) =
      growing_words.map (response_chat (s.server.names 2)) := by
  obtain ⟨s, hreach, hs⟩ := words_are_delivered
  obtain ⟨speaker, sock, hspeaker, hsock, hconnected, hgraceful, hactive, hsent, hsettled, _⟩ :=
    delivered_spec hs
  obtain ⟨hlines, hsorted⟩ := growing_words_lines
  rw [← hsent] at hlines hsorted
  obtain ⟨htaken, hwords⟩ := words_all_delivered hreach hspeaker hsock hactive hlines hsorted hsettled
    hconnected hgraceful
  rw [hsent] at hwords
  exact ⟨s, hreach, htaken, hwords⟩

theorem words_all_shown_two_words : ∃ s : Parties Bool,
    (chat_network (fun _ => .roomy) (fun _ => 2) peers).machine.Reachable
      ((chat_network (fun _ => .roomy) (fun _ => 2) peers).keeps (staying peers false true)) s ∧
    List.Forall₂ (fun shown word => word <+: shown.2)
      ((s.client true).shown.filter (·.1 = s.server.names 2)) growing_words := by
  obtain ⟨s, hreach, hs⟩ := words_are_delivered
  obtain ⟨speaker, sock, hspeaker, hsock, hconnected, hgraceful, hactive, hsent, hsettled, hids, _, _,
    hjoined⟩ := delivered_spec hs
  obtain ⟨hlines, hsorted⟩ := growing_words_lines
  rw [← hsent] at hlines hsorted
  have hfirst : ∀ entry ∈ s.server.log.take (s.server.joined (peers true)), entry.1 ≠ peers false := by
    rw [hjoined]
    exact fun entry hentry => by cases hentry
  have hshows := words_all_shown hreach hspeaker hsock hactive hids hlines hsorted hfirst hsettled
    hconnected hgraceful
  rw [hsent] at hshows
  exact ⟨s, hreach, hshows⟩

end Chat

end rioring
