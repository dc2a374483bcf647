import Rioring.Chat.Server

/-! The messages that the receive callbacks of the chat server take from the streams of
its clients. -/

namespace rioring

open World Service

namespace Chat

namespace Server

variable {p : Platform} {concurrency : Nat} {s t : Server} {j : ObjectId}

/-- What the array of the callback of a socket holds that has not returned. -/
def array (s : Server) (j : ObjectId) : Option (List UInt8) := (s.turns j).map (·.array)

theorem array_none : s.array j = none ↔ s.turns j = none := Option.map_eq_none_iff

/-- A socket is made active behind its accept callback. -/
theorem obeys_start {e : Event} {sqe : Bool} (hobeys : s.obeys e = true)
    (haction : s.world.action j e = .start sqe) : j ∈ s.clients := by
  rcases action_start haction with hactivates | ⟨c, a, rfl⟩
  · rw [obeys_accepts_only hobeys] at hactivates
    cases hactivates
  · have haccepted : s.accepted c = some j := by
      simp only [World.action] at haction
      rw [accepted]
      split at haction
      · rename_i i j' hfind
        split at haction
        · rename_i hj
          rw [← hj]
          exact congrArg (Option.map (·.2)) hfind
        · cases haction
      · cases haction
    have hgreeted : (s.accepted c).all s.clients.contains = true := hobeys
    rw [haccepted] at hgreeted
    simpa using hgreeted

/-- The handler of a receive returns behind its callback. -/
theorem obeys_finish {c : ContextId} (hobeys : s.obeys (.finish c) = true)
    (htype : (s.world.contexts c).type = .read) (hhandler : (s.world.contexts c).handler = some j) :
    s.turns j = none := by
  simp only [obeys, htype, hhandler, Bool.and_eq_true] at hobeys
  exact Option.isNone_iff_eq_none.mp hobeys.1

/-- The library keeps the callbacks of every socket in tune. -/
theorem library_tuned {e : ServiceEvent} (hreach : (rioring.service p concurrency).Reachable
    accepts_only s.service) (htuned : ∀ j, Tuned s.service j (s.array j) (s.taken j) (s.refused j)
      (j ∈ s.clients)) (hstep : s.library p concurrency e = some t) (j : ObjectId) :
    Tuned t.service j (t.array j) (t.taken j) (t.refused j) (j ∈ t.clients) := by
  obtain ⟨hpermits, hcalled⟩ := accepts_only_permits hreach j
  obtain ⟨hobeys, hservice, ht⟩ := library_spec hstep
  have harray : t.array j =
      if received_since s.world t.world j then some new_array else s.array j := by
    rw [array, congrFun (congrArg turns ht) j]
    dsimp only
    split <;> rfl
  rw [harray, congrFun (congrArg taken ht) j, congrFun (congrArg refused ht) j, congrArg clients ht]
  cases e with
  | process e k =>
    have hobeys : s.obeys e = true := hobeys
    have hwf := Wf.reachable (Sound.reachable hreach).reached
    have hallowed := permits_accepted hcalled (obeys_accepts_only hobeys j) (process_spec hservice).2.1
    refine (htuned j).process hpermits hallowed hservice ?_ ?_ ?_ ?_ .inl
    · rintro size rfl
      cases hobeys
    · rintro slot registered rfl hsome
      obtain ⟨sock, hsock⟩ := Option.isSome_iff_exists.mp hsome
      have hserver : (s.service.world.servers j).isSome = true := hobeys
      rw [hwf.separate j sock hsock] at hserver
      cases hserver
    · exact fun sqe haction => obeys_start hobeys haction
    · rintro c rfl hturn ⟨htype, hhandler⟩
      rw [array, obeys_finish (s := s) hobeys htype hhandler] at hturn
      cases hturn
  | stop =>
    have hworld : t.service.world = s.service.world := by rw [(stop_spec hservice).2]; rfl
    have hnever : received_since s.world t.world j = false := by
      rw [world, world, hworld]
      exact received_since_same _ _
    simp only [hnever]
    exact (htuned j).of_world hworld
  | cancelled k =>
    have hworld : t.service.world = s.service.world := by rw [(cancelled_spec hservice).1]
    have hnever : received_since s.world t.world j = false := by
      rw [world, world, hworld]
      exact received_since_same _ _
    simp only [hnever]
    exact (htuned j).of_world hworld

/-- A callback pops a message, and what those of the other sockets do is the same. -/
theorem pop_tuned {u : Server} {i : ObjectId} {ring : Nat} {turn y : Turn} {sock : SocketObject}
    {frame ys : List UInt8} (hreach : (rioring.service p concurrency).Reachable accepts_only s.service)
    (htuned : ∀ j, Tuned s.service j (s.array j) (s.taken j) (s.refused j) (j ∈ s.clients))
    (hturn : s.turns i = some turn) (hsock : s.world.sockets i = some sock)
    (hnext : scheme.next sock.recv_buffer.contents = some (frame, ys))
    (hpop : s.pop p concurrency i sock.recv_buffer frame.length ring = some u)
    (harray : y.array.length = 1024) (j : ObjectId) :
    Tuned u.service j ((Function.update s.turns i (some y) j).map (·.array)) (u.taken j) (s.refused j)
      (j ∈ s.clients) := by
  obtain ⟨hpermits, _⟩ := accepts_only_permits hreach j
  obtain ⟨hprocess, hu⟩ := pop_spec hpop
  rw [hu]
  by_cases hj : j = i
  · subst j
    obtain ⟨hsame, _⟩ := Framing.next_spec hnext
    have hframe : sock.recv_buffer.contents.take frame.length = frame := by
      rw [hsame, List.take_left]
    have htuned := htuned i
    rw [array, hturn] at htuned
    simp only [Function.update_self, hframe]
    exact htuned.pop hpermits hsock hnext hprocess harray
  · simp only [Function.update_of_ne hj]
    refine (htuned j).call hpermits hprocess rfl ?_ (by simp) .inl
    rintro size heq
    cases heq
    exact hj rfl

theorem tuned {allowed : Server → ServerEvent → Prop}
    (hreach : (server p concurrency).Reachable allowed s) (j : ObjectId) :
    Tuned s.service j (s.array j) (s.taken j) (s.refused j) (j ∈ s.clients) := by
  refine Machine.Run.invariant (P := fun s => ∀ j, Tuned s.service j (s.array j) (s.taken j)
    (s.refused j) (j ∈ s.clients)) hreach ?_ ?_ j
  · intro j
    refine ⟨fun _ => ⟨rfl, rfl, List.not_mem_nil⟩, fun sock hsock => ?_, fun h => ?_,
      fun sock hsock => ?_⟩
    · cases hsock
    · cases h
    · cases hsock
  intro s e t hs htuned _ hstep j
  have hservice := serves.accepts_reached hs
  obtain ⟨hpermits, _⟩ := accepts_only_permits hservice j
  change s.step p concurrency e = some t at hstep
  cases e with
  | service e => exact library_tuned hservice htuned hstep j
  | on_accept c ring =>
    obtain ⟨i, _, _, _, s₁, s₂, h₁, h₂, h₃, ht⟩ := on_accept_spec hstep
    have hreach₁ := by_callback_reaches hservice rfl h₁
    have hreach₂ := by_callback_reaches hreach₁ rfl h₂
    have hset : ∀ slot slot' registered, Event.set_event i slot true = .set_event j slot' registered →
        registered = true := by
      rintro slot slot' registered heq
      cases heq
      rfl
    have htuned₁ := (htuned j).call hpermits h₁ rfl (by simp) (hset _) .inl
    have htuned₂ : Tuned s₂ j _ _ _ (j ∈ s.clients ++ [i]) :=
      htuned₁.call (accepts_only_permits hreach₁ j).1 h₂ rfl (by simp)
      (hset _) fun h => (List.mem_append.mp h).imp_right fun h => by rw [List.mem_singleton.mp h]
    rw [ht]
    exact htuned₂.call (accepts_only_permits hreach₂ j).1 h₃ rfl (by simp) (hset _) .inl
  | pass i ring sqe =>
    obtain ⟨turn, sock, result, hturn, hsock, _, hpass, hcase⟩ := pass_step_spec hstep
    have harray : turn.array.length = 1024 :=
      (((htuned i).heard sock hsock).reads turn.array (by rw [array, hturn]; rfl)).1
    obtain ⟨hsound, _⟩ := received_whole (permitted (accepts_only_permits hservice i).1) hsock
    have hmessage := pass_spec hsound.valid (by rw [harray]; decide) hpass
    rcases hcase with ⟨rfl, rfl⟩ | ⟨size, u, rfl, hpop, hclose, ht⟩ |
      ⟨array, size, output, u, rfl, hpop, ht⟩
    · have hnone : scheme.next sock.recv_buffer.contents = none := by
        rcases hmessage with ⟨hnone, _⟩ | ⟨_, _, _, ⟨_, heq⟩ | ⟨_, _, _, heq⟩⟩
        · exact hnone
        · cases heq
        · cases heq
      by_cases hj : j = i
      · subst j
        have htuned := htuned i
        rw [array, hturn] at htuned
        simp only [array, Function.update_self]
        exact htuned.leave hpermits hsock hnone
      · simp only [array, Function.update_of_ne hj]
        exact htuned j
    · obtain ⟨frame, ys, hnext, rfl⟩ : ∃ frame ys,
          scheme.next sock.recv_buffer.contents = some (frame, ys) ∧ size = frame.length := by
        rcases hmessage with ⟨_, heq⟩ | ⟨frame, ys, hnext, ⟨_, heq⟩ | ⟨_, _, _, heq⟩⟩
        · cases heq
        · cases heq
          exact ⟨frame, ys, hnext, rfl⟩
        · cases heq
      have hpopped := pop_tuned hservice htuned hturn hsock hnext hpop harray j
      have hreach : (rioring.service p concurrency).Reachable accepts_only u.service :=
        by_callback_reaches hservice rfl (pop_spec hpop).1
      have hu := (pop_spec hpop).2
      have hclosed := hpopped.call (accepts_only_permits hreach j).1 hclose rfl (by simp) (by simp) .inl
      rw [ht]
      by_cases hj : j = i
      · subst j
        simp only [array, Function.update_self]
        rw [hu] at hclosed ⊢
        exact hclosed.refuse
      · rw [Function.update_of_ne hj] at hclosed
        simp only [array, Function.update_of_ne hj]
        rw [hu] at hclosed ⊢
        exact hclosed
    · obtain ⟨frame, ys, hnext, rfl, hlength⟩ : ∃ frame ys,
          scheme.next sock.recv_buffer.contents = some (frame, ys) ∧ size = frame.length ∧
            array.length = 1024 := by
        rcases hmessage with ⟨_, heq⟩ | ⟨frame, ys, hnext, ⟨_, heq⟩ | ⟨_, hlanded, _, heq⟩⟩
        · cases heq
        · cases heq
        · cases heq
          exact ⟨frame, ys, hnext, rfl, hlanded.trans harray⟩
      have hpopped := pop_tuned (y := { array, output }) hservice htuned hturn hsock hnext hpop hlength j
      rw [ht, (pop_spec hpop).2] at *
      exact hpopped
  | chat_all i order =>
    obtain ⟨turn, output, response, hturn, _, _, _, rfl⟩ := chat_all_spec hstep
    have htuned := htuned j
    by_cases hj : j = i
    · subst j
      rw [array, hturn] at htuned
      simp only [array, Function.update_self]
      exact htuned
    · simp only [array, Function.update_of_ne hj]
      exact htuned
  | send ring =>
    obtain ⟨_, _, _, _, _, _, hprocess, ht⟩ := send_spec hstep
    rw [ht]
    exact (htuned j).call hpermits hprocess rfl (by simp) (by simp) .inl
  | send_locked ring sqe =>
    obtain ⟨_, _, hprocess, ht⟩ := send_locked_spec hstep
    rw [ht]
    exact (htuned j).call hpermits hprocess rfl (by simp) (by simp) .inl
  | sent_all =>
    obtain ⟨_, _, _, _, rfl⟩ := sent_all_spec hstep
    exact htuned j
  | on_close i =>
    obtain ⟨_, _, rfl⟩ := on_close_spec hstep
    exact (htuned j).mono fun h => List.mem_of_mem_erase h

end Server

variable {p : Platform} {concurrency : Nat} {s : Server} {j : ObjectId} {sock : SocketObject}
  {allowed : Server → ServerEvent → Prop}

/-- The messages that the callbacks of a socket have taken are those of its stream, in
    their order, however the bytes came in. A whole one is left only while a callback
    runs, or when the last one has refused a message. -/
theorem requests_taken (hreach : (server p concurrency).Reachable allowed s)
    (hsock : s.world.sockets j = some sock) :
    scheme.Splits (s.world.history j).received (s.taken j)
        ((s.world.history j).received.drop (s.world.history j).popped) ∧
      (s.turns j = none → s.refused j = false →
        scheme.next ((s.world.history j).received.drop (s.world.history j).popped) = none) ∧
      ∀ messages, (∀ message ∈ messages, scheme.IsFrame message) →
        (s.world.history j).received <+: messages.flatten → s.taken j <+: messages ∧
          ((s.world.history j).received = messages.flatten → s.turns j = none →
            s.refused j = false → s.taken j = messages) := by
  have hheard := (Server.tuned hreach j).heard sock hsock
  refine ⟨hheard.splits, fun hturn => hheard.waits (Server.array_none.mpr hturn),
    fun messages hmessages hfront => ?_⟩
  obtain ⟨htaken, hall⟩ := hheard.messages hmessages hfront
  exact ⟨htaken, fun hreceived hturn => hall hreceived (Server.array_none.mpr hturn)⟩

/-- A client joins, and its first message comes in in two halves, with the second one
    behind it. Both are relayed, by one callback. -/
def requests_in_halves : List ServerEvent := [
  .service (.process .create_server 0),
  .service (.process (.set_event 1 .accept true) 0),
  .service (.process (.run 1 7 true true 0 true) 0),
  .service (.process (.complete 0 { res := 8 } true) 0),
  .on_accept 0 0,
  .service (.process (.resume 0 true true) 0),
  .service (.process (.finish 0) 0),
  .service (.process (.complete 2 { res := 4, data := [1, 8, 0, 1] } true) 0),
  .pass 2 0 true,
  .service (.process (.finish 2) 0),
  .service (.process
    (.complete 0 { res := 13, data := [0, 0, 0, 65, 1, 9, 0, 2, 0, 0, 0, 66, 67] } true) 0),
  .pass 2 0 true,
  .chat_all 2 [2],
  .send 0,
  .send_locked 0 true,
  .sent_all,
  .pass 2 0 true,
  .chat_all 2 [2],
  .send 0,
  .send_locked 0 true,
  .sent_all,
  .pass 2 0 true]

/-- What the run has come to, checked by evaluation. -/
def relayed_in_halves (s : Server) : Bool :=
  ((s.world.sockets 2).any fun sock => sock.connected_flag && !sock.shutdown_gracefully) &&
    (s.world.history 2).activations != 0 &&
    (s.world.history 2).received == [1, 8, 0, 1, 0, 0, 0, 65, 1, 9, 0, 2, 0, 0, 0, 66, 67] &&
    (s.turns 2).isNone && !s.refused 2 && s.broadcast.isNone && s.log.length == 2

theorem requests_are_relayed :
    ∃ s, (server .roomy 2).Reachable Machine.Any s ∧ relayed_in_halves s = true :=
  Machine.reachable_of_exec _ _ requests_in_halves relayed_in_halves (by decide +kernel)

theorem relayed_in_halves_spec {s : Server} (hs : relayed_in_halves s = true) :
    ∃ sock, s.world.sockets 2 = some sock ∧ sock.connected_flag = true ∧
      sock.shutdown_gracefully = false ∧ (s.world.history 2).activations ≠ 0 ∧
      (s.world.history 2).received = [1, 8, 0, 1, 0, 0, 0, 65, 1, 9, 0, 2, 0, 0, 0, 66, 67] ∧
      s.turns 2 = none ∧ s.refused 2 = false ∧ s.broadcast = none ∧ s.log.length = 2 := by
  simp only [relayed_in_halves, Bool.and_eq_true, Option.any_eq_true, bne_iff_ne, beq_iff_eq,
    Bool.not_eq_true', Option.isNone_iff_eq_none] at hs
  obtain ⟨⟨⟨⟨⟨⟨⟨sock, hsock, hconnected, hgraceful⟩, hactive⟩, hreceived⟩, hturn⟩, hrefused⟩, hidle⟩,
    hlog⟩ := hs
  exact ⟨sock, hsock, hconnected, hgraceful, hactive, hreceived, hturn, hrefused, hidle, hlog⟩

theorem requests_taken_in_halves : ∃ s, (server .roomy 2).Reachable Machine.Any s ∧
    (s.world.history 2).received = [1, 8, 0, 1, 0, 0, 0, 65, 1, 9, 0, 2, 0, 0, 0, 66, 67] ∧
      s.taken 2 = [[1, 8, 0, 1, 0, 0, 0, 65], [1, 9, 0, 2, 0, 0, 0, 66, 67]] := by
  obtain ⟨s, hreach, hs⟩ := requests_are_relayed
  obtain ⟨sock, hsock, _, _, _, hreceived, hturn, hrefused, _⟩ := relayed_in_halves_spec hs
  obtain ⟨_, _, hmessages⟩ := requests_taken hreach hsock
  have hframes : ∀ message ∈ ([[1, 8, 0, 1, 0, 0, 0, 65], [1, 9, 0, 2, 0, 0, 0, 66, 67]] :
      List (List UInt8)), scheme.IsFrame message := by
    intro message hmessage
    fin_cases hmessage
    · exact ⟨by decide, by decide⟩
    · exact ⟨by decide, by decide⟩
  obtain ⟨_, hall⟩ := hmessages _ hframes (hreceived ▸ List.prefix_refl _)
  exact ⟨s, hreach, hreceived, hall hreceived hturn hrefused⟩

end Chat

end rioring
