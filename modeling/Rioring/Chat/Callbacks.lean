import Rioring.Chat.Receiver
import Rioring.Service.Program
import Rioring.View.Registration

/-! The receive callbacks of the chat programs on the threads of a service, and the
messages that they take from the stream of a socket. -/

namespace rioring

open World Service

namespace Chat

/-- What the callbacks of a socket have made of what it has received. -/
structure Heard (n : Inbound) (turn : Option (List UInt8)) (taken : List (List UInt8)) (refused : Bool) :
    Prop where
  splits : scheme.Splits n.received taken (n.received.drop n.popped)
  reads : ∀ array, turn = some array → array.length = 1024 ∧ n.recv_buffer.raw_buffer.isSome
  waits : turn = none → refused = false → scheme.next (n.received.drop n.popped) = none

section Heard

variable {p : Platform} {n n' : Inbound} {a : Action} {turn : Option (List UInt8)}
  {taken : List (List UInt8)}
  {refused : Bool}

theorem next_nil : scheme.next [] = none := rfl

theorem Heard.start (hreceived : n.received = []) (refused : Bool) : Heard n none [] refused := by
  refine ⟨?_, by simp, fun _ _ => ?_⟩
  · rw [hreceived, List.drop_nil]
    exact .refl
  · rw [hreceived, List.drop_nil]
    exact next_nil

/-- Bytes that come in are what the callback that begins with them reads. -/
theorem Heard.move (hsound : n.Sound p) (hwhole : n.Whole) (hheard : Heard n turn taken refused)
    (honce : ∀ sqe, a = .start sqe → n.activations = 0) (hpop : ∀ size, a ≠ .pop size)
    (hturn : turn.isSome → n' = n) (hmove : Inbound.Move p n a n') {begins : Bool}
    (hbegins : begins = true ↔ ∃ r data sqe, a = .received r data sqe) :
    Heard n' (if begins then some new_array else turn) taken (if begins then false else refused) := by
  -- the moves that bring in nothing
  have hnothing : (∀ r data sqe, a ≠ .received r data sqe) → n'.received = n.received →
      n'.popped = n.popped → Heard n' (if begins then some new_array else turn) taken
        (if begins then false else refused) := by
    intro hnone hreceived hpopped
    have hfalse : begins = false := by
      rw [← Bool.not_eq_true]
      rintro htrue
      obtain ⟨r, data, sqe, ha⟩ := hbegins.mp htrue
      exact hnone r data sqe ha
    rw [hfalse]
    refine ⟨?_, fun x hx => ?_, fun hnone hrefused => ?_⟩
    · rw [hreceived, hpopped]
      exact hheard.splits
    · have hx : turn = some x := hx
      rw [hturn (by rw [hx]; rfl)]
      exact hheard.reads x hx
    · rw [hreceived, hpopped]
      exact hheard.waits hnone hrefused
  cases hmove with
  | same hreceived => exact hnothing hreceived rfl rfl
  | start hassign hreceive =>
    obtain ⟨_, hreceived, hpopped, _⟩ := hreceive.spec
    exact hnothing (by simp) hreceived hpopped
  | received hcomplete hdata hlength hpush hreceive registered addr =>
    rename_i n₁ n₂ r data sqe recv_buffer
    obtain ⟨hbuffer, hreceived, hpopped, _⟩ := hreceive.spec
    obtain ⟨_, _, hraw⟩ := hsound.pushed hcomplete hlength hpush
    obtain ⟨hallocated, _⟩ := hwhole.allocated hcomplete
    obtain ⟨_, hle, _⟩ := hwhole.held hallocated
    obtain ⟨front, back, _, rfl⟩ := hcomplete
    rw [if_pos (hbegins.mpr ⟨_, _, _, rfl⟩), if_pos (hbegins.mpr ⟨_, _, _, rfl⟩)]
    refine ⟨?_, ?_, by simp⟩
    · simp only [hreceived, hpopped]
      rw [List.drop_append_of_le_length hle]
      exact hheard.splits.append data
    · rintro x hx
      cases hx
      refine ⟨new_array_length, ?_⟩
      rw [hbuffer]
      exact hraw.trans hallocated
  | receive_ended hcomplete =>
    obtain ⟨front, back, _, rfl⟩ := hcomplete
    exact hnothing (by simp) rfl rfl
  | pop size => exact absurd rfl (hpop size)

/-- What a socket has received and not popped is in its buffer as long as a callback
    reads from it. -/
theorem Heard.contents (hwhole : n.Whole) (hheard : Heard n turn taken refused) {x : List UInt8}
    (hx : turn = some x) : n.recv_buffer.contents = n.received.drop n.popped :=
  (hwhole.held (hheard.reads x hx).2).1

/-- A callback leaves its loop when it finds no whole message. -/
theorem Heard.leave (hheard : Heard n turn taken refused)
    (hnone : scheme.next (n.received.drop n.popped) = none) : Heard n none taken refused :=
  ⟨hheard.splits, by simp, fun _ _ => hnone⟩

/-- A callback pops a message. -/
theorem Heard.pop {frame ys x : List UInt8} (hsound : n.Sound p) (hwhole : n.Whole)
    (hheard : Heard n turn taken refused) (hx : turn = some x)
    (hnext : scheme.next n.recv_buffer.contents = some (frame, ys))
    (hmove : Inbound.Move p n (.pop frame.length) n') :
    scheme.Splits n'.received (taken ++ [frame]) (n'.received.drop n'.popped) ∧
      n'.recv_buffer.raw_buffer.isSome := by
  have hcontents := hheard.contents hwhole hx
  obtain ⟨hsame, _⟩ := Framing.next_spec hnext
  cases hmove with
  | same _ _ hpop => exact absurd rfl (hpop _)
  | pop size =>
    have hsize : frame.length ≤ n.recv_buffer.size := by
      change frame.length ≤ n.recv_buffer.buffer_offset
      rw [← hsound.valid.contents_length, hsame, List.length_append]
      exact Nat.le_add_right _ _
    refine ⟨?_, ?_⟩
    · have hrest : n.received.drop (n.popped + frame.length) = ys := by
        rw [← List.drop_drop, ← hcontents, hsame, List.drop_left]
      simp only [hsize, ↓reduceIte, hrest]
      refine hheard.splits.trans (.single ?_)
      rw [← hcontents]
      exact hnext
    · simp only [(IoBuffer.pop_spec hsound.valid frame.length).2.2.1]
      exact (hheard.reads x hx).2

/-- From what a sender writes as messages only these are taken, and all of them once
    no callback runs. -/
theorem Heard.messages (hheard : Heard n turn taken refused) {messages : List (List UInt8)}
    (hmessages : ∀ message ∈ messages, scheme.IsFrame message)
    (hfront : n.received <+: messages.flatten) : taken <+: messages ∧
      (n.received = messages.flatten → turn = none → refused = false → taken = messages) := by
  obtain ⟨hsplits, _, hwaits⟩ := hheard
  have htaken : taken <+: messages := hsplits.of_prefix (by decide) hmessages hfront
  refine ⟨htaken, fun hall hturn hrefused => ?_⟩
  have hwhole := Framing.splits_flatten hmessages []
  rw [List.append_nil, ← hall] at hwhole
  exact htaken.eq_of_length_le (hsplits.prefix_of_none (hwaits hturn hrefused) hwhole).length_le

end Heard

/-- The callbacks of socket `j` beside the rest of the server: one that has not
    returned handles a receive, and whoever is in the pool has a receive callback. -/
structure Tuned (s : Service) (j : ObjectId) (turn : Option (List UInt8))
    (taken : List (List UInt8)) (refused : Bool) (member : Prop) : Prop where
  unmade : s.world.sockets j = none → turn = none ∧ taken = [] ∧ ¬ member
  heard : ∀ sock, s.world.sockets j = some sock →
    Heard (s.world.view_with j sock).inbound turn taken refused
  reading : turn.isSome → ∃ c ∈ s.world.custody.used, s.world.Reads j c
  registered : ∀ sock, s.world.sockets j = some sock →
    (member ∨ (s.world.history j).activations ≠ 0) → sock.recv_event = true

section Tuned

variable {p : Platform} {concurrency k : Nat} {s t : Service} {j : ObjectId} {e : Event}
  {turn : Option (List UInt8)} {taken : List (List UInt8)} {refused : Bool} {member member' : Prop}

/-- A receive callback that is registered is called from then on. -/
theorem set_event_receive {w w' : World} {slot : Slot} {sock : SocketObject}
    (hsock : w.sockets j = some sock) (hset : w.set_event j slot true = some w')
    (hslot : slot = .receive ∨ sock.recv_event = true) :
    ∃ sock', w'.sockets j = some sock' ∧ sock'.recv_event = true := by
  unfold World.set_event at hset
  rw [hsock] at hset
  cases slot with
  | receive =>
    cases hset
    exact ⟨_, set_socket_self _ _ _, rfl⟩
  | send_complete | close | error =>
    cases hset
    exact ⟨_, set_socket_self _ _ _, hslot.resolve_left (by simp)⟩
  | accept => cases hset

/-- A receive callback begins when, and only when, bytes have come in. -/
theorem received_since_iff (hreach : (machine p).Reachable (World.permits j View.connected_once) s.world)
    (htuned : Tuned s j turn taken refused member) {sock : SocketObject}
    (hsock : s.world.sockets j = some sock) {w' : World} (hstep : (machine p).step s.world e = some w') :
    received_since s.world w' j = true ↔ ∃ r data sqe, s.world.action j e = .received r data sqe := by
  obtain ⟨sock', hsock', hmove, happend, hcalled⟩ := (Wf.reachable hreach).callbacks_since hsock hstep
  rw [received_since, hsock, Option.isSome_some, Bool.true_and, List.any_eq_true]
  constructor
  · rintro ⟨callback, hmem, hreceive⟩
    have hreason := hcalled callback hmem
    cases callback with
    | receive contents addr => exact hreason.1
    | send_complete | close | error | accept => cases hreceive
  · rintro ⟨r, data, sqe, haction⟩
    obtain ⟨c, cqe, sqe', _, r', hr', _⟩ := action_receives (.inl ⟨r, data, sqe, haction⟩)
    obtain ⟨_, _, hactive⟩ := Service.active_of_reads hreach hr'
    rw [haction] at hmove
    obtain ⟨added, contents, addr, hcallbacks⟩ :=
      hmove.receive_called (htuned.registered sock hsock (.inr hactive))
    have hsince : s.world.callbacks_since w' j = added ++ [.receive contents addr] := by
      rw [callbacks_since]
      change (w'.history j).callbacks = _ at hcallbacks
      rw [hcallbacks]
      exact List.drop_left
    exact ⟨.receive contents addr, by simp [hsince], rfl⟩

/-- A registration is a call on the socket. -/
theorem action_set_event {w : World} (haction : w.action j e = .set_event) :
    ∃ slot registered, e = .set_event j slot registered := by
  cases e with
  | set_event i slot registered =>
    simp only [World.action] at haction
    split at haction
    · rename_i hi
      exact ⟨slot, registered, by rw [hi]⟩
    · cases haction
  | _ =>
    simp only [World.action] at haction
    repeat' split at haction
    all_goals cases haction

/-- Whatever happens but for a pop leaves the callbacks of a socket in tune, when a
    handler returns after its callback, and a socket is made active behind its accept
    callback. -/
theorem Tuned.process (hpermits : (service p concurrency).Reachable (permits j View.connected_once) s)
    (htuned : Tuned s j turn taken refused member)
    (hallowed : World.permits j View.connected_once s.world e)
    (hprocess : s.process p concurrency e k = some t) (hpop : ∀ size, e ≠ .pop j size)
    (hset : ∀ slot registered, e = .set_event j slot registered → (s.world.sockets j).isSome →
      registered = true)
    (hstart : ∀ sqe, s.world.action j e = .start sqe → member)
    (hfinish : ∀ c, e = .finish c → turn.isSome → ¬ s.world.Reads j c)
    (hmember : member' → member ∨ e = .set_event j .receive true) :
    Tuned t j (if received_since s.world t.world j then some new_array else turn) taken
      (if received_since s.world t.world j then false else refused) member' := by
  obtain ⟨_, hstep, _, _⟩ := process_spec hprocess
  have hserial := Serial.reachable hpermits
  have hs := Sound.reachable hpermits
  have hwf := Wf.reachable hs.reached
  have haddressed := reachable_addressed hs.reached
  have hmoves := (hwf.step_does hstep).moves j
  cases hsock : s.world.sockets j with
  | none =>
    obtain ⟨rfl, rfl, hout⟩ := htuned.unmade hsock
    have hnever : received_since s.world t.world j = false := by
      rw [received_since, hsock]
      rfl
    have hno : ¬ member' := by
      intro h
      obtain rfl := (hmember h).resolve_left hout
      change s.world.set_event j .receive true = some t.world at hstep
      unfold World.set_event at hstep
      rw [hsock] at hstep
      cases hserver : s.world.servers j <;> rw [hserver] at hstep <;> cases hstep
    rw [hnever]
    refine ⟨fun _ => ⟨rfl, rfl, hno⟩, fun sock' hsock' => ?_, by simp, fun sock' hsock' hactive => ?_⟩
    · have hfresh := hmoves.fresh _ (view_eq_none hsock) (view_eq hsock')
      exact .start (by rw [View.inbound, hfresh.history]) refused
    · have hfresh := hmoves.fresh _ (view_eq_none hsock) (view_eq hsock')
      have hhistory : t.world.history j = {} := hfresh.history
      rw [hhistory] at hactive
      exact absurd (hactive.resolve_left hno) (by simp)
  | some sock =>
    have hbegins := received_since_iff (permitted hpermits) htuned hsock hstep
    obtain ⟨v', hv', hmove⟩ := hmoves.move _ (view_eq hsock)
    obtain ⟨sock', hsock', rfl⟩ := Option.map_eq_some_iff.mp hv'
    obtain ⟨hsound, hwhole⟩ := received_whole (permitted hpermits) hsock
    have hnopop : ∀ size, s.world.action j e ≠ .pop size := fun size haction =>
      hpop size (action_pop haction)
    have hheld : turn.isSome →
        (t.world.view_with j sock').inbound = (s.world.view_with j sock).inbound := by
      intro hturn
      obtain ⟨c, hc, hreads⟩ := htuned.reading hturn
      exact hserial.same_inbound hs hc hreads hallowed hprocess hpop hsock hsock'
    refine ⟨fun hnone => ?_, fun sock₁ hsock₁ => ?_, fun hturn => ?_, fun sock₁ hsock₁ hactive => ?_⟩
    · rw [hsock'] at hnone
      cases hnone
    · rw [hsock'] at hsock₁
      cases hsock₁
      refine (htuned.heard sock hsock).move hsound hwhole ?_ hnopop hheld hmove.inbound hbegins
      rintro sqe haction
      have hpermitted := hallowed _ (view_eq hsock)
      rw [haction] at hpermitted
      exact hpermitted
    · by_cases hnew : received_since s.world t.world j = true
      · obtain ⟨r, data, sqe, haction⟩ := hbegins.mp hnew
        exact hwf.reads_taken haddressed haction hstep
      · rw [if_neg hnew] at hturn
        obtain ⟨c, hc, hreads⟩ := htuned.reading hturn
        exact ⟨c, hwf.reads_kept haddressed hc hreads (fun heq => hfinish c heq hturn hreads) hstep⟩
    · rw [hsock'] at hsock₁
      cases hsock₁
      by_cases hregisters : ∃ slot registered, e = .set_event j slot registered
      · obtain ⟨slot, registered, rfl⟩ := hregisters
        obtain rfl := hset slot registered rfl (by rw [hsock]; rfl)
        have hkept : (t.world.history j).activations = (s.world.history j).activations := by
          rcases hmove.inbound.activations with hsame | ⟨⟨sqe, haction⟩, _⟩
          · exact hsame
          · simp [World.action] at haction
        obtain ⟨sock₁, hsock₁, hrecv⟩ := set_event_receive hsock hstep (by
          rcases hactive with h | h
          · rcases hmember h with hold | hnew
            · exact .inr (htuned.registered sock hsock (.inl hold))
            · cases hnew
              exact .inl rfl
          · exact .inr (htuned.registered sock hsock (.inr (hkept ▸ h))))
        rw [hsock'] at hsock₁
        cases hsock₁
        exact hrecv
      · have hkept : sock'.recv_event = sock.recv_event :=
          hmove.recv_event fun haction => hregisters (action_set_event haction)
        rw [hkept]
        refine htuned.registered sock hsock ?_
        rcases hactive with h | h
        · exact .inl ((hmember h).resolve_right fun heq => hregisters ⟨_, _, heq⟩)
        · rcases hmove.inbound.activations with hsame | ⟨⟨sqe, haction⟩, _⟩
          · change (t.world.history j).activations = (s.world.history j).activations at hsame
            exact .inr (hsame ▸ h)
          · exact .inl (hstart sqe haction)

/-- Only a completion begins a callback. -/
theorem Tuned.silent (hpermits : (service p concurrency).Reachable (permits j View.connected_once) s)
    (htuned : Tuned s j turn taken refused member)
    (hprocess : s.process p concurrency e k = some t) (hcall : ∀ c cqe sqe, e ≠ .complete c cqe sqe) :
    received_since s.world t.world j = false := by
  cases hsock : s.world.sockets j with
  | none =>
    rw [received_since, hsock]
    rfl
  | some sock =>
    rw [← Bool.not_eq_true, received_since_iff (permitted hpermits) htuned hsock
      (process_spec hprocess).2.1]
    rintro ⟨r, data, sqe, haction⟩
    obtain ⟨c, cqe, sqe', heq, _⟩ := action_receives (.inl ⟨r, data, sqe, haction⟩)
    exact hcall c cqe sqe' heq

/-- The calls of the callbacks begin no callback. -/
theorem Tuned.call (hpermits : (service p concurrency).Reachable (permits j View.connected_once) s)
    (htuned : Tuned s j turn taken refused member)
    (hprocess : s.process p concurrency e k = some t) (hcall : e.by_callback = true)
    (hpop : ∀ size, e ≠ .pop j size)
    (hset : ∀ slot registered, e = .set_event j slot registered → registered = true)
    (hmember : member' → member ∨ e = .set_event j .receive true) :
    Tuned t j turn taken refused member' := by
  have hnever : received_since s.world t.world j = false := by
    refine htuned.silent hpermits hprocess ?_
    rintro c cqe sqe rfl
    cases hcall
  have htuned' := htuned.process hpermits (Event.by_callback_permits hcall) hprocess hpop
    (fun slot registered heq _ => hset slot registered heq)
    (fun sqe haction => absurd haction (Event.by_callback_start hcall sqe)) (fun c heq => ?_) hmember
  · rwa [hnever] at htuned'
  · rw [heq] at hcall
    cases hcall

/-- A callback pops the message at the front of the buffer. -/
theorem Tuned.pop {sock : SocketObject} {x y frame ys : List UInt8}
    (hpermits : (service p concurrency).Reachable (permits j View.connected_once) s)
    (htuned : Tuned s j (some x) taken refused member) (hsock : s.world.sockets j = some sock)
    (hnext : scheme.next sock.recv_buffer.contents = some (frame, ys))
    (hprocess : s.process p concurrency (.pop j frame.length) k = some t)
    (harray : y.length = 1024) : Tuned t j (some y) (taken ++ [frame]) refused member := by
  obtain ⟨_, hstep, _, _⟩ := process_spec hprocess
  have hs := Sound.reachable hpermits
  have hwf := Wf.reachable hs.reached
  obtain ⟨v', hv', hmove⟩ :=
    ((Wf.step_does (p := p) (e := .pop j frame.length) hwf hstep).moves j).move _ (view_eq hsock)
  obtain ⟨sock', hsock', rfl⟩ := Option.map_eq_some_iff.mp hv'
  obtain ⟨hsound, hwhole⟩ := received_whole (permitted hpermits) hsock
  have haction : s.world.action j (.pop j frame.length) = .pop frame.length := if_pos rfl
  rw [haction] at hmove
  obtain ⟨hsplits, hraw⟩ := (htuned.heard sock hsock).pop hsound hwhole rfl hnext hmove.inbound
  refine ⟨fun hnone => ?_, fun sock₁ hsock₁ => ?_, fun _ => ?_, fun sock₁ hsock₁ hactive => ?_⟩
  · rw [hsock'] at hnone
    cases hnone
  · rw [hsock'] at hsock₁
    cases hsock₁
    refine ⟨hsplits, fun z hz => ?_, by simp⟩
    cases hz
    exact ⟨harray, hraw⟩
  · obtain ⟨c, hc, hreads⟩ := htuned.reading rfl
    exact ⟨c, hwf.reads_kept (reachable_addressed hs.reached) hc hreads (by simp) hstep⟩
  · rw [hsock'] at hsock₁
    cases hsock₁
    have hkept : sock'.recv_event = sock.recv_event := hmove.recv_event (by simp)
    have hactivations : (t.world.history j).activations = (s.world.history j).activations := by
      rcases hmove.inbound.activations with hsame | ⟨⟨sqe, hstart⟩, _⟩
      · exact hsame
      · cases hstart
    rw [hactivations] at hactive
    rw [hkept]
    exact htuned.registered sock hsock hactive

/-- A callback that finds no whole message returns. -/
theorem Tuned.leave {x : List UInt8} {sock : SocketObject}
    (hpermits : (service p concurrency).Reachable (permits j View.connected_once) s)
    (htuned : Tuned s j (some x) taken refused member) (hsock : s.world.sockets j = some sock)
    (hnone : scheme.next sock.recv_buffer.contents = none) : Tuned s j none taken refused member := by
  obtain ⟨_, hwhole⟩ := received_whole (permitted hpermits) hsock
  have hheard := htuned.heard sock hsock
  refine ⟨fun h => ?_, fun sock₁ hsock₁ => ?_, by simp, htuned.registered⟩
  · rw [hsock] at h
    cases h
  · rw [hsock] at hsock₁
    cases hsock₁
    refine hheard.leave ?_
    rw [← hheard.contents hwhole rfl]
    exact hnone

/-- A callback that has refused a message returns. -/
theorem Tuned.refuse (htuned : Tuned s j turn taken refused member) :
    Tuned s j none taken true member :=
  ⟨fun h => ⟨rfl, (htuned.unmade h).2⟩, fun sock hsock =>
    ⟨(htuned.heard sock hsock).splits, by simp, by simp⟩, by simp, htuned.registered⟩

theorem Tuned.mono (htuned : Tuned s j turn taken refused member) (hmember : member' → member) :
    Tuned s j turn taken refused member' :=
  ⟨fun h => ((htuned.unmade h).imp_right (And.imp_right (mt hmember))), htuned.heard, htuned.reading,
    fun sock hsock hactive => htuned.registered sock hsock (hactive.imp_left hmember)⟩

theorem Tuned.of_world (htuned : Tuned s j turn taken refused member) (hworld : t.world = s.world) :
    Tuned t j turn taken refused member := by
  obtain ⟨hunmade, hheard, hreading, hregistered⟩ := htuned
  constructor
  all_goals
    rw [hworld]
    assumption

end Tuned

end Chat

end rioring
