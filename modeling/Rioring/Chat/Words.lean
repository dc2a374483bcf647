import Rioring.Chat.Lines
import Rioring.Chat.Requests

/-! The words of a client on their way through the callbacks of its socket to the
calls of `chat_all`. -/

namespace rioring

open World Service

namespace Inbound

variable {p : Platform} {n n' : Inbound} {a : Action}

theorem Move.received_grows (hmove : Move p n a n') : n.received <+: n'.received := by
  cases hmove with
  | same => exact List.prefix_refl _
  | start hassign hreceive =>
    rw [hreceive.spec.2.1]
  | received hcomplete hdata hlength hpush hreceive =>
    simp only [hreceive.spec.2.1]
    exact List.prefix_append _ _
  | receive_ended hcomplete =>
    obtain ⟨front, back, _, rfl⟩ := hcomplete
    exact List.prefix_refl _
  | pop size => exact List.prefix_refl _

end Inbound

namespace Chat

/-- What the callbacks of a client have said in its name, when it sends words that
    never get shorter: exactly the words they have taken. The array of a callback holds
    a word no longer than those that are still to come. -/
structure Worded (inputs : List (List UInt8)) (name : List UInt8) (turn : Option Turn)
    (taken said : List (List UInt8)) (refused : Bool) : Prop where
  said : said = (inputs.take taken.length).map (response_chat name)
  holds : ∀ x, turn = some x → ∃ previous, Holds (x.array.drop sizeof_request_chat) previous ∧
    ∀ input ∈ inputs.drop taken.length, previous.length ≤ input.length
  known : refused = false

section Worded

variable {inputs taken said : List (List UInt8)} {name frame ys array : List UInt8}
  {turn : Option Turn} {x : Turn} {refused : Bool}

theorem input_message_frame (input : List UInt8) : scheme.IsFrame (input_message input) :=
  (request_chat_message [] (List.length_take_le _ _)).whole

theorem Worded.start (name : List UInt8) : Worded inputs name none [] [] false := ⟨rfl, by simp, rfl⟩

/-- A callback begins. -/
theorem Worded.begins (hworded : Worded inputs name none taken said refused) :
    Worded inputs name (some {}) taken said false := by
  refine ⟨hworded.said, fun x hx => ?_, rfl⟩
  cases hx
  exact ⟨[], holds_new_array (by decide), fun _ _ => Nat.zero_le _⟩

theorem Worded.leave (hworded : Worded inputs name turn taken said refused) :
    Worded inputs name none taken said refused := ⟨hworded.said, by simp, hworded.known⟩

/-- The message a callback takes next is that of the next item. -/
theorem next_taken {I : Type} {items : List I} {encode : I → List UInt8}
    (hfront : taken ++ [frame] <+: items.map encode) :
    ∃ item, items[taken.length]? = some item ∧ encode item = frame := by
  have hframe : (items.map encode)[taken.length]? = some frame := by
    obtain ⟨rest, hrest⟩ := hfront
    rw [← hrest, List.append_assoc, List.getElem?_append_right (Nat.le_refl _), Nat.sub_self]
    rfl
  rw [List.getElem?_map] at hframe
  exact Option.map_eq_some_iff.mp hframe

/-- A callback reads the message of a word, and will send the word to every client. -/
theorem Worded.handles (hlines : ∀ input ∈ inputs, Line input)
    (hsorted : inputs.Pairwise fun input input' => input.length ≤ input'.length)
    (hworded : Worded inputs name (some x) taken said refused) (harray : x.array.length = 1024)
    (hfront : taken ++ [frame] <+: inputs.map input_message) {output : List (List UInt8)}
    (hhandle : relay name (overlay frame x.array) = .ok output) :
    Worded inputs name (some { array := overlay frame x.array, output }) (taken ++ [frame])
      (said ++ output) refused := by
  obtain ⟨input, hinput, rfl⟩ := next_taken hfront
  obtain ⟨previous, hholds, hshorter⟩ := hworded.holds x rfl
  obtain ⟨hlength, hget⟩ := List.getElem?_eq_some_iff.mp hinput
  have hdrop : inputs.drop taken.length = input :: inputs.drop (taken.length + 1) := by
    rw [List.drop_eq_getElem_cons hlength, hget]
  rw [hdrop, List.forall_mem_cons] at hshorter
  have hmem : input ∈ inputs := hget ▸ List.getElem_mem hlength
  obtain ⟨hrelay, hholds'⟩ := relay_overlay name hholds harray (hlines input hmem).take
    (List.length_take_le _ _)
  -- the message fits the array of the response, and so the word was sent whole
  have hchat := hhandle
  rw [input_message, hrelay, bind_eq_ok_iff] at hchat
  obtain ⟨response, hresponse, houtput⟩ := hchat
  cases houtput
  rw [chat] at hresponse
  split at hresponse
  · rename_i hfits
    cases hresponse
    have hshort : (input.take 1000).length < 997 := by
      have hmax := overlay_length (input.take 1000) previous
      have hroom := hfits.2
      rw [sizeof_response_chat] at hroom
      omega
    have hwhole : input.take 1000 = input := by
      rw [List.length_take] at hshort
      exact List.take_of_length_le (by omega)
    have htext : overlay (input.take 1000) previous = input := by
      rw [hwhole]
      exact overlay_eq_iff.mpr hshorter.1
    rw [htext] at hholds' ⊢
    refine ⟨?_, fun y hy => ?_, hworded.known⟩
    · rw [hworded.said, List.length_append, List.length_singleton, List.take_add_one, hinput,
        List.map_append]
      rfl
    · cases hy
      refine ⟨input, hholds', fun input' hinput' => ?_⟩
      rw [List.length_append, List.length_singleton] at hinput'
      have htail := (hsorted.sublist (List.drop_sublist taken.length inputs))
      rw [hdrop, List.pairwise_cons] at htail
      exact htail.1 input' hinput'
  · cases hresponse

end Worded

/-- A pass that goes on has handled the first message of the stream. -/
theorem pass_handles {A : Type} {reader : Reader A} {buffer : IoBuffer} {array array' : List UInt8}
    {size : Nat} {output : List A} (hvalid : buffer.Valid) (harray : sizeof_scheme ≤ array.length)
    (hpass : reader.pass buffer array = .ok (.handles array' size output)) :
    ∃ frame ys, scheme.next buffer.contents = some (frame, ys) ∧ size = frame.length ∧
      array' = landed array buffer.contents frame ∧ reader.handle array' = .ok output := by
  rcases pass_spec hvalid harray hpass with ⟨_, heq⟩ | ⟨frame, ys, hnext, hcase⟩
  · cases heq
  · rcases hcase with ⟨_, heq⟩ | ⟨_, _, output', heq⟩
    · cases heq
    · cases heq
      refine ⟨frame, ys, hnext, rfl, rfl, ?_⟩
      rw [pass_there hvalid harray hnext] at hpass
      split at hpass
      · rw [Reader.dispatch] at hpass
        split at hpass
        · cases hpass
        · obtain ⟨output'', hhandle, heq⟩ := bind_eq_ok_iff.mp hpass
          simp only [Except.ok.injEq, Pass.handles.injEq] at heq
          rw [← heq.2.2]
          exact hhandle
      · cases hpass

section Tuned

variable {p : Platform} {concurrency k : Nat} {s t : Service} {j : ObjectId} {e : Event}
  {turn : Option (List UInt8)} {taken : List (List UInt8)} {refused : Bool} {member : Prop}
  {allowed : Service → ServiceEvent → Prop} {stream : List UInt8}

/-- A receive callback begins when the one before it has returned. -/
theorem Tuned.begins_free (hpermits : (service p concurrency).Reachable (permits j View.connected_once) s)
    (htuned : Tuned s j turn taken refused member) (hprocess : s.process p concurrency e k = some t)
    (hbegins : received_since s.world t.world j = true) : turn = none := by
  have hserial := Serial.reachable hpermits
  cases hsock : s.world.sockets j with
  | none => exact (htuned.unmade hsock).1
  | some sock =>
    obtain ⟨r, data, sqe, haction⟩ := (received_since_iff (permitted hpermits) htuned hsock
      (process_spec hprocess).2.1).mp hbegins
    obtain ⟨c, cqe, sqe', rfl, r', hr', rfl⟩ := action_receives (.inl ⟨r, data, sqe, haction⟩)
    by_contra hturn
    obtain ⟨c, hc, hreads⟩ := htuned.reading (Option.isSome_iff_ne_none.mpr hturn)
    rw [hserial.not_taken hc hreads hr'] at hprocess
    cases hprocess

theorem received_grows (hreach : (service p concurrency).Reachable allowed s)
    (hprocess : s.process p concurrency e k = some t) (hsock : (s.world.sockets j).isSome) :
    (t.world.sockets j).isSome ∧ (s.world.history j).received <+: (t.world.history j).received := by
  obtain ⟨sock, hsock⟩ := Option.isSome_iff_exists.mp hsock
  have hwf := Wf.reachable (Sound.reachable hreach).reached
  obtain ⟨v', hv', hmove⟩ :=
    ((hwf.step_does (process_spec hprocess).2.1).moves j).move _ (view_eq hsock)
  obtain ⟨sock', hsock', rfl⟩ := Option.map_eq_some_iff.mp hv'
  exact ⟨by rw [hsock']; rfl, hmove.inbound.received_grows⟩

/-- The bytes that come in to a socket are those of a stream. -/
def Brings (w : World) (j : ObjectId) (stream : List UInt8) : Prop :=
  (w.sockets j).isSome → (w.history j).received <+: stream

/-- A socket has received before what it has received after. -/
theorem brings_before {u v : Service} (hrun : (service p concurrency).Run allowed u v)
    (hreach : (service p concurrency).Reachable allowed u) (hbrings : Brings v.world j stream) :
    Brings u.world j stream := by
  intro hsock
  have hgrown : (v.world.sockets j).isSome ∧
      (u.world.history j).received <+: (v.world.history j).received := by
    refine Machine.Run.invariant (P := fun v => (v.world.sockets j).isSome ∧
      (u.world.history j).received <+: (v.world.history j).received) hrun
      ⟨hsock, List.prefix_refl _⟩ ?_
    rintro v e v' hv ⟨hsome, hfront⟩ _ hstep
    cases e with
    | process e k =>
      obtain ⟨hsome', hmore⟩ := received_grows (Machine.Run.trans hreach hv) hstep hsome
      exact ⟨hsome', hfront.trans hmore⟩
    | stop =>
      rw [(stop_spec hstep).2]
      exact ⟨hsome, hfront⟩
    | cancelled k =>
      rw [(cancelled_spec hstep).1]
      exact ⟨hsome, hfront⟩
  exact hgrown.2.trans (hbrings hgrown.1)

end Tuned

namespace Server

variable {p : Platform} {concurrency : Nat} {s t : Server} {j : ObjectId} {inputs : List (List UInt8)}
  {allowed : Server → ServerEvent → Prop}

/-- The messages in the name of a client: those that `chat_all` has been called with,
    and those that its callback has still to send. -/
def said (s : Server) (j : ObjectId) : List (List UInt8) :=
  (s.log.filter (·.1 = j)).map (·.2.val) ++ (s.turns j).elim [] (·.output)

/-- A socket whose accept callback has not returned has received nothing. -/
theorem accepted_silent (hreach : (server p concurrency).Reachable allowed s) {c : ContextId}
    (haccepted : s.accepted c = some j) : s.turns j = none ∧ s.taken j = [] := by
  have htuned := tuned hreach j
  obtain ⟨hpermits, hcalled⟩ := accepts_only_permits (serves.accepts_reached hreach) j
  have hwf := Wf.reachable (Sound.reachable (serves.accepts_reached hreach)).reached
  cases hsock : s.world.sockets j with
  | none =>
    obtain ⟨hturn, htaken, _⟩ := htuned.unmade hsock
    exact ⟨array_none.mp hturn, htaken⟩
  | some sock =>
    have hzero : (s.world.history j).activations = 0 := by
      have hle := greeted_once hcalled hsock
      have hpos : 0 < (s.service.world.greeting j).length := by
        obtain ⟨⟨i, j'⟩, haccepting, rfl⟩ := Option.map_eq_some_iff.mp haccepted
        obtain ⟨h, hfind, hmine⟩ := Option.bind_eq_some_iff.mp haccepting
        exact List.length_pos_of_mem
          (List.mem_filter.mpr ⟨List.mem_of_find?_eq_some hfind, by simp [hmine]⟩)
      change (s.service.world.history j).activations = 0
      omega
    obtain ⟨_, hwhole⟩ := received_whole (permitted hpermits) hsock
    obtain ⟨_, hreceived, _, _⟩ := hwhole.inactive hzero
    refine ⟨?_, ?_⟩
    · by_contra hturn
      obtain ⟨c, hc, hreads⟩ :=
        htuned.reading (Option.isSome_iff_ne_none.mpr (mt array_none.mp hturn))
      obtain ⟨_, _, hactive⟩ := (Serial.reachable hpermits).active c hc hreads
      exact hactive hzero
    · have hsplits := (htuned.heard sock hsock).splits
      have hnone : s.taken j <+: [] :=
        hsplits.of_prefix (by decide) (by simp) (by rw [hreceived]; exact List.prefix_refl _)
      exact List.prefix_nil.mp hnone

/-- A pass on the words of a client. -/
theorem pass_worded {ring : Nat} {sqe : Bool} (hlines : ∀ input ∈ inputs, Line input)
    (hsorted : inputs.Pairwise fun input input' => input.length ≤ input'.length)
    (hreach : (server p concurrency).Reachable allowed s)
    (hworded : Worded inputs (s.names j) (s.turns j) (s.taken j) (s.said j) (s.refused j))
    (hstep : s.pass p concurrency j ring sqe = some t)
    (htaken : t.taken j <+: inputs.map input_message) :
    Worded inputs (t.names j) (t.turns j) (t.taken j) (t.said j) (t.refused j) := by
  obtain ⟨turn, sock, result, hturn, hsock, houtput, hpass, hcase⟩ := pass_step_spec hstep
  have htuned := tuned hreach j
  have harray : turn.array.length = 1024 :=
    ((htuned.heard sock hsock).reads turn.array (by rw [array, hturn]; rfl)).1
  have hheader : sizeof_scheme ≤ turn.array.length := by
    rw [harray]
    decide
  obtain ⟨hpermits, _⟩ := accepts_only_permits (serves.accepts_reached hreach) j
  have hvalid : sock.recv_buffer.Valid := (received_whole (permitted hpermits) hsock).1.valid
  have hsaid : s.said j = (s.log.filter (·.1 = j)).map (·.2.val) := by
    rw [said, hturn, Option.elim_some, houtput, List.append_nil]
  rcases hcase with ⟨_, rfl⟩ | ⟨size, u, rfl, hpop, _, ht⟩ | ⟨array, size, output, u, rfl, hpop, ht⟩
  · have hsame : ({ s with turns := Function.update s.turns j none } : Server).said j = s.said j := by
      rw [hsaid, said]
      simp only [Function.update_self, Option.elim_none, List.append_nil]
    rw [hsame]
    simp only [Function.update_self]
    exact hworded.leave
  · -- no message of a word is refused
    obtain ⟨frame, ys, hnext, hkind, rfl⟩ : ∃ frame ys,
        scheme.next sock.recv_buffer.contents = some (frame, ys) ∧
          msg sock.recv_buffer.contents ≠ req_chat ∧ size = frame.length := by
      rcases pass_spec hvalid hheader hpass with
        ⟨_, heq⟩ | ⟨frame, ys, hnext, ⟨hkind, heq⟩ | ⟨_, _, _, heq⟩⟩
      · cases heq
      · cases heq
        exact ⟨frame, ys, hnext, hkind, rfl⟩
      · cases heq
    obtain ⟨hsame, _⟩ := Framing.next_spec hnext
    rw [ht, (pop_spec hpop).2] at htaken
    simp only [Function.update_self] at htaken
    rw [hsame, List.take_left] at htaken
    obtain ⟨input, _, rfl⟩ := next_taken htaken
    refine absurd ?_ hkind
    rw [← msg_of_next hnext (List.ne_nil_of_length_pos
      (Nat.lt_of_lt_of_le (by decide) (input_message_frame input).header))]
    rfl
  · obtain ⟨frame, ys, hnext, rfl, rfl, hhandle⟩ := pass_handles hvalid hheader hpass
    obtain ⟨hsame, _⟩ := Framing.next_spec hnext
    rw [ht, (pop_spec hpop).2] at htaken ⊢
    simp only [Function.update_self] at htaken ⊢
    rw [hsame, List.take_left] at htaken ⊢
    obtain ⟨input, _, rfl⟩ := next_taken htaken
    have hlanded := landed_eq turn.array (input_message_frame input).header ys
    rw [hsame, hlanded] at hhandle
    rw [hlanded]
    rw [hturn, hsaid] at hworded
    simp only [said, Function.update_self, Option.elim_some]
    exact hworded.handles hlines hsorted harray htaken hhandle

/-- What the server has said in the name of a client that sends words which never get
    shorter is these words, one after the other. -/
theorem worded (hlines : ∀ input ∈ inputs, Line input)
    (hsorted : inputs.Pairwise fun input input' => input.length ≤ input'.length)
    (hreach : (server p concurrency).Reachable allowed s)
    (hbrings : Brings s.world j (inputs.map input_message).flatten) :
    Worded inputs (s.names j) (s.turns j) (s.taken j) (s.said j) (s.refused j) := by
  refine Machine.Run.invariant (P := fun s => Brings s.world j (inputs.map input_message).flatten →
    Worded inputs (s.names j) (s.turns j) (s.taken j) (s.said j) (s.refused j)) hreach
    (fun _ => .start _) ?_ hbrings
  intro s e t hs hworded hallowed hstep hbrings
  have hbefore := hworded (brings_before (serves.accepts_run hstep) (serves.accepts_reached hs) hbrings)
  have htaken : t.taken j <+: inputs.map input_message := by
    have htuned := tuned (Machine.Run.step hs hallowed hstep) j
    cases hsock : t.service.world.sockets j with
    | none =>
      rw [(htuned.unmade hsock).2.1]
      exact List.nil_prefix
    | some sock =>
      refine (htuned.heard sock hsock).splits.of_prefix (by decide) ?_
        (hbrings (Option.isSome_iff_exists.mpr ⟨sock, hsock⟩))
      intro message hmessage
      obtain ⟨input, _, rfl⟩ := List.mem_map.mp hmessage
      exact input_message_frame input
  change s.step p concurrency e = some t at hstep
  cases e with
  | service e =>
    obtain ⟨_, hlibrary, ht⟩ := library_spec hstep
    rw [ht]
    by_cases hbegins : received_since s.world t.world j = true
    · have hturn : s.turns j = none := by
        cases e with
        | process e k =>
          exact array_none.mp
            ((tuned hs j).begins_free (accepts_only_permits (serves.accepts_reached hs) j).1 hlibrary hbegins)
        | stop =>
          have hworld : t.service.world = s.service.world := by rw [(stop_spec hlibrary).2]; rfl
          rw [world, world, hworld, received_since_same] at hbegins
          cases hbegins
        | cancelled k =>
          have hworld : t.service.world = s.service.world := by rw [(cancelled_spec hlibrary).1]
          rw [world, world, hworld, received_since_same] at hbegins
          cases hbegins
      rw [hturn, said, hturn] at hbefore
      simp only [said, hbegins, ↓reduceIte]
      exact hbefore.begins
    · simp only [said, hbegins]
      exact hbefore
  | on_accept c ring =>
    obtain ⟨i, haccepted, _, _, _, _, _, _, _, ht⟩ := on_accept_spec hstep
    rw [ht]
    by_cases hi : j = i
    · subst i
      obtain ⟨hturn, hnone⟩ := accepted_silent hs haccepted
      have hsaid := hbefore.said
      rw [hnone] at hsaid
      change Worded inputs (Function.update s.names j _ j) (s.turns j) (s.taken j) (s.said j) (s.refused j)
      rw [hturn, hnone, hsaid, hbefore.known, Function.update_self]
      exact .start _
    · change Worded inputs (Function.update s.names i _ j) (s.turns j) (s.taken j) (s.said j) (s.refused j)
      rw [Function.update_of_ne hi]
      exact hbefore
  | pass i ring sqe =>
    by_cases hi : j = i
    · subst i
      exact pass_worded hlines hsorted hs hbefore hstep htaken
    · obtain ⟨turn, sock, result, _, _, _, _, hcase⟩ := pass_step_spec hstep
      have hsame : t.names j = s.names j ∧ t.turns j = s.turns j ∧ t.taken j = s.taken j ∧
          t.log = s.log ∧ t.refused j = s.refused j := by
        rcases hcase with ⟨_, rfl⟩ | ⟨_, _, _, hpop, _, ht⟩ | ⟨_, _, _, _, _, hpop, ht⟩
        · exact ⟨rfl, Function.update_of_ne hi .., rfl, rfl, rfl⟩
        · rw [ht, (pop_spec hpop).2]
          exact ⟨rfl, Function.update_of_ne hi .., Function.update_of_ne hi .., rfl,
            Function.update_of_ne hi ..⟩
        · rw [ht, (pop_spec hpop).2]
          exact ⟨rfl, Function.update_of_ne hi .., Function.update_of_ne hi .., rfl, rfl⟩
      obtain ⟨hnames, hturns, hpopped, hlog, hrefused⟩ := hsame
      rw [said, hnames, hturns, hpopped, hlog, hrefused]
      exact hbefore
  | chat_all i order =>
    obtain ⟨turn, output, response, hturn, _, _, houtput, rfl⟩ := chat_all_spec hstep
    by_cases hi : j = i
    · subst i
      have hsaid : ({ s with
          turns := Function.update s.turns j (some { turn with output })
          broadcast := some { speaker := j, response, todo := order }
          log := s.log ++ [(j, response)] } : Server).said j = s.said j := by
        simp [said, hturn, houtput]
      rw [hsaid]
      refine ⟨hbefore.said, fun x hx => ?_, hbefore.known⟩
      simp only [Function.update_self, Option.some.injEq] at hx
      subst x
      exact hbefore.holds turn hturn
    · simp only [said, Function.update_of_ne hi, List.filter_append, List.map_append]
      rw [List.filter_cons_of_neg (by simpa using Ne.symm hi), List.filter_nil, List.map_nil,
        List.append_nil]
      exact hbefore
  | send ring =>
    obtain ⟨_, _, _, _, _, _, _, ht⟩ := send_spec hstep
    rw [ht]
    exact hbefore
  | send_locked ring sqe =>
    obtain ⟨_, _, _, ht⟩ := send_locked_spec hstep
    rw [ht]
    exact hbefore
  | sent_all =>
    obtain ⟨_, _, _, _, rfl⟩ := sent_all_spec hstep
    exact hbefore
  | on_close i =>
    obtain ⟨_, _, rfl⟩ := on_close_spec hstep
    exact hbefore

end Server

variable {p : Platform} {concurrency : Nat} {s : Server} {j : ObjectId} {sock : SocketObject}
  {inputs : List (List UInt8)} {allowed : Server → ServerEvent → Prop}

/-- The server says in the name of a client what the client has been given as input, one
    word after the other, as long as no word is shorter than the one before it. When
    all of it has come in and the callback has returned it has said all of it. -/
theorem words_relayed (hreach : (server p concurrency).Reachable allowed s)
    (hsock : s.world.sockets j = some sock) (hlines : ∀ input ∈ inputs, Line input)
    (hsorted : inputs.Pairwise fun input input' => input.length ≤ input'.length)
    (hreceived : (s.world.history j).received <+: (inputs.map input_message).flatten) :
    (s.log.filter (·.1 = j)).map (·.2.val) <+: inputs.map (response_chat (s.names j)) ∧
      ((s.world.history j).received = (inputs.map input_message).flatten → s.turns j = none →
        (s.log.filter (·.1 = j)).map (·.2.val) = inputs.map (response_chat (s.names j))) := by
  obtain ⟨hsaid, _, hknown⟩ := Server.worded hlines hsorted hreach fun _ => hreceived
  have hframes : ∀ message ∈ inputs.map input_message, scheme.IsFrame message := by
    intro message hmessage
    obtain ⟨input, _, rfl⟩ := List.mem_map.mp hmessage
    exact input_message_frame input
  refine ⟨?_, fun hall hturn => ?_⟩
  · have hpart : (s.log.filter (·.1 = j)).map (·.2.val) <+: s.said j := List.prefix_append _ _
    refine hpart.trans ?_
    rw [hsaid]
    exact (List.take_prefix _ _).map _
  · obtain ⟨_, htaken⟩ := ((Server.tuned hreach j).heard sock hsock).messages hframes hreceived
    rw [htaken hall (Server.array_none.mpr hturn) hknown, List.length_map, List.take_length,
      Server.said, hturn, Option.elim_none, List.append_nil] at hsaid
    exact hsaid

/-- Two words, the second one longer. -/
def growing_words : List (List UInt8) := [[65], [66, 67]]

theorem growing_words_lines : (∀ input ∈ growing_words, Line input) ∧
    growing_words.Pairwise fun input input' => input.length ≤ input'.length := by
  refine ⟨fun input hinput => ?_, by decide⟩
  fin_cases hinput
  · exact ⟨by decide, by decide⟩
  · exact ⟨by decide, by decide⟩

/-- They are relayed to every client. -/
theorem words_relayed_two_words : ∃ s, (server .roomy 2).Reachable Machine.Any s ∧
    s.log.length = 2 ∧
      (s.log.filter (·.1 = 2)).map (·.2.val) = growing_words.map (response_chat (s.names 2)) := by
  obtain ⟨s, hreach, hs⟩ := requests_are_relayed
  obtain ⟨sock, hsock, _, _, _, hreceived, hturn, _, _, hlog⟩ := relayed_in_halves_spec hs
  obtain ⟨hlines, hsorted⟩ := growing_words_lines
  have hinput : (s.world.history 2).received = (growing_words.map input_message).flatten := by
    rw [hreceived]
    decide
  obtain ⟨_, hall⟩ := words_relayed hreach hsock hlines hsorted (hinput ▸ List.prefix_refl _)
  exact ⟨s, hreach, hlog, hall hinput hturn⟩

end Chat

end rioring
