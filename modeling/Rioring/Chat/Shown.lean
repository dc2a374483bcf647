import Rioring.Chat.Responses

/-! What the chat client shows of the messages that come to it. -/

namespace rioring

open World Service

namespace Chat

/-- The message for a name and a text. -/
def respond (response : List UInt8 × List UInt8) : List UInt8 := response_chat response.1 response.2

/-- A name and a text of which a chat server makes a message. -/
structure Said (response : List UInt8 × List UInt8) : Prop where
  name : response.1.length < 20
  named : 0 ∉ response.1
  unended : 0 ∉ response.2
  fits : response.2.length ≤ 996

/-- A message with a text is shown, and the text is at the front of what is shown. -/
def Shows (shown responses : List (List UInt8 × List UInt8)) : Prop :=
  List.Forall₂ (fun shown response => shown.1 = response.1 ∧ response.2 <+: shown.2) shown
    (responses.filter fun response => response.2 ≠ [])

/-- What the callbacks of a client have shown when it is sent messages of a server: all
    they have taken, and nothing but them as long as no text is shorter than the one
    before it. -/
structure Showing (responses : List (List UInt8 × List UInt8)) (turn : Option (List UInt8))
    (taken : List (List UInt8)) (shown : List (List UInt8 × List UInt8)) (refused : Bool) : Prop where
  shows : Shows shown (responses.take taken.length)
  same : (responses.Pairwise fun response response' => response.2.length ≤ response'.2.length) →
    shown = (responses.take taken.length).filter fun response => response.2 ≠ []
  holds : ∀ array, turn = some array → ∃ previous, Holds (array.drop sizeof_response_chat) previous ∧
    ((responses.Pairwise fun response response' => response.2.length ≤ response'.2.length) →
      ∀ response ∈ responses.drop taken.length, previous.length ≤ response.2.length)
  known : refused = false

section Showing

variable {responses shown : List (List UInt8 × List UInt8)} {response : List UInt8 × List UInt8}
  {taken : List (List UInt8)} {array frame previous : List UInt8} {turn : Option (List UInt8)}
  {refused : Bool}

theorem Said.message (hsaid : Said response) : chat_client.Message (respond response) :=
  response_chat_message hsaid.name hsaid.fits

/-- What the client shows of a message. -/
theorem Said.show (hsaid : Said response) (hholds : Holds (array.drop sizeof_response_chat) previous)
    (harray : array.length = 1024) :
    show_line (overlay (respond response) array) =
        .ok (if response.2 = [] then [] else [(response.1, overlay response.2 previous)]) ∧
      Holds ((overlay (respond response) array).drop sizeof_response_chat)
        (overlay response.2 previous) := by
  by_cases htext : response.2 = []
  · have hsize := response_chat_size_overlay hsaid.name hsaid.fits array
    have hheader : sizeof_response_chat ≤ (response_chat response.1 response.2).length := by
      rw [response_chat_length hsaid.name]
      exact Nat.le_add_right _ _
    refine ⟨?_, ?_⟩
    · rw [respond, show_line, hsize, htext, if_pos rfl]
      rfl
    · rw [respond, overlay_drop hheader, response_chat_drop hsaid.name, htext]
      exact hholds
  · rw [if_neg htext]
    exact show_overlay hholds harray hsaid.name hsaid.named ⟨htext, hsaid.unended⟩ hsaid.fits

/-- What is shown in one name. -/
theorem Shows.named (hshows : Shows shown responses) (name : List UInt8) :
    List.Forall₂ (fun shown response => response.2 <+: shown.2) (shown.filter (·.1 = name))
      ((responses.filter (·.2 ≠ [])).filter (·.1 = name)) := by
  have hfiltered := List.rel_filter (p := fun s : List UInt8 × List UInt8 => decide (s.1 = name))
    (q := fun r : List UInt8 × List UInt8 => decide (r.1 = name))
    (fun s r (hsame : s.1 = r.1 ∧ r.2 <+: s.2) => by simp only [hsame.1]) hshows
  exact hfiltered.imp fun _ _ hsame => hsame.2

theorem Showing.start : Showing responses none [] [] false :=
  ⟨.nil, fun _ => rfl, by simp, rfl⟩

/-- A callback begins. -/
theorem Showing.begins (hshowing : Showing responses none taken shown refused) :
    Showing responses (some new_array) taken shown false := by
  refine ⟨hshowing.shows, hshowing.same, fun array harray => ?_, rfl⟩
  cases harray
  exact ⟨[], holds_new_array (by decide), fun _ _ _ => Nat.zero_le _⟩

theorem Showing.leave (hshowing : Showing responses turn taken shown refused) :
    Showing responses none taken shown refused :=
  ⟨hshowing.shows, hshowing.same, by simp, hshowing.known⟩

/-- A callback reads a message and shows it. -/
theorem Showing.handles (hsaid : ∀ response ∈ responses, Said response)
    (hshowing : Showing responses (some array) taken shown refused) (harray : array.length = 1024)
    (hfront : taken ++ [frame] <+: responses.map respond)
    {output : List (List UInt8 × List UInt8)} (hhandle : show_line (overlay frame array) = .ok output) :
    Showing responses (some (overlay frame array)) (taken ++ [frame]) (shown ++ output) refused := by
  obtain ⟨response, hresponse, rfl⟩ := next_taken hfront
  obtain ⟨previous, hholds, hshorter⟩ := hshowing.holds array rfl
  obtain ⟨hlength, hget⟩ := List.getElem?_eq_some_iff.mp hresponse
  have hdrop : responses.drop taken.length = response :: responses.drop (taken.length + 1) := by
    rw [List.drop_eq_getElem_cons hlength, hget]
  obtain ⟨hshow, hholds'⟩ := (hsaid response (hget ▸ List.getElem_mem hlength)).show hholds harray
  rw [hshow] at hhandle
  cases hhandle
  have hmore : (responses.take (taken ++ [respond response]).length).filter (fun r => r.2 ≠ []) =
      (responses.take taken.length).filter (fun r => r.2 ≠ []) ++
        if response.2 = [] then [] else [response] := by
    rw [List.length_append, List.length_singleton, List.take_add_one, hresponse, List.filter_append]
    split
    · rename_i htext
      simp [htext]
    · rename_i htext
      simp [htext]
  refine ⟨?_, fun hsorted => ?_, fun y hy => ?_, hshowing.known⟩
  · rw [Shows, hmore]
    refine List.rel_append hshowing.shows ?_
    split
    · exact .nil
    · exact .cons ⟨rfl, List.prefix_append _ _⟩ .nil
  · rw [hmore, hshowing.same hsorted]
    have hshorter := hshorter hsorted response (by rw [hdrop]; exact List.mem_cons_self)
    rw [overlay_eq_iff.mpr hshorter]
  · cases hy
    refine ⟨_, hholds', fun hsorted response' hresponse' => ?_⟩
    have hshorter := hshorter hsorted
    rw [hdrop, List.forall_mem_cons] at hshorter
    rw [List.length_append, List.length_singleton] at hresponse'
    have htail := hsorted.sublist (List.drop_sublist taken.length responses)
    rw [hdrop, List.pairwise_cons] at htail
    rw [overlay_eq_iff.mpr hshorter.1]
    exact htail.1 response' hresponse'

end Showing

namespace Client

variable {p : Platform} {concurrency : Nat} {s t : Client}
  {responses : List (List UInt8 × List UInt8)} {allowed : Client → ClientEvent → Prop}

/-- The messages that the callbacks have taken of a stream. -/
theorem taken_of (hreach : (client p concurrency).Reachable allowed s)
    (hsaid : ∀ response ∈ responses, Said response)
    (hbrings : Brings s.world socket (responses.map respond).flatten) :
    s.taken <+: responses.map respond := by
  have htuned := tuned hreach
  cases hsock : s.service.world.sockets socket with
  | none =>
    rw [(htuned.unmade hsock).2.1]
    exact List.nil_prefix
  | some sock =>
    refine (htuned.heard sock hsock).splits.of_prefix (by decide) ?_
      (hbrings (Option.isSome_iff_exists.mpr ⟨sock, hsock⟩))
    intro message hmessage
    obtain ⟨response, hresponse, rfl⟩ := List.mem_map.mp hmessage
    exact (hsaid response hresponse).message.whole

/-- A pass on messages of the server. -/
theorem pass_showing {ring : Nat} (hsaid : ∀ response ∈ responses, Said response)
    (hreach : (client p concurrency).Reachable allowed s)
    (hshowing : Showing responses s.turn s.taken s.shown s.refused)
    (hstep : s.pass p concurrency ring = some t) (htaken : t.taken <+: responses.map respond) :
    Showing responses t.turn t.taken t.shown t.refused := by
  obtain ⟨array, sock, result, hturn, hsock, hpass, hcase⟩ := pass_step_spec hstep
  have harray : array.length = 1024 := (((tuned hreach).heard sock hsock).reads array hturn).1
  have hheader : sizeof_scheme ≤ array.length := by
    rw [harray]
    decide
  obtain ⟨hpermits, _⟩ := begun hreach
  have hvalid : sock.recv_buffer.Valid := (received_whole (permitted hpermits) hsock).1.valid
  rcases hcase with ⟨_, rfl⟩ | ⟨size, u, rfl, hpop, rfl⟩ | ⟨array', size, output, u, rfl, hpop, rfl⟩
  · exact hshowing.leave
  · -- no message of the server is refused
    obtain ⟨frame, ys, hnext, hkind, rfl⟩ : ∃ frame ys,
        scheme.next sock.recv_buffer.contents = some (frame, ys) ∧
          msg sock.recv_buffer.contents ≠ resp_chat ∧ size = frame.length := by
      rcases pass_spec hvalid hheader hpass with
        ⟨_, heq⟩ | ⟨frame, ys, hnext, ⟨hkind, heq⟩ | ⟨_, _, _, heq⟩⟩
      · cases heq
      · cases heq
        exact ⟨frame, ys, hnext, hkind, rfl⟩
      · cases heq
    obtain ⟨hsame, _⟩ := Framing.next_spec hnext
    rw [(pop_spec hpop).2, hsame, List.take_left] at htaken
    obtain ⟨response, hresponse, rfl⟩ := next_taken htaken
    have hwhole := (hsaid response (List.mem_of_getElem? hresponse)).message.whole
    refine absurd ?_ hkind
    rw [← msg_of_next hnext (List.ne_nil_of_length_pos (Nat.lt_of_lt_of_le (by decide) hwhole.header))]
    rfl
  · obtain ⟨frame, ys, hnext, rfl, rfl, hhandle⟩ := pass_handles hvalid hheader hpass
    obtain ⟨hsame, _⟩ := Framing.next_spec hnext
    rw [(pop_spec hpop).2, hsame, List.take_left] at htaken
    obtain ⟨response, hresponse, rfl⟩ := next_taken htaken
    have hwhole := (hsaid response (List.mem_of_getElem? hresponse)).message.whole
    have hlanded := landed_eq array hwhole.header ys
    rw [hsame, hlanded] at hhandle
    rw [hturn] at hshowing
    rw [(pop_spec hpop).2, hsame, List.take_left, hlanded]
    exact hshowing.handles hsaid harray htaken hhandle

theorem showing (hsaid : ∀ response ∈ responses, Said response)
    (hreach : (client p concurrency).Reachable allowed s)
    (hbrings : Brings s.world socket (responses.map respond).flatten) :
    Showing responses s.turn s.taken s.shown s.refused := by
  refine Machine.Run.invariant (P := fun s => Brings s.world socket (responses.map respond).flatten →
    Showing responses s.turn s.taken s.shown s.refused) hreach (fun _ => .start) ?_ hbrings
  intro s e t hs hshowing hallowed hstep hbrings
  obtain ⟨hpermits, hbegun⟩ := begun hs
  have hrun : (rioring.service p concurrency).Run (permits socket View.connected_once)
      s.service t.service := hbegun.run hstep
  have hbefore := hshowing (brings_before hrun hpermits hbrings)
  have htaken := taken_of (Machine.Run.step hs hallowed hstep) hsaid hbrings
  change s.step p concurrency e = some t at hstep
  cases e with
  | service e =>
    obtain ⟨hallows, hlibrary, ht⟩ := library_spec hstep
    rw [ht]
    by_cases hbegins : received_since s.world t.world socket = true
    · have hturn : s.turn = none := by
        cases e with
        | process e k => exact (tuned hs).begins_free hpermits hlibrary hbegins
        | stop => cases hallows
        | cancelled k =>
          have hworld : t.service.world = s.service.world := by rw [(cancelled_spec hlibrary).1]
          rw [world, world, hworld, received_since_same] at hbegins
          cases hbegins
      rw [hturn] at hbefore
      simp only [hbegins, ↓reduceIte]
      exact hbefore.begins
    · simp only [hbegins]
      exact hbefore
  | create ring =>
    obtain ⟨_, _, _, _, _, _, ht⟩ := create_spec hstep
    rw [ht]
    exact hbefore
  | connect addresses ring sqe =>
    obtain ⟨_, _, _, ht⟩ := connect_spec hstep
    rw [ht]
    exact hbefore
  | input input ring =>
    obtain ⟨_, _, _, _, _, ht⟩ := input_spec hstep
    rw [ht]
    exact hbefore
  | send_locked ring sqe =>
    obtain ⟨_, _, _, ht⟩ := send_locked_spec hstep
    rw [ht]
    exact hbefore
  | exit ring sqe =>
    obtain ⟨_, _, ht⟩ := exit_spec hstep
    rw [ht]
    exact hbefore
  | stop =>
    obtain ⟨_, _, ht⟩ := stop_spec hstep
    rw [ht]
    exact hbefore
  | pass ring => exact pass_showing hsaid hs hbefore hstep htaken

end Client

end Chat

end rioring
