import Rioring.Echo.Server

/-! What the sockets of the echo server send back of what they receive. -/

namespace rioring

open World Service

namespace Inbound

variable {p : Platform} {n n' : Inbound} {a : Action}

/-- What has been popped is popped for good, and a callback that begins has a buffer. -/
theorem Move.popped_kept (hsound : n.Sound p) (hwhole : n.Whole) (hmove : Move p n a n')
    (hpop : ∀ size, a ≠ .pop size) : n'.popped = n.popped ∧
      n'.received.take n.popped = n.received.take n.popped ∧
      ((∃ r data sqe, a = .received r data sqe) → n'.recv_buffer.raw_buffer.isSome) := by
  cases hmove with
  | same hreceived =>
    refine ⟨rfl, rfl, ?_⟩
    rintro ⟨_, _, _, haction⟩
    exact absurd haction (hreceived _ _ _)
  | start hassign hreceive =>
    obtain ⟨_, hreceived, hpopped, _⟩ := hreceive.spec
    exact ⟨hpopped, by rw [hreceived], by simp⟩
  | received hcomplete hdata hlength hpush hreceive =>
    obtain ⟨hbuffer, hreceived, hpopped, _⟩ := hreceive.spec
    obtain ⟨_, _, hraw⟩ := hsound.pushed hcomplete hlength hpush
    obtain ⟨hallocated, _⟩ := hwhole.allocated hcomplete
    obtain ⟨_, hle, _⟩ := hwhole.held hallocated
    obtain ⟨front, back, _, rfl⟩ := hcomplete
    refine ⟨hpopped, ?_, fun _ => ?_⟩
    · simp only [hreceived]
      exact List.take_append_of_le_length hle
    · simp only [hbuffer]
      exact hraw.trans hallocated
  | receive_ended hcomplete =>
    obtain ⟨front, back, _, rfl⟩ := hcomplete
    exact ⟨rfl, rfl, by simp⟩
  | pop size => exact absurd rfl (hpop size)

end Inbound

namespace Echo

/-- What a socket is to have accepted of what it has received: all of it between `send`
    and `pop`, and else what has been popped. -/
def given (h : History) (stage : Option Stage) : List UInt8 :=
  if stage = some .sent then h.received else h.received.take h.popped

/-- A socket has accepted this, or it has come to its end on the way. -/
def Echoed (h : History) (live : Bool) (stage : Option Stage) : Prop :=
  h.accepted = given h stage ∨
    stage ≠ some .sending ∧ live = false ∧ h.activations ≠ 0 ∧ h.accepted <+: given h stage

/-- The callbacks of socket `j` beside the rest of the server. -/
structure Echoes (s : Service) (j : ObjectId) (stage : Option Stage) : Prop where
  unmade : s.world.sockets j = none → stage = none
  reading : stage.isSome → ∃ c ∈ s.world.custody.used, s.world.Reads j c
  held : stage.isSome → ∀ sock, s.world.sockets j = some sock → sock.recv_buffer.raw_buffer.isSome
  sends : (s.world.sends.filter (·.1 = j)).map (·.2.val) =
    if stage = some .sending then [(s.world.history j).received.drop (s.world.history j).popped] else []
  echoed : (s.world.sockets j).isSome → Echoed (s.world.history j) (s.world.live j) stage

section Echoes

variable {p : Platform} {concurrency k : Nat} {s t : Service} {j : ObjectId} {e : Event}
  {stage stage' : Option Stage} {h h' : History} {live live' : Bool}

theorem given_part (h : History) (stage : Option Stage) : given h stage <+: h.received := by
  rw [given]
  split
  · exact List.prefix_refl _
  · exact List.take_prefix _ _

/-- What changes nothing but for an activation leaves the socket where it is. -/
theorem Echoed.keep (hechoed : Echoed h live stage) (haccepted : h'.accepted = h.accepted)
    (hgiven : given h' stage' = given h stage) (hstage : stage' = some .sending → stage = some .sending)
    (hlive : h'.activations = h.activations ∧ (live' = true → live = true) ∨ h.activations = 0) :
    Echoed h' live' stage' := by
  rcases hechoed with heq | ⟨hsending, hdead, hactive, hpart⟩
  · exact .inl (by rw [haccepted, heq, hgiven])
  · rcases hlive with ⟨hactivations, hlive⟩ | hzero
    · refine .inr ⟨mt hstage hsending, ?_, hactivations ▸ hactive, by rwa [haccepted, hgiven]⟩
      rw [← Bool.not_eq_true]
      intro hlives
      rw [hlive hlives] at hdead
      cases hdead
    · exact absurd hzero hactive

theorem Echoed.part (hechoed : Echoed h live stage) : h.accepted <+: h.received := by
  rcases hechoed with heq | ⟨_, _, _, hpart⟩
  · rw [heq]
    exact given_part h stage
  · exact hpart.trans (given_part h stage)

theorem Echoed.whole (hechoed : Echoed h live none) (hlive : live = true) :
    h.accepted = h.received.take h.popped := by
  rcases hechoed with heq | ⟨_, hdead, _⟩
  · exact heq
  · rw [hlive] at hdead
    cases hdead

/-- A receive callback begins only when bytes have come in, and then no other of the
    socket is running. -/
theorem begins_free (hpermits : (service p concurrency).Reachable (permits j View.connected_once) s)
    (hechoes : Echoes s j stage) (hprocess : s.process p concurrency e k = some t)
    (hbegins : received_since s.world t.world j = true) :
    stage = none ∧ ∃ r data sqe, s.world.action j e = .received r data sqe := by
  have hserial := Serial.reachable hpermits
  have hwf := Wf.reachable (Sound.reachable hpermits).reached
  cases hsock : s.world.sockets j with
  | none =>
    rw [received_since, hsock] at hbegins
    cases hbegins
  | some sock =>
    obtain ⟨_, _, _, _, hcalled⟩ := hwf.callbacks_since hsock (process_spec hprocess).2.1
    rw [received_since, hsock, Option.isSome_some, Bool.true_and, List.any_eq_true] at hbegins
    obtain ⟨callback, hmem, hreceive⟩ := hbegins
    have hreason := hcalled callback hmem
    cases callback with
    | receive contents addr =>
      obtain ⟨r, data, sqe, haction⟩ := hreason.1
      refine ⟨?_, r, data, sqe, haction⟩
      obtain ⟨c, cqe, sqe', rfl, r', hr', rfl⟩ := action_receives (.inl ⟨r, data, sqe, haction⟩)
      by_contra hstage
      obtain ⟨c, hc, hreads⟩ := hechoes.reading (Option.isSome_iff_ne_none.mpr hstage)
      rw [hserial.not_taken hc hreads hr'] at hprocess
      cases hprocess
    | send_complete | close | error | accept => cases hreceive

/-- Whatever happens but for the calls of its own callback leaves a socket where it is,
    when a handler returns after its callback. -/
theorem Echoes.process (hreach : (service p concurrency).Reachable accepts_only s)
    (hechoes : Echoes s j stage) (hactivates : e.activates j = false)
    (hprocess : s.process p concurrency e k = some t) (hpop : ∀ size, e ≠ .pop j size)
    (hsends : t.world.sends.filter (·.1 = j) = s.world.sends.filter (·.1 = j))
    (haccepts : (s.world.action j e).accepts = [])
    (hfinish : ∀ c, e = .finish c → stage.isSome → ¬ s.world.Reads j c) :
    Echoes t j (if received_since s.world t.world j then some .called else stage) := by
  obtain ⟨hpermits, hcalled⟩ := accepts_only_permits hreach j
  obtain ⟨_, hstep, _, _⟩ := process_spec hprocess
  have hallowed := permits_accepted hcalled hactivates hstep
  have hserial := Serial.reachable hpermits
  have hs := Sound.reachable hpermits
  have hwf := Wf.reachable hs.reached
  have haddressed := reachable_addressed hs.reached
  have hmoves := (hwf.step_does hstep).moves j
  cases hsock : s.world.sockets j with
  | none =>
    obtain rfl := hechoes.unmade hsock
    have hnever : received_since s.world t.world j = false := by
      rw [received_since, hsock]
      rfl
    rw [hnever]
    refine ⟨fun _ => rfl, by simp, by simp, ?_, fun hsome => ?_⟩
    · have hnone := hechoes.sends
      rw [hsends]
      exact hnone
    · obtain ⟨sock', hsock'⟩ := Option.isSome_iff_exists.mp hsome
      have hfresh := hmoves.fresh _ (view_eq_none hsock) (view_eq hsock')
      have hhistory : t.world.history j = {} := hfresh.history
      rw [hhistory]
      exact .inl rfl
  | some sock =>
    obtain ⟨v', hv', hmove⟩ := hmoves.move _ (view_eq hsock)
    obtain ⟨sock', hsock', rfl⟩ := Option.map_eq_some_iff.mp hv'
    obtain ⟨hsound, hwhole⟩ := received_whole (permitted hpermits) hsock
    have hnopop : ∀ size, s.world.action j e ≠ .pop size := fun size haction =>
      hpop size (action_pop haction)
    obtain ⟨hpopped, hfront, hraw⟩ := hmove.inbound.popped_kept hsound hwhole hnopop
    have hpopped : (t.world.history j).popped = (s.world.history j).popped := hpopped
    have hfront : (t.world.history j).received.take (s.world.history j).popped =
        (s.world.history j).received.take (s.world.history j).popped := hfront
    have hkeeps := hmove.outbound.keeps
    have haccepted : (t.world.history j).accepted = (s.world.history j).accepted := by
      have hadded := hkeeps.accepted
      rw [haccepts, List.append_nil] at hadded
      exact hadded
    have hlive : (t.world.history j).activations = (s.world.history j).activations ∧
        (t.world.live j = true → s.world.live j = true) ∨ (s.world.history j).activations = 0 := by
      rcases hkeeps.flags with ⟨hactivations, _, hlive⟩ | ⟨⟨sqe, haction⟩, _⟩
      · rw [live_eq hsock, live_eq hsock']
        exact .inl ⟨hactivations, hlive⟩
      · have hpermitted := hallowed _ (view_eq hsock)
        rw [haction] at hpermitted
        exact .inr hpermitted
    have hechoed := hechoes.echoed (by rw [hsock]; rfl)
    by_cases hbegins : received_since s.world t.world j = true
    · obtain ⟨rfl, hreceived⟩ := begins_free hpermits hechoes hprocess hbegins
      obtain ⟨r, data, sqe, haction⟩ := hreceived
      rw [if_pos hbegins]
      refine ⟨fun hnone => ?_, fun _ => ?_, fun _ sock₁ hsock₁ => ?_, ?_, fun _ => ?_⟩
      · rw [hsock'] at hnone
        cases hnone
      · exact hwf.reads_taken haddressed haction hstep
      · rw [hsock'] at hsock₁
        cases hsock₁
        exact hraw ⟨r, data, sqe, haction⟩
      · rw [hsends]
        exact hechoes.sends
      · refine hechoed.keep haccepted ?_ (by simp) hlive
        rw [given, given, hpopped]
        exact hfront
    · rw [if_neg hbegins]
      have hheld : stage.isSome →
          (t.world.view_with j sock').inbound = (s.world.view_with j sock).inbound := by
        intro hstage
        obtain ⟨c, hc, hreads⟩ := hechoes.reading hstage
        exact hserial.same_inbound hs hc hreads hallowed hprocess hpop hsock hsock'
      have hreceived : stage.isSome →
          (t.world.history j).received = (s.world.history j).received := fun hstage =>
        congrArg Inbound.received (hheld hstage)
      refine ⟨fun hnone => ?_, fun hstage => ?_, fun hstage sock₁ hsock₁ => ?_, ?_, fun _ => ?_⟩
      · rw [hsock'] at hnone
        cases hnone
      · obtain ⟨c, hc, hreads⟩ := hechoes.reading hstage
        exact ⟨c, hwf.reads_kept haddressed hc hreads (fun heq => hfinish c heq hstage hreads) hstep⟩
      · rw [hsock'] at hsock₁
        cases hsock₁
        have hbuffer : sock'.recv_buffer = sock.recv_buffer :=
          congrArg Inbound.recv_buffer (hheld hstage)
        rw [hbuffer]
        exact hechoes.held hstage sock hsock
      · rw [hsends, hechoes.sends]
        split
        · rename_i hsending
          rw [hreceived (by rw [hsending]; rfl), hpopped]
        · rfl
      · refine hechoed.keep haccepted ?_ id hlive
        rw [given, given, hpopped]
        split
        · rename_i hsent
          exact hreceived (by rw [hsent]; rfl)
        · exact hfront

/-- The guard of `send` in the callback. -/
theorem Echoes.send (hreach : (service p concurrency).Reachable accepts_only s)
    (hechoes : Echoes s j (some .called)) {sock : SocketObject} (hsock : s.world.sockets j = some sock)
    {bytes : Bytes} (hbytes : bytes.val = sock.recv_buffer.contents)
    (hprocess : s.process p concurrency (.send j bytes) k = some t) :
    Echoes t j (some (if s.world.live j then .sending else .sent)) := by
  obtain ⟨hpermits, _⟩ := accepts_only_permits hreach j
  obtain ⟨_, hworld⟩ := send_step (process_spec hprocess).2.1
  obtain ⟨_, hwhole⟩ := received_whole (permitted hpermits) hsock
  have hcontents : sock.recv_buffer.contents =
      (s.world.history j).received.drop (s.world.history j).popped :=
    (hwhole.held (hechoes.held rfl sock hsock)).1
  have hechoed := hechoes.echoed (by rw [hsock]; rfl)
  have hsends := hechoes.sends
  by_cases hlive : s.world.live j = true
  · rw [if_pos hlive] at hworld
    rw [if_pos hlive]
    constructor
    · rw [hworld]
      intro hnone
      cases hsock.symm.trans hnone
    · rw [hworld]
      exact fun _ => hechoes.reading rfl
    · rw [hworld]
      exact fun _ => hechoes.held rfl
    · rw [hworld]
      have hnone : s.world.sends.filter (·.1 = j) = [] := List.map_eq_nil_iff.mp hsends
      simp [List.filter_append, hnone, hbytes, hcontents]
    · rw [hworld]
      refine fun _ => .inl ?_
      rcases hechoed with heq | ⟨_, hdead, _⟩
      · exact heq
      · rw [hlive] at hdead
        cases hdead
  · rw [if_neg hlive] at hworld
    rw [if_neg hlive]
    constructor
    · rw [hworld, hsock]
      intro hnone
      cases hnone
    · rw [hworld]
      exact fun _ => hechoes.reading rfl
    · rw [hworld]
      exact fun _ => hechoes.held rfl
    · rw [hworld]
      exact hsends
    · rw [hworld]
      obtain ⟨c, hc, hreads⟩ := hechoes.reading rfl
      obtain ⟨_, _, hactive⟩ := (Serial.reachable hpermits).active c hc hreads
      exact fun _ => .inr ⟨by simp, by simpa using hlive, hactive, hechoed.part⟩

/-- The only call of `send` of a socket between guard and lock. -/
theorem filter_eraseIdx {sends : List (ObjectId × Bytes)} {index : Nat} {entry : ObjectId × Bytes}
    (hentry : sends[index]? = some entry) (i : ObjectId) : sends.filter (·.1 = i) =
      (sends.take index).filter (·.1 = i) ++ (if entry.1 = i then [entry] else []) ++
        (sends.drop (index + 1)).filter (·.1 = i) ∧
    (sends.eraseIdx index).filter (·.1 = i) =
      (sends.take index).filter (·.1 = i) ++ (sends.drop (index + 1)).filter (·.1 = i) := by
  obtain ⟨hindex, hget⟩ := List.getElem?_eq_some_iff.mp hentry
  refine ⟨?_, ?_⟩
  · have hsplit : sends = sends.take index ++ [entry] ++ sends.drop (index + 1) := by
      rw [← hget, List.append_assoc, List.singleton_append, ← List.drop_eq_getElem_cons hindex,
        List.take_append_drop]
    have hone : [entry].filter (·.1 = i) = if entry.1 = i then [entry] else [] := by
      by_cases hi : entry.1 = i <;> simp [hi]
    rw [← hone, ← List.filter_append, ← List.filter_append, ← hsplit]
  · rw [List.eraseIdx_eq_take_drop_succ, List.filter_append]

/-- The locked body of the `send` of the callback. -/
theorem Echoes.send_locked (hreach : (service p concurrency).Reachable accepts_only s)
    (hechoes : Echoes s j (some .sending)) {index : Nat} {sqe : Bool} {bytes : Bytes}
    (hentry : s.world.sends[index]? = some (j, bytes))
    (hprocess : s.process p concurrency (.send_locked index sqe) k = some t) :
    Echoes t j (some .sent) := by
  obtain ⟨hpermits, hcalled⟩ := accepts_only_permits hreach j
  obtain ⟨_, hstep, _, _⟩ := process_spec hprocess
  have hallowed := permits_accepted hcalled (e := .send_locked index sqe) rfl hstep
  have hs := Sound.reachable hpermits
  have hwf := Wf.reachable hs.reached
  obtain ⟨c, hc, hreads⟩ := hechoes.reading rfl
  obtain ⟨sock, sock', hsock, hsock', hsame⟩ :=
    (Serial.reachable hpermits).held hs hc hreads hallowed hprocess
  have hinbound : (t.world.view_with j sock').inbound = (s.world.view_with j sock).inbound :=
    hsame.resolve_right fun h => by simp at h
  obtain ⟨hall, herased⟩ := filter_eraseIdx hentry j
  rw [if_pos rfl] at hall
  have hsends := hechoes.sends
  rw [if_pos rfl, hall, List.map_append, List.map_append] at hsends
  have hlengths := congrArg List.length hsends
  simp only [List.length_append, List.length_map, List.length_singleton] at hlengths
  have hbefore : (s.world.sends.take index).filter (·.1 = j) = [] :=
    List.length_eq_zero_iff.mp (by omega)
  have hbehind : (s.world.sends.drop (index + 1)).filter (·.1 = j) = [] :=
    List.length_eq_zero_iff.mp (by omega)
  rw [hbefore, hbehind] at hsends herased
  have hbytes : bytes.val = (s.world.history j).received.drop (s.world.history j).popped :=
    List.singleton_inj.mp hsends
  have hreceived : (t.world.history j).received = (s.world.history j).received :=
    congrArg Inbound.received hinbound
  refine ⟨fun hnone => ?_, fun _ => ?_, fun _ sock₁ hsock₁ => ?_, ?_, fun _ => .inl ?_⟩
  · rw [hsock'] at hnone
    cases hnone
  · exact ⟨c, hwf.reads_kept (reachable_addressed hs.reached) hc hreads (by simp) hstep⟩
  · rw [hsock'] at hsock₁
    cases hsock₁
    have hbuffer : sock'.recv_buffer = sock.recv_buffer := congrArg Inbound.recv_buffer hinbound
    rw [hbuffer]
    exact hechoes.held rfl sock hsock
  · rw [(send_locked_threads hstep).2, herased]
    rfl
  · have haction : s.world.action j (.send_locked index sqe) = .send bytes sqe := by
      simp only [World.action, hentry, if_true]
    obtain ⟨_, _, hadded, _⟩ := Wf.keeps (p := p) (e := .send_locked index sqe) hwf hstep hsock
    rw [haction] at hadded
    have hadded : (t.world.history j).accepted = (s.world.history j).accepted ++ bytes.val := hadded
    have haccepted : (s.world.history j).accepted =
        (s.world.history j).received.take (s.world.history j).popped := by
      rcases hechoes.echoed (by rw [hsock]; rfl) with heq | ⟨hsending, _⟩
      · exact heq
      · exact absurd rfl hsending
    rw [hadded, haccepted, hbytes, List.take_append_drop, given, if_pos rfl, hreceived]

/-- The callback pops what it has read, and returns. -/
theorem Echoes.pop (hreach : (service p concurrency).Reachable accepts_only s)
    (hechoes : Echoes s j (some .sent)) {sock : SocketObject} (hsock : s.world.sockets j = some sock)
    (hprocess : s.process p concurrency (.pop j sock.recv_buffer.size) k = some t) :
    Echoes t j none := by
  obtain ⟨hpermits, _⟩ := accepts_only_permits hreach j
  obtain ⟨_, hstep, _, _⟩ := process_spec hprocess
  have hwf := Wf.reachable (Sound.reachable hpermits).reached
  obtain ⟨v', hv', hmove⟩ :=
    ((Wf.step_does (p := p) (e := .pop j sock.recv_buffer.size) hwf hstep).moves j).move _ (view_eq hsock)
  obtain ⟨sock', hsock', rfl⟩ := Option.map_eq_some_iff.mp hv'
  have haction : s.world.action j (.pop j sock.recv_buffer.size) = .pop sock.recv_buffer.size := if_pos rfl
  rw [haction] at hmove
  obtain ⟨hsound, hwhole⟩ := received_whole (permitted hpermits) hsock
  obtain ⟨hcontents, hle, _⟩ := hwhole.held (hechoes.held rfl sock hsock)
  have hsize : sock.recv_buffer.size =
      (s.world.history j).received.length - (s.world.history j).popped := by
    have hlength := congrArg List.length hcontents
    rw [List.length_drop, hsound.valid.contents_length] at hlength
    exact hlength
  have hle : (s.world.history j).popped ≤ (s.world.history j).received.length := hle
  have hgiven : given (t.world.history j) none = given (s.world.history j) (some .sent) := by
    have hinbound := hmove.inbound
    have hreceived : (t.world.history j).received = (s.world.history j).received ∧
        (t.world.history j).popped = (s.world.history j).popped + sock.recv_buffer.size := by
      generalize hn : (t.world.view_with j sock').inbound = n' at hinbound
      have hn₁ : (t.world.history j).received = n'.received := congrArg Inbound.received hn
      have hn₂ : (t.world.history j).popped = n'.popped := congrArg Inbound.popped hn
      rw [hn₁, hn₂]
      cases hinbound with
      | same _ _ hpop => exact absurd rfl (hpop _)
      | pop size => exact ⟨rfl, congrArg _ (if_pos (Nat.le_refl _))⟩
    rw [given, given, if_pos rfl, if_neg (by simp), hreceived.1, hreceived.2, hsize,
      Nat.add_sub_cancel' hle, List.take_length]
  refine ⟨fun _ => rfl, by simp, by simp, ?_, fun _ => ?_⟩
  · have hkept := (hwf.step_threads hstep).sends_kept (by simp) (by simp)
    rw [hkept]
    exact hechoes.sends
  · have hkeeps := hmove.outbound.keeps
    have hadded : (t.world.history j).accepted = (s.world.history j).accepted ++ [] := hkeeps.accepted
    rw [List.append_nil] at hadded
    refine (hechoes.echoed (by rw [hsock]; rfl)).keep hadded hgiven (by simp) ?_
    rcases hkeeps.flags with ⟨hactivations, _, hlive⟩ | ⟨⟨sqe, hstart⟩, _⟩
    · rw [live_eq hsock, live_eq hsock']
      exact .inl ⟨hactivations, hlive⟩
    · cases hstart

end Echoes

namespace Server

variable {p : Platform} {concurrency : Nat} {s t : Server} {j : ObjectId}
  {allowed : Server → ServerEvent → Prop}

/-- A step of the service that is not a step of a handler. -/
theorem of_world {u v : Service} {stage : Option Stage} (hechoes : Echoes u j stage)
    (hworld : v.world = u.world) :
    Echoes v j (if received_since u.world v.world j then some .called else stage) := by
  rw [hworld, received_since_same, if_neg Bool.false_ne_true]
  obtain ⟨hunmade, hreading, hheld, hsends, hechoed⟩ := hechoes
  constructor <;> rw [hworld] <;> assumption

/-- A call in the callback of another socket. -/
theorem call_echoes {e : Event} {k : Nat} {u v : Service} {stage : Option Stage}
    (hreach : (rioring.service p concurrency).Reachable accepts_only u) (hechoes : Echoes u j stage)
    (hcall : e.by_callback = true) (hprocess : u.process p concurrency e k = some v)
    (hpop : ∀ size, e ≠ .pop j size)
    (hsends : v.world.sends.filter (·.1 = j) = u.world.sends.filter (·.1 = j))
    (haccepts : (u.world.action j e).accepts = []) : Echoes v j stage := by
  obtain ⟨hpermits, _⟩ := accepts_only_permits hreach j
  have hnever : ¬ received_since u.world v.world j = true := by
    intro hbegins
    obtain ⟨_, r, data, sqe, haction⟩ := begins_free hpermits hechoes hprocess hbegins
    obtain ⟨c, cqe, sqe', rfl, _⟩ := action_receives (.inl ⟨r, data, sqe, haction⟩)
    cases hcall
  have hkept := hechoes.process hreach (Event.by_callback_activates hcall j) hprocess hpop hsends haccepts
    (by rintro c rfl; cases hcall)
  rwa [if_neg hnever] at hkept

/-- The server keeps every socket where its callback is. -/
theorem echoes (hreach : (server p concurrency).Reachable allowed s) (j : ObjectId) :
    Echoes s.service j (s.turns j) := by
  refine Machine.Run.invariant (P := fun s => ∀ j, Echoes s.service j (s.turns j)) hreach ?_ ?_ j
  · exact fun j => ⟨fun _ => rfl, fun h => (by cases h), fun h => (by cases h), rfl,
      fun h => (by cases h)⟩
  intro s e t hs hechoes _ hstep j
  have hservice := serves.accepts_reached hs
  change s.step p concurrency e = some t at hstep
  cases e with
  | service e =>
    obtain ⟨hallows, hlibrary, hturns⟩ := library_spec hstep
    rw [hturns]
    cases e with
    | process e k =>
      have hobeys : s.obeys e = true := hallows
      have hsend : ∀ i bytes, e ≠ .send i bytes := by rintro i bytes rfl; cases hobeys
      have hlocked : ∀ index sqe, e ≠ .send_locked index sqe := by rintro index sqe rfl; cases hobeys
      have hwf := Wf.reachable (Sound.reachable hservice).reached
      have hkept := (hwf.step_threads (process_spec hlibrary).2.1).sends_kept hsend hlocked
      refine (hechoes j).process hservice (obeys_accepts_only hobeys j) hlibrary ?_ (by rw [hkept])
        (action_accepts hlocked) ?_
      · rintro size rfl
        cases hobeys
      · rintro c rfl hturn ⟨htype, hhandler⟩
        simp only [obeys, world, htype, hhandler] at hobeys
        rw [Option.isNone_iff_eq_none.mp hobeys] at hturn
        cases hturn
    | stop => exact of_world (hechoes j) (by rw [(stop_spec hlibrary).2]; rfl)
    | cancelled k => exact of_world (hechoes j) (by rw [(cancelled_spec hlibrary).1])
  | send i ring =>
    obtain ⟨sock, bytes, hsock, hturn, hbytes, hprocess, hturns⟩ := send_spec hstep
    rw [hturns]
    by_cases hj : j = i
    · subst j
      rw [Function.update_self]
      have hcalled := hechoes i
      rw [hturn] at hcalled
      exact hcalled.send hservice hsock hbytes hprocess
    · rw [Function.update_of_ne hj]
      refine call_echoes hservice (hechoes j) rfl hprocess (by simp) ?_ (action_accepts (by simp))
      rw [(send_step (process_spec hprocess).2.1).2]
      split
      · simp [List.filter_append, Ne.symm hj]
      · rfl
  | send_locked index ring sqe =>
    obtain ⟨entry, hentry, hturn, hprocess, hturns⟩ := send_locked_spec hstep
    rw [hturns]
    by_cases hj : j = entry.1
    · subst j
      rw [Function.update_self]
      have hsending := hechoes entry.1
      rw [hturn] at hsending
      exact hsending.send_locked hservice hentry hprocess
    · rw [Function.update_of_ne hj]
      obtain ⟨hall, herased⟩ := filter_eraseIdx hentry j
      refine call_echoes hservice (hechoes j) rfl hprocess (by simp) ?_ ?_
      · rw [(send_locked_threads (process_spec hprocess).2.1).2]
        refine herased.trans ?_
        rw [if_neg (Ne.symm hj), List.append_nil] at hall
        exact hall.symm
      · have hentry : s.service.world.sends[index]? = some entry := hentry
        simp only [World.action, hentry, if_neg (Ne.symm hj)]
        rfl
  | pop i ring =>
    obtain ⟨sock, hsock, hturn, hprocess, hturns⟩ := pop_spec hstep
    rw [hturns]
    by_cases hj : j = i
    · subst j
      rw [Function.update_self]
      have hsent := hechoes i
      rw [hturn] at hsent
      exact hsent.pop hservice hsock hprocess
    · rw [Function.update_of_ne hj]
      have hwf := Wf.reachable (Sound.reachable hservice).reached
      have hkept := (hwf.step_threads (process_spec hprocess).2.1).sends_kept (by simp) (by simp)
      refine call_echoes hservice (hechoes j) rfl hprocess ?_ (by rw [hkept]) (action_accepts (by simp))
      rintro size heq
      cases heq
      exact hj rfl

/-- A socket of the server has accepted a part of what it has received, byte for byte,
    and while it is connected all that its callbacks have popped. -/
theorem echoed (hreach : (server p concurrency).Reachable allowed s) {sock : SocketObject}
    (hsock : s.world.sockets j = some sock) :
    (s.world.history j).accepted <+: (s.world.history j).received ∧
      (sock.connected_flag = true → sock.shutdown_gracefully = false → s.turns j = none →
        (s.world.history j).accepted =
          (s.world.history j).received.take (s.world.history j).popped) := by
  have hechoed := (echoes hreach j).echoed (by rw [← world, hsock]; rfl)
  refine ⟨hechoed.part, fun hconnected hgraceful hturn => ?_⟩
  rw [hturn] at hechoed
  refine hechoed.whole ?_
  have hlive : s.service.world.live j = (sock.connected_flag && !sock.shutdown_gracefully) :=
    live_eq hsock
  rw [hlive, hconnected, hgraceful]
  rfl

/-- A client is accepted, and two bytes of it come in and are sent
    back. -/
def two_bytes_echoed : List ServerEvent :=
  [.service (.process .create_server 0),
    .service (.process (.set_event 1 .accept true) 0),
    .service (.process (.run 1 7 true true 0 true) 0),
    .service (.process (.complete 0 { res := 8 } true) 0),
    .service (.process (.set_event 2 .receive true) 0),
    .service (.process (.resume 0 true true) 0),
    .service (.process (.finish 0) 0),
    .service (.process (.complete 2 { res := 2, data := [1, 2] } true) 0),
    .send 2 0,
    .send_locked 0 0 true,
    .pop 2 0,
    .service (.process (.finish 2) 0)]

theorem echoed_two_bytes : ∃ s : Server, (server .small 2).Reachable Machine.Any s ∧
    (s.world.history 2).accepted = [1, 2] ∧
    (s.world.history 2).accepted = (s.world.history 2).received.take (s.world.history 2).popped := by
  obtain ⟨s, hreach, hs⟩ := Machine.reachable_of_exec (server .small 2) Machine.Any two_bytes_echoed
    (fun s => (s.world.sockets 2).any (fun sock => sock.connected_flag && !sock.shutdown_gracefully) &&
      (s.turns 2).isNone && (s.world.history 2).accepted == [1, 2]) (by decide +kernel)
  simp only [Bool.and_eq_true, Option.any_eq_true, Bool.not_eq_true', Option.isNone_iff_eq_none,
    beq_iff_eq] at hs
  obtain ⟨⟨⟨sock, hsock, hconnected, hgraceful⟩, hturn⟩, haccepted⟩ := hs
  obtain ⟨_, hall⟩ := echoed hreach hsock
  exact ⟨s, hreach, haccepted, hall hconnected hgraceful hturn⟩

end Server

end Echo

end rioring
