import Rioring.Chat.Client

/-! What the chat client sends, and the messages that its callbacks take. -/

namespace rioring

open World Service

namespace Chat

namespace Client

variable {p : Platform} {concurrency : Nat} {s t : Client}
  {allowed : Client → ClientEvent → Prop}

/-- The socket of the client: it is there from `create` on, and becomes active in
    `connect`. -/
structure Begun (p : Platform) (s : Client) : Prop where
  starts : s.stage = .starts → s.service.world = World.start p
  created : s.stage = .created → (s.world.history socket).activations = 0
  made : s.stage ≠ .starts → ∃ sock, s.world.sockets socket = some sock ∧ sock.socket_type = .tcp

/-- What the library does by itself activates nothing. -/
theorem obeys_once {e : Event} (hobeys : s.obeys e = true) :
    e.activates socket = false ∧ ∀ c a b, e ≠ .resume c a b := by
  cases e with
  | complete | finish => exact ⟨rfl, by simp⟩
  | _ => cases hobeys

/-- A call that leaves the connection of the client what it is. -/
def harmless (s : Service) (e : ServiceEvent) : Prop :=
  permits socket View.connected_once s e ∧ permits socket View.lasting s e

theorem harmless_run {u v : Service} {e : Event} {k : Nat} (hcall : ∀ c cqe sqe, e ≠ .complete c cqe sqe)
    (honce : World.permits socket View.connected_once u.world e)
    (hprocess : u.process p concurrency e k = some v) :
    (rioring.service p concurrency).Run harmless u v :=
  .step (e := .process e k) .refl ⟨honce, permits_lasting hcall⟩ hprocess

/-- Beside its callbacks and `main` the client is an `io_service`, whose socket is
    activated once. -/
theorem serves : Program p concurrency (client p concurrency) Client.service ClientEvent.library
    (Begun p) (permits socket View.connected_once) harmless where
  start := rfl
  hosts s e e' t hlibrary hstep := by
    change s.step p concurrency e = some t at hstep
    cases e with
    | service e =>
      cases hlibrary
      obtain ⟨hallows, hservice, _⟩ := library_spec hstep
      refine ⟨?_, hservice⟩
      cases e' with
      | process e k =>
        obtain ⟨hcalls, hresume⟩ := obeys_once hallows
        exact permits_once hcalls hresume
      | stop | cancelled => trivial
    | _ => cases hlibrary
  calls s e t hs hlibrary hstep := by
    change s.step p concurrency e = some t at hstep
    cases e with
    | service e => cases hlibrary
    | create ring =>
      obtain ⟨_, s₁, s₂, h₁, h₂, h₃, _⟩ := create_spec hstep
      exact ((harmless_run (by simp) (permits_once rfl (by simp)) h₁).trans
        (harmless_run (by simp) (permits_once rfl (by simp)) h₂)).trans
          (harmless_run (by simp) (permits_once rfl (by simp)) h₃)
    | connect addresses ring sqe =>
      obtain ⟨hstage, hprocess, _⟩ := connect_spec hstep
      refine harmless_run (by simp) ?_ hprocess
      intro view hview
      obtain ⟨sock, _, rfl⟩ := Option.map_eq_some_iff.mp hview
      cases haction : s.service.world.action socket (.connect socket addresses sqe) with
      | start sqe' => exact hs.created hstage
      | _ => trivial
    | input input ring =>
      obtain ⟨_, _, _, _, hprocess, _⟩ := input_spec hstep
      exact harmless_run (by simp) (permits_once rfl (by simp)) hprocess
    | send_locked ring sqe =>
      obtain ⟨_, _, hprocess, _⟩ := send_locked_spec hstep
      exact harmless_run (by simp) (permits_once rfl (by simp)) hprocess
    | exit ring sqe =>
      obtain ⟨_, hprocess, _⟩ := exit_spec hstep
      exact harmless_run (by simp) (permits_once rfl (by simp)) hprocess
    | stop =>
      obtain ⟨_, hservice, _⟩ := stop_spec hstep
      exact .step .refl (show harmless s.service .stop from ⟨trivial, trivial⟩) hservice
    | pass ring =>
      obtain ⟨array, sock, result, _, _, _, hcase⟩ := pass_step_spec hstep
      rcases hcase with ⟨_, rfl⟩ | ⟨size, u, _, hpop, rfl⟩ | ⟨array, size, output, u, _, hpop, rfl⟩
      · exact .refl
      · exact harmless_run (by simp) (permits_once rfl (by simp)) (pop_spec hpop).1
      · exact harmless_run (by simp) (permits_once rfl (by simp)) (pop_spec hpop).1

theorem Begun.run (hs : s.Begun p) {e : ClientEvent} (hstep : (client p concurrency).step s e = some t) :
    (rioring.service p concurrency).Run (permits socket View.connected_once) s.service t.service :=
  serves.run hs (fun _ _ hcall => hcall.1) (fun _ _ hallows _ => hallows) hstep

/-- The socket stays, of its type, along what the service does. -/
theorem made_run {u v : Service} {allowed : Service → ServiceEvent → Prop}
    (hreach : (rioring.service p concurrency).Reachable Machine.Any u)
    (hrun : (rioring.service p concurrency).Run allowed u v)
    (hmade : ∃ sock, u.world.sockets socket = some sock ∧ sock.socket_type = .tcp) :
    ∃ sock, v.world.sockets socket = some sock ∧ sock.socket_type = .tcp := by
  refine Machine.Run.invariant (P := fun v => ∃ sock, v.world.sockets socket = some sock ∧
    sock.socket_type = .tcp) hrun hmade ?_
  rintro u' e v' hu ⟨sock, hsock, htype⟩ _ hstep
  have hreached := Machine.Run.trans hreach hu.any
  cases e with
  | process e k =>
    obtain ⟨sock', hsock', hkeeps⟩ :=
      (Wf.reachable (Sound.reachable hreached).reached).keeps (process_spec hstep).2.1 hsock
    exact ⟨sock', hsock', hkeeps.socket_type.trans htype⟩
  | stop =>
    rw [(Service.stop_spec hstep).2]
    exact ⟨sock, hsock, htype⟩
  | cancelled k =>
    rw [(cancelled_spec hstep).1]
    exact ⟨sock, hsock, htype⟩

/-- A call that does not activate the socket. -/
theorem activations_kept {u v : Service} {e : Event} {k : Nat}
    (hreach : (rioring.service p concurrency).Reachable Machine.Any u)
    (hcalls : e.activates socket = false) (hresume : ∀ c a b, e ≠ .resume c a b)
    (hprocess : u.process p concurrency e k = some v)
    (hmade : ∃ sock, u.world.sockets socket = some sock ∧ sock.socket_type = .tcp) :
    (v.world.history socket).activations = (u.world.history socket).activations := by
  obtain ⟨sock, hsock, _⟩ := hmade
  obtain ⟨_, _, _, _, hflags⟩ :=
    (Wf.reachable (Sound.reachable hreach).reached).keeps (process_spec hprocess).2.1 hsock
  rcases hflags with ⟨hactivations, _⟩ | ⟨⟨sqe, haction⟩, _⟩
  · exact hactivations
  · rcases action_start haction with hactivates | ⟨c, a, heq⟩
    · rw [hcalls] at hactivates
      cases hactivates
    · exact absurd heq (hresume c a sqe)

theorem Begun.start : Begun p { service := { world := World.start p } } :=
  ⟨fun _ => rfl, by simp, by simp⟩

/-- Before `create` nothing happens. -/
theorem starts_still {e : Event} (hobeys : s.obeys e = true) : (World.start p).step p e = none := by
  cases e with
  | complete c cqe sqe => rfl
  | finish c => rfl
  | _ => cases hobeys

theorem Begun.step (hreach : (rioring.service p concurrency).Reachable Machine.Any s.service)
    (hs : s.Begun p) {e : ClientEvent} (hstep : (client p concurrency).step s e = some t) :
    t.Begun p := by
  have hrun := (hs.run hstep).any
  change s.step p concurrency e = some t at hstep
  -- what leaves `main` where it is, or takes it past `connect`
  have hlater : s.stage ≠ .starts → t.stage ≠ .starts → t.stage ≠ .created → t.Begun p :=
    fun hmade hstarts hcreated => ⟨fun h => absurd h hstarts, fun h => absurd h hcreated,
      fun _ => made_run hreach hrun (hs.made hmade)⟩
  cases e with
  | service e =>
    obtain ⟨hallows, hservice, ht⟩ := library_spec hstep
    have hstage : t.stage = s.stage := by rw [ht]
    refine ⟨fun h => ?_, fun h => ?_, fun h => made_run hreach hrun (hs.made (hstage ▸ h))⟩
    · cases e with
      | process e k =>
        have hworld := (process_spec hservice).2.1
        rw [hs.starts (hstage ▸ h)] at hworld
        change (World.start p).step p e = _ at hworld
        rw [starts_still (s := s) hallows] at hworld
        cases hworld
      | stop => cases hallows
      | cancelled k =>
        rw [(cancelled_spec hservice).1]
        exact hs.starts (hstage ▸ h)
    · rw [hstage] at h
      cases e with
      | process e k =>
        obtain ⟨hcalls, hresume⟩ := obeys_once hallows
        exact (activations_kept hreach hcalls hresume hservice (hs.made (by simp [h]))).trans (hs.created h)
      | stop => cases hallows
      | cancelled k =>
        have hworld : t.world = s.world := by
          rw [world, (cancelled_spec hservice).1]
          rfl
        rw [hworld]
        exact hs.created h
  | create ring =>
    obtain ⟨hstage, s₁, s₂, h₁, h₂, h₃, ht⟩ := create_spec hstep
    have hfirst : (World.start p).step p .create_tcp = some s₁.world := by
      rw [← hs.starts hstage]
      exact (process_spec h₁).2.1
    have hworld : (World.start p).create_socket .tcp = s₁.world := Option.some.inj hfirst
    have hmade₁ : ∃ sock, s₁.world.sockets socket = some sock ∧ sock.socket_type = .tcp := by
      rw [← hworld]
      exact ⟨_, set_socket_self (World.start p) socket _, rfl⟩
    have hreach₁ := Machine.Run.trans hreach (process_run h₁)
    have hreach₂ := Machine.Run.trans hreach₁ (process_run h₂)
    have hmade₂ := made_run hreach₁ (process_run h₂) hmade₁
    refine ⟨fun h => ?_, fun _ => ?_, fun _ => ?_⟩
    · rw [ht] at h
      cases h
    · refine (activations_kept hreach₂ rfl (by simp) h₃ hmade₂).trans ?_
      refine (activations_kept hreach₁ rfl (by simp) h₂ hmade₁).trans ?_
      rw [← hworld]
      rfl
    · exact made_run hreach₂ (process_run h₃) hmade₂
  | connect addresses ring sqe =>
    obtain ⟨hstage, _, connected, ht⟩ := connect_spec hstep
    refine hlater (by simp [hstage]) ?_ ?_
    all_goals
      rw [ht]
      cases connected <;> simp
  | input input ring =>
    obtain ⟨hstage, _, sock, _, _, ht⟩ := input_spec hstep
    refine hlater (by simp [hstage]) ?_ ?_
    all_goals
      rw [ht]
      dsimp only
      split <;> simp
  | send_locked ring sqe =>
    obtain ⟨_, hstage, _, ht⟩ := send_locked_spec hstep
    refine hlater (by simp [hstage]) ?_ ?_
    all_goals
      rw [ht]
      simp
  | exit ring sqe =>
    obtain ⟨hstage, _, ht⟩ := exit_spec hstep
    refine hlater (by simp [hstage]) ?_ ?_
    all_goals
      rw [ht]
      simp
  | stop =>
    obtain ⟨hstage, _, ht⟩ := stop_spec hstep
    refine hlater (by simp [hstage]) ?_ ?_
    all_goals
      rw [ht]
      simp
  | pass ring =>
    obtain ⟨array, sock, result, _, hsock, _, hcase⟩ := pass_step_spec hstep
    have hstarts : s.stage ≠ .starts := by
      intro hstage
      rw [world, hs.starts hstage] at hsock
      cases hsock
    have hmade := made_run hreach hrun (hs.made hstarts)
    rcases hcase with ⟨_, rfl⟩ | ⟨size, u, _, hpop, rfl⟩ | ⟨array, size, output, u, _, hpop, rfl⟩
    · exact ⟨hs.starts, hs.created, hs.made⟩
    · obtain ⟨hprocess, hu⟩ := pop_spec hpop
      have hstage : u.stage = s.stage := by rw [hu]
      refine ⟨fun h => absurd (hstage.symm.trans h) hstarts, fun h => ?_, fun _ => hmade⟩
      exact (activations_kept hreach rfl (by simp) hprocess (hs.made hstarts)).trans
        (hs.created (hstage.symm.trans h))
    · obtain ⟨hprocess, hu⟩ := pop_spec hpop
      have hstage : u.stage = s.stage := by rw [hu]
      refine ⟨fun h => absurd (hstage.symm.trans h) hstarts, fun h => ?_, fun _ => hmade⟩
      exact (activations_kept hreach rfl (by simp) hprocess (hs.made hstarts)).trans
        (hs.created (hstage.symm.trans h))

theorem begun (hreach : (client p concurrency).Reachable allowed s) :
    (rioring.service p concurrency).Reachable (permits socket View.connected_once) s.service ∧
      s.Begun p := by
  refine Machine.Run.invariant (P := fun s => (rioring.service p concurrency).Reachable
    (permits socket View.connected_once) s.service ∧ s.Begun p) hreach ⟨.refl, .start⟩ ?_
  rintro s e t _ ⟨hpermits, hs⟩ _ hstep
  exact ⟨Machine.Run.trans hpermits (hs.run hstep), hs.step hpermits.any hstep⟩

/-- The receive side of the client does not end. -/
def lasts : Client → ClientEvent → Prop := Program.lasts Client.service ClientEvent.library socket

instance : DecidableRel lasts :=
  inferInstanceAs (DecidableRel (Program.lasts Client.service ClientEvent.library socket))

theorem lasted (hreach : (client p concurrency).Reachable allowed s)
    (hlasts : ∀ s e, allowed s e → s.lasts e) :
    (rioring.service p concurrency).Reachable (permits socket View.one_connection) s.service :=
  serves.lasted (fun _ hs => (begun hs).2) (fun _ _ hcall => hcall) (fun _ _ _ _ hallows _ => hallows)
    hlasts hreach

/-- The library keeps the callbacks of the client in tune. -/
theorem library_tuned {e : ServiceEvent}
    (hreach : (rioring.service p concurrency).Reachable (permits socket View.connected_once) s.service)
    (htuned : Tuned s.service socket s.turn s.taken s.refused (s.stage ≠ .starts))
    (hstep : s.library p concurrency e = some t) :
    Tuned t.service socket t.turn t.taken t.refused (t.stage ≠ .starts) := by
  obtain ⟨hallows, hservice, ht⟩ := library_spec hstep
  rw [ht]
  cases e with
  | process e k =>
    obtain ⟨hcalls, hresume⟩ := obeys_once hallows
    refine htuned.process hreach (permits_once hcalls hresume) hservice ?_ ?_ ?_ ?_ .inl
    · rintro size rfl
      cases hallows
    · rintro slot registered rfl
      cases hallows
    · intro sqe haction
      rcases action_start haction with hactivates | ⟨c, a, heq⟩
      · rw [hcalls] at hactivates
        cases hactivates
      · exact absurd heq (hresume c a sqe)
    · rintro c rfl hturn ⟨htype, hhandler⟩
      have hobeys : s.obeys (.finish c) = true := hallows
      have htype' : (s.world.contexts c).type = .read := htype
      have hhandler' : (s.world.contexts c).handler = some socket := hhandler
      simp only [obeys, htype', hhandler', bne_self_eq_false, Bool.false_or,
        Option.isNone_iff_eq_none] at hobeys
      rw [hobeys] at hturn
      cases hturn
  | stop => cases hallows
  | cancelled k =>
    have hworld : t.service.world = s.service.world := by rw [(cancelled_spec hservice).1]
    have hnever : received_since s.world t.world socket = false := by
      rw [world, world, hworld]
      exact received_since_same _ _
    simp only [hnever]
    exact htuned.of_world hworld

/-- The callbacks of the client are in tune with what it has received. -/
theorem tuned (hreach : (client p concurrency).Reachable allowed s) :
    Tuned s.service socket s.turn s.taken s.refused (s.stage ≠ .starts) := by
  refine Machine.Run.invariant
    (P := fun s => Tuned s.service socket s.turn s.taken s.refused (s.stage ≠ .starts)) hreach ?_ ?_
  · refine ⟨fun _ => ⟨rfl, rfl, fun h => h rfl⟩, fun sock hsock => ?_, fun h => ?_, fun sock hsock => ?_⟩
    · cases hsock
    · cases h
    · cases hsock
  intro s e t hs htuned _ hstep
  obtain ⟨hpermits, hbegun⟩ := begun hs
  change s.step p concurrency e = some t at hstep
  cases e with
  | service e => exact library_tuned hpermits htuned hstep
  | create ring =>
    obtain ⟨hstage, s₁, s₂, h₁, h₂, h₃, ht⟩ := create_spec hstep
    have hreach₁ : (rioring.service p concurrency).Reachable (permits socket View.connected_once) s₁ :=
      .step (e := .process .create_tcp ring) hpermits (permits_once rfl (by simp)) h₁
    have hreach₂ : (rioring.service p concurrency).Reachable (permits socket View.connected_once) s₂ :=
      .step (e := .process (.set_event socket .receive true) ring) hreach₁ (permits_once rfl (by simp)) h₂
    have htuned₁ := htuned.process hpermits (permits_once rfl (by simp)) h₁
      (by simp) (by simp) (fun sqe haction => by cases haction) (by simp) (Or.inl (a := s.stage ≠ .starts))
    rw [htuned.silent hpermits h₁ (by simp)] at htuned₁
    have htuned₂ : Tuned s₂ socket _ _ _ (t.stage ≠ .starts) := htuned₁.call hreach₁ h₂ rfl (by simp)
      (by simp) fun _ => .inr rfl
    rw [ht] at htuned₂ ⊢
    exact htuned₂.call hreach₂ h₃ rfl (by simp) (by simp) .inl
  | connect addresses ring sqe =>
    obtain ⟨hstage, hprocess, connected, ht⟩ := connect_spec hstep
    have hmade : s.stage ≠ .starts := by simp [hstage]
    have hallowed : World.permits socket View.connected_once s.service.world
        (.connect socket addresses sqe) := by
      intro view hview
      obtain ⟨sock, _, rfl⟩ := Option.map_eq_some_iff.mp hview
      cases s.service.world.action socket (.connect socket addresses sqe) with
      | start sqe' => exact hbegun.created hstage
      | _ => trivial
    have htuned' := htuned.process hpermits hallowed hprocess
      (by simp) (by simp) (fun _ _ => hmade) (by simp) (fun _ : t.stage ≠ .starts => .inl hmade)
    rw [htuned.silent hpermits hprocess (by simp)] at htuned'
    rw [ht] at htuned' ⊢
    exact htuned'
  | input input ring =>
    obtain ⟨hstage, _, sock, _, hprocess, ht⟩ := input_spec hstep
    rw [ht]
    exact htuned.call hpermits hprocess rfl (by simp) (by simp) fun _ => .inl (by simp [hstage])
  | send_locked ring sqe =>
    obtain ⟨_, hstage, hprocess, ht⟩ := send_locked_spec hstep
    rw [ht]
    exact htuned.call hpermits hprocess rfl (by simp) (by simp) fun _ => .inl (by simp [hstage])
  | exit ring sqe =>
    obtain ⟨hstage, hprocess, ht⟩ := exit_spec hstep
    rw [ht]
    exact htuned.call hpermits hprocess rfl (by simp) (by simp) fun _ => .inl (by simp [hstage])
  | stop =>
    obtain ⟨hstage, hservice, ht⟩ := stop_spec hstep
    have hworld : t.service.world = s.service.world := by rw [(Service.stop_spec hservice).2]; rfl
    rw [ht]
    exact (htuned.of_world hworld).mono fun _ => by simp [hstage]
  | pass ring =>
    obtain ⟨array, sock, result, hturn, hsock, hpass, hcase⟩ := pass_step_spec hstep
    have harray : array.length = 1024 := ((htuned.heard sock hsock).reads array hturn).1
    have hvalid : sock.recv_buffer.Valid := (received_whole (permitted hpermits) hsock).1.valid
    have hmessage := pass_spec hvalid (by rw [harray]; decide) hpass
    rw [hturn] at htuned
    have htake : ∀ {frame ys : List UInt8}, scheme.next sock.recv_buffer.contents = some (frame, ys) →
        sock.recv_buffer.contents.take frame.length = frame := by
      intro frame ys hnext
      obtain ⟨hsame, _⟩ := Framing.next_spec hnext
      rw [hsame, List.take_left]
    rcases hmessage with ⟨hnone, rfl⟩ | ⟨frame, ys, hnext, ⟨_, rfl⟩ | ⟨_, hlanded, output, rfl⟩⟩
    · obtain rfl : t = { s with turn := none } := by simpa using hcase
      exact htuned.leave hpermits hsock hnone
    · obtain ⟨u, hpop, rfl⟩ : ∃ u, s.pop p concurrency sock.recv_buffer frame.length ring = some u ∧
          t = { u with turn := none, refused := true } := by simpa using hcase
      obtain ⟨hprocess, hu⟩ := pop_spec hpop
      have hpopped := htuned.pop hpermits hsock hnext hprocess harray
      rw [hu, htake hnext]
      exact hpopped.refuse
    · obtain ⟨u, hpop, rfl⟩ : ∃ u, s.pop p concurrency sock.recv_buffer frame.length ring = some u ∧
          t = { u with
            turn := some (landed array sock.recv_buffer.contents frame), shown := s.shown ++ output } := by
        simpa using hcase
      obtain ⟨hprocess, hu⟩ := pop_spec hpop
      have hpopped := htuned.pop hpermits hsock hnext hprocess (hlanded.trans harray)
      rw [hu, htake hnext]
      exact hpopped

/-- The calls of `send` between guard and lock. -/
def pending : Stage → List (ObjectId × Bytes)
  | .sends input => [(socket, request input)]
  | _ => []

/-- What the socket has accepted is what has been sent. -/
structure Sends (s : Client) : Prop where
  sends : s.world.sends = pending s.stage
  accepted : (s.world.history socket).accepted = (s.sent.map input_message).flatten

/-- What is not a `send` changes neither. -/
theorem process_quiet {u v : Service} {e : Event} {k : Nat}
    (hreach : (rioring.service p concurrency).Reachable Machine.Any u)
    (hprocess : u.process p concurrency e k = some v) (hsend : ∀ i bytes, e ≠ .send i bytes)
    (hlocked : ∀ index sqe, e ≠ .send_locked index sqe)
    (hmade : ∃ sock, u.world.sockets socket = some sock ∧ sock.socket_type = .tcp) :
    v.world.sends = u.world.sends ∧
      (v.world.history socket).accepted = (u.world.history socket).accepted := by
  obtain ⟨sock, hsock, _⟩ := hmade
  have hwf := Wf.reachable (Sound.reachable hreach).reached
  obtain ⟨_, hstep, _, _⟩ := process_spec hprocess
  obtain ⟨_, _, haccepted, _⟩ := hwf.keeps hstep hsock
  rw [action_accepts hlocked, List.append_nil] at haccepted
  exact ⟨(hwf.step_threads hstep).sends_kept hsend hlocked, haccepted⟩

theorem Sends.quiet {e : Event} {ring : Nat} (hsends : s.Sends)
    (hreach : (rioring.service p concurrency).Reachable Machine.Any s.service)
    (hprocess : s.service.process p concurrency e ring = some t.service)
    (hsend : ∀ i bytes, e ≠ .send i bytes) (hlocked : ∀ index sqe, e ≠ .send_locked index sqe)
    (hmade : ∃ sock, s.world.sockets socket = some sock ∧ sock.socket_type = .tcp)
    (hsent : t.sent = s.sent) (hstage : pending t.stage = pending s.stage) : t.Sends := by
  obtain ⟨hkept, haccepted⟩ := process_quiet hreach hprocess hsend hlocked hmade
  refine ⟨?_, ?_⟩
  · rw [hstage]
    exact hkept.trans hsends.sends
  · rw [hsent]
    exact haccepted.trans hsends.accepted

theorem Sends.of_world (hsends : s.Sends) (hworld : t.world = s.world) (hsent : t.sent = s.sent)
    (hstage : pending t.stage = pending s.stage) : t.Sends :=
  ⟨by rw [hworld, hstage, hsends.sends], by rw [hworld, hsent, hsends.accepted]⟩

/-- The client sends the messages of its input, one after the other. -/
theorem sends (hreach : (client p concurrency).Reachable allowed s) : s.Sends := by
  refine Machine.Run.invariant (P := Sends) hreach ⟨rfl, rfl⟩ ?_
  intro s e t hs hsends _ hstep
  obtain ⟨hpermits, hbegun⟩ := begun hs
  have hreach := hpermits.any
  change s.step p concurrency e = some t at hstep
  cases e with
  | service e =>
    obtain ⟨hallows, hservice, ht⟩ := library_spec hstep
    have hsent : t.sent = s.sent := by rw [ht]
    have hstage : t.stage = s.stage := by rw [ht]
    cases e with
    | process e k =>
      have hmade : s.stage ≠ .starts := by
        intro hstarts
        have hworld := (process_spec hservice).2.1
        rw [hbegun.starts hstarts] at hworld
        change (World.start p).step p e = _ at hworld
        rw [starts_still (s := s) hallows] at hworld
        cases hworld
      refine hsends.quiet hreach hservice ?_ ?_ (hbegun.made hmade) hsent (congrArg pending hstage)
      · rintro i bytes rfl
        cases hallows
      · rintro index sqe rfl
        cases hallows
    | stop => cases hallows
    | cancelled k =>
      refine hsends.of_world ?_ hsent (congrArg pending hstage)
      rw [world, (cancelled_spec hservice).1]
      rfl
  | create ring =>
    obtain ⟨hstage, s₁, s₂, h₁, h₂, h₃, ht⟩ := create_spec hstep
    have hfirst : (World.start p).step p .create_tcp = some s₁.world := by
      rw [← hbegun.starts hstage]
      exact (process_spec h₁).2.1
    have hworld : (World.start p).create_socket .tcp = s₁.world := Option.some.inj hfirst
    have hmade₁ : ∃ sock, s₁.world.sockets socket = some sock ∧ sock.socket_type = .tcp := by
      rw [← hworld]
      exact ⟨_, set_socket_self (World.start p) socket _, rfl⟩
    have hreach₁ := Machine.Run.trans hreach (process_run h₁)
    have hreach₂ := Machine.Run.trans hreach₁ (process_run h₂)
    obtain ⟨hsends₂, haccepted₂⟩ := process_quiet hreach₁ h₂ (by simp) (by simp) hmade₁
    obtain ⟨hsends₃, haccepted₃⟩ := process_quiet hreach₂ h₃ (by simp) (by simp)
      (made_run hreach₁ (process_run h₂) hmade₁)
    have hstart : s.world.sends = s₁.world.sends ∧
        (s.world.history socket).accepted = (s₁.world.history socket).accepted := by
      rw [world, hbegun.starts hstage, ← hworld]
      exact ⟨rfl, rfl⟩
    have hsent : t.sent = s.sent := by rw [ht]
    refine ⟨?_, ?_⟩
    · refine (hsends₃.trans hsends₂).trans ?_
      rw [← hstart.1, hsends.sends, ht, hstage]
      rfl
    · refine (haccepted₃.trans haccepted₂).trans ?_
      rw [← hstart.2, hsends.accepted, hsent]
  | connect addresses ring sqe =>
    obtain ⟨hstage, hprocess, connected, ht⟩ := connect_spec hstep
    refine hsends.quiet hreach hprocess (by simp) (by simp) (hbegun.made (by simp [hstage])) ?_ ?_
    · rw [ht]
    · rw [ht, hstage]
      cases connected <;> rfl
  | input input ring =>
    obtain ⟨hstage, _, sock, hsock, hprocess, ht⟩ := input_spec hstep
    obtain ⟨_, hworld⟩ := send_step (process_spec hprocess).2.1
    have hnone : s.service.world.sends = [] := by
      have hsame := hsends.sends
      rw [hstage] at hsame
      exact hsame
    have hpassed : s.service.world.live socket =
        (TcpSocket.send s.world socket sock (request input)).1 := by
      have hlive : s.service.world.live socket = (sock.connected_flag && !sock.shutdown_gracefully) :=
        live_eq hsock
      rw [hlive, TcpSocket.send]
      cases sock.shutdown_gracefully <;> cases sock.connected_flag <;> rfl
    have hstage' : t.stage = if s.service.world.live socket then .sends input else .reads := by
      rw [ht, hpassed]
    have hsent : t.sent = s.sent := by rw [ht]
    refine ⟨?_, ?_⟩
    · rw [hstage', world, hworld]
      split
      · change s.service.world.sends ++ _ = _
        rw [hnone]
        rfl
      · exact hnone
    · rw [hsent, ← hsends.accepted, world, hworld]
      split <;> rfl
  | send_locked ring sqe =>
    obtain ⟨input, hstage, hprocess, ht⟩ := send_locked_spec hstep
    obtain ⟨sock, hsock, _⟩ := hbegun.made (by simp [hstage])
    have hwf := Wf.reachable (Sound.reachable hreach).reached
    obtain ⟨_, hworld, _, _⟩ := process_spec hprocess
    have hfirst : s.service.world.sends = [(socket, request input)] := by
      have hsame := hsends.sends
      rw [hstage] at hsame
      exact hsame
    have haction : s.service.world.action socket (.send_locked 0 sqe) = .send (request input) sqe := by
      rw [World.action, hfirst]
      rfl
    obtain ⟨_, _, haccepted, _⟩ := hwf.keeps hworld hsock
    rw [haction] at haccepted
    have hsent : t.sent = s.sent ++ [input] := by rw [ht]
    have hstage' : t.stage = .reads := by rw [ht]
    refine ⟨?_, ?_⟩
    · rw [hstage', world, (send_locked_threads hworld).2, hfirst]
      rfl
    · refine haccepted.trans ?_
      have hbefore : (s.service.world.view_with socket sock).outbound.accepted = _ := hsends.accepted
      rw [hbefore, hsent, List.map_append, List.flatten_append, List.map_singleton, List.flatten_singleton]
      rfl
  | exit ring sqe =>
    obtain ⟨hstage, hprocess, ht⟩ := exit_spec hstep
    refine hsends.quiet hreach hprocess (by simp) (by simp) (hbegun.made (by simp [hstage])) ?_ ?_
    · rw [ht]
    · rw [ht, hstage]
      rfl
  | stop =>
    obtain ⟨hstage, hservice, ht⟩ := stop_spec hstep
    refine hsends.of_world ?_ ?_ ?_
    · rw [world, (Service.stop_spec hservice).2]
      rfl
    · rw [ht]
    · rw [ht, hstage]
      rfl
  | pass ring =>
    obtain ⟨array, sock, result, _, hsock, _, hcase⟩ := pass_step_spec hstep
    have hmade : s.stage ≠ .starts := by
      intro hstage
      rw [world, hbegun.starts hstage] at hsock
      cases hsock
    rcases hcase with ⟨_, rfl⟩ | ⟨size, u, _, hpop, rfl⟩ | ⟨array, size, output, u, _, hpop, rfl⟩
    · exact ⟨hsends.sends, hsends.accepted⟩
    · obtain ⟨hprocess, hu⟩ := pop_spec hpop
      refine hsends.quiet hreach hprocess (by simp) (by simp) (hbegun.made hmade) ?_ ?_
      all_goals rw [hu]
    · obtain ⟨hprocess, hu⟩ := pop_spec hpop
      refine hsends.quiet hreach hprocess (by simp) (by simp) (hbegun.made hmade) ?_ ?_
      all_goals rw [hu]

end Client

end Chat

end rioring
