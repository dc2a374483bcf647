import Rioring.Service.Stopping
import Rioring.Tcp.Activation

/-! The receive handlers of one socket on the threads of a service. No lock guards
`recv_buffer`: the next receive is submitted to the ring of the thread that handles
the one before, and that thread takes it up after its handler has returned. -/

namespace rioring

open World

namespace Inbound

variable {p : Platform} {n n' : Inbound} {a : Action}

/-- A move that neither activates the socket nor takes up a receive is a pop, or
    leaves the receiving side as it is. -/
theorem Move.quiet (hmove : Move p n a n') (hstart : ∀ sqe, a ≠ .start sqe)
    (hreceived : ∀ r data sqe, a ≠ .received r data sqe) (hended : ∀ r res, a ≠ .receive_ended r res) :
    n' = n ∨ (∃ size, a = .pop size) ∧ n'.reads = n.reads := by
  cases hmove with
  | same => exact .inl rfl
  | start => exact absurd rfl (hstart _)
  | received => exact absurd rfl (hreceived _ _ _)
  | receive_ended => exact absurd rfl (hended _ _)
  | pop size => exact .inr ⟨⟨size, rfl⟩, rfl⟩

end Inbound

namespace World

variable {w w' : World} {i : ObjectId} {c : ContextId}

/-- The context is that of a receive of socket `i`. -/
def Reads (w : World) (i : ObjectId) (c : ContextId) : Prop :=
  (w.contexts c).type = .read ∧ (w.contexts c).handler = some i

theorem mem_reads {r : Request} : r ∈ w.reads i ↔
    r ∈ w.inflight ∧ r.context.handler = some i ∧ r.context.type = .read := by
  simp only [World.reads, Request.is_read, List.mem_filter, decide_eq_true_eq, beq_iff_eq, and_assoc]

/-- A receive is taken up by its completion. -/
theorem action_receives {e : Event} (haction : (∃ r data sqe, w.action i e = .received r data sqe) ∨
    ∃ r res, w.action i e = .receive_ended r res) :
    ∃ c cqe sqe, e = .complete c cqe sqe ∧ ∃ r ∈ w.reads i, r.user_data = c := by
  cases e with
  | complete c cqe sqe =>
    refine ⟨c, cqe, sqe, rfl, ?_⟩
    cases hfind : w.inflight.find? (·.user_data = c) with
    | none =>
      simp only [action, hfind] at haction
      rcases haction with ⟨_, _, _, h⟩ | ⟨_, _, h⟩ <;> cases h
    | some r =>
      have huser : r.user_data = c := by simpa using List.find?_some hfind
      by_cases hi : r.context.handler = some i
      · cases htype : r.context.type with
        | read => exact ⟨r, mem_reads.mpr ⟨List.mem_of_find?_eq_some hfind, hi, htype⟩, huser⟩
        | write =>
          simp only [action, hfind, hi, htype, ↓reduceIte] at haction
          by_cases hres : 0 < cqe.res
          · simp only [hres, ↓reduceIte] at haction
            rcases haction with ⟨_, _, _, h⟩ | ⟨_, _, h⟩ <;> cases h
          · simp only [hres, ↓reduceIte] at haction
            rcases haction with ⟨_, _, _, h⟩ | ⟨_, _, h⟩ <;> cases h
        | accept | shutdown | unknown =>
          simp only [action, hfind, hi, htype, ↓reduceIte] at haction
          rcases haction with ⟨_, _, _, h⟩ | ⟨_, _, h⟩ <;> cases h
      · simp only [action, hfind, hi, ↓reduceIte] at haction
        rcases haction with ⟨_, _, _, h⟩ | ⟨_, _, h⟩ <;> cases h
  | _ =>
    simp only [action] at haction
    repeat' split at haction
    all_goals rcases haction with ⟨_, _, _, h⟩ | ⟨_, _, h⟩ <;> cases h

theorem action_pop {e : Event} {size : Nat} (haction : w.action i e = .pop size) : e = .pop i size := by
  cases e with
  | pop j size' =>
    simp only [action] at haction
    split at haction
    · rename_i hj
      cases haction
      rw [hj]
    · cases haction
  | _ =>
    simp only [action] at haction
    repeat' split at haction
    all_goals cases haction

/-- The handler of a context that is still handled has not returned. -/
theorem Wf.not_finished {p : Platform} (hwf : w.Wf) {e : Event}
    (hstep : (machine p).step w e = some w') (hc : c ∈ w'.custody.used) : e ≠ .finish c := by
  rintro rfl
  have hpool : c ∈ w'.custody.pool := by
    change w.finish c = some w' at hstep
    unfold World.finish at hstep
    dsimp only at hstep
    split at hstep
    · cases hstep
      exact List.mem_append_right _ (List.mem_singleton_self c)
    · cases hstep
  have hwf' : w'.Wf := Wf.step (p := p) (e := .finish c) hwf hstep
  exact (hwf'.sound.disjoint hc).1 hpool

/-- A context that is handled after a step was handled before it, for the same, or
    its request has completed. -/
theorem Wf.reads_before {p : Platform} (hwf : w.Wf) (haddressed : w.Addressed) {e : Event}
    (hstep : (machine p).step w e = some w') (hc : c ∈ w'.custody.used) (hreads : w'.Reads i c) :
    (c ∈ w.custody.used ∧ w.Reads i c) ∨
      ∃ cqe sqe, e = .complete c cqe sqe ∧ ∃ r ∈ w.reads i, r.user_data = c := by
  by_cases hcomplete : ∃ cqe sqe, e = .complete c cqe sqe
  · obtain ⟨cqe, sqe, rfl⟩ := hcomplete
    right
    obtain ⟨_, r, hfind, _⟩ := hwf.complete_passes haddressed hstep
    have huser : r.user_data = c := by simpa using List.find?_some hfind
    have hr : r ∈ w.inflight := List.mem_of_find?_eq_some hfind
    subst huser
    obtain ⟨_, hcontext⟩ := hwf.complete_handled haddressed hr hstep
    obtain ⟨_, hdispatched⟩ := hwf.dispatched hr cqe
    obtain ⟨htype, hhandler⟩ := hreads
    rw [hcontext] at htype hhandler
    exact ⟨cqe, sqe, rfl, r, mem_reads.mpr ⟨hr, hdispatched.handler.symm.trans hhandler,
      hdispatched.type.symm.trans htype⟩, rfl⟩
  · left
    have hbefore := hwf.step_used haddressed (fun cqe sqe heq => hcomplete ⟨cqe, sqe, heq⟩) hstep hc
    obtain ⟨_, hcontext⟩ := hwf.step_handled haddressed hbefore (hwf.not_finished hstep hc) hstep
    rw [Reads, hcontext] at hreads
    exact ⟨hbefore, hreads⟩

/-- A receive is handled until its handler returns. -/
theorem Wf.reads_kept {p : Platform} (hwf : w.Wf) (haddressed : w.Addressed) {e : Event}
    (hc : c ∈ w.custody.used) (hreads : w.Reads i c) (hfinish : e ≠ .finish c)
    (hstep : (machine p).step w e = some w') : c ∈ w'.custody.used ∧ w'.Reads i c := by
  obtain ⟨hused, hcontext⟩ := hwf.step_handled haddressed hc hfinish hstep
  rw [Reads, hcontext]
  exact ⟨hused, hreads⟩

/-- A receive that brings bytes in is handled from then on. -/
theorem Wf.reads_taken {p : Platform} (hwf : w.Wf) (haddressed : w.Addressed) {e : Event} {r : Request}
    {data : List UInt8} {sqe : Bool} (haction : w.action i e = .received r data sqe)
    (hstep : (machine p).step w e = some w') : ∃ c ∈ w'.custody.used, w'.Reads i c := by
  obtain ⟨c, cqe, sqe', rfl, r', hr', rfl⟩ := action_receives (.inl ⟨r, data, sqe, haction⟩)
  obtain ⟨hinflight, hhandler, htype⟩ := mem_reads.mp hr'
  obtain ⟨hused, hcontext⟩ := hwf.complete_handled haddressed hinflight hstep
  obtain ⟨_, hdispatched⟩ := hwf.dispatched hinflight cqe
  refine ⟨_, hused, ?_, ?_⟩
  · rw [hcontext]
    exact hdispatched.type.trans htype
  · rw [hcontext]
    exact hdispatched.handler.trans hhandler

end World

namespace Service

variable {p : Platform} {concurrency : Nat} {s t : Service} {i : ObjectId} {c : ContextId}

/-- A condition on what happens to the socket `i`, as one on the steps of the
    service. -/
def permits (i : ObjectId) (ok : View → Action → Prop) (s : Service) : ServiceEvent → Prop
  | .process e _ => World.permits i ok s.world e
  | _ => True

instance (i : ObjectId) (ok : View → Action → Prop) [DecidableRel ok] :
    DecidableRel (permits i ok) := fun s e =>
  match e with
  | .process e _ => inferInstanceAs (Decidable (World.permits i ok s.world e))
  | .stop | .cancelled _ => .isTrue trivial

/-- A run of the service is one of its process. -/
theorem permitted {ok : View → Action → Prop}
    (hreach : (service p concurrency).Reachable (permits i ok) s) :
    (machine p).Reachable (World.permits i ok) s.world := by
  refine Machine.Run.invariant (P := fun s => (machine p).Reachable (World.permits i ok) s.world)
    hreach .refl ?_
  intro s e t _ hs hallowed hstep
  cases e with
  | process e k => exact .step hs hallowed (process_spec hstep).2.1
  | stop =>
    rw [(stop_spec hstep).2]
    exact hs
  | cancelled k =>
    rw [(cancelled_spec hstep).1]
    exact hs

/-- The receives of socket `i` that are being handled or in flight: one is handled
    at a time, and what is in flight is on the ring of its thread. -/
structure Serial (s : Service) (i : ObjectId) : Prop where
  single : ∀ c ∈ s.world.custody.used, ∀ c' ∈ s.world.custody.used, s.world.Reads i c →
    s.world.Reads i c' → c = c'
  ring : ∀ c ∈ s.world.custody.used, s.world.Reads i c → ∀ r ∈ s.world.reads i,
    s.ring r.user_data = s.ring c
  active : ∀ c ∈ s.world.custody.used, s.world.Reads i c → ∃ sock,
    s.world.sockets i = some sock ∧ (s.world.history i).activations ≠ 0

theorem Serial.start : Serial { world := World.start p } i := by
  refine ⟨?_, ?_, ?_⟩
  all_goals
    intro c hc
    cases hc

/-- While a receive is being handled no other one of the socket is taken up. -/
theorem Serial.not_taken (hserial : s.Serial i) (hc : c ∈ s.world.custody.used)
    (hreads : s.world.Reads i c) {r : Request} (hr : r ∈ s.world.reads i) {cqe : Cqe} {sqe : Bool}
    {k : Nat} : s.process p concurrency (.complete r.user_data cqe sqe) k = none := by
  have hbusy : s.busy (s.ring r.user_data) = true := by
    rw [busy, List.any_eq_true]
    exact ⟨c, hc, by rw [hserial.ring c hc hreads r hr, beq_self_eq_true]⟩
  rw [process, if_neg]
  simp only [takes, Bool.and_eq_true, beq_iff_eq, Bool.not_eq_true', not_and]
  rintro ⟨rfl, _⟩
  rw [hbusy]
  decide

/-- A context in flight keeps its ring. -/
theorem out_kept {e : Event} {k : Nat} (hprocess : s.process p concurrency e k = some t)
    (hc : c ∈ s.world.custody.out) : t.ring c = s.ring c := by
  rw [(process_spec hprocess).2.2.1]
  exact if_neg (by simp [submitted_contexts, hc])

/-- While a receive of the socket is being handled, its receiving side stays as it is
    but for the pops. -/
theorem Serial.held (hs : s.Sound p concurrency) (hserial : s.Serial i)
    (hc : c ∈ s.world.custody.used) (hreads : s.world.Reads i c) {e : Event} {k : Nat}
    (hallowed : World.permits i View.connected_once s.world e)
    (hprocess : s.process p concurrency e k = some t) : ∃ sock sock',
      s.world.sockets i = some sock ∧ t.world.sockets i = some sock' ∧
        ((t.world.view_with i sock').inbound = (s.world.view_with i sock).inbound ∨
          (∃ size, e = .pop i size) ∧ t.world.reads i = s.world.reads i) := by
  obtain ⟨sock, hsock, hactive⟩ := hserial.active c hc hreads
  obtain ⟨_, hstep, _, _⟩ := process_spec hprocess
  obtain ⟨v', hv', hmove⟩ := (((Wf.reachable hs.reached).step_does hstep).moves i).move _ (view_eq hsock)
  obtain ⟨sock', hsock', rfl⟩ := Option.map_eq_some_iff.mp hv'
  refine ⟨sock, sock', hsock, hsock', ?_⟩
  have hpermitted := hallowed _ (view_eq hsock)
  have hnone : ∀ r ∈ s.world.reads i, ∀ cqe sqe, e ≠ .complete r.user_data cqe sqe := by
    rintro r hr cqe sqe rfl
    rw [hserial.not_taken hc hreads hr] at hprocess
    cases hprocess
  have hstart : ∀ sqe, s.world.action i e ≠ .start sqe := by
    intro sqe haction
    rw [haction] at hpermitted
    exact hactive hpermitted
  have hreceived : ∀ r data sqe, s.world.action i e ≠ .received r data sqe := by
    intro r data sqe haction
    obtain ⟨c', cqe, sqe', heq, r', hr', rfl⟩ := action_receives (.inl ⟨r, data, sqe, haction⟩)
    exact hnone r' hr' cqe sqe' heq
  have hended : ∀ r res, s.world.action i e ≠ .receive_ended r res := by
    intro r res haction
    obtain ⟨c', cqe, sqe', heq, r', hr', rfl⟩ := action_receives (.inr ⟨r, res, haction⟩)
    exact hnone r' hr' cqe sqe' heq
  exact (hmove.inbound.quiet hstart hreceived hended).imp_right fun ⟨⟨size, haction⟩, hsame⟩ =>
    ⟨⟨size, action_pop haction⟩, hsame⟩

/-- A callback that has not returned holds the receiving side as it is. -/
theorem Serial.same_inbound (hs : s.Sound p concurrency) (hserial : s.Serial i)
    (hc : c ∈ s.world.custody.used) (hreads : s.world.Reads i c) {e : Event} {k : Nat}
    (hallowed : World.permits i View.connected_once s.world e)
    (hprocess : s.process p concurrency e k = some t) (hpop : ∀ size, e ≠ .pop i size)
    {sock sock' : SocketObject} (hsock : s.world.sockets i = some sock)
    (hsock' : t.world.sockets i = some sock') :
    (t.world.view_with i sock').inbound = (s.world.view_with i sock).inbound := by
  obtain ⟨sock₀, sock₁, hsock₀, hsock₁, hsame⟩ := hserial.held hs hc hreads hallowed hprocess
  rw [hsock] at hsock₀
  rw [hsock'] at hsock₁
  cases hsock₀
  cases hsock₁
  refine hsame.resolve_right ?_
  rintro ⟨⟨size, heq⟩, _⟩
  exact hpop size heq

/-- A socket with a receive in flight has been activated. -/
theorem active_of_reads (hreach : (machine p).Reachable (World.permits i View.connected_once) s.world)
    {r : Request} (hr : r ∈ s.world.reads i) : ∃ sock, s.world.sockets i = some sock ∧
      (s.world.history i).activations ≠ 0 := by
  obtain ⟨hinflight, hhandler, htype⟩ := mem_reads.mp hr
  obtain ⟨j, hj, hfilled, _⟩ := (Wf.reachable hreach).typed r hinflight
  rw [hhandler] at hj
  cases hj
  rw [World.Filled, htype] at hfilled
  obtain ⟨sock, hsock⟩ := Option.isSome_iff_exists.mp hfilled.1
  obtain ⟨hsound, _⟩ := received_whole hreach hsock
  refine ⟨sock, hsock, fun hinactive => ?_⟩
  have hnone : s.world.reads i = [] := (hsound.inactive hinactive).1
  rw [hnone] at hr
  cases hr

theorem Serial.step (hs : s.Sound p concurrency)
    (hreach : (machine p).Reachable (World.permits i View.connected_once) s.world)
    (hserial : s.Serial i) {e : Event} {k : Nat}
    (hallowed : World.permits i View.connected_once s.world e)
    (hprocess : s.process p concurrency e k = some t) : t.Serial i := by
  obtain ⟨htakes, hstep, _, _⟩ := process_spec hprocess
  have hwf := Wf.reachable hs.reached
  have haddressed := reachable_addressed hs.reached
  have hwf' : t.world.Wf := Wf.step (p := p) (e := e) hwf hstep
  have hbefore : ∀ c ∈ t.world.custody.used, t.world.Reads i c →
      (c ∈ s.world.custody.used ∧ s.world.Reads i c) ∨
        ∃ cqe sqe, e = .complete c cqe sqe ∧ ∃ r ∈ s.world.reads i, r.user_data = c :=
    fun c hc hreads => hwf.reads_before haddressed hstep hc hreads
  refine ⟨fun c hc c' hc' hreads hreads' => ?_, fun c hc hreads r hr => ?_, fun c hc hreads => ?_⟩
  · rcases hbefore c hc hreads with ⟨hused, hreading⟩ | ⟨cqe, sqe, rfl, r, hr, rfl⟩
    · rcases hbefore c' hc' hreads' with ⟨hused', hreading'⟩ | ⟨cqe, sqe, rfl, r, hr, rfl⟩
      · exact hserial.single c hused c' hused' hreading hreading'
      · rw [hserial.not_taken hused hreading hr] at hprocess
        cases hprocess
    · rcases hbefore c' hc' hreads' with ⟨hused', hreading'⟩ | ⟨_, _, heq, _⟩
      · rw [hserial.not_taken hused' hreading' hr] at hprocess
        cases hprocess
      · cases heq
        rfl
  · obtain ⟨hkept, _⟩ := hs.used_ring hprocess hc
    rw [hkept]
    obtain ⟨hinflight, hhandler, htype⟩ := mem_reads.mp hr
    by_cases hout : r.user_data ∈ s.world.custody.out
    · -- a receive that was in flight before
      obtain ⟨r₀, hr₀, huser, hcontext⟩ := hwf.step_kept haddressed hstep hinflight hout
      have hread₀ : r₀ ∈ s.world.reads i := mem_reads.mpr ⟨hr₀, hcontext ▸ hhandler, hcontext ▸ htype⟩
      rw [out_kept hprocess hout, ← huser]
      rcases hbefore c hc hreads with ⟨hused, hreading⟩ | ⟨cqe, sqe, rfl, r₁, hr₁, rfl⟩
      · exact hserial.ring c hused hreading r₀ hread₀
      · obtain ⟨sock, hsock, _⟩ := active_of_reads hreach hr₁
        have hsingle : (s.world.reads i).length ≤ 1 := (received_whole hreach hsock).2.single
        obtain ⟨only, honly⟩ :=
          List.length_eq_one_iff.mp (le_antisymm hsingle (List.length_pos_of_mem hr₁))
        rw [honly] at hread₀ hr₁
        rw [List.mem_singleton.mp hread₀, List.mem_singleton.mp hr₁]
    · -- one that the step has submitted
      have hring : t.ring r.user_data = k :=
        (out_ring hprocess (List.mem_map_of_mem hinflight)).elim (fun h => absurd h.1 hout) (·.1)
      rw [hring]
      rcases hbefore c hc hreads with ⟨hused, hreading⟩ | ⟨cqe, sqe, rfl, _⟩
      · obtain ⟨_, _, _, _, hheld⟩ := hserial.held hs hused hreading hallowed hprocess
        have hsame : t.world.reads i = s.world.reads i :=
          hheld.elim (fun hsame => congrArg Inbound.reads hsame) And.right
        rw [hsame] at hr
        exact absurd (List.mem_map_of_mem (mem_reads.mp hr).1) hout
      · simp only [takes, Bool.and_eq_true, beq_iff_eq] at htakes
        exact htakes.1.1.symm
  · obtain ⟨sock, hsock, hactive⟩ : ∃ sock, s.world.sockets i = some sock ∧
        (s.world.history i).activations ≠ 0 := by
      rcases hbefore c hc hreads with ⟨hused, hreading⟩ | ⟨_, _, _, r, hr, _⟩
      · exact hserial.active c hused hreading
      · exact active_of_reads hreach hr
    obtain ⟨v', hv', hmove⟩ := ((hwf.step_does hstep).moves i).move _ (view_eq hsock)
    obtain ⟨sock', hsock', rfl⟩ := Option.map_eq_some_iff.mp hv'
    refine ⟨sock', hsock', fun hzero => ?_⟩
    have hadded := hmove.inbound.activations
    change (t.world.history i).activations = (s.world.history i).activations ∨
      _ ∧ (t.world.history i).activations = (s.world.history i).activations + 1 at hadded
    omega

theorem Serial.reachable
    (hreach : (service p concurrency).Reachable (permits i View.connected_once) s) : s.Serial i := by
  refine Machine.Run.invariant (P := fun s => s.Serial i) hreach .start ?_
  intro s e t hs hserial hallowed hstep
  cases e with
  | process e k =>
    exact hserial.step (.reachable hs) (permitted hs) hallowed hstep
  | stop =>
    rw [(stop_spec hstep).2]
    exact ⟨hserial.single, hserial.ring, hserial.active⟩
  | cancelled k =>
    rw [(cancelled_spec hstep).1]
    exact ⟨hserial.single, hserial.ring, hserial.active⟩

/-- No socket is made active by a call. -/
def accepts_only (_ : Service) : ServiceEvent → Prop
  | .process e _ => ∀ i, e.activates i = false
  | _ => True

/-- Then every socket is activated at most once. -/
theorem accepts_only_permits (hreach : (service p concurrency).Reachable accepts_only s)
    (i : ObjectId) : (service p concurrency).Reachable (permits i View.connected_once) s ∧
      (machine p).Reachable (fun _ e => e.activates i = false) s.world := by
  refine Machine.Run.invariant (P := fun s =>
    (service p concurrency).Reachable (permits i View.connected_once) s ∧
      (machine p).Reachable (fun _ e => e.activates i = false) s.world) hreach ⟨.refl, .refl⟩ ?_
  rintro s e t _ ⟨hpermits, hcalls⟩ hallowed hstep
  cases e with
  | process e k =>
    have hworld := (process_spec hstep).2.1
    have hpermitted : permits i View.connected_once s (.process e k) :=
      permits_accepted hcalls (hallowed i) hworld
    exact ⟨.step hpermits hpermitted hstep, .step hcalls (hallowed i) hworld⟩
  | stop =>
    refine ⟨.step hpermits (by trivial) hstep, ?_⟩
    rw [(stop_spec hstep).2]
    exact hcalls
  | cancelled k =>
    refine ⟨.step hpermits (by trivial) hstep, ?_⟩
    rw [(cancelled_spec hstep).1]
    exact hcalls

end Service

open Service

variable {p : Platform} {concurrency : Nat} {s : Service} {i : ObjectId} {c : ContextId}

/-- While a receive of a socket is being handled, its callback included, no other one
    is, none is taken up, and only its own pops change the buffer. -/
theorem receives_serial
    (hreach : (service p concurrency).Reachable (permits i View.connected_once) s)
    (hc : c ∈ s.world.custody.used) (hreads : s.world.Reads i c) :
    (∀ c' ∈ s.world.custody.used, s.world.Reads i c' → c' = c) ∧
      (∀ r ∈ s.world.reads i, ∀ cqe sqe k,
        s.process p concurrency (.complete r.user_data cqe sqe) k = none) ∧
      ∀ e k t, World.permits i View.connected_once s.world e →
        s.process p concurrency e k = some t → (∀ size, e ≠ .pop i size) →
        ∃ sock sock', s.world.sockets i = some sock ∧ t.world.sockets i = some sock' ∧
          sock'.recv_buffer = sock.recv_buffer := by
  have hserial := Serial.reachable hreach
  refine ⟨fun c' hc' hreads' => hserial.single c' hc' c hc hreads' hreads,
    fun r hr cqe sqe k => hserial.not_taken hc hreads hr, ?_⟩
  intro e k t hallowed hprocess hpop
  obtain ⟨sock, sock', hsock, hsock', hheld⟩ :=
    hserial.held (.reachable hreach) hc hreads hallowed hprocess
  refine ⟨sock, sock', hsock, hsock', congrArg Inbound.recv_buffer (hheld.resolve_right ?_)⟩
  rintro ⟨⟨size, rfl⟩, _⟩
  exact hpop size rfl

/-- A byte has come in on ring 0, and its callback has not returned. -/
def byte_arrived : List ServiceEvent := [
  .process .create_tcp 0,
  .process (.connect 1 [⟨7, true⟩] true) 0,
  .process (.complete 0 { res := 1, data := [9] } true) 0]

theorem receives_serial_byte_arrived : ∃ s,
    (service .small 2).Reachable (permits 1 View.connected_once) s ∧ s.world.Reads 1 0 ∧
      s.world.reads 1 ≠ [] ∧ ∀ r ∈ s.world.reads 1, ∀ cqe sqe k,
        s.process .small 2 (.complete r.user_data cqe sqe) k = none := by
  obtain ⟨s, hreach, hs⟩ := Machine.reachable_of_exec (service .small 2)
    (permits 1 View.connected_once) byte_arrived
    (fun s => s.world.custody.used.contains 0 && (s.world.reads 1 != []) &&
      (s.world.contexts 0).type == .read && (s.world.contexts 0).handler == some 1)
    (by decide +kernel)
  simp only [Bool.and_eq_true, List.contains_iff_mem, bne_iff_ne, beq_iff_eq] at hs
  obtain ⟨⟨⟨hc, hflight⟩, htype⟩, hhandler⟩ := hs
  exact ⟨s, hreach, ⟨htype, hhandler⟩, hflight, (receives_serial hreach hc ⟨htype, hhandler⟩).2.1⟩

end rioring
