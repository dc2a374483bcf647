import Rioring.Receiver.Kept

/-! The receiving side of one socket of a receiver, and that every step is a move of
it. -/

namespace rioring

namespace View

variable {p : Platform} {v v' : View} {a : Action}

/-- Only a read that brings bytes changes `recv_bind_buffer`. -/
theorem Move.recv_bind_buffer (hmove : v.Move p a v')
    (hreceived : ∀ r data sqe, a ≠ .received r data sqe) :
    v'.socket.recv_bind_buffer = v.socket.recv_bind_buffer := by
  have hsubmits : ∀ {v₁ : View}, v'.socket = v₁.socket →
      v₁.socket.recv_bind_buffer = v.socket.recv_bind_buffer →
      v'.socket.recv_bind_buffer = v.socket.recv_bind_buffer :=
    fun hsame hkept => (congrArg SocketObject.recv_bind_buffer hsame).trans hkept
  cases hmove with
  | idle => rfl
  | set_event => rfl
  | start_failed fd => rfl
  | start_error fd code => exact hsubmits (error_descriptor code).1 rfl
  | start hactive _ hreceive =>
    obtain ⟨recv_buffer, send_buffer, _, _, rfl⟩ := hactive
    exact hsubmits hreceive.descriptor.1 rfl
  | send_first htype hempty hpush addr hsend => exact hsubmits hsend.descriptor.1 rfl
  | send_queued htype hempty hpush => rfl
  | send_to_first htype hempty hpush hsend => exact hsubmits hsend.descriptor.1 rfl
  | send_to_queued htype hempty hpush => rfl
  | close_drained hempty hshut => exact hsubmits hshut.descriptor.1 rfl
  | close_queued hempty => rfl
  | close_force hshut => exact hsubmits hshut.descriptor.1 rfl
  | received => exact absurd rfl (hreceived _ _ _)
  | receive_ended htype hcomplete =>
    obtain ⟨front, back, _, rfl⟩ := hcomplete
    have hkept : v.socket.on_shutdown.recv_bind_buffer = v.socket.recv_bind_buffer := by
      unfold SocketObject.on_shutdown
      split <;> rfl
    split <;> exact hkept
  | sent_more garbage htype hcomplete hcount hle hempty hsend =>
    obtain ⟨front, back, _, rfl⟩ := hcomplete
    exact hsubmits hsend.descriptor.1 rfl
  | sent_all garbage htype hcomplete hcount hle hempty hpopped hshut =>
    obtain ⟨front, back, _, rfl⟩ := hcomplete
    split at hshut
    · refine hsubmits hshut.descriptor.1 ?_
      rw [hpopped]
      rfl
    · rw [hshut, hpopped]
      rfl
  | send_failed htype hcomplete =>
    obtain ⟨front, back, _, rfl⟩ := hcomplete
    exact hsubmits (error_descriptor _).1 rfl
  | shut_down htype hcomplete =>
    obtain ⟨front, back, _, rfl⟩ := hcomplete
    split <;> rfl
  | pop size => rfl

end View

namespace World

variable {A : Type} {w w' : World} {i j : ObjectId} {c : ContextId} {f : ContextId → Option A}

/-- What is noted of the contexts of socket `i`. -/
def of_socket (w : World) (i : ObjectId) (f : ContextId → Option A) (c : ContextId) : Option A :=
  if (w.contexts c).handler = some i then f c else none

theorem of_socket_self (hc : (w.contexts c).handler = some i) : w.of_socket i f c = f c := if_pos hc

theorem of_socket_noted (h : w.of_socket i f c ≠ none) :
    (w.contexts c).handler = some i ∧ f c ≠ none := by
  unfold of_socket at h
  split at h
  · rename_i hi
    exact ⟨hi, h⟩
  · exact absurd rfl h

theorem of_socket_congr (h : ∀ c, f c ≠ none → (w'.contexts c).handler = (w.contexts c).handler) :
    w'.of_socket i f = w.of_socket i f := by
  funext c
  unfold of_socket
  by_cases hnone : f c = none
  · rw [hnone, ite_self, ite_self]
  · rw [h c hnone]

theorem of_socket_update (hc : (w'.contexts c).handler = some i) (value : Option A)
    (h : ∀ c', c' ≠ c → f c' ≠ none → (w'.contexts c').handler = (w.contexts c').handler) :
    w'.of_socket i (Function.update f c value) = Function.update (w.of_socket i f) c value := by
  funext c'
  by_cases heq : c' = c
  · rw [heq, of_socket_self hc, Function.update_self, Function.update_self]
  · rw [Function.update_of_ne heq]
    unfold of_socket
    rw [Function.update_of_ne heq]
    by_cases hnone : f c' = none
    · rw [hnone, ite_self, ite_self]
    · rw [h c' heq hnone]

/-- What is noted of a context of another socket. -/
theorem of_socket_other (hc : (w.contexts c).handler = some j) (hc' : (w'.contexts c).handler = some j)
    (hne : i ≠ j) (value : Option A)
    (h : ∀ c', c' ≠ c → f c' ≠ none → (w'.contexts c').handler = (w.contexts c').handler) :
    w'.of_socket i (Function.update f c value) = w.of_socket i f := by
  have hother : ¬some j = some i := fun heq => hne (Option.some.inj heq).symm
  funext c'
  unfold of_socket
  by_cases heq : c' = c
  · rw [heq, hc, hc', if_neg hother, if_neg hother]
  · rw [Function.update_of_ne heq]
    by_cases hnone : f c' = none
    · rw [hnone, ite_self, ite_self]
    · rw [h c' heq hnone]

/-- The context of a read that `submit_receiving` adds was not in flight. -/
theorem Wf.new_read {p : Platform} {s : SocketObject} {sqe : Bool} {lossy : Prop} (hwf : w.Wf)
    (hwf' : w'.Wf) (hpasses : Passes p lossy w w')
    (hreceives : (w.view_with i s).Receives p sqe (w'.view_with i s)) {r : Request}
    (hr : r ∈ w'.reads i) (hnew : r ∉ w.reads i) : r.user_data ∉ w.custody.out := by
  intro hout
  obtain ⟨r₀, hr₀, huser⟩ := List.mem_map.mp hout
  obtain ⟨hinflight, hi, htype⟩ := mem_reads.mp hr
  have hsame : w'.contexts r.user_data = w.contexts r.user_data :=
    (hwf.sound.out_along hout hpasses (by rintro s m hm result rfl; exact hm)).2
  have hcontext : r₀.context = r.context := by
    rw [← hwf.contexts r₀ hr₀, ← hwf'.contexts r hinflight, hsame, huser]
  have hread : r₀ ∈ w.reads i := mem_reads.mpr ⟨hr₀, hcontext ▸ hi, hcontext ▸ htype⟩
  obtain ⟨_, _, _, _, _, added, hreads, _⟩ := hreceives.inbound.spec
  have hreads' : w'.reads i = w.reads i ++ added := hreads
  have hkept : r₀ ∈ w'.reads i := by
    rw [hreads']
    exact List.mem_append_left _ hread
  have hfind := hwf'.find_inflight (mem_reads.mp hkept).1
  rw [huser, hwf'.find_inflight hinflight] at hfind
  exact hnew (Option.some.inj hfind ▸ hread)

end World

open World

namespace Receiving

variable {p : Platform} {concurrency : Nat} {x x' : Receiving} {i j : ObjectId} {c : ContextId}
  {s : SocketObject}

/-- The receiving side of socket `i`. -/
def intake (x : Receiving) (i : ObjectId) (s : SocketObject) : Intake where
  inbound := (x.service.world.view_with i s).inbound
  recv_bind_buffer := s.recv_bind_buffer
  arrived := x.service.world.of_socket i x.arrived
  stage := x.service.world.of_socket i x.stage
  ring := x.service.ring
  copied := x.copied i

theorem mem_reading : c ∈ (x.intake i s).reading → c ∈ x.service.world.custody.out := by
  intro hc
  obtain ⟨r, hr, rfl⟩ := List.mem_map.mp hc
  exact List.mem_map_of_mem (mem_reads.mp hr).1

/-- A step that leaves the receiving side of a socket as it is. -/
theorem intake_same {s' : SocketObject} (hinbound : (x'.service.world.view_with i s').inbound =
      (x.service.world.view_with i s).inbound)
    (hbuffer : s'.recv_bind_buffer = s.recv_bind_buffer)
    (harrived : x'.service.world.of_socket i x'.arrived = x.service.world.of_socket i x.arrived)
    (hstage : x'.service.world.of_socket i x'.stage = x.service.world.of_socket i x.stage)
    (hcopied : x'.copied i = x.copied i) :
    x'.intake i s' = { x.intake i s with ring := x'.service.ring } := by
  rw [intake, hinbound, hbuffer, harrived, hstage, hcopied, intake]

/-- The contexts submitted in a step are none of the contexts in use. -/
theorem Kept.keeps_rings {moved : ContextId → Prop} {w' : World} (hkept : x.Kept)
    (hkeeps : x.service.world.Keeps w' moved) (hstays : ∀ c, x.stage c ≠ none → ¬moved c) (k : Nat) :
    (x.intake i s).KeepsRings fun c =>
      if c ∈ x.service.world.submitted_contexts w' then k else x.service.ring c := by
  intro c hc
  refine if_neg fun hmem => ?_
  obtain ⟨hout', hnew⟩ := List.mem_filter.mp hmem
  rcases hc with hstage | hreading
  · obtain ⟨_, hstage⟩ := of_socket_noted hstage
    have hused := (hkeeps.used c (hkept.used c hstage) (hstays c hstage)).1
    exact (hkeeps.wf.sound.disjoint hused).2 hout'
  · exact (of_decide_eq_true hnew) (mem_reading hreading)

/-- A thread that is in no handler takes up the read. -/
theorem Kept.free (hkept : x.Kept) (hbusy : x.service.busy (x.service.ring c) = false) :
    (x.intake i s).Free c := by
  intro c' hc' heq
  obtain ⟨_, hstage⟩ := of_socket_noted hc'
  have htrue : x.service.busy (x.service.ring c) = true := by
    rw [Service.busy, List.any_eq_true]
    exact ⟨c', hkept.used c' hstage, beq_iff_eq.mpr heq⟩
  rw [hbusy] at htrue
  cases htrue

/-- What a step of the service does to the receiving side. -/
theorem Kept.service_move (hkept : x.Kept) {e : Event} {k : Nat} {t : Service}
    (hallowed : World.permits i View.connected_once x.service.world e)
    (hleaves : x.leaves (.process e k) = true)
    (hprocess : x.service.process p concurrency e k = some t)
    (hs : x.service.world.sockets i = some s) : ∃ s', t.world.sockets i = some s' ∧
      (x.intake i s).Move p (({ x with service := t } : Receiving).intake i s') := by
  obtain ⟨htakes, hstep, ht, _⟩ := Service.process_spec hprocess
  have hkeeps := hkept.wf.step_keeps hkept.addressed hstep
  have hstays := hkept.stays hleaves hprocess
  obtain ⟨v', hv', hmove⟩ := ((hkept.wf.step_does hstep).moves i).move _ (view_eq hs)
  obtain ⟨s', hs', rfl⟩ := Option.map_eq_some_iff.mp hv'
  -- a read of the socket that completes has brought no bytes
  have hread : ∀ c cqe sqe, e = .complete c cqe sqe → ∀ r ∈ x.service.world.reads i, r.user_data = c →
      cqe.res ≤ 0 ∧ x.arrived c = none ∧ x.service.world.action i e = .receive_ended r cqe.res := by
    rintro c cqe sqe rfl r hr rfl
    obtain ⟨hinflight, hi, htype⟩ := mem_reads.mp hr
    have hfind := hkept.wf.find_inflight hinflight
    simp only [leaves, hfind, htype, bne_self_eq_false, Bool.false_or, Bool.and_eq_true,
      decide_eq_true_eq, Option.isNone_iff_eq_none] at hleaves
    refine ⟨hleaves.1, hleaves.2, ?_⟩
    simp only [World.action, hfind, hi, htype, if_neg (Int.not_lt.mpr hleaves.1), ↓reduceIte]
  have hreceived : ∀ r data sqe, x.service.world.action i e ≠ .received r data sqe := by
    intro r data sqe haction
    obtain ⟨c, cqe, sqe', heq, r', hr', huser⟩ := action_receives (.inl ⟨r, data, sqe, haction⟩)
    rw [(hread c cqe sqe' heq r' hr' huser).2.2] at haction
    cases haction
  have hhandler : ∀ c, x.arrived c ≠ none ∨ x.stage c ≠ none →
      (t.world.contexts c).handler = (x.service.world.contexts c).handler := by
    intro c hc
    obtain ⟨j, hreads, hreads', _⟩ := hkept.owned_after hkeeps hc (hstays c hc)
    exact hreads'.2.trans hreads.2.symm
  have hsame : ({ x with service := t } : Receiving).intake i s' = { x.intake i s with
      inbound := (t.world.view_with i s').inbound
      ring := t.ring } := by
    have hbuffer : s'.recv_bind_buffer = s.recv_bind_buffer := hmove.recv_bind_buffer hreceived
    rw [intake, intake, hbuffer, of_socket_congr fun c hc => hhandler c (.inl hc),
      of_socket_congr fun c hc => hhandler c (.inr hc)]
  refine ⟨s', hs', ?_⟩
  rw [hsame]
  refine .other hmove.inbound (fun sqe haction => ?_) hreceived (fun r res haction => ?_) ?_
  · have hpermitted := hallowed _ (view_eq hs)
    rw [haction] at hpermitted
    exact hpermitted
  · obtain ⟨c, cqe, sqe, rfl, r', hr', rfl⟩ := action_receives (.inr ⟨r, res, haction⟩)
    obtain ⟨_, hnone, haction'⟩ := hread _ cqe sqe rfl r' hr' rfl
    rw [haction'] at haction
    cases haction
    simp only [Service.takes, Bool.and_eq_true, beq_iff_eq, Bool.not_eq_true'] at htakes
    obtain ⟨⟨rfl, _⟩, hbusy⟩ := htakes
    refine ⟨?_, hkept.free hbusy⟩
    change x.service.world.of_socket i x.arrived r.user_data = none
    unfold of_socket
    rw [hnone, ite_self]
  · rw [ht]
    exact hkept.keeps_rings hkeeps (fun c hc => hstays c (.inr hc)) k

/-- A step of a receive of another socket. -/
theorem other_move {t t' : SocketObject} (hpiece : x.service.world.Piece x'.service.world j t t')
    (hne : i ≠ j) (hs : x.service.world.sockets i = some s)
    (harrived : x'.service.world.of_socket i x'.arrived = x.service.world.of_socket i x.arrived)
    (hstage : x'.service.world.of_socket i x'.stage = x.service.world.of_socket i x.stage)
    (hcopied : x'.copied i = x.copied i) (hring : (x.intake i s).KeepsRings x'.service.ring) :
    ∃ s', x'.service.world.sockets i = some s' ∧ (x.intake i s).Move p (x'.intake i s') := by
  have hview : x'.service.world.view_with i s = x.service.world.view_with i s :=
    hpiece.others.view_with i s hne
  refine ⟨s, (hpiece.others.sockets i hne).trans hs, ?_⟩
  rw [intake_same (congrArg View.inbound hview) rfl harrived hstage hcopied]
  exact .other (a := .idle) (.same (by simp) (by simp) (by simp)) (by simp) (by simp) (by simp) hring

theorem Kept.arrive_move (hkept : x.Kept) {data : List UInt8} (harrive : x.arrive c data = some x')
    (hs : x.service.world.sockets i = some s) : ∃ s', x'.service.world.sockets i = some s' ∧
      (x.intake i s).Move p (x'.intake i s') := by
  obtain ⟨r, hr, rfl, htype, harrived, hdata, hlength, rfl⟩ := arrive_spec harrive
  obtain ⟨j, t, hj, ht, hbase, _⟩ := hkept.wf.read_socket hr htype
  obtain ⟨_, hs', hcontexts, hview⟩ := deliver_bytes_view ht hbase data
  have hpiece := hkept.wf.arrive_piece ht hbase data
  have hcontext : (x.service.world.contexts r.user_data).handler = some j := by
    rw [hkept.wf.contexts r hr]
    exact hj
  have hhandler : ∀ c, ((x.service.world.deliver_bytes r data).contexts c).handler =
      (x.service.world.contexts c).handler := fun c => by rw [hcontexts]
  by_cases hij : i = j
  · subst hij
    rw [hs] at ht
    cases ht
    refine ⟨_, hs', ?_⟩
    have hinbound := congrArg View.inbound (hview { s with recv_bind_buffer := data })
    have hmove := Intake.Move.arrive (p := p) (q := x.intake i s) (mem_reads.mpr ⟨hr, hj, htype⟩)
      ((of_socket_self hcontext).trans (hkept.no_stage (List.mem_map_of_mem hr)))
      ((of_socket_self hcontext).trans harrived) hdata hlength
    refine hmove.to (Intake.ext hinbound rfl ?_ (of_socket_congr fun c _ => hhandler c) rfl rfl)
    exact of_socket_update ((hhandler _).trans hcontext) _ fun c _ _ => hhandler c
  · refine other_move hpiece hij hs ?_ (of_socket_congr fun c _ => hhandler c) rfl fun _ _ => rfl
    exact of_socket_other hcontext ((hhandler _).trans hcontext) hij _ fun c _ _ => hhandler c

theorem Kept.take_move (hkept : x.Kept) {peer : SockAddr} (htake : x.take c peer = some x')
    (hs : x.service.world.sockets i = some s) : ∃ s', x'.service.world.sockets i = some s' ∧
      (x.intake i s).Move p (x'.intake i s') := by
  obtain ⟨r, data, hr, rfl, harrived, hbusy, rfl⟩ := take_spec htake
  obtain ⟨j, ⟨htype, hj⟩, hsome⟩ :=
    hkept.owned r.user_data (.inl (Option.ne_none_iff_exists'.mpr ⟨_, harrived⟩))
  have hcontext := hj
  rw [hkept.wf.contexts r hr] at htype hj
  obtain ⟨t, ht⟩ := Option.isSome_iff_exists.mp hsome
  obtain ⟨hpiece, hcompletes, hkeeps, _, hreads⟩ :=
    hkept.wf.take_piece hkept.addressed hr htype hj ht peer
  have hhandler : ∀ c, x.arrived c ≠ none ∨ x.stage c ≠ none → c ≠ r.user_data →
      (((x.service.world.completed r.user_data).kernel r { res := 0, peer }).contexts c).handler =
        (x.service.world.contexts c).handler := by
    intro c hc hne
    obtain ⟨i, hreads, hreads', _⟩ := hkept.owned_after hkeeps hc hne
    exact hreads'.2.trans hreads.2.symm
  have hkeptarrived : ∀ c, x.arrived c ≠ none →
      (((x.service.world.completed r.user_data).kernel r { res := 0, peer }).contexts c).handler =
        (x.service.world.contexts c).handler := by
    intro c hc
    by_cases heq : c = r.user_data
    · rw [heq, hcontext, hreads.2]
    · exact hhandler c (.inl hc) heq
  by_cases hij : i = j
  · subst hij
    rw [hs] at ht
    cases ht
    refine ⟨s, hpiece.after, ?_⟩
    have hmove := Intake.Move.take (p := p) (q := x.intake i s) (hcompletes.inbound htype)
      ((of_socket_self hcontext).trans harrived) (hkept.free hbusy)
    refine hmove.to (Intake.ext rfl rfl (of_socket_congr hkeptarrived) ?_ rfl rfl)
    exact of_socket_update hreads.2 _ fun c hne hc => hhandler c (.inr hc) hne
  · refine other_move hpiece hij hs (of_socket_congr hkeptarrived) ?_ rfl fun _ _ => rfl
    exact of_socket_other hcontext hreads.2 hij _ fun c hne hc => hhandler c (.inr hc) hne

theorem Kept.copy_move (hkept : x.Kept) (hcopy : x.copy p c = some x')
    (hs : x.service.world.sockets i = some s) : ∃ s', x'.service.world.sockets i = some s' ∧
      (x.intake i s).Move p (x'.intake i s') := by
  obtain ⟨count, j, t, recv_buffer, hstage, hj, ht, hpush, rfl⟩ := copy_spec hcopy
  have hpiece := hkept.wf.copy_piece ht recv_buffer
  by_cases hij : i = j
  · subst hij
    rw [hs] at ht
    cases ht
    refine ⟨_, hpiece.after, ?_⟩
    have hmove := Intake.Move.copy (p := p) (q := x.intake i s) ((of_socket_self hj).trans hstage) hpush
    refine hmove.to (Intake.ext rfl rfl ?_ ?_ rfl (Function.update_self ..))
    · exact of_socket_update (w := x.service.world) hj _ fun _ _ _ => rfl
    · exact of_socket_update (w := x.service.world) hj _ fun _ _ _ => rfl
  · refine other_move hpiece hij hs ?_ ?_ (Function.update_of_ne hij _ _) fun _ _ => rfl
    · exact of_socket_other hj hj hij _ fun _ _ _ => rfl
    · exact of_socket_other hj hj hij _ fun _ _ _ => rfl

theorem Kept.arm_move (hkept : x.Kept) {sqe : Bool} (harm : x.arm p c sqe = some x')
    (hs : x.service.world.sockets i = some s) : ∃ s', x'.service.world.sockets i = some s' ∧
      (x.intake i s).Move p (x'.intake i s') := by
  obtain ⟨j, t, hstage, hj, ht, rfl⟩ := arm_spec harm
  obtain ⟨hpiece, hreceives⟩ := hkept.wf.arm_piece ht p sqe
  have hkeeps := hpiece.keeps hkept.wf hkept.addressed submit_receiving_passes
  have hrings := hkept.keeps_rings (i := i) (s := s) hkeeps (fun _ _ => id) (x.service.ring c)
  have hhandler : ∀ c, x.arrived c ≠ none ∨ x.stage c ≠ none →
      ((t.submit_receiving p x.service.world j sqe).contexts c).handler =
        (x.service.world.contexts c).handler := by
    intro c hc
    obtain ⟨i, hreads, hreads', _⟩ := hkept.owned_after hkeeps hc id
    exact hreads'.2.trans hreads.2.symm
  have hj' : ((t.submit_receiving p x.service.world j sqe).contexts c).handler = some j :=
    (hhandler c (.inr (by simp [hstage]))).trans hj
  have harrived : (t.submit_receiving p x.service.world j sqe).of_socket i x.arrived =
      x.service.world.of_socket i x.arrived := of_socket_congr fun c hc => hhandler c (.inl hc)
  by_cases hij : i = j
  · subst hij
    rw [hs] at ht
    cases ht
    refine ⟨s, hpiece.after, ?_⟩
    have hmove := Intake.Move.arm (q := x.intake i s) ((of_socket_self hj).trans hstage)
      hreceives.inbound (fun r hr hnew => ?_) hrings
    · refine hmove.to (Intake.ext rfl rfl harrived ?_ rfl rfl)
      exact of_socket_update hj' _ fun c _ hc => hhandler c (.inr hc)
    · refine if_pos (List.mem_filter.mpr ⟨List.mem_map_of_mem (mem_reads.mp hr).1, ?_⟩)
      exact decide_eq_true (hkept.wf.new_read hpiece.wf submit_receiving_passes hreceives hr hnew)
  · refine other_move hpiece hij hs harrived ?_ rfl hrings
    exact of_socket_other hj hj' hij _ fun c _ hc => hhandler c (.inr hc)

theorem Kept.call_move (hkept : x.Kept) (hcall : x.call c = some x')
    (hs : x.service.world.sockets i = some s) : ∃ s', x'.service.world.sockets i = some s' ∧
      (x.intake i s).Move p (x'.intake i s') := by
  obtain ⟨j, t, hstage, hj, ht, rfl⟩ := call_spec hcall
  generalize IoService.current_sockaddr x.service.world c = addr
  have hpiece := hkept.wf.call_piece ht addr
  have hcontexts : (t.call_received x.service.world j addr).contexts = x.service.world.contexts := by
    unfold SocketObject.call_received
    split <;> rfl
  have hhandler : ∀ c, ((t.call_received x.service.world j addr).contexts c).handler =
      (x.service.world.contexts c).handler := fun c => by rw [hcontexts]
  by_cases hij : i = j
  · subst hij
    rw [hs] at ht
    cases ht
    refine ⟨s, hpiece.after, ?_⟩
    have hinbound : ((s.call_received x.service.world i addr).view_with i s).inbound =
        { (x.service.world.view_with i s).inbound with
          events := (x.service.world.view_with i s).inbound.events ++
            if s.recv_event then [.receive s.recv_buffer.contents addr] else [] } := by
      unfold SocketObject.call_received
      split
      · rename_i hregistered
        rw [view_with_call]
        simp [View.inbound, View.call, Callback.is_inbound]
      · simp [View.inbound]
    have hmove := Intake.Move.call (p := p) (q := x.intake i s) ((of_socket_self hj).trans hstage)
      s.recv_event addr
    refine hmove.to (Intake.ext hinbound rfl (of_socket_congr fun c _ => hhandler c) ?_ rfl rfl)
    exact of_socket_update ((hhandler c).trans hj) _ fun c _ _ => hhandler c
  · refine other_move hpiece hij hs (of_socket_congr fun c _ => hhandler c) ?_ rfl fun _ _ => rfl
    exact of_socket_other hj ((hhandler c).trans hj) hij _ fun c _ _ => hhandler c

/-- Every step of the receiver is a move of the receiving side of a socket that is
    activated once. -/
theorem Kept.move (hkept : x.Kept) {e : ReceiveEvent} (hallowed : x.permits i View.connected_once e)
    (hstep : (receiver p concurrency).step x e = some x') (hs : x.service.world.sockets i = some s) :
    ∃ s', x'.service.world.sockets i = some s' ∧ (x.intake i s).Move p (x'.intake i s') := by
  have hidle : ∀ t : Service, t.world = x.service.world → t.ring = x.service.ring →
      ∃ s', t.world.sockets i = some s' ∧
        (x.intake i s).Move p (({ x with service := t } : Receiving).intake i s') := by
    rintro ⟨world, ring, _, _, _⟩ rfl rfl
    exact ⟨s, hs, .other (a := .idle) (.same (by simp) (by simp) (by simp)) (by simp) (by simp)
      (by simp) fun _ _ => rfl⟩
  cases e with
  | arrive c data => exact hkept.arrive_move hstep hs
  | take c peer => exact hkept.take_move hstep hs
  | copy c => exact hkept.copy_move hstep hs
  | arm c sqe => exact hkept.arm_move hstep hs
  | call c => exact hkept.call_move hstep hs
  | service e =>
    obtain ⟨hleaves, t, ht, rfl⟩ := service_spec hstep
    cases e with
    | process e k => exact hkept.service_move hallowed hleaves ht hs
    | stop =>
      rw [(Service.stop_spec ht).2]
      exact hidle _ rfl rfl
    | cancelled k =>
      rw [(Service.cancelled_spec ht).1]
      exact hidle _ rfl rfl

end Receiving

end rioring
