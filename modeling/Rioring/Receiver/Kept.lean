import Rioring.Receiver
import Rioring.View.Callbacks

/-! What the steps of a receive leave as it is: the contexts in flight and being
handled, and all objects but one socket. -/

namespace rioring

open World

namespace World

variable {p : Platform} {w w' : World} {i j : ObjectId} {c : ContextId} {s s' : SocketObject}

/-- A context stays where it is, as it is, unless the step is the one that moves it. -/
structure Keeps (w w' : World) (moved : ContextId → Prop) : Prop where
  wf : w'.Wf
  addressed : w'.Addressed
  sockets : ∀ i, (w.sockets i).isSome → (w'.sockets i).isSome
  used : ∀ c ∈ w.custody.used, ¬moved c → c ∈ w'.custody.used ∧ ∀ i, w.Reads i c → w'.Reads i c
  out : ∀ c ∈ w.custody.out, ¬moved c → c ∈ w'.custody.out ∧ ∀ i, w.Reads i c → w'.Reads i c

/-- The completion of its request and the return of its handler move a context. -/
def moves (e : Event) (c : ContextId) : Prop := e = .finish c ∨ ∃ cqe sqe, e = .complete c cqe sqe

theorem Wf.step_keeps (hwf : w.Wf) (haddressed : w.Addressed) {e : Event}
    (hstep : (machine p).step w e = some w') : w.Keeps w' (moves e) := by
  refine ⟨Wf.step (p := p) hwf hstep, hwf.addressed_step haddressed hstep, fun i hi => ?_,
    fun c hc hmoved => ?_, fun c hc hmoved => ?_⟩
  · obtain ⟨s, hs⟩ := Option.isSome_iff_exists.mp hi
    obtain ⟨v', hv', _⟩ := ((hwf.step_does hstep).moves i).move _ (view_eq hs)
    obtain ⟨s', hs', _⟩ := Option.map_eq_some_iff.mp hv'
    exact Option.isSome_iff_exists.mpr ⟨s', hs'⟩
  · obtain ⟨hused, hcontext⟩ :=
      hwf.step_handled haddressed hc (fun heq => hmoved (.inl heq)) hstep
    exact ⟨hused, fun i hreads => by rw [Reads, hcontext]; exact hreads⟩
  · obtain ⟨hout, hcontext⟩ :=
      hwf.step_out haddressed hc (fun cqe sqe heq => hmoved (.inr ⟨cqe, sqe, heq⟩)) hstep
    exact ⟨hout, fun i hreads => by rw [Reads, hcontext]; exact hreads⟩

/-- A step of a receive is one of socket `i`, from `s` to `s'`, that the sending side
    does not notice. -/
structure Piece (w w' : World) (i : ObjectId) (s s' : SocketObject) : Prop where
  wf : w'.Wf
  others : Local i w w'
  before : w.sockets i = some s
  after : w'.sockets i = some s'
  outbound : (w'.view_with i s').outbound = (w.view_with i s).outbound
  callbacks : (w.history i).callbacks <+: (w'.history i).callbacks

theorem Piece.sockets (h : w.Piece w' i s s') (j : ObjectId) (hj : (w.sockets j).isSome) :
    (w'.sockets j).isSome := by
  by_cases heq : j = i
  · rw [heq, h.after]
    rfl
  · rw [h.others.sockets j heq]
    exact hj

theorem Piece.no_socket (h : w.Piece w' i s s') {j : ObjectId} (hj : w.sockets j = none) :
    w'.sockets j = none := by
  have hne : j ≠ i := by
    rintro rfl
    rw [h.before] at hj
    cases hj
  rw [h.others.sockets j hne]
  exact hj

theorem Piece.all_callbacks (h : w.Piece w' i s s') (j : ObjectId) :
    (w.history j).callbacks <+: (w'.history j).callbacks := by
  by_cases heq : j = i
  · rw [heq]
    exact h.callbacks
  · have hview := h.others.view_with j s heq
    rw [show w'.history j = w.history j from congrArg View.history hview]

theorem Piece.addressed (h : w.Piece w' i s s') (haddressed : w.Addressed) : w'.Addressed := by
  intro r hr hwrite j t hhandler ht hudp
  by_cases heq : j = i
  · subst heq
    rw [h.after] at ht
    cases ht
    have hmem : r ∈ (w'.view_with j s').outbound.writes :=
      List.mem_filter.mpr ⟨List.mem_filter.mpr ⟨hr, by simpa using hhandler⟩, hwrite⟩
    have htype : s'.socket_type = s.socket_type := congrArg Outbound.socket_type h.outbound
    rw [h.outbound] at hmem
    have hbefore := (List.mem_filter.mp (List.mem_filter.mp hmem).1).1
    exact haddressed r hbefore hwrite j s hhandler h.before (htype ▸ hudp)
  · rw [h.others.sockets j heq] at ht
    have hmem : r ∈ (w'.view_with j t).requests :=
      List.mem_filter.mpr ⟨hr, by simpa using hhandler⟩
    rw [h.others.view_with j t heq] at hmem
    exact haddressed r (List.mem_filter.mp hmem).1 hwrite j t hhandler ht hudp

/-- A step of a receive that submits contexts at most moves none. -/
theorem Piece.keeps (h : w.Piece w' i s s') (hwf : w.Wf) (haddressed : w.Addressed) {lossy : Prop}
    (hpasses : Passes p lossy w w') : w.Keeps w' fun _ => False := by
  refine ⟨h.wf, h.addressed haddressed, h.sockets, fun c hc _ => ?_, fun c hc _ => ?_⟩
  · obtain ⟨hused, hcontext⟩ := hwf.sound.used_along hc hpasses (by rintro s m hm rfl; exact hm)
    have hsame : w'.contexts c = w.contexts c := hcontext
    exact ⟨hused, fun i hreads => by rw [Reads, hsame]; exact hreads⟩
  · obtain ⟨hout, hcontext⟩ := hwf.sound.out_along hc hpasses (by rintro s m hm result rfl; exact hm)
    have hsame : w'.contexts c = w.contexts c := hcontext
    exact ⟨hout, fun i hreads => by rw [Reads, hsame]; exact hreads⟩

theorem Piece.keeps_same (h : w.Piece w' i s s') (hwf : w.Wf) (haddressed : w.Addressed)
    (hsame : w'.custody = w.custody) : w.Keeps w' fun _ => False := by
  have hpasses : Passes .small False w w' := .of_eq hsame
  exact h.keeps hwf haddressed hpasses

/-- A read in flight is for a socket. -/
theorem Wf.read_socket (hwf : w.Wf) {r : Request} (hr : r ∈ w.inflight)
    (htype : r.context.type = .read) : ∃ i s, r.context.handler = some i ∧ w.sockets i = some s ∧
      r.context.iov.iov_base = .recv_bind_buffer i ∧ r.opcode = r.context.opcode := by
  obtain ⟨i, hi, hfilled, hopcode⟩ := hwf.typed r hr
  rw [World.Filled, htype] at hfilled
  obtain ⟨s, hs⟩ := Option.isSome_iff_exists.mp hfilled.1
  exact ⟨i, s, hi, hs, hfilled.2, hopcode⟩

theorem Wf.arrive_piece (hwf : w.Wf) {r : Request} (hs : w.sockets i = some s)
    (hbase : r.context.iov.iov_base = .recv_bind_buffer i) (data : List UInt8) :
    w.Piece (w.deliver_bytes r data) i s { s with recv_bind_buffer := data } := by
  obtain ⟨hlocal, hs', _, hview⟩ := deliver_bytes_view hs hbase data
  have hhistory := congrArg View.history (hview s)
  refine ⟨hwf.deliver_bytes r data, hlocal, hs, hs', ?_, ?_⟩
  · rw [hview]
    rfl
  · rw [show (w.deliver_bytes r data).history i = _ from hhistory]
    exact List.prefix_refl _

/-- What is left of a read that is taken up is the address of the peer, for a datagram. -/
theorem Wf.take_piece (hwf : w.Wf) (haddressed : w.Addressed) {r : Request} (hr : r ∈ w.inflight)
    (htype : r.context.type = .read) (hi : r.context.handler = some i) (hs : w.sockets i = some s)
    (peer : SockAddr) :
    w.Piece ((w.completed r.user_data).kernel r { res := 0, peer }) i s s ∧
      (w.view_with i s).Completes r
        (((w.completed r.user_data).kernel r { res := 0, peer }).view_with i s) ∧
      w.Keeps ((w.completed r.user_data).kernel r { res := 0, peer }) (· = r.user_data) ∧
      r.user_data ∈ ((w.completed r.user_data).kernel r { res := 0, peer }).custody.used ∧
      ((w.completed r.user_data).kernel r { res := 0, peer }).Reads i r.user_data := by
  have hfind := hwf.find_inflight hr
  obtain ⟨hwf₁, _, _, hcontext, hfree⟩ := hwf.completed hfind
  obtain ⟨hlocal₁, hcompletes, _⟩ := completed_view hfind hi
  obtain ⟨j, t, hj, _, hbase, hopcode⟩ := hwf.read_socket hr htype
  rw [hi] at hj
  cases hj
  have hs₁ : (w.completed r.user_data).sockets i = some s := hs
  obtain ⟨hlocal, htype', hhandler', hrest⟩ :=
    kernel_read hs₁ { res := 0, peer } htype hbase hopcode hcontext
  rw [if_neg (by simp)] at hrest
  obtain ⟨hs', hview⟩ := hrest
  have htyped : (w.completed r.user_data).Typed r := hwf.typed r hr
  have hcompleted := hcompletes s
  rw [← hview s] at hcompleted
  have hcallbacks : (((w.completed r.user_data).kernel r { res := 0, peer }).history i).callbacks =
      (w.history i).callbacks := congrArg History.callbacks hcompleted.remaining.2.2.1
  have hpiece : w.Piece ((w.completed r.user_data).kernel r { res := 0, peer }) i s s :=
    ⟨hwf₁.kernel htyped hfree _, hlocal₁.trans hlocal, hs, hs',
      hcompleted.outbound_same (by simp [Request.is_write, htype]),
      hcallbacks ▸ List.prefix_refl _⟩
  obtain ⟨addr, msg, hcustody, _, _⟩ := kernel_custody (w.completed r.user_data) r { res := 0, peer }
  rw [completed_custody] at hcustody
  generalize (w.completed r.user_data).kernel r { res := 0, peer } = w' at *
  have hrecords : w'.contexts = Function.update w.contexts r.user_data
      { w.contexts r.user_data with addr, msg } := congrArg Custody.records hcustody
  have hreads : ∀ c i, w.Reads i c → w'.Reads i c := by
    intro c i hreads
    rw [Reads, hrecords]
    by_cases heq : c = r.user_data
    · subst heq
      rw [Function.update_self]
      exact hreads
    · rw [Function.update_of_ne heq]
      exact hreads
  have hused : w'.custody.used = w.custody.used ++ [r.user_data] := congrArg Custody.used hcustody
  have hout : w'.custody.out = w.custody.out.erase r.user_data := congrArg Custody.out hcustody
  refine ⟨hpiece, hcompleted, ⟨hpiece.wf, hpiece.addressed haddressed, hpiece.sockets,
    fun c hc _ => ⟨?_, hreads c⟩, fun c hc hne => ⟨?_, hreads c⟩⟩, ?_, ?_⟩
  · rw [hused]
    exact List.mem_append_left _ hc
  · rw [hout]
    exact (List.mem_erase_of_ne hne).mpr hc
  · rw [hused]
    exact List.mem_append_right _ (List.mem_singleton_self _)
  · apply hreads
    rw [Reads, hwf.contexts r hr]
    exact ⟨htype, hi⟩

theorem Wf.copy_piece (hwf : w.Wf) (hs : w.sockets i = some s) (recv_buffer : IoBuffer) :
    w.Piece (w.set_socket i { s with recv_buffer }) i s { s with recv_buffer } :=
  ⟨hwf.set_socket hs rfl, local_set_socket, hs, set_socket_self w i _, rfl, List.prefix_refl _⟩

theorem Wf.arm_piece (hwf : w.Wf) (hs : w.sockets i = some s) (p : Platform) (sqe : Bool) :
    w.Piece (s.submit_receiving p w i sqe) i s s ∧
      (w.view_with i s).Receives p sqe ((s.submit_receiving p w i sqe).view_with i s) := by
  have hreceives := hwf.receiving_view hs p (t := s) rfl sqe
  obtain ⟨_, codes, hcodes⟩ := hreceives.errs
  refine ⟨⟨hwf.submit_receiving hs p s sqe, local_submit_receiving p s sqe, hs, ?_,
    hreceives.outbound, ⟨_, hcodes.symm⟩⟩, hreceives⟩
  rw [(SocketObject.submit_receiving_submitted p w i s sqe).sockets]
  exact hs

theorem Wf.call_piece (hwf : w.Wf) (hs : w.sockets i = some s) (addr : SockAddr) :
    w.Piece (s.call_received w i addr) i s s := by
  unfold SocketObject.call_received
  split
  · have hview := view_with_call (w := w) (i := i) (s := s) (.receive s.recv_buffer.contents addr)
    refine ⟨hwf.call (hwf.socket_lt hs) _, local_call _, hs, hs, ?_, ?_⟩
    · rw [hview]
      rfl
    · exact ⟨_, (congrArg (fun v => v.history.callbacks) hview).symm⟩
  · exact ⟨hwf, .refl, hs, hs, rfl, List.prefix_refl _⟩

end World

namespace Receiving

variable {p : Platform} {concurrency : Nat} {x x' : Receiving} {c : ContextId}

theorem arrive_spec {data : List UInt8} (h : x.arrive c data = some x') : ∃ r,
    r ∈ x.service.world.inflight ∧ r.user_data = c ∧ r.context.type = .read ∧ x.arrived c = none ∧
      data ≠ [] ∧ data.length ≤ r.context.iov.iov_len ∧ x' = { x with
        service := { x.service with world := x.service.world.deliver_bytes r data }
        arrived := Function.update x.arrived c (some data) } := by
  unfold arrive at h
  obtain ⟨r, hfind, h⟩ := Option.bind_eq_some_iff.mp h
  split at h
  · rename_i hguard
    obtain ⟨htype, hnone, hdata, hlength⟩ := hguard
    exact ⟨r, List.mem_of_find?_eq_some hfind, by simpa using List.find?_some hfind, htype, hnone,
      hdata, hlength, (Option.some.inj h).symm⟩
  · cases h

theorem take_spec {peer : SockAddr} (h : x.take c peer = some x') : ∃ r data,
    r ∈ x.service.world.inflight ∧ r.user_data = c ∧ x.arrived c = some data ∧
      x.service.busy (x.service.ring c) = false ∧ x' = { x with
        service := { x.service with
          world := (x.service.world.completed c).kernel r { res := 0, peer } }
        stage := Function.update x.stage c (some (.taken data.length)) } := by
  unfold take at h
  obtain ⟨r, hfind, h⟩ := Option.bind_eq_some_iff.mp h
  obtain ⟨data, hdata, h⟩ := Option.bind_eq_some_iff.mp h
  dsimp only at h
  split at h
  · rename_i hguard
    simp only [Bool.and_eq_true, Bool.not_eq_true'] at hguard
    exact ⟨r, data, List.mem_of_find?_eq_some hfind, by simpa using List.find?_some hfind, hdata,
      hguard.2, (Option.some.inj h).symm⟩
  · cases h

theorem reader_spec {w : World} {i : ObjectId} {s : SocketObject} (h : w.reader c = some (i, s)) :
    (w.contexts c).handler = some i ∧ w.sockets i = some s := by
  unfold World.reader at h
  obtain ⟨j, hj, h⟩ := Option.bind_eq_some_iff.mp h
  obtain ⟨t, ht, h⟩ := Option.bind_eq_some_iff.mp h
  cases h
  exact ⟨hj, ht⟩

theorem copy_spec (h : x.copy p c = some x') : ∃ count i s recv_buffer,
    x.stage c = some (.taken count) ∧ (x.service.world.contexts c).handler = some i ∧
      x.service.world.sockets i = some s ∧
      s.recv_buffer.push p.malloc (s.recv_bind_buffer.take count) = .ok recv_buffer ∧ x' = {
        service := { x.service with world := x.service.world.set_socket i { s with recv_buffer } }
        arrived := Function.update x.arrived c none
        stage := Function.update x.stage c (some .copied)
        copied := Function.update x.copied i (x.copied i ++ s.recv_bind_buffer.take count) } := by
  unfold copy at h
  split at h
  · rename_i count hstage
    obtain ⟨⟨i, s⟩, hreader, h⟩ := Option.bind_eq_some_iff.mp h
    obtain ⟨world, hworld, h⟩ := Option.bind_eq_some_iff.mp h
    obtain ⟨hi, hs⟩ := reader_spec hreader
    have hcopied := IoBuffer.toOption_eq_some_iff.mp hworld
    unfold SocketObject.copy_received at hcopied
    obtain ⟨recv_buffer, hpush, hcopied⟩ := IoBuffer.bind_eq_ok_iff.mp hcopied
    cases hcopied
    exact ⟨count, i, s, recv_buffer, hstage, hi, hs, hpush, (Option.some.inj h).symm⟩
  · cases h

theorem arm_spec {sqe : Bool} (h : x.arm p c sqe = some x') : ∃ i s,
    x.stage c = some .copied ∧ (x.service.world.contexts c).handler = some i ∧
      x.service.world.sockets i = some s ∧ x' = { x with
        service := { x.service with
          world := s.submit_receiving p x.service.world i sqe
          ring := fun c' =>
            if c' ∈ x.service.world.submitted_contexts (s.submit_receiving p x.service.world i sqe) then
              x.service.ring c
            else x.service.ring c' }
        stage := Function.update x.stage c (some .armed) } := by
  unfold arm at h
  split at h
  · rename_i hstage
    obtain ⟨⟨i, s⟩, hreader, h⟩ := Option.bind_eq_some_iff.mp h
    obtain ⟨hi, hs⟩ := reader_spec hreader
    exact ⟨i, s, hstage, hi, hs, (Option.some.inj h).symm⟩
  · cases h

theorem call_spec (h : x.call c = some x') : ∃ i s,
    x.stage c = some .armed ∧ (x.service.world.contexts c).handler = some i ∧
      x.service.world.sockets i = some s ∧ x' = { x with
        service := { x.service with
          world := s.call_received x.service.world i (IoService.current_sockaddr x.service.world c) }
        stage := Function.update x.stage c none } := by
  unfold call at h
  split at h
  · rename_i hstage
    obtain ⟨⟨i, s⟩, hreader, h⟩ := Option.bind_eq_some_iff.mp h
    obtain ⟨hi, hs⟩ := reader_spec hreader
    exact ⟨i, s, hstage, hi, hs, (Option.some.inj h).symm⟩
  · cases h

theorem service_spec {e : ServiceEvent} (h : (receiver p concurrency).step x (.service e) = some x') :
    x.leaves e = true ∧ ∃ t, (rioring.service p concurrency).step x.service e = some t ∧
      x' = { x with service := t } := by
  change (if x.leaves e then (x.service.step p concurrency e).map fun service => { x with service }
    else none) = some x' at h
  split at h
  · rename_i hleaves
    obtain ⟨t, ht, hx'⟩ := Option.map_eq_some_iff.mp h
    exact ⟨hleaves, t, ht, hx'.symm⟩
  · cases h

/-- The contexts with bytes or a handler are those of reads of sockets: in flight
    until they are taken up, and being handled from then on. -/
structure Kept (x : Receiving) : Prop where
  wf : x.service.world.Wf
  addressed : x.service.world.Addressed
  place : ∀ c, x.arrived c ≠ none →
    (x.stage c = none ∧ c ∈ x.service.world.custody.out) ∨ ∃ count, x.stage c = some (.taken count)
  used : ∀ c, x.stage c ≠ none → c ∈ x.service.world.custody.used
  owned : ∀ c, x.arrived c ≠ none ∨ x.stage c ≠ none →
    ∃ i, x.service.world.Reads i c ∧ (x.service.world.sockets i).isSome
  fresh : ∀ i, x.service.world.sockets i = none → x.copied i = []

theorem Kept.start (p : Platform) : ({ service := { world := World.start p } } : Receiving).Kept :=
  ⟨.start p, fun r hr => (by cases hr), fun _ h => absurd rfl h, fun _ h => absurd rfl h,
    fun _ h => (by simp at h), fun _ _ => rfl⟩

theorem Kept.owned_after {moved : ContextId → Prop} {w' : World} (hkept : x.Kept)
    (hkeeps : x.service.world.Keeps w' moved) (hc : x.arrived c ≠ none ∨ x.stage c ≠ none)
    (hstays : ¬moved c) : ∃ i, x.service.world.Reads i c ∧ w'.Reads i c ∧ (w'.sockets i).isSome := by
  obtain ⟨i, hreads, hi⟩ := hkept.owned c hc
  refine ⟨i, hreads, ?_, hkeeps.sockets i hi⟩
  by_cases hstage : x.stage c = none
  · rcases hkept.place c (hc.resolve_right (not_not.mpr hstage)) with ⟨_, hout⟩ | ⟨count, htaken⟩
    · exact (hkeeps.out c hout hstays).2 i hreads
    · rw [hstage] at htaken
      cases htaken
  · exact (hkeeps.used c (hkept.used c hstage) hstays).2 i hreads

/-- A socket that is not there after a step was not there before. -/
theorem Kept.fresh_after {moved : ContextId → Prop} {w' : World} (hkept : x.Kept)
    (hkeeps : x.service.world.Keeps w' moved) {i : ObjectId} (hi : w'.sockets i = none) :
    x.service.world.sockets i = none ∧ x.copied i = [] := by
  have hnone : x.service.world.sockets i = none := by
    by_contra hsome
    have hthere := hkeeps.sockets i (Option.ne_none_iff_isSome.mp hsome)
    rw [hi] at hthere
    cases hthere
  exact ⟨hnone, hkept.fresh i hnone⟩

/-- A step that moves none of them and begins none keeps them. -/
theorem Kept.carry {moved : ContextId → Prop} (hkept : x.Kept)
    (hkeeps : x.service.world.Keeps x'.service.world moved)
    (hstay : ∀ c, x.arrived c ≠ none ∨ x.stage c ≠ none → ¬moved c)
    (harrived : ∀ c, x'.arrived c ≠ none → x.arrived c ≠ none ∧ x'.stage c = x.stage c)
    (hstage : ∀ c, x'.stage c ≠ none → x.stage c ≠ none)
    (hfresh : ∀ i, x'.service.world.sockets i = none → x'.copied i = []) : x'.Kept := by
  refine ⟨hkeeps.wf, hkeeps.addressed, fun c hc => ?_, fun c hc => ?_, fun c hc => ?_, hfresh⟩
  · obtain ⟨hc', hsame⟩ := harrived c hc
    rw [hsame]
    refine (hkept.place c hc').imp_left fun h => ⟨h.1, ?_⟩
    exact (hkeeps.out c h.2 (hstay c (.inl hc'))).1
  · have hc' := hstage c hc
    exact (hkeeps.used c (hkept.used c hc') (hstay c (.inr hc'))).1
  · have hc' := hc.imp (fun h => (harrived c h).1) (hstage c)
    obtain ⟨i, _, hreads, hi⟩ := hkept.owned_after hkeeps hc' (hstay c hc')
    exact ⟨i, hreads, hi⟩

/-- Of a read in flight no handler is under way. -/
theorem Kept.no_stage (hkept : x.Kept) (hc : c ∈ x.service.world.custody.out) : x.stage c = none := by
  by_contra hstage
  exact (hkept.wf.sound.disjoint (hkept.used c hstage)).2 hc

/-- What a step of the service completes brings no bytes, and what returns has called
    its callback. -/
theorem Kept.stays (hkept : x.Kept) {e : Event} {k : Nat} {t : Service}
    (hleaves : x.leaves (.process e k) = true)
    (hprocess : x.service.process p concurrency e k = some t) (c : ContextId)
    (hc : x.arrived c ≠ none ∨ x.stage c ≠ none) : ¬World.moves e c := by
  rintro (rfl | ⟨cqe, sqe, rfl⟩)
  · have hstage : x.stage c = none := by simpa [leaves] using hleaves
    have harrived : x.arrived c ≠ none := hc.resolve_right (not_not.mpr hstage)
    have hstep := (Service.process_spec hprocess).2.1
    change x.service.world.finish c = some t.world at hstep
    unfold World.finish at hstep
    dsimp only at hstep
    split at hstep
    · rename_i hhandling
      have hused : c ∈ x.service.world.custody.used := List.mem_map_of_mem hhandling
      rcases hkept.place c harrived with ⟨_, hout⟩ | ⟨count, htaken⟩
      · exact (hkept.wf.sound.disjoint hused).2 hout
      · rw [hstage] at htaken
        cases htaken
    · cases hstep
  · cases hfind : x.service.world.inflight.find? (·.user_data = c) with
    | none =>
      simp only [leaves, hfind] at hleaves
      cases hleaves
    | some r =>
      have hr := List.mem_of_find?_eq_some hfind
      have huser : r.user_data = c := by simpa using List.find?_some hfind
      have hstage : x.stage c = none := hkept.no_stage (huser ▸ List.mem_map_of_mem hr)
      obtain ⟨i, ⟨htype, _⟩, _⟩ := hkept.owned c hc
      rw [← huser, hkept.wf.contexts r hr] at htype
      simp only [leaves, hfind, htype, bne_self_eq_false, Bool.false_or, Bool.and_eq_true,
        Option.isNone_iff_eq_none] at hleaves
      exact hc.elim (fun h => h hleaves.2) fun h => h hstage

/-- In the steps behind the copy no bytes wait for the context. -/
theorem Kept.settled (hkept : x.Kept) (hstage : x.stage c = some .copied ∨ x.stage c = some .armed) :
    x.arrived c = none := by
  by_contra harrived
  rcases hkept.place c harrived with ⟨hnone, _⟩ | ⟨count, htaken⟩
  · rw [hnone] at hstage
    simp at hstage
  · rw [htaken] at hstage
    simp at hstage

/-- A step of a handler behind the copy. -/
theorem Kept.pass (hkept : x.Kept) {t : Service} {next : Option ReceiveStage}
    (hkeeps : x.service.world.Keeps t.world fun _ => False)
    (hstage : x.stage c = some .copied ∨ x.stage c = some .armed) :
    ({ x with service := t, stage := Function.update x.stage c next } : Receiving).Kept := by
  refine hkept.carry hkeeps (fun _ _ h => h) (fun c' hc' => ⟨hc', ?_⟩) (fun c' hc' => ?_)
    fun i hi => (hkept.fresh_after hkeeps hi).2
  · have hne : c' ≠ c := by
      rintro rfl
      exact hc' (hkept.settled hstage)
    exact Function.update_of_ne hne _ _
  · by_cases heq : c' = c
    · rw [heq]
      rcases hstage with h | h
      · simp [h]
      · simp [h]
    · change Function.update x.stage c next c' ≠ none at hc'
      rwa [Function.update_of_ne heq] at hc'

/-- Every step but those of the service is one of a receive. -/
theorem Kept.piece (hkept : x.Kept) {e : ReceiveEvent} (he : ∀ e', e ≠ .service e')
    (hstep : (receiver p concurrency).step x e = some x') :
    ∃ i s s', x.service.world.Piece x'.service.world i s s' := by
  cases e with
  | arrive c data =>
    obtain ⟨r, hr, _, htype, _, _, _, rfl⟩ := arrive_spec hstep
    obtain ⟨i, s, _, hs, hbase, _⟩ := hkept.wf.read_socket hr htype
    exact ⟨i, s, _, hkept.wf.arrive_piece hs hbase data⟩
  | take c peer =>
    obtain ⟨r, data, hr, rfl, harrived, _, rfl⟩ := take_spec hstep
    obtain ⟨i, ⟨htype, hi⟩, hsome⟩ := hkept.owned _ (.inl (Option.ne_none_iff_exists'.mpr ⟨_, harrived⟩))
    rw [hkept.wf.contexts r hr] at htype hi
    obtain ⟨s, hs⟩ := Option.isSome_iff_exists.mp hsome
    exact ⟨i, s, s, (hkept.wf.take_piece hkept.addressed hr htype hi hs peer).1⟩
  | copy c =>
    obtain ⟨_, i, s, recv_buffer, _, _, hs, _, rfl⟩ := copy_spec hstep
    exact ⟨i, s, _, hkept.wf.copy_piece hs recv_buffer⟩
  | arm c sqe =>
    obtain ⟨i, s, _, _, hs, rfl⟩ := arm_spec hstep
    exact ⟨i, s, s, (hkept.wf.arm_piece hs p sqe).1⟩
  | call c =>
    obtain ⟨i, s, _, _, hs, rfl⟩ := call_spec hstep
    exact ⟨i, s, s, hkept.wf.call_piece hs _⟩
  | service e => exact absurd rfl (he e)

theorem Kept.step (hkept : x.Kept) {e : ReceiveEvent}
    (hstep : (receiver p concurrency).step x e = some x') : x'.Kept := by
  cases e with
  | arrive c data =>
    obtain ⟨r, hr, rfl, htype, harrived, _, _, rfl⟩ := arrive_spec hstep
    obtain ⟨i, s, hi, hs, hbase, _⟩ := hkept.wf.read_socket hr htype
    have hkeeps := (hkept.wf.arrive_piece hs hbase data).keeps_same hkept.wf hkept.addressed
      (deliver_bytes_custody r data)
    have hout : r.user_data ∈ x.service.world.custody.out := List.mem_map_of_mem hr
    have hreads : x.service.world.Reads i r.user_data := by
      rw [Reads, hkept.wf.contexts r hr]
      exact ⟨htype, hi⟩
    have hafter := hkeeps.out r.user_data hout id
    refine ⟨hkeeps.wf, hkeeps.addressed, fun c hc => ?_, fun c hc => ?_, fun c hc => ?_,
      fun i hi => (hkept.fresh_after hkeeps hi).2⟩
    · by_cases heq : c = r.user_data
      · rw [heq]
        exact .inl ⟨hkept.no_stage hout, hafter.1⟩
      · have hc' : x.arrived c ≠ none := by simpa [heq] using hc
        exact (hkept.place c hc').imp_left fun h => ⟨h.1, (hkeeps.out c h.2 id).1⟩
    · exact (hkeeps.used c (hkept.used c hc) id).1
    · by_cases heq : c = r.user_data
      · rw [heq]
        exact ⟨i, hafter.2 i hreads, hkeeps.sockets i (by simp [hs])⟩
      · obtain ⟨j, _, hafter'⟩ := hkept.owned_after hkeeps (c := c) (by simpa [heq] using hc) id
        exact ⟨j, hafter'⟩
  | take c peer =>
    obtain ⟨r, data, hr, rfl, harrived, _, rfl⟩ := take_spec hstep
    obtain ⟨i, ⟨htype, hi⟩, hsome⟩ := hkept.owned _ (.inl (Option.ne_none_iff_exists'.mpr ⟨_, harrived⟩))
    rw [hkept.wf.contexts r hr] at htype hi
    obtain ⟨s, hs⟩ := Option.isSome_iff_exists.mp hsome
    obtain ⟨_, _, hkeeps, hused, hreads⟩ := hkept.wf.take_piece hkept.addressed hr htype hi hs peer
    refine ⟨hkeeps.wf, hkeeps.addressed, fun c hc => ?_, fun c hc => ?_, fun c hc => ?_,
      fun i hi => (hkept.fresh_after hkeeps hi).2⟩
    · by_cases heq : c = r.user_data
      · rw [heq]
        exact .inr ⟨data.length, Function.update_self ..⟩
      · dsimp only
        rw [Function.update_of_ne heq]
        exact (hkept.place c hc).imp_left fun h => ⟨h.1, (hkeeps.out c h.2 heq).1⟩
    · by_cases heq : c = r.user_data
      · rw [heq]
        exact hused
      · have hc' : x.stage c ≠ none := by simpa [heq] using hc
        exact (hkeeps.used c (hkept.used c hc') heq).1
    · by_cases heq : c = r.user_data
      · rw [heq]
        exact ⟨i, hreads, hkeeps.sockets i hsome⟩
      · obtain ⟨j, _, hafter⟩ := hkept.owned_after hkeeps (c := c) (by simpa [heq] using hc) heq
        exact ⟨j, hafter⟩
  | copy c =>
    obtain ⟨count, i, s, recv_buffer, hstage, _, hs, _, rfl⟩ := copy_spec hstep
    have hkeeps := (hkept.wf.copy_piece hs recv_buffer).keeps_same hkept.wf hkept.addressed rfl
    refine hkept.carry hkeeps (fun _ _ h => h) (fun c' hc' => ?_) (fun c' hc' => ?_) fun j hj => ?_
    · have hne : c' ≠ c := by
        rintro rfl
        exact hc' (Function.update_self ..)
      exact ⟨by simpa [hne] using hc', Function.update_of_ne hne _ _⟩
    · by_cases heq : c' = c
      · simp [heq, hstage]
      · simpa [heq] using hc'
    · obtain ⟨hnone, hcopied⟩ := hkept.fresh_after hkeeps hj
      have hne : j ≠ i := by
        rintro rfl
        rw [hs] at hnone
        cases hnone
      exact (Function.update_of_ne hne _ _).trans hcopied
  | arm c sqe =>
    obtain ⟨i, s, hstage, _, hs, rfl⟩ := arm_spec hstep
    have hpiece := (hkept.wf.arm_piece hs p sqe).1
    exact hkept.pass (hpiece.keeps hkept.wf hkept.addressed submit_receiving_passes) (.inl hstage)
  | call c =>
    obtain ⟨i, s, hstage, _, hs, rfl⟩ := call_spec hstep
    have hpiece := hkept.wf.call_piece hs (IoService.current_sockaddr x.service.world c)
    have hcustody : (s.call_received x.service.world i
        (IoService.current_sockaddr x.service.world c)).custody = x.service.world.custody := by
      unfold SocketObject.call_received
      split <;> rfl
    exact hkept.pass (hpiece.keeps_same hkept.wf hkept.addressed hcustody) (.inr hstage)
  | service e =>
    obtain ⟨hleaves, t, ht, rfl⟩ := service_spec hstep
    cases e with
    | process e k =>
      have hkeeps := hkept.wf.step_keeps hkept.addressed (Service.process_spec ht).2.1
      exact hkept.carry hkeeps (hkept.stays hleaves ht) (fun _ h => ⟨h, rfl⟩) (fun _ h => h)
        fun i hi => (hkept.fresh_after hkeeps hi).2
    | stop =>
      rw [(Service.stop_spec ht).2]
      exact ⟨hkept.wf, hkept.addressed, hkept.place, hkept.used, hkept.owned, hkept.fresh⟩
    | cancelled k =>
      rw [(Service.cancelled_spec ht).1]
      exact ⟨hkept.wf, hkept.addressed, hkept.place, hkept.used, hkept.owned, hkept.fresh⟩

end Receiving

end rioring
