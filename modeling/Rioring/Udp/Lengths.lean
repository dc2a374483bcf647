import Rioring.Ownership.Exclusive
import Rioring.Tcp.SendComplete

/-! The addresses in the contexts of datagrams, as the contexts go round. -/

namespace rioring

open IoService

namespace View

variable {p : Platform} {v v' : View} {a : Action} {r : Request}

/-- The destination of the datagram that an action submits. -/
def destination (v : View) : Action → Option SockAddr
  | .send_to _ addr _ => some addr
  | .sent r _ _ => some (v.socket.current_sockaddr r.context)
  | _ => none

/-- What a UDP socket submits: a receive, or a datagram with its destination in
    the context. -/
structure SubmitsDatagram (v : View) (a : Action) (r : Request) : Prop where
  read : r.context.type = .read → r.context.ctype = .udp_context
  write : r.context.type = .write → r.context.ctype = .udp_context ∧
    ∃ addr, v.destination a = some addr ∧ SockAddr.addr_len addr.sa_family ≠ 0 ∧
      r.context.addr.sa_family = addr.sa_family ∧ r.context.addr.destination = addr.destination

theorem mem_submit {c : ContextId} {ctx : IoContext} {sqe : Bool}
    (hr : r ∈ (v.submit c ctx sqe).requests) : r ∈ v.requests ∨ r.context = ctx := by
  rw [submit] at hr
  split at hr
  · rcases List.mem_append.mp hr with hr | hr
    · exact .inl hr
    · rw [List.mem_singleton.mp hr]
      exact .inr rfl
  · rw [(error_requests _).1] at hr
    exact .inl hr

theorem Receives.datagram {sqe : Bool} (h : v.Receives p sqe v')
    (hudp : v.socket.socket_type = .udp) (hr : r ∈ v'.requests) :
    r ∈ v.requests ∨ (r.context.type = .read ∧ r.context.ctype = .udp_context) := by
  obtain ⟨c, ctx, hctx, rfl⟩ := h
  rcases mem_submit hr with hr | rfl
  · exact .inl hr
  · exact .inr ⟨hctx.type, hctx.ctype hudp⟩

theorem Sends.datagram {addr : SockAddr} {sqe : Bool} (h : v.Sends addr sqe v')
    (hudp : v.socket.socket_type = .udp) (hr : r ∈ v'.requests) :
    r ∈ v.requests ∨ (r.context.type = .write ∧ r.context.ctype = .udp_context ∧
      SockAddr.addr_len addr.sa_family ≠ 0 ∧ r.context.addr.sa_family = addr.sa_family ∧
      r.context.addr.destination = addr.destination) := by
  rcases h with ⟨c, ctx, hctx, rfl⟩ | ⟨_, _, rfl⟩
  · rcases mem_submit hr with hr | rfl
    · exact .inl hr
    · exact .inr ⟨hctx.type, hctx.datagram hudp⟩
  · exact .inl hr

theorem Shuts.datagram {sqe : Bool} (h : v.Shuts sqe v') (hr : r ∈ v'.requests) :
    r ∈ v.requests ∨ r.context.type = .shutdown := by
  obtain ⟨c, ctx, hctx, rfl⟩ := h
  rcases mem_submit hr with hr | rfl
  · exact .inl hr
  · exact .inr hctx.type

theorem Completes.mem {r' : Request} (h : v.Completes r' v') (hr : r ∈ v'.requests) :
    r ∈ v.requests := by
  obtain ⟨front, back, hrequests, rfl⟩ := h
  rw [hrequests]
  rcases List.mem_append.mp hr with hr | hr
  · exact List.mem_append_left _ hr
  · exact List.mem_append_right _ (List.mem_cons_of_mem _ hr)

/-- Every request of a UDP socket was there before a move or is submitted by it. -/
theorem Move.datagrams (hmove : v.Move p a v') (hudp : v.socket.socket_type = .udp)
    (hr : r ∈ v'.requests) : r ∈ v.requests ∨ v.SubmitsDatagram a r := by
  have hread : r.context.type = .read ∧ r.context.ctype = .udp_context → v.SubmitsDatagram a r := by
    rintro ⟨htype, hctype⟩
    refine ⟨fun _ => hctype, fun hwrite => ?_⟩
    cases htype.symm.trans hwrite
  have hshutdown : r.context.type = .shutdown → v.SubmitsDatagram a r := by
    intro htype
    refine ⟨fun hread => ?_, fun hwrite => ?_⟩
    · cases htype.symm.trans hread
    · cases htype.symm.trans hwrite
  have hwrite : ∀ {addr}, v.destination a = some addr → (r.context.type = .write ∧
      r.context.ctype = .udp_context ∧ SockAddr.addr_len addr.sa_family ≠ 0 ∧
      r.context.addr.sa_family = addr.sa_family ∧
      r.context.addr.destination = addr.destination) → v.SubmitsDatagram a r := by
    rintro addr haddr ⟨htype, hctype, hrest⟩
    refine ⟨fun hread => ?_, fun _ => ⟨hctype, addr, haddr, hrest⟩⟩
    cases htype.symm.trans hread
  cases hmove with
  | idle => exact .inl hr
  | set_event => exact .inl hr
  | start_failed fd => exact .inl hr
  | start_error fd code =>
    rw [(error_requests code).1] at hr
    exact .inl hr
  | start hactive _ hreceive =>
    obtain ⟨recv_buffer, send_buffer, _, _, rfl⟩ := hactive
    exact (hreceive.datagram hudp hr).imp_right hread
  | send_first htype => cases hudp.symm.trans htype
  | send_queued htype => cases hudp.symm.trans htype
  | send_to_first htype hempty hpush hsend =>
    exact (hsend.datagram hudp hr).imp_right (hwrite rfl)
  | send_to_queued => exact .inl hr
  | close_drained hempty hshut => exact (hshut.datagram hr).imp_right hshutdown
  | close_queued => exact .inl hr
  | close_force hshut => exact (hshut.datagram hr).imp_right hshutdown
  | received htype hcomplete hdata hlength hpush hreceive addr =>
    rename_i v₁ v₂ r' data sqe recv_buffer
    have hsocket : v₁.socket = v.socket := hcomplete.remaining.2.2.2
    have hr : r ∈ v₂.requests := by
      split at hr <;> exact hr
    rcases hreceive.datagram (by rw [← hudp, ← hsocket]) hr with hr | hnew
    · exact .inl (hcomplete.mem hr)
    · exact .inr (hread hnew)
  | receive_ended htype hcomplete =>
    refine .inl (hcomplete.mem ?_)
    split at hr <;> exact hr
  | sent_more garbage htype hcomplete hcount hle hempty hsend =>
    have hsocket := hcomplete.remaining.2.2.2
    rcases hsend.datagram (by rw [← hudp, ← hsocket]; rfl) hr with hr | hnew
    · exact .inl (hcomplete.mem hr)
    · exact .inr (hwrite rfl hnew)
  | sent_all garbage htype hcomplete hcount hle hempty hpopped hshut =>
    split at hshut
    · rcases hshut.datagram hr with hr | hnew
      · rw [hpopped] at hr
        exact .inl (hcomplete.mem hr)
      · exact .inr (hshutdown hnew)
    · rw [hshut, hpopped] at hr
      exact .inl (hcomplete.mem hr)
  | send_failed htype hcomplete => exact .inl (hcomplete.mem ((error_requests _).1 ▸ hr))
  | shut_down htype hcomplete =>
    refine .inl (hcomplete.mem ?_)
    split at hr <;> exact hr
  | pop size => exact .inl hr

end View

/-- What an observer keeps of the datagrams: the peer of the last one received
    with each context, and the destination of the last one submitted with it. -/
structure Notes where
  peers : ContextId → Option SockAddr := fun _ => none
  destinations : ContextId → Option SockAddr := fun _ => none

/-- The context has not received a datagram yet, or the last one came from an
    address of at least `len` bytes. -/
def Notes.fits (notes : Notes) (c : ContextId) (len : Nat) : Prop :=
  ∀ peer, notes.peers c = some peer → len ≤ SockAddr.addr_len peer.sa_family

namespace World

/-- The destination of what an event submits: that of the call, or that of the
    datagram whose rest goes out. -/
def destination (notes : Notes) : Event → Option SockAddr
  | .send_to _ _ addr _ => some addr
  | .complete c _ _ => notes.destinations c
  | _ => none

/-- The peer of the datagram that an event receives with a context. -/
def peer (w : World) (e : Event) (c : ContextId) : Option SockAddr :=
  match e with
  | .complete c' cqe _ =>
    if c = c' then (w.inflight.find? (·.user_data = c)).bind (·.peer cqe) else none
  | _ => none

def noted (w : World) (e : Event) (w' : World) (notes : Notes) : Notes where
  peers c := (w.peer e c).or (notes.peers c)
  destinations c :=
    if c ∈ w'.custody.out ∧ c ∉ w.custody.out then destination notes e else notes.destinations c

end World

/-- The library with an observer of its datagrams. -/
def corresponded (p : Platform) : Machine (World × Notes) Event :=
  (machine p).observe {} World.noted

namespace World

variable {p : Platform} {w w' : World} {notes : Notes} {e : Event} {r : Request} {i : ObjectId}

/-- A request of a UDP socket is a receive, or a datagram with the destination
    that was noted for its context. -/
structure Datagram (notes : Notes) (r : Request) : Prop where
  read : r.context.type = .read → r.context.ctype = .udp_context
  write : r.context.type = .write → r.context.ctype = .udp_context ∧
    ∃ addr, notes.destinations r.user_data = some addr ∧ SockAddr.addr_len addr.sa_family ≠ 0 ∧
      r.context.addr.sa_family = addr.sa_family ∧ r.context.addr.destination = addr.destination

/-- The notes say what the contexts hold: the length of the last address that was
    stored, that of a `sockaddr_storage` if none was, and the destinations. -/
structure Corresponds (w : World) (notes : Notes) : Prop where
  lengths : w.custody.Noted {} (·.msg.msg_namelen) fun c => ({} : MsgHdr).stored (notes.peers c)
  datagrams : ∀ r ∈ w.inflight, ∀ i s, r.context.handler = some i → w.sockets i = some s →
    s.socket_type = .udp → Datagram notes r

theorem Corresponds.start : (World.start p).Corresponds {} := by
  refine ⟨⟨fun c => rfl, fun c _ => rfl⟩, fun r hr => ?_⟩
  cases hr

/-- Only a completion stores the length of an address. -/
theorem Corresponds.lengths_step (hwf : w.Wf) (haddressed : w.Addressed)
    (hnotes : w.Corresponds notes) (hstep : (machine p).step w e = some w') :
    w'.custody.Noted {} (·.msg.msg_namelen) fun c =>
      ({} : MsgHdr).stored ((w.noted e w' notes).peers c) := by
  have hclear : ∀ ctx, (cleared ctx).msg.msg_namelen = ctx.msg.msg_namelen := fun _ => rfl
  by_cases hcomplete : ∃ c cqe sqe, e = .complete c cqe sqe
  · obtain ⟨c, cqe, sqe, rfl⟩ := hcomplete
    obtain ⟨hout, r, hfind, ⟨result, hback, hlength⟩, hpasses⟩ := hwf.complete_passes haddressed hstep
    have hlt : c < w.custody.made := hwf.sound.made c (by simp [Custody.held, hout])
    have hstored := hnotes.lengths.come_back hlt result
    rw [← hback] at hstored
    have hsame : Function.update (fun c => ({} : MsgHdr).stored (notes.peers c)) c
        (result (w.custody.records c)).msg.msg_namelen =
        fun k => ({} : MsgHdr).stored ((w.noted (.complete c cqe sqe) w' notes).peers k) := by
      funext k
      have hpeers : (w.noted (.complete c cqe sqe) w' notes).peers k =
          (if k = c then (w.inflight.find? (·.user_data = k)).bind (·.peer cqe) else none).or
            (notes.peers k) := rfl
      rw [hpeers]
      by_cases hk : k = c
      · subst k
        have hlength : (result (w.custody.records c)).msg.msg_namelen =
            (w.contexts c).msg.stored (r.peer cqe) := hlength
        rw [Function.update_self, hlength, if_pos rfl, hfind, Option.bind_some]
        cases r.peer cqe with
        | none => exact hnotes.lengths.records c
        | some peer => rfl
      · rw [Function.update_of_ne hk, if_neg hk, Option.none_or]
    rw [hsame] at hstored
    refine hstored.along hclear hpasses fun _ m hm => ?_
    cases m with
    | submit fill => exact hm
    | lose fill => exact hm.2
    | complete c result => exact hm
    | release c => trivial
  · have hpeers : (w.noted e w' notes).peers = notes.peers := by
      funext c
      cases e with
      | complete c cqe sqe => exact absurd ⟨c, cqe, sqe, rfl⟩ hcomplete
      | _ => rfl
    rw [hpeers]
    refine hnotes.lengths.along hclear (hwf.circulates haddressed hstep) fun _ m hm => ?_
    cases m with
    | submit fill => exact hm
    | lose fill => exact hm.2
    | complete c result =>
      obtain ⟨cqe, sqe, heq⟩ := hm
      exact absurd ⟨c, cqe, sqe, heq⟩ hcomplete
    | release c => trivial

theorem action_send_to {bytes : Bytes} {addr : SockAddr} {sqe : Bool}
    (haction : w.action i e = .send_to bytes addr sqe) : e = .send_to i bytes addr sqe := by
  cases e with
  | send_to j bytes addr sqe =>
    simp only [action] at haction
    split at haction
    · rename_i hj
      cases haction
      rw [hj]
    · cases haction
  | set_event | activate | run_udp | close | pop | connect =>
    simp only [action] at haction
    split at haction <;> cases haction
  | send_locked index sqe =>
    simp only [action] at haction
    split at haction
    · split at haction <;> cases haction
    · cases haction
  | resume c accept_sqe sqe =>
    simp only [action] at haction
    split at haction
    · split at haction <;> cases haction
    · cases haction
  | complete c cqe sqe =>
    simp only [action] at haction
    split at haction
    · split at haction
      · split at haction
        · split at haction <;> cases haction
        · split at haction <;> cases haction
        · cases haction
        · cases haction
      · cases haction
    · cases haction
  | _ => cases haction

/-- Every step keeps the destinations right. -/
theorem Corresponds.datagrams_step (hwf : w.Wf) (haddressed : w.Addressed)
    (hnotes : w.Corresponds notes) (hstep : (machine p).step w e = some w') (hr : r ∈ w'.inflight)
    {s' : SocketObject} (hhandler : r.context.handler = some i) (hs' : w'.sockets i = some s')
    (hudp : s'.socket_type = .udp) : Datagram (w.noted e w' notes) r := by
  have hdoes : Does p w e w' := hwf.step_does hstep
  have hrequests : r ∈ (w'.view_with i s').requests :=
    List.mem_filter.mpr ⟨hr, by simpa using hhandler⟩
  cases hs : w.sockets i with
  | none =>
    have hfresh := (hdoes.moves i).fresh _ (view_eq_none hs) (view_eq hs')
    rw [hfresh.requests] at hrequests
    cases hrequests
  | some s =>
    obtain ⟨v', hv', hmove⟩ := (hdoes.moves i).move _ (view_eq hs)
    rw [view_eq hs'] at hv'
    cases hv'
    have hudp₀ : s.socket_type = .udp := hmove.outbound.socket_type.2.1.symm.trans hudp
    by_cases hout : r.user_data ∈ w.custody.out
    · obtain ⟨r₀, hr₀, huser, hcontext⟩ := hwf.step_kept haddressed hstep hr hout
      obtain ⟨hread, hwrite⟩ := hnotes.datagrams r₀ hr₀ i s (hcontext ▸ hhandler) hs hudp₀
      have hsame : (w.noted e w' notes).destinations r.user_data =
          notes.destinations r.user_data := if_neg fun h => h.2 hout
      rw [hcontext, huser] at hwrite
      rw [hcontext] at hread
      refine ⟨hread, ?_⟩
      rw [hsame]
      exact hwrite
    · have hnew : (w.noted e w' notes).destinations r.user_data = destination notes e :=
        if_pos ⟨List.mem_map_of_mem hr, hout⟩
      rcases hmove.datagrams hudp₀ hrequests with hold | ⟨hread, hwrite⟩
      · exact absurd (List.mem_map_of_mem (List.mem_filter.mp hold).1) hout
      · refine ⟨hread, fun htype => ?_⟩
        obtain ⟨hctype, addr, haddr, hfamily, hsame, hdestination⟩ := hwrite htype
        refine ⟨hctype, ?_⟩
        rw [hnew]
        generalize haction : w.action i e = a at haddr
        cases a with
        | send_to bytes addr' sqe =>
          obtain rfl := action_send_to haction
          cases haddr
          exact ⟨_, rfl, hfamily, hsame, hdestination⟩
        | sent r₀ count sqe =>
          obtain ⟨c, cqe, rfl, hfind, hhandler₀, htype₀, _⟩ := action_sent haction
          have hr₀ : r₀ ∈ w.inflight := List.mem_of_find?_eq_some hfind
          have huser : r₀.user_data = c := by simpa using List.find?_some hfind
          obtain ⟨_, hwrite₀⟩ := hnotes.datagrams r₀ hr₀ i s hhandler₀ hs hudp₀
          obtain ⟨hctype₀, addr₀, hnoted, hfamily₀, hsame₀, hdestination₀⟩ := hwrite₀ htype₀
          have haddr : addr = r₀.context.addr := by
            cases haddr
            change s.current_sockaddr r₀.context = _
            rw [SocketObject.current_sockaddr, hctype₀]
          subst addr
          rw [huser] at hnoted
          exact ⟨addr₀, hnoted, hfamily₀, hsame.trans hsame₀, hdestination.trans hdestination₀⟩
        | _ => cases haddr

theorem Corresponds.reachable (hreach : (corresponded p).Reachable Machine.Any (w, notes)) :
    w.Corresponds notes := by
  refine Machine.Reachable.observe_invariant (P := Corresponds) hreach .start ?_
  intro w notes e w' hreached hnotes _ hstep
  have hwf := Wf.reachable hreached
  have haddressed := reachable_addressed hreached
  exact ⟨hnotes.lengths_step hwf haddressed hstep, fun r hr i s' hhandler hs' hudp =>
    hnotes.datagrams_step hwf haddressed hstep hr hhandler hs' hudp⟩

theorem Corresponds.fits (hnotes : w.Corresponds notes) (hwf : w.Wf) (hr : r ∈ w.inflight)
    {len : Nat} (hlen : len ≤ 128) :
    len ≤ r.context.msg.msg_namelen ↔ notes.fits r.user_data len := by
  have hlength := hnotes.lengths.records r.user_data
  change (w.contexts r.user_data).msg.msg_namelen = _ at hlength
  rw [hwf.contexts r hr] at hlength
  rw [hlength, Notes.fits]
  cases notes.peers r.user_data with
  | none => exact ⟨fun _ peer hpeer => (by cases hpeer), fun _ => hlen⟩
  | some peer =>
    refine ⟨fun hle peer' hpeer => ?_, fun hall => hall peer rfl⟩
    cases hpeer
    exact hle

/-- The kernel stores the whole address of a peer when there is room for it, and
    that is what the receive event is given. -/
theorem Wf.stored_address (hwf : w.Wf) (hr : r ∈ w.inflight) (htype : r.context.type = .read)
    (hctype : r.context.ctype = .udp_context) {cqe : Cqe} (hres : 0 ≤ cqe.res)
    (hfamily : SockAddr.addr_len cqe.peer.sa_family ≠ 0)
    (hroom : SockAddr.addr_len cqe.peer.sa_family ≤ r.context.msg.msg_namelen) :
    (current_sockaddr ((w.completed r.user_data).kernel r cqe) r.user_data).destination =
      cqe.peer.destination := by
  obtain ⟨_, _, _, hopcode⟩ := hwf.typed r hr
  have hrecvmsg : r.opcode = .recvmsg := by rw [hopcode, IoContext.opcode, htype, hctype]
  have hbefore : (w.completed r.user_data).contexts r.user_data = r.context := hwf.contexts r hr
  have hafter : ((w.completed r.user_data).kernel r cqe).contexts r.user_data = { r.context with
      addr := r.context.addr.copy cqe.peer (SockAddr.addr_len cqe.peer.sa_family)
      msg := { r.context.msg with msg_namelen := SockAddr.addr_len cqe.peer.sa_family } } := by
    rw [World.kernel, hrecvmsg]
    dsimp only
    rw [if_pos hres, hbefore, Nat.min_eq_right hroom]
    have hdeliver : ∀ w₁ : World, (w₁.deliver_bytes r cqe.data).contexts = w₁.contexts :=
      fun w₁ => congrArg Custody.records (deliver_bytes_custody r cqe.data)
    split
    · rw [hdeliver]
      exact Function.update_self _ _ _
    · exact Function.update_self _ _ _
  rw [current_sockaddr, hafter, hctype]
  exact SockAddr.destination_copy _ _ hfamily

end World

open World

variable {p : Platform} {w : World} {notes : Notes} {r : Request} {i : ObjectId} {s : SocketObject}

/-- Of the requests of a UDP socket, in every run: a receive has room for an
    address exactly when its context has not last received a shorter one, and with
    that room the receive event is given the whole address; a datagram holds its
    destination, and its length is that of the destination at least exactly when
    its context has not last received a shorter one. -/
theorem udp_lengths_fit_iff (hreach : (corresponded p).Reachable Machine.Any (w, notes))
    (hr : r ∈ w.inflight) (hhandler : r.context.handler = some i) (hs : w.sockets i = some s)
    (hudp : s.socket_type = .udp) :
    (r.context.type = .read → r.opcode = .recvmsg ∧
      (∀ len ≤ 128, len ≤ r.context.msg.msg_namelen ↔ notes.fits r.user_data len) ∧
      ∀ cqe, 0 ≤ cqe.res → SockAddr.addr_len cqe.peer.sa_family ≠ 0 →
        notes.fits r.user_data (SockAddr.addr_len cqe.peer.sa_family) →
        (current_sockaddr ((w.completed r.user_data).kernel r cqe) r.user_data).destination =
          cqe.peer.destination) ∧
    (r.context.type = .write → r.opcode = .sendmsg ∧
      ∃ addr, notes.destinations r.user_data = some addr ∧
        r.context.addr.destination = addr.destination ∧
        (SockAddr.addr_len addr.sa_family ≤ r.context.msg.msg_namelen ↔
          notes.fits r.user_data (SockAddr.addr_len addr.sa_family))) := by
  have hreached := Machine.Reachable.of_observe hreach
  have hnotes := Corresponds.reachable hreach
  have hwf : w.Wf := Wf.reachable hreached
  obtain ⟨_, _, _, hopcode⟩ := hwf.typed r hr
  obtain ⟨hread, hwrite⟩ := hnotes.datagrams r hr i s hhandler hs hudp
  have hbound : ∀ family, SockAddr.addr_len family ≤ 128 := by
    intro family
    unfold SockAddr.addr_len
    split
    · omega
    · split <;> omega
  constructor
  · intro htype
    have hctype := hread htype
    refine ⟨by rw [hopcode, IoContext.opcode, htype, hctype], fun len => hnotes.fits hwf hr, ?_⟩
    intro cqe hres hfamily hfits
    exact hwf.stored_address hr htype hctype hres hfamily
      ((hnotes.fits hwf hr (hbound _)).mpr hfits)
  · intro htype
    obtain ⟨hctype, addr, hnoted, _, _, hdestination⟩ := hwrite htype
    exact ⟨by rw [hopcode, IoContext.opcode, htype, hctype], addr, hnoted, hdestination,
      hnotes.fits hwf hr (hbound _)⟩

/-- A context has received a datagram from an IPv4 address and is taken again. -/
def recycled : List Event := [
  .create_udp,
  .activate 1 7 true true,
  .complete 0 { res := 1, data := [1], peer := { sa_family := AF_INET } } true,
  .finish 0]

/-- A datagram for an IPv6 address goes out with the recycled context. -/
theorem udp_lengths_fit_iff_recycled : ∃ w notes r s addr,
    (corresponded .small).Reachable Machine.Any (w, notes) ∧ r ∈ w.inflight ∧
      r.context.handler = some 1 ∧ w.sockets 1 = some s ∧ s.socket_type = .udp ∧
      r.opcode = .sendmsg ∧ notes.destinations r.user_data = some addr ∧
      r.context.addr.destination = addr.destination ∧
      (SockAddr.addr_len addr.sa_family ≤ r.context.msg.msg_namelen ↔
        notes.fits r.user_data (SockAddr.addr_len addr.sa_family)) := by
  obtain ⟨⟨w, notes⟩, hreach, hw⟩ := Machine.reachable_of_exec (corresponded .small) Machine.Any
    (recycled ++ [.send_to 1 one_byte { sa_family := AF_INET6 } true])
    (fun x => (x.1.sockets 1).any (·.socket_type == .udp) && x.1.inflight.any fun r =>
      r.context.handler == some 1 && r.context.type == .write)
    (by decide +kernel)
  simp only [Bool.and_eq_true, Option.any_eq_true, List.any_eq_true, beq_iff_eq] at hw
  obtain ⟨⟨s, hs, hudp⟩, r, hr, hhandler, htype⟩ := hw
  obtain ⟨hopcode, addr, hnoted, hsame, hlength⟩ :=
    (udp_lengths_fit_iff hreach hr hhandler hs hudp).2 htype
  exact ⟨w, notes, r, s, addr, hreach, hr, hhandler, hs, hudp, hopcode, hnoted, hsame, hlength⟩

/-- A receive of another socket is submitted with the recycled context: it has no
    room for an IPv6 address. -/
theorem udp_length_too_short : ¬ ∀ w r i s, (machine .small).Reachable Machine.Any w →
    r ∈ w.inflight → r.context.handler = some i → w.sockets i = some s → s.socket_type = .udp →
      r.context.type = .read → SockAddr.addr_len AF_INET6 ≤ r.context.msg.msg_namelen := by
  intro hall
  obtain ⟨w, hreach, hw⟩ := Machine.reachable_of_exec (machine .small) Machine.Any
    (recycled ++ [.create_udp, .activate 2 8 true true])
    (fun w => (w.sockets 2).any (·.socket_type == .udp) && w.inflight.any fun r =>
      r.context.handler == some 2 && (r.context.type == .read &&
        decide (r.context.msg.msg_namelen < SockAddr.addr_len AF_INET6)))
    (by decide +kernel)
  simp only [Bool.and_eq_true, Option.any_eq_true, List.any_eq_true, beq_iff_eq,
    decide_eq_true_eq] at hw
  obtain ⟨⟨s, hs, hudp⟩, r, hr, hhandler, htype, hshort⟩ := hw
  exact absurd (hall w r 2 s hreach hr hhandler hs hudp htype) (by omega)

end rioring
