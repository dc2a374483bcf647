import Rioring.Receiver.Kept

/-! A receive whose steps nothing comes between. -/

namespace rioring

open World

namespace World

variable {w : World} {i : ObjectId} {s : SocketObject} {r : Request} {cqe : Cqe}

/-- The kernel does the same when the bytes are there before the completion. -/
theorem kernel_delivered (hs : w.sockets i = some s)
    (hbase : r.context.iov.iov_base = .recv_bind_buffer i) (htype : r.context.type = .read)
    (hopcode : r.opcode = r.context.opcode) (hres : 0 < cqe.res) :
    ((w.deliver_bytes r cqe.data).completed r.user_data).kernel r { res := 0, peer := cqe.peer } =
      (w.completed r.user_data).kernel r cqe := by
  have hs₁ : (w.completed r.user_data).sockets i = some s := hs
  have hs₂ : ∀ ctx, ((w.completed r.user_data).set_context r.user_data ctx).sockets i = some s :=
    fun _ => hs
  rw [IoContext.opcode, htype] at hopcode
  cases hctype : r.context.ctype with
  | tcp_context =>
    rw [hctype] at hopcode
    simp only [kernel, hopcode, hres, deliver_bytes, hbase, hs, hs₁, lt_self_iff_false, ↓reduceIte]
    rfl
  | udp_context =>
    rw [hctype] at hopcode
    simp only [kernel, hopcode, hres, hres.le, deliver_bytes, hbase, hs, hs₂, lt_self_iff_false, le_refl,
      ↓reduceIte]
    rfl

theorem taken_out (w : World) (r : Request) (cqe : Cqe) (c : ContextId) :
    ((w.completed c).kernel r cqe).custody.out = w.custody.out.erase c := by
  obtain ⟨addr, msg, hcustody, _⟩ := kernel_custody (w.completed c) r cqe
  rw [hcustody, completed_custody]
  rfl

theorem call_received_custody (w : World) (i : ObjectId) (s : SocketObject) (addr : SockAddr) :
    (s.call_received w i addr).custody = w.custody := by
  unfold SocketObject.call_received
  split <;> rfl

/-- What the service does with a completion that brings bytes, in the words of the steps
    of a receive. -/
theorem Wf.complete_received {p : Platform} {w' : World} {sqe : Bool} (hwf : w.Wf)
    (hr : r ∈ w.inflight) (htype : r.context.type = .read) (hi : r.context.handler = some i)
    (hs : w.sockets i = some s) (hres : 0 < cqe.res)
    (hcomplete : w.complete p r.user_data cqe sqe = some w') :
    cqe.data ≠ [] ∧ cqe.data.length ≤ r.context.iov.iov_len ∧
      ∃ w₂ s₂, w₂ = ((w.deliver_bytes r cqe.data).completed r.user_data).kernel r
          { res := 0, peer := cqe.peer } ∧
        (w₂.contexts r.user_data).handler = some i ∧ w₂.sockets i = some s₂ ∧
        s₂.recv_bind_buffer = cqe.data ∧ ∃ recv_buffer s₃,
          s₂.recv_buffer.push p.malloc cqe.data = .ok recv_buffer ∧ s₃ = { s₂ with recv_buffer } ∧
            w' = s₃.call_received (s₃.submit_receiving p (w₂.set_socket i s₃) i sqe) i
              (IoService.current_sockaddr w₂ r.user_data) := by
  obtain ⟨j, t, hj, ht, hbase, hopcode⟩ := hwf.read_socket hr htype
  rw [hi] at hj
  cases hj
  rw [hs] at ht
  cases ht
  have hfind := hwf.find_inflight hr
  unfold World.complete at hcomplete
  obtain ⟨r', hr', hcomplete⟩ := Option.bind_eq_some_iff.mp hcomplete
  rw [hfind] at hr'
  cases hr'
  split at hcomplete
  · rename_i hallows
    obtain ⟨hle, hlength⟩ := read_length hallows hopcode htype
    have hio := IoBuffer.toOption_eq_some_iff.mp hcomplete
    obtain ⟨_, _, _, hcontext, _⟩ := hwf.completed hfind
    have hs₁ : (w.completed r.user_data).sockets i = some s := hs
    obtain ⟨_, htype₂, hi₂, hrest⟩ := kernel_read hs₁ cqe htype hbase hopcode hcontext
    rw [if_pos hres] at hrest
    obtain ⟨hs₂, _⟩ := hrest
    rw [htype] at htype₂
    rw [hi] at hi₂
    have hpointer : ((w.completed r.user_data).kernel r cqe).to_socket_ptr (some i) =
        some { s with recv_bind_buffer := cqe.data } := hs₂
    unfold IoService.io at hio
    simp only [htype₂, hi₂, hpointer, if_pos hres] at hio
    unfold SocketObject.io_received at hio
    obtain ⟨recv_buffer, hpush, hio⟩ := IoBuffer.bind_eq_ok_iff.mp hio
    dsimp only at hpush
    rw [← hlength, List.take_length] at hpush
    refine ⟨fun hnil => ?_, by omega, _, _, (kernel_delivered hs hbase htype hopcode hres).symm, hi₂, hs₂,
      rfl, recv_buffer, _, hpush, rfl, ?_⟩
    · rw [hnil] at hlength
      simp only [List.length_nil] at hlength
      omega
    · exact (Except.ok.inj hio).symm
  · cases hcomplete

end World

namespace Receiving

variable {p : Platform} {concurrency : Nat} {x : Receiving} {i : ObjectId} {s : SocketObject}
  {r : Request} {cqe : Cqe} {sqe : Bool}

theorem reader_eq {w : World} {c : ContextId} (hi : (w.contexts c).handler = some i)
    (hs : w.sockets i = some s) : w.reader c = some (i, s) := by
  unfold World.reader
  rw [hi, Option.bind_eq_bind, Option.bind_some, hs]
  rfl

theorem take_eq {c : ContextId} {data : List UInt8} (peer : SockAddr)
    (hfind : x.service.world.inflight.find? (·.user_data = c) = some r)
    (harrived : x.arrived c = some data) (hexited : x.service.exited.contains (x.service.ring c) = false)
    (hbusy : x.service.busy (x.service.ring c) = false) : x.take c peer = some { x with
      service := { x.service with world := (x.service.world.completed c).kernel r { res := 0, peer } }
      stage := Function.update x.stage c (some (.taken data.length)) } := by
  unfold take
  rw [hfind, Option.bind_eq_bind, Option.bind_some, harrived, Option.bind_eq_bind, Option.bind_some]
  dsimp only
  rw [hbusy, hexited]
  rfl

theorem copy_eq {c : ContextId} {count : Nat} {recv_buffer : IoBuffer}
    (hstage : x.stage c = some (.taken count)) (hi : (x.service.world.contexts c).handler = some i)
    (hs : x.service.world.sockets i = some s)
    (hpush : s.recv_buffer.push p.malloc (s.recv_bind_buffer.take count) = .ok recv_buffer) :
    x.copy p c = some {
      service := { x.service with world := x.service.world.set_socket i { s with recv_buffer } }
      arrived := Function.update x.arrived c none
      stage := Function.update x.stage c (some .copied)
      copied := Function.update x.copied i (x.copied i ++ s.recv_bind_buffer.take count) } := by
  unfold copy
  rw [hstage]
  dsimp only
  rw [reader_eq hi hs, Option.bind_eq_bind, Option.bind_some]
  dsimp only
  unfold SocketObject.copy_received
  rw [hpush]
  rfl

theorem arm_eq {c : ContextId} (hstage : x.stage c = some .copied)
    (hi : (x.service.world.contexts c).handler = some i) (hs : x.service.world.sockets i = some s) :
    x.arm p c sqe = some { x with
      service := { x.service with
        world := s.submit_receiving p x.service.world i sqe
        ring := fun c' =>
          if c' ∈ x.service.world.submitted_contexts (s.submit_receiving p x.service.world i sqe) then
            x.service.ring c
          else x.service.ring c' }
      stage := Function.update x.stage c (some .armed) } := by
  unfold arm
  rw [if_pos hstage, reader_eq hi hs]
  rfl

theorem call_eq {c : ContextId} (hstage : x.stage c = some .armed)
    (hi : (x.service.world.contexts c).handler = some i) (hs : x.service.world.sockets i = some s) :
    x.call c = some { x with
      service := { x.service with
        world := s.call_received x.service.world i (IoService.current_sockaddr x.service.world c) }
      stage := Function.update x.stage c none } := by
  unfold call
  rw [if_pos hstage, reader_eq hi hs]
  rfl

/-- The next read takes neither the context of the one that is being handled nor the
    address in it. -/
theorem Kept.armed_reader (hkept : x.Kept) (p : Platform) (sqe : Bool) {c : ContextId}
    (hused : c ∈ x.service.world.custody.used)
    (hi : (x.service.world.contexts c).handler = some i) (hs : x.service.world.sockets i = some s) :
    (s.submit_receiving p x.service.world i sqe).sockets i = some s ∧
      (s.submit_receiving p x.service.world i sqe).contexts c = x.service.world.contexts c ∧
      c ∉ (s.submit_receiving p x.service.world i sqe).custody.out ∧
      IoService.current_sockaddr (s.submit_receiving p x.service.world i sqe) c =
        IoService.current_sockaddr x.service.world c := by
  have hpasses : Passes p (sqe = false) x.service.world
      (s.submit_receiving p x.service.world i sqe) := submit_receiving_passes
  obtain ⟨hused', hcontext⟩ := hkept.wf.sound.used_along hused hpasses (by rintro s m hm rfl; exact hm)
  have hwf' := hkept.wf.submit_receiving hs p s sqe
  have hs' : (s.submit_receiving p x.service.world i sqe).sockets i = some s :=
    (congrFun (SocketObject.submit_receiving_submitted p _ i s sqe).sockets i).trans hs
  refine ⟨hs', hcontext, (hwf'.sound.disjoint hused').2, ?_⟩
  have hbefore : x.service.world.to_socket_ptr (x.service.world.contexts c).handler = some s := by
    rw [hi]
    exact hs
  have hafter : (s.submit_receiving p x.service.world i sqe).to_socket_ptr
      (x.service.world.contexts c).handler = some s := by
    rw [hi]
    exact hs'
  exact World.current_sockaddr_congr hcontext hbefore hafter rfl

/-- What is submitted in the step of a completion is what is submitted after its context
    has been taken from those in flight. -/
theorem completed_ring {u t : Service} {w w' : World} {c : ContextId}
    (ht : t = u.processed (.complete c cqe sqe) (u.ring c) t.world)
    (hout : w.custody.out = u.world.custody.out.erase c) (hsame : t.world.custody.out = w'.custody.out)
    (hunsent : c ∉ w'.custody.out) :
    t.ring = fun c' => if c' ∈ w.submitted_contexts w' then u.ring c else u.ring c' := by
  rw [ht]
  funext c'
  refine if_congr ?_ rfl rfl
  rw [submitted_contexts, submitted_contexts, List.mem_filter, List.mem_filter, hsame]
  refine and_congr_right fun hc' => ?_
  have hne : c' ≠ c := by
    rintro rfl
    exact hunsent hc'
  rw [decide_eq_true_iff, decide_eq_true_iff, hout, List.mem_erase_of_ne hne]

/-- A completion that the service handles without an interruption is the five steps in
    a row. -/
theorem Kept.complete_in_steps (hkept : x.Kept) (hr : r ∈ x.service.world.inflight)
    (htype : r.context.type = .read) (hres : 0 < cqe.res) (hnone : x.arrived r.user_data = none)
    {k : Nat} {t : Service}
    (hprocess : x.service.process p concurrency (.complete r.user_data cqe sqe) k = some t) :
    ∃ i x₁ x₂ x₃ x₄, r.context.handler = some i ∧ x.arrive r.user_data cqe.data = some x₁ ∧
      x₁.take r.user_data cqe.peer = some x₂ ∧ x₂.copy p r.user_data = some x₃ ∧
      x₃.arm p r.user_data sqe = some x₄ ∧ x₄.call r.user_data = some { x with
        service := t
        copied := Function.update x.copied i (x.copied i ++ cqe.data) } := by
  obtain ⟨htakes, hstep, ht, _⟩ := Service.process_spec hprocess
  obtain ⟨i, s, hi, hs, hbase, hopcode⟩ := hkept.wf.read_socket hr htype
  have hfind := hkept.wf.find_inflight hr
  obtain ⟨hdata, hlength, w₂, s₂, hw₂, hi₂, hs₂, hbuffer, recv_buffer, s₃, hpush, hs₃, hworld⟩ :=
    hkept.wf.complete_received hr htype hi hs hres hstep
  have harrive : x.arrive r.user_data cqe.data = some { x with
      service := { x.service with world := x.service.world.deliver_bytes r cqe.data }
      arrived := Function.update x.arrived r.user_data (some cqe.data) } := by
    unfold arrive
    rw [hfind]
    exact if_pos ⟨htype, hnone, hdata, hlength⟩
  have hinflight : (x.service.world.deliver_bytes r cqe.data).inflight = x.service.world.inflight := by
    unfold World.deliver_bytes
    simp only [hbase, hs]
    rfl
  have hcustody : (x.service.world.deliver_bytes r cqe.data).custody = x.service.world.custody :=
    deliver_bytes_custody r cqe.data
  simp only [Service.takes, Bool.and_eq_true, beq_iff_eq, Bool.not_eq_true'] at htakes
  obtain ⟨⟨rfl, hexited⟩, hbusy⟩ := htakes
  have hfind₁ : (x.service.world.deliver_bytes r cqe.data).inflight.find? (·.user_data = r.user_data) =
      some r := hinflight ▸ hfind
  have hbusy₁ : (x.service.world.deliver_bytes r cqe.data).custody.used.any
      (fun c => x.service.ring c == x.service.ring r.user_data) = false := hcustody ▸ hbusy
  have hpush₂ : s₂.recv_buffer.push p.malloc (s₂.recv_bind_buffer.take cqe.data.length) =
      .ok recv_buffer := by
    rw [hbuffer, List.take_length]
    exact hpush
  have hkept₁ := hkept.step
    (show (receiver p concurrency).step x (.arrive r.user_data cqe.data) = some _ from harrive)
  have htake := take_eq (x := { x with
      service := { x.service with world := x.service.world.deliver_bytes r cqe.data }
      arrived := Function.update x.arrived r.user_data (some cqe.data) })
    cqe.peer hfind₁ (Function.update_self ..) hexited hbusy₁
  have hkept₂ := hkept₁.step
    (show (receiver p concurrency).step _ (.take r.user_data cqe.peer) = some _ from htake)
  rw [← hw₂] at htake hkept₂
  have hcopy := copy_eq (p := p) (x := { x with
      service := { x.service with world := w₂ }
      arrived := Function.update x.arrived r.user_data (some cqe.data)
      stage := Function.update x.stage r.user_data (some (.taken cqe.data.length)) })
    (Function.update_self ..) hi₂ hs₂ hpush₂
  have hkept₃ := hkept₂.step
    (show (receiver p concurrency).step _ (.copy r.user_data) = some _ from hcopy)
  rw [← hs₃] at hcopy hkept₃
  have hused := hkept₃.used r.user_data (by simp)
  have hs₃' : (w₂.set_socket i s₃).sockets i = some s₃ := set_socket_self ..
  obtain ⟨hs₄, hcontext, hunsent, haddr₄⟩ := hkept₃.armed_reader p sqe hused hi₂ hs₃'
  have haddr : IoService.current_sockaddr (s₃.submit_receiving p (w₂.set_socket i s₃) i sqe)
      r.user_data = IoService.current_sockaddr w₂ r.user_data := by
    refine haddr₄.trans ?_
    have hbefore : w₂.to_socket_ptr (w₂.contexts r.user_data).handler = some s₂ := by
      rw [hi₂]
      exact hs₂
    have hafter : (w₂.set_socket i s₃).to_socket_ptr (w₂.contexts r.user_data).handler = some s₃ := by
      rw [hi₂]
      exact hs₃'
    exact World.current_sockaddr_congr rfl hbefore hafter (by rw [hs₃])
  have hring := completed_ring (w := w₂.set_socket i s₃) ht
    (show w₂.custody.out = _ by rw [hw₂, taken_out, hcustody]) (by rw [hworld, call_received_custody])
    hunsent
  have hservice : t = { x.service with world := t.world, ring := t.ring } := by
    rw [ht]
    rfl
  have harrived : Function.update (Function.update x.arrived r.user_data (some cqe.data))
      r.user_data none = x.arrived := by
    rw [Function.update_idem, ← hnone, Function.update_eq_self]
  have hstage : Function.update (Function.update (Function.update (Function.update x.stage r.user_data
      (some (.taken cqe.data.length))) r.user_data (some .copied)) r.user_data (some .armed))
      r.user_data none = x.stage := by
    rw [Function.update_idem, Function.update_idem, Function.update_idem,
      ← hkept.no_stage (List.mem_map_of_mem hr), Function.update_eq_self]
  refine ⟨i, _, _, _, _, hi, harrive, htake, hcopy, arm_eq (Function.update_self ..) hi₂ hs₃',
    (call_eq (Function.update_self ..) ((congrArg IoContext.handler hcontext).trans hi₂) hs₄).trans ?_⟩
  dsimp only
  rw [haddr, ← hworld, harrived, hstage, ← hring, ← hservice, hbuffer, List.take_length]

/-- Bytes are popped by receive callbacks. -/
def pops_in_callback (s : Service) : ServiceEvent → Prop
  | .process (.pop i _) _ => ∃ h ∈ s.world.handling, s.world.Reads i h.context
  | _ => True

/-- No bytes have arrived that are not copied, and no receive handler is under way. -/
structure Still (x : Receiving) : Prop where
  arrived : ∀ c, x.arrived c = none
  stage : ∀ c, x.stage c = none

/-- While no receive is under way the service goes on as before, but for the
    completions that bring bytes. -/
theorem Still.leaves (hstill : x.Still) {e : ServiceEvent} {t : Service}
    (hpops : pops_in_callback x.service e) (hservice : x.service.step p concurrency e = some t)
    (hbrings : ∀ r ∈ x.service.world.inflight, r.context.type = .read → ∀ cqe sqe k,
      e = .process (.complete r.user_data cqe sqe) k → cqe.res ≤ 0) : x.leaves e = true := by
  unfold Receiving.leaves
  split
  · rename_i c cqe sqe k
    have hstep := (Service.process_spec hservice).2.1
    change x.service.world.complete p c cqe sqe = some t.world at hstep
    obtain ⟨r, hfind, _⟩ := Option.bind_eq_some_iff.mp hstep
    have hdata : r.user_data = c := by simpa using List.find?_some hfind
    rw [hfind]
    by_cases htype : r.context.type = .read
    · have hres := hbrings r (List.mem_of_find?_eq_some hfind) htype cqe sqe k (by rw [hdata])
      simp [hstill.arrived, hres]
    · simp [htype]
  · rename_i i size k
    obtain ⟨h, hh, htype, hhandler⟩ := hpops
    rw [List.any_eq_true]
    exact ⟨h, hh, by simp [htype, hhandler, hstill.stage]⟩
  · simp [hstill.stage]
  · rfl

/-- A run of the service is one of the receiver, in which every receive handler goes on
    without an interruption. -/
theorem of_service {ok : View → Action → Prop} {s : Service}
    (hreach : (rioring.service p concurrency).Reachable
      (fun s e => Service.permits i ok s e ∧ pops_in_callback s e) s) :
    ∃ x, (receiver p concurrency).Reachable (Receiving.permits i ok) x ∧ x.Still ∧ x.service = s := by
  refine Machine.Run.invariant (P := fun s => ∃ x, (receiver p concurrency).Reachable
    (Receiving.permits i ok) x ∧ x.Still ∧ x.service = s) hreach
    ⟨_, .refl, ⟨fun _ => rfl, fun _ => rfl⟩, rfl⟩ ?_
  rintro s e t _ ⟨x, hx, hstill, rfl⟩ ⟨hpermits, hpops⟩ hservice
  have hkept : x.Kept := hx.invariant (.start p) fun _ _ _ _ hkept _ hstep => hkept.step hstep
  by_cases hbrings : ∃ r ∈ x.service.world.inflight, r.context.type = .read ∧ ∃ cqe sqe k,
      e = .process (.complete r.user_data cqe sqe) k ∧ 0 < cqe.res
  · obtain ⟨r, hr, htype, cqe, sqe, k, rfl, hres⟩ := hbrings
    obtain ⟨_, x₁, x₂, x₃, x₄, _, h₁, h₂, h₃, h₄, h₅⟩ :=
      hkept.complete_in_steps hr htype hres (hstill.arrived _) hservice
    have hx₁ : (receiver p concurrency).Reachable (Receiving.permits i ok) x₁ :=
      .step (e := .arrive r.user_data cqe.data) hx trivial h₁
    have hx₂ : (receiver p concurrency).Reachable (Receiving.permits i ok) x₂ :=
      .step (e := .take r.user_data cqe.peer) hx₁ trivial h₂
    have hx₃ : (receiver p concurrency).Reachable (Receiving.permits i ok) x₃ :=
      .step (e := .copy r.user_data) hx₂ trivial h₃
    have hx₄ : (receiver p concurrency).Reachable (Receiving.permits i ok) x₄ :=
      .step (e := .arm r.user_data sqe) hx₃ trivial h₄
    exact ⟨_, .step (e := .call r.user_data) hx₄ trivial h₅, ⟨hstill.arrived, hstill.stage⟩, rfl⟩
  · have hleaves : x.leaves e = true := by
      refine hstill.leaves hpops hservice fun r hr htype cqe sqe k heq => ?_
      by_contra hpos
      exact hbrings ⟨r, hr, htype, cqe, sqe, k, heq, not_le.mp hpos⟩
    have hstep : (receiver p concurrency).step x (.service e) = some { x with service := t } := by
      change (if x.leaves e then (x.service.step p concurrency e).map fun service =>
        { x with service } else none) = _
      rw [if_pos hleaves, show x.service.step p concurrency e = some t from hservice]
      rfl
    exact ⟨_, .step (e := .service e) hx hpermits hstep, ⟨hstill.arrived, hstill.stage⟩, rfl⟩

end Receiving

end rioring
