import Rioring.Inbound

namespace rioring

variable {p : Platform}

namespace Inbound

variable {n n' : Inbound} {a : Action}

/-- What holds of the receiving side whatever happens. -/
structure Sound (p : Platform) (n : Inbound) : Prop where
  valid : n.recv_buffer.Valid
  reads : ∀ r ∈ n.reads, r.context.iov.iov_len = p.data_buffer_size
  inactive : n.activations = 0 → n.reads = [] ∧ n.events = []
  fits : n.activations ≠ 0 → p.data_buffer_size ≤ PTRDIFF_MAX

/-- What a submission does to the receiving side. -/
theorem Receives.spec {sqe : Bool} (h : n.Receives p sqe n') :
    n'.recv_buffer = n.recv_buffer ∧ n'.received = n.received ∧ n'.popped = n.popped ∧
      n'.events = n.events ∧ n'.activations = n.activations ∧
      ∃ added, n'.reads = n.reads ++ added ∧ added.length = sqe.toNat ∧
        ∀ r ∈ added, r.context.iov.iov_len = p.data_buffer_size := by
  obtain ⟨r, hr, rfl⟩ := h
  cases sqe with
  | true => exact ⟨rfl, rfl, rfl, rfl, rfl, [r], rfl, rfl, by simpa using hr⟩
  | false => exact ⟨rfl, rfl, rfl, rfl, rfl, [], by simp, rfl, by simp⟩

theorem Completes.mem {r : Request} (h : n.Completes r n') : r ∈ n.reads := by
  obtain ⟨front, back, hreads, _⟩ := h
  simp [hreads]

theorem Move.ended_mem {r : Request} {res : Int} (hmove : Move p n (.receive_ended r res) n') :
    r ∈ n.reads := by
  cases hmove with
  | same _ hended => exact absurd rfl (hended r res)
  | receive_ended hcomplete => exact hcomplete.mem

theorem Sound.completes {r : Request} (hsound : n.Sound p) (h : n.Completes r n') :
    n'.reads.length + 1 = n.reads.length ∧ (∀ r ∈ n'.reads, r.context.iov.iov_len = p.data_buffer_size) ∧
      r.context.iov.iov_len = p.data_buffer_size ∧ n.activations ≠ 0 := by
  obtain ⟨front, back, hreads, rfl⟩ := h
  have hall := hsound.reads
  rw [hreads] at hall
  refine ⟨by simp [hreads]; omega, fun r' hr' => hall r' ?_, hall r (by simp), fun hactivations => ?_⟩
  · rcases List.mem_append.mp hr' with hr' | hr'
    · exact List.mem_append_left _ hr'
    · exact List.mem_append_right _ (List.mem_cons_of_mem _ hr')
  · rw [(hsound.inactive hactivations).1] at hreads
    simp at hreads

/-- The bytes of a read find `recv_buffer` as `push` needs it. -/
theorem Sound.pushed {r : Request} {data : List UInt8} {recv_buffer : IoBuffer} (hsound : n.Sound p)
    (hcomplete : n.Completes r n') (hlength : data.length ≤ r.context.iov.iov_len)
    (hpush : n.recv_buffer.push p.malloc data = .ok recv_buffer) :
    recv_buffer.Valid ∧ recv_buffer.contents = n.recv_buffer.contents ++ data ∧
      recv_buffer.raw_buffer.isSome = n.recv_buffer.raw_buffer.isSome := by
  obtain ⟨_, _, hr, hactive⟩ := hsound.completes hcomplete
  have hbound : data.length ≤ PTRDIFF_MAX := hlength.trans (hr ▸ hsound.fits hactive)
  obtain ⟨hvalid, hcontents, _, hallocated⟩ :=
    IoBuffer.push_spec p.malloc_le hsound.valid hbound hpush
  exact ⟨hvalid, hcontents, hallocated⟩

/-- Nothing is popped from a buffer without storage. -/
theorem Sound.pop_none (hsound : n.Sound p) (hraw : n.recv_buffer.raw_buffer = none) (size : Nat) :
    (n.popped + if size ≤ n.recv_buffer.size then size else 0) = n.popped := by
  have hlength := hsound.valid.storage_length
  have hoffset := hsound.valid.offset_le
  simp only [IoBuffer.storage, hraw, Option.getD_none, List.length_nil] at hlength
  have hzero : n.recv_buffer.size = 0 := by
    unfold IoBuffer.size
    omega
  rw [hzero]
  split <;> omega

/-- Every move keeps the receiving side sound. -/
theorem Sound.move (hsound : n.Sound p) (hmove : Move p n a n') : n'.Sound p := by
  cases hmove with
  | same => exact hsound
  | start hassign hreceive =>
    obtain ⟨hvalid, _⟩ := IoBuffer.assign_spec p.malloc_le p.data_buffer_size_pos hassign
    obtain ⟨hbuffer, _, _, _, hactivations, added, hreads, _, hadded⟩ := hreceive.spec
    have hbound := p.malloc_le _ (IoBuffer.assign_ok hassign).1
    refine ⟨hbuffer ▸ hvalid, fun r hr => ?_, fun h => ?_, fun _ => hbound⟩
    · rw [hreads] at hr
      exact (List.mem_append.mp hr).elim (hsound.reads r) (hadded r)
    · rw [hactivations] at h
      simp at h
  | received hcomplete hdata hlength hpush hreceive registered addr =>
    obtain ⟨hvalid, _⟩ := hsound.pushed hcomplete hlength hpush
    obtain ⟨_, hkept, _, hactive⟩ := hsound.completes hcomplete
    obtain ⟨hbuffer, _, _, _, hactivations, added, hreads, _, hadded⟩ := hreceive.spec
    obtain ⟨front, back, _, rfl⟩ := hcomplete
    refine ⟨hbuffer ▸ hvalid, fun r hr => ?_, fun h => ?_, fun _ => hsound.fits hactive⟩
    · rw [hreads] at hr
      exact (List.mem_append.mp hr).elim (hkept r) (hadded r)
    · rw [hactivations] at h
      exact absurd h hactive
  | receive_ended hcomplete registered =>
    obtain ⟨_, hkept, _, hactive⟩ := hsound.completes hcomplete
    obtain ⟨front, back, _, rfl⟩ := hcomplete
    exact ⟨(IoBuffer.destroy_spec hsound.valid).1, hkept, fun h => absurd h hactive,
      fun _ => hsound.fits hactive⟩
  | pop size =>
    exact ⟨(IoBuffer.pop_spec hsound.valid size).1, hsound.reads, hsound.inactive, hsound.fits⟩

/-- No receive ends, and each gets its entry. -/
def keeps_receiving (n : Inbound) : Action → Prop
  | .start sqe => n.activations = 0 ∧ sqe = true
  | .received _ _ sqe => sqe = true
  | .receive_ended _ _ => False
  | _ => True

instance : DecidableRel keeps_receiving := fun n a =>
  match a with
  | .start sqe => inferInstanceAs (Decidable (n.activations = 0 ∧ sqe = true))
  | .received _ _ sqe => inferInstanceAs (Decidable (sqe = true))
  | .receive_ended .. => .isFalse id
  | .idle | .set_event | .send .. | .send_to .. | .close .. | .sent .. | .send_failed .. |
    .shut_down .. | .pop .. => .isTrue trivial

/-- Once active, exactly one receive is in flight, and nothing has been closed. -/
structure Live (n : Inbound) : Prop where
  active : n.activations ≠ 0 → n.reads.length = 1 ∧ n.recv_buffer.raw_buffer.isSome
  unclosed : .close ∉ n.events

theorem Live.move (hsound : n.Sound p) (hlive : n.Live) (hallowed : n.keeps_receiving a)
    (hmove : Move p n a n') : n'.Live := by
  obtain ⟨hactive, hunclosed⟩ := hlive
  cases hmove with
  | same => exact ⟨hactive, hunclosed⟩
  | start hassign hreceive =>
    obtain ⟨hfirst, rfl⟩ := hallowed
    obtain ⟨_, _, hraw, _⟩ := IoBuffer.assign_spec p.malloc_le p.data_buffer_size_pos hassign
    obtain ⟨hbuffer, _, _, hevents, _, added, hreads, hlength, _⟩ := hreceive.spec
    refine ⟨fun _ => ⟨?_, by rw [hbuffer]; exact hraw⟩, by rw [hevents]; exact hunclosed⟩
    rw [hreads, (hsound.inactive hfirst).1, List.nil_append, hlength]
    rfl
  | received hcomplete hdata hbound hpush hreceive registered addr =>
    obtain rfl := hallowed
    obtain ⟨_, _, hallocated⟩ := hsound.pushed hcomplete hbound hpush
    obtain ⟨hcount, _, _, hactivations⟩ := hsound.completes hcomplete
    obtain ⟨hone, hraw⟩ := hactive hactivations
    obtain ⟨hbuffer, _, _, _, _, added, hreads, hlength, _⟩ := hreceive.spec
    refine ⟨fun _ => ⟨?_, ?_⟩, ?_⟩
    · simp only [hreads, List.length_append, hlength, Bool.toNat_true]
      omega
    · simp only [hbuffer]
      rw [hallocated]
      exact hraw
    · cases registered <;> simp [hunclosed]
  | receive_ended => exact absurd hallowed id
  | pop size =>
    refine ⟨fun h => ⟨(hactive h).1, ?_⟩, hunclosed⟩
    rw [(IoBuffer.pop_spec hsound.valid size).2.2.1]
    exact (hactive h).2

end Inbound

/-- A new socket has received nothing and has nothing in flight. -/
theorem View.Fresh.inbound {v : View} (hfresh : v.Fresh) :
    v.inbound.Sound p ∧ v.inbound.Live := by
  obtain ⟨hrequests, hhistory, hrecv, _⟩ := hfresh
  have hreads : v.inbound.reads = [] := by simp [View.inbound, hrequests]
  have hevents : v.inbound.events = [] := by simp [View.inbound, hhistory]
  have hactivations : v.inbound.activations = 0 := by simp [View.inbound, hhistory]
  have hbuffer : v.inbound.recv_buffer = {} := hrecv
  refine ⟨⟨?_, ?_, fun _ => ⟨hreads, hevents⟩, fun h => absurd hactivations h⟩,
    fun h => absurd hactivations h, ?_⟩
  · rw [hbuffer]
    exact .default
  · intro r hr
    rw [hreads] at hr
    cases hr
  · simp [hevents]

end rioring
