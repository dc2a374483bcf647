import Rioring.Inbound.Receiving
import Rioring.Tcp.Sending

namespace rioring

variable {p : Platform}

namespace Inbound

variable {n n' : Inbound} {a : Action}

/-- One stream comes in: while the buffer has storage it holds what has been
    received and not popped, and once it has none nothing more is read. -/
structure Whole (n : Inbound) : Prop where
  single : n.reads.length ≤ 1
  held : n.recv_buffer.raw_buffer.isSome →
    n.recv_buffer.contents = n.received.drop n.popped ∧ n.popped ≤ n.received.length ∧
      .close ∉ n.events
  ended : n.recv_buffer.raw_buffer = none → n.reads = []
  inactive : n.activations = 0 →
    n.recv_buffer.raw_buffer = none ∧ n.received = [] ∧ n.popped = 0 ∧ .close ∉ n.events
  closed : ∃ front, .close ∉ front ∧ (n.events = front ∨ n.events = front ++ [.close])

/-- The buffer a read finds when it completes has its storage. -/
theorem Whole.allocated {r : Request} (hwhole : n.Whole) (h : n.Completes r n') :
    n.recv_buffer.raw_buffer.isSome ∧ n'.reads = [] := by
  obtain ⟨front, back, hreads, rfl⟩ := h
  have hsingle := hwhole.single
  rw [hreads] at hsingle
  simp only [List.length_append, List.length_cons] at hsingle
  refine ⟨?_, List.eq_nil_of_length_eq_zero (by simp only [List.length_append]; omega)⟩
  cases hraw : n.recv_buffer.raw_buffer with
  | some bytes => rfl
  | none =>
    rw [hwhole.ended hraw] at hreads
    simp at hreads

/-- A pop takes from the front what it counts as popped. -/
theorem Whole.pop (hsound : n.Sound p) (hwhole : n.Whole) (size : Nat)
    (hraw : n.recv_buffer.raw_buffer.isSome) :
    (n.recv_buffer.pop size).contents =
        n.received.drop (n.popped + if size ≤ n.recv_buffer.size then size else 0) ∧
      (n.popped + if size ≤ n.recv_buffer.size then size else 0) ≤ n.received.length := by
  obtain ⟨hcontents, hle, _⟩ := hwhole.held hraw
  exact IoBuffer.pop_drop hsound.valid hcontents hle size

/-- Every move of a socket that is activated once keeps the stream whole. -/
theorem Whole.move (hsound : n.Sound p) (hwhole : n.Whole)
    (honce : ∀ sqe, a = .start sqe → n.activations = 0) (hmove : Move p n a n') : n'.Whole := by
  cases hmove with
  | same => exact hwhole
  | start hassign hreceive =>
    have hzero := honce _ rfl
    obtain ⟨hnone, hreceived, hpopped, hunclosed⟩ := hwhole.inactive hzero
    obtain ⟨_, hempty, hraw, _⟩ := IoBuffer.assign_spec p.malloc_le p.data_buffer_size_pos hassign
    obtain ⟨hbuffer, hreceived', hpopped', hevents, hactivations, added, hreads, hlength, _⟩ :=
      hreceive.spec
    have hcount : n'.reads.length ≤ 1 := by
      rw [hreads, hwhole.ended hnone, List.nil_append, hlength]
      exact Bool.toNat_le _
    refine ⟨hcount, fun _ => ?_, fun hraw' => ?_, fun h => ?_, ?_⟩
    · rw [hbuffer, hreceived', hpopped', hevents, hempty, hreceived, hpopped]
      exact ⟨rfl, Nat.zero_le _, hunclosed⟩
    · rw [hbuffer] at hraw'
      rw [hraw'] at hraw
      cases hraw
    · rw [hactivations] at h
      simp at h
    · rw [hevents]
      exact hwhole.closed
  | received hcomplete hdata hbound hpush hreceive registered addr =>
    rename_i n₁ n₂ r data sqe recv_buffer
    obtain ⟨hraw, hnone⟩ := hwhole.allocated hcomplete
    obtain ⟨hcontents, hle, hunclosed⟩ := hwhole.held hraw
    obtain ⟨_, hpushed, hallocated⟩ := hsound.pushed hcomplete hbound hpush
    obtain ⟨_, _, _, hactive⟩ := hsound.completes hcomplete
    obtain ⟨hbuffer, hreceived', hpopped', _, hactivations, added, hreads, hlength, _⟩ :=
      hreceive.spec
    have hsame : n₁.popped = n.popped ∧ n₁.activations = n.activations := by
      obtain ⟨front, back, _, rfl⟩ := hcomplete
      exact ⟨rfl, rfl⟩
    have hevents : Callback.close ∉ n.events ++
        if registered then [Callback.receive recv_buffer.contents addr] else [] := by
      cases registered <;> simp [hunclosed]
    refine ⟨?_, fun _ => ⟨?_, ?_, hevents⟩, fun hraw' => ?_, fun h => ?_, _, hevents, .inl rfl⟩
    · simp only [hreads, hnone, List.nil_append, hlength]
      exact Bool.toNat_le _
    · simp only [hbuffer, hreceived', hpopped', hsame.1]
      rw [hpushed, hcontents, List.drop_append_of_le_length hle]
    · simp only [hreceived', hpopped', hsame.1, List.length_append]
      omega
    · simp only [hbuffer] at hraw'
      rw [hraw', hraw] at hallocated
      cases hallocated
    · simp only [hactivations, hsame.2] at h
      exact absurd h hactive
  | receive_ended hcomplete registered =>
    obtain ⟨hraw, hnone⟩ := hwhole.allocated hcomplete
    obtain ⟨_, _, hunclosed⟩ := hwhole.held hraw
    obtain ⟨_, _, _, hactive⟩ := hsound.completes hcomplete
    have hdestroyed := IoBuffer.destroy_raw_buffer n.recv_buffer
    have hsame := hcomplete
    obtain ⟨front, back, _, rfl⟩ := hsame
    have hnil : front ++ back = [] := hnone
    refine ⟨?_, fun hraw' => ?_, fun _ => hnone, fun h => absurd h hactive, n.events, hunclosed, ?_⟩
    · rw [hnil]
      exact Nat.zero_le _
    · rw [hdestroyed] at hraw'
      cases hraw'
    · cases registered
      · exact .inl (List.append_nil _)
      · exact .inr rfl
  | pop size =>
    obtain ⟨_, _, hallocated, _⟩ := IoBuffer.pop_spec hsound.valid size
    have hnone : (n.recv_buffer.pop size).raw_buffer = none ↔ n.recv_buffer.raw_buffer = none := by
      rw [← Option.not_isSome_iff_eq_none, ← Option.not_isSome_iff_eq_none, hallocated]
    refine ⟨hwhole.single, fun hraw => ?_, fun hraw => hwhole.ended (hnone.mp hraw), fun h => ?_,
      hwhole.closed⟩
    · simp only [hallocated] at hraw
      obtain ⟨hcontents, hle⟩ := hwhole.pop hsound size hraw
      exact ⟨hcontents, hle, (hwhole.held hraw).2.2⟩
    · obtain ⟨hraw, hreceived, hpopped, hunclosed⟩ := hwhole.inactive h
      exact ⟨hnone.mpr hraw, hreceived, (hsound.pop_none hraw size).trans hpopped, hunclosed⟩

end Inbound

theorem View.Fresh.whole {v : View} (hfresh : v.Fresh) : v.inbound.Whole := by
  obtain ⟨hrequests, hhistory, hrecv, _⟩ := hfresh
  have hreads : v.inbound.reads = [] := by simp [View.inbound, hrequests]
  have hevents : v.inbound.events = [] := by simp [View.inbound, hhistory]
  have hraw : v.inbound.recv_buffer.raw_buffer = none := congrArg IoBuffer.raw_buffer hrecv
  refine ⟨by simp [hreads], fun h => ?_, fun _ => hreads, fun _ => ⟨hraw, ?_, ?_, by simp [hevents]⟩,
    [], by simp, .inl hevents⟩
  · rw [hraw] at h
    cases h
  · simp [View.inbound, hhistory]
  · simp [View.inbound, hhistory]

open World

variable {i : ObjectId} {w w' : World} {s s' : SocketObject}

theorem received_whole (hreach : (machine p).Reachable (permits i View.connected_once) w)
    (hs : w.sockets i = some s) :
    (w.view_with i s).inbound.Sound p ∧ (w.view_with i s).inbound.Whole := by
  refine reachable_view (P := fun v => v.inbound.Sound p ∧ v.inbound.Whole)
    (fun v hfresh => ⟨hfresh.inbound.1, hfresh.whole⟩) ?_ hreach (view_eq hs)
  rintro v a v' ⟨hsound, hwhole⟩ hallowed hmove
  refine ⟨hsound.move hmove.inbound, hwhole.move hsound ?_ hmove.inbound⟩
  rintro sqe rfl
  exact hallowed

end rioring
