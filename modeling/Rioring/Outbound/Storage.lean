import Rioring.Outbound.Sending

/-! When the queue of a socket has storage. -/

namespace rioring

namespace Outbound

variable {p : Platform} {o o' : Outbound} {a : Action}

/-- What a move does to the queue. -/
inductive Rebuffers (p : Platform) (o : Outbound) (a : Action) (o' : Outbound) : Prop where
  | assigned (hactivations : o'.activations = o.activations + 1)
      (hassign : o.send_buffer.assign p.malloc p.data_buffer_size = .ok o'.send_buffer)
  | destroyed (hactivations : o'.activations = o.activations)
      (hended : ∃ r res, a = .receive_ended r res) (hdestroy : o'.send_buffer = o.send_buffer.destroy)
  | kept (hactivations : o'.activations = o.activations) (hended : ∀ r res, a ≠ .receive_ended r res)
      (hkept : o'.send_buffer = o.send_buffer)
  | pushed (bytes : Bytes) (hactivations : o'.activations = o.activations)
      (hended : ∀ r res, a ≠ .receive_ended r res)
      (hpush : o.send_buffer.push p.malloc bytes = .ok o'.send_buffer)
  | popped (count : Nat) (hactivations : o'.activations = o.activations)
      (hended : ∀ r res, a ≠ .receive_ended r res)
      (hpop : o'.send_buffer = (o.send_buffer.pop count).elevate)

theorem Queues.rebuffers {bytes : Bytes} {addr : SockAddr} {sqe : Bool}
    (h : Queues p o bytes addr sqe o') : o'.activations = o.activations ∧
      o.send_buffer.push p.malloc bytes = .ok o'.send_buffer := by
  obtain ⟨send_buffer, hpush, ⟨_, hsends⟩ | ⟨_, rfl⟩⟩ := h
  · obtain ⟨hsubmitted, _⟩ := hsends.spec
    rw [hsubmitted.activations, hsubmitted.send_buffer]
    exact ⟨rfl, hpush⟩
  · exact ⟨rfl, hpush⟩

theorem Move.rebuffers (hmove : Move p o a o') : Rebuffers p o a o' := by
  cases hmove with
  | same _ _ _ hended => exact .kept rfl hended rfl
  | start hassign => exact .assigned rfl hassign
  | send addr htype hqueues =>
    obtain ⟨hactivations, hpush⟩ := hqueues.rebuffers
    exact .pushed _ hactivations (by simp) hpush
  | send_to htype hqueues =>
    obtain ⟨hactivations, hpush⟩ := hqueues.rebuffers
    exact .pushed _ hactivations (by simp) hpush
  | close => exact .kept rfl (by simp) rfl
  | receive_ended => exact .destroyed rfl ⟨_, _, rfl⟩ rfl
  | sent garbage addr haddr hcomplete hcount hle hpop ho₂ hsend =>
    rename_i o₁ r count sqe send_buffer o₂
    obtain ⟨front, back, _, rfl⟩ := hcomplete
    rcases hsend with ⟨_, rfl⟩ | ⟨_, hsends⟩
    · exact .popped count (by rw [ho₂]) (by simp) (by rw [ho₂, hpop])
    · obtain ⟨hsubmitted, _⟩ := hsends.spec
      refine .popped count ?_ (by simp) ?_
      · rw [hsubmitted.activations, ho₂]
      · rw [hsubmitted.send_buffer, ho₂, hpop]
  | send_failed hpayload hcomplete =>
    obtain ⟨front, back, _, rfl⟩ := hcomplete
    exact .kept rfl (by simp) rfl

/-- Whether a socket is active after a move: `on_active` has run, and its receive
    side has not ended since. -/
def activity (o : Outbound) (a : Action) (o' : Outbound) (active : Bool) : Bool :=
  if o.activations < o'.activations then true
  else match a with
    | .receive_ended _ _ => false
    | _ => active

/-- The queue of an active socket has storage; there is nothing in that of
    another, and no storage. -/
def Allocated (d : IoDoubleBuffer) : Bool → Prop
  | true => d.main_buffer.raw_buffer.isSome
  | false => d.Unallocated

/-- A queue without storage stays so when it is popped. -/
theorem pop_unallocated {d : IoDoubleBuffer} (hvalid : d.Valid) (hnone : d.Unallocated) (count : Nat) :
    ((d.pop count).elevate).Unallocated := by
  obtain ⟨hnil, hraw⟩ := hnone
  obtain ⟨hpopValid, hpop⟩ := IoDoubleBuffer.pop_spec hvalid count
  obtain ⟨hmain, hsub⟩ := List.append_eq_nil_iff.mp hnil
  have hpopNil : (d.pop count).contents = [] := by
    rw [hpop]
    split
    · rw [hnil, List.drop_nil]
    · exact hnil
  have hsubEmpty : (d.pop count).sub_buffer.empty = true := hvalid.sub.empty_iff.mpr hsub
  have hsame : (d.pop count).elevate = d.pop count := by
    rw [IoDoubleBuffer.elevate, if_neg (by simp [hsubEmpty])]
  rw [hsame]
  refine ⟨hpopNil, ?_⟩
  rw [← Option.not_isSome_iff_eq_none, IoDoubleBuffer.pop, (IoBuffer.pop_spec hvalid.main count).2.2.1,
    hraw]
  simp

/-- A queue with storage stays so when it is popped. -/
theorem pop_allocated {d : IoDoubleBuffer} (hvalid : d.Valid)
    (hallocated : d.main_buffer.raw_buffer.isSome) (count : Nat) :
    ((d.pop count).elevate).main_buffer.raw_buffer.isSome := by
  obtain ⟨hpopValid, _⟩ := IoDoubleBuffer.pop_spec hvalid count
  have hpopped : (d.pop count).main_buffer.raw_buffer.isSome := by
    rw [IoDoubleBuffer.pop, (IoBuffer.pop_spec hvalid.main count).2.2.1]
    exact hallocated
  exact IoDoubleBuffer.elevate_allocated hpopValid hpopped

theorem activity_same {active : Bool} (hactivations : o'.activations = o.activations)
    (hended : ∀ r res, a ≠ .receive_ended r res) : o.activity a o' active = active := by
  unfold activity
  rw [hactivations, if_neg (Nat.lt_irrefl _)]
  split
  · exact absurd rfl (hended _ _)
  · rfl

/-- An activation gives the queue storage, the end of the receive side takes it
    away, and no other move does either. -/
theorem Move.allocates {active : Bool} (hsound : o.Sound) (hmove : Move p o a o')
    (hallocated : Allocated o.send_buffer active) :
    Allocated o'.send_buffer (o.activity a o' active) := by
  cases hmove.rebuffers with
  | assigned hactivations hassign =>
    obtain ⟨_, _, hraw, _⟩ :=
      IoDoubleBuffer.assign_spec p.malloc_le hsound.valid p.data_buffer_size_pos hassign
    have hactive : o.activity a o' active = true := if_pos (by omega)
    rw [hactive]
    exact hraw
  | destroyed hactivations hended hdestroy =>
    obtain ⟨r, res, rfl⟩ := hended
    have hidle : o.activity (.receive_ended r res) o' active = false := if_neg (by omega)
    rw [hidle, hdestroy]
    exact IoDoubleBuffer.destroy_unallocated hsound.valid
  | kept hactivations hended hkept =>
    rw [activity_same hactivations hended, hkept]
    exact hallocated
  | pushed bytes hactivations hended hpush =>
    rw [activity_same hactivations hended]
    obtain ⟨hpushed, _⟩ := hsound.pushed hpush
    cases active with
    | true =>
      rw [Allocated, hpushed.allocated]
      exact hallocated
    | false =>
      obtain ⟨_, hsame⟩ :=
        IoDoubleBuffer.push_unallocated hsound.valid hallocated bytes.property hpush
      rw [hsame]
      exact hallocated
  | popped count hactivations hended hpop =>
    rw [activity_same hactivations hended, hpop]
    cases active with
    | true => exact pop_allocated hsound.valid hallocated count
    | false => exact pop_unallocated hsound.valid hallocated count

/-- An activated socket keeps storage to send from until its receive side ends. -/
theorem Move.allocated (hsound : o.Sound) (hmove : Move p o a o')
    (hended : ∀ r res, a ≠ .receive_ended r res)
    (hallocated : o.activations ≠ 0 → o.send_buffer.main_buffer.raw_buffer.isSome) :
    o'.activations ≠ 0 → o'.send_buffer.main_buffer.raw_buffer.isSome := by
  intro hactive
  cases hmove.rebuffers with
  | assigned _ hassign =>
    exact (IoDoubleBuffer.assign_spec p.malloc_le hsound.valid p.data_buffer_size_pos hassign).2.2.1
  | destroyed _ hreceive _ =>
    obtain ⟨r, res, ha⟩ := hreceive
    exact absurd ha (hended r res)
  | kept hactivations _ hkept =>
    rw [hkept]
    exact hallocated (hactivations ▸ hactive)
  | pushed bytes hactivations _ hpush =>
    rw [(hsound.pushed hpush).1.allocated]
    exact hallocated (hactivations ▸ hactive)
  | popped count hactivations _ hpop =>
    rw [hpop]
    exact pop_allocated hsound.valid (hallocated (hactivations ▸ hactive)) count

end Outbound

end rioring
