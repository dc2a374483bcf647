import Rioring.Buffer.IoDoubleBuffer
import Rioring.Buffer.Queue

namespace rioring

namespace IoDoubleBuffer

/-- The calls on a double buffer after its assignment. -/
inductive Op where
  | push (bytes : Bytes)
  | pop (size : Nat)
  | read (size : Nat)
  | elevate

/-- What a call leaves of the double buffer. -/
def call (malloc : Nat → Bool) (d : IoDoubleBuffer) : Op → Except Fault IoDoubleBuffer
  | .push bytes => d.push malloc bytes
  | .pop size => .ok (d.pop size)
  | .read _ => .ok d
  | .elevate => .ok d.elevate

/-- A double buffer under the calls on it. -/
def machine (p : Platform) : Machine IoDoubleBuffer Op where
  init := {}
  step d op := (d.call p.malloc op).toOption

/-- The sizes that a push adds up in the buffer it enters do not wrap. -/
def Fits (p : Platform) (d : IoDoubleBuffer) : Op → Prop
  | .push bytes =>
    (d.push_target p.malloc bytes.val.length).toOption.all (fun b => decide (b.Fits bytes)) = true
  | .pop _ | .read _ | .elevate => True

instance (p : Platform) : DecidableRel (Fits p) := fun d op =>
  match op with
  | .push bytes => inferInstanceAs (Decidable
      ((d.push_target p.malloc bytes.val.length).toOption.all (fun b => decide (b.Fits bytes)) = true))
  | .pop _ | .read _ | .elevate => .isTrue trivial

/-- A call asks the allocator for `n` bytes: a push for the storage of
    `sub_buffer`, and for what the buffer it enters asks for. -/
def Asks (p : Platform) (d : IoDoubleBuffer) : Op → Nat → Prop
  | .push bytes, n =>
    (d.assigns_sub bytes.val.length ∧
      n = max (size_t (bytes.val.length * 2)) d.main_buffer.capacity) ∨
    ∃ b, d.push_target p.malloc bytes.val.length = .ok b ∧ b.Asks (.push bytes) n
  | .pop _, _ | .read _, _ | .elevate, _ => False

/-- What a call does to the queue. -/
def enqueue (d : IoDoubleBuffer) (op : Op) (q : List UInt8) : List UInt8 :=
  match op with
  | .push bytes => q ++ bytes
  | .pop size => if size ≤ d.size then q.drop size else q
  | .read _ | .elevate => q

/-- A double buffer as a queue, of which it shows a part of the front. -/
structure Shows (d : IoDoubleBuffer) (q : List UInt8) : Prop where
  queue : d.main_buffer.contents ++ d.sub_buffer.contents = q
  size_le : d.size ≤ q.length
  exposed : d.main_buffer.storage.take d.size = q.take d.size
  read : ∀ size, d.read size = if size ≤ d.size then some (q.take size) else none
  pop : ∀ size, d.size < size → d.pop size = d
  empty : d.empty = true ↔ q = []
  elevated : d.elevate.main_buffer.contents ++ d.elevate.sub_buffer.contents = q
  raised : q ≠ [] → 0 < d.elevate.size

/-- A double buffer that has been assigned. -/
structure Assigned (d : IoDoubleBuffer) : Prop where
  valid : d.Valid
  allocated : d.main_buffer.raw_buffer.isSome

variable {p : Platform} {d d' : IoDoubleBuffer} {op : Op} {n : Nat}

theorem Assigned.assign (hpos : 0 < n) (hassign : ({} : IoDoubleBuffer).assign p.malloc n = .ok d) :
    d.Assigned ∧ d.contents = [] := by
  obtain ⟨hvalid, hmain, hraw, hsub⟩ := assign_spec p.malloc_le .default hpos hassign
  refine ⟨⟨hvalid, hraw⟩, ?_⟩
  rw [contents, hmain, hsub]
  rfl

theorem Assigned.call (hassigned : d.Assigned) (hcall : d.call p.malloc op = .ok d') :
    d'.Assigned ∧ d'.contents = d.enqueue op d.contents := by
  obtain ⟨hvalid, hraw⟩ := hassigned
  cases op with
  | push bytes =>
    have hpushed := push_spec p.malloc_le hvalid bytes.property hcall
    exact ⟨⟨hpushed.valid, hpushed.allocated.trans hraw⟩, hpushed.contents⟩
  | pop size =>
    cases hcall
    obtain ⟨hpopValid, hcontents⟩ := pop_spec hvalid size
    refine ⟨⟨hpopValid, ?_⟩, ?_⟩
    · rw [IoDoubleBuffer.pop, (IoBuffer.pop_spec hvalid.main size).2.2.1]
      exact hraw
    · rw [hcontents, enqueue, hvalid.size_eq]
  | read size =>
    cases hcall
    exact ⟨⟨hvalid, hraw⟩, rfl⟩
  | elevate =>
    cases hcall
    obtain ⟨hraised, hcontents, _⟩ := elevate_spec hvalid
    exact ⟨⟨hraised, elevate_allocated hvalid hraw⟩, hcontents⟩

/-- A double buffer shows its own contents. -/
theorem Assigned.shows (hassigned : d.Assigned) : d.Shows d.contents := by
  obtain ⟨hvalid, _⟩ := hassigned
  have hsize := hvalid.size_eq
  have hle : d.size ≤ d.contents.length := by
    rw [hsize, contents, List.length_append]
    exact Nat.le_add_right _ _
  obtain ⟨hraised, helevated, hne⟩ := elevate_spec hvalid
  have hfront : d.contents.take d.size = d.main_buffer.contents := by
    rw [contents, hsize, List.take_left]
  refine ⟨rfl, hle, hfront.symm, fun size => ?_, fun size hlt => ?_, hvalid.empty_iff, helevated,
    fun h => ?_⟩
  · rw [IoDoubleBuffer.read, IoBuffer.read_spec hvalid.main, ← hsize]
    by_cases hfits : size ≤ d.size
    · rw [if_pos hfits, if_pos hfits, ← hfront, List.take_take, Nat.min_eq_left hfits]
    · rw [if_neg hfits, if_neg hfits]
  · have hmore : ¬ size ≤ d.main_buffer.buffer_offset := not_le.mpr hlt
    rw [IoDoubleBuffer.pop, IoBuffer.pop, if_neg hmore]
  · rw [hraised.size_eq]
    exact List.length_pos_iff.mpr (hne h)

/-- The buffer that a push enters has a `block_size` to grow by, and its sizes do
    not wrap. -/
theorem Assigned.push_target (hassigned : d.Assigned) {bytes : Bytes}
    (hfits : d.Fits p (.push bytes)) {b : IoBuffer}
    (htarget : d.push_target p.malloc bytes.val.length = .ok b) :
    0 < b.block_size ∧ b.Fits bytes := by
  obtain ⟨_, hblock, _⟩ := push_target_spec p.malloc_le hassigned.valid htarget
  constructor
  · rw [Nat.pos_iff_ne_zero, Ne, hblock]
    intro hnone
    have hraw := hassigned.allocated
    rw [hnone.2] at hraw
    cases hraw
  · have hfits : _ = true := hfits
    rw [htarget] at hfits
    exact of_decide_eq_true hfits

/-- A call that gets what it asks the allocator for returns. -/
theorem Assigned.returns (hassigned : d.Assigned) (hfits : d.Fits p op)
    (hmalloc : ∀ n, d.Asks p op n → p.malloc n = true) : ∃ d', d.call p.malloc op = .ok d' := by
  cases op with
  | push bytes =>
    obtain ⟨b, htarget⟩ : ∃ b, d.push_target p.malloc bytes.val.length = .ok b :=
      push_target_returns fun hassigns => hmalloc _ (.inl ⟨hassigns, rfl⟩)
    obtain ⟨hpos, hfits⟩ := hassigned.push_target hfits htarget
    obtain ⟨b', hpush⟩ := IoBuffer.push_returns_of_asks hpos hfits fun n hasks =>
      hmalloc n (.inr ⟨b, htarget, hasks⟩)
    exact push_returns_of_target htarget hpush
  | pop | read | elevate => exact ⟨_, rfl⟩

/-- No call ends in a loop. -/
theorem Assigned.ends (hassigned : d.Assigned) (hfits : d.Fits p op) :
    d.call p.malloc op ≠ .error .hang := by
  cases op with
  | push bytes =>
    intro hhang
    obtain ⟨b, htarget, hpush⟩ := (push_hangs_iff d bytes).mp hhang
    obtain ⟨hpos, hfits⟩ := hassigned.push_target hfits htarget
    obtain ⟨_, _, hgrown⟩ := IoBuffer.push_growth hpos hfits
    exact (hgrown p.malloc).2.1 hpush
  | pop | read | elevate => exact fun h => (by cases h)

/-- `main_buffer` with its storage where it was, of the size it was, and its
    bytes still at its start. -/
structure InPlace (d d' : IoDoubleBuffer) : Prop where
  capacity : d'.main_buffer.capacity = d.main_buffer.capacity
  generation : d'.main_buffer.generation = d.main_buffer.generation
  main_prefix : d.main_buffer.contents <+: d'.main_buffer.contents

theorem InPlace.refl : d.InPlace d := ⟨rfl, rfl, List.prefix_refl _⟩

theorem InPlace.trans {d'' : IoDoubleBuffer} (h : d.InPlace d') (h' : d'.InPlace d'') :
    d.InPlace d'' :=
  ⟨h'.capacity.trans h.capacity, h'.generation.trans h.generation, h.main_prefix.trans h'.main_prefix⟩

/-- A push keeps a `main_buffer` that holds bytes in place: the capacity test of
    `push` lets in only what `io_buffer::push` need not grow for. -/
theorem push_in_place (hvalid : d.Valid) (hne : d.main_buffer.contents ≠ []) {bytes : Bytes}
    (hpush : d.push p.malloc bytes = .ok d') : d.InPlace d' := by
  have hpushed := push_spec p.malloc_le hvalid bytes.property hpush
  refine ⟨?_, hpushed.main_stays hne, hpushed.main_prefix⟩
  unfold push at hpush
  split at hpush
  · rw [IoBuffer.bind_eq_ok_iff] at hpush
    obtain ⟨_, _, hpush⟩ := hpush
    cases hpush
    rfl
  · split at hpush
    · rename_i hempty
      exact absurd (hvalid.main.empty_iff.mp hempty) hne
    · split at hpush
      · rw [IoBuffer.bind_eq_ok_iff] at hpush
        obtain ⟨_, _, hpush⟩ := hpush
        rw [IoBuffer.bind_eq_ok_iff] at hpush
        obtain ⟨_, _, hpush⟩ := hpush
        cases hpush
        rfl
      · rename_i hcapacity
        have hfits : d.main_buffer.buffer_offset + bytes.val.length ≤ d.main_buffer.buffer_size := by
          rw [← size_t_add (hvalid.main.offset_le.trans hvalid.main.size_le) bytes.property]
          exact not_lt.mp hcapacity
        rw [IoBuffer.push_fits hvalid.main bytes.property hfits] at hpush
        cases hpush
        rfl

/-- An operation that is a push. -/
def pushes (_ : IoDoubleBuffer) : Op → Prop
  | .push _ => True
  | _ => False

instance : DecidableRel pushes := fun _ op =>
  match op with
  | .push _ => .isTrue trivial
  | .pop _ | .read _ | .elevate => .isFalse id

end IoDoubleBuffer

variable {p : Platform} {d₀ d d' : IoDoubleBuffer} {n : Nat}

/-- A double buffer refines a byte queue, whichever half a push picks and
    whenever it is elevated, and a push that gets what it asks the allocator for
    returns. -/
theorem io_double_buffer_refines_queue (hpos : 0 < n)
    (hassign : ({} : IoDoubleBuffer).assign p.malloc n = .ok d₀) {q : List UInt8}
    (hrun : ((IoDoubleBuffer.machine p).observe [] fun d op _ q => d.enqueue op q).Run
      (fun x op => x.1.Fits p op) (d₀, []) (d, q)) :
    d.Shows q ∧ ∀ op, d.Fits p op →
      ((∀ n, d.Asks p op n → p.malloc n = true) →
        ∃ d', d.call p.malloc op = .ok d' ∧ d'.Shows (d.enqueue op q)) ∧
      ∀ fault, d.call p.malloc op = .error fault → fault = .null_pointer := by
  have hkept : d.Assigned ∧ d.contents = q := by
    refine hrun.invariant (P := fun x => x.1.Assigned ∧ x.1.contents = x.2)
      (IoDoubleBuffer.Assigned.assign hpos hassign) ?_
    rintro ⟨d, q⟩ op ⟨d', q'⟩ _ ⟨hassigned, hq⟩ _ hstep
    obtain ⟨hstep, hq'⟩ := Machine.observe_step hstep
    obtain ⟨hassigned', hcontents⟩ := hassigned.call (IoBuffer.toOption_eq_some_iff.mp hstep)
    refine ⟨hassigned', hcontents.trans ?_⟩
    rw [hq', ← hq]
  obtain ⟨hassigned, rfl⟩ := hkept
  refine ⟨hassigned.shows, fun op hfits => ⟨fun hmalloc => ?_, fun fault hcall => ?_⟩⟩
  · obtain ⟨d', hcall⟩ := hassigned.returns hfits hmalloc
    obtain ⟨hassigned', hcontents⟩ := hassigned.call hcall
    exact ⟨d', hcall, hcontents ▸ hassigned'.shows⟩
  · cases fault with
    | null_pointer => rfl
    | hang => exact absurd hcall (hassigned.ends hfits)

/-- Pushes behind five bytes that have outgrown `main_buffer`, popped in part
    before it is elevated. -/
def queue_in_halves : List IoDoubleBuffer.Op := [
  .push one_byte,
  .push five_bytes,
  .pop 1,
  .push one_byte,
  .elevate,
  .read 2,
  .pop 3,
  .push five_bytes]

theorem io_double_buffer_refines_queue_in_halves : ∃ (d₀ d : IoDoubleBuffer) (q : List UInt8),
    ({} : IoDoubleBuffer).assign Platform.small.malloc 4 = .ok d₀ ∧
      ((IoDoubleBuffer.machine .small).observe [] fun d op _ q => d.enqueue op q).Run
        (fun x op => x.1.Fits .small op) (d₀, []) (d, q) ∧
      q = [4, 5, 1, 1, 2, 3, 4, 5] ∧ d.Shows q ∧
      ∃ d', d.call Platform.small.malloc (.push five_bytes) = .ok d' ∧
        d'.Shows [4, 5, 1, 1, 2, 3, 4, 5, 1, 2, 3, 4, 5] := by
  have hassign : ({} : IoDoubleBuffer).assign Platform.small.malloc 4 =
      .ok { main_buffer := ⟨some [0, 0, 0, 0], 4, 4, 0, 1⟩ } := rfl
  have hexec : (((IoDoubleBuffer.machine .small).observe [] fun d op _ q => d.enqueue op q).exec
      (fun x op => x.1.Fits .small op) ({ main_buffer := ⟨some [0, 0, 0, 0], 4, 4, 0, 1⟩ }, [])
      queue_in_halves).any (fun x => x.2 == [4, 5, 1, 1, 2, 3, 4, 5] &&
        decide (x.1.Fits .small (.push five_bytes) ∧ x.1.main_buffer.capacity ≤ 100 ∧
          (x.1.push_target Platform.small.malloc 5).toOption.all (fun b =>
            decide (b.buffer_offset ≤ 100 ∧ b.block_size ≤ 100)) = true)) = true := by
    decide +kernel
  obtain ⟨⟨d, q⟩, hexec, hq⟩ := (Option.any_eq_true _ _).mp hexec
  simp only [Bool.and_eq_true, beq_iff_eq, decide_eq_true_eq] at hq
  obtain ⟨rfl, hfits, hcapacity, htarget⟩ := hq
  have hrun := Machine.run_of_exec hexec
  obtain ⟨hshows, hreturns⟩ := io_double_buffer_refines_queue (by decide) hassign hrun
  have hfive : five_bytes.val.length = 5 := rfl
  have hmalloc : ∀ n, d.Asks .small (.push five_bytes) n → Platform.small.malloc n = true := by
    intro n hasks
    apply decide_eq_true
    unfold PTRDIFF_MAX
    rcases hasks with ⟨_, rfl⟩ | ⟨b, hb, hover, hgrowth⟩
    · rw [hfive]
      unfold size_t
      omega
    · obtain ⟨_, _, _, _, hbound⟩ := hgrowth.grows hover
      rw [hfive] at hb
      rw [hb] at htarget
      have hsmall : b.buffer_offset ≤ 100 ∧ b.block_size ≤ 100 := of_decide_eq_true htarget
      omega
  exact ⟨_, d, _, hassign, hrun, rfl, hshows, (hreturns _ hfits).1 hmalloc⟩

/-- While `main_buffer` holds bytes, pushes leave it in place, so that what was
    taken from `operator*` and `size` stays valid until the next `pop`. -/
theorem pushes_keep_exposed (hpos : 0 < n)
    (hassign : ({} : IoDoubleBuffer).assign p.malloc n = .ok d₀)
    (hrun : (IoDoubleBuffer.machine p).Run Machine.Any d₀ d) (hne : d.main_buffer.contents ≠ [])
    (hpushes : (IoDoubleBuffer.machine p).Run IoDoubleBuffer.pushes d d') :
    d.InPlace d' ∧ d'.main_buffer.storage.take d.size = d.main_buffer.storage.take d.size := by
  have hassigned : d.Assigned := by
    refine hrun.invariant (P := IoDoubleBuffer.Assigned) (IoDoubleBuffer.Assigned.assign hpos hassign).1 ?_
    intro d op d' _ hassigned _ hstep
    exact (hassigned.call (IoBuffer.toOption_eq_some_iff.mp hstep)).1
  have hkept : d'.Valid ∧ d.InPlace d' := by
    refine hpushes.invariant (P := fun d' => d'.Valid ∧ d.InPlace d') ⟨hassigned.valid, .refl⟩ ?_
    rintro d₁ op d₂ _ ⟨hvalid, hplace⟩ hallowed hstep
    cases op with
    | push bytes =>
      have hpush : d₁.push p.malloc bytes = .ok d₂ := IoBuffer.toOption_eq_some_iff.mp hstep
      have hfilled : d₁.main_buffer.contents ≠ [] := by
        intro hnil
        have hprefix := hplace.main_prefix
        rw [hnil] at hprefix
        exact hne (List.prefix_nil.mp hprefix)
      have hpushed := IoDoubleBuffer.push_spec p.malloc_le hvalid bytes.property hpush
      exact ⟨hpushed.valid, hplace.trans (IoDoubleBuffer.push_in_place hvalid hfilled hpush)⟩
    | pop | read | elevate => exact hallowed.elim
  obtain ⟨hvalid, hplace⟩ := hkept
  refine ⟨hplace, ?_⟩
  obtain ⟨rest, hrest⟩ := hplace.main_prefix
  have hsize : d.size = d.main_buffer.contents.length := hassigned.valid.size_eq
  have hlonger : d.size ≤ d'.size := by
    rw [hsize, hvalid.size_eq]
    exact hplace.main_prefix.length_le
  have hfront : d'.main_buffer.contents.take d.size = d.main_buffer.contents := by
    rw [← hrest, hsize, List.take_left]
  rw [IoBuffer.contents, List.take_take] at hfront
  rw [show min d.size d'.main_buffer.buffer_offset = d.size from Nat.min_eq_left hlonger] at hfront
  exact hfront

theorem pushes_keep_exposed_in_halves : ∃ d₀ d d' : IoDoubleBuffer,
    ({} : IoDoubleBuffer).assign Platform.small.malloc 4 = .ok d₀ ∧
      d.main_buffer.contents = [1] ∧ d'.sub_buffer.contents = [1, 2, 3, 4, 5, 1] ∧ d.InPlace d' := by
  have hassign : ({} : IoDoubleBuffer).assign Platform.small.malloc 4 =
      .ok { main_buffer := ⟨some [0, 0, 0, 0], 4, 4, 0, 1⟩ } := rfl
  have hexec : ((IoDoubleBuffer.machine .small).exec Machine.Any
      { main_buffer := ⟨some [0, 0, 0, 0], 4, 4, 0, 1⟩ } [.push one_byte]).any (fun d =>
        d.main_buffer.contents == [1] && ((IoDoubleBuffer.machine .small).exec IoDoubleBuffer.pushes d
          [.push five_bytes, .push one_byte]).any fun d' =>
            d'.sub_buffer.contents == [1, 2, 3, 4, 5, 1]) = true := by decide +kernel
  obtain ⟨d, hexec, hd⟩ := (Option.any_eq_true _ _).mp hexec
  simp only [Bool.and_eq_true, beq_iff_eq, Option.any_eq_true] at hd
  obtain ⟨hmain, d', hpushes, hsub⟩ := hd
  have hne : d.main_buffer.contents ≠ [] := by simp [hmain]
  exact ⟨_, d, d', hassign, hmain, hsub, (pushes_keep_exposed (by decide) hassign
    (Machine.run_of_exec hexec) hne (Machine.run_of_exec hpushes)).1⟩

end rioring
