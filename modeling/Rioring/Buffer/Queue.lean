import Rioring.Buffer.Growth

/-! Buffers as byte queues. A program may hold any number of them and move one
into another. -/

namespace rioring

namespace IoBuffer

/-- Move construction from `other`: the new buffer and what is left of `other`. -/
def move_construct (other : IoBuffer) : IoBuffer × IoBuffer := ({} : IoBuffer).move_assign other

end IoBuffer

/-- The buffers of a program. -/
abbrev Buffers := Nat → IoBuffer

namespace Buffers

/-- What a program does with its buffers. -/
inductive Op where
  | on (i : Nat) (op : IoBuffer.Op)
  | move_construct (i j : Nat)
  | move_assign (i j : Nat)

/-- Buffer `j` has been moved to buffer `i`. -/
def moved (bs : Buffers) (i j : Nat) (pair : IoBuffer × IoBuffer) : Buffers :=
  Function.update (Function.update bs i pair.1) j pair.2

def step (malloc : Nat → Bool) (bs : Buffers) : Op → Except Fault Buffers
  | .on i op => ((bs i).call malloc op).map (Function.update bs i)
  | .move_construct i j => .ok (bs.moved i j (bs j).move_construct)
  | .move_assign i j => .ok (bs.moved i j ((bs i).move_assign (bs j)))

def machine (p : Platform) : Machine Buffers Op where
  init _ := {}
  step bs op := (bs.step p.malloc op).toOption

/-- The operation asks the allocator for `n` bytes. -/
def Asks (bs : Buffers) : Op → Nat → Prop
  | .on i op, n => (bs i).Asks op n
  | .move_construct .., _ | .move_assign .., _ => False

/-- The sizes that the operation adds up do not wrap. -/
def Fits (bs : Buffers) : Op → Prop
  | .on i (.push buf) => (bs i).Fits buf
  | _ => True

instance : DecidableRel Fits := fun bs op =>
  match op with
  | .on i (.push buf) => inferInstanceAs (Decidable ((bs i).Fits buf))
  | .on _ (.assign _) | .on _ .destroy | .on _ (.pop _) | .on _ (.read _) | .move_construct .. |
    .move_assign .. => .isTrue trivial

end Buffers

/-- The same buffers as byte queues. There is none where a buffer has not been
    assigned, or has been destroyed or moved from. -/
abbrev Queues := Nat → Option (List UInt8)

namespace Queues

/-- The bytes of a queue. -/
def bytes (q : Queues) (i : Nat) : List UInt8 := (q i).getD []

def step (q : Queues) : Buffers.Op → Queues
  | .on i (.assign _) => Function.update q i (some [])
  | .on i .destroy => Function.update q i none
  | .on i (.push buf) => Function.update q i (some (q.bytes i ++ buf))
  | .on i (.pop size) => Function.update q i <|
      (q i).map fun l => if size ≤ l.length then l.drop size else l
  | .on _ (.read _) => q
  | .move_construct i j | .move_assign i j => Function.update (Function.update q i (q j)) j none

/-- A queue begins with an assignment of a positive size, and a buffer is moved
    only to where there is none. -/
def Legal (q : Queues) : Buffers.Op → Prop
  | .on _ (.assign size) => 0 < size
  | .on i (.push _) => (q i).isSome = true
  | .move_construct i j | .move_assign i j => q i = none ∧ i ≠ j
  | .on _ .destroy | .on _ (.pop _) | .on _ (.read _) => True

instance : DecidableRel Legal := fun q op =>
  match op with
  | .on _ (.assign size) => inferInstanceAs (Decidable (0 < size))
  | .on i (.push _) => inferInstanceAs (Decidable ((q i).isSome = true))
  | .move_construct i j | .move_assign i j => inferInstanceAs (Decidable (q i = none ∧ i ≠ j))
  | .on _ .destroy | .on _ (.pop _) | .on _ (.read _) => .isTrue trivial

end Queues

namespace IoBuffer

/-- A buffer that holds a queue, or none. -/
structure Holds (b : IoBuffer) (q : Option (List UInt8)) : Prop where
  valid : b.Valid
  allocated : b.raw_buffer.isSome = q.isSome
  contents : b.contents = q.getD []

variable {p : Platform} {b b' other : IoBuffer} {q : Option (List UInt8)}

theorem Holds.default : Holds {} none := ⟨.default, rfl, rfl⟩

theorem Holds.assign {size : Nat} (hpos : 0 < size) (hassign : b.assign p.malloc size = .ok b') :
    b'.Holds (some []) := by
  obtain ⟨hvalid, hcontents, hraw, _⟩ := assign_spec p.malloc_le hpos hassign
  exact ⟨hvalid, hraw, hcontents⟩

theorem Holds.destroy (hholds : b.Holds q) : b.destroy.Holds none := by
  obtain ⟨hvalid, hcontents⟩ := destroy_spec hholds.valid
  refine ⟨hvalid, ?_, hcontents⟩
  rw [destroy_raw_buffer]

theorem Holds.push {buf : List UInt8} (hholds : b.Holds q) (hsome : q.isSome = true)
    (hfits : b.Fits buf) (hpush : b.push p.malloc buf = .ok b') :
    b'.Holds (some (q.getD [] ++ buf)) := by
  have hwrap : b.buffer_offset + buf.length < 2 ^ 64 := by
    unfold Fits at hfits
    omega
  obtain ⟨hvalid, hcontents, _, hraw⟩ := push_spec_of_lt p.malloc_le hholds.valid hwrap hpush
  refine ⟨hvalid, hraw.trans (hholds.allocated.trans hsome), ?_⟩
  rw [hcontents, hholds.contents]
  rfl

theorem Holds.pop (hholds : b.Holds q) (size : Nat) :
    (b.pop size).Holds (q.map fun l => if size ≤ l.length then l.drop size else l) := by
  obtain ⟨hvalid, hcontents, hraw, _⟩ := pop_spec hholds.valid size
  refine ⟨hvalid, ?_, ?_⟩
  · rw [hraw, hholds.allocated, Option.isSome_map]
  · rw [hcontents, hholds.contents]
    cases q with
    | none => simp
    | some l => rfl

/-- A move transfers the queue whole. -/
theorem Holds.move_assign (hholds : other.Holds q) (b : IoBuffer) :
    (b.move_assign other).1.Holds q ∧ (b.move_assign other).2.Holds none := by
  obtain ⟨⟨hlength, hoffset, hsize, hblock, hpos⟩, hraw, hcontents⟩ := hholds
  refine ⟨⟨⟨hlength, hoffset, hsize, hblock, hpos⟩, hraw, hcontents⟩, ?_⟩
  refine ⟨?_, rfl, rfl⟩
  constructor <;> simp [IoBuffer.move_assign, storage]

end IoBuffer

namespace Buffers

variable {p : Platform} {bs bs' : Buffers} {q : Queues} {op : Op}

/-- Every buffer holds its queue. -/
def Hold (bs : Buffers) (q : Queues) : Prop := ∀ i, (bs i).Holds (q i)

theorem Hold.update (hhold : bs.Hold q) (i : Nat) {b : IoBuffer} {l : Option (List UInt8)}
    (hholds : b.Holds l) : Hold (Function.update bs i b) (Function.update q i l) := by
  intro k
  by_cases hk : k = i
  · subst hk
    rw [Function.update_self, Function.update_self]
    exact hholds
  · rw [Function.update_of_ne hk, Function.update_of_ne hk]
    exact hhold k

/-- Every operation does to the buffers what it does to the queues. -/
theorem Hold.step (hhold : bs.Hold q) (hlegal : q.Legal op) (hfits : bs.Fits op)
    (hstep : bs.step p.malloc op = .ok bs') : bs'.Hold (q.step op) := by
  cases op with
  | on i op =>
    obtain ⟨b, hcall, rfl⟩ := IoBuffer.map_eq_ok_iff.mp hstep
    cases op with
    | assign size => exact hhold.update i (.assign hlegal hcall)
    | destroy =>
      cases hcall
      exact hhold.update i (hhold i).destroy
    | push buf => exact hhold.update i ((hhold i).push hlegal hfits hcall)
    | pop size =>
      cases hcall
      exact hhold.update i ((hhold i).pop size)
    | read size =>
      cases hcall
      rw [Function.update_eq_self]
      exact hhold
  | move_construct i j =>
    cases hstep
    obtain ⟨hnew, hold⟩ := (hhold j).move_assign {}
    exact (hhold.update i hnew).update j hold
  | move_assign i j =>
    cases hstep
    obtain ⟨hnew, hold⟩ := (hhold j).move_assign (bs i)
    exact (hhold.update i hnew).update j hold

/-- A queue that is there has a `block_size` to grow by. -/
theorem Hold.block_pos (hhold : bs.Hold q) {i : Nat} (hsome : (q i).isSome = true) :
    0 < (bs i).block_size := by
  apply (hhold i).valid.block_pos
  rw [(hhold i).allocated]
  exact hsome

/-- An operation that gets what it asks the allocator for returns. -/
theorem Hold.returns (hhold : bs.Hold q) (hlegal : q.Legal op) (hfits : bs.Fits op)
    (hmalloc : ∀ n, bs.Asks op n → p.malloc n = true) : ∃ bs', bs.step p.malloc op = .ok bs' := by
  cases op with
  | on i op =>
    have hcall : ∃ b, (bs i).call p.malloc op = .ok b := by
      cases op with
      | assign size => exact IoBuffer.assign_returns (hmalloc size rfl)
      | push buf => exact IoBuffer.push_returns_of_asks (hhold.block_pos hlegal) hfits hmalloc
      | destroy | pop | read => exact ⟨_, rfl⟩
    obtain ⟨b, hcall⟩ := hcall
    exact ⟨_, IoBuffer.map_eq_ok_iff.mpr ⟨b, hcall, rfl⟩⟩
  | move_construct i j => exact ⟨_, rfl⟩
  | move_assign i j => exact ⟨_, rfl⟩

/-- Only a failed allocation keeps an operation from returning. -/
theorem Hold.fault (hhold : bs.Hold q) (hlegal : q.Legal op) (hfits : bs.Fits op) {fault : Fault}
    (hstep : bs.step p.malloc op = .error fault) : fault = .null_pointer := by
  cases fault with
  | null_pointer => rfl
  | hang =>
    cases op with
    | on i op =>
      cases op with
      | push buf =>
        obtain ⟨_, _, hgrown⟩ := IoBuffer.push_growth (hhold.block_pos hlegal) hfits
        exact absurd (IoBuffer.map_eq_error_iff.mp hstep) (hgrown p.malloc).2.1
      | assign size =>
        rw [Buffers.step, IoBuffer.map_eq_error_iff, IoBuffer.call, IoBuffer.assign] at hstep
        split at hstep <;> cases hstep
      | destroy | pop | read => cases hstep
    | move_construct i j => cases hstep
    | move_assign i j => cases hstep

end Buffers

/-- A buffer refines a byte queue, whatever growth happens and wherever the
    queue is moved: the queue is the front of its storage, `read` shows it, and
    an operation on it returns if it gets what it asks the allocator for. -/
theorem io_buffer_refines_queue {p : Platform} {bs : Buffers} {q : Queues}
    (hreach : ((Buffers.machine p).observe (fun _ => none) fun _ op _ q => Queues.step q op).Reachable
      (fun x op => Queues.Legal x.2 op ∧ Buffers.Fits x.1 op) (bs, q)) :
    (∀ i, (bs i).storage.take (bs i).buffer_offset = q.bytes i ∧
      (bs i).size = (q.bytes i).length ∧ (bs i).buffer_offset ≤ (bs i).buffer_size ∧
      (bs i).storage.length = (bs i).buffer_size ∧
      ∀ size, (bs i).read size =
        if size ≤ (bs i).size then some ((q.bytes i).take size) else none) ∧
    ∀ op, q.Legal op → bs.Fits op →
      ((∀ n, bs.Asks op n → p.malloc n = true) →
        ∃ bs', bs.step p.malloc op = .ok bs' ∧ bs'.Hold (q.step op)) ∧
      ∀ fault, bs.step p.malloc op = .error fault → fault = .null_pointer := by
  have hhold : bs.Hold q := by
    refine Machine.Reachable.observe_invariant (P := Buffers.Hold) hreach (fun _ => .default) ?_
    rintro bs q op bs' _ hhold ⟨hlegal, hfits⟩ hstep
    exact hhold.step hlegal hfits (IoBuffer.toOption_eq_some_iff.mp hstep)
  refine ⟨fun i => ?_, fun op hlegal hfits => ⟨fun hmalloc => ?_, fun fault => hhold.fault hlegal hfits⟩⟩
  · obtain ⟨hvalid, _, hcontents⟩ := hhold i
    have hsize : (bs i).size = (q.bytes i).length := by
      rw [Queues.bytes, ← hcontents, hvalid.contents_length]
      rfl
    refine ⟨hcontents, hsize, hvalid.offset_le, hvalid.storage_length, fun size => ?_⟩
    rw [hsize, Queues.bytes, ← hcontents]
    exact IoBuffer.read_spec hvalid size
  · obtain ⟨bs', hstep⟩ := hhold.returns hlegal hfits hmalloc
    exact ⟨bs', hstep, hhold.step hlegal hfits hstep⟩

/-- A queue that outgrows its storage, is popped, and moves to another buffer,
    which then takes five more bytes. -/
def queue_moves : List Buffers.Op := [
  .on 0 (.assign 4),
  .on 0 (.push five_bytes),
  .on 0 (.read 3),
  .on 0 (.pop 2),
  .move_construct 1 0,
  .on 1 (.push one_byte)]

theorem io_buffer_refines_queue_moves : ∃ (bs : Buffers) (q : Queues),
    ((Buffers.machine .small).observe (fun _ => none) fun _ op _ q => Queues.step q op).Reachable
      (fun x op => Queues.Legal x.2 op ∧ Buffers.Fits x.1 op) (bs, q) ∧
      q.bytes 1 = [3, 4, 5, 1] ∧ (bs 1).storage.take (bs 1).buffer_offset = q.bytes 1 ∧
      (bs 0).storage.take (bs 0).buffer_offset = q.bytes 0 ∧
      ∃ bs', bs.step Platform.small.malloc (.on 1 (.push five_bytes)) = .ok bs' := by
  obtain ⟨⟨bs, q⟩, hreach, hq⟩ := Machine.reachable_of_exec
    ((Buffers.machine .small).observe (fun _ => none) fun _ op _ q => Queues.step q op)
    (fun x op => Queues.Legal x.2 op ∧ Buffers.Fits x.1 op) queue_moves
    (fun x => Queues.bytes x.2 1 == [3, 4, 5, 1] &&
      decide (Queues.Legal x.2 (.on 1 (.push five_bytes)) ∧
        Buffers.Fits x.1 (.on 1 (.push five_bytes)) ∧ (x.1 1).block_size ≤ 100 ∧
        (x.1 1).buffer_offset ≤ 100)) (by decide +kernel)
  simp only [Bool.and_eq_true, beq_iff_eq, decide_eq_true_eq] at hq
  obtain ⟨hq, hlegal, hfits, hblock, hoffset⟩ := hq
  obtain ⟨hqueues, hreturns⟩ := io_buffer_refines_queue hreach
  have hmalloc : ∀ n, bs.Asks (.on 1 (.push five_bytes)) n → Platform.small.malloc n = true := by
    rintro n ⟨hover, hgrowth⟩
    obtain ⟨_, _, _, _, hbound⟩ := hgrowth.grows hover
    have hfive : five_bytes.val.length = 5 := rfl
    apply decide_eq_true
    unfold PTRDIFF_MAX
    omega
  obtain ⟨bs', hstep, _⟩ := (hreturns _ hlegal hfits).1 hmalloc
  exact ⟨bs, q, hreach, hq, (hqueues 1).1, (hqueues 0).1, bs', hstep⟩

end rioring
