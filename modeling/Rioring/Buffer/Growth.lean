import Rioring.Buffer.IoBuffer
import Rioring.Transition

namespace rioring

namespace IoBuffer

/-- The calls on one buffer. -/
inductive Op where
  | assign (size : Nat)
  | destroy
  | push (buf : List UInt8)
  | pop (size : Nat)
  | read (size : Nat)

/-- What a call leaves of the buffer. -/
def call (malloc : Nat → Bool) (b : IoBuffer) : Op → Except Fault IoBuffer
  | .assign size => b.assign malloc size
  | .destroy => .ok b.destroy
  | .push buf => b.push malloc buf
  | .pop size => .ok (b.pop size)
  | .read _ => .ok b

/-- A buffer under the calls on it. -/
def machine (malloc : Nat → Bool) : Machine IoBuffer Op where
  init := {}
  step b op := (b.call malloc op).toOption

/-- The sizes that a push of `buf` adds up do not wrap. -/
def Fits (b : IoBuffer) (buf : List UInt8) : Prop :=
  b.buffer_offset + buf.length + b.block_size < 2 ^ 64

/-- A push whose sizes do not wrap, or a pop or a read. -/
def keeps_storage (b : IoBuffer) : Op → Prop
  | .push buf => b.Fits buf
  | .pop _ | .read _ => True
  | .assign _ | .destroy => False

instance (b : IoBuffer) (buf : List UInt8) : Decidable (b.Fits buf) :=
  inferInstanceAs (Decidable (_ < _))

instance : DecidableRel keeps_storage := fun b op =>
  match op with
  | .push buf => inferInstanceAs (Decidable (b.Fits buf))
  | .pop _ | .read _ => .isTrue trivial
  | .assign _ | .destroy => .isFalse id

/-- A call asks the allocator for `n` bytes: an assignment for its size, and a push
    that does not fit for the capacity it grows to. -/
def Asks (b : IoBuffer) : Op → Nat → Prop
  | .assign size, n => n = size
  | .push buf, n => b.buffer_size < b.buffer_offset + buf.length ∧ b.Growth buf.length n
  | .destroy, _ | .pop _, _ | .read _, _ => False

/-- The capacity is whole blocks, one at least. -/
structure Blocks (n : Nat) (b : IoBuffer) : Prop where
  block_size : b.block_size = n
  capacity : ∃ blocks, 1 ≤ blocks ∧ b.buffer_size = blocks * n

variable {malloc : Nat → Bool} {n : Nat} {b b' : IoBuffer}

theorem assign_returns {size : Nat} (hmalloc : malloc size = true) :
    ∃ b', b.assign malloc size = .ok b' := by
  rw [assign, if_pos hmalloc]
  exact ⟨_, rfl⟩

/-- A push into storage returns if it gets what it asks for. -/
theorem push_returns_of_asks (hblock : 0 < b.block_size) {buf : List UInt8} (hfits : b.Fits buf)
    (hmalloc : ∀ n, b.Asks (.push buf) n → malloc n = true) : ∃ b', b.push malloc buf = .ok b' := by
  obtain ⟨capacity, hgrowth, hpush⟩ := push_growth hblock hfits
  obtain ⟨_, _, hreturns, _⟩ := hpush malloc
  exact hreturns fun hover => hmalloc capacity ⟨hover, hgrowth⟩

theorem Blocks.assign (hassign : b.assign malloc n = .ok b') : b'.Blocks n := by
  obtain ⟨_, rfl⟩ := assign_ok hassign
  exact ⟨rfl, 1, le_refl 1, (Nat.one_mul n).symm⟩

theorem Blocks.pop (hblocks : b.Blocks n) (size : Nat) : (b.pop size).Blocks n := by
  obtain ⟨hblock, hcapacity⟩ := hblocks
  rw [IoBuffer.pop]
  split
  · exact ⟨hblock, hcapacity⟩
  · exact ⟨hblock, hcapacity⟩

theorem Blocks.push (hpos : 0 < n) (hblocks : b.Blocks n) {buf : List UInt8} (hfits : b.Fits buf)
    (hpush : b.push malloc buf = .ok b') : b'.Blocks n := by
  obtain ⟨hblock, blocks, hone, hcapacity⟩ := hblocks
  obtain ⟨capacity, hgrowth, hgrown⟩ := push_growth (hblock ▸ hpos) hfits
  obtain ⟨hsize, hsame⟩ := (hgrown malloc).2.2.2 b' hpush
  refine ⟨hsame.trans hblock, ?_⟩
  by_cases hover : b.buffer_size < b.buffer_offset + buf.length
  · obtain ⟨more, _, hmore, _, _⟩ := hgrowth.grows hover
    refine ⟨blocks + more, by omega, ?_⟩
    rw [hsize, hmore, hcapacity, hblock, Nat.add_mul]
  · refine ⟨blocks, hone, ?_⟩
    rw [hsize, hgrowth.fits (not_lt.mp hover), hcapacity]

/-- Pushes and pops keep the capacity at whole blocks. -/
theorem Blocks.run (hpos : 0 < n) (hblocks : b.Blocks n)
    (hrun : (machine malloc).Run keeps_storage b b') : b'.Blocks n := by
  refine hrun.invariant (P := Blocks n) hblocks ?_
  intro b₁ op b₂ _ hblocks hallowed hstep
  have hcall : b₁.call malloc op = .ok b₂ := toOption_eq_some_iff.mp hstep
  cases op with
  | push buf => exact hblocks.push hpos hallowed hcall
  | pop size =>
    cases hcall
    exact hblocks.pop size
  | read size =>
    cases hcall
    exact hblocks
  | assign size => exact hallowed.elim
  | destroy => exact hallowed.elim

/-- A push makes room by whole blocks, in at most one round of its outer loop
    and with at most one block to spare; from an assignment on the capacity
    stays a multiple of the size assigned. -/
theorem push_grows_by_blocks (malloc : Nat → Bool) :
    (∀ (b : IoBuffer) (buf : List UInt8), 0 < b.block_size → b.buffer_offset ≤ b.buffer_size →
      b.Fits buf → ∃ capacity, b.Growth buf.length capacity ∧
        (∀ rounds, make_room malloc buf.length (rounds + 2) b =
          if b.buffer_size < b.buffer_offset + buf.length then b.on_overflow malloc capacity
          else .ok b) ∧
        b.push malloc buf ≠ .error .hang ∧
        ((b.buffer_size < b.buffer_offset + buf.length → malloc capacity = true) →
          ∃ b', b.push malloc buf = .ok b' ∧ b'.capacity = capacity)) ∧
    ∀ (b b₀ b₁ : IoBuffer) (n : Nat), 0 < n → b.assign malloc n = .ok b₀ →
      (machine malloc).Run keeps_storage b₀ b₁ →
        b₁.block_size = n ∧ (∃ blocks, 1 ≤ blocks ∧ b₁.capacity = blocks * n) ∧
        ∀ buf b₂, b₁.Fits buf → b₁.push malloc buf = .ok b₂ →
          b₂.capacity = b₁.capacity ∨ b₂.capacity ≤ b₁.offset + buf.length + n := by
  constructor
  · intro b buf hblock _ hfits
    obtain ⟨capacity, hgrowth, hpush⟩ := push_growth hblock hfits
    obtain ⟨hroom, hends, hreturns, hsize⟩ := hpush malloc
    refine ⟨capacity, hgrowth, hroom, hends, fun hmalloc => ?_⟩
    obtain ⟨b', hok⟩ := hreturns hmalloc
    exact ⟨b', hok, (hsize b' hok).1⟩
  · intro b b₀ b₁ n hpos hassign hrun
    have hblocks := (Blocks.assign hassign).run hpos hrun
    refine ⟨hblocks.block_size, hblocks.capacity, fun buf b₂ hfits hpush => ?_⟩
    obtain ⟨capacity, hgrowth, hgrown⟩ := push_growth (hblocks.block_size ▸ hpos) hfits
    have hsize : b₂.capacity = capacity := ((hgrown malloc).2.2.2 b₂ hpush).1
    by_cases hover : b₁.buffer_size < b₁.buffer_offset + buf.length
    · obtain ⟨_, _, _, _, hbound⟩ := hgrowth.grows hover
      right
      rw [hsize, ← hblocks.block_size]
      exact hbound
    · left
      rw [hsize]
      exact hgrowth.fits (not_lt.mp hover)

theorem push_grows_by_blocks_five_bytes : ∃ b₀ b₁,
    ({} : IoBuffer).assign (fun _ => true) 4 = .ok b₀ ∧
    b₀.push (fun _ => true) [1, 2, 3, 4, 5] = .ok b₁ ∧ b₁.capacity = 8 ∧ b₁.block_size = 4 := by
  have hassign : ({} : IoBuffer).assign (fun _ => true) 4 =
      .ok ⟨some [0, 0, 0, 0], 4, 4, 0, 1⟩ := rfl
  have hlaw := push_grows_by_blocks fun _ => true
  obtain ⟨capacity, hgrowth, _, _, hreturns⟩ :=
    hlaw.1 ⟨some [0, 0, 0, 0], 4, 4, 0, 1⟩ [1, 2, 3, 4, 5] (by decide) (by decide) (by decide)
  obtain ⟨b₁, hpush, hcapacity⟩ := hreturns fun _ => rfl
  obtain ⟨blocks, _, hblocks, hgt, hbound⟩ := hgrowth.grows (by decide)
  change capacity = 4 + blocks * 4 at hblocks
  change 0 + 5 < capacity at hgt
  change capacity ≤ 0 + 5 + 4 at hbound
  have hrun : (machine fun _ => true).Run keeps_storage ⟨some [0, 0, 0, 0], 4, 4, 0, 1⟩ b₁ :=
    .step (e := .push [1, 2, 3, 4, 5]) .refl (by decide) (toOption_eq_some_iff.mpr hpush)
  obtain ⟨hblock, _⟩ := hlaw.2 {} _ b₁ 4 (by decide) hassign hrun
  exact ⟨_, b₁, hassign, hpush, by omega, hblock⟩

end IoBuffer

end rioring
