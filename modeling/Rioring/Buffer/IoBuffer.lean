import Rioring.Block
import Rioring.Memory

namespace rioring

/-- How a call can fail to return: a loop without end, or an access through a
    null pointer, such as the one a failed allocation leaves behind. -/
inductive Fault where
  | hang
  | null_pointer
  deriving DecidableEq, Repr

/-- The `io_buffer` of the source. `raw_buffer` is null or the allocation's
    bytes. `generation` is the identity of the storage: it changes whenever
    `raw_buffer` is allocated, reallocated, released or moved. -/
structure IoBuffer where
  raw_buffer : Option (List UInt8) := none
  buffer_size : Nat := 0
  block_size : Nat := 0
  buffer_offset : Nat := 0
  generation : Nat := 0
  deriving DecidableEq, Repr

/-- A loop over one `size_t` has `2 ^ 64` states. One that is still running
    after that many rounds has repeated a state and runs forever. -/
def loop_rounds : Nat := 2 ^ 64 + 1

namespace IoBuffer

variable (malloc : Nat → Bool)

def size (b : IoBuffer) : Nat := b.buffer_offset

def offset (b : IoBuffer) : Nat := b.buffer_offset

def empty (b : IoBuffer) : Bool := b.buffer_offset == 0

def capacity (b : IoBuffer) : Nat := b.buffer_size

/-- The bytes behind `raw_buffer`; there are none behind a null pointer. -/
def storage (b : IoBuffer) : List UInt8 := b.raw_buffer.getD []

/-- The bytes pushed and not yet popped. -/
def contents (b : IoBuffer) : List UInt8 := b.storage.take b.buffer_offset

def assign (b : IoBuffer) (size : Nat) : Except Fault IoBuffer :=
  if malloc size then
    .ok {
      raw_buffer := some (List.replicate size 0)
      buffer_size := size
      block_size := size
      buffer_offset := 0
      generation := b.generation + 1 }
  else .error .null_pointer

def destroy (b : IoBuffer) : IoBuffer :=
  match b.raw_buffer with
  | some _ => { generation := b.generation + 1 }
  | none => b

/-- `main = std::move( other )`: the two buffers after the move assignment. -/
def move_assign (b other : IoBuffer) : IoBuffer × IoBuffer :=
  ({ other with generation := b.generation + 1 }, { generation := other.generation + 1 })

def read (b : IoBuffer) (size : Nat) : Option (List UInt8) :=
  if b.buffer_offset < size then none else some (b.storage.take size)

def pop (b : IoBuffer) (size : Nat) : IoBuffer :=
  if size ≤ b.buffer_offset then
    { b with
      raw_buffer := b.raw_buffer.map (Block.slide · size (b.buffer_offset - size))
      buffer_offset := b.buffer_offset - size }
  else b

def on_overflow (b : IoBuffer) (new_size : Nat) : Except Fault IoBuffer :=
  if malloc new_size then
    .ok { b with
      raw_buffer := some (Block.resize 0 b.storage new_size)
      buffer_size := new_size
      generation := b.generation + 1 }
  else .error .null_pointer

/-- The inner loop of `push`: `new_size` grows by `block_size` until it exceeds
    the bytes required. -/
def grow_new_size (required block_size : Nat) : Nat → Nat → Except Fault Nat
  | 0, _ => .error .hang
  | rounds + 1, new_size =>
    if new_size ≤ required then
      grow_new_size required block_size rounds (size_t (new_size + block_size))
    else .ok new_size

/-- The outer loop of `push`. -/
def make_room (size : Nat) : Nat → IoBuffer → Except Fault IoBuffer
  | 0, _ => .error .hang
  | rounds + 1, b =>
    if b.buffer_size < size_t (b.buffer_offset + size) then do
      let new_size ← grow_new_size (size_t (b.buffer_offset + size)) b.block_size loop_rounds
        (size_t (b.buffer_size + b.block_size))
      let b ← b.on_overflow malloc new_size
      make_room size rounds b
    else .ok b

def push (b : IoBuffer) (buf : List UInt8) : Except Fault IoBuffer := do
  let b ← make_room malloc buf.length loop_rounds b
  .ok { b with
    raw_buffer := b.raw_buffer.map (Block.overwrite · b.buffer_offset buf)
    buffer_offset := size_t (b.buffer_offset + buf.length) }

/-- What every operation keeps: the counters describe the storage, and
    `block_size` is zero exactly while there is none. -/
structure Valid (b : IoBuffer) : Prop where
  storage_length : b.storage.length = b.buffer_size
  offset_le : b.buffer_offset ≤ b.buffer_size
  size_le : b.buffer_size ≤ PTRDIFF_MAX
  block_le : b.block_size ≤ b.buffer_size
  block_pos : b.raw_buffer.isSome → 0 < b.block_size

theorem bind_eq_ok_iff {A B : Type} {x : Except Fault A} {f : A → Except Fault B} {y : B} :
    (x >>= f) = .ok y ↔ ∃ a, x = .ok a ∧ f a = .ok y := by
  cases x <;> simp [Bind.bind, Except.bind]

/-- What comes after a call that ends in a fault does not run. -/
theorem bind_ok_eq_error_iff {A B : Type} {x : Except Fault A} {f : A → B} {fault : Fault} :
    (x >>= fun a => .ok (f a)) = .error fault ↔ x = .error fault := by
  cases x <;> simp [Bind.bind, Except.bind]

theorem map_eq_ok_iff {A B : Type} {x : Except Fault A} {f : A → B} {b : B} :
    x.map f = .ok b ↔ ∃ a, x = .ok a ∧ f a = b := by
  cases x <;> simp [Except.map]

theorem map_eq_error_iff {A B : Type} {x : Except Fault A} {f : A → B} {fault : Fault} :
    x.map f = .error fault ↔ x = .error fault := by
  cases x <;> simp [Except.map]

theorem toOption_eq_some_iff {A : Type} {x : Except Fault A} {a : A} :
    x.toOption = some a ↔ x = .ok a := by
  cases x <;> simp [Except.toOption]

theorem Valid.default : Valid {} := by
  constructor <;> simp [storage]

@[simp] theorem contents_default : contents {} = [] := rfl

theorem Valid.contents_length {b : IoBuffer} (hvalid : b.Valid) :
    b.contents.length = b.buffer_offset := by
  rw [contents, List.length_take, hvalid.storage_length]
  exact Nat.min_eq_left hvalid.offset_le

theorem Valid.empty_iff {b : IoBuffer} (hvalid : b.Valid) : b.empty = true ↔ b.contents = [] := by
  rw [← List.length_eq_zero_iff, hvalid.contents_length]
  simp [empty]

theorem Valid.capacity_pos {b : IoBuffer} (hvalid : b.Valid) (hraw : b.raw_buffer.isSome) :
    0 < b.buffer_size :=
  (hvalid.block_pos hraw).trans_le hvalid.block_le

theorem Valid.isSome_iff {b : IoBuffer} (hvalid : b.Valid) :
    b.raw_buffer.isSome ↔ 0 < b.block_size := by
  refine ⟨hvalid.block_pos, fun hpos => ?_⟩
  cases hraw : b.raw_buffer with
  | some bytes => rfl
  | none =>
    have hlength := hvalid.storage_length
    have hle := hvalid.block_le
    simp only [storage, hraw, Option.getD_none, List.length_nil] at hlength
    omega

/-- Bytes can only be held in storage. -/
theorem isSome_of_contents {b : IoBuffer} (hne : b.contents ≠ []) : b.raw_buffer.isSome := by
  cases hraw : b.raw_buffer with
  | some bytes => rfl
  | none => exact absurd (by simp [contents, storage, hraw]) hne

theorem assign_ok {malloc : Nat → Bool} {b b' : IoBuffer} {size : Nat}
    (hassign : b.assign malloc size = .ok b') :
    malloc size = true ∧
      b' = {
        raw_buffer := some (List.replicate size 0)
        buffer_size := size
        block_size := size
        buffer_offset := 0
        generation := b.generation + 1 } := by
  unfold assign at hassign
  split at hassign
  · rename_i hmalloc
    exact ⟨hmalloc, by cases hassign; rfl⟩
  · cases hassign

/-- Assignment of a positive size gives an empty valid buffer with new storage. -/
theorem assign_spec {malloc : Nat → Bool} (hmalloc : ∀ n, malloc n = true → n ≤ PTRDIFF_MAX)
    {b b' : IoBuffer} {size : Nat} (hpos : 0 < size) (hassign : b.assign malloc size = .ok b') :
    b'.Valid ∧ b'.contents = [] ∧ b'.raw_buffer.isSome ∧ b'.generation = b.generation + 1 := by
  obtain ⟨hsize, rfl⟩ := assign_ok hassign
  refine ⟨?_, rfl, rfl, rfl⟩
  constructor <;> simp [storage, hpos, hmalloc size hsize]

theorem destroy_spec {b : IoBuffer} (hvalid : b.Valid) :
    b.destroy.Valid ∧ b.destroy.contents = [] := by
  unfold destroy
  cases hraw : b.raw_buffer with
  | some bytes => exact ⟨by constructor <;> simp [storage], rfl⟩
  | none => exact ⟨hvalid, by simp [contents, storage, hraw]⟩

theorem destroy_raw_buffer (b : IoBuffer) : b.destroy.raw_buffer = none := by
  rw [destroy]
  split
  · rfl
  · assumption

/-- `pop` drops the first bytes, or nothing when it is asked for too many. -/
theorem pop_spec {b : IoBuffer} (hvalid : b.Valid) (size : Nat) :
    (b.pop size).Valid ∧
      (b.pop size).contents = (if size ≤ b.contents.length then b.contents.drop size else b.contents) ∧
      (b.pop size).raw_buffer.isSome = b.raw_buffer.isSome ∧
      (b.pop size).generation = b.generation := by
  rw [hvalid.contents_length]
  unfold pop
  split
  · rename_i hle
    have hroom : size + (b.buffer_offset - size) ≤ b.storage.length := by
      rw [hvalid.storage_length]
      have := hvalid.offset_le
      omega
    have hstorage : (b.raw_buffer.map (Block.slide · size (b.buffer_offset - size))).getD [] =
        Block.slide b.storage size (b.buffer_offset - size) := by
      cases hraw : b.raw_buffer with
      | some bytes => simp [storage, hraw]
      | none => simp [storage, hraw, Block.slide, Block.overwrite]
    refine ⟨?_, ?_, by simp, rfl⟩
    · constructor
      · simp only [storage]
        rw [hstorage, Block.slide_length hroom, hvalid.storage_length]
      · exact (Nat.sub_le _ _).trans hvalid.offset_le
      · exact hvalid.size_le
      · exact hvalid.block_le
      · intro hsome
        exact hvalid.block_pos (by simpa using hsome)
    · simp only [contents, storage]
      rw [hstorage, Block.slide_take hroom, Nat.add_sub_cancel' hle]
      rfl
  · exact ⟨hvalid, rfl, rfl, rfl⟩

/-- A pop from a buffer that holds the rest of a list takes from the front of it. -/
theorem pop_drop {b : IoBuffer} (hvalid : b.Valid) {bytes : List UInt8} {popped : Nat}
    (hcontents : b.contents = bytes.drop popped) (hle : popped ≤ bytes.length) (size : Nat) :
    (b.pop size).contents = bytes.drop (popped + if size ≤ b.size then size else 0) ∧
      (popped + if size ≤ b.size then size else 0) ≤ bytes.length := by
  have hlength : b.contents.length = b.size := hvalid.contents_length
  have hbound : b.size = bytes.length - popped := by rw [← hlength, hcontents, List.length_drop]
  rw [(pop_spec hvalid size).2.1, hlength]
  split
  · rename_i hsize
    refine ⟨by rw [hcontents, List.drop_drop], ?_⟩
    omega
  · exact ⟨hcontents, hle⟩

/-- `read` returns the first bytes, if there are as many. -/
theorem read_spec {b : IoBuffer} (hvalid : b.Valid) (size : Nat) :
    b.read size = if size ≤ b.contents.length then some (b.contents.take size) else none := by
  rw [hvalid.contents_length, read]
  by_cases hle : size ≤ b.buffer_offset
  · rw [if_neg (not_lt.mpr hle), if_pos hle, contents, List.take_take, Nat.min_eq_left hle]
  · rw [if_pos (not_le.mp hle), if_neg hle]

theorem on_overflow_spec {malloc : Nat → Bool} (hmalloc : ∀ n, malloc n = true → n ≤ PTRDIFF_MAX)
    {b b' : IoBuffer} {new_size : Nat} (hvalid : b.Valid) (hblock : 0 < b.block_size)
    (hgrow : b.buffer_size ≤ new_size) (hover : b.on_overflow malloc new_size = .ok b') :
    b'.Valid ∧ b'.contents = b.contents ∧ b'.buffer_size = new_size ∧
      b'.buffer_offset = b.buffer_offset ∧ b'.block_size = b.block_size := by
  unfold on_overflow at hover
  split at hover
  · rename_i hsize
    cases hover
    have hoffset := hvalid.offset_le
    have hblock_le := hvalid.block_le
    refine ⟨?_, ?_, rfl, rfl, rfl⟩
    · constructor <;> simp only [storage, Option.getD_some, Block.resize_length]
      · omega
      · exact hmalloc new_size hsize
      · omega
      · exact fun _ => hblock
    · exact Block.resize_take (by rw [hvalid.storage_length]; exact hoffset) (by simpa using by omega)
  · cases hover

/-- The inner loop can only end above the bytes required. -/
theorem grow_new_size_gt {required block_size rounds new_size result : Nat}
    (hgrow : grow_new_size required block_size rounds new_size = .ok result) : required < result := by
  induction rounds generalizing new_size with
  | zero => cases hgrow
  | succ rounds ih =>
    rw [grow_new_size] at hgrow
    split at hgrow
    · exact ih hgrow
    · cases hgrow
      omega

/-- With `block_size` zero the inner loop of `push` makes no progress. -/
theorem grow_new_size_zero {required rounds new_size : Nat} (hle : new_size ≤ required)
    (hbound : required < 2 ^ 64) : grow_new_size required 0 rounds new_size = .error .hang := by
  induction rounds with
  | zero => rfl
  | succ rounds ih =>
    rw [grow_new_size, if_pos hle, Nat.add_zero, size_t_eq (by omega)]
    exact ih

/-- Room that is there already is not made again. -/
theorem make_room_fits {malloc : Nat → Bool} {b : IoBuffer} {size rounds : Nat}
    (hfits : size_t (b.buffer_offset + size) ≤ b.buffer_size) :
    make_room malloc size (rounds + 1) b = .ok b := by
  rw [make_room, if_neg (by omega)]

theorem make_room_spec {malloc : Nat → Bool} (hmalloc : ∀ n, malloc n = true → n ≤ PTRDIFF_MAX)
    {size : Nat} {rounds : Nat} {b b' : IoBuffer} (hvalid : b.Valid)
    (hwrap : b.buffer_offset + size < 2 ^ 64) (hroom : make_room malloc size rounds b = .ok b') :
    b'.Valid ∧ b'.contents = b.contents ∧ b'.buffer_offset = b.buffer_offset ∧
      b'.block_size = b.block_size ∧ b'.buffer_offset + size ≤ b'.buffer_size := by
  induction rounds generalizing b with
  | zero => cases hroom
  | succ rounds ih =>
    rw [make_room, size_t_eq hwrap] at hroom
    split at hroom
    · rename_i hlt
      rw [bind_eq_ok_iff] at hroom
      obtain ⟨new_size, hgrow, hroom⟩ := hroom
      rw [bind_eq_ok_iff] at hroom
      obtain ⟨grown, hover, hroom⟩ := hroom
      have hnew := grow_new_size_gt hgrow
      have hblock : 0 < b.block_size := by
        rcases Nat.eq_zero_or_pos b.block_size with hzero | hpos
        · rw [hzero, grow_new_size_zero (by rw [Nat.add_zero, size_t_eq] <;> omega) hwrap] at hgrow
          cases hgrow
        · exact hpos
      obtain ⟨hvalid', hcontents, _, hoffset, hblock'⟩ :=
        on_overflow_spec hmalloc hvalid hblock (by omega) hover
      obtain ⟨h1, h2, h3, h4, h5⟩ := ih hvalid' (hoffset ▸ hwrap) hroom
      exact ⟨h1, h2.trans hcontents, h3.trans hoffset, h4.trans hblock', h5⟩
    · cases hroom
      exact ⟨hvalid, rfl, rfl, rfl, by omega⟩

/-- A push that returns has appended exactly the given bytes, whatever growth
    happened. A push that fits leaves the storage where it is. -/
theorem push_spec_of_lt {malloc : Nat → Bool} (hmalloc : ∀ n, malloc n = true → n ≤ PTRDIFF_MAX)
    {b b' : IoBuffer} {buf : List UInt8} (hvalid : b.Valid)
    (hwrap : b.buffer_offset + buf.length < 2 ^ 64) (hpush : b.push malloc buf = .ok b') :
    b'.Valid ∧ b'.contents = b.contents ++ buf ∧
      (b.buffer_offset + buf.length ≤ b.buffer_size → b'.generation = b.generation) ∧
      b'.raw_buffer.isSome = b.raw_buffer.isSome := by
  unfold push at hpush
  rw [bind_eq_ok_iff] at hpush
  obtain ⟨grown, hroom, hpush⟩ := hpush
  obtain ⟨hgrown, hcontents, hoffset, hblock, hfits⟩ := make_room_spec hmalloc hvalid hwrap hroom
  have hsum : size_t (grown.buffer_offset + buf.length) = grown.buffer_offset + buf.length := by
    apply size_t_eq
    rw [hoffset]
    exact hwrap
  have hlength : grown.buffer_offset + buf.length ≤ grown.storage.length := by
    rw [hgrown.storage_length]
    exact hfits
  have hstorage : (grown.raw_buffer.map (Block.overwrite · grown.buffer_offset buf)).getD [] =
      Block.overwrite grown.storage grown.buffer_offset buf := by
    cases hraw : grown.raw_buffer with
    | some bytes => simp [storage, hraw]
    | none =>
      simp only [storage, hraw, Option.getD_none, List.length_nil] at hlength
      have hnil : buf = [] := List.length_eq_zero_iff.mp (by omega)
      simp [storage, hraw, hnil, Block.overwrite]
  cases hpush
  refine ⟨?_, ?_, ?_, ?_⟩
  · constructor
    · simp only [storage]
      rw [hstorage, Block.overwrite_length hlength, hgrown.storage_length]
    · simpa only [hsum] using hfits
    · exact hgrown.size_le
    · exact hgrown.block_le
    · intro hsome
      exact hgrown.block_pos (by simpa using hsome)
  · simp only [contents, storage]
    rw [hstorage, hsum, Block.overwrite_take (by omega)]
    exact congrArg (· ++ buf) hcontents
  · intro hroomy
    have hsame : size_t (b.buffer_offset + buf.length) ≤ b.buffer_size := by
      rw [size_t_eq hwrap]
      exact hroomy
    rw [show loop_rounds = 2 ^ 64 + 1 from rfl, make_room_fits hsame] at hroom
    cases hroom
    rfl
  · rw [Option.isSome_map, Bool.eq_iff_iff, hgrown.isSome_iff, hvalid.isSome_iff, hblock]

theorem push_spec {malloc : Nat → Bool} (hmalloc : ∀ n, malloc n = true → n ≤ PTRDIFF_MAX)
    {b b' : IoBuffer} {buf : List UInt8} (hvalid : b.Valid) (hbuf : buf.length ≤ PTRDIFF_MAX)
    (hpush : b.push malloc buf = .ok b') :
    b'.Valid ∧ b'.contents = b.contents ++ buf ∧
      (b.buffer_offset + buf.length ≤ b.buffer_size → b'.generation = b.generation) ∧
      b'.raw_buffer.isSome = b.raw_buffer.isSome := by
  refine push_spec_of_lt hmalloc hvalid ?_ hpush
  have hoffset := hvalid.offset_le.trans hvalid.size_le
  unfold PTRDIFF_MAX at hoffset hbuf
  omega

/-- A push that fits returns and leaves the storage where it is. -/
theorem push_fits {malloc : Nat → Bool} {b : IoBuffer} {buf : List UInt8} (hvalid : b.Valid)
    (hbuf : buf.length ≤ PTRDIFF_MAX) (hfits : b.buffer_offset + buf.length ≤ b.buffer_size) :
    b.push malloc buf = .ok { b with
      raw_buffer := b.raw_buffer.map (Block.overwrite · b.buffer_offset buf)
      buffer_offset := b.buffer_offset + buf.length } := by
  have hsum : size_t (b.buffer_offset + buf.length) = b.buffer_offset + buf.length :=
    size_t_add (hvalid.offset_le.trans hvalid.size_le) hbuf
  have hroom : make_room malloc buf.length (2 ^ 64 + 1) b = .ok b := by
    apply make_room_fits
    rw [hsum]
    exact hfits
  change make_room malloc buf.length loop_rounds b = .ok b at hroom
  rw [push, hroom, ← hsum]
  rfl

/-- An empty push changes nothing. -/
theorem push_nil {malloc : Nat → Bool} {b : IoBuffer} (hvalid : b.Valid) :
    b.push malloc [] = .ok b := by
  have hsame : b.raw_buffer.map (Block.overwrite · b.buffer_offset []) = b.raw_buffer := by
    cases b.raw_buffer with
    | some bytes => simp [Block.overwrite]
    | none => rfl
  rw [@push_fits malloc b [] hvalid (Nat.zero_le _) hvalid.offset_le, hsame]
  rfl

/-- A buffer without storage has no `block_size` to grow by. -/
theorem Valid.unallocated {b : IoBuffer} (hvalid : b.Valid) (hraw : b.raw_buffer = none) :
    b.buffer_size = 0 ∧ b.buffer_offset = 0 ∧ b.block_size = 0 := by
  have hlength := hvalid.storage_length
  have hoffset := hvalid.offset_le
  have hblock := hvalid.block_le
  simp only [storage, hraw, Option.getD_none, List.length_nil] at hlength
  omega

/-- Without storage the growth loop of a push of any byte does not end. -/
theorem push_hangs {malloc : Nat → Bool} {b : IoBuffer} {buf : List UInt8} (hvalid : b.Valid)
    (hraw : b.raw_buffer = none) (hbuf : buf.length ≤ PTRDIFF_MAX) (hne : buf ≠ []) :
    b.push malloc buf = .error .hang := by
  obtain ⟨hsize, hoffset, hblock⟩ := hvalid.unallocated hraw
  have hpos := List.length_pos_iff.mpr hne
  have hbound : buf.length < 2 ^ 64 := by
    unfold PTRDIFF_MAX at hbuf
    omega
  have hsum : size_t (b.buffer_offset + buf.length) = buf.length := by
    rw [hoffset, Nat.zero_add, size_t_eq hbound]
  have hroom : make_room malloc buf.length loop_rounds b = .error .hang := by
    rw [show loop_rounds = 2 ^ 64 + 1 from rfl, make_room, hsum, hsize, hblock, if_pos hpos,
      grow_new_size_zero (by simp [size_t]) hbound]
    rfl
  rw [push, hroom]
  rfl

/-- Without storage only an empty push returns, and it changes nothing. -/
theorem push_unallocated {malloc : Nat → Bool} {b b' : IoBuffer} {buf : List UInt8}
    (hvalid : b.Valid) (hraw : b.raw_buffer = none) (hbuf : buf.length ≤ PTRDIFF_MAX)
    (hpush : b.push malloc buf = .ok b') : buf = [] ∧ b' = b := by
  by_cases hne : buf = []
  · rw [hne, push_nil hvalid] at hpush
    cases hpush
    exact ⟨hne, rfl⟩
  · rw [push_hangs hvalid hraw hbuf hne] at hpush
    cases hpush

/-- With a `block_size` to grow by the inner loop ends at most one block above
    the bytes required, as long as the sizes do not wrap. -/
theorem grow_new_size_spec {required block_size rounds new_size : Nat} (hblock : 0 < block_size)
    (hwrap : required + block_size < 2 ^ 64) (hstart : new_size ≤ required + block_size)
    (hrounds : required + 1 - new_size < rounds) :
    ∃ blocks, grow_new_size required block_size rounds new_size = .ok (new_size + blocks * block_size) ∧
      required < new_size + blocks * block_size ∧
      new_size + blocks * block_size ≤ required + block_size := by
  induction rounds generalizing new_size with
  | zero => omega
  | succ rounds ih =>
    rw [grow_new_size]
    split
    · rename_i hle
      rw [size_t_eq (by omega)]
      obtain ⟨blocks, hgrow, hgt, hbound⟩ := @ih (new_size + block_size) (by omega) (by omega)
      have hsum : new_size + block_size + blocks * block_size = new_size + (blocks + 1) * block_size := by
        rw [Nat.succ_mul]
        omega
      rw [hsum] at hgrow hgt hbound
      exact ⟨blocks + 1, hgrow, hgt, hbound⟩
    · exact ⟨0, by simp, by omega, by omega⟩

/-- The capacity that a push of `size` bytes leaves behind: that of before where
    they fit, and otherwise one that whole blocks bring above the bytes required,
    by one block at most. -/
structure Growth (b : IoBuffer) (size capacity : Nat) : Prop where
  fits : b.buffer_offset + size ≤ b.buffer_size → capacity = b.buffer_size
  grows : b.buffer_size < b.buffer_offset + size → ∃ blocks, 1 ≤ blocks ∧
    capacity = b.buffer_size + blocks * b.block_size ∧ b.buffer_offset + size < capacity ∧
    capacity ≤ b.buffer_offset + size + b.block_size

/-- The outer loop runs its body at most once: two rounds are as good as any
    number, and they come to one reallocation or none. -/
theorem make_room_growth {b : IoBuffer} {size : Nat} (hblock : 0 < b.block_size)
    (hwrap : b.buffer_offset + size + b.block_size < 2 ^ 64) :
    ∃ capacity, b.Growth size capacity ∧ ∀ malloc rounds, make_room malloc size (rounds + 2) b =
      if b.buffer_size < b.buffer_offset + size then b.on_overflow malloc capacity else .ok b := by
  have hsum : size_t (b.buffer_offset + size) = b.buffer_offset + size := size_t_eq (by omega)
  by_cases hover : b.buffer_size < b.buffer_offset + size
  · obtain ⟨blocks, hgrow, hgt, hbound⟩ := @grow_new_size_spec (b.buffer_offset + size) b.block_size
      loop_rounds (b.buffer_size + b.block_size) hblock hwrap (by omega) (by unfold loop_rounds; omega)
    have hcapacity : b.buffer_size + b.block_size + blocks * b.block_size =
        b.buffer_size + (blocks + 1) * b.block_size := by
      rw [Nat.succ_mul]
      omega
    rw [hcapacity] at hgrow hgt hbound
    refine ⟨_, ⟨fun hfits => absurd hover (not_lt.mpr hfits),
      fun _ => ⟨blocks + 1, Nat.le_add_left _ _, rfl, hgt, hbound⟩⟩, fun malloc rounds => ?_⟩
    rw [if_pos hover, make_room, hsum, if_pos hover, size_t_eq (by omega), hgrow]
    change (b.on_overflow malloc _ >>= make_room malloc size (rounds + 1)) = _
    rw [on_overflow]
    split
    · apply make_room_fits
      dsimp only
      rw [hsum]
      omega
    · rfl
  · refine ⟨b.buffer_size, ⟨fun _ => rfl, fun h => absurd h hover⟩, fun malloc rounds => ?_⟩
    rw [if_neg hover]
    apply make_room_fits
    rw [hsum]
    omega

/-- As long as the sizes do not wrap, only a failed allocation keeps a push into
    storage from returning. -/
theorem push_growth {b : IoBuffer} {buf : List UInt8} (hblock : 0 < b.block_size)
    (hwrap : b.buffer_offset + buf.length + b.block_size < 2 ^ 64) :
    ∃ capacity, b.Growth buf.length capacity ∧ ∀ malloc,
      (∀ rounds, make_room malloc buf.length (rounds + 2) b =
        if b.buffer_size < b.buffer_offset + buf.length then b.on_overflow malloc capacity
        else .ok b) ∧
      b.push malloc buf ≠ .error .hang ∧
      ((b.buffer_size < b.buffer_offset + buf.length → malloc capacity = true) →
        ∃ b', b.push malloc buf = .ok b') ∧
      ∀ b', b.push malloc buf = .ok b' → b'.buffer_size = capacity ∧ b'.block_size = b.block_size := by
  obtain ⟨capacity, hgrowth, hroom⟩ := make_room_growth hblock hwrap
  refine ⟨capacity, hgrowth, fun malloc => ⟨hroom malloc, ?_⟩⟩
  have hroom := hroom malloc (2 ^ 64 - 1)
  rw [show 2 ^ 64 - 1 + 2 = loop_rounds from rfl] at hroom
  rw [push, hroom]
  split
  · rw [on_overflow]
    split
    · refine ⟨fun h => (by cases h), fun _ => ⟨_, rfl⟩, fun b' hb' => ?_⟩
      cases hb'
      exact ⟨rfl, rfl⟩
    · rename_i hover hmalloc
      exact ⟨fun h => (by cases h), fun h => absurd (h hover) hmalloc, fun b' hb' => (by cases hb')⟩
  · rename_i hfits
    refine ⟨fun h => (by cases h), fun _ => ⟨_, rfl⟩, fun b' hb' => ?_⟩
    cases hb'
    exact ⟨(hgrowth.fits (not_lt.mp hfits)).symm, rfl⟩

/-- With storage the growth loop of a push ends, unless an allocation fails. -/
theorem push_returns {malloc : Nat → Bool} {b : IoBuffer} {buf : List UInt8} (hvalid : b.Valid)
    (hraw : b.raw_buffer.isSome) (hfits : b.buffer_offset + buf.length ≤ PTRDIFF_MAX) :
    b.push malloc buf ≠ .error .hang := by
  have hblock_le := hvalid.block_le.trans hvalid.size_le
  have hwrap : b.buffer_offset + buf.length + b.block_size < 2 ^ 64 := by
    unfold PTRDIFF_MAX at hfits hblock_le
    omega
  obtain ⟨_, _, hpush⟩ := push_growth (hvalid.block_pos hraw) hwrap
  exact (hpush malloc).2.1

end IoBuffer

end rioring
