import Rioring.Buffer.IoBuffer

namespace rioring

/-- The `io_double_buffer` of the source: two buffers operated as one queue. -/
structure IoDoubleBuffer where
  main_buffer : IoBuffer := {}
  sub_buffer : IoBuffer := {}
  deriving DecidableEq, Repr

namespace IoDoubleBuffer

variable (malloc : Nat → Bool)

def assign (d : IoDoubleBuffer) (size : Nat) : Except Fault IoDoubleBuffer := do
  let main_buffer ← d.main_buffer.assign malloc size
  .ok { d with main_buffer }

def destroy (d : IoDoubleBuffer) : IoDoubleBuffer :=
  { main_buffer := d.main_buffer.destroy, sub_buffer := d.sub_buffer.destroy }

def read (d : IoDoubleBuffer) (size : Nat) : Option (List UInt8) := d.main_buffer.read size

def pop (d : IoDoubleBuffer) (size : Nat) : IoDoubleBuffer :=
  { d with main_buffer := d.main_buffer.pop size }

def push (d : IoDoubleBuffer) (buf : List UInt8) : Except Fault IoDoubleBuffer :=
  if !d.sub_buffer.empty then do
    let sub_buffer ← d.sub_buffer.push malloc buf
    .ok { d with sub_buffer }
  else if d.main_buffer.empty then do
    let main_buffer ← d.main_buffer.push malloc buf
    .ok { d with main_buffer }
  else if d.main_buffer.capacity < size_t (d.main_buffer.offset + buf.length) then do
    let sub_buffer ← (if d.sub_buffer.capacity = 0 then
        d.sub_buffer.assign malloc (max (size_t (buf.length * 2)) d.main_buffer.capacity)
      else .ok d.sub_buffer : Except Fault IoBuffer)
    let sub_buffer ← sub_buffer.push malloc buf
    .ok { d with sub_buffer }
  else do
    let main_buffer ← d.main_buffer.push malloc buf
    .ok { d with main_buffer }

def elevate (d : IoDoubleBuffer) : IoDoubleBuffer :=
  if d.main_buffer.empty && !d.sub_buffer.empty then
    let (main_buffer, sub_buffer) := d.main_buffer.destroy.move_assign d.sub_buffer
    { main_buffer, sub_buffer }
  else d

def empty (d : IoDoubleBuffer) : Bool := d.main_buffer.empty && d.sub_buffer.empty

def size (d : IoDoubleBuffer) : Nat := d.main_buffer.size

/-- The queued bytes: `main_buffer` is sent first. -/
def contents (d : IoDoubleBuffer) : List UInt8 := d.main_buffer.contents ++ d.sub_buffer.contents

structure Valid (d : IoDoubleBuffer) : Prop where
  main : d.main_buffer.Valid
  sub : d.sub_buffer.Valid

theorem Valid.default : Valid {} := ⟨.default, .default⟩

@[simp] theorem contents_default : contents {} = [] := rfl

theorem Valid.empty_iff {d : IoDoubleBuffer} (hvalid : d.Valid) :
    d.empty = true ↔ d.contents = [] := by
  simp [empty, contents, hvalid.main.empty_iff, hvalid.sub.empty_iff]

theorem Valid.size_eq {d : IoDoubleBuffer} (hvalid : d.Valid) :
    d.size = d.main_buffer.contents.length :=
  hvalid.main.contents_length.symm

/-- Assignment gives `main_buffer` new storage and leaves `sub_buffer` alone. -/
theorem assign_spec {malloc : Nat → Bool} (hmalloc : ∀ n, malloc n = true → n ≤ PTRDIFF_MAX)
    {d d' : IoDoubleBuffer} {size : Nat} (hvalid : d.Valid) (hpos : 0 < size)
    (hassign : d.assign malloc size = .ok d') :
    d'.Valid ∧ d'.main_buffer.contents = [] ∧ d'.main_buffer.raw_buffer.isSome ∧
      d'.sub_buffer = d.sub_buffer := by
  unfold assign at hassign
  rw [IoBuffer.bind_eq_ok_iff] at hassign
  obtain ⟨main_buffer, hmain, hassign⟩ := hassign
  cases hassign
  obtain ⟨hmainValid, hempty, hraw, _⟩ := IoBuffer.assign_spec hmalloc hpos hmain
  exact ⟨⟨hmainValid, hvalid.sub⟩, hempty, hraw, rfl⟩

theorem destroy_spec {d : IoDoubleBuffer} (hvalid : d.Valid) :
    d.destroy.Valid ∧ d.destroy.contents = [] := by
  obtain ⟨hmain, hmainEmpty⟩ := IoBuffer.destroy_spec hvalid.main
  obtain ⟨hsub, hsubEmpty⟩ := IoBuffer.destroy_spec hvalid.sub
  exact ⟨⟨hmain, hsub⟩, by simp [contents, destroy, hmainEmpty, hsubEmpty]⟩

/-- What a returned push has done. The bytes are at the end of the queue; when
    `main_buffer` holds bytes, its storage is where it was and they are still
    at its start, and `sub_buffer` takes over once it has no more room. -/
structure Pushed (d : IoDoubleBuffer) (buf : List UInt8) (d' : IoDoubleBuffer) : Prop where
  valid : d'.Valid
  contents : d'.contents = d.contents ++ buf
  main_prefix : d.main_buffer.contents <+: d'.main_buffer.contents
  main_stays : d.main_buffer.contents ≠ [] → d'.main_buffer.generation = d.main_buffer.generation
  main_takes : d.contents = [] → d'.main_buffer.contents = buf
  placed : d.main_buffer.contents ≠ [] → d.sub_buffer.contents = [] →
    (d'.main_buffer.contents = d.main_buffer.contents ∧ d'.sub_buffer.contents = buf) ∨
      (d'.main_buffer.contents = d.main_buffer.contents ++ buf ∧ d'.sub_buffer.contents = [] ∧
        d.main_buffer.offset + buf.length ≤ d.main_buffer.capacity)
  allocated : d'.main_buffer.raw_buffer.isSome = d.main_buffer.raw_buffer.isSome

theorem push_spec {malloc : Nat → Bool} (hmalloc : ∀ n, malloc n = true → n ≤ PTRDIFF_MAX)
    {d d' : IoDoubleBuffer} {buf : List UInt8} (hvalid : d.Valid) (hbuf : buf.length ≤ PTRDIFF_MAX)
    (hpush : d.push malloc buf = .ok d') : d.Pushed buf d' := by
  have hsubEmpty := hvalid.sub.empty_iff
  have hmainEmpty := hvalid.main.empty_iff
  unfold push at hpush
  split at hpush
  · rename_i hsub
    rw [IoBuffer.bind_eq_ok_iff] at hpush
    obtain ⟨sub_buffer, hpush, heq⟩ := hpush
    cases heq
    obtain ⟨hsubValid, hcontents, _⟩ := IoBuffer.push_spec hmalloc hvalid.sub hbuf hpush
    refine ⟨⟨hvalid.main, hsubValid⟩, ?_, List.prefix_refl _, fun _ => rfl, ?_, ?_, rfl⟩
    · simp [IoDoubleBuffer.contents, hcontents]
    · intro hnil
      simp only [IoDoubleBuffer.contents, List.append_eq_nil_iff] at hnil
      simp [hsubEmpty.mpr hnil.2] at hsub
    · intro _ hnil
      simp [hsubEmpty.mpr hnil] at hsub
  · rename_i hsub
    have hsubNil : d.sub_buffer.contents = [] := hsubEmpty.mp (by simpa using hsub)
    -- Both branches that push into `main_buffer` append after all queued bytes.
    have hmainPush : ∀ main_buffer, d.main_buffer.push malloc buf = .ok main_buffer →
        (d.main_buffer.contents ≠ [] →
          d.main_buffer.buffer_offset + buf.length ≤ d.main_buffer.buffer_size) →
        d.Pushed buf { d with main_buffer } := by
      intro main_buffer hpush hfits
      obtain ⟨hmainValid, hcontents, hgeneration, hallocated⟩ :=
        IoBuffer.push_spec hmalloc hvalid.main hbuf hpush
      refine ⟨⟨hmainValid, hvalid.sub⟩, ?_, ?_, fun hne => hgeneration (hfits hne), ?_, ?_, hallocated⟩
      · simp [IoDoubleBuffer.contents, hcontents, hsubNil]
      · simp [hcontents]
      · intro hnil
        simp only [IoDoubleBuffer.contents, List.append_eq_nil_iff] at hnil
        simp [hcontents, hnil.1]
      · exact fun hne _ => .inr ⟨hcontents, hsubNil, hfits hne⟩
    split at hpush
    · rename_i hmain
      rw [IoBuffer.bind_eq_ok_iff] at hpush
      obtain ⟨main_buffer, hpush, heq⟩ := hpush
      cases heq
      exact hmainPush main_buffer hpush fun hne => absurd (hmainEmpty.mp hmain) hne
    · rename_i hmain
      have hmainNe : d.main_buffer.contents ≠ [] := fun hnil => hmain (hmainEmpty.mpr hnil)
      split at hpush
      · rename_i hover
        rw [IoBuffer.bind_eq_ok_iff] at hpush
        obtain ⟨assigned, hassign, hpush⟩ := hpush
        rw [IoBuffer.bind_eq_ok_iff] at hpush
        obtain ⟨sub_buffer, hpush, heq⟩ := hpush
        cases heq
        have hassigned : assigned.Valid ∧ assigned.contents = [] := by
          split at hassign
          · have hpos : 0 < max (size_t (buf.length * 2)) d.main_buffer.capacity := by
              have hlength := hvalid.main.contents_length
              have hne := List.length_pos_iff.mpr hmainNe
              have hle := hvalid.main.offset_le
              have hcapacity : 0 < d.main_buffer.capacity := by
                unfold IoBuffer.capacity
                omega
              exact lt_of_lt_of_le hcapacity (Nat.le_max_right _ _)
            obtain ⟨h1, h2, _⟩ := IoBuffer.assign_spec hmalloc hpos hassign
            exact ⟨h1, h2⟩
          · cases hassign
            exact ⟨hvalid.sub, hsubNil⟩
        obtain ⟨hsubValid, hcontents, _⟩ := IoBuffer.push_spec hmalloc hassigned.1 hbuf hpush
        refine ⟨⟨hvalid.main, hsubValid⟩, ?_, List.prefix_refl _, fun _ => rfl, ?_, ?_, rfl⟩
        · simp [IoDoubleBuffer.contents, hcontents, hassigned.2, hsubNil]
        · intro hnil
          simp only [IoDoubleBuffer.contents, List.append_eq_nil_iff] at hnil
          exact absurd hnil.1 hmainNe
        · exact fun _ _ => .inl ⟨rfl, by simp [hcontents, hassigned.2]⟩
      · rename_i hfits
        rw [IoBuffer.bind_eq_ok_iff] at hpush
        obtain ⟨main_buffer, hpush, heq⟩ := hpush
        cases heq
        apply hmainPush main_buffer hpush
        intro _
        have hsum := size_t_add (hvalid.main.offset_le.trans hvalid.main.size_le) hbuf
        unfold IoBuffer.offset IoBuffer.capacity at hfits
        omega

/-- The buffer whose `push` a call of `push` enters. -/
def push_target (d : IoDoubleBuffer) (size : Nat) : Except Fault IoBuffer :=
  if !d.sub_buffer.empty then .ok d.sub_buffer
  else if d.main_buffer.empty then .ok d.main_buffer
  else if d.main_buffer.capacity < size_t (d.main_buffer.offset + size) then
    if d.sub_buffer.capacity = 0 then
      d.sub_buffer.assign malloc (max (size_t (size * 2)) d.main_buffer.capacity)
    else .ok d.sub_buffer
  else .ok d.main_buffer

/-- A push of `size` bytes gives `sub_buffer` its storage. -/
def assigns_sub (d : IoDoubleBuffer) (size : Nat) : Prop :=
  d.sub_buffer.empty = true ∧ d.main_buffer.empty = false ∧
    d.main_buffer.capacity < size_t (d.main_buffer.offset + size) ∧ d.sub_buffer.capacity = 0

/-- A push enters a buffer, unless it needs storage for `sub_buffer` and does not
    get it. -/
theorem push_target_returns {malloc : Nat → Bool} {d : IoDoubleBuffer} {size : Nat}
    (hmalloc : d.assigns_sub size → malloc (max (size_t (size * 2)) d.main_buffer.capacity) = true) :
    ∃ b, d.push_target malloc size = .ok b := by
  unfold push_target
  split
  · exact ⟨_, rfl⟩
  · rename_i hsub
    split
    · exact ⟨_, rfl⟩
    · rename_i hmain
      split
      · rename_i hover
        split
        · rename_i hcapacity
          rw [IoBuffer.assign, if_pos (hmalloc ⟨by simpa using hsub, by simpa using hmain, hover,
            hcapacity⟩)]
          exact ⟨_, rfl⟩
        · exact ⟨_, rfl⟩
      · exact ⟨_, rfl⟩

/-- A push returns if the `push` of the buffer it enters does. -/
theorem push_returns_of_target {malloc : Nat → Bool} {d : IoDoubleBuffer} {b b' : IoBuffer}
    {buf : List UInt8} (htarget : d.push_target malloc buf.length = .ok b)
    (hpush : b.push malloc buf = .ok b') : ∃ d', d.push malloc buf = .ok d' := by
  unfold push_target at htarget
  unfold push
  split at htarget
  · cases htarget
    rw [if_pos ‹_›, hpush]
    exact ⟨_, rfl⟩
  · rw [if_neg ‹_›]
    split at htarget
    · cases htarget
      rw [if_pos ‹_›, hpush]
      exact ⟨_, rfl⟩
    · rw [if_neg ‹_›]
      split at htarget
      · rw [if_pos ‹_›]
        split at htarget
        · rw [if_pos ‹_›, htarget]
          refine ⟨{ d with sub_buffer := b' }, IoBuffer.bind_eq_ok_iff.mpr ⟨b, rfl, ?_⟩⟩
          rw [hpush]
          rfl
        · cases htarget
          rw [if_neg ‹_›]
          refine ⟨{ d with sub_buffer := b' }, IoBuffer.bind_eq_ok_iff.mpr ⟨_, rfl, ?_⟩⟩
          rw [hpush]
          rfl
      · cases htarget
        rw [if_neg ‹_›, hpush]
        exact ⟨_, rfl⟩

/-- Nothing is queued and there is no storage: before the first assignment, and
    after `destroy`. -/
def Unallocated (d : IoDoubleBuffer) : Prop := d.contents = [] ∧ d.main_buffer.raw_buffer = none

theorem Unallocated.default : Unallocated {} := ⟨rfl, rfl⟩

theorem Unallocated.empty {d : IoDoubleBuffer} (hvalid : d.Valid) (hnone : d.Unallocated) :
    d.main_buffer.empty = true ∧ d.sub_buffer.empty = true := by
  obtain ⟨hmain, hsub⟩ := List.append_eq_nil_iff.mp hnone.1
  exact ⟨hvalid.main.empty_iff.mpr hmain, hvalid.sub.empty_iff.mpr hsub⟩

theorem destroy_unallocated {d : IoDoubleBuffer} (hvalid : d.Valid) : d.destroy.Unallocated :=
  ⟨(destroy_spec hvalid).2, IoBuffer.destroy_raw_buffer _⟩

theorem push_hangs_iff {malloc : Nat → Bool} (d : IoDoubleBuffer) (buf : List UInt8) :
    d.push malloc buf = .error .hang ↔
      ∃ b, d.push_target malloc buf.length = .ok b ∧ b.push malloc buf = .error .hang := by
  unfold push push_target
  split
  · rw [IoBuffer.bind_ok_eq_error_iff]
    simp
  · split
    · rw [IoBuffer.bind_ok_eq_error_iff]
      simp
    · split
      · split
        · rw [IoBuffer.assign]
          split
          · change (IoBuffer.push _ _ _ >>= _) = _ ↔ _
            rw [IoBuffer.bind_ok_eq_error_iff]
            simp
          · simp [bind, Except.bind]
        · change (IoBuffer.push _ _ _ >>= _) = _ ↔ _
          rw [IoBuffer.bind_ok_eq_error_iff]
          simp
      · rw [IoBuffer.bind_ok_eq_error_iff]
        simp

/-- The buffer that a push enters lacks a `block_size` only where nothing is
    queued and there is no storage. -/
theorem push_target_spec {malloc : Nat → Bool} (hmalloc : ∀ n, malloc n = true → n ≤ PTRDIFF_MAX)
    {d : IoDoubleBuffer} {b : IoBuffer} {size : Nat} (hvalid : d.Valid)
    (htarget : d.push_target malloc size = .ok b) :
    b.Valid ∧ (b.block_size = 0 ↔ d.Unallocated) ∧
      b.buffer_offset ≤ d.contents.length := by
  have hsubEmpty := hvalid.sub.empty_iff
  have hmainEmpty := hvalid.main.empty_iff
  have hzero : ∀ b : IoBuffer, b.Valid → (b.block_size = 0 ↔ b.raw_buffer = none) := by
    intro b hb
    rw [← Option.not_isSome_iff_eq_none, hb.isSome_iff]
    omega
  have hlength : d.contents.length = d.main_buffer.buffer_offset + d.sub_buffer.buffer_offset := by
    rw [contents, List.length_append, hvalid.main.contents_length, hvalid.sub.contents_length]
  unfold push_target at htarget
  split at htarget
  · rename_i hsub
    cases htarget
    have hne : d.sub_buffer.contents ≠ [] := by
      rw [Ne, ← hsubEmpty]
      simpa using hsub
    refine ⟨hvalid.sub, ?_, by omega⟩
    rw [hzero _ hvalid.sub, ← Option.not_isSome_iff_eq_none]
    constructor
    · exact fun h => absurd (IoBuffer.isSome_of_contents hne) h
    · exact fun h => absurd (List.append_eq_nil_iff.mp h.1).2 hne
  · rename_i hsub
    have hsubNil : d.sub_buffer.contents = [] := hsubEmpty.mp (by simpa using hsub)
    split at htarget
    · rename_i hmain
      cases htarget
      refine ⟨hvalid.main, ?_, by omega⟩
      rw [hzero _ hvalid.main, Unallocated, contents, hmainEmpty.mp hmain, hsubNil]
      simp
    · rename_i hmain
      have hmainNe : d.main_buffer.contents ≠ [] := fun hnil => hmain (hmainEmpty.mpr hnil)
      have hnot : ¬ d.Unallocated := fun h => hmainNe (List.append_eq_nil_iff.mp h.1).1
      split at htarget
      · split at htarget
        · have hpos : 0 < max (size_t (size * 2)) d.main_buffer.capacity := by
            have hcapacity := hvalid.main.capacity_pos (IoBuffer.isSome_of_contents hmainNe)
            exact lt_of_lt_of_le hcapacity (Nat.le_max_right _ _)
          obtain ⟨hassigned, _, hraw, _⟩ := IoBuffer.assign_spec hmalloc hpos htarget
          have hoffset : b.buffer_offset = 0 := by rw [(IoBuffer.assign_ok htarget).2]
          refine ⟨hassigned, ?_, by omega⟩
          rw [hzero _ hassigned, ← Option.not_isSome_iff_eq_none]
          exact ⟨fun h => absurd hraw h, fun h => absurd h hnot⟩
        · rename_i hcapacity
          cases htarget
          refine ⟨hvalid.sub, ?_, by omega⟩
          rw [hzero _ hvalid.sub]
          exact ⟨fun h => absurd (hvalid.sub.unallocated h).1 hcapacity, fun h => absurd h hnot⟩
      · cases htarget
        refine ⟨hvalid.main, ?_, by omega⟩
        rw [hzero _ hvalid.main]
        have hraw := IoBuffer.isSome_of_contents hmainNe
        exact ⟨fun h => absurd hraw (Option.not_isSome_iff_eq_none.mpr h), fun h => absurd h hnot⟩

/-- A push into a queue without storage returns only if it is empty, and then
    changes nothing. -/
theorem push_unallocated {malloc : Nat → Bool} {d d' : IoDoubleBuffer} {buf : List UInt8}
    (hvalid : d.Valid) (hnone : d.Unallocated) (hbuf : buf.length ≤ PTRDIFF_MAX)
    (hpush : d.push malloc buf = .ok d') : buf = [] ∧ d' = d := by
  obtain ⟨hmain, hsub⟩ := hnone.empty hvalid
  rw [push, hsub, hmain] at hpush
  change (d.main_buffer.push malloc buf >>= fun main_buffer => .ok { d with main_buffer }) = _ at hpush
  rw [IoBuffer.bind_eq_ok_iff] at hpush
  obtain ⟨main_buffer, hpush, heq⟩ := hpush
  obtain ⟨hnil, rfl⟩ := IoBuffer.push_unallocated hvalid.main hnone.2 hbuf hpush
  cases heq
  exact ⟨hnil, rfl⟩

/-- `pop` drops bytes from the front of the queue, or nothing when it is asked
    for more than `main_buffer` holds. -/
theorem pop_spec {d : IoDoubleBuffer} (hvalid : d.Valid) (size : Nat) :
    (d.pop size).Valid ∧ (d.pop size).contents =
      if size ≤ d.main_buffer.contents.length then d.contents.drop size else d.contents := by
  obtain ⟨hpopValid, hpop, _, _⟩ := IoBuffer.pop_spec hvalid.main size
  refine ⟨⟨hpopValid, hvalid.sub⟩, ?_⟩
  rw [contents, pop, hpop]
  split
  · rename_i hsize
    rw [contents, List.drop_append_of_le_length hsize]
  · rfl

/-- `pop` works on `main_buffer` alone. -/
theorem pop_halves {d : IoDoubleBuffer} (hvalid : d.Valid) {size : Nat}
    (hsize : size ≤ d.main_buffer.contents.length) :
    (d.pop size).main_buffer.contents = d.main_buffer.contents.drop size ∧
      (d.pop size).sub_buffer.contents = d.sub_buffer.contents := by
  obtain ⟨_, hpop, _⟩ := IoBuffer.pop_spec hvalid.main size
  rw [if_pos hsize] at hpop
  exact ⟨hpop, rfl⟩

/-- Elevation moves `sub_buffer` up once `main_buffer` has been used up. -/
theorem elevate_halves {d : IoDoubleBuffer} (hvalid : d.Valid) :
    (d.main_buffer.contents ≠ [] → d.elevate = d) ∧
      (d.main_buffer.contents = [] → d.elevate.main_buffer.contents = d.sub_buffer.contents ∧
        d.elevate.sub_buffer.contents = []) := by
  have hsubEmpty := hvalid.sub.empty_iff
  have hmainEmpty := hvalid.main.empty_iff
  constructor
  · intro hne
    rw [elevate, if_neg]
    simp [hmainEmpty, hne]
  · intro hnil
    by_cases hsub : d.sub_buffer.contents = []
    · rw [elevate, if_neg]
      · exact ⟨hnil.trans hsub.symm, hsub⟩
      · simp [hsubEmpty.mpr hsub]
    · have hraise : (d.main_buffer.empty && !d.sub_buffer.empty) = true := by
        simp [hmainEmpty.mpr hnil, ← Bool.not_eq_true, hsubEmpty, hsub]
      rw [elevate, if_pos hraise]
      exact ⟨rfl, rfl⟩

theorem elevate_allocated {d : IoDoubleBuffer} (hvalid : d.Valid)
    (hallocated : d.main_buffer.raw_buffer.isSome) : d.elevate.main_buffer.raw_buffer.isSome := by
  rw [elevate]
  split
  · rename_i hraise
    have hsub : d.sub_buffer.contents ≠ [] := by
      rw [Ne, ← hvalid.sub.empty_iff]
      simp only [Bool.and_eq_true, Bool.not_eq_true'] at hraise
      simp [hraise.2]
    exact IoBuffer.isSome_of_contents hsub
  · exact hallocated

/-- Elevation does not change the queue, and a queue that is not empty then has
    bytes in `main_buffer`. -/
theorem elevate_spec {d : IoDoubleBuffer} (hvalid : d.Valid) :
    d.elevate.Valid ∧ d.elevate.contents = d.contents ∧
      (d.contents ≠ [] → d.elevate.main_buffer.contents ≠ []) := by
  have hsubEmpty := hvalid.sub.empty_iff
  have hmainEmpty := hvalid.main.empty_iff
  unfold elevate
  split
  · rename_i hraise
    simp only [Bool.and_eq_true, Bool.not_eq_true'] at hraise
    have hmain : d.main_buffer.contents = [] := hmainEmpty.mp hraise.1
    have hraised : (d.main_buffer.destroy.move_assign d.sub_buffer).1.Valid := by
      obtain ⟨h1, h2, h3, h4, h5⟩ := hvalid.sub
      exact ⟨h1, h2, h3, h4, h5⟩
    have hleft : (d.main_buffer.destroy.move_assign d.sub_buffer).2.Valid := by
      constructor <;> simp [IoBuffer.move_assign, IoBuffer.storage]
    refine ⟨⟨hraised, hleft⟩, ?_, ?_⟩
    · rw [contents, contents, hmain]
      exact List.append_nil d.sub_buffer.contents
    · intro _
      change d.sub_buffer.contents ≠ []
      intro hnil
      rw [hsubEmpty.mpr hnil] at hraise
      simp at hraise
  · rename_i hraise
    refine ⟨hvalid, rfl, ?_⟩
    intro hne hnil
    apply hraise
    have hsub : d.sub_buffer.contents ≠ [] := fun h => hne (by simp [contents, hnil, h])
    have hkept : d.sub_buffer.empty = false := by
      rw [← Bool.not_eq_true]
      exact fun h => hsub (hsubEmpty.mp h)
    simp [hmainEmpty.mpr hnil, hkept]

end IoDoubleBuffer

end rioring
