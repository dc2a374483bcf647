import Mathlib

/-! A block of memory as the list of its cells, with the C library's operations
on it. The lemmas say what a prefix of the block holds afterwards. -/

namespace Block

variable {α : Type}

/-- `memcpy( block + start, cells, size )`. -/
def overwrite (block : List α) (start : Nat) (cells : List α) : List α :=
  block.take start ++ cells ++ block.drop (start + cells.length)

/-- `memmove( block, block + count, size )`: the two ranges may overlap. -/
def slide (block : List α) (count size : Nat) : List α :=
  overwrite block 0 ((block.drop count).take size)

/-- `realloc( block, size )`: cells past the old end hold `fill`. -/
def resize (fill : α) (block : List α) (size : Nat) : List α :=
  block.take size ++ List.replicate (size - block.length) fill

@[simp] theorem overwrite_length {block : List α} {start : Nat} {cells : List α}
    (hroom : start + cells.length ≤ block.length) :
    (overwrite block start cells).length = block.length := by
  simp only [overwrite, List.length_append, List.length_take, List.length_drop]
  omega

/-- What was in front of the written range stays, and the cells follow it. -/
theorem overwrite_take {block : List α} {start : Nat} {cells : List α}
    (hstart : start ≤ block.length) :
    (overwrite block start cells).take (start + cells.length) = block.take start ++ cells := by
  have hlength : (block.take start ++ cells).length = start + cells.length := by
    simp [hstart]
  rw [overwrite, ← hlength, List.take_left']
  rfl

@[simp] theorem slide_length {block : List α} {count size : Nat}
    (hroom : count + size ≤ block.length) : (slide block count size).length = block.length := by
  apply overwrite_length
  simp only [List.length_take, List.length_drop]
  omega

theorem slide_take {block : List α} {count size : Nat} (hroom : count + size ≤ block.length) :
    (slide block count size).take size = (block.take (count + size)).drop count := by
  have hlength : ((block.drop count).take size).length = size := by
    simp only [List.length_take, List.length_drop]
    omega
  have htake : (overwrite block 0 ((block.drop count).take size)).take
      (0 + ((block.drop count).take size).length) = block.take 0 ++ (block.drop count).take size :=
    overwrite_take (Nat.zero_le block.length)
  rw [hlength, Nat.zero_add, List.take_zero, List.nil_append] at htake
  rw [slide, htake, List.drop_take, Nat.add_sub_cancel_left]

@[simp] theorem resize_length (fill : α) (block : List α) (size : Nat) :
    (resize fill block size).length = size := by
  simp only [resize, List.length_append, List.length_take, List.length_replicate]
  omega

/-- A prefix that fits both sizes survives the reallocation. -/
theorem resize_take {fill : α} {block : List α} {size count : Nat}
    (hold : count ≤ block.length) (hnew : count ≤ size) :
    (resize fill block size).take count = block.take count := by
  rw [resize, List.take_append_of_le_length (by simp; omega), List.take_take, Nat.min_eq_left hnew]

end Block
