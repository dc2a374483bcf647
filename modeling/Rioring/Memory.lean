import Mathlib

namespace rioring

/-- A `size_t` value of the x64 targets: sums and products wrap at `2 ^ 64`. -/
def size_t (n : Nat) : Nat := n % 2 ^ 64

/-- The largest object a program can hold; `malloc` and `realloc` refuse more. -/
def PTRDIFF_MAX : Nat := 2 ^ 63 - 1

/-- The pointer and size arguments of `push`, `send` and `send_to`: the bytes of
    an object the caller holds. -/
abbrev Bytes := { bytes : List UInt8 // bytes.length ≤ PTRDIFF_MAX }

theorem size_t_eq {n : Nat} (h : n < 2 ^ 64) : size_t n = n := Nat.mod_eq_of_lt h

/-- The sum of the lengths of two objects does not wrap. -/
theorem size_t_add {m n : Nat} (hm : m ≤ PTRDIFF_MAX) (hn : n ≤ PTRDIFF_MAX) :
    size_t (m + n) = m + n := by
  apply size_t_eq
  unfold PTRDIFF_MAX at hm hn
  omega

/-- The build-time settings of `predefined.h`, all of which a build may
    override, and the allocator. `malloc n` says whether an allocation of `n`
    bytes succeeds; by its documentation it fails beyond `PTRDIFF_MAX`. -/
structure Platform where
  data_buffer_size : Nat := 1024 * 64
  context_pool_size : Nat := 256
  malloc : Nat → Bool := fun n => decide (n ≤ PTRDIFF_MAX)
  data_buffer_size_pos : 0 < data_buffer_size := by decide
  malloc_le : ∀ n, malloc n = true → n ≤ PTRDIFF_MAX := by
    intro n hn
    simpa using hn

/-- A build small enough to follow by hand. -/
def Platform.small : Platform where
  data_buffer_size := 4
  context_pool_size := 1
  data_buffer_size_pos := by decide

/-- A build whose receives take a whole message of the examples. -/
def Platform.roomy : Platform where
  data_buffer_size := 128
  context_pool_size := 1
  data_buffer_size_pos := by decide

/-! Payloads to follow by hand. -/

def one_byte : Bytes := ⟨[1], by decide⟩

def five_bytes : Bytes := ⟨[1, 2, 3, 4, 5], by decide⟩

end rioring
