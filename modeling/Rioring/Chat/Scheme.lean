import Rioring.Buffer.IoBuffer
import Rioring.Framing

/-! The messages of the chat programs, as their packed bytes. -/

namespace rioring

namespace Chat

/-- What goes wrong in a callback of the chat programs: an array of it is read or
    written past its end, or its loop never ends. -/
inductive Fault where
  | out_of_bounds
  | hang
  deriving DecidableEq

/-- An unsigned integer in memory, its lowest byte first. -/
def word (bytes : List UInt8) : Nat := Nat.ofDigits 256 (bytes.map (·.toNat))

/-- The bytes of an unsigned integer of a given width. -/
def word_bytes : Nat → Nat → List UInt8
  | 0, _ => []
  | width + 1, n => UInt8.ofNat n :: word_bytes width (n / 256)

theorem word_bytes_length (width n : Nat) : (word_bytes width n).length = width := by
  induction width generalizing n with
  | zero => rfl
  | succ width ih => rw [word_bytes, List.length_cons, ih]

theorem word_word_bytes (width n : Nat) : word (word_bytes width n) = n % 256 ^ width := by
  induction width generalizing n with
  | zero => simp [word, word_bytes, Nat.mod_one]
  | succ width ih =>
    have hlow : (UInt8.ofNat n).toNat = n % 256 := UInt8.toNat_ofNat'
    rw [word_bytes, word, List.map_cons, Nat.ofDigits_cons, hlow]
    change n % 256 + 256 * word (word_bytes width (n / 256)) = n % 256 ^ (width + 1)
    rw [ih, Nat.pow_succ', Nat.mod_mul]

def req_chat : UInt8 := 1

def resp_chat : UInt8 := 11

/-- `sizeof( scheme )`, `sizeof( request_chat )` and `sizeof( response_chat )`. -/
def sizeof_scheme : Nat := 3

def sizeof_request_chat : Nat := 7

def sizeof_response_chat : Nat := 27

/-- The fields of the structure at the front of an array. -/
def msg (array : List UInt8) : UInt8 := array.headD 0

def size (array : List UInt8) : Nat := word ((array.drop 1).take 2)

def signed (n : Nat) : Int := if n < 2 ^ 31 then n else (n : Int) - 2 ^ 32

def request_chat_size (array : List UInt8) : Int := signed (word ((array.drop 3).take 4))

def response_chat_size (array : List UInt8) : Int := signed (word ((array.drop 23).take 4))

/-- The fields lie in front of the bytes of a text. -/
theorem msg_take (array : List UInt8) : msg (array.take sizeof_scheme) = msg array := by
  cases array <;> rfl

theorem size_take (array : List UInt8) : size (array.take sizeof_scheme) = size array := by
  rw [size, List.drop_take, List.take_take]
  rfl

/-- The messages of both programs, in a stream. -/
def scheme : Framing UInt8 where
  header := sizeof_scheme
  length := size

/-- The message a chat client sends for a line of input. -/
def request_chat (text : List UInt8) : List UInt8 :=
  req_chat :: word_bytes 2 (sizeof_request_chat + text.length) ++ word_bytes 4 text.length ++ text

/-- The message a chat server sends for a text of a client. -/
def response_chat (name text : List UInt8) : List UInt8 :=
  resp_chat :: word_bytes 2 (sizeof_response_chat + text.length) ++
    (name ++ List.replicate (20 - name.length) 0) ++ word_bytes 4 text.length ++ text

/-- The array after `memcpy` of `bytes` to its front. -/
def copy_front (array bytes : List UInt8) : Except Fault (List UInt8) :=
  if bytes.length ≤ array.length then .ok (Block.overwrite array 0 bytes) else .error .out_of_bounds

theorem copy_front_eq (array bytes : List UInt8) : copy_front array bytes =
    if bytes.length ≤ array.length then .ok (bytes ++ array.drop bytes.length)
    else .error .out_of_bounds := by
  rw [copy_front, Block.overwrite, List.take_zero, List.nil_append, Nat.zero_add]

/-- The string at the front of an array, up to its NUL. -/
def c_string (array : List UInt8) : Except Fault (List UInt8) :=
  if 0 ∈ array then .ok (array.takeWhile (· ≠ 0)) else .error .out_of_bounds

/-- `buffer->read( &array[0], size )`: what the array holds when it returns true. -/
def read_front (buffer : IoBuffer) (array : List UInt8) (size : Nat) :
    Except Fault (Option (List UInt8)) :=
  match buffer.read size with
  | none => .ok none
  | some bytes => (copy_front array bytes).map some

theorem read_front_eq {buffer : IoBuffer} (hvalid : buffer.Valid) (array : List UInt8) (size : Nat) :
    read_front buffer array size = if size ≤ buffer.contents.length then
      (copy_front array (buffer.contents.take size)).map some else .ok none := by
  rw [read_front, IoBuffer.read_spec hvalid]
  by_cases hsize : size ≤ buffer.contents.length
  · rw [if_pos hsize, if_pos hsize]
  · rw [if_neg hsize, if_neg hsize]

end Chat

end rioring
