import Rioring.Memory

namespace rioring

abbrev ObjectId := Nat

abbrev ContextId := Nat

def AF_INET : Nat := 2

def AF_INET6 : Nat := 10

/-- A `sockaddr_storage`: the family and the 126 bytes that follow it. Shorter
    addresses occupy the front of it. -/
structure SockAddr where
  sa_family : Nat := 0
  sa_data : Fin 126 → UInt8 := fun _ => 0

instance : DecidableEq SockAddr := fun a b =>
  decidable_of_iff (a.sa_family = b.sa_family ∧ ∀ k, a.sa_data k = b.sa_data k) <| by
    rw [SockAddr.mk.injEq, funext_iff]

namespace SockAddr

/-- The size of the address structure of a family, as `udp_socket::submit_sending`
    tabulates it; zero for every other family. -/
def addr_len (family : Nat) : Nat :=
  if family = AF_INET then 16 else if family = AF_INET6 then 28 else 0

/-- `memcpy( dst, src, len )`: the family and the first `len - 2` bytes after it. -/
def copy (dst src : SockAddr) (len : Nat) : SockAddr where
  sa_family := if len = 0 then dst.sa_family else src.sa_family
  sa_data k := if k.val + 2 < len then src.sa_data k else dst.sa_data k

/-- What the kernel reads of a destination: the bytes that belong to its family. -/
def destination (a : SockAddr) : SockAddr :=
  ({} : SockAddr).copy a (addr_len a.sa_family)

/-- The port of an address, `ntohs` of its first two bytes. -/
def port (a : SockAddr) : Nat := (a.sa_data 0).toNat * 256 + (a.sa_data 1).toNat

/-- Copying as many bytes as the family of the source has carries its
    destination over, whatever the target held before. -/
theorem destination_copy (dst src : SockAddr) (hlen : addr_len src.sa_family ≠ 0) :
    (dst.copy src (addr_len src.sa_family)).destination = src.destination := by
  unfold destination copy
  simp only [hlen, ↓reduceIte, SockAddr.mk.injEq, true_and]
  funext k
  by_cases hk : k.val + 2 < addr_len src.sa_family <;> simp [hk]

end SockAddr

inductive IoType where
  | unknown
  | accept
  | read
  | write
  | shutdown
  deriving DecidableEq, Repr

inductive ContextType where
  | tcp_context
  | udp_context
  deriving DecidableEq, Repr

/-- The memory an `iovec` points into: nothing, the `recv_bind_buffer` of a
    socket, or the storage its `main_buffer` had under some generation. -/
inductive Region where
  | null
  | recv_bind_buffer (object : ObjectId)
  | send_buffer (object : ObjectId) (generation : Nat)
  deriving DecidableEq, Repr

structure Iovec where
  iov_base : Region := .null
  iov_len : Nat := 0
  deriving DecidableEq, Repr

/-- A `msghdr` whose `msg_name` is the context's own `addr`. `msg_iov` is null or
    the context's own `iov`. -/
structure MsgHdr where
  msg_namelen : Nat := 128
  msg_iov : Bool := false
  msg_iovlen : Nat := 0
  deriving DecidableEq, Repr

/-- The `io_context` of the source, as its constructor leaves it. -/
structure IoContext where
  type : IoType := .unknown
  ctype : ContextType := .tcp_context
  iov : Iovec := {}
  handler : Option ObjectId := none
  msg : MsgHdr := {}
  addr : SockAddr := {}
  deriving DecidableEq

inductive Opcode where
  | nop
  | accept
  | readv
  | recvmsg
  | writev
  | sendmsg
  | shutdown
  deriving DecidableEq, Repr

/-- The operation that `io_service::submit` prepares for a filled context. -/
def IoContext.opcode (ctx : IoContext) : Opcode :=
  match ctx.type, ctx.ctype with
  | .unknown, _ => .nop
  | .accept, _ => .accept
  | .read, .tcp_context => .readv
  | .read, .udp_context => .recvmsg
  | .write, .tcp_context => .writev
  | .write, .udp_context => .sendmsg
  | .shutdown, _ => .shutdown

/-- A submission queue entry together with what it points to at that moment: the
    context it carries as `user_data`, and the bytes of the region to write. -/
structure Request where
  user_data : ContextId
  context : IoContext
  opcode : Opcode
  fd : Int
  payload : List UInt8
  deriving DecidableEq

/-- A completion queue entry together with what the kernel has stored for it:
    the bytes it received and the address of the peer. `data` also stands for
    the bytes it finds where a region is gone. -/
structure Cqe where
  res : Int
  data : List UInt8 := []
  peer : SockAddr := {}

end rioring
