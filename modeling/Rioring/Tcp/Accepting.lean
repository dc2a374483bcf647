import Rioring.Ownership.Exclusive
import Rioring.Tcp.Stopping

/-! The address of a connection on its way into the socket that is accepted for
it: all accepts of a server share one `addr6`. -/

namespace rioring

open IoService

namespace ServerView

variable {b b' : ServerView} {a : ServerAction}

/-- Every accept goes back to a `run` that returned true, and never two of them to
    the same. -/
def Bounded (b : ServerView) : Prop := b.accepts + b.accepting.length ≤ b.history.activations

theorem Fresh.bounded (h : b.Fresh) : b.Bounded := by
  rw [Bounded, accepts, h.requests, h.accepting, h.history]
  rfl

theorem Bounded.move (hbounded : b.Bounded) (hmove : b.Move a b') : b'.Bounded := by
  rw [Bounded] at hbounded ⊢
  cases hmove with
  | idle => exact hbounded
  | set_event => exact hbounded
  | run_failed fd errno =>
    obtain ⟨hrequests, haccepting, hactivations⟩ := error_same
      (b := b.with_server { b.server with server_socket := fd }) errno
    rw [ServerView.accepts, hrequests, haccepting, hactivations]
    exact hbounded
  | run fd hsubmit =>
    obtain ⟨haccepts, haccepting, hactivations⟩ := hsubmit.accepts
    have hone : b'.accepts ≤ b.accepts + 1 := by
      rw [haccepts]
      refine Nat.add_le_add le_rfl ?_
      split <;> omega
    have hrun : b'.history.activations = b.history.activations + 1 := hactivations
    have hsame : b'.accepting.length = b.accepting.length := congrArg List.length haccepting
    omega
  | stop hsubmit =>
    obtain ⟨haccepts, haccepting, hactivations⟩ := hsubmit.accepts
    rw [haccepts, haccepting, hactivations]
    simpa using hbounded
  | accepted peer j htype hcomplete hres =>
    obtain ⟨haccepts, haccepting, hhistory⟩ := hcomplete.accepts
    rw [if_pos htype] at haccepts
    rw [List.length_append, List.length_singleton]
    simp only [ServerView.accepts] at haccepts hbounded ⊢
    omega
  | accept_failed peer htype hcomplete hres =>
    rename_i b₁ r res
    obtain ⟨haccepts, haccepting, hhistory⟩ := hcomplete.accepts
    rw [if_pos htype] at haccepts
    change b₁.accepts + b₁.accepting.length ≤ b₁.history.activations
    rw [haccepting, hhistory]
    omega
  | resume hreturn hsubmit =>
    obtain ⟨hreturned, hsame, hhistory⟩ := hreturn.accepting
    obtain ⟨haccepts, haccepting, hactivations⟩ := hsubmit.accepts
    rw [haccepting, hactivations, hhistory, haccepts, hsame]
    split <;> omega
  | shut_down htype hcomplete =>
    rename_i b₁ r
    obtain ⟨haccepts, haccepting, hhistory⟩ := hcomplete.accepts
    simp only [htype, reduceCtorEq, ↓reduceIte, Nat.add_zero] at haccepts
    change b₁.accepts + b₁.accepting.length ≤ b.history.activations
    rw [haccepting, ← haccepts]
    exact hbounded

theorem Move.activations_le (hmove : b.Move a b') :
    b.history.activations ≤ b'.history.activations := by
  by_cases hrun : ∃ sqe, a = .run sqe
  · obtain ⟨sqe, rfl⟩ := hrun
    cases hmove with
    | run_failed fd errno =>
      have hsame := (error_same (b := b.with_server { b.server with server_socket := fd }) errno).2.2
      exact hsame.symm.le
    | run fd hsubmit =>
      have hone : b'.history.activations = b.history.activations + 1 := hsubmit.accepts.2.2
      omega
  · exact (hmove.activations fun sqe h => hrun ⟨sqe, h⟩).symm.le

/-- Only an accept that completes changes `addr6`. -/
theorem Move.addr6 (hmove : b.Move a b') (haccept : ∀ r res, a ≠ .accept_completed r res) :
    b'.server.addr6 = b.server.addr6 ∧ b'.server.addr_len = b.server.addr_len := by
  cases hmove with
  | idle => exact ⟨rfl, rfl⟩
  | set_event => exact ⟨rfl, rfl⟩
  | run_failed fd errno =>
    obtain ⟨hserver, _⟩ := error_descriptor
      (b := b.with_server { b.server with server_socket := fd }) errno
    rw [hserver]
    exact ⟨rfl, rfl⟩
  | run fd hsubmit =>
    rw [hsubmit.descriptor.1]
    exact ⟨rfl, rfl⟩
  | stop hsubmit =>
    rw [hsubmit.descriptor.1]
    exact ⟨rfl, rfl⟩
  | accepted => exact absurd rfl (haccept _ _)
  | accept_failed => exact absurd rfl (haccept _ _)
  | resume hreturn hsubmit =>
    obtain ⟨front, h, back, _, _, rfl⟩ := hreturn
    rw [hsubmit.descriptor.1]
    exact ⟨rfl, rfl⟩
  | shut_down htype hcomplete =>
    obtain ⟨front, back, _, rfl⟩ := hcomplete
    exact ⟨rfl, rfl⟩

theorem Move.addr_len (hmove : b.Move a b') (hlen : b.server.addr_len = 28) :
    b'.server.addr_len = 28 := by
  by_cases haccept : ∃ r res, a = .accept_completed r res
  · obtain ⟨r, res, rfl⟩ := haccept
    cases hmove with
    | accepted => rfl
    | accept_failed peer htype hcomplete hres =>
      unfold with_server
      dsimp only
      split
      · rfl
      · exact hlen
  · rw [(hmove.addr6 fun r res h => haccept ⟨r, res, h⟩).2]
    exact hlen

/-- Of a server with one accept in flight at most, all accepts are that one. -/
theorem accepts_unique (hone : b.accepts ≤ 1) {r r' : Request} (hr : r ∈ b.requests)
    (hr' : r' ∈ b.requests) (htype : r.context.type = .accept) (htype' : r'.context.type = .accept) :
    r = r' := by
  rw [accepts, List.countP_eq_length_filter] at hone
  have hmem : r ∈ b.requests.filter (·.context.type = .accept) := by simp [hr, htype]
  have hmem' : r' ∈ b.requests.filter (·.context.type = .accept) := by simp [hr', htype']
  obtain ⟨q, hq⟩ : ∃ q, b.requests.filter (·.context.type = .accept) = [q] :=
    List.length_eq_one_iff.mp (Nat.le_antisymm hone (List.length_pos_of_mem hmem))
  rw [hq] at hmem hmem'
  exact (List.mem_singleton.mp hmem).trans (List.mem_singleton.mp hmem').symm

end ServerView

/-- A process while connections arrive. The kernel stores the address of a
    connection at any time between the submission and the completion of its
    accept: `arrived` is that address for the accepts in flight that have one.
    `connected` is, for each socket made by a completion, the server and the
    address of the connection the completion is for. -/
structure Accepting where
  world : World
  arrived : ContextId → Option SockAddr := fun _ => none
  connected : ObjectId → Option (ObjectId × SockAddr) := fun _ => none

inductive AcceptEvent where
  | arrive (context : ContextId) (peer : SockAddr)
  | process (e : Event)

namespace World

/-- The kernel stores the address of a connection in `addr6`. -/
def store_peer (w : World) (i : ObjectId) (server : TcpServer) (peer : SockAddr) : World :=
  w.set_server i { server with
    addr6 := server.addr6.copy peer (min server.addr_len 28)
    addr_len := 28 }

/-- What is left for the kernel to do when an accept completes whose address is
    stored. -/
def accept_descriptor (w : World) (r : Request) (cqe : Cqe) : World :=
  match r.context.handler, w.to_tcp_server_ptr r.context.handler with
  | some i, some _ => if 0 ≤ cqe.res then w.open_descriptor cqe.res i else w
  | _, _ => w

/-- `complete` for such an accept. -/
def complete_accept (p : Platform) (w : World) (r : Request) (cqe : Cqe) (sqe : Bool) : Option World :=
  if w.kernel_allows r cqe then
    (IoService.io p ((w.completed r.user_data).accept_descriptor r cqe) r.user_data cqe.res sqe).toOption
  else none

/-- The accept that an event completes. -/
def accept_of (w : World) : Event → Option (Request × Cqe × Bool)
  | .complete c cqe sqe =>
    match w.inflight.find? (·.user_data = c) with
    | some r => if r.opcode = .accept then some (r, cqe, sqe) else none
    | none => none
  | _ => none

end World

namespace Accepting

/-- A connection arrives for an accept in flight that has none yet. -/
def arrive (x : Accepting) (c : ContextId) (peer : SockAddr) : Option Accepting := do
  let r ← x.world.inflight.find? (·.user_data = c)
  let i ← r.context.handler
  let server ← x.world.servers i
  if r.opcode = .accept ∧ x.arrived c = none then
    some { x with
      world := x.world.store_peer i server peer
      arrived := Function.update x.arrived c (some peer) }
  else none

/-- An accept completes, with the connection that has arrived unless it fails. -/
def complete (p : Platform) (x : Accepting) (r : Request) (cqe : Cqe) (sqe : Bool) :
    Option Accepting :=
  if cqe.res < 0 ∨ (x.arrived r.user_data).isSome then do
    let world ← x.world.complete_accept p r cqe sqe
    some {
      world
      arrived := Function.update x.arrived r.user_data none
      connected := if 0 < cqe.res then
          Function.update x.connected x.world.objects
            (r.context.handler.bind fun i => (x.arrived r.user_data).map (i, ·))
        else x.connected }
  else none

def process (p : Platform) (x : Accepting) (e : Event) : Option Accepting :=
  match x.world.accept_of e with
  | some (r, cqe, sqe) => x.complete p r cqe sqe
  | none => (x.world.step p e).map fun world => { x with world }

def step (p : Platform) (x : Accepting) : AcceptEvent → Option Accepting
  | .arrive c peer => x.arrive c peer
  | .process e => x.process p e

end Accepting

def acceptor (p : Platform) : Machine Accepting AcceptEvent where
  init := { world := World.start p }
  step := Accepting.step p

namespace SockAddr

/-- The addresses are the same in what the kernel stores of them. -/
structure Agrees (a b : SockAddr) : Prop where
  sa_family : a.sa_family = b.sa_family
  sa_data : ∀ k : Fin 126, k.val + 2 < 28 → a.sa_data k = b.sa_data k

theorem copy_self (a : SockAddr) (len : Nat) : a.copy a len = a := by
  simp only [copy, ite_self]

theorem copy_agrees (a b : SockAddr) : (a.copy b 28).Agrees b := by
  refine ⟨rfl, fun k hk => ?_⟩
  simp only [copy, hk, ↓reduceIte]

theorem Agrees.port {a b : SockAddr} (h : a.Agrees b) : a.port = b.port := by
  rw [SockAddr.port, SockAddr.port, h.sa_data 0 (by decide), h.sa_data 1 (by decide)]

/-- What `set_remote_info` keeps of them is the same. -/
theorem Agrees.copy {a b : SockAddr} (h : a.Agrees b) (dst : SockAddr) :
    dst.copy a (if a.sa_family = AF_INET then 16 else 28) =
      dst.copy b (if b.sa_family = AF_INET then 16 else 28) := by
  obtain ⟨hfamily, hdata⟩ := h
  have hlen : (if b.sa_family = AF_INET then 16 else 28) ≤ 28 := by split <;> omega
  rw [hfamily]
  generalize (if b.sa_family = AF_INET then 16 else 28) = len at hlen ⊢
  simp only [SockAddr.copy, hfamily, SockAddr.mk.injEq, true_and]
  funext k
  by_cases hk : k.val + 2 < len
  · simp only [hk, ↓reduceIte, hdata k (by omega)]
  · simp only [hk, ↓reduceIte]

end SockAddr

namespace World

variable {p : Platform} {w w' : World} {i : ObjectId} {server : TcpServer} {r : Request} {cqe : Cqe}
  {sqe : Bool} {e : Event}

theorem set_server_same (hserver : w.servers i = some server) : w.set_server i server = w := by
  have hsame : Function.update w.servers i (some server) = w.servers := by
    rw [← hserver, Function.update_eq_self]
  rw [set_server, hsame]

/-- An accept that completes when its address is stored does what it does when
    the kernel stores that address again. -/
theorem complete_accept_eq (hfind : w.inflight.find? (·.user_data = r.user_data) = some r)
    (hopcode : r.opcode = .accept) (hhandler : r.context.handler = some i)
    (hserver : w.servers i = some server) (hlen : server.addr_len = 28) :
    w.complete_accept p r cqe sqe =
      (machine p).step w (.complete r.user_data { cqe with peer := server.addr6 } sqe) := by
  have hallows : w.kernel_allows r { cqe with peer := server.addr6 } = w.kernel_allows r cqe := by
    simp only [kernel_allows, hopcode]
  have hstored : (w.completed r.user_data).set_server i { server with
      addr6 := server.addr6.copy server.addr6 (min server.addr_len 28), addr_len := 28 } =
      w.completed r.user_data := by
    have hsame : { server with
        addr6 := server.addr6.copy server.addr6 (min server.addr_len 28), addr_len := 28 } = server := by
      rw [SockAddr.copy_self, ← hlen]
    rw [hsame]
    exact set_server_same hserver
  have hpointer : (w.completed r.user_data).to_tcp_server_ptr (some i) = some server := hserver
  have hkernel : (w.completed r.user_data).kernel r { cqe with peer := server.addr6 } =
      (w.completed r.user_data).accept_descriptor r cqe := by
    rw [World.kernel, hopcode, accept_descriptor]
    simp only [hhandler, hpointer, hstored]
  change _ = w.complete p r.user_data { cqe with peer := server.addr6 } sqe
  rw [World.complete, hfind]
  change _ = if w.kernel_allows r { cqe with peer := server.addr6 } then _ else none
  rw [hallows, hkernel, complete_accept]

/-- What the completion of an accept does to the servers, and the socket it makes
    for a connection. -/
theorem Wf.complete_accept_spec (hwf : w.Wf) (hr : r ∈ w.inflight)
    (htype : r.context.type = .accept) (hhandler : r.context.handler = some i)
    (hserver : w.servers i = some server) (hcomplete : w.complete_accept p r cqe sqe = some w') :
    w'.servers = w.servers ∧ (0 < cqe.res →
      (∃ s, w'.sockets w.objects = some s ∧ s.socket_handler = cqe.res ∧
        s.remote_port_number = server.addr6.port ∧
        s.addr_storage = ({} : SockAddr).copy server.addr6
          (if server.addr6.sa_family = AF_INET then 16 else 28)) ∧
      (w'.history i).callbacks = (w.history i).callbacks ++
        if server.new_connect_event then [.accept w.objects] else []) := by
  rw [complete_accept] at hcomplete
  split at hcomplete
  · have hio := IoBuffer.toOption_eq_some_iff.mp hcomplete
    have hdescriptor : ∃ descriptors, (w.completed r.user_data).accept_descriptor r cqe =
        { w.completed r.user_data with descriptors } := by
      unfold accept_descriptor
      split
      · split
        · exact ⟨_, rfl⟩
        · exact ⟨_, rfl⟩
      · exact ⟨_, rfl⟩
    obtain ⟨descriptors, hdescriptors⟩ := hdescriptor
    have hcontext : (w.completed r.user_data).contexts r.user_data = r.context := hwf.contexts r hr
    have hpointer : ({ w.completed r.user_data with descriptors } : World).to_tcp_server_ptr (some i) =
        some server := hserver
    rw [hdescriptors, IoService.io] at hio
    simp only [hcontext, htype, hhandler, hpointer] at hio
    by_cases hres : 0 < cqe.res
    · rw [if_pos hres] at hio
      cases hio
      have hservers : (TcpServer.io_accepting { w.completed r.user_data with descriptors } i server
          r.user_data cqe.res).servers = w.servers := by
        unfold TcpServer.io_accepting
        dsimp only
        split <;> rfl
      refine ⟨hservers, fun _ => ⟨?_, ?_⟩⟩
      · refine ⟨TcpSocket.set_remote_info { socket_type := .tcp, socket_handler := cqe.res }
          server.addr6, ?_, rfl, rfl, rfl⟩
        unfold TcpServer.io_accepting
        dsimp only
        split
        · exact Function.update_self _ _ _
        · exact Function.update_self _ _ _
      · unfold TcpServer.io_accepting
        dsimp only
        split
        · rw [World.call, record_history, Function.update_self]
          rfl
        · exact (List.append_nil _).symm
    · rw [if_neg hres] at hio
      cases hio
      exact ⟨rfl, fun h => absurd h hres⟩
  · cases hcomplete

/-- An accept in flight belongs to a server. -/
theorem Wf.accept_server (hwf : w.Wf) (hr : r ∈ w.inflight) (hopcode : r.opcode = .accept) :
    r.context.type = .accept ∧ ∃ i server, r.context.handler = some i ∧
      w.servers i = some server := by
  obtain ⟨i, hhandler, hfilled, hkind⟩ := hwf.typed r hr
  have htype : r.context.type = .accept := by
    rw [hopcode, IoContext.opcode] at hkind
    cases htype : r.context.type with
    | accept => rfl
    | read | write =>
      rw [htype] at hkind
      cases hctype : r.context.ctype <;> rw [hctype] at hkind <;> cases hkind
    | shutdown | unknown =>
      rw [htype] at hkind
      cases hkind
  rw [World.Filled, htype] at hfilled
  obtain ⟨server, hserver⟩ := Option.isSome_iff_exists.mp hfilled
  exact ⟨htype, i, server, hhandler, hserver⟩

theorem accept_of_eq (haccept : w.accept_of e = some (r, cqe, sqe)) :
    ∃ c, e = .complete c cqe sqe ∧ w.inflight.find? (·.user_data = c) = some r ∧
      r.opcode = .accept := by
  cases e with
  | complete c cqe' sqe' =>
    rw [accept_of] at haccept
    cases hfind : w.inflight.find? (·.user_data = c) with
    | none =>
      rw [hfind] at haccept
      cases haccept
    | some r' =>
      rw [hfind] at haccept
      dsimp only at haccept
      split at haccept
      · rename_i hopcode
        cases haccept
        exact ⟨c, rfl, hfind, hopcode⟩
      · cases haccept
  | _ => cases haccept

/-- A completed accept of a server is an accept that an event completes. -/
theorem Wf.accept_of_none (hwf : w.Wf) (hnone : w.accept_of e = none) (r : Request) (res : Int) :
    w.server_action i e ≠ .accept_completed r res := by
  intro haction
  cases e with
  | complete c cqe sqe =>
    cases hfind : w.inflight.find? (·.user_data = c) with
    | none =>
      rw [server_action, hfind] at haction
      cases haction
    | some r' =>
      obtain ⟨j, hj, _, hkind⟩ := hwf.typed r' (List.mem_of_find?_eq_some hfind)
      rw [server_action_complete hfind hj] at haction
      split at haction
      · cases htype : r'.context.type with
        | accept =>
          have hopcode : r'.opcode = .accept := by rw [hkind, IoContext.opcode, htype]
          rw [accept_of, hfind] at hnone
          dsimp only at hnone
          rw [if_pos hopcode] at hnone
          cases hnone
        | unknown | read | write | shutdown =>
          rw [htype] at haction
          cases haction
      · cases haction
  | _ =>
    simp only [server_action] at haction
    repeat' split at haction
    all_goals cases haction

end World

/-- The address a socket of a connection from `peer` has. -/
structure SocketObject.Carries (s : SocketObject) (peer : SockAddr) : Prop where
  remote_port_number : s.remote_port_number = peer.port
  addr_storage : s.addr_storage =
    ({} : SockAddr).copy peer (if peer.sa_family = AF_INET then 16 else 28)

namespace Accepting

open World

variable {p : Platform} {x x' : Accepting} {i : ObjectId} {server : TcpServer} {r : Request} {cqe : Cqe}
  {sqe : Bool} {e : Event}

/-- Socket `j` is made for the connection that has arrived for an accept of server
    `i`, and given what is in `addr6`. -/
def Connects (x x' : Accepting) (j i : ObjectId) (peer : SockAddr) : Prop :=
  ∃ r ∈ x.world.inflight, r.context.type = .accept ∧ r.context.handler = some i ∧
    x.arrived r.user_data = some peer ∧ ∃ server, x.world.servers i = some server ∧
      ∃ s, x'.world.sockets j = some s ∧ s.Carries server.addr6

/-- What a step of the process is beside the connections: it leaves every `addr6`
    as it is, and an accept that completes takes its connection with it. -/
structure Processed (p : Platform) (x x' : Accepting) : Prop where
  step : ∃ e, (machine p).step x.world e = some x'.world ∧
    ∀ c peer, x'.arrived c = some peer → x.arrived c = some peer ∧ ∀ cqe sqe, e ≠ .complete c cqe sqe
  addr6 : ∀ i server, x.world.servers i = some server →
    ∃ server', x'.world.servers i = some server' ∧ server'.addr6 = server.addr6
  connected : ∀ j i peer, x'.connected j = some (i, peer) →
    x.connected j = some (i, peer) ∨ x.Connects x' j i peer

/-- What holds while connections arrive: with one accept of a server in flight at
    most, its `addr6` holds the connection that has arrived for it. -/
structure Kept (x : Accepting) : Prop where
  wf : x.world.Wf
  addressed : x.world.Addressed
  bounded : ∀ i server, x.world.servers i = some server →
    (x.world.server_view_with i server).Bounded
  addr_len : ∀ i server, x.world.servers i = some server → server.addr_len = 28
  pending : ∀ c peer, x.arrived c = some peer →
    ∃ r ∈ x.world.inflight, r.user_data = c ∧ r.context.type = .accept
  stored : ∀ r ∈ x.world.inflight, r.context.type = .accept → ∀ i server peer,
    r.context.handler = some i → x.world.servers i = some server →
    (x.world.history i).activations ≤ 1 → x.arrived r.user_data = some peer →
    server.addr6.Agrees peer
  connected : ∀ j i peer, x.connected j = some (i, peer) → (x.world.servers i).isSome ∧
    ((x.world.history i).activations ≤ 1 → ∃ s, x.world.sockets j = some s ∧ s.Carries peer)

theorem Kept.start : Kept { world := World.start p } where
  wf := Wf.start p
  addressed := fun r hr => by cases hr
  bounded := fun i server hserver => by cases hserver
  addr_len := fun i server hserver => by cases hserver
  pending := fun c peer hpeer => by cases hpeer
  stored := fun r hr => by cases hr
  connected := fun j i peer hpeer => by cases hpeer

/-- The accept that completes, its server, and the step it is. -/
theorem Kept.complete_accept (hx : x.Kept) {c : ContextId}
    (hfind : x.world.inflight.find? (·.user_data = c) = some r) (hopcode : r.opcode = .accept)
    {w' : World} (hcomplete : x.world.complete_accept p r cqe sqe = some w') :
    r ∈ x.world.inflight ∧ r.user_data = c ∧ r.context.type = .accept ∧
      ∃ i server, r.context.handler = some i ∧ x.world.servers i = some server ∧
        (machine p).step x.world (.complete c { cqe with peer := server.addr6 } sqe) = some w' := by
  have hr : r ∈ x.world.inflight := List.mem_of_find?_eq_some hfind
  have huser : r.user_data = c := by simpa using List.find?_some hfind
  obtain ⟨htype, i, server, hhandler, hserver⟩ := hx.wf.accept_server hr hopcode
  refine ⟨hr, huser, htype, i, server, hhandler, hserver, ?_⟩
  subst c
  rw [← complete_accept_eq hfind hopcode hhandler hserver (hx.addr_len i server hserver)]
  exact hcomplete

/-- Every step of the process is one beside the connections. -/
theorem Kept.processed (hx : x.Kept) (hprocess : x.process p e = some x') : Processed p x x' := by
  unfold process at hprocess
  cases haccept : x.world.accept_of e with
  | none =>
    rw [haccept] at hprocess
    obtain ⟨w', hstep, rfl⟩ := Option.map_eq_some_iff.mp hprocess
    have hdoes : Does p x.world e w' := hx.wf.step_does hstep
    refine ⟨⟨e, hstep, fun c peer hpeer => ⟨hpeer, ?_⟩⟩, fun i server hserver => ?_,
      fun j i peer hpeer => .inl hpeer⟩
    · rintro cqe sqe rfl
      obtain ⟨r, hr, rfl, htype⟩ := hx.pending c peer hpeer
      obtain ⟨i, _, _, hkind⟩ := hx.wf.typed r hr
      have hopcode : r.opcode = .accept := by rw [hkind, IoContext.opcode, htype]
      rw [accept_of, hx.wf.find_inflight hr] at haccept
      dsimp only at haccept
      rw [if_pos hopcode] at haccept
      cases haccept
    · obtain ⟨b', hb', hmove⟩ := (hdoes.serves i).move _ (server_view_eq hserver)
      obtain ⟨server', hserver', rfl⟩ := Option.map_eq_some_iff.mp hb'
      exact ⟨server', hserver', (hmove.addr6 (hx.wf.accept_of_none haccept)).1⟩
  | some completion =>
    obtain ⟨r, cqe, sqe⟩ := completion
    rw [haccept] at hprocess
    obtain ⟨c, rfl, hfind, hopcode⟩ := accept_of_eq haccept
    dsimp only at hprocess
    unfold complete at hprocess
    split at hprocess
    · obtain ⟨w', hcomplete, hrest⟩ := Option.bind_eq_some_iff.mp hprocess
      cases hrest
      obtain ⟨hr, rfl, htype, i, server, hhandler, hserver, hstep⟩ :=
        hx.complete_accept hfind hopcode hcomplete
      obtain ⟨hservers, hsocket⟩ := hx.wf.complete_accept_spec hr htype hhandler hserver hcomplete
      refine ⟨⟨_, hstep, fun c peer hpeer => ?_⟩, fun j server hserver => ?_, fun j k peer hpeer => ?_⟩
      · dsimp only at hpeer
        by_cases hc : c = r.user_data
        · subst c
          rw [Function.update_self] at hpeer
          cases hpeer
        · rw [Function.update_of_ne hc] at hpeer
          refine ⟨hpeer, fun cqe sqe heq => hc ?_⟩
          cases heq
          rfl
      · exact ⟨server, by rw [hservers]; exact hserver, rfl⟩
      · dsimp only at hpeer
        split at hpeer
        · rename_i hres
          by_cases hj : j = x.world.objects
          · subst j
            rw [Function.update_self, hhandler, Option.bind_some] at hpeer
            obtain ⟨peer', harrived, heq⟩ := Option.map_eq_some_iff.mp hpeer
            cases heq
            obtain ⟨⟨s, hs, _, hport, haddr⟩, _⟩ := hsocket hres
            exact .inr ⟨r, hr, htype, hhandler, harrived, server, hserver, s, hs, hport, haddr⟩
          · rw [Function.update_of_ne hj] at hpeer
            exact .inl hpeer
        · exact .inl hpeer
    · cases hprocess

/-- The server that a server of the process after a step was before it, unless it
    is new. -/
theorem Processed.server_before (hwf : x.world.Wf) (h : Processed p x x')
    (hserver : x'.world.servers i = some server) :
    (x'.world.server_view_with i server).Fresh ∨ ∃ server₀ a, x.world.servers i = some server₀ ∧
      (x.world.server_view_with i server₀).Move a (x'.world.server_view_with i server) ∧
      server.addr6 = server₀.addr6 := by
  obtain ⟨e, hstep, _⟩ := h.step
  have hdoes : Does p x.world e x'.world := hwf.step_does hstep
  cases hserver₀ : x.world.servers i with
  | none =>
    have hview : x.world.server_view i = none := by
      rw [server_view, hserver₀]
      rfl
    exact .inl ((hdoes.serves i).fresh _ hview (server_view_eq hserver))
  | some server₀ =>
    obtain ⟨b', hb', hmove⟩ := (hdoes.serves i).move _ (server_view_eq hserver₀)
    obtain ⟨server', hserver', haddr6⟩ := h.addr6 i server₀ hserver₀
    rw [hserver] at hserver'
    cases hserver'
    rw [server_view_eq hserver] at hb'
    cases hb'
    exact .inr ⟨server₀, _, rfl, hmove, haddr6⟩

/-- A server stays, and a `run` that has returned true is not forgotten. -/
theorem Processed.activations (hwf : x.world.Wf) (h : Processed p x x')
    (hserver : (x.world.servers i).isSome) : (x'.world.servers i).isSome ∧
      (x.world.history i).activations ≤ (x'.world.history i).activations := by
  obtain ⟨e, hstep, _⟩ := h.step
  have hdoes : Does p x.world e x'.world := hwf.step_does hstep
  obtain ⟨server, hserver⟩ := Option.isSome_iff_exists.mp hserver
  obtain ⟨b', hb', hmove⟩ := (hdoes.serves i).move _ (server_view_eq hserver)
  obtain ⟨server', hserver', rfl⟩ := Option.map_eq_some_iff.mp hb'
  exact ⟨by simp [hserver'], hmove.activations_le⟩

theorem Kept.process (hx : x.Kept) (h : Processed p x x') : x'.Kept := by
  obtain ⟨e, hstep, harrived⟩ := h.step
  have hwf' : x'.world.Wf := Wf.step (p := p) (e := e) hx.wf hstep
  -- the accept that an address was stored for is still in flight
  have hout : ∀ c peer, x'.arrived c = some peer → c ∈ x.world.custody.out := by
    intro c peer hpeer
    obtain ⟨r, hr, rfl, _⟩ := hx.pending c peer (harrived c peer hpeer).1
    exact List.mem_map_of_mem hr
  have hstored : ∀ r ∈ x.world.inflight, r.context.type = .accept → ∀ i server peer,
      r.context.handler = some i → x.world.servers i = some server →
      (x'.world.history i).activations ≤ 1 → x.arrived r.user_data = some peer →
      server.addr6.Agrees peer := by
    intro r hr htype i server peer hhandler hserver honce hpeer
    have hmore := (h.activations (i := i) hx.wf (by simp [hserver])).2
    exact hx.stored r hr htype i server peer hhandler hserver (hmore.trans honce) hpeer
  refine ⟨hwf', hx.wf.addressed_step hx.addressed hstep, ?_, ?_, ?_, ?_, ?_⟩
  · intro i server hserver
    rcases h.server_before hx.wf hserver with hfresh | ⟨server₀, a, hserver₀, hmove, _⟩
    · exact hfresh.bounded
    · exact (hx.bounded i server₀ hserver₀).move hmove
  · intro i server hserver
    rcases h.server_before hx.wf hserver with hfresh | ⟨server₀, a, hserver₀, hmove, _⟩
    · have hnew : server = {} := hfresh.server
      rw [hnew]
    · exact hmove.addr_len (hx.addr_len i server₀ hserver₀)
  · intro c peer hpeer
    obtain ⟨hbefore, hother⟩ := harrived c peer hpeer
    obtain ⟨r, hr, rfl, htype⟩ := hx.pending c peer hbefore
    obtain ⟨hout', hcontext⟩ := hx.wf.step_out hx.addressed (hout _ _ hpeer) hother hstep
    obtain ⟨r', hr', huser⟩ := List.mem_map.mp hout'
    refine ⟨r', hr', huser, ?_⟩
    rw [← hwf'.contexts r' hr', huser, hcontext, hx.wf.contexts r hr]
    exact htype
  · intro r hr htype i server peer hhandler hserver honce hpeer
    obtain ⟨r₀, hr₀, huser, hcontext⟩ :=
      hx.wf.step_kept hx.addressed hstep hr (hout _ _ hpeer)
    have htype₀ : r₀.context.type = .accept := hcontext ▸ htype
    have hhandler₀ : r₀.context.handler = some i := hcontext ▸ hhandler
    obtain ⟨j, hj, hfilled, _⟩ := hx.wf.typed r₀ hr₀
    rw [hhandler₀] at hj
    cases hj
    rw [World.Filled, htype₀] at hfilled
    obtain ⟨server₀, hserver₀⟩ := Option.isSome_iff_exists.mp hfilled
    obtain ⟨server', hserver', haddr6⟩ := h.addr6 i server₀ hserver₀
    rw [hserver] at hserver'
    cases hserver'
    rw [haddr6]
    refine hstored r₀ hr₀ htype₀ i server₀ peer hhandler₀ hserver₀ honce ?_
    rw [huser]
    exact (harrived _ _ hpeer).1
  · intro j i peer hpeer
    rcases h.connected j i peer hpeer with hbefore |
      ⟨r, hr, htype, hhandler, hfirst, server, hserver, s, hs, hport, haddr⟩
    · obtain ⟨hserver, hcarries⟩ := hx.connected j i peer hbefore
      obtain ⟨hserver', hmore⟩ := h.activations hx.wf hserver
      refine ⟨hserver', fun honce => ?_⟩
      obtain ⟨s, hs, hport, haddr⟩ := hcarries (hmore.trans honce)
      have hdoes : Does p x.world e x'.world := hx.wf.step_does hstep
      obtain ⟨v', hv', hmove⟩ := (hdoes.moves j).move _ (view_eq hs)
      obtain ⟨s', hs', rfl⟩ := Option.map_eq_some_iff.mp hv'
      exact ⟨s', hs', hmove.remote_info.2.trans hport, hmove.remote_info.1.trans haddr⟩
    · refine ⟨(h.activations (i := i) hx.wf (by simp [hserver])).1, fun honce => ⟨s, hs, ?_, ?_⟩⟩
      · exact hport.trans (hstored r hr htype i server peer hhandler hserver honce hfirst).port
      · rw [haddr]
        exact (hstored r hr htype i server peer hhandler hserver honce hfirst).copy _

theorem Kept.arrive (hx : x.Kept) {c : ContextId} {peer : SockAddr}
    (harrive : x.arrive c peer = some x') : x'.Kept := by
  obtain ⟨r, hfind, harrive⟩ := Option.bind_eq_some_iff.mp harrive
  obtain ⟨i, hhandler, harrive⟩ := Option.bind_eq_some_iff.mp harrive
  obtain ⟨server, hserver, harrive⟩ := Option.bind_eq_some_iff.mp harrive
  split at harrive
  · rename_i hguard
    obtain ⟨hopcode, hnone⟩ := hguard
    cases harrive
    have hr : r ∈ x.world.inflight := List.mem_of_find?_eq_some hfind
    have huser : r.user_data = c := by simpa using List.find?_some hfind
    have htype := (hx.wf.accept_server hr hopcode).1
    have hlen := hx.addr_len i server hserver
    have hservers : ∀ j t, (x.world.store_peer i server peer).servers j = some t →
        (j = i ∧ t.addr6 = server.addr6.copy peer 28 ∧ t.addr_len = 28) ∨
          (j ≠ i ∧ x.world.servers j = some t) := by
      intro j t ht
      by_cases hj : j = i
      · subst j
        rw [store_peer, set_server_self, hlen] at ht
        cases ht
        exact .inl ⟨rfl, rfl, rfl⟩
      · rw [store_peer, set_server_servers, Function.update_of_ne hj] at ht
        exact .inr ⟨hj, ht⟩
    have hkept : ∀ j t, (x.world.store_peer i server peer).servers j = some t →
        ∃ t₀, x.world.servers j = some t₀ := by
      intro j t ht
      rcases hservers j t ht with ⟨rfl, _⟩ | ⟨_, ht₀⟩
      · exact ⟨server, hserver⟩
      · exact ⟨t, ht₀⟩
    refine ⟨hx.wf.set_server _ hserver, hx.addressed, ?_, ?_, ?_, ?_, ?_⟩
    · intro j t ht
      obtain ⟨t₀, ht₀⟩ := hkept j t ht
      exact hx.bounded j t₀ ht₀
    · intro j t ht
      rcases hservers j t ht with ⟨_, _, hlen'⟩ | ⟨_, ht₀⟩
      · exact hlen'
      · exact hx.addr_len j t ht₀
    · intro c' peer' hpeer
      by_cases hc : c' = c
      · subst c'
        exact ⟨r, hr, huser, htype⟩
      · exact hx.pending c' peer' ((Function.update_of_ne hc _ _).symm.trans hpeer)
    · intro r' hr' htype' j t peer' hhandler' ht honce hpeer
      by_cases hc : r'.user_data = c
      · have hsame : r' = r := by
          have hfind' := hx.wf.find_inflight hr'
          rw [hc, hfind] at hfind'
          exact (Option.some.inj hfind').symm
        subst r'
        rw [hhandler] at hhandler'
        cases hhandler'
        have hpeer : Function.update x.arrived c (some peer) r.user_data = some peer' := hpeer
        rw [hc, Function.update_self] at hpeer
        cases hpeer
        rcases hservers i t ht with ⟨_, haddr6, _⟩ | ⟨hne, _⟩
        · rw [haddr6]
          exact SockAddr.copy_agrees _ _
        · exact absurd rfl hne
      · have hpeer : x.arrived r'.user_data = some peer' :=
          (Function.update_of_ne hc _ _).symm.trans hpeer
        rcases hservers j t ht with ⟨rfl, _⟩ | ⟨_, ht₀⟩
        · -- two accepts of one server would be in flight
          have hbounded := hx.bounded j server hserver
          have hone : (x.world.server_view_with j server).accepts ≤ 1 :=
            (Nat.le_add_right _ _).trans (hbounded.trans honce)
          have hsame := ServerView.accepts_unique hone
            (List.mem_filter.mpr ⟨hr', by simpa using hhandler'⟩)
            (List.mem_filter.mpr ⟨hr, by simpa using hhandler⟩) htype' htype
          exact absurd (hsame ▸ huser) hc
        · exact hx.stored r' hr' htype' j t peer' hhandler' ht₀ honce hpeer
    · intro j k peer' hpeer
      obtain ⟨hserver', hcarries⟩ := hx.connected j k peer' hpeer
      refine ⟨?_, hcarries⟩
      by_cases hk : k = i
      · subst k
        simp [store_peer]
      · simpa [store_peer, hk] using hserver'
  · cases harrive

theorem Kept.reachable (hreach : (acceptor p).Reachable Machine.Any x) : x.Kept := by
  refine Machine.Run.invariant hreach .start ?_
  intro x e x' _ hx _ hstep
  cases e with
  | arrive c peer => exact hx.arrive hstep
  | process e => exact hx.process (hx.processed hstep)

end Accepting

open World

variable {p : Platform} {x : Accepting} {i : ObjectId} {server : TcpServer}

/-- Of a server on which `run` has returned true once: one accept is in flight at
    most; the socket that its completion makes, and the accept event is given,
    carries the address of the connection that has arrived for it; and every
    socket made for a connection of the server carries the address of that one. -/
theorem accepted_sockets_carry_peer (hreach : (acceptor p).Reachable Machine.Any x)
    (hserver : x.world.servers i = some server) (honce : (x.world.history i).activations ≤ 1) :
    (x.world.inflight.filter fun r =>
      r.context.handler = some i ∧ r.context.type = .accept).length ≤ 1 ∧
    (∀ r ∈ x.world.inflight, r.context.handler = some i → r.context.type = .accept →
      ∀ cqe sqe x', 0 < cqe.res →
        (acceptor p).step x (.process (.complete r.user_data cqe sqe)) = some x' →
        ∃ peer s, x.arrived r.user_data = some peer ∧
          x'.connected x.world.objects = some (i, peer) ∧
          x'.world.sockets x.world.objects = some s ∧ s.socket_handler = cqe.res ∧ s.Carries peer ∧
          (x'.world.history i).callbacks = (x.world.history i).callbacks ++
            if server.new_connect_event then [.accept x.world.objects] else []) ∧
    ∀ j peer, x.connected j = some (i, peer) → ∃ s, x.world.sockets j = some s ∧ s.Carries peer := by
  have hx := Accepting.Kept.reachable hreach
  refine ⟨?_, ?_, fun j peer hpeer => (hx.connected j i peer hpeer).2 honce⟩
  · have hbounded := hx.bounded i server hserver
    have hone : (x.world.server_view_with i server).accepts ≤ 1 :=
      (Nat.le_add_right _ _).trans (hbounded.trans honce)
    rw [ServerView.accepts, List.countP_eq_length_filter, server_view_with, List.filter_filter] at hone
    refine le_of_eq_of_le (congrArg List.length (List.filter_congr fun r _ => ?_)) hone
    simp [and_comm]
  · intro r hr hhandler htype cqe sqe x' hres hstep
    obtain ⟨_, _, _, hkind⟩ := hx.wf.typed r hr
    have hopcode : r.opcode = .accept := by rw [hkind, IoContext.opcode, htype]
    have hfind := hx.wf.find_inflight hr
    have haccept : x.world.accept_of (.complete r.user_data cqe sqe) = some (r, cqe, sqe) := by
      rw [accept_of, hfind]
      exact if_pos hopcode
    change x.process p _ = some x' at hstep
    rw [Accepting.process, haccept] at hstep
    dsimp only at hstep
    rw [Accepting.complete] at hstep
    split at hstep
    · rename_i hguard
      obtain ⟨w', hcomplete, hrest⟩ := Option.bind_eq_some_iff.mp hstep
      cases hrest
      obtain ⟨peer, hpeer⟩ := Option.isSome_iff_exists.mp (hguard.resolve_left (by omega))
      obtain ⟨_, hmade⟩ := hx.wf.complete_accept_spec hr htype hhandler hserver hcomplete
      obtain ⟨⟨s, hs, hhandle, hport, haddr⟩, hcallbacks⟩ := hmade hres
      have hagrees := hx.stored r hr htype i server peer hhandler hserver honce hpeer
      refine ⟨peer, s, hpeer, ?_, hs, hhandle, ⟨hport.trans hagrees.port, ?_⟩, hcallbacks⟩
      · dsimp only
        rw [Function.update_self, hhandler, hpeer]
        rfl
      · rw [haddr]
        exact hagrees.copy _
    · cases hstep

def remote_address (port : UInt8) : SockAddr where
  sa_family := AF_INET
  sa_data k := if k.val = 1 then port else 0

/-- A second connection arrives while the first socket is being handled. -/
def two_connections : List AcceptEvent := [
  .process .create_server,
  .process (.run 1 7 true true 0 true),
  .arrive 0 (remote_address 1),
  .process (.complete 0 { res := 8 } true),
  .process (.resume 0 true true),
  .arrive 1 (remote_address 2),
  .process (.complete 1 { res := 9 } true)]

theorem accepted_sockets_carry_peer_two : ∃ (x : Accepting) (s s' : SocketObject),
    (acceptor .small).Reachable Machine.Any x ∧
      x.connected 2 = some (1, remote_address 1) ∧ x.connected 3 = some (1, remote_address 2) ∧
      x.world.sockets 2 = some s ∧ s.Carries (remote_address 1) ∧
      x.world.sockets 3 = some s' ∧ s'.Carries (remote_address 2) := by
  obtain ⟨x, hreach, hx⟩ := Machine.reachable_of_exec (acceptor .small) Machine.Any two_connections
    (fun x => (x.world.servers 1).isSome && decide ((x.world.history 1).activations ≤ 1) &&
      (x.connected 2 == some (1, remote_address 1) && x.connected 3 == some (1, remote_address 2)))
    (by decide +kernel)
  simp only [Bool.and_eq_true, Option.isSome_iff_exists, decide_eq_true_eq, beq_iff_eq] at hx
  obtain ⟨⟨⟨server, hserver⟩, honce⟩, hfirst, hsecond⟩ := hx
  obtain ⟨_, _, hcarries⟩ := accepted_sockets_carry_peer hreach hserver honce
  obtain ⟨s, hs, hone⟩ := hcarries 2 _ hfirst
  obtain ⟨s', hs', htwo⟩ := hcarries 3 _ hsecond
  exact ⟨x, s, s', hreach, hfirst, hsecond, hs, hone, hs', htwo⟩

end rioring
