import Rioring.View

/-! One TCP server of a process on its own, as `View` shows a socket. -/

namespace rioring

/-- The server `object` with its requests in flight, the completions in its
    accept callback, and its history. -/
structure ServerView where
  object : ObjectId
  server : TcpServer
  requests : List Request
  accepting : List Handling
  history : History

/-- What an event does to one server. -/
inductive ServerAction where
  | idle
  | set_event
  | run (sqe : Bool)
  | stop (sqe : Bool)
  | accept_completed (r : Request) (res : Int)
  | resume (context : ContextId) (sqe : Bool)
  | shut_down (r : Request)

namespace ServerView

/-- A server that has just been created. -/
structure Fresh (b : ServerView) : Prop where
  server : b.server = {}
  requests : b.requests = []
  accepting : b.accepting = []
  history : b.history = {}

def call (b : ServerView) (callback : Callback) : ServerView :=
  { b with history := { b.history with callbacks := b.history.callbacks ++ [callback] } }

def error (b : ServerView) (code : Int) : ServerView :=
  if b.server.error_event then b.call (.error code) else b

/-- Submission of a request of the given kind: an entry in flight for the
    listening descriptor, or an error event. -/
def Submits (b : ServerView) (type : IoType) (sqe : Bool) (b' : ServerView) : Prop :=
  ∃ r, r.context.type = type ∧ r.context.handler = some b.object ∧ r.fd = b.server.server_socket ∧
    b' = if sqe then
      { b with
        requests := b.requests ++ [r]
        history := { b.history with submitted := b.history.submitted ++ [r] } }
    else b.error IoService.EIO

/-- `r` is in flight and `b'` is the view without it. -/
def Completes (b : ServerView) (r : Request) (b' : ServerView) : Prop :=
  ∃ front back, b.requests = front ++ r :: back ∧ b' = { b with requests := front ++ back }

/-- The accept callback of the context `c` has returned. -/
def Returns (b : ServerView) (c : ContextId) (b' : ServerView) : Prop :=
  ∃ front h back, b.accepting = front ++ h :: back ∧ h.context = c ∧
    b' = { b with accepting := front ++ back }

def with_server (b : ServerView) (s : TcpServer) : ServerView := { b with server := s }

/-- The moves of one server, by what happened to it. -/
inductive Move : ServerView → ServerAction → ServerView → Prop where
  | idle {b : ServerView} : Move b .idle b
  | set_event {b : ServerView} (new_connect_event error_event : Bool) :
      Move b .set_event (b.with_server { b.server with new_connect_event, error_event })
  | run_failed {b : ServerView} {sqe : Bool} (fd errno : Int) :
      Move b (.run sqe) ((b.with_server { b.server with server_socket := fd }).error errno)
  | run {b b' : ServerView} {sqe : Bool} (fd : Int)
      (hsubmit : Submits { b.with_server { b.server with server_socket := fd } with
        history := { b.history with activations := b.history.activations + 1 } } .accept sqe b') :
      Move b (.run sqe) b'
  | stop {b b' : ServerView} {sqe : Bool} (hsubmit : b.Submits .shutdown sqe b') :
      Move b (.stop sqe) b'
  | accepted {b b₁ : ServerView} {r : Request} {res : Int} (peer : SockAddr) (j : ObjectId)
      (htype : r.context.type = .accept) (hcomplete : b.Completes r b₁) (hres : 0 < res) :
      Move b (.accept_completed r res) { b₁ with
        server := { b.server with
          addr6 := b.server.addr6.copy peer (min b.server.addr_len 28), addr_len := 28 }
        accepting := b.accepting ++ [{ context := r.user_data, accepting := some (b.object, j) }]
        history := { b.history with callbacks := b.history.callbacks ++
          if b.server.new_connect_event then [.accept j] else [] } }
  | accept_failed {b b₁ : ServerView} {r : Request} {res : Int} (peer : SockAddr)
      (htype : r.context.type = .accept) (hcomplete : b.Completes r b₁) (hres : res ≤ 0) :
      Move b (.accept_completed r res) (b₁.with_server (if 0 ≤ res then
        { b.server with addr6 := b.server.addr6.copy peer (min b.server.addr_len 28), addr_len := 28 }
        else b.server))
  | resume {b b₁ b' : ServerView} {c : ContextId} {sqe : Bool} (hreturn : b.Returns c b₁)
      (hsubmit : b₁.Submits .accept sqe b') : Move b (.resume c sqe) b'
  | shut_down {b b₁ : ServerView} {r : Request} (htype : r.context.type = .shutdown)
      (hcomplete : b.Completes r b₁) :
      Move b (.shut_down r) { b₁ with
        server := { b.server with server_socket := 0 }
        history := { b.history with closed := b.history.closed ++ [b.server.server_socket] } }

end ServerView

namespace World

/-- The completions that are in the accept callback of server `i`. -/
def accepting (w : World) (i : ObjectId) : List Handling :=
  w.handling.filter fun h => h.accepting.map (·.1) = some i

/-- The view of object `i` with the server state `s`. -/
def server_view_with (w : World) (i : ObjectId) (s : TcpServer) : ServerView where
  object := i
  server := s
  requests := w.inflight.filter (·.context.handler = some i)
  accepting := w.accepting i
  history := w.history i

/-- The view of a server of the process. -/
def server_view (w : World) (i : ObjectId) : Option ServerView :=
  (w.servers i).map (w.server_view_with i)

/-- What an event does to the server `i`. -/
def server_action (w : World) (i : ObjectId) : Event → ServerAction
  | .set_event j _ _ => if j = i then .set_event else .idle
  | .run j _ _ _ _ sqe => if j = i then .run sqe else .idle
  | .stop j sqe => if j = i then .stop sqe else .idle
  | .complete c cqe _ =>
    match w.inflight.find? (·.user_data = c) with
    | some r =>
      if r.context.handler = some i then
        match r.context.type with
        | .accept => .accept_completed r cqe.res
        | .shutdown => .shut_down r
        | _ => .idle
      else .idle
    | none => .idle
  | .resume c sqe _ =>
    match (w.handling.find? (·.context = c)).bind (·.accepting) with
    | some (j, _) => if j = i then .resume c sqe else .idle
    | none => .idle
  | _ => .idle

/-- A condition on what happens to the server `i`, as one on the steps of the
    process. -/
def server_permits (i : ObjectId) (ok : ServerView → ServerAction → Prop) (w : World) (e : Event) : Prop :=
  ∀ b, w.server_view i = some b → ok b (w.server_action i e)

instance (i : ObjectId) (ok : ServerView → ServerAction → Prop) [DecidableRel ok] :
    DecidableRel (server_permits i ok) := fun w e =>
  match h : w.server_view i with
  | none => .isTrue fun b hb => by rw [h] at hb; cases hb
  | some b => decidable_of_iff (ok b (w.server_action i e)) <| by
      unfold server_permits
      rw [h]
      exact ⟨fun hok b' hb => by cases hb; exact hok, fun hall => hall b rfl⟩

end World

end rioring
