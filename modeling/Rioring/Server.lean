import Rioring.Socket

namespace rioring

open IoService

namespace TcpServer

def submit_accept (w : World) (i : ObjectId) (sqe : Bool) : World :=
  submit_context w (fun ctx => { ctx with handler := some i, type := .accept }) sqe

def stop (w : World) (i : ObjectId) (sqe : Bool) : World :=
  submit_context w (fun ctx => { ctx with handler := some i, type := .shutdown }) sqe

/-- `run`, given what `socket`, `bind` and `listen` return and `errno`. -/
def run (w : World) (i : ObjectId) (s : TcpServer) (fd : Int) (bind listen : Bool) (errno : Int)
    (sqe : Bool) : Bool × World :=
  let w := w.set_server i { s with server_socket := fd }
  if fd = -1 then (false, w.io_error i errno)
  else
    let w := w.open_descriptor fd i
    if !bind then (false, w.io_error i errno)
    else if !listen then (false, w.io_error i errno)
    else
      let w := w.record i fun h => { h with activations := h.activations + 1 }
      (true, submit_accept w i sqe)

/-- `io_accepting` up to and including the accept callback: the new socket has
    its descriptor and the address of its peer. -/
def io_accepting (w : World) (i : ObjectId) (s : TcpServer) (c : ContextId) (new_socket : Int) :
    World :=
  let socket := TcpSocket.set_remote_info { socket_type := .tcp, socket_handler := new_socket } s.addr6
  let j := w.objects
  let w := { w.set_socket j socket with
    objects := w.objects + 1
    handling := w.handling.map fun h : Handling =>
      if h.context = c then { h with accepting := some (i, j) } else h }
  let w := w.open_descriptor new_socket j
  if s.new_connect_event then w.call i (.accept j) else w

/-- The rest of `io_accepting`: the accept is submitted again and the new socket
    becomes active. -/
def on_accepted (p : Platform) (w : World) (i j : ObjectId) (accept_sqe read_sqe : Bool) :
    Except Fault World :=
  let w := submit_accept w i accept_sqe
  match w.sockets j with
  | some socket => TcpSocket.on_active p w j socket read_sqe
  | none => .error .null_pointer

end TcpServer

end rioring
