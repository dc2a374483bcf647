import Rioring.Outbox
import Rioring.Windows.TcpSocket

/-! The sending side of a socket that copies its queue, piece by piece, into the
single `send_bind_buffer`. -/

namespace rioring.Windows

/-- What sending depends on: the queue, the buffer it is copied into, the writes
    in flight, and the streams that went in and out. -/
structure Sending where
  send_buffer : IoDoubleBuffer
  send_bind_buffer : List UInt8
  writes : List IoContext
  accepted : List UInt8
  transmitted : List UInt8
  activations : Nat

namespace Process

/-- The writes in flight. -/
def writes (w : Process) : List IoContext := w.requests.filter (·.type == .write)

def sending (w : Process) : Sending where
  send_buffer := w.socket.send_buffer
  send_bind_buffer := w.socket.send_bind_buffer
  writes := w.writes
  accepted := w.history.accepted
  transmitted := w.history.transmitted
  activations := w.history.activations

end Process

namespace Sending

variable {p : Platform} {o o' : Sending}

/-- The context that `submit_sending` submits. -/
def next_write (p : Platform) (o : Sending) : IoContext :=
  let size := min o.send_buffer.size p.data_buffer_size
  { type := .write
    Length := size
    payload := (Block.overwrite o.send_bind_buffer 0
      (o.send_buffer.main_buffer.storage.take size)).take size }

/-- `submit_sending`. -/
def submit (p : Platform) (o : Sending) (rio : Bool) : Sending :=
  { o with
    send_bind_buffer := Block.overwrite o.send_bind_buffer 0
      (o.send_buffer.main_buffer.storage.take (min o.send_buffer.size p.data_buffer_size))
    writes := if rio then o.writes ++ [o.next_write p] else o.writes }

/-- What an event does to the sending side. -/
inductive Action where
  | idle
  | start
  | send (bytes : Bytes) (rio : Bool)
  | sent (ctx : IoContext) (count : Nat) (rio : Bool)
  deriving DecidableEq

inductive Move (p : Platform) : Sending → Action → Sending → Prop where
  | idle {o : Sending} : Move p o .idle o
  | start {o : Sending} {send_buffer : IoDoubleBuffer}
      (hassign : o.send_buffer.assign p.malloc p.data_buffer_size = .ok send_buffer) :
      Move p o .start { o with send_buffer, activations := o.activations + 1 }
  | send_first {o o₁ : Sending} {bytes : Bytes} {rio : Bool} {send_buffer : IoDoubleBuffer}
      (hempty : o.send_buffer.empty = true)
      (hpush : o.send_buffer.push p.malloc bytes = .ok send_buffer)
      (ho₁ : o₁ = { o with send_buffer, accepted := o.accepted ++ bytes }) :
      Move p o (.send bytes rio) (o₁.submit p rio)
  | send_queued {o : Sending} {bytes : Bytes} {rio : Bool} {send_buffer : IoDoubleBuffer}
      (hempty : o.send_buffer.empty = false)
      (hpush : o.send_buffer.push p.malloc bytes = .ok send_buffer) :
      Move p o (.send bytes rio) { o with send_buffer, accepted := o.accepted ++ bytes }
  | sent {o o₁ o' : Sending} {ctx : IoContext} {front back : List IoContext} {count : Nat}
      {rio : Bool} (hwrites : o.writes = front ++ ctx :: back) (hle : count ≤ ctx.Length)
      (ho₁ : o₁ = { o with
        send_buffer := (o.send_buffer.pop count).elevate
        writes := front ++ back
        transmitted := o.transmitted ++ o.send_bind_buffer.take count })
      (hsubmit : o' = if o₁.send_buffer.empty then o₁ else o₁.submit p rio) :
      Move p o (.sent ctx count rio) o'

/-- The queue and the buffer it is copied into. -/
structure Stored (p : Platform) (o : Sending) : Prop where
  valid : o.send_buffer.Valid
  room : o.send_bind_buffer.length = p.data_buffer_size

/-- What holds of the sending side while it takes turns: one write in flight,
    and `send_bind_buffer` still has the bytes it was submitted with, which are
    the next ones of the queue. -/
structure Sound (p : Platform) (o : Sending) : Prop where
  valid : o.send_buffer.Valid
  room : o.send_bind_buffer.length = p.data_buffer_size
  single : o.writes.length ≤ 1
  loaded : ∀ ctx ∈ o.writes, o.send_bind_buffer.take ctx.Length = ctx.payload ∧
    ctx.payload.length = ctx.Length ∧ ctx.payload <+: o.send_buffer.main_buffer.contents

theorem Sound.of_none (hvalid : o.send_buffer.Valid)
    (hroom : o.send_bind_buffer.length = p.data_buffer_size) (hnone : o.writes = []) : o.Sound p := by
  refine ⟨hvalid, hroom, by simp [hnone], ?_⟩
  intro ctx hctx
  rw [hnone] at hctx
  cases hctx

/-- The bytes that `submit_sending` copies. -/
theorem copied (p : Platform) (o : Sending) :
    o.send_buffer.main_buffer.storage.take (min o.send_buffer.size p.data_buffer_size) =
      o.send_buffer.main_buffer.contents.take p.data_buffer_size := by
  rw [IoBuffer.contents, List.take_take, Nat.min_comm]
  rfl

theorem Sound.stored (hsound : o.Sound p) : o.Stored p := ⟨hsound.valid, hsound.room⟩

/-- A write of the next bytes of the queue, of which there are at most
    `RIORING_DATA_BUFFER_SIZE`. -/
theorem Stored.next_write (hstored : o.Stored p) :
    (o.submit p true).send_bind_buffer.take (o.next_write p).Length = (o.next_write p).payload ∧
      (o.next_write p).payload = o.send_buffer.main_buffer.contents.take p.data_buffer_size ∧
      (o.next_write p).payload.length = (o.next_write p).Length ∧
      (o.submit p true).send_bind_buffer.length = p.data_buffer_size := by
  have hcopied := copied p o
  have hsize := hstored.valid.size_eq
  have hlength : (o.send_buffer.main_buffer.contents.take p.data_buffer_size).length =
      min o.send_buffer.size p.data_buffer_size := by
    rw [List.length_take, hsize, Nat.min_comm]
  have htake : (Block.overwrite o.send_bind_buffer 0
      (o.send_buffer.main_buffer.contents.take p.data_buffer_size)).take
        (min o.send_buffer.size p.data_buffer_size) =
      o.send_buffer.main_buffer.contents.take p.data_buffer_size := by
    have hfront : (Block.overwrite o.send_bind_buffer 0
        (o.send_buffer.main_buffer.contents.take p.data_buffer_size)).take
          (0 + (o.send_buffer.main_buffer.contents.take p.data_buffer_size).length) =
        o.send_bind_buffer.take 0 ++ o.send_buffer.main_buffer.contents.take p.data_buffer_size :=
      Block.overwrite_take (Nat.zero_le _)
    rw [hlength, Nat.zero_add] at hfront
    simpa using hfront
  have hpayload : (o.next_write p).payload =
      o.send_buffer.main_buffer.contents.take p.data_buffer_size := by
    rw [Sending.next_write, hcopied]
    exact htake
  refine ⟨rfl, hpayload, ?_, ?_⟩
  · rw [hpayload, hlength]
    rfl
  · change (Block.overwrite _ _ _).length = _
    rw [hcopied, Block.overwrite_length, hstored.room]
    rw [hlength, hstored.room]
    omega

theorem submit_bind (p : Platform) (o : Sending) (rio rio' : Bool) :
    (o.submit p rio).send_bind_buffer = (o.submit p rio').send_bind_buffer := rfl

theorem Stored.submit (hstored : o.Stored p) (rio : Bool) : (o.submit p rio).Stored p := by
  obtain ⟨_, _, _, hroom⟩ := hstored.next_write
  exact ⟨hstored.valid, submit_bind p o true rio ▸ hroom⟩

/-- Every move keeps the queue and the buffer in shape. -/
theorem Stored.move {a : Action} (hstored : o.Stored p) (hmove : Move p o a o') : o'.Stored p := by
  cases hmove with
  | idle => exact hstored
  | start hassign =>
    obtain ⟨hvalid, _⟩ :=
      IoDoubleBuffer.assign_spec p.malloc_le hstored.valid p.data_buffer_size_pos hassign
    exact ⟨hvalid, hstored.room⟩
  | send_first hempty hpush ho₁ =>
    rename_i o₁ bytes rio send_buffer
    have hpushed := IoDoubleBuffer.push_spec p.malloc_le hstored.valid bytes.property hpush
    have hstored₁ : o₁.Stored p := ho₁ ▸ ⟨hpushed.valid, hstored.room⟩
    exact hstored₁.submit rio
  | send_queued hempty hpush =>
    rename_i bytes rio send_buffer
    have hpushed := IoDoubleBuffer.push_spec p.malloc_le hstored.valid bytes.property hpush
    exact ⟨hpushed.valid, hstored.room⟩
  | sent hwrites hle ho₁ hsubmit =>
    rename_i o₁ ctx front back count rio
    have hvalid := (IoDoubleBuffer.elevate_spec (IoDoubleBuffer.pop_spec hstored.valid count).1).1
    have hstored₁ : o₁.Stored p := ho₁ ▸ ⟨hvalid, hstored.room⟩
    rw [hsubmit]
    split
    · exact hstored₁
    · exact hstored₁.submit rio

/-- A write is submitted once no byte is on its way. -/
theorem Sound.submit (hsound : o.Sound p) (hidle : ∀ ctx ∈ o.writes, ctx.Length = 0) {rio : Bool}
    (hturn : rio = true → o.writes = []) : (o.submit p rio).Sound p := by
  obtain ⟨hload, hpayload, hlength, hroom⟩ := hsound.stored.next_write
  rw [submit_bind p o true false] at hroom
  cases rio with
  | true =>
    have hwrites : (o.submit p true).writes = [o.next_write p] := by
      rw [Sending.submit, hturn rfl]
      rfl
    refine ⟨hsound.valid, hroom, by simp [hwrites], ?_⟩
    intro ctx hctx
    rw [hwrites] at hctx
    rw [List.mem_singleton.mp hctx]
    refine ⟨hload, hlength, ?_⟩
    rw [hpayload]
    exact List.take_prefix _ _
  | false =>
    refine ⟨hsound.valid, hroom, hsound.single, ?_⟩
    intro ctx hctx
    obtain ⟨_, hlength, _⟩ := hsound.loaded ctx hctx
    rw [hidle ctx hctx] at hlength ⊢
    rw [List.length_eq_zero_iff.mp hlength]
    exact ⟨rfl, rfl, List.nil_prefix⟩

/-- While the queue is empty no byte is on its way. -/
theorem Sound.idle_of_empty (hsound : o.Sound p) (hempty : o.send_buffer.empty = true) :
    ∀ ctx ∈ o.writes, ctx.Length = 0 := by
  intro ctx hctx
  obtain ⟨_, hlength, hstarts⟩ := hsound.loaded ctx hctx
  obtain ⟨hmain, _⟩ := List.append_eq_nil_iff.mp (hsound.valid.empty_iff.mp hempty)
  rw [hmain] at hstarts
  rw [← hlength, List.prefix_nil.mp hstarts]
  rfl

/-- A push leaves the bytes on their way where they are. -/
theorem Sound.pushed {bytes : Bytes} {send_buffer : IoDoubleBuffer} (hsound : o.Sound p)
    (hpush : o.send_buffer.push p.malloc bytes = .ok send_buffer) (accepted : List UInt8) :
    ({ o with send_buffer, accepted } : Sending).Sound p := by
  have hpushed := IoDoubleBuffer.push_spec p.malloc_le hsound.valid bytes.property hpush
  refine ⟨hpushed.valid, hsound.room, hsound.single, ?_⟩
  intro ctx hctx
  obtain ⟨hload, hlength, hstarts⟩ := hsound.loaded ctx hctx
  exact ⟨hload, hlength, hstarts.trans hpushed.main_prefix⟩

/-- Taking the write in flight out leaves none. -/
theorem Sound.completes {ctx : IoContext} {front back : List IoContext} (hsound : o.Sound p)
    (hwrites : o.writes = front ++ ctx :: back) : o.writes = [ctx] ∧ front ++ back = [] := by
  have hsingle := hsound.single
  rw [hwrites, List.length_append, List.length_cons] at hsingle
  have hfront : front = [] := List.length_eq_zero_iff.mp (by omega)
  have hback : back = [] := List.length_eq_zero_iff.mp (by omega)
  subst hfront hback
  exact ⟨hwrites, rfl⟩

/-- A send that finds the queue empty, and whose write is taken, finds no write
    in flight. -/
def sends_alone (o : Sending) : Action → Prop
  | .send _ rio => o.send_buffer.empty = true → rio = true → o.writes = []
  | _ => True

instance (o : Sending) : DecidablePred o.sends_alone := fun a =>
  match a with
  | .send _ rio => inferInstanceAs
      (Decidable (o.send_buffer.empty = true → rio = true → o.writes = []))
  | .idle | .start | .sent .. => .isTrue trivial

/-- Every move that meets the condition keeps the turns, but a new activation,
    which finds no write in flight here. -/
theorem Sound.move {a : Action} (hsound : o.Sound p) (hmove : Move p o a o')
    (halone : o.sends_alone a) (hstart : a = .start → o.writes = []) : o'.Sound p := by
  cases hmove with
  | idle => exact hsound
  | start hassign =>
    obtain ⟨hvalid, _⟩ :=
      IoDoubleBuffer.assign_spec p.malloc_le hsound.valid p.data_buffer_size_pos hassign
    exact .of_none hvalid hsound.room (hstart rfl)
  | send_first hempty hpush ho₁ =>
    subst ho₁
    exact (hsound.pushed hpush _).submit (hsound.idle_of_empty hempty) (halone hempty)
  | send_queued _ hpush => exact hsound.pushed hpush _
  | sent hwrites hle ho₁ hsubmit =>
    rename_i o₁ ctx front back count rio
    obtain ⟨_, hnone⟩ := hsound.completes hwrites
    have hvalid := (IoDoubleBuffer.elevate_spec (IoDoubleBuffer.pop_spec hsound.valid count).1).1
    have hfree : o₁.writes = [] := by
      rw [ho₁]
      exact hnone
    have hsound₁ : o₁.Sound p := .of_none (ho₁ ▸ hvalid) (ho₁ ▸ hsound.room) hfree
    rw [hsubmit]
    split
    · exact hsound₁
    · exact hsound₁.submit (by simp [hfree]) fun _ => hfree

/-- A move that does not meet the condition puts a second write in flight. -/
theorem Move.crowds {a : Action} (hmove : Move p o a o') (halone : ¬ o.sends_alone a) :
    1 < o'.writes.length := by
  cases hmove with
  | idle | start | send_queued | sent => exact absurd (by simp_all [sends_alone]) halone
  | send_first hempty hpush ho₁ =>
    subst ho₁
    simp only [sends_alone, not_forall] at halone
    obtain ⟨_, hrio, hwrites⟩ := halone
    have hlength := List.length_pos_iff.mpr hwrites
    simp only [Sending.submit, hrio, ↓reduceIte, List.length_append, List.length_singleton]
    omega

theorem Move.activations {a : Action} (hmove : Move p o a o') :
    o'.activations = o.activations + if a = .start then 1 else 0 := by
  cases hmove with
  | idle | start | send_queued => rfl
  | send_first hempty hpush ho₁ =>
    rw [ho₁]
    rfl
  | sent hwrites hle ho₁ hsubmit =>
    rw [hsubmit, ho₁]
    split <;> rfl

/-- The sending side as a sender of bytes. -/
def outbox (o : Sending) : Outbox UInt8 where
  accepted := o.accepted
  delivered := o.transmitted
  queue := o.send_buffer.contents
  flight := o.writes.flatMap (·.payload)

theorem Sound.submit_outbox (hsound : o.Sound p) {rio : Bool} (hturn : rio = true → o.writes = []) :
    Outbox.Steps o.outbox (o.submit p rio).outbox := by
  cases rio with
  | true =>
    have hlaunch : (o.submit p true).outbox =
        o.outbox.launch (min p.data_buffer_size o.send_buffer.main_buffer.contents.length) := by
      obtain ⟨_, hpayload, _⟩ := hsound.stored.next_write
      have htake : o.send_buffer.contents.take
          (min p.data_buffer_size o.send_buffer.main_buffer.contents.length) =
          o.send_buffer.main_buffer.contents.take p.data_buffer_size := by
        rw [IoDoubleBuffer.contents, List.take_append_of_le_length (Nat.min_le_right _ _),
          ← List.take_take, List.take_length]
      simp only [Sending.outbox, Outbox.launch, htake, Sending.submit, hturn rfl]
      simp [hpayload]
    rw [hlaunch]
    exact .launch _ _
  | false => exact .refl

/-- In one activation the sending side is a sender that owes what it has
    accepted. -/
theorem Move.outbox {a : Action} (hsound : o.Sound p) (hmove : Move p o a o')
    (halone : o.sends_alone a) (hstart : a = .start → o.send_buffer.contents = []) :
    Outbox.Steps o.outbox o'.outbox := by
  cases hmove with
  | idle => exact .refl
  | start hassign =>
    rename_i send_buffer
    obtain ⟨_, hmain, _, hsub⟩ :=
      IoDoubleBuffer.assign_spec p.malloc_le hsound.valid p.data_buffer_size_pos hassign
    have hempty := hstart rfl
    have hcontents : send_buffer.contents = o.send_buffer.contents := by
      rw [IoDoubleBuffer.contents, hmain, hsub, hempty, (List.append_eq_nil_iff.mp hempty).2]
      rfl
    rw [Sending.outbox, Sending.outbox, hcontents]
    exact .refl
  | send_first hempty hpush ho₁ =>
    rename_i o₁ bytes rio send_buffer
    have hpushed := IoDoubleBuffer.push_spec p.malloc_le hsound.valid bytes.property hpush
    have haccept : o₁.outbox = o.outbox.accept bytes := by
      rw [ho₁, Sending.outbox, hpushed.contents]
      rfl
    have hsound₁ : o₁.Sound p := ho₁ ▸ hsound.pushed hpush _
    refine (Outbox.Steps.accept o.outbox bytes).trans (haccept ▸ hsound₁.submit_outbox ?_)
    rw [ho₁]
    exact halone hempty
  | send_queued hempty hpush =>
    rename_i bytes rio send_buffer
    have hpushed := IoDoubleBuffer.push_spec p.malloc_le hsound.valid bytes.property hpush
    have haccept : ({ o with send_buffer, accepted := o.accepted ++ bytes } : Sending).outbox =
        o.outbox.accept bytes := by
      rw [Sending.outbox, hpushed.contents]
      rfl
    rw [haccept]
    exact .accept _ _
  | sent hwrites hle ho₁ hsubmit =>
    rename_i o₁ ctx front back count rio
    obtain ⟨hsingle, hnone⟩ := hsound.completes hwrites
    obtain ⟨hload, hlength, hstarts⟩ := hsound.loaded ctx (by simp [hsingle])
    have hcount : count ≤ o.send_buffer.main_buffer.contents.length := by
      have := hstarts.length_le
      omega
    obtain ⟨hpopValid, hpopped⟩ := IoDoubleBuffer.pop_spec hsound.valid count
    obtain ⟨hvalid, helevated, _⟩ := IoDoubleBuffer.elevate_spec hpopValid
    rw [if_pos hcount] at hpopped
    -- What the kernel takes is the front of what was submitted.
    have htaken : o.send_bind_buffer.take count = ctx.payload.take count := by
      rw [← hload, List.take_take, Nat.min_eq_left hle]
    have hdeliver : o₁.outbox = o.outbox.deliver count := by
      rw [ho₁, Sending.outbox, Sending.outbox, Outbox.deliver, hsingle, hnone, helevated, hpopped, htaken]
      simp
    have hsteps : Outbox.Steps o.outbox o₁.outbox := by
      rw [hdeliver]
      refine .deliver _ ?_
      simp only [Sending.outbox, hsingle, List.flatMap_singleton]
      omega
    have hfree : o₁.writes = [] := by
      rw [ho₁]
      exact hnone
    have hsound₁ : o₁.Sound p := .of_none (ho₁ ▸ hvalid) (ho₁ ▸ hsound.room) hfree
    rw [hsubmit]
    split
    · exact hsteps
    · exact hsteps.trans (hsound₁.submit_outbox fun _ => hfree)

end Sending

namespace Process

variable {p : Platform} {w w' : Process} {e : Event}

/-- What an event does to the sending side. -/
def action (w : Process) : Event → Sending.Action
  | .connect addresses _ _ =>
    if !addresses.isEmpty && (TcpSocket.connect_loop w.socket addresses).socket_handler.isSome then
      .start
    else .idle
  | .accepted .. => .start
  | .send_locked index rio =>
    match w.sends[index]? with
    | some bytes => .send bytes rio
    | none => .idle
  | .complete index bytes _ rio =>
    match w.requests[index]? with
    | some ctx => if ctx.type = .write then .sent ctx bytes rio else .idle
    | none => .idle
  | _ => .idle

theorem call_sending (w : Process) (callback : Callback) : (w.call callback).sending = w.sending := rfl

theorem submit_context_sending (w : Process) (ctx : IoContext) (rio : Bool) :
    (w.submit ctx rio).sending = { w.sending with
      writes := if rio && ctx.type == .write then w.writes ++ [ctx] else w.writes } := by
  cases rio
  · rfl
  · by_cases htype : ctx.type = .write <;> simp [submit, sending, writes, htype]

theorem submit_receiving_sending (p : Platform) (w : Process) (rio : Bool) :
    (TcpSocket.submit_receiving p w rio).sending = w.sending := by
  rw [TcpSocket.submit_receiving, submit_context_sending]
  cases rio <;> rfl

theorem submit_sending_sending (p : Platform) (w : Process) (rio : Bool) :
    (TcpSocket.submit_sending p w rio).sending = w.sending.submit p rio := by
  simp only [TcpSocket.submit_sending]
  rw [submit_context_sending]
  cases rio <;> rfl

theorem io_shutdown_sending (w : Process) : (TcpSocket.io_shutdown w).sending = w.sending := by
  unfold TcpSocket.io_shutdown
  dsimp only
  split <;> split <;> rfl

theorem on_send_complete_sending (w : Process) :
    (TcpSocket.on_send_complete w).sending = w.sending := by
  unfold TcpSocket.on_send_complete
  split <;> rfl

theorem close_sending (w : Process) (type : CloseType) :
    (TcpSocket.close w type).sending = w.sending := by
  unfold TcpSocket.close
  split
  · split <;> rfl
  · rfl

theorem set_event_sending {slot : Slot} {registered : Bool}
    (hset : w.set_event slot registered = some w') : w'.sending = w.sending := by
  cases slot <;> cases hset <;> rfl

theorem send_sending (w : Process) (bytes : Bytes) :
    (TcpSocket.send w bytes).2.sending = w.sending := by
  unfold TcpSocket.send
  split
  · rfl
  · split <;> rfl

theorem on_active_move {o : Sending} {failure : Option Int} {rio : Bool}
    (hactive : TcpSocket.on_active p w failure rio = .ok w') (ho : w.sending = o) :
    Sending.Move p o .start w'.sending := by
  subst ho
  unfold TcpSocket.on_active at hactive
  rw [IoBuffer.bind_eq_ok_iff] at hactive
  obtain ⟨recv_buffer, _, hactive⟩ := hactive
  rw [IoBuffer.bind_eq_ok_iff] at hactive
  obtain ⟨send_buffer, hassign, hactive⟩ := hactive
  cases hactive
  rw [submit_receiving_sending]
  have hmove := Sending.Move.start (o := w.sending) hassign
  cases failure with
  | none => exact hmove
  | some code =>
    simp only [io_error]
    split <;> exact hmove

theorem connect_loop_eq (s : TcpSocket) (addresses : List TcpSocket.Attempt) :
    ∃ handler, TcpSocket.connect_loop s addresses = { s with socket_handler := handler } := by
  induction addresses with
  | nil => exact ⟨s.socket_handler, rfl⟩
  | cons a rest ih =>
    rw [TcpSocket.connect_loop]
    split
    · exact ih
    · split
      · exact ih
      · exact ⟨a.socket, rfl⟩

/-- A connect that does not activate the socket changes its handle at most. -/
theorem connect_eq {addresses : List TcpSocket.Attempt} {failure : Option Int} {rio : Bool}
    {returned : Bool} (hconnect : TcpSocket.connect p w addresses failure rio = .ok (returned, w')) :
    ∃ handler, (returned = false ∧ w.action (.connect addresses failure rio) = .idle ∧
        w' = { w with socket := { w.socket with socket_handler := handler } }) ∨
      (returned = true ∧ w.action (.connect addresses failure rio) = .start ∧
        TcpSocket.on_active p { w with socket := { w.socket with socket_handler := handler } }
          failure rio = .ok w') := by
  obtain ⟨handler, hloop⟩ := connect_loop_eq w.socket addresses
  unfold TcpSocket.connect at hconnect
  split at hconnect
  · rename_i hnone
    cases hconnect
    refine ⟨w.socket.socket_handler, .inl ⟨rfl, ?_, rfl⟩⟩
    simp [action, hnone]
  · rename_i hsome
    rw [hloop] at hconnect
    refine ⟨handler, ?_⟩
    dsimp only at hconnect
    split at hconnect
    · rename_i hhandler
      cases hconnect
      exact .inl ⟨rfl, by simp [action, hloop, hhandler], rfl⟩
    · rename_i hhandler
      rw [IoBuffer.bind_eq_ok_iff] at hconnect
      obtain ⟨w₁, hactive, hconnect⟩ := hconnect
      cases hconnect
      refine .inr ⟨rfl, ?_, hactive⟩
      simp only [action, hloop]
      rw [if_pos]
      simp [hsome, Option.isSome_iff_ne_none, hhandler]

theorem send_locked_move {o : Sending} {bytes : Bytes} {rio : Bool}
    (hsend : TcpSocket.send_locked p w bytes rio = .ok w') (ho : w.sending = o) :
    Sending.Move p o (.send bytes rio) w'.sending := by
  subst ho
  unfold TcpSocket.send_locked at hsend
  dsimp only at hsend
  split at hsend
  · rename_i hempty
    rw [IoBuffer.bind_eq_ok_iff] at hsend
    obtain ⟨send_buffer, hpush, hsend⟩ := hsend
    cases hsend
    rw [submit_sending_sending]
    exact .send_first hempty hpush rfl
  · rename_i hkept
    rw [IoBuffer.bind_eq_ok_iff] at hsend
    obtain ⟨send_buffer, hpush, hsend⟩ := hsend
    cases hsend
    exact .send_queued (Bool.not_eq_true _ ▸ hkept) hpush

theorem io_received_sending {count : Nat} {rio : Bool}
    (hreceived : TcpSocket.io_received p w count rio = .ok w') : w'.sending = w.sending := by
  unfold TcpSocket.io_received at hreceived
  rw [IoBuffer.bind_eq_ok_iff] at hreceived
  obtain ⟨recv_buffer, _, hreceived⟩ := hreceived
  cases hreceived
  split
  · rw [call_sending, submit_receiving_sending]
    rfl
  · rw [submit_receiving_sending]
    rfl

theorem io_sent_sending (p : Platform) (w : Process) (count : Nat) (rio : Bool) {o : Sending}
    (ho : o = { w.sending with send_buffer := (w.socket.send_buffer.pop count).elevate }) :
    (TcpSocket.io_sent p w count rio).sending =
      if o.send_buffer.empty then o else o.submit p rio := by
  subst ho
  unfold TcpSocket.io_sent
  dsimp only
  cases hempty : ((w.socket.send_buffer.pop count).elevate).empty with
  | true =>
    simp only [Bool.not_true, Bool.false_eq_true, ↓reduceIte, on_send_complete_sending]
    split <;> rfl
  | false =>
    simp only [Bool.not_false, ↓reduceIte, submit_sending_sending]
    rfl

theorem complete_move {index bytes : Nat} {data : List UInt8} {rio : Bool}
    (hcomplete : w.complete p index bytes data rio = some w') :
    Sending.Move p w.sending (w.action (.complete index bytes data rio)) w'.sending := by
  unfold complete at hcomplete
  obtain ⟨ctx, hctx, hcomplete⟩ := Option.bind_eq_some_iff.mp hcomplete
  obtain ⟨hindex, hget⟩ := List.getElem?_eq_some_iff.mp hctx
  have hsplit : w.requests = w.requests.take index ++ ctx :: w.requests.drop (index + 1) := by
    rw [← hget, ← List.drop_eq_getElem_cons hindex, List.take_append_drop]
  have herase : w.requests.eraseIdx index = w.requests.take index ++ w.requests.drop (index + 1) :=
    List.eraseIdx_eq_take_drop_succ ..
  -- what is left of the writes when a request of another kind completes
  have hkept : ctx.type ≠ .write →
      ({ w with requests := w.requests.eraseIdx index } : Process).writes = w.writes := by
    intro htype
    simp only [writes, herase]
    conv_rhs => rw [hsplit]
    simp [htype]
  split at hcomplete
  · rename_i hallowed
    rw [IoBuffer.toOption_eq_some_iff] at hcomplete
    have hle : bytes ≤ ctx.Length := by
      simp only [kernel_allows, Bool.and_eq_true, decide_eq_true_eq] at hallowed
      exact hallowed.1
    simp only [action, hctx]
    cases htype : ctx.type with
    | read =>
      have hsame : ∀ socket : TcpSocket, socket.send_buffer = w.socket.send_buffer →
          socket.send_bind_buffer = w.socket.send_bind_buffer →
          ({ w with socket, requests := w.requests.eraseIdx index } : Process).sending = w.sending := by
        intro socket hqueue hbind
        simp only [sending, hqueue, hbind]
        rw [← hkept (by simp [htype])]
        rfl
      simp only [io, kernel, htype] at hcomplete
      have hsending : w'.sending = w.sending := by
        split at hcomplete
        · cases hcomplete
          rw [io_shutdown_sending]
          exact hsame _ rfl rfl
        · rw [io_received_sending hcomplete]
          exact hsame _ rfl rfl
      rw [hsending, if_neg (by simp)]
      exact .idle
    | write =>
      simp only [io, kernel, htype] at hcomplete
      cases hcomplete
      rw [if_pos rfl]
      have hwrites : w.writes = (w.requests.take index).filter (·.type == .write) ++
          ctx :: (w.requests.drop (index + 1)).filter (·.type == .write) := by
        rw [writes]
        conv_lhs => rw [hsplit]
        simp [htype]
      refine .sent hwrites hle rfl (io_sent_sending p _ bytes rio ?_)
      simp only [sending, writes, herase, List.filter_append]
    | unknown =>
      simp only [io, kernel, htype] at hcomplete
      cases hcomplete
      rw [if_neg (by simp)]
      have hsending : ({ w with requests := w.requests.eraseIdx index } : Process).sending =
          w.sending := by
        simp only [sending]
        rw [← hkept (by simp [htype])]
      rw [hsending]
      exact .idle
  · cases hcomplete

/-- Every step is a move of the sending side. -/
theorem step_move (hstep : w.step p e = some w') : Sending.Move p w.sending (w.action e) w'.sending := by
  cases e with
  | set_event slot registered =>
    rw [set_event_sending hstep]
    exact .idle
  | connect addresses failure rio =>
    rw [step, IoBuffer.toOption_eq_some_iff, IoBuffer.map_eq_ok_iff] at hstep
    obtain ⟨⟨returned, w₁⟩, hconnect, rfl⟩ := hstep
    obtain ⟨handler, ⟨_, haction, rfl⟩ | ⟨_, haction, hactive⟩⟩ := connect_eq hconnect
    · rw [haction]
      exact .idle
    · rw [haction]
      exact on_active_move hactive rfl
  | accepted failure rio =>
    rw [step] at hstep
    split at hstep
    · exact on_active_move (IoBuffer.toOption_eq_some_iff.mp hstep) rfl
    · cases hstep
  | send bytes =>
    cases hstep
    rw [send_sending]
    exact .idle
  | send_locked index rio =>
    obtain ⟨bytes, hbytes, hstep⟩ := Option.bind_eq_some_iff.mp hstep
    simp only [action, hbytes]
    exact send_locked_move (IoBuffer.toOption_eq_some_iff.mp hstep) rfl
  | close type =>
    cases hstep
    rw [close_sending]
    exact .idle
  | pop size =>
    cases hstep
    exact .idle
  | complete index bytes data rio => exact complete_move hstep

/-- A socket that has never been active: nothing is queued or in flight, and no
    call of `send` has passed its guard. -/
structure Inactive (w : Process) : Prop where
  requests : w.requests = []
  sends : w.sends = []
  connected_flag : w.socket.connected_flag = false
  send_buffer : w.socket.send_buffer = {}

/-- Only an activation ends this. -/
theorem Inactive.step (hidle : w.Inactive) (hstep : w.step p e = some w')
    (haction : w.action e ≠ .start) : w'.Inactive := by
  obtain ⟨hrequests, hsends, hflag, hbuffer⟩ := hidle
  cases e with
  | set_event slot registered =>
    cases slot <;> cases hstep <;> exact ⟨hrequests, hsends, hflag, hbuffer⟩
  | connect addresses failure rio =>
    rw [Process.step, IoBuffer.toOption_eq_some_iff, IoBuffer.map_eq_ok_iff] at hstep
    obtain ⟨⟨returned, w₁⟩, hconnect, rfl⟩ := hstep
    obtain ⟨handler, ⟨_, _, rfl⟩ | ⟨_, hstart, _⟩⟩ := connect_eq hconnect
    · exact ⟨hrequests, hsends, hflag, hbuffer⟩
    · exact absurd hstart haction
  | accepted failure rio => exact absurd rfl haction
  | send bytes =>
    cases hstep
    simp only [TcpSocket.send, hflag, Bool.not_false, ↓reduceIte]
    split <;> exact ⟨hrequests, hsends, hflag, hbuffer⟩
  | send_locked index rio =>
    obtain ⟨bytes, hbytes, _⟩ := Option.bind_eq_some_iff.mp hstep
    rw [hsends] at hbytes
    cases hbytes
  | close type =>
    cases hstep
    unfold TcpSocket.close
    split
    · split <;> exact ⟨hrequests, hsends, hflag, hbuffer⟩
    · exact ⟨hrequests, hsends, hflag, hbuffer⟩
  | pop size =>
    cases hstep
    exact ⟨hrequests, hsends, hflag, hbuffer⟩
  | complete index bytes data rio =>
    obtain ⟨ctx, hctx, _⟩ := Option.bind_eq_some_iff.mp hstep
    rw [hrequests] at hctx
    cases hctx

end Process

end rioring.Windows
