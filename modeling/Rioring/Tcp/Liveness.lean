import Rioring.Tcp.Activation
import Rioring.Tcp.Receiving
import Rioring.View.Callbacks

/-! How long a socket takes what it is given to send: from its activation to the end
of its stream, or to a `close` that waits for the send buffer. -/

namespace rioring

/-- What is accepted to be sent. -/
def Action.accepts : Action → List UInt8
  | .send bytes _ => bytes
  | _ => []

namespace Outbound

variable {p : Platform} {o o' : Outbound} {a : Action}

/-- The guard of `send`. -/
def live (o : Outbound) : Bool := o.connected_flag && !o.shutdown_gracefully

/-- What a move does to the part of the sending side that `send` looks at: only an
    activation makes a socket live. -/
structure Keeps (o : Outbound) (a : Action) (o' : Outbound) : Prop where
  accepted : o'.accepted = o.accepted ++ a.accepts
  socket_type : o'.socket_type = o.socket_type
  flags : (o'.activations = o.activations ∧ (o'.connected_flag = true → o.connected_flag = true) ∧
      (o'.live = true → o.live = true)) ∨
    (∃ sqe, a = .start sqe) ∧ o'.activations = o.activations + 1 ∧
      o'.connected_flag = (o.connected_flag || o.socket_type == .tcp)

theorem Keeps.same (haccepted : o'.accepted = o.accepted ++ a.accepts)
    (htype : o'.socket_type = o.socket_type) (hactivations : o'.activations = o.activations)
    (hconnected : o'.connected_flag = o.connected_flag)
    (hgraceful : o'.shutdown_gracefully = o.shutdown_gracefully) : o.Keeps a o' := by
  refine ⟨haccepted, htype, .inl ⟨hactivations, ?_, ?_⟩⟩
  · rw [hconnected]
    exact id
  · rw [live, hconnected, hgraceful]
    exact id

/-- A submission after which the socket has accepted what the action gave it. -/
theorem Submitted.keeps {o₁ : Outbound} (h : o₁.Submitted o')
    (haccepted : o₁.accepted = o.accepted ++ a.accepts) (htype : o₁.socket_type = o.socket_type)
    (hactivations : o₁.activations = o.activations) (hconnected : o₁.connected_flag = o.connected_flag)
    (hgraceful : o₁.shutdown_gracefully = o.shutdown_gracefully) : o.Keeps a o' :=
  .same (h.accepted.trans haccepted) (h.socket_type.trans htype) (h.activations.trans hactivations)
    (h.connected_flag.trans hconnected) (h.shutdown_gracefully.trans hgraceful)

theorem Move.keeps (hmove : Move p o a o') : o.Keeps a o' := by
  cases hmove with
  | same hsend =>
    refine .same ?_ rfl rfl rfl rfl
    cases a with
    | send bytes sqe => exact absurd rfl (hsend bytes sqe)
    | _ => exact (List.append_nil _).symm
  | start hassign => exact ⟨(List.append_nil _).symm, rfl, .inr ⟨⟨_, rfl⟩, rfl, rfl⟩⟩
  | send addr htype hqueues =>
    obtain ⟨send_buffer, _, ⟨_, hsends⟩ | ⟨_, rfl⟩⟩ := hqueues
    · exact hsends.spec.1.keeps rfl rfl rfl rfl rfl
    · exact .same rfl rfl rfl rfl rfl
  | send_to htype hqueues =>
    obtain ⟨send_buffer, _, ⟨_, hsends⟩ | ⟨_, rfl⟩⟩ := hqueues
    · exact hsends.spec.1.keeps (List.append_nil _).symm rfl rfl rfl rfl
    · exact .same (List.append_nil _).symm rfl rfl rfl rfl
  | close hempty => exact ⟨(List.append_nil _).symm, rfl, .inl ⟨rfl, id, by simp [live]⟩⟩
  | receive_ended =>
    refine ⟨(List.append_nil _).symm, rfl, .inl ⟨rfl, fun h => ?_, fun h => ?_⟩⟩
    · simp only [Bool.and_eq_true] at h
      exact h.1
    · simp only [live, Bool.and_eq_true] at h ⊢
      exact ⟨h.1.1, h.2⟩
  | sent garbage addr haddr hcomplete hcount hle hpop ho₂ hsend =>
    obtain ⟨front, back, _, rfl⟩ := hcomplete
    subst ho₂
    rcases hsend with ⟨_, rfl⟩ | ⟨_, hsends⟩
    · exact .same (List.append_nil _).symm rfl rfl rfl rfl
    · exact hsends.spec.1.keeps (List.append_nil _).symm rfl rfl rfl rfl
  | send_failed hpayload hcomplete =>
    obtain ⟨front, back, _, rfl⟩ := hcomplete
    exact .same (List.append_nil _).symm rfl rfl rfl rfl

theorem Move.disconnects {r : Request} {res : Int} (hmove : Move p o (.receive_ended r res) o')
    (htype : o.socket_type = .tcp) : o'.connected_flag = false := by
  cases hmove with
  | same _ _ _ hended => exact absurd rfl (hended r res)
  | receive_ended =>
    rw [htype]
    exact Bool.and_false _

end Outbound

namespace View

variable {p : Platform} {v v' : View} {a : Action}

/-- A connected socket has not been closed. -/
structure Linked (v : View) : Prop where
  type : v.socket.connected_flag = true → v.socket.socket_type = .tcp
  unclosed : v.socket.connected_flag = true → .close ∉ v.history.callbacks

theorem Fresh.linked (h : v.Fresh) : v.Linked :=
  ⟨fun hconnected => absurd (h.connected_flag.symm.trans hconnected) (by decide),
    fun _ => by rw [h.history]; exact List.not_mem_nil⟩

theorem Linked.move (hsound : v.inbound.Sound p) (hlinked : v.Linked) (honce : v.connected_once a)
    (hmove : v.Move p a v') : v'.Linked := by
  obtain ⟨_, htype, hflags⟩ := hmove.outbound.keeps
  have htype : v'.socket.socket_type = v.socket.socket_type := htype
  have hwas : v'.socket.connected_flag = true →
      v.socket.connected_flag = true ∨ (v.history.activations = 0 ∧ v.socket.socket_type = .tcp) := by
    intro hconnected
    rcases hflags with ⟨_, hkept, _⟩ | ⟨⟨sqe, rfl⟩, _, hflag⟩
    · exact .inl (hkept hconnected)
    · have hflag : v'.socket.connected_flag = (v.socket.connected_flag || v.socket.socket_type == .tcp) :=
        hflag
      rw [hflag, Bool.or_eq_true, beq_iff_eq] at hconnected
      exact hconnected.imp_right fun h => ⟨honce, h⟩
  refine ⟨fun hconnected => ?_, fun hconnected => ?_⟩
  · rw [htype]
    exact (hwas hconnected).elim hlinked.type And.right
  · obtain ⟨added, hadded, hcalled⟩ := hmove.calls
    have hbefore : .close ∉ v.history.callbacks := by
      rcases hwas hconnected with hold | ⟨hzero, _⟩
      · exact hlinked.unclosed hold
      · intro hclose
        have hevent : Callback.close ∈ v.inbound.events := List.mem_filter.mpr ⟨hclose, rfl⟩
        rw [(hsound.inactive hzero).2] at hevent
        cases hevent
    rw [hadded, List.mem_append, not_or]
    refine ⟨hbefore, fun hclose => ?_⟩
    obtain ⟨r, res, rfl⟩ := hcalled .close hclose
    have htcp : v.socket.socket_type = .tcp := (hwas hconnected).elim hlinked.type And.right
    have hflag : v'.socket.connected_flag = false := hmove.outbound.disconnects htcp
    rw [hconnected] at hflag
    cases hflag

end View

namespace World

variable {p : Platform} {w w' : World} {j : ObjectId} {e : Event} {s : SocketObject}

/-- The guard of `send`. -/
def live (w : World) (j : ObjectId) : Bool := (w.view j).any (·.outbound.live)

/-- A `send` of the socket is between guard and lock. -/
def sending (w : World) (j : ObjectId) : Bool := w.sends.any (·.1 == j)

theorem live_eq (hs : w.sockets j = some s) : w.live j = (w.view_with j s).outbound.live := by
  rw [live, view_eq hs, Option.any_some]

theorem action_send {bytes : Bytes} {sqe : Bool} (haction : w.action j e = .send bytes sqe) :
    ∃ index, e = .send_locked index sqe ∧ w.sends[index]? = some (j, bytes) := by
  cases e with
  | send_locked index sqe' =>
    simp only [action] at haction
    split at haction
    · rename_i i bytes' hindex
      split at haction
      · rename_i hi
        cases haction
        exact ⟨index, rfl, by rw [hindex, hi]⟩
      · cases haction
    · cases haction
  | _ =>
    simp only [action] at haction
    repeat' split at haction
    all_goals cases haction

theorem send_step {bytes : Bytes} (hstep : (machine p).step w (.send j bytes) = some w') :
    (∃ s, w.sockets j = some s) ∧
      w' = if w.live j then { w with sends := w.sends ++ [(j, bytes)] } else w := by
  obtain ⟨s, hs, hstep⟩ := Option.bind_eq_some_iff.mp hstep
  have hs := (socket_of_eq_some hs).1
  cases hstep
  refine ⟨⟨s, hs⟩, ?_⟩
  have hlive : w.live j = (s.connected_flag && !s.shutdown_gracefully) := live_eq hs
  rw [hlive, TcpSocket.send]
  cases s.shutdown_gracefully <;> cases s.connected_flag <;> rfl

theorem Wf.keeps (hwf : w.Wf) (hstep : (machine p).step w e = some w') (hs : w.sockets j = some s) :
    ∃ s', w'.sockets j = some s' ∧
      (w.view_with j s).outbound.Keeps (w.action j e) (w'.view_with j s').outbound := by
  obtain ⟨v', hv', hmove⟩ := ((hwf.step_does hstep).moves j).move _ (view_eq hs)
  obtain ⟨s', hs', rfl⟩ := Option.map_eq_some_iff.mp hv'
  exact ⟨s', hs', hmove.outbound.keeps⟩

/-- Only the locked body of `send` accepts anything. -/
theorem action_accepts (hlocked : ∀ index sqe, e ≠ .send_locked index sqe) :
    (w.action j e).accepts = [] := by
  cases haction : w.action j e with
  | send bytes sqe =>
    obtain ⟨index, heq, _⟩ := action_send haction
    exact absurd heq (hlocked index sqe)
  | _ => rfl

/-- Behind its accept callback only a TCP socket becomes active. -/
theorem accepted_tcp {sock : SocketObject}
    (hreach : (machine p).Reachable (fun _ e => e.activates j = false) w)
    (hsock : w.sockets j = some sock) (hactive : (w.history j).activations ≠ 0) :
    sock.socket_type = .tcp := by
  have hall : w.Wf ∧ ∀ sock, w.sockets j = some sock → (w.history j).activations ≠ 0 →
      sock.socket_type = .tcp := by
    refine Machine.Run.invariant (P := fun w => w.Wf ∧ ∀ sock, w.sockets j = some sock →
      (w.history j).activations ≠ 0 → sock.socket_type = .tcp) hreach
      ⟨Wf.start p, fun sock hsock => by cases hsock⟩ ?_
    rintro w e w' _ ⟨hwf, hbefore⟩ hcalls hstep
    refine ⟨Wf.step (p := p) (e := e) hwf hstep, fun sock' hsock' hactive => ?_⟩
    cases hsock : w.sockets j with
    | none =>
      have hfresh := ((hwf.step_does hstep).moves j).fresh _ (view_eq_none hsock) (view_eq hsock')
      have hhistory : w'.history j = {} := hfresh.history
      rw [hhistory] at hactive
      exact absurd rfl hactive
    | some sock =>
      obtain ⟨sock'', hsock'', _, htype, hflags⟩ := Wf.keeps (p := p) (e := e) hwf hstep hsock
      rw [hsock'] at hsock''
      cases hsock''
      have htype : sock'.socket_type = sock.socket_type := htype
      rw [htype]
      rcases hflags with ⟨hactivations, _⟩ | ⟨⟨sqe, haction⟩, _⟩
      · have hactivations : (w'.history j).activations = (w.history j).activations := hactivations
        exact hbefore sock hsock (hactivations ▸ hactive)
      · rcases action_start haction with hactivates | ⟨c, a, rfl⟩
        · rw [hcalls] at hactivates
          cases hactivates
        · obtain ⟨hhandled, haccepting⟩ := List.mem_filter.mp (resume_greeting haction)
          obtain ⟨⟨i, j'⟩, hsome, rfl⟩ := Option.map_eq_some_iff.mp (of_decide_eq_true haccepting)
          obtain ⟨_, t, ht, htcp⟩ := hwf.accepting _ hhandled i j' hsome
          rw [hsock] at ht
          cases ht
          exact htcp
  exact hall.2 sock hsock hactive

end World

open World

variable {p : Platform} {i : ObjectId} {w : World} {s : SocketObject}

theorem linked_reachable (hreach : (machine p).Reachable (permits i View.connected_once) w)
    (hs : w.sockets i = some s) : (w.view_with i s).Linked := by
  refine (reachable_view (P := fun v => v.inbound.Sound p ∧ v.Linked)
    (fun v hfresh => ⟨hfresh.inbound.1, hfresh.linked⟩) ?_ hreach (view_eq hs)).2
  rintro v a v' ⟨hsound, hlinked⟩ hallowed hmove
  exact ⟨hsound.move hmove.inbound, hlinked.move hsound hallowed hmove⟩

end rioring
