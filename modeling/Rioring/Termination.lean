import Rioring.Outbound.Storage
import Rioring.View.Run

namespace rioring

/-- Whether a socket is active: `on_active` has run, and its receive side has not
    ended since. -/
def View.activity (v : View) (a : Action) (v' : View) (active : Bool) : Bool :=
  v.outbound.activity a v'.outbound active

/-- The library with an observer of whether socket `i` is active. -/
def watched (p : Platform) (i : ObjectId) : Machine (World × Bool) Event :=
  (machine p).observe false (World.watch i false View.activity)

open World

variable {p : Platform} {i : ObjectId} {w : World} {s : SocketObject}

theorem send_locked_hangs_iff (s : SocketObject) (bytes : Bytes) (sqe : Bool) :
    TcpSocket.send_locked p w i s bytes sqe = .error .hang ↔
      s.send_buffer.push p.malloc bytes = .error .hang := by
  unfold TcpSocket.send_locked
  dsimp only
  split <;> rw [IoBuffer.bind_ok_eq_error_iff]

theorem send_to_hangs_iff (s : SocketObject) (bytes : Bytes) (addr : SockAddr) (sqe : Bool) :
    UdpSocket.send_to p w i s bytes addr sqe = .error .hang ↔
      s.send_buffer.push p.malloc bytes = .error .hang := by
  unfold UdpSocket.send_to
  dsimp only
  split <;> rw [IoBuffer.bind_ok_eq_error_iff]

/-- The queue of an active socket has storage, and that of another has none. -/
theorem watched_allocated {active : Bool} (hreach : (watched p i).Reachable Machine.Any (w, active))
    (hs : w.sockets i = some s) :
    s.send_buffer.Valid ∧ Outbound.Allocated s.send_buffer active := by
  have hkept : (w.view_with i s).outbound.Sound ∧
      Outbound.Allocated (w.view_with i s).outbound.send_buffer active := by
    have hpermitted : (watched p i).Reachable (fun x e => permits i (fun _ _ => True) x.1 e)
        (w, active) := Machine.Run.mono hreach fun _ _ _ _ _ => trivial
    refine reachable_watched (P := fun v active => v.outbound.Sound ∧
      Outbound.Allocated v.outbound.send_buffer active) ?_ ?_ hpermitted (view_eq hs)
    · intro v hfresh
      refine ⟨hfresh.outbound.1, ?_⟩
      rw [show v.outbound.send_buffer = {} from hfresh.send_buffer]
      exact .default
    · rintro v a v' active ⟨hsound, hallocated⟩ _ hmove
      exact ⟨hsound.move hmove.outbound, hmove.outbound.allocates hsound hallocated⟩
  exact ⟨hkept.1.valid, hkept.2⟩

/-- A `push` without a `block_size` is entered for bytes exactly when the socket
    is not active, and there alone a `send` or `send_to` does not return, as long
    as what is queued and the bytes are no more than an object can hold. -/
theorem sends_return_iff {active : Bool} (hreach : (watched p i).Reachable Machine.Any (w, active))
    (hs : w.sockets i = some s) (bytes : Bytes) :
    ((¬ ∃ b, s.send_buffer.push_target p.malloc bytes.val.length = .ok b ∧ b.block_size = 0 ∧
        bytes.val ≠ []) ↔ bytes.val = [] ∨ active = true) ∧
      (s.send_buffer.contents.length + bytes.val.length ≤ PTRDIFF_MAX → ∀ w' addr sqe,
        (TcpSocket.send_locked p w' i s bytes sqe ≠ .error .hang ↔
          bytes.val = [] ∨ active = true) ∧
        (UdpSocket.send_to p w' i s bytes addr sqe ≠ .error .hang ↔
          bytes.val = [] ∨ active = true)) := by
  obtain ⟨hvalid, hallocated⟩ := watched_allocated hreach hs
  have hidle : active = false ↔ s.send_buffer.Unallocated := by
    cases active with
    | true =>
      refine ⟨fun h => absurd h (by decide), fun h => ?_⟩
      rw [Outbound.Allocated, h.2] at hallocated
      cases hallocated
    | false => exact ⟨fun _ => hallocated, fun _ => rfl⟩
  -- without storage the target is `main_buffer`, and it has no `block_size`
  have htarget : s.send_buffer.Unallocated →
      s.send_buffer.push_target p.malloc bytes.val.length = .ok s.send_buffer.main_buffer := by
    intro hunallocated
    obtain ⟨hmain, hsub⟩ := hunallocated.empty hvalid
    simp [IoDoubleBuffer.push_target, hmain, hsub]
  constructor
  · constructor
    · intro hnone
      by_contra hnot
      rw [not_or, Bool.not_eq_true, hidle] at hnot
      obtain ⟨hne, hunallocated⟩ := hnot
      exact hnone ⟨_, htarget hunallocated, (hvalid.main.unallocated hunallocated.2).2.2, hne⟩
    · rintro hok ⟨b, htarget, hblock, hne⟩
      have hunallocated := (IoDoubleBuffer.push_target_spec p.malloc_le hvalid htarget).2.1.mp hblock
      rw [hidle.mpr hunallocated] at hok
      exact hok.elim hne (by simp)
  · intro hfits w' addr sqe
    rw [Ne, Ne, send_locked_hangs_iff, send_to_hangs_iff, and_self, IoDoubleBuffer.push_hangs_iff]
    constructor
    · intro hreturns
      by_contra hnot
      rw [not_or, Bool.not_eq_true, hidle] at hnot
      obtain ⟨hne, hunallocated⟩ := hnot
      exact hreturns ⟨_, htarget hunallocated,
        IoBuffer.push_hangs hvalid.main hunallocated.2 bytes.property hne⟩
    · rintro hok ⟨b, htarget, hhang⟩
      obtain ⟨hb, hblock, hoffset⟩ := IoDoubleBuffer.push_target_spec p.malloc_le hvalid htarget
      rcases hok with hnil | hactive
      · rw [hnil, IoBuffer.push_nil hb] at hhang
        cases hhang
      · have hraw : b.raw_buffer.isSome := by
          rw [hb.isSome_iff, Nat.pos_iff_ne_zero, Ne, hblock, ← hidle, hactive]
          decide
        exact IoBuffer.push_returns hb hraw (by omega) hhang

theorem sends_return_iff_connected : ∃ w s,
    (watched .small 1).Reachable Machine.Any (w, true) ∧ w.sockets 1 = some s ∧
      ((¬ ∃ b, s.send_buffer.push_target Platform.small.malloc one_byte.val.length = .ok b ∧
          b.block_size = 0 ∧ one_byte.val ≠ []) ↔ one_byte.val = [] ∨ true = true) ∧
        (s.send_buffer.contents.length + one_byte.val.length ≤ PTRDIFF_MAX → ∀ w' addr sqe,
          (TcpSocket.send_locked .small w' 1 s one_byte sqe ≠ .error .hang ↔
            one_byte.val = [] ∨ true = true) ∧
          (UdpSocket.send_to .small w' 1 s one_byte addr sqe ≠ .error .hang ↔
            one_byte.val = [] ∨ true = true)) := by
  obtain ⟨⟨w, active⟩, hreach, hw⟩ := Machine.reachable_of_exec (watched .small 1) Machine.Any
    [.create_tcp, .connect 1 [⟨7, true⟩] true] (fun x => x.2 && (x.1.sockets 1).isSome)
    (by decide +kernel)
  simp only [Bool.and_eq_true, Option.isSome_iff_exists] at hw
  obtain ⟨rfl, s, hs⟩ := hw
  exact ⟨w, s, hreach, hs, sends_return_iff hreach hs one_byte⟩

/-- A datagram is sent from a socket that was never activated. -/
theorem send_to_hangs : ¬ ∀ w s bytes addr sqe, (machine .small).Reachable Machine.Any w →
    w.sockets 1 = some s → s.socket_type = .udp →
      UdpSocket.send_to .small w 1 s bytes addr sqe ≠ .error .hang := by
  intro hall
  obtain ⟨w, hreach, hw⟩ := Machine.reachable_of_exec (machine .small) Machine.Any [.create_udp]
    (fun w => (w.sockets 1).any fun s => s.socket_type == .udp && s.send_buffer == {})
    (by decide +kernel)
  simp only [Option.any_eq_true, Bool.and_eq_true, beq_iff_eq] at hw
  obtain ⟨s, hs, hudp, hbuffer⟩ := hw
  refine hall w s one_byte {} true hreach hs hudp ?_
  rw [send_to_hangs_iff, IoDoubleBuffer.push_hangs_iff, hbuffer]
  exact ⟨{}, rfl, IoBuffer.push_hangs .default rfl (by decide) (by decide)⟩

end rioring
