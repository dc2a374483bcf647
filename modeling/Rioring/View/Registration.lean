import Rioring.View.Callbacks

/-! The receive callback of a socket: who registers it, and that it is then called. -/

namespace rioring

namespace View

variable {p : Platform} {v v' : View} {a : Action}

/-- Only the application registers a receive callback. -/
theorem Move.recv_event (hmove : v.Move p a v') (ha : a ≠ .set_event) :
    v'.socket.recv_event = v.socket.recv_event := by
  have hsubmits : ∀ {v₁ : View}, v'.socket = v₁.socket →
      v₁.socket.recv_event = v.socket.recv_event → v'.socket.recv_event = v.socket.recv_event := by
    intro v₁ hsame hkept
    rw [hsame]
    exact hkept
  cases hmove with
  | idle => rfl
  | set_event => exact absurd rfl ha
  | start_failed fd => rfl
  | start_error fd code => exact hsubmits (error_errs code).1 rfl
  | start hactive _ hreceive =>
    obtain ⟨recv_buffer, send_buffer, _, _, rfl⟩ := hactive
    exact hsubmits hreceive.errs.1 rfl
  | send_first htype hempty hpush addr hsend => exact hsubmits hsend.errs.1 rfl
  | send_queued => rfl
  | send_to_first htype hempty hpush hsend => exact hsubmits hsend.errs.1 rfl
  | send_to_queued => rfl
  | close_drained hempty hshut => exact hsubmits hshut.errs.1 rfl
  | close_queued => rfl
  | close_force hshut => exact hsubmits hshut.errs.1 rfl
  | received htype hcomplete hdata hlength hpush hreceive addr =>
    rename_i v₁ v₂ r data sqe recv_buffer
    obtain ⟨front, back, _, rfl⟩ := hcomplete
    have hkept : v₂.socket.recv_event = v.socket.recv_event := by
      rw [hreceive.errs.1]
    split
    · exact hkept
    · exact hkept
  | receive_ended htype hcomplete =>
    obtain ⟨front, back, _, rfl⟩ := hcomplete
    have hkept : v.socket.on_shutdown.recv_event = v.socket.recv_event := by
      unfold SocketObject.on_shutdown
      split <;> rfl
    split
    · exact hkept
    · exact hkept
  | sent_more garbage htype hcomplete hcount hle hempty hsend =>
    obtain ⟨front, back, _, rfl⟩ := hcomplete
    exact hsubmits hsend.errs.1 rfl
  | sent_all garbage htype hcomplete hcount hle hempty hpopped hshut =>
    obtain ⟨front, back, _, rfl⟩ := hcomplete
    split at hshut
    · refine hsubmits hshut.errs.1 ?_
      rw [hpopped]
      rfl
    · rw [hshut, hpopped]
      rfl
  | send_failed htype hcomplete =>
    obtain ⟨front, back, _, rfl⟩ := hcomplete
    exact hsubmits (error_errs _).1 rfl
  | shut_down htype hcomplete =>
    obtain ⟨front, back, _, rfl⟩ := hcomplete
    split
    · rfl
    · rfl
  | pop size => rfl

/-- Bytes that come in are followed by a call of the receive callback, if there is one. -/
theorem Move.receive_called {r : Request} {data : List UInt8} {sqe : Bool}
    (hmove : v.Move p (.received r data sqe) v') (hevent : v.socket.recv_event = true) :
    ∃ added contents addr,
      v'.history.callbacks = v.history.callbacks ++ (added ++ [.receive contents addr]) := by
  generalize ha : Action.received r data sqe = a at hmove
  cases hmove with
  | received htype hcomplete hdata hlength hpush hreceive addr =>
    obtain ⟨_, _, hhistory, _⟩ := hcomplete.remaining
    obtain ⟨_, codes, hcodes⟩ := hreceive.errs
    rw [if_pos hevent, call, hcodes, hhistory]
    exact ⟨codes.map .error, _, addr, List.append_assoc _ _ _⟩
  | _ => cases ha

end View

end rioring
