import Rioring.View.Run

/-! Which callbacks the moves of a socket make. -/

namespace rioring

namespace View

variable {p : Platform} {v v' : View} {a : Action}

/-- What is behind a callback that a move makes. -/
def Called (v : View) (a : Action) (v' : View) : Callback → Prop
  | .receive contents _ =>
    (∃ r data sqe, a = .received r data sqe) ∧ contents = v'.socket.recv_buffer.contents
  | .send_complete =>
    (∃ r count sqe, a = .sent r count sqe) ∧ v.socket.send_complete_event = true ∧
      v'.socket.send_buffer.empty = true
  | .close => ∃ r res, a = .receive_ended r res
  | .error _ => True
  | .accept _ => False

/-- Only error callbacks, and the socket is as it was. -/
def Errs (v v' : View) : Prop :=
  v'.socket = v.socket ∧
    ∃ codes : List Int, v'.history.callbacks = v.history.callbacks ++ codes.map .error

theorem Errs.same (hsocket : v'.socket = v.socket)
    (hcallbacks : v'.history.callbacks = v.history.callbacks) : v.Errs v' :=
  ⟨hsocket, [], by rw [hcallbacks, List.map_nil, List.append_nil]⟩

theorem error_errs (code : Int) : v.Errs (v.error code) := by
  rw [error]
  split
  · exact ⟨rfl, [code], rfl⟩
  · exact .same rfl rfl

theorem submit_errs (c : ContextId) (ctx : IoContext) (sqe : Bool) : v.Errs (v.submit c ctx sqe) := by
  rw [submit]
  split
  · exact .same rfl rfl
  · exact error_errs _

theorem Receives.errs {sqe : Bool} (h : v.Receives p sqe v') : v.Errs v' := by
  obtain ⟨c, ctx, _, rfl⟩ := h
  exact submit_errs c ctx sqe

theorem Sends.errs {addr : SockAddr} {sqe : Bool} (h : v.Sends addr sqe v') : v.Errs v' := by
  rcases h with ⟨c, ctx, _, rfl⟩ | ⟨_, _, rfl⟩
  · exact submit_errs c ctx sqe
  · exact .same rfl rfl

theorem Shuts.errs {sqe : Bool} (h : v.Shuts sqe v') : v.Errs v' := by
  obtain ⟨c, ctx, _, rfl⟩ := h
  exact submit_errs c ctx sqe

/-- The callbacks of a move come behind those of before, each for its reason. -/
def Calls (v : View) (a : Action) (v' : View) : Prop :=
  ∃ added, v'.history.callbacks = v.history.callbacks ++ added ∧ ∀ callback ∈ added, v.Called a v' callback

theorem Calls.none (hcallbacks : v'.history.callbacks = v.history.callbacks) : v.Calls a v' :=
  ⟨[], by rw [hcallbacks, List.append_nil], by simp⟩

/-- A move that makes one callback, if any, and then only error callbacks. -/
theorem Errs.calls {v₁ : View} {events : List Callback} (h : v₁.Errs v')
    (hcallbacks : v₁.history.callbacks = v.history.callbacks ++ events)
    (hcalled : ∀ callback ∈ events, v.Called a v' callback) : v.Calls a v' := by
  obtain ⟨_, codes, hcodes⟩ := h
  refine ⟨events ++ codes.map .error, ?_, ?_⟩
  · rw [hcodes, hcallbacks, List.append_assoc]
  · intro callback hmem
    rcases List.mem_append.mp hmem with hevent | herror
    · exact hcalled callback hevent
    · obtain ⟨code, _, rfl⟩ := List.mem_map.mp herror
      trivial

theorem Errs.calls_none {v₁ : View} (h : v₁.Errs v')
    (hcallbacks : v₁.history.callbacks = v.history.callbacks) : v.Calls a v' := by
  rw [← List.append_nil v.history.callbacks] at hcallbacks
  exact h.calls hcallbacks (by simp)

theorem Move.calls (hmove : v.Move p a v') : v.Calls a v' := by
  cases hmove with
  | idle => exact .none rfl
  | set_event => exact .none rfl
  | start_failed fd => exact .none rfl
  | start_error fd code => exact (error_errs code).calls_none rfl
  | start hactive _ hreceive =>
    obtain ⟨recv_buffer, send_buffer, _, _, rfl⟩ := hactive
    exact hreceive.errs.calls_none rfl
  | send_first htype hempty hpush addr hsend => exact hsend.errs.calls_none rfl
  | send_queued => exact .none rfl
  | send_to_first htype hempty hpush hsend => exact hsend.errs.calls_none rfl
  | send_to_queued => exact .none rfl
  | close_drained hempty hshut => exact hshut.errs.calls_none rfl
  | close_queued => exact .none rfl
  | close_force hshut => exact hshut.errs.calls_none rfl
  | received htype hcomplete hdata hlength hpush hreceive addr =>
    rename_i v₁ v₂ r data sqe recv_buffer
    obtain ⟨_, _, hhistory, _⟩ := hcomplete.remaining
    obtain ⟨hsocket, codes, hcodes⟩ := hreceive.errs
    have hcallbacks : v₂.history.callbacks = v.history.callbacks ++ codes.map .error := by
      rw [hcodes, hhistory]
    have herrors : ∀ v' : View, ∀ callback ∈ codes.map Callback.error,
        v.Called (.received r data sqe) v' callback := by
      intro v' callback hmem
      obtain ⟨code, _, rfl⟩ := List.mem_map.mp hmem
      trivial
    split
    · refine ⟨codes.map .error ++ [.receive recv_buffer.contents addr], ?_, ?_⟩
      · rw [call, hcallbacks, List.append_assoc]
      · intro callback hmem
        rcases List.mem_append.mp hmem with herror | hevent
        · exact herrors _ callback herror
        · rw [List.mem_singleton] at hevent
          subst callback
          refine ⟨⟨r, data, sqe, rfl⟩, ?_⟩
          change recv_buffer.contents = v₂.socket.recv_buffer.contents
          rw [hsocket]
    · exact ⟨codes.map .error, hcallbacks, herrors v₂⟩
  | receive_ended htype hcomplete =>
    rename_i v₁ r res
    obtain ⟨_, _, hhistory, _⟩ := hcomplete.remaining
    split
    · refine ⟨[.close], ?_, ?_⟩
      · rw [call, with_socket, hhistory]
      · intro callback hmem
        rw [List.mem_singleton] at hmem
        subst callback
        exact ⟨r, res, rfl⟩
    · exact .none (by rw [with_socket, hhistory])
  | sent_more garbage htype hcomplete hcount hle hempty hsend => exact hsend.errs.calls_none rfl
  | sent_all garbage htype hcomplete hcount hle hempty hpopped hshut =>
    rename_i v₁ v₂ r count sqe
    have hbuffer : v₂.socket.send_buffer.empty = true := by
      rw [hpopped]
      exact hempty
    have hcallbacks : v₂.history.callbacks = v.history.callbacks ++
        if v.socket.send_complete_event then [.send_complete] else [] := by rw [hpopped]
    have hcalled : ∀ v' : View, v'.socket = v₂.socket →
        ∀ callback ∈ (if v.socket.send_complete_event then [Callback.send_complete] else []),
        v.Called (.sent r count sqe) v' callback := by
      intro v' hsocket callback hmem
      split at hmem
      · rename_i hregistered
        rw [List.mem_singleton] at hmem
        subst callback
        exact ⟨⟨r, count, sqe, rfl⟩, hregistered, by rw [hsocket]; exact hbuffer⟩
      · cases hmem
    split at hshut
    · exact hshut.errs.calls hcallbacks (hcalled _ hshut.errs.1)
    · rw [hshut]
      exact ⟨_, hcallbacks, hcalled _ rfl⟩
  | send_failed htype hcomplete =>
    obtain ⟨_, _, hhistory, _⟩ := hcomplete.remaining
    exact (error_errs _).calls_none (by rw [hhistory])
  | shut_down htype hcomplete =>
    obtain ⟨_, _, hhistory, _⟩ := hcomplete.remaining
    split
    · exact .none rfl
    · exact .none (by rw [hhistory])
  | pop size => exact .none rfl

end View

namespace World

/-- The callbacks that a step has made for an object. -/
def callbacks_since (w w' : World) (i : ObjectId) : List Callback :=
  (w'.history i).callbacks.drop (w.history i).callbacks.length

/-- A step makes callbacks of a socket only behind those of before, each for its
    reason. -/
theorem Wf.callbacks_since {p : Platform} {i : ObjectId} {w w' : World} {s : SocketObject} (hwf : w.Wf)
    (hs : w.sockets i = some s) {e : Event} (hstep : (machine p).step w e = some w') :
    ∃ s', w'.sockets i = some s' ∧ (w.view_with i s).Move p (w.action i e) (w'.view_with i s') ∧
      (w'.history i).callbacks = (w.history i).callbacks ++ w.callbacks_since w' i ∧
      ∀ callback ∈ w.callbacks_since w' i,
        (w.view_with i s).Called (w.action i e) (w'.view_with i s') callback := by
  obtain ⟨v', hv', hmove⟩ := ((hwf.step_does hstep).moves i).move _ (view_eq hs)
  obtain ⟨s', hs', rfl⟩ := Option.map_eq_some_iff.mp hv'
  obtain ⟨added, hadded, hcalled⟩ := hmove.calls
  have happend : (w'.history i).callbacks = (w.history i).callbacks ++ added := hadded
  have hsince : w.callbacks_since w' i = added := by
    rw [World.callbacks_since, happend, List.drop_left]
  exact ⟨s', hs', hmove, by rw [hsince]; exact happend, by rw [hsince]; exact hcalled⟩

end World

end rioring
