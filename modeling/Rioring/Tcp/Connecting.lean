import Rioring.Tcp.Closing

namespace rioring

namespace TcpSocket

variable {p : Platform} {i : ObjectId} {w w' : World} {s : SocketObject} {addresses : List Attempt}

theorem first_connected_eq_none :
    first_connected addresses = none ↔ ¬ ∃ a ∈ addresses, 0 ≤ a.socket ∧ a.connected = true := by
  simp [first_connected, Attempt.connects]

/-- What `connect` is to report: whether an attempt has connected, and the
    descriptor of the first that has. The descriptors of the attempts before it
    are closed, and a call that returns false leaves the connection as it was. -/
structure Reports (w : World) (i : ObjectId) (s : SocketObject) (addresses : List Attempt)
    (result : Bool) (w' : World) : Prop where
  returned : result = true ↔ ∃ a ∈ addresses, 0 ≤ a.socket ∧ a.connected = true
  handler : result = true → ∃ s', w'.sockets i = some s' ∧
    first_connected addresses = some s'.socket_handler
  closed : ∀ a ∈ addresses.takeWhile (fun a => !a.connects), 0 ≤ a.socket →
    first_connected addresses ≠ some a.socket → w'.descriptors a.socket = none
  unchanged : result = false → ∃ s', w'.sockets i = some s' ∧
    s'.socket_handler = s.socket_handler ∧ s'.connected_flag = s.connected_flag ∧
    w'.inflight = w.inflight

/-- The descriptor that `connect` finds in `socket_handler` after its loop is not
    the sentinel exactly if an attempt has connected. -/
def Told (s : SocketObject) (addresses : List Attempt) : Prop :=
  match first_connected addresses with
  | some fd => fd ≠ 0
  | none => addresses = [] ∨ s.socket_handler = 0

/-- Activation keeps the descriptor of the socket, and every other. -/
theorem on_active_handler {sqe : Bool} (hactive : on_active p w i s sqe = .ok w') :
    ∃ s', w'.sockets i = some s' ∧ s'.socket_handler = s.socket_handler ∧
      w'.descriptors = w.descriptors := by
  unfold on_active at hactive
  rw [IoBuffer.bind_eq_ok_iff] at hactive
  obtain ⟨recv_buffer, _, hactive⟩ := hactive
  rw [IoBuffer.bind_eq_ok_iff] at hactive
  obtain ⟨send_buffer, _, hactive⟩ := hactive
  cases hactive
  have hsubmitted := SocketObject.submit_receiving_submitted p
    ((w.set_socket i { s with connected_flag := true, recv_buffer, send_buffer }).record i fun h =>
      { h with activations := h.activations + 1 }) i { socket_type := .tcp } sqe
  refine ⟨{ s with connected_flag := true, recv_buffer, send_buffer }, ?_, rfl, hsubmitted.descriptors⟩
  exact (congrFun hsubmitted.sockets i).trans (w.set_socket_self i _)

/-- Without an address, or where no attempt connects and there is no descriptor
    of an earlier connection, `connect` returns false and changes nothing. -/
theorem Reports.failed (hfirst : first_connected addresses = none)
    (hsockets : w'.sockets i = some s) (hinflight : w'.inflight = w.inflight)
    (htried : ∀ a ∈ addresses.takeWhile (fun a => !a.connects), 0 ≤ a.socket →
      w'.descriptors a.socket = none) : Reports w i s addresses false w' where
  returned := by
    have hnone := first_connected_eq_none.mp hfirst
    constructor
    · exact fun h => by cases h
    · exact fun h => absurd h hnone
  handler := fun h => by cases h
  closed := fun a ha hpos _ => htried a ha hpos
  unchanged := fun _ => ⟨s, hsockets, rfl, rfl, hinflight⟩

/-- `connect` reports what happened exactly when the sentinel tells. -/
theorem connect_reports_iff (hs : w.sockets i = some s) {sqe result : Bool}
    (hconnect : connect p w i s addresses sqe = some (result, w')) :
    Reports w i s addresses result w' ↔ Told s addresses := by
  rw [connect] at hconnect
  split at hconnect
  · rename_i hnil
    obtain rfl := List.isEmpty_iff.mp hnil
    cases hconnect
    exact iff_of_true (.failed rfl hs rfl (by simp)) (.inl rfl)
  · rename_i hcons
    have hne : addresses ≠ [] := fun h => hcons (List.isEmpty_iff.mpr h)
    obtain ⟨⟨w₁, s₁⟩, hloop, hrest⟩ := Option.bind_eq_some_iff.mp hconnect
    obtain ⟨htried, hfirst⟩ := World.connect_loop_first hloop
    dsimp only at hrest
    cases hconnected : first_connected addresses with
    | none =>
      have hnone := first_connected_eq_none.mp hconnected
      rw [hconnected] at hfirst
      obtain ⟨rfl, rfl⟩ := hfirst
      rw [Told, hconnected]
      split at hrest
      · rename_i hzero
        cases hrest
        exact iff_of_true (.failed hconnected (w₁.set_socket_self i s₁) rfl htried) (.inr hzero)
      · rename_i hstale
        obtain ⟨w₂, _, hrest⟩ := Option.bind_eq_some_iff.mp hrest
        cases hrest
        refine iff_of_false (fun h => hnone (h.returned.mp rfl)) ?_
        exact fun h => h.elim hne hstale
    | some fd =>
      have hsome : ∃ a ∈ addresses, 0 ≤ a.socket ∧ a.connected = true := by
        by_contra hnone
        rw [first_connected_eq_none.mpr hnone] at hconnected
        cases hconnected
      rw [hconnected] at hfirst
      obtain ⟨hpos, hfree, rfl, rfl⟩ := hfirst
      rw [Told, hconnected]
      split at hrest
      · rename_i hzero
        cases hrest
        refine iff_of_false (fun h => ?_) (fun h => h hzero)
        cases h.returned.mpr hsome
      · rename_i hfd
        obtain ⟨w₂, hactive, hrest⟩ := Option.bind_eq_some_iff.mp hrest
        cases hrest
        obtain ⟨s', hs', hhandler, hdescriptors⟩ :=
          on_active_handler (IoBuffer.toOption_eq_some_iff.mp hactive)
        refine iff_of_true ⟨iff_of_true rfl hsome, fun _ => ⟨s', hs', ?_⟩, ?_, fun h => by cases h⟩ hfd
        · rw [hconnected, hhandler]
        · intro a ha hpos hother
          rw [hdescriptors, World.open_descriptor_descriptors, Function.update_of_ne]
          · exact htried a ha hpos
          · rintro rfl
            exact hother hconnected

end TcpSocket

open TcpSocket

/-- No socket for the first address, no connection to the second. -/
def third_address : List Attempt := [⟨-1, false⟩, ⟨7, false⟩, ⟨8, true⟩]

theorem connect_reports_third_address : ∃ w w' s, (machine .small).Reachable Machine.Any w ∧
    w.sockets 1 = some s ∧ connect .small w 1 s third_address true = some (true, w') ∧
      Reports w 1 s third_address true w' := by
  obtain ⟨w, hreach, hw⟩ := Machine.reachable_of_exec (machine .small) Machine.Any [.create_tcp]
    (fun w => (w.sockets 1).any fun s => (connect .small w 1 s third_address true).any (·.1))
    (by decide +kernel)
  simp only [Option.any_eq_true] at hw
  obtain ⟨s, hs, ⟨result, w'⟩, hconnect, rfl⟩ := hw
  have htold : Told s third_address := by
    change (8 : Int) ≠ 0
    decide
  exact ⟨w, w', s, hreach, hs, hconnect, (connect_reports_iff hs hconnect).mpr htold⟩

/-- The peer has ended the connection. -/
def peer_gone : List Event := connected ++ [.complete 0 { res := 0 } true, .finish 0]

/-- `connect` denies a connection whose descriptor is 0, and claims one where no
    attempt connects but `socket_handler` is left from before. -/
theorem connect_misreports :
    (¬ ∀ p i w w' s addresses sqe result, (machine p).Reachable Machine.Any w →
      w.sockets i = some s → connect p w i s addresses sqe = some (result, w') →
        (∃ a ∈ addresses, 0 ≤ a.socket ∧ a.connected = true) → result = true) ∧
    ¬ ∀ p i w w' s addresses sqe result, (machine p).Reachable Machine.Any w →
      w.sockets i = some s → connect p w i s addresses sqe = some (result, w') →
        result = true → ∃ a ∈ addresses, 0 ≤ a.socket ∧ a.connected = true := by
  constructor
  · intro hall
    obtain ⟨w, hreach, hw⟩ := Machine.reachable_of_exec (machine .small) Machine.Any [.create_tcp]
      (fun w => (w.sockets 1).any fun s => (connect .small w 1 s [⟨0, true⟩] true).any (!·.1))
      (by decide +kernel)
    simp only [Option.any_eq_true, Bool.not_eq_true'] at hw
    obtain ⟨s, hs, ⟨result, w'⟩, hconnect, rfl⟩ := hw
    have hresult := hall .small 1 w w' s _ _ _ hreach hs hconnect ⟨⟨0, true⟩, by simp, le_refl 0, rfl⟩
    cases hresult
  · intro hall
    obtain ⟨w, hreach, hw⟩ := Machine.reachable_of_exec (machine .small) Machine.Any peer_gone
      (fun w => (w.sockets 1).any fun s => (connect .small w 1 s [⟨-1, false⟩] true).any (·.1))
      (by decide +kernel)
    simp only [Option.any_eq_true] at hw
    obtain ⟨s, hs, ⟨result, w'⟩, hconnect, rfl⟩ := hw
    obtain ⟨a, ha, _, hconnected⟩ := hall .small 1 w w' s _ _ _ hreach hs hconnect rfl
    rw [List.mem_singleton.mp ha] at hconnected
    cases hconnected

end rioring
