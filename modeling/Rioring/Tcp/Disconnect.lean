import Rioring.Descriptors
import Rioring.Tcp.Sending

namespace rioring

namespace View

variable {p : Platform} {v v' : View} {a : Action}

/-- A shutdown of the socket is in flight. -/
def Closing (v : View) : Prop := ∃ r ∈ v.requests, r.context.type = .shutdown

/-- Only the handling of a shutdown takes one out. -/
theorem Move.closing (hmove : v.Move p a v') (hclosing : v.Closing) :
    v'.Closing ∨ ∃ r, a = .shut_down r := by
  obtain ⟨r, hr, htype⟩ := hclosing
  obtain ⟨rest, hremaining, hadds⟩ := hmove.adds
  by_cases hshut : ∃ r, a = .shut_down r
  · exact .inr hshut
  · have hrest : r ∈ rest := by
      cases hcompleted : a.completed with
      | none =>
        rw [hcompleted] at hremaining
        rw [hremaining]
        exact hr
      | some r' =>
        rw [hcompleted] at hremaining
        obtain ⟨front, back, hrequests, rfl⟩ := hremaining
        have hother : r'.context.type ≠ .shutdown := by
          cases hmove with
          | received htype | receive_ended htype | sent_more _ htype | sent_all _ htype
          | send_failed htype =>
            cases hcompleted
            rw [htype]
            decide
          | shut_down => exact absurd ⟨_, rfl⟩ hshut
          | _ => cases hcompleted
        rw [hrequests] at hr
        rcases List.mem_append.mp hr with hfront | hback
        · exact List.mem_append_left _ hfront
        · rcases List.mem_cons.mp hback with rfl | hback
          · exact absurd htype hother
          · exact List.mem_append_right _ hback
    rcases hadds with ⟨hsame, _⟩ | ⟨added, _, _, _, happend, _⟩
    · exact .inl ⟨r, hsame ▸ hrest, htype⟩
    · exact .inl ⟨r, by rw [happend]; exact List.mem_append_left _ hrest, htype⟩

/-- What is in flight was in flight before, or has just been submitted. -/
theorem Move.submitted (hmove : v.Move p a v') : ∃ added,
    v'.history.submitted = v.history.submitted ++ added ∧ (∀ r ∈ added, r ∈ v'.requests) ∧
      ∀ r ∈ v'.requests, r ∈ v.requests ∨ r ∈ added := by
  obtain ⟨rest, hremaining, hadds⟩ := hmove.adds
  have hsub : ∀ r ∈ rest, r ∈ v.requests := by
    cases hcompleted : a.completed with
    | none =>
      rw [hcompleted] at hremaining
      rw [hremaining]
      exact fun r hr => hr
    | some r' =>
      rw [hcompleted] at hremaining
      obtain ⟨front, back, hrequests, rfl⟩ := hremaining
      intro r hr
      rw [hrequests]
      rcases List.mem_append.mp hr with hfront | hback
      · exact List.mem_append_left _ hfront
      · exact List.mem_append_right _ (List.mem_cons_of_mem _ hback)
  rcases hadds with ⟨hsame, hsubmitted⟩ | ⟨added, _, _, _, happend, hsubmitted⟩
  · exact ⟨[], by rw [hsubmitted, List.append_nil], by simp, fun r hr => .inl (hsub r (hsame ▸ hr))⟩
  · refine ⟨[added], hsubmitted, fun r hr => ?_, fun r hr => ?_⟩
    · rw [happend]
      exact List.mem_append_right _ hr
    · rw [happend] at hr
      exact (List.mem_append.mp hr).imp (hsub r) id

/-- The handling of a shutdown closes the descriptor there is. -/
theorem Move.shuts {r : Request} (hmove : v.Move p (.shut_down r) v')
    (hne : v.socket.socket_handler ≠ 0) : v.Closing ∧ v'.socket.socket_handler = 0 ∧
      v'.history.closed = v.history.closed ++ [v.socket.socket_handler] := by
  refine ⟨?_, hmove.shut_down_closes hne⟩
  cases hmove with
  | shut_down htype hcomplete =>
    obtain ⟨front, back, hrequests, rfl⟩ := hcomplete
    refine ⟨r, ?_, htype⟩
    rw [hrequests]
    exact List.mem_append_right _ List.mem_cons_self

/-- A socket since it had the descriptor `fd`: it has it still, and every shutdown
    it was given is in flight, or one of them has closed it. -/
structure Since (fd : Int) (before : List Int) (shut : Prop) (v : View) : Prop where
  seen : v.Closing → shut
  descriptor : (v.socket.socket_handler = fd ∧ v.history.closed = before ∧ (shut → v.Closing)) ∨
    (v.socket.socket_handler = 0 ∧ v.history.closed = before ++ [fd] ∧ shut)

end View

namespace World

variable {p : Platform} {i : ObjectId} {w₀ w w' : World} {s₀ s : SocketObject}

/-- A shutdown of the socket was in flight, or has been submitted since. -/
def shut_since (w₀ w : World) (i : ObjectId) : Prop :=
  (∃ r ∈ w₀.inflight, r.context.handler = some i ∧ r.context.type = .shutdown) ∨
    ∃ r ∈ w₀.submitted_since w i, r.context.type = .shutdown

theorem closing_iff (w : World) (i : ObjectId) (s : SocketObject) : (w.view_with i s).Closing ↔
    ∃ r ∈ w.inflight, r.context.handler = some i ∧ r.context.type = .shutdown := by
  simp only [View.Closing, view_with, List.mem_filter, decide_eq_true_eq, and_assoc]

/-- A step that opens no descriptor for the socket. -/
theorem Wf.since (hwf : w.Wf) (hs : w.sockets i = some s) {fd : Int} (hfd : fd ≠ 0)
    {before : List Int} (hsubmitted : (w₀.history i).submitted <+: (w.history i).submitted)
    (hsince : View.Since fd before (w₀.shut_since w i) (w.view_with i s)) {e : Event}
    (hopens : opens i e = false) (hstep : (machine p).step w e = some w') :
    ∃ s', w'.sockets i = some s' ∧ (w₀.history i).submitted <+: (w'.history i).submitted ∧
      View.Since fd before (w₀.shut_since w' i) (w'.view_with i s') := by
  obtain ⟨v', hv', hmove⟩ := ((hwf.step_does hstep).moves i).move _ (view_eq hs)
  obtain ⟨s', hs', rfl⟩ := Option.map_eq_some_iff.mp hv'
  obtain ⟨s'', hs'', hdescriptor⟩ := hwf.step_descriptor hs hopens hstep
  rw [hs'] at hs''
  cases hs''
  obtain ⟨added, hadded, hinflight, hrequests⟩ := hmove.submitted
  have happend : (w'.history i).submitted = (w.history i).submitted ++ added := hadded
  have hnew : w₀.submitted_since w' i = w₀.submitted_since w i ++ added := by
    rw [World.submitted_since, World.submitted_since, happend,
      List.drop_append_of_le_length hsubmitted.length_le]
  have hshut : w₀.shut_since w' i ↔
      w₀.shut_since w i ∨ ∃ r ∈ added, r.context.type = .shutdown := by
    simp only [shut_since, hnew, List.mem_append, or_and_right, exists_or, or_assoc]
  refine ⟨s', hs', hsubmitted.trans (by rw [happend]; exact List.prefix_append _ _), ?_, ?_⟩
  · rintro ⟨r, hr, htype⟩
    rw [hshut]
    rcases hrequests r hr with hold | hnew
    · exact .inl (hsince.seen ⟨r, hold, htype⟩)
    · exact .inr ⟨r, hnew, htype⟩
  · rcases hsince.descriptor with ⟨hhandler, hclosed, hclosing⟩ | ⟨hzero, hclosed, hseen⟩
    · by_cases hdown : ∃ r, w.action i e = .shut_down r
      · obtain ⟨r, hdown⟩ := hdown
        rw [hdown] at hmove
        obtain ⟨hopen, hzero', hclosed'⟩ := hmove.shuts (by rw [hhandler]; exact hfd)
        refine .inr ⟨hzero', ?_, hshut.mpr (.inl (hsince.seen hopen))⟩
        rw [hclosed', hclosed, hhandler]
      · rcases hdescriptor with ⟨hclosed', hhandler'⟩ | ⟨hdown', _⟩
        · refine .inl ⟨hhandler'.trans hhandler, hclosed'.trans hclosed, fun h => ?_⟩
          rcases hshut.mp h with hold | ⟨r, hr, htype⟩
          · exact (hmove.closing (hclosing hold)).resolve_right hdown
          · exact ⟨r, hinflight r hr, htype⟩
        · exact absurd hdown' hdown
    · rcases hdescriptor with ⟨hclosed', hhandler'⟩ | ⟨_, hne, _⟩
      · exact .inr ⟨hhandler'.trans hzero, hclosed'.trans hclosed, hshut.mpr (.inl hseen)⟩
      · exact absurd hzero hne

/-- A run that opens no descriptor for the socket. -/
theorem Wf.run_since (hwf : w₀.Wf) (hs₀ : w₀.sockets i = some s₀) (hfd : s₀.socket_handler ≠ 0)
    (hrun : (machine p).Run (fun _ e => opens i e = false) w₀ w) : w.Wf ∧
      ∃ s, w.sockets i = some s ∧ View.Since s₀.socket_handler (w₀.history i).closed
        (w₀.shut_since w i) (w.view_with i s) := by
  have hkept : w.Wf ∧ ∃ s, w.sockets i = some s ∧
      (w₀.history i).submitted <+: (w.history i).submitted ∧ View.Since s₀.socket_handler
        (w₀.history i).closed (w₀.shut_since w i) (w.view_with i s) := by
    refine Machine.Run.invariant (P := fun w => w.Wf ∧ ∃ s, w.sockets i = some s ∧
      (w₀.history i).submitted <+: (w.history i).submitted ∧ View.Since s₀.socket_handler
        (w₀.history i).closed (w₀.shut_since w i) (w.view_with i s)) hrun ?_ ?_
    · have hshut : w₀.shut_since w₀ i ↔ (w₀.view_with i s₀).Closing := by
        rw [closing_iff, shut_since, World.submitted_since, List.drop_length]
        simp
      exact ⟨hwf, s₀, hs₀, List.prefix_rfl, hshut.mpr, .inl ⟨rfl, rfl, hshut.mp⟩⟩
    · rintro w e w' _ ⟨hwf, s, hs, hsubmitted, hsince⟩ hopens hstep
      exact ⟨hwf.step hstep, hwf.since hs hfd hsubmitted hsince hopens hstep⟩
  obtain ⟨hwf, s, hs, _, hsince⟩ := hkept
  exact ⟨hwf, s, hs, hsince⟩

end World

open World

variable {p : Platform} {i : ObjectId} {w₀ w : World} {s₀ s : SocketObject}

/-- From a socket that has connected or been accepted: once none of its requests
    is in flight its descriptor has been closed exactly when it was shut down. -/
theorem descriptor_closed_iff (hreach : (machine p).Reachable Machine.Any w₀)
    (hs₀ : w₀.sockets i = some s₀) (hfd : s₀.socket_handler ≠ 0)
    (hrun : (machine p).Run (fun _ e => opens i e = false) w₀ w) (hs : w.sockets i = some s)
    (hidle : ∀ r ∈ w.inflight, r.context.handler ≠ some i) :
    (s.socket_handler = 0 ∧
        (w.history i).closed = (w₀.history i).closed ++ [s₀.socket_handler]) ↔
      w₀.shut_since w i := by
  obtain ⟨_, s', hs', hsince⟩ := (Wf.reachable hreach).run_since hs₀ hfd hrun
  rw [hs] at hs'
  cases hs'
  have hnone : ¬ (w.view_with i s).Closing := by
    rw [closing_iff]
    rintro ⟨r, hr, hi, _⟩
    exact hidle r hr hi
  rcases hsince.descriptor with ⟨hhandler, _, hclosing⟩ | ⟨hzero, hclosed, hseen⟩
  · constructor
    · rintro ⟨hzero, _⟩
      have hkept : s.socket_handler = s₀.socket_handler := hhandler
      exact absurd (hkept.symm.trans hzero) hfd
    · exact fun h => absurd (hclosing h) hnone
  · exact ⟨fun _ => hseen, fun _ => ⟨hzero, hclosed⟩⟩

/-- A connection with a close callback. -/
def with_close_event : List Event := [
  .create_tcp,
  .set_event 1 .close true,
  .connect 1 [⟨7, true⟩] true]

/-- The application closes it, and then the stream ends. -/
def closed_by_both : List Event := [
  .close 1 .force true,
  .complete 1 { res := 0 } true,
  .complete 0 { res := 0 } true]

theorem descriptor_closed_by_both : ∃ w₀ w s₀ s, (machine .small).Reachable Machine.Any w₀ ∧
    w₀.sockets 1 = some s₀ ∧ s₀.socket_handler ≠ 0 ∧
      (machine .small).Run (fun _ e => opens 1 e = false) w₀ w ∧ w.sockets 1 = some s ∧
      (∀ r ∈ w.inflight, r.context.handler ≠ some 1) ∧ .close ∈ (w.history 1).callbacks ∧
      ((s.socket_handler = 0 ∧
          (w.history 1).closed = (w₀.history 1).closed ++ [s₀.socket_handler]) ↔
        w₀.shut_since w 1) := by
  obtain ⟨w₀, hreach, hw⟩ := Machine.reachable_of_exec (machine .small) Machine.Any with_close_event
    (fun w₀ => (w₀.sockets 1).any (·.socket_handler != 0) &&
      ((machine .small).exec (fun _ e => opens 1 e = false) w₀ closed_by_both).any fun w : World =>
        (w.sockets 1).isSome && (w.inflight.all (·.context.handler != some 1) &&
          (w.history 1).callbacks.contains Callback.close)) (by decide +kernel)
  simp only [Bool.and_eq_true, Option.any_eq_true, Option.isSome_iff_exists, bne_iff_ne,
    List.all_eq_true, List.contains_iff_mem] at hw
  obtain ⟨⟨s₀, hs₀, hfd⟩, w, hexec, ⟨s, hs⟩, hidle, hclose⟩ := hw
  have hrun := Machine.run_of_exec hexec
  exact ⟨w₀, w, s₀, s, hreach, hs₀, hfd, hrun, hs, hidle, hclose,
    descriptor_closed_iff hreach hs₀ hfd hrun hs hidle⟩

/-- The peer ends the stream, and the application does nothing. -/
def closed_by_peer : List Event := with_close_event ++ [.complete 0 { res := 0 } true, .finish 0]

theorem descriptor_left_open : ¬ ∀ w s,
    (machine .small).Reachable (permits 1 View.connected_once) w → w.sockets 1 = some s →
      .close ∈ (w.history 1).callbacks → (∀ r ∈ w.inflight, r.context.handler ≠ some 1) →
      s.socket_handler = 0 := by
  intro hall
  obtain ⟨w, hreach, hw⟩ := Machine.reachable_of_exec (machine .small)
    (permits 1 View.connected_once) closed_by_peer
    (fun w => (w.sockets 1).any (·.socket_handler != 0) &&
      (w.inflight.all (·.context.handler != some 1) &&
        (w.history 1).callbacks.contains Callback.close)) (by decide +kernel)
  simp only [Bool.and_eq_true, Option.any_eq_true, bne_iff_ne, List.all_eq_true,
    List.contains_iff_mem] at hw
  obtain ⟨⟨s, hs, hopen⟩, hidle, hclose⟩ := hw
  exact hopen (hall w s hreach hs hclose hidle)

end rioring
