import Rioring.Descriptors
import Rioring.Tcp.Listening

/-! What the shutdown completions of a server close. -/

namespace rioring

open World

namespace ServerView

variable {b b' : ServerView} {a : ServerAction}

/-- `run` is not called any more once it has returned true. -/
def runs_once (b : ServerView) : ServerAction → Prop
  | .run _ => b.history.activations = 0
  | _ => True

/-- One shutdown of the server completes at most, and not before `run` has
    returned true. -/
def stops_once (b : ServerView) (a : ServerAction) : Prop :=
  b.runs_once a ∧ match a with
    | .shut_down _ => b.history.activations ≠ 0 ∧ b.history.closed = []
    | _ => True

instance : DecidableRel runs_once := fun b a =>
  match a with
  | .run _ => inferInstanceAs (Decidable (b.history.activations = 0))
  | .idle | .set_event | .stop _ | .accept_completed .. | .resume .. | .shut_down _ => .isTrue trivial

instance : DecidableRel stops_once := fun b a =>
  match a with
  | .shut_down r => inferInstanceAs (Decidable
      (b.runs_once (.shut_down r) ∧ b.history.activations ≠ 0 ∧ b.history.closed = []))
  | .idle | .set_event | .run _ | .stop _ | .accept_completed .. | .resume .. =>
    inferInstanceAs (Decidable (b.runs_once _ ∧ True))

/-- Only `run` counts as an activation. -/
theorem Move.activations (hmove : b.Move a b') (hrun : ∀ sqe, a ≠ .run sqe) :
    b'.history.activations = b.history.activations := by
  cases hmove with
  | idle => rfl
  | set_event => rfl
  | run_failed => exact absurd rfl (hrun _)
  | run => exact absurd rfl (hrun _)
  | stop hsubmit => exact hsubmit.accepts.2.2
  | accepted => rfl
  | accept_failed peer htype hcomplete hres =>
    exact congrArg History.activations hcomplete.accepts.2.2
  | resume hreturn hsubmit =>
    exact hsubmit.accepts.2.2.trans (congrArg History.activations hreturn.accepting.2.2)
  | shut_down htype hcomplete => rfl

/-- What has become of the listening descriptor: before `run` has returned true
    there is none, and from then on the server has it until it is closed. -/
structure Closes (b : ServerView) (listening : Option Int) : Prop where
  idle : b.history.activations = 0 → listening = none ∧ b.history.closed = []
  running : b.history.activations ≠ 0 → ∃ fd, listening = some fd ∧
    ((b.server.server_socket = fd ∧ b.history.closed = []) ∨ b.history.closed = [fd])

theorem Fresh.closes (h : b.Fresh) : b.Closes none := by
  refine ⟨fun _ => ⟨rfl, ?_⟩, fun hrunning => ?_⟩
  · rw [h.history]
  · rw [h.history] at hrunning
    exact absurd rfl hrunning

/-- Every move but a call of `run` keeps this, if it is no second shutdown. -/
theorem Closes.move {listening : Option Int} (hcloses : b.Closes listening) (hmove : b.Move a b')
    (hallowed : b.stops_once a) (hrun : ∀ sqe, a ≠ .run sqe) : b'.Closes listening := by
  obtain ⟨hidle, hrunning⟩ := hcloses
  have hactivations := hmove.activations hrun
  rcases hmove.descriptor with ⟨hclosed, _, hkept⟩ | ⟨⟨r, rfl⟩, _, hclosed⟩
  · refine ⟨?_, ?_⟩
    · rw [hactivations, hclosed]
      exact hidle
    · rw [hactivations, hclosed, hkept hrun]
      exact hrunning
  · obtain ⟨_, hstarted, hfirst⟩ := hallowed
    obtain ⟨fd, hlistening, hcase⟩ := hrunning hstarted
    refine ⟨fun hzero => absurd (hactivations ▸ hzero) hstarted, fun _ => ⟨fd, hlistening, .inr ?_⟩⟩
    rcases hcase with ⟨hsocket, _⟩ | hclosed'
    · rw [hclosed, hfirst, hsocket]
      rfl
    · rw [hfirst] at hclosed'
      cases hclosed'

end ServerView

namespace World

variable {p : Platform} {i : ObjectId} {w w' : World} {server : TcpServer}

/-- The descriptor with which `run` has returned true. -/
def listening (i : ObjectId) (w : World) (e : Event) (_ : World) (note : Option Int) : Option Int :=
  match e with
  | .run j fd bind listen errno sqe =>
    if j = i ∧ (w.servers i).any (fun s => (TcpServer.run w i s fd bind listen errno sqe).1) = true then
      some fd
    else note
  | _ => note

/-- The shutdown completions of the server have closed the listening descriptor
    once at most, and no other. -/
def ClosesOwn (w : World) (i : ObjectId) (listening : Option Int) : Prop :=
  (w.history i).closed.length ≤ 1 ∧ ∀ fd ∈ (w.history i).closed, listening = some fd

theorem record_closed (w : World) (j : ObjectId) {f : History → History}
    (hsame : ∀ h, (f h).closed = h.closed ∧ (f h).activations = h.activations) (i : ObjectId) :
    ((w.record j f).history i).closed = (w.history i).closed ∧
      ((w.record j f).history i).activations = (w.history i).activations := by
  by_cases hij : i = j
  · subst i
    rw [record_history, Function.update_self]
    exact hsame _
  · rw [record_history, Function.update_of_ne hij]
    exact ⟨rfl, rfl⟩

theorem io_error_closed (w : World) (j : ObjectId) (code : Int) (i : ObjectId) :
    ((w.io_error j code).history i).closed = (w.history i).closed ∧
      ((w.io_error j code).history i).activations = (w.history i).activations := by
  rw [io_error]
  split
  · refine w.record_closed j ?_ i
    exact fun _ => ⟨rfl, rfl⟩
  · exact ⟨rfl, rfl⟩

theorem submit_context_closed (w : World) (fill : IoContext → IoContext) (sqe : Bool) (i : ObjectId) :
    ((IoService.submit_context w fill sqe).history i).closed = (w.history i).closed ∧
      ((IoService.submit_context w fill sqe).history i).activations = (w.history i).activations := by
  unfold IoService.submit_context
  rw [IoService.take_context_eq]
  dsimp only
  generalize hw₁ : ({ w with
    contexts := Function.update w.contexts (IoService.next_context w).1
      (fill (IoService.next_context w).2)
    pool := w.pool.tail
    allocated := if w.pool = [] then w.allocated + 1 else w.allocated } : World) = w₁
  have hhistory : w₁.history = w.history := by rw [← hw₁]
  rw [← hhistory, IoService.submit]
  cases (w₁.contexts (IoService.next_context w).1).handler with
  | none => exact ⟨rfl, rfl⟩
  | some j =>
    cases sqe with
    | true =>
      dsimp only
      rw [if_pos rfl]
      refine record_closed _ j ?_ i
      exact fun _ => ⟨rfl, rfl⟩
    | false => exact io_error_closed _ j IoService.EIO i

/-- What a call of `run` does to the server. -/
theorem run_listens (w : World) (i : ObjectId) (server : TcpServer) (fd : Int) (bind listen : Bool)
    (errno : Int) (sqe : Bool) {returned : Bool}
    (hrun : TcpServer.run w i server fd bind listen errno sqe = (returned, w')) :
    w'.servers i = some { server with server_socket := fd } ∧
      (w'.history i).closed = (w.history i).closed ∧
      (w'.history i).activations = (w.history i).activations + if returned then 1 else 0 := by
  have hself : (w.set_server i { server with server_socket := fd }).servers i =
      some { server with server_socket := fd } := w.set_server_self i _
  -- a call that fails has set the descriptor and reported the error
  have hfailed : ∀ w₁ : World, w₁.servers i = some { server with server_socket := fd } →
      w₁.history = w.history → (returned, w') = (false, w₁.io_error i errno) →
      w'.servers i = some { server with server_socket := fd } ∧
        (w'.history i).closed = (w.history i).closed ∧
        (w'.history i).activations = (w.history i).activations + if returned then 1 else 0 := by
    rintro w₁ hserver hhistory heq
    cases heq
    obtain ⟨hclosed, hactivations⟩ := w₁.io_error_closed i errno i
    have hservers : (w₁.io_error i errno).servers = w₁.servers := by
      rw [io_error]
      split <;> rfl
    rw [hservers, hclosed, hactivations, hhistory]
    exact ⟨hserver, rfl, rfl⟩
  rw [TcpServer.run] at hrun
  dsimp only at hrun
  split at hrun
  · exact hfailed _ hself rfl hrun.symm
  · split at hrun
    · exact hfailed ((w.set_server i _).open_descriptor fd i) hself rfl hrun.symm
    · split at hrun
      · exact hfailed ((w.set_server i _).open_descriptor fd i) hself rfl hrun.symm
      · cases hrun
        obtain ⟨hclosed, hactivations⟩ := submit_context_closed
          (((w.set_server i { server with server_socket := fd }).open_descriptor fd i).record i fun h =>
            { h with activations := h.activations + 1 })
          (fun ctx => { ctx with handler := some i, type := .accept }) sqe i
        have hsubmitted := IoService.submit_context_submitted
          (((w.set_server i { server with server_socket := fd }).open_descriptor fd i).record i fun h =>
            { h with activations := h.activations + 1 })
          (fun ctx => { ctx with handler := some i, type := .accept }) sqe
        rw [record_history, Function.update_self] at hclosed hactivations
        exact ⟨(congrFun hsubmitted.servers i).trans hself, hclosed, hactivations⟩

theorem listening_same {e : Event} {note : Option Int} (hrun : ∀ sqe, w.server_action i e ≠ .run sqe) :
    listening i w e w' note = note := by
  cases e with
  | run j fd bind listen errno sqe =>
    by_cases hij : j = i
    · exact absurd (if_pos hij) (hrun sqe)
    · simp [listening, hij]
  | _ => rfl

/-- Only a call of `run` on the server itself is one. -/
theorem server_action_run {e : Event} {sqe : Bool} (haction : w.server_action i e = .run sqe) :
    ∃ fd bind listen errno, e = .run i fd bind listen errno sqe := by
  cases e with
  | run j fd bind listen errno sqe' =>
    by_cases hij : j = i
    · subst j
      rw [server_action, if_pos rfl] at haction
      cases haction
      exact ⟨fd, bind, listen, errno, rfl⟩
    · rw [server_action, if_neg hij] at haction
      cases haction
  | _ =>
    simp only [server_action] at haction
    repeat' split at haction
    all_goals cases haction

/-- What a step that meets the condition makes of the listening descriptor. -/
theorem Wf.closes_step (hwf : w.Wf) (hserver : w.servers i = some server) {note : Option Int}
    (hcloses : (w.server_view_with i server).Closes note) {e : Event}
    (hallowed : (w.server_view_with i server).stops_once (w.server_action i e))
    (hstep : w.step p e = some w') : ∃ server', w'.servers i = some server' ∧
      (w'.server_view_with i server').Closes (listening i w e w' note) := by
  by_cases hrun : ∃ sqe, w.server_action i e = .run sqe
  · obtain ⟨sqe, haction⟩ := hrun
    obtain ⟨fd, bind, listen, errno, rfl⟩ := server_action_run haction
    rw [haction] at hallowed
    obtain ⟨rfl, hclosed⟩ := hcloses.idle hallowed.1
    obtain ⟨s, hs, hrun⟩ := Option.bind_eq_some_iff.mp hstep
    rw [hserver] at hs
    cases hs
    have hw' : w' = (TcpServer.run w i server fd bind listen errno sqe).2 := by
      split at hrun
      · exact (Option.some.inj hrun).symm
      · cases hrun
    generalize hresult : TcpServer.run w i server fd bind listen errno sqe = result at hw'
    obtain ⟨returned, w₁⟩ := result
    obtain rfl : w' = w₁ := hw'
    obtain ⟨hserver', hclosed', hactivations⟩ := run_listens w i server fd bind listen errno sqe hresult
    have hzero : (w.history i).activations = 0 := hallowed.1
    rw [hzero, Nat.zero_add] at hactivations
    have hnone : (w'.history i).closed = [] := hclosed'.trans hclosed
    refine ⟨_, hserver', ?_⟩
    cases returned with
    | true =>
      have hnote : listening i w (.run i fd bind listen errno sqe) w' none = some fd := by
        simp [listening, hserver, hresult]
      rw [hnote]
      refine ⟨fun h => ?_, fun _ => ⟨fd, rfl, .inl ⟨rfl, hnone⟩⟩⟩
      have hone : (w'.history i).activations = 1 := hactivations
      exact absurd (hone.symm.trans h) Nat.one_ne_zero
    | false =>
      have hnote : listening i w (.run i fd bind listen errno sqe) w' none = none := by
        simp [listening, hserver, hresult]
      rw [hnote]
      exact ⟨fun _ => ⟨rfl, hnone⟩, fun h => absurd hactivations h⟩
  · have hrun : ∀ sqe, w.server_action i e ≠ .run sqe := fun sqe h => hrun ⟨sqe, h⟩
    obtain ⟨b', hb', hmove⟩ := ((hwf.step_does hstep).serves i).move _ (server_view_eq hserver)
    obtain ⟨server', hserver', rfl⟩ := Option.map_eq_some_iff.mp hb'
    rw [listening_same hrun]
    exact ⟨server', hserver', hcloses.move hmove hallowed hrun⟩

theorem closes_of_reachable {x : World × Option Int}
    (hreach : ((machine p).observe none (listening i)).Reachable
      (fun x e => server_permits i ServerView.stops_once x.1 e) x) :
    x.1.Wf ∧ (∀ server, x.1.servers i = some server → (x.1.server_view_with i server).Closes x.2) ∧
      (x.1.servers i = none → x.2 = none) := by
  refine Machine.Run.invariant (P := fun x => x.1.Wf ∧
    (∀ server, x.1.servers i = some server → (x.1.server_view_with i server).Closes x.2) ∧
      (x.1.servers i = none → x.2 = none)) hreach ?_ ?_
  · exact ⟨Wf.start p, fun server h => (by cases h), fun _ => rfl⟩
  · rintro ⟨w, note⟩ e ⟨w', note'⟩ _ ⟨hwf, hcloses, hnone⟩ hallowed hstep
    obtain ⟨hmoves, hnote⟩ := Machine.observe_step hstep
    obtain rfl : note' = listening i w e w' note := hnote
    dsimp only at hwf hcloses hnone hallowed hmoves ⊢
    clear hstep
    have hstep : w.step p e = some w' := hmoves
    refine ⟨hwf.step hstep, ?_⟩
    cases hserver : w.servers i with
    | some server =>
      obtain ⟨server', hserver', hcloses'⟩ := hwf.closes_step hserver (hcloses server hserver)
        (hallowed _ (server_view_eq hserver)) hstep
      rw [hserver']
      exact ⟨fun s hs => (by cases hs; exact hcloses'), fun h => (by cases h)⟩
    | none =>
      have hsame : listening i w e w' note = none := by
        rw [hnone hserver]
        cases e <;> simp [listening, hserver]
      rw [hsame]
      refine ⟨fun server' hserver' => ?_, fun _ => rfl⟩
      have hview : w.server_view i = none := by rw [server_view, hserver]; rfl
      exact (((hwf.step_does hstep).serves i).fresh _ hview (server_view_eq hserver')).closes

end World

variable {p : Platform} {i : ObjectId} {w w' : World} {server : TcpServer}

/-- As long as one shutdown completion of a server arrives at most, and not
    before `run` has returned true, its descriptor is closed once at most, and no
    other is; and the first one that is not of this kind closes another. -/
theorem server_closes_own_iff {note : Option Int}
    (hreach : ((machine p).observe none (listening i)).Reachable
      (fun x e => server_permits i ServerView.stops_once x.1 e) (w, note))
    (hserver : w.servers i = some server) :
    w.ClosesOwn i note ∧ ∀ e w', server_permits i ServerView.runs_once w e →
      (machine p).step w e = some w' →
        (w'.ClosesOwn i (listening i w e w' note) ↔ server_permits i ServerView.stops_once w e) := by
  obtain ⟨hwf, hcloses, _⟩ := closes_of_reachable hreach
  dsimp only at hwf hcloses
  have howns : ∀ (w : World) (server : TcpServer) (note : Option Int),
      (w.server_view_with i server).Closes note → w.ClosesOwn i note := by
    intro w server note hcloses
    by_cases hzero : (w.history i).activations = 0
    · have hnone : (w.history i).closed = [] := (hcloses.idle hzero).2
      simp [ClosesOwn, hnone]
    · obtain ⟨fd, rfl, ⟨_, hnone⟩ | hone⟩ := hcloses.running hzero
      · have hnone : (w.history i).closed = [] := hnone
        simp [ClosesOwn, hnone]
      · have hone : (w.history i).closed = [fd] := hone
        simp [ClosesOwn, hone]
  have hhere := hcloses server hserver
  refine ⟨howns w server note hhere, fun e w' honce hstep => ⟨fun hown => ?_, fun hallowed => ?_⟩⟩
  · intro b hb
    rw [server_view_eq hserver] at hb
    cases hb
    refine ⟨honce _ (server_view_eq hserver), ?_⟩
    cases haction : w.server_action i e with
    | shut_down r =>
      have hrun : ∀ sqe, w.server_action i e ≠ .run sqe := by simp [haction]
      obtain ⟨b', hb', hmove⟩ := ((hwf.step_does hstep).serves i).move _ (server_view_eq hserver)
      obtain ⟨server', _, rfl⟩ := Option.map_eq_some_iff.mp hb'
      rcases hmove.descriptor with ⟨_, hother, _⟩ | ⟨_, _, hclosed⟩
      · exact absurd haction (hother r)
      · have hclosed : (w'.history i).closed = (w.history i).closed ++ [server.server_socket] := hclosed
        obtain ⟨hlength, hmember⟩ := hown
        rw [listening_same hrun] at hmember
        rw [hclosed, List.length_append, List.length_singleton] at hlength
        have hfirst : (w.history i).closed = [] := List.length_eq_zero_iff.mp (by omega)
        refine ⟨fun hzero => ?_, hfirst⟩
        have hnote := hmember server.server_socket (by simp [hclosed])
        rw [(hhere.idle hzero).1] at hnote
        cases hnote
    | _ => trivial
  · obtain ⟨server', _, hcloses'⟩ := hwf.closes_step hserver hhere
      (hallowed _ (server_view_eq hserver)) hstep
    exact howns w' server' _ hcloses'

/-- A server that is stopped while a socket it has accepted is being handled. -/
def stopped : List Event := [
  .create_server,
  .run 1 7 true true 0 true,
  .stop 1 true,
  .complete 0 { res := 8 } true,
  .complete 1 { res := 0 } true,
  .finish 1]

theorem server_closes_own_stopped : ∃ (w : World) (note : Option Int),
    ((machine .small).observe none (listening 1)).Reachable
      (fun x e => server_permits 1 ServerView.stops_once x.1 e) (w, note) ∧
    note = some 7 ∧ (w.history 1).closed = [7] ∧ w.ClosesOwn 1 note := by
  obtain ⟨⟨w, note⟩, hreach, hw⟩ := Machine.reachable_of_exec
    ((machine .small).observe none (listening 1))
    (fun x e => server_permits 1 ServerView.stops_once x.1 e) stopped
    (fun x => (x.1.servers 1).isSome && x.2 == some 7 && (x.1.history 1).closed == [7])
    (by decide +kernel)
  simp only [Bool.and_eq_true, beq_iff_eq, Option.isSome_iff_exists] at hw
  obtain ⟨⟨⟨server, hserver⟩, hnote⟩, hclosed⟩ := hw
  exact ⟨w, note, hreach, hnote, hclosed, (server_closes_own_iff hreach hserver).1⟩

/-- A server that is stopped twice. -/
def stopped_twice : List Event := [
  .create_server,
  .run 1 7 true true 0 true,
  .stop 1 true,
  .stop 1 true,
  .complete 1 { res := 0 } true,
  .finish 1,
  .complete 2 { res := 0 } true]

theorem second_stop_closes_stdin : ¬ ∀ (w : World) (note : Option Int),
    ((machine .small).observe none (listening 1)).Reachable
      (fun x e => server_permits 1 ServerView.runs_once x.1 e) (w, note) → w.ClosesOwn 1 note := by
  intro hall
  obtain ⟨⟨w, note⟩, hreach, hw⟩ := Machine.reachable_of_exec
    ((machine .small).observe none (listening 1))
    (fun x e => server_permits 1 ServerView.runs_once x.1 e) stopped_twice
    (fun x => (x.1.history 1).closed == [7, 0]) (by decide +kernel)
  have hclosed := (hall w note hreach).1
  rw [beq_iff_eq.mp hw] at hclosed
  exact absurd hclosed (by decide)

end rioring
