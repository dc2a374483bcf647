import Rioring.View.Complete
import Rioring.View.Requests

namespace rioring

namespace World

variable {p : Platform} {i : ObjectId} {ok : View → Action → Prop} {P : View → Prop}

/-- A property of new sockets that the permitted moves keep holds of the socket
    in every reachable process. -/
theorem reachable_view (hfresh : ∀ v, v.Fresh → P v)
    (hkeep : ∀ v a v', P v → ok v a → v.Move p a v' → P v') {w : World}
    (hreach : (machine p).Reachable (permits i ok) w) {v : View} (hv : w.view i = some v) : P v := by
  refine Machine.Reachable.component (·.view i) (fun w e => w.action i e) (View.Move p) View.Fresh
    Wf (fun w hw => Wf.reachable hw) rfl ?_ P hfresh ?_ hreach hv
  · intro w e w' v' hwf hstep hv'
    have hmoves := (hwf.step_does hstep).moves i
    cases hview : w.view i with
    | none => exact .inl (hmoves.fresh v' hview hv')
    | some v =>
      obtain ⟨v'', hv'', hmove⟩ := hmoves.move v hview
      rw [hv'] at hv''
      cases hv''
      exact .inr ⟨v, rfl, hmove⟩
  · intro w e v v' _ hv hallowed hP hmove
    exact hkeep v _ v' hP (hallowed v hv) hmove

/-- The same from a process in which the socket exists: it stays, and so does
    the property. -/
theorem run_view (hkeep : ∀ v a v', P v → ok v a → v.Move p a v' → P v') {w₀ w : World}
    (hwf : w₀.Wf) (hrun : (machine p).Run (permits i ok) w₀ w) {v₀ : View}
    (hv₀ : w₀.view i = some v₀) (hP : P v₀) : ∃ v, w.view i = some v ∧ P v := by
  have hboth : w.Wf ∧ ∃ v, w.view i = some v ∧ P v := by
    refine Machine.Run.invariant (P := fun w => w.Wf ∧ ∃ v, w.view i = some v ∧ P v) hrun
      ⟨hwf, v₀, hv₀, hP⟩ ?_
    rintro w e w' _ ⟨hwf, v, hv, hP⟩ hallowed hstep
    obtain ⟨v', hv', hmove⟩ := ((hwf.step_does hstep).moves i).move v hv
    exact ⟨hwf.step hstep, v', hv', hkeep v _ v' hP (hallowed v hv) hmove⟩
  exact hboth.2

/-- A run without a condition permits everything of each socket. -/
theorem permitted {w₀ w : World} (hrun : (machine p).Run Machine.Any w₀ w) :
    (machine p).Run (permits i fun _ _ => True) w₀ w :=
  hrun.mono fun _ _ _ _ _ => trivial

/-- What an observer of socket `i` notes: `update` at every move of it, and
    `note` as long as there is no such socket. -/
def watch {B : Type} (i : ObjectId) (note : B) (update : View → Action → View → B → B)
    (w : World) (e : Event) (w' : World) (b : B) : B :=
  match w.view i, w'.view i with
  | some v, some v' => update v (w.action i e) v' b
  | _, _ => note

/-- A property of a socket and of what was noted about it. -/
theorem reachable_watched {B : Type} {note : B} {update : View → Action → View → B → B}
    {P : View → B → Prop} (hfresh : ∀ v, v.Fresh → P v note)
    (hkeep : ∀ v a v' b, P v b → ok v a → v.Move p a v' → P v' (update v a v' b)) {x : World × B}
    (hreach : ((machine p).observe note (watch i note update)).Reachable
      (fun x e => permits i ok x.1 e) x) {v : View} (hv : x.1.view i = some v) : P v x.2 := by
  have hall : ∀ v, x.1.view i = some v → P v x.2 := by
    refine Machine.Reachable.observe_invariant (P := fun w b => ∀ v, w.view i = some v → P v b) hreach
      (fun v hv => by cases hv) ?_
    intro w b e w' hreached hP hallowed hstep v' hv'
    have hmoves := ((Wf.reachable hreached).step_does hstep).moves i
    rw [watch, hv']
    cases hview : w.view i with
    | none => exact hfresh v' (hmoves.fresh v' hview hv')
    | some v =>
      obtain ⟨v'', hv'', hmove⟩ := hmoves.move v hview
      rw [hv'] at hv''
      cases hv''
      exact hkeep v _ v' b (hP v hview) (hallowed v hview) hmove
  exact hall v hv

/-- A property of new servers that the permitted moves keep holds of the server
    in every reachable process. -/
theorem reachable_server_view {ok : ServerView → ServerAction → Prop} {P : ServerView → Prop}
    (hfresh : ∀ b, b.Fresh → P b) (hkeep : ∀ b a b', P b → ok b a → b.Move a b' → P b') {w : World}
    (hreach : (machine p).Reachable (server_permits i ok) w) {b : ServerView}
    (hb : w.server_view i = some b) : P b := by
  refine Machine.Reachable.component (·.server_view i) (fun w e => w.server_action i e)
    ServerView.Move ServerView.Fresh Wf (fun w hw => Wf.reachable hw) rfl ?_ P hfresh ?_ hreach hb
  · intro w e w' b' hwf hstep hb'
    have hserves := (hwf.step_does hstep).serves i
    cases hview : w.server_view i with
    | none => exact .inl (hserves.fresh b' hview hb')
    | some b =>
      obtain ⟨b'', hb'', hmove⟩ := hserves.move b hview
      rw [hb'] at hb''
      cases hb''
      exact .inr ⟨b, rfl, hmove⟩
  · intro w e b b' _ hb hallowed hP hmove
    exact hkeep b _ b' hP (hallowed b hb) hmove

/-- The requests that a step has submitted for an object. -/
def submitted_since (w w' : World) (i : ObjectId) : List Request :=
  (w'.history i).submitted.drop (w.history i).submitted.length

/-- What a step submits for a socket is of the kind that its action submits, and
    names the descriptor the socket has afterwards. -/
theorem Wf.submitted_since {w w' : World} {s : SocketObject} (hwf : w.Wf)
    (hs : w.sockets i = some s) {e : Event} (hstep : (machine p).step w e = some w') {r : Request} (hr : r ∈ w.submitted_since w' i) :
    ∃ s', w'.sockets i = some s' ∧
      (w.view_with i s).Move p (w.action i e) (w'.view_with i s') ∧
      (w.view_with i s).submits (w.action i e) = some r.context.type ∧
      r.context.handler = some i ∧ r.fd = s'.socket_handler := by
  obtain ⟨v', hv', hmove⟩ := ((hwf.step_does hstep).moves i).move _ (view_eq hs)
  obtain ⟨s', hs', rfl⟩ := Option.map_eq_some_iff.mp hv'
  refine ⟨s', hs', hmove, ?_⟩
  obtain ⟨rest, _, hadds⟩ := hmove.adds
  rcases hadds with ⟨_, hsubmitted⟩ | ⟨r', htype, hhandler, hfd, _, hsubmitted⟩
  · have hsame : (w'.history i).submitted = (w.history i).submitted := hsubmitted
    rw [World.submitted_since, hsame, List.drop_length] at hr
    cases hr
  · have happend : (w'.history i).submitted = (w.history i).submitted ++ [r'] := hsubmitted
    rw [World.submitted_since, happend, List.drop_left, List.mem_singleton] at hr
    subst r
    exact ⟨htype, hhandler, hfd⟩

end World

end rioring
