import Rioring.Tcp.Receiving
import Rioring.View.Threads

/-! The sockets that a server accepts: `io_accepting` makes each of them active, once. -/

namespace rioring

/-- The event is a call that may make socket `j` active. -/
def Event.activates (j : ObjectId) : Event → Bool
  | .connect i _ _ | .activate i _ _ _ | .run_udp i _ _ _ _ => i == j
  | _ => false

/-- Only `on_active` is counted as an activation. -/
theorem Inbound.Move.activations {p : Platform} {n n' : Inbound} {a : Action}
    (hmove : Inbound.Move p n a n') : n'.activations = n.activations ∨
      (∃ sqe, a = .start sqe) ∧ n'.activations = n.activations + 1 := by
  cases hmove with
  | same => exact .inl rfl
  | start hassign hreceive =>
    obtain ⟨_, _, _, _, hactivations, _⟩ := hreceive.spec
    exact .inr ⟨⟨_, rfl⟩, hactivations⟩
  | received hcomplete hdata hlength hpush hreceive =>
    obtain ⟨_, _, _, _, hactivations, _⟩ := hreceive.spec
    obtain ⟨front, back, _, rfl⟩ := hcomplete
    exact .inl hactivations
  | receive_ended hcomplete =>
    obtain ⟨front, back, _, rfl⟩ := hcomplete
    exact .inl rfl
  | pop size => exact .inl rfl

namespace World

variable {p : Platform} {w w' : World} {j : ObjectId} {s : SocketObject} {e : Event}

/-- The accept callbacks that are given socket `j` and have not returned. -/
def greeting (w : World) (j : ObjectId) : List Handling :=
  w.handling.filter fun h => h.accepting.map (·.2) = some j

/-- A socket gets an accept callback when it is made, and has one less when it is
    made active behind it. -/
theorem Threads.greeting (h : Threads w e w') (j : ObjectId) :
    w'.greeting j = w.greeting j ∧ (∀ c a b, e = .resume c a b → w.action j e = .idle) ∨
      (j = w.objects ∧ (w'.greeting j).length ≤ (w.greeting j).length + 1) ∨
      (w'.greeting j).length + 1 = (w.greeting j).length := by
  unfold World.greeting
  cases h with
  | quiet hresume hhandling => exact .inl ⟨by rw [hhandling], fun c a b heq => absurd heq (hresume c a b)⟩
  | send _ _ _ hhandling => exact .inl ⟨by rw [hhandling], by simp⟩
  | send_locked hhandling => exact .inl ⟨by rw [hhandling], by simp⟩
  | complete accepting hnew hhandling =>
    rw [hhandling, List.filter_append]
    by_cases hj : accepting.map (·.2) = some j
    · obtain ⟨⟨i, j'⟩, rfl, rfl⟩ := Option.map_eq_some_iff.mp hj
      refine .inr (.inl ⟨(hnew i j' rfl).1, ?_⟩)
      simp
    · exact .inl ⟨by simp [hj], by simp⟩
  | resume front back i j' hfind hbefore hhandling =>
    rw [hhandling, hbefore, List.filter_append, List.filter_append]
    by_cases hj : j' = j
    · subst j'
      right
      right
      simp
      omega
    · refine .inl ⟨by simp [hj], ?_⟩
      rintro c a b heq
      cases heq
      simp [action, hfind, hj]
  | finish hhandling =>
    rw [hhandling, ← List.erase_filter]
    exact .inl ⟨List.erase_of_not_mem (by simp), by simp⟩

/-- Only a call on the socket itself, or an accept callback that returns, makes it
    active. -/
theorem action_start {sqe : Bool} (haction : w.action j e = .start sqe) :
    e.activates j = true ∨ ∃ c a, e = .resume c a sqe := by
  cases e with
  | resume c a b =>
    simp only [action] at haction
    split at haction
    · split at haction
      · cases haction
        exact .inr ⟨c, a, rfl⟩
      · cases haction
    · cases haction
  | connect i addresses b =>
    simp only [action] at haction
    split at haction
    · rename_i hi
      exact .inl (by simp [Event.activates, hi.1])
    · cases haction
  | activate i fd bind b | run_udp i fd bind errno b =>
    simp only [action] at haction
    split at haction
    · rename_i hi
      exact .inl (by simp [Event.activates, hi])
    · cases haction
  | _ =>
    simp only [action] at haction
    repeat' split at haction
    all_goals cases haction

/-- The accept callback behind which a socket is made active. -/
theorem resume_greeting {c : ContextId} {a sqe : Bool}
    (haction : w.action j (.resume c a sqe) = .start sqe) :
    { context := c, accepting := ((w.handling.find? (·.context = c)).bind (·.accepting)) } ∈
      w.greeting j := by
  simp only [action] at haction
  cases hfind : w.handling.find? (·.context = c) with
  | none =>
    rw [hfind] at haction
    cases haction
  | some h =>
    obtain ⟨context, accepting⟩ := h
    obtain rfl : context = c := by simpa using List.find?_some hfind
    rw [hfind, Option.bind_some] at haction
    cases accepting with
    | none => cases haction
    | some objects =>
      obtain ⟨i, j'⟩ := objects
      by_cases hj : j' = j
      · subst j'
        exact List.mem_filter.mpr ⟨List.mem_of_find?_eq_some hfind, by simp⟩
      · simp [hj] at haction

/-- A socket of a callback that has not returned exists. -/
theorem Wf.greeting_socket (hwf : w.Wf) (hs : w.sockets j = none) : w.greeting j = [] := by
  rw [World.greeting, List.filter_eq_nil_iff]
  intro h hh haccepting
  obtain ⟨⟨i, j'⟩, hsome, rfl⟩ := Option.map_eq_some_iff.mp (of_decide_eq_true haccepting)
  obtain ⟨_, t, ht, _⟩ := hwf.accepting h hh i j' hsome
  rw [hs] at ht
  cases ht

/-- A socket that is not made active by a call is so at most once, counting the accept
    callback behind which it will be. -/
theorem greeted_once (hreach : (machine p).Reachable (fun _ e => e.activates j = false) w)
    (hs : w.sockets j = some s) : (w.history j).activations + (w.greeting j).length ≤ 1 := by
  have hall : w.Wf ∧ ∀ s, w.sockets j = some s →
      (w.history j).activations + (w.greeting j).length ≤ 1 := by
    refine Machine.Run.invariant (P := fun w => w.Wf ∧ ∀ s, w.sockets j = some s →
      (w.history j).activations + (w.greeting j).length ≤ 1) hreach
      ⟨Wf.start p, fun s hs => by cases hs⟩ ?_
    rintro w e w' _ ⟨hwf, hbefore⟩ hcalls hstep
    refine ⟨Wf.step (p := p) (e := e) hwf hstep, fun s' hs' => ?_⟩
    have hthreads := (hwf.step_threads hstep).greeting j
    have hmoves := (hwf.step_does hstep).moves j
    cases hs : w.sockets j with
    | none =>
      have hempty := hwf.greeting_socket hs
      have hfresh := hmoves.fresh _ (view_eq_none hs) (view_eq hs')
      have hhistory : w'.history j = {} := hfresh.history
      rw [hempty, List.length_nil] at hthreads
      have hlength : (w'.greeting j).length ≤ 1 := by
        rcases hthreads with ⟨hsame, _⟩ | ⟨_, hlength⟩ | hlength
        · rw [hsame]
          exact Nat.zero_le _
        · exact hlength
        · omega
      rw [hhistory]
      simpa using hlength
    | some s =>
      have hle := hbefore s hs
      obtain ⟨v', hv', hmove⟩ := hmoves.move _ (view_eq hs)
      rw [view_eq hs'] at hv'
      cases hv'
      have hadded : (w'.history j).activations = (w.history j).activations ∨
          (∃ sqe, w.action j e = .start sqe) ∧
            (w'.history j).activations = (w.history j).activations + 1 := hmove.inbound.activations
      rcases hthreads with ⟨hsame, hidle⟩ | ⟨hnew, _⟩ | hless
      · rcases hadded with hkept | ⟨⟨sqe, haction⟩, _⟩
        · rw [hkept, hsame]
          exact hle
        · rcases action_start haction with hcall | ⟨c, a, rfl⟩
          · rw [hcalls] at hcall
            cases hcall
          · rw [hidle c a sqe rfl] at haction
            cases haction
      · exact absurd hnew (hwf.socket_lt hs).ne
      · omega
  exact hall.2 s hs

/-- A step that is not such a call makes no socket active a second time. -/
theorem permits_accepted (hreach : (machine p).Reachable (fun _ e => e.activates j = false) w)
    (hcalls : e.activates j = false) (hstep : (machine p).step w e = some w') :
    permits j View.connected_once w e := by
  intro v hv
  obtain ⟨s, hs, rfl⟩ := Option.map_eq_some_iff.mp hv
  have hle := greeted_once hreach hs
  cases haction : w.action j e with
  | start sqe =>
    rcases action_start haction with hcall | ⟨c, a, rfl⟩
    · rw [hcalls] at hcall
      cases hcall
    · -- the callback that returns is one of those that were counted
      have hpos := List.length_pos_of_mem (resume_greeting haction)
      change (w.history j).activations = 0
      omega
  | _ => trivial

end World

end rioring
