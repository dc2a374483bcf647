import Rioring.Ownership.Exclusive

/-! The threads of an `io_service`: one ring each, until `io_service::stop`. -/

namespace rioring

/-- An `io_service` with its process. `ring` is the ring each context was last
    submitted to, and `exited` are the rings whose `io` has left its loop.
    `awaited`, which no function reads, are the contexts of the shutdown requests
    that `io_service::stop` found submitted and whose handlers have not returned. -/
structure Service where
  world : World
  ring : ContextId → Nat := fun _ => 0
  stopping : Bool := false
  exited : List Nat := []
  awaited : List ContextId := []

/-- What can happen next. `process` is a step of the process, and `ring` the one
    its submissions go to: that of the thread for a completion or a callback, any
    one of `io_array` for the other threads. `cancelled` is the completion with
    `user_data` 0 that `io_service::stop` has posted to a ring. -/
inductive ServiceEvent where
  | process (e : Event) (ring : Nat)
  | stop
  | cancelled (ring : Nat)

namespace World

/-- The contexts of the shutdown requests in flight or being handled. -/
def shutdowns (w : World) : List ContextId :=
  w.custody.out.filter (fun c => (w.contexts c).type = .shutdown) ++
    w.custody.used.filter fun c => (w.contexts c).type = .shutdown

/-- The contexts that a step from `w` has submitted. -/
def submitted_contexts (w w' : World) : List ContextId :=
  w'.custody.out.filter fun c => c ∉ w.custody.out

end World

namespace Service

/-- The thread of a ring is in the handler of a completion. -/
def busy (s : Service) (k : Nat) : Bool := s.world.custody.used.any fun c => s.ring c == k

/-- A thread takes up the completions of its own ring, one at a time. -/
def takes (s : Service) (k : Nat) : Event → Bool
  | .complete c _ _ => s.ring c == k && !s.exited.contains k && !s.busy k
  | .resume c _ _ | .finish c => s.ring c == k
  | _ => true

/-- A submission goes to the ring of its thread, or to one of `io_array`, which
    `io_service::stop` has emptied. -/
def submits_to (concurrency : Nat) (s : Service) (k : Nat) : Bool :=
  decide (k < concurrency) && (!s.stopping || s.busy k)

/-- `io_service::stop` up to `wait_for_terminate`. -/
def stop (s : Service) : Service :=
  { s with stopping := true, awaited := s.world.shutdowns }

/-- What is still awaited after a step: a handler that returns is not. -/
def still_awaited (s : Service) : Event → List ContextId
  | .finish c => s.awaited.filter (· ≠ c)
  | _ => s.awaited

/-- The service after a step of its process to `w` on ring `k`. -/
def processed (s : Service) (e : Event) (k : Nat) (w : World) : Service :=
  { s with
    world := w
    ring := fun c => if c ∈ s.world.submitted_contexts w then k else s.ring c
    awaited := s.still_awaited e }

def process (p : Platform) (concurrency : Nat) (s : Service) (e : Event) (k : Nat) :
    Option Service :=
  if s.takes k e then do
    let w ← s.world.step p e
    let t := s.processed e k w
    if s.world.submitted_contexts w = [] ∨ t.submits_to concurrency k then some t else none
  else none

/-- The completion with `user_data` 0: `io` leaves its loop and the thread ends. -/
def cancelled (concurrency : Nat) (s : Service) (k : Nat) : Option Service :=
  if s.stopping && (decide (k < concurrency) && (!s.exited.contains k && !s.busy k)) then
    some { s with exited := s.exited ++ [k] }
  else none

def step (p : Platform) (concurrency : Nat) (s : Service) : ServiceEvent → Option Service
  | .process e k => s.process p concurrency e k
  | .stop => if s.stopping then none else some s.stop
  | .cancelled k => s.cancelled concurrency k

/-- `wait_for_terminate` has returned. -/
def returned (concurrency : Nat) (s : Service) : Prop :=
  s.stopping = true ∧ ∀ k < concurrency, k ∈ s.exited

end Service

/-- A service whose `run( concurrency )` has returned. -/
def service (p : Platform) (concurrency : Nat) : Machine Service ServiceEvent where
  init := { world := World.start p }
  step := Service.step p concurrency

namespace Service

open World

variable {p : Platform} {concurrency : Nat} {s t : Service} {allowed : Service → ServiceEvent → Prop}

/-- The process of a service is one of those the process alone can reach, every
    context in flight or being handled has a ring, and a ring whose thread has
    ended handles nothing. -/
structure Sound (p : Platform) (concurrency : Nat) (s : Service) : Prop where
  running : s.stopping = false → s.exited = []
  reached : (machine p).Reachable Machine.Any s.world
  ring : ∀ c, c ∈ s.world.custody.out ∨ c ∈ s.world.custody.used → s.ring c < concurrency
  live : ∀ c ∈ s.world.custody.used, s.ring c ∉ s.exited

theorem Sound.start : Sound p concurrency { world := World.start p } := by
  refine ⟨fun _ => rfl, .refl, ?_, ?_⟩
  · rintro c (hc | hc) <;> cases hc
  · intro c hc
    cases hc

theorem process_spec {e : Event} {k : Nat} (hprocess : s.process p concurrency e k = some t) :
    s.takes k e = true ∧ (machine p).step s.world e = some t.world ∧
      t = s.processed e k t.world ∧
      (s.world.submitted_contexts t.world = [] ∨ t.submits_to concurrency k = true) := by
  unfold process at hprocess
  split at hprocess
  · rename_i htakes
    obtain ⟨w, hw, hprocess⟩ := Option.bind_eq_some_iff.mp hprocess
    dsimp only at hprocess
    split at hprocess
    · rename_i hring
      cases hprocess
      exact ⟨htakes, hw, rfl, hring⟩
    · cases hprocess
  · cases hprocess

/-- A context in flight after a step was in flight before it, on the same ring, or
    has been submitted to the ring of the step. -/
theorem out_ring {e : Event} {k : Nat}
    (hprocess : s.process p concurrency e k = some t) {c : ContextId}
    (hc : c ∈ t.world.custody.out) :
    (c ∈ s.world.custody.out ∧ t.ring c = s.ring c) ∨
      (t.ring c = k ∧ t.submits_to concurrency k = true) := by
  obtain ⟨_, _, ht, hring⟩ := process_spec hprocess
  have hrings : t.ring c = if c ∈ s.world.submitted_contexts t.world then k else s.ring c := by
    rw [ht]
    rfl
  by_cases hout : c ∈ s.world.custody.out
  · left
    rw [if_neg (by simp [submitted_contexts, hout])] at hrings
    exact ⟨hout, hrings⟩
  · right
    have hnew : c ∈ s.world.submitted_contexts t.world := by simp [submitted_contexts, hout, hc]
    rw [if_pos hnew] at hrings
    exact ⟨hrings, hring.resolve_left (List.ne_nil_of_mem hnew)⟩

/-- A context being handled after a step has kept its ring. -/
theorem Sound.used_ring (hs : s.Sound p concurrency) {e : Event} {k : Nat}
    (hprocess : s.process p concurrency e k = some t) {c : ContextId}
    (hc : c ∈ t.world.custody.used) : t.ring c = s.ring c ∧ (c ∈ s.world.custody.used ∨
      (c ∈ s.world.custody.out ∧ s.ring c ∉ s.exited)) := by
  obtain ⟨htakes, hstep, ht, _⟩ := process_spec hprocess
  have hwf := Wf.reachable hs.reached
  have hout : c ∉ t.world.custody.out := ((hwf.step hstep).sound.disjoint hc).2
  constructor
  · rw [ht]
    exact if_neg (by simpa [submitted_contexts] using fun h => absurd h hout)
  · by_cases hcomplete : ∃ cqe sqe, e = .complete c cqe sqe
    · obtain ⟨cqe, sqe, rfl⟩ := hcomplete
      right
      obtain ⟨hin, _⟩ := hwf.complete_passes (reachable_addressed hs.reached) hstep
      refine ⟨hin, ?_⟩
      simp only [takes, Bool.and_eq_true, beq_iff_eq, Bool.not_eq_true'] at htakes
      rw [htakes.1.1]
      simpa using htakes.1.2
    · left
      exact hwf.step_used (reachable_addressed hs.reached)
        (fun cqe sqe heq => hcomplete ⟨cqe, sqe, heq⟩) hstep hc

theorem Sound.step (hs : s.Sound p concurrency) {e : ServiceEvent}
    (hstep : (service p concurrency).step s e = some t) : t.Sound p concurrency := by
  cases e with
  | process e k =>
    obtain ⟨_, hworld, ht, _⟩ := process_spec hstep
    have hexited : t.exited = s.exited := by
      rw [ht]
      rfl
    have hstopping : t.stopping = s.stopping := by
      rw [ht]
      rfl
    refine ⟨?_, .step hs.reached trivial hworld, ?_, ?_⟩
    · rw [hstopping, hexited]
      exact hs.running
    · rintro c (hc | hc)
      · rcases out_ring hstep hc with ⟨hout, hsame⟩ | ⟨hk, hsubmits⟩
        · rw [hsame]
          exact hs.ring c (.inl hout)
        · simp only [submits_to, Bool.and_eq_true, decide_eq_true_eq] at hsubmits
          rw [hk]
          exact hsubmits.1
      · obtain ⟨hsame, hbefore⟩ := hs.used_ring hstep hc
        rw [hsame]
        exact hs.ring c (hbefore.symm.imp And.left id)
    · intro c hc
      obtain ⟨hsame, hbefore⟩ := hs.used_ring hstep hc
      rw [hsame, hexited]
      rcases hbefore with hused | ⟨_, hlive⟩
      · exact hs.live c hused
      · exact hlive
  | stop =>
    change (if s.stopping then none else some s.stop) = some t at hstep
    split at hstep
    · cases hstep
    · cases hstep
      exact ⟨fun h => absurd h (by simp [stop]), hs.reached, hs.ring, hs.live⟩
  | cancelled k =>
    change s.cancelled concurrency k = some t at hstep
    unfold cancelled at hstep
    split at hstep
    · rename_i hguard
      cases hstep
      simp only [Bool.and_eq_true, Bool.not_eq_true', busy, List.any_eq_false, beq_iff_eq] at hguard
      refine ⟨fun h => absurd (hguard.1.symm.trans h) (by simp), hs.reached, hs.ring,
        fun c hc hexited => ?_⟩
      rcases List.mem_append.mp hexited with hexited | hk
      · exact hs.live c hc hexited
      · exact hguard.2.2.2 c hc (List.mem_singleton.mp hk)
    · cases hstep

theorem Sound.reachable (hreach : (service p concurrency).Reachable allowed s) :
    s.Sound p concurrency :=
  hreach.invariant .start fun _ _ _ _ hs _ hstep => hs.step hstep

theorem Sound.along (hs : s.Sound p concurrency)
    (hrun : (service p concurrency).Run allowed s t) : t.Sound p concurrency :=
  hrun.invariant hs fun _ _ _ _ hs _ hstep => hs.step hstep

end Service

end rioring
