import Rioring.Descriptors
import Rioring.Service

/-! What `io_service::stop` leaves behind. -/

namespace rioring

open World

namespace ServiceEvent

/-- The event makes the socket or server `i` open a descriptor. -/
def reopens (i : ObjectId) : ServiceEvent → Bool
  | .process e _ => World.reopens i e
  | _ => false

end ServiceEvent

namespace Service

variable {p : Platform} {concurrency : Nat} {s₀ s₁ s t : Service} {c : ContextId}

/-- No ring is left while one of the shutdowns that `io_service::stop` found
    submitted is on it. -/
def orderly (s : Service) : ServiceEvent → Prop
  | .cancelled k => ∀ c ∈ s.awaited, s.ring c ≠ k
  | _ => True

instance : DecidableRel orderly := fun s e =>
  match e with
  | .cancelled k => inferInstanceAs (Decidable (∀ c ∈ s.awaited, s.ring c ≠ k))
  | .process .. | .stop => .isTrue trivial

theorem stop_spec (hstep : (service p concurrency).step s .stop = some t) :
    s.stopping = false ∧ t = s.stop := by
  change (if s.stopping then none else some s.stop) = some t at hstep
  split at hstep
  · cases hstep
  · rename_i hstopping
    cases hstep
    exact ⟨by simpa using hstopping, rfl⟩

theorem cancelled_spec {k : Nat} (hstep : (service p concurrency).step s (.cancelled k) = some t) :
    t = { s with exited := s.exited ++ [k] } ∧ s.stopping = true ∧ s.busy k = false := by
  change s.cancelled concurrency k = some t at hstep
  unfold cancelled at hstep
  split at hstep
  · rename_i hguard
    cases hstep
    simp only [Bool.and_eq_true, Bool.not_eq_true'] at hguard
    exact ⟨rfl, hguard.1, hguard.2.2.2⟩
  · cases hstep

theorem step_stopping (hstopping : s.stopping = true) {e : ServiceEvent}
    (hstep : (service p concurrency).step s e = some t) : t.stopping = true := by
  cases e with
  | process e k =>
    rw [(process_spec hstep).2.2.1]
    exact hstopping
  | stop =>
    rw [(stop_spec hstep).2]
    rfl
  | cancelled k =>
    rw [(cancelled_spec hstep).1]
    exact hstopping

theorem mem_shutdowns {w : World} : c ∈ w.shutdowns ↔
    (c ∈ w.custody.out ∨ c ∈ w.custody.used) ∧ (w.contexts c).type = .shutdown := by
  simp only [shutdowns, List.mem_append, List.mem_filter, decide_eq_true_eq]
  tauto

/-- A shutdown that is awaited is in flight or being handled, and its ring still
    runs. -/
structure Awaits (s : Service) (c : ContextId) : Prop where
  held : c ∈ s.world.custody.out ∨ c ∈ s.world.custody.used
  awaited : c ∈ s.awaited
  live : s.ring c ∉ s.exited

theorem mem_still_awaited (hc : c ∈ s.awaited) {e : Event} (hfinish : e ≠ .finish c) :
    c ∈ s.still_awaited e := by
  cases e with
  | finish d =>
    have hne : c ≠ d := by
      rintro rfl
      exact hfinish rfl
    simp [still_awaited, hc, hne]
  | _ => exact hc

theorem of_mem_still_awaited {e : Event} {k : Nat} (hc : c ∈ s.still_awaited e) :
    c ∈ s.awaited ∧ ∀ k', ServiceEvent.process e k ≠ .process (.finish c) k' := by
  cases e with
  | finish d =>
    simp only [still_awaited, List.mem_filter, decide_eq_true_eq] at hc
    refine ⟨hc.1, fun k' heq => ?_⟩
    cases heq
    exact hc.2 rfl
  | _ => exact ⟨hc, by simp⟩

/-- A held context keeps its ring, and stays held until its handler returns. -/
theorem Sound.process_held (hs : s.Sound p concurrency) {e : Event} {k : Nat}
    (hprocess : s.process p concurrency e k = some t)
    (hc : c ∈ s.world.custody.out ∨ c ∈ s.world.custody.used) (hfinish : e ≠ .finish c) :
    (c ∈ t.world.custody.out ∨ c ∈ t.world.custody.used) ∧ t.ring c = s.ring c := by
  obtain ⟨_, hstep, ht, _⟩ := process_spec hprocess
  have hwf := Wf.reachable hs.reached
  have haddressed := reachable_addressed hs.reached
  have hring : c ∉ s.world.submitted_contexts t.world → t.ring c = s.ring c := by
    intro hold
    rw [ht]
    exact if_neg hold
  rcases hc with hout | hused
  · have hold : c ∉ s.world.submitted_contexts t.world := by simp [submitted_contexts, hout]
    refine ⟨?_, hring hold⟩
    by_cases hcomplete : ∃ cqe sqe, e = .complete c cqe sqe
    · obtain ⟨cqe, sqe, rfl⟩ := hcomplete
      obtain ⟨r, hr, huser⟩ := List.mem_map.mp hout
      subst huser
      exact .inr (hwf.complete_handled haddressed hr hstep).1
    · exact .inl (hwf.step_out haddressed hout (fun cqe sqe heq => hcomplete ⟨cqe, sqe, heq⟩) hstep).1
  · have hused' := (hwf.step_handled haddressed hused hfinish hstep).1
    refine ⟨.inr hused', hring ?_⟩
    have hout' := ((hwf.step hstep).sound.disjoint hused').2
    simp [submitted_contexts, hout']

/-- The handler of a context has returned between two states, and given it back. -/
def Handled (p : Platform) (concurrency : Nat) (s : Service) (c : ContextId) (t : Service) : Prop :=
  ∃ u u' k, (service p concurrency).Run Machine.Any s u ∧
    (service p concurrency).step u (.process (.finish c) k) = some u' ∧ c ∈ u'.world.pool ∧
    (service p concurrency).Run Machine.Any u' t

/-- An orderly step leaves a shutdown awaited, or its handler returns. -/
theorem Sound.step_awaits (hs : s.Sound p concurrency) (hstopping : s.stopping = true)
    (hawaits : s.Awaits c) {e : ServiceEvent} (horderly : s.orderly e)
    (hstep : (service p concurrency).step s e = some t) :
    t.Awaits c ∨ ((∃ k, e = .process (.finish c) k) ∧ c ∈ t.world.pool) := by
  obtain ⟨hheld, hawaited, hlive⟩ := hawaits
  cases e with
  | process e k =>
    obtain ⟨_, hworld, ht, _⟩ := process_spec hstep
    by_cases hfinish : e = .finish c
    · subst hfinish
      right
      obtain ⟨_, hgiven⟩ := (Wf.reachable hs.reached).finish_custody hworld
      have hpool : t.world.pool = s.world.pool ++ [c] := congrArg Custody.pool hgiven
      exact ⟨⟨k, rfl⟩, by simp [hpool]⟩
    · left
      obtain ⟨hheld', hring⟩ := hs.process_held hstep hheld hfinish
      refine ⟨hheld', ?_, ?_⟩
      · rw [ht]
        exact mem_still_awaited hawaited hfinish
      · rw [hring, ht]
        exact hlive
  | stop =>
    rw [(stop_spec hstep).1] at hstopping
    cases hstopping
  | cancelled k =>
    left
    obtain ⟨rfl, _⟩ := cancelled_spec hstep
    refine ⟨hheld, hawaited, ?_⟩
    have hne : s.ring c ≠ k := horderly c hawaited
    simp [hlive, hne]

/-- Along an orderly run after `io_service::stop` every shutdown is awaited on a
    ring that still runs, until its handler returns. -/
theorem Sound.run_awaits (hs : s₁.Sound p concurrency) (hstopping : s₁.stopping = true)
    (hawaits : s₁.Awaits c) (hrun : (service p concurrency).Run orderly s₁ s) :
    s.stopping = true ∧ (s.Awaits c ∨ Handled p concurrency s₁ c s) := by
  refine Machine.Run.invariant
    (P := fun s => s.stopping = true ∧ (s.Awaits c ∨ Handled p concurrency s₁ c s)) hrun
    ⟨hstopping, .inl hawaits⟩ ?_
  rintro u e t hu ⟨hstopping, hcase⟩ horderly hstep
  refine ⟨step_stopping hstopping hstep, ?_⟩
  rcases hcase with hawaits | ⟨v, v', k, hv, hfinish, hpool, hv'⟩
  · rcases (hs.along hu).step_awaits hstopping hawaits horderly hstep with h | ⟨⟨k, rfl⟩, hpool⟩
    · exact .inl h
    · exact .inr ⟨u, t, k, hu.any, hstep, hpool, .refl⟩
  · exact .inr ⟨v, v', k, hv, hfinish, hpool, .step hv' trivial hstep⟩

/-- Nothing else is awaited: what is, waits on a ring that still runs. -/
theorem Sound.run_awaited (hs : s₁.Sound p concurrency) (hstopping : s₁.stopping = true)
    (hawaits : ∀ c ∈ s₁.awaited, s₁.Awaits c) (hrun : (service p concurrency).Run orderly s₁ s) :
    ∀ c ∈ s.awaited, s.Awaits c := by
  have hkept : s.stopping = true ∧ ∀ c ∈ s.awaited, s.Awaits c := by
    refine Machine.Run.invariant (P := fun s => s.stopping = true ∧ ∀ c ∈ s.awaited, s.Awaits c) hrun
      ⟨hstopping, hawaits⟩ ?_
    rintro u e t hu ⟨hstopping, hawaits⟩ horderly hstep
    refine ⟨step_stopping hstopping hstep, fun c hc => ?_⟩
    have hbefore : c ∈ u.awaited ∧ ∀ k, e ≠ .process (.finish c) k := by
      cases e with
      | process e k =>
        rw [(process_spec hstep).2.2.1] at hc
        exact of_mem_still_awaited hc
      | stop =>
        rw [(stop_spec hstep).1] at hstopping
        cases hstopping
      | cancelled k =>
        rw [(cancelled_spec hstep).1] at hc
        exact ⟨hc, by simp⟩
    rcases (hs.along hu).step_awaits hstopping (hawaits c hbefore.1) horderly hstep with
      h | ⟨⟨k, hfinish⟩, _⟩
    · exact h
    · exact absurd hfinish (hbefore.2 k)
  exact hkept.2

/-- The object of a shutdown has its descriptor still, and the shutdown is
    awaited, or the descriptor is closed. -/
def Closes (i : ObjectId) (fd : Int) (before : List Int) (c : ContextId) (s : Service) : Prop :=
  ((s.world.sockets i).isSome ∨ (s.world.servers i).isSome) ∧
    ((s.world.descriptor i = fd ∧ (s.world.history i).closed = before ∧ c ∈ s.awaited ∧
        ∃ r ∈ s.world.inflight, r.user_data = c ∧ r.context.type = .shutdown ∧
          r.context.handler = some i) ∨
      (s.world.descriptor i = 0 ∧ before ++ [fd] <+: (s.world.history i).closed))

theorem Sound.step_closes {i : ObjectId} {fd : Int} {before : List Int} (hfd : fd ≠ 0)
    (hs : s.Sound p concurrency) (hstopping : s.stopping = true) (hcloses : Closes i fd before c s)
    {e : ServiceEvent} (hopens : e.reopens i = false)
    (hstep : (service p concurrency).step s e = some t) : Closes i fd before c t := by
  obtain ⟨hobject, hcase⟩ := hcloses
  cases e with
  | process e k =>
    obtain ⟨_, hworld, ht, _⟩ := process_spec hstep
    have hwf := Wf.reachable hs.reached
    obtain ⟨hobject', hkept⟩ := hwf.step_closes hobject hopens hworld
    refine ⟨hobject', ?_⟩
    rcases hcase with ⟨hdescriptor, hclosed, hawaited, r, hr, rfl, htype, hhandler⟩ | ⟨hzero, hprefix⟩
    · by_cases hcomplete : ∃ cqe sqe, e = .complete r.user_data cqe sqe
      · obtain ⟨cqe, sqe, rfl⟩ := hcomplete
        right
        have hclosed' := hwf.completion_closes hr hhandler htype (hdescriptor ▸ hfd) hworld
        rw [hdescriptor, hclosed] at hclosed'
        exact ⟨hclosed'.1, hclosed'.2 ▸ List.prefix_rfl⟩
      · rcases hkept with ⟨hsame, hclosed'⟩ | ⟨hzero, hclosed'⟩
        · left
          obtain ⟨hout, hcontext⟩ := hwf.step_out (reachable_addressed hs.reached)
            (List.mem_map_of_mem hr) (fun cqe sqe heq => hcomplete ⟨cqe, sqe, heq⟩) hworld
          obtain ⟨r', hr', huser⟩ := List.mem_map.mp hout
          have hsame' : r'.context = r.context := by
            rw [← (hwf.step hworld).contexts r' hr', huser, hcontext, hwf.contexts r hr]
          have hfinish : e ≠ .finish r.user_data := by
            rintro rfl
            obtain ⟨hused, _⟩ := hwf.finish_custody hworld
            exact (hwf.sound.disjoint hused).2 (List.mem_map_of_mem hr)
          refine ⟨hsame.trans hdescriptor, hclosed'.trans hclosed, ?_, r', hr', huser, ?_, ?_⟩
          · rw [ht]
            exact mem_still_awaited hawaited hfinish
          · rw [hsame', htype]
          · rw [hsame', hhandler]
        · right
          rw [hdescriptor, hclosed] at hclosed'
          exact ⟨hzero, hclosed' ▸ List.prefix_rfl⟩
    · right
      rcases hkept with ⟨hsame, hclosed⟩ | ⟨hzero', hclosed⟩
      · exact ⟨hsame.trans hzero, hclosed ▸ hprefix⟩
      · exact ⟨hzero', hclosed ▸ hprefix.trans (List.prefix_append _ _)⟩
  | stop =>
    rw [(stop_spec hstep).1] at hstopping
    cases hstopping
  | cancelled k =>
    rw [(cancelled_spec hstep).1]
    exact ⟨hobject, hcase⟩

theorem Sound.run_closes {i : ObjectId} {fd : Int} {before : List Int} (hfd : fd ≠ 0)
    (hs : s₁.Sound p concurrency) (hstopping : s₁.stopping = true)
    (hcloses : Closes i fd before c s₁)
    (hrun : (service p concurrency).Run (fun _ e => e.reopens i = false) s₁ s) :
    Closes i fd before c s := by
  have hkept : s.stopping = true ∧ Closes i fd before c s := by
    refine Machine.Run.invariant (P := fun s => s.stopping = true ∧ Closes i fd before c s) hrun
      ⟨hstopping, hcloses⟩ ?_
    rintro u e t hu ⟨hstopping, hcloses⟩ hopens hstep
    exact ⟨step_stopping hstopping hstep,
      (hs.along hu).step_closes hfd hstopping hcloses hopens hstep⟩
  exact hkept.2

/-- A shutdown whose ring has been left is never handled. -/
theorem Sound.abandoned (hs : s.Sound p concurrency) (hout : c ∈ s.world.custody.out)
    (hawaited : c ∈ s.awaited) (hexited : s.ring c ∈ s.exited)
    (hrun : (service p concurrency).Run Machine.Any s t) :
    c ∈ t.world.custody.out ∧ c ∈ t.awaited ∧ t.ring c ∈ t.exited := by
  refine Machine.Run.invariant
    (P := fun t => c ∈ t.world.custody.out ∧ c ∈ t.awaited ∧ t.ring c ∈ t.exited) hrun
    ⟨hout, hawaited, hexited⟩ ?_
  rintro u e t hu ⟨hout, hawaited, hexited⟩ _ hstep
  have hsound := hs.along hu
  cases e with
  | process e k =>
    obtain ⟨htakes, hworld, ht, _⟩ := process_spec hstep
    have hwf := Wf.reachable hsound.reached
    have hcomplete : ∀ cqe sqe, e ≠ .complete c cqe sqe := by
      rintro cqe sqe rfl
      simp only [takes, Bool.and_eq_true, beq_iff_eq, Bool.not_eq_true'] at htakes
      rw [htakes.1.1] at hexited
      simp [hexited] at htakes
    have hfinish : e ≠ .finish c := by
      rintro rfl
      exact (hwf.sound.disjoint (hwf.finish_custody hworld).1).2 hout
    obtain ⟨_, hring⟩ := hsound.process_held hstep (.inl hout) hfinish
    refine ⟨(hwf.step_out (reachable_addressed hsound.reached) hout hcomplete hworld).1, ?_, ?_⟩
    · rw [ht]
      exact mem_still_awaited hawaited hfinish
    · rw [hring, ht]
      exact hexited
  | stop =>
    obtain ⟨hstopping, _⟩ := stop_spec hstep
    rw [hsound.running hstopping] at hexited
    cases hexited
  | cancelled k =>
    rw [(cancelled_spec hstep).1]
    exact ⟨hout, hawaited, List.mem_append_left _ hexited⟩

end Service

open Service

variable {p : Platform} {concurrency : Nat} {s₀ s₁ s : Service}

/-- When no ring is left with such a shutdown on it, `io_service::stop` returns
    after every shutdown submitted before it has been handled, its descriptor
    closed and its context given back. -/
theorem stop_handles_shutdowns (hreach : (service p concurrency).Reachable Machine.Any s₀)
    (hstop : (service p concurrency).step s₀ .stop = some s₁)
    (hrun : (service p concurrency).Run orderly s₁ s) (hreturned : s.returned concurrency) :
    (∀ c ∈ s₀.world.shutdowns, Handled p concurrency s₁ c s) ∧
      ∀ r ∈ s₀.world.inflight, r.context.type = .shutdown → ∀ i, r.context.handler = some i →
        s₀.world.descriptor i ≠ 0 →
        (service p concurrency).Run (fun _ e => e.reopens i = false) s₁ s →
          s.world.descriptor i = 0 ∧
            (s₀.world.history i).closed ++ [s₀.world.descriptor i] <+: (s.world.history i).closed := by
  have hs₀ := Sound.reachable hreach
  obtain ⟨hstopping, rfl⟩ := stop_spec hstop
  have hs₁ : s₀.stop.Sound p concurrency := hs₀.step hstop
  have hs := hs₁.along hrun
  have hnone : ∀ c, ¬ s.Awaits c := by
    rintro c ⟨hheld, _, hlive⟩
    exact hlive (hreturned.2 _ (hs.ring c hheld))
  have hawaits : ∀ c ∈ s₀.world.shutdowns, s₀.stop.Awaits c := by
    intro c hc
    have hexited : s₀.stop.exited = [] := hs₀.running hstopping
    exact ⟨(mem_shutdowns.mp hc).1, hc, by simp [hexited]⟩
  refine ⟨fun c hc => ?_, ?_⟩
  · exact (hs₁.run_awaits rfl (hawaits c hc) hrun).2.resolve_left (hnone c)
  · intro r hr htype i hhandler hfd hkeeps
    have hwf := Wf.reachable hs₀.reached
    have hc : r.user_data ∈ s₀.world.shutdowns := by
      refine mem_shutdowns.mpr ⟨.inl (List.mem_map_of_mem hr), ?_⟩
      rw [hwf.contexts r hr, htype]
    have hobject : (s₀.world.sockets i).isSome ∨ (s₀.world.servers i).isSome := by
      obtain ⟨j, hj, hfilled, _⟩ := hwf.typed r hr
      rw [hhandler] at hj
      cases hj
      rwa [Filled, htype] at hfilled
    have hcloses : Closes i (s₀.world.descriptor i) (s₀.world.history i).closed r.user_data s₀.stop :=
      ⟨hobject, .inl ⟨rfl, rfl, hc, r, hr, rfl, htype, hhandler⟩⟩
    obtain ⟨_, ⟨_, _, hawaited, _⟩ | hclosed⟩ := hs₁.run_closes hfd rfl hcloses hkeeps
    · exact absurd (hs₁.run_awaited rfl hawaits hrun _ hawaited) (hnone _)
    · exact hclosed

/-- A server listens, is stopped, and then the service is. -/
def server_stopped : List ServiceEvent := [
  .process .create_server 0,
  .process (.run 1 7 true true 0 true) 0,
  .process (.stop 1 true) 0]

/-- The shutdown of the server completes before the ring is left. -/
def shutdown_first : List ServiceEvent := [
  .process (.complete 1 { res := 0 } true) 0,
  .process (.finish 1) 0,
  .cancelled 0]

theorem stop_handles_shutdowns_in_order : ∃ s₀ s₁ s,
    (service .small 1).Reachable Machine.Any s₀ ∧ (service .small 1).step s₀ .stop = some s₁ ∧
      (service .small 1).Run orderly s₁ s ∧ s.returned 1 ∧ 1 ∈ s₀.world.shutdowns ∧
      Handled .small 1 s₁ 1 s := by
  obtain ⟨s₀, hreach, hs⟩ := Machine.reachable_of_exec (service .small 1) Machine.Any server_stopped
    (fun s₀ => s₀.world.shutdowns.contains 1 && ((service .small 1).step s₀ .stop).any fun s₁ =>
      ((service .small 1).exec orderly s₁ shutdown_first).any fun s : Service =>
        s.stopping && s.exited.contains 0) (by decide +kernel)
  simp only [Bool.and_eq_true, Option.any_eq_true, List.contains_iff_mem] at hs
  obtain ⟨hshutdown, s₁, hstop, s, hexec, hstopping, hexited⟩ := hs
  have hrun := Machine.run_of_exec hexec
  have hreturned : s.returned 1 := by
    refine ⟨hstopping, fun k hk => ?_⟩
    rw [Nat.lt_one_iff.mp hk]
    exact hexited
  exact ⟨s₀, s₁, s, hreach, hstop, hrun, hreturned, hshutdown,
    (stop_handles_shutdowns hreach hstop hrun hreturned).1 1 hshutdown⟩

theorem stop_abandons_shutdown : ¬ ∀ s₀ s₁ s, (service .small 1).Reachable Machine.Any s₀ →
    (service .small 1).step s₀ .stop = some s₁ → (service .small 1).Run Machine.Any s₁ s →
    s.returned 1 → ∀ r ∈ s₀.world.inflight, r.context.type = .shutdown →
      ∀ i, r.context.handler = some i → s.world.descriptor i = 0 := by
  intro hall
  obtain ⟨s₀, hreach, hs⟩ := Machine.reachable_of_exec (service .small 1) Machine.Any server_stopped
    (fun s₀ => (s₀.world.inflight.any fun r =>
      r.context.type == .shutdown && r.context.handler == some 1) &&
      ((service .small 1).step s₀ .stop).any fun s₁ =>
        ((service .small 1).exec Machine.Any s₁ [.cancelled 0]).any fun s : Service =>
          s.stopping && (s.exited.contains 0 && s.world.descriptor 1 == 7)) (by decide +kernel)
  simp only [Bool.and_eq_true, Option.any_eq_true, List.any_eq_true, List.contains_iff_mem,
    beq_iff_eq] at hs
  obtain ⟨⟨r, hr, htype, hhandler⟩, s₁, hstop, s, hexec, hstopping, hexited, hopen⟩ := hs
  have hreturned : s.returned 1 := by
    refine ⟨hstopping, fun k hk => ?_⟩
    rw [Nat.lt_one_iff.mp hk]
    exact hexited
  have hzero := hall s₀ s₁ s hreach hstop (Machine.run_of_exec hexec) hreturned r hr htype 1 hhandler
  rw [hopen] at hzero
  exact absurd hzero (by decide)

end rioring
