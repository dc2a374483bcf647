import Rioring.Ownership.Exclusive

/-! Contexts that are taken come back. -/

namespace rioring

open World

variable {p : Platform} {w : World}

/-- What `deallocate_context` gives back holds no object. -/
theorem cleared_handler (ctx : IoContext) : (cleared ctx).handler = none := rfl

/-- As long as no submission is lost, every context is in the pool, in flight or
    being handled, and those in the pool hold no object. -/
theorem contexts_conserved (hreach : (machine p).Reachable (fun w e => w.loses e = false) w) :
    (∀ c < w.allocated, c ∈ w.held) ∧ (∀ c ∈ w.pool, (w.contexts c).handler = none) ∧
      (w.inflight = [] → w.handling = [] →
        ∀ c < w.allocated, c ∈ w.pool ∧ (w.contexts c).handler = none) := by
  have hkept : w.custody.Whole ∧ ∀ c ∈ w.pool, (w.contexts c).handler = none := by
    refine Machine.Run.invariant
      (P := fun w => w.custody.Whole ∧ ∀ c ∈ w.pool, (w.contexts c).handler = none) hreach ?_ ?_
    · refine ⟨fun c hc => ?_, fun c _ => rfl⟩
      exact List.mem_append_left _ (List.mem_range.mpr hc)
    · rintro w e w' hreach ⟨hwhole, hpool⟩ hloses hstep
      have hwf := Wf.reachable hreach
      have hrun := hwf.circulates (reachable_addressed hreach) hstep
      refine ⟨hwhole.along hrun ?_, hwf.sound.pool_along (P := fun ctx => ctx.handler = none)
        cleared_handler hpool hrun⟩
      rintro s m hm fill rfl
      have hlost : w.loses e = true := hm.1
      rw [hloses] at hlost
      cases hlost
  obtain ⟨hwhole, hpool⟩ := hkept
  refine ⟨hwhole, hpool, fun hinflight hhandling c hc => ?_⟩
  have hheld : c ∈ w.held := hwhole c hc
  rw [held, hinflight, hhandling, List.map_nil, List.map_nil, List.append_nil, List.append_nil] at hheld
  exact ⟨hheld, hpool c hheld⟩

/-- A connection is closed, its stream ends, and both handlers return. -/
def disconnected : List Event := [
  .create_tcp,
  .connect 1 [⟨7, true⟩] true,
  .close 1 .force true,
  .complete 1 { res := 0 } true,
  .complete 0 { res := 0 } true,
  .finish 0,
  .finish 1]

theorem contexts_conserved_disconnected : ∃ w,
    (machine .small).Reachable (fun w e => w.loses e = false) w ∧ w.allocated = 2 ∧
      ∀ c < w.allocated, c ∈ w.pool ∧ (w.contexts c).handler = none := by
  obtain ⟨w, hreach, hw⟩ := Machine.reachable_of_exec (machine .small)
    (fun w e => w.loses e = false) disconnected
    (fun w => w.allocated == 2 && (w.inflight.isEmpty && w.handling.isEmpty)) (by decide +kernel)
  simp only [Bool.and_eq_true, beq_iff_eq, List.isEmpty_iff] at hw
  obtain ⟨hallocated, hinflight, hhandling⟩ := hw
  exact ⟨w, hreach, hallocated, (contexts_conserved hreach).2.2 hinflight hhandling⟩

/-- A datagram for an address of the UNIX family. -/
def unix_datagram : List Event := [
  .create_udp,
  .activate 1 7 true true,
  .send_to 1 one_byte { sa_family := 1 } true]

theorem context_lost : ¬ ∀ w, (machine .small).Reachable Machine.Any w →
    ∀ c < w.allocated, c ∈ w.held := by
  intro hall
  obtain ⟨w, hreach, hw⟩ := Machine.reachable_of_exec (machine .small) Machine.Any unix_datagram
    (fun w => w.allocated == 2 && !w.held.contains 1) (by decide +kernel)
  simp only [Bool.and_eq_true, beq_iff_eq, Bool.not_eq_true', List.contains_eq_mem,
    decide_eq_false_iff_not] at hw
  exact hw.2 (hall w hreach 1 (by omega))

end rioring
