import Mathlib

/-- A machine that answers an event in a state with the next state, or refuses
    it. Refusal covers both an event that cannot occur there and an operation
    that never returns. -/
structure Machine (S E : Type) where
  init : S
  step : S → E → Option S

namespace Machine

variable {S E : Type}

/-- Finite runs from a state, all of whose steps meet a condition on the event
    and on the state it finds. -/
inductive Run (m : Machine S E) (allowed : S → E → Prop) (start : S) : S → Prop where
  | refl : Run m allowed start start
  | step {s t : S} {e : E} (hrun : Run m allowed start s) (hallowed : allowed s e)
      (hstep : m.step s e = some t) : Run m allowed start t

/-- The states of the runs that begin in the initial state. -/
def Reachable (m : Machine S E) (allowed : S → E → Prop) : S → Prop :=
  m.Run allowed m.init

/-- The condition that every step meets. -/
def Any (_ : S) (_ : E) : Prop := True

instance : DecidableRel (Any (S := S) (E := E)) := fun _ _ => .isTrue trivial

/-- What holds at the start of a run and is kept by each of its steps holds at
    its end. A step may use that its source is itself reached by such a run. -/
theorem Run.invariant {m : Machine S E} {allowed : S → E → Prop} {start s : S}
    (hrun : m.Run allowed start s) {P : S → Prop} (hstart : P start)
    (hkeep : ∀ s e t, m.Run allowed start s → P s → allowed s e → m.step s e = some t → P t) :
    P s := by
  induction hrun with
  | refl => exact hstart
  | step hrun hallowed hstep ih => exact hkeep _ _ _ hrun ih hallowed hstep

theorem Run.mono {m : Machine S E} {allowed allowed' : S → E → Prop} {start s : S}
    (hrun : m.Run allowed start s) (hmono : ∀ s e, allowed s e → allowed' s e) :
    m.Run allowed' start s := by
  induction hrun with
  | refl => exact .refl
  | step _ hallowed hstep ih => exact .step ih (hmono _ _ hallowed) hstep

theorem Run.any {m : Machine S E} {allowed : S → E → Prop} {start s : S}
    (hrun : m.Run allowed start s) : m.Run Any start s :=
  hrun.mono fun _ _ _ => trivial

theorem Run.trans {m : Machine S E} {allowed : S → E → Prop} {s t u : S}
    (hfirst : m.Run allowed s t) (hsecond : m.Run allowed t u) : m.Run allowed s u := by
  induction hsecond with
  | refl => exact hfirst
  | step _ hallowed hstep ih => exact .step ih hallowed hstep

/-- Running a list of events, each of which must meet the condition. -/
def exec (m : Machine S E) (allowed : S → E → Prop) [DecidableRel allowed] : S → List E → Option S
  | s, [] => some s
  | s, e :: rest => if allowed s e then (m.step s e).bind (exec m allowed · rest) else none

/-- An executed list of events is a run. -/
theorem run_of_exec {m : Machine S E} {allowed : S → E → Prop} [DecidableRel allowed] {s t : S}
    {events : List E} (hexec : m.exec allowed s events = some t) : m.Run allowed s t := by
  induction events generalizing s with
  | nil =>
    simp only [exec, Option.some.injEq] at hexec
    subst t
    exact .refl
  | cons e rest ih =>
    rw [exec] at hexec
    split at hexec
    · rename_i hallowed
      obtain ⟨u, hstep, hrest⟩ := Option.bind_eq_some_iff.mp hexec
      exact Run.trans (.step .refl hallowed hstep) (ih hrest)
    · cases hexec

/-- An executed list of events reaches a state with what its last state shows. -/
theorem reachable_of_exec (m : Machine S E) (allowed : S → E → Prop) [DecidableRel allowed]
    (events : List E) (q : S → Bool) (hexec : (m.exec allowed m.init events).any q = true) :
    ∃ s, m.Reachable allowed s ∧ q s = true := by
  obtain ⟨s, hs, hq⟩ := (Option.any_eq_true _ _).mp hexec
  exact ⟨s, run_of_exec hs, hq⟩

/-- Transfer of an invariant to a component. `view` shows one component of the
    machine, `label` what an event does to it, and `move` the moves it can make;
    the component may be absent at first and then appear as described by
    `fresh`. A property of fresh components that the moves keep holds of the
    component in every reachable state. -/
theorem Reachable.component {m : Machine S E} {allowed : S → E → Prop} {V L : Type}
    (view : S → Option V) (label : S → E → L) (move : V → L → V → Prop) (fresh : V → Prop)
    (base : S → Prop) (hbase : ∀ s, m.Reachable allowed s → base s)
    (hinit : view m.init = none)
    (hmove : ∀ s e t v', base s → m.step s e = some t → view t = some v' →
      fresh v' ∨ ∃ v, view s = some v ∧ move v (label s e) v')
    (P : V → Prop) (hfresh : ∀ v, fresh v → P v)
    (hkeep : ∀ s e v v', m.Reachable allowed s → view s = some v → allowed s e → P v →
      move v (label s e) v' → P v')
    {s : S} (hreach : m.Reachable allowed s) {v : V} (hview : view s = some v) : P v := by
  have hall : ∀ v, view s = some v → P v := by
    refine Run.invariant (P := fun s => ∀ v, view s = some v → P v) hreach ?_ ?_
    · intro v hv
      rw [hinit] at hv
      cases hv
    · intro s e t hs ih hallowed hstep v' hv'
      rcases hmove s e t v' (hbase s hs) hstep hv' with hnew | ⟨v, hv, hmv⟩
      · exact hfresh v' hnew
      · exact hkeep s e v v' hs hv hallowed (ih v hv) hmv
  exact hall v hview

/-! A machine with an observer beside it, whose notes no step of it reads. -/

variable {B : Type} {m : Machine S E} {note : B} {update : S → E → S → B → B}

def observe (m : Machine S E) (note : B) (update : S → E → S → B → B) : Machine (S × B) E where
  init := (m.init, note)
  step x e := (m.step x.1 e).map fun t => (t, update x.1 e t x.2)

theorem observe_step {x y : S × B} {e : E} (hstep : (m.observe note update).step x e = some y) :
    m.step x.1 e = some y.1 ∧ y.2 = update x.1 e y.1 x.2 := by
  obtain ⟨t, ht, rfl⟩ := Option.map_eq_some_iff.mp hstep
  exact ⟨ht, rfl⟩

/-- Without its notes an observed run is a run. -/
theorem Reachable.of_observe {allowed : S × B → E → Prop} {x : S × B}
    (hreach : (m.observe note update).Reachable allowed x) : m.Reachable Any x.1 := by
  induction hreach with
  | refl => exact .refl
  | step _ _ hstep ih => exact .step ih trivial (observe_step hstep).1

/-- What holds of the initial state and the first note, and is kept by each step
    together with its update, holds along every observed run. -/
theorem Reachable.observe_invariant {allowed : S × B → E → Prop} {x : S × B}
    (hreach : (m.observe note update).Reachable allowed x) {P : S → B → Prop}
    (hstart : P m.init note)
    (hkeep : ∀ s b e t, m.Reachable Any s → P s b → allowed (s, b) e → m.step s e = some t →
      P t (update s e t b)) : P x.1 x.2 := by
  refine Run.invariant (P := fun x => P x.1 x.2) hreach hstart ?_
  rintro ⟨s, b⟩ e ⟨t, b'⟩ hrun hP hallowed hstep
  obtain ⟨hstep, hnoted⟩ := observe_step hstep
  obtain rfl : b' = update s e t b := hnoted
  exact hkeep s b e t (of_observe hrun) hP hallowed hstep

end Machine
