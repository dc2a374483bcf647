import Rioring.Transition

/-! Machines that run side by side, each in its own state, and are joined by a
network. -/

/-- The machines of some nodes, and the joint states in which the network has carried
    to each nothing but what another has put in. -/
structure Network {ι : Type} (S E : ι → Type) where
  node : ∀ i, Machine (S i) (E i)
  carried : (∀ i, S i) → Prop

namespace Network

variable {ι : Type} [DecidableEq ι] {S E : ι → Type}

/-- One node takes a step at a time. -/
def machine (net : Network S E) : Machine (∀ i, S i) (Σ i, E i) where
  init i := (net.node i).init
  step s e := ((net.node e.1).step (s e.1) e.2).map (Function.update s e.1)

/-- Each node meets its own condition, and no step receives what the network has not
    carried. -/
def keeps (net : Network S E) (allowed : ∀ i, S i → E i → Prop) (s : ∀ i, S i) (e : Σ i, E i) :
    Prop :=
  allowed e.1 (s e.1) e.2 ∧ ∀ t, net.machine.step s e = some t → net.carried t

instance (net : Network S E) (allowed : ∀ i, S i → E i → Prop) [∀ i, DecidableRel (allowed i)]
    [DecidablePred net.carried] : DecidableRel (net.keeps allowed) := fun s e =>
  match h : net.machine.step s e with
  | none => decidable_of_iff (allowed e.1 (s e.1) e.2) (by simp [keeps, h])
  | some t => decidable_of_iff (allowed e.1 (s e.1) e.2 ∧ net.carried t) (by simp [keeps, h])

variable {net : Network S E} {allowed : ∀ i, S i → E i → Prop} {s : ∀ i, S i}

/-- What each node does is a run of its own machine. -/
theorem reachable_node (hreach : net.machine.Reachable (net.keeps allowed) s) (i : ι) :
    (net.node i).Reachable (allowed i) (s i) := by
  refine Machine.Run.invariant (P := fun s => (net.node i).Reachable (allowed i) (s i)) hreach .refl ?_
  rintro s ⟨j, e⟩ t _ hs ⟨hallowed, _⟩ hstep
  obtain ⟨u, hu, rfl⟩ := Option.map_eq_some_iff.mp hstep
  by_cases hi : i = j
  · subst j
    rw [Function.update_self]
    exact .step hs hallowed hu
  · rw [Function.update_of_ne hi]
    exact hs

theorem reachable_carried (hreach : net.machine.Reachable (net.keeps allowed) s)
    (hinit : net.carried net.machine.init) : net.carried s := by
  refine Machine.Run.invariant hreach hinit ?_
  rintro s e t _ _ ⟨_, hcarried⟩ hstep
  exact hcarried t hstep

end Network
