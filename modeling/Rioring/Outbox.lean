import Mathlib

/-- What a sender owes: everything it has accepted, what of it has been
    delivered, what it still keeps, and the piece that is on its way. -/
structure Outbox (A : Type) where
  accepted : List A
  delivered : List A
  queue : List A
  flight : List A

namespace Outbox

variable {A : Type}

def accept (b : Outbox A) (items : List A) : Outbox A :=
  { b with accepted := b.accepted ++ items, queue := b.queue ++ items }

/-- The first `n` items of the queue set out; they stay in it. -/
def launch (b : Outbox A) (n : Nat) : Outbox A := { b with flight := b.queue.take n }

/-- The first `k` items on their way have arrived and leave the queue; the
    others have to set out again. -/
def deliver (b : Outbox A) (k : Nat) : Outbox A :=
  { b with
    delivered := b.delivered ++ b.flight.take k
    queue := b.queue.drop k
    flight := [] }

def abandon (b : Outbox A) : Outbox A := { b with flight := [] }

inductive Step : Outbox A → Outbox A → Prop where
  | accept (b : Outbox A) (items : List A) : Step b (b.accept items)
  | launch (b : Outbox A) (n : Nat) : Step b (b.launch n)
  | deliver (b : Outbox A) (k : Nat) (hk : k ≤ b.flight.length) : Step b (b.deliver k)
  | abandon (b : Outbox A) : Step b b.abandon

/-- Finitely many steps. -/
def Steps : Outbox A → Outbox A → Prop := Relation.ReflTransGen Step

/-- Nothing is lost, duplicated or reordered, and what is on its way comes next. -/
structure Ok (b : Outbox A) : Prop where
  conserved : b.delivered ++ b.queue = b.accepted
  flight : b.flight <+: b.queue

theorem Ok.step {b b' : Outbox A} (hok : b.Ok) (hstep : Step b b') : b'.Ok := by
  obtain ⟨hconserved, hflight⟩ := hok
  cases hstep with
  | accept items =>
    refine ⟨?_, hflight.trans (List.prefix_append _ _)⟩
    change b.delivered ++ (b.queue ++ items) = b.accepted ++ items
    rw [← List.append_assoc, hconserved]
  | launch n => exact ⟨hconserved, List.take_prefix _ _⟩
  | deliver k hk =>
    refine ⟨?_, List.nil_prefix⟩
    have htake : b.flight.take k = b.queue.take k := by
      obtain ⟨rest, hrest⟩ := hflight
      rw [← hrest, List.take_append_of_le_length hk]
    change b.delivered ++ b.flight.take k ++ b.queue.drop k = b.accepted
    rw [htake, List.append_assoc, List.take_append_drop, hconserved]
  | abandon => exact ⟨hconserved, List.nil_prefix⟩

theorem Ok.steps {b b' : Outbox A} (hok : b.Ok) (hsteps : Steps b b') : b'.Ok := by
  induction hsteps with
  | refl => exact hok
  | tail _ hstep ih => exact ih.step hstep

theorem Steps.accept (b : Outbox A) (items : List A) : Steps b (b.accept items) :=
  .single (.accept b items)

theorem Steps.launch (b : Outbox A) (n : Nat) : Steps b (b.launch n) := .single (.launch b n)

theorem Steps.deliver (b : Outbox A) {k : Nat} (hk : k ≤ b.flight.length) :
    Steps b (b.deliver k) := .single (.deliver b k hk)

theorem Steps.abandon (b : Outbox A) : Steps b b.abandon := .single (.abandon b)

/-- With an empty queue everything accepted has been delivered. -/
theorem Ok.drained {b : Outbox A} (hok : b.Ok) (hqueue : b.queue = []) :
    b.delivered = b.accepted ∧ b.flight = [] := by
  obtain ⟨hconserved, hflight⟩ := hok
  rw [hqueue] at hconserved hflight
  exact ⟨by simpa using hconserved, List.prefix_nil.mp hflight⟩

/-- From a moment on at which nothing is queued, what is delivered and what is
    queued is what has been accepted since. -/
theorem Steps.since {b b' : Outbox A} (hqueue : b.queue = []) (hflight : b.flight = [])
    (hsteps : Steps b b') : ∃ accepted delivered, b'.accepted = b.accepted ++ accepted ∧
      b'.delivered = b.delivered ++ delivered ∧ delivered ++ b'.queue = accepted := by
  obtain ⟨c, hok, haccepted, hdelivered, hc, _⟩ : ∃ c : Outbox A, c.Ok ∧
      b'.accepted = b.accepted ++ c.accepted ∧ b'.delivered = b.delivered ++ c.delivered ∧
      c.queue = b'.queue ∧ c.flight = b'.flight := by
    induction hsteps with
    | refl =>
      refine ⟨⟨[], [], [], []⟩, ⟨rfl, List.nil_prefix⟩, ?_, ?_, hqueue.symm, hflight.symm⟩
      · exact (List.append_nil _).symm
      · exact (List.append_nil _).symm
    | tail _ hstep ih =>
      rename_i b₁ b₂ _
      obtain ⟨c, hok, haccepted, hdelivered, hc, hf⟩ := ih
      cases hstep with
      | accept items =>
        refine ⟨c.accept items, hok.step (.accept c items), ?_, hdelivered, ?_, hf⟩
        · simp only [Outbox.accept, haccepted, List.append_assoc]
        · simp only [Outbox.accept, hc]
      | launch n =>
        refine ⟨c.launch n, hok.step (.launch c n), haccepted, hdelivered, hc, ?_⟩
        simp only [Outbox.launch, hc]
      | deliver k hk =>
        refine ⟨c.deliver k, hok.step (.deliver c k (hf ▸ hk)), haccepted, ?_, ?_, rfl⟩
        · simp only [Outbox.deliver, hdelivered, hf, List.append_assoc]
        · simp only [Outbox.deliver, hc]
      | abandon => exact ⟨c.abandon, hok.step (.abandon c), haccepted, hdelivered, hc, rfl⟩
  exact ⟨c.accepted, c.delivered, haccepted, hdelivered, hc ▸ hok.conserved⟩

end Outbox
