import Rioring.Service.Serial
import Rioring.Tcp.Liveness

/-! Programs over an `io_service`: they call the library from callbacks, and the service
goes on beside them. -/

namespace rioring

/-- The receive side of a socket does not end. -/
def View.lasting (_ : View) : Action → Prop
  | .receive_ended _ _ => False
  | _ => True

instance : DecidableRel View.lasting := fun _ a =>
  match a with
  | .receive_ended _ _ => .isFalse id
  | .idle | .set_event | .send .. | .send_to .. | .close .. | .received .. | .start .. |
    .sent .. | .send_failed .. | .shut_down .. | .pop .. => .isTrue trivial

theorem View.connected_once.one_connection {v : View} {a : Action} (honce : v.connected_once a)
    (hlasting : v.lasting a) : v.one_connection a := by
  cases a <;> first | exact honce | exact hlasting

namespace World

variable {w : World} {e : Event} {j : ObjectId}

/-- The receive side of a socket ends with a completion. -/
theorem permits_lasting (hcall : ∀ c cqe sqe, e ≠ .complete c cqe sqe) :
    permits j View.lasting w e := by
  intro v _
  cases haction : w.action j e with
  | receive_ended r res =>
    obtain ⟨c, cqe, sqe, heq, _⟩ := action_receives (.inr ⟨r, res, haction⟩)
    exact absurd heq (hcall c cqe sqe)
  | _ => trivial

theorem permits_one_connection (honce : permits j View.connected_once w e)
    (hlasting : permits j View.lasting w e) : permits j View.one_connection w e :=
  fun v hv => (honce v hv).one_connection (hlasting v hv)

/-- Calls that do not activate the socket. -/
theorem permits_once (hcalls : e.activates j = false) (hresume : ∀ c a b, e ≠ .resume c a b) :
    permits j View.connected_once w e := by
  intro v _
  cases haction : w.action j e with
  | start sqe =>
    rcases action_start haction with hactivates | ⟨c, a, heq⟩
    · rw [hcalls] at hactivates
      cases hactivates
    · exact absurd heq (hresume c a sqe)
  | _ => trivial

/-- Whether a step has called the receive callback of a socket. -/
def received_since (w w' : World) (j : ObjectId) : Bool :=
  (w.sockets j).isSome && (w.callbacks_since w' j).any fun callback =>
    match callback with
    | .receive _ _ => true
    | _ => false

theorem received_since_same (w : World) (j : ObjectId) : received_since w w j = false := by
  rw [received_since, callbacks_since, List.drop_length, List.any_nil, Bool.and_false]

end World

/-- What callbacks call in the library. -/
def Event.by_callback : Event → Bool
  | .set_event .. | .send .. | .send_locked .. | .close .. | .pop .. => true
  | _ => false

namespace Event

variable {e : Event} {j : ObjectId} {w : World}

theorem by_callback_activates (hcall : e.by_callback = true) (i : ObjectId) : e.activates i = false := by
  cases e <;> first | rfl | cases hcall

theorem by_callback_ne_complete (hcall : e.by_callback = true) (c : ContextId) (cqe : Cqe) (sqe : Bool) :
    e ≠ .complete c cqe sqe := by
  rintro rfl
  cases hcall

/-- Such a call makes no socket active. -/
theorem by_callback_start (hcall : e.by_callback = true) (sqe : Bool) : w.action j e ≠ .start sqe := by
  intro haction
  rcases World.action_start haction with hactivates | ⟨c, a, rfl⟩
  · rw [by_callback_activates hcall] at hactivates
    cases hactivates
  · cases hcall

theorem by_callback_permits (hcall : e.by_callback = true) :
    World.permits j View.connected_once w e := by
  refine World.permits_once (by_callback_activates hcall j) ?_
  rintro c a b rfl
  cases hcall

end Event

namespace Service

variable {p : Platform} {concurrency k : Nat} {s t : Service} {e : Event}

theorem process_run (hprocess : s.process p concurrency e k = some t) :
    (service p concurrency).Run Machine.Any s t :=
  .step (e := .process e k) .refl trivial hprocess

theorem by_callback_reaches (hreach : (service p concurrency).Reachable accepts_only s)
    (hcall : e.by_callback = true) (hprocess : s.process p concurrency e k = some t) :
    (service p concurrency).Reachable accepts_only t :=
  Machine.Run.step (e := .process e k) hreach (Event.by_callback_activates hcall) hprocess

/-- The steps of a service that are calls of callbacks. -/
def called (_ : Service) : ServiceEvent → Prop
  | .process e _ => e.by_callback = true
  | .stop | .cancelled _ => False

theorem called_run (hcall : e.by_callback = true) (hprocess : s.process p concurrency e k = some t) :
    (service p concurrency).Run called s t :=
  .step (e := .process e k) .refl hcall hprocess

/-- A step of the service that a program lets happen. -/
theorem allowed_step {α : Type} {e : ServiceEvent} {allows : Bool} {result : Service → α} {x : α}
    (hstep : (if allows then do
      let t ← s.step p concurrency e
      some (result t) else none) = some x) :
    allows = true ∧ ∃ t, (service p concurrency).step s e = some t ∧ x = result t := by
  split at hstep
  · rename_i hallows
    obtain ⟨t, ht, hx⟩ := Option.bind_eq_some_iff.mp hstep
    cases hx
    exact ⟨hallows, t, ht, rfl⟩
  · cases hstep

end Service

/-- A program over a service. `host` is its service, and `library` the step of the service
    that an event of it is, if any: it is one that the program allows. The others make
    calls in the library, behind a state that meets `base`. -/
structure Program (p : Platform) (concurrency : Nat) {S E : Type} (m : Machine S E)
    (host : S → Service) (library : E → Option ServiceEvent) (base : S → Prop)
    (allows calls : Service → ServiceEvent → Prop) : Prop where
  start : host m.init = { world := World.start p }
  hosts : ∀ s e e' t, library e = some e' → m.step s e = some t →
    allows (host s) e' ∧ (service p concurrency).step (host s) e' = some (host t)
  calls : ∀ s e t, base s → library e = none → m.step s e = some t →
    (service p concurrency).Run calls (host s) (host t)

namespace Program

/-- The receive side of socket `j` does not end. -/
def lasts {S E : Type} (host : S → Service) (library : E → Option ServiceEvent) (j : ObjectId) (s : S)
    (e : E) : Prop :=
  ∀ e', e' ∈ library e → Service.permits j View.lasting (host s) e'

instance {S E : Type} (host : S → Service) (library : E → Option ServiceEvent) (j : ObjectId) :
    DecidableRel (lasts host library j) := fun s e =>
  inferInstanceAs (Decidable (∀ e', e' ∈ library e → Service.permits j View.lasting (host s) e'))

section

variable {p : Platform} {concurrency : Nat} {S E : Type} {m : Machine S E} {host : S → Service}
  {library : E → Option ServiceEvent} {base : S → Prop} {allows calls : Service → ServiceEvent → Prop}
  {ok : Service → ServiceEvent → Prop} {allowed : S → E → Prop} {s t : S} {e : E} {j : ObjectId}

/-- What a step of a program does to its service. -/
theorem run (h : Program p concurrency m host library base allows calls) (hbase : base s)
    (hcalls : ∀ u e, calls u e → ok u e)
    (hallows : ∀ e', library e = some e' → allows (host s) e' →
      (service p concurrency).step (host s) e' = some (host t) → ok (host s) e')
    (hstep : m.step s e = some t) : (service p concurrency).Run ok (host s) (host t) := by
  cases hlibrary : library e with
  | none => exact (h.calls s e t hbase hlibrary hstep).mono hcalls
  | some e' =>
    obtain ⟨hallowed, hservice⟩ := h.hosts s e e' t hlibrary hstep
    exact .step .refl (hallows e' hlibrary hallowed hservice) hservice

/-- Over its runs the service of a program is an `io_service` whose steps meet what the
    calls of the program meet, and what it allows. -/
theorem reached (h : Program p concurrency m host library base allows calls)
    (hbase : ∀ s, m.Reachable allowed s → base s) (hcalls : ∀ u e, calls u e → ok u e)
    (hallows : ∀ s e e' t, m.Reachable allowed s → allowed s e → library e = some e' →
      allows (host s) e' → (service p concurrency).step (host s) e' = some t → ok (host s) e')
    (hreach : m.Reachable allowed s) : (service p concurrency).Reachable ok (host s) := by
  refine Machine.Run.invariant (P := fun s => (service p concurrency).Reachable ok (host s)) hreach ?_ ?_
  · rw [h.start]
    exact .refl
  · intro s e t hs hreached hallowed hstep
    refine Machine.Run.trans hreached (h.run (hbase s hs) hcalls (fun e' hlibrary hallows' => ?_) hstep)
    exact hallows s e e' _ hs hallowed hlibrary hallows'

/-- A program with one connection whose receive side does not end. -/
theorem lasted (h : Program p concurrency m host library base allows calls)
    (hbase : ∀ s, m.Reachable allowed s → base s)
    (hcalls : ∀ u e, calls u e →
      Service.permits j View.connected_once u e ∧ Service.permits j View.lasting u e)
    (honce : ∀ s e' t, m.Reachable allowed s → allows (host s) e' →
      (service p concurrency).step (host s) e' = some t →
        Service.permits j View.connected_once (host s) e')
    (hlasts : ∀ s e, allowed s e → lasts host library j s e) (hreach : m.Reachable allowed s) :
    (service p concurrency).Reachable (Service.permits j View.one_connection) (host s) := by
  have hboth : ∀ {u e}, Service.permits j View.connected_once u e →
      Service.permits j View.lasting u e → Service.permits j View.one_connection u e := by
    intro u e honce hlasting
    cases e with
    | process e k => exact World.permits_one_connection honce hlasting
    | stop | cancelled => trivial
  refine h.reached hbase (fun u e hcall => hboth (hcalls u e hcall).1 (hcalls u e hcall).2) ?_ hreach
  intro s e e' t hs hallowed hlibrary hallows hservice
  exact hboth (honce s e' t hs hallows hservice) (hlasts s e hallowed e' hlibrary)

end

section

/-! Programs that make no socket active by a call. -/

variable {p : Platform} {concurrency : Nat} {S E : Type} {m : Machine S E} {host : S → Service}
  {library : E → Option ServiceEvent} {allowed : S → E → Prop} {s t : S} {e : E} {j : ObjectId}
  (h : Program p concurrency m host library (fun _ => True) Service.accepts_only Service.called)

include h

theorem accepts_run (hstep : m.step s e = some t) :
    (service p concurrency).Run Service.accepts_only (host s) (host t) := by
  refine h.run trivial (fun u e hcall => ?_) (fun _ _ hallows _ => hallows) hstep
  cases e with
  | process e k => exact Event.by_callback_activates hcall
  | stop | cancelled => trivial

theorem accepts_reached (hreach : m.Reachable allowed s) :
    (service p concurrency).Reachable Service.accepts_only (host s) := by
  refine Machine.Run.invariant (P := fun s => (service p concurrency).Reachable Service.accepts_only (host s))
    hreach ?_ fun s e t _ hs _ hstep => Machine.Run.trans hs (h.accepts_run hstep)
  rw [h.start]
  exact .refl

theorem accepts_lasted (hlasts : ∀ s e, allowed s e → lasts host library j s e)
    (hreach : m.Reachable allowed s) :
    (service p concurrency).Reachable (Service.permits j View.one_connection) (host s) := by
  refine h.lasted (fun _ _ => trivial) (fun u e hcall => ?_) (fun s e t hs hallows hservice => ?_)
    hlasts hreach
  · cases e with
    | process e k =>
      exact ⟨Event.by_callback_permits hcall,
        World.permits_lasting (Event.by_callback_ne_complete hcall)⟩
    | stop | cancelled => cases hcall
  · obtain ⟨_, hcalled⟩ := Service.accepts_only_permits (h.accepts_reached hs) j
    cases e with
    | process e k => exact World.permits_accepted hcalled (hallows j) (Service.process_spec hservice).2.1
    | stop | cancelled => trivial

end

end Program

end rioring
