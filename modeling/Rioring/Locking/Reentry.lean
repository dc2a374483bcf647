import Rioring.Locking.Callbacks

namespace rioring

/-- Whether a call acquires the lock of the socket. -/
def Call.locks (w : World) (i : ObjectId) : Call → Bool
  | .send _ _ => (w.sockets i).any fun s => s.connected_flag && !s.shutdown_gracefully
  | .send_to .. => true
  | .close .graceful _ => true
  | .close .force _ => false

namespace World

variable {w w' : World} {i : ObjectId} {c : Call} {ops : List Op}

theorem enter_head (henter : w.enter i c = some (w', ops)) (l : ObjectId) :
    ops.head? = some (.lock l) ↔ l = i ∧ c.locks w i = true := by
  have hlock : ∀ rest : List Op,
      ((.lock i :: rest : List Op).head? = some (.lock l) ↔ l = i ∧ true = true) := by
    intro rest
    simp [eq_comm]
  cases c with
  | send bytes sqe =>
    obtain ⟨s, hs, henter⟩ := Option.bind_eq_some_iff.mp henter
    obtain ⟨hs, _⟩ := Option.filter_eq_some_iff.mp hs
    rw [Call.locks, hs, Option.any_some]
    rw [TcpSocket.send] at henter
    cases hgraceful : s.shutdown_gracefully with
    | true =>
      simp only [hgraceful, ↓reduceIte, Bool.false_eq_true] at henter
      cases henter
      simp
    | false =>
      cases hflag : s.connected_flag with
      | true =>
        simp only [hgraceful, hflag, ↓reduceIte, Bool.false_eq_true, Bool.not_true] at henter
        cases henter
        exact hlock _
      | false =>
        simp only [hgraceful, hflag, ↓reduceIte, Bool.false_eq_true, Bool.not_false] at henter
        cases henter
        simp
  | send_to bytes addr sqe =>
    obtain ⟨s, _, henter⟩ := Option.bind_eq_some_iff.mp henter
    cases henter
    exact hlock _
  | close type sqe =>
    cases type with
    | graceful =>
      obtain ⟨s, _, henter⟩ := Option.bind_eq_some_iff.mp henter
      cases henter
      exact hlock _
    | force =>
      obtain ⟨s, _, henter⟩ := Option.bind_eq_some_iff.mp henter
      cases henter
      simp [Call.locks]

/-- What a call enters may be done under the lock. -/
theorem enter_acts (henter : w.enter i c = some (w', ops)) {a : Act} (ha : .act a ∈ ops) :
    a.under_lock = true := by
  cases c with
  | send bytes sqe =>
    obtain ⟨s, _, henter⟩ := Option.bind_eq_some_iff.mp henter
    cases hsend : TcpSocket.send w i s bytes with
    | mk passed w₁ =>
      rw [hsend] at henter
      cases henter
      cases passed with
      | true =>
        simp only [↓reduceIte, List.mem_cons, reduceCtorEq, Mutex.Op.act.injEq, List.not_mem_nil,
          or_false, false_or] at ha
        rw [ha]
        rfl
      | false => cases ha
  | send_to bytes addr sqe =>
    obtain ⟨s, _, henter⟩ := Option.bind_eq_some_iff.mp henter
    cases henter
    simp only [List.mem_cons, reduceCtorEq, Mutex.Op.act.injEq, List.not_mem_nil,
      or_false, false_or] at ha
    rw [ha]
    rfl
  | close type sqe =>
    cases type <;>
    · obtain ⟨s, _, henter⟩ := Option.bind_eq_some_iff.mp henter
      cases henter
      simp only [List.mem_cons, reduceCtorEq, Mutex.Op.act.injEq, List.not_mem_nil,
        or_false, false_or] at ha
      rw [ha]
      rfl

/-- Before its lock, a call is at most the guard of `send`. -/
theorem enter_reached {p : Platform} (hreach : (machine p).Reachable Machine.Any w)
    (henter : w.enter i c = some (w', ops)) : (machine p).Reachable Machine.Any w' := by
  cases c with
  | send bytes sqe =>
    obtain ⟨s, hs, henter⟩ := Option.bind_eq_some_iff.mp henter
    cases hsend : TcpSocket.send w i s bytes with
    | mk passed w₁ =>
      rw [hsend] at henter
      cases henter
      have hstep : (machine p).step w (.send i bytes) = some w' := by
        change w.step p (.send i bytes) = some w'
        rw [step, hs]
        change some (TcpSocket.send w i s bytes).2 = _
        rw [hsend]
      exact .step hreach trivial hstep
  | send_to bytes addr sqe =>
    obtain ⟨s, _, henter⟩ := Option.bind_eq_some_iff.mp henter
    cases henter
    exact hreach
  | close type sqe =>
    cases type <;>
    · obtain ⟨s, _, henter⟩ := Option.bind_eq_some_iff.mp henter
      cases henter
      exact hreach

end World

namespace Threads

variable {p : Platform} {s s' : Threads} {e : ThreadEvent}

/-- What every run keeps: the process is one that its steps can reach, and in
    front of a release stands only what may be done under the lock. -/
structure Sound (p : Platform) (s : Threads) : Prop where
  reached : (machine p).Reachable Machine.Any s.world
  mutex : s.mutex.Sound
  guards : ∀ t, (s.mutex.code t).Pairwise Guards

theorem Sound.start : Sound p { world := World.start p } :=
  ⟨.refl, .start, fun _ => .nil⟩

theorem Does.mutex (hdoes : s.Does p e s') : ∃ t, s.mutex.Step t s'.mutex := by
  cases hdoes with
  | begin hcode htask => exact ⟨_, .begin hcode (World.task_lawful htask).locks⟩
  | lock hcode hfree => exact ⟨_, .lock hcode hfree⟩
  | unlock hcode => exact ⟨_, .unlock hcode⟩
  | call hcode henter => exact ⟨_, .act hcode (World.enter_lawful henter).locks⟩
  | act hcode => exact ⟨_, .act hcode (World.callback_code_lawful _).locks⟩

theorem Sound.reaches (hsound : s.Sound p) (hdoes : s.Does p e s') :
    (machine p).Reachable Machine.Any s'.world := by
  cases hdoes with
  | begin | lock | unlock => exact hsound.reached
  | call hcode henter => exact World.enter_reached hsound.reached henter
  | act hcode hevent hstep => exact .step hsound.reached trivial hstep

/-- New code for one thread keeps the order of every thread's. -/
theorem guards_set_code {m : Mutex Nat ObjectId Act} {t : Nat} {ops : List Op}
    (hguards : ∀ u, (m.code u).Pairwise Guards) (hops : ops.Pairwise Guards) (u : Nat) :
    ((m.set_code t ops).code u).Pairwise Guards := by
  by_cases hu : u = t
  · subst u
    rw [Mutex.set_code_code, Function.update_self]
    exact hops
  · rw [Mutex.set_code_code, Function.update_of_ne hu]
    exact hguards u

theorem Sound.does (hsound : s.Sound p) (hdoes : s.Does p e s') : s'.Sound p := by
  obtain ⟨u, hmutex⟩ := hdoes.mutex
  refine ⟨hsound.reaches hdoes, hsound.mutex.step hmutex, ?_⟩
  have hrest : ∀ {t op rest}, s.mutex.code t = op :: rest →
      (∀ b ∈ rest, Guards op b) ∧ rest.Pairwise Guards := by
    intro t op rest hcode
    exact List.pairwise_cons.mp (hcode ▸ hsound.guards t)
  cases hdoes with
  | begin hcode htask => exact guards_set_code hsound.guards (World.task_lawful htask).guards
  | lock hcode hfree =>
    exact guards_set_code (m := s.mutex.set_holder _ _) hsound.guards (hrest hcode).2
  | unlock hcode =>
    exact guards_set_code (m := s.mutex.set_holder _ _) hsound.guards (hrest hcode).2
  | call hcode henter =>
    refine guards_set_code hsound.guards (List.pairwise_append.mpr
      ⟨(World.enter_lawful henter).guards, (hrest hcode).2, ?_⟩)
    rintro op hop b _ i a _ rfl
    exact World.enter_acts henter hop
  | act hcode hevent hstep =>
    rename_i t bodies a e rest world
    refine guards_set_code hsound.guards (List.pairwise_append.mpr
      ⟨(World.callback_code_lawful _).guards, (hrest hcode).2, ?_⟩)
    rintro op hop b hb i a' rfl rfl
    obtain ⟨x, hx, c, hcall⟩ := World.mem_callback_code hop
    cases hcall
    have ha : a.under_lock = true := (hrest hcode).1 _ hb i a rfl rfl
    exact World.Wf.act_called (.reachable hsound.reached) ha hevent hstep hx

/-- No thread waits for a lock that it holds itself. -/
def Unblocked (s : Threads) : Prop := ∀ t i, ¬ s.mutex.Blocked t i

/-- The thread is about to enter a call that acquires a lock it holds. -/
def reenters (s : Threads) (t : Nat) : Bool :=
  match s.mutex.code t with
  | .act (.call _ i c) :: _ => s.mutex.holder i == some t && c.locks s.world i
  | _ => false

/-- A call that a thread enters while it holds the lock of the socket does not
    acquire it. -/
def yields (s : Threads) : ThreadEvent → Prop
  | .begin .. => True
  | .run t _ => s.reenters t = false

instance : DecidableRel yields := fun s e =>
  match e with
  | .begin .. => .isTrue trivial
  | .run t _ => inferInstanceAs (Decidable (s.reenters t = false))

theorem Sound.unblocked_iff (hsound : s.Sound p) (hfree : s.Unblocked) (hdoes : s.Does p e s') :
    s'.Unblocked ↔ s.yields e := by
  have hrest : ∀ {t op rest}, s.mutex.code t = op :: rest → ∀ l, .lock l ∉ rest := by
    intro t op rest hcode
    have hscoped := hcode ▸ hsound.mutex.code t
    exact hscoped.front
  cases hdoes with
  | begin hcode htask =>
    rename_i t task ops
    refine iff_of_true ?_ trivial
    have henters : (∀ u l, ¬ (s.mutex.set_code t (ops ++ [])).Blocked u l) ↔
        ∀ l, ops.head? = some (.lock l) → s.mutex.holder l ≠ some t :=
      Mutex.enters_iff hfree (by simp)
    rw [List.append_nil] at henters
    refine henters.mpr fun l _ hholder => ?_
    have hheld := hsound.mutex.held t l hholder
    rw [hcode] at hheld
    cases hheld
  | lock hcode hlock =>
    refine iff_of_true (fun u k => hsound.mutex.passes hfree hcode (.inr rfl) u k) ?_
    rw [yields, reenters, hcode]
  | unlock hcode =>
    refine iff_of_true (fun u k => hsound.mutex.passes hfree hcode (.inl rfl) u k) ?_
    rw [yields, reenters, hcode]
  | call hcode henter =>
    rename_i t bodies origin i c rest ops world
    refine (Mutex.enters_iff hfree (hrest hcode)).trans ?_
    rw [yields, reenters, hcode]
    simp only [World.enter_head henter, Bool.and_eq_false_iff, beq_eq_false_iff_ne]
    constructor
    · intro hall
      by_cases hlocks : c.locks s.world i = true
      · exact .inl (hall i ⟨rfl, hlocks⟩)
      · exact .inr (by simpa using hlocks)
    · rintro (hholder | hlocks) l ⟨rfl, htrue⟩
      · exact hholder
      · rw [hlocks] at htrue
        cases htrue
  | act hcode hevent hstep =>
    rename_i t bodies a e rest world
    refine iff_of_true ((Mutex.enters_iff hfree (hrest hcode)).mpr fun l hl _ => ?_) ?_
    · obtain ⟨x, _, c, hcall⟩ := World.mem_callback_code (List.mem_of_head? hl)
      cases hcall
    · rw [yields, reenters, hcode]
      cases a with
      | call => cases hevent
      | _ => rfl

end Threads

open Threads

variable {p : Platform} {s : Threads}

theorem sound_of_reachable {allowed : Threads → ThreadEvent → Prop}
    (hreach : (threads p).Reachable allowed s) : s.Sound p := by
  refine Machine.Run.invariant (P := Threads.Sound p) hreach Threads.Sound.start ?_
  intro s e s' _ hsound _ hstep
  exact hsound.does (step_does hstep)

/-- What a thread enters while it holds a lock, it enters from a send-complete
    or an error callback. -/
theorem callbacks_under_lock {allowed : Threads → ThreadEvent → Prop}
    (hreach : (threads p).Reachable allowed s) {t : Nat} {i j : ObjectId}
    {origin : Option Callback} {c : Call} {rest : List Op}
    (hcode : s.mutex.code t = .act (.call origin i c) :: rest) (hholder : s.mutex.holder j = some t) :
    origin = some .send_complete ∨ ∃ code, origin = some (.error code) := by
  have hsound := sound_of_reachable hreach
  have hheld := hsound.mutex.held t j hholder
  rw [hcode] at hheld
  have hunlock : .unlock j ∈ rest := by simpa using hheld
  have hguards := (List.pairwise_cons.mp (hcode ▸ hsound.guards t)).1
  have hunder : origin.any (·.under_lock) = true := hguards _ hunlock j _ rfl rfl
  obtain ⟨callback, rfl, hcallback⟩ := (Option.any_eq_true _ _).mp hunder
  cases callback with
  | send_complete => exact .inl rfl
  | error code => exact .inr ⟨code, rfl⟩
  | _ => cases hcallback

/-- In a run whose callbacks yield, no thread ever waits for itself, and the
    first call that does not yield makes its thread do so. Under a lock only
    send-complete and error callbacks run. -/
theorem callbacks_never_wait (hreach : (threads p).Reachable Threads.yields s) :
    s.Unblocked ∧ (∀ e s', (threads p).step s e = some s' → (s'.Unblocked ↔ s.yields e)) ∧
      ∀ t i j origin c rest, s.mutex.code t = .act (.call origin i c) :: rest →
        s.mutex.holder j = some t →
          origin = some .send_complete ∨ ∃ code, origin = some (.error code) := by
  have hexact : ∀ s : Threads, s.Sound p → s.Unblocked → ∀ e s', (threads p).step s e = some s' →
      (s'.Unblocked ↔ s.yields e) := by
    intro s hsound hfree e s' hstep
    exact hsound.unblocked_iff hfree (step_does hstep)
  have hfree : s.Unblocked := by
    refine Machine.Run.invariant (P := Threads.Unblocked) hreach ?_ ?_
    · rintro t i ⟨hcode, _⟩
      cases hcode
    · intro s e s' hrun hfree hyields hstep
      exact (hexact s (sound_of_reachable hrun) hfree e s' hstep).mpr hyields
  refine ⟨hfree, hexact s (sound_of_reachable hreach) hfree, ?_⟩
  intro t i j origin c rest hcode hholder
  exact callbacks_under_lock hreach hcode hholder

/-- One byte is sent by thread 0, and thread 1 takes up its completion, whose
    send-complete callback does `body`. -/
def send_completes (body : List Call) : List ThreadEvent := [
  .begin 0 (.step .create_tcp), .run 0 fun _ _ => [],
  .begin 0 (.step (.set_event 1 .send_complete true)), .run 0 fun _ _ => [],
  .begin 0 (.step (.connect 1 [⟨7, true⟩] true)), .run 0 fun _ _ => [],
  .begin 0 (.call 1 (.send one_byte true)), .run 0 fun _ _ => [],
  .run 0 fun _ _ => [], .run 0 fun _ _ => [], .run 0 fun _ _ => [],
  .begin 1 (.handle 1 { res := 1 } true true true),
  .run 1 fun _ _ => [], .run 1 fun _ _ => body, .run 1 fun _ _ => []]

/-- The callback forces the socket shut. -/
theorem callbacks_never_wait_forced_close : ∃ s,
    (threads .small).Reachable Threads.yields s ∧ s.mutex.holder 1 = some 1 ∧
      (s.world.history 1).callbacks = [.send_complete] ∧
      s.Unblocked ∧ (∀ e s', (threads .small).step s e = some s' → (s'.Unblocked ↔ s.yields e)) ∧
      ∀ t i j origin c rest, s.mutex.code t = .act (.call origin i c) :: rest →
        s.mutex.holder j = some t →
          origin = some .send_complete ∨ ∃ code, origin = some (.error code) := by
  obtain ⟨s, hreach, hs⟩ := Machine.reachable_of_exec (threads .small) Threads.yields
    (send_completes [.close .force true])
    (fun s => s.mutex.holder 1 == some 1 && (s.world.history 1).callbacks == [.send_complete])
    (by decide +kernel)
  simp only [Bool.and_eq_true, beq_iff_eq] at hs
  exact ⟨s, hreach, hs.1, hs.2, callbacks_never_wait hreach⟩

/-- The callback sends again. -/
theorem callback_waits : ¬ ∀ p s, (threads p).Reachable Machine.Any s →
    ∀ t i, ¬ s.mutex.Blocked t i := by
  intro hall
  obtain ⟨s, hreach, hs⟩ := Machine.reachable_of_exec (threads .small) Machine.Any
    (send_completes [.send one_byte true])
    (fun s => s.mutex.holder 1 == some 1 && (match s.mutex.code 1 with
      | .lock i :: _ => i == 1
      | _ => false))
    (by decide +kernel)
  simp only [Bool.and_eq_true, beq_iff_eq] at hs
  obtain ⟨hholder, hcode⟩ := hs
  apply hall .small s hreach 1 1
  refine ⟨?_, hholder⟩
  split at hcode
  · rename_i i rest heq
    rw [heq, beq_iff_eq.mp hcode]
    rfl
  · cases hcode

end rioring
