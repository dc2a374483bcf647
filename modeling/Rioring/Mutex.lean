import Mathlib

/-! Threads that share non-recursive locks. -/

/-- One operation of a thread: on the lock `l`, or an action of its own. -/
inductive Mutex.Op (L A : Type) where
  | lock (l : L)
  | unlock (l : L)
  | act (a : A)
  deriving DecidableEq

/-- Who holds each lock, and what each thread still has to do. -/
structure Mutex (T L A : Type) where
  holder : L → Option T := fun _ => none
  code : T → List (Mutex.Op L A) := fun _ => []

namespace Mutex

variable {T L A : Type}

/-- Code that acquires a lock at once or not at all, and releases it. -/
structure Scoped (ops : List (Op L A)) : Prop where
  front : ∀ l, .lock l ∉ ops.tail
  closed : ∀ l, .lock l ∈ ops → .unlock l ∈ ops

theorem Scoped.of_free {ops : List (Op L A)} (hfree : ∀ l, .lock l ∉ ops) : Scoped ops :=
  ⟨fun l hmem => hfree l (List.mem_of_mem_tail hmem), fun l hmem => absurd hmem (hfree l)⟩

theorem Scoped.append {ops rest : List (Op L A)} (hscoped : Scoped ops)
    (hrest : ∀ l, .lock l ∉ rest) : Scoped (ops ++ rest) := by
  refine ⟨fun l hmem => ?_, fun l hmem => ?_⟩
  · cases ops with
    | nil => exact hrest l (List.mem_of_mem_tail hmem)
    | cons op ops =>
      rw [List.cons_append, List.tail_cons, List.mem_append] at hmem
      exact hmem.elim (hscoped.front l) (hrest l)
  · rcases List.mem_append.mp hmem with hops | htail
    · exact List.mem_append_left _ (hscoped.closed l hops)
    · exact absurd htail (hrest l)

/-- The thread is about to acquire a lock that it holds: it waits for itself. -/
def Blocked (m : Mutex T L A) (t : T) (l : L) : Prop :=
  (m.code t).head? = some (.lock l) ∧ m.holder l = some t

/-- Only a thread's next operation may be an acquisition, and a thread that
    holds a lock will release it. -/
structure Sound (m : Mutex T L A) : Prop where
  code : ∀ t, Scoped (m.code t)
  held : ∀ t l, m.holder l = some t → .unlock l ∈ m.code t

theorem Sound.start : ({} : Mutex T L A).Sound := by
  refine ⟨fun t => .of_free fun l hmem => ?_, fun t l hl => ?_⟩
  · cases hmem
  · cases hl

variable [DecidableEq T] {m m' : Mutex T L A} {t : T}

@[simps]
def set_code (m : Mutex T L A) (t : T) (ops : List (Op L A)) : Mutex T L A :=
  { m with code := Function.update m.code t ops }

/-- New code for a thread, which still releases the locks that the thread holds. -/
theorem Sound.set_code {ops : List (Op L A)} (hsound : m.Sound) (hscoped : Scoped ops)
    (hheld : ∀ l, m.holder l = some t → .unlock l ∈ ops) : (m.set_code t ops).Sound := by
  refine ⟨fun u => ?_, fun u l hl => ?_⟩
  · by_cases hu : u = t
    · subst u
      rw [set_code_code, Function.update_self]
      exact hscoped
    · rw [set_code_code, Function.update_of_ne hu]
      exact hsound.code u
  · by_cases hu : u = t
    · subst u
      rw [set_code_code, Function.update_self]
      exact hheld l hl
    · rw [set_code_code, Function.update_of_ne hu]
      exact hsound.held u l hl

/-- When a thread enters code behind an action, or begins it, nobody waits for
    himself as before, exactly if it does not at once acquire a lock it holds. -/
theorem enters_iff {ops rest : List (Op L A)} (hfree : ∀ u l, ¬ m.Blocked u l)
    (hrest : ∀ l, .lock l ∉ rest) : (∀ u l, ¬ (m.set_code t (ops ++ rest)).Blocked u l) ↔
      ∀ l, ops.head? = some (.lock l) → m.holder l ≠ some t := by
  have hhead : ∀ l, (ops ++ rest).head? = some (.lock l) ↔ ops.head? = some (.lock l) := by
    intro l
    cases ops with
    | nil =>
      refine ⟨fun h => ?_, fun h => by cases h⟩
      exact absurd (List.mem_of_head? h) (hrest l)
    | cons op ops => rfl
  constructor
  · intro hall l hl hholder
    apply hall t l
    refine ⟨?_, hholder⟩
    rw [set_code_code, Function.update_self]
    exact (hhead l).mpr hl
  · rintro hall u l ⟨hcode, hholder⟩
    by_cases hu : u = t
    · subst u
      rw [set_code_code, Function.update_self, hhead] at hcode
      exact hall l hcode hholder
    · rw [set_code_code, Function.update_of_ne hu] at hcode
      exact hfree u l ⟨hcode, hholder⟩

variable [DecidableEq L]

@[simps]
def set_holder (m : Mutex T L A) (l : L) (holder : Option T) : Mutex T L A :=
  { m with holder := Function.update m.holder l holder }

/-- A thread is scheduled for its next operation; an action may call further
    code, which runs first. An idle thread may begin anything. -/
inductive Step (m : Mutex T L A) (t : T) : Mutex T L A → Prop where
  | lock {l : L} {rest : List (Op L A)} (hcode : m.code t = .lock l :: rest)
      (hfree : m.holder l = none) : Step m t ((m.set_holder l (some t)).set_code t rest)
  | unlock {l : L} {rest : List (Op L A)} (hcode : m.code t = .unlock l :: rest) :
      Step m t ((m.set_holder l none).set_code t rest)
  | act {a : A} {rest ops : List (Op L A)} (hcode : m.code t = .act a :: rest)
      (hops : Scoped ops) : Step m t (m.set_code t (ops ++ rest))
  | begin {ops : List (Op L A)} (hcode : m.code t = []) (hops : Scoped ops) :
      Step m t (m.set_code t ops)

theorem Sound.step (hsound : m.Sound) (hstep : m.Step t m') : m'.Sound := by
  cases hstep with
  | lock hcode hfree =>
    rename_i l rest
    have hscoped := hcode ▸ hsound.code t
    refine ⟨fun u => ?_, fun u k hk => ?_⟩
    · by_cases hu : u = t
      · subst u
        simpa using Scoped.of_free hscoped.front
      · simpa [hu] using hsound.code u
    · by_cases hkl : k = l
      · subst k
        obtain rfl : t = u := by simpa using hk
        have hmem := hscoped.closed l List.mem_cons_self
        simpa using hmem
      · have hk' : m.holder k = some u := by simpa [hkl] using hk
        have hmem := hsound.held u k hk'
        by_cases hu : u = t
        · subst u
          rw [hcode] at hmem
          simpa using hmem
        · simpa [hu] using hmem
  | unlock hcode =>
    rename_i l rest
    have hscoped := hcode ▸ hsound.code t
    refine ⟨fun u => ?_, fun u k hk => ?_⟩
    · by_cases hu : u = t
      · subst u
        simpa using Scoped.of_free hscoped.front
      · simpa [hu] using hsound.code u
    · have hkl : k ≠ l := by
        rintro rfl
        simp at hk
      have hk' : m.holder k = some u := by simpa [hkl] using hk
      have hmem := hsound.held u k hk'
      by_cases hu : u = t
      · subst u
        rw [hcode] at hmem
        simpa [hkl] using hmem
      · simpa [hu] using hmem
  | act hcode hops =>
    have hscoped := hcode ▸ hsound.code t
    refine hsound.set_code (hops.append hscoped.front) fun l hl => ?_
    have hmem := hsound.held t l hl
    rw [hcode] at hmem
    exact List.mem_append_right _ (by simpa using hmem)
  | begin hcode hops =>
    refine hsound.set_code hops fun l hl => ?_
    have hmem := hsound.held t l hl
    rw [hcode] at hmem
    cases hmem

/-- Neither an acquisition that goes through nor a release makes a thread wait
    for itself. -/
theorem Sound.passes {op : Op L A} {rest : List (Op L A)} {l : L} {holder : Option T}
    (hsound : m.Sound) (hfree : ∀ u k, ¬ m.Blocked u k) (hcode : m.code t = op :: rest)
    (hholder : holder = none ∨ holder = some t) (u : T) (k : L) :
    ¬ ((m.set_holder l holder).set_code t rest).Blocked u k := by
  rintro ⟨hhead, hk⟩
  have hscoped := hcode ▸ hsound.code t
  by_cases hu : u = t
  · subst u
    rw [set_code_code, Function.update_self] at hhead
    exact hscoped.front k (List.mem_of_head? hhead)
  · have hhead' : (m.code u).head? = some (.lock k) := by simpa [hu] using hhead
    refine hfree u k ⟨hhead', ?_⟩
    by_cases hkl : k = l
    · subst k
      have hsome : holder = some u := by simpa using hk
      rcases hholder with rfl | rfl
      · cases hsome
      · exact absurd (Option.some.inj hsome).symm hu
    · simpa [hkl] using hk

end Mutex
