import Rioring.Transition

/-! Records that go round. They wait in a pool, are taken from it and handed out,
come back and are used, and go into the pool again; a record is made when one is
taken and none is waiting. -/

/-- `made` records exist, and `records` is what each of them holds. One that was
    taken and not handed out is in none of the three lists. -/
structure Custody (R : Type) where
  records : Nat → R
  made : Nat
  pool : List Nat
  out : List Nat
  used : List Nat

namespace Custody

variable {R : Type} {blank : R} {clear : R → R} {s t : Custody R} {k : Nat}

def held (s : Custody R) : List Nat := s.pool ++ (s.out ++ s.used)

/-- The record that is taken next, and what it holds then. -/
def next (blank : R) (s : Custody R) : Nat × R :=
  match s.pool with
  | k :: _ => (k, s.records k)
  | [] => (s.made, blank)

def take (blank : R) (s : Custody R) (fill : R → R) : Custody R :=
  { s with
    records := Function.update s.records (s.next blank).1 (fill (s.next blank).2)
    made := if s.pool = [] then s.made + 1 else s.made
    pool := s.pool.tail }

def hand_out (s : Custody R) (k : Nat) : Custody R := { s with out := s.out ++ [k] }

def come_back (s : Custody R) (k : Nat) (result : R → R) : Custody R :=
  { s with
    records := Function.update s.records k (result (s.records k))
    out := s.out.erase k
    used := s.used ++ [k] }

def give_back (clear : R → R) (s : Custody R) (k : Nat) : Custody R :=
  { s with
    records := Function.update s.records k (clear (s.records k))
    used := s.used.erase k
    pool := s.pool ++ [k] }

/-- What can happen to the records. `lose` takes one and does not hand it out. -/
inductive Move (R : Type) where
  | submit (fill : R → R)
  | lose (fill : R → R)
  | complete (k : Nat) (result : R → R)
  | release (k : Nat)

def step (blank : R) (clear : R → R) (s : Custody R) : Move R → Option (Custody R)
  | .submit fill => some ((s.take blank fill).hand_out (s.next blank).1)
  | .lose fill => some (s.take blank fill)
  | .complete k result => if k ∈ s.out then some (s.come_back k result) else none
  | .release k => if k ∈ s.used then some (s.give_back clear k) else none

/-- Records that begin blank and waiting, and are cleared when they are given back. -/
def machine (blank : R) (clear : R → R) (made : Nat) : Machine (Custody R) (Move R) where
  init := { records := fun _ => blank, made := made, pool := List.range made, out := [], used := [] }
  step := step blank clear

/-- No record is in two places. -/
structure Sound (s : Custody R) : Prop where
  nodup : s.held.Nodup
  made : ∀ k ∈ s.held, k < s.made

theorem Sound.of_perm (hs : s.Sound) (hheld : t.held.Perm s.held) (hmade : t.made = s.made) :
    t.Sound := by
  refine ⟨hheld.nodup_iff.mpr hs.nodup, fun k hk => ?_⟩
  rw [hmade]
  exact hs.made k (hheld.mem_iff.mp hk)

theorem Sound.disjoint (hs : s.Sound) (hk : k ∈ s.used) : k ∉ s.pool ∧ k ∉ s.out := by
  obtain ⟨_, hrest, hpool⟩ := List.nodup_append.mp hs.nodup
  have hout := (List.nodup_append.mp hrest).2.2
  constructor
  · intro hmem
    exact hpool k hmem k (List.mem_append_right _ hk) rfl
  · intro hmem
    exact hout k hmem k hk rfl

/-- Taking a record leaves the others where they are, and it is none of them. -/
theorem Sound.take (hs : s.Sound) (blank : R) (fill : R → R) : (s.take blank fill).Sound ∧
    (s.next blank).1 ∉ (s.take blank fill).held ∧ (s.next blank).1 < (s.take blank fill).made := by
  obtain ⟨hnodup, hmade⟩ := hs
  have hheld : (s.take blank fill).held = s.pool.tail ++ (s.out ++ s.used) := rfl
  have hcount : (s.take blank fill).made = if s.pool = [] then s.made + 1 else s.made := rfl
  have hsub : (s.take blank fill).held.Sublist s.held := by
    rw [hheld]
    exact List.Sublist.append_right (List.tail_sublist _) _
  unfold next
  cases hpool : s.pool with
  | nil =>
    rw [hpool, if_pos rfl] at hcount
    refine ⟨⟨hnodup.sublist hsub, fun k hk => ?_⟩, fun hmem => ?_, ?_⟩
    · have hlt := hmade k (hsub.subset hk)
      omega
    · exact lt_irrefl _ (hmade _ (hsub.subset hmem))
    · change s.made < _
      omega
  | cons k rest =>
    rw [hpool, if_neg (by simp)] at hcount
    have hk : k ∈ s.held := by simp [held, hpool]
    rw [held, hpool, List.cons_append] at hnodup
    rw [hpool, List.tail_cons] at hheld
    refine ⟨⟨?_, fun j hj => ?_⟩, ?_, ?_⟩
    · rw [hheld]
      exact (List.nodup_cons.mp hnodup).2
    · rw [hcount]
      exact hmade j (hsub.subset hj)
    · rw [hheld]
      exact (List.nodup_cons.mp hnodup).1
    · rw [hcount]
      exact hmade k hk

theorem Sound.next_free (hs : s.Sound) (blank : R) :
    (s.next blank).1 ∉ s.out ∧ (s.next blank).1 ∉ s.used := by
  have hfree := (hs.take blank id).2.1
  have hheld : (s.take blank id).held = s.pool.tail ++ (s.out ++ s.used) := rfl
  rw [hheld, List.mem_append, List.mem_append, not_or, not_or] at hfree
  exact hfree.2

theorem held_hand_out (s : Custody R) (k : Nat) : (s.hand_out k).held.Perm (k :: s.held) := by
  have hheld : (s.hand_out k).held = (s.pool ++ s.out) ++ k :: s.used := by
    simp [held, hand_out]
  rw [hheld, held, ← List.append_assoc]
  exact List.perm_middle

theorem Sound.hand_out (hs : s.Sound) (hfree : k ∉ s.held) (hmade : k < s.made) :
    (s.hand_out k).Sound := by
  refine ⟨(held_hand_out s k).nodup_iff.mpr (List.nodup_cons.mpr ⟨hfree, hs.nodup⟩), fun j hj => ?_⟩
  rcases List.mem_cons.mp ((held_hand_out s k).mem_iff.mp hj) with rfl | hj
  · exact hmade
  · exact hs.made j hj

theorem held_come_back (hk : k ∈ s.out) (result : R → R) :
    (s.come_back k result).held.Perm s.held := by
  have hout : (s.out.erase k ++ (s.used ++ [k])).Perm (s.out ++ s.used) := by
    rw [← List.append_assoc]
    refine List.perm_append_comm.trans ?_
    exact List.Perm.append_right s.used (List.perm_cons_erase hk).symm
  exact List.Perm.append_left s.pool hout

theorem held_give_back (clear : R → R) (hk : k ∈ s.used) : (s.give_back clear k).held.Perm s.held := by
  have hheld : (s.give_back clear k).held = s.pool ++ k :: (s.out ++ s.used.erase k) := by
    simp [held, give_back]
  rw [hheld]
  apply List.Perm.append_left
  exact List.perm_middle.symm.trans (List.Perm.append_left s.out (List.perm_cons_erase hk).symm)

/-- Every move keeps each record in one place. -/
theorem Sound.step (hs : s.Sound) {m : Move R} (hstep : step blank clear s m = some t) : t.Sound := by
  cases m with
  | submit fill =>
    cases hstep
    obtain ⟨htake, hfree, hmade⟩ := hs.take blank fill
    exact htake.hand_out hfree hmade
  | lose fill =>
    cases hstep
    exact (hs.take blank fill).1
  | complete k result =>
    rw [Custody.step] at hstep
    split at hstep
    · rename_i hk
      cases hstep
      exact hs.of_perm (held_come_back hk result) rfl
    · cases hstep
  | release k =>
    rw [Custody.step] at hstep
    split at hstep
    · rename_i hk
      cases hstep
      exact hs.of_perm (held_give_back clear hk) rfl
    · cases hstep

/-- A record in use is left as it is until it is given back. -/
theorem Sound.used_kept (hs : s.Sound) (hk : k ∈ s.used) {m : Move R} (hm : m ≠ .release k)
    (hstep : Custody.step blank clear s m = some t) : k ∈ t.used ∧ t.records k = s.records k := by
  have htaken : k ≠ (s.next blank).1 := fun heq => (hs.next_free blank).2 (heq ▸ hk)
  cases m with
  | submit fill =>
    cases hstep
    exact ⟨hk, Function.update_of_ne htaken _ _⟩
  | lose fill =>
    cases hstep
    exact ⟨hk, Function.update_of_ne htaken _ _⟩
  | complete j result =>
    rw [Custody.step] at hstep
    split at hstep
    · rename_i hj
      cases hstep
      have hne : k ≠ j := fun heq => (hs.disjoint hk).2 (heq ▸ hj)
      exact ⟨List.mem_append_left _ hk, Function.update_of_ne hne _ _⟩
    · cases hstep
  | release j =>
    rw [Custody.step] at hstep
    split at hstep
    · cases hstep
      have hne : k ≠ j := fun heq => hm (heq ▸ rfl)
      exact ⟨(List.mem_erase_of_ne hne).mpr hk, Function.update_of_ne hne _ _⟩
    · cases hstep

/-- A record that is out is left as it is until it comes back. -/
theorem Sound.out_kept (hs : s.Sound) (hk : k ∈ s.out) {m : Move R}
    (hm : ∀ result, m ≠ .complete k result) (hstep : Custody.step blank clear s m = some t) :
    k ∈ t.out ∧ t.records k = s.records k := by
  have htaken : k ≠ (s.next blank).1 := fun heq => (hs.next_free blank).1 (heq ▸ hk)
  cases m with
  | submit fill =>
    cases hstep
    exact ⟨List.mem_append_left _ hk, Function.update_of_ne htaken _ _⟩
  | lose fill =>
    cases hstep
    exact ⟨hk, Function.update_of_ne htaken _ _⟩
  | complete j result =>
    rw [Custody.step] at hstep
    split at hstep
    · cases hstep
      have hne : k ≠ j := fun heq => hm result (heq ▸ rfl)
      exact ⟨(List.mem_erase_of_ne hne).mpr hk, Function.update_of_ne hne _ _⟩
    · cases hstep
  | release j =>
    rw [Custody.step] at hstep
    split at hstep
    · rename_i hj
      cases hstep
      have hne : k ≠ j := fun heq => (hs.disjoint hj).2 (heq ▸ hk)
      exact ⟨hk, Function.update_of_ne hne _ _⟩
    · cases hstep

/-- A record is in use only after it came back. -/
theorem used_since {m : Move R} (hm : ∀ result, m ≠ .complete k result)
    (hstep : Custody.step blank clear s m = some t) (hk : k ∈ t.used) : k ∈ s.used := by
  cases m with
  | submit fill =>
    cases hstep
    exact hk
  | lose fill =>
    cases hstep
    exact hk
  | complete j result =>
    rw [Custody.step] at hstep
    split at hstep
    · cases hstep
      rcases List.mem_append.mp hk with hk | hk
      · exact hk
      · exact absurd (List.mem_singleton.mp hk ▸ rfl) (hm result)
    · cases hstep
  | release j =>
    rw [Custody.step] at hstep
    split at hstep
    · cases hstep
      exact List.mem_of_mem_erase hk
    · cases hstep

/-- Every record that was made is in one of the three lists. -/
def Whole (s : Custody R) : Prop := ∀ k < s.made, k ∈ s.held

theorem Whole.step (hs : s.Whole) {m : Move R} (hm : ∀ fill, m ≠ .lose fill)
    (hstep : Custody.step blank clear s m = some t) : t.Whole := by
  cases m with
  | submit fill =>
    cases hstep
    intro k hk
    apply (held_hand_out _ _).mem_iff.mpr
    have hcount : k < if s.pool = [] then s.made + 1 else s.made := hk
    have hheld : (s.take blank fill).held = s.pool.tail ++ (s.out ++ s.used) := rfl
    rw [hheld]
    unfold next
    cases hpool : s.pool with
    | nil =>
      rw [if_pos hpool] at hcount
      rcases Nat.lt_succ_iff_lt_or_eq.mp hcount with hlt | rfl
      · apply List.mem_cons_of_mem
        simpa [held, hpool] using hs k hlt
      · exact List.mem_cons_self
    | cons j rest =>
      rw [if_neg (by simp [hpool])] at hcount
      simpa [held, hpool] using hs k hcount
  | lose fill => exact absurd rfl (hm fill)
  | complete j result =>
    rw [Custody.step] at hstep
    split at hstep
    · rename_i hj
      cases hstep
      exact fun k hk => (held_come_back hj result).mem_iff.mpr (hs k hk)
    · cases hstep
  | release j =>
    rw [Custody.step] at hstep
    split at hstep
    · rename_i hj
      cases hstep
      exact fun k hk => (held_give_back clear hj).mem_iff.mpr (hs k hk)
    · cases hstep

/-- What a cleared record satisfies holds of every record that waits. -/
theorem Sound.pool_kept (hs : s.Sound) {P : R → Prop} (hclear : ∀ r, P (clear r))
    (hpool : ∀ k ∈ s.pool, P (s.records k)) {m : Move R}
    (hstep : Custody.step blank clear s m = some t) : ∀ k ∈ t.pool, P (t.records k) := by
  have htake : ∀ fill, ∀ k ∈ s.pool.tail, P ((s.take blank fill).records k) := by
    intro fill k hk
    have hfree := (hs.take blank fill).2.1
    have hne : k ≠ (s.next blank).1 := fun heq => hfree (heq ▸ List.mem_append_left _ hk)
    have hsame : (s.take blank fill).records k = s.records k := Function.update_of_ne hne _ _
    rw [hsame]
    exact hpool k (List.mem_of_mem_tail hk)
  cases m with
  | submit fill =>
    cases hstep
    exact htake fill
  | lose fill =>
    cases hstep
    exact htake fill
  | complete j result =>
    rw [Custody.step] at hstep
    split at hstep
    · rename_i hj
      cases hstep
      intro k hk
      have hne : k ≠ j := by
        rintro rfl
        exact (List.nodup_append.mp hs.nodup).2.2 k hk k (List.mem_append_left _ hj) rfl
      have hsame : (s.come_back j result).records k = s.records k := Function.update_of_ne hne _ _
      rw [hsame]
      exact hpool k hk
    · cases hstep
  | release j =>
    rw [Custody.step] at hstep
    split at hstep
    · cases hstep
      intro k hk
      have hrecord : (s.give_back clear j).records k =
          Function.update s.records j (clear (s.records j)) k := rfl
      rw [hrecord]
      by_cases heq : k = j
      · subst k
        rw [Function.update_self]
        exact hclear _
      · rw [Function.update_of_ne heq]
        rcases List.mem_append.mp hk with hk | hk
        · exact hpool k hk
        · exact absurd (List.mem_singleton.mp hk) heq
    · cases hstep

/-- A record that was taken and not handed out is in none of the lists any more. -/
theorem lost_kept (hmade : k < s.made) (hlost : k ∉ s.held) {m : Move R}
    (hstep : Custody.step blank clear s m = some t) : k < t.made ∧ k ∉ t.held := by
  have htake : ∀ fill, k < (s.take blank fill).made ∧ k ∉ (s.take blank fill).held ∧
      k ≠ (s.next blank).1 := by
    intro fill
    have hheld : (s.take blank fill).held = s.pool.tail ++ (s.out ++ s.used) := rfl
    have hcount : (s.take blank fill).made = if s.pool = [] then s.made + 1 else s.made := rfl
    refine ⟨?_, fun hmem => ?_, ?_⟩
    · rw [hcount]
      split <;> omega
    · rw [hheld] at hmem
      exact hlost ((List.Sublist.append_right (List.tail_sublist _) _).subset hmem)
    · rintro rfl
      unfold next at hmade hlost
      split at hlost
      · rename_i hpool
        exact hlost (by simp [held, hpool])
      · rename_i hpool
        rw [hpool] at hmade
        exact lt_irrefl _ hmade
  cases m with
  | submit fill =>
    cases hstep
    obtain ⟨hlt, hfree, hne⟩ := htake fill
    refine ⟨hlt, fun hmem => ?_⟩
    rcases List.mem_cons.mp ((held_hand_out _ _).mem_iff.mp hmem) with heq | hmem
    · exact hne heq
    · exact hfree hmem
  | lose fill =>
    cases hstep
    obtain ⟨hlt, hfree, _⟩ := htake fill
    exact ⟨hlt, hfree⟩
  | complete j result =>
    rw [Custody.step] at hstep
    split at hstep
    · rename_i hj
      cases hstep
      exact ⟨hmade, fun hmem => hlost ((held_come_back hj result).mem_iff.mp hmem)⟩
    · cases hstep
  | release j =>
    rw [Custody.step] at hstep
    split at hstep
    · rename_i hj
      cases hstep
      exact ⟨hmade, fun hmem => hlost ((held_give_back clear hj).mem_iff.mp hmem)⟩
    · cases hstep

/-! What someone beside the records knows of one value in each of them. -/

variable {X : Type} {f : R → X} {note : Nat → X}

/-- The notes are right, and say of a record that is not made yet what a blank
    one holds. -/
structure Noted (blank : R) (f : R → X) (note : Nat → X) (s : Custody R) : Prop where
  records : ∀ k, f (s.records k) = note k
  unmade : ∀ k, s.made ≤ k → note k = f blank

/-- Moves that fill in records without touching the value. -/
def Move.Keeps (f : R → X) : Move R → Prop
  | .submit fill | .lose fill => ∀ r, f (fill r) = f r
  | .complete .. => False
  | .release _ => True

theorem Noted.step (hs : s.Noted blank f note) (hclear : ∀ r, f (clear r) = f r) {m : Move R}
    (hm : m.Keeps f) (hstep : Custody.step blank clear s m = some t) : t.Noted blank f note := by
  obtain ⟨hrecords, hunmade⟩ := hs
  have htake : ∀ fill, (∀ r, f (fill r) = f r) → (s.take blank fill).Noted blank f note := by
    intro fill hfill
    have hcount : (s.take blank fill).made = if s.pool = [] then s.made + 1 else s.made := rfl
    have hnext : f (s.next blank).2 = note (s.next blank).1 := by
      unfold next
      split
      · exact hrecords _
      · exact (hunmade _ le_rfl).symm
    refine ⟨fun k => ?_, fun k hk => hunmade k ?_⟩
    · have hrecord : (s.take blank fill).records k =
          Function.update s.records (s.next blank).1 (fill (s.next blank).2) k := rfl
      rw [hrecord]
      by_cases heq : k = (s.next blank).1
      · subst k
        rw [Function.update_self, hfill, hnext]
      · rw [Function.update_of_ne heq, hrecords]
    · rw [hcount] at hk
      split at hk <;> omega
  cases m with
  | submit fill =>
    cases hstep
    exact ⟨(htake fill hm).records, (htake fill hm).unmade⟩
  | lose fill =>
    cases hstep
    exact htake fill hm
  | complete j result => exact hm.elim
  | release j =>
    rw [Custody.step] at hstep
    split at hstep
    · cases hstep
      refine ⟨fun k => ?_, hunmade⟩
      have hrecord : (s.give_back clear j).records k =
          Function.update s.records j (clear (s.records j)) k := rfl
      rw [hrecord]
      by_cases heq : k = j
      · subst k
        rw [Function.update_self, hclear, hrecords]
      · rw [Function.update_of_ne heq, hrecords]
    · cases hstep

/-- A record that comes back may hold another value. -/
theorem Noted.come_back (hs : s.Noted blank f note) (hk : k < s.made) (result : R → R) :
    (s.come_back k result).Noted blank f
      (Function.update note k (f (result (s.records k)))) := by
  obtain ⟨hrecords, hunmade⟩ := hs
  refine ⟨fun j => ?_, fun j hj => ?_⟩
  · have hrecord : (s.come_back k result).records j =
        Function.update s.records k (result (s.records k)) j := rfl
    rw [hrecord]
    by_cases heq : j = k
    · subst j
      rw [Function.update_self, Function.update_self]
    · rw [Function.update_of_ne heq, Function.update_of_ne heq, hrecords]
  · have hmade : s.made ≤ j := hj
    rw [Function.update_of_ne (by omega)]
    exact hunmade j hmade

/-- Nothing that is handed out or in use is taken. -/
def TakesFree (blank : R) (s : Custody R) : Move R → Prop
  | .submit _ | .lose _ => (s.next blank).1 ∉ s.out ∧ (s.next blank).1 ∉ s.used
  | _ => True

variable {made : Nat} {allowed : Custody R → Move R → Prop}

theorem Sound.along (hs : s.Sound) (hrun : (machine blank clear made).Run allowed s t) : t.Sound :=
  hrun.invariant hs fun _ _ _ _ hs _ hstep => hs.step hstep

theorem Sound.takes_free (hs : s.Sound) (hrun : (machine blank clear made).Run allowed s t) :
    (machine blank clear made).Run (TakesFree blank) s t := by
  induction hrun with
  | refl => exact .refl
  | step hrun _ hstep ih =>
    rename_i u v m _
    refine .step ih ?_ hstep
    have hfree := (hs.along hrun).next_free blank
    cases m with
    | submit fill => exact hfree
    | lose fill => exact hfree
    | complete k result => trivial
    | release k => trivial

/-- A record in use is left as it is by every run that does not give it back. -/
theorem Sound.used_along (hs : s.Sound) (hk : k ∈ s.used)
    (hrun : (machine blank clear made).Run allowed s t)
    (hkeep : ∀ s m, allowed s m → m ≠ .release k) : k ∈ t.used ∧ t.records k = s.records k := by
  induction hrun with
  | refl => exact ⟨hk, rfl⟩
  | step hrun hallowed hstep ih =>
    obtain ⟨hused, hrecord⟩ := ih
    obtain ⟨hused', hrecord'⟩ := (hs.along hrun).used_kept hused (hkeep _ _ hallowed) hstep
    exact ⟨hused', hrecord'.trans hrecord⟩

theorem Sound.out_along (hs : s.Sound) (hk : k ∈ s.out)
    (hrun : (machine blank clear made).Run allowed s t)
    (hkeep : ∀ s m, allowed s m → ∀ result, m ≠ .complete k result) :
    k ∈ t.out ∧ t.records k = s.records k := by
  induction hrun with
  | refl => exact ⟨hk, rfl⟩
  | step hrun hallowed hstep ih =>
    obtain ⟨hout, hrecord⟩ := ih
    obtain ⟨hout', hrecord'⟩ := (hs.along hrun).out_kept hout (hkeep _ _ hallowed) hstep
    exact ⟨hout', hrecord'.trans hrecord⟩

theorem lost_along (hmade : k < s.made) (hlost : k ∉ s.held)
    (hrun : (machine blank clear made).Run allowed s t) : k < t.made ∧ k ∉ t.held :=
  hrun.invariant (P := fun t => k < t.made ∧ k ∉ t.held) ⟨hmade, hlost⟩
    fun _ _ _ _ h _ hstep => lost_kept h.1 h.2 hstep

theorem Noted.along (hs : s.Noted blank f note) (hclear : ∀ r, f (clear r) = f r)
    (hrun : (machine blank clear made).Run allowed s t) (hkeep : ∀ s m, allowed s m → m.Keeps f) :
    t.Noted blank f note :=
  hrun.invariant hs fun _ _ _ _ hs hallowed hstep => hs.step hclear (hkeep _ _ hallowed) hstep

theorem used_since_run (hrun : (machine blank clear made).Run allowed s t)
    (hkeep : ∀ s m, allowed s m → ∀ result, m ≠ .complete k result) (hk : k ∈ t.used) :
    k ∈ s.used := by
  induction hrun with
  | refl => exact hk
  | step _ hallowed hstep ih => exact ih (used_since (hkeep _ _ hallowed) hstep hk)

theorem Whole.along (hs : s.Whole) (hrun : (machine blank clear made).Run allowed s t)
    (hkeep : ∀ s m, allowed s m → ∀ fill, m ≠ .lose fill) : t.Whole :=
  hrun.invariant hs fun _ _ _ _ hs hallowed hstep => hs.step (hkeep _ _ hallowed) hstep

theorem Sound.pool_along (hs : s.Sound) {P : R → Prop} (hclear : ∀ r, P (clear r))
    (hpool : ∀ k ∈ s.pool, P (s.records k)) (hrun : (machine blank clear made).Run allowed s t) :
    ∀ k ∈ t.pool, P (t.records k) := by
  refine Machine.Run.invariant (P := fun t => ∀ k ∈ t.pool, P (t.records k)) hrun hpool ?_
  intro u m v hu hpool _ hstep
  exact (hs.along hu).pool_kept hclear hpool hstep

end Custody
