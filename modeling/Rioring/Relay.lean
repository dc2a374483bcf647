import Mathlib

/-! Members that a log is relayed to, each entry to one member after the other. -/

/-- Where a member is: it has not joined, it has been given every entry since, the
    last entry is still on its way to it, or it has left. -/
inductive Relay.Phase where
  | absent
  | current
  | due
  | gone
  deriving DecidableEq

namespace Relay

/-- The phase of a member that has joined or not, may still be given entries, is being
    given one, and is on the list of those that have still to be given the last one. -/
def Phase.of (joined live sending listed : Bool) : Phase :=
  if joined then
    if sending || (live && listed) then .due
    else if live then .current else .gone
  else .absent

variable {A : Type} {log before before' heard : List A} {a : A}

/-- What a member has heard of a log behind what was there before it joined: one
    piece, which reaches to the end of the log as long as the member has not left, but
    for an entry on its way. -/
inductive Hears : Phase → List A → List A → List A → Prop where
  | absent (log before : List A) : Hears .absent log before []
  | current (before heard : List A) : Hears .current (before ++ heard) before heard
  | due (before heard : List A) (a : A) : Hears .due (before ++ heard ++ [a]) before heard
  | gone (before heard after : List A) : Hears .gone (before ++ heard ++ after) before heard

theorem Hears.join (h : Hears .absent log before heard) : Hears .current log log heard := by
  cases h with
  | absent =>
    have hjoined := Hears.current log ([] : List A)
    rwa [List.append_nil] at hjoined

/-- A member that joins while the last entry is relayed may still be given it. -/
theorem Hears.join_due (h : Hears .absent log before heard) (hlog : log ≠ []) :
    Hears .due log log.dropLast heard := by
  cases h with
  | absent =>
    have hjoined := Hears.due log.dropLast ([] : List A) (log.getLast hlog)
    rwa [List.append_nil, List.dropLast_append_getLast] at hjoined

theorem Hears.leave {phase : Phase} (h : Hears phase log before heard) (hphase : phase ≠ .absent) :
    Hears .gone log before heard := by
  cases h with
  | absent => exact absurd rfl hphase
  | current =>
    have hgone := Hears.gone before heard []
    rwa [List.append_nil] at hgone
  | due before _ a => exact .gone before heard [a]
  | gone before _ after => exact .gone before heard after

/-- The entry that was on its way is the last of the log. -/
theorem Hears.receive (h : Hears .due log before heard) (hlast : log.getLast? = some a) :
    Hears .current log before (heard ++ [a]) := by
  cases h with
  | due before _ a' =>
    rw [List.getLast?_concat, Option.some.injEq] at hlast
    subst a'
    rw [List.append_assoc]
    exact .current before (heard ++ [a])

section Steps

variable {joined live live' sending listed : Bool}

theorem Phase.of_ne_absent : Phase.of true live sending listed ≠ .absent := by
  cases live <;> cases sending <;> cases listed <;> decide

/-- A member may leave at any time, with an entry still on its way to it. -/
theorem Hears.keep (h : Hears (.of joined live sending listed) log before heard)
    (hlive : live' = true → live = true) :
    Hears (.of joined live' sending listed) log before heard := by
  cases hlive' : live' with
  | true =>
    rwa [hlive hlive'] at h
  | false =>
    cases joined with
    | false => exact h
    | true =>
      cases sending with
      | true => exact h
      | false => exact h.leave Phase.of_ne_absent

/-- A member joins, before the last entry is given to it or behind. -/
theorem Hears.joins (h : Hears (.of false live false listed) log before heard)
    (hlog : listed = true → log ≠ []) : Hears (.of true live' false listed) log
      (if listed then log.dropLast else log) heard := by
  have habsent : Hears .absent log before heard := h
  cases hlisted : listed with
  | false =>
    have hjoined : Hears (.of true true false false) log log heard := habsent.join
    exact hjoined.keep fun _ => rfl
  | true =>
    have hjoined : Hears (.of true true false true) log log.dropLast heard :=
      habsent.join_due (hlog hlisted)
    exact hjoined.keep fun _ => rfl

/-- A new entry, which every member that may be given it is on the list for. -/
theorem Hears.published (h : Hears (.of joined live false false) log before heard) (a : A)
    (hlisted : joined = true → live = true → listed = true) :
    Hears (.of joined live false listed) (log ++ [a]) before heard := by
  cases joined with
  | false =>
    obtain ⟨⟩ : Hears .absent log before heard := h
    exact .absent _ _
  | true =>
    cases live with
    | false =>
      have hgone : Hears .gone log before heard := h
      cases hgone with
      | gone _ _ after =>
        rw [List.append_assoc]
        exact .gone before heard (after ++ [a])
    | true =>
      rw [hlisted rfl rfl]
      have hcurrent : Hears .current log before heard := h
      cases hcurrent with
      | current => exact .due before heard a

/-- The entry on its way arrives. -/
theorem Hears.arrives (h : Hears (.of true live true listed) log before heard)
    (hlast : log.getLast? = some a) :
    Hears (.of true live false false) log before (heard ++ [a]) := by
  have hcurrent : Hears .current log before (heard ++ [a]) := Hears.receive h hlast
  cases live with
  | true => exact hcurrent
  | false => exact hcurrent.leave (by decide)

end Steps

/-- What a member has heard, as a piece of the log. -/
theorem Hears.piece {phase : Phase} (h : Hears phase log before heard) (hphase : phase ≠ .absent) :
    heard <+: log.drop before.length ∧ (phase = .current → heard = log.drop before.length) := by
  cases h with
  | absent => exact absurd rfl hphase
  | current =>
    rw [List.drop_left]
    exact ⟨List.prefix_refl _, fun _ => rfl⟩
  | due before _ a =>
    rw [List.append_assoc, List.drop_left]
    exact ⟨List.prefix_append _ _, fun h => by cases h⟩
  | gone before _ after =>
    rw [List.append_assoc, List.drop_left]
    exact ⟨List.prefix_append _ _, fun h => by cases h⟩

end Relay
