import Mathlib

/-- Frames in a stream, each of which begins with a header that says how long the
    frame is, header included. -/
structure Framing (A : Type) where
  header : Nat
  length : List A → Nat

namespace Framing

variable {A : Type} {f : Framing A} {xs ys rest rest' frame : List A} {frames frames' : List (List A)}

/-- The first frame of a stream and what follows it, once all of it is there. -/
def next (f : Framing A) (xs : List A) : Option (List A × List A) :=
  let size := f.length (xs.take f.header)
  if f.header ≤ xs.length ∧ size ≤ xs.length then some (xs.take size, xs.drop size) else none

/-- Some frames are taken from the front of a stream, one after the other. -/
inductive Splits (f : Framing A) : List A → List (List A) → List A → Prop where
  | refl {xs : List A} : Splits f xs [] xs
  | cons {xs ys rest frame : List A} {frames : List (List A)} (hnext : f.next xs = some (frame, ys))
      (hsplits : Splits f ys frames rest) : Splits f xs (frame :: frames) rest

/-- What a sender writes as one frame. -/
structure IsFrame (f : Framing A) (frame : List A) : Prop where
  header : f.header ≤ frame.length
  length : f.length (frame.take f.header) = frame.length

theorem next_spec (hnext : f.next xs = some (frame, ys)) : xs = frame ++ ys ∧
    f.header ≤ xs.length ∧ f.length (xs.take f.header) = frame.length := by
  unfold next at hnext
  dsimp only at hnext
  split at hnext
  · rename_i hthere
    obtain ⟨hheader, hsize⟩ := hthere
    cases hnext
    refine ⟨(List.take_append_drop _ _).symm, hheader, ?_⟩
    rw [List.length_take, Nat.min_eq_left hsize]
  · cases hnext

/-- A frame that is there does not depend on what comes in behind it. -/
theorem next_append (hnext : f.next xs = some (frame, ys)) (zs : List A) :
    f.next (xs ++ zs) = some (frame, ys ++ zs) := by
  obtain ⟨hsame, hheader, hlength⟩ := next_spec hnext
  have htake : (xs ++ zs).take f.header = xs.take f.header := List.take_append_of_le_length hheader
  have hsize : frame.length ≤ xs.length := by
    rw [hsame, List.length_append]
    exact Nat.le_add_right _ _
  unfold next
  dsimp only
  rw [htake, hlength, List.length_append, if_pos ⟨by omega, by omega⟩, hsame, List.append_assoc,
    List.take_left, List.drop_left]

/-- What one sender wrote as a frame is the next one that is taken. -/
theorem IsFrame.next (hframe : f.IsFrame frame) (xs : List A) :
    f.next (frame ++ xs) = some (frame, xs) := by
  unfold Framing.next
  dsimp only
  have hheader := hframe.header
  rw [List.take_append_of_le_length hheader, hframe.length, List.length_append,
    if_pos ⟨by omega, by omega⟩, List.take_left, List.drop_left]

theorem Splits.append (h : f.Splits xs frames rest) (zs : List A) :
    f.Splits (xs ++ zs) frames (rest ++ zs) := by
  induction h with
  | refl => exact .refl
  | cons hnext _ ih => exact .cons (next_append hnext zs) ih

theorem Splits.trans (h : f.Splits xs frames rest) (h' : f.Splits rest frames' rest') :
    f.Splits xs (frames ++ frames') rest' := by
  induction h with
  | refl => exact h'
  | cons hnext _ ih => exact .cons hnext (ih h')

theorem Splits.single (hnext : f.next xs = some (frame, ys)) : f.Splits xs [frame] ys :=
  .cons hnext .refl

/-- Of two ways to take frames from a stream one has only gone further. -/
theorem Splits.linear (h : f.Splits xs frames rest) (h' : f.Splits xs frames' rest') :
    (∃ more, frames' = frames ++ more ∧ f.Splits rest more rest') ∨
      ∃ more, frames = frames' ++ more ∧ f.Splits rest' more rest := by
  induction h generalizing frames' with
  | refl => exact .inl ⟨frames', rfl, h'⟩
  | cons hnext hsplits ih =>
    rename_i frames
    cases h' with
    | refl => exact .inr ⟨_, rfl, .cons hnext hsplits⟩
    | cons hnext' hsplits' =>
      rw [hnext] at hnext'
      cases hnext'
      rcases ih hsplits' with ⟨more, rfl, hmore⟩ | ⟨more, rfl, hmore⟩
      · exact .inl ⟨more, rfl, hmore⟩
      · exact .inr ⟨more, rfl, hmore⟩

/-- Where no whole frame is left, all others have taken a part of the same frames. -/
theorem Splits.prefix_of_none (h : f.Splits xs frames rest) (hnone : f.next rest = none)
    (h' : f.Splits xs frames' rest') : frames' <+: frames := by
  rcases h.linear h' with ⟨more, rfl, hmore⟩ | ⟨more, rfl, _⟩
  · cases hmore with
    | refl =>
      rw [List.append_nil]
    | cons hnext =>
      rw [hnone] at hnext
      cases hnext
  · exact List.prefix_append _ _

/-- What a sender writes as frames is taken as these frames. -/
theorem splits_flatten (hframes : ∀ frame ∈ frames, f.IsFrame frame) (ys : List A) :
    f.Splits (frames.flatten ++ ys) frames ys := by
  induction frames with
  | nil => exact .refl
  | cons frame frames ih =>
    obtain ⟨hframe, hframes⟩ := List.forall_mem_cons.mp hframes
    rw [List.flatten_cons, List.append_assoc]
    exact .cons (hframe.next _) (ih hframes)

/-- From a part of what a sender writes as frames only these are taken. -/
theorem Splits.of_prefix (hheader : 0 < f.header) (hframes : ∀ frame ∈ frames, f.IsFrame frame)
    (hfront : xs <+: frames.flatten) (h : f.Splits xs frames' rest) : frames' <+: frames := by
  obtain ⟨zs, hall⟩ := hfront
  have hwhole : f.Splits (xs ++ zs) frames [] := by
    rw [hall, ← List.append_nil frames.flatten]
    exact splits_flatten hframes []
  refine hwhole.prefix_of_none ?_ (h.append zs)
  unfold next
  exact if_neg fun hthere => absurd hthere.1 (not_le.mpr hheader)

end Framing
