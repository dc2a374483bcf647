import Rioring.Windows.Sending

namespace rioring.Windows

namespace Process

/-- The socket is activated at most once. -/
def connected_once (w : Process) (e : Event) : Prop :=
  w.action e = .start → w.history.activations = 0

/-- One activation, during which the receive side does not end. -/
def one_connection (w : Process) (e : Event) : Prop :=
  w.connected_once e ∧
    match e with
    | .complete index bytes _ _ => (w.requests[index]?.any (·.type == .read)) = true → bytes ≠ 0
    | _ => True

/-- A send that finds the queue empty, and whose write is taken, finds no write
    in flight. -/
def sends_alone (w : Process) (e : Event) : Prop := w.sending.sends_alone (w.action e)

instance : DecidableRel connected_once := fun w e =>
  inferInstanceAs (Decidable (w.action e = .start → w.history.activations = 0))

instance : DecidableRel one_connection := fun w e =>
  match e with
  | .complete index bytes data rio => inferInstanceAs (Decidable
      (w.connected_once (.complete index bytes data rio) ∧
        ((w.requests[index]?.any (·.type == .read)) = true → bytes ≠ 0)))
  | .set_event .. | .connect .. | .accepted .. | .send .. | .send_locked .. | .close .. | .pop .. =>
    inferInstanceAs (Decidable (w.connected_once _ ∧ True))

instance : DecidableRel sends_alone := fun w e =>
  inferInstanceAs (Decidable (w.sending.sends_alone (w.action e)))

/-- The stream and the turns: nothing is lost, duplicated or reordered, and at
    most one write uses `send_bind_buffer`, which holds what it was submitted with. -/
structure Intact (w : Process) : Prop where
  stream : w.history.transmitted ++ w.socket.send_buffer.main_buffer.contents ++
    w.socket.send_buffer.sub_buffer.contents = w.history.accepted
  single : w.writes.length ≤ 1
  copied : ∀ ctx ∈ w.writes, w.socket.send_bind_buffer.take ctx.Length = ctx.payload

/-- What the steps of one activation keep. -/
structure Kept (p : Platform) (w : Process) : Prop where
  sound : w.sending.Sound p
  ok : w.sending.outbox.Ok
  inactive : w.history.activations = 0 → w.Inactive

variable {p : Platform} {sock : Option Nat} {w w' : Process} {e : Event}

theorem Kept.create : Kept p (create p sock) := by
  refine ⟨.of_none .default ?_ rfl, ⟨rfl, List.nil_prefix⟩, fun _ => ⟨rfl, rfl, rfl, rfl⟩⟩
  exact List.length_replicate

theorem Kept.intact (hkept : w.Kept p) : w.Intact := by
  refine ⟨?_, hkept.sound.single, fun ctx hctx => (hkept.sound.loaded ctx hctx).1⟩
  rw [List.append_assoc]
  exact hkept.ok.conserved

theorem Kept.step (hkept : w.Kept p) (hstep : w.step p e = some w') (honce : w.connected_once e)
    (halone : w.sends_alone e) : w'.Kept p := by
  have hmove := step_move hstep
  have hidle : w.action e = .start → w.Inactive := fun hstart => hkept.inactive (honce hstart)
  refine ⟨hkept.sound.move hmove halone ?_, hkept.ok.steps (hmove.outbox hkept.sound halone ?_), ?_⟩
  · intro hstart
    simp [sending, writes, (hidle hstart).requests]
  · intro hstart
    simp [sending, (hidle hstart).send_buffer]
  · intro hzero
    have hcount : w'.history.activations = _ := hmove.activations
    rw [hcount] at hzero
    have haction : w.action e ≠ .start := by
      intro hstart
      simp [hstart] at hzero
    exact (hkept.inactive (Nat.add_eq_zero_iff.mp hzero).1).step hstep haction

end Process

open Process

variable {p : Platform} {sock : Option Nat} {w w' : Process}

theorem kept_of_reachable
    (hreach : (machine p sock).Reachable (fun w e => w.connected_once e ∧ w.sends_alone e) w) :
    w.Kept p := by
  refine Machine.Run.invariant (P := Kept p) hreach Kept.create ?_
  intro w e w' _ hkept hallowed hstep
  exact hkept.step hstep hallowed.1 hallowed.2

/-- Byte-stream integrity of the copying path. In a run whose sends take their
    turns the stream is intact, and the first send that does not ends this. -/
theorem stream_intact
    (hreach : (machine p sock).Reachable (fun w e => w.connected_once e ∧ w.sends_alone e) w) :
    w.Intact ∧ ∀ e w', w.connected_once e → (machine p sock).step w e = some w' →
      (w'.Intact ↔ w.sends_alone e) := by
  have hkept := kept_of_reachable hreach
  refine ⟨hkept.intact, fun e w' honce hstep => ⟨?_, fun halone => ?_⟩⟩
  · intro hintact
    by_contra halone
    have hcrowd := (step_move hstep).crowds halone
    exact absurd hintact.single (not_le.mpr hcrowd)
  · exact (hkept.step hstep honce halone).intact

/-- Five bytes in two pieces of at most four, the first sent in part. -/
def partial_writes : List Event := [
  .connect [⟨none, false⟩, ⟨some 5, false⟩, ⟨some 6, true⟩] none true,
  .send five_bytes,
  .send_locked 0 true,
  .complete 1 2 [] true,
  .send one_byte,
  .send_locked 0 true]

theorem stream_intact_partial_writes : ∃ w,
    (machine .small none).Reachable (fun w e => w.connected_once e ∧ w.sends_alone e) w ∧
      w.history.transmitted = [1, 2] ∧ w.history.accepted = [1, 2, 3, 4, 5, 1] ∧
      w.Intact ∧ ∀ e w', w.connected_once e → (machine .small none).step w e = some w' →
        (w'.Intact ↔ w.sends_alone e) := by
  obtain ⟨w, hreach, hw⟩ := Machine.reachable_of_exec (machine .small none)
    (fun w e => w.connected_once e ∧ w.sends_alone e) partial_writes
    (fun w => w.history.transmitted == [1, 2] && w.history.accepted == [1, 2, 3, 4, 5, 1])
    (by decide +kernel)
  simp only [Bool.and_eq_true, beq_iff_eq] at hw
  exact ⟨w, hreach, hw.1, hw.2, stream_intact hreach⟩

/-- A byte sent while the write of an empty send is in flight. -/
def send_behind_nothing : List Event := [
  .connect [⟨some 6, true⟩] none true,
  .send ⟨[], by decide⟩,
  .send_locked 0 true,
  .send one_byte,
  .send_locked 0 true,
  .complete 1 0 [] true,
  .complete 1 1 [] true,
  .complete 1 1 [] true]

theorem stream_duplicated : ¬ ∀ p sock w, (machine p sock).Reachable one_connection w →
    w.history.transmitted ++ w.socket.send_buffer.main_buffer.contents ++
        w.socket.send_buffer.sub_buffer.contents = w.history.accepted ∧
      w.writes.length ≤ 1 := by
  intro hall
  obtain ⟨w, hreach, hw⟩ := Machine.reachable_of_exec (machine .small none) one_connection
    send_behind_nothing
    (fun w => w.history.transmitted == [1, 1] && w.history.accepted == [1]) (by decide +kernel)
  simp only [Bool.and_eq_true, beq_iff_eq] at hw
  have hstream := (hall .small none w hreach).1
  rw [hw.1, hw.2] at hstream
  cases hstream

end rioring.Windows
