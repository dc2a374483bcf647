import Rioring.Outbound.Sending
import Rioring.View.Run

/-! The sending side of a socket along a run. -/

namespace rioring

namespace World

variable {p : Platform} {i : ObjectId} {ok : View → Action → Prop} {P : Outbound → Prop} {w : World}
  {s : SocketObject}

/-- A property of the sending side of new sockets that the permitted moves of a
    sound one keep holds of the socket in every reachable process. -/
theorem reachable_outbound (hfresh : ∀ v : View, v.Fresh → P v.outbound)
    (hkeep : ∀ (v : View) a o', v.outbound.Sound → P v.outbound → ok v a →
      Outbound.Move p v.outbound a o' → P o')
    (hreach : (machine p).Reachable (permits i ok) w) (hs : w.sockets i = some s) :
    (w.view_with i s).outbound.Sound ∧ P (w.view_with i s).outbound := by
  refine reachable_view (P := fun v => v.outbound.Sound ∧ P v.outbound)
    (fun v hnew => ⟨hnew.outbound.1, hfresh v hnew⟩) ?_ hreach (view_eq hs)
  rintro v a v' ⟨hsound, hP⟩ hallowed hmove
  have hmove := hmove.outbound
  exact ⟨hsound.move hmove, hkeep v a _ hsound hP hallowed hmove⟩

/-- The same for the sockets of one type. -/
theorem reachable_outbound_of_type {type : SocketType} (hfresh : ∀ v : View, v.Fresh → P v.outbound)
    (hkeep : ∀ (v : View) a o', v.outbound.socket_type = type → v.outbound.Sound → P v.outbound →
      ok v a → Outbound.Move p v.outbound a o' → P o')
    (hreach : (machine p).Reachable (permits i ok) w) (hs : w.sockets i = some s)
    (htype : s.socket_type = type) :
    (w.view_with i s).outbound.Sound ∧ P (w.view_with i s).outbound := by
  obtain ⟨hsound, hkept⟩ := reachable_outbound (P := fun o => o.socket_type = type → P o)
    (fun v hnew _ => hfresh v hnew) (fun v a o' hsound hP hallowed hmove htype => by
      rw [hmove.socket_type.2.1] at htype
      exact hkeep v a o' htype hsound (hP htype) hallowed hmove) hreach hs
  exact ⟨hsound, hkept htype⟩

theorem reachable_sound (hreach : (machine p).Reachable Machine.Any w) (hs : w.sockets i = some s) :
    (w.view_with i s).outbound.Sound :=
  (reachable_outbound (P := fun _ => True) (fun _ _ => trivial) (fun _ _ _ _ _ _ _ => trivial)
    (permitted hreach) hs).1

end World

end rioring
