import Rioring.View.Run

/-! A running server and its accept request. -/

namespace rioring

open World

namespace ServerView

variable {b b' : ServerView} {a : ServerAction}

/-- The accept requests of the server that are in flight. -/
def accepts (b : ServerView) : Nat := b.requests.countP (·.context.type = .accept)

/-- Once `run` has returned true an accept is in flight or in its callback, and
    never two of them. -/
def Listens (b : ServerView) : Prop :=
  b.accepts + b.accepting.length = if b.history.activations = 0 then 0 else 1

/-- `run` is not called any more once it has returned true, and every accept gets
    its entry. -/
def run_once (b : ServerView) : ServerAction → Prop
  | .run sqe => b.history.activations = 0 ∧ sqe = true
  | .resume _ sqe => sqe = true
  | _ => True

instance : DecidableRel run_once := fun b a => by
  cases a <;> unfold run_once <;> infer_instance

/-- No accept fails: each brings a descriptor, and not descriptor 0. -/
def accepts_all (b : ServerView) (a : ServerAction) : Prop :=
  b.run_once a ∧ match a with
    | .accept_completed _ res => 0 < res
    | _ => True

instance : DecidableRel accepts_all := fun b a => by
  unfold accepts_all
  cases a <;> infer_instance

theorem error_same (code : Int) : (b.error code).requests = b.requests ∧
    (b.error code).accepting = b.accepting ∧
    (b.error code).history.activations = b.history.activations := by
  rw [error]
  split
  · exact ⟨rfl, rfl, rfl⟩
  · exact ⟨rfl, rfl, rfl⟩

theorem Submits.accepts {type : IoType} {sqe : Bool} (h : b.Submits type sqe b') :
    b'.accepts = b.accepts + (if sqe && type == .accept then 1 else 0) ∧
      b'.accepting = b.accepting ∧ b'.history.activations = b.history.activations := by
  obtain ⟨r, htype, _, _, rfl⟩ := h
  cases sqe with
  | false =>
    obtain ⟨hrequests, haccepting, hactivations⟩ := error_same (b := b) IoService.EIO
    refine ⟨?_, haccepting, hactivations⟩
    simp only [ServerView.accepts, Bool.false_and]
    exact congrArg _ hrequests
  | true =>
    refine ⟨?_, rfl, rfl⟩
    simp only [ServerView.accepts, if_pos, List.countP_append, List.countP_singleton, htype,
      Bool.true_and]
    by_cases haccept : type = .accept <;> simp [haccept]

theorem Completes.accepts {r : Request} (h : b.Completes r b') :
    b.accepts = b'.accepts + (if r.context.type = .accept then 1 else 0) ∧
      b'.accepting = b.accepting ∧ b'.history = b.history := by
  obtain ⟨front, back, hrequests, rfl⟩ := h
  refine ⟨?_, rfl, rfl⟩
  simp only [ServerView.accepts, hrequests, List.countP_append, List.countP_cons, decide_eq_true_eq]
  omega

theorem Returns.accepting {c : ContextId} (h : b.Returns c b') :
    b.accepting.length = b'.accepting.length + 1 ∧ b'.accepts = b.accepts ∧
      b'.history = b.history := by
  obtain ⟨front, h, back, haccepting, _, rfl⟩ := h
  refine ⟨?_, rfl, rfl⟩
  simp only [haccepting, List.length_append, List.length_cons]
  omega

theorem Fresh.listens (h : b.Fresh) : b.Listens := by
  rw [Listens, accepts, h.requests, h.accepting, h.history]
  rfl

/-- A move keeps the accept going exactly when it is not a failed accept. -/
theorem Listens.move_iff (hlistens : b.Listens) (honce : b.run_once a) (hmove : b.Move a b') :
    b'.Listens ↔ b.accepts_all a := by
  rw [Listens] at hlistens
  cases hmove with
  | idle => exact ⟨fun _ => ⟨honce, trivial⟩, fun _ => hlistens⟩
  | set_event => exact ⟨fun _ => ⟨honce, trivial⟩, fun _ => hlistens⟩
  | run_failed fd errno =>
    obtain ⟨hrequests, haccepting, hactivations⟩ := error_same
      (b := b.with_server { b.server with server_socket := fd }) errno
    refine ⟨fun _ => ⟨honce, trivial⟩, fun _ => ?_⟩
    rw [Listens, ServerView.accepts, hrequests, haccepting, hactivations]
    exact hlistens
  | run fd hsubmit =>
    obtain ⟨haccepts, haccepting, hactivations⟩ := hsubmit.accepts
    refine ⟨fun _ => ⟨honce, trivial⟩, fun _ => ?_⟩
    obtain ⟨hfirst, rfl⟩ := honce
    have hnone : b.accepts + b.accepting.length = 0 := by rw [hlistens, if_pos hfirst]
    rw [Listens, haccepts, haccepting, hactivations, if_neg (Nat.succ_ne_zero _)]
    change b.accepts + 1 + b.accepting.length = 1
    omega
  | stop hsubmit =>
    obtain ⟨haccepts, haccepting, hactivations⟩ := hsubmit.accepts
    refine ⟨fun _ => ⟨honce, trivial⟩, fun _ => ?_⟩
    rw [Listens, haccepts, haccepting, hactivations, ← hlistens]
    simp
  | accepted peer j htype hcomplete hres =>
    obtain ⟨haccepts, haccepting, hhistory⟩ := hcomplete.accepts
    refine ⟨fun _ => ⟨honce, hres⟩, fun _ => ?_⟩
    rw [if_pos htype] at haccepts
    rw [Listens, ← hlistens, haccepts, List.length_append, List.length_singleton]
    simp only [ServerView.accepts]
    omega
  | accept_failed peer htype hcomplete hres =>
    rename_i b₁ r res
    obtain ⟨haccepts, haccepting, hhistory⟩ := hcomplete.accepts
    rw [if_pos htype] at haccepts
    refine ⟨fun hgone => ?_, fun hall => absurd hall.2 (Int.not_lt.mpr hres)⟩
    change b₁.accepts + b₁.accepting.length = if b₁.history.activations = 0 then 0 else 1 at hgone
    rw [haccepting, hhistory] at hgone
    omega
  | resume hreturn hsubmit =>
    obtain ⟨hreturned, hsame, hhistory⟩ := hreturn.accepting
    obtain ⟨haccepts, haccepting, hactivations⟩ := hsubmit.accepts
    refine ⟨fun _ => ⟨honce, trivial⟩, fun _ => ?_⟩
    have hsqe := honce
    rw [run_once] at hsqe
    rw [Listens, haccepts, haccepting, hactivations, hsame, hhistory, ← hlistens, hsqe]
    simp only [Bool.true_and, beq_self_eq_true, ↓reduceIte]
    omega
  | shut_down htype hcomplete =>
    obtain ⟨haccepts, haccepting, hhistory⟩ := hcomplete.accepts
    refine ⟨fun _ => ⟨honce, trivial⟩, fun _ => ?_⟩
    simp only [htype, reduceCtorEq, ↓reduceIte, Nat.add_zero] at haccepts
    rw [Listens, haccepting, ← hlistens, haccepts]
    rfl

end ServerView

variable {p : Platform} {w : World} {i : ObjectId} {server : TcpServer}

/-- In a run in which no accept of the server fails, a server that has begun to
    listen has exactly one accept in flight whenever the completions of the
    earlier ones have been handled. -/
theorem tcp_server_listens (hreach : (machine p).Reachable (server_permits i ServerView.accepts_all) w)
    (hserver : w.servers i = some server) (hrunning : (w.history i).activations ≠ 0)
    (hhandled : w.accepting i = []) :
    ∃ r, (w.inflight.filter fun r => r.context.handler = some i ∧ r.opcode = .accept) = [r] := by
  have hlistens : (w.server_view_with i server).Listens := by
    refine reachable_server_view (fun b hfresh => hfresh.listens) ?_ hreach (server_view_eq hserver)
    intro b a b' hb hallowed hmove
    exact (hb.move_iff hallowed.1 hmove).mpr hallowed
  have hone : (w.inflight.filter (·.context.handler = some i)).countP (·.context.type = .accept) = 1 := by
    have hcount : _ + (w.accepting i).length = 1 := hlistens.trans (if_neg hrunning)
    rw [hhandled] at hcount
    exact hcount
  rw [← List.length_eq_one_iff, ← hone, List.countP_eq_length_filter, List.filter_filter]
  apply congrArg
  apply List.filter_congr
  intro r hr
  obtain ⟨_, _, _, hopcode⟩ := (Wf.reachable hreach).typed r hr
  have haccept : r.opcode = .accept ↔ r.context.type = .accept := by
    rw [hopcode, IoContext.opcode]
    split <;> simp_all
  simp [haccept, and_comm]

/-- A server that listens on descriptor 7 and has accepted descriptor 8. -/
def one_accepted : List Event := [
  .create_server,
  .set_event 1 .accept true,
  .run 1 7 true true 0 true,
  .complete 0 { res := 8 } true,
  .resume 0 true true,
  .finish 0]

theorem tcp_server_listens_one_accepted : ∃ w r,
    (machine .small).Reachable (server_permits 1 ServerView.accepts_all) w ∧
      (w.inflight.filter fun r => r.context.handler = some 1 ∧ r.opcode = .accept) = [r] := by
  obtain ⟨w, hreach, hw⟩ := Machine.reachable_of_exec (machine .small)
    (server_permits 1 ServerView.accepts_all) one_accepted
    (fun w => (w.servers 1).isSome && (w.history 1).activations != 0 && (w.accepting 1).isEmpty)
    (by decide +kernel)
  simp only [Bool.and_eq_true, bne_iff_ne, List.isEmpty_iff, Option.isSome_iff_exists] at hw
  obtain ⟨⟨⟨server, hserver⟩, hrunning⟩, hhandled⟩ := hw
  obtain ⟨r, hr⟩ := tcp_server_listens hreach hserver hrunning hhandled
  exact ⟨w, r, hreach, hr⟩

/-- A server whose first accept completes with `EMFILE`. -/
def failed_accept : List Event := [
  .create_server,
  .run 1 7 true true 0 true,
  .complete 0 { res := -24 } true,
  .finish 0]

theorem tcp_server_deaf : ¬ ∀ w server,
    (machine .small).Reachable (server_permits 1 ServerView.run_once) w → w.servers 1 = some server →
      (w.history 1).activations ≠ 0 → w.accepting 1 = [] →
      ∃ r, (w.inflight.filter fun r => r.context.handler = some 1 ∧ r.opcode = .accept) = [r] := by
  intro hall
  obtain ⟨w, hreach, hw⟩ := Machine.reachable_of_exec (machine .small)
    (server_permits 1 ServerView.run_once) failed_accept
    (fun w => (w.servers 1).isSome && (w.history 1).activations != 0 && (w.accepting 1).isEmpty &&
      w.inflight.isEmpty) (by decide +kernel)
  simp only [Bool.and_eq_true, bne_iff_ne, List.isEmpty_iff, Option.isSome_iff_exists] at hw
  obtain ⟨⟨⟨⟨server, hserver⟩, hrunning⟩, hhandled⟩, hnone⟩ := hw
  obtain ⟨r, hr⟩ := hall w server hreach hserver hrunning hhandled
  rw [hnone] at hr
  cases hr

end rioring
