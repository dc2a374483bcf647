import Rioring.Locking

namespace rioring

/-- The callbacks that the library may call with the socket's lock held. -/
def Callback.under_lock : Callback → Bool
  | .send_complete | .error _ => true
  | .receive .. | .close | .accept _ => false

/-- What a thread may do while it holds a lock. -/
def Act.under_lock : Act → Bool
  | .call origin _ _ => origin.any (·.under_lock)
  | .send_locked .. | .io_sent .. => true
  | .step e =>
    match e with
    | .send_to .. | .close .. => true
    | _ => false

/-- What stands in front of a release may be done under the lock. -/
def Guards (a b : Op) : Prop := ∀ i act, b = .unlock i → a = .act act → act.under_lock = true

theorem ServerView.Move.of_idle {b b' : ServerView} (hmove : b.Move .idle b') : b' = b := by
  cases hmove
  rfl

namespace World

variable {p : Platform} {w w' : World} {e : Event} {i : ObjectId}

/-- The actions of a socket that may come under its lock. -/
def Action.locked : Action → Bool
  | .idle | .send .. | .send_to .. | .close .. | .sent .. => true
  | _ => false

theorem under_lock_of_called {v v' : View} {a : Action} {callback : Callback}
    (ha : Action.locked a = true) (hcalled : v.Called a v' callback) : callback.under_lock = true := by
  cases callback with
  | receive contents addr =>
    obtain ⟨⟨r, data, sqe, rfl⟩, _⟩ := hcalled
    cases ha
  | send_complete => rfl
  | close =>
    obtain ⟨r, res, rfl⟩ := hcalled
    cases ha
  | error code => rfl
  | accept j => cases hcalled

/-- A step that is an action under the lock for every socket, and none for a
    server, makes only callbacks that may be called there. -/
theorem Wf.called_under_lock (hwf : w.Wf) (hstep : w.step p e = some w')
    (haction : ∀ i, Action.locked (w.action i e) = true) (hserver : ∀ i, w.server_action i e = .idle)
    {x : ObjectId × Callback} (hx : x ∈ w.called w') : x.2.under_lock = true := by
  obtain ⟨i, hi, hx⟩ := List.mem_flatMap.mp hx
  obtain ⟨callback, hcallback, rfl⟩ := List.mem_map.mp hx
  have hobject := (List.mem_filter.mp hi).2
  have hdoes := hwf.step_does hstep
  cases hs : w.sockets i with
  | some s =>
    obtain ⟨s', _, _, _, hcalled⟩ := World.Wf.callbacks_since hwf hs hstep
    exact under_lock_of_called (haction i) (hcalled callback hcallback)
  | none =>
    -- nothing has been called for a server, or for an object that is new
    have hnone : w.callbacks_since w' i = [] := by
      cases hserves : w.servers i with
      | some server =>
        obtain ⟨b', hb', hmove⟩ := (hdoes.serves i).move _ (server_view_eq hserves)
        obtain ⟨server', _, rfl⟩ := Option.map_eq_some_iff.mp hb'
        rw [hserver i] at hmove
        have hhistory : w'.history i = w.history i := congrArg ServerView.history hmove.of_idle
        rw [World.callbacks_since, hhistory, List.drop_length]
      | none =>
        have hhistory : w'.history i = {} := by
          rcases Bool.or_eq_true_iff.mp hobject with hsocket | hsome
          · obtain ⟨s', hs'⟩ := Option.isSome_iff_exists.mp hsocket
            exact ((hdoes.moves i).fresh _ (view_eq_none hs) (view_eq hs')).history
          · obtain ⟨server', hserver'⟩ := Option.isSome_iff_exists.mp hsome
            exact ((hdoes.serves i).fresh _ (server_view_eq_none hserves)
              (server_view_eq hserver')).history
        rw [World.callbacks_since, hhistory]
        exact List.drop_nil
    rw [hnone] at hcallback
    cases hcallback

theorem event_io_sent {c : ContextId} {cqe : Cqe} {sqe : Bool}
    (hevent : w.event (.io_sent c cqe sqe) = some e) :
    (w.contexts c).type = .write ∧ 0 < cqe.res ∧ e = .complete c cqe sqe := by
  rw [event] at hevent
  split at hevent
  · rename_i hwrite
    cases hevent
    exact ⟨hwrite.1, hwrite.2, rfl⟩
  · cases hevent

/-- The completion of a write. -/
theorem Wf.write_completes (hwf : w.Wf) {c : ContextId} {cqe : Cqe} {sqe : Bool}
    (htype : (w.contexts c).type = .write) (hres : 0 < cqe.res) (i : ObjectId) :
    Action.locked (w.action i (.complete c cqe sqe)) = true ∧
      w.server_action i (.complete c cqe sqe) = .idle := by
  simp only [action, server_action]
  cases hfind : w.inflight.find? (·.user_data = c) with
  | none => exact ⟨rfl, rfl⟩
  | some r =>
    have huser : r.user_data = c := by simpa using List.find?_some hfind
    have hwrite : r.context.type = .write := by
      rw [← hwf.contexts r (List.mem_of_find?_eq_some hfind), huser]
      exact htype
    simp only [hwrite, hres, ↓reduceIte]
    split <;> exact ⟨rfl, rfl⟩

/-- What a thread does under a lock makes only callbacks that may be called
    there. -/
theorem Wf.act_called (hwf : w.Wf) {a : Act} (ha : a.under_lock = true) (hevent : w.event a = some e)
    (hstep : w.step p e = some w') {x : ObjectId × Callback} (hx : x ∈ w.called w') :
    x.2.under_lock = true := by
  refine Wf.called_under_lock hwf hstep ?_ ?_ hx
  · intro i
    cases a with
    | call => cases hevent
    | send_locked j bytes sqe =>
      cases hevent
      rw [action]
      split
      · split <;> rfl
      · rfl
    | io_sent c cqe sqe =>
      obtain ⟨htype, hres, rfl⟩ := event_io_sent hevent
      exact (hwf.write_completes htype hres i).1
    | step e =>
      cases hevent
      cases e with
      | send_to j bytes addr sqe =>
        rw [action]
        split <;> rfl
      | close j type sqe =>
        rw [action]
        split <;> rfl
      | _ => cases ha
  · intro i
    cases a with
    | call => cases hevent
    | send_locked j bytes sqe =>
      cases hevent
      rfl
    | io_sent c cqe sqe =>
      obtain ⟨htype, hres, rfl⟩ := event_io_sent hevent
      exact (hwf.write_completes htype hres i).2
    | step e =>
      cases hevent
      cases e with
      | send_to j bytes addr sqe => rfl
      | close j type sqe => rfl
      | _ => cases ha

/-- Code without locks, or with the lock of one socket around what may be done
    under it. -/
structure Lawful (ops : List Op) : Prop where
  locks : Mutex.Scoped ops
  guards : ops.Pairwise Guards

theorem Lawful.of_acts (acts : List Act) : Lawful (acts.map .act) := by
  refine ⟨.of_free fun l hmem => ?_, ?_⟩
  · obtain ⟨a, _, ha⟩ := List.mem_map.mp hmem
    cases ha
  · refine List.pairwise_map.mpr (List.pairwise_of_forall fun a b => ?_)
    intro i act hb
    cases hb

theorem Lawful.of_locked {a : Act} (ha : a.under_lock = true) (acts : List Act) :
    Lawful ([.lock i, .act a, .unlock i] ++ acts.map .act) := by
  have hunlock : ∀ j b, b ∈ acts.map Mutex.Op.act → b ≠ (.unlock j : Op) := by
    rintro j b hb rfl
    obtain ⟨act, _, hact⟩ := List.mem_map.mp hb
    cases hact
  have hlock : ∀ j b, b ∈ acts.map Mutex.Op.act → b ≠ (.lock j : Op) := by
    rintro j b hb rfl
    obtain ⟨act, _, hact⟩ := List.mem_map.mp hb
    cases hact
  refine ⟨⟨fun j hmem => ?_, fun j hmem => ?_⟩, ?_⟩
  · simp only [List.cons_append, List.nil_append, List.tail_cons, List.mem_cons] at hmem
    rcases hmem with hmem | hmem | hmem
    · cases hmem
    · cases hmem
    · exact hlock j _ hmem rfl
  · simp only [List.cons_append, List.nil_append, List.mem_cons] at hmem ⊢
    rcases hmem with hmem | hmem | hmem | hmem
    · cases hmem
      simp
    · cases hmem
    · cases hmem
    · exact absurd rfl (hlock j _ hmem)
  · rw [List.pairwise_append]
    refine ⟨?_, (Lawful.of_acts acts).guards, ?_⟩
    · simp only [List.pairwise_cons, List.mem_cons, List.not_mem_nil, or_false, forall_eq_or_imp,
        forall_eq, Guards]
      simp [ha]
    · intro a' _ b hb j act hunlocks
      exact absurd hunlocks (hunlock j b hb)

/-- The code that a call enters takes a lock only around what may be done under
    it. -/
theorem enter_lawful {c : Call} {ops : List Op} (henter : w.enter i c = some (w', ops)) : Lawful ops := by
  cases c with
  | send bytes sqe =>
    obtain ⟨s, _, henter⟩ := Option.bind_eq_some_iff.mp henter
    cases hsend : TcpSocket.send w i s bytes with
    | mk passed w₁ =>
      rw [hsend] at henter
      cases henter
      cases passed with
      | true => exact .of_locked rfl []
      | false => exact .of_acts []
  | send_to bytes addr sqe =>
    obtain ⟨s, _, henter⟩ := Option.bind_eq_some_iff.mp henter
    cases henter
    exact .of_locked rfl []
  | close type sqe =>
    cases type with
    | graceful =>
      obtain ⟨s, _, henter⟩ := Option.bind_eq_some_iff.mp henter
      cases henter
      exact .of_locked rfl []
    | force =>
      obtain ⟨s, _, henter⟩ := Option.bind_eq_some_iff.mp henter
      cases henter
      exact .of_acts [.step (.close i .force sqe)]

theorem handler_lawful (w : World) (c : ContextId) (cqe : Cqe) (sqe accept_sqe read_sqe : Bool) :
    Lawful (w.handler c cqe sqe accept_sqe read_sqe) := by
  have hplain : Lawful [.act (.step (.complete c cqe sqe)), .act (.step (.finish c))] :=
    .of_acts [.step (.complete c cqe sqe), .step (.finish c)]
  unfold handler
  split
  · split
    · exact .of_locked rfl [.step (.finish c)]
    · exact hplain
  · split
    · exact .of_acts [.step (.complete c cqe sqe),
        .step (.resume c accept_sqe read_sqe), .step (.finish c)]
    · exact hplain
  · exact hplain

theorem task_lawful {s : Threads} {task : Task} {ops : List Op} (htask : s.task_code task = some ops) :
    Lawful ops := by
  cases task with
  | call i c =>
    cases htask
    exact .of_acts [.call none i c]
  | handle c cqe sqe accept_sqe read_sqe =>
    rw [Threads.task_code] at htask
    split at htask
    · cases htask
      exact handler_lawful ..
    · cases htask
  | step e =>
    rw [Threads.task_code] at htask
    split at htask
    · cases htask
      exact .of_acts [.step e]
    · cases htask

theorem mem_callback_code {bodies : ObjectId → Callback → List Call} {op : Op}
    (hop : op ∈ w.callback_code w' bodies) : ∃ x ∈ w.called w', ∃ c,
      op = .act (.call (some x.2) x.1 c) := by
  obtain ⟨x, hx, hop⟩ := List.mem_flatMap.mp hop
  dsimp only at hop
  split at hop
  · obtain ⟨c, _, rfl⟩ := List.mem_map.mp hop
    exact ⟨x, hx, c, rfl⟩
  · cases hop

theorem callback_code_lawful (bodies : ObjectId → Callback → List Call) :
    Lawful (w.callback_code w' bodies) := by
  have hacts : ∀ op ∈ w.callback_code w' bodies, ∃ a, op = .act a := by
    intro op hop
    obtain ⟨x, _, c, rfl⟩ := mem_callback_code hop
    exact ⟨_, rfl⟩
  refine ⟨.of_free fun l hmem => ?_, ?_⟩
  · obtain ⟨a, ha⟩ := hacts _ hmem
    cases ha
  · refine List.pairwise_of_forall_mem_list ?_
    rintro a _ b hb j act rfl
    obtain ⟨a, ha⟩ := hacts _ hb
    cases ha

end World

end rioring
