import Rioring.View.Calls

namespace rioring

open IoService

namespace World

variable {w w' : World} {i j : ObjectId} {server : TcpServer} {p : Platform}

theorem server_view_with_record (f : History → History) :
    (w.record i f).server_view_with i server =
      { w.server_view_with i server with history := f (w.server_view_with i server).history } := by
  simp [server_view_with, accepting]

theorem Wf.server_view_with_io_error (hwf : w.Wf) (hserver : w.servers i = some server) (code : Int) :
    (w.io_error i code).server_view_with i server = (w.server_view_with i server).error code := by
  have hevent : w.has_error_event i = server.error_event := by
    rw [has_error_event, hwf.no_socket (by simp [hserver]), hserver]
    rfl
  rw [World.io_error, hevent, ServerView.error]
  change (if server.error_event = true then w.call i (.error code) else w).server_view_with i server =
    if server.error_event = true then (w.server_view_with i server).call (.error code)
    else w.server_view_with i server
  split
  · exact server_view_with_record _
  · rfl

/-- The requests of a server name its listening descriptor. -/
theorem Wf.prepare_fd (hwf : w.Wf) (hserver : w.servers i = some server) {c : ContextId}
    (hhandler : (w.contexts c).handler = some i)
    (htype : (w.contexts c).type = .accept ∨ (w.contexts c).type = .shutdown) :
    (prepare w c).fd = server.server_socket := by
  have hnone : w.sockets i = none := hwf.no_socket (by simp [hserver])
  unfold prepare to_socket_ptr to_tcp_server_ptr
  rcases htype with htype | htype <;> simp [htype, hhandler, hnone, hserver]

/-- A submission, as the server that makes it sees it. -/
theorem Wf.server_submits (hwf : w.Wf) (hserver : w.servers i = some server)
    {fill : IoContext → IoContext} (hhandler : (fill (next_context w).2).handler = some i)
    {type : IoType} (hfill : (fill (next_context w).2).type = type)
    (htype : type = .accept ∨ type = .shutdown) (sqe : Bool) :
    (w.server_view_with i server).Submits type sqe
      ((IoService.submit_context w fill sqe).server_view_with i server) := by
  have htake := (hwf.take_context fill).1
  unfold IoService.submit_context
  rw [take_context_eq] at htake ⊢
  generalize hw₁ : ({ w with
    contexts := Function.update w.contexts (next_context w).1 (fill (next_context w).2)
    pool := w.pool.tail
    allocated := if w.pool = [] then w.allocated + 1 else w.allocated } : World) = w₁ at htake ⊢
  have hcontext : w₁.contexts (next_context w).1 = fill (next_context w).2 := by
    rw [← hw₁]
    exact Function.update_self ..
  have hserver₁ : w₁.servers i = some server := by
    rw [← hw₁]
    exact hserver
  have hview : w₁.server_view_with i server = w.server_view_with i server := by
    rw [← hw₁]
    rfl
  have hcopied := (prepare_context w₁ (next_context w).1).2
  rw [hcontext] at hcopied
  refine ⟨prepare w₁ (next_context w).1, by rw [hcopied, hfill], by rw [hcopied, hhandler]; rfl, ?_, ?_⟩
  · exact htake.prepare_fd hserver₁ (by rw [hcontext, hhandler]) (by rwa [hcontext, hfill])
  · unfold IoService.submit
    simp only [hcontext, hhandler]
    cases sqe with
    | false =>
      rw [← hview]
      exact htake.server_view_with_io_error hserver₁ EIO
    | true =>
      rw [← hview, if_pos rfl, if_pos rfl, server_view_with_record]
      simp [server_view_with, hcopied, hhandler]
      rfl

theorem Wf.accept_submits (hwf : w.Wf) (hserver : w.servers i = some server) (sqe : Bool) :
    (w.server_view_with i server).Submits .accept sqe
      ((TcpServer.submit_accept w i sqe).server_view_with i server) :=
  hwf.server_submits hserver rfl (by exact rfl) (.inl rfl) sqe

theorem Wf.stop_does (hwf : w.Wf) (hserver : w.servers j = some server) (sqe : Bool) :
    Does p w (.stop j sqe) (TcpServer.stop w j sqe) := by
  have hsome : (w.servers j).isSome := by simp [hserver]
  have hsubmitted := submit_context_submitted w
    (fun ctx => { ctx with handler := some j, type := .shutdown }) sqe
  refine does_of_server hwf (hwf.stop hsome sqe) (local_stop sqe) (fun _ => rfl) (fun _ _ => rfl)
    hserver ((congrFun hsubmitted.servers j).trans hserver)
    (.stop (hwf.server_submits hserver rfl (by exact rfl) (.inr rfl) sqe)) (.same hsubmitted.descriptors rfl)

/-- A server that cannot listen reports an error and keeps the descriptor. -/
theorem Wf.run_failed_does (hwf : w.Wf) (hwf' : w'.Wf) {e : Event} {fd errno : Int} {sqe : Bool}
    (haction : ∀ i, w.server_action i e = if j = i then .run sqe else .idle)
    (hidle : ∀ i, w.action i e = .idle) (hserver : w.servers j = some server)
    {w₁ : World} (hlocal : Local j w w₁) (hwf₁ : w₁.Wf)
    (hserver₁ : w₁.servers j = some { server with server_socket := fd })
    (hview : w₁.server_view_with j { server with server_socket := fd } =
      (w.server_view_with j server).with_server { server with server_socket := fd })
    (hrewires : Rewires w j server.server_socket fd w₁) (hw' : w' = w₁.io_error j errno) :
    Does p w e w' := by
  subst hw'
  have hkept : (w₁.io_error j errno).servers = w₁.servers := by
    rw [World.io_error]
    split <;> rfl
  refine does_of_server hwf hwf' (hlocal.trans (local_io_error _)) haction (fun i _ => hidle i) hserver
    ((congrFun hkept j).trans hserver₁) ?_ (hrewires.trans_same (io_error_descriptors _ _ _))
  rw [hwf₁.server_view_with_io_error hserver₁, hview]
  exact .run_failed fd errno

theorem Wf.run_does (hwf : w.Wf) (hserver : w.servers j = some server) {fd : Int}
    (hfd : w.fresh_descriptor fd = true) (bind listen : Bool) (errno : Int) (sqe : Bool) :
    Does p w (.run j fd bind listen errno sqe) (TcpServer.run w j server fd bind listen errno sqe).2 := by
  have hwf' := hwf.run hserver fd bind listen errno sqe
  have haction : ∀ i, w.server_action i (.run j fd bind listen errno sqe) =
      if j = i then .run sqe else .idle := fun _ => rfl
  have hset := hwf.set_server { server with server_socket := fd } hserver
  have hself : (w.set_server j { server with server_socket := fd }).servers j =
      some { server with server_socket := fd } := set_server_self w j _
  rw [TcpServer.run] at hwf' ⊢
  dsimp only at hwf' ⊢
  by_cases hneg : fd = -1
  · simp only [if_pos hneg] at hwf' ⊢
    refine hwf.run_failed_does hwf' haction (fun _ => rfl) hserver (local_set_server _) hset hself rfl
      (.missing rfl ?_) rfl
    omega
  · simp only [if_neg hneg] at hwf' ⊢
    have hfree : w.descriptors fd = none := by
      simp only [fresh_descriptor, Bool.or_eq_true, Bool.and_eq_true, beq_iff_eq, hneg, false_or] at hfd
      exact hfd.2
    have hopen := hset.open_descriptor fd j
    have hlocal : Local j w ((w.set_server j { server with server_socket := fd }).open_descriptor fd j) :=
      (local_set_server _).trans (local_open_descriptor fd)
    cases bind with
    | false =>
      exact hwf.run_failed_does hwf' haction (fun _ => rfl) hserver hlocal hopen hself rfl
        (.opened hfree rfl) rfl
    | true =>
      cases listen with
      | false =>
        exact hwf.run_failed_does hwf' haction (fun _ => rfl) hserver hlocal hopen hself rfl
          (.opened hfree rfl) rfl
      | true =>
        generalize hw₁ : ((w.set_server j { server with server_socket := fd }).open_descriptor fd
          j).record j (fun h => { h with activations := h.activations + 1 }) = w₁ at hwf' ⊢
        have hwf₁ : w₁.Wf := hw₁ ▸ hopen.record (hwf.server_lt hserver) _
        have hself₁ : w₁.servers j = some { server with server_socket := fd } := by
          rw [← hw₁]
          exact hself
        have hlocal₁ : Local j w w₁ := hw₁ ▸ hlocal.trans (local_record _)
        have hsubmitted := submit_context_submitted w₁
          (fun ctx => { ctx with handler := some j, type := .accept }) sqe
        have hsubmits := hwf₁.accept_submits hself₁ sqe
        have hdescriptors : w₁.descriptors = Function.update w.descriptors fd (some j) := by
          rw [← hw₁]
          rfl
        refine does_of_server hwf hwf' (hlocal₁.trans (local_submit_accept sqe)) haction
          (fun _ _ => rfl) hserver ((congrFun hsubmitted.servers j).trans hself₁) (.run fd ?_)
          (.opened hfree (hsubmitted.descriptors.trans hdescriptors))
        rw [← hw₁, server_view_with_record] at hsubmits
        rw [← hw₁]
        exact hsubmits

end World

end rioring
