import Rioring.View.Servers

/-! Objects that appear: sockets and servers as they are created, and the sockets
of accepted connections. -/

namespace rioring

open IoService

namespace World

variable {w w' : World} {i j : ObjectId} {server : TcpServer} {p : Platform}

theorem Wf.no_requests (hwf : w.Wf) :
    w.inflight.filter (·.context.handler = some w.objects) = [] := by
  rw [List.filter_eq_nil_iff]
  intro r hr
  obtain ⟨k, hk, hfilled, _⟩ := hwf.typed r hr
  have hne : k ≠ w.objects := (hfilled.lt hwf).ne
  simp [hk, hne]

theorem Wf.no_accepting (hwf : w.Wf) : w.accepting w.objects = [] := by
  rw [World.accepting, List.filter_eq_nil_iff]
  intro h hh
  cases haccepting : h.accepting with
  | none => simp
  | some pair =>
    obtain ⟨server, hserver⟩ :=
      Option.isSome_iff_exists.mp (hwf.accepting h hh pair.1 pair.2 haccepting).1
    simpa using (hwf.server_lt hserver).ne

theorem Wf.fresh_view (hwf : w.Wf) {t : SocketObject} (hrecv : t.recv_buffer = {})
    (hsend : t.send_buffer = {}) (hgraceful : t.shutdown_gracefully = false)
    (hflag : t.connected_flag = false) : (w.view_with w.objects t).Fresh :=
  ⟨hwf.no_requests, (hwf.fresh w.objects le_rfl).2.2, hrecv, hsend, hgraceful, hflag⟩

theorem Wf.fresh_server_view (hwf : w.Wf) : (w.server_view_with w.objects {}).Fresh :=
  ⟨rfl, hwf.no_requests, hwf.no_accepting, (hwf.fresh w.objects le_rfl).2.2⟩

theorem Wf.descriptor_new (hwf : w.Wf) : w.descriptor w.objects = 0 := by
  obtain ⟨hsocket, hserver, _⟩ := hwf.fresh w.objects le_rfl
  rw [descriptor, hsocket, hserver]
  rfl

/-- A new object is seen as fresh, and the others as before. -/
theorem Wf.create_socket_does (hwf : w.Wf) {e : Event} (haction : ∀ i, w.action i e = .idle)
    (hidle : ∀ i, w.server_action i e = .idle) (type : SocketType) :
    Does p w e (w.create_socket type) := by
  have hlocal : Local w.objects w (w.create_socket type) :=
    ⟨local_set_socket.sockets, fun _ _ => rfl, fun _ _ _ => rfl, fun _ _ => rfl⟩
  have hnew : (w.create_socket type).sockets w.objects = some { socket_type := type } :=
    set_socket_self w w.objects _
  obtain ⟨hnone, hserver, _⟩ := hwf.fresh w.objects le_rfl
  refine ⟨fun i => ?_, fun i => serves_of_same rfl (hidle i), w.objects,
    fun i hi => hlocal.descriptor hi, .same rfl ?_⟩
  · by_cases hi : i = w.objects
    · subst i
      refine moves_of_fresh (view_eq_none hnone) fun v' hv' => ?_
      rw [view_eq hnew] at hv'
      cases hv'
      exact hwf.fresh_view rfl rfl rfl rfl
    · exact moves_of_same (hlocal.view hi) (haction i)
  · rw [hwf.descriptor_new, descriptor_socket hnew]

theorem Wf.create_server_does (hwf : w.Wf) : Does p w .create_server w.create_server := by
  have hlocal : Local w.objects w w.create_server :=
    ⟨fun _ _ => rfl, (local_set_server {}).servers, fun _ _ _ => rfl, fun _ _ => rfl⟩
  have hnew : w.create_server.servers w.objects = some {} := set_server_self w w.objects _
  obtain ⟨hnone, hserver, _⟩ := hwf.fresh w.objects le_rfl
  refine ⟨fun i => moves_of_same rfl rfl, fun i => ?_, w.objects, fun i hi => hlocal.descriptor hi,
    .same rfl ?_⟩
  · by_cases hi : i = w.objects
    · subst i
      refine serves_of_fresh (server_view_eq_none hserver) fun b' hb' => ?_
      rw [server_view_eq hnew] at hb'
      cases hb'
      exact hwf.fresh_server_view
    · exact serves_of_same (hlocal.server_view hi) rfl
  · have hsame : w.create_server.sockets w.objects = none := hnone
    rw [hwf.descriptor_new, descriptor_server hsame hnew]

/-- What `io_accepting` does for the server `j`: the new socket is fresh and has
    the descriptor, and the completion is in the accept callback. -/
theorem Wf.io_accepting_view (hwf : w.Wf) (hserver : w.servers j = some server) {c : ContextId}
    {handling : List Handling} (hhandling : w.handling = handling ++ [{ context := c }])
    (hother : ∀ h ∈ handling, h.context ≠ c) {fd : Int}
    (hw' : w' = TcpServer.io_accepting w j server c fd) :
    (∃ t, w'.sockets = Function.update w.sockets w.objects (some t) ∧ t.socket_handler = fd ∧
      (w'.view_with w.objects t).Fresh) ∧
      w'.servers = w.servers ∧ w'.descriptors = Function.update w.descriptors fd (some w.objects) ∧
      (∀ i t, i ≠ j → w'.view_with i t = w.view_with i t) ∧
      (∀ i, i ≠ j → w'.accepting i = w.accepting i) ∧
      w'.server_view_with j server = { w.server_view_with j server with
        accepting := (w.server_view_with j server).accepting ++
          [{ context := c, accepting := some (j, w.objects) }]
        history := { (w.server_view_with j server).history with
          callbacks := (w.server_view_with j server).history.callbacks ++
            if server.new_connect_event then [.accept w.objects] else [] } } := by
  subst hw'
  have hj : w.objects ≠ j := (hwf.server_lt hserver).ne'
  have hnoted : (w.handling.map fun h : Handling =>
      if h.context = c then { h with accepting := some (j, w.objects) } else h) =
      handling ++ [{ context := c, accepting := some (j, w.objects) }] := by
    have hkept : (handling.map fun h : Handling =>
        if h.context = c then { h with accepting := some (j, w.objects) } else h) = handling :=
      (List.map_congr_left fun h hh => if_neg (hother h hh)).trans (List.map_id _)
    rw [hhandling, List.map_append, hkept]
    simp
  have hnew := hwf.fresh_view (t := TcpSocket.set_remote_info
    { socket_type := .tcp, socket_handler := fd } server.addr6) rfl rfl rfl rfl
  rw [TcpServer.io_accepting, hnoted]
  dsimp only
  generalize ht : TcpSocket.set_remote_info { socket_type := .tcp, socket_handler := fd } server.addr6 = t
    at hnew ⊢
  have hfd : t.socket_handler = fd := by
    rw [← ht]
    rfl
  generalize hw₁ : World.open_descriptor { w.set_socket w.objects t with
    objects := w.objects + 1
    handling := handling ++ [{ context := c, accepting := some (j, w.objects) }] } fd w.objects = w₁
  have hview : ∀ i u, w₁.view_with i u = w.view_with i u := by
    intro i u
    rw [← hw₁]
    rfl
  have haccepting : ∀ i, w₁.accepting i = w.accepting i ++
      if i = j then [{ context := c, accepting := some (j, w.objects) }] else [] := by
    intro i
    rw [← hw₁]
    by_cases hi : i = j
    · simp [World.accepting, hhandling, hi]
    · simp [World.accepting, hhandling, hi, Ne.symm hi]
  have hserver_view : w₁.server_view_with j server = { w.server_view_with j server with
      accepting := (w.server_view_with j server).accepting ++
        [{ context := c, accepting := some (j, w.objects) }] } := by
    have hrequests := congrArg View.requests (hview j t)
    have hhistory := congrArg View.history (hview j t)
    simp only [view_with] at hrequests hhistory
    simp only [server_view_with, haccepting, hrequests, hhistory, if_pos]
  have hrest : w₁.sockets = Function.update w.sockets w.objects (some t) ∧ w₁.servers = w.servers ∧
      w₁.descriptors = Function.update w.descriptors fd (some w.objects) := by
    rw [← hw₁]
    exact ⟨rfl, rfl, rfl⟩
  by_cases hevent : server.new_connect_event = true
  · simp only [if_pos hevent]
    refine ⟨⟨t, hrest.1, hfd, ?_⟩, hrest.2.1, hrest.2.2, fun i u hi => ?_, fun i hi => ?_, ?_⟩
    · rw [(local_call _).view_with _ t hj, hview]
      exact hnew
    · rw [(local_call _).view_with i u hi, hview]
    · rw [(local_call _).accepting i hi, haccepting, if_neg hi, List.append_nil]
    · rw [World.call, server_view_with_record, hserver_view]
  · simp only [if_neg hevent]
    refine ⟨⟨t, hrest.1, hfd, ?_⟩, hrest.2.1, hrest.2.2, fun i u _ => hview i u, fun i hi => ?_, ?_⟩
    · rw [hview]
      exact hnew
    · rw [haccepting, if_neg hi, List.append_nil]
    · rw [hserver_view, List.append_nil]

/-- The contexts being handled are distinct, so that one completion at most is noted. -/
theorem Wf.handling_split (hwf : w.Wf) {c : ContextId} {h : Handling}
    (hfind : w.handling.find? (·.context = c) = some h) : ∃ front back,
      w.handling = front ++ h :: back ∧ h.context = c ∧ ∀ h' ∈ front ++ back, h'.context ≠ c := by
  obtain ⟨hc, front, back, hhandling, _⟩ := List.find?_eq_some_iff_append.mp hfind
  have hc : h.context = c := of_decide_eq_true hc
  refine ⟨front, back, hhandling, hc, fun h' hh' heq => ?_⟩
  have hnodup : (w.handling.map (·.context)).Nodup :=
    List.Nodup.sublist ((List.sublist_append_right _ _).trans (List.sublist_append_right _ _)) hwf.nodup
  rw [hhandling, List.map_append, List.map_cons, hc, List.nodup_middle] at hnodup
  apply (List.nodup_cons.mp hnodup).1
  rw [← heq, ← List.map_append]
  exact List.mem_map_of_mem hh'

theorem Wf.resume_does (hwf : w.Wf) (hwf' : w'.Wf) {c : ContextId} {accept_sqe read_sqe : Bool}
    (hresume : w.resume p c accept_sqe read_sqe = some w') :
    Does p w (.resume c accept_sqe read_sqe) w' ∧ ∀ i, w'.descriptor i = w.descriptor i := by
  obtain ⟨h, hfind, hresume⟩ := Option.bind_eq_some_iff.mp hresume
  obtain ⟨⟨a, j⟩, haccepting, hresume⟩ := Option.bind_eq_some_iff.mp hresume
  obtain ⟨hsome, s, hs, htype⟩ := hwf.accepting h (List.mem_of_find?_eq_some hfind) a j haccepting
  obtain ⟨server, hserver⟩ := Option.isSome_iff_exists.mp hsome
  obtain ⟨front, back, hhandling, hc, hother⟩ := hwf.handling_split hfind
  have haction : ∀ i, w.action i (.resume c accept_sqe read_sqe) =
      if j = i then .start read_sqe else .idle := by
    intro i
    simp [action, hfind, haccepting]
  have hserver_action : ∀ i, w.server_action i (.resume c accept_sqe read_sqe) =
      if a = i then .resume c accept_sqe else .idle := by
    intro i
    simp [server_action, hfind, haccepting]
  have hactive := IoBuffer.toOption_eq_some_iff.mp hresume
  have hnoted : (w.handling.map fun h : Handling =>
      if h.context = c then { h with accepting := none } else h) = front ++ { context := c } :: back := by
    have hkept : ∀ l : List Handling, (∀ h' ∈ l, h'.context ≠ c) → (l.map fun h : Handling =>
        if h.context = c then { h with accepting := none } else h) = l := fun l hl =>
      (List.map_congr_left fun h' hh' => if_neg (hl h' hh')).trans (List.map_id _)
    rw [hhandling, List.map_append, List.map_cons, hkept front fun h' hh' => hother h' (by simp [hh']),
      hkept back fun h' hh' => hother h' (by simp [hh']), if_pos hc, hc]
  rw [TcpServer.on_accepted, hnoted] at hactive
  generalize hw₁ : ({ w with handling := front ++ { context := c } :: back } : World) = w₁ at hactive
  have hwf₁ : w₁.Wf := by
    rw [← hw₁]
    apply hwf.set_handling
    · simp [hhandling, hc]
    · intro h' hh' x y hxy
      rcases List.mem_append.mp hh' with hh' | hh'
      · exact hwf.accepting h' (by simp [hhandling, hh']) x y hxy
      · rcases List.mem_cons.mp hh' with rfl | hh'
        · cases hxy
        · exact hwf.accepting h' (by simp [hhandling, hh']) x y hxy
  have hserver₁ : w₁.servers a = some server := by
    rw [← hw₁]
    exact hserver
  have hne : j ≠ a := by
    rintro rfl
    rw [hwf.separate j s hs] at hserver
    cases hserver
  have hnoted_local : Local a w w₁ := by
    rw [← hw₁]
    refine ⟨fun _ _ => rfl, fun _ _ => rfl, fun _ _ _ => rfl, fun i hi => ?_⟩
    simp [World.accepting, hhandling, haccepting, Ne.symm hi]
  have hreturns : (w.server_view_with a server).Returns c (w₁.server_view_with a server) := by
    refine ⟨front.filter fun h => h.accepting.map (·.1) = some a, h,
      back.filter fun h => h.accepting.map (·.1) = some a, ?_, hc, ?_⟩
    · simp [server_view_with, World.accepting, hhandling, haccepting]
    · rw [← hw₁]
      simp [server_view_with, World.accepting]
  have haccept : Local a w (TcpServer.submit_accept w₁ a accept_sqe) :=
    hnoted_local.trans (local_submit_accept accept_sqe)
  have hsubmitted := submit_context_submitted w₁
    (fun ctx => { ctx with handler := some a, type := .accept }) accept_sqe
  have hs₁ : (TcpServer.submit_accept w₁ a accept_sqe).sockets j = some s := by
    rw [haccept.sockets j hne]
    exact hs
  have hserver₂ : (TcpServer.submit_accept w₁ a accept_sqe).servers a = some server :=
    (congrFun hsubmitted.servers a).trans hserver₁
  rw [hs₁] at hactive
  have hactive : TcpSocket.on_active p _ j { s with socket_handler := s.socket_handler } read_sqe =
    .ok w' := hactive
  obtain ⟨hlocal, hdescriptors, t, v₁, ht, hhandler, hactivated, hreceives⟩ :=
    (hwf₁.submit_accept (by simp [hserver₁]) accept_sqe).tcp_on_active_view hs₁ htype hactive
  have hserver' : w'.servers a = some server := by
    rw [hlocal.servers a (Ne.symm hne)]
    exact hserver₂
  have hkept : w'.descriptors = w.descriptors := by
    rw [hdescriptors, TcpServer.submit_accept, hsubmitted.descriptors, ← hw₁]
  have hdescriptor : ∀ i, w'.descriptor i = w.descriptor i := by
    intro i
    by_cases hij : i = j
    · subst i
      rw [descriptor_socket ht, descriptor_socket hs, hhandler]
    · rw [hlocal.descriptor hij]
      by_cases hia : i = a
      · subst i
        rw [descriptor_server (hwf.no_socket hsome) hserver, descriptor_server _ hserver₂]
        rw [TcpServer.submit_accept, hsubmitted.sockets]
        exact hwf₁.no_socket (by simp [hserver₁])
      · exact haccept.descriptor hia
  refine ⟨⟨fun i => ?_, fun i => ?_, a, fun i _ => hdescriptor i, .same hkept (hdescriptor a)⟩,
    hdescriptor⟩
  · by_cases hia : i = a
    · subst i
      exact moves_of_none (hwf.no_socket hsome) (hwf'.no_socket (by simp [hserver']))
    by_cases hij : i = j
    · subst i
      refine moves_of_move hs ht ?_
      rw [haction, if_pos rfl]
      rw [haccept.view_with j s hne] at hactivated
      exact .start hactivated (fun _ => .inr rfl) hreceives
    · apply moves_of_same ((hlocal.view hij).trans (haccept.view hia))
      rw [haction, if_neg (Ne.symm hij)]
  · by_cases hij : i = j
    · subst i
      exact serves_of_none (hwf.separate j s hs) (hwf'.separate j t ht)
    by_cases hia : i = a
    · subst i
      refine serves_of_move hserver hserver' ?_
      have hsubmits := hwf₁.accept_submits hserver₁ accept_sqe
      have hview := hlocal.server_view hij
      rw [server_view_eq hserver', server_view_eq hserver₂, Option.some.injEq] at hview
      rw [hserver_action, if_pos rfl, hview]
      exact .resume hreturns hsubmits
    · apply serves_of_same ((hlocal.server_view hij).trans (haccept.server_view hia))
      rw [hserver_action, if_neg (Ne.symm hia)]

end World

end rioring
