import Rioring.Custody
import Rioring.Io

/-! Who holds a context, and which object a request belongs to: the facts about
the whole process that make a completion reach the object that submitted the
request, with the context as it was submitted. -/

namespace rioring

open IoService

namespace World

/-- What `deallocate_context` leaves of a context. -/
def cleared (ctx : IoContext) : IoContext := { ctx with handler := none, iov := {} }

/-- The contexts with their pool, those in flight and those being handled. -/
def custody (w : World) : Custody IoContext where
  records := w.contexts
  made := w.allocated
  pool := w.pool
  out := w.inflight.map (·.user_data)
  used := w.handling.map (·.context)

/-- The contexts that are in the pool, in flight, or being handled. -/
def held (w : World) : List ContextId :=
  w.pool ++ (w.inflight.map (·.user_data) ++ w.handling.map (·.context))

/-- A context is filled for one of the kinds of request that object `i` submits. -/
def Filled (w : World) (i : ObjectId) (ctx : IoContext) : Prop :=
  match ctx.type with
  | .read => (w.sockets i).isSome ∧ ctx.iov.iov_base = .recv_bind_buffer i
  | .write => (w.sockets i).isSome ∧ ∃ generation, ctx.iov.iov_base = .send_buffer i generation
  | .accept => (w.servers i).isSome
  | .shutdown => (w.sockets i).isSome ∨ (w.servers i).isSome
  | .unknown => False

/-- A request is of the kind its context says, and its handler is an object of
    the class that submits such requests. -/
def Typed (w : World) (r : Request) : Prop :=
  ∃ i, r.context.handler = some i ∧ w.Filled i r.context ∧ r.opcode = r.context.opcode

structure Wf (w : World) : Prop where
  nodup : w.held.Nodup
  allocated : ∀ c ∈ w.held, c < w.allocated
  contexts : ∀ r ∈ w.inflight, w.contexts r.user_data = r.context
  typed : ∀ r ∈ w.inflight, w.Typed r
  separate : ∀ i s, w.sockets i = some s → w.servers i = none
  fresh : ∀ i, w.objects ≤ i → w.sockets i = none ∧ w.servers i = none ∧ w.history i = {}
  accepting : ∀ h ∈ w.handling, ∀ i j, h.accepting = some (i, j) →
    (w.servers i).isSome ∧ ∃ s, w.sockets j = some s ∧ s.socket_type = .tcp

theorem Wf.start (p : Platform) : (World.start p).Wf where
  nodup := by simpa [held, World.start] using List.nodup_range
  allocated := by simp [held, World.start]
  contexts := by simp [World.start]
  typed := by simp [World.start]
  separate := by simp [World.start]
  fresh := by simp [World.start]
  accepting := by simp [World.start]

/-- Objects of a process: those of one process are of the same class in another. -/
structure Extends (w w' : World) : Prop where
  sockets : ∀ i s, w.sockets i = some s → ∃ s', w'.sockets i = some s' ∧ s'.socket_type = s.socket_type
  servers : ∀ i, (w.servers i).isSome → (w'.servers i).isSome

theorem Extends.isSome {w w' : World} (h : w.Extends w') {i : ObjectId}
    (hsocket : (w.sockets i).isSome) : (w'.sockets i).isSome := by
  obtain ⟨s, hs⟩ := Option.isSome_iff_exists.mp hsocket
  obtain ⟨s', hs', _⟩ := h.sockets i s hs
  simp [hs']

theorem Filled.mono {w w' : World} (h : w.Extends w') {i : ObjectId} {ctx : IoContext}
    (hfilled : w.Filled i ctx) : w'.Filled i ctx := by
  unfold Filled at hfilled ⊢
  cases htype : ctx.type with
  | read =>
    rw [htype] at hfilled
    exact ⟨h.isSome hfilled.1, hfilled.2⟩
  | write =>
    rw [htype] at hfilled
    exact ⟨h.isSome hfilled.1, hfilled.2⟩
  | accept =>
    rw [htype] at hfilled
    exact h.servers i hfilled
  | shutdown =>
    rw [htype] at hfilled
    exact hfilled.imp h.isSome (h.servers i)
  | unknown =>
    rw [htype] at hfilled
    exact hfilled

theorem Typed.mono {w w' : World} (h : w.Extends w') {r : Request} (htyped : w.Typed r) :
    w'.Typed r := by
  obtain ⟨i, hi, hfilled, hopcode⟩ := htyped
  exact ⟨i, hi, hfilled.mono h, hopcode⟩

/-- Replacing the state of a socket, which stays of its class. -/
theorem Wf.set_socket {w : World} (hwf : w.Wf) {i : ObjectId} {s s' : SocketObject}
    (hs : w.sockets i = some s) (htype : s'.socket_type = s.socket_type) :
    (w.set_socket i s').Wf := by
  have hext : w.Extends (w.set_socket i s') := by
    refine ⟨fun j t ht => ?_, fun j hj => hj⟩
    by_cases hj : j = i
    · subst j
      rw [hs] at ht
      cases ht
      exact ⟨s', by simp [World.set_socket], htype⟩
    · exact ⟨t, by simpa [World.set_socket, hj] using ht, rfl⟩
  refine ⟨hwf.nodup, hwf.allocated, hwf.contexts, fun r hr => (hwf.typed r hr).mono hext, ?_, ?_, ?_⟩
  · intro j t ht
    by_cases hj : j = i
    · subst j
      exact hwf.separate i s hs
    · exact hwf.separate j t (by simpa [World.set_socket, hj] using ht)
  · intro j hj
    obtain ⟨h1, h2, h3⟩ := hwf.fresh j hj
    have hne : j ≠ i := by
      rintro rfl
      rw [hs] at h1
      cases h1
    exact ⟨by simpa [World.set_socket, hne] using h1, h2, h3⟩
  · intro h hh a b hab
    obtain ⟨ha, t, ht, htcp⟩ := hwf.accepting h hh a b hab
    obtain ⟨t', ht', htype'⟩ := hext.sockets b t ht
    exact ⟨ha, t', ht', htype'.trans htcp⟩

theorem Wf.set_server {w : World} (hwf : w.Wf) {i : ObjectId} {s : TcpServer} (s' : TcpServer)
    (hs : w.servers i = some s) : (w.set_server i s').Wf := by
  have hext : w.Extends (w.set_server i s') := by
    refine ⟨fun j t ht => ⟨t, ht, rfl⟩, fun j hj => ?_⟩
    by_cases h : j = i <;> simp [World.set_server, h, hj]
  refine ⟨hwf.nodup, hwf.allocated, hwf.contexts, fun r hr => (hwf.typed r hr).mono hext, ?_, ?_, ?_⟩
  · intro j t ht
    have hnone := hwf.separate j t ht
    have hne : j ≠ i := by
      rintro rfl
      rw [hs] at hnone
      cases hnone
    simpa [World.set_server, hne] using hnone
  · intro j hj
    obtain ⟨h1, h2, h3⟩ := hwf.fresh j hj
    have hne : j ≠ i := by
      rintro rfl
      rw [hs] at h2
      cases h2
    exact ⟨h1, by simpa [World.set_server, hne] using h2, h3⟩
  · intro h hh a b hab
    obtain ⟨ha, hb⟩ := hwf.accepting h hh a b hab
    exact ⟨hext.servers a ha, hb⟩

/-- An object that exists has a history of its own. -/
theorem Wf.record {w : World} (hwf : w.Wf) {i : ObjectId} (hi : i < w.objects)
    (f : History → History) : (w.record i f).Wf := by
  refine ⟨hwf.nodup, hwf.allocated, hwf.contexts, hwf.typed, hwf.separate, ?_, hwf.accepting⟩
  intro j hj
  obtain ⟨h1, h2, h3⟩ := hwf.fresh j hj
  have hne : j ≠ i := (lt_of_lt_of_le hi hj).ne'
  exact ⟨h1, h2, by simpa [World.record, hne] using h3⟩

theorem Wf.socket_lt {w : World} (hwf : w.Wf) {i : ObjectId} {s : SocketObject}
    (hs : w.sockets i = some s) : i < w.objects := by
  by_contra hnot
  have := (hwf.fresh i (not_lt.mp hnot)).1
  rw [hs] at this
  cases this

theorem Wf.server_lt {w : World} (hwf : w.Wf) {i : ObjectId} {s : TcpServer}
    (hs : w.servers i = some s) : i < w.objects := by
  by_contra hnot
  have := (hwf.fresh i (not_lt.mp hnot)).2.1
  rw [hs] at this
  cases this

theorem Wf.no_socket {w : World} (hwf : w.Wf) {i : ObjectId} (hi : (w.servers i).isSome) :
    w.sockets i = none := by
  cases hs : w.sockets i with
  | none => rfl
  | some s =>
    rw [hwf.separate i s hs] at hi
    cases hi

theorem Wf.call {w : World} (hwf : w.Wf) {i : ObjectId} (hi : i < w.objects)
    (callback : Callback) : (w.call i callback).Wf := hwf.record hi _

theorem Wf.io_error {w : World} (hwf : w.Wf) {i : ObjectId} (hi : i < w.objects) (code : Int) :
    (w.io_error i code).Wf := by
  unfold World.io_error
  split
  · exact hwf.call hi _
  · exact hwf

theorem Wf.open_descriptor {w : World} (hwf : w.Wf) (fd : Int) (i : ObjectId) :
    (w.open_descriptor fd i).Wf :=
  ⟨hwf.nodup, hwf.allocated, hwf.contexts, hwf.typed, hwf.separate, hwf.fresh, hwf.accepting⟩

theorem Wf.close_descriptor {w : World} (hwf : w.Wf) {i : ObjectId} (hi : i < w.objects) (fd : Int) :
    (w.close_descriptor fd i).Wf := by
  have h : ({ w with descriptors := Function.update w.descriptors fd none } : World).Wf :=
    ⟨hwf.nodup, hwf.allocated, hwf.contexts, hwf.typed, hwf.separate, hwf.fresh, hwf.accepting⟩
  exact h.record hi _

theorem Wf.set_sends {w : World} (hwf : w.Wf) (sends : List (ObjectId × Bytes)) :
    ({ w with sends } : World).Wf :=
  ⟨hwf.nodup, hwf.allocated, hwf.contexts, hwf.typed, hwf.separate, hwf.fresh, hwf.accepting⟩

theorem Wf.sound {w : World} (hwf : w.Wf) : w.custody.Sound := ⟨hwf.nodup, hwf.allocated⟩

/-- A request in flight is the one its context is found by. -/
theorem Wf.find_inflight {w : World} (hwf : w.Wf) {r : Request} (hr : r ∈ w.inflight) :
    w.inflight.find? (·.user_data = r.user_data) = some r := by
  obtain ⟨r', hfind⟩ : ∃ r', w.inflight.find? (·.user_data = r.user_data) = some r' :=
    Option.isSome_iff_exists.mp (List.find?_isSome.mpr ⟨r, hr, by simp⟩)
  have huser : r'.user_data = r.user_data := by simpa using List.find?_some hfind
  have hnodup : (w.inflight.map (·.user_data)).Nodup :=
    (List.nodup_append.mp (List.nodup_append.mp hwf.nodup).2.1).1
  have hsame : r' = r :=
    List.inj_on_of_nodup_map hnodup (List.mem_of_find?_eq_some hfind) hr huser
  rw [hfind, hsame]

/-- A context in flight is not being handled. -/
theorem Wf.not_handled {w : World} (hwf : w.Wf) {r : Request} (hr : r ∈ w.inflight) :
    ∀ h ∈ w.handling, h.context ≠ r.user_data := by
  intro h hh heq
  have hused : r.user_data ∈ w.custody.used := heq ▸ List.mem_map_of_mem hh
  exact (hwf.sound.disjoint hused).2 (List.mem_map_of_mem hr)

theorem take_context_custody (w : World) (fill : IoContext → IoContext) :
    (IoService.take_context w fill).2.custody = w.custody.take {} fill := by
  rw [take_context_eq]
  rfl

/-- The context that is taken is held by nobody any more, and the others are
    held as before. -/
theorem Wf.take_context {w : World} (hwf : w.Wf) (fill : IoContext → IoContext) :
    (IoService.take_context w fill).2.Wf ∧
      (next_context w).1 ∉ (IoService.take_context w fill).2.held ∧
      (next_context w).1 < (IoService.take_context w fill).2.allocated := by
  obtain ⟨hsound, hfree, hmade⟩ := hwf.sound.take {} fill
  rw [← take_context_custody] at hsound hfree hmade
  refine ⟨⟨hsound.nodup, hsound.made, ?_, ?_, ?_, ?_, ?_⟩, hfree, hmade⟩
  · have hout := (hwf.sound.next_free {}).1
    rw [take_context_eq]
    intro r hr
    have hne : r.user_data ≠ (next_context w).1 := by
      intro heq
      exact hout (heq ▸ List.mem_map_of_mem hr)
    simpa [hne] using hwf.contexts r hr
  all_goals rw [take_context_eq]
  · exact hwf.typed
  · exact hwf.separate
  · exact hwf.fresh
  · exact hwf.accepting

end World

end rioring
