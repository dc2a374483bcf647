import Rioring.Chat.Requests
import Rioring.Relay

/-! The messages that `pool::chat_all` sends. It holds the lock of the pool while it
sends one, so that they come to every client in one order. -/

namespace rioring

open World Service

namespace Chat

variable {p : Platform} {concurrency k : Nat} {s t : Service} {j : ObjectId} {e : Event}
  {todo : List ObjectId} {log : List (ObjectId × Bytes)} {joined : Nat}

/-- Where the client of socket `j` is with the messages of `log`. -/
def phase (w : World) (todo : List ObjectId) (j : ObjectId) : Relay.Phase :=
  .of ((w.history j).activations != 0) (w.live j) (w.sending j) (todo.contains j)

/-- What socket `j` has accepted is what its client has heard of the log, behind the
    `joined` messages that had passed it before. -/
def Hearing (w : World) (todo : List ObjectId) (log : List (ObjectId × Bytes)) (joined : Nat)
    (j : ObjectId) : Prop :=
  (w.sockets j).isSome → ∃ before heard, Relay.Hears (phase w todo j) log before heard ∧
    ((w.history j).activations ≠ 0 → before.length = joined) ∧
    (w.history j).accepted = (heard.map (·.2.val)).flatten

/-- A socket that is sent to has been activated. -/
def Sent (w : World) (j : ObjectId) : Prop :=
  w.sending j = true → (w.sockets j).isSome ∧ (w.history j).activations ≠ 0

/-- Whatever happens to a client beside `send` may make it join, or leave. -/
theorem Hearing.process (hreach : (service p concurrency).Reachable accepts_only s)
    (hhearing : Hearing s.world todo log joined j) (hsent : Sent s.world j)
    (hcalls : ∀ i, e.activates i = false) (hprocess : s.process p concurrency e k = some t)
    (hsending : t.world.sending j = s.world.sending j) (haccepts : (s.world.action j e).accepts = [])
    (hlog : j ∈ todo → log ≠ []) :
    Hearing t.world todo log (if Server.activated_since s.world t.world j then
      log.length - (todo.contains j).toNat else joined) j ∧ Sent t.world j := by
  obtain ⟨_, hstep, _, _⟩ := process_spec hprocess
  obtain ⟨_, hcalled⟩ := accepts_only_permits hreach j
  have hallowed := permits_accepted hcalled (hcalls j) hstep
  have hwf := Wf.reachable (Sound.reachable hreach).reached
  cases hsock : s.world.sockets j with
  | none =>
    have hunsent : s.world.sending j = false := by
      rw [← Bool.not_eq_true]
      intro h
      obtain ⟨hsome, _⟩ := hsent h
      rw [hsock] at hsome
      cases hsome
    refine ⟨fun hsome => ?_, fun h => ?_⟩
    · obtain ⟨sock', hsock'⟩ := Option.isSome_iff_exists.mp hsome
      have hfresh := ((hwf.step_does hstep).moves j).fresh _ (view_eq_none hsock) (view_eq hsock')
      have hhistory : t.world.history j = {} := hfresh.history
      refine ⟨[], [], ?_, ?_, ?_⟩
      · rw [phase, hhistory]
        exact .absent log []
      · rw [hhistory]
        exact fun h => absurd rfl h
      · rw [hhistory]
        rfl
    · rw [hsending, hunsent] at h
      cases h
  | some sock =>
    obtain ⟨before, heard, hheard, hjoined, haccepted⟩ := hhearing (by rw [hsock]; rfl)
    obtain ⟨sock', hsock', hkeeps⟩ := hwf.keeps hstep hsock
    have hsame : (t.world.history j).accepted = (s.world.history j).accepted := by
      have h := hkeeps.accepted
      rw [haccepts, List.append_nil] at h
      exact h
    rw [phase, live_eq hsock] at hheard
    rcases hkeeps.flags with ⟨hactivations, _, hlive⟩ | ⟨⟨sqe, haction⟩, hactivations, _⟩
    · have hactivations : (t.world.history j).activations = (s.world.history j).activations :=
        hactivations
      refine ⟨fun _ => ⟨before, heard, ?_, ?_, hsame.trans haccepted⟩, fun h => ?_⟩
      · rw [phase, hactivations, live_eq hsock', hsending]
        exact hheard.keep hlive
      · rw [Server.activated_since, hactivations, bne_self_eq_false, Bool.and_false]
        exact hjoined
      · rw [hsending] at h
        rw [hactivations, hsock']
        exact ⟨rfl, (hsent h).2⟩
    · have hpermitted := hallowed _ (view_eq hsock)
      rw [haction] at hpermitted
      have hzero : (s.world.history j).activations = 0 := hpermitted
      have hone : (t.world.history j).activations = (s.world.history j).activations + 1 := hactivations
      have hunsent : s.world.sending j = false := by
        rw [← Bool.not_eq_true]
        exact fun h => (hsent h).2 hzero
      refine ⟨fun _ => ⟨if todo.contains j then log.dropLast else log, heard, ?_, fun _ => ?_,
        hsame.trans haccepted⟩, fun h => ?_⟩
      · rw [hzero, hunsent] at hheard
        rw [phase, hone, hzero, hsending, hunsent]
        exact Relay.Hears.joins hheard fun h => hlog (by simpa using h)
      · rw [Server.activated_since, hsock, hone, hzero]
        cases todo.contains j
        · rfl
        · exact List.length_dropLast
      · rw [hsending, hunsent] at h
        cases h

/-- The clients of the pool and what they have heard: at most one `send` is under way,
    that of the message `chat_all` sends, and whoever is connected is in the pool. -/
structure Relayed (w : World) (broadcast : Option Broadcast) (clients : List ObjectId)
    (log : List (ObjectId × Bytes)) (joined : ObjectId → Nat) : Prop where
  sends : w.sends = [] ∨ ∃ b i, broadcast = some b ∧ w.sends = [(i, b.response)] ∧ i ∉ b.todo
  last : ∀ b, broadcast = some b → log.getLast? = some (b.speaker, b.response) ∧ b.todo.Nodup
  nodup : clients.Nodup
  members : ∀ j sock, w.sockets j = some sock → sock.connected_flag = true → j ∈ clients
  hearing : ∀ j, Hearing w (broadcast.elim [] (·.todo)) log (joined j) j ∧ Sent w j

section Relayed

variable {broadcast : Option Broadcast} {clients : List ObjectId} {joined : ObjectId → Nat}

/-- A socket that is connected was so, or has been made active. -/
theorem connected_before {w w' : World} {sock' : SocketObject} (hwf : w.Wf)
    (hstep : (machine p).step w e = some w') (hsock' : w'.sockets j = some sock')
    (hconnected : sock'.connected_flag = true) :
    (∃ sock, w.sockets j = some sock ∧ sock.connected_flag = true) ∨ ∃ sqe, w.action j e = .start sqe := by
  cases hsock : w.sockets j with
  | none =>
    have hfresh := ((hwf.step_does hstep).moves j).fresh _ (view_eq_none hsock) (view_eq hsock')
    have hflag : sock'.connected_flag = false := hfresh.connected_flag
    rw [hconnected] at hflag
    cases hflag
  | some sock =>
    obtain ⟨sock₁, hsock₁, hkeeps⟩ := hwf.keeps hstep hsock
    rw [hsock'] at hsock₁
    cases hsock₁
    rcases hkeeps.flags with ⟨_, hkept, _⟩ | ⟨hstart, _⟩
    · exact .inl ⟨sock, rfl, hkept hconnected⟩
    · exact .inr hstart

/-- Only `on_active` makes a socket active. -/
theorem activated_since_false {w w' : World} (hwf : w.Wf) (hstep : (machine p).step w e = some w')
    (hstart : ∀ sqe, w.action j e ≠ .start sqe) : Server.activated_since w w' j = false := by
  rw [Server.activated_since]
  cases hsock : w.sockets j with
  | none => rfl
  | some sock =>
    obtain ⟨sock', hsock', hkeeps⟩ := hwf.keeps hstep hsock
    obtain ⟨hsame, _⟩ := hkeeps.flags.resolve_right fun h => h.1.elim hstart
    have hsame : (w'.history j).activations = (w.history j).activations := hsame
    rw [hsame, bne_self_eq_false, Bool.and_false]

theorem Relayed.log_ne_nil (hrelayed : Relayed s.world broadcast clients log joined)
    (hj : j ∈ broadcast.elim [] (·.todo)) : log ≠ [] := by
  cases broadcast with
  | none => cases hj
  | some b =>
    intro hnil
    obtain ⟨hlast, _⟩ := hrelayed.last b rfl
    rw [hnil] at hlast
    cases hlast

/-- A step of the library, or a call of a callback beside `send`. -/
theorem Relayed.process (hreach : (service p concurrency).Reachable accepts_only s)
    (hrelayed : Relayed s.world broadcast clients log joined) (hcalls : ∀ i, e.activates i = false)
    (hprocess : s.process p concurrency e k = some t) (hsend : ∀ i bytes, e ≠ .send i bytes)
    (hlocked : ∀ index sqe, e ≠ .send_locked index sqe)
    (hstart : ∀ j sqe, s.world.action j e = .start sqe → j ∈ clients) :
    Relayed t.world broadcast clients log fun j => if Server.activated_since s.world t.world j then
      log.length - ((broadcast.elim [] (·.todo)).contains j).toNat else joined j := by
  obtain ⟨_, hstep, _, _⟩ := process_spec hprocess
  have hwf := Wf.reachable (Sound.reachable hreach).reached
  have hsends : t.world.sends = s.world.sends := (hwf.step_threads hstep).sends_kept hsend hlocked
  refine ⟨?_, hrelayed.last, hrelayed.nodup, fun j sock' hsock' hconnected => ?_, fun j => ?_⟩
  · rw [hsends]
    exact hrelayed.sends
  · rcases connected_before hwf hstep hsock' hconnected with ⟨sock, hsock, hwas⟩ | ⟨sqe, haction⟩
    · exact hrelayed.members j sock hsock hwas
    · exact hstart j sqe haction
  · obtain ⟨hhearing, hsent⟩ := hrelayed.hearing j
    refine hhearing.process hreach hsent hcalls hprocess ?_ ?_ hrelayed.log_ne_nil
    · rw [sending, hsends]
      rfl
    · cases haction : s.world.action j e with
      | send bytes sqe =>
        obtain ⟨index, heq, _⟩ := action_send haction
        exact absurd heq (hlocked index sqe)
      | _ => rfl

/-- `chat_all` has the lock, and nothing is being sent. -/
theorem Relayed.chat_all (hrelayed : Relayed s.world none clients log joined) {order : List ObjectId}
    (horder : order.Perm clients) (speaker : ObjectId) (response : Bytes) :
    Relayed s.world (some { speaker, response, todo := order }) clients
      (log ++ [(speaker, response)]) joined := by
  have hidle : s.world.sends = [] := by
    rcases hrelayed.sends with hnil | ⟨b, _, heq, _⟩
    · exact hnil
    · cases heq
  refine ⟨.inl hidle, fun b hb => ?_, hrelayed.nodup, hrelayed.members, fun j => ?_⟩
  · cases hb
    exact ⟨List.getLast?_concat, horder.nodup_iff.mpr hrelayed.nodup⟩
  · obtain ⟨hhearing, hsent⟩ := hrelayed.hearing j
    refine ⟨fun hsome => ?_, hsent⟩
    obtain ⟨before, heard, hheard, hjoined, haccepted⟩ := hhearing hsome
    refine ⟨before, heard, ?_, hjoined, haccepted⟩
    have hunsent : s.world.sending j = false := by rw [sending, hidle, List.any_nil]
    rw [phase, hunsent] at hheard ⊢
    refine Relay.Hears.published hheard _ fun _ hlive => ?_
    obtain ⟨sock, hsock⟩ := Option.isSome_iff_exists.mp hsome
    rw [live_eq hsock, Outbound.live, Bool.and_eq_true] at hlive
    exact List.contains_iff_mem.mpr (horder.mem_iff.mpr (hrelayed.members j sock hsock hlive.1))

/-- The guard of `send` to the next client: it is live, and is sent to, or it is left
    out. -/
theorem Relayed.send (hreach : (service p concurrency).Reachable accepts_only s) {b : Broadcast}
    (hrelayed : Relayed s.world (some b) clients log joined) {todo : List ObjectId}
    (htodo : b.todo = j :: todo) (hidle : s.world.sends = [])
    (hprocess : s.process p concurrency (.send j b.response) k = some t) :
    Relayed t.world (some { b with todo }) clients log joined := by
  obtain ⟨_, hstep, _, _⟩ := process_spec hprocess
  obtain ⟨⟨sock, hsock⟩, hworld⟩ := send_step hstep
  obtain ⟨hlast, hnodup⟩ := hrelayed.last b rfl
  rw [htodo, List.nodup_cons] at hnodup
  have hsends : t.world.sends = if s.world.live j then [(j, b.response)] else [] := by
    rw [hworld]
    split
    · simp [hidle]
    · exact hidle
  have hsame : t.world.sockets = s.world.sockets ∧ t.world.history = s.world.history ∧
      t.world.live = s.world.live := by
    rw [hworld]
    split <;> exact ⟨rfl, rfl, rfl⟩
  obtain ⟨hsockets, hhistory, hlives⟩ := hsame
  refine ⟨?_, ?_, hrelayed.nodup, ?_, fun i => ⟨?_, fun h => ?_⟩⟩
  · rw [hsends]
    split
    · exact .inr ⟨_, j, rfl, rfl, hnodup.1⟩
    · exact .inl rfl
  · rintro b' hb'
    cases hb'
    exact ⟨hlast, hnodup.2⟩
  · rw [hsockets]
    exact hrelayed.members
  · intro hsome
    rw [hsockets] at hsome
    obtain ⟨before, heard, hheard, haccepted⟩ := (hrelayed.hearing i).1 hsome
    refine ⟨before, heard, ?_, by rw [hhistory]; exact haccepted⟩
    have hphase : phase t.world todo i = phase s.world b.todo i := by
      rw [phase, phase, hhistory, hlives, htodo, sending, sending, hsends, hidle, List.any_nil]
      by_cases hi : i = j
      · subst i
        cases s.world.live j <;> cases (s.world.history j).activations != 0 <;>
          simp [Relay.Phase.of]
      · have hother : (List.any (if s.world.live j then [(j, b.response)] else []) fun x => x.1 == i) =
            false := by
          split <;> simp [Ne.symm hi]
        rw [hother, List.contains_cons, beq_eq_false_iff_ne.mpr hi, Bool.false_or]
    change Relay.Hears (phase t.world todo i) log before heard
    rw [hphase]
    exact hheard
  · rw [sending, hsends] at h
    split at h
    · rename_i hlive
      obtain rfl : j = i := by simpa using h
      rw [hsockets, hhistory, hsock]
      refine ⟨rfl, fun hzero => ?_⟩
      have hsound := reachable_sound (Sound.reachable hreach).reached hsock
      rw [live_eq hsock, Outbound.live, (hsound.inactive hzero).2.2.2.2] at hlive
      cases hlive
    · cases h

/-- The locked body of that `send`: the message is accepted. -/
theorem Relayed.send_locked (hreach : (service p concurrency).Reachable accepts_only s)
    {b : Broadcast} {sqe : Bool} (hrelayed : Relayed s.world (some b) clients log joined)
    (hprocess : s.process p concurrency (.send_locked 0 sqe) k = some t) :
    Relayed t.world (some b) clients log joined := by
  obtain ⟨_, hstep, _, _⟩ := process_spec hprocess
  have hwf := Wf.reachable (Sound.reachable hreach).reached
  obtain ⟨i, hsends, hout⟩ : ∃ i, s.world.sends = [(i, b.response)] ∧ i ∉ b.todo := by
    rcases hrelayed.sends with hnil | ⟨b', i, heq, hsends, hout⟩
    · obtain ⟨_, hfirst, _⟩ := Option.bind_eq_some_iff.mp hstep
      rw [hnil] at hfirst
      cases hfirst
    · cases heq
      exact ⟨i, hsends, hout⟩
  have hidle : t.world.sends = [] := by
    rw [(send_locked_threads hstep).2, hsends]
    rfl
  have haction : ∀ j, s.world.action j (.send_locked 0 sqe) =
      if i = j then .send b.response sqe else .idle := by
    intro j
    simp only [World.action, hsends, List.getElem?_cons_zero]
  refine ⟨.inl hidle, hrelayed.last, hrelayed.nodup, fun j sock' hsock' hconnected => ?_, fun j => ?_⟩
  · rcases connected_before hwf hstep hsock' hconnected with ⟨sock, hsock, hwas⟩ | ⟨sqe', hstart⟩
    · exact hrelayed.members j sock hsock hwas
    · rw [haction] at hstart
      split at hstart <;> cases hstart
  · obtain ⟨hhearing, hsent⟩ := hrelayed.hearing j
    by_cases hj : i = j
    · subst j
      have hsending : s.world.sending i = true := by simp [sending, hsends]
      obtain ⟨hsome, hactive⟩ := hsent hsending
      obtain ⟨sock, hsock⟩ := Option.isSome_iff_exists.mp hsome
      obtain ⟨before, heard, hheard, hbefore, haccepted⟩ := hhearing hsome
      obtain ⟨sock', hsock', hkeeps⟩ :=
        Wf.keeps (p := p) (e := .send_locked 0 sqe) hwf hstep hsock
      obtain ⟨hadded, _, hflags⟩ := hkeeps
      rw [haction, if_pos rfl] at hadded hflags
      obtain ⟨hactivations, _, hlive⟩ := hflags.resolve_right fun h => by simp at h
      have hactivations : (t.world.history i).activations = (s.world.history i).activations :=
        hactivations
      have hadded : (t.world.history i).accepted = (s.world.history i).accepted ++ b.response := hadded
      have hunlisted : b.todo.contains i = false := by simpa using hout
      have hunsent : t.world.sending i = false := by rw [sending, hidle, List.any_nil]
      have hjoined : ((s.world.history i).activations != 0) = true := bne_iff_ne.mpr hactive
      refine ⟨fun _ => ⟨before, heard ++ [(b.speaker, b.response)], ?_, ?_, ?_⟩, fun h => ?_⟩
      · change Relay.Hears (phase s.world b.todo i) log before heard at hheard
        change Relay.Hears (phase t.world b.todo i) log before _
        rw [phase, hjoined, hsending, live_eq hsock] at hheard
        rw [phase, hactivations, hjoined, hunsent, hunlisted, live_eq hsock']
        exact (hheard.arrives (hrelayed.last b rfl).1).keep hlive
      · rw [hactivations]
        exact hbefore
      · rw [hadded, haccepted]
        simp
      · rw [hunsent] at h
        cases h
    · have hunsent : s.world.sending j = false := by simp [sending, hsends, hj]
      have hkept := hhearing.process hreach hsent (fun _ => rfl) hprocess
        (by rw [hunsent, sending, hidle, List.any_nil]) (by rw [haction, if_neg hj]; rfl)
        hrelayed.log_ne_nil
      rwa [activated_since_false hwf hstep (by rw [haction, if_neg hj]; simp)] at hkept

/-- What a socket has accepted is one piece of the log, to its end when the socket is
    still connected and nothing is under way. -/
theorem Relayed.piece {w : World} {sock : SocketObject} (hrelayed : Relayed w broadcast clients log joined)
    (hsock : w.sockets j = some sock) (hactive : (w.history j).activations ≠ 0) :
    ∃ heard, heard <+: log.drop (joined j) ∧
      (w.history j).accepted = (heard.map (·.2.val)).flatten ∧
      (sock.connected_flag = true → sock.shutdown_gracefully = false → broadcast = none →
        heard = log.drop (joined j)) := by
  obtain ⟨before, heard, hheard, hbefore, haccepted⟩ := (hrelayed.hearing j).1 (by rw [hsock]; rfl)
  have hjoined : ((w.history j).activations != 0) = true := bne_iff_ne.mpr hactive
  rw [phase, hjoined] at hheard
  obtain ⟨hpiece, hcurrent⟩ := hheard.piece Relay.Phase.of_ne_absent
  rw [← hbefore hactive]
  refine ⟨heard, hpiece, haccepted, fun hconnected hgraceful hidle => hcurrent ?_⟩
  have hsends : w.sends = [] := by
    rcases hrelayed.sends with hnil | ⟨b, _, hb, _⟩
    · exact hnil
    · rw [hidle] at hb
      cases hb
  have hlive : w.live j = true := by
    rw [live_eq hsock, Outbound.live, Bool.and_eq_true, Bool.not_eq_true']
    exact ⟨hconnected, hgraceful⟩
  have hunsent : w.sending j = false := by rw [sending, hsends, List.any_nil]
  rw [hlive, hunsent, hidle]
  rfl

end Relayed

namespace Server

variable {s t : Server}

theorem activated_since_same (w : World) (j : ObjectId) : activated_since w w j = false := by
  rw [activated_since, bne_self_eq_false, Bool.and_false]

/-- A call of a callback that is no `send` sends nothing. -/
theorem relayed_call {s t : Service} {e : Event} {k : Nat} {broadcast : Option Broadcast}
    {clients : List ObjectId} {joined : ObjectId → Nat}
    (hreach : (rioring.service p concurrency).Reachable accepts_only s)
    (hrelayed : Relayed s.world broadcast clients log joined)
    (hprocess : s.process p concurrency e k = some t) (hcallback : e.by_callback = true)
    (hsend : ∀ i bytes, e ≠ .send i bytes) (hlocked : ∀ index sqe, e ≠ .send_locked index sqe) :
    Relayed t.world broadcast clients log joined := by
  have hcalls := Event.by_callback_activates hcallback
  have hstart : ∀ j sqe, s.world.action j e ≠ .start sqe := by
    intro j sqe haction
    rcases action_start haction with hactivates | ⟨c, a, rfl⟩
    · rw [hcalls] at hactivates
      cases hactivates
    · cases hcallback
  have hwf := Wf.reachable (Sound.reachable hreach).reached
  have hkept := hrelayed.process hreach hcalls hprocess hsend hlocked
    fun j sqe haction => absurd haction (hstart j sqe)
  simpa only [activated_since_false hwf (process_spec hprocess).2.1 (hstart _), Bool.false_eq_true,
    ↓reduceIte] using hkept

theorem relayed {allowed : Server → ServerEvent → Prop}
    (hreach : (server p concurrency).Reachable allowed s) :
    Relayed s.world s.broadcast s.clients s.log s.joined := by
  refine Machine.Run.invariant (P := fun s => Relayed s.world s.broadcast s.clients s.log s.joined)
    hreach ?_ ?_
  · refine ⟨.inl rfl, ?_, List.nodup_nil, ?_, fun j => ⟨?_, ?_⟩⟩
    · rintro b hb
      cases hb
    · rintro j sock hsock
      cases hsock
    · rintro hsome
      cases hsome
    · rintro hsending
      cases hsending
  intro s e t hs hrelayed _ hstep
  have hservice := serves.accepts_reached hs
  change s.step p concurrency e = some t at hstep
  cases e with
  | service e =>
    obtain ⟨hobeys, hlibrary, ht⟩ := library_spec hstep
    rw [ht]
    cases e with
    | process e k =>
      have hobeys : s.obeys e = true := hobeys
      refine hrelayed.process hservice (obeys_accepts_only hobeys) hlibrary ?_ ?_
        fun j sqe haction => obeys_start (s := s) hobeys haction
      · rintro i bytes rfl
        cases hobeys
      · rintro i sqe rfl
        cases hobeys
    | stop =>
      have hworld : t.service.world = s.service.world := by rw [(stop_spec hlibrary).2]; rfl
      simpa only [world, hworld, activated_since_same, Bool.false_eq_true, ↓reduceIte] using hrelayed
    | cancelled k =>
      have hworld : t.service.world = s.service.world := by rw [(cancelled_spec hlibrary).1]
      simpa only [world, hworld, activated_since_same, Bool.false_eq_true, ↓reduceIte] using hrelayed
  | on_accept c ring =>
    obtain ⟨i, _, _, hnew, s₁, s₂, h₁, h₂, h₃, ht⟩ := on_accept_spec hstep
    have hreach₁ := by_callback_reaches hservice rfl h₁
    have hreach₂ := by_callback_reaches hreach₁ rfl h₂
    have hset := relayed_call hreach₂ (relayed_call hreach₁ (relayed_call hservice hrelayed h₁ rfl
      (by simp) (by simp)) h₂ rfl (by simp) (by simp)) h₃ rfl (by simp) (by simp)
    rw [ht]
    refine ⟨hset.sends, hset.last, ?_, fun j sock hsock hconnected => ?_, hset.hearing⟩
    · exact List.nodup_append'.mpr ⟨hset.nodup, List.nodup_singleton i, by simpa using hnew⟩
    · exact List.mem_append_left _ (hset.members j sock hsock hconnected)
  | pass i ring sqe =>
    obtain ⟨turn, sock, result, _, _, _, _, hcase⟩ := pass_step_spec hstep
    rcases hcase with ⟨_, rfl⟩ | ⟨size, u, _, hpop, hclose, ht⟩ | ⟨array, size, output, u, _, hpop, ht⟩
    · exact hrelayed
    · obtain ⟨hprocess, hu⟩ := pop_spec hpop
      have hpopped := relayed_call hservice hrelayed hprocess rfl (by simp) (by simp)
      have hclosed := relayed_call (by_callback_reaches hservice rfl hprocess) hpopped hclose rfl (by simp)
        (by simp)
      rw [ht, hu]
      exact hclosed
    · obtain ⟨hprocess, hu⟩ := pop_spec hpop
      rw [ht, hu]
      exact relayed_call hservice hrelayed hprocess rfl (by simp) (by simp)
  | chat_all i order =>
    obtain ⟨turn, output, response, _, hidle, horder, _, rfl⟩ := chat_all_spec hstep
    rw [hidle] at hrelayed
    exact hrelayed.chat_all horder i response
  | send ring =>
    obtain ⟨b, j, todo, hb, htodo, hidle, hprocess, ht⟩ := send_spec hstep
    rw [hb] at hrelayed
    rw [ht]
    exact hrelayed.send hservice htodo hidle hprocess
  | send_locked ring sqe =>
    obtain ⟨b, hb, hprocess, ht⟩ := send_locked_spec hstep
    rw [ht]
    rw [hb] at hrelayed ⊢
    exact hrelayed.send_locked hservice hprocess
  | sent_all =>
    obtain ⟨b, hb, htodo, hidle, rfl⟩ := sent_all_spec hstep
    rw [hb] at hrelayed
    refine ⟨.inl hidle, by simp, hrelayed.nodup, hrelayed.members, fun j => ?_⟩
    have hhearing := hrelayed.hearing j
    simp only [Option.elim_some, htodo] at hhearing
    exact hhearing
  | on_close i =>
    obtain ⟨hidle, hclosing, rfl⟩ := on_close_spec hstep
    refine ⟨hrelayed.sends, hrelayed.last, hrelayed.nodup.erase i, ?_, hrelayed.hearing⟩
    intro j sock hsock hconnected
    obtain ⟨hpermits, _⟩ := accepts_only_permits hservice j
    have hlinked := linked_reachable (permitted hpermits) hsock
    refine (List.mem_erase_of_ne ?_).mpr (hrelayed.members j sock hsock hconnected)
    rintro rfl
    simp only [closing, Bool.and_eq_true, List.contains_iff_mem] at hclosing
    exact hlinked.unclosed hconnected hclosing.1

end Server

variable {s : Server} {sock : SocketObject} {allowed : Server → ServerEvent → Prop}

/-- What a client is sent is one piece of the sequence of all messages that
    `chat_all` was called with: whole messages, in their order, from where the client
    became active. Once no `chat_all` is under way a client that is still connected has
    been sent all of them. -/
theorem chat_all_heard (hreach : (server p concurrency).Reachable allowed s)
    (hsock : s.world.sockets j = some sock) (hactive : (s.world.history j).activations ≠ 0) :
    ∃ heard, heard <+: s.log.drop (s.joined j) ∧
      (s.world.history j).accepted = (heard.map (·.2.val)).flatten ∧
      (sock.connected_flag = true → sock.shutdown_gracefully = false → s.broadcast = none →
        heard = s.log.drop (s.joined j)) :=
  (Server.relayed hreach).piece hsock hactive

/-- A client that is connected is in the pool, once. -/
theorem connected_in_pool (hreach : (server p concurrency).Reachable allowed s)
    (hsock : s.world.sockets j = some sock) (hconnected : sock.connected_flag = true) :
    s.clients.count j = 1 := by
  have hrelayed := Server.relayed hreach
  exact List.count_eq_one_of_mem hrelayed.nodup (hrelayed.members j sock hsock hconnected)

theorem chat_all_heard_relayed : ∃ s, (server .roomy 2).Reachable Machine.Any s ∧
    s.log.length = 2 ∧ (s.world.history 2).accepted =
      ((s.log.drop (s.joined 2)).map (·.2.val)).flatten := by
  obtain ⟨s, hreach, hs⟩ := requests_are_relayed
  obtain ⟨sock, hsock, hconnected, hgraceful, hactive, _, _, _, hidle, hlog⟩ := relayed_in_halves_spec hs
  obtain ⟨heard, _, hheard, hall⟩ := chat_all_heard hreach hsock hactive
  rw [hall hconnected hgraceful hidle] at hheard
  exact ⟨s, hreach, hlog, hheard⟩

theorem connected_in_pool_relayed : ∃ s, (server .roomy 2).Reachable Machine.Any s ∧
    s.clients.count 2 = 1 := by
  obtain ⟨s, hreach, hs⟩ := requests_are_relayed
  obtain ⟨sock, hsock, hconnected, _⟩ := relayed_in_halves_spec hs
  exact ⟨s, hreach, connected_in_pool hreach hsock hconnected⟩

end Chat

end rioring
