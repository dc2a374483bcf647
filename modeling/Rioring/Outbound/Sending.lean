import Rioring.Outbound
import Rioring.Outbox

namespace rioring

namespace Outbound

variable {p : Platform} {o o' : Outbound} {a : Action}

/-- What holds of the sending side whatever happens. Before the first activation
    there is nothing to send. -/
structure Sound (o : Outbound) : Prop where
  valid : o.send_buffer.Valid
  writes : ∀ r ∈ o.writes, r.payload ≠ [] ∧ r.payload.length = r.context.iov.iov_len
  inactive : o.activations = 0 → o.send_buffer = {} ∧ o.writes = [] ∧ o.accepted = [] ∧
    o.written = [] ∧ o.connected_flag = false

/-- The part of the sending side that a submission leaves as it was. -/
structure Submitted (o o' : Outbound) : Prop where
  object : o'.object = o.object
  socket_type : o'.socket_type = o.socket_type
  send_buffer : o'.send_buffer = o.send_buffer
  shutdown_gracefully : o'.shutdown_gracefully = o.shutdown_gracefully
  connected_flag : o'.connected_flag = o.connected_flag
  accepted : o'.accepted = o.accepted
  requested : o'.requested = o.requested
  written : o'.written = o.written
  activations : o'.activations = o.activations

theorem submit_submitted (o : Outbound) (r : Request) (sqe : Bool) :
    o.Submitted (o.submit r sqe) := by
  rw [submit]
  split <;> exact ⟨rfl, rfl, rfl, rfl, rfl, rfl, rfl, rfl, rfl⟩

/-- The writes in flight after `submit_sending`: those there were, and perhaps
    one for what `main_buffer` holds. -/
theorem Sends.spec {addr : SockAddr} {sqe : Bool} (h : o.Sends addr sqe o') :
    o.Submitted o' ∧ (o'.writes = o.writes ∨ ∃ r, o.Writes addr r ∧ r.payload ≠ [] ∧
      o'.writes = o.writes ++ [r]) := by
  rcases h with ⟨r, hr, rfl⟩ | ⟨_, _, rfl⟩
  · refine ⟨submit_submitted o r sqe, ?_⟩
    rw [submit]
    split
    · by_cases hpayload : r.payload = []
      · left
        simp [Request.is_write, hpayload]
      · exact .inr ⟨r, hr, hpayload, by simp [Request.is_write, hr.type, hpayload]⟩
    · exact .inl rfl
  · exact ⟨⟨rfl, rfl, rfl, rfl, rfl, rfl, rfl, rfl, rfl⟩, .inl rfl⟩

theorem Writes.length {addr : SockAddr} {r : Request} (hvalid : o.send_buffer.Valid)
    (h : o.Writes addr r) : r.payload.length = r.context.iov.iov_len := by
  rw [h.payload, h.iov]
  exact hvalid.size_eq.symm

theorem Sound.sends {addr : SockAddr} {sqe : Bool} (hsound : o.Sound) (h : o.Sends addr sqe o') :
    o'.Sound := by
  obtain ⟨hsubmitted, hwrites⟩ := h.spec
  have hkeep : o.activations = 0 → o'.writes = [] := by
    intro hactivations
    obtain ⟨hempty, hnone, _⟩ := hsound.inactive hactivations
    rcases hwrites with hsame | ⟨r, hr, hpayload, _⟩
    · rw [hsame, hnone]
    · rw [hr.payload, hempty] at hpayload
      exact absurd rfl hpayload
  refine ⟨hsubmitted.send_buffer ▸ hsound.valid, ?_, ?_⟩
  · intro r hr
    rcases hwrites with hsame | ⟨r', hr', hpayload, happend⟩
    · exact hsound.writes r (hsame ▸ hr)
    · rw [happend] at hr
      rcases List.mem_append.mp hr with hr | hr
      · exact hsound.writes r hr
      · rw [List.mem_singleton.mp hr]
        exact ⟨hpayload, hr'.length hsound.valid⟩
  · intro hactivations
    rw [hsubmitted.activations] at hactivations
    obtain ⟨h1, h2, h3, h4, h5⟩ := hsound.inactive hactivations
    rw [hsubmitted.send_buffer, hsubmitted.accepted, hsubmitted.written, hsubmitted.connected_flag]
    exact ⟨h1, hkeep hactivations, h3, h4, h5⟩

/-- What `push` does to the queue, and that it needs storage for any byte. -/
theorem Sound.pushed (hsound : o.Sound) {bytes : Bytes} {send_buffer : IoDoubleBuffer}
    (hpush : o.send_buffer.push p.malloc bytes = .ok send_buffer) :
    o.send_buffer.Pushed bytes send_buffer ∧
      (o.activations = 0 → bytes.val = [] ∧ send_buffer = {}) := by
  refine ⟨IoDoubleBuffer.push_spec p.malloc_le hsound.valid bytes.property hpush, ?_⟩
  intro hactivations
  rw [(hsound.inactive hactivations).1] at hpush
  exact IoDoubleBuffer.push_unallocated .default .default bytes.property hpush

theorem Sound.queues {bytes : Bytes} {addr : SockAddr} {sqe : Bool} (hsound : o.Sound)
    (h : Queues p o bytes addr sqe o') : o'.Sound := by
  obtain ⟨send_buffer, hpush, hrest⟩ := h
  obtain ⟨hpushed, hinactive⟩ := hsound.pushed hpush
  have hset : ({ o with send_buffer } : Outbound).Sound := by
    refine ⟨hpushed.valid, hsound.writes, fun hactivations => ?_⟩
    obtain ⟨_, h2, h3, h4, h5⟩ := hsound.inactive hactivations
    exact ⟨(hinactive hactivations).2, h2, h3, h4, h5⟩
  rcases hrest with ⟨_, hsends⟩ | ⟨_, rfl⟩
  · exact hset.sends hsends
  · exact hset

theorem Sound.completes {r : Request} (hsound : o.Sound) (h : o.Completes r o') :
    o'.Sound ∧ r ∈ o.writes ∧ o.activations ≠ 0 := by
  obtain ⟨front, back, hwrites, rfl⟩ := h
  have hactive : o.activations ≠ 0 := by
    intro hactivations
    rw [(hsound.inactive hactivations).2.1] at hwrites
    simp at hwrites
  refine ⟨⟨hsound.valid, ?_, fun h => absurd h hactive⟩, by simp [hwrites], hactive⟩
  intro r' hr'
  apply hsound.writes
  rw [hwrites]
  rcases List.mem_append.mp hr' with hr' | hr'
  · exact List.mem_append_left _ hr'
  · exact List.mem_append_right _ (List.mem_cons_of_mem _ hr')

/-- A `send` that returns was made with storage, or with no byte. -/
theorem Sound.accept (hsound : o.Sound) {bytes : Bytes} {addr : SockAddr} {sqe : Bool}
    (h : Queues p { o with accepted := o.accepted ++ bytes } bytes addr sqe o') :
    ({ o with accepted := o.accepted ++ bytes } : Outbound).Sound := by
  refine ⟨hsound.valid, hsound.writes, fun hactivations => ?_⟩
  obtain ⟨h1, h2, h3, h4, h5⟩ := hsound.inactive hactivations
  obtain ⟨send_buffer, hpush, _⟩ := h
  obtain ⟨hnil, _⟩ := (hsound.pushed hpush).2 hactivations
  exact ⟨h1, h2, by simp [h3, hnil], h4, h5⟩

theorem Sound.request (hsound : o.Sound) (requested : List (List UInt8 × SockAddr)) :
    ({ o with requested } : Outbound).Sound :=
  ⟨hsound.valid, hsound.writes, hsound.inactive⟩

/-- Every move keeps the sending side sound. -/
theorem Sound.move (hsound : o.Sound) (hmove : Move p o a o') : o'.Sound := by
  cases hmove with
  | same => exact hsound
  | start hassign =>
    obtain ⟨hvalid, _, _, _⟩ :=
      IoDoubleBuffer.assign_spec p.malloc_le hsound.valid p.data_buffer_size_pos hassign
    exact ⟨hvalid, hsound.writes, fun h => absurd h (by simp)⟩
  | send addr htype hqueues => exact (hsound.accept hqueues).queues hqueues
  | send_to htype hqueues => exact (hsound.request _).queues hqueues
  | close => exact ⟨hsound.valid, hsound.writes, hsound.inactive⟩
  | receive_ended =>
    refine ⟨(IoDoubleBuffer.destroy_spec hsound.valid).1, hsound.writes, fun hactivations => ?_⟩
    obtain ⟨h1, h2, h3, h4, h5⟩ := hsound.inactive hactivations
    refine ⟨?_, h2, h3, h4, by simp [h5]⟩
    change o.send_buffer.destroy = {}
    rw [h1]
    rfl
  | sent garbage addr haddr hcomplete hcount hle hpop ho₂ hsend =>
    rename_i o₁ r count sqe send_buffer o₂
    obtain ⟨hsound₁, _, hactive⟩ := hsound.completes hcomplete
    obtain ⟨hpopValid, _⟩ := IoDoubleBuffer.pop_spec hsound.valid count
    obtain ⟨hvalid, _, _⟩ := IoDoubleBuffer.elevate_spec hpopValid
    have hsound₂ : o₂.Sound := by
      obtain ⟨front, back, _, rfl⟩ := hcomplete
      rw [ho₂, hpop]
      exact ⟨hvalid, hsound₁.writes, fun h => absurd h hactive⟩
    rcases hsend with ⟨_, rfl⟩ | ⟨_, hsends⟩
    · exact hsound₂
    · exact hsound₂.sends hsends
  | send_failed hpayload hcomplete => exact (hsound.completes hcomplete).1

theorem Queues.submitted {bytes : Bytes} {addr : SockAddr} {sqe : Bool}
    (h : Queues p o bytes addr sqe o') :
    o'.object = o.object ∧ o'.socket_type = o.socket_type ∧ o'.connected_flag = o.connected_flag ∧
      o'.shutdown_gracefully = o.shutdown_gracefully := by
  obtain ⟨_, _, ⟨_, hsends⟩ | ⟨_, rfl⟩⟩ := h
  · obtain ⟨hsubmitted, _⟩ := hsends.spec
    exact ⟨hsubmitted.object, hsubmitted.socket_type, hsubmitted.connected_flag,
      hsubmitted.shutdown_gracefully⟩
  · exact ⟨rfl, rfl, rfl, rfl⟩

/-- A move keeps the socket and its class. Only `start` and the end of the
    receive side touch `connected_flag`. -/
theorem Move.socket_type (hmove : Move p o a o') :
    o'.object = o.object ∧ o'.socket_type = o.socket_type ∧
      ((∀ sqe, a ≠ .start sqe) → (∀ r res, a ≠ .receive_ended r res) →
        o'.connected_flag = o.connected_flag) := by
  cases hmove with
  | same => exact ⟨rfl, rfl, fun _ _ => rfl⟩
  | start => exact ⟨rfl, rfl, fun hstart _ => absurd rfl (hstart _)⟩
  | send addr htype hqueues =>
    obtain ⟨h1, h2, h3, _⟩ := hqueues.submitted
    exact ⟨h1, h2, fun _ _ => h3⟩
  | send_to htype hqueues =>
    obtain ⟨h1, h2, h3, _⟩ := hqueues.submitted
    exact ⟨h1, h2, fun _ _ => h3⟩
  | close => exact ⟨rfl, rfl, fun _ _ => rfl⟩
  | receive_ended => exact ⟨rfl, rfl, fun _ hended => absurd rfl (hended _ _)⟩
  | sent garbage addr haddr hcomplete hcount hle hpop ho₂ hsend =>
    obtain ⟨front, back, _, rfl⟩ := hcomplete
    rcases hsend with ⟨_, rfl⟩ | ⟨_, hsends⟩
    · rw [ho₂]
      exact ⟨rfl, rfl, fun _ _ => rfl⟩
    · obtain ⟨hsubmitted, _⟩ := hsends.spec
      rw [hsubmitted.object, hsubmitted.socket_type, hsubmitted.connected_flag, ho₂]
      exact ⟨rfl, rfl, fun _ _ => rfl⟩
  | send_failed hpayload hcomplete =>
    obtain ⟨front, back, _, rfl⟩ := hcomplete
    exact ⟨rfl, rfl, fun _ _ => rfl⟩

/-- A move leaves `shutdown_gracefully` as it is, unless it is a graceful close
    that finds bytes queued. -/
theorem Move.shutdown_gracefully (hmove : Move p o a o') :
    o'.shutdown_gracefully = o.shutdown_gracefully ∨
      o'.shutdown_gracefully = true ∧ o.send_buffer.empty = false ∧ ∃ sqe, a = .close .graceful sqe := by
  cases hmove with
  | same => exact .inl rfl
  | start => exact .inl rfl
  | send addr htype hqueues => exact .inl hqueues.submitted.2.2.2
  | send_to htype hqueues => exact .inl hqueues.submitted.2.2.2
  | close hempty => exact .inr ⟨rfl, hempty, _, rfl⟩
  | receive_ended => exact .inl rfl
  | sent garbage addr haddr hcomplete hcount hle hpop ho₂ hsend =>
    obtain ⟨front, back, _, rfl⟩ := hcomplete
    left
    rcases hsend with ⟨_, rfl⟩ | ⟨_, hsends⟩
    · rw [ho₂]
    · rw [hsends.spec.1.shutdown_gracefully, ho₂]
  | send_failed hpayload hcomplete =>
    obtain ⟨front, back, _, rfl⟩ := hcomplete
    exact .inl rfl

/-- A graceful shutdown stays pending. -/
theorem Move.stays_pending (hmove : Move p o a o') (hpending : o.shutdown_gracefully = true) :
    o'.shutdown_gracefully = true := by
  rcases hmove.shutdown_gracefully with hsame | ⟨hset, _⟩
  · exact hsame.trans hpending
  · exact hset

theorem Move.of_receive_ended {r : Request} {res : Int}
    (hmove : Move p o (.receive_ended r res) o') :
    o'.writes = o.writes ∧ o'.send_buffer = o.send_buffer.destroy := by
  cases hmove with
  | same _ _ _ hended => exact absurd rfl (hended r res)
  | receive_ended => exact ⟨rfl, rfl⟩

/-- The write in flight, of which there is at most one, is the start of
    `main_buffer` and refers to its storage. -/
structure Steady (o : Outbound) : Prop where
  single : o.writes.length ≤ 1
  in_place : ∀ r ∈ o.writes, r.payload <+: o.send_buffer.main_buffer.contents ∧
    r.context.iov.iov_base = .send_buffer o.object o.send_buffer.main_buffer.generation

/-- A queue without bytes has none in flight. -/
theorem Steady.none_of_empty (hsound : o.Sound) (hsteady : o.Steady)
    (hempty : o.send_buffer.contents = []) : o.writes = [] := by
  rw [List.eq_nil_iff_forall_not_mem]
  intro r hr
  have hmain : o.send_buffer.main_buffer.contents = [] :=
    (List.append_eq_nil_iff.mp hempty).1
  have hstarts := (hsteady.in_place r hr).1
  rw [hmain] at hstarts
  exact (hsound.writes r hr).1 (List.prefix_nil.mp hstarts)

theorem Steady.of_none (hnone : o.writes = []) : o.Steady := by
  refine ⟨by simp [hnone], fun r hr => ?_⟩
  rw [hnone] at hr
  cases hr

/-- With nothing in flight, whatever is submitted is in place. -/
theorem Steady.sends {addr : SockAddr} {sqe : Bool} (hnone : o.writes = [])
    (h : o.Sends addr sqe o') : o'.Steady := by
  obtain ⟨hsubmitted, hwrites⟩ := h.spec
  rcases hwrites with hsame | ⟨r, hr, hpayload, happend⟩
  · exact .of_none (hsame.trans hnone)
  · rw [hnone, List.nil_append] at happend
    refine ⟨by simp [happend], fun r' hr' => ?_⟩
    rw [happend] at hr'
    rw [List.mem_singleton.mp hr', hsubmitted.send_buffer, hsubmitted.object, hr.payload, hr.iov]
    exact ⟨List.prefix_rfl, rfl⟩

/-- A push behind a write in flight leaves it in place. -/
theorem Steady.pushed {bytes : List UInt8} {send_buffer : IoDoubleBuffer} (hsound : o.Sound)
    (hsteady : o.Steady) (hpushed : o.send_buffer.Pushed bytes send_buffer) :
    ({ o with send_buffer } : Outbound).Steady := by
  refine ⟨hsteady.single, fun r hr => ?_⟩
  obtain ⟨hstarts, hbase⟩ := hsteady.in_place r hr
  have hmain : o.send_buffer.main_buffer.contents ≠ [] := by
    intro hnil
    rw [hnil] at hstarts
    exact (hsound.writes r hr).1 (List.prefix_nil.mp hstarts)
  refine ⟨hstarts.trans hpushed.main_prefix, ?_⟩
  rw [hbase, ← hpushed.main_stays hmain]

theorem Steady.queues {bytes : Bytes} {addr : SockAddr} {sqe : Bool} (hsound : o.Sound)
    (hsteady : o.Steady) (h : Queues p o bytes addr sqe o') : o'.Steady := by
  obtain ⟨send_buffer, hpush, hrest⟩ := h
  obtain ⟨hpushed, _⟩ := hsound.pushed hpush
  rcases hrest with ⟨hempty, hsends⟩ | ⟨_, rfl⟩
  · have hnone := hsteady.none_of_empty hsound (hsound.valid.empty_iff.mp hempty)
    exact Steady.sends (o := { o with send_buffer }) hnone hsends
  · exact hsteady.pushed hsound hpushed

/-- Taking the write in flight out leaves none. -/
theorem Steady.completes {r : Request} (hsteady : o.Steady) (h : o.Completes r o') :
    o.writes = [r] ∧ o' = { o with writes := [] } := by
  obtain ⟨front, back, hwrites, rfl⟩ := h
  have hsingle := hsteady.single
  rw [hwrites, List.length_append, List.length_cons] at hsingle
  have hfront : front = [] := List.length_eq_zero_iff.mp (by omega)
  have hback : back = [] := List.length_eq_zero_iff.mp (by omega)
  subst hfront hback
  exact ⟨hwrites, rfl⟩

/-- Every move keeps the write in flight in place, but the end of the receive
    side and a new activation, which find none in flight here. -/
theorem Steady.move (hsound : o.Sound) (hsteady : o.Steady) (hmove : Move p o a o')
    (hstart : ∀ sqe, a = .start sqe → o.writes = [])
    (hended : ∀ r res, a = .receive_ended r res → o.writes = []) : o'.Steady := by
  cases hmove with
  | same => exact hsteady
  | start => exact .of_none (hstart _ rfl)
  | send addr htype hqueues =>
    rename_i bytes sqe
    have hsame : ({ o with accepted := o.accepted ++ bytes } : Outbound).Steady :=
      ⟨hsteady.single, hsteady.in_place⟩
    exact hsame.queues (hsound.accept hqueues) hqueues
  | send_to htype hqueues =>
    rename_i bytes addr sqe
    have hsame : ({ o with requested := o.requested ++ [(bytes.val, addr)] } : Outbound).Steady :=
      ⟨hsteady.single, hsteady.in_place⟩
    exact hsame.queues (hsound.request _) hqueues
  | close => exact ⟨hsteady.single, hsteady.in_place⟩
  | receive_ended => exact .of_none (hended _ _ rfl)
  | sent garbage addr haddr hcomplete hcount hle hpop ho₂ hsend =>
    rename_i o₁ r count sqe send_buffer o₂
    obtain ⟨_, rfl⟩ := hsteady.completes hcomplete
    have hnone : o₂.writes = [] := by rw [ho₂]
    rcases hsend with ⟨_, rfl⟩ | ⟨_, hsends⟩
    · exact .of_none hnone
    · exact .sends hnone hsends
  | send_failed hpayload hcomplete =>
    obtain ⟨_, rfl⟩ := hsteady.completes hcomplete
    exact .of_none rfl

/-- The region of the write in flight holds what was submitted, whatever the
    kernel would find elsewhere. -/
theorem Steady.load_eq {r : Request} (hsound : o.Sound) (hsteady : o.Steady) (hr : r ∈ o.writes)
    (garbage : List UInt8) : o.load r.context.iov garbage = r.payload := by
  obtain ⟨hstarts, hbase⟩ := hsteady.in_place r hr
  have hstorage : r.payload <+: o.send_buffer.main_buffer.storage :=
    hstarts.trans (List.take_prefix _ _)
  rw [load, if_pos hbase, ← (hsound.writes r hr).2]
  exact (List.prefix_iff_eq_take.mp hstorage).symm

/-- The bytes the application has handed over. -/
def taken (o : Outbound) : List UInt8 :=
  match o.socket_type with
  | .tcp => o.accepted
  | .udp => o.requested.flatMap (·.1)

/-- The sending side as a sender of bytes. -/
def outbox (o : Outbound) : Outbox UInt8 where
  accepted := o.taken
  delivered := o.written
  queue := o.send_buffer.contents
  flight := o.writes.flatMap (·.payload)

theorem Submitted.taken (h : o.Submitted o') : o'.taken = o.taken := by
  rw [Outbound.taken, Outbound.taken, h.socket_type, h.accepted, h.requested]

theorem Sends.outbox {addr : SockAddr} {sqe : Bool} (hnone : o.writes = [])
    (h : o.Sends addr sqe o') : Outbox.Steps o.outbox o'.outbox := by
  obtain ⟨hsubmitted, hwrites⟩ := h.spec
  rcases hwrites with hsame | ⟨r, hr, _, happend⟩
  · have heq : o'.outbox = o.outbox := by
      simp only [Outbound.outbox, hsubmitted.taken, hsubmitted.written, hsubmitted.send_buffer, hsame]
    rw [heq]
    exact .refl
  · have heq : o'.outbox = o.outbox.launch o.send_buffer.main_buffer.contents.length := by
      simp only [Outbound.outbox, Outbox.launch, hsubmitted.taken, hsubmitted.written,
        hsubmitted.send_buffer, happend, hnone, IoDoubleBuffer.contents, List.take_left]
      simp [hr.payload]
    rw [heq]
    exact .launch _ _

theorem Queues.outbox {bytes : Bytes} {addr : SockAddr} {sqe : Bool} {b : Outbox UInt8}
    (hsound : o.Sound) (hsteady : o.Steady) (h : Queues p o bytes addr sqe o')
    (hb : o.outbox = { b with accepted := b.accepted ++ bytes }) : Outbox.Steps b o'.outbox := by
  obtain ⟨send_buffer, hpush, hrest⟩ := h
  obtain ⟨hpushed, _⟩ := hsound.pushed hpush
  have haccept : ({ o with send_buffer } : Outbound).outbox = b.accept bytes := by
    have hqueue : o.send_buffer.contents = b.queue := congrArg Outbox.queue hb
    calc ({ o with send_buffer } : Outbound).outbox
        = { o.outbox with queue := o.send_buffer.contents ++ bytes } := by
          rw [← hpushed.contents]
          rfl
      _ = b.accept bytes := by
          rw [hb, hqueue]
          rfl
  rcases hrest with ⟨hempty, hsends⟩ | ⟨_, rfl⟩
  · have hnone := hsteady.none_of_empty hsound (hsound.valid.empty_iff.mp hempty)
    have hsteps := Sends.outbox (o := { o with send_buffer }) hnone hsends
    rw [haccept] at hsteps
    exact (Outbox.Steps.accept b bytes).trans hsteps
  · rw [haccept]
    exact .accept b bytes

/-- In one activation whose receive side does not end, the sending side is a
    sender that owes what it has accepted. -/
theorem Move.outbox (hsound : o.Sound) (hsteady : o.Steady) (hmove : Move p o a o')
    (hstart : ∀ sqe, a = .start sqe → o.activations = 0) (hended : ∀ r res, a ≠ .receive_ended r res) :
    Outbox.Steps o.outbox o'.outbox := by
  cases hmove with
  | same => exact .refl
  | start hassign =>
    rename_i send_buffer sqe
    obtain ⟨hempty, _⟩ := hsound.inactive (hstart _ rfl)
    obtain ⟨_, hmain, _, hsub⟩ :=
      IoDoubleBuffer.assign_spec p.malloc_le hsound.valid p.data_buffer_size_pos hassign
    have hcontents : send_buffer.contents = o.send_buffer.contents := by
      rw [IoDoubleBuffer.contents, hmain, hsub, hempty]
      rfl
    rw [Outbound.outbox, Outbound.outbox, hcontents]
    exact .refl
  | send addr htype hqueues =>
    rename_i bytes sqe
    have hsame : ({ o with accepted := o.accepted ++ bytes } : Outbound).Steady :=
      ⟨hsteady.single, hsteady.in_place⟩
    refine hqueues.outbox (hsound.accept hqueues) hsame ?_
    simp [Outbound.outbox, taken, htype]
  | send_to htype hqueues =>
    rename_i bytes addr sqe
    have hsame : ({ o with requested := o.requested ++ [(bytes.val, addr)] } : Outbound).Steady :=
      ⟨hsteady.single, hsteady.in_place⟩
    refine hqueues.outbox (hsound.request _) hsame ?_
    simp [Outbound.outbox, taken, htype]
  | close => exact .refl
  | receive_ended => exact absurd rfl (hended _ _)
  | sent garbage addr haddr hcomplete hcount hle hpop ho₂ hsend =>
    rename_i o₁ r count sqe send_buffer o₂
    obtain ⟨hwrites, rfl⟩ := hsteady.completes hcomplete
    have hr : r ∈ o.writes := by simp [hwrites]
    have hlength : count ≤ o.send_buffer.main_buffer.contents.length :=
      hle.trans (hsteady.in_place r hr).1.length_le
    obtain ⟨hpopValid, hpopped⟩ := IoDoubleBuffer.pop_spec hsound.valid count
    obtain ⟨_, helevated, _⟩ := IoDoubleBuffer.elevate_spec hpopValid
    rw [if_pos hlength] at hpopped
    have hdeliver : o₂.outbox = o.outbox.deliver count := by
      rw [ho₂, hpop, hsteady.load_eq hsound hr]
      simp only [Outbound.outbox, Outbox.deliver, hwrites, helevated, hpopped]
      simp [taken]
    have hsteps : Outbox.Steps o.outbox o₂.outbox := by
      rw [hdeliver]
      exact .deliver _ (by simpa [Outbound.outbox, hwrites] using hle)
    rcases hsend with ⟨_, rfl⟩ | ⟨_, hsends⟩
    · exact hsteps
    · exact hsteps.trans (hsends.outbox (by rw [ho₂]))
  | send_failed hpayload hcomplete =>
    obtain ⟨_, rfl⟩ := hsteady.completes hcomplete
    exact .abandon _

end Outbound

/-- A new socket has nothing to send and nothing in flight. -/
theorem View.Fresh.outbound {v : View} (hfresh : v.Fresh) :
    v.outbound.Sound ∧ v.outbound.Steady ∧ v.outbound.outbox.Ok := by
  obtain ⟨hrequests, hhistory, _, hsend, _, hflag⟩ := hfresh
  have hwrites : v.outbound.writes = [] := by simp [View.outbound, hrequests]
  have hbuffer : v.outbound.send_buffer = {} := hsend
  have haccepted : v.outbound.accepted = [] := by simp [View.outbound, hhistory]
  have hrequested : v.outbound.requested = [] := by simp [View.outbound, hhistory]
  have hwritten : v.outbound.written = [] := by simp [View.outbound, hhistory]
  refine ⟨⟨?_, ?_, fun _ => ⟨hbuffer, hwrites, haccepted, hwritten, hflag⟩⟩, .of_none hwrites, ?_, ?_⟩
  · rw [hbuffer]
    exact .default
  · intro r hr
    rw [hwrites] at hr
    cases hr
  · cases htype : v.outbound.socket_type <;>
      simp [Outbound.outbox, Outbound.taken, htype, hbuffer, haccepted, hrequested, hwritten]
  · simp [Outbound.outbox, hwrites]

end rioring
