import Rioring.Inbound.Receiving

/-! A receive in the steps its handler takes: the bytes arrive in `recv_bind_buffer`,
the count is taken up, the bytes are copied, the next read is submitted, and the
callback is made. -/

namespace rioring

/-- How far the handler of a read that has brought bytes has come. -/
inductive ReceiveStage where
  /-- `io_received` has been called with the count -/
  | taken (count : Nat)
  /-- the bytes are in `recv_buffer` -/
  | copied
  /-- the next read is submitted -/
  | armed
  deriving DecidableEq, Repr

/-- The receiving side of a socket with its `recv_bind_buffer`. `arrived` are the bytes
    that the kernel has written there for a read and that are not copied yet, `stage` is
    how far each handler has come, `ring` the ring of each context, and `copied` what
    has been pushed to `recv_buffer` so far. -/
@[ext]
structure Intake where
  inbound : Inbound
  recv_bind_buffer : List UInt8
  arrived : ContextId → Option (List UInt8)
  stage : ContextId → Option ReceiveStage
  ring : ContextId → Nat
  copied : List UInt8

namespace Intake

variable {p : Platform} {q q' : Intake} {c : ContextId}

/-- The contexts of the reads in flight. -/
def reading (q : Intake) : List ContextId := q.inbound.reads.map (·.user_data)

/-- No thread that is in a handler of the socket is the one that takes up the read. -/
def Free (q : Intake) (c : ContextId) : Prop := ∀ c', q.stage c' ≠ none → q.ring c' ≠ q.ring c

/-- The rings of the contexts in use are as they were. -/
def KeepsRings (q : Intake) (ring : ContextId → Nat) : Prop :=
  ∀ c, q.stage c ≠ none ∨ c ∈ q.reading → ring c = q.ring c

/-- The steps that a receive is made of, and the moves of the receiving side that are
    not a read with bytes. -/
inductive Move (p : Platform) : Intake → Intake → Prop where
  | other {q : Intake} {a : Action} {inbound : Inbound} {ring : ContextId → Nat}
      (hmove : Inbound.Move p q.inbound a inbound)
      (hstart : ∀ sqe, a = .start sqe → q.inbound.activations = 0)
      (hreceived : ∀ r data sqe, a ≠ .received r data sqe)
      (hended : ∀ r res, a = .receive_ended r res →
        q.arrived r.user_data = none ∧ q.Free r.user_data)
      (hring : q.KeepsRings ring) : Move p q { q with inbound, ring }
  | arrive {q : Intake} {r : Request} {data : List UInt8} (hr : r ∈ q.inbound.reads)
      (hidle : q.stage r.user_data = none) (hnone : q.arrived r.user_data = none) (hdata : data ≠ [])
      (hlength : data.length ≤ r.context.iov.iov_len) :
      Move p q { q with
        inbound := { q.inbound with received := q.inbound.received ++ data }
        recv_bind_buffer := data
        arrived := Function.update q.arrived r.user_data (some data) }
  | take {q : Intake} {r : Request} {data : List UInt8} {inbound : Inbound}
      (hcomplete : q.inbound.Completes r inbound)
      (harrived : q.arrived r.user_data = some data) (hfree : q.Free r.user_data) :
      Move p q { q with
        inbound
        stage := Function.update q.stage r.user_data (some (.taken data.length)) }
  | copy {q : Intake} {c : ContextId} {count : Nat} {recv_buffer : IoBuffer}
      (hstage : q.stage c = some (.taken count))
      (hpush : q.inbound.recv_buffer.push p.malloc (q.recv_bind_buffer.take count) =
        .ok recv_buffer) :
      Move p q { q with
        inbound := { q.inbound with recv_buffer }
        arrived := Function.update q.arrived c none
        stage := Function.update q.stage c (some .copied)
        copied := q.copied ++ q.recv_bind_buffer.take count }
  | arm {q : Intake} {c : ContextId} {sqe : Bool} {inbound : Inbound} {ring : ContextId → Nat}
      (hstage : q.stage c = some .copied) (hreceive : q.inbound.Receives p sqe inbound)
      (hnew : ∀ r ∈ inbound.reads, r ∉ q.inbound.reads → ring r.user_data = q.ring c)
      (hring : q.KeepsRings ring) :
      Move p q { q with inbound, ring, stage := Function.update q.stage c (some .armed) }
  | call {q : Intake} {c : ContextId} (hstage : q.stage c = some .armed) (registered : Bool)
      (addr : SockAddr) :
      Move p q { q with
        inbound := { q.inbound with events := q.inbound.events ++
          if registered then [.receive q.inbound.recv_buffer.contents addr] else [] }
        stage := Function.update q.stage c none }

theorem Move.to {q₁ q₂ : Intake} (hmove : Move p q q₁) (hsame : q₂ = q₁) : Move p q q₂ := hsame ▸ hmove

/-- One stream comes in, in the steps that a receive is made of: a read is in flight only
    while no handler has bytes to copy or the next read to submit, and the bytes in
    `recv_bind_buffer` are the next ones behind those that are copied. -/
structure Whole (p : Platform) (q : Intake) : Prop where
  sound : q.inbound.Sound p
  single : q.inbound.reads.length ≤ 1
  serial : ∀ c c', q.stage c ≠ none → q.stage c' ≠ none → c = c'
  unarmed : ∀ c, q.stage c ≠ none → q.stage c ≠ some .armed → q.inbound.reads = []
  armed : ∀ c, q.stage c = some .armed → ∀ r ∈ q.inbound.reads, q.ring r.user_data = q.ring c
  arrived : ∀ c data, q.arrived c = some data → data.length ≤ p.data_buffer_size ∧
    q.recv_bind_buffer = data ∧ q.inbound.received = q.copied ++ data ∧
    (c ∈ q.reading ∧ q.stage c = none ∨ q.stage c = some (.taken data.length))
  taken : ∀ c count, q.stage c = some (.taken count) → q.arrived c ≠ none
  settled : (∀ c, q.arrived c = none) → q.inbound.received = q.copied
  held : q.inbound.recv_buffer.raw_buffer.isSome →
    q.inbound.recv_buffer.contents = q.copied.drop q.inbound.popped ∧
      q.inbound.popped ≤ q.copied.length ∧ .close ∉ q.inbound.events
  ended : q.inbound.recv_buffer.raw_buffer = none →
    q.inbound.reads = [] ∧ ∀ c, q.stage c = none
  inactive : q.inbound.activations = 0 → q.inbound.recv_buffer.raw_buffer = none ∧
    q.copied = [] ∧ q.inbound.popped = 0 ∧ .close ∉ q.inbound.events
  closed : ∃ front, .close ∉ front ∧
    (q.inbound.events = front ∨ q.inbound.events = front ++ [.close])

/-- A socket with a handler or a read in flight is active. -/
theorem Whole.active (hwhole : q.Whole p) (hbusy : q.inbound.reads ≠ [] ∨ ∃ c, q.stage c ≠ none) :
    q.inbound.recv_buffer.raw_buffer.isSome ∧ q.inbound.activations ≠ 0 := by
  have hraw : q.inbound.recv_buffer.raw_buffer.isSome := by
    rw [← Option.ne_none_iff_isSome]
    intro hnone
    obtain ⟨hreads, hstage⟩ := hwhole.ended hnone
    exact hbusy.elim (fun h => h hreads) fun ⟨c, h⟩ => h (hstage c)
  refine ⟨hraw, fun hzero => ?_⟩
  rw [(hwhole.inactive hzero).1] at hraw
  cases hraw

/-- Of a read in flight that is taken up no handler of the socket is under way. -/
theorem Whole.no_stage (hwhole : q.Whole p) {r : Request} (hr : r ∈ q.inbound.reads)
    (hfree : q.Free r.user_data) (c : ContextId) : q.stage c = none := by
  by_contra hstage
  by_cases harmed : q.stage c = some .armed
  · exact hfree c hstage (hwhole.armed c harmed r hr).symm
  · rw [hwhole.unarmed c hstage harmed] at hr
    cases hr

/-- The read in flight is the only one. -/
theorem Whole.only (hwhole : q.Whole p) {r r' : Request} (hr : r ∈ q.inbound.reads)
    (hr' : r' ∈ q.inbound.reads) : r' = r := by
  obtain ⟨only, honly⟩ := List.length_eq_one_iff.mp
    (Nat.le_antisymm hwhole.single (List.length_pos_of_mem hr))
  rw [honly] at hr hr'
  rw [List.mem_singleton.mp hr, List.mem_singleton.mp hr']

/-- Bytes wait for one context only. -/
theorem Whole.waiting (hwhole : q.Whole p) {c' : ContextId} (hc : q.arrived c ≠ none)
    (hc' : q.arrived c' ≠ none) : c = c' := by
  obtain ⟨data, hdata⟩ := Option.ne_none_iff_exists'.mp hc
  obtain ⟨data', hdata'⟩ := Option.ne_none_iff_exists'.mp hc'
  obtain ⟨_, _, _, hplace⟩ := hwhole.arrived c data hdata
  obtain ⟨_, _, _, hplace'⟩ := hwhole.arrived c' data' hdata'
  have hreading : ∀ {c₁ c₂ count}, c₁ ∈ q.reading → q.stage c₂ ≠ some (.taken count) := by
    intro c₁ c₂ count hreading htaken
    obtain ⟨r, hr, _⟩ := List.mem_map.mp hreading
    rw [hwhole.unarmed c₂ (by simp [htaken]) (by simp [htaken])] at hr
    cases hr
  rcases hplace with ⟨hplace, _⟩ | htaken
  · rcases hplace' with ⟨hplace', _⟩ | htaken'
    · obtain ⟨r, hr, rfl⟩ := List.mem_map.mp hplace
      obtain ⟨r', hr', rfl⟩ := List.mem_map.mp hplace'
      rw [hwhole.only hr hr']
    · exact absurd htaken' (hreading hplace)
  · rcases hplace' with ⟨hplace', _⟩ | htaken'
    · exact absurd htaken (hreading hplace')
    · exact hwhole.serial c c' (by simp [htaken]) (by simp [htaken'])

theorem Whole.none_arrived (hwhole : q.Whole p) (hreads : q.inbound.reads = [])
    (hstage : ∀ c, q.stage c = none) (c : ContextId) : q.arrived c = none := by
  by_contra harrived
  obtain ⟨data, hdata⟩ := Option.ne_none_iff_exists'.mp harrived
  obtain ⟨_, _, _, ⟨hplace, _⟩ | htaken⟩ := hwhole.arrived c data hdata
  · rw [Intake.reading, hreads] at hplace
    cases hplace
  · rw [hstage] at htaken
    cases htaken

/-- While a read is in flight, bytes have arrived for it or all are copied. -/
theorem Whole.reading (hwhole : q.Whole p) {r : Request} (hr : r ∈ q.inbound.reads)
    (hnone : q.arrived r.user_data = none) (c : ContextId) : q.arrived c = none := by
  by_contra harrived
  obtain ⟨data, hdata⟩ := Option.ne_none_iff_exists'.mp harrived
  obtain ⟨_, _, _, ⟨hplace, _⟩ | htaken⟩ := hwhole.arrived c data hdata
  · obtain ⟨r', hr', rfl⟩ := List.mem_map.mp hplace
    rw [hwhole.only hr hr'] at harrived
    exact harrived hnone
  · rw [hwhole.unarmed c (by simp [htaken]) (by simp [htaken])] at hr
    cases hr

/-- Before the read is armed the handler is the only one, and no read is in flight. -/
theorem Whole.alone (hwhole : q.Whole p) (hc : q.stage c ≠ none) {c' : ContextId} (hne : c' ≠ c) :
    q.stage c' = none := by
  by_contra hc'
  exact hne (hwhole.serial c' c hc' hc)

/-- The bytes of a count that was taken up. -/
theorem Whole.count (hwhole : q.Whole p) {count : Nat} (hc : q.stage c = some (.taken count)) :
    ∃ data, q.arrived c = some data ∧ data.length = count ∧ data.length ≤ p.data_buffer_size ∧
      q.recv_bind_buffer.take count = data ∧ q.inbound.received = q.copied ++ data := by
  obtain ⟨data, hdata⟩ := Option.ne_none_iff_exists'.mp (hwhole.taken c count hc)
  obtain ⟨hlength, hbuffer, hreceived, hplace⟩ := hwhole.arrived c data hdata
  have hcount : data.length = count := by
    rcases hplace with ⟨_, hnone⟩ | htaken
    · rw [hc] at hnone
      cases hnone
    · rw [hc] at htaken
      simpa using htaken.symm
  exact ⟨data, hdata, hcount, hlength, by rw [hbuffer, ← hcount, List.take_length], hreceived⟩

theorem Whole.with_ring (hwhole : q.Whole p) {ring : ContextId → Nat} (hring : q.KeepsRings ring) :
    ({ q with ring } : Intake).Whole p := by
  refine ⟨hwhole.sound, hwhole.single, hwhole.serial, hwhole.unarmed, ?_, hwhole.arrived, hwhole.taken,
    hwhole.settled, hwhole.held, hwhole.ended, hwhole.inactive, hwhole.closed⟩
  intro c hc r hr
  have hstage : q.stage c ≠ none := Option.ne_none_iff_exists'.mpr ⟨_, hc⟩
  exact (hring _ (.inr (List.mem_map_of_mem hr))).trans
    ((hwhole.armed c hc r hr).trans (hring c (.inl hstage)).symm)

/-- A socket that is activated once begins with an empty buffer. -/
theorem Whole.start (hwhole : q.Whole p) (hzero : q.inbound.activations = 0) {inbound : Inbound}
    {sqe : Bool} (hmove : Inbound.Move p q.inbound (.start sqe) inbound) :
    ({ q with inbound } : Intake).Whole p := by
  have hsound := hwhole.sound.move hmove
  obtain ⟨hraw, hcopied, hpopped, hunclosed⟩ := hwhole.inactive hzero
  obtain ⟨hreads, hstage⟩ := hwhole.ended hraw
  cases hmove with
  | same => exact hwhole
  | start hassign hreceive =>
    obtain ⟨_, hempty, hraw', _⟩ := IoBuffer.assign_spec p.malloc_le p.data_buffer_size_pos hassign
    obtain ⟨hbuffer, hreceived, hpopped', hevents, hactivations, added, hreads', hlength, _⟩ :=
      hreceive.spec
    have harrived := hwhole.none_arrived hreads hstage
    refine ⟨hsound, ?_, hwhole.serial, fun c hc => absurd (hstage c) hc, fun c hc => ?_,
      fun c data hc => ?_, hwhole.taken, fun _ => ?_, fun _ => ?_, fun h => ?_, fun h => ?_, ?_⟩
    · change inbound.reads.length ≤ 1
      rw [hreads', hreads, List.nil_append, hlength]
      exact Bool.toNat_le _
    · have hnone : q.stage c = none := hstage c
      exact absurd (hnone.symm.trans hc) (by simp)
    · exact absurd ((harrived c).symm.trans hc) (by simp)
    · exact hreceived.trans (hwhole.settled harrived)
    · change inbound.recv_buffer.contents = q.copied.drop inbound.popped ∧
        inbound.popped ≤ q.copied.length ∧ Callback.close ∉ inbound.events
      rw [hbuffer, hpopped', hevents, hempty, hcopied, hpopped]
      exact ⟨rfl, Nat.le_refl _, hunclosed⟩
    · change inbound.recv_buffer.raw_buffer = none at h
      rw [hbuffer] at h
      rw [h] at hraw'
      cases hraw'
    · change inbound.activations = 0 at h
      rw [hactivations] at h
      simp at h
    · change ∃ front, Callback.close ∉ front ∧ (inbound.events = front ∨
        inbound.events = front ++ [.close])
      rw [hevents]
      exact hwhole.closed

/-- The end of the stream comes after the last of its bytes is copied and shown. -/
theorem Whole.receive_ended (hwhole : q.Whole p) {r : Request} {res : Int} {inbound : Inbound}
    (hnone : q.arrived r.user_data = none) (hfree : q.Free r.user_data)
    (hmove : Inbound.Move p q.inbound (.receive_ended r res) inbound) :
    ({ q with inbound } : Intake).Whole p := by
  have hsound := hwhole.sound.move hmove
  cases hmove with
  | same _ hended => exact absurd rfl (hended r res)
  | receive_ended hcomplete registered =>
    rename_i n₁
    have hr := hcomplete.mem
    obtain ⟨hcount, _, _, hactive⟩ := hwhole.sound.completes hcomplete
    have hsingle := hwhole.single
    have hreads : n₁.reads = [] := List.eq_nil_of_length_eq_zero (by omega)
    have hstage := hwhole.no_stage hr hfree
    have harrived := hwhole.reading hr hnone
    obtain ⟨hraw, _⟩ := hwhole.active (.inl (List.ne_nil_of_mem hr))
    obtain ⟨_, _, hunclosed⟩ := hwhole.held hraw
    have hdestroyed := IoBuffer.destroy_raw_buffer q.inbound.recv_buffer
    obtain ⟨front, back, _, rfl⟩ := hcomplete
    refine ⟨hsound, by rw [hreads]; exact Nat.zero_le _, hwhole.serial,
      fun c hc => absurd (hstage c) hc, fun c hc => ?_, fun c data hc => ?_, hwhole.taken,
      hwhole.settled, fun h => ?_, fun _ => ⟨hreads, hstage⟩, fun h => absurd h hactive,
      q.inbound.events, hunclosed, ?_⟩
    · exact absurd ((hstage c).symm.trans hc) (by simp)
    · exact absurd ((harrived c).symm.trans hc) (by simp)
    · rw [hdestroyed] at h
      cases h
    · cases registered
      · exact .inl (List.append_nil _)
      · exact .inr rfl

theorem Whole.pop (hwhole : q.Whole p) {size : Nat} {inbound : Inbound}
    (hmove : Inbound.Move p q.inbound (.pop size) inbound) : ({ q with inbound } : Intake).Whole p := by
  have hsound := hwhole.sound.move hmove
  cases hmove with
  | same _ _ hpop => exact absurd rfl (hpop size)
  | pop size =>
    obtain ⟨_, _, hallocated, _⟩ := IoBuffer.pop_spec hwhole.sound.valid size
    have hnone : (q.inbound.recv_buffer.pop size).raw_buffer = none ↔
        q.inbound.recv_buffer.raw_buffer = none := by
      rw [← Option.not_isSome_iff_eq_none, ← Option.not_isSome_iff_eq_none, hallocated]
    refine ⟨hsound, hwhole.single, hwhole.serial, hwhole.unarmed, hwhole.armed, hwhole.arrived,
      hwhole.taken, hwhole.settled, fun hraw => ?_, fun hraw => hwhole.ended (hnone.mp hraw),
      fun h => ?_, hwhole.closed⟩
    · simp only [hallocated] at hraw
      obtain ⟨hcontents, hle, hunclosed⟩ := hwhole.held hraw
      obtain ⟨hcontents', hle'⟩ := IoBuffer.pop_drop hwhole.sound.valid hcontents hle size
      exact ⟨hcontents', hle', hunclosed⟩
    · obtain ⟨hraw, hcopied, hpopped, hunclosed⟩ := hwhole.inactive h
      exact ⟨hnone.mpr hraw, hcopied, (hwhole.sound.pop_none hraw size).trans hpopped, hunclosed⟩

theorem Whole.arrive (hwhole : q.Whole p) {r : Request} {data : List UInt8} (hr : r ∈ q.inbound.reads)
    (hidle : q.stage r.user_data = none) (hnone : q.arrived r.user_data = none)
    (hlength : data.length ≤ r.context.iov.iov_len) :
    ({ q with
      inbound := { q.inbound with received := q.inbound.received ++ data }
      recv_bind_buffer := data
      arrived := Function.update q.arrived r.user_data (some data) } : Intake).Whole p := by
  have hbefore := hwhole.reading hr hnone
  have hreceived : q.inbound.received = q.copied := hwhole.settled hbefore
  refine ⟨⟨hwhole.sound.valid, hwhole.sound.reads, hwhole.sound.inactive, hwhole.sound.fits⟩,
    hwhole.single, hwhole.serial, hwhole.unarmed, hwhole.armed, fun c data' hc => ?_,
    fun c count hc => ?_, fun h => ?_, hwhole.held, hwhole.ended, hwhole.inactive, hwhole.closed⟩
  · by_cases heq : c = r.user_data
    · subst heq
      have hself : Function.update q.arrived r.user_data (some data) r.user_data = some data :=
        Function.update_self ..
      obtain rfl := Option.some.inj (hself.symm.trans hc)
      exact ⟨hwhole.sound.reads r hr ▸ hlength, rfl, congrArg (· ++ data) hreceived,
        .inl ⟨List.mem_map_of_mem hr, hidle⟩⟩
    · have hother : Function.update q.arrived r.user_data (some data) c = none :=
        (Function.update_of_ne heq _ _).trans (hbefore c)
      exact absurd (hother.symm.trans hc) (by simp)
  · exact absurd (hbefore c) (hwhole.taken c count hc)
  · have hself : Function.update q.arrived r.user_data (some data) r.user_data = some data :=
      Function.update_self ..
    exact absurd (hself.symm.trans (h r.user_data)) (by simp)

/-- The thread that takes up the count is in no other handler of the socket. -/
theorem Whole.take (hwhole : q.Whole p) {r : Request} {data : List UInt8} {inbound : Inbound}
    (hcomplete : q.inbound.Completes r inbound) (harrived : q.arrived r.user_data = some data)
    (hfree : q.Free r.user_data) : ({ q with
      inbound
      stage := Function.update q.stage r.user_data (some (.taken data.length)) } : Intake).Whole p := by
  obtain ⟨hcount, hreads, _, hactive⟩ := hwhole.sound.completes hcomplete
  have hsingle := hwhole.single
  have hnil : inbound.reads = [] := List.eq_nil_of_length_eq_zero (by omega)
  have hr := hcomplete.mem
  have hstage := hwhole.no_stage hr hfree
  obtain ⟨hraw, _⟩ := hwhole.active (.inl (List.ne_nil_of_mem hr))
  have hwaiting : q.arrived r.user_data ≠ none := Option.ne_none_iff_exists'.mpr ⟨_, harrived⟩
  obtain ⟨front, back, _, rfl⟩ := hcomplete
  have honly : ∀ c, Function.update q.stage r.user_data (some (.taken data.length)) c ≠ none →
      c = r.user_data := by
    intro c hc
    by_contra hne
    rw [Function.update_of_ne hne] at hc
    exact hc (hstage c)
  refine ⟨⟨hwhole.sound.valid, hreads, fun h => absurd h hactive, hwhole.sound.fits⟩,
    by rw [hnil]; exact Nat.zero_le _, fun c c' hc hc' => (honly c hc).trans (honly c' hc').symm,
    fun _ _ _ => hnil, fun c hc r' hr' => ?_, fun c data' hc => ?_, fun c count hc => ?_,
    hwhole.settled, hwhole.held, fun h => ?_, fun h => absurd h hactive, hwhole.closed⟩
  · rw [hnil] at hr'
    cases hr'
  · obtain rfl := hwhole.waiting (Option.ne_none_iff_exists'.mpr ⟨_, hc⟩) hwaiting
    obtain rfl := Option.some.inj (harrived.symm.trans hc)
    obtain ⟨hlength, hbuffer, hreceived, _⟩ := hwhole.arrived _ data hc
    exact ⟨hlength, hbuffer, hreceived, .inr (Function.update_self ..)⟩
  · rw [honly c (Option.ne_none_iff_exists'.mpr ⟨_, hc⟩)]
    exact hwaiting
  · rw [h] at hraw
    cases hraw

/-- What is copied are the bytes that have arrived, and nothing is left to copy. -/
theorem Whole.copy (hwhole : q.Whole p) {count : Nat} {recv_buffer : IoBuffer}
    (hstage : q.stage c = some (.taken count))
    (hpush : q.inbound.recv_buffer.push p.malloc (q.recv_bind_buffer.take count) = .ok recv_buffer) :
    ({ q with
      inbound := { q.inbound with recv_buffer }
      arrived := Function.update q.arrived c none
      stage := Function.update q.stage c (some .copied)
      copied := q.copied ++ q.recv_bind_buffer.take count } : Intake).Whole p := by
  obtain ⟨data, hdata, _, hlength, hbuffer, hreceived⟩ := hwhole.count hstage
  have hbusy : q.stage c ≠ none := Option.ne_none_iff_exists'.mpr ⟨_, hstage⟩
  have hreads : q.inbound.reads = [] := hwhole.unarmed c hbusy (by simp [hstage])
  obtain ⟨hraw, hactive⟩ := hwhole.active (.inr ⟨c, hbusy⟩)
  have hbound : data.length ≤ PTRDIFF_MAX := hlength.trans (hwhole.sound.fits hactive)
  rw [hbuffer] at hpush ⊢
  obtain ⟨hvalid, hcontents, _, hallocated⟩ :=
    IoBuffer.push_spec p.malloc_le hwhole.sound.valid hbound hpush
  obtain ⟨hheld, hle, hunclosed⟩ := hwhole.held hraw
  have honly : ∀ c', Function.update q.stage c (some .copied) c' ≠ none → c' = c := by
    intro c' hc'
    by_contra hne
    rw [Function.update_of_ne hne] at hc'
    exact hc' (hwhole.alone hbusy hne)
  have hself : Function.update q.stage c (some ReceiveStage.copied) c = some .copied :=
    Function.update_self ..
  have hnone : ∀ c', Function.update q.arrived c none c' = none := by
    intro c'
    by_cases heq : c' = c
    · rw [heq, Function.update_self]
    · rw [Function.update_of_ne heq]
      by_contra harrived
      exact heq (hwhole.waiting harrived (Option.ne_none_iff_exists'.mpr ⟨_, hdata⟩))
  refine ⟨⟨hvalid, hwhole.sound.reads, hwhole.sound.inactive, hwhole.sound.fits⟩, hwhole.single,
    fun c₁ c₂ hc₁ hc₂ => (honly c₁ hc₁).trans (honly c₂ hc₂).symm, fun _ _ _ => hreads,
    fun c' hc' r hr => ?_, fun c' data' hc' => ?_, fun c' count' hc' => ?_, fun _ => hreceived,
    fun _ => ⟨?_, ?_, hunclosed⟩, fun h => ?_, fun h => absurd h hactive, hwhole.closed⟩
  · change r ∈ q.inbound.reads at hr
    rw [hreads] at hr
    cases hr
  · exact absurd ((hnone c').symm.trans hc') (by simp)
  · obtain rfl := honly c' (Option.ne_none_iff_exists'.mpr ⟨_, hc'⟩)
    exact absurd (hself.symm.trans hc') (by simp)
  · change recv_buffer.contents = (q.copied ++ data).drop q.inbound.popped
    rw [hcontents, hheld, List.drop_append_of_le_length hle]
  · change q.inbound.popped ≤ (q.copied ++ data).length
    rw [List.length_append]
    omega
  · change recv_buffer.raw_buffer = none at h
    rw [h, hraw] at hallocated
    cases hallocated

/-- The next read is submitted to the ring of the handler. -/
theorem Whole.arm (hwhole : q.Whole p) {sqe : Bool} {inbound : Inbound} {ring : ContextId → Nat}
    (hstage : q.stage c = some .copied) (hreceive : q.inbound.Receives p sqe inbound)
    (hnew : ∀ r ∈ inbound.reads, r ∉ q.inbound.reads → ring r.user_data = q.ring c)
    (hring : q.KeepsRings ring) :
    ({ q with inbound, ring, stage := Function.update q.stage c (some .armed) } : Intake).Whole p := by
  have hbusy : q.stage c ≠ none := Option.ne_none_iff_exists'.mpr ⟨_, hstage⟩
  have hreads : q.inbound.reads = [] := hwhole.unarmed c hbusy (by simp [hstage])
  obtain ⟨hraw, hactive⟩ := hwhole.active (.inr ⟨c, hbusy⟩)
  obtain ⟨hbuffer, hreceived, hpopped, hevents, hactivations, added, hadded, hlength, hsize⟩ :=
    hreceive.spec
  rw [hreads, List.nil_append] at hadded
  have honly : ∀ c', Function.update q.stage c (some .armed) c' ≠ none → c' = c := by
    intro c' hc'
    by_contra hne
    rw [Function.update_of_ne hne] at hc'
    exact hc' (hwhole.alone hbusy hne)
  have hself : Function.update q.stage c (some ReceiveStage.armed) c = some .armed :=
    Function.update_self ..
  have hnone : ∀ c', q.arrived c' = none := by
    intro c'
    by_contra harrived
    obtain ⟨data, hdata⟩ := Option.ne_none_iff_exists'.mp harrived
    obtain ⟨_, _, _, ⟨hplace, _⟩ | htaken⟩ := hwhole.arrived c' data hdata
    · rw [Intake.reading, hreads] at hplace
      cases hplace
    · obtain rfl := hwhole.serial c' c (Option.ne_none_iff_exists'.mpr ⟨_, htaken⟩) hbusy
      rw [hstage] at htaken
      cases htaken
  refine ⟨⟨hbuffer ▸ hwhole.sound.valid, hadded ▸ hsize, fun h => ?_, fun h => ?_⟩, ?_,
    fun c₁ c₂ hc₁ hc₂ => (honly c₁ hc₁).trans (honly c₂ hc₂).symm, fun c' hc' hne => ?_,
    fun c' hc' r hr => ?_, fun c' data hc' => ?_, fun c' count hc' => ?_, fun _ => ?_, fun _ => ?_,
    fun h => ?_, fun h => ?_, ?_⟩
  · exact absurd (hactivations.symm.trans h) hactive
  · exact hwhole.sound.fits hactive
  · change inbound.reads.length ≤ 1
    rw [hadded, hlength]
    exact Bool.toNat_le _
  · obtain rfl := honly c' hc'
    exact absurd hself hne
  · obtain rfl := honly c' (Option.ne_none_iff_exists'.mpr ⟨_, hc'⟩)
    exact (hnew r hr (by rw [hreads]; exact List.not_mem_nil)).trans (hring c' (.inl hbusy)).symm
  · exact absurd ((hnone c').symm.trans hc') (by simp)
  · obtain rfl := honly c' (Option.ne_none_iff_exists'.mpr ⟨_, hc'⟩)
    exact absurd (hself.symm.trans hc') (by simp)
  · exact hreceived.trans (hwhole.settled hnone)
  · change inbound.recv_buffer.contents = q.copied.drop inbound.popped ∧
      inbound.popped ≤ q.copied.length ∧ Callback.close ∉ inbound.events
    rw [hbuffer, hpopped, hevents]
    exact hwhole.held hraw
  · change inbound.recv_buffer.raw_buffer = none at h
    rw [hbuffer] at h
    rw [h] at hraw
    cases hraw
  · exact absurd (hactivations.symm.trans h) hactive
  · change ∃ front, Callback.close ∉ front ∧ (inbound.events = front ∨
      inbound.events = front ++ [.close])
    rw [hevents]
    exact hwhole.closed

/-- The callback is made while the buffer is there, so before any close event. -/
theorem Whole.call (hwhole : q.Whole p) (hstage : q.stage c = some .armed) (registered : Bool)
    (addr : SockAddr) : ({ q with
      inbound := { q.inbound with events := q.inbound.events ++
        if registered then [.receive q.inbound.recv_buffer.contents addr] else [] }
      stage := Function.update q.stage c none } : Intake).Whole p := by
  have hbusy : q.stage c ≠ none := Option.ne_none_iff_exists'.mpr ⟨_, hstage⟩
  obtain ⟨hraw, hactive⟩ := hwhole.active (.inr ⟨c, hbusy⟩)
  obtain ⟨hheld, hle, hunclosed⟩ := hwhole.held hraw
  have hevents : Callback.close ∉ q.inbound.events ++
      if registered then [Callback.receive q.inbound.recv_buffer.contents addr] else [] := by
    cases registered <;> simp [hunclosed]
  have hnone : ∀ c', Function.update q.stage c none c' = none := by
    intro c'
    by_cases heq : c' = c
    · rw [heq, Function.update_self]
    · rw [Function.update_of_ne heq]
      exact hwhole.alone hbusy heq
  refine ⟨⟨hwhole.sound.valid, hwhole.sound.reads, fun h => absurd h hactive, hwhole.sound.fits⟩,
    hwhole.single, fun c₁ _ hc₁ => absurd (hnone c₁) hc₁, fun c₁ hc₁ => absurd (hnone c₁) hc₁,
    fun c₁ hc₁ => ?_, fun c₁ data hc₁ => ?_, fun c₁ count hc₁ => ?_, hwhole.settled,
    fun _ => ⟨hheld, hle, hevents⟩, fun h => ?_, fun h => absurd h hactive, _, hevents, .inl rfl⟩
  · exact absurd ((hnone c₁).symm.trans hc₁) (by simp)
  · obtain ⟨hlength, hbuffer, hreceived, hplace⟩ := hwhole.arrived c₁ data hc₁
    refine ⟨hlength, hbuffer, hreceived, .inl ?_⟩
    rcases hplace with ⟨hreading, _⟩ | htaken
    · exact ⟨hreading, hnone c₁⟩
    · obtain rfl := hwhole.serial c₁ c (Option.ne_none_iff_exists'.mpr ⟨_, htaken⟩) hbusy
      rw [hstage] at htaken
      cases htaken
  · exact absurd ((hnone c₁).symm.trans hc₁) (by simp)
  · change q.inbound.recv_buffer.raw_buffer = none at h
    rw [h] at hraw
    cases hraw

/-- Every move keeps the stream whole. -/
theorem Whole.move (hwhole : q.Whole p) (hmove : Move p q q') : q'.Whole p := by
  cases hmove with
  | other hmove hstart hreceived hended hring =>
    rename_i a inbound ring
    have hkept := hwhole.with_ring hring
    cases a with
    | start sqe => exact hkept.start (hstart sqe rfl) hmove
    | received r data sqe => exact absurd rfl (hreceived r data sqe)
    | receive_ended r res =>
      obtain ⟨hnone, hfree⟩ := hended r res rfl
      have hr : r ∈ q.inbound.reads := hmove.ended_mem
      refine hkept.receive_ended hnone (fun c' hc' => ?_) hmove
      change ring c' ≠ ring r.user_data
      rw [hring c' (.inl hc'), hring r.user_data (.inr (List.mem_map_of_mem hr))]
      exact hfree c' hc'
    | pop size => exact hkept.pop hmove
    | idle | set_event | send | send_to | close | sent | send_failed | shut_down =>
      cases hmove
      exact hkept
  | arrive hr hidle hnone _ hlength => exact hwhole.arrive hr hidle hnone hlength
  | take hcomplete harrived hfree => exact hwhole.take hcomplete harrived hfree
  | copy hstage hpush => exact hwhole.copy hstage hpush
  | arm hstage hreceive hnew hring => exact hwhole.arm hstage hreceive hnew hring
  | call hstage registered addr => exact hwhole.call hstage registered addr

/-- What has arrived and is not copied yet are the bytes of one read. -/
theorem Whole.pending (hwhole : q.Whole p) : ∃ rest, q.inbound.received = q.copied ++ rest ∧
    (rest ≠ [] → ∃ c, q.arrived c = some rest) := by
  by_cases hnone : ∀ c, q.arrived c = none
  · exact ⟨[], by rw [hwhole.settled hnone, List.append_nil], fun h => absurd rfl h⟩
  · obtain ⟨c, hc⟩ := not_forall.mp hnone
    obtain ⟨data, hdata⟩ := Option.ne_none_iff_exists'.mp hc
    obtain ⟨_, _, hreceived, _⟩ := hwhole.arrived c data hdata
    exact ⟨data, hreceived, fun _ => ⟨c, hdata⟩⟩

/-- The kernel can write to `recv_bind_buffer` when all it wrote before is copied, and
    any handler has come as far as the callback. -/
theorem Whole.writable (hwhole : q.Whole p) {r : Request} (hr : r ∈ q.inbound.reads)
    (hnone : q.arrived r.user_data = none) :
    q.inbound.received = q.copied ∧ ∀ c, q.stage c = none ∨ q.stage c = some .armed := by
  refine ⟨hwhole.settled (hwhole.reading hr hnone), fun c => ?_⟩
  by_contra hstage
  obtain ⟨hbusy, hunarmed⟩ := not_or.mp hstage
  rw [hwhole.unarmed c hbusy hunarmed] at hr
  cases hr

theorem Whole.overwrites (hwhole : q.Whole p) (hmove : Move p q q')
    (hbuffer : q'.recv_bind_buffer ≠ q.recv_bind_buffer) :
    q.inbound.received = q.copied ∧ ∀ c, q.stage c = none ∨ q.stage c = some .armed := by
  cases hmove with
  | arrive hr _ hnone => exact hwhole.writable hr hnone
  | other | take | copy | arm | call => exact absurd rfl hbuffer

/-- A receive event shows what has been copied and not popped. -/
theorem Whole.shows (hwhole : q.Whole p) (hmove : Move p q q') : ∃ added,
    q'.inbound.events = q.inbound.events ++ added ∧ ∀ contents addr, .receive contents addr ∈ added →
      contents = q'.inbound.recv_buffer.contents ∧ contents = q'.copied.drop q'.inbound.popped := by
  have hnone : ∀ {events : List Callback}, events = q.inbound.events → ∃ added,
      events = q.inbound.events ++ added ∧ ∀ contents addr, .receive contents addr ∈ added →
        contents = q'.inbound.recv_buffer.contents ∧
          contents = q'.copied.drop q'.inbound.popped := by
    rintro events rfl
    exact ⟨[], by rw [List.append_nil], by simp⟩
  cases hmove with
  | other hmove hstart hreceived hended hring =>
    cases hmove with
    | same => exact hnone rfl
    | start hassign hreceive =>
      obtain ⟨_, _, _, hevents, _⟩ := hreceive.spec
      exact hnone hevents
    | received => exact absurd rfl (hreceived _ _ _)
    | receive_ended hcomplete registered =>
      exact ⟨_, rfl, by cases registered <;> simp⟩
    | pop => exact hnone rfl
  | arrive => exact hnone rfl
  | take hcomplete =>
    obtain ⟨front, back, _, rfl⟩ := hcomplete
    exact hnone rfl
  | copy => exact hnone rfl
  | arm hstage hreceive =>
    obtain ⟨_, _, _, hevents, _⟩ := hreceive.spec
    exact hnone hevents
  | call hstage registered addr =>
    obtain ⟨hraw, _⟩ := hwhole.active (.inr ⟨_, Option.ne_none_iff_exists'.mpr ⟨_, hstage⟩⟩)
    obtain ⟨hheld, _⟩ := hwhole.held hraw
    refine ⟨_, rfl, fun contents addr' hmem => ?_⟩
    cases registered with
    | false => cases hmem
    | true =>
      obtain ⟨rfl, _⟩ := Callback.receive.inj (List.mem_singleton.mp hmem)
      exact ⟨rfl, hheld⟩

/-- A close event is the only one, and the last one of the receiving side. -/
theorem Whole.close_last (hwhole : q.Whole p) {front back : List Callback}
    (hevents : q.inbound.events = front ++ .close :: back) : .close ∉ front ∧ back = [] := by
  obtain ⟨before, hunclosed, hcase⟩ := hwhole.closed
  rw [hevents] at hcase
  rcases hcase with hsame | hlast
  · rw [← hsame] at hunclosed
    simp at hunclosed
  · rcases List.eq_nil_or_concat back with rfl | ⟨rest, last, rfl⟩
    · obtain ⟨rfl, _⟩ := List.append_inj' hlast rfl
      exact ⟨hunclosed, rfl⟩
    · rw [List.concat_eq_append, ← List.cons_append, ← List.append_assoc] at hlast
      obtain ⟨rfl, _⟩ := List.append_inj' hlast rfl
      simp at hunclosed

theorem Whole.close_once (hwhole : q.Whole p) : q.inbound.events.count .close ≤ 1 := by
  obtain ⟨front, hunclosed, hcase⟩ := hwhole.closed
  have hzero := List.count_eq_zero.mpr hunclosed
  rcases hcase with hsame | hlast
  · rw [hsame, hzero]
    exact Nat.zero_le _
  · rw [hlast, List.count_append, hzero]
    exact Nat.le_refl _

end Intake

end rioring
