import Rioring.Outbound.Run

namespace rioring

namespace Outbound

variable {p : Platform} {o o' : Outbound} {a : Action}

/-- The datagrams the application has asked for, with the destinations as the
    kernel reads them. -/
def asked (o : Outbound) : List (List UInt8 × SockAddr) :=
  o.requested.map fun request => (request.1, request.2.destination)

/-- The datagram that bytes without one in flight will make up. -/
def piece (bytes : List UInt8) (destination : SockAddr) : List (List UInt8 × SockAddr) :=
  if bytes = [] then [] else [(bytes, destination)]

/-- One activation, whose receive side does not end, of datagrams that are not
    empty, have an address of a known family, and go out whole. -/
def whole_datagrams (o : Outbound) : Action → Prop
  | .start _ => o.activations = 0
  | .send_to bytes addr sqe =>
    sqe = true ∧ bytes.val ≠ [] ∧ SockAddr.addr_len addr.sa_family ≠ 0
  | .sent r count sqe => sqe = true ∧ count = r.payload.length
  | .send_failed r _ => r.payload = []
  | .receive_ended _ _ => False
  | _ => True

/-- A `send_to` finds nothing in flight, or a datagram to its own address and
    one half of the queue for itself. -/
def sends_apart (o : Outbound) : Action → Prop
  | .send_to bytes addr _ => ∀ r ∈ o.writes, r.context.addr.destination = addr.destination ∧
      o.send_buffer.sub_buffer.empty = true ∧
      (o.send_buffer.main_buffer.size = r.payload.length ∨
        o.send_buffer.main_buffer.capacity < o.send_buffer.main_buffer.offset + bytes.val.length)
  | _ => True

instance : DecidableRel whole_datagrams := fun o a =>
  match a with
  | .start _ => inferInstanceAs (Decidable (o.activations = 0))
  | .send_to bytes addr sqe => inferInstanceAs (Decidable
      (sqe = true ∧ bytes.val ≠ [] ∧ SockAddr.addr_len addr.sa_family ≠ 0))
  | .sent r count sqe => inferInstanceAs (Decidable (sqe = true ∧ count = r.payload.length))
  | .send_failed r _ => inferInstanceAs (Decidable (r.payload = []))
  | .receive_ended .. => .isFalse id
  | .idle | .set_event | .send .. | .close .. | .received .. | .shut_down .. | .pop .. =>
    .isTrue trivial

instance : DecidableRel sends_apart := fun o a =>
  match a with
  | .send_to bytes addr _ => inferInstanceAs (Decidable
      (∀ r ∈ o.writes, r.context.addr.destination = addr.destination ∧
        o.send_buffer.sub_buffer.empty = true ∧
        (o.send_buffer.main_buffer.size = r.payload.length ∨
          o.send_buffer.main_buffer.capacity < o.send_buffer.main_buffer.offset + bytes.val.length)))
  | .idle | .set_event | .start .. | .send .. | .close .. | .received .. | .receive_ended .. |
    .sent .. | .send_failed .. | .shut_down .. | .pop .. => .isTrue trivial

/-- The datagram in flight: behind it in `main_buffer`, and in `sub_buffer`,
    waits one datagram each at most, for the same destination. -/
structure Carries (o : Outbound) (r : Request) : Prop where
  ctype : r.context.ctype = .udp_context
  family : SockAddr.addr_len r.context.addr.sa_family ≠ 0
  waiting : ∃ rest, o.send_buffer.main_buffer.contents = r.payload ++ rest ∧
    o.handed ++ piece rest r.context.addr.destination ++
      piece o.send_buffer.sub_buffer.contents r.context.addr.destination = o.asked

/-- No datagram is merged with another or sent elsewhere. -/
structure Apart (o : Outbound) : Prop where
  idle : o.writes = [] → o.send_buffer.contents = [] ∧ o.handed = o.asked
  busy : ∀ r ∈ o.writes, o.Carries r

/-- The datagrams handed to the kernel are the first of those asked for. -/
theorem Apart.handed (hapart : o.Apart) : o.handed <+: o.asked := by
  cases hwrites : o.writes with
  | nil =>
    exact (hapart.idle hwrites).2 ▸ List.prefix_rfl
  | cons r rest =>
    obtain ⟨_, _, rest, _, hasked⟩ := hapart.busy r (by simp [hwrites])
    rw [← hasked, List.append_assoc]
    exact List.prefix_append _ _

/-- A submission with an entry and an address of a known family hands over what
    `main_buffer` holds. -/
theorem Sends.hands {addr : SockAddr} (hmain : o.send_buffer.main_buffer.contents ≠ [])
    (hfamily : SockAddr.addr_len addr.sa_family ≠ 0) (h : o.Sends addr true o') :
    ∃ r, o.Writes addr r ∧ o' = { o with writes := o.writes ++ [r], handed := o.handed ++ [r.datagram] } := by
  rcases h with ⟨r, hr, rfl⟩ | ⟨_, hlen, _⟩
  · have hwrite : r.is_write = true := by simp [Request.is_write, hr.type, hr.payload, hmain]
    exact ⟨r, hr, by simp [submit, hwrite]⟩
  · exact absurd hlen hfamily

/-- With nothing in flight, handing over `main_buffer` leaves the queue apart
    when it holds the next datagram. -/
theorem Apart.sends {addr : SockAddr} (hudp : o.socket_type = .udp) (hnone : o.writes = [])
    (hmain : o.send_buffer.main_buffer.contents ≠ [])
    (hfamily : SockAddr.addr_len addr.sa_family ≠ 0)
    (hnext : o.handed ++ piece o.send_buffer.main_buffer.contents addr.destination ++
      piece o.send_buffer.sub_buffer.contents addr.destination = o.asked)
    (h : o.Sends addr true o') : o'.Apart := by
  obtain ⟨r, hr, rfl⟩ := h.hands hmain hfamily
  obtain ⟨hctype, _, hsame, hdestination⟩ := hr.datagram hudp
  refine ⟨fun hnil => by simp at hnil, fun r' hr' => ?_⟩
  rw [hnone, List.nil_append, List.mem_singleton] at hr'
  subst r'
  refine ⟨hctype, hsame ▸ hfamily, [], by simp [hr.payload], ?_⟩
  change o.handed ++ [r.datagram] ++ piece [] _ ++ piece _ _ = o.asked
  rw [← hnext, hdestination, Request.datagram, hr.payload, hdestination]
  simp [piece, hmain]

theorem asked_request {send_buffer : IoDoubleBuffer} {bytes : Bytes} {addr : SockAddr} :
    ({ o with send_buffer, requested := o.requested ++ [(bytes.val, addr)] } : Outbound).asked =
      o.asked ++ [(bytes.val, addr.destination)] := by
  simp [asked]

/-- Bytes queued behind a datagram to the same address wait in a half of their
    own. -/
theorem Carries.queued {r : Request} {bytes : Bytes} {addr : SockAddr} {send_buffer : IoDoubleBuffer}
    (hsound : o.Sound) (hr : r ∈ o.writes) (hcarries : o.Carries r) (hbytes : bytes.val ≠ [])
    (hsame : r.context.addr.destination = addr.destination)
    (hsubEmpty : o.send_buffer.sub_buffer.empty = true)
    (hroom : o.send_buffer.main_buffer.size = r.payload.length ∨
      o.send_buffer.main_buffer.capacity < o.send_buffer.main_buffer.offset + bytes.val.length)
    (hpushed : o.send_buffer.Pushed bytes send_buffer) :
    ({ o with send_buffer, requested := o.requested ++ [(bytes.val, addr)] } : Outbound).Carries r := by
  obtain ⟨hctype, hknown, rest, hmain, hqueued⟩ := hcarries
  have hsub : o.send_buffer.sub_buffer.contents = [] := hsound.valid.sub.empty_iff.mp hsubEmpty
  have hmainNe : o.send_buffer.main_buffer.contents ≠ [] := by
    simp [hmain, (hsound.writes r hr).1]
  rw [hsub] at hqueued
  refine ⟨hctype, hknown, ?_⟩
  rw [asked_request, ← hqueued]
  rcases hpushed.placed hmainNe hsub with ⟨hkept, hother⟩ | ⟨hbehind, hother, hfits⟩
  · refine ⟨rest, hkept.trans hmain, ?_⟩
    simp [hother, hsame, piece, hbytes]
  · have hrest : rest = [] := by
      rcases hroom with hsize | hover
      · have hlength : o.send_buffer.main_buffer.contents.length = r.payload.length :=
          hsound.valid.size_eq.symm.trans hsize
        rw [hmain, List.length_append] at hlength
        exact List.length_eq_zero_iff.mp (by omega)
      · omega
    refine ⟨bytes.val, by rw [hbehind, hmain, hrest, List.append_nil], ?_⟩
    simp [hother, hrest, hsame, piece, hbytes]

/-- A `send_to` that meets the condition. -/
theorem Apart.send_to {bytes : Bytes} {addr : SockAddr} {sqe : Bool} (hsound : o.Sound)
    (hudp : o.socket_type = .udp) (hapart : o.Apart)
    (hwhole : o.whole_datagrams (.send_to bytes addr sqe))
    (halone : o.sends_apart (.send_to bytes addr sqe))
    (h : Queues p { o with requested := o.requested ++ [(bytes.val, addr)] } bytes addr sqe o') :
    o'.Apart := by
  obtain ⟨rfl, hbytes, hfamily⟩ := hwhole
  obtain ⟨send_buffer, hpush, hrest⟩ := h
  obtain ⟨hpushed, _⟩ := hsound.pushed hpush
  by_cases hnone : o.writes = []
  · obtain ⟨hnil, hhanded⟩ := hapart.idle hnone
    have hmain : send_buffer.main_buffer.contents = bytes.val := hpushed.main_takes hnil
    have hsub : send_buffer.sub_buffer.contents = [] := by
      have hcontents := hpushed.contents
      rw [hnil, List.nil_append, IoDoubleBuffer.contents, hmain] at hcontents
      simpa using hcontents
    have hempty : o.send_buffer.empty = true := hsound.valid.empty_iff.mpr hnil
    rcases hrest with ⟨_, hsends⟩ | ⟨hkept, _⟩
    · refine Apart.sends (o := { o with send_buffer, requested := o.requested ++ [(bytes.val, addr)] })
        hudp hnone (hmain ▸ hbytes) hfamily ?_ hsends
      rw [asked_request, ← hhanded]
      simp [hmain, hsub, piece, hbytes]
    · cases hempty.symm.trans hkept
  · rcases hrest with ⟨hempty, _⟩ | ⟨_, rfl⟩
    · obtain ⟨r, hr⟩ := List.exists_mem_of_ne_nil _ hnone
      obtain ⟨_, _, rest, hmain, _⟩ := hapart.busy r hr
      have hnil := hsound.valid.empty_iff.mp hempty
      rw [IoDoubleBuffer.contents, hmain] at hnil
      simp [(hsound.writes r hr).1] at hnil
    · refine ⟨fun hnil => absurd hnil hnone, fun r hr => ?_⟩
      obtain ⟨hsame, hsubEmpty, hroom⟩ := halone r hr
      exact (hapart.busy r hr).queued hsound hr hbytes hsame hsubEmpty hroom hpushed

/-- What is left of the queue when the datagram in flight is gone. -/
theorem Carries.completes {r : Request} (hsound : o.Sound) (hcarries : o.Carries r) :
    let send_buffer := (o.send_buffer.pop r.payload.length).elevate
    send_buffer.Valid ∧ (send_buffer.contents ≠ [] → send_buffer.main_buffer.contents ≠ []) ∧
      o.handed ++ piece send_buffer.main_buffer.contents r.context.addr.destination ++
        piece send_buffer.sub_buffer.contents r.context.addr.destination = o.asked := by
  obtain ⟨_, _, rest, hmain, hqueued⟩ := hcarries
  have hlength : r.payload.length ≤ o.send_buffer.main_buffer.contents.length := by simp [hmain]
  obtain ⟨hpopValid, _⟩ := IoDoubleBuffer.pop_spec hsound.valid r.payload.length
  obtain ⟨hpopMain, hpopSub⟩ := IoDoubleBuffer.pop_halves hsound.valid hlength
  rw [hmain, List.drop_left] at hpopMain
  obtain ⟨hvalid, hcontents, hraised⟩ := IoDoubleBuffer.elevate_spec hpopValid
  obtain ⟨hkept, hmoved⟩ := IoDoubleBuffer.elevate_halves hpopValid
  refine ⟨hvalid, fun hne => hraised (hcontents ▸ hne), ?_⟩
  rw [← hqueued]
  by_cases hrest : rest = []
  · obtain ⟨hup, hdown⟩ := hmoved (hpopMain.trans hrest)
    rw [hup, hdown, hpopSub, hrest]
    simp [piece]
  · rw [hkept (by rw [hpopMain]; exact hrest), hpopMain, hpopSub]

/-- Every move that meets the condition keeps the datagrams apart. -/
theorem Apart.move (hsound : o.Sound) (hsteady : o.Steady) (hudp : o.socket_type = .udp)
    (hapart : o.Apart) (hwhole : o.whole_datagrams a) (halone : o.sends_apart a)
    (hmove : Move p o a o') : o'.Apart := by
  cases hmove with
  | same => exact hapart
  | start hassign =>
    rename_i send_buffer sqe
    obtain ⟨hempty, hnone, _⟩ := hsound.inactive hwhole
    obtain ⟨_, hmain, _, hsub⟩ :=
      IoDoubleBuffer.assign_spec p.malloc_le hsound.valid p.data_buffer_size_pos hassign
    refine ⟨fun _ => ⟨?_, (hapart.idle hnone).2⟩, fun r hr => ?_⟩
    · change send_buffer.contents = []
      rw [IoDoubleBuffer.contents, hmain, hsub, hempty]
      rfl
    · rw [show o.writes = [] from hnone] at hr
      cases hr
  | send _ htype => cases hudp.symm.trans htype
  | send_to htype hqueues => exact hapart.send_to hsound hudp hwhole halone hqueues
  | close =>
    refine ⟨hapart.idle, fun r hr => ?_⟩
    obtain ⟨hctype, hknown, hwaiting⟩ := hapart.busy r hr
    exact ⟨hctype, hknown, hwaiting⟩
  | receive_ended => exact absurd hwhole id
  | sent garbage addr haddr hcomplete hcount hle hpop ho₂ hsend =>
    rename_i o₁ r count sqe send_buffer o₂
    obtain ⟨hsqe, hcount'⟩ := hwhole
    subst sqe count send_buffer
    obtain ⟨hwrites, rfl⟩ := hsteady.completes hcomplete
    have hcarries := hapart.busy r (by simp [hwrites])
    obtain ⟨hvalid, hraised, hqueued⟩ := hcarries.completes hsound
    have hnone : o₂.writes = [] := by rw [ho₂]
    rcases hsend with ⟨hempty, rfl⟩ | ⟨hkept, hsends⟩
    · have hnil := hvalid.empty_iff.mp hempty
      obtain ⟨hmain, hsub⟩ := List.append_eq_nil_iff.mp hnil
      rw [hmain, hsub] at hqueued
      have hhanded : o.handed = o.asked := by simpa [piece] using hqueued
      refine ⟨fun _ => ?_, fun r' hr' => ?_⟩
      · rw [ho₂]
        exact ⟨hnil, hhanded⟩
      · rw [hnone] at hr'
        cases hr'
    · have hne : (o.send_buffer.pop r.payload.length).elevate.contents ≠ [] := by
        intro hnil
        rw [hvalid.empty_iff.mpr hnil] at hkept
        cases hkept
      obtain rfl := haddr hudp hcarries.ctype
      subst ho₂
      exact Apart.sends (o := { o with writes := [], send_buffer := _, written := _ }) hudp rfl
        (hraised hne) hcarries.family hqueued hsends
  | send_failed hpayload => exact absurd hwhole hpayload

end Outbound

namespace View

def whole_datagrams (v : View) (a : Action) : Prop := v.outbound.whole_datagrams a

def keeps_apart (v : View) (a : Action) : Prop :=
  v.outbound.whole_datagrams a ∧ v.outbound.sends_apart a

instance : DecidableRel whole_datagrams := fun v a =>
  inferInstanceAs (Decidable (v.outbound.whole_datagrams a))

instance : DecidableRel keeps_apart := fun v a =>
  inferInstanceAs (Decidable (v.outbound.whole_datagrams a ∧ v.outbound.sends_apart a))

end View

namespace World

/-- The datagrams a socket has handed to the kernel. -/
def handed (w : World) (i : ObjectId) : List (List UInt8 × SockAddr) :=
  ((w.history i).submitted.filter (·.context.type = .write)).map (·.datagram)

/-- The datagrams it was asked for, with the destinations as the kernel reads
    them. -/
def asked (w : World) (i : ObjectId) : List (List UInt8 × SockAddr) :=
  (w.history i).requested.map fun request => (request.1, request.2.destination)

end World

open World

variable {p : Platform} {i : ObjectId} {w : World} {s : SocketObject}

/-- In a run whose calls keep the datagrams apart each is handed over as it was
    asked for. -/
theorem udp_datagrams_faithful (hreach : (machine p).Reachable (permits i View.keeps_apart) w)
    (hs : w.sockets i = some s) (hudp : s.socket_type = .udp) : w.handed i <+: w.asked i := by
  have hkept : (w.view_with i s).outbound.Sound ∧ (w.view_with i s).outbound.Steady ∧
      (w.view_with i s).outbound.Apart := by
    refine reachable_outbound_of_type (P := fun o => o.Steady ∧ o.Apart) ?_ ?_ hreach hs hudp
    · intro v hfresh
      obtain ⟨_, hsteady, _⟩ := hfresh.outbound
      obtain ⟨hrequests, hhistory, _, hsend, _⟩ := hfresh
      have hnone : v.outbound.writes = [] := by simp [View.outbound, hrequests]
      have hnil : v.outbound.send_buffer.contents = [] := by
        rw [show v.outbound.send_buffer = {} from hsend]
        rfl
      have hhanded : v.outbound.handed = v.outbound.asked := by
        simp [View.outbound, Outbound.asked, hhistory]
      refine ⟨hsteady, fun _ => ⟨hnil, hhanded⟩, fun r hr => ?_⟩
      rw [hnone] at hr
      cases hr
    · rintro v a o' hudp hsound ⟨hsteady, hapart⟩ ⟨hwhole, halone⟩ hmove
      refine ⟨hsteady.move hsound hmove ?_ ?_, hapart.move hsound hsteady hudp hwhole halone hmove⟩
      · rintro sqe rfl
        exact (hsound.inactive hwhole).2.1
      · rintro r res rfl
        exact absurd hwhole id
  exact hkept.2.2.handed

def localhost (port : UInt8) : SockAddr where
  sa_family := AF_INET
  sa_data k := if k.val = 1 then port else if k.val = 2 then 127 else if k.val = 5 then 1 else 0

/-- Two datagrams to one address, the second behind the first. -/
def same_address : List Event := [
  .create_udp,
  .activate 1 7 true true,
  .send_to 1 ⟨[1, 2], by decide⟩ (localhost 9) true,
  .send_to 1 ⟨[3], by decide⟩ (localhost 9) true,
  .complete 1 { res := 2 } true]

theorem udp_datagrams_faithful_same_address : ∃ w,
    (machine .small).Reachable (permits 1 View.keeps_apart) w ∧
      (w.handed 1).map (·.1) = [[1, 2], [3]] ∧ w.handed 1 <+: w.asked 1 := by
  obtain ⟨w, hreach, hw⟩ := Machine.reachable_of_exec (machine .small) (permits 1 View.keeps_apart)
    same_address (fun w => (w.sockets 1).any (·.socket_type == .udp) &&
      (w.handed 1).map (·.1) == [[1, 2], [3]]) (by decide +kernel)
  simp only [Bool.and_eq_true, Option.any_eq_true, beq_iff_eq] at hw
  obtain ⟨⟨s, hs, hudp⟩, hhanded⟩ := hw
  exact ⟨w, hreach, hhanded, udp_datagrams_faithful hreach hs hudp⟩

/-- The second datagram is for another address. -/
def other_address : List Event := [
  .create_udp,
  .activate 1 7 true true,
  .send_to 1 ⟨[1, 2], by decide⟩ (localhost 9) true,
  .send_to 1 ⟨[3], by decide⟩ (localhost 10) true,
  .complete 1 { res := 2 } true]

theorem udp_datagram_misdirected : ¬ ∀ w s,
    (machine .small).Reachable (permits 1 View.whole_datagrams) w → w.sockets 1 = some s →
      s.socket_type = .udp → w.handed 1 <+: w.asked 1 := by
  intro hall
  obtain ⟨w, hreach, hw⟩ := Machine.reachable_of_exec (machine .small)
    (permits 1 View.whole_datagrams) other_address
    (fun w => (w.sockets 1).any (·.socket_type == .udp) && !decide (w.handed 1 <+: w.asked 1))
    (by decide +kernel)
  simp only [Bool.and_eq_true, Option.any_eq_true, beq_iff_eq, Bool.not_eq_true',
    decide_eq_false_iff_not] at hw
  obtain ⟨⟨s, hs, hudp⟩, hnot⟩ := hw
  exact hnot (hall w s hreach hs hudp)

end rioring
