import Rioring.Chat.Broadcast
import Rioring.Chat.Shown

/-! The names that the chat server gives to its clients, and the messages that it makes
in their names. -/

namespace rioring

open World Service

namespace Chat

/-- The characters of a number. -/
theorem toString_chars (z : Int) : ∀ c ∈ (toString z).toList, c.isDigit ∨ c = '-' := by
  have hdigits : ∀ n : Nat, ∀ c ∈ n.repr.toList, c.isDigit := by
    intro n c hc
    rw [Nat.toList_repr] at hc
    exact Nat.isDigit_of_mem_toDigits (by decide) (by decide) hc
  intro c hc
  rw [Int.toString_eq_repr, Int.repr_eq_if] at hc
  split at hc
  · exact .inl (hdigits _ c hc)
  · rw [String.toList_append, List.mem_append] at hc
    rcases hc with hsign | hdigit
    · right
      simpa using hsign
    · exact .inl (hdigits _ c hdigit)

theorem toString_length {z : Int} (hlow : -2 ^ 31 ≤ z) (hhigh : z < 2 ^ 31) :
    (toString z).toList.length ≤ 11 := by
  have hlength : ∀ n : Nat, n < 10 ^ 10 → n.repr.toList.length ≤ 10 := by
    intro n hn
    rw [Nat.toList_repr]
    exact (Nat.length_toDigits_le_iff (by decide) (by decide)).mpr hn
  rw [Int.toString_eq_repr, Int.repr_eq_if]
  split
  · exact (hlength _ (by omega)).trans (by decide)
  · have hdigits := hlength (-z).toNat (by omega)
    have hsign : "-".toList.length = 1 := by decide
    rw [String.toList_append, List.length_append]
    omega

theorem signed_bounds {n : Nat} (hn : n < 2 ^ 32) : -2 ^ 31 ≤ signed n ∧ signed n < 2 ^ 31 := by
  unfold signed
  split <;> omega

/-- Every name leaves room for its NUL in the field of the message. -/
theorem client_name_fits (name_id : Nat) : (client_name name_id).length < 20 := by
  obtain ⟨hlow, hhigh⟩ := signed_bounds (Nat.mod_lt name_id (by decide : 0 < 2 ^ 32))
  have hnumber := toString_length hlow hhigh
  have hclient : "client".toList.length = 6 := by decide
  rw [client_name, List.length_map, String.toList_append, List.length_append]
  omega

/-- The characters of a name are bytes. -/
theorem client_name_chars {name_id : Nat} {c : Char}
    (hc : c ∈ ("client" ++ toString (signed (name_id % 2 ^ 32))).toList) :
    0 < c.toNat ∧ c.toNat < 256 := by
  rw [String.toList_append, List.mem_append] at hc
  rcases hc with hletter | hnumber
  · have hletters : "client".toList = ['c', 'l', 'i', 'e', 'n', 't'] := by rfl
    rw [hletters] at hletter
    simp only [List.mem_cons, List.not_mem_nil, or_false] at hletter
    rcases hletter with rfl | rfl | rfl | rfl | rfl | rfl <;> decide
  · rcases toString_chars _ c hnumber with hdigit | rfl
    · simp only [Char.isDigit, Bool.and_eq_true, decide_eq_true_eq] at hdigit
      have hlow : 48 ≤ c.toNat := hdigit.1
      have hhigh : c.toNat ≤ 57 := hdigit.2
      omega
    · decide

theorem client_name_unended (name_id : Nat) : 0 ∉ client_name name_id := by
  intro hmem
  obtain ⟨c, hc, hzero⟩ := List.mem_map.mp hmem
  obtain ⟨hpos, hbyte⟩ := client_name_chars hc
  have hsame := congrArg UInt8.toNat hzero
  rw [UInt8.toNat_ofNat', Nat.mod_eq_of_lt hbyte] at hsame
  exact absurd hsame hpos.ne'

theorem client_name_string (name_id : Nat) : (client_name name_id).map (fun byte => Char.ofNat byte.toNat) =
    ("client" ++ toString (signed (name_id % 2 ^ 32))).toList := by
  rw [client_name, List.map_map]
  refine (List.map_congr_left fun c hc => ?_).trans (List.map_id _)
  obtain ⟨_, hbyte⟩ := client_name_chars hc
  rw [Function.comp_apply, UInt8.toNat_ofNat', Nat.mod_eq_of_lt hbyte, Char.ofNat_toNat]
  rfl

/-- Different counts give different names, until the counter comes round. -/
theorem client_name_injective {k k' : Nat} (hk : k < 2 ^ 32) (hk' : k' < 2 ^ 32)
    (hsame : client_name k = client_name k') : k = k' := by
  have hchars : ("client" ++ toString (signed (k % 2 ^ 32))).toList =
      ("client" ++ toString (signed (k' % 2 ^ 32))).toList := by
    rw [← client_name_string, hsame, client_name_string]
  have hstrings : toString (signed (k % 2 ^ 32)) = toString (signed (k' % 2 ^ 32)) := by
    rw [String.toList_append, String.toList_append] at hchars
    exact String.toList_inj.mp (List.append_cancel_left hchars)
  rw [Int.toString_eq_repr, Int.toString_eq_repr, Nat.mod_eq_of_lt hk, Nat.mod_eq_of_lt hk'] at hstrings
  have hnumbers := Int.repr_injective hstrings
  unfold signed at hnumbers
  split at hnumbers <;> split at hnumbers <;> omega

theorem client_name_ne_nil (name_id : Nat) : client_name name_id ≠ [] := by
  intro hnil
  have hlength := congrArg List.length hnil
  have hclient : "client".toList.length = 6 := by decide
  rw [client_name, List.length_map, String.toList_append, List.length_append, List.length_nil] at hlength
  omega

/-- What `relay` makes of a request are messages in the name of the client. -/
theorem relay_said {name array : List UInt8} (hname : 0 ∉ name) {output : List (List UInt8)}
    (hrelay : relay name array = .ok output) :
    ∀ message ∈ output, ∃ text, Said (name, text) ∧ message = respond (name, text) := by
  rw [relay] at hrelay
  split at hrelay
  · obtain ⟨text, hstring, hrelay⟩ := bind_eq_ok_iff.mp hrelay
    obtain ⟨response, hchat, hrelay⟩ := bind_eq_ok_iff.mp hrelay
    cases hrelay
    have htext : 0 ∉ text := by
      rw [c_string] at hstring
      split at hstring
      · cases hstring
        intro hmem
        have hnonzero := List.mem_takeWhile_imp hmem
        simp at hnonzero
      · cases hstring
    rw [chat] at hchat
    split at hchat
    · rename_i hbounds
      cases hchat
      intro message hmessage
      rw [List.mem_singleton.mp hmessage]
      have hfits : text.length ≤ 996 := by
        have hroom := hbounds.2
        rw [sizeof_response_chat] at hroom
        omega
      exact ⟨text, ⟨hbounds.1, hname, htext, hfits⟩, rfl⟩
    · cases hchat
  · cases hrelay
    simp

namespace Server

variable {p : Platform} {concurrency : Nat} {s t : Server} {j : ObjectId}
  {allowed : Server → ServerEvent → Prop}

/-- A socket that is active was so, or has been made active. -/
theorem active_before {w w' : World} {e : Event} {sock' : SocketObject} (hwf : w.Wf)
    (hstep : (machine p).step w e = some w') (hsock' : w'.sockets j = some sock')
    (hactive : (w'.history j).activations ≠ 0) :
    (∃ sock, w.sockets j = some sock ∧ (w.history j).activations ≠ 0) ∨
      ∃ sqe, w.action j e = .start sqe := by
  cases hsock : w.sockets j with
  | none =>
    have hfresh := ((hwf.step_does hstep).moves j).fresh _ (view_eq_none hsock) (view_eq hsock')
    have hhistory : w'.history j = {} := hfresh.history
    rw [hhistory] at hactive
    exact absurd rfl hactive
  | some sock =>
    obtain ⟨_, _, _, _, hflags⟩ := hwf.keeps hstep hsock
    rcases hflags with ⟨hactivations, _⟩ | ⟨hstart, _⟩
    · have hsame : (w'.history j).activations = (w.history j).activations := hactivations
      exact .inl ⟨sock, rfl, hsame ▸ hactive⟩
    · exact .inr hstart

/-- The names of the clients: each is given one behind its accept callback, before the
    socket becomes active, and no two the same before the counter comes round. -/
structure Named (s : Server) : Prop where
  given : ∀ j, s.names j = [] ∨ ∃ k < s.name_id, s.names j = client_name k
  distinct : s.name_id ≤ 2 ^ 32 → ∀ i j, s.names i ≠ [] → s.names i = s.names j → i = j
  clients : ∀ j ∈ s.clients, s.names j ≠ []
  active : ∀ j sock, s.world.sockets j = some sock → (s.world.history j).activations ≠ 0 →
    s.names j ≠ []

theorem Named.unended (hnamed : s.Named) (j : ObjectId) : 0 ∉ s.names j := by
  rcases hnamed.given j with hnil | ⟨k, _, hname⟩
  · rw [hnil]
    exact List.not_mem_nil
  · rw [hname]
    exact client_name_unended k

theorem Named.fits (hnamed : s.Named) (j : ObjectId) : (s.names j).length < 20 := by
  rcases hnamed.given j with hnil | ⟨k, _, hname⟩
  · rw [hnil]
    decide
  · rw [hname]
    exact client_name_fits k

/-- Calls of the callbacks change no name, and activate no socket. -/
theorem Named.calls {u v : Service} {e : Event} {k : Nat} {names : ObjectId → List UInt8}
    (hreach : (rioring.service p concurrency).Reachable Machine.Any u)
    (hprocess : u.process p concurrency e k = some v) (hcall : e.by_callback = true)
    (hactive : ∀ j sock, u.world.sockets j = some sock → (u.world.history j).activations ≠ 0 →
      names j ≠ []) :
    ∀ j sock, v.world.sockets j = some sock → (v.world.history j).activations ≠ 0 → names j ≠ [] := by
  intro j sock hsock hactive'
  have hwf := Wf.reachable (Sound.reachable hreach).reached
  rcases active_before hwf (process_spec hprocess).2.1 hsock hactive' with
    ⟨sock₀, hsock₀, hactive₀⟩ | ⟨sqe, haction⟩
  · exact hactive j sock₀ hsock₀ hactive₀
  · exact absurd haction (Event.by_callback_start hcall sqe)

theorem named (hreach : (server p concurrency).Reachable allowed s) : s.Named := by
  refine Machine.Run.invariant (P := Named) hreach ?_ ?_
  · exact ⟨fun _ => .inl rfl, fun _ i j hi => absurd rfl hi, by simp [server],
      fun j sock hsock => by cases hsock⟩
  intro s e t hs hnamed _ hstep
  have hreach := (serves.accepts_reached hs).any
  change s.step p concurrency e = some t at hstep
  cases e with
  | service e =>
    obtain ⟨hallows, hservice, ht⟩ := library_spec hstep
    have hnames : t.names = s.names := by rw [ht]
    have hcount : t.name_id = s.name_id := by rw [ht]
    have hclients : t.clients = s.clients := by rw [ht]
    refine ⟨?_, ?_, ?_, fun j sock hsock hactive => ?_⟩
    · rw [hnames, hcount]
      exact hnamed.given
    · rw [hnames, hcount]
      exact hnamed.distinct
    · rw [hnames, hclients]
      exact hnamed.clients
    · rw [hnames]
      cases e with
      | process e k =>
        have hwf := Wf.reachable (Sound.reachable hreach).reached
        rcases active_before hwf (process_spec hservice).2.1 hsock hactive with
          ⟨sock₀, hsock₀, hactive₀⟩ | ⟨sqe, haction⟩
        · exact hnamed.active j sock₀ hsock₀ hactive₀
        · exact hnamed.clients j (obeys_start hallows haction)
      | stop =>
        have hworld : t.world = s.world := by
          rw [world, (stop_spec hservice).2]
          rfl
        rw [hworld] at hsock hactive
        exact hnamed.active j sock hsock hactive
      | cancelled k =>
        have hworld : t.world = s.world := by
          rw [world, (cancelled_spec hservice).1]
          rfl
        rw [hworld] at hsock hactive
        exact hnamed.active j sock hsock hactive
  | on_accept c ring =>
    obtain ⟨i, _, _, hout, s₁, s₂, h₁, h₂, h₃, ht⟩ := on_accept_spec hstep
    have hreach₁ := Machine.Run.trans hreach (process_run h₁)
    have hreach₂ := Machine.Run.trans hreach₁ (process_run h₂)
    have hactive := Named.calls hreach₂ h₃ rfl (Named.calls hreach₁ h₂ rfl
      (Named.calls hreach h₁ rfl hnamed.active))
    have hother : ∀ j, j ≠ i → t.names j = s.names j := by
      intro j hj
      rw [ht]
      exact Function.update_of_ne hj _ _
    have hmine : t.names i = client_name s.name_id := by
      rw [ht]
      exact Function.update_self ..
    have hcount : t.name_id = s.name_id + 1 := by rw [ht]
    have hclients : t.clients = s.clients ++ [i] := by rw [ht]
    -- a name that was given before is another one
    have hnew : s.name_id + 1 ≤ 2 ^ 32 → ∀ j, s.names j ≠ client_name s.name_id := by
      intro hbound j hsame
      rcases hnamed.given j with hnil | ⟨k, hk, hname⟩
      · exact client_name_ne_nil _ (hsame.symm.trans hnil)
      · have hcounts := client_name_injective (by omega) (by omega) (hname.symm.trans hsame)
        omega
    refine ⟨fun j => ?_, fun hbound j j' hj hsame => ?_, fun j hj => ?_, fun j sock hsock hj => ?_⟩
    · by_cases hi : j = i
      · subst j
        exact .inr ⟨s.name_id, by omega, hmine⟩
      · rw [hother j hi, hcount]
        rcases hnamed.given j with hnil | ⟨k, hk, hname⟩
        · exact .inl hnil
        · exact .inr ⟨k, by omega, hname⟩
    · rw [hcount] at hbound
      by_cases hi : j = i <;> by_cases hi' : j' = i
      · rw [hi, hi']
      · rw [hi, hmine, hother j' hi'] at hsame
        exact absurd hsame.symm (hnew hbound j')
      · rw [hi', hmine, hother j hi] at hsame
        exact absurd hsame (hnew hbound j)
      · rw [hother j hi] at hj
        rw [hother j hi, hother j' hi'] at hsame
        exact hnamed.distinct (by omega) j j' hj hsame
    · by_cases hi : j = i
      · rw [hi, hmine]
        exact client_name_ne_nil _
      · rw [hother j hi]
        rw [hclients, List.mem_append, List.mem_singleton] at hj
        exact hnamed.clients j (hj.resolve_right hi)
    · by_cases hi : j = i
      · rw [hi, hmine]
        exact client_name_ne_nil _
      · rw [hother j hi]
        exact hactive j sock hsock hj
  | pass i ring sqe =>
    obtain ⟨turn, sock, result, _, _, _, _, hcase⟩ := pass_step_spec hstep
    rcases hcase with ⟨_, rfl⟩ | ⟨size, u, _, hpop, hclose, ht⟩ | ⟨array, size, output, u, _, hpop, ht⟩
    · exact ⟨hnamed.given, hnamed.distinct, hnamed.clients, hnamed.active⟩
    · have hreach₁ := Machine.Run.trans hreach (process_run (pop_spec hpop).1)
      have hactive := Named.calls hreach₁ hclose rfl (Named.calls hreach (pop_spec hpop).1 rfl hnamed.active)
      rw [ht, (pop_spec hpop).2]
      exact ⟨hnamed.given, hnamed.distinct, hnamed.clients, hactive⟩
    · have hactive := Named.calls hreach (pop_spec hpop).1 rfl hnamed.active
      rw [ht, (pop_spec hpop).2]
      exact ⟨hnamed.given, hnamed.distinct, hnamed.clients, hactive⟩
  | chat_all i order =>
    obtain ⟨_, _, _, _, _, _, _, rfl⟩ := chat_all_spec hstep
    exact ⟨hnamed.given, hnamed.distinct, hnamed.clients, hnamed.active⟩
  | send ring =>
    obtain ⟨_, _, _, _, _, _, hprocess, ht⟩ := send_spec hstep
    have hactive := Named.calls hreach hprocess rfl hnamed.active
    rw [ht]
    exact ⟨hnamed.given, hnamed.distinct, hnamed.clients, hactive⟩
  | send_locked ring sqe =>
    obtain ⟨_, _, hprocess, ht⟩ := send_locked_spec hstep
    have hactive := Named.calls hreach hprocess rfl hnamed.active
    rw [ht]
    exact ⟨hnamed.given, hnamed.distinct, hnamed.clients, hactive⟩
  | sent_all =>
    obtain ⟨_, _, _, _, rfl⟩ := sent_all_spec hstep
    exact ⟨hnamed.given, hnamed.distinct, hnamed.clients, hnamed.active⟩
  | on_close i =>
    obtain ⟨_, _, rfl⟩ := on_close_spec hstep
    exact ⟨hnamed.given, hnamed.distinct, fun j hj => hnamed.clients j (List.mem_of_mem_erase hj),
      hnamed.active⟩

/-- A message in the name of a client that has sent one. -/
def Speaks (s : Server) (j : ObjectId) (message : List UInt8) : Prop :=
  s.taken j ≠ [] ∧ s.names j ≠ [] ∧ ∃ text, Said (s.names j, text) ∧ message = respond (s.names j, text)

/-- The messages that callbacks have still to send, and those of the log, are made in the
    name of the client of the callback. -/
structure Spoken (s : Server) : Prop where
  output : ∀ j turn, s.turns j = some turn → ∀ message ∈ turn.output, s.Speaks j message
  log : ∀ entry ∈ s.log, s.Speaks entry.1 entry.2.val

theorem Speaks.keep {message : List UInt8} (hspeaks : s.Speaks j message)
    (hnames : t.names j = s.names j) (htaken : s.taken j <+: t.taken j) : t.Speaks j message := by
  obtain ⟨htook, hname, text, hsaid⟩ := hspeaks
  refine ⟨fun hnil => htook ?_, hnames ▸ hname, text, hnames ▸ hsaid⟩
  rw [hnil] at htaken
  exact List.prefix_nil.mp htaken

/-- A step that adds no message. -/
theorem Spoken.keep (hspoken : s.Spoken) (hkeep : ∀ j message, s.Speaks j message → t.Speaks j message)
    (hturns : ∀ j turn, t.turns j = some turn → turn.output = [] ∨ s.turns j = some turn)
    (hlog : t.log = s.log) : t.Spoken := by
  refine ⟨fun j turn hturn message hmessage => ?_, fun entry hentry => ?_⟩
  · rcases hturns j turn hturn with hnil | hsame
    · rw [hnil] at hmessage
      cases hmessage
    · exact hkeep j message (hspoken.output j turn hsame message hmessage)
  · rw [hlog] at hentry
    exact hkeep _ _ (hspoken.log entry hentry)

theorem update_none {turns : ObjectId → Option Turn} {i : ObjectId} {turn : Turn}
    (hturn : Function.update turns i none j = some turn) : turns j = some turn := by
  by_cases hi : j = i
  · rw [hi, Function.update_self] at hturn
    cases hturn
  · rwa [Function.update_of_ne hi] at hturn

/-- The callback that pops a message has a name to speak in. -/
theorem reading_named (hreach : (server p concurrency).Reachable allowed s) {turn : Turn}
    (hturn : s.turns j = some turn) : s.names j ≠ [] := by
  have harray : (s.array j).isSome := by rw [array, hturn]; rfl
  obtain ⟨c, hc, hreads⟩ := (tuned hreach j).reading harray
  obtain ⟨hpermits, _⟩ := accepts_only_permits (serves.accepts_reached hreach) j
  obtain ⟨sock, hsock, hactive⟩ := (Serial.reachable hpermits).active c hc hreads
  exact (named hreach).active j sock hsock hactive

theorem spoken (hreach : (server p concurrency).Reachable allowed s) : s.Spoken := by
  refine Machine.Run.invariant (P := Spoken) hreach ⟨by simp [server], by simp [server]⟩ ?_
  intro s e t hs hspoken _ hstep
  change s.step p concurrency e = some t at hstep
  cases e with
  | service e =>
    obtain ⟨_, _, ht⟩ := library_spec hstep
    have hnames : t.names = s.names := by rw [ht]
    have htaken : t.taken = s.taken := by rw [ht]
    refine hspoken.keep (fun j message hspeaks => hspeaks.keep (by rw [hnames]) (by rw [htaken]))
      ?_ (by rw [ht])
    intro j turn hturn
    rw [congrFun (congrArg turns ht) j] at hturn
    dsimp only at hturn
    split at hturn
    · cases hturn
      exact .inl rfl
    · exact .inr hturn
  | on_accept c ring =>
    obtain ⟨i, haccepted, _, _, s₁, s₂, _, _, _, ht⟩ := on_accept_spec hstep
    obtain ⟨_, hnothing⟩ := accepted_silent hs haccepted
    have htaken : t.taken = s.taken := by rw [ht]
    refine hspoken.keep (fun j message hspeaks => hspeaks.keep ?_ (by rw [htaken]))
      (fun j turn hturn => .inr ?_) (by rw [ht])
    · -- who has just been accepted has sent nothing
      have hi : j ≠ i := by
        rintro rfl
        exact hspeaks.1 hnothing
      rw [ht]
      exact Function.update_of_ne hi _ _
    · rw [ht] at hturn
      exact hturn
  | pass i ring sqe =>
    obtain ⟨turn, sock, result, hturn, hsock, _, hpass, hcase⟩ := pass_step_spec hstep
    have hgrows : ∀ {size : Nat} {u : Server}, s.pop p concurrency i sock.recv_buffer size ring = some u →
        ∀ j, s.taken j <+: u.taken j := by
      intro size u hpop j
      rw [(pop_spec hpop).2]
      by_cases hi : j = i
      · subst j
        simp only [Function.update_self]
        exact List.prefix_append _ _
      · simp only [Function.update_of_ne hi]
        exact List.prefix_refl _
    rcases hcase with ⟨_, rfl⟩ | ⟨size, u, _, hpop, _, ht⟩ | ⟨array, size, output, u, rfl, hpop, ht⟩
    · exact hspoken.keep (fun _ _ h => h) (fun j turn hturn => .inr (update_none hturn)) rfl
    · have hnames : t.names = s.names := by rw [ht, (pop_spec hpop).2]
      have htaken : t.taken = u.taken := by rw [ht]
      refine hspoken.keep (fun j message hspeaks => hspeaks.keep (by rw [hnames]) ?_)
        (fun j turn hturn => .inr (update_none (i := i) ?_)) (by rw [ht, (pop_spec hpop).2])
      · rw [htaken]
        exact hgrows hpop j
      · rw [ht] at hturn
        exact hturn
    · have hnames : t.names = s.names := by rw [ht, (pop_spec hpop).2]
      have htaken : t.taken = u.taken := by rw [ht]
      have hkeep : ∀ j message, s.Speaks j message → t.Speaks j message := fun j message hspeaks =>
        hspeaks.keep (by rw [hnames]) (by rw [htaken]; exact hgrows hpop j)
      refine ⟨fun j turn' hturn' message hmessage => ?_, fun entry hentry => ?_⟩
      · rw [ht] at hturn'
        by_cases hi : j = i
        · subst j
          simp only [Function.update_self, Option.some.injEq] at hturn'
          subst turn'
          obtain ⟨hpermits, _⟩ := accepts_only_permits (serves.accepts_reached hs) i
          have hvalid : sock.recv_buffer.Valid := (received_whole (permitted hpermits) hsock).1.valid
          have harray : turn.array.length = 1024 :=
            (((tuned hs i).heard sock hsock).reads turn.array (by rw [Server.array, hturn]; rfl)).1
          obtain ⟨_, _, _, _, _, hhandle⟩ := pass_handles hvalid (by rw [harray]; decide) hpass
          obtain ⟨text, hsaid⟩ := relay_said ((named hs).unended i) hhandle message hmessage
          refine ⟨?_, ?_, text, ?_⟩
          · rw [htaken, (pop_spec hpop).2]
            simp
          · rw [hnames]
            exact reading_named hs hturn
          · rw [hnames]
            exact hsaid
        · simp only [Function.update_of_ne hi] at hturn'
          exact hkeep j message (hspoken.output j turn' hturn' message hmessage)
      · rw [ht, (pop_spec hpop).2] at hentry
        exact hkeep _ _ (hspoken.log entry hentry)
  | chat_all i order =>
    obtain ⟨turn, output, response, hturn, _, _, houtput, rfl⟩ := chat_all_spec hstep
    have hmine := hspoken.output i turn hturn
    rw [houtput] at hmine
    refine ⟨fun j turn' hturn' message hmessage => ?_, fun entry hentry => ?_⟩
    · by_cases hi : j = i
      · subst j
        simp only [Function.update_self, Option.some.injEq] at hturn'
        subst turn'
        exact hmine message (List.mem_cons_of_mem _ hmessage)
      · simp only [Function.update_of_ne hi] at hturn'
        exact hspoken.output j turn' hturn' message hmessage
    · rcases List.mem_append.mp hentry with hold | hnew
      · exact hspoken.log entry hold
      · rw [List.mem_singleton.mp hnew]
        exact hmine _ List.mem_cons_self
  | send ring =>
    obtain ⟨_, _, _, _, _, _, _, ht⟩ := send_spec hstep
    rw [ht]
    exact ⟨hspoken.output, hspoken.log⟩
  | send_locked ring sqe =>
    obtain ⟨_, _, _, ht⟩ := send_locked_spec hstep
    rw [ht]
    exact ⟨hspoken.output, hspoken.log⟩
  | sent_all =>
    obtain ⟨_, _, _, _, rfl⟩ := sent_all_spec hstep
    exact ⟨hspoken.output, hspoken.log⟩
  | on_close i =>
    obtain ⟨_, _, rfl⟩ := on_close_spec hstep
    exact ⟨hspoken.output, hspoken.log⟩

end Server

end Chat

end rioring
