import Rioring.Chat.Scheme

/-! The receive callbacks of the chat programs. Both read one message after the
other from the buffer to an array, for as long as there is a whole one. -/

namespace rioring

namespace Chat

/-- A receive callback by what differs between the two programs: the message number
    it goes on with, and what it does with a message that it has in its array. -/
structure Reader (A : Type) where
  expected : UInt8
  handle : List UInt8 → Except Fault (List A)
  expected_ne : expected ≠ 0
  handle_fault : ∀ array fault, handle array = .error fault → fault = .out_of_bounds

variable {A : Type}

/-- The `std::array` of a callback before anything is read to it. -/
def new_array : List UInt8 := List.replicate 1024 0

theorem new_array_length : new_array.length = 1024 := List.length_replicate

/-- How one pass through the loop of a callback goes: it leaves the loop because not
    all of a message is there, it pops a message of another kind and leaves the
    loop, or it pops one and handles it. -/
inductive Pass (A : Type) where
  | waits
  | refuses (size : Nat)
  | handles (array : List UInt8) (size : Nat) (output : List A)

/-- The rest of a pass that has read a message to the array, which pops the
    message first. -/
def Reader.dispatch (reader : Reader A) (array : List UInt8) : Except Fault (Pass A) :=
  if msg array ≠ reader.expected then .ok (.refuses (size array))
  else do
    let output ← reader.handle array
    .ok (.handles array (size array) output)

/-- One pass through the loop. -/
def Reader.pass (reader : Reader A) (buffer : IoBuffer) (array : List UInt8) :
    Except Fault (Pass A) := do
  match ← read_front buffer array sizeof_scheme with
  | none => .ok .waits
  | some array =>
    match ← read_front buffer array (size array) with
    | none => .ok .waits
    | some array => reader.dispatch array

/-- What a receive event comes to: what is left in the buffer, what came of the
    messages, and whether one of another kind ended the loop. -/
structure Receipt (A : Type) where
  buffer : IoBuffer
  output : List A
  refused : Bool
  deriving DecidableEq

/-- The loop, for a number of passes. -/
def Reader.receive_loop (reader : Reader A) : Nat → IoBuffer → List UInt8 → Except Fault (Receipt A)
  | 0, _, _ => .error .hang
  | rounds + 1, buffer, array => do
    match ← reader.pass buffer array with
    | .waits => .ok { buffer, output := [], refused := false }
    | .refuses size => .ok { buffer := buffer.pop size, output := [], refused := true }
    | .handles array size output => do
      let receipt ← reader.receive_loop rounds (buffer.pop size) array
      .ok { receipt with output := output ++ receipt.output }

/-- A callback. A pass that goes on pops a byte at least, unless the loop never
    ends. -/
def Reader.on_receive (reader : Reader A) (buffer : IoBuffer) : Except Fault (Receipt A) :=
  reader.receive_loop (buffer.size + 1) buffer new_array

theorem bind_eq_ok_iff {B C : Type} {x : Except Fault B} {f : B → Except Fault C} {y : C} :
    (x >>= f) = .ok y ↔ ∃ b, x = .ok b ∧ f b = .ok y := by
  cases x <;> simp [bind, Except.bind]

theorem bind_eq_error_iff {B C : Type} {x : Except Fault B} {f : B → Except Fault C} {fault : Fault} :
    (x >>= f) = .error fault ↔ x = .error fault ∨ ∃ b, x = .ok b ∧ f b = .error fault := by
  cases x <;> simp [bind, Except.bind]

theorem c_string_fault {array : List UInt8} {fault : Fault} (h : c_string array = .error fault) :
    fault = .out_of_bounds := by
  rw [c_string] at h
  split at h
  · cases h
  · cases h
    rfl

/-- `client::chat` up to `chat_all`: the message it sends to every client. -/
def chat (name text : List UInt8) : Except Fault (List UInt8) :=
  if name.length < 20 ∧ sizeof_response_chat + text.length < 1024 then .ok (response_chat name text)
  else .error .out_of_bounds

/-- What `event_receiver::on_receive` does with a request: the messages for every
    client. When it refuses a message it closes the socket. -/
def relay (name array : List UInt8) : Except Fault (List (List UInt8)) :=
  if 0 < request_chat_size array then do
    let text ← c_string (array.drop sizeof_request_chat)
    let response ← chat name text
    .ok [response]
  else .ok []

/-- `event_receiver::on_receive` for a client with a name. -/
def event_receiver (name : List UInt8) : Reader (List UInt8) where
  expected := req_chat
  handle := relay name
  expected_ne := by decide
  handle_fault array fault h := by
    rw [relay] at h
    split at h
    · rcases bind_eq_error_iff.mp h with hstring | ⟨text, _, h⟩
      · exact c_string_fault hstring
      · rcases bind_eq_error_iff.mp h with hchat | ⟨_, _, h⟩
        · rw [chat] at hchat
          split at hchat
          · cases hchat
          · cases hchat
            rfl
        · cases h
    · cases h

/-- What the `on_receive` of the chat client does with a response: the name and the
    text it shows. -/
def show_line (array : List UInt8) : Except Fault (List (List UInt8 × List UInt8)) :=
  if 0 < response_chat_size array then do
    let name ← c_string (array.drop sizeof_scheme)
    let text ← c_string (array.drop sizeof_response_chat)
    .ok [(name, text)]
  else .ok []

/-- The `on_receive` of the chat client. -/
def chat_client : Reader (List UInt8 × List UInt8) where
  expected := resp_chat
  handle := show_line
  expected_ne := by decide
  handle_fault array fault h := by
    rw [show_line] at h
    split at h
    · rcases bind_eq_error_iff.mp h with hname | ⟨name, _, h⟩
      · exact c_string_fault hname
      · rcases bind_eq_error_iff.mp h with htext | ⟨_, _, h⟩
        · exact c_string_fault htext
        · cases h
    · cases h

variable {reader : Reader A} {buffer : IoBuffer} {array frame ys : List UInt8}

/-- The array once a message of the stream has been read to it: first the header,
    then the whole of it. -/
def landed (array contents frame : List UInt8) : List UInt8 :=
  frame ++ (contents.take sizeof_scheme ++ array.drop sizeof_scheme).drop frame.length

/-- The array begins with the stream it was read from. -/
theorem landed_take (array ys : List UInt8)
    (hheader : sizeof_scheme ≤ (frame ++ ys).length) :
    (landed array (frame ++ ys) frame).take sizeof_scheme = (frame ++ ys).take sizeof_scheme := by
  have hlength : ((frame ++ ys).take sizeof_scheme).length = sizeof_scheme := by
    rw [List.length_take, Nat.min_eq_left hheader]
  by_cases hlong : sizeof_scheme ≤ frame.length
  · rw [landed, List.take_append_of_le_length hlong, List.take_append_of_le_length hlong]
  · -- a message that is shorter than its header
    have hshort : frame.length ≤ ((frame ++ ys).take sizeof_scheme).length := by omega
    have hrest : frame ++ ((frame ++ ys).take sizeof_scheme).drop frame.length =
        (frame ++ ys).take sizeof_scheme := by
      conv_rhs => rw [← List.take_append_drop frame.length ((frame ++ ys).take sizeof_scheme)]
      rw [List.take_take, Nat.min_eq_left (by omega), List.take_left]
    rw [landed, List.drop_append_of_le_length hshort, ← List.append_assoc, hrest,
      List.take_append_of_le_length hlength.ge, List.take_take, Nat.min_self]

theorem landed_length (hfits : frame.length ≤ array.length) (harray : sizeof_scheme ≤ array.length)
    (ys : List UInt8) (hheader : sizeof_scheme ≤ (frame ++ ys).length) :
    (landed array (frame ++ ys) frame).length = array.length := by
  simp only [landed, List.length_append, List.length_drop, List.length_take] at hheader ⊢
  omega

/-- A pass on a stream whose first message is not all there. -/
theorem pass_waits (hvalid : buffer.Valid) (harray : sizeof_scheme ≤ array.length)
    (hnone : scheme.next buffer.contents = none) : reader.pass buffer array = .ok .waits := by
  unfold Framing.next at hnone
  dsimp only at hnone
  split at hnone
  · cases hnone
  · rename_i hpart
    rw [Reader.pass, read_front_eq hvalid]
    split
    · rename_i hheader
      have htaken : (buffer.contents.take sizeof_scheme).length = sizeof_scheme := by
        rw [List.length_take, Nat.min_eq_left hheader]
      rw [copy_front_eq, if_pos (htaken.trans_le harray)]
      have hsize : size (buffer.contents.take sizeof_scheme ++
          array.drop (buffer.contents.take sizeof_scheme).length) =
          size (buffer.contents.take sizeof_scheme) := by
        rw [← size_take, List.take_append_of_le_length htaken.ge, List.take_take, Nat.min_self]
      change (read_front buffer _ _ >>= _) = _
      have hshort : ¬ size (buffer.contents.take sizeof_scheme) ≤ buffer.contents.length :=
        fun hall => hpart ⟨hheader, hall⟩
      rw [read_front_eq hvalid, hsize, if_neg hshort]
      rfl
    · rfl

/-- The fields of the message are those of the stream. -/
theorem landed_fields (array : List UInt8)
    (hnext : scheme.next buffer.contents = some (frame, ys)) :
    msg (landed array buffer.contents frame) = msg buffer.contents ∧
      size (landed array buffer.contents frame) = frame.length := by
  obtain ⟨hsame, hheader, hlength⟩ := Framing.next_spec hnext
  have hlength : size (buffer.contents.take sizeof_scheme) = frame.length := hlength
  have hstart := landed_take array ys (hsame ▸ hheader)
  rw [← hsame] at hstart
  constructor
  · rw [← msg_take, hstart, msg_take]
  · rw [← size_take, hstart, hlength]

/-- A pass on a stream whose first message is there. -/
theorem pass_there (hvalid : buffer.Valid) (harray : sizeof_scheme ≤ array.length)
    (hnext : scheme.next buffer.contents = some (frame, ys)) : reader.pass buffer array =
      if frame.length ≤ array.length then reader.dispatch (landed array buffer.contents frame)
      else .error .out_of_bounds := by
  obtain ⟨hsame, hheader, hlength⟩ := Framing.next_spec hnext
  have hheader : sizeof_scheme ≤ buffer.contents.length := hheader
  have hlength : size (buffer.contents.take sizeof_scheme) = frame.length := hlength
  have htaken : (buffer.contents.take sizeof_scheme).length = sizeof_scheme := by
    rw [List.length_take, Nat.min_eq_left hheader]
  have hsize : size (buffer.contents.take sizeof_scheme ++
      array.drop (buffer.contents.take sizeof_scheme).length) = frame.length := by
    rw [← size_take, List.take_append_of_le_length htaken.ge, List.take_take, Nat.min_self, hlength]
  have hframe : buffer.contents.take frame.length = frame := by
    conv_lhs => rw [hsame]
    exact List.take_left
  have hthere : frame.length ≤ buffer.contents.length := by
    rw [hsame, List.length_append]
    exact Nat.le_add_right _ _
  have hroom : (buffer.contents.take sizeof_scheme ++
      array.drop (buffer.contents.take sizeof_scheme).length).length = array.length := by
    rw [List.length_append, List.length_drop, htaken]
    omega
  rw [Reader.pass, read_front_eq hvalid, if_pos hheader, copy_front_eq, if_pos (htaken.trans_le harray)]
  change (read_front buffer _ _ >>= _) = _
  rw [read_front_eq hvalid, hsize, if_pos hthere, hframe, copy_front_eq, hroom, htaken]
  split <;> rfl

/-- What a pass has popped when it goes on. -/
theorem pop_there (hvalid : buffer.Valid) (hnext : scheme.next buffer.contents = some (frame, ys)) :
    (buffer.pop frame.length).Valid ∧ (buffer.pop frame.length).contents = ys := by
  obtain ⟨hsame, _⟩ := Framing.next_spec hnext
  obtain ⟨hpopped, hcontents, _⟩ := IoBuffer.pop_spec hvalid frame.length
  refine ⟨hpopped, ?_⟩
  rw [hcontents, hsame, List.length_append, if_pos (Nat.le_add_right _ _), List.drop_left]

/-- What a pass that returns has done: it has found no whole message, or it has
    taken the first of the stream, of the expected kind or not. -/
theorem pass_spec (hvalid : buffer.Valid) (harray : sizeof_scheme ≤ array.length) {result : Pass A}
    (hpass : reader.pass buffer array = .ok result) :
    (scheme.next buffer.contents = none ∧ result = .waits) ∨
      ∃ frame ys, scheme.next buffer.contents = some (frame, ys) ∧
        ((msg buffer.contents ≠ reader.expected ∧ result = .refuses frame.length) ∨
          (msg buffer.contents = reader.expected ∧
            (landed array buffer.contents frame).length = array.length ∧
            ∃ output, result = .handles (landed array buffer.contents frame) frame.length output)) := by
  cases hnext : scheme.next buffer.contents with
  | none =>
    rw [pass_waits hvalid harray hnext] at hpass
    cases hpass
    exact .inl ⟨rfl, rfl⟩
  | some taken =>
    obtain ⟨frame, ys⟩ := taken
    obtain ⟨hsame, hheader, _⟩ := Framing.next_spec hnext
    obtain ⟨hmsg, hsize⟩ := landed_fields array hnext
    refine .inr ⟨frame, ys, rfl, ?_⟩
    rw [pass_there hvalid harray hnext] at hpass
    split at hpass
    · rename_i hfits
      have hlength := landed_length hfits harray ys (hsame ▸ hheader)
      rw [← hsame] at hlength
      rw [Reader.dispatch, hmsg, hsize] at hpass
      split at hpass
      · rename_i hother
        cases hpass
        exact .inl ⟨hother, rfl⟩
      · rename_i hexpected
        obtain ⟨output, _, hpass⟩ := bind_eq_ok_iff.mp hpass
        cases hpass
        exact .inr ⟨not_not.mp hexpected, hlength, output, rfl⟩
    · cases hpass

/-- A pass goes wrong only at the end of an array. -/
theorem pass_fault (hvalid : buffer.Valid) (harray : sizeof_scheme ≤ array.length) {fault : Fault}
    (hpass : reader.pass buffer array = .error fault) : fault = .out_of_bounds := by
  cases hnext : scheme.next buffer.contents with
  | none =>
    rw [pass_waits hvalid harray hnext] at hpass
    cases hpass
  | some taken =>
    rw [pass_there hvalid harray hnext, Reader.dispatch] at hpass
    split at hpass
    · split at hpass
      · cases hpass
      · rcases bind_eq_error_iff.mp hpass with hhandle | ⟨_, _, hpass⟩
        · exact reader.handle_fault _ _ hhandle
        · cases hpass
    · cases hpass
      rfl

variable {receipt : Receipt A} {rounds : Nat}

/-- The stream begins with a message of size 0 of the expected kind. -/
def Reader.Stuck (reader : Reader A) (contents : List UInt8) : Prop :=
  scheme.next contents = some ([], contents) ∧ msg contents = reader.expected

/-- A message with a byte has the message number of its stream. -/
theorem msg_of_next {xs : List UInt8} (hnext : scheme.next xs = some (frame, ys))
    (hframe : frame ≠ []) : msg frame = msg xs := by
  rw [(Framing.next_spec hnext).1]
  cases frame with
  | nil => exact absurd rfl hframe
  | cons byte rest => rfl

/-- A message of the expected kind is not empty. -/
theorem Reader.ne_nil (hkind : msg frame = reader.expected) : frame ≠ [] := by
  rintro rfl
  exact reader.expected_ne hkind.symm

/-- At a message of size 0 the loop goes on without an end. -/
theorem receive_loop_stuck (hvalid : buffer.Valid) (harray : sizeof_scheme ≤ array.length)
    (hstuck : reader.Stuck buffer.contents) :
    reader.receive_loop rounds buffer array ≠ .ok receipt := by
  induction rounds generalizing buffer array receipt with
  | zero =>
    intro hloop
    cases hloop
  | succ rounds ih =>
    intro hloop
    rw [Reader.receive_loop] at hloop
    obtain ⟨result, hpass, hloop⟩ := bind_eq_ok_iff.mp hloop
    rcases pass_spec hvalid harray hpass with ⟨hnone, _⟩ | ⟨frame, ys, hnext, hcase⟩
    · rw [hstuck.1] at hnone
      cases hnone
    · have hsame := hnext
      rw [hstuck.1] at hsame
      cases hsame
      obtain ⟨hpopped, hcontents⟩ := pop_there hvalid hnext
      rcases hcase with ⟨hother, _⟩ | ⟨_, hlength, output, rfl⟩
      · exact hother hstuck.2
      · obtain ⟨_, hrest, _⟩ := bind_eq_ok_iff.mp hloop
        exact ih hpopped (harray.trans hlength.ge) (hcontents.symm ▸ hstuck) hrest

/-- Some messages of the expected kind are taken from the front of a stream. -/
def Reader.Takes (reader : Reader A) (xs : List UInt8) (frames : List (List UInt8))
    (rest : List UInt8) : Prop :=
  scheme.Splits xs frames rest ∧ ∀ frame ∈ frames, msg frame = reader.expected

theorem Reader.Takes.nil (xs : List UInt8) : reader.Takes xs [] xs := ⟨.refl, by simp⟩

theorem Reader.Takes.cons {xs rest : List UInt8} {frames : List (List UInt8)}
    (hnext : scheme.next xs = some (frame, ys)) (hkind : msg xs = reader.expected)
    (hframe : frame ≠ []) (htakes : reader.Takes ys frames rest) :
    reader.Takes xs (frame :: frames) rest :=
  ⟨.cons hnext htakes.1,
    List.forall_mem_cons.mpr ⟨(msg_of_next hnext hframe).trans hkind, htakes.2⟩⟩

/-- Where the loop ends: all messages of the expected kind have been taken that are
    there, and the next one is not all there or is of another kind. -/
def Reader.Ends (reader : Reader A) (rest : List UInt8) (receipt : Receipt A) : Prop :=
  (receipt.refused = false ∧ receipt.buffer.contents = rest ∧ scheme.next rest = none) ∨
    (receipt.refused = true ∧ msg rest ≠ reader.expected ∧
      ∃ last, scheme.next rest = some (last, receipt.buffer.contents))

/-- What the loop has done when it returns. -/
theorem receive_loop_spec (hvalid : buffer.Valid) (harray : sizeof_scheme ≤ array.length)
    (hloop : reader.receive_loop rounds buffer array = .ok receipt) : receipt.buffer.Valid ∧
      ∃ frames rest, reader.Takes buffer.contents frames rest ∧ reader.Ends rest receipt := by
  induction rounds generalizing buffer array receipt with
  | zero => cases hloop
  | succ rounds ih =>
    have hreturned := hloop
    rw [Reader.receive_loop] at hloop
    obtain ⟨result, hpass, hloop⟩ := bind_eq_ok_iff.mp hloop
    rcases pass_spec hvalid harray hpass with ⟨hnone, rfl⟩ | ⟨frame, ys, hnext, hcase⟩
    · cases hloop
      exact ⟨hvalid, [], _, .nil _, .inl ⟨rfl, rfl, hnone⟩⟩
    · obtain ⟨hpopped, hcontents⟩ := pop_there hvalid hnext
      rcases hcase with ⟨hother, rfl⟩ | ⟨hkind, hlength, output, rfl⟩
      · cases hloop
        refine ⟨hpopped, [], _, .nil _, .inr ⟨rfl, hother, frame, ?_⟩⟩
        rw [hcontents]
        exact hnext
      · have hframe : frame ≠ [] := by
          rintro rfl
          have hsame := (Framing.next_spec hnext).1
          rw [List.nil_append] at hsame
          exact receive_loop_stuck hvalid harray ⟨hsame ▸ hnext, hkind⟩ hreturned
        obtain ⟨receipt', hrest, hloop⟩ := bind_eq_ok_iff.mp hloop
        cases hloop
        obtain ⟨hvalid', frames, rest, htakes, hend⟩ := ih hpopped (harray.trans hlength.ge) hrest
        rw [hcontents] at htakes
        exact ⟨hvalid', frame :: frames, rest, .cons hnext hkind hframe htakes, hend⟩

/-- With a round for every byte and one more the loop only goes on without an end
    when it comes to a message of size 0. -/
theorem receive_loop_hangs (hvalid : buffer.Valid) (harray : sizeof_scheme ≤ array.length)
    (hrounds : buffer.contents.length < rounds)
    (hloop : reader.receive_loop rounds buffer array = .error .hang) :
    ∃ frames rest, reader.Takes buffer.contents frames rest ∧ reader.Stuck rest := by
  induction rounds generalizing buffer array with
  | zero => exact absurd hrounds (Nat.not_lt_zero _)
  | succ rounds ih =>
    rw [Reader.receive_loop] at hloop
    rcases bind_eq_error_iff.mp hloop with hpass | ⟨result, hpass, hloop⟩
    · cases pass_fault hvalid harray hpass
    · rcases pass_spec hvalid harray hpass with ⟨_, rfl⟩ | ⟨frame, ys, hnext, hcase⟩
      · cases hloop
      · obtain ⟨hpopped, hcontents⟩ := pop_there hvalid hnext
        have hsame := (Framing.next_spec hnext).1
        rcases hcase with ⟨_, rfl⟩ | ⟨hkind, hlength, output, rfl⟩
        · cases hloop
        · by_cases hframe : frame = []
          · subst frame
            rw [List.nil_append] at hsame
            exact ⟨[], _, .nil _, hsame ▸ hnext, hkind⟩
          · have hshorter : (buffer.pop frame.length).contents.length < rounds := by
              have hpos := List.length_pos_of_ne_nil hframe
              rw [hcontents]
              rw [hsame, List.length_append] at hrounds
              omega
            rcases bind_eq_error_iff.mp hloop with hrest | ⟨_, _, hloop⟩
            · obtain ⟨frames, rest, htakes, hstuck⟩ :=
                ih hpopped (harray.trans hlength.ge) hshorter hrest
              rw [hcontents] at htakes
              exact ⟨frame :: frames, rest, .cons hnext hkind hframe htakes, hstuck⟩
            · cases hloop

/-- Where a message of size 0 can be come to, any other way to take messages from the
    stream leaves one of the expected kind. -/
theorem Reader.Takes.of_stuck {xs rest rest' : List UInt8} {frames frames' : List (List UInt8)}
    (htakes : reader.Takes xs frames rest) (htakes' : reader.Takes xs frames' rest')
    (hstuck : reader.Stuck rest') :
    msg rest = reader.expected ∧ ∃ frame ys, scheme.next rest = some (frame, ys) := by
  obtain ⟨hsplits, hkinds⟩ := htakes
  obtain ⟨hsplits', hkinds'⟩ := htakes'
  rcases hsplits.linear hsplits' with ⟨more, rfl, hmore⟩ | ⟨more, rfl, hmore⟩
  · cases hmore with
    | refl => exact ⟨hstuck.2, _, _, hstuck.1⟩
    | cons hnext _ =>
      rename_i frame _ _
      have hkind : msg frame = reader.expected := hkinds' frame (by simp)
      exact ⟨(msg_of_next hnext (Reader.ne_nil hkind)).symm.trans hkind, _, _, hnext⟩
  · cases hmore with
    | refl => exact ⟨hstuck.2, _, _, hstuck.1⟩
    | cons hnext _ =>
      rw [hstuck.1] at hnext
      cases hnext
      exact absurd rfl (Reader.ne_nil (hkinds [] (by simp)))

/-- A buffer with some bytes in it, as `push` leaves it. -/
def holding (bytes : List UInt8) : IoBuffer where
  raw_buffer := some bytes
  buffer_size := bytes.length
  block_size := 1
  buffer_offset := bytes.length

theorem holding_valid {bytes : List UInt8} (hpos : 0 < bytes.length)
    (hbound : bytes.length ≤ PTRDIFF_MAX) : (holding bytes).Valid :=
  ⟨rfl, Nat.le_refl _, hbound, hpos, fun _ => Nat.one_pos⟩

/-- A callback that returns has taken the messages of the expected kind at the front
    of the buffer, as many as are there as a whole. -/
theorem Reader.on_receive_takes (hvalid : buffer.Valid)
    (hreturns : reader.on_receive buffer = .ok receipt) : receipt.buffer.Valid ∧
      ∃ frames rest, reader.Takes buffer.contents frames rest ∧ reader.Ends rest receipt :=
  receive_loop_spec hvalid (by rw [new_array_length]; decide) hreturns

/-- A callback that stays within its arrays returns unless it comes to a message of
    size 0 of the expected kind. -/
theorem Reader.on_receive_hangs_iff (hvalid : buffer.Valid)
    (hbounds : reader.on_receive buffer ≠ .error .out_of_bounds) :
    reader.on_receive buffer = .error .hang ↔
      ∃ frames rest, reader.Takes buffer.contents frames rest ∧ reader.Stuck rest := by
  have harray : sizeof_scheme ≤ new_array.length := by
    rw [new_array_length]
    decide
  constructor
  · refine receive_loop_hangs hvalid harray ?_
    rw [hvalid.contents_length]
    exact Nat.lt_succ_self _
  · rintro ⟨frames, rest, htakes, hstuck⟩
    cases hreturns : reader.on_receive buffer with
    | error fault =>
      cases fault with
      | out_of_bounds => exact absurd hreturns hbounds
      | hang => rfl
    | ok receipt =>
      obtain ⟨_, frames', rest', htakes', hends⟩ := Reader.on_receive_takes hvalid hreturns
      obtain ⟨hkind, frame, ys, hnext⟩ := htakes'.of_stuck htakes hstuck
      rcases hends with ⟨_, _, hnone⟩ | ⟨_, hother, _⟩
      · rw [hnone] at hnext
        cases hnext
      · exact absurd hkind hother

/-- A request of seven bytes and a part of another. -/
theorem Reader.on_receive_takes_part : ∃ receipt frames rest,
    (event_receiver []).on_receive (holding [1, 7, 0, 0, 0, 0, 0, 1, 9]) = .ok receipt ∧
      (event_receiver []).Takes [1, 7, 0, 0, 0, 0, 0, 1, 9] frames rest ∧
      (event_receiver []).Ends rest receipt := by
  obtain ⟨receipt, hreturns⟩ : ∃ receipt, (event_receiver []).on_receive
      (holding [1, 7, 0, 0, 0, 0, 0, 1, 9]) = .ok receipt :=
    ⟨{ buffer := (holding [1, 7, 0, 0, 0, 0, 0, 1, 9]).pop 7, output := [], refused := false },
      by decide +kernel⟩
  obtain ⟨_, frames, rest, htakes, hends⟩ := Reader.on_receive_takes
    (holding_valid (by decide) (by decide)) hreturns
  exact ⟨receipt, frames, rest, hreturns, htakes, hends⟩

/-- Three bytes of a client keep a thread of the server forever. -/
theorem Reader.on_receive_hangs_iff_empty :
    (event_receiver []).on_receive (holding [1, 0, 0]) = .error .hang := by
  refine (Reader.on_receive_hangs_iff (holding_valid (by decide) (by decide)) ?_).mpr ?_
  · decide +kernel
  · exact ⟨[], [1, 0, 0], .nil _, by decide, by decide⟩

end Chat

end rioring
