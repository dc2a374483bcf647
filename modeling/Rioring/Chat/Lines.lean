import Rioring.Chat.Receiver

/-! The lines of the chat clients through the callbacks of both programs, which read
one message after the other to the same array. -/

namespace rioring

namespace Chat

variable {A : Type} {reader : Reader A} {buffer : IoBuffer}
  {array bytes text previous frame tail name : List UInt8} {frames texts : List (List UInt8)}

/-- Bytes that are written over the front of others. -/
def overlay (text previous : List UInt8) : List UInt8 := text ++ previous.drop text.length

/-- The texts that are read when some come in together, each written over the one
    before it. -/
def overlaid : List UInt8 → List (List UInt8) → List (List UInt8)
  | _, [] => []
  | previous, text :: texts => overlay text previous :: overlaid (overlay text previous) texts

theorem overlay_length (text previous : List UInt8) :
    (overlay text previous).length = max text.length previous.length := by
  rw [overlay, List.length_append, List.length_drop]
  omega

theorem overlay_eq_iff : overlay text previous = text ↔ previous.length ≤ text.length := by
  rw [overlay, List.append_right_eq_self, List.drop_eq_nil_iff]

/-- The texts are read as they were written exactly if none of them is shorter than
    the one before it. -/
theorem overlaid_eq_iff : overlaid previous texts = texts ↔
    (previous :: texts).IsChain fun text text' => text.length ≤ text'.length := by
  induction texts generalizing previous with
  | nil => simp [overlaid]
  | cons text texts ih =>
    rw [overlaid, List.cons.injEq, overlay_eq_iff, List.isChain_cons_cons]
    constructor
    · rintro ⟨hlength, htexts⟩
      rw [overlay_eq_iff.mpr hlength] at htexts
      exact ⟨hlength, ih.mp htexts⟩
    · rintro ⟨hlength, htexts⟩
      refine ⟨hlength, ?_⟩
      rw [overlay_eq_iff.mpr hlength]
      exact ih.mpr htexts

theorem overlaid_nil_iff : overlaid [] texts = texts ↔
    texts.IsChain fun text text' => text.length ≤ text'.length := by
  rw [overlaid_eq_iff]
  cases texts with
  | nil => simp
  | cons text texts => simp [List.isChain_cons_cons]

theorem overlaid_length (previous : List UInt8) (texts : List (List UInt8)) :
    (overlaid previous texts).length = texts.length := by
  induction texts generalizing previous with
  | nil => rfl
  | cons text texts ih => rw [overlaid, List.length_cons, ih, List.length_cons]

theorem c_string_append (htext : 0 ∉ text) (rest : List UInt8) :
    c_string (text ++ 0 :: rest) = .ok text := by
  have hmem : 0 ∈ text ++ 0 :: rest := List.mem_append_right _ List.mem_cons_self
  have htake : (text ++ 0 :: rest).takeWhile (· ≠ 0) = text := by
    rw [List.takeWhile_append_of_pos, List.takeWhile_cons_of_neg (by simp), List.append_nil]
    intro byte hbyte
    simpa using fun hzero : byte = 0 => htext (hzero ▸ hbyte)
  rw [c_string, if_pos hmem, htake]

/-- A text with nothing but NULs behind it. -/
structure Holds (bytes text : List UInt8) : Prop where
  unended : 0 ∉ text
  longer : text.length < bytes.length
  rest : bytes = text ++ List.replicate (bytes.length - text.length) 0

theorem Holds.c_string (hholds : Holds bytes text) : c_string bytes = .ok text := by
  obtain ⟨htext, hlonger, hrest⟩ := hholds
  obtain ⟨k, hk⟩ : ∃ k, bytes.length - text.length = k + 1 := ⟨_, (Nat.succ_pred (by omega)).symm⟩
  rw [hrest, hk, List.replicate_succ]
  exact c_string_append htext _

theorem Holds.overlay (hholds : Holds bytes previous) (htext : 0 ∉ text)
    (hfits : text.length < bytes.length) :
    Holds (overlay text bytes) (overlay text previous) := by
  obtain ⟨hprevious, hlonger, hrest⟩ := hholds
  refine ⟨?_, ?_, ?_⟩
  · rw [Chat.overlay, List.mem_append, not_or]
    exact ⟨htext, fun hmem => hprevious (List.mem_of_mem_drop hmem)⟩
  · rw [overlay_length, overlay_length]
    omega
  · rw [overlay_length, overlay_length, Chat.overlay, Chat.overlay]
    conv_lhs => rw [hrest]
    rw [List.drop_append, List.drop_replicate, List.append_assoc]
    congr 3
    omega

/-- A message that is read whole is written over what the array held. -/
theorem landed_eq (array : List UInt8) (hframe : sizeof_scheme ≤ frame.length) (ys : List UInt8) :
    landed array (frame ++ ys) frame = overlay frame array := by
  have htake : ((frame ++ ys).take sizeof_scheme).length = sizeof_scheme := by
    rw [List.length_take, List.length_append]
    omega
  rw [landed, overlay, List.drop_append, List.drop_eq_nil_of_le (by omega), List.nil_append, htake,
    List.drop_drop]
  congr 2
  omega

/-- What comes of messages that are all there, read to an array. -/
def Reader.outputs (reader : Reader A) : List UInt8 → List (List UInt8) → Except Fault (List A)
  | _, [] => .ok []
  | array, frame :: frames => do
    let output ← reader.handle (overlay frame array)
    let rest ← reader.outputs (overlay frame array) frames
    .ok (output ++ rest)

/-- A message that fits the array and is of the expected kind. -/
structure Reader.Message (reader : Reader A) (frame : List UInt8) : Prop where
  whole : scheme.IsFrame frame
  fits : frame.length ≤ 1024
  kind : msg frame = reader.expected

/-- The loop on messages that are all there, and a part of one. -/
theorem receive_loop_messages {rounds : Nat} (hvalid : buffer.Valid) (harray : array.length = 1024)
    (hframes : ∀ frame ∈ frames, reader.Message frame) (htail : scheme.next tail = none)
    (hcontents : buffer.contents = frames.flatten ++ tail) (hrounds : frames.length < rounds) :
    ∃ left : IoBuffer, left.Valid ∧ left.contents = tail ∧
      reader.receive_loop rounds buffer array = (reader.outputs array frames).map fun output =>
        { buffer := left, output, refused := false } := by
  induction frames generalizing rounds buffer array with
  | nil =>
    obtain ⟨rounds, rfl⟩ : ∃ n, rounds = n + 1 := ⟨rounds - 1, by simp at hrounds; omega⟩
    rw [List.flatten_nil, List.nil_append] at hcontents
    refine ⟨buffer, hvalid, hcontents, ?_⟩
    rw [Reader.receive_loop, pass_waits hvalid (by rw [harray]; decide) (hcontents ▸ htail)]
    rfl
  | cons frame frames ih =>
    obtain ⟨rounds, rfl⟩ : ∃ n, rounds = n + 1 := ⟨rounds - 1, by simp at hrounds; omega⟩
    obtain ⟨hframe, hframes⟩ := List.forall_mem_cons.mp hframes
    rw [List.flatten_cons, List.append_assoc] at hcontents
    have hheader : sizeof_scheme ≤ frame.length := hframe.whole.header
    have hnext : scheme.next buffer.contents = some (frame, frames.flatten ++ tail) := by
      rw [hcontents]
      exact hframe.whole.next _
    have hmsg : msg buffer.contents = reader.expected :=
      (msg_of_next hnext (Reader.ne_nil hframe.kind)).symm.trans hframe.kind
    obtain ⟨hpopped, hleft⟩ := pop_there hvalid hnext
    obtain ⟨hfield, hsize⟩ := landed_fields array hnext
    rw [hcontents, landed_eq array hheader] at hfield hsize
    rw [← hcontents, hmsg] at hfield
    have hlength : (overlay frame array).length = 1024 := by
      rw [overlay_length, harray]
      exact max_eq_right hframe.fits
    obtain ⟨left, hvalid', hcontents', hloop⟩ := ih hpopped hlength hframes hleft
      (Nat.lt_of_succ_lt_succ hrounds)
    refine ⟨left, hvalid', hcontents', ?_⟩
    rw [Reader.receive_loop, pass_there hvalid (by rw [harray]; decide) hnext,
      if_pos (hframe.fits.trans harray.ge), hcontents, landed_eq array hheader, Reader.dispatch,
      if_neg (not_not.mpr hfield), Reader.outputs, hsize]
    cases reader.handle (overlay frame array) with
    | error fault => rfl
    | ok output =>
      change (reader.receive_loop rounds (buffer.pop frame.length) (overlay frame array) >>= _) = _
      rw [hloop]
      cases reader.outputs (overlay frame array) frames with
      | error fault => rfl
      | ok rest => rfl

theorem length_le_flatten (hframes : ∀ frame ∈ frames, frame ≠ []) :
    frames.length ≤ frames.flatten.length := by
  induction frames with
  | nil => exact Nat.le_refl _
  | cons frame frames ih =>
    obtain ⟨hframe, hframes⟩ := List.forall_mem_cons.mp hframes
    have hpos := List.length_pos_of_ne_nil hframe
    have hrest := ih hframes
    rw [List.flatten_cons, List.length_append, List.length_cons]
    omega

/-- A callback on messages that are all there, and a part of one. -/
theorem on_receive_messages (hvalid : buffer.Valid) (hframes : ∀ frame ∈ frames, reader.Message frame)
    (htail : scheme.next tail = none) (hcontents : buffer.contents = frames.flatten ++ tail) :
    ∃ left : IoBuffer, left.Valid ∧ left.contents = tail ∧
      reader.on_receive buffer = (reader.outputs new_array frames).map fun output =>
        { buffer := left, output, refused := false } := by
  refine receive_loop_messages hvalid new_array_length hframes htail hcontents ?_
  have hcount := length_le_flatten fun frame hframe => Reader.ne_nil (hframes frame hframe).kind
  change frames.length < buffer.buffer_offset + 1
  rw [← hvalid.contents_length, hcontents, List.length_append]
  omega

theorem holds_new_array {n : Nat} (hn : n < 1024) : Holds (new_array.drop n) [] := by
  rw [new_array, List.drop_replicate]
  refine ⟨List.not_mem_nil, ?_, ?_⟩
  · rw [List.length_replicate]
    exact Nat.sub_pos_of_lt hn
  · rw [List.length_replicate]
    rfl

theorem overlay_drop {n : Nat} (hn : n ≤ frame.length) :
    (overlay frame array).drop n = overlay (frame.drop n) (array.drop n) := by
  rw [overlay, List.drop_append_of_le_length hn, overlay, List.length_drop, List.drop_drop]
  congr 2
  omega

/-- A text that a chat client sends or is sent: no word of input is empty, and no
    string has a NUL. -/
structure Line (text : List UInt8) : Prop where
  nonempty : text ≠ []
  unended : 0 ∉ text

/-- What the main loop of the chat client sends for a word of input. -/
def input_message (input : List UInt8) : List UInt8 := request_chat (input.take 1000)

theorem Line.take {text : List UInt8} (hline : Line text) : Line (text.take 1000) := by
  refine ⟨?_, fun hmem => hline.unended (List.mem_of_mem_take hmem)⟩
  rw [ne_eq, List.take_eq_nil_iff]
  rintro (hzero | hnil)
  · cases hzero
  · exact hline.nonempty hnil

section Request

theorem request_chat_length (text : List UInt8) :
    (request_chat text).length = sizeof_request_chat + text.length := by
  simp only [request_chat, List.length_append, List.length_cons, word_bytes_length]
  rfl

theorem request_chat_drop (text : List UInt8) : (request_chat text).drop sizeof_request_chat = text := rfl

theorem request_chat_message (name : List UInt8) (hfits : text.length ≤ 1000) :
    (event_receiver name).Message (request_chat text) := by
  have hlength := request_chat_length text
  have hsize : size ((request_chat text).take sizeof_scheme) =
      (sizeof_request_chat + text.length) % 256 ^ 2 := word_word_bytes 2 _
  refine ⟨⟨?_, ?_⟩, ?_, rfl⟩
  · rw [hlength]
    exact (by decide : sizeof_scheme ≤ sizeof_request_chat).trans (Nat.le_add_right _ _)
  · change size ((request_chat text).take sizeof_scheme) = _
    rw [hsize, hlength, sizeof_request_chat]
    omega
  · rw [hlength, sizeof_request_chat]
    omega

theorem request_chat_size_overlay (hfits : text.length ≤ 1000) (array : List UInt8) :
    request_chat_size (overlay (request_chat text) array) = text.length := by
  have hfield : word (((overlay (request_chat text) array).drop 3).take 4) =
      text.length % 256 ^ 4 := word_word_bytes 4 _
  rw [request_chat_size, hfield, signed, Nat.mod_eq_of_lt (by omega), if_pos (by omega)]

/-- What the server does with a line: it relays the line written over the text
    before it. -/
theorem relay_overlay (name : List UInt8)
    (hholds : Holds (array.drop sizeof_request_chat) previous)
    (harray : array.length = 1024) (hline : Line text) (hfits : text.length ≤ 1000) :
    relay name (overlay (request_chat text) array) =
        (do let response ← chat name (overlay text previous); .ok [response]) ∧
      Holds ((overlay (request_chat text) array).drop sizeof_request_chat) (overlay text previous) := by
  have hpos := List.length_pos_of_ne_nil hline.nonempty
  have hheader : sizeof_request_chat ≤ (request_chat text).length := by
    rw [request_chat_length]
    exact Nat.le_add_right _ _
  have hroom : text.length < (array.drop sizeof_request_chat).length := by
    rw [List.length_drop, harray, sizeof_request_chat]
    omega
  have htexts : Holds ((overlay (request_chat text) array).drop sizeof_request_chat)
      (overlay text previous) := by
    rw [overlay_drop hheader, request_chat_drop]
    exact hholds.overlay hline.unended hroom
  refine ⟨?_, htexts⟩
  rw [relay, request_chat_size_overlay hfits, if_pos (by exact_mod_cast hpos), htexts.c_string]
  rfl

/-- What the server answers lines that come in together, the array of the callback
    holding a text already. -/
theorem outputs_requests (hname : name.length < 20)
    (hholds : Holds (array.drop sizeof_request_chat) previous) (harray : array.length = 1024)
    (hlines : ∀ text ∈ texts, Line text ∧ text.length ≤ 1000) (hprevious : previous.length ≤ 996) :
    (event_receiver name).outputs array (texts.map request_chat) =
      if ∀ text ∈ texts, text.length ≤ 996 then
        .ok ((overlaid previous texts).map (response_chat name))
      else .error .out_of_bounds := by
  induction texts generalizing array previous with
  | nil => rw [if_pos (by simp)]; rfl
  | cons text texts ih =>
    obtain ⟨⟨hline, hfits⟩, hlines⟩ := List.forall_mem_cons.mp hlines
    obtain ⟨hrelay, hholds'⟩ := relay_overlay name hholds harray hline hfits
    have harray' : (overlay (request_chat text) array).length = 1024 := by
      rw [overlay_length, request_chat_length, harray, sizeof_request_chat]
      omega
    have hlength := overlay_length text previous
    rw [List.map_cons, Reader.outputs]
    change (relay name (overlay (request_chat text) array) >>= _) = _
    rw [hrelay, chat, hlength, sizeof_response_chat]
    by_cases hshort : text.length ≤ 996
    · rw [if_pos ⟨hname, by omega⟩]
      change ((event_receiver name).outputs _ _ >>= _) = _
      rw [ih hholds' harray' hlines (by rw [hlength]; omega)]
      simp only [List.forall_mem_cons, hshort, true_and]
      split <;> rfl
    · rw [if_neg (by omega), if_neg fun hall => hshort (hall text List.mem_cons_self)]
      rfl

variable {inputs : List (List UInt8)}

/-- The callback of the server on what its client has sent for some input. -/
theorem on_receive_inputs (hvalid : buffer.Valid) (hname : name.length < 20)
    (hinputs : ∀ input ∈ inputs, Line input) (htail : scheme.next tail = none)
    (hcontents : buffer.contents = (inputs.map input_message).flatten ++ tail) :
    ∃ left : IoBuffer, left.contents = tail ∧ (event_receiver name).on_receive buffer =
      if ∀ input ∈ inputs, input.length ≤ 996 then
        .ok { buffer := left, output := (overlaid [] inputs).map (response_chat name), refused := false }
      else .error .out_of_bounds := by
  have hlines : ∀ text ∈ inputs.map (·.take 1000), Line text ∧ text.length ≤ 1000 := by
    intro text htext
    obtain ⟨input, hinput, rfl⟩ := List.mem_map.mp htext
    exact ⟨(hinputs input hinput).take, List.length_take_le _ _⟩
  have hsent : inputs.map input_message = (inputs.map (·.take 1000)).map request_chat := by
    rw [List.map_map]
    rfl
  have hmessages : ∀ frame ∈ inputs.map input_message, (event_receiver name).Message frame := by
    intro frame hframe
    rw [hsent] at hframe
    obtain ⟨text, htext, rfl⟩ := List.mem_map.mp hframe
    exact request_chat_message name (hlines text htext).2
  obtain ⟨left, _, hleft, hcallback⟩ := on_receive_messages hvalid hmessages htail hcontents
  refine ⟨left, hleft, ?_⟩
  have hshort : (∀ text ∈ inputs.map (·.take 1000), text.length ≤ 996) ↔
      ∀ input ∈ inputs, input.length ≤ 996 := by
    rw [List.forall_mem_map]
    refine forall₂_congr fun input _ => ?_
    rw [List.length_take]
    omega
  rw [hcallback, hsent, outputs_requests hname (holds_new_array (by decide)) new_array_length hlines
    (Nat.zero_le _)]
  by_cases hall : ∀ input ∈ inputs, input.length ≤ 996
  · rw [if_pos hall, if_pos (hshort.mpr hall), List.map_congr_left fun input hinput =>
      List.take_of_length_le ((hall input hinput).trans (by decide)), List.map_id']
    rfl
  · rw [if_neg hall, if_neg (hall ∘ hshort.mp)]
    rfl

/-- The callback of the server stays within its arrays, whatever lines come in
    together, exactly if none of them is longer than 996 bytes. -/
theorem input_in_bounds_iff (hvalid : buffer.Valid) (hname : name.length < 20)
    (hinputs : ∀ input ∈ inputs, Line input) (htail : scheme.next tail = none)
    (hcontents : buffer.contents = (inputs.map input_message).flatten ++ tail) :
    (event_receiver name).on_receive buffer ≠ .error .out_of_bounds ↔
      ∀ input ∈ inputs, input.length ≤ 996 := by
  obtain ⟨left, _, hcallback⟩ := on_receive_inputs hvalid hname hinputs htail hcontents
  rw [hcallback]
  split
  · rename_i hall
    exact ⟨fun _ => hall, fun _ h => by cases h⟩
  · rename_i hlong
    exact ⟨fun h => absurd rfl h, fun hall => absurd hall hlong⟩

theorem response_chat_drop (hname : name.length < 20) (text : List UInt8) :
    (response_chat name text).drop sizeof_response_chat = text := by
  refine List.drop_left' ?_
  simp only [List.length_append, List.length_cons, word_bytes_length, List.length_replicate,
    sizeof_response_chat]
  omega

theorem response_chat_injective (hname : name.length < 20) :
    Function.Injective (response_chat name) := by
  intro text text' hsame
  rw [← response_chat_drop hname text, hsame, response_chat_drop hname]

/-- Of lines that come in together the server relays each with what is left of the
    longer ones before it: exactly as they were typed only if they never get shorter. -/
theorem input_relayed_iff (hvalid : buffer.Valid) (hname : name.length < 20)
    (hinputs : ∀ input ∈ inputs, Line input ∧ input.length ≤ 996) (htail : scheme.next tail = none)
    (hcontents : buffer.contents = (inputs.map input_message).flatten ++ tail) :
    ∃ receipt, (event_receiver name).on_receive buffer = .ok receipt ∧
      receipt.buffer.contents = tail ∧ receipt.refused = false ∧
      receipt.output = (overlaid [] inputs).map (response_chat name) ∧
      (receipt.output = inputs.map (response_chat name) ↔
        inputs.IsChain fun input input' => input.length ≤ input'.length) := by
  obtain ⟨left, hleft, hcallback⟩ :=
    on_receive_inputs hvalid hname (fun input hinput => (hinputs input hinput).1) htail hcontents
  rw [if_pos fun input hinput => (hinputs input hinput).2] at hcallback
  refine ⟨_, hcallback, hleft, rfl, rfl, ?_⟩
  rw [List.map_injective_iff.mpr (response_chat_injective hname) |>.eq_iff, overlaid_nil_iff]

/-- A client that has sent "abc" and then "d". -/
def two_words : List (List UInt8) := [[97, 98, 99], [100]]

theorem two_words_lines : ∀ input ∈ two_words, Line input := by
  intro input hinput
  fin_cases hinput
  · exact ⟨by decide, by decide⟩
  · exact ⟨by decide, by decide⟩

theorem input_in_bounds_iff_two_words :
    (event_receiver [99, 49]).on_receive (holding (two_words.map input_message).flatten) ≠
      .error .out_of_bounds ↔ ∀ input ∈ two_words, input.length ≤ 996 :=
  input_in_bounds_iff (holding_valid (by decide) (by decide)) (by decide) two_words_lines
    (by decide : scheme.next [] = none) (by decide)

/-- The second of them is relayed as "dbc". -/
theorem input_relayed_iff_two_words : ∃ receipt,
    (event_receiver [99, 49]).on_receive (holding (two_words.map input_message).flatten) = .ok receipt ∧
      receipt.output = [response_chat [99, 49] [97, 98, 99], response_chat [99, 49] [100, 98, 99]] ∧
      receipt.output ≠ two_words.map (response_chat [99, 49]) := by
  have hlines : ∀ input ∈ two_words, Line input ∧ input.length ≤ 996 := by
    intro input hinput
    refine ⟨two_words_lines input hinput, ?_⟩
    fin_cases hinput <;> decide
  have hvalid : (holding (two_words.map input_message).flatten).Valid :=
    holding_valid (by decide) (by decide)
  have hname : ([99, 49] : List UInt8).length < 20 := by decide
  have htail : scheme.next [] = none := by decide
  obtain ⟨receipt, hreturns, _, _, houtput, hiff⟩ :=
    input_relayed_iff hvalid hname hlines htail (by decide)
  exact ⟨receipt, hreturns, houtput, fun hsame => absurd (hiff.mp hsame) (by decide)⟩

end Request

section Response

variable {responses : List (List UInt8 × List UInt8)}

theorem response_chat_length (hname : name.length < 20) (text : List UInt8) :
    (response_chat name text).length = sizeof_response_chat + text.length := by
  simp only [response_chat, List.length_append, List.length_cons, word_bytes_length,
    List.length_replicate, sizeof_response_chat]
  omega

theorem response_chat_message (hname : name.length < 20) (hfits : text.length ≤ 996) :
    chat_client.Message (response_chat name text) := by
  have hlength := response_chat_length hname text
  have hsize : size ((response_chat name text).take sizeof_scheme) =
      (sizeof_response_chat + text.length) % 256 ^ 2 := word_word_bytes 2 _
  refine ⟨⟨?_, ?_⟩, ?_, rfl⟩
  · rw [hlength]
    exact (by decide : sizeof_scheme ≤ sizeof_response_chat).trans (Nat.le_add_right _ _)
  · change size ((response_chat name text).take sizeof_scheme) = _
    rw [hsize, hlength, sizeof_response_chat]
    omega
  · rw [hlength, sizeof_response_chat]
    omega

theorem response_chat_size_overlay (hname : name.length < 20) (hfits : text.length ≤ 996)
    (array : List UInt8) : response_chat_size (overlay (response_chat name text) array) = text.length := by
  have hfield : ((overlay (response_chat name text) array).drop 23).take 4 =
      word_bytes 4 text.length := by
    rw [overlay, response_chat, List.append_assoc, List.append_assoc]
    rw [List.drop_left' (by simp [word_bytes_length]; omega)]
    exact List.take_left' (word_bytes_length 4 _)
  rw [response_chat_size, hfield, word_word_bytes, signed, Nat.mod_eq_of_lt (by omega),
    if_pos (by omega)]

/-- What the client shows of a response. -/
theorem show_overlay (hholds : Holds (array.drop sizeof_response_chat) previous)
    (harray : array.length = 1024) (hname : name.length < 20) (hunended : 0 ∉ name)
    (hline : Line text) (hfits : text.length ≤ 996) :
    show_line (overlay (response_chat name text) array) = .ok [(name, overlay text previous)] ∧
      Holds ((overlay (response_chat name text) array).drop sizeof_response_chat)
        (overlay text previous) := by
  have hpos := List.length_pos_of_ne_nil hline.nonempty
  have hheader : sizeof_response_chat ≤ (response_chat name text).length := by
    rw [response_chat_length hname]
    exact Nat.le_add_right _ _
  have hroom : text.length < (array.drop sizeof_response_chat).length := by
    rw [List.length_drop, harray, sizeof_response_chat]
    omega
  have htexts : Holds ((overlay (response_chat name text) array).drop sizeof_response_chat)
      (overlay text previous) := by
    rw [overlay_drop hheader, response_chat_drop hname]
    exact hholds.overlay hline.unended hroom
  refine ⟨?_, htexts⟩
  have hfield : c_string ((overlay (response_chat name text) array).drop sizeof_scheme) = .ok name := by
    obtain ⟨k, hk⟩ : ∃ k, 20 - name.length = k + 1 := ⟨_, (Nat.succ_pred (by omega)).symm⟩
    rw [overlay, response_chat, hk, List.replicate_succ]
    simp only [List.append_assoc, List.cons_append]
    exact c_string_append hunended _
  rw [show_line, response_chat_size_overlay hname hfits, if_pos (by exact_mod_cast hpos), hfield,
    htexts.c_string]
  rfl

/-- A response that a server sends for a line. -/
structure Response (response : List UInt8 × List UInt8) : Prop where
  name : response.1.length < 20
  unended : 0 ∉ response.1
  line : Line response.2
  fits : response.2.length ≤ 996

theorem outputs_responses (hholds : Holds (array.drop sizeof_response_chat) previous)
    (harray : array.length = 1024) (hresponses : ∀ response ∈ responses, Response response) :
    chat_client.outputs array (responses.map fun response => response_chat response.1 response.2) =
      .ok ((responses.map (·.1)).zip (overlaid previous (responses.map (·.2)))) := by
  induction responses generalizing array previous with
  | nil => rfl
  | cons response responses ih =>
    obtain ⟨⟨hname, hunended, hline, hfits⟩, hresponses⟩ := List.forall_mem_cons.mp hresponses
    obtain ⟨hshow, hholds'⟩ := show_overlay hholds harray hname hunended hline hfits
    have harray' : (overlay (response_chat response.1 response.2) array).length = 1024 := by
      rw [overlay_length, response_chat_length hname, harray, sizeof_response_chat]
      omega
    rw [List.map_cons, Reader.outputs]
    change (show_line (overlay (response_chat response.1 response.2) array) >>= _) = _
    rw [hshow]
    change (chat_client.outputs _ _ >>= _) = _
    rw [ih hholds' harray' hresponses]
    rfl

/-- Of responses that come in together the client shows each with what is left of the
    longer ones before it: exactly as they were sent only if they never get shorter. -/
theorem responses_shown_iff (hvalid : buffer.Valid)
    (hresponses : ∀ response ∈ responses, Response response) (htail : scheme.next tail = none)
    (hcontents : buffer.contents =
      (responses.map fun response => response_chat response.1 response.2).flatten ++ tail) :
    ∃ receipt, chat_client.on_receive buffer = .ok receipt ∧ receipt.buffer.contents = tail ∧
      receipt.output = (responses.map (·.1)).zip (overlaid [] (responses.map (·.2))) ∧
      (receipt.output = responses ↔
        responses.IsChain fun response response' => response.2.length ≤ response'.2.length) := by
  have hmessages : ∀ frame ∈ responses.map fun response => response_chat response.1 response.2,
      chat_client.Message frame := by
    intro frame hframe
    obtain ⟨response, hresponse, rfl⟩ := List.mem_map.mp hframe
    exact response_chat_message (hresponses response hresponse).name (hresponses response hresponse).fits
  obtain ⟨left, _, hleft, hcallback⟩ := on_receive_messages hvalid hmessages htail hcontents
  rw [outputs_responses (holds_new_array (by decide)) new_array_length hresponses] at hcallback
  refine ⟨_, hcallback, hleft, rfl, ?_⟩
  have hchain : overlaid [] (responses.map (·.2)) = responses.map (·.2) ↔
      responses.IsChain fun response response' => response.2.length ≤ response'.2.length := by
    rw [overlaid_nil_iff, List.isChain_map]
  rw [← hchain]
  constructor
  · intro hsame
    have htexts := congrArg (List.map (·.2)) hsame
    rwa [List.map_snd_zip (by rw [List.length_map, overlaid_length, List.length_map])] at htexts
  · intro hsame
    change (responses.map (·.1)).zip (overlaid [] (responses.map (·.2))) = responses
    rw [hsame, List.zip_map']
    exact List.map_id' responses

theorem responses_shown_iff_two_words : ∃ receipt,
    chat_client.on_receive (holding (two_words.map (response_chat [99, 49])).flatten) = .ok receipt ∧
      receipt.output = [([99, 49], [97, 98, 99]), ([99, 49], [100, 98, 99])] := by
  have hvalid : (holding (two_words.map (response_chat [99, 49])).flatten).Valid :=
    holding_valid (by decide) (by decide)
  have hresponses : ∀ response ∈ two_words.map fun text => (([99, 49] : List UInt8), text),
      Response response := by
    intro response hresponse
    fin_cases hresponse
    · exact ⟨by decide, by decide, ⟨by decide, by decide⟩, by decide⟩
    · exact ⟨by decide, by decide, ⟨by decide, by decide⟩, by decide⟩
  have htail : scheme.next [] = none := by decide
  obtain ⟨receipt, hreturns, _, houtput, _⟩ :=
    responses_shown_iff hvalid hresponses htail (by decide)
  exact ⟨receipt, hreturns, houtput⟩

end Response

end Chat

end rioring
