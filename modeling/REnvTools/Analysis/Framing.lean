import REnvTools.Analysis.HeaderLines

/-!
# Frames on the wire

A sequence of frames is read back frame by frame, whatever the bodies contain
(`readMessages_wire`). An input that ends within a frame is rejected, with one exception:
of a frame without a body, the carriage return of the empty line is taken for the empty
line, and so is any other stretch of white space that begins a line after the length.
-/

set_option autoImplicit false

namespace REnvTools.Analysis

open REnvTools.Lib REnvTools.Program

/-! ## Frames -/

/-- A frame: header lines with one `Content-Length` among them, an empty line, and a body of
that length. -/
structure Frame where
  before : List HeaderLine
  lengthLine : HeaderLine
  after : List HeaderLine
  ending : LineEnding
  body : List UInt8
  lengthLine_name : lengthLine.IsContentLength
  lengthLine_value : IsDecimal (trim lengthLine.value.toList) body.length
  before_name : ∀ line ∈ before, ¬ line.IsContentLength
  after_name : ∀ line ∈ after, ¬ line.IsContentLength
  length_body_le : body.length ≤ maxMessageBytes

namespace Frame

variable (frame : Frame)

/-- The header lines. -/
def headers : List (List UInt8) :=
  frame.before.map HeaderLine.bytes ++
    frame.lengthLine.bytes :: frame.after.map HeaderLine.bytes

/-- The lines of the header section, with the empty line at its end. -/
def lines : List (List UInt8) := frame.headers ++ [utf8Bytes frame.ending.text]

/-- The header section. -/
def header : List UInt8 := frame.lines.flatten

/-- The frame on the wire. -/
def bytes : List UInt8 := frame.header ++ frame.body

/-- INTERNAL: every line of the header section ends with its line feed. -/
theorem isLine_of_mem_lines {line : List UInt8} (h : line ∈ frame.lines) : IsLine line := by
  simp only [lines, headers, List.mem_append, List.mem_map, List.mem_cons, List.not_mem_nil,
    or_false] at h
  obtain (⟨line, -, rfl⟩ | rfl | ⟨line, -, rfl⟩) | rfl := h
  · exact line.isLine_bytes
  · exact frame.lengthLine.isLine_bytes
  · exact line.isLine_bytes
  · exact frame.ending.isLine_bytes

/-- INTERNAL: the lines before the length are passed over. -/
theorem passes_before : Passes none (frame.before.map HeaderLine.bytes) none :=
  Passes.others frame.before_name none

/-- INTERNAL: the lines up to some point after the length give the length. -/
theorem passes_upTo {lines : List HeaderLine} (h : ∀ line ∈ lines, ¬ line.IsContentLength) :
    Passes none (frame.before.map HeaderLine.bytes ++
      frame.lengthLine.bytes :: lines.map HeaderLine.bytes) (some frame.body.length) := by
  apply frame.passes_before.append
  apply Passes.cons frame.lengthLine.isLine_bytes
    (readHeaderLine_contentLength frame.lengthLine_name frame.lengthLine_value frame.length_body_le)
  exact Passes.others h _

end Frame

/-! ## The round trip -/

/-- INTERNAL: a body that is there is read whole. -/
theorem readExact_append (body rest : List UInt8) :
    readExact body.length (body ++ rest) = .ok (body, rest) := by
  unfold readExact
  rw [if_neg (by simp), List.take_left, List.drop_left]

/-- INTERNAL: the loop over the header section. -/
theorem readHeaders_header (frame : Frame) (hbudget : frame.header.length ≤ maxHeaderBytes)
    (rest : List UInt8) :
    readHeaders 0 none (frame.header ++ rest) =
      .ok (.headers (some frame.body.length) rest) := by
  have hpasses : Passes none frame.headers (some frame.body.length) :=
    frame.passes_upTo frame.after_name
  have hblank : trim frame.ending.text.toList = [] :=
    trim_eq_nil.mpr frame.ending.isWhitespace_of_mem
  unfold Frame.header Frame.lines at *
  rw [List.flatten_append, List.flatten_singleton] at *
  rw [List.length_append] at hbudget
  rw [List.append_assoc, readHeaders_passes hpasses (Nat.zero_le _), if_pos (by omega),
    readHeaders_line frame.ending.isLine_bytes (by omega), readHeaderLine_blank hblank]

/-- **One frame is read back and nothing else is consumed.** -/
theorem readMessage_frame (frame : Frame) (hbudget : frame.header.length ≤ maxHeaderBytes)
    (rest : List UInt8) :
    readMessage (frame.bytes ++ rest) = .ok (some frame.body, rest) := by
  unfold readMessage Frame.bytes
  rw [List.append_assoc, readHeaders_header frame hbudget]
  simp only [readExact_append]

/-- The end of the stream between frames. -/
theorem readMessage_nil : readMessage [] = .ok (none, []) := by
  unfold readMessage
  rw [readHeaders_nil]
  rfl

/-! ## What the server writes -/

/-- INTERNAL: the numerals of a number. -/
theorem isDecimal_toString (n : ℕ) : IsDecimal (toString n).toList n := by
  have htext : (toString n).toList = Nat.toDigits 10 n := by simp
  rw [htext]
  refine ⟨?_, ?_, Nat.ofDigitChars_ten_toDigits⟩
  · exact List.length_pos_iff.mp Nat.length_toDigits_pos
  · intro c hc
    exact Nat.isDigit_of_mem_toDigits (by omega) (by omega) hc

/-- INTERNAL: numerals are not white space. -/
theorem isWhitespace_of_isDigit {c : Char} (h : c.isDigit = true) : isWhitespace c = false := by
  simp only [Char.isDigit, Bool.and_eq_true, decide_eq_true_eq, ge_iff_le,
    UInt32.le_iff_toNat_le] at h
  have hlow : 48 ≤ c.toNat := h.1
  have hhigh : c.toNat ≤ 57 := h.2
  simp only [isWhitespace, Bool.or_eq_false_iff, Bool.and_eq_false_iff, decide_eq_false_iff_not,
    List.contains_eq_mem, List.mem_cons, List.not_mem_nil, or_false]
  omega

/-- INTERNAL: trimming numerals after a blank. -/
theorem trim_blank_append {digits : List Char} (h : ∀ c ∈ digits, c.isDigit = true) :
    trim (' ' :: digits) = digits := by
  have hstart : trimStart (' ' :: digits) = digits := by
    unfold trimStart
    rw [List.dropWhile_cons_of_pos (by decide)]
    apply List.dropWhile_eq_self_iff.mpr
    intro hpos
    simpa using isWhitespace_of_isDigit (h _ (List.getElem_mem hpos))
  rw [trim, hstart]
  apply List.rdropWhile_eq_self_iff.mpr
  intro hne
  simpa using isWhitespace_of_isDigit (h _ (List.getLast_mem hne))

/-- The `Content-Length` line of `write_message`. -/
def writtenLengthLine (n : ℕ) : HeaderLine where
  name := "Content-Length"
  value := " " ++ toString n
  ending := .crlf
  colon_not_mem_name := by decide
  newline_not_mem_name := by decide
  newline_not_mem_value := by
    have hdigits := (isDecimal_toString n).2.1
    simp only [String.toList_append, List.mem_append, not_or]
    exact ⟨by decide, fun hmem => absurd (hdigits _ hmem) (by decide)⟩

/-- INTERNAL: the line that is written gives the length. -/
theorem isContentLength_writtenLengthLine (n : ℕ) : (writtenLengthLine n).IsContentLength := by
  change eqIgnoreAsciiCase (trimStart "Content-Length".toList) "Content-Length".toList = true
  decide

/-- The `Content-Type` line of `write_message`. -/
def writtenTypeLine : HeaderLine where
  name := "Content-Type"
  value := " application/vscode-jsonrpc; charset=utf-8"
  ending := .crlf
  colon_not_mem_name := by decide
  newline_not_mem_name := by decide
  newline_not_mem_value := by decide

/-- The frame that `write_message` writes. -/
def writtenFrame (message : String) (h : (utf8Bytes message).length ≤ maxMessageBytes) : Frame where
  before := []
  lengthLine := writtenLengthLine (utf8Bytes message).length
  after := [writtenTypeLine]
  ending := .crlf
  body := utf8Bytes message
  lengthLine_name := isContentLength_writtenLengthLine _
  lengthLine_value := by
    have hdecimal := isDecimal_toString (utf8Bytes message).length
    have hvalue : (" " ++ toString (utf8Bytes message).length).toList =
        ' ' :: (toString (utf8Bytes message).length).toList := by
      rw [String.toList_append]
      rfl
    unfold writtenLengthLine
    rw [hvalue, trim_blank_append hdecimal.2.1]
    exact hdecimal
  before_name := by simp
  after_name := by
    intro line hmem
    rw [List.mem_singleton.mp hmem]
    change ¬ eqIgnoreAsciiCase (trimStart "Content-Type".toList) "Content-Length".toList = true
    decide
  length_body_le := h

/-- INTERNAL: the body of a written frame. -/
theorem body_writtenFrame (message : String) (h : (utf8Bytes message).length ≤ maxMessageBytes) :
    (writtenFrame message h).body = utf8Bytes message := rfl

/-- What `write_message` writes is a frame. -/
theorem bytes_writtenFrame (message : String) (h : (utf8Bytes message).length ≤ maxMessageBytes) :
    (writtenFrame message h).bytes = writeMessage message := by
  simp only [writtenFrame, Frame.bytes, Frame.header, Frame.lines, Frame.headers,
    HeaderLine.bytes, writtenLengthLine, writtenTypeLine, List.map_nil, List.nil_append,
    List.map_cons, List.cons_append, List.flatten_cons, List.flatten_nil, List.append_nil]
  unfold writeMessage
  simp only [← utf8Bytes_append]
  apply congrArg utf8Bytes
  have hlength : "Content-Length: " = "Content-Length" ++ ":" ++ " " := by decide
  have htype : "\r\nContent-Type: application/vscode-jsonrpc; charset=utf-8\r\n\r\n" =
      "\r\n" ++ "Content-Type" ++ ":" ++ " application/vscode-jsonrpc; charset=utf-8" ++ "\r\n" ++
        "\r\n" := by
    decide
  rw [hlength, htype]
  simp only [String.append_assoc, LineEnding.text]

/-- INTERNAL: the length of a message has at most eight digits. -/
theorem length_utf8Bytes_toString {n : ℕ} (h : n ≤ maxMessageBytes) :
    (utf8Bytes (toString n)).length ≤ 8 := by
  have hdigits := (isDecimal_toString n).2.1
  have hlength : (Nat.toDigits 10 n).length ≤ 8 := by
    apply (Nat.length_toDigits_le_iff (by omega) (by omega)).mpr
    unfold maxMessageBytes at h
    omega
  have hascii : ∀ c ∈ (toString n).toList, c.toNat < 128 := by
    intro c hc
    have hdigit := hdigits c hc
    simp only [Char.isDigit, Bool.and_eq_true, decide_eq_true_eq, UInt32.le_iff_toNat_le] at hdigit
    have hhigh : c.toNat ≤ 57 := hdigit.2
    omega
  rw [length_utf8Bytes_of_ascii hascii]
  simpa using hlength

/-- Its header section fits the budget. -/
theorem length_header_writtenFrame (message : String)
    (h : (utf8Bytes message).length ≤ maxMessageBytes) :
    (writtenFrame message h).header.length ≤ maxHeaderBytes := by
  have hdigits := length_utf8Bytes_toString h
  simp only [writtenFrame, Frame.header, Frame.lines, Frame.headers, HeaderLine.bytes,
    writtenLengthLine, writtenTypeLine, LineEnding.text, List.map_nil, List.nil_append,
    List.map_cons, List.cons_append, List.flatten_cons, List.flatten_nil, List.append_nil,
    utf8Bytes_append, List.length_append]
  have hlength : (utf8Bytes "Content-Length").length = 14 := by decide
  have htype : (utf8Bytes "Content-Type").length = 12 := by decide
  have hvalue : (utf8Bytes " application/vscode-jsonrpc; charset=utf-8").length = 42 := by decide
  have hpoint : (utf8Bytes ":").length = 1 ∧ (utf8Bytes " ").length = 1 ∧
      (utf8Bytes "\r\n").length = 2 := by decide
  unfold maxHeaderBytes
  omega

/-! ## Sequences of frames -/

/-- The ways to frame a body: as `write_message` does, or with header lines of one's own that
fit the budget. -/
inductive Framed : List UInt8 → List UInt8 → Prop
  | written (message : String) (h : (utf8Bytes message).length ≤ maxMessageBytes) :
    Framed (utf8Bytes message) (writeMessage message)
  | headers (frame : Frame) (hbudget : frame.header.length ≤ maxHeaderBytes) :
    Framed frame.body frame.bytes

/-- A body and a framing of it. -/
structure FramedMessage where
  body : List UInt8
  bytes : List UInt8
  framed : Framed body bytes

/-- The messages one after the other. -/
def wire (messages : List FramedMessage) : List UInt8 := messages.flatMap FramedMessage.bytes

/-- `calls` calls of `read_message` on one reader: what each returns, and the bytes it leaves. -/
def readMessages : ℕ → List UInt8 → Except IoError (List (Option (List UInt8) × List UInt8))
  | 0, _ => .ok []
  | calls + 1, input => do
    let reply ← readMessage input
    let replies ← readMessages calls reply.2
    return reply :: replies

/-- One reply for each message, which leaves the messages after it, and `None` at the end. -/
def expectedReplies : List FramedMessage → List (Option (List UInt8) × List UInt8)
  | [] => [(none, [])]
  | message :: messages => (some message.body, wire messages) :: expectedReplies messages

/-- INTERNAL: a framed message is read back, whichever way it was framed. -/
theorem readMessage_framed (message : FramedMessage) (rest : List UInt8) :
    readMessage (message.bytes ++ rest) = .ok (some message.body, rest) := by
  obtain ⟨body, bytes, hframed⟩ := message
  cases hframed with
  | written message h =>
    have hread := readMessage_frame (writtenFrame message h)
      (length_header_writtenFrame message h) rest
    rw [bytes_writtenFrame, body_writtenFrame] at hread
    dsimp only
    exact hread
  | headers frame hbudget => exact readMessage_frame frame hbudget rest

/-- **Messages are read back in order.** Each call of `read_message` returns the next body and
consumes its frame; the call after the last one returns `None`. -/
theorem readMessages_wire (messages : List FramedMessage) :
    readMessages (messages.length + 1) (wire messages) = .ok (expectedReplies messages) := by
  induction messages with
  | nil =>
    simp only [wire, List.flatMap_nil, readMessages, readMessage_nil, expectedReplies]
    rfl
  | cons message messages ih =>
    have hwire : wire (message :: messages) = message.bytes ++ wire messages := by
      simp [wire]
    rw [List.length_cons, readMessages, hwire, readMessage_framed, expectedReplies]
    simp only [bind, Except.bind, ih]
    rfl

/-! ## Inputs that end within a frame -/

/-- INTERNAL: where a part of some lines and a body ends: within one of the lines, or not
before the body. -/
theorem prefix_flatten_append {α : Type} {lines : List (List α)} {body input : List α}
    (h : input <+: lines.flatten ++ body) :
    (∃ passed line rest cut, lines = passed ++ line :: rest ∧ input = passed.flatten ++ cut ∧
      cut <+: line ∧ cut ≠ line) ∨
    ∃ part, part <+: body ∧ input = lines.flatten ++ part := by
  induction lines generalizing input with
  | nil => exact .inr ⟨input, h, rfl⟩
  | cons line lines ih =>
    rw [List.flatten_cons, List.append_assoc] at h
    by_cases hlength : input.length < line.length
    · have hline : input <+: line :=
        List.prefix_of_prefix_length_le h (List.prefix_append _ _) hlength.le
      refine .inl ⟨[], line, lines, input, rfl, rfl, hline, ?_⟩
      rintro rfl
      exact lt_irrefl _ hlength
    · obtain ⟨input, rfl⟩ : line <+: input :=
        List.prefix_of_prefix_length_le (List.prefix_append _ _) h (by omega)
      rw [List.prefix_append_right_inj] at h
      obtain ⟨passed, line', rest, cut, rfl, rfl, hcut, hne⟩ | ⟨part, hpart, rfl⟩ := ih h
      · exact .inl ⟨line :: passed, line', rest, cut, rfl, by simp, hcut, hne⟩
      · exact .inr ⟨part, hpart, by simp⟩

/-- INTERNAL: a part of a line that is not the whole of it has no line feed. -/
theorem not_mem_of_prefix_line {line cut : List UInt8} (hline : IsLine line) (hcut : cut <+: line)
    (hne : cut ≠ line) : (10 : UInt8) ∉ cut := by
  obtain ⟨content, hcontent, rfl⟩ := hline
  obtain hall | hcut := List.prefix_concat_iff.mp hcut
  · exact absurd hall hne
  · exact fun hmem => hcontent (hcut.subset hmem)

/-- INTERNAL: no body can be read at the end of the input. -/
theorem readExact_nil {length : ℕ} (h : 0 < length) :
    readExact length [] = .error ⟨.unexpectedEof, "failed to fill whole buffer"⟩ := by
  unfold readExact
  exact if_pos h

/-- INTERNAL: the end of the input within a line is taken for the end of a frame only after
white space, and only if no body is to come. -/
theorem readMessage_cut {passed : List (List UInt8)} {contentLength : Option ℕ}
    (hpasses : Passes none passed contentLength) {cut : List UInt8} (hcut : (10 : UInt8) ∉ cut)
    (hne : passed.flatten ++ cut ≠ []) :
    (∃ e, readMessage (passed.flatten ++ cut) = .error e) ∨
      (passed.flatten ++ cut).length ≤ maxHeaderBytes ∧ cut ≠ [] ∧ contentLength = some 0 ∧
        ∃ text, cut = utf8Bytes text ∧ trim text.toList = [] := by
  have hheaders := readHeaders_passes hpasses (Nat.zero_le maxHeaderBytes) cut
  unfold readMessage
  rw [hheaders, Nat.zero_add]
  by_cases hpassed : passed.flatten.length ≤ maxHeaderBytes
  · rw [if_pos hpassed]
    by_cases hnil : cut = []
    · have hpos : passed.flatten.length ≠ 0 := by
        rw [hnil, List.append_nil] at hne
        exact fun hzero => hne (List.length_eq_zero_iff.mp hzero)
      rw [hnil, readHeaders_nil, if_neg hpos]
      exact .inl ⟨_, rfl⟩
    by_cases hbudget : passed.flatten.length + cut.length ≤ maxHeaderBytes
    · rw [readHeaders_open hcut hnil hbudget]
      cases hread : readHeaderLine contentLength cut with
      | error e => exact .inl ⟨_, rfl⟩
      | ok next =>
        cases next with
        | some next => exact .inl ⟨_, rfl⟩
        | none =>
          obtain ⟨text, htext, hblank⟩ := blank_of_readHeaderLine hread
          cases contentLength with
          | none => exact .inl ⟨_, rfl⟩
          | some length =>
            by_cases hlength : length = 0
            · refine .inr ⟨?_, hnil, ?_, text, utf8Text_eq_some.mp htext, hblank⟩
              · simpa using hbudget
              · rw [hlength]
            · simp only [readExact_nil (Nat.pos_of_ne_zero hlength)]
              exact .inl ⟨_, rfl⟩
    · have hlong := readHeaders_exceeding hcut hpassed (by omega) contentLength []
      rw [List.append_nil] at hlong
      rw [hlong]
      exact .inl ⟨_, rfl⟩
  · rw [if_neg hpassed]
    exact .inl ⟨_, rfl⟩

/-- INTERNAL: and then it is. -/
theorem readMessage_cut_blank {passed : List (List UInt8)} (hpasses : Passes none passed (some 0))
    {text : String} (hne : text ≠ "") (hnewline : (10 : UInt8) ∉ utf8Bytes text)
    (hblank : trim text.toList = [])
    (hbudget : (passed.flatten ++ utf8Bytes text).length ≤ maxHeaderBytes) :
    readMessage (passed.flatten ++ utf8Bytes text) = .ok (some [], []) := by
  have hnil : utf8Bytes text ≠ [] := by
    intro hnil
    have hempty : utf8Text [] = some "" := utf8Text_eq_some.mpr rfl
    have htext := utf8Text_utf8Bytes text
    rw [hnil, hempty] at htext
    exact hne (Option.some.inj htext).symm
  rw [List.length_append] at hbudget
  unfold readMessage
  rw [readHeaders_passes hpasses (Nat.zero_le _), if_pos (by omega), Nat.zero_add,
    readHeaders_open hnewline hnil hbudget, readHeaderLine_blank hblank]
  rfl

/-- After the length, the input ends within a line of which only white space has arrived, such
as the carriage return of the empty line. -/
def Frame.StopsBlank (frame : Frame) (input : List UInt8) : Prop :=
  ∃ passed line rest, ∃ text : String,
    frame.after.map HeaderLine.bytes ++ [utf8Bytes frame.ending.text] = passed ++ line :: rest ∧
    input = (frame.before.map HeaderLine.bytes ++ frame.lengthLine.bytes :: passed).flatten ++
      utf8Bytes text ∧
    utf8Bytes text <+: line ∧ utf8Bytes text ≠ line ∧ text ≠ "" ∧ trim text.toList = []

/-- INTERNAL: some of the lines after the length are passed over. -/
theorem Frame.passes_of_after (frame : Frame) {passed rest : List (List UInt8)} {line : List UInt8}
    (h : frame.after.map HeaderLine.bytes ++ [utf8Bytes frame.ending.text] =
      passed ++ line :: rest) :
    Passes none (frame.before.map HeaderLine.bytes ++ frame.lengthLine.bytes :: passed)
      (some frame.body.length) := by
  obtain ⟨more, hmore⟩ : passed <+: frame.after.map HeaderLine.bytes := by
    have hbegins : passed <+: frame.after.map HeaderLine.bytes ++ [utf8Bytes frame.ending.text] :=
      ⟨line :: rest, h.symm⟩
    obtain hall | hbegins := List.prefix_concat_iff.mp hbegins
    · have hlength := congrArg List.length h
      rw [hall] at hlength
      simp at hlength
    · exact hbegins
  obtain ⟨lines, lines', hlines, rfl, -⟩ := List.append_eq_map_iff.mp hmore
  apply frame.passes_upTo
  intro line' hmem
  apply frame.after_name
  rw [hlines]
  exact List.mem_append_left lines' hmem

/-- INTERNAL: the lines up to some line are passed over, and give the length if it was among
them. -/
theorem Frame.passes_of_lines (frame : Frame) {passed rest : List (List UInt8)} {line : List UInt8}
    (h : frame.lines = passed ++ line :: rest) :
    Passes none passed none ∨
      ∃ passed', passed = frame.before.map HeaderLine.bytes ++ frame.lengthLine.bytes :: passed' ∧
        frame.after.map HeaderLine.bytes ++ [utf8Bytes frame.ending.text] =
          passed' ++ line :: rest := by
  have hlines : frame.lines = frame.before.map HeaderLine.bytes ++ frame.lengthLine.bytes ::
      (frame.after.map HeaderLine.bytes ++ [utf8Bytes frame.ending.text]) := by
    simp [Frame.lines, Frame.headers]
  rw [hlines, List.append_eq_append_iff] at h
  obtain ⟨more, rfl, hmore⟩ | ⟨more, hbefore, -⟩ := h
  · cases more with
    | nil =>
      left
      rw [List.append_nil]
      exact frame.passes_before
    | cons first more =>
      rw [List.cons_append] at hmore
      obtain ⟨rfl, hafter⟩ := List.cons.inj hmore
      exact .inr ⟨more, rfl, hafter⟩
  · left
    obtain ⟨lines, lines', hsplit, rfl, -⟩ := List.map_eq_append_iff.mp hbefore
    apply Passes.others
    intro line' hmem
    apply frame.before_name
    rw [hsplit]
    exact List.mem_append_left lines' hmem

/-- The input is not accepted: nothing has arrived, or an error is returned. -/
def Rejected (input : List UInt8) : Prop :=
  if input = [] then readMessage input = .ok (none, []) else ∃ e, readMessage input = .error e

/-- INTERNAL: an input that ends within the body is rejected. -/
theorem readMessage_cut_body (frame : Frame) {part : List UInt8}
    (hpart : part.length < frame.body.length) :
    ∃ e, readMessage (frame.header ++ part) = .error e := by
  unfold readMessage
  by_cases hbudget : frame.header.length ≤ maxHeaderBytes
  · rw [readHeaders_header frame hbudget]
    simp only [readExact, if_pos hpart]
    exact ⟨_, rfl⟩
  · have hpasses : Passes none frame.headers (some frame.body.length) :=
      frame.passes_upTo frame.after_name
    unfold Frame.header Frame.lines at *
    rw [List.flatten_append, List.flatten_singleton] at *
    rw [List.length_append] at hbudget
    rw [List.append_assoc, readHeaders_passes hpasses (Nat.zero_le _)]
    by_cases hheaders : frame.headers.flatten.length ≤ maxHeaderBytes
    · rw [if_pos (by omega), readHeaders_exceeding_line frame.ending.isLine_bytes
        (by omega) (by omega)]
      exact ⟨_, rfl⟩
    · rw [if_neg (by omega)]
      exact ⟨_, rfl⟩

/-- **An input that ends within a frame is rejected, unless the frame has no body and the input
ends after white space that begins a line after the length.** -/
theorem rejected_prefix_iff (frame : Frame) (input : List UInt8) (hbegins : input <+: frame.bytes)
    (hne : input ≠ frame.bytes) :
    Rejected input ↔
      ¬ (frame.body = [] ∧ input.length ≤ maxHeaderBytes ∧ frame.StopsBlank input) := by
  constructor
  · rintro hrejected ⟨hbody, hbudget, passed, line, rest, text, hafter, rfl, hcut, hcut_ne, htext,
      hblank⟩
    have hpasses := frame.passes_of_after hafter
    rw [hbody, List.length_nil] at hpasses
    have hline : IsLine line := by
      apply frame.isLine_of_mem_lines
      have hmem : line ∈ frame.after.map HeaderLine.bytes ++ [utf8Bytes frame.ending.text] := by
        rw [hafter]
        simp
      rw [Frame.lines, Frame.headers, List.append_assoc, List.cons_append]
      exact List.mem_append_right _ (List.mem_cons_of_mem _ hmem)
    have hread := readMessage_cut_blank hpasses htext
      (not_mem_of_prefix_line hline hcut hcut_ne) hblank hbudget
    unfold Rejected at hrejected
    rw [hread] at hrejected
    split at hrejected
    · cases hrejected
    · obtain ⟨e, he⟩ := hrejected
      cases he
  · intro hcond
    unfold Rejected
    split
    · rename_i hnil
      rw [hnil]
      exact readMessage_nil
    rename_i hnil
    obtain ⟨passed, line, rest, cut, hlines, rfl, hcut, hcut_ne⟩ | ⟨part, hpart, rfl⟩ :=
      prefix_flatten_append hbegins
    -- the input ends in a line of the headers
    · have hline : IsLine line := by
        apply frame.isLine_of_mem_lines
        rw [hlines]
        simp
      have hnewline := not_mem_of_prefix_line hline hcut hcut_ne
      obtain hpasses | ⟨passed, rfl, hafter⟩ := frame.passes_of_lines hlines
      · obtain herror | ⟨-, -, hlength, -⟩ := readMessage_cut hpasses hnewline hnil
        · exact herror
        · cases hlength
      · obtain herror | ⟨hbudget, hcut_nil, hlength, text, rfl, hblank⟩ :=
          readMessage_cut (frame.passes_of_after hafter) hnewline hnil
        · exact herror
        · exfalso
          apply hcond
          refine ⟨List.length_eq_zero_iff.mp (Option.some.inj hlength), hbudget, passed, line, rest,
            text, hafter, rfl, hcut, hcut_ne, ?_, hblank⟩
          rintro rfl
          exact hcut_nil rfl
    -- the input ends in the body
    · apply readMessage_cut_body
      apply lt_of_le_of_ne hpart.length_le
      intro hlength
      apply hne
      rw [hpart.eq_of_length hlength]
      rfl

/-- The frame `Content-Length: 0` without other headers. -/
def emptyFrame : Frame where
  before := []
  lengthLine := writtenLengthLine 0
  after := []
  ending := .crlf
  body := []
  lengthLine_name := isContentLength_writtenLengthLine 0
  lengthLine_value := by
    refine ⟨by decide, ?_, by decide⟩
    exact List.all_eq_true.mp (by decide)
  before_name := by simp
  after_name := by simp
  length_body_le := by decide

/-- The empty frame, cut within its empty line or before it. -/
theorem rejected_prefix_emptyFrame :
    (Rejected (utf8Bytes "Content-Length: 0\r\n") ↔
      ¬ (emptyFrame.body = [] ∧ (utf8Bytes "Content-Length: 0\r\n").length ≤ maxHeaderBytes ∧
        emptyFrame.StopsBlank (utf8Bytes "Content-Length: 0\r\n"))) ∧
    (Rejected (utf8Bytes "Content-Length: 0\r\n\r") ↔
      ¬ (emptyFrame.body = [] ∧ (utf8Bytes "Content-Length: 0\r\n\r").length ≤ maxHeaderBytes ∧
        emptyFrame.StopsBlank (utf8Bytes "Content-Length: 0\r\n\r"))) := by
  constructor
  · exact rejected_prefix_iff emptyFrame _ (by decide) (by decide)
  · exact rejected_prefix_iff emptyFrame _ (by decide) (by decide)

/-- The carriage return of the empty line is taken for the empty line. -/
theorem not_rejected_prefix :
    ¬ ∀ (frame : Frame) (input : List UInt8), input <+: frame.bytes → input ≠ frame.bytes →
      Rejected input := by
  intro h
  have hrejected := h emptyFrame (utf8Bytes "Content-Length: 0\r\n\r") (by decide) (by decide)
  have hpasses : Passes none emptyFrame.headers (some 0) :=
    emptyFrame.passes_upTo emptyFrame.after_name
  have hread := readMessage_cut_blank hpasses (show "\r" ≠ "" by decide) (by decide) (by decide)
    (by decide)
  have hinput : emptyFrame.headers.flatten ++ utf8Bytes "\r" =
      utf8Bytes "Content-Length: 0\r\n\r" := by decide
  rw [hinput] at hread
  unfold Rejected at hrejected
  rw [if_neg (by decide), hread] at hrejected
  obtain ⟨e, he⟩ := hrejected
  cases he

end REnvTools.Analysis
