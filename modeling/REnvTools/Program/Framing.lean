import REnvTools.Lib.Utf8
import REnvTools.Program.Text

/-!
# Message frames

How a message is written to and read from the byte stream between the server and its
client. The reader is the bytes that are still to come: how a `BufRead` cuts them into
chunks does not show in what `read_until` and `read_exact` return.

SRC: crates/ret-jsonrpc/src/lib.rs:12-22, server.rs:16-18, 119-173
-/

set_option autoImplicit false

namespace REnvTools.Program

open REnvTools.Lib

/-! ## The standard library -/

/-- `std::io::ErrorKind`, as far as frames use it. -/
inductive ErrorKind
  | invalidData
  | unexpectedEof
  deriving DecidableEq, Repr

/-- `std::io::Error`. -/
structure IoError where
  kind : ErrorKind
  message : String
  deriving DecidableEq, Repr

/-- `read_until(b'\n')` on a reader limited by `Read::take`: the bytes read and the bytes
left. -/
def takeLine : ℕ → List UInt8 → List UInt8 × List UInt8
  | 0, input => ([], input)
  | _ + 1, [] => ([], [])
  | limit + 1, byte :: input =>
    if byte = 10 then ([byte], input)
    else (byte :: (takeLine limit input).1, (takeLine limit input).2)

/-- `read_exact` into a buffer of `length` bytes. -/
def readExact (length : ℕ) (input : List UInt8) : Except IoError (List UInt8 × List UInt8) :=
  if input.length < length then .error ⟨.unexpectedEof, "failed to fill whole buffer"⟩
  else .ok (input.take length, input.drop length)

/-! ## Writing -/

/-- `write_message`. -/
def writeMessage (message : String) : List UInt8 :=
  utf8Bytes (
    "Content-Length: " ++ toString (utf8Bytes message).length ++
    "\r\nContent-Type: application/vscode-jsonrpc; charset=utf-8\r\n\r\n" ++ message)

/-! ## Reading -/

/-- `MAX_HEADER_BYTES`. -/
def maxHeaderBytes : ℕ := 16 * 1024

/-- `MAX_MESSAGE_BYTES`. -/
def maxMessageBytes : ℕ := 16 * 1024 * 1024

/-- `invalid_frame`. -/
def invalidFrame (message : String) : IoError := ⟨.invalidData, message⟩

/-- The header loop of `read_message` from the point where a line was read: `none` for the
empty line that ends it, else `content_length` for the next round. -/
def readHeaderLine (contentLength : Option ℕ) (line : List UInt8) :
    Except IoError (Option (Option ℕ)) :=
  match utf8Text line with
  | none => .error (invalidFrame "Header is not UTF-8")
  | some text =>
    let line := trim text.toList
    if line = [] then .ok none
    else
      match splitOnce ':' line with
      | none => .error (invalidFrame "Malformed header")
      | some (name, value) =>
        if eqIgnoreAsciiCase name "Content-Length".toList then
          if contentLength.isSome then .error (invalidFrame "Duplicate Content-Length")
          else
            match parseUsize (trim value) with
            | none => .error (invalidFrame "Invalid Content-Length")
            | some length =>
              if maxMessageBytes < length then .error (invalidFrame "Message exceeds size limit")
              else .ok (some (some length))
        else .ok (some contentLength)

/-- How the header loop ends without an error. -/
inductive HeaderEnd
  /-- the stream ended before the first byte -/
  | closed
  /-- the empty line, with `content_length` and the bytes after it -/
  | headers (contentLength : Option ℕ) (input : List UInt8)

/-- INTERNAL: what a line leaves is shorter. -/
theorem length_takeLine_snd (limit : ℕ) (input : List UInt8) :
    (takeLine limit input).1.length + (takeLine limit input).2.length = input.length := by
  induction input generalizing limit with
  | nil => cases limit <;> simp [takeLine]
  | cons byte input ih =>
    cases limit with
    | zero => simp [takeLine]
    | succ limit =>
      unfold takeLine
      split
      · simp [Nat.add_comm]
      · simp only [List.length_cons, ← ih limit]
        omega

/-- The header loop of `read_message`. -/
def readHeaders (headerBytes : ℕ) (contentLength : Option ℕ) (input : List UInt8) :
    Except IoError HeaderEnd :=
  let line := takeLine (maxHeaderBytes - headerBytes + 1) input
  if line.1.length = 0 then
    if headerBytes = 0 then .ok .closed
    else .error ⟨.unexpectedEof, "Incomplete header"⟩
  else if maxHeaderBytes < headerBytes + line.1.length then
    .error (invalidFrame "Header exceeds size limit")
  else
    match readHeaderLine contentLength line.1 with
    | .error e => .error e
    | .ok none => .ok (.headers contentLength line.2)
    | .ok (some contentLength) => readHeaders (headerBytes + line.1.length) contentLength line.2
termination_by input.length
decreasing_by
  have hlength : line.1.length + line.2.length = input.length := length_takeLine_snd _ _
  change line.2.length < input.length
  omega

/-- `read_message`: the message, if the stream did not end before it, and the bytes left. -/
def readMessage (input : List UInt8) : Except IoError (Option (List UInt8) × List UInt8) :=
  match readHeaders 0 none input with
  | .error e => .error e
  | .ok .closed => .ok (none, [])
  | .ok (.headers none _) => .error (invalidFrame "Missing Content-Length")
  | .ok (.headers (some length) input) =>
    match readExact length input with
    | .error e => .error e
    | .ok (body, input) => .ok (some body, input)

end REnvTools.Program
