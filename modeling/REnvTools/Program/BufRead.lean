import REnvTools.Program.Framing

/-!
# Messages from a buffered reader

`read_message` over any `BufRead`. The reader shows some of the bytes to come (`fill_buf`) and
is told how many of them are used (`consume`); how many it shows at a time, and whether the
stream ever ends, is up to the reader. The header loop is taken apart into its rounds, and
beside it stands the same loop without `Read::take` (`ReadHeadersUnlimited`), which need not
end.

SRC: crates/ret-jsonrpc/src/server.rs:12-13, 121-173
-/

set_option autoImplicit false

namespace REnvTools.Program

/-- `BufRead`: what `fill_buf` returns, and `consume`. -/
structure BufRead (σ : Type) where
  fillBuf : σ → List UInt8 × σ
  consume : ℕ → σ → σ

/-- Where the header loop begins a round. -/
@[ext] structure HeaderHead (σ : Type) where
  headerBytes : ℕ
  contentLength : Option ℕ
  reader : σ

/-- How the header loop ends without an error: before the first byte, or after the empty
line. -/
inductive HeadersRead (σ : Type)
  | closed (reader : σ)
  | headers (contentLength : Option ℕ) (reader : σ)

/-- What a round of the header loop comes to. -/
inductive HeaderRound (σ : Type)
  | next (head : HeaderHead σ)
  | ended (result : Except IoError (HeadersRead σ))

/-- The round once its line is read; `checked` says whether it compares `header_bytes` with
`MAX_HEADER_BYTES`. -/
def afterLine {σ : Type} (checked : Bool) (head : HeaderHead σ) (line : List UInt8) (reader : σ) :
    HeaderRound σ :=
  if line.length = 0 then
    if head.headerBytes = 0 then .ended (.ok (.closed reader))
    else .ended (.error ⟨.unexpectedEof, "Incomplete header"⟩)
  else if checked ∧ maxHeaderBytes < head.headerBytes + line.length then
    .ended (.error (invalidFrame "Header exceeds size limit"))
  else
    match readHeaderLine head.contentLength line with
    | .error e => .ended (.error e)
    | .ok none => .ended (.ok (.headers head.contentLength reader))
    | .ok (some contentLength) =>
      .next ⟨head.headerBytes + line.length, contentLength, reader⟩

namespace BufRead

variable {σ : Type} (r : BufRead σ)

/-! ## The standard library -/

/-- `read_until(b'\n')` on a reader limited by `Read::take`. -/
def takeReadUntil (limit : ℕ) (reader : σ) : List UInt8 × σ :=
  if _h : limit = 0 then ([], reader)
  else
    let filled := r.fillBuf reader
    let available := filled.1.take limit
    if 10 ∈ available then
      let used := available.idxOf 10 + 1
      (available.take used, r.consume used filled.2)
    else
      let reader := r.consume available.length filled.2
      if _hused : available.length = 0 then ([], reader)
      else
        let rest := takeReadUntil (limit - available.length) reader
        (available ++ rest.1, rest.2)
termination_by limit
decreasing_by
  have hpos : 0 < available.length := Nat.pos_of_ne_zero _hused
  change limit - available.length < limit
  omega

/-- `read_until(b'\n')` without a limit: it returns a line, if it returns. -/
inductive ReadUntil : σ → List UInt8 → σ → Prop
  | found {reader : σ} (h : 10 ∈ (r.fillBuf reader).1) :
      ReadUntil reader ((r.fillBuf reader).1.take ((r.fillBuf reader).1.idxOf 10 + 1))
        (r.consume ((r.fillBuf reader).1.idxOf 10 + 1) (r.fillBuf reader).2)
  | ended {reader : σ} (h : (r.fillBuf reader).1 = []) :
      ReadUntil reader [] (r.consume 0 (r.fillBuf reader).2)
  | more {reader reader' : σ} {line : List UInt8} (h : 10 ∉ (r.fillBuf reader).1)
      (hused : (r.fillBuf reader).1 ≠ [])
      (hrest : ReadUntil (r.consume (r.fillBuf reader).1.length (r.fillBuf reader).2) line
        reader') :
      ReadUntil reader ((r.fillBuf reader).1 ++ line) reader'

/-- `read_exact` into a buffer of `length` bytes. -/
def readExact (length : ℕ) (reader : σ) : Except IoError (List UInt8 × σ) :=
  if _h : length = 0 then .ok ([], reader)
  else
    let filled := r.fillBuf reader
    let available := filled.1.take length
    let reader := r.consume available.length filled.2
    if _hused : available.length = 0 then
      .error ⟨.unexpectedEof, "failed to fill whole buffer"⟩
    else
      match readExact (length - available.length) reader with
      | .error e => .error e
      | .ok (rest, reader) => .ok (available ++ rest, reader)
termination_by length
decreasing_by
  have hpos : 0 < available.length := Nat.pos_of_ne_zero _hused
  change length - available.length < length
  omega

/-! ## The header loop -/

/-- The bytes a round may read: `MAX_HEADER_BYTES - header_bytes + 1`. -/
def lineLimit (head : HeaderHead σ) : ℕ := maxHeaderBytes - head.headerBytes + 1

/-- One round of the header loop of `read_message`. -/
def headerRound (head : HeaderHead σ) : HeaderRound σ :=
  let line := r.takeReadUntil (lineLimit head) head.reader
  afterLine true head line.1 line.2

/-- INTERNAL: the next round begins with more header bytes, within the budget. -/
theorem headerBytes_of_next {checked : Bool} {head head' : HeaderHead σ} {line : List UInt8}
    {reader : σ} (h : afterLine checked head line reader = .next head') :
    head'.headerBytes = head.headerBytes + line.length ∧ 0 < line.length ∧
      (checked = true → head'.headerBytes ≤ maxHeaderBytes) := by
  unfold afterLine at h
  split at h
  · split at h <;> cases h
  · rename_i hread
    split at h
    · cases h
    · rename_i hbudget
      split at h <;> cases h
      refine ⟨rfl, Nat.pos_of_ne_zero hread, fun hchecked => ?_⟩
      exact Nat.le_of_not_lt fun hlt => hbudget ⟨hchecked, hlt⟩

/-- The header loop of `read_message`. -/
def readHeaders (head : HeaderHead σ) : Except IoError (HeadersRead σ) :=
  match _h : r.headerRound head with
  | .ended result => result
  | .next head' => readHeaders head'
termination_by maxHeaderBytes - head.headerBytes
decreasing_by
  obtain ⟨hbytes, hpos, hbudget⟩ := headerBytes_of_next _h
  have hle := hbudget rfl
  omega

/-- The header loop without `Read::take`, with all that it reads as header lines. -/
inductive ReadHeadersUnlimited (checked : Bool) :
    HeaderHead σ → Except IoError (HeadersRead σ) → ℕ → Prop
  | ended {head : HeaderHead σ} {line : List UInt8} {reader : σ}
      {result : Except IoError (HeadersRead σ)} (hline : r.ReadUntil head.reader line reader)
      (h : afterLine checked head line reader = .ended result) :
      ReadHeadersUnlimited checked head result (head.headerBytes + line.length)
  | next {head head' : HeaderHead σ} {line : List UInt8} {reader : σ}
      {result : Except IoError (HeadersRead σ)} {consumed : ℕ}
      (hline : r.ReadUntil head.reader line reader)
      (h : afterLine checked head line reader = .next head')
      (hrest : ReadHeadersUnlimited checked head' result consumed) :
      ReadHeadersUnlimited checked head result consumed

/-! ## Messages -/

/-- `read_message` from the header loop on. -/
def readBody : Except IoError (HeadersRead σ) → Except IoError (Option (List UInt8) × σ)
  | .error e => .error e
  | .ok (.closed reader) => .ok (none, reader)
  | .ok (.headers none _) => .error (invalidFrame "Missing Content-Length")
  | .ok (.headers (some length) reader) =>
    match r.readExact length reader with
    | .error e => .error e
    | .ok (body, reader) => .ok (some body, reader)

/-- The first round begins with nothing read. -/
def firstHead (reader : σ) : HeaderHead σ := ⟨0, none, reader⟩

/-- `read_message`. -/
def readMessage (reader : σ) : Except IoError (Option (List UInt8) × σ) :=
  r.readBody (r.readHeaders (firstHead reader))

/-- `read_message` without `Read::take`, with the bytes of its header lines. -/
def ReadMessageUnlimited (checked : Bool) (reader : σ)
    (result : Except IoError (Option (List UInt8) × σ)) (consumed : ℕ) : Prop :=
  ∃ headers, r.ReadHeadersUnlimited checked (firstHead reader) headers consumed ∧
    result = r.readBody headers

end BufRead

end REnvTools.Program
