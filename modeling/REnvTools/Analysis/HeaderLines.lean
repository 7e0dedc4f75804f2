import REnvTools.Program.Framing

/-!
# Header lines

What one round of the header loop makes of a line: a complete header line is passed over or
gives the length, an empty line ends the loop, and the input may end within a line.
`readHeaders_passes` is the run of the loop over complete lines, with the budget of header
bytes; `readHeaders_open` is the round in which the input ends.
-/

set_option autoImplicit false

namespace REnvTools.Analysis

open REnvTools.Lib REnvTools.Program

/-! ## Numbers -/

/-- The decimal numerals of `n`. -/
def IsDecimal (digits : List Char) (n : ℕ) : Prop :=
  digits ≠ [] ∧ (∀ c ∈ digits, c.isDigit = true) ∧ Nat.ofDigitChars 10 digits 0 = n

/-- INTERNAL: the value read so far only grows. -/
theorem le_ofDigitChars (digits : List Char) (value : ℕ) :
    value ≤ Nat.ofDigitChars 10 digits value := by
  induction digits generalizing value with
  | nil => simp
  | cons c digits ih =>
    rw [Nat.ofDigitChars_cons]
    have hrest := ih (10 * value + (c.toNat - '0'.toNat))
    omega

/-- INTERNAL: the digits of a value that fits are read as the value. -/
theorem parseDigits_eq {digits : List Char} (hdigits : ∀ c ∈ digits, c.isDigit = true) (value : ℕ)
    (hfits : Nat.ofDigitChars 10 digits value < 2 ^ 64) :
    parseDigits value digits = some (Nat.ofDigitChars 10 digits value) := by
  induction digits generalizing value with
  | nil => simp [parseDigits]
  | cons c digits ih =>
    rw [Nat.ofDigitChars_cons, Nat.mul_comm] at hfits ⊢
    have hle := le_ofDigitChars digits (value * 10 + (c.toNat - '0'.toNat))
    unfold parseDigits
    rw [if_pos (hdigits c List.mem_cons_self)]
    dsimp only
    rw [if_pos (by omega)]
    exact ih (fun c' hc' => hdigits c' (List.mem_cons_of_mem c hc')) _ hfits

/-- Decimal numerals are read as their value. -/
theorem parseUsize_eq {digits : List Char} {n : ℕ} (h : IsDecimal digits n) (hfits : n < 2 ^ 64) :
    parseUsize digits = some n := by
  obtain ⟨hne, hdigits, rfl⟩ := h
  obtain ⟨c, rest, rfl⟩ := List.exists_cons_of_ne_nil hne
  have hplus : c ≠ '+' := by
    rintro rfl
    exact absurd (hdigits '+' List.mem_cons_self) (by decide)
  unfold parseUsize
  split
  · rename_i heq
    cases heq
  · rename_i heq
    exact absurd (List.cons.inj heq).1 hplus
  · rename_i heq
    exact absurd (List.cons.inj heq).1 hplus
  · exact parseDigits_eq hdigits 0 hfits

/-! ## Lines of bytes -/

/-- A line with its line feed. -/
def IsLine (line : List UInt8) : Prop := ∃ content, (10 : UInt8) ∉ content ∧ line = content ++ [10]

/-- INTERNAL: a line that fits the limit is read whole. -/
theorem takeLine_append {content : List UInt8} (hcontent : (10 : UInt8) ∉ content) (limit : ℕ)
    (hlimit : content.length + 1 ≤ limit) (rest : List UInt8) :
    takeLine limit (content ++ [10] ++ rest) = (content ++ [10], rest) := by
  induction content generalizing limit with
  | nil =>
    obtain ⟨limit, rfl⟩ : ∃ k, limit = k + 1 := ⟨limit - 1, by simp at hlimit; omega⟩
    simp [takeLine]
  | cons byte content ih =>
    obtain ⟨limit, rfl⟩ : ∃ k, limit = k + 1 := ⟨limit - 1, by simp at hlimit; omega⟩
    simp only [List.mem_cons, not_or] at hcontent
    rw [List.length_cons] at hlimit
    have hrest := ih hcontent.2 limit (by omega)
    rw [List.cons_append, List.cons_append, takeLine, if_neg (Ne.symm hcontent.1), hrest]

/-- INTERNAL: a line that does not fit is cut at the limit. -/
theorem takeLine_cut {content : List UInt8} (hcontent : (10 : UInt8) ∉ content) (limit : ℕ)
    (hlimit : limit ≤ content.length) (rest : List UInt8) :
    (takeLine limit (content ++ rest)).1.length = limit := by
  induction content generalizing limit with
  | nil =>
    obtain rfl : limit = 0 := by simpa using hlimit
    simp [takeLine]
  | cons byte content ih =>
    cases limit with
    | zero => simp [takeLine]
    | succ limit =>
      simp only [List.mem_cons, not_or] at hcontent
      rw [List.length_cons] at hlimit
      have hrest := ih hcontent.2 limit (by omega)
      rw [List.cons_append, takeLine, if_neg (Ne.symm hcontent.1), List.length_cons, hrest]

/-- INTERNAL: the end of the input ends the line. -/
theorem takeLine_open {content : List UInt8} (hcontent : (10 : UInt8) ∉ content) (limit : ℕ)
    (hlimit : content.length ≤ limit) : takeLine limit content = (content, []) := by
  induction content generalizing limit with
  | nil => cases limit <;> simp [takeLine]
  | cons byte content ih =>
    simp only [List.mem_cons, not_or] at hcontent
    rw [List.length_cons] at hlimit
    obtain ⟨limit, rfl⟩ : ∃ k, limit = k + 1 := ⟨limit - 1, by omega⟩
    rw [takeLine, if_neg (Ne.symm hcontent.1), ih hcontent.2 limit (by omega)]

/-- INTERNAL: a line feed is a character of its own. -/
theorem newline_not_mem_utf8Bytes {text : String} (h : '\n' ∉ text.toList) :
    (10 : UInt8) ∉ utf8Bytes text := by
  intro hmem
  obtain ⟨c, hc, hbyte⟩ := List.mem_flatMap.mp hmem
  have hcode : c.toNat = '\n'.toNat := ascii_of_mem_encode hbyte (by decide)
  exact h (Char.toNat_inj.mp hcode ▸ hc)

/-! ## Header lines -/

/-- How a line ends. -/
inductive LineEnding
  | lf
  | crlf

/-- The text of a line ending. -/
def LineEnding.text : LineEnding → String
  | lf => "\n"
  | crlf => "\r\n"

/-- A line `name: value`; the blank after the colon belongs to the value. -/
structure HeaderLine where
  name : String
  value : String
  ending : LineEnding
  colon_not_mem_name : ':' ∉ name.toList
  newline_not_mem_name : '\n' ∉ name.toList
  newline_not_mem_value : '\n' ∉ value.toList

namespace HeaderLine

/-- The bytes of the line. -/
def bytes (line : HeaderLine) : List UInt8 :=
  utf8Bytes (line.name ++ ":" ++ line.value ++ line.ending.text)

/-- The name is `Content-Length`, in any letter case; white space before it does not count. -/
def IsContentLength (line : HeaderLine) : Prop :=
  eqIgnoreAsciiCase (trimStart line.name.toList) "Content-Length".toList = true

end HeaderLine

/-- INTERNAL: a line ending is the line feed after an optional carriage return. -/
theorem LineEnding.exists_toList (ending : LineEnding) :
    ∃ pad, ending.text.toList = pad ++ ['\n'] ∧ '\n' ∉ pad ∧ ∀ c ∈ pad, isWhitespace c = true := by
  cases ending with
  | lf => exact ⟨[], rfl, List.not_mem_nil, List.forall_mem_nil _⟩
  | crlf => exact ⟨['\r'], rfl, by decide, List.forall_mem_singleton.mpr rfl⟩

/-- INTERNAL: a line ending is white space. -/
theorem LineEnding.isWhitespace_of_mem (ending : LineEnding) :
    ∀ c ∈ ending.text.toList, isWhitespace c = true := by
  cases ending <;> exact List.all_eq_true.mp rfl

/-- INTERNAL: text without a line feed, and a line ending. -/
theorem isLine_utf8Bytes_append (text : String) (h : '\n' ∉ text.toList) (ending : LineEnding) :
    IsLine (utf8Bytes (text ++ ending.text)) := by
  obtain ⟨pad, hpad, hnewline, -⟩ := ending.exists_toList
  refine ⟨utf8Bytes (text ++ String.ofList pad), ?_, ?_⟩
  · apply newline_not_mem_utf8Bytes
    simp [h, hnewline]
  · have hending : ending.text = String.ofList pad ++ "\n" := by
      rw [← String.toList_inj, hpad]
      simp
    rw [hending, ← String.append_assoc, utf8Bytes_append]
    rfl

/-- INTERNAL: a header line is a line. -/
theorem HeaderLine.isLine_bytes (line : HeaderLine) : IsLine line.bytes := by
  apply isLine_utf8Bytes_append
  simp [line.newline_not_mem_name, line.newline_not_mem_value]

/-- INTERNAL: an empty line is a line. -/
theorem LineEnding.isLine_bytes (ending : LineEnding) : IsLine (utf8Bytes ending.text) := by
  simpa using isLine_utf8Bytes_append "" (by simp) ending

/-- INTERNAL: a trimmed header line is its name, the colon and its value. -/
theorem HeaderLine.trim_text (line : HeaderLine) :
    trim (line.name ++ ":" ++ line.value ++ line.ending.text).toList =
      trimStart line.name.toList ++ ':' :: trimEnd line.value.toList := by
  have htext : (line.name ++ ":" ++ line.value ++ line.ending.text).toList =
      line.name.toList ++ ':' :: (line.value.toList ++ line.ending.text.toList) := by
    simp
  have hcolon : isWhitespace ':' = false := by decide
  rw [htext, trim, trimStart, dropWhile_append_cons _ _ hcolon, trimEnd,
    rdropWhile_append_cons _ _ hcolon, ← trimEnd, ← trimStart,
    trimEnd_append line.ending.isWhitespace_of_mem]

/-- INTERNAL: the parts of a header line. -/
theorem HeaderLine.splitOnce_trim (line : HeaderLine) :
    splitOnce ':' (trim (line.name ++ ":" ++ line.value ++ line.ending.text).toList) =
      some (trimStart line.name.toList, trimEnd line.value.toList) := by
  rw [line.trim_text]
  apply splitOnce_append
  exact fun hmem => line.colon_not_mem_name ((List.dropWhile_sublist _).subset hmem)

/-- A header with another name changes nothing. -/
theorem readHeaderLine_other {line : HeaderLine} (h : ¬ line.IsContentLength)
    (contentLength : Option ℕ) :
    readHeaderLine contentLength line.bytes = .ok (some contentLength) := by
  unfold HeaderLine.IsContentLength at h
  unfold readHeaderLine HeaderLine.bytes
  simp only [utf8Text_utf8Bytes, line.splitOnce_trim]
  rw [if_neg (by rw [line.trim_text]; simp), if_neg h]

/-- The first `Content-Length` gives the length. -/
theorem readHeaderLine_contentLength {line : HeaderLine} (h : line.IsContentLength) {length : ℕ}
    (hvalue : IsDecimal (trim line.value.toList) length) (hlength : length ≤ maxMessageBytes) :
    readHeaderLine none line.bytes = .ok (some (some length)) := by
  have hfits : length < 2 ^ 64 := by
    unfold maxMessageBytes at hlength
    omega
  have hparse := parseUsize_eq hvalue hfits
  unfold HeaderLine.IsContentLength at h
  unfold readHeaderLine HeaderLine.bytes
  simp only [utf8Text_utf8Bytes, line.splitOnce_trim]
  rw [if_neg (by rw [line.trim_text]; simp), if_pos h, trim_trimEnd, hparse]
  simp [Nat.not_lt.mpr hlength]

/-- A line of white space ends the headers. -/
theorem readHeaderLine_blank {text : String} (h : trim text.toList = [])
    (contentLength : Option ℕ) :
    readHeaderLine contentLength (utf8Bytes text) = .ok none := by
  simp [readHeaderLine, h]

/-- Only a line of white space ends the headers. -/
theorem blank_of_readHeaderLine {contentLength : Option ℕ} {line : List UInt8}
    (h : readHeaderLine contentLength line = .ok none) :
    ∃ text, utf8Text line = some text ∧ trim text.toList = [] := by
  unfold readHeaderLine at h
  cases htext : utf8Text line with
  | none => simp [htext] at h
  | some text =>
    refine ⟨text, rfl, ?_⟩
    by_contra hne
    simp only [htext, if_neg hne] at h
    split at h
    · cases h
    · split at h
      · split at h
        · cases h
        · split at h
          · cases h
          · split at h <;> cases h
      · cases h

/-! ## The loop -/

/-- The lines are passed over, and take `content_length` from the first value to the second. -/
inductive Passes : Option ℕ → List (List UInt8) → Option ℕ → Prop
  | nil (contentLength : Option ℕ) : Passes contentLength [] contentLength
  | cons {contentLength next last : Option ℕ} {line : List UInt8} {lines : List (List UInt8)}
      (hline : IsLine line) (hread : readHeaderLine contentLength line = .ok (some next))
      (hrest : Passes next lines last) : Passes contentLength (line :: lines) last

/-- INTERNAL: passing over lines one group after the other. -/
theorem Passes.append {first middle last : Option ℕ} {lines lines' : List (List UInt8)}
    (h : Passes first lines middle) (h' : Passes middle lines' last) :
    Passes first (lines ++ lines') last := by
  induction h with
  | nil => exact h'
  | cons hline hread _ ih => exact .cons hline hread (ih h')

/-- Headers with other names are passed over. -/
theorem Passes.others {lines : List HeaderLine} (h : ∀ line ∈ lines, ¬ line.IsContentLength)
    (contentLength : Option ℕ) :
    Passes contentLength (lines.map HeaderLine.bytes) contentLength := by
  induction lines with
  | nil => exact .nil contentLength
  | cons line lines ih =>
    apply Passes.cons line.isLine_bytes (readHeaderLine_other (h line List.mem_cons_self) _)
    exact ih fun line' hmem => h line' (List.mem_cons_of_mem line hmem)

/-- INTERNAL: a round with a line that fits the budget. -/
theorem readHeaders_line {line : List UInt8} (hline : IsLine line) {headerBytes : ℕ}
    (hbudget : headerBytes + line.length ≤ maxHeaderBytes) (contentLength : Option ℕ)
    (rest : List UInt8) :
    readHeaders headerBytes contentLength (line ++ rest) =
      match readHeaderLine contentLength line with
      | .error e => .error e
      | .ok none => .ok (.headers contentLength rest)
      | .ok (some next) => readHeaders (headerBytes + line.length) next rest := by
  obtain ⟨content, hcontent, rfl⟩ := hline
  have hlength : (content ++ [(10 : UInt8)]).length = content.length + 1 := by simp
  rw [hlength] at hbudget ⊢
  have htake := takeLine_append hcontent (maxHeaderBytes - headerBytes + 1) (by omega) rest
  rw [readHeaders]
  simp only [htake, hlength]
  rewrite [if_neg (by omega), if_neg (by omega)]
  cases readHeaderLine contentLength (content ++ [10]) with
  | error e => rfl
  | ok next => cases next <;> rfl

/-- INTERNAL: a round with a line that exceeds the budget. -/
theorem readHeaders_exceeding {content : List UInt8} (hcontent : (10 : UInt8) ∉ content)
    {headerBytes : ℕ} (hbytes : headerBytes ≤ maxHeaderBytes)
    (hbudget : maxHeaderBytes < headerBytes + content.length) (contentLength : Option ℕ)
    (rest : List UInt8) :
    readHeaders headerBytes contentLength (content ++ rest) =
      .error (invalidFrame "Header exceeds size limit") := by
  have htake := takeLine_cut hcontent (maxHeaderBytes - headerBytes + 1) (by omega) rest
  rw [readHeaders]
  simp only [htake]
  rw [if_neg (by omega), if_pos (by omega)]

/-- INTERNAL: the same for a line with its line feed, which may be the byte that is too much. -/
theorem readHeaders_exceeding_line {line : List UInt8} (hline : IsLine line) {headerBytes : ℕ}
    (hbytes : headerBytes ≤ maxHeaderBytes) (hbudget : maxHeaderBytes < headerBytes + line.length)
    (contentLength : Option ℕ) (rest : List UInt8) :
    readHeaders headerBytes contentLength (line ++ rest) =
      .error (invalidFrame "Header exceeds size limit") := by
  obtain ⟨content, hcontent, rfl⟩ := hline
  have hlength : (content ++ [(10 : UInt8)]).length = content.length + 1 := by simp
  rw [hlength] at hbudget
  by_cases hcut : maxHeaderBytes < headerBytes + content.length
  · rw [List.append_assoc]
    exact readHeaders_exceeding hcontent hbytes hcut _ _
  · have htake := takeLine_append hcontent (maxHeaderBytes - headerBytes + 1) (by omega) rest
    rw [readHeaders]
    simp only [htake, hlength]
    rw [if_neg (by omega), if_pos (by omega)]

/-- **The loop over complete header lines.** They are passed over if they fit the budget;
else the loop ends with an error. -/
theorem readHeaders_passes {contentLength last : Option ℕ} {lines : List (List UInt8)}
    (h : Passes contentLength lines last) {headerBytes : ℕ} (hbytes : headerBytes ≤ maxHeaderBytes)
    (rest : List UInt8) :
    readHeaders headerBytes contentLength (lines.flatten ++ rest) =
      if headerBytes + lines.flatten.length ≤ maxHeaderBytes then
        readHeaders (headerBytes + lines.flatten.length) last rest
      else .error (invalidFrame "Header exceeds size limit") := by
  induction h generalizing headerBytes with
  | nil => simp [hbytes]
  | @cons contentLength next last line lines hline hread _ ih =>
    rw [List.flatten_cons, List.append_assoc, List.length_append, ← Nat.add_assoc]
    by_cases hbudget : headerBytes + line.length ≤ maxHeaderBytes
    · rw [readHeaders_line hline hbudget, hread]
      exact ih hbudget
    · rw [readHeaders_exceeding_line hline hbytes (by omega), if_neg (by omega)]

/-- INTERNAL: the end of the input where a line would begin. -/
theorem readHeaders_nil (headerBytes : ℕ) (contentLength : Option ℕ) :
    readHeaders headerBytes contentLength [] =
      if headerBytes = 0 then .ok .closed else .error ⟨.unexpectedEof, "Incomplete header"⟩ := by
  rw [readHeaders]
  simp [takeLine]

/-- INTERNAL: the end of the input within a line. -/
theorem readHeaders_open {content : List UInt8} (hcontent : (10 : UInt8) ∉ content)
    (hne : content ≠ []) {headerBytes : ℕ} (hbudget : headerBytes + content.length ≤ maxHeaderBytes)
    (contentLength : Option ℕ) :
    readHeaders headerBytes contentLength content =
      match readHeaderLine contentLength content with
      | .error e => .error e
      | .ok none => .ok (.headers contentLength [])
      | .ok (some _) => .error ⟨.unexpectedEof, "Incomplete header"⟩ := by
  have hpos : 0 < content.length := List.length_pos_iff.mpr hne
  have htake := takeLine_open hcontent (maxHeaderBytes - headerBytes + 1) (by omega)
  rw [readHeaders]
  simp only [htake]
  rewrite [if_neg (by omega), if_neg (by omega)]
  cases readHeaderLine contentLength content with
  | error e => rfl
  | ok next =>
    cases next with
    | none => rfl
    | some next =>
      dsimp only
      rw [readHeaders_nil, if_neg (by omega)]

end REnvTools.Analysis
