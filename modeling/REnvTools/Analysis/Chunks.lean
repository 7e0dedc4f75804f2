import REnvTools.Analysis.HeaderBudget

/-!
# However a reader cuts the stream

A reader that still has a given text to show may show it in pieces of any size. What
`read_until` and `read_exact` return does not depend on the pieces (`takeReadUntil_delivers`,
`readExact_delivers`), and so neither does the message that `read_message` returns
(`readMessage_delivers`): it is the one that is read from the text as a whole.
-/

set_option autoImplicit false

namespace REnvTools.Analysis

open Program
open BufRead (lineLimit firstHead)

/-! ## Readers of a text -/

/-- In every state the reader still has `pending` of the state to show. -/
structure Delivers {σ : Type} (r : BufRead σ) (pending : σ → List UInt8) : Prop where
  shown : ∀ reader, (r.fillBuf reader).1 <+: pending reader
  ended : ∀ reader, (r.fillBuf reader).1 = [] → pending reader = []
  consumed : ∀ reader used, used ≤ (r.fillBuf reader).1.length →
    pending (r.consume used (r.fillBuf reader).2) = (pending reader).drop used

/-- The reader of a list of chunks; it does not show an empty one. -/
def chunkReader : BufRead (List (List UInt8)) where
  fillBuf chunks := ((chunks.dropWhile List.isEmpty).headD [], chunks.dropWhile List.isEmpty)
  consume used chunks :=
    match chunks with
    | [] => []
    | chunk :: chunks => chunk.drop used :: chunks

/-- INTERNAL: without the first empty chunks the text is the same. -/
theorem flatten_dropWhile_isEmpty (chunks : List (List UInt8)) :
    (chunks.dropWhile List.isEmpty).flatten = chunks.flatten := by
  induction chunks with
  | nil => rfl
  | cons chunk chunks ih =>
    cases chunk with
    | nil => exact ih
    | cons byte chunk => rfl

/-- The reader of a list of chunks delivers them one after the other. -/
theorem chunkReader_delivers : Delivers chunkReader List.flatten where
  shown := by
    intro chunks
    rw [← flatten_dropWhile_isEmpty chunks]
    change (chunks.dropWhile List.isEmpty).headD [] <+: _
    cases chunks.dropWhile List.isEmpty with
    | nil => exact List.nil_prefix
    | cons chunk rest => exact List.prefix_append _ _
  ended := by
    intro chunks hnil
    change (chunks.dropWhile List.isEmpty).headD [] = [] at hnil
    rw [← flatten_dropWhile_isEmpty chunks]
    cases hleft : chunks.dropWhile List.isEmpty with
    | nil => rfl
    | cons chunk rest =>
      rw [hleft] at hnil
      obtain rfl : chunk = [] := hnil
      have hkept := List.dropWhile_get_zero_not List.isEmpty chunks (by simp [hleft])
      simp [hleft] at hkept
  consumed := by
    intro chunks used hused
    change used ≤ ((chunks.dropWhile List.isEmpty).headD []).length at hused
    rw [← flatten_dropWhile_isEmpty chunks]
    change (chunkReader.consume used (chunks.dropWhile List.isEmpty)).flatten = _
    cases hleft : chunks.dropWhile List.isEmpty with
    | nil => rw [List.flatten_nil, List.drop_nil]; rfl
    | cons chunk rest =>
      rw [hleft] at hused
      change used ≤ chunk.length at hused
      change (chunk.drop used :: rest).flatten = _
      rw [List.flatten_cons, List.flatten_cons, List.drop_append_of_le_length hused]

variable {σ : Type} {r : BufRead σ} {pending : σ → List UInt8}

/-- What a reader shows under a limit: the beginning of the text, and nothing of it only at its
end. -/
theorem Delivers.limited (h : Delivers r pending) {limit : ℕ} (hlimit : limit ≠ 0) (reader : σ) :
    ∃ rest, pending reader = (r.fillBuf reader).1.take limit ++ rest ∧
      ((r.fillBuf reader).1.take limit).length ≤ limit ∧
      (∀ used ≤ ((r.fillBuf reader).1.take limit).length,
        pending (r.consume used (r.fillBuf reader).2) = (pending reader).drop used) ∧
      ((r.fillBuf reader).1.take limit = [] → rest = []) := by
  obtain ⟨rest, hrest⟩ := (List.take_prefix limit (r.fillBuf reader).1).trans (h.shown reader)
  refine ⟨rest, hrest.symm, List.length_take_le _ _, ?_, ?_⟩
  · intro used hused
    exact h.consumed reader used (hused.trans (List.length_take_le' _ _))
  · intro hnil
    have hpending := h.ended reader ((List.take_eq_nil_iff.mp hnil).resolve_left hlimit)
    rwa [hnil, List.nil_append, hpending] at hrest

/-! ## Lines -/

/-- INTERNAL: a line that ends in the first part. -/
theorem takeLine_append_of_mem {first : List UInt8} (h : 10 ∈ first) (rest : List UInt8)
    {limit : ℕ} (hlimit : first.length ≤ limit) :
    takeLine limit (first ++ rest) =
      (first.take (first.idxOf 10 + 1), first.drop (first.idxOf 10 + 1) ++ rest) := by
  induction first generalizing limit with
  | nil => cases h
  | cons byte first ih =>
    obtain ⟨limit, rfl⟩ : ∃ limit', limit = limit' + 1 :=
      ⟨limit - 1, by rw [List.length_cons] at hlimit; omega⟩
    rw [List.cons_append, takeLine]
    by_cases hbyte : byte = 10
    · rw [if_pos hbyte, hbyte, List.idxOf_cons_self]
      rfl
    · have hmem : 10 ∈ first := (List.mem_cons.mp h).resolve_left (Ne.symm hbyte)
      rw [if_neg hbyte, ih hmem (Nat.le_of_succ_le_succ hlimit), List.idxOf_cons_ne _ hbyte]
      rfl

/-- INTERNAL: a line that goes on after the first part. -/
theorem takeLine_append_of_not_mem {first : List UInt8} (h : 10 ∉ first) (rest : List UInt8)
    (limit : ℕ) :
    takeLine (first.length + limit) (first ++ rest) =
      (first ++ (takeLine limit rest).1, (takeLine limit rest).2) := by
  induction first with
  | nil => rw [List.length_nil, Nat.zero_add]; rfl
  | cons byte first ih =>
    rw [List.mem_cons, not_or] at h
    rw [List.length_cons, Nat.succ_add, List.cons_append, takeLine, if_neg (Ne.symm h.1), ih h.2]
    rfl

/-- **A limited line** is that of the text, and what is left is what is left of the text. -/
theorem takeReadUntil_delivers (h : Delivers r pending) (limit : ℕ) (reader : σ) :
    (r.takeReadUntil limit reader).1 = (takeLine limit (pending reader)).1 ∧
      pending (r.takeReadUntil limit reader).2 = (takeLine limit (pending reader)).2 := by
  induction limit using Nat.strongRecOn generalizing reader with
  | ind limit ih =>
    rw [BufRead.takeReadUntil]
    by_cases hlimit : limit = 0
    · rw [dif_pos hlimit, hlimit, takeLine]
      exact ⟨rfl, rfl⟩
    · rw [dif_neg hlimit]
      dsimp only
      obtain ⟨rest, hrest, hfits, hconsumed, hended⟩ := h.limited hlimit reader
      generalize (r.fillBuf reader).1.take limit = available at hrest hfits hconsumed hended ⊢
      split
      · rename_i hmem
        have hindex : available.idxOf 10 + 1 ≤ available.length := List.idxOf_lt_length_of_mem hmem
        rw [hconsumed _ hindex, hrest, takeLine_append_of_mem hmem rest hfits,
          List.drop_append_of_le_length hindex]
        exact ⟨rfl, rfl⟩
      · rename_i hmem
        have hleft : pending (r.consume available.length (r.fillBuf reader).2) = rest := by
          rw [hconsumed _ le_rfl, hrest, List.drop_left]
        split
        · rename_i hempty
          obtain rfl := List.length_eq_zero_iff.mp hempty
          obtain ⟨limit, rfl⟩ := Nat.exists_eq_succ_of_ne_zero hlimit
          rw [hleft, hrest, hended rfl]
          exact ⟨rfl, rfl⟩
        · obtain ⟨hline, hafter⟩ := ih (limit - available.length) (by omega)
            (r.consume available.length (r.fillBuf reader).2)
          have hwhole := takeLine_append_of_not_mem hmem rest (limit - available.length)
          rw [Nat.add_sub_of_le hfits] at hwhole
          rw [hleft] at hline hafter
          rw [hrest, hwhole, hline, hafter]
          exact ⟨rfl, rfl⟩

/-! ## Bodies -/

/-- INTERNAL: a body that goes on after the first part. -/
theorem readExact_length_add (first rest : List UInt8) (length : ℕ) :
    readExact (first.length + length) (first ++ rest) =
      (readExact length rest).map fun read => (first ++ read.1, read.2) := by
  unfold readExact
  rw [List.length_append]
  by_cases hshort : rest.length < length
  · rw [if_pos (by omega), if_pos hshort]
    rfl
  · rw [if_neg (by omega), if_neg hshort, List.take_length_add_append,
      List.drop_length_add_append]
    rfl

/-- **A body** is that of the text, and what is left is what is left of the text. -/
theorem readExact_delivers (h : Delivers r pending) (length : ℕ) (reader : σ) :
    (r.readExact length reader).map (fun read => (read.1, pending read.2)) =
      readExact length (pending reader) := by
  induction length using Nat.strongRecOn generalizing reader with
  | ind length ih =>
    rw [BufRead.readExact]
    by_cases hlength : length = 0
    · rw [dif_pos hlength, hlength]
      rfl
    · rw [dif_neg hlength]
      dsimp only
      obtain ⟨rest, hrest, hfits, hconsumed, hended⟩ := h.limited hlength reader
      generalize (r.fillBuf reader).1.take length = available at hrest hfits hconsumed hended ⊢
      split
      · rename_i hempty
        obtain rfl := List.length_eq_zero_iff.mp hempty
        rw [hrest, hended rfl, readExact, List.append_nil, List.length_nil,
          if_pos (Nat.pos_of_ne_zero hlength)]
        rfl
      · have hleft : pending (r.consume available.length (r.fillBuf reader).2) = rest := by
          rw [hconsumed _ le_rfl, hrest, List.drop_left]
        have hwhole := readExact_length_add available rest (length - available.length)
        rw [Nat.add_sub_of_le hfits] at hwhole
        rw [hrest, hwhole, ← hleft, ← ih (length - available.length) (by omega)]
        cases r.readExact (length - available.length)
            (r.consume available.length (r.fillBuf reader).2) with
        | error e => rfl
        | ok read => rfl

/-! ## Headers and messages -/

/-- The same end of the header loop, seen from the reader and from the text. -/
inductive SameEnd (pending : σ → List UInt8) :
    Except IoError (HeadersRead σ) → Except IoError HeaderEnd → Prop
  | error (e : IoError) : SameEnd pending (.error e) (.error e)
  | closed {reader : σ} (h : pending reader = []) :
      SameEnd pending (.ok (.closed reader)) (.ok .closed)
  | headers (contentLength : Option ℕ) (reader : σ) :
      SameEnd pending (.ok (.headers contentLength reader))
        (.ok (.headers contentLength (pending reader)))

/-- INTERNAL: where no line is read, the text is at its end. -/
theorem takeLine_eq_nil {limit : ℕ} {input : List UInt8}
    (h : (takeLine (limit + 1) input).1.length = 0) : (takeLine (limit + 1) input).2 = [] := by
  cases input with
  | nil => rfl
  | cons byte input =>
    rw [takeLine] at h
    split at h <;> cases h

/-- The header loop ends as it does on the text. -/
theorem readHeaders_delivers (h : Delivers r pending) (head : HeaderHead σ) :
    SameEnd pending (r.readHeaders head)
      (readHeaders head.headerBytes head.contentLength (pending head.reader)) := by
  -- on the rounds of the reader model: each reads one line of the text, by `takeReadUntil_delivers`
  induction acc_headerRound (r := r) head with
  | intro head _ ih =>
    obtain ⟨hline, hafter⟩ := takeReadUntil_delivers h (lineLimit head) head.reader
    have hnil : (r.takeReadUntil (lineLimit head) head.reader).1.length = 0 →
        pending (r.takeReadUntil (lineLimit head) head.reader).2 = [] := by
      rw [hline, hafter]
      exact takeLine_eq_nil
    have hround : r.headerRound head = afterLine true head
        (r.takeReadUntil (lineLimit head) head.reader).1
        (r.takeReadUntil (lineLimit head) head.reader).2 := rfl
    rw [readHeaders]
    change SameEnd pending _ (if (takeLine (lineLimit head) (pending head.reader)).1.length = 0
      then _ else _)
    unfold lineLimit at *
    rw [← hline, ← hafter]
    generalize r.takeReadUntil (maxHeaderBytes - head.headerBytes + 1) head.reader = line
      at hnil hround ⊢
    unfold afterLine at hround
    by_cases hempty : line.1.length = 0
    · rw [if_pos hempty] at hround
      rw [if_pos hempty]
      by_cases hfirst : head.headerBytes = 0
      · rw [if_pos hfirst] at hround
        rw [if_pos hfirst, readHeaders_of_ended hround]
        exact .closed (hnil hempty)
      · rw [if_neg hfirst] at hround
        rw [if_neg hfirst, readHeaders_of_ended hround]
        exact .error _
    · rw [if_neg hempty] at hround
      rw [if_neg hempty]
      by_cases hbudget : maxHeaderBytes < head.headerBytes + line.1.length
      · rw [if_pos ⟨rfl, hbudget⟩] at hround
        rw [if_pos hbudget, readHeaders_of_ended hround]
        exact .error _
      · rw [if_neg fun hover => hbudget hover.2] at hround
        rw [if_neg hbudget]
        cases hheader : readHeaderLine head.contentLength line.1 with
        | error e =>
          rw [hheader] at hround
          rw [readHeaders_of_ended hround]
          exact .error e
        | ok contentLength =>
          rw [hheader] at hround
          cases contentLength with
          | none =>
            rw [readHeaders_of_ended hround]
            exact .headers _ _
          | some contentLength =>
            rw [readHeaders_of_next hround]
            exact ih _ hround

/-- **However the stream is cut**, `read_message` returns what it returns on the text. -/
theorem readMessage_delivers (h : Delivers r pending) (reader : σ) :
    (r.readMessage reader).map (fun read => (read.1, pending read.2)) =
      readMessage (pending reader) := by
  unfold BufRead.readMessage readMessage
  have hend := readHeaders_delivers h (firstHead reader)
  change SameEnd pending _ (readHeaders 0 none (pending reader)) at hend
  generalize r.readHeaders (firstHead reader) = result at hend ⊢
  generalize readHeaders 0 none (pending reader) = result' at hend ⊢
  cases hend with
  | error e => rfl
  | closed hnil =>
    change Except.ok (none, pending _) = _
    rw [hnil]
  | headers contentLength reader =>
    cases contentLength with
    | none => rfl
    | some length =>
      dsimp only [BufRead.readBody]
      rw [← readExact_delivers h length reader]
      cases r.readExact length reader with
      | error e => rfl
      | ok read => rfl

/-- The message in a list of chunks is that of their concatenation. -/
theorem readMessage_chunks (chunks : List (List UInt8)) :
    (chunkReader.readMessage chunks).map (fun read => (read.1, read.2.flatten)) =
      readMessage chunks.flatten :=
  readMessage_delivers chunkReader_delivers chunks

end REnvTools.Analysis
