import REnvTools.Program.BufRead

/-!
# The budget of header bytes

`Read::take` lets a round of the header loop read one byte more than the budget has left. So a
line that the limit cuts exceeds the budget, and is refused before anything is made of it;
every other line is what `read_until` returns without a limit (`takeReadUntil_cases`). The loop
goes with the unlimited one until the budget is used up (`readHeaders_cases`), for any reader
and even if the stream never ends.
-/

set_option autoImplicit false

namespace REnvTools.Analysis

open Program BufRead

variable {σ : Type} {r : BufRead σ}

/-! ## Lines -/

/-- `read_until` without a limit returns one line. -/
theorem readUntil_unique {reader reader₁ reader₂ : σ} {line₁ line₂ : List UInt8}
    (h₁ : r.ReadUntil reader line₁ reader₁) (h₂ : r.ReadUntil reader line₂ reader₂) :
    line₁ = line₂ ∧ reader₁ = reader₂ := by
  induction h₁ generalizing line₂ reader₂ with
  | found hmem =>
    cases h₂ with
    | found => exact ⟨rfl, rfl⟩
    | ended hnil =>
      rw [hnil] at hmem
      cases hmem
    | more hnot => exact absurd hmem hnot
  | ended hnil =>
    cases h₂ with
    | found hmem =>
      rw [hnil] at hmem
      cases hmem
    | ended => exact ⟨rfl, rfl⟩
    | more _ hne => exact absurd hnil hne
  | more hnot hne _ ih =>
    cases h₂ with
    | found hmem => exact absurd hmem hnot
    | ended hnil => exact absurd hnil hne
    | more _ _ hrest =>
      obtain ⟨rfl, rfl⟩ := ih hrest
      exact ⟨rfl, rfl⟩

/-- **What a limited line is**: the line that is read without the limit, if it is shorter than
the limit; else as many bytes as the limit allows. -/
theorem takeReadUntil_cases (limit : ℕ) (reader : σ) :
    (∃ line reader', r.ReadUntil reader line reader' ∧ line.length < limit ∧
      r.takeReadUntil limit reader = (line, reader')) ∨
    ((r.takeReadUntil limit reader).1.length = limit ∧
      ∀ line reader', r.ReadUntil reader line reader' → limit ≤ line.length) := by
  induction limit using Nat.strongRecOn generalizing reader with
  | ind limit ih =>
    rw [takeReadUntil]
    by_cases hlimit : limit = 0
    · subst hlimit
      exact .inr ⟨rfl, fun _ _ _ => Nat.zero_le _⟩
    rw [dif_neg hlimit]
    dsimp only
    generalize hbuf : (r.fillBuf reader).1 = buf
    by_cases hnewline : 10 ∈ buf.take limit
    -- the line ends in what is shown
    · rw [if_pos hnewline]
      have hmem : 10 ∈ buf := List.mem_of_mem_take hnewline
      have hidx : (buf.take limit).idxOf 10 = buf.idxOf 10 :=
        (List.take_prefix limit buf).idxOf_eq_of_mem hnewline
      have hlt : buf.idxOf 10 < limit := (List.mem_take_iff_idxOf_lt hmem).mp hnewline
      have hfound := @ReadUntil.found σ r reader (hbuf.symm ▸ hmem)
      rw [hbuf] at hfound
      have hlength : (buf.take (buf.idxOf 10 + 1)).length = buf.idxOf 10 + 1 := by
        rw [List.length_take]
        have := List.idxOf_lt_length_of_mem hmem
        omega
      have hused : buf.idxOf 10 + 1 ≤ limit := hlt
      rw [hidx, List.take_take, Nat.min_eq_left hused]
      rcases Nat.lt_or_eq_of_le hused with hshort | hfull
      · exact .inl ⟨_, _, hfound, by omega, rfl⟩
      · refine .inr ⟨hlength.trans hfull, fun line reader' hline => ?_⟩
        rw [← (readUntil_unique hfound hline).1]
        omega
    · rw [if_neg hnewline]
      by_cases hused : (buf.take limit).length = 0
      · rw [dif_pos hused, hused]
        have hnil : (r.fillBuf reader).1 = [] := by
          rw [hbuf]
          rw [List.length_take] at hused
          exact List.eq_nil_of_length_eq_zero (by omega)
        exact .inl ⟨[], _, .ended hnil, Nat.pos_of_ne_zero hlimit, rfl⟩
      rw [dif_neg hused]
      rcases Nat.lt_or_ge buf.length limit with hshort | hlong
      · -- all that is shown belongs to the line
        rw [List.take_of_length_le hshort.le] at hnewline hused ⊢
        have hne : buf ≠ [] := fun hnil => hused (congrArg List.length hnil)
        rcases ih (limit - buf.length) (by omega)
            (r.consume buf.length (r.fillBuf reader).2) with
          ⟨line, reader', hline, hlt, hrest⟩ | ⟨hrest, hall⟩
        · have hmore := @ReadUntil.more σ r reader _ _
            (hbuf.symm ▸ hnewline) (hbuf.symm ▸ hne) (hbuf.symm ▸ hline)
          rw [hbuf] at hmore
          refine .inl ⟨_, _, hmore, ?_, by rw [hrest]⟩
          rw [List.length_append]
          omega
        · refine .inr ⟨?_, fun line reader' hline => ?_⟩
          · rw [List.length_append, hrest]
            omega
          · cases hline with
            | found hmem => exact absurd (hbuf ▸ hmem) hnewline
            | ended hnil => exact absurd (hbuf.symm.trans hnil) hne
            | @more _ _ line _ _ hrest' =>
              rw [hbuf] at hrest' ⊢
              have := hall _ _ hrest'
              rw [List.length_append]
              omega
      · -- the limit cuts what is shown
        have hlength : (buf.take limit).length = limit := by
          rw [List.length_take]
          omega
        refine .inr ⟨?_, fun line reader' hline => ?_⟩
        · rw [hlength, Nat.sub_self, takeReadUntil, dif_pos rfl, List.append_nil, hlength]
        · cases hline with
          | found hmem =>
            rw [hbuf] at hmem ⊢
            have hnot := mt (List.mem_take_iff_idxOf_lt hmem).mpr hnewline
            have := List.idxOf_lt_length_of_mem hmem
            rw [List.length_take]
            omega
          | ended hnil =>
            rw [hbuf] at hnil
            rw [hnil] at hused
            simp at hused
          | more =>
            rw [hbuf, List.length_append]
            omega

/-! ## Rounds -/

/-- INTERNAL: a line within the budget is dealt with alike, whether the budget is checked or
not. -/
theorem afterLine_checked {head : HeaderHead σ} {line : List UInt8} (checked : Bool) (reader : σ)
    (h : head.headerBytes + line.length ≤ maxHeaderBytes) :
    afterLine checked head line reader = afterLine true head line reader := by
  unfold afterLine
  rw [if_neg fun hexceeds : checked = true ∧ _ => Nat.not_lt.mpr h hexceeds.2,
    if_neg fun hexceeds : true = true ∧ _ => Nat.not_lt.mpr h hexceeds.2]

/-- INTERNAL: the next round has a length that can be allocated, if this one has. -/
theorem contentLength_of_next {checked : Bool} {head head' : HeaderHead σ} {line : List UInt8}
    {reader : σ} (h : afterLine checked head line reader = .next head')
    (hlength : ∀ length ∈ head.contentLength, length ≤ maxMessageBytes) :
    ∀ length ∈ head'.contentLength, length ≤ maxMessageBytes := by
  unfold afterLine at h
  split at h
  · split at h <;> cases h
  split at h
  · cases h
  split at h <;> cases h
  rename_i contentLength hline
  unfold readHeaderLine at hline
  split at hline
  · cases hline
  dsimp only at hline
  split at hline
  · cases hline
  split at hline
  · cases hline
  split at hline
  · split at hline
    · cases hline
    split at hline
    · cases hline
    split at hline
    · cases hline
    · rename_i hsize
      cases hline
      intro length hsome
      cases hsome
      exact Nat.le_of_not_lt hsize
  · cases hline
    exact hlength

/-- INTERNAL: the end of the loop has the length of the last round. -/
theorem contentLength_of_ended {checked : Bool} {head : HeaderHead σ} {line : List UInt8}
    {reader reader' : σ} {contentLength : Option ℕ}
    (h : afterLine checked head line reader = .ended (.ok (.headers contentLength reader'))) :
    contentLength = head.contentLength := by
  unfold afterLine at h
  split at h
  · split at h <;> cases h
  split at h
  · cases h
  split at h <;> cases h
  rfl

/-- The unlimited loop ends in one way. -/
theorem readHeadersUnlimited_unique {checked : Bool} {head : HeaderHead σ}
    {result₁ result₂ : Except IoError (HeadersRead σ)} {consumed₁ consumed₂ : ℕ}
    (h₁ : r.ReadHeadersUnlimited checked head result₁ consumed₁)
    (h₂ : r.ReadHeadersUnlimited checked head result₂ consumed₂) :
    result₁ = result₂ ∧ consumed₁ = consumed₂ := by
  induction h₁ with
  | ended hline₁ hafter₁ =>
    cases h₂ with
    | ended hline₂ hafter₂ =>
      obtain ⟨rfl, rfl⟩ := readUntil_unique hline₁ hline₂
      cases hafter₁.symm.trans hafter₂
      exact ⟨rfl, rfl⟩
    | next hline₂ hafter₂ =>
      obtain ⟨rfl, rfl⟩ := readUntil_unique hline₁ hline₂
      cases hafter₁.symm.trans hafter₂
  | next hline₁ hafter₁ _ ih =>
    cases h₂ with
    | ended hline₂ hafter₂ =>
      obtain ⟨rfl, rfl⟩ := readUntil_unique hline₁ hline₂
      cases hafter₁.symm.trans hafter₂
    | next hline₂ hafter₂ hrest₂ =>
      obtain ⟨rfl, rfl⟩ := readUntil_unique hline₁ hline₂
      cases hafter₁.symm.trans hafter₂
      exact ih hrest₂

/-- INTERNAL: what was read stays read. -/
theorem headerBytes_le_of_unlimited {checked : Bool} {head : HeaderHead σ}
    {result : Except IoError (HeadersRead σ)} {consumed : ℕ}
    (h : r.ReadHeadersUnlimited checked head result consumed) :
    head.headerBytes ≤ consumed := by
  induction h with
  | ended => exact Nat.le_add_right _ _
  | next _ hafter _ ih =>
    obtain ⟨hbytes, -, -⟩ := headerBytes_of_next hafter
    omega

/-! ## The loop -/

/-- INTERNAL: the loop ends with the round that ends it. -/
theorem readHeaders_of_ended {head : HeaderHead σ} {result : Except IoError (HeadersRead σ)}
    (h : r.headerRound head = .ended result) : r.readHeaders head = result := by
  rw [BufRead.readHeaders]
  split
  · rename_i hround
    rw [h] at hround
    cases hround
    rfl
  · rename_i hround
    rw [h] at hround
    cases hround

/-- INTERNAL: the loop goes on with the next round. -/
theorem readHeaders_of_next {head head' : HeaderHead σ} (h : r.headerRound head = .next head') :
    r.readHeaders head = r.readHeaders head' := by
  rw [BufRead.readHeaders]
  split
  · rename_i hround
    rw [h] at hround
    cases hround
  · rename_i hround
    rw [h] at hround
    cases hround
    rfl

/-- The heads of the loop that `read_message` comes by. -/
inductive HeadOf (r : BufRead σ) (reader : σ) : HeaderHead σ → Prop
  | first : HeadOf r reader (firstHead reader)
  | next {head head' : HeaderHead σ} (h : HeadOf r reader head)
      (hround : r.headerRound head = .next head') : HeadOf r reader head'

/-- **The invariant of the loop**: the header bytes are within the budget, and the length, once
there is one, is within its limit. -/
theorem HeadOf.bounded {reader : σ} {head : HeaderHead σ} (h : HeadOf r reader head) :
    head.headerBytes ≤ maxHeaderBytes ∧
      ∀ length ∈ head.contentLength, length ≤ maxMessageBytes := by
  induction h with
  | first => exact ⟨Nat.zero_le _, nofun⟩
  | next _ hround ih =>
    obtain ⟨-, -, hbudget⟩ := headerBytes_of_next hround
    exact ⟨hbudget rfl, contentLength_of_next hround ih.2⟩

/-- The rounds end: each begins with more header bytes than the one before. -/
theorem acc_headerRound (head : HeaderHead σ) :
    Acc (fun head' head => r.headerRound head = .next head') head := by
  apply Subrelation.accessible _
    ((measure fun head : HeaderHead σ => maxHeaderBytes - head.headerBytes).wf.apply head)
  intro head' head hround
  obtain ⟨hbytes, hpos, hbudget⟩ := headerBytes_of_next hround
  have hle := hbudget rfl
  change maxHeaderBytes - head'.headerBytes < maxHeaderBytes - head.headerBytes
  omega

/-- INTERNAL: the length of a body is within its limit. -/
theorem contentLength_of_readHeaders {head : HeaderHead σ} {contentLength : Option ℕ} {reader : σ}
    (hlength : ∀ length ∈ head.contentLength, length ≤ maxMessageBytes)
    (h : r.readHeaders head = .ok (.headers contentLength reader)) :
    ∀ length ∈ contentLength, length ≤ maxMessageBytes := by
  induction acc_headerRound (r := r) head with
  | intro head _ ih =>
    cases hround : r.headerRound head with
    | ended result =>
      rw [readHeaders_of_ended hround] at h
      subst h
      rw [contentLength_of_ended hround]
      exact hlength
    | next head' =>
      rw [readHeaders_of_next hround] at h
      exact ih head' hround (contentLength_of_next hround hlength) h

/-- **The loop against the unlimited one**: they end alike, within the budget; or the loop ends
with an error, and the unlimited one reads more than the budget if it ends at all. -/
theorem readHeaders_cases (checked : Bool) (head : HeaderHead σ)
    (hbytes : head.headerBytes ≤ maxHeaderBytes) :
    (∃ consumed, consumed ≤ maxHeaderBytes ∧
      r.ReadHeadersUnlimited checked head (r.readHeaders head) consumed) ∨
    ((∃ e, r.readHeaders head = .error e) ∧
      ∀ result consumed, r.ReadHeadersUnlimited checked head result consumed →
        maxHeaderBytes < consumed) := by
  -- by induction on what is left of the budget: a round that goes on uses some of it
  induction hbudget : maxHeaderBytes - head.headerBytes using Nat.strongRecOn
    generalizing head with
  | ind budget ih =>
    rcases takeReadUntil_cases (r := r) (lineLimit head) head.reader with
      ⟨line, reader', hline, hlt, htake⟩ | ⟨hfull, hall⟩
    · unfold lineLimit at hlt
      have hfits : head.headerBytes + line.length ≤ maxHeaderBytes := by omega
      have hround : r.headerRound head = afterLine checked head line reader' := by
        unfold headerRound
        rw [htake, afterLine_checked checked reader' hfits]
      cases hafter : afterLine checked head line reader' with
      | ended result =>
        rw [readHeaders_of_ended (hround.trans hafter)]
        exact .inl ⟨_, hfits, .ended hline hafter⟩
      | next head' =>
        obtain ⟨hnext, hpos, -⟩ := headerBytes_of_next hafter
        rw [readHeaders_of_next (hround.trans hafter)]
        rcases ih (maxHeaderBytes - head'.headerBytes) (by omega) head' (by omega) rfl with
          ⟨consumed, hconsumed, hrest⟩ | ⟨herror, hmore⟩
        · exact .inl ⟨consumed, hconsumed, .next hline hafter hrest⟩
        · refine .inr ⟨herror, fun result consumed hunlimited => ?_⟩
          cases hunlimited with
          | ended hline' hafter' =>
            obtain ⟨rfl, rfl⟩ := readUntil_unique hline hline'
            cases hafter.symm.trans hafter'
          | next hline' hafter' hrest =>
            obtain ⟨rfl, rfl⟩ := readUntil_unique hline hline'
            cases hafter.symm.trans hafter'
            exact hmore result consumed hrest
    · -- the limit cuts the line, which then exceeds the budget
      have hexceeds : maxHeaderBytes <
          head.headerBytes + (r.takeReadUntil (lineLimit head) head.reader).1.length := by
        rw [hfull]
        unfold lineLimit
        omega
      have hround : r.headerRound head =
          .ended (.error (invalidFrame "Header exceeds size limit")) := by
        unfold headerRound afterLine
        rw [if_neg (by rw [hfull]; exact Nat.succ_ne_zero _), if_pos ⟨rfl, hexceeds⟩]
      refine .inr ⟨⟨_, readHeaders_of_ended hround⟩, ?_⟩
      intro result consumed hunlimited
      unfold lineLimit at hall
      cases hunlimited with
      | ended hline _ =>
        have hlong := hall _ _ hline
        omega
      | next hline hafter hrest =>
        have hlong := hall _ _ hline
        have hread := headerBytes_le_of_unlimited hrest
        obtain ⟨hnext, -, -⟩ := headerBytes_of_next hafter
        omega

/-- **The header budget of `read_message`**, whatever the reader shows at a time and even if
the stream never ends: the budget is never exceeded where it is subtracted, the rounds end, and
a body that is allocated is within its limit. The loop without `Read::take`, with or without
its check, comes to the same whenever it reads no more header bytes than the budget; if it reads
more or never ends, there is an error. -/
theorem header_budget (r : BufRead σ) (reader : σ) :
    (∀ head, HeadOf r reader head → head.headerBytes ≤ maxHeaderBytes) ∧
    Acc (fun head' head => r.headerRound head = .next head') (firstHead reader) ∧
    (∀ length reader', r.readHeaders (firstHead reader) = .ok (.headers (some length) reader') →
      length ≤ maxMessageBytes) ∧
    ∀ checked,
      (∀ result consumed, r.ReadMessageUnlimited checked reader result consumed →
        consumed ≤ maxHeaderBytes → r.readMessage reader = result) ∧
      ((∀ result consumed, r.ReadMessageUnlimited checked reader result consumed →
        maxHeaderBytes < consumed) → ∃ e, r.readMessage reader = .error e) := by
  refine ⟨fun head hhead => hhead.bounded.1, acc_headerRound _, ?_, fun checked => ?_⟩
  · intro length reader' hheaders
    have hnone : ∀ length ∈ (firstHead reader).contentLength, length ≤ maxMessageBytes := by
      intro length hsome
      cases hsome
    exact contentLength_of_readHeaders hnone hheaders length rfl
  · unfold BufRead.readMessage
    rcases readHeaders_cases checked (firstHead reader) (Nat.zero_le _) with
      ⟨consumed₀, hconsumed₀, hunlimited₀⟩ | ⟨⟨e, herror⟩, hmore⟩
    · constructor
      · rintro _ consumed ⟨headers, hunlimited, rfl⟩ -
        rw [(readHeadersUnlimited_unique hunlimited hunlimited₀).1]
      · intro hall
        have hlt := hall _ consumed₀ ⟨_, hunlimited₀, rfl⟩
        omega
    · constructor
      · rintro _ consumed ⟨headers, hunlimited, rfl⟩ hconsumed
        have hlt := hmore _ _ hunlimited
        omega
      · intro _
        rw [herror]
        exact ⟨e, rfl⟩

end REnvTools.Analysis
