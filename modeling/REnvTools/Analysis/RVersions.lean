import REnvTools.Program.RVersions
import REnvTools.Analysis.HeaderLines

/-!
# The entries of an `r-versions` file

The lines of an entry only set fields, each its own (`readTrimmedLines_block`), and every blank line
leaves an empty entry behind (`finishEntry_current`). So a file is read block by block: what is
rendered comes back (`Renders.read`), and a blank line cuts a file in two
(`parseRversionsFile_blank`).
-/

set_option autoImplicit false

namespace REnvTools.Analysis

open Program

/-! ## Keys -/

/-- The keys of the file. -/
inductive RVersionsKey
  | path
  | label
  | module
  | script
  | repo
  | library
  deriving DecidableEq

namespace RVersionsKey

/-- The key of a name in lower case. -/
def ofName : String → Option RVersionsKey
  | "path" => some path
  | "label" => some label
  | "module" => some module
  | "script" => some script
  | "repo" => some repo
  | "library" => some library
  | _ => none

end RVersionsKey

variable (pathFrom : String → PathBuf)

/-- The value that a text stands for: a path, or itself. -/
def RVersionsKey.value : RVersionsKey → String → PathBuf ⊕ String
  | path, text => .inl (pathFrom text)
  | label, text | module, text | script, text | repo, text | library, text => .inr text

/-- The field of a key. -/
def entryField (entry : RVersionsEntry) : RVersionsKey → Option (PathBuf ⊕ String)
  | .path => entry.path.map .inl
  | .label => entry.label.map .inr
  | .module => entry.module.map .inr
  | .script => entry.script.map .inr
  | .repo => entry.repo.map .inr
  | .library => entry.library.map .inr

/-- INTERNAL: an entry is its fields. -/
theorem entryField_injective {entry entry' : RVersionsEntry}
    (h : ∀ key, entryField entry key = entryField entry' key) : entry = entry' := by
  have hinl := Option.map_injective (Sum.inl_injective (α := PathBuf) (β := String))
  have hinr := Option.map_injective (Sum.inr_injective (α := PathBuf) (β := String))
  cases entry
  cases entry'
  congr
  · exact hinl (h .path)
  · exact hinr (h .label)
  · exact hinr (h .module)
  · exact hinr (h .script)
  · exact hinr (h .repo)
  · exact hinr (h .library)

/-- INTERNAL: an unknown name sets nothing. -/
theorem setField_of_ofName_none {name : String} (h : RVersionsKey.ofName name = none)
    (entry : RVersionsEntry) (text : String) : setField pathFrom entry name text = entry := by
  unfold RVersionsKey.ofName at h
  split at h
  case h_7 =>
    unfold setField
    split <;> first | contradiction | rfl
  all_goals cases h

/-- A known name sets the field of its key and no other. -/
theorem entryField_setField {name : String} {key : RVersionsKey}
    (h : RVersionsKey.ofName name = some key) (entry : RVersionsEntry) (text : String)
    (key' : RVersionsKey) :
    entryField (setField pathFrom entry name text) key' =
      if key' = key then some (key.value pathFrom text) else entryField entry key' := by
  unfold RVersionsKey.ofName at h
  split at h <;> cases h <;> cases key' <;> rfl

/-! ## Lines -/

/-- White space within a line. -/
def IsSpace (space : List Char) : Prop := ∀ c ∈ space, isWhitespace c = true ∧ c ≠ '\n'

/-- A line `key: value`, with white space around the parts. The key is any text that a line can
have before its first colon, unless that makes the line a comment. -/
structure PairLine where
  indent : List Char
  key : List Char
  gap : List Char
  lead : List Char
  value : List Char
  trail : List Char
  isSpace : IsSpace indent ∧ IsSpace gap ∧ IsSpace lead ∧ IsSpace trail
  trim_key : trim key = key
  newline_not_mem_key : '\n' ∉ key
  colon_not_mem_key : ':' ∉ key
  head_key : key.head? ≠ some '#'
  trim_value : trim value = value
  newline_not_mem_value : '\n' ∉ value

/-- A line that is not a bare path. -/
inductive RVersionsLine
  | blank (space : List Char) (isSpace : IsSpace space)
  | comment (indent words : List Char) (isSpace : IsSpace indent) (newline_not_mem : '\n' ∉ words)
  | pair (line : PairLine)

/-- The text of a line. -/
def RVersionsLine.text : RVersionsLine → List Char
  | blank space _ => space
  | comment indent words _ _ => indent ++ '#' :: words
  | pair line =>
    line.indent ++ line.key ++ line.gap ++ ':' :: (line.lead ++ line.value ++ line.trail)

/-- The line is white space. -/
def RVersionsLine.IsBlank : RVersionsLine → Prop
  | blank _ _ => True
  | comment _ _ _ _ | pair _ => False

/-- The field that a line sets: its key may be in any letter case. -/
def RVersionsLine.field : RVersionsLine → Option (RVersionsKey × String)
  | blank _ _ | comment _ _ _ _ => none
  | pair line =>
    (RVersionsKey.ofName (toAsciiLowercase (String.ofList line.key))).map fun key =>
      (key, String.ofList line.value)

/-- INTERNAL: white space is white space. -/
theorem IsSpace.isWhitespace {space : List Char} (h : IsSpace space) :
    ∀ c ∈ space, isWhitespace c = true :=
  fun c hc => (h c hc).1

/-- INTERNAL: white space within a line has no line feed. -/
theorem IsSpace.newline_not_mem {space : List Char} (h : IsSpace space) : '\n' ∉ space :=
  fun hmem => (h _ hmem).2 rfl

/-- INTERNAL: a line has no line feed. -/
theorem RVersionsLine.newline_not_mem_text (line : RVersionsLine) : '\n' ∉ line.text := by
  cases line with
  | blank space hspace => exact hspace.newline_not_mem
  | comment indent words hspace hwords => simp [text, hspace.newline_not_mem, hwords]
  | pair line =>
    obtain ⟨hindent, hgap, hlead, htrail⟩ := line.isSpace
    simp [text, hindent.newline_not_mem, hgap.newline_not_mem, hlead.newline_not_mem,
      htrail.newline_not_mem, line.newline_not_mem_key, line.newline_not_mem_value]

/-- INTERNAL: what is left of the key of a trimmed line. -/
theorem PairLine.trim_text (line : PairLine) :
    trim (RVersionsLine.pair line).text =
      trimStart (line.indent ++ line.key ++ line.gap) ++
        ':' :: trimEnd (line.lead ++ line.value ++ line.trail) := by
  have hcolon : isWhitespace ':' = false := by decide
  rw [RVersionsLine.text, trim, trimStart, dropWhile_append_cons _ _ hcolon, trimEnd,
    rdropWhile_append_cons _ _ hcolon]
  rfl

/-- INTERNAL: the parts of a trimmed line. -/
theorem PairLine.splitOnce_trim (line : PairLine) :
    ∃ key value, splitOnce ':' (trim (RVersionsLine.pair line).text) = some (key, value) ∧
      trim key = line.key ∧ trim value = line.value := by
  obtain ⟨hindent, hgap, hlead, htrail⟩ := line.isSpace
  refine ⟨trimStart (line.indent ++ line.key ++ line.gap),
    trimEnd (line.lead ++ line.value ++ line.trail), ?_, ?_, ?_⟩
  · rw [line.trim_text]
    refine splitOnce_append (fun hmem => ?_) _
    have hcolon : ∀ {space}, IsSpace space → ':' ∉ space :=
      fun hspace hmem => absurd (hspace _ hmem).1 (by decide)
    have hmem := (List.dropWhile_sublist _).subset hmem
    simp [hcolon hindent, hcolon hgap, line.colon_not_mem_key] at hmem
  · rw [trim_trimStart, trim_append_append hindent.isWhitespace hgap.isWhitespace, line.trim_key]
  · rw [trim_trimEnd, trim_append_append hlead.isWhitespace htrail.isWhitespace, line.trim_value]

/-- INTERNAL: a key starts with no white space. -/
theorem PairLine.head_trim (line : PairLine) :
    (trim (RVersionsLine.pair line).text).head? ≠ some '#' := by
  rw [line.trim_text]
  unfold trimStart
  rw [List.append_assoc, List.dropWhile_append_of_pos line.isSpace.1.isWhitespace]
  rcases hkey : line.key with - | ⟨c, key⟩
  · have hgap : line.gap.dropWhile isWhitespace = [] :=
      List.dropWhile_eq_nil_iff.mpr line.isSpace.2.1.isWhitespace
    simp [hgap]
  · have hc : isWhitespace c = false := by
      have hstart : trimStart (c :: key) = c :: key := by
        rw [← hkey, ← line.trim_key]
        exact trimStart_trim _
      unfold trimStart at hstart
      by_contra htrue
      rw [List.dropWhile_cons_of_pos (by simpa using htrue)] at hstart
      have hle := (List.dropWhile_sublist isWhitespace (l := key)).length_le
      rw [hstart] at hle
      simp at hle
    have hhead := line.head_key
    rw [hkey] at hhead
    rw [List.cons_append, List.dropWhile_cons_of_neg (by simp [hc])]
    simpa using hhead

/-! ## The loop -/

/-- INTERNAL: the loop over trimmed lines. -/
def readTrimmedLines (state : RVersionsState) (trimmed : List (List Char)) : RVersionsState :=
  trimmed.foldl (readTrimmedLine pathFrom) state

/-- A blank line leaves an empty entry behind. -/
theorem finishEntry_current (state : RVersionsState) : (finishEntry state).current = {} := by
  unfold finishEntry
  split
  · rfl
  · split
    · rfl
    · rename_i hnone
      obtain ⟨⟨path, label, module, script, repo, library⟩, entries⟩ := state
      simpa [hasAnyFields, and_assoc] using hnone

/-- INTERNAL: an empty entry is not finished. -/
theorem finishEntry_of_current {state : RVersionsState} (h : state.current = {}) :
    finishEntry state = state := by
  unfold finishEntry
  rw [h]
  rfl

/-- INTERNAL: the entries that are finished stay in front. -/
theorem finishEntry_append (current : RVersionsEntry) (first entries : List RVersionsEntry) :
    finishEntry ⟨current, first ++ entries⟩ =
      ⟨(finishEntry ⟨current, entries⟩).current,
        first ++ (finishEntry ⟨current, entries⟩).entries⟩ := by
  unfold finishEntry
  split
  · simp
  · split <;> rfl

/-- INTERNAL: the entries that are finished stay in front. -/
theorem readTrimmedLine_append (current : RVersionsEntry) (first entries : List RVersionsEntry)
    (line : List Char) :
    readTrimmedLine pathFrom ⟨current, first ++ entries⟩ line =
      ⟨(readTrimmedLine pathFrom ⟨current, entries⟩ line).current,
        first ++ (readTrimmedLine pathFrom ⟨current, entries⟩ line).entries⟩ := by
  unfold readTrimmedLine
  split
  · exact finishEntry_append current first entries
  · split
    · rfl
    · split
      · simp [finishEntry_append]
      · with_reducible rfl

/-- What is read before an empty entry does not matter to what follows. -/
theorem readTrimmedLines_append (current : RVersionsEntry) (first entries : List RVersionsEntry)
    (trimmed : List (List Char)) :
    readTrimmedLines pathFrom ⟨current, first ++ entries⟩ trimmed =
      ⟨(readTrimmedLines pathFrom ⟨current, entries⟩ trimmed).current,
        first ++ (readTrimmedLines pathFrom ⟨current, entries⟩ trimmed).entries⟩ := by
  unfold readTrimmedLines
  induction trimmed generalizing current entries with
  | nil => rfl
  | cons line trimmed ih =>
    rw [List.foldl_cons, readTrimmedLine_append, ih]
    rfl

/-- INTERNAL: the pieces between line feeds are the lines, and perhaps an empty piece. -/
theorem map_trim_splitOn (contents : List Char) :
    (contents.splitOn '\n').map trim = (lines contents).map trim ∨
      (contents.splitOn '\n').map trim = (lines contents).map trim ++ [[]] := by
  have hstrip : ∀ line : List Char,
      trim (if line.getLast? = some '\r' then line.dropLast else line) = trim line := by
    intro line
    split
    · rename_i hlast
      conv_rhs => rw [← List.dropLast_append_getLast? _ hlast]
      rw [← List.nil_append (line.dropLast ++ ['\r']), ← List.append_assoc,
        trim_append_append (List.forall_mem_nil _) (List.forall_mem_singleton.mpr rfl)]
    · rfl
  obtain ⟨ended, last, hpieces⟩ : ∃ ended last, contents.splitOn '\n' = ended ++ [last] :=
    ⟨_, _, (List.dropLast_append_getLast (List.splitOn_ne_nil '\n' contents)).symm⟩
  unfold lines
  rw [hpieces]
  simp only [List.dropLast_concat, List.getLast?_concat]
  have hnil : trim [] = [] := rfl
  cases last with
  | nil => exact .inr (by simp [Function.comp_def, hstrip, hnil])
  | cons c last => exact .inl (by simp [Function.comp_def, hstrip])

/-- INTERNAL: an empty piece at the end does nothing. -/
theorem finishEntry_readTrimmedLines_blank (state : RVersionsState) (trimmed : List (List Char)) :
    finishEntry (readTrimmedLines pathFrom state (trimmed ++ [[]])) =
      finishEntry (readTrimmedLines pathFrom state trimmed) := by
  unfold readTrimmedLines
  rw [List.foldl_append]
  exact finishEntry_of_current (finishEntry_current _)

/-- The file is read from its pieces between line feeds. -/
theorem parseRversionsFile_eq (content : String) :
    parseRversionsFile pathFrom content =
      (finishEntry (readTrimmedLines pathFrom {}
        ((content.toList.splitOn '\n').map trim))).entries := by
  have hparse : parseRversionsFile pathFrom content =
      (finishEntry (readTrimmedLines pathFrom {} ((lines content.toList).map trim))).entries := by
    unfold parseRversionsFile readTrimmedLines
    rw [List.foldl_append, List.foldl_map]
    rfl
  rw [hparse]
  rcases map_trim_splitOn content.toList with h | h
  · rw [h]
  · rw [h, finishEntry_readTrimmedLines_blank]

/-! ## Blocks -/

/-- A blank line cuts a file in two. -/
theorem parseRversionsFile_blank (a b : String) :
    parseRversionsFile pathFrom (a ++ "\n\n" ++ b) =
      parseRversionsFile pathFrom a ++ parseRversionsFile pathFrom b := by
  have hpieces : (a ++ "\n\n" ++ b).toList.splitOn '\n' =
      a.toList.splitOn '\n' ++ [] :: b.toList.splitOn '\n' := by
    have htext : (a ++ "\n\n" ++ b).toList = a.toList ++ '\n' :: ([] ++ '\n' :: b.toList) := by
      simp
    rw [htext, List.splitOn_append_cons_self, List.splitOn_append_cons_self, List.splitOn_nil]
    rfl
  simp only [parseRversionsFile_eq, hpieces, List.map_append, List.map_cons]
  generalize (a.toList.splitOn '\n').map trim = first
  generalize (b.toList.splitOn '\n').map trim = second
  have hrun : readTrimmedLines pathFrom {} (first ++ trim [] :: second) =
      readTrimmedLines pathFrom (finishEntry (readTrimmedLines pathFrom {} first)) second := by
    unfold readTrimmedLines
    rw [List.foldl_append]
    rfl
  have hfinished : finishEntry (readTrimmedLines pathFrom {} first) =
      ⟨{}, (finishEntry (readTrimmedLines pathFrom {} first)).entries ++ []⟩ := by
    rw [List.append_nil]
    exact congrArg (RVersionsState.mk · _) (finishEntry_current _)
  rw [hrun, hfinished, readTrimmedLines_append, finishEntry_append, ← hfinished]

/-- The entry has a path or a module. -/
def Located (entry : RVersionsEntry) : Prop :=
  entry.path.isSome = true ∨ entry.module.isSome = true

/-- INTERNAL: only an entry with a path or a module is finished. -/
theorem located_finishEntry {state : RVersionsState} (h : ∀ entry ∈ state.entries, Located entry) :
    ∀ entry ∈ (finishEntry state).entries, Located entry := by
  unfold finishEntry
  split
  · rename_i hcurrent
    intro entry hentry
    rcases List.mem_append.mp hentry with hentry | hentry
    · exact h entry hentry
    · rw [List.mem_singleton.mp hentry]
      simpa [Located] using hcurrent
  · split <;> exact h

/-- INTERNAL: a line adds only entries with a path or a module. -/
theorem located_readTrimmedLine {state : RVersionsState}
    (h : ∀ entry ∈ state.entries, Located entry) (line : List Char) :
    ∀ entry ∈ (readTrimmedLine pathFrom state line).entries, Located entry := by
  unfold readTrimmedLine
  split
  · exact located_finishEntry h
  · split
    · exact h
    · split
      · intro entry hentry
        rcases List.mem_append.mp hentry with hentry | hentry
        · exact located_finishEntry h entry hentry
        · rw [List.mem_singleton.mp hentry]
          exact .inl rfl
      · exact h

/-- Every entry that is returned has a path or a module. -/
theorem located_of_mem_parseRversionsFile {content : String} :
    ∀ entry ∈ parseRversionsFile pathFrom content, Located entry := by
  have hrun : ∀ (trimmed : List (List Char)) (state : RVersionsState),
      (∀ entry ∈ state.entries, Located entry) →
      ∀ entry ∈ (readTrimmedLines pathFrom state trimmed).entries, Located entry := by
    intro trimmed
    induction trimmed with
    | nil => exact fun state h => h
    | cons line trimmed ih => exact fun state h => ih _ (located_readTrimmedLine pathFrom h line)
  rw [parseRversionsFile_eq]
  exact located_finishEntry (hrun _ _ (List.forall_mem_nil _))

/-! ## Rendering -/

/-- The lines of an entry: one for each of its fields, in any order, and among them lines that
set no field. -/
structure IsBlock (entry : RVersionsEntry) (block : List RVersionsLine) : Prop where
  not_blank : ∀ line ∈ block, ¬line.IsBlank
  nodup : ((block.filterMap RVersionsLine.field).map Prod.fst).Nodup
  value : ∀ field ∈ block.filterMap RVersionsLine.field,
    entryField entry field.1 = some (field.1.value pathFrom field.2)
  all : ∀ key, (entryField entry key).isSome = true →
    key ∈ (block.filterMap RVersionsLine.field).map Prod.fst

/-- The lines of a file: blocks with at least one blank line between them, and lines that set no
field around them. -/
inductive Renders : List RVersionsEntry → List RVersionsLine → Prop
  | nothing : Renders [] []
  | aside {entries : List RVersionsEntry} {lines : List RVersionsLine} (line : RVersionsLine)
      (hfield : line.field = none) (hrest : Renders entries lines) :
      Renders entries (line :: lines)
  | last {entry : RVersionsEntry} {block : List RVersionsLine}
      (hblock : IsBlock pathFrom entry block) : Renders [entry] block
  | entry {entry : RVersionsEntry} {block : List RVersionsLine} {blank : RVersionsLine}
      {entries : List RVersionsEntry} {lines : List RVersionsLine}
      (hblock : IsBlock pathFrom entry block) (hblank : blank.IsBlank)
      (hrest : Renders entries lines) : Renders (entry :: entries) (block ++ blank :: lines)

/-- The text of a file: every line ends with a line ending, but the last one need not. -/
inductive Spells : List RVersionsLine → List Char → Prop
  | nothing : Spells [] []
  | last (line : RVersionsLine) : Spells [line] line.text
  | line {lines : List RVersionsLine} {content : List Char} (line : RVersionsLine)
      (ending : LineEnding) (hrest : Spells lines content) :
      Spells (line :: lines) (line.text ++ ending.text.toList ++ content)

/-- What a line that is not blank does. -/
theorem readTrimmedLine_text {line : RVersionsLine} (h : ¬line.IsBlank) (state : RVersionsState) :
    (readTrimmedLine pathFrom state (trim line.text)).entries = state.entries ∧
      ∀ key, entryField (readTrimmedLine pathFrom state (trim line.text)).current key =
        match line.field with
        | none => entryField state.current key
        | some field =>
          if key = field.1 then some (field.1.value pathFrom field.2)
          else entryField state.current key := by
  cases line with
  | blank space hspace => exact absurd trivial h
  | comment indent words hspace hwords =>
    have htrim : trim (indent ++ '#' :: words) = '#' :: trimEnd words := by
      have hhash : isWhitespace '#' = false := by decide
      rw [trim, trimStart, dropWhile_append_cons _ _ hhash,
        List.dropWhile_eq_nil_iff.mpr hspace.isWhitespace, List.nil_append, trimEnd]
      exact rdropWhile_append_cons [] words hhash
    have hread : readTrimmedLine pathFrom state (trim (indent ++ '#' :: words)) = state := by
      rw [htrim]
      rfl
    rw [RVersionsLine.text, hread]
    exact ⟨rfl, fun _ => rfl⟩
  | pair line =>
    obtain ⟨key, value, hparts, hkey, hvalue⟩ := line.splitOnce_trim
    have hne : trim (RVersionsLine.pair line).text ≠ [] := by
      rw [line.trim_text]
      simp
    unfold readTrimmedLine
    rw [if_neg hne, if_neg line.head_trim, hparts]
    refine ⟨rfl, fun key' => ?_⟩
    dsimp only
    rw [hkey, hvalue]
    have hfield : (RVersionsLine.pair line).field =
        (RVersionsKey.ofName (toAsciiLowercase (String.ofList line.key))).map fun key =>
          (key, String.ofList line.value) := rfl
    rw [hfield]
    cases hname : RVersionsKey.ofName (toAsciiLowercase (String.ofList line.key)) with
    | none =>
      rw [setField_of_ofName_none pathFrom hname]
      rfl
    | some known => exact entryField_setField pathFrom hname _ _ _

/-- The lines of a block set each field once, and finish nothing. -/
theorem readTrimmedLines_block {block : List RVersionsLine}
    (hblank : ∀ line ∈ block, ¬line.IsBlank)
    (hnodup : ((block.filterMap RVersionsLine.field).map Prod.fst).Nodup)
    (state : RVersionsState) :
    (readTrimmedLines pathFrom state (block.map (trim ·.text))).entries = state.entries ∧
      (∀ field ∈ block.filterMap RVersionsLine.field,
        entryField (readTrimmedLines pathFrom state (block.map (trim ·.text))).current field.1 =
          some (field.1.value pathFrom field.2)) ∧
      ∀ key, key ∉ (block.filterMap RVersionsLine.field).map Prod.fst →
        entryField (readTrimmedLines pathFrom state (block.map (trim ·.text))).current key =
          entryField state.current key := by
  induction block generalizing state with
  | nil => exact ⟨rfl, List.forall_mem_nil _, fun _ _ => rfl⟩
  | cons line block ih =>
    obtain ⟨hentries, hfield⟩ :=
      readTrimmedLine_text pathFrom (hblank line List.mem_cons_self) state
    have hblank' := fun line' hline' => hblank line' (List.mem_cons_of_mem line hline')
    rw [List.filterMap_cons] at hnodup ⊢
    cases hline : line.field with
    | none =>
      simp only [hline] at hnodup hfield ⊢
      obtain ⟨hrest, hset, hkept⟩ :=
        ih hblank' hnodup (readTrimmedLine pathFrom state (trim line.text))
      exact ⟨hrest.trans hentries, hset, fun key hkey => (hkept key hkey).trans (hfield key)⟩
    | some field =>
      simp only [hline, List.map_cons, List.nodup_cons] at hnodup hfield ⊢
      obtain ⟨hrest, hset, hkept⟩ :=
        ih hblank' hnodup.2 (readTrimmedLine pathFrom state (trim line.text))
      refine ⟨hrest.trans hentries, ?_, ?_⟩
      · intro field' hfield'
        rcases List.mem_cons.mp hfield' with rfl | hfield'
        · exact (hkept _ hnodup.1).trans ((hfield _).trans (if_pos rfl))
        · exact hset field' hfield'
      · intro key hkey
        rw [List.mem_cons, not_or] at hkey
        exact (hkept key hkey.2).trans ((hfield key).trans (if_neg hkey.1))

/-- INTERNAL: the lines of an entry are read as the entry. -/
theorem IsBlock.read {entry : RVersionsEntry} {block : List RVersionsLine}
    (h : IsBlock pathFrom entry block) (entries : List RVersionsEntry) :
    readTrimmedLines pathFrom ⟨{}, entries⟩ (block.map (trim ·.text)) = ⟨entry, entries⟩ := by
  obtain ⟨hentries, hset, hkept⟩ :=
    readTrimmedLines_block pathFrom h.not_blank h.nodup ⟨{}, entries⟩
  have hcurrent : (readTrimmedLines pathFrom ⟨{}, entries⟩
      (block.map (trim ·.text))).current = entry := by
    apply entryField_injective
    intro key
    by_cases hkey : key ∈ (block.filterMap RVersionsLine.field).map Prod.fst
    · obtain ⟨field, hfield, rfl⟩ := List.mem_map.mp hkey
      exact (hset field hfield).trans (h.value field hfield).symm
    · have hnone : entryField entry key = none := by
        by_contra hsome
        exact hkey (h.all key (Option.isSome_iff_ne_none.mpr hsome))
      rw [hkept key hkey, hnone]
      cases key <;> rfl
  generalize hstate : readTrimmedLines pathFrom ⟨{}, entries⟩ _ = state at hentries hcurrent
  cases state
  subst hentries hcurrent
  rfl

/-- INTERNAL: an entry with a path or a module is finished. -/
theorem finishEntry_of_located {entry : RVersionsEntry} (h : Located entry)
    (entries : List RVersionsEntry) :
    finishEntry ⟨entry, entries⟩ = ⟨{}, entries ++ [entry]⟩ := by
  unfold finishEntry
  rw [if_pos (by simpa [Located] using h)]

/-- INTERNAL: a blank line finishes the entry. -/
theorem readTrimmedLine_blank {line : RVersionsLine} (h : line.IsBlank) (state : RVersionsState) :
    readTrimmedLine pathFrom state (trim line.text) = finishEntry state := by
  cases line with
  | blank space hspace =>
    have hnil : trim space = [] := trim_eq_nil.mpr hspace.isWhitespace
    rw [RVersionsLine.text, hnil]
    rfl
  | comment | pair => exact h.elim

/-- INTERNAL: between entries, a line that sets no field does nothing. -/
theorem readTrimmedLine_aside {line : RVersionsLine} (h : line.field = none)
    (finished : List RVersionsEntry) :
    readTrimmedLine pathFrom ⟨{}, finished⟩ (trim line.text) = ⟨{}, finished⟩ := by
  by_cases hblank : line.IsBlank
  · rw [readTrimmedLine_blank pathFrom hblank]
    exact finishEntry_of_current rfl
  · obtain ⟨hentries, hfield⟩ := readTrimmedLine_text pathFrom hblank ⟨{}, finished⟩
    simp only [h] at hfield
    have hcurrent := entryField_injective hfield
    generalize readTrimmedLine pathFrom ⟨{}, finished⟩ _ = state at hentries hcurrent
    cases state
    subst hentries hcurrent
    rfl

/-- What is rendered is read back. -/
theorem Renders.read {entries : List RVersionsEntry} {lines : List RVersionsLine}
    (h : Renders pathFrom entries lines) (hlocated : ∀ entry ∈ entries, Located entry)
    (finished : List RVersionsEntry) :
    finishEntry (readTrimmedLines pathFrom ⟨{}, finished⟩ (lines.map (trim ·.text))) =
      ⟨{}, finished ++ entries⟩ := by
  induction h generalizing finished with
  | nothing =>
    rw [List.append_nil]
    rfl
  | aside line hfield hrest ih =>
    rw [← ih hlocated finished]
    unfold readTrimmedLines
    rw [List.map_cons, List.foldl_cons, readTrimmedLine_aside pathFrom hfield]
  | last hblock =>
    rw [hblock.read, finishEntry_of_located (hlocated _ List.mem_cons_self)]
  | @entry entry block blank entries lines hblock hblank hrest ih =>
    obtain ⟨hentry, hentries⟩ := List.forall_mem_cons.mp hlocated
    have hrun : readTrimmedLines pathFrom ⟨{}, finished⟩
        ((block ++ blank :: lines).map (trim ·.text)) =
        readTrimmedLines pathFrom ⟨{}, finished ++ [entry]⟩ (lines.map (trim ·.text)) := by
      have hread := hblock.read pathFrom finished
      unfold readTrimmedLines at hread ⊢
      rw [List.map_append, List.foldl_append, hread, List.map_cons, List.foldl_cons,
        readTrimmedLine_blank pathFrom hblank, finishEntry_of_located hentry]
    rw [hrun, ih hentries, List.append_assoc]
    rfl

/-- INTERNAL: the pieces of a text between line feeds are its lines, and perhaps an empty
piece. -/
theorem Spells.map_trim_splitOn {lines : List RVersionsLine} {content : List Char}
    (h : Spells lines content) :
    (content.splitOn '\n').map trim = lines.map (trim ·.text) ∨
      (content.splitOn '\n').map trim = lines.map (trim ·.text) ++ [[]] := by
  induction h with
  | nothing => exact .inr rfl
  | last line =>
    rw [List.splitOn_eq_singleton line.newline_not_mem_text]
    exact .inl rfl
  | @line lines content line ending hrest ih =>
    obtain ⟨pad, hpad, hnewline, hspace⟩ := ending.exists_toList
    have hsplit : (line.text ++ ending.text.toList ++ content).splitOn '\n' =
        (line.text ++ pad) :: content.splitOn '\n' := by
      rw [hpad, List.append_assoc, List.append_assoc, ← List.append_assoc, List.singleton_append,
        List.splitOn_append_cons_self_of_not_mem]
      simp [line.newline_not_mem_text, hnewline]
    have htrim : trim (line.text ++ pad) = trim line.text :=
      trim_append_append (List.forall_mem_nil _) hspace
    rw [hsplit, List.map_cons, List.map_cons, htrim]
    exact ih.imp (congrArg _) (congrArg _)

/-- **The `r-versions` file**: the entries of a file come back from every rendering of it, a blank
line cuts a file in two, and every entry that is returned has a path or a module. -/
theorem rversions_round_trip :
    (∀ entries lines content, (∀ entry ∈ entries, Located entry) →
      Renders pathFrom entries lines → Spells lines content →
      parseRversionsFile pathFrom (String.ofList content) = entries) ∧
    (∀ a b, parseRversionsFile pathFrom (a ++ "\n\n" ++ b) =
      parseRversionsFile pathFrom a ++ parseRversionsFile pathFrom b) ∧
    ∀ content, ∀ entry ∈ parseRversionsFile pathFrom content, Located entry := by
  refine ⟨fun entries lines content hlocated hrenders hspells => ?_,
    parseRversionsFile_blank pathFrom, fun _ => located_of_mem_parseRversionsFile pathFrom⟩
  have hread : (finishEntry (readTrimmedLines pathFrom {} (lines.map (trim ·.text)))).entries =
      entries := congrArg RVersionsState.entries (hrenders.read pathFrom hlocated [])
  rw [parseRversionsFile_eq, String.toList_ofList, ← hread]
  rcases hspells.map_trim_splitOn with hpieces | hpieces
  · rw [hpieces]
  · rw [hpieces, finishEntry_readTrimmedLines_blank]

/-- The line `Path : /opt/R`. -/
def pathLine : PairLine where
  indent := []
  key := "Path".toList
  gap := [' ']
  lead := [' ']
  value := "/opt/R".toList
  trail := []
  isSpace := by simp [IsSpace, isWhitespace]
  trim_key := by decide
  newline_not_mem_key := by decide
  colon_not_mem_key := by decide
  head_key := by decide
  trim_value := by decide
  newline_not_mem_value := by decide

/-- The line `LABEL:Stable`. -/
def labelLine : PairLine where
  indent := []
  key := "LABEL".toList
  gap := []
  lead := []
  value := "Stable".toList
  trail := []
  isSpace := by simp [IsSpace]
  trim_key := by decide
  newline_not_mem_key := by decide
  colon_not_mem_key := by decide
  head_key := by decide
  trim_value := by decide
  newline_not_mem_value := by decide

/-- The line `path:/srv/R`, indented. -/
def serverLine : PairLine where
  indent := [' ']
  key := "path".toList
  gap := []
  lead := []
  value := "/srv/R".toList
  trail := []
  isSpace := by simp [IsSpace, isWhitespace]
  trim_key := by decide
  newline_not_mem_key := by decide
  colon_not_mem_key := by decide
  head_key := by decide
  trim_value := by decide
  newline_not_mem_value := by decide

/-- A comment and two entries, the first of which has a label. -/
theorem rversions_round_trip_path :
    parseRversionsFile (fun text => ⟨[.normal text]⟩)
        (String.ofList "#old\nPath : /opt/R\nLABEL:Stable\n\n path:/srv/R".toList) =
      [{ path := some ⟨[.normal "/opt/R"]⟩, label := some "Stable" },
        { path := some ⟨[.normal "/srv/R"]⟩ }] := by
  refine (rversions_round_trip fun text => ⟨[.normal text]⟩).1 _
    (.comment [] "old".toList (List.forall_mem_nil _) (by decide) ::
      ([.pair pathLine, .pair labelLine] ++ .blank [] (List.forall_mem_nil _) ::
        [.pair serverLine])) _ ?_ ?_ ?_
  · simp only [List.forall_mem_cons]
    exact ⟨.inl rfl, .inl rfl, List.forall_mem_nil _⟩
  · refine .aside _ rfl (.entry ⟨?_, by decide, ?_, ?_⟩ trivial (.last ⟨?_, by decide, ?_, ?_⟩))
    · simp only [List.forall_mem_cons]
      exact ⟨not_false, not_false, List.forall_mem_nil _⟩
    · refine List.forall_mem_cons.mpr ⟨rfl, List.forall_mem_singleton.mpr rfl⟩
    · intro key hkey
      cases key <;> first | decide | cases hkey
    · exact List.forall_mem_singleton.mpr not_false
    · exact List.forall_mem_singleton.mpr rfl
    · intro key hkey
      cases key <;> first | decide | cases hkey
  · exact .line _ .lf (.line _ .lf (.line _ .lf (.line _ .lf (.last _))))

end REnvTools.Analysis
