import REnvTools.Program.Metadata

/-!
# The headers of binaries

What `binary_architecture` accepts: `IsBinary` gives the three formats by what stands where in
the file, and the function finds the architecture of exactly these files. No other file, and no
file that ends before its header does, has one.
-/

set_option autoImplicit false

namespace REnvTools.Analysis

open Program

/-! ## Bytes and numbers -/

/-- A number in so many bytes, the least first. -/
def leBytes : ℕ → ℕ → List UInt8
  | 0, _ => []
  | count + 1, value => UInt8.ofNat value :: leBytes count (value / 256)

/-- A number in the order that a header declares. -/
def ordered (bigEndian : Bool) (count value : ℕ) : List UInt8 :=
  if bigEndian then (leBytes count value).reverse else leBytes count value

/-- The bytes stand at this position of the file. -/
def At (bytes : List UInt8) (position : ℕ) (part : List UInt8) : Prop :=
  ∃ before after, bytes = before ++ part ++ after ∧ before.length = position

/-- INTERNAL: as many bytes as asked for. -/
theorem length_leBytes (count value : ℕ) : (leBytes count value).length = count := by
  induction count generalizing value with
  | zero => rfl
  | succ count ih => rw [leBytes, List.length_cons, ih]

/-- INTERNAL: the order of the bytes does not change their number. -/
theorem length_ordered (bigEndian : Bool) (count value : ℕ) :
    (ordered bigEndian count value).length = count := by
  unfold ordered
  split
  · rw [List.length_reverse, length_leBytes]
  · exact length_leBytes _ _

/-- Numbers that fit are read as they were written. -/
theorem fromLeBytes_leBytes {count value : ℕ} (h : value < 256 ^ count) :
    fromLeBytes (leBytes count value) = value := by
  induction count generalizing value with
  | zero =>
    have hzero : value = 0 := by simpa using h
    rw [hzero]
    rfl
  | succ count ih =>
    have hrest : value / 256 < 256 ^ count := by
      rw [Nat.pow_succ] at h
      exact Nat.div_lt_of_lt_mul (by omega)
    show (UInt8.ofNat value).toNat + 256 * fromLeBytes (leBytes count (value / 256)) = value
    rw [ih hrest, UInt8.toNat_ofNat']
    omega

/-- Bytes are the writing of the number that they are read as. -/
theorem leBytes_fromLeBytes (bytes : List UInt8) :
    leBytes bytes.length (fromLeBytes bytes) = bytes := by
  induction bytes with
  | nil => rfl
  | cons byte bytes ih =>
    show UInt8.ofNat (byte.toNat + 256 * fromLeBytes bytes) ::
      leBytes bytes.length ((byte.toNat + 256 * fromLeBytes bytes) / 256) = byte :: bytes
    have hlt := byte.toNat_lt
    have hdiv : (byte.toNat + 256 * fromLeBytes bytes) / 256 = fromLeBytes bytes := by omega
    have hbyte : UInt8.ofNat (byte.toNat + 256 * fromLeBytes bytes) = byte := by
      apply UInt8.toNat.inj
      rw [UInt8.toNat_ofNat']
      omega
    rw [hdiv, hbyte, ih]

/-- INTERNAL: a number that is read fits into its bytes. -/
theorem fromLeBytes_lt (bytes : List UInt8) : fromLeBytes bytes < 256 ^ bytes.length := by
  induction bytes with
  | nil => decide
  | cons byte bytes ih =>
    have hlt := byte.toNat_lt
    show byte.toNat + 256 * fromLeBytes bytes < 256 ^ (bytes.length + 1)
    rw [Nat.pow_succ]
    omega

/-- INTERNAL: reading a number, in one order or the other. -/
theorem read_ordered_iff {bigEndian : Bool} {bytes : List UInt8} {count value : ℕ}
    (hlength : bytes.length = count) (hvalue : value < 256 ^ count) :
    (if bigEndian then fromBeBytes bytes else fromLeBytes bytes) = value ↔
      bytes = ordered bigEndian count value := by
  have hle : ∀ bytes : List UInt8, bytes.length = count →
      (fromLeBytes bytes = value ↔ bytes = leBytes count value) := by
    intro bytes hlength
    constructor
    · rintro rfl
      rw [← hlength, leBytes_fromLeBytes]
    · rintro rfl
      exact fromLeBytes_leBytes hvalue
  unfold ordered fromBeBytes
  cases bigEndian with
  | false => exact hle bytes hlength
  | true =>
    have hreverse := hle bytes.reverse (by rw [List.length_reverse, hlength])
    rw [List.reverse_eq_iff] at hreverse
    exact hreverse

/-- INTERNAL: what stands at a position is what is read there. -/
theorem at_iff {bytes part : List UInt8} {position : ℕ} (hne : part ≠ []) :
    At bytes position part ↔ (bytes.drop position).take part.length = part := by
  constructor
  · rintro ⟨before, after, rfl, rfl⟩
    rw [List.append_assoc, List.drop_left, List.take_left]
  · intro h
    have hrest : bytes.drop position = part ++ (bytes.drop position).drop part.length := by
      conv_lhs => rw [← List.take_append_drop part.length (bytes.drop position), h]
    have hlt : position < bytes.length := by
      by_contra hge
      rw [List.drop_eq_nil_of_le (Nat.le_of_not_lt hge)] at h
      exact hne (by simpa using h.symm)
    refine ⟨bytes.take position, (bytes.drop position).drop part.length, ?_, ?_⟩
    · rw [List.append_assoc, ← hrest, List.take_append_drop]
    · exact List.length_take_of_le (Nat.le_of_lt hlt)

/-! ## The formats -/

/-- The number of an architecture in an ELF header. -/
def elfCode : Architecture → ℕ
  | .x86 => 3
  | .x64 => 62
  | .arm64 => 183

/-- The number of an architecture in a Mach-O header. -/
def machoCode : Architecture → ℕ
  | .x86 => 7
  | .x64 => 0x01000007
  | .arm64 => 0x0100000c

/-- The number of an architecture in a PE header. -/
def peCode : Architecture → ℕ
  | .x86 => 0x014c
  | .x64 => 0x8664
  | .arm64 => 0xaa64

/-- The first bytes of a Mach-O file, of 64 or 32 bits. -/
def machoMagic (bigEndian wide : Bool) : List UInt8 :=
  let magic := if wide then [0xfe, 0xed, 0xfa, 0xcf] else [0xfe, 0xed, 0xfa, 0xce]
  if bigEndian then magic else magic.reverse

/-- The file is a binary for the architecture. -/
inductive IsBinary (bytes : List UInt8) (arch : Architecture) : Prop
  /-- The byte at 5 declares the order of the machine's bytes at 18. -/
  | elf (bigEndian : Bool) (hmagic : At bytes 0 [0x7f, 0x45, 0x4c, 0x46])
      (hdata : bytes[5]? = some 2 ↔ bigEndian = true)
      (hmachine : At bytes 18 (ordered bigEndian 2 (elfCode arch)))
  /-- The first bytes declare the order of the processor's at 4. -/
  | macho (bigEndian wide : Bool) (hlength : 20 ≤ bytes.length)
      (hmagic : At bytes 0 (machoMagic bigEndian wide))
      (hcpu : At bytes 4 (ordered bigEndian 4 (machoCode arch)))
  /-- The bytes at `0x3c` say where the header is. -/
  | pe (offset : ℕ) (hoffset : offset < 256 ^ 4) (hmagic : At bytes 0 [0x4d, 0x5a])
      (hpointer : At bytes 0x3c (leBytes 4 offset))
      (hheader : At bytes offset ([0x50, 0x45, 0, 0] ++ leBytes 2 (peCode arch)))

/-- The machine of an ELF header is the code of its architecture. -/
theorem elfMachine_eq_some {machine : ℕ} {arch : Architecture} :
    elfMachine machine = some arch ↔ machine = elfCode arch := by
  unfold elfMachine elfCode
  constructor
  · intro h
    split at h <;> cases h <;> rfl
  · cases arch <;> rintro rfl <;> rfl

/-- The processor of a Mach-O header is the code of its architecture. -/
theorem machoCpu_eq_some {cpu : ℕ} {arch : Architecture} :
    machoCpu cpu = some arch ↔ cpu = machoCode arch := by
  unfold machoCpu machoCode
  constructor
  · intro h
    split at h <;> cases h <;> rfl
  · cases arch <;> rintro rfl <;> rfl

/-- The machine of a PE header is the code of its architecture. -/
theorem peMachine_eq_some {machine : ℕ} {arch : Architecture} :
    peMachine machine = some arch ↔ machine = peCode arch := by
  unfold peMachine peCode
  constructor
  · intro h
    split at h <;> cases h <;> rfl
  · cases arch <;> rintro rfl <;> rfl

/-- INTERNAL: the code fits its two bytes. -/
theorem elfCode_lt (arch : Architecture) : elfCode arch < 256 ^ 2 := by
  cases arch <;> decide

/-- INTERNAL: the code fits its four bytes. -/
theorem machoCode_lt (arch : Architecture) : machoCode arch < 256 ^ 4 := by
  cases arch <;> decide

/-- INTERNAL: the code fits its two bytes. -/
theorem peCode_lt (arch : Architecture) : peCode arch < 256 ^ 2 := by
  cases arch <;> decide

/-! ## What is accepted -/

section Accepted

variable {bytes : List UInt8} {arch : Architecture}

/-- INTERNAL: a part of the header is that part of the file. -/
theorem take_drop_header {position count : ℕ} (h : position + count ≤ 20) :
    ((bytes.take 20).drop position).take count = (bytes.drop position).take count := by
  rw [List.drop_take, List.take_take, Nat.min_eq_left (by omega)]

/-- INTERNAL: reading at a position that the file has. -/
theorem readExactAt_eq_some {position count : ℕ} {part : List UInt8} (hcount : 0 < count) :
    readExactAt bytes position count = some part ↔
      At bytes position part ∧ part.length = count := by
  have hne : ∀ {part : List UInt8}, part.length = count → part ≠ [] := by
    rintro part hlength rfl
    simp at hlength
    omega
  unfold readExactAt
  constructor
  · intro h
    dsimp only at h
    split at h
    · rename_i hlength
      cases h
      exact ⟨(at_iff (hne hlength)).mpr (by rw [hlength]), hlength⟩
    · cases h
  · rintro ⟨hat, hlength⟩
    have hread := (at_iff (hne hlength)).mp hat
    rw [hlength] at hread
    dsimp only
    rw [hread, if_pos hlength]

/-- INTERNAL: what the file begins with. -/
theorem at_zero_iff {part : List UInt8} (hne : part ≠ []) :
    At bytes 0 part ↔ bytes.take part.length = part :=
  at_iff hne

/-- The PE header is where the file says. -/
theorem peArchitecture_eq_some :
    peArchitecture bytes = some arch ↔
      ∃ offset < 256 ^ 4, At bytes 0x3c (leBytes 4 offset) ∧
        At bytes offset ([0x50, 0x45, 0, 0] ++ leBytes 2 (peCode arch)) := by
  constructor
  · intro h
    unfold peArchitecture at h
    split at h
    · cases h
    · rename_i pointer hpointer
      split at h
      · cases h
      · rename_i pe hpe
        obtain ⟨hat, hlength⟩ := (readExactAt_eq_some (by decide)).mp hpointer
        obtain ⟨hheader, hsix⟩ := (readExactAt_eq_some (by decide)).mp hpe
        split at h
        · rename_i hsignature
          have hmachine : pe.drop 4 = leBytes 2 (peCode arch) := by
            rw [← peMachine_eq_some.mp h]
            have hwhole := leBytes_fromLeBytes (pe.drop 4)
            rw [List.length_drop, hsix] at hwhole
            exact hwhole.symm
          refine ⟨fromLeBytes pointer, ?_, ?_, ?_⟩
          · have hbound := fromLeBytes_lt pointer
            rwa [hlength] at hbound
          · have hwhole := leBytes_fromLeBytes pointer
            rw [hlength] at hwhole
            rwa [hwhole]
          · rwa [← hsignature, ← hmachine, List.take_append_drop]
        · cases h
  · rintro ⟨offset, hlt, hpointer, hheader⟩
    unfold peArchitecture
    rw [(readExactAt_eq_some (by decide)).mpr ⟨hpointer, length_leBytes 4 offset⟩]
    simp only [fromLeBytes_leBytes hlt]
    rw [(readExactAt_eq_some (by decide)).mpr
      ⟨hheader, by rw [List.length_append, length_leBytes]; rfl⟩]
    have hmachine : fromLeBytes (([0x50, 0x45, 0, 0] ++ leBytes 2 (peCode arch)).drop 4) =
        peCode arch := fromLeBytes_leBytes (peCode_lt arch)
    simp only [hmachine]
    exact peMachine_eq_some.mpr rfl

/-- INTERNAL: a file that is long enough, read at its positions. -/
theorem binaryArchitecture_eq (hlength : 20 ≤ bytes.length) :
    binaryArchitecture bytes =
      if bytes.take 4 = [0x7f, 0x45, 0x4c, 0x46] then
        elfMachine (if decide (bytes[5]? = some 2) then fromBeBytes ((bytes.drop 18).take 2)
          else fromLeBytes ((bytes.drop 18).take 2))
      else if bytes.take 4 = machoMagic false true ∨ bytes.take 4 = machoMagic false false then
        machoCpu (fromLeBytes ((bytes.drop 4).take 4))
      else if bytes.take 4 = machoMagic true true ∨ bytes.take 4 = machoMagic true false then
        machoCpu (fromBeBytes ((bytes.drop 4).take 4))
      else if bytes.take 2 = [0x4d, 0x5a] then peArchitecture bytes
      else none := by
  have hheader : readExactAt bytes 0 20 = some (bytes.take 20) := by
    unfold readExactAt
    rw [List.drop_zero]
    exact if_pos (List.length_take_of_le hlength)
  have hfour : (bytes.take 20).take 4 = bytes.take 4 := by
    rw [List.take_take]
    rfl
  have htwo : (bytes.take 20).take 2 = bytes.take 2 := by
    rw [List.take_take]
    rfl
  have hdata : (bytes.take 20)[5]? = bytes[5]? := List.getElem?_take_of_lt (by decide)
  have hmachine : ((bytes.take 20).drop 18).take 2 = (bytes.drop 18).take 2 :=
    take_drop_header (by decide)
  have hcpu : ((bytes.take 20).drop 4).take 4 = (bytes.drop 4).take 4 :=
    take_drop_header (by decide)
  unfold binaryArchitecture
  rw [hheader]
  simp only [hfour, htwo, hdata, hmachine, hcpu, decide_eq_true_eq]
  rfl

/-- INTERNAL: a number in a file that is long enough. -/
theorem read_at_iff {bigEndian : Bool} {position count value : ℕ} (hcount : 0 < count)
    (hlength : position + count ≤ bytes.length) (hvalue : value < 256 ^ count) :
    (if bigEndian then fromBeBytes ((bytes.drop position).take count)
      else fromLeBytes ((bytes.drop position).take count)) = value ↔
      At bytes position (ordered bigEndian count value) := by
  have hpart : ((bytes.drop position).take count).length = count := by
    rw [List.length_take_of_le]
    rw [List.length_drop]
    omega
  have hne : ordered bigEndian count value ≠ [] := by
    intro hnil
    have hzero := length_ordered bigEndian count value
    rw [hnil] at hzero
    simp at hzero
    omega
  rw [read_ordered_iff hpart hvalue, at_iff hne, length_ordered]

/-- INTERNAL: what stands in a file bounds its length. -/
theorem At.length_le {position : ℕ} {part : List UInt8} (h : At bytes position part) :
    position + part.length ≤ bytes.length := by
  obtain ⟨before, after, rfl, rfl⟩ := h
  simp only [List.length_append]
  omega

/-- INTERNAL: a file begins in one way. -/
theorem At.take_eq {part : List UInt8} (h : At bytes 0 part) : bytes.take part.length = part := by
  obtain ⟨before, after, rfl, hnil⟩ := h
  rw [List.length_eq_zero_iff.mp hnil, List.nil_append, List.take_left]

/-- INTERNAL: a magic number has four bytes. -/
theorem length_machoMagic (bigEndian wide : Bool) : (machoMagic bigEndian wide).length = 4 := by
  cases bigEndian <;> cases wide <;> rfl

/-- **The architecture of a binary** is found exactly for the files of the three formats. -/
theorem binaryArchitecture_iff (bytes : List UInt8) (arch : Architecture) :
    binaryArchitecture bytes = some arch ↔ IsBinary bytes arch := by
  constructor
  · intro h
    obtain hlength | hshort := (Nat.lt_or_ge bytes.length 20).symm
    · rw [binaryArchitecture_eq hlength] at h
      have hcpu : ∀ {bigEndian wide : Bool}, bytes.take 4 = machoMagic bigEndian wide →
          machoCpu (if bigEndian then fromBeBytes ((bytes.drop 4).take 4)
            else fromLeBytes ((bytes.drop 4).take 4)) = some arch → IsBinary bytes arch := by
        intro bigEndian wide hmagic hsome
        refine .macho bigEndian wide hlength ?_ ?_
        · rw [at_zero_iff (by cases bigEndian <;> cases wide <;> decide), length_machoMagic, hmagic]
        · exact (read_at_iff (by decide) (by omega) (machoCode_lt arch)).mp
            (machoCpu_eq_some.mp hsome)
      split at h
      · rename_i hmagic
        refine .elf (decide (bytes[5]? = some 2)) ?_ (by simp) ?_
        · exact (at_zero_iff (by decide)).mpr hmagic
        · exact (read_at_iff (by decide) (by omega) (elfCode_lt arch)).mp (elfMachine_eq_some.mp h)
      · split at h
        · rename_i hmagic
          obtain hmagic | hmagic := hmagic
          · exact hcpu hmagic h
          · exact hcpu hmagic h
        · split at h
          · rename_i hmagic
            obtain hmagic | hmagic := hmagic
            · exact hcpu hmagic h
            · exact hcpu hmagic h
          · split at h
            · rename_i hmagic
              obtain ⟨offset, hlt, hpointer, hheader⟩ := peArchitecture_eq_some.mp h
              exact .pe offset hlt ((at_zero_iff (by decide)).mpr hmagic) hpointer hheader
            · cases h
    · have hnone : binaryArchitecture bytes = none := by
        have hread : readExactAt bytes 0 20 = none := by
          unfold readExactAt
          refine if_neg ?_
          rw [List.drop_zero, List.length_take]
          omega
        unfold binaryArchitecture
        rw [hread]
      rw [hnone] at h
      cases h
  · intro h
    cases h with
    | elf bigEndian hmagic hdata hmachine =>
      have hlength := hmachine.length_le
      rw [length_ordered] at hlength
      have hfirst : bytes.take 4 = [0x7f, 0x45, 0x4c, 0x46] := hmagic.take_eq
      have hbig : decide (bytes[5]? = some 2) = bigEndian := by
        rw [Bool.eq_iff_iff, decide_eq_true_eq, hdata]
      rw [binaryArchitecture_eq (by omega), if_pos hfirst, hbig]
      exact elfMachine_eq_some.mpr
        ((read_at_iff (by decide) (by omega) (elfCode_lt arch)).mpr hmachine)
    | macho bigEndian wide hlength hmagic hcpu =>
      have hfirst := hmagic.take_eq
      rw [length_machoMagic] at hfirst
      have hread := machoCpu_eq_some.mpr
        ((read_at_iff (by decide) (by omega) (machoCode_lt arch)).mpr hcpu)
      rw [binaryArchitecture_eq hlength, hfirst]
      cases bigEndian <;> cases wide <;> exact hread
    | pe offset hlt hmagic hpointer hheader =>
      have hlength := hpointer.length_le
      rw [length_leBytes] at hlength
      have hfirst : bytes.take 2 = [0x4d, 0x5a] := hmagic.take_eq
      have hother : ∀ magic : List UInt8, magic.take 2 ≠ [0x4d, 0x5a] → bytes.take 4 ≠ magic := by
        rintro _ hne rfl
        rw [List.take_take] at hne
        exact hne hfirst
      rw [binaryArchitecture_eq (by omega), if_neg (hother _ (by decide)),
        if_neg (not_or.mpr ⟨hother _ (by decide), hother _ (by decide)⟩),
        if_neg (not_or.mpr ⟨hother _ (by decide), hother _ (by decide)⟩), if_pos hfirst]
      exact peArchitecture_eq_some.mpr ⟨offset, hlt, hpointer, hheader⟩

end Accepted

end REnvTools.Analysis
