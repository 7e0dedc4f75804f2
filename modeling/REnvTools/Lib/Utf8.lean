import Mathlib.Data.List.Basic

/-!
# Text as UTF-8 bytes

The bytes of a text, what they say about its characters (`ascii_of_mem_encode`: an ASCII
byte is a character of its own), and the text a sequence of bytes is the encoding of.
-/

set_option autoImplicit false

namespace REnvTools.Lib

/-- The UTF-8 bytes of a text. -/
def utf8Bytes (s : String) : List UInt8 := s.toList.flatMap String.utf8EncodeChar

/-- The text that bytes are the encoding of, if they are valid UTF-8. -/
def utf8Text (bytes : List UInt8) : Option String := String.fromUTF8? bytes.toByteArray

/-- INTERNAL: the list of bytes is the byte array of the text. -/
theorem toByteArray_utf8Bytes (s : String) : (utf8Bytes s).toByteArray = s.toByteArray := by
  conv_rhs => rw [← String.ofList_toList (s := s), String.toByteArray_ofList]
  rfl

/-- INTERNAL: a byte array determines the list it was made from. -/
theorem toByteArray_injective {bytes bytes' : List UInt8}
    (h : bytes.toByteArray = bytes'.toByteArray) : bytes = bytes' := by
  have hdata := congrArg (·.data.toList) h
  simpa only [List.toList_data_toByteArray] using hdata

/-- Bytes are read as a text exactly if they are its encoding. -/
theorem utf8Text_eq_some {bytes : List UInt8} {s : String} :
    utf8Text bytes = some s ↔ bytes = utf8Bytes s := by
  unfold utf8Text
  constructor
  · intro h
    apply toByteArray_injective
    rw [toByteArray_utf8Bytes]
    unfold String.fromUTF8? at h
    split at h
    · rw [← Option.some.inj h]
      rfl
    · cases h
  · intro h
    subst h
    rw [toByteArray_utf8Bytes]
    unfold String.fromUTF8?
    rw [dif_pos s.isValidUTF8]
    rfl

/-- The text is read back from its bytes. -/
@[simp] theorem utf8Text_utf8Bytes (s : String) : utf8Text (utf8Bytes s) = some s :=
  utf8Text_eq_some.mpr rfl

/-- The bytes of two texts, one after the other. -/
@[simp] theorem utf8Bytes_append (s t : String) :
    utf8Bytes (s ++ t) = utf8Bytes s ++ utf8Bytes t := by
  simp only [utf8Bytes, String.toList_append, List.flatMap_append]

/-- The bytes of a text are those of its characters. -/
@[simp] theorem utf8Bytes_ofList (l : List Char) :
    utf8Bytes (String.ofList l) = l.flatMap String.utf8EncodeChar := by
  simp only [utf8Bytes, String.toList_ofList]

/-! ## ASCII -/

/-- INTERNAL: an ASCII character is one byte. -/
theorem encode_of_ascii {c : Char} (h : c.toNat < 128) :
    String.utf8EncodeChar c = [UInt8.ofNat c.toNat] := by
  have hc : c.val.toNat ≤ 127 := Nat.le_of_lt_succ h
  unfold String.utf8EncodeChar
  dsimp only
  rw [if_pos hc]
  rfl

/-- An ASCII text has as many bytes as characters. -/
theorem length_utf8Bytes_of_ascii {s : String} (h : ∀ c ∈ s.toList, c.toNat < 128) :
    (utf8Bytes s).length = s.toList.length := by
  have hone : ∀ c ∈ s.toList, (String.utf8EncodeChar c).length = 1 := by
    intro c hc
    rw [encode_of_ascii (h c hc), List.length_singleton]
  unfold utf8Bytes
  rw [List.length_flatMap, List.map_congr_left hone]
  simp

/-- An ASCII byte of a character's encoding is the character. -/
theorem ascii_of_mem_encode {c : Char} {b : UInt8} (hb : b ∈ String.utf8EncodeChar c)
    (hascii : b < 128) : c.toNat = b.toNat := by
  have hlt : b.toNat < 128 := UInt8.lt_iff_toNat_lt.mp hascii
  unfold String.utf8EncodeChar at hb
  unfold Char.toNat
  dsimp only at hb
  split at hb
  · obtain rfl := List.mem_singleton.mp hb
    rw [UInt8.toNat_ofNat']
    omega
  · exfalso
    split at hb
    · simp only [List.mem_cons, List.not_mem_nil, or_false] at hb
      obtain rfl | rfl := hb <;> rw [UInt8.toNat_ofNat'] at hlt <;> omega
    · split at hb <;> simp only [List.mem_cons, List.not_mem_nil, or_false] at hb
      · obtain rfl | rfl | rfl := hb <;> rw [UInt8.toNat_ofNat'] at hlt <;> omega
      · obtain rfl | rfl | rfl | rfl := hb <;> rw [UInt8.toNat_ofNat'] at hlt <;> omega

end REnvTools.Lib
