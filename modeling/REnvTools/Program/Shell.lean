import REnvTools.Lib.Utf8
import REnvTools.Program.Text

/-!
# Shell arguments

How the program writes an argument into a startup command.

SRC: crates/ret-core/src/shell.rs
-/

set_option autoImplicit false

namespace REnvTools.Program

open REnvTools.Lib

/-- `u8::is_ascii_alphanumeric`. -/
def isAsciiAlphanumeric (byte : UInt8) : Bool :=
  (48 ≤ byte && byte ≤ 57) || (65 ≤ byte && byte ≤ 90) || (97 ≤ byte && byte ≤ 122)

/-- The other bytes that are left unquoted: those of `_@%+=:,./` and the hyphen. -/
def portableBytes : List UInt8 :=
  ['_', '@', '%', '+', '=', ':', ',', '.', '/', '-'].map Char.toUInt8

/-- The test of a byte in `quote_shell_argument`. -/
def isPortable (byte : UInt8) : Bool := isAsciiAlphanumeric byte || portableBytes.contains byte

/-- `quote_shell_argument`. -/
def quoteShellArgument (argument : String) : String :=
  if argument ≠ "" ∧ (utf8Bytes argument).all isPortable then argument
  else "'" ++ replaceChar argument '\'' "'\"'\"'" ++ "'"

end REnvTools.Program
