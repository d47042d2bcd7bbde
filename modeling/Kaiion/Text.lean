import Mathlib.Data.Nat.Basic

/-! Unicode white space, as Rust's string functions see it. -/
namespace Kaiion

/-- Unicode White_Space, as `char::is_whitespace` tests it. -/
def isWhitespace (char : Char) : Bool :=
  (0x09 ≤ char.toNat && char.toNat ≤ 0x0D) || char.toNat = 0x20 || char.toNat = 0x85 ||
  char.toNat = 0xA0 || char.toNat = 0x1680 || (0x2000 ≤ char.toNat && char.toNat ≤ 0x200A) ||
  char.toNat = 0x2028 || char.toNat = 0x2029 || char.toNat = 0x202F || char.toNat = 0x205F ||
  char.toNat = 0x3000

/-- `text.trim().is_empty()`. -/
def isBlank (text : String) : Bool := text.toList.all isWhitespace

end Kaiion
