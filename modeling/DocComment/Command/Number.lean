import DocComment.Text.Blank

/-!
# Integers on the command line

An integer is an optional sign and decimal digits of any script, with blanks around it; single
underscores may stand between digits.
-/

namespace DocComment.Command

open Text

/-- The zeros of the decimal digits; nine more digits follow each of them. -/
def zeroDigits : List Nat := [
  0x0030, 0x0660, 0x06F0, 0x07C0, 0x0966, 0x09E6, 0x0A66, 0x0AE6, 0x0B66, 0x0BE6, 0x0C66, 0x0CE6,
  0x0D66, 0x0DE6, 0x0E50, 0x0ED0, 0x0F20, 0x1040, 0x1090, 0x17E0, 0x1810, 0x1946, 0x19D0, 0x1A80,
  0x1A90, 0x1B50, 0x1BB0, 0x1C40, 0x1C50, 0xA620, 0xA8D0, 0xA900, 0xA9D0, 0xA9F0, 0xAA50, 0xABF0,
  0xFF10, 0x104A0, 0x10D30, 0x11066, 0x110F0, 0x11136, 0x111D0, 0x112F0, 0x11450, 0x114D0, 0x11650,
  0x116C0, 0x11730, 0x118E0, 0x11950, 0x11C50, 0x11D50, 0x11DA0, 0x16A60, 0x16AC0, 0x16B50, 0x1D7CE,
  0x1D7D8, 0x1D7E2, 0x1D7EC, 0x1D7F6, 0x1E140, 0x1E2F0, 0x1E950, 0x1FBF0]

/-- The value of a decimal digit. -/
def digitValue? (c : Char) : Option Nat :=
  (zeroDigits.find? fun start => start ≤ c.toNat && c.toNat < start + 10).map (c.toNat - ·)

/-- The number written by digits after the ones that denote `value`.  An underscore may stand only
between two digits, so the text may neither start nor end with one. -/
def readDigits? : (value : Nat) → (afterDigit : Bool) → List Char → Option Nat
  | value, afterDigit, [] => if afterDigit then some value else none
  | value, afterDigit, c :: cs =>
    if c = '_' then if afterDigit then readDigits? value false cs else none
    else
      match digitValue? c with
      | some digit => readDigits? (value * 10 + digit) true cs
      | none => none

/-- Whether a blank may stand around an integer; the separator controls of ASCII may not. -/
def isAroundNumber (c : Char) : Bool :=
  isBlank c && !(0x1C ≤ c.toNat && c.toNat ≤ 0x1F)

/-- The integer that a text denotes. -/
def readInt? (text : String) : Option Int :=
  match trim isAroundNumber text.toList with
  | '-' :: cs => (readDigits? 0 false cs).map fun n => -(n : Int)
  | '+' :: cs => (readDigits? 0 false cs).map Int.ofNat
  | cs => (readDigits? 0 false cs).map Int.ofNat

end DocComment.Command
