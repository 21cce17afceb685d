import DocComment.Json.Basic

/-!
# Reading JSON

`Json.parse?` reads the text of one value with blanks around it.  Each scanner takes the text that
is left and returns what it read together with the rest.  The three scanners of values, elements and
members call each other, so they carry a bound on their calls, which `parse?` computes from the
length of the text: every second call reads at least one character.
-/

namespace DocComment.Json

/-! ## Tokens -/

/-- The characters that may stand between two tokens. -/
def isGap (c : Char) : Bool :=
  c == ' ' || c == '\t' || c == '\n' || c == '\r'

/-- The text after the blanks at its start. -/
def skipGap (cs : List Char) : List Char :=
  cs.dropWhile isGap

/-- The text after the given word, if it starts with it. -/
def after? : List Char → List Char → Option (List Char)
  | [], cs => some cs
  | w :: word, c :: cs => if w = c then after? word cs else none
  | _ :: _, [] => none

/-! ## Strings -/

/-- The value of a hexadecimal digit in either case. -/
def hexValue? (c : Char) : Option Nat :=
  if '0' ≤ c ∧ c ≤ '9' then some (c.toNat - '0'.toNat)
  else if 'a' ≤ c ∧ c ≤ 'f' then some (c.toNat - 'a'.toNat + 10)
  else if 'A' ≤ c ∧ c ≤ 'F' then some (c.toNat - 'A'.toNat + 10)
  else none

/-- The UTF-16 unit written with four hexadecimal digits. -/
def unit? (a b c d : Char) : Option Nat := do
  let high := (← hexValue? a) * 16 + (← hexValue? b)
  let low := (← hexValue? c) * 16 + (← hexValue? d)
  return high * 256 + low

/-- Whether the unit opens a surrogate pair. -/
def isLeadUnit (n : Nat) : Bool := 0xD800 ≤ n && n < 0xDC00

/-- Whether the unit closes a surrogate pair. -/
def isTrailUnit (n : Nat) : Bool := 0xDC00 ≤ n && n < 0xE000

/-- The character of a surrogate pair. -/
def pairChar (lead trail : Nat) : Char :=
  Char.ofNat (0x10000 + (lead - 0xD800) * 0x400 + (trail - 0xDC00))

/-- The character of a one-letter escape. -/
def escaped? : Char → Option Char
  | '"' => some '"'
  | '\\' => some '\\'
  | '/' => some '/'
  | 'b' => some '\x08'
  | 'f' => some '\x0c'
  | 'n' => some '\n'
  | 'r' => some '\r'
  | 't' => some '\t'
  | _ => none

/-- What stands between the quotes of a string literal: characters, and UTF-16 units by number. -/
inductive Piece where
  | char (c : Char)
  | unit (n : Nat)
deriving Repr, DecidableEq

/-- Puts a piece in front of the pieces that were read. -/
def consPiece (piece : Piece) :
    Option (List Piece × List Char) → Option (List Piece × List Char)
  | some (pieces, rest) => some (piece :: pieces, rest)
  | none => none

/-- The rest of a string literal, after its opening quote.  A raw control character ends in
failure. -/
def stringPieces : List Char → Option (List Piece × List Char)
  | [] => none
  | '"' :: rest => some ([], rest)
  | '\\' :: 'u' :: a :: b :: c :: d :: rest =>
    match unit? a b c d with
    | some n => consPiece (.unit n) (stringPieces rest)
    | none => none
  | '\\' :: e :: rest =>
    match escaped? e with
    | some c => consPiece (.char c) (stringPieces rest)
    | none => none
  | c :: rest => if c.toNat < 0x20 then none else consPiece (.char c) (stringPieces rest)

/-- The characters that the pieces denote, where `lead` is a unit that may open a surrogate pair
with the next one.  A surrogate without its partner becomes the replacement character. -/
def pieceChars : Option Nat → List Piece → List Char
  | none, [] => []
  | some _, [] => ['\uFFFD']
  | none, .char c :: pieces => c :: pieceChars none pieces
  | some _, .char c :: pieces => '\uFFFD' :: c :: pieceChars none pieces
  | none, .unit n :: pieces =>
    if isLeadUnit n then pieceChars (some n) pieces
    else (if isTrailUnit n then '\uFFFD' else Char.ofNat n) :: pieceChars none pieces
  | some lead, .unit n :: pieces =>
    if isTrailUnit n then pairChar lead n :: pieceChars none pieces
    else if isLeadUnit n then '\uFFFD' :: pieceChars (some n) pieces
    else '\uFFFD' :: Char.ofNat n :: pieceChars none pieces

/-- A string literal. -/
def string? : List Char → Option (String × List Char)
  | '"' :: cs => (stringPieces cs).map fun (pieces, rest) =>
    (String.ofList (pieceChars none pieces), rest)
  | _ => none

/-! ## Numbers -/

/-- Whether the character is a decimal digit. -/
def isDigit (c : Char) : Bool := '0' ≤ c && c ≤ '9'

/-- The number written by decimal digits. -/
def digitsValue (digits : List Char) : Nat :=
  digits.foldl (fun n c => n * 10 + (c.toNat - '0'.toNat)) 0

/-- The digits before the point: a single zero, or digits that do not start with one. -/
def wholePart? : List Char → Option (List Char × List Char)
  | '0' :: cs => some (['0'], cs)
  | c :: cs =>
    if isDigit c then some (c :: cs.takeWhile isDigit, cs.dropWhile isDigit) else none
  | [] => none

/-- The point and the digits after it, if both are there. -/
def fraction : List Char → List Char × List Char
  | '.' :: c :: cs =>
    if isDigit c then ('.' :: c :: cs.takeWhile isDigit, cs.dropWhile isDigit)
    else ([], '.' :: c :: cs)
  | cs => ([], cs)

/-- The exponent mark, its sign and its digits, if a digit is there. -/
def exponent : List Char → List Char × List Char
  | e :: cs =>
    if e = 'e' ∨ e = 'E' then
      match cs with
      | sign :: c :: tail =>
        if (sign = '+' ∨ sign = '-') ∧ isDigit c then
          (e :: sign :: c :: tail.takeWhile isDigit, tail.dropWhile isDigit)
        else if isDigit sign then
          (e :: sign :: (c :: tail).takeWhile isDigit, (c :: tail).dropWhile isDigit)
        else ([], e :: cs)
      | [c] => if isDigit c then ([e, c], []) else ([], e :: cs)
      | [] => ([], e :: cs)
    else ([], e :: cs)
  | [] => ([], [])

/-- A number without its sign. -/
def unsigned? (negative : Bool) (cs : List Char) : Option (Json × List Char) := do
  let (whole, rest) ← wholePart? cs
  let (point, rest) := fraction rest
  let (power, rest) := exponent rest
  if point.isEmpty && power.isEmpty then
    let value : Int := digitsValue whole
    return (.int (if negative then -value else value), rest)
  else
    let digits := whole ++ point ++ power
    return (.real (String.ofList (if negative then '-' :: digits else digits)), rest)

/-- A number.  The words for the infinities and for no number are read as well. -/
def number? : List Char → Option (Json × List Char)
  | '-' :: 'I' :: cs => (after? "nfinity".toList cs).map fun rest => (.real "-inf", rest)
  | '-' :: cs => unsigned? true cs
  | 'I' :: cs => (after? "nfinity".toList cs).map fun rest => (.real "inf", rest)
  | 'N' :: cs => (after? "aN".toList cs).map fun rest => (.real "nan", rest)
  | cs => unsigned? false cs

/-! ## Values -/

mutual

/-- A value that starts at the first character. -/
def value? : Nat → List Char → Option (Json × List Char)
  | 0, _ => none
  | bound + 1, cs =>
    match cs with
    | '"' :: _ => (string? cs).map fun (s, rest) => (.str s, rest)
    | 'n' :: tail => (after? "ull".toList tail).map fun rest => (.null, rest)
    | 't' :: tail => (after? "rue".toList tail).map fun rest => (.bool true, rest)
    | 'f' :: tail => (after? "alse".toList tail).map fun rest => (.bool false, rest)
    | '[' :: tail =>
      match skipGap tail with
      | ']' :: rest => some (.arr [], rest)
      | tail => (elements? bound tail).map fun (elements, rest) => (.arr elements, rest)
    | '{' :: tail =>
      match skipGap tail with
      | '}' :: rest => some (.obj [], rest)
      | tail => (members? bound tail).map fun (members, rest) => (ofMembers members, rest)
    | _ => number? cs

/-- One element or more, through the closing bracket. -/
def elements? : Nat → List Char → Option (List Json × List Char)
  | 0, _ => none
  | bound + 1, cs =>
    match value? bound cs with
    | none => none
    | some (element, rest) =>
      match skipGap rest with
      | ']' :: rest => some ([element], rest)
      | ',' :: rest =>
        (elements? bound (skipGap rest)).map fun (elements, rest) => (element :: elements, rest)
      | _ => none

/-- One member or more, through the closing brace. -/
def members? : Nat → List Char → Option (List (String × Json) × List Char)
  | 0, _ => none
  | bound + 1, cs =>
    match string? cs with
    | none => none
    | some (name, rest) =>
      match skipGap rest with
      | ':' :: rest =>
        match value? bound (skipGap rest) with
        | none => none
        | some (value, rest) =>
          match skipGap rest with
          | '}' :: rest => some ([(name, value)], rest)
          | ',' :: rest =>
            (members? bound (skipGap rest)).map fun (members, rest) =>
              ((name, value) :: members, rest)
          | _ => none
      | _ => none

end

/-- The value that the whole text denotes, if it is the text of one value. -/
def parse? (text : String) : Option Json :=
  let cs := skipGap text.toList
  match value? (2 * cs.length + 2) cs with
  | some (value, rest) => if (skipGap rest).isEmpty then some value else none
  | none => none

end DocComment.Json
