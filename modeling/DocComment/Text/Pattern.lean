/-!
# Patterns

A pattern describes a set of texts.  `Pattern.rests` lists what may be left of a text after a part
that matches the pattern, so a pattern matches at the start of a text if there is any rest, and the
whole text if the empty one is among them.
-/

namespace DocComment.Text

/-- A set of texts, built from classes of characters. -/
inductive Pattern where
  /-- One character of a class. -/
  | one (p : Char → Bool)
  /-- Any number of characters of a class. -/
  | many (p : Char → Bool)
  /-- One part after the other. -/
  | sequence (parts : List Pattern)
  /-- Any one of the parts. -/
  | choice (parts : List Pattern)
  /-- The part, or nothing. -/
  | optional (part : Pattern)
  /-- The part any number of times. -/
  | repeated (part : Pattern)

namespace Pattern

/-- Every suffix that is reached over characters of a class. -/
def suffixesOver (p : Char → Bool) : List Char → List (List Char)
  | [] => [[]]
  | c :: cs => (c :: cs) :: if p c then suffixesOver p cs else []

/-- Keeps one suffix of each length. -/
def distinct : List (List Char) → List (List Char) → List (List Char)
  | _, [] => []
  | seen, cs :: rests =>
    if seen.any fun other => other.length == cs.length then distinct seen rests
    else cs :: distinct (cs :: seen) rests

/-- The rests of at most `bound` rounds of a step, the ones after no round first.  A round that
reads nothing leads nowhere new. -/
def rounds (step : List Char → List (List Char)) : Nat → List (List Char) → List (List Char)
  | 0, rests => rests
  | bound + 1, rests =>
    let next := rests.flatMap fun cs => (step cs).filter fun rest => rest.length < cs.length
    match distinct [] next with
    | [] => rests
    | next => rests ++ rounds step bound next

mutual

/-- What may be left of a text after a match at its start. -/
def rests : Pattern → List Char → List (List Char)
  | .one _, [] => []
  | .one p, c :: cs => if p c then [cs] else []
  | .many p, cs => suffixesOver p cs
  | .sequence parts, cs => restsOfAll parts cs
  | .choice parts, cs => restsOfAny parts cs
  | .optional part, cs => cs :: rests part cs
  | .repeated part, cs => rounds (rests part) cs.length [cs]

/-- What may be left after a match of one of the parts. -/
def restsOfAny : List Pattern → List Char → List (List Char)
  | [], _ => []
  | part :: parts, cs => rests part cs ++ restsOfAny parts cs

/-- What may be left after matches of all parts in order. -/
def restsOfAll : List Pattern → List Char → List (List Char)
  | [], cs => [cs]
  | part :: parts, cs => (rests part cs).flatMap (restsOfAll parts)

end

/-- Whether the pattern matches the whole text. -/
def matchesAll (pattern : Pattern) (cs : List Char) : Bool :=
  (pattern.rests cs).any List.isEmpty

/-- The pattern of exactly one character. -/
def char (c : Char) : Pattern :=
  .one (· == c)

/-- The pattern of at least one character of a class. -/
def oneOrMore (p : Char → Bool) : Pattern :=
  .sequence [.one p, .many p]

end Pattern

end DocComment.Text
