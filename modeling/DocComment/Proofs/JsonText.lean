import DocComment.Json.Parser
import DocComment.Json.Printer
import Mathlib.Data.List.Basic
import Mathlib.Data.List.TakeWhile
import Mathlib.Tactic.SplitIfs

/-!
# Reading written JSON

The printer and the parser of JSON are inverse on every value that can be written exactly: all but
the numbers with a fraction, and objects that name a member twice.  `value?_write` states this in
the middle of a text, where what follows must not continue a number; `parse?_render_gap` states it
of whole texts, for every layout and with blanks behind.

The leaves come first: string literals character by character, then integers.
-/

namespace DocComment.Json

open Text

/-! ## String literals -/

theorem unit?_hexDigits {n : Nat} (h : n < 32) :
    ∃ a b c d, hexDigits 4 n = [a, b, c, d] ∧ unit? a b c d = some n := by
  have key : ∀ n < 32, unit? ((hexDigits 4 n)[0]!) ((hexDigits 4 n)[1]!) ((hexDigits 4 n)[2]!)
      ((hexDigits 4 n)[3]!) = some n := by decide
  exact ⟨_, _, _, _, rfl, key n h⟩

theorem stringPieces_cons {c : Char} (hquote : c ≠ '"') (hslash : c ≠ '\\') (rest : List Char) :
    stringPieces (c :: rest)
      = if c.toNat < 0x20 then none else consPiece (.char c) (stringPieces rest) := by
  rw [stringPieces.eq_def]
  split <;> simp_all

/-- An escaped character is one piece, which denotes the character. -/
theorem stringPieces_escapeChar (c : Char) :
    ∃ piece, (∀ rest, stringPieces (escapeChar c ++ rest) = consPiece piece (stringPieces rest))
      ∧ ∀ pieces, pieceChars none (piece :: pieces) = c :: pieceChars none pieces := by
  unfold escapeChar
  split_ifs with hquote hslash hnewline hreturn htab hback hfeed hcontrol
  · exact ⟨.char c, fun rest => by simp [stringPieces, escaped?, hquote], fun pieces => rfl⟩
  · exact ⟨.char c, fun rest => by simp [stringPieces, escaped?, hslash], fun pieces => rfl⟩
  · exact ⟨.char c, fun rest => by simp [stringPieces, escaped?, hnewline], fun pieces => rfl⟩
  · exact ⟨.char c, fun rest => by simp [stringPieces, escaped?, hreturn], fun pieces => rfl⟩
  · exact ⟨.char c, fun rest => by simp [stringPieces, escaped?, htab], fun pieces => rfl⟩
  · exact ⟨.char c, fun rest => by simp [stringPieces, escaped?, hback], fun pieces => rfl⟩
  · exact ⟨.char c, fun rest => by simp [stringPieces, escaped?, hfeed], fun pieces => rfl⟩
  · -- the other control characters are written by number
    obtain ⟨a, b, x, y, hdigits, hunit⟩ := unit?_hexDigits hcontrol
    refine ⟨.unit c.toNat, fun rest => by simp [hdigits, stringPieces, hunit], fun pieces => ?_⟩
    have hlead : isLeadUnit c.toNat = false := by simp [isLeadUnit]; omega
    have htrail : isTrailUnit c.toNat = false := by simp [isTrailUnit]; omega
    simp [pieceChars, hlead, htrail]
  · refine ⟨.char c, fun rest => ?_, fun pieces => rfl⟩
    rw [List.singleton_append, stringPieces_cons hquote hslash, if_neg hcontrol]

theorem stringPieces_flatMap (cs : List Char) :
    ∃ pieces, (∀ rest, stringPieces (cs.flatMap escapeChar ++ '"' :: rest) = some (pieces, rest))
      ∧ pieceChars none pieces = cs := by
  induction cs with
  | nil => exact ⟨[], fun rest => by simp [stringPieces], rfl⟩
  | cons c cs ih =>
      obtain ⟨pieces, hread, hdenote⟩ := ih
      obtain ⟨piece, hfirst, hchar⟩ := stringPieces_escapeChar c
      refine ⟨piece :: pieces, fun rest => ?_, by rw [hchar, hdenote]⟩
      rw [List.flatMap_cons, List.append_assoc, hfirst, hread, consPiece]

/-- A written string literal is read back, whatever characters it holds. -/
theorem string?_writeString (s : String) (rest : List Char) :
    string? (writeString s ++ rest) = some (s, rest) := by
  obtain ⟨pieces, hread, hdenote⟩ := stringPieces_flatMap s.toList
  simp [writeString, string?, hread, hdenote]

/-! ## Integers -/

/-- Whether a text does not go on with a number that ends before it. -/
def EndsNumber (rest : List Char) : Prop :=
  ∀ c ∈ rest.head?, isDigit c = false ∧ c ≠ '.' ∧ c ≠ 'e' ∧ c ≠ 'E'

theorem isDigit_eq (c : Char) : isDigit c = c.isDigit := by
  simp [isDigit, Char.isDigit, Char.le_def]

theorem isDigit_of_mem_toDigits {n : Nat} {c : Char} (h : c ∈ Nat.toDigits 10 n) :
    isDigit c = true := by
  rw [isDigit_eq]
  exact Nat.isDigit_of_mem_toDigits (by decide) (by decide) h

theorem digitsValue_toDigits (n : Nat) : digitsValue (Nat.toDigits 10 n) = n := by
  have h : Nat.ofDigitChars 10 (Nat.toDigits 10 n) 0 = n := Nat.ofDigitChars_ten_toDigits
  simpa only [digitsValue, Nat.ofDigitChars_eq_foldl, Nat.mul_comm 10] using h

/-- Only zero is written with a leading zero. -/
theorem head?_toDigits {n : Nat} (h : (Nat.toDigits 10 n).head? = some '0') : n = 0 := by
  induction n using Nat.strongRecOn with
  | ind n ih =>
      rw [Nat.toDigits_eq_if (by decide)] at h
      split_ifs at h with hn
      · simpa using h
      · -- the first digit of a number of more digits is that of its tenth
        have hpos : n / 10 ≠ 0 := by omega
        rw [List.head?_append_of_ne_nil _ Nat.toDigits_ne_nil] at h
        exact absurd (ih (n / 10) (by omega) h) hpos

/-- Digits are read up to a text that ends the number. -/
theorem span_digits {digits rest : List Char} (hd : ∀ c ∈ digits, isDigit c = true)
    (hr : EndsNumber rest) :
    (digits ++ rest).takeWhile isDigit = digits ∧ (digits ++ rest).dropWhile isDigit = rest := by
  have hstop : rest.takeWhile isDigit = [] ∧ rest.dropWhile isDigit = rest := by
    cases rest with
    | nil => exact ⟨rfl, rfl⟩
    | cons c rest => simp [(hr c rfl).1]
  rw [List.takeWhile_append_of_pos hd, List.dropWhile_append_of_pos hd, hstop.1, hstop.2]
  simp

theorem wholePart?_toDigits (n : Nat) {rest : List Char} (h : EndsNumber rest) :
    wholePart? (Nat.toDigits 10 n ++ rest) = some (Nat.toDigits 10 n, rest) := by
  cases hdigits : Nat.toDigits 10 n with
  | nil => exact absurd hdigits Nat.toDigits_ne_nil
  | cons c cs =>
      have hall : ∀ d ∈ c :: cs, isDigit d = true := fun d hd =>
        isDigit_of_mem_toDigits (hdigits ▸ hd)
      by_cases hc : c = '0'
      · -- a leading zero ends the whole part, but it leads nothing but zero itself
        have hn : n = 0 := head?_toDigits (by rw [hdigits, hc]; rfl)
        rw [hn, Nat.toDigits_zero] at hdigits
        obtain ⟨rfl, rfl⟩ := List.cons_eq_cons.mp hdigits
        rfl
      · obtain ⟨htake, hdrop⟩ := span_digits (fun d hd => hall d (List.mem_cons_of_mem c hd)) h
        rw [List.cons_append, wholePart?.eq_def]
        simp [hall c List.mem_cons_self, htake, hdrop]

theorem fraction_of_endsNumber {rest : List Char} (h : EndsNumber rest) :
    fraction rest = ([], rest) := by
  cases rest with
  | nil => rfl
  | cons c rest =>
      have hc : c ≠ '.' := (h c rfl).2.1
      rw [fraction.eq_def]
      split <;> simp_all

theorem exponent_of_endsNumber {rest : List Char} (h : EndsNumber rest) :
    exponent rest = ([], rest) := by
  cases rest with
  | nil => rfl
  | cons c rest =>
      obtain ⟨-, -, he, hE⟩ := h c rfl
      simp [exponent, he, hE]

theorem unsigned?_toDigits (negative : Bool) (n : Nat) {rest : List Char} (h : EndsNumber rest) :
    unsigned? negative (Nat.toDigits 10 n ++ rest)
      = some (.int (if negative then -(n : Int) else n), rest) := by
  simp [unsigned?, wholePart?_toDigits n h, fraction_of_endsNumber h, exponent_of_endsNumber h,
    digitsValue_toDigits]

/-- The first digit of an integer, with the rest of its digits. -/
theorem toDigits_eq_cons (n : Nat) :
    ∃ c cs, Nat.toDigits 10 n = c :: cs ∧ isDigit c = true := by
  cases hdigits : Nat.toDigits 10 n with
  | nil => exact absurd hdigits Nat.toDigits_ne_nil
  | cons c cs => exact ⟨c, cs, rfl, isDigit_of_mem_toDigits (hdigits ▸ List.mem_cons_self)⟩

theorem number?_of_isDigit {c : Char} (hc : isDigit c = true) (cs : List Char) :
    number? (c :: cs) = unsigned? false (c :: cs) := by
  rw [number?.eq_def]
  split <;> simp_all [isDigit]

theorem number?_minus {c : Char} (hc : isDigit c = true) (cs : List Char) :
    number? ('-' :: c :: cs) = unsigned? true (c :: cs) := by
  rw [number?.eq_def]
  split <;> simp_all [isDigit]

/-- A written integer is read back, whatever its size. -/
theorem number?_writeInt (value : Int) {rest : List Char} (h : EndsNumber rest) :
    number? (writeInt value ++ rest) = some (.int value, rest) := by
  cases value with
  | ofNat n =>
      obtain ⟨c, cs, hdigits, hc⟩ := toDigits_eq_cons n
      have hread := unsigned?_toDigits false n h
      rw [hdigits] at hread
      rw [writeInt, hdigits, List.cons_append, number?_of_isDigit hc, ← List.cons_append, hread]
      rfl
  | negSucc n =>
      obtain ⟨c, cs, hdigits, hc⟩ := toDigits_eq_cons (n + 1)
      have hread := unsigned?_toDigits true (n + 1) h
      rw [hdigits] at hread
      rw [writeInt, hdigits, List.cons_append, List.cons_append, number?_minus hc,
        ← List.cons_append, hread]
      rfl

/-! ## Values -/

mutual

/-- Whether a value can be written exactly: its numbers are integers, and no object names a member
twice. -/
def Exact : Json → Prop
  | .real _ => False
  | .arr elements => AllExact elements
  | .obj members => (members.map Prod.fst).Nodup ∧ MembersExact members
  | _ => True

/-- Whether all elements can be written exactly. -/
def AllExact : List Json → Prop
  | [] => True
  | element :: elements => element.Exact ∧ AllExact elements

/-- Whether the values of all members can be written exactly. -/
def MembersExact : List (String × Json) → Prop
  | [] => True
  | (_, value) :: members => value.Exact ∧ MembersExact members

end

theorem setMember_of_notMem {name : String} {members : List (String × Json)}
    (h : name ∉ members.map Prod.fst) (value : Json) :
    setMember name value members = members ++ [(name, value)] := by
  induction members with
  | nil => rfl
  | cons member members ih =>
      simp only [List.map_cons, List.mem_cons, not_or] at h
      rw [setMember, if_neg (Ne.symm h.1), ih h.2, List.cons_append]

theorem foldl_setMember {members : List (String × Json)} :
    ∀ {found : List (String × Json)}, ((found ++ members).map Prod.fst).Nodup →
      members.foldl (fun found member => setMember member.1 member.2 found) found
        = found ++ members := by
  induction members with
  | nil => simp
  | cons member members ih =>
      intro found h
      have hnew : member.1 ∉ found.map Prod.fst := by
        rw [List.map_append, List.map_cons, List.nodup_append] at h
        exact fun hm => h.2.2 _ hm _ List.mem_cons_self rfl
      rw [List.foldl_cons, setMember_of_notMem hnew, ih (by simpa using h)]
      simp

/-- An object keeps the members that it is made of if no two share a name. -/
theorem ofMembers_of_nodup {members : List (String × Json)}
    (h : (members.map Prod.fst).Nodup) : ofMembers members = .obj members := by
  rw [ofMembers, foldl_setMember (by simpa using h), List.nil_append]

theorem skipGap_of_head {rest : List Char} (h : ∀ c ∈ rest.head?, isGap c = false) :
    skipGap rest = rest := by
  cases rest with
  | nil => rfl
  | cons c rest => simp [skipGap, h c rfl]

theorem skipGap_lineStart (layout : Layout) (depth : Nat) {rest : List Char}
    (h : ∀ c ∈ rest.head?, isGap c = false) :
    skipGap (layout.lineStart depth ++ rest) = rest := by
  cases layout with
  | compact => exact skipGap_of_head h
  | indented width =>
      have hall : ∀ c ∈ Layout.lineStart (.indented width) depth, isGap c = true := by
        intro c hc
        rcases List.mem_cons.mp hc with rfl | hc
        · rfl
        · rw [List.eq_of_mem_replicate hc]
          rfl
      rw [skipGap, List.dropWhile_append_of_pos hall]
      exact skipGap_of_head h

theorem ne_of_isDigit {c d : Char} (hc : isDigit c = true) (hd : isDigit d = false) : c ≠ d := by
  rintro rfl
  simp [hc] at hd

theorem isGap_of_isDigit {c : Char} (h : isDigit c = true) : isGap c = false := by
  simp [isGap, ne_of_isDigit h (d := ' ') rfl, ne_of_isDigit h (d := '\t') rfl,
    ne_of_isDigit h (d := '\n') rfl, ne_of_isDigit h (d := '\r') rfl]

/-- Between two elements stand a comma and blanks. -/
theorem skipGap_separator (layout : Layout) (depth : Nat) (rest : List Char)
    (h : ∀ c ∈ rest.head?, isGap c = false) :
    ∃ gap, layout.separator depth ++ rest = ',' :: gap ∧ skipGap gap = rest := by
  cases layout with
  | compact =>
      refine ⟨' ' :: rest, rfl, ?_⟩
      rw [skipGap, List.dropWhile_cons_of_pos rfl]
      exact skipGap_of_head h
  | indented width => exact ⟨_, rfl, skipGap_lineStart (.indented width) depth h⟩

/-- A written value starts with a character that is no blank and closes nothing. -/
theorem write_eq_cons (layout : Layout) (depth : Nat) {value : Json} (h : value.Exact) :
    ∃ c cs, write layout depth value = c :: cs ∧ isGap c = false ∧ c ≠ ']' := by
  cases value with
  | null => exact ⟨'n', "ull".toList, rfl, rfl, by decide⟩
  | bool value =>
      cases value with
      | true => exact ⟨'t', "rue".toList, rfl, rfl, by decide⟩
      | false => exact ⟨'f', "alse".toList, rfl, rfl, by decide⟩
  | int value =>
      cases value with
      | ofNat n =>
          obtain ⟨c, cs, hdigits, hc⟩ := toDigits_eq_cons n
          exact ⟨c, cs, by rw [write, writeInt, hdigits], isGap_of_isDigit hc,
            ne_of_isDigit hc rfl⟩
      | negSucc n => exact ⟨'-', _, rfl, rfl, by decide⟩
  | real literal => exact h.elim
  | str value => exact ⟨'"', _, rfl, rfl, by decide⟩
  | arr elements => cases elements <;> exact ⟨'[', _, rfl, rfl, by decide⟩
  | obj members => cases members <;> exact ⟨'{', _, rfl, rfl, by decide⟩

theorem length_write_pos (layout : Layout) (depth : Nat) {value : Json} (h : value.Exact) :
    0 < (write layout depth value).length := by
  obtain ⟨c, cs, hwrite, -⟩ := write_eq_cons layout depth h
  simp [hwrite]

theorem skipGap_space_write (layout : Layout) (depth : Nat) {value : Json} (h : value.Exact)
    (rest : List Char) :
    skipGap (' ' :: (write layout depth value ++ rest)) = write layout depth value ++ rest := by
  obtain ⟨c, cs, hwrite, hgap, -⟩ := write_eq_cons layout depth h
  rw [skipGap, List.dropWhile_cons_of_pos rfl]
  exact skipGap_of_head (by simp [hwrite, hgap])

theorem endsNumber_lineStart (layout : Layout) (depth : Nat) {c : Char} (rest : List Char)
    (hc : c = ']' ∨ c = '}') : EndsNumber (layout.lineStart depth ++ c :: rest) := by
  cases layout <;> rcases hc with rfl | rfl <;> simp [EndsNumber, Layout.lineStart, isDigit]

theorem endsNumber_separator (layout : Layout) (depth : Nat) (rest : List Char) :
    EndsNumber (layout.separator depth ++ rest) := by
  cases layout <;> simp [EndsNumber, Layout.separator, isDigit]

/-! ## Scanning a written value -/

theorem value?_writeString (bound : Nat) (s : String) (rest : List Char) :
    value? (bound + 1) (writeString s ++ rest) = some (.str s, rest) := by
  have h := string?_writeString s rest
  simp only [writeString, List.cons_append] at h ⊢
  simp only [value?, h, Option.map_some]

theorem value?_of_number {c : Char} (hc : c = '-' ∨ isDigit c = true) (bound : Nat)
    (cs : List Char) : value? (bound + 1) (c :: cs) = number? (c :: cs) := by
  rw [value?] <;> rintro tail ⟨⟩ <;> simp [isDigit] at hc

theorem value?_writeInt (bound : Nat) (value : Int) {rest : List Char} (h : EndsNumber rest) :
    value? (bound + 1) (writeInt value ++ rest) = some (.int value, rest) := by
  rw [← number?_writeInt value h]
  cases value with
  | ofNat n =>
      obtain ⟨c, cs, hdigits, hc⟩ := toDigits_eq_cons n
      rw [writeInt, hdigits, List.cons_append, value?_of_number (.inr hc)]
  | negSucc n => exact value?_of_number (.inl rfl) bound _

-- every scanner hands on a smaller bound, so the induction is on the bound and not on the value
mutual

/-- A written value is read back in front of any text that does not go on with a number. -/
theorem value?_write (layout : Layout) : ∀ (value : Json) (depth bound : Nat) (rest : List Char),
    value.Exact → EndsNumber rest → 2 * (write layout depth value).length ≤ bound →
      value? bound (write layout depth value ++ rest) = some (value, rest)
  | value, depth, 0, rest, hexact, _, hbound => by
      obtain ⟨c, cs, hwrite, -⟩ := write_eq_cons layout depth hexact
      simp [hwrite] at hbound
  | .null, depth, bound + 1, rest, _, _, _ => by simp [write, value?, after?]
  | .bool true, depth, bound + 1, rest, _, _, _ => by simp [write, value?, after?]
  | .bool false, depth, bound + 1, rest, _, _, _ => by simp [write, value?, after?]
  | .int value, depth, bound + 1, rest, _, hrest, _ => value?_writeInt bound value hrest
  | .str value, depth, bound + 1, rest, _, _, _ => value?_writeString bound value rest
  | .arr [], depth, bound + 1, rest, _, _, _ => by simp [write, value?, skipGap, isGap]
  | .obj [], depth, bound + 1, rest, _, _, _ => by simp [write, value?, skipGap, isGap]
  | .arr (element :: elements), depth, bound + 1, rest, hexact, _, hbound => by
      obtain ⟨hfirst, hothers⟩ := hexact
      obtain ⟨c, cs, hwrite, hgap, hclose⟩ := write_eq_cons layout (depth + 1) hfirst
      have hread := elements?_write layout elements element (depth + 1) depth bound rest hfirst
        hothers (by simp [write] at hbound ⊢; omega)
      simp only [write, List.cons_append, List.append_assoc, List.nil_append] at hread ⊢
      simp only [value?]
      rw [skipGap_lineStart layout _ (by simp [hwrite, hgap])]
      rw [hwrite, List.cons_append] at hread ⊢
      -- an element does not open with the bracket that would close an empty array
      split
      · simp_all
      · simp [hread]
  | .obj ((name, value) :: members), depth, bound + 1, rest, hexact, _, hbound => by
      obtain ⟨hnodup, hfirst, hothers⟩ := hexact
      have hread := members?_write layout members name value (depth + 1) depth bound rest hfirst
        hothers (by simp [write] at hbound ⊢; omega)
      simp only [write, List.cons_append, List.append_assoc, List.nil_append] at hread ⊢
      simp only [value?]
      rw [skipGap_lineStart layout _ (by simp [writeString, isGap])]
      split
      · simp_all [writeString]
      · rw [hread]
        simp [ofMembers_of_nodup hnodup]
termination_by structural _ _ bound => bound

/-- Written elements are read back up to the bracket behind them. -/
theorem elements?_write (layout : Layout) : ∀ (elements : List Json) (element : Json)
    (depth close bound : Nat) (rest : List Char),
    element.Exact → AllExact elements →
      2 * (write layout depth element ++ writeElements layout depth elements).length < bound →
      elements? bound (write layout depth element ++ writeElements layout depth elements
          ++ (layout.lineStart close ++ ']' :: rest)) = some (element :: elements, rest)
  | _, _, _, _, 0, _, _, _, hbound => by simp at hbound
  | [], element, depth, close, bound + 1, rest, hfirst, _, hbound => by
      have hread := value?_write layout element depth bound
        (layout.lineStart close ++ ']' :: rest) hfirst
        (endsNumber_lineStart layout close rest (.inl rfl))
        (by simp [writeElements] at hbound ⊢; omega)
      simp only [writeElements, List.append_nil, elements?, hread]
      rw [skipGap_lineStart layout close (by simp [isGap])]
      rfl
  | next :: elements, element, depth, close, bound + 1, rest, hfirst, hothers, hbound => by
      obtain ⟨hnext, hothers⟩ := hothers
      obtain ⟨c, cs, hwrite, hgap, -⟩ := write_eq_cons layout depth hnext
      obtain ⟨gap, hseparator, hskip⟩ := skipGap_separator layout depth
        (write layout depth next ++ (writeElements layout depth elements
          ++ (layout.lineStart close ++ ']' :: rest))) (by simp [hwrite, hgap])
      have hread := value?_write layout element depth bound
        (layout.separator depth ++ (write layout depth next ++ (writeElements layout depth elements
          ++ (layout.lineStart close ++ ']' :: rest)))) hfirst
        (endsNumber_separator layout depth _) (by simp at hbound ⊢; omega)
      -- the element in front has a character at least, which pays for the comma behind it
      have hlength := length_write_pos layout depth hfirst
      have hmore := elements?_write layout elements next depth close bound rest hnext hothers
        (by simp [writeElements] at hbound ⊢; omega)
      simp only [List.append_assoc] at hmore
      simp only [writeElements, List.append_assoc, elements?, hread]
      rw [hseparator, skipGap_of_head (by simp [isGap])]
      simp [hskip, hmore]
termination_by structural _ _ _ _ bound => bound

/-- Written members are read back up to the brace behind them. -/
theorem members?_write (layout : Layout) : ∀ (members : List (String × Json)) (name : String)
    (value : Json) (depth close bound : Nat) (rest : List Char),
    value.Exact → MembersExact members →
      2 * (writeString name ++ ':' :: ' ' :: write layout depth value
        ++ writeMembers layout depth members).length < bound →
      members? bound (writeString name ++ ':' :: ' ' :: write layout depth value
          ++ writeMembers layout depth members ++ (layout.lineStart close ++ '}' :: rest))
        = some ((name, value) :: members, rest)
  | _, _, _, _, _, 0, _, _, _, hbound => by simp at hbound
  | [], name, value, depth, close, bound + 1, rest, hfirst, _, hbound => by
      have hread := value?_write layout value depth bound
        (layout.lineStart close ++ '}' :: rest) hfirst
        (endsNumber_lineStart layout close rest (.inr rfl))
        (by simp [writeMembers] at hbound ⊢; omega)
      simp only [writeMembers, List.append_nil, List.append_assoc, List.cons_append, members?,
        string?_writeString]
      rw [skipGap_of_head (by simp [isGap])]
      simp only [skipGap_space_write layout depth hfirst, hread]
      rw [skipGap_lineStart layout close (by simp [isGap])]
      rfl
  | (next, other) :: members, name, value, depth, close, bound + 1, rest, hfirst, hothers,
      hbound => by
      obtain ⟨hnext, hothers⟩ := hothers
      obtain ⟨gap, hseparator, hskip⟩ := skipGap_separator layout depth
        (writeString next ++ (':' :: ' ' :: write layout depth other
          ++ (writeMembers layout depth members ++ (layout.lineStart close ++ '}' :: rest))))
        (by simp [writeString, isGap])
      have hread := value?_write layout value depth bound
        (layout.separator depth ++ (writeString next ++ (':' :: ' ' :: write layout depth other
          ++ (writeMembers layout depth members ++ (layout.lineStart close ++ '}' :: rest)))))
        hfirst (endsNumber_separator layout depth _) (by simp at hbound ⊢; omega)
      have hmore := members?_write layout members next other depth close bound rest hnext hothers
        (by simp [writeMembers] at hbound ⊢; omega)
      simp only [List.append_assoc, List.cons_append] at hread hmore hseparator hskip
      simp only [writeMembers, List.append_assoc, List.cons_append, members?, string?_writeString]
      rw [skipGap_of_head (by simp [isGap])]
      simp only [skipGap_space_write layout depth hfirst, hread]
      rw [hseparator, skipGap_of_head (by simp [isGap])]
      simp [hskip, hmore]
termination_by structural _ _ _ _ _ bound => bound

end

theorem endsNumber_gap {gap : List Char} (h : ∀ c ∈ gap, isGap c = true) : EndsNumber gap := by
  intro c hc
  have hgap := h c (List.mem_of_head? hc)
  simp only [isGap, Bool.or_eq_true, beq_iff_eq] at hgap
  rcases hgap with ((rfl | rfl) | rfl) | rfl <;> decide

/-- The text of a value that can be written exactly is the text of that value and of no other,
whatever blanks stand behind it. -/
theorem parse?_render_gap (layout : Layout) {value : Json} (h : value.Exact) {gap : List Char}
    (hgap : ∀ c ∈ gap, isGap c = true) :
    parse? (value.render layout ++ String.ofList gap) = some value := by
  obtain ⟨c, cs, hwrite, hvisible, -⟩ := write_eq_cons layout 0 h
  have hread := value?_write layout value 0 (2 * (write layout 0 value ++ gap).length + 2) gap h
    (endsNumber_gap hgap) (by simp only [List.length_append]; omega)
  simp only [parse?, render, String.toList_append, String.toList_ofList]
  rw [skipGap_of_head (by simp [hwrite, hvisible]), hread]
  have hnone : skipGap gap = [] := List.dropWhile_eq_nil_iff.mpr hgap
  simp [hnone]

end DocComment.Json
