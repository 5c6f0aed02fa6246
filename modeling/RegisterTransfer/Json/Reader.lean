/-
# RegisterTransfer.Json.Reader -- reading JSON text

`Json.parse?` reads a whole text as one value with blanks around it.  It follows the JSON grammar
strictly: no leading zeros, no bare control characters in strings, no trailing commas.  Readers of
parts work on lists of characters and give the characters left over.

A value nests at most as deep as the text is long, which is the fuel of `parse?`.
-/
import RegisterTransfer.Json

namespace RegisterTransfer.Json

set_option autoImplicit false

/-- The four characters JSON treats as blanks. -/
def isBlank (c : Char) : Bool := c = ' ' || c = '\n' || c = '\t' || c = '\r'

def skipBlanks (cs : List Char) : List Char := cs.dropWhile isBlank

/-! ## Numbers -/

/-- The digits at the front. -/
def spanDigits (cs : List Char) : List Char × List Char :=
  (cs.takeWhile Char.isDigit, cs.dropWhile Char.isDigit)

/-- The integer part: a lone zero, or digits that start with another. -/
def readWhole? (cs : List Char) : Option (List Char × List Char) :=
  match spanDigits cs with
  | ([], _) => none
  | ('0' :: _ :: _, _) => none
  | found => some found

/-- A point and at least one digit, or nothing. -/
def readFraction? : List Char → Option (List Char × List Char)
  | '.' :: cs =>
      match spanDigits cs with
      | ([], _) => none
      | (digits, rest) => some ('.' :: digits, rest)
  | cs => some ([], cs)

/-- An exponent with at least one digit, or nothing. -/
def readExponent? (cs : List Char) : Option (List Char × List Char) :=
  match cs with
  | e :: rest =>
      if e = 'e' ∨ e = 'E' then
        let (sign, digitsAndRest) :=
          match rest with
          | '+' :: r => (['+'], r)
          | '-' :: r => (['-'], r)
          | r => ([], r)
        match spanDigits digitsAndRest with
        | ([], _) => none
        | (digits, left) => some (e :: sign ++ digits, left)
      else some ([], cs)
  | [] => some ([], [])

/-- The number that a row of decimal digits writes. -/
def digitsValue (digits : List Char) : Nat :=
  digits.foldl (fun n c => n * 10 + (c.toNat - '0'.toNat)) 0

/-- A number with its optional sign. -/
def readNumber? (cs : List Char) : Option (Json × List Char) := do
  let negative := cs.head? = some '-'
  let (whole, rest) ← readWhole? (if negative then cs.drop 1 else cs)
  let (fraction, rest) ← readFraction? rest
  let (exponent, rest) ← readExponent? rest
  let literal := (if negative then ['-'] else []) ++ whole ++ fraction ++ exponent
  if fraction.isEmpty && exponent.isEmpty && !(negative && digitsValue whole = 0) then
    let n : Int := digitsValue whole
    return (integer (if negative then -n else n), rest)
  else
    return (real (String.ofList literal), rest)

/-! ## Strings -/

/-- The value of a hexadecimal digit of either case. -/
def hexValue? (c : Char) : Option Nat :=
  if '0' ≤ c ∧ c ≤ '9' then some (c.toNat - '0'.toNat)
  else if 'a' ≤ c ∧ c ≤ 'f' then some (c.toNat - 'a'.toNat + 10)
  else if 'A' ≤ c ∧ c ≤ 'F' then some (c.toNat - 'A'.toNat + 10)
  else none

/-- The value of four hexadecimal digits. -/
def readUnit? : List Char → Option (Nat × List Char)
  | a :: b :: c :: d :: rest => do
      let a ← hexValue? a
      let b ← hexValue? b
      let c ← hexValue? c
      let d ← hexValue? d
      return (((a * 16 + b) * 16 + c) * 16 + d, rest)
  | _ => none

/-- The character of an escape with one letter. -/
def simpleEscape? : Char → Option Char
  | '"' => some '"'
  | '\\' => some '\\'
  | '/' => some '/'
  | 'b' => some '\x08'
  | 'f' => some '\x0c'
  | 'n' => some '\n'
  | 'r' => some '\r'
  | 't' => some '\t'
  | _ => none

/-- What an escape of a code unit gives: a character, with its partner if it is the first of a
surrogate pair, or no character if the partner is missing. -/
def readUnicode? (cs : List Char) : Option (Option Char × List Char) := do
  let (unit, rest) ← readUnit? cs
  if 0xDC00 ≤ unit ∧ unit ≤ 0xDFFF then
    return (none, rest)
  else if 0xD800 ≤ unit ∧ unit ≤ 0xDBFF then
    match rest with
    | '\\' :: 'u' :: more =>
        match readUnit? more with
        | some (second, after) =>
            if 0xDC00 ≤ second ∧ second ≤ 0xDFFF then
              return (some (Char.ofNat (0x10000 + (unit - 0xD800) * 0x400 + (second - 0xDC00))),
                after)
            else return (none, rest)
        | none => none
    | _ => return (none, rest)
  else return (some (Char.ofNat unit), rest)

/-- The rest of a string after its opening quote, in reverse, and whether every escape gave a
character.  The fuel is at least the number of characters. -/
def readString? : Nat → List Char → List Char → Bool → Option (List Char × Bool × List Char)
  | 0, _, _, _ => none
  | _ + 1, [], _, _ => none
  | _ + 1, '"' :: rest, found, whole => some (found.reverse, whole, rest)
  | fuel + 1, '\\' :: 'u' :: rest, found, whole =>
      match readUnicode? rest with
      | none => none
      | some (some c, left) => readString? fuel left (c :: found) whole
      | some (none, left) => readString? fuel left found false
  | fuel + 1, '\\' :: e :: rest, found, whole =>
      match simpleEscape? e with
      | none => none
      | some c => readString? fuel rest (c :: found) whole
  | fuel + 1, c :: rest, found, whole =>
      if c.toNat < 32 ∨ c = '\\' then none else readString? fuel rest (c :: found) whole

/-- A string after its opening quote.  There is no text if an escape gave no character. -/
def readText? (cs : List Char) : Option (Option String × List Char) :=
  match readString? (cs.length + 1) cs [] true with
  | none => none
  | some (found, whole, rest) => some (if whole then some (String.ofList found) else none, rest)

/-! ## Values -/

/-- The characters after a keyword. -/
def readWord? (keyword : List Char) (cs : List Char) : Option (List Char) :=
  if keyword.isPrefixOf cs then some (cs.drop keyword.length) else none

/-- The value of an object's members, if all their keys are texts. -/
def ofMembers (members : List (Option String × Json)) : Json :=
  match members.mapM (fun m => m.1.map fun key => (key, m.2)) with
  | some ms => object ms
  | none => unreadable

mutual

/-- One value, with blanks before it. -/
def readValue? : Nat → List Char → Option (Json × List Char)
  | 0, _ => none
  | fuel + 1, cs =>
      match skipBlanks cs with
      | [] => none
      | '"' :: rest =>
          match readText? rest with
          | none => none
          | some (some s, left) => some (text s, left)
          | some (none, left) => some (unreadable, left)
      | '[' :: rest =>
          match skipBlanks rest with
          | ']' :: left => some (list [], left)
          | _ =>
              match readItems? fuel rest with
              | none => none
              | some (items, left) => some (list items, left)
      | '\x7b' :: rest =>
          match skipBlanks rest with
          | '\x7d' :: left => some (object [], left)
          | _ =>
              match readMembers? fuel rest with
              | none => none
              | some (members, left) => some (ofMembers members, left)
      | 't' :: rest => (readWord? ['r', 'u', 'e'] rest).map fun left => (bool true, left)
      | 'f' :: rest => (readWord? ['a', 'l', 's', 'e'] rest).map fun left => (bool false, left)
      | 'n' :: rest => (readWord? ['u', 'l', 'l'] rest).map fun left => (null, left)
      | cs => readNumber? cs

/-- The items of a list up to its closing bracket; there is at least one. -/
def readItems? : Nat → List Char → Option (List Json × List Char)
  | 0, _ => none
  | fuel + 1, cs =>
      match readValue? fuel cs with
      | none => none
      | some (v, rest) =>
          match skipBlanks rest with
          | ']' :: left => some ([v], left)
          | ',' :: more =>
              match readItems? fuel more with
              | none => none
              | some (items, left) => some (v :: items, left)
          | _ => none

/-- The members of an object up to its closing brace; there is at least one. -/
def readMembers? : Nat → List Char → Option (List (Option String × Json) × List Char)
  | 0, _ => none
  | fuel + 1, cs =>
      match skipBlanks cs with
      | '"' :: rest =>
          match readText? rest with
          | none => none
          | some (key, rest) =>
              match skipBlanks rest with
              | ':' :: rest =>
                  match readValue? fuel rest with
                  | none => none
                  | some (v, rest) =>
                      match skipBlanks rest with
                      | '\x7d' :: left => some ([(key, v)], left)
                      | ',' :: more =>
                          match readMembers? fuel more with
                          | none => none
                          | some (members, left) => some ((key, v) :: members, left)
                      | _ => none
              | _ => none
      | _ => none

end

/-- The value that a text writes, with nothing but blanks around it. -/
def parse? (s : String) : Option Json :=
  let cs := s.toList
  match readValue? (2 * cs.length + 2) cs with
  | some (v, rest) => if (skipBlanks rest).isEmpty then some v else none
  | none => none

end RegisterTransfer.Json
