/-
# RegisterTransfer.Json -- JSON documents

A JSON value as a tree.  Members of an object keep their order and may repeat a key, so that a
reader of documents can refuse repetitions itself.

`compact` writes a value without blanks.  `pretty` puts every item and member on a line of its own,
indented by two blanks for each level; an empty list or object is a bare pair of brackets.
Both escape quotes, backslashes and control characters and nothing else.
-/
import RegisterTransfer.Numeral

namespace RegisterTransfer

set_option autoImplicit false

/-- A JSON value. -/
inductive Json where
  | null
  | bool (b : Bool)
  | integer (n : Int)
  /-- A number that is no integer, or a negative zero, as it is written. -/
  | real (literal : String)
  | text (s : String)
  /-- A string, or an object with a key, that escapes a surrogate without its partner.  No text
  holds such characters. -/
  | unreadable
  | list (items : List Json)
  | object (members : List (String × Json))

namespace Json

/-- The characters that stand for one character of a string. -/
def escape (c : Char) : List Char :=
  if c = '"' then ['\\', '"']
  else if c = '\\' then ['\\', '\\']
  else if c = '\x08' then ['\\', 'b']
  else if c = '\x0c' then ['\\', 'f']
  else if c = '\n' then ['\\', 'n']
  else if c = '\r' then ['\\', 'r']
  else if c = '\t' then ['\\', 't']
  else if c.toNat < 32 then
    ['\\', 'u', '0', '0', Nat.digitChar (c.toNat / 16), Nat.digitChar (c.toNat % 16)]
  else [c]

/-- A string in quotes. -/
def quote (s : String) : String :=
  String.ofList ('"' :: (s.toList.flatMap escape ++ ['"']))

/-- The text of a value without parts. -/
def atom : Json → String
  | bool true => "true"
  | bool false => "false"
  | integer n => Numeral.signedDecimal n
  | real literal => literal
  | text s => quote s
  | _ => "null"

mutual

/-- A value without blanks. -/
def compact : Json → String
  | list items => "[" ++ ",".intercalate (compactItems items) ++ "]"
  | object members => "\x7b" ++ ",".intercalate (compactMembers members) ++ "\x7d"
  | v => v.atom

def compactItems : List Json → List String
  | [] => []
  | v :: rest => compact v :: compactItems rest

def compactMembers : List (String × Json) → List String
  | [] => []
  | (key, v) :: rest => (quote key ++ ":" ++ compact v) :: compactMembers rest

end

/-- A line break and the blanks of a level. -/
def newline (level : Nat) : String :=
  "\n" ++ String.ofList (List.replicate (2 * level) ' ')

/-- Parts of a level between brackets, each on a line of its own. -/
def block (opening closing : String) (level : Nat) (parts : List String) : String :=
  if parts.isEmpty then opening ++ closing
  else
    opening ++ newline (level + 1) ++ ("," ++ newline (level + 1)).intercalate parts
      ++ newline level ++ closing

mutual

/-- A value at a level of indentation. -/
def pretty (level : Nat) : Json → String
  | list items => block "[" "]" level (prettyItems (level + 1) items)
  | object members => block "\x7b" "\x7d" level (prettyMembers (level + 1) members)
  | v => v.atom

def prettyItems (level : Nat) : List Json → List String
  | [] => []
  | v :: rest => pretty level v :: prettyItems level rest

def prettyMembers (level : Nat) : List (String × Json) → List String
  | [] => []
  | (key, v) :: rest => (quote key ++ ": " ++ pretty level v) :: prettyMembers level rest

end

end Json

end RegisterTransfer
