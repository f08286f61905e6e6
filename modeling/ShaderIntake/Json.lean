/-!
# JSON documents

`Json` is a document with natural numbers only.  `Json.pretty` writes it with one
member or item on a line, indented by two spaces for each level; an empty list or
object stays on its line.  Members keep their order.

In a string only the quotation mark, the backslash and the characters below U+0020
are escaped, by a letter where JSON has one and by `\u00` and two hexadecimal digits
otherwise.
-/

namespace ShaderIntake

/-- A JSON document. -/
inductive Json where
  | null
  | bool (b : Bool)
  | number (n : Nat)
  | text (s : String)
  | list (items : List Json)
  | object (members : List (String × Json))

namespace Json

/-- A character inside a string. -/
def escape (c : Char) : List Char :=
  if c = '"' then ['\\', '"']
  else if c = '\\' then ['\\', '\\']
  else if c.toNat = 0x08 then ['\\', 'b']
  else if c.toNat = 0x09 then ['\\', 't']
  else if c.toNat = 0x0a then ['\\', 'n']
  else if c.toNat = 0x0c then ['\\', 'f']
  else if c.toNat = 0x0d then ['\\', 'r']
  else if c.toNat < 0x20 then
    ['\\', 'u', '0', '0', Nat.digitChar (c.toNat / 16), Nat.digitChar (c.toNat % 16)]
  else [c]

/-- A string between quotation marks. -/
def quote (s : String) : List Char :=
  '"' :: (s.toList.flatMap escape ++ ['"'])

/-- A line break and the indentation of a level. -/
def newline (level : Nat) : List Char :=
  '\n' :: List.replicate (2 * level) ' '

mutual

/-- The text of a document whose first line is indented by `level` already. -/
def render (level : Nat) : Json → List Char
  | null => "null".toList
  | bool true => "true".toList
  | bool false => "false".toList
  | number n => Nat.toDigits 10 n
  | text s => quote s
  | list [] => ['[', ']']
  | list (x :: xs) =>
    '[' :: (newline (level + 1) ++ render (level + 1) x ++ renderItems (level + 1) xs
      ++ newline level ++ [']'])
  | object [] => ['\x7b', '\x7d']
  | object ((k, x) :: xs) =>
    '\x7b' :: (newline (level + 1) ++ quote k ++ ':' :: ' ' :: render (level + 1) x
      ++ renderMembers (level + 1) xs ++ newline level ++ ['\x7d'])

/-- The items after the first one. -/
def renderItems (level : Nat) : List Json → List Char
  | [] => []
  | x :: xs => ',' :: (newline level ++ render level x ++ renderItems level xs)

/-- The members after the first one. -/
def renderMembers (level : Nat) : List (String × Json) → List Char
  | [] => []
  | (k, x) :: xs =>
    ',' :: (newline level ++ quote k ++ ':' :: ' ' :: render level x ++ renderMembers level xs)

end

/-- The document with one member or item on a line. -/
def pretty (x : Json) : String :=
  String.ofList (render 0 x)

end Json

end ShaderIntake
