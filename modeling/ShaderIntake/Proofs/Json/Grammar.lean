/-!
# The grammar of JSON texts

The grammar of the JSON standard, rule by rule, with the value that each text stands for.
It knows nothing of how documents are written: it allows blanks around every token, all
escapes that JSON has and numbers with a fraction and an exponent.

Every rule relates a text to what is left of it, so that a rule is followed by another one
where the first one stopped.  `Spells part s t` says that `s` starts with the part and goes
on with `t`; `IsDocument` is a whole text.

A text stands for a `JsonValue`.  Strings are characters, whichever escapes they are written
with; an escape for half of a pair stands for nothing alone.  Numbers are rational numbers,
and members keep their order.
-/

namespace ShaderIntake

/-- What a JSON text stands for. -/
inductive JsonValue where
  | null
  | bool (b : Bool)
  | number (q : Rat)
  | text (s : String)
  | list (items : List JsonValue)
  | object (members : List (String × JsonValue))

namespace Json

/-! ## Blanks -/

/-- `ws = *( %x20 / %x09 / %x0A / %x0D )` -/
def IsBlank (c : Char) : Prop :=
  c = ' ' ∨ c = '\t' ∨ c = '\n' ∨ c = '\r'

/-- `s` is blanks, any number of them, and then `t`. -/
def Blanks (s t : List Char) : Prop :=
  ∃ blanks, (∀ c ∈ blanks, IsBlank c) ∧ s = blanks ++ t

/-! ## Strings -/

/-- The character that a short escape stands for. -/
def shortEscape? (letter : Char) : Option Char :=
  match letter with
  | '"' => some '"'
  | '\\' => some '\\'
  | '/' => some '/'
  | 'b' => some '\x08'
  | 'f' => some '\x0c'
  | 'n' => some '\n'
  | 'r' => some '\r'
  | 't' => some '\t'
  | _ => none

/-- The number of a hexadecimal digit in either case. -/
def hexDigit? (c : Char) : Option Nat :=
  if '0' ≤ c ∧ c ≤ '9' then some (c.toNat - '0'.toNat)
  else if 'a' ≤ c ∧ c ≤ 'f' then some (c.toNat - 'a'.toNat + 10)
  else if 'A' ≤ c ∧ c ≤ 'F' then some (c.toNat - 'A'.toNat + 10)
  else none

/-- `%x75 4HEXDIG` behind a backslash, and the number that the digits stand for. -/
inductive Unit16 : Nat → List Char → List Char → Prop where
  | mk {c₃ c₂ c₁ c₀ : Char} {d₃ d₂ d₁ d₀ : Nat} {t : List Char}
      (h₃ : hexDigit? c₃ = some d₃) (h₂ : hexDigit? c₂ = some d₂) (h₁ : hexDigit? c₁ = some d₁)
      (h₀ : hexDigit? c₀ = some d₀) :
      Unit16 (0x1000 * d₃ + 0x100 * d₂ + 0x10 * d₁ + d₀)
        ('\\' :: 'u' :: c₃ :: c₂ :: c₁ :: c₀ :: t) t

/-- One character of a string. -/
inductive CharSpelled : Char → List Char → List Char → Prop where
  /-- `unescaped = %x20-21 / %x23-5B / %x5D-10FFFF` -/
  | unescaped {c : Char} {t : List Char} (hcontrol : 0x20 ≤ c.toNat) (hquote : c ≠ '"')
      (hbackslash : c ≠ '\\') : CharSpelled c (c :: t) t
  /-- A backslash and a letter. -/
  | short {c letter : Char} {t : List Char} (h : shortEscape? letter = some c) :
      CharSpelled c ('\\' :: letter :: t) t
  /-- A character of the basic plane by its number. -/
  | unit {c : Char} {s t : List Char} (h : Unit16 c.toNat s t) : CharSpelled c s t
  /-- A character beyond the basic plane by the two halves of its number. -/
  | pair {c : Char} {high low : Nat} {s m t : List Char} (hhigh : Unit16 high s m)
      (hlow : Unit16 low m t) (hhighRange : 0xd800 ≤ high ∧ high < 0xdc00)
      (hlowRange : 0xdc00 ≤ low ∧ low < 0xe000)
      (h : c.toNat = 0x10000 + 0x400 * (high - 0xd800) + (low - 0xdc00)) :
      CharSpelled c s t

/-- `*char quotation-mark` -/
inductive CharsSpelled : List Char → List Char → List Char → Prop where
  | nil {t : List Char} : CharsSpelled [] ('"' :: t) t
  | cons {c : Char} {cs s m t : List Char} (head : CharSpelled c s m)
      (tail : CharsSpelled cs m t) : CharsSpelled (c :: cs) s t

/-! ## Numbers -/

/-- `exp = e [ minus / plus ] 1*DIGIT` -/
structure Exponent where
  letter : Char
  sign : List Char
  digits : List Char

/-- `number = [ minus ] int [ frac ] [ exp ]`; a fraction without a digit is none. -/
structure Numeral where
  sign : List Char
  whole : List Char
  fraction : List Char
  exponent : Option Exponent

/-- `1*DIGIT` -/
def IsDigits (digits : List Char) : Prop :=
  digits ≠ [] ∧ ∀ c ∈ digits, c.isDigit

/-- The number that decimal digits stand for. -/
def digitsValue (digits : List Char) : Nat :=
  Nat.ofDigitChars 10 digits 0

namespace Exponent

structure WellFormed (e : Exponent) : Prop where
  letter : e.letter = 'e' ∨ e.letter = 'E'
  sign : e.sign = [] ∨ e.sign = ['+'] ∨ e.sign = ['-']
  digits : IsDigits e.digits

def text (e : Exponent) : List Char :=
  e.letter :: (e.sign ++ e.digits)

def value (e : Exponent) : Int :=
  if e.sign = ['-'] then -digitsValue e.digits else digitsValue e.digits

end Exponent

namespace Numeral

/-- `int = zero / ( digit1-9 *DIGIT )`: no other number begins with a zero. -/
structure WellFormed (n : Numeral) : Prop where
  sign : n.sign = [] ∨ n.sign = ['-']
  whole : IsDigits n.whole
  leadingZero : n.whole.head? = some '0' → n.whole = ['0']
  fraction : ∀ c ∈ n.fraction, c.isDigit
  exponent : ∀ e ∈ n.exponent, e.WellFormed

def text (n : Numeral) : List Char :=
  n.sign ++ (n.whole ++ ((if n.fraction = [] then [] else '.' :: n.fraction) ++
    n.exponent.elim [] Exponent.text))

/-- The digits on both sides of the point as one whole number, and a power of ten that puts
the point where it belongs. -/
def value (n : Numeral) : Rat :=
  let magnitude : Rat := digitsValue (n.whole ++ n.fraction) *
    10 ^ (n.exponent.elim 0 Exponent.value - n.fraction.length)
  if n.sign = ['-'] then -magnitude else magnitude

end Numeral

/-! ## Values -/

/-- The parts of a text. -/
inductive Part where
  /-- A value. -/
  | value (x : JsonValue)
  /-- A value with blanks around it. -/
  | element (x : JsonValue)
  /-- The name of a member with blanks around it, and the colon. -/
  | name (k : String)
  /-- The items of an array after the first one, up to its end. -/
  | items (xs : List JsonValue)
  /-- The members of an object after the first one, up to its end. -/
  | members (ms : List (String × JsonValue))

/-- The text starts with the part; the last argument is what is left of it. -/
inductive Spells : Part → List Char → List Char → Prop where
  | null {t : List Char} : Spells (.value .null) ('n' :: 'u' :: 'l' :: 'l' :: t) t
  | true {t : List Char} : Spells (.value (.bool true)) ('t' :: 'r' :: 'u' :: 'e' :: t) t
  | false {t : List Char} :
      Spells (.value (.bool false)) ('f' :: 'a' :: 'l' :: 's' :: 'e' :: t) t
  | number {n : Numeral} {s t : List Char} (h : n.WellFormed) (htext : s = n.text ++ t) :
      Spells (.value (.number n.value)) s t
  /-- `string = quotation-mark *char quotation-mark` -/
  | text {k : String} {s t : List Char} (h : CharsSpelled k.toList s t) :
      Spells (.value (.text k)) ('"' :: s) t
  /-- `array = begin-array end-array` -/
  | emptyList {s t : List Char} (h : Blanks s (']' :: t)) :
      Spells (.value (.list [])) ('[' :: s) t
  /-- `array = begin-array value *( value-separator value ) end-array` -/
  | list {x : JsonValue} {xs : List JsonValue} {s m t : List Char}
      (head : Spells (.element x) s m) (tail : Spells (.items xs) m t) :
      Spells (.value (.list (x :: xs))) ('[' :: s) t
  /-- `object = begin-object end-object` -/
  | emptyObject {s t : List Char} (h : Blanks s ('\x7d' :: t)) :
      Spells (.value (.object [])) ('\x7b' :: s) t
  /-- `object = begin-object member *( value-separator member ) end-object` -/
  | object {k : String} {x : JsonValue} {ms : List (String × JsonValue)} {s m₁ m₂ t : List Char}
      (name : Spells (.name k) s m₁) (head : Spells (.element x) m₁ m₂)
      (tail : Spells (.members ms) m₂ t) :
      Spells (.value (.object ((k, x) :: ms))) ('\x7b' :: s) t
  | element {x : JsonValue} {s m₁ m₂ t : List Char} (before : Blanks s m₁)
      (value : Spells (.value x) m₁ m₂) (after : Blanks m₂ t) : Spells (.element x) s t
  | name {k : String} {s m₁ m₂ t : List Char} (before : Blanks s m₁)
      (string : Spells (.value (.text k)) m₁ m₂) (after : Blanks m₂ (':' :: t)) :
      Spells (.name k) s t
  | endItems {t : List Char} : Spells (.items []) (']' :: t) t
  | nextItem {x : JsonValue} {xs : List JsonValue} {s m t : List Char}
      (head : Spells (.element x) s m) (tail : Spells (.items xs) m t) :
      Spells (.items (x :: xs)) (',' :: s) t
  | endMembers {t : List Char} : Spells (.members []) ('\x7d' :: t) t
  | nextMember {k : String} {x : JsonValue} {ms : List (String × JsonValue)}
      {s m₁ m₂ t : List Char} (name : Spells (.name k) s m₁) (head : Spells (.element x) m₁ m₂)
      (tail : Spells (.members ms) m₂ t) :
      Spells (.members ((k, x) :: ms)) (',' :: s) t

/-- `JSON-text = ws value ws`, the whole of a text. -/
def IsDocument (text : String) (x : JsonValue) : Prop :=
  Spells (.element x) text.toList []

end Json

end ShaderIntake
