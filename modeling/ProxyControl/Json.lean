import Mathlib

/-!
# JSON values and their canonical text

JSON values, and the text in which programs compare and hash them: no blanks, the fields
of an object in the order of their keys, and nothing but printable ASCII – every other
character is escaped.

An object is a list of fields. A number is an integer or a *float*, and a float is kept
as the shortest decimal digits that read back to it, which is how it is written.
-/

/-- A float by its shortest digits: the first before the point, times ten to the
exponent. -/
structure Decimal where
  negative : Bool
  digits : List (Fin 10)
  exponent : Int
deriving DecidableEq, Repr

namespace Decimal

instance : NeZero 10 := ⟨by decide⟩

/-- How a program writes small and large floats. -/
inductive Style
  /-- As Python does. -/
  | python
  /-- As pydantic does: fixed one place longer, and exponents without padding. -/
  | pydantic
deriving DecidableEq, Repr

def digitChars (digits : List (Fin 10)) : List Char := digits.map fun d => Nat.digitChar d.val

/-- Where the fixed notation ends for small numbers. -/
def Style.least : Style → Int
  | .python => -4
  | .pydantic => -5

def exponentText (style : Style) (exponent : Int) : List Char :=
  let digits := Nat.toDigits 10 exponent.natAbs
  (if exponent < 0 then '-' else '+')
    :: (if style = .python ∧ digits.length < 2 then '0' :: digits else digits)

def fixedText (digits : List (Fin 10)) (point : Int) : List Char :=
  if point ≤ 0 then ['0', '.'] ++ List.replicate point.natAbs '0' ++ digitChars digits
  else if (digits.length : Int) ≤ point then
    digitChars digits ++ List.replicate (point.toNat - digits.length) '0' ++ ['.', '0']
  else
    digitChars (digits.take point.toNat) ++ '.' :: digitChars (digits.drop point.toNat)

def scientificText (style : Style) (digits : List (Fin 10)) (exponent : Int) : List Char :=
  digitChars (digits.take 1)
    ++ (if digits.length ≤ 1 then [] else '.' :: digitChars (digits.drop 1))
    ++ 'e' :: exponentText style exponent

def text (style : Style) (value : Decimal) : List Char :=
  let point := value.exponent + 1
  (if value.negative then ['-'] else [])
    ++ if style.least < point ∧ point ≤ 16 then fixedText value.digits point
      else scientificText style value.digits value.exponent

example : text .python ⟨false, [1, 2], -5⟩ = "1.2e-05".toList
    ∧ text .pydantic ⟨false, [1, 2], -5⟩ = "0.000012".toList
    ∧ text .python ⟨true, [1, 5], 2⟩ = "-150.0".toList := by
  decide +kernel

end Decimal

inductive Json
  | null
  | bool (value : Bool)
  | int (value : Int)
  | float (value : Decimal)
  | str (text : String)
  | arr (items : List Json)
  | obj (fields : List (String × Json))

namespace Json

/-! ## Texts -/

def hexDigit (n : Nat) : Char :=
  if n < 10 then Char.ofNat (48 + n) else Char.ofNat (87 + n)

/-- A character of the Basic Multilingual Plane, or half of a pair, by its number. -/
def escapeCode (n : Nat) : List Char :=
  ['\\', 'u', hexDigit (n / 4096 % 16), hexDigit (n / 256 % 16), hexDigit (n / 16 % 16),
    hexDigit (n % 16)]

def escapeChar (c : Char) : List Char :=
  if c = '"' then ['\\', '"']
  else if c = '\\' then ['\\', '\\']
  else if c = '\n' then ['\\', 'n']
  else if c = '\r' then ['\\', 'r']
  else if c = '\t' then ['\\', 't']
  else if c.toNat = 8 then ['\\', 'b']
  else if c.toNat = 12 then ['\\', 'f']
  else if 32 ≤ c.toNat ∧ c.toNat ≤ 126 then [c]
  else if c.toNat < 65536 then escapeCode c.toNat
  else
    escapeCode (55296 + (c.toNat - 65536) / 1024) ++ escapeCode (56320 + (c.toNat - 65536) % 1024)

def quote (text : String) : List Char := '"' :: text.toList.flatMap escapeChar ++ ['"']

/-- The parts with commas between them. -/
def commas : List (List Char) → List Char
  | [] => []
  | [part] => part
  | part :: rest => part ++ ',' :: commas rest

/-- The fields in the order of their keys. -/
def sortFields {α : Type} (fields : List (String × α)) : List (String × α) :=
  fields.insertionSort fun a b => a.1 ≤ b.1

mutual

/-- **The canonical text.** -/
def canonical : Json → List Char
  | .null => ['n', 'u', 'l', 'l']
  | .bool true => ['t', 'r', 'u', 'e']
  | .bool false => ['f', 'a', 'l', 's', 'e']
  | .int value => (toString value).toList
  | .float value => value.text .python
  | .str text => quote text
  | .arr items => '[' :: commas (canonicalItems items) ++ [']']
  | .obj fields =>
    '{' :: commas ((sortFields (canonicalFields fields)).map fun field =>
      quote field.1 ++ ':' :: field.2) ++ ['}']

def canonicalItems : List Json → List (List Char)
  | [] => []
  | item :: rest => canonical item :: canonicalItems rest

def canonicalFields : List (String × Json) → List (String × List Char)
  | [] => []
  | (key, value) :: rest => (key, canonical value) :: canonicalFields rest

end

example : canonical (.obj [("b", .arr [.int (-1), .null]), ("a", .str "x\"")])
    = "\x7b\"a\":\"x\\\"\",\"b\":[-1,null]\x7d".toList := by
  decide +kernel

end Json
