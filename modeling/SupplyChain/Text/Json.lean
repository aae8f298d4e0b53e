import SupplyChain.Text.Hex

/-!
# JSON

Values, how `JSON.stringify` writes them, and how `JSON.parse` reads them. Numbers are of any type that has a
format. Strings hold no lone surrogates; the properties of an object stay in the order in which they were set.
-/

inductive Json (ν : Type) where
  /-- `null` -/
  | null
  /-- `true` or `false`. -/
  | bool (b : Bool)
  /-- A number, as the format keeps them. -/
  | number (n : ν)
  | string (s : String)
  /-- `[..]` -/
  | array (items : List (Json ν))
  /-- `{..}`, its properties in the order in which they are written. -/
  | object (properties : List (String × Json ν))

namespace Json

/-! ## Writing -/

/-- A control character that has no escape of its own. -/
def hexEscape (c : Char) : List Char :=
  ['\\', 'u', '0', '0', Hex.digit (c.toNat / 16), Hex.digit (c.toNat % 16)]

/-- A character within quotes. -/
def quoteChar (c : Char) : List Char :=
  if c = '"' then ['\\', '"']
  else if c = '\\' then ['\\', '\\']
  else if c.toNat = 8 then ['\\', 'b']
  else if c.toNat = 9 then ['\\', 't']
  else if c.toNat = 10 then ['\\', 'n']
  else if c.toNat = 12 then ['\\', 'f']
  else if c.toNat = 13 then ['\\', 'r']
  else if c.toNat < 32 then hexEscape c
  else [c]

/-- A string with its quotes. -/
def quote (s : String) : List Char := '"' :: s.toList.flatMap quoteChar ++ ['"']

/-- The characters of a numeral. -/
def isNumberChar (c : Char) : Bool := c.isDigit || ['+', '-', '.', 'e', 'E'].contains c

/-- How numbers are written and read. -/
structure NumberFormat (ν : Type) where
  /-- How a number is written. -/
  write : ν → List Char
  /-- The number that a text says, if it says one. -/
  read : List Char → Option ν
  /-- A number has a text. -/
  write_ne_nil : ∀ n, write n ≠ []
  /-- Its text has only characters of numbers, so that it ends where something else starts. -/
  isNumberChar_write : ∀ n, ∀ c ∈ write n, isNumberChar c = true
  /-- A number that is written is read back. -/
  read_write : ∀ n, read (write n) = some n

variable {ν : Type} (format : NumberFormat ν)

mutual

/-- `JSON.stringify` -/
def stringify : Json ν → List Char
  | null => "null".toList
  | bool true => "true".toList
  | bool false => "false".toList
  | number n => format.write n
  | string s => quote s
  | array items => '[' :: stringifyItems items
  | object properties => '{' :: stringifyProperties properties

/-- The items, with commas between them, and the bracket. -/
def stringifyItems : List (Json ν) → List Char
  | [] => [']']
  | [j] => stringify j ++ [']']
  | j :: j' :: js => stringify j ++ ',' :: stringifyItems (j' :: js)

/-- The properties of an object, and the brace that closes it. -/
def stringifyProperties : List (String × Json ν) → List Char
  | [] => ['}']
  | [(k, j)] => quote k ++ ':' :: (stringify j ++ ['}'])
  | (k, j) :: p :: ps => quote k ++ ':' :: (stringify j ++ ',' :: stringifyProperties (p :: ps))

end

/-! ## Reading -/

/-- What may stand between two tokens. -/
def isSpace (c : Char) : Bool := [' ', '\t', '\n', '\r'].contains c

/-- What follows the white space at the front. -/
def skipSpace (text : List Char) : List Char := text.dropWhile isSpace

/-- The value of four hexadecimal digits. -/
def hex4 : List Char → Option (Nat × List Char)
  | a :: b :: c :: d :: rest =>
    match [a, b, c, d].mapM Double.digitValue with
    | some [x, y, z, w] => some (4096 * x + 256 * y + 16 * z + w, rest)
    | _ => none
  | _ => none

/-- What stands after a backslash. A pair of escaped surrogates is one character; a lone one is replaced. -/
def readEscape : List Char → Option (Char × List Char)
  | 'u' :: rest =>
    match hex4 rest with
    | none => none
    | some (high, rest) =>
      if 0xD800 ≤ high ∧ high < 0xDC00 then
        match rest with
        | '\\' :: 'u' :: rest' =>
          match hex4 rest' with
          | some (low, rest'') =>
            if 0xDC00 ≤ low ∧ low < 0xE000 then
              some (Char.ofNat (0x10000 + 1024 * (high - 0xD800) + (low - 0xDC00)), rest'')
            else some ('\uFFFD', rest)
          | none => none
        | _ => some ('\uFFFD', rest)
      else if 0xDC00 ≤ high ∧ high < 0xE000 then some ('\uFFFD', rest)
      else some (Char.ofNat high, rest)
  | 'b' :: rest => some (Char.ofNat 8, rest)
  | 't' :: rest => some (Char.ofNat 9, rest)
  | 'n' :: rest => some (Char.ofNat 10, rest)
  | 'f' :: rest => some (Char.ofNat 12, rest)
  | 'r' :: rest => some (Char.ofNat 13, rest)
  | '"' :: rest => some ('"', rest)
  | '\\' :: rest => some ('\\', rest)
  | '/' :: rest => some ('/', rest)
  | _ => none

/-- The characters up to the closing quote, and what follows it. -/
def readQuoted : Nat → List Char → Option (List Char × List Char)
  | 0, _ => none
  | _ + 1, [] => none
  | fuel + 1, c :: rest =>
    if c = '"' then some ([], rest)
    else if c = '\\' then
      match readEscape rest with
      | some (c, rest) => (readQuoted fuel rest).map fun (s, rest) => (c :: s, rest)
      | none => none
    else if c.toNat < 32 then none
    else (readQuoted fuel rest).map fun (s, rest) => (c :: s, rest)

/-- A string, and what follows it. -/
def readString : List Char → Option (String × List Char)
  | '"' :: rest => (readQuoted (rest.length + 1) rest).map fun (s, rest) => (String.ofList s, rest)
  | _ => none

/-- A keyword, and what follows it. -/
def readKeyword (keyword : String) (value : Json ν) (text : List Char) : Option (Json ν × List Char) :=
  if keyword.toList <+: text then some (value, text.drop keyword.toList.length) else none

/-- A number at the front: it goes as far as its characters do. -/
def readNumber (text : List Char) : Option (Json ν × List Char) :=
  (format.read (text.takeWhile isNumberChar)).map fun n => (number n, text.dropWhile isNumberChar)

/-- `object[key] = value`, for the properties of a new object. -/
def assign (properties : List (String × Json ν)) (key : String) (value : Json ν) : List (String × Json ν) :=
  if key ∈ properties.map Prod.fst then
    properties.map fun p => if p.1 = key then (key, value) else p
  else properties ++ [(key, value)]

mutual

/-- A value at the front, to a depth, and what follows it. -/
def readValue : Nat → List Char → Option (Json ν × List Char)
  | 0, _ => none
  | fuel + 1, text =>
    match skipSpace text with
    | [] => none
    | c :: rest =>
      if c = 'n' then readKeyword "null" null (c :: rest)
      else if c = 't' then readKeyword "true" (bool true) (c :: rest)
      else if c = 'f' then readKeyword "false" (bool false) (c :: rest)
      else if c = '"' then (readString (c :: rest)).map fun (s, rest) => (string s, rest)
      else if c = '[' then
        match skipSpace rest with
        | ']' :: rest => some (array [], rest)
        | rest => (readItems fuel rest).map fun (items, rest) => (array items, rest)
      else if c = '{' then
        match skipSpace rest with
        | '}' :: rest => some (object [], rest)
        | rest => (readProperties fuel [] rest).map fun (properties, rest) => (object properties, rest)
      else readNumber format (c :: rest)

/-- The items up to the bracket, and what follows it. -/
def readItems : Nat → List Char → Option (List (Json ν) × List Char)
  | 0, _ => none
  | fuel + 1, text =>
    match readValue fuel text with
    | none => none
    | some (j, rest) =>
      match skipSpace rest with
      | ']' :: rest => some ([j], rest)
      | ',' :: rest => (readItems fuel rest).map fun (items, rest) => (j :: items, rest)
      | _ => none

/-- The properties up to the brace, set one after the other. -/
def readProperties : Nat → List (String × Json ν) → List Char →
    Option (List (String × Json ν) × List Char)
  | 0, _, _ => none
  | fuel + 1, properties, text =>
    match readString (skipSpace text) with
    | none => none
    | some (key, rest) =>
      match skipSpace rest with
      | ':' :: rest =>
        match readValue fuel rest with
        | none => none
        | some (value, rest) =>
          match skipSpace rest with
          | '}' :: rest => some (assign properties key value, rest)
          | ',' :: rest => readProperties fuel (assign properties key value) rest
          | _ => none
      | _ => none

end

/-- `JSON.parse`; `none` is that it throws. -/
def parse (text : List Char) : Option (Json ν) :=
  match readValue format (text.length + 1) text with
  | some (j, rest) => if skipSpace rest = [] then some j else none
  | none => none

/-! ## Objects without a name twice -/

mutual

/-- No object has two properties of one name, at any depth. -/
def Distinct : Json ν → Prop
  | array items => DistinctItems items
  | object properties => (properties.map Prod.fst).Nodup ∧ DistinctProperties properties
  | _ => True

/-- `Distinct`, of each item of an array. -/
def DistinctItems : List (Json ν) → Prop
  | [] => True
  | j :: js => Distinct j ∧ DistinctItems js

/-- `Distinct`, of each value of an object. -/
def DistinctProperties : List (String × Json ν) → Prop
  | [] => True
  | (_, j) :: ps => Distinct j ∧ DistinctProperties ps

end

end Json
