import SupplyChain.Text.JsString

/-!
# The text format of metrics

The samples of a text in the Prometheus exposition format: one line each, a metric name, labels between
braces whose values are quoted with the escapes `\\`, `\"` and `\n`, a value, and perhaps a timestamp.
Lines that are empty or comments hold no sample.
-/

namespace Exposition

open JsString

/-- A label of a sample. -/
structure Label where
  name : JsString
  value : JsString
  deriving DecidableEq

/-- A sample: a metric, its labels, and a value read as a `ν`. -/
structure Sample (ν : Type) where
  metric : JsString
  labels : List Label
  value : ν

/-- How the value of a sample is read. -/
abbrev ValueReader (ν : Type) := JsString → Option ν

/-- A space or a tab, which may stand between tokens. -/
def isBlank (u : UInt16) : Bool := u == unit ' ' || u == unit '\t'

/-- What may start the name of a label. -/
def isLetter (u : UInt16) : Bool :=
  (unit 'a' ≤ u && u ≤ unit 'z') || (unit 'A' ≤ u && u ≤ unit 'Z') || u == unit '_'

/-- What else a name may contain. -/
def isDigit (u : UInt16) : Bool := unit '0' ≤ u && u ≤ unit '9'

/-- A name starts with a letter, and goes on with letters and digits. -/
def isName (letter : UInt16 → Bool) : JsString → Bool
  | [] => false
  | u :: rest => letter u && rest.all fun u => letter u || isDigit u

/-- The letters of the name of a metric. -/
def isMetricLetter (u : UInt16) : Bool := isLetter u || u == unit ':'

/-- The name at the front of a text, and what follows it. -/
def readName (letter : UInt16 → Bool) (text : JsString) : Option (JsString × JsString) :=
  let name := text.takeWhile fun u => letter u || isDigit u
  if isName letter name then some (name, text.dropWhile fun u => letter u || isDigit u) else none

/-- What follows the blanks at the front. -/
def skipBlanks (text : JsString) : JsString := text.dropWhile isBlank

/-- What an escape stands for. -/
def escaped (e : UInt16) : Option UInt16 :=
  if e = unit '\\' then some (unit '\\')
  else if e = unit '"' then some (unit '"')
  else if e = unit 'n' then some (unit '\n')
  else none

/-- A label value up to its closing quote, and what follows. -/
def readQuoted : JsString → Option (JsString × JsString)
  | [] => none
  | u :: rest =>
    if u = unit '"' then some ([], rest)
    else if u = unit '\\' then
      match rest with
      | e :: rest =>
        match escaped e with
        | some c => (readQuoted rest).map fun (value, rest) => (c :: value, rest)
        | none => none
      | [] => none
    else if u = unit '\n' then none
    else (readQuoted rest).map fun (value, rest) => (u :: value, rest)

/-- A label, and what follows. -/
def readLabel (text : JsString) : Option (Label × JsString) :=
  match readName isLetter text with
  | none => none
  | some (name, rest) =>
    match skipBlanks rest with
    | equals :: rest =>
      if equals = unit '=' then
        match skipBlanks rest with
        | quote :: rest =>
          if quote = unit '"' then (readQuoted rest).map fun (value, rest) => (⟨name, value⟩, rest)
          else none
        | [] => none
      else none
    | [] => none

/-- The labels up to the closing brace, and what follows. A comma may stand after the last of them. -/
def readLabels : Nat → JsString → Option (List Label × JsString)
  | 0, _ => none
  | fuel + 1, text =>
    match skipBlanks text with
    | [] => none
    | u :: rest =>
      if u = unit '}' then some ([], rest)
      else
        match readLabel (u :: rest) with
        | none => none
        | some (label, rest) =>
          match skipBlanks rest with
          | [] => none
          | v :: rest =>
            if v = unit '}' then some ([label], rest)
            else if v = unit ',' then
              (readLabels fuel rest).map fun (labels, rest) => (label :: labels, rest)
            else none

/-- The words of a text. -/
def words (text : JsString) : List JsString := (text.splitOnP isBlank).filter (· ≠ [])

/-- `-` and digits, or digits. -/
def isTimestamp (word : JsString) : Bool :=
  let digits := if word.head? = some (unit '-') then word.tail else word
  !digits.isEmpty && digits.all isDigit

/-- The value, and perhaps a timestamp. -/
def readValue {ν : Type} (reader : ValueReader ν) (text : JsString) : Option ν :=
  match words text with
  | [value] => reader value
  | [value, timestamp] => if isTimestamp timestamp then reader value else none
  | _ => none

/-- The labels of a sample, if it has some. -/
def readBraces (text : JsString) : Option (List Label × JsString) :=
  match text with
  | [] => some ([], [])
  | u :: rest => if u = unit '{' then readLabels (rest.length + 1) rest else some ([], u :: rest)

/-- The sample that a line says. -/
def readSample {ν : Type} (reader : ValueReader ν) (line : JsString) : Option (Sample ν) := do
  let (metric, rest) ← readName isMetricLetter line
  let (labels, rest) ← readBraces (skipBlanks rest)
  let value ← readValue reader rest
  return ⟨metric, labels, value⟩

/-- The sample of a line, if it holds one. -/
def readLine {ν : Type} (reader : ValueReader ν) (line : JsString) : Option (Option (Sample ν)) :=
  match skipBlanks line with
  | [] => some none
  | u :: rest => if u = unit '#' then some none else (readSample reader (u :: rest)).map some

/-- The samples of a text; `none` is that it does not have the format. -/
def read {ν : Type} (reader : ValueReader ν) (text : JsString) : Option (List (Sample ν)) :=
  ((text.splitOn (unit '\n')).mapM (readLine reader)).map List.reduceOption

/-! ## Writing labels without escapes -/

/-- No quote, no backslash and no newline. -/
def Clean (value : JsString) : Prop :=
  unit '"' ∉ value ∧ unit '\\' ∉ value ∧ unit '\n' ∉ value

instance (value : JsString) : Decidable (Clean value) :=
  inferInstanceAs (Decidable (unit '"' ∉ value ∧ unit '\\' ∉ value ∧ unit '\n' ∉ value))

/-- How a label is written. -/
def Label.text (l : Label) : JsString := l.name ++ unit '=' :: unit '"' :: l.value ++ [unit '"']

/-- The labels one after the other, with commas between them. -/
def labelsText : List Label → JsString
  | [] => []
  | [l] => l.text
  | l :: ls => l.text ++ unit ',' :: labelsText ls

end Exposition
