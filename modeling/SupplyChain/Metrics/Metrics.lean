import SupplyChain.Collections.InsertionMap
import SupplyChain.Text.Exposition
import SupplyChain.Text.Double
import Mathlib.Data.Multiset.MapFold

/-!
# Counters

`Counter` and `formatLabels` of `metrics.ts`, the counters of `metrics`, and what it means that their text
can be read back. A count is a double, so it stops at 2^53.
-/

namespace SupplyChain

open Collections JsString

/-- `Record<string, string>`: the properties in their order. -/
abbrev Labels := List (JsString × JsString)

/-- An entry of the counter's map. -/
structure LabeledCount where
  /-- The labels of the first `inc` of the key. -/
  labels : Labels
  /-- How often it was counted, up to 2^53. -/
  count : Nat

/-- `count++` -/
def LabeledCount.increment (c : LabeledCount) : LabeledCount :=
  { c with count := if c.count < 2 ^ 53 then c.count + 1 else c.count }

/-- A counter. -/
structure Counter where
  name : JsString
  help : JsString
  /-- The entries, by the JSON of their labels. -/
  counts : InsertionMap JsString LabeledCount

/-- `formatLabels`: values are written as they are. -/
def formatLabels (labels : Labels) : JsString :=
  if labels = [] then []
  else [unit '{'] ++
    (ascii ",").intercalate (labels.map fun p => p.1 ++ ascii "=\"" ++ p.2 ++ ascii "\"") ++ [unit '}']

namespace Counter

/-- `inc` -/
def inc (c : Counter) (labels : Labels) : Counter :=
  let key := stringify labels
  match c.counts.get key with
  | some existing => { c with counts := c.counts.set key existing.increment }
  | none => { c with counts := c.counts.set key ⟨labels, 1⟩ }

/-- The line of a label set. -/
def row (c : Counter) (entry : LabeledCount) : JsString :=
  c.name ++ formatLabels entry.labels ++ ascii " " ++ digits entry.count

/-- `toPrometheusText` -/
def toPrometheusText (c : Counter) : JsString :=
  let lines :=
    [ascii "# HELP " ++ c.name ++ ascii " " ++ c.help, ascii "# TYPE " ++ c.name ++ ascii " counter"]
  let lines :=
    if c.counts.values = [] then lines ++ [c.name ++ ascii " 0"]
    else lines ++ c.counts.values.map c.row
  (ascii "\n").intercalate lines

end Counter

/-- A counter as it is declared in `metrics` and used by its callers, always with the same label names. -/
structure CounterUse where
  /-- The name that the counter is made with. -/
  name : JsString
  /-- The text of its `HELP` line. -/
  help : JsString
  /-- The labels of each `inc`, in the order in which the call site writes them. -/
  labelNames : List JsString
  /-- The name is one of a metric. -/
  name_valid : Exposition.isName Exposition.isMetricLetter name = true
  /-- The text stays on its line. -/
  help_line : unit '\n' ∉ help
  /-- The labels have the names of labels. -/
  labelNames_valid : ∀ k ∈ labelNames, Exposition.isName Exposition.isLetter k = true
  /-- No call site gives a label twice. -/
  labelNames_nodup : labelNames.Nodup

namespace CounterUse

/-- The values of a label set. -/
abbrev Values (u : CounterUse) := Vector JsString u.labelNames.length

variable (u : CounterUse)

/-- The object that `inc` is called with. -/
def labels (values : u.Values) : Labels := u.labelNames.zip values.toList

/-- The counter that the module makes. -/
def new : Counter := ⟨u.name, u.help, .empty⟩

/-- The counter after some calls of `inc`. -/
def after (incs : List u.Values) : Counter := (incs.map u.labels).foldl Counter.inc u.new

end CounterUse

/-- `metrics.reservationsAccepted` -/
def reservationsAccepted : CounterUse where
  name := ascii "reservations_accepted_total"
  help := ascii "Total accepted inventory reservations"
  labelNames := [ascii "sku", ascii "warehouseId"]
  name_valid := by decide
  help_line := by decide
  labelNames_valid := by decide
  labelNames_nodup := by decide

/-- `metrics.reservationsRejected` -/
def reservationsRejected : CounterUse where
  name := ascii "reservations_rejected_total"
  help := ascii "Total rejected inventory reservations (insufficient stock)"
  labelNames := [ascii "sku", ascii "warehouseId"]
  name_valid := by decide
  help_line := by decide
  labelNames_valid := by decide
  labelNames_nodup := by decide

/-- `metrics.sagaOutcomes` -/
def sagaOutcomes : CounterUse where
  name := ascii "saga_outcomes_total"
  help := ascii "Order saga outcomes by final status"
  labelNames := [ascii "status"]
  name_valid := by decide
  help_line := by decide
  labelNames_valid := by decide
  labelNames_nodup := by decide

/-! ## Reading the text back -/

/-- A reader of floats, which reads the digits of a natural number that a double holds as that number. -/
structure FloatReader where
  /-- The number that a value says. -/
  read : Exposition.ValueReader Double
  /-- It reads the digits of the integers that a counter can count to. -/
  read_digits : ∀ n ≤ 2 ^ 53, read (digits n) = some (Double.ofInt n)

/-- A sample as what it says: a metric, a set of labels and a number. -/
abbrev Fact := JsString × Multiset Exposition.Label × Double

/-- What a sample says. -/
def factOf (sample : Exposition.Sample Double) : Fact := (sample.metric, sample.labels, sample.value)

namespace CounterUse

variable (u : CounterUse)

/-- The labels of some values. -/
def labelList (values : u.Values) : List Exposition.Label :=
  (u.labels values).map fun p => ⟨p.1, p.2⟩

/-- What the text ought to say of some values: the number of the calls with them. -/
def fact (incs : List u.Values) (values : u.Values) : Fact :=
  (u.name, Multiset.ofList (u.labelList values), Double.ofInt (incs.count values))

/-- The text is read as one sample for each label set, with the number of its calls, and no other. -/
def ReadsBack (reader : FloatReader) (incs : List u.Values) : Prop :=
  ∃ samples, Exposition.read reader.read (u.after incs).toPrometheusText = some samples ∧
    (samples.map factOf).Perm (incs.dedup.map (u.fact incs))

end CounterUse

end SupplyChain
