import SupplyChain.Metrics.Metrics
import SupplyChain.Collections.Proofs.InsertionMapProofs
import SupplyChain.Text.Proofs.ExpositionProofs
import Mathlib.Algebra.BigOperators.Group.Multiset.Basic
import Mathlib.Algebra.Order.BigOperators.Group.List
import Mathlib.Data.List.Dedup

/-!
# Counters are read back if and only if their label values need no escapes

A counter has one row for each label set. A row is read as at least one sample, so that as many samples as
label sets leave one for each row; and as the labels that are read are no longer than their row, the label
sets come out only if every row says exactly what it was written for.
-/

namespace SupplyChain

open Collections JsString Exposition

namespace CounterUse

variable (u : CounterUse)

/-! ## The counts -/

/-- What a counter keeps of some values. -/
def entry (incs : List u.Values) (values : u.Values) : LabeledCount :=
  ⟨u.labels values, min (incs.count values) (2 ^ 53)⟩

theorem labels_inj {values values' : u.Values} (h : u.labels values = u.labels values') : values = values' := by
  have hsnd := congrArg (List.map Prod.snd) h
  unfold labels at hsnd
  rw [List.map_snd_zip (by simp), List.map_snd_zip (by simp)] at hsnd
  exact Vector.toList_inj.mp hsnd

theorem stringify_labels_inj {values values' : u.Values}
    (h : stringify (u.labels values) = stringify (u.labels values')) : values = values' :=
  Vector.toList_inj.mp (stringify_zip_inj (by simp) (by simp) h)

/-- The keys of a counter are the values of its calls, and each has its entry. -/
structure Counts (c : Counter) (incs : List u.Values) : Prop where
  name : c.name = u.name
  help : c.help = u.help
  get : ∀ values, c.counts.get (stringify (u.labels values)) =
    if values ∈ incs then some (u.entry incs values) else none
  keys : ∀ {key entry}, c.counts.get key = some entry → key = stringify entry.labels ∧ ∃ values ∈ incs,
    entry.labels = u.labels values

variable {u}

theorem increment_entry (incs : List u.Values) (values : u.Values) :
    (u.entry incs values).increment = u.entry (incs ++ [values]) values := by
  unfold entry LabeledCount.increment
  rw [List.count_append, List.count_singleton_self]
  dsimp only
  congr 1
  split <;> omega

theorem Counts.inc {c : Counter} {incs : List u.Values} (h : u.Counts c incs) (values : u.Values) :
    u.Counts (c.inc (u.labels values)) (incs ++ [values]) := by
  have hget := h.get values
  obtain ⟨entry', hcounts, hentry⟩ : ∃ entry', (c.inc (u.labels values)) =
      { c with counts := c.counts.set (stringify (u.labels values)) entry' } ∧
      entry' = u.entry (incs ++ [values]) values := by
    unfold Counter.inc
    dsimp only
    by_cases hmem : values ∈ incs
    · rw [if_pos hmem] at hget
      rw [hget]
      exact ⟨_, rfl, increment_entry incs values⟩
    · rw [if_neg hmem] at hget
      rw [hget]
      refine ⟨_, rfl, ?_⟩
      rw [entry, List.count_append, List.count_eq_zero.mpr hmem, List.count_singleton_self]
      rfl
  rw [hcounts]
  refine ⟨h.name, h.help, fun values' => ?_, fun {key entry} hkey => ?_⟩
  · dsimp only
    rw [InsertionMap.get_set]
    by_cases heq : values' = values
    · subst heq
      rw [if_pos rfl, if_pos (by simp), hentry]
    · have hmem : values' ∈ incs ++ [values] ↔ values' ∈ incs := by simp [heq]
      have hsame : u.entry (incs ++ [values]) values' = u.entry incs values' := by
        simp [entry, List.count_append, Ne.symm heq]
      rw [if_neg fun hkey => heq (u.stringify_labels_inj hkey), h.get values', hsame]
      simp only [hmem]
  · dsimp only at hkey
    rw [InsertionMap.get_set] at hkey
    split at hkey
    · rename_i hsame
      cases hkey
      rw [hentry, hsame]
      exact ⟨rfl, values, by simp, rfl⟩
    · obtain ⟨hkeyEq, values', hvalues', hlabels⟩ := h.keys hkey
      exact ⟨hkeyEq, values', by simp [hvalues'], hlabels⟩

theorem counts_after (incs : List u.Values) : u.Counts (u.after incs) incs := by
  induction incs using List.reverseRecOn with
  | nil => exact ⟨rfl, rfl, fun _ => rfl, fun h => by cases h⟩
  | append_singleton incs values ih =>
    have hafter : u.after (incs ++ [values]) = (u.after incs).inc (u.labels values) := by
      simp [after]
    rw [hafter]
    exact ih.inc values

/-- The entries of a counter, in the order of their keys. -/
theorem exists_values (incs : List u.Values) :
    ∃ values : List u.Values, (u.after incs).counts.values = values.map (u.entry incs) ∧
      values.Perm incs.dedup := by
  have hcounts := counts_after incs
  have hmem : ∀ entry, entry ∈ (u.after incs).counts.values ↔ entry ∈ incs.dedup.map (u.entry incs) := by
    intro entry
    rw [InsertionMap.mem_values_iff, List.mem_map]
    constructor
    · rintro ⟨key, hkey⟩
      obtain ⟨rfl, values, hvalues, hlabels⟩ := hcounts.keys hkey
      rw [hlabels, hcounts.get, if_pos hvalues] at hkey
      exact ⟨values, List.mem_dedup.mpr hvalues, Option.some.inj hkey⟩
    · rintro ⟨values, hvalues, rfl⟩
      exact ⟨stringify (u.labels values), by rw [hcounts.get, if_pos (List.mem_dedup.mp hvalues)]⟩
  have hnodup : (u.after incs).counts.values.Nodup :=
    (InsertionMap.nodup_values fun hkey => (hcounts.keys hkey).1.symm).of_map
  have hnodup' : (incs.dedup.map (u.entry incs)).Nodup :=
    (List.nodup_dedup incs).map fun _ _ h => u.labels_inj (congrArg LabeledCount.labels h)
  have hperm := (List.perm_ext_iff_of_nodup hnodup hnodup').mpr hmem
  exact (congrFun (congrFun (List.eq_map_comp_perm (u.entry incs)) _) incs.dedup).mpr hperm

/-! ## The rows -/

variable (u)

/-- The row of some values, as the text has it. -/
def rowText (incs : List u.Values) (values : u.Values) : JsString :=
  (u.after incs).row (u.entry incs values)

theorem formatLabels_labels (values : u.Values) (hne : u.labelNames ≠ []) :
    formatLabels (u.labels values) = unit '{' :: (labelsText (u.labelList values) ++ [unit '}']) := by
  have hlabels : u.labels values ≠ [] := by
    rw [labels, Ne, List.zip_eq_nil_iff, not_or]
    refine ⟨hne, fun hnil => hne ?_⟩
    simpa using congrArg List.length hnil
  have htext : ∀ labels : Labels, (ascii ",").intercalate (labels.map fun p => p.1 ++ ascii "=\"" ++ p.2 ++
      ascii "\"") = labelsText (labels.map fun p => ⟨p.1, p.2⟩) := by
    intro labels
    induction labels with
    | nil => rfl
    | cons p labels ih =>
      cases labels with
      | nil => simp [labelsText, Label.text, ascii]
      | cons p' labels =>
        rw [List.map_cons] at ih
        rw [List.map_cons, List.map_cons, intercalate_cons_cons, ih]
        simp [labelsText, Label.text, ascii]
  rw [formatLabels, if_neg hlabels, htext]
  rfl

theorem rowText_labelled (incs : List u.Values) (values : u.Values) (hne : u.labelNames ≠ []) :
    u.rowText incs values = u.name ++ unit '{' :: (labelsText (u.labelList values) ++
      unit '}' :: unit ' ' :: digits (min (incs.count values) (2 ^ 53))) := by
  rw [rowText, Counter.row, (counts_after incs).name, entry, u.formatLabels_labels values hne]
  simp [ascii]

theorem rowText_unlabelled (incs : List u.Values) (values : u.Values) (hnil : u.labelNames = []) :
    u.rowText incs values = u.name ++ unit ' ' :: digits (min (incs.count values) (2 ^ 53)) := by
  have hlabels : u.labels values = [] := List.zip_eq_nil_iff.mpr (Or.inl hnil)
  rw [rowText, Counter.row, (counts_after incs).name, entry, hlabels, formatLabels, if_pos rfl]
  simp [ascii]

/-! ## The samples of the rows -/

theorem digits_ne_nil (n : Nat) : digits n ≠ [] := by
  simp [digits, Nat.toDigits_ne_nil]

theorem isDigit_unit {c : Char} (h : c.isDigit = true) : isDigit (unit c) = true := by
  simp only [Char.isDigit, Bool.and_eq_true, decide_eq_true_eq] at h
  have hlow : 48 ≤ c.toNat := h.1
  have hhigh : c.toNat ≤ 57 := h.2
  simp only [isDigit, unit, Bool.and_eq_true, decide_eq_true_eq, UInt16.le_iff_toNat_le]
  simp
  omega

theorem isDigit_of_mem_digits {n : Nat} {x : UInt16} (h : x ∈ digits n) : isDigit x = true := by
  obtain ⟨c, hc, rfl⟩ := List.mem_map.mp h
  exact isDigit_unit (Nat.isDigit_of_mem_toDigits (by omega) (by omega) hc)

theorem length_labelList (values : u.Values) : (u.labelList values).length = u.labelNames.length := by
  simp [labelList, labels]

theorem isName_labelList {values : u.Values} {l : Label} (h : l ∈ u.labelList values) :
    isName isLetter l.name = true := by
  obtain ⟨p, hp, rfl⟩ := List.mem_map.mp h
  exact u.labelNames_valid _ (List.of_mem_zip hp).1

theorem clean_labelList {values : u.Values} :
    (∀ l ∈ u.labelList values, Clean l.value) ↔ ∀ value ∈ values.toList, Clean value := by
  have hvalues : (u.labelList values).map Label.value = values.toList := by
    rw [labelList, List.map_map]
    exact List.map_snd_zip (by simp)
  rw [← hvalues]
  exact List.forall_mem_map.symm

theorem labelList_ne_nil (values : u.Values) (hne : u.labelNames ≠ []) : u.labelList values ≠ [] := by
  intro hnil
  have hlength := u.length_labelList values
  rw [hnil] at hlength
  exact hne (List.length_eq_zero_iff.mp hlength.symm)

/-- A row whose values need no escapes is read as what it was written for. -/
theorem read_rowText (reader : FloatReader) (incs : List u.Values) {values : u.Values}
    (hclean : ∀ value ∈ values.toList, Clean value) :
    read reader.read (u.rowText incs values) =
      some [⟨u.name, u.labelList values, Double.ofInt (min (incs.count values) (2 ^ 53) : Nat)⟩] := by
  have hvalue := reader.read_digits (min (incs.count values) (2 ^ 53)) (Nat.min_le_right _ _)
  by_cases hnil : u.labelNames = []
  · have hlabels : u.labelList values = [] :=
      List.length_eq_zero_iff.mp (by rw [u.length_labelList, hnil, List.length_nil])
    rw [u.rowText_unlabelled incs values hnil, hlabels]
    exact read_unlabelled u.name_valid (digits_ne_nil _) (fun _ => isDigit_of_mem_digits) hvalue
  · rw [u.rowText_labelled incs values hnil]
    exact read_labelled u.name_valid (digits_ne_nil _) (fun _ => isDigit_of_mem_digits) hvalue
      (u.labelList_ne_nil values hnil) (fun _ => u.isName_labelList) (u.clean_labelList.mpr hclean)

theorem mapM_eq_some {α β : Type} {f : α → Option (List β)} {l : List α} {bs : List (List β)} :
    l.mapM f = some bs ↔ (∀ a ∈ l, ∃ b, f a = some b) ∧ bs = l.map fun a => (f a).getD [] := by
  induction l generalizing bs with
  | nil => simp [eq_comm]
  | cons a l ih =>
    rw [List.mapM_cons]
    cases ha : f a with
    | none => simp [ha]
    | some b =>
      cases hl : l.mapM f with
      | none =>
        have hnot : ¬ ∀ a ∈ l, ∃ b, f a = some b := fun hall => by
          have hsome := ih.mpr ⟨hall, rfl⟩
          rw [hl] at hsome
          cases hsome
        simp [ha, hnot]
      | some bs' =>
        obtain ⟨hall, rfl⟩ := ih.mp hl
        constructor
        · intro h
          cases h
          exact ⟨List.forall_mem_cons.mpr ⟨⟨b, ha⟩, hall⟩, by simp [ha]⟩
        · rintro ⟨-, rfl⟩
          simp [ha]

/-- The samples of a row. -/
def rowSamples (reader : FloatReader) (incs : List u.Values) (values : u.Values) : List (Sample Double) :=
  (read reader.read (u.rowText incs values)).getD []

/-- The text is read row by row. -/
theorem read_text (reader : FloatReader) {incs rows : List u.Values} (hne : rows ≠ [])
    (hrows : (u.after incs).counts.values = rows.map (u.entry incs)) {samples : List (Sample Double)} :
    read reader.read (u.after incs).toPrometheusText = some samples ↔
      (∀ values ∈ rows, ∃ part, read reader.read (u.rowText incs values) = some part) ∧
        samples = (rows.map (u.rowSamples reader incs)).flatten := by
  have hcounts := counts_after incs
  have hname : unit '\n' ∉ u.name := notMem_of_isName u.name_valid (by decide)
  have hhelp : read reader.read (ascii "# HELP " ++ u.name ++ ascii " " ++ u.help) = some [] := by
    have hrest : unit '\n' ∉ ascii " HELP " ++ u.name ++ ascii " " ++ u.help := by
      simp only [List.mem_append, not_or]
      exact ⟨⟨⟨by decide, hname⟩, by decide⟩, u.help_line⟩
    exact read_comment hrest
  have htype : read reader.read (ascii "# TYPE " ++ u.name ++ ascii " counter") = some [] := by
    have hrest : unit '\n' ∉ ascii " TYPE " ++ u.name ++ ascii " counter" := by
      simp only [List.mem_append, not_or]
      exact ⟨⟨by decide, hname⟩, by decide⟩
    exact read_comment hrest
  have htext : (u.after incs).toPrometheusText = (ascii "\n").intercalate
      ((ascii "# HELP " ++ u.name ++ ascii " " ++ u.help) :: (ascii "# TYPE " ++ u.name ++ ascii " counter") ::
        rows.map (u.rowText incs)) := by
    rw [Counter.toPrometheusText, hcounts.name, hcounts.help, hrows, if_neg (by simpa using hne), List.map_map]
    rfl
  have hparts : (rows.map (u.rowText incs)).mapM (read reader.read) =
      rows.mapM fun values => read reader.read (u.rowText incs values) := by
    rw [List.mapM_map]
    rfl
  rw [htext, read_lines (List.cons_ne_nil _ _), List.mapM_cons, List.mapM_cons, hhelp, htype, hparts]
  constructor
  · intro h
    obtain ⟨parts, hparts, rfl⟩ := Option.map_eq_some_iff.mp h
    cases hrowParts : rows.mapM fun values => read reader.read (u.rowText incs values) with
    | none =>
      rw [hrowParts] at hparts
      cases hparts
    | some bs =>
      rw [hrowParts] at hparts
      cases hparts
      obtain ⟨hall, rfl⟩ := mapM_eq_some.mp hrowParts
      exact ⟨hall, rfl⟩
  · rintro ⟨hall, rfl⟩
    rw [mapM_eq_some.mpr ⟨hall, rfl⟩]
    rfl

/-! ## What the text says -/

/-- Numbers that are no greater and have the same sum are the same. -/
theorem eq_of_sum_eq {α : Type} {l : List α} {f g : α → Nat} (hle : ∀ a ∈ l, f a ≤ g a)
    (hsum : (l.map g).sum ≤ (l.map f).sum) : ∀ a ∈ l, f a = g a := by
  intro a ha
  by_contra hne
  have hlt : f a < g a := Nat.lt_of_le_of_ne (hle a ha) hne
  exact Nat.not_lt_of_le hsum (List.sum_lt_sum f g hle ⟨a, ha, hlt⟩)

/-- The length of the labels of a fact, with one more for each. -/
def factSize (fact : Fact) : Nat := (fact.2.1.map fun l => l.text.length + 1).sum

theorem factSize_factOf (sample : Sample Double) : factSize (factOf sample) = size sample.labels := by
  simp [factSize, factOf, size]

theorem factSize_fact (incs : List u.Values) (values : u.Values) :
    factSize (u.fact incs values) = size (u.labelList values) := by
  simp [factSize, fact, size]

section Necessity

variable {u} {reader : FloatReader} {incs rows : List u.Values} {samples : List (Sample Double)}
  (hnames : u.labelNames ≠ [])
  (hread : ∀ values ∈ rows, ∃ part, read reader.read (u.rowText incs values) = some part)
  (hsamples : samples = (rows.map (u.rowSamples reader incs)).flatten)
  (hfacts : (samples.map factOf).Perm (rows.map (u.fact incs)))

include hnames hread

/-- A row gives a sample whose labels are no longer than those of the row. -/
theorem rowSamples_eq_cons {values : u.Values} (hvalues : values ∈ rows) :
    ∃ sample more, u.rowSamples reader incs values = sample :: more ∧
      size sample.labels ≤ size (u.labelList values) ∧ (size (u.labelList values) ≤ size sample.labels →
        labelsText (u.labelList values) = labelsText sample.labels ∧ ∀ l ∈ sample.labels, Clean l.value) := by
  obtain ⟨part, hpart⟩ := hread values hvalues
  have hrow := hpart
  rw [u.rowText_labelled incs values hnames] at hrow
  have htail : unit '}' ∉ unit ' ' :: digits (min (incs.count values) (2 ^ 53)) := fun hmem => by
    obtain hmem | hmem := List.mem_cons.mp hmem
    · exact absurd hmem (by decide)
    · exact absurd (isDigit_of_mem_digits hmem) (by decide)
  obtain ⟨sample, more, rfl, -, hle, htight⟩ := read_braces u.name_valid htail hrow
  rw [length_labelsText (u.labelList_ne_nil values hnames)] at hle htight
  exact ⟨sample, more, by rw [rowSamples, hpart, Option.getD_some], hle, htight⟩

include hsamples hfacts

theorem rowSamples_eq_singleton {values : u.Values} (hvalues : values ∈ rows) :
    ∃ sample, u.rowSamples reader incs values = [sample] := by
  have hone : ∀ values ∈ rows, 1 ≤ (u.rowSamples reader incs values).length := by
    intro values hvalues
    obtain ⟨sample, more, heq, -⟩ := rowSamples_eq_cons hnames hread hvalues
    simp [heq]
  have hlength : samples.length = rows.length := by simpa using hfacts.length_eq
  rw [hsamples, List.length_flatten, List.map_map] at hlength
  have hsum : (rows.map fun values => (u.rowSamples reader incs values).length).sum ≤
      (rows.map fun _ => 1).sum := by
    have hrows : (rows.map fun _ => 1).sum = rows.length := by simp
    exact hrows ▸ hlength.le
  have heq := eq_of_sum_eq hone hsum values hvalues
  exact List.length_eq_one_iff.mp heq.symm

/-- Every row says exactly what it was written for, and its values need no escapes. -/
theorem clean_of_facts {values : u.Values} (hvalues : values ∈ rows) :
    ∀ value ∈ values.toList, Clean value := by
  have hsize : ∀ values ∈ rows, ((u.rowSamples reader incs values).map fun s => size s.labels).sum ≤
      size (u.labelList values) := by
    intro values hvalues
    obtain ⟨sample, hsingle⟩ := rowSamples_eq_singleton hnames hread hsamples hfacts hvalues
    obtain ⟨sample', more, hcons, hle, -⟩ := rowSamples_eq_cons hnames hread hvalues
    obtain ⟨rfl, -⟩ := List.cons.inj (hsingle.symm.trans hcons)
    simpa [hsingle] using hle
  have hsum : (rows.map fun values => size (u.labelList values)).sum ≤
      (rows.map fun values => ((u.rowSamples reader incs values).map fun s => size s.labels).sum).sum := by
    have htotal := (hfacts.map factSize).sum_eq
    rw [List.map_map, List.map_map, hsamples, List.map_flatten, List.sum_flatten, List.map_map,
      List.map_map] at htotal
    refine le_of_eq (Eq.trans ?_ (htotal.symm.trans ?_))
    · refine congrArg List.sum (List.map_congr_left fun values _ => ?_)
      exact (u.factSize_fact incs values).symm
    · refine congrArg List.sum (List.map_congr_left fun values _ => ?_)
      refine congrArg List.sum (List.map_congr_left fun sample _ => ?_)
      exact factSize_factOf sample
  have hexact := eq_of_sum_eq hsize hsum values hvalues
  obtain ⟨sample, hsingle⟩ := rowSamples_eq_singleton hnames hread hsamples hfacts hvalues
  obtain ⟨sample', more, hcons, -, htight⟩ := rowSamples_eq_cons hnames hread hvalues
  obtain ⟨rfl, -⟩ := List.cons.inj (hsingle.symm.trans hcons)
  obtain ⟨htext, hclean⟩ := htight (by simpa [hsingle] using hexact.ge)
  -- The labels of the sample are those of some values, so they have names, and as many as there are.
  obtain ⟨values', -, hfact⟩ : ∃ values' ∈ rows, u.fact incs values' = factOf sample := by
    refine List.mem_map.mp (hfacts.subset (List.mem_map_of_mem ?_))
    rw [hsamples]
    exact List.mem_flatten_of_mem (List.mem_map_of_mem hvalues) (by simp [hsingle])
  have hperm : (u.labelList values').Perm sample.labels :=
    Multiset.coe_eq_coe.mp (congrArg (fun fact : Fact => fact.2.1) hfact)
  refine u.clean_labelList.mp
    (clean_of_labelsText_eq (fun _ => u.isName_labelList) (fun l hl => ?_) ?_ htext hclean)
  · exact u.isName_labelList (hperm.mem_iff.mpr hl)
  · rw [← hperm.length_eq, u.length_labelList, u.length_labelList]

end Necessity

theorem labelList_inj {values values' : u.Values} (h : (u.labelList values).Perm (u.labelList values')) :
    values = values' := by
  refine u.labels_inj ?_
  have hperm : (u.labels values).Perm (u.labels values') :=
    (List.map_perm_map_iff fun p q hpq => Prod.ext (congrArg Label.name hpq) (congrArg Label.value hpq)).mp h
  have hnames : ∀ values : u.Values, (u.labels values).map Prod.fst = u.labelNames := fun values =>
    List.map_fst_zip (by simp)
  have hnodup : ((u.labels values').map Prod.fst).Nodup := hnames values' ▸ u.labelNames_nodup
  refine List.ext_getElem hperm.length_eq fun i hi hi' => ?_
  refine List.inj_on_of_nodup_map hnodup (hperm.subset (List.getElem_mem hi)) (List.getElem_mem hi') ?_
  have hsame := congrArg (fun names => names[i]?) ((hnames values).trans (hnames values').symm)
  simpa [List.getElem?_map, List.getElem?_eq_getElem hi, List.getElem?_eq_getElem hi'] using hsame

variable {u}

/-- The text of a counter that was incremented can be read back if and only if no label value has a quote, a
backslash or a newline, and no count has gone beyond what a number holds. -/
theorem readsBack_iff (reader : FloatReader) {incs : List u.Values} (hne : incs ≠ []) :
    u.ReadsBack reader incs ↔ (∀ values ∈ incs, ∀ value ∈ values.toList, Clean value) ∧
      ∀ values, incs.count values ≤ 2 ^ 53 := by
  obtain ⟨rows, hrows, hperm⟩ := exists_values incs
  have hrowsNe : rows ≠ [] := by
    rintro rfl
    exact hne ((List.dedup_eq_nil incs).mp hperm.nil_eq.symm)
  have hmem : ∀ {values}, values ∈ rows ↔ values ∈ incs := hperm.mem_iff.trans List.mem_dedup
  have hreads : (∀ values ∈ rows, ∀ value ∈ values.toList, Clean value) → ∀ values ∈ rows,
      read reader.read (u.rowText incs values) =
        some [⟨u.name, u.labelList values, Double.ofInt (min (incs.count values) (2 ^ 53) : Nat)⟩] :=
    fun hclean values hvalues => u.read_rowText reader incs (hclean values hvalues)
  constructor
  · rintro ⟨samples, hread, hfacts⟩
    obtain ⟨hparts, hsamples⟩ := (u.read_text reader hrowsNe hrows).mp hread
    have hfacts' := hfacts.trans (hperm.symm.map (u.fact incs))
    have hclean : ∀ values ∈ rows, ∀ value ∈ values.toList, Clean value := by
      intro values hvalues
      by_cases hnames : u.labelNames = []
      · have hlength : values.toList.length = 0 := by simp [hnames]
        simp [List.length_eq_zero_iff.mp hlength]
      · exact clean_of_facts hnames hparts hsamples hfacts' hvalues
    refine ⟨fun values hvalues => hclean values (hmem.mpr hvalues), fun values => ?_⟩
    by_cases hvalues : values ∈ incs
    · obtain ⟨values', hvalues', hfact⟩ := List.mem_map.mp (hfacts.subset (List.mem_map_of_mem
        (a := ⟨u.name, u.labelList values, Double.ofInt (min (incs.count values) (2 ^ 53) : Nat)⟩) (by
          rw [hsamples]
          exact List.mem_flatten_of_mem (List.mem_map_of_mem (hmem.mpr hvalues)) (by
            simp [rowSamples, hreads hclean values (hmem.mpr hvalues)]))))
      have hsame := u.labelList_inj (Multiset.coe_eq_coe.mp (congrArg (fun fact : Fact => fact.2.1) hfact))
      subst hsame
      have hcount := Int.ofNat.inj (Double.ofInt_inj.mp (congrArg (fun fact : Fact => fact.2.2) hfact))
      omega
    · rw [List.count_eq_zero.mpr hvalues]
      exact Nat.zero_le _
  · rintro ⟨hclean, hcount⟩
    have hclean' : ∀ values ∈ rows, ∀ value ∈ values.toList, Clean value :=
      fun values hvalues => hclean values (hmem.mp hvalues)
    refine ⟨_, (u.read_text reader hrowsNe hrows).mpr
      ⟨fun values hvalues => ⟨_, hreads hclean' values hvalues⟩, rfl⟩, ?_⟩
    have hfact : (rows.map (u.rowSamples reader incs)).flatten.map factOf = rows.map (u.fact incs) := by
      have hpart : ∀ values ∈ rows, (u.rowSamples reader incs values).map factOf = [u.fact incs values] := by
        intro values hvalues
        rw [rowSamples, hreads hclean' values hvalues, Nat.min_eq_left (hcount values)]
        rfl
      rw [← List.flatMap_def, List.map_flatMap, List.flatMap_congr hpart, ← List.map_eq_flatMap]
    rw [hfact]
    exact hperm.map (u.fact incs)

/-! ## Two counters -/

theorem ofNat_unit {c : Char} (h : c.isDigit = true) : Char.ofNat (unit c).toNat = c := by
  simp only [Char.isDigit, Bool.and_eq_true, decide_eq_true_eq] at h
  have hhigh : c.toNat ≤ 57 := h.2
  have hunit : (unit c).toNat = c.toNat := by
    rw [unit, UInt16.toNat_ofNat']
    omega
  rw [hunit, Char.ofNat_toNat]

/-- Reading words as numbers. -/
def wordReader : FloatReader where
  read word := some (Double.Number (word.map fun u => Char.ofNat u.toNat))
  read_digits n hn := by
    have hchars : (digits n).map (fun u => Char.ofNat u.toNat) = (n : Int).repr.toList := by
      rw [digits, List.map_map, show (n : Int).repr = n.repr from rfl, Nat.toList_repr]
      refine (List.map_congr_left fun c hc => ?_).trans (List.map_id _)
      exact ofNat_unit (Nat.isDigit_of_mem_toDigits (by omega) (by omega) hc)
    have hbound : |(n : Int)| ≤ 2 ^ 53 := by
      rw [abs_of_nonneg (by omega)]
      omega
    rw [hchars, Double.Number_repr hbound]

theorem palletCount_readsBack :
    reservationsAccepted.ReadsBack wordReader [#v[ascii "pallet", ascii "north"]] :=
  (readsBack_iff wordReader (List.cons_ne_nil _ _)).mpr ⟨by decide, fun values =>
    Nat.le_trans List.count_le_length (by decide)⟩

/-- A `sku` that closes its quote and goes on with a sample of its own. -/
def forgedSku : JsString :=
  ascii "x\",warehouseId=\"north\"\x7d 1\nreservations_accepted_total\x7bsku=\"y"

theorem forgedSku_not_readsBack :
    ¬ reservationsAccepted.ReadsBack wordReader [#v[forgedSku, ascii "north"]] := by
  rintro ⟨samples, hread, hfacts⟩
  have hlength : (read wordReader.read
      (reservationsAccepted.after [#v[forgedSku, ascii "north"]]).toPrometheusText).map List.length = some 2 := by
    decide +kernel
  rw [hread, Option.map_some, ← List.length_map (f := factOf), hfacts.length_eq] at hlength
  exact absurd hlength (by decide)

end CounterUse

end SupplyChain
