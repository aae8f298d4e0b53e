import SupplyChain.Text.Exposition
import Mathlib.Data.List.ReduceOption
import Mathlib.Data.List.TakeWhile

/-!
# What is read from the text of metrics

Labels that are written without escapes are read back if their values need none. And whatever is read,
the text that it was read from is at least as long as the text that is written for it without escapes; it
has that length only if it is that text.
-/

namespace Exposition

open JsString

variable {ν : Type} {reader : ValueReader ν}

/-! ## Names and blanks -/

theorem takeWhile_append_cons {p : UInt16 → Bool} {name rest : JsString} {u : UInt16}
    (hname : name.all p = true) (hu : p u = false) : (name ++ u :: rest).takeWhile p = name := by
  rw [List.takeWhile_append_of_pos (List.all_eq_true.mp hname), List.takeWhile_cons_of_neg (by simp [hu]),
    List.append_nil]

theorem dropWhile_append_cons {p : UInt16 → Bool} {name rest : JsString} {u : UInt16}
    (hname : name.all p = true) (hu : p u = false) : (name ++ u :: rest).dropWhile p = u :: rest := by
  rw [List.dropWhile_append_of_pos (List.all_eq_true.mp hname), List.dropWhile_cons_of_neg (by simp [hu])]

theorem all_of_isName {letter : UInt16 → Bool} {name : JsString} (h : isName letter name = true) :
    name.all (fun u => letter u || isDigit u) = true := by
  cases name with
  | nil => rfl
  | cons u rest =>
    simp only [isName, Bool.and_eq_true] at h
    simp [h.1, h.2]

theorem readName_append_cons {letter : UInt16 → Bool} {name rest : JsString} {u : UInt16}
    (hname : isName letter name = true) (hu : (letter u || isDigit u) = false) :
    readName letter (name ++ u :: rest) = some (name, u :: rest) := by
  have hall := all_of_isName hname
  unfold readName
  dsimp only
  rw [takeWhile_append_cons hall hu, dropWhile_append_cons hall hu, if_pos hname]

theorem eq_append_of_readName {letter : UInt16 → Bool} {text name rest : JsString}
    (h : readName letter text = some (name, rest)) : text = name ++ rest := by
  unfold readName at h
  dsimp only at h
  split at h
  · obtain ⟨rfl, rfl⟩ := Prod.mk.inj (Option.some.inj h)
    exact List.takeWhile_append_dropWhile.symm
  · cases h

theorem skipBlanks_cons {u : UInt16} (hu : isBlank u = false) (rest : JsString) :
    skipBlanks (u :: rest) = u :: rest :=
  List.dropWhile_cons_of_neg (by simp [hu])

/-- What is skipped. -/
theorem exists_skipBlanks (text : JsString) : ∃ blanks, text = blanks ++ skipBlanks text :=
  ⟨text.takeWhile isBlank, List.takeWhile_append_dropWhile.symm⟩

theorem isBlank_of_letter {u : UInt16} (h : isMetricLetter u = true) : isBlank u = false := by
  cases hu : isBlank u with
  | false => rfl
  | true =>
    simp only [isBlank, Bool.or_eq_true, beq_iff_eq] at hu
    obtain rfl | rfl := hu <;> exact absurd h (by decide)

theorem isBlank_of_isDigit {u : UInt16} (h : isDigit u = true) : isBlank u = false := by
  cases hu : isBlank u with
  | false => rfl
  | true =>
    simp only [isBlank, Bool.or_eq_true, beq_iff_eq] at hu
    obtain rfl | rfl := hu <;> exact absurd h (by decide)

/-! ## Labels without escapes are read back -/

section RoundTrip

variable {rest : JsString}

theorem readQuoted_plain {u : UInt16} (hq : u ≠ unit '"') (hb : u ≠ unit '\\') (hn : u ≠ unit '\n')
    (text : JsString) :
    readQuoted (u :: text) = (readQuoted text).map fun (value, rest) => (u :: value, rest) := by
  rw [readQuoted.eq_def]
  dsimp only
  rw [if_neg hq, if_neg hb, if_neg hn]

theorem readQuoted_append {value : JsString} (h : Clean value) :
    readQuoted (value ++ unit '"' :: rest) = some (value, rest) := by
  induction value with
  | nil =>
    rw [List.nil_append, readQuoted.eq_def]
    dsimp only
    rw [if_pos rfl]
  | cons u value ih =>
    obtain ⟨hquote, hbackslash, hnewline⟩ := h
    obtain ⟨hq, hquote⟩ := not_or.mp (mt List.mem_cons.mpr hquote)
    obtain ⟨hb, hbackslash⟩ := not_or.mp (mt List.mem_cons.mpr hbackslash)
    obtain ⟨hn, hnewline⟩ := not_or.mp (mt List.mem_cons.mpr hnewline)
    rw [List.cons_append, readQuoted_plain (Ne.symm hq) (Ne.symm hb) (Ne.symm hn),
      ih ⟨hquote, hbackslash, hnewline⟩, Option.map_some]

theorem readLabel_append {l : Label} (hname : isName isLetter l.name = true) (hvalue : Clean l.value) :
    readLabel (l.text ++ rest) = some (l, rest) := by
  unfold readLabel Label.text
  simp only [List.append_assoc, List.cons_append, List.nil_append]
  rw [readName_append_cons hname (by decide)]
  dsimp only
  rw [skipBlanks_cons (by decide)]
  dsimp only
  rw [if_pos rfl, skipBlanks_cons (by decide)]
  dsimp only
  rw [if_pos rfl, readQuoted_append hvalue]
  rfl

theorem labelsText_cons {l : Label} {ls : List Label} (h : ls ≠ []) :
    labelsText (l :: ls) = l.text ++ unit ',' :: labelsText ls := by
  cases ls with
  | nil => exact absurd rfl h
  | cons l' ls => rfl

theorem isLetter_head {l : Label} (h : isName isLetter l.name = true) :
    ∃ u more, l.text = u :: more ∧ isLetter u = true := by
  cases hname : l.name with
  | nil =>
    rw [hname] at h
    cases h
  | cons u name =>
    rw [hname, isName, Bool.and_eq_true] at h
    exact ⟨u, name ++ unit '=' :: unit '"' :: l.value ++ [unit '"'], by rw [Label.text, hname]; rfl, h.1⟩

/-- One label, and how it goes on. -/
theorem readLabels_cons {l : Label} (hname : isName isLetter l.name = true) (hvalue : Clean l.value)
    (fuel : Nat) {v : UInt16} (hv : isBlank v = false) (text : JsString) :
    readLabels (fuel + 1) (l.text ++ v :: text) =
      if v = unit '}' then some ([l], text)
      else if v = unit ',' then (readLabels fuel text).map fun (labels, rest) => (l :: labels, rest)
      else none := by
  obtain ⟨u, more, htext, hu⟩ := isLetter_head hname
  have hblank : isBlank u = false := isBlank_of_letter (by simp [isMetricLetter, hu])
  have hbrace : u ≠ unit '}' := by
    rintro rfl
    exact absurd hu (by decide)
  have hlabel : readLabel (l.text ++ v :: text) = some (l, v :: text) := readLabel_append hname hvalue
  rw [htext, List.cons_append] at hlabel ⊢
  rw [readLabels, skipBlanks_cons hblank]
  dsimp only
  rw [if_neg hbrace, hlabel]
  dsimp only
  rw [skipBlanks_cons hv]

theorem readLabels_append {labels : List Label} (hne : labels ≠ [])
    (hnames : ∀ l ∈ labels, isName isLetter l.name = true) (hvalues : ∀ l ∈ labels, Clean l.value)
    {fuel : Nat} (hfuel : labels.length ≤ fuel) :
    readLabels fuel (labelsText labels ++ unit '}' :: rest) = some (labels, rest) := by
  induction labels generalizing fuel with
  | nil => exact absurd rfl hne
  | cons l labels ih =>
    obtain ⟨hname, hnames⟩ := List.forall_mem_cons.mp hnames
    obtain ⟨hvalue, hvalues⟩ := List.forall_mem_cons.mp hvalues
    obtain ⟨fuel, rfl⟩ := Nat.exists_eq_add_one_of_ne_zero (Nat.ne_of_gt (Nat.lt_of_lt_of_le (by simp) hfuel))
    cases labels with
    | nil => rw [labelsText, readLabels_cons hname hvalue fuel (by decide), if_pos rfl]
    | cons l' labels =>
      rw [labelsText_cons (List.cons_ne_nil _ _), List.append_assoc, List.cons_append,
        readLabels_cons hname hvalue fuel (by decide), if_neg (by decide), if_pos rfl,
        ih (List.cons_ne_nil _ _) hnames hvalues (Nat.le_of_succ_le_succ hfuel), Option.map_some]

end RoundTrip

/-! ## What is read is no longer than its text -/

/-- What was consumed is as long as what is written without escapes, and has its length only if it is that. -/
structure Spells (consumed written : JsString) (clean : Prop) : Prop where
  length_le : written.length ≤ consumed.length
  tight : consumed.length ≤ written.length → consumed = written ∧ clean

theorem Spells.cons {consumed value : JsString} {u : UInt16} (h : Spells consumed value (Clean value))
    (hq : u ≠ unit '"') (hb : u ≠ unit '\\') (hn : u ≠ unit '\n') :
    Spells (u :: consumed) (u :: value) (Clean (u :: value)) := by
  constructor
  · simpa using h.length_le
  · intro hlength
    obtain ⟨rfl, hquote, hbackslash, hnewline⟩ := h.tight (by simpa using hlength)
    exact ⟨rfl, by simp [hquote, Ne.symm hq], by simp [hbackslash, Ne.symm hb],
      by simp [hnewline, Ne.symm hn]⟩

theorem Spells.escape {consumed value : JsString} {e u : UInt16} (h : Spells consumed value (Clean value)) :
    Spells (unit '\\' :: e :: consumed) (u :: value) (Clean (u :: value)) := by
  have hle := h.length_le
  constructor
  · simp only [List.length_cons]
    omega
  · intro hlength
    simp only [List.length_cons] at hlength
    omega

theorem spells_readQuoted {text value rest : JsString} (h : readQuoted text = some (value, rest)) :
    ∃ consumed, text = consumed ++ unit '"' :: rest ∧ Spells consumed value (Clean value) := by
  induction text using readQuoted.induct generalizing value with
  | case1 => cases h
  | case2 text =>
    rw [readQuoted.eq_def] at h
    dsimp only at h
    rw [if_pos rfl] at h
    obtain ⟨rfl, rfl⟩ := Prod.mk.inj (Option.some.inj h)
    exact ⟨[], rfl, Nat.le_refl _, fun _ => ⟨rfl, by decide⟩⟩
  | case3 e text u he hne ih =>
    rw [readQuoted.eq_def] at h
    dsimp only at h
    rw [if_neg hne, if_pos rfl, he] at h
    obtain ⟨⟨value', rest'⟩, hread, hpair⟩ := Option.map_eq_some_iff.mp h
    obtain ⟨rfl, rfl⟩ := Prod.mk.inj hpair
    obtain ⟨consumed, rfl, hspells⟩ := ih hread
    exact ⟨unit '\\' :: e :: consumed, rfl, hspells.escape⟩
  | case4 e text he hne =>
    rw [readQuoted.eq_def] at h
    dsimp only at h
    rw [if_neg hne, if_pos rfl, he] at h
    cases h
  | case5 hne =>
    rw [readQuoted.eq_def] at h
    dsimp only at h
    rw [if_neg hne, if_pos rfl] at h
    cases h
  | case6 text hq hb =>
    rw [readQuoted.eq_def] at h
    dsimp only at h
    rw [if_neg hq, if_neg hb, if_pos rfl] at h
    cases h
  | case7 u text hq hb hn ih =>
    rw [readQuoted_plain hq hb hn] at h
    obtain ⟨⟨value', rest'⟩, hread, hpair⟩ := Option.map_eq_some_iff.mp h
    obtain ⟨rfl, rfl⟩ := Prod.mk.inj hpair
    obtain ⟨consumed, rfl, hspells⟩ := ih hread
    exact ⟨u :: consumed, rfl, hspells.cons hq hb hn⟩

theorem length_text (l : Label) : l.text.length = l.name.length + l.value.length + 3 := by
  simp [Label.text]
  omega

theorem spells_readLabel {text rest : JsString} {l : Label} (h : readLabel text = some (l, rest)) :
    ∃ consumed, text = consumed ++ rest ∧ Spells consumed l.text (Clean l.value) := by
  unfold readLabel at h
  cases hname : readName isLetter text with
  | none =>
    rw [hname] at h
    cases h
  | some read =>
    obtain ⟨name, rest₁⟩ := read
    rw [hname] at h
    dsimp only at h
    obtain ⟨blanks₁, hblanks₁⟩ := exists_skipBlanks rest₁
    split at h
    · rename_i equals rest₂ hrest₂
      split at h
      · rename_i hequals
        obtain ⟨blanks₂, hblanks₂⟩ := exists_skipBlanks rest₂
        split at h
        · rename_i quote rest₃ hrest₃
          split at h
          · rename_i hquote
            obtain ⟨⟨value, rest₄⟩, hread, hpair⟩ := Option.map_eq_some_iff.mp h
            obtain ⟨rfl, rfl⟩ := Prod.mk.inj hpair
            obtain ⟨consumed, hconsumed, hspells⟩ := spells_readQuoted hread
            have htext : text = name ++ blanks₁ ++ unit '=' :: blanks₂ ++ unit '"' :: consumed ++
                unit '"' :: rest₄ := by
              rw [eq_append_of_readName hname, hblanks₁, hrest₂, hequals, hblanks₂, hrest₃, hquote, hconsumed]
              simp
            refine ⟨name ++ blanks₁ ++ unit '=' :: blanks₂ ++ unit '"' :: consumed ++ [unit '"'], ?_, ?_, ?_⟩
            · rw [htext]
              simp
            · have hle := hspells.length_le
              simp only [length_text, List.length_append, List.length_cons, List.length_nil]
              omega
            · have hle := hspells.length_le
              intro hlength
              simp only [length_text, List.length_append, List.length_cons, List.length_nil] at hlength
              obtain rfl : blanks₁ = [] := List.length_eq_zero_iff.mp (by omega)
              obtain rfl : blanks₂ = [] := List.length_eq_zero_iff.mp (by omega)
              obtain ⟨rfl, hclean⟩ := hspells.tight (by omega)
              exact ⟨by simp [Label.text], hclean⟩
          · cases h
        · cases h
      · cases h
    · cases h

/-- The length of the text of some labels, and one more. -/
def size (labels : List Label) : Nat := (labels.map fun l => l.text.length + 1).sum

theorem size_cons (l : Label) (labels : List Label) : size (l :: labels) = l.text.length + 1 + size labels := by
  simp [size]

theorem length_labelsText {labels : List Label} (hne : labels ≠ []) :
    (labelsText labels).length + 1 = size labels := by
  induction labels with
  | nil => exact absurd rfl hne
  | cons l labels ih =>
    cases labels with
    | nil => simp [labelsText, size]
    | cons l' labels =>
      have hrest := ih (List.cons_ne_nil _ _)
      rw [labelsText_cons (List.cons_ne_nil _ _), size_cons, List.length_append, List.length_cons]
      omega

theorem spells_readLabels {fuel : Nat} {text rest : JsString} {labels : List Label}
    (h : readLabels fuel text = some (labels, rest)) :
    ∃ consumed, text = consumed ++ unit '}' :: rest ∧ size labels ≤ consumed.length + 1 ∧
      (consumed.length + 1 ≤ size labels → consumed = labelsText labels ∧ ∀ l ∈ labels, Clean l.value) := by
  induction fuel generalizing text labels with
  | zero => cases h
  | succ fuel ih =>
    rw [readLabels] at h
    obtain ⟨blanks, hblanks⟩ := exists_skipBlanks text
    split at h
    · cases h
    · rename_i u text₁ htext₁
      split at h
      · rename_i hu
        obtain ⟨rfl, rfl⟩ := Prod.mk.inj (Option.some.inj h)
        refine ⟨blanks, ?_, Nat.zero_le _, fun hlength => ?_⟩
        · rw [hblanks, htext₁, hu]
        · exact absurd hlength (by simp [size])
      · cases hlabel : readLabel (u :: text₁) with
        | none =>
          rw [hlabel] at h
          cases h
        | some read =>
          obtain ⟨l, text₂⟩ := read
          rw [hlabel] at h
          dsimp only at h
          obtain ⟨consumed, hconsumed, hspells⟩ := spells_readLabel hlabel
          have hle := hspells.length_le
          obtain ⟨blanks₂, hblanks₂⟩ := exists_skipBlanks text₂
          split at h
          · cases h
          · rename_i v text₃ htext₃
            have htext : text = blanks ++ consumed ++ blanks₂ ++ v :: text₃ := by
              rw [hblanks, htext₁, hconsumed, hblanks₂, htext₃]
              simp
            split at h
            · rename_i hv
              obtain ⟨rfl, rfl⟩ := Prod.mk.inj (Option.some.inj h)
              refine ⟨blanks ++ consumed ++ blanks₂, by rw [htext, hv], ?_, fun hlength => ?_⟩
              · simp only [size, List.map_cons, List.map_nil, List.sum_cons, List.sum_nil, List.length_append]
                omega
              · simp only [size, List.map_cons, List.map_nil, List.sum_cons, List.sum_nil,
                  List.length_append] at hlength
                obtain rfl : blanks = [] := List.length_eq_zero_iff.mp (by omega)
                obtain rfl : blanks₂ = [] := List.length_eq_zero_iff.mp (by omega)
                obtain ⟨rfl, hclean⟩ := hspells.tight (by omega)
                exact ⟨by simp [labelsText], by simpa using hclean⟩
            · split at h
              · rename_i hv
                obtain ⟨⟨labels', rest'⟩, hread, hpair⟩ := Option.map_eq_some_iff.mp h
                obtain ⟨rfl, rfl⟩ := Prod.mk.inj hpair
                obtain ⟨consumed', hconsumed', hsize, htight⟩ := ih hread
                refine ⟨blanks ++ consumed ++ blanks₂ ++ unit ',' :: consumed', ?_, ?_, fun hlength => ?_⟩
                · rw [htext, hv, hconsumed']
                  simp
                · simp only [size_cons, List.length_append, List.length_cons]
                  omega
                · simp only [size_cons, List.length_append, List.length_cons] at hlength
                  obtain rfl : blanks = [] := List.length_eq_zero_iff.mp (by omega)
                  obtain rfl : blanks₂ = [] := List.length_eq_zero_iff.mp (by omega)
                  obtain ⟨rfl, hclean⟩ := hspells.tight (by omega)
                  obtain ⟨rfl, hclean'⟩ := htight (by omega)
                  have hne : labels' ≠ [] := by
                    rintro rfl
                    simp [size] at hlength
                  rw [labelsText_cons hne]
                  exact ⟨by simp, List.forall_mem_cons.mpr ⟨hclean, hclean'⟩⟩
              · cases h

/-! ## Lines -/

theorem read_append_newline (a b : JsString) :
    read reader (a ++ unit '\n' :: b) =
      (read reader a).bind fun samples => (read reader b).map fun more => samples ++ more := by
  unfold read
  rw [List.splitOn_append_cons_self, List.mapM_append]
  cases (a.splitOn (unit '\n')).mapM (readLine reader) with
  | none => rfl
  | some xs =>
    cases (b.splitOn (unit '\n')).mapM (readLine reader) with
    | none => rfl
    | some ys =>
      simp only [Option.bind_eq_bind, Option.bind_some, Option.pure_def, Option.map_some]
      rw [List.reduceOption_append]

theorem read_lines {lines : List JsString} (hne : lines ≠ []) :
    read reader ((ascii "\n").intercalate lines) = (lines.mapM (read reader)).map List.flatten := by
  induction lines with
  | nil => exact absurd rfl hne
  | cons line lines ih =>
    cases lines with
    | nil =>
      rw [intercalate_singleton, List.mapM_cons, List.mapM_nil]
      cases read reader line <;> simp
    | cons line' lines =>
      have hnewline : ascii "\n" = [unit '\n'] := rfl
      rw [intercalate_cons_cons, hnewline, List.singleton_append, read_append_newline, ← hnewline,
        ih (List.cons_ne_nil _ _), List.mapM_cons (a := line)]
      cases read reader line with
      | none => rfl
      | some samples =>
        cases List.mapM (read reader) (line' :: lines) <;> simp

theorem read_line {line : JsString} (h : unit '\n' ∉ line) :
    read reader line = (readLine reader line).map Option.toList := by
  unfold read
  rw [List.splitOn_eq_singleton h, List.mapM_cons, List.mapM_nil]
  cases readLine reader line with
  | none => rfl
  | some sample => cases sample <;> rfl

/-- A comment holds no sample. -/
theorem read_comment {text : JsString} (h : unit '\n' ∉ text) : read reader (unit '#' :: text) = some [] := by
  have hline : unit '\n' ∉ unit '#' :: text := by
    rw [List.mem_cons, not_or]
    exact ⟨by decide, h⟩
  rw [read_line hline, readLine, skipBlanks_cons (by decide)]
  simp

theorem readLine_letter {u : UInt16} (hu : isMetricLetter u = true) (rest : JsString) :
    readLine reader (u :: rest) = (readSample reader (u :: rest)).map some := by
  have hcomment : u ≠ unit '#' := by
    rintro rfl
    exact absurd hu (by decide)
  rw [readLine, skipBlanks_cons (isBlank_of_letter hu)]
  dsimp only
  rw [if_neg hcomment]

/-- A text up to its first newline. -/
def firstLine (text : JsString) : JsString := text.takeWhile (· ≠ unit '\n')

theorem firstLine_append {name rest : JsString} (h : unit '\n' ∉ name) :
    firstLine (name ++ rest) = name ++ firstLine rest :=
  List.takeWhile_append_of_pos fun _ hu => decide_eq_true fun heq => h (heq ▸ hu)

/-- A text whose first line begins with a letter is read as the sample of that line, and others. -/
theorem read_eq_cons {u : UInt16} (hu : isMetricLetter u = true) {rest : JsString} {samples : List (Sample ν)}
    (h : read reader (u :: rest) = some samples) :
    ∃ sample more, samples = sample :: more ∧ readSample reader (firstLine (u :: rest)) = some sample := by
  have hline : unit '\n' ∉ firstLine (u :: rest) := fun hmem => by
    simpa using List.mem_takeWhile_imp hmem
  have hfirst : firstLine (u :: rest) = u :: firstLine rest := by
    refine List.takeWhile_cons_of_pos (decide_eq_true ?_)
    rintro rfl
    exact absurd hu (by decide)
  have hread : read reader (firstLine (u :: rest)) =
      (readSample reader (firstLine (u :: rest))).map fun sample => [sample] := by
    rw [read_line hline, hfirst, readLine_letter hu, Option.map_map]
    rfl
  have hsplit : firstLine (u :: rest) ++ (u :: rest).dropWhile (· ≠ unit '\n') = u :: rest :=
    List.takeWhile_append_dropWhile
  cases hrest : (u :: rest).dropWhile (· ≠ unit '\n') with
  | nil =>
    rw [hrest, List.append_nil] at hsplit
    rw [hsplit] at hread
    rw [hread] at h
    obtain ⟨sample, hsample, rfl⟩ := Option.map_eq_some_iff.mp h
    exact ⟨sample, [], rfl, by rw [hsplit, hsample]⟩
  | cons v b =>
    have hv : v = unit '\n' := by
      have hhead := List.head?_dropWhile_not (fun x => decide (x ≠ unit '\n')) (u :: rest)
      rw [hrest] at hhead
      simpa using hhead
    rw [← hsplit, hrest, hv, read_append_newline, hread] at h
    obtain ⟨samples₁, hsamples₁, h⟩ := Option.bind_eq_some_iff.mp h
    obtain ⟨sample, hsample, rfl⟩ := Option.map_eq_some_iff.mp hsamples₁
    obtain ⟨more, -, rfl⟩ := Option.map_eq_some_iff.mp h
    exact ⟨sample, more, rfl, hsample⟩

/-! ## The line of a sample -/

theorem readSample_append {name rest : JsString} (hname : isName isMetricLetter name = true) {u : UInt16}
    (hu : (isMetricLetter u || isDigit u) = false) :
    readSample reader (name ++ u :: rest) =
      (readBraces (skipBlanks (u :: rest))).bind fun read =>
        (readValue reader read.2).map fun value => ⟨name, read.1, value⟩ := by
  unfold readSample
  rw [readName_append_cons hname hu]
  simp only [Option.bind_eq_bind, Option.bind_some, Option.pure_def, Option.map_eq_bind]
  rfl

theorem readValue_digits {word : JsString} (hne : word ≠ []) (hword : ∀ u ∈ word, isDigit u = true) :
    readValue reader word = reader word := by
  have hblank : ∀ u ∈ word, isBlank u = false := fun u hu =>
    isBlank_of_isDigit (hword u hu)
  have hwords : words word = [word] := by
    unfold words
    rw [List.splitOnP_eq_singleton hblank]
    simp [hne]
  rw [readValue, hwords]

theorem readValue_blank (text : JsString) : readValue reader (unit ' ' :: text) = readValue reader text := by
  have hwords : words (unit ' ' :: text) = words text := by
    unfold words
    rw [List.splitOnP_cons_eq_if_modifyHead, if_pos (by decide), List.filter_cons_of_neg (by simp)]
  rw [readValue, readValue, hwords]

theorem notMem_of_isName {letter : UInt16 → Bool} {name : JsString} (hname : isName letter name = true)
    {u : UInt16} (hu : (letter u || isDigit u) = false) : u ∉ name := fun hmem => by
  have hall := List.all_eq_true.mp (all_of_isName hname) u hmem
  rw [hu] at hall
  cases hall

theorem exists_head {letter : UInt16 → Bool} {name : JsString} (hname : isName letter name = true) :
    ∃ u more, name = u :: more ∧ letter u = true := by
  cases name with
  | nil => cases hname
  | cons u more =>
    rw [isName, Bool.and_eq_true] at hname
    exact ⟨u, more, rfl, hname.1⟩

/-! ## The units of the text of labels -/

theorem count_text {u : UInt16} (hequals : u ≠ unit '=') (hletter : (isLetter u || isDigit u) = false)
    {l : Label} (hname : isName isLetter l.name = true) :
    l.text.count u = l.value.count u + if u = unit '"' then 2 else 0 := by
  have hcount : l.name.count u = 0 := List.count_eq_zero.mpr (notMem_of_isName hname hletter)
  rw [Label.text, List.count_append, List.count_append, hcount, List.count_cons_of_ne (Ne.symm hequals)]
  by_cases hquote : u = unit '"'
  · subst hquote
    rw [if_pos rfl, List.count_cons_self, List.count_singleton_self]
    omega
  · rw [if_neg hquote, List.count_cons_of_ne (Ne.symm hquote), List.count_singleton,
      if_neg (by simp [Ne.symm hquote])]
    omega

theorem count_labelsText {u : UInt16} (hcomma : u ≠ unit ',') (hequals : u ≠ unit '=')
    (hletter : (isLetter u || isDigit u) = false) {labels : List Label}
    (hnames : ∀ l ∈ labels, isName isLetter l.name = true) :
    (labelsText labels).count u =
      (labels.map fun l => l.value.count u).sum + labels.length * if u = unit '"' then 2 else 0 := by
  induction labels with
  | nil => simp [labelsText]
  | cons l labels ih =>
    obtain ⟨hname, hnames⟩ := List.forall_mem_cons.mp hnames
    cases labels with
    | nil => simp [labelsText, count_text hequals hletter hname]
    | cons l' labels =>
      rw [labelsText_cons (List.cons_ne_nil _ _), List.count_append, List.count_cons_of_ne (Ne.symm hcomma),
        ih hnames, count_text hequals hletter hname, List.map_cons (a := l), List.sum_cons,
        List.length_cons (a := l)]
      split <;> omega

/-- Labels whose text is that of as many labels that need no escapes need none themselves. -/
theorem clean_of_labelsText_eq {labels labels' : List Label}
    (hnames : ∀ l ∈ labels, isName isLetter l.name = true)
    (hnames' : ∀ l ∈ labels', isName isLetter l.name = true) (hlength : labels.length = labels'.length)
    (htext : labelsText labels = labelsText labels') (hclean : ∀ l ∈ labels', Clean l.value) :
    ∀ l ∈ labels, Clean l.value := by
  have hnone : ∀ u : UInt16, u ≠ unit ',' → u ≠ unit '=' → (isLetter u || isDigit u) = false →
      (∀ l ∈ labels', u ∉ l.value) → ∀ l ∈ labels, u ∉ l.value := by
    intro u hcomma hequals hletter hnone l hl
    have hcount := congrArg (List.count u) htext
    rw [count_labelsText hcomma hequals hletter hnames, count_labelsText hcomma hequals hletter hnames',
      hlength] at hcount
    have hsum' : (labels'.map fun l => l.value.count u).sum = 0 := by
      refine List.sum_eq_zero fun n hn => ?_
      obtain ⟨l', hl', rfl⟩ := List.mem_map.mp hn
      exact List.count_eq_zero.mpr (hnone l' hl')
    have hsum : (labels.map fun l => l.value.count u).sum = 0 := by omega
    have hmem := List.mem_map_of_mem (f := fun l : Label => l.value.count u) hl
    exact List.count_eq_zero.mp (List.sum_eq_zero_iff_forall_eq_nat.mp hsum _ hmem)
  intro l hl
  exact ⟨hnone _ (by decide) (by decide) (by decide) (fun l hl => (hclean l hl).1) l hl,
    hnone _ (by decide) (by decide) (by decide) (fun l hl => (hclean l hl).2.1) l hl,
    hnone _ (by decide) (by decide) (by decide) (fun l hl => (hclean l hl).2.2) l hl⟩

theorem newline_notMem_labelsText {labels : List Label} (hnames : ∀ l ∈ labels, isName isLetter l.name = true)
    (hvalues : ∀ l ∈ labels, Clean l.value) : unit '\n' ∉ labelsText labels := by
  refine List.count_eq_zero.mp ?_
  rw [count_labelsText (by decide) (by decide) (by decide) hnames, if_neg (by decide), Nat.mul_zero,
    Nat.add_zero]
  refine List.sum_eq_zero fun n hn => ?_
  obtain ⟨l, hl, rfl⟩ := List.mem_map.mp hn
  exact List.count_eq_zero.mpr (hvalues l hl).2.2

/-- What is consumed up to a brace is at most what stands before the last brace. -/
theorem consumed_le {consumed rest more body tail : JsString} (htail : unit '}' ∉ tail)
    (h : consumed ++ unit '}' :: rest ++ more = body ++ unit '}' :: tail) :
    consumed.length ≤ body.length ∧ (consumed.length = body.length → consumed = body) := by
  rw [List.append_assoc] at h
  refine ⟨?_, fun hlength => List.append_inj_left h hlength⟩
  obtain ⟨between, hbody, -⟩ | ⟨between, hconsumed, hbetween⟩ := List.append_eq_append_iff.mp h
  · simp [hbody]
  · cases between with
    | nil => simp [hconsumed]
    | cons u between =>
      obtain ⟨-, htail'⟩ := List.cons.inj hbetween
      exact absurd (htail' ▸ by simp) htail

section Rows

variable {name : JsString} (hname : isName isMetricLetter name = true)

include hname

theorem read_sample_line {rest : JsString} (hrest : unit '\n' ∉ rest) :
    read reader (name ++ rest) = (readSample reader (name ++ rest)).map fun sample => [sample] := by
  obtain ⟨u, more, rfl, hu⟩ := exists_head hname
  have hline : unit '\n' ∉ (u :: more) ++ rest := by
    rw [List.mem_append, not_or]
    exact ⟨notMem_of_isName hname (by decide), hrest⟩
  rw [read_line hline, List.cons_append, readLine_letter hu, Option.map_map]
  rfl

/-- The labels that are read first from a line with one part between braces are no longer than it, and as long
only if it is their text. -/
theorem read_braces {body tail : JsString} (htail : unit '}' ∉ tail) {samples : List (Sample ν)}
    (h : read reader (name ++ unit '{' :: (body ++ unit '}' :: tail)) = some samples) :
    ∃ sample more, samples = sample :: more ∧ sample.metric = name ∧ size sample.labels ≤ body.length + 1 ∧
      (body.length + 1 ≤ size sample.labels →
        body = labelsText sample.labels ∧ ∀ l ∈ sample.labels, Clean l.value) := by
  obtain ⟨sample, more, hsamples, hsample⟩ : ∃ sample more, samples = sample :: more ∧
      readSample reader (firstLine (name ++ unit '{' :: (body ++ unit '}' :: tail))) = some sample := by
    obtain ⟨u, rest, rfl, hu⟩ := exists_head hname
    exact read_eq_cons hu h
  have hfirst : firstLine (name ++ unit '{' :: (body ++ unit '}' :: tail)) =
      name ++ unit '{' :: firstLine (body ++ unit '}' :: tail) := by
    rw [firstLine_append (notMem_of_isName hname (by decide)), firstLine, firstLine,
      List.takeWhile_cons_of_pos (by decide)]
  rw [hfirst, readSample_append hname (by decide), skipBlanks_cons (by decide), readBraces,
    if_pos rfl] at hsample
  obtain ⟨⟨labels, rest⟩, hread, hvalue⟩ := Option.bind_eq_some_iff.mp hsample
  obtain ⟨value, -, rfl⟩ := Option.map_eq_some_iff.mp hvalue
  obtain ⟨consumed, hconsumed, hsize, htight⟩ := spells_readLabels hread
  have hall : consumed ++ unit '}' :: rest ++ (body ++ unit '}' :: tail).dropWhile (· ≠ unit '\n') =
      body ++ unit '}' :: tail := by
    rw [← hconsumed]
    exact List.takeWhile_append_dropWhile
  obtain ⟨hle, hbody⟩ := consumed_le htail hall
  refine ⟨_, more, hsamples, rfl, by dsimp only; omega, fun hlength => ?_⟩
  dsimp only at hlength
  rw [← hbody (by omega)]
  exact htight (by omega)

variable {word : JsString} (hne : word ≠ []) (hword : ∀ u ∈ word, isDigit u = true) {value : ν}
  (hvalue : reader word = some value)

include hne hword hvalue

theorem read_unlabelled : read reader (name ++ unit ' ' :: word) = some [⟨name, [], value⟩] := by
  have hrest : unit '\n' ∉ unit ' ' :: word := fun hmem => by
    obtain hmem | hmem := List.mem_cons.mp hmem
    · exact absurd hmem (by decide)
    · exact absurd (hword _ hmem) (by decide)
  have hbraces : readBraces (skipBlanks (unit ' ' :: word)) = some ([], word) := by
    obtain ⟨w, word', rfl⟩ := List.exists_cons_of_ne_nil hne
    have hw := hword w List.mem_cons_self
    have hbrace : w ≠ unit '{' := by
      rintro rfl
      exact absurd hw (by decide)
    have hskip : skipBlanks (unit ' ' :: w :: word') = w :: word' := by
      unfold skipBlanks
      rw [List.dropWhile_cons_of_pos (by decide), List.dropWhile_cons_of_neg (by simp [isBlank_of_isDigit hw])]
    rw [hskip, readBraces, if_neg hbrace]
  rw [read_sample_line hname hrest, readSample_append hname (by decide), hbraces, Option.bind_some]
  dsimp only
  rw [readValue_digits hne hword, hvalue]
  rfl

theorem read_labelled {labels : List Label} (hlabels : labels ≠ [])
    (hnames : ∀ l ∈ labels, isName isLetter l.name = true) (hvalues : ∀ l ∈ labels, Clean l.value) :
    read reader (name ++ unit '{' :: (labelsText labels ++ unit '}' :: unit ' ' :: word)) =
      some [⟨name, labels, value⟩] := by
  have hrest : unit '\n' ∉ unit '{' :: (labelsText labels ++ unit '}' :: unit ' ' :: word) := fun hmem => by
    simp only [List.mem_cons, List.mem_append] at hmem
    obtain hmem | hmem | hmem | hmem | hmem := hmem
    · exact absurd hmem (by decide)
    · exact newline_notMem_labelsText hnames hvalues hmem
    · exact absurd hmem (by decide)
    · exact absurd hmem (by decide)
    · exact absurd (hword _ hmem) (by decide)
  have hfuel : labels.length ≤ (labelsText labels ++ unit '}' :: unit ' ' :: word).length + 1 := by
    have hsize : labels.length ≤ size labels := by simp [size]
    have hlength := length_labelsText hlabels
    rw [List.length_append]
    omega
  rw [read_sample_line hname hrest, readSample_append hname (by decide), skipBlanks_cons (by decide),
    readBraces, if_pos rfl, readLabels_append hlabels hnames hvalues hfuel, Option.bind_some]
  dsimp only
  rw [readValue_blank, readValue_digits hne hword, hvalue]
  rfl

end Rows

end Exposition
