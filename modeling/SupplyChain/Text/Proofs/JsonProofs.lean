import SupplyChain.Text.Json

/-!
# Proofs: what is written is read back

A written value is read up to where it ends, whatever follows it, as long as no numeral goes on there.
-/

namespace Json

variable {ν : Type} {format : NumberFormat ν} {fuel : Nat} {rest : List Char}

/-! ## Strings -/

theorem readEscape_hexEscape {c : Char} (h : c.toNat < 32) :
    readEscape ('u' :: '0' :: '0' :: Hex.digit (c.toNat / 16) :: Hex.digit (c.toNat % 16) :: rest) =
      some (c, rest) := by
  have hzero : Double.digitValue '0' = some 0 := by decide
  have hhex : hex4 ('0' :: '0' :: Hex.digit (c.toNat / 16) :: Hex.digit (c.toNat % 16) :: rest) =
      some (c.toNat, rest) := by
    simp only [hex4, List.mapM_cons, List.mapM_nil, hzero, Hex.digitValue_digit (show c.toNat / 16 < 16 by omega),
      Hex.digitValue_digit (show c.toNat % 16 < 16 by omega), Option.bind_eq_bind, Option.bind_some,
      Option.pure_def, Option.some.injEq, Prod.mk.injEq, and_true]
    omega
  rw [readEscape, hhex]
  dsimp only
  rw [if_neg (by omega), if_neg (by omega), Char.ofNat_toNat]

theorem char_of_toNat {c : Char} {n : Nat} (h : c.toNat = n) : Char.ofNat n = c := by
  rw [← h, Char.ofNat_toNat]

theorem readQuoted_quoteChar (c : Char) :
    readQuoted (fuel + 1) (quoteChar c ++ rest) =
      (readQuoted fuel rest).map fun p => (c :: p.1, p.2) := by
  unfold quoteChar
  split
  · subst_vars
    rfl
  split
  · subst_vars
    rfl
  split
  · rename_i h
    rw [← char_of_toNat h]
    rfl
  split
  · rename_i h
    rw [← char_of_toNat h]
    rfl
  split
  · rename_i h
    rw [← char_of_toNat h]
    rfl
  split
  · rename_i h
    rw [← char_of_toNat h]
    rfl
  split
  · rename_i h
    rw [← char_of_toNat h]
    rfl
  split
  · rename_i h
    rw [hexEscape, List.cons_append, readQuoted, if_neg (by decide), if_pos rfl]
    simp only [List.cons_append, List.nil_append]
    rw [readEscape_hexEscape h]
  · rename_i hquote hbackslash _ _ _ _ _ hcontrol
    rw [List.singleton_append, readQuoted, if_neg hquote, if_neg hbackslash, if_neg hcontrol]

theorem quoteChar_ne_nil (c : Char) : quoteChar c ≠ [] := by
  unfold quoteChar
  repeat' split
  all_goals exact List.cons_ne_nil _ _

theorem readQuoted_quoted (s rest : List Char) (h : (s.flatMap quoteChar).length < fuel) :
    readQuoted fuel (s.flatMap quoteChar ++ '"' :: rest) = some (s, rest) := by
  induction s generalizing fuel with
  | nil =>
    obtain ⟨fuel, rfl⟩ := Nat.exists_eq_add_of_lt h
    rfl
  | cons c s ih =>
    rw [List.flatMap_cons, List.length_append] at h
    have hpos := List.length_pos_iff.mpr (quoteChar_ne_nil c)
    obtain ⟨fuel, rfl⟩ : ∃ n, fuel = n + 1 := ⟨fuel - 1, by omega⟩
    rw [List.flatMap_cons, List.append_assoc, readQuoted_quoteChar, ih (by omega)]
    rfl

theorem readString_quote (s : String) (rest : List Char) : readString (quote s ++ rest) = some (s, rest) := by
  have hlength : (s.toList.flatMap quoteChar).length <
      (s.toList.flatMap quoteChar ++ '"' :: rest).length + 1 := by
    rw [List.length_append]
    omega
  have hread := readQuoted_quoted s.toList rest hlength
  simp only [quote, List.cons_append, List.append_assoc, List.nil_append, readString]
  rw [hread, Option.map_some, String.ofList_toList]

/-! ## Values -/

/-- No numeral goes on here. -/
def Ends (rest : List Char) : Prop := ∀ c, rest.head? = some c → isNumberChar c = false

theorem ends_cons {c : Char} (h : isNumberChar c = false) : Ends (c :: rest) := by
  rintro _ ⟨⟩
  exact h

theorem skipSpace_cons {c : Char} (h : isSpace c = false) : skipSpace (c :: rest) = c :: rest := by
  rw [skipSpace, List.dropWhile_cons_of_neg (by rw [h]; exact Bool.false_ne_true)]

/-- A character that a value may start with. -/
def isStart (c : Char) : Bool := isNumberChar c || ['n', 't', 'f', '"', '[', '\x7b'].contains c

theorem isSpace_of_isStart {c : Char} (h : isStart c = true) : isSpace c = false := by
  by_contra hspace
  rw [Bool.not_eq_false, isSpace, List.contains_iff_mem] at hspace
  have hall : [' ', '\t', '\n', '\r'].all (fun c => !isStart c) = true := by decide
  have hnot := List.all_eq_true.mp hall c hspace
  rw [h] at hnot
  cases hnot

theorem ne_of_isStart {c d : Char} (h : isStart c = true) (hd : isStart d = false) : c ≠ d := by
  rintro rfl
  rw [h] at hd
  cases hd

theorem ne_of_isNumberChar {c d : Char} (h : isNumberChar c = true) (hd : isNumberChar d = false) : c ≠ d := by
  rintro rfl
  rw [h] at hd
  cases hd

theorem stringify_start (format : NumberFormat ν) (j : Json ν) :
    ∃ c cs, stringify format j = c :: cs ∧ isStart c = true := by
  cases j with
  | null => exact ⟨'n', _, rfl, rfl⟩
  | bool b =>
    cases b with
    | true => exact ⟨'t', _, rfl, rfl⟩
    | false => exact ⟨'f', _, rfl, rfl⟩
  | number n =>
    obtain ⟨c, cs, hwrite⟩ := List.exists_cons_of_ne_nil (format.write_ne_nil n)
    refine ⟨c, cs, hwrite, ?_⟩
    have hc := format.isNumberChar_write n c (hwrite ▸ List.mem_cons_self)
    rw [isStart, hc, Bool.true_or]
  | string s => exact ⟨'"', _, rfl, rfl⟩
  | array items => exact ⟨'[', _, rfl, rfl⟩
  | object properties => exact ⟨'\x7b', _, rfl, rfl⟩

theorem readNumber_write (n : ν) (hends : Ends rest) :
    readNumber format (format.write n ++ rest) = some (number n, rest) := by
  have hall : ∀ c ∈ format.write n, isNumberChar c = true := format.isNumberChar_write n
  have htake : (format.write n ++ rest).takeWhile isNumberChar = format.write n := by
    rw [List.takeWhile_append_of_pos hall]
    cases rest with
    | nil => simp
    | cons c rest =>
      rw [List.takeWhile_cons_of_neg (by rw [hends c rfl]; exact Bool.false_ne_true), List.append_nil]
  have hdrop : (format.write n ++ rest).dropWhile isNumberChar = rest := by
    rw [List.dropWhile_append_of_pos hall]
    cases rest with
    | nil => rfl
    | cons c rest => exact List.dropWhile_cons_of_neg (by rw [hends c rfl]; exact Bool.false_ne_true)
  rw [readNumber, htake, hdrop, format.read_write]
  rfl

theorem readValue_number (n : ν) (hends : Ends rest) :
    readValue format (fuel + 1) (format.write n ++ rest) = some (number n, rest) := by
  have hread : readNumber format (format.write n ++ rest) = some (number n, rest) := readNumber_write n hends
  obtain ⟨c, cs, hwrite⟩ := List.exists_cons_of_ne_nil (format.write_ne_nil n)
  have hc := format.isNumberChar_write n c (hwrite ▸ List.mem_cons_self)
  have hstart : isStart c = true := by rw [isStart, hc, Bool.true_or]
  rw [hwrite, List.cons_append] at hread ⊢
  rw [readValue, skipSpace_cons (isSpace_of_isStart hstart)]
  dsimp only
  rw [if_neg (ne_of_isNumberChar hc rfl), if_neg (ne_of_isNumberChar hc rfl),
    if_neg (ne_of_isNumberChar hc rfl), if_neg (ne_of_isNumberChar hc rfl),
    if_neg (ne_of_isNumberChar hc rfl), if_neg (ne_of_isNumberChar hc rfl), hread]

theorem readValue_keyword (keyword : String) (value : Json ν) :
    readKeyword keyword value (keyword.toList ++ rest) = some (value, rest) := by
  rw [readKeyword, if_pos (List.prefix_append _ _), List.drop_left]

theorem readValue_string (s : String) :
    readValue format (fuel + 1) (quote s ++ rest) = some (string s, rest) := by
  have hread := readString_quote s rest
  rw [quote, List.cons_append, List.cons_append] at hread ⊢
  rw [readValue, skipSpace_cons rfl]
  dsimp only
  rw [if_neg (by decide), if_neg (by decide), if_neg (by decide), if_pos rfl, hread, Option.map_some]

theorem readValue_emptyArray : readValue format (fuel + 1) ('[' :: ']' :: rest) = some (array [], rest) := by
  rw [readValue, skipSpace_cons rfl]
  rfl

theorem readValue_array {text : List Char} {c : Char} {items : List (Json ν)} (hc : isStart c = true)
    (hread : readItems format fuel (c :: text) = some (items, rest)) :
    readValue format (fuel + 1) ('[' :: c :: text) = some (array items, rest) := by
  have hbracket : c ≠ ']' := ne_of_isStart hc rfl
  rw [readValue, skipSpace_cons rfl]
  dsimp only
  rw [if_neg (by decide), if_neg (by decide), if_neg (by decide), if_neg (by decide), if_pos rfl,
    skipSpace_cons (isSpace_of_isStart hc)]
  split
  · rename_i heq
    exact absurd (List.cons.inj heq).1 hbracket
  · rw [hread, Option.map_some]

theorem readValue_emptyObject :
    readValue format (fuel + 1) ('\x7b' :: '\x7d' :: rest) = some (object [], rest) := by
  rw [readValue, skipSpace_cons rfl]
  rfl

theorem readValue_object {text : List Char} {properties : List (String × Json ν)}
    (hread : readProperties format fuel [] ('"' :: text) = some (properties, rest)) :
    readValue format (fuel + 1) ('\x7b' :: '"' :: text) = some (object properties, rest) := by
  rw [readValue, skipSpace_cons rfl]
  dsimp only
  rw [if_neg (by decide), if_neg (by decide), if_neg (by decide), if_neg (by decide), if_neg (by decide),
    if_pos rfl, skipSpace_cons rfl]
  split
  · rename_i heq
    exact absurd (List.cons.inj heq).1 (by decide)
  · rw [hread, Option.map_some]

theorem readItems_last {text : List Char} {j : Json ν}
    (hread : readValue format fuel text = some (j, ']' :: rest)) :
    readItems format (fuel + 1) text = some ([j], rest) := by
  rw [readItems, hread]
  rfl

theorem readItems_more {text text' : List Char} {j : Json ν} {items : List (Json ν)}
    (hread : readValue format fuel text = some (j, ',' :: text'))
    (hmore : readItems format fuel text' = some (items, rest)) :
    readItems format (fuel + 1) text = some (j :: items, rest) := by
  rw [readItems, hread]
  dsimp only
  simp only [skipSpace_cons (show isSpace ',' = false from rfl)]
  rw [hmore, Option.map_some]

theorem assign_new {properties : List (String × Json ν)} {key : String}
    (h : key ∉ properties.map Prod.fst) (value : Json ν) :
    assign properties key value = properties ++ [(key, value)] := if_neg h

theorem readProperties_last {text : List Char} {before : List (String × Json ν)} {key : String} {j : Json ν}
    (hread : readValue format fuel text = some (j, '\x7d' :: rest)) :
    readProperties format (fuel + 1) before (quote key ++ ':' :: text) = some (assign before key j, rest) := by
  have hkey := readString_quote key (':' :: text)
  rw [quote, List.cons_append, List.cons_append] at hkey ⊢
  rw [readProperties, skipSpace_cons rfl, hkey]
  simp only [skipSpace_cons (show isSpace ':' = false from rfl), hread]
  rw [skipSpace_cons rfl]
  rfl

theorem readProperties_more {text text' : List Char} {before : List (String × Json ν)} {key : String}
    {j : Json ν} (hread : readValue format fuel text = some (j, ',' :: text')) :
    readProperties format (fuel + 1) before (quote key ++ ':' :: text) =
      readProperties format fuel (assign before key j) text' := by
  have hkey := readString_quote key (':' :: text)
  rw [quote, List.cons_append, List.cons_append] at hkey ⊢
  rw [readProperties, skipSpace_cons rfl, hkey]
  simp only [skipSpace_cons (show isSpace ':' = false from rfl), hread]
  rw [skipSpace_cons rfl]
  rfl

theorem length_stringify_pos (format : NumberFormat ν) (j : Json ν) : 0 < (stringify format j).length := by
  obtain ⟨c, cs, hj, -⟩ := stringify_start format j
  rw [hj]
  exact Nat.succ_pos _

/-- The written items start as a value does, and the written properties as a string. -/
theorem stringifyItems_start (format : NumberFormat ν) (j : Json ν) (js : List (Json ν)) :
    ∃ c cs, stringifyItems format (j :: js) = c :: cs ∧ isStart c = true := by
  obtain ⟨c, cs, hj, hc⟩ := stringify_start format j
  cases js with
  | nil => exact ⟨c, cs ++ [']'], by rw [stringifyItems, hj]; rfl, hc⟩
  | cons j' js => exact ⟨c, cs ++ ',' :: stringifyItems format (j' :: js), by rw [stringifyItems, hj]; rfl, hc⟩

theorem stringifyProperties_start (format : NumberFormat ν) (p : String × Json ν) (ps : List (String × Json ν)) :
    ∃ cs, stringifyProperties format (p :: ps) = '"' :: cs := by
  cases ps with
  | nil => exact ⟨_, rfl⟩
  | cons p' ps => exact ⟨_, rfl⟩

/-- What is written is read back, where this much fuel is enough for the text. -/
structure ReadsBack (format : NumberFormat ν) (fuel : Nat) : Prop where
  value : ∀ j, Distinct j → (stringify format j).length ≤ fuel → ∀ rest, Ends rest →
    readValue format fuel (stringify format j ++ rest) = some (j, rest)
  items : ∀ j js, DistinctItems (j :: js) → (stringifyItems format (j :: js)).length ≤ fuel → ∀ rest,
    readItems format fuel (stringifyItems format (j :: js) ++ rest) = some (j :: js, rest)
  properties : ∀ p ps, DistinctProperties (p :: ps) → (stringifyProperties format (p :: ps)).length ≤ fuel →
    ∀ before, ((before ++ p :: ps).map Prod.fst).Nodup → ∀ rest,
      readProperties format fuel before (stringifyProperties format (p :: ps) ++ rest) =
        some (before ++ p :: ps, rest)

theorem readsBack_zero : ReadsBack format 0 where
  value j _ hfuel := by
    have hpos := length_stringify_pos format j
    omega
  items j js _ hfuel := by
    obtain ⟨c, cs, htext, -⟩ := stringifyItems_start format j js
    rw [htext] at hfuel
    cases hfuel
  properties p ps _ hfuel := by
    obtain ⟨cs, htext⟩ := stringifyProperties_start format p ps
    rw [htext] at hfuel
    cases hfuel

theorem ReadsBack.value_succ (h : ReadsBack format fuel) {j : Json ν} (hj : Distinct j)
    (hfuel : (stringify format j).length ≤ fuel + 1) (hends : Ends rest) :
    readValue format (fuel + 1) (stringify format j ++ rest) = some (j, rest) := by
  cases j with
  | null => exact readValue_keyword "null" null
  | bool b =>
    cases b with
    | true => exact readValue_keyword "true" (bool true)
    | false => exact readValue_keyword "false" (bool false)
  | number n => exact readValue_number n hends
  | string s => exact readValue_string s
  | array items =>
    cases items with
    | nil => exact readValue_emptyArray
    | cons j js =>
      have hitems := h.items j js hj (Nat.le_of_succ_le_succ hfuel) rest
      obtain ⟨c, cs, htext, hc⟩ := stringifyItems_start format j js
      rw [htext, List.cons_append] at hitems
      rw [stringify, htext]
      exact readValue_array hc hitems
  | object properties =>
    cases properties with
    | nil => exact readValue_emptyObject
    | cons p ps =>
      have hproperties := h.properties p ps hj.2 (Nat.le_of_succ_le_succ hfuel) [] hj.1 rest
      obtain ⟨cs, htext⟩ := stringifyProperties_start format p ps
      rw [htext, List.cons_append] at hproperties
      rw [stringify, htext]
      exact readValue_object hproperties

theorem ReadsBack.items_succ (h : ReadsBack format fuel) {j : Json ν} {js : List (Json ν)}
    (hjs : DistinctItems (j :: js)) (hfuel : (stringifyItems format (j :: js)).length ≤ fuel + 1) :
    readItems format (fuel + 1) (stringifyItems format (j :: js) ++ rest) = some (j :: js, rest) := by
  obtain ⟨hj, hjs⟩ := hjs
  have hpos := length_stringify_pos format j
  cases js with
  | nil =>
    rw [stringifyItems, List.length_append, List.length_singleton] at hfuel
    rw [stringifyItems, List.append_assoc, List.singleton_append]
    exact readItems_last (h.value j hj (by omega) _ (ends_cons rfl))
  | cons j' js =>
    rw [stringifyItems, List.length_append, List.length_cons] at hfuel
    rw [stringifyItems, List.append_assoc, List.cons_append]
    exact readItems_more (h.value j hj (by omega) _ (ends_cons rfl)) (h.items j' js hjs (by omega) rest)

theorem ReadsBack.properties_succ (h : ReadsBack format fuel) {p : String × Json ν}
    {ps before : List (String × Json ν)} (hps : DistinctProperties (p :: ps))
    (hfuel : (stringifyProperties format (p :: ps)).length ≤ fuel + 1)
    (hnodup : ((before ++ p :: ps).map Prod.fst).Nodup) :
    readProperties format (fuel + 1) before (stringifyProperties format (p :: ps) ++ rest) =
      some (before ++ p :: ps, rest) := by
  obtain ⟨k, j⟩ := p
  obtain ⟨hj, hps⟩ := hps
  have hnew : k ∉ before.map Prod.fst := by
    rw [List.map_append, List.map_cons, List.nodup_append] at hnodup
    exact fun hmem => hnodup.2.2 k hmem k List.mem_cons_self rfl
  cases ps with
  | nil =>
    simp only [stringifyProperties, List.length_append, List.length_cons] at hfuel
    rw [← assign_new hnew, stringifyProperties, List.append_assoc, List.cons_append, List.append_assoc]
    exact readProperties_last (h.value j hj (by omega) _ (ends_cons rfl))
  | cons p' ps =>
    simp only [stringifyProperties, List.length_append, List.length_cons] at hfuel
    have hsplit : before ++ (k, j) :: p' :: ps = assign before k j ++ p' :: ps := by
      rw [assign_new hnew, List.append_assoc]
      rfl
    rw [hsplit] at hnodup ⊢
    rw [stringifyProperties, List.append_assoc, List.cons_append, List.append_assoc, List.cons_append,
      readProperties_more (h.value j hj (by omega) _ (ends_cons rfl))]
    exact h.properties p' ps hps (by omega) _ hnodup rest

/-- The reader takes off one unit of fuel where it goes into a value, an item or a property. -/
theorem readsBack (format : NumberFormat ν) (fuel : Nat) : ReadsBack format fuel := by
  induction fuel with
  | zero => exact readsBack_zero
  | succ fuel ih =>
    exact
      { value := fun j hj hfuel rest hends => ih.value_succ hj hfuel hends
        items := fun j js hjs hfuel rest => ih.items_succ hjs hfuel
        properties := fun p ps hps hfuel before hnodup rest => ih.properties_succ hps hfuel hnodup }

/-- `JSON.parse` of `JSON.stringify` gives the value back. -/
theorem parse_stringify (j : Json ν) (hj : Distinct j) : parse format (stringify format j) = some j := by
  have hread := (readsBack format _).value j hj (Nat.le_succ _) [] fun c hc => by cases hc
  rw [List.append_nil] at hread
  rw [parse, hread]
  rfl

/-! ## No line ends -/

theorem digit_printable {n : Nat} (h : n < 16) : 32 ≤ (Hex.digit n).toNat := by
  have hall : ∀ n < 16, 32 ≤ (Hex.digit n).toNat := by decide
  exact hall n h

theorem quoteChar_printable {c d : Char} (h : d ∈ quoteChar c) : 32 ≤ d.toNat := by
  unfold quoteChar at h
  iterate 7
    split at h
    · rcases List.mem_cons.mp h with rfl | h
      · decide
      · rw [List.mem_singleton.mp h]
        decide
  split at h
  · rename_i hcontrol
    simp only [hexEscape, List.mem_cons, List.not_mem_nil, or_false] at h
    rcases h with rfl | rfl | rfl | rfl | rfl | rfl
    · decide
    · decide
    · decide
    · decide
    · exact digit_printable (by omega)
    · exact digit_printable (by omega)
  · rename_i hcontrol
    rw [List.mem_singleton.mp h]
    omega

theorem quote_printable {s : String} {d : Char} (h : d ∈ quote s) : 32 ≤ d.toNat := by
  rw [quote, List.cons_append, List.mem_cons, List.mem_append, List.mem_flatMap, List.mem_singleton] at h
  rcases h with rfl | ⟨c, -, hc⟩ | rfl
  · decide
  · exact quoteChar_printable hc
  · decide

theorem isNumberChar_printable {c : Char} (h : isNumberChar c = true) : 32 ≤ c.toNat := by
  rw [isNumberChar, Bool.or_eq_true] at h
  rcases h with hdigit | hsign
  · rw [Char.isDigit, Bool.and_eq_true, decide_eq_true_eq] at hdigit
    have hlow : 48 ≤ c.toNat := hdigit.1
    omega
  · have hall : ['+', '-', '.', 'e', 'E'].all (fun c => decide (32 ≤ c.toNat)) = true := by decide
    exact of_decide_eq_true (List.all_eq_true.mp hall c (List.contains_iff_mem.mp hsign))

/-- The characters of a text are printable. -/
def Printable (text : List Char) : Prop := ∀ d ∈ text, 32 ≤ d.toNat

theorem Printable.append {text text' : List Char} (h : Printable text) (h' : Printable text') :
    Printable (text ++ text') := List.forall_mem_append.mpr ⟨h, h'⟩

theorem Printable.cons {c : Char} {text : List Char} (h : Printable text) (hc : 32 ≤ c.toNat) :
    Printable (c :: text) := List.forall_mem_cons.mpr ⟨hc, h⟩

theorem printable_of_all {text : List Char} (h : text.all (fun d => decide (32 ≤ d.toNat)) = true) :
    Printable text := by
  intro d hd
  exact of_decide_eq_true (List.all_eq_true.mp h d hd)

theorem printable_singleton {c : Char} (hc : 32 ≤ c.toNat) : Printable [c] := List.forall_mem_singleton.mpr hc

mutual

/-- No line ends within a written value. -/
theorem stringify_printable : ∀ j : Json ν, Printable (stringify format j)
  | null => @printable_of_all "null".toList (by decide)
  | bool true => @printable_of_all "true".toList (by decide)
  | bool false => @printable_of_all "false".toList (by decide)
  | number n => fun d hd => isNumberChar_printable (format.isNumberChar_write n d hd)
  | string s => fun d hd => quote_printable hd
  | array items => (stringifyItems_printable items).cons (by decide)
  | object properties => (stringifyProperties_printable properties).cons (by decide)

theorem stringifyItems_printable : ∀ items : List (Json ν), Printable (stringifyItems format items)
  | [] => printable_singleton (by decide)
  | [j] => (stringify_printable j).append (printable_singleton (by decide))
  | j :: j' :: js =>
    (stringify_printable j).append ((stringifyItems_printable (j' :: js)).cons (by decide))

theorem stringifyProperties_printable :
    ∀ properties : List (String × Json ν), Printable (stringifyProperties format properties)
  | [] => printable_singleton (by decide)
  | [(_, j)] => Printable.append (fun _ hd => quote_printable hd)
      (((stringify_printable j).append (printable_singleton (by decide))).cons (by decide))
  | (_, j) :: p :: ps => Printable.append (fun _ hd => quote_printable hd)
      (((stringify_printable j).append ((stringifyProperties_printable (p :: ps)).cons (by decide))).cons
        (by decide))

end

end Json
