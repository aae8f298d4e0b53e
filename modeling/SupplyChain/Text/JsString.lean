import SupplyChain.Text.Hex

/-!
# Strings of UTF-16 code units

The strings of JavaScript, whose surrogates need not come in pairs, and how `JSON.stringify` writes strings
and objects of strings.
-/

abbrev JsString := List UInt16

namespace JsString

/-- The code unit of an ASCII character. -/
def unit (c : Char) : UInt16 := UInt16.ofNat c.toNat

/-- The code units of an ASCII text. -/
def ascii (text : String) : JsString := text.toList.map unit

/-- The decimal digits of a natural number. -/
def digits (n : Nat) : JsString := (Nat.toDigits 10 n).map unit

/-- The first half of a pair. -/
def isHighSurrogate (u : UInt16) : Bool := 0xD800 ≤ u && u < 0xDC00

/-- The second half of a pair. -/
def isLowSurrogate (u : UInt16) : Bool := 0xDC00 ≤ u && u < 0xE000

/-- Four hexadecimal digits. -/
def hex4 (u : UInt16) : JsString :=
  [u.toNat / 4096, u.toNat / 256 % 16, u.toNat / 16 % 16, u.toNat % 16].map fun n => unit (Hex.digit n)

/-- A code unit within quotes that is not part of a surrogate pair. -/
def quoteUnit (u : UInt16) : JsString :=
  if u = 0x08 then ascii "\\b"
  else if u = 0x09 then ascii "\\t"
  else if u = 0x0A then ascii "\\n"
  else if u = 0x0C then ascii "\\f"
  else if u = 0x0D then ascii "\\r"
  else if u = 0x22 then ascii "\\\""
  else if u = 0x5C then ascii "\\\\"
  else if u < 0x20 ∨ isHighSurrogate u = true ∨ isLowSurrogate u = true then ascii "\\u" ++ hex4 u
  else [u]

/-- The code units of a string between its quotes: pairs stay, what is alone is escaped. -/
def quoteUnits : JsString → JsString
  | high :: low :: rest =>
    if isHighSurrogate high ∧ isLowSurrogate low then high :: low :: quoteUnits rest
    else quoteUnit high ++ quoteUnits (low :: rest)
  | [u] => quoteUnit u
  | [] => []

/-- `JSON.stringify` of a string. -/
def quote (s : JsString) : JsString := unit '"' :: quoteUnits s ++ [unit '"']

/-- `JSON.stringify` of an object of strings, by its properties. -/
def stringify (properties : List (JsString × JsString)) : JsString :=
  [unit '{'] ++ (ascii ",").intercalate (properties.map fun (k, v) => quote k ++ ascii ":" ++ quote v) ++
    [unit '}']

/-! ## A quoted string is read in one way -/

/-- The units of four hexadecimal digits. -/
def readHex4 : JsString → Option (UInt16 × JsString)
  | a :: b :: c :: d :: rest =>
    match [a, b, c, d].mapM fun u => Double.digitValue (Char.ofNat u.toNat) with
    | some [x, y, z, w] => some (UInt16.ofNat (4096 * x + 256 * y + 16 * z + w), rest)
    | _ => none
  | _ => none

/-- The unit that one written character stands for, and what follows. -/
def readUnit : JsString → Option (UInt16 × JsString)
  | u :: rest =>
    if u = unit '\\' then
      match rest with
      | e :: rest =>
        if e = unit 'b' then some (0x08, rest)
        else if e = unit 't' then some (0x09, rest)
        else if e = unit 'n' then some (0x0A, rest)
        else if e = unit 'f' then some (0x0C, rest)
        else if e = unit 'r' then some (0x0D, rest)
        else if e = unit 'u' then readHex4 rest
        else some (e, rest)
      | [] => none
    else if u = unit '"' then none
    else some (u, rest)
  | [] => none

theorem readHex4_hex4 (u : UInt16) (rest : JsString) : readHex4 (hex4 u ++ rest) = some (u, rest) := by
  have hdigit : ∀ n < 16, Double.digitValue (Char.ofNat (unit (Hex.digit n)).toNat) = some n := by
    decide +kernel
  have hlt := u.toNat_lt
  have hsum : 4096 * (u.toNat / 4096) + 256 * (u.toNat / 256 % 16) + 16 * (u.toNat / 16 % 16) +
      u.toNat % 16 = u.toNat := by omega
  simp only [hex4, List.map_cons, List.map_nil, List.cons_append, List.nil_append, readHex4,
    List.mapM_cons, List.mapM_nil, hdigit _ (show u.toNat / 4096 < 16 by omega),
    hdigit _ (show u.toNat / 256 % 16 < 16 by omega), hdigit _ (show u.toNat / 16 % 16 < 16 by omega),
    hdigit _ (show u.toNat % 16 < 16 by omega), Option.bind_eq_bind, Option.bind_some, Option.pure_def,
    hsum, UInt16.ofNat_toNat]

theorem readUnit_quoteUnit (u : UInt16) (rest : JsString) :
    readUnit (quoteUnit u ++ rest) = some (u, rest) := by
  unfold quoteUnit
  iterate 7
    split
    · rename_i h
      rw [h]
      rfl
  split
  · exact readHex4_hex4 u rest
  · rename_i hquote hbackslash _
    have hquote : u ≠ unit '"' := hquote
    have hbackslash : u ≠ unit '\\' := hbackslash
    rw [List.singleton_append, readUnit.eq_def]
    dsimp only
    rw [if_neg hbackslash, if_neg hquote]

/-- What is read up to the closing quote, and what follows it. -/
inductive Reads : JsString → JsString → JsString → Prop where
  /-- The closing quote. -/
  | stop (rest : JsString) : Reads (unit '"' :: rest) [] rest
  | unit {text text' s rest : JsString} {u : UInt16} (hunit : readUnit text = some (u, text'))
    (hreads : Reads text' s rest) : Reads text (u :: s) rest

theorem Reads.unique {text s s' rest rest' : JsString} (h : Reads text s rest) (h' : Reads text s' rest') :
    s = s' ∧ rest = rest' := by
  induction h generalizing s' with
  | stop rest =>
    cases h' with
    | stop => exact ⟨rfl, rfl⟩
    | unit hunit _ => cases hunit
  | unit hunit _ ih =>
    cases h' with
    | stop => cases hunit
    | unit hunit' hreads' =>
      obtain ⟨rfl, rfl⟩ := Prod.mk.inj (Option.some.inj (hunit.symm.trans hunit'))
      obtain ⟨rfl, rfl⟩ := ih hreads'
      exact ⟨rfl, rfl⟩

/-- A surrogate stands for itself where it is read. -/
theorem readUnit_surrogate {u : UInt16} (h : isHighSurrogate u = true ∨ isLowSurrogate u = true)
    (rest : JsString) : readUnit (u :: rest) = some (u, rest) := by
  have hbackslash : u ≠ unit '\\' := by
    rintro rfl
    exact absurd h (by decide)
  have hquote : u ≠ unit '"' := by
    rintro rfl
    exact absurd h (by decide)
  rw [readUnit.eq_def]
  dsimp only
  rw [if_neg hbackslash, if_neg hquote]

theorem reads_quoteUnits (s rest : JsString) : Reads (quoteUnits s ++ unit '"' :: rest) s rest := by
  induction s using quoteUnits.induct with
  | case1 high low s hpair ih =>
    rw [quoteUnits, if_pos hpair]
    exact .unit (readUnit_surrogate (Or.inl hpair.1) _) (.unit (readUnit_surrogate (Or.inr hpair.2) _) ih)
  | case2 high low s hpair ih =>
    rw [quoteUnits, if_neg hpair, List.append_assoc]
    exact .unit (readUnit_quoteUnit _ _) ih
  | case3 u =>
    rw [quoteUnits]
    exact .unit (readUnit_quoteUnit _ _) (.stop rest)
  | case4 => exact .stop rest

theorem quote_append_inj {s s' rest rest' : JsString} (h : quote s ++ rest = quote s' ++ rest') :
    s = s' ∧ rest = rest' := by
  simp only [quote, List.cons_append, List.append_assoc, List.cons.injEq, true_and, List.nil_append] at h
  exact (reads_quoteUnits s rest).unique (h ▸ reads_quoteUnits s' rest')

theorem intercalate_cons_cons (sep x y : JsString) (xs : List JsString) :
    sep.intercalate (x :: y :: xs) = x ++ (sep ++ sep.intercalate (y :: xs)) := by
  simp [List.intercalate]

theorem intercalate_singleton (sep x : JsString) : sep.intercalate [x] = x := by
  simp [List.intercalate]

/-- The text of a property. -/
def property (p : JsString × JsString) : JsString := quote p.1 ++ ascii ":" ++ quote p.2

theorem property_append_inj {k v v' rest rest' : JsString}
    (h : property (k, v) ++ rest = property (k, v') ++ rest') : v = v' ∧ rest = rest' := by
  simp only [property, List.append_assoc, List.append_cancel_left_eq] at h
  exact quote_append_inj h

/-- Objects with the same names are written alike only if they have the same values. -/
theorem stringify_zip_inj {names values values' : List JsString} (hlength : values.length = names.length)
    (hlength' : values'.length = names.length)
    (h : stringify (names.zip values) = stringify (names.zip values')) : values = values' := by
  have hbody : (ascii ",").intercalate ((names.zip values).map property) ++ [unit '}'] =
      (ascii ",").intercalate ((names.zip values').map property) ++ [unit '}'] := by
    unfold stringify at h
    rw [List.append_assoc, List.append_assoc] at h
    exact List.append_cancel_left h
  clear h
  generalize [unit '}'] = rest at hbody
  induction names generalizing values values' with
  | nil => rw [List.length_eq_zero_iff.mp hlength, List.length_eq_zero_iff.mp hlength']
  | cons k names ih =>
    obtain ⟨v, values, rfl⟩ := List.exists_cons_of_length_eq_add_one hlength
    obtain ⟨v', values', rfl⟩ := List.exists_cons_of_length_eq_add_one hlength'
    cases names with
    | nil =>
      obtain rfl := List.length_eq_zero_iff.mp (Nat.succ.inj hlength)
      obtain rfl := List.length_eq_zero_iff.mp (Nat.succ.inj hlength')
      simp only [List.zip_cons_cons, List.zip_nil_left, List.map_cons, List.map_nil,
        intercalate_singleton] at hbody
      rw [(property_append_inj hbody).1]
    | cons k' names =>
      obtain ⟨w, values, rfl⟩ := List.exists_cons_of_length_eq_add_one (Nat.succ.inj hlength)
      obtain ⟨w', values', rfl⟩ := List.exists_cons_of_length_eq_add_one (Nat.succ.inj hlength')
      have hinner := ih (Nat.succ.inj hlength) (Nat.succ.inj hlength')
      simp only [List.zip_cons_cons, List.map_cons, intercalate_cons_cons, List.append_assoc] at hbody hinner
      obtain ⟨rfl, hrest⟩ := property_append_inj hbody
      rw [hinner (List.append_cancel_left hrest)]

end JsString
