/-
The text of a JSON value reads back as it. A string is read character by character, since every escape
is undone where it stands and no two characters read as a pair of surrogates; values follow by
induction, with a text that is never shorter than the number of values that it holds in one another or
in a row.
-/
import Reckoner.Json.Reader
import Mathlib.Algebra.Group.Nat.Defs
import Mathlib.Data.Option.Basic
import Mathlib.Tactic.SplitIfs

namespace Reckoner.Json

variable {style : Style}

/-! ## Escapes -/

theorem hexValue?_digitChar {d : Nat} (h : d < 16) : hexValue? d.digitChar = some d := by
  have hall : ∀ d : Fin 16, hexValue? d.val.digitChar = some d.val := by decide
  exact hall ⟨d, h⟩

/-- The last hexadecimal digits of a number, as many as asked for. -/
def hexDigits : Nat → Nat → List Nat
  | 0, _ => []
  | width + 1, n => hexDigits width (n / 16) ++ [n % 16]

theorem hexDigits_zero (width : Nat) : hexDigits width 0 = List.replicate width 0 := by
  induction width with
  | zero => rfl
  | succ width ih => rw [hexDigits, ih, List.replicate_succ']

/-- A number that has no more digits than the width is written with just these. -/
theorem toList_hex {width n : Nat} (h : n < 16 ^ (width + 1)) :
    (Text.hex (width + 1) n).toList = (hexDigits (width + 1) n).map Nat.digitChar := by
  simp only [Text.hex, String.toList_ofList]
  induction width generalizing n with
  | zero =>
    have hn : n < 16 := by simpa using h
    rw [Nat.toDigits_of_lt_base hn]
    simp [hexDigits, Nat.mod_eq_of_lt hn]
  | succ width ih =>
    rcases Nat.lt_or_ge n 16 with hn | hn
    · rw [Nat.toDigits_of_lt_base hn, hexDigits, Nat.div_eq_of_lt hn, hexDigits_zero, Nat.mod_eq_of_lt hn]
      simp
    · -- the last digit is split off on both sides
      have hrest := ih (n := n / 16) (by rw [Nat.pow_succ] at h; omega)
      rw [Nat.toDigits_of_base_le (by omega) hn, hexDigits, List.map_append, ← hrest, List.length_append,
        List.length_singleton, Nat.add_sub_add_right, List.append_assoc]
      rfl

theorem toList_hex_four {n : Nat} (h : n < 0x10000) :
    (Text.hex 4 n).toList =
      [(n / 0x1000).digitChar, (n / 0x100 % 16).digitChar, (n / 16 % 16).digitChar, (n % 16).digitChar] := by
  rw [@toList_hex 3 n h]
  simp [hexDigits, Nat.div_div_eq_div_mul, Nat.mod_eq_of_lt (show n / 4096 < 16 by omega)]

/-- An escape by number is undone. -/
theorem codeUnits?_numbered {c : Char} (h : c.toNat < 0x10000) (rest : List Char) :
    codeUnits? ((numbered c).toList ++ rest) =
      (codeUnits? rest).map fun (units, rest') => (c.toNat :: units, rest') := by
  have hfour : hexFour? (c.toNat / 0x1000).digitChar (c.toNat / 0x100 % 16).digitChar
      (c.toNat / 16 % 16).digitChar (c.toNat % 16).digitChar = some c.toNat := by
    unfold hexFour?
    rw [hexValue?_digitChar (by omega), hexValue?_digitChar (by omega), hexValue?_digitChar (by omega),
      hexValue?_digitChar (by omega)]
    simp only [Option.bind_eq_bind, Option.bind_some, Option.pure_def, Option.some.injEq]
    omega
  have htext : (numbered c).toList =
      ['\\', 'u', (c.toNat / 0x1000).digitChar, (c.toNat / 0x100 % 16).digitChar,
        (c.toNat / 16 % 16).digitChar, (c.toNat % 16).digitChar] := by
    rw [numbered, String.toList_append, toList_hex_four h]
    rfl
  rw [htext]
  simp only [List.cons_append, List.nil_append, codeUnits?, hfour, Option.bind_eq_bind, Option.bind_some]
  cases codeUnits? rest <;> rfl

/-- A short escape is undone. -/
theorem codeUnits?_short {e c : Char} (h : shortEscape? e = some c) (rest : List Char) :
    codeUnits? ('\\' :: e :: rest) =
      (codeUnits? rest).map fun (units, rest') => (c.toNat :: units, rest') := by
  have hu : e ≠ 'u' := by
    rintro rfl
    simp [shortEscape?] at h
  rw [codeUnits?.eq_4 _ _ (fun _ _ _ _ _ h => absurd h hu), h]
  cases codeUnits? rest <;> rfl

/-- A character that needs no escape is read as itself. -/
theorem codeUnits?_plain {c : Char} (hquote : c ≠ '"') (hslash : c ≠ '\\') (h : 0x20 ≤ c.toNat)
    (rest : List Char) :
    codeUnits? (c :: rest) = (codeUnits? rest).map fun (units, rest') => (c.toNat :: units, rest') := by
  rw [codeUnits?.eq_5 _ _ hquote (fun _ _ _ _ _ h => absurd h hslash) (fun _ _ h => absurd h hslash)]
  have hplain : (guard (0x20 ≤ c.toNat && c != '\\') : Option Unit) = some () :=
    if_pos (by simpa [hslash] using h)
  rw [hplain]
  cases codeUnits? rest <;> rfl

/-- Every character is read back from the way it is written. -/
theorem codeUnits?_escape (c : Char) (rest : List Char) :
    codeUnits? ((escape style c).toList ++ rest) =
      (codeUnits? rest).map fun (units, rest') => (c.toNat :: units, rest') := by
  have hshort {n : Nat} {e : Char} (hn : c.toNat = n) (he : shortEscape? e = some (Char.ofNat n)) :
      codeUnits? ('\\' :: e :: rest) =
        (codeUnits? rest).map fun (units, rest') => (c.toNat :: units, rest') := by
    have hc : Char.ofNat n = c := by rw [← hn, Char.ofNat_toNat]
    exact codeUnits?_short (hc ▸ he) rest
  unfold escape
  -- five characters always have a short form, two have one in some styles, and the rest goes by number
  by_cases hquote : c = '"'
  · rw [if_pos hquote]
    exact hshort (n := 0x22) (by rw [hquote]; rfl) rfl
  rw [if_neg hquote]
  by_cases hslash : c = '\\'
  · rw [if_pos hslash]
    exact hshort (n := 0x5C) (by rw [hslash]; rfl) rfl
  rw [if_neg hslash]
  by_cases hfeed : c = '\n'
  · rw [if_pos hfeed]
    exact hshort (n := 0x0A) (by rw [hfeed]; rfl) rfl
  rw [if_neg hfeed]
  by_cases hreturn : c = '\r'
  · rw [if_pos hreturn]
    exact hshort (n := 0x0D) (by rw [hreturn]; rfl) rfl
  rw [if_neg hreturn]
  by_cases htab : c = '\t'
  · rw [if_pos htab]
    exact hshort (n := 0x09) (by rw [htab]; rfl) rfl
  rw [if_neg htab]
  split
  · exact hshort (n := 0x08) (by simp_all) rfl
  split
  · exact hshort (n := 0x0C) (by simp_all) rfl
  split
  · exact codeUnits?_numbered (by omega) rest
  split
  · rename_i hmarkup
    have hbound : c.toNat < 0x10000 := by
      simp only [Bool.and_eq_true, Bool.or_eq_true, decide_eq_true_eq] at hmarkup
      rcases hmarkup with ⟨(rfl | rfl) | rfl, -⟩ <;> decide
    exact codeUnits?_numbered hbound rest
  split
  · rename_i hseparator
    exact codeUnits?_numbered (by simp at hseparator; omega) rest
  · rw [String.toList_singleton]
    exact codeUnits?_plain hquote hslash (by omega) rest

/-! ## Strings -/

/-- The characters of a string are not taken for surrogates. -/
theorem joinPairs_toNat (cs : List Char) : joinPairs (cs.map Char.toNat) = cs := by
  have hchar (c : Char) : Text.charOfInt c.toNat = c := by
    have hv : (c.toNat : Int).toNat.isValidChar := c.valid
    rw [Text.charOfInt, if_neg (by omega), if_pos hv]
    simp
  have hhigh (c : Char) : isHighSurrogate c.toNat = false := by
    have hv : c.toNat.isValidChar := c.valid
    unfold Nat.isValidChar at hv
    simp only [isHighSurrogate, Bool.and_eq_false_iff, decide_eq_false_iff_not]
    omega
  induction cs with
  | nil => rfl
  | cons c cs ih =>
    cases cs with
    | nil => simp only [List.map_cons, List.map_nil, joinPairs, hchar]
    | cons d cs =>
      rw [List.map_cons] at ih
      simp only [List.map_cons, joinPairs, hhigh, Bool.false_and, Bool.false_eq_true, if_false, hchar, ih]

theorem toList_quoted (s : String) :
    (quoted style s).toList = '"' :: (s.toList.flatMap fun c => (escape style c).toList) ++ ['"'] := by
  simp [quoted, String.toList_join, List.flatMap_map]

theorem codeUnits?_escaped (cs rest : List Char) :
    codeUnits? ((cs.flatMap fun c => (escape style c).toList) ++ '"' :: rest) =
      some (cs.map Char.toNat, rest) := by
  induction cs with
  | nil => rfl
  | cons c cs ih =>
    rw [List.flatMap_cons, List.append_assoc, codeUnits?_escape, ih]
    rfl

/-- A string is read back from its text between quotes. -/
theorem string?_quoted (style : Style) (s : String) (rest : List Char) :
    ∃ text, (quoted style s).toList ++ rest = '"' :: text ∧ string? text = some (s, rest) := by
  refine ⟨(s.toList.flatMap fun c => (escape style c).toList) ++ '"' :: rest, ?_, ?_⟩
  · rw [toList_quoted, List.append_assoc, List.cons_append, List.singleton_append]
  · simp only [string?, codeUnits?_escaped, Option.map_some, joinPairs_toNat, String.ofList_toList]

/-! ## Numerals -/

/-- What can follow a value in a text: nothing that goes on with a numeral. -/
def Ends (rest : List Char) : Prop :=
  ∀ c ∈ rest.head?, c.isDigit = false ∧ c ≠ '.' ∧ c ≠ 'e' ∧ c ≠ 'E'

theorem toDigits_head {n : Nat} (h : n ≠ 0) : ∀ cs, Nat.toDigits 10 n ≠ '0' :: cs := by
  induction n using Nat.strongRecOn with
  | ind n ih =>
    intro cs hcs
    rcases Nat.lt_or_ge n 10 with hn | hn
    · rw [Nat.toDigits_of_lt_base hn, List.cons.injEq, Nat.digitChar_eq_zero] at hcs
      exact h hcs.1
    · rw [Nat.toDigits_of_base_le (by omega) hn] at hcs
      obtain ⟨d, ds, hd⟩ := List.exists_cons_of_ne_nil (Nat.toDigits_ne_nil (n := n / 10) (b := 10))
      rw [hd, List.cons_append, List.cons.injEq] at hcs
      exact ih (n / 10) (by omega) (by omega) ds (by rw [hd, hcs.1])

theorem digits?_append {ds rest : List Char} (hds : ∀ c ∈ ds, c.isDigit) (hne : ds ≠ [])
    (hrest : ∀ c ∈ rest.head?, c.isDigit = false) : digits? (ds ++ rest) = some (ds, rest) := by
  have htake : (ds ++ rest).takeWhile Char.isDigit = ds := by
    rw [List.takeWhile_append_of_pos hds]
    cases rest with
    | nil => simp
    | cons c rest => simp [hrest c (by simp)]
  have hdrop : (ds ++ rest).dropWhile Char.isDigit = rest := by
    rw [List.dropWhile_append_of_pos hds]
    cases rest with
    | nil => rfl
    | cons c rest => simp [hrest c (by simp)]
  unfold digits?
  rw [htake, hdrop]
  cases ds with
  | nil => exact absurd rfl hne
  | cons d ds => rfl

theorem wholePart?_append {whole rest : List Char} (h : IsWhole whole)
    (hrest : ∀ c ∈ rest.head?, c.isDigit = false) : wholePart? (whole ++ rest) = some (whole, rest) := by
  rcases h with rfl | ⟨⟨hne, hdigits⟩, hzero⟩
  · rfl
  · rw [wholePart?.eq_2]
    · exact digits?_append hdigits hne hrest
    · rintro more hmore
      obtain ⟨d, ds, rfl⟩ := List.exists_cons_of_ne_nil hne
      rw [List.cons_append, List.cons.injEq] at hmore
      exact hzero (by rw [hmore.1]; rfl)

theorem fractionPart?_append {fraction rest : List Char} (h : IsFraction fraction)
    (hrest : ∀ c ∈ rest.head?, c.isDigit = false ∧ c ≠ '.') :
    fractionPart? (fraction ++ rest) = some (fraction, rest) := by
  rcases h with rfl | ⟨ds, ⟨hne, hdigits⟩, rfl⟩
  · rw [List.nil_append, fractionPart?.eq_2]
    rintro more rfl
    exact (hrest '.' rfl).2 rfl
  · rw [List.cons_append, fractionPart?, digits?_append hdigits hne fun c hc => (hrest c hc).1]
    rfl

theorem exponentSign_append {sign ds rest : List Char} (hsign : sign = [] ∨ sign = ['+'] ∨ sign = ['-'])
    (hds : IsDigits ds) : exponentSign (sign ++ (ds ++ rest)) = (sign, ds ++ rest) := by
  rcases hsign with rfl | rfl | rfl
  · obtain ⟨d, more, rfl⟩ := List.exists_cons_of_ne_nil hds.1
    have hdigit := hds.2 d List.mem_cons_self
    rw [List.nil_append, List.cons_append, exponentSign.eq_3]
    · rintro _ ⟨rfl, -⟩
      exact absurd hdigit (by decide)
    · rintro _ ⟨rfl, -⟩
      exact absurd hdigit (by decide)
  · rfl
  · rfl

theorem exponentPart?_append {exponent rest : List Char} (h : IsExponent exponent) (hrest : Ends rest) :
    exponentPart? (exponent ++ rest) = some (exponent, rest) := by
  rcases h with rfl | ⟨e, sign, ds, he, hsign, hds, rfl⟩
  · cases rest with
    | nil => rfl
    | cons c rest =>
      obtain ⟨-, -, he, hE⟩ := hrest c rfl
      simp [exponentPart?, he, hE]
  · have hletter : (decide (e = 'e') || decide (e = 'E')) = true := by simpa using he
    rw [List.cons_append, List.append_assoc, exponentPart?, if_pos hletter]
    simp only [exponentSign_append hsign hds, digits?_append hds.2 hds.1 fun c hc => (hrest c hc).1]
    rfl

theorem head?_exponent {exponent rest : List Char} (h : IsExponent exponent) (hrest : Ends rest) :
    ∀ c ∈ (exponent ++ rest).head?, c.isDigit = false ∧ c ≠ '.' := by
  rcases h with rfl | ⟨e, sign, ds, he, -, -, rfl⟩
  · intro c hc
    exact ⟨(hrest c hc).1, (hrest c hc).2.1⟩
  · rintro c ⟨⟩
    rcases he with rfl | rfl <;> decide

theorem head?_fraction {fraction rest : List Char} (h : IsFraction fraction)
    (hrest : ∀ c ∈ rest.head?, c.isDigit = false) : ∀ c ∈ (fraction ++ rest).head?, c.isDigit = false := by
  rcases h with rfl | ⟨ds, -, rfl⟩
  · exact hrest
  · rintro c ⟨⟩
    rfl

theorem IsWhole.head {whole : List Char} (h : IsWhole whole) : ∃ d ds, whole = d :: ds ∧ d.isDigit := by
  rcases h with rfl | ⟨⟨hne, hdigits⟩, -⟩
  · exact ⟨'0', [], rfl, rfl⟩
  · obtain ⟨d, ds, rfl⟩ := List.exists_cons_of_ne_nil hne
    exact ⟨d, ds, rfl, hdigits d List.mem_cons_self⟩

/-- A numeral is read to its end, where nothing goes on with it. -/
theorem numeral?_append {numeral : String} (h : IsNumeral numeral) {rest : List Char} (hrest : Ends rest) :
    numeral? (numeral.toList ++ rest) = some (numeral.toList, rest) := by
  obtain ⟨sign, whole, fraction, exponent, hsign, hwhole, hfraction, hexponent, htext⟩ := h
  have hbehind := head?_exponent hexponent hrest
  have hwholePart := wholePart?_append hwhole (head?_fraction hfraction fun c hc => (hbehind c hc).1)
  have hfractionPart := fractionPart?_append hfraction hbehind
  have hexponentPart := exponentPart?_append hexponent hrest
  rw [htext, List.append_assoc, List.append_assoc, List.append_assoc]
  rcases hsign with rfl | rfl
  · obtain ⟨d, ds, hd, hdigit⟩ := hwhole.head
    unfold numeral?
    split
    rename_i sign more hmore
    split at hmore
    · rename_i tail htail
      rw [List.nil_append, hd, List.cons_append, List.cons.injEq] at htail
      rw [htail.1] at hdigit
      exact absurd hdigit (by decide)
    · cases hmore
      simp [hwholePart, hfractionPart, hexponentPart]
  · simp [numeral?, hwholePart, hfractionPart, hexponentPart]

theorem isWhole_toDigits (n : Nat) : IsWhole (Nat.toDigits 10 n) := by
  by_cases hn : n = 0
  · subst hn
    exact .inl rfl
  · refine .inr ⟨⟨Nat.toDigits_ne_nil, fun c hc => Nat.isDigit_of_mem_toDigits (by omega) (by omega) hc⟩, ?_⟩
    intro hzero
    obtain ⟨cs, hcs⟩ := List.head?_eq_some_iff.1 hzero
    exact toDigits_head hn cs hcs

theorem isNumeral_int (n : Int) : IsNumeral (toString n) := by
  rw [Int.toString_eq_repr, Int.repr_eq_if]
  split_ifs
  · exact ⟨[], _, [], [], .inl rfl, isWhole_toDigits n.toNat, .inl rfl, .inl rfl, by simp⟩
  · exact ⟨['-'], _, [], [], .inr rfl, isWhole_toDigits (-n).toNat, .inl rfl, .inl rfl, by simp⟩

theorem WellFormed.int (n : Int) : WellFormed (.int n) :=
  .number (isNumeral_int n)

theorem IsNumeral.head {numeral : String} (h : IsNumeral numeral) :
    ∃ c cs, numeral.toList = c :: cs ∧ (c = '-' ∨ c.isDigit) := by
  obtain ⟨sign, whole, fraction, exponent, hsign, hwhole, -, -, htext⟩ := h
  obtain ⟨d, ds, rfl, hdigit⟩ := hwhole.head
  rcases hsign with rfl | rfl
  · exact ⟨d, ds ++ fraction ++ exponent, htext, .inr hdigit⟩
  · exact ⟨'-', d :: ds ++ fraction ++ exponent, htext, .inl rfl⟩

/-! ## Values -/

/-- A value is read back from its text, if as many steps are left as the text has characters. -/
def ReadsBack (style : Style) (v : Json) : Prop :=
  ∀ n rest, (v.render style).toList.length ≤ n → Ends rest →
    value? n ((v.render style).toList ++ rest) = some (v, rest)

theorem skipSpaces_cons {c : Char} (h : isSpace c = false) (cs : List Char) :
    skipSpaces (c :: cs) = c :: cs := by
  simp [skipSpaces, h]

theorem isSpace_of_numeral {c : Char} (hc : c = '-' ∨ c.isDigit) : isSpace c = false ∧ c ≠ ']' := by
  rcases hc with rfl | hc
  · decide
  · have hne {d : Char} (hd : d.isDigit = false) : c ≠ d := by
      rintro rfl
      simp [hd] at hc
    simp [isSpace, hne (show ' '.isDigit = false from rfl), hne (show '\t'.isDigit = false from rfl),
      hne (show '\n'.isDigit = false from rfl), hne (show '\r'.isDigit = false from rfl),
      hne (show ']'.isDigit = false from rfl)]

/-- What begins like a numeral is read as one. -/
theorem value?_numeral {c : Char} (hc : c = '-' ∨ c.isDigit) (n : Nat) (cs : List Char) :
    value? (n + 1) (c :: cs) =
      (numeral? (c :: cs)).map fun (text, rest) => (.number (String.ofList text), rest) := by
  unfold value?
  rw [skipSpaces_cons (isSpace_of_numeral hc).1]
  -- nothing else begins with a sign or a digit
  split
  all_goals first
    | rfl
    | (rename_i heq; rw [List.cons.injEq] at heq; rw [heq.1] at hc; exact absurd hc (by decide))

theorem readsBack_number {numeral : String} (h : IsNumeral numeral) : ReadsBack style (.number numeral) := by
  intro fuel rest hfuel hrest
  obtain ⟨c, cs, hcs, hc⟩ := h.head
  rw [render] at hfuel ⊢
  rw [hcs] at hfuel
  obtain ⟨fuel, rfl⟩ : ∃ k, fuel = k + 1 := ⟨fuel - 1, by simp at hfuel; omega⟩
  rw [hcs, List.cons_append, value?_numeral hc, ← List.cons_append, ← hcs, numeral?_append h hrest]
  simp

theorem readsBack_null : ReadsBack style .null := by
  intro fuel rest hfuel _
  rw [render] at hfuel ⊢
  obtain ⟨fuel, rfl⟩ : ∃ k, fuel = k + 1 := ⟨fuel - 1, by simp at hfuel; omega⟩
  rfl

theorem readsBack_bool (b : Bool) : ReadsBack style (.bool b) := by
  intro fuel rest hfuel _
  rw [render] at hfuel ⊢
  obtain ⟨fuel, rfl⟩ : ∃ k, fuel = k + 1 := ⟨fuel - 1, by cases b <;> simp at hfuel <;> omega⟩
  cases b <;> rfl

theorem readsBack_string (s : String) : ReadsBack style (.string s) := by
  intro fuel rest hfuel _
  rw [render] at hfuel ⊢
  obtain ⟨text, htext, hs⟩ := string?_quoted style s rest
  obtain ⟨fuel, rfl⟩ : ∃ k, fuel = k + 1 := ⟨fuel - 1, by rw [toList_quoted] at hfuel; simp at hfuel; omega⟩
  rw [htext]
  change (string? text).map _ = _
  rw [hs]
  rfl

theorem ends_cons {c : Char} (h : c ∈ [',', ']', '\x7d']) (rest : List Char) : Ends (c :: rest) := by
  intro d hd
  obtain rfl : c = d := by simpa using hd
  simp only [List.mem_cons, List.not_mem_nil, or_false] at h
  rcases h with rfl | rfl | rfl <;> decide

/-- The text of a value begins neither with a blank nor with a closing bracket. -/
theorem WellFormed.render_cons (style : Style) {v : Json} (h : WellFormed v) :
    ∃ c cs, (v.render style).toList = c :: cs ∧ isSpace c = false ∧ c ≠ ']' := by
  cases h with
  | null => exact ⟨'n', _, by rw [render]; rfl, rfl, by decide⟩
  | bool b =>
    cases b with
    | false => exact ⟨'f', _, by rw [render]; rfl, rfl, by decide⟩
    | true => exact ⟨'t', _, by rw [render]; rfl, rfl, by decide⟩
  | number h =>
    obtain ⟨c, cs, hcs, hc⟩ := h.head
    exact ⟨c, cs, by rw [render, hcs], isSpace_of_numeral hc⟩
  | string s => exact ⟨'"', _, by rw [render, toList_quoted]; rfl, rfl, by decide⟩
  | array =>
    exact ⟨'[', _, by rw [render, String.toList_append, String.toList_append]; rfl, rfl, by decide⟩
  | object =>
    exact ⟨'\x7b', _, by rw [render, String.toList_append, String.toList_append]; rfl, rfl, by decide⟩

/-! ## Arrays and objects -/

theorem toList_commaSeparated (text next : String) (more : List String) :
    (commaSeparated (text :: next :: more)).toList =
      text.toList ++ ',' :: (commaSeparated (next :: more)).toList := by
  simp [commaSeparated, String.intercalate_cons_cons]

theorem toList_commaSeparated_cons (text : String) (more : List String) :
    ∃ tail, (commaSeparated (text :: more)).toList = text.toList ++ tail := by
  cases more with
  | nil => exact ⟨[], by simp [commaSeparated]⟩
  | cons next more => exact ⟨_, toList_commaSeparated text next more⟩

/-- An item with a comma behind it is read back, and the items behind the comma after it. -/
theorem items?_comma {v : Json} (hv : ReadsBack style v) {n : Nat} (hn : (v.render style).toList.length ≤ n)
    (rest : List Char) :
    items? (n + 1) ((v.render style).toList ++ ',' :: rest) =
      (items? n rest).map fun (items, rest') => (v :: items, rest') := by
  simp only [items?, hv n (',' :: rest) hn (ends_cons (by simp) rest),
    skipSpaces_cons (show isSpace ',' = false from rfl)]

/-- An item with a closing bracket behind it is the last one. -/
theorem items?_bracket {v : Json} (hv : ReadsBack style v) {n : Nat} (hn : (v.render style).toList.length ≤ n)
    (rest : List Char) : items? (n + 1) ((v.render style).toList ++ ']' :: rest) = some ([v], rest) := by
  simp only [items?, hv n (']' :: rest) hn (ends_cons (by simp) rest),
    skipSpaces_cons (show isSpace ']' = false from rfl)]

/-- Items are read back up to the closing bracket. -/
theorem items?_render {items : List Json} (hne : items ≠ []) (h : ∀ v ∈ items, ReadsBack style v)
    {n : Nat} (rest : List Char) (hn : (commaSeparated (renderItems style items)).toList.length < n) :
    items? n ((commaSeparated (renderItems style items)).toList ++ ']' :: rest) = some (items, rest) := by
  induction items generalizing n with
  | nil => exact absurd rfl hne
  | cons v more ih =>
    obtain ⟨n, rfl⟩ : ∃ k, n = k + 1 := ⟨n - 1, by omega⟩
    have hv : ReadsBack style v := h v List.mem_cons_self
    cases more with
    | nil =>
      have htext : commaSeparated (renderItems style [v]) = v.render style := by
        simp [renderItems, commaSeparated]
      rw [htext] at hn ⊢
      exact items?_bracket hv (by omega) rest
    | cons w more =>
      have htext : (commaSeparated (renderItems style (v :: w :: more))).toList =
          (v.render style).toList ++ ',' :: (commaSeparated (renderItems style (w :: more))).toList := by
        simp only [renderItems, toList_commaSeparated]
      rw [htext, List.length_append, List.length_cons] at hn
      have hmore := ih (by simp) (fun u hu => h u (List.mem_cons_of_mem _ hu)) (n := n) (by omega)
      rw [htext, List.append_assoc, List.cons_append, items?_comma hv (by omega), hmore]
      rfl

theorem value?_array {c : Char} (hs : isSpace c = false) (hc : c ≠ ']') (n : Nat) (cs : List Char) :
    value? (n + 1) ('[' :: c :: cs) = (items? n (c :: cs)).map fun (items, rest) => (.array items, rest) := by
  unfold value?
  rw [skipSpaces_cons (show isSpace '[' = false from rfl)]
  simp only
  rw [skipSpaces_cons hs]
  split
  · rename_i heq
    exact absurd (List.cons.inj heq).1 hc
  · rfl

theorem readsBack_array {items : List Json} (hi : ∀ v ∈ items, WellFormed v)
    (h : ∀ v ∈ items, ReadsBack style v) : ReadsBack style (.array items) := by
  intro n rest hn _
  have htext : (render style (.array items)).toList =
      '[' :: ((commaSeparated (renderItems style items)).toList ++ [']']) := by
    rw [render, String.toList_append, String.toList_append]
    rfl
  rw [htext, List.length_cons, List.length_append] at hn
  obtain ⟨n, rfl⟩ : ∃ k, n = k + 1 := ⟨n - 1, by omega⟩
  rw [htext, List.cons_append, List.append_assoc, List.singleton_append]
  cases items with
  | nil => rfl
  | cons v more =>
    have hitems := items?_render (List.cons_ne_nil v more) h (n := n) rest (by simp at hn; omega)
    obtain ⟨tail, htail⟩ := toList_commaSeparated_cons (v.render style) (renderItems style more)
    obtain ⟨c, cs, hcs, hspace, hc⟩ := (hi v List.mem_cons_self).render_cons style
    rw [renderItems, htail, hcs] at hitems ⊢
    rw [List.cons_append, List.cons_append, value?_array hspace hc, ← List.cons_append, ← List.cons_append,
      hitems]
    rfl

/-- A member with a comma behind it is read back, and the members behind the comma after it. -/
theorem members?_comma (key : String) {v : Json} (hv : ReadsBack style v) {n : Nat}
    (hn : (v.render style).toList.length ≤ n) (rest : List Char) :
    members? (n + 1) ((quoted style key).toList ++ ':' :: ((v.render style).toList ++ ',' :: rest)) =
      (members? n rest).map fun (members, rest') => ((key, v) :: members, rest') := by
  obtain ⟨text, hkey, hstring⟩ := string?_quoted style key (':' :: ((v.render style).toList ++ ',' :: rest))
  rw [hkey]
  simp only [members?, skipSpaces_cons (show isSpace '"' = false from rfl), hstring,
    skipSpaces_cons (show isSpace ':' = false from rfl), hv n (',' :: rest) hn (ends_cons (by simp) rest),
    skipSpaces_cons (show isSpace ',' = false from rfl)]

/-- A member with a closing brace behind it is the last one. -/
theorem members?_brace (key : String) {v : Json} (hv : ReadsBack style v) {n : Nat}
    (hn : (v.render style).toList.length ≤ n) (rest : List Char) :
    members? (n + 1) ((quoted style key).toList ++ ':' :: ((v.render style).toList ++ '\x7d' :: rest)) =
      some ([(key, v)], rest) := by
  obtain ⟨text, hkey, hstring⟩ := string?_quoted style key (':' :: ((v.render style).toList ++ '\x7d' :: rest))
  rw [hkey]
  simp only [members?, skipSpaces_cons (show isSpace '"' = false from rfl), hstring,
    skipSpaces_cons (show isSpace ':' = false from rfl), hv n ('\x7d' :: rest) hn (ends_cons (by simp) rest),
    skipSpaces_cons (show isSpace '\x7d' = false from rfl)]

/-- Members are read back up to the closing brace. -/
theorem members?_render {members : List (String × Json)} (hne : members ≠ [])
    (h : ∀ m ∈ members, ReadsBack style m.2) {n : Nat} (rest : List Char)
    (hn : (commaSeparated (renderMembers style members)).toList.length < n) :
    members? n ((commaSeparated (renderMembers style members)).toList ++ '\x7d' :: rest) =
      some (members, rest) := by
  induction members generalizing n with
  | nil => exact absurd rfl hne
  | cons m more ih =>
    obtain ⟨key, v⟩ := m
    obtain ⟨n, rfl⟩ : ∃ k, n = k + 1 := ⟨n - 1, by omega⟩
    have hv : ReadsBack style v := h (key, v) List.mem_cons_self
    cases more with
    | nil =>
      have htext : (commaSeparated (renderMembers style [(key, v)])).toList =
          (quoted style key).toList ++ ':' :: (v.render style).toList := by
        simp [renderMembers, commaSeparated]
      rw [htext, List.length_append, List.length_cons] at hn
      rw [htext, List.append_assoc, List.cons_append]
      exact members?_brace key hv (by omega) rest
    | cons m more =>
      have htext : (commaSeparated (renderMembers style ((key, v) :: m :: more))).toList =
          (quoted style key).toList ++ ':' :: ((v.render style).toList ++
            ',' :: (commaSeparated (renderMembers style (m :: more))).toList) := by
        simp [renderMembers, toList_commaSeparated]
      rw [htext, List.length_append, List.length_cons, List.length_append, List.length_cons] at hn
      have hmore := ih (by simp) (fun u hu => h u (List.mem_cons_of_mem _ hu)) (n := n) (by omega)
      rw [htext, List.append_assoc, List.cons_append, List.append_assoc, List.cons_append,
        members?_comma key hv (by omega), hmore]
      rfl

theorem readsBack_object {members : List (String × Json)} (h : ∀ m ∈ members, ReadsBack style m.2) :
    ReadsBack style (.object members) := by
  intro n rest hn _
  have htext : (render style (.object members)).toList =
      '\x7b' :: ((commaSeparated (renderMembers style members)).toList ++ ['\x7d']) := by
    rw [render, String.toList_append, String.toList_append]
    rfl
  rw [htext, List.length_cons, List.length_append] at hn
  obtain ⟨n, rfl⟩ : ∃ k, n = k + 1 := ⟨n - 1, by omega⟩
  rw [htext, List.cons_append, List.append_assoc, List.singleton_append]
  cases members with
  | nil => rfl
  | cons m more =>
    have hmembers := members?_render (List.cons_ne_nil m more) h (n := n) rest (by simp at hn; omega)
    -- the first key's quote keeps the text from being taken for an object without members
    have hquote : ∃ cs, (commaSeparated (renderMembers style (m :: more))).toList = '"' :: cs := by
      obtain ⟨tail, htail⟩ := toList_commaSeparated_cons (quoted style m.1 ++ ":" ++ m.2.render style)
        (renderMembers style more)
      exact ⟨_, by rw [renderMembers, htail, String.toList_append, String.toList_append, toList_quoted]; rfl⟩
    obtain ⟨cs, hcs⟩ := hquote
    rw [hcs] at hmembers ⊢
    change (members? n ('"' :: cs ++ '\x7d' :: rest)).map _ = _
    rw [hmembers]
    rfl

/-- Every well-formed value is read back from its text. -/
theorem WellFormed.readsBack (style : Style) {v : Json} (h : WellFormed v) : ReadsBack style v := by
  induction h with
  | null => exact readsBack_null
  | bool b => exact readsBack_bool b
  | number h => exact readsBack_number h
  | string s => exact readsBack_string s
  | array hi ih => exact readsBack_array hi ih
  | object _ ih => exact readsBack_object ih

/-- The text of a document is that of no other one: it is read as the document. -/
theorem read?_render (style : Style) {v : Json} (h : WellFormed v) : read? (v.render style) = some v := by
  have hvalue := h.readsBack style ((v.render style).toList.length + 1) [] (by omega) (by simp [Ends])
  rw [List.append_nil] at hvalue
  simp [read?, hvalue, skipSpaces]

end Reckoner.Json
