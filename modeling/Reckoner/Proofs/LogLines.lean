/-
Lines of the log read back. A reader knows the two formats only: pairs of a key and a value, each of them
quoted or free of blanks, up to the end of a line; or a document on a line of its own. From the lines of any
records it reads the time, the level and the message of each record and its attributes in their order, each by
the keys that lead to it.
-/
import Reckoner.Log.Logger
import Reckoner.Proofs.JsonText
import Mathlib.Data.List.Forall2
import Std.Data.String.ToInt

namespace Reckoner

/-! ## Quoted text -/

namespace Text

/-- Where the reading of a quoted text stands: before a character, behind a backslash, or within the digits of
an escape, where some digits are left and the others give a number. -/
inductive Quoting where
  | plain
  | escape
  | digits (left number : Nat)

/-- The characters that letters behind a backslash stand for. -/
def escapeNames : List (Char × Char) :=
  [('"', '"'), ('\\', '\\'), ('a', '\x07'), ('b', '\x08'), ('t', '\t'), ('n', '\n'), ('v', '\x0b'), ('f', '\x0c'),
    ('r', '\r')]

/-- The numbers of digits that letters behind a backslash announce. -/
def escapeWidths : List (Char × Nat) :=
  [('x', 2), ('u', 4), ('U', 8)]

/-- A text up to its closing quote, and what follows it. A line cannot end within a text. -/
def unquote? : Quoting → List Char → Option (List Char × List Char)
  | _, [] => none
  | .plain, c :: cs =>
    if c = '"' then some ([], cs)
    else if c = '\\' then unquote? .escape cs
    else if c = '\n' then none
    else (unquote? .plain cs).map fun (text, rest) => (c :: text, rest)
  | .escape, c :: cs =>
    match escapeNames.lookup c, escapeWidths.lookup c with
    | some d, _ => (unquote? .plain cs).map fun (text, rest) => (d :: text, rest)
    | none, some width => unquote? (.digits width 0) cs
    | none, none => none
  | .digits left number, c :: cs =>
    match Json.hexValue? c with
    | none => none
    | some d =>
      if left = 1 then (unquote? .plain cs).map fun (text, rest) => (Char.ofNat (number * 16 + d) :: text, rest)
      else unquote? (.digits (left - 1) (number * 16 + d)) cs

theorem unquote?_digits {ds : List Nat} (hds : ∀ d ∈ ds, d < 16) (hne : ds ≠ []) (number : Nat) (rest : List Char) :
    unquote? (.digits ds.length number) (ds.map Nat.digitChar ++ rest) =
      (unquote? .plain rest).map fun (text, rest') =>
        (Char.ofNat (ds.foldl (fun n d => n * 16 + d) number) :: text, rest') := by
  induction ds generalizing number with
  | nil => exact absurd rfl hne
  | cons d ds ih =>
    rw [List.forall_mem_cons] at hds
    rw [List.map_cons, List.cons_append, unquote?, Json.hexValue?_digitChar hds.1]
    cases ds with
    | nil => rfl
    | cons e ds =>
      rw [List.foldl_cons, ← ih hds.2 (by simp)]
      simp

theorem hexDigits_lt (width n : Nat) : ∀ d ∈ Json.hexDigits width n, d < 16 := by
  induction width generalizing n with
  | zero => simp [Json.hexDigits]
  | succ width ih =>
    intro d hd
    rw [Json.hexDigits, List.mem_append, List.mem_singleton] at hd
    rcases hd with hd | rfl
    · exact ih _ d hd
    · omega

theorem length_hexDigits (width n : Nat) : (Json.hexDigits width n).length = width := by
  induction width generalizing n with
  | zero => rfl
  | succ width ih => rw [Json.hexDigits, List.length_append, ih, List.length_singleton]

theorem foldl_hexDigits {width n : Nat} (h : n < 16 ^ width) :
    (Json.hexDigits width n).foldl (fun n d => n * 16 + d) 0 = n := by
  induction width generalizing n with
  | zero =>
    rw [Nat.pow_zero] at h
    rw [Json.hexDigits, List.foldl_nil]
    omega
  | succ width ih =>
    have hrest := ih (n := n / 16) (by rw [Nat.pow_succ] at h; omega)
    rw [Json.hexDigits, List.foldl_append, hrest, List.foldl_cons, List.foldl_nil]
    omega

/-- An escape by number is undone. -/
theorem unquote?_hex {letter : Char} {width : Nat} (hletter : escapeNames.lookup letter = none)
    (hwidth : escapeWidths.lookup letter = some (width + 1)) {c : Char} (hc : c.toNat < 16 ^ (width + 1))
    (rest : List Char) :
    unquote? .plain ('\\' :: letter :: ((hex (width + 1) c.toNat).toList ++ rest)) =
      (unquote? .plain rest).map fun (text, rest') => (c :: text, rest') := by
  have hdigits := unquote?_digits (hexDigits_lt (width + 1) c.toNat)
    (by rw [← List.length_pos_iff, length_hexDigits]; omega) 0 rest
  rw [length_hexDigits, foldl_hexDigits hc, Char.ofNat_toNat] at hdigits
  rw [Json.toList_hex hc, ← hdigits]
  simp only [unquote?, hletter, hwidth]
  simp

theorem unquote?_named {letter c : Char} (h : escapeNames.lookup letter = some c) (rest : List Char) :
    unquote? .plain ('\\' :: letter :: rest) = (unquote? .plain rest).map fun (text, rest') => (c :: text, rest') := by
  simp only [unquote?, h]
  simp

/-- Every escape is undone where it stands. -/
theorem unquote?_escape (c : Char) (rest : List Char) :
    unquote? .plain ((escape c).toList ++ rest) =
      (unquote? .plain rest).map fun (text, rest') => (c :: text, rest') := by
  have hnamed {n : Nat} {letter : Char} (hn : c.toNat = n)
      (hletter : escapeNames.lookup letter = some (Char.ofNat n)) :
      unquote? .plain ('\\' :: letter :: rest) =
        (unquote? .plain rest).map fun (text, rest') => (c :: text, rest') := by
    rw [← Char.ofNat_toNat c, hn]
    exact unquote?_named hletter rest
  unfold escape
  split_ifs with hquote hslash hprintable
  · rw [hquote]
    exact unquote?_named rfl rest
  · rw [hslash]
    exact unquote?_named rfl rest
  · have hline : c ≠ '\n' := by
      rintro rfl
      exact absurd hprintable (by decide)
    rw [String.toList_singleton, List.singleton_append, unquote?, if_neg hquote, if_neg hslash, if_neg hline]
  · split
    · exact hnamed ‹_› rfl
    · exact hnamed ‹_› rfl
    · exact hnamed ‹_› rfl
    · exact hnamed ‹_› rfl
    · exact hnamed ‹_› rfl
    · exact hnamed ‹_› rfl
    · exact hnamed ‹_› rfl
    · -- by number, with as many digits as the number may need
      have hword : c.toNat < 16 ^ 8 := c.val.toNat_lt
      have htwo := unquote?_hex (show escapeNames.lookup 'x' = none from rfl)
        (show escapeWidths.lookup 'x' = some (1 + 1) from rfl) (c := c)
      have hfour := unquote?_hex (show escapeNames.lookup 'u' = none from rfl)
        (show escapeWidths.lookup 'u' = some (3 + 1) from rfl) (c := c)
      have height := unquote?_hex (show escapeNames.lookup 'U' = none from rfl)
        (show escapeWidths.lookup 'U' = some (7 + 1) from rfl) (c := c)
      split_ifs with hbyte hshort
      · simp only [Bool.or_eq_true, decide_eq_true_eq] at hbyte
        simpa using htwo (by omega) rest
      · simpa using hfour hshort rest
      · simpa using height hword rest

theorem unquote?_escaped (cs rest : List Char) :
    unquote? .plain ((cs.flatMap fun c => (escape c).toList) ++ '"' :: rest) = some (cs, rest) := by
  induction cs with
  | nil => rfl
  | cons c cs ih => rw [List.flatMap_cons, List.append_assoc, unquote?_escape, ih, Option.map_some]

theorem toList_quote (s : String) :
    (quote s).toList = '"' :: (s.toList.flatMap fun c => (escape c).toList) ++ ['"'] := by
  simp [quote, String.toList_join, List.flatMap_map]

end Text

namespace Log

/-! ## Pairs -/

/-- Characters that pass a test and stand before one that does not are cut off by it. -/
theorem cut_append {p : Char → Bool} {cs rest : List Char} (hcs : ∀ c ∈ cs, p c = true)
    (hrest : ∀ c ∈ rest.head?, p c = false) :
    (cs ++ rest).takeWhile p = cs ∧ (cs ++ rest).dropWhile p = rest := by
  rw [List.takeWhile_append_of_pos hcs, List.dropWhile_append_of_pos hcs]
  cases rest with
  | nil => simp
  | cons c rest => simp [hrest c rfl]

/-- A character that stands for itself outside quotes. -/
def isBare (c : Char) : Bool :=
  c != ' ' && c != '=' && c != '\n'

/-- A text and what follows it: one in quotes, or else all up to a blank, an equals sign or the end of the
line. -/
def item? : List Char → Option (String × List Char)
  | '"' :: rest => (Text.unquote? .plain rest).map fun (text, rest') => (String.ofList text, rest')
  | cs => some (String.ofList (cs.takeWhile isBare), cs.dropWhile isBare)

/-- The pairs of a line and what follows it, for at most `n` pairs. -/
def pairs? : Nat → List Char → Option (List (String × String) × List Char)
  | 0, _ => none
  | n + 1, cs =>
    match item? cs with
    | some (key, '=' :: rest) =>
      match item? rest with
      | some (value, ' ' :: rest') => (pairs? n rest').map fun (pairs, rest'') => ((key, value) :: pairs, rest'')
      | some (value, '\n' :: rest') => some ([(key, value)], rest')
      | _ => none
    | _ => none

/-- The way a text is written: it is read as the text, where something that stands for no text follows. -/
def Spells (written text : String) : Prop :=
  ∀ rest, (∀ c ∈ rest.head?, isBare c = false) → item? (written.toList ++ rest) = some (text, rest)

theorem spells_quote (s : String) : Spells (Text.quote s) s := by
  intro rest _
  rw [Text.toList_quote, List.append_assoc, List.cons_append, List.singleton_append, item?, Text.unquote?_escaped]
  simp

theorem bare_of_needsQuotes {s : String} (h : needsQuotes s = false) :
    s.toList ≠ [] ∧ ∀ c ∈ s.toList, isBare c = true ∧ c ≠ '"' := by
  simp only [needsQuotes, Bool.or_eq_false_iff, List.any_eq_false] at h
  refine ⟨by simpa using h.1, fun c hc => ?_⟩
  have hplain := h.2 c hc
  have hlow {d : Char} (hd : d.toNat < 0x80) (hbad : d.toNat < 0x20 ∨ d = ' ' ∨ d = '=' ∨ d = '"') : c ≠ d := by
    rintro rfl
    rw [if_pos hd] at hplain
    exact hplain (by simpa [or_assoc] using hbad)
  refine ⟨?_, hlow (by decide) (by simp)⟩
  simp [isBare, hlow (d := ' ') (by decide) (by simp), hlow (d := '=') (by decide) (by simp),
    hlow (d := '\n') (by decide) (.inl (by decide))]

theorem spells_self {s : String} (h : needsQuotes s = false) : Spells s s := by
  intro rest hrest
  obtain ⟨hne, hbare⟩ := bare_of_needsQuotes h
  obtain ⟨htake, hdrop⟩ := cut_append (fun c hc => (hbare c hc).1) hrest
  rw [item?.eq_2, htake, hdrop, String.ofList_toList]
  intro more hmore
  obtain ⟨c, cs, hcs⟩ := List.exists_cons_of_ne_nil hne
  rw [hcs, List.cons_append, List.cons.injEq] at hmore
  exact (hbare c (by rw [hcs]; exact List.mem_cons_self)).2 hmore.1

theorem spells_bare (s : String) : Spells (bare s) s := by
  unfold bare
  split_ifs with h
  · exact spells_quote s
  · exact spells_self (Bool.eq_false_iff.2 h)

theorem needsQuotes_append {s t : String} (hs : needsQuotes s = false) (ht : needsQuotes t = false) :
    needsQuotes (s ++ t) = false := by
  simp only [needsQuotes, Bool.or_eq_false_iff] at hs ht ⊢
  rw [String.toList_append, List.any_append, hs.2, ht.2]
  exact ⟨by simpa using fun h => absurd h (by simpa using hs.1), rfl⟩

theorem spells_pairKey (groups key : String) : Spells (pairKey groups key) (groups ++ key) := by
  unfold pairKey
  split_ifs with hempty hquotes
  · obtain rfl : groups = "" := by simpa using hempty
    rw [String.empty_append]
    exact spells_bare key
  · exact spells_quote _
  · simp only [Bool.or_eq_true, not_or, Bool.not_eq_true] at hquotes
    exact spells_self (needsQuotes_append hquotes.1 hquotes.2)

theorem Scalar.spells_pairText (v : Scalar) : Spells v.pairText v.shown := by
  unfold Scalar.pairText
  split
  · exact spells_quote _
  · exact spells_bare _

/-- A pair as it is written. -/
def pairChars (written : String × String) : List Char :=
  written.1.toList ++ '=' :: written.2.toList

/-- A pair whose key and value are written in some way. -/
def IsPair (written told : String × String) : Prop :=
  Spells written.1 told.1 ∧ Spells written.2 told.2

/-- Pairs are read to the end of their line. -/
theorem pairs?_append {first told : String × String} {more tolds : List (String × String)}
    (hfirst : IsPair first told) (hmore : List.Forall₂ IsPair more tolds) {n : Nat} (hn : more.length < n)
    (rest : List Char) :
    pairs? n (pairChars first ++ ((more.flatMap fun w => ' ' :: pairChars w) ++ '\n' :: rest)) =
      some (told :: tolds, rest) := by
  obtain ⟨n, rfl⟩ : ∃ k, n = k + 1 := ⟨n - 1, by omega⟩
  obtain ⟨hkey, hvalue⟩ := hfirst
  induction hmore generalizing first told n with
  | nil =>
    have hvalueItem := hvalue ('\n' :: rest) (by simp [isBare])
    have hkeyItem := hkey ('=' :: (first.2.toList ++ '\n' :: rest)) (by simp [isBare])
    simp only [pairChars, List.flatMap_nil, List.nil_append, List.append_assoc, List.cons_append, pairs?, hkeyItem,
      hvalueItem]
  | @cons next nextTold more tolds hnext _ ih =>
    obtain ⟨n, rfl⟩ : ∃ k, n = k + 1 := ⟨n - 1, by simp at hn; omega⟩
    have hrest := ih n (by simpa using hn) hnext.1 hnext.2
    have hvalueItem := hvalue
      (' ' :: (pairChars next ++ ((more.flatMap fun w => ' ' :: pairChars w) ++ '\n' :: rest))) (by simp [isBare])
    have hkeyItem := hkey ('=' :: (first.2.toList ++
      ' ' :: (pairChars next ++ ((more.flatMap fun w => ' ' :: pairChars w) ++ '\n' :: rest)))) (by simp [isBare])
    rw [List.flatMap_cons, List.append_assoc, List.cons_append, pairChars, List.append_assoc, List.cons_append,
      pairs?, hkeyItem]
    simp only [hvalueItem, hrest, Option.map_some]

/-! ## Levels -/

/-- The signs of distances. -/
def isSign (c : Char) : Bool :=
  c == '+' || c == '-'

/-- A distance without the sign of those that go up. -/
def distanceChars : List Char → List Char
  | '+' :: digits => digits
  | cs => cs

/-- The level that the name of one and a signed distance from it stand for. -/
def levelRead? (text : String) : Option Int :=
  let cs := text.toList
  let distance := distanceChars (cs.dropWhile (!isSign ·))
  match namedLevels.lookup (String.ofList (cs.takeWhile (!isSign ·))) with
  | none => none
  | some base => if distance = [] then some base else (String.ofList distance).toInt?.map (base + ·)

theorem levelRead?_append {base : String} {level : Int} (hbase : namedLevels.lookup base = some level)
    (hletters : ∀ c ∈ base.toList, (!isSign c) = true) {tail : List Char}
    (htail : ∀ c ∈ tail.head?, isSign c = true) :
    levelRead? (base ++ String.ofList tail) =
      if distanceChars tail = [] then some level
      else (String.ofList (distanceChars tail)).toInt?.map (level + ·) := by
  obtain ⟨htake, hdrop⟩ := cut_append (p := (!isSign ·)) hletters (fun c hc => by rw [htail c hc]; rfl)
  simp only [levelRead?, String.toList_append, String.toList_ofList, htake, hdrop, String.ofList_toList, hbase]

theorem levelRead?_relativeName {base : String} {level : Int} (hbase : namedLevels.lookup base = some level)
    (hletters : ∀ c ∈ base.toList, (!isSign c) = true) (distance : Int) :
    levelRead? (relativeName base distance) = some (level + distance) := by
  have hread : (toString distance).toInt? = some distance := by rw [Int.toString_eq_repr, Int.toInt?_repr]
  unfold relativeName
  split_ifs with hzero hup
  · have htext : base = base ++ String.ofList [] := by simp
    have hnone : distanceChars [] = [] := rfl
    rw [htext, levelRead?_append hbase hletters (by simp), if_pos hnone, hzero, Int.add_zero]
  · have htext : base ++ "+" ++ toString distance = base ++ String.ofList ('+' :: (toString distance).toList) := by
      apply String.toList_injective
      simp
    obtain ⟨c, cs, hcs, -⟩ := (Json.isNumeral_int distance).head
    have hsome : (toString distance).toList ≠ [] := by rw [hcs]; exact List.cons_ne_nil c cs
    rw [htext, levelRead?_append hbase hletters (by simp [isSign]), distanceChars, if_neg hsome,
      String.ofList_toList, hread, Option.map_some]
  · have htext : toString distance = String.ofList ('-' :: (-distance).toNat.repr.toList) := by
      apply String.toList_injective
      rw [Int.toString_eq_repr, Int.repr_eq_if, if_neg (by omega)]
      simp
    have hall : distanceChars ('-' :: (-distance).toNat.repr.toList) = '-' :: (-distance).toNat.repr.toList := rfl
    rw [htext] at hread ⊢
    rw [levelRead?_append hbase hletters (by simp [isSign]), hall, if_neg (List.cons_ne_nil _ _), hread,
      Option.map_some]

/-- The text of a level is read as the level. -/
theorem levelRead?_levelName (level : Int) : levelRead? (levelName level) = some level := by
  unfold levelName
  split_ifs
  · rw [levelRead?_relativeName rfl (List.all_eq_true.1 rfl)]
    congr 1
    omega
  · rw [levelRead?_relativeName rfl (List.all_eq_true.1 rfl), Int.zero_add]
  · rw [levelRead?_relativeName rfl (List.all_eq_true.1 rfl)]
    congr 1
    omega
  · rw [levelRead?_relativeName rfl (List.all_eq_true.1 rfl)]
    congr 1
    omega

/-! ## Attributes -/

mutual

/-- The attributes in a field, each with the names of the groups around it from the outermost one on. -/
def Field.attributes (groups : List String) : Field → List (List String × Leaf)
  | .leaf a => [(groups, a)]
  | .group name first rest =>
    first.attributes (groups ++ [name]) ++ attributesOf (groups ++ [name]) rest

/-- The attributes in several fields. -/
def attributesOf (groups : List String) : List Field → List (List String × Leaf)
  | [] => []
  | f :: fs => f.attributes groups ++ attributesOf groups fs

end

/-- The attributes of a record, as they are placed in groups. -/
def Record.attributes (r : Record) : List (List String × Leaf) :=
  attributesOf [] r.fields

/-- The names of groups, each with a dot behind it. -/
def dotted (groups : List String) : String :=
  String.join (groups.map (· ++ "."))

/-- The key and the value of a pair for an attribute, as they are written. -/
def writtenPair : List String × Leaf → String × String
  | (groups, a) => (pairKey (dotted groups) a.key, a.value.pairText)

/-- The key and the value that a pair for an attribute stands for. -/
def toldPair : List String × Leaf → String × String
  | (groups, a) => (dotted groups ++ a.key, a.value.shown)

theorem isPair_attribute (a : List String × Leaf) : IsPair (writtenPair a) (toldPair a) :=
  ⟨spells_pairKey _ _, a.2.value.spells_pairText⟩

theorem dotted_concat (groups : List String) (name : String) :
    dotted (groups ++ [name]) = dotted groups ++ name ++ "." := by
  apply String.toList_injective
  simp [dotted]

mutual

theorem toList_pairs (groups : List String) : (f : Field) →
    (f.pairs (dotted groups)).toList =
      (f.attributes groups).flatMap fun a => ' ' :: pairChars (writtenPair a)
  | .leaf a => by simp [Field.pairs, Field.attributes, writtenPair, pairChars]
  | .group name first rest => by
    rw [Field.pairs, Field.attributes, ← dotted_concat, String.toList_append, toList_pairs _ first,
      toList_pairsOf _ rest, List.flatMap_append]

theorem toList_pairsOf (groups : List String) : (fs : List Field) →
    (pairsOf (dotted groups) fs).toList =
      (attributesOf groups fs).flatMap fun a => ' ' :: pairChars (writtenPair a)
  | [] => rfl
  | f :: fs => by
    rw [pairsOf, attributesOf, String.toList_append, toList_pairs _ f, toList_pairsOf _ fs, List.flatMap_append]

end

end Log

/-! ## Documents -/

namespace Json

mutual

/-- The values in a document that are no objects with members, each by the keys that lead to it. -/
def leaves : Json → List (List String × Json)
  | .object [] => [([], .object [])]
  | .object (m :: ms) => memberLeaves (m :: ms)
  | v => [([], v)]

/-- The values in the members of an object. -/
def memberLeaves : List (String × Json) → List (List String × Json)
  | [] => []
  | (key, value) :: rest => (value.leaves.map fun (path, v) => (key :: path, v)) ++ memberLeaves rest

end

end Json

namespace Log

/-- The values that a document tells for an attribute. -/
def toldLeaves : List String × Leaf → List (List String × Json)
  | (groups, a) => a.value.json.leaves.map fun (path, v) => (groups ++ a.key :: path, v)

mutual

theorem leaves_member (groups : List String) : (f : Field) →
    (f.member.2.leaves.map fun (path, v) => (groups ++ f.member.1 :: path, v)) =
      (f.attributes groups).flatMap toldLeaves
  | .leaf a => by simp [Field.member, Field.attributes, toldLeaves]
  | .group name first rest => by
    have hfirst := leaves_member (groups ++ [name]) first
    have hrest := memberLeaves_membersOf (groups ++ [name]) rest
    simp only [List.append_assoc, List.singleton_append] at hfirst hrest
    rw [Field.attributes, List.flatMap_append, ← hfirst, ← hrest, Field.member, Json.leaves, Json.memberLeaves]
    simp

theorem memberLeaves_membersOf (groups : List String) : (fs : List Field) →
    ((Json.memberLeaves (membersOf fs)).map fun (path, v) => (groups ++ path, v)) =
      (attributesOf groups fs).flatMap toldLeaves
  | [] => rfl
  | f :: fs => by
    rw [membersOf, attributesOf, List.flatMap_append, ← leaves_member groups f, ← memberLeaves_membersOf groups fs,
      Json.memberLeaves]
    simp

end

theorem Scalar.wellFormed_json (v : Scalar) : v.json.WellFormed := by
  cases v with
  | text s => exact .string s
  | int n => exact .int n
  | bool b => exact .bool b
  | null => exact .null
  | other text quoted document h => exact h

mutual

theorem wellFormed_member : (f : Field) → f.member.2.WellFormed
  | .leaf a => a.value.wellFormed_json
  | .group _ first rest => by
    refine .object fun m hm => ?_
    rcases List.mem_cons.1 hm with rfl | hm
    · exact wellFormed_member first
    · exact wellFormed_membersOf rest m hm

theorem wellFormed_membersOf : (fs : List Field) → ∀ m ∈ membersOf fs, m.2.WellFormed
  | [] => by simp [membersOf]
  | f :: fs => by
    intro m hm
    rcases List.mem_cons.1 hm with rfl | hm
    · exact wellFormed_member f
    · exact wellFormed_membersOf fs m hm

end

/-! ## Lines -/

/-- What a line tells: a time, a level, a message, and values by the keys that lead to them. -/
structure Line where
  time : String
  level : Int
  message : String
  attributes : List (List String × Json)

namespace Line

/-- The line with some pairs. A value is told as text, by a single key. -/
def ofPairs? : List (String × String) → Option Line
  | ("time", time) :: ("level", level) :: ("msg", message) :: attributes =>
    (levelRead? level).map fun level => ⟨time, level, message, attributes.map fun (k, v) => ([k], .string v)⟩
  | _ => none

/-- The line with a document. -/
def ofJson? : Json → Option Line
  | .object (("time", .string time) :: ("level", .string level) :: ("msg", .string message) :: members) =>
    (levelRead? level).map fun level => ⟨time, level, message, Json.memberLeaves members⟩
  | _ => none

end Line

namespace Format

/-- The next line of a text in a format, and what follows it. -/
def line? : Format → List Char → Option (Line × List Char)
  | .text, cs =>
    match pairs? cs.length cs with
    | some (pairs, rest) => (Line.ofPairs? pairs).map (·, rest)
    | none => none
  | .json, cs =>
    match Json.value? cs.length cs with
    | some (document, '\n' :: rest) => (Line.ofJson? document).map (·, rest)
    | _ => none

/-- The lines of a text in a format, for at most `n` lines. -/
def linesFrom? (format : Format) : Nat → List Char → Option (List Line)
  | _, [] => some []
  | 0, _ :: _ => none
  | n + 1, c :: cs =>
    match format.line? (c :: cs) with
    | some (line, rest) => (format.linesFrom? n rest).map (line :: ·)
    | none => none

/-- The lines of a text in a format. -/
def lines? (format : Format) (text : String) : Option (List Line) :=
  format.linesFrom? text.toList.length text.toList

/-- The values that a line in a format tells for attributes: pairs have the names of groups in their keys. -/
def told : Format → List (List String × Leaf) → List (List String × Json)
  | .text, attributes => attributes.map fun a => ([(toldPair a).1], .string (toldPair a).2)
  | .json, attributes => attributes.flatMap toldLeaves

end Format

/-- The line that a record should have in a format. -/
def Record.told (format : Format) (stamp : String) (r : Record) : Line :=
  ⟨stamp, r.level, r.message, format.told r.attributes⟩

/-- The pairs of a record as they are written, behind that of the time. -/
def Record.writtenPairs (r : Record) : List (String × String) :=
  ("level", bare (levelName r.level)) :: ("msg", bare r.message) :: r.attributes.map writtenPair

/-- The pairs of a record behind that of the time. -/
def Record.toldPairs (r : Record) : List (String × String) :=
  ("level", levelName r.level) :: ("msg", r.message) :: r.attributes.map toldPair

theorem Record.isPairs (r : Record) : List.Forall₂ IsPair r.writtenPairs r.toldPairs := by
  have hlevel : needsQuotes "level" = false := by decide
  have hmessage : needsQuotes "msg" = false := by decide
  refine .cons ⟨spells_self hlevel, spells_bare _⟩ (.cons ⟨spells_self hmessage, spells_bare _⟩ ?_)
  rw [List.forall₂_map_left_iff, List.forall₂_map_right_iff, List.forall₂_same]
  exact fun a _ => isPair_attribute a

theorem toList_textLine (stamp : String) (r : Record) :
    (r.textLine stamp).toList =
      pairChars ("time", stamp) ++ ((r.writtenPairs.flatMap fun w => ' ' :: pairChars w) ++ ['\n']) := by
  have hattributes := toList_pairsOf [] r.fields
  rw [show dotted [] = "" from rfl] at hattributes
  simp [Record.textLine, Record.writtenPairs, Record.attributes, pairChars, hattributes, List.flatMap_map]

theorem length_le_flatMap (pairs : List (String × String)) :
    pairs.length ≤ (pairs.flatMap fun w => ' ' :: pairChars w).length := by
  induction pairs with
  | nil => exact Nat.le_refl 0
  | cons w pairs ih =>
    rw [List.flatMap_cons, List.length_append, List.length_cons, List.length_cons]
    omega

/-- A line of pairs is read back, where the time is written as it is. -/
theorem line?_textLine {stamp : String} (hstamp : needsQuotes stamp = false) (r : Record) (rest : List Char) :
    Format.text.line? ((r.textLine stamp).toList ++ rest) = some (r.told .text stamp, rest) := by
  have hkey : needsQuotes "time" = false := by decide
  have htime : IsPair ("time", stamp) ("time", stamp) := ⟨spells_self hkey, spells_self hstamp⟩
  have hpairs := pairs?_append htime r.isPairs
    (n := (pairChars ("time", stamp) ++
      ((r.writtenPairs.flatMap fun w => ' ' :: pairChars w) ++ '\n' :: rest)).length)
    (by
      have hlength := length_le_flatMap r.writtenPairs
      simp only [List.length_append, List.length_cons]
      omega) rest
  rw [toList_textLine, List.append_assoc, List.append_assoc, List.singleton_append, Format.line?, hpairs]
  simp [Line.ofPairs?, Record.toldPairs, levelRead?_levelName, Record.told, Format.told]

/-- A document on its line is read back. -/
theorem line?_jsonLine (stamp : String) (r : Record) (rest : List Char) :
    Format.json.line? ((r.jsonLine stamp).toList ++ rest) = some (r.told .json stamp, rest) := by
  have hformed : (Json.object (("time", .string stamp) :: ("level", .string (levelName r.level)) ::
      ("msg", .string r.message) :: membersOf r.fields)).WellFormed := by
    refine .object fun m hm => ?_
    simp only [List.mem_cons] at hm
    rcases hm with rfl | rfl | rfl | hm
    · exact .string _
    · exact .string _
    · exact .string _
    · exact wellFormed_membersOf r.fields m hm
  have hends : Json.Ends ('\n' :: rest) := by
    rintro c ⟨⟩
    decide
  have hleaves := memberLeaves_membersOf [] r.fields
  simp only [List.nil_append] at hleaves
  rw [Record.jsonLine, String.toList_append, List.append_assoc, Format.line?]
  change (match Json.value? _ (_ ++ '\n' :: rest) with
    | some (document, '\n' :: rest) => (Line.ofJson? document).map (·, rest)
    | _ => none) = _
  rw [hformed.readsBack .log _ _ (by simp) hends]
  simp [Line.ofJson?, levelRead?_levelName, Record.told, Format.told, Record.attributes, ← hleaves]

/-- A line in a format is read back. -/
theorem line?_line (format : Format) {stamp : String} (hstamp : needsQuotes stamp = false) (r : Record)
    (rest : List Char) :
    format.line? ((format.line stamp r).toList ++ rest) = some (r.told format stamp, rest) := by
  cases format with
  | text => exact line?_textLine hstamp r rest
  | json => exact line?_jsonLine stamp r rest

theorem toList_line_ne_nil (format : Format) (stamp : String) (r : Record) : (format.line stamp r).toList ≠ [] := by
  cases format with
  | text => simp [Format.line, Record.textLine]
  | json => simp [Format.line, Record.jsonLine]

/-- The lines of records are read back, one line for each record. -/
theorem lines?_join (format : Format) {records : List (String × Record)}
    (hstamps : ∀ r ∈ records, needsQuotes r.1 = false) :
    format.lines? (String.join (records.map fun r => format.line r.1 r.2)) =
      some (records.map fun r => r.2.told format r.1) := by
  have hlines (n : Nat)
      (hn : (records.flatMap fun r => (format.line r.1 r.2).toList).length ≤ n) :
      format.linesFrom? n (records.flatMap fun r => (format.line r.1 r.2).toList) =
        some (records.map fun r => r.2.told format r.1) := by
    induction records generalizing n with
    | nil => cases n <;> rfl
    | cons record records ih =>
      obtain ⟨stamp, r⟩ := record
      rw [List.forall_mem_cons] at hstamps
      obtain ⟨c, cs, hcs⟩ := List.exists_cons_of_ne_nil (toList_line_ne_nil format stamp r)
      have hline := line?_line format hstamps.1 r
        (records.flatMap fun r => (format.line r.1 r.2).toList)
      simp only [List.flatMap_cons, hcs, List.cons_append, List.length_cons, List.length_append] at hn hline ⊢
      obtain ⟨n, rfl⟩ : ∃ k, n = k + 1 := ⟨n - 1, by omega⟩
      simp only [Format.linesFrom?, hline, ih hstamps.2 n (by omega), Option.map_some, List.map_cons]
  have htext : (String.join (records.map fun r => format.line r.1 r.2)).toList =
      records.flatMap fun r => (format.line r.1 r.2).toList := by
    rw [String.toList_join, List.flatMap_map]
  rw [Format.lines?, htext, hlines _ (Nat.le_refl _)]

end Log

end Reckoner
