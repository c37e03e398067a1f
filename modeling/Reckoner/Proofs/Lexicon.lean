/-
The lexical grammar, and the scanner against it: every sequence of runes is cut by taking, again and
again, the longest prefix that is a lexeme of some class. Where none is one, an unclosed string
takes all that is left and any other character is taken alone, each with one error. The cuts are
determined by the runes, they follow one another without gaps, and the scanner returns exactly the
tokens and errors that can be read off them.

A rune that is no character counts as U+FFFD, which belongs to no class but those of the string and
the comment around it.
-/
import Reckoner.Scan
import Reckoner.Text.Utf8
import Mathlib.Data.List.TakeWhile
import Mathlib.Tactic.SplitIfs
import Mathlib.Tactic.NthRewrite

namespace Reckoner

namespace Lexicon

/-! ## Lexemes -/

/-- The fixed lexemes of one or two characters. -/
def punctuators : List (List Char × TokenKind) :=
  [(['('], .leftParen), ([')'], .rightParen), (['\x7b'], .leftBrace), (['\x7d'], .rightBrace),
    ([','], .comma), (['.'], .dot), (['-'], .minus), (['+'], .plus), ([';'], .semicolon),
    (['*'], .star), (['/'], .slash), (['!'], .bang), (['!', '='], .bangEqual), (['='], .equal),
    (['=', '='], .equalEqual), (['<'], .less), (['<', '='], .lessEqual), (['>'], .greater),
    (['>', '='], .greaterEqual)]

/-- The characters that separate lexemes: blanks and the line end. -/
def blanks : List Char :=
  [' ', '\r', '\t', '\n']

/-- A digit string of at least one digit. -/
def IsNumeral (cs : List Char) : Prop :=
  cs ≠ [] ∧ ∀ c ∈ cs, c.isDigit = true

/-- A letter or an underscore, and then letters, underscores and ASCII digits. -/
def IsWord (cs : List Char) : Prop :=
  ∃ c rest, cs = c :: rest ∧ (Text.isLetter c = true ∨ c = '_') ∧
    ∀ d ∈ rest, Text.isLetter d = true ∨ d = '_' ∨ d.isDigit = true

/-- The characters `w` of `Lexeme w m` form a lexeme, and `m` is what it means. -/
inductive Lexeme : List Char → Meaning → Prop
  | punctuator {w kind} : (w, kind) ∈ punctuators → Lexeme w (.token kind none)
  | string {body} : '"' ∉ body →
      Lexeme ('"' :: body ++ ['"']) (.token .string (some (.string (String.ofList body))))
  | whole {digits} : IsNumeral digits →
      Lexeme digits (.token .number (some (.number (Number.Decimal.ofDigits digits []).toFloat)))
  | decimal {whole fraction} : IsNumeral whole → IsNumeral fraction →
      Lexeme (whole ++ '.' :: fraction)
        (.token .number (some (.number (Number.Decimal.ofDigits whole fraction).toFloat)))
  | keyword {w kind} : (String.ofList w, kind) ∈ TokenKind.keywords → Lexeme w (.token kind none)
  | identifier {w} : IsWord w → String.ofList w ∉ TokenKind.keywords.map Prod.fst →
      Lexeme w (.token .identifier none)
  | blank {c} : c ∈ blanks → Lexeme [c] .layout
  | comment {body} : '\n' ∉ body → Lexeme ('/' :: '/' :: body) .layout

/-! ## Longest matches -/

/-- The characters that runes are shown by. -/
def shown (runes : List Int) : List Char :=
  runes.map Text.charOfInt

/-- Some runes of the source and their meaning. -/
structure Cut where
  runes : List Int
  meaning : Meaning

/-- No prefix of the runes is a lexeme. -/
def NoLexeme (runes : List Int) : Prop :=
  ∀ w, w <+: runes → ∀ m, ¬ Lexeme (shown w) m

/-- No prefix of the runes that is a lexeme has more than `n` runes. -/
def NoLongerLexeme (n : Nat) (runes : List Int) : Prop :=
  ∀ w, w <+: runes → ∀ m, Lexeme (shown w) m → w.length ≤ n

/-- The rune of the double quote. -/
def quote : Int := 34

/-- Cuts by the longest match: the longest lexeme is cut off again and again. Where there is none,
an opening quote takes all runes with it, and any other rune is cut off alone. -/
inductive LongestMatch : List Int → List Cut → Prop
  | done : LongestMatch [] []
  | lexeme {w rest m cuts} : Lexeme (shown w) m → NoLongerLexeme w.length (w ++ rest) →
      LongestMatch rest cuts → LongestMatch (w ++ rest) (⟨w, m⟩ :: cuts)
  | unterminated {rest} : NoLexeme (quote :: rest) →
      LongestMatch (quote :: rest) [⟨quote :: rest, .fault .unterminated⟩]
  | unexpected {r rest cuts} : r ≠ quote → NoLexeme (r :: rest) → LongestMatch rest cuts →
      LongestMatch (r :: rest) (⟨[r], .fault (.unexpected (Text.charOfInt r))⟩ :: cuts)

/-- The line on which the rune after the given ones stands. -/
def lineAfter (before : List Int) : Int :=
  1 + before.count 10

/-- The tokens of cuts that stand behind the runes `before`: one for each cut that is a token, and
the end of the source. -/
def tokensFrom (before : List Int) : List Cut → List Token
  | [] => [⟨.eof, "", none, lineAfter before⟩]
  | c :: cuts =>
    match c.meaning with
    | .token kind literal =>
      ⟨kind, String.ofList (shown c.runes), literal, lineAfter before⟩ ::
        tokensFrom (before ++ c.runes) cuts
    | _ => tokensFrom (before ++ c.runes) cuts

/-- The lines and texts of the errors of cuts that stand behind the runes `before`. -/
def errorsFrom (before : List Int) : List Cut → List (Int × String)
  | [] => []
  | c :: cuts =>
    match c.meaning with
    | .fault (.unexpected char) =>
      (lineAfter before, "Unexpected character: " ++ String.singleton char) ::
        errorsFrom (before ++ c.runes) cuts
    | .fault .unterminated =>
      (lineAfter before, "Unterminated string.") :: errorsFrom (before ++ c.runes) cuts
    | _ => errorsFrom (before ++ c.runes) cuts

/-! ## Character classes -/

theorem isDigit_iff {c : Char} : c.isDigit = true ↔ 48 ≤ c.toNat ∧ c.toNat ≤ 57 := by
  simp only [Char.isDigit, Bool.and_eq_true, decide_eq_true_eq, UInt32.le_iff_toNat_le, ge_iff_le]
  exact Iff.rfl

theorem isAlpha_iff {c : Char} : c.isAlpha = true ↔
    65 ≤ c.toNat ∧ c.toNat ≤ 90 ∨ 97 ≤ c.toNat ∧ c.toNat ≤ 122 := by
  delta Char.isAlpha Char.isUpper Char.isLower
  simp only [Bool.or_eq_true, Bool.and_eq_true, decide_eq_true_eq, UInt32.le_iff_toNat_le, ge_iff_le]
  exact Iff.rfl

theorem startsWord_of_isDigit {c : Char} (h : c.isDigit = true) : Piece.startsWord c = false := by
  have hc := isDigit_iff.1 h
  have ha : c.isAlpha = false := by
    rw [Bool.eq_false_iff, ne_eq, isAlpha_iff]
    omega
  have hu : c ≠ '_' := by rintro rfl; exact absurd hc (by decide)
  unfold Piece.startsWord Text.isLetter
  rw [if_pos (by omega), ha]
  simp [hu]

/-- The characters that a piece of another sort than a number or a word begins with. -/
def special : List Char :=
  punctuators.map (fun p => p.1.headD ' ') ++ blanks ++ ['"']

theorem special_class : ∀ c ∈ special, c.isDigit = false ∧ Piece.startsWord c = false := by
  have hall : special.all (fun c => !c.isDigit && !Piece.startsWord c) = true := by decide
  intro c hc
  simpa using List.all_eq_true.1 hall c hc

theorem mem_special_of_punctuator {c : Char} {w : List Char} {kind : TokenKind}
    (h : (c :: w, kind) ∈ punctuators) : c ∈ special :=
  List.mem_append_left _ (List.mem_append_left _ (List.mem_map.2 ⟨_, h, rfl⟩))

theorem single?_mem {c : Char} {kind : TokenKind} (h : Piece.single? c = some kind) :
    ([c], kind) ∈ punctuators := by
  unfold Piece.single? at h
  split at h <;> first | cases h; decide | cases h

theorem withEquals?_mem {c : Char} {alone together : TokenKind}
    (h : Piece.withEquals? c = some (alone, together)) :
    ([c], alone) ∈ punctuators ∧ ([c, '='], together) ∈ punctuators := by
  unfold Piece.withEquals? at h
  split at h <;> first | cases h; decide | cases h

theorem isLayout_iff {c : Char} : Piece.isLayout c = true ↔ c ∈ blanks := by
  simp [Piece.isLayout, blanks, or_assoc]

/-- A character that is not special begins a number or a word, or is an error. -/
theorem first_of_not_special {c : Char} (h : c ∉ special) (rest : List Char) :
    Piece.first c rest = if c.isDigit then Piece.number c rest
      else if Piece.startsWord c then Piece.word c rest
      else ⟨[c], .fault (.unexpected c)⟩ := by
  have hs : Piece.single? c = none := by
    cases hs : Piece.single? c with
    | none => rfl
    | some kind => exact absurd (mem_special_of_punctuator (single?_mem hs)) h
  have he : Piece.withEquals? c = none := by
    cases he : Piece.withEquals? c with
    | none => rfl
    | some p => exact absurd (mem_special_of_punctuator (withEquals?_mem he).1) h
  have hl : Piece.isLayout c = false := by
    cases hl : Piece.isLayout c with
    | false => rfl
    | true => exact absurd (List.mem_append_left _ (List.mem_append_right _ (isLayout_iff.1 hl))) h
  have hslash : c ≠ '/' := by rintro rfl; exact h (by decide)
  have hquote : c ≠ '"' := by rintro rfl; exact h (by decide)
  unfold Piece.first
  simp [hs, he, hl, hslash, hquote]

theorem first_of_isDigit {c : Char} (h : c.isDigit = true) (rest : List Char) :
    Piece.first c rest = Piece.number c rest := by
  rw [first_of_not_special, if_pos h]
  intro hc
  have := (special_class c hc).1
  rw [h] at this
  cases this

theorem first_of_startsWord {c : Char} (h : Piece.startsWord c = true) (rest : List Char) :
    Piece.first c rest = Piece.word c rest := by
  have hd : ¬ c.isDigit = true := by
    intro hd
    rw [startsWord_of_isDigit hd] at h
    cases h
  rw [first_of_not_special, if_neg hd, if_pos h]
  intro hc
  have := (special_class c hc).2
  rw [h] at this
  cases this

/-! ## The pieces of each class -/

theorem string_of_not_mem {rest : List Char} (h : '"' ∉ rest) :
    Piece.string rest = ⟨'"' :: rest, .fault .unterminated⟩ := by
  have : rest.dropWhile (· != '"') = [] :=
    List.dropWhile_eq_nil_iff.2 fun c hc => by
      simp only [bne_iff_ne, ne_eq]
      rintro rfl
      exact h hc
  unfold Piece.string
  rw [this]

theorem string_of_closed {body : List Char} (h : '"' ∉ body) (rest : List Char) :
    Piece.string (body ++ '"' :: rest) =
      ⟨'"' :: body ++ ['"'], .token .string (some (.string (String.ofList body)))⟩ := by
  have hbody : ∀ c ∈ body, (c != '"') = true := by
    intro c hc
    simp only [bne_iff_ne, ne_eq]
    rintro rfl
    exact h hc
  unfold Piece.string
  simp [List.takeWhile_append_of_pos hbody, List.dropWhile_append_of_pos hbody]

theorem slash_of_comment {body : List Char} (h : '\n' ∉ body) (rest : List Char) :
    Piece.slash ('/' :: body ++ rest) =
      ⟨'/' :: '/' :: body ++ rest.takeWhile (· != '\n'), .layout⟩ := by
  have hbody : ∀ c ∈ '/' :: body, (c != '\n') = true := by
    intro c hc
    simp only [bne_iff_ne, ne_eq]
    rintro rfl
    rcases List.mem_cons.1 hc with hc | hc
    · cases hc
    · exact h hc
  have htake : ('/' :: body ++ rest).takeWhile (· != '\n') =
      '/' :: body ++ rest.takeWhile (· != '\n') :=
    List.takeWhile_append_of_pos hbody
  rw [List.cons_append] at htake
  simp [Piece.slash, htake]

theorem word_of_all {rest : List Char} (c : Char) (h : ∀ d ∈ rest, Piece.continuesWord d = true)
    (later : List Char) : Piece.word c (rest ++ later) =
      ⟨c :: rest ++ later.takeWhile Piece.continuesWord,
        .token (.ofWord (String.ofList (c :: rest ++ later.takeWhile Piece.continuesWord))) none⟩ := by
  unfold Piece.word
  simp [List.takeWhile_append_of_pos h]

/-- The value of a number with the given digits. -/
def numberValue (whole fraction : List Char) : Meaning :=
  .token .number (some (.number (Number.Decimal.ofDigits whole fraction).toFloat))

/-- A number has a fraction exactly when a point and a digit follow its digits. -/
theorem number_of_all {digits : List Char} (c : Char) (h : ∀ d ∈ digits, d.isDigit = true)
    (later : List Char) (hl : ∀ d ∈ later.head?, d.isDigit = false) :
    Piece.number c (digits ++ later) =
      if Piece.fraction later = [] then ⟨c :: digits, numberValue (c :: digits) []⟩
      else ⟨c :: digits ++ '.' :: Piece.fraction later,
        numberValue (c :: digits) (Piece.fraction later)⟩ := by
  have hlater : later.takeWhile Char.isDigit = [] ∧ later.dropWhile Char.isDigit = later := by
    cases later with
    | nil => exact ⟨rfl, rfl⟩
    | cons d later =>
      have hd := hl d rfl
      exact ⟨List.takeWhile_cons_of_neg (by simp [hd]), List.dropWhile_cons_of_neg (by simp [hd])⟩
  unfold Piece.number
  simp only [List.takeWhile_append_of_pos h, List.dropWhile_append_of_pos h, hlater, List.append_nil]
  cases Piece.fraction later with
  | nil => simp [numberValue]
  | cons d fraction => simp [numberValue]

theorem first_of_single {c : Char} {kind : TokenKind} (h : Piece.single? c = some kind)
    (rest : List Char) : Piece.first c rest = ⟨[c], .token kind none⟩ := by
  unfold Piece.first
  rw [h]

theorem first_of_withEquals {c : Char} {alone together : TokenKind}
    (h : Piece.withEquals? c = some (alone, together)) (rest : List Char) :
    Piece.first c rest = Piece.equalsPair c alone together rest := by
  have hs : Piece.single? c = none := by
    unfold Piece.withEquals? at h
    split at h <;> first | rfl | cases h
  unfold Piece.first
  simp only [hs, h]

/-- The four ways of being a punctuator. -/
theorem punctuator_cases {w : List Char} {kind : TokenKind} (h : (w, kind) ∈ punctuators) :
    (∃ c, w = [c] ∧ Piece.single? c = some kind) ∨
    (∃ c together, w = [c] ∧ Piece.withEquals? c = some (kind, together)) ∨
    (∃ c alone, w = [c, '='] ∧ Piece.withEquals? c = some (alone, kind)) ∨
    (w = ['/'] ∧ kind = .slash) := by
  simp only [punctuators, List.mem_cons, List.not_mem_nil, or_false, Prod.mk.injEq] at h
  rcases h with ⟨rfl, rfl⟩ | ⟨rfl, rfl⟩ | ⟨rfl, rfl⟩ | ⟨rfl, rfl⟩ | ⟨rfl, rfl⟩ | ⟨rfl, rfl⟩ |
    ⟨rfl, rfl⟩ | ⟨rfl, rfl⟩ | ⟨rfl, rfl⟩ | ⟨rfl, rfl⟩ | ⟨rfl, rfl⟩ | ⟨rfl, rfl⟩ | ⟨rfl, rfl⟩ |
    ⟨rfl, rfl⟩ | ⟨rfl, rfl⟩ | ⟨rfl, rfl⟩ | ⟨rfl, rfl⟩ | ⟨rfl, rfl⟩ | ⟨rfl, rfl⟩
  iterate 10 exact .inl ⟨_, rfl, rfl⟩
  · exact .inr (.inr (.inr ⟨rfl, rfl⟩))
  iterate 4
    · exact .inr (.inl ⟨_, _, rfl, rfl⟩)
    · exact .inr (.inr (.inl ⟨_, _, rfl, rfl⟩))

theorem isWord_iff {w : List Char} : IsWord w ↔ ∃ c rest, w = c :: rest ∧
    Piece.startsWord c = true ∧ ∀ d ∈ rest, Piece.continuesWord d = true := by
  simp [IsWord, Piece.startsWord, Piece.continuesWord, or_assoc]

theorem keyword_isWord {w : List Char} {kind : TokenKind}
    (h : (String.ofList w, kind) ∈ TokenKind.keywords) : IsWord w := by
  have check : ∀ p ∈ TokenKind.keywords,
      (p.1.toList.head?.any Piece.startsWord && p.1.toList.tail.all Piece.continuesWord) = true := by decide
  have := check _ h
  rw [String.toList_ofList] at this
  rw [isWord_iff]
  cases w with
  | nil => simp at this
  | cons c rest =>
    simp only [List.head?_cons, Option.any_some, List.tail_cons, Bool.and_eq_true, List.all_eq_true] at this
    exact ⟨c, rest, rfl, this⟩

theorem ofWord_of_keyword {s : String} {kind : TokenKind} (h : (s, kind) ∈ TokenKind.keywords) :
    TokenKind.ofWord s = kind := by
  have check : ∀ p ∈ TokenKind.keywords, TokenKind.ofWord p.1 = p.2 := by decide
  exact check _ h

theorem ofWord_of_not_keyword {s : String} (h : s ∉ TokenKind.keywords.map Prod.fst) :
    TokenKind.ofWord s = .identifier := by
  have : TokenKind.keywords.lookup s = none := by
    rw [List.lookup_eq_none_iff]
    intro p hp
    rw [bne_iff_ne]
    rintro rfl
    exact h (List.mem_map_of_mem hp)
  simp [TokenKind.ofWord, this]

theorem fraction_point (digits : List Char) (h : ∀ d ∈ digits, d.isDigit = true) (rest : List Char) :
    Piece.fraction ('.' :: digits ++ rest) = digits ++ rest.takeWhile Char.isDigit := by
  simp [Piece.fraction, List.takeWhile_append_of_pos h]

theorem first_quote (rest : List Char) : Piece.first '"' rest = Piece.string rest := rfl

theorem first_slash (rest : List Char) : Piece.first '/' rest = Piece.slash rest := rfl

/-- What the scanner makes of a lexeme with anything behind it: a piece that begins with the lexeme
and is no fault, and the lexeme with its own meaning if nothing is added. -/
structure Begins (w : List Char) (m : Meaning) (rest : List Char) (p : Piece) : Prop where
  text : w <+: p.text
  noFault : ∀ f, p.meaning ≠ .fault f
  alone : rest = [] → p.text = w
  meaning : p.text = w → p.meaning = m

theorem begins_self (w : List Char) {m : Meaning} (h : ∀ f, m ≠ .fault f) (rest : List Char) :
    Begins w m rest ⟨w, m⟩ :=
  ⟨List.prefix_rfl, h, fun _ => rfl, fun _ => rfl⟩

theorem punctuator_begins {c : Char} {cs : List Char} {kind : TokenKind}
    (h : (c :: cs, kind) ∈ punctuators) (rest : List Char) :
    Begins (c :: cs) (.token kind none) rest (Piece.first c (cs ++ rest)) := by
  rcases punctuator_cases h with ⟨c', hw, hs⟩ | ⟨c', together, hw, he⟩ | ⟨c', alone, hw, he⟩ |
    ⟨hw, rfl⟩ <;> cases hw
  · rw [List.nil_append, first_of_single hs]
    exact begins_self _ (by simp) rest
  · rw [List.nil_append, first_of_withEquals he]
    unfold Piece.equalsPair
    split
    · exact ⟨by simp, by simp, by simp, by simp⟩
    · exact begins_self _ (by simp) rest
  · rw [first_of_withEquals he]
    exact begins_self _ (by simp) rest
  · rw [List.nil_append, first_slash]
    unfold Piece.slash
    split
    · exact ⟨by simp, by simp, by simp, by simp⟩
    · exact begins_self _ (by simp) rest

theorem word_begins {c : Char} {cs : List Char} (hc : Piece.startsWord c = true)
    (hcs : ∀ d ∈ cs, Piece.continuesWord d = true) (rest : List Char) :
    Begins (c :: cs) (.token (.ofWord (String.ofList (c :: cs))) none) rest
      (Piece.first c (cs ++ rest)) := by
  rw [first_of_startsWord hc, word_of_all c hcs]
  refine ⟨List.prefix_append .., by simp, ?_, ?_⟩
  · rintro rfl
    simp
  · intro ht
    simp only at ht ⊢
    rw [ht]

theorem head_dropWhile_isDigit (rest : List Char) :
    ∀ d ∈ (rest.dropWhile Char.isDigit).head?, d.isDigit = false := by
  intro d hd
  have := List.head?_dropWhile_not Char.isDigit rest
  rw [Option.mem_def.1 hd] at this
  simpa using this

theorem whole_begins {c : Char} {digits : List Char} (hc : c.isDigit = true)
    (hd : ∀ d ∈ digits, d.isDigit = true) (rest : List Char) :
    Begins (c :: digits) (numberValue (c :: digits) []) rest (Piece.first c (digits ++ rest)) := by
  have hmore : ∀ d ∈ digits ++ rest.takeWhile Char.isDigit, d.isDigit = true := by
    intro d hd'
    rcases List.mem_append.1 hd' with hd' | hd'
    · exact hd d hd'
    · exact List.mem_takeWhile_imp hd'
  have hnumber := number_of_all c hmore _ (head_dropWhile_isDigit rest)
  rw [List.append_assoc, List.takeWhile_append_dropWhile] at hnumber
  rw [first_of_isDigit hc, hnumber]
  split
  · refine ⟨by simp, by simp [numberValue], ?_, ?_⟩
    · rintro rfl
      simp
    · intro ht
      simp only at ht ⊢
      rw [ht]
  · -- a fraction follows, so the piece is longer than the digits
    rename_i hf
    refine ⟨by simp, by simp [numberValue], ?_, ?_⟩
    · rintro rfl
      exact absurd rfl hf
    · intro ht
      simp at ht

theorem decimal_begins {c : Char} {digits fraction : List Char} (hc : c.isDigit = true)
    (hd : ∀ d ∈ digits, d.isDigit = true) (hf : IsNumeral fraction) (rest : List Char) :
    Begins (c :: digits ++ '.' :: fraction) (numberValue (c :: digits) fraction) rest
      (Piece.first c (digits ++ '.' :: fraction ++ rest)) := by
  have hnumber := number_of_all c hd ('.' :: fraction ++ rest) (by simp)
  rw [fraction_point fraction hf.2, if_neg (by simp [hf.1])] at hnumber
  rw [first_of_isDigit hc, List.append_assoc, hnumber]
  refine ⟨by simp, by simp [numberValue], ?_, ?_⟩
  · rintro rfl
    simp
  · intro ht
    simp only [List.append_cancel_left_eq, List.cons.injEq, true_and] at ht
    simp only
    rw [ht]

/-- The scanner begins with every lexeme that the source begins with, or goes on with it. -/
theorem Lexeme.begins {w : List Char} {m : Meaning} (h : Lexeme w m) :
    ∃ c cs, w = c :: cs ∧ ∀ rest, Begins w m rest (Piece.first c (cs ++ rest)) := by
  cases h with
  | @punctuator w kind h =>
    cases w with
    | nil => simp [punctuators] at h
    | cons c cs => exact ⟨c, cs, rfl, punctuator_begins h⟩
  | @string body h =>
    refine ⟨'"', body ++ ['"'], rfl, fun rest => ?_⟩
    rw [List.append_assoc, first_quote]
    have := string_of_closed h rest
    simp only [List.singleton_append]
    rw [this]
    exact begins_self _ (by simp) rest
  | @whole digits h =>
    obtain ⟨hne, hd⟩ := h
    obtain ⟨c, cs, rfl⟩ := List.exists_cons_of_ne_nil hne
    exact ⟨c, cs, rfl, whole_begins (hd c (by simp)) (fun d hd' => hd d (by simp [hd']))⟩
  | @decimal whole fraction hw hf =>
    obtain ⟨hne, hd⟩ := hw
    obtain ⟨c, cs, rfl⟩ := List.exists_cons_of_ne_nil hne
    exact ⟨c, cs ++ '.' :: fraction, rfl,
      decimal_begins (hd c (by simp)) (fun d hd' => hd d (by simp [hd'])) hf⟩
  | keyword h =>
    obtain ⟨c, cs, rfl, hc, hcs⟩ := isWord_iff.1 (keyword_isWord h)
    have := word_begins hc hcs
    rw [ofWord_of_keyword h] at this
    exact ⟨c, cs, rfl, this⟩
  | identifier hw hk =>
    obtain ⟨c, cs, rfl, hc, hcs⟩ := isWord_iff.1 hw
    have := word_begins hc hcs
    rw [ofWord_of_not_keyword hk] at this
    exact ⟨c, cs, rfl, this⟩
  | @blank c h =>
    refine ⟨c, [], rfl, fun rest => ?_⟩
    simp only [blanks, List.mem_cons, List.not_mem_nil, or_false] at h
    rcases h with rfl | rfl | rfl | rfl <;> exact begins_self _ (by simp) rest
  | @comment body h =>
    refine ⟨'/', '/' :: body, rfl, fun rest => ?_⟩
    rw [first_slash, slash_of_comment h]
    refine ⟨by simp, by simp, ?_, by simp⟩
    rintro rfl
    simp

/-- The three outcomes at the head of a source: a lexeme, an unclosed string or a stray character. -/
inductive Headed (c : Char) (rest : List Char) (p : Piece) : Prop
  | lexeme : Lexeme p.text p.meaning → p.text <+: c :: rest → Headed c rest p
  | unterminated : c = '"' → p = ⟨'"' :: rest, .fault .unterminated⟩ → Headed c rest p
  | unexpected : c ≠ '"' → p = ⟨[c], .fault (.unexpected c)⟩ → Headed c rest p

theorem punctuator_headed {c : Char} {kind : TokenKind} (h : ([c], kind) ∈ punctuators)
    (rest : List Char) : Headed c rest ⟨[c], .token kind none⟩ :=
  .lexeme (.punctuator h) (by simp)

theorem slash_headed (rest : List Char) : Headed '/' rest (Piece.slash rest) := by
  unfold Piece.slash
  split
  · rename_i later
    have hbody : '\n' ∉ later.takeWhile (· != '\n') := fun h => by
      simpa using List.mem_takeWhile_imp h
    refine .lexeme ?_ ?_
    · simpa using Lexeme.comment hbody
    · simpa using List.takeWhile_prefix _
  · exact punctuator_headed (by decide) rest

theorem string_headed (rest : List Char) : Headed '"' rest (Piece.string rest) := by
  by_cases h : '"' ∈ rest
  · obtain ⟨body, later, rfl, hbody⟩ := List.eq_append_cons_of_mem h
    rw [string_of_closed hbody]
    exact .lexeme (.string hbody) (by simp)
  · exact .unterminated rfl (string_of_not_mem h)

theorem fraction_ne_nil {rest : List Char} (h : Piece.fraction rest ≠ []) :
    ∃ later, rest = '.' :: later ∧ Piece.fraction rest = later.takeWhile Char.isDigit := by
  unfold Piece.fraction at h ⊢
  split at h
  · exact ⟨_, rfl, rfl⟩
  · exact absurd rfl h

theorem isNumeral_cons_takeWhile {c : Char} (hc : c.isDigit = true) (rest : List Char) :
    IsNumeral (c :: rest.takeWhile Char.isDigit) := by
  refine ⟨by simp, fun d hd => ?_⟩
  rcases List.mem_cons.1 hd with rfl | hd
  · exact hc
  · exact List.mem_takeWhile_imp hd

theorem number_headed {c : Char} (hc : c.isDigit = true) (rest : List Char) :
    Headed c rest (Piece.number c rest) := by
  have hd : ∀ d ∈ rest.takeWhile Char.isDigit, d.isDigit = true := fun d h => List.mem_takeWhile_imp h
  have hnumeral := isNumeral_cons_takeWhile hc rest
  have hnumber := number_of_all c hd _ (head_dropWhile_isDigit rest)
  rw [List.takeWhile_append_dropWhile] at hnumber
  have hsplit := List.takeWhile_append_dropWhile (p := Char.isDigit) (l := rest)
  rw [hnumber]
  split
  · exact .lexeme (.whole hnumeral) (by simpa using List.takeWhile_prefix _)
  · rename_i hf
    obtain ⟨later, hl, hfraction⟩ := fraction_ne_nil hf
    have hfd : ∀ d ∈ Piece.fraction (rest.dropWhile Char.isDigit), d.isDigit = true := by
      rw [hfraction]
      exact fun d h => List.mem_takeWhile_imp h
    refine .lexeme (.decimal hnumeral ⟨hf, hfd⟩) ?_
    rw [hfraction]
    nth_rewrite 3 [← hsplit]
    rw [hl]
    simpa using List.takeWhile_prefix _

theorem word_headed {c : Char} (hc : Piece.startsWord c = true) (rest : List Char) :
    Headed c rest (Piece.word c rest) := by
  have hword : IsWord (c :: rest.takeWhile Piece.continuesWord) :=
    isWord_iff.2 ⟨c, _, rfl, hc, fun d h => List.mem_takeWhile_imp h⟩
  refine .lexeme ?_ (by simpa [Piece.word] using List.takeWhile_prefix _)
  unfold Piece.word
  simp only
  by_cases hk : String.ofList (c :: rest.takeWhile Piece.continuesWord) ∈ TokenKind.keywords.map Prod.fst
  · obtain ⟨⟨s, kind⟩, hmem, hs⟩ := List.mem_map.1 hk
    simp only at hs
    subst hs
    rw [ofWord_of_keyword hmem]
    exact .keyword hmem
  · rw [ofWord_of_not_keyword hk]
    exact .identifier hword hk

theorem first_headed (c : Char) (rest : List Char) : Headed c rest (Piece.first c rest) := by
  unfold Piece.first
  split
  · rename_i kind hs
    exact punctuator_headed (single?_mem hs) rest
  split
  · rename_i alone together he
    obtain ⟨ha, ht⟩ := withEquals?_mem he
    unfold Piece.equalsPair
    split
    · exact .lexeme (.punctuator ht) (by simp)
    · exact punctuator_headed ha rest
  split_ifs with hl hs hq hd hw
  · exact .lexeme (.blank (isLayout_iff.1 hl)) (by simp)
  · subst hs
    exact slash_headed rest
  · subst hq
    exact string_headed rest
  · exact number_headed hd rest
  · exact word_headed hw rest
  · exact .unexpected hq rfl

/-- A fault is found only where no prefix of the source is a lexeme. -/
theorem first_fault {c : Char} {rest w : List Char} {m : Meaning} {f : LexicalFault}
    (hf : (Piece.first c rest).meaning = .fault f) (hw : w <+: c :: rest) : ¬ Lexeme w m := by
  intro h
  obtain ⟨c', cs, rfl, hb⟩ := h.begins
  obtain ⟨later, hl⟩ := hw
  cases hl
  exact (hb later).noFault f hf

/-- No prefix of the source that is a lexeme is longer than the first piece. -/
theorem length_le_first {c : Char} {rest w : List Char} {m : Meaning} (hw : w <+: c :: rest)
    (h : Lexeme w m) : w.length ≤ (Piece.first c rest).text.length := by
  obtain ⟨c', cs, rfl, hb⟩ := h.begins
  obtain ⟨later, hl⟩ := hw
  cases hl
  exact (hb later).text.length_le

/-- A lexeme has one meaning. -/
theorem Lexeme.meaning_unique {w : List Char} {m m' : Meaning} (h : Lexeme w m) (h' : Lexeme w m') :
    m = m' := by
  obtain ⟨c, cs, rfl, hb⟩ := h.begins
  obtain ⟨c', cs', hcs, hb'⟩ := h'.begins
  cases hcs
  have ht := (hb []).alone rfl
  rw [← (hb []).meaning ht, (hb' []).meaning ht]

theorem Lexeme.ne_nil {w : List Char} {m : Meaning} (h : Lexeme w m) : w ≠ [] := by
  obtain ⟨c, cs, rfl, -⟩ := h.begins
  simp

/-! ## The pieces of a source -/

theorem upTo_nil (n : Nat) : Piece.upTo n [] = [] := by
  cases n <;> rfl

/-- A lexeme alone is one piece. -/
theorem Lexeme.all_eq {w : List Char} {m : Meaning} (h : Lexeme w m) : Piece.all w = [⟨w, m⟩] := by
  obtain ⟨c, cs, rfl, hb⟩ := h.begins
  have hfirst : Piece.first c cs = ⟨c :: cs, m⟩ := by
    have hbegins := hb []
    rw [List.append_nil] at hbegins
    generalize Piece.first c cs = p at hbegins ⊢
    obtain ⟨text, meaning⟩ := p
    obtain rfl : text = c :: cs := hbegins.alone rfl
    obtain rfl : meaning = m := hbegins.meaning rfl
    rfl
  have hall : Piece.all (c :: cs) = Piece.first c cs ::
      Piece.upTo cs.length (cs.drop ((Piece.first c cs).text.length - 1)) := rfl
  rw [hall, hfirst, List.length_cons, Nat.add_sub_cancel, List.drop_length, upTo_nil]

theorem all_minus (rest : List Char) :
    Piece.all ('-' :: rest) = ⟨['-'], .token .minus none⟩ :: Piece.all rest := rfl

theorem exists_first_of_mem {p : Piece} : ∀ {n : Nat} {source : List Char}, p ∈ Piece.upTo n source →
    ∃ c rest, p = Piece.first c rest
  | 0, _, h => by simp [Piece.upTo] at h
  | _ + 1, [], h => by simp [Piece.upTo] at h
  | n + 1, c :: rest, h => by
    rcases List.mem_cons.1 h with rfl | h
    · exact ⟨c, rest, rfl⟩
    · exact exists_first_of_mem h

/-- Every piece that is a token is a lexeme. -/
theorem lexeme_of_mem_all {p : Piece} {source : List Char} {kind : TokenKind} {literal : Option Value}
    (h : p ∈ Piece.all source) (hp : p.meaning = .token kind literal) :
    Lexeme p.text (.token kind literal) := by
  obtain ⟨c, rest, rfl⟩ := exists_first_of_mem h
  cases first_headed c rest with
  | lexeme hlex => exact hp ▸ hlex
  | unterminated _ heq => simp [heq] at hp
  | unexpected _ heq => simp [heq] at hp

/-- A token with a literal comes from a piece, whose text is its own. -/
theorem exists_piece_of_mem_tokens {t : Token} {v : Value} (hv : t.literal = some v) :
    ∀ {pieces : List Piece} {line : Int}, t ∈ (Scan.ofPieces line pieces).tokens →
      ∃ p ∈ pieces, p.meaning = .token t.kind (some v) ∧ p.text = t.lexeme.toList
  | [], _, h => by
    obtain rfl := List.mem_singleton.1 h
    cases hv
  | p :: pieces, line, h => by
    have hlater : t ∈ (Scan.ofPieces (line + p.lineEnds) pieces).tokens →
        ∃ q ∈ p :: pieces, q.meaning = .token t.kind (some v) ∧ q.text = t.lexeme.toList := by
      intro ht
      obtain ⟨q, hq, hm⟩ := exists_piece_of_mem_tokens hv ht
      exact ⟨q, List.mem_cons_of_mem _ hq, hm⟩
    unfold Scan.ofPieces at h
    split at h
    · exact hlater h
    · rename_i kind literal hm
      rcases List.mem_cons.1 h with rfl | h
      · exact ⟨p, List.mem_cons_self, by rw [hm]; exact congrArg _ hv, String.toList_ofList.symm⟩
      · exact hlater h
    · exact hlater h

/-- The literal of a scanned token is that of its text as a lexeme. -/
theorem lexeme_of_mem_scan {source : List Char} {t : Token} {v : Value} (h : t ∈ (scan source).tokens)
    (hv : t.literal = some v) : Lexeme t.lexeme.toList (.token t.kind (some v)) := by
  obtain ⟨p, hp, hm, htext⟩ := exists_piece_of_mem_tokens hv h
  rw [← htext]
  exact lexeme_of_mem_all hp hm

/-! ## Runes -/

theorem charOfInt_eq_iff {r : Int} {c : Char} (hc : c ≠ Text.replacement) :
    Text.charOfInt r = c ↔ r = c.toNat := by
  unfold Text.charOfInt
  constructor
  · intro h
    split_ifs at h with h1 h2
    · exact absurd h.symm hc
    · have : c.toNat = r.toNat := by
        rw [← h]
        unfold Char.ofNat
        rw [dif_pos h2]
        rfl
      omega
    · exact absurd h.symm hc
  · rintro rfl
    have hv : (c.toNat : Int).toNat.isValidChar := c.valid
    rw [if_neg (by omega), if_pos hv]
    simp

@[simp] theorem shown_length (runes : List Int) : (shown runes).length = runes.length :=
  List.length_map ..

theorem shown_isPrefix {w runes : List Int} (h : w <+: runes) : shown w <+: shown runes :=
  h.map _

/-- The piece that a cut is shown as. -/
def Cut.piece (c : Cut) : Piece :=
  ⟨shown c.runes, c.meaning⟩

theorem Cut.text_piece (c : Cut) : c.piece.text = shown c.runes := rfl

/-- The scanner's pieces are the longest matches. -/
theorem longestMatch_upTo : ∀ (n : Nat) (runes : List Int), runes.length ≤ n →
    ∃ cuts, LongestMatch runes cuts ∧ cuts.map Cut.piece = Piece.upTo n (shown runes)
  | n, [], _ => ⟨[], .done, (upTo_nil n).symm⟩
  | 0, _ :: _, h => by simp at h
  | n + 1, r :: runes, h => by
    have hupTo : Piece.upTo (n + 1) (shown (r :: runes)) =
        Piece.first (Text.charOfInt r) (shown runes) :: Piece.upTo n ((shown runes).drop
          ((Piece.first (Text.charOfInt r) (shown runes)).text.length - 1)) := rfl
    have hlonger : NoLongerLexeme (Piece.first (Text.charOfInt r) (shown runes)).text.length
        (r :: runes) := by
      intro w hw m hm
      rw [← shown_length w]
      exact length_le_first (shown_isPrefix hw) hm
    have hnone : ∀ f, (Piece.first (Text.charOfInt r) (shown runes)).meaning = .fault f →
        NoLexeme (r :: runes) :=
      fun f hf w hw m => first_fault hf (shown_isPrefix hw)
    rw [hupTo]
    have hheaded := first_headed (Text.charOfInt r) (shown runes)
    generalize Piece.first (Text.charOfInt r) (shown runes) = p at *
    cases hheaded with
    | lexeme hlex hcut =>
      -- the piece is what the first runes are shown as
      change p.text <+: (r :: runes).map Text.charOfInt at hcut
      obtain ⟨w, ⟨rest, hsplit⟩, htext⟩ := List.prefix_map_iff.1 hcut
      obtain ⟨text, meaning⟩ := p
      subst htext
      cases w with
      | nil => exact absurd rfl hlex.ne_nil
      | cons r' w =>
        rw [List.cons_append, List.cons.injEq] at hsplit
        obtain ⟨rfl, rfl⟩ := hsplit
        obtain ⟨cuts, hcuts, hpieces⟩ := longestMatch_upTo n rest
          (by simp only [List.length_cons, List.length_append] at h; omega)
        refine ⟨⟨r' :: w, meaning⟩ :: cuts, .lexeme hlex (by simpa using hlonger) hcuts, ?_⟩
        simp [Cut.piece, hpieces, shown]
    | unterminated hc hp =>
      subst hp
      obtain rfl : r = quote := (charOfInt_eq_iff (by decide)).1 hc
      refine ⟨[⟨quote :: runes, .fault .unterminated⟩], .unterminated (hnone _ rfl), ?_⟩
      have : (shown runes).drop (('"' :: shown runes).length - 1) = [] := by simp
      rw [this, upTo_nil]
      rfl
    | unexpected hc hp =>
      subst hp
      have hr : r ≠ quote := by
        rintro rfl
        exact hc rfl
      obtain ⟨cuts, hcuts, hpieces⟩ := longestMatch_upTo n runes (by simpa using h)
      exact ⟨_, .unexpected hr (hnone _ rfl) hcuts, by rw [List.map_cons, hpieces]; rfl⟩

/-- The four shapes of a longest match, with its runes as a variable. -/
theorem LongestMatch.shapes {runes : List Int} {cuts : List Cut} (h : LongestMatch runes cuts) :
    (runes = [] ∧ cuts = []) ∨
    (∃ w rest m cuts', runes = w ++ rest ∧ cuts = ⟨w, m⟩ :: cuts' ∧ Lexeme (shown w) m ∧
      NoLongerLexeme w.length runes ∧ LongestMatch rest cuts') ∨
    (NoLexeme runes ∧ ∃ rest, runes = quote :: rest ∧ cuts = [⟨runes, .fault .unterminated⟩]) ∨
    (NoLexeme runes ∧ ∃ r rest cuts', runes = r :: rest ∧ r ≠ quote ∧
      cuts = ⟨[r], .fault (.unexpected (Text.charOfInt r))⟩ :: cuts' ∧ LongestMatch rest cuts') := by
  cases h with
  | done => exact .inl ⟨rfl, rfl⟩
  | lexeme hl hn hc => exact .inr (.inl ⟨_, _, _, _, rfl, rfl, hl, hn, hc⟩)
  | unterminated hn => exact .inr (.inr (.inl ⟨hn, _, rfl, rfl⟩))
  | unexpected hr hn hc => exact .inr (.inr (.inr ⟨hn, _, _, _, rfl, hr, rfl, hc⟩))

theorem shown_ne_nil {w : List Int} {m : Meaning} (h : Lexeme (shown w) m) : w ≠ [] := by
  rintro rfl
  exact h.ne_nil rfl

/-- The runes determine their longest matches. -/
theorem LongestMatch.unique {runes : List Int} {cuts cuts' : List Cut}
    (h : LongestMatch runes cuts) (h' : LongestMatch runes cuts') : cuts' = cuts := by
  induction h generalizing cuts' with
  | done =>
    rcases h'.shapes with ⟨-, h⟩ | ⟨w, rest, m, cuts, hr, -, hl, -⟩ | ⟨-, rest, hr, -⟩ |
      ⟨-, r, rest, cuts, hr, -⟩
    · exact h
    · exact absurd (List.append_eq_nil_iff.1 hr.symm).1 (shown_ne_nil hl)
    · cases hr
    · cases hr
  | @lexeme w rest m cuts hl hlonger _ ih =>
    rcases h'.shapes with ⟨hr, -⟩ | ⟨w', rest', m', cuts'', hr, rfl, hl', hlonger', hc⟩ |
      ⟨hnone, -⟩ | ⟨hnone, -⟩
    · exact absurd (List.append_eq_nil_iff.1 hr).1 (shown_ne_nil hl)
    · -- neither lexeme is longer than the other
      have h1 := hlonger w' (hr ▸ List.prefix_append ..) m' hl'
      have h2 := hlonger' w (List.prefix_append ..) m hl
      obtain ⟨rfl, rfl⟩ := List.append_inj hr (by omega)
      rw [hl.meaning_unique hl', ih hc]
    · exact absurd hl (hnone w (List.prefix_append ..) m)
    · exact absurd hl (hnone w (List.prefix_append ..) m)
  | @unterminated rest hnone =>
    rcases h'.shapes with ⟨hr, -⟩ | ⟨w', rest', m', cuts'', hr, rfl, hl', -⟩ | ⟨-, rest', hr, rfl⟩ |
      ⟨-, r, rest', cuts'', hr, hquote, -⟩
    · cases hr
    · exact absurd hl' (hnone w' (hr ▸ List.prefix_append ..) m')
    · rfl
    · cases hr
      exact absurd rfl hquote
  | @unexpected r rest cuts hquote hnone _ ih =>
    rcases h'.shapes with ⟨hr, -⟩ | ⟨w', rest', m', cuts'', hr, rfl, hl', -⟩ | ⟨-, rest', hr, -⟩ |
      ⟨-, r', rest', cuts'', hr, -, rfl, hc⟩
    · cases hr
    · exact absurd hl' (hnone w' (hr ▸ List.prefix_append ..) m')
    · cases hr
      exact absurd rfl hquote
    · cases hr
      rw [ih hc]

theorem LongestMatch.flatMap_runes {runes : List Int} {cuts : List Cut} (h : LongestMatch runes cuts) :
    cuts.flatMap Cut.runes = runes := by
  induction h with
  | done => rfl
  | lexeme _ _ _ ih => rw [List.flatMap_cons, ih]
  | unterminated _ => simp
  | unexpected _ _ _ ih => rw [List.flatMap_cons, ih]; rfl

/-! ## Tokens and errors -/

theorem count_shown (runes : List Int) : (shown runes).count '\n' = runes.count 10 := by
  rw [shown, List.count_eq_countP, List.count_eq_countP, List.countP_map]
  congr 1
  funext r
  -- no other rune is shown as the end of a line
  simp only [Function.comp_apply, beq_eq_beq]
  rw [charOfInt_eq_iff (by decide)]
  rfl

theorem lineAfter_append (before : List Int) (c : Cut) :
    lineAfter (before ++ c.runes) = lineAfter before + c.piece.lineEnds := by
  unfold lineAfter Piece.lineEnds
  rw [Cut.text_piece, count_shown, List.count_append]
  omega

/-- The scanner reads the tokens and errors off the cuts. -/
theorem ofPieces_eq : ∀ (cuts : List Cut) (before : List Int),
    (Scan.ofPieces (lineAfter before) (cuts.map Cut.piece)).tokens = tokensFrom before cuts ∧
    (Scan.ofPieces (lineAfter before) (cuts.map Cut.piece)).errors.map
      (fun e => (e.line, e.fault.message)) = errorsFrom before cuts
  | [], before => ⟨rfl, rfl⟩
  | c :: cuts, before => by
    obtain ⟨htokens, herrors⟩ := ofPieces_eq cuts (before ++ c.runes)
    rw [lineAfter_append] at htokens herrors
    obtain ⟨runes, meaning⟩ := c
    cases meaning with
    | layout => exact ⟨htokens, herrors⟩
    | token kind literal => exact ⟨congrArg (_ :: ·) htokens, herrors⟩
    | fault f => cases f <;> exact ⟨htokens, congrArg (_ :: ·) herrors⟩

end Lexicon

open Lexicon

/-- The scanner returns exactly the tokens and errors of the longest matches of the lexical grammar:
every sequence of runes has exactly one sequence of cuts, which follow one another without gaps, and
the tokens, their order, texts, kinds, literals and lines are those of the cuts, as are the errors. -/
theorem scan_eq_longestMatch (runes : List Int) : ∃ cuts,
    LongestMatch runes cuts ∧ (∀ cuts', LongestMatch runes cuts' → cuts' = cuts) ∧
    cuts.flatMap Cut.runes = runes ∧
    (scan (shown runes)).tokens = tokensFrom [] cuts ∧
    (scan (shown runes)).errors.map (fun e => (e.line, e.fault.message)) = errorsFrom [] cuts := by
  obtain ⟨cuts, hcuts, hpieces⟩ := longestMatch_upTo runes.length runes (Nat.le_refl _)
  obtain ⟨htokens, herrors⟩ := ofPieces_eq cuts []
  have hall : Piece.all (shown runes) = cuts.map Cut.piece := by
    rw [hpieces, Piece.all, shown_length]
  refine ⟨cuts, hcuts, fun cuts' h' => hcuts.unique h', hcuts.flatMap_runes, ?_, ?_⟩
  · rw [← htokens, scan, hall]
    rfl
  · rw [← herrors, scan, hall]
    rfl

end Reckoner
