/-
Layout never changes meaning. A source that is scanned without errors can be written anew, with its
lexemes in order and with any blanks, line ends and comments before, between and behind them: the new
text is scanned to the same tokens up to their lines. No stage looks at a line, so that runs on the two
differ in nothing but the lines of their tokens and errors.
-/
import Reckoner.Proofs.Correspondence

namespace Reckoner

namespace Lexicon

/-! ## Layout -/

/-- Layout: blanks, line ends, and comments that are closed by line ends. -/
inductive Spacing : List Char → Prop
  | nil : Spacing []
  | blank {c w} : c ∈ blanks → Spacing w → Spacing (c :: w)
  | comment {body w} : '\n' ∉ body → Spacing w → Spacing ('/' :: '/' :: body ++ '\n' :: w)

/-- A text that is empty or begins with a blank or a line end. -/
def Detached (text : List Char) : Prop :=
  ∀ c ∈ text.head?, c ∈ blanks

/-- The text `w₀ l₁ w₁ l₂ … lₙ wₙ`, in which the lexemes `l₁, …, lₙ` stand in order with layout before,
between and behind them. Between two lexemes there is some layout, and behind a lexeme it begins with a
blank or a line end. -/
def LaidOut (lexemes : List (List Char)) (text : List Char) : Prop :=
  ∃ (start : List Char) (gaps : List (List Char)), gaps.length = lexemes.length ∧
    text = start ++ (List.zipWith (· ++ ·) lexemes gaps).flatten ∧ Spacing start ∧
    (∀ w ∈ gaps, Spacing w ∧ Detached w) ∧ ∀ w ∈ gaps.dropLast, w ≠ []

/-! ## Pieces -/

/-- As many rounds as characters are enough. -/
theorem upTo_eq_upTo : ∀ (n m : Nat) (source : List Char), source.length ≤ n → source.length ≤ m →
    Piece.upTo n source = Piece.upTo m source
  | n, m, [], _, _ => by rw [upTo_nil, upTo_nil]
  | 0, _, _ :: _, h, _ => by simp at h
  | _, 0, _ :: _, _, h => by simp at h
  | n + 1, m + 1, c :: rest, hn, hm => by
    simp only [Piece.upTo]
    -- a piece takes at least one character, so that a round is left for each of the others
    rw [upTo_eq_upTo n m]
    · simp only [List.length_cons, List.length_drop] at hn ⊢
      omega
    · simp only [List.length_cons, List.length_drop] at hm ⊢
      omega

/-- A source whose first piece is known goes on with the pieces of what is left. -/
theorem all_of_first {c : Char} {cs rest : List Char} {m : Meaning}
    (h : Piece.first c (cs ++ rest) = ⟨c :: cs, m⟩) :
    Piece.all (c :: cs ++ rest) = ⟨c :: cs, m⟩ :: Piece.all rest := by
  have hall : Piece.all (c :: cs ++ rest) = Piece.first c (cs ++ rest) ::
      Piece.upTo (cs ++ rest).length ((cs ++ rest).drop ((Piece.first c (cs ++ rest)).text.length - 1)) := rfl
  rw [hall, h, List.length_cons, Nat.add_sub_cancel, List.drop_left]
  exact congrArg _ (upTo_eq_upTo _ _ _ (by simp) (Nat.le_refl _))

theorem blank_class {c : Char} (h : c ∈ blanks) : c.isDigit = false ∧ Piece.continuesWord c = false := by
  obtain ⟨hdigit, hword⟩ := special_class c (List.mem_append_left _ (List.mem_append_right _ h))
  exact ⟨hdigit, by simp [Piece.continuesWord, hdigit, hword]⟩

theorem Detached.takeWhile {p : Char → Bool} {rest : List Char} (h : Detached rest)
    (hp : ∀ c ∈ blanks, p c = false) : rest.takeWhile p = [] := by
  cases rest with
  | nil => rfl
  | cons c rest => exact List.takeWhile_cons_of_neg (by simp [hp c (h c rfl)])

theorem Detached.ne_cons {c : Char} {rest later : List Char} (h : Detached rest) (hc : c ∉ blanks) :
    rest ≠ c :: later := by
  rintro rfl
  exact hc (h c rfl)

theorem Detached.fraction {rest : List Char} (h : Detached rest) : Piece.fraction rest = [] := by
  unfold Piece.fraction
  split
  · exact absurd rfl (h.ne_cons (by decide))
  · rfl

theorem punctuator_detached {c : Char} {cs rest : List Char} {kind : TokenKind}
    (h : (c :: cs, kind) ∈ punctuators) (hrest : Detached rest) :
    Piece.first c (cs ++ rest) = ⟨c :: cs, .token kind none⟩ := by
  rcases punctuator_cases h with ⟨c', hw, hs⟩ | ⟨c', together, hw, he⟩ | ⟨c', alone, hw, he⟩ |
    ⟨hw, rfl⟩ <;> cases hw
  · rw [first_of_single hs]
  -- an equals sign or a second slash would be taken as well, but neither is a blank
  · rw [List.nil_append, first_of_withEquals he]
    unfold Piece.equalsPair
    split
    · exact absurd rfl (hrest.ne_cons (by decide))
    · rfl
  · rw [first_of_withEquals he]
    rfl
  · rw [List.nil_append, first_slash]
    unfold Piece.slash
    split
    · exact absurd rfl (hrest.ne_cons (by decide))
    · rfl

theorem word_detached {c : Char} {cs rest : List Char} (hc : Piece.startsWord c = true)
    (hcs : ∀ d ∈ cs, Piece.continuesWord d = true) (hrest : Detached rest) :
    Piece.first c (cs ++ rest) = ⟨c :: cs, .token (.ofWord (String.ofList (c :: cs))) none⟩ := by
  rw [first_of_startsWord hc, word_of_all c hcs, hrest.takeWhile fun d hd => (blank_class hd).2]
  simp

theorem number_detached {c : Char} {digits rest : List Char} (hc : c.isDigit = true)
    (hd : ∀ d ∈ digits, d.isDigit = true) (hrest : Detached rest) :
    Piece.first c (digits ++ rest) = ⟨c :: digits, numberValue (c :: digits) []⟩ := by
  rw [first_of_isDigit hc, number_of_all c hd rest fun d hd => (blank_class (hrest d hd)).1,
    if_pos hrest.fraction]

theorem decimal_detached {c : Char} {digits fraction rest : List Char} (hc : c.isDigit = true)
    (hd : ∀ d ∈ digits, d.isDigit = true) (hf : IsNumeral fraction) (hrest : Detached rest) :
    Piece.first c (digits ++ '.' :: fraction ++ rest) =
      ⟨c :: digits ++ '.' :: fraction, numberValue (c :: digits) fraction⟩ := by
  have hfraction : Piece.fraction ('.' :: fraction ++ rest) = fraction := by
    rw [fraction_point fraction hf.2, hrest.takeWhile fun d hd => (blank_class hd).1, List.append_nil]
  rw [first_of_isDigit hc, List.append_assoc, number_of_all c hd _ (by simp), hfraction,
    if_neg hf.1]

/-- A lexeme that is a token is one piece wherever a blank, a line end or nothing is behind it. -/
theorem Lexeme.first_of_detached {w rest : List Char} {m : Meaning} (h : Lexeme w m) (hm : m ≠ .layout)
    (hrest : Detached rest) : ∃ c cs, w = c :: cs ∧ Piece.first c (cs ++ rest) = ⟨w, m⟩ := by
  cases h with
  | @punctuator w kind h =>
    cases w with
    | nil => simp [punctuators] at h
    | cons c cs => exact ⟨c, cs, rfl, punctuator_detached h hrest⟩
  | @string body h =>
    refine ⟨'"', body ++ ['"'], rfl, ?_⟩
    rw [List.append_assoc, first_quote]
    exact string_of_closed h rest
  | @whole digits h =>
    obtain ⟨hne, hd⟩ := h
    obtain ⟨c, cs, rfl⟩ := List.exists_cons_of_ne_nil hne
    exact ⟨c, cs, rfl, number_detached (hd c (by simp)) (fun d hd' => hd d (by simp [hd'])) hrest⟩
  | @decimal whole fraction hw hf =>
    obtain ⟨hne, hd⟩ := hw
    obtain ⟨c, cs, rfl⟩ := List.exists_cons_of_ne_nil hne
    exact ⟨c, cs ++ '.' :: fraction, rfl,
      decimal_detached (hd c (by simp)) (fun d hd' => hd d (by simp [hd'])) hf hrest⟩
  | keyword h =>
    obtain ⟨c, cs, rfl, hc, hcs⟩ := isWord_iff.1 (keyword_isWord h)
    exact ⟨c, cs, rfl, ofWord_of_keyword h ▸ word_detached hc hcs hrest⟩
  | identifier hw hk =>
    obtain ⟨c, cs, rfl, hc, hcs⟩ := isWord_iff.1 hw
    exact ⟨c, cs, rfl, ofWord_of_not_keyword hk ▸ word_detached hc hcs hrest⟩
  | blank | comment => exact absurd rfl hm

theorem Lexeme.all_of_detached {w rest : List Char} {m : Meaning} (h : Lexeme w m) (hm : m ≠ .layout)
    (hrest : Detached rest) : Piece.all (w ++ rest) = ⟨w, m⟩ :: Piece.all rest := by
  obtain ⟨c, cs, rfl, hfirst⟩ := h.first_of_detached hm hrest
  exact all_of_first hfirst

theorem all_blank {c : Char} (h : c ∈ blanks) (rest : List Char) :
    Piece.all (c :: rest) = ⟨[c], .layout⟩ :: Piece.all rest := by
  simp only [blanks, List.mem_cons, List.not_mem_nil, or_false] at h
  rcases h with rfl | rfl | rfl | rfl <;> rfl

theorem all_comment {body : List Char} (h : '\n' ∉ body) (rest : List Char) :
    Piece.all ('/' :: '/' :: body ++ '\n' :: rest) =
      ⟨'/' :: '/' :: body, .layout⟩ :: Piece.all ('\n' :: rest) := by
  have hfirst : Piece.first '/' ('/' :: body ++ '\n' :: rest) = ⟨'/' :: '/' :: body, .layout⟩ := by
    rw [first_slash, slash_of_comment h]
    simp
  exact all_of_first hfirst

/-- Layout is scanned to nothing. It moves what follows to a later line at most. -/
theorem ofPieces_spacing {w : List Char} (h : Spacing w) (rest : List Char) : ∀ line : Int, ∃ line',
    Scan.ofPieces line (Piece.all (w ++ rest)) = Scan.ofPieces line' (Piece.all rest) := by
  induction h with
  | nil => exact fun line => ⟨line, rfl⟩
  | blank hc _ ih =>
    intro line
    rw [List.cons_append, all_blank hc]
    exact ih _
  | @comment body w hbody _ ih =>
    intro line
    have htext : '/' :: '/' :: body ++ '\n' :: w ++ rest = '/' :: '/' :: body ++ '\n' :: (w ++ rest) := by
      simp
    rw [htext, all_comment hbody, all_blank (by decide)]
    exact ih _

end Lexicon

open Lexicon

/-! ## Scanned lexemes -/

/-- The text of a token with its kind and its literal is a lexeme of the grammar. -/
def Token.IsLexeme (t : Token) : Prop :=
  Lexeme t.lexeme.toList (.token t.kind t.literal)

theorem isLexeme_of_pieces : ∀ {pieces : List Piece} {line : Int} {t : Token},
    (∀ p ∈ pieces, ∀ kind literal, p.meaning = .token kind literal →
      Lexeme p.text (.token kind literal)) →
    t ∈ (Scan.ofPieces line pieces).tokens → t.kind ≠ .eof → t.IsLexeme
  | [], line, t, _, ht, hkind => by
    obtain rfl := List.mem_singleton.1 ht
    exact absurd rfl hkind
  | p :: pieces, line, t, hp, ht, hkind => by
    have hlater : t ∈ (Scan.ofPieces (line + p.lineEnds) pieces).tokens → t.IsLexeme :=
      fun ht => isLexeme_of_pieces (fun q hq => hp q (List.mem_cons_of_mem _ hq)) ht hkind
    unfold Scan.ofPieces at ht
    split at ht
    · exact hlater ht
    · rename_i kind literal hm
      rcases List.mem_cons.1 ht with rfl | ht
      · have hlexeme := hp p List.mem_cons_self kind literal hm
        simpa [Token.IsLexeme] using hlexeme
      · exact hlater ht
    · exact hlater ht

/-- Every token of a source but its end is a lexeme. -/
theorem isLexeme_of_mem_scan {source : List Char} {t : Token} (h : t ∈ (scan source).tokens)
    (hkind : t.kind ≠ .eof) : t.IsLexeme :=
  isLexeme_of_pieces (fun _ hp _ _ hm => lexeme_of_mem_all hp hm) h hkind

/-- What follows a lexeme is detached: its gap is, or it has none and is the last one. -/
theorem detached_gap {w : List Char} {gaps : List (List Char)} {ls : List (List Char)}
    (hlength : gaps.length = ls.length) (hw : Detached w) (hinner : ∀ v ∈ (w :: gaps).dropLast, v ≠ []) :
    Detached (w ++ (List.zipWith (· ++ ·) ls gaps).flatten) := by
  cases w with
  | cons c w => exact hw
  | nil =>
    cases gaps with
    | nil => simp [Detached]
    | cons v gaps => exact absurd rfl (hinner [] List.mem_cons_self)

/-- Lexemes with gaps behind them are scanned to tokens like those that they come from. -/
theorem ofPieces_laidOut : ∀ (ts : List Token) (gaps : List (List Char)) (line last : Int),
    (∀ t ∈ ts, t.IsLexeme) → gaps.length = ts.length → (∀ w ∈ gaps, Spacing w ∧ Detached w) →
    (∀ w ∈ gaps.dropLast, w ≠ []) →
    let text := (List.zipWith (· ++ ·) (ts.map (·.lexeme.toList)) gaps).flatten
    (Scan.ofPieces line (Piece.all text)).errors = [] ∧
      List.Forall₂ Token.Alike (ts ++ [.endAt last]) (Scan.ofPieces line (Piece.all text)).tokens
  | [], [], line, last, _, _, _, _ => ⟨rfl, .cons ⟨rfl, rfl, rfl⟩ .nil⟩
  | [], _ :: _, _, _, _, h, _, _ => by cases h
  | _ :: _, [], _, _, _, h, _, _ => by cases h
  | t :: ts, w :: gaps, line, last, hts, hlength, hgaps, hinner => by
    intro text
    have hlength' : gaps.length = (ts.map (·.lexeme.toList)).length := by simpa using hlength
    obtain ⟨hspacing, hdetached⟩ := hgaps w List.mem_cons_self
    -- the lexeme is one piece, since nothing that can be part of it stands behind it
    have hall := Lexeme.all_of_detached (hts t List.mem_cons_self) (by simp)
      (detached_gap hlength' hdetached hinner)
    obtain ⟨line', hline'⟩ := ofPieces_spacing hspacing
      (List.zipWith (· ++ ·) (ts.map (·.lexeme.toList)) gaps).flatten
      (line + Piece.lineEnds ⟨t.lexeme.toList, .token t.kind t.literal⟩)
    obtain ⟨herrors, htokens⟩ := ofPieces_laidOut ts gaps line' last
      (fun t' ht => hts t' (List.mem_cons_of_mem _ ht)) (by simpa using hlength)
      (fun v hv => hgaps v (List.mem_cons_of_mem _ hv))
      (fun v hv => hinner v (by cases gaps <;> simp_all))
    rw [← hline'] at herrors htokens
    have htext : text = t.lexeme.toList ++
        (w ++ (List.zipWith (· ++ ·) (ts.map (·.lexeme.toList)) gaps).flatten) := by
      simp [text]
    rw [htext, hall]
    refine ⟨herrors, .cons ⟨rfl, ?_, rfl⟩ htokens⟩
    exact String.ofList_toList

/-- A text in which the lexemes of a source are laid out anew is scanned without errors, to tokens like
those of the source. -/
theorem scan_laidOut {source text : List Char}
    (h : LaidOut ((scan source).tokens.dropLast.map (·.lexeme.toList)) text) :
    (scan text).errors = [] ∧ List.Forall₂ Token.Alike (scan source).tokens (scan text).tokens := by
  obtain ⟨start, gaps, hlength, rfl, hstart, hgaps, hinner⟩ := h
  obtain ⟨ts, last, htokens, hkinds⟩ := scan_tokens source
  have hlexemes : ∀ t ∈ ts, t.IsLexeme := fun t ht =>
    isLexeme_of_mem_scan (by rw [htokens]; exact List.mem_append_left _ ht) (hkinds t ht)
  rw [htokens, List.dropLast_concat] at hlength ⊢
  obtain ⟨line, hline⟩ := ofPieces_spacing hstart
    (List.zipWith (· ++ ·) (ts.map (·.lexeme.toList)) gaps).flatten 1
  obtain ⟨herrors, halike⟩ :=
    ofPieces_laidOut ts gaps line last hlexemes (by simpa using hlength) hgaps hinner
  rw [← hline] at herrors halike
  exact ⟨herrors, halike⟩

/-! ## Runs -/

/-- Tokens that stand at the same place of two lists and differ in their lines at most. -/
def SamePlace (tokens tokens' : List Token) (t t' : Token) : Prop :=
  t.Alike t' ∧ ∃ i : Nat, tokens[i]? = some t ∧ tokens'[i]? = some t'

theorem forall₂_samePlace {tokens tokens' : List Token} (h : List.Forall₂ Token.Alike tokens tokens') :
    List.Forall₂ (SamePlace tokens tokens') tokens tokens' := by
  rw [List.forall₂_iff_get] at h ⊢
  obtain ⟨hlength, halike⟩ := h
  refine ⟨hlength, fun i hi hi' => ⟨halike i hi hi', i, ?_, ?_⟩⟩
  · exact List.getElem?_eq_getElem hi
  · exact List.getElem?_eq_getElem hi'

/-- Layout never changes meaning. Where the lexemes of a source that is scanned without errors are laid out
anew, the text is scanned without errors to the same kinds, texts and literals in the same order. In every
mode the two runs have the same output, exit status and value, trees that are equal up to the lines of
their operators, and as many errors, of the same sorts and messages and at tokens of the same places. -/
theorem layout_never_matters (s s' : String) (hs : (scan s.toList).errors = [])
    (hlaid : LaidOut ((scan s.toList).tokens.dropLast.map (·.lexeme.toList)) s'.toList) :
    (scan s'.toList).errors = [] ∧
    List.Forall₂ Token.Alike (scan s.toList).tokens (scan s'.toList).tokens ∧
    ∀ mode,
      (run mode s).Corresponds (SamePlace (scan s.toList).tokens (scan s'.toList).tokens) (run mode s') := by
  obtain ⟨herrors, halike⟩ := scan_laidOut hlaid
  refine ⟨herrors, halike, fun mode => ?_⟩
  exact run_corresponds (fun h => h.1) hs herrors (forall₂_samePlace halike) mode

/-- An expression without any layout, and with comments and line ends between all its lexemes. -/
theorem layout_never_matters_at :
    (scan "-\"a//b\"".toList).errors = [] ∧
    (scan "// c\n-\t// d\n\"a//b\"\r\n// e\n".toList).errors = [] ∧
    (run .evaluate "// c\n-\t// d\n\"a//b\"\r\n// e\n").exitCode = (run .evaluate "-\"a//b\"").exitCode ∧
    (run .evaluate "-\"a//b\"").exitCode = 70 := by
  have hs : (scan "-\"a//b\"".toList).errors = [] := rfl
  have hlaid : LaidOut ((scan "-\"a//b\"".toList).tokens.dropLast.map (·.lexeme.toList))
      "// c\n-\t// d\n\"a//b\"\r\n// e\n".toList := by
    refine ⟨['/', '/', ' ', 'c', '\n'],
      [['\t', '/', '/', ' ', 'd', '\n'], ['\r', '\n', '/', '/', ' ', 'e', '\n']], rfl, rfl, ?_, ?_, by decide⟩
    · exact .comment (show '\n' ∉ [' ', 'c'] by decide) .nil
    · simp only [List.mem_cons, List.not_mem_nil, or_false, forall_eq_or_imp, forall_eq]
      refine ⟨⟨.blank (by decide) (.comment (show '\n' ∉ [' ', 'd'] by decide) .nil),
          by simp [Detached, blanks]⟩,
        .blank (by decide) (.blank (by decide) (.comment (show '\n' ∉ [' ', 'e'] by decide) .nil)), ?_⟩
      simp [Detached, blanks]
  obtain ⟨herrors, -, hruns⟩ := layout_never_matters _ _ hs hlaid
  exact ⟨hs, herrors, (hruns .evaluate).exitCode, rfl⟩

end Reckoner
