/-
Scanning line by line. A line end is part of no lexeme but of strings, and a comment stops in front of it. So
what stands behind a line end changes nothing of the pieces in front of it, unless a string is open there,
and nothing but the number of the line is handed on.
-/
import Reckoner.Proofs.Lines
import Reckoner.Proofs.Spacing

namespace Reckoner

namespace Lexicon

/-! ## The piece in front of a line end -/

theorem takeWhile_lineEnd {p : Char → Bool} (hp : p '\n' = false) (a b : List Char) :
    (a ++ '\n' :: b).takeWhile p = a.takeWhile p := by
  induction a with
  | nil => simp [hp]
  | cons c a ih => simp only [List.cons_append, List.takeWhile_cons, ih]

theorem dropWhile_lineEnd {p : Char → Bool} (hp : p '\n' = false) (a b : List Char) :
    (a ++ '\n' :: b).dropWhile p = a.dropWhile p ++ '\n' :: b := by
  induction a with
  | nil => simp [hp]
  | cons c a ih =>
    simp only [List.cons_append, List.dropWhile_cons, ih]
    split <;> rfl

theorem equalsPair_lineEnd (c : Char) (alone together : TokenKind) (rest b : List Char) :
    Piece.equalsPair c alone together (rest ++ '\n' :: b) = Piece.equalsPair c alone together rest := by
  cases rest with
  | nil => rfl
  | cons d rest =>
    by_cases hd : d = '='
    · subst hd
      rfl
    · simp [Piece.equalsPair, hd]

theorem slash_lineEnd (rest b : List Char) : Piece.slash (rest ++ '\n' :: b) = Piece.slash rest := by
  cases rest with
  | nil => rfl
  | cons d rest =>
    by_cases hd : d = '/'
    · subst hd
      have htake : ('/' :: rest ++ '\n' :: b).takeWhile (· != '\n') = ('/' :: rest).takeWhile (· != '\n') :=
        takeWhile_lineEnd rfl ('/' :: rest) b
      rw [List.cons_append] at htake ⊢
      simp only [Piece.slash, htake]
    · simp [Piece.slash, hd]

theorem string_lineEnd {rest : List Char} (h : '"' ∈ rest) (b : List Char) :
    Piece.string (rest ++ '\n' :: b) = Piece.string rest := by
  obtain ⟨body, later, rfl, hbody⟩ := List.eq_append_cons_of_mem h
  rw [List.append_assoc, List.cons_append, string_of_closed hbody, string_of_closed hbody]

theorem fraction_lineEnd (rest b : List Char) :
    Piece.fraction (rest ++ '\n' :: b) = Piece.fraction rest := by
  cases rest with
  | nil => rfl
  | cons d rest =>
    by_cases hd : d = '.'
    · subst hd
      exact takeWhile_lineEnd rfl rest b
    · simp [Piece.fraction, hd]

theorem number_lineEnd (c : Char) (rest b : List Char) :
    Piece.number c (rest ++ '\n' :: b) = Piece.number c rest := by
  unfold Piece.number
  simp only [takeWhile_lineEnd (p := Char.isDigit) rfl, dropWhile_lineEnd (p := Char.isDigit) rfl,
    fraction_lineEnd]

theorem word_lineEnd (c : Char) (rest b : List Char) :
    Piece.word c (rest ++ '\n' :: b) = Piece.word c rest := by
  have hend : Piece.continuesWord '\n' = false := by decide
  unfold Piece.word
  rw [takeWhile_lineEnd hend]

/-- What stands behind a line end is not part of the piece in front of it, unless a string is open there. -/
theorem first_lineEnd {c : Char} {rest : List Char}
    (h : (Piece.first c rest).meaning ≠ .fault .unterminated) (b : List Char) :
    Piece.first c (rest ++ '\n' :: b) = Piece.first c rest := by
  unfold Piece.first at h ⊢
  split
  · rfl
  split
  · exact equalsPair_lineEnd ..
  split_ifs with hl hs hq hd hw
  · rfl
  · exact slash_lineEnd rest b
  · have hclosed : '"' ∈ rest := by
      by_contra hopen
      simp_all [string_of_not_mem]
    exact string_lineEnd hclosed b
  · exact number_lineEnd c rest b
  · exact word_lineEnd c rest b
  · rfl

/-! ## All pieces -/

theorem exists_first_eq (c : Char) (rest : List Char) :
    ∃ cs later m, rest = cs ++ later ∧ Piece.first c rest = ⟨c :: cs, m⟩ := by
  obtain ⟨hne, later, hlater⟩ := Guarded.Scanner.first_text c rest
  generalize Piece.first c rest = p at *
  obtain ⟨text, m⟩ := p
  cases text with
  | nil => exact absurd rfl hne
  | cons d cs =>
    obtain ⟨rfl, rfl⟩ := List.cons.inj hlater
    exact ⟨cs, later, m, rfl, rfl⟩

/-- What holds of the empty source, and of a source if it holds of what is left behind its first piece, holds of
all sources. -/
@[elab_as_elim] theorem pieces_induction {P : List Char → Prop} (nil : P [])
    (piece : ∀ c cs later m, Piece.first c (cs ++ later) = ⟨c :: cs, m⟩ → P later → P (c :: cs ++ later)) :
    ∀ source, P source
  | [] => nil
  | c :: rest => by
    obtain ⟨cs, later, m, hrest, hfirst⟩ := exists_first_eq c rest
    have hshorter : later.length < (c :: rest).length := by
      simp only [hrest, List.length_cons, List.length_append]
      omega
    have hlater := pieces_induction nil piece later
    subst hrest
    exact piece c cs later m hfirst hlater
termination_by source => source.length

theorem flatMap_text_all (source : List Char) : (Piece.all source).flatMap Piece.text = source := by
  induction source using pieces_induction with
  | nil => rfl
  | piece c cs later m hfirst ih => rw [all_of_first hfirst, List.flatMap_cons, ih]

/-- The pieces of a source that goes on behind a line end. -/
theorem all_lineEnd {a : List Char} (h : ∀ p ∈ Piece.all a, p.meaning ≠ .fault .unterminated) (b : List Char) :
    Piece.all (a ++ '\n' :: b) = Piece.all a ++ ⟨['\n'], .layout⟩ :: Piece.all b := by
  induction a using pieces_induction with
  | nil => exact all_blank (by decide) b
  | piece c cs later m hfirst ih =>
    rw [all_of_first hfirst] at h ⊢
    have hlonger : Piece.first c (cs ++ (later ++ '\n' :: b)) = ⟨c :: cs, m⟩ := by
      rw [← List.append_assoc, first_lineEnd (by rw [hfirst]; exact h _ List.mem_cons_self), hfirst]
    rw [List.append_assoc, all_of_first hlonger, ih fun p hp => h p (List.mem_cons_of_mem _ hp)]
    rfl

end Lexicon

open Lexicon

/-! ## Tokens and errors -/

/-- The token a number of lines further down. -/
def Token.moved (n : Int) (t : Token) : Token :=
  { t with line := t.line + n }

/-- The error a number of lines further down. -/
def LexicalError.moved (n : Int) (e : LexicalError) : LexicalError :=
  { e with line := e.line + n }

theorem ofPieces_moved (n : Int) : ∀ (pieces : List Piece) (line : Int), Scan.ofPieces (line + n) pieces =
    ⟨(Scan.ofPieces line pieces).tokens.map (·.moved n), (Scan.ofPieces line pieces).errors.map (·.moved n)⟩
  | [], line => rfl
  | p :: pieces, line => by
    have hline : line + n + p.lineEnds = line + p.lineEnds + n := by omega
    have ih := ofPieces_moved n pieces (line + p.lineEnds)
    obtain ⟨text, meaning⟩ := p
    cases meaning with
    | layout => simp only [Scan.ofPieces, hline, ih]
    | token kind literal => simp [Scan.ofPieces, hline, ih, Token.moved]
    | fault f => simp [Scan.ofPieces, hline, ih, LexicalError.moved]

/-- The tokens of pieces, up to the end, and their errors do not depend on what follows; what follows begins on
the line on which they end. -/
theorem ofPieces_append : ∀ (ps : List Piece) (line : Int), ∃ before errors, ∀ qs,
    Scan.ofPieces line (ps ++ qs) =
      let later := Scan.ofPieces (line + (ps.flatMap Piece.text).count '\n') qs
      ⟨before ++ later.tokens, errors ++ later.errors⟩
  | [], line => ⟨[], [], fun qs => by simp⟩
  | p :: ps, line => by
    obtain ⟨before, errors, h⟩ := ofPieces_append ps (line + p.lineEnds)
    have hline : line + ((p :: ps).flatMap Piece.text).count '\n' =
        line + p.lineEnds + (ps.flatMap Piece.text).count '\n' := by
      rw [List.flatMap_cons, List.count_append, Piece.lineEnds]
      omega
    obtain ⟨text, meaning⟩ := p
    cases meaning with
    | layout => exact ⟨before, errors, fun qs => by simp only [List.cons_append, Scan.ofPieces, h, hline]⟩
    | token kind literal =>
      exact ⟨⟨kind, String.ofList text, literal, line⟩ :: before, errors,
        fun qs => by simp only [List.cons_append, Scan.ofPieces, h, hline]⟩
    | fault f =>
      exact ⟨before, ⟨line, f⟩ :: errors, fun qs => by simp only [List.cons_append, Scan.ofPieces, h, hline]⟩

theorem exists_error_of_mem {p : Piece} {pieces : List Piece} {f : LexicalFault} (h : p ∈ pieces)
    (hf : p.meaning = .fault f) (line : Int) : ∃ e ∈ (Scan.ofPieces line pieces).errors, e.fault = f := by
  obtain ⟨ps, qs, rfl⟩ := List.append_of_mem h
  obtain ⟨before, errors, happend⟩ := ofPieces_append ps line
  refine ⟨⟨line + (ps.flatMap Piece.text).count '\n', f⟩, ?_, rfl⟩
  rw [happend]
  simp [Scan.ofPieces, hf]

/-- Scanning line by line. Where no string is open at the end of the runes `a`, the tokens of `a`, a line end
and `b` are those of `a` without their end, and then those of `b`, moved down by as many lines as `a` and the line
end take. So are the errors. -/
theorem scan_lineEnd (a b : List Int) (h : ∀ e ∈ (scan (shown a)).errors, e.fault ≠ .unterminated) :
    ∃ before, (scan (shown a)).tokens = before ++ [.endAt (1 + a.count 10)] ∧
      (scan (shown (a ++ 10 :: b))).tokens =
        before ++ (scan (shown b)).tokens.map (·.moved (1 + a.count 10)) ∧
      (scan (shown (a ++ 10 :: b))).errors =
        (scan (shown a)).errors ++ (scan (shown b)).errors.map (·.moved (1 + a.count 10)) := by
  have hclosed : ∀ p ∈ Piece.all (shown a), p.meaning ≠ .fault .unterminated := by
    intro p hp hopen
    obtain ⟨e, he, hfault⟩ := exists_error_of_mem hp hopen 1
    exact h e he hfault
  have hshown : shown (a ++ 10 :: b) = shown a ++ '\n' :: shown b := by
    simp only [shown, List.map_append, List.map_cons]
    rfl
  obtain ⟨before, errors, happend⟩ := ofPieces_append (Piece.all (shown a)) 1
  simp only [flatMap_text_all, count_shown] at happend
  have hfirst : scan (shown a) = ⟨before ++ [.endAt (1 + a.count 10)], errors⟩ := by
    have hend := happend []
    rw [List.append_nil] at hend
    rw [scan, hend]
    simp [Scan.ofPieces]
  have hboth : scan (shown (a ++ 10 :: b)) =
      ⟨before ++ (scan (shown b)).tokens.map (·.moved (1 + a.count 10)),
        errors ++ (scan (shown b)).errors.map (·.moved (1 + a.count 10))⟩ := by
    -- the line end itself is layout, and what follows it begins one line further down
    have hline : (1 : Int) + a.count 10 + Piece.lineEnds ⟨['\n'], .layout⟩ = 1 + (1 + a.count 10) := by
      rw [show Piece.lineEnds ⟨['\n'], .layout⟩ = 1 from rfl]
      omega
    rw [scan, hshown, all_lineEnd hclosed, happend]
    simp only [Scan.ofPieces, hline, ofPieces_moved]
    rfl
  exact ⟨before, by rw [hfirst], by rw [hboth], by rw [hboth, hfirst]⟩

/-- A string over two lines, a stray character and a comment in front of the line end, and an unclosed string
behind it. -/
theorem scan_lineEnd_at :
    let a := runesOf "\"p\nq\" @ // c"
    let b := runesOf "1\n\"r"
    (∀ e ∈ (scan (shown a)).errors, e.fault ≠ .unterminated) ∧
    (scan (shown (a ++ 10 :: b))).errors = [⟨2, .unexpected '@'⟩, ⟨4, .unterminated⟩] := by
  intro a b
  have ha : (scan (shown a)).errors = [⟨2, .unexpected '@'⟩] := rfl
  have hclosed : ∀ e ∈ (scan (shown a)).errors, e.fault ≠ .unterminated := by simp [ha]
  obtain ⟨before, -, -, herrors⟩ := scan_lineEnd a b hclosed
  refine ⟨hclosed, ?_⟩
  rw [herrors, ha]
  rfl

end Reckoner
