/-
A scanner that works with positions in its source: it reads the character at its position, looks one or
two characters ahead, and cuts lexemes out by their first and last position. It never reaches outside
the source, it ends on every source, and it finds the tokens and errors of `scan`.

Between the first character of a lexeme and its last one only the position and the line change, so
every state on the way is the first one moved on by some characters and lines. What the machine does
at a state is determined by what is left of the source there.
-/
import Reckoner.Proofs.Guarded.Access
import Reckoner.Proofs.Lexicon

namespace Reckoner.Guarded

/-! ## The machine -/

/-- The state of a scanner: its source, the line, the first position of the lexeme that it reads, its
position, and what it has found. -/
structure Scanner where
  source : List Char
  line : Int
  start : Nat
  current : Nat
  tokens : List Token
  errors : List LexicalError

namespace Scanner

/-- Whether the position is behind the last character. -/
def atEnd (s : Scanner) : Bool :=
  s.source.length ≤ s.current

/-- The character that stands for the end of the source. -/
def sentinel : Char := '\x00'

/-- The character at the position. -/
def peek (s : Scanner) : Except Fault Char :=
  if s.atEnd then return sentinel else item s.source s.current

/-- The character behind the position. -/
def peekNext (s : Scanner) : Except Fault Char :=
  if s.source.length ≤ s.current + 1 then return sentinel else item s.source (s.current + 1 : Nat)

/-- Reads the character at the position and steps over it. -/
def advance (s : Scanner) : Except Fault (Char × Scanner) := do
  let c ← item s.source s.current
  return (c, { s with current := s.current + 1 })

/-- Steps over the character at the position. -/
def step (s : Scanner) : Except Fault Scanner := do
  let (_, s) ← s.advance
  return s

/-- Steps over the character at the position only if it is the expected one. -/
def accept (expected : Char) (s : Scanner) : Except Fault (Bool × Scanner) := do
  if s.atEnd then return (false, s)
  let c ← item s.source s.current
  if c = expected then return (true, { s with current := s.current + 1 }) else return (false, s)

/-- The characters from the start of the lexeme to the position. -/
def lexeme (s : Scanner) : Except Fault (List Char) :=
  slice s.source s.start s.current

/-- Adds a token with the lexeme that ends at the position. -/
def emit (kind : TokenKind) (literal : Option Value) (s : Scanner) : Except Fault Scanner := do
  let text ← s.lexeme
  return { s with tokens := s.tokens ++ [⟨kind, String.ofList text, literal, s.line⟩] }

/-- Adds an error on a line. -/
def report (line : Int) (fault : LexicalFault) (s : Scanner) : Scanner :=
  { s with errors := s.errors ++ [⟨line, fault⟩] }

/-- Steps over characters as long as the test holds. -/
def skip (test : Scanner → Except Fault Bool) (s : Scanner) : Except Fault Scanner :=
  whileDo test step (s.source.length + 1) s

/-- Steps over digits. -/
def skipDigits : Scanner → Except Fault Scanner :=
  skip fun s => do return (← s.peek).isDigit

/-- Steps over a character of a string, in which lines are counted. -/
def stepCounting (s : Scanner) : Except Fault Scanner := do
  let c ← s.peek
  if c = '\n' then Scanner.step { s with line := s.line + 1 } else s.step

/-- Steps over the inside of a string. -/
def skipString (s : Scanner) : Except Fault Scanner :=
  whileDo (fun s => do return (← s.peek) != '"' && !s.atEnd) stepCounting (s.source.length + 1) s

/-- Ends a string that was opened on the given line. -/
def closeString (opening : Int) (s : Scanner) : Except Fault Scanner := do
  if s.atEnd then return s.report opening .unterminated
  let s ← s.step
  let text ← s.lexeme
  let body ← slice text 1 (text.length - 1)
  return { s with
    tokens := s.tokens ++ [⟨.string, String.ofList text, some (.string (String.ofList body)), opening⟩] }

/-- A string behind its opening quote. -/
def string (s : Scanner) : Except Fault Scanner := do
  (← s.skipString).closeString s.line

/-- The number that a numeral with or without a fraction denotes. -/
def numeralValue (text : List Char) : Float :=
  (Number.Decimal.ofDigits (text.takeWhile (· != '.')) ((text.dropWhile (· != '.')).drop 1)).toFloat

/-- Steps over the digits of a number, and over its fraction if it has one. -/
def skipNumber (s : Scanner) : Except Fault Scanner := do
  let s ← s.skipDigits
  if (← s.peek) = '.' && (← s.peekNext).isDigit then do (← s.step).skipDigits else return s

/-- A number behind its first digit. -/
def number (s : Scanner) : Except Fault Scanner := do
  let s ← s.skipNumber
  let text ← s.lexeme
  s.emit .number (some (.number (numeralValue text)))

/-- A word behind its first letter, which may be a keyword. -/
def word (s : Scanner) : Except Fault Scanner := do
  let s ← s.skip fun s => do return Piece.startsWord (← s.peek) || (← s.peek).isDigit
  let text ← s.lexeme
  s.emit (.ofWord (String.ofList text)) none

/-- One of two tokens, depending on whether an equals sign follows. -/
def equalsPair (alone together : TokenKind) (s : Scanner) : Except Fault Scanner := do
  let (found, s) ← s.accept '='
  s.emit (if found then together else alone) none

/-- A comment up to the end of its line, or a lone slash. -/
def slash (s : Scanner) : Except Fault Scanner := do
  let (found, s) ← s.accept '/'
  if found then s.skip fun s => do return (← s.peek) != '\n' && !s.atEnd else s.emit .slash none

/-- Goes on with the lexeme that begins with the character just read. -/
def afterFirst (c : Char) (s : Scanner) : Except Fault Scanner :=
  match Piece.single? c with
  | some kind => s.emit kind none
  | none =>
    match Piece.withEquals? c with
    | some (alone, together) => s.equalsPair alone together
    | none =>
      if c = ' ' ∨ c = '\r' ∨ c = '\t' then return s
      else if c = '\n' then return { s with line := s.line + 1 }
      else if c = '/' then s.slash
      else if c = '"' then s.string
      else if c.isDigit then s.number
      else if Piece.startsWord c then s.word
      else return s.report s.line (.unexpected c)

/-- Reads one lexeme. -/
def token (s : Scanner) : Except Fault Scanner := do
  let (c, s) ← s.advance
  s.afterFirst c

end Scanner

/-- Reads lexemes until the source is at its end. -/
def scan (source : List Char) : Except Fault Scan := do
  let s ← whileDo (fun s => return !s.atEnd) (fun s => Scanner.token { s with start := s.current })
    (source.length + 1) ⟨source, 1, 0, 0, [], []⟩
  return ⟨s.tokens ++ [.endAt s.line], s.errors⟩

/-! ## States -/

namespace Scanner

open Lexicon (IsNumeral string_of_closed string_of_not_mem fraction_ne_nil isNumeral_cons_takeWhile
  number_headed first_headed upTo_nil)

/-- What is left of the source. -/
def rest (s : Scanner) : List Char :=
  s.source.drop s.current

/-- The state moved on by some characters and lines. -/
def move (s : Scanner) (n lines : Nat) : Scanner :=
  { s with current := s.current + n, line := s.line + lines }

@[simp] theorem rest_move (s : Scanner) (n lines : Nat) : (s.move n lines).rest = s.rest.drop n := by
  simp [rest, move, Nat.add_comm]

@[simp] theorem move_move (s : Scanner) (n lines n' lines' : Nat) :
    (s.move n lines).move n' lines' = s.move (n + n') (lines + lines') := by
  simp [move, Nat.add_assoc, Int.add_assoc]

@[simp] theorem move_zero (s : Scanner) : s.move 0 0 = s := by
  simp [move]

theorem atEnd_eq (s : Scanner) : s.atEnd = s.rest.isEmpty := by
  rw [Bool.eq_iff_iff]
  simp [atEnd, rest]

theorem length_rest_le (s : Scanner) : s.rest.length ≤ s.source.length := by
  simp [rest]

theorem item_rest {s : Scanner} {n : Nat} {c : Char} (h : s.rest[n]? = some c) :
    item s.source (s.current + n : Nat) = .ok c := by
  apply item_ofNat
  rw [← h, rest, List.getElem?_drop]

theorem peek_eq (s : Scanner) : s.peek = .ok (s.rest.head?.getD sentinel) := by
  unfold peek
  rw [atEnd_eq]
  cases hr : s.rest with
  | nil => rfl
  | cons c cs => exact item_rest (n := 0) (by simp [hr])

theorem peekNext_eq (s : Scanner) : s.peekNext = .ok (s.rest[1]?.getD sentinel) := by
  unfold peekNext
  split
  · rename_i h
    have : s.rest[1]? = none := by simp [rest]; omega
    rw [this]
    rfl
  · rename_i h
    have hlt : 1 < s.rest.length := by simp [rest]; omega
    rw [item_rest (List.getElem?_eq_getElem hlt), List.getElem?_eq_getElem hlt]
    rfl

theorem advance_eq {s : Scanner} {c : Char} {cs : List Char} (h : s.rest = c :: cs) :
    s.advance = .ok (c, s.move 1 0) := by
  unfold advance
  have : item s.source s.current = .ok c := item_rest (n := 0) (by simp [h])
  rw [this]
  simp [move]

theorem step_eq {s : Scanner} {c : Char} {cs : List Char} (h : s.rest = c :: cs) :
    s.step = .ok (s.move 1 0) := by
  unfold step
  rw [advance_eq h]
  rfl

theorem accept_eq (s : Scanner) (c : Char) :
    s.accept c = .ok (if s.rest.head? = some c then (true, s.move 1 0) else (false, s)) := by
  unfold accept
  rw [atEnd_eq]
  cases hr : s.rest with
  | nil => rfl
  | cons d ds =>
    have : item s.source s.current = .ok d := item_rest (n := 0) (by simp [hr])
    simp only [List.isEmpty_cons, Bool.false_eq_true, if_false, this, ok_bind, List.head?_cons,
      Option.some.injEq]
    split
    · simp [move]
    · rfl

/-- The lexeme of a state that was moved over a text. -/
theorem lexeme_move {s : Scanner} (hs : s.start = s.current) {text : List Char} (hne : text ≠ [])
    (htext : text <+: s.rest) (lines : Nat) : (s.move text.length lines).lexeme = .ok text := by
  have hlength : s.rest.length = s.source.length - s.current := List.length_drop
  have hpos := List.length_pos_iff.2 hne
  have hle := htext.length_le
  unfold lexeme
  simp only [move]
  rw [slice_eq (by omega) (by omega), hs, Nat.add_sub_cancel_left]
  exact congrArg Except.ok (List.prefix_iff_eq_take.1 htext).symm

/-! ## Loops -/

/-- A loop stops in front of the first character that fails its test. -/
theorem whileDo_eq {test : Scanner → Except Fault Bool} {body : Scanner → Except Fault Scanner}
    {p newline : Char → Bool} (htest : ∀ s, test s = .ok (s.rest.head?.any p))
    (hbody : ∀ s c cs, s.rest = c :: cs → body s = .ok (s.move 1 (newline c).toNat)) :
    ∀ (n : Nat) (s : Scanner), s.rest.length < n → whileDo test body n s =
      .ok (s.move (s.rest.takeWhile p).length ((s.rest.takeWhile p).countP newline))
  | 0, s, h => by omega
  | n + 1, s, h => by
    unfold whileDo
    rw [htest]
    cases hr : s.rest with
    | nil => simp
    | cons c cs =>
      by_cases hp : p c = true
      · -- the state behind `c` has less left, so the loop is already known there
        have hrest : (s.move 1 (newline c).toNat).rest = cs := by simp [hr]
        have hlen : (s.move 1 (newline c).toNat).rest.length < n := by
          rw [hrest]
          simp only [hr, List.length_cons] at h
          omega
        simp only [List.head?_cons, Option.any_some, hp, ok_bind, if_true, hbody s c cs hr]
        rw [whileDo_eq htest hbody n _ hlen, hrest, move_move, List.takeWhile_cons_of_pos hp,
          List.length_cons, List.countP_cons, Nat.add_comm 1, Nat.add_comm (newline c).toNat]
        cases newline c <;> rfl
      · simp [hp]

/-- Skipping stops in front of the first character that fails the test. -/
theorem skip_eq {test : Scanner → Except Fault Bool} {p : Char → Bool}
    (htest : ∀ s, test s = .ok (s.rest.head?.any p)) (s : Scanner) :
    s.skip test = .ok (s.move (s.rest.takeWhile p).length 0) := by
  have hbody : ∀ s c cs, Scanner.rest s = c :: cs →
      step s = .ok (s.move 1 ((fun _ => false) c : Bool).toNat) :=
    fun s c cs h => step_eq h
  have := s.length_rest_le
  rw [skip, whileDo_eq htest hbody _ s (by omega), List.countP_false, Function.const_apply]

theorem head?_any_getD {p : Char → Bool} (h : p sentinel = false) (cs : List Char) :
    p (cs.head?.getD sentinel) = cs.head?.any p := by
  cases cs <;> simp [h]

theorem skipDigits_eq (s : Scanner) :
    s.skipDigits = .ok (s.move (s.rest.takeWhile Char.isDigit).length 0) := by
  refine skip_eq (fun s => ?_) s
  rw [peek_eq]
  exact congrArg Except.ok (head?_any_getD (by decide) s.rest)

/-! ## Lexemes -/

theorem drop_length_takeWhile (p : Char → Bool) (cs : List Char) :
    cs.drop (cs.takeWhile p).length = cs.dropWhile p := by
  induction cs with
  | nil => rfl
  | cons c cs ih => by_cases h : p c <;> simp [h, ih]

/-- The state behind a piece that begins at the position. -/
def absorb (s : Scanner) (p : Piece) : Scanner :=
  let moved := s.move p.text.length p.lineEnds
  match p.meaning with
  | .layout => moved
  | .token kind literal =>
    { moved with tokens := s.tokens ++ [⟨kind, String.ofList p.text, literal, s.line⟩] }
  | .fault fault => moved.report s.line fault

theorem emit_move {s : Scanner} (hs : s.start = s.current) (text : List Char) (hne : text ≠ [])
    (htext : text <+: s.rest) (hline : '\n' ∉ text) (kind : TokenKind) (literal : Option Value) :
    (s.move text.length 0).emit kind literal = .ok (s.absorb ⟨text, .token kind literal⟩) := by
  have hcount : text.count '\n' = 0 := List.count_eq_zero.2 hline
  unfold emit
  rw [lexeme_move hs hne htext]
  simp [absorb, move, Piece.lineEnds, hcount]

theorem lexeme_emit {s : Scanner} (hs : s.start = s.current) (text : List Char) (hne : text ≠ [])
    (htext : text <+: s.rest) (hline : '\n' ∉ text) (kind : List Char → TokenKind)
    (literal : List Char → Option Value) :
    ((s.move text.length 0).lexeme >>= fun t => (s.move text.length 0).emit (kind t) (literal t)) =
      .ok (s.absorb ⟨text, .token (kind text) (literal text)⟩) := by
  rw [lexeme_move hs hne htext, ok_bind, emit_move hs text hne htext hline]

theorem emit_single {s : Scanner} (hs : s.start = s.current) {c : Char} {cs : List Char}
    (hr : s.rest = c :: cs) (hc : c ≠ '\n') (kind : TokenKind) :
    (s.move 1 0).emit kind none = .ok (s.absorb ⟨[c], .token kind none⟩) :=
  emit_move hs [c] (by simp) (by simp [hr]) (by simpa using hc.symm) kind none

theorem equalsPair_eq {s : Scanner} (hs : s.start = s.current) {c : Char} {cs : List Char}
    (hr : s.rest = c :: cs) (hc : c ≠ '\n') (alone together : TokenKind) :
    (s.move 1 0).equalsPair alone together = .ok (s.absorb (Piece.equalsPair c alone together cs)) := by
  have hrest : (s.move 1 0).rest = cs := by simp [hr]
  unfold equalsPair
  rw [accept_eq, hrest]
  by_cases h : cs.head? = some '='
  · obtain ⟨ds, rfl⟩ := List.head?_eq_some_iff.1 h
    rw [if_pos h, ok_bind, move_move]
    exact emit_move hs [c, '='] (by simp) (by simp [hr]) (by simpa using hc.symm) together none
  · have hpair : Piece.equalsPair c alone together cs = ⟨[c], .token alone none⟩ := by
      unfold Piece.equalsPair
      split
      · simp at h
      · rfl
    rw [if_neg h, ok_bind, hpair]
    exact emit_single hs hr hc alone

theorem slash_eq {s : Scanner} (hs : s.start = s.current) {cs : List Char} (hr : s.rest = '/' :: cs) :
    (s.move 1 0).slash = .ok (s.absorb (Piece.slash cs)) := by
  have hrest : (s.move 1 0).rest = cs := by simp [hr]
  have htest (t : Scanner) : (do return (← t.peek) != '\n' && !t.atEnd : Except Fault Bool) =
      .ok (t.rest.head?.any (· != '\n')) := by
    rw [peek_eq, atEnd_eq]
    cases t.rest <;> simp
  unfold slash
  rw [accept_eq, hrest]
  by_cases h : cs.head? = some '/'
  · obtain ⟨ds, rfl⟩ := List.head?_eq_some_iff.1 h
    have hcount : ('/' :: '/' :: ds.takeWhile (· != '\n')).count '\n' = 0 := by
      refine List.count_eq_zero.2 fun hmem => ?_
      simp only [List.mem_cons, Char.reduceEq, false_or] at hmem
      simpa using List.mem_takeWhile_imp hmem
    rw [if_pos h, ok_bind]
    dsimp only
    rw [if_pos rfl, skip_eq htest]
    simp only [move_move, rest_move, hr, Piece.slash, absorb, Piece.lineEnds, List.drop_succ_cons,
      List.drop_zero, List.takeWhile_cons, bne_iff_ne, ne_eq, Char.reduceEq, not_false_eq_true, if_true,
      hcount, List.length_cons]
    congr 2
    omega
  · have hslash : Piece.slash cs = ⟨['/'], .token .slash none⟩ := by
      unfold Piece.slash
      split
      · simp at h
      · rfl
    rw [if_neg h, ok_bind, hslash]
    exact emit_single hs hr (by decide) .slash

theorem stepCounting_eq {s : Scanner} {c : Char} {cs : List Char} (h : s.rest = c :: cs) :
    s.stepCounting = .ok (s.move 1 (c == '\n').toNat) := by
  unfold stepCounting
  rw [peek_eq, h]
  by_cases hc : c = '\n'
  · have hcounted : { s with line := s.line + 1 }.rest = c :: cs := h
    simp [hc, step_eq hcounted, move]
  · have hbeq : (c == '\n') = false := beq_eq_false_iff_ne.2 hc
    simp [hc, hbeq, step_eq h]

theorem skipString_eq (s : Scanner) : s.skipString =
    .ok (s.move (s.rest.takeWhile (· != '"')).length ((s.rest.takeWhile (· != '"')).count '\n')) := by
  have htest (t : Scanner) : (do return (← t.peek) != '"' && !t.atEnd : Except Fault Bool) =
      .ok (t.rest.head?.any (· != '"')) := by
    rw [peek_eq, atEnd_eq]
    cases t.rest <;> simp
  have := s.length_rest_le
  rw [skipString, whileDo_eq htest (fun _ _ _ => stepCounting_eq) _ s (by omega), List.count_eq_countP]

/-- A string ends at the next quote, or it takes all that is left of the source. -/
theorem string_eq {s : Scanner} (hs : s.start = s.current) {cs : List Char} (hr : s.rest = '"' :: cs) :
    (s.move 1 0).string = .ok (s.absorb (Piece.string cs)) := by
  have hline : (s.move 1 0).line = s.line := by simp [move]
  have hrest : (s.move 1 0).rest = cs := by simp [hr]
  unfold string
  rw [skipString_eq, hrest, ok_bind, move_move, hline]
  unfold closeString
  rw [atEnd_eq, rest_move, hr]
  by_cases h : '"' ∈ cs
  · -- `body` is what stands between the quotes, and the loop stops in front of the closing one
    obtain ⟨body, later, rfl, hquote⟩ := List.eq_append_cons_of_mem h
    have htake : (body ++ '"' :: later).takeWhile (· != '"') = body := by
      rw [List.takeWhile_append_of_pos (fun c hc => by simpa using ne_of_mem_of_not_mem hc hquote)]
      simp
    have hlater : (s.move (1 + body.length) (0 + body.count '\n')).rest = '"' :: later := by
      simp [hr, Nat.add_comm 1]
    have hlength : 1 + body.length + 1 = ('"' :: body ++ ['"']).length := by
      simp [Nat.add_comm 1]
    have hbody : slice ('"' :: body ++ ['"']) 1 (('"' :: body ++ ['"']).length - 1) = .ok body := by
      rw [slice_eq (by simp) (by simp)]
      simp
    rw [htake, string_of_closed hquote, step_eq hlater, if_neg (by simp [Nat.add_comm 1]), ok_bind,
      move_move, hlength, lexeme_move hs (by simp) (by simp [hr]), ok_bind, hbody]
    simp [absorb, move, Piece.lineEnds]
  · -- without a closing quote the loop runs to the end of the source
    have htake : cs.takeWhile (· != '"') = cs :=
      List.takeWhile_eq_self_iff.2 fun c hc => by simpa using ne_of_mem_of_not_mem hc h
    rw [htake, string_of_not_mem h]
    simp [absorb, report, Piece.lineEnds, Nat.add_comm 1]

theorem ne_of_isDigit {c d : Char} (hc : c.isDigit = true) (hd : d.isDigit = false) : c ≠ d := by
  rintro rfl
  rw [hc] at hd
  cases hd

theorem numeralValue_whole {whole : List Char} (h : IsNumeral whole) :
    numeralValue whole = (Number.Decimal.ofDigits whole []).toFloat := by
  have hpoint : ∀ c ∈ whole, (c != '.') = true := fun c hc =>
    bne_iff_ne.2 (ne_of_isDigit (h.2 c hc) (by decide))
  unfold numeralValue
  rw [List.takeWhile_eq_self_iff.2 hpoint, List.dropWhile_eq_nil_iff.2 hpoint, List.drop_nil]

theorem numeralValue_decimal {whole : List Char} (h : IsNumeral whole) (fraction : List Char) :
    numeralValue (whole ++ '.' :: fraction) = (Number.Decimal.ofDigits whole fraction).toFloat := by
  have hpoint : ∀ c ∈ whole, (c != '.') = true := fun c hc =>
    bne_iff_ne.2 (ne_of_isDigit (h.2 c hc) (by decide))
  unfold numeralValue
  rw [List.takeWhile_append_of_pos hpoint, List.dropWhile_append_of_pos hpoint]
  simp

/-- Looking two characters ahead tells whether a fraction follows. -/
theorem fraction_follows (cs : List Char) :
    (decide (cs.head?.getD sentinel = '.') && (cs[1]?.getD sentinel).isDigit) =
      !(Piece.fraction cs).isEmpty := by
  unfold Piece.fraction
  split
  · rename_i later
    cases later with
    | nil => rfl
    | cons d ds => by_cases hd : d.isDigit = true <;> simp [hd]
  · rename_i hne
    cases cs with
    | nil => rfl
    | cons c cs =>
      have hc : c ≠ '.' := by
        rintro rfl
        exact hne cs rfl
      simp [hc]

/-- The machine stops behind the number at its position. -/
theorem skipNumber_eq {s : Scanner} {c : Char} {cs : List Char} (hr : s.rest = c :: cs) :
    (s.move 1 0).skipNumber = .ok (s.move (Piece.number c cs).text.length 0) := by
  have hrest : (s.move 1 0).rest = cs := by simp [hr]
  have hwhole : (s.move (1 + (cs.takeWhile Char.isDigit).length) (0 + 0)).rest =
      cs.dropWhile Char.isDigit := by
    rw [rest_move, hr, Nat.add_comm, List.drop_succ_cons, drop_length_takeWhile]
  unfold skipNumber Piece.number
  rw [skipDigits_eq, hrest, ok_bind, move_move, peek_eq, peekNext_eq, hwhole]
  simp only [ok_bind, fraction_follows]
  cases hf : Piece.fraction (cs.dropWhile Char.isDigit) with
  | nil => simp [Nat.add_comm]
  | cons d ds =>
    -- the machine steps over the point, and `later` begins with the digits of the fraction
    obtain ⟨later, hl, hlater⟩ := fraction_ne_nil (hf ▸ List.cons_ne_nil d ds)
    rw [hl] at hwhole
    have hpoint : (s.move (1 + (cs.takeWhile Char.isDigit).length + 1) (0 + 0 + 0)).rest = later := by
      rw [← move_move, rest_move, hwhole]
      rfl
    have hdigits : later.takeWhile Char.isDigit = d :: ds := hlater.symm.trans hf
    rw [step_eq hwhole, if_pos (by simp), ok_bind, move_move, skipDigits_eq, hpoint, hdigits, move_move]
    congr 2
    simp only [List.length_append, List.length_cons]
    omega

/-- The literal of a number can be read off its text, which lies on one line. -/
theorem number_text {c : Char} (hc : c.isDigit = true) (cs : List Char) :
    Piece.number c cs = ⟨(Piece.number c cs).text,
      .token .number (some (.number (numeralValue (Piece.number c cs).text)))⟩ ∧
    '\n' ∉ (Piece.number c cs).text := by
  have hwhole := isNumeral_cons_takeWhile hc cs
  have hline : '\n' ∉ c :: cs.takeWhile Char.isDigit := fun h =>
    ne_of_isDigit (hwhole.2 _ h) (by decide) rfl
  unfold Piece.number
  cases hf : Piece.fraction (cs.dropWhile Char.isDigit) with
  | nil => exact ⟨by simp [numeralValue_whole hwhole], hline⟩
  | cons d ds =>
    obtain ⟨later, -, hlater⟩ := fraction_ne_nil (hf ▸ List.cons_ne_nil d ds)
    refine ⟨by simp only [numeralValue_decimal hwhole], fun h => ?_⟩
    simp only [← hf, hlater] at h
    rcases List.mem_append.1 h with h | h
    · exact hline h
    · rcases List.mem_cons.1 h with h | h
      · cases h
      · exact ne_of_isDigit (List.mem_takeWhile_imp h) (by decide) rfl

theorem number_eq {s : Scanner} (hs : s.start = s.current) {c : Char} {cs : List Char}
    (hr : s.rest = c :: cs) (hc : c.isDigit = true) :
    (s.move 1 0).number = .ok (s.absorb (Piece.number c cs)) := by
  obtain ⟨heq, hline⟩ := number_text hc cs
  unfold number
  rw [skipNumber_eq hr, ok_bind, heq]
  cases number_headed hc cs with
  | lexeme hlex htext =>
    rw [← hr] at htext
    exact lexeme_emit hs _ hlex.ne_nil htext hline (fun _ => .number) fun t => some (.number (numeralValue t))
  | unterminated hquote => simp [hquote] at hc
  | unexpected _ hpiece => simp [hpiece] at heq

theorem word_eq {s : Scanner} (hs : s.start = s.current) {c : Char} {cs : List Char}
    (hr : s.rest = c :: cs) (hc : Piece.startsWord c = true) :
    (s.move 1 0).word = .ok (s.absorb (Piece.word c cs)) := by
  have hrest : (s.move 1 0).rest = cs := by simp [hr]
  have htest (t : Scanner) : (do return Piece.startsWord (← t.peek) || (← t.peek).isDigit : Except Fault Bool) =
      .ok (t.rest.head?.any Piece.continuesWord) := by
    rw [peek_eq]
    exact congrArg Except.ok (head?_any_getD (p := Piece.continuesWord) (by decide) t.rest)
  have hline : '\n' ∉ c :: cs.takeWhile Piece.continuesWord := by
    intro h
    rcases List.mem_cons.1 h with rfl | h
    · exact absurd hc (by decide)
    · exact absurd (List.mem_takeWhile_imp h) (by decide)
  have htext : c :: cs.takeWhile Piece.continuesWord <+: s.rest := by
    rw [hr]
    simpa using List.takeWhile_prefix _
  have hemit := lexeme_emit hs _ (by simp) htext hline (fun t => .ofWord (String.ofList t)) fun _ => none
  unfold word
  rw [skip_eq htest, hrest, ok_bind, move_move, Nat.add_comm 1]
  exact hemit

theorem absorb_blank (s : Scanner) {c : Char} (hc : c ≠ '\n') :
    s.absorb ⟨[c], .layout⟩ = s.move 1 0 := by
  simp [absorb, Piece.lineEnds, hc]

/-- The machine goes on to the end of the piece that begins with the character. -/
theorem afterFirst_eq {s : Scanner} (hs : s.start = s.current) {c : Char} {cs : List Char}
    (hr : s.rest = c :: cs) : (s.move 1 0).afterFirst c = .ok (s.absorb (Piece.first c cs)) := by
  unfold afterFirst Piece.first
  cases hsingle : Piece.single? c with
  | some kind =>
    have hc : c ≠ '\n' := by
      rintro rfl
      cases hsingle
    exact emit_single hs hr hc kind
  | none =>
  cases hpair : Piece.withEquals? c with
  | some pair =>
    have hc : c ≠ '\n' := by
      rintro rfl
      cases hpair
    exact equalsPair_eq hs hr hc pair.1 pair.2
  | none =>
  dsimp only
  by_cases hblank : c = ' ' ∨ c = '\r' ∨ c = '\t'
  · have hlayout : Piece.isLayout c = true := by
      rcases hblank with rfl | rfl | rfl <;> rfl
    have hc : c ≠ '\n' := by
      rcases hblank with rfl | rfl | rfl <;> decide
    rw [if_pos hblank, if_pos hlayout, absorb_blank s hc]
    rfl
  rw [if_neg hblank]
  by_cases hnewline : c = '\n'
  · subst hnewline
    rw [if_pos rfl, if_pos (by decide)]
    simp [absorb, move, Piece.lineEnds]
  -- from here on the machine and the pieces test the character in the same order
  have hlayout : Piece.isLayout c ≠ true := by
    simp only [not_or] at hblank
    simp [Piece.isLayout, hblank, hnewline]
  rw [if_neg hnewline, if_neg hlayout]
  split_ifs with hslash hquote hdigit hword
  · subst hslash
    exact slash_eq hs hr
  · subst hquote
    exact string_eq hs hr
  · exact number_eq hs hr hdigit
  · exact word_eq hs hr hword
  · simp [absorb, move, report, Piece.lineEnds, hnewline]

/-- One round of the machine takes the first piece of what is left. -/
theorem token_eq {s : Scanner} (hs : s.start = s.current) {c : Char} {cs : List Char}
    (hr : s.rest = c :: cs) : s.token = .ok (s.absorb (Piece.first c cs)) := by
  unfold token
  rw [advance_eq hr, ok_bind]
  exact afterFirst_eq hs hr

/-! ## Whole sources -/

/-- A piece is a nonempty beginning of what is left. -/
theorem first_text (c : Char) (cs : List Char) :
    (Piece.first c cs).text ≠ [] ∧ (Piece.first c cs).text <+: c :: cs := by
  cases first_headed c cs with
  | lexeme hlex htext => exact ⟨hlex.ne_nil, htext⟩
  | unterminated hc hp =>
    subst hc
    simp [hp]
  | unexpected hc hp => simp [hp]

theorem rest_absorb (s : Scanner) (p : Piece) : (s.absorb p).rest = s.rest.drop p.text.length := by
  rw [← rest_move s p.text.length p.lineEnds]
  unfold absorb
  split <;> rfl

/-- What a scanner in state `s` returns in the end. -/
def found (s : Scanner) : Scan :=
  ⟨s.tokens ++ [.endAt s.line], s.errors⟩

/-- The tokens and errors of pieces behind those that were found before. -/
def foundWith (s : Scanner) (pieces : List Piece) : Scan :=
  ⟨s.tokens ++ (Scan.ofPieces s.line pieces).tokens, s.errors ++ (Scan.ofPieces s.line pieces).errors⟩

theorem foundWith_absorb (s : Scanner) (p : Piece) (pieces : List Piece) :
    (s.absorb p).foundWith pieces = s.foundWith (p :: pieces) := by
  obtain ⟨text, meaning⟩ := p
  cases meaning <;> simp [foundWith, absorb, move, report, Scan.ofPieces]

/-- The rounds of the machine find the tokens and errors of the pieces of what is left. -/
theorem rounds_eq : ∀ (n m : Nat) (s : Scanner), s.rest.length < n → s.rest.length ≤ m →
    ∃ s', whileDo (fun s => return !s.atEnd) (fun s => Scanner.token { s with start := s.current }) n s =
      .ok s' ∧ s'.found = s.foundWith (Piece.upTo m s.rest)
  | 0, _, s, h, _ => by omega
  | n + 1, m, s, h, hm => by
    unfold whileDo
    rw [atEnd_eq]
    cases hr : s.rest with
    | nil =>
      refine ⟨s, rfl, ?_⟩
      simp [upTo_nil, found, foundWith, Scan.ofPieces]
    | cons c cs =>
      obtain ⟨k, rfl⟩ : ∃ k, m = k + 1 := ⟨m - 1, by simp [hr] at hm; omega⟩
      -- a round takes at least one character, so both bounds still suffice for what is left behind it
      obtain ⟨hne, htext⟩ := first_text c cs
      have hpos := List.length_pos_iff.2 hne
      have htoken := token_eq (s := { s with start := s.current }) rfl hr
      have hrest := rest_absorb { s with start := s.current } (Piece.first c cs)
      rw [show Scanner.rest { s with start := s.current } = c :: cs from hr] at hrest
      have hlength := congrArg List.length hrest
      rw [List.length_drop, List.length_cons] at hlength
      simp only [hr, List.length_cons] at h hm
      obtain ⟨s', hrun, hfound⟩ := rounds_eq n k (Scanner.absorb { s with start := s.current }
        (Piece.first c cs)) (by omega) (by omega)
      refine ⟨s', ?_, ?_⟩
      · simp only [List.isEmpty_cons, Bool.not_false, pure_eq_ok, ok_bind, if_true, htoken]
        exact hrun
      · have hdrop : (c :: cs).drop (Piece.first c cs).text.length =
            cs.drop ((Piece.first c cs).text.length - 1) := by
          rw [← Nat.sub_add_cancel hpos, List.drop_succ_cons, Nat.add_sub_cancel]
        rw [hfound, foundWith_absorb, hrest, hdrop]
        rfl

end Scanner

/-- The machine finds the tokens and errors of every source without a fault. -/
theorem scan_eq (source : List Char) : scan source = .ok (Reckoner.scan source) := by
  obtain ⟨s', hrun, hfound⟩ := Scanner.rounds_eq (source.length + 1) source.length ⟨source, 1, 0, 0, [], []⟩
    (by simp [Scanner.rest]) (by simp [Scanner.rest])
  unfold scan
  rw [hrun]
  exact congrArg Except.ok hfound

end Reckoner.Guarded
