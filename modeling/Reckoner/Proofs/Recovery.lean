/-
Recovery from stray characters. A character that is reported as unexpected does no more than a space would do in
its place: with spaces for all of them, the source has the same tokens on the same lines, and of its errors only
that of an unclosed string is left, which was the last one before.

The two sources stay in step piece by piece. A piece looks at what follows only to find out where it ends, and
there a stray character stops it just as a space does; inside strings and comments nothing is replaced.
-/
import Reckoner.Proofs.LineEnds

namespace Reckoner

namespace Lexicon

/-! ## Stray characters -/

/-- A character that is unexpected wherever a lexeme should begin. -/
def Stray (c : Char) : Prop :=
  ∀ rest, Piece.first c rest = ⟨[c], .fault (.unexpected c)⟩

theorem equalsPair_ne_fault (c : Char) (alone together : TokenKind) (rest : List Char) (f : LexicalFault) :
    (Piece.equalsPair c alone together rest).meaning ≠ .fault f := by
  unfold Piece.equalsPair
  split <;> simp

theorem slash_ne_fault (rest : List Char) (f : LexicalFault) : (Piece.slash rest).meaning ≠ .fault f := by
  unfold Piece.slash
  split <;> simp

theorem string_ne_unexpected (rest : List Char) (c : Char) :
    (Piece.string rest).meaning ≠ .fault (.unexpected c) := by
  unfold Piece.string
  dsimp only
  split <;> simp

theorem number_ne_fault (c : Char) (rest : List Char) (f : LexicalFault) :
    (Piece.number c rest).meaning ≠ .fault f := by
  unfold Piece.number
  dsimp only
  split <;> simp

/-- Whether a character is stray does not depend on what follows it. -/
theorem stray_of_first {c d : Char} {rest : List Char}
    (h : (Piece.first c rest).meaning = .fault (.unexpected d)) : Stray c := by
  intro rest'
  unfold Piece.first at h ⊢
  split at h
  · cases h
  split at h
  · exact (equalsPair_ne_fault _ _ _ _ _ h).elim
  split_ifs at h ⊢
  · exact (slash_ne_fault _ _ h).elim
  · exact (string_ne_unexpected _ _ h).elim
  · exact (number_ne_fault _ _ _ h).elim
  · cases h
  · rfl

/-- The characters that a piece looks for to find its end. -/
def lookedFor : List Char :=
  ['=', '/', '.', '\n']

namespace Stray

variable {c : Char}

theorem not_isDigit (h : Stray c) : c.isDigit = false := by
  rw [Bool.eq_false_iff]
  intro hd
  have hfirst := h []
  rw [first_of_isDigit hd] at hfirst
  exact number_ne_fault c [] _ (congrArg Piece.meaning hfirst)

theorem not_continuesWord (h : Stray c) : Piece.continuesWord c = false := by
  have hstart : Piece.startsWord c = false := by
    rw [Bool.eq_false_iff]
    intro hs
    have hfirst := h []
    rw [first_of_startsWord hs] at hfirst
    cases congrArg Piece.meaning hfirst
  simp [Piece.continuesWord, hstart, h.not_isDigit]

theorem not_mem_lookedFor (h : Stray c) : c ∉ lookedFor := by
  have hmeaning := congrArg Piece.meaning (h [])
  intro hc
  simp only [lookedFor, List.mem_cons, List.not_mem_nil, or_false] at hc
  rcases hc with rfl | rfl | rfl | rfl <;> cases hmeaning

end Stray

/-! ## Pieces in front of replaced characters -/

/-- What may stand in the place of a character: the character itself, or a space if it is stray. -/
def Replaces (c d : Char) : Prop :=
  d = c ∨ Stray c ∧ d = ' '

theorem Replaces.eq_iff {c d e : Char} (h : Replaces c d) (he : e ∈ lookedFor) : d = e ↔ c = e := by
  rcases h with rfl | ⟨hc, rfl⟩
  · rfl
  · constructor
    · rintro rfl
      exact absurd he (by decide)
    · rintro rfl
      exact absurd he hc.not_mem_lookedFor

variable {rest rest' : List Char}

/-- A class to which neither stray characters nor the space belong ends where it ended before. -/
theorem takeWhile_replaced {p : Char → Bool} (hp : ∀ c, Stray c → p c = false) (hspace : p ' ' = false)
    (h : List.Forall₂ Replaces rest rest') :
    rest'.takeWhile p = rest.takeWhile p ∧ List.Forall₂ Replaces (rest.dropWhile p) (rest'.dropWhile p) := by
  induction h with
  | nil => exact ⟨rfl, .nil⟩
  | @cons c d rest rest' hc hrest ih =>
    rcases hc with rfl | ⟨hc, rfl⟩
    · by_cases hd : p d = true
      · simpa [hd] using ih
      · rw [Bool.not_eq_true] at hd
        simp only [List.takeWhile_cons, List.dropWhile_cons, hd]
        exact ⟨rfl, .cons (.inl rfl) hrest⟩
    · simp only [List.takeWhile_cons, List.dropWhile_cons, hp c hc, hspace]
      exact ⟨rfl, .cons (.inr ⟨hc, rfl⟩) hrest⟩

/-- A character that is looked for comes next in both texts or in neither. -/
theorem head_replaced {e : Char} (he : e ∈ lookedFor) (h : List.Forall₂ Replaces rest rest') :
    (∃ later later', rest = e :: later ∧ rest' = e :: later' ∧ List.Forall₂ Replaces later later') ∨
      (∀ later, rest ≠ e :: later) ∧ ∀ later, rest' ≠ e :: later := by
  cases h with
  | nil => exact .inr ⟨by simp, by simp⟩
  | @cons c d later later' hc hlater =>
    have hiff := hc.eq_iff he
    by_cases heq : c = e
    · exact .inl ⟨later, later', by rw [heq], by rw [hiff.2 heq], hlater⟩
    · refine .inr ⟨?_, ?_⟩
      · rintro _ ⟨⟩
        exact heq rfl
      · rintro _ ⟨⟩
        exact heq (hiff.1 rfl)

theorem equalsPair_replaced (c : Char) (alone together : TokenKind) (h : List.Forall₂ Replaces rest rest') :
    Piece.equalsPair c alone together rest' = Piece.equalsPair c alone together rest := by
  rcases head_replaced (e := '=') (by decide) h with ⟨later, later', rfl, rfl, -⟩ | ⟨hne, hne'⟩
  · rfl
  · simp [Piece.equalsPair]

theorem fraction_replaced (h : List.Forall₂ Replaces rest rest') :
    Piece.fraction rest' = Piece.fraction rest := by
  rcases head_replaced (e := '.') (by decide) h with ⟨later, later', rfl, rfl, hlater⟩ | ⟨hne, hne'⟩
  · exact (takeWhile_replaced (fun _ hc => hc.not_isDigit) (by decide) hlater).1
  · simp [Piece.fraction]

theorem number_replaced (c : Char) (h : List.Forall₂ Replaces rest rest') :
    Piece.number c rest' = Piece.number c rest := by
  obtain ⟨htake, hdrop⟩ := takeWhile_replaced (fun _ hc => hc.not_isDigit) (by decide) h
  unfold Piece.number
  rw [htake, fraction_replaced hdrop]

theorem word_replaced (c : Char) (h : List.Forall₂ Replaces rest rest') :
    Piece.word c rest' = Piece.word c rest := by
  unfold Piece.word
  rw [(takeWhile_replaced (fun _ hc => hc.not_continuesWord) (by decide) h).1]

variable {cs later later' : List Char} {m : Meaning}

theorem slash_replaced (hslash : Piece.slash (cs ++ later) = ⟨'/' :: cs, m⟩)
    (h : List.Forall₂ Replaces later later') : Piece.slash (cs ++ later') = ⟨'/' :: cs, m⟩ := by
  cases cs with
  | nil =>
    rcases head_replaced (e := '/') (by decide) h with ⟨_, _, rfl, rfl, -⟩ | ⟨hne, hne'⟩
    · simp [Piece.slash] at hslash
    · simpa [Piece.slash, hne, hne'] using hslash
  | cons d body =>
    -- the piece is a comment, which ends in front of the next line end or with the source
    obtain rfl : d = '/' := by
      by_contra hd
      simp [Piece.slash, hd] at hslash
    obtain ⟨htext, rfl⟩ := Piece.mk.inj hslash
    have htake : ('/' :: body ++ later).takeWhile (· != '\n') = '/' :: body := (List.cons.inj htext).2
    have hbody : '\n' ∉ body := by
      intro hmem
      have hinside : '\n' ∈ ('/' :: body ++ later).takeWhile (· != '\n') := by
        rw [htake]
        exact List.mem_cons_of_mem _ hmem
      simpa using List.mem_takeWhile_imp hinside
    rw [slash_of_comment hbody]
    rw [slash_of_comment hbody] at hslash
    cases h with
    | nil => exact hslash
    | @cons c _ _ _ hc _ =>
      have hend : c = '\n' := by simpa using congrArg Piece.text hslash
      simp [(hc.eq_iff (by decide)).2 hend]

theorem string_replaced (hstring : Piece.string (cs ++ later) = ⟨'"' :: cs, m⟩)
    (h : List.Forall₂ Replaces later later') : Piece.string (cs ++ later') = ⟨'"' :: cs, m⟩ := by
  by_cases hclosed : '"' ∈ cs ++ later
  · obtain ⟨body, after, hsplit, hbody⟩ := List.eq_append_cons_of_mem hclosed
    rw [hsplit, string_of_closed hbody] at hstring
    obtain ⟨htext, rfl⟩ := Piece.mk.inj hstring
    obtain rfl : cs = body ++ ['"'] := (List.cons.inj htext).2.symm
    rw [List.append_assoc, List.singleton_append, string_of_closed hbody]
    rfl
  · rw [string_of_not_mem hclosed] at hstring
    obtain ⟨htext, rfl⟩ := Piece.mk.inj hstring
    obtain rfl : later = [] := by simpa using htext
    cases h
    rw [string_of_not_mem hclosed, List.append_nil]

/-- A piece that is no stray character stays as it is when stray characters behind it are replaced. -/
theorem first_replaced {c : Char} (hfirst : Piece.first c (cs ++ later) = ⟨c :: cs, m⟩)
    (hm : ∀ d, m ≠ .fault (.unexpected d)) (h : List.Forall₂ Replaces later later') :
    Piece.first c (cs ++ later') = ⟨c :: cs, m⟩ := by
  have hrest : List.Forall₂ Replaces (cs ++ later) (cs ++ later') :=
    List.rel_append (List.forall₂_same.2 fun _ _ => .inl rfl) h
  unfold Piece.first at hfirst ⊢
  split at hfirst
  · exact hfirst
  split at hfirst
  · rw [equalsPair_replaced _ _ _ hrest, hfirst]
  split_ifs at hfirst ⊢ with hl hs hq hd hw
  · exact hfirst
  · subst hs
    exact slash_replaced hfirst h
  · subst hq
    exact string_replaced hfirst h
  · rw [number_replaced c hrest, hfirst]
  · rw [word_replaced c hrest, hfirst]
  · exact absurd (congrArg Piece.meaning hfirst).symm (hm c)

theorem stray_piece {c d : Char} (h : Piece.first c (cs ++ later) = ⟨c :: cs, .fault (.unexpected d)⟩) :
    Stray c ∧ cs = [] := by
  have hstray : Stray c := stray_of_first (congrArg Piece.meaning h)
  rw [hstray] at h
  exact ⟨hstray, (List.cons.inj (congrArg Piece.text h)).2.symm⟩

theorem open_piece {c : Char} (h : Piece.first c (cs ++ later) = ⟨c :: cs, .fault .unterminated⟩) :
    later = [] := by
  have hheaded := first_headed c (cs ++ later)
  rw [h] at hheaded
  cases hheaded with
  | lexeme hlexeme => exact absurd hlexeme not_lexeme_fault
  | unterminated hc hp =>
    subst hc
    simpa using congrArg Piece.text hp
  | unexpected _ hp => cases congrArg Piece.meaning hp

/-! ## Mended pieces -/

/-- A space in place of a stray character, and any other piece as it is. -/
def mendPiece (p : Piece) : Piece :=
  match p.meaning with
  | .fault (.unexpected _) => ⟨[' '], .layout⟩
  | _ => p

theorem mendPiece_of_ne {p : Piece} (h : ∀ c, p.meaning ≠ .fault (.unexpected c)) : mendPiece p = p := by
  unfold mendPiece
  split
  · exact absurd ‹_› (h _)
  · rfl

/-- A source with its stray characters mended. -/
def mendText (source : List Char) : List Char :=
  ((Piece.all source).map mendPiece).flatMap Piece.text

/-- The mended pieces are the pieces of the mended source. -/
theorem all_mendText (source : List Char) :
    List.Forall₂ Replaces source (mendText source) ∧
      Piece.all (mendText source) = (Piece.all source).map mendPiece := by
  induction source using pieces_induction with
  | nil => exact ⟨.nil, rfl⟩
  | piece c cs later m hfirst ih =>
    obtain ⟨hreplaces, hall⟩ := ih
    have htext : mendText (c :: cs ++ later) = (mendPiece ⟨c :: cs, m⟩).text ++ mendText later := by
      rw [mendText, all_of_first hfirst, List.map_cons, List.flatMap_cons, ← mendText]
    rw [htext, all_of_first hfirst, List.map_cons, ← hall]
    by_cases hm : ∃ d, m = .fault (.unexpected d)
    · obtain ⟨d, rfl⟩ := hm
      obtain ⟨hstray, rfl⟩ := stray_piece hfirst
      exact ⟨.cons (.inr ⟨hstray, rfl⟩) hreplaces, all_blank (by decide) _⟩
    · push Not at hm
      rw [mendPiece_of_ne hm]
      constructor
      · exact List.rel_append (List.forall₂_same.2 fun _ _ => .inl rfl) hreplaces
      -- a piece that is kept may look at replaced characters, which are stray ones
      · exact all_of_first (first_replaced hfirst hm hreplaces)

end Lexicon

open Lexicon

/-- What scanning comes to before and after stray characters were replaced: the tokens are the same, the errors of
stray characters come first and are gone, and of the others there is at most that of an unclosed string. -/
structure Recovered (before after : Scan) : Prop where
  tokens : after.tokens = before.tokens
  errors : ∃ strays, before.errors = strays ++ after.errors ∧ ∀ e ∈ strays, ∃ c, e.fault = .unexpected c
  remaining : after.errors = [] ∨ ∃ line, after.errors = [⟨line, .unterminated⟩]

theorem recovered_mendPiece (source : List Char) : ∀ line : Int,
    Recovered (.ofPieces line (Piece.all source)) (.ofPieces line ((Piece.all source).map mendPiece)) := by
  induction source using pieces_induction with
  | nil => exact fun line => ⟨rfl, ⟨[], rfl, by simp⟩, .inl rfl⟩
  | piece c cs later m hfirst ih =>
    intro line
    rw [all_of_first hfirst, List.map_cons]
    obtain ⟨htokens, ⟨strays, herrors, hstrays⟩, hremaining⟩ := ih (line + Piece.lineEnds ⟨c :: cs, m⟩)
    cases m with
    | layout => exact ⟨htokens, ⟨strays, herrors, hstrays⟩, hremaining⟩
    | token kind literal => exact ⟨congrArg (_ :: ·) htokens, ⟨strays, herrors, hstrays⟩, hremaining⟩
    | fault f =>
      cases f with
      | unterminated =>
        obtain rfl := open_piece hfirst
        exact ⟨rfl, ⟨[], rfl, by simp⟩, .inr ⟨line, rfl⟩⟩
      | unexpected d =>
        obtain ⟨hstray, rfl⟩ := stray_piece hfirst
        -- a stray character ends no line, just as the space does not
        have hline : Piece.lineEnds ⟨[c], .fault (.unexpected d)⟩ = Piece.lineEnds ⟨[' '], .layout⟩ := by
          have hne : c ≠ '\n' := fun h => hstray.not_mem_lookedFor (h ▸ by decide)
          simp [Piece.lineEnds, hne]
        rw [hline] at htokens herrors hremaining
        refine ⟨?_, ⟨⟨line, .unexpected d⟩ :: strays, ?_, ?_⟩, hremaining⟩
        · simpa [Scan.ofPieces, mendPiece, hline] using htokens
        · simpa [Scan.ofPieces, mendPiece, hline] using herrors
        · simpa using hstrays

/-! ## Mended runes -/

namespace Lexicon

/-- The rune at a place is reported as an unexpected character: one of the errors says so, and starts there. -/
def Reported (runes : List Int) (place : Nat) : Prop :=
  ∃ i e c before, (scan (shown runes)).errors[i]? = some e ∧ e.fault = .unexpected c ∧
    FaultStarts runes i before ∧ before.length = place

/-- Runes with a space in place of each one that is reported as an unexpected character. -/
structure Mended (runes mended : List Int) : Prop where
  reported : ∀ place, Reported runes place → mended[place]? = some 32
  other : ∀ place, ¬ Reported runes place → mended[place]? = runes[place]?

theorem Mended.unique {runes mended mended' : List Int} (h : Mended runes mended) (h' : Mended runes mended') :
    mended' = mended := by
  apply List.ext_getElem?
  intro place
  by_cases hplace : Reported runes place
  · rw [h.reported place hplace, h'.reported place hplace]
  · rw [h.other place hplace, h'.other place hplace]

/-- A stray cut stands at a place among others. -/
def StrayAt (cuts : List Cut) (place : Nat) : Prop :=
  ∃ earlier c later d, cuts = earlier ++ c :: later ∧ c.meaning = .fault (.unexpected d) ∧
    (earlier.flatMap Cut.runes).length = place

theorem error_of_cut {c : Cut} {f : LexicalFault} (hc : c.meaning = .fault f) (later : List Cut) :
    ∀ (earlier : List Cut) (line : Int), ∃ e, e.fault = f ∧
      (Scan.ofPieces line ((earlier ++ c :: later).map Cut.piece)).errors[earlier.countP Cut.isFault]? = some e
  | [], line => ⟨⟨line, f⟩, rfl, by simp [Scan.ofPieces, Cut.piece, hc]⟩
  | d :: earlier, line => by
    obtain ⟨e, hfault, he⟩ := error_of_cut hc later earlier (line + d.piece.lineEnds)
    refine ⟨e, hfault, ?_⟩
    obtain ⟨runes, meaning⟩ := d
    cases meaning <;> simpa [Scan.ofPieces, Cut.piece, List.countP_cons, Cut.isFault] using he

theorem reported_iff {runes : List Int} {cuts : List Cut} (h : LongestMatch runes cuts) (place : Nat) :
    Reported runes place ↔ StrayAt cuts place := by
  have hscan : scan (shown runes) = .ofPieces (lineAfter []) (cuts.map Cut.piece) := by
    obtain ⟨cuts', hcuts, hscan⟩ := exists_cuts runes
    rw [hscan, h.unique hcuts]
  constructor
  · rintro ⟨i, e, c, before, he, hfault, hstarts, rfl⟩
    rw [hscan] at he
    obtain ⟨earlier, cut, later, rfl, hcut, rfl, -⟩ := errorOf_cuts cuts [] i e he
    have hstarts' := FaultStarts.intro h (by simp [Cut.isFault, hcut])
    rw [hstarts'.unique hstarts]
    exact ⟨earlier, cut, later, c, rfl, by rw [hcut, hfault], rfl⟩
  · rintro ⟨earlier, cut, later, c, rfl, hcut, rfl⟩
    obtain ⟨e, hfault, he⟩ := error_of_cut hcut later earlier (lineAfter [])
    exact ⟨_, e, c, _, by rw [hscan, he], hfault, .intro h (by simp [Cut.isFault, hcut]), rfl⟩

/-- The runes of a cut, or a space if it is stray. -/
def Cut.mended (c : Cut) : List Int :=
  match c.meaning with
  | .fault (.unexpected _) => [32]
  | _ => c.runes

theorem shown_mended (c : Cut) : shown c.mended = (mendPiece c.piece).text := by
  obtain ⟨runes, meaning⟩ := c
  cases meaning with
  | layout | token => rfl
  | fault f => cases f <;> rfl

theorem LongestMatch.stray_runes {runes : List Int} {cuts : List Cut} (h : LongestMatch runes cuts) :
    ∀ c ∈ cuts, ∀ d, c.meaning = .fault (.unexpected d) → c.runes.length = 1 := by
  induction h with
  | done => simp
  | @lexeme w rest m cuts hl _ _ ih =>
    intro c hc d hd
    rcases List.mem_cons.1 hc with rfl | hc
    · obtain rfl : m = Meaning.fault (.unexpected d) := hd
      exact absurd hl not_lexeme_fault
    · exact ih c hc d hd
  | unterminated _ =>
    intro c hc d hd
    obtain rfl := List.mem_singleton.1 hc
    cases hd
  | unexpected _ _ _ ih =>
    intro c hc d hd
    rcases List.mem_cons.1 hc with rfl | hc
    · rfl
    · exact ih c hc d hd

theorem length_mended {c : Cut} (h : ∀ d, c.meaning = .fault (.unexpected d) → c.runes.length = 1) :
    c.mended.length = c.runes.length := by
  unfold Cut.mended
  split
  · rw [h _ ‹_›]
    rfl
  · rfl

theorem strayAt_cons {c : Cut} {cuts : List Cut} {place : Nat} : StrayAt (c :: cuts) place ↔
    (place = 0 ∧ ∃ d, c.meaning = .fault (.unexpected d)) ∨
      c.runes.length ≤ place ∧ StrayAt cuts (place - c.runes.length) := by
  constructor
  · rintro ⟨earlier, cut, later, d, hcuts, hcut, rfl⟩
    cases earlier with
    | nil =>
      obtain ⟨rfl, -⟩ := List.cons.inj hcuts
      exact .inl ⟨rfl, d, hcut⟩
    | cons _ earlier =>
      obtain ⟨rfl, rfl⟩ := List.cons.inj hcuts
      exact .inr ⟨by simp, earlier, cut, later, d, rfl, hcut, by simp⟩
  · rintro (⟨rfl, d, hd⟩ | ⟨hle, earlier, cut, later, d, rfl, hcut, hplace⟩)
    · exact ⟨[], c, cuts, d, rfl, hd, rfl⟩
    · refine ⟨c :: earlier, cut, later, d, rfl, hcut, ?_⟩
      rw [List.flatMap_cons, List.length_append]
      omega

theorem getElem?_mended : ∀ (cuts : List Cut) (place : Nat),
    (∀ c ∈ cuts, ∀ d, c.meaning = .fault (.unexpected d) → c.runes.length = 1) →
    (StrayAt cuts place → (cuts.flatMap Cut.mended)[place]? = some 32) ∧
    (¬ StrayAt cuts place → (cuts.flatMap Cut.mended)[place]? = (cuts.flatMap Cut.runes)[place]?)
  | [], place, _ => ⟨fun ⟨earlier, c, later, d, h, _⟩ => by simp at h, fun _ => rfl⟩
  | c :: cuts, place, h => by
    have hone := h c List.mem_cons_self
    have hlength := length_mended hone
    obtain ⟨hstray, hother⟩ := getElem?_mended cuts (place - c.runes.length) fun q hq =>
      h q (List.mem_cons_of_mem _ hq)
    rw [List.flatMap_cons, List.flatMap_cons, strayAt_cons]
    by_cases hplace : c.runes.length ≤ place
    · rw [List.getElem?_append_right (by omega), List.getElem?_append_right hplace, hlength]
      constructor
      · rintro (⟨rfl, d, hd⟩ | ⟨-, hat⟩)
        · have := hone d hd
          omega
        · exact hstray hat
      · exact fun hat => hother fun hat' => hat (.inr ⟨hplace, hat'⟩)
    · rw [List.getElem?_append_left (by omega), List.getElem?_append_left (by omega)]
      constructor
      · rintro (⟨rfl, d, hd⟩ | ⟨hle, -⟩)
        · simp [Cut.mended, hd]
        · exact absurd hle hplace
      · intro hat
        unfold Cut.mended
        split
        · rename_i d hd
          have := hone d hd
          exact absurd (.inl ⟨by omega, d, hd⟩) hat
        · rfl

end Lexicon

/-- Recovery from stray characters, for every sequence of runes. With a space in place of each rune that is
reported as an unexpected character, the tokens are the same, with their kinds, lexemes, literals and lines. The
errors of the runes are those of stray characters and then those that are left: none, or the one of an unclosed
string. -/
theorem scan_recovers (s : List Int) : ∃ s', Mended s s' ∧ (∀ t, Mended s t → t = s') ∧
    Recovered (scan (shown s)) (scan (shown s')) := by
  obtain ⟨cuts, hcuts, hpieces⟩ := longestMatch_upTo s.length s (Nat.le_refl _)
  have hall : Piece.all (shown s) = cuts.map Cut.piece := by
    rw [hpieces, Piece.all, shown_length]
  have hmended : Mended s (cuts.flatMap Cut.mended) := by
    constructor
    · intro place hplace
      rw [reported_iff hcuts] at hplace
      exact (getElem?_mended cuts place hcuts.stray_runes).1 hplace
    · intro place hplace
      rw [reported_iff hcuts] at hplace
      rw [(getElem?_mended cuts place hcuts.stray_runes).2 hplace, hcuts.flatMap_runes]
  have hshown : shown (cuts.flatMap Cut.mended) = mendText (shown s) := by
    rw [mendText, hall, shown, List.map_flatMap]
    simp only [List.flatMap_map]
    exact List.flatMap_congr fun c _ => shown_mended c
  refine ⟨_, hmended, fun t ht => hmended.unique ht, ?_⟩
  rw [hshown, scan, scan, (all_mendText (shown s)).2]
  exact recovered_mendPiece (shown s) 1

end Reckoner
