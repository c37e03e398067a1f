/-
Pieces and words. A piece is what stands between two separators, and a word is a stretch without blanks
between blanks. Both are said here by how a text is put together, and cutting a text gives just these.
Blanks at the ends change no word.
-/
import Reckoner.Text.Blank
import Mathlib.Data.List.Forall2
import Mathlib.Data.List.TakeWhile

namespace Reckoner

namespace Text

/-! ## Between separators -/

/-- A stretch between two separators, or between one of them and an end. -/
def Between (sep : Char) (cs piece : List Char) : Prop :=
  ∃ before behind, cs = before ++ (piece ++ behind) ∧ sep ∉ piece ∧
    (∀ c ∈ before.getLast?, c = sep) ∧ ∀ c ∈ behind.head?, c = sep

theorem splitAt_eq_splitOn (sep : Char) (cs : List Char) : splitAt sep cs = cs.splitOn sep := by
  induction cs with
  | nil => rfl
  | cons c cs ih =>
    unfold splitAt
    rw [ih, List.splitOn_cons_eq_if_modifyHead]
    by_cases h : c = sep
    · simp [h]
    · obtain ⟨piece, pieces, hpieces⟩ := List.exists_cons_of_ne_nil (List.splitOn_ne_nil sep cs)
      simp [h, hpieces]

theorem splitAt_ne_nil (sep : Char) (cs : List Char) : splitAt sep cs ≠ [] := by
  rw [splitAt_eq_splitOn]
  exact List.splitOn_ne_nil sep cs

theorem splitAt_of_not_mem {sep : Char} {cs : List Char} (h : sep ∉ cs) : splitAt sep cs = [cs] := by
  rw [splitAt_eq_splitOn, List.splitOn_eq_singleton h]

theorem splitAt_append {sep : Char} {cs : List Char} (h : sep ∉ cs) (ds : List Char) :
    splitAt sep (cs ++ sep :: ds) = cs :: splitAt sep ds := by
  rw [splitAt_eq_splitOn, splitAt_eq_splitOn, List.splitOn_append_cons_self_of_not_mem h]

/-- The first stretch reaches to the first separator or to the end. -/
theorem splitAt_cons_iff {sep : Char} {cs piece : List Char} {pieces : List (List Char)} :
    splitAt sep cs = piece :: pieces ↔
      sep ∉ piece ∧ (cs = piece ∧ pieces = [] ∨ ∃ rest, cs = piece ++ sep :: rest ∧ splitAt sep rest = pieces) := by
  by_cases h : sep ∈ cs
  · obtain ⟨first, rest, rfl, hfirst⟩ := List.eq_append_cons_of_mem h
    rw [splitAt_append hfirst]
    constructor
    · rintro h
      obtain ⟨rfl, rfl⟩ := List.cons.inj h
      exact ⟨hfirst, .inr ⟨rest, rfl, rfl⟩⟩
    · rintro ⟨hpiece, ⟨rfl, rfl⟩ | ⟨rest', hcs, rfl⟩⟩
      · exact absurd h hpiece
      · have := congrArg (splitAt sep) hcs
        rwa [splitAt_append hfirst, splitAt_append hpiece] at this
  · rw [splitAt_of_not_mem h]
    constructor
    · rintro h'
      obtain ⟨rfl, rfl⟩ := List.cons.inj h'
      exact ⟨h, .inl ⟨rfl, rfl⟩⟩
    · rintro ⟨-, ⟨rfl, rfl⟩ | ⟨rest, rfl, -⟩⟩
      · rfl
      · simp at h

theorem eq_nil_of_getLast? {sep : Char} {cs : List Char} (h : sep ∉ cs) (hlast : ∀ c ∈ cs.getLast?, c = sep) :
    cs = [] := by
  by_contra hne
  have := hlast _ (List.getLast?_eq_some_getLast hne)
  exact h (this ▸ List.getLast_mem hne)

theorem between_of_append {sep : Char} {cs piece : List Char} (h : Between sep cs piece) (first : List Char) :
    Between sep (first ++ sep :: cs) piece := by
  obtain ⟨before, behind, rfl, hpiece, hbefore, hbehind⟩ := h
  refine ⟨first ++ sep :: before, behind, by simp, hpiece, ?_, hbehind⟩
  intro c hc
  rw [List.getLast?_append_cons] at hc
  cases before with
  | nil => simpa [eq_comm] using hc
  | cons b before =>
    rw [List.getLast?_cons_cons] at hc
    exact hbefore c hc

/-- A stretch is the first one, or it is one of what follows the first separator. -/
theorem between_append_iff {sep : Char} {first : List Char} (hfirst : sep ∉ first) (cs piece : List Char) :
    Between sep (first ++ sep :: cs) piece ↔ piece = first ∨ Between sep cs piece := by
  constructor
  · rintro ⟨before, behind, hcs, hpiece, hbefore, hbehind⟩
    obtain ⟨more, rfl, hmore⟩ | ⟨more, rfl, hmore⟩ := List.append_eq_append_iff.1 hcs
    · cases more with
      | nil =>
        rw [List.append_nil] at hbefore
        cases piece with
        | nil => exact .inl (eq_nil_of_getLast? hfirst hbefore).symm
        | cons c piece => exact absurd (List.cons.inj hmore).1 (by grind)
      | cons c more =>
        obtain ⟨rfl, rfl⟩ := List.cons.inj hmore
        refine .inr ⟨more, behind, rfl, hpiece, fun c hc => hbefore c ?_, hbehind⟩
        rw [List.getLast?_append_cons]
        cases more with
        | nil => simp at hc
        | cons => rwa [List.getLast?_cons_cons]
    · have hnil : before = [] := eq_nil_of_getLast? (fun h => hfirst (List.mem_append_left _ h)) hbefore
      rw [hnil, List.nil_append] at hfirst ⊢
      left
      obtain ⟨tail, rfl, htail⟩ | ⟨tail, rfl, htail⟩ := List.append_eq_append_iff.1 hmore
      · cases tail with
        | nil => simp
        | cons c tail =>
          subst htail
          exact absurd (hbehind c rfl) (by grind)
      · cases tail with
        | nil => simp
        | cons c tail => exact absurd (List.cons.inj htail).1 (by grind)
  · rintro (rfl | h)
    · exact ⟨[], sep :: cs, rfl, hfirst, by simp, by simp⟩
    · exact between_of_append h first

theorem between_iff_of_not_mem {sep : Char} {cs : List Char} (h : sep ∉ cs) (piece : List Char) :
    Between sep cs piece ↔ piece = cs := by
  constructor
  · rintro ⟨before, behind, rfl, -, hbefore, hbehind⟩
    simp only [List.mem_append, not_or] at h
    have hnil : before = [] := eq_nil_of_getLast? h.1 hbefore
    have hnil' : behind = [] := by
      cases behind with
      | nil => rfl
      | cons c behind =>
        have := hbehind c rfl
        subst this
        simp at h
    simp [hnil, hnil']
  · rintro rfl
    exact ⟨[], [], by simp, h, by simp, by simp⟩

/-- The pieces at a separator are the stretches between two of them. -/
theorem mem_splitAt_iff {sep : Char} {cs piece : List Char} :
    piece ∈ splitAt sep cs ↔ Between sep cs piece := by
  induction hn : cs.length using Nat.strong_induction_on generalizing cs with
  | _ n ih =>
    by_cases h : sep ∈ cs
    · obtain ⟨first, rest, rfl, hfirst⟩ := List.eq_append_cons_of_mem h
      rw [splitAt_append hfirst, List.mem_cons, between_append_iff hfirst,
        ih rest.length (by subst hn; simp; omega) rfl]
    · rw [splitAt_of_not_mem h, List.mem_singleton, between_iff_of_not_mem h]

/-! ## Words -/

/-- Characters that are all blank. -/
def Blank (cs : List Char) : Prop :=
  ∀ c ∈ cs, isBlank c = true

instance (cs : List Char) : Decidable (Blank cs) :=
  decidable_of_iff (cs.all isBlank = true) List.all_eq_true

/-- A word: some characters, none of which is blank. -/
def IsWord (cs : List Char) : Prop :=
  cs ≠ [] ∧ ∀ c ∈ cs, isBlank c = false

/-- Some characters begin with two words: there are blanks between them, there may be blanks before them, and
whatever follows them begins with a blank. -/
def BeginsWith (cs first second : List Char) : Prop :=
  ∃ pad gap rest, cs = pad ++ (first ++ (gap ++ (second ++ rest))) ∧ Blank pad ∧ IsWord first ∧ Blank gap ∧
    gap ≠ [] ∧ IsWord second ∧ ∀ c ∈ rest.head?, isBlank c = true

theorem wordsFrom_append {w : List Char} (hw : ∀ c ∈ w, isBlank c = false) (begun rest : List Char) :
    wordsFrom begun (w ++ rest) = wordsFrom (begun ++ w) rest := by
  induction w generalizing begun with
  | nil => simp
  | cons c w ih =>
    rw [List.cons_append, wordsFrom, hw c (List.mem_cons_self ..), if_neg Bool.false_ne_true,
      ih (fun x hx => hw x (List.mem_cons_of_mem _ hx)), List.append_assoc, List.singleton_append]

theorem words_append_blank {pad : List Char} (hpad : Blank pad) (cs : List Char) : words (pad ++ cs) = words cs := by
  unfold words
  induction pad with
  | nil => rfl
  | cons c pad ih =>
    rw [List.cons_append, wordsFrom, if_pos (hpad c (List.mem_cons_self ..)), if_pos rfl,
      ih fun x hx => hpad x (List.mem_cons_of_mem _ hx)]

/-- A word that nothing or a blank follows is the first one. -/
theorem words_append_word {w rest : List Char} (hw : IsWord w) (hrest : ∀ c ∈ rest.head?, isBlank c = true) :
    words (w ++ rest) = w :: words rest := by
  rw [words, wordsFrom_append hw.2, List.nil_append]
  cases rest with
  | nil => simp [wordsFrom, words, hw.1]
  | cons c rest => simp [wordsFrom, words, hw.1, hrest c rfl]

/-- The words are taken from the front: blanks, and then a word that nothing or a blank follows. -/
theorem words_cases (cs : List Char) :
    words cs = [] ∧ Blank cs ∨
      ∃ pad w rest, cs = pad ++ (w ++ rest) ∧ Blank pad ∧ IsWord w ∧ (∀ c ∈ rest.head?, isBlank c = true) ∧
        words cs = w :: words rest := by
  have hpad : Blank (cs.takeWhile isBlank) := fun c hc => List.mem_takeWhile_imp hc
  have hcs : cs.takeWhile isBlank ++ cs.dropWhile isBlank = cs := List.takeWhile_append_dropWhile
  cases hrest : cs.dropWhile isBlank with
  | nil =>
    rw [hrest, List.append_nil] at hcs
    rw [hcs] at hpad
    refine .inl ⟨?_, hpad⟩
    rw [← List.append_nil cs, words_append_blank hpad]
    rfl
  | cons c tail =>
    have hc : isBlank c = false := by
      have := List.head?_dropWhile_not isBlank cs
      simpa [hrest] using this
    have htail : tail.takeWhile (!isBlank ·) ++ tail.dropWhile (!isBlank ·) = tail :=
      List.takeWhile_append_dropWhile
    have hw : IsWord (c :: tail.takeWhile (!isBlank ·)) := by
      refine ⟨List.cons_ne_nil _ _, fun x hx => ?_⟩
      rcases List.mem_cons.1 hx with rfl | hx
      · exact hc
      · simpa using List.mem_takeWhile_imp hx
    have hafter : ∀ x ∈ (tail.dropWhile (!isBlank ·)).head?, isBlank x = true := by
      intro x hx
      have := List.head?_dropWhile_not (!isBlank ·) tail
      rw [Option.mem_def.1 hx] at this
      simpa using this
    have hsplit : cs = cs.takeWhile isBlank ++ (c :: tail.takeWhile (!isBlank ·) ++ tail.dropWhile (!isBlank ·)) := by
      rw [List.cons_append, htail, ← hrest, hcs]
    refine .inr ⟨_, _, _, hsplit, hpad, hw, hafter, ?_⟩
    exact (congrArg words hsplit).trans (by rw [words_append_blank hpad, words_append_word hw hafter])

theorem beginsWith_iff {cs first second : List Char} :
    (∃ rest, words cs = first :: second :: rest) ↔ BeginsWith cs first second := by
  constructor
  · rintro ⟨rest, hwords⟩
    obtain ⟨h, -⟩ | ⟨pad, w, behind, rfl, hpad, hw, hbehind, h⟩ := words_cases cs
    · rw [h] at hwords
      cases hwords
    rw [h, List.cons.injEq] at hwords
    obtain ⟨rfl, hwords⟩ := hwords
    obtain ⟨h, -⟩ | ⟨gap, w', rest', rfl, hgap, hw', hrest, h⟩ := words_cases behind
    · rw [h] at hwords
      cases hwords
    rw [h, List.cons.injEq] at hwords
    obtain ⟨rfl, -⟩ := hwords
    refine ⟨pad, gap, rest', rfl, hpad, hw, hgap, ?_, hw', hrest⟩
    rintro rfl
    -- without a gap the second word would begin with a blank
    obtain ⟨c, tail, rfl⟩ := List.exists_cons_of_ne_nil hw'.1
    have := hw'.2 c (List.mem_cons_self ..)
    have := hbehind c rfl
    simp_all
  · rintro ⟨pad, gap, rest, rfl, hpad, hfirst, hgap, hne, hsecond, hrest⟩
    refine ⟨words rest, ?_⟩
    have hafter : ∀ c ∈ (gap ++ (second ++ rest)).head?, isBlank c = true := by
      obtain ⟨c, tail, rfl⟩ := List.exists_cons_of_ne_nil hne
      simpa using hgap c (List.mem_cons_self ..)
    rw [words_append_blank hpad, words_append_word hfirst hafter, words_append_blank hgap,
      words_append_word hsecond hrest]

/-- Blanks at the end add no word. -/
theorem words_blank_end (cs : List Char) {pad : List Char} (hpad : Blank pad) : words (cs ++ pad) = words cs := by
  induction hn : cs.length using Nat.strong_induction_on generalizing cs with
  | _ n ih =>
    obtain ⟨h, hblank⟩ | ⟨front, w, rest, rfl, hfront, hw, hrest, h⟩ := words_cases cs
    · rw [words_append_blank hblank, h, ← List.append_nil pad, words_append_blank hpad]
      rfl
    · have hafter : ∀ c ∈ (rest ++ pad).head?, isBlank c = true := by
        cases rest with
        | nil => exact fun c hc => hpad c (List.mem_of_head? hc)
        | cons => exact hrest
      have hshort : rest.length < n := by
        have := List.length_pos_of_ne_nil hw.1
        simp only [← hn, List.length_append]
        omega
      rw [h, List.append_assoc, List.append_assoc, words_append_blank hfront, words_append_word hw hafter,
        ih _ hshort rest rfl]

/-! ## Trimming -/

theorem exists_trimChars (cs : List Char) :
    ∃ pad behind, cs = pad ++ (trimChars cs ++ behind) ∧ Blank pad ∧ Blank behind := by
  refine ⟨cs.takeWhile isBlank, ((cs.dropWhile isBlank).reverse.takeWhile isBlank).reverse, ?_,
    fun c hc => List.mem_takeWhile_imp hc, fun c hc => List.mem_takeWhile_imp (List.mem_reverse.1 hc)⟩
  rw [trimChars, ← List.reverse_append, List.takeWhile_append_dropWhile, List.reverse_reverse,
    List.takeWhile_append_dropWhile]

theorem dropWhile_word {w : List Char} (hw : IsWord w) (rest : List Char) :
    (w ++ rest).dropWhile isBlank = w ++ rest := by
  obtain ⟨c, tail, rfl⟩ := List.exists_cons_of_ne_nil hw.1
  rw [List.cons_append, List.dropWhile_cons, hw.2 c (List.mem_cons_self ..), if_neg Bool.false_ne_true]

/-- A word is what trimming leaves of it with blanks around it. -/
theorem trimChars_word {pad w behind : List Char} (hpad : Blank pad) (hw : IsWord w) (hbehind : Blank behind) :
    trimChars (pad ++ (w ++ behind)) = w := by
  have hreverse : IsWord w.reverse := by
    refine ⟨by simpa using hw.1, fun c hc => hw.2 c (List.mem_reverse.1 hc)⟩
  have hback : Blank behind.reverse := fun c hc => hbehind c (List.mem_reverse.1 hc)
  rw [trimChars, List.dropWhile_append_of_pos hpad, dropWhile_word hw, List.reverse_append,
    List.dropWhile_append_of_pos hback, ← List.append_nil w.reverse, dropWhile_word hreverse, List.append_nil,
    List.reverse_reverse]

/-! ## Blanks at the ends of pieces -/

theorem map_words_blank_front {sep : Char} {pad : List Char} (hpad : Blank pad) (hsep : sep ∉ pad) (cs : List Char) :
    (splitAt sep (pad ++ cs)).map words = (splitAt sep cs).map words := by
  by_cases h : sep ∈ cs
  · obtain ⟨first, rest, rfl, hfirst⟩ := List.eq_append_cons_of_mem h
    rw [← List.append_assoc, splitAt_append (by simp [hsep, hfirst]), splitAt_append hfirst, List.map_cons,
      List.map_cons, words_append_blank hpad]
  · rw [splitAt_of_not_mem (by simp [hsep, h]), splitAt_of_not_mem h, List.map_singleton, List.map_singleton,
      words_append_blank hpad]

theorem map_words_blank_end {sep : Char} {pad : List Char} (hpad : Blank pad) (hsep : sep ∉ pad) (cs : List Char) :
    (splitAt sep (cs ++ pad)).map words = (splitAt sep cs).map words := by
  induction hn : cs.length using Nat.strong_induction_on generalizing cs with
  | _ n ih =>
    by_cases h : sep ∈ cs
    · obtain ⟨first, rest, rfl, hfirst⟩ := List.eq_append_cons_of_mem h
      rw [List.append_assoc, List.cons_append, splitAt_append hfirst, splitAt_append hfirst, List.map_cons,
        List.map_cons, ih rest.length (by subst hn; simp; omega) rest rfl]
    · rw [splitAt_of_not_mem (by simp [hsep, h]), splitAt_of_not_mem h, List.map_singleton, List.map_singleton,
        words_blank_end cs hpad]

/-- Trimming before a cut changes no word, unless the separator is itself a blank. -/
theorem map_words_trimChars {sep : Char} (hsep : isBlank sep = false) (cs : List Char) :
    (splitAt sep (trimChars cs)).map words = (splitAt sep cs).map words := by
  obtain ⟨pad, behind, hcs, hpad, hbehind⟩ := exists_trimChars cs
  have hno : ∀ blanks, Blank blanks → sep ∉ blanks := fun blanks h hmem => by simp [h sep hmem] at hsep
  rw [congrArg (splitAt sep) hcs, map_words_blank_front hpad (hno _ hpad), map_words_blank_end hbehind (hno _ hbehind)]

end Text

end Reckoner
