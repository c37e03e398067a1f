/-
The parts of a source that the fields of a plan give. Whatever the places of the tokens, the text of a struct has
a line for each field, with its name and its type between blanks, and the lists of parameters and of arguments
stand on one line.
-/
import Reckoner.Proofs.Nodes.Tokens

namespace Reckoner.Nodes

/-! ## Pieces on one line -/

/-- A piece that stays on its line and in its cell. -/
def Piece.isFlat : Piece → Bool
  | .word _ _ _ _ => true
  | .space s => s = .nothing || s = .blank || s = .indent || s = .unindent

/-- The text of a piece that stays on its line. -/
def Piece.flatText : Piece → List Char
  | .word text _ _ _ => text.toList
  | .space s => if s = .blank then [' '] else []

namespace Piece.Page

theorem add_flat {p : Page} (hp : p.fresh = false) {piece : Piece} (hpiece : piece.isFlat = true) :
    ∃ n, p.add piece = { p with rest := p.rest ++ String.ofList piece.flatText, indentation := n } := by
  obtain ⟨lines, rows, cells, rest, fresh, indentation⟩ := p
  cases hp
  cases piece with
  | word text spot ends manner => exact ⟨indentation, by simp [add, write, flatText]⟩
  | space s =>
    cases s with
    | nothing => exact ⟨indentation, by simp [add, space, flatText]⟩
    | blank => exact ⟨indentation, by simp [add, space, flatText]⟩
    | indent => exact ⟨indentation + 1, by simp [add, space, flatText]⟩
    | unindent => exact ⟨indentation - 1, by simp [add, space, flatText]⟩
    | column => cases hpiece
    | tab => cases hpiece
    | newline => cases hpiece
    | block => cases hpiece

/-- Flat pieces on a line that has been begun only add their texts. -/
theorem foldl_flat {p : Page} (hp : p.fresh = false) {pieces : List Piece}
    (hpieces : ∀ piece ∈ pieces, piece.isFlat = true) :
    ∃ n, pieces.foldl add p =
      { p with rest := p.rest ++ String.ofList (pieces.flatMap flatText), indentation := n } := by
  induction pieces generalizing p with
  | nil => exact ⟨p.indentation, by simp⟩
  | cons piece pieces ih =>
    rw [List.forall_mem_cons] at hpieces
    obtain ⟨n, hadd⟩ := add_flat hp hpieces.1
    have hfresh : (p.add piece).fresh = false := by rw [hadd]; exact hp
    obtain ⟨m, hrest⟩ := ih hfresh hpieces.2
    refine ⟨m, ?_⟩
    rw [List.foldl_cons, hrest, hadd]
    simp [String.append_assoc]

end Piece.Page

/-- Pieces that stay on their line, with their text. -/
def Flat (pieces : List Piece) (text : List Char) : Prop :=
  (∀ piece ∈ pieces, piece.isFlat = true) ∧ pieces.flatMap Piece.flatText = text

theorem Flat.append {pieces pieces' : List Piece} {text text' : List Char} (h : Flat pieces text)
    (h' : Flat pieces' text') : Flat (pieces ++ pieces') (text ++ text') := by
  refine ⟨?_, by rw [List.flatMap_append, h.2, h'.2]⟩
  intro piece hpiece
  exact (List.mem_append.1 hpiece).elim (h.1 piece) (h'.1 piece)

theorem Flat.cons {piece : Piece} (hpiece : piece.isFlat = true) {pieces : List Piece} {text : List Char}
    (h : Flat pieces text) : Flat (piece :: pieces) (piece.flatText ++ text) :=
  ⟨List.forall_mem_cons.2 ⟨hpiece, h.1⟩, by rw [List.flatMap_cons, h.2]⟩

theorem flat_nil : Flat [] [] :=
  ⟨by simp, rfl⟩

/-- A text that does not end in a blank loses nothing at its end. -/
theorem trimmed_eq {s : String} (front : List Char) (c : Char) (hs : s.toList = front ++ [c])
    (hc : c ≠ ' ' ∧ c ≠ '\t') : Text.Row.trimmed s = s := by
  have hblank : ((c == ' ') || (c == '\t')) = false := by simp [hc.1, hc.2]
  rw [Text.Row.trimmed, hs, List.reverse_append, List.reverse_singleton, List.singleton_append, List.dropWhile_cons,
    hblank, if_neg Bool.false_ne_true, List.reverse_cons, List.reverse_reverse, ← hs, String.ofList_toList]

theorem lines_singleton {s : String} (front : List Char) (c : Char) (hs : s.toList = front ++ [c])
    (hc : c ≠ ' ' ∧ c ≠ '\t') : Text.Row.lines [⟨[], s⟩] = [s] := by
  simp [Text.Row.lines, Text.Row.filled, trimmed_eq front c hs hc]

theorem Flat.text {pieces : List Piece} {front : List Char} {c : Char} (h : Flat pieces (front ++ [c]))
    (hc : c ≠ ' ' ∧ c ≠ '\t') (n : Nat) : (Piece.text n pieces).toList = front ++ [c] := by
  obtain ⟨m, hfold⟩ := Piece.Page.foldl_flat (p := .begun n) rfl h.1
  have htext : (String.ofList (pieces.flatMap Piece.flatText)).toList = front ++ [c] := by
    rw [String.toList_ofList, h.2]
  rw [Piece.text, hfold, ← htext]
  simp [Piece.Page.text, Piece.Page.endLine, Piece.Page.endBlock, Piece.Page.begun, lines_singleton front c htext hc]

/-! ## Pieces of plans -/

theorem flat_typeTerm (layers : List Layer) (base : String) (spot : Spot) (bare : Bool) (depth : Nat) :
    Flat ((typeTerm spot layers base).pieces [] bare depth) (layers.flatMap Layer.chars ++ base.toList) := by
  induction layers generalizing spot bare depth with
  | nil => exact ⟨by simp [typeTerm, Term.pieces, Piece.ofWord, Piece.isFlat],
      by simp [typeTerm, Term.pieces, Piece.ofWord, Piece.flatText]⟩
  | cons layer layers ih =>
    cases layer with
    | pointer =>
      rw [typeTerm, Term.pieces]
      exact .cons rfl (ih (spot.shift 1) false 1)
    | slice =>
      rw [typeTerm, Term.pieces]
      exact .cons rfl (.cons rfl (ih ((spot.shift 1).shift 1) false 1))

/-- The member that stands for a field, wherever it is: a name and the type. -/
def IsMember (name : FieldPlan → String) (f : FieldPlan) (m : Member) : Prop :=
  ∃ spot, m = .mk [⟨name f, spot⟩] (typeTerm (spot.shift ((name f).length + 1)) f.layers f.base.text) none false

/-- A name and a type on one line. -/
def pairChars (name : FieldPlan → String) (f : FieldPlan) : List Char :=
  (name f).toList ++ ' ' :: f.typeChars

variable {name : FieldPlan → String} {fs : List FieldPlan}

theorem flat_parameterPieces {f : FieldPlan} {m : Member} (h : IsMember name f m) :
    Flat (m.parameterPieces []) (pairChars name f) := by
  obtain ⟨spot, rfl⟩ := h
  have htype := flat_typeTerm f.layers f.base.text (spot.shift ((name f).length + 1)) true 1
  rw [Member.parameterPieces]
  exact .cons rfl (.cons rfl htype)

theorem flat_listed {texts : List (List Char)} {parts : List (Spot × List Piece)}
    (h : List.Forall₂ (fun text part => Flat part.2 text) texts parts) :
    Flat (listed parts) (List.intercalate [',', ' '] texts) := by
  induction h with
  | nil => exact flat_nil
  | cons hpart hparts ih =>
    cases hparts with
    | nil => simpa [listed] using hpart
    | cons =>
      rw [listed, List.intercalate_cons_cons, List.append_assoc]
      exact hpart.append (.cons rfl (.cons rfl ih))

theorem text_parameterList {ms : List Member} (h : List.Forall₂ (IsMember name) fs ms) (opening closing : Spot) :
    (Piece.text 0 (parameterListPieces [] opening closing ms)).toList =
      '(' :: List.intercalate [',', ' '] (fs.map (pairChars name)) ++ [')'] := by
  have hparts : List.Forall₂ (fun text part => Flat part.2 text) (fs.map (pairChars name))
      (ms.map fun m => (m.spot, m.parameterPieces [])) := by
    rw [List.forall₂_map_left_iff, List.forall₂_map_right_iff]
    exact h.imp fun f m hm => flat_parameterPieces hm
  have hlast : Flat [Piece.sign ")" (some closing)] [')'] := .cons rfl flat_nil
  exact Flat.text ((Flat.cons rfl (flat_listed hparts)).append hlast) (by decide) 0

theorem Flat.withManner {pieces : List Piece} {text : List Char} (h : Flat pieces text) (change : Manner → Manner) :
    Flat (pieces.map (Piece.withManner change)) text := by
  have hflat : ∀ piece, (Piece.withManner change piece).isFlat = piece.isFlat := by rintro (_ | _) <;> rfl
  have htext : ∀ piece, (Piece.withManner change piece).flatText = piece.flatText := by rintro (_ | _) <;> rfl
  constructor
  · simpa [hflat] using h.1
  · simpa [List.flatMap_map, htext] using h.2

theorem text_argumentList {ts : List Term} (h : List.Forall₂ (fun f t => ∃ spot, t = .name ⟨name f, spot⟩) fs ts)
    (opening closing : Spot) :
    (Piece.text 1 (argumentListPieces [] opening closing ts)).toList =
      '\x7b' :: List.intercalate [',', ' '] (fs.map fun f => (name f).toList) ++ ['\x7d'] := by
  have hparts : List.Forall₂ (fun text part => Flat part.2 text) (fs.map fun f => (name f).toList)
      (ts.map fun t => (t.spot, t.pieces [] false 1)) := by
    rw [List.forall₂_map_left_iff, List.forall₂_map_right_iff]
    refine h.imp ?_
    rintro f t ⟨spot, rfl⟩
    exact flat_typeTerm [] (name f) spot false 1
  have hlast : Flat [.space .indent, .space .unindent, .word "\x7d" (some closing) true ⟨true, true, !ts.isEmpty⟩]
      ['\x7d'] := .cons rfl (.cons rfl (.cons rfl flat_nil))
  exact Flat.text (((Flat.cons rfl (flat_listed hparts)).append hlast).withManner _) (by decide) 1

/-! ## Rows of fields -/

/-- The row for a field of a struct. Only one of several fields has its name in a cell. -/
def fieldRow (lone : Bool) (f : FieldPlan) : Text.Row :=
  if lone then ⟨[⟨"", true⟩], String.ofList (pairChars (·.name.text) f)⟩
  else ⟨[⟨"", true⟩, ⟨f.name.text, false⟩], String.ofList f.typeChars⟩

namespace Piece.Page

/-- The page inside a struct, where a line begins. -/
def inside (lines : List String) (rows : List Text.Row) : Page :=
  ⟨lines, rows, [], "", true, 1⟩

/-- A type on a line that has been begun only adds its text. -/
theorem foldl_typeTerm (layers : List Layer) (base : String) (spot : Spot) (bare : Bool) (depth : Nat)
    (lines : List String) (rows : List Text.Row) (cells : List Text.Cell) (rest : String) (n : Nat) :
    ((typeTerm spot layers base).pieces [] bare depth).foldl add ⟨lines, rows, cells, rest, false, n⟩ =
      ⟨lines, rows, cells, rest ++ String.ofList (layers.flatMap Layer.chars ++ base.toList), false, n⟩ := by
  induction layers generalizing spot bare depth rest with
  | nil => simp [typeTerm, Term.pieces, ofWord, add, write]
  | cons layer layers ih =>
    cases layer with
    | pointer => simp [typeTerm, Term.pieces, sign, add, write, ih, Layer.chars, String.ofList_cons, String.append_assoc]
    | slice =>
      simp only [typeTerm, Term.pieces, List.foldl_cons, add, sign, write, Bool.false_eq_true, if_false, ih,
        List.flatMap_cons, Layer.chars, List.append_assoc, String.ofList_append, String.append_assoc]
      rfl

/-- The line of a field becomes a row. -/
theorem endLine_field {f : FieldPlan} {m : Member} (h : IsMember (·.name.text) f m) (lone : Bool)
    (lines : List String) (rows : List Text.Row) :
    ((m.fieldPart [] lone).pieces.foldl add (inside lines rows)).endLine =
      inside lines (fieldRow lone f :: rows) := by
  obtain ⟨spot, rfl⟩ := h
  cases lone with
  | true =>
    simp [Member.fieldPart, namesPieces, inside, add, write, space, ofWord, foldl_typeTerm, endLine, fieldRow, pairChars,
      FieldPlan.typeChars, String.ofList_append, String.ofList_cons, String.append_assoc]
  | false =>
    simp [Member.fieldPart, namesPieces, inside, add, write, space, ofWord, endCell, foldl_typeTerm, endLine, fieldRow,
      FieldPlan.typeChars]

/-- A field stays on its line. -/
theorem any_isBreak_field {f : FieldPlan} {m : Member} (h : IsMember (·.name.text) f m) (lone : Bool) :
    (m.fieldPart [] lone).pieces.any isBreak = false := by
  obtain ⟨spot, rfl⟩ := h
  have hflat : ∀ piece : Piece, piece.isFlat = true → piece.isBreak = false := by
    rintro (_ | s) h
    · rfl
    · cases s <;> simp_all [isFlat, isBreak, Space.isBreak]
  have htype : ((typeTerm (spot.shift (f.name.text.length + 1)) f.layers f.base.text).pieces [] false 1).any isBreak =
      false := by
    rw [List.any_eq_false]
    intro piece hpiece
    have := (flat_typeTerm f.layers f.base.text _ false 1).1 piece hpiece
    simp [hflat piece this]
  cases lone <;> simpa [Member.fieldPart, namesPieces, ofWord, isBreak, Space.isBreak] using htype

/-- The lines of fields become rows. -/
theorem endLine_stacked {fs : List FieldPlan} {ms : List Member} (h : List.Forall₂ (IsMember (·.name.text)) fs ms)
    (hne : fs ≠ []) (lone : Bool) (lines : List String) (rows : List Text.Row) :
    ((stacked (ms.map fun m => (m.fieldPart [] lone).pieces)).foldl add (inside lines rows)).endLine =
      inside lines ((fs.map (fieldRow lone)).reverse ++ rows) := by
  induction h generalizing rows with
  | nil => exact absurd rfl hne
  | cons hm hms ih =>
    cases hms with
    | nil => exact endLine_field hm lone lines rows
    | cons hm' hms =>
      have hrest := ih (List.cons_ne_nil _ _)
      have hnewline : ∀ p : Page, p.add (.space .newline) = p.endLine := fun _ => rfl
      rw [List.map_cons, List.map_cons, stacked, any_isBreak_field hm, if_neg Bool.false_ne_true, List.foldl_append,
        List.foldl_cons, hnewline, endLine_field hm]
      · refine (hrest _).trans ?_
        simp
      · simp

end Piece.Page

theorem fieldParts_eq (lone : Bool) (ms : List Member) :
    (fieldParts [] lone ms).map Part.pieces = ms.map fun m => (m.fieldPart [] lone).pieces := by
  induction ms with
  | nil => rfl
  | cons m ms ih => rw [fieldParts, List.map_cons, List.map_cons, ih]

/-- The text of a struct: its fields on lines between the braces. -/
theorem text_fieldList {ms : List Member} (h : List.Forall₂ (IsMember (·.name.text)) fs ms) (hne : fs ≠ [])
    (opening closing : Spot) :
    Piece.text 0 (fieldListPieces [] opening closing ms) =
      String.intercalate "\n" ("\x7b" :: Text.Row.lines (fs.map (fieldRow (ms.length == 1))) ++ ["\x7d"]) := by
  have hopen : Text.Row.lines [⟨[], "\x7b"⟩] = ["\x7b"] := lines_singleton [] '\x7b' rfl (by decide)
  have hclose : Text.Row.lines [⟨[], "\x7d"⟩] = ["\x7d"] := lines_singleton [] '\x7d' rfl (by decide)
  have hstart : [.sign "\x7b" (some opening), .space .indent, .space .block].foldl Piece.Page.add (.begun 0) =
      Piece.Page.inside ["\x7b"] [] := by
    simp [Piece.sign, Piece.Page.add, Piece.Page.begun, Piece.Page.write, Piece.Page.space, Piece.Page.endLine,
      Piece.Page.endBlock, Piece.Page.inside, hopen]
  have hrows := Piece.Page.endLine_stacked h hne (ms.length == 1) ["\x7b"] []
  rw [← fieldParts_eq] at hrows
  rw [Piece.text, fieldListPieces, List.foldl_append, List.foldl_append, hstart]
  generalize (Piece.stacked _).foldl Piece.Page.add _ = page at hrows ⊢
  obtain ⟨lines, rows, cells, rest, fresh, indentation⟩ := page
  simp only [Piece.Page.endLine, Piece.Page.inside, Piece.Page.mk.injEq] at hrows
  obtain ⟨rfl, hrows, -, -, -, rfl⟩ := hrows
  simp [Piece.Page.add, Piece.Page.space, Piece.Page.endLine, Piece.Page.endBlock, Piece.Page.text, Piece.Page.write,
    Piece.sign, hrows, hclose]

/-! ## Columns of fields -/

theorem le_foldl_max (ns : List Nat) (start : Nat) :
    start ≤ ns.foldl max start ∧ ∀ n ∈ ns, n ≤ ns.foldl max start := by
  induction ns generalizing start with
  | nil => simp
  | cons m ns ih =>
    obtain ⟨hstart, hall⟩ := ih (max start m)
    rw [List.foldl_cons, List.forall_mem_cons]
    exact ⟨by omega, by omega, hall⟩

/-- A column is wider than the texts in it. -/
theorem length_lt_columnWidth {j : Nat} {rows : List Text.Row} {r : Text.Row} (hr : r ∈ rows) (cell : Text.Cell)
    (hcell : r.cells[j]? = some cell) (hne : cell.text ≠ "") :
    cell.text.length < Text.Row.columnWidth j rows := by
  have hmem : cell ∈ rows.filterMap (·.cells[j]?) := List.mem_filterMap.2 ⟨r, hr, hcell⟩
  have hall : (rows.filterMap (·.cells[j]?)).all (fun c => c.text.isEmpty && !c.firm) = false := by
    rw [List.all_eq_false]
    exact ⟨cell, hmem, by simp [hne]⟩
  have hmax := (le_foldl_max _ 0).2 _ (List.mem_map_of_mem (f := fun c : Text.Cell => c.text.length) hmem)
  simp only [Text.Row.columnWidth, hall, Bool.false_eq_true, if_false]
  omega

/-- Next to one another, rows with a cell in a column have the same width there. -/
theorem columnWidthsBehind_eq {j : Nat} {rows : List Text.Row} (h : ∀ r ∈ rows, r.hasColumn j = true)
    (before : List Text.Row) :
    Text.Row.columnWidthsBehind j before rows =
      List.replicate (before.length + rows.length) (Text.Row.columnWidth j (rows.reverse ++ before)) := by
  induction rows generalizing before with
  | nil => simp [Text.Row.columnWidthsBehind, List.map_const']
  | cons r rows ih =>
    rw [List.forall_mem_cons] at h
    rw [Text.Row.columnWidthsBehind, if_pos h.1, ih h.2]
    simp [Nat.add_assoc, Nat.add_comm 1]

/-- A line for a field: its name and its type, with blanks before each. -/
def FieldLine (f : FieldPlan) (line : String) : Prop :=
  ∃ pad gap, line.toList = pad ++ (f.name.text.toList ++ (gap ++ f.typeChars)) ∧
    (∀ c ∈ pad, c = ' ' ∨ c = '\t') ∧ (∀ c ∈ gap, c = ' ' ∨ c = '\t') ∧ gap ≠ []

theorem FieldPlan.exists_last (f : FieldPlan) : ∃ front c, f.typeChars = front ++ [c] ∧ c ≠ ' ' ∧ c ≠ '\t' := by
  have hne := f.base.ne_nil
  refine ⟨f.layers.flatMap Layer.chars ++ f.base.text.toList.dropLast, f.base.text.toList.getLast hne, ?_, ?_⟩
  · rw [List.append_assoc, List.dropLast_append_getLast, typeChars]
  · have hplain := f.base.plain _ (List.getLast_mem hne)
    have := toNat_of_isPlain hplain
    constructor <;> (intro h; rw [h] at this; simp at this)

theorem fieldLine_of_trimmed {f : FieldPlan} {line : String} (pad gap : List Char)
    (hline : line.toList = pad ++ (f.name.text.toList ++ (gap ++ f.typeChars)))
    (hpad : ∀ c ∈ pad, c = ' ' ∨ c = '\t') (hgap : ∀ c ∈ gap, c = ' ' ∨ c = '\t') (hne : gap ≠ []) :
    FieldLine f (Text.Row.trimmed line) := by
  obtain ⟨front, c, hlast, hc⟩ := f.exists_last
  rw [trimmed_eq (pad ++ (f.name.text.toList ++ (gap ++ front))) c (by simp [hline, hlast]) hc]
  exact ⟨pad, gap, hline, hpad, hgap, hne⟩

/-- A lone field stands behind a tab. -/
theorem fieldLines_lone (f : FieldPlan) :
    List.Forall₂ FieldLine [f] (Text.Row.lines [fieldRow true f]) := by
  have hlines : Text.Row.lines [fieldRow true f] =
      [Text.Row.trimmed ("\t" ++ String.ofList (pairChars (·.name.text) f))] := by
    simp [fieldRow, Text.Row.lines, Text.Row.columnWidths, Text.Row.columnWidthsBehind, Text.Row.hasColumn,
      Text.Row.columnWidth, Text.Row.filled, Text.Row.tabWidth]
  rw [hlines]
  exact .cons (fieldLine_of_trimmed ['\t'] [' '] (by simp [pairChars]) (by simp) (by simp) (by simp)) .nil

/-- The cell with a name is filled up by at least one blank. -/
theorem fieldLine_filled {f : FieldPlan} (first second : Nat) (widths : List Nat)
    (hwidth : f.name.text.length < second) :
    FieldLine f (Text.Row.trimmed
      (Text.Row.filled true (fieldRow false f).cells (first :: second :: widths) ++ (fieldRow false f).rest)) := by
  have hname : f.name.text ≠ "" := by
    intro h
    exact f.name.ne_nil (by simp [h])
  refine fieldLine_of_trimmed (List.replicate ((first + Text.Row.tabWidth - 1) / Text.Row.tabWidth) '\t')
    (List.replicate (second - f.name.text.length) ' ') ?_ ?_ ?_ ?_
  · simp [fieldRow, Text.Row.filled, hname]
  · intro c hc
    exact .inr (List.eq_of_mem_replicate hc)
  · intro c hc
    exact .inl (List.eq_of_mem_replicate hc)
  · simp only [ne_eq, List.replicate_eq_nil_iff]
    omega

/-- The types of several fields stand in a column. -/
theorem fieldLines_column (fs : List FieldPlan) :
    List.Forall₂ FieldLine fs (Text.Row.lines (fs.map (fieldRow false))) := by
  rw [List.forall₂_iff_get]
  refine ⟨by simp [Text.Row.lines], ?_⟩
  intro i hi hi'
  have hmem : fieldRow false fs[i] ∈ fs.map (fieldRow false) := List.mem_map_of_mem (List.getElem_mem hi)
  have hcolumns : 2 ≤ ((fs.map (fieldRow false)).map fun r => r.cells.length).foldl max 0 :=
    (le_foldl_max _ 0).2 _ (List.mem_map_of_mem (f := fun r : Text.Row => r.cells.length) hmem)
  obtain ⟨n, hn⟩ := Nat.exists_eq_add_of_le' hcolumns
  have hwidth : fs[i].name.text.length < Text.Row.columnWidth 1 (fs.map (fieldRow false)).reverse :=
    length_lt_columnWidth (List.mem_reverse.2 hmem) ⟨fs[i].name.text, false⟩ rfl
      fun h => fs[i].name.ne_nil (by simp [show fs[i].name.text = "" from h])
  have hwidths : (Text.Row.columnWidths 1 (fs.map (fieldRow false))).getD i 0 =
      Text.Row.columnWidth 1 (fs.map (fieldRow false)).reverse := by
    rw [Text.Row.columnWidths, columnWidthsBehind_eq (by simp [fieldRow, Text.Row.hasColumn])]
    simp [hi]
  have hrange : List.range (n + 2) = 0 :: 1 :: (List.range n).map (· + 2) := by
    simp [List.range_succ_eq_map, Function.comp_def]
  simp only [Text.Row.lines, List.get_eq_getElem, List.getElem_map, List.getElem_zipIdx, hn, Nat.zero_add, hrange,
    List.map_cons, hwidths]
  exact fieldLine_filled _ _ _ hwidth

/-- A struct with fields has a line for each of them. -/
theorem fieldLines (fs : List FieldPlan) (lone : Bool) (hlone : lone = (fs.length == 1)) :
    List.Forall₂ FieldLine fs (Text.Row.lines (fs.map (fieldRow lone))) := by
  cases lone with
  | false => exact fieldLines_column fs
  | true =>
    obtain ⟨f, rfl⟩ := List.length_eq_one_iff.1 (beq_iff_eq.1 hlone.symm)
    exact fieldLines_lone f

/-! ## Items of plans -/

/-- The items for a field: its tokens from some place on. -/
def Spelled (tokens : Spot → FieldPlan → List Token) (f : FieldPlan) (items : List Item) : Prop :=
  ∃ spot, items = (tokens spot f).map .token

variable {tokens : Spot → FieldPlan → List Token}

theorem tokensOf_token (ts : List Token) : tokensOf (ts.map .token) = ts := by
  simp [tokensOf, List.filterMap_map, Function.comp_def, Item.token?]

theorem endsInRemark_token (ts : List Token) : endsInRemark (ts.map .token) = false := by
  rw [endsInRemark, List.getLast?_map]
  cases ts.getLast? <;> rfl

theorem remarks_token (ts : List Token) : Item.remarks none (ts.map .token) = [] := by
  induction ts with
  | nil => rfl
  | cons t ts ih => exact ih

theorem remarksOf_spelled {lists : List (List Item)} (h : List.Forall₂ (Spelled tokens) fs lists) :
    remarksOf lists = [] := by
  induction h with
  | nil => rfl
  | cons hitems _ ih =>
    obtain ⟨spot, rfl⟩ := hitems
    rw [remarksOf, List.flatMap_cons, remarks_token]
    exact ih

theorem lineItems?_spelled (words : FieldPlan → List String) (tokens : Spot → FieldPlan → List Token)
    (h : ∀ spot f, wordItems? spot (words f) = some ((tokens spot f).map .token))
    (fs : List FieldPlan) (line : Nat) :
    ∃ lists, lineItems? line (fs.map words) = some lists ∧ List.Forall₂ (Spelled tokens) fs lists := by
  induction fs generalizing line with
  | nil => exact ⟨[], rfl, .nil⟩
  | cons f fs ih =>
    obtain ⟨lists, hlists, hspelled⟩ := ih (line + 1)
    exact ⟨_, by rw [List.map_cons, lineItems?, h, hlists]; rfl, .cons ⟨_, rfl⟩ hspelled⟩

theorem listItems?_spelled (words : FieldPlan → List String) (tokens : Spot → FieldPlan → List Token)
    (h : ∀ spot f, wordItems? spot (words f) = some ((tokens spot f).map .token))
    (fs : List FieldPlan) (column : Nat) :
    ∃ lists, listItems? column (fs.map words) = some lists ∧ List.Forall₂ (Spelled tokens) fs lists := by
  induction fs generalizing column with
  | nil => exact ⟨[], rfl, .nil⟩
  | cons f fs ih =>
    obtain ⟨lists, hlists, hspelled⟩ := ih (column + wordsWidth (words f) + 1)
    exact ⟨_, by rw [List.map_cons, listItems?, h, hlists]; rfl, .cons ⟨_, rfl⟩ hspelled⟩

theorem wordItems?_word (x : Identifier) (spot : Spot) :
    wordItems? spot [x.text] = some ([wordToken x.text spot].map .token) := by
  rw [wordItems?, items?_word]
  rfl

theorem wordItems?_pair (x : Identifier) (f : FieldPlan) (spot : Spot) :
    wordItems? spot [x.text, f.field.type] = some ((pairTokens spot x.text f.layers f.base.text).map .token) := by
  rw [wordItems?, items?_word, wordItems?, items?_type]
  simp [wordItems?, pairTokens]

/-! ## Fragments of plans -/

theorem forall₂_of_mapM {α β γ : Type} {R : α → β → Prop} {S : α → γ → Prop} {g : β → Option γ} {as : List α}
    {bs : List β} {cs : List γ} (h : List.Forall₂ R as bs) (hcs : bs.mapM g = some cs)
    (hstep : ∀ a b c, R a b → g b = some c → S a c) : List.Forall₂ S as cs := by
  rw [mapM_eq_some_iff] at hcs
  induction h generalizing cs with
  | nil =>
    cases hcs
    exact .nil
  | cons hab _ ih =>
    cases hcs with
    | cons hbc hrest => exact .cons (hstep _ _ _ hab hbc) (ih hrest)

/-- A field whose words can stand in a source. -/
def FieldPlan.Allowed (name : FieldPlan → String) (f : FieldPlan) : Prop :=
  name f ∉ keywords ∧ f.base.text ∉ keywords

/-- The tokens of a name and the type of a field. -/
def fieldTokens (name : FieldPlan → String) (spot : Spot) (f : FieldPlan) : List Token :=
  pairTokens spot (name f) f.layers f.base.text

theorem member?_spelled {f : FieldPlan} {items : List Item} {m : Member} (h : Spelled (fieldTokens name) f items)
    (hm : member? items = some m) : f.Allowed name ∧ IsMember name f m := by
  obtain ⟨spot, rfl⟩ := h
  rw [member?, tokensOf_token, endsInRemark_token, fieldTokens] at hm
  by_cases hname : name f ∈ keywords
  · rw [field?_keyword_name hname] at hm
    cases hm
  by_cases hbase : f.base.text ∈ keywords
  · rw [field?_keyword_base hname hbase] at hm
    cases hm
  rw [field?_pair hname hbase] at hm
  cases hm
  exact ⟨⟨hname, hbase⟩, spot, rfl⟩

/-- A struct for fields without keywords: a line for each field between braces. -/
theorem structBody?_plans (hne : fs ≠ []) {body : String} (h : structBody? (fs.map FieldPlan.field) = some body) :
    (∀ f ∈ fs, f.Allowed (·.name.text)) ∧
      ∃ lines, List.Forall₂ FieldLine fs lines ∧ body = String.intercalate "\n" ("\x7b" :: lines ++ ["\x7d"]) := by
  obtain ⟨lists, hlists, hspelled⟩ := lineItems?_spelled (fun f => [f.name.text, f.field.type])
    (fieldTokens (·.name.text)) (fun spot f => wordItems?_pair f.name f spot) fs 1
  have hwords : (fs.map FieldPlan.field).map (fun f => [f.name, f.type]) =
      fs.map fun f => [f.name.text, f.field.type] := by
    rw [List.map_map]
    rfl
  simp only [structBody?, hwords, hlists, Option.bind_eq_bind, Option.bind_some, Option.bind_eq_some_iff,
    remarksOf_spelled hspelled, Piece.weave, List.map_nil, List.isEmpty_nil, if_true, Option.pure_def,
    Option.some.injEq] at h
  obtain ⟨members, hmembers, rfl⟩ := h
  have hall : List.Forall₂ (fun f m => f.Allowed (·.name.text) ∧ IsMember (·.name.text) f m) fs members :=
    forall₂_of_mapM hspelled hmembers fun f items m hitems hm => member?_spelled hitems hm
  obtain ⟨hallowed, hmember⟩ := (List.forall₂_and_left fs members).1 hall
  have hlines := fieldLines fs (members.length == 1) (by rw [hmember.length_eq])
  exact ⟨hallowed, _, hlines, text_fieldList hmember hne _ _⟩

theorem parameter?_lowered (x : Identifier) : parameter? x.text = some x.lowered.text := by
  obtain ⟨c, rest, hx, hc, -⟩ := x.wellFormed
  have hn := toNat_of_isPlain (show isPlain c = true by simp [isPlain, hc])
  have hlow : c.toNat < 0x80 := by omega
  simp [parameter?, hx, hlow, Identifier.lowered]

/-- The name of the parameter for a field. -/
def FieldPlan.parameter (f : FieldPlan) : String :=
  f.name.lowered.text

/-- The arguments for fields: their parameters between braces, none of them a keyword. -/
theorem argumentList?_plans {text : String} (h : argumentList? (fs.map FieldPlan.field) = some text) :
    (∀ f ∈ fs, f.parameter ∉ keywords) ∧
      text.toList = '\x7b' :: List.intercalate [',', ' '] (fs.map fun f => f.parameter.toList) ++ ['\x7d'] := by
  obtain ⟨lists, hlists, hspelled⟩ := listItems?_spelled (fun f => [f.parameter])
    (fun spot f => [wordToken f.parameter spot]) (fun spot f => wordItems?_word f.name.lowered spot) fs 1
  have hwords : argumentWords? (fs.map FieldPlan.field) = some (fs.map fun f => [f.parameter]) := by
    rw [argumentWords?, mapM_eq_some_iff, List.forall₂_map_left_iff, List.forall₂_map_right_iff, List.forall₂_same]
    intro f _
    rw [FieldPlan.field, parameter?_lowered]
    rfl
  simp only [argumentList?, argumentsOf?, hwords, hlists, Option.bind_eq_bind, Option.bind_some,
    Option.bind_eq_some_iff, remarksOf_spelled hspelled, Piece.weave, List.map_nil, List.isEmpty_nil, if_true,
    Option.pure_def, Option.some.injEq] at h
  obtain ⟨arguments, harguments, rfl⟩ := h
  have hall : List.Forall₂ (fun f t => f.parameter ∉ keywords ∧ ∃ spot, t = .name ⟨f.parameter, spot⟩) fs
      arguments := by
    refine forall₂_of_mapM hspelled harguments ?_
    rintro f items t ⟨spot, rfl⟩ ht
    rw [tokensOf_token] at ht
    by_cases hname : f.parameter ∈ keywords
    · rw [argument?_keyword hname] at ht
      cases ht
    · rw [argument?_word hname] at ht
      cases ht
      exact ⟨hname, spot, rfl⟩
  obtain ⟨hallowed, harguments⟩ := (List.forall₂_and_left fs arguments).1 hall
  exact ⟨hallowed, text_argumentList harguments _ _⟩

/-- Names with types are gathered one by one. -/
theorem gather_full {ds : List Declared} {ms : List Member}
    (h : List.Forall₂ (fun f d => ∃ spot, d = ⟨some ⟨name f, spot⟩,
      some (typeTerm (spot.shift ((name f).length + 1)) f.layers f.base.text)⟩) fs ds)
    (hms : Declared.gather ds = some ms) : List.Forall₂ (IsMember name) fs ms := by
  induction h generalizing ms with
  | nil =>
    cases hms
    exact .nil
  | cons hd _ ih =>
    obtain ⟨spot, rfl⟩ := hd
    obtain ⟨rest, hrest, rfl⟩ := Option.map_eq_some_iff.1 hms
    exact .cons ⟨spot, rfl⟩ (ih hrest)

/-- The parameters for fields without keywords: their names and types between brackets. -/
theorem parameterList?_plans (hallowed : ∀ f ∈ fs, f.Allowed FieldPlan.parameter) {text : String}
    (h : parameterList? (fs.map FieldPlan.field) = some text) :
    text.toList = '(' :: List.intercalate [',', ' '] (fs.map (pairChars FieldPlan.parameter)) ++ [')'] := by
  obtain ⟨lists, hlists, hspelled⟩ := listItems?_spelled (fun f => [f.parameter, f.field.type])
    (fieldTokens FieldPlan.parameter) (fun spot f => wordItems?_pair f.name.lowered f spot) fs 1
  have hwords : parameterWords? (fs.map FieldPlan.field) = some (fs.map fun f => [f.parameter, f.field.type]) := by
    rw [parameterWords?, mapM_eq_some_iff, List.forall₂_map_left_iff, List.forall₂_map_right_iff, List.forall₂_same]
    intro f _
    rw [FieldPlan.field, parameter?_lowered]
    rfl
  simp only [parameterList?, parametersOf?, hwords, hlists, Option.bind_eq_bind, Option.bind_some,
    Option.bind_eq_some_iff, remarksOf_spelled hspelled, Piece.weave, List.map_nil, List.isEmpty_nil, if_true,
    Option.pure_def, Option.some.injEq] at h
  obtain ⟨declared, hdeclared, members, hmembers, rfl⟩ := h
  have hfull : List.Forall₂ (fun f d => ∃ spot, d = ⟨some ⟨f.parameter, spot⟩,
      some (typeTerm (spot.shift (f.parameter.length + 1)) f.layers f.base.text)⟩) fs declared := by
    have hpairs := (List.forall₂_and_left fs lists).2 ⟨hallowed, hspelled⟩
    refine forall₂_of_mapM hpairs hdeclared ?_
    rintro f items d ⟨⟨hname, hbase⟩, spot, rfl⟩ hd
    rw [tokensOf_token, fieldTokens, declared?_pair hname hbase] at hd
    cases hd
    exact ⟨spot, rfl⟩
  refine text_parameterList ?_ _ _
  cases hfull with
  | nil =>
    cases hmembers
    exact .nil
  | cons hd hds =>
    obtain ⟨spot, rfl⟩ := hd
    exact gather_full (.cons ⟨spot, rfl⟩ hds) hmembers

end Reckoner.Nodes
