/-
Plans of node types. Their names are identifiers of ASCII, and a type is any number of pointers and slices
before an identifier. A plan can be written as a text in many ways, with blanks around its parts, and its node
type is read from all of them.
-/
import Reckoner.Proofs.Nodes.Specs

namespace Reckoner.Nodes

open Text

/-! ## Identifiers and types -/

/-- A letter or an underscore of ASCII. -/
def isPlainStart (c : Char) : Bool :=
  c.isAlpha || c == '_'

/-- A letter, a digit or an underscore of ASCII. -/
def isPlain (c : Char) : Bool :=
  isPlainStart c || c.isDigit

/-- An identifier of ASCII. It may be a keyword. -/
structure Identifier where
  text : String
  wellFormed : ∃ c rest, text.toList = c :: rest ∧ isPlainStart c = true ∧ ∀ d ∈ rest, isPlain d = true

/-- A pointer or a slice of something. -/
inductive Layer where
  | pointer
  | slice
  deriving DecidableEq, Repr

/-- How a layer is written. -/
def Layer.chars : Layer → List Char
  | .pointer => ['*']
  | .slice => ['[', ']']

/-- A field with its type, which has layers around an identifier. -/
structure FieldPlan where
  name : Identifier
  layers : List Layer
  base : Identifier

/-- A node type. -/
structure NodePlan where
  name : Identifier
  fields : List FieldPlan

namespace FieldPlan

/-- How the type of a field is written. -/
def typeChars (f : FieldPlan) : List Char :=
  f.layers.flatMap Layer.chars ++ f.base.text.toList

/-- The name of a field and the text of its type. -/
def field (f : FieldPlan) : Field :=
  ⟨f.name.text, String.ofList f.typeChars⟩

/-- A field as it can be written, with blanks around its words. -/
def Written (f : FieldPlan) (piece : List Char) : Prop :=
  ∃ pad gap behind, piece = pad ++ (f.name.text.toList ++ (gap ++ (f.typeChars ++ behind))) ∧
    Blank pad ∧ Blank gap ∧ gap ≠ [] ∧ Blank behind

end FieldPlan

namespace NodePlan

/-- The node type of a plan. -/
def spec (plan : NodePlan) : Spec :=
  ⟨plan.name.text, plan.fields.map FieldPlan.field⟩

/-- A plan as it can be written: a name and a colon, and fields between commas, with blanks around each. -/
def Written (plan : NodePlan) (text : String) : Prop :=
  ∃ pad behind pieces,
    text.toList = pad ++ (plan.name.text.toList ++ (behind ++ ':' :: List.intercalate [','] pieces)) ∧
      Blank pad ∧ Blank behind ∧ List.Forall₂ FieldPlan.Written plan.fields pieces

end NodePlan

/-! ## Characters -/

theorem toNat_of_isPlain {c : Char} (h : isPlain c = true) :
    48 ≤ c.toNat ∧ c.toNat ≤ 57 ∨ 65 ≤ c.toNat ∧ c.toNat ≤ 90 ∨ c.toNat = 95 ∨ 97 ≤ c.toNat ∧ c.toNat ≤ 122 := by
  have halpha : c.isAlpha = (decide (c.val ≥ 'A'.val ∧ c.val ≤ 'Z'.val) ||
      (decide (c.val ≥ 'a'.val) && decide (c.val ≤ 'z'.val))) := rfl
  simp only [isPlain, isPlainStart, halpha, Char.isDigit_iff_toNat, Bool.or_eq_true, Bool.and_eq_true,
    decide_eq_true_eq, beq_iff_eq, ge_iff_le, UInt32.le_iff_toNat_le] at h
  rcases h with ((⟨h, h'⟩ | ⟨h, h'⟩) | rfl) | ⟨h, h'⟩
  · exact .inr (.inl ⟨h, h'⟩)
  · exact .inr (.inr (.inr ⟨h, h'⟩))
  · exact .inr (.inr (.inl rfl))
  · exact .inl ⟨h, h'⟩

/-- A character that neither separates the parts of a text nor pads them. -/
def Solid (c : Char) : Prop :=
  isBlank c = false ∧ c ≠ ':' ∧ c ≠ ','

theorem solid_of_isPlain {c : Char} (h : isPlain c = true) : Solid c := by
  have hn := toNat_of_isPlain h
  refine ⟨?_, ?_, ?_⟩
  · simp only [isBlank, Bool.or_eq_false_iff, Bool.and_eq_false_iff, decide_eq_false_iff_not, beq_eq_false_iff_ne]
    omega
  · rintro rfl
    simp at hn
  · rintro rfl
    simp at hn

theorem Identifier.plain (x : Identifier) : ∀ c ∈ x.text.toList, isPlain c = true := by
  obtain ⟨c, rest, hx, hc, hrest⟩ := x.wellFormed
  rw [hx, List.forall_mem_cons]
  exact ⟨by simp [isPlain, hc], hrest⟩

theorem Identifier.ne_nil (x : Identifier) : x.text.toList ≠ [] := by
  obtain ⟨c, rest, hx, -⟩ := x.wellFormed
  simp [hx]

theorem Identifier.solid (x : Identifier) : ∀ c ∈ x.text.toList, Solid c :=
  fun c hc => solid_of_isPlain (x.plain c hc)

theorem Identifier.isWord (x : Identifier) : IsWord x.text.toList :=
  ⟨x.ne_nil, fun c hc => (x.solid c hc).1⟩

theorem FieldPlan.solid (f : FieldPlan) : ∀ c ∈ f.typeChars, Solid c := by
  intro c hc
  rcases List.mem_append.1 hc with hc | hc
  · obtain ⟨layer, -, hc⟩ := List.mem_flatMap.1 hc
    have hmark : c = '*' ∨ c = '[' ∨ c = ']' := by cases layer <;> grind [Layer.chars]
    rcases hmark with rfl | rfl | rfl <;> exact ⟨rfl, by decide, by decide⟩
  · exact f.base.solid c hc

theorem FieldPlan.typeChars_ne_nil (f : FieldPlan) : f.typeChars ≠ [] :=
  List.append_ne_nil_of_right_ne_nil _ f.base.ne_nil

/-! ## Reading what is written -/

variable {f : FieldPlan} {plan : NodePlan} {piece : List Char} {text : String}

/-- No separator stands in blanks. -/
theorem not_mem_of_blank {sep : Char} (hsep : isBlank sep = false) {pad : List Char} (h : Blank pad) : sep ∉ pad :=
  fun hmem => by simp [h sep hmem] at hsep

theorem FieldPlan.Written.not_mem (h : f.Written piece) : ':' ∉ piece ∧ ',' ∉ piece := by
  obtain ⟨pad, gap, behind, rfl, hpad, hgap, -, hbehind⟩ := h
  have hno : ∀ sep, isBlank sep = false → (∀ c, Solid c → c ≠ sep) →
      sep ∉ pad ++ (f.name.text.toList ++ (gap ++ (f.typeChars ++ behind))) := by
    intro sep hsep hsolid
    simp only [List.mem_append, not_or]
    exact ⟨not_mem_of_blank hsep hpad, fun h => hsolid sep (f.name.solid sep h) rfl, not_mem_of_blank hsep hgap,
      fun h => hsolid sep (f.solid sep h) rfl, not_mem_of_blank hsep hbehind⟩
  exact ⟨hno ':' rfl fun c h => h.2.1, hno ',' rfl fun c h => h.2.2⟩

theorem FieldPlan.Written.ofChars? (h : f.Written piece) : Field.ofChars? piece = some f.field := by
  obtain ⟨pad, gap, behind, rfl, hpad, hgap, hne, hbehind⟩ := h
  rw [ofChars?_eq_some_iff, field, String.toList_ofList]
  exact ⟨pad, gap, behind, rfl, hpad, f.name.isWord, hgap, hne, ⟨f.typeChars_ne_nil, fun c hc => (f.solid c hc).1⟩,
    fun c hc => hbehind c (List.mem_of_head? hc)⟩

theorem mapM_ofChars? {fields : List FieldPlan} {pieces : List (List Char)}
    (h : List.Forall₂ FieldPlan.Written fields pieces) :
    pieces.mapM Field.ofChars? = some (fields.map FieldPlan.field) := by
  induction h with
  | nil => rfl
  | cons hfield _ ih => simp [List.mapM_cons, hfield.ofChars?, ih]

theorem not_mem_pieces {fields : List FieldPlan} {pieces : List (List Char)}
    (h : List.Forall₂ FieldPlan.Written fields pieces) : ∀ piece ∈ pieces, ':' ∉ piece ∧ ',' ∉ piece := by
  induction h with
  | nil => simp
  | cons hfield _ ih => exact List.forall_mem_cons.2 ⟨hfield.not_mem, ih⟩

theorem not_mem_intercalate {c sep : Char} (hne : c ≠ sep) {pieces : List (List Char)}
    (h : ∀ piece ∈ pieces, c ∉ piece) : c ∉ List.intercalate [sep] pieces := by
  induction pieces with
  | nil => simp
  | cons piece pieces ih =>
    rw [List.forall_mem_cons] at h
    cases pieces with
    | nil => simpa using h.1
    | cons => simp [List.intercalate_cons_cons, h.1, hne, ih h.2]

/-- The node type of a plan is read from every text for it; a text without a field describes none. -/
theorem NodePlan.Written.ofText? (h : plan.Written text) :
    Spec.ofText? text = if plan.fields = [] then none else some plan.spec := by
  obtain ⟨pad, behind, pieces, htext, hpad, hbehind, hpieces⟩ := h
  have hno := not_mem_pieces hpieces
  have hname : ':' ∉ pad ++ (plan.name.text.toList ++ behind) := by
    simp only [List.mem_append, not_or]
    exact ⟨not_mem_of_blank rfl hpad, fun hmem => (plan.name.solid _ hmem).2.1 rfl, not_mem_of_blank rfl hbehind⟩
  have hlist : ':' ∉ List.intercalate [','] pieces := not_mem_intercalate (by decide) fun piece h => (hno piece h).1
  have hparts : splitAt ':' text.toList =
      [pad ++ (plan.name.text.toList ++ behind), List.intercalate [','] pieces] := by
    rw [htext, ← List.append_assoc plan.name.text.toList, ← List.append_assoc pad, splitAt_append hname,
      splitAt_of_not_mem hlist]
  simp only [Spec.ofText?, hparts, trimChars_word hpad plan.name.isWord hbehind, String.ofList_toList]
  by_cases hnil : plan.fields = []
  · rw [hnil, List.forall₂_nil_left_iff] at hpieces
    subst hpieces
    rw [if_pos hnil]
    rfl
  · have hne : pieces ≠ [] := by
      rintro rfl
      exact hnil (List.forall₂_nil_right_iff.1 hpieces)
    rw [if_neg hnil, splitAt_eq_splitOn, List.splitOn_intercalate _ (fun piece h => (hno piece h).2) hne,
      mapM_ofChars? hpieces]
    rfl

/-! ## Parameters -/

theorem isPlainStart_toLower {c : Char} (h : isPlainStart c = true) : isPlainStart c.toLower = true := by
  have hascii : ∀ n : Fin 128, isPlainStart (Char.ofNat n) = true → isPlainStart (Char.ofNat n).toLower = true := by
    decide
  have hn := toNat_of_isPlain (show isPlain c = true by simp [isPlain, h])
  have hc := hascii ⟨c.toNat, by omega⟩
  rw [Char.ofNat_toNat] at hc
  exact hc h

/-- An identifier with its first letter in lower case. -/
def Identifier.lowered (x : Identifier) : Identifier where
  text := String.ofList (x.text.toList.modifyHead Char.toLower)
  wellFormed := by
    obtain ⟨c, rest, hx, hc, hrest⟩ := x.wellFormed
    exact ⟨c.toLower, rest, by simp [hx], isPlainStart_toLower hc, hrest⟩

end Reckoner.Nodes
