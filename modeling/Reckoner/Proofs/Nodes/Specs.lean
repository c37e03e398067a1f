/-
Texts that describe node types. What a text describes is said by how it is put together: a name up to the
first colon, fields between commas up to the second one, and in each field two words. Blanks around these
parts make no difference.
-/
import Reckoner.Nodes.Spec
import Reckoner.Proofs.Words

namespace Reckoner.Nodes

open Text

/-! ## What a text describes -/

/-- The name and the list of fields in a text: what stands before the first colon, and what stands behind it,
up to the second one or the end. -/
def Parts (text : String) (name list : List Char) : Prop :=
  ':' ∉ name ∧ ':' ∉ list ∧
    ∃ behind, text.toList = name ++ ':' :: (list ++ behind) ∧ ∀ c ∈ behind.head?, c = ':'

/-- A text that describes no node type: it has no colon, or something between two commas of its list has not
two words. -/
def Malformed (text : String) : Prop :=
  ':' ∉ text.toList ∨
    ∃ name list piece, Parts text name list ∧ Between ',' list piece ∧ ¬∃ first second, BeginsWith piece first second

theorem splitAt_parts_iff {text : String} {name list : List Char} :
    (∃ rest, splitAt ':' text.toList = name :: list :: rest) ↔ Parts text name list := by
  constructor
  · rintro ⟨rest, h⟩
    obtain ⟨hname, ⟨-, h⟩ | ⟨tail, htext, h⟩⟩ := splitAt_cons_iff.1 h
    · cases h
    obtain ⟨hlist, ⟨rfl, -⟩ | ⟨tail', rfl, -⟩⟩ := splitAt_cons_iff.1 h
    · exact ⟨hname, hlist, [], by simpa using htext, by simp⟩
    · exact ⟨hname, hlist, ':' :: tail', htext, by simp⟩
  · rintro ⟨hname, hlist, behind, htext, hbehind⟩
    rw [htext, splitAt_append hname]
    cases behind with
    | nil => exact ⟨[], by rw [List.append_nil, splitAt_of_not_mem hlist]⟩
    | cons c behind =>
      obtain rfl : c = ':' := hbehind c rfl
      exact ⟨splitAt ':' behind, by rw [splitAt_append hlist]⟩

theorem ofChars?_eq_some_iff {piece : List Char} {field : Field} :
    Field.ofChars? piece = some field ↔ BeginsWith piece field.name.toList field.type.toList := by
  rw [← beginsWith_iff]
  unfold Field.ofChars?
  split
  · next name type rest h =>
    rw [h]
    constructor
    · rintro ⟨⟩
      exact ⟨rest, by simp⟩
    · rintro ⟨rest', h'⟩
      simp only [List.cons.injEq] at h'
      simp [h'.1, h'.2.1]
  · next h =>
    constructor
    · rintro ⟨⟩
    · rintro ⟨rest, h'⟩
      exact absurd h' (h _ _ _)

theorem ofChars?_eq_none_iff {piece : List Char} :
    Field.ofChars? piece = none ↔ ¬∃ first second, BeginsWith piece first second := by
  rw [← not_iff_not, Option.eq_none_iff_forall_ne_some]
  simp only [ne_eq, ofChars?_eq_some_iff, not_forall, not_not]
  constructor
  · rintro ⟨field, h⟩
    exact ⟨_, _, h⟩
  · rintro ⟨first, second, h⟩
    exact ⟨⟨String.ofList first, String.ofList second⟩, by simpa using h⟩

theorem mapM_eq_none_iff {α β : Type} {f : α → Option β} {l : List α} : l.mapM f = none ↔ ∃ a ∈ l, f a = none := by
  induction l with
  | nil => simp
  | cons a l ih =>
    simp only [List.mapM_cons, List.mem_cons, exists_eq_or_imp, ← ih]
    cases f a <;> cases l.mapM f <;> simp

theorem mapM_eq_some_iff {α β : Type} {f : α → Option β} {l : List α} {r : List β} :
    l.mapM f = some r ↔ List.Forall₂ (fun a b => f a = some b) l r := by
  induction l generalizing r with
  | nil => simp [List.forall₂_nil_left_iff, eq_comm]
  | cons a l ih =>
    rw [List.forall₂_cons_left_iff, List.mapM_cons]
    simp only [← ih, Option.pure_def, Option.bind_eq_bind, Option.bind_eq_some_iff, Option.some.injEq]
    constructor
    · rintro ⟨b, hb, bs, hbs, rfl⟩
      exact ⟨b, bs, hb, hbs, rfl⟩
    · rintro ⟨b, bs, hb, hbs, rfl⟩
      exact ⟨b, hb, bs, hbs, rfl⟩

theorem exists_parts {text : String} (h : ':' ∈ text.toList) :
    ∃ name list rest, splitAt ':' text.toList = name :: list :: rest := by
  obtain ⟨name, tail, htext, hname⟩ := List.eq_append_cons_of_mem h
  obtain ⟨list, rest, hrest⟩ := List.exists_cons_of_ne_nil (splitAt_ne_nil ':' tail)
  exact ⟨name, list, rest, by rw [htext, splitAt_append hname, hrest]⟩

/-- No node type is read exactly from a malformed text. -/
theorem ofText?_eq_none_iff {text : String} : Spec.ofText? text = none ↔ Malformed text := by
  unfold Spec.ofText? Malformed
  by_cases hcolon : ':' ∈ text.toList
  · obtain ⟨name, list, rest, hparts⟩ := exists_parts hcolon
    simp only [hparts, Option.map_eq_none_iff, mapM_eq_none_iff, mem_splitAt_iff, ofChars?_eq_none_iff, hcolon,
      not_true_eq_false, false_or, ← splitAt_parts_iff, List.cons.injEq]
    constructor
    · rintro ⟨piece, hpiece, h⟩
      exact ⟨name, list, piece, ⟨rest, rfl, rfl, rfl⟩, hpiece, h⟩
    · rintro ⟨name', list', piece, ⟨rest', hname, hlist, hrest⟩, hpiece, h⟩
      exact ⟨piece, hlist ▸ hpiece, h⟩
  · rw [splitAt_of_not_mem hcolon]
    simp [hcolon]

end Reckoner.Nodes
