/-
Records: mappings whose keys name fields. The key `<<` merges the entries of other mappings, as far
as their fields are not there yet.
-/
import Reckoner.Yaml.Meaning

namespace Reckoner.Yaml

namespace Node

/-- What tells keys apart: what sort of node they are, and their text or the name of their
anchor. -/
def label : Node → Nat × String
  | .scalar _ text => (0, text)
  | .sequence _ => (1, "")
  | .mapping _ => (2, "")
  | .alias name _ _ => (3, name)

/-- The key that merges. -/
def isMerge : Node → Bool
  | .scalar tag text => text == "<<" && (tag == "" || tag == "!!merge")
  | _ => false

end Node

/-- A node and the aliases that led to it. An alias that leads to itself leads nowhere. -/
structure Located where
  node : Node
  aliases : List Nat

/-- The fields of a record, each with its value, and the names that later entries cannot give
another value to. -/
structure Fields where
  entries : List (String × Located)
  names : List String

namespace Fields

/-- No fields. -/
def none : Fields := ⟨[], []⟩

end Fields

namespace Document

/-- What an alias stands for; any other node stands for itself. -/
def follow? (d : Document) (l : Located) : Option Located :=
  match l.node with
  | .alias _ anchor number =>
    if l.aliases.contains number then none
    else (d.anchored.lookup anchor).map (⟨·, number :: l.aliases⟩)
  | _ => some l

/-- What a scalar denotes, and its text. -/
def scalar? (d : Document) (l : Located) : Option (Meaning × String) :=
  match d.follow? l with
  | some ⟨.scalar tag text, _⟩ => (meaning? tag text).map (·, text)
  | _ => none

/-- The text of a scalar, as it is written, unless it denotes nothing. -/
def text? (d : Document) (l : Located) : Option (Option String) :=
  (d.scalar? l).map fun (meaning, text) =>
    match meaning with
    | .null => none
    | .text s => some s
    | _ => some text

/-- The fields of some entries, after those that are there already. A key that denotes nothing
names no field. A field among the known ones is named once, but the entries that are merged give
way. -/
def named? (d : Document) (known : List String) (merged : Bool) (aliases : List Nat) :
    List (Node × Node) → Fields → Option Fields
  | [], fields => some fields
  | (key, value) :: rest, fields =>
    if key.isMerge then d.named? known merged aliases rest fields
    else match d.text? ⟨key, aliases⟩ with
      | none => none
      | some none => d.named? known merged aliases rest fields
      | some (some name) =>
        if fields.names.contains name then
          if merged || !known.contains name then d.named? known merged aliases rest fields
          else none
        else
          d.named? known merged aliases rest
            ⟨fields.entries ++ [(name, ⟨value, aliases⟩)], name :: fields.names⟩

/-- The fields of a mapping after those that are there already, for at most `n` mappings that are
merged in one another. No two keys are the same. -/
def mappingFields? (d : Document) (known : List String) :
    Nat → Bool → List Nat → List (Node × Node) → Fields → Option Fields
  | 0, _, _, _, _ => none
  | n + 1, merged, aliases, entries, fields => do
    guard (entries.map (·.1.label)).Nodup
    let fields ← d.named? known merged aliases entries fields
    let merge (fields : Fields) (node : Node) : Option Fields :=
      match d.follow? ⟨node, aliases⟩ with
      | some ⟨.mapping inner, aliases'⟩ => d.mappingFields? known n true aliases' inner fields
      | _ => none
    match entries.find? (·.1.isMerge) with
    | none => return fields
    | some (_, .sequence items) => items.foldlM merge fields
    | some (_, node) => merge fields node

/-- The fields of a record. What denotes nothing has none. -/
def record? (d : Document) (known : List String) (l : Located) : Option Fields :=
  match d.follow? l with
  | some ⟨.mapping entries, aliases⟩ =>
    d.mappingFields? known ((d.size + 1) * (d.size + 1)) false aliases entries .none
  | some ⟨.scalar tag text, _⟩ => if meaning? tag text = some .null then some .none else none
  | _ => none

end Document

end Reckoner.Yaml
