/-
Guarded passes over the texts of node types. One pass takes the names for the methods of the visitor, and one
takes the name, the fields and the parameters of each node type. Every part is taken by its position, so that
each access can fault. The passes agree, and they fault exactly when a text is malformed.
-/
import Reckoner.Nodes.Source
import Reckoner.Proofs.Guarded.Access
import Reckoner.Proofs.Nodes.Specs
import Reckoner.Proofs.Quiet

namespace Reckoner

open Nodes Text Disk

namespace Guarded.Passes

/-! ## The machine -/

/-- The part of a text at a position between the colons, without blanks at its ends. -/
def part (text : String) (i : Nat) : Except Fault (List Char) := do
  return trimChars (← item (splitAt ':' text.toList) i)

/-- The field that the first two words of a piece give. -/
def field (piece : List Char) : Except Fault Field := do
  return ⟨String.ofList (← item (words piece) 0), String.ofList (← item (words piece) 1)⟩

/-- The parameter for a field: the first letter in lower case, and what follows it. -/
def parameter (name : String) : Except Fault (Option String) := do
  let first ← slice name.toList 0 1
  let rest ← slice name.toList 1 name.toList.length
  return if first.all (·.toNat < 0x80) then some (String.ofList (first.map Char.toLower ++ rest)) else none

/-- A node type with the parameters of its constructor. -/
structure Node where
  spec : Spec
  parameters : List (Option String)

/-- What the second pass takes from a text. -/
def node (text : String) : Except Fault Node := do
  let name ← part text 0
  let fields ← (splitAt ',' (← part text 1)).mapM field
  let parameters ← fields.mapM fun f => parameter f.name
  return ⟨⟨String.ofList name, fields⟩, parameters⟩

/-- What the passes take from the texts. -/
structure Taken where
  /-- The names for the methods of the visitor. -/
  visited : List String
  nodes : List Node

/-- Both passes. -/
def take (texts : List String) : Except Fault Taken := do
  let visited ← texts.mapM fun text => do return String.ofList (← part text 0)
  let nodes ← texts.mapM node
  return ⟨visited, nodes⟩

/-- The parts of the source for a node type, with the parameters that were taken for it. -/
def Node.source? (base : String) (n : Node) : Option NodeSource := do
  guard (isName (n.spec.name ++ base) && isName (receiver base))
  let names ← n.parameters.mapM id
  return ⟨n.spec.name, ← structBody? n.spec.fields,
    ← parametersOf? (List.zipWith (fun name f => [name, f.type]) names n.spec.fields),
    ← argumentsOf? (names.map fun name => [name])⟩

/-- The source for what was taken: the methods of the visitor are those of the first pass, and all else is
from the second one. -/
def Taken.text? (package base : String) (t : Taken) : Option String := do
  let clause ← packageClause? package
  guard (isName base)
  let nodes ← t.nodes.mapM (Node.source? base)
  return textOf (File.linesVisiting t.visited ⟨clause, base, nodes⟩)

/-- The source of the node types that some texts describe. -/
def generate (package base : String) (texts : List String) : Except Fault (Except GenerateError String) := do
  let taken ← take texts
  return match taken.text? package base with
    | none => .error (.notSource base)
    | some text => .ok text

/-! ## Faults -/

/-- What a machine comes to where something may be missing. -/
def orIndex {α : Type} : Option α → Except Fault α
  | none => .error .index
  | some a => .ok a

theorem item_eq_orIndex {α : Type} (items : List α) (i : Nat) : item items i = orIndex items[i]? := by
  cases h : items[i]? <;> simp [item, h, orIndex]

theorem mapM_orIndex {α β : Type} (f : α → Option β) (l : List α) :
    (l.mapM fun a => orIndex (f a)) = orIndex (l.mapM f) := by
  induction l with
  | nil => rfl
  | cons a l ih =>
    rw [List.mapM_cons, List.mapM_cons, ih]
    cases f a <;> cases l.mapM f <;> rfl

theorem field_eq (piece : List Char) : field piece = orIndex (Field.ofChars? piece) := by
  unfold field Field.ofChars?
  rcases words piece with _ | ⟨first, _ | ⟨second, rest⟩⟩ <;> rfl

theorem part_eq (text : String) (i : Nat) :
    part text i = orIndex ((splitAt ':' text.toList)[i]?.map trimChars) := by
  unfold part
  rw [item_eq_orIndex]
  cases (splitAt ':' text.toList)[i]? <;> rfl

/-- A field is read from the words of a piece alone. -/
theorem ofChars?_congr {piece piece' : List Char} (h : words piece = words piece') :
    Field.ofChars? piece = Field.ofChars? piece' := by
  unfold Field.ofChars?
  rw [h]

theorem mapM_ofChars?_congr {pieces pieces' : List (List Char)} (h : pieces.map words = pieces'.map words) :
    pieces.mapM Field.ofChars? = pieces'.mapM Field.ofChars? := by
  induction pieces generalizing pieces' with
  | nil =>
    rw [List.map_nil, eq_comm, List.map_eq_nil_iff] at h
    rw [h]
  | cons piece pieces ih =>
    obtain ⟨piece', tail, rfl, hpiece, htail⟩ := List.map_eq_cons_iff.1 h.symm
    rw [List.mapM_cons, List.mapM_cons, ofChars?_congr hpiece.symm, ih htail.symm]

/-- The fields are the same whether or not their list is trimmed first. -/
theorem mapM_field_trimChars (list : List Char) :
    (splitAt ',' (trimChars list)).mapM field = orIndex ((splitAt ',' list).mapM Field.ofChars?) := by
  have hfield : field = fun piece => orIndex (Field.ofChars? piece) := funext field_eq
  rw [hfield, mapM_orIndex, mapM_ofChars?_congr (map_words_trimChars rfl list)]

/-- The first letter of a name can be taken. -/
theorem parameter_eq {name : String} (h : name.toList ≠ []) : parameter name = .ok (parameter? name) := by
  obtain ⟨c, rest, hname⟩ := List.exists_cons_of_ne_nil h
  rw [parameter, slice_eq (by omega) (by simp [hname]), slice_eq (by simp [hname]) (by omega)]
  simp [parameter?, hname]

theorem mapM_ok {α β : Type} {f : α → Except Fault β} {g : α → β} {l : List α} (h : ∀ a ∈ l, f a = .ok (g a)) :
    l.mapM f = .ok (l.map g) := by
  induction l with
  | nil => rfl
  | cons a l ih =>
    rw [List.forall_mem_cons] at h
    simp [List.mapM_cons, h.1, ih h.2]

/-- No field has an empty name. -/
theorem name_ne_nil {pieces : List (List Char)} {fields : List Field} (h : pieces.mapM Field.ofChars? = some fields) :
    ∀ f ∈ fields, f.name.toList ≠ [] := by
  rw [mapM_eq_some_iff] at h
  induction h with
  | nil => simp
  | cons hfield _ ih =>
    obtain ⟨-, -, -, -, -, hword, -⟩ := ofChars?_eq_some_iff.1 hfield
    exact List.forall_mem_cons.2 ⟨hword.1, ih⟩

/-- A node type as the second pass takes it. -/
def nodeOf (spec : Spec) : Node :=
  ⟨spec, spec.fields.map fun f => parameter? f.name⟩

theorem node_eq (text : String) : node text = orIndex ((Spec.ofText? text).map nodeOf) := by
  unfold node Spec.ofText?
  rw [part_eq, part_eq]
  rcases splitAt ':' text.toList with _ | ⟨name, _ | ⟨list, rest⟩⟩
  · rfl
  · rfl
  · have hname : orIndex ((name :: list :: rest)[0]?.map trimChars) = .ok (trimChars name) := rfl
    have hlist : orIndex ((name :: list :: rest)[1]?.map trimChars) = .ok (trimChars list) := rfl
    simp only [hname, hlist, ok_bind, mapM_field_trimChars]
    cases hfields : (splitAt ',' list).mapM Field.ofChars? with
    | none => rfl
    | some fields =>
      have hparameters := mapM_ok (f := fun f : Field => parameter f.name) (g := fun f => parameter? f.name)
        fun f hf => parameter_eq (name_ne_nil hfields f hf)
      simp [orIndex, hparameters, nodeOf]

/-- What stands before the first colon of a text. -/
def leadingName (text : String) : String :=
  String.ofList (trimChars ((splitAt ':' text.toList).headD []))

/-- The first part of a text is always there, so the first pass never faults. -/
theorem part_zero (text : String) : part text 0 = .ok (trimChars ((splitAt ':' text.toList).headD [])) := by
  rw [part_eq]
  cases h : splitAt ':' text.toList with
  | nil => exact absurd h (splitAt_ne_nil ':' _)
  | cons => rfl

theorem visited_eq (texts : List String) :
    (texts.mapM fun text => do return String.ofList (← part text 0)) = .ok (texts.map leadingName) := by
  apply mapM_ok
  intro text _
  rw [part_zero]
  rfl

theorem leadingName_of_ofText? {text : String} {spec : Spec} (h : Spec.ofText? text = some spec) :
    leadingName text = spec.name := by
  unfold Spec.ofText? at h
  split at h
  · next name list rest hparts =>
    obtain ⟨fields, -, rfl⟩ := Option.map_eq_some_iff.1 h
    simp [leadingName, hparts]
  · cases h

theorem map_leadingName {texts : List String} {specs : List Spec} (h : texts.mapM Spec.ofText? = some specs) :
    texts.map leadingName = specs.map Spec.name := by
  rw [mapM_eq_some_iff] at h
  induction h with
  | nil => rfl
  | cons htext _ ih => rw [List.map_cons, List.map_cons, leadingName_of_ofText? htext, ih]

theorem mapM_map {α β γ : Type} (f : α → Option β) (g : β → γ) (l : List α) :
    (l.mapM fun a => (f a).map g) = (l.mapM f).map (List.map g) := by
  induction l with
  | nil => rfl
  | cons a l ih =>
    rw [List.mapM_cons, List.mapM_cons, ih]
    cases f a <;> cases l.mapM f <;> rfl

/-- The passes take the same node types, or the second one faults. -/
theorem take_eq (texts : List String) :
    take texts = orIndex ((texts.mapM Spec.ofText?).map fun specs => ⟨specs.map Spec.name, specs.map nodeOf⟩) := by
  have hnode : node = fun text => orIndex ((Spec.ofText? text).map nodeOf) := funext node_eq
  rw [take, visited_eq, hnode, mapM_orIndex, mapM_map]
  cases h : texts.mapM Spec.ofText? with
  | none => rfl
  | some specs =>
    rw [map_leadingName h]
    rfl

/-! ## Sources -/

theorem parameterWords?_eq (fields : List Field) :
    parameterWords? fields = ((fields.map fun f => parameter? f.name).mapM id).map fun names =>
      List.zipWith (fun name f => [name, f.type]) names fields := by
  unfold parameterWords?
  induction fields with
  | nil => rfl
  | cons f fields ih =>
    rw [List.mapM_cons, List.map_cons, List.mapM_cons, ih]
    cases parameter? f.name <;> cases (fields.map fun f => parameter? f.name).mapM id <;> rfl

theorem argumentWords?_eq (fields : List Field) :
    argumentWords? fields = ((fields.map fun f => parameter? f.name).mapM id).map (List.map fun name => [name]) := by
  unfold argumentWords?
  induction fields with
  | nil => rfl
  | cons f fields ih =>
    rw [List.mapM_cons, List.map_cons, List.mapM_cons, ih]
    cases parameter? f.name <;> cases (fields.map fun f => parameter? f.name).mapM id <;> rfl

/-- The parameters that are taken are those that a node type has. -/
theorem source?_nodeOf (base : String) (spec : Spec) : (nodeOf spec).source? base = nodeSource? base spec := by
  unfold Node.source? nodeSource? guard nodeOf
  by_cases hnames : (isName (spec.name ++ base) && isName (receiver base)) = true
  · simp only [hnames, if_true, parameterList?, argumentList?, parameterWords?_eq, argumentWords?_eq]
    cases structBody? spec.fields <;> cases (spec.fields.map fun f => parameter? f.name).mapM id <;> rfl
  · rw [if_neg hnames]
    rfl

theorem nodeSource?_name {base : String} {spec : Spec} {source : NodeSource}
    (h : nodeSource? base spec = some source) : source.name = spec.name := by
  unfold nodeSource? guard at h
  by_cases hnames : (isName (spec.name ++ base) && isName (receiver base)) = true
  · simp only [hnames, if_true, Option.pure_def, Option.bind_eq_bind, Option.bind_some,
      Option.bind_eq_some_iff, Option.some.injEq] at h
    obtain ⟨-, -, -, -, -, -, rfl⟩ := h
    rfl
  · rw [if_neg hnames] at h
    cases h

/-- The names of the node types stay as they are. -/
theorem map_name {base : String} {specs : List Spec} {nodes : List NodeSource}
    (h : specs.mapM (nodeSource? base) = some nodes) : nodes.map (·.name) = specs.map Spec.name := by
  rw [mapM_eq_some_iff] at h
  induction h with
  | nil => rfl
  | cons hnode _ ih => rw [List.map_cons, List.map_cons, nodeSource?_name hnode, ih]

/-- What the passes take is put together to the file of the node types: the names that one pass takes for the
visitor are those that the other one takes for the node types. -/
theorem text?_eq (package base : String) (specs : List Spec) :
    Taken.text? package base ⟨specs.map Spec.name, specs.map nodeOf⟩ = (file? package base specs).map File.text := by
  have hnodes : (specs.map nodeOf).mapM (Node.source? base) = specs.mapM (nodeSource? base) := by
    rw [List.mapM_map]
    congr 1
    exact funext (source?_nodeOf base)
  unfold Taken.text? file? guard
  simp only [hnodes]
  cases packageClause? package with
  | none => rfl
  | some clause =>
    by_cases hbase : isName base = true
    · cases hsources : specs.mapM (nodeSource? base) with
      | none => simp [hbase]
      | some nodes => simp [hbase, File.text, File.lines, map_name hsources]
    · rw [if_neg hbase]
      rfl

/-- The machine comes to what is generated, and a malformed text is where it faults. -/
theorem generate_eq (package base : String) (texts : List String) :
    generate package base texts =
      match Nodes.generate package base texts with
      | .error .malformedSpec => .error .index
      | result => .ok result := by
  rw [generate, take_eq, Nodes.generate]
  cases texts.mapM Spec.ofText? with
  | none => rfl
  | some specs =>
    simp only [Option.map_some, orIndex, ok_bind, text?_eq]
    cases file? package base specs <;> rfl

/-- Either some text is malformed, or there is a source or the reason why there is none. -/
theorem generate_cases (package base : String) (texts : List String) :
    (∃ text ∈ texts, Malformed text) ∧ Nodes.generate package base texts = .error .malformedSpec ∨
      (¬∃ text ∈ texts, Malformed text) ∧ ∃ specs, texts.mapM Spec.ofText? = some specs ∧
        ((∃ file, file? package base specs = some file ∧ Nodes.generate package base texts = .ok file.text) ∨
          file? package base specs = none ∧ Nodes.generate package base texts = .error (.notSource base)) := by
  simp only [← ofText?_eq_none_iff, ← mapM_eq_none_iff, Nodes.generate]
  cases texts.mapM Spec.ofText? with
  | none => exact .inl ⟨rfl, rfl⟩
  | some specs =>
    refine .inr ⟨Option.some_ne_none specs, specs, rfl, ?_⟩
    cases hfile : file? package base specs with
    | none => exact .inr (by simp [hfile])
    | some file => exact .inl ⟨file, rfl, by simp [hfile]⟩

end Guarded.Passes

/-! ## Writing -/

/-- What another disk holds once a text is in the file at a path. A sink keeps nothing, and no other place
changes. -/
def Disk.Receives (disk : Disk) (path text : String) (disk' : Disk) : Prop :=
  ∃ place, disk.writable path = .ok place ∧
    (disk.node? place = some .sink ∧ disk' = disk ∨ disk'.node? place = some (.file text)) ∧
      ∀ other, other ≠ place → disk'.node? other = disk.node? other

theorem Disk.receives_of_write {disk disk' : Disk} {path text : String} (h : disk.write path text = .ok disk') :
    disk.Receives path text disk' := by
  unfold Disk.write at h
  cases hplace : disk.writable path with
  | error e => simp [hplace, Except.map] at h
  | ok place =>
    simp only [hplace, Except.map, Except.ok.injEq] at h
    subst h
    refine ⟨place, hplace, ?_, ?_⟩
    · cases hnode : disk.node? place with
      | none => exact .inr (by simp [node?_put_self (.inl hnode)])
      | some node =>
        cases node with
        | file old => exact .inr (by simp [node?_put_self (.inr ⟨old, hnode⟩)])
        | directory => exact absurd hnode (writable_not_directory hplace)
        | sink => exact .inl ⟨rfl, by simp⟩
    · intro other hother
      split
      · rfl
      · exact node?_put_of_ne disk hother _

namespace Guarded.Passes

/-- A source is written exactly when there is one. -/
theorem generateIn_ok_iff {disk disk' : Disk} {directory base : String} {texts : List String} :
    generateIn disk directory base texts = .ok disk' ↔
      ∃ source, Nodes.generate (Path.last directory) base texts = .ok source ∧
        disk.write (filePath directory base) source = .ok disk' := by
  unfold generateIn
  cases Nodes.generate (Path.last directory) base texts with
  | error e => simp
  | ok source => cases h : disk.write (filePath directory base) source <;> simp [h]

/-- The passes fault exactly on malformed texts, always because a position is out of reach. On all others they
come to the text of the file for the node types that the texts describe, or to the answer that these give no
file, as the generator does; and nothing but a source is ever written. -/
theorem faults_exactly_on_malformed (package base : String) (texts : List String) :
    (∀ fault, generate package base texts = .error fault ↔ fault = .index ∧ ∃ text ∈ texts, Malformed text) ∧
      (Nodes.generate package base texts = .error .malformedSpec ↔ ∃ text ∈ texts, Malformed text) ∧
      ((∃ text ∈ texts, Malformed text) ∨ ∃ specs, texts.mapM Spec.ofText? = some specs ∧
        generate package base texts = .ok (Nodes.generate package base texts) ∧
          ((∃ file, file? package base specs = some file ∧ Nodes.generate package base texts = .ok file.text) ∨
            file? package base specs = none ∧
              Nodes.generate package base texts = .error (.notSource base))) ∧
      ∀ disk directory disk', generateIn disk directory base texts = .ok disk' ↔
        ∃ source, Nodes.generate (Path.last directory) base texts = .ok source ∧
          disk.write (filePath directory base) source = .ok disk' ∧
          disk.Receives (filePath directory base) source disk' := by
  refine ⟨?_, ?_, ?_, ?_⟩
  · intro fault
    rw [generate_eq]
    obtain ⟨hbad, h⟩ | ⟨hgood, specs, -, ⟨file, -, h⟩ | ⟨-, h⟩⟩ := generate_cases package base texts
    · simp [h, hbad, eq_comm]
    · simp [h, hgood]
    · simp [h, hgood]
  · obtain ⟨hbad, h⟩ | ⟨hgood, specs, -, ⟨file, -, h⟩ | ⟨-, h⟩⟩ := generate_cases package base texts
    · simp [h, hbad]
    · simp [h, hgood]
    · simp [h, hgood]
  · obtain ⟨hbad, -⟩ | ⟨-, specs, hspecs, h⟩ := generate_cases package base texts
    · exact .inl hbad
    · refine .inr ⟨specs, hspecs, ?_, h⟩
      rw [generate_eq]
      obtain ⟨file, -, h⟩ | ⟨-, h⟩ := h <;> rw [h]
  · intro disk directory disk'
    rw [generateIn_ok_iff]
    constructor
    · rintro ⟨source, hsource, hwrite⟩
      exact ⟨source, hsource, hwrite, Disk.receives_of_write hwrite⟩
    · rintro ⟨source, hsource, hwrite, -⟩
      exact ⟨source, hsource, hwrite⟩

end Guarded.Passes

end Reckoner
