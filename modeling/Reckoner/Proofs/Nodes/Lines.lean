/-
The lines of a generated source as words and signs. Every line begins where no word and no comment is open, and
ends there again, so that the words and signs of a source are those of its lines behind one another.
-/
import Reckoner.Nodes.Source
import Reckoner.Proofs.Nodes.Clause
import Reckoner.Proofs.Nodes.Fragments
import Reckoner.Proofs.Nodes.Spelling

namespace Reckoner.Nodes

open Outline

/-! ## Types and fields -/

/-- The type with a layer around another one. -/
def Layer.around : Layer → TypeTerm → TypeTerm
  | .pointer, t => .pointer t
  | .slice, t => .slice t

/-- The type of a field. -/
def FieldPlan.type (f : FieldPlan) : TypeTerm :=
  f.layers.foldr Layer.around (.name f.base.text)

/-- A layer as signs. -/
def Layer.signs : Layer → List Lexeme
  | .pointer => [.sign '*']
  | .slice => [.sign '[', .sign ']']

theorem FieldPlan.spelling_type (f : FieldPlan) :
    f.type.spelling = f.layers.flatMap Layer.signs ++ [.word f.base.text] := by
  rw [type]
  induction f.layers with
  | nil => rfl
  | cons layer layers ih =>
    rw [List.foldr_cons, List.flatMap_cons, List.append_assoc, ← ih]
    cases layer <;> rfl

namespace Outline

theorem yields_layers (layers : List Layer) (ends : Bool) :
    ∃ ends', Yields ⟨.plain, ends⟩ (layers.flatMap Layer.chars) (layers.flatMap Layer.signs) ⟨.plain, ends'⟩ := by
  induction layers generalizing ends with
  | nil => exact ⟨ends, rfl⟩
  | cons layer layers ih =>
    have hlayer : ∃ ends', Yields ⟨.plain, ends⟩ layer.chars layer.signs ⟨.plain, ends'⟩ := by
      cases layer with
      | pointer => exact ⟨false, rfl⟩
      | slice => exact ⟨true, rfl⟩
    obtain ⟨ends₁, hlayer⟩ := hlayer
    obtain ⟨ends', hlayers⟩ := ih ends₁
    exact ⟨ends', hlayer.append hlayers⟩

/-- A type ends in its base. -/
theorem yields_type (f : FieldPlan) (ends : Bool) :
    ∃ ends', Yields ⟨.plain, ends⟩ f.typeChars (f.layers.flatMap Layer.signs) ⟨.word f.base.text.toList, ends'⟩ := by
  obtain ⟨ends', hlayers⟩ := yields_layers f.layers ends
  have hbase := yields_word f.base.ne_nil f.base.isNameChar ends'
  exact ⟨ends', by simpa [FieldPlan.typeChars] using hlayers.append hbase⟩

/-! ## Lists -/

/-- Characters whose words and signs end in a word. -/
def EndsInWord (cs : List Char) (ls : List Lexeme) : Prop :=
  ∀ ends, ∃ front w ends', Yields ⟨.plain, ends⟩ cs front ⟨.word w, ends'⟩ ∧ ls = front ++ [.word (String.ofList w)]

theorem endsInWord_word (x : Identifier) : EndsInWord x.text.toList [.word x.text] := by
  intro ends
  exact ⟨[], x.text.toList, ends, yields_word x.ne_nil x.isNameChar ends, by simp⟩

theorem endsInWord_pair (x : Identifier) (f : FieldPlan) :
    EndsInWord (x.text.toList ++ ' ' :: f.typeChars) (Parameter.spelling ⟨x.text, f.type⟩) := by
  intro ends
  have hname := yields_word x.ne_nil x.isNameChar ends
  have hblank : Yields ⟨.word x.text.toList, ends⟩ [' '] [.word (String.ofList x.text.toList)]
      ⟨.plain, endsStatement (String.ofList x.text.toList)⟩ := rfl
  obtain ⟨ends', htype⟩ := yields_type f (endsStatement (String.ofList x.text.toList))
  refine ⟨_, _, ends', by simpa using (hname.append hblank).append htype, ?_⟩
  simp [Parameter.spelling, FieldPlan.spelling_type]

/-- A list behind its opening bracket, up to the closing one. -/
theorem yields_list {texts : List (List Char)} {parts : List (List Lexeme)} (h : List.Forall₂ EndsInWord texts parts)
    {closing : Char} (hclosing : closing = ')' ∨ closing = '\x7d') (ends : Bool) :
    Yields ⟨.plain, ends⟩ (List.intercalate [',', ' '] texts ++ [closing]) (commas parts ++ [.sign closing])
      ⟨.plain, true⟩ := by
  induction h generalizing ends with
  | nil => rcases hclosing with rfl | rfl <;> rfl
  | cons hpart hparts ih =>
    obtain ⟨front, w, ends', hyields, rfl⟩ := hpart ends
    cases hparts with
    | nil =>
      have hlast : Yields ⟨.word w, ends'⟩ [closing] [.word (String.ofList w), .sign closing] ⟨.plain, true⟩ := by
        rcases hclosing with rfl | rfl <;> rfl
      simpa [commas] using hyields.append hlast
    | cons =>
      have hcomma : Yields ⟨.word w, ends'⟩ [',', ' '] [.word (String.ofList w), .sign ','] ⟨.plain, false⟩ := rfl
      have hall := (hyields.append hcomma).append (ih false)
      rw [List.intercalate_cons_cons, commas, List.intercalate_cons_cons]
      simpa [commas] using hall

/-! ## Lines -/

/-- Lines with their words and signs. -/
def Spells (lines : List String) (ls : List Lexeme) : Prop :=
  Yields .fresh (lines.flatMap fun line => line.toList ++ ['\n']) ls .fresh

theorem Spells.append {lines lines' : List String} {ls ls' : List Lexeme} (h : Spells lines ls)
    (h' : Spells lines' ls') : Spells (lines ++ lines') (ls ++ ls') := by
  unfold Spells at *
  rw [List.flatMap_append]
  exact Yields.append h h'

theorem Spells.cons {line : String} {lines : List String} {ls ls' : List Lexeme} (h : Spells [line] ls)
    (h' : Spells lines ls') : Spells (line :: lines) (ls ++ ls') :=
  h.append h'

theorem spells_line {line : String} {ls : List Lexeme} (h : Yields .fresh (line.toList ++ ['\n']) ls .fresh) :
    Spells [line] ls := by
  simpa [Spells] using h

theorem spells_nil : Spells [] [] := rfl

theorem spells_empty : Spells [""] [] := rfl

/-- A line with a comment only. -/
theorem spells_comment {line : String} (cs : List Char) (hline : line.toList = '/' :: '/' :: cs) (hcs : '\n' ∉ cs) :
    Spells [line] [] := by
  have hopen : Yields .fresh ['/', '/'] [] ⟨.lineRemark, false⟩ := rfl
  have hend : Yields ⟨.lineRemark, false⟩ ['\n'] [] .fresh := rfl
  apply spells_line
  rw [hline]
  exact (hopen.append (yields_lineRemark hcs false)).append hend

/-- A line that closes a block. -/
theorem spells_close : Spells ["\x7d"] [.sign '\x7d', .ending] := rfl

/-- A word can be the last of a statement. -/
theorem yields_end {w : String} (h : endsStatement w = true) (ends : Bool) :
    Yields ⟨.word w.toList, ends⟩ ['\n'] [.word w, .ending] .fresh := by
  have hend : Yields ⟨.plain, endsStatement (String.ofList w.toList)⟩ ['\n'] [.ending] .fresh := by
    rw [String.ofList_toList, h]
    rfl
  simpa using yields_complete rfl w.toList hend ends

/-- The line of a field. -/
theorem spells_field {f : FieldPlan} {line : String} (h : FieldLine f line) (hbase : f.base.text ∉ keywords) :
    Spells [line] (Parameter.spelling ⟨f.name.text, f.type⟩ ++ [.ending]) := by
  obtain ⟨pad, gap, hline, hpad, hgap, hne⟩ := h
  have hbegin := yields_blank hpad false
  have hname := yields_word f.name.ne_nil f.name.isNameChar false
  have hblank := yields_word_blank hne hgap f.name.text.toList false
  obtain ⟨ends, htype⟩ := yields_type f (endsStatement (String.ofList f.name.text.toList))
  have hend := yields_end (w := f.base.text) (by simp [endsStatement, hbase]) ends
  have hall := (((hbegin.append hname).append hblank).append htype).append hend
  apply spells_line
  rw [hline]
  simpa [State.fresh, Parameter.spelling, FieldPlan.spelling_type] using hall

/-- The line that begins an interface or a struct. -/
theorem spells_opening {line name kind : String}
    (hline : line.toList = "type ".toList ++ name.toList ++ ' ' :: kind.toList ++ " \x7b".toList)
    (hname : isName name = true) (hkind : kind = "interface" ∨ kind = "struct") :
    Spells [line] [.word "type", .word name, .word kind, .sign '\x7b'] := by
  have hhead : Yields .fresh "type ".toList [.word "type"] .fresh := rfl
  have htail : Yields ⟨.word name.toList, false⟩ (' ' :: kind.toList ++ " \x7b".toList ++ ['\n'])
      [.word (String.ofList name.toList), .word kind, .sign '\x7b'] .fresh := by
    rcases hkind with rfl | rfl <;> rfl
  apply spells_line
  rw [hline]
  simpa [List.append_assoc] using (hhead.append (yields_name hname false)).append htail

/-! ## Declarations of plans -/

/-- What a visit gives: anything, and an error. -/
def visitResults : List TypeTerm :=
  [.anything, .name "error"]

/-- The method that accepts a visitor. -/
def accept (base : String) : Signature :=
  ⟨"Accept", [⟨"visitor", .name (base ++ "Visitor")⟩], visitResults⟩

end Outline

namespace NodePlan

/-- The name of the struct for a plan. -/
def typeName (base : String) (plan : NodePlan) : String :=
  plan.name.text ++ base

/-- A node as a parameter. -/
def self (base : String) (plan : NodePlan) : Parameter :=
  ⟨receiver base, .pointer (.name (plan.typeName base))⟩

/-- The method of a visitor for a plan. -/
def visit (base : String) (plan : NodePlan) : Outline.Signature :=
  ⟨"Visit" ++ plan.typeName base, [plan.self base], visitResults⟩

/-- The struct with the fields of a plan. -/
def record (base : String) (plan : NodePlan) : Declaration :=
  .record (plan.typeName base) (plan.fields.map fun f => ⟨f.name.text, f.type⟩)

/-- The constructor. It has a parameter for each field and passes them on in order. -/
def constructor (base : String) (plan : NodePlan) : Declaration :=
  .function none
    ⟨"New" ++ plan.typeName base, plan.fields.map fun f => ⟨f.parameter, f.type⟩,
      [.pointer (.name (plan.typeName base))]⟩
    (.record (plan.typeName base) (plan.fields.map FieldPlan.parameter))

/-- The method that accepts a visitor and calls the method for the plan. -/
def acceptance (base : String) (plan : NodePlan) : Declaration :=
  .function (some (plan.self base)) (accept base)
    (.call "visitor" ("Visit" ++ plan.typeName base) [receiver base])

end NodePlan

/-- The declarations for plans: the interface of all nodes, the visitor, and three for each plan. -/
def declared (base : String) (plans : List NodePlan) : List Declaration :=
  [.interface base [accept base], .interface (base ++ "Visitor") (plans.map (NodePlan.visit base))] ++
    plans.flatMap fun plan => [plan.record base, plan.constructor base, plan.acceptance base]

/-! ## Names of declarations -/

/-- No keyword has a capital letter. -/
theorem isName_of_capital {s : String} {c : Char} {rest : List Char} (hs : s.toList = c :: rest)
    (hc : isNameStart c = true) (hrest : ∀ d ∈ rest, isNameChar d = true)
    (hcapital : 'N' ∈ s.toList ∨ 'V' ∈ s.toList) : isName s = true := by
  have hkeywords : ∀ k ∈ keywords, 'N' ∉ k.toList ∧ 'V' ∉ k.toList := by decide
  refine isName_iff.2 ⟨⟨c, rest, hs, hc, hrest⟩, ?_⟩
  intro hmem
  exact hcapital.elim (hkeywords s hmem).1 (hkeywords s hmem).2

theorem isName_prefixed {front w : String} (hfront : front = "New" ∨ front = "Visit") (h : isName w = true) :
    isName (front ++ w) = true := by
  have hw := (isName_chars h).2
  rcases hfront with rfl | rfl
  · refine isName_of_capital (c := 'N') String.toList_append (by decide) ?_ (.inl (by simp))
    exact List.forall_mem_cons.2 ⟨by decide, List.forall_mem_cons.2 ⟨by decide, hw⟩⟩
  · refine isName_of_capital (c := 'V') String.toList_append (by decide) ?_ (.inr (by simp))
    intro d hd
    rcases List.mem_append.1 (show d ∈ "isit".toList ++ w.toList from hd) with hd | hd
    · exact List.all_eq_true.1 (show "isit".toList.all isNameChar = true from rfl) d hd
    · exact hw d hd

theorem visitor_chars : ∀ c ∈ "Visitor".toList, isNameChar c = true :=
  List.all_eq_true.1 rfl

theorem isName_visitor {w : String} (h : isName w = true) : isName (w ++ "Visitor") = true := by
  obtain ⟨⟨c, rest, hw, hc, hrest⟩, -⟩ := isName_iff.1 h
  have hs : (w ++ "Visitor").toList = c :: (rest ++ "Visitor".toList) := by rw [String.toList_append, hw]; rfl
  refine isName_of_capital hs hc ?_ (.inr (by simp))
  intro d hd
  rcases List.mem_append.1 hd with hd | hd
  · exact hrest d hd
  · exact visitor_chars d hd

namespace Outline

/-! ## Lines of declarations -/

section

variable {base self struct : String}

/-- A word from two texts is complete before a bracket. -/
theorem yields_open (front w : String) (ends : Bool) :
    Yields ⟨.word (front.toList ++ w.toList), ends⟩ ['('] [.word (front ++ w), .sign '('] ⟨.plain, false⟩ := by
  have hword : String.ofList (front.toList ++ w.toList) = front ++ w := by simp
  rw [← hword]
  rfl

/-- A node as a parameter, up to the name of its struct. -/
theorem yields_self (hself : isName self = true) (hstruct : isName struct = true) :
    Yields ⟨.plain, false⟩ (self.toList ++ " *".toList ++ struct.toList) [.word self, .sign '*']
      ⟨.word struct.toList, false⟩ := by
  have hstar : Yields ⟨.word self.toList, false⟩ " *".toList [.word (String.ofList self.toList), .sign '*']
      ⟨.plain, false⟩ := rfl
  simpa using ((yields_name hself false).append hstar).append (yields_name hstruct false)

/-- The method that accepts a visitor. -/
theorem yields_accept (hbase : isName base = true) (ends : Bool) :
    Yields ⟨.plain, ends⟩ ("Accept(visitor ".toList ++ base.toList ++ "Visitor) (interface\x7b\x7d, error)".toList)
      (accept base).spelling ⟨.plain, true⟩ := by
  have hhead : Yields ⟨.plain, ends⟩ "Accept(visitor ".toList [.word "Accept", .sign '(', .word "visitor"]
      ⟨.plain, true⟩ := rfl
  have hmore := yields_more visitor_chars base.toList true
  have htail : Yields ⟨.word (base.toList ++ "Visitor".toList), true⟩ ") (interface\x7b\x7d, error)".toList
      [.word (String.ofList (base.toList ++ "Visitor".toList)), .sign ')', .sign '(', .word "interface", .sign '\x7b',
        .sign '\x7d', .sign ',', .word "error", .sign ')'] ⟨.plain, true⟩ := rfl
  simpa [accept, visitResults, Signature.spelling, Parameter.spelling, TypeTerm.spelling, enclosed, commas,
    resultsSpelling] using ((hhead.append (yields_name hbase true)).append hmore).append htail

/-- The method that accepts a visitor, in the interface of all nodes. -/
theorem spells_accept (hbase : isName base = true) :
    Spells ["\tAccept(visitor " ++ base ++ "Visitor) (interface\x7b\x7d, error)"]
      ((accept base).spelling ++ [.ending]) := by
  have htab : Yields .fresh ['\t'] [] ⟨.plain, false⟩ := rfl
  have hend : Yields ⟨.plain, true⟩ ['\n'] [.ending] .fresh := rfl
  apply spells_line
  simpa using (htab.append (yields_accept hbase false)).append hend

/-- A method of the visitor. -/
theorem spells_visit (hself : isName self = true) (hstruct : isName struct = true) :
    Spells ["\tVisit" ++ struct ++ "(" ++ self ++ " *" ++ struct ++ ") (interface\x7b\x7d, error)"]
      (Signature.spelling ⟨"Visit" ++ struct, [⟨self, .pointer (.name struct)⟩], visitResults⟩ ++ [.ending]) := by
  have hhead : Yields .fresh "\tVisit".toList [] ⟨.word "Visit".toList, false⟩ := rfl
  have hmore := yields_more (isName_chars hstruct).2 "Visit".toList false
  have hopen := yields_open "Visit" struct false
  have htail : Yields ⟨.word struct.toList, false⟩ (") (interface\x7b\x7d, error)".toList ++ ['\n'])
      [.word (String.ofList struct.toList), .sign ')', .sign '(', .word "interface", .sign '\x7b', .sign '\x7d',
        .sign ',', .word "error", .sign ')', .ending] .fresh := rfl
  apply spells_line
  simpa [visitResults, Signature.spelling, Parameter.spelling, TypeTerm.spelling, enclosed, commas, resultsSpelling]
    using (((hhead.append hmore).append hopen).append (yields_self hself hstruct)).append htail

/-- The line that begins a constructor. -/
theorem spells_new (hstruct : isName struct = true) {texts : List (List Char)} {parts : List (List Lexeme)}
    (h : List.Forall₂ EndsInWord texts parts) {parameters : String}
    (hparameters : parameters.toList = '(' :: List.intercalate [',', ' '] texts ++ [')']) :
    Spells ["func New" ++ struct ++ parameters ++ " *" ++ struct ++ " \x7b"]
      (.word "func" :: .word ("New" ++ struct) :: enclosed '(' ')' parts ++
        [.sign '*', .word struct, .sign '\x7b']) := by
  have hhead : Yields .fresh "func New".toList [.word "func"] ⟨.word "New".toList, false⟩ := rfl
  have hmore := yields_more (isName_chars hstruct).2 "New".toList false
  have hopen := yields_open "New" struct false
  have hlist := yields_list h (.inl rfl) false
  have hstar : Yields ⟨.plain, true⟩ " *".toList [.sign '*'] ⟨.plain, false⟩ := rfl
  have htail : Yields ⟨.word struct.toList, false⟩ (" \x7b".toList ++ ['\n'])
      [.word (String.ofList struct.toList), .sign '\x7b'] .fresh := rfl
  apply spells_line
  simpa [hparameters, enclosed] using
    (((((hhead.append hmore).append hopen).append hlist).append hstar).append (yields_name hstruct false)).append htail

/-- The line that returns a new node. -/
theorem spells_return (hstruct : isName struct = true) {texts : List (List Char)} {parts : List (List Lexeme)}
    (h : List.Forall₂ EndsInWord texts parts) {arguments : String}
    (harguments : arguments.toList = '\x7b' :: List.intercalate [',', ' '] texts ++ ['\x7d']) :
    Spells ["\treturn &" ++ struct ++ arguments]
      (.word "return" :: .sign '&' :: .word struct :: enclosed '\x7b' '\x7d' parts ++ [.ending]) := by
  have hhead : Yields .fresh "\treturn &".toList [.word "return", .sign '&'] ⟨.plain, false⟩ := rfl
  have hopen : Yields ⟨.word struct.toList, false⟩ ['\x7b'] [.word (String.ofList struct.toList), .sign '\x7b']
      ⟨.plain, false⟩ := rfl
  have hlist := yields_list h (.inr rfl) false
  have hend : Yields ⟨.plain, true⟩ ['\n'] [.ending] .fresh := rfl
  apply spells_line
  simpa [harguments, enclosed] using (((hhead.append (yields_name hstruct false)).append hopen).append hlist).append hend

/-- The line that begins the method that accepts a visitor. -/
theorem spells_method (hbase : isName base = true) (hself : isName self = true) (hstruct : isName struct = true) :
    Spells ["func (" ++ self ++ " *" ++ struct ++ ") Accept(visitor " ++ base ++
        "Visitor) (interface\x7b\x7d, error) \x7b"]
      (.word "func" :: receiverSpelling (some ⟨self, .pointer (.name struct)⟩) ++ (accept base).spelling ++
        [.sign '\x7b']) := by
  have hhead : Yields .fresh "func (".toList [.word "func", .sign '('] ⟨.plain, false⟩ := rfl
  have hclose : Yields ⟨.word struct.toList, false⟩ ") ".toList [.word (String.ofList struct.toList), .sign ')']
      ⟨.plain, true⟩ := rfl
  have htail : Yields ⟨.plain, true⟩ (" \x7b".toList ++ ['\n']) [.sign '\x7b'] .fresh := rfl
  apply spells_line
  simpa [receiverSpelling, Parameter.spelling, TypeTerm.spelling, enclosed, commas] using
    (((hhead.append (yields_self hself hstruct)).append hclose).append (yields_accept hbase true)).append htail

/-- The line that calls the method of a visitor. -/
theorem spells_call (hself : isName self = true) (hstruct : isName struct = true) :
    Spells ["\treturn visitor.Visit" ++ struct ++ "(" ++ self ++ ")"]
      ((Answer.call "visitor" ("Visit" ++ struct) [self]).spelling ++ [.ending]) := by
  have hhead : Yields .fresh "\treturn visitor.Visit".toList [.word "return", .word "visitor", .sign '.']
      ⟨.word "Visit".toList, false⟩ := rfl
  have hmore := yields_more (isName_chars hstruct).2 "Visit".toList false
  have hopen := yields_open "Visit" struct false
  have htail : Yields ⟨.word self.toList, false⟩ (")".toList ++ ['\n'])
      [.word (String.ofList self.toList), .sign ')', .ending] .fresh := rfl
  apply spells_line
  simpa [Answer.spelling, enclosed, commas] using
    (((hhead.append hmore).append hopen).append (yields_name hself false)).append htail

end

end Outline

end Reckoner.Nodes
