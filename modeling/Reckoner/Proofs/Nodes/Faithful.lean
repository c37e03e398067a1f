/-
Generated sources give back what they were generated from. From the source for plans of node types its
declarations are read: the structs with their fields, one method of the visitor for each of them, constructors
that pass their parameters on in order, and methods that call the method of the visitor for their own struct.
How the plans were written does not show in the source.
-/
import Reckoner.Proofs.Nodes.Lines

namespace Reckoner.Nodes

open Outline

/-! ## Nodes of plans -/

/-- A node as it is generated for a plan. -/
structure Renders (base : String) (plan : NodePlan) (node : NodeSource) : Prop where
  name : node.name = plan.name.text
  typeName : isName (plan.typeName base) = true
  self : isName (receiver base) = true
  allowed : ∀ f ∈ plan.fields, f.Allowed (·.name.text)
  parametersAllowed : ∀ f ∈ plan.fields, f.parameter ∉ keywords
  body : ∃ lines, List.Forall₂ FieldLine plan.fields lines ∧
    node.body = String.intercalate "\n" ("\x7b" :: lines ++ ["\x7d"])
  parameters : node.parameters.toList =
    '(' :: List.intercalate [',', ' '] (plan.fields.map (pairChars FieldPlan.parameter)) ++ [')']
  arguments : node.arguments.toList =
    '\x7b' :: List.intercalate [',', ' '] (plan.fields.map fun f => f.parameter.toList) ++ ['\x7d']

theorem renders_of_nodeSource? {base : String} {plan : NodePlan} {node : NodeSource} (hne : plan.fields ≠ [])
    (h : nodeSource? base plan.spec = some node) : Renders base plan node := by
  unfold nodeSource? guard at h
  by_cases hnames : (isName (plan.spec.name ++ base) && isName (receiver base)) = true
  · simp only [hnames, if_true, Option.pure_def, Option.bind_eq_bind, Option.bind_some,
      Option.bind_eq_some_iff, Option.some.injEq] at h
    obtain ⟨body, hbody, parameters, hparameters, arguments, harguments, rfl⟩ := h
    rw [Bool.and_eq_true] at hnames
    obtain ⟨hallowed, hlines⟩ := structBody?_plans hne hbody
    obtain ⟨hparameter, htext⟩ := argumentList?_plans harguments
    exact {
      name := rfl
      typeName := hnames.1
      self := hnames.2
      allowed := hallowed
      parametersAllowed := hparameter
      body := hlines
      parameters := parameterList?_plans (fun f hf => ⟨hparameter f hf, (hallowed f hf).2⟩) hparameters
      arguments := htext }
  · rw [if_neg hnames] at h
    cases h

/-! ## Lines of nodes -/

theorem intercalate_newline (first : String) (lines : List String) :
    (String.intercalate "\n" (first :: lines)).toList ++ ['\n'] =
      (first :: lines).flatMap fun line => line.toList ++ ['\n'] := by
  rw [String.toList_intercalate]
  induction lines generalizing first with
  | nil => simp
  | cons line lines ih =>
    rw [List.map_cons, List.map_cons, List.intercalate_cons_cons, ← List.map_cons, List.append_assoc, ih,
      List.flatMap_cons]
    rfl

/-- A text with several lines at its end. -/
theorem spells_joined (front : String) {first : String} {lines : List String} {ls : List Lexeme}
    (h : Spells ((front ++ first) :: lines) ls) : Spells [front ++ String.intercalate "\n" (first :: lines)] ls := by
  apply spells_line
  rw [String.toList_append, List.append_assoc, intercalate_newline]
  simpa [Spells] using h

theorem spells_fields {fields : List FieldPlan} {lines : List String} (h : List.Forall₂ FieldLine fields lines)
    (hbase : ∀ f ∈ fields, f.base.text ∉ keywords) :
    Spells lines ((fields.map fun f => Parameter.spelling ⟨f.name.text, f.type⟩).flatMap (· ++ [.ending])) := by
  induction h with
  | nil => exact spells_nil
  | cons hline _ ih =>
    rw [List.forall_mem_cons] at hbase
    exact (spells_field hline hbase.1).cons (ih hbase.2)

variable {base : String} {plan : NodePlan} {node : NodeSource}

theorem Renders.structName (h : Renders base plan node) : structName base node.name = plan.typeName base := by
  rw [Nodes.structName, h.name, NodePlan.typeName]

theorem Renders.spells_record (h : Renders base plan node) :
    Spells (structLines base node) ((plan.record base).spelling ++ [.ending]) := by
  obtain ⟨lines, hlines, hbody⟩ := h.body
  have hfields := spells_fields hlines fun f hf => (h.allowed f hf).2
  have hopening : Spells ["type " ++ plan.typeName base ++ " struct " ++ "\x7b"] _ :=
    spells_opening (by simp) h.typeName (.inr rfl)
  have hjoined := spells_joined _ (hopening.cons (hfields.append spells_close))
  rw [structLines, h.structName, hbody]
  simpa [NodePlan.record, Declaration.spelling, block, Function.comp_def] using hjoined

theorem Renders.spells_constructor (h : Renders base plan node) :
    Spells (constructorLines base node) ((plan.constructor base).spelling ++ [.ending]) := by
  have hpairs : List.Forall₂ EndsInWord (plan.fields.map (pairChars FieldPlan.parameter))
      (plan.fields.map fun f => Parameter.spelling ⟨f.parameter, f.type⟩) := by
    rw [List.forall₂_map_left_iff, List.forall₂_map_right_iff, List.forall₂_same]
    exact fun f _ => endsInWord_pair f.name.lowered f
  have hwords : List.Forall₂ EndsInWord (plan.fields.map fun f => f.parameter.toList)
      (plan.fields.map fun f => [.word f.parameter]) := by
    rw [List.forall₂_map_left_iff, List.forall₂_map_right_iff, List.forall₂_same]
    exact fun f _ => endsInWord_word f.name.lowered
  have hall := (spells_new h.typeName hpairs h.parameters).cons
    ((spells_return h.typeName hwords h.arguments).cons spells_close)
  rw [constructorLines, h.structName]
  simpa [NodePlan.constructor, Declaration.spelling, receiverSpelling, Signature.spelling, resultsSpelling,
    TypeTerm.spelling, Answer.spelling, block, Function.comp_def] using hall

theorem Renders.spells_acceptance (h : Renders base plan node) (hbase : isName base = true) :
    Spells (acceptLines base node) ((plan.acceptance base).spelling ++ [.ending]) := by
  have hall := (spells_method hbase h.self h.typeName).cons ((spells_call h.self h.typeName).cons spells_close)
  rw [acceptLines, h.structName]
  simpa [NodePlan.acceptance, NodePlan.self, Declaration.spelling, block] using hall

theorem Renders.spells_node (h : Renders base plan node) (hbase : isName base = true) :
    Spells (nodeLines base node)
      ([plan.record base, plan.constructor base, plan.acceptance base].flatMap fun d => d.spelling ++ [.ending]) := by
  have hall := spells_empty.cons ((h.spells_record.append
    (spells_empty.cons (h.spells_constructor.append (spells_empty.cons (h.spells_acceptance hbase))))))
  simpa [nodeLines] using hall

theorem Renders.spells_visit (h : Renders base plan node) :
    Spells [visitLine base node.name] ((plan.visit base).spelling ++ [.ending]) := by
  rw [visitLine, h.structName]
  exact Outline.spells_visit h.self h.typeName

/-! ## Sources -/

section

variable {plans : List NodePlan} {nodes : List NodeSource}

theorem spells_visits (h : List.Forall₂ (Renders base) plans nodes) :
    Spells ((nodes.map (·.name)).map (visitLine base))
      ((plans.map (·.visit base)).flatMap fun m => m.spelling ++ [.ending]) := by
  induction h with
  | nil => exact spells_nil
  | cons hnode _ ih => exact hnode.spells_visit.cons ih

theorem spells_nodes (h : List.Forall₂ (Renders base) plans nodes) (hbase : isName base = true) :
    Spells (nodes.flatMap (nodeLines base))
      ((plans.flatMap fun plan => [plan.record base, plan.constructor base, plan.acceptance base]).flatMap
        fun d => d.spelling ++ [.ending]) := by
  induction h with
  | nil => exact spells_nil
  | cons hnode _ ih =>
    rw [List.flatMap_cons, List.flatMap_cons, List.flatMap_append]
    exact (hnode.spells_node hbase).append ih

theorem newline_not_mem {w : String} (h : isName w = true) : '\n' ∉ w.toList :=
  fun hmem => absurd ((isName_chars h).2 _ hmem) (by decide)

theorem spells_head {clause : String} {ls : List Lexeme} (hclause : Spells [clause] ls) (hbase : isName base = true)
    (nodes : List NodeSource) :
    Spells (headLines ⟨clause, base, nodes⟩)
      (ls ++ ((Declaration.interface base [accept base]).spelling ++ [.ending])) := by
  have hgenerated : Spells ["// Code generated by ast_codegen. DO NOT EDIT."] [] := rfl
  have hcomment : Spells ["// " ++ base ++ " is a node of the syntax tree."] [] :=
    spells_comment (' ' :: base.toList ++ " is a node of the syntax tree.".toList) (by simp)
      (by simp [newline_not_mem hbase])
  have hopening : Spells ["type " ++ base ++ " interface \x7b"] _ := spells_opening (by simp) hbase (.inl rfl)
  have hall := (hgenerated.cons spells_empty).append (hclause.append ((spells_empty.cons hcomment).append
    (hopening.append ((spells_accept hbase).append (spells_close.append spells_empty)))))
  simpa [headLines, Declaration.spelling, block] using hall

theorem spells_visitorLines (h : List.Forall₂ (Renders base) plans nodes) (hbase : isName base = true) :
    Spells (visitorLines base (nodes.map (·.name)))
      ((Declaration.interface (base ++ "Visitor") (plans.map (NodePlan.visit base))).spelling ++ [.ending]) := by
  have hcomment : Spells ["// " ++ base ++ "Visitor is implemented by every pass over " ++ base ++ " nodes."] [] :=
    spells_comment (' ' :: base.toList ++ "Visitor is implemented by every pass over ".toList ++ base.toList ++
      " nodes.".toList) (by simp) (by simp [newline_not_mem hbase])
  have hopening : Spells ["type " ++ base ++ "Visitor interface \x7b"] _ :=
    spells_opening (by simp) (isName_visitor hbase) (.inl rfl)
  have hall := hcomment.append (hopening.append ((spells_visits h).append spells_close))
  simpa [visitorLines, Declaration.spelling, block, List.flatMap_map] using hall

/-- The lines of a source spell out its package and the declarations for its plans. -/
theorem spells_file {clause name : String} (hclause : Spells [clause] [.word "package", .word name, .ending])
    (h : List.Forall₂ (Renders base) plans nodes) (hbase : isName base = true) :
    Spells (File.lines ⟨clause, base, nodes⟩) (Outline.spelling ⟨name, declared base plans⟩) := by
  have hall := (spells_head hclause hbase nodes).append
    ((spells_visitorLines h hbase).append (spells_nodes h hbase))
  rw [File.lines, File.linesVisiting, List.append_assoc]
  simpa [Outline.spelling, declared, List.flatMap_map] using hall

/-! ## Names -/

theorem Identifier.isName {x : Identifier} (h : x.text ∉ keywords) : Nodes.isName x.text = true := by
  obtain ⟨c, rest, hx, hc, hrest⟩ := x.wellFormed
  exact isName_iff.2
    ⟨⟨c, rest, hx, isNameStart_of_isPlainStart hc, fun d hd => isNameChar_of_isPlain (hrest d hd)⟩, h⟩

theorem FieldPlan.named_type {f : FieldPlan} (h : f.base.text ∉ keywords) : f.type.Named := by
  rw [type]
  induction f.layers with
  | nil => exact f.base.isName h
  | cons layer layers ih => cases layer <;> exact ih

theorem named_visitResults : ∀ t ∈ visitResults, t.Named := by
  rw [visitResults, List.forall_mem_cons, List.forall_mem_singleton]
  exact ⟨trivial, show isName "error" = true by decide⟩

theorem named_accept (hbase : isName base = true) : (accept base).Named := by
  refine ⟨show isName "Accept" = true by decide, ?_, named_visitResults⟩
  rw [accept, List.forall_mem_singleton]
  exact ⟨show isName "visitor" = true by decide, isName_visitor hbase⟩

theorem Renders.named_visit (h : Renders base plan node) : (plan.visit base).Named := by
  refine ⟨isName_prefixed (.inr rfl) h.typeName, ?_, named_visitResults⟩
  rw [NodePlan.visit, List.forall_mem_singleton]
  exact ⟨h.self, h.typeName⟩

theorem Renders.named_record (h : Renders base plan node) : (plan.record base).Named := by
  refine ⟨h.typeName, ?_⟩
  rw [List.forall_mem_map]
  intro f hf
  exact ⟨f.name.isName (h.allowed f hf).1, FieldPlan.named_type (h.allowed f hf).2⟩

theorem Renders.named_constructor (h : Renders base plan node) : (plan.constructor base).Named := by
  refine ⟨by simp, ⟨isName_prefixed (.inl rfl) h.typeName, ?_, ?_⟩, h.typeName, ?_⟩
  · rw [List.forall_mem_map]
    intro f hf
    exact ⟨f.name.lowered.isName (h.parametersAllowed f hf), FieldPlan.named_type (h.allowed f hf).2⟩
  · rw [List.forall_mem_singleton]
    exact h.typeName
  · rw [List.forall_mem_map]
    intro f hf
    exact f.name.lowered.isName (h.parametersAllowed f hf)

theorem Renders.named_acceptance (h : Renders base plan node) (hbase : isName base = true) :
    (plan.acceptance base).Named := by
  refine ⟨?_, named_accept hbase, by decide, isName_prefixed (.inr rfl) h.typeName, ?_⟩
  · rintro p ⟨⟩
    exact ⟨h.self, h.typeName⟩
  · rw [List.forall_mem_singleton]
    exact h.self

theorem named_visits (h : List.Forall₂ (Renders base) plans nodes) : ∀ m ∈ plans.map (NodePlan.visit base), m.Named := by
  induction h with
  | nil => simp
  | cons hnode _ ih =>
    rw [List.map_cons, List.forall_mem_cons]
    exact ⟨hnode.named_visit, ih⟩

theorem named_nodes (h : List.Forall₂ (Renders base) plans nodes) (hbase : isName base = true) :
    ∀ d ∈ plans.flatMap fun plan => [plan.record base, plan.constructor base, plan.acceptance base], d.Named := by
  induction h with
  | nil => simp
  | cons hnode _ ih =>
    rw [List.flatMap_cons, List.forall_mem_append]
    refine ⟨?_, ih⟩
    simp only [List.forall_mem_cons, List.not_mem_nil, false_imp_iff, implies_true, and_true]
    exact ⟨hnode.named_record, hnode.named_constructor, hnode.named_acceptance hbase⟩

/-- All words in the declarations for plans are names. -/
theorem named_declared (h : List.Forall₂ (Renders base) plans nodes) (hbase : isName base = true) :
    ∀ d ∈ declared base plans, d.Named := by
  rw [declared, List.forall_mem_append, List.forall_mem_cons, List.forall_mem_singleton]
  refine ⟨⟨⟨hbase, ?_⟩, isName_visitor hbase, named_visits h⟩, named_nodes h hbase⟩
  rw [List.forall_mem_singleton]
  exact named_accept hbase

end

/-! ## Generating -/

section

variable {plans : List NodePlan} {texts : List String}

/-- The text of a plan is read as its node type, which must have a field. -/
theorem mapM_ofText? (h : List.Forall₂ NodePlan.Written plans texts) :
    texts.mapM Spec.ofText? = plans.mapM fun plan => if plan.fields = [] then none else some plan.spec := by
  induction h with
  | nil => rfl
  | cons hplan _ ih => rw [List.mapM_cons, List.mapM_cons, hplan.ofText?, ih]

theorem toList_text (file : File) : file.text.toList = file.lines.flatMap fun line => line.toList ++ ['\n'] := by
  rw [File.text, textOf]
  simp [List.flatMap_map]

/-- A generated source has a clause for its package and a node for each plan. -/
theorem file_of_generate (h : List.Forall₂ NodePlan.Written plans texts) {package base source : String}
    (hsource : generate package base texts = .ok source) :
    ∃ clause nodes, packageClause? package = some clause ∧ isName base = true ∧
      List.Forall₂ (Renders base) plans nodes ∧ source = File.text ⟨clause, base, nodes⟩ := by
  rw [generate, mapM_ofText? h] at hsource
  split at hsource
  · cases hsource
  · next specs hspecs =>
    split at hsource
    · cases hsource
    · next file hfile =>
      cases hsource
      unfold file? guard at hfile
      by_cases hbase : isName base = true
      · simp only [hbase, if_true, Option.pure_def, Option.bind_eq_bind, Option.bind_some,
          Option.bind_eq_some_iff, Option.some.injEq] at hfile
        obtain ⟨clause, hclause, nodes, hnodes, rfl⟩ := hfile
        refine ⟨clause, nodes, hclause, hbase, ?_, rfl⟩
        rw [mapM_eq_some_iff] at hspecs
        refine forall₂_of_mapM hspecs hnodes ?_
        intro plan spec node hspec hnode
        split at hspec
        · cases hspec
        · next hne =>
          cases hspec
          exact renders_of_nodeSource? hne hnode
      · rw [if_neg hbase] at hfile
        cases hclause : packageClause? package <;> rw [hclause] at hfile <;> cases hfile

/-- The node for a struct, whose name without `base` is that of the node. -/
def Outline.Declaration.node? (base : String) : Declaration → Option (String × List Parameter)
  | .record name fields => some (String.ofList (name.toList.take (name.length - base.length)), fields)
  | _ => none

/-- The nodes of an outline: its structs with their fields. -/
def Outline.nodes (base : String) (o : Outline) : List (String × List Parameter) :=
  o.declarations.filterMap (Declaration.node? base)

theorem filterMap_node?_plan (base : String) (plan : NodePlan) :
    [plan.record base, plan.constructor base, plan.acceptance base].filterMap (Declaration.node? base) =
      [(plan.name.text, plan.fields.map fun f => ⟨f.name.text, f.type⟩)] := by
  simp [NodePlan.record, NodePlan.constructor, NodePlan.acceptance, NodePlan.typeName, Declaration.node?,
    ← String.length_toList]

theorem nodes_declared (package base : String) (plans : List NodePlan) :
    Outline.nodes base ⟨package, declared base plans⟩ =
      plans.map fun plan => (plan.name.text, plan.fields.map fun f => ⟨f.name.text, f.type⟩) := by
  rw [Outline.nodes, declared, List.filterMap_append]
  refine (List.nil_append _).trans ?_
  induction plans with
  | nil => rfl
  | cons plan plans ih => rw [List.flatMap_cons, List.filterMap_append, filterMap_node?_plan, ih, List.map_cons]; rfl

/-- The generator is faithful. From a source that is generated for plans exactly their declarations are read, and
with them the plans: the name of each node in order, and its fields with their types in order. Texts that stand
for the same plans give the same source. -/
theorem generated_reads_back (hwritten : List.Forall₂ NodePlan.Written plans texts) (package base : String) :
    (∀ texts', List.Forall₂ NodePlan.Written plans texts' →
      generate package base texts' = generate package base texts) ∧
    ∀ source, generate package base texts = .ok source →
      ∃ outline, Outline.read? source = some outline ∧ (isName package = true → outline.package = package) ∧
        outline.declarations = declared base plans ∧
        outline.nodes base = plans.map fun plan => (plan.name.text, plan.fields.map fun f => ⟨f.name.text, f.type⟩) := by
  constructor
  · intro texts' hwritten'
    rw [generate, generate, mapM_ofText? hwritten, mapM_ofText? hwritten']
  · intro source hsource
    obtain ⟨clause, nodes, hclause, hbase, hrenders, rfl⟩ := file_of_generate hwritten hsource
    obtain ⟨name, hname, hpackage, hyields⟩ := yields_packageClause? hclause
    have hspells := spells_file (spells_line hyields) hrenders hbase
    rw [Spells, ← toList_text] at hspells
    have hread := read?_spelling hspells hname (named_declared hrenders hbase)
    exact ⟨_, hread, hpackage, rfl, nodes_declared name base plans⟩

/-- A plan of a node with two fields. -/
def unaryPlan : NodePlan where
  name := ⟨"Unary", 'U', "nary".toList, rfl, rfl, List.all_eq_true.1 rfl⟩
  fields :=
    [⟨⟨"Op", 'O', ['p'], rfl, rfl, List.all_eq_true.1 rfl⟩, [.pointer],
        ⟨"Token", 'T', "oken".toList, rfl, rfl, List.all_eq_true.1 rfl⟩⟩,
      ⟨⟨"Args", 'A', "rgs".toList, rfl, rfl, List.all_eq_true.1 rfl⟩, [.slice, .pointer],
        ⟨"Expr", 'E', "xpr".toList, rfl, rfl, List.all_eq_true.1 rfl⟩⟩]

theorem generated_reads_back_unary :
    List.Forall₂ NodePlan.Written [unaryPlan] [" Unary :Op *Token,\tArgs  []*Expr "] ∧
      ∃ source outline, generate "ast" "Expr" [" Unary :Op *Token,\tArgs  []*Expr "] = .ok source ∧
        Outline.read? source = some outline ∧ outline.package = "ast" ∧
        outline.declarations = declared "Expr" [unaryPlan] := by
  have hop : FieldPlan.Written unaryPlan.fields[0] "Op *Token".toList :=
    ⟨[], [' '], [], rfl, by decide, by decide, by simp, by decide⟩
  have hargs : FieldPlan.Written unaryPlan.fields[1] "\tArgs  []*Expr ".toList :=
    ⟨['\t'], [' ', ' '], [' '], rfl, by decide, by decide, by simp, by decide⟩
  have hwritten : List.Forall₂ NodePlan.Written [unaryPlan] [" Unary :Op *Token,\tArgs  []*Expr "] :=
    .cons ⟨[' '], [' '], _, rfl, by decide, by decide, .cons hop (.cons hargs .nil)⟩ .nil
  have hok : (generate "ast" "Expr" [" Unary :Op *Token,\tArgs  []*Expr "]).isOk = true := by decide +kernel
  refine ⟨hwritten, ?_⟩
  cases hsource : generate "ast" "Expr" [" Unary :Op *Token,\tArgs  []*Expr "] with
  | error e =>
    rw [hsource] at hok
    cases hok
  | ok source =>
    obtain ⟨outline, hread, hpackage, hdeclarations, -⟩ :=
      (generated_reads_back hwritten "ast" "Expr").2 source hsource
    exact ⟨source, outline, rfl, hread, hpackage (by decide), hdeclarations⟩

end

end Reckoner.Nodes
