/-
The Go source of node types: an interface for all nodes of a tree, a visitor with one method for
each node type, and for each of these a struct, a constructor and the method that accepts a
visitor.
-/
import Reckoner.Disk
import Reckoner.Nodes.Fragment
import Reckoner.Nodes.Package
import Reckoner.Path
import Reckoner.Text.LowerCase

namespace Reckoner.Nodes

/-- A node type with the parts of the source that its fields give. -/
structure NodeSource where
  name : String
  /-- The fields of the struct in braces. -/
  body : String
  /-- The parameters of the constructor in brackets. -/
  parameters : String
  /-- The arguments for the fields in braces. -/
  arguments : String
  deriving DecidableEq, Repr

/-- A file of node types: the clause for the package, the name of the interface, and the node
types. -/
structure File where
  package : String
  base : String
  nodes : List NodeSource
  deriving DecidableEq, Repr

/-! ## Names -/

/-- The name of the struct for a node type. -/
def structName (base name : String) : String :=
  name ++ base

/-- The name of a node as the receiver of a method and as a parameter. -/
def receiver (base : String) : String :=
  Text.lower base

/-! ## Lines -/

/-- The lines at the head of a file. -/
def headLines (file : File) : List String :=
  ["// Code generated by ast_codegen. DO NOT EDIT.",
    "",
    file.package,
    "",
    "// " ++ file.base ++ " is a node of the syntax tree.",
    "type " ++ file.base ++ " interface \x7b",
    "\tAccept(visitor " ++ file.base ++ "Visitor) (interface\x7b\x7d, error)",
    "\x7d",
    ""]

/-- The method of the visitor for a node type. -/
def visitLine (base name : String) : String :=
  "\tVisit" ++ structName base name ++ "(" ++ receiver base ++ " *" ++ structName base name ++
    ") (interface\x7b\x7d, error)"

/-- The lines of the visitor, with a method for each name of a node type. -/
def visitorLines (base : String) (names : List String) : List String :=
  ["// " ++ base ++ "Visitor is implemented by every pass over " ++ base ++ " nodes.",
    "type " ++ base ++ "Visitor interface \x7b"] ++
  names.map (visitLine base) ++
  ["\x7d"]

/-- The lines of the struct. -/
def structLines (base : String) (node : NodeSource) : List String :=
  ["type " ++ structName base node.name ++ " struct " ++ node.body]

/-- The lines of the constructor. -/
def constructorLines (base : String) (node : NodeSource) : List String :=
  ["func New" ++ structName base node.name ++ node.parameters ++ " *" ++ structName base node.name ++
      " \x7b",
    "\treturn &" ++ structName base node.name ++ node.arguments,
    "\x7d"]

/-- The lines of the method that accepts a visitor. -/
def acceptLines (base : String) (node : NodeSource) : List String :=
  ["func (" ++ receiver base ++ " *" ++ structName base node.name ++ ") Accept(visitor " ++ base ++
      "Visitor) (interface\x7b\x7d, error) \x7b",
    "\treturn visitor.Visit" ++ structName base node.name ++ "(" ++ receiver base ++ ")",
    "\x7d"]

/-- The lines for a node type, each part after an empty line. -/
def nodeLines (base : String) (node : NodeSource) : List String :=
  "" :: structLines base node ++ "" :: constructorLines base node ++ "" :: acceptLines base node

/-- Lines as a text. -/
def textOf (lines : List String) : String :=
  String.join (lines.map (· ++ "\n"))

namespace File

/-- The lines of a file whose visitor has methods for some names. -/
def linesVisiting (names : List String) (file : File) : List String :=
  headLines file ++ visitorLines file.base names ++ file.nodes.flatMap (nodeLines file.base)

/-- The lines of a file. -/
def lines (file : File) : List String :=
  file.linesVisiting (file.nodes.map (·.name))

/-- The text of a file. -/
def text (file : File) : String :=
  textOf file.lines

end File

/-! ## Generating -/

/-- Why no source is generated. -/
inductive GenerateError where
  | malformedSpec
  | notSource (base : String)
  | unwritable (error : FileError)
  deriving DecidableEq, Repr

namespace GenerateError

/-- The text of a failure. -/
def message : GenerateError → String
  | .malformedSpec => "a node type needs a colon and fields with types"
  | .notSource base => "format generated " ++ base ++ " source: not the syntax of a file"
  | .unwritable e => e.message

end GenerateError

/-- The source of a node type whose names and fields can stand in one. -/
def nodeSource? (base : String) (s : Spec) : Option NodeSource := do
  guard (isName (s.name ++ base) && isName (receiver base))
  return ⟨s.name, ← structBody? s.fields, ← parameterList? s.fields, ← argumentList? s.fields⟩

/-- The file with node types, if its names and types can stand in a source. -/
def file? (package base : String) (specs : List Spec) : Option File := do
  let clause ← packageClause? package
  guard (isName base)
  return ⟨clause, base, ← specs.mapM (nodeSource? base)⟩

/-- The source of the node types that some texts describe. -/
def generate (package base : String) (specs : List String) : Except GenerateError String :=
  match specs.mapM Spec.ofText? with
  | none => .error .malformedSpec
  | some specs =>
    match file? package base specs with
    | none => .error (.notSource base)
    | some file => .ok file.text

/-- The path of the file for a tree in a directory. -/
def filePath (directory base : String) : String :=
  Path.join directory (Text.lower base ++ ".go")

/-- Writes the source into a directory, whose name is that of the package. -/
def generateIn (disk : Disk) (directory base : String) (specs : List String) :
    Except GenerateError Disk :=
  match generate (Path.last directory) base specs with
  | .error e => .error e
  | .ok source =>
    match disk.write (filePath directory base) source with
    | .error e => .error (.unwritable e)
    | .ok disk' => .ok disk'

end Reckoner.Nodes
