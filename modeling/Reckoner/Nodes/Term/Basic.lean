/-
Types and expressions. They are one kind of tree, because the length of an array and the argument
of a type can be either.
-/
import Reckoner.Nodes.Token

namespace Reckoner.Nodes

/-- A word at its place. -/
structure Word where
  text : String
  spot : Spot
  deriving DecidableEq, Repr

/-- The directions of a channel. -/
inductive Direction where
  | both
  | send
  | receive
  deriving DecidableEq, Repr

mutual

/-- A type or an expression, with the places of its brackets. -/
inductive Term where
  | name (word : Word)
  | number (word : Word)
  | quotation (word : Word)
  | selection (operand : Term) (name : Word)
  | assertion (operand : Term) (opening : Spot) (type : Option Term) (closing : Spot)
  | application (operand : Term) (opening : Spot) (argument : Term) (closing : Spot)
  | call (operand : Term) (opening : Spot) (argument : Option Term) (spread : Option Spot)
      (closing : Spot)
  | composite (type : Option Term) (opening : Spot) (item : Option Term) (closing : Spot)
  | parenthesized (opening : Spot) (inner : Term) (closing : Spot)
  | pointer (spot : Spot) (target : Term)
  | unary (sign : Word) (operand : Term)
  | binary (left : Term) (sign : Word) (right : Term)
  | slice (opening : Spot) (item : Term)
  | array (opening : Spot) (length item : Term)
  | dots (spot : Spot) (item : Option Term)
  | map (spot : Spot) (key value : Term)
  | channel (spot : Spot) (direction : Direction) (arrow : Spot) (item : Term)
  | function (spot : Spot) (signature : Signature)
  | closure (spot : Spot) (signature : Signature) (opening closing : Spot)
  | record (spot opening : Spot) (fields : List Member) (closing : Spot)
  | interface (spot opening : Spot) (elements : List Member) (closing : Spot)

/-- The parameter and the result of a function in their brackets. A result without brackets has
its own place for them. -/
inductive Signature where
  | mk (opening : Spot) (parameter : Option Member) (closing : Spot) (resultOpening : Spot)
      (result : Option Member) (resultClosing : Spot)

/-- A field, a parameter, a method or an embedded type. `remarked` says that a comment stands
behind it on its line. -/
inductive Member where
  | mk (names : List Word) (type : Term) (tag : Option Word) (remarked : Bool)

end

namespace Term

/-- The place where a term begins. -/
def spot : Term → Spot
  | .name w => w.spot
  | .number w => w.spot
  | .quotation w => w.spot
  | .selection operand _ => operand.spot
  | .assertion operand _ _ _ => operand.spot
  | .application operand _ _ _ => operand.spot
  | .call operand _ _ _ _ => operand.spot
  | .composite none opening _ _ => opening
  | .composite (some type) _ _ _ => type.spot
  | .parenthesized opening _ _ => opening
  | .pointer s _ => s
  | .unary sign _ => sign.spot
  | .binary left _ _ => left.spot
  | .slice opening _ => opening
  | .array opening _ _ => opening
  | .dots s _ => s
  | .map s _ _ => s
  | .channel s _ _ _ => s
  | .function s _ => s
  | .closure s _ _ _ => s
  | .record s _ _ _ => s
  | .interface s _ _ _ => s

/-- A term without the brackets around it. -/
def bare : Term → Term
  | .parenthesized _ inner _ => inner.bare
  | t => t

/-- Brackets around a term. -/
def isParenthesized : Term → Bool
  | .parenthesized _ _ _ => true
  | _ => false

/-- The dots of a parameter that takes any number of arguments. -/
def isDots : Term → Bool
  | .dots _ _ => true
  | _ => false

/-- A term that a literal with braces can begin with. -/
def canHoldItems : Term → Bool
  | .name _ => true
  | .selection _ _ => true
  | .application _ _ _ _ => true
  | .slice _ _ => true
  | .array _ _ _ => true
  | .map _ _ _ => true
  | .record _ _ _ _ => true
  | _ => false

/-- The channel type that an arrow before a channel type gives. Behind a direction to send the
arrow of that direction goes to the next channel. -/
def received? (arrow : Spot) : Term → Option Term
  | .channel _ .both _ item => some (.channel arrow .receive arrow item)
  | .channel _ .send inner item => (item.received? inner).map (.channel arrow .receive arrow)
  | _ => none

/-- A channel type. -/
def isChannel : Term → Bool
  | .channel _ _ _ _ => true
  | _ => false

end Term

namespace Member

/-- The names before the type. -/
def names : Member → List Word
  | .mk names _ _ _ => names

/-- The type. -/
def type : Member → Term
  | .mk _ type _ _ => type

/-- The tag behind the type. -/
def tag : Member → Option Word
  | .mk _ _ tag _ => tag

/-- A comment stands behind the member on its line. -/
def remarked : Member → Bool
  | .mk _ _ _ remarked => remarked

/-- The place where a member begins. -/
def spot (m : Member) : Spot :=
  match m.names with
  | w :: _ => w.spot
  | [] => m.type.spot

end Member

/-! ## Operators -/

/-- How strongly a binary operator binds. -/
def precedence? (sign : String) : Option Nat :=
  if sign = "||" then some 1
  else if sign = "&&" then some 2
  else if ["==", "!=", "<", "<=", ">", ">="].contains sign then some 3
  else if ["+", "-", "|", "^"].contains sign then some 4
  else if ["*", "/", "%", "<<", ">>", "&", "&^"].contains sign then some 5
  else none

/-- How strongly a binary operator binds, and nothing for another mark. -/
def precedence (sign : String) : Nat :=
  (precedence? sign).getD 0

/-- The operators before an operand, without those that also begin a type. -/
def unarySigns : List String :=
  ["+", "-", "!", "^", "&", "~"]

end Reckoner.Nodes
