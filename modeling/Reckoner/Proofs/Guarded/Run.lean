/-
The stages behind the tokens as guarded machines, and the whole run. A pass over a tree hands back
something of no particular type, which its caller takes for a value or for a text; an operator without
a rule is a fault. On the trees that the parser returns there is a rule for every operator, so a run
ends without a fault in every mode and on every source, and it is the run of `Reckoner.run`.
-/
import Reckoner.Run
import Reckoner.Proofs.Guarded.Cursor
import Reckoner.Proofs.Guarded.Scanner

namespace Reckoner.Guarded

/-! ## The machine -/

/-- What a pass over a tree hands back. -/
inductive Handed where
  | nothing
  | value (v : Value)
  | text (s : String)

namespace Handed

/-- Takes what was handed back for a value. -/
def asValue : Handed → Except Fault Value
  | .value v => return v
  | _ => .error .assertion

/-- Takes what was handed back for a text. -/
def asText : Handed → Except Fault String
  | .text s => return s
  | _ => .error .assertion

/-- How something handed back is written into a text. -/
def written : Handed → String
  | .nothing => "<nil>"
  | .value v => v.display
  | .text s => s

end Handed

/-- An operator and what it asks of its operands. -/
structure RuntimeError where
  op : Token
  fault : TypeFault

/-- What the evaluation of a node hands back, and its error if there is one. -/
abbrev Visit := Handed × Option RuntimeError

/-- What is handed back for the outcome of an operator; one that has no rule is a fault. -/
def handBack : Except EvalError Value → Except Fault Visit
  | .ok v => return (.value v, none)
  | .error (.operandTypes op fault) => return (.nothing, some ⟨op, fault⟩)
  | .error (.unknownUnary kind) => .error (.unknownOperator kind)
  | .error (.unknownBinary kind) => .error (.unknownOperator kind)

namespace Visit

/-- Takes what was handed back for a value, unless there is an error. -/
def settle (visit : Visit) : Except Fault (Except RuntimeError Value) := do
  match visit with
  | (_, some err) => return .error err
  | (handed, none) => return .ok (← handed.asValue)

/-- Goes on with the value of an operand. -/
def andThen (visit : Visit) (f : Value → Except Fault Visit) : Except Fault Visit := do
  match ← settle visit with
  | .error err => return (.nothing, some err)
  | .ok v => f v

end Visit

/-- Evaluates a node, operands first. -/
def visit : Expr → Except Fault Visit
  | .literal v => return (.value (v.getD .nil), none)
  | .group e => do (← visit e).andThen fun v => return (.value v, none)
  | .unary op e => do (← visit e).andThen fun v => handBack (v.applyUnary op)
  | .binary op l r => do
    (← visit l).andThen fun lhs => do (← visit r).andThen fun rhs => handBack (lhs.applyBinary op rhs)

/-- The value of a tree, or the error of one of its operators. -/
def evaluate (e : Expr) : Except Fault (Except RuntimeError Value) := do
  (← visit e).settle

/-- Describes a node, operators before their operands. -/
def describe : Expr → Handed
  | .literal v => .text (v.elim "nil" Value.display)
  | .group e => .text ("(group " ++ (describe e).written ++ ")")
  | .unary op e => .text ("(" ++ op.lexeme ++ " " ++ (describe e).written ++ ")")
  | .binary op l r =>
    .text ("(" ++ op.lexeme ++ " " ++ (describe l).written ++ " " ++ (describe r).written ++ ")")

/-- A tree as a text. -/
def print (e : Expr) : Except Fault String :=
  (describe e).asText

/-- The stage after scanning without errors. -/
def runTokens (mode : Mode) (tokens : List Token) : Except Fault Result := do
  match ← parse tokens with
  | .error err => return ⟨mode, tokens, none, none, [], [err.diagnostic], Exit.dataError⟩
  | .ok e =>
    if mode = .parse then return ⟨mode, tokens, some e, none, [← print e], [], Exit.success⟩
    match ← evaluate e with
    | .error err =>
      return ⟨mode, tokens, some e, none, [], [.runtime err.op err.fault.message], Exit.software⟩
    | .ok v => return ⟨mode, tokens, some e, some v, [v.display], [], Exit.success⟩

/-- Takes a source through the stages of a mode. -/
def run (mode : Mode) (source : String) : Except Fault Result := do
  let scanned ← scan source.toList
  let lines := if mode = .tokenize then scanned.tokens.map (·.text) else []
  if scanned.errors ≠ [] then
    return ⟨mode, scanned.tokens, none, none, lines, scanned.errors.map (·.diagnostic), Exit.dataError⟩
  if mode = .tokenize then return ⟨mode, scanned.tokens, none, none, lines, [], Exit.success⟩
  runTokens mode scanned.tokens

/-! ## Evaluation -/

theorem andThen_handBack (r : Except EvalError Value) (f : Value → Except EvalError Value) :
    (handBack r >>= fun visit => visit.andThen fun v => handBack (f v)) = handBack (r >>= f) := by
  rcases r with err | v
  · cases err <;> rfl
  · rfl

theorem eval_unary (op : Token) (e : Expr) : (Expr.unary op e).eval = e.eval >>= Value.applyUnary op := by
  rw [Expr.eval]
  cases e.eval <;> rfl

theorem eval_binary (op : Token) (l r : Expr) : (Expr.binary op l r).eval =
    l.eval >>= fun lhs => r.eval >>= fun rhs => Value.applyBinary op lhs rhs := by
  rw [Expr.eval]
  cases l.eval with
  | error err => rfl
  | ok lhs => cases r.eval <;> rfl

/-- The machine hands back the outcome of evaluation, with a fault where an operator has no rule. -/
theorem visit_eq (e : Expr) : visit e = handBack e.eval := by
  induction e with
  | literal v => rfl
  | group e ih =>
    have hgroup := andThen_handBack e.eval pure
    rw [bind_pure] at hgroup
    rw [visit, ih, Expr.eval]
    exact hgroup
  | unary op e ih =>
    rw [visit, ih, eval_unary]
    exact andThen_handBack e.eval (Value.applyUnary op)
  | binary op l r ihl ihr =>
    rw [visit, ihl, ihr, eval_binary, ← andThen_handBack]
    simp only [← andThen_handBack]

/-- The operators of a tree all have rules. -/
def Known (e : Expr) : Prop :=
  (∀ op, .unary op ∈ e.postorder → op.kind = .bang ∨ op.kind = .minus) ∧
    ∀ op, .binary op ∈ e.postorder → op.kind ∈ Grammar.binaryOperators

theorem Known.mono {e e' : Expr} (hsub : e'.postorder ⊆ e.postorder) (h : Known e) : Known e' :=
  ⟨fun op hop => h.1 op (hsub hop), fun op hop => h.2 op (hsub hop)⟩

/-- An outcome of evaluation that is a value or a complaint about the types of operands. -/
def Settled (r : Except EvalError Value) : Prop :=
  (∃ v, r = .ok v) ∨ ∃ op fault, r = .error (.operandTypes op fault)

theorem Settled.bind {r : Except EvalError Value} {f : Value → Except EvalError Value} (hr : Settled r)
    (hf : ∀ v, Settled (f v)) : Settled (r >>= f) := by
  rcases hr with ⟨v, rfl⟩ | ⟨op, fault, rfl⟩
  · exact hf v
  · exact .inr ⟨op, fault, rfl⟩

theorem applyUnary_settled {op : Token} (h : op.kind = .bang ∨ op.kind = .minus) (v : Value) :
    Settled (v.applyUnary op) := by
  unfold Value.applyUnary
  rcases h with h | h
  · rw [h]
    exact .inl ⟨_, rfl⟩
  · rw [h]
    cases v with
    | number x => exact .inl ⟨_, rfl⟩
    | nil | bool | string => exact .inr ⟨op, .numberOperand, rfl⟩

/-- The operators that take two numbers and nothing else. -/
def numeric : List TokenKind :=
  [.greater, .greaterEqual, .less, .lessEqual, .minus, .slash, .star]

theorem arithmetic_ok {kind : TokenKind} (h : kind ∈ numeric) (x y : Float) :
    ∃ v, Value.arithmetic kind x y = .ok v := by
  simp only [numeric, List.mem_cons, List.not_mem_nil, or_false] at h
  rcases h with rfl | rfl | rfl | rfl | rfl | rfl | rfl <;> exact ⟨_, rfl⟩

theorem applyBinary_numeric {op : Token} (h : op.kind ∈ numeric) (l r : Value) :
    l.applyBinary op r = match l, r with
      | .number x, .number y => Value.arithmetic op.kind x y
      | _, _ => .error (.operandTypes op .numberOperands) := by
  unfold Value.applyBinary
  generalize op.kind = kind at h ⊢
  simp only [numeric, List.mem_cons, List.not_mem_nil, or_false] at h
  rcases h with rfl | rfl | rfl | rfl | rfl | rfl | rfl <;> rfl

theorem applyBinary_settled {op : Token} (h : op.kind ∈ Grammar.binaryOperators) (l r : Value) :
    Settled (l.applyBinary op r) := by
  by_cases hnumeric : op.kind ∈ numeric
  · rw [applyBinary_numeric hnumeric]
    split
    · exact .inl (arithmetic_ok hnumeric _ _)
    · exact .inr ⟨op, .numberOperands, rfl⟩
  -- the other operators take operands of any type, or numbers and strings
  have hrest : ∀ kind ∈ Grammar.binaryOperators, kind ∉ numeric →
      kind = .bangEqual ∨ kind = .equalEqual ∨ kind = .plus := by
    decide
  unfold Value.applyBinary
  rcases hrest op.kind h hnumeric with hop | hop | hop
  · rw [hop]
    exact .inl ⟨_, rfl⟩
  · rw [hop]
    exact .inl ⟨_, rfl⟩
  · rw [hop]
    dsimp only
    split
    · exact .inl ⟨_, rfl⟩
    · exact .inl ⟨_, rfl⟩
    · exact .inr ⟨op, .addableOperands, rfl⟩

/-- A tree whose operators have rules evaluates to a value, or an operator complains of its operands. -/
theorem eval_settled {e : Expr} (h : Known e) : Settled e.eval := by
  induction e with
  | literal v => exact .inl ⟨_, rfl⟩
  | group e ih => exact ih (h.mono (List.subset_append_left _ _))
  | unary op e ih =>
    rw [eval_unary]
    refine (ih (h.mono (List.subset_append_left _ _))).bind fun v => ?_
    exact applyUnary_settled (h.1 op (by simp [Expr.postorder])) v
  | binary op l r ihl ihr =>
    rw [eval_binary]
    refine (ihl (h.mono fun node hnode => by simp [Expr.postorder, hnode])).bind fun lhs => ?_
    refine (ihr (h.mono fun node hnode => by simp [Expr.postorder, hnode])).bind fun rhs => ?_
    exact applyBinary_settled (h.2 op (by simp [Expr.postorder])) lhs rhs

/-- On such a tree the machine has no fault. -/
theorem evaluate_settled {e : Expr} (h : Known e) :
    (∃ v, e.eval = .ok v ∧ evaluate e = .ok (.ok v)) ∨
      ∃ op fault, e.eval = .error (.operandTypes op fault) ∧ evaluate e = .ok (.error ⟨op, fault⟩) := by
  unfold evaluate
  rw [visit_eq]
  rcases eval_settled h with ⟨v, hv⟩ | ⟨op, fault, hv⟩
  · exact .inl ⟨v, hv, by rw [hv]; rfl⟩
  · exact .inr ⟨op, fault, hv, by rw [hv]; rfl⟩

theorem known_of_parse {tokens : List Token} {e : Expr} (h : (Reckoner.parse (.ofTokens tokens)).1 = .ok e) :
    Known e :=
  ⟨fun op hop => (parse_allows h (.unary op) hop).2, fun op hop => (parse_allows h (.binary op) hop).2⟩

/-! ## Runs -/

theorem describe_eq (e : Expr) : describe e = .text e.display := by
  induction e with
  | literal v => cases v <;> rfl
  | group e ih => rw [describe, ih, Expr.display, Handed.written]
  | unary op e ih => rw [describe, ih, Expr.display, Handed.written]
  | binary op l r ihl ihr => rw [describe, ihl, ihr, Expr.display, Handed.written, Handed.written]

theorem print_eq (e : Expr) : print e = .ok e.display := by
  rw [print, describe_eq]
  rfl

theorem runTokens_eq (mode : Mode) (tokens : List Token) :
    runTokens mode tokens = .ok (Reckoner.runTokens mode tokens) := by
  unfold runTokens Reckoner.runTokens
  rw [parse_eq, ok_bind]
  cases hparse : (Reckoner.parse (.ofTokens tokens)).1 with
  | error err => rfl
  | ok e =>
    by_cases hmode : mode = .parse
    · simp [hmode, print_eq]
    · rcases evaluate_settled (known_of_parse hparse) with ⟨v, hv, heval⟩ | ⟨op, fault, hv, heval⟩
      · simp [hmode, hv, heval]
      · simp [hmode, hv, heval, EvalError.diagnostic]

theorem run_eq (mode : Mode) (source : String) : run mode source = .ok (Reckoner.run mode source) := by
  unfold run Reckoner.run
  rw [scan_eq, ok_bind]
  by_cases herrors : (Reckoner.scan source.toList).errors = []
  · by_cases hmode : mode = .tokenize
    · simp [herrors, hmode]
    · simp [herrors, hmode, runTokens_eq]
  · simp [herrors]

/-- No run faults. On every list of tokens, whatever their kinds and literals, the parser stays inside
the list and ends. A tree that it returns has only operators that the evaluator has rules for, so that
its evaluation ends with a value or with a complaint of an operator about its operands. The scanner stays
inside every source and ends, and so do runs in all modes; each returns what its unguarded counterpart
returns. -/
theorem run_never_faults :
    (∀ tokens : List Token, parse tokens = .ok (Reckoner.parse (.ofTokens tokens)).1) ∧
    (∀ (tokens : List Token) (e : Expr), (Reckoner.parse (.ofTokens tokens)).1 = .ok e →
      (∀ op, .unary op ∈ e.postorder → op.kind = .bang ∨ op.kind = .minus) ∧
      (∀ op, .binary op ∈ e.postorder → op.kind ∈ Grammar.binaryOperators) ∧
      ((∃ v, e.eval = .ok v ∧ evaluate e = .ok (.ok v)) ∨
        ∃ op fault, e.eval = .error (.operandTypes op fault) ∧ evaluate e = .ok (.error ⟨op, fault⟩))) ∧
    (∀ source : List Char, scan source = .ok (Reckoner.scan source)) ∧
    (∀ (mode : Mode) (source : String), run mode source = .ok (Reckoner.run mode source)) := by
  refine ⟨parse_eq, fun tokens e h => ?_, scan_eq, run_eq⟩
  have hknown := known_of_parse h
  exact ⟨hknown.1, hknown.2, evaluate_settled hknown⟩

/-- A minus sign before a number token that has no literal, without an end. -/
theorem run_never_faults_at :
    let minus : Token := ⟨.minus, "-", none, 1⟩
    let tokens : List Token := [minus, ⟨.number, "1", none, 1⟩]
    (Reckoner.parse (.ofTokens tokens)).1 = .ok (.unary minus (.literal none)) ∧
    ((∃ v, (Expr.unary minus (.literal none)).eval = .ok v ∧
        evaluate (.unary minus (.literal none)) = .ok (.ok v)) ∨
      ∃ op fault, (Expr.unary minus (.literal none)).eval = .error (.operandTypes op fault) ∧
        evaluate (.unary minus (.literal none)) = .ok (.error ⟨op, fault⟩)) := by
  intro minus tokens
  have hparse : (Reckoner.parse (.ofTokens tokens)).1 = .ok (.unary minus (.literal none)) := rfl
  exact ⟨hparse, (run_never_faults.2.1 tokens _ hparse).2.2⟩

end Reckoner.Guarded
