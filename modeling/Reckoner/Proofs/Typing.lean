/-
Types alone decide how an evaluation ends. What an operator makes of its operands, a value of some type or
an error, depends on no more than the types of the operands. So a pass over the tree that knows its
operators and the types of its literals, but none of their values, tells whether the tree has a value, the
type of the value, and otherwise the error.
-/
import Reckoner.Proofs.Guarded.Run

namespace Reckoner

/-! ## The static pass -/

/-- A tree of which no more is known of a literal than its type. -/
inductive Skeleton where
  | literal (type : ValueType)
  | group (inner : Skeleton)
  | unary (op : Token) (operand : Skeleton)
  | binary (op : Token) (left right : Skeleton)

/-- The tree without the values of its literals. A missing literal is nil. -/
def Expr.skeleton : Expr → Skeleton
  | .literal v => .literal (v.getD .nil).type
  | .group e => .group e.skeleton
  | .unary op e => .unary op e.skeleton
  | .binary op l r => .binary op l.skeleton r.skeleton

/-- Trees of the same shape with the same operators, whose literals at the same places have the same
types. -/
inductive Expr.SameTypes : Expr → Expr → Prop
  | literal {v v' : Option Value} : (v.getD .nil).type = (v'.getD .nil).type →
      SameTypes (.literal v) (.literal v')
  | group {e e'} : SameTypes e e' → SameTypes (.group e) (.group e')
  | unary {e e'} (op : Token) : SameTypes e e' → SameTypes (.unary op e) (.unary op e')
  | binary {l l' r r'} (op : Token) : SameTypes l l' → SameTypes r r' →
      SameTypes (.binary op l r) (.binary op l' r')

namespace ValueType

/-- The type of what a unary operator returns on an operand of a type, or its error. -/
def ofUnary (op : Token) (t : ValueType) : Except EvalError ValueType :=
  if op.kind = .bang then .ok .bool
  else if op.kind = .minus then
    if t = .number then .ok .number else .error (.operandTypes op .numberOperand)
  else .error (.unknownUnary op.kind)

/-- The type of an operator on two numbers that takes nothing else. -/
def ofArithmetic (kind : TokenKind) : Except EvalError ValueType :=
  if kind ∈ [.minus, .star, .slash] then .ok .number
  else if kind ∈ [.greater, .greaterEqual, .less, .lessEqual] then .ok .bool
  else .error (.unknownBinary kind)

/-- The type of what a binary operator returns on operands of two types, or its error. -/
def ofBinary (op : Token) (l r : ValueType) : Except EvalError ValueType :=
  if op.kind = .equalEqual ∨ op.kind = .bangEqual then .ok .bool
  else if op.kind = .plus then
    if l = r ∧ (l = .number ∨ l = .string) then .ok l else .error (.operandTypes op .addableOperands)
  else if l = .number ∧ r = .number then ofArithmetic op.kind
  else .error (.operandTypes op .numberOperands)

end ValueType

/-- The type of the value that a tree evaluates to, or its error, by the types of its literals. -/
def Skeleton.check : Skeleton → Except EvalError ValueType
  | .literal t => .ok t
  | .group e => e.check
  | .unary op e => e.check >>= ValueType.ofUnary op
  | .binary op l r => l.check >>= fun lhs => r.check >>= fun rhs => ValueType.ofBinary op lhs rhs

theorem Expr.SameTypes.skeleton_eq {e e' : Expr} (h : e.SameTypes e') : e.skeleton = e'.skeleton := by
  induction h with
  | literal ht => rw [Expr.skeleton, ht, Expr.skeleton]
  | group _ ih => rw [Expr.skeleton, ih, Expr.skeleton]
  | unary op _ ih => rw [Expr.skeleton, ih, Expr.skeleton]
  | binary op _ _ ihl ihr => rw [Expr.skeleton, ihl, ihr, Expr.skeleton]

/-! ## Operators -/

theorem applyUnary_type (op : Token) (v : Value) :
    (v.applyUnary op).map Value.type = ValueType.ofUnary op v.type := by
  unfold Value.applyUnary ValueType.ofUnary
  split
  · rename_i hop
    simp [hop, Except.map, Value.type]
  · rename_i hop
    cases v <;> simp [hop, Except.map, Value.type]
  · rename_i hbang hminus
    rw [if_neg hbang, if_neg hminus]
    rfl

theorem arithmetic_type (kind : TokenKind) (x y : Float) :
    (Value.arithmetic kind x y).map Value.type = ValueType.ofArithmetic kind := by
  unfold Value.arithmetic
  split
  iterate 7 rfl
  simp_all [ValueType.ofArithmetic, Except.map]

theorem applyBinary_type (op : Token) (l r : Value) :
    (l.applyBinary op r).map Value.type = ValueType.ofBinary op l.type r.type := by
  unfold Value.applyBinary ValueType.ofBinary
  split
  · rename_i hop
    simp [hop, Except.map, Value.type]
  · rename_i hop
    simp [hop, Except.map, Value.type]
  · rename_i hop
    cases l <;> cases r <;> simp [hop, Except.map, Value.type]
  · rename_i hne heq hplus
    rw [if_neg (not_or.2 ⟨heq, hne⟩), if_neg hplus]
    cases l with
    | nil | bool | string => rfl
    | number x =>
      cases r with
      | nil | bool | string => rfl
      | number y => exact arithmetic_type op.kind x y

theorem map_eq_ok_iff {α β : Type} {f : α → β} {x : Except EvalError α} {b : β} :
    x.map f = .ok b ↔ ∃ a, x = .ok a ∧ f a = b := by
  cases x <;> simp [Except.map]

theorem map_eq_error_iff {α β : Type} {f : α → β} {x : Except EvalError α} {err : EvalError} :
    x.map f = .error err ↔ x = .error err := by
  cases x <;> simp [Except.map]

theorem applyUnary_eq_error_iff {op : Token} {v : Value} {err : EvalError} :
    v.applyUnary op = .error err ↔ ValueType.ofUnary op v.type = .error err := by
  rw [← applyUnary_type, map_eq_error_iff]

theorem applyBinary_eq_error_iff {op : Token} {l r : Value} {err : EvalError} :
    l.applyBinary op r = .error err ↔ ValueType.ofBinary op l.type r.type = .error err := by
  rw [← applyBinary_type, map_eq_error_iff]

theorem applyUnary_number {op : Token} (h : op.kind = .bang ∨ op.kind = .minus) (x : Float) :
    ∃ v, (Value.number x).applyUnary op = .ok v := by
  have htype := applyUnary_type op (.number x)
  rcases h with h | h
  · obtain ⟨v, hv, -⟩ := map_eq_ok_iff.1 (htype.trans (if_pos h))
    exact ⟨v, hv⟩
  · have hminus : ValueType.ofUnary op .number = .ok .number := by simp [ValueType.ofUnary, h]
    obtain ⟨v, hv, -⟩ := map_eq_ok_iff.1 (htype.trans hminus)
    exact ⟨v, hv⟩

/-- Each of the binary operators takes any two numbers. -/
theorem applyBinary_numbers {op : Token} (h : op.kind ∈ Grammar.binaryOperators) (x y : Float) :
    ∃ v, (Value.number x).applyBinary op (.number y) = .ok v := by
  have hok : ∃ t, ValueType.ofBinary op .number .number = .ok t := by
    unfold ValueType.ofBinary
    generalize op.kind = kind at h ⊢
    simp only [Grammar.binaryOperators, List.mem_cons, List.not_mem_nil, or_false] at h
    rcases h with rfl | rfl | rfl | rfl | rfl | rfl | rfl | rfl | rfl | rfl <;> exact ⟨_, rfl⟩
  obtain ⟨t, ht⟩ := hok
  obtain ⟨v, hv, -⟩ := map_eq_ok_iff.1 ((applyBinary_type op (.number x) (.number y)).trans ht)
  exact ⟨v, hv⟩

/-! ## Trees -/

/-- The pass over the skeleton tells the type of the value, or the error. -/
theorem eval_type (e : Expr) : e.eval.map Value.type = e.skeleton.check := by
  induction e with
  | literal v => rfl
  | group e ih => exact ih
  | unary op e ih =>
    rw [Guarded.eval_unary, Expr.skeleton, Skeleton.check, ← ih]
    cases e.eval with
    | error err => rfl
    | ok v => exact applyUnary_type op v
  | binary op l r ihl ihr =>
    rw [Guarded.eval_binary, Expr.skeleton, Skeleton.check, ← ihl, ← ihr]
    cases l.eval with
    | error err => rfl
    | ok lhs =>
      cases r.eval with
      | error err => rfl
      | ok rhs => exact applyBinary_type op lhs rhs

theorem check_eq_ok_iff {e : Expr} {t : ValueType} :
    e.skeleton.check = .ok t ↔ ∃ v, e.eval = .ok v ∧ v.type = t := by
  rw [← eval_type, map_eq_ok_iff]

theorem check_eq_error_iff {e : Expr} {err : EvalError} :
    e.skeleton.check = .error err ↔ e.eval = .error err := by
  rw [← eval_type, map_eq_error_iff]

/-- Whatever the values of two trees with the same types are, both trees have a value, of the same type, or
both have none, for the same reason. -/
theorem Expr.SameTypes.eval {e e' : Expr} (h : e.SameTypes e') :
    (∃ v v', e.eval = .ok v ∧ e'.eval = .ok v' ∧ v'.type = v.type) ∨
      ∃ err, e.eval = .error err ∧ e'.eval = .error err := by
  cases hcheck : e.skeleton.check with
  | ok t =>
    obtain ⟨v, hv, rfl⟩ := check_eq_ok_iff.1 hcheck
    rw [h.skeleton_eq] at hcheck
    obtain ⟨v', hv', ht⟩ := check_eq_ok_iff.1 hcheck
    exact .inl ⟨v, v', hv, hv', ht⟩
  | error err =>
    have herr := check_eq_error_iff.1 hcheck
    rw [h.skeleton_eq] at hcheck
    exact .inr ⟨err, herr, check_eq_error_iff.1 hcheck⟩

/-- Types alone decide how an evaluation ends. Two trees with the same operators and with literals of the same
types both have a value, of the same type, or both fail with the same error at the same operator. A pass
over the tree that knows no values tells exactly whether there is a value, its type, and which error there
is. No number is a reason for an error, since every operator takes all of them. -/
theorem types_decide :
    (∀ e e' : Expr, e.SameTypes e' →
      (∃ v v', e.eval = .ok v ∧ e'.eval = .ok v' ∧ v'.type = v.type) ∨
        ∃ err, e.eval = .error err ∧ e'.eval = .error err) ∧
    (∀ (e : Expr) (t : ValueType), e.skeleton.check = .ok t ↔ ∃ v, e.eval = .ok v ∧ v.type = t) ∧
    (∀ (e : Expr) (err : EvalError), e.skeleton.check = .error err ↔ e.eval = .error err) ∧
    (∀ (op : Token) (x : Float), op.kind = .bang ∨ op.kind = .minus →
      ∃ v, (Value.number x).applyUnary op = .ok v) ∧
    ∀ (op : Token) (x y : Float), op.kind ∈ Grammar.binaryOperators →
      ∃ v, (Value.number x).applyBinary op (.number y) = .ok v := by
  refine ⟨fun e e' h => h.eval, fun e t => check_eq_ok_iff, fun e err => check_eq_error_iff, ?_, ?_⟩
  · intro op x h
    exact applyUnary_number h x
  · intro op x y h
    exact applyBinary_numbers h x y

/-- One divided by zero and a NaN divided by an infinity; and the negations of a missing literal and of nil. -/
theorem types_decide_at :
    let slash : Token := ⟨.slash, "/", none, 1⟩
    let minus : Token := ⟨.minus, "-", none, 2⟩
    let number (x : Float) : Expr := .literal (some (.number x))
    (Expr.binary slash (number 1) (number 0)).SameTypes (.binary slash (number (0 / 0)) (number (1 / 0))) ∧
    (∃ v v', (Expr.binary slash (number 1) (number 0)).eval = .ok v ∧
      (Expr.binary slash (number (0 / 0)) (number (1 / 0))).eval = .ok v' ∧ v'.type = v.type) ∧
    (Expr.unary minus (.literal none)).SameTypes (.unary minus (.literal (some .nil))) ∧
    ∃ err, (Expr.unary minus (.literal none)).eval = .error err ∧
      (Expr.unary minus (.literal (some .nil))).eval = .error err := by
  intro slash minus number
  have hquotients : (Expr.binary slash (number 1) (number 0)).SameTypes
      (.binary slash (number (0 / 0)) (number (1 / 0))) :=
    .binary slash (.literal rfl) (.literal rfl)
  have hnegations : (Expr.unary minus (.literal none)).SameTypes (.unary minus (.literal (some .nil))) :=
    .unary minus (.literal rfl)
  refine ⟨hquotients, ?_, hnegations, ?_⟩
  · refine (types_decide.1 _ _ hquotients).resolve_right ?_
    rintro ⟨err, herr, -⟩
    cases herr
  · refine (types_decide.1 _ _ hnegations).resolve_left ?_
    rintro ⟨v, v', hv, -⟩
    cases hv

end Reckoner
