/-
The order of evaluation. The nodes of a tree are taken in postorder, each with the tree below it. A node whose
operands have values fails or not by a small table of its operator and of the types of its operands. The
evaluation of the whole tree succeeds exactly if no node fails; otherwise it fails as the first failing node
does, and all nodes in front of that one have values, so that no operand was passed over.
-/
import Reckoner.Proofs.Typing

namespace Reckoner

namespace Expr

/-! ## Nodes -/

/-- The nodes of a tree in postorder, each with the tree below it. -/
def nodes : Expr → List Expr
  | .literal v => [.literal v]
  | .group e => e.nodes ++ [.group e]
  | .unary op e => e.nodes ++ [.unary op e]
  | .binary op l r => l.nodes ++ r.nodes ++ [.binary op l r]

/-- The node at the root of a tree. -/
def root : Expr → Node
  | .literal v => .literal v
  | .group _ => .group
  | .unary op _ => .unary op
  | .binary op _ _ => .binary op

/-- The trees that the node at the root of a tree takes the values of. -/
def operands : Expr → List Expr
  | .literal _ => []
  | .group e => [e]
  | .unary _ e => [e]
  | .binary _ l r => [l, r]

/-- How the node at the root of a tree fails on operands that have values. Its own operator is named in its
complaint about the operands; an operator without a rule is the other sort of failure. -/
inductive FailsWith : Expr → EvalError → Prop
  | negation {op e v fault} : e.eval = .ok v → op.kind = .minus → v.type ≠ .number →
      fault.message = "Operand must be a number." → FailsWith (.unary op e) (.operandTypes op fault)
  | unknownUnary {op e v} : e.eval = .ok v → op.kind ≠ .bang → op.kind ≠ .minus →
      FailsWith (.unary op e) (.unknownUnary op.kind)
  | addition {op l r v w fault} : l.eval = .ok v → r.eval = .ok w → op.kind = .plus →
      ¬ (v.type = .number ∧ w.type = .number) → ¬ (v.type = .string ∧ w.type = .string) →
      fault.message = "Operands must be two numbers or two strings." →
      FailsWith (.binary op l r) (.operandTypes op fault)
  | arithmetic {op l r v w fault} : l.eval = .ok v → r.eval = .ok w →
      op.kind ∉ [.plus, .equalEqual, .bangEqual] → ¬ (v.type = .number ∧ w.type = .number) →
      fault.message = "Operands must be numbers." → FailsWith (.binary op l r) (.operandTypes op fault)
  | unknownBinary {op l r v w} : l.eval = .ok v → r.eval = .ok w → v.type = .number → w.type = .number →
      op.kind ∉ Grammar.binaryOperators → FailsWith (.binary op l r) (.unknownBinary op.kind)

/-- The node at the root of a tree fails. -/
def Fails (n : Expr) : Prop :=
  ∃ err, n.FailsWith err

end Expr

open Reckoner.Expr

theorem nodes_map_root (e : Expr) : e.nodes.map root = e.postorder := by
  induction e with
  | literal v => rfl
  | group e ih => simp [nodes, postorder, root, ih]
  | unary op e ih => simp [nodes, postorder, root, ih]
  | binary op l r ihl ihr => simp [nodes, postorder, root, ihl, ihr]

/-! ## The table -/

theorem TypeFault.message_inj {f f' : TypeFault} (h : f.message = f'.message) : f = f' := by
  cases f <;> cases f' <;> simp [TypeFault.message] at h ⊢

theorem failsWith_unary_iff {op : Token} {e : Expr} {err : EvalError} :
    (unary op e).FailsWith err ↔ ∃ v, e.eval = .ok v ∧ v.applyUnary op = .error err := by
  simp only [applyUnary_eq_error_iff, ValueType.ofUnary]
  constructor
  · rintro (⟨hv, hop, ht, hm⟩ | ⟨hv, hb, hm⟩)
    · rename_i v fault
      obtain rfl : fault = .numberOperand := TypeFault.message_inj hm
      exact ⟨v, hv, by simp [hop, ht]⟩
    · rename_i v
      exact ⟨v, hv, by simp [hb, hm]⟩
  · rintro ⟨v, hv, h⟩
    split_ifs at h with hb hm ht
    · cases h
      exact .negation hv hm ht rfl
    · cases h
      exact .unknownUnary hv hb hm

theorem mem_binaryOperators_iff {kind : TokenKind} : kind ∈ Grammar.binaryOperators ↔
    kind ∈ [.plus, .equalEqual, .bangEqual] ∨ kind ∈ [.minus, .star, .slash] ∨
      kind ∈ [.greater, .greaterEqual, .less, .lessEqual] := by
  simp only [Grammar.binaryOperators, List.mem_cons, List.not_mem_nil, or_false]
  grind

/-- Of the operators that take two numbers and nothing else, those without a rule are unknown. -/
theorem ofArithmetic_eq_error_iff {kind : TokenKind} {err : EvalError}
    (h : kind ∉ [.plus, .equalEqual, .bangEqual]) :
    ValueType.ofArithmetic kind = .error err ↔
      kind ∉ Grammar.binaryOperators ∧ err = .unknownBinary kind := by
  rw [mem_binaryOperators_iff]
  unfold ValueType.ofArithmetic
  split_ifs with hnumber hbool
  · simp [hnumber]
  · simp [hbool]
  · simp only [h, hnumber, hbool, or_self, not_false_eq_true, true_and, Except.error.injEq]
    exact eq_comm

theorem failsWith_binary_iff {op : Token} {l r : Expr} {err : EvalError} :
    (binary op l r).FailsWith err ↔
      ∃ v w, l.eval = .ok v ∧ r.eval = .ok w ∧ v.applyBinary op w = .error err := by
  simp only [applyBinary_eq_error_iff, ValueType.ofBinary]
  constructor
  · rintro (_ | _ | ⟨hv, hw, hop, hnumbers, hstrings, hm⟩ | ⟨hv, hw, hop, hnumbers, hm⟩ |
      ⟨hv, hw, ht, ht', hop⟩)
    · rename_i v w fault
      obtain rfl : fault = .addableOperands := TypeFault.message_inj hm
      refine ⟨v, w, hv, hw, ?_⟩
      rw [if_neg (by simp [hop]), if_pos hop, if_neg]
      rintro ⟨heq, ht | ht⟩
      · exact hnumbers ⟨ht, heq ▸ ht⟩
      · exact hstrings ⟨ht, heq ▸ ht⟩
    · rename_i v w fault
      obtain rfl : fault = .numberOperands := TypeFault.message_inj hm
      refine ⟨v, w, hv, hw, ?_⟩
      simp only [List.mem_cons, List.not_mem_nil, or_false, not_or] at hop
      rw [if_neg (not_or.2 hop.2), if_neg hop.1, if_neg hnumbers]
    · rename_i v w
      refine ⟨v, w, hv, hw, ?_⟩
      have hother : op.kind ∉ [.plus, .equalEqual, .bangEqual] :=
        fun h => hop (mem_binaryOperators_iff.2 (.inl h))
      have herr := (ofArithmetic_eq_error_iff hother).2 ⟨hop, rfl⟩
      simp only [List.mem_cons, List.not_mem_nil, or_false, not_or] at hother
      rw [if_neg (not_or.2 hother.2), if_neg hother.1, if_pos ⟨ht, ht'⟩, herr]
  · rintro ⟨v, w, hv, hw, h⟩
    split_ifs at h with heq hplus hadd hnumbers
    · cases h
      refine .addition hv hw hplus ?_ ?_ rfl
      · rintro ⟨ht, ht'⟩
        exact hadd ⟨ht.trans ht'.symm, .inl ht⟩
      · rintro ⟨ht, ht'⟩
        exact hadd ⟨ht.trans ht'.symm, .inr ht⟩
    · obtain ⟨hop, rfl⟩ := (ofArithmetic_eq_error_iff (by simp_all)).1 h
      exact .unknownBinary hv hw hnumbers.1 hnumbers.2 hop
    · cases h
      exact .arithmetic hv hw (by simp_all) hnumbers rfl

/-- The table is exact: a node fails by it if its operands have values and the tree has none. -/
theorem failsWith_iff {n : Expr} {err : EvalError} :
    n.FailsWith err ↔ (∀ o ∈ n.operands, ∃ v, o.eval = .ok v) ∧ n.eval = .error err := by
  cases n with
  | literal v =>
    constructor
    · rintro ⟨⟩
    · rintro ⟨-, ⟨⟩⟩
  | group e =>
    constructor
    · rintro ⟨⟩
    · rintro ⟨hvalue, herr⟩
      obtain ⟨v, hv⟩ := hvalue e List.mem_cons_self
      cases hv.symm.trans herr
  | unary op e =>
    rw [failsWith_unary_iff, Guarded.eval_unary]
    constructor
    · rintro ⟨v, hv, herr⟩
      exact ⟨by simp [operands, hv], by rw [hv]; exact herr⟩
    · rintro ⟨hvalue, herr⟩
      obtain ⟨v, hv⟩ := hvalue e List.mem_cons_self
      rw [hv] at herr
      exact ⟨v, hv, herr⟩
  | binary op l r =>
    rw [failsWith_binary_iff, Guarded.eval_binary]
    constructor
    · rintro ⟨v, w, hv, hw, herr⟩
      exact ⟨by simp [operands, hv, hw], by rw [hv, hw]; exact herr⟩
    · rintro ⟨hvalue, herr⟩
      obtain ⟨v, hv⟩ := hvalue l (by simp [operands])
      obtain ⟨w, hw⟩ := hvalue r (by simp [operands])
      rw [hv, hw] at herr
      exact ⟨v, w, hv, hw, herr⟩

theorem eval_equality {op : Token} {l r : Expr} {v w : Value}
    (hop : op.kind = .equalEqual ∨ op.kind = .bangEqual) (hl : l.eval = .ok v) (hr : r.eval = .ok w) :
    ∃ b, (Expr.binary op l r).eval = .ok (.bool b) := by
  rw [Guarded.eval_binary, hl, hr]
  have htype : (v.applyBinary op w).map Value.type = .ok .bool :=
    (applyBinary_type op v w).trans (if_pos hop)
  obtain ⟨u, hu, hbool⟩ := map_eq_ok_iff.1 htype
  cases u with
  | bool b => exact ⟨b, hu⟩
  | nil | number | string => cases hbool

/-! ## The first failing node -/

/-- The first node of a list that fails does so with the given error. -/
def FirstFailsWith (ns : List Expr) (err : EvalError) : Prop :=
  ∃ before n after, ns = before ++ n :: after ∧ (∀ m ∈ before, ¬ m.Fails) ∧ n.FailsWith err

theorem FirstFailsWith.append_right {ns : List Expr} {err : EvalError} (h : FirstFailsWith ns err)
    (ms : List Expr) : FirstFailsWith (ns ++ ms) err := by
  obtain ⟨before, n, after, rfl, hbefore, hn⟩ := h
  exact ⟨before, n, after ++ ms, by simp, hbefore, hn⟩

theorem FirstFailsWith.append_left {ns ms : List Expr} {err : EvalError} (hns : ∀ n ∈ ns, ¬ n.Fails)
    (h : FirstFailsWith ms err) : FirstFailsWith (ns ++ ms) err := by
  obtain ⟨before, n, after, rfl, hbefore, hn⟩ := h
  refine ⟨ns ++ before, n, after, by simp, ?_, hn⟩
  intro m hm
  rcases List.mem_append.1 hm with hm | hm
  · exact hns m hm
  · exact hbefore m hm

theorem FirstFailsWith.unique {ns : List Expr} {err err' : EvalError} (h : FirstFailsWith ns err)
    (h' : FirstFailsWith ns err') : err' = err := by
  obtain ⟨before, n, after, rfl, hbefore, hn⟩ := h
  obtain ⟨before', n', after', heq, hbefore', hn'⟩ := h'
  obtain rfl : n' = n := by
    -- neither of the two stands in front of the other
    rcases List.append_eq_append_iff.1 heq with ⟨between, rfl, h⟩ | ⟨between, rfl, h⟩
    · cases between with
      | nil => exact (List.cons.inj h).1.symm
      | cons m between =>
        obtain ⟨rfl, -⟩ := List.cons.inj h
        exact absurd ⟨err, hn⟩ (hbefore' n (by simp))
    · cases between with
      | nil => exact (List.cons.inj h).1
      | cons m between =>
        obtain ⟨rfl, -⟩ := List.cons.inj h
        exact absurd ⟨err', hn'⟩ (hbefore n' (by simp))
  exact Except.error.inj ((failsWith_iff.1 hn').2.symm.trans (failsWith_iff.1 hn).2)

/-- An evaluation as its nodes decide it: none of them fails, or the first that does gives the error. -/
def Decides (ns : List Expr) (r : Except EvalError Value) : Prop :=
  (∃ v, r = .ok v ∧ ∀ n ∈ ns, ¬ n.Fails) ∨ ∃ err, r = .error err ∧ FirstFailsWith ns err

/-- A node whose operands have values decides behind others of which none fails. -/
theorem decides_concat {ns : List Expr} {n : Expr} (hns : ∀ m ∈ ns, ¬ m.Fails)
    (hvalues : ∀ o ∈ n.operands, ∃ v, o.eval = .ok v) : Decides (ns ++ [n]) n.eval := by
  cases heval : n.eval with
  | error err =>
    exact .inr ⟨err, rfl, ns, n, [], rfl, hns, failsWith_iff.2 ⟨hvalues, heval⟩⟩
  | ok v =>
    refine .inl ⟨v, rfl, fun m hm => ?_⟩
    rcases List.mem_append.1 hm with hm | hm
    · exact hns m hm
    · obtain rfl := List.mem_singleton.1 hm
      rintro ⟨err, h⟩
      cases heval.symm.trans (failsWith_iff.1 h).2

theorem nodes_decide (e : Expr) : Decides e.nodes e.eval := by
  induction e with
  | literal v => exact @decides_concat [] (.literal v) (by simp) (by simp [operands])
  | group e ih =>
    rcases ih with ⟨v, hv, hnone⟩ | ⟨err, herr, hfirst⟩
    · exact decides_concat hnone (by simp [operands, hv])
    · exact .inr ⟨err, herr, hfirst.append_right _⟩
  | unary op e ih =>
    rcases ih with ⟨v, hv, hnone⟩ | ⟨err, herr, hfirst⟩
    · exact decides_concat hnone (by simp [operands, hv])
    · exact .inr ⟨err, by rw [Guarded.eval_unary, herr]; rfl, hfirst.append_right _⟩
  | binary op l r ihl ihr =>
    rcases ihl with ⟨v, hv, hnone⟩ | ⟨err, herr, hfirst⟩
    · rcases ihr with ⟨w, hw, hnone'⟩ | ⟨err, herr, hfirst⟩
      · refine decides_concat (fun n hn => ?_) (by simp [operands, hv, hw])
        rcases List.mem_append.1 hn with hn | hn
        · exact hnone n hn
        · exact hnone' n hn
      · refine .inr ⟨err, ?_, (FirstFailsWith.append_left hnone hfirst).append_right _⟩
        rw [Guarded.eval_binary, hv, herr]
        rfl
    · refine .inr ⟨err, ?_, (hfirst.append_right _).append_right _⟩
      rw [Guarded.eval_binary, herr]
      rfl

/-! ## Nodes in front of others -/

/-- Every prefix of the nodes holds with a node all nodes below it. -/
def Closed (ns : List Expr) : Prop :=
  ∀ before, before <+: ns → ∀ m ∈ before, m.nodes ⊆ before

theorem Closed.append {ns ms : List Expr} (hns : Closed ns) (hms : Closed ms) : Closed (ns ++ ms) := by
  rintro before ⟨after, h⟩ m hm
  rcases List.append_eq_append_iff.1 h with ⟨between, rfl, -⟩ | ⟨between, rfl, rfl⟩
  · exact hns before (List.prefix_append _ _) m hm
  · rcases List.mem_append.1 hm with hm | hm
    · exact List.subset_append_of_subset_left _ (hns ns List.prefix_rfl m hm)
    · exact List.subset_append_of_subset_right _ (hms between (List.prefix_append _ _) m hm)

theorem Closed.concat {ns : List Expr} {n : Expr} (hns : Closed ns) (hn : n.nodes = ns ++ [n]) :
    Closed n.nodes := by
  intro before hbefore m hm
  rw [hn] at hbefore
  rcases List.prefix_concat_iff.1 hbefore with rfl | hbefore
  · rcases List.mem_append.1 hm with hm | hm
    · exact List.subset_append_of_subset_left _ (hns ns List.prefix_rfl m hm)
    · obtain rfl := List.mem_singleton.1 hm
      rw [hn]
      exact List.Subset.refl _
  · exact hns before hbefore m hm

theorem closed_nodes (e : Expr) : Closed e.nodes := by
  induction e with
  | literal v => exact @Closed.concat [] (.literal v) (by simp [Closed]) rfl
  | group e ih => exact ih.concat rfl
  | unary op e ih => exact ih.concat rfl
  | binary op l r ihl ihr => exact (ihl.append ihr).concat rfl

/-- As long as no node has failed, all nodes have values. -/
theorem exists_value_of_before {e m : Expr} {before : List Expr} (h : before <+: e.nodes)
    (hbefore : ∀ n ∈ before, ¬ n.Fails) (hm : m ∈ before) : ∃ v, m.eval = .ok v := by
  rcases nodes_decide m with ⟨v, hv, -⟩ | ⟨err, -, earlier, n, later, hnodes, -, hn⟩
  · exact ⟨v, hv⟩
  · have hmem : n ∈ before := closed_nodes e before h m hm (by rw [hnodes]; simp)
    exact absurd ⟨err, hn⟩ (hbefore n hmem)

/-- The order of evaluation. The nodes of a tree are taken in postorder. The tree has a value exactly if no
node fails, and otherwise the error with which the first failing node does. As long as none has failed, all
nodes have values, so that no operand is passed over. A node fails exactly by the table: its operands have
values, and the tree below it has none. Equality never fails. -/
theorem first_failure_decides (e : Expr) :
    e.nodes.map root = e.postorder ∧
    ((∃ v, e.eval = .ok v) ↔ ∀ n ∈ e.nodes, ¬ n.Fails) ∧
    (∀ err, e.eval = .error err ↔ ∃ before n after, e.nodes = before ++ n :: after ∧
      (∀ m ∈ before, ¬ m.Fails) ∧ n.FailsWith err) ∧
    (∀ before after, e.nodes = before ++ after → (∀ m ∈ before, ¬ m.Fails) →
      ∀ m ∈ before, ∃ v, m.eval = .ok v) ∧
    (∀ n ∈ e.nodes, ∀ err, n.FailsWith err ↔
      (∀ o ∈ n.operands, ∃ v, o.eval = .ok v) ∧ n.eval = .error err) ∧
    ∀ op l r v w, .binary op l r ∈ e.nodes → op.kind = .equalEqual ∨ op.kind = .bangEqual →
      l.eval = .ok v → r.eval = .ok w → ∃ b, (Expr.binary op l r).eval = .ok (.bool b) := by
  refine ⟨nodes_map_root e, ?_, fun err => ?_, ?_, fun n _ err => failsWith_iff, ?_⟩
  · rcases nodes_decide e with ⟨v, hv, hnone⟩ | ⟨err, herr, before, n, after, hnodes, -, hn⟩
    · exact ⟨fun _ => hnone, fun _ => ⟨v, hv⟩⟩
    · constructor
      · rintro ⟨v, hv⟩
        cases herr.symm.trans hv
      · intro hnone
        exact absurd ⟨err, hn⟩ (hnone n (by simp [hnodes]))
  · rcases nodes_decide e with ⟨v, hv, hnone⟩ | ⟨err', herr', hfirst⟩
    · constructor
      · intro herr
        cases hv.symm.trans herr
      · rintro ⟨before, n, after, hnodes, -, hn⟩
        exact absurd ⟨err, hn⟩ (hnone n (by simp [hnodes]))
    · constructor
      · intro herr
        obtain rfl := Except.error.inj (herr'.symm.trans herr)
        exact hfirst
      · intro h
        rw [hfirst.unique h, herr']
  · rintro before after h hbefore m hm
    exact exists_value_of_before ⟨after, h.symm⟩ hbefore hm
  · rintro op l r v w - hop hl hr
    exact eval_equality hop hl hr

/-- Two operands that fail, the left one on its operand and the right one for want of a rule. -/
theorem first_failure_decides_at :
    let minus : Token := ⟨.minus, "-", none, 1⟩
    let comma : Token := ⟨.comma, ",", none, 2⟩
    let number : Expr := .literal (some (.number 0))
    let e : Expr := .binary ⟨.equalEqual, "==", none, 3⟩ (.unary minus (.literal none))
      (.binary comma number number)
    e.eval = .error (.operandTypes minus .numberOperand) ∧
    (∃ before n after, e.nodes = before ++ n :: after ∧ (∀ m ∈ before, ¬ m.Fails) ∧
      n.FailsWith (.operandTypes minus .numberOperand)) ∧
    (Expr.binary comma number number).FailsWith (.unknownBinary .comma) := by
  intro minus comma number e
  have herr : e.eval = .error (.operandTypes minus .numberOperand) := rfl
  refine ⟨herr, ((first_failure_decides e).2.2.1 _).1 herr, ?_⟩
  exact .unknownBinary rfl rfl rfl rfl (by decide)

end Reckoner
