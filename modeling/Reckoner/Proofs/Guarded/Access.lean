/-
Guarded access: what a machine that works with positions can do wrong. It can reach outside a
sequence, take a value for one of another type, meet an operator that it has no rule for, or go on
without an end. Each of these is a fault, and a fault ends the machine.
-/
import Reckoner.Token

namespace Reckoner.Guarded

/-- What a guarded machine can do wrong. -/
inductive Fault where
  | index
  | slice
  | assertion
  | unknownOperator (kind : TokenKind)
  | unfinished
  deriving DecidableEq, Repr

/-- The item at a position, which may be negative. -/
def item {α : Type} (items : List α) (i : Int) : Except Fault α :=
  if 0 ≤ i then
    match items[i.toNat]? with
    | some a => .ok a
    | none => .error .index
  else .error .index

/-- The items from position `first` up to, but not including, position `last`. -/
def slice {α : Type} (items : List α) (first last : Nat) : Except Fault (List α) :=
  if first ≤ last ∧ last ≤ items.length then .ok ((items.take last).drop first) else .error .slice

/-- Runs `body` again and again while the test holds, at most `n` times. -/
def whileDo {σ : Type} (test : σ → Except Fault Bool) (body : σ → Except Fault σ) :
    Nat → σ → Except Fault σ
  | 0, _ => .error .unfinished
  | n + 1, s => do if ← test s then whileDo test body n (← body s) else return s

@[simp] theorem ok_bind {α β : Type} (a : α) (f : α → Except Fault β) :
    ((Except.ok a : Except Fault α) >>= f) = f a := rfl

@[simp] theorem pure_eq_ok {α : Type} (a : α) : (pure a : Except Fault α) = .ok a := rfl

theorem item_ofNat {α : Type} {items : List α} {n : Nat} {a : α} (h : items[n]? = some a) :
    item items n = .ok a := by
  simp [item, h]

theorem item_pred {α : Type} {items : List α} {n : Nat} {a : α} (h : items[n]? = some a) :
    item items ((n + 1 : Nat) - 1) = .ok a := by
  rw [Int.natCast_add, Int.natCast_one, Int.add_sub_cancel]
  exact item_ofNat h

theorem slice_eq {α : Type} {items : List α} {first last : Nat} (h : first ≤ last)
    (hlast : last ≤ items.length) : slice items first last = .ok ((items.drop first).take (last - first)) := by
  unfold slice
  rw [if_pos ⟨h, hlast⟩, List.drop_take]

end Reckoner.Guarded
