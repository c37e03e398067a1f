/-
One machine that parses again and again. Each call goes on at the position where the last one stopped,
whether that one succeeded or failed. A call depends on nothing but the tokens from its position on:
what was read before, and by which call, leaves no trace. So it does what a machine of its own would do
with these tokens, and once the position is the first end of the tokens it stays there.

What one call does is read off the function on pending tokens that it follows; a row of calls is an
induction on their number, with the position generalised.
-/
import Reckoner.Proofs.Guarded.Cursor
import Reckoner.Proofs.Viable
import Mathlib.Data.List.Chain

namespace Reckoner.Guarded

/-! ## Calls -/

/-- A call: the position before it, what it came to, and the position after it. -/
structure Call where
  start : Nat
  outcome : Except ParseError Expr
  stop : Nat

/-- One expression from a position on. -/
def parseFrom (tokens : List Token) : Nat → Except Fault Answer :=
  Cursor.expression tokens (Cursor.unary tokens (tokens.length + 1))

/-- What a call may do on the tokens `tokens`, which are completed: it goes forward, not beyond the first
end; a success reads something, a failure stops at the token that it names; and it comes to what parsing
the tokens from its start on comes to, for the parser and for the machine, after as many tokens. -/
structure Call.Proper (tokens : List Token) (call : Call) : Prop where
  forward : call.start ≤ call.stop
  within : call.stop ≤ (TokenStream.complete tokens).findIdx (·.kind == .eof)
  progress : ∀ e, call.outcome = .ok e → call.start < call.stop
  blamed : ∀ err, call.outcome = .error err →
    (TokenStream.complete tokens)[call.stop]? = some err.token
  parsed : ∃ left,
    Reckoner.parse (.ofTokens ((TokenStream.complete tokens).drop call.start)) = (call.outcome, left) ∧
    TokenStream.Reads (call.stop - call.start)
      (.ofTokens ((TokenStream.complete tokens).drop call.start)) left
  afresh : parseFrom (TokenStream.complete ((TokenStream.complete tokens).drop call.start)) 0 =
    .ok (call.outcome, call.stop - call.start)

/-- The next `n` calls on a list of tokens that has an end, from a position on. -/
def calls (tokens : List Token) : Nat → Nat → Except Fault (List Call)
  | 0, _ => return []
  | n + 1, i => do
    let (outcome, j) ← parseFrom tokens i
    return ⟨i, outcome, j⟩ :: (← calls tokens n j)

namespace Cursor

variable {tokens : List Token} {s : TokenStream}

/-! ## Lists from a position on -/

theorem Holds.drop (h : Holds tokens s) {i : Nat} (hi : i ≤ s.pending.length) :
    Holds (tokens.drop i) ⟨s.pending.drop i, s.final⟩ := by
  obtain ⟨⟨later, hbegins⟩, hpending, hfinal⟩ := h
  refine ⟨⟨later, ?_⟩, fun t ht => hpending t (List.mem_of_mem_drop ht), hfinal⟩
  rw [← hbegins, List.append_assoc, List.append_assoc, List.drop_append_of_le_length hi]

theorem Holds.ofTokens_eq (h : Holds tokens s) : TokenStream.ofTokens tokens = s := by
  obtain ⟨⟨later, rfl⟩, hpending, hfinal⟩ := h
  have hnone : s.pending.find? (·.kind == .eof) = none := by simpa using hpending
  have hwhile : (s.pending ++ [s.final] ++ later).takeWhile (·.kind != .eof) = s.pending := by
    rw [List.append_assoc, List.takeWhile_append_of_pos (by simpa using hpending)]
    simp [hfinal]
  unfold TokenStream.ofTokens TokenStream.finalOf
  rw [hwhile, List.append_assoc, List.find?_append, hnone]
  simp [hfinal]

/-- The first end of the tokens stands behind the pending ones. -/
theorem Holds.findIdx_eq (h : Holds tokens s) :
    tokens.findIdx (·.kind == .eof) = s.pending.length := by
  obtain ⟨⟨later, rfl⟩, hpending, hfinal⟩ := h
  have hnone : ¬ s.pending.findIdx (·.kind == .eof) < s.pending.length := by
    rw [List.findIdx_lt_length]
    simpa using hpending
  rw [List.append_assoc, List.findIdx_append, if_neg hnone]
  simp [List.findIdx_cons, hfinal]

/-- Tokens that end in an end need no other one, from whichever position on they are taken. -/
theorem complete_drop (h : Holds (TokenStream.complete tokens) s) {i : Nat} (hi : i ≤ s.pending.length) :
    TokenStream.complete ((TokenStream.complete tokens).drop i) = (TokenStream.complete tokens).drop i := by
  have hlt := h.length_lt
  have hlast : ∃ t, (TokenStream.complete tokens).getLast? = some t ∧ t.kind = .eof := by
    unfold TokenStream.complete
    split
    · rename_i t ht
      split
      · rename_i hk
        exact ⟨t, ht, hk⟩
      · exact ⟨_, List.getLast?_concat, rfl⟩
    · exact ⟨_, rfl, rfl⟩
  obtain ⟨t, ht, hk⟩ := hlast
  have hdrop : ((TokenStream.complete tokens).drop i).getLast? = some t := by
    rw [List.getLast?_drop, if_neg (by omega), ht]
  rw [TokenStream.complete.eq_def ((TokenStream.complete tokens).drop i), hdrop]
  simp [hk]

/-! ## One call -/

/-- A call from a position on does with the pending tokens what `parse` does. -/
theorem parseFrom_tells (h : Holds tokens s) {i : Nat} (hi : i ≤ s.pending.length) :
    ∃ a, parseFrom tokens i = .ok a ∧ Tells s i (Parser.expression (s.pending.drop i)) a := by
  have hlt := h.length_lt
  have hunary := unary_follows h (s.pending.length - i) (tokens.length + 1) (by omega)
  have := expression_follows h hunary i hi (Nat.le_refl _)
  rwa [← List.length_drop] at this

theorem parseFrom_eq (h : Holds tokens s) {i : Nat} (hi : i ≤ s.pending.length) :
    ∃ outcome j, parseFrom tokens i = .ok (outcome, j) ∧ i ≤ j ∧ j ≤ s.pending.length ∧
      Reckoner.parse ⟨s.pending.drop i, s.final⟩ = (outcome, ⟨s.pending.drop j, s.final⟩) := by
  obtain ⟨a, ha, htells⟩ := parseFrom_tells h hi
  unfold Reckoner.parse
  simp only
  generalize Parser.expression (s.pending.drop i) = o at htells ⊢
  cases htells with
  | parsed hj hlen => exact ⟨_, _, ha, hj, hlen, rfl⟩
  | failed expected hj hlen => exact ⟨_, _, ha, hj, hlen, rfl⟩

end Cursor

open Cursor

variable {tokens : List Token} {s : TokenStream} {i j : Nat} {outcome : Except ParseError Expr}

/-- What a call reads of the pending tokens is at least one token if it succeeds. -/
theorem progress_of_parse (hj : j ≤ s.pending.length) {e : Expr}
    (h : Reckoner.parse ⟨s.pending.drop i, s.final⟩ = (.ok e, ⟨s.pending.drop j, s.final⟩)) : i < j := by
  obtain ⟨hexpr, -⟩ := (parse_eq_ok_iff _ _ _).1 h
  obtain ⟨ts, hts, hd, -⟩ := (Grammar.expression_parsed_iff _ _ _).1 hexpr
  have hlength := congrArg List.length hts
  have := List.length_pos_iff.2 hd.ne_nil
  simp only [List.length_append, List.length_drop] at hlength
  omega

/-- A machine that is given the tokens from a position on returns what a call from that position on
returns, after as many tokens. -/
theorem parseFrom_fresh (h : Holds (TokenStream.complete tokens) s) (hi : i ≤ s.pending.length)
    (hcall : parseFrom (TokenStream.complete tokens) i = .ok (outcome, j)) :
    parseFrom (TokenStream.complete ((TokenStream.complete tokens).drop i)) 0 = .ok (outcome, j - i) := by
  obtain ⟨outcome₁, j₁, hcall₁, hij, hj, hparse₁⟩ := parseFrom_eq h hi
  cases hcall.symm.trans hcall₁
  obtain ⟨outcome₂, k, hcall₂, -, hk, hparse₂⟩ := parseFrom_eq (h.drop hi) (Nat.zero_le _)
  -- both are parses of the same stream, and the number of tokens left tells how many were read
  obtain ⟨rfl, hleft⟩ := Prod.mk.inj (hparse₁.symm.trans hparse₂)
  have hlength := congrArg (fun s : TokenStream => s.pending.length) hleft
  simp only [List.length_drop] at hlength hk
  rw [complete_drop h hi, hcall₂, show k = j - i by omega]

/-- One call, at a position that is not behind the first end. -/
theorem parseFrom_proper (h : Holds (TokenStream.complete tokens) s) (hi : i ≤ s.pending.length) :
    ∃ outcome j, parseFrom (TokenStream.complete tokens) i = .ok (outcome, j) ∧ j ≤ s.pending.length ∧
      Reckoner.parse ⟨s.pending.drop i, s.final⟩ = (outcome, ⟨s.pending.drop j, s.final⟩) ∧
      Call.Proper tokens ⟨i, outcome, j⟩ := by
  obtain ⟨outcome, j, hcall, hij, hj, hparse⟩ := parseFrom_eq h hi
  refine ⟨outcome, j, hcall, hj, hparse, hij, ?_, ?_, ?_, ?_, parseFrom_fresh h hi hcall⟩
  · rw [h.findIdx_eq]
    exact hj
  · rintro e rfl
    exact progress_of_parse hj hparse
  · rintro err rfl
    obtain ⟨-, -, -, -, htoken, -⟩ := (parse_eq_error_iff _ _ _).1 hparse
    rw [htoken]
    exact TokenStream.getElem?_of_begins h.begins hj
  · rw [(h.drop hi).ofTokens_eq]
    refine ⟨_, hparse, ?_, ?_, rfl⟩
    · simp only [List.length_drop]
      omega
    · rw [List.drop_drop, Nat.add_sub_cancel' hij]

/-! ## Calls in a row -/

/-- The calls of a row are proper, come to what `parseRepeatedly` does, and each of them starts where the
one before it stopped. -/
theorem calls_eq (h : Holds (TokenStream.complete tokens) s) : ∀ (n i : Nat), i ≤ s.pending.length →
    ∃ row, calls (TokenStream.complete tokens) n i = .ok row ∧ row.length = n ∧
      (∀ call ∈ row.head?, call.start = i) ∧ row.IsChain (fun call next => call.stop = next.start) ∧
      (∀ call ∈ row, call.Proper tokens) ∧
      row.map Call.outcome = parseRepeatedly n ⟨s.pending.drop i, s.final⟩
  | 0, i, _ => ⟨[], rfl, rfl, by simp, by simp, by simp, rfl⟩
  | n + 1, i, hi => by
    obtain ⟨outcome, j, hcall, hj, hparse, hproper⟩ := parseFrom_proper h hi
    obtain ⟨row, hrow, hlength, hstart, hchain, hall, houtcomes⟩ := calls_eq h n j hj
    refine ⟨⟨i, outcome, j⟩ :: row, ?_, ?_, ?_, ?_, ?_, ?_⟩
    · rw [calls, hcall, ok_bind]
      simp only [hrow, ok_bind, pure_eq_ok]
    · rw [List.length_cons, hlength]
    · simp
    · rw [List.isChain_cons]
      exact ⟨fun next hnext => (hstart next hnext).symm, hchain⟩
    · simpa using ⟨hproper, hall⟩
    · rw [List.map_cons, houtcomes, parseRepeatedly, hparse]

theorem calls_at_end (h : Holds tokens s) : ∀ n, calls tokens n s.pending.length =
    .ok (List.replicate n ⟨s.pending.length, .error ⟨s.final, .expression⟩, s.pending.length⟩)
  | 0 => rfl
  | n + 1 => by
    obtain ⟨outcome, j, hcall, hij, hj, hparse⟩ := parseFrom_eq h (Nat.le_refl _)
    obtain rfl : j = s.pending.length := by omega
    rw [List.drop_length] at hparse
    cases hparse
    rw [calls, hcall, ok_bind]
    simp only [calls_at_end h n, ok_bind, pure_eq_ok, List.replicate_succ]
    rfl

/-- However often one machine parses, every call ends, without a fault. The position never goes back and
never beyond the first end, a success reads at least one token, a failure stops exactly at the token
that it names, and a call does what a machine of its own does with the tokens from its start on. From
the first end on all calls fail there, and none of them moves. -/
theorem parses_in_a_row (tokens : List Token) (n : Nat) :
    (∃ row, calls (TokenStream.complete tokens) n 0 = .ok row ∧ row.length = n ∧
      row.map Call.outcome = parseRepeatedly n (.ofTokens tokens) ∧
      (∀ call ∈ row.head?, call.start = 0) ∧ row.IsChain (fun call next => call.stop = next.start) ∧
      ∀ call ∈ row, call.Proper tokens) ∧
    ∃ (last : Nat) (err : ParseError), last = (TokenStream.complete tokens).findIdx (·.kind == .eof) ∧
      (TokenStream.complete tokens)[last]? = some err.token ∧ err.token.kind = .eof ∧
      err.expected.message = "Expect expression." ∧
      calls (TokenStream.complete tokens) n last = .ok (List.replicate n ⟨last, .error err, last⟩) := by
  have hholds := holds_complete tokens
  constructor
  · obtain ⟨row, hrow, hlength, hstart, hchain, hproper, houtcomes⟩ :=
      calls_eq hholds n 0 (Nat.zero_le _)
    exact ⟨row, hrow, hlength, houtcomes, hstart, hchain, hproper⟩
  · have hend := TokenStream.getElem?_of_begins hholds.begins (Nat.le_refl _)
    rw [List.drop_length] at hend
    exact ⟨_, ⟨(TokenStream.ofTokens tokens).final, .expression⟩, hholds.findIdx_eq.symm, hend,
      hholds.final, rfl, calls_at_end hholds n⟩

end Reckoner.Guarded
