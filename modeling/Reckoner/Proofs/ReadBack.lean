/-
Displayed values read back. The display of a finite number, of a truth value and of nil is a source
that evaluates to the value, and so is a string between quotes, provided that it has none in it. No
string that an expression evaluates to has one: literals have none, and concatenation adds none.
-/
import Reckoner.Run
import Reckoner.Proofs.Grammar
import Reckoner.Proofs.Number.Bits
import Reckoner.Proofs.Number.Display

namespace Reckoner

open Grammar Lexicon

/-! ## Evaluated sources -/

/-- Evaluating the source succeeds with a value, whose display is the only line of the output. -/
structure Yields (source : String) (v : Value) : Prop where
  value : (run .evaluate source).value = some v
  output : (run .evaluate source).output = [v.display]
  errors : (run .evaluate source).errors = []
  exitCode : (run .evaluate source).exitCode = Exit.success

/-- A run has a value only if the source was scanned, parsed and evaluated without an error. -/
theorem stages_of_value {source : String} {v : Value} (h : (run .evaluate source).value = some v) :
    (scan source.toList).errors = [] ∧
      ∃ e, (parse (.ofTokens (scan source.toList).tokens)).1 = .ok e ∧ e.eval = .ok v := by
  unfold run at h
  dsimp only at h
  split at h
  · cases h
  · rename_i herrors
    rw [if_neg (by decide)] at h
    unfold runTokens at h
    split at h
    · cases h
    · rename_i e he
      rw [if_neg (by decide)] at h
      split at h
      · cases h
      · rename_i w hw
        cases h
        exact ⟨not_not.1 herrors, e, he, hw⟩

theorem yields_of_stages {source : String} {v : Value} {e : Expr} (hs : (scan source.toList).errors = [])
    (he : (parse (.ofTokens (scan source.toList).tokens)).1 = .ok e) (hv : e.eval = .ok v) :
    Yields source v := by
  have hrun : run .evaluate source =
      ⟨.evaluate, (scan source.toList).tokens, some e, some v, [v.display], [], Exit.success⟩ := by
    simp [run, runTokens, hs, he, hv]
  constructor <;> rw [hrun]

theorem yields_of_value {source : String} {v : Value} (h : (run .evaluate source).value = some v) :
    Yields source v := by
  obtain ⟨hs, e, he, hv⟩ := stages_of_value h
  exact yields_of_stages hs he hv

/-- A source evaluates to the value of the expression that its tokens derive. -/
theorem yields_of_derives {source : String} {ts : List Token} {line : Int} {e : Expr} {v : Value}
    (hs : scan source.toList = ⟨ts ++ [.endAt line], []⟩) (hd : Derives .expression ts e)
    (hv : e.eval = .ok v) : Yields source v := by
  have hpending : (TokenStream.ofTokens (ts ++ [.endAt line])).pending = ts := by
    have hts : ∀ t ∈ ts, (t.kind != .eof) = true := by simpa using hd.kind_ne_eof
    simp [TokenStream.ofTokens, List.takeWhile_append_of_pos hts, Token.endAt]
  have hexpr : Parser.expression ts = .parsed e [] :=
    (expression_parsed_iff ts e []).2 ⟨ts, by simp, hd, by simp [Rule.StopsAt]⟩
  refine yields_of_stages (by rw [hs]) ?_ hv
  rw [hs]
  unfold parse
  rw [hpending, hexpr]

/-! ## Sources of one literal -/

theorem scan_of_lexeme {w : List Char} {kind : TokenKind} {literal : Option Value}
    (h : Lexeme w (.token kind literal)) : ∃ t line, scan w = ⟨[t] ++ [.endAt line], []⟩ ∧
      t.kind = kind ∧ t.literal = literal := by
  refine ⟨⟨kind, String.ofList w, literal, 1⟩, 1 + Piece.lineEnds ⟨w, .token kind literal⟩, ?_, rfl, rfl⟩
  rw [scan, h.all_eq]
  rfl

theorem yields_of_lexeme {w : List Char} {kind : TokenKind} {literal : Option Value} {v : Value}
    (h : Lexeme w (.token kind literal))
    (hd : ∀ t : Token, t.kind = kind → t.literal = literal → Derives .primary [t] (.literal (some v))) :
    Yields (String.ofList w) v := by
  obtain ⟨t, line, hscan, hkind, hliteral⟩ := scan_of_lexeme h
  rw [← String.toList_ofList (l := w)] at hscan
  exact yields_of_derives hscan (hd t hkind hliteral).to_expression rfl

theorem yields_keyword {w : String} (kind : TokenKind) {v : Value} (h : (w, kind) ∈ TokenKind.keywords)
    (hd : ∀ t : Token, t.kind = kind → Derives .primary [t] (.literal (some v))) : Yields w v := by
  rw [← String.ofList_toList (s := w)] at h ⊢
  exact yields_of_lexeme (.keyword h) fun t hkind _ => hd t hkind

/-- A string without a quote, between quotes, evaluates to the string. -/
theorem yields_quoted {s : String} (h : '"' ∉ s.toList) : Yields ("\"" ++ s ++ "\"") (.string s) := by
  have hsource : "\"" ++ s ++ "\"" = String.ofList ('"' :: s.toList ++ ['"']) := by
    rw [← String.toList_inj]
    simp
  rw [hsource]
  refine yields_of_lexeme (.string h) fun t hkind hliteral => ?_
  have hd := Derives.literal (t := t) (.inr hkind)
  rwa [hliteral, String.ofList_toList] at hd

/-! ## Numbers -/

theorem yields_decimal {whole fraction : List Char} (hw : IsNumeral whole) (hf : IsNumeral fraction) :
    Yields (String.ofList (whole ++ '.' :: fraction))
      (.number (Number.Decimal.ofDigits whole fraction).toFloat) := by
  refine yields_of_lexeme (.decimal hw hf) fun t hkind hliteral => ?_
  have hd := Derives.literal (t := t) (.inl hkind)
  rwa [hliteral] at hd

theorem yields_minus_decimal {whole fraction : List Char} (hw : IsNumeral whole) (hf : IsNumeral fraction) :
    Yields (String.ofList ('-' :: (whole ++ '.' :: fraction)))
      (.number (-(Number.Decimal.ofDigits whole fraction).toFloat)) := by
  have hlex := Lexeme.decimal hw hf
  generalize whole ++ '.' :: fraction = w at hlex ⊢
  generalize (Number.Decimal.ofDigits whole fraction).toFloat = x at hlex ⊢
  have hscan : scan ('-' :: w) = ⟨[⟨.minus, "-", none, 1⟩, ⟨.number, String.ofList w, some (.number x), 1⟩] ++
      [.endAt (1 + Piece.lineEnds ⟨w, .token .number (some (.number x))⟩)], []⟩ := by
    rw [scan, all_minus, hlex.all_eq]
    rfl
  rw [← String.toList_ofList (l := '-' :: w)] at hscan
  exact yields_of_derives hscan
    (Derives.prefixed (.inr rfl) (.primary (.literal (.inl rfl)))).to_expression rfl

/-- The display of a finite number evaluates to the number. -/
theorem yields_display_number {x : Float} (h : x.isFinite = true) :
    Yields (Number.display x) (.number x) := by
  have hx := (Number.isFinite_iff x).1 h
  obtain ⟨whole, fraction, heq, ⟨hw, hf, -, -⟩, hvalue⟩ := Number.displayMagnitude_eq hx
  have hdisplay := Number.display_of_finite hx
  have hself := Number.ofOrdinal_ordinal hx
  rw [← String.ofList_toList (s := Number.display x), hdisplay, heq]
  cases hsign : Number.isNegative x with
  | false =>
    -- the sign of `x` is that of the double which the magnitude is read as
    have := yields_decimal hw hf
    rw [hvalue, ← hsign, hself] at this
    exact this
  | true =>
    -- evaluation negates the magnitude, which gives back the sign
    have := yields_minus_decimal hw hf
    rw [hvalue, Number.neg_ofOrdinal hx, Bool.not_false, ← hsign, hself] at this
    exact this

/-! ## Strings -/

/-- Values that can be written between quotes if they are strings. -/
def Quotable (v : Value) : Prop :=
  ∀ s, v = .string s → '"' ∉ s.toList

theorem quotable_of_lexeme {w : List Char} {kind : TokenKind} {v : Value}
    (h : Lexeme w (.token kind (some v))) : Quotable v := by
  rintro s rfl
  cases h with
  | string hbody => simpa using hbody

theorem quotable_of_allows {source : List Char} {v : Option Value}
    (h : Allows (scan source).tokens (.literal v)) : Quotable (v.getD .nil) := by
  rcases h with h | ⟨t, ht, rfl⟩
  · simp only [List.mem_cons, List.not_mem_nil, or_false] at h
    rcases h with rfl | rfl | rfl <;> simp [Quotable]
  · cases hv : t.literal with
    | none => simp [Quotable]
    | some v =>
      exact quotable_of_lexeme (lexeme_of_mem_scan ht hv)

theorem quotable_applyUnary {op : Token} {v w : Value} (h : Value.applyUnary op v = .ok w) : Quotable w := by
  unfold Value.applyUnary at h
  split at h
  · cases h
    simp [Quotable]
  · split at h
    · cases h
      simp [Quotable]
    · cases h
  · cases h

theorem quotable_arithmetic {kind : TokenKind} {x y : Float} {w : Value}
    (h : Value.arithmetic kind x y = .ok w) : Quotable w := by
  unfold Value.arithmetic at h
  split at h <;> cases h <;> simp [Quotable]

theorem quotable_applyBinary {op : Token} {l r w : Value} (hl : Quotable l) (hr : Quotable r)
    (h : Value.applyBinary op l r = .ok w) : Quotable w := by
  unfold Value.applyBinary at h
  split at h
  · cases h
    simp [Quotable]
  · cases h
    simp [Quotable]
  · split at h
    · cases h
      simp [Quotable]
    · rename_i s t
      cases h
      -- a concatenation has a quote only if one of its parts has one
      rintro _ ⟨⟩
      simp [hl s rfl, hr t rfl]
    · cases h
  · split at h
    · exact quotable_arithmetic h
    · cases h

/-- Evaluation adds no quote to those of the literals. -/
theorem quotable_eval {e : Expr} (hlit : ∀ v, .literal v ∈ e.postorder → Quotable (v.getD .nil)) :
    ∀ {w : Value}, e.eval = .ok w → Quotable w := by
  induction e with
  | literal v =>
    rintro w ⟨⟩
    exact hlit v (List.mem_singleton_self _)
  | group e ih =>
    exact ih fun v hv => hlit v (List.mem_append_left _ hv)
  | unary op e ih =>
    intro w h
    simp only [Expr.eval] at h
    split at h
    · exact quotable_applyUnary h
    · cases h
  | binary op l r ihl ihr =>
    intro w h
    simp only [Expr.eval] at h
    split at h
    · rename_i lhs hl
      split at h
      · rename_i rhs hr
        refine quotable_applyBinary (ihl ?_ hl) (ihr ?_ hr) h
        · exact fun v hv => hlit v (by simp [Expr.postorder, hv])
        · exact fun v hv => hlit v (by simp [Expr.postorder, hv])
      · cases h
    · cases h

theorem quotable_of_value {source : String} {v : Value} (h : (run .evaluate source).value = some v) :
    Quotable v := by
  obtain ⟨-, e, he, hv⟩ := stages_of_value h
  exact quotable_eval (fun lit hlit => quotable_of_allows (parse_allows he _ hlit)) hv

/-! ## All values -/

/-- The source that stands for a value: a string between quotes, and any other value as displayed. -/
def Value.source : Value → String
  | .string s => "\"" ++ s ++ "\""
  | v => v.display

theorem yields_display_bool (b : Bool) : Yields (Value.bool b).display (.bool b) := by
  cases b with
  | false => exact yields_keyword .falseWord (by decide) fun t h => .falseWord h
  | true => exact yields_keyword .trueWord (by decide) fun t h => .trueWord h

theorem yields_display_nil : Yields Value.nil.display .nil :=
  yields_keyword .nilWord (by decide) fun _ h => .nilWord h

theorem yields_source {v : Value} (hq : Quotable v) (hf : ∀ x, v = .number x → x.isFinite = true) :
    Yields v.source v := by
  cases v with
  | nil => exact yields_display_nil
  | bool b => exact yields_display_bool b
  | number x => exact yields_display_number (hf x rfl)
  | string s => exact yields_quoted (hq s rfl)

/-- Displayed values read back. Finite numbers (bit for bit), truth values and nil evaluate to
themselves as they are displayed, and strings without a quote do between quotes. No source evaluates
to a string with a quote, so whatever a source evaluates to, unless it is an infinity or a NaN, is read
back from its display, with the same output. -/
theorem display_reads_back :
    (∀ x : Float, x.isFinite = true → Yields (Number.display x) (.number x)) ∧
    (∀ s : String, '"' ∉ s.toList → Yields ("\"" ++ s ++ "\"") (.string s)) ∧
    (∀ b : Bool, Yields (Value.bool b).display (.bool b)) ∧
    Yields Value.nil.display .nil ∧
    (∀ source s, (run .evaluate source).value = some (.string s) → '"' ∉ s.toList) ∧
    (∀ source v, (run .evaluate source).value = some v → (∀ x, v = .number x → x.isFinite = true) →
      Yields v.source v ∧ (run .evaluate v.source).output = (run .evaluate source).output) := by
  refine ⟨fun x => yields_display_number, fun s => yields_quoted, yields_display_bool,
    yields_display_nil, ?_, ?_⟩
  · intro source s h
    exact quotable_of_value h s rfl
  · intro source v h hf
    have hback := yields_source (quotable_of_value h) hf
    exact ⟨hback, hback.output.trans (yields_of_value h).output.symm⟩

/-- The negative zero, and a source that concatenates two strings. -/
theorem display_reads_back_at :
    (Number.ofOrdinal true 0).isFinite = true ∧
    Yields (Number.display (Number.ofOrdinal true 0)) (.number (Number.ofOrdinal true 0)) ∧
    '"' ∉ "a//b\n".toList ∧ Yields ("\"" ++ "a//b\n" ++ "\"") (.string "a//b\n") ∧
    (run .evaluate "\"a\" + \"b\"").value = some (.string "ab") ∧ '"' ∉ "ab".toList ∧
    Yields (Value.string "ab").source (.string "ab") := by
  have hfinite : (Number.ofOrdinal true 0).isFinite = true :=
    (Number.isFinite_iff _).2 (by rw [Number.ordinal_ofOrdinal] <;> decide)
  have hvalue : (run .evaluate "\"a\" + \"b\"").value = some (.string "ab") := rfl
  have hquote : '"' ∉ "a//b\n".toList := by decide
  obtain ⟨hnumber, hstring, -, -, hclean, hback⟩ := display_reads_back
  exact ⟨hfinite, hnumber _ hfinite, hquote, hstring _ hquote, hvalue, hclean _ _ hvalue,
    (hback _ _ hvalue (by simp)).1⟩

end Reckoner
