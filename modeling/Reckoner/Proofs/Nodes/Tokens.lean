/-
The fields of plans as tokens, and the terms that are read from them. A word that is a keyword stands for no
name, so a field of a struct is read exactly when neither its name nor the base of its type is a keyword.
-/
import Reckoner.Nodes.Fragment
import Reckoner.Proofs.Nodes.Plans
import Mathlib.Tactic.FinCases

namespace Reckoner.Nodes

/-! ## Tokens -/

/-- The token of a word. -/
def wordToken (w : String) (spot : Spot) : Token :=
  ⟨if keywords.contains w then .mark else .name, w, spot⟩

/-- The tokens of a type from a place on. -/
def typeTokens : Spot → List Layer → String → List Token
  | spot, [], base => [wordToken base spot]
  | spot, .pointer :: layers, base => ⟨.mark, "*", spot⟩ :: typeTokens (spot.shift 1) layers base
  | spot, .slice :: layers, base =>
    ⟨.mark, "[", spot⟩ :: ⟨.mark, "]", spot.shift 1⟩ :: typeTokens ((spot.shift 1).shift 1) layers base

/-- The tokens of a name and a type from a place on. -/
def pairTokens (spot : Spot) (name : String) (layers : List Layer) (base : String) : List Token :=
  wordToken name spot :: typeTokens (spot.shift (name.length + 1)) layers base

theorem isNameStart_of_isPlainStart {c : Char} (h : isPlainStart c = true) : isNameStart c = true := by
  have hn := toNat_of_isPlain (show isPlain c = true by simp [isPlain, h])
  have hlow : c.toNat < 0x80 := by omega
  simpa [isPlainStart, isNameStart, Text.isLetter, hlow] using h

theorem isNameChar_of_isPlain {c : Char} (h : isPlain c = true) : isNameChar c = true := by
  have hn := toNat_of_isPlain h
  have hlow : c.toNat < 0x80 := by omega
  simp only [isPlain, Bool.or_eq_true] at h
  simp only [isNameChar, Bool.or_eq_true]
  rcases h with h | h
  · exact .inl (isNameStart_of_isPlainStart h)
  · exact .inr (by simpa [Text.isDigit, hlow] using h)

theorem Identifier.isNameChar (x : Identifier) : ∀ c ∈ x.text.toList, Nodes.isNameChar c = true :=
  fun c hc => isNameChar_of_isPlain (x.plain c hc)

/-- A text that begins like a name is one word, if all of its characters can stand in a name. -/
theorem item?_word {spot : Spot} {c : Char} {rest : List Char} (hc : isNameStart c = true)
    (hrest : ∀ d ∈ rest, Nodes.isNameChar d = true) :
    item? spot (c :: rest) = some (.token (wordToken (String.ofList (c :: rest)) spot), []) := by
  have hall : ∀ d ∈ c :: rest, Nodes.isNameChar d = true :=
    List.forall_mem_cons.2 ⟨by simp [Nodes.isNameChar, hc], hrest⟩
  have htake : (c :: rest).takeWhile Nodes.isNameChar = c :: rest := List.takeWhile_eq_self_iff.2 hall
  have hdrop : (c :: rest).dropWhile Nodes.isNameChar = [] := List.dropWhile_eq_nil_iff.2 hall
  unfold item?
  split
  · next h => cases h
  · next h => exact absurd hc (by rw [(List.cons.inj h).1]; decide)
  · next h => exact absurd hc (by rw [(List.cons.inj h).1]; decide)
  · next h => exact absurd hc (by rw [(List.cons.inj h).1]; decide)
  · next h => exact absurd hc (by rw [(List.cons.inj h).1]; decide)
  · next h => exact absurd hc (by rw [(List.cons.inj h).1]; decide)
  · next h =>
    obtain ⟨rfl, rfl⟩ := List.cons.inj h
    simp [hc, htake, hdrop, wordToken]

theorem item?_star {spot : Spot} {c : Char} (hc : c ≠ '=') (rest : List Char) :
    item? spot ('*' :: c :: rest) = some (.token ⟨.mark, "*", spot⟩, c :: rest) := by
  have hbeq : ('=' == c) = false := by simpa using Ne.symm hc
  have hsign : sign? ('*' :: c :: rest) = some "*" := by
    simp [sign?, signs, List.find?, List.isPrefixOf, hbeq]
  change (sign? ('*' :: c :: rest)).map _ = _
  rw [hsign]
  rfl

theorem item?_open (spot : Spot) (rest : List Char) :
    item? spot ('[' :: rest) = some (.token ⟨.mark, "[", spot⟩, rest) := rfl

theorem item?_close (spot : Spot) (rest : List Char) :
    item? spot (']' :: rest) = some (.token ⟨.mark, "]", spot⟩, rest) := rfl

theorem itemsFrom?_nil (n : Nat) (spot : Spot) : itemsFrom? n spot [] = some [] := by
  cases n <;> rfl

theorem itemsFrom?_cons {spot : Spot} {c : Char} {rest behind : List Char} {item : Item}
    (h : item? spot (c :: rest) = some (item, behind)) (n : Nat) :
    itemsFrom? (n + 1) spot (c :: rest) =
      (itemsFrom? n (spot.shift ((c :: rest).length - behind.length)) behind).map (item :: ·) := by
  rw [itemsFrom?, h]
  simp

theorem itemsFrom?_word (x : Identifier) (spot : Spot) (n : Nat) :
    itemsFrom? (n + 1) spot x.text.toList = some [.token (wordToken x.text spot)] := by
  obtain ⟨c, rest, hx, hc, hrest⟩ := x.wellFormed
  have hitem : item? spot (c :: rest) = some (.token (wordToken x.text spot), []) := by
    rw [item?_word (isNameStart_of_isPlainStart hc) fun d hd => isNameChar_of_isPlain (hrest d hd), ← hx,
      String.ofList_toList]
  rw [hx, itemsFrom?_cons hitem, itemsFrom?_nil]
  rfl

/-- What follows a star in a type is no equals sign. -/
theorem exists_head_ne (layers : List Layer) (base : Identifier) :
    ∃ c rest, layers.flatMap Layer.chars ++ base.text.toList = c :: rest ∧ c ≠ '=' := by
  obtain ⟨c, rest, hx, hc, -⟩ := base.wellFormed
  match layers with
  | [] =>
    refine ⟨c, rest, hx, ?_⟩
    rintro rfl
    exact absurd hc (by decide)
  | .pointer :: layers => exact ⟨'*', layers.flatMap Layer.chars ++ base.text.toList, rfl, by decide⟩
  | .slice :: layers => exact ⟨'[', ']' :: (layers.flatMap Layer.chars ++ base.text.toList), rfl, by decide⟩

theorem itemsFrom?_type (layers : List Layer) (base : Identifier) (spot : Spot) (n : Nat)
    (hn : (layers.flatMap Layer.chars ++ base.text.toList).length ≤ n) :
    itemsFrom? n spot (layers.flatMap Layer.chars ++ base.text.toList) =
      some ((typeTokens spot layers base.text).map .token) := by
  induction layers generalizing spot n with
  | nil =>
    have hpos := List.length_pos_iff.2 base.ne_nil
    obtain ⟨n, rfl⟩ : ∃ m, n = m + 1 := ⟨n - 1, by simp at hn; omega⟩
    exact itemsFrom?_word base spot n
  | cons layer layers ih =>
    cases layer with
    | pointer =>
      obtain ⟨c, rest, hrest, hc⟩ := exists_head_ne layers base
      have hchars : (Layer.pointer :: layers).flatMap Layer.chars ++ base.text.toList = '*' :: c :: rest := by
        rw [← hrest]
        rfl
      rw [hrest] at ih
      rw [hchars] at hn ⊢
      obtain ⟨n, rfl⟩ : ∃ m, n = m + 1 := ⟨n - 1, by simp at hn; omega⟩
      rw [itemsFrom?_cons (item?_star hc rest), ih _ n (by simpa using hn)]
      simp [typeTokens]
    | slice =>
      have hchars : (Layer.slice :: layers).flatMap Layer.chars ++ base.text.toList =
          '[' :: ']' :: (layers.flatMap Layer.chars ++ base.text.toList) := rfl
      rw [hchars] at hn ⊢
      obtain ⟨n, rfl⟩ : ∃ m, n = m + 2 := ⟨n - 2, by simp at hn; omega⟩
      rw [itemsFrom?_cons (item?_open spot _), itemsFrom?_cons (item?_close _ _), ih _ n (by simp at hn ⊢; omega)]
      simp [typeTokens]

theorem items?_word (x : Identifier) (spot : Spot) : items? spot x.text = some [.token (wordToken x.text spot)] := by
  have hpos : 0 < x.text.length := by
    rw [← String.length_toList]
    exact List.length_pos_iff.2 x.ne_nil
  rw [items?, ← Nat.succ_pred_eq_of_pos hpos]
  exact itemsFrom?_word x spot _

theorem items?_type (f : FieldPlan) (spot : Spot) :
    items? spot f.field.type = some ((typeTokens spot f.layers f.base.text).map .token) := by
  rw [items?, FieldPlan.field, String.length_ofList, String.toList_ofList]
  exact itemsFrom?_type f.layers f.base spot _ (Nat.le_refl _)

/-! ## Single steps of reading -/

namespace Reading

@[simp] theorem run_mark_nil : mark.run [] = some ("", []) := rfl

@[simp] theorem run_mark_cons (t : Token) (ts : List Token) :
    mark.run (t :: ts) = some (if t.kind = .mark then t.text else "", t :: ts) := rfl

@[simp] theorem run_isAt_nil (kind : Kind) : (isAt kind).run [] = some (false, []) := rfl

@[simp] theorem run_isAt_cons (kind : Kind) (t : Token) (ts : List Token) :
    (isAt kind).run (t :: ts) = some (decide (t.kind = kind), t :: ts) := rfl

@[simp] theorem run_word (w : String) (spot : Spot) (ts : List Token) :
    word.run (⟨.name, w, spot⟩ :: ts) = some (⟨w, spot⟩, ts) := rfl

@[simp] theorem run_expect (w : String) (spot : Spot) (ts : List Token) :
    (expect w).run (⟨.mark, w, spot⟩ :: ts) = some (spot, ts) := by
  simp [expect, next]

end Reading

/-! ## Reading types -/

/-- The term of a type from a place on. -/
def typeTerm : Spot → List Layer → String → Term
  | spot, [], base => .name ⟨base, spot⟩
  | spot, .pointer :: layers, base => .pointer spot (typeTerm (spot.shift 1) layers base)
  | spot, .slice :: layers, base => .slice spot (typeTerm ((spot.shift 1).shift 1) layers base)

theorem readType_pointer (n : Nat) (spot : Spot) (tokens : List Token) :
    (readType (n + 1)).run (⟨.mark, "*", spot⟩ :: tokens) =
      ((readType n).run tokens).bind fun p => some (.pointer spot p.1, p.2) := rfl

theorem readType_slice (n : Nat) (spot spot' : Spot) (tokens : List Token) :
    (readType (n + 2)).run (⟨.mark, "[", spot⟩ :: ⟨.mark, "]", spot'⟩ :: tokens) =
      ((readType n).run tokens).bind fun p => some (.slice spot p.1, p.2) := rfl

theorem wordToken_name {w : String} (h : w ∉ keywords) (spot : Spot) : wordToken w spot = ⟨.name, w, spot⟩ := by
  simp [wordToken, h]

theorem wordToken_keyword {w : String} (h : w ∈ keywords) (spot : Spot) : wordToken w spot = ⟨.mark, w, spot⟩ := by
  simp [wordToken, h]

theorem readType_type {base : String} (hbase : base ∉ keywords) (layers : List Layer) (spot : Spot) (n : Nat)
    (hn : 2 * layers.length + 3 ≤ n) :
    (readType n).run (typeTokens spot layers base) = some (typeTerm spot layers base, []) := by
  induction layers generalizing spot n with
  | nil =>
    obtain ⟨n, rfl⟩ : ∃ m, n = m + 3 := ⟨n - 3, by simp at hn; omega⟩
    rw [typeTokens, wordToken_name hbase]
    rfl
  | cons layer layers ih =>
    rw [List.length_cons] at hn
    obtain ⟨n, rfl⟩ : ∃ m, n = m + 2 := ⟨n - 2, by omega⟩
    cases layer with
    | pointer => rw [typeTokens, readType_pointer, ih _ (n + 1) (by omega)]; rfl
    | slice => rw [typeTokens, readType_slice, ih _ n (by omega)]; rfl

theorem readType_keyword {w : String} (h : w ∈ keywords) (n : Nat) (spot : Spot) :
    (readType n).run [⟨.mark, w, spot⟩] = none := by
  unfold keywords at h
  -- a keyword that begins a type fails at most two steps further down
  rcases n with _ | _ | _ | n <;> fin_cases h <;> rfl

/-- No type is read around a keyword. -/
theorem readType_type_keyword {base : String} (hbase : base ∈ keywords) (layers : List Layer) (spot : Spot) (n : Nat) :
    (readType n).run (typeTokens spot layers base) = none := by
  induction layers generalizing spot n with
  | nil =>
    rw [typeTokens, wordToken_keyword hbase]
    exact readType_keyword hbase n spot
  | cons layer layers ih =>
    cases layer with
    | pointer =>
      cases n with
      | zero => rfl
      | succ n => rw [typeTokens, readType_pointer, ih]; rfl
    | slice =>
      match n with
      | 0 => rfl
      | 1 => rfl
      | n + 2 => rw [typeTokens, readType_slice, ih]; rfl

/-! ## Reading fields -/

theorem depthBound_pair (spot : Spot) (name : String) (layers : List Layer) (base : String) :
    2 * layers.length + 24 ≤ depthBound (pairTokens spot name layers base) := by
  have hlength : ∀ spot, layers.length + 1 ≤ (typeTokens spot layers base).length := by
    induction layers with
    | nil => simp [typeTokens]
    | cons layer layers ih =>
      intro spot
      cases layer with
      | pointer =>
        have := ih (spot.shift 1)
        simp only [typeTokens, List.length_cons]
        omega
      | slice =>
        have := ih ((spot.shift 1).shift 1)
        simp only [typeTokens, List.length_cons]
        omega
  have := hlength (spot.shift (name.length + 1))
  simp only [depthBound, pairTokens, List.length_cons]
  omega

/-- No field begins with a keyword. -/
theorem readField_keyword {w : String} (h : w ∈ keywords) (n : Nat) (spot : Spot) (tokens : List Token) :
    (readField n).run (⟨.mark, w, spot⟩ :: tokens) = none := by
  cases n with
  | zero => rfl
  | succ n =>
    unfold keywords at h
    fin_cases h <;> rfl

/-- Next to a name, the first token of a type shows that a type follows. -/
theorem readField_pair {name base : String} (hname : name ∉ keywords) (hbase : base ∉ keywords) (layers : List Layer)
    (spot : Spot) (n : Nat) (hn : 2 * layers.length + 24 ≤ n) :
    (readField n).run (pairTokens spot name layers base) =
      some (.mk [⟨name, spot⟩] (typeTerm (spot.shift (name.length + 1)) layers base) none false, []) := by
  obtain ⟨n, rfl⟩ : ∃ m, n = m + 3 := ⟨n - 3, by omega⟩
  rw [pairTokens, wordToken_name hname]
  match layers with
  | [] =>
    have htype := readType_type hbase [] (spot.shift (name.length + 1)) (n + 2) (by simp at hn ⊢; omega)
    rw [typeTokens, wordToken_name hbase] at htype ⊢
    simp [readField, isAtType, htype, Declared.member?, Member.names, Member.type]
  | .pointer :: layers =>
    have htype := readType_type hbase (.pointer :: layers) (spot.shift (name.length + 1)) (n + 2) (by omega)
    rw [typeTokens] at htype ⊢
    simp [readField, isAtType, typeMarks, htype, Declared.member?, Member.names, Member.type]
  | .slice :: layers =>
    have htype := readType_type hbase layers (((spot.shift (name.length + 1)).shift 1).shift 1) (n + 1)
      (by simp at hn; omega)
    rw [typeTokens, typeTerm]
    simp [readField, readBracket, htype, Declared.member?, Member.names, Member.type]

/-- A parameter is read like a field. -/
theorem readParameter_pair {name base : String} (hname : name ∉ keywords) (hbase : base ∉ keywords)
    (layers : List Layer) (spot : Spot) (n : Nat) (hn : 2 * layers.length + 24 ≤ n) :
    (readParameter n).run (pairTokens spot name layers base) =
      some (⟨some ⟨name, spot⟩, some (typeTerm (spot.shift (name.length + 1)) layers base)⟩, []) := by
  obtain ⟨n, rfl⟩ : ∃ m, n = m + 3 := ⟨n - 3, by omega⟩
  rw [pairTokens, wordToken_name hname]
  match layers with
  | [] =>
    have htype := readType_type hbase [] (spot.shift (name.length + 1)) (n + 2) (by simp at hn ⊢; omega)
    rw [typeTokens, wordToken_name hbase] at htype ⊢
    simp [readParameter, isAtType, htype]
  | .pointer :: layers =>
    have htype := readType_type hbase (.pointer :: layers) (spot.shift (name.length + 1)) (n + 2) (by omega)
    rw [typeTokens] at htype ⊢
    simp [readParameter, isAtType, typeMarks, htype]
  | .slice :: layers =>
    have htype := readType_type hbase layers (((spot.shift (name.length + 1)).shift 1).shift 1) (n + 1)
      (by simp at hn; omega)
    rw [typeTokens, typeTerm]
    simp [readParameter, readBracket, htype]

theorem field?_pair {name base : String} (hname : name ∉ keywords) (hbase : base ∉ keywords) (layers : List Layer)
    (spot : Spot) :
    field? (pairTokens spot name layers base) =
      some (.mk [⟨name, spot⟩] (typeTerm (spot.shift (name.length + 1)) layers base) none false) := by
  rw [field?, Reading.all?, readField_pair hname hbase layers spot _ (depthBound_pair ..)]

theorem declared?_pair {name base : String} (hname : name ∉ keywords) (hbase : base ∉ keywords) (layers : List Layer)
    (spot : Spot) :
    declared? (pairTokens spot name layers base) =
      some ⟨some ⟨name, spot⟩, some (typeTerm (spot.shift (name.length + 1)) layers base)⟩ := by
  rw [declared?, Reading.all?, readParameter_pair hname hbase layers spot _ (depthBound_pair ..)]

/-- No field of a struct has a keyword for its name. -/
theorem field?_keyword_name {name : String} (hname : name ∈ keywords) (layers : List Layer) (base : String)
    (spot : Spot) : field? (pairTokens spot name layers base) = none := by
  rw [field?, Reading.all?]
  conv_lhs => rw [pairTokens, wordToken_keyword hname, readField_keyword hname]

theorem readField_keyword_base {base : String} (hbase : base ∈ keywords) (name : String) (layer : Layer)
    (layers : List Layer) (spot spot' : Spot) (n : Nat) :
    (readField (n + 3)).run (⟨.name, name, spot⟩ :: typeTokens spot' (layer :: layers) base) = none := by
  cases layer with
  | pointer =>
    have htype := readType_type_keyword hbase (.pointer :: layers) spot' (n + 2)
    rw [typeTokens] at htype ⊢
    simp [readField, isAtType, typeMarks, htype]
  | slice =>
    have htype := readType_type_keyword hbase layers ((spot'.shift 1).shift 1) (n + 1)
    rw [typeTokens]
    simp [readField, readBracket, htype]

/-- No field of a struct has a keyword for the base of its type. -/
theorem field?_keyword_base {name base : String} (hname : name ∉ keywords) (hbase : base ∈ keywords)
    (layers : List Layer) (spot : Spot) : field? (pairTokens spot name layers base) = none := by
  have hbound := depthBound_pair spot name layers base
  rw [pairTokens, wordToken_name hname] at hbound ⊢
  cases layers with
  | nil =>
    rw [typeTokens, wordToken_keyword hbase]
    unfold keywords at hbase
    fin_cases hbase <;> rfl
  | cons layer layers =>
    rw [field?, Reading.all?]
    generalize depthBound _ = n at hbound ⊢
    obtain ⟨n, rfl⟩ : ∃ m, n = m + 3 := ⟨n - 3, by omega⟩
    rw [readField_keyword_base hbase]

theorem argument?_word {w : String} (h : w ∉ keywords) (spot : Spot) :
    argument? [wordToken w spot] = some (.name ⟨w, spot⟩) := by
  rw [wordToken_name h]
  rfl

/-- No argument is a keyword. -/
theorem argument?_keyword {w : String} (h : w ∈ keywords) (spot : Spot) : argument? [wordToken w spot] = none := by
  rw [wordToken_keyword h]
  unfold keywords at h
  fin_cases h <;> rfl

end Reckoner.Nodes
