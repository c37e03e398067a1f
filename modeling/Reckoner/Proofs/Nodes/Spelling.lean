/-
Outlines as words and signs, and how they are read back. In a list the parts stand between commas, in a block
each statement has its end, and since all braces in a part are closed no part is cut short.
-/
import Reckoner.Proofs.Nodes.Outline

namespace Reckoner.Nodes.Outline

/-! ## Spelling -/

/-- A type as words and signs. -/
def TypeTerm.spelling : TypeTerm → List Lexeme
  | .name w => [.word w]
  | .pointer t => .sign '*' :: t.spelling
  | .slice t => .sign '[' :: .sign ']' :: t.spelling
  | .anything => [.word "interface", .sign '\x7b', .sign '\x7d']

/-- A name with a type as words and signs. -/
def Parameter.spelling (p : Parameter) : List Lexeme :=
  .word p.name :: p.type.spelling

/-- Commas between parts. -/
def commas (parts : List (List Lexeme)) : List Lexeme :=
  List.intercalate [.sign ','] parts

/-- Parts in brackets, with commas between them. -/
def enclosed (opening closing : Char) (parts : List (List Lexeme)) : List Lexeme :=
  .sign opening :: commas parts ++ [.sign closing]

/-- Several results stand in brackets. -/
def resultsSpelling : List TypeTerm → List Lexeme
  | [] => []
  | [t] => t.spelling
  | ts => enclosed '(' ')' (ts.map TypeTerm.spelling)

/-- A signature as words and signs. -/
def Signature.spelling (s : Signature) : List Lexeme :=
  .word s.name :: enclosed '(' ')' (s.parameters.map Parameter.spelling) ++ resultsSpelling s.results

/-- Statements in braces, each with its end. -/
def block (parts : List (List Lexeme)) : List Lexeme :=
  .sign '\x7b' :: parts.flatMap (· ++ [.ending]) ++ [.sign '\x7d']

/-- The statement that returns from a function as words and signs. -/
def Answer.spelling : Answer → List Lexeme
  | .record type items =>
    .word "return" :: .sign '&' :: .word type :: enclosed '\x7b' '\x7d' (items.map ([.word ·]))
  | .call operand method arguments =>
    .word "return" :: .word operand :: .sign '.' :: .word method :: enclosed '(' ')' (arguments.map ([.word ·]))

/-- The receiver of a method in brackets. -/
def receiverSpelling : Option Parameter → List Lexeme
  | none => []
  | some p => enclosed '(' ')' [p.spelling]

/-- A declaration as words and signs. -/
def Declaration.spelling : Declaration → List Lexeme
  | .interface name methods =>
    .word "type" :: .word name :: .word "interface" :: block (methods.map Signature.spelling)
  | .record name fields =>
    .word "type" :: .word name :: .word "struct" :: block (fields.map Parameter.spelling)
  | .function receiver signature answer =>
    .word "func" :: receiverSpelling receiver ++ signature.spelling ++ block [answer.spelling]

/-! ## Depth in braces -/

/-- How deep in braces some words and signs leave what follows, unless a statement ends outside of braces. -/
def depth? (d : Nat) : List Lexeme → Option Nat
  | [] => some d
  | .word _ :: rest => depth? d rest
  | .sign c :: rest => depth? (depthAfter d c) rest
  | .ending :: rest => if d = 0 then none else depth? d rest

/-- All braces are closed, and no statement ends outside of them. -/
def Even (ls : List Lexeme) : Prop :=
  ∀ d, depth? d ls = some d

theorem depth?_append (d : Nat) (ls ms : List Lexeme) : depth? d (ls ++ ms) = (depth? d ls).bind (depth? · ms) := by
  induction ls generalizing d with
  | nil => rfl
  | cons l ls ih =>
    cases l with
    | word w => exact ih d
    | sign c => exact ih _
    | ending =>
      simp only [List.cons_append, depth?]
      split
      · rfl
      · exact ih d

theorem Even.append {ls ms : List Lexeme} (h : Even ls) (h' : Even ms) : Even (ls ++ ms) := by
  intro d
  rw [depth?_append, h d, Option.bind_some, h' d]

theorem Even.word {ls : List Lexeme} (h : Even ls) (w : String) : Even (.word w :: ls) :=
  h

theorem Even.sign {ls : List Lexeme} (h : Even ls) {c : Char} (hopen : c ≠ '\x7b') (hclose : c ≠ '\x7d') :
    Even (.sign c :: ls) := by
  intro d
  rw [depth?, depthAfter, if_neg hopen, if_neg hclose, h d]

theorem Even.braces {ls : List Lexeme} (h : ∀ d, depth? (d + 1) ls = some (d + 1)) :
    Even (.sign '\x7b' :: ls ++ [.sign '\x7d']) := by
  intro d
  rw [depth?_append, show depth? d (.sign '\x7b' :: ls) = some (d + 1) from h d]
  rfl

theorem even_nil : Even [] :=
  fun _ => rfl

theorem Even.commas {parts : List (List Lexeme)} (h : ∀ part ∈ parts, Even part) : Even (commas parts) := by
  induction parts with
  | nil => exact even_nil
  | cons part parts ih =>
    rw [List.forall_mem_cons] at h
    cases parts with
    | nil => simpa [Outline.commas] using h.1
    | cons part' parts =>
      rw [Outline.commas, List.intercalate_cons_cons, List.append_assoc]
      exact h.1.append ((ih h.2).sign (by decide) (by decide))

theorem Even.block {parts : List (List Lexeme)} (h : ∀ part ∈ parts, Even part) : Even (block parts) := by
  apply Even.braces
  intro d
  induction parts with
  | nil => rfl
  | cons part parts ih =>
    rw [List.forall_mem_cons] at h
    rw [List.flatMap_cons, List.append_assoc, depth?_append, h.1 (d + 1), Option.bind_some]
    exact ih h.2

theorem TypeTerm.even (t : TypeTerm) : Even t.spelling := by
  induction t with
  | name w => exact even_nil.word w
  | pointer t ih => exact ih.sign (by decide) (by decide)
  | slice t ih => exact (ih.sign (by decide) (by decide)).sign (by decide) (by decide)
  | anything =>
    have hbraces : Even (.sign '\x7b' :: [] ++ [.sign '\x7d']) := Even.braces fun _ => rfl
    exact hbraces.word _

theorem Parameter.even (p : Parameter) : Even p.spelling :=
  p.type.even.word p.name

theorem Even.enclosed {parts : List (List Lexeme)} (h : ∀ part ∈ parts, Even part) : Even (enclosed '(' ')' parts) :=
  ((Even.commas h).sign (by decide) (by decide)).append (even_nil.sign (by decide) (by decide))

theorem Signature.even (s : Signature) : Even s.spelling := by
  have hparameters : Even (Outline.enclosed '(' ')' (s.parameters.map Parameter.spelling)) :=
    Even.enclosed (by simp [Parameter.even])
  have hresults : Even (resultsSpelling s.results) := by
    unfold resultsSpelling
    split
    · exact even_nil
    · exact TypeTerm.even _
    · exact Even.enclosed (by simp [TypeTerm.even])
  exact (hparameters.append hresults).word s.name

theorem Answer.even (a : Answer) : Even a.spelling := by
  cases a with
  | record type items =>
    have hitems : Even (Outline.commas (items.map ([.word ·]))) := Even.commas (by simp [Even.word, even_nil])
    exact (((Even.braces fun d => hitems (d + 1)).word type).sign (by decide) (by decide)).word _
  | call operand method arguments =>
    have harguments : Even (Outline.enclosed '(' ')' (arguments.map ([.word ·]))) :=
      Even.enclosed (by simp [Even.word, even_nil])
    exact (((harguments.word method).sign (by decide) (by decide)).word operand).word _

theorem Declaration.even (d : Declaration) : Even d.spelling := by
  cases d with
  | interface name methods =>
    have hmethods : Even (Outline.block (methods.map Signature.spelling)) := Even.block (by simp [Signature.even])
    exact ((hmethods.word _).word name).word _
  | record name fields =>
    have hfields : Even (Outline.block (fields.map Parameter.spelling)) := Even.block (by simp [Parameter.even])
    exact ((hfields.word _).word name).word _
  | function receiver signature answer =>
    have hreceiver : Even (receiverSpelling receiver) := by
      cases receiver with
      | none => exact even_nil
      | some p => exact Even.enclosed (by simp [p.even])
    exact ((hreceiver.append signature.even).append (Even.block (by simp [answer.even]))).word _

/-! ## Reading what is spelled -/

theorem statementsFrom_append {d d' : Nat} {part : List Lexeme} (h : depth? d part = some d')
    (begun rest : List Lexeme) :
    statementsFrom d begun (part ++ rest) = statementsFrom d' (begun ++ part) rest := by
  induction part generalizing d begun with
  | nil =>
    cases h
    rw [List.append_nil]
    rfl
  | cons l part ih =>
    have hsplit : begun ++ l :: part = (begun ++ [l]) ++ part := by simp
    rw [hsplit]
    cases l with
    | word w => exact ih h _
    | sign c => exact ih h _
    | ending =>
      rw [depth?] at h
      split at h
      · cases h
      · next hd =>
        rw [List.cons_append, statementsFrom, if_neg hd]
        exact ih h _

/-- The statements are the parts that their ends mark off. -/
theorem statements_flatMap {parts : List (List Lexeme)} (h : ∀ part ∈ parts, Even part ∧ part ≠ []) :
    statements (parts.flatMap (· ++ [.ending])) = parts := by
  unfold statements
  induction parts with
  | nil => rfl
  | cons part parts ih =>
    rw [List.forall_mem_cons] at h
    rw [List.flatMap_cons, List.append_assoc, statementsFrom_append (h.1.1 0), List.nil_append]
    simp [statementsFrom, h.1.2, ih h.2]

theorem statements_spelled {α : Type} (spell : α → List Lexeme) (heven : ∀ a, Even (spell a))
    (hne : ∀ a, spell a ≠ []) (parts : List α) :
    statements ((parts.map spell).flatMap (· ++ [.ending])) = parts.map spell := by
  apply statements_flatMap
  intro part hpart
  obtain ⟨a, -, rfl⟩ := List.mem_map.1 hpart
  exact ⟨heven a, hne a⟩

/-- The base of a type is a name. -/
def TypeTerm.Named : TypeTerm → Prop
  | .name w => isName w = true
  | .pointer t => t.Named
  | .slice t => t.Named
  | .anything => True

/-- All words of a parameter are names. -/
def Parameter.Named (p : Parameter) : Prop :=
  isName p.name = true ∧ p.type.Named

/-- All words of a signature are names. -/
def Signature.Named (s : Signature) : Prop :=
  isName s.name = true ∧ (∀ p ∈ s.parameters, p.Named) ∧ ∀ t ∈ s.results, t.Named

/-- All words of an answer are names. -/
def Answer.Named : Answer → Prop
  | .record type items => isName type = true ∧ ∀ item ∈ items, isName item = true
  | .call operand method arguments =>
    isName operand = true ∧ isName method = true ∧ ∀ argument ∈ arguments, isName argument = true

/-- All words of a declaration are names. -/
def Declaration.Named : Declaration → Prop
  | .interface name methods => isName name = true ∧ ∀ m ∈ methods, m.Named
  | .record name fields => isName name = true ∧ ∀ f ∈ fields, f.Named
  | .function receiver signature answer => (∀ p ∈ receiver, p.Named) ∧ signature.Named ∧ answer.Named

theorem name?_word {w : String} (h : isName w = true) : name? (.word w) = some w := by
  simp [name?, h]

theorem ne_keyword {w : String} (h : isName w = true) {k : String} (hk : k ∈ keywords) : w ≠ k := by
  rintro rfl
  exact (isName_iff.1 h).2 hk

theorem typeAhead?_spelling {t : TypeTerm} (h : t.Named) (rest : List Lexeme) :
    typeAhead? (t.spelling ++ rest) = some (t, rest) := by
  induction t with
  | name w =>
    have hne : w ≠ "interface" := ne_keyword h (by decide)
    simp only [TypeTerm.spelling, List.singleton_append]
    rw [typeAhead?, name?_word h]
    · rfl
    all_goals simp [hne]
  | pointer t ih => simp [TypeTerm.spelling, typeAhead?, ih h]
  | slice t ih => simp [TypeTerm.spelling, typeAhead?, ih h]
  | anything => rfl

theorem type?_spelling {t : TypeTerm} (h : t.Named) : type? t.spelling = some t := by
  have := typeAhead?_spelling h []
  rw [List.append_nil] at this
  simp [type?, this]

theorem parameter?_spelling {p : Parameter} (h : p.Named) : parameter? p.spelling = some p := by
  simp [Parameter.spelling, parameter?, name?_word h.1, type?_spelling h.2]

theorem argument?_word {w : String} (h : isName w = true) : argument? [.word w] = some w := by
  rw [argument?, name?_word h]

theorem mapM_map_of {α β : Type} {f : β → Option α} {g : α → β} {xs : List α} (h : ∀ x ∈ xs, f (g x) = some x) :
    (xs.map g).mapM f = some xs := by
  induction xs with
  | nil => rfl
  | cons x xs ih =>
    rw [List.forall_mem_cons] at h
    simp [List.mapM_cons, h.1, ih h.2]

/-- The parts between commas are read, unless one is empty or has a comma in it. -/
theorem listed_commas {parts : List (List Lexeme)} (h : ∀ part ∈ parts, part ≠ [] ∧ .sign ',' ∉ part) :
    listed (commas parts) = parts := by
  cases parts with
  | nil => rfl
  | cons part parts =>
    have hne : commas (part :: parts) ≠ [] := by
      have := (h part (List.mem_cons_self ..)).1
      cases parts <;> simp [commas, List.intercalate_cons_cons, this]
    rw [listed, if_neg hne, commas, List.splitOn_intercalate _ (fun part hpart => (h part hpart).2) (by simp)]

theorem not_mem_commas {c : Char} (hc : c ≠ ',') {parts : List (List Lexeme)} (h : ∀ part ∈ parts, .sign c ∉ part) :
    .sign c ∉ commas parts := by
  induction parts with
  | nil => simp [commas]
  | cons part parts ih =>
    rw [List.forall_mem_cons] at h
    cases parts with
    | nil => simpa [commas] using h.1
    | cons => simpa [commas, List.intercalate_cons_cons, h.1, hc] using ih h.2

theorem bracketed?_enclosed {parts : List (List Lexeme)} (h : ∀ part ∈ parts, .sign ')' ∉ part) (rest : List Lexeme) :
    bracketed? '(' ')' (enclosed '(' ')' parts ++ rest) = some (commas parts, rest) := by
  have hall : ∀ l ∈ commas parts, decide (l ≠ .sign ')') = true := by
    intro l hl
    simp only [ne_eq, decide_not, Bool.not_eq_true', decide_eq_false_iff_not]
    rintro rfl
    exact not_mem_commas (by decide) h hl
  have hdrop : (commas parts ++ .sign ')' :: rest).dropWhile (· ≠ .sign ')') = .sign ')' :: rest := by
    rw [List.dropWhile_append_of_pos hall]
    simp
  have htake : (commas parts ++ .sign ')' :: rest).takeWhile (· ≠ .sign ')') = commas parts := by
    rw [List.takeWhile_append_of_pos hall]
    simp
  rw [enclosed, List.append_assoc, List.cons_append, List.singleton_append, bracketed?, hdrop, htake]
  simp

theorem within?_enclosed (opening closing : Char) (parts : List (List Lexeme)) :
    within? opening closing (enclosed opening closing parts) = some (commas parts) := by
  simp [within?, enclosed]

theorem within?_block (parts : List (List Lexeme)) :
    within? '\x7b' '\x7d' (block parts) = some (parts.flatMap (· ++ [.ending])) := by
  simp [within?, block]

/-! ## Signatures -/

theorem TypeTerm.not_mem (t : TypeTerm) {c : Char} (h : c ∈ [',', '(', ')']) : .sign c ∉ t.spelling := by
  simp only [List.mem_cons, List.not_mem_nil, or_false] at h
  induction t with
  | name w => simp [spelling]
  | pointer t ih => rcases h with rfl | rfl | rfl <;> simpa [spelling] using ih
  | slice t ih => rcases h with rfl | rfl | rfl <;> simpa [spelling] using ih
  | anything => rcases h with rfl | rfl | rfl <;> simp [spelling]

theorem Parameter.not_mem (p : Parameter) {c : Char} (h : c ∈ [',', '(', ')']) : .sign c ∉ p.spelling := by
  simpa [spelling] using p.type.not_mem h

theorem listed_parameters {ps : List Parameter} (h : ∀ p ∈ ps, p.Named) :
    (listed (commas (ps.map Parameter.spelling))).mapM parameter? = some ps := by
  rw [listed_commas (by simp [Parameter.spelling, TypeTerm.not_mem])]
  exact mapM_map_of fun p hp => parameter?_spelling (h p hp)

theorem TypeTerm.spelling_ne_nil (t : TypeTerm) : t.spelling ≠ [] := by
  cases t <;> simp [spelling]

theorem listed_results {ts : List TypeTerm} (h : ∀ t ∈ ts, t.Named) :
    (listed (commas (ts.map TypeTerm.spelling))).mapM type? = some ts := by
  rw [listed_commas (by simp [TypeTerm.not_mem, TypeTerm.spelling_ne_nil])]
  exact mapM_map_of fun t ht => type?_spelling (h t ht)

theorem listed_arguments {ws : List String} (h : ∀ w ∈ ws, isName w = true) :
    (listed (commas (ws.map ([.word ·])))).mapM argument? = some ws := by
  rw [listed_commas (by simp)]
  exact mapM_map_of fun w hw => argument?_word (h w hw)

theorem results?_typeAhead {l : Lexeme} (hbrace : l ≠ .sign '\x7b') (hparen : l ≠ .sign '(') (rest : List Lexeme) :
    results? (l :: rest) = (typeAhead? (l :: rest)).map fun (t, behind) => ([t], behind) := by
  rw [results?]
  · simp
  · simp [hbrace]
  · simp [hparen]

theorem results?_enclosed {ts : List TypeTerm} (h : ∀ t ∈ ts, t.Named) (body : List Lexeme) :
    results? (enclosed '(' ')' (ts.map TypeTerm.spelling) ++ body) = some (ts, body) := by
  have hno : ∀ part ∈ ts.map TypeTerm.spelling, .sign ')' ∉ part := by simp [TypeTerm.not_mem]
  have hbracketed := bracketed?_enclosed hno body
  rw [enclosed, List.append_assoc, List.cons_append] at hbracketed ⊢
  rw [results?, hbracketed]
  simp [listed_results h]

/-- The results are read up to the end or to the body. -/
theorem results?_spelling {ts : List TypeTerm} (h : ∀ t ∈ ts, t.Named) {body : List Lexeme}
    (hbody : body = [] ∨ ∃ rest, body = .sign '\x7b' :: rest) :
    results? (resultsSpelling ts ++ body) = some (ts, body) := by
  unfold resultsSpelling
  split
  · obtain rfl | ⟨rest, rfl⟩ := hbody <;> rfl
  · next t =>
    have hahead := typeAhead?_spelling (h t (List.mem_singleton_self t)) body
    have hone : results? (t.spelling ++ body) =
        (typeAhead? (t.spelling ++ body)).map fun (t, behind) => ([t], behind) := by
      cases t <;> exact results?_typeAhead (by simp) (by simp) _
    rw [hone, hahead]
    rfl
  · exact results?_enclosed h body

theorem signature?_spelling {s : Signature} (h : s.Named) {body : List Lexeme}
    (hbody : body = [] ∨ ∃ rest, body = .sign '\x7b' :: rest) :
    signature? (s.spelling ++ body) = some (s, body) := by
  obtain ⟨hname, hparameters, hresults⟩ := h
  have hno : ∀ part ∈ s.parameters.map Parameter.spelling, .sign ')' ∉ part := by simp [Parameter.not_mem]
  rw [Signature.spelling, List.append_assoc, List.cons_append, signature?, bracketed?_enclosed hno]
  simp [results?_spelling hresults hbody, name?_word hname, listed_parameters hparameters]

theorem method?_spelling {s : Signature} (h : s.Named) : method? s.spelling = some s := by
  have hread := signature?_spelling h (.inl rfl)
  rw [List.append_nil] at hread
  simp [method?, hread]

theorem receiver?_spelling {receiver : Option Parameter} (h : ∀ p ∈ receiver, p.Named) (s : Signature)
    (body : List Lexeme) :
    receiver? (receiverSpelling receiver ++ (s.spelling ++ body)) = some (receiver, s.spelling ++ body) := by
  cases receiver with
  | none => rfl
  | some p =>
    have hno : ∀ part ∈ [p.spelling], .sign ')' ∉ part := by simp [Parameter.not_mem]
    have hbracketed := bracketed?_enclosed hno (s.spelling ++ body)
    rw [receiverSpelling]
    rw [enclosed, List.append_assoc, List.cons_append] at hbracketed ⊢
    rw [receiver?, hbracketed]
    simp [commas, parameter?_spelling (h p rfl)]

theorem answer?_spelling {a : Answer} (h : a.Named) : answer? a.spelling = some a := by
  cases a with
  | record type items => simp [Answer.spelling, answer?, name?_word h.1, within?_enclosed, listed_arguments h.2]
  | call operand method arguments =>
    rw [Answer.spelling, answer?]
    · simp [name?_word h.1, name?_word h.2.1, within?_enclosed, listed_arguments h.2.2]
    · simp

theorem Parameter.spelling_ne_nil (p : Parameter) : p.spelling ≠ [] :=
  List.cons_ne_nil _ _

theorem Signature.spelling_ne_nil (s : Signature) : s.spelling ≠ [] :=
  List.cons_ne_nil _ _

theorem Answer.spelling_ne_nil (a : Answer) : a.spelling ≠ [] := by
  cases a <;> exact List.cons_ne_nil _ _

/-- A declaration is read from its words and signs. -/
theorem declaration?_spelling {d : Declaration} (h : d.Named) : declaration? d.spelling = some d := by
  cases d with
  | interface name methods =>
    have hmethods := statements_spelled Signature.spelling Signature.even Signature.spelling_ne_nil methods
    simp [Declaration.spelling, declaration?, name?_word h.1, within?_block, hmethods,
      mapM_map_of fun m hm => method?_spelling (h.2 m hm)]
  | record name fields =>
    have hfields := statements_spelled Parameter.spelling Parameter.even Parameter.spelling_ne_nil fields
    simp [Declaration.spelling, declaration?, name?_word h.1, within?_block, hfields,
      mapM_map_of fun f hf => parameter?_spelling (h.2 f hf)]
  | function receiver signature answer =>
    obtain ⟨hreceiver, hsignature, hanswer⟩ := h
    have hanswers := statements_spelled Answer.spelling Answer.even Answer.spelling_ne_nil [answer]
    have hbody : block [answer.spelling] = [] ∨ ∃ rest, block [answer.spelling] = .sign '\x7b' :: rest :=
      .inr ⟨_, rfl⟩
    simp only [List.map_singleton, List.flatMap_singleton] at hanswers
    rw [Declaration.spelling, List.append_assoc, List.cons_append, declaration?, receiver?_spelling hreceiver]
    simp [signature?_spelling hsignature hbody, within?_block, hanswers, answer?_spelling hanswer]

theorem Declaration.spelling_ne_nil (d : Declaration) : d.spelling ≠ [] := by
  cases d <;> exact List.cons_ne_nil _ _

/-- The words and signs of a source with a package and declarations. -/
def spelling (o : Outline) : List Lexeme :=
  ([.word "package", .word o.package] :: o.declarations.map Declaration.spelling).flatMap (· ++ [.ending])

/-- An outline is read from a source with its words and signs. -/
theorem read?_spelling {source : String} {o : Outline} (hsource : Yields .fresh source.toList o.spelling .fresh)
    (hpackage : isName o.package = true) (hnamed : ∀ d ∈ o.declarations, d.Named) : read? source = some o := by
  have hlexemes : lexemes? source = some o.spelling := by
    unfold Yields at hsource
    simp only [lexemes?, hsource]
    rfl
  have hstatements : statements o.spelling =
      [.word "package", .word o.package] :: o.declarations.map Declaration.spelling := by
    apply statements_flatMap
    rw [List.forall_mem_cons]
    refine ⟨⟨(even_nil.word _).word _, List.cons_ne_nil _ _⟩, ?_⟩
    intro part hpart
    obtain ⟨d, -, rfl⟩ := List.mem_map.1 hpart
    exact ⟨d.even, d.spelling_ne_nil⟩
  have hdeclarations : (o.declarations.map Declaration.spelling).mapM declaration? = some o.declarations :=
    mapM_map_of fun d hd => declaration?_spelling (hnamed d hd)
  simp [read?, hlexemes, hstatements, name?_word hpackage, hdeclarations]

end Reckoner.Nodes.Outline
