/-
The words of a package clause. Between them stand comments, some of which reach to the end of their line. The
items of a text come in the order of their lines, and nothing follows such a comment on its line, so a clause
that is laid out from the items names the package and ends there.
-/
import Reckoner.Nodes.Package
import Reckoner.Proofs.Nodes.Outline
import Mathlib.Data.List.TakeWhile

namespace Reckoner.Nodes

/-! ## Comments -/

/-- A comment that reaches to the end of its line. -/
def IsLineRemark (text : List Char) : Prop :=
  ∃ cs, text = '/' :: '/' :: cs ∧ '\n' ∉ cs

/-- A comment that is closed. -/
def IsClosedRemark (text : List Char) : Prop :=
  ∃ body, text = '/' :: '*' :: body ∧ remarkEnd? body = some []

theorem remarkEnd?_cons {c : Char} {rest : List Char} (h : c = '*' → rest.head? ≠ some '/') :
    remarkEnd? (c :: rest) = remarkEnd? rest := by
  rw [remarkEnd?]
  rintro behind rfl rfl
  exact h rfl rfl

/-- A comment is closed where what follows it begins. -/
theorem exists_body {rest behind : List Char} (h : remarkEnd? rest = some behind) :
    ∃ body, rest = body ++ behind ∧ remarkEnd? body = some [] := by
  induction rest with
  | nil => cases h
  | cons c rest ih =>
    by_cases hclose : c = '*' ∧ rest.head? = some '/'
    · obtain ⟨rfl, hhead⟩ := hclose
      obtain ⟨rest, rfl⟩ := List.head?_eq_some_iff.1 hhead
      cases h
      exact ⟨['*', '/'], rfl, rfl⟩
    · rw [not_and] at hclose
      rw [remarkEnd?_cons hclose] at h
      obtain ⟨body, rfl, hbody⟩ := ih h
      refine ⟨c :: body, rfl, ?_⟩
      rw [remarkEnd?_cons, hbody]
      intro hc hhead
      obtain ⟨body, rfl⟩ := List.head?_eq_some_iff.1 hhead
      exact hclose hc rfl

theorem isLineRemark_lineRemark {cs : List Char} (h : '\n' ∉ cs) :
    IsLineRemark (lineRemark ('/' :: '/' :: cs)).toList := by
  have hdrop : ('/' :: '/' :: cs).reverse.dropWhile isPackageBlank =
      cs.reverse.dropWhile isPackageBlank ++ ['/', '/'] := by
    rw [List.reverse_cons, List.reverse_cons, List.append_assoc, List.dropWhile_append]
    split
    · next hnil =>
      rw [List.isEmpty_iff.1 hnil]
      rfl
    · rfl
  refine ⟨(cs.reverse.dropWhile isPackageBlank).reverse, by rw [lineRemark, hdrop]; simp, ?_⟩
  intro hmem
  have := (List.dropWhile_sublist isPackageBlank).subset (List.mem_reverse.1 hmem)
  exact h (List.mem_reverse.1 this)

theorem isClosedRemark_consumed {rest behind : List Char} (h : remarkEnd? rest = some behind) :
    IsClosedRemark (consumed ('/' :: '*' :: rest) behind).toList := by
  obtain ⟨body, rfl, hbody⟩ := exists_body h
  have hlength : ('/' :: '*' :: (body ++ behind)).length - behind.length = ('/' :: '*' :: body).length := by
    simp only [List.length_cons, List.length_append]
    omega
  refine ⟨body, ?_, hbody⟩
  rw [consumed, String.toList_ofList, hlength]
  exact List.take_left

/-! ## Items in order -/

/-- A comment that something can follow from a line on. -/
def RemarkBefore (text : String) (line next : Nat) : Prop :=
  (IsClosedRemark text.toList ∧ line ≤ next) ∨ (IsLineRemark text.toList ∧ line < next)

/-- Items from a line on, in the order of their lines. Nothing follows a comment on a line that it takes. -/
def InOrder : Nat → List (PackageItem × Nat) → Prop
  | _, [] => True
  | least, (.remark text, line) :: rest => least ≤ line ∧ ∃ next, RemarkBefore text line next ∧ InOrder next rest
  | least, (_, line) :: rest => least ≤ line ∧ InOrder line rest

theorem InOrder.mono {least least' : Nat} (hle : least ≤ least') {items : List (PackageItem × Nat)}
    (h : InOrder least' items) : InOrder least items := by
  match items with
  | [] => trivial
  | (.remark _, _) :: _ => exact ⟨Nat.le_trans hle h.1, h.2⟩
  | (.name _, _) :: _ => exact ⟨Nat.le_trans hle h.1, h.2⟩
  | (.semicolon, _) :: _ => exact ⟨Nat.le_trans hle h.1, h.2⟩

/-- Items behind the end of a line are on later lines. -/
theorem inOrder_packageItems? {n line : Nat} {cs : List Char} {items : List (PackageItem × Nat)}
    (h : packageItems? n line cs = some items) :
    InOrder (if cs.head? = some '\n' then line + 1 else line) items := by
  have hmono : ∀ {line : Nat} {cs : List Char} {items : List (PackageItem × Nat)},
      InOrder (if cs.head? = some '\n' then line + 1 else line) items → InOrder line items :=
    fun h => h.mono (by split <;> omega)
  fun_induction packageItems? n line cs generalizing items with
  | case1 =>
    cases h
    trivial
  | case2 => cases h
  | case3 =>
    cases h
    trivial
  | case4 n line rest _ ih =>
    obtain ⟨items, hitems, rfl⟩ := Option.map_eq_some_iff.1 h
    have hremark : IsLineRemark (lineRemark (('/' :: '/' :: rest).takeWhile (· != '\n'))).toList := by
      refine isLineRemark_lineRemark ?_
      intro hmem
      simpa using List.mem_takeWhile_imp hmem
    refine ⟨Nat.le_refl line, line + 1, .inr ⟨hremark, Nat.lt_succ_self line⟩, ?_⟩
    have hrest := ih hitems
    -- nothing follows the comment but the end of its line
    cases hbehind : ('/' :: '/' :: rest).dropWhile (· != '\n') with
    | nil =>
      rw [hbehind] at hitems
      cases n <;> (cases hitems; trivial)
    | cons c behind =>
      have hc : c = '\n' := by
        have := List.head?_dropWhile_not (· != '\n') ('/' :: '/' :: rest)
        rw [hbehind] at this
        simpa using this
      rwa [hbehind, if_pos (by rw [hc]; rfl)] at hrest
  | case5 => cases h
  | case6 n line rest behind hbehind _ text =>
    rename_i ih
    obtain ⟨items, hitems, rfl⟩ := Option.map_eq_some_iff.1 h
    exact ⟨Nat.le_refl line, _, .inl ⟨isClosedRemark_consumed hbehind, Nat.le_add_right line _⟩, hmono (ih hitems)⟩
  | case7 n line rest _ ih =>
    obtain ⟨items, hitems, rfl⟩ := Option.map_eq_some_iff.1 h
    exact ⟨Nat.le_refl line, hmono (ih hitems)⟩
  | case8 n line rest _ _ _ _ ih =>
    exact hmono (ih h)
  | case9 n line c rest _ _ _ hc _ _ ih =>
    rw [if_neg (by simpa using hc)]
    exact hmono (ih h)
  | case10 n line c rest _ _ _ hc _ _ _ ih =>
    obtain ⟨items, hitems, rfl⟩ := Option.map_eq_some_iff.1 h
    rw [if_neg (by simpa using hc)]
    exact ⟨Nat.le_refl line, hmono (ih hitems)⟩
  | case11 => cases h

/-- Comments with their lines as items. -/
def remarkItems (remarks : List (String × Nat)) : List (PackageItem × Nat) :=
  remarks.map fun r => (.remark r.1, r.2)

theorem eq_leadingRemarks (items : List (PackageItem × Nat)) :
    items = remarkItems (leadingRemarks items).1 ++ (leadingRemarks items).2 := by
  fun_induction leadingRemarks items with
  | case1 text line rest remarks behind h ih =>
    rw [h] at ih
    conv_lhs => rw [ih]
    rfl
  | case2 items h => rfl

/-- Without a semicolon the other items are still in order. -/
theorem InOrder.drop_semicolon {least line : Nat} {front behind : List (PackageItem × Nat)}
    (h : InOrder least (front ++ (.semicolon, line) :: behind)) : InOrder least (front ++ behind) := by
  induction front generalizing least with
  | nil => exact h.2.mono h.1
  | cons item front ih =>
    match item with
    | (.remark text, line) =>
      obtain ⟨hle, next, hbefore, hrest⟩ := h
      exact ⟨hle, next, hbefore, ih hrest⟩
    | (.name name, line) => exact ⟨h.1, ih h.2⟩
    | (.semicolon, line) => exact ⟨h.1, ih h.2⟩

/-- A clause is laid out from a name and the comments before and behind it. -/
theorem packageClause?_items {s clause : String} (h : packageClause? s = some clause) :
    ∃ before name line remarks, isName name = true ∧
      InOrder 0 (remarkItems before ++ (.name name, line) :: remarkItems remarks) ∧
      clause = "package" ++ (if before.isEmpty then " " ++ name else follow 0 (before ++ [(name, line)])) ++
        trailing line remarks := by
  rw [packageClause?, Option.bind_eq_bind, Option.bind_eq_some_iff] at h
  obtain ⟨items, hitems, h⟩ := h
  have horder : InOrder 0 items := (inOrder_packageItems? hitems).mono (Nat.zero_le _)
  rw [eq_leadingRemarks items] at horder
  generalize leadingRemarks items = leading at h horder
  obtain ⟨before, rest⟩ := leading
  dsimp only at h horder
  split at h
  · next name line behind =>
    unfold guard at h
    by_cases hname : isName name = true
    · simp only [hname, if_true, Option.pure_def, Option.bind_eq_bind, Option.bind_some] at h
      rw [eq_leadingRemarks behind] at horder
      generalize leadingRemarks behind = leading at h horder
      obtain ⟨inner, rest⟩ := leading
      dsimp only at h horder
      split at h
      · cases h
        exact ⟨before, name, line, inner, hname, by simpa using horder, rfl⟩
      · next l last =>
        rw [eq_leadingRemarks last] at horder
        generalize leadingRemarks last = leading at h horder
        obtain ⟨outer, rest⟩ := leading
        by_cases hl : l = line
        · cases rest with
          | nil =>
            simp only [hl, if_true, List.isEmpty_nil, Option.bind_some, Option.some.injEq] at h
            have hitems : InOrder 0 ((remarkItems before ++ (.name name, line) :: remarkItems inner) ++
                (.semicolon, l) :: remarkItems outer) := by
              simpa using horder
            exact ⟨before, name, line, inner ++ outer, hname, by simpa [remarkItems] using hitems.drop_semicolon,
              h.symm⟩
          | cons item rest =>
            rw [if_pos hl] at h
            cases h
        · rw [if_neg hl] at h
          cases h
      · cases h
    · rw [if_neg hname] at h
      cases h
  · cases h

theorem packageItems?_nil (n line : Nat) : packageItems? n line [] = some [] := by
  cases n <;> rfl

/-- A name is the only item of its text. -/
theorem packageItems?_name {s : String} (h : isName s = true) :
    packageItems? s.length 0 s.toList = some [(.name s, 0)] := by
  obtain ⟨⟨c, rest, hs, hc, -⟩, -⟩ := isName_iff.1 h
  have hall := (isName_chars h).2
  have htake : s.toList.takeWhile isNameChar = s.toList := List.takeWhile_eq_self_iff.2 hall
  have hdrop : s.toList.dropWhile isNameChar = [] := List.dropWhile_eq_nil_iff.2 hall
  have hblank : isPackageBlank c = false := by
    cases hblank : isPackageBlank c with
    | false => rfl
    | true =>
      simp only [isPackageBlank, Bool.or_eq_true, beq_iff_eq] at hblank
      rcases hblank with ((rfl | rfl) | rfl) | rfl <;> exact absurd hc (by decide)
  have hnewline : c ≠ '\n' := by
    rintro rfl
    cases hblank
  have hlength : s.length = rest.length + 1 := by rw [← String.length_toList, hs, List.length_cons]
  rw [hs] at htake hdrop
  rw [hlength, hs]
  unfold packageItems?
  split
  · next h => cases h
  · next h => exact absurd hc (by rw [(List.cons.inj h).1]; decide)
  · next h => exact absurd hc (by rw [(List.cons.inj h).1]; decide)
  · next h => exact absurd hc (by rw [(List.cons.inj h).1]; decide)
  · next h =>
    obtain ⟨rfl, rfl⟩ := List.cons.inj h
    rw [if_neg hnewline, hblank, if_neg Bool.false_ne_true, if_pos hc, htake, hdrop, packageItems?_nil, ← hs,
      String.ofList_toList]
    rfl

theorem packageClause?_name {s : String} (h : isName s = true) : packageClause? s = some ("package " ++ s) := by
  unfold packageClause? guard
  simp [packageItems?_name h, leadingRemarks, h, trailing, ← String.append_assoc]

namespace Outline

/-! ## Passing over comments -/

/-- Characters that complete nothing but the statement, if they end it. -/
def Passes (s : State) (cs : List Char) (s' : State) : Prop :=
  (s'.ends = true → s.ends = true) ∧ Yields s cs (if s.ends && !s'.ends then [.ending] else []) s'

theorem Passes.append {s s' s'' : State} {cs ds : List Char} (h : Passes s cs s') (h' : Passes s' ds s'') :
    Passes s (cs ++ ds) s'' := by
  refine ⟨fun hends => h.1 (h'.1 hends), ?_⟩
  have hboth := h.2.append h'.2
  have hle := h.1
  have hle' := h'.1
  cases hs : s.ends <;> cases hs' : s'.ends <;> cases hs'' : s''.ends <;> simp_all

theorem passes_closed {body : List Char} (h : remarkEnd? body = some []) (starred : Bool)
    (hstarred : starred = true → body.head? ≠ some '/') (broken ends : Bool) :
    ∃ ends', Passes ⟨.remark starred broken, ends⟩ body ⟨.plain, ends'⟩ := by
  induction body generalizing starred broken with
  | nil => cases h
  | cons c body ih =>
    by_cases hclose : c = '*' ∧ body.head? = some '/'
    · obtain ⟨rfl, hhead⟩ := hclose
      obtain ⟨rest, rfl⟩ := List.head?_eq_some_iff.1 hhead
      cases h
      refine ⟨ends && !broken, ?_⟩
      cases starred <;> cases broken <;> cases ends <;> exact ⟨by decide, rfl⟩
    · rw [not_and] at hclose
      rw [remarkEnd?_cons hclose] at h
      obtain ⟨ends', hle, hbody⟩ := ih h (c = '*') (by simpa using hclose) (broken || c = '\n')
      have hslash : ¬(starred = true ∧ c = '/') := by
        rintro ⟨hs, rfl⟩
        exact hstarred hs rfl
      refine ⟨ends', hle, ?_⟩
      unfold Yields at *
      simp only [run, step, if_neg hslash, hbody, List.nil_append]

/-- Behind a comment something can follow in this mode, from a line on. -/
def Ready (m : Mode) (last next : Nat) : Prop :=
  (m = .plain ∧ last ≤ next) ∨ (m = .lineRemark ∧ last < next)

theorem Ready.mono {m : Mode} {last next next' : Nat} (h : Ready m last next) (hle : next ≤ next') :
    Ready m last next' := by
  rcases h with ⟨hm, hlast⟩ | ⟨hm, hlast⟩
  · exact .inl ⟨hm, Nat.le_trans hlast hle⟩
  · exact .inr ⟨hm, Nat.lt_of_lt_of_le hlast hle⟩

theorem passes_remark {text : String} {line next : Nat} (h : RemarkBefore text line next) (ends : Bool) :
    ∃ m ends', Passes ⟨.plain, ends⟩ text.toList ⟨m, ends'⟩ ∧ Ready m line next := by
  rcases h with ⟨⟨body, htext, hbody⟩, hle⟩ | ⟨⟨cs, htext, hcs⟩, hlt⟩
  · obtain ⟨ends', hclosed⟩ := passes_closed hbody false (by simp) false ends
    have hopen : Passes ⟨.plain, ends⟩ ['/', '*'] ⟨.remark false false, ends⟩ := by
      cases ends <;> exact ⟨by decide, rfl⟩
    rw [htext]
    exact ⟨.plain, ends', hopen.append hclosed, .inl ⟨rfl, hle⟩⟩
  · have hopen : Passes ⟨.plain, ends⟩ ['/', '/'] ⟨.lineRemark, ends⟩ := by
      cases ends <;> exact ⟨by decide, rfl⟩
    have hrest : Passes ⟨.lineRemark, ends⟩ cs ⟨.lineRemark, ends⟩ :=
      ⟨id, by simpa using yields_lineRemark hcs ends⟩
    rw [htext]
    exact ⟨.lineRemark, ends, hopen.append hrest, .inr ⟨rfl, hlt⟩⟩

/-- What stands before a text: a blank, or one or two ends of lines. -/
theorem gap_cases (last line n : Nat) (hn : line ≠ last → n ≠ 0) :
    (line = last ∧ (if line = last then " " else lineBreaks n).toList = [' ']) ∨
      (line ≠ last ∧ ∃ more, (if line = last then " " else lineBreaks n).toList = '\n' :: more ∧
        (more = [] ∨ more = ['\n'])) := by
  by_cases h : line = last
  · exact .inl ⟨h, by rw [if_pos h]; rfl⟩
  · refine .inr ⟨h, ?_⟩
    rw [if_neg h, lineBreaks, String.toList_ofList]
    match n, hn h with
    | 1, _ => exact ⟨[], rfl, .inl rfl⟩
    | n + 2, _ => exact ⟨['\n'], by rw [Nat.min_eq_right (by omega)]; rfl, .inr rfl⟩

theorem passes_gap {m : Mode} {last line : Nat} (h : Ready m last line) {n : Nat} (hn : line ≠ last → n ≠ 0)
    (ends : Bool) :
    ∃ ends', Passes ⟨m, ends⟩ (if line = last then " " else lineBreaks n).toList ⟨.plain, ends'⟩ := by
  rcases gap_cases last line n hn with ⟨hline, hgap⟩ | ⟨hline, more, hgap, hmore⟩ <;> rw [hgap]
  · rcases h with ⟨rfl, -⟩ | ⟨-, hlt⟩
    · refine ⟨ends, ?_⟩
      cases ends <;> exact ⟨by decide, rfl⟩
    · omega
  · refine ⟨false, ?_⟩
    rcases h with ⟨rfl, -⟩ | ⟨rfl, -⟩ <;> rcases hmore with rfl | rfl <;> cases ends <;> exact ⟨by decide, rfl⟩

/-- Comments behind one another, each on its line. -/
theorem passes_follow {m : Mode} {last least : Nat} (hready : Ready m last least) {remarks : List (String × Nat)}
    {behind : List (PackageItem × Nat)} (h : InOrder least (remarkItems remarks ++ behind))
    (texts : List (String × Nat)) (ends : Bool) :
    ∃ cs m' last' least' ends', (follow last (remarks ++ texts)).toList = cs ++ (follow last' texts).toList ∧
      Passes ⟨m, ends⟩ cs ⟨m', ends'⟩ ∧ Ready m' last' least' ∧ InOrder least' behind := by
  induction remarks generalizing m last least ends with
  | nil => exact ⟨[], m, last, least, ends, rfl, ⟨id, by cases ends <;> rfl⟩, hready, h⟩
  | cons r remarks ih =>
    obtain ⟨text, line⟩ := r
    obtain ⟨hle, next, hbefore, hrest⟩ : least ≤ line ∧ ∃ next, RemarkBefore text line next ∧
      InOrder next (remarkItems remarks ++ behind) := h
    obtain ⟨ends₁, hgap⟩ := passes_gap (hready.mono hle) (n := line - last)
      (by rcases hready with ⟨-, hlast⟩ | ⟨-, hlast⟩ <;> omega) ends
    obtain ⟨m₁, ends₂, htext, hready₁⟩ := passes_remark hbefore ends₁
    obtain ⟨cs, m', last', least', ends', hcs, hpasses, hready', hbehind⟩ := ih hready₁ hrest ends₂
    refine ⟨_, m', last', least', ends', ?_, (hgap.append htext).append hpasses, hready', hbehind⟩
    rw [List.cons_append, follow, String.toList_append, String.toList_append, hcs]
    simp only [List.append_assoc]

/-- A word is complete before a character that cannot stand in it. -/
theorem yields_complete {c : Char} (hc : isNameChar c = false) (begun : List Char) {cs : List Char}
    {ls : List Lexeme} {s' : State}
    (h : Yields ⟨.plain, endsStatement (String.ofList begun)⟩ (c :: cs) ls s') (ends : Bool) :
    Yields ⟨.word begun, ends⟩ (c :: cs) (.word (String.ofList begun) :: ls) s' := by
  unfold Yields at *
  simp only [run, step, hc, Bool.false_eq_true, if_false, List.cons_append] at h ⊢
  rw [Prod.mk.injEq] at h ⊢
  exact ⟨by rw [h.1], h.2⟩

/-- Comments behind a name, up to the end of their last line. -/
theorem passes_trailing {line : Nat} {remarks : List (String × Nat)} (h : InOrder line (remarkItems remarks)) :
    Passes ⟨.plain, true⟩ ((trailing line remarks).toList ++ ['\n']) .fresh := by
  have hend : ∀ m last next ends, Ready m last next → Passes ⟨m, ends⟩ ['\n'] .fresh := by
    rintro m last next ends (⟨rfl, -⟩ | ⟨rfl, -⟩) <;> cases ends <;> exact ⟨by decide, rfl⟩
  cases remarks with
  | nil => exact hend .plain line line true (.inl ⟨rfl, Nat.le_refl line⟩)
  | cons r remarks =>
    obtain ⟨text, line'⟩ := r
    obtain ⟨hle, next, hbefore, hrest⟩ : line ≤ line' ∧ ∃ next, RemarkBefore text line' next ∧
      InOrder next (remarkItems remarks) := h
    rw [← List.append_nil (remarkItems remarks)] at hrest
    obtain ⟨ends₁, hgap⟩ := passes_gap (.inl ⟨rfl, hle⟩) (n := line' - line + 1) (by omega) true
    obtain ⟨m₁, ends₂, htext, hready₁⟩ := passes_remark hbefore ends₁
    obtain ⟨cs, m', last', least', ends', hcs, hpasses, hready', -⟩ := passes_follow hready₁ hrest [] ends₂
    rw [List.append_nil, follow, String.toList_empty, List.append_nil] at hcs
    rw [trailing, String.toList_append, String.toList_append, hcs]
    exact ((hgap.append htext).append hpasses).append (hend m' last' least' ends' hready')

/-- A name behind comments. -/
theorem yields_follow_name {before : List (String × Nat)} {name : String} {line : Nat}
    {behind : List (PackageItem × Nat)} (hname : isName name = true)
    (h : InOrder 0 (remarkItems before ++ (.name name, line) :: behind)) :
    Yields .fresh (follow 0 (before ++ [(name, line)])).toList [] ⟨.word name.toList, false⟩ := by
  obtain ⟨cs, m, last, least, ends, hcs, hpasses, hready, hle, -⟩ :=
    passes_follow (m := .plain) (.inl ⟨rfl, Nat.le_refl 0⟩) h [(name, line)] false
  obtain ⟨ends', hgap⟩ := passes_gap (hready.mono hle) (n := line - last)
    (by rcases hready with ⟨-, hlast⟩ | ⟨-, hlast⟩ <;> omega) ends
  have hboth := hpasses.append hgap
  obtain rfl : ends' = false := by
    cases ends' with
    | false => rfl
    | true => exact (hboth.1 rfl).symm
  have hword := yields_name hname false
  rw [hcs, follow, follow]
  simpa [State.fresh, List.append_assoc] using hboth.2.append hword

theorem gap_head (last line n : Nat) (hn : line ≠ last → n ≠ 0) :
    ∃ c cs, (if line = last then " " else lineBreaks n).toList = c :: cs ∧ isNameChar c = false := by
  rcases gap_cases last line n hn with ⟨-, hgap⟩ | ⟨-, more, hgap, -⟩
  · exact ⟨' ', [], hgap, rfl⟩
  · exact ⟨'\n', more, hgap, rfl⟩

theorem follow_head (texts : List (String × Nat)) (hne : texts ≠ []) :
    ∃ c cs, (follow 0 texts).toList = c :: cs ∧ isNameChar c = false := by
  obtain ⟨⟨text, line⟩, texts, rfl⟩ := List.exists_cons_of_ne_nil hne
  obtain ⟨c, cs, hgap, hc⟩ := gap_head 0 line (line - 0) (by omega)
  rw [follow, String.toList_append, String.toList_append, hgap]
  exact ⟨c, _, rfl, hc⟩

theorem trailing_head (line : Nat) (remarks : List (String × Nat)) :
    ∃ c cs, (trailing line remarks).toList ++ ['\n'] = c :: cs ∧ isNameChar c = false := by
  match remarks with
  | [] => exact ⟨'\n', [], rfl, rfl⟩
  | (text, line') :: remarks =>
    obtain ⟨c, cs, hgap, hc⟩ := gap_head line line' (line' - line + 1) (by omega)
    rw [trailing, String.toList_append, String.toList_append, hgap]
    exact ⟨c, _, rfl, hc⟩

theorem endsStatement_of_isName {w : String} (h : isName w = true) : endsStatement w = true := by
  simp [endsStatement, (isName_iff.1 h).2]

/-- A name with the comments behind it is a statement. -/
theorem yields_name_trailing {name : String} {line : Nat} {remarks : List (String × Nat)} (hname : isName name = true)
    (h : InOrder line (remarkItems remarks)) :
    Yields ⟨.word name.toList, false⟩ ((trailing line remarks).toList ++ ['\n']) [.word name, .ending] .fresh := by
  obtain ⟨c, cs, htrailing, hc⟩ := trailing_head line remarks
  have hpasses := (passes_trailing h).2
  rw [htrailing] at hpasses ⊢
  have hcomplete := yields_complete hc name.toList
    (by rwa [String.ofList_toList, endsStatement_of_isName hname]) false
  rwa [String.ofList_toList] at hcomplete

theorem yields_clause_head {before : List (String × Nat)} {name : String} {line : Nat}
    {behind : List (PackageItem × Nat)} (hname : isName name = true)
    (h : InOrder 0 (remarkItems before ++ (.name name, line) :: behind)) :
    Yields ⟨.word "package".toList, false⟩
      (if before.isEmpty then " " ++ name else follow 0 (before ++ [(name, line)])).toList [.word "package"]
      ⟨.word name.toList, false⟩ := by
  split
  · have hword := yields_name hname false
    rw [String.toList_append]
    exact Yields.append rfl hword
  · obtain ⟨c, cs, hfollow, hc⟩ := follow_head (before ++ [(name, line)]) (by simp)
    have hyields := yields_follow_name hname h
    rw [hfollow] at hyields ⊢
    exact yields_complete hc "package".toList hyields false

theorem yields_clause (before remarks : List (String × Nat)) {name : String} (line : Nat) (hname : isName name = true)
    (h : InOrder 0 (remarkItems before ++ (.name name, line) :: remarkItems remarks)) :
    Yields .fresh
      (("package" ++ (if before.isEmpty then " " ++ name else follow 0 (before ++ [(name, line)])) ++
        trailing line remarks).toList ++ ['\n']) [.word "package", .word name, .ending] .fresh := by
  have htrailing : InOrder line (remarkItems remarks) := by
    obtain ⟨-, -, -, least, -, -, -, -, -, hbehind⟩ :=
      passes_follow (m := .plain) (.inl ⟨rfl, Nat.le_refl 0⟩) h [] false
    exact hbehind
  have hpackage : Yields .fresh "package".toList [] ⟨.word "package".toList, false⟩ := rfl
  simpa using (hpackage.append (yields_clause_head hname h)).append (yields_name_trailing hname htrailing)

/-- A package clause names the package. -/
theorem yields_packageClause? {s clause : String} (h : packageClause? s = some clause) :
    ∃ name, isName name = true ∧ (isName s = true → name = s) ∧
      Yields .fresh (clause.toList ++ ['\n']) [.word "package", .word name, .ending] .fresh := by
  by_cases hs : isName s = true
  · rw [packageClause?_name hs] at h
    cases h
    have hyields := yields_clause [] [] 0 hs ⟨Nat.le_refl 0, trivial⟩
    exact ⟨s, hs, fun _ => rfl, by simpa [trailing, ← String.append_assoc] using hyields⟩
  · obtain ⟨before, name, line, remarks, hname, horder, rfl⟩ := packageClause?_items h
    exact ⟨name, hname, fun hs' => absurd hs' hs, yields_clause before remarks line hname horder⟩

end Outline

end Reckoner.Nodes
