/-
What two sinks receive from a family of loggers. A record passes through handlers: one that adds the id of
the request, one that hands the record on to each sink whose threshold lets it through, and the sinks.
Whatever loggers are derived, however the level is set in between, and whichever of them records, the main
sink and the file receive the same records in the same order; these are the ones at or above the level that
was last set, and the id stands behind the attributes of a record, within the groups that are open. What a
sink received is said in terms of what is read back from its text.
-/
import Reckoner.Log.Journal
import Reckoner.Proofs.LogLines

namespace Reckoner.Log

/-! ## Attributes -/

mutual

/-- The attributes that a value stands for under a key, each with the names of the groups around it. A group
without a key is none, and an attribute without key and value is left out. -/
def AttrValue.placed (groups : List String) (key : String) : AttrValue → List (List String × Leaf)
  | .scalar value => if (Leaf.mk key value).isEmpty then [] else [(groups, ⟨key, value⟩)]
  | .group members => placed (if key = "" then groups else groups ++ [key]) members

/-- The attributes that stand in the same groups. -/
def placed (groups : List String) : List (String × AttrValue) → List (List String × Leaf)
  | [] => []
  | (key, value) :: rest => value.placed groups key ++ placed groups rest

end

/-- The groups that some derivations open. A group without a name is none. -/
def openGroups : List Scope → List String
  | [] => []
  | .attrs _ :: chain => openGroups chain
  | .group name :: chain => if name = "" then openGroups chain else name :: openGroups chain

/-- The attributes that some derivations add, each in the groups that were open by then. -/
def scopeAttributes (groups : List String) : List Scope → List (List String × Leaf)
  | [] => []
  | .attrs attrs :: chain => placed groups attrs ++ scopeAttributes groups chain
  | .group name :: chain => scopeAttributes (if name = "" then groups else groups ++ [name]) chain

theorem attributesOf_append (groups : List String) (fields more : List Field) :
    attributesOf groups (fields ++ more) = attributesOf groups fields ++ attributesOf groups more := by
  induction fields with
  | nil => rfl
  | cons f fields ih => simp only [List.cons_append, attributesOf, ih, List.append_assoc]

theorem attributesOf_grouped (groups : List String) (name : String) (fields : List Field) :
    attributesOf groups (grouped name fields) =
      attributesOf (if name = "" then groups else groups ++ [name]) fields := by
  unfold grouped
  split_ifs
  · rfl
  · cases fields with
    | nil => rfl
    | cons first rest => simp only [attributesOf, Field.attributes, List.append_nil]

mutual

theorem attributesOf_fields (groups : List String) (key : String) : (v : AttrValue) →
    attributesOf groups (v.fields key) = v.placed groups key
  | .scalar value => by
    rw [AttrValue.fields, AttrValue.placed]
    split_ifs <;> rfl
  | .group members => by
    rw [AttrValue.fields, AttrValue.placed, attributesOf_grouped, attributesOf_fieldsOf]

theorem attributesOf_fieldsOf (groups : List String) : (attrs : List (String × AttrValue)) →
    attributesOf groups (fieldsOf attrs) = placed groups attrs
  | [] => rfl
  | (key, value) :: rest => by
    rw [fieldsOf, placed, attributesOf_append, attributesOf_fields groups key value, attributesOf_fieldsOf groups rest]

end

theorem placed_append (groups : List String) (attrs more : List Attr) :
    placed groups (attrs ++ more) = placed groups attrs ++ placed groups more := by
  induction attrs with
  | nil => rfl
  | cons a attrs ih => simp only [List.cons_append, placed, ih, List.append_assoc]

theorem placed_requestAttr (groups : List String) (id : Option String) :
    placed groups (id.map Logger.requestAttr).toList =
      (id.map fun i => (groups, Leaf.mk "request_id" (.text i))).toList := by
  cases id <;> rfl

/-- The fields of a record hold the attributes of the derivations, and behind them its own ones in all groups
that are open. That a group without fields is left out changes nothing. -/
theorem attributesOf_nest (scopes : List Scope) (groups : List String) (attrs : List Attr) :
    attributesOf groups (Logger.nest scopes attrs) =
      scopeAttributes groups scopes ++ placed (groups ++ openGroups scopes) attrs := by
  induction scopes generalizing groups with
  | nil => simp [Logger.nest, attributesOf_fieldsOf, scopeAttributes, openGroups]
  | cons scope scopes ih =>
    cases scope with
    | attrs outer =>
      simp only [Logger.nest, attributesOf_append, attributesOf_fieldsOf, ih, scopeAttributes, openGroups,
        List.append_assoc]
    | group name =>
      rw [Logger.nest, attributesOf_grouped, ih, scopeAttributes, openGroups]
      split_ifs <;> simp

/-! ## Derivations -/

/-- A scope that is not empty. -/
def Scope.Told : Scope → Prop
  | .attrs given => given ≠ []
  | .group name => name ≠ ""

instance (s : Scope) : Decidable s.Told :=
  match s with
  | .attrs given => inferInstanceAs (Decidable (given ≠ []))
  | .group name => inferInstanceAs (Decidable (name ≠ ""))

@[simp] theorem Scope.told_attrs (given : List Attr) : (Scope.attrs given).Told ↔ given ≠ [] := .rfl

@[simp] theorem Scope.told_group (name : String) : (Scope.group name).Told ↔ name ≠ "" := .rfl

/-- Derives a logger by one step. -/
def Scope.derive : Scope → Logger → Logger
  | .attrs given => fun l => l.withAttrs given
  | .group name => fun l => l.withGroup name

/-- Derives a logger by a chain of steps. -/
def Logger.derived (l : Logger) (chain : List Scope) : Logger :=
  chain.foldl (fun l s => s.derive l) l

theorem Scope.derive_eq (s : Scope) (l : Logger) :
    s.derive l = if s.Told then { l with scopes := l.scopes ++ [s] } else l := by
  cases s with
  | attrs attrs => by_cases h : attrs = [] <;> simp [Scope.derive, Logger.withAttrs, h]
  | group name => by_cases h : name = "" <;> simp [Scope.derive, Logger.withGroup, h]

theorem Logger.derived_eq (l : Logger) (chain : List Scope) :
    l.derived chain = { l with scopes := l.scopes ++ chain.filter (·.Told) } := by
  unfold Logger.derived
  induction chain generalizing l with
  | nil => simp
  | cons s chain ih =>
    rw [List.foldl_cons, ih, Scope.derive_eq, List.filter_cons]
    by_cases h : s.Told <;> simp [h]

theorem openGroups_filter_told (chain : List Scope) : openGroups (chain.filter (·.Told)) = openGroups chain := by
  induction chain with
  | nil => rfl
  | cons s chain ih =>
    cases s with
    | attrs attrs => by_cases h : attrs = [] <;> simp [openGroups, h, ih]
    | group name => by_cases h : name = "" <;> simp [openGroups, h, ih]

theorem scopeAttributes_filter_told (groups : List String) (chain : List Scope) :
    scopeAttributes groups (chain.filter (·.Told)) = scopeAttributes groups chain := by
  induction chain generalizing groups with
  | nil => rfl
  | cons s chain ih =>
    cases s with
    | attrs attrs => by_cases h : attrs = [] <;> simp [scopeAttributes, placed, h, ih]
    | group name => by_cases h : name = "" <;> simp [scopeAttributes, h, ih]

/-- The attributes of an entry in a logger with some derivations: those of the derivations, and behind them its
own ones within the groups that are open. One more attribute, with the id, comes last if and only if the entry
belongs to a request. -/
def Entry.attributes (chain : List Scope) (e : Entry) : List (List String × Leaf) :=
  scopeAttributes [] chain ++ placed (openGroups chain) e.attrs ++
    (e.requestId.map fun id => (openGroups chain, Leaf.mk "request_id" (.text id))).toList

/-- A record says all that an entry says in a logger with some derivations. -/
structure Says (chain : List Scope) (e : Entry) (r : Record) : Prop where
  level : r.level = e.level
  message : r.message = e.message
  attributes : r.attributes = e.attributes chain

theorem record?_derived {l : Logger} (hl : l.scopes = []) (chain : List Scope) (threshold : Int) (e : Entry) :
    (threshold ≤ e.level → ∃ r, (l.derived chain).record? threshold e = some r ∧ Says chain e r) ∧
      (e.level < threshold → (l.derived chain).record? threshold e = none) := by
  constructor
  · intro hlevel
    refine ⟨_, if_neg (Int.not_lt.2 hlevel), rfl, rfl, ?_⟩
    simp only [Record.attributes, Logger.derived_eq, hl, List.nil_append]
    rw [attributesOf_nest, openGroups_filter_told, scopeAttributes_filter_told, List.nil_append, placed_append,
      placed_requestAttr, ← List.append_assoc]
    rfl
  · intro hlevel
    exact if_pos hlevel

/-! ## Handlers -/

/-- The two places that lines are written to. -/
inductive Place where
  | main
  | file
  deriving DecidableEq, Repr

/-- A handler of entries: a sink, which writes lines in its format, a fan-out to several handlers, or one that
adds the id of the request before it hands the entry on. -/
inductive Handler where
  | sink (place : Place) (format : Format) (scopes : List Scope)
  | fanOut (handlers : List Handler)
  | tagging (inner : Handler)

namespace Handler

mutual

/-- The handler takes entries of a level. -/
def enabled (threshold level : Int) : Handler → Bool
  | .sink _ _ _ => threshold ≤ level
  | .fanOut handlers => anyEnabled threshold level handlers
  | .tagging inner => inner.enabled threshold level

/-- One of the handlers takes entries of a level. -/
def anyEnabled (threshold level : Int) : List Handler → Bool
  | [] => false
  | h :: hs => h.enabled threshold level || anyEnabled threshold level hs

end

mutual

/-- The handler with one more scope. It reaches every sink and keeps the handlers on the way there. -/
def under (s : Scope) : Handler → Handler
  | .sink place format scopes => .sink place format (scopes ++ [s])
  | .fanOut handlers => .fanOut (allUnder s handlers)
  | .tagging inner => .tagging (inner.under s)

/-- The handlers with one more scope. -/
def allUnder (s : Scope) : List Handler → List Handler
  | [] => []
  | h :: hs => h.under s :: allUnder s hs

end

mutual

/-- The lines that a handler writes for an entry. A sink writes whatever it is given; a fan-out asks each of
its handlers first. -/
def handle (threshold : Int) (stamp : String) : Handler → Entry → List (Place × String)
  | .sink place format scopes, e =>
    [(place, format.line stamp ⟨e.level, e.message, Logger.nest scopes e.attrs⟩)]
  | .fanOut handlers, e => handleEach threshold stamp handlers e
  | .tagging inner, e =>
    inner.handle threshold stamp { e with attrs := e.attrs ++ (e.requestId.map Logger.requestAttr).toList }

/-- The lines that the handlers of a fan-out write for an entry. -/
def handleEach (threshold : Int) (stamp : String) : List Handler → Entry → List (Place × String)
  | [], _ => []
  | h :: hs, e =>
    (if h.enabled threshold e.level then h.handle threshold stamp e else []) ++
      handleEach threshold stamp hs e

end

/-- Derives a handler by one step. What is empty is not handed on. -/
def derive (s : Scope) (h : Handler) : Handler :=
  if s.Told then h.under s else h

/-- The lines that are written when an entry is recorded: none unless the handler takes the level. -/
def log (threshold : Int) (stamp : String) (h : Handler) (e : Entry) : List (Place × String) :=
  if h.enabled threshold e.level then h.handle threshold stamp e else []

/-- The handler that settings ask for: the id is added above the fan-out, the main sink has the format with a
name, and the file, if there is one, has lines of JSON. -/
def ofOptions (options : Options) : Handler :=
  .tagging (.fanOut (.sink .main (.ofName options.format) [] ::
    if options.file = "" then [] else [.sink .file .json []]))

end Handler

/-- What some lines add to the two places. -/
def Written.ofLines (lines : List (Place × String)) : Written :=
  ⟨String.join ((lines.filter (·.1 = .main)).map (·.2)), String.join ((lines.filter (·.1 = .file)).map (·.2))⟩

/-- The handlers behind a logger: its scopes are those of each sink. -/
def Logger.handler (l : Logger) : Handler :=
  .tagging (.fanOut (.sink .main l.format l.scopes :: if l.hasFile then [.sink .file .json l.scopes] else []))

theorem handler_derive (s : Scope) (l : Logger) : (s.derive l).handler = l.handler.derive s := by
  rw [Scope.derive_eq, Handler.derive]
  by_cases h : s.Told
  · cases hf : l.hasFile <;> simp [h, hf, Logger.handler, Handler.under, Handler.allUnder]
  · simp [h]

theorem log_handler (threshold : Int) (stamp : String) (l : Logger) (e : Entry) :
    Written.ofLines (l.handler.log threshold stamp e) = l.log threshold stamp e := by
  unfold Handler.log Logger.log Logger.record?
  by_cases h : e.level < threshold
  · have hnot : ¬ threshold ≤ e.level := Int.not_le.2 h
    cases hf : l.hasFile <;>
      simp [h, hnot, hf, Logger.handler, Handler.enabled, Handler.anyEnabled, Logger.write, Written.ofLines]
  · have hle : threshold ≤ e.level := Int.not_lt.1 h
    cases hf : l.hasFile <;>
      simp [h, hle, hf, Logger.handler, Handler.enabled, Handler.anyEnabled, Handler.handle, Handler.handleEach,
        Logger.write, Written.ofLines, Format.line]

/-! ## Calls -/

/-- What is done with a family of loggers: the level is set, a logger is derived from the one with a number,
or the one with a number records an entry at a time. -/
inductive Call where
  | setLevel (text : String)
  | derive (n : Nat) (s : Scope)
  | log (n : Nat) (stamp : String) (e : Entry)

/-- A journal after a call, and what the call wrote. -/
def Journal.call (j : Journal) : Call → Journal × Written
  | .setLevel text => ((j.setLevel text).1, ⟨"", ""⟩)
  | .derive n s => (j.derive n s.derive, ⟨"", ""⟩)
  | .log n stamp e => (j, j.log n stamp e)

/-- What each call wrote. -/
def Journal.transcript (j : Journal) : List Call → List Written
  | [] => []
  | c :: calls => (j.call c).2 :: (j.call c).1.transcript calls

/-- Handlers by number, and the one level that all their sinks look at. -/
structure Handlers where
  level : Int
  handlers : List Handler

namespace Handlers

/-- Handlers after a call, and what the call wrote. A level that is not known changes nothing. -/
def call (hs : Handlers) : Call → Handlers × Written
  | .setLevel text =>
    match levelOf text with
    | .ok level => (⟨level, hs.handlers⟩, ⟨"", ""⟩)
    | .error _ => (hs, ⟨"", ""⟩)
  | .derive n s => (⟨hs.level, hs.handlers ++ (hs.handlers[n]?.map (Handler.derive s)).toList⟩, ⟨"", ""⟩)
  | .log n stamp e =>
    (hs, .ofLines ((hs.handlers[n]?.map fun h => h.log hs.level stamp e).getD []))

/-- What each call wrote. -/
def transcript (hs : Handlers) : List Call → List Written
  | [] => []
  | c :: calls => (hs.call c).2 :: (hs.call c).1.transcript calls

end Handlers

/-- The handlers behind the loggers of a journal. -/
def Journal.handlers (j : Journal) : Handlers :=
  ⟨j.threshold, j.loggers.map Logger.handler⟩

theorem handlers_call (j : Journal) (c : Call) :
    j.handlers.call c = ((j.call c).1.handlers, (j.call c).2) := by
  cases c with
  | setLevel text =>
    simp only [Handlers.call, Journal.call, Journal.setLevel]
    cases levelOf text <;> rfl
  | derive n s =>
    have hderived : j.handlers.handlers[n]?.map (Handler.derive s) =
        ((j.loggers[n]?).map s.derive).map Logger.handler := by
      rw [Journal.handlers, List.getElem?_map, Option.map_map, Option.map_map]
      congr 1
      funext l
      exact (handler_derive s l).symm
    rw [Handlers.call, hderived]
    cases hl : j.loggers[n]? <;> simp [Journal.call, Journal.derive, Journal.logger?, Journal.handlers, hl]
  | log n stamp e =>
    cases hl : j.loggers[n]? with
    | none => simp [Handlers.call, Journal.call, Journal.log, Journal.logger?, Journal.handlers, hl, Written.ofLines]
    | some l =>
      simp [Handlers.call, Journal.call, Journal.log, Journal.logger?, Journal.handlers, hl, log_handler]

/-- The handlers write what the loggers write, call by call. -/
theorem handlers_transcript (j : Journal) (calls : List Call) :
    j.handlers.transcript calls = j.transcript calls := by
  induction calls generalizing j with
  | nil => rfl
  | cons c calls ih => simp only [Handlers.transcript, handlers_call, ih, Journal.transcript]

/-! ## What is kept -/

/-- The level that a call sets, if its text names one. -/
def Call.level? : Call → Option Int
  | .setLevel text => (levelOf text).toOption
  | _ => none

/-- The level that holds after some calls: the one that was set last, or else that of the beginning. -/
def lastSet (start : Int) (calls : List Call) : Int :=
  ((calls.filterMap Call.level?).getLast?).getD start

/-- The derivations behind each logger, by number, after one more call. -/
def chainsAfter (chains : List (List Scope)) : Call → List (List Scope)
  | .derive n s => chains ++ ((chains[n]?).map (· ++ [s])).toList
  | _ => chains

/-- The derivations behind each logger, by number: the first one has none. -/
def chains (calls : List Call) : List (List Scope) :=
  calls.foldl chainsAfter [[]]

/-- An entry at a time, with the derivations behind the logger that it was given to. -/
structure Logged where
  chain : List Scope
  stamp : String
  entry : Entry

/-- What a call that follows others gives to a logger, unless it lies below the level that holds then. -/
def kept? (start : Int) (before : List Call) : Call → Option Logged
  | .log n stamp e =>
    if lastSet start before ≤ e.level then ((chains before)[n]?).map fun chain => ⟨chain, stamp, e⟩ else none
  | _ => none

/-- All that is to be kept of some calls that follow others, in their order. -/
def kept (start : Int) (before calls : List Call) : List Logged :=
  (List.range calls.length).filterMap fun i => calls[i]?.bind (kept? start (before ++ calls.take i))

/-- A journal as it stands after some calls: the level that was last set, and for each chain of derivations
the logger that it leads to from the first one. -/
structure After (start : Int) (first : Logger) (calls : List Call) (j : Journal) : Prop where
  threshold : j.threshold = lastSet start calls
  loggers : j.loggers = (chains calls).map first.derived

variable {start : Int} {first : Logger} {before : List Call} {j : Journal}

theorem lastSet_concat (start : Int) (before : List Call) (c : Call) :
    lastSet start (before ++ [c]) = (c.level?).getD (lastSet start before) := by
  unfold lastSet
  cases h : c.level? <;> simp [h]

theorem chains_concat (before : List Call) (c : Call) : chains (before ++ [c]) = chainsAfter (chains before) c := by
  simp [chains]

theorem After.call (h : After start first before j) (c : Call) : After start first (before ++ [c]) (j.call c).1 := by
  refine ⟨?_, ?_⟩
  · rw [lastSet_concat]
    cases c with
    | setLevel text =>
      simp only [Journal.call, Journal.setLevel, Call.level?]
      cases levelOf text with
      | ok level => rfl
      | error fault => exact h.threshold
    | derive n s => exact h.threshold
    | log n stamp e => exact h.threshold
  · rw [chains_concat]
    cases c with
    | setLevel text =>
      have hsame : (j.setLevel text).1.loggers = j.loggers := by
        unfold Journal.setLevel
        cases levelOf text <;> rfl
      exact hsame.trans h.loggers
    | derive n s =>
      have hone (chain : List Scope) : s.derive (first.derived chain) = first.derived (chain ++ [s]) := by
        simp [Logger.derived]
      cases hn : (chains before)[n]? <;>
        simp [Journal.call, Journal.derive, Journal.logger?, h.loggers, chainsAfter, hn, hone]
    | log n stamp e => exact h.loggers

/-- A call writes the same record to both sinks if something of it is to be kept, and otherwise nothing. -/
theorem After.written (h : After start first before j) (hscopes : first.scopes = []) (hfile : first.hasFile = true)
    (c : Call) :
    match kept? start before c with
    | none => (j.call c).2 = ⟨"", ""⟩
    | some k => ∃ r, Says k.chain k.entry r ∧
        (j.call c).2 = ⟨first.format.line k.stamp r, r.jsonLine k.stamp⟩ := by
  cases c with
  | setLevel text => rfl
  | derive n s => rfl
  | log n stamp e =>
    have hlogger : j.logger? n = ((chains before)[n]?).map first.derived := by
      rw [Journal.logger?, h.loggers, List.getElem?_map]
    cases hchain : (chains before)[n]? with
    | none =>
      rw [hchain] at hlogger
      simp only [kept?, hchain, Option.map_none, ite_self, Journal.call, Journal.log, hlogger]
    | some chain =>
      rw [hchain] at hlogger
      obtain ⟨hkept, hdropped⟩ := record?_derived hscopes chain (lastSet start before) e
      have hfields : (first.derived chain).format = first.format ∧ (first.derived chain).hasFile = true := by
        rw [Logger.derived_eq]
        exact ⟨rfl, hfile⟩
      by_cases hlevel : lastSet start before ≤ e.level
      · obtain ⟨r, hr, hsaid⟩ := hkept hlevel
        simp only [kept?, hchain, Option.map_some, if_pos hlevel]
        refine ⟨r, hsaid, ?_⟩
        simp only [Journal.call, Journal.log, hlogger, Option.map_some, Logger.log, h.threshold, hr, Logger.write,
          hfields, if_true]
      · simp only [kept?, if_neg hlevel, Journal.call, Journal.log, hlogger, Option.map_some, Logger.log,
          h.threshold, hdropped (Int.not_le.1 hlevel), Logger.write]

theorem kept_cons (start : Int) (before : List Call) (c : Call) (calls : List Call) :
    kept start before (c :: calls) = (kept? start before c).toList ++ kept start (before ++ [c]) calls := by
  have hfirst : ((c :: calls)[0]?).bind (kept? start (before ++ (c :: calls).take 0)) = kept? start before c := by
    simp
  rw [kept, List.length_cons, List.range_succ_eq_map, List.filterMap_cons, hfirst, List.filterMap_map]
  cases kept? start before c <;> simp [kept, Function.comp_def]

/-- What two sinks receive for records at their times. -/
structure Receive (format : Format) (written : List Written) (records : List (String × Record)) : Prop where
  main : String.join (written.map (·.main)) = String.join (records.map fun r => format.line r.1 r.2)
  file : String.join (written.map (·.file)) = String.join (records.map fun r => Format.json.line r.1 r.2)

/-- Whatever is to be kept of some calls is recorded, and both sinks receive the lines of the records. -/
theorem After.receive (h : After start first before j) (hscopes : first.scopes = []) (hfile : first.hasFile = true)
    (calls : List Call) :
    ∃ records, Receive first.format (j.transcript calls) records ∧
      List.Forall₂ (fun k r => r.1 = k.stamp ∧ Says k.chain k.entry r.2) (kept start before calls) records := by
  induction calls generalizing before j with
  | nil => exact ⟨[], ⟨rfl, rfl⟩, .nil⟩
  | cons c calls ih =>
    obtain ⟨records, hreceive, hsaid⟩ := ih (h.call c)
    have hone := h.written hscopes hfile c
    rw [kept_cons]
    cases hkept : kept? start before c with
    | none =>
      rw [hkept] at hone
      refine ⟨records, ⟨?_, ?_⟩, hsaid⟩
      · simpa [Journal.transcript, hone, String.join_cons] using hreceive.main
      · simpa [Journal.transcript, hone, String.join_cons] using hreceive.file
    | some k =>
      rw [hkept] at hone
      obtain ⟨r, hr, hwritten⟩ := hone
      refine ⟨(k.stamp, r) :: records, ⟨?_, ?_⟩, .cons ⟨rfl, hr⟩ hsaid⟩
      · simp [Journal.transcript, hwritten, String.join_cons, hreceive.main]
      · simp [Journal.transcript, hwritten, String.join_cons, hreceive.file, Format.line]

/-! ## Both sinks -/

theorem Journal.start_with_file {options : Options} {disk disk' : Disk} (hfile : options.file ≠ "")
    (h : Journal.start options disk = .ok (j, disk')) :
    levelOf options.level = .ok j.threshold ∧ j.loggers = [⟨.ofName options.format, true, []⟩] := by
  unfold Journal.start at h
  split at h
  · cases h
  · rename_i threshold hlevel
    have hhas : (options.file != "") = true := by simpa using hfile
    simp only [if_neg hfile, hhas] at h
    split at h
    · cases h
    · cases h
      exact ⟨hlevel, rfl⟩

/-- The line that an entry should have in a format. -/
def Logged.told (format : Format) (k : Logged) : Line :=
  ⟨k.stamp, k.entry.level, k.entry.message, format.told (k.entry.attributes k.chain)⟩

theorem Says.told {k : Logged} {r : Record} (h : Says k.chain k.entry r) (format : Format) :
    r.told format k.stamp = k.told format := by
  rw [Record.told, Logged.told, h.level, h.message, h.attributes]

theorem told_records {ks : List Logged} {records : List (String × Record)}
    (h : List.Forall₂ (fun k r => r.1 = k.stamp ∧ Says k.chain k.entry r.2) ks records) (format : Format) :
    (records.map fun r => r.2.told format r.1) = ks.map (Logged.told format) := by
  induction h with
  | nil => rfl
  | cons hr _ ih => rw [List.map_cons, List.map_cons, ih, hr.1, hr.2.told]

/-- Only what some call recorded is kept. -/
theorem stamp_of_kept {before calls : List Call} {k : Logged} (h : k ∈ kept start before calls) :
    ∃ n, Call.log n k.stamp k.entry ∈ calls := by
  obtain ⟨i, -, hi⟩ := List.mem_filterMap.1 h
  obtain ⟨c, hc, hk⟩ := Option.bind_eq_some_iff.1 hi
  have hmem := List.mem_of_getElem? hc
  cases c with
  | setLevel text => cases hk
  | derive n s => cases hk
  | log n stamp e =>
    simp only [kept?] at hk
    split_ifs at hk
    obtain ⟨chain, -, rfl⟩ := Option.map_eq_some_iff.1 hk
    exact ⟨n, hmem⟩

theorem stamps_bare {ks : List Logged} {records : List (String × Record)}
    (h : List.Forall₂ (fun k r => r.1 = k.stamp ∧ Says k.chain k.entry r.2) ks records)
    (hstamps : ∀ k ∈ ks, needsQuotes k.stamp = false) : ∀ r ∈ records, needsQuotes r.1 = false := by
  induction h with
  | nil => simp
  | cons hr _ ih =>
    rw [List.forall_mem_cons] at hstamps ⊢
    exact ⟨by rw [hr.1]; exact hstamps.1, ih hstamps.2⟩

/-- Nothing is lost between two sinks. Let a journal with a log file be started, and let loggers be derived
from its first one, the level be set and entries be recorded at times that need no quotes, in any order and any
number of times. What is then read back from the text of the main sink, in its format, and from that of the
file are lines for the same entries in the same order. There is one for each entry that some logger was given
at or above the level that was last set by then, where a text that names no level sets none. It tells the time,
the level and the message of the entry and its attributes behind those of the logger, with the id of the
request behind them and within the groups that are open on that logger, if there is one, and nothing else. The
handlers, which look at the level once for each sink and carry the scopes to each of them, write the same. -/
theorem fan_out_loses_nothing {options : Options} {disk disk' : Disk} {j : Journal} (hfile : options.file ≠ "")
    (hstart : Journal.start options disk = .ok (j, disk')) {calls : List Call}
    (htimes : ∀ n stamp e, .log n stamp e ∈ calls → needsQuotes stamp = false) :
    ∃ level, levelOf options.level = .ok level ∧
      (Format.ofName options.format).lines? (String.join ((j.transcript calls).map (·.main))) =
        some ((kept level [] calls).map (Logged.told (.ofName options.format))) ∧
      Format.json.lines? (String.join ((j.transcript calls).map (·.file))) =
        some ((kept level [] calls).map (Logged.told .json)) ∧
      (Handlers.mk level [.ofOptions options]).transcript calls = j.transcript calls := by
  obtain ⟨hlevel, hloggers⟩ := Journal.start_with_file hfile hstart
  have hafter : After j.threshold ⟨.ofName options.format, true, []⟩ [] j := ⟨rfl, hloggers⟩
  obtain ⟨records, hreceive, hsaid⟩ := hafter.receive rfl rfl calls
  have hstamps : ∀ r ∈ records, needsQuotes r.1 = false := by
    refine stamps_bare hsaid fun k hk => ?_
    obtain ⟨n, hcall⟩ := stamp_of_kept hk
    exact htimes n k.stamp k.entry hcall
  refine ⟨j.threshold, hlevel, ?_, ?_, ?_⟩
  · rw [hreceive.main, lines?_join _ hstamps, told_records hsaid]
  · rw [hreceive.file, lines?_join _ hstamps, told_records hsaid]
  · have hhandlers : Handlers.mk j.threshold [.ofOptions options] = j.handlers := by
      simp [Journal.handlers, hloggers, Logger.handler, Handler.ofOptions, hfile]
    rw [hhandlers, handlers_transcript]

/-- A request is followed through two derivations. The first entry lies below the level, a text that names no
level is without effect, and the next one lets everything through. One attribute is a group, with a duration in
it, and one has to be quoted. -/
def followedCalls : List Call :=
  [.derive 0 (.group "http"), .log 1 "09:00" ⟨debug, "dropped", [], some "r-1"⟩, .setLevel "loud",
    .setLevel "debug", .derive 1 (.attrs [⟨"stage", .text "parse"⟩]),
    .log 2 "09:01" ⟨debug, "parsed", [⟨"run", .group [("tokens", .int 4),
      ("took", .scalar (.other "1.5s" false (.int 1500000000) (.int _)))]⟩], some "r-1"⟩,
    .log 0 "09:02" ⟨error + 1, "failed", [⟨"error", .text "no \"digits\""⟩], none⟩]

theorem fan_out_loses_nothing_at :
    ∃ j disk, Journal.start ⟨"info", "text", "run.log"⟩ .empty = .ok (j, disk) ∧
      String.join ((j.transcript followedCalls).map (·.main)) =
        "time=09:01 level=DEBUG msg=parsed http.stage=parse http.run.tokens=4 http.run.took=1.5s" ++
          " http.request_id=r-1\n" ++
        "time=09:02 level=ERROR+1 msg=failed error=\"no \\\"digits\\\"\"\n" ∧
      String.join ((j.transcript followedCalls).map (·.file)) =
        "\x7b\"time\":\"09:01\",\"level\":\"DEBUG\",\"msg\":\"parsed\",\"http\":\x7b\"stage\":\"parse\"," ++
          "\"run\":\x7b\"tokens\":4,\"took\":1500000000\x7d,\"request_id\":\"r-1\"\x7d\x7d\n" ++
        "\x7b\"time\":\"09:02\",\"level\":\"ERROR+1\",\"msg\":\"failed\",\"error\":\"no \\\"digits\\\"\"\x7d\n" ∧
      Format.text.lines? (String.join ((j.transcript followedCalls).map (·.main))) =
        some [⟨"09:01", -4, "parsed", [(["http.stage"], .string "parse"), (["http.run.tokens"], .string "4"),
          (["http.run.took"], .string "1.5s"), (["http.request_id"], .string "r-1")]⟩,
          ⟨"09:02", 9, "failed", [(["error"], .string "no \"digits\"")]⟩] ∧
      Format.json.lines? (String.join ((j.transcript followedCalls).map (·.file))) =
        some [⟨"09:01", -4, "parsed", [(["http", "stage"], .string "parse"), (["http", "run", "tokens"], .int 4),
          (["http", "run", "took"], .int 1500000000), (["http", "request_id"], .string "r-1")]⟩,
          ⟨"09:02", 9, "failed", [(["error"], .string "no \"digits\"")]⟩] := by
  have hstart : Journal.start ⟨"info", "text", "run.log"⟩ .empty =
      .ok (⟨info, [⟨.text, true, []⟩]⟩, ⟨[(["run.log"], .file "")]⟩) := rfl
  have htimes : ∀ n stamp e, .log n stamp e ∈ followedCalls → needsQuotes stamp = false := by
    intro n stamp e he
    simp only [followedCalls, List.mem_cons, reduceCtorEq, Call.log.injEq, List.not_mem_nil, false_or, or_false] at he
    rcases he with ⟨-, rfl, -⟩ | ⟨-, rfl, -⟩ | ⟨-, rfl, -⟩ <;> decide
  obtain ⟨level, hlevel, hmain, hfile, -⟩ := fan_out_loses_nothing (by decide) hstart htimes
  cases hlevel
  refine ⟨_, _, hstart, by decide +kernel, by decide +kernel, hmain, hfile⟩

end Reckoner.Log
