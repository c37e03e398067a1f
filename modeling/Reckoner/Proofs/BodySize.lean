/-
The size of a source that is sent in a document. The server has two limits: one for the bytes of a source,
and one for the bytes of the body that it comes in, which has 1024 bytes more, in 64 bits. A document adds
thirteen bytes to the text of a source and more for each character that it escapes. So a source that keeps to
the first limit is run whenever its document keeps to the second one; but it need not do so, since escapes can
take more than the room that is left, and since the sum need not fit 64 bits.
-/
import Reckoner.Proofs.Responses
import Reckoner.Settings
import Mathlib.Algebra.Order.Ring.Nat

namespace Reckoner

/-! ## Sizes of text -/

theorem utf8ByteSize_join (texts : List String) :
    (String.join texts).utf8ByteSize = (texts.map String.utf8ByteSize).sum := by
  induction texts with
  | nil => rfl
  | cons text texts ih => rw [String.join_cons, String.utf8ByteSize_append, ih, List.map_cons, List.sum_cons]

theorem utf8ByteSize_ofChars (cs : List Char) :
    (String.ofList cs).utf8ByteSize = (cs.map Char.utf8Size).sum := by
  induction cs with
  | nil => rfl
  | cons c cs ih =>
    have hcons : String.ofList (c :: cs) = String.singleton c ++ String.ofList cs := by
      apply String.toList_injective
      simp
    rw [hcons, String.utf8ByteSize_append, String.utf8ByteSize_singleton, ih, List.map_cons, List.sum_cons]

theorem utf8ByteSize_replicate (n : Nat) (c : Char) :
    (String.ofList (List.replicate n c)).utf8ByteSize = n * c.utf8Size := by
  rw [utf8ByteSize_ofChars, List.map_replicate, List.sum_replicate_nat]

namespace Json

/-- The characters that documents write with a backslash and one more character. -/
def shortEscaped : List Char :=
  ['"', '\\', '\n', '\r', '\t', '\x08', '\x0c']

/-- The bytes by which the escape of a character in a document is longer than the character. -/
def escapeGrowth (c : Char) : Nat :=
  if c ∈ shortEscaped then 1
  else if c.toNat < 0x20 ∨ c ∈ ['<', '>', '&'] then 5
  else if c.toNat = 0x2028 ∨ c.toNat = 0x2029 then 3
  else 0

theorem utf8Size_of_ascii {c : Char} (h : c.toNat < 0x80) : c.utf8Size = 1 := by
  rw [Char.utf8Size_eq_one_iff, UInt32.le_iff_toNat_le]
  exact Nat.le_of_lt_succ h

theorem utf8ByteSize_numbered {c : Char} (h : c.toNat < 0x10000) : (numbered c).utf8ByteSize = 6 := by
  have hdigit (d : Nat) (hd : d < 16) : d.digitChar.utf8Size = 1 := by
    have hall : ∀ d : Fin 16, d.val.digitChar.utf8Size = 1 := by decide
    exact hall ⟨d, hd⟩
  have hhex : (Text.hex 4 c.toNat).utf8ByteSize = 4 := by
    rw [← String.ofList_toList (s := Text.hex 4 c.toNat), toList_hex_four h, utf8ByteSize_ofChars]
    simp only [List.map_cons, List.map_nil, List.sum_cons, List.sum_nil]
    rw [hdigit _ (by omega), hdigit _ (by omega), hdigit _ (by omega), hdigit _ (by omega)]
    rfl
  rw [numbered, String.utf8ByteSize_append, hhex]
  rfl

theorem escape_of_not_short {c : Char} (h : c ∉ shortEscaped) :
    escape .document c =
      if (c.toNat < 0x20 ∨ c ∈ ['<', '>', '&']) ∨ c.toNat = 0x2028 ∨ c.toNat = 0x2029 then numbered c
      else String.singleton c := by
  have hnumber {n : Nat} (hn : c.toNat = n) : c = Char.ofNat n := by rw [← hn, Char.ofNat_toNat]
  have hback : c.toNat ≠ 0x08 := fun hn => h (by rw [hnumber hn]; decide)
  have hfeed : c.toNat ≠ 0x0C := fun hn => h (by rw [hnumber hn]; decide)
  simp only [shortEscaped, List.mem_cons, List.not_mem_nil, or_false, not_or] at h
  obtain ⟨hquote, hslash, hline, hreturn, htab, -, -⟩ := h
  simp [escape, hquote, hslash, hline, hreturn, htab, hback, hfeed, Style.document, ite_or, or_assoc]

theorem utf8ByteSize_escape (c : Char) : (escape .document c).utf8ByteSize = c.utf8Size + escapeGrowth c := by
  by_cases hshort : c ∈ shortEscaped
  · simp only [shortEscaped, List.mem_cons, List.not_mem_nil, or_false] at hshort
    rcases hshort with rfl | rfl | rfl | rfl | rfl | rfl | rfl <;> rfl
  -- every other escape has six bytes, for a character of one byte or for a separator of three
  rw [escape_of_not_short hshort, escapeGrowth, if_neg hshort]
  by_cases hascii : c.toNat < 0x20 ∨ c ∈ ['<', '>', '&']
  · have hsmall : c.toNat < 0x80 := by
      rcases hascii with h | h
      · omega
      · simp only [List.mem_cons, List.not_mem_nil, or_false] at h
        rcases h with rfl | rfl | rfl <;> decide
    rw [if_pos hascii, if_pos (.inl hascii), utf8ByteSize_numbered (by omega), utf8Size_of_ascii hsmall]
  rw [if_neg hascii]
  by_cases hseparator : c.toNat = 0x2028 ∨ c.toNat = 0x2029
  · have hsize : c.utf8Size = 3 := by
      have hc : c = Char.ofNat 0x2028 ∨ c = Char.ofNat 0x2029 := by
        rcases hseparator with h | h <;> rw [← h, Char.ofNat_toNat] <;> simp
      rcases hc with rfl | rfl <;> decide
    rw [if_pos hseparator, if_pos (.inr hseparator), utf8ByteSize_numbered (by omega), hsize]
  · rw [if_neg hseparator, if_neg (not_or.2 ⟨hascii, hseparator⟩), String.utf8ByteSize_singleton, Nat.add_zero]

/-- The bytes that all the escapes of a text add to it. -/
def growth (s : String) : Nat :=
  (s.toList.map escapeGrowth).sum

theorem growth_append (s t : String) : growth (s ++ t) = growth s + growth t := by
  rw [growth, growth, growth, String.toList_append, List.map_append, List.sum_append]

theorem growth_replicate (n : Nat) (c : Char) :
    growth (String.ofList (List.replicate n c)) = n * escapeGrowth c := by
  rw [growth, String.toList_ofList, List.map_replicate, List.sum_replicate_nat]

theorem utf8ByteSize_quoted (s : String) :
    (quoted .document s).utf8ByteSize = s.utf8ByteSize + growth s + 2 := by
  have hescapes (cs : List Char) :
      (String.join (cs.map (escape .document))).utf8ByteSize =
        (String.ofList cs).utf8ByteSize + (cs.map escapeGrowth).sum := by
    rw [utf8ByteSize_join, utf8ByteSize_ofChars]
    induction cs with
    | nil => rfl
    | cons c cs ih =>
      simp only [List.map_cons, List.sum_cons, ih, utf8ByteSize_escape]
      omega
  have hquote : "\"".utf8ByteSize = 1 := rfl
  rw [quoted, String.utf8ByteSize_append, String.utf8ByteSize_append, hescapes, String.ofList_toList, hquote,
    growth]
  omega

end Json

namespace Http

/-! ## Limits -/

/-- The document with a source that is sent to the server. -/
def sourceDocument (source : String) : String :=
  (Json.object [("source", .string source)]).render .document

theorem utf8ByteSize_sourceDocument (source : String) :
    (sourceDocument source).utf8ByteSize = source.utf8ByteSize + Json.growth source + 13 := by
  have htext : sourceDocument source = "\x7b\"source\":" ++ Json.quoted .document source ++ "\x7d" := by
    have hkey : Json.quoted .document "source" = "\"source\"" := by decide
    apply String.toList_injective
    simp [sourceDocument, Json.render, Json.renderMembers, Json.commaSeparated, hkey]
  rw [htext, String.utf8ByteSize_append, String.utf8ByteSize_append, Json.utf8ByteSize_quoted]
  have hbefore : "\x7b\"source\":".utf8ByteSize = 10 := rfl
  have hbehind : "\x7d".utf8ByteSize = 1 := rfl
  omega

theorem bodyLimit_eq {n : Int} (hpos : 0 < n) (hfits : n ≤ Number.Word.greatest) :
    Server.bodyLimit ⟨n⟩ = if n ≤ Number.Word.greatest - 1024 then n + 1024 else defaultBodyLimit := by
  -- a sum that does not fit wraps below zero, where the default stands in for it
  simp only [Server.bodyLimit, Number.Word.wrap, Number.Word.count, Number.Word.greatest, Int.bmod] at hfits ⊢
  split_ifs <;> omega

variable {settings : Settings}

theorem maxSourceSize_pos (hvalid : settings.fault? = none) : 0 < settings.server.maxSourceSize := by
  unfold Settings.fault? at hvalid
  split_ifs at hvalid with _ _ hsize
  exact Int.not_le.1 hsize

theorem admits_sourceDocument_iff (hvalid : settings.fault? = none)
    (hfits : Number.Word.fits settings.server.maxSourceSize = true) (source : String) :
    Server.admits ⟨settings.server.maxSourceSize⟩ (sourceDocument source) = true ↔
      (source.utf8ByteSize + Json.growth source + 13 : Int) ≤
        if settings.server.maxSourceSize ≤ Number.Word.greatest - 1024 then settings.server.maxSourceSize + 1024
        else defaultBodyLimit := by
  have hgreatest : settings.server.maxSourceSize ≤ Number.Word.greatest := by
    simp only [Number.Word.fits, Bool.and_eq_true, decide_eq_true_eq] at hfits
    exact hfits.2
  rw [Server.admits, decide_eq_true_eq, bodyLimit_eq (maxSourceSize_pos hvalid) hgreatest,
    utf8ByteSize_sourceDocument]
  push_cast
  rfl

/-! ## Sources within their limit -/

/-- A source that keeps to the limit of settings in order, sent in a document to the path of a mode. The
transport lets the document through if and only if the source, the bytes that its escapes add and thirteen
more keep to the limit for bodies, which is that for sources and 1024 more, or 4 MiB where this sum does not
fit 64 bits; so it does whenever the sum fits and the escapes add no more than 1011 bytes. What is let
through, with a head that fits its buffer, is never too large: the source is run, and the answer tells its
result. -/
theorem sent_source_runs (hvalid : settings.fault? = none)
    (hfits : Number.Word.fits settings.server.maxSourceSize = true) {source : String}
    (hsize : source.utf8ByteSize ≤ settings.server.maxSourceSize) :
    let server : Server := ⟨settings.server.maxSourceSize⟩
    (server.admits (sourceDocument source) = true ↔
      (source.utf8ByteSize + Json.growth source + 13 : Int) ≤
        if server.maxSourceSize ≤ Number.Word.greatest - 1024 then server.maxSourceSize + 1024 else 4194304) ∧
    (server.maxSourceSize ≤ Number.Word.greatest - 1024 → Json.growth source ≤ 1011 →
      server.admits (sourceDocument source) = true) ∧
    ∀ mode ∈ Mode.named, ∀ r elapsed freshId, r.method = "POST" → r.path = "/v1/" ++ mode.name →
      BodyKind.ofContentType? r.contentType = some .json → r.body = sourceDocument source →
      server.admits r.body = true → r.headSize ≤ readBufferSize →
      (server.serve elapsed freshId r).response = .json (resultStatus (run mode source))
        (RequestId.choose r.id freshId) (resultDocument (run mode source)) ∧
      (server.serve elapsed freshId r).response.status ≠ 413 := by
  intro server
  refine ⟨admits_sourceDocument_iff hvalid hfits source, ?_, ?_⟩
  · intro hroom hgrowth
    rw [admits_sourceDocument_iff hvalid hfits source, if_pos hroom]
    omega
  · intro mode hmode r elapsed freshId hmethod hpath htype hbody hadmitted hhead
    have hread : Json.read? r.body = some (.object [("source", .string source)]) := by
      rw [hbody]
      exact Json.read?_render .document (.object (by simpa using .string source))
    have hserved := serve_of_asks hmode ⟨hmethod, hpath, htype, hread, hadmitted, hhead⟩ hsize elapsed freshId
    refine ⟨hserved, ?_⟩
    rw [hserved]
    change resultStatus (run mode source) ≠ 413
    unfold resultStatus
    split <;> decide

/-- A request whose source has characters that are escaped in its body. -/
def escapedRequest : Request :=
  ⟨"POST", "/v1/evaluate", [("Content-Type", "application/json")], sourceDocument "\"<\""⟩

theorem sent_source_runs_at :
    Json.growth "\"<\"" = 7 ∧ Server.admits ⟨1048576⟩ escapedRequest.body = true ∧
    (Server.serve ⟨1048576⟩ (.int 0) "" escapedRequest).response.status = 200 := by
  obtain ⟨-, hadmits, hruns⟩ :=
    sent_source_runs (show Settings.default.fault? = none by decide) (by decide)
      (show ("\"<\"".utf8ByteSize : Int) ≤ Settings.default.server.maxSourceSize by decide)
  have hadmitted := hadmits (by decide) (by decide)
  refine ⟨by decide, hadmitted, ?_⟩
  obtain ⟨hserved, -⟩ := hruns .evaluate (by decide) escapedRequest (.int 0) "" rfl (by decide +kernel)
    (by decide +kernel) rfl hadmitted (by decide +kernel)
  exact (congrArg Response.status hserved).trans (by decide)

/-- A source of as many bytes as the settings allow, most of them of a character with a long escape. -/
def crowdedSource : String :=
  "nil//" ++ String.ofList (List.replicate 203 '<')

/-- Settings that allow sources of as many bytes as the crowded one has. -/
def crowdedSettings : Settings :=
  { Settings.default with server := { Settings.default.server with maxSourceSize := 208 } }

/-- Not every source within the limit is let through: the escapes of one take more than the room for them,
and for another one the limit for bodies is a sum that does not fit 64 bits. -/
theorem sent_source_refused :
    (crowdedSettings.fault? = none ∧ Number.Word.fits crowdedSettings.server.maxSourceSize = true ∧
      crowdedSource.utf8ByteSize = crowdedSettings.server.maxSourceSize ∧
      Server.admits ⟨crowdedSettings.server.maxSourceSize⟩ (sourceDocument crowdedSource) = false) ∧
    ((String.ofList (List.replicate 4194304 'a')).utf8ByteSize ≤ Number.Word.greatest ∧
      Server.admits ⟨Number.Word.greatest⟩ (sourceDocument (String.ofList (List.replicate 4194304 'a'))) = false) := by
  have hsize : crowdedSource.utf8ByteSize = 208 := by
    rw [crowdedSource, String.utf8ByteSize_append, utf8ByteSize_replicate]
    rfl
  have hgrowth : Json.growth crowdedSource = 1015 := by
    rw [crowdedSource, Json.growth_append, Json.growth_replicate]
    decide
  have hrefused {server : Server} {source : String}
      (h : server.bodyLimit < source.utf8ByteSize + Json.growth source + 13) :
      server.admits (sourceDocument source) = false := by
    rw [Server.admits, decide_eq_false_iff_not, utf8ByteSize_sourceDocument]
    omega
  refine ⟨⟨by decide, by decide, by rw [hsize]; rfl, hrefused ?_⟩, ?_, hrefused ?_⟩
  · rw [hsize, hgrowth]
    decide
  · rw [utf8ByteSize_replicate]
    decide
  · rw [utf8ByteSize_replicate, Json.growth_replicate]
    decide

end Http

end Reckoner
