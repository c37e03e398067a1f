/-
The ids of requests. An id is kept if it is spelled in one of four notations, and any other text is replaced
by a fresh id. Whatever becomes of a request that the transport lets through, its response and all that is
logged for it carry the one id, and an id that came back with a response is kept when it is sent again. A
request that is refused for its size gets a response without an id.
-/
import Reckoner.Proofs.BodySize
import Reckoner.Proofs.FanOut
import Mathlib.Data.List.DropRight

namespace Reckoner.RequestId

/-! ## Notations -/

/-- A number of hexadecimal digits. -/
def Digits (n : Nat) (cs : List Char) : Prop :=
  cs.length = n ∧ ∀ c ∈ cs, isHexDigit c = true

/-- Groups of 8, 4, 4, 4 and 12 digits with dashes between them. -/
def Grouped (cs : List Char) : Prop :=
  ∃ a b c d e, Digits 8 a ∧ Digits 4 b ∧ Digits 4 c ∧ Digits 4 d ∧ Digits 12 e ∧
    cs = a ++ '-' :: (b ++ '-' :: (c ++ '-' :: (d ++ '-' :: e)))

/-- The four notations: the groups, the groups as a resource name, the groups between two characters of one
byte each, and digits without dashes. -/
inductive Spelled : List Char → Prop
  | grouped {cs} : Grouped cs → Spelled cs
  | resourceName {name cs} : name.map Char.toLower = "urn:uuid:".toList → Grouped cs → Spelled (name ++ cs)
  | braced {opening cs closing} : opening.toNat < 0x80 → closing.toNat < 0x80 → Grouped cs →
      Spelled (opening :: cs ++ [closing])
  | plain {cs} : Digits 32 cs → Spelled cs

/-- What is asked of the character at a position of the groups. -/
def fits (i : Nat) (c : Char) : Bool :=
  if i = 8 || i = 13 || i = 18 || i = 23 then c == '-' else isHexDigit c

theorem Grouped.length_eq {cs : List Char} (h : Grouped cs) : cs.length = 36 := by
  obtain ⟨a, b, c, d, e, ha, hb, hc, hd, he, rfl⟩ := h
  simp [ha.1, hb.1, hc.1, hd.1, he.1]

end Reckoner.RequestId

namespace Reckoner.Http

/-! ## Header fields -/

/-- The statuses of responses to known methods. -/
def statuses : List Nat :=
  [200, 400, 404, 405, 413, 422]

/-- Whatever serving a request led to, the response and all entries of the log carry an id. -/
structure Served.Carries (served : Served) (id : String) : Prop where
  status : served.response.status ∈ statuses
  response : served.response.requestId = some id
  entries : ∀ e ∈ served.entries, e.requestId = some id

section

variable (server : Server) (decode : Decoder) (elapsed : Log.AttrValue)

theorem Served.Carries.withoutBody {served : Served} {id : String} (h : served.Carries id) :
    Served.Carries { served with response := served.response.withoutBody } id :=
  ⟨h.status, h.response, h.entries⟩

end

end Reckoner.Http
