/-
Token streams: what a parser has still to read. The first token that marks an end ends the
stream for good, so a stream is the tokens before it together with that token.
-/
import Reckoner.Token

namespace Reckoner

/-- The tokens left to read, none of them an end, and the end that follows them. -/
structure TokenStream where
  pending : List Token
  final : Token

namespace TokenStream

/-- The end of a list of tokens: its first end token, or a new one on the line of the last token,
which is line 1 when there is none. -/
def finalOf (tokens : List Token) : Token :=
  match tokens.find? (·.kind == .eof) with
  | some t => t
  | none => .endAt (tokens.getLast?.elim 1 (·.line))

/-- The stream of a list of tokens. -/
def ofTokens (tokens : List Token) : TokenStream :=
  ⟨tokens.takeWhile (·.kind != .eof), finalOf tokens⟩

/-- The token to be read next. -/
def peek (s : TokenStream) : Token :=
  s.pending.head?.getD s.final

end TokenStream

end Reckoner
