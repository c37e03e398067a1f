import Reckoner.Main
import Reckoner.Http.Server
import Reckoner.Nodes.Source
import Reckoner.Proofs.Grammar
import Reckoner.Proofs.Lexicon
import Reckoner.Proofs.Number.Bits
import Reckoner.Proofs.Number.Nearest
import Reckoner.Proofs.Number.Display
import Reckoner.Proofs.ReadBack
import Reckoner.Proofs.Guarded.Access
import Reckoner.Proofs.Guarded.Scanner
import Reckoner.Proofs.Guarded.Cursor
import Reckoner.Proofs.Guarded.Run
import Reckoner.Proofs.RunShape
import Reckoner.Proofs.Lines
import Reckoner.Proofs.Correspondence
import Reckoner.Proofs.Spacing
import Reckoner.Proofs.JsonText
import Reckoner.Proofs.Quiet
import Reckoner.Proofs.FrontEnds
import Reckoner.Proofs.Rounds
import Reckoner.Proofs.Refinement
import Reckoner.Proofs.Responses
import Reckoner.Proofs.BodySize
import Reckoner.Proofs.Viable
import Reckoner.Proofs.Guarded.Calls
import Reckoner.Proofs.Parentheses
import Reckoner.Proofs.Records
import Reckoner.Proofs.Precedence
import Reckoner.Proofs.Typing
import Reckoner.Proofs.FirstFailure
import Reckoner.Proofs.LineEnds
import Reckoner.Proofs.PrintedTree
import Reckoner.Proofs.Recovery
import Reckoner.Proofs.Number.Shortest
import Reckoner.Proofs.FailingOutput
import Reckoner.Proofs.FileCommands
import Reckoner.Proofs.LogLines
import Reckoner.Proofs.FanOut
import Reckoner.Proofs.RequestIds
import Reckoner.Proofs.Words
import Reckoner.Proofs.Nodes.Specs
import Reckoner.Proofs.Guarded.Passes
import Reckoner.Proofs.Nodes.Plans
import Reckoner.Proofs.Nodes.Outline
import Reckoner.Proofs.Nodes.Spelling
import Reckoner.Proofs.Nodes.Tokens
import Reckoner.Proofs.Nodes.Fragments
import Reckoner.Proofs.Nodes.Clause
import Reckoner.Proofs.Nodes.Lines
import Reckoner.Proofs.Nodes.Faithful
