import Stencil.Token
import Stencil.Error
import Stencil.Text
import Stencil.Tag
import Stencil.Cursor
import Stencil.Scanner
import Stencil.Bindings
import Stencil.Environment
import Stencil.Sink
import Stencil.Journal
import Stencil.Rendering
import Stencil.Session
import Stencil.CommandLine.Binding
import Stencil.CommandLine.Display
import Stencil.CommandLine.Report
import Stencil.CommandLine.Arguments
import Stencil.CommandLine.Run
import Stencil.CommandLine.Folder
import Stencil.Main
import Stencil.Proofs.Readings
import Stencil.Proofs.Rewinding
import Stencil.Proofs.Locations
import Stencil.Proofs.Bytes
import Stencil.Proofs.Bytewise
import Stencil.Proofs.Progress
import Stencil.Proofs.Grammar
import Stencil.Proofs.Outline
import Stencil.Proofs.Execution
import Stencil.Proofs.Walks
import Stencil.Proofs.Cuts
import Stencil.Proofs.Sessions
import Stencil.Proofs.Interruption
import Stencil.Proofs.Verdict
import Stencil.Proofs.Evaluation
import Stencil.Proofs.Contracts
import Stencil.Proofs.Pairs
import Stencil.Proofs.Records
import Stencil.Proofs.Brackets
import Stencil.Proofs.Refusals
import Stencil.Proofs.Contents
import Stencil.Proofs.Unrolling
import Stencil.Proofs.Expressible
import Stencil.Proofs.Exits
import Stencil.Proofs.BindingTexts
import Stencil.Proofs.Recursion
import Stencil.Proofs.Descent
import Stencil.Proofs.Shifts
import Stencil.Proofs.Twins
import Stencil.Proofs.Concatenation
import Stencil.Proofs.Verbatim
import Stencil.Proofs.Frames
import Stencil.Proofs.Nesting
import Stencil.Proofs.Sites
import Stencil.Proofs.Spacing
import Stencil.Proofs.Messages
