import Stencil.Generator.Script
import Stencil.Keyword.Recipe
import Stencil.Options.Document
import Stencil.Pattern.Encoding
import Stencil.Proofs.Pattern.Counts
import Stencil.Proofs.Pattern.Offsets
import Stencil.Table.Lemmas
import Stencil.Text.Quoted
import Stencil.Proofs.Pattern.Grammar
import Stencil.Proofs.Pattern.Escape
import Stencil.Proofs.Pattern.RoundTrip
import Stencil.Proofs.Random.Shuffle
import Stencil.Proofs.Pattern.Sample
import Stencil.Proofs.Form.Stream
import Stencil.Proofs.Generator.Script
import Stencil.Proofs.Lines.Output
import Stencil.Proofs.Generator.Reread
import Stencil.Proofs.Form.Classification
import Stencil.Proofs.Form.DrawShape
import Stencil.Proofs.Generator.Partway
import Stencil.Proofs.Generator.Threads
import Stencil.Proofs.Lines.Front
import Stencil.Proofs.Form.Once
import Stencil.Proofs.Generator.Evaluations
import Stencil.Proofs.Template.Directive
import Stencil.Proofs.Form.Fault
import Stencil.Proofs.Pattern.Refusal
import Stencil.Proofs.Pattern.Outcome
import Stencil.Proofs.Random.Reach
import Stencil.Proofs.Random.EveryOrder
import Stencil.Proofs.Pattern.EveryText
import Stencil.Proofs.Random.Uuid
import Stencil.Proofs.Keyword.History
import Stencil.Proofs.Table.OneKey
import Stencil.Proofs.Form.Silent
import Stencil.Proofs.Form.Unrelated
import Stencil.Proofs.Json.Alike
import Stencil.Proofs.Json.Blanks
import Stencil.Proofs.Generator.Relisting
import Stencil.Proofs.Form.Events
import Stencil.Proofs.Generator.Supply
import Stencil.Proofs.Pattern.Runs
import Stencil.Proofs.Generator.Events
