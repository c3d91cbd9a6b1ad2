import ScriptBundle.Main
import ScriptBundle.Proofs.Lines
import ScriptBundle.Proofs.Scan
import ScriptBundle.Proofs.Build
import ScriptBundle.Proofs.Artifact
import ScriptBundle.Proofs.Lowering
import ScriptBundle.Proofs.Gate
import ScriptBundle.Proofs.Operations
import ScriptBundle.Proofs.Callback
import ScriptBundle.Proofs.Passes
import ScriptBundle.Proofs.Sweep
import ScriptBundle.Proofs.Parameters
import ScriptBundle.Proofs.Settled
import ScriptBundle.Proofs.Pieces
import ScriptBundle.Proofs.Agreement
import ScriptBundle.Proofs.Independence
import ScriptBundle.Proofs.LoadOrder
import ScriptBundle.Proofs.Production
import ScriptBundle.Proofs.JsonText
import ScriptBundle.Proofs.JsonSkip
import ScriptBundle.Proofs.ManifestText
import ScriptBundle.Proofs.Truncation
import ScriptBundle.Proofs.Accounting
import ScriptBundle.Proofs.FileTree
import ScriptBundle.Proofs.Path
import ScriptBundle.Proofs.Foresight
import ScriptBundle.Proofs.Invocation
import ScriptBundle.Proofs.Decoding
import ScriptBundle.Proofs.Simulation
import ScriptBundle.Proofs.FlatFolder
import ScriptBundle.Proofs.BrokenBytes
import ScriptBundle.Proofs.Grammar
import ScriptBundle.Proofs.Layout
import ScriptBundle.Proofs.LineEndings
import ScriptBundle.Proofs.Validity
import ScriptBundle.Proofs.History
import ScriptBundle.Proofs.Unlisted
import ScriptBundle.Proofs.Numbering
import ScriptBundle.Proofs.Kilobytes
