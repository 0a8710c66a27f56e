import EmbeddedC.EntryTable.Direct
import EmbeddedC.Main
import EmbeddedC.Proofs.CallOrder
import EmbeddedC.Proofs.History
import EmbeddedC.Proofs.StateLifetime
import EmbeddedC.Proofs.TypeAgreement
import EmbeddedC.Proofs.Refusal
import EmbeddedC.Proofs.Encoding
import EmbeddedC.Proofs.ParallelRuns
import EmbeddedC.Proofs.MessageDelivery
import EmbeddedC.Proofs.Status
import EmbeddedC.Proofs.MappedRuns
import EmbeddedC.Proofs.Diagnostics
import EmbeddedC.Proofs.SymbolTable
import EmbeddedC.Proofs.ScriptedSymbols
import EmbeddedC.Proofs.Injection
import EmbeddedC.Proofs.Linkage
import EmbeddedC.Proofs.Resolution
import EmbeddedC.Proofs.Disposal
import EmbeddedC.Proofs.TaskErrands
import EmbeddedC.Proofs.Document
import EmbeddedC.Proofs.Opening
import EmbeddedC.Proofs.CreatedConfigured
import EmbeddedC.Proofs.DefaultType
import EmbeddedC.Proofs.Script
import EmbeddedC.Proofs.JobErrands
import EmbeddedC.Proofs.Command
import EmbeddedC.Proofs.SymbolRoster
import EmbeddedC.Proofs.Hook
import EmbeddedC.Proofs.Independence
import EmbeddedC.Proofs.Discovery
import EmbeddedC.Proofs.BoundaryText
import EmbeddedC.Proofs.StageChain
import EmbeddedC.Proofs.OutputName
import EmbeddedC.Proofs.Macro
