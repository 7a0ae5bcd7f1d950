import ScriptLinker.Config.Read
import ScriptLinker.Proofs.Affordability
import ScriptLinker.Proofs.Atomicity
import ScriptLinker.Proofs.Balance
import ScriptLinker.Proofs.Collection
import ScriptLinker.Proofs.Contents
import ScriptLinker.Proofs.Custody
import ScriptLinker.Proofs.Edges
import ScriptLinker.Proofs.Enclosing
import ScriptLinker.Proofs.Failures
import ScriptLinker.Proofs.Images
import ScriptLinker.Proofs.Injection
import ScriptLinker.Proofs.Leases
import ScriptLinker.Proofs.Lossy
import ScriptLinker.Proofs.Reservation
import ScriptLinker.Proofs.Rollback
import ScriptLinker.Proofs.RootScopes
import ScriptLinker.Proofs.Schema
import ScriptLinker.Proofs.Sealing
import ScriptLinker.Proofs.Setup
import ScriptLinker.Proofs.SlotTable
import ScriptLinker.Proofs.Storage
import ScriptLinker.Proofs.StoreBuffer
import ScriptLinker.Proofs.Texts
import ScriptLinker.Proofs.Timing
import ScriptLinker.Proofs.Validation
import ScriptLinker.Session.BridgeBench
import ScriptLinker.Session.ContextBench
import ScriptLinker.Proofs.Turnover
