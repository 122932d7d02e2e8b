import AffineSwarm.Formula.Json
import AffineSwarm.Ledger.Json
import AffineSwarm.Main
import AffineSwarm.Proofs.Engine.Acknowledgement
import AffineSwarm.Proofs.Engine.Authenticity
import AffineSwarm.Proofs.Engine.Conservation
import AffineSwarm.Proofs.Engine.Discovery
import AffineSwarm.Proofs.Engine.Membership
import AffineSwarm.Proofs.Engine.Rejection
import AffineSwarm.Proofs.Engine.Roster
import AffineSwarm.Proofs.Engine.SendFailure
import AffineSwarm.Proofs.Engine.Stopping
import AffineSwarm.Proofs.Engine.Storm
import AffineSwarm.Proofs.Engine.Timing
import AffineSwarm.Proofs.Event.Queue
import AffineSwarm.Proofs.Gene.Stored
import AffineSwarm.Proofs.Gene.Text
import AffineSwarm.Proofs.Ledger.Export
import AffineSwarm.Proofs.Node.Draining
import AffineSwarm.Proofs.Node.Migration
import AffineSwarm.Proofs.Node.Starting
import AffineSwarm.Proofs.Pool.Convergence
import AffineSwarm.Proofs.Pool.Displacement
import AffineSwarm.Proofs.Pool.Elite
import AffineSwarm.Proofs.Pool.Invariant
import AffineSwarm.Proofs.Pool.Reordering
import AffineSwarm.Proofs.Pool.Report
import AffineSwarm.Proofs.Pool.Succession
import AffineSwarm.Proofs.Pool.Training
