import Feedkeeper.Model
import Feedkeeper.Session
import Feedkeeper.Settings.EnvFile
import Feedkeeper.Settings.Load
import Feedkeeper.Proofs.Coverage
import Feedkeeper.Proofs.Once
import Feedkeeper.Proofs.Backing
import Feedkeeper.Proofs.Convergence
import Feedkeeper.Proofs.Withdrawal
import Feedkeeper.Proofs.Retry
import Feedkeeper.Proofs.Completion
import Feedkeeper.Proofs.Enqueueing
import Feedkeeper.Proofs.Effects
import Feedkeeper.Proofs.Batch
import Feedkeeper.Proofs.Interleaving
import Feedkeeper.Proofs.Settling
import Feedkeeper.Proofs.Resumption
import Feedkeeper.Proofs.Agreement
import Feedkeeper.Proofs.Independence
import Feedkeeper.Proofs.Custody
import Feedkeeper.Proofs.Model
import Feedkeeper.Proofs.Shutdown
import Feedkeeper.Proofs.Budget
import Feedkeeper.Proofs.Window
import Feedkeeper.Proofs.Verdicts
import Feedkeeper.Proofs.Joining
import Feedkeeper.Proofs.Waiting
import Feedkeeper.Proofs.Isolation
import Feedkeeper.Proofs.Limits
import Feedkeeper.Proofs.Remembrance
import Feedkeeper.Proofs.Lineup
import Feedkeeper.Proofs.Loading
import Feedkeeper.Proofs.Clearing
import Feedkeeper.Proofs.Rearrangement
