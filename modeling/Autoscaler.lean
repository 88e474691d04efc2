import Autoscaler.Capacity.Lemmas
import Autoscaler.Main
import Autoscaler.Proofs.Enforcement.Reservation
import Autoscaler.Proofs.Enforcement.Decision
import Autoscaler.Proofs.Enforcement.Plan
import Autoscaler.Proofs.Enforcement.Totals
import Autoscaler.Proofs.Fleet.Provisioning
import Autoscaler.Proofs.Fleet.Totals
import Autoscaler.Proofs.Enforcement.Disagreement
import Autoscaler.Proofs.Enforcement.Sequence
import Autoscaler.Proofs.Fleet.History
import Autoscaler.Proofs.Fleet.Share
import Autoscaler.Proofs.Fleet.Isolation
import Autoscaler.Proofs.Fleet.Bookkeeping
import Autoscaler.Proofs.Fleet.Lifecycle
import Autoscaler.Proofs.Fleet.Turns
import Autoscaler.Proofs.Enforcement.History
import Autoscaler.Proofs.Enforcement.Undivided
import Autoscaler.Proofs.Fleet.Cooldown
import Autoscaler.Proofs.Fleet.FirstTick
import Autoscaler.Proofs.Traversal
import Autoscaler.Proofs.Zone.Text
import Autoscaler.Proofs.Fleet.Registration
import Autoscaler.Proofs.Settings.Resolution
import Autoscaler.Proofs.Enforcement.Direction
import Autoscaler.Proofs.Fleet.Drift
import Autoscaler.Proofs.Enforcement.Steps
import Autoscaler.Proofs.Enforcement.Standing
import Autoscaler.Proofs.Document.Settings
import Autoscaler.Proofs.Enforcement.Deadline
import Autoscaler.Proofs.Enforcement.Evaluation
import Autoscaler.Proofs.Enforcement.Justification
import Autoscaler.Proofs.Settings.DefaultTotals
import Autoscaler.Proofs.Enforcement.Marker
import Autoscaler.Proofs.Enforcement.Faults
import Autoscaler.Proofs.Enforcement.Unordered
import Autoscaler.Proofs.Enforcement.RuleOrder
import Autoscaler.Proofs.Enforcement.Feedback
import Autoscaler.Proofs.Zone.Grammar
import Autoscaler.Proofs.Enforcement.Simultaneous
import Autoscaler.Proofs.Enforcement.Dependence
import Autoscaler.Proofs.Duration.Text
import Autoscaler.Proofs.Statistic.Id
import Autoscaler.Proofs.Capacity.Order
import Autoscaler.Proofs.Capacity.Composition
import Autoscaler.Proofs.Statistic.Snapshot
import Autoscaler.Proofs.Settings.Respelling
import Autoscaler.Proofs.Capacity.Sum
import Autoscaler.Proofs.Zone.Edits
