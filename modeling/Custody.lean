import Custody.Main
import Custody.Owner.Watch
import Custody.Session
import Custody.Proofs.Conservation
import Custody.Proofs.Refinement
import Custody.Proofs.SingleOwner
import Custody.Proofs.Queue
import Custody.Proofs.QueueWalks
import Custody.Proofs.Adoptions
import Custody.Proofs.Talk
import Custody.Proofs.Figures
import Custody.Proofs.StepTalk
import Custody.Proofs.LogAgreement
import Custody.Proofs.Tasks
import Custody.Proofs.SettingsBlind
import Custody.Proofs.Ending
import Custody.Proofs.Reports
import Custody.Proofs.Passes
import Custody.Proofs.NamedSteps
import Custody.Proofs.Interleavings
import Custody.Proofs.HandOff
import Custody.Proofs.Sums
import Custody.Proofs.WellFormed
import Custody.Proofs.Looking
import Custody.Proofs.ReadOnly
import Custody.Proofs.Chronicle
import Custody.Proofs.Views
import Custody.Proofs.Comparing
import Custody.Proofs.Storage
import Custody.Proofs.Differences
import Custody.Proofs.Listings
