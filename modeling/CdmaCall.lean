import CdmaCall.Cli.Disk
import CdmaCall.Config.Json
import CdmaCall.Dispatcher
import CdmaCall.Dtmf.Bench
import CdmaCall.Main
import CdmaCall.Proofs.Dtmf.Confirmation
import CdmaCall.Proofs.Dtmf.Ledger
import CdmaCall.Proofs.Dtmf.Outstanding
import CdmaCall.Proofs.Dtmf.WaitLoop
import CdmaCall.Proofs.Dtmf.Calm
import CdmaCall.Proofs.Dtmf.Draining
import CdmaCall.Proofs.Waiting.Clearing
import CdmaCall.Proofs.Session.Attendance
import CdmaCall.Proofs.Session.Changes
import CdmaCall.Proofs.Lifecycle.Notices
import CdmaCall.Proofs.Lifecycle.Ending
import CdmaCall.Proofs.Session.Setup
import CdmaCall.Proofs.Lifecycle.Closed
import CdmaCall.Proofs.Secrecy.Redaction
import CdmaCall.Proofs.Secrecy.Runs
import CdmaCall.Proofs.Secrecy.Digits
import CdmaCall.Proofs.World.Network
import CdmaCall.Proofs.Emergency.Cue
import CdmaCall.Proofs.Line.Subscriptions
import CdmaCall.Proofs.Line.Correction
import CdmaCall.Proofs.Waiting.Decision
import CdmaCall.Proofs.Dtmf.Handover
import CdmaCall.Proofs.Dtmf.Stopping
import CdmaCall.Proofs.Session.Isolation
import CdmaCall.Proofs.Session.Deliveries
import CdmaCall.Proofs.Session.Clone
import CdmaCall.Proofs.Session.Advance
import CdmaCall.Proofs.Lifecycle.Snapshots
import CdmaCall.Proofs.Dtmf.Alphabet
import CdmaCall.Proofs.Dispatch.Delivery
import CdmaCall.Proofs.Lifecycle.Rejection
import CdmaCall.Proofs.Session.Failure
import CdmaCall.Proofs.Waiting.Generations
import CdmaCall.Proofs.Config.Validation
import CdmaCall.Proofs.Config.Spelling
import CdmaCall.Proofs.Config.Loading
import CdmaCall.Proofs.Dtmf.Holding
import CdmaCall.Proofs.Dtmf.Counting
import CdmaCall.Proofs.Lifecycle.Override
import CdmaCall.Proofs.Session.Commuting
import CdmaCall.Proofs.Scenario.Outcomes
