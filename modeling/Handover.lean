import Handover.Main
import Handover.Exchange
import Handover.Notifier
import Handover.Rehearsal.Node
import Handover.Rehearsal.Serve
import Handover.Share.Capacity
import Handover.Proofs.Alone
import Handover.Proofs.Balance
import Handover.Proofs.JobsReclaimed
import Handover.Proofs.RowsReclaimed
import Handover.Proofs.Leftover
import Handover.Proofs.SharedIds
import Handover.Proofs.Orderly
import Handover.Proofs.Cascade
import Handover.Proofs.Fencing
import Handover.Proofs.Transcript
import Handover.Proofs.Grounds
import Handover.Proofs.Resets
import Handover.Proofs.Reassigns
import Handover.Proofs.Activations
import Handover.Proofs.Cancelled
import Handover.Proofs.Standby
import Handover.Proofs.Cleared
import Handover.Proofs.Findings
import Handover.Proofs.Refound
import Handover.Proofs.Repeats
import Handover.Proofs.Lifecycle
import Handover.Proofs.Tenure
import Handover.Proofs.Broadcast
import Handover.Proofs.Allotment
import Handover.Proofs.Versions
import Handover.Proofs.Following
import Handover.Proofs.Weighted
import Handover.Proofs.Recording
import Handover.Proofs.LastRow
import Handover.Proofs.Walks
import Handover.Proofs.Expiry
import Handover.Proofs.Backoff
import Handover.Proofs.Placement
import Handover.Proofs.Abreast
import Handover.Proofs.Foreign
import Handover.Proofs.Rerecording
import Handover.Proofs.Triggers
import Handover.Proofs.PeerLists
