import Handover.Proofs.Act
import Handover.Rehearsal.Paging
import Handover.Rehearsal.Stage
import Handover.Rehearsal.Traversal
import Handover.Selection
import Handover.Sweeper
import Handover.Proofs.Answered
import Handover.Proofs.Content
import Handover.Proofs.FileTree
import Handover.Proofs.Line
import Handover.Proofs.ExportContent
import Handover.Proofs.Interruption
import Handover.Proofs.Course
import Handover.Proofs.RegistryCourse
import Handover.Proofs.Accounting
import Handover.Proofs.Reachable
import Handover.Proofs.Refusal
import Handover.Proofs.Retrieval
import Handover.Proofs.Pending
import Handover.Proofs.Expiry
import Handover.Proofs.Session
import Handover.Proofs.Retention
import Handover.Proofs.WorkerCourse
import Handover.Proofs.Parallel
import Handover.Proofs.Alike
import Handover.Proofs.Isolation
import Handover.Proofs.Backends
import Handover.Proofs.Leftovers
import Handover.Proofs.Shelves
import Handover.Proofs.Transcript
import Handover.Proofs.Unseen
import Handover.Proofs.KeyOrder
import Handover.Proofs.Reading
import Handover.Proofs.Skipping
import Handover.Proofs.Inward
import Handover.Proofs.Tending
import Handover.Proofs.Kindred
import Handover.Proofs.Sweeping
import Handover.Proofs.Restarted
import Handover.Proofs.Polling
import Handover.Proofs.Turns
import Handover.Proofs.PollingCourse
import Handover.Proofs.Finality
import Handover.Proofs.Underway
import Handover.Proofs.Situation
import Handover.Proofs.Endpoints
import Handover.Proofs.Addresses
import Handover.Proofs.PagedReading
import Handover.Proofs.WindowReading
import Handover.Proofs.Telling
import Handover.Proofs.Closing
import Handover.Proofs.Parts
import Handover.Proofs.Failing
import Handover.Proofs.Copies
import Handover.Proofs.Writing
import Handover.Proofs.Reordering
import Handover.Proofs.Waiting
import Handover.Proofs.Dealings
