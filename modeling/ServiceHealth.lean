import ServiceHealth.Log.Reader
import ServiceHealth.Metrics.Reader
import ServiceHealth.Service.Command
import ServiceHealth.Shutdown.Channel
import ServiceHealth.Main
import ServiceHealth.Proofs.AllOrNothing
import ServiceHealth.Proofs.Bodies
import ServiceHealth.Proofs.Counters
import ServiceHealth.Proofs.Deadlines
import ServiceHealth.Proofs.Documents
import ServiceHealth.Proofs.Duration
import ServiceHealth.Proofs.Fields
import ServiceHealth.Proofs.Finality
import ServiceHealth.Proofs.Finished
import ServiceHealth.Proofs.Gauges
import ServiceHealth.Proofs.Liveness
import ServiceHealth.Proofs.Snapshot
import ServiceHealth.Proofs.Wakeups
import ServiceHealth.Proofs.Addresses
import ServiceHealth.Proofs.Spellings
import ServiceHealth.Proofs.Stopped
import ServiceHealth.Proofs.Delivered
import ServiceHealth.Proofs.Scraped
import ServiceHealth.Proofs.Requests
import ServiceHealth.Proofs.Together
import ServiceHealth.Proofs.Calendar
import ServiceHealth.Proofs.Collation
import ServiceHealth.Proofs.Stamps
import ServiceHealth.Proofs.Roster
import ServiceHealth.Proofs.Rounded
