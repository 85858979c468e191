import DistributedMonitor.Library.TicketExclusion
import DistributedMonitor.Library.Registration
import DistributedMonitor.Progress
import DistributedMonitor.Entry
import DistributedMonitor.Notification
import DistributedMonitor.WaitTable
import DistributedMonitor.Handover
import DistributedMonitor.Barrier
import DistributedMonitor.Overtaking
import DistributedMonitor.Waiters
import DistributedMonitor.Isolation
import DistributedMonitor.WaitingEntry
import DistributedMonitor.ScopedLock
import DistributedMonitor.Replacement
import DistributedMonitor.Buffer
import DistributedMonitor.Routing
import DistributedMonitor.Signals
import DistributedMonitor.Timeout
import DistributedMonitor.Probing
import DistributedMonitor.LockInversion
import DistributedMonitor.LockProgress
import DistributedMonitor.Rendezvous
import DistributedMonitor.Work
import DistributedMonitor.Discipline
import DistributedMonitor.Rest
import DistributedMonitor.Atomicity
import DistributedMonitor.Library.RingQueue
import DistributedMonitor.Linearization
import DistributedMonitor.ProducerConsumer
import DistributedMonitor.Realization
import DistributedMonitor.WiredEntries
import DistributedMonitor.WiredProgress
import DistributedMonitor.Unbuffered
import DistributedMonitor.LocalQueue
import DistributedMonitor.LocalProgress
