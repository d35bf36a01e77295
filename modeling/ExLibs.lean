import ExLibs.Math.Transition
import ExLibs.Math.BigEndian
import ExLibs.Network.Packet
import ExLibs.Network.Receive
import ExLibs.Network.Codec
import ExLibs.Network.Accounting
import ExLibs.Network.Chunks
import ExLibs.Network.Bounds
import ExLibs.Network.Framing
import ExLibs.Network.Truncation
import ExLibs.Network.Client.Machine
import ExLibs.Network.Client.Custody
import ExLibs.Network.Client.Bookkeeping
import ExLibs.Network.Client.Delivery
import ExLibs.Network.Client.Correlation
import ExLibs.Network.Client.Reconnect
import ExLibs.Util.EventQueue
import ExLibs.Network.Server.Delivery
import ExLibs.Network.Server.Wire
import ExLibs.Math.WaitGraph
import ExLibs.Network.Server.Teardown
import ExLibs.Network.Server.Sockets
import ExLibs.Network.Server.Lifetimes
import ExLibs.Network.Server.Deadlock
import ExLibs.IPC.Windows.Names
import ExLibs.Util.QueueThreads
import ExLibs.Util.Shutdown
import ExLibs.IPC.Transfer
import ExLibs.IPC.Windows.Worker
import ExLibs.Math.Loop
import ExLibs.IPC.Windows.Waiting
import ExLibs.Math.Ledger
import ExLibs.Math.Memory
import ExLibs.Math.OneSlot
import ExLibs.IPC.Windows.Server
import ExLibs.IPC.Windows.Posting
import ExLibs.IPC.Windows.Survival
import ExLibs.IPC.Windows.Sender
import ExLibs.IPC.Windows.Custody
import ExLibs.IPC.Windows.Handles
import ExLibs.IPC.Windows.Fidelity
import ExLibs.IPC.Unix.Data
import ExLibs.IPC.Unix.Descriptors
import ExLibs.IPC.Unix.Creation
import ExLibs.IPC.Unix.Server
import ExLibs.IPC.Unix.Mailbox
import ExLibs.IPC.Unix.Requests
import ExLibs.IPC.Windows.Response
import ExLibs.IPC.Response
import ExLibs.IPC.Unix.Exchange
import ExLibs.IPC.Unix.Correlation
import ExLibs.IPC.Unix.Ownership
import ExLibs.Util.WakeUps
import ExLibs.Base.Singleton
import ExLibs.Module.Base
import ExLibs.Module.Lifecycle
import ExLibs.Module.Hooks
import ExLibs.Module.Manager
import ExLibs.Module.Registration
import ExLibs.Module.Notify
import ExLibs.Math.SharedMutex
import ExLibs.Module.Locking
import ExLibs.Module.Shutdown
import ExLibs.String.Format
import ExLibs.String.Placeholders
import ExLibs.String.Scanning
import ExLibs.Math.Cut
import ExLibs.String.XString
import ExLibs.Math.Occurrences
import ExLibs.String.Replacing
import ExLibs.Math.Terminator
import ExLibs.String.Folding
import ExLibs.Util.File
import ExLibs.SQLite.Mgr
import ExLibs.SQLite.Retries
import ExLibs.SQLite.Schema
import ExLibs.Math.Record
import ExLibs.SQLite.Handles
import ExLibs.Math.Cursor
import ExLibs.SQLite.Stmt
import ExLibs.QT.LoadingCircle
import ExLibs.IPC.Windows.Mutex
import ExLibs.Math.Register
import ExLibs.Util.Uuid
import ExLibs.Network.Listener
import ExLibs.Network.Connection
import ExLibs.Network.SecureConnection
import ExLibs.String.Templates
import ExLibs.Math.Sections
import ExLibs.Math.Guards
import ExLibs.IPC.Unix.Semaphores
import ExLibs.IPC.Windows.Mutexes
import ExLibs.Network.Server.Conversation
import ExLibs.Network.Server.Released
import ExLibs.QT.Sweep
import ExLibs.Windows.Restart
