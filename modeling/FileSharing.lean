import FileSharing.Database.Advance
import FileSharing.Database.Announced
import FileSharing.Database.Answering
import FileSharing.Database.Capacities
import FileSharing.Database.Casts
import FileSharing.Database.Children
import FileSharing.Database.Chunks
import FileSharing.Database.Commits
import FileSharing.Database.Completion
import FileSharing.Database.Consensus
import FileSharing.Database.Correspondence
import FileSharing.Database.Cutting
import FileSharing.Database.Evolution
import FileSharing.Database.Idle
import FileSharing.Database.Inserts
import FileSharing.Database.Layout
import FileSharing.Database.Lengths
import FileSharing.Database.Made
import FileSharing.Database.Mailed
import FileSharing.Database.Md5
import FileSharing.Database.Message
import FileSharing.Database.Negotiation
import FileSharing.Database.Once
import FileSharing.Database.Operations
import FileSharing.Database.ReadBack
import FileSharing.Database.Reassembly
import FileSharing.Database.Repetition
import FileSharing.Database.Replies
import FileSharing.Database.Requests
import FileSharing.Database.Routing
import FileSharing.Database.RunJobs
import FileSharing.Database.Schema
import FileSharing.Database.Single
import FileSharing.Database.Splitting
import FileSharing.Database.Statements
import FileSharing.Database.Transit
import FileSharing.Database.Tree
import FileSharing.Database.Values
import FileSharing.Library.Bisimulations
import FileSharing.Library.Chains
import FileSharing.Library.Connections
import FileSharing.Library.Fallible
import FileSharing.Library.Fields
import FileSharing.Library.Groups
import FileSharing.Library.Lines
import FileSharing.Library.Measures
import FileSharing.Library.Memory
import FileSharing.Library.Overlay
import FileSharing.Library.Pairing
import FileSharing.Library.Runs
import FileSharing.Library.Slots
import FileSharing.Library.Transfers
import FileSharing.Network.Addresses
import FileSharing.Network.Agreement
import FileSharing.Network.Arrivals
import FileSharing.Network.Awaiting
import FileSharing.Network.Delivery
import FileSharing.Network.InitialExchange
import FileSharing.Network.InitialSender
import FileSharing.Network.Peers
import FileSharing.Receiver.Bytes
import FileSharing.Receiver.Connections
import FileSharing.Receiver.DataBlock
import FileSharing.Receiver.Deletion
import FileSharing.Receiver.Exchange
import FileSharing.Receiver.Framing
import FileSharing.Receiver.HashTable
import FileSharing.Receiver.Reception
import FileSharing.Receiver.Resting
import FileSharing.Receiver.Reuse
import FileSharing.Receiver.Wakeups
import FileSharing.Sender.Bytes
import FileSharing.Sender.Connections
import FileSharing.Sender.Conservation
import FileSharing.Sender.Descriptors
import FileSharing.Sender.Draining
import FileSharing.Sender.Giving
import FileSharing.Sender.Priorities
import FileSharing.Sender.Progress
import FileSharing.Sender.Restart
import FileSharing.Sender.Sending
import FileSharing.Sender.Sockets
import FileSharing.Sender.System
import FileSharing.Sender.Transactions
import FileSharing.Shared.Bitmap
import FileSharing.Shared.Partition
import FileSharing.Shared.Records
import FileSharing.Shared.Refinement
import FileSharing.User.Menu
