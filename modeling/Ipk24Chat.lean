import Ipk24Chat.Memory
import Ipk24Chat.Program
import Ipk24Chat.Threads
import Ipk24Chat.Utils
import Ipk24Chat.Buffer
import Ipk24Chat.Protocol
import Ipk24Chat.Disassemble
import Ipk24Chat.UserInput
import Ipk24Chat.Queue
import Ipk24Chat.Chain
import Ipk24Chat.HeapQueue
import Ipk24Chat.Client
import Ipk24Chat.Effects
import Ipk24Chat.Receiver
import Ipk24Chat.Sender
import Ipk24Chat.MainLoop
import Ipk24Chat.Run
import Ipk24Chat.Execution
import Ipk24Chat.Transparency
import Ipk24Chat.Encoding
import Ipk24Chat.RoundTrip
import Ipk24Chat.Footprint
import Ipk24Chat.Segmentation
import Ipk24Chat.Acceptance
import Ipk24Chat.AuthGate
import Ipk24Chat.Capacity
import Ipk24Chat.WellFormed
import Ipk24Chat.Display
import Ipk24Chat.ReplyGate
import Ipk24Chat.QueueHead
import Ipk24Chat.HeadPresent
import Ipk24Chat.WholePass
import Ipk24Chat.Confirm
import Ipk24Chat.MessageId
import Ipk24Chat.Numbering
import Ipk24Chat.StopAndWait
import Ipk24Chat.RetryBound
import Ipk24Chat.Absorbing
import Ipk24Chat.Channel
import Ipk24Chat.SenderPass
import Ipk24Chat.Delivery
import Ipk24Chat.Counter
import Ipk24Chat.Scanning
import Ipk24Chat.DecodeUDP
import Ipk24Chat.DecodeTCP
import Ipk24Chat.Leftover
import Ipk24Chat.Parsing
import Ipk24Chat.Recognition
import Ipk24Chat.Reading
import Ipk24Chat.Arguments
import Ipk24Chat.Agreement
import Ipk24Chat.ErrorReport
import Ipk24Chat.FilterPass
import Ipk24Chat.LockWatch
import Ipk24Chat.LockDiscipline
import Ipk24Chat.Silence
import Ipk24Chat.Stdin
import Ipk24Chat.Refusal
import Ipk24Chat.Matching
import Ipk24Chat.Acknowledged
import Ipk24Chat.Dropping
import Ipk24Chat.Waking
import Ipk24Chat.Shutdown
import Ipk24Chat.Attendance
import Ipk24Chat.Outgoing
import Ipk24Chat.Network
import Ipk24Chat.TestServer
import Ipk24Chat.ClosedSystem
import Ipk24Chat.Echo
import Ipk24Chat.Ownership
import Ipk24Chat.Queues
import Ipk24Chat.Drain
import Ipk24Chat.Causes
import Ipk24Chat.Diagram
import Ipk24Chat.Transitions
import Ipk24Chat.Outstanding
