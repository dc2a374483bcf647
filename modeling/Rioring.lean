import Rioring.View
import Rioring.Ownership
import Rioring.Ownership.Step
import Rioring.View.Submit
import Rioring.View.Calls
import Rioring.View.Servers
import Rioring.View.Objects
import Rioring.View.Complete
import Rioring.Outbound
import Rioring.View.Run
import Rioring.Outbound.Sending
import Rioring.Outbound.Run
import Rioring.Tcp.Sending
import Rioring.Tcp.Closing
import Rioring.Udp.Sending
import Rioring.Inbound
import Rioring.Udp.Receiving
import Rioring.Tcp.Recycling
import Rioring.Tcp.Listening
import Rioring.Descriptors
import Rioring.Tcp.Receiving
import Rioring.Outbound.Storage
import Rioring.Termination
import Rioring.Tcp.Disconnect
import Rioring.Tcp.SendComplete
import Rioring.Ownership.Circulation
import Rioring.Ownership.Exclusive
import Rioring.Ownership.Conservation
import Rioring.Service
import Rioring.Service.Stopping
import Rioring.Windows.Sending
import Rioring.Windows.Stream
import Rioring.Locking
import Rioring.Locking.Callbacks
import Rioring.Locking.Reentry
import Rioring.Tcp.Reconnect
import Rioring.Windows.Reconnect
import Rioring.Buffer.Growth
import Rioring.Buffer.Queue
import Rioring.Buffer.DoubleQueue
import Rioring.Tcp.Connecting
import Rioring.Tcp.Stopping
import Rioring.Udp.Rejection
import Rioring.Udp.Lengths
import Rioring.Tcp.Accepting
import Rioring.Framing
import Rioring.Chat.Scheme
import Rioring.Chat.Receiver
import Rioring.Chat.Lines
import Rioring.View.Threads
import Rioring.View.Registration
import Rioring.Tcp.Activation
import Rioring.Service.Serial
import Rioring.Chat.Callbacks
import Rioring.Chat.Server
import Rioring.Chat.Requests
import Rioring.Relay
import Rioring.Tcp.Liveness
import Rioring.Chat.Broadcast
import Rioring.Chat.Words
import Rioring.Network
import Rioring.Tcp.EndToEnd
import Rioring.Chat.Client
import Rioring.Chat.Delivery
import Rioring.Echo.Returned
import Rioring.Inbound.Intake
import Rioring.Receiver.Stream
import Rioring.Receiver.Completion
