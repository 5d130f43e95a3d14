import LvlIp.Foundations.OrbitField
import LvlIp.Foundations.CoeffList
import LvlIp.Foundations.Stream
import LvlIp.Fec.Gf256
import LvlIp.Fec.Poly
import LvlIp.Fec.Codec
import LvlIp.Fec.CodecCorrect
import LvlIp.Fec.Inverse
import LvlIp.Fec.Recoverable
import LvlIp.Fec.Frame
import LvlIp.Tcp.Sock
import LvlIp.Tcp.Options
import LvlIp.Tcp.Output
import LvlIp.Tcp.Link
import LvlIp.Tcp.Data
import LvlIp.Tcp.FecInput
import LvlIp.Tcp.Input
import LvlIp.Tcp.Api
import LvlIp.Tcp.Events
import LvlIp.Receive.View
import LvlIp.Receive.Coding
import LvlIp.Receive.Recover
import LvlIp.Receive.Ring
import LvlIp.Receive.Stream
import LvlIp.Send.View
import LvlIp.Send.Steps
import LvlIp.Send.Queue
import LvlIp.Send.Order
import LvlIp.Send.Repair
import LvlIp.Send.Layout
import LvlIp.Send.Base
import LvlIp.Send.Alive
import LvlIp.Send.Slots
import LvlIp.Receive.Reorder
import LvlIp.Receive.Calls
import LvlIp.Receive.Parity
import LvlIp.Receive.Ofo
import LvlIp.Shift.Range
import LvlIp.Shift.Window
import LvlIp.Shift.Send
import LvlIp.Handshake.Pair
import LvlIp.Handshake.Synsent
import LvlIp.Handshake.Received
import LvlIp.Lifecycle.Moves
import LvlIp.Lifecycle.Close
import LvlIp.Lifecycle.Done
import LvlIp.Foundations.Newest
import LvlIp.Receive.Newest
import LvlIp.Receive.Eof
import LvlIp.Tcp.Datagram
import LvlIp.Receive.FecKept
import LvlIp.Receive.SackSound
import LvlIp.Receive.Rebuilt
import LvlIp.Receive.Validated
import LvlIp.Receive.Bounds
import LvlIp.Send.Flight
import LvlIp.Send.Moves
import LvlIp.Send.Kept
import LvlIp.Send.Resend
import LvlIp.Lifecycle.FinAcked
import LvlIp.Send.Orphans
import LvlIp.Foundations.OnesComplement
import LvlIp.Tcp.Checksum
import LvlIp.Tcp.Walk
import LvlIp.Ip.Input
import LvlIp.Ip.Lengths
import LvlIp.Foundations.Runs
import LvlIp.Receive.SackRest
import LvlIp.Receive.Sack
import LvlIp.Handshake.Agreement
import LvlIp.Handshake.Negotiation
import LvlIp.Shift.Acked
import LvlIp.Foundations.Layout
import LvlIp.Ipc.Wire
import LvlIp.Ipc.Daemon
import LvlIp.Ipc.Client
import LvlIp.Ipc.Framing
import LvlIp.Ip.Checksum
import LvlIp.Ip.Arp
import LvlIp.Ipc.Poll
import LvlIp.Timers.Tick
import LvlIp.Socket.Balance
import LvlIp.Timers.RtoMoves
import LvlIp.Timers.Backoff
import LvlIp.Timers.OneLive
import LvlIp.Send.Built
import LvlIp.Send.Alike
import LvlIp.Ip.Frames
import LvlIp.Ip.RoundTrip
import LvlIp.Ip.Lan
import LvlIp.EndToEnd.Pieces
import LvlIp.EndToEnd.Flow
import LvlIp.EndToEnd.Acks
import LvlIp.EndToEnd.Host
import LvlIp.EndToEnd.Integrity
import LvlIp.EndToEnd.Delivery
import LvlIp.Foundations.Ring
import LvlIp.Memory.Skbuff
import LvlIp.Memory.Data
import LvlIp.Memory.Runs
import LvlIp.Foundations.Lock
import LvlIp.Socket.Notify
import LvlIp.Socket.Wakeup
