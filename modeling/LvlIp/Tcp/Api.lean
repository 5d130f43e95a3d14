import LvlIp.Tcp.Input

/-!
# The user's calls

`tcp_write`, `tcp_read` and `tcp_close` of `src/tcp.c`, and `tcp_receive` of `src/tcp_input.c`. A
blocking read gives up the socket while it sleeps, so a read is a sequence of steps: its call, and
one step each time it is woken.
-/

namespace LvlIp.Tcp

/-- `-EBADF`. -/
def eBadf : ℤ := -9

/-- `-EAGAIN`. -/
def eAgain : ℤ := -11

/-- `tcp_write` reaches `tcp_send`. -/
def TcpSock.writable (s : TcpSock) : Bool :=
  s.err == 0 && (s.state == .established || s.state == .closeWait)

/-- `tcp_write`. -/
def tcpWrite (env : Env) (s : TcpSock) (buf : List UInt8) : TcpSock × ℤ :=
  if s.err ≠ 0 then (s, s.err)
  else
    match s.state with
    | .established | .closeWait => (tcpSend env s buf, buf.length)
    | _ => (s, eBadf)

/-- A call of `tcp_read` that is under way: the bytes copied so far, and the room left. -/
structure Reader where
  got : List UInt8
  room : ℕ
deriving DecidableEq

/-- How a step of a read ends. -/
inductive ReadResult
  | done (ret : ℤ) (bytes : List UInt8)
  | wait (reader : Reader)
deriving DecidableEq

/-- The end of `tcp_receive`. -/
def tcpReceiveReturn (s : TcpSock) (got : List UInt8) : TcpSock × ReadResult :=
  (tcpRearmUserTimeout s, .done got.length got)

/-- One iteration of the loop of `tcp_receive`. -/
def tcpReceiveStep (s : TcpSock) (rd : Reader) : TcpSock × ReadResult :=
  if rd.room = 0 then tcpReceiveReturn s rd.got
  else
    let d := tcpDataDequeue s rd.room
    let got := rd.got ++ d.2
    let s := d.1
    if s.pshFlag then tcpReceiveReturn { s with pshFlag := false } got
    else if s.finFlag ∨ rd.room = d.2.length then tcpReceiveReturn s got
    else if s.nonblock then
      if got = [] then (s, .done eAgain []) else tcpReceiveReturn s got
    else (s, .wait { got, room := rd.room - d.2.length })

/-- `tcp_read`, up to its first sleep. -/
def tcpRead (s : TcpSock) (len : ℕ) : TcpSock × ReadResult :=
  match s.state with
  | .close => (s, .done eBadf [])
  | .listen | .synSent | .synReceived | .established | .finWait1 | .finWait2 =>
    tcpReceiveStep s { got := [], room := len }
  | .closeWait =>
    if s.receiveQueue = [] ∧ s.finFlag then ({ s with finFlag := false }, .done 0 [])
    else tcpReceiveStep s { got := [], room := len }
  | .closing | .lastAck | .timeWait => (s, .done s.err [])

/-- `tcp_close`. -/
def tcpClose (env : Env) (s : TcpSock) : TcpSock :=
  match s.state with
  | .close | .closing | .lastAck | .timeWait | .finWait1 | .finWait2 => { s with err := eBadf }
  | .listen | .synSent | .synReceived => tcpDone s
  | .established => tcpQueueFin env { s with state := .finWait1 }
  | .closeWait => tcpQueueFin env s

end LvlIp.Tcp
