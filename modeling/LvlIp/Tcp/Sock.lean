import LvlIp.Fec.Frame

/-!
# The TCP socket

The data of `include/tcp.h`, `include/skbuff.h` and `include/sock.h`, and the timer and state
helpers of `src/tcp.c`.

A buffer is its TCP header, its payload and the sequence range the stack has noted in it. Buffers
have an address, since the FEC encoder keeps pointers into them. The queues are lists, the flag
word holds its two bits `TCP_FIN` and `TCP_PSH`. Ports, the advertised window and the checksum are
left out, and so is `poll_events`.

Three fields of `TcpSock` are not in the source. `tick` is the clock of `src/timer.c`, `out` is
everything handed to `ip_output`, and `queued` is everything ever appended to the write queue.
-/

namespace LvlIp.Tcp

open Fec

/-! ## Segments and buffers -/

/-- `struct tcphdr`; `data` is the option area. -/
structure Tcphdr where
  seq : UInt32
  ackSeq : UInt32
  hl : ℕ
  fin : Bool
  syn : Bool
  rst : Bool
  psh : Bool
  ack : Bool
  data : List UInt8
deriving DecidableEq

/-- A header of zero bytes. -/
def Tcphdr.zero : Tcphdr where
  seq := 0
  ackSeq := 0
  hl := 0
  fin := false
  syn := false
  rst := false
  psh := false
  ack := false
  data := []

/-- `TCP_HDR_LEN`. -/
def tcpHdrLen : ℕ := 20

/-- `TCP_DOFFSET`. -/
def tcpDoffset : ℕ := 5

/-- `tcp_hlen`. -/
def tcpHlen (th : Tcphdr) : ℕ := 4 * th.hl

/-- A segment on the wire. -/
structure Segment where
  th : Tcphdr
  payload : List UInt8
deriving DecidableEq

/-- The coding tag of a segment, with the block number before its reduction to 32 bits. -/
structure FecTag where
  type : FecSymType
  index : ℕ
  block : ℕ
deriving DecidableEq

/-- `struct sk_buff`. -/
structure SkBuff where
  addr : ℕ
  tag : Option FecTag
  th : Tcphdr
  payload : List UInt8
  seq : UInt32
  endSeq : UInt32
deriving DecidableEq

/-- `skb->dlen`. -/
def SkBuff.dlen (skb : SkBuff) : ℕ := skb.payload.length

/-- `tcp_init_segment`. -/
def tcpInitSegment (seg : Segment) : SkBuff where
  addr := 0
  tag := none
  th := seg.th
  payload := seg.payload
  seq := seg.th.seq
  endSeq := seg.th.seq + UInt32.ofNat seg.payload.length

/-- One call of `ip_output`: the segment, and the buffer it was sent from. -/
structure Transmission where
  addr : ℕ
  tag : Option FecTag
  seg : Segment
deriving DecidableEq

/-! ## The socket -/

/-- `enum tcp_states`. -/
inductive TcpState
  | listen
  | synSent
  | synReceived
  | established
  | finWait1
  | finWait2
  | close
  | closeWait
  | closing
  | lastAck
  | timeWait
deriving DecidableEq, Repr

/-- `struct tcb`, without the send window. -/
structure Tcb where
  sndUna : UInt32
  sndNxt : UInt32
  iss : UInt32
  rcvNxt : UInt32
  rcvWnd : UInt32
  irs : UInt32
deriving DecidableEq

/-- `struct tcp_sack_block`. -/
structure TcpSackBlock where
  left : UInt32
  right : UInt32
deriving DecidableEq

/-- The functions the stack starts timers for. -/
inductive TimerHandler
  | tcpConnectRto
  | tcpRetransmissionTimeout
  | tcpSendDelack
  | tcpLinger
  | tcpUserTimeout
deriving DecidableEq, Repr

/-- `struct timer`. -/
structure Timer where
  expires : UInt32
  handler : TimerHandler
deriving DecidableEq

/-- What the stack asks of `src/timer.c` for the timer that `retransmit` points to. -/
inductive RtoCall
  | timerAdd (expire : ℕ) (handler : TimerHandler)
  | timerRelease
  | timerCancel
deriving DecidableEq

/-- `struct tcp_fec_block_rx`. -/
structure TcpFecBlockRx where
  active : Bool
  recovered : Bool
  blkK : ℕ
  blockId : UInt32
  baseSeq : UInt32
  tailLen : ℕ
  srcPresent : List Bool
  redPresent : List Bool
  srcCount : ℕ
  redCount : ℕ
  symbolBuf : List Packet

/-- A slot without a block. -/
def TcpFecBlockRx.empty : TcpFecBlockRx where
  active := false
  recovered := false
  blkK := 0
  blockId := 0
  baseSeq := 0
  tailLen := 0
  srcPresent := List.replicate fecBlkMaxK false
  redPresent := List.replicate fecBlkMaxR false
  srcCount := 0
  redCount := 0
  symbolBuf := []

/-- `TCP_FEC_RX_BLOCKS`. -/
def tcpFecRxBlocks : ℕ := 4

/-- What a source pointer of the encoder points to: the payload of a buffer, or a slot of the
staging buffer `tx_src_buf`. -/
inductive SymPtr
  | skb (addr : ℕ)
  | slot (i : ℕ)
deriving DecidableEq

/-- `struct tcp_fec`. -/
structure TcpFec where
  k : ℕ
  r : ℕ
  symLen : ℕ
  ctx : FecRsCtx
  txBlockId : ℕ
  txBaseSeq : UInt32
  txFilled : ℕ
  txTailLen : ℕ
  enc : FecEncoder SymPtr
  txSrcBuf : List Packet
  rx : List TcpFecBlockRx

/-- `struct tcp_sock` with its `struct sock`. -/
structure TcpSock where
  state : TcpState
  err : ℤ
  nonblock : Bool
  receiveQueue : List SkBuff
  writeQueue : List SkBuff
  ofoQueue : List SkBuff
  tcb : Tcb
  finFlag : Bool
  pshFlag : Bool
  /-- A `uint8_t`. -/
  backoff : ℕ
  srtt : ℕ
  rttvar : ℕ
  rto : ℕ
  retransmit : Option Timer
  delack : Option Timer
  linger : Option Timer
  delacks : ℕ
  rmss : UInt16
  smss : UInt16
  inflight : ℕ
  sackok : UInt8
  sacksAllowed : ℕ
  sacklen : ℕ
  /-- The four blocks of `sacks`. -/
  sacks : List TcpSackBlock
  /-- The blocks stored behind the array, from `sacks[4]` on, where one has been stored: the first one
  lies over `tsopt` and `fecok`, the second one over the pointer `fec`, the others over what follows. -/
  sacksPast : List (Option TcpSackBlock)
  /-- `tsopt` and `fecok` as the handshake leaves them. -/
  tsopt : UInt8
  fecok : UInt8
  fec : Option TcpFec
  nextAddr : ℕ
  tick : ℕ
  out : List Transmission
  /-- The option bytes that were stored behind the room reserved for them. -/
  spilled : List UInt8
  queued : List SkBuff
  rtoCalls : List RtoCall

/-- `tcp_alloc_sock`. -/
def tcpAllocSock : TcpSock where
  state := .close
  err := 0
  nonblock := false
  receiveQueue := []
  writeQueue := []
  ofoQueue := []
  tcb := { sndUna := 0, sndNxt := 0, iss := 0, rcvNxt := 0, rcvWnd := 0, irs := 0 }
  finFlag := false
  pshFlag := false
  backoff := 0
  srtt := 0
  rttvar := 0
  rto := 0
  retransmit := none
  delack := none
  linger := none
  delacks := 0
  rmss := 1460
  smss := 536
  inflight := 0
  sackok := 1
  sacksAllowed := 0
  sacklen := 0
  sacks := List.replicate 4 ⟨0, 0⟩
  sacksPast := []
  tsopt := 0
  fecok := 1
  fec := none
  nextAddr := 0
  tick := 0
  out := []
  spilled := []
  queued := []
  rtoCalls := []

/-- `tsk->fecok` as it reads: the second byte of a block stored at `sacks[4]` lies over it. -/
def TcpSock.fecokByte (s : TcpSock) : UInt8 :=
  match s.sacksPast with
  | some sb :: _ => (sb.left >>> 8).toUInt8
  | _ => s.fecok

/-- No block lies over the pointer `tsk->fec`. -/
def TcpSock.FecWhole (s : TcpSock) : Prop := s.sacksPast.getD 1 none = none

/-- What the code gets from below: the value `ip_output` returns for the `n`-th segment, and the
bytes that a buffer freed before the `n`-th segment reads as. -/
structure Env where
  link : ℕ → ℤ
  freed : ℕ → ℕ → Packet

/-! ## Timers -/

/-- `timer_add`. -/
def timerAdd (s : TcpSock) (expire : ℕ) (handler : TimerHandler) : Timer where
  expires := UInt32.ofNat (s.tick + expire)
  handler := handler

/-- `tcp_stop_rto_timer`. -/
def tcpStopRtoTimer (s : TcpSock) : TcpSock :=
  { s with retransmit := none, backoff := 0, rtoCalls := s.rtoCalls ++ [.timerCancel] }

/-- `tcp_release_rto_timer`. -/
def tcpReleaseRtoTimer (s : TcpSock) : TcpSock :=
  { s with retransmit := none, rtoCalls := s.rtoCalls ++ [.timerRelease] }

/-- `tsk->retransmit = timer_add(...)`. -/
def tcpArmRtoTimer (s : TcpSock) (expire : ℕ) (handler : TimerHandler) : TcpSock :=
  { s with
    retransmit := some (timerAdd s expire handler)
    rtoCalls := s.rtoCalls ++ [.timerAdd expire handler] }

/-- `tcp_stop_delack_timer`. -/
def tcpStopDelackTimer (s : TcpSock) : TcpSock := { s with delack := none }

/-- `tcp_release_delack_timer`. -/
def tcpReleaseDelackTimer (s : TcpSock) : TcpSock := { s with delack := none }

/-- `tcp_clear_timers`. -/
def tcpClearTimers (s : TcpSock) : TcpSock :=
  { tcpStopDelackTimer (tcpStopRtoTimer s) with linger := none }

/-- `TCP_SYN_BACKOFF`. -/
def tcpSynBackoff : ℕ := 500

/-- `tcp_rearm_rto_timer`. -/
def tcpRearmRtoTimer (s : TcpSock) : TcpSock :=
  let s := tcpReleaseRtoTimer s
  if s.state = .synSent then tcpArmRtoTimer s (tcpSynBackoff * 2 ^ s.backoff) .tcpConnectRto
  else tcpArmRtoTimer s s.rto .tcpRetransmissionTimeout

/-- `TCP_USER_TIMEOUT`. -/
def tcpUserTimeoutMs : ℕ := 180000

/-- `tcp_rearm_user_timeout`. -/
def tcpRearmUserTimeout (s : TcpSock) : TcpSock :=
  if s.state = .timeWait then s
  else { s with linger := some (timerAdd s tcpUserTimeoutMs .tcpUserTimeout) }

/-- `TCP_2MSL`. -/
def tcp2Msl : ℕ := 60000

/-- `tcp_enter_time_wait`. -/
def tcpEnterTimeWait (s : TcpSock) : TcpSock :=
  let s := tcpClearTimers { s with state := .timeWait }
  { s with linger := some (timerAdd s tcp2Msl .tcpLinger) }

/-- `tcp_rtt`. The measurement is a signed difference; the smoothing in floating point is exact
before its truncation, so it is an integer division. -/
def tcpRtt (s : TcpSock) : TcpSock :=
  if 0 < s.backoff then s
  else
    match s.retransmit with
    | none => s
    | some t =>
      let r := (UInt32.ofNat s.tick - (t.expires - UInt32.ofNat s.rto)).toNat
      if 2 ^ 31 ≤ r then s
      else
        let rttvar := if s.srtt = 0 then r / 2
          else (3 * s.rttvar + ((s.srtt : ℤ) - r).natAbs) / 4
        let srtt := if s.srtt = 0 then r else (7 * s.srtt + r) / 8
        { s with srtt, rttvar, rto := srtt + max (4 * rttvar) 200 }

/-! ## The end of a connection -/

/-- `tcp_fec_release`. -/
def tcpFecRelease (s : TcpSock) : TcpSock := { s with fec := none }

/-- `tcp_free`, with `tcp_clear_queues`. -/
def tcpFree (s : TcpSock) : TcpSock := tcpFecRelease { tcpClearTimers s with ofoQueue := [] }

/-- `tcp_done`. -/
def tcpDone (s : TcpSock) : TcpSock := tcpFree { s with state := .closing }

/-- `tcp_handle_fin_state`. -/
def tcpHandleFinState (s : TcpSock) : TcpSock :=
  match s.state with
  | .closeWait => { s with state := .lastAck }
  | .established => { s with state := .finWait1 }
  | _ => s

end LvlIp.Tcp
