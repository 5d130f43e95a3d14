import LvlIp.Tcp.FecInput

/-!
# Segment arrival

`tcp_input_state` of `src/tcp_input.c` and what it calls. The function is cut at its early
returns: a stage returns the socket and whether processing goes on.
-/

namespace LvlIp.Tcp

open Fec

/-! ## Helpers -/

/-- The loop of `tcp_clean_rto_queue`: the queue and `inflight` after the acknowledged buffers at
the head have been taken off. -/
def tcpCleanLoop (una : UInt32) : List SkBuff → ℕ → List SkBuff × ℕ
  | [], inflight => ([], inflight)
  | skb :: q, inflight =>
    if 0 < skb.seq ∧ skb.endSeq ≤ una then tcpCleanLoop una q (inflight - 1)
    else (skb :: q, inflight)

/-- `tcp_clean_rto_queue`. -/
def tcpCleanRtoQueue (s : TcpSock) (una : UInt32) : TcpSock :=
  let r := tcpCleanLoop una s.writeQueue s.inflight
  let s := { s with writeQueue := r.1, inflight := r.2 }
  if r.1 = [] ∨ r.2 = 0 then tcpStopRtoTimer s else s

/-- `tcp_verify_segment`. -/
def tcpVerifySegment (s : TcpSock) (skb : SkBuff) : Bool :=
  !(decide (0 < skb.dlen) && s.tcb.rcvWnd == 0) &&
    !(decide (skb.th.seq < s.tcb.rcvNxt) || decide (s.tcb.rcvNxt + s.tcb.rcvWnd < skb.th.seq))

/-- `-ECONNREFUSED`. -/
def eConnrefused : ℤ := -111

/-- `-EPIPE`. -/
def ePipe : ℤ := -32

/-- `-ECONNRESET`. -/
def eConnreset : ℤ := -104

/-- `tcp_reset`. -/
def tcpReset (s : TcpSock) : TcpSock :=
  match s.state with
  | .synSent => tcpDone { s with err := eConnrefused }
  | .closeWait => tcpDone { s with err := ePipe }
  | .close => s
  | _ => tcpDone { s with err := eConnreset }

/-- `tcp_closed`. -/
def tcpClosed (env : Env) (s : TcpSock) (th : Tcphdr) : TcpSock :=
  if th.rst then s else tcpSendReset env s

/-- Enabling FEC once the negotiation is resolved; a failure turns it off. -/
def tcpFecResolve (s : TcpSock) : TcpSock :=
  if s.fecok ≠ 0 then
    let e := tcpFecEnable s
    if e.2 ≠ 0 then { e.1 with fecok := 0 } else e.1
  else s

/-- `sock_connected`. -/
def sockConnected (s : TcpSock) : TcpSock := { s with err := 0 }

/-- The part of `tcp_synsent` that an acceptable SYN reaches. -/
def tcpSynsentSyn (env : Env) (s : TcpSock) (th : Tcphdr) : TcpSock :=
  let s := { s with tcb.rcvNxt := th.seq + 1, tcb.irs := th.seq }
  let s := if th.ack then tcpCleanRtoQueue { s with tcb.sndUna := th.ackSeq } th.ackSeq else s
  if s.tcb.iss < s.tcb.sndUna then
    let s := { s with state := .established, tcb.sndUna := s.tcb.sndNxt, backoff := 0, rto := 1000 }
    sockConnected (tcpFecResolve (tcpParseOpts (tcpRearmUserTimeout (tcpSendAck env s)) th))
  else
    let s := { s with state := .synReceived, tcb.sndUna := s.tcb.iss }
    tcpSendSynack env (tcpParseOpts s th)

/-- `tcp_synsent`. -/
def tcpSynsent (env : Env) (s : TcpSock) (th : Tcphdr) : TcpSock :=
  if th.ack ∧ (th.ackSeq ≤ s.tcb.iss ∨ s.tcb.sndNxt < th.ackSeq) then s
  else if th.ack ∧ (th.ackSeq < s.tcb.sndUna ∨ s.tcb.sndNxt < th.ackSeq) then s
  else if th.rst then tcpReset s
  else if ¬ th.syn then s
  else tcpSynsentSyn env s th

/-! ## The stages -/

/-- The processing of an acknowledgement number. -/
def tcpAck (s : TcpSock) (ackSeq : UInt32) : TcpSock × Bool :=
  let s := if s.tcb.sndUna < ackSeq ∧ ackSeq ≤ s.tcb.sndNxt then
      tcpCleanRtoQueue (tcpRtt { s with tcb.sndUna := ackSeq }) ackSeq
    else s
  (s, decide ¬ (ackSeq < s.tcb.sndUna ∨ s.tcb.sndNxt < ackSeq))

/-- Fifth, the ACK field. -/
def tcpAckField (s : TcpSock) (th : Tcphdr) : TcpSock × Bool :=
  match s.state with
  | .synReceived =>
    if s.tcb.sndUna ≤ th.ackSeq ∧ th.ackSeq < s.tcb.sndNxt then
      tcpAck (tcpFecResolve { s with state := .established }) th.ackSeq
    else (s, false)
  | .established | .finWait1 | .finWait2 | .closeWait | .closing | .lastAck =>
    tcpAck s th.ackSeq
  | _ => (s, true)

/-- What an empty write queue means for a FIN we sent. -/
def tcpFinAcked (env : Env) (s : TcpSock) (th : Tcphdr) : TcpSock × Bool :=
  if s.writeQueue = [] then
    match s.state with
    | .finWait1 => ({ s with state := .finWait2 }, true)
    | .closing => ({ s with state := .timeWait }, true)
    | .lastAck => (tcpDone s, false)
    | .timeWait =>
      if s.tcb.rcvNxt = th.seq then (tcpSendAck env { s with finFlag := true }, true)
      else (s, true)
    | _ => (s, true)
  else (s, true)

/-- The states in which the text of a segment is queued. -/
def TcpState.receives : TcpState → Bool
  | .established | .finWait1 | .finWait2 => true
  | _ => false

/-- Seventh, the segment text. -/
def tcpText (env : Env) (s : TcpSock) (skb : SkBuff) : TcpSock :=
  if s.state.receives ∧ (skb.th.psh ∨ 0 < skb.dlen) then tcpDataQueue env s skb else s

/-- The state after an in-sequence FIN. -/
def tcpFinState (s : TcpSock) : TcpSock :=
  match s.state with
  | .synReceived | .established => { s with state := .closeWait }
  | .finWait1 => if s.writeQueue = [] then tcpEnterTimeWait s else { s with state := .closing }
  | .finWait2 => tcpEnterTimeWait s
  | _ => s

/-- Eighth, the FIN bit. -/
def tcpFin (env : Env) (s : TcpSock) (th : Tcphdr) (expected : Bool) : TcpSock :=
  if th.fin ∧ expected then
    tcpFinState (tcpSendAck env { s with tcb.rcvNxt := s.tcb.rcvNxt + 1, finFlag := true })
  else s

/-- The transmission of pending segments when nothing is in flight. -/
def tcpSendPending (env : Env) (s : TcpSock) (pending : ℕ) : TcpSock :=
  let s := tcpSendNext env s pending
  tcpRearmRtoTimer { s with inflight := s.inflight + pending }

/-- `delacks` after the condition has counted a large segment. -/
def tcpCountDelacks (s : TcpSock) (skb : SkBuff) : ℕ :=
  if ¬ skb.th.psh ∧ 1000 < skb.dlen then s.delacks + 1 else s.delacks

/-- The acknowledgement of an in-order segment, at once or delayed. -/
def tcpAckOrDelay (env : Env) (s : TcpSock) (skb : SkBuff) : TcpSock :=
  let delacks := tcpCountDelacks s skb
  if skb.th.psh ∨ (1000 < skb.dlen ∧ 1 < delacks) then tcpSendAck env { s with delacks := 0 }
  else if 0 < skb.dlen then
    { s with delacks, delack := some (timerAdd s 200 .tcpSendDelack) }
  else { s with delacks }

/-- Congestion control and delayed acknowledgements. -/
def tcpPending (env : Env) (s : TcpSock) (skb : SkBuff) (expected : Bool) : TcpSock :=
  if s.state.receives ∧ expected then
    let s := tcpStopDelackTimer s
    let pending := min s.writeQueue.length 3
    if s.inflight = 0 ∧ 0 < pending then tcpSendPending env s pending
    else tcpAckOrDelay env s skb
  else s

/-- `tcp_input_state` from the sixth check on. -/
def tcpDeliver (env : Env) (s : TcpSock) (skb : SkBuff) : TcpSock :=
  let expected := skb.seq == s.tcb.rcvNxt
  tcpPending env (tcpFin env (tcpText env s skb) skb.th expected) skb expected

/-- `tcp_input_state` after the FEC section. -/
def tcpSegmentArrives (env : Env) (s : TcpSock) (skb : SkBuff) : TcpSock :=
  if ¬ tcpVerifySegment s skb then
    if skb.th.rst then s else tcpSendAck env s
  else if skb.th.rst then tcpEnterTimeWait s
  else if skb.th.syn then s
  else if ¬ skb.th.ack then s
  else
    let a := tcpAckField s skb.th
    if ¬ a.2 then a.1
    else
      let f := tcpFinAcked env a.1 skb.th
      if ¬ f.2 then f.1 else tcpDeliver env f.1 skb

/-- `tcp_input_state`. -/
def tcpInputState (env : Env) (s : TcpSock) (skb : SkBuff) : TcpSock :=
  match s.state with
  | .close => tcpClosed env s skb.th
  | .listen => s
  | .synSent => tcpSynsent env s skb.th
  | _ =>
    match s.fec with
    | none => tcpSegmentArrives env s skb
    | some fec =>
      let r := tcpFecInput env s fec skb
      if r.2 then r.1 else tcpSegmentArrives env r.1 skb

/-- `tcp_in`: the arrival of a segment from the wire. -/
def tcpIn (env : Env) (s : TcpSock) (seg : Segment) : TcpSock :=
  tcpInputState env s (tcpInitSegment seg)

end LvlIp.Tcp
