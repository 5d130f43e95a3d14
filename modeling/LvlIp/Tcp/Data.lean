import LvlIp.Tcp.Output

/-!
# Queueing received data

`src/tcp_data.c`: the out-of-order queue and the receive queue, and `tcp_calculate_sacks` of
`src/tcp.c`.
-/

namespace LvlIp.Tcp

open Fec

/-- `tcp_data_insert_ordered`. An overlap with a later buffer is only reported: the search goes
on. -/
def tcpDataInsertOrdered : List SkBuff → SkBuff → List SkBuff
  | [], skb => [skb]
  | next :: q, skb =>
    if skb.seq < next.seq then
      if next.seq < skb.endSeq then next :: tcpDataInsertOrdered q skb
      else skb :: next :: q
    else if skb.seq = next.seq then next :: q
    else next :: tcpDataInsertOrdered q skb

/-- The loop of `tcp_consume_ofo_queue`: what is moved to the receive queue, what stays, and the
new `rcv_nxt`. -/
def tcpConsumeLoop (rcvNxt : UInt32) : List SkBuff → List SkBuff × List SkBuff × UInt32
  | [] => ([], [], rcvNxt)
  | skb :: q =>
    if rcvNxt = skb.seq then
      let r := tcpConsumeLoop (rcvNxt + UInt32.ofNat skb.dlen) q
      (skb :: r.1, r.2.1, r.2.2)
    else ([], skb :: q, rcvNxt)

/-- `tcp_consume_ofo_queue`. -/
def tcpConsumeOfoQueue (s : TcpSock) : TcpSock :=
  let r := tcpConsumeLoop s.tcb.rcvNxt s.ofoQueue
  { s with receiveQueue := s.receiveQueue ++ r.1, ofoQueue := r.2.1, tcb.rcvNxt := r.2.2 }

/-- The loop of `tcp_data_dequeue`: the bytes copied to a buffer of `userlen` bytes, the queue
that is left, and whether a buffer with PSH was finished. -/
def tcpDequeueLoop : List SkBuff → ℕ → List UInt8 × List SkBuff × Bool
  | [], _ => ([], [], false)
  | skb :: q, userlen =>
    if userlen = 0 then ([], skb :: q, false)
    else if userlen < skb.dlen then
      (skb.payload.take userlen, { skb with payload := skb.payload.drop userlen } :: q, false)
    else
      let r := tcpDequeueLoop q (userlen - skb.dlen)
      (skb.payload ++ r.1, r.2.1, skb.th.psh || r.2.2)

/-- `tcp_data_dequeue`. -/
def tcpDataDequeue (s : TcpSock) (userlen : ℕ) : TcpSock × List UInt8 :=
  let r := tcpDequeueLoop s.receiveQueue userlen
  ({ s with receiveQueue := r.2.1, pshFlag := s.pshFlag || r.2.2 }, r.1)

/-- The loop of `tcp_calculate_sacks`; `sb` is the index of the block being filled. -/
def tcpSackLoop (allowed : ℕ) : List SkBuff → ℕ → ℕ → List TcpSackBlock →
    ℕ × List TcpSackBlock
  | [], _, sacklen, sacks => (sacklen, sacks)
  | next :: q, sb, sacklen, sacks =>
    let cur := sacks.getD sb ⟨0, 0⟩
    let opened : TcpSackBlock × ℕ :=
      if cur.left = 0 then ({ cur with left := next.seq }, sacklen + 1) else (cur, sacklen)
    if opened.1.right = 0 ∨ opened.1.right = next.seq then
      tcpSackLoop allowed q sb opened.2 (sacks.set sb { opened.1 with right := next.endSeq })
    else if allowed ≤ opened.2 then (opened.2, sacks.set sb opened.1)
    else
      tcpSackLoop allowed q opened.2 (opened.2 + 1)
        ((sacks.set sb opened.1).set opened.2 ⟨next.seq, next.endSeq⟩)

/-- A block is stored at a place behind the array. -/
def storePast (past : List (Option TcpSackBlock)) (i : ℕ) (sb : TcpSackBlock) :
    List (Option TcpSackBlock) :=
  (past ++ List.replicate (i + 1 - past.length) none).set i (some sb)

/-- The blocks that `tcp_calculate_sacks` leaves: `sacklen`, those of the array, and those behind it.
The function does not compare `sacklen` with the size of the array before it stores its first block;
the others stay inside, as at most four blocks are allowed. -/
def tcpSackBlocks (s : TcpSock) : ℕ × List TcpSackBlock × List (Option TcpSackBlock) :=
  if s.sacklen < 4 then
    let r := tcpSackLoop s.sacksAllowed s.ofoQueue s.sacklen s.sacklen
      (s.sacks.set s.sacklen ⟨0, 0⟩)
    (r.1, r.2, s.sacksPast)
  else
    let r := tcpSackLoop s.sacksAllowed s.ofoQueue 0 s.sacklen [⟨0, 0⟩]
    (r.1, s.sacks, storePast s.sacksPast (s.sacklen - 4) (r.2.getD 0 ⟨0, 0⟩))

theorem tcpSackBlocks_of_lt {s : TcpSock} (h : s.sacklen < 4) : tcpSackBlocks s =
    ((tcpSackLoop s.sacksAllowed s.ofoQueue s.sacklen s.sacklen (s.sacks.set s.sacklen ⟨0, 0⟩)).1,
      (tcpSackLoop s.sacksAllowed s.ofoQueue s.sacklen s.sacklen
        (s.sacks.set s.sacklen ⟨0, 0⟩)).2, s.sacksPast) :=
  if_pos h

/-- `tcp_calculate_sacks`. -/
def tcpCalculateSacks (s : TcpSock) : TcpSock :=
  let r := tcpSackBlocks s
  { s with sacklen := r.1, sacks := r.2.1, sacksPast := r.2.2 }

/-- `tcp_data_queue`. -/
def tcpDataQueue (env : Env) (s : TcpSock) (skb : SkBuff) : TcpSock :=
  if s.tcb.rcvWnd = 0 then s
  else if skb.seq = s.tcb.rcvNxt then
    tcpConsumeOfoQueue { s with
      tcb.rcvNxt := s.tcb.rcvNxt + UInt32.ofNat skb.dlen
      receiveQueue := s.receiveQueue ++ [skb] }
  else
    let s := { s with ofoQueue := tcpDataInsertOrdered s.ofoQueue skb }
    tcpSendAck env (if s.sackok ≠ 0 then tcpCalculateSacks s else s)

end LvlIp.Tcp
