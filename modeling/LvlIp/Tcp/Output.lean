import LvlIp.Tcp.Options

/-!
# Sending

`src/tcp_output.c`: building, queueing and transmitting segments, the retransmission timers, and
the coded transmit path.

A segment counts as transmitted whatever `ip_output` returns. Only one caller looks at that value:
`tcp_fec_emit_block`, which gives up at the first repair segment for which it is not zero.
-/

namespace LvlIp.Tcp

open Fec

/-! ## Transmission -/

/-- `tcp_alloc_skb` for a segment with the given header and payload: a new address. -/
def tcpAllocSkb (s : TcpSock) (tag : Option FecTag) (th : Tcphdr) (payload : List UInt8) :
    TcpSock × SkBuff :=
  ({ s with nextAddr := s.nextAddr + 1 },
    { addr := s.nextAddr, tag, th, payload, seq := 0, endSeq := 0 })

/-- The header that `tcp_transmit_skb` fills in. -/
def tcpFillHeader (s : TcpSock) (skb : SkBuff) (seq : UInt32) : Tcphdr :=
  { skb.th with
    hl := if skb.th.hl = 0 then tcpDoffset else skb.th.hl
    seq, ackSeq := s.tcb.rcvNxt }

/-- The options of a segment that has room for them. -/
def tcpFillOptions (s : TcpSock) (th : Tcphdr) : TcpSock × Tcphdr :=
  if 5 < th.hl then tcpWriteOptions s th else (s, th)

/-- A segment goes out. -/
def TcpSock.emit (s : TcpSock) (t : Transmission) : TcpSock := { s with out := s.out ++ [t] }

/-- `tcp_transmit_skb`. The header of the buffer is filled in place. -/
def tcpTransmitSkb (env : Env) (s : TcpSock) (skb : SkBuff) (seq : UInt32) :
    TcpSock × SkBuff × ℤ :=
  let w := tcpFillOptions s (tcpFillHeader s skb seq)
  (w.1.emit { addr := skb.addr, tag := skb.tag, seg := ⟨w.2, skb.payload⟩ },
    { skb with th := w.2 }, env.link s.out.length)

/-- `snd_nxt` moves past a buffer that has been transmitted at it. -/
def tcpAdvanceNxt (s : TcpSock) (skb : SkBuff) : TcpSock :=
  let endSeq := s.tcb.sndNxt + UInt32.ofNat skb.dlen
  { s with tcb.sndNxt := if skb.th.fin then endSeq + 1 else endSeq }

/-- The sequence range of a buffer that has been transmitted at `nxt`. -/
def SkBuff.at (skb : SkBuff) (nxt : UInt32) : SkBuff :=
  { skb with seq := nxt, endSeq := nxt + UInt32.ofNat skb.dlen }

/-- A buffer joins the write queue. -/
def TcpSock.enqueue (s : TcpSock) (skb : SkBuff) : TcpSock :=
  { s with writeQueue := s.writeQueue ++ [skb], queued := s.queued ++ [skb] }

/-- `tcp_queue_transmit_skb` with nothing in flight. -/
def tcpQueueTransmitNow (env : Env) (s : TcpSock) (skb : SkBuff) : TcpSock × ℤ :=
  let t := tcpTransmitSkb env s skb s.tcb.sndNxt
  let s := { t.1 with inflight := t.1.inflight + 1 }
  ((tcpAdvanceNxt s t.2.1).enqueue (t.2.1.at s.tcb.sndNxt), t.2.2)

/-- `tcp_queue_transmit_skb`. -/
def tcpQueueTransmitSkb (env : Env) (s : TcpSock) (skb : SkBuff) : TcpSock × ℤ :=
  let s := if s.writeQueue = [] then tcpRearmRtoTimer s else s
  if s.inflight = 0 then tcpQueueTransmitNow env s skb else (s.enqueue skb, 0)

/-- The loop of `tcp_send_next` over the first buffers of the write queue. -/
def tcpSendNextLoop (env : Env) : ℕ → TcpSock → List SkBuff → TcpSock × List SkBuff
  | 0, s, q => (s, q)
  | _ + 1, s, [] => (s, [])
  | n + 1, s, skb :: q =>
    let t := tcpTransmitSkb env s skb s.tcb.sndNxt
    let rest := tcpSendNextLoop env n (tcpAdvanceNxt t.1 t.2.1) q
    (rest.1, t.2.1.at t.1.tcb.sndNxt :: rest.2)

/-- `tcp_send_next`. -/
def tcpSendNext (env : Env) (s : TcpSock) (amount : ℕ) : TcpSock :=
  let l := tcpSendNextLoop env amount s s.writeQueue
  { l.1 with writeQueue := l.2 }

/-- `tcp_send_ack`. -/
def tcpSendAck (env : Env) (s : TcpSock) : TcpSock :=
  if s.state = .close then s
  else
    let optlen := tcpOptionsLen s
    let a := tcpAllocSkb s none
      { Tcphdr.zero with ack := true, hl := tcpDoffset + optlen / 4
                         data := List.replicate optlen 0 } []
    (tcpTransmitSkb env a.1 a.2 a.1.tcb.sndNxt).1

/-- `tcp_send_delack`. -/
def tcpSendDelack (env : Env) (s : TcpSock) : TcpSock :=
  tcpSendAck env (tcpReleaseDelackTimer { s with delacks := 0 })

/-- `tcp_send_reset`. -/
def tcpSendReset (env : Env) (s : TcpSock) : TcpSock :=
  let a := tcpAllocSkb s none { Tcphdr.zero with rst := true } []
  let s := { a.1 with tcb.sndUna := a.1.tcb.sndNxt }
  (tcpTransmitSkb env s a.2 s.tcb.sndNxt).1

/-! ## Connecting -/

/-- The header of a SYN of this socket. -/
def tcpSynHeader (s : TcpSock) (ack : Bool) : Tcphdr :=
  let opts := tcpSynOptions s
  tcpWriteSynOptions { Tcphdr.zero with syn := true, ack } opts.1 opts.2

/-- The segment that `tcp_send_synack` builds past its check of the state. -/
def tcpTransmitSynack (env : Env) (s : TcpSock) : TcpSock :=
  let a := tcpAllocSkb s none (tcpSynHeader s true) []
  (tcpTransmitSkb env a.1 a.2 a.1.tcb.sndNxt).1

/-- `tcp_send_synack`. -/
def tcpSendSynack (env : Env) (s : TcpSock) : TcpSock :=
  if s.state ≠ .synSent then s else tcpTransmitSynack env s

/-- `tcp_send_syn`. -/
def tcpSendSyn (env : Env) (s : TcpSock) : TcpSock :=
  if s.state ≠ .synSent ∧ s.state ≠ .close ∧ s.state ≠ .listen then s
  else
    let a := tcpAllocSkb s none (tcpSynHeader s false) []
    (tcpQueueTransmitSkb env { a.1 with state := .synSent } a.2).1

/-- `tcp_select_initial_window`. -/
def tcpSelectInitialWindow : UInt32 := 44477

/-- `tcp_connect`; `iss` is what `generate_iss` returns. -/
def tcpConnect (env : Env) (s : TcpSock) (iss : UInt32) : TcpSock :=
  let s := tcpSendSyn env { s with
    tcb.iss := iss, tcb.sndUna := iss, tcb.sndNxt := iss, tcb.rcvNxt := 0
    tcb.rcvWnd := tcpSelectInitialWindow }
  { s with tcb.sndNxt := s.tcb.sndNxt + 1 }

/-- `TCP_CONN_RETRIES`. -/
def tcpConnRetries : ℕ := 3

/-- `-ETIMEDOUT`. -/
def eTimedout : ℤ := -110

/-- `tcp_connect_rto`. -/
def tcpConnectRto (env : Env) (s : TcpSock) : TcpSock :=
  let s := tcpReleaseRtoTimer s
  if s.state = .synSent then
    if tcpConnRetries < s.backoff then tcpDone { s with err := eTimedout }
    else
      match s.writeQueue with
      | [] => s
      | skb :: q =>
        let t := tcpTransmitSkb env s skb s.tcb.sndUna
        let s := t.1
        tcpRearmRtoTimer { s with backoff := (s.backoff + 1) % 256, writeQueue := t.2.1 :: q }
  else s

/-! ## Retransmission -/

/-- `tcp_retransmission_timeout`. -/
def tcpRetransmissionTimeout (env : Env) (s : TcpSock) : TcpSock :=
  let s := tcpReleaseRtoTimer s
  match s.writeQueue with
  | [] => { s with backoff := 0 }
  | skb :: q =>
    let t := tcpTransmitSkb env s skb s.tcb.sndUna
    let s : TcpSock := { t.1 with writeQueue := t.2.1 :: q }
    if 60000 < s.rto then { tcpDone s with err := eTimedout }
    else
      let s := { s with rto := s.rto * 2, backoff := (s.backoff + 1) % 256 }
      let s := tcpArmRtoTimer s s.rto .tcpRetransmissionTimeout
      if skb.th.fin then tcpHandleFinState s else s

/-! ## The coded transmit path -/

/-- `tcp_fec_enable`, with the shared tables ready and every allocation successful. -/
def tcpFecEnable (s : TcpSock) : TcpSock × ℤ :=
  match s.fec with
  | some _ => (s, 0)
  | none =>
    let k := tcpFecDefaultK
    let r := tcpFecDefaultR
    let symLen := tcpFecDefaultSymLen
    match fecEncoderInit fecRsInit k r symLen none with
    | none => (s, -1)
    | some enc =>
      let fec : TcpFec :=
        { k, r, symLen, ctx := fecRsInit, txBlockId := 0, txBaseSeq := 0, txFilled := 0
          txTailLen := 0, enc, txSrcBuf := List.replicate k (List.replicate symLen 0)
          rx := List.replicate tcpFecRxBlocks .empty }
      ({ s with fec := some fec }, 0)

/-- What the encoder reads through a source pointer: the payload of a queued buffer, a staging
slot, or memory that has been freed. -/
def symMem (env : Env) (s : TcpSock) (fec : TcpFec) : SymPtr → Packet
  | .skb addr =>
    match s.writeQueue.find? (·.addr = addr) with
    | some skb => skb.payload
    | none => env.freed s.out.length addr
  | .slot i => fec.txSrcBuf.getD i []

/-- `tcp_fec_send_repair`. -/
def tcpFecSendRepair (env : Env) (s : TcpSock) (fec : TcpFec) (blkK repairIndex tailLen : ℕ)
    (parity : Packet) : TcpSock × ℤ :=
  let blockId := UInt32.ofNat fec.txBlockId
  let rh : FecRepairHdr :=
    { version := fecWireVersion, k := UInt8.ofNat blkK, r := UInt8.ofNat fec.r
      repairIndex := UInt8.ofNat repairIndex, blockId, baseSeq := fec.txBaseSeq
      symLen := UInt16.ofNat fec.symLen, tailLen := UInt16.ofNat tailLen }
  let a := tcpAllocSkb s (some { type := .repair, index := repairIndex, block := fec.txBlockId })
    { Tcphdr.zero with
      ack := true, hl := tcpDoffset + tcpOptlenFec / 4
      data := tcpWriteFecOption .repair (UInt8.ofNat repairIndex) blockId }
    (rh.write ++ parity.take fec.symLen)
  let t := tcpTransmitSkb env a.1 a.2 a.1.tcb.sndNxt
  (t.1, t.2.2)

/-- The loop of `tcp_fec_emit_block` over the repair segments, from index `j` on. -/
def tcpFecSendRepairs (env : Env) (fec : TcpFec) (blkK tailLen : ℕ) :
    TcpSock → ℕ → List Packet → TcpSock × ℤ
  | s, _, [] => (s, 0)
  | s, j, parity :: ps =>
    let t := tcpFecSendRepair env s fec blkK j tailLen parity
    if t.2 ≠ 0 then (t.1, -1) else tcpFecSendRepairs env fec blkK tailLen t.1 (j + 1) ps

/-- The encoder that `tcp_fec_emit_block` generates with: the block's own when it is full, else
one for the short block with the same pointers. -/
def tcpFecBlockEncoder (fec : TcpFec) (blkK : ℕ) : Option (FecEncoder SymPtr) :=
  if blkK = fec.k then some fec.enc
  else (fecEncoderInit fec.ctx blkK fec.r fec.symLen none).bind fun tmp =>
    addSources tmp (fec.enc.src.take blkK)

/-- The end of `tcp_fec_emit_block`: the next block starts. -/
def TcpFec.nextBlock (fec : TcpFec) : TcpFec :=
  { fec with txBlockId := fec.txBlockId + 1, txFilled := 0, enc := fecEncoderReset fec.enc }

/-- `tcp_fec_emit_block`. -/
def tcpFecEmitBlock (env : Env) (s : TcpSock) (fec : TcpFec) (blkK tailLen : ℕ) : TcpSock × ℤ :=
  if blkK = 0 then (s, 0)
  else if fec.k < blkK then (s, -1)
  else
    match (tcpFecBlockEncoder fec blkK).bind (fecEncoderGenerate (symMem env s fec)) with
    | none => (s, -1)
    | some parity =>
      let t := tcpFecSendRepairs env fec blkK tailLen s 0 parity
      if t.2 ≠ 0 then (t.1, -1) else ({ t.1 with fec := some fec.nextBlock }, 0)

/-- `tcp_fec_flush`. -/
def tcpFecFlush (env : Env) (s : TcpSock) : TcpSock :=
  match s.fec with
  | none => s
  | some fec =>
    if fec.txFilled = 0 then s else (tcpFecEmitBlock env s fec fec.txFilled fec.txTailLen).1

/-! ## Sending data -/

/-- The pieces of at most `mss` bytes that `tcp_send` cuts its buffer into, each with whether it
is the last one. -/
def tcpPieces (mss : ℕ) : ℕ → List UInt8 → List (List UInt8 × Bool)
  | 0, _ => []
  | _ + 1, [] => []
  | n + 1, buf => (buf.take mss, decide (buf.length ≤ mss)) :: tcpPieces mss n (buf.drop mss)

/-- The forced flush of `tcp_send`, when the block has no free slot. -/
def tcpFecForceFlush (env : Env) (s : TcpSock) : TcpSock :=
  match s.fec with
  | none => s
  | some fec =>
    if fec.k ≤ fec.txFilled then (tcpFecEmitBlock env s fec fec.txFilled fec.txTailLen).1 else s

/-- The first symbol of a block pins its base sequence number. -/
def tcpFecPin (s : TcpSock) : TcpSock :=
  { s with fec := s.fec.map fun fec =>
      if fec.txFilled = 0 then { fec with txBaseSeq := s.tcb.sndNxt } else fec }

/-- The registration of a segment with the encoder. -/
def TcpFec.register (fec : TcpFec) (skb : SkBuff) : TcpFec :=
  let staged : TcpFec × SymPtr :=
    if skb.dlen = fec.symLen then ({ fec with txTailLen := fec.symLen }, .skb skb.addr)
    else
      ({ fec with
          txSrcBuf := fec.txSrcBuf.set fec.txFilled
            (skb.payload ++ List.replicate (fec.symLen - skb.dlen) 0)
          txTailLen := skb.dlen }, .slot fec.txFilled)
  match fecEncoderAddSource staged.1.enc staged.2 with
  | none => staged.1
  | some enc => { staged.1 with enc, txFilled := staged.1.txFilled + 1 }

/-- The parity of a block that has become full. -/
def tcpFecEmitFull (env : Env) (s : TcpSock) : TcpSock :=
  match s.fec with
  | none => s
  | some fec =>
    if fec.txFilled = fec.k then (tcpFecEmitBlock env s fec fec.k fec.txTailLen).1 else s

/-- The header of a data segment, with the FEC option of its place in the block. -/
def tcpDataHeader (fec : Option TcpFec) (last : Bool) : Tcphdr :=
  match fec with
  | none => { Tcphdr.zero with ack := true, psh := last }
  | some fec => { Tcphdr.zero with
      ack := true, psh := last, hl := tcpDoffset + tcpOptlenFec / 4
      data := tcpWriteFecOption .source (UInt8.ofNat fec.txFilled) (UInt32.ofNat fec.txBlockId) }

/-- The tag of the next source segment. -/
def tcpDataTag (fec : Option TcpFec) : Option FecTag :=
  fec.map fun fec => { type := .source, index := fec.txFilled, block := fec.txBlockId }

/-- One iteration of the loop of `tcp_send`, up to the point where the segment is built. -/
def tcpSendPrepare (env : Env) (s : TcpSock) : TcpSock :=
  tcpFecPin (tcpFecForceFlush env s)

/-- One iteration of the loop of `tcp_send`: the segment is built, registered with the encoder and
queued, and the block's parity emitted when it is full. -/
def tcpSendPiece (env : Env) (s : TcpSock) (piece : List UInt8 × Bool) : TcpSock :=
  let s := tcpSendPrepare env s
  let a := tcpAllocSkb s (tcpDataTag s.fec) (tcpDataHeader s.fec piece.2) piece.1
  let s := { a.1 with fec := a.1.fec.map fun fec => fec.register a.2 }
  tcpFecEmitFull env (tcpQueueTransmitSkb env s a.2).1

/-- The segment size of `tcp_send`: with FEC one segment is one symbol. -/
def tcpSendMss (s : TcpSock) : ℕ :=
  match s.fec with
  | none => s.smss.toNat
  | some fec => fec.symLen

/-- `tcp_send`. -/
def tcpSend (env : Env) (s : TcpSock) (buf : List UInt8) : TcpSock :=
  tcpRearmUserTimeout ((tcpPieces (tcpSendMss s) buf.length buf).foldl (tcpSendPiece env) s)

/-- `tcp_queue_fin`. -/
def tcpQueueFin (env : Env) (s : TcpSock) : TcpSock :=
  let s := tcpFecFlush env s
  let a := tcpAllocSkb s none { Tcphdr.zero with fin := true, ack := true } []
  (tcpQueueTransmitSkb env a.1 a.2).1

end LvlIp.Tcp
