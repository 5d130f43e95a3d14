import LvlIp.Tcp.Data

/-!
# The coded receive path

The FEC section of `src/tcp_input.c`. The block ring and the decoder do not look at the rest of
the socket, so they are functions of `struct tcp_fec` alone: `tcpFecRx` returns the new ring and
the reconstructed segments in the order they are spliced in, and `tcpFecInput` applies these to
the socket. An acknowledgement follows exactly when something was spliced.
-/

namespace LvlIp.Tcp

open Fec

/-- A reconstructed segment handed to `tcp_fec_splice`, with its place in its block. -/
structure Splice where
  index : ℕ
  seq : UInt32
  data : Packet
deriving DecidableEq

/-- The buffer that `tcp_fec_splice` builds. -/
def Splice.skb (sp : Splice) : SkBuff where
  addr := 0
  tag := none
  th := .zero
  payload := sp.data
  seq := sp.seq
  endSeq := sp.seq + UInt32.ofNat sp.data.length

/-- `tcp_fec_splice`. -/
def tcpFecSplice (env : Env) (s : TcpSock) (sp : Splice) : TcpSock := tcpDataQueue env s sp.skb

/-! ## The block ring -/

/-- The slot to reuse: the first inactive one, else the first with the least block id. -/
def tcpFecVictim (rx : List TcpFecBlockRx) : ℕ :=
  match rx.findIdx? (! ·.active) with
  | some i => i
  | none => (List.range rx.length).foldl (fun v i =>
      if (rx.getD i .empty).blockId < (rx.getD v .empty).blockId then i else v) 0

/-- A slot claimed for a block. -/
def TcpFecBlockRx.claim (fec : TcpFec) (blk : TcpFecBlockRx) (blockId : UInt32) :
    TcpFecBlockRx :=
  { TcpFecBlockRx.empty with
    active := true, blockId
    symbolBuf := if blk.symbolBuf = [] then
        List.replicate (fec.k + fec.r) (List.replicate fec.symLen 0)
      else blk.symbolBuf }

/-- `tcp_fec_rx_slot`: the index of the block's slot, and the slot. -/
def tcpFecRxSlot (fec : TcpFec) (blockId : UInt32) : ℕ × TcpFecBlockRx :=
  match fec.rx.findIdx? fun blk => blk.active && blk.blockId == blockId with
  | some i => (i, fec.rx.getD i .empty)
  | none =>
    let v := tcpFecVictim fec.rx
    (v, TcpFecBlockRx.claim fec (fec.rx.getD v .empty) blockId)

/-! ## Recovery -/

/-- The number of source symbols that `tcp_fec_rx_recover` assumes. -/
def TcpFecBlockRx.count (blk : TcpFecBlockRx) (fec : TcpFec) : ℕ :=
  if blk.blkK ≠ 0 then blk.blkK else fec.k

/-- A decoder fed with the symbols the slot holds. The pointers are slot numbers of `symbol_buf`,
whose redundant symbols start at `fec.k`. -/
def TcpFecBlockRx.feed (blk : TcpFecBlockRx) (fec : TcpFec) (k : ℕ) (dec : FecDecoder ℕ) :
    FecDecoder ℕ :=
  let dec := ((List.range k).filter fun i => blk.srcPresent.getD i false).foldl
    (fun dec (i : ℕ) => (fecDecoderAddSource dec i i).getD dec) dec
  ((List.range fec.r).filter fun j => blk.redPresent.getD j false).foldl
    (fun dec (j : ℕ) => (fecDecoderAddRedundant dec j (fec.k + j)).getD dec) dec

/-- The length of a recovered symbol on the stream. -/
def TcpFecBlockRx.spliceLen (blk : TcpFecBlockRx) (fec : TcpFec) (k i : ℕ) : ℕ :=
  if i = k - 1 ∧ 0 < blk.tailLen ∧ blk.tailLen < fec.symLen then blk.tailLen else fec.symLen

/-- The recovered symbols of a block of `k`, in index order. -/
def TcpFecBlockRx.splices (blk : TcpFecBlockRx) (fec : TcpFec) (k : ℕ)
    (out : List (Option Packet)) : List Splice :=
  (List.range k).filterMap fun i => (out.getD i none).map fun p =>
    { index := i, seq := blk.baseSeq + UInt32.ofNat (i * fec.symLen)
      data := p.take (blk.spliceLen fec k i) }

/-- The slot after its missing symbols have been written into it. -/
def TcpFecBlockRx.filled (blk : TcpFecBlockRx) (k : ℕ) (out : List (Option Packet)) :
    TcpFecBlockRx :=
  { blk with
    recovered := true
    srcPresent := blk.srcPresent.mapIdx fun i b => b || decide (i < k)
    srcCount := blk.srcCount + (out.filter Option.isSome).length
    symbolBuf := blk.symbolBuf.mapIdx fun i p => (out.getD i none).getD p }

/-- `tcp_fec_rx_recover`, without the splicing: the slot and what is to be spliced. -/
def tcpFecRxRecover (fec : TcpFec) (blk : TcpFecBlockRx) : TcpFecBlockRx × List Splice :=
  let k := blk.count fec
  if blk.recovered then (blk, [])
  else if k = 0 ∨ fec.k < k then (blk, [])
  else
    let missing := k - ((List.range k).filter fun i => blk.srcPresent.getD i false).length
    if missing = 0 then ({ blk with recovered := true }, [])
    else if blk.redCount < missing then (blk, [])
    else
      match fecDecoderInit fec.ctx k fec.r fec.symLen none with
      | none => (blk, [])
      | some dec =>
        let dec := blk.feed fec k dec
        if ¬ fecDecoderRecoverable dec then (blk, [])
        else
          match fecDecoderRecover (fun p => blk.symbolBuf.getD p []) dec with
          | none => (blk, [])
          | some out => (blk.filled k out, blk.splices fec k out)

/-! ## Registration -/

/-- The symbol of a source segment: at most `sym_len` bytes, zero-padded. -/
def padSymbol (symLen : ℕ) (payload : List UInt8) : Packet :=
  payload.take symLen ++ List.replicate (symLen - payload.length) 0

/-- The registration of a source segment with its block. -/
def TcpFecBlockRx.addSource (blk : TcpFecBlockRx) (fec : TcpFec) (idx : ℕ) (skb : SkBuff) :
    TcpFecBlockRx :=
  if blk.srcPresent.getD idx false then blk
  else
    let blk := { blk with
      symbolBuf := blk.symbolBuf.set idx (padSymbol fec.symLen skb.payload)
      srcPresent := blk.srcPresent.set idx true
      srcCount := blk.srcCount + 1
      baseSeq := skb.seq - UInt32.ofNat (idx * fec.symLen) }
    if skb.dlen < fec.symLen then { blk with tailLen := skb.dlen, blkK := idx + 1 } else blk

/-- The registration of a repair segment with its block. -/
def TcpFecBlockRx.addRepair (blk : TcpFecBlockRx) (fec : TcpFec) (idx : ℕ) (skb : SkBuff) :
    TcpFecBlockRx :=
  let rh := FecRepairHdr.read skb.payload
  let blk := { blk with
    baseSeq := rh.baseSeq, tailLen := rh.tailLen.toNat, blkK := rh.k.toNat }
  if blk.redPresent.getD idx false then blk
  else { blk with
    symbolBuf := blk.symbolBuf.set (fec.k + idx)
      ((skb.payload.drop fecRepairHdrLen).take fec.symLen)
    redPresent := blk.redPresent.set idx true
    redCount := blk.redCount + 1 }

/-- The segment carries the FEC option. -/
def hasFecOption (th : Tcphdr) : Bool :=
  decide (tcpHdrLen + tcpOptlenFec ≤ tcpHlen th) && th.data.getD 0 0 == tcpOptFec &&
    th.data.getD 1 0 == UInt8.ofNat tcpOptlenFec

/-- `tcp_fec_input` on the FEC state: the new state, the segments to splice in, and whether the
segment is consumed. -/
def tcpFecRx (fec : TcpFec) (skb : SkBuff) : TcpFec × List Splice × Bool :=
  if hasFecOption skb.th then
    let opt := TcpOptFec.read skb.th.data
    let slot := tcpFecRxSlot fec opt.blockId
    let idx := opt.index.toNat
    let put (blk : TcpFecBlockRx) : TcpFec := { fec with rx := fec.rx.set slot.1 blk }
    if opt.type = FecSymType.source.toByte then
      if fec.k ≤ idx then (put slot.2, [], false)
      else
        let r := tcpFecRxRecover fec (slot.2.addSource fec idx skb)
        (put r.1, r.2, false)
    else if opt.type = FecSymType.repair.toByte then
      if skb.dlen < fecRepairHdrLen + fec.symLen ∨ fec.r ≤ idx then (put slot.2, [], true)
      else
        let r := tcpFecRxRecover fec (slot.2.addRepair fec idx skb)
        (put r.1, r.2, true)
    else (put slot.2, [], false)
  else (fec, [], false)

/-- `tcp_fec_input`. -/
def tcpFecInput (env : Env) (s : TcpSock) (fec : TcpFec) (skb : SkBuff) : TcpSock × Bool :=
  let r := tcpFecRx fec skb
  let s := r.2.1.foldl (tcpFecSplice env) { s with fec := some r.1 }
  (if r.2.1 = [] then s else tcpSendAck env s, r.2.2)

end LvlIp.Tcp
