import LvlIp.Tcp.FecInput
import LvlIp.Tcp.Link

/-!
# Datagrams

The bytes of a datagram, as `ip_rcv` of `src/ip_input.c` and `tcp_init_segment` of `src/tcp.c` look
at them. A frame is read into a zeroed buffer of `BUFLEN` bytes; how many bytes were received is not
looked at again, and all lengths are taken from the headers. `tcpFecInputAccess` lists what the FEC
section reads and writes while it looks at a datagram, in the order of the source.
-/

namespace LvlIp.Tcp

open Fec

/-! ## The checks of `ip_rcv` -/

/-- `sum_every_16bits`, on a little-endian host. -/
def sumEvery16bits : List UInt8 → ℕ
  | a :: b :: p => a.toNat + 256 * b.toNat + sumEvery16bits p
  | [a] => a.toNat
  | [] => 0

/-- One turn of the loop that folds a sum to 16 bits. -/
def foldSum (sum : ℕ) : ℕ := sum % 65536 + sum / 65536

/-- `checksum` with the start sum 0. Two turns fold a sum of 32 bits. -/
def checksum (p : List UInt8) : ℕ := 65535 - foldSum (foldSum (sumEvery16bits p % 2 ^ 32))

theorem foldSum_foldSum_lt {sum : ℕ} (h : sum < 2 ^ 32) : foldSum (foldSum sum) < 65536 := by
  unfold foldSum
  omega

/-- `IPV4`. -/
def ipv4 : ℕ := 4

/-- `IP_TCP`. -/
def ipTcp : UInt8 := 6

/-- `ih->ihl`. -/
def ipIhl (p : List UInt8) : ℕ := (p.getD 0 0).toNat % 16

/-- `ip_len` of a header that `ip_init_pkt` has been through. -/
def ipLen (p : List UInt8) : ℤ := (ntohs p 2).toNat - (ipIhl p * 4 : ℕ)

/-- The first `len` bytes at offset `off` of the buffer. -/
def bytesAt (p : List UInt8) (off len : ℕ) : List UInt8 :=
  (List.range len).map fun i => p.getD (off + i) 0

/-- `ip_rcv` hands the datagram to `tcp_in`. -/
def ipRcv (p : List UInt8) : Bool :=
  (p.getD 0 0).toNat / 16 == ipv4 && decide (5 ≤ ipIhl p) && p.getD 8 0 != 0 &&
    checksum (bytesAt p 0 (ipIhl p * 4)) == 0 && p.getD 9 0 == ipTcp

/-- `BUFLEN`, less the Ethernet header. -/
def datagramMax : ℕ := 1600 - 14

/-- A datagram that has been handed to `tcp_in`. -/
structure Datagram where
  bytes : List UInt8
  fits : bytes.length ≤ datagramMax
  handed : ipRcv bytes

/-! ## `tcp_init_segment` -/

/-- The TCP header of a datagram: it is looked for right behind the fixed IP header. -/
def Datagram.th (d : Datagram) : Tcphdr where
  seq := ntohl d.bytes (ipHdrLen + 4)
  ackSeq := ntohl d.bytes (ipHdrLen + 8)
  hl := (d.bytes.getD (ipHdrLen + 12) 0).toNat / 16
  fin := (d.bytes.getD (ipHdrLen + 13) 0).toNat.testBit 0
  syn := (d.bytes.getD (ipHdrLen + 13) 0).toNat.testBit 1
  rst := (d.bytes.getD (ipHdrLen + 13) 0).toNat.testBit 2
  psh := (d.bytes.getD (ipHdrLen + 13) 0).toNat.testBit 3
  ack := (d.bytes.getD (ipHdrLen + 13) 0).toNat.testBit 4
  data := bytesAt d.bytes (ipHdrLen + tcpHdrLen)
    (4 * ((d.bytes.getD (ipHdrLen + 12) 0).toNat / 16) - tcpHdrLen)

/-- `skb->dlen`. -/
def Datagram.dlen (d : Datagram) : BitVec 32 := BitVec.ofInt 32 (ipLen d.bytes - tcpHlen d.th)

/-- The offset of `skb->payload`. -/
def Datagram.payloadOff (d : Datagram) : ℕ := ipHdrLen + tcpHlen d.th

/-- The segment of a datagram. -/
def Datagram.segment (d : Datagram) : Segment where
  th := d.th
  payload := bytesAt d.bytes d.payloadOff d.dlen.toInt.toNat

/-! ## What the FEC section reads and writes -/

/-- An access of the FEC section: to `struct tcp_fec` through `tsk->fec`, to bytes of the datagram, to
a block slot by a copy of some length, to bytes of `symbol_buf`, or to an entry of one of the arrays. -/
inductive Access
  | fec
  | segment (off len : ℕ)
  | copy (len : ℤ)
  | symbol (off len : ℕ)
  | srcPresent (i : ℕ)
  | redPresent (j : ℕ)
  | out (i : ℕ)
deriving DecidableEq

/-- The accesses of `tcp_init_segment`: the fixed part of the header. -/
def tcpInitSegmentAccess : List Access := [.segment ipHdrLen tcpHdrLen]

/-- The accesses of `tcp_fec_rx_recover`. -/
def tcpFecRxRecoverAccess (fec : TcpFec) (blk : TcpFecBlockRx) : List Access :=
  let k := blk.count fec
  let sym := fec.symLen
  let present (i : ℕ) : Bool := blk.srcPresent.getD i false
  if blk.recovered then []
  else if k = 0 ∨ fec.k < k then []
  else
    let counted := (List.range k).map Access.srcPresent
    let missing := k - ((List.range k).filter present).length
    if missing = 0 ∨ blk.redCount < missing then counted
    else
      match fecDecoderInit fec.ctx k fec.r sym none with
      | none => counted
      | some dec =>
        let dec := blk.feed fec k dec
        counted ++
        ((List.range k).flatMap fun i =>
          .srcPresent i :: if present i then [.symbol (i * sym) sym] else []) ++
        ((List.range fec.r).flatMap fun j =>
          .redPresent j :: if blk.redPresent.getD j false then [.symbol ((fec.k + j) * sym) sym]
            else []) ++
        if ¬ fecDecoderRecoverable dec then []
        else
          ((List.range k).flatMap fun i =>
            .out i :: .srcPresent i :: if present i then [] else [.symbol (i * sym) sym]) ++
          match fecDecoderRecover (fun p => blk.symbolBuf.getD p []) dec with
          | none => []
          | some _ => (List.range k).flatMap fun i =>
              .srcPresent i :: if present i then []
                else [.symbol (i * sym) (blk.spliceLen fec k i), .srcPresent i]

/-- The accesses of `tcp_fec_input` for a source segment. The length is clamped from above only. -/
def tcpFecSourceAccess (fec : TcpFec) (d : Datagram) (blk : TcpFecBlockRx) (idx : ℕ) :
    List Access :=
  let sym := fec.symLen
  let dlen := if (sym : ℤ) < d.dlen.toInt then (sym : ℤ) else d.dlen.toInt
  if fec.k ≤ idx then []
  else
    .srcPresent idx ::
    (if blk.srcPresent.getD idx false then []
      else [.symbol (idx * sym) sym, .copy dlen, .segment d.payloadOff dlen.toNat,
        .symbol (idx * sym) dlen.toNat, .srcPresent idx]) ++
    tcpFecRxRecoverAccess fec (blk.addSource fec idx (tcpInitSegment d.segment))

/-- The accesses of `tcp_fec_input` for a repair segment: `base_seq`, `tail_len` and `k` of the
repair header, and the parity. -/
def tcpFecRepairAccess (fec : TcpFec) (d : Datagram) (blk : TcpFecBlockRx) (idx : ℕ) :
    List Access :=
  let sym := fec.symLen
  if d.dlen.toInt < (fecRepairHdrLen + sym : ℕ) ∨ fec.r ≤ idx then []
  else
    [.segment (d.payloadOff + 8) 4, .segment (d.payloadOff + 14) 2, .segment (d.payloadOff + 1) 1,
      .redPresent idx] ++
    (if blk.redPresent.getD idx false then []
      else [.copy sym, .segment (d.payloadOff + fecRepairHdrLen) sym,
        .symbol ((fec.k + idx) * sym) sym, .redPresent idx]) ++
    tcpFecRxRecoverAccess fec (blk.addRepair fec idx (tcpInitSegment d.segment))

/-- The accesses of `tcp_fec_input`. -/
def tcpFecInputAccess (fec : TcpFec) (d : Datagram) : List Access :=
  let optOff := ipHdrLen + tcpHdrLen
  let opt := TcpOptFec.read d.th.data
  let blk := (tcpFecRxSlot fec opt.blockId).2
  .fec :: .segment (ipHdrLen + 12) 1 ::
  if tcpHlen d.th < tcpHdrLen + tcpOptlenFec then []
  else
    .segment optOff 1 ::
    if d.th.data.getD 0 0 ≠ tcpOptFec then []
    else
      .segment (optOff + 1) 1 ::
      if d.th.data.getD 1 0 ≠ UInt8.ofNat tcpOptlenFec then []
      else
        .segment (optOff + 4) 4 :: .segment (optOff + 2) 1 ::
        if opt.type = FecSymType.source.toByte then
          .segment (optOff + 3) 1 :: tcpFecSourceAccess fec d blk opt.index.toNat
        else if opt.type = FecSymType.repair.toByte then
          .segment (optOff + 3) 1 :: tcpFecRepairAccess fec d blk opt.index.toNat
        else []

end LvlIp.Tcp
