import LvlIp.Shift.State
import LvlIp.Send.Repair

/-!
# Writing under a translation

A write queues source segments, and on a coded connection emits the parity of the blocks they fill.
The only sequence number in it is the base of the block, `snd_nxt` at its first symbol, which the
repair segments carry: it moves with `snd_nxt`, unless it is 0 (`Pinned`).
-/

namespace LvlIp.Tcp

open Fec Foundations

/-- A block that has a symbol has a base sequence number, which is not 0. -/
def Pinned (s : TcpSock) : Prop :=
  ∀ fec, s.fec = some fec → 0 < fec.txFilled → fec.txBaseSeq ≠ 0

section Write

variable {σ : Shift} {s s' : TcpSock} (env : Env)

/-! ## Parity -/

theorem shiftSack_tcpWriteFecOption (c : UInt32) (type : FecSymType) (index : UInt8)
    (blockId : UInt32) :
    shiftSack c (tcpWriteFecOption type index blockId) = tcpWriteFecOption type index blockId := by
  unfold shiftSack
  refine if_neg fun h => ?_
  have hhead : (31 : UInt8) = 1 := (List.cons.inj h).1
  exact absurd hhead (by decide)

/-- **A repair segment**: its header carries the base of the block. -/
theorem Shifted.sendRepair (h : Shifted σ s s') {fec : TcpFec}
    (hbase : σ.snd = 0 ∨ fec.txBaseSeq ≠ 0) (blkK j tailLen : ℕ) (parity : Packet) :
    Shifted σ (tcpFecSendRepair env s fec blkK j tailLen parity).1
        (tcpFecSendRepair env s' (fec.shift σ.snd) blkK j tailLen parity).1 ∧
      (tcpFecSendRepair env s' (fec.shift σ.snd) blkK j tailLen parity).2 =
        (tcpFecSendRepair env s fec blkK j tailLen parity).2 := by
  have hmoved : (fec.shift σ.snd).txBaseSeq = fec.txBaseSeq + σ.snd := by
    unfold TcpFec.shift
    dsimp only
    split
    · next h0 =>
      rw [h0, hbase.resolve_right fun hne => hne h0]
      rfl
    · rfl
  have haddr : s'.nextAddr = s.nextAddr := by rw [h.eq]; rfl
  have hout : s'.out.length = s.out.length := by
    rw [h.eq]
    exact List.length_map _
  have hnxt : s'.tcb.sndNxt = s.tcb.sndNxt + σ.snd := by rw [h.eq]; rfl
  have halloc : Shifted σ { s with nextAddr := s.nextAddr + 1 }
      { s' with nextAddr := s.nextAddr + 1 } := h.of (by rw [h.eq]; rfl) ⟨rfl, rfl, rfl⟩
  refine ⟨?_, congrArg env.link hout⟩
  unfold tcpFecSendRepair tcpAllocSkb
  dsimp only
  rw [hmoved, haddr, hnxt]
  refine (halloc.transmit env ?_ s.tcb.sndNxt).1
  refine ⟨rfl, rfl, ?_, 0, 0, ?_⟩
  · dsimp only
    rw [shiftPayload_write]
    rfl
  · dsimp only
    rw [shiftSack_tcpWriteFecOption]
    rfl

theorem Shifted.sendRepairs (h : Shifted σ s s') {fec : TcpFec}
    (hbase : σ.snd = 0 ∨ fec.txBaseSeq ≠ 0) (blkK tailLen j : ℕ) (ps : List Packet) :
    Shifted σ (tcpFecSendRepairs env fec blkK tailLen s j ps).1
        (tcpFecSendRepairs env (fec.shift σ.snd) blkK tailLen s' j ps).1 ∧
      (tcpFecSendRepairs env (fec.shift σ.snd) blkK tailLen s' j ps).2 =
        (tcpFecSendRepairs env fec blkK tailLen s j ps).2 := by
  induction ps generalizing s s' j with
  | nil => exact ⟨h, rfl⟩
  | cons parity ps ih =>
    obtain ⟨hsock, hret⟩ := h.sendRepair env hbase blkK j tailLen parity
    unfold tcpFecSendRepairs
    dsimp only
    rw [hret]
    split
    · exact ⟨hsock, rfl⟩
    · exact ih hsock (j + 1)

/-- The encoder reads the same symbols. -/
theorem shift_symMem (fec : TcpFec) :
    symMem env (s.shift σ) (fec.shift σ.snd) = symMem env s fec := by
  funext ptr
  cases ptr with
  | skb addr =>
    have hfind : (s.shift σ).writeQueue.find? (fun skb => skb.addr = addr) =
        (s.writeQueue.find? fun skb => skb.addr = addr).map (SkBuff.shiftOut σ) :=
      List.find?_map
    have hlen : (s.shift σ).out.length = s.out.length := List.length_map _
    unfold symMem
    dsimp only
    rw [hfind, hlen]
    cases s.writeQueue.find? fun skb => skb.addr = addr <;> rfl
  | slot i => rfl

/-- **The parity of a block.** -/
theorem Shifted.emitBlock (h : Shifted σ s s') {fec : TcpFec} {blkK : ℕ}
    (hbase : σ.snd = 0 ∨ (blkK ≠ 0 → fec.txBaseSeq ≠ 0)) (tailLen : ℕ) :
    Shifted σ (tcpFecEmitBlock env s fec blkK tailLen).1
      (tcpFecEmitBlock env s' (fec.shift σ.snd) blkK tailLen).1 := by
  have hmem : symMem env s' (fec.shift σ.snd) = symMem env s fec := by
    rw [h.eq]
    exact shift_symMem env fec
  have henc : tcpFecBlockEncoder (fec.shift σ.snd) blkK = tcpFecBlockEncoder fec blkK := rfl
  have hk : (fec.shift σ.snd).k = fec.k := rfl
  unfold tcpFecEmitBlock
  rw [hmem, henc, hk]
  split
  · exact h
  · next hne =>
    split
    · exact h
    · cases (tcpFecBlockEncoder fec blkK).bind (fecEncoderGenerate (symMem env s fec)) with
      | none => exact h
      | some parity =>
        obtain ⟨hsock, hret⟩ := h.sendRepairs env (hbase.imp_right fun hb => hb hne) blkK tailLen 0
          parity
        dsimp only
        rw [hret]
        split
        · exact hsock
        · exact hsock.of (by rw [hsock.eq]; rfl) ⟨rfl, rfl, rfl⟩

theorem Shifted.fec_some (h : Shifted σ s s') {fec : TcpFec} (hfec : s.fec = some fec) :
    s'.fec = some (fec.shift σ.snd) := by
  rw [h.eq]
  change s.fec.map _ = _
  rw [hfec]
  rfl

theorem Shifted.fec_none (h : Shifted σ s s') (hfec : s.fec = none) : s'.fec = none := by
  rw [h.eq]
  change s.fec.map _ = _
  rw [hfec]
  rfl

theorem Shifted.forceFlush (h : Shifted σ s s') (hpin : σ.snd = 0 ∨ Pinned s) :
    Shifted σ (tcpFecForceFlush env s) (tcpFecForceFlush env s') := by
  unfold tcpFecForceFlush
  cases hfec : s.fec with
  | none =>
    rw [h.fec_none hfec]
    exact h
  | some fec =>
    rw [h.fec_some hfec]
    change Shifted σ (if _ then _ else _) (if fec.k ≤ fec.txFilled then _ else _)
    split
    · exact h.emitBlock env (hpin.imp_right fun hp hne => hp fec hfec (Nat.pos_of_ne_zero hne)) _
    · exact h

theorem Shifted.flush (h : Shifted σ s s') (hpin : σ.snd = 0 ∨ Pinned s) :
    Shifted σ (tcpFecFlush env s) (tcpFecFlush env s') := by
  unfold tcpFecFlush
  cases hfec : s.fec with
  | none =>
    rw [h.fec_none hfec]
    exact h
  | some fec =>
    rw [h.fec_some hfec]
    change Shifted σ (if _ then _ else _) (if fec.txFilled = 0 then _ else _)
    split
    · exact h
    · exact h.emitBlock env (hpin.imp_right fun hp hne => hp fec hfec (Nat.pos_of_ne_zero hne)) _

theorem Shifted.emitFull (h : Shifted σ s s') (hpin : σ.snd = 0 ∨ Pinned s) :
    Shifted σ (tcpFecEmitFull env s) (tcpFecEmitFull env s') := by
  unfold tcpFecEmitFull
  cases hfec : s.fec with
  | none =>
    rw [h.fec_none hfec]
    exact h
  | some fec =>
    rw [h.fec_some hfec]
    change Shifted σ (if _ then _ else _) (if fec.txFilled = fec.k then _ else _)
    split
    · next hfull =>
      refine h.emitBlock env (hpin.imp_right fun hp hne => hp fec hfec ?_) _
      rw [hfull]
      exact Nat.pos_of_ne_zero hne
    · exact h

/-! ## Segments -/

theorem shift_pin {nxt : UInt32} (h : σ.snd = 0 ∨ nxt ≠ 0) (fec : TcpFec) :
    (fec.shift σ.snd).pin (nxt + σ.snd) = (fec.pin nxt).shift σ.snd := by
  unfold TcpFec.pin
  change (if fec.txFilled = 0 then _ else _) = _
  split
  · unfold TcpFec.shift
    dsimp only
    rw [shift_of_ne h]
  · rfl

theorem Shifted.fecPin (h : Shifted σ s s') (hnxt : σ.snd = 0 ∨ s.tcb.sndNxt ≠ 0) :
    Shifted σ (tcpFecPin s) (tcpFecPin s') := by
  have hfec : ((s.shift σ).fec.map fun fec => fec.pin (s.shift σ).tcb.sndNxt) =
      (s.fec.map fun fec => fec.pin s.tcb.sndNxt).map (TcpFec.shift σ.snd) := by
    change (s.fec.map _).map _ = _
    rw [Option.map_map, Option.map_map]
    exact congrArg (fun f => s.fec.map f) (funext fun fec => shift_pin hnxt fec)
  refine h.of ?_ ⟨rfl, rfl, rfl⟩
  rw [h.eq]
  exact congrArg (fun fec : Option TcpFec => { s.shift σ with fec }) hfec

theorem shift_register (c : UInt32) (fec : TcpFec) (skb : SkBuff) :
    (fec.shift c).register skb = (fec.register skb).shift c := by
  have hlen : (fec.shift c).symLen = fec.symLen := rfl
  have henc : (fec.shift c).enc = fec.enc := rfl
  have hfilled : (fec.shift c).txFilled = fec.txFilled := rfl
  unfold TcpFec.register
  rw [hlen]
  split
  · dsimp only
    rw [henc]
    cases fecEncoderAddSource fec.enc (.skb skb.addr) <;> rfl
  · dsimp only
    rw [henc, hfilled]
    cases fecEncoderAddSource fec.enc (.slot fec.txFilled) <;> rfl

theorem tcpDataTag_shift (c : UInt32) (fec : Option TcpFec) :
    tcpDataTag (fec.map (TcpFec.shift c)) = tcpDataTag fec := by
  cases fec <;> rfl

theorem tcpDataHeader_shift (c : UInt32) (fec : Option TcpFec) (last : Bool) :
    tcpDataHeader (fec.map (TcpFec.shift c)) last = tcpDataHeader fec last := by
  cases fec <;> rfl

theorem repairTag_tcpDataTag (fec : Option TcpFec) : repairTag (tcpDataTag fec) = false := by
  cases fec <;> rfl

/-- A data segment, before its header is filled in. -/
def tcpDataBuf (fec : Option TcpFec) (addr : ℕ) (piece : List UInt8 × Bool) : SkBuff where
  addr := addr
  tag := tcpDataTag fec
  th := tcpDataHeader fec piece.2
  payload := piece.1
  seq := 0
  endSeq := 0

theorem shiftOut_tcpDataBuf {fec : Option TcpFec} (hplain : σ.rcv = 0 ∨ fec = none) (addr : ℕ)
    (piece : List UInt8 × Bool) :
    (tcpDataBuf fec addr piece).shiftOut σ = tcpDataBuf fec addr piece := by
  cases fec with
  | none => rfl
  | some fec =>
    have hzero := hplain.resolve_right nofun
    unfold SkBuff.shiftOut tcpDataBuf tcpDataHeader
    dsimp only
    rw [hzero, shiftSack_zero]
    rfl

/-- **A segment is built, registered and queued.** -/
theorem Shifted.sendQueued (h : Shifted σ s s') (hplain : σ.rcv = 0 ∨ s.fec = none)
    (hnxt : σ.snd = 0 ∨ s.tcb.sndNxt ≠ 0) (piece : List UInt8 × Bool) :
    Shifted σ (tcpSendQueued env s piece) (tcpSendQueued env s' piece) := by
  have hpin := h.fecPin hnxt
  have hnxt₁ : σ.snd = 0 ∨ (tcpFecPin s).tcb.sndNxt ≠ 0 := hnxt
  have hplain₁ : σ.rcv = 0 ∨ (tcpFecPin s).fec = none := by
    refine hplain.imp_right fun hfec => ?_
    unfold tcpFecPin
    rw [hfec]
    rfl
  unfold tcpSendQueued
  dsimp only
  generalize tcpFecPin s = s₁ at hpin hnxt₁ hplain₁
  generalize tcpFecPin s' = s₁' at hpin
  have hfec : s₁'.fec = s₁.fec.map (TcpFec.shift σ.snd) := by rw [hpin.eq]; rfl
  have haddr : s₁'.nextAddr = s₁.nextAddr := by rw [hpin.eq]; rfl
  have hreg : (s₁'.fec.map fun fec => fec.register (tcpDataBuf s₁.fec s₁.nextAddr piece)) =
      (s₁.fec.map fun fec => fec.register (tcpDataBuf s₁.fec s₁.nextAddr piece)).map
        (TcpFec.shift σ.snd) := by
    rw [hfec, Option.map_map, Option.map_map]
    exact congrArg (fun f => s₁.fec.map f) (funext fun fec => shift_register _ fec _)
  have hset : Shifted σ
      { s₁ with
        nextAddr := s₁.nextAddr + 1
        fec := s₁.fec.map fun fec => fec.register (tcpDataBuf s₁.fec s₁.nextAddr piece) }
      { s₁' with
        nextAddr := s₁'.nextAddr + 1
        fec := s₁'.fec.map fun fec => fec.register (tcpDataBuf s₁.fec s₁.nextAddr piece) } := by
    refine hpin.of ?_ ⟨rfl, rfl, rfl⟩
    rw [hreg, hpin.eq]
    rfl
  have hsrc : SourceBuf σ (tcpDataBuf s₁.fec s₁.nextAddr piece) :=
    .inr (repairTag_tcpDataTag s₁.fec)
  have hbuf := shiftOut_tcpDataBuf hplain₁ s₁.nextAddr piece
  have hsame := sendsSame_shiftOut hsrc
  rw [hbuf] at hsame
  have hqueue := hset.queueTransmit env hsame hsrc hnxt₁ fun _ => hbuf.symm
  have hsecond : tcpAllocSkb s₁' (tcpDataTag s₁'.fec) (tcpDataHeader s₁'.fec piece.2) piece.1 =
      ({ s₁' with nextAddr := s₁'.nextAddr + 1 }, tcpDataBuf s₁.fec s₁.nextAddr piece) := by
    unfold tcpAllocSkb tcpDataBuf
    rw [hfec, tcpDataTag_shift, tcpDataHeader_shift, haddr]
  rw [hsecond]
  exact hqueue

/-! ## The base of the block -/

theorem fec_tcpFecEmitBlock (s : TcpSock) (fec : TcpFec) (blkK tailLen : ℕ) :
    (tcpFecEmitBlock env s fec blkK tailLen).1.fec = s.fec ∨
      (tcpFecEmitBlock env s fec blkK tailLen).1.fec = some fec.nextBlock := by
  unfold tcpFecEmitBlock
  split
  · exact .inl rfl
  · split
    · exact .inl rfl
    · split
      · exact .inl rfl
      · next parity _ =>
        obtain ⟨ts, heq, -⟩ := exists_tcpFecSendRepairs env fec blkK tailLen parity s 0
        dsimp only
        split
        · rw [heq]
          exact .inl rfl
        · exact .inr rfl

theorem Pinned.emitBlock (h : Pinned s) (fec : TcpFec) (blkK tailLen : ℕ) :
    Pinned (tcpFecEmitBlock env s fec blkK tailLen).1 := by
  intro fec₁ hfec₁ hpos
  rcases fec_tcpFecEmitBlock env s fec blkK tailLen with heq | heq
  · exact h fec₁ (heq.symm.trans hfec₁) hpos
  · rw [← Option.some.inj (heq.symm.trans hfec₁)] at hpos
    exact absurd hpos (Nat.lt_irrefl 0)

theorem Pinned.forceFlush (h : Pinned s) : Pinned (tcpFecForceFlush env s) := by
  unfold tcpFecForceFlush
  split
  · exact h
  · split
    · exact h.emitBlock env _ _ _
    · exact h

theorem Pinned.emitFull (h : Pinned s) : Pinned (tcpFecEmitFull env s) := by
  unfold tcpFecEmitFull
  split
  · exact h
  · split
    · exact h.emitBlock env _ _ _
    · exact h

theorem TcpFec.register_txBaseSeq (fec : TcpFec) (skb : SkBuff) :
    (fec.register skb).txBaseSeq = fec.txBaseSeq := by
  unfold TcpFec.register
  dsimp only
  split <;> split <;> rfl

theorem Pinned.sendQueued (h : Pinned s) (hnxt : s.tcb.sndNxt ≠ 0) (piece : List UInt8 × Bool) :
    Pinned (tcpSendQueued env s piece) := by
  have hfec : (tcpSendQueued env s piece).fec = s.fec.map fun fec =>
      (fec.pin s.tcb.sndNxt).register (tcpDataBuf (tcpFecPin s).fec s.nextAddr piece) := by
    refine (congrArg RcvView.fec (rcv_tcpQueueTransmitSkb env _ _)).trans ?_
    change (s.fec.map _).map _ = _
    rw [Option.map_map]
    rfl
  intro fec₁ hfec₁ _
  rw [hfec, Option.map_eq_some_iff] at hfec₁
  obtain ⟨fec, hs, rfl⟩ := hfec₁
  rw [TcpFec.register_txBaseSeq]
  unfold TcpFec.pin
  split
  · exact hnxt
  · next hne => exact h fec hs (Nat.pos_of_ne_zero hne)

/-! ## Writes -/

theorem tcpSendPiece_eq (s : TcpSock) (piece : List UInt8 × Bool) :
    tcpSendPiece env s piece =
      tcpFecEmitFull env (tcpSendQueued env (tcpFecForceFlush env s) piece) := rfl

theorem sndNxt_tcpFecForceFlush (s : TcpSock) :
    (tcpFecForceFlush env s).tcb.sndNxt = s.tcb.sndNxt := by
  unfold tcpFecForceFlush
  split
  · rfl
  · split
    · obtain ⟨ts, fec', heq⟩ := tcpFecEmitBlock_frame env s _ _ _
      rw [heq]
      rfl
    · rfl

theorem Pinned.sendPiece (h : Pinned s) (hnxt : s.tcb.sndNxt ≠ 0) (piece : List UInt8 × Bool) :
    Pinned (tcpSendPiece env s piece) := by
  rw [tcpSendPiece_eq]
  refine Pinned.emitFull env (Pinned.sendQueued env (h.forceFlush env) ?_ piece)
  rwa [sndNxt_tcpFecForceFlush]

/-- Without FEC a write stays without it. -/
theorem fec_tcpSendPiece_plain (hfec : s.fec = none) (piece : List UInt8 × Bool) :
    (tcpSendPiece env s piece).fec = none := by
  have hplain : (tcpQueueTransmitSkb env { s with nextAddr := s.nextAddr + 1 }
      (plainBuf s.nextAddr piece)).1.fec = none :=
    (congrArg RcvView.fec (rcv_tcpQueueTransmitSkb env _ _)).trans hfec
  rw [tcpSendPiece_plain env hfec]
  unfold tcpFecEmitFull
  rw [hplain]
  exact hplain

theorem fec_tcpFecForceFlush_plain (hfec : s.fec = none) :
    (tcpFecForceFlush env s).fec = none := by
  unfold tcpFecForceFlush
  rw [hfec]
  exact hfec

/-- **One segment of a write.** -/
theorem Shifted.sendPiece (h : Shifted σ s s') (hplain : σ.rcv = 0 ∨ s.fec = none)
    (hpin : σ.snd = 0 ∨ Pinned s) (hnxt : σ.snd = 0 ∨ s.tcb.sndNxt ≠ 0)
    (piece : List UInt8 × Bool) :
    Shifted σ (tcpSendPiece env s piece) (tcpSendPiece env s' piece) := by
  have hflush := h.forceFlush env hpin
  have hnxt₁ : σ.snd = 0 ∨ (tcpFecForceFlush env s).tcb.sndNxt ≠ 0 := by
    rwa [sndNxt_tcpFecForceFlush]
  have hqueued := hflush.sendQueued env (hplain.imp_right (fec_tcpFecForceFlush_plain env)) hnxt₁
    piece
  rw [tcpSendPiece_eq, tcpSendPiece_eq]
  refine hqueued.emitFull env ?_
  obtain hzero | ⟨hp, hn⟩ := or_and_left.2 ⟨hpin, hnxt₁⟩
  · exact .inl hzero
  · exact .inr ((hp.forceFlush env).sendQueued env hn piece)

/-- The pieces of a write, none of them sent from 0. -/
def PiecesOk (env : Env) : TcpSock → List (List UInt8 × Bool) → Prop
  | _, [] => True
  | s, piece :: pieces => s.tcb.sndNxt ≠ 0 ∧ PiecesOk env (tcpSendPiece env s piece) pieces

theorem Shifted.sendPieces (pieces : List (List UInt8 × Bool)) (h : Shifted σ s s')
    (hplain : σ.rcv = 0 ∨ s.fec = none) (hok : σ.snd = 0 ∨ Pinned s ∧ PiecesOk env s pieces) :
    Shifted σ (pieces.foldl (tcpSendPiece env) s) (pieces.foldl (tcpSendPiece env) s') := by
  induction pieces generalizing s s' with
  | nil => exact h
  | cons piece pieces ih =>
    have hpin := hok.imp_right And.left
    have hnxt := hok.imp_right fun ho => ho.2.1
    refine ih (h.sendPiece env hplain hpin hnxt piece) ?_ ?_
    · exact hplain.imp_right fun hfec => fec_tcpSendPiece_plain env hfec piece
    · exact hok.imp_right fun ⟨hp, hn, hrest⟩ => ⟨hp.sendPiece env hn piece, hrest⟩

/-- The pieces of a write that `tcp_write` accepts, none of them sent from 0. -/
def WriteOk (env : Env) (s : TcpSock) (buf : List UInt8) : Prop :=
  s.writable → PiecesOk env s (tcpPieces (tcpSendMss s) buf.length buf)

/-- **A write.** -/
theorem Shifted.write (h : Shifted σ s s') (hplain : σ.rcv = 0 ∨ s.fec = none) (buf : List UInt8)
    (hok : σ.snd = 0 ∨ Pinned s ∧ WriteOk env s buf) :
    Shifted σ (tcpWrite env s buf).1 (tcpWrite env s' buf).1 := by
  have herr : s'.err = s.err := by rw [h.eq]; rfl
  have hst : s'.state = s.state := by rw [h.eq]; rfl
  have hsmss : s'.smss = s.smss := by rw [h.eq]; rfl
  have hmss : tcpSendMss s' = tcpSendMss s := by
    unfold tcpSendMss
    cases hfec : s.fec with
    | none => rw [h.fec_none hfec, hsmss]
    | some fec =>
      rw [h.fec_some hfec]
      rfl
  have hsend : s.writable → Shifted σ (tcpSend env s buf) (tcpSend env s' buf) := by
    intro hw
    unfold tcpSend
    rw [hmss]
    exact (h.sendPieces env _ hplain (hok.imp_right fun ho => ⟨ho.1, ho.2 hw⟩)).rearmUserTimeout
  unfold tcpWrite
  rw [herr, hst]
  split
  · exact h
  · next h0 =>
    rw [not_not] at h0
    cases hs : s.state with
    | established => exact hsend (by unfold TcpSock.writable; rw [h0, hs]; rfl)
    | closeWait => exact hsend (by unfold TcpSock.writable; rw [h0, hs]; rfl)
    | _ => exact h

theorem sndNxt_tcpFecFlush (s : TcpSock) : (tcpFecFlush env s).tcb.sndNxt = s.tcb.sndNxt := by
  unfold tcpFecFlush
  split
  · rfl
  · split
    · rfl
    · obtain ⟨ts, fec', heq⟩ := tcpFecEmitBlock_frame env s _ _ _
      rw [heq]
      rfl

theorem Shifted.queueFin (h : Shifted σ s s') (hpin : σ.snd = 0 ∨ Pinned s)
    (hnxt : σ.snd = 0 ∨ s.tcb.sndNxt ≠ 0) :
    Shifted σ (tcpQueueFin env s) (tcpQueueFin env s') := by
  have hflush := h.flush env hpin
  have hnxt₁ : σ.snd = 0 ∨ (tcpFecFlush env s).tcb.sndNxt ≠ 0 := by
    rwa [sndNxt_tcpFecFlush]
  obtain ⟨halloc, hskb⟩ := hflush.alloc none { Tcphdr.zero with fin := true, ack := true } []
  unfold tcpQueueFin
  dsimp only
  rw [hskb]
  exact halloc.queueTransmit env (sendsSame_self rfl (.inr rfl)) (.inr rfl) hnxt₁ fun _ => rfl

/-- **A close.** -/
theorem Shifted.close (h : Shifted σ s s') (hpin : σ.snd = 0 ∨ Pinned s)
    (hnxt : σ.snd = 0 ∨ s.tcb.sndNxt ≠ 0) : Shifted σ (tcpClose env s) (tcpClose env s') := by
  have hst : s'.state = s.state := by rw [h.eq]; rfl
  unfold tcpClose
  rw [hst]
  cases s.state with
  | established =>
    have hfw : Shifted σ { s with state := .finWait1 } { s' with state := .finWait1 } :=
      h.of (by rw [h.eq]; rfl) ⟨rfl, rfl, rfl⟩
    exact hfw.queueFin env hpin hnxt
  | closeWait => exact h.queueFin env hpin hnxt
  | listen | synSent | synReceived => exact h.done
  | _ => exact h.of (by rw [h.eq]; rfl) ⟨rfl, rfl, rfl⟩

end Write

end LvlIp.Tcp
