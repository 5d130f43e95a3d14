import LvlIp.Send.Base
import LvlIp.Tcp.Link

/-!
# The slots of a block

What `tcp_fec_emit_block` does for every outcome, and the place of a new symbol in its block.

* `emitsAll_iff`: the parity of a block goes out and the next block starts exactly when the link
  returns zero for all of its repair segments. The layers below return the number of bytes
  written, so on a link that works the first repair segment already counts as a failure
  (`not_emitsAll_of_up`).
* `staged_inSlots`: new symbols get a slot of their own as long as a full block can be emitted.
-/

namespace LvlIp.Tcp

open Fec Foundations Relation

/-! ## Emitting a block -/

/-- `tcp_fec_flush` with its result. -/
def tcpFecFlushRet (env : Env) (s : TcpSock) : TcpSock × ℤ :=
  match s.fec with
  | none => (s, 0)
  | some fec =>
    if fec.txFilled = 0 then (s, 0) else tcpFecEmitBlock env s fec fec.txFilled fec.txTailLen

theorem tcpFecFlushRet_fst (env : Env) (s : TcpSock) :
    (tcpFecFlushRet env s).1 = tcpFecFlush env s := by
  unfold tcpFecFlushRet tcpFecFlush
  cases s.fec with
  | none => rfl
  | some fec =>
    dsimp only
    split <;> rfl

/-- All repair segments of the current block went out, and the next block has started. -/
structure EmitsAll (s : TcpSock) (fec : TcpFec) (r : TcpSock × ℤ) : Prop where
  ret : r.2 = 0
  out : ∃ ts, r.1.out = s.out ++ ts ∧ ts.length = fec.r ∧ ∀ j t, ts[j]? = some t →
    t.tag = some { type := .repair, index := j, block := fec.txBlockId } ∧
      ∃ p, t.seg.payload = (repairHdr fec fec.txFilled j fec.txTailLen).write ++ p
  next : ∃ fec', r.1.fec = some fec' ∧ fec'.txBlockId = fec.txBlockId + 1 ∧ fec'.txFilled = 0 ∧
    fec'.enc.src = []
  sndNxt : r.1.tcb.sndNxt = s.tcb.sndNxt
  writeQueue : r.1.writeQueue = s.writeQueue

section Emit

variable {env : Env} {s : TcpSock} {fec : TcpFec}

theorem tcpFecEmitBlock_snd (h : EncOk fec) (hpos : 0 < fec.txFilled) :
    (tcpFecEmitBlock env s fec fec.txFilled fec.txTailLen).2 = 0 ↔ s.linkTakes env fec.r := by
  have hparity : (tcpFecBlockEncoder fec fec.txFilled).bind
      (fecEncoderGenerate (symMem env s fec)) = some (fec.parity env s) := h.parity_eq hpos env s
  have hlen : (fec.parity env s).length = fec.r := by
    rw [TcpFec.parity, blockParity, List.length_map, fecRedX, List.length_map, List.length_range]
  obtain ⟨-, -, -, -, hlink, -⟩ :=
    exists_tcpFecSendRepairs env fec fec.txFilled fec.txTailLen (fec.parity env s) s 0
  rw [hlen] at hlink
  rw [← hlink]
  unfold tcpFecEmitBlock
  rw [if_neg (by omega), if_neg (Nat.not_lt.mpr h.le), hparity]
  dsimp only
  split
  · next hne => exact iff_of_false (by simp) hne
  · next h0 => exact iff_of_true rfl (by simpa using h0)

/-- **A block is emitted as a whole exactly when the link returns zero** for its repair
segments. -/
theorem emitsAll_iff (hfec : s.fec = some fec) (h : EncOk fec) (hpos : 0 < fec.txFilled) :
    EmitsAll s fec (tcpFecEmitBlock env s fec fec.txFilled fec.txTailLen) ↔
      s.linkTakes env fec.r := by
  obtain ⟨ps, ts, hem⟩ := exists_emission env hfec h hpos
  have hsnd := @tcpFecEmitBlock_snd env s fec h hpos
  generalize tcpFecEmitBlock env s fec fec.txFilled fec.txTailLen = r at *
  constructor
  · exact fun hall => hsnd.mp hall.ret
  · intro hlink
    have hsock := hem.sock
    rw [if_pos hlink] at hsock
    refine ⟨hsnd.mpr hlink, ⟨ts, by rw [hsock]; rfl, hem.all hlink, fun j t hj => ?_⟩,
      ⟨fec.nextBlock, by rw [hsock], rfl, rfl, rfl⟩, by rw [hsock]; rfl, by rw [hsock]; rfl⟩
    obtain ⟨p, -, hof⟩ := hem.repairs j t hj
    exact ⟨hof.tag, _, hof.payload⟩

theorem tcpFecFlushRet_eq (hfec : s.fec = some fec) (hpos : 0 < fec.txFilled) :
    tcpFecFlushRet env s = tcpFecEmitBlock env s fec fec.txFilled fec.txTailLen := by
  unfold tcpFecFlushRet
  rw [hfec]
  exact if_neg (by omega)

end Emit

/-- **On a link that works no block is emitted as a whole**: the number of bytes written for the
first repair segment is taken for a failure. -/
theorem not_emitsAll_of_up (net : Net) (daddr : UInt32) (hup : net.Up daddr) (len : ℕ → ℕ)
    (freed : ℕ → ℕ → Packet) (s : TcpSock) (fec : TcpFec) (hfec : s.fec = some fec)
    (henc : EncOk fec) (hpos : 1 ≤ fec.txFilled) :
    let env := net.env daddr len freed
    ¬ EmitsAll s fec (tcpFecEmitBlock env s fec fec.txFilled fec.txTailLen) ∧
      ¬ EmitsAll s fec (tcpFecFlushRet env s) := by
  intro env
  have hemit : ¬ EmitsAll s fec (tcpFecEmitBlock env s fec fec.txFilled fec.txTailLen) := by
    rw [emitsAll_iff hfec henc hpos]
    intro hlink
    have hzero := hlink 0 henc.r_pos
    exact (hup.link_pos len freed _).ne' hzero
  exact ⟨hemit, by rwa [tcpFecFlushRet_eq hfec hpos]⟩

/-- A tap device that takes every frame, with one host on the link. -/
def tapUp : Net where
  routeLookup _ := some { isGateway := false, gateway := 0 }
  arpGetHwaddr _ := some [2, 0, 0, 0, 0, 1]
  write _ len := len

theorem tapUp_up (daddr : UInt32) : tapUp.Up daddr :=
  ⟨⟨_, rfl, _, rfl⟩, fun _ _ => rfl⟩

/-- The sender with a block of one short symbol in progress. -/
def oneStaged : TcpSock := codedStep quietLink codedSock (.write [1, 2, 3])

theorem exists_fec_oneStaged : ∃ fec, oneStaged.fec = some fec ∧ EncOk fec ∧ fec.txFilled = 1 := by
  have henc := (freshFec_tcpFecFresh.toEncOk.pin 101).register
    (codedBuf 0 tcpFecFresh ([1, 2, 3], true))
  exact ⟨_, rfl, henc, by decide⟩

/-- The block in progress is not emitted as a whole. -/
theorem not_emitsAll_oneStaged : ∃ fec, oneStaged.fec = some fec ∧ fec.txFilled = 1 ∧
    let env := tapUp.env 0x0a000001 (fun _ => 556) (fun _ _ => [])
    ¬ EmitsAll oneStaged fec (tcpFecEmitBlock env oneStaged fec fec.txFilled fec.txTailLen) ∧
      ¬ EmitsAll oneStaged fec (tcpFecFlushRet env oneStaged) := by
  obtain ⟨fec, hfec, henc, hone⟩ := exists_fec_oneStaged
  exact ⟨fec, hfec, hone, not_emitsAll_of_up tapUp _ (tapUp_up _) _ _ oneStaged fec hfec henc
    hone.ge⟩

/-- The flush of a block of one symbol, on a link whose writes all succeed. -/
theorem exists_not_emitsAll : ∃ (net : Net) (daddr : UInt32) (s : TcpSock) (fec : TcpFec),
    net.Up daddr ∧ s.fec = some fec ∧ EncOk fec ∧ fec.txFilled = 1 ∧
      ¬ EmitsAll s fec (tcpFecFlushRet (net.env daddr (fun _ => 556) fun _ _ => []) s) := by
  obtain ⟨fec, hfec, henc, hone⟩ := exists_fec_oneStaged
  refine ⟨tapUp, 0x0a000001, oneStaged, fec, tapUp_up _, hfec, henc, hone, ?_⟩
  rw [tcpFecFlushRet_eq hfec hone.ge, emitsAll_iff hfec henc hone.ge]
  intro hlink
  exact ((tapUp_up 0x0a000001).link_pos _ _ _).ne' (hlink 0 henc.r_pos)

/-! ## Every outcome -/

/-- The forced flush, when `fec_encoder_generate` succeeds or not. A failure is returned before
anything has changed. -/
def tcpFecForceFlushOr (env : Env) (gen : Bool) (s : TcpSock) : TcpSock :=
  if gen then tcpFecForceFlush env s else s

/-- One iteration of the loop of `tcp_send`, with the outcomes of generating the parity in the
forced flush and for the full block. -/
def tcpSendPieceOr (env : Env) (s : TcpSock) (piece : (List UInt8 × Bool) × Bool × Bool) :
    TcpSock :=
  let s := tcpFecPin (tcpFecForceFlushOr env piece.2.1 s)
  let a := tcpAllocSkb s (tcpDataTag s.fec) (tcpDataHeader s.fec piece.1.2) piece.1.1
  let s := { a.1 with fec := a.1.fec.map fun fec => fec.register a.2 }
  let s := (tcpQueueTransmitSkb env s a.2).1
  if piece.2.2 then tcpFecEmitFull env s else s

/-- With every generation successful, this is the iteration of `tcp_send`. -/
theorem tcpSendPieceOr_true (env : Env) (s : TcpSock) (piece : List UInt8 × Bool) :
    tcpSendPieceOr env s (piece, true, true) = tcpSendPiece env s piece := rfl

/-- The pieces of a write, with the outcomes for each of them. -/
def tcpPiecesOr (mss : ℕ) (gens : ℕ → Bool × Bool) (buf : List UInt8) :
    List ((List UInt8 × Bool) × Bool × Bool) :=
  (tcpPieces mss buf.length buf).mapIdx fun i piece => (piece, gens i)

/-- `tcp_send`. -/
def tcpSendOr (env : Env) (gens : ℕ → Bool × Bool) (s : TcpSock) (buf : List UInt8) : TcpSock :=
  tcpRearmUserTimeout ((tcpPiecesOr (tcpSendMss s) gens buf).foldl (tcpSendPieceOr env) s)

/-- `tcp_fec_flush`. -/
def tcpFecFlushOr (env : Env) (gen : Bool) (s : TcpSock) : TcpSock :=
  if gen then tcpFecFlush env s else s

/-- What happens to a sender. -/
inductive SlotEvent
  | send (buf : List UInt8) (gens : ℕ → Bool × Bool)
  | flush (gen : Bool)
  | arrive (seg : Segment)
  | timeout

/-- One step of the sender. -/
def slotStep (env : Env) (s : TcpSock) : SlotEvent → TcpSock
  | .send buf gens => tcpSendOr env gens s buf
  | .flush gen => tcpFecFlushOr env gen s
  | .arrive seg => tcpIn env s seg
  | .timeout => tcpRetransmissionTimeout env s

section Meets

variable (env : Env) (C : TcpSock → Bool → Prop)

/-- Every iteration of the loop of `tcp_send` starts in a state with the condition `C`, which may
depend on the outcome of the forced flush. -/
def PiecesMeetOr : TcpSock → List ((List UInt8 × Bool) × Bool × Bool) → Prop
  | _, [] => True
  | s, piece :: pieces => C s piece.2.1 ∧ PiecesMeetOr (tcpSendPieceOr env s piece) pieces

/-- The condition `C` at every segment that a run builds. -/
def RunMeets : TcpSock → List SlotEvent → Prop
  | _, [] => True
  | s, e :: es =>
    (match e with
      | .send buf gens => PiecesMeetOr env C s (tcpPiecesOr (tcpSendMss s) gens buf)
      | _ => True) ∧ RunMeets (slotStep env s e) es

end Meets

/-- A new symbol has a slot of its own in the block and in the staging buffer. -/
structure InSlot (fec : TcpFec) : Prop where
  free : fec.txFilled < fec.k
  filled : fec.enc.filled = fec.txFilled
  inside : fec.txFilled * fec.symLen + fec.symLen ≤ fec.k * fec.symLen

/-- The symbol of the next segment, after the forced flush, has a slot. -/
def StagesInSlot (env : Env) (s : TcpSock) (gen : Bool) : Prop :=
  ∀ fec, (tcpFecForceFlushOr env gen s).fec = some fec → InSlot fec

/-- The next segment finds a free slot, or its forced flush succeeds; and the block number has not
run out of its 32 bits. -/
def FlushOk (env : Env) (s : TcpSock) (gen : Bool) : Prop :=
  ∀ fec ∈ s.fec, fec.txFilled < fec.k ∧ fec.txBlockId < 2 ^ 32 ∨
    gen ∧ s.linkTakes env fec.r ∧ fec.txBlockId + 1 < 2 ^ 32

instance (env : Env) (s : TcpSock) (gen : Bool) : Decidable (FlushOk env s gen) :=
  inferInstanceAs (Decidable (∀ fec ∈ s.fec, fec.txFilled < fec.k ∧ fec.txBlockId < 2 ^ 32 ∨
    gen ∧ s.linkTakes env fec.r ∧ fec.txBlockId + 1 < 2 ^ 32))

/-- The options of the coded segments name slots below `k`, each once. -/
structure SlotsOf (k : ℕ) (queued : List SkBuff) : Prop where
  index_lt : ∀ y ∈ codedOf queued, (TcpOptFec.read y.th.data).index.toNat < k
  nodup : ((codedOf queued).map fun y =>
    ((TcpOptFec.read y.th.data).blockId, (TcpOptFec.read y.th.data).index)).Nodup

/-! ## The invariant -/

/-- The buffer is symbol `i` of block `n`. -/
def SkBuff.IsSymbol (y : SkBuff) (i n : ℕ) : Prop :=
  y.tag = some { type := .source, index := i, block := n } ∧
    HeaderFrom (codedHeader .source i n false) y.th

/-- The coded buffers are tagged with slots that were free before. -/
structure SlotInv (k : ℕ) (v : TxView) : Prop where
  symbols : ∀ y ∈ codedOf v.snd.queued, ∃ i n, y.IsSymbol i n ∧ i < k ∧ n < 2 ^ 32
  nodup : ((codedOf v.snd.queued).map SkBuff.tag).Nodup
  next : ∀ fec, v.snd.tx = some fec → EncOk fec ∧ fec.k = k ∧
    ∀ y ∈ codedOf v.snd.queued, ∀ i n, y.IsSymbol i n →
      n < fec.txBlockId ∨ n = fec.txBlockId ∧ i < fec.txFilled

theorem SkBuff.IsSymbol.read {y : SkBuff} {i n : ℕ} (h : y.IsSymbol i n) :
    TcpOptFec.read y.th.data = { type := 0, index := UInt8.ofNat i, blockId := UInt32.ofNat n } := by
  rw [h.2.coded rfl]
  exact read_tcpWriteFecOption .source (UInt8.ofNat i) (UInt32.ofNat n)

theorem codedOf_append (queued : List SkBuff) (y : SkBuff) :
    codedOf (queued ++ [y]) = codedOf queued ++ if y.isCoded then [y] else [] := by
  unfold codedOf
  rw [List.filter_append, List.filter_singleton]
  cases y.isCoded <;> rfl

section Preservation

variable {k : ℕ} {v v' : TxView} {env : Env}

theorem SlotInv.sending (h : SlotInv k v) (hs : Sending v v') : SlotInv k v' := by
  refine ⟨hs.queued ▸ h.symbols, hs.queued ▸ h.nodup, fun fec hfec => ?_⟩
  rw [hs.queued]
  rcases hs.tx with heq | heq
  · exact h.next fec (heq ▸ hfec)
  · rw [heq] at hfec
    cases hfec

theorem SlotInv.queuePlain {s : TcpSock} (h : SlotInv k s.txv) {skb : SkBuff}
    (htag : skb.tag = none) : SlotInv k (tcpQueueTransmitSkb env s skb).1.txv := by
  obtain ⟨y, hy, hqueued, -⟩ := exists_queued env s skb
  have hfec : (tcpQueueTransmitSkb env s skb).1.fec = s.fec :=
    congrArg RcvView.fec (rcv_tcpQueueTransmitSkb env s skb)
  have hcoded : codedOf (tcpQueueTransmitSkb env s skb).1.txv.snd.queued = codedOf s.queued := by
    change codedOf (tcpQueueTransmitSkb env s skb).1.snd.queued = _
    rw [hqueued, codedOf_append, SkBuff.isCoded, hy.tag, htag]
    exact List.append_nil _
  refine ⟨hcoded ▸ h.symbols, hcoded ▸ h.nodup, fun fec htx => ?_⟩
  rw [hcoded]
  refine h.next fec ?_
  change s.fec.map TcpFec.tx = some fec
  rw [← hfec]
  exact htx

/-- **Emitting a block** moves to the next block number, or changes nothing. -/
theorem SlotInv.emit {s s' : TcpSock} {fec : TcpFec} (h : SlotInv k s.txv)
    (hfec : s.fec = some fec) {ps : List Packet} {ts : List Transmission}
    (hem : Emission env s fec s' ps ts) : SlotInv k s'.txv := by
  obtain ⟨henc, hk, hnext⟩ := h.next fec.tx (TcpSock.tx_eq hfec)
  have hqueued : s'.txv.snd.queued = s.txv.snd.queued := by
    rw [hem.sock]
    rfl
  have htx : s'.txv.snd.tx = some (if s.linkTakes env fec.r then fec.nextBlock else fec).tx := by
    rw [hem.sock]
    rfl
  refine ⟨hqueued ▸ h.symbols, hqueued ▸ h.nodup, fun f hf => ?_⟩
  rw [htx, Option.some_inj] at hf
  rw [hqueued, ← hf]
  split
  · refine ⟨henc.nextBlock, hk, fun y hy i n hsym => .inl ?_⟩
    change n < fec.txBlockId + 1
    rcases hnext y hy i n hsym with hlt | ⟨rfl, -⟩
    · exact Nat.lt_succ_of_lt hlt
    · exact Nat.lt_succ_self _
  · exact ⟨henc, hk, hnext⟩

/-- **Queueing a symbol** takes the next slot of the block. -/
theorem SlotInv.queue {s : TcpSock} {fec : TcpFec} (h : SlotInv k s.txv) (hfec : s.fec = some fec)
    (hlt : fec.txFilled < fec.k) (hid : fec.txBlockId < 2 ^ 32) (piece : List UInt8 × Bool) :
    SlotInv k (s.queuedPiece env fec piece).txv := by
  obtain ⟨henc, hk, hnext⟩ := h.next fec.tx (TcpSock.tx_eq hfec)
  have henc' : EncOk fec := { henc with }
  obtain ⟨y, hy, hqueued, -⟩ :=
    exists_queued env (s.staged fec piece) (codedBuf s.nextAddr fec piece)
  have hsym : y.IsSymbol fec.txFilled fec.txBlockId := by
    refine ⟨hy.tag, ?_⟩
    have hhead : HeaderFrom (codedHeader .source fec.txFilled fec.txBlockId false)
        (codedBuf s.nextAddr fec piece).th := ⟨rfl, rfl, rfl, rfl, fun _ => rfl, fun _ => rfl⟩
    exact hhead.trans hy.header
  have hcoded : codedOf (s.queuedPiece env fec piece).txv.snd.queued =
      codedOf s.queued ++ [y] := by
    change codedOf (tcpQueueTransmitSkb env (s.staged fec piece) _).1.snd.queued = _
    rw [hqueued, codedOf_append, SkBuff.isCoded, hy.tag]
    rfl
  obtain ⟨ptr, srcBuf, hreg⟩ := (henc'.pin s.tcb.sndNxt).exists_register
    (by rwa [TcpFec.pin_txFilled, TcpFec.pin_k]) (codedBuf s.nextAddr fec piece)
  have htx : (s.queuedPiece env fec piece).txv.snd.tx =
      some ((fec.pin s.tcb.sndNxt).added ptr piece.1.length srcBuf).tx := by
    rw [TcpSock.tx_eq (fec_queuedPiece env s fec piece), hreg]
    rfl
  refine ⟨?_, ?_, fun f hf => ?_⟩
  · rw [hcoded]
    intro z hz
    rcases List.mem_append.mp hz with hz | hz
    · exact h.symbols z hz
    · rw [List.mem_singleton.mp hz]
      exact ⟨_, _, hsym, hlt.trans_eq hk, hid⟩
  · rw [hcoded, List.map_append, List.map_singleton]
    refine List.nodup_append.mpr ⟨h.nodup, List.nodup_singleton _, ?_⟩
    intro tag htag tag' htag' heq
    obtain ⟨z, hz, rfl⟩ := List.mem_map.mp htag
    -- the tags of the buffers queued so far are below the next one
    obtain ⟨i, n, hzsym, -⟩ := h.symbols z hz
    have hbelow := hnext z hz i n hzsym
    rw [List.mem_singleton.mp htag', hzsym.1, hsym.1, Option.some_inj, FecTag.mk.injEq] at heq
    obtain ⟨-, rfl, rfl⟩ := heq
    rcases hbelow with hb | ⟨-, hb⟩
    · exact Nat.lt_irrefl _ hb
    · exact Nat.lt_irrefl _ hb
  · rw [htx, Option.some_inj] at hf
    rw [hcoded, ← hf]
    have hadd : EncOk ((fec.pin s.tcb.sndNxt).added ptr piece.1.length srcBuf) := by
      have hr := (henc'.pin s.tcb.sndNxt).register (codedBuf s.nextAddr fec piece)
      rwa [hreg] at hr
    refine ⟨hadd.tx, (fec.pin_k _).trans hk, fun z hz i n hzsym => ?_⟩
    change n < (fec.pin s.tcb.sndNxt).txBlockId ∨
      n = (fec.pin s.tcb.sndNxt).txBlockId ∧ i < (fec.pin s.tcb.sndNxt).txFilled + 1
    rw [TcpFec.pin_txBlockId, TcpFec.pin_txFilled]
    rcases List.mem_append.mp hz with hz | hz
    · rcases hnext z hz i n hzsym with hb | ⟨hb, hb'⟩
      · exact .inl hb
      · exact .inr ⟨hb, Nat.lt_succ_of_lt hb'⟩
    · have heq := hzsym.1
      rw [List.mem_singleton.mp hz, hsym.1, Option.some_inj, FecTag.mk.injEq] at heq
      obtain ⟨-, rfl, rfl⟩ := heq
      exact .inr ⟨rfl, Nat.lt_succ_self _⟩

/-- **What the invariant says about the options on the wire.** -/
theorem SlotInv.slotsOf (h : SlotInv k v) (hk : k ≤ 2 ^ 8) : SlotsOf k v.snd.queued := by
  refine ⟨fun y hy => ?_, ?_⟩
  · obtain ⟨i, n, hsym, hi, -⟩ := h.symbols y hy
    rw [hsym.read, UInt8.toNat_ofNat', Nat.mod_eq_of_lt (hi.trans_le hk)]
    exact hi
  · refine List.Nodup.map_on ?_ h.nodup.of_map
    intro y hy z hz heq
    obtain ⟨i, n, hysym, hi, hn⟩ := h.symbols y hy
    obtain ⟨i', n', hzsym, hi', hn'⟩ := h.symbols z hz
    rw [hysym.read, hzsym.read, Prod.mk.injEq] at heq
    have hnn : n = n' := by
      have := congrArg UInt32.toNat heq.1
      rwa [UInt32.toNat_ofNat', UInt32.toNat_ofNat', Nat.mod_eq_of_lt hn, Nat.mod_eq_of_lt hn']
        at this
    have hii : i = i' := by
      have := congrArg UInt8.toNat heq.2
      rwa [UInt8.toNat_ofNat', UInt8.toNat_ofNat', Nat.mod_eq_of_lt (hi.trans_le hk),
        Nat.mod_eq_of_lt (hi'.trans_le hk)] at this
    exact List.inj_on_of_nodup_map h.nodup hy hz (by rw [hysym.1, hzsym.1, hnn, hii])

end Preservation

/-! ## Runs -/

section Run

variable {k : ℕ} {env : Env} {s : TcpSock}

theorem SlotInv.encOk {fec : TcpFec} (h : SlotInv k s.txv) (hfec : s.fec = some fec) :
    EncOk fec ∧ fec.k = k :=
  have hnext := h.next fec.tx (TcpSock.tx_eq hfec)
  ⟨{ hnext.1 with }, hnext.2.1⟩

theorem SlotInv.forceFlush (h : SlotInv k s.txv) (gen : Bool) :
    SlotInv k (tcpFecForceFlushOr env gen s).txv := by
  unfold tcpFecForceFlushOr
  split
  · cases hfec : s.fec with
    | none =>
      unfold tcpFecForceFlush
      rwa [hfec]
    | some fec =>
      rcases @tcpFecForceFlush_cases env s fec hfec (h.encOk hfec).1 with
        ⟨-, heq⟩ | ⟨-, ps, ts, hem⟩
      · rwa [heq]
      · exact h.emit hfec hem
  · exact h

theorem SlotInv.emitFull (h : SlotInv k s.txv) : SlotInv k (tcpFecEmitFull env s).txv := by
  unfold tcpFecEmitFull
  split
  · exact h
  · next fec hfec =>
    have henc := (h.encOk hfec).1
    split
    · next hk =>
      obtain ⟨ps, ts, hem⟩ := exists_emission env hfec henc (hk.trans_gt henc.k_pos)
      rw [← hk]
      exact h.emit hfec hem
    · exact h

theorem SlotInv.flush (h : SlotInv k s.txv) (gen : Bool) :
    SlotInv k (tcpFecFlushOr env gen s).txv := by
  unfold tcpFecFlushOr tcpFecFlush
  split
  · split
    · exact h
    · next fec hfec =>
      split
      · exact h
      · next hne =>
        obtain ⟨ps, ts, hem⟩ :=
          exists_emission env hfec (h.encOk hfec).1 (Nat.pos_of_ne_zero hne)
        exact h.emit hfec hem
  · exact h

/-- **The forced flush leaves a free slot**, when it succeeds. -/
theorem FlushOk.free {gen : Bool} (hok : FlushOk env s gen) {fec fec₁ : TcpFec}
    (hfec : s.fec = some fec) (henc : EncOk fec)
    (hfec₁ : (tcpFecForceFlushOr env gen s).fec = some fec₁) :
    fec₁.txFilled < fec₁.k ∧ fec₁.txBlockId < 2 ^ 32 := by
  unfold tcpFecForceFlushOr at hfec₁
  have hsame : fec.txFilled < fec.k ∧ fec.txBlockId < 2 ^ 32 → s.fec = some fec₁ →
      fec₁.txFilled < fec₁.k ∧ fec₁.txBlockId < 2 ^ 32 := by
    intro hfree hs
    rw [hfec, Option.some_inj] at hs
    exact hs ▸ hfree
  rcases @tcpFecForceFlush_cases env s fec hfec henc with ⟨hlt, heq⟩ | ⟨hk, ps, ts, hem⟩
  · rw [heq, ite_self] at hfec₁
    refine hsame ⟨hlt, ?_⟩ hfec₁
    rcases hok fec hfec with ⟨-, hid⟩ | ⟨-, -, hid⟩ <;> omega
  · rcases hok fec hfec with ⟨hlt, -⟩ | ⟨hgen, hlink, hid⟩
    · omega
    · rw [if_pos hgen, hem.sock, if_pos hlink, Option.some_inj] at hfec₁
      rw [← hfec₁]
      exact ⟨henc.k_pos, hid⟩

/-- An iteration of `tcp_send` without FEC. -/
theorem tcpSendQueued_plain (hfec : s.fec = none) (piece : List UInt8 × Bool) :
    tcpSendQueued env s piece = (tcpQueueTransmitSkb env { s with nextAddr := s.nextAddr + 1 }
      (plainBuf s.nextAddr piece)).1 := by
  have hput : ∀ fec, s.fec = fec → { s with fec } = s := by
    rintro fec rfl
    rfl
  have hpin : tcpFecPin s = s := hput _ (by rw [hfec]; rfl)
  unfold tcpSendQueued
  rw [hpin, hfec]
  simp only [tcpAllocSkb, hfec, Option.map_none]
  rfl

/-- **One segment of a write**: its symbol has a slot. -/
theorem SlotInv.piece (h : SlotInv k s.txv) {piece : (List UInt8 × Bool) × Bool × Bool}
    (hok : FlushOk env s piece.2.1) :
    StagesInSlot env s piece.2.1 ∧ SlotInv k (tcpSendPieceOr env s piece).txv := by
  have hflush := @SlotInv.forceFlush k env s h piece.2.1
  have hpiece : tcpSendPieceOr env s piece =
      let s := tcpSendQueued env (tcpFecForceFlushOr env piece.2.1 s) piece.1
      if piece.2.2 then tcpFecEmitFull env s else s := rfl
  have hfree : ∀ fec₁, (tcpFecForceFlushOr env piece.2.1 s).fec = some fec₁ →
      fec₁.txFilled < fec₁.k ∧ fec₁.txBlockId < 2 ^ 32 := by
    intro fec₁ hfec₁
    cases hfec : s.fec with
    | none =>
      unfold tcpFecForceFlushOr tcpFecForceFlush at hfec₁
      rw [hfec, ite_self, hfec] at hfec₁
      cases hfec₁
    | some fec => exact hok.free hfec (h.encOk hfec).1 hfec₁
  have hqueued : SlotInv k (tcpSendQueued env (tcpFecForceFlushOr env piece.2.1 s) piece.1).txv := by
    generalize tcpFecForceFlushOr env piece.2.1 s = s₁ at *
    cases hfec : s₁.fec with
    | none =>
      rw [tcpSendQueued_plain hfec]
      exact @SlotInv.queuePlain k env { s₁ with nextAddr := s₁.nextAddr + 1 }
        ⟨hflush.symbols, hflush.nodup, hflush.next⟩ (plainBuf s₁.nextAddr piece.1) rfl
    | some fec =>
      rw [tcpSendQueued_coded env hfec]
      exact hflush.queue hfec (hfree fec hfec).1 (hfree fec hfec).2 piece.1
  refine ⟨fun fec₁ hfec₁ => ?_, ?_⟩
  · obtain ⟨hlt, -⟩ := hfree fec₁ hfec₁
    refine ⟨hlt, (hflush.encOk hfec₁).1.filled, ?_⟩
    rw [← Nat.succ_mul]
    exact Nat.mul_le_mul_right _ hlt
  · rw [hpiece]
    dsimp only
    split
    · exact hqueued.emitFull
    · exact hqueued

theorem SlotInv.pieces (pieces : List ((List UInt8 × Bool) × Bool × Bool)) {s : TcpSock}
    (h : SlotInv k s.txv) (hmeet : PiecesMeetOr env (FlushOk env) s pieces) :
    PiecesMeetOr env (StagesInSlot env) s pieces ∧
      SlotInv k (pieces.foldl (tcpSendPieceOr env) s).txv := by
  induction pieces generalizing s with
  | nil => exact ⟨trivial, h⟩
  | cons piece pieces ih =>
    obtain ⟨hslot, h'⟩ := h.piece hmeet.1
    obtain ⟨hslots, h''⟩ := ih h' hmeet.2
    exact ⟨⟨hslot, hslots⟩, h''⟩

theorem state_tcpSendPieceOr (s : TcpSock) (piece : (List UInt8 × Bool) × Bool × Bool) :
    (tcpSendPieceOr env s piece).state = s.state := by
  have hflush : (tcpFecForceFlushOr env piece.2.1 s).state = s.state := by
    unfold tcpFecForceFlushOr
    split
    · exact state_tcpFecForceFlush env s
    · rfl
  have hqueued : ∀ s : TcpSock, (tcpSendQueued env s piece.1).state = s.state := fun s =>
    state_tcpQueueTransmitSkb env _ _
  change (if piece.2.2 then tcpFecEmitFull env (tcpSendQueued env _ piece.1)
    else tcpSendQueued env (tcpFecForceFlushOr env piece.2.1 s) piece.1).state = _
  split
  · rw [state_tcpFecEmitFull, hqueued, hflush]
  · rw [hqueued, hflush]

theorem state_tcpSendOr (gens : ℕ → Bool × Bool) (buf : List UInt8) :
    (tcpSendOr env gens s buf).state = s.state := by
  have hpieces : ∀ (pieces : List ((List UInt8 × Bool) × Bool × Bool)) (s : TcpSock),
      (pieces.foldl (tcpSendPieceOr env) s).state = s.state := by
    intro pieces
    induction pieces with
    | nil => exact fun s => rfl
    | cons piece pieces ih => exact fun s => (ih _).trans (state_tcpSendPieceOr s piece)
  unfold tcpSendOr
  rw [← hpieces (tcpPiecesOr (tcpSendMss s) gens buf) s]
  exact congrArg RcvView.state (rcv_tcpRearmUserTimeout _)

/-- **A run of the sender.** -/
theorem SlotInv.run (events : List SlotEvent) {s : TcpSock} (h : SlotInv k s.txv)
    (hst : s.state.connected) (hmeet : RunMeets env (FlushOk env) s events) :
    RunMeets env (StagesInSlot env) s events ∧
      SlotInv k (events.foldl (slotStep env) s).txv := by
  induction events generalizing s with
  | nil => exact ⟨trivial, h⟩
  | cons e es ih =>
    cases e with
    | send buf gens =>
      obtain ⟨hslots, h'⟩ := h.pieces _ hmeet.1
      have h'' : SlotInv k (tcpSendOr env gens s buf).txv := by
        unfold tcpSendOr
        rwa [txv_tcpRearmUserTimeout]
      obtain ⟨hrest, hend⟩ := ih h'' (by rwa [state_tcpSendOr]) hmeet.2
      exact ⟨⟨hslots, hrest⟩, hend⟩
    | flush gen =>
      have hst' : (tcpFecFlushOr env gen s).state.connected := by
        unfold tcpFecFlushOr
        split
        · rwa [state_tcpFecFlush]
        · exact hst
      obtain ⟨hrest, hend⟩ := ih (h.flush gen) hst' hmeet.2
      exact ⟨⟨trivial, hrest⟩, hend⟩
    | arrive seg =>
      have hsteps := txSteps_tcpIn env hst seg
      obtain ⟨hrest, hend⟩ := ih (h.sending (sending_of_steps hsteps.2)) hsteps.1 hmeet.2
      exact ⟨⟨trivial, hrest⟩, hend⟩
    | timeout =>
      obtain ⟨hrest, hend⟩ := ih (h.sending (sending_timeout env hst))
        (exists_tcpRetransmissionTimeout env hst).1 hmeet.2
      exact ⟨⟨trivial, hrest⟩, hend⟩

theorem FreshSender.slotInv {fec : TcpFec} (h : FreshSender s) (hfec : s.fec = some fec)
    (hfresh : FreshFec fec) : SlotInv fec.k s.txv := by
  have hcoded : codedOf s.txv.snd.queued = [] := by
    change codedOf s.queued = []
    rw [h.queued]
    rfl
  refine ⟨by simp [hcoded], by simp [hcoded], fun f hf => ?_⟩
  rw [TcpSock.tx_eq hfec, Option.some_inj] at hf
  rw [← hf]
  exact ⟨hfresh.toEncOk.tx, rfl, by simp [hcoded]⟩

end Run

/-- **Every symbol has a slot of its own**: in a run whose forced flushes all succeed, every
symbol is staged in a free slot of its block and of the staging buffer, and the options of the
segments name every slot at most once. -/
theorem staged_inSlots (env : Env) (s : TcpSock) (hfresh : FreshSender s) (fec : TcpFec)
    (hfec : s.fec = some fec) (hfec₀ : FreshFec fec) (events : List SlotEvent)
    (hmeet : RunMeets env (FlushOk env) s events) :
    RunMeets env (StagesInSlot env) s events ∧
      SlotsOf fec.k (events.foldl (slotStep env) s).queued := by
  have hst : s.state.connected := by
    rw [hfresh.state]
    rfl
  have hk : fec.k ≤ 2 ^ 8 := by
    have := hfec₀.geometry
    unfold fecGeometryOk at this
    omega
  obtain ⟨hslots, hinv⟩ := (hfresh.slotInv hfec hfec₀).run events hst hmeet
  exact ⟨hslots, hinv.slotsOf hk⟩

/-- Two short symbols and a flush; the generation of parity fails where it is not needed. -/
theorem staged_inSlots_two :
    let events := [SlotEvent.send [1, 2, 3] fun _ => (false, false),
      .send [4] fun _ => (false, false), .flush true]
    RunMeets quietLink (StagesInSlot quietLink) codedSock events ∧
      SlotsOf 8 (events.foldl (slotStep quietLink) codedSock).queued := by
  intro events
  have hmeet : RunMeets quietLink (FlushOk quietLink) codedSock events :=
    ⟨⟨by decide +kernel, trivial⟩, ⟨by decide +kernel, trivial⟩, trivial, trivial⟩
  exact staged_inSlots quietLink codedSock freshSender_codedSock tcpFecFresh rfl
    freshFec_tcpFecFresh events hmeet

/-! ## A link that works -/

section Failing

variable {env : Env} {s : TcpSock} {fec : TcpFec}

theorem not_linkTakes (hlink : ∀ n, env.link n ≠ 0) (henc : EncOk fec) :
    ¬ s.linkTakes env fec.r :=
  fun h => hlink _ (h 0 henc.r_pos)

/-- A full block that cannot be emitted has no slot for the next symbol. -/
theorem not_stagesInSlot (hlink : ∀ n, env.link n ≠ 0) (hfec : s.fec = some fec)
    (henc : EncOk fec) (hfull : fec.txFilled = fec.k) (gen : Bool) :
    ¬ StagesInSlot env s gen := by
  intro hslot
  have hfec' : (tcpFecForceFlushOr env gen s).fec = some fec := by
    unfold tcpFecForceFlushOr
    split
    · rcases @tcpFecForceFlush_cases env s fec hfec henc with ⟨hlt, -⟩ | ⟨-, ps, ts, hem⟩
      · omega
      · rw [hem.sock, if_neg (not_linkTakes hlink henc)]
    · exact hfec
  exact (hslot fec hfec').free.ne hfull

/-- A symbol that has a slot is staged, and the block stays. -/
theorem exists_fec_tcpSendPieceOr (hlink : ∀ n, env.link n ≠ 0) (hfec : s.fec = some fec)
    (henc : EncOk fec) (hlt : fec.txFilled < fec.k)
    (piece : (List UInt8 × Bool) × Bool × Bool) :
    ∃ fec', (tcpSendPieceOr env s piece).fec = some fec' ∧ EncOk fec' ∧ fec'.k = fec.k ∧
      fec'.txFilled = fec.txFilled + 1 := by
  have hflush : tcpFecForceFlushOr env piece.2.1 s = s := by
    unfold tcpFecForceFlushOr
    split
    · rcases @tcpFecForceFlush_cases env s fec hfec henc with ⟨-, heq⟩ | ⟨hk, -⟩
      · exact heq
      · omega
    · rfl
  obtain ⟨ptr, srcBuf, hreg⟩ := (henc.pin s.tcb.sndNxt).exists_register
    (by rwa [TcpFec.pin_txFilled, TcpFec.pin_k]) (codedBuf s.nextAddr fec piece.1)
  have hfec₁ := fec_queuedPiece env s fec piece.1
  have henc₁ := (henc.pin s.tcb.sndNxt).register (codedBuf s.nextAddr fec piece.1)
  rw [hreg] at hfec₁ henc₁
  refine ⟨_, ?_, henc₁, fec.pin_k _, congrArg (· + 1) (fec.pin_txFilled _)⟩
  change (if piece.2.2 then tcpFecEmitFull env (tcpSendQueued env _ piece.1)
    else tcpSendQueued env (tcpFecForceFlushOr env piece.2.1 s) piece.1).fec = _
  rw [hflush, tcpSendQueued_coded env hfec]
  generalize s.queuedPiece env fec piece.1 = s₁ at *
  generalize (fec.pin s.tcb.sndNxt).added ptr _ srcBuf = fec₁ at *
  split
  · unfold tcpFecEmitFull
    rw [hfec₁]
    dsimp only
    split
    · next hk =>
      obtain ⟨ps, ts, hem⟩ := exists_emission env hfec₁ henc₁ (hk.trans_gt henc₁.k_pos)
      rw [← hk, hem.sock, if_neg (not_linkTakes hlink henc₁)]
    · exact hfec₁
  · exact hfec₁

/-- **When no repair segment counts as sent, more symbols than a block holds do not find their
slots.** -/
theorem not_piecesMeetOr_of_link (hlink : ∀ n, env.link n ≠ 0)
    (pieces : List ((List UInt8 × Bool) × Bool × Bool)) (hfec : s.fec = some fec)
    (henc : EncOk fec) (hlen : fec.k < fec.txFilled + pieces.length) :
    ¬ PiecesMeetOr env (StagesInSlot env) s pieces := by
  induction pieces generalizing s fec with
  | nil =>
    have := henc.le
    rw [List.length_nil] at hlen
    omega
  | cons piece pieces ih =>
    rintro ⟨hslot, hrest⟩
    rcases henc.le.lt_or_eq with hlt | hfull
    · obtain ⟨fec', hfec', henc', hk', hfilled'⟩ :=
        exists_fec_tcpSendPieceOr hlink hfec henc hlt piece
      refine ih hfec' henc' ?_ hrest
      rw [List.length_cons] at hlen
      omega
    · exact not_stagesInSlot hlink hfec henc hfull piece.2.1 hslot

theorem not_runMeets_of_link (hlink : ∀ n, env.link n ≠ 0) (hfec : s.fec = some fec)
    (henc : EncOk fec) {buf : List UInt8} {gens : ℕ → Bool × Bool}
    (hlen : fec.k < fec.txFilled + (tcpPiecesOr fec.symLen gens buf).length)
    (events : List SlotEvent) : ¬ RunMeets env (StagesInSlot env) s (.send buf gens :: events) := by
  rintro ⟨hpieces, -⟩
  have hmss : tcpSendMss s = fec.symLen := by
    unfold tcpSendMss
    rw [hfec]
  change PiecesMeetOr env _ s (tcpPiecesOr (tcpSendMss s) gens buf) at hpieces
  rw [hmss] at hpieces
  exact not_piecesMeetOr_of_link hlink _ hfec henc hlen hpieces

end Failing

/-- On a tap device that takes every frame, a write of nine symbols stages the last one behind the
end of its block. -/
theorem not_inSlots_of_up :
    let env := tapUp.env 0x0a000001 (fun _ => 556) (fun _ _ => [])
    ¬ RunMeets env (StagesInSlot env) codedSock
      [.send (List.replicate 4097 0) fun _ => (true, true)] := by
  intro env
  have hlink : ∀ n, env.link n ≠ 0 := fun n => ((tapUp_up 0x0a000001).link_pos _ _ n).ne'
  have hlen : tcpFecFresh.k < tcpFecFresh.txFilled +
      (tcpPiecesOr tcpFecFresh.symLen (fun _ => (true, true)) (List.replicate 4097 0)).length := by
    decide +kernel
  exact not_runMeets_of_link hlink rfl freshFec_tcpFecFresh.toEncOk hlen []

end LvlIp.Tcp
