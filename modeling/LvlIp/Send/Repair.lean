import LvlIp.Fec.CodecCorrect
import LvlIp.Send.Order

/-!
# What the coded transmit path does

`tcp_fec_emit_block` sends repair segments and, when all of them went out, starts the next block;
nothing else of the socket changes (`exists_tcpFecEmitBlock`). One piece of `tcp_send` is then a
forced flush, the pinning of the base sequence number, the registration of the new buffer, the
queueing, and the emission of a full block (`tcpSendPiece_coded`).
-/

namespace LvlIp.Tcp

open Fec Foundations Relation

/-! ## Repair segments -/

/-- The header of a repair segment. -/
def repairHdr (fec : TcpFec) (blkK repairIndex tailLen : ℕ) : FecRepairHdr where
  version := fecWireVersion
  k := UInt8.ofNat blkK
  r := UInt8.ofNat fec.r
  repairIndex := UInt8.ofNat repairIndex
  blockId := UInt32.ofNat fec.txBlockId
  baseSeq := fec.txBaseSeq
  symLen := UInt16.ofNat fec.symLen
  tailLen := UInt16.ofNat tailLen

/-- The TCP header of a coded segment. -/
def codedHeader (type : FecSymType) (index block : ℕ) (psh : Bool) : Tcphdr :=
  { Tcphdr.zero with
    ack := true, psh, hl := tcpDoffset + tcpOptlenFec / 4
    data := tcpWriteFecOption type (UInt8.ofNat index) (UInt32.ofNat block) }

/-- The transmission is repair segment `j` of the current block, with parity `p`. -/
structure RepairOf (fec : TcpFec) (blkK tailLen j : ℕ) (p : Packet) (t : Transmission) : Prop where
  tag : t.tag = some { type := .repair, index := j, block := fec.txBlockId }
  payload : t.seg.payload = (repairHdr fec blkK j tailLen).write ++ p.take fec.symLen
  header : ∃ seq, FilledFrom (codedHeader .repair j fec.txBlockId false) seq t.seg.th

/-- Segments go out, each from a buffer of its own. -/
def TcpSock.emitAll (s : TcpSock) (ts : List Transmission) : TcpSock :=
  { s with nextAddr := s.nextAddr + ts.length, out := s.out ++ ts }

theorem TcpSock.emitAll_nil (s : TcpSock) : s.emitAll [] = s := by
  rw [TcpSock.emitAll, List.append_nil]
  rfl

theorem TcpSock.emitAll_emitAll (s : TcpSock) (ts us : List Transmission) :
    (s.emitAll ts).emitAll us = s.emitAll (ts ++ us) := by
  simp only [TcpSock.emitAll, List.append_assoc, List.length_append, Nat.add_assoc]

/-- `tcp_fec_send_repair` sends one segment. -/
theorem exists_tcpFecSendRepair (env : Env) (s : TcpSock) (fec : TcpFec) (blkK j tailLen : ℕ)
    (p : Packet) :
    ∃ t, RepairOf fec blkK tailLen j p t ∧
      tcpFecSendRepair env s fec blkK j tailLen p = (s.emitAll [t], env.link s.out.length) :=
  ⟨_, ⟨rfl, rfl, s.tcb.sndNxt, ⟨rfl, rfl, rfl, rfl, fun _ => rfl, fun _ => rfl⟩, rfl⟩, rfl⟩

/-- The link takes the next `n` segments. -/
def TcpSock.linkTakes (env : Env) (s : TcpSock) (n : ℕ) : Prop :=
  ∀ i < n, env.link (s.out.length + i) = 0

instance (env : Env) (s : TcpSock) (n : ℕ) : Decidable (s.linkTakes env n) := by
  unfold TcpSock.linkTakes
  infer_instance

theorem TcpSock.linkTakes_succ (env : Env) (s : TcpSock) (t : Transmission) (n : ℕ) :
    s.linkTakes env (n + 1) ↔ env.link s.out.length = 0 ∧ (s.emitAll [t]).linkTakes env n := by
  have hlen : (s.emitAll [t]).out.length = s.out.length + 1 := by
    rw [TcpSock.emitAll, List.length_append, List.length_singleton]
  unfold TcpSock.linkTakes
  rw [hlen]
  constructor
  · intro h
    refine ⟨h 0 (Nat.zero_lt_succ n), fun i hi => ?_⟩
    rw [Nat.add_assoc, Nat.add_comm 1 i]
    exact h (i + 1) (Nat.succ_lt_succ hi)
  · rintro ⟨h0, h⟩ i hi
    cases i with
    | zero => exact h0
    | succ i =>
      rw [Nat.add_comm i 1, ← Nat.add_assoc]
      exact h i (Nat.lt_of_succ_lt_succ hi)

/-- **The loop over the repair segments** sends a first part of them, all when the link takes
them. -/
theorem exists_tcpFecSendRepairs (env : Env) (fec : TcpFec) (blkK tailLen : ℕ) (ps : List Packet)
    (s : TcpSock) (j : ℕ) :
    ∃ ts, (tcpFecSendRepairs env fec blkK tailLen s j ps).1 = s.emitAll ts ∧
      (∀ i t, ts[i]? = some t → ∃ p, ps[i]? = some p ∧ RepairOf fec blkK tailLen (j + i) p t) ∧
      (ps ≠ [] → ts ≠ []) ∧
      ((tcpFecSendRepairs env fec blkK tailLen s j ps).2 = 0 ↔ s.linkTakes env ps.length) ∧
      (s.linkTakes env ps.length → ts.length = ps.length) := by
  induction ps generalizing s j with
  | nil =>
    refine ⟨[], (TcpSock.emitAll_nil s).symm, by simp, by simp, ?_, fun _ => rfl⟩
    exact ⟨fun _ i hi => absurd hi (Nat.not_lt_zero i), fun _ => rfl⟩
  | cons p ps ih =>
    obtain ⟨t, ht, hsend⟩ := exists_tcpFecSendRepair env s fec blkK j tailLen p
    obtain ⟨ts, heq, hts, -, hlink, hlen⟩ := ih (s.emitAll [t]) (j + 1)
    rw [tcpFecSendRepairs, hsend, List.length_cons, TcpSock.linkTakes_succ env s t]
    dsimp only
    split
    · next hne =>
      refine ⟨[t], rfl, ?_, by simp, iff_of_false (by simp) fun h => hne h.1,
        fun h => absurd h.1 hne⟩
      intro i u hu
      obtain rfl : i = 0 := by
        have := (List.getElem?_eq_some_iff.mp hu).1
        simpa using this
      rw [List.getElem?_cons_zero, Option.some_inj] at hu
      exact ⟨p, rfl, hu ▸ ht⟩
    · next h0 =>
      refine ⟨t :: ts, ?_, ?_, by simp, ?_, fun h => by rw [List.length_cons, hlen h.2]⟩
      · rw [heq, TcpSock.emitAll_emitAll]
        rfl
      · intro i u hu
        cases i with
        | zero =>
          rw [List.getElem?_cons_zero, Option.some_inj] at hu
          exact ⟨p, rfl, hu ▸ ht⟩
        | succ i =>
          obtain ⟨p', hp', hof⟩ := hts i u (by simpa using hu)
          rw [Nat.add_right_comm, Nat.add_assoc] at hof
          exact ⟨p', by simpa using hp', hof⟩
      · rw [hlink]
        exact ⟨fun h => ⟨by simpa using h0, h⟩, fun h => h.2⟩

/-! ## The parity of a block -/

/-- The transmit side has the parameters it was set up with, and its encoder holds the symbols of
the current block. -/
structure EncOk (fec : TcpFec) : Prop where
  geometry : fecGeometryOk fec.k fec.r
  symLen_pos : 0 < fec.symLen
  symLen_lt : fec.symLen < 2 ^ 16
  ctx : fec.ctx = fecRsInit
  encCtx : fec.enc.ctx = fecRsInit
  encK : fec.enc.k = fec.k
  encR : fec.enc.r = fec.r
  encSymLen : fec.enc.symLen = fec.symLen
  encSrcX : fec.enc.srcX = fecSrcX fec.k
  encRedX : fec.enc.redX = fecRedX fec.k fec.r none
  srcBuf : fec.txSrcBuf.length = fec.k
  filled : fec.enc.src.length = fec.txFilled
  le : fec.txFilled ≤ fec.k

theorem EncOk.k_pos {fec : TcpFec} (h : EncOk fec) : 0 < fec.k := by
  have := h.geometry
  unfold fecGeometryOk at this
  omega

theorem EncOk.r_pos {fec : TcpFec} (h : EncOk fec) : 0 < fec.r := by
  have := h.geometry
  unfold fecGeometryOk at this
  omega

/-- The parity that `tcp_fec_emit_block` generates. -/
def tcpFecParity (env : Env) (s : TcpSock) (fec : TcpFec) (blkK : ℕ) : Option (List Packet) :=
  (tcpFecBlockEncoder fec blkK).bind (fecEncoderGenerate (symMem env s fec))

/-- **The parity of a block** is made of the values of its polynomials, whether it is full or
not. -/
theorem EncOk.parity_eq {fec : TcpFec} (h : EncOk fec) (hpos : 0 < fec.txFilled) (env : Env)
    (s : TcpSock) :
    tcpFecParity env s fec fec.txFilled =
      some (blockParity (fecSrcX fec.txFilled) (fecRedX fec.txFilled fec.r none)
        (fec.enc.src.map (symMem env s fec)) fec.symLen) := by
  have hgeo : fecGeometryOk fec.txFilled fec.r := by
    have := h.geometry
    have := h.le
    unfold fecGeometryOk at *
    omega
  obtain ⟨hpts, hinit⟩ := fecEncoderInit_default (α := SymPtr) hgeo fec.symLen
  unfold tcpFecParity tcpFecBlockEncoder
  split
  · next hk =>
    rw [hk] at hpts
    rw [Option.bind_some, fecEncoderGenerate_eq _ h.encCtx, h.encSrcX, h.encRedX, h.encSymLen, hk]
    · rwa [h.encK, h.encR, h.encSrcX, h.encRedX]
    · rw [FecEncoder.filled, h.filled, hk, h.encK]
  · rw [h.ctx, hinit, Option.bind_some, List.take_of_length_le h.filled.le, addSources_eq,
      Option.bind_some, fecEncoderGenerate_eq]
    · rfl
    · rfl
    · exact hpts
    · exact h.filled
    · exact (Nat.zero_add _).trans_le h.filled.le

/-- What `tcp_fec_emit_block` does for the current block: repair segments go out, and the next
block starts when the link took all of them. -/
structure Emission (env : Env) (s : TcpSock) (fec : TcpFec) (s' : TcpSock) (ps : List Packet)
    (ts : List Transmission) : Prop where
  parity : tcpFecParity env s fec fec.txFilled = some ps
  length : ps.length = fec.r
  repairs : ∀ i t, ts[i]? = some t →
    ∃ p, ps[i]? = some p ∧ RepairOf fec fec.txFilled fec.txTailLen i p t
  ne_nil : ts ≠ []
  all : s.linkTakes env fec.r → ts.length = fec.r
  sock : s' = { s.emitAll ts with
    fec := some (if s.linkTakes env fec.r then fec.nextBlock else fec) }

theorem TcpSock.put_fec {s : TcpSock} {fec : TcpFec} (h : s.fec = some fec) :
    { s with fec := some fec } = s := by
  rw [← h]

/-- **`tcp_fec_emit_block`.** -/
theorem exists_emission (env : Env) {s : TcpSock} {fec : TcpFec} (hfec : s.fec = some fec)
    (h : EncOk fec) (hpos : 0 < fec.txFilled) :
    ∃ ps ts, Emission env s fec (tcpFecEmitBlock env s fec fec.txFilled fec.txTailLen).1 ps ts := by
  have hparity := h.parity_eq hpos env s
  generalize hps : blockParity _ _ _ _ = ps at hparity
  have hlen : ps.length = fec.r := by
    rw [← hps, blockParity, List.length_map, fecRedX, List.length_map, List.length_range]
  have hr := h.r_pos
  obtain ⟨ts, heq, hts, hne, hlink, hall⟩ :=
    exists_tcpFecSendRepairs env fec fec.txFilled fec.txTailLen ps s 0
  rw [hlen] at hlink hall
  refine ⟨ps, ts, hparity, hlen, fun i t hi => ?_, ?_, hall, ?_⟩
  · have := hts i t hi
    rwa [Nat.zero_add] at this
  · exact hne (List.ne_nil_of_length_pos (by omega))
  · have hmatch : (tcpFecBlockEncoder fec fec.txFilled).bind
        (fecEncoderGenerate (symMem env s fec)) = some ps := hparity
    unfold tcpFecEmitBlock
    rw [if_neg (by omega), if_neg (Nat.not_lt.mpr h.le), hmatch]
    dsimp only
    rw [heq]
    split
    · next hne => rw [if_neg fun h => hne (hlink.mpr h), @TcpSock.put_fec (s.emitAll ts) fec hfec]
    · next h0 => rw [if_pos (hlink.mp (by simpa using h0))]

/-! ## A new FEC state -/

/-- The FEC state that `tcp_fec_enable` sets up. -/
def tcpFecFresh : TcpFec where
  k := tcpFecDefaultK
  r := tcpFecDefaultR
  symLen := tcpFecDefaultSymLen
  ctx := fecRsInit
  txBlockId := 0
  txBaseSeq := 0
  txFilled := 0
  txTailLen := 0
  enc :=
    { ctx := fecRsInit, k := tcpFecDefaultK, r := tcpFecDefaultR, symLen := tcpFecDefaultSymLen
      srcX := fecSrcX tcpFecDefaultK, redX := fecRedX tcpFecDefaultK tcpFecDefaultR none, src := [] }
  txSrcBuf := List.replicate tcpFecDefaultK (List.replicate tcpFecDefaultSymLen 0)
  rx := List.replicate tcpFecRxBlocks .empty

/-- A FEC state whose transmit side has not been used. -/
structure FreshFec (fec : TcpFec) : Prop extends EncOk fec where
  blockId_eq : fec.txBlockId = 0
  filled_eq : fec.txFilled = 0

theorem geometry_default : fecGeometryOk (tcpFecDefaultK : ℕ) (tcpFecDefaultR : ℕ) := by decide

theorem tcpFecEnable_eq {s : TcpSock} (h : s.fec = none) :
    tcpFecEnable s = ({ s with fec := some tcpFecFresh }, 0) := by
  unfold tcpFecEnable
  rw [h]
  dsimp only
  rw [(fecEncoderInit_default (α := SymPtr) geometry_default tcpFecDefaultSymLen).2]
  rfl

/-- Resolving the negotiation: the FEC state is set up unless there is one already. -/
theorem tcpFecResolve_eq (s : TcpSock) :
    tcpFecResolve s =
      if s.fecok ≠ 0 then { s with fec := some (s.fec.getD tcpFecFresh) } else s := by
  unfold tcpFecResolve
  split
  · cases hfec : s.fec with
    | none =>
      rw [tcpFecEnable_eq hfec]
      rfl
    | some fec =>
      unfold tcpFecEnable
      rw [hfec]
      exact (TcpSock.put_fec hfec).symm
  · rfl

theorem freshFec_tcpFecFresh : FreshFec tcpFecFresh where
  geometry := geometry_default
  symLen_pos := by decide
  symLen_lt := by decide
  ctx := rfl
  encCtx := rfl
  encK := rfl
  encR := rfl
  encSymLen := rfl
  encSrcX := rfl
  encRedX := rfl
  srcBuf := List.length_replicate
  filled := rfl
  le := Nat.zero_le _
  blockId_eq := rfl
  filled_eq := rfl

/-! ## One piece of a write -/

/-- The base sequence number is pinned by the first symbol of a block. -/
def TcpFec.pin (fec : TcpFec) (nxt : UInt32) : TcpFec :=
  if fec.txFilled = 0 then { fec with txBaseSeq := nxt } else fec

/-- The buffer that `tcp_send` builds for a piece. -/
def codedBuf (addr : ℕ) (fec : TcpFec) (piece : List UInt8 × Bool) : SkBuff where
  addr := addr
  tag := some { type := .source, index := fec.txFilled, block := fec.txBlockId }
  th := codedHeader .source fec.txFilled fec.txBlockId piece.2
  payload := piece.1
  seq := 0
  endSeq := 0

/-- The socket with the new buffer registered, before it is queued. -/
def TcpSock.staged (s : TcpSock) (fec : TcpFec) (piece : List UInt8 × Bool) : TcpSock :=
  { s with
    nextAddr := s.nextAddr + 1
    fec := some ((fec.pin s.tcb.sndNxt).register (codedBuf s.nextAddr fec piece)) }

/-- The socket with the new buffer queued, before a full block is emitted. -/
def TcpSock.queuedPiece (env : Env) (s : TcpSock) (fec : TcpFec) (piece : List UInt8 × Bool) :
    TcpSock :=
  (tcpQueueTransmitSkb env (s.staged fec piece) (codedBuf s.nextAddr fec piece)).1

theorem TcpFec.pin_txFilled (fec : TcpFec) (nxt : UInt32) :
    (fec.pin nxt).txFilled = fec.txFilled := by
  unfold TcpFec.pin
  split <;> rfl

theorem TcpFec.pin_k (fec : TcpFec) (nxt : UInt32) : (fec.pin nxt).k = fec.k := by
  unfold TcpFec.pin
  split <;> rfl

theorem TcpFec.pin_txBlockId (fec : TcpFec) (nxt : UInt32) :
    (fec.pin nxt).txBlockId = fec.txBlockId := by
  unfold TcpFec.pin
  split <;> rfl

/-- The registration of a buffer in a block with a free slot. -/
def TcpFec.added (fec : TcpFec) (ptr : SymPtr) (tailLen : ℕ) (srcBuf : List Packet) : TcpFec :=
  { fec with
    enc := { fec.enc with src := fec.enc.src ++ [ptr] }
    txFilled := fec.txFilled + 1, txTailLen := tailLen, txSrcBuf := srcBuf }

section Encoder

variable {fec : TcpFec}

theorem EncOk.tx (h : EncOk fec) : EncOk fec.tx := { h with }

theorem EncOk.pin (h : EncOk fec) (nxt : UInt32) : EncOk (fec.pin nxt) := by
  unfold TcpFec.pin
  split
  · exact { h with }
  · exact h

theorem EncOk.nextBlock (h : EncOk fec) : EncOk fec.nextBlock :=
  { h with filled := rfl, le := Nat.zero_le _ }

theorem EncOk.added (h : EncOk fec) (hlt : fec.txFilled < fec.k) (ptr : SymPtr) (tailLen : ℕ)
    {srcBuf : List Packet} (hsrc : srcBuf.length = fec.k) :
    EncOk (fec.added ptr tailLen srcBuf) :=
  { h with
    srcBuf := hsrc
    filled := by
      change (fec.enc.src ++ [ptr]).length = fec.txFilled + 1
      rw [List.length_append, List.length_singleton, h.filled]
    le := hlt }

/-- The registration of a buffer in a block with a free slot. -/
theorem EncOk.register_eq (h : EncOk fec) (hlt : fec.txFilled < fec.k) (skb : SkBuff) :
    fec.register skb =
      if skb.dlen = fec.symLen then fec.added (.skb skb.addr) fec.symLen fec.txSrcBuf
      else fec.added (.slot fec.txFilled) skb.dlen (fec.txSrcBuf.set fec.txFilled
        (skb.payload ++ List.replicate (fec.symLen - skb.dlen) 0)) := by
  have hadd : ∀ ptr, fecEncoderAddSource fec.enc ptr =
      some { fec.enc with src := fec.enc.src ++ [ptr] } := by
    intro ptr
    rw [fecEncoderAddSource, if_neg]
    rw [FecEncoder.filled, h.filled, h.encK]
    exact Nat.not_le.mpr hlt
  unfold TcpFec.register
  split
  · simp only [hadd]
    rfl
  · simp only [hadd]
    rfl

theorem EncOk.exists_register (h : EncOk fec) (hlt : fec.txFilled < fec.k) (skb : SkBuff) :
    ∃ ptr srcBuf, fec.register skb = fec.added ptr skb.dlen srcBuf := by
  rw [h.register_eq hlt]
  split
  · next hd => exact ⟨_, _, by rw [hd]⟩
  · exact ⟨_, _, rfl⟩

theorem EncOk.register (h : EncOk fec) (skb : SkBuff) : EncOk (fec.register skb) := by
  rcases Nat.lt_or_ge fec.txFilled fec.k with hlt | hge
  · rw [h.register_eq hlt]
    split
    · exact h.added hlt _ _ h.srcBuf
    · exact h.added hlt _ _ ((List.length_set).trans h.srcBuf)
  · -- a full block does not take the symbol
    have hadd : ∀ ptr, fecEncoderAddSource fec.enc ptr = none := by
      intro ptr
      rw [fecEncoderAddSource, if_pos]
      rw [FecEncoder.filled, h.filled, h.encK]
      exact hge
    unfold TcpFec.register
    split
    · simp only [hadd]
      exact { h with }
    · simp only [hadd]
      exact { h with srcBuf := (List.length_set).trans h.srcBuf }

end Encoder

/-- The middle of an iteration of `tcp_send`, between its two emissions: the segment is built,
registered and queued. -/
def tcpSendQueued (env : Env) (s : TcpSock) (piece : List UInt8 × Bool) : TcpSock :=
  let s := tcpFecPin s
  let a := tcpAllocSkb s (tcpDataTag s.fec) (tcpDataHeader s.fec piece.2) piece.1
  let s := { a.1 with fec := a.1.fec.map fun fec => fec.register a.2 }
  (tcpQueueTransmitSkb env s a.2).1

theorem tcpSendQueued_coded (env : Env) {s : TcpSock} {fec : TcpFec} (hfec : s.fec = some fec)
    (piece : List UInt8 × Bool) : tcpSendQueued env s piece = s.queuedPiece env fec piece := by
  have hpin : tcpFecPin s = { s with fec := some (fec.pin s.tcb.sndNxt) } := by
    unfold tcpFecPin
    rw [hfec]
    rfl
  have hbuf : codedBuf s.nextAddr fec piece =
      codedBuf s.nextAddr (fec.pin s.tcb.sndNxt) piece := by
    unfold codedBuf
    rw [TcpFec.pin_txFilled, TcpFec.pin_txBlockId]
  unfold tcpSendQueued TcpSock.queuedPiece TcpSock.staged
  rw [hpin, hbuf]
  rfl

/-- **One piece of a write on a coded connection.** -/
theorem tcpSendPiece_coded (env : Env) {s s₁ : TcpSock} (hs : tcpFecForceFlush env s = s₁)
    {fec : TcpFec} (hfec : s₁.fec = some fec) (piece : List UInt8 × Bool) :
    tcpSendPiece env s piece = tcpFecEmitFull env (s₁.queuedPiece env fec piece) := by
  change tcpFecEmitFull env (tcpSendQueued env (tcpFecForceFlush env s) piece) = _
  rw [hs, tcpSendQueued_coded env hfec]

/-! ## What a write leaves alone -/

/-- Whatever its block, `tcp_fec_emit_block` sends segments and touches the FEC state only. -/
theorem tcpFecEmitBlock_frame (env : Env) (s : TcpSock) (fec : TcpFec) (blkK tailLen : ℕ) :
    ∃ ts fec', (tcpFecEmitBlock env s fec blkK tailLen).1 = { s.emitAll ts with fec := fec' } := by
  have hnone : ∃ ts fec', s = { s.emitAll ts with fec := fec' } :=
    ⟨[], s.fec, by rw [TcpSock.emitAll_nil]⟩
  unfold tcpFecEmitBlock
  split
  · exact hnone
  · split
    · exact hnone
    · split
      · exact hnone
      · next parity _ =>
        obtain ⟨ts, heq, -⟩ := exists_tcpFecSendRepairs env fec blkK tailLen parity s 0
        dsimp only
        split
        · exact ⟨ts, s.fec, by rw [heq]; rfl⟩
        · exact ⟨ts, some fec.nextBlock, by rw [heq]⟩

section Frame

variable (env : Env) (s : TcpSock)

theorem state_tcpFecEmitBlock (fec : TcpFec) (blkK tailLen : ℕ) :
    (tcpFecEmitBlock env s fec blkK tailLen).1.state = s.state := by
  obtain ⟨ts, fec', heq⟩ := tcpFecEmitBlock_frame env s fec blkK tailLen
  rw [heq]
  rfl

theorem state_tcpFecForceFlush : (tcpFecForceFlush env s).state = s.state := by
  unfold tcpFecForceFlush
  split
  · rfl
  · split
    · exact state_tcpFecEmitBlock env s _ _ _
    · rfl

theorem state_tcpFecFlush : (tcpFecFlush env s).state = s.state := by
  unfold tcpFecFlush
  split
  · rfl
  · split
    · rfl
    · exact state_tcpFecEmitBlock env s _ _ _

theorem state_tcpQueueTransmitSkb (skb : SkBuff) :
    (tcpQueueTransmitSkb env s skb).1.state = s.state :=
  congrArg RcvView.state (rcv_tcpQueueTransmitSkb env s skb)

theorem state_tcpFecEmitFull : (tcpFecEmitFull env s).state = s.state := by
  unfold tcpFecEmitFull
  split
  · rfl
  · split
    · exact state_tcpFecEmitBlock env s _ _ _
    · rfl

theorem state_tcpSendPiece (piece : List UInt8 × Bool) :
    (tcpSendPiece env s piece).state = s.state := by
  unfold tcpSendPiece tcpSendPrepare
  rw [state_tcpFecEmitFull, state_tcpQueueTransmitSkb]
  exact state_tcpFecForceFlush env s

theorem state_tcpSend (buf : List UInt8) : (tcpSend env s buf).state = s.state := by
  have hpieces : ∀ (pieces : List (List UInt8 × Bool)) (s : TcpSock),
      (pieces.foldl (tcpSendPiece env) s).state = s.state := by
    intro pieces
    induction pieces with
    | nil => exact fun s => rfl
    | cons piece pieces ih => exact fun s => (ih _).trans (state_tcpSendPiece env s piece)
  unfold tcpSend
  rw [← hpieces (tcpPieces (tcpSendMss s) buf.length buf) s]
  exact congrArg RcvView.state (rcv_tcpRearmUserTimeout _)

theorem state_tcpQueueFin : (tcpQueueFin env s).state = s.state :=
  (state_tcpQueueTransmitSkb env _ _).trans (state_tcpFecFlush env s)

end Frame

/-! ## Steps of a coded write -/

/-- A coded write is made of emissions of the current block and of buffers queued under the
condition `Q`. -/
inductive CodedStep (env : Env) (Q : TcpSock → TcpFec → Prop) : TcpSock → TcpSock → Prop
  | emit {s s' : TcpSock} {fec : TcpFec} {ps : List Packet} {ts : List Transmission}
      (hfec : s.fec = some fec) (henc : EncOk fec) (hpos : 0 < fec.txFilled)
      (h : Emission env s fec s' ps ts) : CodedStep env Q s s'
  | queue {s : TcpSock} {fec : TcpFec} {piece : List UInt8 × Bool} (hfec : s.fec = some fec)
      (henc : EncOk fec) (hQ : Q s fec) (hpos : 0 < piece.1.length)
      (hle : piece.1.length ≤ fec.symLen) : CodedStep env Q s (s.queuedPiece env fec piece)

section Steps

variable {env : Env} {s : TcpSock} {fec : TcpFec}

/-- **The forced flush** does nothing, or emits the full block. -/
theorem tcpFecForceFlush_cases (hfec : s.fec = some fec) (h : EncOk fec) :
    fec.txFilled < fec.k ∧ tcpFecForceFlush env s = s ∨
      fec.txFilled = fec.k ∧ ∃ ps ts, Emission env s fec (tcpFecForceFlush env s) ps ts := by
  have hk := h.k_pos
  unfold tcpFecForceFlush
  rw [hfec]
  dsimp only
  split
  · next hge => exact .inr ⟨Nat.le_antisymm h.le hge, exists_emission env hfec h (by omega)⟩
  · next hlt => exact .inl ⟨Nat.not_le.mp hlt, rfl⟩

theorem Emission.exists_fec {s' : TcpSock} {ps : List Packet} {ts : List Transmission}
    (hem : Emission env s fec s' ps ts) (h : EncOk fec) :
    ∃ fec', s'.fec = some fec' ∧ EncOk fec' ∧ fec'.symLen = fec.symLen := by
  rw [hem.sock]
  split
  · exact ⟨_, rfl, h.nextBlock, rfl⟩
  · exact ⟨_, rfl, h, rfl⟩

theorem fec_queuedPiece (env : Env) (s : TcpSock) (fec : TcpFec) (piece : List UInt8 × Bool) :
    (s.queuedPiece env fec piece).fec =
      some ((fec.pin s.tcb.sndNxt).register (codedBuf s.nextAddr fec piece)) :=
  congrArg RcvView.fec (rcv_tcpQueueTransmitSkb env (s.staged fec piece) _)

theorem TcpFec.register_symLen (fec : TcpFec) (skb : SkBuff) :
    (fec.register skb).symLen = fec.symLen := by
  unfold TcpFec.register
  dsimp only
  split <;> split <;> rfl

theorem TcpFec.pin_symLen (fec : TcpFec) (nxt : UInt32) : (fec.pin nxt).symLen = fec.symLen := by
  unfold TcpFec.pin
  split <;> rfl

variable {Q : TcpSock → TcpFec → Prop}

/-- The forced flush is made of steps. -/
theorem codedSteps_flush (hfec : s.fec = some fec) (h : EncOk fec) :
    ReflTransGen (CodedStep env Q) s (tcpFecForceFlush env s) ∧
      ∃ fec', (tcpFecForceFlush env s).fec = some fec' ∧ EncOk fec' ∧
        fec'.symLen = fec.symLen := by
  rcases tcpFecForceFlush_cases hfec h with ⟨-, heq⟩ | ⟨hk, ps, ts, hem⟩
  · rw [heq]
    exact ⟨.refl, fec, hfec, h, rfl⟩
  · have hpos : 0 < fec.txFilled := hk ▸ h.k_pos
    exact ⟨.single (.emit hfec h hpos hem), hem.exists_fec h⟩

/-- The emission of a full block is made of steps. -/
theorem codedSteps_full (hfec : s.fec = some fec) (h : EncOk fec) :
    ReflTransGen (CodedStep env Q) s (tcpFecEmitFull env s) ∧
      ∃ fec', (tcpFecEmitFull env s).fec = some fec' ∧ EncOk fec' ∧
        fec'.symLen = fec.symLen := by
  unfold tcpFecEmitFull
  rw [hfec]
  dsimp only
  split
  · next hk =>
    have hpos : 0 < fec.txFilled := hk ▸ h.k_pos
    rw [← hk]
    obtain ⟨ps, ts, hem⟩ := exists_emission env hfec h hpos
    exact ⟨.single (.emit hfec h hpos hem), hem.exists_fec h⟩
  · exact ⟨.refl, fec, hfec, h, rfl⟩

theorem exists_fec_queuedPiece (env : Env) (s : TcpSock) (h : EncOk fec)
    (piece : List UInt8 × Bool) :
    ∃ fec', (s.queuedPiece env fec piece).fec = some fec' ∧ EncOk fec' ∧
      fec'.symLen = fec.symLen := by
  refine ⟨_, fec_queuedPiece env s fec piece, (h.pin s.tcb.sndNxt).register _, ?_⟩
  rw [TcpFec.register_symLen, TcpFec.pin_symLen]

/-- **One piece of a write** is made of steps. -/
theorem codedSteps_piece (hfec : s.fec = some fec) (h : EncOk fec)
    (hQ : ∀ fec₁, (tcpFecForceFlush env s).fec = some fec₁ → Q (tcpFecForceFlush env s) fec₁)
    {piece : List UInt8 × Bool} (hpos : 0 < piece.1.length) (hle : piece.1.length ≤ fec.symLen) :
    ReflTransGen (CodedStep env Q) s (tcpSendPiece env s piece) ∧
      ∃ fec', (tcpSendPiece env s piece).fec = some fec' ∧ EncOk fec' ∧
        fec'.symLen = fec.symLen := by
  obtain ⟨hsteps, fec₁, hfec₁, h₁, hlen₁⟩ := @codedSteps_flush env s fec Q hfec h
  have hqueue : CodedStep env Q (tcpFecForceFlush env s)
      ((tcpFecForceFlush env s).queuedPiece env fec₁ piece) :=
    .queue hfec₁ h₁ (hQ fec₁ hfec₁) hpos (hlen₁ ▸ hle)
  obtain ⟨fec₂, hfec₂, h₂, hlen₂⟩ :=
    exists_fec_queuedPiece env (tcpFecForceFlush env s) h₁ piece
  rw [tcpSendPiece_coded env rfl hfec₁]
  obtain ⟨hfull, fec', hfec', h', hlen'⟩ := @codedSteps_full env _ fec₂ Q hfec₂ h₂
  exact ⟨(hsteps.tail hqueue).trans hfull, fec', hfec', h', by rw [hlen', hlen₂, hlen₁]⟩

/-- Every iteration of the loop of `tcp_send` starts in a state with the condition `C`. -/
def PiecesMeet (env : Env) (C : TcpSock → Prop) : TcpSock → List (List UInt8 × Bool) → Prop
  | _, [] => True
  | s, piece :: pieces => C s ∧ PiecesMeet env C (tcpSendPiece env s piece) pieces

instance decidablePiecesMeet (env : Env) (C : TcpSock → Prop) [DecidablePred C] :
    ∀ s pieces, Decidable (PiecesMeet env C s pieces)
  | _, [] => .isTrue trivial
  | s, piece :: pieces =>
    have := decidablePiecesMeet env C (tcpSendPiece env s piece) pieces
    inferInstanceAs (Decidable (C s ∧ PiecesMeet env C (tcpSendPiece env s piece) pieces))

theorem piecesMeet_true (env : Env) (pieces : List (List UInt8 × Bool)) (s : TcpSock) :
    PiecesMeet env (fun _ => True) s pieces := by
  induction pieces generalizing s with
  | nil => trivial
  | cons piece pieces ih => exact ⟨trivial, ih _⟩

/-- The segments of a write that is accepted meet the condition `C`. -/
def WriteMeets (env : Env) (C : TcpSock → Prop) (s : TcpSock) (buf : List UInt8) : Prop :=
  s.writable → PiecesMeet env C s (tcpPieces (tcpSendMss s) buf.length buf)

instance (env : Env) (C : TcpSock → Prop) [DecidablePred C] (s : TcpSock) :
    DecidablePred (WriteMeets env C s) := fun buf =>
  inferInstanceAs (Decidable (s.writable →
    PiecesMeet env C s (tcpPieces (tcpSendMss s) buf.length buf)))

/-- **A whole write** is made of steps. -/
theorem codedSteps_pieces {C : TcpSock → Prop}
    (hCQ : ∀ s fec, s.fec = some fec → EncOk fec → C s → ∀ fec₁,
      (tcpFecForceFlush env s).fec = some fec₁ → Q (tcpFecForceFlush env s) fec₁)
    {pieces : List (List UInt8 × Bool)} (hfec : s.fec = some fec) (h : EncOk fec)
    (hmeet : PiecesMeet env C s pieces)
    (hlen : ∀ piece ∈ pieces, 0 < piece.1.length ∧ piece.1.length ≤ fec.symLen) :
    ReflTransGen (CodedStep env Q) s (pieces.foldl (tcpSendPiece env) s) ∧
      ∃ fec', (pieces.foldl (tcpSendPiece env) s).fec = some fec' ∧ EncOk fec' := by
  induction pieces generalizing s fec with
  | nil => exact ⟨.refl, fec, hfec, h⟩
  | cons piece pieces ih =>
    obtain ⟨hpos, hle⟩ := hlen piece List.mem_cons_self
    obtain ⟨hsteps, fec', hfec', h', hlen'⟩ :=
      codedSteps_piece hfec h (hCQ s fec hfec h hmeet.1) hpos hle
    have hrest : ∀ p ∈ pieces, 0 < p.1.length ∧ p.1.length ≤ fec'.symLen := by
      intro p hp
      rw [hlen']
      exact hlen p (List.mem_cons_of_mem _ hp)
    obtain ⟨hsteps', hfec''⟩ := ih hfec' h' hmeet.2 hrest
    exact ⟨hsteps.trans hsteps', hfec''⟩

end Steps

theorem TcpSock.tx_eq {s : TcpSock} {fec : TcpFec} (hfec : s.fec = some fec) :
    s.txv.snd.tx = some fec.tx := by
  change s.fec.map TcpFec.tx = _
  rw [hfec]
  rfl

theorem TcpSock.exists_fec {s : TcpSock} {f : TcpFec} (h : s.txv.snd.tx = some f) :
    ∃ fec, s.fec = some fec ∧ f = fec.tx := by
  obtain ⟨fec, hfec, hf⟩ := Option.map_eq_some_iff.mp (show s.fec.map TcpFec.tx = some f from h)
  exact ⟨fec, hfec, hf.symm⟩

/-- The pieces of a write have at least one byte and at most the segment size. -/
theorem length_tcpPieces {mss : ℕ} (hm : 0 < mss) (n : ℕ) (buf : List UInt8) :
    ∀ piece ∈ tcpPieces mss n buf, 0 < piece.1.length ∧ piece.1.length ≤ mss := by
  induction n generalizing buf with
  | zero => simp [tcpPieces]
  | succ n ih =>
    cases buf with
    | nil => simp [tcpPieces]
    | cons x buf =>
      intro piece hp
      rw [tcpPieces] at hp
      · rcases List.mem_cons.mp hp with rfl | hp
        · simp only [List.length_take, List.length_cons]
          omega
        · exact ih _ piece hp
      · simp

/-! ## Everything else -/

/-- Between the two views nothing was queued, and what went out was in the queue or is a control
segment. -/
structure Sending (v v' : TxView) : Prop where
  queued : v'.snd.queued = v.snd.queued
  tx : v'.snd.tx = v.snd.tx ∨ v'.snd.tx = none
  writeQueue : ∀ x ∈ v'.snd.writeQueue, ∃ y ∈ v.snd.writeQueue, x.tag = y.tag
  out : ∃ ts, v'.out = v.out ++ ts ∧
    ∀ t ∈ ts, t.tag = none ∨ ∃ y ∈ v.snd.writeQueue, t.tag = y.tag

theorem Sending.refl (v : TxView) : Sending v v :=
  ⟨rfl, .inl rfl, fun x hx => ⟨x, hx, rfl⟩, [], (List.append_nil _).symm, by simp⟩

theorem Sending.trans {v v' v'' : TxView} (h : Sending v v') (h' : Sending v' v'') :
    Sending v v'' := by
  have hback : ∀ y ∈ v'.snd.writeQueue, ∀ tag, tag = y.tag →
      ∃ z ∈ v.snd.writeQueue, tag = z.tag := by
    intro y hy tag htag
    obtain ⟨z, hz, hyz⟩ := h.writeQueue y hy
    exact ⟨z, hz, htag.trans hyz⟩
  refine ⟨h'.queued.trans h.queued, ?_, fun x hx => ?_, ?_⟩
  · rcases h'.tx with htx | htx
    · rw [htx]
      exact h.tx
    · exact .inr htx
  · obtain ⟨y, hy, hxy⟩ := h'.writeQueue x hx
    exact hback y hy _ hxy
  · obtain ⟨ts, hout, hts⟩ := h.out
    obtain ⟨ts', hout', hts'⟩ := h'.out
    refine ⟨ts ++ ts', by rw [hout', hout, List.append_assoc], fun t ht => ?_⟩
    rcases List.mem_append.mp ht with ht | ht
    · exact hts t ht
    · exact (hts' t ht).imp_right fun ⟨y, hy, hty⟩ => hback y hy _ hty

theorem SendsNext.tags {nxt nxt' : UInt32} {q q' : List SkBuff} {n : ℕ} {ts : List Transmission}
    (h : SendsNext nxt q n nxt' q' ts) :
    (∀ x ∈ q', ∃ y ∈ q, x.tag = y.tag) ∧ ∀ t ∈ ts, ∃ y ∈ q, t.tag = y.tag := by
  induction h with
  | nil nxt q => exact ⟨fun x hx => ⟨x, hx, rfl⟩, by simp⟩
  | @cons nxt nxt' skb q q' n th ts hth hsends ih =>
    constructor
    · intro x hx
      rcases List.mem_cons.mp hx with rfl | hx
      · exact ⟨skb, List.mem_cons_self, rfl⟩
      · obtain ⟨y, hy, hxy⟩ := ih.1 x hx
        exact ⟨y, List.mem_cons_of_mem _ hy, hxy⟩
    · intro t ht
      rcases List.mem_cons.mp ht with rfl | ht
      · exact ⟨skb, List.mem_cons_self, rfl⟩
      · obtain ⟨y, hy, hty⟩ := ih.2 t ht
        exact ⟨y, List.mem_cons_of_mem _ hy, hty⟩

theorem TxStep.sending {v v' : TxView} (h : TxStep v v') : Sending v v' := by
  cases h with
  | control th =>
    refine ⟨rfl, .inl rfl, fun x hx => ⟨x, hx, rfl⟩, _, rfl, fun t ht => .inl ?_⟩
    rw [List.mem_singleton.mp ht]
  | ack ackSeq hacc =>
    have hview : v.snd.ack ackSeq = { v.snd with
        sndUna := ackSeq
        writeQueue := (tcpCleanLoop ackSeq v.snd.writeQueue v.snd.inflight).1
        inflight := (tcpCleanLoop ackSeq v.snd.writeQueue v.snd.inflight).2 } := by
      rw [SndView.ack, if_pos hacc]
    obtain ⟨c, -, heq, -⟩ := tcpCleanLoop_spec ackSeq v.snd.writeQueue v.snd.inflight
    rw [hview, heq]
    exact ⟨rfl, .inl rfl, fun x hx => ⟨x, List.mem_of_mem_drop hx, rfl⟩, [],
      (List.append_nil _).symm, by simp⟩
  | @pending n nxt q ts h0 hpos hsends =>
    obtain ⟨hq, hts⟩ := hsends.tags
    exact ⟨rfl, .inl rfl, hq, ts, rfl, fun t ht => .inr (hts t ht)⟩
  | disarm => exact ⟨rfl, .inl rfl, fun x hx => ⟨x, hx, rfl⟩, [], (List.append_nil _).symm, by simp⟩
  | release => exact ⟨rfl, .inr rfl, fun x hx => ⟨x, hx, rfl⟩, [], (List.append_nil _).symm, by simp⟩

theorem sending_of_steps {v v' : TxView} (h : ReflTransGen TxStep v v') : Sending v v' := by
  induction h with
  | refl => exact .refl v
  | tail _ hstep ih => exact ih.trans hstep.sending

theorem sending_timeout (env : Env) {s : TcpSock} (hst : s.state.connected) :
    Sending s.txv (tcpRetransmissionTimeout env s).txv := by
  obtain ⟨-, ⟨-, hview⟩ | ⟨skb, q, th, hwq, -, hview⟩⟩ := exists_tcpRetransmissionTimeout env hst
  · rw [hview]
    exact TxStep.sending (.disarm _)
  · have hmem : skb ∈ s.txv.snd.writeQueue := by
      change skb ∈ s.writeQueue
      rw [hwq]
      exact List.mem_cons_self
    have hre : Sending s.txv (s.txv.retransmit skb q th) := by
      refine ⟨rfl, .inl rfl, fun x hx => ?_, _, rfl, fun t ht => .inr ⟨skb, hmem, ?_⟩⟩
      · rcases List.mem_cons.mp hx with rfl | hx
        · exact ⟨skb, hmem, rfl⟩
        · refine ⟨x, ?_, rfl⟩
          change x ∈ s.writeQueue
          rw [hwq]
          exact List.mem_cons_of_mem _ hx
      · rw [List.mem_singleton.mp ht]
        rfl
    rcases hview with hview | hstep
    · rw [hview]
      exact ⟨hre.queued, hre.tx, hre.writeQueue, hre.out⟩
    · exact hre.trans hstep.sending

/-- What queueing a buffer does to the queues and the transmissions. -/
theorem exists_queued (env : Env) (s : TcpSock) (skb : SkBuff) :
    ∃ y, SameBuf y skb ∧
      (tcpQueueTransmitSkb env s skb).1.snd.queued = s.queued ++ [y] ∧
      (tcpQueueTransmitSkb env s skb).1.snd.writeQueue = s.writeQueue ++ [y] ∧
      ∃ ts, (tcpQueueTransmitSkb env s skb).1.txv.out = s.out ++ ts ∧ ∀ t ∈ ts, t.tag = skb.tag := by
  rcases exists_tcpQueueTransmitSkb env s skb with ⟨-, hview⟩ | ⟨-, th, hth, hview⟩
  · have hsnd : (tcpQueueTransmitSkb env s skb).1.snd = s.snd.enqueue skb :=
      congrArg TxView.snd hview
    refine ⟨skb, .refl skb, by rw [hsnd]; rfl, by rw [hsnd]; rfl, [], ?_, by simp⟩
    rw [hview, List.append_nil]
    rfl
  · have hsnd : (tcpQueueTransmitSkb env s skb).1.snd =
        s.snd.sendNow skb ((skb.withHeader th).at s.tcb.sndNxt) := congrArg TxView.snd hview
    refine ⟨_, ((SameBuf.refl skb).withHeader hth).at s.tcb.sndNxt, by rw [hsnd]; rfl,
      by rw [hsnd]; rfl, [skb.transmission th], by rw [hview], fun t ht => ?_⟩
    rw [List.mem_singleton.mp ht]
    rfl

/-! ## The end of a block -/

/-- The parity of the current block. -/
noncomputable def TcpFec.parity (env : Env) (s : TcpSock) (fec : TcpFec) : List Packet :=
  blockParity (fecSrcX fec.txFilled) (fecRedX fec.txFilled fec.r none)
    (fec.enc.src.map (symMem env s fec)) fec.symLen

/-- The emission of the current block with given parity. -/
def TcpSock.emitParity (env : Env) (s : TcpSock) (fec : TcpFec) (ps : List Packet) : TcpSock :=
  let t := tcpFecSendRepairs env fec fec.txFilled fec.txTailLen s 0 ps
  if t.2 ≠ 0 then t.1 else { t.1 with fec := some fec.nextBlock }

theorem tcpFecEmitBlock_parity (env : Env) (s : TcpSock) {fec : TcpFec} (h : EncOk fec)
    (hpos : 0 < fec.txFilled) :
    (tcpFecEmitBlock env s fec fec.txFilled fec.txTailLen).1 =
      s.emitParity env fec (fec.parity env s) := by
  have hparity : (tcpFecBlockEncoder fec fec.txFilled).bind
      (fecEncoderGenerate (symMem env s fec)) = some (fec.parity env s) := h.parity_eq hpos env s
  unfold tcpFecEmitBlock TcpSock.emitParity
  rw [if_neg (by omega), if_neg (Nat.not_lt.mpr h.le), hparity]
  dsimp only
  split <;> rfl

/-- **The piece that fills a block**, with the parity as a value. -/
theorem tcpSendPiece_last (env : Env) {s : TcpSock} {fec : TcpFec} (hfec : s.fec = some fec)
    (h : EncOk fec) (hlast : fec.txFilled + 1 = fec.k) (piece : List UInt8 × Bool) :
    let fec' := (fec.pin s.tcb.sndNxt).register (codedBuf s.nextAddr fec piece)
    tcpSendPiece env s piece = (s.queuedPiece env fec piece).emitParity env fec'
      (fec'.parity env (s.queuedPiece env fec piece)) := by
  intro fec'
  have hflush : tcpFecForceFlush env s = s := by
    rcases @tcpFecForceFlush_cases env s fec hfec h with ⟨-, heq⟩ | ⟨hk, -⟩
    · exact heq
    · omega
  have hfec' : (s.queuedPiece env fec piece).fec = some fec' := fec_queuedPiece env s fec piece
  have h' : EncOk fec' := (h.pin s.tcb.sndNxt).register (codedBuf s.nextAddr fec piece)
  have hk : fec'.txFilled = fec'.k := by
    obtain ⟨ptr, srcBuf, hreg⟩ := (h.pin s.tcb.sndNxt).exists_register
      (by rw [TcpFec.pin_txFilled, TcpFec.pin_k]; omega) (codedBuf s.nextAddr fec piece)
    have hfec'' : fec' = (fec.pin s.tcb.sndNxt).added ptr _ srcBuf := hreg
    rw [hfec'']
    change (fec.pin s.tcb.sndNxt).txFilled + 1 = (fec.pin s.tcb.sndNxt).k
    rw [TcpFec.pin_txFilled, TcpFec.pin_k, hlast]
  rw [tcpSendPiece_coded env hflush hfec, ← tcpFecEmitBlock_parity env _ h' (hk ▸ h'.k_pos)]
  unfold tcpFecEmitFull
  rw [hfec']
  exact (if_pos hk).trans (by rw [hk])

/-- **The piece that fills a block** is queued, and repair segments of the block go out. -/
theorem exists_repair_of_last (env : Env) {s : TcpSock} {fec : TcpFec} (hfec : s.fec = some fec)
    (h : EncOk fec) (hlast : fec.txFilled + 1 = fec.k) (piece : List UInt8 × Bool) :
    ∃ ts t y p, (tcpSendPiece env s piece).out = s.out ++ ts ∧ t ∈ ts ∧
      t.tag = some { type := .repair, index := 0, block := fec.txBlockId } ∧
      t.seg.payload = (repairHdr (fec.pin s.tcb.sndNxt) fec.k 0 piece.1.length).write ++ p ∧
      SameBuf y (codedBuf s.nextAddr fec piece) ∧
      (tcpSendPiece env s piece).queued = s.queued ++ [y] := by
  have hflush : tcpFecForceFlush env s = s := by
    rcases @tcpFecForceFlush_cases env s fec hfec h with ⟨-, heq⟩ | ⟨hk, -⟩
    · exact heq
    · omega
  have hfec₂ := fec_queuedPiece env s fec piece
  obtain ⟨y, hy, hqueued, -, us, hout, -⟩ :=
    exists_queued env (s.staged fec piece) (codedBuf s.nextAddr fec piece)
  change (s.queuedPiece env fec piece).queued = s.queued ++ [y] at hqueued
  change (s.queuedPiece env fec piece).out = s.out ++ us at hout
  obtain ⟨ptr, srcBuf, hreg⟩ := (h.pin s.tcb.sndNxt).exists_register
    (by rw [TcpFec.pin_txFilled, TcpFec.pin_k]; omega) (codedBuf s.nextAddr fec piece)
  have h₂ := (h.pin s.tcb.sndNxt).register (codedBuf s.nextAddr fec piece)
  have hdlen : (codedBuf s.nextAddr fec piece).dlen = piece.1.length := rfl
  rw [hreg, hdlen] at hfec₂ h₂
  have hk : ((fec.pin s.tcb.sndNxt).added ptr piece.1.length srcBuf).txFilled = fec.k := by
    rw [← hlast, ← TcpFec.pin_txFilled fec s.tcb.sndNxt]
    rfl
  have hk' : ((fec.pin s.tcb.sndNxt).added ptr piece.1.length srcBuf).k = fec.k :=
    fec.pin_k s.tcb.sndNxt
  rw [tcpSendPiece_coded env hflush hfec]
  generalize s.queuedPiece env fec piece = s₂ at *
  obtain ⟨ps, ts, hem⟩ := exists_emission env hfec₂ h₂ (hk.trans_gt (by omega))
  have hfull : tcpFecEmitFull env s₂ = (tcpFecEmitBlock env s₂
      ((fec.pin s.tcb.sndNxt).added ptr piece.1.length srcBuf) fec.k piece.1.length).1 := by
    unfold tcpFecEmitFull
    rw [hfec₂]
    exact (if_pos (hk.trans hk'.symm)).trans (by rw [hk']; rfl)
  have hsock := hem.sock
  rw [hk] at hsock
  rw [hfull]
  change (tcpFecEmitBlock env s₂ _ fec.k piece.1.length).1 = _ at hsock
  cases ts with
  | nil => exact absurd rfl hem.ne_nil
  | cons t ts =>
    obtain ⟨p, -, hof⟩ := hem.repairs 0 t rfl
    have hpay := hof.payload
    rw [hk] at hpay
    refine ⟨us ++ t :: ts, t, y, _, ?_, List.mem_append_right _ List.mem_cons_self, ?_, hpay, hy, ?_⟩
    · rw [hsock, ← List.append_assoc, ← hout]
      rfl
    · rw [hof.tag, ← fec.pin_txBlockId s.tcb.sndNxt]
      rfl
    · rw [hsock]
      exact hqueued

/-- Closing a socket with a block in progress sends repair segments of it. -/
theorem exists_repair_of_close (env : Env) {s : TcpSock} {fec : TcpFec} (hst : s.state = .established)
    (hfec : s.fec = some fec) (henc : EncOk fec) (hpos : 0 < fec.txFilled) :
    ∃ t ∈ (tcpClose env s).out,
      t.tag = some { type := .repair, index := 0, block := fec.txBlockId } ∧
      ∃ p, t.seg.payload = (repairHdr fec fec.txFilled 0 fec.txTailLen).write ++ p := by
  obtain ⟨ps, ts, hem⟩ := @exists_emission env { s with state := .finWait1 } fec hfec henc hpos
  have hflush : tcpFecFlush env { s with state := .finWait1 } =
      (tcpFecEmitBlock env { s with state := .finWait1 } fec fec.txFilled fec.txTailLen).1 := by
    unfold tcpFecFlush
    dsimp only
    rw [hfec]
    exact if_neg (by omega)
  unfold tcpClose tcpQueueFin
  rw [hst]
  dsimp only
  rw [hflush]
  have hout : (tcpFecEmitBlock env { s with state := .finWait1 } fec fec.txFilled
      fec.txTailLen).1.out = s.out ++ ts := by
    rw [hem.sock]
    rfl
  generalize (tcpFecEmitBlock env _ fec fec.txFilled fec.txTailLen).1 = s₁ at hout ⊢
  obtain ⟨-, -, -, -, us, hus, -⟩ := exists_queued env { s₁ with nextAddr := s₁.nextAddr + 1 }
    (tcpAllocSkb s₁ none { Tcphdr.zero with fin := true, ack := true } []).2
  cases ts with
  | nil => exact absurd rfl hem.ne_nil
  | cons t ts =>
    obtain ⟨p, -, hof⟩ := hem.repairs 0 t rfl
    refine ⟨t, ?_, hof.tag, _, hof.payload⟩
    have hmem : t ∈ s₁.out ++ us := by
      rw [hout]
      exact List.mem_append_left _ (List.mem_append_right _ List.mem_cons_self)
    rw [← show _ = s₁.out ++ us from hus] at hmem
    exact hmem

end LvlIp.Tcp
