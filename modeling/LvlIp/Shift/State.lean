import LvlIp.Tcp.Events
import LvlIp.Send.Order

/-!
# Moving the sequence spaces

Sequence numbers are compared as unsigned 32-bit numbers, and 0 marks a buffer that has not been
transmitted and a SACK block that is not in use. How far the stack is indifferent to where its two
sequence spaces start is said by a translation `Shift` of both of them: `TcpSock.shift` moves all
numbers of a socket, `Segment.shift` those of an arriving segment. This module has the translation
and its interplay with everything that sends: there it matters that nothing is transmitted at
sequence number 0 (`NextOk`), and that the SACK blocks have been sent (`AtRest`).
-/

namespace LvlIp.Tcp

open Fec Foundations

/-- A translation of the sequence spaces of the two directions. -/
structure Shift where
  snd : UInt32
  rcv : UInt32

/-! ## Options -/

/-- The words of a byte string, moved by `c`. -/
def shiftWords (c : UInt32) : List UInt8 → List UInt8
  | b₀ :: b₁ :: b₂ :: b₃ :: rest => be32 (ntohl [b₀, b₁, b₂, b₃] 0 + c) ++ shiftWords c rest
  | rest => rest

/-- An option area that starts with the SACK option of `tcp_write_options` has its edges moved. -/
def shiftSack (c : UInt32) (data : List UInt8) : List UInt8 :=
  if data.take 3 = [1, 1, 5] then data.take 4 ++ shiftWords c (data.drop 4) else data

theorem be32_ntohl (b₀ b₁ b₂ b₃ : UInt8) : be32 (ntohl [b₀, b₁, b₂, b₃] 0) = [b₀, b₁, b₂, b₃] := by
  have h0 := b₀.toNat_lt
  have h1 := b₁.toNat_lt
  have h2 := b₂.toNat_lt
  have h3 := b₃.toNat_lt
  have hval : (ntohl [b₀, b₁, b₂, b₃] 0).toNat =
      b₀.toNat * 16777216 + b₁.toNat * 65536 + b₂.toNat * 256 + b₃.toNat := by
    simp only [ntohl, List.getD_cons_zero, List.getD_cons_succ, UInt32.toNat_ofNat']
    omega
  simp only [be32, hval, List.cons.injEq, and_true]
  refine ⟨?_, ?_, ?_, ?_⟩ <;> rw [← UInt8.toNat_inj, UInt8.toNat_ofNat'] <;> omega

theorem shiftWords_zero (data : List UInt8) : shiftWords 0 data = data := by
  induction data using shiftWords.induct with
  | case1 b₀ b₁ b₂ b₃ rest ih =>
    rw [shiftWords, UInt32.add_zero, be32_ntohl, ih]
    rfl
  | case2 rest h =>
    unfold shiftWords
    split
    · exact absurd rfl (h _ _ _ _ _)
    · rfl

@[simp]
theorem shiftSack_zero (data : List UInt8) : shiftSack 0 data = data := by
  unfold shiftSack
  split
  · rw [shiftWords_zero, List.take_append_drop]
  · rfl

theorem shiftWords_be32 (c x : UInt32) (rest : List UInt8) :
    shiftWords c (be32 x ++ rest) = be32 (x + c) ++ shiftWords c rest := by
  have hread : ntohl (be32 x) 0 = x := ofNat_bytes32 x
  change be32 (ntohl (be32 x) 0 + c) ++ shiftWords c rest = _
  rw [hread]

/-! ## Repair segments -/

/-- The word at the front of a byte string, moved by `c`. -/
def shiftWord (c : UInt32) : List UInt8 → List UInt8
  | b₀ :: b₁ :: b₂ :: b₃ :: rest => be32 (ntohl [b₀, b₁, b₂, b₃] 0 + c) ++ rest
  | rest => rest

/-- The tag of a repair segment. -/
def repairTag : Option FecTag → Bool
  | some ⟨.repair, _, _⟩ => true
  | _ => false

/-- A repair segment has the base sequence number in its header moved. -/
def shiftPayload (c : UInt32) (tag : Option FecTag) (payload : List UInt8) : List UInt8 :=
  if repairTag tag then payload.take 8 ++ shiftWord c (payload.drop 8) else payload

theorem shiftWord_zero (data : List UInt8) : shiftWord 0 data = data := by
  unfold shiftWord
  split
  · rw [UInt32.add_zero, be32_ntohl]
    rfl
  · rfl

@[simp]
theorem shiftPayload_zero (tag : Option FecTag) (payload : List UInt8) :
    shiftPayload 0 tag payload = payload := by
  unfold shiftPayload
  rw [shiftWord_zero, List.take_append_drop, ite_self]

theorem shiftPayload_of {c : UInt32} {tag : Option FecTag} (h : c = 0 ∨ repairTag tag = false)
    (payload : List UInt8) : shiftPayload c tag payload = payload := by
  rcases h with rfl | h
  · exact shiftPayload_zero tag payload
  · unfold shiftPayload
    rw [h]
    rfl

/-- The header of a repair segment, moved. -/
theorem shiftPayload_write (c : UInt32) (index block : ℕ) (rh : FecRepairHdr) (parity : Packet) :
    shiftPayload c (some ⟨.repair, index, block⟩) (rh.write ++ parity) =
      ({ rh with baseSeq := rh.baseSeq + c } : FecRepairHdr).write ++ parity := by
  have hread : ntohl (be32 rh.baseSeq) 0 = rh.baseSeq := ofNat_bytes32 rh.baseSeq
  change [rh.version, rh.k, rh.r, rh.repairIndex] ++ be32 rh.blockId ++
    (be32 (ntohl (be32 rh.baseSeq) 0 + c) ++ (be16 rh.symLen ++ be16 rh.tailLen ++ parity)) = _
  rw [hread]
  unfold FecRepairHdr.write
  simp only [List.append_assoc]

/-! ## Headers and buffers -/

/-- The header of an arriving segment, moved. -/
def Tcphdr.shiftIn (σ : Shift) (th : Tcphdr) : Tcphdr :=
  { th with seq := th.seq + σ.rcv, ackSeq := th.ackSeq + σ.snd }

/-- The header of a transmitted segment, moved. -/
def Tcphdr.shiftOut (σ : Shift) (th : Tcphdr) : Tcphdr :=
  { th with
    seq := th.seq + σ.snd, ackSeq := th.ackSeq + σ.rcv, data := shiftSack σ.rcv th.data }

/-- An arriving segment, moved. -/
def Segment.shift (σ : Shift) (seg : Segment) : Segment := { seg with th := seg.th.shiftIn σ }

/-- A transmission, moved. -/
def Transmission.shift (σ : Shift) (t : Transmission) : Transmission :=
  { t with seg := ⟨t.seg.th.shiftOut σ, shiftPayload σ.snd t.tag t.seg.payload⟩ }

/-- A buffer of the receive queues, moved. The header of a spliced buffer is not from the wire. -/
def SkBuff.shiftIn (σ : Shift) (skb : SkBuff) : SkBuff :=
  { skb with
    th := if skb.th.ack then skb.th.shiftIn σ else skb.th
    seq := skb.seq + σ.rcv, endSeq := skb.endSeq + σ.rcv }

/-- A buffer to send, moved: what a transmission has filled in. -/
def SkBuff.shiftOut (σ : Shift) (skb : SkBuff) : SkBuff :=
  { skb with
    th := { skb.th with
      seq := if skb.th.seq = 0 then 0 else skb.th.seq + σ.snd
      ackSeq := if skb.th.hl = 0 then skb.th.ackSeq else skb.th.ackSeq + σ.rcv
      data := shiftSack σ.rcv skb.th.data }
    seq := if skb.seq = 0 then 0 else skb.seq + σ.snd
    endSeq := if skb.seq = 0 then skb.endSeq else skb.endSeq + σ.snd }

/-- The control block, moved. -/
def Tcb.shift (σ : Shift) (tcb : Tcb) : Tcb where
  sndUna := tcb.sndUna + σ.snd
  sndNxt := tcb.sndNxt + σ.snd
  iss := tcb.iss + σ.snd
  rcvNxt := tcb.rcvNxt + σ.rcv
  rcvWnd := tcb.rcvWnd
  irs := tcb.irs + σ.rcv

/-- The FEC state, moved: the base sequence number of the block once it has been pinned. -/
def TcpFec.shift (c : UInt32) (fec : TcpFec) : TcpFec :=
  { fec with txBaseSeq := if fec.txBaseSeq = 0 then 0 else fec.txBaseSeq + c }

/-- A socket with its sequence spaces moved. -/
def TcpSock.shift (σ : Shift) (s : TcpSock) : TcpSock :=
  { s with
    tcb := s.tcb.shift σ
    fec := s.fec.map (TcpFec.shift σ.snd)
    receiveQueue := s.receiveQueue.map (SkBuff.shiftIn σ)
    ofoQueue := s.ofoQueue.map (SkBuff.shiftIn σ)
    writeQueue := s.writeQueue.map (SkBuff.shiftOut σ)
    queued := s.queued.map (SkBuff.shiftOut σ)
    out := s.out.map (Transmission.shift σ) }

/-- No SACK block waits to be sent. -/
structure AtRest (s : TcpSock) : Prop where
  sacklen : s.sacklen = 0
  sacks : s.sacks = List.replicate 4 ⟨0, 0⟩
  allowed : s.sacksAllowed ≤ 4

/-- The second socket is the first one, moved, between two calls. -/
structure Shifted (σ : Shift) (s s' : TcpSock) : Prop where
  eq : s' = s.shift σ
  rest : σ.rcv = 0 ∨ AtRest s

/-- The SACK blocks of the two sockets are the same. -/
structure SameSacks (s s₁ : TcpSock) : Prop where
  sacklen : s₁.sacklen = s.sacklen
  sacks : s₁.sacks = s.sacks
  allowed : s₁.sacksAllowed = s.sacksAllowed

theorem SameSacks.rest {s s₁ : TcpSock} (h : SameSacks s s₁) (hrest : AtRest s) : AtRest s₁ :=
  ⟨h.sacklen.trans hrest.sacklen, h.sacks.trans hrest.sacks, h.allowed ▸ hrest.allowed⟩

theorem Shifted.of {σ : Shift} {s s' s₁ s₁' : TcpSock} (h : Shifted σ s s')
    (heq : s₁' = s₁.shift σ) (hsame : SameSacks s s₁) : Shifted σ s₁ s₁' :=
  ⟨heq, h.rest.imp_right hsame.rest⟩

/-! ## Timers and the end of a connection -/

section Timers

variable {σ : Shift} {s s' : TcpSock}

theorem Shifted.stopRtoTimer (h : Shifted σ s s') :
    Shifted σ (tcpStopRtoTimer s) (tcpStopRtoTimer s') :=
  h.of (by rw [h.eq]; rfl) ⟨rfl, rfl, rfl⟩

theorem Shifted.rearmRtoTimer (h : Shifted σ s s') :
    Shifted σ (tcpRearmRtoTimer s) (tcpRearmRtoTimer s') := by
  refine h.of ?_ ?_
  · rw [h.eq]
    unfold tcpRearmRtoTimer TcpSock.shift
    dsimp only [tcpReleaseRtoTimer]
    split <;> rfl
  · unfold tcpRearmRtoTimer
    dsimp only
    split <;> exact ⟨rfl, rfl, rfl⟩

theorem Shifted.rearmUserTimeout (h : Shifted σ s s') :
    Shifted σ (tcpRearmUserTimeout s) (tcpRearmUserTimeout s') := by
  refine h.of ?_ ?_
  · rw [h.eq]
    unfold tcpRearmUserTimeout TcpSock.shift
    dsimp only
    split <;> rfl
  · unfold tcpRearmUserTimeout
    split <;> exact ⟨rfl, rfl, rfl⟩

theorem Shifted.rtt (h : Shifted σ s s') : Shifted σ (tcpRtt s) (tcpRtt s') := by
  refine h.of ?_ ?_
  · rw [h.eq]
    unfold tcpRtt TcpSock.shift
    dsimp only
    split
    · rfl
    · split
      · rfl
      · split <;> rfl
  · unfold tcpRtt
    split
    · exact ⟨rfl, rfl, rfl⟩
    · split
      · exact ⟨rfl, rfl, rfl⟩
      · dsimp only
        split <;> exact ⟨rfl, rfl, rfl⟩

theorem Shifted.done (h : Shifted σ s s') : Shifted σ (tcpDone s) (tcpDone s') :=
  h.of (by rw [h.eq]; rfl) ⟨rfl, rfl, rfl⟩

theorem Shifted.enterTimeWait (h : Shifted σ s s') :
    Shifted σ (tcpEnterTimeWait s) (tcpEnterTimeWait s') :=
  h.of (by rw [h.eq]; rfl) ⟨rfl, rfl, rfl⟩

theorem Shifted.handleFinState (h : Shifted σ s s') :
    Shifted σ (tcpHandleFinState s) (tcpHandleFinState s') := by
  refine h.of ?_ ?_
  · rw [h.eq]
    unfold tcpHandleFinState TcpSock.shift
    dsimp only
    split <;> rfl
  · unfold tcpHandleFinState
    split <;> exact ⟨rfl, rfl, rfl⟩

end Timers

/-! ## Transmission -/

section Transmit

variable {σ : Shift} {s s' : TcpSock} (env : Env)

/-- The buffers are the same but for what a transmission fills in, and their SACK blocks. -/
structure SendsSame (σ : Shift) (skb skb' : SkBuff) : Prop where
  addr : skb'.addr = skb.addr
  tag : skb'.tag = skb.tag
  payload : skb'.payload = shiftPayload σ.snd skb.tag skb.payload
  th : ∃ seq ackSeq, skb'.th = { skb.th with seq, ackSeq, data := shiftSack σ.rcv skb.th.data }

/-- The buffer is no repair segment, or the send sequence space stays. -/
def SourceBuf (σ : Shift) (skb : SkBuff) : Prop := σ.snd = 0 ∨ repairTag skb.tag = false

theorem sendsSame_shiftOut {skb : SkBuff} (hsrc : SourceBuf σ skb) :
    SendsSame σ skb (skb.shiftOut σ) :=
  ⟨rfl, rfl, (shiftPayload_of hsrc _).symm, _, _, rfl⟩

theorem shift_of_ne {c x : UInt32} (h : c = 0 ∨ x ≠ 0) : (if x = 0 then 0 else x + c) = x + c := by
  split
  · next h0 =>
    rw [h.resolve_right fun hne => hne h0, h0]
    rfl
  · rfl

/-- A header that has been filled in. -/
theorem shiftOut_withHeader (skb : SkBuff) {th : Tcphdr} (hhl : th.hl ≠ 0)
    (hseq : σ.snd = 0 ∨ th.seq ≠ 0) :
    ({ skb with th } : SkBuff).shiftOut σ = { skb.shiftOut σ with th := th.shiftOut σ } := by
  unfold SkBuff.shiftOut Tcphdr.shiftOut
  dsimp only
  rw [if_neg hhl, shift_of_ne hseq]

theorem SendsSame.fin {skb skb' : SkBuff} (h : SendsSame σ skb skb') :
    skb'.th.fin = skb.th.fin := by
  obtain ⟨seq, ackSeq, hth⟩ := h.th
  rw [hth]

theorem SendsSame.fillHeader {skb skb' : SkBuff} (h : SendsSame σ skb skb') (s : TcpSock)
    (seq : UInt32) : tcpFillHeader (s.shift σ) skb' (seq + σ.snd) =
      (tcpFillHeader s skb seq).shiftOut σ := by
  obtain ⟨seq', ackSeq', hth⟩ := h.th
  unfold tcpFillHeader
  rw [hth]
  rfl

theorem tcpFillOptions_rest {s : TcpSock} (h : AtRest s) (th : Tcphdr) :
    tcpFillOptions s th = (s, th) := by
  unfold tcpFillOptions tcpWriteOptions
  rw [h.sacks]
  split
  · split
    · rfl
    · exact if_pos (.inr rfl)
  · rfl

theorem shift_tcpFillOptions (hzero : σ.rcv = 0) (s : TcpSock) (th : Tcphdr) :
    tcpFillOptions (s.shift σ) (th.shiftOut σ) =
      ((tcpFillOptions s th).1.shift σ, (tcpFillOptions s th).2.shiftOut σ) := by
  have hset : ∀ d, { th.shiftOut σ with data := d } = ({ th with data := d } : Tcphdr).shiftOut σ := by
    intro d
    simp only [Tcphdr.shiftOut, hzero, shiftSack_zero]
  have hth : (th.shiftOut σ).data = th.data := by
    unfold Tcphdr.shiftOut
    rw [hzero, shiftSack_zero]
  unfold tcpFillOptions tcpWriteOptions
  rw [hth]
  change (if 5 < th.hl then if th.data.getD 0 0 = tcpOptFec then (s.shift σ, th.shiftOut σ) else
    if s.sackok = 0 ∨ (s.sacks.getD 0 ⟨0, 0⟩).left = 0 then (s.shift σ, th.shiftOut σ) else
      (_, { th.shiftOut σ with data := _ }) else (s.shift σ, th.shiftOut σ)) = _
  rw [hset]
  split
  · split
    · rfl
    · split <;> rfl
  · rfl

/-- The SACK blocks go out only when there are some. -/
theorem Shifted.fillOptions (h : Shifted σ s s') (th : Tcphdr) :
    Shifted σ (tcpFillOptions s th).1 (tcpFillOptions s' (th.shiftOut σ)).1 ∧
      (tcpFillOptions s' (th.shiftOut σ)).2 = (tcpFillOptions s th).2.shiftOut σ := by
  obtain ⟨rfl, hzero | hrest⟩ := h
  · rw [shift_tcpFillOptions hzero]
    exact ⟨⟨rfl, .inl hzero⟩, rfl⟩
  · have hrest' : AtRest (s.shift σ) := ⟨hrest.sacklen, hrest.sacks, hrest.allowed⟩
    rw [tcpFillOptions_rest hrest, tcpFillOptions_rest hrest']
    exact ⟨⟨rfl, .inr hrest⟩, rfl⟩

/-- **A transmission** in the two sockets. -/
theorem Shifted.transmit (h : Shifted σ s s') {skb skb' : SkBuff} (hskb : SendsSame σ skb skb')
    (seq : UInt32) :
    Shifted σ (tcpTransmitSkb env s skb seq).1 (tcpTransmitSkb env s' skb' (seq + σ.snd)).1 ∧
      (tcpTransmitSkb env s' skb' (seq + σ.snd)).2.1 =
        { skb' with th := (tcpTransmitSkb env s skb seq).2.1.th.shiftOut σ } := by
  have hfill := h.fillOptions (tcpFillHeader s skb seq)
  rw [← hskb.fillHeader, ← h.eq] at hfill
  unfold tcpTransmitSkb
  dsimp only
  generalize tcpFillOptions s (tcpFillHeader s skb seq) = w at hfill
  generalize tcpFillOptions s' (tcpFillHeader s' skb' (seq + σ.snd)) = w' at hfill
  obtain ⟨hw, hth⟩ := hfill
  refine ⟨hw.of ?_ ⟨rfl, rfl, rfl⟩, by rw [hth]⟩
  rw [hw.eq, hth, hskb.addr, hskb.tag, hskb.payload]
  unfold TcpSock.emit TcpSock.shift
  dsimp only
  rw [List.map_append]
  rfl

theorem hl_tcpTransmitSkb (s : TcpSock) (skb : SkBuff) (seq : UInt32) :
    (tcpTransmitSkb env s skb seq).2.1.th.hl ≠ 0 := by
  have hhl : (tcpFillHeader s skb seq).hl ≠ 0 := by
    unfold tcpFillHeader
    dsimp only
    split
    · decide
    · next h => exact h
  change (tcpFillOptions s (tcpFillHeader s skb seq)).2.hl ≠ 0
  unfold tcpFillOptions tcpWriteOptions
  split
  · split
    · exact hhl
    · split <;> exact hhl
  · exact hhl

theorem seq_tcpTransmitSkb (s : TcpSock) (skb : SkBuff) (seq : UInt32) :
    (tcpTransmitSkb env s skb seq).2.1.th.seq = seq :=
  (filledFrom_tcpFillOptions s skb seq).seq

/-- A buffer that is transmitted at `nxt`, which is not 0. -/
theorem SendsSame.at {nxt : UInt32} (hnxt : σ.snd = 0 ∨ nxt ≠ 0) {skb skb' : SkBuff}
    (h : SendsSame σ skb skb') (hsrc : SourceBuf σ skb) {th : Tcphdr} (hhl : th.hl ≠ 0)
    (hth : th.seq = nxt) :
    ({ skb' with th := th.shiftOut σ } : SkBuff).at (nxt + σ.snd) =
      (({ skb with th } : SkBuff).at nxt).shiftOut σ := by
  have hend : nxt + σ.snd + UInt32.ofNat skb.dlen = if nxt = 0 then nxt + UInt32.ofNat skb.dlen
      else nxt + UInt32.ofNat skb.dlen + σ.snd := by
    split
    · next h0 =>
      rw [hnxt.resolve_right (fun hne => hne h0), UInt32.add_zero]
    · rw [UInt32.add_assoc, UInt32.add_comm σ.snd, ← UInt32.add_assoc]
  have hpay : skb'.payload = skb.payload := h.payload.trans (shiftPayload_of hsrc _)
  have hlen : skb'.payload.length = skb.payload.length := by rw [hpay]
  have hfilled := shiftOut_withHeader (skb.at nxt) hhl (hth ▸ hnxt)
  change _ = SkBuff.shiftOut σ { skb.at nxt with th }
  rw [hfilled]
  unfold SkBuff.at SkBuff.shiftOut SkBuff.dlen
  simp only [SkBuff.mk.injEq]
  refine ⟨h.addr, h.tag, trivial, hpay, (shift_of_ne hnxt).symm, ?_⟩
  rw [hlen]
  exact hend

theorem shift_tcpAdvanceNxt (s : TcpSock) {skb skb' : SkBuff} (hlen : skb'.dlen = skb.dlen)
    (hfin : skb'.th.fin = skb.th.fin) :
    tcpAdvanceNxt (s.shift σ) skb' = (tcpAdvanceNxt s skb).shift σ := by
  have hmove : ∀ x y : UInt32, x + σ.snd + y = x + y + σ.snd := by
    intro x y
    rw [UInt32.add_assoc, UInt32.add_comm σ.snd, ← UInt32.add_assoc]
  unfold tcpAdvanceNxt
  rw [hlen, hfin]
  unfold TcpSock.shift Tcb.shift
  dsimp only
  split
  · simp only [hmove]
  · simp only [hmove]

/-- **A transmission at `snd_nxt`**: the socket and the buffer that follow. -/
theorem Shifted.transmitNext (h : Shifted σ s s') {skb skb' : SkBuff}
    (hskb : SendsSame σ skb skb') (hsrc : SourceBuf σ skb) (hnxt : σ.snd = 0 ∨ s.tcb.sndNxt ≠ 0) :
    let t := tcpTransmitSkb env s skb s.tcb.sndNxt
    let t' := tcpTransmitSkb env s' skb' s'.tcb.sndNxt
    Shifted σ t.1 t'.1 ∧ t'.2.1.at t'.1.tcb.sndNxt = (t.2.1.at t.1.tcb.sndNxt).shiftOut σ ∧
      Shifted σ (tcpAdvanceNxt t.1 t.2.1) (tcpAdvanceNxt t'.1 t'.2.1) := by
  have hnxt' : s'.tcb.sndNxt = s.tcb.sndNxt + σ.snd := by
    rw [h.eq]
    rfl
  have hhl := hl_tcpTransmitSkb env s skb s.tcb.sndNxt
  have hkeep : (tcpTransmitSkb env s skb s.tcb.sndNxt).1.tcb.sndNxt = s.tcb.sndNxt :=
    congrArg SndView.sndNxt (snd_tcpTransmitSkb env s skb s.tcb.sndNxt)
  obtain ⟨hsock, hbuf⟩ := h.transmit env hskb s.tcb.sndNxt
  rw [← hnxt'] at hsock hbuf
  have hmoved : (tcpTransmitSkb env s' skb' s'.tcb.sndNxt).1.tcb.sndNxt =
      (tcpTransmitSkb env s skb s.tcb.sndNxt).1.tcb.sndNxt + σ.snd := by
    rw [hsock.eq]
    rfl
  intro t t'
  refine ⟨hsock, ?_, hsock.of ?_ ⟨rfl, rfl, rfl⟩⟩
  · change t'.2.1.at (tcpTransmitSkb env s' skb' s'.tcb.sndNxt).1.tcb.sndNxt = _
    rw [hmoved, show t'.2.1 = _ from hbuf]
    exact hskb.at (by rwa [hkeep]) hsrc hhl ((seq_tcpTransmitSkb env s skb _).trans hkeep.symm)
  · rw [show t'.1 = _ from hsock.eq]
    refine shift_tcpAdvanceNxt t.1 ?_ ?_
    · change skb'.payload.length = skb.payload.length
      rw [hskb.payload, shiftPayload_of hsrc]
    · rw [show t'.2.1 = _ from hbuf]
      rfl

theorem shift_enqueue (s : TcpSock) (skb : SkBuff) :
    (s.shift σ).enqueue (skb.shiftOut σ) = (s.enqueue skb).shift σ := by
  unfold TcpSock.enqueue TcpSock.shift
  dsimp only
  rw [List.map_append, List.map_append]
  rfl

/-- **A buffer is queued**, and transmitted when nothing is in flight. -/
theorem Shifted.queueTransmit (h : Shifted σ s s') {skb skb' : SkBuff}
    (hskb : SendsSame σ skb skb') (hsrc : SourceBuf σ skb) (hnxt : σ.snd = 0 ∨ s.tcb.sndNxt ≠ 0)
    (hwait : s.inflight ≠ 0 → skb' = skb.shiftOut σ) :
    Shifted σ (tcpQueueTransmitSkb env s skb).1 (tcpQueueTransmitSkb env s' skb').1 := by
  have hnil : s'.writeQueue = [] ↔ s.writeQueue = [] := by
    rw [h.eq]
    exact List.map_eq_nil_iff
  have hrearm : Shifted σ (if s.writeQueue = [] then tcpRearmRtoTimer s else s)
      (if s'.writeQueue = [] then tcpRearmRtoTimer s' else s') := by
    rw [if_congr hnil rfl rfl]
    split
    · exact h.rearmRtoTimer
    · exact h
  have hsnd : (if s.writeQueue = [] then tcpRearmRtoTimer s else s).snd = s.snd := by
    split
    · exact snd_tcpRearmRtoTimer s
    · rfl
  unfold tcpQueueTransmitSkb
  dsimp only
  generalize (if s.writeQueue = [] then tcpRearmRtoTimer s else s) = s₁ at hrearm hsnd
  generalize (if s'.writeQueue = [] then tcpRearmRtoTimer s' else s') = s₁' at hrearm
  have hinf : s₁'.inflight = s₁.inflight := by rw [hrearm.eq]; rfl
  have hinf₁ : s₁.inflight = s.inflight := congrArg SndView.inflight hsnd
  have hnxt₁ : s₁.tcb.sndNxt = s.tcb.sndNxt := congrArg SndView.sndNxt hsnd
  rw [hinf]
  split
  · obtain ⟨hsock, hbuf, hadv⟩ := hrearm.transmitNext env hskb hsrc (hnxt₁ ▸ hnxt)
    have hi : (tcpTransmitSkb env s₁' skb' s₁'.tcb.sndNxt).1.inflight =
        (tcpTransmitSkb env s₁ skb s₁.tcb.sndNxt).1.inflight := by
      rw [hsock.eq]
      rfl
    unfold tcpQueueTransmitNow
    generalize tcpTransmitSkb env s₁ skb s₁.tcb.sndNxt = t at hsock hbuf hadv hi
    generalize tcpTransmitSkb env s₁' skb' s₁'.tcb.sndNxt = t' at hsock hbuf hadv hi
    refine hadv.of ?_ ⟨rfl, rfl, rfl⟩
    change TcpSock.enqueue { tcpAdvanceNxt t'.1 t'.2.1 with inflight := t'.1.inflight + 1 }
      (t'.2.1.at t'.1.tcb.sndNxt) = _
    rw [hbuf, hadv.eq, hi]
    exact shift_enqueue { tcpAdvanceNxt t.1 t.2.1 with inflight := t.1.inflight + 1 } _
  · next hne =>
    rw [hwait (hinf₁ ▸ hne)]
    exact hrearm.of (by rw [hrearm.eq]; exact shift_enqueue s₁ skb) ⟨rfl, rfl, rfl⟩

/-- The first `n` buffers of the queue can be transmitted from `nxt` on, none of them at 0. -/
def NextOk : ℕ → UInt32 → List SkBuff → Prop
  | 0, _, _ => True
  | _ + 1, _, [] => True
  | n + 1, nxt, skb :: q =>
    nxt ≠ 0 ∧ NextOk n (nxt + UInt32.ofNat skb.dlen + if skb.th.fin then 1 else 0) q

theorem sndNxt_tcpAdvanceNxt (s : TcpSock) (skb : SkBuff) :
    (tcpAdvanceNxt s skb).tcb.sndNxt =
      s.tcb.sndNxt + UInt32.ofNat skb.dlen + if skb.th.fin then 1 else 0 := by
  unfold tcpAdvanceNxt
  dsimp only
  split
  · rfl
  · rw [UInt32.add_zero]

theorem Shifted.sendNextLoop (n : ℕ) {q : List SkBuff} (h : Shifted σ s s')
    (hsrc : ∀ y ∈ q, SourceBuf σ y) (hnext : σ.snd = 0 ∨ NextOk n s.tcb.sndNxt q) :
    Shifted σ (tcpSendNextLoop env n s q).1
        (tcpSendNextLoop env n s' (q.map (SkBuff.shiftOut σ))).1 ∧
      (tcpSendNextLoop env n s' (q.map (SkBuff.shiftOut σ))).2 =
        (tcpSendNextLoop env n s q).2.map (SkBuff.shiftOut σ) := by
  induction n generalizing s s' q with
  | zero => exact ⟨h, rfl⟩
  | succ n ih =>
    cases q with
    | nil => exact ⟨h, rfl⟩
    | cons skb q =>
      have hhead := hsrc skb List.mem_cons_self
      obtain ⟨hsock, hbuf, hadv⟩ := h.transmitNext env (sendsSame_shiftOut hhead) hhead
        (hnext.imp_right And.left)
      have hfrom := filledFrom_tcpFillOptions s skb s.tcb.sndNxt
      have hkeep : (tcpTransmitSkb env s skb s.tcb.sndNxt).1.tcb.sndNxt = s.tcb.sndNxt :=
        congrArg SndView.sndNxt (snd_tcpTransmitSkb env s skb s.tcb.sndNxt)
      have hnext' : σ.snd = 0 ∨ NextOk n (tcpAdvanceNxt (tcpTransmitSkb env s skb s.tcb.sndNxt).1
          (tcpTransmitSkb env s skb s.tcb.sndNxt).2.1).tcb.sndNxt q := by
        refine hnext.imp_right fun hok => ?_
        rw [sndNxt_tcpAdvanceNxt, hkeep]
        have hfin : (tcpTransmitSkb env s skb s.tcb.sndNxt).2.1.th.fin = skb.th.fin := hfrom.fin
        rw [hfin]
        exact hok.2
      obtain ⟨hrest, hq⟩ := ih hadv (fun y hy => hsrc y (List.mem_cons_of_mem _ hy)) hnext'
      refine ⟨hrest, ?_⟩
      rw [List.map_cons]
      unfold tcpSendNextLoop
      dsimp only
      rw [List.map_cons, hbuf, hq]

/-- **Pending buffers are sent.** -/
theorem Shifted.sendNext (n : ℕ) (h : Shifted σ s s')
    (hsrc : ∀ y ∈ s.writeQueue, SourceBuf σ y) (hnext : σ.snd = 0 ∨ NextOk n s.tcb.sndNxt s.writeQueue) :
    Shifted σ (tcpSendNext env s n) (tcpSendNext env s' n) := by
  have hq : s'.writeQueue = s.writeQueue.map (SkBuff.shiftOut σ) := by
    rw [h.eq]
    rfl
  obtain ⟨hloop, hrest⟩ := h.sendNextLoop env n hsrc hnext
  unfold tcpSendNext
  rw [hq]
  refine hloop.of ?_ ⟨rfl, rfl, rfl⟩
  dsimp only
  rw [hrest, hloop.eq]
  rfl

theorem shiftSack_replicate (c : UInt32) (n : ℕ) :
    shiftSack c (List.replicate n 0) = List.replicate n 0 := by
  unfold shiftSack
  refine if_neg fun h => ?_
  cases n with
  | zero => cases h
  | succ n => simp [List.replicate_succ] at h

theorem sendsSame_self {skb : SkBuff} (h : shiftSack σ.rcv skb.th.data = skb.th.data)
    (hsrc : SourceBuf σ skb) : SendsSame σ skb skb :=
  ⟨rfl, rfl, (shiftPayload_of hsrc _).symm, skb.th.seq, skb.th.ackSeq, by rw [h]⟩

theorem Shifted.alloc (h : Shifted σ s s') (tag : Option FecTag) (th : Tcphdr)
    (payload : List UInt8) :
    Shifted σ (tcpAllocSkb s tag th payload).1 (tcpAllocSkb s' tag th payload).1 ∧
      (tcpAllocSkb s' tag th payload).2 = (tcpAllocSkb s tag th payload).2 := by
  refine ⟨h.of ?_ ⟨rfl, rfl, rfl⟩, ?_⟩
  · rw [h.eq]
    rfl
  · rw [h.eq]
    rfl

/-- A buffer of its own goes out at `snd_nxt`. -/
theorem Shifted.transmitOwn (h : Shifted σ s s') {skb : SkBuff} (hsrc : SourceBuf σ skb)
    (hdata : shiftSack σ.rcv skb.th.data = skb.th.data) :
    Shifted σ (tcpTransmitSkb env s skb s.tcb.sndNxt).1
      (tcpTransmitSkb env s' skb s'.tcb.sndNxt).1 := by
  have hnxt : s'.tcb.sndNxt = s.tcb.sndNxt + σ.snd := by rw [h.eq]; rfl
  rw [hnxt]
  exact (h.transmit env (sendsSame_self hdata hsrc) _).1

/-- An acknowledgement, when no SACK block waits. -/
theorem Shifted.sendAck (h : Shifted σ s s') : Shifted σ (tcpSendAck env s) (tcpSendAck env s') := by
  have hstate : s'.state = s.state := by rw [h.eq]; rfl
  have hlen : tcpOptionsLen s' = tcpOptionsLen s := by rw [h.eq]; rfl
  unfold tcpSendAck
  rw [hlen, if_congr (show s'.state = .close ↔ s.state = .close by rw [hstate]) rfl rfl]
  split
  · exact h
  · dsimp only
    obtain ⟨halloc, hskb⟩ := h.alloc none { Tcphdr.zero with
      ack := true, hl := tcpDoffset + tcpOptionsLen s / 4
      data := List.replicate (tcpOptionsLen s) 0 } []
    rw [hskb]
    exact halloc.transmitOwn env (.inr rfl) (shiftSack_replicate _ _)

theorem Shifted.sendDelack (h : Shifted σ s s') :
    Shifted σ (tcpSendDelack env s) (tcpSendDelack env s') := by
  unfold tcpSendDelack
  refine Shifted.sendAck env ?_
  exact h.of (by rw [h.eq]; rfl) ⟨rfl, rfl, rfl⟩

theorem Shifted.sendReset (h : Shifted σ s s') :
    Shifted σ (tcpSendReset env s) (tcpSendReset env s') := by
  obtain ⟨halloc, hskb⟩ := h.alloc none { Tcphdr.zero with rst := true } []
  unfold tcpSendReset
  dsimp only
  rw [hskb]
  generalize (tcpAllocSkb s none { Tcphdr.zero with rst := true } []).1 = s₁ at halloc
  generalize (tcpAllocSkb s' none { Tcphdr.zero with rst := true } []).1 = s₁' at halloc
  refine Shifted.transmitOwn env ?_ (.inr rfl) rfl
  exact halloc.of (by rw [halloc.eq]; rfl) ⟨rfl, rfl, rfl⟩

/-- The head of the queue is transmitted again, at `snd_una`. -/
theorem Shifted.retransmit (h : Shifted σ s s') {skb : SkBuff} (hsrc : SourceBuf σ skb)
    (hne : σ.snd = 0 ∨ s.tcb.sndUna ≠ 0) (q : List SkBuff) :
    let t := tcpTransmitSkb env s skb s.tcb.sndUna
    let t' := tcpTransmitSkb env s' (skb.shiftOut σ) s'.tcb.sndUna
    Shifted σ { t.1 with writeQueue := t.2.1 :: q }
      { t'.1 with writeQueue := t'.2.1 :: q.map (SkBuff.shiftOut σ) } := by
  have huna : s'.tcb.sndUna = s.tcb.sndUna + σ.snd := by rw [h.eq]; rfl
  have hhl := hl_tcpTransmitSkb env s skb s.tcb.sndUna
  obtain ⟨hsock, hbuf⟩ := h.transmit env (sendsSame_shiftOut hsrc) s.tcb.sndUna
  rw [← huna] at hsock hbuf
  intro t t'
  refine hsock.of ?_ ⟨rfl, rfl, rfl⟩
  have hhead : t'.2.1 = t.2.1.shiftOut σ := by
    refine hbuf.trans (shiftOut_withHeader skb hhl ?_).symm
    rwa [seq_tcpTransmitSkb]
  rw [hhead, show t'.1 = _ from hsock.eq]
  rfl

theorem Shifted.connectRto (h : Shifted σ s s') (hsrc : ∀ y ∈ s.writeQueue, SourceBuf σ y)
    (hne : σ.snd = 0 ∨ s.tcb.sndUna ≠ 0) :
    Shifted σ (tcpConnectRto env s) (tcpConnectRto env s') := by
  have hrel : Shifted σ (tcpReleaseRtoTimer s) (tcpReleaseRtoTimer s') :=
    h.of (by rw [h.eq]; rfl) ⟨rfl, rfl, rfl⟩
  unfold tcpConnectRto
  dsimp only
  have hsrc₁ : ∀ y ∈ (tcpReleaseRtoTimer s).writeQueue, SourceBuf σ y := hsrc
  have hne₁ : σ.snd = 0 ∨ (tcpReleaseRtoTimer s).tcb.sndUna ≠ 0 := hne
  generalize tcpReleaseRtoTimer s = s₁ at hrel hsrc₁ hne₁
  generalize tcpReleaseRtoTimer s' = s₁' at hrel
  have hstate : s₁'.state = s₁.state := by rw [hrel.eq]; rfl
  have hback : s₁'.backoff = s₁.backoff := by rw [hrel.eq]; rfl
  have hq : s₁'.writeQueue = s₁.writeQueue.map (SkBuff.shiftOut σ) := by rw [hrel.eq]; rfl
  rw [hstate, hback, hq]
  split
  · split
    · refine Shifted.done ?_
      exact hrel.of (by rw [hrel.eq]; rfl) ⟨rfl, rfl, rfl⟩
    · cases hq₁ : s₁.writeQueue with
      | nil => exact hrel
      | cons skb q =>
        have hre := hrel.retransmit env (hsrc₁ skb (hq₁ ▸ List.mem_cons_self)) hne₁ q
        rw [List.map_cons]
        dsimp only
        refine Shifted.rearmRtoTimer ?_
        refine hre.of ?_ ⟨rfl, rfl, rfl⟩
        have hb : (tcpTransmitSkb env s₁' (skb.shiftOut σ) s₁'.tcb.sndUna).1.backoff =
            (tcpTransmitSkb env s₁ skb s₁.tcb.sndUna).1.backoff :=
          (congrArg TcpSock.backoff hre.eq :)
        rw [hb]
        exact congrArg (fun x : TcpSock => { x with backoff :=
          ((tcpTransmitSkb env s₁ skb s₁.tcb.sndUna).1.backoff + 1) % 256 }) hre.eq
  · exact hrel

/-- The end of `tcp_retransmission_timeout`. -/
def tcpBackOff (s : TcpSock) (fin : Bool) : TcpSock :=
  if 60000 < s.rto then { tcpDone s with err := eTimedout }
  else
    let s := { s with rto := s.rto * 2, backoff := (s.backoff + 1) % 256 }
    let s := tcpArmRtoTimer s s.rto .tcpRetransmissionTimeout
    if fin then tcpHandleFinState s else s

theorem Shifted.backOff (h : Shifted σ s s') (fin : Bool) :
    Shifted σ (tcpBackOff s fin) (tcpBackOff s' fin) := by
  have hrto : s'.rto = s.rto := by rw [h.eq]; rfl
  have hset : Shifted σ
      (tcpArmRtoTimer { s with rto := s.rto * 2, backoff := (s.backoff + 1) % 256 } (s.rto * 2)
        .tcpRetransmissionTimeout)
      (tcpArmRtoTimer { s' with rto := s'.rto * 2, backoff := (s'.backoff + 1) % 256 } (s'.rto * 2)
        .tcpRetransmissionTimeout) :=
    h.of (by rw [h.eq]; rfl) ⟨rfl, rfl, rfl⟩
  unfold tcpBackOff
  rw [hrto] at hset ⊢
  split
  · exact h.done.of (by rw [h.done.eq]; rfl) ⟨rfl, rfl, rfl⟩
  · dsimp only
    split
    · exact hset.handleFinState
    · exact hset

theorem Shifted.retransmissionTimeout (h : Shifted σ s s')
    (hsrc : ∀ y ∈ s.writeQueue, SourceBuf σ y) (hne : σ.snd = 0 ∨ s.tcb.sndUna ≠ 0) :
    Shifted σ (tcpRetransmissionTimeout env s) (tcpRetransmissionTimeout env s') := by
  have hrel : Shifted σ (tcpReleaseRtoTimer s) (tcpReleaseRtoTimer s') :=
    h.of (by rw [h.eq]; rfl) ⟨rfl, rfl, rfl⟩
  unfold tcpRetransmissionTimeout
  dsimp only
  have hsrc₁ : ∀ y ∈ (tcpReleaseRtoTimer s).writeQueue, SourceBuf σ y := hsrc
  have hne₁ : σ.snd = 0 ∨ (tcpReleaseRtoTimer s).tcb.sndUna ≠ 0 := hne
  generalize tcpReleaseRtoTimer s = s₁ at hrel hsrc₁ hne₁
  generalize tcpReleaseRtoTimer s' = s₁' at hrel
  have hq : s₁'.writeQueue = s₁.writeQueue.map (SkBuff.shiftOut σ) := by rw [hrel.eq]; rfl
  rw [hq]
  cases hq₁ : s₁.writeQueue with
  | nil => exact hrel.of (by rw [hrel.eq]; rfl) ⟨rfl, rfl, rfl⟩
  | cons skb q =>
    have hhead := hsrc₁ skb (hq₁ ▸ List.mem_cons_self)
    have hre := hrel.retransmit env hhead hne₁ q
    have hfin : (skb.shiftOut σ).th.fin = skb.th.fin := (sendsSame_shiftOut hhead).fin
    rw [List.map_cons]
    change Shifted σ (tcpBackOff { (tcpTransmitSkb env s₁ skb s₁.tcb.sndUna).1 with
        writeQueue := (tcpTransmitSkb env s₁ skb s₁.tcb.sndUna).2.1 :: q } skb.th.fin)
      (tcpBackOff { (tcpTransmitSkb env s₁' (skb.shiftOut σ) s₁'.tcb.sndUna).1 with
        writeQueue := (tcpTransmitSkb env s₁' (skb.shiftOut σ) s₁'.tcb.sndUna).2.1 ::
          q.map (SkBuff.shiftOut σ) } (skb.shiftOut σ).th.fin)
    rw [hfin]
    exact hre.backOff skb.th.fin

end Transmit

end LvlIp.Tcp
