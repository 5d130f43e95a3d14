import LvlIp.Receive.SackRest
import LvlIp.Receive.FecKept

/-!
# The SACK blocks stay in their array

`tcp_calculate_sacks` takes a block whose left edge is 0 for an empty one, and `tcp_write_options` sends
no blocks when the first one is. A buffer at sequence number 0 in the out-of-order queue therefore
leaves blocks that are neither sent nor cleared; later calls go on behind them, and at last behind the
array, over the fields that follow it. The window check keeps the text of a segment away from there,
as a segment out of order lies above `rcv_nxt`, but the symbols of a coded block are not checked. While
no coded segment announces a block with a symbol at sequence number 0 (`BlockOffZero`), every block
stays in the array and goes out with the acknowledgement it was built for (`sackSafe_run`).
-/

namespace LvlIp.Tcp

open Fec

/-! ## The block ring -/

/-- The sequence number at which the block of a coded segment starts, as the segment says. -/
def Segment.blockBase (seg : Segment) (symLen : ℕ) : UInt32 :=
  let opt := TcpOptFec.read seg.th.data
  if opt.type = FecSymType.source.toByte then
    seg.th.seq - UInt32.ofNat (opt.index.toNat * symLen)
  else (FecRepairHdr.read seg.payload).baseSeq

/-- No symbol of a block at `base` starts at sequence number 0. -/
def OffZero (fec : TcpFec) (base : UInt32) : Prop :=
  ∀ i < fec.k, base + UInt32.ofNat (i * fec.symLen) ≠ 0

/-- A coded segment that arrives announces no block with a symbol at sequence number 0. -/
def BlockOffZero (s : TcpSock) : TcpEvent → Prop
  | .arrive seg => ∀ fec, s.fec = some fec → hasFecOption seg.th →
      OffZero fec (seg.blockBase fec.symLen)
  | _ => True

section Ring

variable {fec : TcpFec}

/-- **What is spliced** are symbols of the block, at their places behind its base. -/
theorem tcpFecRxRecover_spec (fec : TcpFec) (blk : TcpFecBlockRx) :
    (tcpFecRxRecover fec blk).1.baseSeq = blk.baseSeq ∧
      ∀ sp ∈ (tcpFecRxRecover fec blk).2, sp.index < fec.k ∧
        sp.seq = blk.baseSeq + UInt32.ofNat (sp.index * fec.symLen) := by
  have hnone : ∀ sp ∈ ([] : List Splice), sp.index < fec.k ∧
      sp.seq = blk.baseSeq + UInt32.ofNat (sp.index * fec.symLen) := by simp
  unfold tcpFecRxRecover
  dsimp only
  split
  · exact ⟨rfl, hnone⟩
  · split
    · exact ⟨rfl, hnone⟩
    · next hk =>
      split
      · exact ⟨rfl, hnone⟩
      · split
        · exact ⟨rfl, hnone⟩
        · split
          · exact ⟨rfl, hnone⟩
          · split
            · exact ⟨rfl, hnone⟩
            · split
              · exact ⟨rfl, hnone⟩
              · refine ⟨rfl, fun sp hsp => ?_⟩
                obtain ⟨i, hi, hsp⟩ := List.mem_filterMap.mp hsp
                obtain ⟨p, -, rfl⟩ := Option.map_eq_some_iff.mp hsp
                exact ⟨(List.mem_range.mp hi).trans_le (not_lt.mp (not_or.mp hk).2), rfl⟩

/-- A slot that may hold symbols belongs to a block without a symbol at sequence number 0. -/
def SlotOffZero (fec : TcpFec) (blk : TcpFecBlockRx) : Prop :=
  OffZero fec blk.baseSeq ∨ ∀ i, blk.srcPresent.getD i false = false

theorem slotOffZero_empty : SlotOffZero fec .empty := by
  refine .inr fun i => ?_
  rcases Nat.lt_or_ge i fecBlkMaxK with hi | hi
  · exact (List.getD_eq_getElem _ _ (by simpa [TcpFecBlockRx.empty] using hi)).trans
      (List.getElem_replicate ..)
  · exact List.getD_eq_default _ _ (by simpa [TcpFecBlockRx.empty] using hi)

/-- No slot holds symbols of a block with one at sequence number 0. -/
def ringOffZero : RingProp where
  holds fec := ∀ blk ∈ fec.rx, SlotOffZero fec blk
  fresh blk hblk := by
    rw [List.eq_of_mem_replicate hblk]
    exact slotOffZero_empty
  same {fec fec'} h hfec blk hblk := by
    rw [h.rx] at hblk
    unfold SlotOffZero OffZero
    rw [h.k, h.symLen]
    exact hfec blk hblk

theorem slotOffZero_tcpFecRxSlot (h : ringOffZero.holds fec) (blockId : UInt32) :
    SlotOffZero fec (tcpFecRxSlot fec blockId).2 := by
  unfold tcpFecRxSlot
  split
  · next i _ =>
    dsimp only
    rw [List.getD_eq_getElem?_getD]
    cases hget : fec.rx[i]? with
    | none => exact slotOffZero_empty
    | some blk => exact h blk (List.mem_of_getElem? hget)
  · exact slotOffZero_empty

/-- After the registration of a source symbol the base is that of the segment, or was set before. -/
theorem SlotOffZero.addSource {blk : TcpFecBlockRx} (h : SlotOffZero fec blk) {idx : ℕ}
    {skb : SkBuff} (hbase : OffZero fec (skb.seq - UInt32.ofNat (idx * fec.symLen))) :
    OffZero fec (blk.addSource fec idx skb).baseSeq := by
  unfold TcpFecBlockRx.addSource
  split
  · next hpres =>
    rcases h with h | hnone
    · exact h
    · rw [hnone idx] at hpres
      exact absurd hpres Bool.false_ne_true
  · dsimp only
    split <;> exact hbase

theorem offZero_addRepair {blk : TcpFecBlockRx} {idx : ℕ} {skb : SkBuff}
    (hbase : OffZero fec (FecRepairHdr.read skb.payload).baseSeq) :
    OffZero fec (blk.addRepair fec idx skb).baseSeq := by
  unfold TcpFecBlockRx.addRepair
  dsimp only
  split <;> exact hbase

/-- **A coded segment** that announces no such block makes none, and nothing is spliced at sequence
number 0. -/
theorem ringOffZero_tcpFecRx (h : ringOffZero.holds fec) (seg : Segment)
    (hseg : hasFecOption seg.th → OffZero fec (seg.blockBase fec.symLen)) :
    ringOffZero.holds (tcpFecRx fec (tcpInitSegment seg)).1 ∧
      ∀ sp ∈ (tcpFecRx fec (tcpInitSegment seg)).2.1, sp.seq ≠ 0 := by
  have hput : ∀ (i : ℕ) (blk : TcpFecBlockRx), SlotOffZero fec blk →
      ringOffZero.holds { fec with rx := fec.rx.set i blk } := by
    intro i blk hblk y hy
    rcases List.mem_or_eq_of_mem_set hy with hy | rfl
    · exact h y hy
    · exact hblk
  have hrecover : ∀ (i : ℕ) (blk : TcpFecBlockRx), OffZero fec blk.baseSeq →
      ringOffZero.holds { fec with rx := fec.rx.set i (tcpFecRxRecover fec blk).1 } ∧
        ∀ sp ∈ (tcpFecRxRecover fec blk).2, sp.seq ≠ 0 := by
    intro i blk hbase
    obtain ⟨hsame, hsplices⟩ := tcpFecRxRecover_spec fec blk
    refine ⟨hput i _ (.inl (hsame ▸ hbase)), fun sp hsp => ?_⟩
    rw [(hsplices sp hsp).2]
    exact hbase _ (hsplices sp hsp).1
  have hslot := slotOffZero_tcpFecRxSlot h (TcpOptFec.read seg.th.data).blockId
  have hnone : ∀ sp ∈ ([] : List Splice), sp.seq ≠ 0 := by simp
  unfold tcpFecRx
  change ringOffZero.holds (if hasFecOption seg.th then _ else _ : TcpFec × _ × _).1 ∧
    ∀ sp ∈ (if hasFecOption seg.th then _ else _ : TcpFec × List Splice × Bool).2.1, sp.seq ≠ 0
  split
  · next hopt =>
    have hbase := hseg hopt
    unfold Segment.blockBase at hbase
    change ringOffZero.holds (if (TcpOptFec.read seg.th.data).type = _ then _ else _ :
        TcpFec × List Splice × Bool).1 ∧
      ∀ sp ∈ (if (TcpOptFec.read seg.th.data).type = _ then _ else _ :
        TcpFec × List Splice × Bool).2.1, sp.seq ≠ 0
    split
    · next hsource =>
      rw [if_pos hsource] at hbase
      split
      · exact ⟨hput _ _ hslot, hnone⟩
      · exact hrecover _ _ (hslot.addSource hbase)
    · next hsource =>
      rw [if_neg hsource] at hbase
      split
      · split
        · exact ⟨hput _ _ hslot, hnone⟩
        · exact hrecover _ _ (offZero_addRepair hbase)
      · exact ⟨hput _ _ hslot, hnone⟩
  · exact ⟨h, hnone⟩

end Ring

/-! ## The socket -/

/-- **Every SACK block is in the array**, and none waits; nothing that is queued starts at sequence
number 0. -/
structure SackSafe (s : TcpSock) : Prop where
  inv : SackInv s
  ofo : ∀ y ∈ s.ofoQueue, y.seq ≠ 0
  ring : FecAll ringOffZero s

section Safe

variable {env : Env} {s s' : TcpSock}

/-- The acknowledgement of a segment out of order takes the blocks with it. -/
theorem SackInv.queueOfo (h : SackInv s) (hst : s.state ≠ .close) (hok : s.sackok ≠ 0)
    (hne : s.ofoQueue ≠ []) (hofo : ∀ y ∈ s.ofoQueue, y.seq ≠ 0) :
    (tcpSendAck env (tcpCalculateSacks s)).sack = s.sack := by
  have hrest : AtRest s := ⟨h.sacklen, h.sacks, h.allowed⟩
  obtain ⟨hpos, sb, huse⟩ := sacksInUse_tcpCalculateSacks hrest hofo hne
  rw [@tcpSendAck_inUse (tcpCalculateSacks s) env sb hst hok hpos huse]
  have hclear : s.sack = { s.sack with sacklen := 0, sacks := List.replicate 4 ⟨0, 0⟩ } := by
    unfold TcpSock.sack
    rw [h.sacklen, h.sacks]
  rw [hclear, tcpCalculateSacks_rest hrest]
  rfl

/-- **A call of `tcp_data_queue`** leaves no block behind. -/
theorem SackInv.queue (h : SackInv s) (hst : s.state ≠ .close) (hofo : ∀ y ∈ s.ofoQueue, y.seq ≠ 0)
    {skb : SkBuff} (hskb : skb.seq ≠ s.tcb.rcvNxt → skb.seq ≠ 0) :
    SackInv (tcpDataQueue env s skb) ∧ ∀ y ∈ (tcpDataQueue env s skb).ofoQueue, y.seq ≠ 0 := by
  have hinsert : skb.seq ≠ s.tcb.rcvNxt → ∀ y ∈ tcpDataInsertOrdered s.ofoQueue skb, y.seq ≠ 0 := by
    intro hne y hy
    rcases mem_tcpDataInsertOrdered hy with rfl | hy
    · exact hskb hne
    · exact hofo y hy
  refine ⟨?_, fun y hy => ?_⟩
  · by_cases hplain : skb.seq = s.tcb.rcvNxt ∨ s.sackok = 0
    · exact h.dataQueue_plain hplain
    · obtain ⟨hne, hok⟩ := not_or.mp hplain
      unfold tcpDataQueue
      rw [if_neg hne]
      split
      · exact h
      · dsimp only
        rw [if_pos hok]
        have hqueued : SackInv { s with ofoQueue := tcpDataInsertOrdered s.ofoQueue skb } :=
          h.of_sack rfl id
        refine hqueued.of_sack (hqueued.queueOfo hst hok (ne_nil_tcpDataInsertOrdered _ _)
          (hinsert hne)) fun hmay => ?_
        rwa [state_tcpSendAck] at hmay
  · have hy : y ∈ (tcpDataQueue env s skb).rcv.ofoQueue := hy
    rw [rcv_tcpDataQueue] at hy
    unfold RcvView.dataQueue at hy
    split at hy
    · exact hofo y hy
    · split at hy
      · exact hofo y (mem_tcpConsumeLoop hy)
      · next hne => exact hinsert hne y hy

/-- **The symbols of a block** are queued one after the other. -/
theorem SackInv.splices (sps : List Splice) (h : SackInv s) (hst : s.state ≠ .close)
    (hofo : ∀ y ∈ s.ofoQueue, y.seq ≠ 0) (hsps : ∀ sp ∈ sps, sp.seq ≠ 0) :
    SackInv (sps.foldl (tcpFecSplice env) s) ∧
      ∀ y ∈ (sps.foldl (tcpFecSplice env) s).ofoQueue, y.seq ≠ 0 := by
  induction sps generalizing s with
  | nil => exact ⟨h, hofo⟩
  | cons sp sps ih =>
    obtain ⟨hsp, hsps⟩ := List.forall_mem_cons.mp hsps
    obtain ⟨h', hofo'⟩ := @SackInv.queue env s h hst hofo sp.skb fun _ => hsp
    have hst' : (tcpFecSplice env s sp).state = s.state :=
      (congrArg RcvView.state (rcv_tcpDataQueue env s sp.skb)).trans (state_dataQueue s.rcv sp.skb)
    exact ih h' (by rwa [hst']) hofo' hsps

theorem SackSafe.kept (h : SackSafe s) (hk : SackKept s s') (hring : FecAll ringOffZero s') :
    SackSafe s' :=
  ⟨h.inv.kept hk, fun y hy => h.ofo y (hk.ofo y hy), hring⟩

/-- The checks, the text and what follows it. -/
theorem SackInv.segmentArrives (h : SackInv s) (hofo : ∀ y ∈ s.ofoQueue, y.seq ≠ 0)
    (seg : Segment) :
    SackInv (tcpSegmentArrives env s (tcpInitSegment seg)) ∧
      ∀ y ∈ (tcpSegmentArrives env s (tcpInitSegment seg)).ofoQueue, y.seq ≠ 0 := by
  have hkept : ∀ {s₁ s₂ : TcpSock}, SackInv s₁ ∧ (∀ y ∈ s₁.ofoQueue, y.seq ≠ 0) →
      SackKept s₁ s₂ → SackInv s₂ ∧ ∀ y ∈ s₂.ofoQueue, y.seq ≠ 0 :=
    fun h₁ hk => ⟨h₁.1.kept hk, fun y hy => h₁.2 y (hk.ofo y hy)⟩
  obtain ⟨herror, hok⟩ := @sackKept_tcpChecks env s (tcpInitSegment seg)
  rw [← tcpSegmentArrivesOr_true]
  unfold tcpSegmentArrivesOr
  cases hs' : tcpChecks env true s (tcpInitSegment seg) with
  | error s' => exact hkept ⟨h, hofo⟩ (herror s' hs')
  | ok s' =>
    obtain ⟨hverify, hsame⟩ := tcpChecks_ok hs'
    have hnxt : s'.tcb.rcvNxt = s.tcb.rcvNxt := hsame.rcvNxt
    obtain ⟨hge, -⟩ := le_of_tcpVerifySegment hverify
    have h' := hkept ⟨h, hofo⟩ (hok s' hs')
    have htext : SackInv (tcpText env s' (tcpInitSegment seg)) ∧
        ∀ y ∈ (tcpText env s' (tcpInitSegment seg)).ofoQueue, y.seq ≠ 0 := by
      unfold tcpText
      split
      · next hrec =>
        refine h'.1.queue (fun hclose => ?_) h'.2 fun hne => ?_
        · rw [hclose] at hrec
          cases hrec.1
        · -- out of order and not behind `rcv_nxt`
          rw [hnxt] at hne
          intro h0
          have hle : s.tcb.rcvNxt ≤ (tcpInitSegment seg).seq := hge
          rw [h0] at hle hne
          exact hne (UInt32.le_antisymm UInt32.zero_le hle)
      · exact h'
    unfold tcpDeliver
    exact hkept htext ((sackKept_tcpFin _ _ _).trans (sackKept_tcpPending _ _ _))

/-- Before the connection is there nothing is queued. -/
theorem mem_ofoQueue_early (hsync : s.state.synchronized = false) (seg : Segment) :
    ∀ y ∈ (tcpIn env s seg).ofoQueue, y ∈ s.ofoQueue := by
  unfold tcpIn tcpInputState
  split
  · unfold tcpClosed
    split
    · exact fun _ => id
    · rw [ofoQueue_eq_of_rcv (rcv_tcpSendReset env s)]
      exact fun _ => id
  · exact fun _ => id
  · next hst =>
    unfold tcpSynsent
    split
    · exact fun _ => id
    · split
      · exact fun _ => id
      · split
        · unfold tcpReset
          rw [hst]
          exact fun y hy => absurd hy List.not_mem_nil
        · split
          · exact fun _ => id
          · obtain ⟨state, fec, -, hrcv⟩ := rcv_tcpSynsentSyn env s (tcpInitSegment seg).th
            have hofo : (tcpSynsentSyn env s (tcpInitSegment seg).th).ofoQueue = s.ofoQueue :=
              congrArg RcvView.ofoQueue hrcv
            rw [hofo]
            exact fun _ => id
  · cases hst : s.state <;> rw [hst] at hsync <;> contradiction

/-- **An arriving segment.** -/
theorem SackSafe.arrive (h : SackSafe s) (seg : Segment) (hseg : BlockOffZero s (.arrive seg)) :
    SackSafe (tcpIn env s seg) := by
  have hrx : ∀ fec, s.fec = some fec → ringOffZero.holds (tcpFecRx fec (tcpInitSegment seg)).1 ∧
      ∀ sp ∈ (tcpFecRx fec (tcpInitSegment seg)).2.1, sp.seq ≠ 0 := fun fec hfec =>
    ringOffZero_tcpFecRx (h.ring fec hfec) seg (hseg fec hfec)
  have hring : FecAll ringOffZero (tcpIn env s seg) :=
    h.ring.arrive seg fun fec hfec => (hrx fec hfec).1
  cases hsync : s.state.synchronized with
  | false =>
    exact ⟨h.inv.early hsync seg, fun y hy => h.ofo y (mem_ofoQueue_early hsync seg y hy), hring⟩
  | true =>
    have hclose : s.state ≠ .close := by
      intro hst
      rw [hst] at hsync
      cases hsync
    suffices hgoal : SackInv (tcpIn env s seg) ∧ ∀ y ∈ (tcpIn env s seg).ofoQueue, y.seq ≠ 0 from
      ⟨hgoal.1, hgoal.2, hring⟩
    unfold tcpIn tcpInputState
    split
    · next hst => exact absurd hst hclose
    · next hst => rw [hst] at hsync; cases hsync
    · next hst => rw [hst] at hsync; cases hsync
    · split
      · exact h.inv.segmentArrives h.ofo seg
      · next fec hfec =>
        have hinput : SackInv (tcpFecInput env s fec (tcpInitSegment seg)).1 ∧
            ∀ y ∈ (tcpFecInput env s fec (tcpInitSegment seg)).1.ofoQueue, y.seq ≠ 0 := by
          have hset : SackInv { s with fec := some (tcpFecRx fec (tcpInitSegment seg)).1 } :=
            h.inv.of_sack rfl id
          have hfold := @SackInv.splices env _ (tcpFecRx fec (tcpInitSegment seg)).2.1 hset hclose
            h.ofo (hrx fec hfec).2
          unfold tcpFecInput
          dsimp only
          split
          · exact hfold
          · have hack := @sackKept_tcpSendAck env ((tcpFecRx fec (tcpInitSegment seg)).2.1.foldl
              (tcpFecSplice env) { s with fec := some (tcpFecRx fec (tcpInitSegment seg)).1 })
            exact ⟨hfold.1.kept hack, fun y hy => hfold.2 y (hack.ofo y hy)⟩
        dsimp only
        split
        · exact hinput
        · exact hinput.1.segmentArrives hinput.2 seg

/-- **One event.** -/
theorem SackSafe.step (h : SackSafe s) {e : TcpEvent} (he : BlockOffZero s e) :
    SackSafe (tcpStep env s e) := by
  by_cases harrive : ∃ seg, e = .arrive seg
  · obtain ⟨seg, rfl⟩ := harrive
    exact h.arrive seg he
  · have hne : ∀ seg, e ≠ .arrive seg := fun seg heq => harrive ⟨seg, heq⟩
    exact h.kept (sackKept_tcpStep hne) (h.ring.step e fun seg heq => absurd heq (hne seg))

/-- **A run** in which no coded segment announces a block with a symbol at sequence number 0. -/
theorem sackSafe_run {events : List TcpEvent} (h : SackSafe s)
    (hrun : RunSat env BlockOffZero s events) : SackSafe (events.foldl (tcpStep env) s) := by
  induction events generalizing s with
  | nil => exact h
  | cons e es ih => exact ih (h.step hrun.1) hrun.2

theorem sackSafe_tcpAllocSock : SackSafe tcpAllocSock :=
  ⟨sackInv_tcpAllocSock, fun _ hy => absurd hy List.not_mem_nil, fun _ hfec => nomatch hfec⟩

end Safe

/-! ## A symbol at sequence number 0 -/

/-- `tcp_options_len` on the blocks. -/
def SackView.optionsLen (v : SackView) : ℕ :=
  if v.sackok ≠ 0 ∧ 0 < v.sacklen then
    let n := ((List.range v.sacklen).filter fun i => (v.sacks.getD i ⟨0, 0⟩).left ≠ 0).length
    (n * 8 + 2 + 3) / 4 * 4
  else 0

/-- `tcp_write_options` on the blocks, for an acknowledgement with room for `room` bytes. -/
def SackView.written (v : SackView) (room : ℕ) : SackView :=
  if v.sackok = 0 ∨ (v.sacks.getD 0 ⟨0, 0⟩).left = 0 then v
  else
    let bytes := [1, 1, 5, UInt8.ofNat (2 + v.sacklen * 8)] ++
      (List.range v.sacklen).reverse.flatMap fun i =>
        be32 (v.sacks.getD i ⟨0, 0⟩).left ++ be32 (v.sacks.getD i ⟨0, 0⟩).right
    { v with
      sacks := v.sacks.mapIdx fun i sb => if i < v.sacklen then ⟨0, 0⟩ else sb
      past := List.replicate (v.sacklen - 4) (some ⟨0, 0⟩) ++ v.past.drop (v.sacklen - 4)
      sacklen := 0
      spilled := v.spilled ++ bytes.drop room }

/-- `tcp_send_ack` on the blocks. -/
def SackView.ack (v : SackView) : SackView :=
  if 0 < v.optionsLen / 4 then v.written v.optionsLen else v

/-- `tcp_calculate_sacks` on the blocks. -/
def SackView.calculate (v : SackView) (q : List SkBuff) : SackView :=
  if v.sacklen < 4 then
    let r := tcpSackLoop v.allowed q v.sacklen v.sacklen (v.sacks.set v.sacklen ⟨0, 0⟩)
    { v with sacklen := r.1, sacks := r.2 }
  else
    let r := tcpSackLoop v.allowed q 0 v.sacklen [⟨0, 0⟩]
    { v with sacklen := r.1, past := storePast v.past (v.sacklen - 4) (r.2.getD 0 ⟨0, 0⟩) }

section Zero

variable {env : Env} {s : TcpSock}

theorem sack_tcpCalculateSacks (s : TcpSock) :
    (tcpCalculateSacks s).sack = s.sack.calculate s.ofoQueue := by
  unfold tcpCalculateSacks tcpSackBlocks SackView.calculate
  change _ = if s.sacklen < 4 then _ else _
  split <;> rfl

theorem sack_tcpSendAck (hst : s.state ≠ .close) : (tcpSendAck env s).sack = s.sack.ack := by
  unfold tcpSendAck SackView.ack
  rw [if_neg hst]
  change _ = if 0 < tcpOptionsLen s / 4 then s.sack.written (tcpOptionsLen s) else s.sack
  generalize tcpOptionsLen s = n
  have hhl : tcpDoffset + n / 4 ≠ 0 := by unfold tcpDoffset; omega
  have hroom : 5 < tcpDoffset + n / 4 ↔ 0 < n / 4 := by unfold tcpDoffset; omega
  unfold tcpTransmitSkb tcpFillOptions tcpFillHeader
  dsimp only [tcpAllocSkb]
  rw [if_neg hhl, if_congr hroom rfl rfl]
  split
  · next hpos =>
    have hcoded : (List.replicate n (0 : UInt8)).getD 0 0 ≠ tcpOptFec := by
      obtain ⟨m, rfl⟩ : ∃ m, n = m + 1 := ⟨n - 1, by omega⟩
      rw [List.replicate_succ, List.getD_cons_zero]
      decide
    unfold tcpWriteOptions SackView.written
    dsimp only
    rw [if_neg hcoded, List.length_replicate]
    change _ = if s.sackok = 0 ∨ (s.sacks.getD 0 ⟨0, 0⟩).left = 0 then _ else _
    split <;> rfl
  · rfl

/-- A segment that is queued out of order. -/
theorem sack_tcpDataQueue {skb : SkBuff} (hst : s.state ≠ .close) (hok : s.sackok ≠ 0)
    (hwnd : s.tcb.rcvWnd ≠ 0) (hne : skb.seq ≠ s.tcb.rcvNxt) :
    (tcpDataQueue env s skb).sack =
      (s.sack.calculate (tcpDataInsertOrdered s.ofoQueue skb)).ack := by
  unfold tcpDataQueue
  rw [if_neg hwnd, if_neg hne]
  dsimp only
  rw [if_pos hok]
  have hcalc := sack_tcpCalculateSacks { s with ofoQueue := tcpDataInsertOrdered s.ofoQueue skb }
  generalize hs₁ : tcpCalculateSacks { s with ofoQueue := tcpDataInsertOrdered s.ofoQueue skb } = s₁
    at hcalc
  have hst₁ : s₁.state ≠ .close := by
    rw [← hs₁]
    exact hst
  exact (sack_tcpSendAck hst₁).trans (congrArg SackView.ack hcalc)

/-- A segment with text and without a FIN that arrives out of order on an established connection, and
acknowledges nothing new, is queued and acknowledged. -/
theorem tcpSegmentArrives_ofo {skb : SkBuff} (hst : s.state = .established)
    (hverify : tcpVerifySegment s skb) (hne : skb.seq ≠ s.tcb.rcvNxt) (htext : 0 < skb.dlen)
    (hth : skb.th.rst = false ∧ skb.th.syn = false ∧ skb.th.ack ∧ skb.th.fin = false)
    (hack : skb.th.ackSeq = s.tcb.sndUna) (hnxt : s.tcb.sndUna ≤ s.tcb.sndNxt) :
    tcpSegmentArrives env s skb = tcpDataQueue env s skb := by
  obtain ⟨hrst, hsyn, hackth, hfin⟩ := hth
  have hacked : tcpAck s skb.th.ackSeq = (s, true) := by
    unfold tcpAck
    rw [hack, if_neg fun h => UInt32.lt_irrefl _ h.1]
    dsimp only
    rw [decide_eq_true]
    rintro (h | h)
    · exact UInt32.lt_irrefl _ h
    · exact UInt32.lt_irrefl _ (UInt32.lt_of_lt_of_le h hnxt)
  have hexp : (skb.seq == s.tcb.rcvNxt) = false := beq_false_of_ne hne
  unfold tcpSegmentArrives
  rw [if_neg (not_not.mpr hverify), hrst, hsyn, hackth, tcpAckField_established hst, hacked]
  simp only [Bool.false_eq_true, if_false, not_true_eq_false]
  rw [tcpFinAcked_of_state env (.inl hst)]
  simp only [not_true_eq_false, if_false]
  have hqueue : tcpText env s skb = tcpDataQueue env s skb :=
    if_pos ⟨congrArg TcpState.receives hst, .inr htext⟩
  have hskip : ∀ s₁ : TcpSock, tcpPending env (tcpFin env s₁ skb.th false) skb false = s₁ := by
    intro s₁
    unfold tcpPending tcpFin
    simp
  unfold tcpDeliver
  dsimp only
  rw [hexp, hqueue, hskip]

/-- A segment that the FEC section takes. -/
theorem tcpIn_taken {fec : TcpFec} {seg : Segment} {s' : TcpSock} (hst : s.state = .established)
    (hfec : s.fec = some fec) (h : tcpFecInput env s fec (tcpInitSegment seg) = (s', true)) :
    tcpIn env s seg = s' := by
  unfold tcpIn tcpInputState
  rw [hst, hfec]
  dsimp only
  rw [h]
  rfl

/-- Such a segment on a connection with FEC, without the FEC option. -/
theorem tcpIn_ofo {fec : TcpFec} {seg : Segment} (hfec : s.fec = some fec)
    (hopt : hasFecOption seg.th = false) (hst : s.state = .established)
    (hverify : tcpVerifySegment s (tcpInitSegment seg)) (hne : seg.th.seq ≠ s.tcb.rcvNxt)
    (htext : seg.payload ≠ []) (hrst : seg.th.rst = false) (hsyn : seg.th.syn = false)
    (hack : seg.th.ack) (hfin : seg.th.fin = false) (hackSeq : seg.th.ackSeq = s.tcb.sndUna)
    (hnxt : s.tcb.sndUna ≤ s.tcb.sndNxt) :
    tcpIn env s seg = tcpDataQueue env s (tcpInitSegment seg) := by
  have hrx : tcpFecRx fec (tcpInitSegment seg) = (fec, [], false) :=
    if_neg (by rw [show hasFecOption (tcpInitSegment seg).th = false from hopt]; decide)
  have hinput : tcpFecInput env s fec (tcpInitSegment seg) = (s, false) := by
    unfold tcpFecInput
    rw [hrx]
    change ({ s with fec := some fec }, false) = _
    rw [← hfec]
  unfold tcpIn tcpInputState
  rw [hst, hfec]
  dsimp only
  rw [hinput]
  exact tcpSegmentArrives_ofo hst hverify hne (List.length_pos_of_ne_nil htext)
    ⟨hrst, hsyn, hack, hfin⟩ hackSeq hnxt

end Zero

/-- A SYN-ACK that agrees to SACK and FEC. -/
def synackSackFec : Segment :=
  ⟨{ Tcphdr.zero with
      seq := 200, ackSeq := 101, hl := 9, syn := true, ack := true
      data := [2, 4, 5, 180, 30, 8, 1, 8, 2, 0, 2, 0, 1, 1, 4, 2] }, []⟩

/-- The handshake of a connection with SACK and FEC. -/
def sackFecHandshake : List TcpEvent := [.connect 100, .arrive synackSackFec]

/-- A byte behind a gap. -/
def aheadSeg : Segment := ⟨{ Tcphdr.zero with seq := 203, ackSeq := 101, ack := true, hl := 5 }, [7]⟩

/-- The first symbol of a block at 201, and of the stream. -/
def firstSymbol : Segment where
  th := { Tcphdr.zero with
    seq := 201, ackSeq := 101, ack := true, hl := 7, data := tcpWriteFecOption .source 0 0 }
  payload := [5]

/-- The block of that symbol is off sequence number 0. -/
theorem offZero_firstSymbol : OffZero tcpFecFresh (firstSymbol.blockBase tcpFecFresh.symLen) := by
  change OffZero tcpFecFresh 201
  unfold OffZero
  decide

/-- The connection is open, nothing has been sent on it or read from it, and `q` waits. -/
structure Awaits (fec : TcpFec) (q : List SkBuff) (v : SackView) (s : TcpSock) : Prop where
  rcv : s.rcv = ⟨.established, some fec, 201, 44477, [], q⟩
  sndUna : s.tcb.sndUna = 101
  sndNxt : s.tcb.sndNxt = 101
  sack : s.sack = v
  sackok : v.sackok ≠ 0

/-- No block is in use. -/
def SackView.open : SackView := ⟨1, 4, 0, List.replicate 4 ⟨0, 0⟩, [], 0, []⟩

theorem awaits_sackFecHandshake :
    Awaits tcpFecFresh [] .open (sackFecHandshake.foldl (tcpStep quietLink) tcpAllocSock) :=
  ⟨rfl, rfl, rfl, rfl, by decide⟩

section Awaits

variable {fec : TcpFec} {q : List SkBuff} {v : SackView} {s : TcpSock}

theorem SackView.sackok_calculate (v : SackView) (q : List SkBuff) :
    (v.calculate q).sackok = v.sackok := by
  unfold SackView.calculate
  split <;> rfl

theorem SackView.sackok_ack (v : SackView) : v.ack.sackok = v.sackok := by
  unfold SackView.ack SackView.written
  split
  · split <;> rfl
  · rfl

/-- A buffer joins those that wait. -/
theorem Awaits.queue (h : Awaits fec q v s) {skb : SkBuff} (hne : skb.seq ≠ 201) :
    Awaits fec (tcpDataInsertOrdered q skb) (v.calculate (tcpDataInsertOrdered q skb)).ack
      (tcpDataQueue quietLink s skb) := by
  have hst : s.state = .established := congrArg RcvView.state h.rcv
  have hnxt : s.tcb.rcvNxt = 201 := congrArg RcvView.rcvNxt h.rcv
  have hwnd : s.tcb.rcvWnd = 44477 := congrArg RcvView.rcvWnd h.rcv
  have hofo : s.ofoQueue = q := congrArg RcvView.ofoQueue h.rcv
  have hok : s.sackok = v.sackok := congrArg SackView.sackok h.sack
  have hsack := @sack_tcpDataQueue quietLink s skb (by rw [hst]; decide) (hok ▸ h.sackok)
    (by rw [hwnd]; decide) (by rwa [hnxt])
  have hsnd := snd_tcpDataQueue quietLink s skb
  refine ⟨?_, (congrArg SndView.sndUna hsnd).trans h.sndUna,
    (congrArg SndView.sndNxt hsnd).trans h.sndNxt, ?_, ?_⟩
  · rw [rcv_tcpDataQueue, h.rcv]
    unfold RcvView.dataQueue
    rw [if_neg (by decide : ¬ (44477 : UInt32) = 0), if_neg hne]
  · rw [hsack, h.sack, hofo]
  · rw [SackView.sackok_ack, SackView.sackok_calculate]
    exact h.sackok

/-- A byte behind a gap arrives. -/
theorem Awaits.ahead (h : Awaits fec q v s) :
    Awaits fec (tcpDataInsertOrdered q (tcpInitSegment aheadSeg))
      (v.calculate (tcpDataInsertOrdered q (tcpInitSegment aheadSeg))).ack
      (tcpIn quietLink s aheadSeg) := by
  have hst : s.state = .established := congrArg RcvView.state h.rcv
  have hnxt : s.tcb.rcvNxt = 201 := congrArg RcvView.rcvNxt h.rcv
  have hwnd : s.tcb.rcvWnd = 44477 := congrArg RcvView.rcvWnd h.rcv
  have hverify : tcpVerifySegment s (tcpInitSegment aheadSeg) := by
    unfold tcpVerifySegment
    rw [hnxt, hwnd]
    decide
  rw [tcpIn_ofo (congrArg RcvView.fec h.rcv) (by decide) hst hverify (by rw [hnxt]; decide)
    (by decide) rfl rfl rfl rfl h.sndUna.symm (by rw [h.sndUna, h.sndNxt]; decide)]
  exact h.queue (by decide)

/-- A repair segment whose block is one symbol at sequence number 0 arrives: the symbol is queued. -/
theorem Awaits.zero (h : Awaits tcpFecFresh q v s) : ∃ fec b,
    Awaits fec (tcpDataInsertOrdered q (Splice.skb ⟨0, 0, [b]⟩))
      (v.calculate (tcpDataInsertOrdered q (Splice.skb ⟨0, 0, [b]⟩))).ack.ack
      (tcpIn quietLink s (byteRepair 0)) := by
  obtain ⟨fec, b, hrx⟩ := tcpFecRx_byteRepair 0
  have hst : s.state = .established := congrArg RcvView.state h.rcv
  have hfec : s.fec = some tcpFecFresh := congrArg RcvView.fec h.rcv
  have hset : Awaits fec q v { s with fec := some fec } := by
    refine ⟨?_, h.sndUna, h.sndNxt, h.sack, h.sackok⟩
    change { s.rcv with fec := some fec } = _
    rw [h.rcv]
  have hqueued := @Awaits.queue _ _ _ _ hset (Splice.skb ⟨0, 0, [b]⟩) (by change (0 : UInt32) ≠ 201; decide)
  have hinput : tcpFecInput quietLink s tcpFecFresh (tcpInitSegment (byteRepair 0)) =
      (tcpSendAck quietLink
        (tcpDataQueue quietLink { s with fec := some fec } (Splice.skb ⟨0, 0, [b]⟩)), true) := by
    unfold tcpFecInput
    rw [hrx]
    rfl
  refine ⟨fec, b, ?_⟩
  rw [tcpIn_taken hst hfec hinput]
  generalize tcpDataQueue quietLink { s with fec := some fec } (Splice.skb ⟨0, 0, [b]⟩) = s₁ at hqueued
  have hst₁ : s₁.state = .established := congrArg RcvView.state hqueued.rcv
  have hsnd := snd_tcpSendAck quietLink s₁
  refine ⟨(rcv_tcpSendAck quietLink s₁).trans hqueued.rcv,
    (congrArg SndView.sndUna hsnd).trans hqueued.sndUna,
    (congrArg SndView.sndNxt hsnd).trans hqueued.sndNxt, ?_, ?_⟩
  · rw [sack_tcpSendAck (by rw [hst₁]; decide), hqueued.sack]
  · rw [SackView.sackok_ack]
    exact hqueued.sackok

end Awaits

/-- A symbol at sequence number 0, and twice the byte behind a gap. -/
def zeroEvents : List TcpEvent :=
  sackFecHandshake ++ [.arrive (byteRepair 0), .arrive aheadSeg, .arrive aheadSeg]

/-- The block of a symbol at sequence number 0: it counts, and it looks empty. -/
def SackView.zeroFirst : SackView :=
  { SackView.open with sacklen := 1, sacks := [⟨0, 1⟩, ⟨0, 0⟩, ⟨0, 0⟩, ⟨0, 0⟩] }

/-- The blocks when the byte behind a gap has arrived as well. -/
def SackView.zeroFull : SackView :=
  { SackView.open with sacklen := 4, sacks := [⟨0, 1⟩, ⟨203, 1⟩, ⟨0, 0⟩, ⟨203, 204⟩] }

/-- The blocks when it has arrived again: the next one lies over `tsopt` and `fecok`. -/
def SackView.zeroPast : SackView :=
  { SackView.zeroFull with sacklen := 6, past := [some ⟨203, 1⟩] }

/-- **The byte `fecok` is overwritten**, of an open connection with FEC: the blocks of the symbol at 0
are never sent, and the third segment finds the array full. -/
theorem fecokByte_zeroEvents :
    (zeroEvents.foldl (tcpStep quietLink) tcpAllocSock).state = .established ∧
      (zeroEvents.foldl (tcpStep quietLink) tcpAllocSock).fec.isSome ∧
      (zeroEvents.foldl (tcpStep quietLink) tcpAllocSock).fecokByte = 0 := by
  obtain ⟨fec, b, h⟩ := awaits_sackFecHandshake.zero
  have hlast := h.ahead.ahead
  generalize hq : tcpDataInsertOrdered [] (Splice.skb ⟨0, 0, [b]⟩) = q at hlast
  generalize hq' : tcpDataInsertOrdered q (tcpInitSegment aheadSeg) = q' at hlast
  have hdup : tcpDataInsertOrdered q' (tcpInitSegment aheadSeg) = q' := by
    rw [← hq', ← hq]
    rfl
  have hfirst : SackView.open.calculate q = .zeroFirst := by
    rw [← hq]
    rfl
  have hfull : SackView.zeroFirst.calculate q' = .zeroFull := by
    rw [← hq', ← hq]
    rfl
  have hpast : SackView.zeroFull.calculate q' = .zeroPast := by
    rw [← hq', ← hq]
    rfl
  -- none of the acknowledgements clears the blocks, as the first one looks empty
  rw [hdup, hfirst, show SackView.zeroFirst.ack = .zeroFirst by decide,
    show SackView.zeroFirst.ack = .zeroFirst by decide, hfull,
    show SackView.zeroFull.ack = .zeroFull by decide, hpast,
    show SackView.zeroPast.ack = .zeroPast by decide] at hlast
  unfold zeroEvents
  rw [List.foldl_append]
  generalize sackFecHandshake.foldl (tcpStep quietLink) tcpAllocSock = s at hlast
  change (tcpIn quietLink (tcpIn quietLink (tcpIn quietLink s (byteRepair 0)) aheadSeg)
    aheadSeg).state = _ ∧ (tcpIn quietLink (tcpIn quietLink (tcpIn quietLink s (byteRepair 0))
      aheadSeg) aheadSeg).fec.isSome ∧ (tcpIn quietLink (tcpIn quietLink
        (tcpIn quietLink s (byteRepair 0)) aheadSeg) aheadSeg).fecokByte = 0
  generalize tcpIn quietLink (tcpIn quietLink (tcpIn quietLink s (byteRepair 0)) aheadSeg)
    aheadSeg = s' at hlast
  refine ⟨congrArg RcvView.state hlast.rcv, ?_, ?_⟩
  · exact Option.isSome_iff_exists.mpr ⟨fec, congrArg RcvView.fec hlast.rcv⟩
  · have hoverwritten : s'.sacksPast = [some ⟨203, 1⟩] := congrArg SackView.past hlast.sack
    unfold TcpSock.fecokByte
    rw [hoverwritten]
    rfl

/-- The byte behind a gap, and a symbol at sequence number 0. -/
def spillEvents : List TcpEvent := sackFecHandshake ++ [.arrive aheadSeg, .arrive (byteRepair 0)]

/-- The blocks of the two, with an empty one in between. -/
def SackView.zeroGap : SackView :=
  { SackView.open with sacklen := 3, sacks := [⟨203, 1⟩, ⟨0, 0⟩, ⟨203, 204⟩, ⟨0, 0⟩] }

/-- **Eight option bytes do not fit** the acknowledgement of the symbol at 0: there is room for the two
blocks with a left edge, and three are written. -/
theorem spilled_spillEvents :
    (spillEvents.foldl (tcpStep quietLink) tcpAllocSock).spilled = be32 203 ++ be32 1 := by
  have hahead := awaits_sackFecHandshake.ahead
  have hopen : (SackView.open.calculate (tcpDataInsertOrdered [] (tcpInitSegment aheadSeg))).ack =
      .open := by decide
  rw [hopen] at hahead
  obtain ⟨fec, b, hlast⟩ := hahead.zero
  have hgap : SackView.open.calculate (tcpDataInsertOrdered (tcpDataInsertOrdered []
      (tcpInitSegment aheadSeg)) (Splice.skb ⟨0, 0, [b]⟩)) = .zeroGap := rfl
  rw [hgap] at hlast
  unfold spillEvents
  rw [List.foldl_append]
  generalize sackFecHandshake.foldl (tcpStep quietLink) tcpAllocSock = s at hlast
  change (tcpIn quietLink (tcpIn quietLink s aheadSeg) (byteRepair 0)).spilled = _
  have hspilled := congrArg SackView.spilled hlast.sack
  exact hspilled.trans (by decide)

end LvlIp.Tcp
