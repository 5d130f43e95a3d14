import LvlIp.Receive.Coding
import LvlIp.Send.Repair

/-!
# The layout of blocks

The coded buffers queued so far are the finished blocks, in order, followed by the block that is
being filled (`BlocksOf`). As long as every piece is staged into a block with a free slot whose
last symbol is full, the block has the layout that its repair headers promise: full symbols, and
a last one of `tail_len` bytes (`Staged`).
-/

namespace LvlIp.Tcp

open Fec Foundations Relation

/-- The buffer belongs to a block. -/
def SkBuff.isCoded (skb : SkBuff) : Bool := skb.tag.isSome

/-- The coded buffers of the queue, in order. -/
def codedOf (queued : List SkBuff) : List SkBuff := queued.filter SkBuff.isCoded

/-! ## Blocks -/

/-- The queue is made of blocks, whose buffers are tagged with their place. -/
structure BlocksOf (queued : List SkBuff) (blocks : List (List SkBuff)) : Prop where
  split : codedOf queued = blocks.flatten
  tags : ∀ n B i y, blocks[n]? = some B → B[i]? = some y →
    y.tag = some { type := .source, index := i, block := n } ∧
      HeaderFrom (codedHeader .source i n false) y.th

/-- What the encoder reads for symbol `i`: the buffer itself, or a padded copy. -/
def StagedAt (fec : TcpFec) (i : ℕ) (y : SkBuff) : Prop :=
  fec.enc.src[i]? = some (.skb y.addr) ∧ y.dlen = fec.symLen ∨
    fec.enc.src[i]? = some (.slot i) ∧ fec.txSrcBuf.getD i [] = padSymbol fec.symLen y.payload

/-- The payloads of a block. -/
def payloads (B : List SkBuff) : List Packet := B.map SkBuff.payload

/-- The finished blocks and the current one, with the encoder's view of the latter. -/
structure Staged (fec : TcpFec) (queued : List SkBuff) (blocks : List (List SkBuff))
    (cur : List SkBuff) : Prop extends BlocksOf queued (blocks ++ [cur]) where
  enc : EncOk fec
  blockId : fec.txBlockId = blocks.length
  filled : fec.txFilled = cur.length
  staged : ∀ i y, cur[i]? = some y → StagedAt fec i y
  done : ∀ B ∈ blocks, BlockOk fec.k fec.symLen (payloads B)
  current : cur ≠ [] → BlockOk fec.k fec.symLen (payloads cur) ∧
    fec.txTailLen = ((payloads cur).getD (cur.length - 1) []).length

theorem getD_payloads {B : List SkBuff} {i : ℕ} {y : SkBuff} (h : B[i]? = some y) :
    (payloads B).getD i [] = y.payload := by
  rw [payloads, List.getD_eq_getElem?_getD, List.getElem?_map, h]
  rfl

theorem length_payloads (B : List SkBuff) : (payloads B).length = B.length := List.length_map _

/-- **A block grows by a symbol**, when the last one so far is full. -/
theorem BlockOk.concat {k symLen : ℕ} {B : List SkBuff} {y : SkBuff}
    (h : B ≠ [] → BlockOk k symLen (payloads B) ∧
      ((payloads B).getD (B.length - 1) []).length = symLen)
    (hlt : B.length < k) (hpos : 0 < y.dlen) (hle : y.dlen ≤ symLen) :
    BlockOk k symLen (payloads (B ++ [y])) := by
  have hlast : (payloads (B ++ [y])).getD B.length [] = y.payload :=
    getD_payloads List.getElem?_concat_length
  have hlen : (payloads (B ++ [y])).length = B.length + 1 := by
    rw [length_payloads, List.length_append, List.length_singleton]
  refine ⟨by omega, by omega, fun i hi => ?_, ?_, ?_⟩
  · have hi' : i < B.length := by omega
    have hB : B ≠ [] := List.ne_nil_of_length_pos (by omega)
    have hget : (payloads (B ++ [y])).getD i [] = (payloads B).getD i [] := by
      rw [payloads, payloads, List.map_append, List.getD_append _ _ _ _ (by simpa using hi')]
    rw [hget]
    rcases Nat.lt_or_ge (i + 1) B.length with hlt' | hge
    · exact (h hB).1.full i (by rwa [length_payloads])
    · rw [show i = B.length - 1 by omega]
      exact (h hB).2
  · rw [hlen, Nat.add_sub_cancel, hlast]
    exact hpos
  · rw [hlen, Nat.add_sub_cancel, hlast]
    exact hle

section Staging

variable {fec : TcpFec} {queued : List SkBuff} {blocks : List (List SkBuff)} {cur : List SkBuff}

theorem Staged.encFilled (h : Staged fec queued blocks cur) : fec.enc.src.length = cur.length :=
  h.enc.filled.trans h.filled

/-- **The next block starts.** -/
theorem Staged.nextBlock (h : Staged fec queued blocks cur) (hne : cur ≠ []) :
    Staged fec.nextBlock queued (blocks ++ [cur]) [] where
  split := by
    rw [List.flatten_append, List.flatten_singleton, List.append_nil]
    exact h.split
  tags := by
    intro n B i y hB hy
    rw [List.getElem?_append] at hB
    split at hB
    · exact h.tags n B i y hB hy
    · rw [List.mem_singleton.mp (List.mem_of_getElem? hB)] at hy
      cases hy
  enc := h.enc.nextBlock
  blockId := by
    rw [List.length_append, List.length_singleton, ← h.blockId]
    rfl
  filled := rfl
  staged := fun i y hy => by cases hy
  done := by
    intro B hB
    rcases List.mem_append.mp hB with hB | hB
    · exact h.done B hB
    · rw [List.mem_singleton.mp hB]
      exact (h.current hne).1
  current := fun hnil => absurd rfl hnil

theorem Staged.pin (h : Staged fec queued blocks cur) (nxt : UInt32) :
    Staged (fec.pin nxt) queued blocks cur := by
  unfold TcpFec.pin
  split
  · exact { h with enc := { h.enc with } }
  · exact h

/-- The current block with one more symbol. -/
theorem Staged.added (h : Staged fec queued blocks cur) (hlt : cur.length < fec.k)
    (hfull : cur ≠ [] → fec.txTailLen = fec.symLen) {y : SkBuff} (hcoded : y.isCoded)
    (htag : y.tag = some { type := .source, index := cur.length, block := blocks.length } ∧
      HeaderFrom (codedHeader .source cur.length blocks.length false) y.th)
    (hpos : 0 < y.dlen) (hle : y.dlen ≤ fec.symLen) {ptr : SymPtr} {srcBuf : List Packet}
    (hsrcLen : srcBuf.length = fec.k)
    (hsrc : ∀ i < cur.length, srcBuf.getD i [] = fec.txSrcBuf.getD i [])
    (hptr : ptr = .skb y.addr ∧ y.dlen = fec.symLen ∨
      ptr = .slot cur.length ∧ srcBuf.getD cur.length [] = padSymbol fec.symLen y.payload) :
    Staged (fec.added ptr y.dlen srcBuf) (queued ++ [y]) blocks (cur ++ [y]) where
  split := by
    have hs := h.split
    rw [List.flatten_append, List.flatten_singleton] at hs ⊢
    rw [codedOf, List.filter_append, List.filter_cons_of_pos hcoded, List.filter_nil,
      ← List.append_assoc, ← hs]
    rfl
  tags := by
    intro n B i z hB hz
    rw [List.getElem?_append] at hB
    split at hB
    · next hn => exact h.tags n B i z (by rwa [List.getElem?_append_left hn]) hz
    · next hn =>
      obtain rfl : n = blocks.length := by
        have := (List.getElem?_eq_some_iff.mp hB).1
        rw [List.length_singleton] at this
        omega
      rw [Nat.sub_self, List.getElem?_cons_zero, Option.some_inj] at hB
      subst hB
      rw [List.getElem?_append] at hz
      split at hz
      · exact h.tags blocks.length cur i z List.getElem?_concat_length hz
      · next hi =>
        obtain rfl : i = cur.length := by
          have := (List.getElem?_eq_some_iff.mp hz).1
          rw [List.length_singleton] at this
          omega
        rw [Nat.sub_self, List.getElem?_cons_zero, Option.some_inj] at hz
        exact hz ▸ htag
  enc := h.enc.added (h.filled ▸ hlt) ptr y.dlen hsrcLen
  blockId := h.blockId
  filled := by
    rw [List.length_append, List.length_singleton, ← h.filled]
    rfl
  staged := by
    intro i z hz
    unfold StagedAt
    change (fec.enc.src ++ [ptr])[i]? = _ ∧ _ ∨ (fec.enc.src ++ [ptr])[i]? = _ ∧
      srcBuf.getD i [] = padSymbol fec.symLen z.payload
    rw [List.getElem?_append] at hz
    split at hz
    · next hi =>
      rw [List.getElem?_append_left (by rwa [h.encFilled]), hsrc i hi]
      exact h.staged i z hz
    · next hi =>
      obtain rfl : i = cur.length := by
        have := (List.getElem?_eq_some_iff.mp hz).1
        rw [List.length_singleton] at this
        omega
      rw [Nat.sub_self, List.getElem?_cons_zero, Option.some_inj] at hz
      subst hz
      rw [← h.encFilled, List.getElem?_concat_length, h.encFilled]
      rcases hptr with ⟨rfl, hd⟩ | ⟨rfl, hp⟩
      · exact .inl ⟨rfl, hd⟩
      · exact .inr ⟨rfl, hp⟩
  done := h.done
  current := by
    intro _
    refine ⟨BlockOk.concat (fun hne => ⟨(h.current hne).1, ?_⟩) hlt hpos hle, ?_⟩
    · rw [← (h.current hne).2, hfull hne]
      rfl
    · rw [List.length_append, List.length_singleton, Nat.add_sub_cancel,
        getD_payloads List.getElem?_concat_length]
      rfl

/-- **A new buffer is registered** with the current block. -/
theorem Staged.register (h : Staged fec queued blocks cur) (hlt : cur.length < fec.k)
    (hfull : cur ≠ [] → fec.txTailLen = fec.symLen) (nxt : UInt32) {addr : ℕ}
    {piece : List UInt8 × Bool} {y : SkBuff} (hy : SameBuf y (codedBuf addr fec piece))
    (hpos : 0 < piece.1.length) (hle : piece.1.length ≤ fec.symLen) :
    Staged ((fec.pin nxt).register (codedBuf addr fec piece)) (queued ++ [y]) blocks
      (cur ++ [y]) := by
  have hk : ∀ n, (fec.pin n).k = fec.k := fun n => by unfold TcpFec.pin; split <;> rfl
  have hs := fec.pin_symLen
  have ht : ∀ n, (fec.pin n).txTailLen = fec.txTailLen := fun n => by
    unfold TcpFec.pin
    split <;> rfl
  have h' := h.pin nxt
  have hfilled := h'.filled
  have hdlen : (codedBuf addr fec piece).dlen = piece.1.length := rfl
  have hydlen : y.dlen = piece.1.length := hy.dlen
  have htag : y.tag = some { type := .source, index := cur.length, block := blocks.length } ∧
      HeaderFrom (codedHeader .source cur.length blocks.length false) y.th := by
    rw [← h.filled, ← h.blockId]
    refine ⟨hy.tag, ?_⟩
    have hhead : HeaderFrom (codedHeader .source fec.txFilled fec.txBlockId false)
        (codedBuf addr fec piece).th := ⟨rfl, rfl, rfl, rfl, fun _ => rfl, fun _ => rfl⟩
    exact hhead.trans hy.header
  have hcoded : y.isCoded := by
    rw [SkBuff.isCoded, hy.tag]
    rfl
  rw [h'.enc.register_eq (by rw [hfilled, hk]; exact hlt), hs, hdlen]
  rw [← hk nxt] at hlt
  rw [← ht nxt, ← hs nxt] at hfull
  split
  · next heq =>
    have hadd : Staged ((fec.pin nxt).added (.skb y.addr) y.dlen (fec.pin nxt).txSrcBuf)
        (queued ++ [y]) blocks (cur ++ [y]) :=
      h'.added hlt hfull hcoded htag (by omega) (by rw [hs]; omega) h'.enc.srcBuf
        (fun _ _ => rfl) (.inl ⟨rfl, by rw [hs]; omega⟩)
    rw [show y.dlen = fec.symLen by omega, hy.addr] at hadd
    exact hadd
  · next hne =>
    have hlen : y.payload.length = piece.1.length := hydlen
    rw [hfilled, ← hydlen]
    refine h'.added hlt hfull hcoded htag (by omega) (by rw [hs]; omega) ?_ ?_ (.inr ⟨rfl, ?_⟩)
    · rw [List.length_set]
      exact h'.enc.srcBuf
    · intro i hi
      rw [List.getD_eq_getElem?_getD, List.getElem?_set_ne (by omega), List.getD_eq_getElem?_getD]
    · rw [List.getD_eq_getElem?_getD,
        List.getElem?_set_self (by rw [h'.enc.srcBuf]; exact hlt), Option.getD_some, hs,
        padSymbol, List.take_of_length_le (by omega), hlen, hydlen, hy.payload]

end Staging

/-! ## The invariant -/

/-- The header names a first part of the block: its symbols are full but for the last one, which
has `tail_len` bytes. -/
structure LaidOut (symLen : ℕ) (B : List SkBuff) (rh : FecRepairHdr) : Prop where
  pos : 0 < rh.k.toNat
  le : rh.k.toNat ≤ B.length
  dlen : ∀ i y, B[i]? = some y → i < rh.k.toNat →
    y.dlen = if i + 1 = rh.k.toNat then rh.tailLen.toNat else symLen

/-- A repair segment names a first part of its block. -/
def RepairLaid (symLen : ℕ) (blocks : List (List SkBuff)) (t : Transmission) : Prop :=
  ∀ j n, t.tag = some { type := .repair, index := j, block := n } →
    ∃ B, blocks[n]? = some B ∧ LaidOut symLen B (FecRepairHdr.read t.seg.payload)

/-- The layout of everything queued, and of every repair segment sent. -/
structure LayoutInv (symLen : ℕ) (v : TxView) : Prop where
  tags : ∀ x ∈ v.snd.writeQueue, ∀ j n, x.tag ≠ some { type := .repair, index := j, block := n }
  laid : ∃ blocks cur, BlocksOf v.snd.queued (blocks ++ [cur]) ∧
    (∀ t ∈ v.out, RepairLaid symLen (blocks ++ [cur]) t) ∧
    ∀ fec, v.snd.tx = some fec → Staged fec v.snd.queued blocks cur ∧ fec.symLen = symLen

/-- Blocks grow at the end. -/
theorem RepairLaid.mono {symLen : ℕ} {blocks blocks' : List (List SkBuff)} {t : Transmission}
    (h : RepairLaid symLen blocks t)
    (hgrow : ∀ (n : ℕ) (B : List SkBuff), blocks[n]? = some B →
      ∃ more, blocks'[n]? = some (B ++ more)) : RepairLaid symLen blocks' t := by
  intro j n htag
  obtain ⟨B, hB, hlaid⟩ := h j n htag
  obtain ⟨more, hmore⟩ := hgrow n B hB
  refine ⟨B ++ more, hmore, hlaid.pos, hlaid.le.trans (by simp), fun i y hy hi => ?_⟩
  rw [List.getElem?_append_left (hi.trans_le hlaid.le)] at hy
  exact hlaid.dlen i y hy hi

theorem repairLaid_of_tag {symLen : ℕ} {blocks : List (List SkBuff)} {t : Transmission}
    (h : ∀ j n, t.tag ≠ some { type := .repair, index := j, block := n }) :
    RepairLaid symLen blocks t :=
  fun j n htag => absurd htag (h j n)

theorem Staged.tx {fec : TcpFec} {queued : List SkBuff} {blocks : List (List SkBuff)}
    {cur : List SkBuff} (h : Staged fec queued blocks cur) : Staged fec.tx queued blocks cur :=
  { h with enc := h.enc.tx }

theorem Staged.of_tx {fec : TcpFec} {queued : List SkBuff} {blocks : List (List SkBuff)}
    {cur : List SkBuff} (h : Staged fec.tx queued blocks cur) : Staged fec queued blocks cur :=
  { h with enc := { h.enc with } }

section Preservation

variable {symLen : ℕ} {v v' : TxView} {env : Env}

theorem LayoutInv.sending (h : LayoutInv symLen v) (hs : Sending v v') : LayoutInv symLen v' := by
  obtain ⟨blocks, cur, hblocks, hout, htx⟩ := h.laid
  refine ⟨fun x hx j n => ?_, blocks, cur, hs.queued ▸ hblocks, fun t ht => ?_, fun fec hfec => ?_⟩
  · obtain ⟨y, hy, hxy⟩ := hs.writeQueue x hx
    rw [hxy]
    exact h.tags y hy j n
  · obtain ⟨ts, heq, hts⟩ := hs.out
    rw [heq] at ht
    rcases List.mem_append.mp ht with ht | ht
    · exact hout t ht
    · refine repairLaid_of_tag fun j n => ?_
      rcases hts t ht with hnone | ⟨y, hy, hty⟩
      · rw [hnone]
        simp
      · rw [hty]
        exact h.tags y hy j n
  · rw [hs.queued]
    rcases hs.tx with heq | heq
    · exact htx fec (heq ▸ hfec)
    · rw [heq] at hfec
      cases hfec

/-- **Queueing a buffer without a tag.** -/
theorem LayoutInv.queuePlain {s : TcpSock} (h : LayoutInv symLen s.txv) {skb : SkBuff}
    (htag : skb.tag = none) : LayoutInv symLen (tcpQueueTransmitSkb env s skb).1.txv := by
  obtain ⟨blocks, cur, hblocks, hout, htx⟩ := h.laid
  obtain ⟨y, hy, hqueued, hwq, ts, heq, hts⟩ := exists_queued env s skb
  have hfec : (tcpQueueTransmitSkb env s skb).1.fec = s.fec :=
    congrArg RcvView.fec (rcv_tcpQueueTransmitSkb env s skb)
  have hytag : y.tag = none := hy.tag.trans htag
  have hcoded : codedOf (s.queued ++ [y]) = codedOf s.queued := by
    have hy' : ¬ y.isCoded := by
      rw [SkBuff.isCoded, hytag]
      simp
    rw [codedOf, List.filter_append, List.filter_cons_of_neg hy', List.filter_nil, List.append_nil]
    rfl
  have hsplit : BlocksOf (s.queued ++ [y]) (blocks ++ [cur]) :=
    ⟨hcoded.trans hblocks.split, hblocks.tags⟩
  generalize (tcpQueueTransmitSkb env s skb).1 = s' at *
  refine ⟨fun x hx j n => ?_, blocks, cur, ?_, fun t ht => ?_, fun fec hfec' => ?_⟩
  · rw [show s'.txv.snd.writeQueue = _ from hwq] at hx
    rcases List.mem_append.mp hx with hx | hx
    · exact h.tags x hx j n
    · rw [List.mem_singleton.mp hx, hytag]
      simp
  · rw [show s'.txv.snd.queued = _ from hqueued]
    exact hsplit
  · rw [heq] at ht
    rcases List.mem_append.mp ht with ht | ht
    · exact hout t ht
    · refine repairLaid_of_tag fun j n => ?_
      rw [hts t ht, htag]
      simp
  · rw [show s'.txv.snd.queued = _ from hqueued]
    have hfec'' : s'.fec.map TcpFec.tx = some fec := hfec'
    obtain ⟨hst, hlen⟩ := htx fec (by rw [hfec] at hfec''; exact hfec'')
    exact ⟨{ hst with split := hsplit.split, tags := hsplit.tags }, hlen⟩

/-- **Queueing a buffer of the current block.** -/
theorem LayoutInv.queue {s : TcpSock} {fec : TcpFec} (h : LayoutInv symLen s.txv)
    (hfec : s.fec = some fec) (hlt : fec.txFilled < fec.k)
    (hfull : 0 < fec.txFilled → fec.txTailLen = fec.symLen) {piece : List UInt8 × Bool}
    (hpos : 0 < piece.1.length) (hle : piece.1.length ≤ fec.symLen) :
    LayoutInv symLen (s.queuedPiece env fec piece).txv := by
  obtain ⟨blocks, cur, hblocks, hout, htx⟩ := h.laid
  obtain ⟨hst, hlen⟩ := htx fec.tx (TcpSock.tx_eq hfec)
  obtain ⟨y, hy, hqueued, hwq, ts, heq, hts⟩ :=
    exists_queued env (s.staged fec piece) (codedBuf s.nextAddr fec piece)
  have hreg := hst.of_tx.register (hst.filled ▸ hlt)
    (fun hne => hfull (hst.filled ▸ List.length_pos_of_ne_nil hne)) s.tcb.sndNxt hy hpos hle
  have hfec' := fec_queuedPiece env s fec piece
  have hsymLen : ((fec.pin s.tcb.sndNxt).register (codedBuf s.nextAddr fec piece)).symLen =
      symLen := by
    rw [TcpFec.register_symLen, TcpFec.pin_symLen]
    exact hlen
  change (s.queuedPiece env fec piece).txv.snd.queued = s.queued ++ [y] at hqueued
  change (s.queuedPiece env fec piece).txv.snd.writeQueue = s.writeQueue ++ [y] at hwq
  change (s.queuedPiece env fec piece).txv.out = s.out ++ ts at heq
  generalize s.queuedPiece env fec piece = s' at *
  generalize (fec.pin s.tcb.sndNxt).register _ = fec₁ at *
  have hne : ∀ j n, (codedBuf s.nextAddr fec piece).tag ≠
      some { type := .repair, index := j, block := n } := by
    intro j n htag
    cases htag
  refine ⟨fun x hx j n => ?_, blocks, cur ++ [y], ?_, fun t ht => ?_, fun f hf => ?_⟩
  · rw [hwq] at hx
    rcases List.mem_append.mp hx with hx | hx
    · exact h.tags x hx j n
    · rw [List.mem_singleton.mp hx, hy.tag]
      exact hne j n
  · rw [hqueued]
    exact hreg.toBlocksOf
  · rw [heq] at ht
    rcases List.mem_append.mp ht with ht | ht
    · refine (hout t ht).mono fun n B hB => ?_
      rw [List.getElem?_append] at hB ⊢
      split at hB
      · next hn => exact ⟨[], by rw [if_pos hn, List.append_nil, hB]⟩
      · next hn =>
        have hz : n - blocks.length = 0 := by
          have := (List.getElem?_eq_some_iff.mp hB).1
          simpa using this
        rw [hz, List.getElem?_cons_zero, Option.some_inj] at hB
        exact ⟨[y], by rw [if_neg hn, hz, List.getElem?_cons_zero, hB]⟩
    · refine repairLaid_of_tag fun j n => ?_
      rw [hts t ht]
      exact hne j n
  · have hf' : s'.fec.map TcpFec.tx = some f := hf
    rw [hfec', Option.map_some, Option.some_inj] at hf'
    rw [hqueued, ← hf']
    exact ⟨hreg.tx, hsymLen⟩

/-- A repair segment of the current block names it. -/
theorem Staged.repairLaid {fec : TcpFec} {queued : List SkBuff} {blocks : List (List SkBuff)}
    {cur : List SkBuff} (h : Staged fec queued blocks cur) (hpos : 0 < fec.txFilled) {i : ℕ}
    {p : Packet} {t : Transmission} (ht : RepairOf fec fec.txFilled fec.txTailLen i p t) :
    RepairLaid fec.symLen (blocks ++ [cur]) t := by
  intro j n htag
  rw [ht.tag, Option.some_inj, FecTag.mk.injEq] at htag
  obtain ⟨-, -, rfl⟩ := htag
  have hne : cur ≠ [] := List.ne_nil_of_length_pos (h.filled ▸ hpos)
  obtain ⟨hok, htail⟩ := h.current hne
  have hk : fec.k ≤ 128 := by
    have := h.enc.geometry
    unfold fecGeometryOk fecBlkMaxK at this
    omega
  have hle := h.enc.le
  have hsym := h.enc.symLen_lt
  have htl : fec.txTailLen ≤ fec.symLen := by
    have := hok.tail_le
    rwa [length_payloads, ← htail] at this
  have hK : (repairHdr fec fec.txFilled i fec.txTailLen).k.toNat = fec.txFilled := by
    rw [repairHdr, UInt8.toNat_ofNat', Nat.mod_eq_of_lt (by omega)]
  have hT : (repairHdr fec fec.txFilled i fec.txTailLen).tailLen.toNat = fec.txTailLen := by
    rw [repairHdr, UInt16.toNat_ofNat', Nat.mod_eq_of_lt (by omega)]
  refine ⟨cur, h.blockId ▸ List.getElem?_concat_length, ?_⟩
  rw [ht.payload, read_write]
  refine ⟨hpos.trans_eq hK.symm, hK.le.trans h.filled.le, fun i y hy hi => ?_⟩
  rw [hK] at hi ⊢
  rw [hT]
  have hget := getD_payloads hy
  rw [SkBuff.dlen, ← hget]
  split
  · next hlast =>
    rw [htail, show i = cur.length - 1 by have := h.filled; omega]
  · next hlast =>
    refine hok.full i ?_
    have := h.filled
    rw [length_payloads]
    omega

/-- **Emitting the current block.** -/
theorem LayoutInv.emit {s s' : TcpSock} {fec : TcpFec} (h : LayoutInv symLen s.txv)
    (hfec : s.fec = some fec) (hpos : 0 < fec.txFilled) {ps : List Packet}
    {ts : List Transmission} (hem : Emission env s fec s' ps ts) : LayoutInv symLen s'.txv := by
  obtain ⟨blocks, cur, hblocks, hout, htx⟩ := h.laid
  obtain ⟨hst, hlen⟩ := htx fec.tx (TcpSock.tx_eq hfec)
  have hst' := hst.of_tx
  have hlaid : ∀ t ∈ s.out ++ ts, RepairLaid symLen (blocks ++ [cur]) t := by
    intro t ht
    rcases List.mem_append.mp ht with ht | ht
    · exact hout t ht
    · obtain ⟨i, hi⟩ := List.mem_iff_getElem?.mp ht
      obtain ⟨p, -, hof⟩ := hem.repairs i t hi
      exact hlen ▸ hst'.repairLaid hpos hof
  rw [hem.sock]
  split
  · -- the next block starts
    have hne : cur ≠ [] := List.ne_nil_of_length_pos (hst'.filled ▸ hpos)
    have hnext := hst'.nextBlock hne
    refine ⟨h.tags, blocks ++ [cur], [], hnext.toBlocksOf, fun t ht => ?_, fun f hf => ?_⟩
    · refine (hlaid t ht).mono fun n B hB => ⟨[], ?_⟩
      rw [List.append_nil, List.getElem?_append_left (List.getElem?_eq_some_iff.mp hB).1, hB]
    · rw [show f = fec.nextBlock.tx from (Option.some_inj.mp hf).symm]
      exact ⟨hnext.tx, hlen⟩
  · refine ⟨h.tags, blocks, cur, hblocks, hlaid, fun f hf => ?_⟩
    rw [show f = fec.tx from (Option.some_inj.mp hf).symm]
    exact ⟨hst, hlen⟩

end Preservation

/-! ## Runs -/

/-- What can happen to the sender: a call of `tcp_write` or `tcp_close`, a segment, a
retransmission timeout. -/
inductive CodedEvent
  | write (buf : List UInt8)
  | close
  | arrive (seg : Segment)
  | timeout

/-- One step of the sender. -/
def codedStep (env : Env) (s : TcpSock) : CodedEvent → TcpSock
  | .write buf => (tcpWrite env s buf).1
  | .close => tcpClose env s
  | .arrive seg => tcpIn env s seg
  | .timeout => tcpRetransmissionTimeout env s

/-- The block in progress can take a symbol: it is empty, or its last symbol is full, or it is
full and the link takes its repair segments now. -/
def StageOk (env : Env) (s : TcpSock) : Prop :=
  ∀ fec ∈ s.fec,
    if fec.k ≤ fec.txFilled then s.linkTakes env fec.r
    else 0 < fec.txFilled → fec.txTailLen = fec.symLen

instance (env : Env) : DecidablePred (StageOk env) := fun s =>
  inferInstanceAs (Decidable (∀ fec ∈ s.fec, if fec.k ≤ fec.txFilled then s.linkTakes env fec.r
    else 0 < fec.txFilled → fec.txTailLen = fec.symLen))

/-- The segments that the event builds are staged in blocks that can take them. -/
def CodedEvent.Ready (env : Env) (s : TcpSock) : CodedEvent → Prop
  | .write buf => WriteMeets env (StageOk env) s buf
  | _ => True

instance (env : Env) (s : TcpSock) : DecidablePred (CodedEvent.Ready env s)
  | .write buf => inferInstanceAs (Decidable (WriteMeets env (StageOk env) s buf))
  | .close | .arrive _ | .timeout => .isTrue trivial

/-- Every segment that the run builds is staged in a block that can take it. -/
def AllStaged (env : Env) : TcpSock → List CodedEvent → Prop
  | _, [] => True
  | s, e :: es => e.Ready env s ∧ AllStaged env (codedStep env s e) es

instance decidableAllStaged (env : Env) : ∀ s events, Decidable (AllStaged env s events)
  | _, [] => .isTrue trivial
  | s, e :: es =>
    have := decidableAllStaged env (codedStep env s e) es
    inferInstanceAs (Decidable (e.Ready env s ∧ AllStaged env (codedStep env s e) es))

/-- The condition on the state in which a buffer is queued. -/
def StageFree (_ : TcpSock) (fec : TcpFec) : Prop :=
  fec.txFilled < fec.k ∧ (0 < fec.txFilled → fec.txTailLen = fec.symLen)

theorem StageOk.stageFree {env : Env} {s : TcpSock} {fec : TcpFec} (h : StageOk env s)
    (hfec : s.fec = some fec) (henc : EncOk fec) {fec₁ : TcpFec}
    (hfec₁ : (tcpFecForceFlush env s).fec = some fec₁) :
    StageFree (tcpFecForceFlush env s) fec₁ := by
  have hok := h fec hfec
  rcases tcpFecForceFlush_cases hfec henc with ⟨hlt, heq⟩ | ⟨hk, ps, ts, hem⟩
  · rw [heq, hfec, Option.some_inj] at hfec₁
    subst hfec₁
    rw [if_neg (Nat.not_le.mpr hlt)] at hok
    exact ⟨hlt, hok⟩
  · rw [if_pos hk.ge] at hok
    rw [hem.sock, if_pos hok] at hfec₁
    rw [← Option.some_inj.mp hfec₁]
    exact ⟨henc.k_pos, fun h0 => absurd h0 (Nat.lt_irrefl _)⟩

section Run

variable {symLen : ℕ} {env : Env}

theorem LayoutInv.codedSteps {s s' : TcpSock} (h : LayoutInv symLen s.txv)
    (hs : ReflTransGen (CodedStep env StageFree) s s') : LayoutInv symLen s'.txv := by
  induction hs with
  | refl => exact h
  | tail _ hstep ih =>
    cases hstep with
    | emit hfec _ hpos hem => exact ih.emit hfec hpos hem
    | queue hfec _ hQ hpos hle => exact ih.queue hfec hQ.1 hQ.2 hpos hle

theorem LayoutInv.exists_enc {s : TcpSock} {fec : TcpFec} (h : LayoutInv symLen s.txv)
    (hfec : s.fec = some fec) : EncOk fec := by
  obtain ⟨blocks, cur, -, -, htx⟩ := h.laid
  exact (htx fec.tx (TcpSock.tx_eq hfec)).1.of_tx.enc

theorem LayoutInv.plainPieces (pieces : List (List UInt8 × Bool)) {s : TcpSock}
    (h : LayoutInv symLen s.txv) (hfec : s.fec = none) :
    LayoutInv symLen (pieces.foldl (tcpSendPiece env) s).txv := by
  induction pieces generalizing s with
  | nil => exact h
  | cons piece pieces ih =>
    have hqueue := @LayoutInv.queuePlain symLen env { s with nextAddr := s.nextAddr + 1 }
      ⟨h.tags, h.laid⟩ (plainBuf s.nextAddr piece) rfl
    have hfec' : (tcpQueueTransmitSkb env { s with nextAddr := s.nextAddr + 1 }
        (plainBuf s.nextAddr piece)).1.fec = none :=
      (congrArg RcvView.fec (rcv_tcpQueueTransmitSkb env _ _)).trans hfec
    rw [List.foldl_cons, tcpSendPiece_plain env hfec]
    unfold tcpFecEmitFull
    rw [hfec']
    exact ih hqueue hfec'

theorem LayoutInv.write {s : TcpSock} (h : LayoutInv symLen s.txv) {buf : List UInt8}
    (hmeet : PiecesMeet env (StageOk env) s (tcpPieces (tcpSendMss s) buf.length buf)) :
    LayoutInv symLen (tcpSend env s buf).txv := by
  unfold tcpSend
  rw [txv_tcpRearmUserTimeout]
  cases hfec : s.fec with
  | none => exact h.plainPieces _ hfec
  | some fec =>
    have hmss : tcpSendMss s = fec.symLen := by
      unfold tcpSendMss
      rw [hfec]
    have henc := h.exists_enc hfec
    rw [hmss] at hmeet ⊢
    exact h.codedSteps (codedSteps_pieces
      (fun s fec hfec henc hok fec₁ hfec₁ => hok.stageFree hfec henc hfec₁) hfec henc hmeet
      (length_tcpPieces henc.symLen_pos _ _)).1

theorem LayoutInv.flush {s : TcpSock} (h : LayoutInv symLen s.txv) :
    LayoutInv symLen (tcpFecFlush env s).txv := by
  unfold tcpFecFlush
  split
  · exact h
  · next fec hfec =>
    split
    · exact h
    · next hne =>
      have hpos := Nat.pos_of_ne_zero hne
      obtain ⟨ps, ts, hem⟩ := exists_emission env hfec (h.exists_enc hfec) hpos
      exact h.emit hfec hpos hem

theorem LayoutInv.queueFin {s : TcpSock} (h : LayoutInv symLen s.txv) :
    LayoutInv symLen (tcpQueueFin env s).txv := by
  have hflush := @LayoutInv.flush symLen env s h
  exact @LayoutInv.queuePlain symLen env
    { tcpFecFlush env s with nextAddr := (tcpFecFlush env s).nextAddr + 1 }
    ⟨hflush.tags, hflush.laid⟩
    (tcpAllocSkb (tcpFecFlush env s) none { Tcphdr.zero with fin := true, ack := true } []).2 rfl

/-- **One step of the sender.** -/
theorem LayoutInv.step {s : TcpSock} (h : LayoutInv symLen s.txv) (hst : s.state.connected)
    {e : CodedEvent} (he : e.Ready env s) :
    LayoutInv symLen (codedStep env s e).txv ∧ (codedStep env s e).state.connected := by
  cases e with
  | write buf =>
    simp only [codedStep, tcpWrite_eq]
    split
    · next hok => exact ⟨h.write (he hok), by rwa [state_tcpSend]⟩
    · exact ⟨h, hst⟩
  | close =>
    simp only [codedStep, tcpClose]
    split
    · exact ⟨h, hst⟩
    · exact ⟨h, hst⟩
    · exact ⟨h, hst⟩
    · exact ⟨h, hst⟩
    · exact ⟨h, hst⟩
    · exact ⟨h, hst⟩
    · exact ⟨h.sending (TxStep.release s.txv).sending, rfl⟩
    · exact ⟨h.sending (TxStep.release s.txv).sending, rfl⟩
    · exact ⟨h.sending (TxStep.release s.txv).sending, rfl⟩
    · refine ⟨LayoutInv.queueFin (s := { s with state := .finWait1 }) h, ?_⟩
      rw [state_tcpQueueFin]
      rfl
    · exact ⟨h.queueFin, by rwa [state_tcpQueueFin]⟩
  | arrive seg =>
    have hsteps := txSteps_tcpIn env hst seg
    exact ⟨h.sending (sending_of_steps hsteps.2), hsteps.1⟩
  | timeout =>
    exact ⟨h.sending (sending_timeout env hst), (exists_tcpRetransmissionTimeout env hst).1⟩

theorem LayoutInv.run (events : List CodedEvent) {s : TcpSock} (h : LayoutInv symLen s.txv)
    (hst : s.state.connected) (hall : AllStaged env s events) :
    LayoutInv symLen (events.foldl (codedStep env) s).txv := by
  induction events generalizing s with
  | nil => exact h
  | cons e es ih =>
    obtain ⟨h', hst'⟩ := h.step hst hall.1
    exact ih h' hst' hall.2

theorem FreshSender.layoutInv {s : TcpSock} {fec : TcpFec} (h : FreshSender s)
    (hfec : s.fec = some fec) (hfresh : FreshFec fec) : LayoutInv fec.symLen s.txv := by
  have hq : s.txv.snd.queued = [] := h.queued
  have hwq : s.txv.snd.writeQueue = [] := h.writeQueue
  have hout : s.txv.out = [] := h.out
  have hblocks : BlocksOf [] ([] ++ [[]]) := by
    refine ⟨rfl, fun n B i y hB hy => ?_⟩
    rw [List.mem_singleton.mp (List.mem_of_getElem? hB)] at hy
    cases hy
  refine ⟨by simp [hwq], [], [], hq ▸ hblocks, by simp [hout], fun f hf => ?_⟩
  have hf' : s.fec.map TcpFec.tx = some f := hf
  rw [hfec, Option.map_some, Option.some_inj] at hf'
  rw [hq, ← hf']
  refine ⟨Staged.tx { hblocks with
    enc := hfresh.toEncOk
    blockId := hfresh.blockId_eq
    filled := hfresh.filled_eq
    staged := fun i y hy => by cases hy
    done := by simp
    current := fun hne => absurd rfl hne }, rfl⟩

end Run

/-! ## The layout on the stream -/

/-- The coded buffers hold block `n` in the layout that the header promises: symbol `i` is the one
buffer with that tag, and starts `i * symLen` bytes after symbol 0. -/
def BlockLaid (symLen : ℕ) (coded : List SkBuff) (n : ℕ) (rh : FecRepairHdr) : Prop :=
  0 < rh.k.toNat ∧ ∃ p, ∀ i < rh.k.toNat, ∃ y, coded[p + i]? = some y ∧
    y.tag = some { type := .source, index := i, block := n } ∧
    y.dlen = (if i + 1 = rh.k.toNat then rh.tailLen.toNat else symLen) ∧
    queuedOff coded (p + i) = queuedOff coded p + i * symLen ∧
    ∀ q z, coded[q]? = some z → z.tag = some { type := .source, index := i, block := n } → q = p + i

section Position

variable {queued : List SkBuff} {blocks : List (List SkBuff)} {n : ℕ} {B : List SkBuff}

theorem flatIndex_eq {α : Type*} (parts : List (List α)) (n i : ℕ) :
    flatIndex parts n i = flatIndex parts n 0 + i := rfl

/-- A symbol stands at its place among the coded buffers, and nowhere else. -/
theorem BlocksOf.getElem?_coded (h : BlocksOf queued blocks) (hB : blocks[n]? = some B) {i : ℕ}
    {y : SkBuff} (hy : B[i]? = some y) :
    (codedOf queued)[flatIndex blocks n i]? = some y := by
  rw [h.split, getElem?_flatIndex hB (List.getElem?_eq_some_iff.mp hy).1, hy]

theorem BlocksOf.eq_flatIndex (h : BlocksOf queued blocks) {q i : ℕ} {z : SkBuff}
    (hz : (codedOf queued)[q]? = some z)
    (htag : z.tag = some { type := .source, index := i, block := n }) :
    q = flatIndex blocks n i := by
  rw [h.split] at hz
  obtain ⟨n', i', B', hB', hz', rfl⟩ := exists_flatIndex hz
  have heq := (h.tags n' B' i' z hB' hz').1
  rw [htag, Option.some_inj, FecTag.mk.injEq] at heq
  obtain ⟨-, rfl, rfl⟩ := heq
  rfl

/-- **A repair segment that names its block has it laid out.** -/
theorem LaidOut.blockLaid {symLen : ℕ} {rh : FecRepairHdr} (h : BlocksOf queued blocks)
    (hB : blocks[n]? = some B) (hlaid : LaidOut symLen B rh) :
    BlockLaid symLen (codedOf queued) n rh := by
  have hget : ∀ i < rh.k.toNat, ∃ y, B[i]? = some y := fun i hi =>
    ⟨_, List.getElem?_eq_getElem (hi.trans_le hlaid.le)⟩
  have hoff : ∀ i < rh.k.toNat, queuedOff (codedOf queued) (flatIndex blocks n 0 + i) =
      queuedOff (codedOf queued) (flatIndex blocks n 0) + i * symLen := by
    intro i
    induction i with
    | zero => simp
    | succ i ih =>
      intro hi
      obtain ⟨y, hy⟩ := hget i (by omega)
      have hcoded := h.getElem?_coded hB hy
      rw [flatIndex_eq] at hcoded
      rw [← Nat.add_assoc, queuedOff_succ hcoded, ih (by omega),
        hlaid.dlen i y hy (by omega), if_neg (by omega), Nat.succ_mul, Nat.add_assoc]
  refine ⟨hlaid.pos, flatIndex blocks n 0, fun i hi => ?_⟩
  obtain ⟨y, hy⟩ := hget i hi
  refine ⟨y, ?_, (h.tags n B i y hB hy).1, hlaid.dlen i y hy hi, hoff i hi, fun q z hz htag => ?_⟩
  · rw [← flatIndex_eq]
    exact h.getElem?_coded hB hy
  · rw [← flatIndex_eq]
    exact h.eq_flatIndex hz htag

end Position

/-- **Blocks with parity have a uniform layout**: when every segment is staged in a block that can
take it, every repair segment names a block whose symbols are full but for the last one, which has
`tail_len` bytes. -/
theorem repairs_laidOut (env : Env) (s : TcpSock) (hfresh : FreshSender s) (fec : TcpFec)
    (hfec : s.fec = some fec) (hfec₀ : FreshFec fec) (events : List CodedEvent)
    (hready : AllStaged env s events) :
    let s' := events.foldl (codedStep env) s
    ∀ t ∈ s'.out, ∀ j n, t.tag = some { type := .repair, index := j, block := n } →
      BlockLaid fec.symLen (codedOf s'.queued) n (FecRepairHdr.read t.seg.payload) := by
  intro s' t ht j n htag
  have hst : s.state.connected := by
    rw [hfresh.state]
    rfl
  obtain ⟨blocks, cur, hblocks, hout, -⟩ :=
    ((hfresh.layoutInv hfec hfec₀).run events hst hready).laid
  obtain ⟨B, hB, hlaid⟩ := hout t ht j n htag
  exact hlaid.blockLaid hblocks hB

/-- An established socket with FEC that has sent nothing yet. -/
def codedSock : TcpSock := { sockAt200 with fec := some tcpFecFresh }

theorem freshSender_codedSock : FreshSender codedSock := ⟨rfl, rfl, rfl, rfl, rfl, rfl, rfl⟩

/-- A write of 515 bytes: a full symbol and one of three bytes. -/
def twoSymbols : List UInt8 := List.replicate 515 7

theorem exists_fec_twoSymbols :
    ∃ fec, (codedStep quietLink codedSock (.write twoSymbols)).fec = some fec ∧ EncOk fec ∧
      fec.txFilled = 2 ∧ fec.txTailLen = 3 ∧ fec.txBlockId = 0 := by
  have hlaid := @LayoutInv.run _ quietLink [.write twoSymbols] codedSock
    (freshSender_codedSock.layoutInv rfl freshFec_tcpFecFresh) rfl (by decide +kernel)
  rw [List.foldl_cons, List.foldl_nil] at hlaid
  have hall : (codedStep quietLink codedSock (.write twoSymbols)).fec.map
      (fun fec => (fec.txFilled, fec.txTailLen, fec.txBlockId)) = some (2, 3, 0) := by
    decide +kernel
  obtain ⟨fec, hfec, heq⟩ := Option.map_eq_some_iff.mp hall
  rw [Prod.mk.injEq, Prod.mk.injEq] at heq
  exact ⟨fec, hfec, hlaid.exists_enc hfec, heq⟩

/-- A block of a full symbol and a short one, emitted when the socket is closed. -/
theorem repairs_laidOut_close :
    let s := [CodedEvent.write twoSymbols, .close].foldl (codedStep quietLink) codedSock
    (∃ t ∈ s.out, t.tag = some { type := .repair, index := 0, block := 0 } ∧
        (FecRepairHdr.read t.seg.payload).k = 2 ∧ (FecRepairHdr.read t.seg.payload).tailLen = 3) ∧
      ∀ t ∈ s.out, ∀ j n, t.tag = some { type := .repair, index := j, block := n } →
        BlockLaid 512 (codedOf s.queued) n (FecRepairHdr.read t.seg.payload) := by
  refine ⟨?_, ?_⟩
  · obtain ⟨fec, hfec, henc, hfilled, htail, hid⟩ := exists_fec_twoSymbols
    obtain ⟨t, ht, htag, p, hpay⟩ := @exists_repair_of_close quietLink
      (codedStep quietLink codedSock (.write twoSymbols)) fec (by decide +kernel) hfec henc
      (by omega)
    refine ⟨t, ?_, by rw [htag, hid], ?_⟩
    · rw [List.foldl_cons, List.foldl_cons, List.foldl_nil]
      exact ht
    · rw [hpay, read_write, hfilled, htail]
      exact ⟨rfl, rfl⟩
  · exact repairs_laidOut quietLink codedSock freshSender_codedSock tcpFecFresh rfl
      freshFec_tcpFecFresh _ (by decide +kernel)

/-- The sender after a write of 100 bytes and six more symbols. -/
def raggedSock : TcpSock :=
  (List.replicate 6 (List.replicate 512 0, false)).foldl (tcpSendPiece quietLink)
    (codedStep quietLink codedSock (.write (List.replicate 100 0)))

theorem exists_fec_raggedSock :
    ∃ fec, raggedSock.fec = some fec ∧ EncOk fec ∧ fec.txFilled = 7 ∧ fec.k = 8 ∧
      fec.txBlockId = 0 := by
  have henc := (freshFec_tcpFecFresh.toEncOk.pin 101).register
    (codedBuf 0 tcpFecFresh (List.replicate 100 0, true))
  obtain ⟨-, fec, hfec, hok⟩ := @codedSteps_pieces quietLink
    (codedStep quietLink codedSock (.write (List.replicate 100 0))) _ (fun _ _ => True)
    (fun _ => True) (fun _ _ _ _ _ _ _ => trivial) (List.replicate 6 (List.replicate 512 0, false))
    rfl henc ⟨trivial, trivial, trivial, trivial, trivial, trivial, trivial⟩
    (fun piece hp => by
      rw [List.eq_of_mem_replicate hp, List.length_replicate]
      exact ⟨by decide, le_rfl⟩)
  have hall : raggedSock.fec.map (fun fec => (fec.txFilled, fec.k, fec.txBlockId)) =
      some (7, 8, 0) := by
    decide +kernel
  rw [show raggedSock.fec = _ from hfec, Option.map_some, Option.some_inj, Prod.mk.injEq,
    Prod.mk.injEq] at hall
  exact ⟨fec, hfec, hok, hall⟩

theorem exists_queued_raggedSock : ∃ x rest, raggedSock.queued = x :: rest ∧
    x.tag = some { type := .source, index := 0, block := 0 } ∧ x.dlen = 100 := by
  have hhead : raggedSock.queued.head?.map (fun x => (x.tag, x.dlen)) =
      some (some { type := .source, index := 0, block := 0 }, 100) := by
    decide +kernel
  cases hq : raggedSock.queued with
  | nil => simp [hq] at hhead
  | cons x rest => exact ⟨x, rest, rfl, by simpa [hq] using hhead⟩

theorem codedStep_ragged :
    codedStep quietLink (codedStep quietLink codedSock (.write (List.replicate 100 0)))
      (.write (List.replicate 3584 0)) =
        tcpRearmUserTimeout (tcpSendPiece quietLink raggedSock (List.replicate 512 0, true)) := by
  have hpieces : tcpPieces 512 3584 (List.replicate 3584 0) =
      List.replicate 6 (List.replicate 512 0, false) ++ [(List.replicate 512 0, true)] := by
    decide +kernel
  have hwritable : (codedStep quietLink codedSock (.write (List.replicate 100 0))).writable := by
    decide +kernel
  have hmss : tcpSendMss (codedStep quietLink codedSock (.write (List.replicate 100 0))) = 512 := by
    decide +kernel
  unfold raggedSock
  generalize codedStep quietLink codedSock (.write (List.replicate 100 0)) = s at *
  rw [codedStep, tcpWrite_eq, if_pos hwritable, tcpSend, hmss, List.length_replicate, hpieces,
    List.foldl_append, List.foldl_cons, List.foldl_nil]

theorem not_blockLaid {symLen n : ℕ} {x : SkBuff} {rest : List SkBuff} {rh : FecRepairHdr}
    (htag : x.tag = some { type := .source, index := 0, block := n }) (hlen : x.dlen ≠ symLen)
    (hk : 1 < rh.k.toNat) : ¬ BlockLaid symLen (codedOf (x :: rest)) n rh := by
  have hcoded : (codedOf (x :: rest))[0]? = some x := by
    rw [codedOf, List.filter_cons_of_pos (by simp [SkBuff.isCoded, htag])]
    rfl
  rintro ⟨-, p, hlaid⟩
  obtain ⟨z, hz, -, hdlen, -, huniq⟩ := hlaid 0 (by omega)
  rw [← huniq 0 x hcoded htag, hcoded, Option.some_inj] at hz
  rw [← hz, if_neg (by omega)] at hdlen
  exact hlen hdlen

/-- The first block starts with a symbol of 100 bytes. Its repair segments say that only the last
symbol of the block may be short. -/
theorem not_laidOut_of_ragged :
    let s := [CodedEvent.write (List.replicate 100 0), .write (List.replicate 3584 0)].foldl
      (codedStep quietLink) codedSock
    ∃ t ∈ s.out, t.tag = some { type := .repair, index := 0, block := 0 } ∧
      ¬ BlockLaid 512 (codedOf s.queued) 0 (FecRepairHdr.read t.seg.payload) := by
  obtain ⟨fec, hfec, henc, hfilled, hk, hid⟩ := exists_fec_raggedSock
  obtain ⟨x, rest, hrest, hxtag, hxlen⟩ := exists_queued_raggedSock
  obtain ⟨ts, t, y, p, hout, ht, htag, hpay, -, hqueued⟩ :=
    exists_repair_of_last quietLink hfec henc (by omega) (List.replicate 512 0, true)
  rw [hid] at htag
  refine ⟨t, ?_, htag, ?_⟩
  · rw [List.foldl_cons, List.foldl_cons, List.foldl_nil, codedStep_ragged,
      out_tcpRearmUserTimeout, hout]
    exact List.mem_append_right _ ht
  · rw [List.foldl_cons, List.foldl_cons, List.foldl_nil, codedStep_ragged,
      queued_tcpRearmUserTimeout, hqueued, hrest, hpay, read_write, hk]
    exact not_blockLaid hxtag (by rw [hxlen]; decide) (by decide : 1 < (UInt8.ofNat 8).toNat)

end LvlIp.Tcp
