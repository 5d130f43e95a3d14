import LvlIp.Receive.Coding

/-!
# The receiver's block ring

The segments of a coded stream arrive in any order, any number of times, and the four slots of the
ring are recycled. Against every slot stand the symbols registered in it from the wire and the
segments spliced in from it since it was claimed (`SlotOk`). Each operation on a slot keeps the
agreement, and `tcp_fec_rx_recover` moreover leaves the slot settled: a block that can be
recovered has been.

The set of symbols that may arrive is a parameter `A`. It lets a later argument say that nothing
is spliced in from a block before a repair segment of it has arrived.
-/

namespace LvlIp.Tcp

open Fec Foundations

/-! ## Symbols of a slot -/

/-- The place of a symbol in `symbol_buf`. -/
def bufIndex (k : ℕ) : Symbol → ℕ
  | .source i => i
  | .redundant j => k + j

/-- The slot holds the symbol. -/
def TcpFecBlockRx.has (blk : TcpFecBlockRx) : Symbol → Bool
  | .source i => blk.srcPresent.getD i false
  | .redundant j => blk.redPresent.getD j false

/-- The symbols that a slot feeds to its decoder. -/
def TcpFecBlockRx.held (blk : TcpFecBlockRx) (k r : ℕ) : List Symbol :=
  ((List.range k).filter fun i => blk.srcPresent.getD i false).map .source ++
    ((List.range r).filter fun j => blk.redPresent.getD j false).map .redundant

theorem TcpFecBlockRx.feed_eq (blk : TcpFecBlockRx) (fec : TcpFec) (k : ℕ) (dec : FecDecoder ℕ) :
    blk.feed fec k dec =
      ((blk.held k fec.r).map fun s => (s, bufIndex fec.k s)).foldl FecDecoder.add dec := by
  simp only [TcpFecBlockRx.feed, TcpFecBlockRx.held, List.map_append, List.map_map,
    List.foldl_append, List.foldl_map]
  rfl

theorem TcpFecBlockRx.mem_held {blk : TcpFecBlockRx} {k r : ℕ} {s : Symbol} :
    s ∈ blk.held k r ↔ s.InRange k r ∧ blk.has s := by
  cases s <;> simp [TcpFecBlockRx.held, TcpFecBlockRx.has, Symbol.InRange]

theorem TcpFecBlockRx.nodup_held (blk : TcpFecBlockRx) (k r : ℕ) : (blk.held k r).Nodup := by
  refine List.nodup_append.mpr ⟨?_, ?_, ?_⟩
  · exact (List.nodup_range.filter _).map fun _ _ h => Symbol.source.inj h
  · exact (List.nodup_range.filter _).map fun _ _ h => Symbol.redundant.inj h
  · intro a ha b hb hab
    obtain ⟨i, -, rfl⟩ := List.mem_map.mp ha
    obtain ⟨j, -, rfl⟩ := List.mem_map.mp hb
    cases hab

/-- The symbol is a redundant one. -/
def isRedundant : Symbol → Bool
  | .source _ => false
  | .redundant _ => true

/-! ## Slots of a coded stream -/

/-- The FEC state has the geometry of the coding. -/
structure FecOf (C : Coding) (fec : TcpFec) : Prop where
  k : fec.k = C.k
  r : fec.r = C.r
  symLen : fec.symLen = C.symLen
  ctx : fec.ctx = fecRsInit

/-- The spliced segment is the one of its symbol of block `n`. -/
structure Coding.SpliceOf (C : Coding) (n : ℕ) (sp : Splice) : Prop where
  lt : sp.index < C.size n
  seq : sp.seq = C.seq n sp.index
  data : sp.data = C.symbol n sp.index

/-- The parity symbols of block `n`. -/
def Coding.parityList (C : Coding) (n : ℕ) : List Packet := (C.parity n).getD []

/-- A slot of block `n`, with the symbols registered in it and the segments spliced in from it. -/
structure SlotOk (C : Coding) (A : ℕ → Symbol → Prop) (n : ℕ) (regs : List Symbol)
    (spl : List Splice) (blk : TcpFecBlockRx) : Prop where
  blockId : blk.blockId = C.blockId n
  srcPresent_length : blk.srcPresent.length = fecBlkMaxK
  redPresent_length : blk.redPresent.length = fecBlkMaxR
  symbolBuf_length : blk.symbolBuf.length = C.k + C.r
  regs_nodup : regs.Nodup
  regs_inRange : ∀ s ∈ regs, s.InRange (C.size n) C.r
  regs_arrived : ∀ s ∈ regs, A n s
  src : ∀ i, blk.has (.source i) ↔ .source i ∈ regs ∨ ∃ sp ∈ spl, sp.index = i
  red : ∀ j, blk.has (.redundant j) ↔ .redundant j ∈ regs
  redCount : blk.redCount = (regs.filter isRedundant).length
  buf : ∀ s ∈ regs, blk.symbolBuf.getD (bufIndex C.k s) [] =
    trueSymbol (C.padded n) (C.parityList n) s
  baseSeq : regs ≠ [] → blk.baseSeq = C.seq n 0
  blkK : blk.blkK = 0 ∨ blk.blkK = C.size n ∧ blk.tailLen = C.tailLen n
  blkK_of_red : ∀ j, .redundant j ∈ regs → blk.blkK ≠ 0
  unspliced : blk.recovered = false → spl = []
  spl_nodup : (spl.map Splice.index).Nodup
  spl_of : ∀ sp ∈ spl, C.SpliceOf n sp
  spl_new : ∀ sp ∈ spl, .source sp.index ∉ regs
  spl_red : spl ≠ [] → ∃ j, .redundant j ∈ regs
  complete : blk.recovered = true → ∀ i < C.size n, blk.has (.source i)

/-- A slot between two segments: what can be recovered has been. -/
structure SlotSettled (C : Coding) (A : ℕ → Symbol → Prop) (n : ℕ) (regs : List Symbol)
    (spl : List Splice) (blk : TcpFecBlockRx) : Prop extends SlotOk C A n regs spl blk where
  active : blk.active = true
  settled : blk.recovered = false → ∀ j, .redundant j ∈ regs → regs.length < C.size n

/-- Registration, as seen from outside: a symbol the slot already holds is not taken again. -/
def TcpFecBlockRx.registered (blk : TcpFecBlockRx) (s : Symbol) (regs : List Symbol) :
    List Symbol :=
  if blk.has s then regs else regs ++ [s]

section Slot

variable {C : Coding} {A : ℕ → Symbol → Prop} {n : ℕ} {regs : List Symbol} {spl : List Splice}
  {blk : TcpFecBlockRx} {fec : TcpFec}

/-- **A claimed slot** knows nothing of its block. -/
theorem slotOk_claim (hfec : FecOf C fec) (n : ℕ)
    (hbuf : blk.symbolBuf = [] ∨ blk.symbolBuf.length = C.k + C.r) :
    SlotOk C A n [] [] (blk.claim fec (C.blockId n)) where
  blockId := rfl
  srcPresent_length := List.length_replicate
  redPresent_length := List.length_replicate
  symbolBuf_length := by
    unfold TcpFecBlockRx.claim
    dsimp only
    split
    · rw [List.length_replicate, hfec.k, hfec.r]
    · next h => exact hbuf.resolve_left h
  regs_nodup := List.nodup_nil
  regs_inRange := by simp
  regs_arrived := by simp
  src := fun i => by
    simp [TcpFecBlockRx.has, TcpFecBlockRx.claim, TcpFecBlockRx.empty]
  red := fun j => by
    simp [TcpFecBlockRx.has, TcpFecBlockRx.claim, TcpFecBlockRx.empty]
  redCount := rfl
  buf := by simp
  baseSeq := fun h => absurd rfl h
  blkK := .inl rfl
  blkK_of_red := by simp
  unspliced := fun _ => rfl
  spl_nodup := List.nodup_nil
  spl_of := by simp
  spl_new := by simp
  spl_red := fun h => absurd rfl h
  complete := fun h => by cases h

theorem bufIndex_inj {k r : ℕ} {m : ℕ} (hm : m ≤ k) {s t : Symbol} (hs : s.InRange m r)
    (ht : t.InRange m r) (h : bufIndex k s = bufIndex k t) : s = t := by
  cases s <;> cases t <;> simp only [bufIndex, Symbol.InRange, Symbol.source.injEq,
    Symbol.redundant.injEq] at * <;> omega

theorem bufIndex_lt {k r : ℕ} {m : ℕ} (hm : m ≤ k) {s : Symbol} (hs : s.InRange m r) :
    bufIndex k s < k + r := by
  cases s <;> simp only [bufIndex, Symbol.InRange] at * <;> omega

/-- A slot takes in a new symbol. -/
theorem SlotOk.insert (h : SlotOk C A n regs spl blk) (hn : n < C.blocks.length) {s : Symbol}
    {blk' : TcpFecBlockRx} (hs : s.InRange (C.size n) C.r) (hA : A n s) (hnew : ¬ blk.has s)
    (hid : blk'.blockId = blk.blockId) (hrec : blk'.recovered = blk.recovered)
    (hsrc : blk'.srcPresent.length = blk.srcPresent.length)
    (hred : blk'.redPresent.length = blk.redPresent.length)
    (hbuf : blk'.symbolBuf = blk.symbolBuf.set (bufIndex C.k s)
      (trueSymbol (C.padded n) (C.parityList n) s))
    (hhas : ∀ t, blk'.has t ↔ t = s ∨ blk.has t)
    (hcount : blk'.redCount = blk.redCount + if isRedundant s then 1 else 0)
    (hbase : blk'.baseSeq = C.seq n 0)
    (hblkK : blk'.blkK = C.size n ∧ blk'.tailLen = C.tailLen n ∨
      blk'.blkK = blk.blkK ∧ blk'.tailLen = blk.tailLen ∧ isRedundant s = false) :
    SlotOk C A n (regs ++ [s]) spl blk' where
  blockId := hid.trans h.blockId
  srcPresent_length := hsrc.trans h.srcPresent_length
  redPresent_length := hred.trans h.redPresent_length
  symbolBuf_length := by rw [hbuf, List.length_set, h.symbolBuf_length]
  regs_nodup := by
    refine List.nodup_append.mpr ⟨h.regs_nodup, List.nodup_singleton s, fun t ht u hu htu => hnew ?_⟩
    rw [List.mem_singleton.mp hu] at htu
    subst htu
    cases t with
    | source i => exact (h.src i).mpr (.inl ht)
    | redundant j => exact (h.red j).mpr ht
  regs_inRange := by
    intro t ht
    rcases List.mem_append.mp ht with ht | ht
    · exact h.regs_inRange t ht
    · exact List.mem_singleton.mp ht ▸ hs
  regs_arrived := by
    intro t ht
    rcases List.mem_append.mp ht with ht | ht
    · exact h.regs_arrived t ht
    · exact List.mem_singleton.mp ht ▸ hA
  src := fun i => by
    rw [hhas, h.src, List.mem_append, List.mem_singleton, or_assoc, or_left_comm]
  red := fun j => by
    rw [hhas, h.red, List.mem_append, List.mem_singleton, or_comm]
  redCount := by
    rw [hcount, h.redCount, List.filter_append, List.length_append]
    cases hr : isRedundant s <;> simp [hr]
  buf := by
    intro t ht
    have hle : C.size n ≤ C.k := (Coding.blockOk hn).le
    have hlt := bufIndex_lt hle hs
    rw [hbuf, List.getD_eq_getElem?_getD, List.getElem?_set]
    split
    · next heq =>
      have htin : t.InRange (C.size n) C.r := by
        rcases List.mem_append.mp ht with ht | ht
        · exact h.regs_inRange t ht
        · exact List.mem_singleton.mp ht ▸ hs
      rw [← bufIndex_inj hle hs htin heq, if_pos (by rw [h.symbolBuf_length]; exact hlt)]
      rfl
    · next hne =>
      rw [← List.getD_eq_getElem?_getD]
      refine h.buf t ((List.mem_append.mp ht).resolve_right fun ht => hne ?_)
      rw [List.mem_singleton.mp ht]
  baseSeq := fun _ => hbase
  blkK := by
    rcases hblkK with hK | ⟨hK, htail, -⟩
    · exact .inr hK
    · rw [hK, htail]
      exact h.blkK
  blkK_of_red := by
    intro j hj
    have hpos : 0 < C.size n := (Coding.blockOk hn).pos
    rcases hblkK with hK | ⟨hK, -, hr⟩
    · rw [hK.1]
      exact hpos.ne'
    · rw [hK]
      refine h.blkK_of_red j ((List.mem_append.mp hj).resolve_right fun hj => ?_)
      rw [← List.mem_singleton.mp hj] at hr
      cases hr
  unspliced := fun hr => h.unspliced (hrec ▸ hr)
  spl_nodup := h.spl_nodup
  spl_of := h.spl_of
  spl_new := by
    intro sp hsp hmem
    refine h.spl_new sp hsp ((List.mem_append.mp hmem).resolve_right fun hmem => hnew ?_)
    rw [← List.mem_singleton.mp hmem]
    exact (h.src sp.index).mpr (.inr ⟨sp, hsp, rfl⟩)
  spl_red := fun hne => (h.spl_red hne).imp fun _ hj => List.mem_append_left _ hj
  complete := fun hr i hi => (hhas _).mpr (.inr (h.complete (hrec ▸ hr) i hi))

theorem getD_set_true (l : List Bool) {i : ℕ} (hi : i < l.length) (j : ℕ) :
    (l.set i true).getD j false = true ↔ j = i ∨ l.getD j false = true := by
  rw [List.getD_eq_getElem?_getD, List.getElem?_set, List.getD_eq_getElem?_getD]
  by_cases hij : i = j
  · simp [hij, hij ▸ hi]
  · simp [hij, Ne.symm hij]

theorem Coding.seq_sub (C : Coding) (n i : ℕ) :
    C.seq n i - UInt32.ofNat (i * C.symLen) = C.seq n 0 := by
  rw [Coding.seq, Coding.seq, ← seqAt_add, add_sub_cancel_right, Nat.zero_mul, Nat.add_zero]

/-- **Registering a source segment.** -/
theorem SlotOk.addSource (h : SlotOk C A n regs spl blk) (hfec : FecOf C fec)
    (hn : n < C.blocks.length) {i : ℕ} {skb : SkBuff} (hi : i < C.size n) (hA : A n (.source i))
    (hseq : skb.seq = C.seq n i) (hpay : skb.payload = C.symbol n i) :
    SlotOk C A n (blk.registered (.source i) regs) spl (blk.addSource fec i skb) := by
  unfold TcpFecBlockRx.addSource TcpFecBlockRx.registered
  by_cases hhas : blk.has (.source i)
  · rw [if_pos hhas, if_pos (show blk.srcPresent.getD i false = true from hhas)]
    exact h
  rw [if_neg hhas, if_neg (show ¬ blk.srcPresent.getD i false = true from hhas)]
  have hle : C.size n ≤ C.k := (Coding.blockOk hn).le
  have hi128 : i < blk.srcPresent.length := by
    have := C.k_le
    rw [h.srcPresent_length]
    omega
  have hsym : trueSymbol (C.padded n) (C.parityList n) (.source i) =
      padSymbol fec.symLen skb.payload := by
    rw [trueSymbol, Coding.getD_padded hi, hfec.symLen, hpay]
  have hbase : skb.seq - UInt32.ofNat (i * fec.symLen) = C.seq n 0 := by
    rw [hseq, hfec.symLen, C.seq_sub]
  have hset : ∀ t : Symbol, (match t with
      | .source i' => (blk.srcPresent.set i true).getD i' false
      | .redundant j => blk.redPresent.getD j false) = true ↔ t = .source i ∨ blk.has t := by
    rintro (i' | j)
    · simp only [getD_set_true _ hi128, TcpFecBlockRx.has, Symbol.source.injEq]
    · simp only [TcpFecBlockRx.has, reduceCtorEq, false_or]
  dsimp only
  split
  · -- only the last symbol of the block is short
    next hshort =>
    have hlen : skb.dlen = C.tailLen n ∧ i + 1 = C.size n := by
      have hlen := Coding.length_symbol hn hi
      rw [← hpay] at hlen
      rw [hfec.symLen] at hshort
      unfold SkBuff.dlen at *
      split at hlen <;> omega
    refine h.insert hn hi hA hhas rfl rfl List.length_set rfl ?_ hset rfl hbase
      (.inl ⟨hlen.2, hlen.1⟩)
    rw [hsym]
    rfl
  · refine h.insert hn hi hA hhas rfl rfl List.length_set rfl ?_ hset rfl hbase
      (.inr ⟨rfl, rfl, rfl⟩)
    rw [hsym]
    rfl

theorem Coding.parity_parityList (hn : n < C.blocks.length) :
    C.parity n = some (C.parityList n) := by
  rw [Coding.parityList, Coding.parity_eq hn]
  rfl

theorem Coding.length_getD_parityList (hn : n < C.blocks.length) {j : ℕ} (hj : j < C.r) :
    ((C.parityList n).getD j []).length = C.symLen := by
  have hj' : j < (fecRedX (C.size n) C.r none).length := by
    rw [(fecEncoderInit_default (α := Packet) (Coding.geometry_size hn) C.symLen).1.redX_length]
    exact hj
  rw [Coding.parityList, Coding.parity_eq hn, Option.getD_some, blockParity,
    List.getD_eq_getElem _ _ (by rwa [List.length_map]), List.getElem_map, evalPacket,
    List.length_map, List.length_range]

/-- **Registering a repair segment.** Its header is believed even when its symbol is not new. -/
theorem SlotOk.addRepair (h : SlotOk C A n regs spl blk) (hfec : FecOf C fec)
    (hn : n < C.blocks.length) {j : ℕ} {skb : SkBuff} {rh : FecRepairHdr} (hj : j < C.r)
    (hA : A n (.redundant j)) (hk : rh.k.toNat = C.size n) (hbase : rh.baseSeq = C.seq n 0)
    (htail : rh.tailLen.toNat = C.tailLen n)
    (hpay : skb.payload = rh.write ++ (C.parityList n).getD j []) :
    SlotOk C A n (blk.registered (.redundant j) regs) spl (blk.addRepair fec j skb) := by
  have hlearn : SlotOk C A n regs spl
      { blk with baseSeq := rh.baseSeq, tailLen := rh.tailLen.toNat, blkK := rh.k.toNat } :=
    { h with
      baseSeq := fun _ => hbase
      blkK := .inr ⟨hk, htail⟩
      blkK_of_red := fun _ _ => by
        rw [hk]
        exact (Coding.blockOk hn).pos.ne' }
  have hsym : trueSymbol (C.padded n) (C.parityList n) (.redundant j) =
      (skb.payload.drop fecRepairHdrLen).take fec.symLen := by
    rw [hpay, ← length_write rh, List.drop_left, List.take_of_length_le]
    · rfl
    · rw [hfec.symLen, Coding.length_getD_parityList hn hj]
  unfold TcpFecBlockRx.addRepair TcpFecBlockRx.registered
  rw [hpay, read_write, ← hpay]
  by_cases hhas : blk.has (.redundant j)
  · rw [if_pos hhas, if_pos (show blk.redPresent.getD j false = true from hhas)]
    exact hlearn
  rw [if_neg hhas, if_neg (show ¬ blk.redPresent.getD j false = true from hhas)]
  have hj32 : j < blk.redPresent.length := by
    have := C.r_le
    rw [h.redPresent_length]
    omega
  refine hlearn.insert hn hj hA hhas rfl rfl rfl List.length_set ?_ ?_ rfl hbase
    (.inl ⟨hk, htail⟩)
  · rw [hsym, ← hfec.k]
    rfl
  · rintro (i | j')
    · simp only [TcpFecBlockRx.has, reduceCtorEq, false_or]
    · simp only [getD_set_true _ hj32, TcpFecBlockRx.has, Symbol.redundant.injEq]

/-! ## Recovery -/

theorem SlotOk.has_of_mem (h : SlotOk C A n regs spl blk) {s : Symbol} (hs : s ∈ regs) :
    blk.has s := by
  cases s with
  | source i => exact (h.src i).mpr (.inl hs)
  | redundant j => exact (h.red j).mpr hs

theorem SlotOk.mem_of_has (h : SlotOk C A n regs [] blk) {s : Symbol} (hs : blk.has s) :
    s ∈ regs := by
  cases s with
  | source i => simpa using (h.src i).mp hs
  | redundant j => exact (h.red j).mp hs

/-- Before a recovery the slot holds what has been registered. -/
theorem SlotOk.held_perm (h : SlotOk C A n regs [] blk) :
    (blk.held (C.size n) C.r).Perm regs := by
  refine (List.perm_ext_iff_of_nodup (blk.nodup_held _ _) h.regs_nodup).mpr fun s => ?_
  rw [TcpFecBlockRx.mem_held]
  exact ⟨fun hs => h.mem_of_has hs.2, fun hs => ⟨h.regs_inRange s hs, h.has_of_mem hs⟩⟩

/-- The counts that `tcp_fec_rx_recover` compares. -/
theorem SlotOk.length_regs (h : SlotOk C A n regs [] blk) :
    ((List.range (C.size n)).filter fun i => blk.srcPresent.getD i false).length + blk.redCount =
      regs.length := by
  have hred : (blk.held (C.size n) C.r).filter isRedundant =
      ((List.range C.r).filter fun j => blk.redPresent.getD j false).map .redundant := by
    rw [TcpFecBlockRx.held, List.filter_append, List.filter_map, List.filter_map]
    simp [Function.comp_def, isRedundant]
  rw [h.redCount, ← (h.held_perm.filter isRedundant).length_eq, hred, ← h.held_perm.length_eq,
    TcpFecBlockRx.held, List.length_append, List.length_map, List.length_map]

/-- The symbols that recovery writes: the sources that have not been registered. -/
def Coding.missing (C : Coding) (n : ℕ) (regs : List Symbol) : List (Option Packet) :=
  (List.range (C.size n)).map fun i =>
    if .source i ∈ regs then none else some ((C.padded n).getD i [])

theorem Coding.getD_missing (C : Coding) (n : ℕ) (regs : List Symbol) (i : ℕ) :
    (C.missing n regs).getD i none =
      if i < C.size n ∧ .source i ∉ regs then some ((C.padded n).getD i []) else none := by
  rw [Coding.missing, List.getD_eq_getElem?_getD, List.getElem?_map]
  rcases Nat.lt_or_ge i (C.size n) with hi | hi
  · rw [List.getElem?_range hi]
    by_cases hs : Symbol.source i ∈ regs <;> simp [hi, hs]
  · rw [List.getElem?_eq_none (by simpa using hi), if_neg (by omega)]
    rfl

/-- **The decoder finds the missing symbols** of a block with enough symbols. -/
theorem SlotOk.decode (h : SlotOk C A n regs [] blk) (hfec : FecOf C fec)
    (hn : n < C.blocks.length) (hlen : C.size n ≤ regs.length) :
    ∃ dec, fecDecoderInit fec.ctx (C.size n) fec.r fec.symLen none = some dec ∧
      fecDecoderRecoverable (blk.feed fec (C.size n) dec) ∧
      fecDecoderRecover (fun p => blk.symbolBuf.getD p []) (blk.feed fec (C.size n) dec) =
        some (C.missing n regs) := by
  have hgeo := Coding.geometry_size hn
  have hpts := (fecEncoderInit_default (α := Packet) hgeo C.symLen).1
  rw [hfec.ctx, hfec.r, hfec.symLen]
  obtain ⟨dec, hinit, hctx, hk, hr, hsl, hsx, hrx, hreset⟩ := exists_fecDecoderInit hgeo C.symLen
  refine ⟨dec, hinit, ?_⟩
  have hrange : ∀ p ∈ (blk.held (C.size n) C.r).map fun s => (s, bufIndex fec.k s),
      p.1.InRange dec.k dec.r := by
    intro p hp
    obtain ⟨s, hs, rfl⟩ := List.mem_map.mp hp
    rw [hk, hr]
    exact (TcpFecBlockRx.mem_held.mp hs).1
  have hfst : ((blk.held (C.size n) C.r).map fun s => (s, bufIndex fec.k s)).map Prod.fst =
      blk.held (C.size n) C.r := by
    rw [List.map_map]
    exact List.map_id _
  have hcard : (blk.held (C.size n) C.r).toFinset.card = regs.length := by
    rw [List.toFinset_card_of_nodup (blk.nodup_held _ _), h.held_perm.length_eq]
  have hfed := fed_foldl (hreset ▸ fecDecoderReset_ok dec)
    (fun s => hreset ▸ slot_fecDecoderReset dec s) (by rw [← hreset]; rfl) _ hrange
  have hrec := fecDecoderRecover_of_fed hctx (by rwa [hk, hr, hsx, hrx]) hfed hrange
    (fun p => blk.symbolBuf.getD p []) (by rw [hk, Coding.length_padded])
    (fun y hy => by rw [hsl, Coding.length_of_mem_padded hy]) (by
      intro s a hsa
      obtain ⟨t, ht, hta⟩ := List.mem_map.mp (mem_of_lookup_eq_some hsa)
      cases hta
      rw [hfec.k, h.buf s (h.held_perm.mem_iff.mp ht), Coding.parityList, Coding.parity_eq hn, hsx,
        hrx, hsl]
      rfl)
  rw [TcpFecBlockRx.feed_eq, hfec.r]
  refine ⟨?_, ?_⟩
  · have hcount := hfed.count
    have hk' := hfed.params.2.1
    rw [hfst, hcard] at hcount
    simp only [fecDecoderRecoverable, decide_eq_true_eq]
    omega
  · rw [hrec, hfst, hcard, hk, if_neg (by omega), Coding.missing]
    simp only [h.held_perm.mem_iff]

theorem TcpFecBlockRx.map_index_splices (blk : TcpFecBlockRx) (fec : TcpFec) (k : ℕ)
    (out : List (Option Packet)) :
    (blk.splices fec k out).map Splice.index =
      (List.range k).filter fun i => (out.getD i none).isSome := by
  rw [TcpFecBlockRx.splices, List.map_filterMap, ← List.filterMap_eq_filter]
  congr 1
  funext i
  rw [Option.guard]
  cases out.getD i none <;> rfl

theorem TcpFecBlockRx.exists_index_splices (blk : TcpFecBlockRx) (fec : TcpFec) (k : ℕ)
    (out : List (Option Packet)) (i : ℕ) :
    (∃ sp ∈ blk.splices fec k out, sp.index = i) ↔ i < k ∧ (out.getD i none).isSome := by
  rw [← List.mem_map, blk.map_index_splices, List.mem_filter, List.mem_range]

/-- **What is spliced in is the stream**: the right bytes, at the right place, with the right
length. -/
theorem SlotOk.spliceOf (h : SlotOk C A n regs [] blk) (hfec : FecOf C fec)
    (hn : n < C.blocks.length) (hne : regs ≠ []) (hK : blk.blkK ≠ 0) :
    ∀ sp ∈ blk.splices fec (C.size n) (C.missing n regs), C.SpliceOf n sp := by
  intro sp hsp
  obtain ⟨i, hi, hmap⟩ := List.mem_filterMap.mp hsp
  rw [Coding.getD_missing] at hmap
  rw [List.mem_range] at hi
  split at hmap
  · rw [Option.map_some, Option.some_inj] at hmap
    subst hmap
    refine ⟨hi, ?_, ?_⟩
    · dsimp only
      rw [h.baseSeq hne, hfec.symLen, Coding.seq, Coding.seq, seqAt_add, Nat.zero_mul, Nat.add_zero]
    · have htail := (h.blkK.resolve_left hK).2
      have hlen := Coding.length_symbol hn hi
      have hpos : 0 < C.tailLen n := (Coding.blockOk hn).tail_pos
      have hle : C.tailLen n ≤ C.symLen := (Coding.blockOk hn).tail_le
      have hcut : blk.spliceLen fec (C.size n) i = (C.symbol n i).length := by
        rw [TcpFecBlockRx.spliceLen, htail, hfec.symLen]
        split <;> split at hlen <;> omega
      dsimp only
      rw [hcut, Coding.getD_padded hi]
      exact take_padSymbol ((Coding.blockOk hn).length_symbol_le hi)
  · cases hmap

theorem TcpFecBlockRx.has_filled {blk : TcpFecBlockRx} {k : ℕ} (hk : k ≤ blk.srcPresent.length)
    (out : List (Option Packet)) (i : ℕ) :
    (blk.filled k out).has (.source i) ↔ blk.has (.source i) ∨ i < k := by
  simp only [TcpFecBlockRx.has, TcpFecBlockRx.filled, List.getD_eq_getElem?_getD,
    List.getElem?_mapIdx]
  rcases Nat.lt_or_ge i blk.srcPresent.length with hi | hi
  · simp [hi]
  · simp [hi]
    omega

/-- **The slot after a recovery.** -/
theorem SlotOk.filled (h : SlotOk C A n regs [] blk) (hfec : FecOf C fec)
    (hn : n < C.blocks.length) (hred : ∃ j, .redundant j ∈ regs) :
    SlotOk C A n regs (blk.splices fec (C.size n) (C.missing n regs))
      (blk.filled (C.size n) (C.missing n regs)) := by
  obtain ⟨jr, hjr⟩ := hred
  have hle : C.size n ≤ C.k := (Coding.blockOk hn).le
  have hk : C.size n ≤ blk.srcPresent.length := by
    rw [h.srcPresent_length]
    exact hle.trans C.k_le
  have hsome : ∀ i, (∃ sp ∈ blk.splices fec (C.size n) (C.missing n regs), sp.index = i) ↔
      i < C.size n ∧ .source i ∉ regs := by
    intro i
    rw [TcpFecBlockRx.exists_index_splices, Coding.getD_missing]
    by_cases hi : i < C.size n ∧ Symbol.source i ∉ regs
    · simp [hi]
    · simp [hi]
  exact
    { h with
      srcPresent_length := by
        rw [TcpFecBlockRx.filled, List.length_mapIdx, h.srcPresent_length]
      symbolBuf_length := by
        rw [TcpFecBlockRx.filled, List.length_mapIdx, h.symbolBuf_length]
      src := fun i => by
        rw [TcpFecBlockRx.has_filled hk, hsome]
        constructor
        · rintro (hi | hi)
          · exact .inl (h.mem_of_has hi)
          · by_cases hs : Symbol.source i ∈ regs
            · exact .inl hs
            · exact .inr ⟨hi, hs⟩
        · rintro (hi | hi)
          · exact .inl (h.has_of_mem hi)
          · exact .inr hi.1
      buf := by
        intro s hs
        -- recovery writes only over symbols that were not registered
        have hnone : (C.missing n regs).getD (bufIndex C.k s) none = none := by
          rw [Coding.getD_missing, if_neg]
          rintro ⟨hlt, hnot⟩
          cases s with
          | source i => exact hnot hs
          | redundant j =>
            simp only [bufIndex] at hlt
            omega
        rw [← h.buf s hs]
        simp only [TcpFecBlockRx.filled]
        rw [List.getD_eq_getElem?_getD, List.getElem?_mapIdx, hnone, List.getD_eq_getElem?_getD]
        cases blk.symbolBuf[bufIndex C.k s]? <;> rfl
      unspliced := fun hr => by cases hr
      spl_nodup := by
        rw [TcpFecBlockRx.map_index_splices]
        exact List.nodup_range.filter _
      spl_of := h.spliceOf hfec hn (List.ne_nil_of_mem hjr) (h.blkK_of_red jr hjr)
      spl_new := fun sp hsp => ((hsome sp.index).mp ⟨sp, hsp, rfl⟩).2
      spl_red := fun _ => ⟨jr, hjr⟩
      complete := fun _ i hi => (TcpFecBlockRx.has_filled hk _ i).mpr (.inr hi) }

theorem SlotOk.count (h : SlotOk C A n regs spl blk) (hfec : FecOf C fec)
    (hn : n < C.blocks.length) :
    blk.blkK ≠ 0 ∧ blk.count fec = C.size n ∨ blk.blkK = 0 ∧ blk.count fec = C.k := by
  have hpos : 0 < C.size n := (Coding.blockOk hn).pos
  unfold TcpFecBlockRx.count
  rcases h.blkK with hK | ⟨hK, -⟩
  · rw [if_neg (by simpa using hK)]
    exact .inr ⟨hK, hfec.k⟩
  · rw [if_pos (by omega)]
    exact .inl ⟨by omega, hK⟩

theorem SlotOk.exists_redundant (h : SlotOk C A n regs spl blk) (hpos : 0 < blk.redCount) :
    ∃ j, .redundant j ∈ regs := by
  rw [h.redCount] at hpos
  obtain ⟨s, hs⟩ := List.exists_mem_of_length_pos hpos
  obtain ⟨hs, hred⟩ := List.mem_filter.mp hs
  cases s with
  | source i => cases hred
  | redundant j => exact ⟨j, hs⟩

/-- **`tcp_fec_rx_recover` settles the slot.** -/
theorem SlotOk.recover (h : SlotOk C A n regs spl blk) (hact : blk.active = true)
    (hfec : FecOf C fec) (hn : n < C.blocks.length) :
    SlotSettled C A n regs (spl ++ (tcpFecRxRecover fec blk).2) (tcpFecRxRecover fec blk).1 := by
  have hpos : 0 < C.size n := (Coding.blockOk hn).pos
  have hle : C.size n ≤ C.k := (Coding.blockOk hn).le
  have hcount := h.count hfec hn
  unfold tcpFecRxRecover
  dsimp only
  split
  · next hr =>
    rw [List.append_nil]
    exact { h with active := hact, settled := fun hr' => by rw [hr] at hr'; cases hr' }
  next hr =>
  obtain rfl := h.unspliced (by simpa using hr)
  have hlen := h.length_regs
  rw [hfec.k, if_neg (by rcases hcount with ⟨-, hc⟩ | ⟨-, hc⟩ <;> omega), List.nil_append]
  split
  · -- every source of the block has arrived
    next hmissing =>
    have hall : ∀ i < blk.count fec, blk.has (.source i) := by
      intro i hi
      have hfull : ((List.range (blk.count fec)).filter fun i =>
          blk.srcPresent.getD i false).length = (List.range (blk.count fec)).length := by
        have := List.length_filter_le (fun i => blk.srcPresent.getD i false)
          (List.range (blk.count fec))
        rw [List.length_range] at *
        omega
      exact List.length_filter_eq_length_iff.mp hfull i (List.mem_range.mpr hi)
    exact
      { h with
        active := hact
        unspliced := fun hr => by cases hr
        complete := fun _ i hi => hall i (by rcases hcount with ⟨-, hc⟩ | ⟨-, hc⟩ <;> omega)
        settled := fun hr => by cases hr }
  next hmissing =>
  split
  · next hfew =>
    refine { h with active := hact, settled := fun _ j hj => ?_ }
    obtain ⟨-, hc⟩ := hcount.resolve_right fun hc => h.blkK_of_red j hj hc.1
    rw [hc] at hfew
    omega
  · -- at least one repair segment has arrived, so the size of the block is known
    next henough =>
    have hred : ∃ j, .redundant j ∈ regs := h.exists_redundant (by omega)
    obtain ⟨-, hc⟩ := hcount.resolve_right fun hc => by
      obtain ⟨j, hj⟩ := hred
      exact h.blkK_of_red j hj hc.1
    rw [hc] at hmissing henough ⊢
    obtain ⟨dec, hinit, hrecoverable, hrec⟩ := h.decode hfec hn (by omega)
    rw [hinit]
    dsimp only
    rw [if_neg (by simpa using hrecoverable), hrec]
    exact { h.filled hfec hn hred with active := hact, settled := fun hr => by cases hr }

end Slot

end LvlIp.Tcp
