import LvlIp.Fec.Recoverable
import LvlIp.Receive.SackSound

/-!
# What the FEC section rebuilds

The symbols that a slot of the block ring rebuilds, whatever has been registered in it: when no more
symbols of the block are missing than parities have arrived, the missing ones, and else none
(`map_tcpFecRxRecover`). The receiver knows of a block what its slot and the header of the segment say
(`tcpFecKnown`), and rebuilds one or two symbols at a time.
-/

namespace LvlIp.Tcp

open Fec

/-! ## The parities of a slot -/

/-- The parities of the slot are counted. -/
structure SlotCounted (fec : TcpFec) (blk : TcpFecBlockRx) : Prop where
  srcLength : blk.srcPresent.length = fecBlkMaxK
  redLength : blk.redPresent.length = fecBlkMaxR
  count : blk.redCount = ((List.range fec.r).filter fun j => blk.redPresent.getD j false).length

/-- The geometry of the ring is the default one, and the parities of every slot are counted. -/
structure RingCounted (fec : TcpFec) : Prop where
  k : fec.k = tcpFecDefaultK
  r : fec.r = tcpFecDefaultR
  symLen : fec.symLen = tcpFecDefaultSymLen
  ctx : fec.ctx = fecRsInit
  slots : ∀ blk ∈ fec.rx, SlotCounted fec blk

theorem slotCounted_empty (fec : TcpFec) : SlotCounted fec .empty := by
  refine ⟨List.length_replicate, List.length_replicate, ?_⟩
  simp [TcpFecBlockRx.empty]

/-- The same parities. -/
theorem SlotCounted.of_eq {fec fec' : TcpFec} {blk blk' : TcpFecBlockRx} (h : SlotCounted fec blk)
    (hr : fec'.r = fec.r) (hsrc : blk'.srcPresent.length = blk.srcPresent.length)
    (hpresent : blk'.redPresent = blk.redPresent) (hcount : blk'.redCount = blk.redCount) :
    SlotCounted fec' blk' := by
  refine ⟨hsrc.trans h.srcLength, ?_, ?_⟩
  · rw [hpresent]
    exact h.redLength
  · rw [hr, hpresent, hcount]
    exact h.count

/-- The property of the ring. -/
def countedRing : RingProp where
  holds := RingCounted
  fresh := by
    refine ⟨rfl, rfl, rfl, rfl, fun blk hblk => ?_⟩
    rw [List.eq_of_mem_replicate hblk]
    exact slotCounted_empty _
  same h hfec := by
    refine ⟨h.k.trans hfec.k, h.r.trans hfec.r, h.symLen.trans hfec.symLen, h.ctx.trans hfec.ctx,
      fun blk hblk => ?_⟩
    rw [h.rx] at hblk
    exact (hfec.slots blk hblk).of_eq h.r rfl rfl rfl

section Counted

variable {fec : TcpFec} {blk : TcpFecBlockRx}

theorem RingCounted.slot (h : RingCounted fec) (blockId : UInt32) :
    SlotCounted fec (tcpFecRxSlot fec blockId).2 := by
  unfold tcpFecRxSlot
  split
  · next i _ =>
    dsimp only
    rw [List.getD_eq_getElem?_getD]
    cases hget : fec.rx[i]? with
    | none => exact slotCounted_empty fec
    | some blk => exact h.slots blk (List.mem_of_getElem? hget)
  · exact (slotCounted_empty fec).of_eq rfl rfl rfl rfl

theorem SlotCounted.addSource (h : SlotCounted fec blk) (idx : ℕ) (skb : SkBuff) :
    SlotCounted fec (blk.addSource fec idx skb) := by
  unfold TcpFecBlockRx.addSource
  split
  · exact h
  · dsimp only
    split <;> exact h.of_eq rfl List.length_set rfl rfl

/-- A flag that is set for the first time. -/
theorem length_filter_set {l : List Bool} {i n : ℕ} (hi : i < l.length) (hn : i < n)
    (hnew : l.getD i false = false) :
    ((List.range n).filter fun j => (l.set i true).getD j false).length =
      ((List.range n).filter fun j => l.getD j false).length + 1 := by
  induction n with
  | zero => exact absurd hn (Nat.not_lt_zero i)
  | succ n ih =>
    rw [List.range_succ, List.filter_append, List.filter_append, List.length_append,
      List.length_append]
    have hset : ∀ j, (l.set i true).getD j false = (decide (j = i) || l.getD j false) := by
      intro j
      rw [Bool.eq_iff_iff, getD_set_true l hi, Bool.or_eq_true, decide_eq_true_iff]
    rcases Nat.lt_succ_iff_lt_or_eq.mp hn with hlt | rfl
    · have hlast : (l.set i true).getD n false = l.getD n false := by
        rw [hset, decide_eq_false (by omega), Bool.false_or]
      rw [ih hlt, List.filter_singleton, List.filter_singleton, hlast]
      omega
    · have hbefore : ((List.range i).filter fun j => (l.set i true).getD j false) =
          (List.range i).filter fun j => l.getD j false := by
        refine List.filter_congr fun j hj => ?_
        rw [hset, decide_eq_false (List.mem_range.mp hj).ne, Bool.false_or]
      rw [hbefore, List.filter_singleton, List.filter_singleton, hset, hnew]
      simp

theorem SlotCounted.addRepair (h : SlotCounted fec blk) {idx : ℕ} (hidx : idx < fec.r)
    (hr : fec.r ≤ fecBlkMaxR) (skb : SkBuff) : SlotCounted fec (blk.addRepair fec idx skb) := by
  unfold TcpFecBlockRx.addRepair
  dsimp only
  split
  · exact h.of_eq rfl rfl rfl rfl
  · next hnew =>
    refine ⟨h.srcLength, List.length_set.trans h.redLength, ?_⟩
    dsimp only
    rw [length_filter_set (by rw [h.redLength]; omega) hidx (Bool.eq_false_of_not_eq_true hnew), h.count]

theorem SlotCounted.recover (h : SlotCounted fec blk) : SlotCounted fec (tcpFecRxRecover fec blk).1 := by
  unfold tcpFecRxRecover
  dsimp only
  repeat' split
  any_goals exact h.of_eq rfl rfl rfl rfl
  exact h.of_eq rfl List.length_mapIdx rfl rfl

/-- **The parities stay counted** when a segment arrives. -/
theorem RingCounted.rx (h : RingCounted fec) (skb : SkBuff) : RingCounted (tcpFecRx fec skb).1 := by
  have hput : ∀ (i : ℕ) (blk : TcpFecBlockRx), SlotCounted fec blk →
      RingCounted { fec with rx := fec.rx.set i blk } := by
    intro i blk hblk
    refine ⟨h.k, h.r, h.symLen, h.ctx, fun y hy => ?_⟩
    rcases List.mem_or_eq_of_mem_set hy with hy | rfl
    · exact (h.slots y hy).of_eq rfl rfl rfl rfl
    · exact hblk.of_eq rfl rfl rfl rfl
  have hslot := h.slot (TcpOptFec.read skb.th.data).blockId
  have hr : fec.r ≤ fecBlkMaxR := by
    rw [h.r]
    decide
  unfold tcpFecRx
  dsimp only
  split
  · split
    · split
      · exact hput _ _ hslot
      · exact hput _ _ (hslot.addSource _ skb).recover
    · split
      · split
        · exact hput _ _ hslot
        · next hidx => exact hput _ _ (hslot.addRepair (by omega) hr skb).recover
      · exact hput _ _ hslot
  · exact h

end Counted

/-! ## What a slot rebuilds -/

/-- The symbols of its block that the slot does not hold. -/
def TcpFecBlockRx.missing (blk : TcpFecBlockRx) (fec : TcpFec) : List ℕ :=
  (List.range (blk.count fec)).filter fun i => !blk.srcPresent.getD i false

/-- The parities make up for the symbols that the slot does not hold. -/
def TcpFecBlockRx.Rebuilds (blk : TcpFecBlockRx) (fec : TcpFec) : Prop :=
  blk.recovered = false ∧ blk.count fec ≤ fec.k ∧ blk.missing fec ≠ [] ∧
    (blk.missing fec).length ≤ blk.redCount

instance (blk : TcpFecBlockRx) (fec : TcpFec) : Decidable (blk.Rebuilds fec) :=
  inferInstanceAs (Decidable (_ ∧ _ ∧ _ ∧ _))

/-- The sequence number and the length of a symbol that is rebuilt. -/
def TcpFecBlockRx.place (blk : TcpFecBlockRx) (fec : TcpFec) (i : ℕ) : UInt32 × ℕ :=
  (blk.baseSeq + UInt32.ofNat (i * fec.symLen), blk.spliceLen fec (blk.count fec) i)

section Missing

variable {fec : TcpFec} {blk : TcpFecBlockRx}

/-- The symbols that the slot does and does not hold make up the block. -/
theorem TcpFecBlockRx.length_missing (blk : TcpFecBlockRx) (fec : TcpFec) :
    ((List.range (blk.count fec)).filter fun i => blk.srcPresent.getD i false).length +
      (blk.missing fec).length = blk.count fec := by
  have hsum := List.length_eq_length_filter_add (l := List.range (blk.count fec))
    fun i => blk.srcPresent.getD i false
  rw [List.length_range] at hsum
  exact hsum.symm

theorem TcpFecBlockRx.lt_of_mem_missing {i : ℕ} (hi : i ∈ blk.missing fec) : i < blk.count fec :=
  List.mem_range.mp (List.mem_filter.mp hi).1

theorem TcpFecBlockRx.spliceLen_le (blk : TcpFecBlockRx) (fec : TcpFec) (k i : ℕ) :
    blk.spliceLen fec k i ≤ fec.symLen := by
  unfold TcpFecBlockRx.spliceLen
  split
  · next h => exact h.2.2.le
  · exact le_rfl

/-- A symbol before the last one is full. -/
theorem TcpFecBlockRx.spliceLen_of_lt {k i : ℕ} (hi : i + 1 < k) :
    blk.spliceLen fec k i = fec.symLen := by
  unfold TcpFecBlockRx.spliceLen
  rw [if_neg fun h => absurd h.1 (by omega)]

/-- What recovery writes goes to the places of the missing symbols. -/
theorem TcpFecBlockRx.map_place_splices {f : ℕ → Packet} (hlen : ∀ i, (f i).length = fec.symLen) :
    (blk.splices fec (blk.count fec) ((List.range (blk.count fec)).map fun i =>
      if blk.srcPresent.getD i false then none else some (f i))).map
        (fun sp => (sp.seq, sp.data.length)) = (blk.missing fec).map (blk.place fec) := by
  unfold TcpFecBlockRx.splices TcpFecBlockRx.missing
  rw [List.map_filterMap, ← congrFun (List.filterMap_eq_map (f := blk.place fec)),
    List.filterMap_filter]
  refine List.filterMap_congr fun i hi => ?_
  rw [List.mem_range] at hi
  rw [List.getD_eq_getElem _ _ (by simpa using hi), List.getElem_map, List.getElem_range]
  cases blk.srcPresent.getD i false with
  | true => rfl
  | false =>
    have hcut : ((f i).take (blk.spliceLen fec (blk.count fec) i)).length =
        blk.spliceLen fec (blk.count fec) i := by
      rw [List.length_take, hlen]
      exact Nat.min_eq_left (blk.spliceLen_le fec _ i)
    simp [TcpFecBlockRx.place, hcut]

/-- The decoder of the block after it has been fed: it has the sources that the slot has, and a symbol
for each of them and for each parity. -/
theorem SlotCounted.fed (hblk : SlotCounted fec blk) (h : RingCounted fec)
    (hgeo : fecGeometryOk (blk.count fec : ℕ) (fec.r : ℕ)) : ∃ dec₀ dec : FecDecoder ℕ,
      fecDecoderInit fec.ctx (blk.count fec) fec.r fec.symLen none = some dec₀ ∧
      blk.feed fec (blk.count fec) dec₀ = dec ∧ dec.ctx = fecRsInit ∧ dec.k = blk.count fec ∧
      dec.symLen = fec.symLen ∧ PointsOk dec.k dec.r dec.srcX dec.redX ∧ DecoderOk dec ∧
      (∀ i < blk.count fec, (dec.src.getD i none).isSome = blk.srcPresent.getD i false) ∧
      dec.srcCount + dec.redCount + (blk.missing fec).length = blk.count fec + blk.redCount := by
  have hsum := blk.length_missing fec
  have hpts := (fecEncoderInit_default (α := Packet) hgeo fec.symLen).1
  rw [h.ctx]
  obtain ⟨dec, hinit, hctx, hk, hrr, hsl, hsx, hrx, hreset⟩ :=
    exists_fecDecoderInit (α := ℕ) hgeo fec.symLen
  have hrange : ∀ p ∈ (blk.held (blk.count fec) fec.r).map fun s => (s, bufIndex fec.k s),
      p.1.InRange dec.k dec.r := by
    intro p hp
    obtain ⟨s, hs, rfl⟩ := List.mem_map.mp hp
    rw [hk, hrr]
    exact (TcpFecBlockRx.mem_held.mp hs).1
  have hfst : ((blk.held (blk.count fec) fec.r).map fun s => (s, bufIndex fec.k s)).map Prod.fst =
      blk.held (blk.count fec) fec.r := by
    rw [List.map_map]
    exact List.map_id _
  have hfed := fed_foldl (hreset ▸ fecDecoderReset_ok dec)
    (fun s => hreset ▸ slot_fecDecoderReset dec s) (by rw [← hreset]; rfl) _ hrange
  rw [← TcpFecBlockRx.feed_eq] at hfed
  obtain ⟨⟨hctx', hk', hr', hsl', hsx', hrx'⟩, hok, hslot, hcount⟩ := hfed
  rw [hfst, List.toFinset_card_of_nodup (blk.nodup_held _ _), TcpFecBlockRx.held,
    List.length_append, List.length_map, List.length_map, ← hblk.count] at hcount
  refine ⟨dec, _, hinit, rfl, hctx'.trans hctx, hk'.trans hk, hsl'.trans hsl, ?_, hok, fun i hi => ?_,
    by omega⟩
  · rw [hk', hr', hsx', hrx', hk, hrr, hsx, hrx]
    exact hpts
  · rw [show (blk.feed fec (blk.count fec) dec).src.getD i none = _ from hslot (.source i),
      Bool.eq_iff_iff, Option.isSome_iff_ne_none, Ne, lookup_eq_none_iff_notMem, not_not, hfst,
      TcpFecBlockRx.mem_held]
    exact and_iff_right hi

/-- **The decoder finds the missing symbols**, whatever the slot holds of the others. -/
theorem SlotCounted.decode (hblk : SlotCounted fec blk) (h : RingCounted fec)
    (hr : blk.Rebuilds fec) : ∃ (dec : FecDecoder ℕ) (f : ℕ → Packet),
      fecDecoderInit fec.ctx (blk.count fec) fec.r fec.symLen none = some dec ∧
      fecDecoderRecoverable (blk.feed fec (blk.count fec) dec) ∧
      (∀ i, (f i).length = fec.symLen) ∧
      fecDecoderRecover (fun p => blk.symbolBuf.getD p []) (blk.feed fec (blk.count fec) dec) =
        some ((List.range (blk.count fec)).map fun i =>
          if blk.srcPresent.getD i false then none else some (f i)) := by
  obtain ⟨-, hle, hne, hcan⟩ := hr
  have hsum := blk.length_missing fec
  have hpos := List.length_pos_iff.mpr hne
  have hgeo : fecGeometryOk (blk.count fec : ℕ) (fec.r : ℕ) := by
    rw [h.k] at hle
    rw [h.r]
    simp only [fecGeometryOk, fecBlkMaxK, fecBlkMaxR, tcpFecDefaultK, tcpFecDefaultR] at hle ⊢
    omega
  obtain ⟨dec₀, dec, hinit, hfeed, hctx, hk, hsl, hpts, hok, hsrc, hcount⟩ := hblk.fed h hgeo
  have hsized : DecoderSized dec := ⟨hpts.pos, hpts.le, hpts.srcX_length, hpts.redX_length⟩
  -- a symbol is missing, so the decoder is not full
  have hfull : dec.srcCount ≠ dec.k := by
    intro hfull
    obtain ⟨i, hi⟩ := List.exists_mem_of_length_pos hpos
    have hlt := TcpFecBlockRx.lt_of_mem_missing hi
    have hsome := (hsrc i hlt).symm.trans (isSome_of_srcCount_eq hok hfull (hk ▸ hlt))
    have hnot := (List.mem_filter.mp hi).2
    rw [hsome] at hnot
    cases hnot
  obtain ⟨f, hlen, hrec⟩ := exists_fecDecoderRecover (fun p => blk.symbolBuf.getD p []) hctx hsized hok
    hfull (by omega) (nodup_recoverPoints hpts)
  refine ⟨dec₀, f, hinit, ?_, fun i => (hlen i).trans hsl, ?_⟩
  · rw [hfeed]
    exact (recoverable_iff_le hok).mpr (by omega)
  · rw [hfeed, hrec, hk]
    refine congrArg some (List.map_congr_left fun i hi => ?_)
    rw [hsrc i (List.mem_range.mp hi)]

/-- **The symbols that a slot rebuilds**, with their places: the missing ones, when the parities
make up for them. -/
theorem map_place_tcpFecRxRecover (hblk : SlotCounted fec blk)
    (h : RingCounted fec) :
    (tcpFecRxRecover fec blk).2.map (fun sp => (sp.seq, sp.data.length)) =
      if blk.Rebuilds fec then (blk.missing fec).map (blk.place fec) else [] := by
  have hsum := blk.length_missing fec
  split
  · next hr =>
    obtain ⟨dec, f, hinit, hcan, hlen, hrec⟩ := hblk.decode h hr
    obtain ⟨hnew, hle, hne, hcount⟩ := hr
    have hpos := List.length_pos_iff.mpr hne
    unfold tcpFecRxRecover
    dsimp only
    rw [if_neg (by simp [hnew]), if_neg (by omega), if_neg (by omega), if_neg (by omega), hinit]
    dsimp only
    rw [if_neg (by simpa using hcan), hrec]
    exact blk.map_place_splices hlen
  · next hr =>
    unfold tcpFecRxRecover
    dsimp only
    split_ifs with hnew hle hmissing hcount
    any_goals rfl
    refine absurd ⟨Bool.eq_false_of_not_eq_true hnew, by omega, ?_, by omega⟩ hr
    exact List.length_pos_iff.mp (by omega)

end Missing

/-! ## What the receiver knows of a block -/

/-- What is known of a block when a segment with one of its symbols arrives: whether it has been
rebuilt, its size, the sequence number of its first symbol, the symbols that have arrived, and the
number of parities. -/
structure FecKnown where
  recovered : Bool
  size : ℕ
  base : UInt32
  known : ℕ → Bool
  parities : ℕ

/-- A source symbol is believed when it is new, and then it is the last one of its block when it is
short. -/
def FecKnown.ofSource (fec : TcpFec) (blk : TcpFecBlockRx) (idx : ℕ) (skb : SkBuff) : FecKnown :=
  let new := !blk.srcPresent.getD idx false
  { recovered := blk.recovered
    size := if new ∧ skb.dlen < fec.symLen then idx + 1 else blk.count fec
    base := if new then skb.seq - UInt32.ofNat (idx * fec.symLen) else blk.baseSeq
    known := fun i => decide (i = idx) || blk.srcPresent.getD i false
    parities := blk.redCount }

/-- A repair header is always believed. -/
def FecKnown.ofRepair (fec : TcpFec) (blk : TcpFecBlockRx) (idx : ℕ) (skb : SkBuff) : FecKnown :=
  let rh := FecRepairHdr.read skb.payload
  { recovered := blk.recovered
    size := if rh.k = 0 then fec.k else rh.k.toNat
    base := rh.baseSeq
    known := fun i => blk.srcPresent.getD i false
    parities := blk.redCount + if blk.redPresent.getD idx false then 0 else 1 }

/-- What the slot of the block and the headers of the segment say, when it carries a symbol. -/
def tcpFecKnown (fec : TcpFec) (skb : SkBuff) : Option FecKnown :=
  let opt := TcpOptFec.read skb.th.data
  let idx := opt.index.toNat
  let blk := (tcpFecRxSlot fec opt.blockId).2
  if ¬ hasFecOption skb.th then none
  else if opt.type = FecSymType.source.toByte then
    if fec.k ≤ idx then none else some (.ofSource fec blk idx skb)
  else if opt.type = FecSymType.repair.toByte then
    if skb.dlen < fecRepairHdrLen + fec.symLen ∨ fec.r ≤ idx then none
    else some (.ofRepair fec blk idx skb)
  else none

/-- The symbols that have not arrived. -/
def FecKnown.missing (b : FecKnown) : List ℕ := (List.range b.size).filter fun i => !b.known i

/-- The parities make up for the symbols that have not arrived. -/
def FecKnown.Rebuilds (b : FecKnown) : Prop :=
  b.recovered = false ∧ b.size ≤ tcpFecDefaultK ∧ b.missing ≠ [] ∧ b.missing.length ≤ b.parities

/-- The place of a symbol on the stream. -/
def FecKnown.seq (b : FecKnown) (i : ℕ) : UInt32 :=
  b.base + UInt32.ofNat (i * tcpFecDefaultSymLen)

/-- The slot says what is known. -/
structure FecKnown.Of (b : FecKnown) (fec : TcpFec) (blk : TcpFecBlockRx) : Prop where
  recovered : blk.recovered = b.recovered
  size : blk.count fec = b.size
  base : blk.baseSeq = b.base
  known : ∀ i, blk.srcPresent.getD i false = b.known i
  parities : blk.redCount = b.parities

section Known

variable {fec : TcpFec} {blk : TcpFecBlockRx} {b : FecKnown}

theorem FecKnown.Of.missing (h : b.Of fec blk) : blk.missing fec = b.missing := by
  unfold TcpFecBlockRx.missing FecKnown.missing
  rw [h.size]
  exact List.filter_congr fun i _ => congrArg not (h.known i)

theorem FecKnown.Of.rebuilds (h : b.Of fec blk) (hk : fec.k = tcpFecDefaultK) :
    blk.Rebuilds fec ↔ b.Rebuilds := by
  unfold TcpFecBlockRx.Rebuilds FecKnown.Rebuilds
  rw [h.missing, h.recovered, h.size, h.parities, hk]

/-- What a source segment leaves in the slot. -/
theorem of_addSource (hblk : SlotCounted fec blk) {idx : ℕ} (hidx : idx < fecBlkMaxK)
    (skb : SkBuff) : (FecKnown.ofSource fec blk idx skb).Of fec (blk.addSource fec idx skb) := by
  have hset : ∀ i, (blk.srcPresent.set idx true).getD i false =
      (decide (i = idx) || blk.srcPresent.getD i false) := by
    intro i
    rw [Bool.eq_iff_iff, getD_set_true _ (by rw [hblk.srcLength]; exact hidx), Bool.or_eq_true,
      decide_eq_true_iff]
  unfold TcpFecBlockRx.addSource FecKnown.ofSource
  by_cases hnew : blk.srcPresent.getD idx false = true
  · rw [if_pos hnew, hnew]
    refine ⟨rfl, rfl, rfl, fun i => ?_, rfl⟩
    by_cases hi : i = idx
    · rw [hi, hnew]
      simp
    · dsimp only
      rw [decide_eq_false hi, Bool.false_or]
  · rw [if_neg hnew, Bool.eq_false_of_not_eq_true hnew]
    dsimp only
    by_cases hshort : skb.dlen < fec.symLen
    · rw [if_pos hshort, if_pos ⟨rfl, hshort⟩]
      refine ⟨rfl, ?_, rfl, hset, rfl⟩
      exact if_pos (Nat.succ_ne_zero idx)
    · rw [if_neg hshort, if_neg fun h => hshort h.2]
      exact ⟨rfl, rfl, rfl, hset, rfl⟩

/-- What a repair segment leaves in the slot. -/
theorem of_addRepair (fec : TcpFec) (blk : TcpFecBlockRx) (idx : ℕ) (skb : SkBuff) :
    (FecKnown.ofRepair fec blk idx skb).Of fec (blk.addRepair fec idx skb) := by
  have hsize : (if (FecRepairHdr.read skb.payload).k.toNat ≠ 0 then
      (FecRepairHdr.read skb.payload).k.toNat else fec.k) =
      if (FecRepairHdr.read skb.payload).k = 0 then fec.k
        else (FecRepairHdr.read skb.payload).k.toNat := by
    rw [ite_not]
    refine if_congr ?_ rfl rfl
    rw [← UInt8.toNat_inj]
    rfl
  unfold TcpFecBlockRx.addRepair FecKnown.ofRepair
  dsimp only
  cases blk.redPresent.getD idx false with
  | true => exact ⟨rfl, hsize, rfl, fun _ => rfl, rfl⟩
  | false => exact ⟨rfl, hsize, rfl, fun _ => rfl, rfl⟩

/-- **A segment rebuilds what its slot does** once its symbol has been registered there. -/
theorem exists_known (h : RingCounted fec) (skb : SkBuff) :
    tcpFecKnown fec skb = none ∧ (tcpFecRx fec skb).2.1 = [] ∨
      ∃ b blk, tcpFecKnown fec skb = some b ∧ b.Of fec blk ∧ SlotCounted fec blk ∧
        (tcpFecRx fec skb).2.1 = (tcpFecRxRecover fec blk).2 := by
  have hslot := h.slot (TcpOptFec.read skb.th.data).blockId
  unfold tcpFecKnown tcpFecRx
  dsimp only
  split_ifs with hopt hsrc hk hred hr
  any_goals exact .inl ⟨rfl, rfl⟩
  · refine .inr ⟨_, _, rfl, of_addSource hslot ?_ skb, hslot.addSource _ skb, rfl⟩
    rw [h.k] at hk
    exact (not_le.mp hk).trans (by decide)
  · refine .inr ⟨_, _, rfl, of_addRepair _ _ _ skb, hslot.addRepair (by omega) ?_ skb, rfl⟩
    rw [h.r]
    decide

/-- No more symbols are rebuilt at a time than a block has parities. -/
theorem SlotCounted.redCount_le (hblk : SlotCounted fec blk) : blk.redCount ≤ fec.r := by
  rw [hblk.count]
  refine (List.length_filter_le _ _).trans ?_
  rw [List.length_range]

end Known

end LvlIp.Tcp
