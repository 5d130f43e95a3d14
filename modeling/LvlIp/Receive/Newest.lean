import LvlIp.Receive.Ring
import LvlIp.Send.Repair
import LvlIp.Foundations.Newest

/-!
# Which blocks the ring tracks

The ring has a slot for each of four blocks, and a segment of a block without one claims a free slot
or that of the least block id. As long as no such segment is older than all of a full ring, the
blocks tracked are the newest ones seen (`ringNewest_iff`): the id of the victim is never compared
with that of the segment, so a late segment takes the slot of a newer block. The counters of a slot
always agree with its presence flags.
-/

namespace LvlIp.Tcp

open Fec Foundations

/-! ## The counters of a slot -/

/-- The counters of a slot agree with its flags. -/
structure SlotCounts (blk : TcpFecBlockRx) : Prop where
  src_length : blk.srcPresent.length = fecBlkMaxK
  red_length : blk.redPresent.length = fecBlkMaxR
  srcCount : blk.srcCount = blk.srcPresent.countP id
  redCount : blk.redCount = blk.redPresent.countP id

theorem countP_set_flag {l : List Bool} {i : ℕ} (hi : i < l.length) (h : l.getD i false = false) :
    (l.set i true).countP id = l.countP id + 1 := by
  induction l generalizing i with
  | nil => cases hi
  | cons b l ih =>
    cases i with
    | zero =>
      rw [show b = false from h]
      simp
    | succ i =>
      have hset := ih (i := i) (Nat.lt_of_succ_lt_succ hi) h
      rw [List.set_cons_succ, List.countP_cons, List.countP_cons, hset]
      omega

/-- Setting the flags of what has been recovered counts it. -/
theorem countP_fill {α : Type*} (l : List Bool) (out : List (Option α))
    (hlen : out.length ≤ l.length)
    (hout : ∀ i < out.length, (out.getD i none).isSome = !l.getD i false) :
    (l.mapIdx fun i b => b || decide (i < out.length)).countP id =
      l.countP id + (out.filter Option.isSome).length := by
  induction l generalizing out with
  | nil =>
    rw [List.eq_nil_of_length_eq_zero (Nat.le_zero.mp hlen)]
    rfl
  | cons b l ih =>
    cases out with
    | nil =>
      have hsame : ((b :: l).mapIdx fun i b => b || decide (i < 0)) = b :: l :=
        List.ext_getElem List.length_mapIdx fun i _ _ => by rw [List.getElem_mapIdx]; simp
      exact congrArg (List.countP id) hsame
    | cons o out =>
      have hrest := ih out (Nat.le_of_succ_le_succ hlen) fun i hi =>
        hout (i + 1) (Nat.succ_lt_succ hi)
      have hfirst : o.isSome = !b := hout 0 (Nat.zero_lt_succ _)
      rw [List.mapIdx_cons, List.countP_cons, List.countP_cons, List.filter_cons, hfirst]
      simp only [List.length_cons, Nat.succ_lt_succ_iff]
      rw [hrest]
      cases b <;> simp <;> omega

section Slot

variable {fec : TcpFec} {blk : TcpFecBlockRx} {skb : SkBuff}

theorem slotCounts_empty : SlotCounts .empty :=
  ⟨rfl, rfl, rfl, rfl⟩

theorem slotCounts_claim (fec : TcpFec) (blk : TcpFecBlockRx) (blockId : UInt32) :
    SlotCounts (blk.claim fec blockId) :=
  ⟨rfl, rfl, rfl, rfl⟩

theorem SlotCounts.addSource (h : SlotCounts blk) {idx : ℕ} (hidx : idx < fecBlkMaxK) :
    SlotCounts (blk.addSource fec idx skb) := by
  unfold TcpFecBlockRx.addSource
  split
  · exact h
  · next hnew =>
    have hcount : blk.srcCount + 1 = (blk.srcPresent.set idx true).countP id := by
      rw [countP_set_flag (by rw [h.src_length]; exact hidx) (Bool.eq_false_iff.mpr hnew),
        h.srcCount]
    have hlen : (blk.srcPresent.set idx true).length = fecBlkMaxK :=
      List.length_set.trans h.src_length
    dsimp only
    split
    · exact ⟨hlen, h.red_length, hcount, h.redCount⟩
    · exact ⟨hlen, h.red_length, hcount, h.redCount⟩

theorem SlotCounts.addRepair (h : SlotCounts blk) {idx : ℕ} (hidx : idx < fecBlkMaxR) :
    SlotCounts (blk.addRepair fec idx skb) := by
  unfold TcpFecBlockRx.addRepair
  dsimp only
  split
  · exact ⟨h.src_length, h.red_length, h.srcCount, h.redCount⟩
  · next hnew =>
    refine ⟨h.src_length, List.length_set.trans h.red_length, h.srcCount, ?_⟩
    rw [countP_set_flag (by rw [h.red_length]; exact hidx) (Bool.eq_false_iff.mpr hnew),
      h.redCount]

/-! ## Recovery -/

theorem mapM_some_spec {α β : Type*} {f : α → Option β} {l : List α} {ys : List β}
    (h : l.mapM f = some ys) :
    ys.length = l.length ∧
      ∀ (i : ℕ) x, l[i]? = some x → ∃ y, ys[i]? = some y ∧ f x = some y := by
  induction l generalizing ys with
  | nil =>
    obtain rfl : [] = ys := by simpa using h
    exact ⟨rfl, nofun⟩
  | cons a l ih =>
    rw [List.mapM_cons] at h
    obtain ⟨y, hy, hrest⟩ := Option.bind_eq_some_iff.mp h
    obtain ⟨ys', hys', hcons⟩ := Option.bind_eq_some_iff.mp hrest
    obtain rfl : y :: ys' = ys := by simpa using hcons
    obtain ⟨hlen, hall⟩ := ih hys'
    refine ⟨congrArg (· + 1) hlen, fun i x hx => ?_⟩
    cases i with
    | zero =>
      obtain rfl : a = x := by simpa using hx
      exact ⟨y, rfl, hy⟩
    | succ i => exact hall i x hx

/-- **What is recovered** are the sources that the decoder does not have. -/
theorem isSome_fecDecoderRecover {mem : ℕ → Packet} {dec : FecDecoder ℕ} (hok : DecoderOk dec)
    {out : List (Option Packet)} (h : fecDecoderRecover mem dec = some out) :
    out.length = dec.k ∧
      ∀ i < dec.k, (out.getD i none).isSome = !(dec.slot (.source i)).isSome := by
  unfold fecDecoderRecover at h
  dsimp only at h
  split at h
  · next h0 =>
    obtain rfl := Option.some.inj h
    refine ⟨List.length_replicate, fun i hi => ?_⟩
    rw [isSome_of_srcCount_eq hok (by omega) hi]
    simp [List.getD_eq_getElem?_getD, hi]
  · split at h
    · cases h
    · split at h
      · cases h
      · split at h
        · cases h
        · obtain ⟨hlen, hall⟩ := mapM_some_spec h
          rw [List.length_range] at hlen
          refine ⟨hlen, fun i hi => ?_⟩
          obtain ⟨y, hy, hf⟩ := hall i i (by simp [hi])
          rw [List.getD_eq_getElem?_getD, hy]
          change y.isSome = !(dec.src.getD i none).isSome
          split at hf
          · next hsome =>
            rw [hsome, ← Option.some.inj hf]
            rfl
          · next hsome =>
            obtain ⟨p, -, rfl⟩ := Option.map_eq_some_iff.mp hf
            rw [Bool.eq_false_iff.mpr hsome]
            rfl

/-- The decoder of a slot has the sources that the slot has. -/
theorem slot_feed {ctx : FecRsCtx} {k : ℕ} {dec : FecDecoder ℕ}
    (hinit : fecDecoderInit ctx k fec.r fec.symLen none = some dec) :
    DecoderOk (blk.feed fec k dec) ∧ (blk.feed fec k dec).k = k ∧
      ∀ i < k, ((blk.feed fec k dec).slot (.source i)).isSome = blk.srcPresent.getD i false := by
  unfold fecDecoderInit at hinit
  split at hinit
  swap
  · cases hinit
  have hk : dec.k = k := congrArg FecDecoder.k (Option.some.inj hinit).symm
  have hr : dec.r = fec.r := congrArg FecDecoder.r (Option.some.inj hinit).symm
  have hreset : fecDecoderReset dec = dec := by
    rw [← Option.some.inj hinit]
    rfl
  have hfed : Fed dec ((blk.held k fec.r).map fun s => (s, bufIndex fec.k s))
      (blk.feed fec k dec) := by
    rw [blk.feed_eq fec k dec]
    refine fed_foldl (hreset ▸ fecDecoderReset_ok dec) (hreset ▸ slot_fecDecoderReset dec)
      (hreset ▸ rfl) _ fun p hp => ?_
    obtain ⟨s, hs, rfl⟩ := List.mem_map.mp hp
    rw [hk, hr]
    exact (TcpFecBlockRx.mem_held.mp hs).1
  refine ⟨hfed.ok, hfed.params.2.1.trans hk, fun i hi => ?_⟩
  have hfst : ((blk.held k fec.r).map fun s => (s, bufIndex fec.k s)).map Prod.fst =
      blk.held k fec.r := by
    rw [List.map_map]
    exact List.map_id _
  have hnone := lookup_eq_none_iff_notMem
    ((blk.held k fec.r).map fun s => (s, bufIndex fec.k s)) (.source i)
  rw [hfst, TcpFecBlockRx.mem_held] at hnone
  rw [hfed.slot, Bool.eq_iff_iff, Option.isSome_iff_ne_none, ne_eq, hnone, not_not]
  exact and_iff_right hi

/-- **Recovery keeps the counters right.** -/
theorem SlotCounts.recover (h : SlotCounts blk) (hk : fec.k ≤ fecBlkMaxK) :
    SlotCounts (tcpFecRxRecover fec blk).1 := by
  unfold tcpFecRxRecover
  dsimp only
  split
  · exact h
  · split
    · exact h
    · next hcount =>
      split
      · exact ⟨h.src_length, h.red_length, h.srcCount, h.redCount⟩
      · split
        · exact h
        · split
          · exact h
          · next dec hinit =>
            split
            · exact h
            · split
              · exact h
              · next out hout =>
                obtain ⟨hok, hdk, hslot⟩ := @slot_feed fec blk fec.ctx (blk.count fec) dec hinit
                obtain ⟨hlen, hsome⟩ := isSome_fecDecoderRecover hok hout
                rw [hdk] at hlen hsome
                have hle : out.length ≤ blk.srcPresent.length := by
                  rw [hlen, h.src_length]
                  omega
                have hfill := countP_fill blk.srcPresent out hle fun i hi => by
                  rw [hsome i (hlen ▸ hi), hslot i (hlen ▸ hi)]
                rw [hlen] at hfill
                exact ⟨by simp [TcpFecBlockRx.filled, h.src_length], h.red_length,
                  (congrArg (· + _) h.srcCount).trans hfill.symm, h.redCount⟩

end Slot

/-! ## The ring -/

/-- The block id of a slot in use. -/
def TcpFecBlockRx.tracked (blk : TcpFecBlockRx) : Option ℕ :=
  if blk.active then some blk.blockId.toNat else none

/-- The block ids of the slots in use. -/
def TcpFec.blockIds (fec : TcpFec) : List ℕ := fec.rx.filterMap TcpFecBlockRx.tracked

/-- A segment is late: the ring is full of newer blocks. -/
def Late (fec : TcpFec) (blockId : UInt32) : Prop :=
  ∀ blk ∈ fec.rx, blk.active ∧ blockId < blk.blockId

/-- The ring tracks the newest of the blocks seen, each in one slot, and the counters of its slots
are right. -/
structure RingNewest (seen : List ℕ) (fec : TcpFec) : Prop where
  nodup : fec.blockIds.Nodup
  newest : fec.blockIds.toFinset = newest tcpFecRxBlocks seen.toFinset
  counts : ∀ blk ∈ fec.rx, blk.srcCount = blk.srcPresent.countP id ∧
    blk.redCount = blk.redPresent.countP id

/-- The ring of a receiver with a valid geometry, which tracks the newest of the blocks seen. -/
structure RingOk (seen : Finset ℕ) (fec : TcpFec) : Prop where
  k : fec.k ≤ fecBlkMaxK
  r : fec.r ≤ fecBlkMaxR
  length : fec.rx.length = tcpFecRxBlocks
  nodup : fec.blockIds.Nodup
  newest : IsNewest tcpFecRxBlocks seen fec.blockIds.toFinset
  counts : ∀ blk ∈ fec.rx, SlotCounts blk

section Ring

variable {fec : TcpFec} {seen : Finset ℕ} {skb : SkBuff}

theorem mem_blockIds {id : ℕ} :
    id ∈ fec.blockIds ↔ ∃ blk ∈ fec.rx, blk.active ∧ blk.blockId.toNat = id := by
  unfold TcpFec.blockIds
  rw [List.mem_filterMap]
  refine exists_congr fun blk => and_congr_right fun _ => ?_
  unfold TcpFecBlockRx.tracked
  split
  · next hact => rw [Option.some_inj, and_iff_right hact]
  · next hact => exact iff_of_false nofun fun h => hact h.1

/-- The slot that is reused when no slot is free has the least block id. -/
theorem tcpFecVictim_spec (rx : List TcpFecBlockRx) :
    (rx.getD (tcpFecVictim rx) .empty).active = false ∨
      ∀ blk ∈ rx, blk.active ∧ (rx.getD (tcpFecVictim rx) .empty).blockId ≤ blk.blockId := by
  unfold tcpFecVictim
  split
  · next i hi =>
    obtain ⟨hlt, hp, -⟩ := List.findIdx?_eq_some_iff_getElem.mp hi
    rw [List.getD_eq_getElem _ _ hlt]
    exact .inl (by simpa using hp)
  · next hnone =>
    rw [List.findIdx?_eq_none_iff] at hnone
    refine .inr fun blk hblk => ⟨by simpa using hnone blk hblk, ?_⟩
    -- the fold keeps the least id among the slots it has passed
    have hfold : ∀ n, ∀ i < n, (rx.getD ((List.range n).foldl (fun v i =>
        if (rx.getD i .empty).blockId < (rx.getD v .empty).blockId then i else v) 0) .empty).blockId ≤
          (rx.getD i .empty).blockId := by
      intro n
      induction n with
      | zero => nofun
      | succ n ih =>
        intro i hi
        rw [List.range_succ, List.foldl_append]
        simp only [List.foldl_cons, List.foldl_nil]
        generalize (List.range n).foldl _ 0 = v at ih ⊢
        rcases Nat.lt_succ_iff_lt_or_eq.mp hi with hi | rfl
        · split
          · next hlt => exact UInt32.le_trans (UInt32.le_of_lt hlt) (ih i hi)
          · exact ih i hi
        · split
          · exact UInt32.le_refl _
          · next hnlt => exact UInt32.not_lt.mp hnlt
    obtain ⟨i, hi, rfl⟩ := List.getElem_of_mem hblk
    have hmin := hfold rx.length i hi
    rwa [List.getD_eq_getElem _ .empty hi] at hmin

/-- The slot is still in use for the same block. -/
def SameBlock (blk blk' : TcpFecBlockRx) : Prop :=
  blk'.active = blk.active ∧ blk'.blockId = blk.blockId

theorem sameBlock_recover (blk : TcpFecBlockRx) : SameBlock blk (tcpFecRxRecover fec blk).1 := by
  unfold tcpFecRxRecover
  dsimp only
  split
  · exact ⟨rfl, rfl⟩
  · split
    · exact ⟨rfl, rfl⟩
    · split
      · exact ⟨rfl, rfl⟩
      · split
        · exact ⟨rfl, rfl⟩
        · split
          · exact ⟨rfl, rfl⟩
          · split
            · exact ⟨rfl, rfl⟩
            · split <;> exact ⟨rfl, rfl⟩

theorem sameBlock_addSource (blk : TcpFecBlockRx) (idx : ℕ) :
    SameBlock blk (tcpFecRxRecover fec (blk.addSource fec idx skb)).1 := by
  have hadd : SameBlock blk (blk.addSource fec idx skb) := by
    unfold TcpFecBlockRx.addSource
    dsimp only
    split_ifs <;> exact ⟨rfl, rfl⟩
  obtain ⟨hact, hid⟩ := @sameBlock_recover fec (blk.addSource fec idx skb)
  exact ⟨hact.trans hadd.1, hid.trans hadd.2⟩

theorem sameBlock_addRepair (blk : TcpFecBlockRx) (idx : ℕ) :
    SameBlock blk (tcpFecRxRecover fec (blk.addRepair fec idx skb)).1 := by
  have hadd : SameBlock blk (blk.addRepair fec idx skb) := by
    unfold TcpFecBlockRx.addRepair
    dsimp only
    split_ifs <;> exact ⟨rfl, rfl⟩
  obtain ⟨hact, hid⟩ := @sameBlock_recover fec (blk.addRepair fec idx skb)
  exact ⟨hact.trans hadd.1, hid.trans hadd.2⟩

/-- **A segment with the FEC option** writes one slot, which keeps its block. -/
theorem exists_tcpFecRx (htag : hasFecOption skb.th) (hk : fec.k ≤ fecBlkMaxK)
    (hr : fec.r ≤ fecBlkMaxR) :
    let slot := tcpFecRxSlot fec (TcpOptFec.read skb.th.data).blockId
    ∃ blk, (tcpFecRx fec skb).1 = { fec with rx := fec.rx.set slot.1 blk } ∧
      SameBlock slot.2 blk ∧ (SlotCounts slot.2 → SlotCounts blk) := by
  intro slot
  unfold tcpFecRx
  rw [if_pos htag]
  dsimp only
  split
  · split
    · exact ⟨_, rfl, ⟨rfl, rfl⟩, id⟩
    · next hidx =>
      exact ⟨_, rfl, sameBlock_addSource _ _, fun h => (h.addSource (by omega)).recover hk⟩
  · split
    · split
      · exact ⟨_, rfl, ⟨rfl, rfl⟩, id⟩
      · next hidx =>
        exact ⟨_, rfl, sameBlock_addRepair _ _, fun h => (h.addRepair (by omega)).recover hk⟩
    · exact ⟨_, rfl, ⟨rfl, rfl⟩, id⟩

/-- The block ids around a slot. -/
theorem exists_blockIds (fec : TcpFec) {i : ℕ} (hi : i < fec.rx.length) :
    ∃ l₁ l₂ : List ℕ,
      fec.blockIds = l₁ ++ (fec.rx.getD i .empty).tracked.toList ++ l₂ ∧
      ∀ blk : TcpFecBlockRx, TcpFec.blockIds { fec with rx := fec.rx.set i blk } =
        l₁ ++ blk.tracked.toList ++ l₂ := by
  have hids : ∀ (a b : List TcpFecBlockRx) (blk : TcpFecBlockRx),
      (a ++ blk :: b).filterMap TcpFecBlockRx.tracked =
        a.filterMap TcpFecBlockRx.tracked ++ blk.tracked.toList ++
          b.filterMap TcpFecBlockRx.tracked := by
    intro a b blk
    rw [List.filterMap_append, List.filterMap_cons, List.append_assoc]
    cases blk.tracked <;> rfl
  refine ⟨(fec.rx.take i).filterMap TcpFecBlockRx.tracked,
    (fec.rx.drop (i + 1)).filterMap TcpFecBlockRx.tracked, ?_, fun blk => ?_⟩
  · have hsplit : fec.rx = fec.rx.take i ++ fec.rx.getD i .empty :: fec.rx.drop (i + 1) := by
      rw [List.getD_eq_getElem _ _ hi, ← List.drop_eq_getElem_cons hi, List.take_append_drop]
    exact (congrArg _ hsplit).trans (hids _ _ _)
  · have hsplit : fec.rx.set i blk = fec.rx.take i ++ blk :: fec.rx.drop (i + 1) :=
      List.set_eq_take_append_cons_drop.trans (if_pos hi)
    exact (congrArg _ hsplit).trans (hids _ _ _)

/-- Everything is tracked in a full ring. -/
theorem RingOk.card_of_full (h : RingOk seen fec) (hfull : ∀ blk ∈ fec.rx, blk.active) :
    fec.blockIds.toFinset.card = tcpFecRxBlocks := by
  rw [List.toFinset_card_of_nodup h.nodup, ← h.length]
  have hall : ∀ blk ∈ fec.rx, blk.tracked = some blk.blockId.toNat := fun blk hblk =>
    if_pos (hfull blk hblk)
  unfold TcpFec.blockIds
  rw [List.filterMap_congr hall, List.filterMap_eq_map', List.length_map]

/-- A ring with a free slot tracks fewer blocks than it has slots. -/
theorem RingOk.card_lt_of_free (h : RingOk seen fec) {i : ℕ} (hi : i < fec.rx.length)
    (hfree : (fec.rx.getD i .empty).active = false) :
    fec.blockIds.toFinset.card < tcpFecRxBlocks := by
  obtain ⟨l₁, l₂, hids, hset⟩ := exists_blockIds fec hi
  -- one more block would still fit
  have hone := hset { TcpFecBlockRx.empty with active := true }
  have hle : (TcpFec.blockIds { fec with
      rx := fec.rx.set i { TcpFecBlockRx.empty with active := true } }).length ≤ fec.rx.length :=
    (List.length_filterMap_le _ _).trans_eq List.length_set
  have hnone : (fec.rx.getD i .empty).tracked = none := if_neg (by rw [hfree]; nofun)
  have hsome : TcpFecBlockRx.tracked { TcpFecBlockRx.empty with active := true } = some 0 := rfl
  rw [hone, hsome] at hle
  rw [List.toFinset_card_of_nodup h.nodup, ← h.length, hids, hnone]
  simp only [List.length_append, Option.toList_some, Option.toList_none, List.length_singleton,
    List.length_nil] at hle ⊢
  omega

theorem tcpFecRxSlot_fst {blockId : UInt32} (h : fec.holds blockId = false) :
    (tcpFecRxSlot fec blockId).1 = tcpFecVictim fec.rx := by
  unfold tcpFecRxSlot
  split
  · next i hi =>
    obtain ⟨hlt, hp, -⟩ := List.findIdx?_eq_some_iff_getElem.mp hi
    exact absurd hp (List.any_eq_false.mp h _ (List.getElem_mem hlt))
  · rfl

theorem notMem_blockIds {blockId : UInt32} (h : fec.holds blockId = false) :
    blockId.toNat ∉ fec.blockIds := by
  intro hmem
  obtain ⟨blk, hblk, hact, hid⟩ := mem_blockIds.mp hmem
  have hno := List.any_eq_false.mp h blk hblk
  rw [hact, UInt32.toNat_inj.mp hid] at hno
  simp at hno

/-- The ring after a segment with the FEC option: the slot of its block, and what it held. -/
structure Written (fec : TcpFec) (blockId : UInt32) (fec' : TcpFec) (i : ℕ)
    (blk : TcpFecBlockRx) : Prop where
  lt : i < fec.rx.length
  eq : fec' = { fec with rx := fec.rx.set i blk }
  tracked : blk.tracked = some blockId.toNat
  counts : (∀ blk ∈ fec.rx, SlotCounts blk) → SlotCounts blk
  slot : (fec.rx.getD i .empty).tracked = some blockId.toNat ∨
    fec.holds blockId = false ∧ i = tcpFecVictim fec.rx

theorem exists_written (h : RingOk seen fec) (htag : hasFecOption skb.th) :
    ∃ i blk, Written fec (TcpOptFec.read skb.th.data).blockId (tcpFecRx fec skb).1 i blk := by
  have hne : fec.rx ≠ [] := by
    rw [← List.length_pos_iff, h.length]
    decide
  obtain ⟨blk, heq, ⟨hact, hid⟩, hcounts⟩ := exists_tcpFecRx htag h.k h.r
  obtain ⟨hi, hslot⟩ := tcpFecRxSlot_spec fec hne (TcpOptFec.read skb.th.data).blockId
  refine ⟨(tcpFecRxSlot fec (TcpOptFec.read skb.th.data).blockId).1, blk, ?_⟩
  rcases hslot with ⟨hold, hholds, hactive, hblock⟩ | ⟨hclaim, hholds⟩
  · have htracked : ∀ blk' : TcpFecBlockRx, blk'.active = true →
        blk'.blockId = (TcpOptFec.read skb.th.data).blockId →
        blk'.tracked = some (TcpOptFec.read skb.th.data).blockId.toNat := by
      intro blk' hact' hid'
      unfold TcpFecBlockRx.tracked
      rw [if_pos hact', hid']
    refine ⟨hi, heq, htracked blk (hact.trans hactive) (hid.trans hblock),
      fun hall => hcounts ?_, .inl ?_⟩
    · rw [hold, List.getD_eq_getElem _ _ hi]
      exact hall _ (List.getElem_mem hi)
    · rw [← hold]
      exact htracked _ hactive hblock
  · rw [hclaim] at hact hid hcounts
    refine ⟨hi, heq, ?_, fun _ => hcounts (slotCounts_claim _ _ _),
      .inr ⟨hholds, tcpFecRxSlot_fst hholds⟩⟩
    unfold TcpFecBlockRx.tracked
    rw [if_pos (show blk.active = true from hact), hid]
    rfl

/-- **A segment that is not late** leaves the ring with the newest blocks. -/
theorem RingOk.arrive (h : RingOk seen fec) (htag : hasFecOption skb.th)
    (hlate : ¬ Late fec (TcpOptFec.read skb.th.data).blockId) :
    RingOk (insert (TcpOptFec.read skb.th.data).blockId.toNat seen) (tcpFecRx fec skb).1 := by
  obtain ⟨i, blk, hi, heq, htracked, hcounts, hslot⟩ := exists_written h htag
  generalize (TcpOptFec.read skb.th.data).blockId = blockId at *
  obtain ⟨l₁, l₂, hids, hset⟩ := exists_blockIds fec hi
  have hids' := hset blk
  rw [htracked] at hids'
  have hall : ∀ b ∈ fec.rx.set i blk, SlotCounts b := by
    intro b hb
    rcases List.mem_or_eq_of_mem_set hb with hb | rfl
    · exact h.counts b hb
    · exact hcounts h.counts
  have hok : TcpFec.blockIds { fec with rx := fec.rx.set i blk } |>.Nodup →
      IsNewest tcpFecRxBlocks (insert blockId.toNat seen)
        (TcpFec.blockIds { fec with rx := fec.rx.set i blk }).toFinset →
      RingOk (insert blockId.toNat seen) { fec with rx := fec.rx.set i blk } :=
    fun hnd hnew => ⟨h.k, h.r, List.length_set.trans h.length, hnd, hnew, hall⟩
  rw [heq]
  rw [hids'] at hok
  have hnodup := h.nodup
  have hnewest := h.newest
  rcases hslot with hsame | ⟨hholds, rfl⟩
  · -- the block has a slot
    rw [hids, hsame] at hnodup hnewest
    exact hok hnodup (hnewest.insert_mem (by simp))
  · have hnew : blockId.toNat ∉ fec.blockIds := notMem_blockIds hholds
    have hset' : (l₁ ++ (some blockId.toNat).toList ++ l₂).toFinset =
        insert blockId.toNat (l₁ ++ l₂).toFinset := by
      ext x
      simp only [Option.toList_some, List.toFinset_append, Finset.mem_union, Finset.mem_insert,
        List.mem_toFinset, List.mem_singleton]
      tauto
    have hperm : (l₁ ++ (some blockId.toNat).toList ++ l₂).Perm
        (blockId.toNat :: (l₁ ++ l₂)) := by
      rw [List.append_assoc]
      exact List.perm_middle
    rw [hset', hperm.nodup_iff, List.nodup_cons] at hok
    rcases tcpFecVictim_spec fec.rx with hfree | hfull
    · -- a free slot
      have hcard := h.card_lt_of_free hi hfree
      have hnone : (fec.rx.getD (tcpFecVictim fec.rx) .empty).tracked = none :=
        if_neg (by rw [hfree]; nofun)
      rw [hnone, Option.toList_none, List.append_nil] at hids
      rw [hids] at hnodup hnewest hnew hcard
      exact hok ⟨hnew, hnodup⟩ (hnewest.insert_room hcard (by simpa using hnew))
    · -- the slot of the oldest block
      have hcard := h.card_of_full fun b hb => (hfull b hb).1
      have hmem : fec.rx.getD (tcpFecVictim fec.rx) .empty ∈ fec.rx := by
        rw [List.getD_eq_getElem _ _ hi]
        exact List.getElem_mem hi
      generalize fec.rx.getD (tcpFecVictim fec.rx) .empty = victim at hids hfull hmem
      have hvictim : victim.tracked = some victim.blockId.toNat := if_pos (hfull victim hmem).1
      have hmin : ∀ x ∈ fec.blockIds.toFinset, victim.blockId.toNat ≤ x := by
        intro x hx
        obtain ⟨b, hb, -, rfl⟩ := mem_blockIds.mp (List.mem_toFinset.mp hx)
        exact UInt32.le_iff_toNat_le.mp (hfull b hb).2
      have hlt : victim.blockId.toNat < blockId.toNat := by
        by_contra hge
        refine hlate fun b hb => ⟨(hfull b hb).1, UInt32.lt_iff_toNat_lt.mpr ?_⟩
        refine lt_of_le_of_ne ((not_lt.mp hge).trans ?_) fun heq => hnew ?_
        · exact UInt32.le_iff_toNat_le.mp (hfull b hb).2
        · exact mem_blockIds.mpr ⟨b, hb, (hfull b hb).1, heq.symm⟩
      have hreplace := hnewest.replace hcard
        (List.mem_toFinset.mpr (mem_blockIds.mpr ⟨victim, hmem, (hfull victim hmem).1, rfl⟩))
        hmin hlt (by simpa using hnew)
      have hmiddle : (l₁ ++ (some victim.blockId.toNat).toList ++ l₂).Perm
          (victim.blockId.toNat :: (l₁ ++ l₂)) := by
        rw [List.append_assoc]
        exact List.perm_middle
      rw [hids, hvictim] at hnodup hnew hreplace
      rw [hmiddle.nodup_iff, List.nodup_cons] at hnodup
      rw [hmiddle.mem_iff] at hnew
      have herase : (l₁ ++ (some victim.blockId.toNat).toList ++ l₂).toFinset.erase
          victim.blockId.toNat = (l₁ ++ l₂).toFinset := by
        rw [List.toFinset_eq_of_perm _ _ hmiddle, List.toFinset_cons]
        exact Finset.erase_insert (by simpa using hnodup.1)
      rw [herase] at hreplace
      exact hok ⟨fun hx => hnew (List.mem_cons_of_mem _ hx), hnodup.2⟩ hreplace

/-- **A late segment** takes the slot of a newer block. -/
theorem RingOk.late (h : RingOk seen fec) (htag : hasFecOption skb.th)
    (hlate : Late fec (TcpOptFec.read skb.th.data).blockId) :
    (tcpFecRx fec skb).1.blockIds.toFinset ≠
      Foundations.newest tcpFecRxBlocks (insert (TcpOptFec.read skb.th.data).blockId.toNat seen) := by
  obtain ⟨i, blk, hi, heq, htracked, -, -⟩ := exists_written h htag
  generalize (TcpOptFec.read skb.th.data).blockId = blockId at *
  obtain ⟨l₁, l₂, -, hset⟩ := exists_blockIds fec hi
  have hids := hset blk
  rw [htracked] at hids
  intro hnewest
  refine h.newest.notMem_of_lt (h.card_of_full fun b hb => (hlate b hb).1)
    (fun x hx => ?_ : ∀ x ∈ fec.blockIds.toFinset, blockId.toNat < x) ?_
  · obtain ⟨b, hb, -, rfl⟩ := mem_blockIds.mp (List.mem_toFinset.mp hx)
    exact UInt32.lt_iff_toNat_lt.mp (hlate b hb).2
  · rw [← hnewest, heq, hids]
    simp

theorem RingOk.ringNewest {seen : List ℕ} (h : RingOk seen.toFinset fec) : RingNewest seen fec :=
  ⟨h.nodup, h.newest.newest_eq.symm,
    fun blk hblk => ⟨(h.counts blk hblk).srcCount, (h.counts blk hblk).redCount⟩⟩

end Ring

/-! ## Runs -/

/-- The ring after some segments. -/
def tcpFecRxAll (fec : TcpFec) (skbs : List SkBuff) : TcpFec :=
  skbs.foldl (fun fec skb => (tcpFecRx fec skb).1) fec

/-- The block ids of segments. -/
def blocksSeen (skbs : List SkBuff) : List ℕ :=
  skbs.map fun skb => (TcpOptFec.read skb.th.data).blockId.toNat

/-- The FEC state of a receiver that has seen nothing. -/
structure FreshRing (fec : TcpFec) : Prop where
  k : fec.k ≤ fecBlkMaxK
  r : fec.r ≤ fecBlkMaxR
  rx : fec.rx = List.replicate tcpFecRxBlocks .empty

theorem FreshRing.ringOk {fec : TcpFec} (h : FreshRing fec) : RingOk ∅ fec := by
  have hids : fec.blockIds = [] := by
    unfold TcpFec.blockIds
    rw [h.rx]
    rfl
  refine ⟨h.k, h.r, by rw [h.rx, List.length_replicate], ?_, ?_, ?_⟩
  · rw [hids]
    exact List.nodup_nil
  · rw [hids]
    exact isNewest_empty _
  · intro blk hblk
    rw [h.rx] at hblk
    rw [List.eq_of_mem_replicate hblk]
    exact slotCounts_empty

/-- No segment of the sequence is late when it arrives. -/
def NoneLate : TcpFec → List SkBuff → Prop
  | _, [] => True
  | fec, skb :: skbs =>
    ¬ Late fec (TcpOptFec.read skb.th.data).blockId ∧ NoneLate (tcpFecRx fec skb).1 skbs

instance (fec : TcpFec) (blockId : UInt32) : Decidable (Late fec blockId) :=
  inferInstanceAs (Decidable (∀ blk ∈ fec.rx, blk.active ∧ blockId < blk.blockId))

instance NoneLate.decidable : ∀ fec skbs, Decidable (NoneLate fec skbs)
  | _, [] => .isTrue trivial
  | fec, skb :: skbs =>
    have := NoneLate.decidable (tcpFecRx fec skb).1 skbs
    inferInstanceAs (Decidable (¬ Late fec (TcpOptFec.read skb.th.data).blockId ∧
      NoneLate (tcpFecRx fec skb).1 skbs))

theorem toFinset_append_singleton (seen : List ℕ) (id : ℕ) :
    (seen ++ [id]).toFinset = insert id seen.toFinset := by
  rw [List.toFinset_append, Finset.union_comm]
  rfl

theorem RingOk.run {fec : TcpFec} {seen : List ℕ} (h : RingOk seen.toFinset fec)
    (skbs : List SkBuff) (htag : ∀ skb ∈ skbs, hasFecOption skb.th) :
    (∀ pre, pre <+: skbs → RingNewest (seen ++ blocksSeen pre) (tcpFecRxAll fec pre)) ↔
      NoneLate fec skbs := by
  have hnil : RingNewest (seen ++ blocksSeen []) (tcpFecRxAll fec []) := by
    rw [show seen ++ blocksSeen [] = seen from List.append_nil seen]
    exact h.ringNewest
  induction skbs generalizing fec seen with
  | nil =>
    refine iff_of_true (fun pre hpre => ?_) trivial
    rw [List.prefix_nil.mp hpre]
    exact hnil
  | cons skb skbs ih =>
    have htag₁ := htag skb List.mem_cons_self
    have htags : ∀ x ∈ skbs, hasFecOption x.th := fun x hx => htag x (List.mem_cons_of_mem _ hx)
    have hcons : ∀ pre, seen ++ blocksSeen (skb :: pre) =
        (seen ++ [(TcpOptFec.read skb.th.data).blockId.toNat]) ++ blocksSeen pre := by
      intro pre
      rw [List.append_assoc]
      rfl
    have hset := toFinset_append_singleton seen (TcpOptFec.read skb.th.data).blockId.toNat
    constructor
    · intro hall
      have hfirst := hall [skb] ⟨skbs, rfl⟩
      have hlate : ¬ Late fec (TcpOptFec.read skb.th.data).blockId := by
        intro hlate
        refine h.late htag₁ hlate ?_
        rw [← hset]
        exact hfirst.newest
      have hok := h.arrive htag₁ hlate
      rw [← hset] at hok
      refine ⟨hlate, (ih hok htags ?_).mp fun pre hpre => ?_⟩
      · rw [← hcons]
        exact hfirst
      · rw [← hcons]
        exact hall (skb :: pre) ((List.prefix_cons_inj skb).mpr hpre)
    · rintro ⟨hlate, hrest⟩ pre hpre
      have hok := h.arrive htag₁ hlate
      rw [← hset] at hok
      have hnil' : RingNewest ((seen ++ [(TcpOptFec.read skb.th.data).blockId.toNat]) ++
          blocksSeen []) (tcpFecRxAll (tcpFecRx fec skb).1 []) := by
        rw [show ∀ l : List ℕ, l ++ blocksSeen [] = l from List.append_nil]
        exact hok.ringNewest
      rcases List.prefix_cons_iff.mp hpre with rfl | ⟨pre', rfl, hpre'⟩
      · exact hnil
      · rw [hcons]
        exact (ih hok htags hnil').mpr hrest pre' hpre'

/-- **The ring tracks the newest blocks exactly as long as no segment is late**: after every one of
a sequence of segments with the FEC option the slots in use are those of the up to four largest
block ids seen, if and only if no segment of a block older than all of a full ring has arrived. -/
theorem ringNewest_iff (fec : TcpFec) (h : FreshRing fec) (skbs : List SkBuff)
    (htag : ∀ skb ∈ skbs, hasFecOption skb.th) :
    (∀ pre, pre <+: skbs → RingNewest (blocksSeen pre) (tcpFecRxAll fec pre)) ↔
      NoneLate fec skbs :=
  @RingOk.run fec [] h.ringOk skbs htag

/-- A source segment of a block, with one byte. -/
def sourceOf (blockId : UInt32) : SkBuff :=
  tcpInitSegment ⟨{ Tcphdr.zero with
    hl := tcpDoffset + tcpOptlenFec / 4, ack := true
    data := tcpWriteFecOption .source 0 blockId }, [7]⟩

theorem freshRing_tcpFecFresh : FreshRing tcpFecFresh := ⟨by decide, by decide, rfl⟩

/-- Five blocks in order: the first one is given up. -/
theorem ringNewest_five : RingNewest (blocksSeen ([0, 1, 2, 3, 4].map sourceOf))
    (tcpFecRxAll tcpFecFresh ([0, 1, 2, 3, 4].map sourceOf)) :=
  (ringNewest_iff tcpFecFresh freshRing_tcpFecFresh ([0, 1, 2, 3, 4].map sourceOf)
    (by decide)).mpr (by decide +kernel) _ (List.prefix_refl _)

/-- A late segment of block 0 takes the slot of block 1, while the newer blocks 1 to 4 have been
seen. -/
theorem not_ringNewest_late : ¬ RingNewest (blocksSeen ([1, 2, 3, 4, 0].map sourceOf))
    (tcpFecRxAll tcpFecFresh ([1, 2, 3, 4, 0].map sourceOf)) := by
  intro h
  have hnewest := h.newest
  revert hnewest
  decide +kernel

end LvlIp.Tcp
