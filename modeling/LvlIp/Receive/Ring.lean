import LvlIp.Receive.Recover

/-!
# Recovery from any arrival sequence

The segments of a coded stream arrive at `tcp_fec_input`, any subset of them, in any order and any
number of times. Beside the FEC state runs a record of what happened to each block since it last
got a slot: the symbols registered and the segments spliced in (`FecRun`).

* `fecRun_spliced`: what is spliced in is the stream, and every block that has a slot and from
  which enough symbols have been registered is complete, each of its source symbols having come
  once from the wire or once from a splice.
-/

namespace LvlIp.Tcp

open Fec Foundations

/-! ## One segment -/

/-- The symbol that an option names. -/
def codedSymbol (opt : TcpOptFec) : Symbol :=
  if opt.type = FecSymType.source.toByte then .source opt.index.toNat
  else .redundant opt.index.toNat

/-- The registration of a symbol of either kind. -/
def TcpFecBlockRx.register (blk : TcpFecBlockRx) (fec : TcpFec) (skb : SkBuff) :
    Symbol → TcpFecBlockRx
  | .source i => blk.addSource fec i skb
  | .redundant j => blk.addRepair fec j skb

/-- The ring with a new slot at `i`. -/
def TcpFec.putSlot (fec : TcpFec) (i : ℕ) (blk : TcpFecBlockRx) : TcpFec :=
  { fec with rx := fec.rx.set i blk }

/-- What `tcp_fec_input` does with a coded segment of block `blockId`. -/
def tcpFecRxCoded (fec : TcpFec) (blockId : UInt32) (skb : SkBuff) (s : Symbol) :
    TcpFecBlockRx × List Splice :=
  tcpFecRxRecover fec ((tcpFecRxSlot fec blockId).2.register fec skb s)

/-- Some slot is in use for the block. -/
def TcpFec.holds (fec : TcpFec) (blockId : UInt32) : Bool :=
  fec.rx.any fun blk => blk.active && blk.blockId == blockId

section Segment

variable {C : Coding} {A : ℕ → Symbol → Prop} {n : ℕ} {s : Symbol} {skb : SkBuff} {fec : TcpFec}

theorem Coding.Carries.blockId (h : C.Carries skb n s) :
    (TcpOptFec.read skb.th.data).blockId = C.blockId n := by
  cases h with
  | source _ _ hread => rw [hread]
  | repair _ _ hread => rw [hread]

theorem Coding.toNat_index {m : ℕ} (hm : m < 128) : (UInt8.ofNat m).toNat = m := by
  rw [UInt8.toNat_ofNat']
  omega

theorem Coding.Carries.symbol (h : C.Carries skb n s) (hn : n < C.blocks.length) :
    codedSymbol (TcpOptFec.read skb.th.data) = s := by
  have hk := C.k_le
  have hr := C.r_le
  have hle : C.size n ≤ C.k := (Coding.blockOk hn).le
  unfold fecBlkMaxK at hk
  unfold fecBlkMaxR at hr
  cases h with
  | source hi _ hread =>
    rw [hread, codedSymbol, if_pos rfl, Coding.toNat_index (by omega)]
  | repair hj _ hread =>
    rw [hread, codedSymbol, if_neg (show ¬ FecSymType.repair.toByte = _ by decide),
      Coding.toNat_index (by omega)]

/-- A source segment goes on to the stream, a repair segment is consumed. -/
theorem tcpFecRx_of_carries (h : C.Carries skb n s) (hn : n < C.blocks.length)
    (hfec : FecOf C fec) :
    tcpFecRx fec skb =
      (fec.putSlot (tcpFecRxSlot fec (C.blockId n)).1 (tcpFecRxCoded fec (C.blockId n) skb s).1,
        (tcpFecRxCoded fec (C.blockId n) skb s).2, isRedundant s) := by
  have hk := C.k_le
  have hr := C.r_le
  have hle : C.size n ≤ C.k := (Coding.blockOk hn).le
  unfold fecBlkMaxK at hk
  unfold fecBlkMaxR at hr
  cases h with
  | source hi hopt hread =>
    rw [tcpFecRx, if_pos hopt, hread]
    dsimp only
    rw [if_pos rfl, Coding.toNat_index (by omega), if_neg (by rw [hfec.k]; omega)]
    rfl
  | @repair j rh ps hj hopt hread _ _ _ hps hpay =>
    have hlen : skb.dlen = fecRepairHdrLen + C.symLen := by
      rw [SkBuff.dlen, hpay, List.length_append, length_write]
      rw [Coding.parity_parityList hn, Option.some_inj] at hps
      rw [← hps, Coding.length_getD_parityList hn hj]
    rw [tcpFecRx, if_pos hopt, hread]
    dsimp only
    rw [if_neg (by decide), if_pos rfl, Coding.toNat_index (by omega),
      if_neg (by rw [hfec.r, hfec.symLen]; omega)]
    rfl

/-- **A coded segment keeps its slot in order.** -/
theorem SlotOk.coded {regs : List Symbol} {spl : List Splice} {blk : TcpFecBlockRx}
    (h : SlotOk C A n regs spl blk) (hact : blk.active = true) (hfec : FecOf C fec)
    (hn : n < C.blocks.length) (hskb : C.Carries skb n s) (hA : A n s) :
    SlotSettled C A n (blk.registered s regs)
      (spl ++ (tcpFecRxRecover fec (blk.register fec skb s)).2)
      (tcpFecRxRecover fec (blk.register fec skb s)).1 := by
  refine SlotOk.recover ?_ ?_ hfec hn
  · cases hskb with
    | source hi _ _ hseq hpay => exact h.addSource hfec hn hi hA hseq hpay
    | repair hj _ _ hk hbase htail hps hpay =>
      rw [Coding.parity_parityList hn, Option.some_inj] at hps
      exact h.addRepair hfec hn hj hA hk hbase htail (hps ▸ hpay)
  · cases s with
    | source i =>
      simp only [TcpFecBlockRx.register, TcpFecBlockRx.addSource]
      split_ifs <;> exact hact
    | redundant j =>
      simp only [TcpFecBlockRx.register, TcpFecBlockRx.addRepair]
      split_ifs <;> exact hact

end Segment

/-! ## The ring -/

theorem getD_set_slot (rx : List TcpFecBlockRx) {i : ℕ} (hi : i < rx.length) (b : TcpFecBlockRx)
    (j : ℕ) : (rx.set i b).getD j .empty = if j = i then b else rx.getD j .empty := by
  rw [List.getD_eq_getElem?_getD, List.getElem?_set, List.getD_eq_getElem?_getD]
  by_cases hij : i = j
  · subst hij
    simp [hi]
  · simp [hij, Ne.symm hij]

theorem tcpFecVictim_lt {rx : List TcpFecBlockRx} (h : rx ≠ []) : tcpFecVictim rx < rx.length := by
  unfold tcpFecVictim
  split
  · next i hi => exact (List.findIdx?_eq_some_iff_getElem.mp hi).1
  · refine List.foldlRecOn (motive := fun v => v < rx.length) (List.range rx.length) _
      (List.length_pos_of_ne_nil h) fun v hv i hi => ?_
    rw [List.mem_range] at hi
    split
    · exact hi
    · exact hv

theorem TcpFec.holds_of_active (fec : TcpFec) {blockId : UInt32} {i : ℕ}
    (hact : (fec.rx.getD i .empty).active) (hid : (fec.rx.getD i .empty).blockId = blockId) :
    fec.holds blockId = true := by
  rcases Nat.lt_or_ge i fec.rx.length with hi | hi
  · rw [List.getD_eq_getElem _ _ hi] at hact hid
    exact List.any_eq_true.mpr ⟨_, List.getElem_mem hi, by simp [hact, hid]⟩
  · rw [List.getD_eq_default _ _ hi] at hact
    cases hact

/-- **The slot of a block**: the one in use for it, or a newly claimed one. -/
theorem tcpFecRxSlot_spec (fec : TcpFec) (hne : fec.rx ≠ []) (blockId : UInt32) :
    (tcpFecRxSlot fec blockId).1 < fec.rx.length ∧
    ((tcpFecRxSlot fec blockId).2 = fec.rx.getD (tcpFecRxSlot fec blockId).1 .empty ∧
        fec.holds blockId = true ∧ (tcpFecRxSlot fec blockId).2.active = true ∧
        (tcpFecRxSlot fec blockId).2.blockId = blockId ∨
      (tcpFecRxSlot fec blockId).2 =
          (fec.rx.getD (tcpFecRxSlot fec blockId).1 .empty).claim fec blockId ∧
        fec.holds blockId = false) := by
  unfold tcpFecRxSlot
  split
  · next i hi =>
    obtain ⟨hlt, hp, -⟩ := List.findIdx?_eq_some_iff_getElem.mp hi
    obtain ⟨hact, hid⟩ := Bool.and_eq_true_iff.mp hp
    rw [List.getD_eq_getElem _ _ hlt]
    refine ⟨hlt, .inl ⟨rfl, ?_, hact, by simpa using hid⟩⟩
    exact List.any_eq_true.mpr ⟨_, List.getElem_mem hlt, hp⟩
  · next hnone =>
    refine ⟨tcpFecVictim_lt hne, .inr ⟨rfl, ?_⟩⟩
    rw [List.findIdx?_eq_none_iff] at hnone
    exact List.any_eq_false.mpr fun blk hblk => by simpa using hnone blk hblk

/-! ## Runs -/

/-- The FEC state, and for each block what has been registered and spliced in since it last got a
slot; `all` is everything ever spliced in. -/
structure FecRun where
  fec : TcpFec
  regs : UInt32 → List Symbol
  spliced : UInt32 → List Splice
  all : List Splice

/-- A fresh FEC state. -/
def FecRun.start (fec : TcpFec) : FecRun where
  fec := fec
  regs := fun _ => []
  spliced := fun _ => []
  all := []

/-- The arrival of a coded segment. A block that has no slot starts over. -/
def FecRun.arrive (run : FecRun) (skb : SkBuff) : FecRun :=
  let opt := TcpOptFec.read skb.th.data
  let fresh := ! run.fec.holds opt.blockId
  let blk := (tcpFecRxSlot run.fec opt.blockId).2
  let r := tcpFecRx run.fec skb
  { fec := r.1
    regs := Function.update run.regs opt.blockId
      (blk.registered (codedSymbol opt) (if fresh then [] else run.regs opt.blockId))
    spliced := Function.update run.spliced opt.blockId
      ((if fresh then [] else run.spliced opt.blockId) ++ r.2.1)
    all := run.all ++ r.2.1 }

/-- The invariant of a run. -/
structure RingInv (C : Coding) (A : ℕ → Symbol → Prop) (run : FecRun) : Prop where
  fecOf : FecOf C run.fec
  ne : run.fec.rx ≠ []
  buf : ∀ i, (run.fec.rx.getD i .empty).symbolBuf = [] ∨
    (run.fec.rx.getD i .empty).symbolBuf.length = C.k + C.r
  unique : ∀ i j, (run.fec.rx.getD i .empty).active → (run.fec.rx.getD j .empty).active →
    (run.fec.rx.getD i .empty).blockId = (run.fec.rx.getD j .empty).blockId → i = j
  slots : ∀ i, (run.fec.rx.getD i .empty).active → ∃ n < C.blocks.length,
    SlotSettled C A n (run.regs (C.blockId n)) (run.spliced (C.blockId n))
      (run.fec.rx.getD i .empty)
  all : ∀ sp ∈ run.all, ∃ n < C.blocks.length, C.SpliceOf n sp ∧ ∃ j, A n (.redundant j)

section Run

variable {C : Coding} {A : ℕ → Symbol → Prop} {run : FecRun}

/-- The initial state of an FEC connection. -/
theorem ringInv_start {fec : TcpFec} (hfec : FecOf C fec)
    (hrx : fec.rx = List.replicate tcpFecRxBlocks .empty) : RingInv C A (.start fec) := by
  have hempty : ∀ i, fec.rx.getD i .empty = .empty := by
    intro i
    rw [hrx, List.getD_eq_getElem?_getD, List.getElem?_replicate]
    split <;> rfl
  have hinactive : ∀ i, ¬ (fec.rx.getD i .empty).active := by
    intro i
    rw [hempty]
    exact Bool.false_ne_true
  refine ⟨hfec, ?_, fun i => .inl ?_, fun i j hi => absurd hi (hinactive i),
    fun i hi => absurd hi (hinactive i), by simp [FecRun.start]⟩
  · simp [FecRun.start, hrx, tcpFecRxBlocks]
  · change (fec.rx.getD i .empty).symbolBuf = []
    rw [hempty]
    rfl

/-- What the slot of a block says before the segment is registered. -/
theorem RingInv.slot (h : RingInv C A run) {n : ℕ} (hn : n < C.blocks.length) :
    (tcpFecRxSlot run.fec (C.blockId n)).2.active = true ∧
      SlotOk C A n (if ! run.fec.holds (C.blockId n) then [] else run.regs (C.blockId n))
        (if ! run.fec.holds (C.blockId n) then [] else run.spliced (C.blockId n))
        (tcpFecRxSlot run.fec (C.blockId n)).2 := by
  obtain ⟨-, ⟨heq, hholds, hact, hid⟩ | ⟨heq, hholds⟩⟩ :=
    tcpFecRxSlot_spec run.fec h.ne (C.blockId n)
  · refine ⟨hact, ?_⟩
    obtain ⟨m, hm, hslot⟩ := h.slots _ (heq ▸ hact)
    rw [← heq] at hslot
    obtain rfl : m = n := C.blockId_inj m hm n hn (hslot.blockId.symm.trans hid)
    simpa [hholds] using hslot.toSlotOk
  · rw [hholds, heq]
    exact ⟨rfl, slotOk_claim h.fecOf n (h.buf _)⟩

/-- **One segment of the stream keeps the ring in order.** -/
theorem RingInv.arrive (h : RingInv C A run) {n : ℕ} {s : Symbol} {skb : SkBuff}
    (hn : n < C.blocks.length) (hskb : C.Carries skb n s) (hA : A n s) :
    RingInv C A (run.arrive skb) := by
  obtain ⟨hlt, hspec⟩ := tcpFecRxSlot_spec run.fec h.ne (C.blockId n)
  obtain ⟨hact, hslot⟩ := h.slot hn
  have hnew := hslot.coded hact h.fecOf hn hskb hA
  change SlotSettled C A n _ (_ ++ (tcpFecRxCoded run.fec (C.blockId n) skb s).2)
    (tcpFecRxCoded run.fec (C.blockId n) skb s).1 at hnew
  -- no other slot is in use for the block
  have hother : ∀ j, j ≠ (tcpFecRxSlot run.fec (C.blockId n)).1 →
      (run.fec.rx.getD j .empty).active →
      (run.fec.rx.getD j .empty).blockId ≠ C.blockId n := by
    intro j hj hactj hid
    rcases hspec with ⟨heq, -, -, hid'⟩ | ⟨-, hholds⟩
    · exact hj (h.unique _ _ hactj (heq ▸ hact) (hid.trans (heq ▸ hid').symm))
    · have := run.fec.holds_of_active hactj hid
      rw [hholds] at this
      cases this
  rw [FecRun.arrive, hskb.blockId, hskb.symbol hn, tcpFecRx_of_carries hskb hn h.fecOf]
  dsimp only
  generalize (tcpFecRxSlot run.fec (C.blockId n)).1 = i at hlt hspec hother ⊢
  refine ⟨⟨h.fecOf.k, h.fecOf.r, h.fecOf.symLen, h.fecOf.ctx⟩, ?_, fun j => ?_, fun j j' => ?_,
    fun j => ?_, fun sp hsp => ?_⟩
  · exact List.ne_nil_of_length_pos (by simp [TcpFec.putSlot]; omega)
  · simp only [TcpFec.putSlot, getD_set_slot _ hlt]
    split
    · exact .inr hnew.symbolBuf_length
    · exact h.buf j
  · simp only [TcpFec.putSlot, getD_set_slot _ hlt]
    split
    · next hj =>
      split
      · next hj' => exact fun _ _ _ => hj.trans hj'.symm
      · next hj' =>
        intro _ hactj' hid
        exact absurd (hid.symm.trans hnew.blockId) (hother j' hj' hactj')
    · next hj =>
      split
      · intro hactj _ hid
        exact absurd (hid.trans hnew.blockId) (hother j hj hactj)
      · exact h.unique j j'
  · simp only [TcpFec.putSlot, getD_set_slot _ hlt]
    split
    · intro _
      refine ⟨n, hn, ?_⟩
      rw [Function.update_self, Function.update_self]
      exact hnew
    · next hj =>
      intro hactj
      obtain ⟨m, hm, hslotm⟩ := h.slots j hactj
      have hne : C.blockId m ≠ C.blockId n := fun he => hother j hj hactj (hslotm.blockId.trans he)
      refine ⟨m, hm, ?_⟩
      rw [Function.update_of_ne hne, Function.update_of_ne hne]
      exact hslotm
  · rcases List.mem_append.mp hsp with hsp | hsp
    · exact h.all sp hsp
    · have hmem := List.mem_append_right (if ! run.fec.holds (C.blockId n) then []
        else run.spliced (C.blockId n)) hsp
      obtain ⟨j, hj⟩ := hnew.spl_red (List.ne_nil_of_mem hmem)
      exact ⟨n, hn, hnew.spl_of sp hmem, j, hnew.regs_arrived _ hj⟩

/-- A block has a slot after a segment of it has arrived. -/
theorem RingInv.holds_arrive (h : RingInv C A run) {n : ℕ} {s : Symbol} {skb : SkBuff}
    (hn : n < C.blocks.length) (hskb : C.Carries skb n s) (hA : A n s) :
    (run.arrive skb).fec.holds (C.blockId n) = true := by
  obtain ⟨hlt, -⟩ := tcpFecRxSlot_spec run.fec h.ne (C.blockId n)
  obtain ⟨hact, hslot⟩ := h.slot hn
  have hnew := hslot.coded hact h.fecOf hn hskb hA
  have hget : (run.arrive skb).fec.rx.getD (tcpFecRxSlot run.fec (C.blockId n)).1 .empty =
      (tcpFecRxCoded run.fec (C.blockId n) skb s).1 := by
    rw [FecRun.arrive, tcpFecRx_of_carries hskb hn h.fecOf]
    exact (getD_set_slot _ hlt _ _).trans (if_pos rfl)
  exact TcpFec.holds_of_active _ (hget ▸ hnew.active) (hget ▸ hnew.blockId)

theorem RingInv.foldl (h : RingInv C A run) {skbs : List SkBuff}
    (hskbs : ∀ skb ∈ skbs, ∃ n < C.blocks.length, ∃ s, C.Carries skb n s ∧ A n s) :
    RingInv C A (skbs.foldl FecRun.arrive run) := by
  induction skbs generalizing run with
  | nil => exact h
  | cons skb skbs ih =>
    obtain ⟨n, hn, s, hskb, hA⟩ := hskbs skb List.mem_cons_self
    exact ih (h.arrive hn hskb hA) fun x hx => hskbs x (List.mem_cons_of_mem _ hx)

/-- A block with a slot is settled there. -/
theorem RingInv.exists_settled (h : RingInv C A run) {n : ℕ} (hn : n < C.blocks.length)
    (hholds : run.fec.holds (C.blockId n)) :
    ∃ blk, SlotSettled C A n (run.regs (C.blockId n)) (run.spliced (C.blockId n)) blk := by
  obtain ⟨-, ⟨heq, -, hact, hid⟩ | hslot⟩ := tcpFecRxSlot_spec run.fec h.ne (C.blockId n)
  · obtain ⟨m, hm, hset⟩ := h.slots _ (heq ▸ hact)
    rw [← heq] at hset
    obtain rfl : m = n := C.blockId_inj m hm n hn (hset.blockId.symm.trans hid)
    exact ⟨_, hset⟩
  · rw [hholds] at hslot
    cases hslot.2

/-- A settled block with enough symbols is complete. -/
theorem SlotSettled.complete_of_le {n : ℕ} {regs : List Symbol} {spl : List Splice}
    {blk : TcpFecBlockRx} (h : SlotSettled C A n regs spl blk)
    (hcard : C.size n ≤ regs.toFinset.card) (hred : ∃ j, .redundant j ∈ regs) {i : ℕ}
    (hi : i < C.size n) :
    .source i ∈ regs ∧ (spl.map Splice.index).count i = 0 ∨
      .source i ∉ regs ∧ (spl.map Splice.index).count i = 1 := by
  have hrec : blk.recovered = true := by
    by_contra hr
    obtain ⟨j, hj⟩ := hred
    have hlt := h.settled (by simpa using hr) j hj
    rw [List.toFinset_card_of_nodup h.regs_nodup] at hcard
    omega
  by_cases hs : Symbol.source i ∈ regs
  · refine .inl ⟨hs, List.count_eq_zero_of_not_mem fun hmem => ?_⟩
    obtain ⟨sp, hsp, rfl⟩ := List.mem_map.mp hmem
    exact h.spl_new sp hsp hs
  · obtain ⟨sp, hsp, hidx⟩ := ((h.src i).mp (h.complete hrec i hi)).resolve_left hs
    exact .inr ⟨hs, List.count_eq_one_of_mem h.spl_nodup (List.mem_map.mpr ⟨sp, hsp, hidx⟩)⟩

/-- **Recovery from any arrival sequence.** Every segment spliced in holds the symbol of its
place, at the sequence number and with the length of that symbol. In a block whose slot is still
in use, once as many symbols as the block has sources have been registered, a repair among them,
each source symbol has been registered from the wire or else spliced in exactly once. -/
theorem fecRun_spliced (C : Coding) {fec : TcpFec} (hfec : FecOf C fec)
    (hrx : fec.rx = List.replicate tcpFecRxBlocks .empty) {skbs : List SkBuff}
    (hskbs : ∀ skb ∈ skbs, ∃ n < C.blocks.length, ∃ s, C.Carries skb n s) :
    let run := skbs.foldl FecRun.arrive (.start fec)
    (∀ sp ∈ run.all, ∃ n < C.blocks.length, sp.index < C.size n ∧
      sp.seq = seqAt C.base (C.offset n + sp.index * C.symLen) ∧ sp.data = C.symbol n sp.index ∧
      SliceAt C.stream (C.offset n + sp.index * C.symLen) sp.data) ∧
    ∀ n < C.blocks.length, run.fec.holds (C.blockId n) →
      C.size n ≤ (run.regs (C.blockId n)).toFinset.card →
      (∃ j, .redundant j ∈ run.regs (C.blockId n)) → ∀ i < C.size n,
        .source i ∈ run.regs (C.blockId n) ∧
            ((run.spliced (C.blockId n)).map Splice.index).count i = 0 ∨
          .source i ∉ run.regs (C.blockId n) ∧
            ((run.spliced (C.blockId n)).map Splice.index).count i = 1 := by
  intro run
  have hinv : RingInv C (fun _ _ => True) run :=
    (ringInv_start hfec hrx).foldl fun skb hskb => by
      obtain ⟨n, hn, s, hs⟩ := hskbs skb hskb
      exact ⟨n, hn, s, hs, trivial⟩
  refine ⟨fun sp hsp => ?_, fun n hn hholds hcard hred i hi => ?_⟩
  · obtain ⟨n, hn, hof, -⟩ := hinv.all sp hsp
    refine ⟨n, hn, hof.lt, hof.seq, hof.data, ?_⟩
    rw [hof.data]
    exact Coding.sliceAt_symbol hn hof.lt
  · obtain ⟨blk, hset⟩ := hinv.exists_settled hn hholds
    exact hset.complete_of_le hcard hred hi

end Run

/-! ## A block with a lost symbol -/

/-- A stream of three bytes in one block of two symbols. -/
def threeByteCoding : Coding where
  k := 2
  r := 1
  symLen := 2
  base := 1001
  blocks := [[[1, 2], [3]]]
  blockId := fun _ => 0
  geometry := by decide
  blocks_ok := by
    intro b hb
    rw [List.mem_singleton.mp hb]
    refine ⟨by decide, by decide, fun i hi => ?_, by decide, by decide⟩
    obtain rfl : i = 0 := by
      have : i + 1 < 2 := hi
      omega
    rfl
  blockId_inj := by
    intro m hm n hn _
    rw [List.length_singleton] at hm hn
    omega

/-- An FEC state of that geometry. -/
def fecTwoOne : TcpFec where
  k := 2
  r := 1
  symLen := 2
  ctx := fecRsInit
  txBlockId := 0
  txBaseSeq := 0
  txFilled := 0
  txTailLen := 0
  enc := { ctx := fecRsInit, k := 2, r := 1, symLen := 2, srcX := [1, 2], redX := [3], src := [] }
  txSrcBuf := []
  rx := List.replicate tcpFecRxBlocks .empty

/-- A segment with symbol `index` of block 0. -/
def codedSegment (type : FecSymType) (index : UInt8) (seq : UInt32) (payload : List UInt8) :
    SkBuff :=
  tcpInitSegment
    { th := { Tcphdr.zero with seq, ack := true, hl := 7, data := tcpWriteFecOption type index 0 }
      payload }

/-- The first symbol of the block. -/
def firstSource : SkBuff := codedSegment .source 0 1001 [1, 2]

/-- The repair segment of the block. -/
def firstRepair : SkBuff :=
  codedSegment .repair 0 1004
    (FecRepairHdr.write { version := 1, k := 2, r := 1, repairIndex := 0, blockId := 0
                          baseSeq := 1001, symLen := 2, tailLen := 1 } ++
      (threeByteCoding.parityList 0).getD 0 [])

theorem carries_firstSource : threeByteCoding.Carries firstSource 0 (.source 0) :=
  .source (by decide) (by decide) (by decide) (by decide) rfl

theorem carries_firstRepair : threeByteCoding.Carries firstRepair 0 (.redundant 0) :=
  .repair (by decide) (by decide) (by decide) rfl (by decide) rfl
    (Coding.parity_parityList (by decide)) rfl

/-- The second symbol is lost and comes back as one spliced segment, the byte 3 at 1003. -/
theorem fecRun_spliced_three_bytes :
    let run := [firstSource, firstRepair].foldl FecRun.arrive (.start fecTwoOne)
    ((run.spliced 0).map Splice.index).count 1 = 1 ∧
      ∀ sp ∈ run.all, sp.index = 1 → sp.seq = 1003 ∧ sp.data = [3] := by
  intro run
  have hfec : FecOf threeByteCoding fecTwoOne := ⟨rfl, rfl, rfl, rfl⟩
  have hskbs : ∀ skb ∈ [firstSource, firstRepair], ∃ n < threeByteCoding.blocks.length, ∃ s,
      threeByteCoding.Carries skb n s := by
    intro skb hskb
    simp only [List.mem_cons, List.not_mem_nil, or_false] at hskb
    rcases hskb with rfl | rfl
    · exact ⟨0, by decide, _, carries_firstSource⟩
    · exact ⟨0, by decide, _, carries_firstRepair⟩
  obtain ⟨hall, hblock⟩ := fecRun_spliced threeByteCoding hfec rfl hskbs
  have hregs : run.regs 0 = [.source 0, .redundant 0] := rfl
  have hholds : run.fec.holds 0 = true :=
    RingInv.holds_arrive (A := fun _ _ => True) (((ringInv_start hfec rfl)).arrive (by decide)
      carries_firstSource trivial) (by decide) carries_firstRepair trivial
  refine ⟨?_, fun sp hsp hidx => ?_⟩
  · have h1 : 2 ≤ (run.regs 0).toFinset.card → (∃ j, .redundant j ∈ run.regs 0) → ∀ i < 2,
        .source i ∈ run.regs 0 ∧ ((run.spliced 0).map Splice.index).count i = 0 ∨
          .source i ∉ run.regs 0 ∧ ((run.spliced 0).map Splice.index).count i = 1 :=
      hblock 0 (by decide) hholds
    rw [hregs] at h1
    rcases h1 (by decide) ⟨0, by decide⟩ 1 (by decide) with ⟨hmem, -⟩ | ⟨-, hcount⟩
    · exact absurd hmem (by decide)
    · exact hcount
  · obtain ⟨n, hn, -, hseq, hdata, -⟩ := hall sp hsp
    obtain rfl : n = 0 := by
      have : n < 1 := hn
      omega
    rw [hidx] at hseq hdata
    exact ⟨hseq, hdata⟩

end LvlIp.Tcp
