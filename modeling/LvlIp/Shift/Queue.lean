import LvlIp.Shift.State

/-!
# The receive queues under a translation

Reading and the draining of the out-of-order queue compare sequence numbers for equality only, so
they do not notice a translation. The insertion into the out-of-order queue compares by size, and
the SACK blocks use 0 for an edge that is not set: both are indifferent to it as long as the
numbers in the queue keep their order and stay off 0 (`QueueOk`).
-/

namespace LvlIp.Tcp

open Fec Foundations

/-! ## Reading -/

section Reading

variable {σ : Shift} {s s' : TcpSock}

theorem shift_tcpDequeueLoop (q : List SkBuff) (n : ℕ) :
    tcpDequeueLoop (q.map (SkBuff.shiftIn σ)) n =
      ((tcpDequeueLoop q n).1, (tcpDequeueLoop q n).2.1.map (SkBuff.shiftIn σ),
        (tcpDequeueLoop q n).2.2) := by
  induction q generalizing n with
  | nil => rfl
  | cons skb q ih =>
    have hdlen : (skb.shiftIn σ).dlen = skb.dlen := rfl
    have hpsh : (skb.shiftIn σ).th.psh = skb.th.psh := by
      unfold SkBuff.shiftIn
      dsimp only
      split <;> rfl
    rw [List.map_cons]
    unfold tcpDequeueLoop
    rw [hdlen, hpsh]
    split
    · rfl
    · split
      · rfl
      · dsimp only
        rw [ih]
        rfl

theorem Shifted.dataDequeue (h : Shifted σ s s') (n : ℕ) :
    Shifted σ (tcpDataDequeue s n).1 (tcpDataDequeue s' n).1 ∧
      (tcpDataDequeue s' n).2 = (tcpDataDequeue s n).2 := by
  have hq : s'.receiveQueue = s.receiveQueue.map (SkBuff.shiftIn σ) := by rw [h.eq]; rfl
  unfold tcpDataDequeue
  rw [hq, shift_tcpDequeueLoop]
  exact ⟨h.of (by rw [h.eq]; rfl) ⟨rfl, rfl, rfl⟩, rfl⟩

theorem Shifted.receiveStep (h : Shifted σ s s') (rd : Reader) :
    Shifted σ (tcpReceiveStep s rd).1 (tcpReceiveStep s' rd).1 ∧
      (tcpReceiveStep s' rd).2 = (tcpReceiveStep s rd).2 := by
  obtain ⟨hd, hbytes⟩ := h.dataDequeue rd.room
  unfold tcpReceiveStep
  dsimp only
  rw [hbytes]
  generalize (tcpDataDequeue s rd.room).2 = bytes
  generalize (tcpDataDequeue s rd.room).1 = s₁ at hd
  generalize (tcpDataDequeue s' rd.room).1 = s₁' at hd
  have hpsh : s₁'.pshFlag = s₁.pshFlag := by rw [hd.eq]; rfl
  have hfin : s₁'.finFlag = s₁.finFlag := by rw [hd.eq]; rfl
  have hnb : s₁'.nonblock = s₁.nonblock := by rw [hd.eq]; rfl
  have hret : ∀ {s₂ s₂' : TcpSock} (got : List UInt8), Shifted σ s₂ s₂' →
      Shifted σ (tcpReceiveReturn s₂ got).1 (tcpReceiveReturn s₂' got).1 ∧
        (tcpReceiveReturn s₂' got).2 = (tcpReceiveReturn s₂ got).2 :=
    fun got h₂ => ⟨h₂.rearmUserTimeout, rfl⟩
  have hclear : Shifted σ { s₁ with pshFlag := false } { s₁' with pshFlag := false } :=
    hd.of (by rw [hd.eq]; rfl) ⟨rfl, rfl, rfl⟩
  rw [if_congr (show s₁'.pshFlag = true ↔ s₁.pshFlag = true by rw [hpsh]) rfl rfl,
    if_congr (show s₁'.finFlag = true ∨ rd.room = bytes.length ↔
      s₁.finFlag = true ∨ rd.room = bytes.length by rw [hfin]) rfl rfl,
    if_congr (show s₁'.nonblock = true ↔ s₁.nonblock = true by rw [hnb]) rfl rfl]
  split
  · exact hret _ h
  · split
    · exact hret _ hclear
    · split
      · exact hret _ hd
      · split
        · split
          · exact ⟨hd, rfl⟩
          · exact hret _ hd
        · exact ⟨hd, rfl⟩

/-- **A read** returns the same bytes. -/
theorem Shifted.read (h : Shifted σ s s') (len : ℕ) :
    Shifted σ (tcpRead s len).1 (tcpRead s' len).1 ∧ (tcpRead s' len).2 = (tcpRead s len).2 := by
  have hst : s'.state = s.state := by rw [h.eq]; rfl
  have hnil : s'.receiveQueue = [] ↔ s.receiveQueue = [] := by
    rw [h.eq]
    exact List.map_eq_nil_iff
  have hfin : s'.finFlag = s.finFlag := by rw [h.eq]; rfl
  have herr : s'.err = s.err := by rw [h.eq]; rfl
  have hstep := h.receiveStep { got := [], room := len }
  unfold tcpRead
  rw [hst]
  cases s.state with
  | closeWait =>
    dsimp only
    rw [if_congr (and_congr hnil (show s'.finFlag = true ↔ s.finFlag = true by rw [hfin])) rfl rfl]
    split
    · exact ⟨h.of (by rw [h.eq]; rfl) ⟨rfl, rfl, rfl⟩, rfl⟩
    · exact hstep
  | close => exact ⟨h, rfl⟩
  | closing | lastAck | timeWait => exact ⟨h, by rw [herr]⟩
  | _ => exact hstep

end Reading

/-! ## The out-of-order queue -/

/-- The edges of the buffer are off 0, before and after the translation. -/
structure Marked (c : UInt32) (y : SkBuff) : Prop where
  seq : y.seq ≠ 0
  endSeq : y.endSeq ≠ 0
  seq_add : y.seq + c ≠ 0
  endSeq_add : y.endSeq + c ≠ 0

/-- The buffer compares to those of the queue as it does after the translation, and all are off
0. -/
structure QueueOk (c : UInt32) (q : List SkBuff) (skb : SkBuff) : Prop where
  marked : Marked c skb
  all : ∀ y ∈ q, Marked c y
  lt : ∀ y ∈ q, (skb.seq < y.seq ↔ skb.seq + c < y.seq + c)
  overlap : ∀ y ∈ q, (y.seq < skb.endSeq ↔ y.seq + c < skb.endSeq + c)

section Queue

variable {σ : Shift} {s s' : TcpSock}

theorem shift_tcpDataInsertOrdered {q : List SkBuff} {skb : SkBuff}
    (hlt : ∀ y ∈ q, (skb.seq < y.seq ↔ skb.seq + σ.rcv < y.seq + σ.rcv))
    (hov : ∀ y ∈ q, (y.seq < skb.endSeq ↔ y.seq + σ.rcv < skb.endSeq + σ.rcv)) :
    tcpDataInsertOrdered (q.map (SkBuff.shiftIn σ)) (skb.shiftIn σ) =
      (tcpDataInsertOrdered q skb).map (SkBuff.shiftIn σ) := by
  induction q with
  | nil => rfl
  | cons next q ih =>
    have hih := ih (fun y hy => hlt y (List.mem_cons_of_mem _ hy))
      fun y hy => hov y (List.mem_cons_of_mem _ hy)
    have h1 : (skb.shiftIn σ).seq < (next.shiftIn σ).seq ↔ skb.seq < next.seq :=
      (hlt next List.mem_cons_self).symm
    have h2 : (next.shiftIn σ).seq < (skb.shiftIn σ).endSeq ↔ next.seq < skb.endSeq :=
      (hov next List.mem_cons_self).symm
    have h3 : (skb.shiftIn σ).seq = (next.shiftIn σ).seq ↔ skb.seq = next.seq :=
      add_left_inj σ.rcv
    rw [List.map_cons]
    unfold tcpDataInsertOrdered
    rw [if_congr h1 rfl rfl, if_congr h2 rfl rfl, if_congr h3 rfl rfl, hih]
    split
    · split <;> rfl
    · split <;> rfl

theorem shift_tcpConsumeLoop (q : List SkBuff) (nxt : UInt32) :
    tcpConsumeLoop (nxt + σ.rcv) (q.map (SkBuff.shiftIn σ)) =
      ((tcpConsumeLoop nxt q).1.map (SkBuff.shiftIn σ),
        (tcpConsumeLoop nxt q).2.1.map (SkBuff.shiftIn σ), (tcpConsumeLoop nxt q).2.2 + σ.rcv) := by
  induction q generalizing nxt with
  | nil => rfl
  | cons skb q ih =>
    have heq : nxt + σ.rcv = (skb.shiftIn σ).seq ↔ nxt = skb.seq := add_left_inj σ.rcv
    have hadd : nxt + σ.rcv + UInt32.ofNat (skb.shiftIn σ).dlen =
        nxt + UInt32.ofNat skb.dlen + σ.rcv := add_right_comm _ _ _
    rw [List.map_cons]
    unfold tcpConsumeLoop
    rw [if_congr heq rfl rfl, hadd, ih]
    split <;> rfl

end Queue

/-! ## SACK blocks -/

/-- A SACK block in use, moved. -/
def TcpSackBlock.shift (c : UInt32) (sb : TcpSackBlock) : TcpSackBlock :=
  if sb.left = 0 then sb else ⟨sb.left + c, sb.right + c⟩

/-- The block is not in use, or its edges are off 0 before and after the translation. -/
def SackMarked (c : UInt32) (sb : TcpSackBlock) : Prop :=
  sb = ⟨0, 0⟩ ∨ sb.left ≠ 0 ∧ sb.right ≠ 0 ∧ sb.left + c ≠ 0 ∧ sb.right + c ≠ 0

/-- The first `n` blocks are in use, and no others; `sb` is the last one of them. -/
structure SacksInUse (n sb : ℕ) (sacks : List TcpSackBlock) : Prop where
  length : sacks.length = 4
  le : n ≤ 4
  used : ∀ i < n, (sacks.getD i ⟨0, 0⟩).left ≠ 0
  free : ∀ i, n ≤ i → sacks.getD i ⟨0, 0⟩ = ⟨0, 0⟩
  last : sb < n ∨ n = 0 ∧ sb = 0

section Sacks

variable {σ : Shift} {c : UInt32}

theorem TcpSackBlock.shift_of_ne {sb : TcpSackBlock} (h : sb.left ≠ 0) :
    sb.shift c = ⟨sb.left + c, sb.right + c⟩ := if_neg h

theorem getD_map_shift (sacks : List TcpSackBlock) (i : ℕ) :
    (sacks.map (TcpSackBlock.shift c)).getD i ⟨0, 0⟩ = (sacks.getD i ⟨0, 0⟩).shift c := by
  rw [List.getD_eq_getElem?_getD, List.getElem?_map, List.getD_eq_getElem?_getD]
  cases sacks[i]? <;> rfl

theorem getD_set_sack (sacks : List TcpSackBlock) (i j : ℕ) (sb : TcpSackBlock)
    (hi : i < sacks.length) :
    (sacks.set i sb).getD j ⟨0, 0⟩ = if j = i then sb else sacks.getD j ⟨0, 0⟩ := by
  rw [List.getD_eq_getElem?_getD, List.getElem?_set, List.getD_eq_getElem?_getD]
  by_cases hij : i = j
  · subst hij
    simp [hi]
  · simp [hij, Ne.symm hij]

theorem sackMarked_getD {sacks : List TcpSackBlock} (h : ∀ sb ∈ sacks, SackMarked c sb) (i : ℕ) :
    SackMarked c (sacks.getD i ⟨0, 0⟩) := by
  rcases Nat.lt_or_ge i sacks.length with hi | hi
  · rw [List.getD_eq_getElem _ _ hi]
    exact h _ (List.getElem_mem hi)
  · rw [List.getD_eq_default _ _ hi]
    exact .inl rfl

theorem sackMarked_set {sacks : List TcpSackBlock} (h : ∀ sb ∈ sacks, SackMarked c sb) (i : ℕ)
    {sb : TcpSackBlock} (hsb : SackMarked c sb) : ∀ x ∈ sacks.set i sb, SackMarked c x := by
  intro x hx
  rcases List.mem_or_eq_of_mem_set hx with hx | rfl
  · exact h x hx
  · exact hsb

/-- **The SACK blocks of a moved queue** are the blocks of the queue, moved. -/
theorem shift_tcpSackLoop (allowed : ℕ) {q : List SkBuff} (hq : ∀ y ∈ q, Marked σ.rcv y)
    (sb n : ℕ) {sacks : List TcpSackBlock} (hsacks : ∀ x ∈ sacks, SackMarked σ.rcv x) :
    tcpSackLoop allowed (q.map (SkBuff.shiftIn σ)) sb n (sacks.map (TcpSackBlock.shift σ.rcv)) =
      ((tcpSackLoop allowed q sb n sacks).1,
        (tcpSackLoop allowed q sb n sacks).2.map (TcpSackBlock.shift σ.rcv)) := by
  induction q generalizing sb n sacks with
  | nil => rfl
  | cons next q ih =>
    have hq' : ∀ y ∈ q, Marked σ.rcv y := fun y hy => hq y (List.mem_cons_of_mem _ hy)
    have hnext := hq next List.mem_cons_self
    have hnew : SackMarked σ.rcv ⟨next.seq, next.endSeq⟩ :=
      .inr ⟨hnext.seq, hnext.endSeq, hnext.seq_add, hnext.endSeq_add⟩
    have hcur := sackMarked_getD hsacks sb
    rw [List.map_cons]
    unfold tcpSackLoop
    rw [getD_map_shift]
    generalize sacks.getD sb ⟨0, 0⟩ = cur at hcur
    have hmoved : TcpSackBlock.shift σ.rcv ⟨next.seq, next.endSeq⟩ =
        ⟨next.seq + σ.rcv, next.endSeq + σ.rcv⟩ := TcpSackBlock.shift_of_ne hnext.seq
    rcases hcur with rfl | ⟨hleft, hright, hleft', hright'⟩
    · -- the block is opened, and holds the buffer
      have hstep := ih hq' sb (n + 1) (sackMarked_set hsacks sb hnew)
      rw [List.map_set, hmoved] at hstep
      exact hstep
    · have hext : SackMarked σ.rcv ⟨cur.left, next.endSeq⟩ :=
        .inr ⟨hleft, hnext.endSeq, hleft', hnext.endSeq_add⟩
      have hcur : SackMarked σ.rcv cur := .inr ⟨hleft, hright, hleft', hright'⟩
      have hkept : TcpSackBlock.shift σ.rcv ⟨cur.left, next.endSeq⟩ =
          ⟨cur.left + σ.rcv, next.endSeq + σ.rcv⟩ := TcpSackBlock.shift_of_ne hleft
      have hedge : cur.right + σ.rcv = 0 ∨ cur.right + σ.rcv = (next.shiftIn σ).seq ↔
          cur.right = 0 ∨ cur.right = next.seq :=
        or_congr (iff_of_false hright' hright) (add_left_inj σ.rcv)
      rw [TcpSackBlock.shift_of_ne hleft]
      dsimp only
      rw [if_neg hleft', if_neg hleft]
      dsimp only
      rw [if_congr hedge rfl rfl]
      split
      · have hstep := ih hq' sb n (sackMarked_set hsacks sb hext)
        rw [List.map_set, hkept] at hstep
        exact hstep
      · split
        · rw [List.map_set, TcpSackBlock.shift_of_ne hleft]
        · have hstep := ih hq' n (n + 1) (sackMarked_set (sackMarked_set hsacks sb hcur) n hnew)
          rw [List.map_set, List.map_set, TcpSackBlock.shift_of_ne hleft, hmoved] at hstep
          exact hstep

theorem sacksInUse_zero : SacksInUse 0 0 (List.replicate 4 ⟨0, 0⟩) where
  length := List.length_replicate
  le := Nat.zero_le 4
  used := fun i hi => absurd hi (Nat.not_lt_zero i)
  free := fun i _ => by
    rw [List.getD_eq_getElem?_getD, List.getElem?_replicate]
    split <;> rfl
  last := .inr ⟨rfl, rfl⟩

theorem sackMarked_replicate : ∀ sb ∈ List.replicate 4 ⟨0, 0⟩, SackMarked c sb := by
  intro sb hsb
  rw [List.eq_of_mem_replicate hsb]
  exact .inl rfl

/-- Opening the first block, or the one after the last. -/
theorem SacksInUse.open {n sb : ℕ} {sacks : List TcpSackBlock} (h : SacksInUse n sb sacks)
    (hn : n < 4) {new : TcpSackBlock} (hnew : new.left ≠ 0) :
    SacksInUse (n + 1) n (sacks.set n new) where
  length := (List.length_set ..).trans h.length
  le := hn
  used := fun i hi => by
    rw [getD_set_sack _ _ _ _ (by rw [h.length]; exact hn)]
    split
    · exact hnew
    · next hne => exact h.used i (by omega)
  free := fun i hi => by
    rw [getD_set_sack _ _ _ _ (by rw [h.length]; exact hn), if_neg (by omega)]
    exact h.free i (by omega)
  last := .inl (Nat.lt_succ_self n)

/-- A block in use is replaced. -/
theorem SacksInUse.replace {n sb : ℕ} {sacks : List TcpSackBlock} (h : SacksInUse n sb sacks)
    (hsb : sb < n) {new : TcpSackBlock} (hnew : new.left ≠ 0) :
    SacksInUse n sb (sacks.set sb new) where
  length := (List.length_set ..).trans h.length
  le := h.le
  used := fun i hi => by
    have := h.le
    rw [getD_set_sack _ _ _ _ (by rw [h.length]; omega)]
    split
    · exact hnew
    · exact h.used i hi
  free := fun i hi => by
    have := h.le
    rw [getD_set_sack _ _ _ _ (by rw [h.length]; omega), if_neg (by omega)]
    exact h.free i hi
  last := .inl hsb

/-- **The blocks that are built** are the first ones, and there is one when the queue is not
empty. -/
theorem sacksInUse_tcpSackLoop {allowed : ℕ} (hallowed : allowed ≤ 4) {q : List SkBuff}
    (hq : ∀ y ∈ q, y.seq ≠ 0) {sb n : ℕ} {sacks : List TcpSackBlock}
    (h : SacksInUse n sb sacks) :
    (∃ sb', SacksInUse (tcpSackLoop allowed q sb n sacks).1 sb'
      (tcpSackLoop allowed q sb n sacks).2) ∧
      n ≤ (tcpSackLoop allowed q sb n sacks).1 ∧
      (q ≠ [] → 0 < (tcpSackLoop allowed q sb n sacks).1) := by
  induction q generalizing sb n sacks with
  | nil => exact ⟨⟨sb, h⟩, le_rfl, fun hne => absurd rfl hne⟩
  | cons next q ih =>
    have hq' : ∀ y ∈ q, y.seq ≠ 0 := fun y hy => hq y (List.mem_cons_of_mem _ hy)
    have hnext := hq next List.mem_cons_self
    have hrec : ∀ {sb' n' : ℕ} {sacks' : List TcpSackBlock}, SacksInUse n' sb' sacks' → n ≤ n' →
        0 < n' → (∃ sb'', SacksInUse (tcpSackLoop allowed q sb' n' sacks').1 sb''
          (tcpSackLoop allowed q sb' n' sacks').2) ∧
          n ≤ (tcpSackLoop allowed q sb' n' sacks').1 ∧
          (next :: q ≠ [] → 0 < (tcpSackLoop allowed q sb' n' sacks').1) := by
      intro sb' n' sacks' h' hle hpos
      obtain ⟨hex, hmono, -⟩ := ih hq' h'
      exact ⟨hex, hle.trans hmono, fun _ => hpos.trans_le hmono⟩
    unfold tcpSackLoop
    rcases h.last with hsb | ⟨rfl, rfl⟩
    · have hused := h.used sb hsb
      generalize sacks.getD sb ⟨0, 0⟩ = cur at hused
      dsimp only
      rw [if_neg hused]
      dsimp only
      split
      · exact hrec (h.replace hsb hused) le_rfl (Nat.zero_lt_of_lt hsb)
      · split
        · exact ⟨⟨sb, h.replace hsb hused⟩, le_rfl, fun _ => Nat.zero_lt_of_lt hsb⟩
        · next hlt =>
          refine hrec ((h.replace hsb hused).open ?_ hnext) (Nat.le_succ n) (Nat.succ_pos n)
          omega
    · rw [h.free 0 le_rfl]
      exact hrec (h.open (by decide) hnext) (Nat.zero_le _) Nat.one_pos

end Sacks

/-! ## The acknowledgement of a segment out of order -/

section OutOfOrder

variable {σ : Shift} {s s' : TcpSock} (env : Env)

/-- The socket after an acknowledgement with SACK blocks. -/
def tcpSackSent (s : TcpSock) : TcpSock :=
  { s with
    nextAddr := s.nextAddr + 1
    sacks := List.replicate 4 ⟨0, 0⟩
    sacklen := 0
    out := s.out ++ [{
      addr := s.nextAddr, tag := none
      seg := ⟨{ Tcphdr.zero with
        ack := true, hl := tcpDoffset + (s.sacklen * 8 + 4) / 4
        seq := s.tcb.sndNxt, ackSeq := s.tcb.rcvNxt
        data := [1, 1, 5, UInt8.ofNat (2 + s.sacklen * 8)] ++ tcpSackBytes s }, []⟩ }] }

theorem tcpOptionsLen_inUse {sb : ℕ} (hok : s.sackok ≠ 0) (hpos : 0 < s.sacklen)
    (h : SacksInUse s.sacklen sb s.sacks) : tcpOptionsLen s = s.sacklen * 8 + 4 := by
  have hall : (List.range s.sacklen).filter (fun i => (s.sacks.getD i ⟨0, 0⟩).left ≠ 0) =
      List.range s.sacklen := by
    refine List.filter_eq_self.2 fun i hi => ?_
    exact decide_eq_true (h.used i (List.mem_range.1 hi))
  unfold tcpOptionsLen
  rw [if_pos ⟨hok, hpos⟩, hall, List.length_range]
  dsimp only
  omega

theorem length_tcpSackBytes (s : TcpSock) : (tcpSackBytes s).length = s.sacklen * 8 := by
  unfold tcpSackBytes
  rw [List.length_flatMap]
  simp [be32]

theorem SacksInUse.clear {n sb : ℕ} {sacks : List TcpSackBlock} (h : SacksInUse n sb sacks) :
    (sacks.mapIdx fun i x => if i < n then ⟨0, 0⟩ else x) =
      List.replicate 4 (⟨0, 0⟩ : TcpSackBlock) := by
  refine List.ext_getElem ?_ fun i hi hi' => ?_
  · rw [List.length_mapIdx, h.length, List.length_replicate]
  · rw [List.getElem_mapIdx, List.getElem_replicate]
    split
    · rfl
    · next hge =>
      have hfree := h.free i (Nat.le_of_not_lt hge)
      rwa [List.getD_eq_getElem _ _ (by simpa using hi)] at hfree

theorem tcpWriteOptions_inUse {sb : ℕ} (hok : s.sackok ≠ 0) (hpos : 0 < s.sacklen)
    (h : SacksInUse s.sacklen sb s.sacks) {th : Tcphdr}
    (hdata : th.data = List.replicate (s.sacklen * 8 + 4) 0) :
    tcpWriteOptions s th =
      ({ s with sacks := List.replicate 4 ⟨0, 0⟩, sacklen := 0 },
        { th with data := [1, 1, 5, UInt8.ofNat (2 + s.sacklen * 8)] ++ tcpSackBytes s }) := by
  have hfree : ¬ (s.sackok = 0 ∨ (s.sacks.getD 0 ⟨0, 0⟩).left = 0) :=
    not_or.2 ⟨hok, h.used 0 hpos⟩
  have hhead : th.data.getD 0 0 ≠ tcpOptFec := by
    rw [hdata, List.replicate_succ, List.getD_cons_zero]
    decide
  have hlen : ([1, 1, 5, UInt8.ofNat (2 + s.sacklen * 8)] ++ tcpSackBytes s).length =
      s.sacklen * 8 + 4 := by
    rw [List.length_append, length_tcpSackBytes]
    exact Nat.add_comm _ _
  unfold tcpWriteOptions
  rw [if_neg hhead, if_neg hfree, h.clear, hdata]
  dsimp only
  rw [hlen, List.length_replicate, List.drop_replicate, Nat.sub_self, List.replicate_zero,
    List.append_nil, List.take_of_length_le hlen.le, List.drop_of_length_le hlen.le,
    Nat.sub_eq_zero_of_le h.le, List.append_nil]
  rfl

/-- **The acknowledgement of a segment out of order** carries the blocks, and clears them. -/
theorem tcpSendAck_inUse {sb : ℕ} (hst : s.state ≠ .close) (hok : s.sackok ≠ 0)
    (hpos : 0 < s.sacklen) (h : SacksInUse s.sacklen sb s.sacks) :
    tcpSendAck env s = tcpSackSent s := by
  have hroom : 5 < tcpDoffset + (s.sacklen * 8 + 4) / 4 := by
    unfold tcpDoffset
    omega
  have hhl : tcpDoffset + (s.sacklen * 8 + 4) / 4 ≠ 0 := Nat.ne_zero_of_lt hroom
  unfold tcpSendAck
  rw [if_neg hst, tcpOptionsLen_inUse hok hpos h]
  dsimp only [tcpAllocSkb]
  unfold tcpTransmitSkb tcpFillOptions tcpFillHeader
  dsimp only
  rw [if_neg hhl, if_pos hroom]
  generalize hs₁ : { s with nextAddr := s.nextAddr + 1 } = s₁
  have hwrite := @tcpWriteOptions_inUse s₁ sb (hs₁ ▸ hok) (hs₁ ▸ hpos) (hs₁ ▸ h)
  rw [hwrite (by rw [← hs₁])]
  subst hs₁
  rfl

theorem shift_tcpSackBytes {sb : ℕ} (h : SacksInUse s.sacklen sb s.sacks) (c : UInt32)
    (hlen : s'.sacklen = s.sacklen) (hsacks : s'.sacks = s.sacks.map (TcpSackBlock.shift c)) :
    tcpSackBytes s' = shiftWords c (tcpSackBytes s) := by
  have hall : ∀ idx : List ℕ, (∀ i ∈ idx, i < s.sacklen) →
      (idx.flatMap fun i => be32 (s'.sacks.getD i ⟨0, 0⟩).left ++
        be32 (s'.sacks.getD i ⟨0, 0⟩).right) =
      shiftWords c (idx.flatMap fun i => be32 (s.sacks.getD i ⟨0, 0⟩).left ++
        be32 (s.sacks.getD i ⟨0, 0⟩).right) := by
    intro idx hidx
    induction idx with
    | nil => rfl
    | cons i idx ih =>
      have hused := h.used i (hidx i List.mem_cons_self)
      rw [List.flatMap_cons, List.flatMap_cons, ih fun j hj => hidx j (List.mem_cons_of_mem _ hj),
        List.append_assoc, List.append_assoc, shiftWords_be32, shiftWords_be32, hsacks,
        getD_map_shift, TcpSackBlock.shift_of_ne hused]
  unfold tcpSackBytes
  rw [hlen]
  exact hall _ fun i hi => List.mem_range.1 (List.mem_reverse.1 hi)

/-- The blocks of a socket out of order that has not sent them yet, moved. -/
def TcpSock.shiftSacks (σ : Shift) (s : TcpSock) : TcpSock :=
  { s.shift σ with sacks := s.sacks.map (TcpSackBlock.shift σ.rcv) }

theorem shift_tcpSackSent {sb : ℕ} (h : SacksInUse s.sacklen sb s.sacks) :
    tcpSackSent (s.shiftSacks σ) = (tcpSackSent s).shift σ := by
  have hbytes : tcpSackBytes (s.shiftSacks σ) = shiftWords σ.rcv (tcpSackBytes s) :=
    shift_tcpSackBytes h σ.rcv rfl rfl
  unfold tcpSackSent
  rw [hbytes]
  unfold TcpSock.shiftSacks TcpSock.shift
  dsimp only
  rw [List.map_append]
  rfl

theorem tcpSackLoop_same {σ : Shift} (hzero : σ.rcv = 0) (allowed : ℕ) (q : List SkBuff)
    (sb n : ℕ) (sacks : List TcpSackBlock) :
    tcpSackLoop allowed (q.map (SkBuff.shiftIn σ)) sb n sacks =
      tcpSackLoop allowed q sb n sacks := by
  induction q generalizing sb n sacks with
  | nil => rfl
  | cons next q ih =>
    have hseq : (next.shiftIn σ).seq = next.seq := by
      change next.seq + σ.rcv = _
      rw [hzero, UInt32.add_zero]
    have hend : (next.shiftIn σ).endSeq = next.endSeq := by
      change next.endSeq + σ.rcv = _
      rw [hzero, UInt32.add_zero]
    rw [List.map_cons]
    unfold tcpSackLoop
    simp only [hseq, hend, ih]

theorem tcpSackBlocks_same {σ : Shift} (hzero : σ.rcv = 0) (s : TcpSock) :
    tcpSackBlocks (s.shift σ) = tcpSackBlocks s := by
  unfold tcpSackBlocks TcpSock.shift
  dsimp only
  rw [tcpSackLoop_same hzero, tcpSackLoop_same hzero]

/-- The buffer may be queued out of order. -/
def DataOk (c : UInt32) (s : TcpSock) (skb : SkBuff) : Prop :=
  s.tcb.rcvWnd ≠ 0 → skb.seq ≠ s.tcb.rcvNxt → QueueOk c s.ofoQueue skb

theorem ne_nil_tcpDataInsertOrdered (q : List SkBuff) (skb : SkBuff) :
    tcpDataInsertOrdered q skb ≠ [] := by
  cases q with
  | nil => exact List.cons_ne_nil skb []
  | cons next q =>
    unfold tcpDataInsertOrdered
    split
    · split <;> exact List.cons_ne_nil _ _
    · split <;> exact List.cons_ne_nil _ _

/-- The blocks of a socket at rest are built from the first one on. -/
theorem tcpCalculateSacks_rest (hrest : AtRest s) : tcpCalculateSacks s = { s with
    sacklen := (tcpSackLoop s.sacksAllowed s.ofoQueue 0 0 (List.replicate 4 ⟨0, 0⟩)).1
    sacks := (tcpSackLoop s.sacksAllowed s.ofoQueue 0 0 (List.replicate 4 ⟨0, 0⟩)).2 } := by
  unfold tcpCalculateSacks
  rw [tcpSackBlocks_of_lt (by rw [hrest.sacklen]; decide), hrest.sacklen, hrest.sacks]
  rfl

theorem sacksInUse_tcpCalculateSacks (hrest : AtRest s) (hq : ∀ y ∈ s.ofoQueue, y.seq ≠ 0)
    (hne : s.ofoQueue ≠ []) :
    0 < (tcpCalculateSacks s).sacklen ∧
      ∃ sb, SacksInUse (tcpCalculateSacks s).sacklen sb (tcpCalculateSacks s).sacks := by
  obtain ⟨huse, -, hpos⟩ := sacksInUse_tcpSackLoop hrest.allowed hq sacksInUse_zero
  rw [tcpCalculateSacks_rest hrest]
  exact ⟨hpos hne, huse⟩

/-- **The acknowledgement of a segment out of order**, with SACK blocks if they were agreed on. -/
theorem Shifted.ackOfo (h : Shifted σ s s') (hst : s.state ≠ .close) (hne : s.ofoQueue ≠ [])
    (hok : σ.rcv = 0 ∨ ∀ y ∈ s.ofoQueue, Marked σ.rcv y) :
    Shifted σ (tcpSendAck env (if s.sackok ≠ 0 then tcpCalculateSacks s else s))
      (tcpSendAck env (if s'.sackok ≠ 0 then tcpCalculateSacks s' else s')) := by
  have hack : s'.sackok = s.sackok := by rw [h.eq]; rfl
  rw [hack]
  split
  · next hsack =>
    obtain hzero | ⟨hrest, hmarked⟩ := or_and_left.2 ⟨h.rest, hok⟩
    · refine Shifted.sendAck env ⟨?_, .inl hzero⟩
      rw [h.eq]
      unfold tcpCalculateSacks
      rw [tcpSackBlocks_same hzero]
      rfl
    · have hmove := shift_tcpSackLoop s.sacksAllowed hmarked 0 0 sackMarked_replicate
      have hrest' : AtRest s' := by
        rw [h.eq]
        exact ⟨hrest.sacklen, hrest.sacks, hrest.allowed⟩
      have hq' : s'.ofoQueue = s.ofoQueue.map (SkBuff.shiftIn σ) := by rw [h.eq]; rfl
      have hst' : s'.state ≠ .close := by rw [h.eq]; exact hst
      have hcalc : tcpCalculateSacks s' = (tcpCalculateSacks s).shiftSacks σ := by
        rw [tcpCalculateSacks_rest hrest', tcpCalculateSacks_rest hrest, h.eq]
        exact congrArg (fun r : ℕ × List TcpSackBlock =>
          ({ s.shift σ with sacklen := r.1, sacks := r.2 } : TcpSock)) hmove
      obtain ⟨hpos, sb, huse⟩ := sacksInUse_tcpCalculateSacks hrest
        (fun y hy => (hmarked y hy).seq) hne
      obtain ⟨hpos', sb', huse'⟩ := sacksInUse_tcpCalculateSacks hrest' (by
        rw [hq', List.forall_mem_map]
        exact fun y hy => (hmarked y hy).seq_add) (by rwa [hq', Ne, List.map_eq_nil_iff])
      have hsent : tcpSendAck env (tcpCalculateSacks s) = tcpSackSent (tcpCalculateSacks s) :=
        tcpSendAck_inUse env hst hsack hpos huse
      have hsent' : tcpSendAck env (tcpCalculateSacks s') = tcpSackSent (tcpCalculateSacks s') :=
        tcpSendAck_inUse env hst' (by rw [← hack] at hsack; exact hsack) hpos' huse'
      rw [hsent, hsent', hcalc]
      exact ⟨shift_tcpSackSent huse, .inr ⟨rfl, rfl, hrest.allowed⟩⟩
  · exact h.sendAck env

theorem Shifted.consume (h : Shifted σ s s') :
    Shifted σ (tcpConsumeOfoQueue s) (tcpConsumeOfoQueue s') := by
  refine h.of ?_ ⟨rfl, rfl, rfl⟩
  rw [h.eq]
  unfold tcpConsumeOfoQueue TcpSock.shift Tcb.shift
  dsimp only
  rw [shift_tcpConsumeLoop, List.map_append]

/-- **Data is queued**, in order or out of order. -/
theorem Shifted.dataQueue (h : Shifted σ s s') (hst : s.state ≠ .close) {skb : SkBuff}
    (hok : σ.rcv = 0 ∨ DataOk σ.rcv s skb) :
    Shifted σ (tcpDataQueue env s skb) (tcpDataQueue env s' (skb.shiftIn σ)) := by
  have hwnd : s'.tcb.rcvWnd = s.tcb.rcvWnd := by rw [h.eq]; rfl
  have hseq : (skb.shiftIn σ).seq = s'.tcb.rcvNxt ↔ skb.seq = s.tcb.rcvNxt := by
    rw [h.eq]
    exact add_left_inj σ.rcv
  unfold tcpDataQueue
  rw [hwnd, if_congr hseq rfl rfl]
  split
  · exact h
  · next hne =>
    split
    · refine Shifted.consume (h.of ?_ ⟨rfl, rfl, rfl⟩)
      rw [h.eq]
      unfold TcpSock.shift Tcb.shift
      dsimp only
      rw [List.map_append, add_right_comm]
      rfl
    · next hofo =>
      have hqueue := hok.imp_right fun ho => ho hne hofo
      have hins : tcpDataInsertOrdered s'.ofoQueue (skb.shiftIn σ) =
          (tcpDataInsertOrdered s.ofoQueue skb).map (SkBuff.shiftIn σ) := by
        rw [h.eq]
        rcases hqueue with hzero | hqueue
        · exact shift_tcpDataInsertOrdered (by simp [hzero]) (by simp [hzero])
        · exact shift_tcpDataInsertOrdered hqueue.lt hqueue.overlap
      have hset : Shifted σ { s with ofoQueue := tcpDataInsertOrdered s.ofoQueue skb }
          { s' with ofoQueue := tcpDataInsertOrdered s'.ofoQueue (skb.shiftIn σ) } := by
        refine h.of ?_ ⟨rfl, rfl, rfl⟩
        rw [hins, h.eq]
        rfl
      refine hset.ackOfo env hst (ne_nil_tcpDataInsertOrdered _ _) (hqueue.imp_right ?_)
      intro hq y hy
      rcases mem_tcpDataInsertOrdered hy with rfl | hy
      · exact hq.marked
      · exact hq.all y hy

end OutOfOrder

end LvlIp.Tcp
