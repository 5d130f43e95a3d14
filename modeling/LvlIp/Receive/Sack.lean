import LvlIp.Foundations.Runs
import LvlIp.Receive.SackRest

/-!
# What the SACK option says

`tcp_calculate_sacks` of `src/tcp.c` joins the buffers of the out-of-order queue in one pass, and
`tcp_write_options` of `src/tcp_output.c` writes the blocks and forgets them. As long as the segments
that arrive do not overlap in part, the acknowledgement of a segment out of order names the lowest
four maximal runs of what waits, each once (`sacksReported_run`).
-/

namespace LvlIp.Tcp

open Fec Foundations

/-! ## The blocks that are built -/

/-- The range of a buffer. -/
def SkBuff.range (y : SkBuff) : UInt32 × UInt32 := (y.seq, y.endSeq)

/-- The blocks of a socket of which the first ones are in use. -/
def sackArray (bs : List (UInt32 × UInt32)) : List TcpSackBlock :=
  bs.map (fun b => ⟨b.1, b.2⟩) ++ List.replicate (4 - bs.length) ⟨0, 0⟩

theorem sackArray_concat (bs : List (UInt32 × UInt32)) (b : UInt32 × UInt32) :
    sackArray (bs ++ [b]) = bs.map (fun b => ⟨b.1, b.2⟩) ++
      ⟨b.1, b.2⟩ :: List.replicate (4 - (bs.length + 1)) ⟨0, 0⟩ := by
  simp [sackArray]

theorem getD_sackArray_concat (bs : List (UInt32 × UInt32)) (b : UInt32 × UInt32) :
    (sackArray (bs ++ [b])).getD bs.length ⟨0, 0⟩ = ⟨b.1, b.2⟩ := by
  rw [sackArray_concat, List.getD_append_right _ _ _ _ (by simp)]
  simp

/-- The last block in use is replaced. -/
theorem set_sackArray_concat (bs : List (UInt32 × UInt32)) (b c : UInt32 × UInt32) :
    (sackArray (bs ++ [b])).set bs.length ⟨c.1, c.2⟩ = sackArray (bs ++ [c]) := by
  rw [sackArray_concat, sackArray_concat, List.set_append_right _ _ (by simp)]
  simp

/-- The next block is opened. -/
theorem set_sackArray_length {bs : List (UInt32 × UInt32)} (hlen : bs.length < 4)
    (b : UInt32 × UInt32) :
    (sackArray bs).set bs.length ⟨b.1, b.2⟩ = sackArray (bs ++ [b]) := by
  rw [sackArray_concat]
  unfold sackArray
  obtain ⟨n, hn⟩ : ∃ n, 4 - bs.length = n + 1 := ⟨3 - bs.length, by omega⟩
  have hn' : 4 - (bs.length + 1) = n := by omega
  rw [List.set_append_right _ _ (by simp), hn, hn']
  simp [List.replicate_succ]

/-- **The pass over the queue**, with a block open behind some closed ones, joins the ranges and
stops at the fourth block. -/
theorem tcpSackLoop_eq {q : List SkBuff} (hq : ∀ y ∈ q, y.endSeq ≠ 0)
    (closed : List (UInt32 × UInt32)) (hlen : closed.length < 4) (cur : UInt32 × UInt32)
    (hleft : cur.1 ≠ 0) (hright : cur.2 ≠ 0) (hseq : ∀ y ∈ q, y.seq ≠ 0) :
    tcpSackLoop 4 q closed.length (closed.length + 1) (sackArray (closed ++ [cur])) =
      (((closed ++ joinFrom cur (q.map SkBuff.range)).take 4).length,
        sackArray ((closed ++ joinFrom cur (q.map SkBuff.range)).take 4)) := by
  induction q generalizing closed cur with
  | nil =>
    have htake : (closed ++ [cur]).take 4 = closed ++ [cur] :=
      List.take_of_length_le (by simp; omega)
    simp [tcpSackLoop, joinFrom, htake]
  | cons next q ih =>
    obtain ⟨hend, hq⟩ := List.forall_mem_cons.mp hq
    obtain ⟨hnext, hseq⟩ := List.forall_mem_cons.mp hseq
    rw [List.map_cons, joinFrom, tcpSackLoop]
    dsimp only
    rw [getD_sackArray_concat]
    dsimp only
    rw [if_neg hleft]
    dsimp only
    have hmeet : (cur.2 = 0 ∨ cur.2 = next.seq) ↔ cur.2 = next.range.1 := or_iff_right hright
    rw [if_congr hmeet rfl rfl]
    split
    · -- the range extends the open block
      rw [set_sackArray_concat closed cur (cur.1, next.endSeq)]
      exact ih hq closed hlen (cur.1, next.endSeq) hleft hend hseq
    · rw [set_sackArray_concat closed cur cur]
      split
      · -- there is no room for another block
        have hfour : closed.length = 3 := by omega
        have htake : (closed ++ cur :: joinFrom next.range (q.map SkBuff.range)).take 4 =
            closed ++ [cur] := by
          rw [List.take_append, hfour, List.take_of_length_le (by omega)]
          simp
        rw [htake, List.length_append]
        rfl
      · have hroom : (closed ++ [cur]).length < 4 := by simp; omega
        have hopen := @set_sackArray_length (closed ++ [cur]) hroom next.range
        have hrec := ih hq (closed ++ [cur]) hroom next.range hnext hend hseq
        rw [List.length_append, List.length_singleton] at hopen hrec
        rw [← hopen, List.append_assoc, List.singleton_append] at hrec
        exact hrec

/-- The lowest four runs of a queue. -/
def sackBlocks (q : List SkBuff) : List (UInt32 × UInt32) := (joinRuns (q.map SkBuff.range)).take 4

theorem tcpSackLoop_blocks {q : List SkBuff} (hne : q ≠ [])
    (hq : ∀ y ∈ q, y.seq ≠ 0 ∧ y.endSeq ≠ 0) :
    tcpSackLoop 4 q 0 0 (List.replicate 4 ⟨0, 0⟩) =
      ((sackBlocks q).length, sackArray (sackBlocks q)) := by
  cases q with
  | nil => exact absurd rfl hne
  | cons next q =>
    obtain ⟨hnext, hq⟩ := List.forall_mem_cons.mp hq
    -- the first buffer opens the first block
    have hfirst : tcpSackLoop 4 (next :: q) 0 0 (List.replicate 4 ⟨0, 0⟩) =
        tcpSackLoop 4 q 0 1 (sackArray ([] ++ [next.range])) := by
      rw [tcpSackLoop]
      rfl
    rw [hfirst]
    exact tcpSackLoop_eq (fun y hy => (hq y hy).2) [] (by decide) next.range hnext.1 hnext.2
      fun y hy => (hq y hy).1

theorem tcpCalculateSacks_eq {s : TcpSock} (h : SackIdle s) (hallowed : s.sacksAllowed = 4)
    (hne : s.ofoQueue ≠ []) (hq : ∀ y ∈ s.ofoQueue, y.seq ≠ 0 ∧ y.endSeq ≠ 0) :
    tcpCalculateSacks s = { s with
      sacklen := (sackBlocks s.ofoQueue).length, sacks := sackArray (sackBlocks s.ofoQueue) } := by
  have hset : (List.replicate 4 (⟨0, 0⟩ : TcpSackBlock)).set 0 ⟨0, 0⟩ = List.replicate 4 ⟨0, 0⟩ :=
    rfl
  unfold tcpCalculateSacks
  rw [tcpSackBlocks_of_lt (by rw [h.sacklen]; decide), hallowed, h.sacklen, h.sacks, hset,
    tcpSackLoop_blocks hne hq]

/-- The blocks are written from the last one on. -/
theorem tcpSackBytes_eq {s : TcpSock} {bs : List (UInt32 × UInt32)} (hlen : s.sacklen = bs.length)
    (hsacks : s.sacks = sackArray bs) :
    tcpSackBytes s = bs.reverse.flatMap fun b => be32 b.1 ++ be32 b.2 := by
  have hmap : (List.range bs.length).map (fun i => (sackArray bs).getD i ⟨0, 0⟩) =
      bs.map fun b => ⟨b.1, b.2⟩ := by
    apply List.ext_getElem
    · simp
    · intro i hi _
      have hi : i < bs.length := by simpa using hi
      simp [sackArray, List.getElem?_append_left, hi]
  have hrev : (List.range bs.length).reverse.map (fun i => (sackArray bs).getD i ⟨0, 0⟩) =
      bs.reverse.map fun b => ⟨b.1, b.2⟩ := by
    rw [List.map_reverse, hmap, List.map_reverse]
  unfold tcpSackBytes
  rw [hlen, hsacks]
  have hflat := congrArg (List.flatMap fun sb : TcpSackBlock => be32 sb.left ++ be32 sb.right) hrev
  rw [List.flatMap_map, List.flatMap_map] at hflat
  exact hflat

/-! ## The report -/

/-- The sequence numbers that some buffers hold. -/
def held (q : List SkBuff) : Set ℕ := covered (q.map fun y => (y.seq.toNat, y.endSeq.toNat))

/-- The option area of an acknowledgement with SACK blocks: padding, kind, length and blocks. -/
def sackOption (bs : List (ℕ × ℕ)) : List UInt8 :=
  [1, 1, 5, UInt8.ofNat (2 + 8 * bs.length)] ++
    bs.flatMap fun b => be32 (UInt32.ofNat b.1) ++ be32 (UInt32.ofNat b.2)

/-- From `s` to `s'` one acknowledgement goes out, whose SACK option names the lowest four maximal
runs of what waits in the out-of-order queue; the lengths agree and fit, and no block is left. -/
structure SackReport (s s' : TcpSock) : Prop where
  report : ∃ rs ack, RunsOf (held s'.ofoQueue) rs ∧ s'.out = s.out ++ [ack] ∧
    ack.seg.th.ack = true ∧ ack.seg.th.data = sackOption (rs.take 4).reverse ∧
    4 * ack.seg.th.hl = tcpHdrLen + ack.seg.th.data.length ∧
    ack.seg.th.data.length = 4 + 8 * min 4 rs.length ∧ ack.seg.th.data.length ≤ tcpOptMax
  sacklen : s'.sacklen = 0

section Call

variable {env : Env} {s : TcpSock} {skb : SkBuff} {q : List SkBuff}

/-- A queue in order, of buffers that are not empty and do not wrap. -/
structure OfoFull (q : List SkBuff) : Prop where
  ordered : OfoOrdered q
  noWrap : ∀ y ∈ q, y.NoWrap
  full : ∀ y ∈ q, 0 < y.dlen
  pos : ∀ y ∈ q, 0 < y.seq

theorem OfoFull.lt (h : OfoFull q) {y : SkBuff} (hy : y ∈ q) : y.seq.toNat < y.endSeq.toNat := by
  have hwrap := h.noWrap y hy
  have hfull := h.full y hy
  unfold SkBuff.NoWrap at hwrap
  omega

theorem OfoFull.ne_zero (h : OfoFull q) : ∀ y ∈ q, y.seq ≠ 0 ∧ y.endSeq ≠ 0 := by
  intro y hy
  have hpos := UInt32.lt_iff_toNat_lt.mp (h.pos y hy)
  have hlt := h.lt hy
  have hne : ∀ x : UInt32, 0 < x.toNat → x ≠ 0 := by
    rintro x hx rfl
    cases hx
  exact ⟨hne _ hpos, hne _ (Nat.zero_lt_of_lt hlt)⟩

/-- The pass finds the runs of such a queue. -/
theorem OfoFull.runsOf (h : OfoFull q) :
    RunsOf (held q) ((joinRuns (q.map SkBuff.range)).map (Prod.map UInt32.toNat UInt32.toNat)) := by
  have hinj : Function.Injective UInt32.toNat := fun _ _ => UInt32.toNat_inj.mp
  rw [map_joinRuns hinj, List.map_map]
  refine runsOf_joinRuns ?_ ?_
  · intro b hb
    obtain ⟨y, hy, rfl⟩ := List.mem_map.mp hb
    exact h.lt hy
  · rw [List.pairwise_map]
    exact h.ordered.imp fun hxy => UInt32.le_iff_toNat_le.mp hxy.2

/-- The option names the runs by their numbers. -/
theorem sackOption_map (bs : List (UInt32 × UInt32)) :
    sackOption (bs.map (Prod.map UInt32.toNat UInt32.toNat)) =
      [1, 1, 5, UInt8.ofNat (2 + bs.length * 8)] ++ bs.flatMap fun b => be32 b.1 ++ be32 b.2 := by
  unfold sackOption
  rw [List.length_map, List.flatMap_map, Nat.mul_comm]
  simp

/-- **The acknowledgement reports what the queue holds**, and the blocks are cleared. -/
theorem sackReport_tcpSackSent {s₁ : TcpSock} (hout : s₁.out = s.out) (hidle : SackIdle s₁)
    (hallowed : s₁.sacksAllowed = 4) (hnil : s₁.ofoQueue ≠ []) (hq : OfoFull s₁.ofoQueue) :
    SackReport s (tcpSackSent (tcpCalculateSacks s₁)) ∧
      SackInv (tcpSackSent (tcpCalculateSacks s₁)) := by
  have hcalc := tcpCalculateSacks_eq hidle hallowed hnil hq.ne_zero
  have hbytes : tcpSackBytes (tcpCalculateSacks s₁) =
      (sackBlocks s₁.ofoQueue).reverse.flatMap fun b => be32 b.1 ++ be32 b.2 := by
    rw [hcalc]
    exact tcpSackBytes_eq rfl rfl
  have hlen : (tcpCalculateSacks s₁).sacklen = (sackBlocks s₁.ofoQueue).length := by rw [hcalc]
  have hle : (sackBlocks s₁.ofoQueue).length ≤ 4 := List.length_take_le _ _
  have htake : ((joinRuns (s₁.ofoQueue.map SkBuff.range)).map
      (Prod.map UInt32.toNat UInt32.toNat)).take 4 =
        (sackBlocks s₁.ofoQueue).map (Prod.map UInt32.toNat UInt32.toNat) := List.map_take.symm
  have hmin : min 4 (joinRuns (s₁.ofoQueue.map SkBuff.range)).length =
      (sackBlocks s₁.ofoQueue).length := List.length_take.symm
  have hdata : ([1, 1, 5, UInt8.ofNat (2 + (tcpCalculateSacks s₁).sacklen * 8)] ++
      tcpSackBytes (tcpCalculateSacks s₁)).length = 4 + 8 * (sackBlocks s₁.ofoQueue).length := by
    rw [List.length_append, length_tcpSackBytes, hlen]
    simp only [List.length_cons, List.length_nil]
    omega
  have hout₁ : (tcpCalculateSacks s₁).out = s.out := by rw [hcalc, ← hout]
  have hq₁ : (tcpCalculateSacks s₁).ofoQueue = s₁.ofoQueue := by rw [hcalc]
  have hkept : SackIdle { tcpCalculateSacks s₁ with
      sacklen := 0, sacks := List.replicate 4 ⟨0, 0⟩ } := by
    rw [hcalc]
    exact { hidle with sacklen := rfl, sacks := rfl }
  have hfour : (tcpCalculateSacks s₁).sacksAllowed = 4 := by rw [hcalc]; exact hallowed
  obtain ⟨ack, hsent, hack, hwritten, hhl⟩ : ∃ ack : Transmission,
      (tcpSackSent (tcpCalculateSacks s₁)).out = (tcpCalculateSacks s₁).out ++ [ack] ∧
      ack.seg.th.ack = true ∧
      ack.seg.th.data = [1, 1, 5, UInt8.ofNat (2 + (tcpCalculateSacks s₁).sacklen * 8)] ++
        tcpSackBytes (tcpCalculateSacks s₁) ∧
      ack.seg.th.hl = tcpDoffset + ((tcpCalculateSacks s₁).sacklen * 8 + 4) / 4 :=
    ⟨_, rfl, rfl, rfl, rfl⟩
  refine ⟨⟨⟨(joinRuns (s₁.ofoQueue.map SkBuff.range)).map (Prod.map UInt32.toNat UInt32.toNat), ack,
    ?_, hsent.trans (by rw [hout₁]), hack, ?_, ?_, ?_, ?_⟩, rfl⟩,
    ⟨hkept.of_sack rfl, fun _ _ => hfour⟩⟩
  · change RunsOf (held (tcpCalculateSacks s₁).ofoQueue) _
    rw [hq₁]
    exact OfoFull.runsOf hq
  · rw [hwritten, htake, ← List.map_reverse, sackOption_map, List.length_reverse, hbytes, hlen]
  · rw [hwritten, hdata, hhl, hlen]
    unfold tcpDoffset tcpHdrLen
    omega
  · rw [hwritten, hdata, List.length_map, hmin]
  · rw [hwritten, hdata]
    unfold tcpOptMax
    omega

/-- **The acknowledgement of a segment out of order.** -/
theorem SackInv.dataQueue (hinv : SackInv s) (hst : s.state.receives) (hok : s.sackok ≠ 0)
    (hwnd : s.tcb.rcvWnd ≠ 0) (hne : skb.seq ≠ s.tcb.rcvNxt)
    (hq : OfoFull (tcpDataInsertOrdered s.ofoQueue skb)) :
    SackReport s (tcpDataQueue env s skb) ∧ SackInv (tcpDataQueue env s skb) := by
  have hclose : s.state ≠ .close := by
    intro h
    rw [h] at hst
    cases hst
  have hmay : s.state.mayReceive := by
    revert hst
    cases s.state <;> simp [TcpState.receives, TcpState.mayReceive]
  have hallowed := hinv.agreed hmay hok
  -- the socket while it acknowledges
  generalize hs₁ : ({ s with ofoQueue := tcpDataInsertOrdered s.ofoQueue skb } : TcpSock) = s₁
  have hofo : s₁.ofoQueue = tcpDataInsertOrdered s.ofoQueue skb := by rw [← hs₁]
  have hidle : SackIdle s₁ := by
    rw [← hs₁]
    exact hinv.toSackIdle.of_sack rfl
  have hallowed₁ : s₁.sacksAllowed = 4 := by rw [← hs₁]; exact hallowed
  have hnil : s₁.ofoQueue ≠ [] := hofo ▸ ne_nil_tcpDataInsertOrdered _ _
  have hq₁ : OfoFull s₁.ofoQueue := hofo ▸ hq
  have hcalc := tcpCalculateSacks_eq hidle hallowed₁ hnil hq₁.ne_zero
  have hqueue : tcpDataQueue env s skb = tcpSackSent (tcpCalculateSacks s₁) := by
    obtain ⟨hpos, sb, huse⟩ := sacksInUse_tcpCalculateSacks
      ⟨hidle.sacklen, hidle.sacks, hallowed₁.le⟩ (fun y hy => (hq₁.ne_zero y hy).1) hnil
    unfold tcpDataQueue
    rw [if_neg hwnd, if_neg hne]
    dsimp only
    rw [if_pos hok, hs₁]
    refine tcpSendAck_inUse env ?_ ?_ hpos huse
    · rw [hcalc, ← hs₁]
      exact hclose
    · rw [hcalc, ← hs₁]
      exact hok
  rw [hqueue]
  exact sackReport_tcpSackSent (by rw [← hs₁]) hidle hallowed₁ hnil hq₁

end Call

/-! ## Arrival -/

section Arrival

variable {env : Env} {s s' : TcpSock} {skb : SkBuff} {seg : Segment}

theorem out_tcpCleanRtoQueue (s : TcpSock) (una : UInt32) : (tcpCleanRtoQueue s una).out = s.out := by
  unfold tcpCleanRtoQueue
  dsimp only
  split <;> rfl

theorem out_tcpAck (s : TcpSock) (ackSeq : UInt32) : (tcpAck s ackSeq).1.out = s.out := by
  unfold tcpAck
  dsimp only
  split
  · rw [out_tcpCleanRtoQueue]
    exact congrArg TxView.out (txv_tcpRtt { s with tcb.sndUna := ackSeq })
  · rfl

theorem out_tcpAckField (s : TcpSock) (th : Tcphdr) : (tcpAckField s th).1.out = s.out := by
  unfold tcpAckField
  split
  · split
    · rw [out_tcpAck, tcpFecResolve_eq]
      split <;> rfl
    · rfl
  all_goals first
    | exact out_tcpAck s _
    | rfl

/-- An acknowledgement goes out in TIME-WAIT only. -/
theorem out_tcpFinAcked (s : TcpSock) (th : Tcphdr) :
    (tcpFinAcked env s th).1.state.receives → (tcpFinAcked env s th).1.out = s.out := by
  unfold tcpFinAcked
  split
  · split
    any_goals exact fun _ => rfl
    next hst =>
    split
    · rw [state_tcpSendAck]
      intro hrec
      have hrec : s.state.receives := hrec
      rw [hst] at hrec
      cases hrec
    · exact fun _ => rfl
  · exact fun _ => rfl

/-- The checks send nothing when the text of the segment is looked at. -/
theorem out_tcpChecks (hs' : tcpChecks env true s skb = .ok s') (hrec : s'.state.receives) :
    s'.out = s.out := by
  unfold tcpChecks at hs'
  rw [tcpAckFieldOr_true] at hs'
  dsimp only at hs'
  split_ifs at hs'
  rw [← Except.ok.inj hs'] at hrec ⊢
  rw [out_tcpFinAcked _ _ hrec, out_tcpAckField]

/-- A buffer that fits keeps the queue as it should be. -/
theorem OfoFull.insert {q : List SkBuff} (h : OfoFull q) (hfit : FitsOfo q skb)
    (hwrap : skb.NoWrap) (hlen : 0 < skb.dlen) (hpos : 0 < skb.seq) :
    OfoFull (tcpDataInsertOrdered q skb) := by
  have hmem : ∀ P : SkBuff → Prop, P skb → (∀ y ∈ q, P y) →
      ∀ y ∈ tcpDataInsertOrdered q skb, P y := by
    intro P hskb hq y hy
    rcases mem_tcpDataInsertOrdered hy with rfl | hy
    · exact hskb
    · exact hq y hy
  exact {
    ordered :=
      (ofoOrdered_insert_iff h.ordered (fun y hy => (h.noWrap y hy).le) hwrap.le).mpr hfit
    noWrap := hmem SkBuff.NoWrap hwrap h.noWrap
    full := hmem (0 < ·.dlen) hlen h.full
    pos := hmem (0 < ·.seq) hpos h.pos }

/-- **The text of a segment**, and what follows it. -/
theorem SackInv.deliver (h : SackInv s) (hs' : tcpChecks env true s skb = .ok s')
    (hseq : skb.th.seq = skb.seq) (hrec : s'.state.receives) (htext : skb.th.psh ∨ 0 < skb.dlen)
    (hq : s.tcb.rcvNxt < skb.seq → OfoFull (tcpDataInsertOrdered s.ofoQueue skb)) :
    (skb.seq ≠ s.tcb.rcvNxt → s.sackok ≠ 0 → SackReport s (tcpDeliver env s' skb)) ∧
      SackInv (tcpDeliver env s' skb) := by
  obtain ⟨hv, hsame⟩ := tcpChecks_ok hs'
  obtain ⟨hge, hwnd⟩ := le_of_tcpVerifySegment hv
  have hkept : SackKept s s' := (sackKept_tcpChecks s skb).2 s' hs'
  have hinv : SackInv s' := h.kept hkept
  have hok : s'.sackok = s.sackok := congrArg SackView.sackok (hkept.sack h.sacks)
  have hnxt : s'.tcb.rcvNxt = s.tcb.rcvNxt := hsame.rcvNxt
  have hofo : s'.ofoQueue = s.ofoQueue := hsame.ofoQueue
  have hrw : s'.tcb.rcvWnd = s.tcb.rcvWnd := hsame.rcvWnd
  have hend : ∀ s₁ : TcpSock, SackInv s₁ → SackInv (tcpPending env (tcpFin env s₁ skb.th
      (skb.seq == s'.tcb.rcvNxt)) skb (skb.seq == s'.tcb.rcvNxt)) := by
    intro s₁ h₁
    exact h₁.kept ((sackKept_tcpFin s₁ skb.th _).trans (sackKept_tcpPending _ skb _))
  unfold tcpDeliver tcpText
  rw [if_pos ⟨hrec, htext⟩]
  dsimp only
  by_cases hplain : skb.seq = s'.tcb.rcvNxt ∨ s'.sackok = 0
  · refine ⟨fun hne hsack => ?_, hend _ (hinv.dataQueue_plain hplain)⟩
    rw [hnxt, hok] at hplain
    exact absurd hplain (not_or.mpr ⟨hne, hsack⟩)
  · obtain ⟨hne, hsack⟩ := not_or.mp hplain
    have hne' : skb.seq ≠ s.tcb.rcvNxt := hnxt ▸ hne
    have hfull : OfoFull (tcpDataInsertOrdered s'.ofoQueue skb) := by
      rw [hofo]
      exact hq (UInt32.lt_of_le_of_ne (hseq ▸ hge) (Ne.symm hne'))
    have hwnd' : s'.tcb.rcvWnd ≠ 0 := by
      rw [hrw]
      intro h0
      exact hne' (hseq ▸ (hwnd h0).2)
    obtain ⟨hreport, hinv'⟩ := @SackInv.dataQueue env _ skb hinv hrec hsack hwnd' hne hfull
    -- the FIN and the acknowledgement of a segment in order do not apply
    have hskip : ∀ s₁ : TcpSock, tcpPending env (tcpFin env s₁ skb.th false) skb false = s₁ := by
      intro s₁
      unfold tcpPending tcpFin
      simp
    rw [beq_false_of_ne hne, hskip]
    refine ⟨fun _ _ => ⟨?_, hreport.sacklen⟩, hinv'⟩
    rw [← out_tcpChecks hs' hrec]
    exact hreport.report

end Arrival

/-! ## Runs -/

/-- The segment that arrives with text. -/
def TcpEvent.text : TcpEvent → Option Segment
  | .arrive seg => if seg.payload = [] then none else some seg
  | _ => none

/-- The two segments cover the same range, or do not overlap. -/
def Segment.CopyOrApart (x y : Segment) : Prop :=
  (x.th.seq = y.th.seq ∧ x.payload.length = y.payload.length) ∨
    x.th.seq.toNat + x.payload.length ≤ y.th.seq.toNat ∨
      y.th.seq.toNat + y.payload.length ≤ x.th.seq.toNat

/-- The segment has text, or does not ask for a push of it. -/
def ArrivesFull : TcpEvent → Prop
  | .arrive seg => seg.payload ≠ [] ∨ seg.th.psh = false
  | _ => True

instance (x y : Segment) : Decidable (x.CopyOrApart y) := inferInstanceAs (Decidable (_ ∨ _))

instance : ∀ e, Decidable (ArrivesFull e)
  | .arrive seg => inferInstanceAs (Decidable (¬ seg.payload = [] ∨ seg.th.psh = false))
  | .connect _ | .write _ | .read _ | .wake _ | .close | .abort | .timer _ | .tick _ =>
    .isTrue trivial

/-- A segment that is queued out of order is acknowledged with a report of the queue. -/
def SacksReported (env : Env) (s : TcpSock) : TcpEvent → Prop
  | .arrive seg => tcpDataCalls env s seg ≠ [] → seg.th.seq ≠ s.tcb.rcvNxt → s.sackok ≠ 0 →
      SackReport s (tcpIn env s seg)
  | _ => True

/-- The invariant of a run in which the segments of `seen` have arrived. -/
structure SackRun (seen : List Segment) (s : TcpSock) : Prop where
  sack : SackInv s
  ofo : OfoInv s
  waits : s.state.receives →
    ∀ y ∈ s.ofoQueue, ∃ seg ∈ seen, seg.payload ≠ [] ∧ tcpInitSegment seg = y

section Run

variable {env : Env} {s s' : TcpSock} {seen : List Segment} {seg : Segment}

/-- A socket that receives, or is about to. -/
theorem SackRun.waiting (h : SackRun seen s) (hst : s.state.early ∨ s.state.receives) :
    OfoFull s.ofoQueue ∧
      ∀ y ∈ s.ofoQueue, y.NoWrap ∧ ∃ seg ∈ seen, seg.payload ≠ [] ∧ tcpInitSegment seg = y := by
  rcases hst with hst | hst
  · rw [h.ofo.early hst]
    exact ⟨⟨List.Pairwise.nil, by simp, by simp, by simp⟩, by simp⟩
  · have hok := h.ofo.ok hst
    have hwrap := h.ofo.noWrap hst
    refine ⟨⟨hok.ordered, hwrap, fun y hy => ?_, fun y hy => ?_⟩,
      fun y hy => ⟨hwrap y hy, h.waits hst y hy⟩⟩
    · obtain ⟨seg, -, hne, rfl⟩ := h.waits hst y hy
      exact List.length_pos_of_ne_nil hne
    · have hlt := UInt32.lt_iff_toNat_lt.mp (hok.ahead y hy)
      exact UInt32.lt_iff_toNat_lt.mpr (Nat.zero_lt_of_lt hlt)

/-- Segments that do not overlap in part fit into the queue. -/
theorem SackRun.fits (h : SackRun seen s) (hst : s.state.early ∨ s.state.receives)
    (hwrap : seg.NoWrap) (hseen : ∀ x ∈ seen, x.CopyOrApart seg) :
    FitsOfo s.ofoQueue (tcpInitSegment seg) := by
  by_cases hcopy : ∃ y ∈ s.ofoQueue, y.seq = (tcpInitSegment seg).seq
  · exact .inl hcopy
  · refine .inr fun y hy => ?_
    obtain ⟨hy', x, hx, -, rfl⟩ := (h.waiting hst).2 y hy
    have hskb := hwrap.skb
    unfold SkBuff.Apart
    rw [UInt32.le_iff_toNat_le, UInt32.le_iff_toNat_le, hskb, hy']
    rcases hseen x hx with ⟨heq, -⟩ | hapart
    · exact absurd ⟨_, hy, heq⟩ hcopy
    · exact hapart.symm

/-- Before a calm step the socket received, or was about to, if it does so afterwards. -/
theorem Calm.before {v v' : RcvView} (h : Calm v v') (hst : v'.state.early ∨ v'.state.receives) :
    (v.state.early ∨ v.state.receives) ∧ v'.ofoQueue = v.ofoQueue := by
  rcases hst with hst | hst
  · obtain ⟨hearly, hofo⟩ := h.early hst
    exact ⟨.inl hearly, hofo⟩
  · obtain ⟨hofo, hst⟩ := h.receives hst
    exact ⟨hst.imp id And.left, hofo⟩

theorem SackRun.calm (h : SackRun seen s) (hsack : SackInv s') (hcalm : Calm s.rcv s'.rcv) :
    SackRun seen s' := by
  refine ⟨hsack, h.ofo.calm hcalm, fun hst y hy => ?_⟩
  obtain ⟨hbefore, hofo⟩ := hcalm.before (.inr hst)
  have hofo : s'.ofoQueue = s.ofoQueue := hofo
  exact ((h.waiting hbefore).2 y (hofo ▸ hy)).2

/-- **An arrival that queues no text.** -/
theorem SackRun.quiet (h : SackRun seen s) (hfec : s.fec = none)
    (hcalls : tcpDataCalls env s seg = []) : SackRun seen (tcpIn env s seg) := by
  cases hsync : s.state.synchronized with
  | false => exact h.calm (h.sack.early hsync seg) (calm_tcpIn hsync seg)
  | true =>
    unfold tcpDataCalls tcpTextCalls at hcalls
    rw [hfec, if_pos hsync] at hcalls
    dsimp only at hcalls
    rw [tcpIn_plain hfec hsync]
    unfold tcpSegmentArrivesOr
    cases hs' : tcpChecks env true s (tcpInitSegment seg) with
    | error s' =>
      have hkept := (sackKept_tcpChecks s (tcpInitSegment seg)).1 s' hs'
      exact h.calm (h.sack.kept hkept) ((calm_tcpChecks env s _).1 s' hs')
    | ok s' =>
      have hkept := (sackKept_tcpChecks s (tcpInitSegment seg)).2 s' hs'
      have hcalm := (calm_tcpChecks env s _).2 s' hs'
      have hnone : ¬ (s'.state.receives ∧
          ((tcpInitSegment seg).th.psh ∨ 0 < (tcpInitSegment seg).dlen)) := by
        intro hrec
        rw [hs'] at hcalls
        dsimp only at hcalls
        rw [if_pos hrec] at hcalls
        cases hcalls
      dsimp only
      unfold tcpDeliver tcpText
      rw [if_neg hnone]
      refine h.calm (h.sack.kept (hkept.trans ?_)) (hcalm.trans ?_)
      · exact (sackKept_tcpFin s' _ _).trans (sackKept_tcpPending _ _ _)
      · exact (calm_tcpFin env s' _ _).trans (.of_rcv (rcv_tcpPending env _ _ _))

/-- The socket whose text is queued, with FEC off. -/
theorem exists_ok_of_tcpDataCalls (hfec : s.fec = none) (h : tcpDataCalls env s seg ≠ []) :
    ∃ s', tcpChecks env true s (tcpInitSegment seg) = .ok s' ∧ s'.state.receives ∧
      (seg.th.psh ∨ 0 < seg.payload.length) ∧
        tcpIn env s seg = tcpDeliver env s' (tcpInitSegment seg) := by
  unfold tcpDataCalls tcpTextCalls at h
  rw [hfec] at h
  dsimp only at h
  split at h
  · next hsync =>
    split at h
    · exact absurd rfl h
    · next s' hs' =>
      split at h
      · next hrec =>
        refine ⟨s', hs', hrec.1, hrec.2, ?_⟩
        rw [tcpIn_plain hfec hsync]
        unfold tcpSegmentArrivesOr
        rw [hs']
      · exact absurd rfl h
  · exact absurd rfl h

/-- The queue after the text of a segment. -/
theorem mem_ofoQueue_tcpDeliver {skb y : SkBuff} (hst : (tcpDeliver env s skb).state.receives)
    (hy : y ∈ (tcpDeliver env s skb).ofoQueue) : y = skb ∨ y ∈ s.ofoQueue := by
  have hcalm : Calm (tcpText env s skb).rcv (tcpDeliver env s skb).rcv :=
    (calm_tcpFin env _ _ _).trans (.of_rcv (rcv_tcpPending env _ _ _))
  have hofo : (tcpDeliver env s skb).ofoQueue = (tcpText env s skb).rcv.ofoQueue :=
    (hcalm.receives hst).1
  rw [hofo] at hy
  unfold tcpText at hy
  split at hy
  · rw [rcv_tcpDataQueue] at hy
    exact mem_ofoQueue_dataQueue hy
  · exact .inr hy

/-- **An arriving segment.** -/
theorem SackRun.arrive (h : SackRun seen s) (hfec : s.fec = none) (hwrap : seg.NoWrap)
    (hfull : seg.payload ≠ [] ∨ seg.th.psh = false)
    (hseen : seg.payload ≠ [] → ∀ x ∈ seen, x.CopyOrApart seg) :
    SacksReported env s (.arrive seg) ∧
      SackRun (seen ++ (TcpEvent.arrive seg).text.toList) (tcpIn env s seg) := by
  by_cases hcalls : tcpDataCalls env s seg = []
  · have hquiet := @SackRun.quiet env s seen seg h hfec hcalls
    refine ⟨fun hne => absurd hcalls hne, hquiet.sack, hquiet.ofo, fun hst y hy => ?_⟩
    obtain ⟨x, hx, hxy⟩ := hquiet.waits hst y hy
    exact ⟨x, List.mem_append_left _ hx, hxy⟩
  · obtain ⟨s', hs', hrec, htext, hin⟩ := exists_ok_of_tcpDataCalls hfec hcalls
    have hbefore := ((calm_tcpChecks env s _).2 s' hs').before (.inr hrec)
    have hne : seg.payload ≠ [] := by
      rcases hfull with hne | hpsh
      · exact hne
      · rw [hpsh] at htext
        exact List.ne_nil_of_length_pos (htext.resolve_left Bool.false_ne_true)
    have hfit := h.fits hbefore.1 hwrap (hseen hne)
    have hofo : OfoInv (tcpIn env s seg) := (h.ofo.arrive hfec hwrap).2 fun _ => hfit
    obtain ⟨hq, hwaits⟩ := h.waiting hbefore.1
    have hinsert : s.tcb.rcvNxt < seg.th.seq →
        OfoFull (tcpDataInsertOrdered s.ofoQueue (tcpInitSegment seg)) := by
      intro hlt
      refine hq.insert hfit hwrap.skb (List.length_pos_of_ne_nil hne) ?_
      exact UInt32.lt_iff_toNat_lt.mpr (Nat.zero_lt_of_lt (UInt32.lt_iff_toNat_lt.mp hlt))
    obtain ⟨hreport, hsack⟩ := h.sack.deliver hs' rfl hrec htext hinsert
    rw [← hin] at hreport
    rw [hin] at hofo ⊢
    refine ⟨fun _ => hreport, hsack, hofo, fun hst y hy => ?_⟩
    rcases mem_ofoQueue_tcpDeliver hst hy with rfl | hy
    · refine ⟨seg, List.mem_append_right _ ?_, hne, rfl⟩
      simp [TcpEvent.text, hne]
    · have hsame : s'.ofoQueue = s.ofoQueue := hbefore.2
      obtain ⟨x, hx, hxy⟩ := (hwaits y (hsame ▸ hy)).2
      exact ⟨x, List.mem_append_left _ hx, hxy⟩

/-- **One event.** -/
theorem SackRun.step (h : SackRun seen s) {e : TcpEvent} (he : PlainEvent s e)
    (hfull : ArrivesFull e) (hseen : ∀ y ∈ e.text, ∀ x ∈ seen, x.CopyOrApart y) :
    SacksReported env s e ∧ SackRun (seen ++ e.text.toList) (tcpStep env s e) := by
  have hother : (∀ seg, e ≠ .arrive seg) → e.text = none → s.fec = none →
      SackRun (seen ++ e.text.toList) (tcpStep env s e) := by
    intro hne htext hfec
    rw [htext, Option.toList_none, List.append_nil]
    exact h.calm (h.sack.kept (sackKept_tcpStep hne)) (calm_tcpStep hfec hne)
  cases e with
  | arrive seg =>
    refine h.arrive he.1 he.2 hfull fun hne => hseen seg ?_
    simp [TcpEvent.text, hne]
  | _ => exact ⟨trivial, hother (fun seg heq => by cases heq) rfl he⟩

theorem sackRun_tcpAllocSock : SackRun [] tcpAllocSock := by
  have hofo : OfoInv tcpAllocSock :=
    ⟨fun _ => rfl, fun h => absurd h (by decide), fun h => absurd h (by decide)⟩
  exact ⟨sackInv_tcpAllocSock, hofo, fun h => absurd h (by decide)⟩

theorem SackRun.run {events : List TcpEvent} (h : SackRun seen s)
    (hplain : RunSat env PlainEvent s events) (hfull : ∀ e ∈ events, ArrivesFull e)
    (hapart : (seen ++ events.filterMap TcpEvent.text).Pairwise Segment.CopyOrApart) :
    RunSat env (SacksReported env) s events := by
  induction events generalizing seen s with
  | nil => trivial
  | cons e es ih =>
    obtain ⟨hfull, hfulls⟩ := List.forall_mem_cons.mp hfull
    have htexts : (e :: es).filterMap TcpEvent.text =
        e.text.toList ++ es.filterMap TcpEvent.text := by
      cases htext : e.text <;> simp [htext]
    rw [htexts, ← List.append_assoc] at hapart
    have hseen : ∀ y ∈ e.text, ∀ x ∈ seen, x.CopyOrApart y := by
      intro y hy x hx
      refine (List.pairwise_append.mp (List.pairwise_append.mp hapart).1).2.2 x hx y ?_
      exact Option.mem_toList.mpr hy
    obtain ⟨hreport, hnext⟩ := @SackRun.step env s seen h e hplain.1 hfull hseen
    exact ⟨hreport, ih hnext hplain.2 hfulls hapart⟩

end Run

/-- **SACK options describe the out-of-order queue.** In every run of a socket from its creation,
with FEC off, no wrap of sequence numbers and segments that are not empty and do not overlap one
another in part, the acknowledgement of each segment that is queued out of order, once SACK has been
agreed on, names the lowest four maximal runs of the queue, with lengths that agree. -/
theorem sacksReported_run (env : Env) (events : List TcpEvent)
    (hplain : RunSat env PlainEvent tcpAllocSock events) (hfull : ∀ e ∈ events, ArrivesFull e)
    (hapart : (events.filterMap TcpEvent.text).Pairwise Segment.CopyOrApart) :
    RunSat env (SacksReported env) tcpAllocSock events :=
  sackRun_tcpAllocSock.run hplain hfull hapart

/-- The handshake of a socket with a peer that agrees on SACK, two segments out of order, a copy of
the first, and the gap before it. -/
def sackedEvents : List TcpEvent :=
  [.connect 100, .arrive ⟨{ Tcphdr.zero with
      seq := 200, ackSeq := 101, hl := 6, syn := true, ack := true, data := [1, 1, 4, 2] }, []⟩,
    .arrive (segmentAt 203 [3, 4]), .arrive (segmentAt 207 [7]), .arrive (segmentAt 203 [3, 4]),
    .arrive (segmentAt 201 [1, 2])]

theorem sacksReported_sackedEvents :
    (sackedEvents.foldl (tcpStep quietLink) tcpAllocSock).sackok ≠ 0 ∧
      RunSat quietLink (SacksReported quietLink) tcpAllocSock sackedEvents :=
  ⟨by decide +kernel, sacksReported_run quietLink sackedEvents (by decide +kernel)
    (by decide +kernel) (by decide +kernel)⟩

end LvlIp.Tcp
