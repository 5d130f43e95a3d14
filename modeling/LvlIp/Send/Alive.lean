import LvlIp.Send.Base

/-!
# The buffers that the encoder points into

The encoder of a block in progress keeps pointers into buffers of the write queue. They stay valid
as long as no acknowledgement takes such a buffer off the queue (`SourcesKept`), and then the
parity of a block is the parity of the bytes that were queued for it (`sources_alive`).
-/

namespace LvlIp.Tcp

open Fec Foundations Relation

/-! ## The write queue when a segment arrives -/

theorem SameBuf.trans {x y z : SkBuff} (h : SameBuf x y) (h' : SameBuf y z) : SameBuf x z :=
  ⟨h.addr.trans h'.addr, h.tag.trans h'.tag, h.payload.trans h'.payload, h'.header.trans h.header⟩

theorem forall₂_sameBuf_refl (q : List SkBuff) : List.Forall₂ SameBuf q q :=
  List.forall₂_same.mpr fun x _ => .refl x

theorem forall₂_sameBuf_trans {q q' q'' : List SkBuff} (h : List.Forall₂ SameBuf q q')
    (h' : List.Forall₂ SameBuf q' q'') : List.Forall₂ SameBuf q q'' := by
  induction h generalizing q'' with
  | nil => exact h'
  | cons hxy _ ih =>
    cases h' with
    | cons hyz hrest => exact .cons (hxy.trans hyz) (ih hrest)

theorem SendsNext.same {nxt nxt' : UInt32} {q q' : List SkBuff} {n : ℕ} {ts : List Transmission}
    (h : SendsNext nxt q n nxt' q' ts) : List.Forall₂ SameBuf q' q := by
  induction h with
  | nil nxt q => exact forall₂_sameBuf_refl q
  | @cons nxt nxt' skb q q' n th ts hth _ ih =>
    exact .cons (((SameBuf.refl skb).withHeader hth).at nxt) ih

/-- The buffers that were taken off the head of the queue all meet `A`; the others stay. -/
def Cleaned (A : SkBuff → Prop) (q q' : List SkBuff) : Prop :=
  ∃ c, List.Forall₂ SameBuf q' (q.drop c) ∧ ∀ i < c, ∀ y, q[i]? = some y → A y

theorem Cleaned.of_same {A : SkBuff → Prop} {q q' : List SkBuff}
    (h : List.Forall₂ SameBuf q' q) : Cleaned A q q' :=
  ⟨0, h, fun i hi => absurd hi (Nat.not_lt_zero i)⟩

theorem Cleaned.trans_same {A : SkBuff → Prop} {q q' q'' : List SkBuff} (h : Cleaned A q q')
    (h' : List.Forall₂ SameBuf q'' q') : Cleaned A q q'' := by
  obtain ⟨c, hc, hall⟩ := h
  exact ⟨c, forall₂_sameBuf_trans h' hc, hall⟩

theorem Cleaned.mono {A B : SkBuff → Prop} {q q' : List SkBuff} (h : Cleaned A q q')
    (hAB : ∀ y, A y → B y) : Cleaned B q q' := by
  obtain ⟨c, hc, hall⟩ := h
  exact ⟨c, hc, fun i hi y hy => hAB y (hall i hi y hy)⟩

/-- A buffer that does not meet `A` stays. -/
theorem Cleaned.exists_same {A : SkBuff → Prop} {q q' : List SkBuff} (h : Cleaned A q q')
    {y : SkBuff} (hy : y ∈ q) (hA : ¬ A y) : ∃ x ∈ q', SameBuf x y := by
  obtain ⟨c, hc, hall⟩ := h
  obtain ⟨i, hi⟩ := List.mem_iff_getElem?.mp hy
  have hci : c ≤ i := by
    by_contra hlt
    exact hA (hall i (Nat.not_le.mp hlt) y hi)
  have hdrop : (q.drop c)[i - c]? = some y := by
    rw [List.getElem?_drop, Nat.add_sub_cancel' hci, hi]
  obtain ⟨x, hx, hxy⟩ := forall₂_getElem? (List.Forall₂.flip hc) hdrop
  exact ⟨x, List.mem_of_getElem? hx, hxy⟩

theorem Cleaned.map_addr {A : SkBuff → Prop} {q q' : List SkBuff} (h : Cleaned A q q') :
    ∃ c, q'.map SkBuff.addr = (q.map SkBuff.addr).drop c := by
  obtain ⟨c, hc, -⟩ := h
  refine ⟨c, ?_⟩
  rw [← List.map_drop]
  generalize q.drop c = q₁ at hc
  induction hc with
  | nil => rfl
  | cons hxy _ ih => rw [List.map_cons, List.map_cons, hxy.addr, ih]

/-- The acknowledgement number is new, and covers the buffer. -/
def Covers (s : TcpSock) (th : Tcphdr) (y : SkBuff) : Prop :=
  (s.tcb.sndUna < th.ackSeq ∧ th.ackSeq ≤ s.tcb.sndNxt) ∧ 0 < y.seq ∧ y.endSeq ≤ th.ackSeq

instance (s : TcpSock) (th : Tcphdr) : DecidablePred (Covers s th) := fun y =>
  inferInstanceAs (Decidable ((s.tcb.sndUna < th.ackSeq ∧ th.ackSeq ≤ s.tcb.sndNxt) ∧
    0 < y.seq ∧ y.endSeq ≤ th.ackSeq))

/-- The segment passes the checks before the ACK field. -/
def TcpSock.reachesAck (s : TcpSock) (skb : SkBuff) : Bool :=
  tcpVerifySegment s skb && !skb.th.rst && !skb.th.syn && skb.th.ack

/-- The ACK field of an arriving segment is processed. -/
def TcpSock.takesAck (env : Env) (s : TcpSock) (seg : Segment) : Bool :=
  let skb := tcpInitSegment seg
  match s.fec with
  | none => s.reachesAck skb
  | some fec =>
    let r := tcpFecInput env s fec skb
    !r.2 && r.1.reachesAck skb

section Arrival

variable (env : Env) {s : TcpSock}

theorem cleaned_tcpAck (th : Tcphdr) :
    Cleaned (Covers s th) s.writeQueue (tcpAck s th.ackSeq).1.writeQueue := by
  change Cleaned _ _ (tcpAck s th.ackSeq).1.snd.writeQueue
  rw [snd_tcpAck]
  unfold SndView.ack
  split
  · next hacc =>
    obtain ⟨c, -, heq, hall, -⟩ := tcpCleanLoop_spec th.ackSeq s.writeQueue s.inflight
    refine ⟨c, ?_, fun i hi y hy => ⟨hacc, hall i hi y hy⟩⟩
    change List.Forall₂ SameBuf (tcpCleanLoop th.ackSeq s.writeQueue s.inflight).1 _
    rw [heq]
    exact forall₂_sameBuf_refl _
  · exact .of_same (forall₂_sameBuf_refl _)

theorem cleaned_tcpAckField (h : s.state.connected) (th : Tcphdr) :
    Cleaned (Covers s th) s.writeQueue (tcpAckField s th).1.writeQueue := by
  unfold tcpAckField
  split
  · next hst => rw [hst] at h; cases h
  all_goals first
    | exact cleaned_tcpAck th
    | exact .of_same (forall₂_sameBuf_refl _)

theorem writeQueue_tcpSendAck (s : TcpSock) : (tcpSendAck env s).writeQueue = s.writeQueue :=
  congrArg SndView.writeQueue (snd_tcpSendAck env s)

theorem writeQueue_tcpFinAcked (th : Tcphdr) :
    (tcpFinAcked env s th).1.writeQueue = s.writeQueue := by
  unfold tcpFinAcked
  split
  · split
    · rfl
    · rfl
    · rfl
    · split
      · exact writeQueue_tcpSendAck env _
      · rfl
    · rfl
  · rfl

theorem same_tcpPending (skb : SkBuff) (expected : Bool) :
    List.Forall₂ SameBuf (tcpPending env s skb expected).writeQueue s.writeQueue := by
  unfold tcpPending
  split
  · dsimp only
    split
    · obtain ⟨ts, hsends, -⟩ := sendsNext_tcpSendNextLoop env (min s.writeQueue.length 3)
        (tcpStopDelackTimer s) s.writeQueue (Nat.min_le_left _ _)
      change List.Forall₂ SameBuf (tcpSendPending env (tcpStopDelackTimer s) _).snd.writeQueue _
      unfold tcpSendPending
      rw [snd_tcpRearmRtoTimer]
      exact hsends.same
    · change List.Forall₂ SameBuf (tcpAckOrDelay env (tcpStopDelackTimer s) skb).snd.writeQueue _
      rw [snd_tcpAckOrDelay]
      exact forall₂_sameBuf_refl _
  · exact forall₂_sameBuf_refl _

theorem same_tcpDeliver (skb : SkBuff) :
    List.Forall₂ SameBuf (tcpDeliver env s skb).writeQueue s.writeQueue := by
  have hq : (tcpFin env (tcpText env s skb) skb.th (skb.seq == s.tcb.rcvNxt)).writeQueue =
      s.writeQueue := by
    change (tcpFin env (tcpText env s skb) skb.th (skb.seq == s.tcb.rcvNxt)).snd.writeQueue = _
    rw [snd_tcpFin, snd_tcpText]
    rfl
  have hpending := @same_tcpPending env
    (tcpFin env (tcpText env s skb) skb.th (skb.seq == s.tcb.rcvNxt)) skb (skb.seq == s.tcb.rcvNxt)
  rw [hq] at hpending
  exact hpending

theorem cleaned_tcpSegmentArrives (h : s.state.connected) (skb : SkBuff) :
    Cleaned (fun y => s.reachesAck skb ∧ Covers s skb.th y) s.writeQueue
      (tcpSegmentArrives env s skb).writeQueue := by
  have hsame : ∀ q', q' = s.writeQueue →
      Cleaned (fun y => s.reachesAck skb ∧ Covers s skb.th y) s.writeQueue q' :=
    fun q' hq' => .of_same (hq' ▸ forall₂_sameBuf_refl _)
  unfold tcpSegmentArrives
  split
  · split
    · exact hsame _ rfl
    · exact hsame _ (writeQueue_tcpSendAck env s)
  · next hv =>
    split
    · exact hsame _ rfl
    · next hrst =>
      split
      · exact hsame _ rfl
      · next hsyn =>
        split
        · exact hsame _ rfl
        · next hack =>
          have hreach : s.reachesAck skb := by
            unfold TcpSock.reachesAck
            simp_all
          have hclean := (cleaned_tcpAckField h skb.th).mono fun y hy =>
            (⟨hreach, hy⟩ : s.reachesAck skb = true ∧ Covers s skb.th y)
          dsimp only
          split
          · exact hclean
          · have hfin := writeQueue_tcpFinAcked env (s := (tcpAckField s skb.th).1) skb.th
            split
            · rwa [hfin]
            · refine hclean.trans_same ?_
              rw [← hfin]
              exact same_tcpDeliver env skb

theorem snd_tcpFecInput {fec : TcpFec} (hfec : s.fec = some fec) (skb : SkBuff) :
    (tcpFecInput env s fec skb).1.snd = s.snd := by
  have hput : TcpSock.snd { s with fec := some (tcpFecRx fec skb).1 } = s.snd := by
    simp only [TcpSock.snd, Option.map_some, tx_tcpFecRx, hfec]
  have hsplice : ∀ (sps : List Splice) (s' : TcpSock),
      (sps.foldl (tcpFecSplice env) s').snd = s'.snd := by
    intro sps
    induction sps with
    | nil => exact fun s' => rfl
    | cons sp sps ih => exact fun s' => (ih _).trans (snd_tcpDataQueue env s' sp.skb)
  unfold tcpFecInput
  dsimp only
  split
  · rw [hsplice, hput]
  · rw [snd_tcpSendAck, hsplice, hput]

/-- **An arriving segment takes buffers off the queue** only when its ACK field is processed and
covers them. -/
theorem cleaned_tcpIn (h : s.state.connected) (seg : Segment) :
    Cleaned (fun y => s.takesAck env seg ∧ Covers s seg.th y) s.writeQueue
      (tcpIn env s seg).writeQueue := by
  have hplain := cleaned_tcpSegmentArrives env h (tcpInitSegment seg)
  have hsame : Cleaned (fun y => s.takesAck env seg ∧ Covers s seg.th y) s.writeQueue
      s.writeQueue := .of_same (forall₂_sameBuf_refl _)
  have hst : ∀ st, s.state = st → st.connected := fun st hst => hst ▸ h
  have harrive : Cleaned (fun y => s.takesAck env seg ∧ Covers s seg.th y) s.writeQueue
      (match s.fec with
        | none => tcpSegmentArrives env s (tcpInitSegment seg)
        | some fec =>
          let r := tcpFecInput env s fec (tcpInitSegment seg)
          if r.2 then r.1 else tcpSegmentArrives env r.1 (tcpInitSegment seg)).writeQueue := by
    cases hfec : s.fec with
    | none =>
      refine hplain.mono fun y hy => ⟨?_, hy.2⟩
      unfold TcpSock.takesAck
      rw [hfec]
      exact hy.1
    | some fec =>
      have hsnd := snd_tcpFecInput env hfec (tcpInitSegment seg)
      have hconn := (txSteps_tcpFecInput env h hfec (tcpInitSegment seg)).1
      have hq : (tcpFecInput env s fec (tcpInitSegment seg)).1.writeQueue = s.writeQueue :=
        congrArg SndView.writeQueue hsnd
      dsimp only
      split
      · rw [hq]
        exact hsame
      · next hr =>
        have hclean := cleaned_tcpSegmentArrives env hconn (tcpInitSegment seg)
        rw [hq] at hclean
        refine hclean.mono fun y hy => ⟨?_, ?_⟩
        · unfold TcpSock.takesAck
          rw [hfec]
          simp_all
        · have huna := congrArg SndView.sndUna hsnd
          have hnxt := congrArg SndView.sndNxt hsnd
          have hcov := hy.2
          unfold Covers at hcov ⊢
          change (tcpFecInput env s fec (tcpInitSegment seg)).1.tcb.sndUna = s.tcb.sndUna at huna
          change (tcpFecInput env s fec (tcpInitSegment seg)).1.tcb.sndNxt = s.tcb.sndNxt at hnxt
          rw [huna, hnxt] at hcov
          exact hcov
  unfold tcpIn tcpInputState
  split
  · next hs => cases hst _ hs
  · exact hsame
  · next hs => cases hst _ hs
  · exact harrive

end Arrival

/-! ## The block in progress -/

/-- The buffers queued for block `n`. -/
def blockOf (queued : List SkBuff) (n : ℕ) : List SkBuff :=
  queued.filter fun y => y.tag.any fun tag => tag.block == n

theorem any_block_iff {y : SkBuff} {n : ℕ} : (y.tag.any fun tag => tag.block == n) = true ↔
    ∃ tag, y.tag = some tag ∧ tag.block = n := by
  rw [Option.any_eq_true]
  simp only [beq_iff_eq]

theorem blockOf_append (queued : List SkBuff) (y : SkBuff) (n : ℕ) :
    blockOf (queued ++ [y]) n =
      blockOf queued n ++ if y.tag.any fun tag => tag.block == n then [y] else [] := by
  unfold blockOf
  rw [List.filter_append, List.filter_singleton]
  cases y.tag.any fun tag => tag.block == n <;> rfl

/-- The parity of the bytes of a block, as `fec_encoder_generate` computes it from the padded
symbols. -/
def sentParity (r symLen : ℕ) (B : List SkBuff) : Option (List Packet) :=
  (fecEncoderInit fecRsInit B.length r symLen none).bind fun enc =>
    (addSources enc (B.map fun y => padSymbol symLen y.payload)).bind (fecEncoderGenerate id)

theorem sentParity_eq {r : ℕ} {B : List SkBuff} (hgeo : fecGeometryOk B.length r) (symLen : ℕ) :
    sentParity r symLen B = some (blockParity (fecSrcX B.length) (fecRedX B.length r none)
      (B.map fun y => padSymbol symLen y.payload) symLen) := by
  obtain ⟨hpts, hinit⟩ := fecEncoderInit_default (α := Packet) hgeo symLen
  unfold sentParity
  rw [hinit, Option.bind_some, addSources_eq, Option.bind_some, fecEncoderGenerate_eq]
  · rw [List.nil_append, List.map_id]
  · rfl
  · exact hpts
  · exact List.length_map _
  · exact (Nat.zero_add _).trans_le (List.length_map _).le

/-- The block in progress: its first buffers are registered with the encoder, and those it points
into are in the write queue. -/
structure Filling (v : TxView) (fec : TcpFec) : Prop where
  enc : EncOk fec
  below : ∀ y ∈ v.snd.queued, ∀ tag, y.tag = some tag → tag.block ≤ fec.txBlockId
  filled : fec.txFilled ≤ (blockOf v.snd.queued fec.txBlockId).length
  exact : fec.txFilled < fec.k →
    (blockOf v.snd.queued fec.txBlockId).length = fec.txFilled
  staged : ∀ i < fec.txFilled, ∀ y, (blockOf v.snd.queued fec.txBlockId)[i]? = some y →
    StagedAt fec i y ∧ y.tag = some { type := .source, index := i, block := fec.txBlockId } ∧
      (fec.enc.src[i]? = some (.skb y.addr) → ∃ x ∈ v.snd.writeQueue, SameBuf x y)
  addrs : (v.snd.writeQueue.map SkBuff.addr).Nodup
  fresh : ∀ x ∈ v.snd.writeQueue, x.addr < v.nextAddr

/-- A repair segment carries parity of the bytes queued for its block. -/
def ParityOf (r symLen : ℕ) (queued : List SkBuff) (t : Transmission) : Prop :=
  ∀ j n, t.tag = some { type := .repair, index := j, block := n } →
    let k := (FecRepairHdr.read t.seg.payload).k.toNat
    k ≤ (blockOf queued n).length ∧ ∃ ps p, sentParity r symLen ((blockOf queued n).take k) = some ps ∧
      ps[j]? = some p ∧ t.seg.payload.drop fecRepairHdrLen = p.take symLen

/-- The invariant of the sender. -/
structure AliveInv (r symLen : ℕ) (v : TxView) : Prop where
  tags : ∀ x ∈ v.snd.writeQueue, ∀ j n, x.tag ≠ some { type := .repair, index := j, block := n }
  filling : ∀ fec, v.snd.tx = some fec → Filling v fec ∧ fec.r = r ∧ fec.symLen = symLen
  parity : ∀ t ∈ v.out, ParityOf r symLen v.snd.queued t

theorem ParityOf.append {r symLen : ℕ} {queued : List SkBuff} {t : Transmission}
    (h : ParityOf r symLen queued t) (y : SkBuff) : ParityOf r symLen (queued ++ [y]) t := by
  intro j n htag
  obtain ⟨hk, ps, p, hps, hp, hpay⟩ := h j n htag
  rw [blockOf_append]
  refine ⟨hk.trans (by rw [List.length_append]; exact Nat.le_add_right _ _), ps, p, ?_, hp, hpay⟩
  rw [List.take_append_of_le_length hk, hps]

theorem parityOf_of_tag {r symLen : ℕ} {queued : List SkBuff} {t : Transmission}
    (h : ∀ j n, t.tag ≠ some { type := .repair, index := j, block := n }) :
    ParityOf r symLen queued t :=
  fun j n htag => absurd htag (h j n)

section Preservation

variable {r symLen : ℕ} {env : Env} {s : TcpSock} {fec : TcpFec}

theorem Filling.tx {v : TxView} (h : Filling v fec) : Filling v fec.tx :=
  { h with enc := h.enc.tx }

theorem Filling.of_tx {v : TxView} (h : Filling v fec.tx) : Filling v fec :=
  { h with enc := { h.enc with } }

theorem AliveInv.filling_of (h : AliveInv r symLen s.txv) (hfec : s.fec = some fec) :
    Filling s.txv fec ∧ fec.r = r ∧ fec.symLen = symLen := by
  obtain ⟨hfill, hr, hs⟩ := h.filling fec.tx (TcpSock.tx_eq hfec)
  exact ⟨hfill.of_tx, hr, hs⟩

theorem padSymbol_of_length {symLen : ℕ} {payload : List UInt8} (h : payload.length = symLen) :
    padSymbol symLen payload = payload := by
  rw [padSymbol, List.take_of_length_le h.le, h, Nat.sub_self, List.replicate_zero, List.append_nil]

theorem find?_addr {q : List SkBuff} (hnd : (q.map SkBuff.addr).Nodup) {x : SkBuff} (hx : x ∈ q) :
    q.find? (fun z => decide (z.addr = x.addr)) = some x := by
  induction q with
  | nil => cases hx
  | cons z q ih =>
    rw [List.map_cons, List.nodup_cons] at hnd
    rcases List.mem_cons.mp hx with rfl | hx
    · simp
    · have hne : z.addr ≠ x.addr := fun heq => hnd.1 (heq ▸ List.mem_map_of_mem hx)
      rw [List.find?_cons_of_neg (by simpa using hne)]
      exact ih hnd.2 hx

/-- **What the encoder reads** are the padded symbols of the block. -/
theorem Filling.symbols (h : Filling s.txv fec) :
    fec.enc.src.map (symMem env s fec) =
      ((blockOf s.queued fec.txBlockId).take fec.txFilled).map
        fun y => padSymbol fec.symLen y.payload := by
  have hfilled : fec.txFilled ≤ (blockOf s.queued fec.txBlockId).length := h.filled
  apply List.ext_getElem?
  intro i
  rw [List.getElem?_map, List.getElem?_map, List.getElem?_take]
  split
  · next hi =>
    obtain ⟨y, hy⟩ : ∃ y, (blockOf s.queued fec.txBlockId)[i]? = some y :=
      ⟨_, List.getElem?_eq_getElem (hi.trans_le hfilled)⟩
    obtain ⟨hst, -, hlive⟩ := h.staged i hi y hy
    rw [hy]
    rcases hst with ⟨hsrc, hlen⟩ | ⟨hsrc, hbuf⟩
    · obtain ⟨x, hx, hxy⟩ := hlive hsrc
      have hfind : s.writeQueue.find? (fun z => decide (z.addr = y.addr)) = some x := by
        rw [← hxy.addr]
        exact find?_addr h.addrs hx
      rw [hsrc, Option.map_some, Option.map_some, symMem, hfind, padSymbol_of_length hlen]
      exact congrArg some hxy.payload
    · rw [hsrc, Option.map_some, Option.map_some, symMem, hbuf]
  · next hi =>
    rw [List.getElem?_eq_none (by rw [h.enc.filled]; omega)]
    rfl

/-- **Emitting a block** sends the parity of its bytes. -/
theorem AliveInv.emit {s' : TcpSock} (h : AliveInv r symLen s.txv) (hfec : s.fec = some fec)
    (hpos : 0 < fec.txFilled) {ps : List Packet} {ts : List Transmission}
    (hem : Emission env s fec s' ps ts) : AliveInv r symLen s'.txv := by
  obtain ⟨hfill, hr, hs⟩ := h.filling_of hfec
  have hfilled : fec.txFilled ≤ (blockOf s.queued fec.txBlockId).length := hfill.filled
  have hlen : ((blockOf s.queued fec.txBlockId).take fec.txFilled).length = fec.txFilled := by
    rw [List.length_take, Nat.min_eq_left hfilled]
  have hgeo : fecGeometryOk fec.txFilled fec.r := by
    have := hfill.enc.geometry
    have := hfill.enc.le
    unfold fecGeometryOk at *
    omega
  have hk : (UInt8.ofNat fec.txFilled).toNat = fec.txFilled := by
    rw [UInt8.toNat_ofNat']
    refine Nat.mod_eq_of_lt ?_
    unfold fecGeometryOk at hgeo
    omega
  have hsent : sentParity r symLen ((blockOf s.queued fec.txBlockId).take fec.txFilled) = some ps := by
    have hpar := hem.parity
    rw [hfill.enc.parity_eq hpos env s, hfill.symbols] at hpar
    rw [sentParity_eq (by rw [hlen, ← hr]; exact hgeo), hlen, ← hr, ← hs]
    exact hpar
  refine ⟨?_, fun f hf => ?_, fun t ht => ?_⟩
  · rw [hem.sock]
    exact h.tags
  · rw [hem.sock] at hf ⊢
    obtain rfl : (if s.linkTakes env fec.r then fec.nextBlock else fec).tx = f :=
      Option.some_inj.mp hf
    split
    · refine ⟨⟨hfill.enc.nextBlock.tx, ?_, Nat.zero_le _, ?_, ?_, hfill.addrs, ?_⟩, hr, hs⟩
      · exact fun y hy tag htag => Nat.le_succ_of_le (hfill.below y hy tag htag)
      · intro _
        refine List.length_eq_zero_iff.mpr (List.filter_eq_nil_iff.mpr fun y hy htag => ?_)
        obtain ⟨tag, htag', hblock⟩ := any_block_iff.mp htag
        have hle := hfill.below y hy tag htag'
        change tag.block = fec.txBlockId + 1 at hblock
        omega
      · exact fun i hi => absurd hi (Nat.not_lt_zero i)
      · exact fun x hx => (hfill.fresh x hx).trans_le (Nat.le_add_right _ _)
    · refine ⟨Filling.tx { hfill with fresh := ?_ }, hr, hs⟩
      exact fun x hx => (hfill.fresh x hx).trans_le (Nat.le_add_right _ _)
  · have hq : s'.txv.snd.queued = s.queued := by
      rw [hem.sock]
      rfl
    have hout : s'.txv.out = s.out ++ ts := by
      rw [hem.sock]
      rfl
    rw [hq]
    rw [hout] at ht
    rcases List.mem_append.mp ht with ht | ht
    · exact h.parity t ht
    · obtain ⟨i, hi⟩ := List.mem_iff_getElem?.mp ht
      obtain ⟨p, hp, hof⟩ := hem.repairs i t hi
      intro j n htag
      rw [hof.tag, Option.some_inj, FecTag.mk.injEq] at htag
      obtain ⟨-, rfl, rfl⟩ := htag
      rw [hof.payload, read_write]
      change (UInt8.ofNat fec.txFilled).toNat ≤ _ ∧ ∃ qs q, sentParity r symLen
        ((blockOf s.queued fec.txBlockId).take (UInt8.ofNat fec.txFilled).toNat) = some qs ∧ _
      rw [hk]
      refine ⟨hfilled, ps, p, hsent, hp, ?_⟩
      rw [List.drop_left' (length_write _), hs]

theorem EncOk.register_full (h : EncOk fec) (hfull : fec.txFilled = fec.k) (skb : SkBuff) :
    fec.register skb = { fec with txTailLen := skb.dlen } := by
  have hadd : ∀ ptr, fecEncoderAddSource fec.enc ptr = none := by
    intro ptr
    rw [fecEncoderAddSource, if_pos]
    rw [FecEncoder.filled, h.filled, h.encK, hfull]
  have hset : ∀ p : Packet, fec.txSrcBuf.set fec.txFilled p = fec.txSrcBuf := fun p =>
    List.set_eq_of_length_le (by rw [h.srcBuf, hfull])
  unfold TcpFec.register
  split
  · next hd => simp only [hadd, hd]
  · simp only [hadd, hset]

/-- **A registered symbol** is staged, and the others stay. -/
theorem stagedAt_register (h : EncOk fec) (hlt : fec.txFilled < fec.k) (nxt : UInt32) {addr : ℕ}
    {piece : List UInt8 × Bool} (hle : piece.1.length ≤ fec.symLen) {y : SkBuff}
    (hy : SameBuf y (codedBuf addr fec piece)) :
    let fec' := (fec.pin nxt).register (codedBuf addr fec piece)
    (∀ i < fec.txFilled, fec'.enc.src[i]? = fec.enc.src[i]?) ∧
      (∀ i < fec.txFilled, ∀ z, StagedAt fec i z → StagedAt fec' i z) ∧
      StagedAt fec' fec.txFilled y := by
  intro fec'
  have hsrc : ∀ (ptr : SymPtr) (i : ℕ), i < fec.txFilled →
      (fec.enc.src ++ [ptr])[i]? = fec.enc.src[i]? := fun ptr i hi =>
    List.getElem?_append_left (by rwa [h.filled])
  have hlast : ∀ ptr : SymPtr, (fec.enc.src ++ [ptr])[fec.txFilled]? = some ptr := fun ptr => by
    rw [← h.filled, List.getElem?_concat_length]
  have hpin : (fec.pin nxt).enc = fec.enc ∧ (fec.pin nxt).txSrcBuf = fec.txSrcBuf ∧
      (fec.pin nxt).symLen = fec.symLen ∧ (fec.pin nxt).txFilled = fec.txFilled := by
    unfold TcpFec.pin
    split <;> exact ⟨rfl, rfl, rfl, rfl⟩
  obtain ⟨henc, hbuf, hsym, hfil⟩ := hpin
  have hreg := (h.pin nxt).register_eq (by rwa [TcpFec.pin_txFilled, TcpFec.pin_k])
    (codedBuf addr fec piece)
  have hdlen : y.dlen = (codedBuf addr fec piece).dlen := hy.dlen
  have hpay : y.payload = piece.1 := hy.payload
  split at hreg
  · next hd =>
    have hf : fec' = (fec.pin nxt).added (.skb addr) (fec.pin nxt).symLen
        (fec.pin nxt).txSrcBuf := hreg
    have hfields : fec'.enc.src = fec.enc.src ++ [.skb addr] ∧ fec'.txSrcBuf = fec.txSrcBuf ∧
        fec'.symLen = fec.symLen := by
      rw [hf]
      exact ⟨congrArg (fun e : FecEncoder SymPtr => e.src ++ [.skb addr]) henc, hbuf, hsym⟩
    obtain ⟨hs', hb', hl'⟩ := hfields
    refine ⟨fun i hi => by rw [hs', hsrc _ i hi], fun i hi z hz => ?_, ?_⟩
    · unfold StagedAt at hz ⊢
      rwa [hs', hb', hl', hsrc _ i hi]
    · left
      rw [hs', hlast, hl', hy.addr, hdlen, hd, hsym]
      exact ⟨rfl, rfl⟩
  · next hd =>
    have hf : fec' = (fec.pin nxt).added (.slot (fec.pin nxt).txFilled) _ _ := hreg
    have hfields : fec'.enc.src = fec.enc.src ++ [.slot fec.txFilled] ∧
        fec'.txSrcBuf = fec.txSrcBuf.set fec.txFilled
          (piece.1 ++ List.replicate (fec.symLen - piece.1.length) 0) ∧
        fec'.symLen = fec.symLen := by
      rw [hf, hfil, hbuf, hsym]
      exact ⟨congrArg (fun e : FecEncoder SymPtr => e.src ++ [.slot fec.txFilled]) henc, rfl, hsym⟩
    obtain ⟨hs', hb', hl'⟩ := hfields
    refine ⟨fun i hi => by rw [hs', hsrc _ i hi], fun i hi z hz => ?_, ?_⟩
    · unfold StagedAt at hz ⊢
      rwa [hs', hb', hl', hsrc _ i hi, List.getD_eq_getElem?_getD,
        List.getElem?_set_ne (by omega), ← List.getD_eq_getElem?_getD]
    · right
      rw [hs', hlast, hb', hl', List.getD_eq_getElem?_getD,
        List.getElem?_set_self (by rw [h.srcBuf]; exact hlt), Option.getD_some, padSymbol, hpay,
        List.take_of_length_le hle]
      exact ⟨rfl, rfl⟩

theorem nextAddr_tcpQueueTransmitSkb (env : Env) (s : TcpSock) (skb : SkBuff) :
    (tcpQueueTransmitSkb env s skb).1.nextAddr = s.nextAddr := by
  rcases exists_tcpQueueTransmitSkb env s skb with ⟨-, hview⟩ | ⟨-, th, -, hview⟩
  · exact congrArg TxView.nextAddr hview
  · exact congrArg TxView.nextAddr hview

theorem TcpFec.register_r (fec : TcpFec) (skb : SkBuff) : (fec.register skb).r = fec.r := by
  unfold TcpFec.register
  dsimp only
  split <;> split <;> rfl

theorem TcpFec.pin_r (fec : TcpFec) (nxt : UInt32) : (fec.pin nxt).r = fec.r := by
  unfold TcpFec.pin
  split <;> rfl

/-- The block in progress with the next buffer, in the block or, when it is full, behind it. -/
theorem Filling.queue {v v' : TxView} (h : Filling v fec) {piece : List UInt8 × Bool}
    (hle : piece.1.length ≤ fec.symLen) {y : SkBuff} (hy : SameBuf y (codedBuf v.nextAddr fec piece))
    (nxt : UInt32) (hqueued : v'.snd.queued = v.snd.queued ++ [y])
    (hwq : v'.snd.writeQueue = v.snd.writeQueue ++ [y]) (haddr : v'.nextAddr = v.nextAddr + 1) :
    Filling v' ((fec.pin nxt).register (codedBuf v.nextAddr fec piece)) := by
  have hytag : y.tag = some { type := .source, index := fec.txFilled, block := fec.txBlockId } :=
    hy.tag
  have hyaddr : y.addr = v.nextAddr := hy.addr
  have hblock : blockOf (v.snd.queued ++ [y]) fec.txBlockId =
      blockOf v.snd.queued fec.txBlockId ++ [y] := by
    rw [blockOf_append, if_pos (any_block_iff.mpr ⟨_, hytag, rfl⟩)]
  have hbelow : ∀ z ∈ v.snd.queued ++ [y], ∀ tag, z.tag = some tag → tag.block ≤ fec.txBlockId := by
    intro z hz tag htag
    rcases List.mem_append.mp hz with hz | hz
    · exact h.below z hz tag htag
    · rw [List.mem_singleton.mp hz, hytag, Option.some_inj] at htag
      rw [← htag]
  have haddrs : ((v.snd.writeQueue ++ [y]).map SkBuff.addr).Nodup := by
    rw [List.map_append, List.map_singleton]
    refine List.nodup_append.mpr ⟨h.addrs, List.nodup_singleton _, fun a ha b hb heq => ?_⟩
    obtain ⟨x, hx, rfl⟩ := List.mem_map.mp ha
    have hlt := h.fresh x hx
    rw [List.mem_singleton.mp hb, hyaddr] at heq
    omega
  have hfresh : ∀ x ∈ v.snd.writeQueue ++ [y], x.addr < v.nextAddr + 1 := by
    intro x hx
    rcases List.mem_append.mp hx with hx | hx
    · exact Nat.lt_succ_of_lt (h.fresh x hx)
    · rw [List.mem_singleton.mp hx, hyaddr]
      exact Nat.lt_succ_self _
  have hlive : ∀ z, (∃ x ∈ v.snd.writeQueue, SameBuf x z) →
      ∃ x ∈ v.snd.writeQueue ++ [y], SameBuf x z :=
    fun z ⟨x, hx, hxz⟩ => ⟨x, List.mem_append_left _ hx, hxz⟩
  have hreg := (h.enc.pin nxt).register (codedBuf v.nextAddr fec piece)
  rcases h.enc.le.lt_or_eq with hlt | hfull
  · obtain ⟨hsrc, hold, hnew⟩ := stagedAt_register h.enc hlt nxt hle hy
    obtain ⟨ptr, srcBuf, heq⟩ := (h.enc.pin nxt).exists_register
      (by rwa [TcpFec.pin_txFilled, TcpFec.pin_k]) (codedBuf v.nextAddr fec piece)
    have hid : ((fec.pin nxt).register (codedBuf v.nextAddr fec piece)).txBlockId =
        fec.txBlockId := by
      rw [heq]
      exact fec.pin_txBlockId nxt
    have hfil : ((fec.pin nxt).register (codedBuf v.nextAddr fec piece)).txFilled =
        fec.txFilled + 1 := by
      rw [heq]
      exact congrArg (· + 1) (fec.pin_txFilled nxt)
    have hlen : (blockOf v.snd.queued fec.txBlockId ++ [y]).length = fec.txFilled + 1 := by
      rw [List.length_append, List.length_singleton, h.exact hlt]
    generalize (fec.pin nxt).register (codedBuf v.nextAddr fec piece) = fec' at *
    refine ⟨hreg, by rwa [hqueued, hid], ?_, fun _ => ?_, fun i hi z hz => ?_, by rwa [hwq],
      by rwa [hwq, haddr]⟩
    · rw [hqueued, hid, hblock, hlen, hfil]
    · rw [hqueued, hid, hblock, hlen, hfil]
    · rw [hqueued, hid, hblock, List.getElem?_append] at hz
      rw [hwq, hid]
      split at hz
      · next hlt' =>
        rw [h.exact hlt] at hlt'
        obtain ⟨hst, htag, hl⟩ := h.staged i hlt' z hz
        exact ⟨hold i hlt' z hst, htag, fun hptr => hlive z (hl (hsrc i hlt' ▸ hptr))⟩
      · next hge =>
        rw [h.exact hlt] at hge hz
        obtain rfl : i = fec.txFilled := by omega
        rw [Nat.sub_self, List.getElem?_cons_zero, Option.some_inj] at hz
        subst hz
        exact ⟨hnew, hytag, fun _ => ⟨y, List.mem_append_right _ List.mem_cons_self, .refl y⟩⟩
  · -- the buffer is queued, but the encoder does not take it
    have hpin : fec.pin nxt = fec := by
      unfold TcpFec.pin
      rw [if_neg (by rw [hfull]; exact h.enc.k_pos.ne')]
    rw [hpin] at hreg ⊢
    rw [h.enc.register_full hfull] at hreg ⊢
    refine ⟨hreg, by rwa [hqueued], ?_, fun hlt => absurd hfull hlt.ne, fun i hi z hz => ?_,
      by rwa [hwq], by rwa [hwq, haddr]⟩
    · rw [hqueued, hblock, List.length_append]
      exact h.filled.trans (Nat.le_add_right _ _)
    · rw [hqueued, hblock, List.getElem?_append_left (hi.trans_le h.filled)] at hz
      obtain ⟨hst, htag, hl⟩ := h.staged i hi z hz
      rw [hwq]
      exact ⟨hst, htag, fun hptr => hlive z (hl hptr)⟩

/-- **Queueing a symbol** keeps the invariant, whether the block takes it or not. -/
theorem AliveInv.queue (h : AliveInv r symLen s.txv) (hfec : s.fec = some fec)
    {piece : List UInt8 × Bool} (hle : piece.1.length ≤ fec.symLen) :
    AliveInv r symLen (s.queuedPiece env fec piece).txv := by
  obtain ⟨hfill, hr, hs⟩ := h.filling_of hfec
  obtain ⟨y, hy, hqueued, hwq, ts, hout, hts⟩ :=
    exists_queued env (s.staged fec piece) (codedBuf s.nextAddr fec piece)
  change (s.queuedPiece env fec piece).txv.snd.queued = s.queued ++ [y] at hqueued
  change (s.queuedPiece env fec piece).txv.snd.writeQueue = s.writeQueue ++ [y] at hwq
  change (s.queuedPiece env fec piece).txv.out = s.out ++ ts at hout
  have haddr : (s.queuedPiece env fec piece).txv.nextAddr = s.nextAddr + 1 :=
    nextAddr_tcpQueueTransmitSkb env (s.staged fec piece) _
  have hytag : y.tag = some { type := .source, index := fec.txFilled, block := fec.txBlockId } :=
    hy.tag
  refine ⟨fun x hx j n => ?_, fun f hf => ?_, fun t ht => ?_⟩
  · rw [hwq] at hx
    rcases List.mem_append.mp hx with hx | hx
    · exact h.tags x hx j n
    · rw [List.mem_singleton.mp hx, hytag]
      simp
  · rw [TcpSock.tx_eq (fec_queuedPiece env s fec piece), Option.some_inj] at hf
    rw [← hf]
    have hnew := hfill.queue hle hy s.tcb.sndNxt hqueued hwq haddr
    refine ⟨hnew.tx, ?_, ?_⟩
    · exact (TcpFec.register_r _ _).trans ((fec.pin_r _).trans hr)
    · exact (TcpFec.register_symLen _ _).trans ((fec.pin_symLen _).trans hs)
  · rw [hqueued]
    rw [hout] at ht
    rcases List.mem_append.mp ht with ht | ht
    · exact (h.parity t ht).append y
    · refine parityOf_of_tag fun j n => ?_
      rw [hts t ht]
      exact fun heq => by cases heq

theorem AliveInv.queuePlain (h : AliveInv r symLen s.txv) (hfec : s.fec = none) {skb : SkBuff}
    (htag : skb.tag = none) : AliveInv r symLen (tcpQueueTransmitSkb env s skb).1.txv := by
  obtain ⟨y, hy, hqueued, hwq, ts, hout, hts⟩ := exists_queued env s skb
  change (tcpQueueTransmitSkb env s skb).1.txv.snd.queued = s.queued ++ [y] at hqueued
  change (tcpQueueTransmitSkb env s skb).1.txv.snd.writeQueue = s.writeQueue ++ [y] at hwq
  have hfec' : (tcpQueueTransmitSkb env s skb).1.fec = none :=
    (congrArg RcvView.fec (rcv_tcpQueueTransmitSkb env s skb)).trans hfec
  refine ⟨fun x hx j n => ?_, fun f hf => ?_, fun t ht => ?_⟩
  · rw [hwq] at hx
    rcases List.mem_append.mp hx with hx | hx
    · exact h.tags x hx j n
    · rw [List.mem_singleton.mp hx, hy.tag, htag]
      simp
  · rw [(TcpSock.tx_none_iff _).mpr hfec'] at hf
    cases hf
  · rw [hqueued]
    rw [hout] at ht
    rcases List.mem_append.mp ht with ht | ht
    · exact (h.parity t ht).append y
    · refine parityOf_of_tag fun j n => ?_
      rw [hts t ht, htag]
      simp

theorem TxStep.nextAddr_le {v v' : TxView} (h : TxStep v v') : v.nextAddr ≤ v'.nextAddr := by
  cases h with
  | control th => exact Nat.le_succ _
  | ack ackSeq hacc => exact le_rfl
  | pending h0 hpos hsends => exact le_rfl
  | disarm => exact le_rfl
  | release => exact le_rfl

theorem nextAddr_le_of_steps {v v' : TxView} (h : ReflTransGen TxStep v v') :
    v.nextAddr ≤ v'.nextAddr := by
  induction h with
  | refl => exact le_rfl
  | tail _ hstep ih => exact ih.trans hstep.nextAddr_le

/-- The acknowledgement of an arriving segment does not cover a buffer that the encoder points
into. -/
def SourcesKept (env : Env) (s : TcpSock) : FlowEvent → Prop
  | .write _ => True
  | .arrive seg => s.takesAck env seg → ∀ fec ∈ s.fec, ∀ y ∈ s.writeQueue,
      .skb y.addr ∈ fec.enc.src → ¬ Covers s seg.th y

instance (env : Env) (s : TcpSock) : DecidablePred (SourcesKept env s)
  | .write _ => .isTrue trivial
  | .arrive seg => inferInstanceAs (Decidable (s.takesAck env seg → ∀ fec ∈ s.fec,
      ∀ y ∈ s.writeQueue, .skb y.addr ∈ fec.enc.src → ¬ Covers s seg.th y))

/-- **A segment arrives**; the buffers of the block in progress stay in the queue. -/
theorem AliveInv.arrive (h : AliveInv r symLen s.txv) (hst : s.state.connected) {seg : Segment}
    (hkept : SourcesKept env s (.arrive seg)) : AliveInv r symLen (tcpIn env s seg).txv := by
  have hsteps := txSteps_tcpIn env hst seg
  have hs := sending_of_steps hsteps.2
  have hclean := cleaned_tcpIn env hst seg
  have haddr := nextAddr_le_of_steps hsteps.2
  refine ⟨fun x hx j n => ?_, fun f hf => ?_, fun t ht => ?_⟩
  · obtain ⟨y, hy, hxy⟩ := hs.writeQueue x hx
    rw [hxy]
    exact h.tags y hy j n
  · rcases hs.tx with heq | heq
    · have hf' := hf
      rw [heq] at hf'
      obtain ⟨hfill, hr, hl⟩ := h.filling f hf'
      obtain ⟨fec, hfec, rfl⟩ := TcpSock.exists_fec hf'
      obtain ⟨c, hmap⟩ := hclean.map_addr
      refine ⟨{ hfill with
        below := hs.queued ▸ hfill.below
        filled := hs.queued ▸ hfill.filled
        exact := hs.queued ▸ hfill.exact
        staged := fun i hi y hy => ?_
        addrs := ?_
        fresh := fun x hx => ?_ }, hr, hl⟩
      · rw [hs.queued] at hy
        obtain ⟨hstg, htag, hlive⟩ := hfill.staged i hi y hy
        refine ⟨hstg, htag, fun hptr => ?_⟩
        obtain ⟨x, hx, hxy⟩ := hlive hptr
        have hsrc : SymPtr.skb x.addr ∈ fec.enc.src := by
          rw [hxy.addr]
          exact List.mem_of_getElem? hptr
        obtain ⟨z, hz, hzx⟩ := hclean.exists_same hx
          fun hcov => hkept hcov.1 fec hfec x hx hsrc hcov.2
        exact ⟨z, hz, hzx.trans hxy⟩
      · change ((tcpIn env s seg).writeQueue.map SkBuff.addr).Nodup
        rw [hmap]
        exact hfill.addrs.sublist (List.drop_sublist c _)
      · have hmem : x.addr ∈ (s.writeQueue.map SkBuff.addr).drop c := by
          rw [← hmap]
          exact List.mem_map_of_mem hx
        obtain ⟨y, hy, hxy⟩ := List.mem_map.mp (List.mem_of_mem_drop hmem)
        rw [← hxy]
        exact (hfill.fresh y hy).trans_le haddr
    · rw [heq] at hf
      cases hf
  · rw [hs.queued]
    obtain ⟨ts, heq, hts⟩ := hs.out
    rw [heq] at ht
    rcases List.mem_append.mp ht with ht | ht
    · exact h.parity t ht
    · refine parityOf_of_tag fun j n => ?_
      rcases hts t ht with hnone | ⟨y, hy, hty⟩
      · rw [hnone]
        simp
      · rw [hty]
        exact h.tags y hy j n

/-! ## Runs -/

/-- Every acknowledgement of the run leaves the sources in the queue. -/
def AllKept (env : Env) : TcpSock → List FlowEvent → Prop
  | _, [] => True
  | s, e :: es => SourcesKept env s e ∧ AllKept env (flowStep env s e) es

instance decidableAllKept (env : Env) : ∀ s events, Decidable (AllKept env s events)
  | _, [] => .isTrue trivial
  | s, e :: es =>
    have := decidableAllKept env (flowStep env s e) es
    inferInstanceAs (Decidable (SourcesKept env s e ∧ AllKept env (flowStep env s e) es))

theorem AliveInv.codedSteps {s' : TcpSock} (h : AliveInv r symLen s.txv)
    (hs : ReflTransGen (CodedStep env fun _ _ => True) s s') : AliveInv r symLen s'.txv := by
  induction hs with
  | refl => exact h
  | tail _ hstep ih =>
    cases hstep with
    | emit hfec _ hpos hem => exact ih.emit hfec hpos hem
    | queue hfec _ _ _ hle => exact ih.queue hfec hle

theorem AliveInv.plainPieces (pieces : List (List UInt8 × Bool)) {s : TcpSock}
    (h : AliveInv r symLen s.txv) (hfec : s.fec = none) :
    AliveInv r symLen (pieces.foldl (tcpSendPiece env) s).txv := by
  induction pieces generalizing s with
  | nil => exact h
  | cons piece pieces ih =>
    have htx : ∀ f, s.txv.snd.tx ≠ some f := by
      rw [(TcpSock.tx_none_iff s).mpr hfec]
      simp
    have hqueue := @AliveInv.queuePlain r symLen env { s with nextAddr := s.nextAddr + 1 }
      ⟨h.tags, fun f hf => absurd hf (htx f), h.parity⟩ hfec (plainBuf s.nextAddr piece) rfl
    have hfec' : (tcpQueueTransmitSkb env { s with nextAddr := s.nextAddr + 1 }
        (plainBuf s.nextAddr piece)).1.fec = none :=
      (congrArg RcvView.fec (rcv_tcpQueueTransmitSkb env _ _)).trans hfec
    rw [List.foldl_cons, tcpSendPiece_plain env hfec]
    unfold tcpFecEmitFull
    rw [hfec']
    exact ih hqueue hfec'

theorem AliveInv.write (h : AliveInv r symLen s.txv) (buf : List UInt8) :
    AliveInv r symLen (tcpSend env s buf).txv := by
  unfold tcpSend
  rw [txv_tcpRearmUserTimeout]
  cases hfec : s.fec with
  | none => exact h.plainPieces _ hfec
  | some fec =>
    have hmss : tcpSendMss s = fec.symLen := by
      unfold tcpSendMss
      rw [hfec]
    have henc := (h.filling_of hfec).1.enc
    rw [hmss]
    exact h.codedSteps (codedSteps_pieces (fun _ _ _ _ _ _ _ => trivial) hfec henc
      (piecesMeet_true env _ s) (length_tcpPieces henc.symLen_pos _ _)).1

theorem AliveInv.step (h : AliveInv r symLen s.txv) (hst : s.state.connected) {e : FlowEvent}
    (he : SourcesKept env s e) :
    AliveInv r symLen (flowStep env s e).txv ∧ (flowStep env s e).state.connected := by
  cases e with
  | write buf =>
    simp only [flowStep, tcpWrite_eq]
    split
    · exact ⟨h.write buf, by rwa [state_tcpSend]⟩
    · exact ⟨h, hst⟩
  | arrive seg => exact ⟨h.arrive hst he, (txSteps_tcpIn env hst seg).1⟩

theorem AliveInv.run (events : List FlowEvent) {s : TcpSock} (h : AliveInv r symLen s.txv)
    (hst : s.state.connected) (hall : AllKept env s events) :
    AliveInv r symLen (events.foldl (flowStep env) s).txv := by
  induction events generalizing s with
  | nil => exact h
  | cons e es ih =>
    obtain ⟨h', hst'⟩ := h.step hst hall.1
    exact ih h' hst' hall.2

theorem FreshSender.aliveInv (h : FreshSender s) (hfec : s.fec = some fec)
    (hfresh : FreshFec fec) : AliveInv fec.r fec.symLen s.txv := by
  have hq : s.txv.snd.queued = [] := h.queued
  have hwq : s.txv.snd.writeQueue = [] := h.writeQueue
  have hout : s.txv.out = [] := h.out
  refine ⟨by simp [hwq], fun f hf => ?_, by simp [hout]⟩
  rw [TcpSock.tx_eq hfec, Option.some_inj] at hf
  rw [← hf]
  refine ⟨Filling.tx ⟨hfresh.toEncOk, by simp [hq], ?_, fun _ => ?_, fun i hi => ?_, by simp [hwq],
    by simp [hwq]⟩, rfl, rfl⟩
  · rw [hfresh.filled_eq]
    exact Nat.zero_le _
  · rw [hfresh.filled_eq, hq]
    rfl
  · rw [hfresh.filled_eq] at hi
    exact absurd hi (Nat.not_lt_zero i)

end Preservation

/-- Every buffer that the encoder of the block in progress points into is in the write queue. -/
def SourcesAlive (s : TcpSock) : Prop :=
  ∀ fec ∈ s.fec, ∀ i < fec.txFilled, ∀ addr, fec.enc.src[i]? = some (.skb addr) →
    ∃ x ∈ s.writeQueue, x.addr = addr ∧
      x.tag = some { type := .source, index := i, block := fec.txBlockId }

theorem Filling.sourcesAlive {s : TcpSock} {fec : TcpFec} (h : Filling s.txv fec) {i addr : ℕ}
    (hi : i < fec.txFilled) (hsrc : fec.enc.src[i]? = some (.skb addr)) :
    ∃ x ∈ s.writeQueue, x.addr = addr ∧
      x.tag = some { type := .source, index := i, block := fec.txBlockId } := by
  obtain ⟨y, hy⟩ : ∃ y, (blockOf s.queued fec.txBlockId)[i]? = some y :=
    ⟨_, List.getElem?_eq_getElem (hi.trans_le h.filled)⟩
  obtain ⟨hst, htag, hlive⟩ := h.staged i hi y hy
  rcases hst with ⟨hptr, -⟩ | ⟨hptr, -⟩
  · obtain ⟨x, hx, hxy⟩ := hlive hptr
    rw [hsrc, Option.some_inj, SymPtr.skb.injEq] at hptr
    exact ⟨x, hx, hxy.addr.trans hptr.symm, hxy.tag.trans htag⟩
  · rw [hsrc, Option.some_inj] at hptr
    cases hptr

/-- **The encoder's sources stay alive**, when no acknowledgement covers a buffer of the block in
progress, and then every repair segment carries the parity of the bytes queued for its block. -/
theorem sources_alive (env : Env) (s : TcpSock) (hfresh : FreshSender s) (fec : TcpFec)
    (hfec : s.fec = some fec) (hfec₀ : FreshFec fec) (events : List FlowEvent)
    (hkept : AllKept env s events) :
    let s' := events.foldl (flowStep env) s
    SourcesAlive s' ∧ ∀ t ∈ s'.out, ParityOf fec.r fec.symLen s'.queued t := by
  intro s'
  have hst : s.state.connected := by
    rw [hfresh.state]
    rfl
  have hinv := (hfresh.aliveInv hfec hfec₀).run events hst hkept
  refine ⟨fun fec' hfec' i hi addr hsrc => ?_, hinv.parity⟩
  exact (hinv.filling_of hfec').1.sourcesAlive hi hsrc

/-- A full symbol, an acknowledgement of nothing new, and a short symbol. -/
theorem sources_alive_two :
    let s := [FlowEvent.write (List.replicate 512 0), .arrive (ackSegment 101 false),
      .write [1, 2, 3]].foldl (flowStep quietLink) codedSock
    s.fec.map (fun fec => fec.enc.src) = some [.skb 0, .slot 1] ∧ SourcesAlive s ∧
      ∀ t ∈ s.out, ParityOf 2 512 s.queued t := by
  refine ⟨by decide +kernel, ?_⟩
  exact sources_alive quietLink codedSock freshSender_codedSock tcpFecFresh rfl
    freshFec_tcpFecFresh _ (by decide +kernel)

/-- The acknowledgement of a full symbol frees the buffer while its block is still being filled. -/
theorem not_sourcesAlive_of_acked :
    ¬ SourcesAlive ([FlowEvent.write (List.replicate 512 0), .arrive (ackSegment 613 false)].foldl
      (flowStep quietLink) codedSock) := by
  intro halive
  have hstate : ∃ fec ∈ ([FlowEvent.write (List.replicate 512 0),
      .arrive (ackSegment 613 false)].foldl (flowStep quietLink) codedSock).fec,
      fec.txFilled = 1 ∧ fec.enc.src[0]? = some (.skb 0) := by
    decide +kernel
  have hempty : ([FlowEvent.write (List.replicate 512 0),
      .arrive (ackSegment 613 false)].foldl (flowStep quietLink) codedSock).writeQueue = [] := by
    decide +kernel
  obtain ⟨fec, hfec, hone, hsrc⟩ := hstate
  obtain ⟨x, hx, -⟩ := halive fec hfec 0 (by omega) 0 hsrc
  rw [hempty] at hx
  cases hx

end LvlIp.Tcp
