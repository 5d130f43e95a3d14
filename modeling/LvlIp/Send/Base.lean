import LvlIp.Send.Layout

/-!
# The base sequence number of a block

`tcp_send` pins the base of a block at `snd_nxt` when it queues the first symbol, and the symbol
gets its sequence number when it goes out. The two agree when nothing waits unsent at that moment.

* `BaseInv`: what a repair segment says about the first symbol of its block, kept by every step.
* `repairs_baseSeq`: what it gives for runs of writes and arrivals.
-/

namespace LvlIp.Tcp

open Fec Foundations Relation

/-- The transmission is a repair segment. -/
def IsRepair (t : Transmission) : Prop :=
  ∃ j n, t.tag = some { type := .repair, index := j, block := n }

/-- The buffer at position `p` is the first symbol of block `n`. -/
def FirstSymbol (queued : List SkBuff) (p n : ℕ) : Prop :=
  ∃ y, queued[p]? = some y ∧ y.tag = some { type := .source, index := 0, block := n }

/-- The current block is `n`, or comes after it. -/
def TcpFec.Started (fec : TcpFec) (n : ℕ) : Prop :=
  n < fec.txBlockId ∨ n = fec.txBlockId ∧ 0 < fec.txFilled

/-- The first symbols of the blocks, and what the repair segments and the current block say about
their sequence numbers. -/
structure BaseInv (base : UInt32) (v : TxView) : Prop where
  send : SendInv IsRepair base v
  tags : ∀ x ∈ v.snd.writeQueue, ∀ j n, x.tag ≠ some { type := .repair, index := j, block := n }
  enc : ∀ fec, v.snd.tx = some fec → EncOk fec
  first : ∀ fec, v.snd.tx = some fec → ∀ p n, FirstSymbol v.snd.queued p n → fec.Started n ∧
    (n = fec.txBlockId → fec.txBaseSeq = seqAt base (queuedOff v.snd.queued p))
  started : ∀ fec, v.snd.tx = some fec → ∀ t ∈ v.out, ∀ j n,
    t.tag = some { type := .repair, index := j, block := n } → fec.Started n
  repairs : ∀ t ∈ v.out, ∀ j n, t.tag = some { type := .repair, index := j, block := n } →
    ∀ p, FirstSymbol v.snd.queued p n →
      (FecRepairHdr.read t.seg.payload).baseSeq = seqAt base (queuedOff v.snd.queued p)

section Preservation

variable {base : UInt32} {v v' : TxView} {env : Env}

/-- **Arrivals keep the invariant**: nothing is queued, and no repair segment goes out. -/
theorem BaseInv.steps (h : BaseInv base v) (hs : ReflTransGen TxStep v v') : BaseInv base v' := by
  have hsend := h.send.steps hs
  have hsending := sending_of_steps hs
  have htx : ∀ fec, v'.snd.tx = some fec → v.snd.tx = some fec := by
    intro fec hfec
    rcases hsending.tx with heq | heq
    · exact heq ▸ hfec
    · rw [heq] at hfec
      cases hfec
  have hold : ∀ t ∈ v'.out, ∀ j n, t.tag = some { type := .repair, index := j, block := n } →
      t ∈ v.out := by
    intro t ht j n htag
    obtain ⟨ts, heq, hts⟩ := hsending.out
    rw [heq] at ht
    rcases List.mem_append.mp ht with ht | ht
    · exact ht
    · rcases hts t ht with hnone | ⟨y, hy, hty⟩
      · rw [hnone] at htag
        cases htag
      · exact absurd (hty.symm.trans htag) (h.tags y hy j n)
  refine ⟨hsend.1, fun x hx j n => ?_, fun fec hfec => h.enc fec (htx fec hfec), ?_, ?_, ?_⟩
  · obtain ⟨y, hy, hxy⟩ := hsending.writeQueue x hx
    rw [hxy]
    exact h.tags y hy j n
  · intro fec hfec p n hp
    rw [hsending.queued] at hp ⊢
    exact h.first fec (htx fec hfec) p n hp
  · exact fun fec hfec t ht j n htag =>
      h.started fec (htx fec hfec) t (hold t ht j n htag) j n htag
  · intro t ht j n htag p hp
    rw [hsending.queued] at hp ⊢
    exact h.repairs t (hold t ht j n htag) j n htag p hp

/-- **Emitting the current block**: the repair segments carry its base. -/
theorem BaseInv.emit {s s' : TcpSock} {fec : TcpFec} (h : BaseInv base s.txv)
    (hfec : s.fec = some fec) (hpos : 0 < fec.txFilled) {ps : List Packet}
    {ts : List Transmission} (hem : Emission env s fec s' ps ts) : BaseInv base s'.txv := by
  have htx := TcpSock.tx_eq hfec
  have hnew : ∀ t ∈ ts, (∃ j, t.tag = some { type := .repair, index := j, block := fec.txBlockId }) ∧
      (FecRepairHdr.read t.seg.payload).baseSeq = fec.txBaseSeq := by
    intro t ht
    obtain ⟨i, hi⟩ := List.mem_iff_getElem?.mp ht
    obtain ⟨p, -, hof⟩ := hem.repairs i t hi
    refine ⟨⟨i, hof.tag⟩, ?_⟩
    rw [hof.payload, read_write]
    rfl
  have hnext : ∀ n, fec.Started n → TcpFec.Started
      (if s.linkTakes env fec.r then fec.nextBlock else fec) n := by
    intro n hn
    split
    · refine .inl ?_
      change n < fec.txBlockId + 1
      rcases hn with hn | hn <;> omega
    · exact hn
  have hq : s'.txv.snd.queued = s.txv.snd.queued := by
    rw [hem.sock]
    rfl
  have hout : s'.txv.out = s.txv.out ++ ts := by
    rw [hem.sock]
    rfl
  have hwq : s'.txv.snd.writeQueue = s.txv.snd.writeQueue := by
    rw [hem.sock]
    rfl
  have htx' : s'.txv.snd.tx =
      some (TcpFec.tx (if s.linkTakes env fec.r then fec.nextBlock else fec)) := by
    rw [hem.sock]
    rfl
  refine ⟨?_, ?_, ?_, ?_, ?_, ?_⟩
  · obtain ⟨a, b, hqueue, hsent, huna⟩ := h.send
    rw [hem.sock]
    refine ⟨a, b, { hqueue with }, hsent.emit rfl rfl fun t ht _ => ?_, huna⟩
    obtain ⟨⟨j, htag⟩, -⟩ := hnew t ht
    exact .inl (.inr ⟨j, _, htag⟩)
  · rw [hwq]
    exact h.tags
  · intro f hf
    rw [htx', Option.some_inj] at hf
    rw [← hf]
    have henc : EncOk fec := { h.enc fec.tx htx with }
    split
    · exact henc.nextBlock.tx
    · exact henc.tx
  · intro f hf p n hp
    rw [htx', Option.some_inj] at hf
    rw [hq] at hp ⊢
    rw [← hf]
    obtain ⟨hst, hbase⟩ := h.first fec.tx htx p n hp
    refine ⟨hnext n hst, ?_⟩
    split
    · intro hn
      change n = fec.txBlockId + 1 at hn
      have hle : n ≤ fec.txBlockId := by
        rcases hst with hlt | ⟨heq, -⟩
        · exact hlt.le
        · exact heq.le
      omega
    · exact hbase
  · intro f hf t ht j n htag
    rw [htx', Option.some_inj] at hf
    rw [hout] at ht
    rw [← hf]
    refine hnext n ?_
    rcases List.mem_append.mp ht with ht | ht
    · exact h.started fec.tx htx t ht j n htag
    · obtain ⟨⟨i, hi⟩, -⟩ := hnew t ht
      rw [hi, Option.some_inj, FecTag.mk.injEq] at htag
      exact .inr ⟨htag.2.2.symm, hpos⟩
  · intro t ht j n htag p hp
    rw [hout] at ht
    rw [hq] at hp ⊢
    rcases List.mem_append.mp ht with ht | ht
    · exact h.repairs t ht j n htag p hp
    · obtain ⟨⟨i, hi⟩, hb⟩ := hnew t ht
      rw [hi, Option.some_inj, FecTag.mk.injEq] at htag
      rw [hb]
      exact (h.first fec.tx htx p n hp).2 htag.2.2.symm

theorem FirstSymbol.of_append {queued : List SkBuff} {y : SkBuff} {p n : ℕ}
    (h : FirstSymbol (queued ++ [y]) p n) : FirstSymbol queued p n ∧ p < queued.length ∨
      p = queued.length ∧ y.tag = some { type := .source, index := 0, block := n } := by
  obtain ⟨x, hx, htag⟩ := h
  rw [List.getElem?_append] at hx
  split at hx
  · next hp => exact .inl ⟨⟨x, hx, htag⟩, hp⟩
  · next hp =>
    obtain ⟨hz, hxy⟩ : p - queued.length = 0 ∧ y = x := by
      have := (List.getElem?_eq_some_iff.mp hx).1
      have hz : p - queued.length = 0 := by simpa using this
      rw [hz, List.getElem?_cons_zero, Option.some_inj] at hx
      exact ⟨hz, hx⟩
    exact .inr ⟨by omega, hxy ▸ htag⟩

/-- What goes out with a buffer has its tag, so a repair segment was sent before. -/
theorem mem_of_repair_append {out ts : List Transmission} {y : SkBuff}
    (hts : ∀ t ∈ ts, t.tag = y.tag)
    (hytag : ∀ j n, y.tag ≠ some { type := .repair, index := j, block := n }) {t : Transmission}
    (ht : t ∈ out ++ ts) {j n : ℕ}
    (htag : t.tag = some { type := .repair, index := j, block := n }) : t ∈ out := by
  rcases List.mem_append.mp ht with ht | ht
  · exact ht
  · exact absurd ((hts t ht).symm.trans htag) (hytag j n)

/-- The write queue keeps its tags. -/
theorem BaseInv.tags_append (h : BaseInv base v) {y : SkBuff}
    (hytag : ∀ j n, y.tag ≠ some { type := .repair, index := j, block := n }) :
    ∀ x ∈ v.snd.writeQueue ++ [y], ∀ j n,
      x.tag ≠ some { type := .repair, index := j, block := n } := by
  intro x hx
  rcases List.mem_append.mp hx with hx | hx
  · exact h.tags x hx
  · rw [List.mem_singleton.mp hx]
    exact hytag

/-- **Queueing a buffer without a tag.** -/
theorem BaseInv.queuePlain {s : TcpSock} (h : BaseInv base s.txv)
    (hwait : s.inflight = 0 → s.writeQueue = []) {skb : SkBuff} (htag : skb.tag = none)
    (hseq : skb.seq = 0) (hfin : skb.th.fin = false) :
    BaseInv base (tcpQueueTransmitSkb env s skb).1.txv := by
  obtain ⟨hsend, -⟩ := @SendInv.queue _ base env _ h.send hwait skb hseq hfin
  obtain ⟨y, hy, hqueued, hwq, ts, hout, hts⟩ := exists_queued env s skb
  have hfec : (tcpQueueTransmitSkb env s skb).1.fec = s.fec :=
    congrArg RcvView.fec (rcv_tcpQueueTransmitSkb env s skb)
  generalize (tcpQueueTransmitSkb env s skb).1 = s' at *
  change s'.txv.snd.queued = s.txv.snd.queued ++ [y] at hqueued
  change s'.txv.snd.writeQueue = s.txv.snd.writeQueue ++ [y] at hwq
  change s'.txv.out = s.txv.out ++ ts at hout
  have hytag : y.tag = none := hy.tag.trans htag
  have htx : s'.txv.snd.tx = s.txv.snd.tx := congrArg (Option.map TcpFec.tx) hfec
  have hnot : ∀ j n, y.tag ≠ some { type := .repair, index := j, block := n } := by
    rw [hytag]
    exact fun j n => (Option.some_ne_none _).symm
  have hold : ∀ t ∈ s'.txv.out, ∀ j n, t.tag = some { type := .repair, index := j, block := n } →
      t ∈ s.txv.out := fun t ht j n =>
    mem_of_repair_append (fun t ht => (hts t ht).trans hy.tag.symm) hnot (hout ▸ ht)
  have hfirst : ∀ p n, FirstSymbol s'.txv.snd.queued p n → FirstSymbol s.txv.snd.queued p n ∧
      queuedOff s'.txv.snd.queued p = queuedOff s.txv.snd.queued p := by
    intro p n hp
    rw [hqueued] at hp ⊢
    rcases hp.of_append with ⟨hp, hlt⟩ | ⟨-, hnone⟩
    · exact ⟨hp, queuedOff_append hlt.le _⟩
    · rw [hytag] at hnone
      cases hnone
  refine ⟨hsend, hwq ▸ h.tags_append hnot, ?_, ?_, ?_, ?_⟩
  · rw [htx]
    exact h.enc
  · intro fec hf p n hp
    obtain ⟨hp', hoff⟩ := hfirst p n hp
    rw [hoff]
    exact h.first fec (htx ▸ hf) p n hp'
  · exact fun fec hf t ht j n htag' =>
      h.started fec (htx ▸ hf) t (hold t ht j n htag') j n htag'
  · intro t ht j n htag' p hp
    obtain ⟨hp', hoff⟩ := hfirst p n hp
    rw [hoff]
    exact h.repairs t (hold t ht j n htag') j n htag' p hp'

/-- The current block after a buffer has been registered. -/
theorem EncOk.register_started {fec : TcpFec} (h : EncOk fec) (nxt : UInt32) (skb : SkBuff) :
    ((fec.pin nxt).register skb).txBlockId = fec.txBlockId ∧
      0 < ((fec.pin nxt).register skb).txFilled ∧
      ((fec.pin nxt).register skb).txBaseSeq = if fec.txFilled = 0 then nxt else fec.txBaseSeq := by
  have hbase : (fec.pin nxt).txBaseSeq = if fec.txFilled = 0 then nxt else fec.txBaseSeq := by
    unfold TcpFec.pin
    split <;> rfl
  rw [← fec.pin_txBlockId nxt, ← hbase]
  have h' := h.pin nxt
  generalize fec.pin nxt = f at h' ⊢
  rcases Nat.lt_or_ge f.txFilled f.k with hlt | hge
  · obtain ⟨ptr, srcBuf, hreg⟩ := h'.exists_register hlt skb
    rw [hreg]
    exact ⟨rfl, Nat.succ_pos _, rfl⟩
  · have hpos : 0 < f.txFilled := h'.k_pos.trans_le hge
    unfold TcpFec.register
    dsimp only
    split <;> split
    · exact ⟨rfl, hpos, rfl⟩
    · exact ⟨rfl, hpos, rfl⟩
    · exact ⟨rfl, Nat.succ_pos _, rfl⟩
    · exact ⟨rfl, Nat.succ_pos _, rfl⟩

/-- Nothing waits unsent, so the next buffer goes to `snd_nxt`. -/
theorem SendInv.sndNxt_eq {R : Transmission → Prop} (h : SendInv R base v)
    (hall : v.snd.writeQueue.length = v.snd.inflight) :
    v.snd.sndNxt = seqAt base (queuedOff v.snd.queued v.snd.queued.length) := by
  obtain ⟨a, b, hq, -, -⟩ := h
  have hlen := hq.length
  have hinf := hq.inflight
  have hle := hq.le
  rw [hq.sndNxt, show b = v.snd.queued.length by omega]

/-- A first symbol after a buffer of the current block has been queued: an old one, or that buffer,
which goes to `snd_nxt`. -/
theorem SendInv.firstSymbol_append {s : TcpSock} {fec : TcpFec} (h : SendInv IsRepair base s.txv)
    (hall : fec.txFilled = 0 → s.writeQueue.length = s.inflight) {y : SkBuff}
    (hytag : y.tag = some { type := .source, index := fec.txFilled, block := fec.txBlockId })
    {p n : ℕ} (hp : FirstSymbol (s.txv.snd.queued ++ [y]) p n) :
    FirstSymbol s.txv.snd.queued p n ∧
        queuedOff (s.txv.snd.queued ++ [y]) p = queuedOff s.txv.snd.queued p ∨
      fec.txFilled = 0 ∧ n = fec.txBlockId ∧
        s.tcb.sndNxt = seqAt base (queuedOff (s.txv.snd.queued ++ [y]) p) := by
  rcases hp.of_append with ⟨hp, hlt⟩ | ⟨rfl, htag⟩
  · exact .inl ⟨hp, queuedOff_append hlt.le _⟩
  · rw [hytag, Option.some_inj, FecTag.mk.injEq] at htag
    refine .inr ⟨htag.2.1, htag.2.2.symm, ?_⟩
    rw [queuedOff_append le_rfl]
    exact h.sndNxt_eq (hall htag.2.1)

/-- The current block now has a symbol. -/
theorem TcpFec.Started.register {fec fec' : TcpFec} (hid : fec'.txBlockId = fec.txBlockId)
    (hpos : 0 < fec'.txFilled) {n : ℕ} (h : fec.Started n) : fec'.Started n := by
  rcases h with hlt | ⟨heq, -⟩
  · exact .inl (hid ▸ hlt)
  · exact .inr ⟨hid ▸ heq, hpos⟩

/-- The current block keeps the base of its first symbol, and a new first symbol gives it `snd_nxt`. -/
theorem BaseInv.first_register {s : TcpSock} {fec fec' : TcpFec} (h : BaseInv base s.txv)
    (hfec : s.fec = some fec) (hid : fec'.txBlockId = fec.txBlockId) (hpos : 0 < fec'.txFilled)
    (hbase : fec'.txBaseSeq = if fec.txFilled = 0 then s.tcb.sndNxt else fec.txBaseSeq) {p n off : ℕ}
    (hp : FirstSymbol s.txv.snd.queued p n ∧ off = queuedOff s.txv.snd.queued p ∨
      fec.txFilled = 0 ∧ n = fec.txBlockId ∧ s.tcb.sndNxt = seqAt base off) :
    fec'.Started n ∧ (n = fec'.txBlockId → fec'.txBaseSeq = seqAt base off) := by
  rcases hp with ⟨hp, rfl⟩ | ⟨h0, hn, hnxt⟩
  · obtain ⟨hst, hb⟩ := h.first fec.tx (TcpSock.tx_eq hfec) p n hp
    refine ⟨TcpFec.Started.register hid hpos hst, fun hn => ?_⟩
    rw [hid] at hn
    rw [hbase, if_neg, ← hb hn]
    · rfl
    · rcases hst with hlt | ⟨-, hne⟩
      · exact absurd hn hlt.ne
      · exact Nat.pos_iff_ne_zero.mp hne
  · exact ⟨.inr ⟨hn.trans hid.symm, hpos⟩, fun _ => by rw [hbase, if_pos h0, hnxt]⟩

/-- The repair segments sent before are right about every first symbol: that of an empty block has
none. -/
theorem BaseInv.repairs_register {s : TcpSock} {fec : TcpFec} (h : BaseInv base s.txv)
    (hfec : s.fec = some fec) {t : Transmission} (ht : t ∈ s.txv.out) {j n : ℕ}
    (htag : t.tag = some { type := .repair, index := j, block := n }) {p off : ℕ}
    (hp : FirstSymbol s.txv.snd.queued p n ∧ off = queuedOff s.txv.snd.queued p ∨
      fec.txFilled = 0 ∧ n = fec.txBlockId ∧ s.tcb.sndNxt = seqAt base off) :
    (FecRepairHdr.read t.seg.payload).baseSeq = seqAt base off := by
  rcases hp with ⟨hp, rfl⟩ | ⟨h0, hn, -⟩
  · exact h.repairs t ht j n htag p hp
  · rcases h.started fec.tx (TcpSock.tx_eq hfec) t ht j n htag with hlt | ⟨-, hne⟩
    · exact absurd hn hlt.ne
    · exact absurd h0 (Nat.pos_iff_ne_zero.mp hne)

/-- **Queueing a buffer of the current block**: the first one is queued where its base says. -/
theorem BaseInv.queue {s : TcpSock} {fec : TcpFec} (h : BaseInv base s.txv)
    (hfec : s.fec = some fec) (hwait : s.inflight = 0 → s.writeQueue = [])
    (hall : fec.txFilled = 0 → s.writeQueue.length = s.inflight) (piece : List UInt8 × Bool) :
    BaseInv base (s.queuedPiece env fec piece).txv := by
  have henc : EncOk fec := { h.enc fec.tx (TcpSock.tx_eq hfec) with }
  have hstaged : SendInv IsRepair base (s.staged fec piece).txv := by
    obtain ⟨a, b, hq, hout, huna⟩ := h.send
    exact ⟨a, b, { hq with }, ⟨hout.sentAll, hout.first⟩, huna⟩
  obtain ⟨hsend, -⟩ := @SendInv.queue _ base env _ hstaged hwait (codedBuf s.nextAddr fec piece)
    rfl rfl
  obtain ⟨y, hy, hqueued, hwq, ts, hout, hts⟩ :=
    exists_queued env (s.staged fec piece) (codedBuf s.nextAddr fec piece)
  have hfec' := fec_queuedPiece env s fec piece
  obtain ⟨hid, hpos, hbase⟩ := henc.register_started s.tcb.sndNxt (codedBuf s.nextAddr fec piece)
  have henc' := (henc.pin s.tcb.sndNxt).register (codedBuf s.nextAddr fec piece)
  change SendInv IsRepair base (s.queuedPiece env fec piece).txv at hsend
  change (s.queuedPiece env fec piece).txv.snd.queued = s.txv.snd.queued ++ [y] at hqueued
  change (s.queuedPiece env fec piece).txv.snd.writeQueue = s.txv.snd.writeQueue ++ [y] at hwq
  change (s.queuedPiece env fec piece).txv.out = s.txv.out ++ ts at hout
  generalize s.queuedPiece env fec piece = s' at *
  generalize (fec.pin s.tcb.sndNxt).register _ = fec' at *
  have hytag : y.tag = some { type := .source, index := fec.txFilled, block := fec.txBlockId } :=
    hy.tag
  have hnot : ∀ j n, y.tag ≠ some { type := .repair, index := j, block := n } := by
    intro j n
    rw [hytag]
    simp
  have hold : ∀ t ∈ s'.txv.out, ∀ j n, t.tag = some { type := .repair, index := j, block := n } →
      t ∈ s.txv.out := fun t ht j n =>
    mem_of_repair_append (fun t ht => (hts t ht).trans hy.tag.symm) hnot (hout ▸ ht)
  have hfirst : ∀ p n, FirstSymbol s'.txv.snd.queued p n → _ := fun p n hp =>
    h.send.firstSymbol_append hall hytag (hqueued ▸ hp)
  rw [← hqueued] at hfirst
  have htx' : ∀ f, s'.txv.snd.tx = some f → f = fec'.tx := by
    intro f hf
    obtain ⟨f', hf', rfl⟩ := TcpSock.exists_fec hf
    rw [hfec', Option.some_inj] at hf'
    rw [hf']
  refine ⟨hsend, hwq ▸ h.tags_append hnot, fun f hf => ?_, fun f hf p n hp => ?_,
    fun f hf t ht j n htag => ?_, fun t ht j n htag p hp => ?_⟩
  · rw [htx' f hf]
    exact henc'.tx
  · rw [htx' f hf]
    exact h.first_register hfec hid hpos hbase (hfirst p n hp)
  · rw [htx' f hf]
    exact TcpFec.Started.register hid hpos
      (h.started fec.tx (TcpSock.tx_eq hfec) t (hold t ht j n htag) j n htag)
  · exact h.repairs_register hfec (hold t ht j n htag) htag (hfirst p n hp)

end Preservation

/-! ## Runs -/

/-- What can happen: a call of `tcp_write`, a segment. -/
inductive FlowEvent
  | write (buf : List UInt8)
  | arrive (seg : Segment)

/-- One step of the sender. -/
def flowStep (env : Env) (s : TcpSock) : FlowEvent → TcpSock
  | .write buf => (tcpWrite env s buf).1
  | .arrive seg => tcpIn env s seg

/-- The next segment starts a block: the current one is empty, or it is full and the link takes
its repair segments now. -/
def TcpSock.startsBlock (env : Env) (s : TcpSock) (fec : TcpFec) : Prop :=
  fec.txFilled = 0 ∨ fec.k ≤ fec.txFilled ∧ s.linkTakes env fec.r

instance (env : Env) (s : TcpSock) (fec : TcpFec) : Decidable (s.startsBlock env fec) :=
  inferInstanceAs (Decidable (fec.txFilled = 0 ∨ fec.k ≤ fec.txFilled ∧ s.linkTakes env fec.r))

/-- A new segment does not overtake segments that wait unsent, and when it starts a block none
waits. -/
def PinOk (env : Env) (s : TcpSock) : Prop :=
  (s.inflight = 0 → s.writeQueue = []) ∧
    ∀ fec ∈ s.fec, s.startsBlock env fec → s.writeQueue.length = s.inflight

instance (env : Env) : DecidablePred (PinOk env) := fun s =>
  inferInstanceAs (Decidable ((s.inflight = 0 → s.writeQueue = []) ∧
    ∀ fec ∈ s.fec, s.startsBlock env fec → s.writeQueue.length = s.inflight))

/-- The segments that the event builds meet the condition. -/
def FlowEvent.Ready (env : Env) (s : TcpSock) : FlowEvent → Prop
  | .write buf => WriteMeets env (PinOk env) s buf
  | .arrive _ => True

instance (env : Env) (s : TcpSock) : DecidablePred (FlowEvent.Ready env s)
  | .write buf => inferInstanceAs (Decidable (WriteMeets env (PinOk env) s buf))
  | .arrive _ => .isTrue trivial

/-- Every segment that the run builds meets the condition. -/
def AllPinned (env : Env) : TcpSock → List FlowEvent → Prop
  | _, [] => True
  | s, e :: es => e.Ready env s ∧ AllPinned env (flowStep env s e) es

instance decidableAllPinned (env : Env) : ∀ s events, Decidable (AllPinned env s events)
  | _, [] => .isTrue trivial
  | s, e :: es =>
    have := decidableAllPinned env (flowStep env s e) es
    inferInstanceAs (Decidable (e.Ready env s ∧ AllPinned env (flowStep env s e) es))

/-- The condition on the state in which a buffer is queued. -/
def PinFree (s : TcpSock) (fec : TcpFec) : Prop :=
  (s.inflight = 0 → s.writeQueue = []) ∧ (fec.txFilled = 0 → s.writeQueue.length = s.inflight)

theorem PinOk.pinFree {env : Env} {s : TcpSock} {fec : TcpFec} (h : PinOk env s)
    (hfec : s.fec = some fec) (henc : EncOk fec) {fec₁ : TcpFec}
    (hfec₁ : (tcpFecForceFlush env s).fec = some fec₁) :
    PinFree (tcpFecForceFlush env s) fec₁ := by
  have hok := h.2 fec hfec
  rcases tcpFecForceFlush_cases hfec henc with ⟨hlt, heq⟩ | ⟨hk, ps, ts, hem⟩
  · rw [heq, hfec, Option.some_inj] at hfec₁
    subst hfec₁
    rw [heq]
    exact ⟨h.1, fun h0 => hok (.inl h0)⟩
  · rw [hem.sock] at hfec₁ ⊢
    refine ⟨h.1, fun h0 => hok (.inr ⟨hk.ge, ?_⟩)⟩
    have hf₁ := Option.some_inj.mp hfec₁
    by_contra hlink
    rw [if_neg hlink] at hf₁
    rw [← hf₁, hk] at h0
    exact henc.k_pos.ne' h0

section Run

variable {base : UInt32} {env : Env}

theorem BaseInv.codedSteps {s s' : TcpSock} (h : BaseInv base s.txv)
    (hs : ReflTransGen (CodedStep env PinFree) s s') : BaseInv base s'.txv := by
  induction hs with
  | refl => exact h
  | tail _ hstep ih =>
    cases hstep with
    | emit hfec _ hpos hem => exact ih.emit hfec hpos hem
    | queue hfec _ hQ hpos hle => exact ih.queue hfec hQ.1 hQ.2 _

theorem BaseInv.plainPieces (pieces : List (List UInt8 × Bool)) {s : TcpSock}
    (h : BaseInv base s.txv) (hfec : s.fec = none) (hmeet : PiecesMeet env (PinOk env) s pieces) :
    BaseInv base (pieces.foldl (tcpSendPiece env) s).txv := by
  induction pieces generalizing s with
  | nil => exact h
  | cons piece pieces ih =>
    obtain ⟨hok, hrest⟩ := hmeet
    have hsend : SendInv IsRepair base (TcpSock.txv { s with nextAddr := s.nextAddr + 1 }) := by
      obtain ⟨a, b, hq, hout, huna⟩ := h.send
      exact ⟨a, b, hq, ⟨hout.sentAll, hout.first⟩, huna⟩
    have hqueue := @BaseInv.queuePlain base env { s with nextAddr := s.nextAddr + 1 }
      ⟨hsend, h.tags, h.enc, h.first, h.started, h.repairs⟩ hok.1 (plainBuf s.nextAddr piece)
      rfl rfl rfl
    have hfec' : (tcpQueueTransmitSkb env { s with nextAddr := s.nextAddr + 1 }
        (plainBuf s.nextAddr piece)).1.fec = none :=
      (congrArg RcvView.fec (rcv_tcpQueueTransmitSkb env _ _)).trans hfec
    have hpiece : tcpSendPiece env s piece = (tcpQueueTransmitSkb env
        { s with nextAddr := s.nextAddr + 1 } (plainBuf s.nextAddr piece)).1 := by
      rw [tcpSendPiece_plain env hfec]
      unfold tcpFecEmitFull
      rw [hfec']
    rw [hpiece] at hrest
    rw [List.foldl_cons, hpiece]
    exact ih hqueue hfec' hrest

theorem BaseInv.write {s : TcpSock} (h : BaseInv base s.txv) {buf : List UInt8}
    (hmeet : PiecesMeet env (PinOk env) s (tcpPieces (tcpSendMss s) buf.length buf)) :
    BaseInv base (tcpSend env s buf).txv := by
  unfold tcpSend
  rw [txv_tcpRearmUserTimeout]
  cases hfec : s.fec with
  | none => exact h.plainPieces _ hfec hmeet
  | some fec =>
    have hmss : tcpSendMss s = fec.symLen := by
      unfold tcpSendMss
      rw [hfec]
    have henc : EncOk fec := { h.enc fec.tx (TcpSock.tx_eq hfec) with }
    rw [hmss] at hmeet ⊢
    exact h.codedSteps (codedSteps_pieces
      (fun s fec hfec henc hok fec₁ hfec₁ => hok.pinFree hfec henc hfec₁) hfec henc hmeet
      (length_tcpPieces henc.symLen_pos _ _)).1

/-- **One step of the sender.** -/
theorem BaseInv.step {s : TcpSock} (h : BaseInv base s.txv) (hst : s.state.connected)
    {e : FlowEvent} (he : e.Ready env s) :
    BaseInv base (flowStep env s e).txv ∧ (flowStep env s e).state.connected := by
  cases e with
  | write buf =>
    simp only [flowStep, tcpWrite_eq]
    split
    · next hok => exact ⟨h.write (he hok), by rwa [state_tcpSend]⟩
    · exact ⟨h, hst⟩
  | arrive seg =>
    have hsteps := txSteps_tcpIn env hst seg
    exact ⟨h.steps hsteps.2, hsteps.1⟩

theorem BaseInv.run (events : List FlowEvent) {s : TcpSock} (h : BaseInv base s.txv)
    (hst : s.state.connected) (hall : AllPinned env s events) :
    BaseInv base (events.foldl (flowStep env) s).txv := by
  induction events generalizing s with
  | nil => exact h
  | cons e es ih =>
    obtain ⟨h', hst'⟩ := h.step hst hall.1
    exact ih h' hst' hall.2

theorem FreshSender.baseInv {s : TcpSock} {fec : TcpFec} (h : FreshSender s)
    (hfec : s.fec = some fec) (henc : EncOk fec) : BaseInv (s.tcb.iss + 1) s.txv := by
  have hq : s.txv.snd.queued = [] := h.queued
  have hwq : s.txv.snd.writeQueue = [] := h.writeQueue
  have hout : s.txv.out = [] := h.out
  have hnone : ∀ p n, ¬ FirstSymbol s.txv.snd.queued p n := by
    rintro p n ⟨y, hy, -⟩
    rw [hq] at hy
    cases hy
  refine ⟨h.sendInv _, by simp [hwq], fun f hf => ?_, fun f _ p n hp => absurd hp (hnone p n),
    by simp [hout], by simp [hout]⟩
  rw [TcpSock.tx_eq hfec, Option.some_inj] at hf
  exact hf ▸ henc.tx

end Run

/-- **Repair headers name the position of their block**: when no segment starts a block while
others wait unsent, and none overtakes waiting ones, the first transmission of a block's first
symbol is at the base that its repair segments carry, whatever the link returns. -/
theorem repairs_baseSeq (env : Env) (s : TcpSock) (hfresh : FreshSender s) (fec : TcpFec)
    (hfec : s.fec = some fec) (hfec₀ : FreshFec fec) (events : List FlowEvent)
    (hready : AllPinned env s events) :
    let s' := events.foldl (flowStep env) s
    ∀ t ∈ s'.out, ∀ j n, t.tag = some { type := .repair, index := j, block := n } →
      ∀ u, FirstIn s'.out u → u.tag = some { type := .source, index := 0, block := n } →
        u.seg.th.seq = (FecRepairHdr.read t.seg.payload).baseSeq := by
  intro s' t ht j n htag u hu hutag
  have hst : s.state.connected := by
    rw [hfresh.state]
    rfl
  have hinv := (hfresh.baseInv hfec hfec₀.toEncOk).run events hst hready
  obtain ⟨a, b, -, hout, -⟩ := hinv.send
  rcases hout.first u hu with (⟨hnone, -⟩ | ⟨i, m, hrep⟩) | ⟨p, y, hy, hof⟩
  · rw [hnone] at hutag
    cases hutag
  · rw [hrep] at hutag
    cases hutag
  · rw [hof.header.seq, hinv.repairs t ht j n htag p ⟨y, hy, hof.tag.symm.trans hutag⟩]

/-! ## A block that waits -/

/-- A full symbol. -/
def fullPiece (last : Bool) : List UInt8 × Bool := (List.replicate 512 0, last)

theorem length_fullPiece {piece : List UInt8 × Bool} (h : piece.1.length = 512) {fec : TcpFec}
    (hlen : fec.symLen = 512) : 0 < piece.1.length ∧ piece.1.length ≤ fec.symLen := by
  omega

/-- The sender after seven symbols of a write. -/
def sevenSock : TcpSock :=
  (List.replicate 7 (fullPiece false)).foldl (tcpSendPiece quietLink) codedSock

/-- Its FEC state. -/
def sevenFec : TcpFec := sevenSock.fec.getD tcpFecFresh

/-- The FEC state with the eighth symbol. -/
def eightFec (last : Bool) : TcpFec :=
  (sevenFec.pin sevenSock.tcb.sndNxt).register
    (codedBuf sevenSock.nextAddr sevenFec (fullPiece last))

/-- The sender after the eighth symbol, which fills the first block. -/
noncomputable def eightSock (last : Bool) : TcpSock :=
  (sevenSock.queuedPiece quietLink sevenFec (fullPiece last)).emitParity quietLink (eightFec last)
    ((eightFec last).parity quietLink (sevenSock.queuedPiece quietLink sevenFec (fullPiece last)))

/-- Full symbols keep the encoder in order. -/
theorem encOk_fullPieces {s : TcpSock} {fec : TcpFec} (hfec : s.fec = some fec) (h : EncOk fec)
    (hlen : fec.symLen = 512) {pieces : List (List UInt8 × Bool)}
    (hpieces : ∀ piece ∈ pieces, piece.1.length = 512) :
    ∃ fec', (pieces.foldl (tcpSendPiece quietLink) s).fec = some fec' ∧ EncOk fec' := by
  exact (@codedSteps_pieces quietLink s fec (fun _ _ => True) (fun _ => True)
    (fun _ _ _ _ _ _ _ => trivial) pieces hfec h (piecesMeet_true quietLink pieces s)
    (fun piece hp => length_fullPiece (hpieces piece hp) hlen)).2

theorem encOk_sevenFec : sevenSock.fec = some sevenFec ∧ EncOk sevenFec ∧
    sevenFec.txFilled + 1 = sevenFec.k ∧ sevenFec.txBlockId = 0 := by
  obtain ⟨fec, hfec, henc⟩ := @encOk_fullPieces codedSock tcpFecFresh rfl
    freshFec_tcpFecFresh.toEncOk rfl (List.replicate 7 (fullPiece false)) (fun piece hp => by
      rw [List.eq_of_mem_replicate hp]
      exact List.length_replicate)
  have hseven : sevenFec = fec := by
    rw [sevenFec, show sevenSock.fec = some fec from hfec]
    rfl
  have hfields : (sevenFec.txFilled, sevenFec.k, sevenFec.txBlockId) = (7, 8, 0) := by
    decide +kernel
  rw [Prod.mk.injEq, Prod.mk.injEq] at hfields
  exact ⟨hseven ▸ hfec, hseven ▸ henc, by omega, hfields.2.2⟩

theorem tcpSendPiece_sevenSock (last : Bool) :
    tcpSendPiece quietLink sevenSock (fullPiece last) = eightSock last :=
  tcpSendPiece_last quietLink encOk_sevenFec.1 encOk_sevenFec.2.1 encOk_sevenFec.2.2.1 _

/-- The sender after nine symbols. -/
noncomputable def nineSock : TcpSock :=
  tcpRearmUserTimeout (tcpSendPiece quietLink (eightSock false) (fullPiece true))

theorem flowStep_nineSock :
    flowStep quietLink codedSock (.write (List.replicate 4608 0)) = nineSock := by
  have hpieces : tcpPieces 512 4608 (List.replicate 4608 0) =
      List.replicate 7 (fullPiece false) ++ [fullPiece false, fullPiece true] := by
    decide +kernel
  rw [flowStep, tcpWrite_eq, if_pos (by decide), tcpSend, show tcpSendMss codedSock = 512 from rfl,
    List.length_replicate, hpieces, List.foldl_append, List.foldl_cons, List.foldl_cons,
    List.foldl_nil]
  change tcpRearmUserTimeout (tcpSendPiece quietLink
    (tcpSendPiece quietLink sevenSock (fullPiece false)) (fullPiece true)) = _
  rw [tcpSendPiece_sevenSock]
  rfl

/-- The sender after nine symbols and three acknowledgements, which let all of them go out. -/
noncomputable def ackedSock : TcpSock :=
  [ackSegment 613 false, ackSegment 2149 false, ackSegment 3685 false].foldl (tcpIn quietLink)
    nineSock

/-- The sender after six more symbols. -/
noncomputable def fifteenSock : TcpSock :=
  (List.replicate 6 (fullPiece false)).foldl (tcpSendPiece quietLink) ackedSock

theorem flowStep_ackedSock :
    flowStep quietLink ackedSock (.write (List.replicate 3584 0)) =
      tcpRearmUserTimeout (tcpSendPiece quietLink fifteenSock (fullPiece true)) := by
  have hpieces : tcpPieces 512 3584 (List.replicate 3584 0) =
      List.replicate 6 (fullPiece false) ++ [fullPiece true] := by
    decide +kernel
  rw [flowStep, tcpWrite_eq, if_pos (by decide +kernel), tcpSend,
    show tcpSendMss ackedSock = 512 by decide +kernel, List.length_replicate, hpieces,
    List.foldl_append, List.foldl_cons, List.foldl_nil, fifteenSock]

theorem encOk_arrivals (env : Env) (segs : List Segment) {s : TcpSock} (hst : s.state.connected)
    (h : ∀ fec ∈ s.fec, EncOk fec) : ∀ fec ∈ (segs.foldl (tcpIn env) s).fec, EncOk fec := by
  induction segs generalizing s with
  | nil => exact h
  | cons seg segs ih =>
    have hsteps := txSteps_tcpIn env hst seg
    refine ih hsteps.1 fun fec hfec => ?_
    have htx := TcpSock.tx_eq hfec
    rcases (sending_of_steps hsteps.2).tx with heq | heq
    · rw [heq] at htx
      obtain ⟨fec', hfec', hfec''⟩ := TcpSock.exists_fec htx
      have henc : EncOk fec.tx := hfec'' ▸ (h fec' hfec').tx
      exact { henc with }
    · rw [heq] at htx
      cases htx

theorem exists_fec_fifteenSock : ∃ fec, fifteenSock.fec = some fec ∧ EncOk fec ∧
    fec.txFilled + 1 = fec.k ∧ fec.txFilled ≠ 0 ∧ fec.txBlockId = 1 ∧ fec.txBaseSeq = 613 := by
  have hnine : ∀ fec ∈ nineSock.fec, EncOk fec := by
    obtain ⟨fec, hfec, henc⟩ := @encOk_fullPieces _ _ encOk_sevenFec.1 encOk_sevenFec.2.1
      (by decide +kernel) [fullPiece false, fullPiece true] (by decide +kernel)
    rw [List.foldl_cons, List.foldl_cons, List.foldl_nil, tcpSendPiece_sevenSock] at hfec
    intro fec' hfec'
    rw [nineSock, fec_tcpRearmUserTimeout, hfec] at hfec'
    exact Option.some_inj.mp hfec' ▸ henc
  have hacked := encOk_arrivals quietLink
    [ackSegment 613 false, ackSegment 2149 false, ackSegment 3685 false] (s := nineSock)
    (by decide +kernel) hnine
  have hsome : ∃ fec, ackedSock.fec = some fec ∧ fec.symLen = 512 := by
    have hlen : ackedSock.fec.map TcpFec.symLen = some 512 := by decide +kernel
    exact Option.map_eq_some_iff.mp hlen
  obtain ⟨fec₁, hfec₁, hlen₁⟩ := hsome
  obtain ⟨fec, hfec, henc⟩ := @encOk_fullPieces _ _ hfec₁ (hacked fec₁ hfec₁) hlen₁
    (List.replicate 6 (fullPiece false)) (fun piece hp => by
      rw [List.eq_of_mem_replicate hp]
      exact List.length_replicate)
  have hfields : fifteenSock.fec.map (fun fec =>
      (fec.txFilled, fec.k, fec.txBlockId, fec.txBaseSeq)) = some (7, 8, 1, 613) := by
    decide +kernel
  rw [show fifteenSock.fec = some fec from hfec, Option.map_some, Option.some_inj, Prod.mk.injEq,
    Prod.mk.injEq, Prod.mk.injEq] at hfields
  exact ⟨fec, hfec, henc, by omega, by omega, hfields.2.2⟩

theorem exists_firstIn_fifteenSock : ∃ u, FirstIn fifteenSock.out u ∧
    u.tag = some { type := .source, index := 0, block := 1 } ∧ u.seg.th.seq = 4197 := by
  have hu : (fifteenSock.out[10]?).map (fun u => (u.tag, u.seg.th.seq,
      decide (∀ x ∈ fifteenSock.out.take 10, x.addr ≠ u.addr))) =
        some (some { type := .source, index := 0, block := 1 }, 4197, true) := by
    decide +kernel
  obtain ⟨u, hget, hfields⟩ := Option.map_eq_some_iff.mp hu
  rw [Prod.mk.injEq, Prod.mk.injEq, decide_eq_true_iff] at hfields
  obtain ⟨hi, hu'⟩ := List.getElem?_eq_some_iff.mp hget
  refine ⟨u, ⟨fifteenSock.out.take 10, fifteenSock.out.drop 11, ?_, hfields.2.2⟩, hfields.1,
    hfields.2.1⟩
  rw [← hu', ← List.drop_eq_getElem_cons hi, List.take_append_drop]

theorem flowSteps_fifteenSock :
    [FlowEvent.write (List.replicate 4608 0), .arrive (ackSegment 613 false),
      .arrive (ackSegment 2149 false), .arrive (ackSegment 3685 false),
      .write (List.replicate 3584 0)].foldl (flowStep quietLink) codedSock =
        tcpRearmUserTimeout (tcpSendPiece quietLink fifteenSock (fullPiece true)) := by
  have hacks : ∀ (s : TcpSock) (w : FlowEvent), [.arrive (ackSegment 613 false),
      .arrive (ackSegment 2149 false), .arrive (ackSegment 3685 false), w].foldl
        (flowStep quietLink) s = flowStep quietLink ([ackSegment 613 false, ackSegment 2149 false,
          ackSegment 3685 false].foldl (tcpIn quietLink) s) w := fun _ _ => rfl
  rw [List.foldl_cons, flowStep_nineSock, hacks]
  exact flowStep_ackedSock

/-- The first symbol of the second block is queued while eight others wait or are in flight. Its
repair segments say that it is at 613, and it goes out at 4197. -/
theorem not_baseSeq_of_waiting :
    let s := [FlowEvent.write (List.replicate 4608 0), .arrive (ackSegment 613 false),
        .arrive (ackSegment 2149 false), .arrive (ackSegment 3685 false),
        .write (List.replicate 3584 0)].foldl (flowStep quietLink) codedSock
    ∃ t ∈ s.out, t.tag = some { type := .repair, index := 0, block := 1 } ∧
      ∃ u, FirstIn s.out u ∧ u.tag = some { type := .source, index := 0, block := 1 } ∧
        u.seg.th.seq ≠ (FecRepairHdr.read t.seg.payload).baseSeq := by
  obtain ⟨fec, hfec, henc, hlast, hne, hid, hbase⟩ := exists_fec_fifteenSock
  obtain ⟨u, hu, hutag, huseq⟩ := exists_firstIn_fifteenSock
  obtain ⟨ts, t, y, p, hout, ht, htag, hpay, -, -⟩ :=
    exists_repair_of_last quietLink hfec henc hlast (fullPiece true)
  have hpin : (fec.pin fifteenSock.tcb.sndNxt).txBaseSeq = 613 := by
    rw [TcpFec.pin, if_neg hne, hbase]
  have hseq : u.seg.th.seq ≠ (FecRepairHdr.read t.seg.payload).baseSeq := by
    rw [huseq, hpay, read_write]
    change (4197 : UInt32) ≠ (fec.pin fifteenSock.tcb.sndNxt).txBaseSeq
    rw [hpin]
    decide
  refine ⟨t, ?_, by rw [htag, hid], u, ?_, hutag, hseq⟩
  · rw [flowSteps_fifteenSock, out_tcpRearmUserTimeout, hout]
    exact List.mem_append_right _ ht
  · rw [flowSteps_fifteenSock, out_tcpRearmUserTimeout, hout]
    exact hu.append ts

/-- The first block of a connection, whose first symbol goes out at once. -/
theorem repairs_baseSeq_eight :
    let s := [FlowEvent.write (List.replicate 4096 0)].foldl (flowStep quietLink) codedSock
    (∃ t ∈ s.out, t.tag = some { type := .repair, index := 0, block := 0 }) ∧
      ∀ t ∈ s.out, ∀ j n, t.tag = some { type := .repair, index := j, block := n } →
        ∀ u, FirstIn s.out u → u.tag = some { type := .source, index := 0, block := n } →
          u.seg.th.seq = (FecRepairHdr.read t.seg.payload).baseSeq := by
  refine ⟨?_, ?_⟩
  · obtain ⟨hfec, henc, hlast, hid⟩ := encOk_sevenFec
    obtain ⟨ts, t, y, p, hout, ht, htag, -, -, -⟩ :=
      exists_repair_of_last quietLink hfec henc hlast (fullPiece true)
    have hpieces : tcpPieces 512 4096 (List.replicate 4096 0) =
        List.replicate 7 (fullPiece false) ++ [fullPiece true] := by
      decide +kernel
    refine ⟨t, ?_, by rw [htag, hid]⟩
    rw [List.foldl_cons, List.foldl_nil, flowStep, tcpWrite_eq, if_pos (by decide), tcpSend,
      show tcpSendMss codedSock = 512 from rfl, List.length_replicate, hpieces, List.foldl_append,
      List.foldl_cons, List.foldl_nil, out_tcpRearmUserTimeout]
    unfold sevenSock at hout
    rw [hout]
    exact List.mem_append_right _ ht
  · exact repairs_baseSeq quietLink codedSock freshSender_codedSock tcpFecFresh rfl
      freshFec_tcpFecFresh _ (by decide +kernel)

end LvlIp.Tcp
