import LvlIp.Send.Order

/-!
# Segments in flight

The send side changes by moves (`TxMove`). They keep the records of the write queue true (`Flight`):
a buffer that has gone out has done so first at the sequence number recorded in it, one that has not
has no such number, `inflight` counts the first kind, and while a retransmission timer runs they
stand in front.
-/

namespace LvlIp.Tcp

open Relation

/-- The buffer has gone out. -/
def Gone (out : List Transmission) (x : SkBuff) : Prop := ∃ t ∈ out, t.addr = x.addr

instance (out : List Transmission) : DecidablePred (Gone out) := fun x =>
  inferInstanceAs (Decidable (∃ t ∈ out, t.addr = x.addr))

/-- The buffer has gone out for the first time with its payload, at the sequence number recorded in
it. -/
def SentAs (out : List Transmission) (x : SkBuff) : Prop :=
  ∃ t, FirstIn out t ∧ t.addr = x.addr ∧ t.seg.th.seq = x.seq ∧ t.seg.payload = x.payload ∧
    t.seg.th.fin = x.th.fin

/-- The buffer has not gone out. -/
def Waits (out : List Transmission) (x : SkBuff) : Prop := x.seq = 0 ∧ ¬ Gone out x

/-- A buffer that has gone out does not stand behind one that has not. -/
def InFront (out : List Transmission) (q : List SkBuff) : Prop :=
  q.Pairwise fun x y => Gone out y → Gone out x

/-- **The records of the write queue** are true. -/
structure Flight (v : TxView) : Prop where
  sent : ∀ x ∈ v.snd.writeQueue, SentAs v.out x ∨ Waits v.out x
  count : v.snd.writeQueue.countP (fun x => decide (Gone v.out x)) = v.snd.inflight
  front : v.armed →
    (v.snd.inflight ≠ 0 ∨ v.snd.writeQueue = []) ∧ InFront v.out v.snd.writeQueue
  nodup : (v.snd.writeQueue.map SkBuff.addr).Nodup
  queueAddr : ∀ x ∈ v.snd.writeQueue, x.addr < v.nextAddr
  outAddr : ∀ t ∈ v.out, t.addr < v.nextAddr

/-! ## Moves -/

/-- A move of the send side that sends or queues a new segment. -/
inductive SendMove : TxView → TxView → Prop
  | fresh (v : TxView) {t : Transmission} (ht : t.addr = v.nextAddr) :
      SendMove v { v with out := v.out ++ [t], nextAddr := v.nextAddr + 1 }
  | wait (v : TxView) {skb : SkBuff} (hinf : v.snd.inflight ≠ 0) (hseq : skb.seq = 0)
      (haddr : skb.addr = v.nextAddr) :
      SendMove v { v.rearm with snd := v.snd.enqueue skb, nextAddr := v.nextAddr + 1 }
  | now (v : TxView) {skb : SkBuff} {th : Tcphdr} (h0 : v.snd.inflight = 0)
      (haddr : skb.addr = v.nextAddr) (hth : FilledFrom skb.th v.snd.sndNxt th) :
      SendMove v { v.rearm with
        snd := v.snd.sendNow skb ((skb.withHeader th).at v.snd.sndNxt)
        out := v.out ++ [skb.transmission th], nextAddr := v.nextAddr + 1 }
  | other {v v' : TxView} (hq : v'.snd.writeQueue = v.snd.writeQueue)
      (hinf : v'.snd.inflight = v.snd.inflight) (hqueued : v'.snd.queued = v.snd.queued)
      (hout : v'.out = v.out) (hnext : v'.nextAddr = v.nextAddr) (harmed : v'.armed = v.armed) :
      SendMove v v'

/-- A move of the send side. -/
inductive TxMove : TxView → TxView → Prop
  | send {v v' : TxView} (h : SendMove v v') : TxMove v v'
  | clean (v : TxView) (una : UInt32) {armed : Bool}
      (harmed : armed → v.armed ∧ (tcpCleanLoop una v.snd.writeQueue v.snd.inflight).2 ≠ 0) :
      TxMove v { v with
        snd := { v.snd with
          writeQueue := (tcpCleanLoop una v.snd.writeQueue v.snd.inflight).1
          inflight := (tcpCleanLoop una v.snd.writeQueue v.snd.inflight).2 }
        armed }
  | pending (v : TxView) {n : ℕ} {nxt : UInt32} {q : List SkBuff} {ts : List Transmission}
      (h0 : v.snd.inflight = 0) (hpos : 0 < n)
      (h : SendsNext v.snd.sndNxt v.snd.writeQueue n nxt q ts) :
      TxMove v { v with
        snd := { v.snd with sndNxt := nxt, writeQueue := q, inflight := n }
        out := v.out ++ ts, armed := true }
  | resend (v : TxView) {skb : SkBuff} {q : List SkBuff} {seq : UInt32} {th : Tcphdr}
      {armed : Bool} (hq : v.snd.writeQueue = skb :: q) (hgone : Gone v.out skb)
      (hth : FilledFrom skb.th seq th) (harmed : armed → v.armed ∨ q = []) :
      TxMove v { v.retransmit skb q th with armed }
  | disarm (v : TxView) : TxMove v { v with armed := false }

section Transmissions

variable {out : List Transmission} {x y : SkBuff}

theorem SentAs.gone (h : SentAs out x) : Gone out x := by
  obtain ⟨t, ⟨pre, post, rfl, -⟩, haddr, -⟩ := h
  exact ⟨t, List.mem_append_right _ List.mem_cons_self, haddr⟩

theorem gone_append {ts : List Transmission} :
    Gone (out ++ ts) x ↔ Gone out x ∨ Gone ts x := by
  unfold Gone
  simp only [List.mem_append, or_and_right, exists_or]

theorem gone_append_of {ts : List Transmission} (hts : ∀ t ∈ ts, t.addr ≠ x.addr) :
    Gone (out ++ ts) x ↔ Gone out x := by
  rw [gone_append, or_iff_left]
  rintro ⟨t, ht, heq⟩
  exact hts t ht heq

theorem SentAs.append (h : SentAs out x) (ts : List Transmission) : SentAs (out ++ ts) x := by
  obtain ⟨t, ht, hrest⟩ := h
  exact ⟨t, ht.append ts, hrest⟩

theorem SentAs.of_eq (h : SentAs out x) (haddr : y.addr = x.addr) (hseq : y.seq = x.seq)
    (hpayload : y.payload = x.payload) (hfin : y.th.fin = x.th.fin) : SentAs out y := by
  obtain ⟨t, ht, h1, h2, h3, h4⟩ := h
  exact ⟨t, ht, h1.trans haddr.symm, h2.trans hseq.symm, h3.trans hpayload.symm,
    h4.trans hfin.symm⟩

theorem Waits.append (h : Waits out x) {ts : List Transmission} (hts : ∀ t ∈ ts, t.addr ≠ x.addr) :
    Waits (out ++ ts) x :=
  ⟨h.1, fun hgone => h.2 ((gone_append_of hts).mp hgone)⟩

/-- A transmission from a buffer that has not gone out before. -/
theorem firstIn_append {ts : List Transmission} {t : Transmission} (ht : t ∈ ts)
    (hnd : (ts.map Transmission.addr).Nodup) (hout : ∀ u ∈ out, u.addr ≠ t.addr) :
    FirstIn (out ++ ts) t := by
  obtain ⟨pre, post, rfl⟩ := List.append_of_mem ht
  refine ⟨out ++ pre, post, by rw [List.append_assoc], fun u hu => ?_⟩
  rcases List.mem_append.mp hu with hu | hu
  · exact hout u hu
  · rw [List.map_append, List.map_cons, List.nodup_append] at hnd
    exact hnd.2.2 u.addr (List.mem_map_of_mem hu) t.addr List.mem_cons_self

/-- What `tcp_send_next` does to the buffers it sends. -/
theorem SendsNext.sentAs {nxt nxt' : UInt32} {q q' : List SkBuff} {n : ℕ}
    {ts : List Transmission} (h : SendsNext nxt q n nxt' q' ts) :
    ∃ S, q' = S ++ q.drop n ∧ S.length = n ∧ n ≤ q.length ∧
      S.map SkBuff.addr = (q.take n).map SkBuff.addr ∧
      ts.map Transmission.addr = (q.take n).map SkBuff.addr ∧
      ∀ x ∈ S, ∃ t ∈ ts, t.addr = x.addr ∧ t.seg.th.seq = x.seq ∧ t.seg.payload = x.payload ∧
        t.seg.th.fin = x.th.fin := by
  induction h with
  | nil nxt q => exact ⟨[], rfl, rfl, Nat.zero_le _, rfl, rfl, by simp⟩
  | @cons nxt nxt' skb q q' n th ts hth hsends ih =>
    obtain ⟨S, hq', hlen, hle, hS, hts, hsent⟩ := ih
    refine ⟨(skb.withHeader th).at nxt :: S, ?_, ?_, ?_, ?_, ?_, ?_⟩
    · rw [hq', List.drop_succ_cons, List.cons_append]
    · rw [List.length_cons, hlen]
    · rw [List.length_cons]
      omega
    · rw [List.take_succ_cons, List.map_cons, List.map_cons, hS]
      rfl
    · rw [List.take_succ_cons, List.map_cons, List.map_cons, hts]
      rfl
    · intro x hx
      rcases List.mem_cons.mp hx with rfl | hx
      · exact ⟨_, List.mem_cons_self, rfl, hth.seq, rfl, rfl⟩
      · obtain ⟨t, ht, hof⟩ := hsent x hx
        exact ⟨t, List.mem_cons_of_mem _ ht, hof⟩

end Transmissions

/-! ## The records stay true -/

section Flight

variable {v v' : TxView}

theorem Flight.none_gone (h : Flight v) (h0 : v.snd.inflight = 0) {x : SkBuff}
    (hx : x ∈ v.snd.writeQueue) : ¬ Gone v.out x := by
  have hcount := h.count
  rw [h0, List.countP_eq_zero] at hcount
  simpa using hcount x hx

theorem Flight.empty_of_inflight (h : Flight v) (hinf : v.snd.inflight ≠ 0) :
    v.snd.writeQueue ≠ [] := by
  intro hnil
  have hcount := h.count
  rw [hnil, List.countP_nil] at hcount
  exact hinf hcount.symm

/-- While the timer runs the first buffer has gone out. -/
theorem Flight.head_gone (h : Flight v) (harmed : v.armed) {x : SkBuff} {q : List SkBuff}
    (hq : v.snd.writeQueue = x :: q) : Gone v.out x := by
  obtain ⟨hinf, hfront⟩ := h.front harmed
  rw [hq] at hinf hfront
  obtain ⟨y, hy, hgone⟩ : ∃ y ∈ x :: q, Gone v.out y := by
    have hcount := h.count
    rw [hq] at hcount
    have hpos : 0 < (x :: q).countP fun x => decide (Gone v.out x) := by
      rw [hcount]
      exact Nat.pos_of_ne_zero (hinf.resolve_right nofun)
    simpa using List.countP_pos_iff.mp hpos
  rcases List.mem_cons.mp hy with rfl | hy
  · exact hgone
  · exact (List.pairwise_cons.mp hfront).1 y hy hgone

theorem Flight.sentAs_of_gone (h : Flight v) {x : SkBuff} (hx : x ∈ v.snd.writeQueue)
    (hgone : Gone v.out x) : SentAs v.out x :=
  (h.sent x hx).resolve_right fun hwait => hwait.2 hgone

/-- A segment goes out from a new buffer, which is not queued. -/
theorem Flight.fresh (h : Flight v) {t : Transmission} (ht : t.addr = v.nextAddr) :
    Flight { v with out := v.out ++ [t], nextAddr := v.nextAddr + 1 } := by
  have hold : ∀ x ∈ v.snd.writeQueue, ∀ u ∈ [t], u.addr ≠ x.addr := by
    intro x hx u hu
    rw [List.mem_singleton.mp hu, ht]
    exact (h.queueAddr x hx).ne'
  have hgone : ∀ x ∈ v.snd.writeQueue, (Gone (v.out ++ [t]) x ↔ Gone v.out x) :=
    fun x hx => gone_append_of (hold x hx)
  refine ⟨fun x hx => ?_, ?_, fun harmed => ⟨(h.front harmed).1, ?_⟩, h.nodup, fun x hx => ?_,
    fun u hu => ?_⟩
  · rcases h.sent x hx with hs | hw
    · exact .inl (hs.append _)
    · exact .inr (hw.append (hold x hx))
  · rw [← h.count]
    refine List.countP_congr fun x hx => ?_
    simp only [decide_eq_true_eq]
    exact hgone x hx
  · refine (h.front harmed).2.imp_of_mem fun {x y} hx hy himp hg => ?_
    exact (hgone x hx).mpr (himp ((hgone y hy).mp hg))
  · exact (h.queueAddr x hx).trans (Nat.lt_succ_self _)
  · rcases List.mem_append.mp hu with hu | hu
    · exact (h.outAddr u hu).trans (Nat.lt_succ_self _)
    · rw [List.mem_singleton.mp hu, ht]
      exact Nat.lt_succ_self _

/-- **A buffer joins the queue** unsent. -/
theorem Flight.wait (h : Flight v) {skb : SkBuff} (hinf : v.snd.inflight ≠ 0)
    (hseq : skb.seq = 0) (haddr : skb.addr = v.nextAddr) :
    Flight { v.rearm with snd := v.snd.enqueue skb, nextAddr := v.nextAddr + 1 } := by
  have hne := h.empty_of_inflight hinf
  have harm : v.rearm.armed = v.armed := by
    unfold TxView.rearm
    rw [decide_eq_false hne, Bool.or_false]
  have hnew : ¬ Gone v.out skb := by
    rintro ⟨t, ht, heq⟩
    exact (h.outAddr t ht).ne (heq.trans haddr)
  refine ⟨fun x hx => ?_, ?_, fun harmed => ⟨.inl hinf, ?_⟩, ?_, fun x hx => ?_, fun u hu => ?_⟩
  · rcases List.mem_append.mp hx with hx | hx
    · exact h.sent x hx
    · rw [List.mem_singleton.mp hx]
      exact .inr ⟨hseq, hnew⟩
  · change (v.snd.writeQueue ++ [skb]).countP _ = v.snd.inflight
    have hgone : ¬ Gone v.rearm.out skb := hnew
    rw [List.countP_append, ← h.count, List.countP_singleton, if_neg (by simpa using hgone)]
    rfl
  · have hold : v.armed := harm ▸ harmed
    refine List.pairwise_append.mpr ⟨(h.front hold).2, List.pairwise_singleton _ _, ?_⟩
    intro x _ y hy hg
    rw [List.mem_singleton.mp hy] at hg
    exact absurd hg hnew
  · change ((v.snd.writeQueue ++ [skb]).map SkBuff.addr).Nodup
    rw [List.map_append, List.nodup_append]
    refine ⟨h.nodup, List.nodup_singleton _, fun a ha b hb => ?_⟩
    obtain ⟨x, hx, rfl⟩ := List.mem_map.mp ha
    rw [List.mem_singleton.mp hb, haddr]
    exact (h.queueAddr x hx).ne
  · rcases List.mem_append.mp hx with hx | hx
    · exact (h.queueAddr x hx).trans (Nat.lt_succ_self _)
    · rw [List.mem_singleton.mp hx, haddr]
      exact Nat.lt_succ_self _
  · exact (h.outAddr u hu).trans (Nat.lt_succ_self _)

/-- **A buffer goes out at once** and joins the queue. -/
theorem Flight.now (h : Flight v) {skb : SkBuff} {th : Tcphdr} (h0 : v.snd.inflight = 0)
    (haddr : skb.addr = v.nextAddr) (hth : FilledFrom skb.th v.snd.sndNxt th) :
    Flight { v.rearm with
      snd := v.snd.sendNow skb ((skb.withHeader th).at v.snd.sndNxt)
      out := v.out ++ [skb.transmission th], nextAddr := v.nextAddr + 1 } := by
  have hold : ∀ x ∈ v.snd.writeQueue, ∀ u ∈ [skb.transmission th], u.addr ≠ x.addr := by
    intro x hx u hu
    rw [List.mem_singleton.mp hu]
    exact haddr.trans_ne (h.queueAddr x hx).ne'
  have hnone : ∀ x ∈ v.snd.writeQueue, ¬ Gone (v.out ++ [skb.transmission th]) x :=
    fun x hx hg => h.none_gone h0 hx ((gone_append_of (hold x hx)).mp hg)
  have hsent : SentAs (v.out ++ [skb.transmission th]) ((skb.withHeader th).at v.snd.sndNxt) := by
    refine ⟨skb.transmission th, ⟨v.out, [], rfl, fun u hu => ?_⟩, rfl, hth.seq, rfl, rfl⟩
    exact (h.outAddr u hu).trans_eq haddr.symm |>.ne
  refine ⟨fun x hx => ?_, ?_, fun harmed => ⟨.inl (Nat.succ_ne_zero _), ?_⟩, ?_, fun x hx => ?_,
    fun u hu => ?_⟩
  · rcases List.mem_append.mp hx with hx | hx
    · have hwait := (h.sent x hx).resolve_left fun hs => h.none_gone h0 hx hs.gone
      exact .inr (hwait.append (hold x hx))
    · rw [List.mem_singleton.mp hx]
      exact .inl hsent
  · change (v.snd.writeQueue ++ [(skb.withHeader th).at v.snd.sndNxt]).countP _ = _ + 1
    rw [List.countP_append, List.countP_singleton, if_pos (decide_eq_true hsent.gone), h0,
      List.countP_eq_zero.mpr fun x hx => by simpa using hnone x hx]
  · -- with something in the queue and nothing in flight the timer does not run
    have hnil : v.snd.writeQueue = [] := by
      unfold TxView.rearm at harmed
      rw [Bool.or_eq_true, decide_eq_true_eq] at harmed
      rcases harmed with ha | hnil
      · exact (h.front ha).1.resolve_left (not_not.mpr h0)
      · exact hnil
    change InFront _ (v.snd.writeQueue ++ _)
    rw [hnil]
    exact List.pairwise_singleton _ _
  · change ((v.snd.writeQueue ++ [(skb.withHeader th).at v.snd.sndNxt]).map SkBuff.addr).Nodup
    rw [List.map_append, List.nodup_append]
    refine ⟨h.nodup, List.nodup_singleton _, fun a ha b hb => ?_⟩
    obtain ⟨x, hx, rfl⟩ := List.mem_map.mp ha
    rw [List.mem_singleton.mp hb]
    exact ((h.queueAddr x hx).trans_eq haddr.symm).ne
  · rcases List.mem_append.mp hx with hx | hx
    · exact (h.queueAddr x hx).trans (Nat.lt_succ_self _)
    · rw [List.mem_singleton.mp hx]
      exact haddr.trans_lt (Nat.lt_succ_self _)
  · rcases List.mem_append.mp hu with hu | hu
    · exact (h.outAddr u hu).trans (Nat.lt_succ_self _)
    · rw [List.mem_singleton.mp hu]
      exact haddr.trans_lt (Nat.lt_succ_self _)

/-- **Acknowledged buffers** leave the queue; only those that have gone out do. -/
theorem Flight.clean (h : Flight v) (una : UInt32) {armed : Bool}
    (harmed : armed → v.armed ∧ (tcpCleanLoop una v.snd.writeQueue v.snd.inflight).2 ≠ 0) :
    Flight { v with
      snd := { v.snd with
        writeQueue := (tcpCleanLoop una v.snd.writeQueue v.snd.inflight).1
        inflight := (tcpCleanLoop una v.snd.writeQueue v.snd.inflight).2 }
      armed } := by
  obtain ⟨c, hc, heq, hall, -⟩ := tcpCleanLoop_spec una v.snd.writeQueue v.snd.inflight
  have hgone : ∀ x ∈ v.snd.writeQueue.take c, Gone v.out x := by
    intro x hx
    obtain ⟨i, hi⟩ := List.mem_iff_getElem?.mp hx
    rw [List.getElem?_take] at hi
    split at hi
    · next hlt =>
      have hpos := (hall i hlt x hi).1
      refine ((h.sent x (List.mem_of_getElem? hi)).resolve_right fun hw => ?_).gone
      rw [hw.1] at hpos
      exact UInt32.lt_irrefl _ hpos
    · cases hi
  have hcount : (v.snd.writeQueue.drop c).countP (fun x => decide (Gone v.out x)) =
      v.snd.inflight - c := by
    have htake : (v.snd.writeQueue.take c).countP (fun x => decide (Gone v.out x)) = c := by
      rw [List.countP_eq_length.mpr fun x hx => by simpa using hgone x hx, List.length_take,
        Nat.min_eq_left hc]
    rw [← h.count]
    conv_rhs => rw [← List.take_append_drop c v.snd.writeQueue]
    rw [List.countP_append, htake, Nat.add_sub_cancel_left]
  rw [heq] at harmed ⊢
  refine ⟨fun x hx => h.sent x (List.mem_of_mem_drop hx), hcount, fun ha => ?_, ?_,
    fun x hx => h.queueAddr x (List.mem_of_mem_drop hx), h.outAddr⟩
  · exact ⟨.inl (harmed ha).2, (h.front (harmed ha).1).2.sublist (List.drop_sublist _ _)⟩
  · change ((v.snd.writeQueue.drop c).map SkBuff.addr).Nodup
    rw [List.map_drop]
    exact h.nodup.drop

/-- **Pending buffers go out** when nothing is in flight. -/
theorem Flight.pending (h : Flight v) (h0 : v.snd.inflight = 0) {n : ℕ} (hpos : 0 < n)
    {nxt : UInt32} {q : List SkBuff} {ts : List Transmission}
    (hsends : SendsNext v.snd.sndNxt v.snd.writeQueue n nxt q ts) :
    Flight { v with
      snd := { v.snd with sndNxt := nxt, writeQueue := q, inflight := n }
      out := v.out ++ ts, armed := true } := by
  obtain ⟨S, hq, hlen, hle, hS, hts, hsent⟩ := hsends.sentAs
  have hnd := h.nodup
  have hndts : (ts.map Transmission.addr).Nodup := by
    rw [hts, List.map_take]
    exact hnd.take
  have hall : q.map SkBuff.addr = v.snd.writeQueue.map SkBuff.addr := by
    rw [hq, List.map_append, hS, ← List.map_append, List.take_append_drop]
  have hfrom : ∀ t ∈ ts, ∃ x ∈ v.snd.writeQueue.take n, x.addr = t.addr := by
    intro t ht
    exact List.mem_map.mp (hts ▸ List.mem_map_of_mem ht)
  have hSsent : ∀ x ∈ S, SentAs (v.out ++ ts) x := by
    intro x hx
    obtain ⟨t, ht, haddr, hrest⟩ := hsent x hx
    obtain ⟨y, hy, hyt⟩ := hfrom t ht
    refine ⟨t, firstIn_append ht hndts fun u hu heq => ?_, haddr, hrest⟩
    exact h.none_gone h0 (List.mem_of_mem_take hy) ⟨u, hu, heq.trans hyt.symm⟩
  have hUwait : ∀ x ∈ v.snd.writeQueue.drop n, Waits (v.out ++ ts) x := by
    intro x hx
    have hmem := List.mem_of_mem_drop hx
    refine Waits.append ((h.sent x hmem).resolve_left fun hs => h.none_gone h0 hmem hs.gone) ?_
    intro t ht heq
    obtain ⟨y, hy, hyt⟩ := hfrom t ht
    rw [← List.take_append_drop n v.snd.writeQueue, List.map_append, List.nodup_append] at hnd
    exact hnd.2.2 _ (List.mem_map_of_mem hy) _ (List.mem_map_of_mem hx) (hyt.trans heq)
  refine ⟨fun x hx => ?_, ?_, fun _ => ⟨.inl hpos.ne', ?_⟩, ?_, fun x hx => ?_, fun u hu => ?_⟩
  · change x ∈ q at hx
    rw [hq] at hx
    rcases List.mem_append.mp hx with hx | hx
    · exact .inl (hSsent x hx)
    · exact .inr (hUwait x hx)
  · change q.countP _ = n
    rw [hq, List.countP_append, List.countP_eq_length.mpr fun x hx => decide_eq_true (hSsent x hx).gone,
      List.countP_eq_zero.mpr fun x hx => by simpa using (hUwait x hx).2, hlen, Nat.add_zero]
  · change InFront (v.out ++ ts) q
    rw [hq]
    refine List.pairwise_append.mpr ⟨?_, ?_, fun x hx _ _ _ => (hSsent x hx).gone⟩
    · exact List.pairwise_of_forall_mem_list fun x hx _ _ _ => (hSsent x hx).gone
    · exact List.pairwise_of_forall_mem_list fun _ _ y hy hg => absurd hg (hUwait y hy).2
  · change (q.map SkBuff.addr).Nodup
    rwa [hall]
  · have hmem : x.addr ∈ v.snd.writeQueue.map SkBuff.addr := hall ▸ List.mem_map_of_mem hx
    obtain ⟨y, hy, heq⟩ := List.mem_map.mp hmem
    rw [← heq]
    exact h.queueAddr y hy
  · rcases List.mem_append.mp hu with hu | hu
    · exact h.outAddr u hu
    · obtain ⟨y, hy, heq⟩ := hfrom u hu
      rw [← heq]
      exact h.queueAddr y (List.mem_of_mem_take hy)

/-- **The first buffer goes out again.** -/
theorem Flight.resend (h : Flight v) {skb : SkBuff} {q : List SkBuff} {th : Tcphdr} {seq : UInt32}
    {armed : Bool} (hq : v.snd.writeQueue = skb :: q) (hhead : Gone v.out skb)
    (hth : FilledFrom skb.th seq th) (harmed : armed → v.armed ∨ q = []) :
    Flight { v.retransmit skb q th with armed } := by
  have hnd := h.nodup
  rw [hq, List.map_cons, List.nodup_cons] at hnd
  have hmem : ∀ x ∈ q, x ∈ v.snd.writeQueue := fun x hx => hq ▸ List.mem_cons_of_mem _ hx
  have hskb : skb ∈ v.snd.writeQueue := hq ▸ List.mem_cons_self
  have hold : ∀ x ∈ q, ∀ u ∈ [skb.transmission th], u.addr ≠ x.addr := by
    intro x hx u hu heq
    rw [List.mem_singleton.mp hu] at heq
    exact hnd.1 (List.mem_map.mpr ⟨x, hx, heq.symm⟩)
  have hgone : ∀ x ∈ q, (Gone (v.out ++ [skb.transmission th]) x ↔ Gone v.out x) :=
    fun x hx => gone_append_of (hold x hx)
  have hsent : SentAs (v.out ++ [skb.transmission th]) (skb.withHeader th) :=
    ((h.sentAs_of_gone hskb hhead).append _).of_eq rfl rfl rfl hth.fin
  have hinf : v.snd.inflight ≠ 0 := fun h0 => h.none_gone h0 hskb hhead
  refine ⟨fun x hx => ?_, ?_, fun ha => ⟨.inl hinf, ?_⟩, ?_, fun x hx => ?_, fun u hu => ?_⟩
  · rcases List.mem_cons.mp hx with rfl | hx
    · exact .inl hsent
    · rcases h.sent x (hmem x hx) with hs | hw
      · exact .inl (hs.append _)
      · exact .inr (hw.append (hold x hx))
  · change (skb.withHeader th :: q).countP _ = v.snd.inflight
    rw [← h.count, hq, List.countP_cons_of_pos (by exact decide_eq_true hsent.gone),
      List.countP_cons_of_pos (by exact decide_eq_true hhead)]
    refine congrArg (· + 1) (List.countP_congr fun x hx => ?_)
    simp only [decide_eq_true_eq]
    exact hgone x hx
  · refine List.pairwise_cons.mpr ⟨fun _ _ _ => hsent.gone, ?_⟩
    rcases harmed ha with ha | rfl
    · have hfront := (h.front ha).2
      unfold InFront at hfront
      rw [hq, List.pairwise_cons] at hfront
      refine hfront.2.imp_of_mem fun {x y} hx hy himp hg => ?_
      exact (hgone x hx).mpr (himp ((hgone y hy).mp hg))
    · exact .nil
  · exact List.nodup_cons.mpr hnd
  · rcases List.mem_cons.mp hx with rfl | hx
    · exact h.queueAddr skb hskb
    · exact h.queueAddr x (hmem x hx)
  · rcases List.mem_append.mp hu with hu | hu
    · exact h.outAddr u hu
    · rw [List.mem_singleton.mp hu]
      exact h.queueAddr skb hskb

theorem Flight.send (h : Flight v) (hm : SendMove v v') : Flight v' := by
  cases hm with
  | fresh ht => exact h.fresh ht
  | wait hinf hseq haddr => exact h.wait hinf hseq haddr
  | now h0 haddr hth => exact h.now h0 haddr hth
  | other hq hinf _ hout hnext harmed =>
    constructor
    · rw [hq, hout]
      exact h.sent
    · rw [hq, hout, hinf]
      exact h.count
    · rw [hq, hout, hinf, harmed]
      exact h.front
    · rw [hq]
      exact h.nodup
    · rw [hq, hnext]
      exact h.queueAddr
    · rw [hout, hnext]
      exact h.outAddr

/-- **Every move keeps the records true.** -/
theorem Flight.move (h : Flight v) (hm : TxMove v v') : Flight v' := by
  cases hm with
  | send hs => exact h.send hs
  | clean una harmed => exact h.clean una harmed
  | pending h0 hpos hsends => exact h.pending h0 hpos hsends
  | resend hq hgone hth harmed => exact h.resend hq hgone hth harmed
  | disarm => exact ⟨h.sent, h.count, fun ha => (nomatch ha), h.nodup, h.queueAddr, h.outAddr⟩

theorem Flight.moves (h : Flight v) (hm : ReflTransGen TxMove v v') : Flight v' := by
  induction hm with
  | refl => exact h
  | tail _ hmove ih => exact ih.move hmove

end Flight

end LvlIp.Tcp
