import LvlIp.Handshake.Negotiation
import LvlIp.Send.Moves

/-!
# What a buffer is built with

`tcp_alloc_skb` reserves room for the options of a segment once, and the header length says how much.
`tcp_transmit_skb` fills the header in place, as often as the buffer goes out, and may write the SACK
option there. A buffer in the write queue has no options, or the one of FEC, which is left alone, or it
is the SYN; so what goes out from one buffer has the same options and the same payload each time
(`LaidInv`). Here for what is built and sent; `LvlIp.Send.Alike` has the other events.
-/

namespace LvlIp.Tcp

open Fec

/-! ## Headers -/

/-- The header length covers the options; it is set to five words when there are none. -/
def Tcphdr.Fits (th : Tcphdr) : Prop :=
  th.hl = 0 ∧ th.data = [] ∨ 4 * th.hl = tcpHdrLen + th.data.length ∧ th.hl ≤ 15

/-- Filling in the header leaves the options alone, unless they are those of a SYN. -/
def Tcphdr.Steady (th : Tcphdr) : Prop :=
  th.data = [] ∨ th.data.getD 0 0 = tcpOptFec ∨ th.syn

/-- The largest payload. -/
def payloadMax : ℕ := 65535

/-- A buffer for the write queue. -/
structure SkBuff.Built (x : SkBuff) : Prop where
  fits : x.th.Fits
  steady : x.th.Steady
  size : x.payload.length ≤ payloadMax

/-- A segment that went out with its header filled in. -/
structure Transmission.Fits (t : Transmission) : Prop where
  header : 4 * t.seg.th.hl = tcpHdrLen + t.seg.th.data.length
  hl : t.seg.th.hl ≤ 15
  size : t.seg.payload.length ≤ payloadMax

section Filling

variable (env : Env) (s : TcpSock) (skb : SkBuff) (seq : UInt32)

/-- What `tcp_transmit_skb` makes of the header of a buffer. -/
def tcpFilled : Tcphdr := (tcpFillOptions s (tcpFillHeader s skb seq)).2

theorem hl_tcpFilled : (tcpFilled s skb seq).hl = if skb.th.hl = 0 then tcpDoffset else skb.th.hl := by
  change _ = (tcpFillHeader s skb seq).hl
  unfold tcpFilled tcpFillOptions tcpWriteOptions
  generalize tcpFillHeader s skb seq = th
  split_ifs <;> rfl

/-- The options are written over the room that there is. -/
theorem length_data_tcpFilled : (tcpFilled s skb seq).data.length = skb.th.data.length := by
  unfold tcpFilled tcpFillOptions tcpWriteOptions
  split_ifs
  · rfl
  · rfl
  · dsimp only [tcpFillHeader]
    rw [List.length_append, List.length_take, List.length_drop]
    omega
  · rfl

variable {skb}

theorem Tcphdr.Fits.filled (h : skb.th.Fits) :
    4 * (tcpFilled s skb seq).hl = tcpHdrLen + (tcpFilled s skb seq).data.length ∧
      (tcpFilled s skb seq).hl ≤ 15 := by
  rw [hl_tcpFilled, length_data_tcpFilled]
  rcases h with ⟨h0, hnil⟩ | ⟨heq, hle⟩
  · rw [if_pos h0, hnil]
    decide
  · have hne : skb.th.hl ≠ 0 := by
      intro h0
      rw [h0] at heq
      unfold tcpHdrLen at heq
      omega
    rw [if_neg hne]
    exact ⟨heq, hle⟩

/-- Options that stay. -/
theorem data_tcpFilled (hsteady : skb.th.Steady) (hsyn : skb.th.syn = false) :
    (tcpFilled s skb seq).data = skb.th.data := by
  rcases hsteady with hnil | hcoded | hsyn'
  · rw [hnil]
    refine List.eq_nil_of_length_eq_zero ?_
    rw [length_data_tcpFilled, hnil, List.length_nil]
  · exact (filledFrom_tcpFillOptions s skb seq).coded hcoded
  · rw [hsyn] at hsyn'
    exact Bool.noConfusion hsyn'

end Filling

/-! ## What is queued and what goes out -/

/-- The write queue, what has gone out, and what the sizes of new segments depend on. -/
structure LayView where
  queue : List SkBuff
  out : List Transmission
  nextAddr : ℕ
  /-- The number of SACK blocks that there is room for. -/
  blocks : ℕ
  symLen : Option ℕ

def TcpSock.lay (s : TcpSock) : LayView where
  queue := s.writeQueue
  out := s.out
  nextAddr := s.nextAddr
  blocks := s.sacks.length
  symLen := s.fec.map TcpFec.symLen

/-- Two segments are alike: the options of a SYN apart, they have the same options. -/
structure Alike (th th' : Tcphdr) (payload payload' : List UInt8) : Prop where
  syn : th.syn = th'.syn
  data : th.syn = false → th.data = th'.data
  payload : payload = payload'

theorem Alike.symm {th th' : Tcphdr} {p p' : List UInt8} (h : Alike th th' p p') :
    Alike th' th p' p :=
  ⟨h.syn.symm, fun hsyn => (h.data (h.syn.trans hsyn)).symm, h.payload.symm⟩

theorem Alike.trans {th th' th'' : Tcphdr} {p p' p'' : List UInt8} (h : Alike th th' p p')
    (h' : Alike th' th'' p' p'') : Alike th th'' p p'' :=
  ⟨h.syn.trans h'.syn, fun hsyn => (h.data hsyn).trans (h'.data (h.syn.symm.trans hsyn)),
    h.payload.trans h'.payload⟩

/-- The transmission is one of the buffer. -/
def Transmission.Of (t : Transmission) (x : SkBuff) : Prop :=
  Alike t.seg.th x.th t.seg.payload x.payload

/-- **What a buffer is built with stays.** -/
structure LaidInv (v : LayView) : Prop where
  built : ∀ x ∈ v.queue, x.Built
  fits : ∀ t ∈ v.out, t.Fits
  once : ∀ t ∈ v.out, ∀ x ∈ v.queue, t.addr = x.addr → t.Of x
  same : ∀ t ∈ v.out, ∀ u ∈ v.out, t.addr = u.addr →
    Alike t.seg.th u.seg.th t.seg.payload u.seg.payload
  nodup : (v.queue.map SkBuff.addr).Nodup
  queueAddr : ∀ x ∈ v.queue, x.addr < v.nextAddr
  outAddr : ∀ t ∈ v.out, t.addr < v.nextAddr
  blocks : v.blocks = 4
  symLen : ∀ n ∈ v.symLen, n = tcpFecDefaultSymLen

namespace LaidInv

variable {v v' : LayView}

theorem of_eq {s s' : TcpSock} (h : LaidInv s.lay) (heq : s'.lay = s.lay) : LaidInv s'.lay :=
  heq ▸ h

/-- Buffers of one address are one. -/
theorem eq_of_addr (h : LaidInv v) {x y : SkBuff} (hx : x ∈ v.queue) (hy : y ∈ v.queue)
    (haddr : x.addr = y.addr) : x = y :=
  List.inj_on_of_nodup_map h.nodup hx hy haddr

/-- **A segment goes out** from a new buffer that is not queued. -/
theorem fresh (h : LaidInv v) {t : Transmission} (haddr : t.addr = v.nextAddr) (hfits : t.Fits) :
    LaidInv { v with out := v.out ++ [t], nextAddr := v.nextAddr + 1 } := by
  have hold : ∀ u ∈ v.out, u.addr ≠ t.addr := fun u hu => (haddr ▸ h.outAddr u hu).ne
  refine ⟨h.built, ?_, ?_, ?_, h.nodup, ?_, ?_, h.blocks, h.symLen⟩
  · exact List.forall_mem_append.mpr ⟨h.fits, List.forall_mem_singleton.mpr hfits⟩
  · refine List.forall_mem_append.mpr ⟨h.once, List.forall_mem_singleton.mpr fun x hx heq => ?_⟩
    exact absurd (heq.symm.trans haddr) (h.queueAddr x hx).ne
  · intro u hu w hw heq
    rcases List.mem_append.mp hu with hu | hu <;> rcases List.mem_append.mp hw with hw | hw
    · exact h.same u hu w hw heq
    · rw [List.mem_singleton.mp hw] at heq
      exact absurd heq (hold u hu)
    · rw [List.mem_singleton.mp hu] at heq
      exact absurd heq.symm (hold w hw)
    · rw [List.mem_singleton.mp hu, List.mem_singleton.mp hw]
      exact ⟨rfl, fun _ => rfl, rfl⟩
  · exact fun x hx => (h.queueAddr x hx).trans (Nat.lt_succ_self _)
  · refine List.forall_mem_append.mpr ⟨fun u hu => (h.outAddr u hu).trans (Nat.lt_succ_self _), ?_⟩
    exact List.forall_mem_singleton.mpr (haddr ▸ Nat.lt_succ_self _)

/-- **A new buffer is queued**. -/
theorem push (h : LaidInv v) {x : SkBuff} (haddr : x.addr = v.nextAddr) (hx : x.Built) :
    LaidInv { v with queue := v.queue ++ [x], nextAddr := v.nextAddr + 1 } := by
  refine ⟨?_, h.fits, ?_, h.same, ?_, ?_, ?_, h.blocks, h.symLen⟩
  · exact List.forall_mem_append.mpr ⟨h.built, List.forall_mem_singleton.mpr hx⟩
  · intro t ht y hy heq
    rcases List.mem_append.mp hy with hy | hy
    · exact h.once t ht y hy heq
    · rw [List.mem_singleton.mp hy, haddr] at heq
      exact absurd heq (h.outAddr t ht).ne
  · rw [List.map_append, List.map_singleton]
    refine List.nodup_append.mpr ⟨h.nodup, List.nodup_singleton _, fun a ha b hb => ?_⟩
    obtain ⟨y, hy, rfl⟩ := List.mem_map.mp ha
    rw [List.mem_singleton.mp hb, haddr]
    exact (h.queueAddr y hy).ne
  · refine List.forall_mem_append.mpr ⟨fun y hy => (h.queueAddr y hy).trans (Nat.lt_succ_self _), ?_⟩
    exact List.forall_mem_singleton.mpr (haddr ▸ Nat.lt_succ_self _)
  · exact fun t ht => (h.outAddr t ht).trans (Nat.lt_succ_self _)

/-- Acknowledged buffers leave the queue. -/
theorem sublist (h : LaidInv v) {q : List SkBuff} (hq : q.Sublist v.queue) :
    LaidInv { v with queue := q } :=
  ⟨fun x hx => h.built x (hq.subset hx), h.fits, fun t ht x hx => h.once t ht x (hq.subset hx), h.same,
    h.nodup.sublist (hq.map _), fun x hx => h.queueAddr x (hq.subset hx), h.outAddr, h.blocks, h.symLen⟩

end LaidInv

/-- Buffers of the queue go out, and the queue becomes `q'`. -/
structure Renews (q q' : List SkBuff) (ts : List Transmission) : Prop where
  addr : q'.map SkBuff.addr = q.map SkBuff.addr
  queue : ∀ x' ∈ q', ∃ x ∈ q, x'.addr = x.addr ∧ Alike x'.th x.th x'.payload x.payload ∧ x'.Built
  out : ∀ t ∈ ts, t.Fits ∧ ∃ x ∈ q, t.addr = x.addr ∧ t.Of x

/-- **Buffers of the queue go out**, again or for the first time. -/
theorem LaidInv.renew {v : LayView} (h : LaidInv v) {q : List SkBuff} {ts : List Transmission}
    (hr : Renews v.queue q ts) : LaidInv { v with queue := q, out := v.out ++ ts } := by
  -- what goes out from a buffer of the queue is like everything that went out from it
  have hold : ∀ t ∈ v.out, ∀ u ∈ ts, t.addr = u.addr →
      Alike t.seg.th u.seg.th t.seg.payload u.seg.payload := by
    intro t ht u hu heq
    obtain ⟨-, x, hx, haddr, hof⟩ := hr.out u hu
    exact (h.once t ht x hx (heq.trans haddr)).trans hof.symm
  have hnew : ∀ t ∈ ts, ∀ u ∈ ts, t.addr = u.addr →
      Alike t.seg.th u.seg.th t.seg.payload u.seg.payload := by
    intro t ht u hu heq
    obtain ⟨-, x, hx, haddr, hof⟩ := hr.out t ht
    obtain ⟨-, y, hy, haddr', hof'⟩ := hr.out u hu
    obtain rfl := h.eq_of_addr hx hy (haddr.symm.trans (heq.trans haddr'))
    exact hof.trans hof'.symm
  refine ⟨?_, ?_, ?_, ?_, hr.addr ▸ h.nodup, ?_, ?_, h.blocks, h.symLen⟩
  · intro x' hx'
    obtain ⟨x, -, -, -, hbuilt⟩ := hr.queue x' hx'
    exact hbuilt
  · exact List.forall_mem_append.mpr ⟨h.fits, fun t ht => (hr.out t ht).1⟩
  · intro t ht x' hx' heq
    obtain ⟨x, hx, haddr, hlike, -⟩ := hr.queue x' hx'
    rcases List.mem_append.mp ht with ht | ht
    · exact (h.once t ht x hx (heq.trans haddr)).trans hlike.symm
    · obtain ⟨-, y, hy, haddr', hof⟩ := hr.out t ht
      obtain rfl := h.eq_of_addr hx hy (haddr.symm.trans (heq.symm.trans haddr'))
      exact Alike.trans hof hlike.symm
  · intro t ht u hu heq
    rcases List.mem_append.mp ht with ht | ht <;> rcases List.mem_append.mp hu with hu | hu
    · exact h.same t ht u hu heq
    · exact hold t ht u hu heq
    · exact (hold u hu t ht heq.symm).symm
    · exact hnew t ht u hu heq
  · intro x' hx'
    obtain ⟨x, hx, haddr, -⟩ := hr.queue x' hx'
    exact haddr ▸ h.queueAddr x hx
  · refine List.forall_mem_append.mpr ⟨h.outAddr, fun t ht => ?_⟩
    obtain ⟨-, x, hx, haddr, -⟩ := hr.out t ht
    exact haddr ▸ h.queueAddr x hx

/-! ## Sending -/

section Sending

variable (env : Env) {s : TcpSock}

theorem lay_tcpTransmitSkb (s : TcpSock) (skb : SkBuff) (seq : UInt32) :
    (tcpTransmitSkb env s skb seq).1.lay =
      { s.lay with out := s.lay.out ++ [skb.transmission (tcpFilled s skb seq)] } := by
  have hblocks : (tcpTransmitSkb env s skb seq).1.sacks.length = s.sacks.length := by
    unfold tcpTransmitSkb tcpFillOptions tcpWriteOptions
    split_ifs
    any_goals rfl
    exact List.length_mapIdx
  have hrest : (tcpTransmitSkb env s skb seq).1.lay = { s.lay with
      out := s.lay.out ++ [skb.transmission (tcpFilled s skb seq)]
      blocks := (tcpTransmitSkb env s skb seq).1.sacks.length } := by
    unfold tcpTransmitSkb tcpFilled tcpFillOptions tcpWriteOptions
    split_ifs <;> rfl
  rw [hrest, hblocks]
  rfl

/-- What goes out of a buffer fits. -/
theorem SkBuff.Built.transmission {skb : SkBuff} (hfits : skb.th.Fits)
    (hsize : skb.payload.length ≤ payloadMax) (s : TcpSock) (seq : UInt32) :
    (skb.transmission (tcpFilled s skb seq)).Fits :=
  ⟨(Tcphdr.Fits.filled s seq hfits).1, (Tcphdr.Fits.filled s seq hfits).2, hsize⟩

/-- A segment goes out from a buffer that is not queued. -/
theorem LaidInv.transmitFresh (h : LaidInv s.lay) {s₁ : TcpSock} {skb : SkBuff} {seq : UInt32}
    (hs₁ : s₁.lay = { s.lay with nextAddr := s.nextAddr + 1 }) (haddr : skb.addr = s.nextAddr)
    (hfits : skb.th.Fits) (hsize : skb.payload.length ≤ payloadMax) :
    LaidInv (tcpTransmitSkb env s₁ skb seq).1.lay := by
  rw [lay_tcpTransmitSkb, hs₁]
  exact h.fresh haddr (SkBuff.Built.transmission hfits hsize s₁ seq)

/-- A block that does not start at zero stands in the array. -/
theorem count_sacks_le (sacks : List TcpSackBlock) (n : ℕ) :
    ((List.range n).filter fun i => (sacks.getD i ⟨0, 0⟩).left ≠ 0).length ≤ sacks.length := by
  have hsub : ((List.range n).filter fun i => (sacks.getD i ⟨0, 0⟩).left ≠ 0).Subperm
      (List.range sacks.length) := by
    refine List.subperm_of_subset (List.nodup_range.filter _) fun i hi => ?_
    have hleft := of_decide_eq_true (List.mem_filter.mp hi).2
    rw [List.mem_range]
    by_contra hge
    rw [List.getD_eq_default _ _ (Nat.not_lt.mp hge)] at hleft
    exact hleft rfl
  simpa using hsub.length_le

/-- The options of an acknowledgement. -/
theorem tcpOptionsLen_spec (h : s.sacks.length = 4) :
    4 * (tcpOptionsLen s / 4) = tcpOptionsLen s ∧ tcpOptionsLen s ≤ 40 := by
  have hle := count_sacks_le s.sacks s.sacklen
  unfold tcpOptionsLen
  dsimp only
  split
  · omega
  · exact ⟨rfl, Nat.zero_le _⟩

theorem LaidInv.sendAck (h : LaidInv s.lay) : LaidInv (tcpSendAck env s).lay := by
  unfold tcpSendAck
  split
  · exact h
  · obtain ⟨hwords, hle⟩ := @tcpOptionsLen_spec s h.blocks
    refine h.transmitFresh env rfl rfl (.inr ⟨?_, ?_⟩) (Nat.zero_le _)
    · dsimp only [tcpAllocSkb]
      rw [List.length_replicate, Nat.mul_add, hwords]
      rfl
    · dsimp only [tcpAllocSkb]
      unfold tcpDoffset
      omega

theorem LaidInv.sendReset (h : LaidInv s.lay) : LaidInv (tcpSendReset env s).lay :=
  h.transmitFresh env rfl rfl (.inl ⟨rfl, rfl⟩) (Nat.zero_le _)

/-- The header of a SYN. -/
theorem fits_tcpSynHeader (s : TcpSock) (ack : Bool) : (tcpSynHeader s ack).Fits := by
  have hopts := @synOptions_tcpSynHeader s ack
  have hfills := hopts.fills
  have hle := hopts.length_le
  unfold tcpHlen tcpHdrLen at hfills
  unfold tcpOptMax at hle
  refine .inr ⟨?_, ?_⟩
  · unfold tcpHdrLen
    omega
  · omega

theorem LaidInv.transmitSynack (h : LaidInv s.lay) : LaidInv (tcpTransmitSynack env s).lay :=
  h.transmitFresh env rfl rfl (fits_tcpSynHeader s true) (Nat.zero_le _)

theorem LaidInv.sendSynack (h : LaidInv s.lay) : LaidInv (tcpSendSynack env s).lay := by
  unfold tcpSendSynack
  split
  · exact h
  · exact h.transmitSynack env

/-! ## The write queue -/

theorem Renews.refl {q : List SkBuff} (h : ∀ x ∈ q, x.Built) : Renews q q [] :=
  ⟨rfl, fun x hx => ⟨x, hx, rfl, ⟨rfl, fun _ => rfl, rfl⟩, h x hx⟩, fun _ ht => absurd ht List.not_mem_nil⟩

/-- A buffer with its header filled in is still one for the write queue, and like the one before. -/
theorem SkBuff.Built.filled {x : SkBuff} (h : x.Built) (s : TcpSock) (seq : UInt32) :
    (x.withHeader (tcpFilled s x seq)).Built ∧
      Alike (tcpFilled s x seq) x.th x.payload x.payload := by
  have hsyn : (tcpFilled s x seq).syn = x.th.syn := (filledFrom_tcpFillOptions s x seq).syn
  have hdata : x.th.syn = false → (tcpFilled s x seq).data = x.th.data := fun hs =>
    data_tcpFilled s seq h.steady hs
  refine ⟨⟨.inr (Tcphdr.Fits.filled s seq h.fits), ?_, h.size⟩, hsyn, fun hs => ?_, rfl⟩
  · change (tcpFilled s x seq).Steady
    unfold Tcphdr.Steady
    rw [hsyn]
    by_cases hs : x.th.syn = false
    · rw [hdata hs]
      exact h.steady
    · exact .inr (.inr (Bool.not_eq_false _ ▸ hs))
  · exact hdata (hsyn.symm.trans hs)

/-- The first buffer of a queue goes out. -/
theorem Renews.cons {q q' : List SkBuff} {ts : List Transmission} (hr : Renews q q' ts) {x : SkBuff}
    (hx : x.Built) (s : TcpSock) (seq : UInt32) {x' : SkBuff} (haddr : x'.addr = x.addr)
    (hth : x'.th = tcpFilled s x seq) (hpayload : x'.payload = x.payload) :
    Renews (x :: q) (x' :: q') (x.transmission (tcpFilled s x seq) :: ts) := by
  obtain ⟨hbuilt, halike⟩ := hx.filled s seq
  refine ⟨?_, ?_, ?_⟩
  · rw [List.map_cons, List.map_cons, haddr, hr.addr]
  · refine List.forall_mem_cons.mpr ⟨⟨x, List.mem_cons_self, haddr, ?_, ?_⟩, fun y' hy' => ?_⟩
    · rw [hth, hpayload]
      exact halike
    · refine ⟨?_, ?_, ?_⟩
      · rw [hth]
        exact hbuilt.fits
      · rw [hth]
        exact hbuilt.steady
      · rw [hpayload]
        exact hbuilt.size
    · obtain ⟨y, hy, hrest⟩ := hr.queue y' hy'
      exact ⟨y, List.mem_cons_of_mem x hy, hrest⟩
  · refine List.forall_mem_cons.mpr ⟨⟨?_, x, List.mem_cons_self, rfl, halike⟩, fun t ht => ?_⟩
    · exact SkBuff.Built.transmission hx.fits hx.size s seq
    · obtain ⟨hfits, y, hy, hrest⟩ := hr.out t ht
      exact ⟨hfits, y, List.mem_cons_of_mem x hy, hrest⟩

/-- What waits before the buffers that go out stays. -/
theorem Renews.append {q₀ q q' : List SkBuff} {ts : List Transmission} (hr : Renews q q' ts)
    (h : ∀ x ∈ q₀, x.Built) : Renews (q₀ ++ q) (q₀ ++ q') ts := by
  refine ⟨?_, ?_, ?_⟩
  · rw [List.map_append, List.map_append, hr.addr]
  · refine List.forall_mem_append.mpr ⟨fun x hx => ?_, fun x' hx' => ?_⟩
    · exact ⟨x, List.mem_append_left q hx, rfl, ⟨rfl, fun _ => rfl, rfl⟩, h x hx⟩
    · obtain ⟨x, hx, hrest⟩ := hr.queue x' hx'
      exact ⟨x, List.mem_append_right q₀ hx, hrest⟩
  · intro t ht
    obtain ⟨hfits, x, hx, hrest⟩ := hr.out t ht
    exact ⟨hfits, x, List.mem_append_right q₀ hx, hrest⟩

theorem lay_tcpRearmRtoTimer (s : TcpSock) : (tcpRearmRtoTimer s).lay = s.lay := by
  unfold tcpRearmRtoTimer
  dsimp only
  split
  · rfl
  · rfl

theorem lay_tcpRearmUserTimeout (s : TcpSock) : (tcpRearmUserTimeout s).lay = s.lay := by
  unfold tcpRearmUserTimeout
  split
  · rfl
  · rfl

/-- **A new buffer is queued**, and goes out at once when nothing is in flight. -/
theorem LaidInv.queueTransmit (h : LaidInv s.lay) {s₁ : TcpSock} {skb : SkBuff}
    (hs₁ : s₁.lay = { s.lay with nextAddr := s.nextAddr + 1 }) (haddr : skb.addr = s.nextAddr)
    (hskb : skb.Built) : LaidInv (tcpQueueTransmitSkb env s₁ skb).1.lay := by
  have hpush := h.push haddr hskb
  unfold tcpQueueTransmitSkb
  dsimp only
  have hfirst : (if s₁.writeQueue = [] then tcpRearmRtoTimer s₁ else s₁).lay = s₁.lay := by
    split
    · exact lay_tcpRearmRtoTimer s₁
    · rfl
  generalize (if s₁.writeQueue = [] then tcpRearmRtoTimer s₁ else s₁) = s₂ at hfirst
  rw [hs₁] at hfirst
  split
  · have hlay := lay_tcpTransmitSkb env s₂ skb s₂.tcb.sndNxt
    rw [hfirst] at hlay
    have hnow : (tcpQueueTransmitNow env s₂ skb).1.lay =
        { (tcpTransmitSkb env s₂ skb s₂.tcb.sndNxt).1.lay with
          queue := (tcpTransmitSkb env s₂ skb s₂.tcb.sndNxt).1.lay.queue ++
            [(skb.withHeader (tcpFilled s₂ skb s₂.tcb.sndNxt)).at
              (tcpTransmitSkb env s₂ skb s₂.tcb.sndNxt).1.tcb.sndNxt] } := rfl
    rw [hnow, hlay]
    refine hpush.renew (Renews.append ?_ h.built)
    exact (Renews.refl fun _ hx => absurd hx List.not_mem_nil).cons hskb s₂ _ rfl rfl rfl
  · have hwait : (s₂.enqueue skb).lay = { s₂.lay with queue := s₂.lay.queue ++ [skb] } := rfl
    change LaidInv (s₂.enqueue skb).lay
    rw [hwait, hfirst]
    exact hpush

/-! ## Coded segments -/

/-- The option of a coded segment. -/
theorem fits_tcpWriteFecOption (th : Tcphdr) (type : FecSymType) (index : UInt8) (blockId : UInt32)
    (hhl : th.hl = tcpDoffset + tcpOptlenFec / 4)
    (hdata : th.data = tcpWriteFecOption type index blockId) : th.Fits ∧ th.Steady := by
  refine ⟨.inr ⟨?_, ?_⟩, .inr (.inl ?_)⟩
  · rw [hhl, hdata, length_tcpWriteFecOption]
    rfl
  · rw [hhl]
    decide
  · rw [hdata]
    rfl

/-- The FEC state is replaced. -/
theorem LaidInv.put (h : LaidInv s.lay) {fec : TcpFec} (hsym : fec.symLen = tcpFecDefaultSymLen) :
    LaidInv { s with fec := some fec }.lay := by
  refine ⟨h.built, h.fits, h.once, h.same, h.nodup, h.queueAddr, h.outAddr, h.blocks, ?_⟩
  intro n hn
  rw [← Option.some.inj hn]
  exact hsym

theorem LaidInv.sym_eq (h : LaidInv s.lay) {fec : TcpFec} (hfec : s.fec = some fec) :
    fec.symLen = tcpFecDefaultSymLen :=
  h.symLen _ (Option.mem_def.mpr (congrArg (Option.map TcpFec.symLen) hfec))

theorem LaidInv.sendRepairs {fec : TcpFec} (hsym : fec.symLen = tcpFecDefaultSymLen)
    (blkK tailLen : ℕ) (ps : List Packet) (h : LaidInv s.lay) (j : ℕ) :
    LaidInv (tcpFecSendRepairs env fec blkK tailLen s j ps).1.lay := by
  induction ps generalizing s j with
  | nil => exact h
  | cons p ps ih =>
    have hone : LaidInv (tcpFecSendRepair env s fec blkK j tailLen p).1.lay := by
      refine h.transmitFresh env rfl rfl (fits_tcpWriteFecOption _ _ _ _ rfl rfl).1 ?_
      dsimp only [tcpAllocSkb]
      rw [List.length_append, length_write, List.length_take, hsym]
      unfold fecRepairHdrLen tcpFecDefaultSymLen payloadMax
      omega
    unfold tcpFecSendRepairs
    dsimp only
    split
    · exact hone
    · exact ih hone _

theorem LaidInv.emitBlock (h : LaidInv s.lay) {fec : TcpFec} (hfec : s.fec = some fec)
    (blkK tailLen : ℕ) : LaidInv (tcpFecEmitBlock env s fec blkK tailLen).1.lay := by
  unfold tcpFecEmitBlock
  split
  · exact h
  · split
    · exact h
    · split
      · exact h
      · next parity _ =>
        have hall := h.sendRepairs env (h.sym_eq hfec) blkK tailLen parity 0
        dsimp only
        split
        · exact hall
        · have hsym := h.sym_eq hfec
          exact hall.put hsym

theorem LaidInv.forceFlush (h : LaidInv s.lay) : LaidInv (tcpFecForceFlush env s).lay := by
  unfold tcpFecForceFlush
  split
  · exact h
  · next fec hfec =>
    split
    · exact h.emitBlock env hfec _ _
    · exact h

theorem LaidInv.emitFull (h : LaidInv s.lay) : LaidInv (tcpFecEmitFull env s).lay := by
  unfold tcpFecEmitFull
  split
  · exact h
  · next fec hfec =>
    split
    · exact h.emitBlock env hfec _ _
    · exact h

theorem LaidInv.flush (h : LaidInv s.lay) : LaidInv (tcpFecFlush env s).lay := by
  unfold tcpFecFlush
  split
  · exact h
  · next fec hfec =>
    split
    · exact h
    · exact h.emitBlock env hfec _ _

/-! ## Data -/

/-- The header of a data segment. -/
theorem fits_tcpDataHeader (fec : Option TcpFec) (last : Bool) :
    (tcpDataHeader fec last).Fits ∧ (tcpDataHeader fec last).Steady := by
  cases fec with
  | none => exact ⟨.inl ⟨rfl, rfl⟩, .inl rfl⟩
  | some fec => exact fits_tcpWriteFecOption _ _ _ _ rfl rfl

theorem symLen_register (fec : TcpFec) (skb : SkBuff) : (fec.register skb).symLen = fec.symLen := by
  unfold TcpFec.register
  dsimp only
  split <;> split <;> rfl

theorem LaidInv.sendPiece (h : LaidInv s.lay) {piece : List UInt8 × Bool}
    (hpiece : piece.1.length ≤ payloadMax) : LaidInv (tcpSendPiece env s piece).lay := by
  have hprep : LaidInv (tcpSendPrepare env s).lay := by
    have hforce := h.forceFlush env
    unfold tcpSendPrepare
    generalize tcpFecForceFlush env s = s₁ at hforce
    refine hforce.of_eq ?_
    unfold tcpFecPin TcpSock.lay
    cases s₁.fec with
    | none => rfl
    | some fec =>
      rw [Option.map_some, Option.map_some, Option.map_some]
      split
      · rfl
      · rfl
  unfold tcpSendPiece
  dsimp only
  generalize tcpSendPrepare env s = s₁ at hprep
  obtain ⟨hfits, hsteady⟩ := fits_tcpDataHeader s₁.fec piece.2
  refine LaidInv.emitFull env (hprep.queueTransmit env ?_ rfl ⟨hfits, hsteady, hpiece⟩)
  unfold TcpSock.lay
  dsimp only [tcpAllocSkb]
  rw [Option.map_map]
  congr 2
  exact funext fun fec => symLen_register fec _

theorem length_le_tcpPieces (mss n : ℕ) (buf : List UInt8) :
    ∀ piece ∈ tcpPieces mss n buf, piece.1.length ≤ mss := by
  induction n generalizing buf with
  | zero => exact fun piece hp => absurd hp List.not_mem_nil
  | succ n ih =>
    cases buf with
    | nil => exact fun piece hp => absurd hp List.not_mem_nil
    | cons b buf =>
      refine List.forall_mem_cons.mpr ⟨?_, ih _⟩
      exact List.length_take_le _ _

theorem LaidInv.tcpSendMss_le (h : LaidInv s.lay) : tcpSendMss s ≤ payloadMax := by
  unfold tcpSendMss
  split
  · exact Nat.le_of_lt_succ s.smss.toNat_lt
  · next fec hfec =>
    rw [h.sym_eq hfec]
    decide

theorem LaidInv.send (h : LaidInv s.lay) (buf : List UInt8) : LaidInv (tcpSend env s buf).lay := by
  have hall : ∀ (pieces : List (List UInt8 × Bool)) (s₁ : TcpSock),
      (∀ piece ∈ pieces, piece.1.length ≤ payloadMax) → LaidInv s₁.lay →
        LaidInv (pieces.foldl (tcpSendPiece env) s₁).lay := by
    intro pieces
    induction pieces with
    | nil => exact fun _ _ h₁ => h₁
    | cons piece pieces ih =>
      intro s₁ hp h₁
      obtain ⟨hpiece, hrest⟩ := List.forall_mem_cons.mp hp
      exact ih _ hrest (h₁.sendPiece env hpiece)
  have hsent := hall _ s (fun piece hp =>
    (length_le_tcpPieces (tcpSendMss s) buf.length buf piece hp).trans h.tcpSendMss_le) h
  exact hsent.of_eq (lay_tcpRearmUserTimeout _)

theorem LaidInv.write (h : LaidInv s.lay) (buf : List UInt8) : LaidInv (tcpWrite env s buf).1.lay := by
  unfold tcpWrite
  split
  · exact h
  · split
    · exact h.send env buf
    · exact h.send env buf
    · exact h

theorem LaidInv.queueFin (h : LaidInv s.lay) : LaidInv (tcpQueueFin env s).lay :=
  (h.flush env).queueTransmit env rfl rfl ⟨.inl ⟨rfl, rfl⟩, .inl rfl, Nat.zero_le _⟩

theorem LaidInv.connect (h : LaidInv s.lay) (iss : UInt32) :
    LaidInv (inetStreamConnect env s iss).lay := by
  unfold inetStreamConnect
  split
  · exact h
  · unfold tcpConnect tcpSendSyn
    split
    · exact h
    · exact h.queueTransmit env rfl rfl ⟨fits_tcpSynHeader _ false, .inr (.inr rfl), Nat.zero_le _⟩

end Sending

end LvlIp.Tcp
