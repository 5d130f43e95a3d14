import LvlIp.Receive.Calls

/-!
# Parity and the byte stream

A repair segment is kept out of the stream by the FEC section of `tcp_input_state`. That section is
passed over while the socket has no codec, and it gives the segment back when it can get no buffer
for the block; the segment is then one with text like any other, at the sequence number of the
sender's next byte. Exactly then its bytes are queued, unless a check drops them (`parityOut_iff`).
-/

namespace LvlIp.Tcp

open Fec Foundations

/-! ## Segment arrival when memory is short -/

/-- `tcp_fec_rx_slot` needs no new buffer for the block. -/
def TcpFec.slotReady (fec : TcpFec) (blockId : UInt32) : Bool :=
  fec.holds blockId || decide ((fec.rx.getD (tcpFecVictim fec.rx) .empty).symbolBuf ≠ [])

/-- `tcp_fec_input`; `slot` says whether a buffer for a block can be allocated. -/
def tcpFecInputOr (env : Env) (slot : Bool) (s : TcpSock) (fec : TcpFec) (skb : SkBuff) :
    TcpSock × Bool :=
  if hasFecOption skb.th ∧ ¬ (slot || fec.slotReady (TcpOptFec.read skb.th.data).blockId) then
    (s, false)
  else tcpFecInput env s fec skb

/-- `tcp_input_state`; `codec` and `slot` say whether the codec and the buffer for a block can be
allocated. -/
def tcpInputStateOr (env : Env) (codec slot : Bool) (s : TcpSock) (skb : SkBuff) : TcpSock :=
  match s.state with
  | .close | .listen | .synSent => tcpInputState env s skb
  | _ =>
    match s.fec with
    | none => tcpSegmentArrivesOr env codec s skb
    | some fec =>
      let r := tcpFecInputOr env slot s fec skb
      if r.2 then r.1 else tcpSegmentArrivesOr env codec r.1 skb

/-- With memory at hand, this is `tcp_input_state`. -/
theorem tcpInputStateOr_true (env : Env) (s : TcpSock) (skb : SkBuff) :
    tcpInputStateOr env true true s skb = tcpInputState env s skb := by
  have hinput : ∀ fec, tcpFecInputOr env true s fec skb = tcpFecInput env s fec skb :=
    fun fec => if_neg (by simp)
  unfold tcpInputStateOr tcpInputState
  simp only [hinput, tcpSegmentArrivesOr_true]
  cases s.state <;> rfl

/-- Past the handshake with the peer's first segment. -/
theorem tcpInputStateOr_eq (env : Env) (codec slot : Bool) {s : TcpSock} (skb : SkBuff)
    (h : s.state.synchronized) :
    tcpInputStateOr env codec slot s skb =
      match s.fec with
      | none => tcpSegmentArrivesOr env codec s skb
      | some fec =>
        let r := tcpFecInputOr env slot s fec skb
        if r.2 then r.1 else tcpSegmentArrivesOr env codec r.1 skb := by
  unfold tcpInputStateOr
  split
  · next hst => rw [hst] at h; cases h
  · next hst => rw [hst] at h; cases h
  · next hst => rw [hst] at h; cases h
  · rfl

/-! ## Repair segments -/

/-- The segment is one that `tcp_fec_send_repair` sends. -/
def RepairSegment (seg : Segment) : Prop :=
  ∃ (env : Env) (s : TcpSock) (fec : TcpFec) (blkK j tailLen : ℕ) (parity : Packet)
    (t : Transmission), (tcpFecSendRepair env s fec blkK j tailLen parity).1.out = s.out ++ [t] ∧
      t.seg = seg

/-- What the receiver sees of a repair segment. -/
structure LooksRepair (skb : SkBuff) : Prop where
  fin : skb.th.fin = false
  syn : skb.th.syn = false
  rst : skb.th.rst = false
  ack : skb.th.ack = true
  option : hasFecOption skb.th = true
  type : (TcpOptFec.read skb.th.data).type = FecSymType.repair.toByte
  pos : 0 < skb.dlen

theorem RepairSegment.looks {seg : Segment} (h : RepairSegment seg) :
    LooksRepair (tcpInitSegment seg) := by
  obtain ⟨env, s, fec, blkK, j, tailLen, parity, t, hout, rfl⟩ := h
  obtain ⟨t', ht', hsend⟩ := exists_tcpFecSendRepair env s fec blkK j tailLen parity
  rw [hsend] at hout
  obtain rfl : t' = t := List.singleton_inj.mp (List.append_cancel_left hout)
  obtain ⟨seq, hth⟩ := ht'.header
  have hdata := hth.coded rfl
  have hhl := hth.hl (Nat.succ_ne_zero _)
  refine ⟨hth.fin, hth.syn, hth.rst, hth.ack, ?_, ?_, ?_⟩
  · change hasFecOption t'.seg.th = true
    unfold hasFecOption tcpHlen
    rw [hdata, hhl]
    rfl
  · change (TcpOptFec.read t'.seg.th.data).type = _
    rw [hdata]
    rfl
  · change 0 < t'.seg.payload.length
    rw [ht'.payload, List.length_append, length_write]
    exact Nat.add_pos_left (by decide) _

/-- The FEC section consumes a repair segment. -/
theorem LooksRepair.consumed {skb : SkBuff} (h : LooksRepair skb) (fec : TcpFec) :
    (tcpFecRx fec skb).2.2 = true := by
  unfold tcpFecRx
  rw [if_pos h.option]
  dsimp only
  rw [h.type, if_neg (by decide), if_pos rfl]
  split <;> rfl

/-! ## The stream -/

/-- The stream of `v'` holds what that of `v` holds. -/
structure StreamFrom (v v' : RcvView) : Prop where
  receiveQueue : v'.receiveQueue = v.receiveQueue
  ofoQueue : v'.ofoQueue.Sublist v.ofoQueue
  rcvNxt : v'.rcvNxt = v.rcvNxt

theorem StreamFrom.trans {v v' v'' : RcvView} (h : StreamFrom v v') (h' : StreamFrom v' v'') :
    StreamFrom v v'' :=
  ⟨h'.receiveQueue.trans h.receiveQueue, h'.ofoQueue.trans h.ofoQueue, h'.rcvNxt.trans h.rcvNxt⟩

theorem SameQueues.streamFrom {v v' : RcvView} (h : SameQueues v v') : StreamFrom v v' :=
  ⟨h.receiveQueue, h.ofoQueue ▸ List.Sublist.refl _, h.rcvNxt⟩

/-- The search of `tcp_data_insert_ordered` ends at a buffer with the same sequence number. -/
def ofoDrops : List SkBuff → SkBuff → Bool
  | [], _ => false
  | next :: q, skb =>
    if skb.seq < next.seq then decide (next.seq < skb.endSeq) && ofoDrops q skb
    else decide (skb.seq = next.seq) || ofoDrops q skb

/-- A buffer is inserted, or dropped. -/
theorem tcpDataInsertOrdered_cases (q : List SkBuff) (skb : SkBuff) :
    ofoDrops q skb ∧ tcpDataInsertOrdered q skb = q ∨
      ¬ ofoDrops q skb ∧ (tcpDataInsertOrdered q skb).length = q.length + 1 := by
  induction q with
  | nil => exact .inr ⟨Bool.false_ne_true, rfl⟩
  | cons next q ih =>
    have htail : ofoDrops q skb ∧ next :: tcpDataInsertOrdered q skb = next :: q ∨
        ¬ ofoDrops q skb ∧
          (next :: tcpDataInsertOrdered q skb).length = (next :: q).length + 1 := by
      simpa using ih
    unfold tcpDataInsertOrdered ofoDrops
    split
    · split
      · next hov =>
        rw [decide_eq_true hov, Bool.true_and]
        exact htail
      · next hov =>
        rw [decide_eq_false hov, Bool.false_and]
        exact .inr ⟨Bool.false_ne_true, rfl⟩
    · split
      · next heq => exact .inl ⟨by rw [decide_eq_true heq]; rfl, rfl⟩
      · next hne =>
        rw [decide_eq_false hne, Bool.false_or]
        exact htail

/-- **Queueing leaves the stream alone** only when the buffer is dropped. -/
theorem streamFrom_dataQueue {v : RcvView} (hwnd : v.rcvWnd ≠ 0) (skb : SkBuff) :
    StreamFrom v (v.dataQueue skb) ↔ ¬ (skb.seq = v.rcvNxt ∨ ¬ ofoDrops v.ofoQueue skb) := by
  unfold RcvView.dataQueue
  rw [if_neg hwnd]
  split
  · next hseq =>
    refine iff_of_false (fun h => ?_) (fun h => h (.inl hseq))
    have hlen := congrArg List.length h.receiveQueue
    simp at hlen
  · next hseq =>
    rw [or_iff_right hseq, not_not]
    rcases tcpDataInsertOrdered_cases v.ofoQueue skb with ⟨hd, heq⟩ | ⟨hd, hlen⟩
    · refine iff_of_true ⟨rfl, ?_, rfl⟩ hd
      rw [heq]
    · refine iff_of_false (fun h => ?_) hd
      have hle := h.ofoQueue.length_le
      change (tcpDataInsertOrdered v.ofoQueue skb).length ≤ v.ofoQueue.length at hle
      omega

/-! ## The checks on a repair segment -/

/-- The ACK field lets a segment through to the text, and the socket then receives text. -/
def TcpSock.acceptsAck (s : TcpSock) (ack : UInt32) : Bool :=
  match s.state with
  | .synReceived => decide (s.tcb.sndUna ≤ ack ∧ ack < s.tcb.sndNxt)
  | .established | .finWait1 | .finWait2 => decide (s.tcb.sndUna ≤ ack ∧ ack ≤ s.tcb.sndNxt)
  | _ => false

/-- The text of the segment is queued. -/
def TakesText (s : TcpSock) (skb : SkBuff) : Prop :=
  tcpVerifySegment s skb ∧ s.acceptsAck skb.th.ackSeq ∧
    (skb.seq = s.tcb.rcvNxt ∨ ¬ ofoDrops s.ofoQueue skb)

theorem tcpAck_snd_eq (s : TcpSock) (a : UInt32) :
    (tcpAck s a).2 = decide (s.tcb.sndUna ≤ a ∧ a ≤ s.tcb.sndNxt) := by
  rw [tcpAck_snd]
  unfold SndView.ack
  rw [decide_eq_decide]
  split
  · next h =>
    refine iff_of_true (fun hor => ?_) ⟨UInt32.le_of_lt h.1, h.2⟩
    rcases hor with hlt | hlt
    · exact UInt32.lt_irrefl _ hlt
    · exact absurd h.2 (UInt32.not_le.mpr hlt)
  · rw [not_or]
    exact and_congr UInt32.not_lt UInt32.not_lt

/-- The ACK field, on the way to the text. -/
theorem tcpAckFieldOr_receives_iff (codec : Bool) (s : TcpSock) (th : Tcphdr) :
    ((tcpAckFieldOr codec s th).2 ∧ (tcpAckFieldOr codec s th).1.state.receives) ↔
      s.acceptsAck th.ackSeq := by
  have hack : ∀ s' : TcpSock, (tcpAck s' th.ackSeq).1.state = s'.state := fun s' => state_tcpAck s' _
  unfold tcpAckFieldOr TcpSock.acceptsAck
  cases hst : s.state with
  | synReceived =>
    dsimp only
    split
    · next h =>
      have hest : (tcpFecResolveOr codec { s with state := .established }).state = .established := by
        unfold tcpFecResolveOr
        rw [tcpFecResolve_eq]
        split
        · split <;> rfl
        · rfl
      have htcb : (tcpFecResolveOr codec { s with state := .established }).tcb = s.tcb := by
        unfold tcpFecResolveOr
        rw [tcpFecResolve_eq]
        split
        · split <;> rfl
        · rfl
      rw [tcpAck_snd_eq, hack, hest, htcb, decide_eq_true h]
      exact iff_of_true ⟨decide_eq_true ⟨h.1, UInt32.le_of_lt h.2⟩, rfl⟩ rfl
    · next h =>
      rw [decide_eq_false h]
      exact iff_of_false (fun hc => Bool.false_ne_true hc.1) Bool.false_ne_true
  | established | finWait1 | finWait2 =>
    dsimp only
    rw [tcpAckField, hst, tcpAck_snd_eq, hack, hst]
    exact and_iff_left rfl
  | closeWait | closing | lastAck =>
    dsimp only
    rw [tcpAckField, hst, hack, hst]
    exact iff_of_false (fun hc => Bool.false_ne_true hc.2) Bool.false_ne_true
  | close | listen | synSent | timeWait =>
    dsimp only
    rw [tcpAckField, hst, hst]
    exact iff_of_false (fun hc => Bool.false_ne_true hc.2) Bool.false_ne_true

/-- The FIN-acknowledged section, on the way to the text. -/
theorem tcpFinAcked_receives_iff (env : Env) (s : TcpSock) (th : Tcphdr) :
    ((tcpFinAcked env s th).2 ∧ (tcpFinAcked env s th).1.state.receives) ↔ s.state.receives := by
  have hsend : (tcpSendAck env { s with finFlag := true }).state = s.state :=
    state_eq_of_rcv (rcv_tcpSendAck env _)
  unfold tcpFinAcked
  split
  · split
    · next hst => rw [hst]; exact iff_of_true ⟨rfl, rfl⟩ rfl
    · next hst => rw [hst]; exact iff_of_false (fun hc => Bool.false_ne_true hc.2) Bool.false_ne_true
    · next hst => rw [hst]; exact iff_of_false (fun hc => Bool.false_ne_true hc.1) Bool.false_ne_true
    · split
      · rw [hsend]
        exact and_iff_right rfl
      · exact and_iff_right rfl
    · exact and_iff_right rfl
  · exact and_iff_right rfl

/-- The last acknowledgement frees the socket, and what waits for a gap to be filled with it. -/
theorem streamFrom_tcpFinAcked (env : Env) (s : TcpSock) (th : Tcphdr) :
    (tcpFinAcked env s th).2 = false → StreamFrom s.rcv (tcpFinAcked env s th).1.rcv := by
  unfold tcpFinAcked
  split
  · split
    · exact nofun
    · exact nofun
    · exact fun _ => ⟨rfl, List.nil_sublist _, rfl⟩
    · split
      · exact nofun
      · exact nofun
    · exact nofun
  · exact nofun

/-- The checks on a repair segment: the window and the ACK field. -/
theorem LooksRepair.tcpChecks_eq {skb : SkBuff} (h : LooksRepair skb) (env : Env) (codec : Bool)
    (s : TcpSock) : tcpChecks env codec s skb =
      if ¬ tcpVerifySegment s skb then .error (tcpSendAck env s)
      else if ¬ (tcpAckFieldOr codec s skb.th).2 then .error (tcpAckFieldOr codec s skb.th).1
      else if ¬ (tcpFinAcked env (tcpAckFieldOr codec s skb.th).1 skb.th).2 then
        .error (tcpFinAcked env (tcpAckFieldOr codec s skb.th).1 skb.th).1
      else .ok (tcpFinAcked env (tcpAckFieldOr codec s skb.th).1 skb.th).1 := by
  unfold tcpChecks
  rw [h.rst, h.syn, h.ack]
  rfl

/-- **When a repair segment gets to the text.** -/
theorem LooksRepair.tcpChecks_receives_iff {skb : SkBuff} (h : LooksRepair skb) (env : Env)
    (codec : Bool) (s : TcpSock) :
    (∃ s', tcpChecks env codec s skb = .ok s' ∧ s'.state.receives) ↔
      tcpVerifySegment s skb ∧ s.acceptsAck skb.th.ackSeq := by
  rw [← tcpAckFieldOr_receives_iff codec, ← tcpFinAcked_receives_iff env, h.tcpChecks_eq]
  generalize tcpAckFieldOr codec s skb.th = a
  generalize tcpFinAcked env a.1 skb.th = f
  split
  · next hv => exact iff_of_false (fun ⟨_, hc, _⟩ => nomatch hc) (fun hc => hv hc.1)
  · next hv =>
    split
    · next ha => exact iff_of_false (fun ⟨_, hc, _⟩ => nomatch hc) (fun hc => ha hc.2.1)
    · next ha =>
      split
      · next hf => exact iff_of_false (fun ⟨_, hc, _⟩ => nomatch hc) (fun hc => hf hc.2.2.1)
      · next hf =>
        rw [not_not] at hv ha hf
        simp [hv, ha, hf]

/-- What the checks leave of the stream when they end the processing. -/
theorem LooksRepair.streamFrom_error {skb : SkBuff} (h : LooksRepair skb) {env : Env} {codec : Bool}
    {s s' : TcpSock} (he : tcpChecks env codec s skb = .error s') : StreamFrom s.rcv s'.rcv := by
  have hack := (sameQueues_tcpAckFieldOr codec s skb.th).streamFrom
  rw [h.tcpChecks_eq] at he
  split at he
  · rw [← Except.error.inj he, rcv_tcpSendAck]
    exact (SameQueues.of_eq rfl).streamFrom
  · split at he
    · rwa [← Except.error.inj he]
    · split at he
      · next hf =>
        rw [← Except.error.inj he]
        exact hack.trans (streamFrom_tcpFinAcked env _ _ (by simpa using hf))
      · cases he

theorem LooksRepair.rcv_tcpDeliver {skb : SkBuff} (h : LooksRepair skb) (env : Env) (s : TcpSock) :
    (tcpDeliver env s skb).rcv = if s.state.receives then s.rcv.dataQueue skb else s.rcv := by
  have hfin : ∀ s' b, tcpFin env s' skb.th b = s' := by
    intro s' b
    unfold tcpFin
    rw [h.fin]
    exact if_neg (fun hc => Bool.false_ne_true hc.1)
  unfold tcpDeliver tcpText
  rw [rcv_tcpPending, hfin]
  split
  · next hr => rw [if_pos hr.1, rcv_tcpDataQueue]
  · next hr => rw [if_neg (fun hc => hr ⟨hc, .inr h.pos⟩)]

/-- **A repair segment that the FEC section does not take** stays out of the stream exactly when its
text is not queued. -/
theorem LooksRepair.streamFrom_iff {skb : SkBuff} (h : LooksRepair skb) (env : Env) (codec : Bool)
    (s : TcpSock) :
    StreamFrom s.rcv (tcpSegmentArrivesOr env codec s skb).rcv ↔ ¬ TakesText s skb := by
  have hiff := h.tcpChecks_receives_iff env codec s
  unfold TakesText
  rw [← and_assoc, ← hiff]
  unfold tcpSegmentArrivesOr
  cases hchecks : tcpChecks env codec s skb with
  | error s' =>
    refine iff_of_true (h.streamFrom_error hchecks) ?_
    rintro ⟨⟨_, hc, _⟩, _⟩
    cases hc
  | ok s' =>
    obtain ⟨hv, hsame⟩ := tcpChecks_ok hchecks
    have hwnd : s'.rcv.rcvWnd ≠ 0 := by
      rw [hsame.rcvWnd]
      intro h0
      unfold tcpVerifySegment at hv
      have hpos := h.pos
      change s.tcb.rcvWnd = 0 at h0
      simp [h0, hpos] at hv
    have hofo : s'.rcv.ofoQueue = s.ofoQueue := hsame.ofoQueue
    have hnxt : s'.rcv.rcvNxt = s.tcb.rcvNxt := hsame.rcvNxt
    have htrans : ∀ v, StreamFrom s.rcv v ↔ StreamFrom s'.rcv v := by
      intro v
      have hsymm : SameQueues s'.rcv s.rcv :=
        ⟨hsame.rcvNxt.symm, hsame.rcvWnd.symm, hsame.receiveQueue.symm, hsame.ofoQueue.symm⟩
      exact ⟨hsymm.streamFrom.trans, hsame.streamFrom.trans⟩
    dsimp only
    rw [h.rcv_tcpDeliver, htrans]
    split
    · next hr =>
      rw [streamFrom_dataQueue hwnd, hofo, hnxt]
      exact not_congr (and_iff_right ⟨s', rfl, hr⟩).symm
    · next hr =>
      refine iff_of_true (SameQueues.of_eq rfl).streamFrom ?_
      rintro ⟨⟨s'', hs'', hr''⟩, -⟩
      rw [← Except.ok.inj hs''] at hr''
      exact hr hr''

/-! ## The FEC section -/

/-- The FEC section takes the segment. -/
def Intercepted (slot : Bool) (s : TcpSock) (skb : SkBuff) : Prop :=
  ∃ fec ∈ s.fec, slot || fec.slotReady (TcpOptFec.read skb.th.data).blockId

instance (slot : Bool) (s : TcpSock) (skb : SkBuff) : Decidable (Intercepted slot s skb) :=
  inferInstanceAs (Decidable (∃ fec ∈ s.fec, _))

/-- The stream with the symbols that the segment makes the FEC section reconstruct. -/
def RcvView.spliced (v : RcvView) (sps : List Splice) : RcvView :=
  sps.foldl (fun v sp => v.dataQueue sp.skb) v

/-- **The bytes of the segment stay out of the stream**: what a socket holds afterwards is what it
held before, with the reconstructed symbols queued. -/
def ParityOut (env : Env) (codec slot : Bool) (s : TcpSock) (seg : Segment) : Prop :=
  let skb := tcpInitSegment seg
  StreamFrom (s.rcv.spliced (if Intercepted slot s skb then tcpSpliced s skb else []))
    (tcpInputStateOr env codec slot s skb).rcv

theorem rcv_foldl_tcpFecSplice (env : Env) (sps : List Splice) (s : TcpSock) :
    (sps.foldl (tcpFecSplice env) s).rcv = s.rcv.spliced sps := by
  induction sps generalizing s with
  | nil => rfl
  | cons sp sps ih =>
    have hrcv : (tcpFecSplice env s sp).rcv = s.rcv.dataQueue sp.skb := rcv_tcpDataQueue env s _
    rw [List.foldl_cons, ih, hrcv]
    rfl

theorem spliced_fec (sps : List Splice) (v : RcvView) (fec : Option TcpFec) :
    RcvView.spliced { v with fec } sps = { v.spliced sps with fec } := by
  induction sps generalizing v with
  | nil => rfl
  | cons sp sps ih =>
    change RcvView.spliced (RcvView.dataQueue { v with fec } sp.skb) sps = _
    rw [dataQueue_fec, ih]
    rfl

/-- **The FEC section on the receive side.** -/
theorem rcv_tcpFecInput (env : Env) (s : TcpSock) (fec : TcpFec) (skb : SkBuff) :
    (tcpFecInput env s fec skb).1.rcv =
      { s.rcv.spliced (tcpFecRx fec skb).2.1 with fec := some (tcpFecRx fec skb).1 } := by
  have hfold : ((tcpFecRx fec skb).2.1.foldl (tcpFecSplice env)
      { s with fec := some (tcpFecRx fec skb).1 }).rcv =
      { s.rcv.spliced (tcpFecRx fec skb).2.1 with fec := some (tcpFecRx fec skb).1 } := by
    rw [rcv_foldl_tcpFecSplice]
    exact spliced_fec _ s.rcv _
  unfold tcpFecInput
  dsimp only
  split
  · exact hfold
  · rwa [rcv_tcpSendAck]

/-- **When parity stays out of the byte stream**: in a state past `SYN_SENT`, exactly when the FEC
section takes the repair segment, or else its text fails the window check, the ACK field, or the
search for its place in the out-of-order queue. -/
theorem parityOut_iff (env : Env) (codec slot : Bool) (s : TcpSock) (hs : s.state.synchronized)
    (seg : Segment) (hseg : RepairSegment seg) :
    ParityOut env codec slot s seg ↔
      Intercepted slot s (tcpInitSegment seg) ∨ ¬ TakesText s (tcpInitSegment seg) := by
  have hlooks := hseg.looks
  generalize hskb : tcpInitSegment seg = skb at hlooks ⊢
  unfold ParityOut
  rw [hskb]
  dsimp only
  rw [tcpInputStateOr_eq env codec slot skb hs]
  cases hfec : s.fec with
  | none =>
    have hno : ¬ Intercepted slot s skb := by
      rintro ⟨fec, hmem, -⟩
      rw [hfec] at hmem
      cases hmem
    rw [if_neg hno, or_iff_right hno]
    exact hlooks.streamFrom_iff env codec s
  | some fec =>
    have hiff : Intercepted slot s skb ↔
        (slot || fec.slotReady (TcpOptFec.read skb.th.data).blockId) = true := by
      unfold Intercepted
      rw [hfec]
      simp
    dsimp only
    by_cases hi : Intercepted slot s skb
    · have hinput : tcpFecInputOr env slot s fec skb = tcpFecInput env s fec skb :=
        if_neg (fun hc => hc.2 (hiff.mp hi))
      have htaken : (tcpFecInput env s fec skb).2 = true := hlooks.consumed fec
      rw [if_pos hi, hinput, if_pos htaken, rcv_tcpFecInput]
      refine iff_of_true ?_ (.inl hi)
      unfold tcpSpliced
      rw [if_pos hs, hfec]
      exact ⟨rfl, List.Sublist.refl _, rfl⟩
    · have hinput : tcpFecInputOr env slot s fec skb = (s, false) :=
        if_pos ⟨hlooks.option, fun hc => hi (hiff.mpr hc)⟩
      rw [if_neg hi, or_iff_right hi, hinput, if_neg Bool.false_ne_true]
      exact hlooks.streamFrom_iff env codec s

/-- A socket of the peer of `sockAt200`, which is about to send its first byte. -/
def peerSock : TcpSock :=
  { tcpAllocSock with
    state := .established
    tcb := { sndUna := 201, sndNxt := 201, iss := 200, rcvNxt := 101, rcvWnd := 44477, irs := 100 }
    fec := some tcpFecFresh }

/-- A repair segment of that peer. -/
def peerRepair (parity : Packet) : Segment where
  th := { Tcphdr.zero with
    seq := 201, ackSeq := 101, ack := true, hl := 7, data := tcpWriteFecOption .repair 0 0 }
  payload := (repairHdr tcpFecFresh 8 0 512).write ++ parity.take 512

theorem repairSegment_peerRepair (parity : Packet) : RepairSegment (peerRepair parity) :=
  ⟨quietLink, peerSock, tcpFecFresh, 8, 0, 512, parity, _, rfl, rfl⟩

/-- A socket with a codec takes the repair segment. -/
theorem parityOut_codedSock :
    ParityOut quietLink true true codedSock (peerRepair (List.replicate 512 0)) :=
  (parityOut_iff quietLink true true codedSock rfl _ (repairSegment_peerRepair _)).mpr
    (.inl ⟨tcpFecFresh, rfl, rfl⟩)

/-- Where the codec could not be allocated, the 528 bytes of the repair segment are queued. -/
theorem not_parityOut_noCodec :
    RepairSegment (peerRepair (List.replicate 512 0)) ∧
      ¬ ParityOut quietLink false false sockAt200 (peerRepair (List.replicate 512 0)) := by
  refine ⟨repairSegment_peerRepair _, fun h => ?_⟩
  have hlen := congrArg List.length h.receiveQueue
  revert hlen
  decide +kernel

end LvlIp.Tcp
