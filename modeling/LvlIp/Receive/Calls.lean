import LvlIp.Receive.Ring
import LvlIp.Send.Layout

/-!
# The two routes to the receive queue

`tcp_data_queue` is called with a segment from the wire, after the checks of `tcp_input_state`, and
with the symbols that the FEC section reconstructs, before them. The calls are recorded
(`tcpInLog_eq`). The first route keeps to the window and to the states that receive text; the second
does so exactly when the reconstructed symbols fit (`callOk_dataCalls_iff`).
-/

namespace LvlIp.Tcp

open Fec Foundations

/-! ## The checks before the text -/

/-- Enabling FEC, when the codec can be allocated or not. -/
def tcpFecResolveOr (codec : Bool) (s : TcpSock) : TcpSock :=
  if codec || s.fec.isSome then tcpFecResolve s else { s with fecok := 0 }

/-- Fifth, the ACK field, with the outcome of allocating the codec in `SYN_RECEIVED`. -/
def tcpAckFieldOr (codec : Bool) (s : TcpSock) (th : Tcphdr) : TcpSock × Bool :=
  match s.state with
  | .synReceived =>
    if s.tcb.sndUna ≤ th.ackSeq ∧ th.ackSeq < s.tcb.sndNxt then
      tcpAck (tcpFecResolveOr codec { s with state := .established }) th.ackSeq
    else (s, false)
  | _ => tcpAckField s th

/-- `tcp_input_state` from the sequence check to the text of the segment: it ends there with a
socket, or goes on with one. -/
def tcpChecks (env : Env) (codec : Bool) (s : TcpSock) (skb : SkBuff) : Except TcpSock TcpSock :=
  if ¬ tcpVerifySegment s skb then .error (if skb.th.rst then s else tcpSendAck env s)
  else if skb.th.rst then .error (tcpEnterTimeWait s)
  else if skb.th.syn then .error s
  else if ¬ skb.th.ack then .error s
  else
    let a := tcpAckFieldOr codec s skb.th
    if ¬ a.2 then .error a.1
    else
      let f := tcpFinAcked env a.1 skb.th
      if ¬ f.2 then .error f.1 else .ok f.1

/-- `tcp_input_state` after the FEC section. -/
def tcpSegmentArrivesOr (env : Env) (codec : Bool) (s : TcpSock) (skb : SkBuff) : TcpSock :=
  match tcpChecks env codec s skb with
  | .error s' => s'
  | .ok s' => tcpDeliver env s' skb

theorem tcpAckFieldOr_true (s : TcpSock) (th : Tcphdr) :
    tcpAckFieldOr true s th = tcpAckField s th := by
  unfold tcpAckFieldOr
  split
  · next hst =>
    unfold tcpAckField
    rw [hst]
    rfl
  · rfl

/-- With the codec allocated, this is the arrival of a segment. -/
theorem tcpSegmentArrivesOr_true (env : Env) (s : TcpSock) (skb : SkBuff) :
    tcpSegmentArrivesOr env true s skb = tcpSegmentArrives env s skb := by
  unfold tcpSegmentArrivesOr tcpSegmentArrives tcpChecks
  rw [tcpAckFieldOr_true]
  dsimp only
  split_ifs <;> rfl

/-- The queues and the window of two sockets are the same. -/
structure SameQueues (v v' : RcvView) : Prop where
  rcvNxt : v'.rcvNxt = v.rcvNxt
  rcvWnd : v'.rcvWnd = v.rcvWnd
  receiveQueue : v'.receiveQueue = v.receiveQueue
  ofoQueue : v'.ofoQueue = v.ofoQueue

theorem SameQueues.of_eq {v v' : RcvView} (h : v' = v) : SameQueues v v' := by
  rw [h]
  exact ⟨rfl, rfl, rfl, rfl⟩

theorem SameQueues.trans {v v' v'' : RcvView} (h : SameQueues v v') (h' : SameQueues v' v'') :
    SameQueues v v'' :=
  ⟨h'.rcvNxt.trans h.rcvNxt, h'.rcvWnd.trans h.rcvWnd, h'.receiveQueue.trans h.receiveQueue,
    h'.ofoQueue.trans h.ofoQueue⟩

section Checks

variable {env : Env} {codec : Bool} {s : TcpSock} {skb : SkBuff}

theorem sameQueues_tcpFecResolveOr (codec : Bool) (s : TcpSock) :
    SameQueues s.rcv (tcpFecResolveOr codec s).rcv := by
  unfold tcpFecResolveOr
  rw [tcpFecResolve_eq]
  split
  · split
    · exact ⟨rfl, rfl, rfl, rfl⟩
    · exact ⟨rfl, rfl, rfl, rfl⟩
  · exact ⟨rfl, rfl, rfl, rfl⟩

theorem sameQueues_tcpAckFieldOr (codec : Bool) (s : TcpSock) (th : Tcphdr) :
    SameQueues s.rcv (tcpAckFieldOr codec s th).1.rcv := by
  unfold tcpAckFieldOr
  split
  · split
    · have hst : SameQueues s.rcv (TcpSock.rcv { s with state := .established }) :=
        ⟨rfl, rfl, rfl, rfl⟩
      refine (hst.trans (sameQueues_tcpFecResolveOr codec { s with state := .established })).trans ?_
      exact .of_eq (rcv_tcpAck _ _)
    · exact .of_eq rfl
  · next hne =>
    unfold tcpAckField
    split
    · next hst => exact absurd hst hne
    all_goals first
      | exact .of_eq (rcv_tcpAck s _)
      | exact .of_eq rfl

/-- The FIN-acknowledged section, when it lets the segment through. -/
theorem sameQueues_tcpFinAcked (s : TcpSock) (th : Tcphdr) :
    (tcpFinAcked env s th).2 = true → SameQueues s.rcv (tcpFinAcked env s th).1.rcv := by
  unfold tcpFinAcked
  split
  · split
    · exact fun _ => ⟨rfl, rfl, rfl, rfl⟩
    · exact fun _ => ⟨rfl, rfl, rfl, rfl⟩
    · exact fun h => absurd h Bool.false_ne_true
    · split
      · exact fun _ => .of_eq (rcv_tcpSendAck env _)
      · exact fun _ => .of_eq rfl
    · exact fun _ => .of_eq rfl
  · exact fun _ => .of_eq rfl

/-- **A segment whose text is looked at** lies in the window, and the checks have left the queues
alone. -/
theorem tcpChecks_ok {s' : TcpSock} (h : tcpChecks env codec s skb = .ok s') :
    tcpVerifySegment s skb ∧ SameQueues s.rcv s'.rcv := by
  unfold tcpChecks at h
  dsimp only at h
  split_ifs at h with hv hr hs ha hack hfin
  rw [← Except.ok.inj h]
  refine ⟨by simpa using hv, (sameQueues_tcpAckFieldOr codec s skb.th).trans ?_⟩
  exact sameQueues_tcpFinAcked _ _ (by simpa using hfin)

end Checks

/-! ## Every call of `tcp_data_queue` -/

/-- A socket, and the calls of `tcp_data_queue` that have led to it, with the socket at each call. -/
abbrev Logged := TcpSock × List (TcpSock × SkBuff)

/-- `tcp_data_queue`, recorded. -/
def tcpDataQueueLog (env : Env) (a : Logged) (skb : SkBuff) : Logged :=
  (tcpDataQueue env a.1 skb, a.2 ++ [(a.1, skb)])

/-- `tcp_fec_splice` calls `tcp_data_queue` in any state. -/
def tcpFecSpliceLog (env : Env) (a : Logged) (sp : Splice) : Logged := tcpDataQueueLog env a sp.skb

/-- `tcp_fec_input` with its calls. -/
def tcpFecInputLog (env : Env) (s : TcpSock) (fec : TcpFec) (skb : SkBuff) : Logged × Bool :=
  let r := tcpFecRx fec skb
  let a := r.2.1.foldl (tcpFecSpliceLog env) ({ s with fec := some r.1 }, [])
  ((if r.2.1 = [] then a.1 else tcpSendAck env a.1, a.2), r.2.2)

/-- The segment text with its call. -/
def tcpTextLog (env : Env) (s : TcpSock) (skb : SkBuff) : Logged :=
  if s.state.receives ∧ (skb.th.psh ∨ 0 < skb.dlen) then tcpDataQueueLog env (s, []) skb else (s, [])

/-- `tcp_input_state` from the sixth check on, with its call. -/
def tcpDeliverLog (env : Env) (s : TcpSock) (skb : SkBuff) : Logged :=
  let expected := skb.seq == s.tcb.rcvNxt
  let a := tcpTextLog env s skb
  (tcpPending env (tcpFin env a.1 skb.th expected) skb expected, a.2)

/-- `tcp_input_state` after the FEC section, with its call. -/
def tcpSegmentArrivesLog (env : Env) (s : TcpSock) (skb : SkBuff) : Logged :=
  if ¬ tcpVerifySegment s skb then
    (if skb.th.rst then s else tcpSendAck env s, [])
  else if skb.th.rst then (tcpEnterTimeWait s, [])
  else if skb.th.syn then (s, [])
  else if ¬ skb.th.ack then (s, [])
  else
    let a := tcpAckField s skb.th
    if ¬ a.2 then (a.1, [])
    else
      let f := tcpFinAcked env a.1 skb.th
      if ¬ f.2 then (f.1, []) else tcpDeliverLog env f.1 skb

/-- `tcp_input_state` with its calls. -/
def tcpInputStateLog (env : Env) (s : TcpSock) (skb : SkBuff) : Logged :=
  match s.state with
  | .close => (tcpClosed env s skb.th, [])
  | .listen => (s, [])
  | .synSent => (tcpSynsent env s skb.th, [])
  | _ =>
    match s.fec with
    | none => tcpSegmentArrivesLog env s skb
    | some fec =>
      let r := tcpFecInputLog env s fec skb
      if r.2 then r.1
      else
        let a := tcpSegmentArrivesLog env r.1.1 skb
        (a.1, r.1.2 ++ a.2)

/-- `tcp_in` with the calls that it makes. -/
def tcpInLog (env : Env) (s : TcpSock) (seg : Segment) : Logged :=
  tcpInputStateLog env s (tcpInitSegment seg)

/-- The call for the text of a segment, with the socket at that time. -/
def tcpTextCalls (env : Env) (s : TcpSock) (skb : SkBuff) : List (TcpSock × SkBuff) :=
  match tcpChecks env true s skb with
  | .error _ => []
  | .ok s' => if s'.state.receives ∧ (skb.th.psh ∨ 0 < skb.dlen) then [(s', skb)] else []

/-- The calls for reconstructed symbols. -/
def tcpSpliceCalls (env : Env) : TcpSock → List Splice → List (TcpSock × SkBuff)
  | _, [] => []
  | s, sp :: sps => (s, sp.skb) :: tcpSpliceCalls env (tcpFecSplice env s sp) sps

/-- The socket is past the handshake with its peer's first segment. -/
def TcpState.synchronized : TcpState → Bool
  | .close | .listen | .synSent => false
  | _ => true

/-- The calls made while a segment is processed, in order. -/
def tcpDataCalls (env : Env) (s : TcpSock) (seg : Segment) : List (TcpSock × SkBuff) :=
  let skb := tcpInitSegment seg
  if s.state.synchronized then
    match s.fec with
    | none => tcpTextCalls env s skb
    | some fec =>
      let r := tcpFecInput env s fec skb
      tcpSpliceCalls env { s with fec := some (tcpFecRx fec skb).1 } (tcpFecRx fec skb).2.1 ++
        if r.2 then [] else tcpTextCalls env r.1 skb
  else []

section Recorded

variable {env : Env} {s : TcpSock} {skb : SkBuff}

theorem foldl_tcpFecSpliceLog (sps : List Splice) (a : Logged) :
    sps.foldl (tcpFecSpliceLog env) a =
      (sps.foldl (tcpFecSplice env) a.1, a.2 ++ tcpSpliceCalls env a.1 sps) := by
  induction sps generalizing a with
  | nil => rw [List.foldl_nil, List.foldl_nil, tcpSpliceCalls, List.append_nil]
  | cons sp sps ih =>
    rw [List.foldl_cons, List.foldl_cons, ih, tcpSpliceCalls]
    change (_, a.2 ++ [(a.1, sp.skb)] ++ _) = _
    rw [List.append_assoc]
    rfl

theorem tcpFecInputLog_eq (env : Env) (s : TcpSock) (fec : TcpFec) (skb : SkBuff) :
    tcpFecInputLog env s fec skb =
      (((tcpFecInput env s fec skb).1,
        tcpSpliceCalls env { s with fec := some (tcpFecRx fec skb).1 } (tcpFecRx fec skb).2.1),
        (tcpFecInput env s fec skb).2) := by
  unfold tcpFecInputLog tcpFecInput
  dsimp only
  rw [foldl_tcpFecSpliceLog]
  rfl

theorem tcpDeliverLog_eq (env : Env) (s : TcpSock) (skb : SkBuff) :
    tcpDeliverLog env s skb = (tcpDeliver env s skb,
      if s.state.receives ∧ (skb.th.psh ∨ 0 < skb.dlen) then [(s, skb)] else []) := by
  unfold tcpDeliverLog tcpDeliver tcpTextLog tcpText
  split <;> rfl

theorem tcpSegmentArrivesLog_eq (env : Env) (s : TcpSock) (skb : SkBuff) :
    tcpSegmentArrivesLog env s skb = (tcpSegmentArrives env s skb, tcpTextCalls env s skb) := by
  unfold tcpSegmentArrivesLog tcpSegmentArrives tcpTextCalls tcpChecks
  rw [tcpAckFieldOr_true]
  dsimp only
  split_ifs
  any_goals rfl
  exact tcpDeliverLog_eq env _ skb

end Recorded

/-- **The calls are those that `tcp_in` makes**: to record them changes nothing. -/
theorem tcpInLog_eq (env : Env) (s : TcpSock) (seg : Segment) :
    tcpInLog env s seg = (tcpIn env s seg, tcpDataCalls env s seg) := by
  unfold tcpInLog tcpIn tcpInputStateLog tcpInputState tcpDataCalls
  dsimp only
  generalize hst : s.state = st
  cases st with
  | close => rfl
  | listen => rfl
  | synSent => rfl
  | _ =>
    rw [if_pos (show TcpState.synchronized _ = true from rfl)]
    cases s.fec with
    | none => exact tcpSegmentArrivesLog_eq env s _
    | some fec =>
      dsimp only
      rw [tcpFecInputLog_eq]
      dsimp only
      by_cases htaken : (tcpFecInput env s fec (tcpInitSegment seg)).2 = true
      · rw [if_pos htaken, if_pos htaken, if_pos htaken, List.append_nil, hst]
      · rw [if_neg htaken, if_neg htaken, if_neg htaken, tcpSegmentArrivesLog_eq, hst]

/-- The segment of a call is in the window, and the socket receives text. -/
def CallOk (c : TcpSock × SkBuff) : Prop :=
  c.2.seq - c.1.tcb.rcvNxt ≤ c.1.tcb.rcvWnd ∧ c.1.state.receives

/-- The symbols that the FEC section reconstructs when the segment arrives. -/
def tcpSpliced (s : TcpSock) (skb : SkBuff) : List Splice :=
  if s.state.synchronized then (s.fec.map fun fec => (tcpFecRx fec skb).2.1).getD [] else []

/-- The symbols lie in the window one after the other, while it moves with those before. -/
def SplicesFit : RcvView → List Splice → Prop
  | _, [] => True
  | v, sp :: sps => sp.seq - v.rcvNxt ≤ v.rcvWnd ∧ SplicesFit (v.dataQueue sp.skb) sps

section Calls

variable {env : Env} {s : TcpSock}

/-- **A segment that passes the sequence check is in the window**, also when the window wraps. -/
theorem sub_le_of_tcpVerifySegment {skb : SkBuff} (h : tcpVerifySegment s skb) :
    skb.th.seq - s.tcb.rcvNxt ≤ s.tcb.rcvWnd := by
  unfold tcpVerifySegment at h
  simp only [Bool.and_eq_true, Bool.not_eq_true', Bool.or_eq_false_iff, decide_eq_false_iff_not,
    UInt32.not_lt, UInt32.le_iff_toNat_le, UInt32.toNat_add] at h
  obtain ⟨-, hnxt, hwnd⟩ := h
  have h1 := skb.th.seq.toNat_lt
  have h2 := s.tcb.rcvNxt.toNat_lt
  have h3 := s.tcb.rcvWnd.toNat_lt
  rw [UInt32.le_iff_toNat_le, UInt32.toNat_sub]
  omega

theorem callOk_textCalls (seg : Segment) :
    ∀ c ∈ tcpTextCalls env s (tcpInitSegment seg), CallOk c := by
  intro c hc
  unfold tcpTextCalls at hc
  split at hc
  · cases hc
  · next s' hs' =>
    obtain ⟨hv, hsame⟩ := tcpChecks_ok hs'
    split at hc
    · next hrec =>
      rw [List.mem_singleton.mp hc]
      refine ⟨?_, hrec.1⟩
      change seg.th.seq - s'.rcv.rcvNxt ≤ s'.rcv.rcvWnd
      rw [hsame.rcvNxt, hsame.rcvWnd]
      exact sub_le_of_tcpVerifySegment hv
    · cases hc

/-- The calls for reconstructed symbols, on the receive side. -/
theorem callOk_spliceCalls_iff (sps : List Splice) (s : TcpSock) :
    (∀ c ∈ tcpSpliceCalls env s sps, CallOk c) ↔
      sps = [] ∨ s.state.receives ∧ SplicesFit s.rcv sps := by
  induction sps generalizing s with
  | nil => exact iff_of_true (by simp [tcpSpliceCalls]) (.inl rfl)
  | cons sp sps ih =>
    have hrcv : (tcpFecSplice env s sp).rcv = s.rcv.dataQueue sp.skb := rcv_tcpDataQueue env s _
    have hst : (tcpFecSplice env s sp).state = s.state :=
      (congrArg RcvView.state hrcv).trans (state_dataQueue s.rcv sp.skb)
    have hih := ih (tcpFecSplice env s sp)
    rw [hrcv, hst] at hih
    rw [tcpSpliceCalls, List.forall_mem_cons, hih]
    have hhead : CallOk (s, sp.skb) ↔ sp.seq - s.rcv.rcvNxt ≤ s.rcv.rcvWnd ∧ s.state.receives :=
      Iff.rfl
    rw [hhead, SplicesFit]
    constructor
    · rintro ⟨⟨hwin, hrec⟩, rfl | ⟨-, hfit⟩⟩
      · exact .inr ⟨hrec, hwin, trivial⟩
      · exact .inr ⟨hrec, hwin, hfit⟩
    · rintro (hnil | ⟨hrec, hwin, hfit⟩)
      · cases hnil
      · exact ⟨⟨hwin, hrec⟩, .inr ⟨hrec, hfit⟩⟩

/-- The FEC state does not matter for what is queued. -/
theorem dataQueue_fec (v : RcvView) (fec : Option TcpFec) (skb : SkBuff) :
    RcvView.dataQueue { v with fec } skb = { v.dataQueue skb with fec } := by
  unfold RcvView.dataQueue
  dsimp only
  split
  · rfl
  · split <;> rfl

theorem splicesFit_fec (sps : List Splice) (v : RcvView) (fec : Option TcpFec) :
    SplicesFit { v with fec } sps ↔ SplicesFit v sps := by
  induction sps generalizing v with
  | nil => exact Iff.rfl
  | cons sp sps ih =>
    rw [SplicesFit, SplicesFit, dataQueue_fec, ih]

end Calls

/-- **The calls are ok when those for the reconstructed symbols are**: the route through the checks
always keeps to the window and to the receiving states. -/
theorem callOk_dataCalls_iff (env : Env) (s : TcpSock) (seg : Segment) :
    (∀ c ∈ tcpDataCalls env s seg, CallOk c) ↔
      tcpSpliced s (tcpInitSegment seg) = [] ∨
        s.state.receives ∧ SplicesFit s.rcv (tcpSpliced s (tcpInitSegment seg)) := by
  unfold tcpDataCalls tcpSpliced
  dsimp only
  split
  · cases hfec : s.fec with
    | none => exact iff_of_true (callOk_textCalls seg) (.inl rfl)
    | some fec =>
      have htext : ∀ c ∈ (if (tcpFecInput env s fec (tcpInitSegment seg)).2 then [] else
          tcpTextCalls env (tcpFecInput env s fec (tcpInitSegment seg)).1 (tcpInitSegment seg)),
          CallOk c := by
        intro c hc
        split at hc
        · cases hc
        · exact callOk_textCalls seg c hc
      dsimp only
      rw [List.forall_mem_append, and_iff_left htext, callOk_spliceCalls_iff]
      exact or_congr_right (and_congr_right' (splicesFit_fec _ s.rcv _))
  · exact iff_of_true (by simp) (.inl rfl)

theorem blockOk_nine : ∀ b ∈ [[([9] : Packet)]], BlockOk 8 512 b := by
  intro b hb
  rw [List.mem_singleton.mp hb]
  refine ⟨by decide, by decide, fun i hi => ?_, by decide, by decide⟩
  have : i + 1 < 1 := hi
  omega

theorem geometry_eight_two : fecGeometryOk (8 : ℕ) (2 : ℕ) := by decide

theorem blockId_inj_one {b : List Packet} : ∀ m < [b].length, ∀ n < [b].length,
    (fun _ => 0 : ℕ → UInt32) m = (fun _ => 0 : ℕ → UInt32) n → m = n := by
  intro m hm n hn _
  rw [List.length_singleton] at hm hn
  omega

section OneByte

variable (base : UInt32)

/-- A stream of one byte. -/
def byteCoding : Coding where
  k := 8
  r := 2
  symLen := 512
  base := base
  blocks := [[[9]]]
  blockId := fun _ => 0
  geometry := geometry_eight_two
  blocks_ok := blockOk_nine
  blockId_inj := blockId_inj_one

/-- The header of its first repair segment. -/
def byteRepairTh : Tcphdr :=
  { Tcphdr.zero with
    seq := 201, ackSeq := 101, ack := true, hl := 7, data := tcpWriteFecOption .repair 0 0 }

theorem hasFecOption_byteRepairTh : hasFecOption byteRepairTh := by decide

theorem read_byteRepairTh : TcpOptFec.read byteRepairTh.data =
    { type := FecSymType.repair.toByte, index := 0, blockId := 0 } := by decide

/-- Its first repair segment. -/
def byteRepair : Segment where
  th := byteRepairTh
  payload :=
    FecRepairHdr.write { version := 1, k := 1, r := 2, repairIndex := 0, blockId := 0
                         baseSeq := base, symLen := 512, tailLen := 1 } ++
      ((byteCoding base).parityList 0).getD 0 []

theorem seq_byteCoding : (byteCoding base).seq 0 0 = base := UInt32.add_zero base

theorem carries_byteRepair :
    (byteCoding base).Carries (tcpInitSegment (byteRepair base)) 0 (.redundant 0) :=
  .repair Nat.zero_lt_two hasFecOption_byteRepairTh read_byteRepairTh rfl (seq_byteCoding base).symm
    rfl (Coding.parity_parityList Nat.zero_lt_one) rfl

theorem fecOf_byteCoding : FecOf (byteCoding base) tcpFecFresh := ⟨rfl, rfl, rfl, rfl⟩

theorem spliced_start_arrive (fec : TcpFec) (skb : SkBuff) :
    ((FecRun.start fec).arrive skb).spliced (TcpOptFec.read skb.th.data).blockId =
      (tcpFecRx fec skb).2.1 := by
  unfold FecRun.arrive FecRun.start
  simp

/-- **One repair segment rebuilds the byte**, since the block has one symbol. -/
theorem tcpFecRx_byteRepair : ∃ fec b,
    tcpFecRx tcpFecFresh (tcpInitSegment (byteRepair base)) =
      (fec, [{ index := 0, seq := base, data := [b] }], true) := by
  have hcar := carries_byteRepair base
  have hinv : RingInv (byteCoding base) (fun _ _ => True)
      ((FecRun.start tcpFecFresh).arrive (tcpInitSegment (byteRepair base))) :=
    (ringInv_start (fecOf_byteCoding base) rfl).arrive Nat.zero_lt_one hcar trivial
  have hholds := (ringInv_start (A := fun _ _ => True) (fecOf_byteCoding base) rfl).holds_arrive
    Nat.zero_lt_one hcar trivial
  obtain ⟨blk, hset⟩ := hinv.exists_settled Nat.zero_lt_one hholds
  have hregs : ((FecRun.start tcpFecFresh).arrive (tcpInitSegment (byteRepair base))).regs
      ((byteCoding base).blockId 0) = [.redundant 0] := by
    unfold FecRun.arrive
    rw [show TcpOptFec.read (tcpInitSegment (byteRepair base)).th.data = _ from read_byteRepairTh]
    dsimp only
    rw [show (byteCoding base).blockId 0 = 0 from rfl, Function.update_self]
    decide
  rw [hregs] at hset
  have hspliced := spliced_start_arrive tcpFecFresh (tcpInitSegment (byteRepair base))
  rw [hcar.blockId] at hspliced
  have hcard : (byteCoding base).size 0 ≤ [Symbol.redundant 0].toFinset.card := Nat.le_refl 1
  rcases hset.complete_of_le hcard ⟨0, List.mem_singleton_self _⟩ Nat.zero_lt_one with
    ⟨hmem, -⟩ | ⟨-, hcount⟩
  · cases List.mem_singleton.mp hmem
  · have htaken : (tcpFecRx tcpFecFresh (tcpInitSegment (byteRepair base))).2.2 = true := by
      rw [tcpFecRx_of_carries hcar Nat.zero_lt_one (fecOf_byteCoding base)]
      rfl
    rw [hspliced] at hset hcount
    have hof := hset.spl_of
    generalize tcpFecRx tcpFecFresh (tcpInitSegment (byteRepair base)) = r at hcount hof htaken
    obtain ⟨fec, sps, taken⟩ := r
    have hbyte : ∀ sp ∈ sps, sp = { index := 0, seq := base, data := [9] } := by
      intro sp hsp
      have hsp := hof sp hsp
      obtain ⟨i, seq, data⟩ := sp
      obtain rfl : i = 0 := Nat.lt_one_iff.mp hsp.lt
      have hseq : seq = base := hsp.seq.trans (seq_byteCoding base)
      have hdata : data = [9] := hsp.data
      rw [hseq, hdata]
    rw [List.eq_replicate_of_mem hbyte] at hcount ⊢
    generalize sps.length = n at hcount ⊢
    have hn : n = 1 := by
      rw [List.map_replicate, List.count_replicate] at hcount
      exact hcount
    rw [hn, show taken = true from htaken]
    exact ⟨fec, 9, rfl⟩

end OneByte

end LvlIp.Tcp
