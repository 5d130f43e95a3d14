import LvlIp.Receive.Rebuilt

/-!
# Validated segments

Every call of `tcp_data_queue` that a segment leads to, at any socket that a run reaches. The segment's
own text has passed the checks. The symbols that it makes the FEC section rebuild have passed none, and
they lie in the window exactly when the block that the segment completes does (`calls_ok_iff`).
-/

namespace LvlIp.Tcp

open Fec

/-! ## Where rebuilt symbols come to lie -/

/-- The end of the buffers that follow one another from `nxt` on. -/
def runEnd (nxt : UInt32) : List SkBuff → UInt32
  | [] => nxt
  | skb :: q => if nxt = skb.seq then runEnd (nxt + UInt32.ofNat skb.dlen) q else nxt

theorem tcpConsumeLoop_runEnd (nxt : UInt32) (q : List SkBuff) :
    (tcpConsumeLoop nxt q).2.2 = runEnd nxt q := by
  induction q generalizing nxt with
  | nil => rfl
  | cons skb q ih =>
    unfold tcpConsumeLoop runEnd
    split
    · exact ih _
    · rfl

/-- `rcv_nxt` after a full symbol at `seq`. -/
def TcpSock.nxtAfter (s : TcpSock) (seq : UInt32) : UInt32 :=
  if s.tcb.rcvWnd ≠ 0 ∧ seq = s.tcb.rcvNxt then
    runEnd (seq + UInt32.ofNat tcpFecDefaultSymLen) s.ofoQueue
  else s.tcb.rcvNxt

/-- The block that the segment makes complete, if it does, lies in the window: the first symbol that has
been missing where the window is, and another where the window is after the first. -/
def SplicesInWindow (s : TcpSock) (seg : Segment) : Prop :=
  s.state.synchronized → ∀ fec ∈ s.fec, ∀ b ∈ tcpFecKnown fec (tcpInitSegment seg), b.Rebuilds →
    s.state.receives ∧
      (∀ i ∈ b.missing.head?, b.seq i - s.tcb.rcvNxt ≤ s.tcb.rcvWnd) ∧
      ∀ i ∈ b.missing.head?, ∀ j ∈ b.missing.tail,
        b.seq j - s.nxtAfter (b.seq i) ≤ s.tcb.rcvWnd

/-- The segments of all calls are in the window, and the socket receives text. The FEC section follows
`tsk->fec`, which must still be the pointer that `tcp_fec_enable` set. -/
def CallsOk (env : Env) (s : TcpSock) (seg : Segment) : Prop :=
  (s.state.synchronized → s.FecWhole) ∧ ∀ c ∈ (tcpInLog env s seg).2, CallOk c

section Window

variable {s : TcpSock} {fec : TcpFec} {blk : TcpFecBlockRx} {b : FecKnown}

/-- One symbol is queued when it is in the window. -/
theorem splicesFit_one {v : RcvView} {sp : Splice} :
    SplicesFit v [sp] ↔ sp.seq - v.rcvNxt ≤ v.rcvWnd := and_iff_left trivial

/-- Another symbol follows a full one. -/
theorem splicesFit_two {sp sp' : Splice} (hfull : sp.data.length = tcpFecDefaultSymLen) :
    SplicesFit s.rcv [sp, sp'] ↔ sp.seq - s.tcb.rcvNxt ≤ s.tcb.rcvWnd ∧
      sp'.seq - s.nxtAfter sp.seq ≤ s.tcb.rcvWnd := by
  have hafter : (s.rcv.dataQueue sp.skb).rcvNxt = s.nxtAfter sp.seq ∧
      (s.rcv.dataQueue sp.skb).rcvWnd = s.tcb.rcvWnd := by
    unfold RcvView.dataQueue TcpSock.nxtAfter
    change (if s.tcb.rcvWnd = 0 then _ else if sp.seq = s.tcb.rcvNxt then _ else _ : RcvView).rcvNxt
      = _ ∧ (if s.tcb.rcvWnd = 0 then _ else if sp.seq = s.tcb.rcvNxt then _ else _ : RcvView).rcvWnd
      = _
    by_cases hwnd : s.tcb.rcvWnd = 0
    · rw [if_pos hwnd, if_neg fun h => h.1 hwnd]
      exact ⟨rfl, rfl⟩
    · by_cases hnxt : sp.seq = s.tcb.rcvNxt
      · rw [if_neg hwnd, if_pos hnxt, if_pos ⟨hwnd, hnxt⟩]
        refine ⟨?_, rfl⟩
        rw [← hfull, hnxt]
        exact tcpConsumeLoop_runEnd _ _
      · rw [if_neg hwnd, if_neg hnxt, if_neg fun h => hnxt h.2]
        exact ⟨rfl, rfl⟩
  rw [SplicesFit, splicesFit_one, hafter.1, hafter.2]
  exact Iff.rfl

/-- **The rebuilt symbols fit** when their places do. There are two of them at most, and the first of
two is full. -/
theorem splicesFit_recover_iff (h : RingCounted fec) (hblk : SlotCounted fec blk) (hof : b.Of fec blk)
    (hr : b.Rebuilds) : SplicesFit s.rcv (tcpFecRxRecover fec blk).2 ↔
      (∀ i ∈ b.missing.head?, b.seq i - s.tcb.rcvNxt ≤ s.tcb.rcvWnd) ∧
        ∀ i ∈ b.missing.head?, ∀ j ∈ b.missing.tail,
          b.seq j - s.nxtAfter (b.seq i) ≤ s.tcb.rcvWnd := by
  have hmap := map_place_tcpFecRxRecover hblk h
  have hlt : ∀ i ∈ b.missing, i < blk.count fec := by
    rw [← hof.missing]
    exact fun i => TcpFecBlockRx.lt_of_mem_missing
  have hsorted : b.missing.Pairwise (· < ·) := List.pairwise_lt_range.filter _
  have htwo : b.missing.length ≤ 2 := by
    have hle := hblk.redCount_le
    rw [h.r, hof.parities] at hle
    exact hr.2.2.2.trans hle
  have hplace : ∀ i, blk.place fec i = (b.seq i, blk.spliceLen fec (blk.count fec) i) := by
    intro i
    unfold TcpFecBlockRx.place FecKnown.seq
    rw [hof.base, h.symLen]
  rw [if_pos ((hof.rebuilds h.k).mpr hr), hof.missing] at hmap
  have hne := hr.2.2.1
  generalize b.missing = m at hmap hlt hsorted htwo hne ⊢
  generalize (tcpFecRxRecover fec blk).2 = sps at hmap
  match m, hne with
  | [i], _ =>
    obtain ⟨sp, rfl⟩ := List.length_eq_one_iff.mp (by simpa using congrArg List.length hmap)
    rw [List.map_singleton, List.map_singleton, hplace, List.singleton_inj, Prod.mk.injEq] at hmap
    rw [splicesFit_one, hmap.1]
    change b.seq i - s.tcb.rcvNxt ≤ s.tcb.rcvWnd ↔ _
    simp
  | [i, j], _ =>
    obtain ⟨sp, sp', rfl⟩ := List.length_eq_two.mp (by simpa using congrArg List.length hmap)
    simp only [List.map_cons, List.map_nil, hplace, List.cons.injEq, Prod.mk.injEq] at hmap
    obtain ⟨⟨hseq, hlen⟩, ⟨hseq', -⟩, -⟩ := hmap
    have hij : i < j := (List.pairwise_cons.mp hsorted).1 j (List.mem_singleton_self j)
    have hj := hlt j (by simp)
    rw [splicesFit_two (hlen.trans ((TcpFecBlockRx.spliceLen_of_lt (by omega)).trans h.symLen)), hseq,
      hseq']
    simp
  | _ :: _ :: _ :: _, _ => exact absurd htwo (by simp)

/-- **What a coded segment rebuilds fits** when the block that it completes is in the window. -/
theorem splicesInWindow_iff (h : FecAll countedRing s) (seg : Segment) :
    SplicesInWindow s seg ↔ tcpSpliced s (tcpInitSegment seg) = [] ∨
      s.state.receives ∧ SplicesFit s.rcv (tcpSpliced s (tcpInitSegment seg)) := by
  unfold SplicesInWindow tcpSpliced
  by_cases hst : s.state.synchronized
  · rw [if_pos hst]
    cases hfec : s.fec with
    | none => exact iff_of_true (fun _ fec hmem => nomatch hmem) (.inl rfl)
    | some fec =>
      have hring : RingCounted fec := h fec hfec
      simp only [hst, Option.mem_some_iff, forall_eq', forall_const, Option.map_some,
        Option.getD_some]
      rcases exists_known hring (tcpInitSegment seg) with ⟨hnone, hnil⟩ | ⟨b, blk, hb, hof, hblk, hrx⟩
      · rw [hnone, hnil]
        exact iff_of_true (fun _ hmem => nomatch hmem) (.inl rfl)
      · rw [hb, hrx]
        simp only [Option.mem_some_iff, forall_eq']
        have hmap := map_place_tcpFecRxRecover hblk hring
        by_cases hr : b.Rebuilds
        · rw [if_pos ((hof.rebuilds hring.k).mpr hr), hof.missing] at hmap
          have hsome : (tcpFecRxRecover fec blk).2 ≠ [] := by
            intro hnil
            rw [hnil, List.map_nil, eq_comm, List.map_eq_nil_iff] at hmap
            exact hr.2.2.1 hmap
          rw [splicesFit_recover_iff hring hblk hof hr, or_iff_right hsome]
          exact forall_prop_of_true hr
        · rw [if_neg fun h => hr ((hof.rebuilds hring.k).mp h), List.map_eq_nil_iff] at hmap
          exact iff_of_true (fun h => absurd h hr) (.inl hmap)
  · rw [if_neg hst]
    exact iff_of_true (fun h => absurd h hst) (.inl rfl)

end Window

/-- The rings of a reachable socket are counted. -/
theorem countedRing_run (env : Env) (events : List TcpEvent) {s : TcpSock}
    (h : FecAll countedRing s) : FecAll countedRing (events.foldl (tcpStep env) s) := by
  induction events generalizing s with
  | nil => exact h
  | cons e es ih => exact ih (h.step e fun seg _ fec hfec => (h fec hfec).rx _)

/-- **When `tcp_data_queue` is called with validated segments only.** At every socket that a run
reaches, the calls that a segment leads to are ok exactly when `tsk->fec` has not been overwritten and
the block that the segment completes, if it does, lies in the window of a socket that receives text. -/
theorem calls_ok_iff (env : Env) (events : List TcpEvent) (seg : Segment) :
    (tcpInLog env (events.foldl (tcpStep env) tcpAllocSock) seg).1 =
        tcpIn env (events.foldl (tcpStep env) tcpAllocSock) seg ∧
      (CallsOk env (events.foldl (tcpStep env) tcpAllocSock) seg ↔
        ((events.foldl (tcpStep env) tcpAllocSock).state.synchronized →
          (events.foldl (tcpStep env) tcpAllocSock).FecWhole) ∧
        SplicesInWindow (events.foldl (tcpStep env) tcpAllocSock) seg) := by
  have hring := countedRing_run env events (s := tcpAllocSock) fun _ h => nomatch h
  generalize events.foldl (tcpStep env) tcpAllocSock = s at hring ⊢
  unfold CallsOk
  rw [tcpInLog_eq, splicesInWindow_iff hring, callOk_dataCalls_iff]
  exact ⟨rfl, Iff.rfl⟩

/-- A segment with a repair header of its sender's choice makes a connected socket queue a byte 100000
bytes past `rcv_nxt`, with a window of 44477. -/
theorem not_calls_ok_far :
    (sackFecHandshake.foldl (tcpStep quietLink) tcpAllocSock).FecWhole ∧
      ¬ ∀ c ∈ (tcpInLog quietLink (sackFecHandshake.foldl (tcpStep quietLink) tcpAllocSock)
        (byteRepair 100201)).2, CallOk c := by
  refine ⟨rfl, ?_⟩
  obtain ⟨fec, b, hrx⟩ := tcpFecRx_byteRepair 100201
  have hstate : (sackFecHandshake.foldl (tcpStep quietLink) tcpAllocSock).fec = some tcpFecFresh ∧
      (sackFecHandshake.foldl (tcpStep quietLink) tcpAllocSock).state.synchronized ∧
      (sackFecHandshake.foldl (tcpStep quietLink) tcpAllocSock).rcv.rcvNxt = 201 ∧
      (sackFecHandshake.foldl (tcpStep quietLink) tcpAllocSock).rcv.rcvWnd = 44477 :=
    ⟨rfl, rfl, rfl, rfl⟩
  generalize sackFecHandshake.foldl (tcpStep quietLink) tcpAllocSock = s at hstate
  obtain ⟨hfec, hsync, hnxt, hwnd⟩ := hstate
  rw [tcpInLog_eq, callOk_dataCalls_iff, tcpSpliced, if_pos hsync, hfec, Option.map_some,
    Option.getD_some, hrx]
  rintro (hnil | ⟨-, hfit⟩)
  · cases hnil
  · rw [splicesFit_one, hnxt, hwnd] at hfit
    have hfar : ¬ (100201 : UInt32) - 201 ≤ 44477 := by decide
    exact hfar hfit

end LvlIp.Tcp
