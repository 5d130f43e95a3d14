import LvlIp.Send.Moves

/-!
# Retransmission

`tcp_retransmission_timeout` sends the first buffer of the write queue at `snd_una`. In every run that
is the segment as it first went out exactly when `snd_una` is the sequence number recorded in the
buffer (`resendsSame_iff`); an acknowledgement that ends inside a segment moves `snd_una` and leaves
the segment in the queue, and then the bytes go out at the wrong place.
-/

namespace LvlIp.Tcp

/-- What goes out when the retransmission timer expires repeats the first transmission of its
buffer. -/
def ResendsSame (env : Env) (s : TcpSock) : TcpEvent → Prop
  | .timer .tcpRetransmissionTimeout => .tcpRetransmissionTimeout ∈ s.timers →
      ∀ t ∈ (tcpRetransmissionTimeout env s).out.drop s.out.length, ∃ u, FirstIn s.out u ∧
        u.addr = t.addr ∧ t.seg.th.seq = u.seg.th.seq ∧ t.seg.payload = u.seg.payload
  | _ => True

/-- When the retransmission timer expires, what has been acknowledged ends where the first buffer of
the write queue begins. -/
def AckedToHead (s : TcpSock) : TcpEvent → Prop
  | .timer .tcpRetransmissionTimeout => .tcpRetransmissionTimeout ∈ s.timers →
      ∀ x ∈ s.writeQueue.head?, s.tcb.sndUna = x.seq
  | _ => True

instance (s : TcpSock) : DecidablePred (AckedToHead s)
  | .timer .tcpRetransmissionTimeout => inferInstanceAs (Decidable
      (.tcpRetransmissionTimeout ∈ s.timers → ∀ x ∈ s.writeQueue.head?, s.tcb.sndUna = x.seq))
  | .timer .tcpConnectRto | .timer .tcpSendDelack | .timer .tcpLinger | .timer .tcpUserTimeout
  | .connect _ | .arrive _ | .write _ | .read _ | .wake _ | .close | .abort | .tick _ =>
    .isTrue trivial

section Resend

variable {env : Env} {s : TcpSock}

theorem FirstIn.unique {out : List Transmission} {t u : Transmission} (ht : FirstIn out t)
    (hu : FirstIn out u) (haddr : t.addr = u.addr) : t = u := by
  have hfind : ∀ t, FirstIn out t → out.find? (fun x => decide (x.addr = t.addr)) = some t := by
    rintro t ⟨pre, post, rfl, hpre⟩
    rw [List.find?_append, List.find?_eq_none.mpr fun x hx => by simpa using hpre x hx,
      Option.none_or, List.find?_cons_of_pos (by simp)]
  have h := hfind t ht
  rw [haddr, hfind u hu] at h
  exact (Option.some.inj h).symm

/-- **One expiry** repeats a first transmission exactly when `snd_una` is where its buffer
begins. -/
theorem FlightInv.resendsSame_timeout (h : FlightInv s)
    (hrun : .tcpRetransmissionTimeout ∈ s.timers) :
    (∀ t ∈ (tcpRetransmissionTimeout env s).out.drop s.out.length, ∃ u, FirstIn s.out u ∧
        u.addr = t.addr ∧ t.seg.th.seq = u.seg.th.seq ∧ t.seg.payload = u.seg.payload) ↔
      ∀ x ∈ s.writeQueue.head?, s.tcb.sndUna = x.seq := by
  cases hq : s.writeQueue with
  | nil =>
    have hout : (tcpRetransmissionTimeout env s).out = s.out := by
      unfold tcpRetransmissionTimeout
      dsimp only
      rw [show (tcpReleaseRtoTimer s).writeQueue = [] from hq]
      rfl
    rw [hout, List.drop_length]
    exact iff_of_true nofun nofun
  | cons skb q =>
    obtain ⟨th, hth, hout, -⟩ := tcpRetransmissionTimeout_head env hq
    have hgone := h.flight.head_gone (armed_of_rtoArmed h.side hrun) hq
    have hmem : skb ∈ s.writeQueue := by
      rw [hq]
      exact List.mem_cons_self
    obtain ⟨u, hu, haddr, hseq, hpayload, -⟩ := h.flight.sentAs_of_gone hmem hgone
    rw [hout, List.drop_left, List.head?_cons]
    constructor
    · intro hsame x hx
      obtain rfl : skb = x := Option.some.inj hx
      obtain ⟨u', hu', haddr', hseq', -⟩ := hsame _ List.mem_cons_self
      obtain rfl : u' = u := hu'.unique hu (haddr'.trans haddr.symm)
      rw [← hseq, ← hseq']
      exact hth.seq.symm
    · intro hhead t ht
      rw [List.mem_singleton.mp ht]
      refine ⟨u, hu, haddr, ?_, hpayload.symm⟩
      rw [hseq, ← hhead skb rfl]
      exact hth.seq

theorem FlightInv.resendsSame (h : FlightInv s) (e : TcpEvent) :
    ResendsSame env s e ↔ AckedToHead s e := by
  unfold ResendsSame AckedToHead
  split
  · exact forall_congr' fun hrun => h.resendsSame_timeout hrun
  · rfl

/-- **Retransmissions repeat the original segment** in a run exactly when, at every expiry of the
retransmission timer, `snd_una` is the sequence number of the first buffer in the queue. -/
theorem resendsSame_iff (env : Env) (events : List TcpEvent) :
    RunSat env (ResendsSame env) tcpAllocSock events ↔
      RunSat env AckedToHead tcpAllocSock events :=
  RunSat.iff_of_inv (fun _ e h _ => h.resendsSame e) (fun _ e h _ _ => h.step e)
    flightInv_tcpAllocSock (H := fun _ _ => True) (runSat_iff.mpr fun _ _ _ _ => trivial)

end Resend

/-- A SYN at 100 is answered, and the handshake is over. -/
def openAt100 : List TcpEvent :=
  [.connect 100, .arrive ⟨{ Tcphdr.zero with
    seq := 1000, ackSeq := 101, hl := 5, syn := true, ack := true }, []⟩]

/-- The acknowledgement 103 ends inside the segment at 101, which then goes out at 103. -/
theorem not_resendsSame_partial : ¬ RunSat quietLink (ResendsSame quietLink) tcpAllocSock
    (openAt100 ++ [.write [1, 2, 3, 4], .arrive (synAck 103), .timer .tcpRetransmissionTimeout]) := by
  intro h
  have hlast := runSat_iff.mp h (openAt100 ++ [.write [1, 2, 3, 4], .arrive (synAck 103)])
    (.timer .tcpRetransmissionTimeout) [] rfl
  rw [(flightInv_run _).resendsSame] at hlast
  revert hlast
  decide +kernel

end LvlIp.Tcp
