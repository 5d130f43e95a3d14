import LvlIp.Handshake.Connecting

/-!
# The answers to a SYN

What `tcp_synsent` does to a socket in SYN_SENT is what RFC 793 asks for (`SynsentRfc`), except that
a reset without an acknowledgement ends the attempt, and that the acknowledgement of a SYN with the
last sequence number is never accepted (`tcpSynsent_rfc_iff`).
-/

namespace LvlIp.Tcp

open Fec

/-! ## SYN_SENT -/

/-- What has been negotiated with the peer is the same. -/
structure SameOptions (s s' : TcpSock) : Prop where
  smss : s'.smss = s.smss
  sackok : s'.sackok = s.sackok
  sacksAllowed : s'.sacksAllowed = s.sacksAllowed
  tsopt : s'.tsopt = s.tsopt
  fecok : s'.fecok = s.fecok

/-- The attempt has been refused. -/
def Refused (s : TcpSock) : Prop := s.state = .closing ∧ s.err = eConnrefused

/-- A segment that completes the handshake in SYN_SENT. -/
def Tcphdr.Completes (th : Tcphdr) (iss : UInt32) : Prop :=
  th.syn ∧ th.ack ∧ th.rst = false ∧ th.ackSeq = iss + 1

/-- A segment of a simultaneous open. -/
def Tcphdr.Crosses (th : Tcphdr) : Prop := th.syn ∧ th.ack = false ∧ th.rst = false

/-- A segment that refuses the connection. -/
def Tcphdr.Refuses (th : Tcphdr) (iss : UInt32) : Prop := th.rst ∧ th.ack ∧ th.ackSeq = iss + 1

/-- A segment with the header `th` takes a socket in SYN_SENT from `s` to `s'` as RFC 793 says. -/
structure SynsentRfc (s : TcpSock) (th : Tcphdr) (s' : TcpSock) : Prop where
  established : s'.state = .established ↔ th.Completes s.tcb.iss
  synReceived : s'.state = .synReceived ↔ th.Crosses
  refused : Refused s' ↔ th.Refuses s.tcb.iss
  other : ¬ th.Completes s.tcb.iss → ¬ th.Crosses → ¬ th.Refuses s.tcb.iss →
    s'.state = s.state ∧ s'.tcb = s.tcb ∧ SameOptions s s'

section Synsent

variable {env : Env} {s : TcpSock}

/-- **The state after a SYN is accepted.** -/
theorem state_tcpSynsentSyn (s : TcpSock) (th : Tcphdr) : (tcpSynsentSyn env s th).state =
    if s.tcb.iss < (if th.ack then th.ackSeq else s.tcb.sndUna) then .established
    else .synReceived := by
  obtain ⟨hiss, huna⟩ := tcb_tcpSynsentAcked s th
  rw [tcpSynsentSyn_eq, ← huna, ← hiss]
  dsimp only
  generalize tcpSynsentAcked s th = s₁
  split
  · have hconn : ∀ s' : TcpSock, (sockConnected s').state = s'.state := fun _ => rfl
    rw [hconn, state_tcpFecResolve, state_tcpParseOpts, state_eq_of_rcv (rcv_tcpRearmUserTimeout _),
      state_tcpSendAck]
  · rw [tcpSendSynack_of_ne env (by rw [state_tcpParseOpts]; nofun), state_tcpParseOpts]

/-- The acknowledgement numbers that SYN_SENT accepts. -/
theorem synsent_accepts_iff (iss ack : UInt32) :
    ¬ (ack ≤ iss ∨ iss + 1 < ack) ↔ ack = iss + 1 ∧ iss ≠ 4294967295 := by
  have hone : (iss + 1).toNat = (iss.toNat + 1) % 2 ^ 32 := UInt32.toNat_add iss 1
  have hi := iss.toNat_lt
  rw [UInt32.le_iff_toNat_le, UInt32.lt_iff_toNat_lt, ← UInt32.toNat_inj, hone, ne_eq,
    ← UInt32.toNat_inj]
  change _ ↔ _ ∧ ¬ iss.toNat = 4294967295
  omega

/-- **A segment in SYN_SENT**, by its flags: what the code does. -/
theorem tcpSynsent_cases (hst : s.state = .synSent) (huna : s.tcb.sndUna = s.tcb.iss)
    (hnxt : s.tcb.sndNxt = s.tcb.iss + 1) (th : Tcphdr) :
    tcpSynsent env s th =
      if th.ack ∧ ¬ (th.ackSeq = s.tcb.iss + 1 ∧ s.tcb.iss ≠ 4294967295) then s
      else if th.rst then tcpDone { s with err := eConnrefused }
      else if th.syn then tcpSynsentSyn env s th
      else s := by
  have haccept := synsent_accepts_iff s.tcb.iss th.ackSeq
  rw [not_iff_comm] at haccept
  unfold tcpSynsent
  simp only [huna, hnxt, haccept]
  split
  · rfl
  · next hacc =>
    have hacc' : ¬ (th.ack ∧ (th.ackSeq < s.tcb.iss ∨ s.tcb.iss + 1 < th.ackSeq)) :=
      fun h => hacc ⟨h.1, h.2.imp_left UInt32.le_of_lt⟩
    rw [if_neg hacc']
    have hreset : tcpReset s = tcpDone { s with err := eConnrefused } := by
      unfold tcpReset
      rw [hst]
    rw [hreset]
    refine if_congr Iff.rfl rfl ?_
    by_cases hsyn : th.syn
    · rw [if_neg (not_not.mpr hsyn), if_pos hsyn]
    · rw [if_pos hsyn, if_neg hsyn]

/-- Ignoring a segment is right when it is none of the three that matter. -/
theorem synsentRfc_same (hst : s.state = .synSent) (th : Tcphdr) : SynsentRfc s th s ↔
    ¬ th.Completes s.tcb.iss ∧ ¬ th.Crosses ∧ ¬ th.Refuses s.tcb.iss := by
  have hne : ∀ st : TcpState, st ≠ .synSent → s.state ≠ st := fun st h heq => h (heq ▸ hst)
  have hnr : ¬ Refused s := fun h => hne .closing nofun h.1
  constructor
  · intro h
    exact ⟨fun hc => hne .established nofun (h.established.mpr hc),
      fun hx => hne .synReceived nofun (h.synReceived.mpr hx), fun hr => hnr (h.refused.mpr hr)⟩
  · rintro ⟨hc, hx, hr⟩
    exact ⟨iff_of_false (hne _ nofun) hc, iff_of_false (hne _ nofun) hx, iff_of_false hnr hr,
      fun _ _ _ => ⟨rfl, rfl, rfl, rfl, rfl, rfl, rfl⟩⟩

/-- Ending the attempt is right when the segment refuses it. -/
theorem synsentRfc_done (s : TcpSock) (th : Tcphdr) :
    SynsentRfc s th (tcpDone { s with err := eConnrefused }) ↔
      ¬ th.Completes s.tcb.iss ∧ ¬ th.Crosses ∧ th.Refuses s.tcb.iss := by
  have hst : (tcpDone { s with err := eConnrefused }).state = .closing := rfl
  have hr : Refused (tcpDone { s with err := eConnrefused }) := ⟨rfl, rfl⟩
  constructor
  · intro h
    refine ⟨fun hc => ?_, fun hx => ?_, h.refused.mp hr⟩
    · exact nomatch hst.symm.trans (h.established.mpr hc)
    · exact nomatch hst.symm.trans (h.synReceived.mpr hx)
  · rintro ⟨hc, hx, href⟩
    exact ⟨iff_of_false (by rw [hst]; nofun) hc, iff_of_false (by rw [hst]; nofun) hx,
      iff_of_true hr href, fun _ _ h => absurd href h⟩

/-- Moving on is right when the segment is a SYN, and to ESTABLISHED when it completes the
handshake. -/
theorem synsentRfc_open {s' : TcpSock} {th : Tcphdr} (hr : ¬ th.Refuses s.tcb.iss)
    (hest : s'.state = .established ↔ th.Completes s.tcb.iss)
    (hsyn : s'.state = .synReceived ↔ th.Crosses)
    (hst : s'.state = .established ∨ s'.state = .synReceived) : SynsentRfc s th s' := by
  refine ⟨hest, hsyn, iff_of_false (fun h => ?_) hr, fun hc hx _ => ?_⟩
  · have hclosing := h.1
    rcases hst with hst | hst
    · exact nomatch hst.symm.trans hclosing
    · exact nomatch hst.symm.trans hclosing
  · rcases hst with hst | hst
    · exact absurd (hest.mp hst) hc
    · exact absurd (hsyn.mp hst) hx

/-- **SYN_SENT follows RFC 793** exactly when the segment is not a reset without an
acknowledgement, and not the acknowledgement of a SYN that had the last sequence number. -/
theorem tcpSynsent_rfc_iff (env : Env) (s : TcpSock) (hst : s.state = .synSent)
    (huna : s.tcb.sndUna = s.tcb.iss) (hnxt : s.tcb.sndNxt = s.tcb.iss + 1) (th : Tcphdr) :
    SynsentRfc s th (tcpSynsent env s th) ↔
      ¬ (th.rst ∧ th.ack = false) ∧
        ¬ (s.tcb.iss = 4294967295 ∧ th.ack ∧ th.ackSeq = 0 ∧ (th.syn ∨ th.rst)) := by
  have hlast : s.tcb.iss = 4294967295 → s.tcb.iss + 1 = 0 := fun h => by rw [h]; rfl
  have hsame := synsentRfc_same hst th
  unfold Tcphdr.Completes Tcphdr.Crosses Tcphdr.Refuses at hsame
  rw [tcpSynsent_cases hst huna hnxt]
  by_cases hrej : th.ack ∧ ¬ (th.ackSeq = s.tcb.iss + 1 ∧ s.tcb.iss ≠ 4294967295)
  · -- an acknowledgement that is not accepted
    obtain ⟨hack, hno⟩ := hrej
    rw [if_pos ⟨hack, hno⟩, hsame]
    by_cases hseq : th.ackSeq = s.tcb.iss + 1
    · have hmax : s.tcb.iss = 4294967295 := by
        by_contra hmax
        exact hno ⟨hseq, hmax⟩
      rw [hlast hmax] at hseq
      cases hrst : th.rst <;> simp [hack, hseq, hmax]
    · have hzero : ¬ (s.tcb.iss = 4294967295 ∧ th.ackSeq = 0) := by
        rintro ⟨hmax, h0⟩
        exact hseq (h0.trans (hlast hmax).symm)
      refine iff_of_true ?_ ⟨?_, fun h => hzero ⟨h.1, h.2.2.1⟩⟩
      · exact ⟨fun h => hseq h.2.2.2, fun h => Bool.false_ne_true (h.2.1.symm.trans hack),
          fun h => hseq h.2.2⟩
      · exact fun h => Bool.false_ne_true (h.2.symm.trans hack)
  · rw [if_neg hrej]
    have hacc : th.ack → th.ackSeq = s.tcb.iss + 1 ∧ s.tcb.iss ≠ 4294967295 :=
      fun hack => not_not.mp fun h => hrej ⟨hack, h⟩
    have hlow : ¬ (s.tcb.iss = 4294967295 ∧ th.ack ∧ th.ackSeq = 0 ∧ (th.syn ∨ th.rst)) :=
      fun h => (hacc h.2.1).2 h.1
    cases hrst : th.rst with
    | true =>
      rw [if_pos rfl, synsentRfc_done]
      unfold Tcphdr.Completes Tcphdr.Crosses Tcphdr.Refuses
      rw [hrst] at hlow ⊢
      cases hack : th.ack with
      | false => simp
      | true =>
        rw [hack] at hlow
        refine iff_of_true ?_ ⟨nofun, hlow⟩
        exact ⟨fun h => (nomatch h.2.2.1), nofun, rfl, rfl, (hacc hack).1⟩
    | false =>
      rw [if_neg nofun]
      rw [hrst] at hlow
      refine iff_of_true ?_ ⟨nofun, hlow⟩
      have hnr : ¬ th.Refuses s.tcb.iss := fun h => nomatch hrst.symm.trans h.1
      cases hsyn : th.syn with
      | true =>
        rw [if_pos rfl]
        have hstate := @state_tcpSynsentSyn env s th
        rw [huna] at hstate
        cases hack : th.ack with
        | true =>
          obtain ⟨hseq, hmax⟩ := hacc hack
          have hlt : s.tcb.iss < th.ackSeq := by
            have := (synsent_accepts_iff s.tcb.iss th.ackSeq).mpr ⟨hseq, hmax⟩
            exact UInt32.not_le.mp fun h => this (.inl h)
          rw [hack, if_pos rfl, if_pos hlt] at hstate
          exact synsentRfc_open hnr (iff_of_true hstate ⟨hsyn, hack, hrst, hseq⟩)
            (iff_of_false (by rw [hstate]; nofun) fun h => nomatch hack.symm.trans h.2.1)
            (.inl hstate)
        | false =>
          rw [hack, if_neg Bool.false_ne_true, if_neg (UInt32.lt_irrefl _)] at hstate
          exact synsentRfc_open hnr
            (iff_of_false (by rw [hstate]; nofun) fun h => nomatch hack.symm.trans h.2.1)
            (iff_of_true hstate ⟨hsyn, hack, hrst⟩) (.inr hstate)
      | false =>
        rw [if_neg nofun, synsentRfc_same hst]
        exact ⟨fun h => (nomatch hsyn.symm.trans h.1), fun h => (nomatch hsyn.symm.trans h.1), hnr⟩

end Synsent

/-- A socket in SYN_SENT that has drawn `iss`. -/
def sentAt (iss : UInt32) : TcpSock := inetStreamConnect quietLink tcpAllocSock iss

/-- The acknowledgement of the SYN. -/
theorem tcpSynsent_rfc_small :
    SynsentRfc (sentAt 100) { Tcphdr.zero with syn := true, ack := true, ackSeq := 101 }
      (tcpSynsent quietLink (sentAt 100)
        { Tcphdr.zero with syn := true, ack := true, ackSeq := 101 }) :=
  (tcpSynsent_rfc_iff quietLink (sentAt 100) rfl rfl rfl _).mpr (by decide)

/-- A reset that acknowledges nothing ends the attempt. -/
theorem not_tcpSynsent_rfc_blind :
    ¬ SynsentRfc (sentAt 100) { Tcphdr.zero with rst := true }
      (tcpSynsent quietLink (sentAt 100) { Tcphdr.zero with rst := true }) := by
  intro h
  have hst : (tcpSynsent quietLink (sentAt 100) { Tcphdr.zero with rst := true }).state =
      .closing := by decide +kernel
  obtain ⟨hsame, -⟩ := h.other (fun h => nomatch h.1) (fun h => nomatch h.1) (fun h => nomatch h.2.1)
  rw [hst] at hsame
  cases hsame

end LvlIp.Tcp
