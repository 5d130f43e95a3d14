import LvlIp.Handshake.Pair
import LvlIp.Tcp.Walk

/-!
# What a SYN offers

The options of a SYN are at most sixteen bytes, fill their area, and the walk reads back what has
been written (`SynOptions`). Every SYN of a socket offers what the socket had at the start, so a socket
that accepts one settles on SACK and FEC exactly when both have offered it (`agreed_of_synOptions`).
-/

namespace LvlIp.Tcp

open Fec

/-! ## The options of a SYN -/

/-- The MSS option. -/
def Opt.maxSeg (mss : UInt16) : Opt :=
  .tlv 2 (be16 mss) (Nat.le_refl 2) (Nat.le_of_ble_eq_true rfl)

/-- The FEC-permitted option with the local geometry. -/
def Opt.fecPerm : Opt :=
  .tlv tcpOptFecPerm (tcpOptFecPermBytes.drop 2) (Nat.le_of_ble_eq_true rfl)
    (Nat.le_of_ble_eq_true rfl)

/-- The SACK-permitted option. -/
def Opt.sackPerm : Opt := .tlv 4 [] (Nat.le_of_ble_eq_true rfl) (Nat.le_of_ble_eq_true rfl)

/-- The options of a SYN, one by one. -/
def TcpOptions.list (o : TcpOptions) : List Opt :=
  .maxSeg o.mss :: ((if o.fec then [.fecPerm] else []) ++
    if o.sack then [.noop, .noop, .sackPerm] else [])

/-- What the walk should find in the options of a SYN. -/
def TcpOptions.parsed (o : TcpOptions) : TcpParsedOpts where
  sackOk := o.sack
  tsSeen := false
  fecPerm := o.fec
  mss := if 536 < o.mss ∧ o.mss ≤ 1460 then o.mss else 0

theorem ntohs_be16 (x : UInt16) : ntohs (be16 x) 0 = x := by
  have hx := x.toNat_lt
  rw [← UInt16.toNat_inj]
  simp [ntohs, be16]
  omega

theorem Opt.note_maxSeg (mss : UInt16) (out : TcpParsedOpts) :
    (Opt.maxSeg mss).note out =
      { out with mss := if 536 < mss ∧ mss ≤ 1460 then mss else out.mss } := by
  have hread : ntohs (Opt.maxSeg mss).bytes 2 = mss := ntohs_be16 mss
  change (if (4 : ℕ) = 4 ∧ 536 < ntohs (Opt.maxSeg mss).bytes 2 ∧
    ntohs (Opt.maxSeg mss).bytes 2 ≤ 1460 then
      { out with mss := ntohs (Opt.maxSeg mss).bytes 2 } else out) = _
  rw [hread]
  simp only [true_and]
  split <;> rfl

theorem Opt.note_fecPermOpt (out : TcpParsedOpts) :
    Opt.fecPerm.note out = { out with fecPerm := true } := rfl

theorem Opt.note_sackPerm (out : TcpParsedOpts) :
    Opt.sackPerm.note out = { out with sackOk := true } := rfl

section Syn

variable (o : TcpOptions) (s : TcpSock) (ack : Bool)

theorem serialise_list : serialise o.list = tcpSynOptionBytes o := by
  have hmss : (Opt.maxSeg o.mss).bytes = [2, 4] ++ be16 o.mss := rfl
  have hfec : Opt.fecPerm.bytes = tcpOptFecPermBytes := rfl
  have hsack : Opt.sackPerm.bytes = [4, 2] := rfl
  have hnoop : Opt.noop.bytes = [1] := rfl
  unfold TcpOptions.list tcpSynOptionBytes
  cases o.fec <;> cases o.sack <;> simp [hmss, hfec, hsack, hnoop]

theorem foldl_note_list : o.list.foldl Opt.note .zero = o.parsed := by
  unfold TcpOptions.list TcpOptions.parsed
  rw [List.foldl_cons, Opt.note_maxSeg]
  cases o.fec <;> cases o.sack <;>
    simp [Opt.note_fecPermOpt, Opt.note_sackPerm, Opt.note_noop, TcpParsedOpts.zero]

theorem length_tcpSynOptionBytes : (tcpSynOptionBytes o).length =
    4 + (if o.fec then tcpOptlenFecPerm else 0) + if o.sack then 4 else 0 := by
  unfold tcpSynOptionBytes
  cases o.fec <;> cases o.sack <;> rfl

/-- SACK and FEC are offered as the socket has them; there is room for both. -/
theorem tcpSynOptions_eq : tcpSynOptions s =
    ({ mss := s.rmss, sack := s.sackok ≠ 0, fec := s.fecok ≠ 0 },
      (tcpSynOptionBytes { mss := s.rmss, sack := s.sackok ≠ 0, fec := s.fecok ≠ 0 }).length) := by
  rw [length_tcpSynOptionBytes]
  unfold tcpSynOptions tcpOptMax tcpOptlenFecPerm
  by_cases hsack : s.sackok = 0 <;> by_cases hfec : s.fecok = 0 <;> simp [hsack, hfec]

/-- The header `th` carries the options of a SYN of `s`: they are short, fill the area that the
header length leaves, and are read back. -/
structure SynOptions (s : TcpSock) (th : Tcphdr) : Prop where
  data : th.data = tcpSynOptionBytes { mss := s.rmss, sack := s.sackok ≠ 0, fec := s.fecok ≠ 0 }
  length_le : th.data.length ≤ tcpOptMax
  aligned : 4 ∣ th.data.length
  fills : tcpHlen th = tcpHdrLen + th.data.length
  read : tcpWalkOptions th.data (tcpOptAreaLen th) .zero =
    TcpOptions.parsed { mss := s.rmss, sack := s.sackok ≠ 0, fec := s.fecok ≠ 0 }
  parse : ∀ s' : TcpSock, tcpParseOpts s' th = tcpApplyOpts s'
    (TcpOptions.parsed { mss := s.rmss, sack := s.sackok ≠ 0, fec := s.fecok ≠ 0 })

/-- **The options of a SYN.** -/
theorem synOptions_tcpSynHeader : SynOptions s (tcpSynHeader s ack) := by
  have hopts := tcpSynOptions_eq s
  generalize ho : ({ mss := s.rmss, sack := s.sackok ≠ 0, fec := s.fecok ≠ 0 } : TcpOptions) = o
    at hopts
  have hdata : (tcpSynHeader s ack).data = tcpSynOptionBytes o := by
    change tcpSynOptionBytes (tcpSynOptions s).1 ++
      List.replicate ((tcpSynOptions s).2 - (tcpSynOptionBytes (tcpSynOptions s).1).length) 1 = _
    rw [hopts]
    simp
  have hhl : (tcpSynHeader s ack).hl = tcpDoffset + (tcpSynOptionBytes o).length / 4 := by
    change tcpDoffset + (tcpSynOptions s).2 / 4 = _
    rw [hopts]
  have hlen : (tcpSynOptionBytes o).length ≤ 16 ∧ 4 ∣ (tcpSynOptionBytes o).length := by
    rw [length_tcpSynOptionBytes]
    cases o.fec <;> cases o.sack <;> decide
  obtain ⟨hle, haligned⟩ := hlen
  have hfills : tcpHlen (tcpSynHeader s ack) = tcpHdrLen + (tcpSynOptionBytes o).length := by
    unfold tcpHlen
    rw [hhl]
    unfold tcpDoffset tcpHdrLen
    omega
  have harea : tcpOptAreaLen (tcpSynHeader s ack) = (tcpSynOptionBytes o).length := by
    unfold tcpOptAreaLen
    rw [hfills]
    omega
  have hread : tcpWalkOptions (tcpSynHeader s ack).data (tcpOptAreaLen (tcpSynHeader s ack)) .zero =
      o.parsed := by
    have hwalk := tcpWalkOptions_serialise .nothing o.list [] .zero
    rw [List.append_nil, List.append_nil, serialise_list, foldl_note_list] at hwalk
    rw [harea, hdata, hwalk]
  subst ho
  exact {
    data := hdata
    length_le := by rw [hdata]; exact hle.trans (by decide)
    aligned := by rw [hdata]; exact haligned
    fills := by rw [hdata]; exact hfills
    read := hread
    parse := fun s' => by rw [tcpParseOpts_eq, hread] }

theorem SynOptions.of_eq {th th' : Tcphdr} (h : SynOptions s th) (hdata : th'.data = th.data)
    (hhl : th'.hl = th.hl) : SynOptions s th' := by
  have hlen : tcpHlen th' = tcpHlen th := congrArg (4 * ·) hhl
  have harea : tcpOptAreaLen th' = tcpOptAreaLen th := by
    unfold tcpOptAreaLen
    rw [hlen]
  have hread : tcpWalkOptions th'.data (tcpOptAreaLen th') .zero =
      tcpWalkOptions th.data (tcpOptAreaLen th) .zero := by rw [hdata, harea]
  have hparse : ∀ s' : TcpSock, tcpParseOpts s' th' = tcpParseOpts s' th := by
    intro s'
    rw [tcpParseOpts_eq, tcpParseOpts_eq, hread]
  exact {
    data := hdata.trans h.data
    length_le := hdata ▸ h.length_le
    aligned := hdata ▸ h.aligned
    fills := by rw [hlen, hdata]; exact h.fills
    read := hread.trans h.read
    parse := fun s' => (hparse s').trans (h.parse s') }

end Syn

/-! ## Agreement -/

section Agree

variable {env : Bool → Env} {p₀ p : Pair}

/-- Every SYN of a socket carries the options that the socket had at the start. -/
theorem SideInv.synOptions {s₀ s : TcpSock} (h : SideInv s₀ s) {t : Transmission}
    (ht : t ∈ s.out) (hsyn : t.seg.th.syn) : SynOptions s₀ t.seg.th := by
  obtain ⟨ackSeq, hseg⟩ := h.syns t ht hsyn
  rw [hseg]
  exact (synOptions_tcpSynHeader s₀ false).of_eq s₀ rfl rfl

/-- What is settled when a SYN of the other side is accepted. -/
theorem agreed_of_synOptions {s₀ s o : TcpSock} (hoffers : Offers s₀ s) {th : Tcphdr}
    (h : SynOptions o th) :
    ((s.agreed th).sackok ≠ 0 ↔ s₀.sackok ≠ 0 ∧ o.sackok ≠ 0) ∧
      ((s.agreed th).fecok ≠ 0 ↔ s₀.fecok ≠ 0 ∧ o.fecok ≠ 0) := by
  have hopts : th.opts = TcpOptions.parsed
      { mss := o.rmss, sack := o.sackok ≠ 0, fec := o.fecok ≠ 0 } := h.read
  unfold TcpSock.agreed
  rw [hopts, hoffers.sackok, hoffers.fecok]
  unfold TcpOptions.parsed
  by_cases hsack : o.sackok = 0 <;> by_cases hsack₀ : s₀.sackok = 0 <;>
    by_cases hfec : o.fecok = 0 <;> by_cases hfec₀ : s₀.fecok = 0 <;>
    simp [hsack, hsack₀, hfec, hfec₀]

/-- Where data is exchanged the connection is open. -/
theorem SideInv.fecResolved {s₀ s : TcpSock} (h : SideInv s₀ s) : FecResolved s := by
  rcases h.phase with ⟨hc, -⟩ | ⟨hc, -⟩ | hc
  · exact hc.fecResolved
  · exact hc.fecResolved
  · exact hc.fec

end Agree

end LvlIp.Tcp
