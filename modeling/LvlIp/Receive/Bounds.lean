import LvlIp.Tcp.Datagram
import LvlIp.Receive.SackSound

/-!
# The bounds of the FEC input

The FEC section runs before any check of a segment, on lengths taken from its headers. Its indices
and the slots it touches are always in range (`inBounds_tcpFecRxRecoverAccess`): the index is
compared with the geometry and the block size of the wire is capped. Its lengths are in range as
far as the datagram holds what its headers announce (`fecInBounds_iff`): a source segment whose data
offset reaches past its total length is copied with a negative length, and a total length larger
than the frame makes the copy leave it. The pointer `tsk->fec` lies behind the SACK blocks; it is
whole unless one has been stored over it, which takes a coded segment that announces a block with a
symbol at sequence number 0 (`fecWhole_run`).
-/

namespace LvlIp.Tcp

open Fec

/-- The access stays inside: the FEC state of the socket, the `n` bytes received, the symbol length,
the symbols of the block, the arrays. -/
def Access.InBounds (s : TcpSock) (n : ℕ) (fec : TcpFec) : Access → Prop
  | .fec => s.FecWhole
  | .segment off len => len = 0 ∨ off + len ≤ n
  | .copy len => 0 ≤ len ∧ len ≤ fec.symLen
  | .symbol off len => off < (fec.k + fec.r) * fec.symLen ∧
      off + len ≤ (fec.k + fec.r) * fec.symLen
  | .srcPresent i => i < fecBlkMaxK
  | .redPresent j => j < fecBlkMaxR
  | .out i => i < fecBlkMaxK

/-- **Every access of the FEC input stays in bounds.** -/
def FecInBounds (s : TcpSock) (fec : TcpFec) (d : Datagram) : Prop :=
  ∀ a ∈ tcpInitSegmentAccess ++ tcpFecInputAccess fec d, a.InBounds s d.bytes.length fec

/-! ## What does not depend on the lengths -/

/-- The geometry that a block ring is built for. -/
structure GeometryOk (fec : TcpFec) : Prop where
  codec : fecGeometryOk fec.k fec.r
  symLen : 0 < fec.symLen

section Indices

variable {s : TcpSock} {fec : TcpFec} {n : ℕ}

theorem GeometryOk.k_le (h : GeometryOk fec) : fec.k ≤ fecBlkMaxK := by
  have := h.codec.1
  omega

theorem GeometryOk.r_le (h : GeometryOk fec) : fec.r ≤ fecBlkMaxR := by
  have := h.codec.2.1
  omega

theorem GeometryOk.symbol (h : GeometryOk fec) {i len : ℕ} (hi : i < fec.k + fec.r)
    (hlen : len ≤ fec.symLen) : (Access.symbol (i * fec.symLen) len).InBounds s n fec := by
  have hpos := h.symLen
  have hle : (i + 1) * fec.symLen ≤ (fec.k + fec.r) * fec.symLen := Nat.mul_le_mul_right _ hi
  rw [Nat.add_mul, Nat.one_mul] at hle
  exact ⟨by omega, by omega⟩

/-- The accesses of a loop over the symbols of a block. -/
theorem inBounds_flatMap {m : ℕ} {f : ℕ → List Access}
    (h : ∀ i < m, ∀ a ∈ f i, a.InBounds s n fec) :
    ∀ a ∈ (List.range m).flatMap f, a.InBounds s n fec := by
  intro a ha
  obtain ⟨i, hi, ha⟩ := List.mem_flatMap.mp ha
  exact h i (List.mem_range.mp hi) a ha

theorem spliceLen_le (blk : TcpFecBlockRx) (fec : TcpFec) (k i : ℕ) :
    blk.spliceLen fec k i ≤ fec.symLen := by
  unfold TcpFecBlockRx.spliceLen
  split
  · next h => exact h.2.2.le
  · exact le_rfl

/-- **Recovery stays in bounds**, whatever the block size of the wire. -/
theorem inBounds_tcpFecRxRecoverAccess (h : GeometryOk fec) (blk : TcpFecBlockRx) :
    ∀ a ∈ tcpFecRxRecoverAccess fec blk, a.InBounds s n fec := by
  unfold tcpFecRxRecoverAccess
  dsimp only
  generalize blk.count fec = k
  split
  · exact List.forall_mem_nil _
  · split
    · exact List.forall_mem_nil _
    · next hk =>
      have hle : k ≤ fec.k := not_lt.mp (not_or.mp hk).2
      have hsrc : ∀ i < k, (Access.srcPresent i).InBounds s n fec := fun i hi =>
        (hi.trans_le hle).trans_le h.k_le
      have hred : ∀ j < fec.r, (Access.redPresent j).InBounds s n fec := fun j hj =>
        hj.trans_le h.r_le
      have hsym : ∀ i < k, ∀ len ≤ fec.symLen,
          (Access.symbol (i * fec.symLen) len).InBounds s n fec := fun i hi len hlen =>
        h.symbol (by omega) hlen
      have hcounted : ∀ a ∈ (List.range k).map Access.srcPresent, a.InBounds s n fec := by
        intro a ha
        obtain ⟨i, hi, rfl⟩ := List.mem_map.mp ha
        exact hsrc i (List.mem_range.mp hi)
      split
      · exact hcounted
      · split
        · exact hcounted
        · refine List.forall_mem_append.mpr ⟨List.forall_mem_append.mpr
            ⟨List.forall_mem_append.mpr ⟨hcounted, ?_⟩, ?_⟩, ?_⟩
          · refine inBounds_flatMap fun i hi => List.forall_mem_cons.mpr ⟨hsrc i hi, ?_⟩
            split
            · exact List.forall_mem_singleton.mpr (hsym i hi _ le_rfl)
            · exact List.forall_mem_nil _
          · refine inBounds_flatMap fun j hj => List.forall_mem_cons.mpr ⟨hred j hj, ?_⟩
            split
            · exact List.forall_mem_singleton.mpr (h.symbol (by omega) le_rfl)
            · exact List.forall_mem_nil _
          · split
            · exact List.forall_mem_nil _
            · refine List.forall_mem_append.mpr ⟨?_, ?_⟩
              · refine inBounds_flatMap fun i hi =>
                  List.forall_mem_cons.mpr ⟨hsrc i hi, List.forall_mem_cons.mpr ⟨hsrc i hi, ?_⟩⟩
                split
                · exact List.forall_mem_nil _
                · exact List.forall_mem_singleton.mpr (hsym i hi _ le_rfl)
              · split
                · exact List.forall_mem_nil _
                · refine inBounds_flatMap fun i hi => List.forall_mem_cons.mpr ⟨hsrc i hi, ?_⟩
                  split
                  · exact List.forall_mem_nil _
                  · exact List.forall_mem_cons.mpr ⟨hsym i hi _ (spliceLen_le blk fec k i),
                      List.forall_mem_singleton.mpr (hsrc i hi)⟩

end Indices

/-! ## The lengths -/

/-- The length of the text that the headers of a datagram announce. -/
def Datagram.textLen (d : Datagram) : ℤ := ipLen d.bytes - tcpHlen d.th

theorem tcpHlen_th_le (d : Datagram) : tcpHlen d.th ≤ 60 := by
  have := (d.bytes.getD (ipHdrLen + 12) 0).toNat_lt
  change 4 * ((d.bytes.getD (ipHdrLen + 12) 0).toNat / 16) ≤ 60
  omega

/-- The detour of the length over an unsigned field loses nothing. -/
theorem toInt_dlen (d : Datagram) : d.dlen.toInt = d.textLen := by
  have hh := tcpHlen_th_le d
  have hl := (ntohs d.bytes 2).toNat_lt
  have hi : ipIhl d.bytes < 16 := Nat.mod_lt _ (by decide)
  unfold Datagram.dlen
  rw [BitVec.toInt_ofInt]
  change Int.bmod d.textLen (2 ^ 32) = d.textLen
  unfold Datagram.textLen ipLen
  refine Int.bmod_eq_of_le ?_ ?_ <;> omega

/-- The number of bytes that a source segment copies. -/
def Datagram.copied (d : Datagram) (fec : TcpFec) : ℤ := min d.textLen fec.symLen

/-- **The datagram holds what its headers announce**, as far as the FEC section uses it: the fixed
part of the TCP header, the first bytes of its options, the FEC option; for a source symbol that is
not registered yet, a text of a length that is not negative, and its first `sym_len` bytes; for a
repair symbol with room for its parity, the repair header, and the parity if it is not registered
yet. -/
structure Announced (fec : TcpFec) (d : Datagram) : Prop where
  header : ipHdrLen + tcpHdrLen ≤ d.bytes.length
  kind : tcpHdrLen + tcpOptlenFec ≤ tcpHlen d.th → ipHdrLen + tcpHdrLen + 1 ≤ d.bytes.length
  len : tcpHdrLen + tcpOptlenFec ≤ tcpHlen d.th → d.th.data.getD 0 0 = tcpOptFec →
    ipHdrLen + tcpHdrLen + 2 ≤ d.bytes.length
  option : hasFecOption d.th → ipHdrLen + tcpHdrLen + tcpOptlenFec ≤ d.bytes.length
  source : hasFecOption d.th → (TcpOptFec.read d.th.data).type = FecSymType.source.toByte →
    (TcpOptFec.read d.th.data).index.toNat < fec.k →
    (tcpFecRxSlot fec (TcpOptFec.read d.th.data).blockId).2.srcPresent.getD
      (TcpOptFec.read d.th.data).index.toNat false = false →
    0 ≤ d.textLen ∧ (d.textLen = 0 ∨ d.payloadOff + d.copied fec ≤ d.bytes.length)
  repair : hasFecOption d.th → (TcpOptFec.read d.th.data).type = FecSymType.repair.toByte →
    (TcpOptFec.read d.th.data).index.toNat < fec.r →
    (fecRepairHdrLen + fec.symLen : ℕ) ≤ d.textLen →
    d.payloadOff + fecRepairHdrLen ≤ d.bytes.length ∧
    ((tcpFecRxSlot fec (TcpOptFec.read d.th.data).blockId).2.redPresent.getD
        (TcpOptFec.read d.th.data).index.toNat false = false →
      d.payloadOff + fecRepairHdrLen + fec.symLen ≤ d.bytes.length)

section Lengths

variable {s : TcpSock} {fec : TcpFec}

theorem inBounds_tcpFecSourceAccess (h : GeometryOk fec) (d : Datagram) (blk : TcpFecBlockRx)
    (idx : ℕ) :
    (∀ a ∈ tcpFecSourceAccess fec d blk idx, a.InBounds s d.bytes.length fec) ↔
      (idx < fec.k → blk.srcPresent.getD idx false = false →
        0 ≤ d.textLen ∧ (d.textLen = 0 ∨ d.payloadOff + d.copied fec ≤ d.bytes.length)) := by
  have hpos := h.symLen
  have hk := h.k_le
  unfold tcpFecSourceAccess
  dsimp only
  rw [toInt_dlen]
  have hcopied : (if (fec.symLen : ℤ) < d.textLen then (fec.symLen : ℤ) else d.textLen) =
      d.copied fec := by
    unfold Datagram.copied
    split <;> omega
  rw [hcopied]
  by_cases hidx : fec.k ≤ idx
  · rw [if_pos hidx]
    exact iff_of_true (List.forall_mem_nil _) fun hlt => absurd hlt (not_lt.mpr hidx)
  · have hlt : idx < fec.k := not_le.mp hidx
    have hsrc : (Access.srcPresent idx).InBounds s d.bytes.length fec := hlt.trans_le hk
    rw [if_neg hidx, List.cons_append, List.forall_mem_cons, List.forall_mem_append,
      and_iff_right hsrc, and_iff_left (inBounds_tcpFecRxRecoverAccess h _), imp_iff_right hlt]
    cases blk.srcPresent.getD idx false with
    | true => exact iff_of_true (List.forall_mem_nil _) nofun
    | false =>
      rw [if_neg Bool.false_ne_true, imp_iff_right rfl]
      have hle : d.copied fec ≤ fec.symLen := min_le_right _ _
      have hnonneg : 0 ≤ d.copied fec ↔ 0 ≤ d.textLen := by
        unfold Datagram.copied
        omega
      have hzero : d.copied fec = 0 ↔ d.textLen = 0 := by
        unfold Datagram.copied
        omega
      have hslot : ∀ len ≤ fec.symLen,
          (Access.symbol (idx * fec.symLen) len).InBounds s d.bytes.length fec := fun len hlen =>
        h.symbol (by omega) hlen
      rw [← hnonneg, ← hzero]
      generalize d.copied fec = copied at hle
      constructor
      · intro hall
        have hcopy := hall (.copy copied) (by simp)
        have hseg := hall (.segment d.payloadOff copied.toNat) (by simp)
        refine ⟨hcopy.1, hseg.imp (fun h0 => ?_) fun hend => ?_⟩
        · have := hcopy.1
          omega
        · have := hcopy.1
          omega
      · rintro ⟨h0, hend⟩
        have hseg : (Access.segment d.payloadOff copied.toNat).InBounds s d.bytes.length fec :=
          hend.imp (fun h0 => by omega) fun hend => by omega
        simp only [List.forall_mem_cons, List.not_mem_nil, false_implies, implies_true, and_true]
        exact ⟨hslot _ le_rfl, ⟨h0, hle⟩, hseg, hslot _ (by omega), hsrc⟩

theorem inBounds_tcpFecRepairAccess (h : GeometryOk fec) (d : Datagram) (blk : TcpFecBlockRx)
    (idx : ℕ) :
    (∀ a ∈ tcpFecRepairAccess fec d blk idx, a.InBounds s d.bytes.length fec) ↔
      (idx < fec.r → (fecRepairHdrLen + fec.symLen : ℕ) ≤ d.textLen →
        d.payloadOff + fecRepairHdrLen ≤ d.bytes.length ∧
        (blk.redPresent.getD idx false = false →
          d.payloadOff + fecRepairHdrLen + fec.symLen ≤ d.bytes.length)) := by
  have hpos := h.symLen
  have hr := h.r_le
  unfold tcpFecRepairAccess
  dsimp only
  rw [toInt_dlen]
  by_cases hdrop : d.textLen < (fecRepairHdrLen + fec.symLen : ℕ) ∨ fec.r ≤ idx
  · rw [if_pos hdrop]
    refine iff_of_true (List.forall_mem_nil _) fun hlt hlen => ?_
    rcases hdrop with hshort | hidx
    · exact absurd hlen (not_le.mpr hshort)
    · exact absurd hlt (not_lt.mpr hidx)
  · obtain ⟨hlen, hidx⟩ := not_or.mp hdrop
    have hlt : idx < fec.r := not_le.mp hidx
    have hred : (Access.redPresent idx).InBounds s d.bytes.length fec := hlt.trans_le hr
    have hslot : (Access.symbol ((fec.k + idx) * fec.symLen) fec.symLen).InBounds s d.bytes.length
        fec := h.symbol (by omega) le_rfl
    have hcopy : (Access.copy fec.symLen).InBounds s d.bytes.length fec :=
      ⟨Int.natCast_nonneg _, le_rfl⟩
    rw [if_neg hdrop, List.forall_mem_append, List.forall_mem_append,
      and_iff_left (inBounds_tcpFecRxRecoverAccess h _), imp_iff_right hlt,
      imp_iff_right (not_lt.mp hlen)]
    refine and_congr ?_ ?_
    · -- the last byte that is read of the header is that of `tail_len`
      simp only [List.forall_mem_cons, List.not_mem_nil, false_implies, implies_true, and_true,
        hred]
      simp only [Access.InBounds, fecRepairHdrLen]
      omega
    · cases blk.redPresent.getD idx false with
      | true => exact iff_of_true (List.forall_mem_nil _) nofun
      | false =>
        rw [if_neg Bool.false_ne_true, imp_iff_right rfl]
        simp only [List.forall_mem_cons, List.not_mem_nil, false_implies, implies_true, and_true,
          hred, hslot, hcopy, true_and]
        simp only [Access.InBounds]
        omega

theorem hasFecOption_iff (th : Tcphdr) : hasFecOption th ↔
    (¬ tcpHlen th < tcpHdrLen + tcpOptlenFec) ∧ th.data.getD 0 0 = tcpOptFec ∧
      th.data.getD 1 0 = UInt8.ofNat tcpOptlenFec := by
  unfold hasFecOption
  rw [Bool.and_eq_true, Bool.and_eq_true, decide_eq_true_iff, beq_iff_eq, beq_iff_eq, not_lt,
    and_assoc]

theorem announced_of_untagged {d : Datagram} (hno : ¬ hasFecOption d.th) : Announced fec d ↔
    ipHdrLen + tcpHdrLen ≤ d.bytes.length ∧
    (tcpHdrLen + tcpOptlenFec ≤ tcpHlen d.th → ipHdrLen + tcpHdrLen + 1 ≤ d.bytes.length ∧
      (d.th.data.getD 0 0 = tcpOptFec → ipHdrLen + tcpHdrLen + 2 ≤ d.bytes.length)) := by
  constructor
  · exact fun h => ⟨h.header, fun hlen => ⟨h.kind hlen, h.len hlen⟩⟩
  · rintro ⟨hheader, hopts⟩
    exact ⟨hheader, fun hlen => (hopts hlen).1, fun hlen => (hopts hlen).2,
      fun h => absurd h hno, fun h => absurd h hno, fun h => absurd h hno⟩

theorem announced_of_tagged (h : GeometryOk fec) {d : Datagram} (htag : hasFecOption d.th) :
    Announced fec d ↔ ipHdrLen + tcpHdrLen + tcpOptlenFec ≤ d.bytes.length ∧
    ((TcpOptFec.read d.th.data).type = FecSymType.source.toByte →
      ∀ a ∈ tcpFecSourceAccess fec d (tcpFecRxSlot fec (TcpOptFec.read d.th.data).blockId).2
        (TcpOptFec.read d.th.data).index.toNat, a.InBounds s d.bytes.length fec) ∧
    ((TcpOptFec.read d.th.data).type = FecSymType.repair.toByte →
      ∀ a ∈ tcpFecRepairAccess fec d (tcpFecRxSlot fec (TcpOptFec.read d.th.data).blockId).2
        (TcpOptFec.read d.th.data).index.toNat, a.InBounds s d.bytes.length fec) := by
  rw [inBounds_tcpFecSourceAccess h, inBounds_tcpFecRepairAccess h]
  constructor
  · exact fun hrec => ⟨hrec.option htag, hrec.source htag, hrec.repair htag⟩
  · rintro ⟨hoption, hsource, hrepair⟩
    have hfixed : ipHdrLen + tcpHdrLen + 2 ≤ d.bytes.length :=
      (Nat.add_le_add_left (by decide) _).trans hoption
    exact ⟨by omega, fun _ => by omega, fun _ _ => hfixed, fun _ => hoption, fun _ => hsource,
      fun _ => hrepair⟩

/-- **The FEC input stays in bounds exactly when the FEC state is whole and the datagram holds what its
headers announce.** -/
theorem fecInBounds_of_geometry (h : GeometryOk fec) (d : Datagram) :
    FecInBounds s fec d ↔ s.FecWhole ∧ Announced fec d := by
  have hopt := hasFecOption_iff d.th
  have hne : FecSymType.source.toByte ≠ FecSymType.repair.toByte := by decide
  have hseg : ∀ off len, 0 < len →
      ((Access.segment off len).InBounds s d.bytes.length fec ↔ off + len ≤ d.bytes.length) :=
    fun off len hlen => or_iff_right hlen.ne'
  have hhdr : tcpHdrLen = 20 := rfl
  have holen : tcpOptlenFec = 8 := rfl
  unfold FecInBounds tcpInitSegmentAccess tcpFecInputAccess
  dsimp only
  rw [List.singleton_append, List.forall_mem_cons, List.forall_mem_cons, List.forall_mem_cons,
    hseg _ _ (by decide), hseg _ _ (by decide), and_left_comm]
  refine and_congr_right fun _ => ?_
  by_cases hshort : tcpHlen d.th < tcpHdrLen + tcpOptlenFec
  · rw [if_pos hshort, announced_of_untagged fun htag => (hopt.mp htag).1 hshort,
      imp_iff_not_or, or_iff_left_of_imp fun _ => not_le.mpr hshort]
    refine and_congr_right fun hheader => iff_of_true ⟨by omega, List.forall_mem_nil _⟩ ?_
    exact not_le.mpr hshort
  · rw [if_neg hshort, List.forall_mem_cons, hseg _ _ (by decide)]
    by_cases hkind : d.th.data.getD 0 0 = tcpOptFec
    · rw [if_neg (not_not.mpr hkind), List.forall_mem_cons, hseg _ _ (by decide)]
      by_cases hlen : d.th.data.getD 1 0 = UInt8.ofNat tcpOptlenFec
      · rw [if_neg (not_not.mpr hlen), List.forall_mem_cons, List.forall_mem_cons,
          hseg _ _ (by decide), hseg _ _ (by decide),
          announced_of_tagged h (hopt.mpr ⟨hshort, hkind, hlen⟩)]
        -- the option is read to its end, so its bytes before it are in
        have hread : ∀ P : Prop, (ipHdrLen + tcpHdrLen ≤ d.bytes.length ∧
            ipHdrLen + 12 + 1 ≤ d.bytes.length ∧ ipHdrLen + tcpHdrLen + 1 ≤ d.bytes.length ∧
            ipHdrLen + tcpHdrLen + 1 + 1 ≤ d.bytes.length ∧
            ipHdrLen + tcpHdrLen + 4 + 4 ≤ d.bytes.length ∧
            ipHdrLen + tcpHdrLen + 2 + 1 ≤ d.bytes.length ∧ P) ↔
            ipHdrLen + tcpHdrLen + tcpOptlenFec ≤ d.bytes.length ∧ P := by
          intro P
          constructor
          · rintro ⟨-, -, -, -, hend, -, hP⟩
            exact ⟨hend, hP⟩
          · rintro ⟨hend, hP⟩
            exact ⟨by omega, by omega, by omega, by omega, by omega, by omega, hP⟩
        rw [hread]
        refine and_congr_right fun hend => ?_
        have hindex : (Access.segment (ipHdrLen + tcpHdrLen + 3) 1).InBounds s d.bytes.length fec :=
          .inr (by omega)
        by_cases hsource : (TcpOptFec.read d.th.data).type = FecSymType.source.toByte
        · rw [if_pos hsource, List.forall_mem_cons, and_iff_right hindex, imp_iff_right hsource]
          exact (and_iff_left fun hrepair => absurd (hsource.symm.trans hrepair) hne).symm
        · rw [if_neg hsource]
          by_cases hrepair : (TcpOptFec.read d.th.data).type = FecSymType.repair.toByte
          · rw [if_pos hrepair, List.forall_mem_cons, and_iff_right hindex, imp_iff_right hrepair]
            exact (and_iff_right fun h => absurd h hsource).symm
          · rw [if_neg hrepair]
            exact iff_of_true (List.forall_mem_nil _)
              ⟨fun h => absurd h hsource, fun h => absurd h hrepair⟩
      · rw [if_pos hlen, announced_of_untagged fun htag => hlen (hopt.mp htag).2.2,
          imp_iff_right (not_lt.mp hshort), imp_iff_right hkind]
        constructor
        · rintro ⟨hheader, -, hk, hl, -⟩
          exact ⟨hheader, hk, hl⟩
        · rintro ⟨hheader, hk, hl⟩
          exact ⟨hheader, by omega, hk, hl, List.forall_mem_nil _⟩
    · rw [if_pos hkind, announced_of_untagged fun htag => hkind (hopt.mp htag).2.1,
        imp_iff_right (not_lt.mp hshort)]
      constructor
      · rintro ⟨hheader, -, hk, -⟩
        exact ⟨hheader, hk, fun h => absurd h hkind⟩
      · rintro ⟨hheader, hk, -⟩
        exact ⟨hheader, by omega, hk, List.forall_mem_nil _⟩

end Lengths

/-! ## The geometry of a reachable socket -/

theorem geometryOk_tcpFecFresh : GeometryOk tcpFecFresh := ⟨geometry_default, by decide⟩

/-- Only `tcp_fec_enable` sets the geometry. -/
theorem GeometryOk.of_eq {fec fec' : TcpFec} (h : GeometryOk fec) (hk : fec'.k = fec.k)
    (hr : fec'.r = fec.r) (hsym : fec'.symLen = fec.symLen) : GeometryOk fec' := by
  refine ⟨?_, ?_⟩
  · rw [hk, hr]
    exact h.codec
  · rw [hsym]
    exact h.symLen

/-- A valid geometry. -/
def validGeometry : RingProp where
  holds := GeometryOk
  fresh := geometryOk_tcpFecFresh
  same h hfec := hfec.of_eq h.k h.r h.symLen

theorem GeometryOk.rx {fec : TcpFec} (h : GeometryOk fec) (skb : SkBuff) :
    GeometryOk (tcpFecRx fec skb).1 := by
  have hput : ∀ rx, GeometryOk { fec with rx } := fun rx => h.of_eq rfl rfl rfl
  unfold tcpFecRx
  dsimp only
  split
  · split
    · split <;> exact hput _
    · split
      · split <;> exact hput _
      · exact hput _
  · exact h

/-- The FEC state of a reachable socket has a valid geometry. -/
theorem validGeometry_run (env : Env) (events : List TcpEvent) {s : TcpSock}
    (h : FecAll validGeometry s) : FecAll validGeometry (events.foldl (tcpStep env) s) := by
  induction events generalizing s with
  | nil => exact h
  | cons e es ih => exact ih (h.step e fun seg _ fec hfec => (h fec hfec).rx _)

/-- As long as no coded segment announces a block with a symbol at sequence number 0, the FEC state is
whole. -/
theorem fecWhole_run {env : Env} {events : List TcpEvent}
    (hrun : RunSat env BlockOffZero tcpAllocSock events) :
    (events.foldl (tcpStep env) tcpAllocSock).FecWhole := by
  have hpast := (sackSafe_run sackSafe_tcpAllocSock hrun).inv.past
  unfold TcpSock.FecWhole
  rw [hpast]
  rfl

/-- **The FEC input of a reachable socket stays in bounds exactly when** no SACK block has been stored
over `tsk->fec` and the datagram holds what its headers announce. -/
theorem fecInBounds_iff (env : Env) (events : List TcpEvent) (fec : TcpFec)
    (hfec : (events.foldl (tcpStep env) tcpAllocSock).fec = some fec) (d : Datagram) :
    FecInBounds (events.foldl (tcpStep env) tcpAllocSock) fec d ↔
      (events.foldl (tcpStep env) tcpAllocSock).FecWhole ∧ Announced fec d := by
  have hstart : FecAll validGeometry tcpAllocSock := fun _ h => nomatch h
  exact fecInBounds_of_geometry (validGeometry_run env events hstart fec hfec) d

/-- A SYN-ACK that agrees to FEC. -/
def synackFec : Segment :=
  ⟨{ Tcphdr.zero with
      seq := 200, ackSeq := 101, hl := 8, syn := true, ack := true
      data := [30, 8, 1, 8, 2, 0, 2, 0, 1, 1, 1, 1] }, []⟩

/-- The handshake of a connection with FEC. -/
def fecHandshake : List TcpEvent := [.connect 100, .arrive synackFec]

/-- The header of a source segment: ports, sequence numbers, the data offset, ACK, and the FEC
option of the first symbol of block 0. -/
def sourceHeader (hl : UInt8) : List UInt8 :=
  [0, 80, 0, 80, 0, 0, 0, 201, 0, 0, 0, 101, 16 * hl, 16, 0, 0, 0, 0, 0, 0] ++
    [31, 8, 0, 0, 0, 0, 0, 0]

/-- Four bytes of text behind a header of 28 bytes. -/
def soundDatagram : Datagram where
  bytes := [69, 0, 0, 52, 0, 0, 0, 0, 64, 6, 102, 188, 10, 0, 0, 4, 10, 0, 0, 5] ++
    sourceHeader 7 ++ [1, 2, 3, 4]
  fits := by decide +kernel
  handed := by decide +kernel

/-- A data offset of 60 bytes in a datagram of 40. -/
def hostileDatagram : Datagram where
  bytes := [69, 0, 0, 40, 0, 0, 0, 0, 64, 6, 102, 200, 10, 0, 0, 4, 10, 0, 0, 5] ++
    sourceHeader 15 ++ List.replicate 32 0
  fits := by decide +kernel
  handed := by decide +kernel

/-- A sound source segment stays in bounds. -/
theorem fecInBounds_iff_sound :
    (fecHandshake.foldl (tcpStep quietLink) tcpAllocSock).fec = some tcpFecFresh ∧
      FecInBounds (fecHandshake.foldl (tcpStep quietLink) tcpAllocSock) tcpFecFresh
        soundDatagram := by
  refine ⟨rfl, (fecInBounds_iff quietLink fecHandshake tcpFecFresh rfl soundDatagram).mpr
    ⟨rfl, ?_⟩⟩
  refine ⟨by decide +kernel, fun _ => by decide +kernel, fun _ _ => by decide +kernel,
    fun _ => by decide +kernel, fun _ _ _ _ => by decide +kernel, fun _ hrepair => ?_⟩
  exact absurd hrepair (by decide +kernel)

/-- **A source segment is copied with a negative length**: `memcpy` is asked for 40 bytes less than
none, on a socket that has just connected. -/
theorem not_fecInBounds_hostile :
    (fecHandshake.foldl (tcpStep quietLink) tcpAllocSock).fec = some tcpFecFresh ∧
      .copy (-40) ∈ tcpFecInputAccess tcpFecFresh hostileDatagram ∧
      ¬ FecInBounds (fecHandshake.foldl (tcpStep quietLink) tcpAllocSock) tcpFecFresh
        hostileDatagram := by
  have hmem : Access.copy (-40) ∈ tcpFecInputAccess tcpFecFresh hostileDatagram := by
    decide +kernel
  refine ⟨rfl, hmem, fun h => ?_⟩
  have hcopy := h _ (List.mem_append_right _ hmem)
  exact absurd hcopy.1 (by decide)

end LvlIp.Tcp
