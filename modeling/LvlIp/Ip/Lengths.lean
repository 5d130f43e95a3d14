import LvlIp.Ip.Input

/-!
# Lengths from the wire

`ip_rcv` looks at the header length but not at the total length of a datagram, and `tcp_in` and
`icmpv4_incoming` look for their headers behind 20 bytes whatever the header length says. What is
taken from a frame lies inside it only if the frame is honest about its lengths
(`bounded_iff`), and an echo reply that goes out never does: `netdev_rx_loop` has counted the frame
in `skb->len` before `skb_push` counts the reply. The parts of a segment are found where they are if
the IP header has no options and the TCP header fits (`decodes_iff`).
-/

namespace LvlIp.Ip

open Fec Tcp

/-! ## Ranges of a frame -/

/-- The total length in the IP header. -/
def Frame.total (f : Frame) : ℕ := (ntohs f.datagram 2).toNat

/-- The bytes of a range belong to the frame and stand behind its IP header. -/
def Frame.Holds (f : Frame) (off len : ℕ) : Prop :=
  ∀ i, off ≤ i → i < off + len → ethHdrLen + ipIhl f.datagram * 4 ≤ i ∧ i < f.bytes.length

/-- What is made of a frame stays inside it: the lengths of a dispatched datagram, the text of a
segment, and the message of an echo reply, as it is summed and as it is sent behind its headers. -/
structure Bounded (t : Tables) (f : Frame) (heap : List UInt8) : Prop where
  lengths : netdevReceive (netdevRxLoop f heap) ≠ none →
    ipIhl f.datagram * 4 ≤ f.total ∧ f.total + ethHdrLen ≤ f.bytes.length
  segment : netdevReceive (netdevRxLoop f heap) = some .tcp →
    ∀ d : Datagram, d.bytes = f.datagram →
      (d.dlen.toNat : ℤ) = ipLen d.bytes - tcpHlen d.th ∧
        ethHdrLen + d.payloadOff + d.dlen.toNat ≤ f.bytes.length
  reply : netdevReceive (netdevRxLoop f heap) = some .icmp →
    ∀ r ∈ icmpv4Incoming t (netdevRxLoop f heap), f.Holds r.off r.len ∧
      ∀ w ∈ r.sent, f.Holds (w.off + ethHdrLen + ipHdrLen) (w.len - (ethHdrLen + ipHdrLen))

/-- A reply to the address would be sent: it is routed, and the next hop is resolved. -/
def Reaches (t : Tables) (daddr : UInt32) : Prop :=
  ∃ rt, routeLookup t daddr = some rt ∧ (arpGetHwaddr t (nextHop rt daddr)).isSome

/-- The frame is honest about its lengths, and is no echo request that is answered. -/
structure Honest (t : Tables) (f : Frame) : Prop where
  lengths : f.proto ≠ none →
    ipIhl f.datagram * 4 ≤ f.total ∧ f.total + ethHdrLen ≤ f.bytes.length
  segment : f.proto = some .tcp →
    ipIhl f.datagram * 4 + 4 * ((f.datagram.getD (ipHdrLen + 12) 0).toNat / 16) ≤ f.total
  echo : f.proto = some .icmp → f.datagram.getD ipHdrLen 0 = icmpV4Echo →
    (ipIhl f.datagram = 5 ∨ f.total = ipIhl f.datagram * 4) ∧ ¬ Reaches t (ntohl f.datagram 12)

/-! ## What a reply is made of -/

theorem ipOutput_isSome_iff (t : Tables) (daddr : UInt32) (skb : SkBuff) :
    (ipOutput t daddr skb).isSome ↔ Reaches t daddr := by
  unfold ipOutput Reaches
  cases hrt : routeLookup t daddr with
  | none => simp
  | some rt => simp [dstNeighOutput]

theorem mem_ipOutput {t : Tables} {daddr : UInt32} {skb : SkBuff} {w : TunWrite}
    (h : w ∈ ipOutput t daddr skb) :
    w.off = skb.data - ipHdrLen - ethHdrLen ∧
      w.len = (skb.len + UInt32.ofNat ipHdrLen + UInt32.ofNat ethHdrLen).toNat := by
  unfold ipOutput at h
  cases hrt : routeLookup t daddr with
  | none => simp [hrt] at h
  | some rt =>
    simp only [hrt, dstNeighOutput, Option.mem_map] at h
    obtain ⟨dmac, -, rfl⟩ := h
    exact ⟨rfl, rfl⟩

theorem icmpv4Reply_range (t : Tables) (skb : SkBuff) (hdata : skb.data = 0) :
    (icmpv4Reply t skb).off = ethHdrLen + ipHdrLen ∧
      (icmpv4Reply t skb).len = (icmpLen (ipHdr skb)).toNat := by
  refine ⟨?_, rfl⟩
  change skb.data + (ethHdrLen + ipHdrLen + _) - _ = _
  omega

/-- **An echo reply that goes out** is as long as the request and the reply together. -/
theorem mem_sent_icmpv4Reply {t : Tables} {f : Frame} {heap : List UInt8} {w : TunWrite}
    (h : w ∈ (icmpv4Reply t (netdevRxLoop f heap)).sent) :
    w.off = 0 ∧
      w.len = f.bytes.length + (icmpLen f.datagram).toNat + (ethHdrLen + ipHdrLen) := by
  have hfits := f.fits
  have hlen := (icmpLen f.datagram).toNat_lt
  unfold bufLen at hfits
  obtain ⟨hoff, hw⟩ := mem_ipOutput h
  constructor
  · rw [hoff]
    change 0 + (ethHdrLen + ipHdrLen + _) - _ - ipHdrLen - ethHdrLen = 0
    omega
  · rw [hw]
    change (UInt32.ofNat f.bytes.length +
      UInt32.ofNat (icmpLen (ipHdr (netdevRxLoop f heap))).toNat + _ + _).toNat = _
    rw [icmpLen_ipHdr_netdevRxLoop]
    simp only [UInt32.toNat_add, UInt32.toNat_ofNat']
    unfold ipHdrLen ethHdrLen
    omega

theorem icmpv4Incoming_netdevRxLoop (t : Tables) (f : Frame) (heap : List UInt8) :
    icmpv4Incoming t (netdevRxLoop f heap) =
      if f.datagram.getD ipHdrLen 0 = icmpV4Echo then some (icmpv4Reply t (netdevRxLoop f heap))
      else none := by
  unfold icmpv4Incoming
  rw [getD_ipHdr_netdevRxLoop f heap (by decide)]

theorem toNat_icmpLen {f : Frame} (h : ipIhl f.datagram * 4 ≤ f.total) :
    (icmpLen f.datagram).toNat = f.total - ipIhl f.datagram * 4 := by
  have hihl : ipIhl f.datagram < 16 := Nat.mod_lt _ (by decide)
  have htotal := (ntohs f.datagram 2).toNat_lt
  unfold Frame.total at h ⊢
  unfold icmpLen
  rw [UInt16.toNat_sub, UInt16.toNat_ofNat']
  omega

theorem tcpHlen_th (d : Datagram) :
    tcpHlen d.th = 4 * ((d.bytes.getD (ipHdrLen + 12) 0).toNat / 16) := rfl

/-- A length from the headers survives as an unsigned number if it is not negative. -/
theorem toNat_dlen_eq_iff (d : Datagram) :
    (d.dlen.toNat : ℤ) = ipLen d.bytes - tcpHlen d.th ↔
      ipIhl d.bytes * 4 + tcpHlen d.th ≤ (ntohs d.bytes 2).toNat := by
  have hihl : ipIhl d.bytes < 16 := Nat.mod_lt _ (by decide)
  have htotal := (ntohs d.bytes 2).toNat_lt
  have hhl : tcpHlen d.th ≤ 60 := by
    have := (d.bytes.getD (ipHdrLen + 12) 0).toNat_lt
    rw [tcpHlen_th]
    omega
  unfold Datagram.dlen ipLen
  rw [BitVec.toNat_ofInt]
  omega

/-- A frame that is dispatched has an Ethernet header. -/
theorem Frame.length_pos {f : Frame} (h : f.proto ≠ none) : 0 < f.bytes.length := by
  rcases Nat.eq_zero_or_pos f.bytes.length with h0 | hpos
  · refine absurd ?_ h
    unfold Frame.proto
    rw [if_neg]
    rw [List.length_eq_zero_iff.mp h0]
    decide
  · exact hpos

/-- The datagram of a frame that is dispatched to TCP. -/
theorem Frame.exists_datagram {f : Frame} (h : f.proto = some .tcp) :
    ∃ d : Datagram, d.bytes = f.datagram := by
  have hrcv : ipRcv f.datagram := by
    rw [← ipRcvProto_tcp_iff]
    unfold Frame.proto at h
    split_ifs at h
    exact h
  have hfits : f.datagram.length ≤ datagramMax := by
    have := f.fits
    unfold bufLen at this
    unfold Frame.datagram datagramMax ethHdrLen
    rw [List.length_drop]
    omega
  exact ⟨⟨f.datagram, hfits, hrcv⟩, rfl⟩

theorem Frame.five_le_ipIhl {f : Frame} {proto : Proto} (h : f.proto = some proto) :
    5 ≤ ipIhl f.datagram := by
  unfold Frame.proto at h
  split_ifs at h
  exact LvlIp.Ip.five_le_ipIhl h

/-! ## The ranges -/

section

variable {t : Tables} {f : Frame} {heap : List UInt8}

theorem holds_reply_iff (hihl : 5 ≤ ipIhl f.datagram)
    (h : ipIhl f.datagram * 4 ≤ f.total ∧ f.total + ethHdrLen ≤ f.bytes.length) :
    f.Holds (icmpv4Reply t (netdevRxLoop f heap)).off (icmpv4Reply t (netdevRxLoop f heap)).len ↔
      ipIhl f.datagram = 5 ∨ f.total = ipIhl f.datagram * 4 := by
  obtain ⟨hoff, hlen⟩ := icmpv4Reply_range t (netdevRxLoop f heap) rfl
  rw [hoff, hlen, icmpLen_ipHdr_netdevRxLoop, toNat_icmpLen h.1]
  unfold Frame.Holds
  unfold ethHdrLen ipHdrLen at *
  constructor
  · intro hall
    by_contra hne
    -- the first byte of the range is still an option of the IP header
    have := hall 34 le_rfl (by omega)
    omega
  · intro hor i hi hlt
    omega

theorem exists_mem_sent_iff :
    (∃ w, w ∈ (icmpv4Reply t (netdevRxLoop f heap)).sent) ↔ Reaches t (ntohl f.datagram 12) := by
  rw [← ntohl_ipHdr_netdevRxLoop f heap (by decide)]
  exact Option.isSome_iff_exists.symm.trans (ipOutput_isSome_iff t _ _)

/-- No reply that goes out stays inside the frame. -/
theorem not_holds_sent (hproto : f.proto ≠ none) {w : TunWrite}
    (hw : w ∈ (icmpv4Reply t (netdevRxLoop f heap)).sent) :
    ¬ f.Holds (w.off + ethHdrLen + ipHdrLen) (w.len - (ethHdrLen + ipHdrLen)) := by
  obtain ⟨hoff, hlen⟩ := mem_sent_icmpv4Reply hw
  have hpos := Frame.length_pos hproto
  intro hall
  -- its last byte is behind the frame
  have hlast := hall (f.bytes.length + (icmpLen f.datagram).toNat + (ethHdrLen + ipHdrLen) - 1)
    (by omega) (by omega)
  unfold ethHdrLen ipHdrLen at hlast
  omega

/-- **What is made of a frame stays inside it** exactly when the frame is honest about its lengths
and is no echo request that is answered. -/
theorem bounded_iff (t : Tables) (f : Frame) (heap : List UInt8) :
    Bounded t f heap ↔ Honest t f := by
  have hrecv := netdevReceive_netdevRxLoop f heap
  have hincoming := icmpv4Incoming_netdevRxLoop t f heap
  constructor
  · intro h
    refine ⟨fun hne => h.lengths (hrecv ▸ hne), ?_, ?_⟩
    · intro htcp
      obtain ⟨d, hd⟩ := f.exists_datagram htcp
      have hlen := (toNat_dlen_eq_iff d).mp (h.segment (hrecv.trans htcp) d hd).1
      rw [tcpHlen_th, hd] at hlen
      exact hlen
    · intro hicmp hecho
      rw [hecho, if_pos rfl] at hincoming
      obtain ⟨hheld, hsent⟩ := h.reply (hrecv.trans hicmp) _ hincoming
      have hlengths := h.lengths (by simp [hrecv, hicmp])
      refine ⟨(holds_reply_iff (Frame.five_le_ipIhl hicmp) hlengths).mp hheld, ?_⟩
      intro hreach
      obtain ⟨w, hw⟩ := exists_mem_sent_iff.mpr hreach
      exact not_holds_sent (by simp [hicmp]) hw (hsent w hw)
  · intro h
    refine ⟨fun hne => h.lengths (hrecv ▸ hne), ?_, ?_⟩
    · intro hrecv' d hd
      have htcp := hrecv.symm.trans hrecv'
      have hlen : ipIhl d.bytes * 4 + tcpHlen d.th ≤ (ntohs d.bytes 2).toNat := by
        rw [tcpHlen_th, hd]
        exact h.segment htcp
      have hdlen := (toNat_dlen_eq_iff d).mpr hlen
      have htotal := h.lengths (by simp [htcp])
      have hihl := Frame.five_le_ipIhl htcp
      refine ⟨hdlen, ?_⟩
      unfold Frame.total at htotal
      unfold ipLen at hdlen
      unfold Datagram.payloadOff ipHdrLen
      rw [← hd] at htotal hihl
      omega
    · intro hrecv' r hr
      have hicmp := hrecv.symm.trans hrecv'
      rw [hincoming] at hr
      split at hr
      · next hecho =>
        obtain ⟨hor, hreach⟩ := h.echo hicmp hecho
        obtain rfl := Option.mem_some_iff.mp hr
        refine ⟨(holds_reply_iff (Frame.five_le_ipIhl hicmp) (h.lengths (by simp [hicmp]))).mpr hor,
          fun w hw => absurd (exists_mem_sent_iff.mp ⟨w, hw⟩) hreach⟩
      · cases hr

end

/-- A segment without text, in a datagram that announces 1500 bytes. -/
def shortBytes : List UInt8 :=
  [0, 12, 41, 109, 80, 37, 2, 0, 0, 0, 0, 1, 8, 0] ++
    [0x45, 0, 0x05, 0xDC, 0, 0, 0x40, 0, 64, 6, 0x21, 0x14, 10, 0, 0, 4, 10, 0, 0, 5] ++
    [0, 80, 0x9C, 0x40, 0, 0, 0, 1, 0, 0, 0, 1, 0x50, 16, 0xFF, 0xFF, 0, 0, 0, 0]

theorem length_shortBytes : shortBytes.length ≤ bufLen := by decide

theorem not_bounded_shortBytes : ¬ Bounded ⟨[], []⟩ ⟨shortBytes, length_shortBytes⟩ [] := by
  intro h
  have hlen := h.lengths (by rw [netdevReceive_netdevRxLoop]; decide)
  revert hlen
  decide

/-! ## The parts of a segment -/

/-- `struct sock`, as far as `socket_lookup` reads it. -/
structure SockPorts where
  sport : UInt16
  dport : UInt16

/-- `socket_lookup`: there is a socket for the ports. -/
def socketLookup (socks : List SockPorts) (remoteport localport : UInt16) : Bool :=
  socks.any fun sk => sk.sport == localport && sk.dport == remoteport

/-- `tcp_in` hands the segment to `tcp_input_state`. -/
def tcpInProcesses (socks : List SockPorts) (d : Datagram) : Bool :=
  socketLookup socks (ntohs d.bytes ipHdrLen) (ntohs d.bytes (ipHdrLen + 2))

/-- Where the parts of a segment are in a datagram: an offset and a length each. -/
structure Parts where
  header : ℕ × ℕ
  options : ℕ × ℕ
  payload : ℕ × ℕ
deriving DecidableEq

/-- Where `tcp_in`, `tcp_parse_opts` and `tcp_init_segment` take them from. -/
def taken (d : Datagram) : Parts where
  header := (ipHdrLen, tcpHdrLen)
  options := (ipHdrLen + tcpHdrLen, tcpOptAreaLen d.th)
  payload := (d.payloadOff, d.dlen.toNat)

/-- What follows the IP header. -/
def text (d : Datagram) : List UInt8 := d.bytes.drop (ipIhl d.bytes * 4)

/-- The data offset of the segment, in words. -/
def dataOffset (d : Datagram) : ℕ := ((text d).getD 12 0).toNat / 16

/-- Where they are. -/
def carried (d : Datagram) : Parts where
  header := (ipIhl d.bytes * 4, tcpHdrLen)
  options := (ipIhl d.bytes * 4 + tcpHdrLen, 4 * dataOffset d - tcpHdrLen)
  payload := (ipIhl d.bytes * 4 + 4 * dataOffset d, (text d).length - 4 * dataOffset d)

/-- A segment as its bytes define it. -/
def readSegment (p : List UInt8) : Segment where
  th :=
    { seq := ntohl p 4
      ackSeq := ntohl p 8
      hl := (p.getD 12 0).toNat / 16
      fin := (p.getD 13 0).toNat.testBit 0
      syn := (p.getD 13 0).toNat.testBit 1
      rst := (p.getD 13 0).toNat.testBit 2
      psh := (p.getD 13 0).toNat.testBit 3
      ack := (p.getD 13 0).toNat.testBit 4
      data := (p.drop tcpHdrLen).take (4 * ((p.getD 12 0).toNat / 16) - tcpHdrLen) }
  payload := p.drop (4 * ((p.getD 12 0).toNat / 16))

/-- The header is where it is, and a segment that is processed is one whose header fits, with its
options and its payload where they are; so the state machine gets the segment that was sent. -/
structure Decodes (socks : List SockPorts) (d : Datagram) : Prop where
  header : (taken d).header = (carried d).header
  valid : tcpInProcesses socks d → 5 ≤ dataOffset d ∧ 4 * dataOffset d ≤ (text d).length
  parts : tcpInProcesses socks d → taken d = carried d
  optlen : tcpInProcesses socks d → tcpOptAreaLen d.th ≤ tcpOptMax
  segment : tcpInProcesses socks d → d.segment = readSegment (text d)

theorem bytesAt_eq_take_drop {p : List UInt8} {off len : ℕ} (h : off + len ≤ p.length) :
    bytesAt p off len = (p.drop off).take len := by
  apply List.ext_getElem
  · simp [bytesAt]
    omega
  · intro i hi _
    have hi : i < len := by simpa [bytesAt] using hi
    simp [bytesAt, List.getElem?_eq_getElem (show off + i < p.length by omega)]

theorem dataOffset_eq {d : Datagram} (hihl : ipIhl d.bytes = 5) : dataOffset d = d.th.hl := by
  unfold dataOffset text
  rw [hihl, getD_drop]
  rfl

theorem length_text {d : Datagram} (hihl : ipIhl d.bytes = 5) :
    (text d).length = d.bytes.length - 20 := by
  unfold text
  rw [hihl, List.length_drop]

theorem toNat_dlen {d : Datagram} (hihl : ipIhl d.bytes = 5)
    (hlen : (ntohs d.bytes 2).toNat = d.bytes.length) (h5 : 5 ≤ dataOffset d)
    (hfit : 4 * dataOffset d ≤ (text d).length) :
    d.dlen.toNat = (text d).length - 4 * dataOffset d := by
  have htext := length_text hihl
  have hdlen := (toNat_dlen_eq_iff d).mpr (by
    rw [hihl, hlen, tcpHlen, ← dataOffset_eq hihl]
    omega)
  unfold ipLen at hdlen
  rw [hihl, hlen, tcpHlen, ← dataOffset_eq hihl] at hdlen
  omega

/-- The segment that the state machine gets is the one in the text. -/
theorem segment_eq_readSegment {d : Datagram} (hihl : ipIhl d.bytes = 5)
    (hlen : (ntohs d.bytes 2).toNat = d.bytes.length) (h5 : 5 ≤ dataOffset d)
    (hfit : 4 * dataOffset d ≤ (text d).length) : d.segment = readSegment (text d) := by
  have htext := length_text hihl
  have hget : ∀ i, (text d).getD i 0 = d.bytes.getD (ipHdrLen + i) 0 := by
    intro i
    unfold text
    rw [hihl, getD_drop]
    rfl
  have hoff : 4 * ((d.bytes.getD (ipHdrLen + 12) 0).toNat / 16) = 4 * dataOffset d := by
    unfold dataOffset
    rw [hget]
  have hdata : bytesAt d.bytes (ipHdrLen + tcpHdrLen) (4 * dataOffset d - tcpHdrLen) =
      ((text d).drop tcpHdrLen).take (4 * dataOffset d - tcpHdrLen) := by
    unfold text ipHdrLen tcpHdrLen
    rw [bytesAt_eq_take_drop (by omega), List.drop_drop, hihl]
  have hpayload : bytesAt d.bytes d.payloadOff d.dlen.toInt.toNat =
      (text d).drop (4 * dataOffset d) := by
    have hdlen := toNat_dlen hihl hlen h5 hfit
    have hlt := (ntohs d.bytes 2).toNat_lt
    have hsigned : d.dlen.toInt.toNat = d.dlen.toNat := by
      rw [BitVec.toInt_eq_toNat_of_lt (by omega), Int.toNat_natCast]
    have hpos : d.payloadOff = 20 + 4 * dataOffset d := by
      rw [dataOffset_eq hihl]
      rfl
    rw [hsigned, hdlen, hpos, bytesAt_eq_take_drop (by omega), List.take_of_length_le (by simp; omega)]
    unfold text
    rw [hihl, List.drop_drop]
  unfold Datagram.segment readSegment
  rw [hpayload]
  unfold Datagram.th
  simp only [ntohl, hget, hoff, hdata]

/-- **The parts of a segment are found where they are** exactly when the IP header has no options
and the TCP header of a segment for which there is a socket fits. -/
theorem decodes_iff (socks : List SockPorts) (d : Datagram)
    (hlen : (ntohs d.bytes 2).toNat = d.bytes.length) :
    Decodes socks d ↔ ipIhl d.bytes = 5 ∧
      (tcpInProcesses socks d → 5 ≤ dataOffset d ∧ 4 * dataOffset d ≤ (text d).length) := by
  constructor
  · intro h
    have hhdr := congrArg Prod.fst h.header
    simp only [taken, carried, ipHdrLen] at hhdr
    exact ⟨by omega, h.valid⟩
  · rintro ⟨hihl, hvalid⟩
    have hoff := dataOffset_eq hihl
    have hlt : dataOffset d < 16 := by
      have := ((text d).getD 12 0).toNat_lt
      unfold dataOffset
      omega
    have harea : 5 ≤ dataOffset d → tcpOptAreaLen d.th = 4 * dataOffset d - tcpHdrLen := by
      intro h5
      unfold tcpOptAreaLen tcpHlen tcpHdrLen
      omega
    refine ⟨by simp [taken, carried, hihl, ipHdrLen], hvalid, ?_, ?_, ?_⟩
    · intro hproc
      obtain ⟨h5, hfit⟩ := hvalid hproc
      simp only [taken, carried, toNat_dlen hihl hlen h5 hfit, harea h5, hihl, Datagram.payloadOff,
        tcpHlen, hoff, ipHdrLen]
    · intro hproc
      rw [harea (hvalid hproc).1]
      unfold tcpOptMax tcpHdrLen
      omega
    · intro hproc
      obtain ⟨h5, hfit⟩ := hvalid hproc
      exact segment_eq_readSegment hihl hlen h5 hfit

/-- A segment with one byte of text, from port 80 to port 40000. -/
def plainBytes : List UInt8 :=
  [0x45, 0, 0, 41, 0, 0, 0x40, 0, 64, 6, 38, 199, 10, 0, 0, 4, 10, 0, 0, 5] ++
    [0, 80, 0x9C, 0x40, 0, 0, 0, 1, 0, 0, 0, 1, 0x50, 16, 0xFF, 0xFF, 0, 0, 0, 0, 7]

theorem length_plainBytes : plainBytes.length ≤ datagramMax := by decide

theorem ipRcv_plainBytes : ipRcv plainBytes := by decide

theorem decodes_plainBytes :
    Decodes [⟨40000, 80⟩] ⟨plainBytes, length_plainBytes, ipRcv_plainBytes⟩ :=
  (decodes_iff [⟨40000, 80⟩] ⟨plainBytes, length_plainBytes, ipRcv_plainBytes⟩ (by decide)).mpr
    (by decide)

/-- A segment without text, behind an IP header with four bytes of options. -/
def optionBytes : List UInt8 :=
  [0x46, 0, 0, 44, 0, 0, 0x40, 0, 64, 6, 0x23, 0xC2, 10, 0, 0, 4, 10, 0, 0, 5, 1, 1, 1, 1] ++
    [0, 80, 0x9C, 0x40, 0, 0, 0, 1, 0, 0, 0, 1, 0x50, 16, 0xFF, 0xFF, 0, 0, 0, 0]

theorem length_optionBytes : optionBytes.length ≤ datagramMax := by decide

theorem ipRcv_optionBytes : ipRcv optionBytes := by decide

/-- Its lengths are consistent, and its header is looked for in the options. -/
theorem not_decodes_optionBytes :
    (ntohs optionBytes 2).toNat = optionBytes.length ∧
      ¬ Decodes [] ⟨optionBytes, length_optionBytes, ipRcv_optionBytes⟩ := by
  refine ⟨by decide, fun h => ?_⟩
  have hhdr := h.header
  revert hhdr
  decide

end LvlIp.Ip
