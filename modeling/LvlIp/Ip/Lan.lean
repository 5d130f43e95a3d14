import LvlIp.Ip.Arp
import LvlIp.Ip.RoundTrip

/-!
# Address resolution on a network

Stations that run `arp_rcv`, `arp_request` and `arp_reply` of `src/arp.c` on one network, which
loses, repeats, delays and reorders frames, among other machines that may send whatever is true. In
every run what a table resolves is the address of the owner, so that a datagram never goes to
another machine; and a station that has asked has its answer as soon as its request and the reply
were heard once, in any order with everything else, and for good (`lan_run`).
-/

namespace LvlIp.Ip

open Fec Tcp

/-! ## The code -/

/-- `broadcast_hw`. -/
def broadcastHw : List UInt8 := List.replicate 6 0xff

/-- `arp_request`, with `arp_alloc_skb`. The protocol of the buffer is not read. -/
def Netdev.arpRequest (dev : Netdev) (sip dip : UInt32) : TunWrite :=
  let size := ethHdrLen + arpHdrLen + arpDataLen
  let skb : SkBuff := { mem := List.replicate size 0, data := 0, len := 0, protocol := 0 }
  let skb := skbPush (skbReserve skb size) arpDataLen
  let skb := skb.store skb.data (dev.hwaddr ++ be32 sip ++ broadcastHw ++ be32 dip)
  let skb := skbPush skb arpHdrLen
  let skb := skb.store skb.data (be16 arpEthernet ++ be16 ethPIp ++ [6, 4] ++ be16 Ip.arpRequest)
  netdevTransmit dev broadcastHw ethPArp skb

/-- What `ip_output` writes to the device: the datagram, or the request for the address it needs. -/
def ipOutputWrite (t : Tables) (daddr : UInt32) (skb : SkBuff) : Option TunWrite :=
  (ipOutput t daddr skb).or
    ((routeLookup t daddr).map fun rt => rt.dev.arpRequest rt.dev.addr (nextHop rt daddr))

/-- `netdev_receive`, as far as it hands frames to `arp_rcv`. -/
def netdevReceiveArp (dev : Netdev) (cache : List ArpEntry) (skb : SkBuff) :
    List ArpEntry × Option TunWrite :=
  if ntohs skb.mem 12 = ethPArp then arpRcv dev cache skb else (cache, none)

/-- `tun_read`, with a buffer of `BUFLEN` bytes. -/
def tunRead (bytes : List UInt8) : Frame := ⟨bytes.take bufLen, List.length_take_le _ _⟩

/-! ## The network -/

/-- A buffer as TCP and ICMP hand it to `ip_output`: there is room for the headers below. -/
structure Outgoing extends SkBuff where
  data_eq : data = ethHdrLen + ipHdrLen
  room : ethHdrLen + ipHdrLen ≤ mem.length
  len_lt : len.toNat + (ipHdrLen + ethHdrLen) < 2 ^ 32

/-- What `tcp_transmit_skb` hands down. -/
theorem Holds.exists_outgoing {n : ℕ} {b : TxBuff} {f : FrameParts n} (h : Holds b f)
    (hdata : b.data = ethHdrLen + ipHdrLen) (hsize : f.bytes.length < 2 ^ 32) :
    ∃ skb : Outgoing, skb.toSkBuff = b.toSkBuff := by
  have hle := h.data
  have htail := h.tail
  refine ⟨⟨b.toSkBuff, hdata, ?_, ?_⟩, rfl⟩
  · rw [h.mem, ← htail, ← hdata]
    exact hle
  · rw [h.len, UInt32.toNat_ofNat', Nat.mod_eq_of_lt (by omega)]
    omega

theorem le_length_store {skb : SkBuff} {n off : ℕ} (h : n ≤ skb.mem.length) (hoff : n ≤ off)
    (bytes : List UInt8) : n ≤ (skb.store off bytes).mem.length := by
  change n ≤ (skb.mem.take off ++ bytes ++ skb.mem.drop (off + bytes.length)).length
  rw [List.length_append, List.length_append, List.length_take]
  omega

/-- What `icmpv4_reply` hands down. -/
theorem exists_outgoing_icmpv4Reply (t : Tables) (f : Frame) (heap : List UInt8) :
    ∃ skb : Outgoing, (icmpv4Reply t (netdevRxLoop f heap)).sent =
      ipOutput t (ntohl (ipHdr (netdevRxLoop f heap)) 12) skb.toSkBuff := by
  have hfits := f.fits
  have hlen := (icmpLen (ipHdr (netdevRxLoop f heap))).toNat_lt
  have hmem : ethHdrLen + ipHdrLen ≤ (netdevRxLoop f heap).mem.length := by
    unfold netdevRxLoop ethHdrLen ipHdrLen
    unfold bufLen at hfits ⊢
    rw [List.length_append, List.length_append, List.length_replicate]
    omega
  have hdata : 0 + (ethHdrLen + ipHdrLen + (icmpLen (ipHdr (netdevRxLoop f heap))).toNat) -
      (icmpLen (ipHdr (netdevRxLoop f heap))).toNat = ethHdrLen + ipHdrLen := by omega
  refine ⟨⟨_, ?_, ?_, ?_⟩, rfl⟩
  · exact hdata
  · refine le_length_store (le_length_store (le_length_store hmem ?_ _) ?_ _) ?_ _
    · exact hdata.ge
    · exact hdata.ge.trans (Nat.le_add_right _ _)
    · exact hdata.ge.trans (Nat.le_add_right _ _)
  · change (UInt32.ofNat f.bytes.length +
      UInt32.ofNat (icmpLen (ipHdr (netdevRxLoop f heap))).toNat).toNat + 34 < 2 ^ 32
    unfold bufLen at hfits
    simp only [UInt32.toNat_add, UInt32.toNat_ofNat']
    omega

/-- A network: the stations with their routes, and who has which address. -/
structure Lan (ι : Type*) where
  dev : ι → Netdev
  routes : ι → List RtEntry
  owner : UInt32 → Option (List UInt8)
  owner_dev : ∀ i, owner (dev i).addr = some (dev i).hwaddr
  owner_routes : ∀ i, ∀ rt ∈ routes i, owner rt.dev.addr = some rt.dev.hwaddr
  length_owner : ∀ ip, ∀ hw ∈ owner ip, hw.length = 6

/-- The tables of the stations, and every frame that was ever written. -/
structure LanState (ι : Type*) where
  cache : ι → List ArpEntry
  air : List (List UInt8)

/-- What can happen. -/
inductive LanEvent (ι : Type*)
  /-- A station calls `ip_output`. -/
  | send (i : ι) (skb : Outgoing) (daddr : UInt32)
  /-- A station reads a frame that was written at some time, before some heap. -/
  | hear (i : ι) (n : ℕ) (heap : List UInt8)
  /-- Another machine sends a frame. -/
  | foreign (bytes : List UInt8)

/-- The ARP packet in a frame. -/
def frameArp (bytes : List UInt8) : ArpPacket :=
  arpPacket { mem := bytes, data := 0, len := 0, protocol := 0 }

namespace Lan

variable {ι : Type*} (lan : Lan ι)

/-- The routes and the neighbours of a station. -/
def tables (s : LanState ι) (i : ι) : Tables where
  routes := lan.routes i
  arpCache := (s.cache i).map ArpEntry.toArpCacheEntry

variable [DecidableEq ι]

/-- A station has a new table and has perhaps written a frame. -/
def after (s : LanState ι) (i : ι) (r : List ArpEntry × Option TunWrite) : LanState ι where
  cache := Function.update s.cache i r.1
  air := s.air ++ (r.2.map TunWrite.bytes).toList

def step (s : LanState ι) : LanEvent ι → LanState ι
  | .send i skb daddr =>
    { s with
      air := s.air ++
        ((ipOutputWrite (lan.tables s i) daddr skb.toSkBuff).map TunWrite.bytes).toList }
  | .hear i n heap =>
    match s.air[n]? with
    | none => s
    | some bytes =>
      after s i (netdevReceiveArp (lan.dev i) (s.cache i) (netdevRxLoop (tunRead bytes) heap))
  | .foreign bytes => { s with air := s.air ++ [bytes] }

/-- The network after some events; at first no table has an entry. -/
def run (events : List (LanEvent ι)) : LanState ι :=
  events.foldl lan.step { cache := fun _ => [], air := [] }

omit [DecidableEq ι]

/-- The sender addresses of a packet belong together. -/
def Truthful (pkt : ArpPacket) : Prop := ∀ ip, pkt.From ip → lan.owner ip = some pkt.smac

/-- A frame that lies about nobody. -/
def TrueFrame (bytes : List UInt8) : Prop :=
  ntohs bytes 12 = ethPArp → lan.Truthful (frameArp bytes)

/-- Other machines tell the truth. -/
def Allows : LanEvent ι → Prop
  | .foreign bytes => lan.TrueFrame bytes
  | _ => True

end Lan

/-! ## Packets in bytes -/

theorem exists_six_of_length {α : Type*} {l : List α} (h : l.length = 6) :
    ∃ a b c d e f, l = [a, b, c, d, e, f] := by
  match l, h with
  | [a, b, c, d, e, f], _ => exact ⟨a, b, c, d, e, f, rfl⟩

/-- The addresses of a packet have six bytes. -/
structure ArpPacket.Sized (pkt : ArpPacket) : Prop where
  smac : pkt.smac.length = 6
  dmac : pkt.dmac.length = 6

theorem ArpPacket.Sized.length_bytes {pkt : ArpPacket} (h : pkt.Sized) : pkt.bytes.length = 28 := by
  simp [ArpPacket.bytes, h.smac, h.dmac, be16, be32]

/-- **A packet is read back** behind the header of the device. -/
theorem frameArp_append {eth rest : List UInt8} (heth : eth.length = ethHdrLen) {pkt : ArpPacket}
    (h : pkt.Sized) : frameArp (eth ++ pkt.bytes ++ rest) = pkt := by
  obtain ⟨hwtype, protype, hwsize, prosize, opcode, smac, sip, dmac, dip⟩ := pkt
  obtain ⟨a, b, c, d, e, f, hsmac⟩ := exists_six_of_length h.smac
  obtain ⟨a', b', c', d', e', f', hdmac⟩ := exists_six_of_length h.dmac
  cases hsmac
  cases hdmac
  unfold frameArp arpPacket
  dsimp only
  rw [List.append_assoc, List.drop_left' heth, ArpPacket.mk.injEq]
  simp only [ArpPacket.bytes, be16, be32, List.cons_append, List.nil_append]
  exact ⟨ntohs_be16 hwtype, ntohs_be16 protype, rfl, rfl, ntohs_be16 opcode, rfl, ntohl_be32 sip,
    rfl, ntohl_be32 dip⟩

theorem ntohs_ethertype {hw rest : List UInt8} (hlen : hw.length = 12) (type : UInt16) :
    ntohs (hw ++ be16 type ++ rest) 12 = type := by
  rw [List.append_assoc, ← hlen]
  exact (ntohs_append_add hw _ 0).trans (ntohs_be16 type)

/-- The bytes up to the end of an ARP packet. -/
def arpSize : ℕ := ethHdrLen + arpHdrLen + arpDataLen

/-- Two frames with the same bytes there. -/
def SameArp (p q : List UInt8) : Prop := ∀ i < arpSize, p.getD i 0 = q.getD i 0

namespace SameArp

variable {p q : List UInt8}

theorem ethertype_eq (h : SameArp p q) : ntohs p 12 = ntohs q 12 := by
  unfold ntohs
  rw [h 12 (by decide), h (12 + 1) (by decide)]

/-- They hold the same packet. -/
theorem frameArp_eq (h : SameArp p q) : frameArp p = frameArp q := by
  have hb : ∀ i < 28, (p.drop ethHdrLen).getD i 0 = (q.drop ethHdrLen).getD i 0 := by
    intro i hi
    rw [getD_drop, getD_drop]
    refine h _ ?_
    unfold arpSize arpHdrLen arpDataLen
    omega
  have hs : ∀ i < 27, ntohs (p.drop ethHdrLen) i = ntohs (q.drop ethHdrLen) i := by
    intro i hi
    unfold ntohs
    rw [hb i (by omega), hb (i + 1) (by omega)]
  have hl : ∀ i < 25, ntohl (p.drop ethHdrLen) i = ntohl (q.drop ethHdrLen) i := by
    intro i hi
    unfold ntohl
    rw [hb i (by omega), hb (i + 1) (by omega), hb (i + 2) (by omega), hb (i + 3) (by omega)]
  have hm : ∀ off ≤ 22, bytesAt (p.drop ethHdrLen) off 6 = bytesAt (q.drop ethHdrLen) off 6 := by
    intro off hoff
    refine List.map_congr_left fun i hi => hb _ ?_
    have := List.mem_range.mp hi
    omega
  unfold frameArp arpPacket
  rw [ArpPacket.mk.injEq]
  exact ⟨hs 0 (by decide), hs 2 (by decide), hb 4 (by decide), hb 5 (by decide), hs 6 (by decide),
    hm 8 (by decide), hl 14 (by decide), hm 18 (by decide), hl 24 (by decide)⟩

end SameArp

/-- What a reader finds in its buffer. -/
theorem sameArp_netdevRxLoop (bytes heap : List UInt8) :
    SameArp (netdevRxLoop (tunRead bytes) heap).mem bytes := by
  intro i hi
  have hlt : i < bufLen := hi.trans (by decide)
  rw [getD_mem_netdevRxLoop _ _ hlt]
  change (bytes.take bufLen).getD i 0 = _
  rw [List.getD_eq_getElem?_getD, List.getElem?_take_of_lt hlt, ← List.getD_eq_getElem?_getD]

theorem getD_bytesAt {p : List UInt8} {len i : ℕ} (h : i < len) :
    (bytesAt p 0 len).getD i 0 = p.getD i 0 := by
  unfold bytesAt
  rw [List.getD_eq_getElem?_getD, List.getElem?_map, List.getElem?_range h]
  simp

theorem take_bytesAt {p : List UInt8} {len n : ℕ} (h : n ≤ len) :
    (bytesAt p 0 len).take n = bytesAt p 0 n := by
  unfold bytesAt
  rw [← List.map_take, List.take_range, Nat.min_eq_left h]

theorem sameArp_bytesAt {p : List UInt8} {len : ℕ} (h : arpSize ≤ len) :
    SameArp (bytesAt p 0 len) p :=
  fun _ hi => getD_bytesAt (hi.trans_le h)

/-! ## What the stations send -/

/-- A frame with an ARP packet. -/
structure IsArp (bytes : List UInt8) (pkt : ArpPacket) : Prop where
  ethertype : ntohs bytes 12 = ethPArp
  packet : frameArp bytes = pkt

theorem IsArp.congr {p q : List UInt8} (hsame : SameArp p q) {pkt : ArpPacket} (h : IsArp q pkt) :
    IsArp p pkt :=
  ⟨hsame.ethertype_eq.trans h.ethertype, hsame.frameArp_eq.trans h.packet⟩

theorem isArp_append {hw rest : List UInt8} (hlen : hw.length = 12) {pkt : ArpPacket}
    (h : pkt.Sized) : IsArp (hw ++ be16 ethPArp ++ pkt.bytes ++ rest) pkt where
  ethertype := by
    rw [List.append_assoc (hw ++ be16 ethPArp)]
    exact ntohs_ethertype hlen ethPArp
  packet := frameArp_append (by rw [List.length_append, hlen]; rfl) h

/-- What `arp_request` says. -/
def Netdev.requestPacket (dev : Netdev) (sip dip : UInt32) : ArpPacket where
  hwtype := arpEthernet
  protype := ethPIp
  hwsize := 6
  prosize := 4
  opcode := Ip.arpRequest
  smac := dev.hwaddr
  sip := sip
  dmac := broadcastHw
  dip := dip

theorem isArp_arpRequest {dev : Netdev} (hdev : dev.hwaddr.length = 6) (sip dip : UInt32) :
    IsArp (dev.arpRequest sip dip).bytes (dev.requestPacket sip dip) := by
  have hsized : (dev.requestPacket sip dip).Sized := ⟨hdev, rfl⟩
  have hbytes : (dev.arpRequest sip dip).bytes =
      broadcastHw ++ dev.hwaddr ++ be16 ethPArp ++ (dev.requestPacket sip dip).bytes ++ [] := by
    obtain ⟨a, b, c, d, e, f, hhw⟩ := exists_six_of_length hdev
    obtain ⟨addr, hwaddr⟩ := dev
    cases hhw
    rfl
  rw [hbytes]
  exact isArp_append (by rw [List.length_append, hdev]; rfl) hsized

/-- What `arp_reply` makes of a packet. -/
def Netdev.replyPacket (dev : Netdev) (pkt : ArpPacket) : ArpPacket :=
  { pkt with
    opcode := arpReplyCode
    dmac := pkt.smac
    dip := pkt.sip
    smac := dev.hwaddr
    sip := dev.addr }

theorem length_smac_arpPacket (skb : SkBuff) : (arpPacket skb).smac.length = 6 := by
  simp [arpPacket, bytesAt]

theorem isArp_arpReply {dev : Netdev} (hdev : dev.hwaddr.length = 6) (bytes heap : List UInt8) :
    IsArp (arpReply dev (netdevRxLoop (tunRead bytes) heap)
        (arpPacket (netdevRxLoop (tunRead bytes) heap))).bytes
      (dev.replyPacket (arpPacket (netdevRxLoop (tunRead bytes) heap))) := by
  have hmac := length_smac_arpPacket (netdevRxLoop (tunRead bytes) heap)
  generalize arpPacket (netdevRxLoop (tunRead bytes) heap) = pkt at hmac ⊢
  have hsized : (dev.replyPacket pkt).Sized := ⟨hdev, hmac⟩
  have hmem : arpSize ≤ (netdevRxLoop (tunRead bytes) heap).mem.length := by
    have hfits := (tunRead bytes).fits
    unfold netdevRxLoop arpSize ethHdrLen arpHdrLen arpDataLen
    unfold bufLen at hfits ⊢
    simp only [List.length_append, List.length_replicate]
    omega
  generalize hskb : netdevRxLoop (tunRead bytes) heap = skb at hmem
  have hdata : skb.data = 0 := by
    rw [← hskb]
    rfl
  have hlen : skb.len.toNat ≤ bufLen := by
    have hfits := (tunRead bytes).fits
    rw [← hskb]
    change (UInt32.ofNat (tunRead bytes).bytes.length).toNat ≤ bufLen
    rw [UInt32.toNat_ofNat']
    exact (Nat.mod_le _ _).trans hfits
  obtain ⟨mem, data, len, protocol⟩ := skb
  cases hdata
  change len.toNat ≤ 1600 at hlen
  have heth : (pkt.smac ++ dev.hwaddr ++ be16 ethPArp).length = ethHdrLen := by
    rw [List.length_append, List.length_append, hmac, hdev]
    rfl
  have hbytes : (arpReply dev ⟨mem, 0, len, protocol⟩ pkt).bytes =
      bytesAt (pkt.smac ++ dev.hwaddr ++ be16 ethPArp ++ (dev.replyPacket pkt).bytes ++
        mem.drop arpSize) 0 (len + 28 + 14).toNat := by
    have hstore : mem.take ethHdrLen ++ (dev.replyPacket pkt).bytes ++
        mem.drop (ethHdrLen + (dev.replyPacket pkt).bytes.length) =
        mem.take ethHdrLen ++ ((dev.replyPacket pkt).bytes ++ mem.drop arpSize) := by
      rw [hsized.length_bytes, List.append_assoc]
      rfl
    have htake : (mem.take ethHdrLen).length = ethHdrLen :=
      List.length_take_of_le (le_trans (by decide) hmem)
    change bytesAt (List.take 0 (mem.take ethHdrLen ++ (dev.replyPacket pkt).bytes ++
        mem.drop (ethHdrLen + (dev.replyPacket pkt).bytes.length)) ++
      (pkt.smac ++ dev.hwaddr ++ be16 ethPArp) ++
      List.drop (0 + (pkt.smac ++ dev.hwaddr ++ be16 ethPArp).length)
        (mem.take ethHdrLen ++ (dev.replyPacket pkt).bytes ++
          mem.drop (ethHdrLen + (dev.replyPacket pkt).bytes.length))) 0 _ = _
    rw [hstore, heth, Nat.zero_add, List.drop_left' htake, List.take_zero, List.nil_append,
      List.append_assoc (pkt.smac ++ dev.hwaddr ++ be16 ethPArp)]
    rfl
  rw [hbytes]
  refine IsArp.congr (sameArp_bytesAt ?_) (isArp_append ?_ hsized)
  · have hadd : (len + 28 + 14).toNat = len.toNat + 42 := by
      rw [UInt32.toNat_add, UInt32.toNat_add]
      change ((len.toNat + 28) % 2 ^ 32 + 14) % 2 ^ 32 = _
      omega
    rw [hadd]
    exact Nat.le_add_left _ _
  · rw [List.length_append, hmac, hdev]

/-- **A datagram** has the hardware address of its next hop in front, and is no ARP packet. -/
theorem mem_ipOutput_outgoing {t : Tables} (hroutes : ∀ rt ∈ t.routes, rt.dev.hwaddr.length = 6)
    {daddr : UInt32} (skb : Outgoing) {w : TunWrite} (hw : w ∈ ipOutput t daddr skb.toSkBuff) :
    ∃ rt hwaddr, routeLookup t daddr = some rt ∧ arpGetHwaddr t (nextHop rt daddr) = some hwaddr ∧
      (hwaddr.length = 6 → w.bytes.take 6 = hwaddr ∧ ntohs w.bytes 12 = ethPIp) := by
  unfold ipOutput at hw
  cases hrt : routeLookup t daddr with
  | none =>
    rw [hrt] at hw
    exact absurd hw (Option.not_mem_none w)
  | some rt =>
    rw [hrt] at hw
    unfold Ip.dstNeighOutput at hw
    obtain ⟨hwaddr, harp, hbytes⟩ := Option.mem_map.mp hw
    refine ⟨rt, hwaddr, rfl, harp, fun hlen => ?_⟩
    have hdev := hroutes rt (mem_routes_of_routeLookup hrt)
    have heth : (hwaddr ++ rt.dev.hwaddr).length = 12 := by rw [List.length_append, hlen, hdev]
    obtain ⟨rest, n, hn, hmem⟩ : ∃ rest n, 14 ≤ n ∧
        w.bytes = bytesAt (hwaddr ++ rt.dev.hwaddr ++ be16 ethPIp ++ rest) 0 n := by
      rw [← hbytes]
      obtain ⟨⟨mem, data, len, protocol⟩, hdata, -, hsize⟩ := skb
      cases hdata
      refine ⟨_, (len + 20 + 14).toNat, ?_, rfl⟩
      change len.toNat + 34 < 2 ^ 32 at hsize
      rw [UInt32.toNat_add, UInt32.toNat_add]
      change 14 ≤ ((len.toNat + 20) % 2 ^ 32 + 14) % 2 ^ 32
      omega
    rw [hmem]
    constructor
    · have hle : 0 + 6 ≤ (hwaddr ++ (rt.dev.hwaddr ++ be16 ethPIp ++ rest)).length := by
        rw [List.length_append, hlen]
        exact Nat.le_add_right _ _
      rw [take_bytesAt (by omega), List.append_assoc, List.append_assoc,
        ← List.append_assoc rt.dev.hwaddr, bytesAt_eq_take_drop hle, List.drop_zero]
      exact List.take_left' hlen
    · have hread : ∀ i < 14,
          (bytesAt (hwaddr ++ rt.dev.hwaddr ++ be16 ethPIp ++ rest) 0 n).getD i 0 =
            (hwaddr ++ rt.dev.hwaddr ++ be16 ethPIp ++ rest).getD i 0 :=
        fun i hi => getD_bytesAt (hi.trans_le hn)
      unfold ntohs
      rw [hread 12 (by decide), hread (12 + 1) (by decide)]
      exact ntohs_ethertype heth ethPIp

/-- When `arp_rcv` answers. -/
theorem arpRcv_snd (dev : Netdev) (cache : List ArpEntry) (skb : SkBuff) :
    (arpRcv dev cache skb).2 =
      if (arpPacket skb).hwtype = arpEthernet ∧ (arpPacket skb).protype = arpIpv4 ∧
          dev.addr = (arpPacket skb).dip ∧ (arpPacket skb).opcode = arpRequest
      then some (arpReply dev skb (arpPacket skb)) else none := by
  unfold arpRcv netdevGet
  dsimp only
  by_cases hhw : (arpPacket skb).hwtype = arpEthernet
  swap
  · simp [hhw]
  by_cases hpro : (arpPacket skb).protype = arpIpv4
  swap
  · simp [hhw, hpro]
  by_cases hdip : dev.addr = (arpPacket skb).dip
  swap
  · simp [hhw, hpro, hdip]
  by_cases hop : (arpPacket skb).opcode = arpRequest
  · simp [hhw, hpro, hdip, hop]
  · simp [hhw, hpro, hdip, hop]

/-! ## One table -/

/-- What is found was said by a packet. -/
theorem exists_of_lastMac {addr : UInt32} {pkts : List ArpPacket} {ip : UInt32} {hw : List UInt8}
    (h : lastMac addr pkts ip = some hw) : ∃ pkt ∈ pkts, pkt.From ip ∧ pkt.smac = hw := by
  obtain ⟨pkt, hlast, hmac⟩ := Option.map_eq_some_iff.mp h
  have hmem := (List.dropWhile_sublist _).subset (List.mem_of_getLast? hlast)
  obtain ⟨hpkt, hfrom⟩ := List.mem_filter.mp hmem
  exact ⟨pkt, hpkt, of_decide_eq_true hfrom, hmac⟩

section Table

variable {dev : Netdev} {pkts : List ArpPacket} {cache : List ArpEntry}

/-- What is known stays known. -/
theorem Learned.known (h : Learned dev.addr pkts cache) (skb : SkBuff) {ip : UInt32}
    (hip : (arpLookup cache ip).isSome) : (arpLookup (Ip.arpRcv dev cache skb).1 ip).isSome := by
  rw [(h.arpRcv skb).lookup, lastMac_concat]
  rw [h.lookup] at hip
  split
  · rfl
  · exact hip

/-- The sender of a packet for us is known afterwards. -/
theorem Learned.heard (h : Learned dev.addr pkts cache) {skb : SkBuff} {ip : UInt32}
    (hfrom : (arpPacket skb).From ip) (hdip : (arpPacket skb).dip = dev.addr) :
    (arpLookup (Ip.arpRcv dev cache skb).1 ip).isSome := by
  rw [(h.arpRcv skb).lookup, lastMac_concat, if_pos ⟨hfrom, .inr hdip⟩]
  rfl

end Table

/-! ## One step -/

namespace Lan

variable {ι : Type*} {lan : Lan ι} {s : LanState ι}

/-- Every table is what was learned from true packets, and every frame is true. -/
structure Inv (lan : Lan ι) (s : LanState ι) : Prop where
  learned : ∀ i, ∃ pkts, Learned (lan.dev i).addr pkts (s.cache i) ∧ ∀ pkt ∈ pkts, lan.Truthful pkt
  air : ∀ bytes ∈ s.air, lan.TrueFrame bytes

/-- **What a table resolves is true.** -/
theorem Inv.lookup (h : lan.Inv s) {i : ι} {ip : UInt32} {hw : List UInt8}
    (hip : arpLookup (s.cache i) ip = some hw) : lan.owner ip = some hw := by
  obtain ⟨pkts, hlearned, htrue⟩ := h.learned i
  rw [hlearned.lookup] at hip
  obtain ⟨pkt, hpkt, hfrom, rfl⟩ := exists_of_lastMac hip
  exact htrue pkt hpkt ip hfrom

theorem length_hwaddr (lan : Lan ι) (i : ι) : (lan.dev i).hwaddr.length = 6 :=
  lan.length_owner _ _ (lan.owner_dev i)

theorem length_routes (lan : Lan ι) {i : ι} {rt : RtEntry} (hrt : rt ∈ lan.routes i) :
    rt.dev.hwaddr.length = 6 :=
  lan.length_owner _ _ (lan.owner_routes i rt hrt)

theorem trueFrame_of_isArp {bytes : List UInt8} {pkt : ArpPacket} (h : IsArp bytes pkt)
    (hpkt : lan.owner pkt.sip = some pkt.smac) : lan.TrueFrame bytes := by
  intro _ ip hfrom
  rw [h.packet] at hfrom ⊢
  rw [← hfrom.2.2]
  exact hpkt

/-- What a station writes for a datagram is true. -/
theorem trueFrame_ipOutputWrite (s : LanState ι) {i : ι} {skb : Outgoing} {daddr : UInt32}
    (h : lan.Inv s) {w : TunWrite}
    (hw : w ∈ ipOutputWrite (lan.tables s i) daddr skb.toSkBuff) : lan.TrueFrame w.bytes := by
  rcases Option.or_eq_some_iff.mp hw with hout | ⟨-, hreq⟩
  · obtain ⟨rt, hwaddr, -, harp, htake⟩ :=
      mem_ipOutput_outgoing (fun rt hrt => lan.length_routes hrt) skb hout
    obtain ⟨-, htype⟩ := htake (lan.length_owner _ _ (h.lookup harp))
    intro harp'
    rw [htype] at harp'
    exact absurd harp' (by decide)
  · obtain ⟨rt, hrt, rfl⟩ := Option.map_eq_some_iff.mp hreq
    have hmem := mem_routes_of_routeLookup hrt
    exact trueFrame_of_isArp (isArp_arpRequest (lan.length_routes hmem) _ _)
      (lan.owner_routes i rt hmem)

/-- The buffer of a reader. -/
theorem frameArp_netdevRxLoop (bytes heap : List UInt8) :
    arpPacket (netdevRxLoop (tunRead bytes) heap) = frameArp bytes :=
  (sameArp_netdevRxLoop bytes heap).frameArp_eq

/-- **A frame that is heard**: what it teaches is true, and so is the reply. -/
theorem Inv.netdevReceiveArp (h : lan.Inv s) (i : ι) {bytes : List UInt8} (hb : bytes ∈ s.air)
    (heap : List UInt8) :
    (∃ pkts, Learned (lan.dev i).addr pkts
        (Ip.netdevReceiveArp (lan.dev i) (s.cache i) (netdevRxLoop (tunRead bytes) heap)).1 ∧
      ∀ pkt ∈ pkts, lan.Truthful pkt) ∧
    ∀ w ∈ (Ip.netdevReceiveArp (lan.dev i) (s.cache i) (netdevRxLoop (tunRead bytes) heap)).2,
      lan.TrueFrame w.bytes := by
  obtain ⟨pkts, hlearned, htrue⟩ := h.learned i
  have hsame := (sameArp_netdevRxLoop bytes heap).ethertype_eq
  have hpkt := frameArp_netdevRxLoop bytes heap
  unfold Ip.netdevReceiveArp
  split_ifs with htype
  swap
  · exact ⟨⟨pkts, hlearned, htrue⟩, fun w hw => absurd hw (Option.not_mem_none w)⟩
  refine ⟨⟨_, hlearned.arpRcv _, List.forall_mem_append.mpr ⟨htrue, ?_⟩⟩, fun w hw => ?_⟩
  · refine List.forall_mem_singleton.mpr ?_
    rw [hpkt]
    exact h.air bytes hb (hsame.symm.trans htype)
  · rw [arpRcv_snd] at hw
    split_ifs at hw
    · rw [← Option.some.inj hw]
      exact trueFrame_of_isArp (isArp_arpReply (lan.length_hwaddr i) bytes heap) (lan.owner_dev i)
    · exact absurd hw (Option.not_mem_none w)

variable [DecidableEq ι]

theorem forall_mem_air {air : List (List UInt8)} {P : List UInt8 → Prop}
    (h : ∀ bytes ∈ air, P bytes) {o : Option TunWrite} (ho : ∀ w ∈ o, P w.bytes) :
    ∀ bytes ∈ air ++ (o.map TunWrite.bytes).toList, P bytes := by
  refine List.forall_mem_append.mpr ⟨h, fun bytes hb => ?_⟩
  obtain ⟨w, hw, rfl⟩ := Option.mem_map.mp (Option.mem_toList.mp hb)
  exact ho w hw

/-- What a station does with a frame. -/
theorem step_hear (lan : Lan ι) {i : ι} {n : ℕ} {bytes : List UInt8} (hn : s.air[n]? = some bytes)
    (heap : List UInt8) : lan.step s (.hear i n heap) = after s i
      (Ip.netdevReceiveArp (lan.dev i) (s.cache i) (netdevRxLoop (tunRead bytes) heap)) := by
  unfold Lan.step
  dsimp only
  rw [hn]

theorem step_hear_none (lan : Lan ι) {i : ι} {n : ℕ} (hn : s.air[n]? = none) (heap : List UInt8) :
    lan.step s (.hear i n heap) = s := by
  unfold Lan.step
  dsimp only
  rw [hn]

theorem cache_after (s : LanState ι) (i : ι) (r : List ArpEntry × Option TunWrite) :
    (after s i r).cache i = r.1 := by
  change Function.update s.cache i r.1 i = r.1
  rw [Function.update_self]

theorem cache_after_of_ne (s : LanState ι) {i j : ι} (h : j ≠ i)
    (r : List ArpEntry × Option TunWrite) : (after s i r).cache j = s.cache j := by
  change Function.update s.cache i r.1 j = s.cache j
  rw [Function.update_of_ne h]

/-- **One step.** -/
theorem Inv.step (h : lan.Inv s) {e : LanEvent ι} (he : lan.Allows e) : lan.Inv (lan.step s e) := by
  cases e with
  | send i skb daddr =>
    exact ⟨h.learned, forall_mem_air h.air fun w hw => trueFrame_ipOutputWrite s h hw⟩
  | hear i n heap =>
    cases hn : s.air[n]? with
    | none =>
      rw [step_hear_none lan hn]
      exact h
    | some bytes =>
      obtain ⟨hlearned, hreply⟩ := h.netdevReceiveArp i (List.mem_of_getElem? hn) heap
      rw [step_hear lan hn]
      refine ⟨fun j => ?_, forall_mem_air h.air hreply⟩
      by_cases hj : j = i
      · rw [hj, cache_after]
        exact hlearned
      · rw [cache_after_of_ne s hj]
        exact h.learned j
  | foreign bytes =>
    exact ⟨h.learned, List.forall_mem_append.mpr ⟨h.air, List.forall_mem_singleton.mpr he⟩⟩

/-- Frames that were written stay. -/
theorem air_step (lan : Lan ι) (s : LanState ι) (e : LanEvent ι) :
    ∃ more, (lan.step s e).air = s.air ++ more := by
  cases e with
  | send i skb daddr => exact ⟨_, rfl⟩
  | hear i n heap =>
    cases hn : s.air[n]? with
    | none => exact ⟨[], by rw [step_hear_none lan hn, List.append_nil]⟩
    | some bytes => exact ⟨_, by rw [step_hear lan hn]; rfl⟩
  | foreign bytes => exact ⟨_, rfl⟩

/-- What a station knows it does not forget. -/
theorem Inv.known_step (h : lan.Inv s) (e : LanEvent ι) {i : ι} {ip : UInt32}
    (hip : (arpLookup (s.cache i) ip).isSome) : (arpLookup ((lan.step s e).cache i) ip).isSome := by
  cases e with
  | send j skb daddr => exact hip
  | hear j n heap =>
    cases hn : s.air[n]? with
    | none =>
      rw [step_hear_none lan hn]
      exact hip
    | some bytes =>
      rw [step_hear lan hn]
      by_cases hj : i = j
      swap
      · rw [cache_after_of_ne s hj]
        exact hip
      rw [hj, cache_after]
      rw [hj] at hip
      obtain ⟨pkts, hlearned, -⟩ := h.learned j
      unfold Ip.netdevReceiveArp
      split_ifs
      · exact hlearned.known _ hip
      · exact hip
  | foreign bytes => exact hip

/-- The sender of a packet for the station is known once it was heard. -/
theorem Inv.heard (h : lan.Inv s) {i : ι} {n : ℕ} {bytes : List UInt8} (hn : s.air[n]? = some bytes)
    {pkt : ArpPacket} (harp : IsArp bytes pkt) {ip : UInt32} (hfrom : pkt.From ip)
    (hdip : pkt.dip = (lan.dev i).addr) (heap : List UInt8) :
    (arpLookup ((lan.step s (.hear i n heap)).cache i) ip).isSome := by
  obtain ⟨pkts, hlearned, -⟩ := h.learned i
  have hpkt := (frameArp_netdevRxLoop bytes heap).trans harp.packet
  have htype := (sameArp_netdevRxLoop bytes heap).ethertype_eq.trans harp.ethertype
  rw [step_hear lan hn, cache_after, Ip.netdevReceiveArp, if_pos htype]
  rw [← hpkt] at hfrom hdip
  exact hlearned.heard hfrom hdip

/-- A request for the station is answered. -/
theorem air_step_request {i : ι} {n : ℕ} {bytes : List UInt8} (hn : s.air[n]? = some bytes)
    {pkt : ArpPacket} (harp : IsArp bytes pkt) {ip : UInt32} (hfrom : pkt.From ip)
    (hdip : pkt.dip = (lan.dev i).addr) (hop : pkt.opcode = arpRequest) (heap : List UInt8) :
    ∃ reply, (lan.step s (.hear i n heap)).air = s.air ++ [reply] ∧
      IsArp reply ((lan.dev i).replyPacket pkt) := by
  have hpkt := (frameArp_netdevRxLoop bytes heap).trans harp.packet
  have htype := (sameArp_netdevRxLoop bytes heap).ethertype_eq.trans harp.ethertype
  have hreply := isArp_arpReply (lan.length_hwaddr i) bytes heap
  rw [step_hear lan hn, Ip.netdevReceiveArp, if_pos htype]
  change ∃ reply, s.air ++ (Option.map TunWrite.bytes (arpRcv _ _ _).2).toList = _ ∧ _
  rw [arpRcv_snd]
  rw [hpkt] at hreply ⊢
  rw [if_pos ⟨hfrom.1, hfrom.2.1, hdip.symm, hop⟩]
  exact ⟨_, rfl, hreply⟩

/-! ## Runs -/

/-- A datagram of `i` whose next hop is `k` goes to `ip_output`, `k` hears what was written for it,
and `i` hears what `k` wrote then; anything may happen in between. -/
def Exchange (lan : Lan ι) (i k : ι) (events : List (LanEvent ι)) : Prop :=
  ∃ es₁ es₂ es₃ es₄ skb daddr rt heap heap',
    events = es₁ ++ .send i skb daddr :: es₂ ++ .hear k (lan.run es₁).air.length heap :: es₃ ++
        .hear i (lan.run (es₁ ++ .send i skb daddr :: es₂)).air.length heap' :: es₄ ∧
      routeLookup (lan.tables (lan.run es₁) i) daddr = some rt ∧ rt.dev = lan.dev i ∧
      nextHop rt daddr = (lan.dev k).addr

theorem run_concat (lan : Lan ι) (events : List (LanEvent ι)) (e : LanEvent ι) :
    lan.run (events ++ [e]) = lan.step (lan.run events) e := by
  unfold Lan.run
  rw [List.foldl_append]
  rfl

theorem inv_run {events : List (LanEvent ι)} (h : ∀ e ∈ events, lan.Allows e) :
    lan.Inv (lan.run events) := by
  induction events using List.reverseRecOn with
  | nil =>
    refine ⟨fun i => ⟨[], ?_, fun _ hpkt => absurd hpkt List.not_mem_nil⟩,
      fun _ hb => absurd hb List.not_mem_nil⟩
    exact ⟨fun _ hentry => absurd hentry List.not_mem_nil, List.nodup_nil, fun ip => rfl⟩
  | append_singleton events e ih =>
    obtain ⟨hevents, he⟩ := List.forall_mem_append.mp h
    rw [run_concat]
    exact (ih hevents).step (he e (List.mem_singleton_self e))

/-- Frames keep their places. -/
theorem air_run (lan : Lan ι) (events more : List (LanEvent ι)) :
    ∃ frames, (lan.run (events ++ more)).air = (lan.run events).air ++ frames := by
  induction more using List.reverseRecOn with
  | nil => exact ⟨[], by rw [List.append_nil, List.append_nil]⟩
  | append_singleton more e ih =>
    obtain ⟨frames, hframes⟩ := ih
    obtain ⟨last, hlast⟩ := lan.air_step (lan.run (events ++ more)) e
    refine ⟨frames ++ last, ?_⟩
    rw [← List.append_assoc, run_concat, hlast, hframes, List.append_assoc]

theorem known_run {events more : List (LanEvent ι)} (h : ∀ e ∈ events ++ more, lan.Allows e) {i : ι}
    {ip : UInt32} (hip : (arpLookup ((lan.run events).cache i) ip).isSome) :
    (arpLookup ((lan.run (events ++ more)).cache i) ip).isSome := by
  induction more using List.reverseRecOn with
  | nil => rwa [List.append_nil]
  | append_singleton more e ih =>
    rw [← List.append_assoc] at h ⊢
    have hevents := (List.forall_mem_append.mp h).1
    rw [run_concat]
    exact (inv_run hevents).known_step e (ih hevents)

/-- The frame at the end, later on. -/
theorem getElem?_air_run (lan : Lan ι) {events : List (LanEvent ι)} {e : LanEvent ι}
    {bytes : List UInt8} (h : (lan.step (lan.run events) e).air = (lan.run events).air ++ [bytes])
    (more : List (LanEvent ι)) :
    (lan.run (events ++ e :: more)).air[(lan.run events).air.length]? = some bytes := by
  obtain ⟨frames, hframes⟩ := lan.air_run (events ++ [e]) more
  rw [List.append_cons, hframes, run_concat, h, List.append_assoc]
  rw [List.getElem?_append_right le_rfl, Nat.sub_self]
  rfl

/-- What a station writes for an address it does not know. -/
theorem air_step_send (lan : Lan ι) {s : LanState ι} {i : ι} {daddr : UInt32} {rt : RtEntry}
    (hrt : routeLookup (lan.tables s i) daddr = some rt)
    (hnone : arpLookup (s.cache i) (nextHop rt daddr) = none) (skb : Outgoing) :
    (lan.step s (.send i skb daddr)).air =
      s.air ++ [(rt.dev.arpRequest rt.dev.addr (nextHop rt daddr)).bytes] := by
  have harp : arpGetHwaddr (lan.tables s i) (nextHop rt daddr) = none := hnone
  have hout : ipOutput (lan.tables s i) daddr skb.toSkBuff = none := by
    unfold ipOutput
    rw [hrt]
    dsimp only [Ip.dstNeighOutput]
    rw [harp]
    rfl
  unfold Lan.step ipOutputWrite
  dsimp only
  rw [hout, hrt]
  rfl

/-- **An exchange resolves the address.** -/
theorem known_of_exchange {i k : ι} {events : List (LanEvent ι)} (h : ∀ e ∈ events, lan.Allows e)
    (hex : lan.Exchange i k events) :
    (arpLookup ((lan.run events).cache i) (lan.dev k).addr).isSome := by
  obtain ⟨es₁, es₂, es₃, es₄, skb, daddr, rt, heap, heap', hevents, hrt, hdev, hhop⟩ := hex
  have hasked := (List.forall_mem_append.mp (hevents ▸ h)).1
  cases hknown : arpLookup ((lan.run es₁).cache i) (lan.dev k).addr with
  | some hw =>
    have hsplit : events = es₁ ++ (.send i skb daddr :: es₂ ++
        .hear k (lan.run es₁).air.length heap :: es₃ ++
          .hear i (lan.run (es₁ ++ .send i skb daddr :: es₂)).air.length heap' :: es₄) := by
      rw [hevents, List.append_assoc, List.append_assoc, List.append_assoc]
    rw [hsplit] at h ⊢
    exact known_run h (by rw [hknown]; rfl)
  | none =>
    rw [← hhop] at hknown
    -- the request of `i`
    have hrequest := getElem?_air_run lan (lan.air_step_send hrt hknown skb) es₂
    have hisreq := isArp_arpRequest (hdev ▸ lan.length_hwaddr i) rt.dev.addr (nextHop rt daddr)
    -- the reply of `k`
    obtain ⟨reply, hair, hisreply⟩ := air_step_request hrequest hisreq ⟨rfl, rfl, rfl⟩ hhop rfl heap
    have hreply := getElem?_air_run lan hair es₃
    have hheard := (inv_run hasked).heard hreply hisreply ⟨rfl, rfl, rfl⟩
      (congrArg Netdev.addr hdev) heap'
    rw [← run_concat] at hheard
    rw [hevents, List.append_cons] at h ⊢
    exact known_run h hheard

end Lan

/-- **Address resolution**: in every run in which other machines tell the truth, what a table
resolves is the owner's, a datagram goes to the owner of its next hop, and a station that has asked
knows once the request and the reply were heard. -/
theorem lan_run {ι : Type*} [DecidableEq ι] (lan : Lan ι) (events : List (LanEvent ι))
    (h : ∀ e ∈ events, lan.Allows e) :
    (∀ i ip hw, arpLookup ((lan.run events).cache i) ip = some hw → lan.owner ip = some hw) ∧
      (∀ i daddr (skb : Outgoing),
        ∀ w ∈ ipOutput (lan.tables (lan.run events) i) daddr skb.toSkBuff,
          ∃ rt, routeLookup (lan.tables (lan.run events) i) daddr = some rt ∧
            lan.owner (nextHop rt daddr) = some (w.bytes.take 6)) ∧
      ∀ i k, lan.Exchange i k events →
        arpLookup ((lan.run events).cache i) (lan.dev k).addr = some (lan.dev k).hwaddr := by
  have hinv := lan.inv_run h
  refine ⟨fun i ip hw => hinv.lookup, fun i daddr skb w hw => ?_, fun i k hex => ?_⟩
  · obtain ⟨rt, hwaddr, hrt, harp, htake⟩ :=
      mem_ipOutput_outgoing (fun rt hrt => lan.length_routes hrt) skb hw
    have howner := hinv.lookup harp
    exact ⟨rt, hrt, by rw [(htake (lan.length_owner _ _ howner)).1, howner]⟩
  · obtain ⟨hw, hfound⟩ := Option.isSome_iff_exists.mp (Lan.known_of_exchange h hex)
    rw [hfound, ← hinv.lookup hfound, lan.owner_dev]

/-- Two stations on one network. -/
def pairDev (i : Bool) : Netdev where
  addr := if i then 0x0a000005 else 0x0a000006
  hwaddr := [0, 0x0c, 0x29, 0x6d, 0x50, if i then 0x25 else 0x26]

def pairLan : Lan Bool where
  dev := pairDev
  routes i :=
    [{ dst := 0x0a000000, gateway := 0, netmask := 0xffffff00, isGateway := false
       dev := pairDev i }]
  owner ip :=
    if ip = 0x0a000005 then some (pairDev true).hwaddr
    else if ip = 0x0a000006 then some (pairDev false).hwaddr else none
  owner_dev i := by cases i <;> rfl
  owner_routes i rt hrt := by
    rw [List.mem_singleton.mp hrt]
    cases i <;> rfl
  length_owner ip hw hhw := by
    split_ifs at hhw <;> cases hhw <;> rfl

/-- A buffer with an empty segment. -/
def emptyOutgoing : Outgoing where
  mem := List.replicate 54 0
  data := 34
  len := 20
  protocol := ipTcp
  data_eq := rfl
  room := Nat.le_add_right 34 20
  len_lt := Nat.le_of_ble_eq_true rfl

theorem lan_run_pair :
    arpLookup ((pairLan.run [.send true emptyOutgoing 0x0a000006, .hear false 0 [],
      .hear true 1 []]).cache true) 0x0a000006 = some [0, 0x0c, 0x29, 0x6d, 0x50, 0x26] :=
  (lan_run pairLan _ fun e he => by
    simp only [List.mem_cons, List.not_mem_nil, or_false] at he
    rcases he with rfl | rfl | rfl <;> trivial).2.2 true false
      ⟨[], [], [], [], emptyOutgoing, 0x0a000006, _, [], [], rfl, rfl, rfl, rfl⟩

end LvlIp.Ip
