import LvlIp.Tcp.Datagram

/-!
# The way of a frame

A frame from the tap device up to the protocols, and an echo reply back down: `netdev_rx_loop`,
`netdev_receive` and `netdev_transmit` of `src/netdev.c`, `ip_rcv` of `src/ip_input.c`,
`icmpv4_incoming` and `icmpv4_reply` of `src/icmpv4.c`, `ip_output` of `src/ip_output.c`,
`dst_neigh_output` of `src/dst.c`, `route_lookup` of `src/route.c` and `arp_get_hwaddr` of
`src/arp.c`. A buffer is the memory from its `head` on, whatever stands behind its end included;
header fields stay in network byte order there.
-/

namespace LvlIp.Ip

open Fec Tcp

/-! ## Buffers -/

/-- `BUFLEN`. -/
def bufLen : ℕ := 1600

/-- `struct sk_buff`, as far as a received frame uses it. `data` is an offset from `head`. -/
structure SkBuff where
  mem : List UInt8
  data : ℕ
  len : UInt32
  protocol : UInt8

/-- `skb_reserve`. -/
def skbReserve (skb : SkBuff) (len : ℕ) : SkBuff := { skb with data := skb.data + len }

/-- `skb_push`. -/
def skbPush (skb : SkBuff) (len : ℕ) : SkBuff :=
  { skb with data := skb.data - len, len := skb.len + UInt32.ofNat len }

/-- Stores some bytes at an offset. -/
def SkBuff.store (skb : SkBuff) (off : ℕ) (bytes : List UInt8) : SkBuff :=
  { skb with mem := skb.mem.take off ++ bytes ++ skb.mem.drop (off + bytes.length) }

/-- `ip_hdr`. -/
def ipHdr (skb : SkBuff) : List UInt8 := skb.mem.drop ethHdrLen

/-! ## Routes and neighbours -/

/-- `struct netdev`. -/
structure Netdev where
  addr : UInt32
  hwaddr : List UInt8

/-- `struct rtentry`. -/
structure RtEntry where
  dst : UInt32
  gateway : UInt32
  netmask : UInt32
  isGateway : Bool
  dev : Netdev

/-- `struct arp_cache_entry`. -/
structure ArpCacheEntry where
  resolved : Bool
  sip : UInt32
  smac : List UInt8

/-- The routes and the ARP cache. -/
structure Tables where
  routes : List RtEntry
  arpCache : List ArpCacheEntry

/-- `route_lookup`: the first route that matches, or the last one. -/
def routeLookup (t : Tables) (daddr : UInt32) : Option RtEntry :=
  (t.routes.find? fun rt => daddr &&& rt.netmask == rt.dst &&& rt.netmask).or t.routes.getLast?

/-- `arp_get_hwaddr`. -/
def arpGetHwaddr (t : Tables) (sip : UInt32) : Option (List UInt8) :=
  (t.arpCache.find? fun entry => entry.resolved && entry.sip == sip).map ArpCacheEntry.smac

/-! ## Output -/

/-- A call of `tun_write`: a range of the buffer, and what it holds. -/
structure TunWrite where
  off : ℕ
  len : ℕ
  bytes : List UInt8

/-- `netdev_transmit`. -/
def netdevTransmit (dev : Netdev) (dstHw : List UInt8) (ethertype : UInt16) (skb : SkBuff) :
    TunWrite :=
  let skb := skbPush skb ethHdrLen
  let skb := skb.store skb.data (dstHw ++ dev.hwaddr ++ be16 ethertype)
  { off := skb.data, len := skb.len.toNat, bytes := bytesAt skb.mem skb.data skb.len.toNat }

/-- `ETH_P_IP`. -/
def ethPIp : UInt16 := 0x0800

/-- The address that `dst_neigh_output` resolves. -/
def nextHop (rt : RtEntry) (daddr : UInt32) : UInt32 := if rt.isGateway then rt.gateway else daddr

/-- `dst_neigh_output`; nothing is sent to an address that is not resolved. -/
def dstNeighOutput (t : Tables) (rt : RtEntry) (daddr : UInt32) (skb : SkBuff) : Option TunWrite :=
  (arpGetHwaddr t (nextHop rt daddr)).map fun dmac => netdevTransmit rt.dev dmac ethPIp skb

/-- The header that `ip_output` writes, with some checksum field. -/
def ipHeader (rt : RtEntry) (daddr : UInt32) (skb : SkBuff) (csum : List UInt8) : List UInt8 :=
  [0x45, 0] ++ be16 skb.len.toUInt16 ++ bytesAt (ipHdr skb) 4 2 ++ [0x40, 0, 64, skb.protocol] ++
    csum ++ be32 rt.dev.addr ++ be32 daddr

/-- The bytes of a 16-bit number in memory. -/
def le16 (x : ℕ) : List UInt8 := [UInt8.ofNat (x % 256), UInt8.ofNat (x / 256)]

/-- `ip_output`. -/
def ipOutput (t : Tables) (daddr : UInt32) (skb : SkBuff) : Option TunWrite :=
  match routeLookup t daddr with
  | none => none
  | some rt =>
    let skb := skbPush skb ipHdrLen
    let csum := checksum (ipHeader rt daddr skb [0, 0])
    dstNeighOutput t rt daddr (skb.store ethHdrLen (ipHeader rt daddr skb (le16 csum)))

/-! ## ICMP -/

/-- `ICMPV4`. -/
def icmpv4 : UInt8 := 1

/-- `ICMP_V4_ECHO`. -/
def icmpV4Echo : UInt8 := 8

/-- `ICMP_V4_REPLY`. -/
def icmpV4Reply : UInt8 := 0

/-- An echo reply: the range of the buffer that its checksum is taken of, and what is sent. -/
structure EchoReply where
  off : ℕ
  len : ℕ
  sent : Option TunWrite

/-- `icmp_len` of `icmpv4_reply`, a 16-bit difference. -/
def icmpLen (p : List UInt8) : UInt16 := ntohs p 2 - UInt16.ofNat (ipIhl p * 4)

/-- `icmpv4_reply`. -/
def icmpv4Reply (t : Tables) (skb : SkBuff) : EchoReply :=
  let p := ipHdr skb
  let len := (icmpLen p).toNat
  let skb := skbReserve skb (ethHdrLen + ipHdrLen + len)
  let skb := skbPush skb len
  let skb := (skb.store skb.data [icmpV4Reply]).store (skb.data + 2) [0, 0]
  let csum := checksum (bytesAt skb.mem skb.data len)
  let skb := skb.store (skb.data + 2) (le16 csum)
  { off := skb.data, len := len
    sent := ipOutput t (ntohl p 12) { skb with protocol := icmpv4 } }

/-- `icmpv4_incoming`: the message is looked for right behind the fixed IP header. -/
def icmpv4Incoming (t : Tables) (skb : SkBuff) : Option EchoReply :=
  if (ipHdr skb).getD ipHdrLen 0 = icmpV4Echo then some (icmpv4Reply t skb) else none

/-! ## Input -/

/-- A protocol that `ip_rcv` knows. -/
inductive Proto
  | icmp
  | tcp
deriving DecidableEq

/-- `ip_rcv`: the protocol that a datagram is dispatched to. -/
def ipRcvProto (p : List UInt8) : Option Proto :=
  if (p.getD 0 0).toNat / 16 ≠ ipv4 then none
  else if ipIhl p < 5 then none
  else if p.getD 8 0 = 0 then none
  else if checksum (bytesAt p 0 (ipIhl p * 4)) ≠ 0 then none
  else if p.getD 9 0 = icmpv4 then some .icmp
  else if p.getD 9 0 = ipTcp then some .tcp
  else none

/-- `netdev_receive`, as far as it hands frames to `ip_rcv`. -/
def netdevReceive (skb : SkBuff) : Option Proto :=
  if ntohs skb.mem 12 = ethPIp then ipRcvProto (ipHdr skb) else none

/-- A frame that `tun_read` returns. -/
structure Frame where
  bytes : List UInt8
  fits : bytes.length ≤ bufLen

/-- The buffer in which `netdev_rx_loop` hands on a frame, before some heap. -/
def netdevRxLoop (f : Frame) (heap : List UInt8) : SkBuff where
  mem := f.bytes ++ List.replicate (bufLen - f.bytes.length) 0 ++ heap
  data := 0
  len := UInt32.ofNat f.bytes.length
  protocol := 0

/-- The datagram in a frame. -/
def Frame.datagram (f : Frame) : List UInt8 := f.bytes.drop ethHdrLen

/-- The protocol that a frame is dispatched to. -/
def Frame.proto (f : Frame) : Option Proto :=
  if ntohs f.bytes 12 = ethPIp then ipRcvProto f.datagram else none

/-! ## The fields in the buffer -/

/-- The buffer holds the frame, and zeros up to its end. -/
theorem getD_mem_netdevRxLoop (f : Frame) (heap : List UInt8) {i : ℕ} (hi : i < bufLen) :
    (netdevRxLoop f heap).mem.getD i 0 = f.bytes.getD i 0 := by
  have hfits := f.fits
  unfold bufLen at hi hfits
  unfold netdevRxLoop
  rw [List.getD_append _ _ _ _ (by simp [bufLen]; omega)]
  rcases Nat.lt_or_ge i f.bytes.length with hlt | hge
  · rw [List.getD_append _ _ _ _ hlt]
  · rw [List.getD_append_right _ _ _ _ hge, List.getD_eq_default _ _ hge]
    simp [List.getElem?_replicate]
    split <;> rfl

theorem getD_drop (p : List UInt8) (n i : ℕ) : (p.drop n).getD i 0 = p.getD (n + i) 0 := by
  rw [List.getD_eq_getElem?_getD, List.getElem?_drop, ← List.getD_eq_getElem?_getD]

theorem getD_ipHdr_netdevRxLoop (f : Frame) (heap : List UInt8) {i : ℕ} (hi : i < datagramMax) :
    (ipHdr (netdevRxLoop f heap)).getD i 0 = f.datagram.getD i 0 := by
  unfold ipHdr Frame.datagram
  rw [getD_drop, getD_drop]
  apply getD_mem_netdevRxLoop
  unfold datagramMax at hi
  unfold ethHdrLen bufLen
  omega

theorem ntohs_ipHdr_netdevRxLoop (f : Frame) (heap : List UInt8) {i : ℕ}
    (hi : i + 1 < datagramMax) :
    ntohs (ipHdr (netdevRxLoop f heap)) i = ntohs f.datagram i := by
  unfold ntohs
  rw [getD_ipHdr_netdevRxLoop f heap (by omega), getD_ipHdr_netdevRxLoop f heap hi]

theorem ntohl_ipHdr_netdevRxLoop (f : Frame) (heap : List UInt8) {i : ℕ}
    (hi : i + 3 < datagramMax) :
    ntohl (ipHdr (netdevRxLoop f heap)) i = ntohl f.datagram i := by
  unfold ntohl
  rw [getD_ipHdr_netdevRxLoop f heap (by omega), getD_ipHdr_netdevRxLoop f heap (by omega),
    getD_ipHdr_netdevRxLoop f heap (by omega), getD_ipHdr_netdevRxLoop f heap hi]

theorem ipIhl_ipHdr_netdevRxLoop (f : Frame) (heap : List UInt8) :
    ipIhl (ipHdr (netdevRxLoop f heap)) = ipIhl f.datagram := by
  unfold ipIhl
  rw [getD_ipHdr_netdevRxLoop f heap (by decide)]

theorem icmpLen_ipHdr_netdevRxLoop (f : Frame) (heap : List UInt8) :
    icmpLen (ipHdr (netdevRxLoop f heap)) = icmpLen f.datagram := by
  unfold icmpLen
  rw [ntohs_ipHdr_netdevRxLoop f heap (by decide), ipIhl_ipHdr_netdevRxLoop]

theorem ipRcvProto_ipHdr_netdevRxLoop (f : Frame) (heap : List UInt8) :
    ipRcvProto (ipHdr (netdevRxLoop f heap)) = ipRcvProto f.datagram := by
  have hihl : ipIhl f.datagram < 16 := Nat.mod_lt _ (by decide)
  have hbytes : bytesAt (ipHdr (netdevRxLoop f heap)) 0 (ipIhl f.datagram * 4) =
      bytesAt f.datagram 0 (ipIhl f.datagram * 4) := by
    unfold bytesAt
    apply List.map_congr_left
    intro i hi
    rw [List.mem_range] at hi
    refine getD_ipHdr_netdevRxLoop f heap ?_
    unfold datagramMax
    omega
  unfold ipRcvProto
  rw [ipIhl_ipHdr_netdevRxLoop, hbytes, getD_ipHdr_netdevRxLoop f heap (by decide),
    getD_ipHdr_netdevRxLoop f heap (by decide), getD_ipHdr_netdevRxLoop f heap (by decide)]

theorem netdevReceive_netdevRxLoop (f : Frame) (heap : List UInt8) :
    netdevReceive (netdevRxLoop f heap) = f.proto := by
  have htype : ntohs (netdevRxLoop f heap).mem 12 = ntohs f.bytes 12 := by
    unfold ntohs
    rw [getD_mem_netdevRxLoop f heap (by decide), getD_mem_netdevRxLoop f heap (by decide)]
  unfold netdevReceive Frame.proto
  rw [htype, ipRcvProto_ipHdr_netdevRxLoop]

/-- The datagrams that are handed to `tcp_in`. -/
theorem ipRcvProto_tcp_iff (p : List UInt8) : ipRcvProto p = some .tcp ↔ ipRcv p := by
  unfold ipRcvProto ipRcv
  split_ifs with h1 h2 h3 h4 h5 h6 <;> simp_all [icmpv4, ipTcp]

theorem five_le_ipIhl {p : List UInt8} {proto : Proto} (h : ipRcvProto p = some proto) :
    5 ≤ ipIhl p := by
  unfold ipRcvProto at h
  split_ifs at h <;> omega

end LvlIp.Ip
