import LvlIp.Tcp.Output

/-!
# Below TCP

The functions that a segment passes on its way out, as far as they decide what
`tcp_transmit_skb` returns: `ip_output` of `src/ip_output.c`, `dst_neigh_output` of `src/dst.c`,
`netdev_transmit` of `src/netdev.c` and `tun_write` of `src/tuntap_if.c`. The routing table, the
ARP cache and the `write` of the tap device are what they get from outside.
-/

namespace LvlIp.Tcp

/-- `struct rtentry`, as far as output reads it. -/
structure RtEntry where
  isGateway : Bool
  gateway : UInt32

/-- The routes, the ARP cache, and the result of the `n`-th `write` of `len` bytes. -/
structure Net where
  routeLookup : UInt32 → Option RtEntry
  arpGetHwaddr : UInt32 → Option (List UInt8)
  write : ℕ → ℕ → ℤ

/-- `ETH_HDR_LEN`. -/
def ethHdrLen : ℕ := 14

/-- `IP_HDR_LEN`. -/
def ipHdrLen : ℕ := 20

section Output

variable (net : Net) (n : ℕ)

/-- `tun_write`. -/
def tunWrite (len : ℕ) : ℤ := net.write n len

/-- `netdev_transmit`. -/
def netdevTransmit (len : ℕ) : ℤ := tunWrite net n (len + ethHdrLen)

/-- `dst_neigh_output`; the traffic is not sent when the address is not resolved. -/
def dstNeighOutput (rt : RtEntry) (daddr : UInt32) (len : ℕ) : ℤ :=
  match net.arpGetHwaddr (if rt.isGateway then rt.gateway else daddr) with
  | some _ => netdevTransmit net n len
  | none => -1

/-- `ip_output`. -/
def ipOutput (daddr : UInt32) (len : ℕ) : ℤ :=
  match net.routeLookup daddr with
  | none => -1
  | some rt => dstNeighOutput net n rt daddr (len + ipHdrLen)

end Output

/-- The environment of a socket that talks to `daddr`, when its `n`-th segment has `len n`
bytes. -/
def Net.env (net : Net) (daddr : UInt32) (len : ℕ → ℕ) (freed : ℕ → ℕ → Fec.Packet) : Env where
  link n := ipOutput net n daddr (len n)
  freed := freed

/-- Every link write succeeds: the peer is routed to and resolved, and `write` takes all bytes. -/
structure Net.Up (net : Net) (daddr : UInt32) : Prop where
  routed : ∃ rt, net.routeLookup daddr = some rt ∧
    ∃ hw, net.arpGetHwaddr (if rt.isGateway then rt.gateway else daddr) = some hw
  writes : ∀ n len, net.write n len = len

/-- **What `write` returns is passed up unchanged**: a positive number. -/
theorem Net.Up.link_pos {net : Net} {daddr : UInt32} (h : net.Up daddr) (len : ℕ → ℕ)
    (freed : ℕ → ℕ → Fec.Packet) (n : ℕ) : 0 < (net.env daddr len freed).link n := by
  obtain ⟨rt, hrt, hw, hhw⟩ := h.routed
  have hlink : (net.env daddr len freed).link n = ((len n + ipHdrLen + ethHdrLen : ℕ) : ℤ) := by
    rw [← h.writes n]
    change ipOutput net n daddr (len n) = _
    unfold ipOutput
    rw [hrt]
    dsimp only
    unfold dstNeighOutput
    rw [hhw]
    rfl
  rw [hlink]
  unfold ethHdrLen
  omega

end LvlIp.Tcp
