import LvlIp.Ip.Checksum
import LvlIp.Ip.Lengths
import LvlIp.Receive.SackSound
import LvlIp.Send.Alike

/-!
# The frame of a segment

The buffer of a segment that is sent, byte by byte: `tcp_alloc_skb` reserves its room, `skb_push` moves
`data` down over it, `tcp_transmit_skb` and `ip_output` write their headers at fixed offsets from
`head`, and `netdev_transmit` writes its header at `data`. An attempt can end at the route lookup or at
the ARP cache, with only some of the headers pushed; `skb_reset_header` goes before the next one. In
every run every frame that leaves a buffer starts at `head`, and has the options and the payload of the
first attempt (`framesKept_of_sentAlike`). The room reserved for the options holds all that is written
there, as long as no coded segment announces a block with a symbol at sequence number 0 (`frames_run`,
`not_frames_spill`).
-/

namespace LvlIp.Ip

open Fec Tcp

/-! ## The buffer -/

/-- `struct sk_buff`, as far as a segment that is sent uses it. -/
structure TxBuff extends SkBuff where
  /-- `skb->end`, an offset from `head`. -/
  tail : ℕ
  dlen : ℕ
  /-- Where `skb_push` has moved `data`, as offsets from `head`. -/
  places : List ℤ

namespace TxBuff

/-- `skb_push`. -/
def push (b : TxBuff) (len : ℕ) : TxBuff :=
  { b with toSkBuff := skbPush b.toSkBuff len, places := b.places ++ [(b.data : ℤ) - len] }

/-- Stores some bytes at an offset. -/
def put (b : TxBuff) (off : ℕ) (bytes : List UInt8) : TxBuff :=
  { b with toSkBuff := b.toSkBuff.store off bytes }

/-- `skb_reset_header`. -/
def skbResetHeader (b : TxBuff) : TxBuff :=
  { b with data := b.tail - b.dlen, len := UInt32.ofNat b.dlen }

/-- `tcp_alloc_skb`, with `alloc_skb`. -/
def tcpAllocSkb (optlen size : ℕ) : TxBuff :=
  let reserved := ethHdrLen + ipHdrLen + tcpHdrLen + optlen + size
  let skb : SkBuff := { mem := List.replicate reserved 0, data := 0, len := 0, protocol := ipTcp }
  { skbReserve skb reserved with tail := reserved, dlen := size, places := [] }

/-- A buffer with its payload. The header is written in place and not through `data`. -/
def build (optlen : ℕ) (payload : List UInt8) : TxBuff :=
  let b := (tcpAllocSkb optlen payload.length).push payload.length
  b.put b.data payload

end TxBuff

/-! ## Attempts -/

/-- Routes and neighbours. -/
structure Neighbours extends Tables where
  hwaddr_length : ∀ rt ∈ routes, rt.dev.hwaddr.length = 6
  smac_length : ∀ entry ∈ arpCache, entry.smac.length = 6

/-- What a segment of a socket has in its headers whenever it goes out. -/
structure Endpoints where
  sport : UInt16
  dport : UInt16
  saddr : UInt32
  daddr : UInt32

/-- What an attempt meets. -/
structure Occasion where
  net : Neighbours
  rcvWnd : UInt32

/-- `htonl`, as a number. -/
def htonl (x : UInt32) : UInt32 := ntohl (le32 x) 0

/-- The byte of the flags. -/
def tcpFlags (th : Tcphdr) : UInt8 :=
  UInt8.ofNat (th.fin.toNat + 2 * th.syn.toNat + 4 * th.rst.toNat + 8 * th.psh.toNat + 16 * th.ack.toNat)

/-- `struct tcphdr` in network byte order, with some checksum field. -/
def tcphdrBytes (ep : Endpoints) (th : Tcphdr) (rcvWnd : UInt32) (csum : List UInt8) : List UInt8 :=
  be16 ep.sport ++ be16 ep.dport ++ be32 th.seq ++ be32 th.ackSeq ++
    [UInt8.ofNat (16 * th.hl), tcpFlags th] ++ be16 rcvWnd.toUInt16 ++ csum ++ [0, 0]

namespace TxBuff

/-- `netdev_transmit`: the buffer, and what `tun_write` gets. -/
def netdevTransmit (dev : Netdev) (dstHw : List UInt8) (b : TxBuff) : TxBuff × Option TunWrite :=
  let b := b.push ethHdrLen
  let b := b.put b.data (dstHw ++ dev.hwaddr ++ be16 ethPIp)
  (b, some { off := b.data, len := b.len.toNat, bytes := bytesAt b.mem b.data b.len.toNat })

/-- `dst_neigh_output`; nothing is sent to an address that is not resolved. -/
def dstNeighOutput (t : Tables) (rt : RtEntry) (daddr : UInt32) (b : TxBuff) :
    TxBuff × Option TunWrite :=
  match arpGetHwaddr t (nextHop rt daddr) with
  | none => (b, none)
  | some dmac => b.netdevTransmit rt.dev dmac

/-- `ip_output`. -/
def ipOutput (t : Tables) (daddr : UInt32) (b : TxBuff) : TxBuff × Option TunWrite :=
  match routeLookup t daddr with
  | none => (b, none)
  | some rt =>
    let b := b.push ipHdrLen
    (b.put ethHdrLen (ipSendHeader rt daddr b.toSkBuff)).dstNeighOutput t rt daddr

/-- What is sent is what the model of a reply sends. -/
theorem snd_ipOutput (t : Tables) (daddr : UInt32) (b : TxBuff) :
    (b.ipOutput t daddr).2 = Ip.ipOutput t daddr b.toSkBuff := by
  unfold TxBuff.ipOutput Ip.ipOutput
  cases routeLookup t daddr with
  | none => rfl
  | some rt =>
    dsimp only [TxBuff.dstNeighOutput, Ip.dstNeighOutput]
    cases arpGetHwaddr t (nextHop rt daddr) with
    | none => rfl
    | some dmac => rfl

/-- `tcp_transmit_skb`, with the header as it is filled in; `tcp_hdr` is at a fixed offset. -/
def tcpTransmitSkb (ep : Endpoints) (oc : Occasion) (th : Tcphdr) (b : TxBuff) :
    TxBuff × Option TunWrite :=
  let b := b.push (4 * th.hl)
  let b := b.put (ethHdrLen + ipHdrLen) (tcphdrBytes ep th oc.rcvWnd [0, 0] ++ th.data)
  let csum := tcpUdpChecksum (htonl ep.saddr) (htonl ep.daddr) ipTcp (b.mem.drop b.data) b.len.toUInt16
  let b := b.put (ethHdrLen + ipHdrLen + 16) (le16 csum)
  b.ipOutput oc.net.toTables ep.daddr

/-- Later attempts. -/
def resendAll (ep : Endpoints) (ocs : ℕ → Occasion) :
    ℕ → TxBuff → List Transmission → List (TxBuff × Option TunWrite)
  | _, _, [] => []
  | n, b, t :: ts =>
    let a := b.skbResetHeader.tcpTransmitSkb ep (ocs n) t.seg.th
    a :: resendAll ep ocs (n + 1) a.1 ts

/-- The attempts to send a segment, one after the other, from its buffer. -/
def sendAll (ep : Endpoints) (ocs : ℕ → Occasion) : List Transmission → List (TxBuff × Option TunWrite)
  | [] => []
  | t :: ts =>
    let a := (build t.seg.th.data.length t.seg.payload).tcpTransmitSkb ep (ocs 0) t.seg.th
    a :: resendAll ep ocs 1 a.1 ts

end TxBuff

/-! ## The parts of a buffer -/

/-- The headers, the options and the payload of a frame. -/
structure FrameParts (optlen : ℕ) where
  eth : List UInt8
  ip : List UInt8
  tcp : List UInt8
  options : List UInt8
  payload : List UInt8
  eth_length : eth.length = ethHdrLen
  ip_length : ip.length = ipHdrLen
  tcp_length : tcp.length = tcpHdrLen
  options_length : options.length = optlen

namespace FrameParts

variable {n : ℕ} (f : FrameParts n)

def bytes : List UInt8 := f.eth ++ f.ip ++ f.tcp ++ f.options ++ f.payload

theorem length_bytes :
    f.bytes.length = ethHdrLen + ipHdrLen + tcpHdrLen + n + f.payload.length := by
  unfold bytes
  rw [List.length_append, List.length_append, List.length_append, List.length_append, f.eth_length,
    f.ip_length, f.tcp_length, f.options_length]

theorem length_bytes_eq {f f' : FrameParts n} (h : f'.payload = f.payload) :
    f'.bytes.length = f.bytes.length := by
  rw [length_bytes, length_bytes, h]

theorem length_bytes_lt {f f' : FrameParts n} {m : ℕ} (hlt : f.bytes.length < m)
    (h : f'.payload = f.payload) : f'.bytes.length < m :=
  (length_bytes_eq h).trans_lt hlt

def withEth {eth : List UInt8} (h : eth.length = ethHdrLen) : FrameParts n :=
  { f with eth, eth_length := h }

def withIp {ip : List UInt8} (h : ip.length = ipHdrLen) : FrameParts n :=
  { f with ip, ip_length := h }

def withTcp {tcp : List UInt8} (h : tcp.length = tcpHdrLen) : FrameParts n :=
  { f with tcp, tcp_length := h }

def withOptions {options : List UInt8} (h : options.length = n) : FrameParts n :=
  { f with options, options_length := h }

end FrameParts

/-- Bytes that are stored over others of the same number. -/
theorem store_append {skb : SkBuff} {a x c : List UInt8} (h : skb.mem = a ++ x ++ c) {off : ℕ}
    (hoff : off = a.length) {y : List UInt8} (hlen : y.length = x.length) :
    (skb.store off y).mem = a ++ y ++ c := by
  change skb.mem.take off ++ y ++ skb.mem.drop (off + y.length) = _
  have hdrop : (a ++ x ++ c).drop (a.length + x.length) = c := by
    rw [← List.length_append, List.drop_left]
  rw [h, hoff, hlen, hdrop, List.append_assoc a x c, List.take_left]

/-- The buffer holds the parts, `data` stands inside it, and no push has moved it below `head`. -/
structure Holds {n : ℕ} (b : TxBuff) (f : FrameParts n) : Prop where
  mem : b.mem = f.bytes
  tail : b.tail = f.bytes.length
  dlen : b.dlen = f.payload.length
  data : b.data ≤ b.tail
  len : b.len = UInt32.ofNat (b.tail - b.data)
  places : ∀ p ∈ b.places, 0 ≤ p

namespace Holds

variable {n : ℕ} {b : TxBuff} {f : FrameParts n}

/-- A push with enough room. -/
theorem push (h : Holds b f) {len : ℕ} (hle : len ≤ b.data) : Holds (b.push len) f := by
  have hdata := h.data
  refine ⟨h.mem, h.tail, h.dlen, (Nat.sub_le _ _).trans hdata, ?_, ?_⟩
  · change b.len + UInt32.ofNat len = UInt32.ofNat (b.tail - (b.data - len))
    rw [h.len, ← UInt32.ofNat_add]
    congr 1
    omega
  · refine List.forall_mem_append.mpr ⟨h.places, List.forall_mem_singleton.mpr ?_⟩
    omega

/-- `skb_reset_header` shows the payload alone, whatever has been pushed. -/
theorem reset (h : Holds b f) : Holds b.skbResetHeader f ∧
    b.skbResetHeader.data = ethHdrLen + ipHdrLen + tcpHdrLen + n := by
  have htail := h.tail
  rw [f.length_bytes] at htail
  have hdlen := h.dlen
  have hdata : b.skbResetHeader.data = b.tail - b.dlen := rfl
  refine ⟨⟨h.mem, h.tail, h.dlen, Nat.sub_le _ _, ?_, h.places⟩, by omega⟩
  change UInt32.ofNat b.dlen = UInt32.ofNat (b.tail - (b.tail - b.dlen))
  congr 1
  omega

/-- Some of the parts are written over. -/
theorem put (h : Holds b f) {off : ℕ} {bytes : List UInt8} {f' : FrameParts n}
    (hmem : (b.toSkBuff.store off bytes).mem = f'.bytes) (hpayload : f'.payload = f.payload) :
    Holds (b.put off bytes) f' := by
  refine ⟨hmem, ?_, h.dlen.trans (congrArg List.length hpayload.symm), h.data, h.len, h.places⟩
  change b.tail = _
  rw [h.tail, FrameParts.length_bytes_eq hpayload]

/-- The header of the device, at the start. -/
theorem putEth (h : Holds b f) {bytes : List UInt8} (hlen : bytes.length = ethHdrLen) :
    Holds (b.put 0 bytes) (f.withEth hlen) := by
  refine h.put ?_ rfl
  have hmem : b.mem = [] ++ f.eth ++ (f.ip ++ f.tcp ++ f.options ++ f.payload) := by
    rw [h.mem]
    simp [FrameParts.bytes]
  rw [store_append hmem List.length_nil.symm (hlen.trans f.eth_length.symm)]
  simp [FrameParts.bytes, FrameParts.withEth]

/-- The header of IP. -/
theorem putIp (h : Holds b f) {bytes : List UInt8} (hlen : bytes.length = ipHdrLen) :
    Holds (b.put ethHdrLen bytes) (f.withIp hlen) := by
  refine h.put ?_ rfl
  have hmem : b.mem = f.eth ++ f.ip ++ (f.tcp ++ f.options ++ f.payload) := by
    rw [h.mem]
    simp [FrameParts.bytes]
  rw [store_append hmem f.eth_length.symm (hlen.trans f.ip_length.symm)]
  simp [FrameParts.bytes, FrameParts.withIp]

/-- The header of TCP and the options behind it. -/
theorem putTcp (h : Holds b f) {tcp options : List UInt8} (htcp : tcp.length = tcpHdrLen)
    (hoptions : options.length = n) :
    Holds (b.put (ethHdrLen + ipHdrLen) (tcp ++ options))
      ((f.withTcp htcp).withOptions hoptions) := by
  refine h.put ?_ rfl
  have hmem : b.mem = (f.eth ++ f.ip) ++ (f.tcp ++ f.options) ++ f.payload := by
    rw [h.mem]
    simp [FrameParts.bytes]
  rw [store_append hmem]
  · simp [FrameParts.bytes, FrameParts.withTcp, FrameParts.withOptions]
  · rw [List.length_append, f.eth_length, f.ip_length]
  · rw [List.length_append, List.length_append, htcp, hoptions, f.tcp_length, f.options_length]

end Holds

theorem length_tcphdrBytes (ep : Endpoints) (th : Tcphdr) (rcvWnd : UInt32) (csum : List UInt8) :
    (tcphdrBytes ep th rcvWnd csum).length = 18 + csum.length := by
  simp [tcphdrBytes, be16, be32]
  omega

/-- The checksum is stored into the header. -/
theorem Holds.putCsum {n : ℕ} {b : TxBuff} {f : FrameParts n} (h : Holds b f) {ep : Endpoints}
    {th : Tcphdr} {rcvWnd : UInt32} (htcp : f.tcp = tcphdrBytes ep th rcvWnd [0, 0]) (csum : ℕ) :
    Holds (b.put (ethHdrLen + ipHdrLen + 16) (le16 csum))
      (f.withTcp (length_tcphdrBytes ep th rcvWnd (le16 csum))) := by
  refine h.put ?_ rfl
  generalize hpre : be16 ep.sport ++ be16 ep.dport ++ be32 th.seq ++ be32 th.ackSeq ++
    [UInt8.ofNat (16 * th.hl), tcpFlags th] ++ be16 rcvWnd.toUInt16 = pre
  have hlen : pre.length = 16 := by
    rw [← hpre]
    simp [be16, be32]
  have hbytes : ∀ c, tcphdrBytes ep th rcvWnd c = pre ++ c ++ [0, 0] := fun c => by
    rw [← hpre]
    rfl
  have hmem : b.mem = (f.eth ++ f.ip ++ pre) ++ [0, 0] ++ ([0, 0] ++ f.options ++ f.payload) := by
    rw [h.mem, FrameParts.bytes, htcp, hbytes]
    simp
  rw [store_append hmem]
  · simp [FrameParts.bytes, FrameParts.withTcp, hbytes]
  · rw [List.length_append, List.length_append, f.eth_length, f.ip_length, hlen]
  · rfl

/-! ## One attempt -/

/-- An attempt leaves the buffer with some parts, and what is written to the device are these parts. -/
structure Leaves {n : ℕ} (f : FrameParts n) (a : TxBuff × Option TunWrite) : Prop where
  holds : Holds a.1 f
  frame : ∀ w ∈ a.2, w.off = 0 ∧ w.len = f.bytes.length ∧ w.bytes = f.bytes

theorem mem_routes_of_routeLookup {t : Tables} {daddr : UInt32} {rt : RtEntry}
    (h : routeLookup t daddr = some rt) : rt ∈ t.routes := by
  unfold routeLookup at h
  rcases Option.or_eq_some_iff.mp h with hfind | ⟨-, hlast⟩
  · exact List.mem_of_find?_eq_some hfind
  · exact List.mem_of_getLast? hlast

theorem length_arpGetHwaddr (net : Neighbours) {sip : UInt32} {dmac : List UInt8}
    (h : arpGetHwaddr net.toTables sip = some dmac) : dmac.length = 6 := by
  obtain ⟨entry, hfind, rfl⟩ := Option.map_eq_some_iff.mp h
  exact net.smac_length entry (List.mem_of_find?_eq_some hfind)

section Attempt

variable {n : ℕ} {b : TxBuff} {f : FrameParts n}

/-- What is read from `head` on is the whole buffer. -/
theorem Holds.read (h : Holds b f) (hdata : b.data = 0) (hsize : f.bytes.length < 2 ^ 32) :
    b.len.toNat = f.bytes.length ∧ bytesAt b.mem b.data b.len.toNat = f.bytes := by
  have hlen : b.len.toNat = f.bytes.length := by
    rw [h.len, hdata, Nat.sub_zero, h.tail, UInt32.toNat_ofNat', Nat.mod_eq_of_lt hsize]
  refine ⟨hlen, ?_⟩
  rw [hlen, h.mem, hdata, bytesAt_eq_take_drop (Nat.zero_add _).le, List.drop_zero, List.take_length]

theorem Holds.netdevTransmit (h : Holds b f) (hdata : b.data = ethHdrLen)
    (hsize : f.bytes.length < 2 ^ 32) {dev : Netdev} (hdev : dev.hwaddr.length = 6)
    {dstHw : List UInt8} (hdst : dstHw.length = 6) :
    ∃ f' : FrameParts n, f'.tcp = f.tcp ∧ f'.options = f.options ∧ f'.payload = f.payload ∧
      Leaves f' (b.netdevTransmit dev dstHw) := by
  have hpush := h.push hdata.ge
  have hzero : (b.push ethHdrLen).data = 0 := Nat.sub_eq_zero_of_le hdata.le
  unfold TxBuff.netdevTransmit
  dsimp only
  rw [hzero]
  generalize b.push ethHdrLen = b₁ at hpush hzero
  have heth : (dstHw ++ dev.hwaddr ++ be16 ethPIp).length = ethHdrLen := by
    rw [List.length_append, List.length_append, hdst, hdev]
    rfl
  have hput := hpush.putEth heth
  have hzero' : (b₁.put 0 (dstHw ++ dev.hwaddr ++ be16 ethPIp)).data = 0 := hzero
  generalize b₁.put 0 (dstHw ++ dev.hwaddr ++ be16 ethPIp) = b₂ at hput hzero'
  obtain ⟨hlen, hbytes⟩ := hput.read hzero' (FrameParts.length_bytes_lt hsize rfl)
  refine ⟨f.withEth heth, rfl, rfl, rfl, hput, fun w hw => ?_⟩
  rw [← Option.some.inj hw]
  exact ⟨hzero', hlen, hbytes⟩

theorem Holds.dstNeighOutput (h : Holds b f) (hdata : b.data = ethHdrLen)
    (hsize : f.bytes.length < 2 ^ 32) (net : Neighbours) {rt : RtEntry} (hrt : rt ∈ net.routes)
    (daddr : UInt32) :
    ∃ f' : FrameParts n, f'.tcp = f.tcp ∧ f'.options = f.options ∧ f'.payload = f.payload ∧
      Leaves f' (b.dstNeighOutput net.toTables rt daddr) := by
  unfold TxBuff.dstNeighOutput
  cases harp : arpGetHwaddr net.toTables (nextHop rt daddr) with
  | none => exact ⟨f, rfl, rfl, rfl, h, fun _ hw => absurd hw (Option.not_mem_none _)⟩
  | some dmac =>
    exact h.netdevTransmit hdata hsize (net.hwaddr_length rt hrt) (length_arpGetHwaddr net harp)

/-- **Below TCP**: the headers are pushed into the room that is left, as far as the attempt gets. -/
theorem Holds.ipOutput (h : Holds b f) (hdata : b.data = ethHdrLen + ipHdrLen)
    (hsize : f.bytes.length < 2 ^ 32) (net : Neighbours) (daddr : UInt32) :
    ∃ f' : FrameParts n, f'.tcp = f.tcp ∧ f'.options = f.options ∧ f'.payload = f.payload ∧
      Leaves f' (b.ipOutput net.toTables daddr) := by
  unfold TxBuff.ipOutput
  cases hroute : routeLookup net.toTables daddr with
  | none => exact ⟨f, rfl, rfl, rfl, h, fun _ hw => absurd hw (Option.not_mem_none _)⟩
  | some rt =>
    dsimp only
    have hpush : Holds (b.push ipHdrLen) f := h.push (hdata ▸ Nat.le_add_left _ _)
    have hat : (b.push ipHdrLen).data = ethHdrLen := by
      change b.data - ipHdrLen = _
      rw [hdata]
      exact Nat.add_sub_cancel _ _
    generalize b.push ipHdrLen = b₁ at hpush hat
    have hip := hpush.putIp (length_ipHeader rt daddr b₁.toSkBuff
      (le16 (checksum (ipHeader rt daddr b₁.toSkBuff [0, 0]))))
    obtain ⟨f', htcp, hoptions, hpayload, hleaves⟩ := hip.dstNeighOutput hat
      (FrameParts.length_bytes_lt hsize rfl) net (mem_routes_of_routeLookup hroute) daddr
    exact ⟨f', htcp, hoptions, hpayload, hleaves⟩

/-- **One attempt**, from a buffer that shows its payload alone. -/
theorem Holds.tcpTransmitSkb (h : Holds b f)
    (hdata : b.data = ethHdrLen + ipHdrLen + tcpHdrLen + n) (hsize : f.bytes.length < 2 ^ 32)
    (ep : Endpoints) (oc : Occasion) {th : Tcphdr} (hhl : 4 * th.hl = tcpHdrLen + n)
    (hoptions : th.data.length = n) :
    ∃ f' : FrameParts n, (∃ csum, f'.tcp = tcphdrBytes ep th oc.rcvWnd (le16 csum)) ∧
      f'.options = th.data ∧ f'.payload = f.payload ∧ Leaves f' (b.tcpTransmitSkb ep oc th) := by
  unfold TxBuff.tcpTransmitSkb
  dsimp only
  have hpush : Holds (b.push (4 * th.hl)) f := h.push (by omega)
  have hat : (b.push (4 * th.hl)).data = ethHdrLen + ipHdrLen := by
    change b.data - 4 * th.hl = _
    omega
  generalize b.push (4 * th.hl) = b₁ at hpush hat
  have hput := hpush.putTcp (length_tcphdrBytes ep th oc.rcvWnd [0, 0]) hoptions
  have hat' : (b₁.put (ethHdrLen + ipHdrLen)
      (tcphdrBytes ep th oc.rcvWnd [0, 0] ++ th.data)).data = ethHdrLen + ipHdrLen := hat
  generalize b₁.put (ethHdrLen + ipHdrLen) (tcphdrBytes ep th oc.rcvWnd [0, 0] ++ th.data) = b₂
    at hput hat'
  generalize tcpUdpChecksum _ _ ipTcp (b₂.mem.drop b₂.data) b₂.len.toUInt16 = csum
  have hcsum := hput.putCsum (show _ = tcphdrBytes ep th oc.rcvWnd [0, 0] from rfl) csum
  obtain ⟨f', htcp, hopts, hpayload, hleaves⟩ := hcsum.ipOutput hat'
    (FrameParts.length_bytes_lt hsize rfl) oc.net ep.daddr
  exact ⟨f', ⟨csum, htcp⟩, hopts, hpayload, hleaves⟩

end Attempt

/-- A new buffer shows its payload alone. -/
theorem holds_build (n : ℕ) (payload : List UInt8) : ∃ f : FrameParts n, f.payload = payload ∧
    Holds (TxBuff.build n payload) f ∧
      (TxBuff.build n payload).data = ethHdrLen + ipHdrLen + tcpHdrLen + n := by
  have hzero : ∀ k : ℕ, (List.replicate k (0 : UInt8)).length = k := fun k => List.length_replicate
  generalize hf : FrameParts.mk _ _ _ _ payload (hzero ethHdrLen) (hzero ipHdrLen)
    (hzero tcpHdrLen) (hzero n) = f
  have hpayload : f.payload = payload := by
    rw [← hf]
  have hdata : (TxBuff.build n payload).data = ethHdrLen + ipHdrLen + tcpHdrLen + n := by
    change 0 + (ethHdrLen + ipHdrLen + tcpHdrLen + n + payload.length) - payload.length = _
    omega
  have htail : (TxBuff.build n payload).tail =
      ethHdrLen + ipHdrLen + tcpHdrLen + n + payload.length := rfl
  refine ⟨f, hpayload, ⟨?_, ?_, congrArg List.length hpayload.symm, ?_, ?_, ?_⟩, hdata⟩
  · have hmem : ((TxBuff.tcpAllocSkb n payload.length).push payload.length).mem =
        List.replicate (ethHdrLen + ipHdrLen + tcpHdrLen + n) 0 ++
          List.replicate payload.length 0 ++ [] := by
      rw [List.append_nil, List.replicate_append_replicate]
      rfl
    refine (store_append hmem ?_ (hzero payload.length).symm).trans ?_
    · rw [hzero]
      exact hdata
    · rw [← hf]
      simp [FrameParts.bytes]
  · rw [htail, f.length_bytes, hpayload]
  · rw [hdata, htail]
    exact Nat.le_add_right _ _
  · rw [hdata, htail, Nat.add_sub_cancel_left]
    change 0 + UInt32.ofNat payload.length = _
    exact UInt32.zero_add _
  · refine List.forall_mem_singleton.mpr ?_
    change 0 ≤ ((0 + (ethHdrLen + ipHdrLen + tcpHdrLen + n + payload.length) : ℕ) : ℤ) - _
    omega

/-- Nothing has been pushed over the payload of a new buffer. -/
theorem skbResetHeader_build (n : ℕ) (payload : List UInt8) :
    (TxBuff.build n payload).skbResetHeader = TxBuff.build n payload := by
  have hdata : (TxBuff.build n payload).tail - (TxBuff.build n payload).dlen =
      (TxBuff.build n payload).data := by
    change ethHdrLen + ipHdrLen + tcpHdrLen + n + payload.length - payload.length =
      0 + (ethHdrLen + ipHdrLen + tcpHdrLen + n + payload.length) - payload.length
    rw [Nat.zero_add]
  have hlen : UInt32.ofNat (TxBuff.build n payload).dlen = (TxBuff.build n payload).len :=
    (UInt32.zero_add _).symm
  unfold TxBuff.skbResetHeader
  rw [hdata, hlen]

/-! ## All attempts -/

/-- An attempt keeps the layout of the first one. -/
structure KeepsLayout (first t : Transmission) (a : TxBuff × Option TunWrite) : Prop where
  /-- No push has moved `data` below `head`. -/
  room : ∀ p ∈ a.1.places, 0 ≤ p
  /-- The header covers the options for which room was reserved. -/
  header : 4 * t.seg.th.hl = tcpHdrLen + first.seg.th.data.length
  /-- The frame starts at `head` and ends at `end`. -/
  range : ∀ w ∈ a.2, w.off = 0 ∧ w.len = a.1.tail ∧ w.bytes.length = w.len
  length : ∀ w ∈ a.2, w.len = ethHdrLen + ipHdrLen + 4 * t.seg.th.hl + a.1.dlen
  hl : ∀ w ∈ a.2, (w.bytes.getD (ethHdrLen + ipHdrLen + 12) 0).toNat / 16 = t.seg.th.hl
  options : ∀ w ∈ a.2, (w.bytes.drop (ethHdrLen + ipHdrLen + tcpHdrLen)).take
    (4 * t.seg.th.hl - tcpHdrLen) = first.seg.th.data
  payload : ∀ w ∈ a.2, w.bytes.drop (ethHdrLen + ipHdrLen + 4 * t.seg.th.hl) = first.seg.payload

section Parts

variable {n : ℕ} (f : FrameParts n)

theorem FrameParts.drop_headers :
    f.bytes.drop (ethHdrLen + ipHdrLen + tcpHdrLen) = f.options ++ f.payload := by
  have hlen : (f.eth ++ f.ip ++ f.tcp).length = ethHdrLen + ipHdrLen + tcpHdrLen := by
    rw [List.length_append, List.length_append, f.eth_length, f.ip_length, f.tcp_length]
  have hbytes : f.bytes = f.eth ++ f.ip ++ f.tcp ++ (f.options ++ f.payload) :=
    List.append_assoc _ _ _
  rw [hbytes]
  exact List.drop_left' hlen

theorem FrameParts.take_options :
    (f.bytes.drop (ethHdrLen + ipHdrLen + tcpHdrLen)).take n = f.options := by
  rw [f.drop_headers]
  exact List.take_left' f.options_length

theorem FrameParts.drop_options :
    f.bytes.drop (ethHdrLen + ipHdrLen + (tcpHdrLen + n)) = f.payload := by
  rw [← Nat.add_assoc, ← List.drop_drop, f.drop_headers]
  exact List.drop_left' f.options_length

/-- The header length stands in the header. -/
theorem FrameParts.getD_hl {ep : Endpoints} {th : Tcphdr} {rcvWnd : UInt32} {csum : List UInt8}
    (htcp : f.tcp = tcphdrBytes ep th rcvWnd csum) :
    f.bytes.getD (ethHdrLen + ipHdrLen + 12) 0 = UInt8.ofNat (16 * th.hl) := by
  have hlen : (f.eth ++ f.ip).length = ethHdrLen + ipHdrLen := by
    rw [List.length_append, f.eth_length, f.ip_length]
  rw [FrameParts.bytes, List.append_assoc, List.append_assoc, ← hlen,
    List.getD_append_right _ _ _ _ (Nat.le_add_right _ _), Nat.add_sub_cancel_left, htcp]
  rfl

end Parts

section Attempts

variable {first : Transmission} {b : TxBuff} {f : FrameParts first.seg.th.data.length}

/-- **An attempt keeps the layout**, and the buffer is ready for the next one. -/
theorem Holds.attempt (h : Holds b f)
    (hdata : b.data = ethHdrLen + ipHdrLen + tcpHdrLen + first.seg.th.data.length)
    (hpayload : f.payload = first.seg.payload) (hfirst : first.Fits) {t : Transmission} (ht : t.Fits)
    (hoptions : t.seg.th.data = first.seg.th.data) (ep : Endpoints) (oc : Occasion) :
    KeepsLayout first t (b.tcpTransmitSkb ep oc t.seg.th) ∧
      ∃ f' : FrameParts first.seg.th.data.length, f'.payload = first.seg.payload ∧
        Holds (b.tcpTransmitSkb ep oc t.seg.th).1 f' := by
  have hhl : 4 * t.seg.th.hl = tcpHdrLen + first.seg.th.data.length := hoptions ▸ ht.header
  have hsize : f.bytes.length < 2 ^ 32 := by
    have hmax := hfirst.size
    have hopts := hfirst.header
    have hle := hfirst.hl
    rw [f.length_bytes, hpayload]
    unfold payloadMax at hmax
    unfold ethHdrLen ipHdrLen
    omega
  obtain ⟨f', ⟨csum, htcp⟩, hopts, hpay, hleaves⟩ :=
    h.tcpTransmitSkb hdata hsize ep oc hhl (congrArg List.length hoptions)
  have hlen : 4 * t.seg.th.hl - tcpHdrLen = first.seg.th.data.length := by omega
  refine ⟨⟨hleaves.holds.places, hhl, ?_, ?_, ?_, ?_, ?_⟩, f', hpay.trans hpayload, hleaves.holds⟩
  · intro w hw
    obtain ⟨hoff, hwlen, hbytes⟩ := hleaves.frame w hw
    exact ⟨hoff, hwlen.trans hleaves.holds.tail.symm, hbytes ▸ hwlen.symm⟩
  · intro w hw
    obtain ⟨-, hwlen, -⟩ := hleaves.frame w hw
    rw [hwlen, f'.length_bytes, hleaves.holds.dlen, hhl]
    omega
  · intro w hw
    obtain ⟨-, -, hbytes⟩ := hleaves.frame w hw
    have hle := ht.hl
    rw [hbytes, f'.getD_hl htcp, UInt8.toNat_ofNat']
    omega
  · intro w hw
    obtain ⟨-, -, hbytes⟩ := hleaves.frame w hw
    rw [hbytes, hlen, f'.take_options, hopts, hoptions]
  · intro w hw
    obtain ⟨-, -, hbytes⟩ := hleaves.frame w hw
    rw [hbytes, hhl, f'.drop_options, hpay, hpayload]

/-- **Every later attempt keeps the layout**, after any that failed. -/
theorem Holds.resendAll (h : Holds b f) (hpayload : f.payload = first.seg.payload)
    (hfirst : first.Fits) {ts : List Transmission}
    (hts : ∀ t ∈ ts, t.Fits ∧ t.seg.th.data = first.seg.th.data) (ep : Endpoints)
    (ocs : ℕ → Occasion) (n : ℕ) :
    List.Forall₂ (KeepsLayout first) ts (TxBuff.resendAll ep ocs n b ts) := by
  induction ts generalizing b f n with
  | nil => exact .nil
  | cons t ts ih =>
    obtain ⟨⟨ht, hoptions⟩, hrest⟩ := List.forall_mem_cons.mp hts
    obtain ⟨hreset, hdata⟩ := h.reset
    obtain ⟨hkeeps, f', hpayload', hholds⟩ :=
      hreset.attempt hdata hpayload hfirst ht hoptions ep (ocs n)
    exact .cons hkeeps (ih hholds hpayload' hrest (n + 1))

end Attempts

/-- Whatever goes out from one buffer, at whatever address, keeps the layout of the first attempt. -/
def FramesKept (ep : Endpoints) (ocs : ℕ → Occasion) (out : List Transmission) : Prop :=
  ∀ addr : ℕ, List.Forall₂
    (fun t a => ∀ first ∈ (out.filter fun t => t.addr = addr).head?, KeepsLayout first t a)
    (out.filter fun t => t.addr = addr) (TxBuff.sendAll ep ocs (out.filter fun t => t.addr = addr))

theorem framesKept_of_sentAlike {out : List Transmission} (h : SentAlike out) (ep : Endpoints)
    (ocs : ℕ → Occasion) : FramesKept ep ocs out := by
  intro addr
  have hts : ∀ t ∈ out.filter fun t => t.addr = addr, t ∈ out ∧ t.addr = addr := fun t ht =>
    ⟨(List.mem_filter.mp ht).1, of_decide_eq_true (List.mem_filter.mp ht).2⟩
  generalize (out.filter fun t => t.addr = addr) = ts at hts ⊢
  cases ts with
  | nil => exact .nil
  | cons first ts =>
    obtain ⟨⟨hfirst, haddr⟩, hrest⟩ := List.forall_mem_cons.mp hts
    have hfits := h.fits first hfirst
    have hsame : ∀ t ∈ ts, t.Fits ∧ t.seg.th.data = first.seg.th.data := by
      intro t ht
      obtain ⟨hmem, ht'⟩ := hrest t ht
      exact ⟨h.fits t hmem, (h.same t hmem first hfirst (ht'.trans haddr.symm)).1⟩
    obtain ⟨f, hpayload, hbuild, hdata⟩ := holds_build first.seg.th.data.length first.seg.payload
    obtain ⟨hkeeps, f', hpayload', hholds⟩ :=
      hbuild.attempt hdata hpayload hfits hfits rfl ep (ocs 0)
    have hall := List.Forall₂.cons hkeeps (hholds.resendAll hpayload' hfits hsame ep ocs 1)
    refine hall.imp fun t a hkept first' hhead => ?_
    rw [← Option.some.inj hhead]
    exact hkept

/-- A network with one host, which may not be resolved yet. -/
def oneHost (resolved : Bool) : Neighbours where
  routes := [anyRoute]
  arpCache := [{ resolved, sip := 0x0a000004, smac := [2, 0, 0, 0, 0, 4] }]
  hwaddr_length := List.forall_mem_singleton.mpr rfl
  smac_length := List.forall_mem_singleton.mpr rfl

/-- What has gone out keeps the layout, and no option has been written past the room reserved for the
options of its segment. -/
structure FramesSound (ep : Endpoints) (ocs : ℕ → Occasion) (s : TcpSock) : Prop where
  kept : FramesKept ep ocs s.out
  inRoom : s.spilled = []

/-- **The layout of a frame is kept**, in every run in which no coded segment arrives whose block has a
symbol at sequence number 0, and whatever the attempts meet: the options lie in the room reserved for
them; every frame that leaves a buffer starts at `head`, is as long as its headers and payload, and has
the options and the payload of the first attempt; and no push leaves the buffer. The answer to a SYN is
sent by no run of the stack, so it stands on its own. A buffer that has waited is reset before its first
attempt too, which changes nothing. -/
theorem frames_run {env : Env} {events : List TcpEvent}
    (hrun : RunSat env BlockOffZero tcpAllocSock events) (ep : Endpoints) (ocs : ℕ → Occasion) :
    FramesSound ep ocs (events.foldl (tcpStep env) tcpAllocSock) ∧
      FramesSound ep ocs (tcpTransmitSynack env (events.foldl (tcpStep env) tcpAllocSock)) ∧
      ∀ (n : ℕ) (payload : List UInt8),
        (TxBuff.build n payload).skbResetHeader = TxBuff.build n payload := by
  have hsafe := (sackSafe_run sackSafe_tcpAllocSock hrun).inv
  refine ⟨⟨framesKept_of_sentAlike (sentAlike_run env events) ep ocs, hsafe.spilled⟩,
    ⟨framesKept_of_sentAlike (sentAlike_tcpTransmitSynack env events) ep ocs, ?_⟩,
    skbResetHeader_build⟩
  -- a socket without SACK blocks writes none
  generalize events.foldl (tcpStep env) tcpAllocSock = s at hsafe
  have hkept := (SackKept.of_eq rfl rfl rfl : SackKept s { s with nextAddr := s.nextAddr + 1 }).trans
    (@sackKept_tcpTransmitSkb env _ (tcpAllocSkb s none (tcpSynHeader s true) []).2 s.tcb.sndNxt)
  exact (congrArg SackView.spilled (hkept.sack hsafe.sacks)).trans hsafe.spilled

/-- A connection with SACK and FEC: a symbol, and a byte behind a gap. -/
def codedEvents : List TcpEvent := sackFecHandshake ++ [.arrive firstSymbol, .arrive aheadSeg]

/-- The acknowledgement of the byte behind the gap carries its block, in the room for one block. -/
theorem frames_run_coded :
    FramesSound ⟨40000, 80, 0x0a000005, 0x0a000004⟩ (fun i => ⟨oneHost (i == 1), 44477⟩)
        (codedEvents.foldl (tcpStep quietLink) tcpAllocSock) ∧
      (codedEvents.foldl (tcpStep quietLink) tcpAllocSock).out.getLast?.map (·.seg.th.data) =
        some ([1, 1, 5, 10] ++ be32 203 ++ be32 204) := by
  have hrun : RunSat quietLink BlockOffZero tcpAllocSock codedEvents := by
    refine ⟨trivial, fun _ h => (nomatch h), fun fec hfec _ => ?_, fun _ _ h => ?_, trivial⟩
    · obtain rfl : tcpFecFresh = fec := Option.some_inj.mp hfec
      exact offZero_firstSymbol
    · exact absurd h (by decide)
  exact ⟨(frames_run hrun _ _).1, by decide +kernel⟩

/-- **Options are written past the room** when the byte behind the gap has arrived and then the symbol
at sequence number 0 comes out of a repair: the acknowledgement has room for two blocks, and three are
written. -/
theorem not_frames_spill :
    ¬ ∀ (env : Env) (events : List TcpEvent) (ep : Endpoints) (ocs : ℕ → Occasion),
      FramesSound ep ocs (events.foldl (tcpStep env) tcpAllocSock) := by
  intro h
  have hroom := (h quietLink spillEvents ⟨40000, 80, 0x0a000005, 0x0a000004⟩
    fun _ => ⟨oneHost true, 44477⟩).inRoom
  rw [spilled_spillEvents] at hroom
  exact absurd hroom (by decide)

-- the first attempt of a SYN fails at the ARP cache, the second one leaves with all of its headers
example : (TxBuff.sendAll { sport := 40000, dport := 80, saddr := 0x0a000005, daddr := 0x0a000004 }
      (fun i => { net := oneHost (i == 1), rcvWnd := 44477 })
      ([TcpEvent.connect 7, .timer .tcpConnectRto].foldl
        (tcpStep { link := fun _ => 0, freed := fun _ _ => [] }) tcpAllocSock).out).map
    (fun a => a.2.map fun w => (w.off, w.len)) = [none, some (0, 70)] := by
  decide +kernel

end LvlIp.Ip
