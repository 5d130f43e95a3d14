import LvlIp.Ip.Input

/-!
# The ARP cache

`arp_rcv` of `src/arp.c` and the tables behind it. A packet updates the entry of its sender, if there
is one; a sender is entered only by a packet that is addressed to the interface. After any sequence
of packets the cache has one entry for each address and `arp_get_hwaddr` finds what `lastMac` says
(`arpCache_run`): the sender address of the latest packet from there, as long as one of them up to
then was for us.
-/

namespace LvlIp.Ip

open Fec Tcp

/-! ## Packets -/

/-- `ARP_ETHERNET`. -/
def arpEthernet : UInt16 := 1

/-- `ARP_IPV4`. -/
def arpIpv4 : UInt16 := 0x0800

/-- `ARP_REQUEST`. -/
def arpRequest : UInt16 := 1

/-- `ARP_REPLY`. -/
def arpReplyCode : UInt16 := 2

/-- `ETH_P_ARP`. -/
def ethPArp : UInt16 := 0x0806

/-- `ARP_HDR_LEN`. -/
def arpHdrLen : ℕ := 8

/-- `ARP_DATA_LEN`. -/
def arpDataLen : ℕ := 20

/-- `struct arp_hdr` and the `struct arp_ipv4` behind it, in host byte order. -/
structure ArpPacket where
  hwtype : UInt16
  protype : UInt16
  hwsize : UInt8
  prosize : UInt8
  opcode : UInt16
  smac : List UInt8
  sip : UInt32
  dmac : List UInt8
  dip : UInt32

/-- The packet in a buffer, `arp_hdr` on. -/
def arpPacket (skb : SkBuff) : ArpPacket :=
  let p := skb.mem.drop ethHdrLen
  { hwtype := ntohs p 0
    protype := ntohs p 2
    hwsize := p.getD 4 0
    prosize := p.getD 5 0
    opcode := ntohs p 6
    smac := bytesAt p 8 6
    sip := ntohl p 14
    dmac := bytesAt p 18 6
    dip := ntohl p 24 }

/-- The bytes of a packet. -/
def ArpPacket.bytes (pkt : ArpPacket) : List UInt8 :=
  be16 pkt.hwtype ++ be16 pkt.protype ++ [pkt.hwsize, pkt.prosize] ++ be16 pkt.opcode ++ pkt.smac ++
    be32 pkt.sip ++ pkt.dmac ++ be32 pkt.dip

/-! ## The code -/

/-- `struct arp_cache_entry`, with the type of hardware. -/
structure ArpEntry extends ArpCacheEntry where
  hwtype : UInt16

/-- `arp_entry_alloc`. -/
def arpEntryAlloc (pkt : ArpPacket) : ArpEntry where
  resolved := true
  sip := pkt.sip
  smac := pkt.smac
  hwtype := pkt.hwtype

/-- `insert_arp_translation_table`. -/
def insertArpTranslationTable (cache : List ArpEntry) (pkt : ArpPacket) : List ArpEntry :=
  cache ++ [arpEntryAlloc pkt]

/-- `update_arp_translation_table`: the table with the new address, if an entry was found. -/
def updateArpTranslationTable (pkt : ArpPacket) : List ArpEntry → Option (List ArpEntry)
  | [] => none
  | entry :: cache =>
    if entry.hwtype = pkt.hwtype ∧ entry.sip = pkt.sip then
      some ({ entry with smac := pkt.smac } :: cache)
    else (updateArpTranslationTable pkt cache).map (entry :: ·)

/-- `netdev_get`. -/
def netdevGet (dev : Netdev) (sip : UInt32) : Option Netdev :=
  if dev.addr = sip then some dev else none

/-- `arp_reply`: the packet goes back in the buffer it came in. -/
def arpReply (dev : Netdev) (skb : SkBuff) (pkt : ArpPacket) : TunWrite :=
  let skb := skbReserve skb (ethHdrLen + arpHdrLen + arpDataLen)
  let skb := skbPush skb (arpHdrLen + arpDataLen)
  let reply : ArpPacket :=
    { pkt with
      opcode := arpReplyCode
      dmac := pkt.smac
      dip := pkt.sip
      smac := dev.hwaddr
      sip := dev.addr }
  netdevTransmit dev pkt.smac ethPArp (skb.store ethHdrLen reply.bytes)

/-- `arp_rcv`: the table afterwards, and the reply. -/
def arpRcv (dev : Netdev) (cache : List ArpEntry) (skb : SkBuff) :
    List ArpEntry × Option TunWrite :=
  let pkt := arpPacket skb
  if pkt.hwtype ≠ arpEthernet then (cache, none)
  else if pkt.protype ≠ arpIpv4 then (cache, none)
  else
    let merge := updateArpTranslationTable pkt cache
    let cache := merge.getD cache
    match netdevGet dev pkt.dip with
    | none => (cache, none)
    | some dev =>
      let cache := if merge.isSome then cache else insertArpTranslationTable cache pkt
      if pkt.opcode = arpRequest then (cache, some (arpReply dev skb pkt)) else (cache, none)

/-- The table after some packets. -/
def arpCache (dev : Netdev) (skbs : List SkBuff) : List ArpEntry :=
  skbs.foldl (fun cache skb => (arpRcv dev cache skb).1) []

/-- `arp_get_hwaddr`. -/
def arpLookup (cache : List ArpEntry) (ip : UInt32) : Option (List UInt8) :=
  arpGetHwaddr { routes := [], arpCache := cache.map ArpEntry.toArpCacheEntry } ip

/-! ## What the cache is for -/

/-- An Ethernet packet about IPv4 addresses that comes from `ip`. -/
def ArpPacket.From (pkt : ArpPacket) (ip : UInt32) : Prop :=
  pkt.hwtype = arpEthernet ∧ pkt.protype = arpIpv4 ∧ pkt.sip = ip

instance (pkt : ArpPacket) (ip : UInt32) : Decidable (pkt.From ip) :=
  inferInstanceAs (Decidable (_ ∧ _))

/-- The sender address of the latest packet from `ip` at or after the first one that is addressed to
`addr`. -/
def lastMac (addr : UInt32) (pkts : List ArpPacket) (ip : UInt32) : Option (List UInt8) :=
  ((pkts.filter (·.From ip)).dropWhile (·.dip ≠ addr)).getLast?.map ArpPacket.smac

/-- One packet more. -/
theorem lastMac_concat (addr : UInt32) (pkts : List ArpPacket) (pkt : ArpPacket) (ip : UInt32) :
    lastMac addr (pkts ++ [pkt]) ip =
      if pkt.From ip ∧ ((lastMac addr pkts ip).isSome ∨ pkt.dip = addr) then some pkt.smac
      else lastMac addr pkts ip := by
  unfold lastMac
  by_cases hfrom : pkt.From ip
  · rw [List.filter_append, List.filter_cons_of_pos (by simpa using hfrom), List.filter_nil,
      List.dropWhile_append]
    cases hdrop : (pkts.filter (·.From ip)).dropWhile (·.dip ≠ addr) with
    | nil =>
      by_cases hdip : pkt.dip = addr
      · simp [hfrom, hdip]
      · simp [hdip]
    | cons first rest => simp [hfrom, List.getLast?_cons]
  · rw [List.filter_append, List.filter_cons_of_neg (by simpa using hfrom), List.filter_nil,
      List.append_nil, if_neg fun h => hfrom h.1]

/-! ## The table -/

/-- The entries that `arp_rcv` makes. -/
def Entered (cache : List ArpEntry) : Prop :=
  ∀ entry ∈ cache, entry.resolved = true ∧ entry.hwtype = arpEthernet

theorem arpLookup_cons {entry : ArpEntry} {cache : List ArpEntry} (h : entry.resolved = true)
    (ip : UInt32) : arpLookup (entry :: cache) ip =
      if entry.sip = ip then some entry.smac else arpLookup cache ip := by
  unfold arpLookup arpGetHwaddr
  rw [List.map_cons, List.find?_cons]
  by_cases hip : entry.sip = ip
  · simp [h, hip]
  · rw [if_neg hip, beq_false_of_ne hip, Bool.and_false]

/-- An address is found exactly when there is an entry for it. -/
theorem arpLookup_isSome_iff {cache : List ArpEntry} (h : Entered cache) (ip : UInt32) :
    (arpLookup cache ip).isSome ↔ ip ∈ cache.map (·.sip) := by
  induction cache with
  | nil => simp [arpLookup, arpGetHwaddr]
  | cons entry cache ih =>
    rw [arpLookup_cons (h entry List.mem_cons_self).1, List.map_cons, List.mem_cons]
    by_cases hip : entry.sip = ip
    · simp [hip]
    · rw [if_neg hip, ih fun e he => h e (List.mem_cons_of_mem entry he)]
      exact ⟨.inr, fun hor => hor.resolve_left fun heq => hip heq.symm⟩

/-- A new entry at the end. -/
theorem arpLookup_insert {cache : List ArpEntry} (h : Entered cache) {pkt : ArpPacket}
    (hnew : pkt.sip ∉ cache.map (·.sip)) (ip : UInt32) :
    arpLookup (insertArpTranslationTable cache pkt) ip =
      if pkt.sip = ip then some pkt.smac else arpLookup cache ip := by
  induction cache with
  | nil => exact arpLookup_cons rfl ip
  | cons entry cache ih =>
    rw [List.map_cons, List.mem_cons, not_or] at hnew
    have hres := (h entry List.mem_cons_self).1
    have hrest := ih (fun e he => h e (List.mem_cons_of_mem entry he)) hnew.2
    unfold insertArpTranslationTable at hrest ⊢
    rw [List.cons_append, arpLookup_cons hres, arpLookup_cons hres, hrest]
    by_cases hip : entry.sip = ip
    · rw [if_pos hip, if_pos hip, if_neg fun heq => hnew.1 (heq.trans hip.symm)]
    · rw [if_neg hip, if_neg hip]

/-- What `update_arp_translation_table` does to the table. -/
structure Updated (cache cache' : List ArpEntry) (pkt : ArpPacket) : Prop where
  entered : Entered cache'
  sips : cache'.map (·.sip) = cache.map (·.sip)
  mem : pkt.sip ∈ cache.map (·.sip)
  lookup : ∀ ip, arpLookup cache' ip = if pkt.sip = ip then some pkt.smac else arpLookup cache ip

theorem updateArpTranslationTable_cases {cache : List ArpEntry} (h : Entered cache)
    {pkt : ArpPacket} (hpkt : pkt.hwtype = arpEthernet) :
    (∃ cache', updateArpTranslationTable pkt cache = some cache' ∧ Updated cache cache' pkt) ∨
      updateArpTranslationTable pkt cache = none ∧ pkt.sip ∉ cache.map (·.sip) := by
  induction cache with
  | nil => exact .inr ⟨rfl, List.not_mem_nil⟩
  | cons entry cache ih =>
    obtain ⟨hres, hhw⟩ := h entry List.mem_cons_self
    have htail : Entered cache := fun e he => h e (List.mem_cons_of_mem entry he)
    by_cases hsip : entry.sip = pkt.sip
    · refine .inl ⟨_, if_pos ⟨hhw.trans hpkt.symm, hsip⟩, ?_, rfl, ?_, ?_⟩
      · exact List.forall_mem_cons.mpr ⟨⟨hres, hhw⟩, htail⟩
      · exact List.mem_cons.mpr (.inl hsip.symm)
      · intro ip
        rw [@arpLookup_cons { entry with smac := pkt.smac } cache hres, arpLookup_cons hres, hsip]
        by_cases hip : pkt.sip = ip
        · rw [if_pos hip, if_pos hip]
        · rw [if_neg hip, if_neg hip, if_neg hip]
    · have hstep : updateArpTranslationTable pkt (entry :: cache) =
          (updateArpTranslationTable pkt cache).map (entry :: ·) :=
        if_neg fun hboth => hsip hboth.2
      rcases ih htail with ⟨cache', heq, hupd⟩ | ⟨heq, hnot⟩
      · refine .inl ⟨entry :: cache', by rw [hstep, heq]; rfl, ?_, ?_, ?_, ?_⟩
        · exact List.forall_mem_cons.mpr ⟨⟨hres, hhw⟩, hupd.entered⟩
        · rw [List.map_cons, List.map_cons, hupd.sips]
        · exact List.mem_cons_of_mem _ hupd.mem
        · intro ip
          rw [arpLookup_cons hres, arpLookup_cons hres, hupd.lookup]
          by_cases hip : entry.sip = ip
          · rw [if_pos hip, if_pos hip, if_neg fun heq => hsip (hip.trans heq.symm)]
          · rw [if_neg hip, if_neg hip]
      · refine .inr ⟨by rw [hstep, heq]; rfl, ?_⟩
        rw [List.map_cons, List.mem_cons, not_or]
        exact ⟨fun heq => hsip heq.symm, hnot⟩

/-! ## Every history -/

/-- The table after some packets. -/
structure Learned (addr : UInt32) (pkts : List ArpPacket) (cache : List ArpEntry) : Prop where
  entered : Entered cache
  nodup : (cache.map (·.sip)).Nodup
  lookup : ∀ ip, arpLookup cache ip = lastMac addr pkts ip

section Packet

variable {dev : Netdev} {pkts : List ArpPacket} {cache : List ArpEntry} {skb : SkBuff}

/-- A packet that is not about Ethernet and IPv4 leaves the table as it was. -/
theorem Learned.other (h : Learned dev.addr pkts cache)
    (hother : ∀ ip, ¬ (arpPacket skb).From ip) :
    Learned dev.addr (pkts ++ [arpPacket skb]) cache where
  entered := h.entered
  nodup := h.nodup
  lookup ip := by rw [h.lookup, lastMac_concat, if_neg fun hfrom => hother ip hfrom.1]

/-- The table after a packet about Ethernet and IPv4. -/
theorem arpRcv_fst (dev : Netdev) (cache : List ArpEntry)
    (hhw : (arpPacket skb).hwtype = arpEthernet) (hpro : (arpPacket skb).protype = arpIpv4) :
    (arpRcv dev cache skb).1 =
      (updateArpTranslationTable (arpPacket skb) cache).getD
        (if dev.addr = (arpPacket skb).dip then insertArpTranslationTable cache (arpPacket skb)
          else cache) := by
  unfold arpRcv netdevGet
  dsimp only
  rw [if_neg (not_not.mpr hhw), if_neg (not_not.mpr hpro)]
  by_cases hdip : dev.addr = (arpPacket skb).dip
  · rw [if_pos hdip, if_pos hdip]
    dsimp only
    rw [apply_ite Prod.fst, ite_self]
    cases updateArpTranslationTable (arpPacket skb) cache with
    | none => rfl
    | some cache' => rfl
  · rw [if_neg hdip, if_neg hdip]

/-- **One packet**. -/
theorem Learned.arpRcv (h : Learned dev.addr pkts cache) (skb : SkBuff) :
    Learned dev.addr (pkts ++ [arpPacket skb]) (arpRcv dev cache skb).1 := by
  by_cases hhw : (arpPacket skb).hwtype = arpEthernet
  swap
  · have hsame : (Ip.arpRcv dev cache skb).1 = cache := congrArg Prod.fst (if_pos hhw)
    rw [hsame]
    exact h.other fun ip hfrom => hhw hfrom.1
  by_cases hpro : (arpPacket skb).protype = arpIpv4
  swap
  · have hsame : (Ip.arpRcv dev cache skb).1 = cache :=
      congrArg Prod.fst ((if_neg (not_not.mpr hhw)).trans (if_pos hpro))
    rw [hsame]
    exact h.other fun ip hfrom => hpro hfrom.2.1
  rw [arpRcv_fst dev cache hhw hpro]
  have hknown : ∀ ip, (lastMac dev.addr pkts ip).isSome ↔ ip ∈ cache.map (·.sip) := fun ip => by
    rw [← h.lookup, arpLookup_isSome_iff h.entered]
  have hfrom : ∀ ip, (arpPacket skb).From ip ↔ (arpPacket skb).sip = ip := fun ip =>
    ⟨fun hf => hf.2.2, fun hip => ⟨hhw, hpro, hip⟩⟩
  rcases updateArpTranslationTable_cases h.entered hhw with ⟨cache', heq, hupd⟩ | ⟨heq, hnew⟩
  · rw [heq, Option.getD_some]
    refine ⟨hupd.entered, by rw [hupd.sips]; exact h.nodup, fun ip => ?_⟩
    rw [hupd.lookup, lastMac_concat, h.lookup]
    by_cases hip : (arpPacket skb).sip = ip
    · rw [if_pos hip, if_pos ⟨(hfrom ip).mpr hip, .inl ((hknown ip).mpr (hip ▸ hupd.mem))⟩]
    · rw [if_neg hip, if_neg fun hf => hip ((hfrom ip).mp hf.1)]
  rw [heq, Option.getD_none]
  by_cases hdip : dev.addr = (arpPacket skb).dip
  · rw [if_pos hdip]
    refine ⟨?_, ?_, fun ip => ?_⟩
    · intro entry hentry
      rcases List.mem_append.mp hentry with hold | hlast
      · exact h.entered entry hold
      · rw [List.mem_singleton.mp hlast]
        exact ⟨rfl, hhw⟩
    · rw [insertArpTranslationTable, List.map_append]
      refine List.nodup_append.mpr ⟨h.nodup, List.nodup_singleton _, fun a ha b hb heq => hnew ?_⟩
      have hb' : b = (arpPacket skb).sip := List.mem_singleton.mp hb
      rwa [← hb', ← heq]
    · rw [arpLookup_insert h.entered hnew, lastMac_concat, h.lookup]
      by_cases hip : (arpPacket skb).sip = ip
      · rw [if_pos hip, if_pos ⟨(hfrom ip).mpr hip, .inr hdip.symm⟩]
      · rw [if_neg hip, if_neg fun hf => hip ((hfrom ip).mp hf.1)]
  · rw [if_neg hdip]
    refine ⟨h.entered, h.nodup, fun ip => ?_⟩
    rw [h.lookup, lastMac_concat, if_neg]
    rintro ⟨hf, hsome | heq⟩
    · rw [hfrom] at hf
      exact hnew (hf ▸ (hknown ip).mp hsome)
    · exact hdip heq.symm

end Packet

/-- **The cache after every history**: one entry for each address, and `arp_get_hwaddr` finds the
latest sender address. -/
theorem arpCache_run (dev : Netdev) (skbs : List SkBuff) :
    ((arpCache dev skbs).map (·.sip)).Nodup ∧
      ∀ ip, arpLookup (arpCache dev skbs) ip = lastMac dev.addr (skbs.map arpPacket) ip := by
  have hlearned : Learned dev.addr (skbs.map arpPacket) (arpCache dev skbs) := by
    induction skbs using List.reverseRecOn with
    | nil => exact ⟨fun _ h => absurd h List.not_mem_nil, List.nodup_nil, fun ip => rfl⟩
    | append_singleton skbs skb ih =>
      rw [arpCache, List.foldl_append, List.map_append]
      exact ih.arpRcv skb
  exact ⟨hlearned.nodup, hlearned.lookup⟩

end LvlIp.Ip
