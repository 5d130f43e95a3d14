import LvlIp.Ip.Input
import LvlIp.Tcp.Checksum

/-!
# The checksum verifies itself

`checksum` of `src/utils.c` over a buffer in which it is stored. The loop that folds the sum ends
after at most two turns (`foldLoop_eq`), so that `Tcp.checksum` is what it returns
(`checksumCode_eq`); over a buffer of at most 65535 bytes the sum does not overflow, and a checksum
that is stored into a field at an even offset brings the sum to the other zero
(`checksum_storeField`). The header that `ip_output` completes is such a buffer
(`checksum_ipSendHeader`).
-/

namespace LvlIp.Ip

open Fec Tcp Foundations

/-! ## The loop -/

/-- The loop of `checksum` that folds the sum, for at most `fuel` looks at its condition. -/
def foldLoop : ℕ → UInt32 → Option UInt32
  | 0, _ => none
  | fuel + 1, sum =>
    if sum >>> 16 = 0 then some sum else foldLoop fuel ((sum &&& (0xffff : UInt32)) + (sum >>> 16))

/-- `checksum`, with its loop. -/
def checksumCode (fuel : ℕ) (p : List UInt8) (startSum : UInt32) : Option UInt16 :=
  (foldLoop fuel (startSum + UInt32.ofNat (sumEvery16bits p))).map fun sum => ~~~ sum.toUInt16

theorem toNat_shiftRight_sixteen (sum : UInt32) : (sum >>> 16).toNat = sum.toNat / 65536 := by
  rw [UInt32.toNat_shiftRight]
  exact Nat.shiftRight_eq_div_pow _ _

/-- One turn of the loop. -/
theorem toNat_fold (sum : UInt32) :
    ((sum &&& (0xffff : UInt32)) + (sum >>> 16)).toNat = foldSum sum.toNat := by
  have hmask : (sum &&& (0xffff : UInt32)).toNat = sum.toNat % 65536 := by
    rw [UInt32.toNat_and]
    exact Nat.and_two_pow_sub_one_eq_mod _ 16
  have hlt := sum.toNat_lt
  rw [UInt32.toNat_add, hmask, toNat_shiftRight_sixteen, Nat.mod_eq_of_lt (by omega)]
  rfl

theorem shiftRight_eq_zero_iff (sum : UInt32) : sum >>> 16 = 0 ↔ sum.toNat < 65536 := by
  rw [← UInt32.toNat_inj, toNat_shiftRight_sixteen, UInt32.toNat_zero]
  omega

theorem foldSum_eq_self {n : ℕ} (h : n < 65536) : foldSum n = n := by
  unfold foldSum
  omega

theorem foldLoop_of_lt {sum : UInt32} (h : sum.toNat < 65536) (fuel : ℕ) :
    foldLoop (fuel + 1) sum = some sum :=
  if_pos ((shiftRight_eq_zero_iff sum).mpr h)

theorem foldLoop_of_le {sum : UInt32} (h : 65536 ≤ sum.toNat) (fuel : ℕ) :
    foldLoop (fuel + 1) sum = foldLoop fuel ((sum &&& (0xffff : UInt32)) + (sum >>> 16)) :=
  if_neg fun h0 => Nat.not_lt.mpr h ((shiftRight_eq_zero_iff sum).mp h0)

/-- **The loop ends for every sum**, after at most two turns. -/
theorem foldLoop_eq (sum : UInt32) :
    foldLoop 3 sum = some (UInt32.ofNat (foldSum (foldSum sum.toNat))) := by
  have hlt := sum.toNat_lt
  by_cases h : sum.toNat < 65536
  · rw [foldLoop_of_lt h, foldSum_eq_self h, foldSum_eq_self h, UInt32.ofNat_toNat]
  rw [foldLoop_of_le (Nat.not_lt.mp h), ← toNat_fold]
  generalize hs : (sum &&& (0xffff : UInt32)) + (sum >>> 16) = turned
  have hturned : turned.toNat ≤ 131070 := by
    rw [← hs, toNat_fold, foldSum]
    omega
  by_cases h' : turned.toNat < 65536
  · rw [foldLoop_of_lt h', foldSum_eq_self h', UInt32.ofNat_toNat]
  have hlast : ((turned &&& (0xffff : UInt32)) + (turned >>> 16)).toNat < 65536 := by
    rw [toNat_fold, foldSum]
    omega
  rw [foldLoop_of_le (Nat.not_lt.mp h'), foldLoop_of_lt hlast, ← toNat_fold, UInt32.ofNat_toNat]

theorem not_toUInt16 {n : ℕ} (h : n < 65536) :
    ~~~ (UInt32.ofNat n).toUInt16 = UInt16.ofNat (65535 - n) := by
  apply UInt16.toNat_inj.mp
  rw [UInt16.toNat_not, UInt32.toNat_toUInt16, UInt32.toNat_ofNat', UInt16.toNat_ofNat',
    Nat.mod_eq_of_lt (a := n) (by omega), Nat.mod_eq_of_lt (a := n) (by omega),
    Nat.mod_eq_of_lt (by omega)]
  rfl

/-- `Tcp.checksum` is what the code returns. -/
theorem checksumCode_eq (p : List UInt8) :
    checksumCode 3 p 0 = some (UInt16.ofNat (checksum p)) := by
  have hlt : foldSum (foldSum (sumEvery16bits p % 2 ^ 32)) < 65536 :=
    foldSum_foldSum_lt (Nat.mod_lt _ (by norm_num))
  rw [checksumCode, foldLoop_eq, UInt32.zero_add, UInt32.toNat_ofNat', Option.map_some,
    not_toUInt16 hlt, checksum]

/-! ## Fields -/

/-- Stores a 16-bit number at an offset. -/
def storeField (p : List UInt8) (off v : ℕ) : List UInt8 :=
  (p.set off (UInt8.ofNat (v % 256))).set (off + 1) (UInt8.ofNat (v / 256))

theorem length_storeField (p : List UInt8) (off v : ℕ) : (storeField p off v).length = p.length := by
  rw [storeField, List.length_set, List.length_set]

theorem storeField_storeField (p : List UInt8) (off v w : ℕ) :
    storeField (storeField p off v) off w = storeField p off w := by
  unfold storeField
  rw [List.set_comm _ _ (by omega : off + 1 ≠ off), List.set_set, List.set_set]

theorem storeField_cons_cons (a b : UInt8) (p : List UInt8) (off v : ℕ) :
    storeField (a :: b :: p) (off + 2) v = a :: b :: storeField p off v := rfl

/-- A field at an even offset is one word of the sum. -/
theorem sumEvery16bits_storeField {p : List UInt8} {i v : ℕ} (hi : 2 * i + 1 < p.length)
    (hv : v < 65536) :
    sumEvery16bits (storeField p (2 * i) v) = sumEvery16bits (storeField p (2 * i) 0) + v := by
  induction i generalizing p with
  | zero =>
    rcases p with _ | ⟨a, _ | ⟨b, p⟩⟩
    · simp at hi
    · simp at hi
    · simp [storeField, sumEvery16bits]
      omega
  | succ i ih =>
    rcases p with _ | ⟨a, _ | ⟨b, p⟩⟩
    · simp at hi
    · simp at hi
    · have hrest := @ih p (by simp at hi; omega)
      rw [Nat.mul_add, Nat.mul_one, storeField_cons_cons, storeField_cons_cons, sumEvery16bits,
        sumEvery16bits, hrest]
      omega

/-! ## Verification -/

/-- The sum over a buffer of 16-bit length does not overflow. -/
theorem checksum_eq_onesRep {p : List UInt8} (h : sumEvery16bits p < 2 ^ 32) :
    checksum p = 65535 - onesRep 65536 (sumEvery16bits p) := by
  rw [checksum, Nat.mod_eq_of_lt h, foldSum_foldSum h]

/-- **A stored checksum verifies.** -/
theorem checksum_storeField {p : List UInt8} {i : ℕ} (hlen : p.length ≤ 65535)
    (hi : 2 * i + 1 < p.length) :
    checksum (storeField p (2 * i) (checksum (storeField p (2 * i) 0))) = 0 := by
  have hle := sumEvery16bits_le (storeField p (2 * i) 0)
  rw [length_storeField] at hle
  have hsum : sumEvery16bits (storeField p (2 * i) 0) ≤ 65535 * 65535 :=
    hle.trans (Nat.mul_le_mul_left _ hlen)
  have hcsum := checksum_eq_onesRep (show sumEvery16bits (storeField p (2 * i) 0) < 2 ^ 32 by omega)
  have hstored := sumEvery16bits_storeField hi
    (show checksum (storeField p (2 * i) 0) < 65536 by omega)
  rw [checksum_eq_onesRep (by omega), hstored, hcsum]
  generalize sumEvery16bits (storeField p (2 * i) 0) = sum
  by_cases h0 : sum = 0
  · rw [h0, onesRep_zero]
    decide
  · have hcompl := onesRep_add_complement (b := 65536) (by norm_num) h0
    norm_num only at hcompl
    rw [hcompl]

/-! ## The IP header -/

/-- The header that `ip_send_check` has completed. -/
def ipSendHeader (rt : RtEntry) (daddr : UInt32) (skb : SkBuff) : List UInt8 :=
  ipHeader rt daddr skb (le16 (checksum (ipHeader rt daddr skb [0, 0])))

theorem length_ipHeader (rt : RtEntry) (daddr : UInt32) (skb : SkBuff) (csum : List UInt8) :
    (ipHeader rt daddr skb csum).length = 18 + csum.length := by
  simp [ipHeader, be16, be32, bytesAt]
  omega

/-- The checksum is a field of the header. -/
theorem ipHeader_le16 (rt : RtEntry) (daddr : UInt32) (skb : SkBuff) (v : ℕ) :
    ipHeader rt daddr skb (le16 v) = storeField (ipHeader rt daddr skb [0, 0]) (2 * 5) v := by
  simp [ipHeader, be16, be32, bytesAt, List.range_succ, storeField, le16]

theorem checksum_ipSendHeader (rt : RtEntry) (daddr : UInt32) (skb : SkBuff) :
    checksum (ipSendHeader rt daddr skb) = 0 := by
  have hzero : storeField (ipHeader rt daddr skb [0, 0]) (2 * 5) 0 = ipHeader rt daddr skb [0, 0] := by
    rw [← ipHeader_le16]
    rfl
  have hlen : (ipHeader rt daddr skb [0, 0]).length = 20 := length_ipHeader rt daddr skb _
  have h := checksum_storeField (p := ipHeader rt daddr skb [0, 0]) (i := 5) (by omega) (by omega)
  rw [hzero] at h
  rwa [ipSendHeader, ipHeader_le16]

/-- The buffer that `ip_output` hands to `dst_neigh_output`. -/
def ipOutputSkb (rt : RtEntry) (daddr : UInt32) (skb : SkBuff) : SkBuff :=
  (skbPush skb ipHdrLen).store ethHdrLen (ipSendHeader rt daddr (skbPush skb ipHdrLen))

theorem ipOutput_eq {t : Tables} {daddr : UInt32} {rt : RtEntry} (h : routeLookup t daddr = some rt)
    (skb : SkBuff) : ipOutput t daddr skb = dstNeighOutput t rt daddr (ipOutputSkb rt daddr skb) := by
  unfold ipOutput
  rw [h]
  rfl

theorem ipHdr_ipOutputSkb (rt : RtEntry) (daddr : UInt32) {skb : SkBuff}
    (h : ethHdrLen ≤ skb.mem.length) : ∃ rest, ipHdr (ipOutputSkb rt daddr skb) =
      ipSendHeader rt daddr (skbPush skb ipHdrLen) ++ rest := by
  have hlen : (skb.mem.take ethHdrLen).length = ethHdrLen := List.length_take_of_le h
  have hdrop : ∀ l : List UInt8, (skb.mem.take ethHdrLen ++ l).drop ethHdrLen = l := fun l => by
    rw [List.drop_append_of_le_length hlen.ge, List.drop_of_length_le hlen.le, List.nil_append]
  unfold ipHdr ipOutputSkb SkBuff.store
  dsimp only [skbPush]
  rw [List.append_assoc, hdrop]
  exact ⟨_, rfl⟩

/-- `ip_rcv` takes the checksum over the header alone. -/
theorem bytesAt_ipSendHeader (rt : RtEntry) (daddr : UInt32) (skb : SkBuff) (rest : List UInt8) :
    bytesAt (ipSendHeader rt daddr skb ++ rest) 0 (ipIhl (ipSendHeader rt daddr skb ++ rest) * 4) =
      ipSendHeader rt daddr skb := by
  have hihl : ipIhl (ipSendHeader rt daddr skb ++ rest) = 5 := by
    simp [ipIhl, ipSendHeader, ipHeader]
  have hlen : (ipSendHeader rt daddr skb).length = 20 := length_ipHeader rt daddr skb _
  rw [hihl]
  apply List.ext_getElem
  · rw [bytesAt, List.length_map, List.length_range, hlen]
  · intro i hi hi'
    simp [bytesAt, List.getElem?_append_left hi', List.getElem?_eq_getElem hi']

/-- **The checksum verifies itself**: the loop ends for every sum; storing the checksum of a buffer
into a field that was zero brings the checksum to zero; and so every header that `ip_output`
completes passes the test of `ip_rcv`. -/
theorem checksum_verifies :
    (∀ sum : UInt32, ∃ r, foldLoop 3 sum = some r ∧ r.toNat < 65536) ∧
    (∀ (p : List UInt8) (i : ℕ), p.length ≤ 65535 → 2 * i + 1 < p.length →
      ∃ csum : UInt16, checksumCode 3 (storeField p (2 * i) 0) 0 = some csum ∧
        checksumCode 3 (storeField (storeField p (2 * i) 0) (2 * i) csum.toNat) 0 = some 0) ∧
    ∀ (t : Tables) (daddr : UInt32) (rt : RtEntry) (skb : SkBuff), routeLookup t daddr = some rt →
      ethHdrLen ≤ skb.mem.length →
        ipOutput t daddr skb = dstNeighOutput t rt daddr (ipOutputSkb rt daddr skb) ∧
        checksumCode 3 (bytesAt (ipHdr (ipOutputSkb rt daddr skb)) 0
          (ipIhl (ipHdr (ipOutputSkb rt daddr skb)) * 4)) 0 = some 0 := by
  refine ⟨?_, ?_, ?_⟩
  · intro sum
    have hlt := foldSum_foldSum_lt sum.toNat_lt
    refine ⟨_, foldLoop_eq sum, ?_⟩
    rwa [UInt32.toNat_ofNat', Nat.mod_eq_of_lt (by omega)]
  · intro p i hlen hi
    have hcsum : checksum (storeField p (2 * i) 0) < 65536 := by
      unfold checksum
      omega
    refine ⟨_, checksumCode_eq _, ?_⟩
    rw [storeField_storeField, UInt16.toNat_ofNat', Nat.mod_eq_of_lt hcsum, checksumCode_eq,
      checksum_storeField hlen hi]
    rfl
  · intro t daddr rt skb hrt hmem
    obtain ⟨rest, hhdr⟩ := ipHdr_ipOutputSkb rt daddr hmem
    refine ⟨ipOutput_eq hrt skb, ?_⟩
    rw [hhdr, bytesAt_ipSendHeader, checksumCode_eq, checksum_ipSendHeader]
    rfl

/-- A route to every host. -/
def anyRoute : RtEntry where
  dst := 0
  gateway := 0
  netmask := 0
  isGateway := false
  dev := { addr := 0x0a000005, hwaddr := [2, 0, 0, 0, 0, 5] }

/-- A buffer with room for the headers. -/
def emptySkb : SkBuff where
  mem := List.replicate 54 0
  data := 34
  len := 20
  protocol := ipTcp

/-- A host with that route, whose neighbour `10.0.0.4` is resolved. -/
def neighbourTables : Tables where
  routes := [anyRoute]
  arpCache := [{ resolved := true, sip := 0x0a000004, smac := [2, 0, 0, 0, 0, 4] }]

/-- Three bytes with the checksum in front, and the header of an empty segment that is sent. -/
theorem checksum_verifies_odd :
    (∃ csum : UInt16, checksumCode 3 (storeField [1, 2, 3] (2 * 0) 0) 0 = some csum ∧
      checksumCode 3 (storeField (storeField [1, 2, 3] (2 * 0) 0) (2 * 0) csum.toNat) 0 = some 0) ∧
    (ipOutput neighbourTables 0x0a000004 emptySkb).isSome ∧
    ipOutput neighbourTables 0x0a000004 emptySkb =
      dstNeighOutput neighbourTables anyRoute 0x0a000004
        (ipOutputSkb anyRoute 0x0a000004 emptySkb) ∧
    checksumCode 3 (bytesAt (ipHdr (ipOutputSkb anyRoute 0x0a000004 emptySkb)) 0
      (ipIhl (ipHdr (ipOutputSkb anyRoute 0x0a000004 emptySkb)) * 4)) 0 = some 0 :=
  ⟨checksum_verifies.2.1 [1, 2, 3] 0 (by decide) (by decide), rfl,
    checksum_verifies.2.2 neighbourTables 0x0a000004 anyRoute emptySkb rfl (by decide)⟩

end LvlIp.Ip
