import LvlIp.Foundations.OnesComplement
import LvlIp.Tcp.Datagram

/-!
# The checksum of a segment

`tcp_udp_checksum` of `src/tcp.c` and `checksum` of `src/utils.c`, on a little-endian host: the
addresses, the protocol number, the length and the words of the segment are added up in 32 bits,
and the sum is folded. What RFC 1071 asks for is the one's complement sum of the big-endian words of
the pseudo header and of the segment. The two agree exactly when the 32-bit sum does not overflow
(`tcpUdpChecksum_conforms_iff`): the addresses go in as whole words, so two of them already can.
-/

namespace LvlIp.Tcp

open Fec Foundations

/-! ## The code -/

/-- `htons`, as a number. -/
def htons (x : UInt16) : UInt16 := UInt16.ofNat (swapHalves 256 x.toNat)

/-- `checksum`, with its start sum. -/
def checksumFrom (p : List UInt8) (startSum : UInt32) : ℕ :=
  65535 - foldSum (foldSum ((startSum.toNat + sumEvery16bits p) % 2 ^ 32))

/-- `tcp_udp_checksum`. The addresses are in network byte order. -/
def tcpUdpChecksum (saddr daddr : UInt32) (proto : UInt8) (data : List UInt8) (len : UInt16) : ℕ :=
  let sum : UInt32 := 0
  let sum := sum + saddr
  let sum := sum + daddr
  let sum := sum + (htons proto.toUInt16).toUInt32
  let sum := sum + (htons len).toUInt32
  checksumFrom (data.take len.toNat) sum

/-! ## RFC 1071 -/

/-- The big-endian 16-bit words of some bytes, the last one padded with zero. -/
def beWords : List UInt8 → List ℕ
  | a :: b :: p => (a.toNat * 256 + b.toNat) :: beWords p
  | [a] => [a.toNat * 256]
  | [] => []

/-- The checksum of some bytes. -/
def rfc1071 (p : List UInt8) : ℕ := 65535 - onesSum 65536 (beWords p)

/-- The bytes of a word in memory. -/
def le32 (x : UInt32) : List UInt8 := (be32 x).reverse

/-- The pseudo header. -/
def pseudoHeader (saddr daddr : UInt32) (proto : UInt8) (len : UInt16) : List UInt8 :=
  le32 saddr ++ le32 daddr ++ [0, proto] ++ be16 len

/-- The segment with a checksum stored in its field. -/
def storeCsum (seg : List UInt8) (csum : ℕ) : List UInt8 :=
  (seg.set 16 (UInt8.ofNat (csum % 256))).set 17 (UInt8.ofNat (csum / 256))

/-- The checksum, read in network byte order, is that of the pseudo header and the segment, and a
receiver that sums over both accepts the segment that carries it. -/
structure Conforms (saddr daddr : UInt32) (proto : UInt8) (seg : List UInt8) (csum : ℕ) :
    Prop where
  value : swapHalves 256 csum =
    rfc1071 (pseudoHeader saddr daddr proto (UInt16.ofNat seg.length) ++ seg)
  accepted : onesSum 65536 (beWords
    (pseudoHeader saddr daddr proto (UInt16.ofNat seg.length) ++ storeCsum seg csum)) = 65535

/-- What the code adds up. -/
def checksumTotal (saddr daddr : UInt32) (proto : UInt8) (seg : List UInt8) : ℕ :=
  saddr.toNat + daddr.toNat + 256 * proto.toNat + swapHalves 256 seg.length + sumEvery16bits seg

/-! ## Sums of words -/

theorem lt_of_mem_beWords {p : List UInt8} : ∀ w ∈ beWords p, w < 65536 := by
  induction p using beWords.induct with
  | case1 a b p ih =>
    intro w hw
    have ha := a.toNat_lt
    have hb := b.toNat_lt
    rcases List.mem_cons.mp hw with rfl | hw
    · omega
    · exact ih w hw
  | case2 a =>
    have ha := a.toNat_lt
    simp only [beWords, List.mem_singleton, forall_eq]
    omega
  | case3 => simp [beWords]

/-- The words in the two byte orders add up to the same, up to the factor 256. -/
theorem sum_beWords (p : List UInt8) :
    (beWords p).sum ≡ sumEvery16bits p * 256 [MOD 65535] ∧
      ((beWords p).sum = 0 ↔ sumEvery16bits p * 256 = 0) := by
  induction p using beWords.induct with
  | case1 a b p ih =>
    obtain ⟨hmod, hzero⟩ := ih
    simp only [beWords, sumEvery16bits, List.sum_cons]
    refine ⟨?_, by omega⟩
    unfold Nat.ModEq at hmod ⊢
    omega
  | case2 a => simp [beWords, sumEvery16bits, Nat.ModEq]
  | case3 => simp [beWords, sumEvery16bits, Nat.ModEq]

theorem onesSum_beWords (p : List UInt8) :
    onesSum 65536 (beWords p) = onesRep 65536 (sumEvery16bits p * 256) := by
  rw [onesSum_eq_onesRep (by norm_num) lt_of_mem_beWords, onesRep_eq_iff (by norm_num)]
  exact sum_beWords p

theorem sum_beWords_set {p : List UInt8} {i : ℕ} (hi : 2 * i + 1 < p.length)
    (h0 : p.getD (2 * i) 0 = 0) (h1 : p.getD (2 * i + 1) 0 = 0) (a b : UInt8) :
    (beWords ((p.set (2 * i) a).set (2 * i + 1) b)).sum =
      (beWords p).sum + (a.toNat * 256 + b.toNat) := by
  induction i generalizing p with
  | zero =>
    rcases p with _ | ⟨x, _ | ⟨y, p⟩⟩
    · simp at hi
    · simp at hi
    · obtain rfl : x = 0 := h0
      obtain rfl : y = 0 := h1
      simp [beWords]
      omega
  | succ i ih =>
    rcases p with _ | ⟨x, _ | ⟨y, p⟩⟩
    · simp at hi
    · simp at hi
    · have hrest := @ih p (by simp at hi; omega) (by simpa [Nat.mul_add] using h0)
        (by simpa [Nat.mul_add] using h1)
      have hset : ((x :: y :: p).set (2 * (i + 1)) a).set (2 * (i + 1) + 1) b =
          x :: y :: (p.set (2 * i) a).set (2 * i + 1) b := by
        simp [Nat.mul_add]
      rw [hset, beWords, beWords, List.sum_cons, List.sum_cons, hrest]
      omega

/-! ## What the code computes -/

section

variable (saddr daddr : UInt32) (proto : UInt8) (seg : List UInt8)

theorem foldSum_foldSum {n : ℕ} (hn : n < 2 ^ 32) : foldSum (foldSum n) = onesRep 65536 n := by
  apply eq_onesRep (foldSum_foldSum_lt hn)
  · exact (mod_add_div_modEq (by norm_num) _).trans (mod_add_div_modEq (by norm_num) n)
  · unfold foldSum
    rw [mod_add_div_eq_zero_iff, mod_add_div_eq_zero_iff]

theorem toNat_htons (x : UInt16) : (htons x).toNat = swapHalves 256 x.toNat := by
  have hx : x.toNat < 256 * 256 := x.toNat_lt
  have hswap : swapHalves 256 x.toNat < 65536 := swapHalves_lt hx
  unfold htons
  rw [UInt16.toNat_ofNat', Nat.mod_eq_of_lt hswap]

theorem tcpUdpChecksum_eq (hlen : seg.length < 65536) :
    tcpUdpChecksum saddr daddr proto seg (UInt16.ofNat seg.length) =
      65535 - onesRep 65536 (checksumTotal saddr daddr proto seg % 2 ^ 32) := by
  have hnat : (UInt16.ofNat seg.length).toNat = seg.length := by
    rw [UInt16.toNat_ofNat', Nat.mod_eq_of_lt hlen]
  have hproto : swapHalves 256 proto.toNat = 256 * proto.toNat := by
    have := proto.toNat_lt
    unfold swapHalves
    omega
  simp only [tcpUdpChecksum, checksumFrom]
  rw [foldSum_foldSum (Nat.mod_lt _ (by norm_num)), hnat, List.take_length]
  congr 2
  simp only [UInt32.toNat_add, UInt16.toNat_toUInt32, toNat_htons, hnat, UInt8.toNat_toUInt16,
    hproto, checksumTotal, UInt32.toNat_zero]
  omega

/-- The words of an address, in memory order. -/
theorem sumEvery16bits_le32 (x : UInt32) (p : List UInt8) :
    sumEvery16bits (le32 x ++ p) = x.toNat % 65536 + x.toNat / 65536 + sumEvery16bits p := by
  have hx := x.toNat_lt
  simp [le32, be32, sumEvery16bits]
  omega

/-- The words of the pseudo header and of the segment stand for what the code adds up. -/
theorem sumEvery16bits_pseudoHeader (hlen : seg.length < 65536) :
    sumEvery16bits (pseudoHeader saddr daddr proto (UInt16.ofNat seg.length) ++ seg) =
      saddr.toNat % 65536 + saddr.toNat / 65536 + (daddr.toNat % 65536 + daddr.toNat / 65536) +
        256 * proto.toNat + swapHalves 256 seg.length + sumEvery16bits seg := by
  have hnat : (UInt16.ofNat seg.length).toNat = seg.length := by
    rw [UInt16.toNat_ofNat', Nat.mod_eq_of_lt hlen]
  have hrest : sumEvery16bits ([0, proto] ++ (be16 (UInt16.ofNat seg.length) ++ seg)) =
      256 * proto.toNat + (swapHalves 256 seg.length + sumEvery16bits seg) := by
    simp [be16, sumEvery16bits, hnat, swapHalves]
    omega
  unfold pseudoHeader
  rw [List.append_assoc, List.append_assoc, List.append_assoc, sumEvery16bits_le32,
    sumEvery16bits_le32, hrest]
  omega

theorem onesRep_pseudoHeader (hlen : seg.length < 65536) :
    onesRep 65536 (sumEvery16bits
        (pseudoHeader saddr daddr proto (UInt16.ofNat seg.length) ++ seg) * 256) =
      onesRep 65536 (checksumTotal saddr daddr proto seg * 256) := by
  have hs := mod_add_div_modEq (b := 65536) (by norm_num) saddr.toNat
  have hd := mod_add_div_modEq (b := 65536) (by norm_num) daddr.toNat
  rw [onesRep_eq_iff (by norm_num), sumEvery16bits_pseudoHeader saddr daddr proto seg hlen]
  unfold checksumTotal
  constructor
  · exact ((((hs.add hd).add_right _).add_right _).add_right _).mul_right 256
  · omega

theorem checksumTotal_ne_zero (hpos : 0 < seg.length) :
    checksumTotal saddr daddr proto seg ≠ 0 := by
  have hswap : swapHalves 256 seg.length ≠ 0 := by
    rw [Ne, swapHalves_eq_zero_iff (by norm_num)]
    omega
  unfold checksumTotal
  omega

theorem length_pseudoHeader (len : UInt16) : (pseudoHeader saddr daddr proto len).length = 12 := by
  simp [pseudoHeader, le32, be32, be16]

/-- The sum over a segment in which a checksum is stored. -/
theorem sum_beWords_storeCsum {csum : ℕ} (hcsum : csum < 65536) (hlen : 18 ≤ seg.length)
    (hzero : seg.getD 16 0 = 0 ∧ seg.getD 17 0 = 0) (len : UInt16) :
    (beWords (pseudoHeader saddr daddr proto len ++ storeCsum seg csum)).sum =
      (beWords (pseudoHeader saddr daddr proto len ++ seg)).sum + swapHalves 256 csum := by
  have hhdr := length_pseudoHeader saddr daddr proto len
  have hset := @sum_beWords_set (pseudoHeader saddr daddr proto len ++ seg) 14
    (by simp [hhdr]; omega)
    (by rw [List.getD_append_right _ _ _ _ (by omega), hhdr]; exact hzero.1)
    (by rw [List.getD_append_right _ _ _ _ (by omega), hhdr]; exact hzero.2)
    (UInt8.ofNat (csum % 256)) (UInt8.ofNat (csum / 256))
  rw [List.set_append_right _ _ (by omega), List.set_append_right _ _ (by omega), hhdr] at hset
  rw [storeCsum, hset]
  simp [swapHalves]
  omega

theorem sumEvery16bits_le (p : List UInt8) : sumEvery16bits p ≤ 65535 * p.length := by
  induction p using sumEvery16bits.induct with
  | case1 a b p ih =>
    have ha := a.toNat_lt
    have hb := b.toNat_lt
    simp only [sumEvery16bits, List.length_cons]
    omega
  | case2 a =>
    have ha := a.toNat_lt
    simp only [sumEvery16bits, List.length_cons]
    omega
  | case3 => simp [sumEvery16bits]

/-- What overflows is a multiple of the square of the radix, and less than 65535 times. -/
theorem onesRep_checksumTotal_mod_iff (hlen : seg.length < 65536) :
    onesRep 65536 (checksumTotal saddr daddr proto seg % 2 ^ 32) =
        onesRep 65536 (checksumTotal saddr daddr proto seg) ↔
      checksumTotal saddr daddr proto seg < 2 ^ 32 := by
  have hlt : checksumTotal saddr daddr proto seg < 4 * 2 ^ 32 := by
    have hsum := sumEvery16bits_le seg
    have hswap : swapHalves 256 seg.length < 65536 := swapHalves_lt (by omega)
    have hs := saddr.toNat_lt
    have hd := daddr.toNat_lt
    have hp := proto.toNat_lt
    unfold checksumTotal
    omega
  generalize checksumTotal saddr daddr proto seg = total at hlt ⊢
  constructor
  · intro h
    by_contra hge
    have hne := @onesRep_sub_pow_ne 65536 total (by norm_num) 2 (total / 2 ^ 32) (by omega)
      (by omega) (by omega)
    apply hne
    rw [← h]
    congr 1
    omega
  · intro h
    rw [Nat.mod_eq_of_lt h]

theorem swapHalves_digit (n : ℕ) :
    swapHalves 256 (onesRep 65536 n) = onesRep 65536 (n * 256) :=
  @swapHalves_onesRep 256 n (by norm_num)

theorem swapHalves_injective {x y : ℕ} (hx : x < 65536) (hy : y < 65536)
    (h : swapHalves 256 x = swapHalves 256 y) : x = y := by
  unfold swapHalves at h
  omega

/-- The checksum in network byte order. -/
theorem swapHalves_tcpUdpChecksum (hlen : seg.length < 65536) :
    swapHalves 256 (tcpUdpChecksum saddr daddr proto seg (UInt16.ofNat seg.length)) =
      65535 - onesRep 65536 (checksumTotal saddr daddr proto seg % 2 ^ 32 * 256) := by
  rw [tcpUdpChecksum_eq saddr daddr proto seg hlen]
  have hcompl := @swapHalves_complement 256
    (onesRep 65536 (checksumTotal saddr daddr proto seg % 2 ^ 32)) (onesRep_lt (by norm_num))
  exact hcompl.trans (congrArg (65535 - ·) (swapHalves_digit _))

/-- **When the checksum conforms** to RFC 1071: as long as the 32-bit sum does not overflow. -/
theorem tcpUdpChecksum_conforms_iff (hlen : 20 ≤ seg.length ∧ seg.length ≤ 65515)
    (hzero : seg.getD 16 0 = 0 ∧ seg.getD 17 0 = 0) :
    Conforms saddr daddr proto seg
        (tcpUdpChecksum saddr daddr proto seg (UInt16.ofNat seg.length)) ↔
      checksumTotal saddr daddr proto seg < 2 ^ 32 := by
  have hlen' : seg.length < 65536 := by omega
  have hswap := swapHalves_tcpUdpChecksum saddr daddr proto seg hlen'
  have hwords : ∀ p, onesSum 65536 (beWords p) = onesRep 65536 (sumEvery16bits p * 256) :=
    onesSum_beWords
  have hhdr := onesRep_pseudoHeader saddr daddr proto seg hlen'
  constructor
  · intro h
    rw [← onesRep_checksumTotal_mod_iff saddr daddr proto seg hlen']
    have hval := h.value
    rw [hswap, rfc1071, hwords, hhdr] at hval
    have hcompl : ∀ x < 65536, ∀ y < 65536, 65535 - x = 65535 - y → x = y := by omega
    -- the halves of both sums are where they were
    apply swapHalves_injective (onesRep_lt (by norm_num)) (onesRep_lt (by norm_num))
    rw [swapHalves_digit, swapHalves_digit]
    exact hcompl _ (onesRep_lt (by norm_num)) _ (onesRep_lt (by norm_num)) hval
  · intro h
    rw [Nat.mod_eq_of_lt h, ← hhdr] at hswap
    refine ⟨by rw [hswap, rfc1071, hwords], ?_⟩
    have hcsum : tcpUdpChecksum saddr daddr proto seg (UInt16.ofNat seg.length) < 65536 := by
      rw [tcpUdpChecksum_eq saddr daddr proto seg hlen']
      omega
    rw [onesSum_eq_onesRep (by norm_num) lt_of_mem_beWords,
      sum_beWords_storeCsum saddr daddr proto seg hcsum (by omega) hzero, hswap, ← hwords,
      onesSum_eq_onesRep (by norm_num) lt_of_mem_beWords]
    have hne : (beWords (pseudoHeader saddr daddr proto (UInt16.ofNat seg.length) ++ seg)).sum ≠
        0 := by
      have htotal := checksumTotal_ne_zero saddr daddr proto seg (by omega)
      rw [Ne, (sum_beWords _).2, sumEvery16bits_pseudoHeader saddr daddr proto seg hlen']
      unfold checksumTotal at htotal
      omega
    have hsum := onesRep_add_complement (b := 65536) (by norm_num) hne
    norm_num only at hsum
    exact hsum

/-- A segment from 10.0.0.5 to 10.0.0.4. -/
theorem tcpUdpChecksum_conforms_near :
    Conforms 0x0500000A 0x0400000A 6 (List.replicate 20 0)
      (tcpUdpChecksum 0x0500000A 0x0400000A 6 (List.replicate 20 0)
        (UInt16.ofNat (List.replicate 20 (0 : UInt8)).length)) :=
  (tcpUdpChecksum_conforms_iff 0x0500000A 0x0400000A 6 (List.replicate 20 0) (by decide)
    (by decide)).mpr (by decide)

/-- From 10.0.0.5 to 192.168.1.254 the two addresses alone overflow: the checksum is one too high,
and no receiver that follows RFC 1071 takes the segment. -/
theorem tcpUdpChecksum_far_not_conforms :
    ¬ Conforms 0x0500000A 0xFE01A8C0 6 (List.replicate 20 0)
      (tcpUdpChecksum 0x0500000A 0xFE01A8C0 6 (List.replicate 20 0)
        (UInt16.ofNat (List.replicate 20 (0 : UInt8)).length)) := by
  intro h
  have hval := h.value
  revert hval
  decide

end

end LvlIp.Tcp
