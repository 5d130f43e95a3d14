import LvlIp.Fec.Codec

/-!
# Wire formats of the coded segments

`include/fec_frame.h`: the FEC option that tags every coded segment, the header in front of the
parity of a repair segment, and the FEC-permitted option of a SYN. Multi-byte fields are in
network order.
-/

namespace LvlIp.Fec

/-! ## Network order -/

/-- `htons`, as bytes. -/
def be16 (x : UInt16) : List UInt8 := [UInt8.ofNat (x.toNat / 256), UInt8.ofNat x.toNat]

/-- `htonl`, as bytes. -/
def be32 (x : UInt32) : List UInt8 :=
  [UInt8.ofNat (x.toNat / 16777216), UInt8.ofNat (x.toNat / 65536), UInt8.ofNat (x.toNat / 256),
    UInt8.ofNat x.toNat]

/-- `ntohs` of the two bytes at offset `i`. -/
def ntohs (p : List UInt8) (i : ℕ) : UInt16 :=
  UInt16.ofNat ((p.getD i 0).toNat * 256 + (p.getD (i + 1) 0).toNat)

/-- `ntohl` of the four bytes at offset `i`. -/
def ntohl (p : List UInt8) (i : ℕ) : UInt32 :=
  UInt32.ofNat ((p.getD i 0).toNat * 16777216 + (p.getD (i + 1) 0).toNat * 65536 +
    (p.getD (i + 2) 0).toNat * 256 + (p.getD (i + 3) 0).toNat)

theorem ofNat_bytes16 (x : UInt16) :
    UInt16.ofNat ((UInt8.ofNat (x.toNat / 256)).toNat * 256 + (UInt8.ofNat x.toNat).toNat) = x := by
  have hx := x.toNat_lt
  rw [← UInt16.toNat_inj]
  simp only [UInt8.toNat_ofNat', UInt16.toNat_ofNat']
  omega

theorem ofNat_bytes32 (x : UInt32) :
    UInt32.ofNat ((UInt8.ofNat (x.toNat / 16777216)).toNat * 16777216 +
      (UInt8.ofNat (x.toNat / 65536)).toNat * 65536 + (UInt8.ofNat (x.toNat / 256)).toNat * 256 +
      (UInt8.ofNat x.toNat).toNat) = x := by
  have hx := x.toNat_lt
  rw [← UInt32.toNat_inj]
  simp only [UInt8.toNat_ofNat', UInt32.toNat_ofNat']
  omega

/-! ## The FEC option -/

/-- `FEC_WIRE_VERSION`. -/
def fecWireVersion : UInt8 := 1

/-- `TCP_OPT_FEC_PERM`. -/
def tcpOptFecPerm : UInt8 := 30

/-- `TCP_OPT_FEC`. -/
def tcpOptFec : UInt8 := 31

/-- `TCP_OPTLEN_FEC_PERM`. -/
def tcpOptlenFecPerm : ℕ := 8

/-- `TCP_OPTLEN_FEC`. -/
def tcpOptlenFec : ℕ := 8

/-- `TCP_FEC_DEFAULT_K`. -/
def tcpFecDefaultK : ℕ := 8

/-- `TCP_FEC_DEFAULT_R`. -/
def tcpFecDefaultR : ℕ := 2

/-- `TCP_FEC_DEFAULT_SYM_LEN`. -/
def tcpFecDefaultSymLen : ℕ := 512

/-- `enum fec_sym_type`. -/
inductive FecSymType
  | source
  | repair
deriving DecidableEq, Repr

/-- The byte of a symbol type. -/
def FecSymType.toByte : FecSymType → UInt8
  | .source => 0
  | .repair => 1

/-- `tcp_write_fec_option`: the eight bytes of `struct tcp_opt_fec`. -/
def tcpWriteFecOption (type : FecSymType) (index : UInt8) (blockId : UInt32) : List UInt8 :=
  [tcpOptFec, UInt8.ofNat tcpOptlenFec, type.toByte, index] ++ be32 blockId

/-- The option of a coded segment, as the receiver reads it. -/
structure TcpOptFec where
  type : UInt8
  index : UInt8
  blockId : UInt32
deriving DecidableEq

/-- The fields of `struct tcp_opt_fec` at the start of an option area. -/
def TcpOptFec.read (data : List UInt8) : TcpOptFec where
  type := data.getD 2 0
  index := data.getD 3 0
  blockId := ntohl data 4

@[simp]
theorem read_tcpWriteFecOption (type : FecSymType) (index : UInt8) (blockId : UInt32) :
    TcpOptFec.read (tcpWriteFecOption type index blockId) =
      { type := type.toByte, index, blockId } :=
  congrArg _ (ofNat_bytes32 blockId)

@[simp]
theorem length_tcpWriteFecOption (type : FecSymType) (index : UInt8) (blockId : UInt32) :
    (tcpWriteFecOption type index blockId).length = 8 := rfl

/-! ## The repair header -/

/-- `struct fec_repair_hdr`. -/
structure FecRepairHdr where
  version : UInt8
  k : UInt8
  r : UInt8
  repairIndex : UInt8
  blockId : UInt32
  baseSeq : UInt32
  symLen : UInt16
  tailLen : UInt16
deriving DecidableEq

/-- `sizeof(struct fec_repair_hdr)`. -/
def fecRepairHdrLen : ℕ := 16

/-- The bytes of a repair header. -/
def FecRepairHdr.write (rh : FecRepairHdr) : List UInt8 :=
  [rh.version, rh.k, rh.r, rh.repairIndex] ++ be32 rh.blockId ++ be32 rh.baseSeq ++
    be16 rh.symLen ++ be16 rh.tailLen

/-- The header at the start of a repair payload. -/
def FecRepairHdr.read (p : List UInt8) : FecRepairHdr where
  version := p.getD 0 0
  k := p.getD 1 0
  r := p.getD 2 0
  repairIndex := p.getD 3 0
  blockId := ntohl p 4
  baseSeq := ntohl p 8
  symLen := ntohs p 12
  tailLen := ntohs p 14

@[simp]
theorem length_write (rh : FecRepairHdr) : rh.write.length = fecRepairHdrLen := rfl

/-- **A repair header is read back as written**, whatever follows it. -/
theorem read_write (rh : FecRepairHdr) (parity : List UInt8) :
    FecRepairHdr.read (rh.write ++ parity) = rh := by
  have hb := ofNat_bytes32 rh.blockId
  have hs := ofNat_bytes32 rh.baseSeq
  have hl := ofNat_bytes16 rh.symLen
  have ht := ofNat_bytes16 rh.tailLen
  cases rh
  simp only [FecRepairHdr.read, FecRepairHdr.write, FecRepairHdr.mk.injEq]
  exact ⟨rfl, rfl, rfl, rfl, hb, hs, hl, ht⟩

end LvlIp.Fec
