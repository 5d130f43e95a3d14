import LvlIp.Foundations.Stream
import LvlIp.Fec.CodecCorrect
import LvlIp.Tcp.FecInput

/-!
# A coded stream

What a well-formed sender puts on the wire. A byte stream is cut into blocks of at most `k`
symbols; a symbol has `sym_len` bytes, only the last one of a block may be shorter. Every symbol
is sent in a source segment at its place in the stream, and every block has `r` repair segments
with its parity.

`Coding` is such a stream, and `Coding.Carries` says that a segment is one of its segments. A
block is numbered by its place in the stream; on the wire it has a 32-bit id of its own.
-/

namespace LvlIp.Tcp

open Fec Foundations

/-! ## Blocks -/

/-- A block of at most `k` symbols of `symLen` bytes, the last one possibly shorter. -/
structure BlockOk (k symLen : ℕ) (b : List Packet) : Prop where
  pos : 0 < b.length
  le : b.length ≤ k
  full : ∀ i, i + 1 < b.length → (b.getD i []).length = symLen
  tail_pos : 0 < (b.getD (b.length - 1) []).length
  tail_le : (b.getD (b.length - 1) []).length ≤ symLen

section Block

variable {k symLen : ℕ} {b : List Packet}

theorem BlockOk.length_symbol_le (h : BlockOk k symLen b) {i : ℕ} (hi : i < b.length) :
    (b.getD i []).length ≤ symLen := by
  rcases Nat.lt_or_ge (i + 1) b.length with hlt | hge
  · exact (h.full i hlt).le
  · obtain rfl : i = b.length - 1 := by omega
    exact h.tail_le

/-- Symbol `i` of a block starts `i * symLen` bytes after symbol 0. -/
theorem BlockOk.length_flatten_take (h : BlockOk k symLen b) {i : ℕ} (hi : i < b.length) :
    (b.take i).flatten.length = i * symLen := by
  induction i with
  | zero => simp
  | succ i ih =>
    rw [List.take_succ_eq_append_getElem (by omega), List.flatten_append, List.length_append,
      ih (by omega), ← List.getD_eq_getElem b [] (by omega), List.flatten_cons, List.flatten_nil,
      List.append_nil, h.full i hi, Nat.succ_mul]

theorem BlockOk.sliceAt (h : BlockOk k symLen b) {i : ℕ} (hi : i < b.length) :
    SliceAt b.flatten (i * symLen) (b.getD i []) ∧ i * symLen ≤ b.flatten.length := by
  rw [← h.length_flatten_take hi]
  refine ⟨sliceAt_flatten b hi, ?_⟩
  conv_rhs => rw [← List.take_append_drop i b, List.flatten_append, List.length_append]
  exact Nat.le_add_right _ _

end Block

theorem length_padSymbol (symLen : ℕ) (p : Packet) : (padSymbol symLen p).length = symLen := by
  simp only [padSymbol, List.length_append, List.length_take, List.length_replicate]
  omega

theorem take_padSymbol {symLen : ℕ} {p : Packet} (h : p.length ≤ symLen) :
    (padSymbol symLen p).take p.length = p := by
  rw [padSymbol, List.take_of_length_le h, List.take_left]

/-! ## Codings -/

/-- A stream cut into blocks, with the block ids. -/
structure Coding where
  k : ℕ
  r : ℕ
  symLen : ℕ
  base : UInt32
  blocks : List (List Packet)
  blockId : ℕ → UInt32
  geometry : fecGeometryOk k r
  blocks_ok : ∀ b ∈ blocks, BlockOk k symLen b
  blockId_inj : ∀ m < blocks.length, ∀ n < blocks.length, blockId m = blockId n → m = n

namespace Coding

variable (C : Coding)

/-- The coded bytes. -/
def stream : List UInt8 := C.blocks.flatten.flatten

/-- The symbols of block `n`. -/
def block (n : ℕ) : List Packet := C.blocks.getD n []

/-- The number of symbols of block `n`. -/
def size (n : ℕ) : ℕ := (C.block n).length

/-- Symbol `i` of block `n`. -/
def symbol (n i : ℕ) : Packet := (C.block n).getD i []

/-- The length of the last symbol of block `n`. -/
def tailLen (n : ℕ) : ℕ := (C.symbol n (C.size n - 1)).length

/-- The stream offset of block `n`. -/
def offset (n : ℕ) : ℕ := (C.blocks.take n).flatten.flatten.length

/-- The sequence number of symbol `i` of block `n`. -/
def seq (n i : ℕ) : UInt32 := seqAt C.base (C.offset n + i * C.symLen)

/-- The zero-padded block. -/
def padded (n : ℕ) : List Packet := (C.block n).map (padSymbol C.symLen)

/-- The output of the encoder on block `n`. -/
def parity (n : ℕ) : Option (List Packet) :=
  ((fecEncoderInit fecRsInit (C.size n) C.r C.symLen none).bind fun enc =>
    addSources enc (C.padded n)).bind (fecEncoderGenerate id)

/-- The segment `skb` carries a symbol of block `n`. -/
inductive Carries (skb : SkBuff) (n : ℕ) : Symbol → Prop
  | source {i : ℕ} (hi : i < C.size n) (hopt : hasFecOption skb.th)
      (hread : TcpOptFec.read skb.th.data =
        { type := FecSymType.source.toByte, index := UInt8.ofNat i, blockId := C.blockId n })
      (hseq : skb.seq = C.seq n i) (hpay : skb.payload = C.symbol n i) :
      Carries skb n (.source i)
  | repair {j : ℕ} {rh : FecRepairHdr} {ps : List Packet} (hj : j < C.r)
      (hopt : hasFecOption skb.th)
      (hread : TcpOptFec.read skb.th.data =
        { type := FecSymType.repair.toByte, index := UInt8.ofNat j, blockId := C.blockId n })
      (hk : rh.k.toNat = C.size n) (hbase : rh.baseSeq = C.seq n 0)
      (htail : rh.tailLen.toNat = C.tailLen n) (hps : C.parity n = some ps)
      (hpay : skb.payload = rh.write ++ ps.getD j []) : Carries skb n (.redundant j)

variable {C} {n i : ℕ}

theorem blockOk (hn : n < C.blocks.length) : BlockOk C.k C.symLen (C.block n) := by
  rw [block, List.getD_eq_getElem _ _ hn]
  exact C.blocks_ok _ (List.getElem_mem hn)

theorem length_padded (n : ℕ) : (C.padded n).length = C.size n := List.length_map _

theorem length_of_mem_padded {p : Packet} (hp : p ∈ C.padded n) : p.length = C.symLen := by
  obtain ⟨q, -, rfl⟩ := List.mem_map.mp hp
  exact length_padSymbol _ _

theorem getD_padded (hi : i < C.size n) :
    (C.padded n).getD i [] = padSymbol C.symLen (C.symbol n i) := by
  have hi' : i < (C.block n).length := hi
  rw [padded, symbol, List.getD_eq_getElem _ _ (by simpa using hi'), List.getElem_map,
    List.getD_eq_getElem _ _ hi']

theorem k_le : C.k ≤ fecBlkMaxK := by
  have := C.geometry
  unfold fecGeometryOk at this
  omega

theorem r_le : C.r ≤ fecBlkMaxR := by
  have := C.geometry
  unfold fecGeometryOk at this
  omega

/-- The geometry of a short block is within the bounds, as the full one is. -/
theorem geometry_size (hn : n < C.blocks.length) : fecGeometryOk (C.size n) C.r := by
  have hpos : 0 < C.size n := (blockOk hn).pos
  have hle : C.size n ≤ C.k := (blockOk hn).le
  have hgeo := C.geometry
  unfold fecGeometryOk at *
  omega

/-- **The parity of a block** is made of values of its polynomials. -/
theorem parity_eq (hn : n < C.blocks.length) :
    C.parity n = some (blockParity (fecSrcX (C.size n)) (fecRedX (C.size n) C.r none) (C.padded n)
      C.symLen) := by
  obtain ⟨hpts, hinit⟩ := fecEncoderInit_default (α := Packet) (geometry_size hn) C.symLen
  rw [parity, hinit, Option.bind_some, addSources_eq, Option.bind_some, fecEncoderGenerate_eq]
  · simp
  · rfl
  · exact hpts
  · exact length_padded n
  · exact (Nat.zero_add _).trans_le (length_padded n).le

/-- **The layout of the stream**: symbol `i` of block `n` is at its offset. -/
theorem sliceAt_symbol (hn : n < C.blocks.length) (hi : i < C.size n) :
    SliceAt C.stream (C.offset n + i * C.symLen) (C.symbol n i) := by
  obtain ⟨hslice, hle⟩ := (blockOk hn).sliceAt hi
  refine SliceAt.trans ?_ hslice hle
  have hblock := sliceAt_flatten (C.blocks.map List.flatten) (i := n) (by simpa using hn)
  rw [← List.map_take, ← List.flatten_flatten, ← List.flatten_flatten,
    List.getD_eq_getElem _ _ (by simpa using hn), List.getElem_map] at hblock
  rw [block, List.getD_eq_getElem _ _ hn]
  exact hblock

theorem length_symbol (hn : n < C.blocks.length) (hi : i < C.size n) :
    (C.symbol n i).length = if i = C.size n - 1 then C.tailLen n else C.symLen := by
  split
  · next h => rw [h, tailLen]
  · next h =>
    have hi' : i < (C.block n).length := hi
    exact (blockOk hn).full i (by unfold size at h; omega)

end Coding

end LvlIp.Tcp
