import LvlIp.Fec.Poly

/-!
# The block codec

`src/fec_codec.c`: the systematic block encoder and decoder. The source symbols of a block are the
values of a polynomial at the points `1, …, k`, the redundant symbols its values at `r` further
points.

The encoder and the decoder hold pointers to symbols, which are read when parity is generated or a
block is recovered. They are generic in the type `α` of these pointers, and the functions that
read through them take the memory `mem : α → Packet`. A function that returns `-1` returns `none`;
`fecDecoderRecover` returns, for every source index, the symbol written to its output slot, or
`none` where the slot is left alone. Allocations succeed and pointers are not `NULL`.
-/

namespace LvlIp.Fec

/-- `FEC_BLK_MAX_K`. -/
def fecBlkMaxK : ℕ := 128

/-- `FEC_BLK_MAX_R`. -/
def fecBlkMaxR : ℕ := 32

/-- The source points `1, …, k`. -/
def fecSrcX (k : ℕ) : List UInt8 := (List.range k).map fun i => UInt8.ofNat (i + 1)

/-- The redundant points: the caller's, or `k + 1, …, k + r`. -/
def fecRedX (k r : ℕ) (redX : Option (ℕ → UInt8)) : List UInt8 :=
  (List.range r).map fun i => (redX.map (· i)).getD (UInt8.ofNat (k + i + 1))

/-- The bounds that both initialisers check. -/
def fecGeometryOk (k r : ℤ) : Prop :=
  ¬ (k ≤ 0 ∨ (fecBlkMaxK : ℤ) < k) ∧ ¬ (r ≤ 0 ∨ (fecBlkMaxR : ℤ) < r) ∧ ¬ 255 < k + r

instance (k r : ℤ) : Decidable (fecGeometryOk k r) := by unfold fecGeometryOk; infer_instance

/-! ## Encoder -/

/-- `struct fec_encoder`. The list `src` holds the pointers `src[0], …, src[filled - 1]`. -/
structure FecEncoder (α : Type) where
  ctx : FecRsCtx
  k : ℕ
  r : ℕ
  symLen : ℕ
  srcX : List UInt8
  redX : List UInt8
  src : List α

variable {α : Type}

/-- The number of source symbols added so far. -/
def FecEncoder.filled (enc : FecEncoder α) : ℕ := enc.src.length

/-- The loop over the table `seen`: fails on a point seen before. -/
def fecSeen : List UInt8 → (UInt8 → Bool) → Option (UInt8 → Bool)
  | [], seen => some seen
  | x :: xs, seen => if seen x then none else fecSeen xs fun y => y == x || seen y

/-- The validation of the redundant points, which also fails on zero. -/
def fecSeenNonzero : List UInt8 → (UInt8 → Bool) → Option (UInt8 → Bool)
  | [], seen => some seen
  | x :: xs, seen =>
    if x = 0 then none
    else if seen x then none
    else fecSeenNonzero xs fun y => y == x || seen y

/-- `fec_encoder_init`. -/
def fecEncoderInit (ctx : FecRsCtx) (k r : ℤ) (symLen : ℕ) (redX : Option (ℕ → UInt8)) :
    Option (FecEncoder α) :=
  if fecGeometryOk k r then
    let enc : FecEncoder α :=
      { ctx, k := k.toNat, r := r.toNat, symLen
        srcX := fecSrcX k.toNat, redX := fecRedX k.toNat r.toNat redX, src := [] }
    match fecSeen enc.srcX fun _ => false with
    | none => none
    | some seen =>
      match fecSeenNonzero enc.redX seen with
      | none => none
      | some _ => some enc
  else none

/-- `fec_encoder_add_source`. -/
def fecEncoderAddSource (enc : FecEncoder α) (data : α) : Option (FecEncoder α) :=
  if enc.k ≤ enc.filled then none else some { enc with src := enc.src ++ [data] }

/-- Adding source symbols one after the other. -/
def addSources (enc : FecEncoder α) : List α → Option (FecEncoder α)
  | [] => some enc
  | a :: as => (fecEncoderAddSource enc a).bind fun enc => addSources enc as

/-- `fec_encoder_generate`. -/
def fecEncoderGenerate (mem : α → Packet) (enc : FecEncoder α) : Option (List Packet) :=
  if enc.filled ≠ enc.k then none
  else
    match fecPolyInterpolateCoefficients enc.ctx enc.srcX (enc.src.map mem) enc.symLen with
    | none => none
    | some coeffs =>
      enc.redX.mapM fun x => fecPolyEncodeRedundant enc.ctx coeffs enc.symLen x

/-- `fec_encoder_reset`. -/
def fecEncoderReset (enc : FecEncoder α) : FecEncoder α := { enc with src := [] }

/-! ## Decoder -/

/-- `struct fec_decoder`. The presence flag of a slot is whether it holds a pointer. -/
structure FecDecoder (α : Type) where
  ctx : FecRsCtx
  k : ℕ
  r : ℕ
  symLen : ℕ
  srcX : List UInt8
  redX : List UInt8
  src : List (Option α)
  red : List (Option α)
  srcCount : ℕ
  redCount : ℕ

/-- `fec_decoder_init`. -/
def fecDecoderInit (ctx : FecRsCtx) (k r : ℤ) (symLen : ℕ) (redX : Option (ℕ → UInt8)) :
    Option (FecDecoder α) :=
  if fecGeometryOk k r then
    some
      { ctx, k := k.toNat, r := r.toNat, symLen
        srcX := fecSrcX k.toNat, redX := fecRedX k.toNat r.toNat redX
        src := List.replicate k.toNat none, red := List.replicate r.toNat none
        srcCount := 0, redCount := 0 }
  else none

/-- `fec_decoder_add_source`. -/
def fecDecoderAddSource (dec : FecDecoder α) (index : ℤ) (data : α) : Option (FecDecoder α) :=
  if index < 0 ∨ (dec.k : ℤ) ≤ index then none
  else if (dec.src.getD index.toNat none).isSome then none
  else some { dec with
    src := dec.src.set index.toNat (some data), srcCount := dec.srcCount + 1 }

/-- `fec_decoder_add_redundant`. -/
def fecDecoderAddRedundant (dec : FecDecoder α) (index : ℤ) (data : α) : Option (FecDecoder α) :=
  if index < 0 ∨ (dec.r : ℤ) ≤ index then none
  else if (dec.red.getD index.toNat none).isSome then none
  else some { dec with
    red := dec.red.set index.toNat (some data), redCount := dec.redCount + 1 }

/-- `fec_decoder_recoverable`. -/
def fecDecoderRecoverable (dec : FecDecoder α) : Bool :=
  let missing : ℤ := dec.k - dec.srcCount
  decide (missing ≤ dec.redCount)

/-- The present slots with their points, in index order. -/
def survivors (xs : List UInt8) (slots : List (Option α)) : List (UInt8 × α) :=
  (xs.zip slots).filterMap fun p => p.2.map fun a => (p.1, a)

/-- The points `x_vals`, `y_vals` that recovery interpolates: source symbols first, then redundant
ones, `k` at most. -/
def recoverPoints (dec : FecDecoder α) : List (UInt8 × α) :=
  (survivors dec.srcX dec.src ++ survivors dec.redX dec.red).take dec.k

/-- `fec_decoder_recover`. -/
def fecDecoderRecover (mem : α → Packet) (dec : FecDecoder α) : Option (List (Option Packet)) :=
  let missing : ℤ := dec.k - dec.srcCount
  if missing = 0 then some (List.replicate dec.k none)
  else if (dec.redCount : ℤ) < missing then none
  else
    let pts := recoverPoints dec
    if pts.length < dec.k then none
    else
      match fecPolyInterpolateCoefficients dec.ctx (pts.map Prod.fst)
          (pts.map fun p => mem p.2) dec.symLen with
      | none => none
      | some coeffs =>
        (List.range dec.k).mapM fun i =>
          if (dec.src.getD i none).isSome then some none
          else (fecPolyEncodeRedundant dec.ctx coeffs dec.symLen (dec.srcX.getD i 0)).map some

/-- `fec_decoder_reset`. -/
def fecDecoderReset (dec : FecDecoder α) : FecDecoder α :=
  { dec with
    srcCount := 0, redCount := 0
    src := List.replicate dec.k none, red := List.replicate dec.r none }

end LvlIp.Fec
