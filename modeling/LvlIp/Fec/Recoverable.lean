import LvlIp.Fec.CodecCorrect

/-!
# What a decoder can recover

`fec_decoder_recoverable` counts symbols, and recovery also needs that no two of the points it
interpolates through coincide. The encoder refuses redundant points that would, the decoder does
not: `recoverable_iff` says for which points the two agree, over every sequence of calls.

With points that the encoder accepts, any `k` symbols of arbitrary content are part of a block:
recovery finds its missing sources, and encoding these again gives back the redundant symbols that
the decoder was given (`reencode_recovered`).
-/

namespace LvlIp.Fec

open Foundations Polynomial

variable {α : Type}

/-! ## Calls -/

/-- The calls that change a decoder, with the arguments they may get: a symbol may be `NULL`. -/
inductive DecoderCall (α : Type)
  | addSource (index : ℤ) (data : Option α)
  | addRedundant (index : ℤ) (data : Option α)
  | reset

/-- One call; a rejected one leaves the decoder alone. -/
def DecoderCall.run (dec : FecDecoder α) : DecoderCall α → FecDecoder α
  | .addSource index data => (data.bind (fecDecoderAddSource dec index)).getD dec
  | .addRedundant index data => (data.bind (fecDecoderAddRedundant dec index)).getD dec
  | .reset => fecDecoderReset dec

/-- The call that adds a symbol. -/
def Symbol.call (a : α) : Symbol → DecoderCall α
  | .source i => .addSource i (some a)
  | .redundant j => .addRedundant j (some a)

theorem run_call (dec : FecDecoder α) (s : Symbol) (a : α) : (s.call a).run dec = dec.add (s, a) := by
  cases s <;> rfl

/-- A call does nothing, adds a symbol of the block, or resets the decoder. -/
theorem DecoderCall.cases (dec : FecDecoder α) (c : DecoderCall α) :
    c.run dec = dec ∨ (∃ s a, s.InRange dec.k dec.r ∧ c.run dec = dec.add (s, a)) ∨
      c.run dec = fecDecoderReset dec := by
  cases c with
  | addSource index data =>
    cases data with
    | none => exact .inl rfl
    | some a =>
      by_cases hi : index < 0 ∨ (dec.k : ℤ) ≤ index
      · left
        simp [run, fecDecoderAddSource, hi]
      · obtain ⟨i, rfl⟩ := Int.eq_ofNat_of_zero_le (a := index) (by omega)
        exact .inr (.inl ⟨.source i, a, show i < dec.k by omega, rfl⟩)
  | addRedundant index data =>
    cases data with
    | none => exact .inl rfl
    | some a =>
      by_cases hi : index < 0 ∨ (dec.r : ℤ) ≤ index
      · left
        simp [run, fecDecoderAddRedundant, hi]
      · obtain ⟨i, rfl⟩ := Int.eq_ofNat_of_zero_le (a := index) (by omega)
        exact .inr (.inl ⟨.redundant i, a, show i < dec.r by omega, rfl⟩)
  | reset => exact .inr (.inr rfl)

theorem SameParams.refl (dec : FecDecoder α) : SameParams dec dec := ⟨rfl, rfl, rfl, rfl, rfl, rfl⟩

theorem SameParams.trans {dec dec' dec'' : FecDecoder α} (h : SameParams dec dec')
    (h' : SameParams dec' dec'') : SameParams dec dec'' := by
  obtain ⟨h1, h2, h3, h4, h5, h6⟩ := h
  obtain ⟨g1, g2, g3, g4, g5, g6⟩ := h'
  exact ⟨g1.trans h1, g2.trans h2, g3.trans h3, g4.trans h4, g5.trans h5, g6.trans h6⟩

/-- **A call** keeps the parameters and the counters in step with the slots. -/
theorem DecoderOk.call {dec : FecDecoder α} (hok : DecoderOk dec) (c : DecoderCall α) :
    SameParams dec (c.run dec) ∧ DecoderOk (c.run dec) := by
  rcases DecoderCall.cases dec c with h | ⟨s, a, hs, h⟩ | h
  · rw [h]
    exact ⟨.refl dec, hok⟩
  · rw [h]
    cases hslot : dec.slot s with
    | none =>
      obtain ⟨hsame, hok', -⟩ := FecDecoder.add_of_isNone hok hs a hslot
      exact ⟨hsame, hok'⟩
    | some b =>
      rw [FecDecoder.add_of_isSome a (by simp [hslot])]
      exact ⟨.refl dec, hok⟩
  · rw [h]
    exact ⟨⟨rfl, rfl, rfl, rfl, rfl, rfl⟩, fecDecoderReset_ok dec⟩

/-- **Any sequence of calls** keeps them. -/
theorem DecoderOk.calls {dec : FecDecoder α} (hok : DecoderOk dec) (cs : List (DecoderCall α)) :
    SameParams dec (cs.foldl DecoderCall.run dec) ∧ DecoderOk (cs.foldl DecoderCall.run dec) := by
  induction cs generalizing dec with
  | nil => exact ⟨.refl dec, hok⟩
  | cons c cs ih =>
    obtain ⟨hsame, hok'⟩ := hok.call c
    obtain ⟨hsame', hok''⟩ := ih hok'
    exact ⟨hsame.trans hsame', hok''⟩

theorem fecDecoderInit_eq_some {k r : ℤ} {symLen : ℕ} {redX : Option (ℕ → UInt8)}
    {dec : FecDecoder α} (h : fecDecoderInit fecRsInit k r symLen redX = some dec) :
    fecGeometryOk k r ∧ dec.ctx = fecRsInit ∧ dec.k = k.toNat ∧ dec.r = r.toNat ∧
      dec.symLen = symLen ∧ dec.srcX = fecSrcX k.toNat ∧
      dec.redX = fecRedX k.toNat r.toNat redX ∧ fecDecoderReset dec = dec := by
  unfold fecDecoderInit at h
  split at h
  · next hgeo =>
    rw [Option.some_inj] at h
    subst h
    exact ⟨hgeo, rfl, rfl, rfl, rfl, rfl, rfl, rfl⟩
  · cases h

/-! ## The points of a recovery -/

theorem nodup_survivors_iff {xs : List UInt8} {slots : List (Option α)}
    (h : xs.length = slots.length) : ((survivors xs slots).map Prod.fst).Nodup ↔
      ∀ i j, i < j → (slots.getD i none).isSome → (slots.getD j none).isSome →
        xs.getD i 0 ≠ xs.getD j 0 := by
  unfold survivors
  rw [List.Nodup, List.pairwise_map, List.pairwise_filterMap, List.pairwise_iff_getElem]
  simp only [List.length_zip, h, Nat.min_self, List.getElem_zip]
  constructor
  · intro hp i j hij hi hj
    have hj' : j < slots.length := by
      by_contra hge
      rw [List.getD_eq_default _ _ (by omega)] at hj
      cases hj
    rw [List.getD_eq_getElem _ _ (by omega), Option.isSome_iff_exists] at hi hj
    obtain ⟨a, ha⟩ := hi
    obtain ⟨b, hb⟩ := hj
    rw [List.getD_eq_getElem _ _ (by omega), List.getD_eq_getElem _ _ (by omega)]
    exact hp i j (by omega) hj' hij (_, a) (by simp [ha]) (_, b) (by simp [hb])
  · intro hp i j hi hj hij p hpi q hqj
    obtain ⟨a, ha, rfl⟩ := Option.map_eq_some_iff.mp hpi
    obtain ⟨b, hb, rfl⟩ := Option.map_eq_some_iff.mp hqj
    have hne := hp i j hij (by simp [List.getD_eq_getElem?_getD, hi, ha])
      (by simp [List.getD_eq_getElem?_getD, hj, hb])
    rwa [List.getD_eq_getElem _ _ (by omega), List.getD_eq_getElem _ _ (by omega)] at hne

theorem mem_survivors {xs : List UInt8} {slots : List (Option α)} (h : xs.length = slots.length)
    {i : ℕ} {a : α} (ha : slots.getD i none = some a) : (xs.getD i 0, a) ∈ survivors xs slots := by
  have hi : i < slots.length := by
    by_contra hge
    rw [List.getD_eq_default _ _ (by omega)] at ha
    cases ha
  rw [List.getD_eq_getElem _ _ hi] at ha
  unfold survivors
  refine List.mem_filterMap.mpr ⟨(xs.getD i 0, some a), ?_, rfl⟩
  rw [List.getD_eq_getElem _ _ (by omega), ← ha]
  exact List.mem_iff_getElem.mpr ⟨i, by simp; omega, by simp⟩

/-- The lengths and the bounds of the points of a decoder. -/
structure DecoderSized (dec : FecDecoder α) : Prop where
  pos : dec.k ≠ 0
  le : dec.k ≤ 255
  srcX_length : dec.srcX.length = dec.k
  redX_length : dec.redX.length = dec.r

section Points

variable {dec : FecDecoder α} (mem : α → Packet)

theorem length_recoverPoints_of_sized (hsz : DecoderSized dec) (hok : DecoderOk dec) :
    (recoverPoints dec).length = min dec.k (dec.srcCount + dec.redCount) := by
  rw [recoverPoints, List.length_take, List.length_append,
    length_survivors (hsz.srcX_length.trans hok.src_length.symm),
    length_survivors (hsz.redX_length.trans hok.red_length.symm), hok.srcCount, hok.redCount]

theorem recoverable_iff_le (hok : DecoderOk dec) :
    fecDecoderRecoverable dec ↔ dec.k ≤ dec.srcCount + dec.redCount := by
  have hle : dec.srcCount ≤ dec.k := by
    rw [hok.srcCount, ← hok.src_length]
    exact List.countP_le_length
  unfold fecDecoderRecoverable
  rw [decide_eq_true_iff]
  omega

/-- **What recovery writes**, with enough symbols and distinct points: a packet for every source symbol
that is missing. -/
theorem exists_fecDecoderRecover (hctx : dec.ctx = fecRsInit) (hsz : DecoderSized dec)
    (hok : DecoderOk dec) (hfull : dec.srcCount ≠ dec.k) (hcan : dec.k ≤ dec.srcCount + dec.redCount)
    (hnd : ((recoverPoints dec).map Prod.fst).Nodup) :
    ∃ f : ℕ → Packet, (∀ i, (f i).length = dec.symLen) ∧
      fecDecoderRecover mem dec = some ((List.range dec.k).map fun i =>
        if (dec.src.getD i none).isSome then none else some (f i)) := by
  have hle : dec.srcCount ≤ dec.k := by
    rw [hok.srcCount, ← hok.src_length]
    exact List.countP_le_length
  have hlen := length_recoverPoints_of_sized hsz hok
  have hxs : ((recoverPoints dec).map Prod.fst).length = dec.k := by
    rw [List.length_map, hlen]
    omega
  have hpos := hsz.pos
  have hbound := hsz.le
  obtain ⟨cs, hcs⟩ := Option.isSome_iff_exists.mp
    ((fecPolyInterpolateCoefficients_isSome_iff ((recoverPoints dec).map Prod.fst)
      ((recoverPoints dec).map fun p => mem p.2) dec.symLen).mpr ⟨by omega, by omega, hnd⟩)
  have hcslen : cs.length = dec.k := by
    rw [fecPolyInterpolateCoefficients_eq _ dec.symLen (by omega) (by omega) hnd,
      Option.some_inj] at hcs
    rw [← hcs, List.length_map, List.length_range, hxs]
  have henc := fun x => @fecPolyEncodeRedundant_eq cs dec.symLen x (by omega) (by omega)
  refine ⟨fun i => (List.range dec.symLen).map fun off =>
    ((bytePoly (lane cs off)).eval (toGf (dec.srcX.getD i 0))).val, fun i => ?_, ?_⟩
  · rw [List.length_map, List.length_range]
  · unfold fecDecoderRecover
    dsimp only
    rw [if_neg (by omega), if_neg (by omega), if_neg (by omega), hctx, hcs]
    simp only [henc, Option.map_some]
    refine Eq.trans ?_ List.mapM_pure
    congr 1
    funext i
    split <;> rfl

/-- **Recovery succeeds** exactly when the count allows it and the points that it interpolates
through are distinct. -/
theorem fecDecoderRecover_isSome_iff (hctx : dec.ctx = fecRsInit) (hsz : DecoderSized dec)
    (hok : DecoderOk dec) : (fecDecoderRecover mem dec).isSome ↔
      fecDecoderRecoverable dec ∧
        (dec.srcCount = dec.k ∨ ((recoverPoints dec).map Prod.fst).Nodup) := by
  have hle : dec.srcCount ≤ dec.k := by
    rw [hok.srcCount, ← hok.src_length]
    exact List.countP_le_length
  have hlen := length_recoverPoints_of_sized hsz hok
  rw [recoverable_iff_le hok]
  by_cases hfull : dec.srcCount = dec.k
  · unfold fecDecoderRecover
    dsimp only
    rw [if_pos (by omega)]
    exact iff_of_true rfl ⟨by omega, .inl hfull⟩
  · by_cases hfew : dec.k ≤ dec.srcCount + dec.redCount
    · by_cases hnd : ((recoverPoints dec).map Prod.fst).Nodup
      · obtain ⟨f, -, hrec⟩ := exists_fecDecoderRecover mem hctx hsz hok hfull hfew hnd
        rw [hrec]
        exact iff_of_true rfl ⟨hfew, .inr hnd⟩
      · -- two points coincide, and there is no polynomial through them
        have hnone : fecPolyInterpolateCoefficients fecRsInit ((recoverPoints dec).map Prod.fst)
            ((recoverPoints dec).map fun p => mem p.2) dec.symLen = none := by
          rw [← Option.not_isSome_iff_eq_none, fecPolyInterpolateCoefficients_isSome_iff]
          exact fun h => hnd h.2.2
        unfold fecDecoderRecover
        dsimp only
        rw [if_neg (by omega), if_neg (by omega), if_neg (by omega), hctx, hnone]
        exact iff_of_false nofun fun h => hnd (h.2.resolve_left hfull)
    · unfold fecDecoderRecover
      dsimp only
      rw [if_neg (by omega), if_pos (by omega)]
      exact iff_of_false nofun fun h => hfew h.1

/-- Exactly `k` symbols are all interpolated. -/
theorem recoverPoints_of_exact (hsz : DecoderSized dec) (hok : DecoderOk dec)
    (hcount : dec.srcCount + dec.redCount = dec.k) :
    recoverPoints dec = survivors dec.srcX dec.src ++ survivors dec.redX dec.red := by
  unfold recoverPoints
  refine List.take_of_length_le ?_
  rw [List.length_append, length_survivors (hsz.srcX_length.trans hok.src_length.symm),
    length_survivors (hsz.redX_length.trans hok.red_length.symm), ← hok.srcCount, ← hok.redCount]
  omega

theorem mem_recoverPoints (hsz : DecoderSized dec) (hok : DecoderOk dec)
    (hcount : dec.srcCount + dec.redCount = dec.k) {s : Symbol} {a : α}
    (hs : dec.slot s = some a) : (dec.point s, a) ∈ recoverPoints dec := by
  rw [recoverPoints_of_exact hsz hok hcount, List.mem_append]
  cases s with
  | source i => exact .inl (mem_survivors (hsz.srcX_length.trans hok.src_length.symm) hs)
  | redundant j => exact .inr (mem_survivors (hsz.redX_length.trans hok.red_length.symm) hs)

/-- **Two symbols at one point** make recovery fail, with any others. -/
theorem fecDecoderRecover_eq_none_of_point_eq (hctx : dec.ctx = fecRsInit)
    (hsz : DecoderSized dec) (hok : DecoderOk dec) (hcount : dec.srcCount + dec.redCount = dec.k)
    {s : Symbol} {j : ℕ} (hs : (dec.slot s).isSome) (hj : (dec.slot (.redundant j)).isSome)
    (hne : ∀ i, s = .redundant i → i < j) (hx : dec.point s = dec.point (.redundant j)) :
    fecDecoderRecoverable dec ∧ fecDecoderRecover mem dec = none := by
  have hcan : fecDecoderRecoverable dec := by
    unfold fecDecoderRecoverable
    rw [decide_eq_true_iff]
    omega
  have hred : 0 < dec.redCount := by
    rw [hok.redCount, List.countP_pos_iff]
    refine ⟨dec.red.getD j none, ?_, hj⟩
    have hlt : j < dec.red.length := by
      by_contra hge
      rw [FecDecoder.slot, List.getD_eq_default _ _ (by omega)] at hj
      cases hj
    rw [List.getD_eq_getElem _ _ hlt]
    exact List.getElem_mem hlt
  refine ⟨hcan, ?_⟩
  rw [← Option.not_isSome_iff_eq_none, fecDecoderRecover_isSome_iff mem hctx hsz hok]
  rintro ⟨-, hfull | hnd⟩
  · omega
  · rw [recoverPoints_of_exact hsz hok hcount, List.map_append] at hnd
    obtain ⟨-, hnd2, hdisj⟩ := List.nodup_append.mp hnd
    have hmem := mem_survivors (hsz.redX_length.trans hok.red_length.symm)
      (Option.some_get hj).symm
    cases s with
    | source i =>
      have hmem' := mem_survivors (hsz.srcX_length.trans hok.src_length.symm)
        (Option.some_get hs).symm
      exact hdisj _ (List.mem_map_of_mem hmem') _ (List.mem_map_of_mem hmem) hx
    | redundant i =>
      exact (nodup_survivors_iff (hsz.redX_length.trans hok.red_length.symm)).mp hnd2 i j
        (hne i rfl) hs hj hx

end Points

/-! ## Recoverable and recovered -/

section Recoverable

variable {k r : ℤ} {symLen : ℕ} {redX : Option (ℕ → UInt8)} {dec₀ : FecDecoder α}

theorem decoderOk_init (h : fecDecoderInit fecRsInit k r symLen redX = some dec₀) :
    DecoderOk dec₀ := by
  obtain ⟨-, -, -, -, -, -, -, hreset⟩ := fecDecoderInit_eq_some h
  rw [← hreset]
  exact fecDecoderReset_ok dec₀

theorem decoderSized_init (h : fecDecoderInit fecRsInit k r symLen redX = some dec₀) :
    DecoderSized dec₀ := by
  obtain ⟨hgeo, -, hk, hr, -, hsx, hrx, -⟩ := fecDecoderInit_eq_some h
  simp only [fecGeometryOk, fecBlkMaxK, fecBlkMaxR] at hgeo
  refine ⟨by omega, by omega, ?_, ?_⟩
  · simp [hsx, hk, fecSrcX]
  · simp [hrx, hr, fecRedX]

theorem DecoderSized.of_same {dec dec' : FecDecoder α} (hsz : DecoderSized dec)
    (h : SameParams dec dec') : DecoderSized dec' := by
  obtain ⟨-, hk, hr, -, hsx, hrx⟩ := h
  refine ⟨?_, ?_, ?_, ?_⟩
  · rw [hk]
    exact hsz.pos
  · rw [hk]
    exact hsz.le
  · rw [hsx, hk]
    exact hsz.srcX_length
  · rw [hrx, hr]
    exact hsz.redX_length

/-- The calls that add the symbols of a list, all with one pointer. -/
theorem fed_calls (h : fecDecoderInit fecRsInit k r symLen redX = some dec₀) (a : α)
    {S : List Symbol} (hS : ∀ s ∈ S, s.InRange dec₀.k dec₀.r) :
    Fed dec₀ (S.map fun s => (s, a)) ((S.map (Symbol.call a)).foldl DecoderCall.run dec₀) := by
  obtain ⟨-, -, -, -, -, -, -, hreset⟩ := fecDecoderInit_eq_some h
  have hslot : ∀ s, dec₀.slot s = none := by
    rw [← hreset]
    exact slot_fecDecoderReset dec₀
  have hcount : dec₀.srcCount + dec₀.redCount = 0 := by
    rw [← hreset]
    rfl
  have hfold : (S.map (Symbol.call a)).foldl DecoderCall.run dec₀ =
      (S.map fun s => (s, a)).foldl FecDecoder.add dec₀ := by
    simp only [List.foldl_map, run_call]
  rw [hfold]
  refine fed_foldl (decoderOk_init h) hslot hcount _ ?_
  intro p hp
  obtain ⟨s, hs, rfl⟩ := List.mem_map.mp hp
  exact hS s hs

/-- `k` symbols, two of which are given. -/
theorem exists_symbols {n m : ℕ} {s : Symbol} {j : ℕ} (hn : 2 ≤ n) (hs : s.InRange n m)
    (hj : j < m) (hne : s ≠ .redundant j) :
    ∃ S : List Symbol, S.Nodup ∧ S.length = n ∧ (∀ t ∈ S, t.InRange n m) ∧ s ∈ S ∧
      .redundant j ∈ S := by
  let sources := (List.range n).map Symbol.source
  have hsrc : sources.Nodup := List.Nodup.map (fun a b h => by simpa using h) List.nodup_range
  have hlen : n - 2 ≤ (sources.erase s).length := by
    rw [List.length_erase]
    simp only [sources, List.length_map, List.length_range]
    split <;> omega
  have hothers : ∀ t ∈ (sources.erase s).take (n - 2), t ≠ s ∧ ∃ i < n, t = .source i := by
    intro t ht
    obtain ⟨hts, hmem⟩ := (List.Nodup.mem_erase_iff hsrc).mp (List.mem_of_mem_take ht)
    obtain ⟨i, hi, rfl⟩ := List.mem_map.mp hmem
    exact ⟨hts, i, List.mem_range.mp hi, rfl⟩
  refine ⟨(sources.erase s).take (n - 2) ++ [s, .redundant j], ?_, ?_, ?_, by simp, by simp⟩
  · refine List.nodup_append.mpr ⟨(hsrc.erase s).sublist (List.take_sublist _ _), by simp [hne], ?_⟩
    intro t ht u hu htu
    obtain ⟨hts, i, -, rfl⟩ := hothers t ht
    rcases List.mem_pair.mp hu with rfl | rfl
    · exact hts htu
    · cases htu
  · rw [List.length_append, List.length_take, Nat.min_eq_left hlen]
    simp
    omega
  · intro t ht
    rcases List.mem_append.mp ht with ht | ht
    · obtain ⟨-, i, hi, rfl⟩ := hothers t ht
      exact hi
    · rcases List.mem_pair.mp ht with rfl | rfl
      · exact hs
      · exact hj

/-- Points that are not distinct: a redundant one is that of a symbol before it. -/
theorem exists_point_eq (h : fecDecoderInit fecRsInit k r symLen redX = some dec₀)
    (hnd : ¬ (dec₀.srcX ++ dec₀.redX).Nodup) :
    ∃ s j, s.InRange dec₀.k dec₀.r ∧ j < dec₀.r ∧ (∀ i, s = .redundant i → i < j) ∧
      dec₀.point s = dec₀.point (.redundant j) := by
  obtain ⟨hgeo, -, hk, hr, -, hsx, hrx, -⟩ := fecDecoderInit_eq_some h
  have hsz := decoderSized_init h
  simp only [fecGeometryOk, fecBlkMaxK, fecBlkMaxR] at hgeo
  have hsrc : dec₀.srcX.Nodup := by
    rw [hsx]
    exact (List.nodup_append.mp (nodup_defaultPoints (k := k.toNat) (r := r.toNat) (by omega))).1
  by_contra hno
  push Not at hno
  refine hnd (List.nodup_append.mpr ⟨hsrc, ?_, ?_⟩)
  · rw [List.Nodup, List.pairwise_iff_getElem]
    intro i j hi hj hij heq
    refine hno (.redundant i) j (by rw [← hsz.redX_length]; exact hi)
      (by rwa [hsz.redX_length] at hj) ?_ ?_
    · rintro i' ⟨⟩
      exact hij
    · simp only [FecDecoder.point, List.getD_eq_getElem _ _ hi, List.getD_eq_getElem _ _ hj, heq]
  · intro x hx y hy hxy
    obtain ⟨i, hi, rfl⟩ := List.mem_iff_getElem.mp hx
    obtain ⟨j, hj, rfl⟩ := List.mem_iff_getElem.mp hy
    refine hno (.source i) j (by rw [← hsz.srcX_length]; exact hi)
      (by rwa [hsz.redX_length] at hj) ?_ ?_
    · intro i' heq
      cases heq
    · simp only [FecDecoder.point, List.getD_eq_getElem _ _ hi, List.getD_eq_getElem _ _ hj, hxy]

/-- The counters are in step with the presence flags, and recovery succeeds exactly when the
symbols suffice. -/
def RecoversWhenRecoverable (mem : α → Packet) (dec : FecDecoder α) : Prop :=
  dec.srcCount = dec.src.countP Option.isSome ∧ dec.redCount = dec.red.countP Option.isSome ∧
    ((fecDecoderRecover mem dec).isSome ↔ fecDecoderRecoverable dec)

/-- **Recoverable means that recovery succeeds**, after every sequence of calls, exactly when there
is one source symbol or the points of all symbols are distinct. -/
theorem recoverable_iff [Inhabited α] (mem : α → Packet)
    (hinit : fecDecoderInit fecRsInit k r symLen redX = some dec₀) :
    (∀ calls : List (DecoderCall α),
      RecoversWhenRecoverable mem (calls.foldl DecoderCall.run dec₀)) ↔
      k = 1 ∨ (fecSrcX k.toNat ++ fecRedX k.toNat r.toNat redX).Nodup := by
  obtain ⟨hgeo, hctx, hk, hr, -, hsx, hrx, -⟩ := fecDecoderInit_eq_some hinit
  have hsz := decoderSized_init hinit
  have hpos : 0 < k := by
    simp only [fecGeometryOk] at hgeo
    omega
  rw [← hsx, ← hrx]
  constructor
  · intro hall
    by_contra hno
    push Not at hno
    obtain ⟨hk1, hnd⟩ := hno
    obtain ⟨s, j, hs, hj, hbefore, hx⟩ := exists_point_eq hinit hnd
    have hne : s ≠ .redundant j := fun heq => absurd (hbefore j heq) (Nat.lt_irrefl j)
    obtain ⟨S, hSnd, hSlen, hS, hsS, hjS⟩ := exists_symbols (n := dec₀.k) (by omega) hs hj hne
    have hfed := fed_calls hinit default hS
    obtain ⟨-, -, hiff⟩ := hall (S.map (Symbol.call default))
    generalize (S.map (Symbol.call default)).foldl DecoderCall.run dec₀ = dec at hfed hiff
    obtain ⟨hctx', hk', hr', -, hsx', hrx'⟩ := hfed.params
    have hfst : (S.map fun s => (s, (default : α))).map Prod.fst = S := by
      simp [Function.comp_def]
    have hslot : ∀ t ∈ S, (dec.slot t).isSome := by
      intro t ht
      rw [hfed.slot, Option.isSome_iff_ne_none]
      refine fun hnone => (lookup_eq_none_iff_notMem _ t).mp hnone ?_
      rwa [hfst]
    have hcount : dec.srcCount + dec.redCount = dec.k := by
      rw [hfed.count, hfst, List.toFinset_card_of_nodup hSnd, hSlen, hk']
    have hpoint : ∀ t, dec.point t = dec₀.point t := by
      rintro (i | i) <;> simp [FecDecoder.point, hsx', hrx']
    obtain ⟨hcan, hfail⟩ := fecDecoderRecover_eq_none_of_point_eq mem (hctx'.trans hctx)
      (hsz.of_same hfed.params) hfed.ok hcount (hslot s hsS) (hslot _ hjS) hbefore
      (by rwa [hpoint, hpoint])
    have hsome := hiff.mpr hcan
    rw [hfail] at hsome
    cases hsome
  · intro hor calls
    obtain ⟨hsame, hok⟩ := (decoderOk_init hinit).calls calls
    generalize calls.foldl DecoderCall.run dec₀ = dec at hsame hok
    have hsz' := hsz.of_same hsame
    obtain ⟨hctx', hk', hr', -, hsx', hrx'⟩ := hsame
    refine ⟨hok.srcCount, hok.redCount, ?_⟩
    rw [fecDecoderRecover_isSome_iff mem (hctx'.trans hctx) hsz' hok]
    refine and_iff_left (.inr ?_)
    rcases hor with hk1 | hnd
    · have hlen := length_recoverPoints_of_sized hsz' hok
      have hle : ((recoverPoints dec).map Prod.fst).length ≤ 1 := by
        rw [List.length_map, hlen]
        omega
      rw [List.Nodup, List.pairwise_iff_getElem]
      intro i j hi hj hij
      omega
    · refine hnd.sublist (((List.take_sublist _ _).map _).trans ?_)
      rw [List.map_append, hsx', hrx']
      exact (map_fst_survivors_sublist _ _).append (map_fst_survivors_sublist _ _)

end Recoverable

/-- With the default points of two sources and one redundant symbol. -/
theorem recoverable_iff_default :
    ∃ dec₀ : FecDecoder Packet, fecDecoderInit fecRsInit 2 1 1 none = some dec₀ ∧
      ∀ calls : List (DecoderCall Packet),
        RecoversWhenRecoverable id (calls.foldl DecoderCall.run dec₀) :=
  ⟨_, rfl, (@recoverable_iff Packet 2 1 1 none _ _ id rfl).mpr (.inr (by decide))⟩

/-- The decoder takes a redundant point that is the point of the first source. A decoder that
holds these two symbols says that it can recover the second source, and cannot. -/
theorem not_recoverable_at_source :
    ∃ dec₀ : FecDecoder Packet, fecDecoderInit fecRsInit 2 1 1 (some fun _ => 1) = some dec₀ ∧
      ¬ RecoversWhenRecoverable id
        ([.addSource 0 (some [5]), .addRedundant 0 (some [7])].foldl DecoderCall.run dec₀) := by
  refine ⟨_, rfl, fun h => ?_⟩
  have hinit : fecDecoderInit fecRsInit 2 1 1 (some fun _ => 1) = some (_ : FecDecoder Packet) :=
    rfl
  obtain ⟨hsame, hok⟩ := (decoderOk_init hinit).calls
    [.addSource 0 (some [5]), .addRedundant 0 (some [7])]
  have hsz := (decoderSized_init hinit).of_same hsame
  obtain ⟨hcan, hfail⟩ := fecDecoderRecover_eq_none_of_point_eq id hsame.1 hsz hok
    (by decide) (s := .source 0) (j := 0) (by decide) (by decide) nofun (by decide)
  have hsome := h.2.2.mpr hcan
  rw [hfail] at hsome
  cases hsome

/-! ## Arbitrary symbols are part of a block -/

/-- Packets with the values of polynomials of small degree are the block of these polynomials. -/
theorem blockPoly_eq {srcX : List UInt8} (hnd : srcX.Nodup) {P : ℕ → Gf256[X]} {symLen : ℕ}
    {ys : List Packet} (hdeg : ∀ off, (P off).degree < srcX.length)
    (hval : ∀ i < srcX.length, OnPoly P symLen (srcX.getD i 0) (ys.getD i [])) {off : ℕ}
    (hoff : off < symLen) : blockPoly srcX ys off = P off :=
  (Lagrange.eq_interpolate_of_eval_eq _ (pointFn_injOn hnd) (by simpa using hdeg off)
    fun i hi => (hval i (Finset.mem_range.mp hi) off hoff).symm).symm

/-- The polynomials through all symbols of a decoder that holds exactly `k`. -/
theorem exists_onPoly {dec : FecDecoder α} (mem : α → Packet)
    (hpts : PointsOk dec.k dec.r dec.srcX dec.redX) (hok : DecoderOk dec)
    (hcount : dec.srcCount + dec.redCount = dec.k) :
    ∃ P : ℕ → Gf256[X], (∀ off, (P off).degree < dec.k) ∧
      ∀ s a, dec.slot s = some a → OnPoly P dec.symLen (dec.point s) (mem a) := by
  have hsz : DecoderSized dec := ⟨hpts.pos, hpts.le, hpts.srcX_length, hpts.redX_length⟩
  have hnd := nodup_recoverPoints hpts
  have hlen : ((recoverPoints dec).map Prod.fst).length = dec.k := by
    rw [List.length_map, length_recoverPoints hpts hok, hcount, Nat.min_self]
  refine ⟨blockPoly ((recoverPoints dec).map Prod.fst) ((recoverPoints dec).map fun p => mem p.2),
    fun off => ?_, fun s a hs => ?_⟩
  · have hdeg := degree_blockPoly_lt hnd ((recoverPoints dec).map fun p => mem p.2) off
    rwa [hlen] at hdeg
  · obtain ⟨i, hi, hget⟩ := List.mem_iff_getElem.mp (mem_recoverPoints hsz hok hcount hs)
    have hon := onPoly_blockPoly hnd ((recoverPoints dec).map fun p => mem p.2) dec.symLen
      (i := i) (by simpa using hi)
    rw [List.getD_eq_getElem _ _ (by simpa using hi), List.getElem_map,
      List.getD_eq_getElem _ _ (by simpa using hi), List.getElem_map, hget] at hon
    exact hon

/-- The sources of a block after a recovery: those the decoder holds, and those it found. -/
def recoveredSources (mem : α → Packet) (dec : FecDecoder α) (out : List (Option Packet)) :
    List Packet :=
  (List.range dec.k).map fun i => match dec.slot (.source i) with
    | some a => mem a
    | none => (out.getD i none).getD []

section Reencode

variable {dec : FecDecoder α} {mem : α → Packet} {P : ℕ → Gf256[X]}

/-- What a recovery finds with these polynomials. -/
noncomputable def foundSources (P : ℕ → Gf256[X]) (dec : FecDecoder α) : List (Option Packet) :=
  (List.range dec.k).map fun i =>
    if (dec.slot (.source i)).isSome then none
    else some (evalPacket P dec.symLen (dec.point (.source i)))

theorem getD_foundSources {i : ℕ} (hi : i < dec.k) (hnone : dec.slot (.source i) = none) :
    (foundSources P dec).getD i none = some (evalPacket P dec.symLen (dec.point (.source i))) := by
  unfold foundSources
  rw [List.getD_eq_getElem _ _ (by simpa using hi), List.getElem_map, List.getElem_range, hnone]
  rfl

variable (hon : ∀ s a, dec.slot s = some a → OnPoly P dec.symLen (dec.point s) (mem a))
  (hlen : ∀ s a, dec.slot s = some a → (mem a).length = dec.symLen)

include hon hlen

/-- A source that is held and one that is found are both values of the polynomials. -/
theorem getD_recoveredSources {i : ℕ} (hi : i < dec.k) :
    (recoveredSources mem dec (foundSources P dec)).getD i [] =
      evalPacket P dec.symLen (dec.point (.source i)) := by
  unfold recoveredSources
  rw [List.getD_eq_getElem _ _ (by simpa using hi), List.getElem_map, List.getElem_range]
  cases hslot : dec.slot (.source i) with
  | none =>
    dsimp only
    rw [getD_foundSources hi hslot]
    rfl
  | some a => exact (hon _ a hslot).eq_evalPacket (hlen _ a hslot)

variable (hpts : PointsOk dec.k dec.r dec.srcX dec.redX) (hdeg : ∀ off, (P off).degree < dec.k)

include hpts hdeg

/-- The block of the sources is the polynomials through the symbols. -/
theorem blockPoly_recoveredSources {off : ℕ} (hoff : off < dec.symLen) :
    blockPoly dec.srcX (recoveredSources mem dec (foundSources P dec)) off = P off := by
  have hnd := (List.nodup_append.mp hpts.nodup).1
  refine blockPoly_eq hnd (by rw [hpts.srcX_length]; exact hdeg) (fun i hi => ?_) hoff
  rw [hpts.srcX_length] at hi
  rw [getD_recoveredSources hon hlen hi]
  exact onPoly_evalPacket P dec.symLen _

/-- So its parity has the redundant symbols that are held. -/
theorem getD_blockParity_recoveredSources (hok : DecoderOk dec) {j : ℕ} {a : α}
    (hj : dec.slot (.redundant j) = some a) :
    (blockParity dec.srcX dec.redX (recoveredSources mem dec (foundSources P dec))
      dec.symLen).getD j [] = mem a := by
  have hjr : j < dec.redX.length := by
    by_contra hge
    rw [hpts.redX_length, ← hok.red_length] at hge
    rw [FecDecoder.slot, List.getD_eq_default _ _ (by omega)] at hj
    cases hj
  rw [(hon _ a hj).eq_evalPacket (hlen _ a hj), blockParity,
    List.getD_eq_getElem _ _ (by simpa using hjr), List.getElem_map, FecDecoder.point,
    List.getD_eq_getElem _ _ hjr]
  unfold evalPacket
  refine List.map_congr_left fun off hoff => ?_
  rw [blockPoly_recoveredSources hon hlen hpts hdeg (List.mem_range.mp hoff)]

end Reencode

/-- **Encoding again undoes decoding.** Let a decoder hold exactly `k` symbols of arbitrary bytes,
after any sequence of calls. Then recovery succeeds, it finds each missing source, and the parity of
the sources held and found has the redundant symbols that the decoder holds. -/
theorem reencode_recovered {k r : ℤ} {symLen : ℕ} {redX : Option (ℕ → UInt8)}
    {enc₀ : FecEncoder Packet} (hinit : fecEncoderInit fecRsInit k r symLen redX = some enc₀) :
    ∃ dec₀ : FecDecoder α, fecDecoderInit fecRsInit k r symLen redX = some dec₀ ∧
      ∀ (calls : List (DecoderCall α)) (mem : α → Packet) (dec : FecDecoder α),
        calls.foldl DecoderCall.run dec₀ = dec →
        dec.src.countP Option.isSome + dec.red.countP Option.isSome = k.toNat →
        (∀ s a, dec.slot s = some a → (mem a).length = symLen) →
        ∃ out enc parity, fecDecoderRecover mem dec = some out ∧
          (∀ i < k.toNat, dec.slot (.source i) = none → (out.getD i none).isSome) ∧
          addSources enc₀ (recoveredSources mem dec out) = some enc ∧
          fecEncoderGenerate id enc = some parity ∧
          ∀ j a, dec.slot (.redundant j) = some a → parity.getD j [] = mem a := by
  obtain ⟨hgeo, hpts, henc⟩ := fecEncoderInit_eq_some hinit
  have hdec : fecDecoderInit fecRsInit k r symLen redX = some (_ : FecDecoder α) := if_pos hgeo
  refine ⟨_, hdec, fun calls mem dec hrun hcount hlen => ?_⟩
  obtain ⟨-, hctx, hk, hr, hsl, hsx, hrx, -⟩ := fecDecoderInit_eq_some hdec
  obtain ⟨hsame, hok⟩ := (decoderOk_init hdec).calls calls
  rw [hrun] at hsame hok
  obtain ⟨hctx', hk', hr', hsl', hsx', hrx'⟩ := hsame
  have hdk : dec.k = k.toNat := hk'.trans hk
  have hdsl : dec.symLen = symLen := hsl'.trans hsl
  have hdsx : dec.srcX = enc₀.srcX := by rw [hsx', hsx, henc]
  have hdrx : dec.redX = enc₀.redX := by rw [hrx', hrx, henc]
  have hdpts : PointsOk dec.k dec.r dec.srcX dec.redX := by
    rw [hdk, hr'.trans hr, hdsx, hdrx]
    exact hpts
  have hexact : dec.srcCount + dec.redCount = dec.k := by
    rw [hok.srcCount, hok.redCount, hcount, hdk]
  have hlen' : ∀ s a, dec.slot s = some a → (mem a).length = dec.symLen := fun s a hs =>
    (hlen s a hs).trans hdsl.symm
  obtain ⟨P, hdeg, hon⟩ := exists_onPoly mem hdpts hok hexact
  have hrec : fecDecoderRecover mem dec = some (foundSources P dec) :=
    (fecDecoderRecover_eq mem (hctx'.trans hctx) hdpts hok hdeg hon).trans (if_neg (by omega))
  have hslen : (recoveredSources mem dec (foundSources P dec)).length = k.toNat := by
    simp [recoveredSources, hdk]
  refine ⟨_, { enc₀ with src := recoveredSources mem dec (foundSources P dec) }, _, hrec,
    fun i hi hnone => ?_, ?_, fecEncoderGenerate_eq id ?_ ?_ ?_, fun j a hj => ?_⟩
  · rw [getD_foundSources (by omega) hnone]
    rfl
  · rw [addSources_eq]
    · subst henc
      rfl
    · subst henc
      simp [FecEncoder.filled, hslen]
  · rw [henc]
  · subst henc
    exact hpts
  · subst henc
    exact hslen
  · have hsl₀ : enc₀.symLen = dec.symLen := by rw [hdsl, henc]
    rw [List.map_id]
    change (blockParity enc₀.srcX enc₀.redX _ enc₀.symLen).getD j [] = _
    rw [← hdsx, ← hdrx, hsl₀]
    exact getD_blockParity_recoveredSources hon hlen' hdpts hdeg hok hj

/-- A parity symbol made up at `k = 2`, `r = 1`, and a source: some block has both. -/
theorem reencode_recovered_two_one :
    ∃ (dec₀ : FecDecoder Packet) (enc₀ enc : FecEncoder Packet) (out : List (Option Packet))
      (parity : List Packet), fecDecoderInit fecRsInit 2 1 1 none = some dec₀ ∧
      fecEncoderInit fecRsInit 2 1 1 none = some enc₀ ∧
      fecDecoderRecover id ([.addRedundant 0 (some [9]), .addSource 1 (some [7])].foldl
        DecoderCall.run dec₀) = some out ∧
      addSources enc₀ (recoveredSources id ([.addRedundant 0 (some [9]),
        .addSource 1 (some [7])].foldl DecoderCall.run dec₀) out) = some enc ∧
      fecEncoderGenerate id enc = some parity ∧ parity.getD 0 [] = [9] := by
  have hinit : fecEncoderInit fecRsInit 2 1 1 none = some (_ : FecEncoder Packet) := rfl
  obtain ⟨dec₀, hdec, hall⟩ := @reencode_recovered Packet _ _ _ _ _ hinit
  have hdec' : fecDecoderInit fecRsInit 2 1 1 none = some (_ : FecDecoder Packet) := rfl
  obtain rfl := Option.some_inj.mp (hdec'.symm.trans hdec)
  obtain ⟨out, enc, parity, hrec, -, hadd, hgen, hred⟩ := hall
    [.addRedundant 0 (some [9]), .addSource 1 (some [7])] id _ rfl rfl (by
      intro s a hs
      rcases s with (_ | _ | i) | (_ | j) <;> cases hs <;> rfl)
  exact ⟨_, _, enc, out, parity, hdec, hinit, hrec, hadd, hgen, hred 0 [9] rfl⟩

end LvlIp.Fec
