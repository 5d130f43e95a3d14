import Mathlib.Data.UInt
import Mathlib.Data.List.GetD

/-!
# Byte streams and 32-bit positions

Notions that every statement about a sequenced stream needs.

* `flatIndex parts n i` is the position of entry `i` of part `n` in the concatenation of parts.
* `SliceAt stream off bytes`: the stream has `bytes` at the offset `off`. Slices extend prefixes
  (`SliceAt.take_append`).
* `seqAt base n` is the 32-bit position of offset `n` in a stream whose offset 0 is at `base`, and
  `seqOff base q` the offset of a position. Below `2 ^ 32` they are inverse to each other; where
  nothing wraps, positions compare as offsets do.
-/

namespace LvlIp.Foundations

variable {α : Type*}

/-! ## Slices -/

/-- The stream has the given bytes at offset `off`. -/
def SliceAt (stream : List α) (off : ℕ) (bytes : List α) : Prop := bytes <+: stream.drop off

instance [DecidableEq α] (stream : List α) (off : ℕ) (bytes : List α) :
    Decidable (SliceAt stream off bytes) :=
  inferInstanceAs (Decidable (bytes <+: stream.drop off))

theorem SliceAt.eq_take {stream : List α} {off : ℕ} {bytes : List α}
    (h : SliceAt stream off bytes) : bytes = (stream.drop off).take bytes.length :=
  List.prefix_iff_eq_take.mp h

theorem SliceAt.length_le {stream : List α} {off : ℕ} {bytes : List α}
    (h : SliceAt stream off bytes) (hne : bytes ≠ []) : off + bytes.length ≤ stream.length := by
  have hlen := List.IsPrefix.length_le h
  have hpos := List.length_pos_of_ne_nil hne
  rw [List.length_drop] at hlen
  omega

/-- **A slice extends the prefix before it.** -/
theorem SliceAt.take_append {stream : List α} {off : ℕ} {bytes : List α}
    (h : SliceAt stream off bytes) :
    stream.take off ++ bytes = stream.take (off + bytes.length) := by
  rw [List.take_add, ← h.eq_take]

theorem sliceAt_append (pre bytes post : List α) :
    SliceAt (pre ++ bytes ++ post) pre.length bytes := by
  unfold SliceAt
  rw [List.append_assoc, List.drop_left]
  exact List.prefix_append _ _

/-- A slice of a slice is a slice. -/
theorem SliceAt.trans {stream bytes part : List α} {off off' : ℕ} (h : SliceAt stream off bytes)
    (h' : SliceAt bytes off' part) (hle : off' ≤ bytes.length) :
    SliceAt stream (off + off') part := by
  obtain ⟨post, hpost⟩ := h
  unfold SliceAt
  rw [← List.drop_drop, ← hpost, List.drop_append_of_le_length hle]
  exact List.IsPrefix.trans h' (List.prefix_append _ _)

/-- A part of a concatenation stands behind the parts before it. -/
theorem sliceAt_flatten (parts : List (List α)) {i : ℕ} (hi : i < parts.length) :
    SliceAt parts.flatten (parts.take i).flatten.length (parts.getD i []) := by
  have hcut : parts.flatten = (parts.take i).flatten ++ parts.getD i [] ++
      (parts.drop (i + 1)).flatten := by
    conv_lhs => rw [← List.take_append_drop i parts, List.flatten_append,
      List.drop_eq_getElem_cons hi, List.flatten_cons, ← List.append_assoc]
    rw [List.getD_eq_getElem _ _ hi]
  conv in parts.flatten => rw [hcut]
  exact sliceAt_append _ _ _

/-! ## Entries of a concatenation -/

/-- The position of entry `i` of part `n`. -/
def flatIndex (parts : List (List α)) (n i : ℕ) : ℕ := (parts.take n).flatten.length + i

theorem getElem?_flatIndex {parts : List (List α)} {n i : ℕ} {part : List α}
    (hn : parts[n]? = some part) (hi : i < part.length) :
    parts.flatten[flatIndex parts n i]? = part[i]? := by
  obtain ⟨hlt, rfl⟩ := List.getElem?_eq_some_iff.mp hn
  have hcut : parts.flatten = (parts.take n).flatten ++ (parts[n] ++
      (parts.drop (n + 1)).flatten) := by
    conv_lhs => rw [← List.take_append_drop n parts, List.flatten_append,
      List.drop_eq_getElem_cons hlt, List.flatten_cons]
  rw [hcut, flatIndex, List.getElem?_append_right (Nat.le_add_right _ _), Nat.add_sub_cancel_left,
    List.getElem?_append_left hi]

/-- Every entry of a concatenation is an entry of a part. -/
theorem exists_flatIndex {parts : List (List α)} {j : ℕ} {x : α}
    (h : parts.flatten[j]? = some x) :
    ∃ n i part, parts[n]? = some part ∧ part[i]? = some x ∧ j = flatIndex parts n i := by
  induction parts generalizing j with
  | nil => simp at h
  | cons part parts ih =>
    rw [List.flatten_cons, List.getElem?_append] at h
    split at h
    · exact ⟨0, j, part, rfl, h, by simp [flatIndex]⟩
    · next hj =>
      obtain ⟨n, i, part', hn, hi, hji⟩ := ih h
      refine ⟨n + 1, i, part', by simpa using hn, hi, ?_⟩
      rw [flatIndex] at hji ⊢
      rw [List.take_succ_cons, List.flatten_cons, List.length_append]
      omega

/-! ## Positions -/

/-- The position of offset `n`. -/
def seqAt (base : UInt32) (n : ℕ) : UInt32 := base + UInt32.ofNat n

/-- The offset of a position. -/
def seqOff (base q : UInt32) : ℕ := (q - base).toNat

theorem seqAt_zero (base : UInt32) : seqAt base 0 = base := by
  rw [seqAt, ← UInt32.toNat_inj]
  simp

theorem seqAt_add (base : UInt32) (n m : ℕ) :
    seqAt base n + UInt32.ofNat m = seqAt base (n + m) := by
  rw [seqAt, seqAt, UInt32.ofNat_add, add_assoc]

theorem seqAt_seqAt (base : UInt32) (n m : ℕ) : seqAt (seqAt base n) m = seqAt base (n + m) :=
  seqAt_add base n m

theorem seqOff_seqAt (base : UInt32) {n : ℕ} (h : n < 2 ^ 32) : seqOff base (seqAt base n) = n := by
  rw [seqOff, seqAt, add_sub_cancel_left, UInt32.toNat_ofNat', Nat.mod_eq_of_lt h]

theorem seqAt_inj {base : UInt32} {n m : ℕ} (hn : n < 2 ^ 32) (hm : m < 2 ^ 32) :
    seqAt base n = seqAt base m ↔ n = m := by
  constructor
  · intro h
    rw [← seqOff_seqAt base hn, h, seqOff_seqAt base hm]
  · rintro rfl
    rfl

theorem toNat_seqAt {base : UInt32} {n : ℕ} (h : base.toNat + n < 2 ^ 32) :
    (seqAt base n).toNat = base.toNat + n := by
  rw [seqAt, UInt32.toNat_add, UInt32.toNat_ofNat', Nat.mod_eq_of_lt (by omega : n < 2 ^ 32),
    Nat.mod_eq_of_lt h]

theorem seqAt_lt_iff {base : UInt32} {n m : ℕ} (hn : base.toNat + n < 2 ^ 32)
    (hm : base.toNat + m < 2 ^ 32) : seqAt base n < seqAt base m ↔ n < m := by
  rw [UInt32.lt_iff_toNat_lt, toNat_seqAt hn, toNat_seqAt hm]
  omega

theorem seqAt_le_iff {base : UInt32} {n m : ℕ} (hn : base.toNat + n < 2 ^ 32)
    (hm : base.toNat + m < 2 ^ 32) : seqAt base n ≤ seqAt base m ↔ n ≤ m := by
  rw [UInt32.le_iff_toNat_le, toNat_seqAt hn, toNat_seqAt hm]
  omega

end LvlIp.Foundations
