import Mathlib.Data.List.Basic
import Mathlib.Tactic.Ring

/-!
# Fixed-size layouts

How a value lies in memory, lowest byte of a number first. A `Layout` says how many bytes a type
takes, how a value is written there and how it is read back from the front of a buffer; the
reading of what was written is a field of the structure, so that the layout of a struct is correct
by the way it is built from those of its fields (`Layout.prod`, `Layout.of`). An array of values is
written by `Layout.putAll` and read back by `Layout.getAll`.
-/

namespace LvlIp.Foundations

variable {α β : Type*}

/-! ## Numbers -/

/-- The `n` low bytes of a number, lowest first. -/
def leBytes : ℕ → ℕ → List UInt8
  | 0, _ => []
  | n + 1, v => UInt8.ofNat v :: leBytes n (v / 256)

/-- The number that some bytes stand for, lowest first. -/
def leNat : List UInt8 → ℕ
  | [] => 0
  | b :: bs => b.toNat + 256 * leNat bs

theorem length_leBytes (n v : ℕ) : (leBytes n v).length = n := by
  induction n generalizing v with
  | zero => rfl
  | succ n ih => rw [leBytes, List.length_cons, ih]

theorem leNat_leBytes (n v : ℕ) : leNat (leBytes n v) = v % 256 ^ n := by
  induction n generalizing v with
  | zero => simp [leBytes, leNat, Nat.mod_one]
  | succ n ih =>
    have hdiv := Nat.mod_mul (x := v) (a := 256) (b := 256 ^ n)
    rw [leBytes, leNat, ih, pow_succ', hdiv, UInt8.toNat_ofNat']

/-! ## Layouts -/

/-- How the values of a type are laid out in memory. -/
structure Layout (α : Type*) where
  size : ℕ
  put : α → List UInt8
  get : List UInt8 → α
  length_put : ∀ x, (put x).length = size
  get_put : ∀ x rest, get (put x ++ rest) = x

namespace Layout

/-- A number of `n` bytes. -/
def number (n : ℕ) (toNat : α → ℕ) (ofNat : ℕ → α)
    (h : ∀ x, ofNat (toNat x % 256 ^ n) = x) : Layout α where
  size := n
  put x := leBytes n (toNat x)
  get bs := ofNat (leNat (bs.take n))
  length_put x := length_leBytes n _
  get_put x rest := by
    rw [List.take_append_of_le_length (length_leBytes n _).ge,
      List.take_of_length_le (length_leBytes n _).le, leNat_leBytes, h]

theorem drop_put (L : Layout α) (x : α) (rest : List UInt8) : (L.put x ++ rest).drop L.size = rest := by
  rw [← L.length_put x, List.drop_left]

/-- Two fields, one after the other. -/
def prod (L : Layout α) (M : Layout β) : Layout (α × β) where
  size := L.size + M.size
  put p := L.put p.1 ++ M.put p.2
  get bs := (L.get bs, M.get (bs.drop L.size))
  length_put p := by rw [List.length_append, L.length_put, M.length_put]
  get_put p rest := by rw [List.append_assoc, L.get_put, drop_put, M.get_put]

/-- The values of a type that are given by their fields. -/
def of (L : Layout β) (fields : α → β) (make : β → α) (h : ∀ x, make (fields x) = x) : Layout α where
  size := L.size
  put x := L.put (fields x)
  get bs := make (L.get bs)
  length_put x := L.length_put _
  get_put x rest := by rw [L.get_put, h]

/-! ## Arrays -/

/-- The values of a list, one after the other. -/
def putAll (L : Layout α) (xs : List α) : List UInt8 := xs.flatMap L.put

/-- The `n` values at the front of a buffer. -/
def getAll (L : Layout α) : ℕ → List UInt8 → List α
  | 0, _ => []
  | n + 1, bs => L.get bs :: L.getAll n (bs.drop L.size)

theorem length_putAll (L : Layout α) (xs : List α) : (L.putAll xs).length = L.size * xs.length := by
  induction xs with
  | nil => rfl
  | cons x xs ih =>
    rw [putAll, List.flatMap_cons, List.length_append, L.length_put, ← putAll, ih,
      List.length_cons]
    ring

theorem getAll_putAll (L : Layout α) (xs : List α) (rest : List UInt8) :
    L.getAll xs.length (L.putAll xs ++ rest) = xs := by
  induction xs with
  | nil => rfl
  | cons x xs ih =>
    rw [putAll, List.flatMap_cons, List.append_assoc, List.length_cons, getAll, L.get_put, drop_put,
      ← putAll, ih]

end Layout

end LvlIp.Foundations
