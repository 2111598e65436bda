import Mathlib.Data.UInt
import Mathlib.Tactic

/-!
# Byte arrays, raw copies and big-endian numbers

A byte array of fixed size is a function on `Fin n`.  This file has

* `Bytes.read`: the memory seen from the start of an array, where an index outside the array
  falls on bytes about which nothing is known;
* `Memcpy`: a call of C's `memcpy` as a record of its five numbers (`InBounds` says that it
  stays inside its two objects, `apply` what it leaves in the destination);
* `Bytes.toNat`, `Bytes.ofNat`: big-endian numbers of any width;
* `Bytes.ofList`: a window of a byte list, padded with zeros past the end.

Lengths and indices of a copy are integers: C computes them in signed arithmetic and only then
converts the length to a `size_t`.
-/

/-- An array of `n` bytes. -/
abbrev Bytes (n : ℕ) := Fin n → UInt8

/-- The width of the C type `size_t` on a 32-bit target: lengths are taken modulo this. -/
def sizeT : ℤ := 4294967296

/-- A call `memcpy(&dst[dstIndex], &src[srcIndex], len)` between an object of `dstSize` bytes and
one of `srcSize` bytes. -/
structure Memcpy where
  dstSize : ℕ
  dstIndex : ℤ
  srcSize : ℕ
  srcIndex : ℤ
  len : ℤ
  deriving DecidableEq

namespace Memcpy

variable {n : ℕ}

/-- The copy writes only bytes of the destination object. -/
def WritesInBounds (c : Memcpy) : Prop :=
  0 ≤ c.len ∧ 0 ≤ c.dstIndex ∧ c.dstIndex + c.len ≤ c.dstSize

/-- The copy reads only bytes of the source object. -/
def ReadsInBounds (c : Memcpy) : Prop :=
  0 ≤ c.len ∧ 0 ≤ c.srcIndex ∧ c.srcIndex + c.len ≤ c.srcSize

/-- The copy stays inside both objects. -/
def InBounds (c : Memcpy) : Prop := c.WritesInBounds ∧ c.ReadsInBounds

instance (c : Memcpy) : Decidable c.WritesInBounds := by unfold WritesInBounds; infer_instance
instance (c : Memcpy) : Decidable c.ReadsInBounds := by unfold ReadsInBounds; infer_instance
instance (c : Memcpy) : Decidable c.InBounds := by unfold InBounds; infer_instance

/-- What the copy leaves in its destination: the bytes of the object inside the written range come
from the source.  Bytes written outside the object are not represented. -/
def apply (c : Memcpy) (dst : Bytes n) (src : ℤ → UInt8) : Bytes n := fun i =>
  if c.dstIndex ≤ (i.val : ℤ) ∧ (i.val : ℤ) < c.dstIndex + c.len % sizeT then
    src (c.srcIndex + (i.val - c.dstIndex))
  else dst i

/-- A copy that starts at the front and covers the whole object. -/
theorem apply_whole {c : Memcpy} {dst : Bytes n} {src : ℤ → UInt8} (h0 : c.dstIndex = 0)
    (hlen : c.len = n) (hn : (n : ℤ) < sizeT) :
    c.apply dst src = fun i => src (c.srcIndex + i.val) := by
  funext i
  have hmod : c.len % sizeT = n := by rw [hlen]; exact Int.emod_eq_of_lt (by omega) hn
  simp only [apply, h0, hmod]
  rw [if_pos ⟨by omega, by omega⟩, sub_zero]

/-- A copy that starts behind the object leaves it alone, whatever its length. -/
theorem apply_beyond {c : Memcpy} {dst : Bytes n} {src : ℤ → UInt8} (h : (n : ℤ) ≤ c.dstIndex) :
    c.apply dst src = dst := by
  funext i
  exact if_neg fun hi => by omega

end Memcpy

namespace Bytes

variable {m n : ℕ}

/-- The memory seen from the start of `b`: inside the object its bytes, outside it `beyond`. -/
def read (b : Bytes n) (beyond : ℤ → UInt8) (i : ℤ) : UInt8 :=
  if h : 0 ≤ i ∧ i < n then b ⟨i.toNat, by omega⟩ else beyond i

theorem read_ofNat (b : Bytes n) (beyond : ℤ → UInt8) {i : ℕ} (hi : i < n) :
    read b beyond i = b ⟨i, hi⟩ := by
  simp [read, hi]

theorem read_of_lt (b : Bytes n) (beyond : ℤ → UInt8) {i : ℤ} (h0 : 0 ≤ i) (hi : i < n) :
    read b beyond i = b ⟨i.toNat, by omega⟩ := dif_pos ⟨h0, hi⟩

/-- The `m` bytes of `b` from index `k` on. -/
def sub (b : Bytes n) (k : ℕ) (h : k + m ≤ n) : Bytes m := fun i => b ⟨k + i, by omega⟩

/-- The `n` bytes of a list from position `start` on, with zeros past its end. -/
def ofList (l : List UInt8) (start : ℕ) : Bytes n := fun i => l.getD (start + i) 0

theorem ofList_apply (l : List UInt8) (start : ℕ) (i : Fin n) :
    (ofList l start : Bytes n) i = l.getD (start + i) 0 := rfl

/-- The index of the first byte of a pair. -/
theorem high_lt (i : Fin n) : 2 * i.val < 2 * n := by omega

/-- The index of the second one. -/
theorem low_lt (i : Fin n) : 2 * i.val + 1 < 2 * n := by omega

/-! ### Big-endian numbers -/

/-- The number that `b` spells, most significant byte first. -/
def toNat : {n : ℕ} → Bytes n → ℕ
  | 0, _ => 0
  | n + 1, b => 256 * toNat (fun i : Fin n => b i.castSucc) + (b (Fin.last n)).toNat

/-- The `n` low bytes of `v`, most significant byte first. -/
def ofNat (n v : ℕ) : Bytes n := fun i => UInt8.ofNat (v / 256 ^ (n - 1 - i.val))

theorem toNat_succ (b : Bytes (n + 1)) :
    toNat b = 256 * toNat (fun i : Fin n => b i.castSucc) + (b (Fin.last n)).toNat := rfl

theorem toNat_mod (b : Bytes (n + 1)) : toNat b % 256 = (b (Fin.last n)).toNat := by
  have := (b (Fin.last n)).toNat_lt
  rw [toNat_succ]
  omega

theorem ofNat_last (v : ℕ) : ofNat (n + 1) v (Fin.last n) = UInt8.ofNat v := by
  simp [ofNat]

theorem ofNat_init (v : ℕ) :
    (fun i : Fin n => ofNat (n + 1) v i.castSucc) = ofNat n (v / 256) := by
  funext i
  have hi := i.isLt
  have hexp : n + 1 - 1 - i.val = (n - 1 - i.val) + 1 := by omega
  simp only [ofNat, Fin.val_castSucc]
  rw [hexp, pow_succ', Nat.div_div_eq_div_mul]

theorem toNat_ofNat (n v : ℕ) : toNat (ofNat n v) = v % 256 ^ n := by
  induction n generalizing v with
  | zero => simp [toNat, Nat.mod_one]
  | succ n ih =>
    have hlow : (UInt8.ofNat v).toNat = v % 256 := UInt8.toNat_ofNat'
    rw [toNat_succ, ofNat_init, ofNat_last, ih, hlow, pow_succ', Nat.mod_mul, Nat.add_comm]

theorem toNat_ofNat_of_lt {n v : ℕ} (h : v < 256 ^ n) : toNat (ofNat n v) = v := by
  rw [toNat_ofNat, Nat.mod_eq_of_lt h]

/-- A byte array is determined by its number. -/
theorem ofNat_toNat (b : Bytes n) : ofNat n (toNat b) = b := by
  induction n with
  | zero => exact funext fun i => i.elim0
  | succ n ih =>
    have hlast : ofNat (n + 1) (toNat b) (Fin.last n) = b (Fin.last n) := by
      rw [ofNat_last]
      refine UInt8.toNat.inj ?_
      rw [UInt8.toNat_ofNat', toNat_mod]
    have hinit : toNat b / 256 = toNat fun i : Fin n => b i.castSucc := by
      have := (b (Fin.last n)).toNat_lt
      rw [toNat_succ]
      omega
    funext i
    cases i using Fin.lastCases with
    | last => exact hlast
    | cast i =>
      have := congrFun (ofNat_init (n := n) (toNat b)) i
      rw [this, hinit, ih]

theorem toNat_lt (b : Bytes n) : toNat b < 256 ^ n := by
  rw [← ofNat_toNat b, toNat_ofNat]
  exact Nat.mod_lt _ (by positivity)

theorem toNat_zero (n : ℕ) : toNat (fun _ : Fin n => (0 : UInt8)) = 0 := by
  induction n with
  | zero => rfl
  | succ n ih => rw [toNat_succ, ih, UInt8.toNat_zero]

theorem toNat_injective : Function.Injective (toNat : Bytes n → ℕ) := by
  intro a b h
  rw [← ofNat_toNat a, h, ofNat_toNat]

theorem toNat_eq_zero_iff (b : Bytes n) : toNat b = 0 ↔ ∀ i, b i = 0 := by
  constructor
  · intro h i
    exact congrFun (toNat_injective (h.trans (toNat_zero n).symm)) i
  · intro h
    rw [funext h, toNat_zero]

end Bytes
