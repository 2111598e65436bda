import Mathlib.Data.List.GetD
import OriginDefi.Lib.Bytes

/-!
# Words of an ABI encoding

The encoding of a call is a list of 32-byte words: numbers and addresses are padded on the left to
one word each, the contents of a `bytes` value are padded with zeros on the right to whole words.

* `Abi.addressWord`, `Abi.address`: an address as a word, and back;
* `Abi.padWords`: the words of a byte string, with `padWords_get` for the word at an index;
* `Abi.calldata`: the bytes of a list of words, and `load` the word at a byte position of them;
* `Abi.decodeBytes`, `Abi.decodeAddress`: the checks that a Solidity contract makes when it decodes
  an argument.  The decoder goes to any byte position that an offset names, so the encoding it
  accepts is far from unique; `decodeBytes_padWords` says that the encoder's is one of them.
-/

namespace Abi

/-- An address padded on the left to a word. -/
def addressWord (a : Bytes 20) : Bytes 32 := fun i =>
  if h : 12 ≤ i.val then a ⟨i.val - 12, by omega⟩ else 0

/-- The last 20 bytes of a word. -/
def address (w : Bytes 32) : Bytes 20 := w.sub 12 (by decide)

@[simp] theorem address_addressWord (a : Bytes 20) : address (addressWord a) = a := by
  funext i
  simp [address, Bytes.sub, addressWord]

/-- The words of a byte string, the last one padded with zeros. -/
def padWords (l : List UInt8) : List (Bytes 32) :=
  (List.range ((l.length + 31) / 32)).map fun j => Bytes.ofList l (32 * j)

theorem padWords_length (l : List UInt8) : (padWords l).length = (l.length + 31) / 32 := by
  simp [padWords]

theorem padWords_get (l : List UInt8) {j : ℕ} (h : j < (l.length + 31) / 32) :
    (padWords l)[j]? = some (Bytes.ofList l (32 * j)) := by
  simp [padWords, List.getElem?_range h]

/-! ### Reading at a byte position -/

/-- The bytes of a list of words. -/
def calldata (words : List (Bytes 32)) : List UInt8 := words.flatMap fun w => List.ofFn w

@[simp] theorem calldata_length (words : List (Bytes 32)) :
    (calldata words).length = 32 * words.length := by
  simp [calldata, Nat.mul_comm]

/-- The bytes of the word at an index, zeros past the last word. -/
theorem calldata_getD (words : List (Bytes 32)) (j : ℕ) (i : Fin 32) :
    (calldata words).getD (32 * j + i) 0 = words.getD j 0 i := by
  induction words generalizing j with
  | nil => simp [calldata]
  | cons w words ih =>
    have hlen : (List.ofFn w).length = 32 := List.length_ofFn
    rw [calldata, List.flatMap_cons]
    obtain _ | j := j
    · rw [List.getD_append _ _ _ _ (by omega), Nat.mul_zero, Nat.zero_add,
        List.getD_eq_getElem _ _ (by omega), List.getElem_ofFn, List.getD_cons_zero]
    · rw [List.getD_append_right _ _ _ _ (by omega), hlen, List.getD_cons_succ, ← ih]
      congr 1
      omega

theorem calldata_append (words words' : List (Bytes 32)) :
    calldata (words ++ words') = calldata words ++ calldata words' := List.flatMap_append

/-- Behind the padding is the byte string. -/
theorem take_calldata_padWords (l : List UInt8) :
    (calldata (padWords l)).take l.length = l := by
  refine List.ext_getElem (by simp [padWords_length]; omega) fun i _ hi => ?_
  have hword : (padWords l).getD (i / 32) 0 = Bytes.ofList l (32 * (i / 32)) := by
    rw [List.getD_eq_getElem?_getD, padWords_get l (by omega), Option.getD_some]
  have hbyte := calldata_getD (padWords l) (i / 32) ⟨i % 32, Nat.mod_lt _ (by omega)⟩
  rw [hword, Bytes.ofList_apply] at hbyte
  simp only [Nat.div_add_mod] at hbyte
  rw [List.getElem_take, ← List.getD_eq_getElem _ 0, hbyte, List.getD_eq_getElem _ 0 hi]

/-- The word at a byte position, zeros past the end: `calldataload`. -/
def load (data : List UInt8) (pos : ℕ) : Bytes 32 := Bytes.ofList data pos

theorem load_calldata (words : List (Bytes 32)) (j : ℕ) :
    load (calldata words) (32 * j) = words.getD j 0 := by
  funext i
  rw [load, Bytes.ofList_apply, calldata_getD]

/-! ### Decoding an argument -/

/-- The largest offset or length that the decoder accepts. -/
def maxOffset : ℕ := 2 ^ 64 - 1

/-- A `bytes` value: its length is at `pos` and its bytes follow.  Both must lie inside the data;
the padding is not looked at. -/
def decodeBytes (data : List UInt8) (pos : ℕ) : Option (List UInt8) :=
  let length := (load data pos).toNat
  if pos + 32 ≤ data.length ∧ length ≤ maxOffset ∧ pos + 32 + length ≤ data.length then
    some ((data.drop (pos + 32)).take length)
  else none

/-- What an accepted `bytes` value says about the data. -/
theorem decodeBytes_eq_some {data l : List UInt8} {pos : ℕ} (h : decodeBytes data pos = some l) :
    (load data pos).toNat = l.length ∧ pos + 32 + l.length ≤ data.length ∧
      ∀ i < l.length, data.getD (pos + 32 + i) 0 = l.getD i 0 := by
  rw [decodeBytes] at h
  split_ifs at h with hbounds
  obtain ⟨-, -, hend⟩ := hbounds
  obtain rfl := Option.some.inj h
  have hlen : ((data.drop (pos + 32)).take (load data pos).toNat).length =
      (load data pos).toNat := by
    rw [List.length_take, List.length_drop]
    omega
  refine ⟨hlen.symm, by rw [hlen]; exact hend, ?_⟩
  intro i hi
  rw [hlen] at hi
  simp only [List.getD_eq_getElem?_getD, List.getElem?_take, if_pos hi, List.getElem?_drop]

/-- The decoder reads back a byte string from its encoding, wherever it stands. -/
theorem decodeBytes_padWords (before after : List (Bytes 32)) {l : List UInt8}
    (h : l.length ≤ maxOffset) :
    decodeBytes (calldata (before ++ Bytes.ofNat 32 l.length :: (padWords l ++ after)))
      (32 * before.length) = some l := by
  have hmax : maxOffset < 256 ^ 32 := by decide
  have hlength : (load (calldata (before ++ Bytes.ofNat 32 l.length :: (padWords l ++ after)))
      (32 * before.length)).toNat = l.length := by
    rw [load_calldata, List.getD_append_right _ _ _ _ le_rfl, Nat.sub_self, List.getD_cons_zero,
      Bytes.toNat_ofNat_of_lt (by omega)]
  simp only [decodeBytes, hlength]
  rw [if_pos ⟨by simp; omega, h, by simp [padWords_length]; omega⟩]
  have hdrop : (calldata (before ++ Bytes.ofNat 32 l.length :: (padWords l ++ after))).drop
      (32 * before.length + 32) = calldata (padWords l) ++ calldata after := by
    rw [List.append_cons, calldata_append, calldata_append (padWords l)]
    exact List.drop_left' (by simp; omega)
  rw [hdrop, List.take_append_of_le_length (by simp [padWords_length]; omega),
    take_calldata_padWords]

/-- An address: the bytes before it must be zero. -/
def decodeAddress (w : Bytes 32) : Option (Bytes 20) :=
  if addressWord (address w) = w then some (address w) else none

theorem decodeAddress_eq_some {w : Bytes 32} {a : Bytes 20} (h : decodeAddress w = some a) :
    w = addressWord a := by
  rw [decodeAddress] at h
  split_ifs at h with hw
  rw [← Option.some.inj h, hw]

@[simp] theorem decodeAddress_addressWord (a : Bytes 20) :
    decodeAddress (addressWord a) = some a := by
  simp [decodeAddress]

end Abi
