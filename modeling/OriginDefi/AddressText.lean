import Mathlib
import OriginDefi.Interface
import OriginDefi.Lib.Chars
import OriginDefi.Lib.Decimal

/-!
# `eth_internals.c`: addresses as text

`getEthAddressStringFromBinary` writes the forty hexadecimal digits of an address.  A letter is a
capital where the hash of the lower-case text has a large digit; for two chains the number of the
chain is part of what is hashed.  The hash function is a parameter.

* `u64ToString_of_lt`, `u64ToString_of_ge`: the decimal digits of a 64-bit number;
* `getEthAddressStringFromBinary_eq`: the text, `addressText`;
* `readAddress`, `IsChecksummed`: what a reader of the text computes and checks.
-/

namespace OriginDefi

/-! ### The functions -/

/-- `HEXDIGITS` -/
def hexDigits : List Char := "0123456789abcdef".toList

/-- `HEXDIGITS[digit]` -/
def hexDigit (digit : UInt8) : Char := hexDigits.getD digit.toNat nul

/-- The loop of `u64_to_string` that writes the digits from the last one on, with `room` rounds
left before it throws: the number of digits, or nothing after the exception. -/
def u64Loop (dst : CharMem) (i : ℕ) (src : UInt64) : ℕ → CharMem × Option ℕ
  | 0 => (dst, none)
  | room + 1 =>
    let dst := dst.set i (Char.ofNat ((src % 10).toNat + '0'.toNat))
    if src / 10 = 0 then (dst, some (i + 1)) else u64Loop dst (i + 1) (src / 10) room

/-- `u64_to_string`: round `i` is allowed while `i + 1 < dst_size`. -/
def u64ToString (src : UInt64) (dst : CharMem) (dstSize : UInt8) : CharMem × Option Exception :=
  match u64Loop dst 0 src (dstSize.toNat - 1) with
  | (dst, none) => (dst, some .code6502)
  | (dst, some i) => ((dst.set i nul).swapLoop 0 (i - 1), none)

/-- The first loop of `getEthAddressStringFromBinary`. -/
def hexChars (address : Address) : List Char :=
  (List.finRange addressLength).flatMap fun i =>
    [hexDigit ((address i >>> 4) &&& 0x0f), hexDigit (address i &&& 0x0f)]

/-- The second loop of `getEthAddressStringFromBinary`. -/
def addressChar (address : Address) (hash : Bytes int256Length) (i : Fin 40) : Char :=
  let digit := address ⟨i / 2, show i.val / 2 < 20 by omega⟩
  let digit := if i.val % 2 = 0 then (digit >>> 4) &&& 0x0f else digit &&& 0x0f
  if digit < 10 then hexDigit digit
  else
    let v := (hash ⟨i / 2, show i.val / 2 < 32 by omega⟩ >>> UInt8.ofNat (4 * (1 - i % 2))) &&& 0x0f
    if 8 ≤ v then Char.ofNat ((hexDigit digit).toNat - 'a'.toNat + 'A'.toNat)
    else hexDigit digit

section Text

variable (keccak : List Char → Bytes int256Length)

/-- `getEthAddressStringFromBinary`, with what the stack holds in `locals_union.tmp`. -/
def getEthAddressStringFromBinary (tmp : CharMem) (address : Address) (out : CharMem)
    (chainId : UInt64) : CharMem × Option Exception :=
  let eip1191 := chainId = 30 ∨ chainId = 31
  let (tmp, thrown) := if eip1191 then u64ToString chainId tmp 51 else (tmp, none)
  match thrown with
  | some exception => (out, some exception)
  | none =>
    let (tmp, offset) :=
      if eip1191 then
        let offset := (tmp.cstring 51).length
        let tmp := tmp.paste offset ((tmp.shift offset).strlcat ['0', 'x'] (51 - offset))
        (tmp, (tmp.cstring 51).length)
      else (tmp, 0)
    let tmp := tmp.store offset (hexChars address)
    let hash := keccak (tmp.load 0 (offset + 40))
    ((out.store 0 (List.ofFn (addressChar address hash))).set 40 nul, none)

/-- `getEthDisplayableAddress` -/
def getEthDisplayableAddress (tmp : CharMem) (address : Address) (out : CharMem) (outLen : ℕ)
    (chainId : UInt64) : CharMem × Option Exception :=
  if outLen < 43 then (out.strlcpy "ERROR".toList outLen, none)
  else
    let out := (out.set 0 '0').set 1 'x'
    let (text, thrown) :=
      getEthAddressStringFromBinary keccak tmp address (out.shift 2) chainId
    (out.paste 2 text, thrown)

end Text

/-! ### The digits of a chain number -/

theorem toNat_div_ten (src : UInt64) : (src / 10).toNat = src.toNat / 10 := UInt64.toNat_div _ _

theorem div_ten_eq_zero (src : UInt64) : src / 10 = 0 ↔ src.toNat < 10 := by
  rw [← UInt64.toNat_inj, toNat_div_ten, UInt64.toNat_zero, Nat.div_eq_zero_iff]
  omega

/-- The digit of one round. -/
theorem digit_of_round (src : UInt64) :
    Char.ofNat ((src % 10).toNat + '0'.toNat) = (src.toNat % 10).digitChar := by
  have hmod : (src % 10).toNat = src.toNat % 10 := UInt64.toNat_mod _ _
  have hlt : src.toNat % 10 < 10 := Nat.mod_lt _ (by decide)
  rw [hmod]
  interval_cases src.toNat % 10 <;> rfl

/-- The loop with enough room. -/
theorem u64Loop_of_le {room : ℕ} (dst : CharMem) (i : ℕ) (src : UInt64)
    (h : (Nat.toDigits 10 src.toNat).length ≤ room) :
    u64Loop dst i src room =
      (dst.store i (Nat.toDigits 10 src.toNat).reverse,
        some (i + (Nat.toDigits 10 src.toNat).length)) := by
  induction room generalizing dst i src with
  | zero => exact absurd h (by simp)
  | succ room ih =>
    rw [u64Loop, digit_of_round]
    by_cases hlt : src.toNat < 10
    · rw [if_pos ((div_ten_eq_zero src).mpr hlt), Nat.toDigits_of_lt_base hlt,
        Nat.mod_eq_of_lt hlt, CharMem.set_eq_store]
      rfl
    · have hdigits := Nat.toDigits_of_base_le (b := 10) (n := src.toNat) (by decide) (by omega)
      rw [hdigits, List.length_append, List.length_singleton] at h
      rw [if_neg fun h0 => hlt ((div_ten_eq_zero src).mp h0)]
      rw [ih _ _ _ (by rw [toNat_div_ten]; omega), toNat_div_ten, hdigits, List.reverse_append,
        CharMem.set_store]
      simp only [List.length_append, List.length_singleton, List.reverse_singleton,
        List.singleton_append, Prod.mk.injEq, true_and, Option.some.injEq]
      omega

/-- The loop without enough room. -/
theorem u64Loop_of_lt {room : ℕ} (dst : CharMem) (i : ℕ) (src : UInt64)
    (h : room < (Nat.toDigits 10 src.toNat).length) :
    (u64Loop dst i src room).2 = none ∧
      ∀ j, i + room ≤ j → (u64Loop dst i src room).1 j = dst j := by
  induction room generalizing dst i src with
  | zero => exact ⟨rfl, fun _ _ => rfl⟩
  | succ room ih =>
    have hge : ¬src.toNat < 10 := by
      intro hlt
      rw [Nat.toDigits_of_lt_base hlt] at h
      simp at h
    have hdigits := Nat.toDigits_of_base_le (b := 10) (n := src.toNat) (by decide) (by omega)
    rw [hdigits, List.length_append, List.length_singleton] at h
    rw [u64Loop, if_neg fun h0 => hge ((div_ten_eq_zero src).mp h0)]
    obtain ⟨hnone, hframe⟩ := ih (dst.set i (Char.ofNat ((src % 10).toNat + '0'.toNat))) (i + 1)
      (src / 10) (by rw [toNat_div_ten]; omega)
    refine ⟨hnone, fun j hj => ?_⟩
    rw [hframe j (by omega), CharMem.set, if_neg (by omega)]

/-- `u64_to_string` with room for the digits and the NUL. -/
theorem u64ToString_of_lt (src : UInt64) (dst : CharMem) {dstSize : UInt8}
    (h : (Nat.toDigits 10 src.toNat).length < dstSize.toNat) :
    u64ToString src dst dstSize = (dst.store 0 (Nat.toDigits 10 src.toNat ++ [nul]), none) := by
  have hpos := List.length_pos_iff.mpr (Nat.toDigits_ne_nil (n := src.toNat) (b := 10))
  have hswap := (dst.set (Nat.toDigits 10 src.toNat).length nul).swapLoop_store 0
    (Nat.toDigits 10 src.toNat).reverse
  have hnul := dst.store_set 0 (Nat.toDigits 10 src.toNat) nul
  simp only [Nat.zero_add, List.length_reverse, List.reverse_reverse] at hswap hnul
  rw [u64ToString, u64Loop_of_le dst 0 src (by omega)]
  simp only [Nat.zero_add]
  rw [CharMem.store_set_behind dst (by simp), hswap, ← CharMem.store_set_behind dst (by simp), hnul]

theorem u64ToString_of_ge (src : UInt64) (dst : CharMem) {dstSize : UInt8}
    (h : dstSize.toNat ≤ (Nat.toDigits 10 src.toNat).length) :
    (u64ToString src dst dstSize).2 = some .code6502 ∧
      ∀ i, dstSize.toNat ≤ i → (u64ToString src dst dstSize).1 i = dst i := by
  have hpos := List.length_pos_iff.mpr (Nat.toDigits_ne_nil (n := src.toNat) (b := 10))
  obtain ⟨hnone, hframe⟩ := u64Loop_of_lt dst 0 src
    (show dstSize.toNat - 1 < (Nat.toDigits 10 src.toNat).length by omega)
  rw [u64ToString]
  rcases hloop : u64Loop dst 0 src (dstSize.toNat - 1) with ⟨left, digits⟩
  rw [hloop] at hnone hframe
  obtain rfl : digits = none := hnone
  exact ⟨rfl, fun i hi => hframe i (by omega)⟩

/-- **`u64_to_string`.**  It throws `0x6502` exactly when the digits and the NUL do not fit, leaves
the digits of the number otherwise, and never writes outside its buffer. -/
theorem u64ToString_correct (src : UInt64) (dst : CharMem) (dstSize : UInt8) :
    let result := u64ToString src dst dstSize
    (result.2 =
        if (Nat.toDigits 10 src.toNat).length < dstSize.toNat then none else some .code6502) ∧
      (result.2 = none → digitsValue (result.1.cstring dstSize.toNat) = src.toNat ∧
        IsWhole (result.1.cstring dstSize.toNat)) ∧
      ∀ i, dstSize.toNat ≤ i → result.1 i = dst i := by
  intro result
  by_cases hlt : (Nat.toDigits 10 src.toNat).length < dstSize.toNat
  · have hresult : result = (dst.store 0 (Nat.toDigits 10 src.toNat ++ [nul]), none) :=
      u64ToString_of_lt src dst hlt
    have hstring : (dst.store 0 (Nat.toDigits 10 src.toNat ++ [nul])).cstring dstSize.toNat =
        Nat.toDigits 10 src.toNat := by
      refine CharMem.cstring_store dst (fun hmem => ?_) (by simp; omega)
      exact absurd (isDigits_toDigits _ nul hmem) (by decide)
    rw [hresult, if_pos hlt]
    dsimp only
    rw [hstring]
    refine ⟨rfl, fun _ => ⟨digitsValue_toDigits _, isWhole_toDigits _⟩, fun i hi => ?_⟩
    exact CharMem.store_of_ge (by simp; omega)
  · obtain ⟨hthrown, hframe⟩ := u64ToString_of_ge src dst (Nat.le_of_not_lt hlt)
    have hresult : result.2 = some .code6502 := hthrown
    rw [hresult, if_neg hlt]
    exact ⟨rfl, fun h => by simp at h, hframe⟩

/-! ### The text of an address -/

/-- What is hashed in front of the digits. -/
def chainPrefix (chainId : UInt64) : List Char :=
  if chainId = 30 ∨ chainId = 31 then Nat.toDigits 10 chainId.toNat ++ ['0', 'x'] else []

/-- The text of an address: its digits, with capitals. -/
def addressText (keccak : List Char → Bytes int256Length) (address : Address) (chainId : UInt64) :
    List Char :=
  List.ofFn (addressChar address (keccak (chainPrefix chainId ++ hexChars address)))

theorem length_hexChars (address : Address) : (hexChars address).length = 40 := by
  simp [hexChars, List.length_flatMap, addressLength]

/-- The temporary buffer after the number of the chain. -/
theorem tmp_chain (tmp : CharMem) {chainId : UInt64} (h : chainId = 30 ∨ chainId = 31) :
    u64ToString chainId tmp 51 = (tmp.store 0 (Nat.toDigits 10 chainId.toNat ++ [nul]), none) := by
  refine u64ToString_of_lt chainId tmp ?_
  rcases h with rfl | rfl <;> decide

/-- The temporary buffer after `0x`. -/
theorem tmp_zeroX (tmp : CharMem) {t : List Char} (ht : t.length < 48) :
    (tmp.store 0 (t ++ [nul])).paste t.length
        (((tmp.store 0 (t ++ [nul])).shift t.length).strlcat ['0', 'x'] (51 - t.length)) =
      tmp.store 0 (t ++ ['0', 'x'] ++ [nul]) := by
  have hnul : (tmp.store 0 (t ++ [nul])).shift t.length 0 = nul := tmp.store_middle t [] nul
  rw [CharMem.strlcat_of_nul _ hnul (by simp; omega), CharMem.paste_shift_store, Nat.add_zero]
  have hover := tmp.store_store_nul t nul '0' ['x', nul]
  rw [List.append_assoc]
  exact hover

/-- What is hashed, when the buffer starts with `t` and a NUL. -/
theorem load_hash_input (tmp : CharMem) (t : List Char) (address : Address) :
    ((tmp.store 0 (t ++ [nul])).store t.length (hexChars address)).load 0 (t.length + 40) =
      t ++ hexChars address := by
  obtain ⟨c, l, hl⟩ : ∃ c l, hexChars address = c :: l :=
    List.exists_cons_of_ne_nil fun h => by
      have := length_hexChars address
      rw [h] at this
      simp at this
  have hload := tmp.load_store 0 (t ++ hexChars address)
  rw [List.length_append, length_hexChars] at hload
  rw [hl, tmp.store_store_nul, ← hl, hload]

/-- **The address text does not depend on the stack, and nothing is thrown.** -/
theorem getEthAddressStringFromBinary_eq (keccak : List Char → Bytes int256Length) (tmp : CharMem)
    (address : Address) (out : CharMem) (chainId : UInt64) :
    getEthAddressStringFromBinary keccak tmp address out chainId =
      (out.store 0 (addressText keccak address chainId ++ [nul]), none) := by
  have hout : ∀ hash, (out.store 0 (List.ofFn (addressChar address hash))).set 40 nul =
      out.store 0 (List.ofFn (addressChar address hash) ++ [nul]) := by
    intro hash
    have hset := out.store_set 0 (List.ofFn (addressChar address hash)) nul
    rw [Nat.zero_add, List.length_ofFn] at hset
    exact hset
  unfold getEthAddressStringFromBinary addressText chainPrefix
  by_cases heip : chainId = 30 ∨ chainId = 31
  · have hlen : (Nat.toDigits 10 chainId.toNat).length = 2 := by
      rcases heip with rfl | rfl <;> decide
    have hnul : nul ∉ Nat.toDigits 10 chainId.toNat := fun h =>
      absurd (isDigits_toDigits _ nul h) (by decide)
    have hnul' : nul ∉ Nat.toDigits 10 chainId.toNat ++ ['0', 'x'] := fun h => by
      rcases List.mem_append.mp h with h | h
      · exact hnul h
      · exact absurd h (by decide)
    simp only [heip, if_true, tmp_chain tmp heip,
      tmp.cstring_store_nul (n := 51) hnul (by simp [hlen]),
      tmp_zeroX tmp (show (Nat.toDigits 10 chainId.toNat).length < 48 by omega),
      tmp.cstring_store_nul (n := 51) hnul' (by simp [hlen]), load_hash_input, hout]
  · have hload : (tmp.store 0 (hexChars address)).load 0 (0 + 40) = hexChars address := by
      have := tmp.load_store 0 (hexChars address)
      rwa [length_hexChars] at this
    simp only [heip, if_false, hload, hout, List.nil_append]

/-! ### Reading the text -/

/-- The `i`-th half of the bytes, the high half of a byte first. -/
def nibble {n : ℕ} (b : Bytes n) (i : Fin (2 * n)) : ℕ :=
  if i.val % 2 = 0 then (b ⟨i / 2, by omega⟩).toNat / 16 else (b ⟨i / 2, by omega⟩).toNat % 16

theorem nibble_lt {n : ℕ} (b : Bytes n) (i : Fin (2 * n)) : nibble b i < 16 := by
  have hbyte := (b ⟨i / 2, by omega⟩).toNat_lt
  unfold nibble
  split_ifs <;> omega

theorem nibble_even {n : ℕ} (b : Bytes n) (i : Fin n) :
    nibble b ⟨2 * i.val, Bytes.high_lt i⟩ = (b i).toNat / 16 := by
  unfold nibble
  rw [if_pos (by simp)]
  congr 3
  exact Fin.ext (by simp)

theorem nibble_odd {n : ℕ} (b : Bytes n) (i : Fin n) :
    nibble b ⟨2 * i.val + 1, Bytes.low_lt i⟩ = (b i).toNat % 16 := by
  unfold nibble
  rw [if_neg (by simp)]
  congr 3
  exact Fin.ext (by simp; omega)

/-- The two halves of a byte. -/
theorem nibbles {n : ℕ} (b : Bytes n) (i : Fin n) :
    16 * nibble b ⟨2 * i.val, Bytes.high_lt i⟩ + nibble b ⟨2 * i.val + 1, Bytes.low_lt i⟩ =
      (b i).toNat := by
  rw [nibble_even, nibble_odd]
  omega

/-- The value of a hexadecimal digit, capital or not. -/
def hexValue (c : Char) : Option ℕ := hexDigits.idxOf? c.toLower

/-- The address that forty hexadecimal digits spell. -/
def readAddress (t : List Char) : Option Address :=
  if t.length = 40 ∧ ∀ c ∈ t, (hexValue c).isSome then
    some fun i =>
      UInt8.ofNat (16 * (hexValue (t.getD (2 * i.val) nul)).getD 0
        + (hexValue (t.getD (2 * i.val + 1) nul)).getD 0)
  else none

/-- The capitals of a text follow the hash of the text without them. -/
def IsChecksummed (keccak : List Char → Bytes int256Length) (chainId : UInt64) (t : List Char) :
    Prop :=
  ∀ i : Fin 40, (t.getD i nul).isAlpha →
    ((t.getD i nul).isUpper ↔
      8 ≤ nibble (keccak (chainPrefix chainId ++ t.map Char.toLower))
        ⟨i, show i.val < 64 by omega⟩)

theorem getElem_hexDigits : ∀ d : Fin 16, hexDigits[d.val]? = some d.val.digitChar := by decide

theorem hexValue_eq_some_iff (c : Char) (d : ℕ) :
    hexValue c = some d ↔ d < 16 ∧ c.toLower = d.digitChar := by
  unfold hexValue
  constructor
  · intro h
    obtain ⟨hlt, heq, -⟩ := List.idxOf?_eq_some_iff.mp h
    have hd : d < 16 := hlt
    have hget := getElem_hexDigits ⟨d, hd⟩
    rw [List.getElem?_eq_getElem hlt, Option.some_inj] at hget
    exact ⟨hd, by rw [← heq, hget]⟩
  · rintro ⟨hd, hc⟩
    rw [hc]
    interval_cases d <;> decide

/-- The capitals that are digits. -/
theorem upper_cases : ∀ n : Fin 26, ∀ d : Fin 16,
    (Char.ofNat (65 + n)).toLower = d.val.digitChar →
      Char.ofNat (65 + n) = d.val.digitChar.toUpper := by decide

/-- The two spellings of a digit. -/
theorem eq_of_toLower {c : Char} {d : ℕ} (hd : d < 16) (h : c.toLower = d.digitChar) :
    c = if c.isUpper then d.digitChar.toUpper else d.digitChar := by
  split_ifs with hup
  · have hrange := of_decide_eq_true hup
    have h1 : 65 ≤ c.toNat := UInt32.le_iff_toNat_le.mp hrange.1
    have h2 : c.toNat ≤ 90 := UInt32.le_iff_toNat_le.mp hrange.2
    have hc : c = Char.ofNat (65 + (⟨c.toNat - 65, by omega⟩ : Fin 26).val) := by
      rw [Nat.add_sub_cancel' h1, Char.ofNat_toNat]
    rw [hc] at h ⊢
    exact upper_cases _ ⟨d, hd⟩ h
  · rw [← h, Char.toLower, dif_neg]
    exact fun hle => hup (decide_eq_true hle)

/-- A half byte is the first or the second one of its byte. -/
theorem half_cases (i : Fin 40) : ∃ k : Fin addressLength,
    i = ⟨2 * k.val, Bytes.high_lt k⟩ ∨ i = ⟨2 * k.val + 1, Bytes.low_lt k⟩ := by
  refine ⟨⟨i / 2, show i.val / 2 < 20 by omega⟩, ?_⟩
  rcases Nat.mod_two_eq_zero_or_one i.val with h | h
  · exact Or.inl (Fin.ext (by simp; omega))
  · exact Or.inr (Fin.ext (by simp; omega))

/-- The bytes that are read. -/
theorem readAddress_byte {t : List Char} {address : Address} (h : readAddress t = some address)
    (k : Fin addressLength) :
    hexValue (t.getD (2 * k.val) nul) = some (nibble address ⟨2 * k.val, Bytes.high_lt k⟩) ∧
      hexValue (t.getD (2 * k.val + 1) nul) =
        some (nibble address ⟨2 * k.val + 1, Bytes.low_lt k⟩) := by
  unfold readAddress at h
  split_ifs at h with hok
  obtain ⟨hlen, hsome⟩ := hok
  rw [Option.some_inj] at h
  have hk : k.val < 20 := k.isLt
  have hvalue : ∀ i, i < 40 → ∃ d, hexValue (t.getD i nul) = some d ∧ d < 16 := by
    intro i hi
    have hmem : t.getD i nul ∈ t := by
      rw [List.getD_eq_getElem _ _ (by omega)]
      exact List.getElem_mem _
    obtain ⟨d, hd⟩ := Option.isSome_iff_exists.mp (hsome _ hmem)
    exact ⟨d, hd, ((hexValue_eq_some_iff _ _).mp hd).1⟩
  obtain ⟨hi, hhi, hhi16⟩ := hvalue (2 * k) (by omega)
  obtain ⟨lo, hlo, hlo16⟩ := hvalue (2 * k + 1) (by omega)
  have hbyte : (address k).toNat = 16 * hi + lo := by
    rw [← h]
    dsimp only
    rw [hhi, hlo, Option.getD_some, Option.getD_some, UInt8.toNat_ofNat']
    omega
  rw [nibble_even, nibble_odd, hbyte, hhi, hlo, Option.some_inj, Option.some_inj]
  omega

/-- **Reading hexadecimal digits.** -/
theorem readAddress_eq_some_iff (t : List Char) (address : Address) :
    readAddress t = some address ↔
      t.length = 40 ∧ ∀ i : Fin 40, hexValue (t.getD i nul) = some (nibble address i) := by
  constructor
  · intro h
    have hlen : t.length = 40 := by
      unfold readAddress at h
      split_ifs at h with hok
      exact hok.1
    refine ⟨hlen, ?_⟩
    intro i
    obtain ⟨k, rfl | rfl⟩ := half_cases i
    · exact (readAddress_byte h k).1
    · exact (readAddress_byte h k).2
  · rintro ⟨hlen, hvalue⟩
    have hsome : ∀ c ∈ t, (hexValue c).isSome := by
      intro c hc
      obtain ⟨i, hi, rfl⟩ := List.getElem_of_mem hc
      have hdigit := hvalue ⟨i, by omega⟩
      rw [List.getD_eq_getElem _ _ hi] at hdigit
      rw [hdigit]
      rfl
    rw [readAddress, if_pos ⟨hlen, hsome⟩]
    refine congrArg some (funext fun k => UInt8.toNat_inj.mp ?_)
    have hhi := hvalue ⟨2 * k, Bytes.high_lt k⟩
    have hlo := hvalue ⟨2 * k + 1, Bytes.low_lt k⟩
    have hbyte := (address k).toNat_lt
    have hnibbles := nibbles address k
    rw [hhi, hlo, Option.getD_some, Option.getD_some, UInt8.toNat_ofNat', hnibbles,
      Nat.mod_eq_of_lt hbyte]

/-! ### The text read back -/

theorem hexDigit_eq {digit : UInt8} (h : digit.toNat < 16) :
    hexDigit digit = digit.toNat.digitChar := by
  have hget := getElem_hexDigits ⟨digit.toNat, h⟩
  rw [hexDigit, List.getD_eq_getElem?_getD, hget, Option.getD_some]

theorem toNat_high (b : UInt8) : ((b >>> 4) &&& 0x0f).toNat = b.toNat / 16 := by
  have hb := b.toNat_lt
  have hshift : (b >>> 4).toNat = b.toNat / 16 := by
    rw [UInt8.toNat_shiftRight]
    exact Nat.shiftRight_eq_div_pow _ _
  rw [UInt8.toNat_and, hshift, show (0x0f : UInt8).toNat = 2 ^ 4 - 1 from rfl,
    Nat.and_two_pow_sub_one_eq_mod]
  omega

theorem toNat_low (b : UInt8) : (b &&& 0x0f).toNat = b.toNat % 16 := by
  rw [UInt8.toNat_and, show (0x0f : UInt8).toNat = 2 ^ 4 - 1 from rfl,
    Nat.and_two_pow_sub_one_eq_mod]

/-- The digits without capitals. -/
theorem hexChars_eq (address : Address) :
    hexChars address = List.ofFn fun i : Fin 40 => (nibble address i).digitChar := by
  have hsplit := List.ofFn_mul' fun i : Fin (2 * 20) => (nibble address i).digitChar
  refine Eq.trans ?_ hsplit.symm
  rw [hexChars, List.flatMap_def, List.ofFn_eq_map]
  refine congrArg List.flatten (List.map_congr_left fun i _ => ?_)
  have hhigh : hexDigit ((address i >>> 4) &&& 0x0f) =
      (nibble address ⟨2 * i.val, Bytes.high_lt i⟩).digitChar := by
    have hbyte := (address i).toNat_lt
    rw [hexDigit_eq (by rw [toNat_high]; omega), toNat_high, nibble_even]
  have hlow : hexDigit (address i &&& 0x0f) =
      (nibble address ⟨2 * i.val + 1, Bytes.low_lt i⟩).digitChar := by
    rw [hexDigit_eq (by rw [toNat_low]; omega), toNat_low, nibble_odd]
  rw [hhigh, hlow, List.ofFn_succ, List.ofFn_succ, List.ofFn_zero]
  rfl

/-- One character of the text. -/
theorem addressChar_eq (address : Address) (hash : Bytes int256Length) (i : Fin 40) :
    addressChar address hash i =
      if 10 ≤ nibble address i ∧ 8 ≤ nibble hash ⟨i, show i.val < 64 by omega⟩ then
        (nibble address i).digitChar.toUpper
      else (nibble address i).digitChar := by
  have hdigit : (if i.val % 2 = 0 then (address ⟨i / 2, show i.val / 2 < 20 by omega⟩ >>> 4) &&& 0x0f
      else address ⟨i / 2, show i.val / 2 < 20 by omega⟩ &&& 0x0f).toNat = nibble address i := by
    unfold nibble
    split_ifs
    · exact toNat_high _
    · exact toNat_low _
  have hv : ((hash ⟨i / 2, show i.val / 2 < 32 by omega⟩ >>> UInt8.ofNat (4 * (1 - i % 2))) &&&
      0x0f).toNat = nibble hash ⟨i, show i.val < 64 by omega⟩ := by
    unfold nibble
    split_ifs with heven
    · rw [heven]
      exact toNat_high _
    · have hodd : i.val % 2 = 1 := by
        have : ¬i.val % 2 = 0 := heven
        omega
      rw [hodd]
      have hzero : hash ⟨i / 2, show i.val / 2 < 32 by omega⟩ >>> UInt8.ofNat (4 * (1 - 1)) =
          hash ⟨i / 2, show i.val / 2 < 32 by omega⟩ := by simp
      rw [hzero]
      exact toNat_low _
  have hlt := nibble_lt address i
  unfold addressChar
  dsimp only
  rw [hexDigit_eq (by rw [hdigit]; exact hlt), hdigit]
  by_cases hten : nibble address i < 10
  · rw [if_pos (by rw [UInt8.lt_iff_toNat_lt, hdigit]; exact hten), if_neg (by omega)]
  · rw [if_neg (by rw [UInt8.lt_iff_toNat_lt, hdigit]; exact hten)]
    by_cases height : 8 ≤ nibble hash ⟨i, show i.val < 64 by omega⟩
    · rw [if_pos (by rw [UInt8.le_iff_toNat_le, hv]; exact height),
        if_pos ⟨by omega, height⟩]
      obtain ⟨hge, hle⟩ : 10 ≤ nibble address i ∧ nibble address i ≤ 15 := ⟨by omega, by omega⟩
      generalize nibble address i = d at hge hle
      interval_cases d <;> rfl
    · rw [if_neg (by rw [UInt8.le_iff_toNat_le, hv]; exact height), if_neg fun h => height h.2]

/-- The letters among the digits, and their capitals. -/
theorem digitChar_facts : ∀ d : Fin 16,
    d.val.digitChar.toLower = d.val.digitChar ∧
      d.val.digitChar.toUpper.toLower = d.val.digitChar ∧
      (d.val.digitChar.isAlpha = decide (10 ≤ d.val)) ∧
      (d.val.digitChar.toUpper.isAlpha = decide (10 ≤ d.val)) ∧
      d.val.digitChar.isUpper = false ∧
      (10 ≤ d.val → d.val.digitChar.toUpper.isUpper) ∧
      (d.val < 10 → d.val.digitChar.toUpper = d.val.digitChar) := by decide

section Reading

variable (keccak : List Char → Bytes int256Length) (address : Address) (chainId : UInt64)

theorem toLower_addressChar (hash : Bytes int256Length) (i : Fin 40) :
    (addressChar address hash i).toLower = (nibble address i).digitChar := by
  obtain ⟨hlower, hupper, -⟩ := digitChar_facts ⟨nibble address i, nibble_lt address i⟩
  rw [addressChar_eq]
  split_ifs
  · exact hupper
  · exact hlower

theorem length_addressText : (addressText keccak address chainId).length = 40 := List.length_ofFn

theorem getD_addressText (i : Fin 40) :
    (addressText keccak address chainId).getD i nul =
      addressChar address (keccak (chainPrefix chainId ++ hexChars address)) i := by
  rw [List.getD_eq_getElem _ _ (by rw [length_addressText]; exact i.isLt)]
  exact List.getElem_ofFn _

/-- Without its capitals, every text of an address is the one that is hashed. -/
theorem map_toLower {t : List Char} (hlen : t.length = 40)
    (h : ∀ i : Fin 40, (t.getD i nul).toLower = (nibble address i).digitChar) :
    t.map Char.toLower = hexChars address := by
  rw [hexChars_eq]
  refine List.ext_getElem (by rw [List.length_map, List.length_ofFn, hlen]) fun i h1 h2 => ?_
  rw [List.length_map] at h1
  have hchar := h ⟨i, by omega⟩
  rw [List.getD_eq_getElem _ _ h1] at hchar
  rw [List.getElem_map, List.getElem_ofFn]
  exact hchar

/-- The text of an address is read back, and its capitals pass the check. -/
theorem addressText_spec :
    readAddress (addressText keccak address chainId) = some address ∧
      IsChecksummed keccak chainId (addressText keccak address chainId) := by
  have hlower : ∀ i : Fin 40, ((addressText keccak address chainId).getD i nul).toLower =
      (nibble address i).digitChar := by
    intro i
    rw [getD_addressText]
    exact toLower_addressChar address _ i
  refine ⟨(readAddress_eq_some_iff _ _).mpr ⟨length_addressText keccak address chainId,
    fun i => (hexValue_eq_some_iff _ _).mpr ⟨nibble_lt address i, hlower i⟩⟩, ?_⟩
  intro i halpha
  rw [map_toLower address (length_addressText keccak address chainId) hlower]
  obtain ⟨-, -, hletter, hcapital, hsmall, hlarge, -⟩ :=
    digitChar_facts ⟨nibble address i, nibble_lt address i⟩
  rw [getD_addressText, addressChar_eq] at halpha ⊢
  split_ifs at halpha ⊢ with hup
  · exact ⟨fun _ => hup.2, fun _ => hlarge hup.1⟩
  · rw [hletter, decide_eq_true_iff] at halpha
    refine ⟨fun h => ?_, fun h => absurd ⟨halpha, h⟩ hup⟩
    rw [hsmall] at h
    exact absurd h (by decide)

theorem nul_notMem_addressText : nul ∉ addressText keccak address chainId := by
  intro hmem
  obtain ⟨i, hi, hnul⟩ := List.getElem_of_mem hmem
  have hread := (addressText_spec keccak address chainId).1
  have hvalue := ((readAddress_eq_some_iff _ _).mp hread).2
    ⟨i, by rwa [length_addressText] at hi⟩
  have hnone : hexValue nul = none := by decide
  rw [List.getD_eq_getElem _ _ hi, hnul, hnone] at hvalue
  exact absurd hvalue (by simp)

/-- No other text is read as the address and passes the check. -/
theorem eq_addressText {t : List Char} (hread : readAddress t = some address)
    (hcheck : IsChecksummed keccak chainId t) : t = addressText keccak address chainId := by
  obtain ⟨hlen, hvalue⟩ := (readAddress_eq_some_iff t address).mp hread
  have hlower : ∀ i : Fin 40, (t.getD i nul).toLower = (nibble address i).digitChar := fun i =>
    ((hexValue_eq_some_iff _ _).mp (hvalue i)).2
  have hhash := map_toLower address hlen hlower
  refine List.ext_getElem (by rw [hlen, length_addressText]) fun i h1 h2 => ?_
  have hi : i < 40 := by omega
  have hchar : t.getD (⟨i, hi⟩ : Fin 40) nul = addressChar address
      (keccak (chainPrefix chainId ++ hexChars address)) ⟨i, hi⟩ := by
    have htwo := eq_of_toLower (nibble_lt address ⟨i, hi⟩) (hlower ⟨i, hi⟩)
    have hcap := hcheck ⟨i, hi⟩
    obtain ⟨-, -, hletter, hcapital, -, -, hdigit⟩ :=
      digitChar_facts ⟨nibble address ⟨i, hi⟩, nibble_lt address ⟨i, hi⟩⟩
    rw [hhash] at hcap
    rw [addressChar_eq]
    by_cases hten : 10 ≤ nibble address ⟨i, hi⟩
    · have halpha : (t.getD (⟨i, hi⟩ : Fin 40) nul).isAlpha := by
        rw [htwo]
        split_ifs
        · exact hcapital.trans (decide_eq_true hten)
        · exact hletter.trans (decide_eq_true hten)
      have hiff := hcap halpha
      by_cases hup : (t.getD (⟨i, hi⟩ : Fin 40) nul).isUpper
      · rw [if_pos ⟨hten, hiff.mp hup⟩, htwo, if_pos hup]
      · rw [if_neg fun h => hup (hiff.mpr h.2), htwo, if_neg hup]
    · rw [if_neg fun h => hten h.1, htwo]
      split_ifs
      · exact hdigit (by simp; omega)
      · rfl
  have hleft := List.getD_eq_getElem t nul h1
  have hright := getD_addressText keccak address chainId ⟨i, hi⟩
  rw [List.getD_eq_getElem _ _ h2] at hright
  rw [← hleft, hright]
  exact hchar

end Reading

/-- **Exactly one text.**  Whatever the hash function, the text of an address is the only text that
is read as this address and whose capitals pass the check. -/
theorem addressText_iff (keccak : List Char → Bytes int256Length) (address : Address)
    (chainId : UInt64) (t : List Char) :
    readAddress t = some address ∧ IsChecksummed keccak chainId t ↔
      t = addressText keccak address chainId := by
  constructor
  · rintro ⟨hread, hcheck⟩
    exact eq_addressText keccak address chainId hread hcheck
  · rintro rfl
    exact addressText_spec keccak address chainId

/-! ### The text of the beneficiary -/

section Beneficiary

variable (keccak : List Char → Bytes int256Length) (tmp : CharMem) (address : Address)
  (out : CharMem) (chainId : UInt64)

/-- What `set_beneficiary_ui` does to the memory behind `msg->msg`. -/
def beneficiaryText : CharMem :=
  let out := (out.set 0 '0').set 1 'x'
  let (text, _) := getEthAddressStringFromBinary keccak tmp address (out.shift 2) 0
  out.paste 2 text

/-- The digits with `0x` in front. -/
theorem paste_address :
    ((out.set 0 '0').set 1 'x').paste 2
        (getEthAddressStringFromBinary keccak tmp address
          (((out.set 0 '0').set 1 'x').shift 2) chainId).1 =
      out.store 0 ('0' :: 'x' :: addressText keccak address chainId ++ [nul]) := by
  have hfront : (out.set 0 '0').set 1 'x' = out.store 0 ['0', 'x'] := by
    rw [out.set_eq_store]
    exact out.store_set 0 ['0'] 'x'
  have happend := out.store_append 0 ['0', 'x'] (addressText keccak address chainId ++ [nul])
  rw [getEthAddressStringFromBinary_eq, CharMem.paste_shift_store, hfront]
  exact happend

theorem beneficiaryText_eq : beneficiaryText keccak tmp address out =
    out.store 0 ('0' :: 'x' :: addressText keccak address 0 ++ [nul]) :=
  paste_address keccak tmp address out 0

/-- `getEthDisplayableAddress` with enough room. -/
theorem getEthDisplayableAddress_of_le {outLen : ℕ} (h : 43 ≤ outLen) :
    getEthDisplayableAddress keccak tmp address out outLen chainId =
      (out.store 0 ('0' :: 'x' :: addressText keccak address chainId ++ [nul]), none) := by
  have hthrown := congrArg Prod.snd (getEthAddressStringFromBinary_eq keccak tmp address
    (((out.set 0 '0').set 1 'x').shift 2) chainId)
  unfold getEthDisplayableAddress
  rw [if_neg (by omega)]
  exact Prod.ext (paste_address keccak tmp address out chainId) hthrown

/-- Without it the text is an error that is cut to the buffer. -/
theorem getEthDisplayableAddress_of_lt {outLen : ℕ} (h : outLen < 43) :
    getEthDisplayableAddress keccak tmp address out outLen chainId =
      (out.strlcpy "ERROR".toList outLen, none) := if_pos h

theorem length_displayable :
    ('0' :: 'x' :: addressText keccak address chainId ++ [nul]).length = 43 := by
  simp [length_addressText]

/-- `getEthDisplayableAddress` stays inside its buffer. -/
theorem getEthDisplayableAddress_frame {outLen i : ℕ} (hi : outLen ≤ i) :
    (getEthDisplayableAddress keccak tmp address out outLen chainId).1 i = out i := by
  by_cases h : 43 ≤ outLen
  · rw [getEthDisplayableAddress_of_le keccak tmp address out chainId h]
    have hbehind : 0 + ('0' :: 'x' :: addressText keccak address chainId ++ [nul]).length ≤ i := by
      rw [length_displayable]
      omega
    exact CharMem.store_of_ge hbehind
  · rw [getEthDisplayableAddress_of_lt keccak tmp address out chainId (Nat.lt_of_not_le h)]
    exact CharMem.strlcpy_frame out _ hi

theorem getEthDisplayableAddress_cstring_iff (outLen : ℕ) :
    (getEthDisplayableAddress keccak tmp address out outLen chainId).1.cstring outLen =
      '0' :: 'x' :: addressText keccak address chainId ↔ 43 ≤ outLen := by
  by_cases h : 43 ≤ outLen
  · have hnul : nul ∉ '0' :: 'x' :: addressText keccak address chainId := by
      simp only [List.mem_cons, not_or]
      exact ⟨by decide, by decide, nul_notMem_addressText keccak address chainId⟩
    have hroom : ('0' :: 'x' :: addressText keccak address chainId).length < outLen := by
      simp [length_addressText]
      omega
    rw [getEthDisplayableAddress_of_le keccak tmp address out chainId h]
    exact iff_of_true (CharMem.cstring_store_nul out hnul hroom) h
  · refine iff_of_false (fun heq => h ?_) h
    have hnul : nul ∉ "ERROR".toList := by decide
    rw [getEthDisplayableAddress_of_lt keccak tmp address out chainId (Nat.lt_of_not_le h)] at heq
    dsimp only at heq
    rw [CharMem.cstring_strlcpy out hnul] at heq
    have hlength := congrArg List.length heq
    have herror : "ERROR".toList.length = 5 := by decide
    simp only [List.length_take, List.length_cons, length_addressText] at hlength
    omega

/-- `set_beneficiary_ui` stays inside a buffer that holds the text and its NUL. -/
theorem beneficiaryText_frame_iff (outLen : ℕ) :
    (∀ (out : CharMem) (i : ℕ), outLen ≤ i → beneficiaryText keccak tmp address out i = out i) ↔
      43 ≤ outLen := by
  constructor
  · intro hframe
    by_contra h
    -- the NUL behind the digits falls outside
    have hwrite := hframe (fun _ => 'a') 42 (by omega)
    have hindex : (42 : ℕ) = 0 + ('0' :: 'x' :: addressText keccak address 0).length := by
      simp [length_addressText]
    rw [beneficiaryText_eq, hindex, CharMem.store_add (by simp)] at hwrite
    simp at hwrite
    exact absurd hwrite (by decide)
  · intro h out i hi
    rw [beneficiaryText_eq]
    exact CharMem.store_of_ge (by rw [length_displayable]; omega)

end Beneficiary

/-- **Room for an address.**  `getEthDisplayableAddress` never writes outside its buffer, and leaves
the `0x` text of the address exactly when the buffer has 43 characters.  `set_beneficiary_ui` writes
the same text but does not look at the length: it stays inside the buffer, for whatever the memory
holds, exactly when the other function would have written the address. -/
theorem beneficiaryText_inBounds_iff (keccak : List Char → Bytes int256Length) (tmp : CharMem)
    (address : Address) (outLen : ℕ) :
    (∀ (out : CharMem) (chainId : UInt64) (i : ℕ), outLen ≤ i →
        (getEthDisplayableAddress keccak tmp address out outLen chainId).1 i = out i) ∧
      (∀ (out : CharMem) (chainId : UInt64),
        (getEthDisplayableAddress keccak tmp address out outLen chainId).1.cstring outLen =
            '0' :: 'x' :: addressText keccak address chainId ↔ 43 ≤ outLen) ∧
      (43 ≤ outLen → ∀ out : CharMem,
        beneficiaryText keccak tmp address out =
          (getEthDisplayableAddress keccak tmp address out outLen 0).1) ∧
      ((∀ (out : CharMem) (i : ℕ), outLen ≤ i →
        beneficiaryText keccak tmp address out i = out i) ↔ 43 ≤ outLen) := by
  refine ⟨?_, ?_, ?_, beneficiaryText_frame_iff keccak tmp address outLen⟩
  · intro out chainId i hi
    exact getEthDisplayableAddress_frame keccak tmp address out chainId hi
  · intro out chainId
    exact getEthDisplayableAddress_cstring_iff keccak tmp address out chainId outLen
  · intro h out
    rw [beneficiaryText_eq, getEthDisplayableAddress_of_le keccak tmp address out 0 h]

end OriginDefi
