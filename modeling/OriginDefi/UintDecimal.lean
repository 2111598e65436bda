import OriginDefi.Interface
import OriginDefi.Lib.Chars
import OriginDefi.Lib.Decimal
import OriginDefi.Lib.Limbs

/-!
# `uint256_to_decimal`

The SDK's conversion of a 256-bit number into digits: the number is cut into sixteen limbs, the
limbs are divided by ten until nothing is left, and the remainders are written from the end of the
buffer on.

A buffer is the memory from its address on, so that writes outside of it are seen.

* `divideByTen_eq`: the loop over the limbs is the general short division;
* `digitLoop_of_le`, `digitLoop_of_lt`: the outer loop, by induction on the room that is left;
* `uint256ToDecimal_correct`: **when the conversion succeeds, and what it writes**.
-/

namespace OriginDefi

/-! ### The functions -/

/-- `allzeroes` -/
def allzeroes {n : ℕ} (buf : Bytes n) : Bool := decide (∀ i, buf i = 0)

/-- `memcpy((uint8_t *)n + INT256_LENGTH - value_len, value, value_len)` over zeros. -/
def rightAligned (n : ℕ) (value : ℤ → UInt8) (valueLen : ℕ) : Bytes n :=
  Memcpy.apply
    { dstSize := n, dstIndex := n - valueLen, srcSize := valueLen, srcIndex := 0, len := valueLen }
    (fun _ => 0) value

/-- The sixteen numbers `__builtin_bswap16(n[i])`: two bytes each, the high one first. -/
def limbs {n : ℕ} (b : Bytes (2 * n)) : List UInt16 :=
  List.ofFn fun i : Fin n =>
    (b ⟨2 * i.val, Bytes.high_lt i⟩).toUInt16 <<< 8 |||
      (b ⟨2 * i.val + 1, Bytes.low_lt i⟩).toUInt16

/-- The loop `for (int i = 0; i < 16; i++)` that divides by ten: the limbs and the last carry. -/
def divideByTen (carry : UInt32) : List UInt16 → List UInt16 × UInt32
  | [] => ([], carry)
  | n :: ns =>
    let rem := (carry <<< 16 ||| n.toUInt32) % 10
    let rest := divideByTen rem ns
    (((carry <<< 16 ||| n.toUInt32) / 10).toUInt16 :: rest.1, rest.2)

/-- The loop `while (!allzeroes(n, sizeof(n)))`: the final `pos`, or nothing when it returns
`false`, and the buffer. -/
def digitLoop : ℕ → List UInt16 → CharMem → Option ℕ × CharMem
  | 0, n, out => if n.all (· == 0) then (some 0, out) else (none, out)
  | pos + 1, n, out =>
    if n.all (· == 0) then (some (pos + 1), out)
    else
      let (n, carry) := divideByTen 0 n
      digitLoop pos n (out.set pos (Char.ofNat ('0'.toNat + carry.toNat)))

/-- `uint256_to_decimal` -/
def uint256ToDecimal (value : ℤ → UInt8) (valueLen : ℕ) (out : CharMem) (outLen : ℕ) :
    Bool × CharMem :=
  if int256Length < valueLen then (false, out)
  else
    let n := rightAligned int256Length value valueLen
    if allzeroes n then
      if outLen < 2 then (false, out)
      else (true, out.strlcpy ['0'] outLen)
    else
      match digitLoop outLen (limbs (n := 16) n) out with
      | (none, out) => (false, out)
      | (some pos, out) =>
        (true, (out.store 0 (out.load pos (outLen - pos))).set (outLen - pos) nul)

/-! ### The number and its limbs -/

/-- The number that the first `valueLen` bytes spell. -/
def amountValue (value : ℤ → UInt8) (valueLen : ℕ) : ℕ :=
  Bytes.toNat fun i : Fin valueLen => value i

theorem rightAligned_apply {n valueLen : ℕ} (value : ℤ → UInt8) (h : valueLen ≤ n)
    (hn : (n : ℤ) < sizeT) (i : Fin n) :
    rightAligned n value valueLen i =
      if n - valueLen ≤ i.val then value (i.val - (n - valueLen : ℕ)) else 0 := by
  have hmod : (valueLen : ℤ) % sizeT = valueLen := Int.emod_eq_of_lt (by omega) (by omega)
  simp only [rightAligned, Memcpy.apply, hmod, zero_add]
  have hi := i.isLt
  by_cases hle : n - valueLen ≤ i.val
  · rw [if_pos ⟨by omega, by omega⟩, if_pos hle]
    congr 1
    omega
  · rw [if_neg fun h => by omega, if_neg hle]

/-- Zeros in front of a number do not change it. -/
theorem toNat_rightAligned (value : ℤ → UInt8) {n valueLen : ℕ} (h : valueLen ≤ n)
    (hn : (n : ℤ) < sizeT) :
    Bytes.toNat (rightAligned n value valueLen) = amountValue value valueLen := by
  induction n generalizing valueLen with
  | zero =>
    obtain rfl : valueLen = 0 := by omega
    rfl
  | succ n ih =>
    have hlast := rightAligned_apply value h hn (Fin.last n)
    cases valueLen with
    | zero =>
      have hinit : (fun i : Fin n => rightAligned (n + 1) value 0 i.castSucc) =
          rightAligned n value 0 := by
        funext i
        have hi := i.isLt
        rw [rightAligned_apply value (by omega) hn, rightAligned_apply value (by omega) (by omega),
          if_neg (by simp), if_neg (by omega)]
      rw [Bytes.toNat_succ, hinit, ih (by omega) (by omega), hlast, if_neg (by simp)]
      rfl
    | succ k =>
      have hinit : (fun i : Fin n => rightAligned (n + 1) value (k + 1) i.castSucc) =
          rightAligned n value k := by
        funext i
        rw [rightAligned_apply value h hn, rightAligned_apply value (by omega) (by omega),
          Nat.add_sub_add_right]
        rfl
      rw [Bytes.toNat_succ, hinit, ih (by omega) (by omega), hlast, if_pos (by simp)]
      simp only [amountValue, Bytes.toNat_succ, Fin.val_last, Fin.val_castSucc]
      congr 3
      omega

/-- Two bytes of a limb. -/
theorem toNat_limb (hi lo : UInt8) :
    (hi.toUInt16 <<< 8 ||| lo.toUInt16).toNat = 256 * hi.toNat + lo.toNat := by
  have h1 := hi.toNat_lt
  have h2 := lo.toNat_lt
  have hshift : (hi.toUInt16 <<< 8).toNat = hi.toNat <<< 8 := by
    rw [UInt16.toNat_shiftLeft]
    simp [Nat.shiftLeft_eq]
    omega
  rw [UInt16.toNat_or, hshift, UInt8.toNat_toUInt16, ← Nat.shiftLeft_add_eq_or_of_lt (i := 8) h2,
    Nat.shiftLeft_eq]
  omega

/-- The limbs spell the number that the bytes spell. -/
theorem value_limbs {n : ℕ} (b : Bytes (2 * n)) :
    Limbs.value 65536 ((limbs b).map UInt16.toNat) = Bytes.toNat b := by
  induction n with
  | zero => rfl
  | succ n ih =>
    have hinit := ih fun i => b ⟨i, by omega⟩
    have hbytes : Bytes.toNat b =
        256 * (256 * Bytes.toNat (fun i : Fin (2 * n) => b ⟨i, by omega⟩)
          + (b ⟨2 * n, by omega⟩).toNat) + (b ⟨2 * n + 1, by omega⟩).toNat := rfl
    have hlimbs : limbs b =
        limbs (fun i : Fin (2 * n) => b ⟨i, by omega⟩) ++
          [(b ⟨2 * n, by omega⟩).toUInt16 <<< 8 ||| (b ⟨2 * n + 1, by omega⟩).toUInt16] := by
      rw [limbs, List.ofFn_succ_last]
      rfl
    rw [hlimbs, List.map_append, List.map_singleton, Limbs.value_concat, hinit, toNat_limb, hbytes]
    ring

/-! ### Division by ten -/

/-- The dividend of one round. -/
theorem toNat_dividend {carry : UInt32} (hcarry : carry.toNat < 10) (n : UInt16) :
    (carry <<< 16 ||| n.toUInt32).toNat = carry.toNat * 65536 + n.toNat := by
  have hn := n.toNat_lt
  have hshift : (carry <<< 16).toNat = carry.toNat <<< 16 := by
    rw [UInt32.toNat_shiftLeft]
    simp [Nat.shiftLeft_eq]
    omega
  rw [UInt32.toNat_or, hshift, UInt16.toNat_toUInt32,
    ← Nat.shiftLeft_add_eq_or_of_lt (i := 16) hn, Nat.shiftLeft_eq]

/-- The round of the C code is a round of the general algorithm. -/
theorem divideByTen_eq (carry : UInt32) (hcarry : carry.toNat < 10) (l : List UInt16) :
    (((divideByTen carry l).1.map UInt16.toNat), (divideByTen carry l).2.toNat) =
      Limbs.shortDiv 65536 10 carry.toNat (l.map UInt16.toNat) := by
  induction l generalizing carry with
  | nil => rfl
  | cons n l ih =>
    have hn := n.toNat_lt
    have hdividend := toNat_dividend hcarry n
    have hrem : ((carry <<< 16 ||| n.toUInt32) % 10).toNat =
        (carry.toNat * 65536 + n.toNat) % 10 := by
      rw [UInt32.toNat_mod, hdividend]
      rfl
    have hquot : ((carry <<< 16 ||| n.toUInt32) / 10).toUInt16.toNat =
        (carry.toNat * 65536 + n.toNat) / 10 := by
      rw [UInt32.toNat_toUInt16, UInt32.toNat_div, hdividend]
      simp only [UInt32.reduceToNat]
      omega
    have hrest := ih _ (show ((carry <<< 16 ||| n.toUInt32) % 10).toNat < 10 by omega)
    rw [hrem] at hrest
    simp only [divideByTen, List.map_cons, Limbs.shortDiv, hquot, ← hrest]

/-- The number of a list of limbs. -/
def limbsValue (l : List UInt16) : ℕ := Limbs.value 65536 (l.map UInt16.toNat)

theorem divideByTen_spec (l : List UInt16) :
    limbsValue (divideByTen 0 l).1 = limbsValue l / 10 ∧
      (divideByTen 0 l).2.toNat = limbsValue l % 10 := by
  have heq := divideByTen_eq 0 (by decide) l
  have hspec := Limbs.shortDiv_spec (B := 65536) (d := 10) (by decide) (l.map UInt16.toNat)
  rw [UInt32.toNat_zero] at heq
  rw [← heq] at hspec
  exact hspec

theorem all_zero_iff (l : List UInt16) : l.all (· == 0) = true ↔ limbsValue l = 0 := by
  constructor
  · intro h
    refine Limbs.value_eq_zero fun n hn => ?_
    obtain ⟨k, hk, rfl⟩ := List.mem_map.mp hn
    have := List.all_eq_true.mp h k hk
    rw [eq_of_beq this]
    rfl
  · intro h
    refine List.all_eq_true.mpr fun k hk => ?_
    have := Limbs.eq_zero_of_value (by decide) h k.toNat (List.mem_map_of_mem hk)
    rw [beq_iff_eq]
    exact UInt16.toNat_inj.mp this

/-! ### The digits -/

/-- The digits that the loop writes: none for zero. -/
def loopDigits (n : ℕ) : List Char := if n = 0 then [] else Nat.toDigits 10 n

theorem loopDigits_of_ne_zero {n : ℕ} (hn : n ≠ 0) : loopDigits n = Nat.toDigits 10 n := if_neg hn

/-- The last round writes the first digit. -/
theorem loopDigits_step {n : ℕ} (hn : n ≠ 0) :
    loopDigits n = loopDigits (n / 10) ++ [(n % 10).digitChar] := by
  rw [loopDigits_of_ne_zero hn, Nat.toDigits_eq_if (by decide)]
  split_ifs with hlt
  · rw [Nat.div_eq_of_lt hlt, Nat.mod_eq_of_lt hlt]
    rfl
  · rw [loopDigits_of_ne_zero (by omega)]

theorem ofNat_digit {d : ℕ} (hd : d < 10) : Char.ofNat ('0'.toNat + d) = d.digitChar := by
  interval_cases d <;> rfl

/-- One round of the loop, when there is a number left and room for a digit. -/
theorem digitLoop_succ (pos : ℕ) {n : List UInt16} (out : CharMem) (hn : limbsValue n ≠ 0) :
    digitLoop (pos + 1) n out =
      digitLoop pos (divideByTen 0 n).1 (out.set pos (limbsValue n % 10).digitChar) := by
  have hzero : ¬n.all (· == 0) = true := fun h => hn ((all_zero_iff n).mp h)
  rw [digitLoop, if_neg hzero]
  simp only [(divideByTen_spec n).2, ofNat_digit (Nat.mod_lt _ (show 10 > 0 by decide))]

theorem digitLoop_zero (pos : ℕ) {n : List UInt16} (out : CharMem) (hn : limbsValue n = 0) :
    digitLoop pos n out = (some pos, out) := by
  have hzero := (all_zero_iff n).mpr hn
  cases pos <;> rw [digitLoop, if_pos hzero]

/-- With enough room the loop stores the digits in front of `pos`. -/
theorem digitLoop_of_le (pos : ℕ) {n : List UInt16} (out : CharMem)
    (h : (loopDigits (limbsValue n)).length ≤ pos) :
    digitLoop pos n out =
      (some (pos - (loopDigits (limbsValue n)).length),
        out.store (pos - (loopDigits (limbsValue n)).length) (loopDigits (limbsValue n))) := by
  induction pos generalizing n out with
  | zero =>
    have hnil := List.length_eq_zero_iff.mp (Nat.le_zero.mp h)
    have hn : limbsValue n = 0 := by
      by_contra hne
      rw [loopDigits_step hne] at hnil
      simp at hnil
    rw [digitLoop_zero 0 out hn, hnil]
    simp
  | succ pos ih =>
    by_cases hn : limbsValue n = 0
    · rw [digitLoop_zero _ out hn, hn, loopDigits, if_pos rfl]
      simp
    · have hquot := (divideByTen_spec n).1
      have hstep := loopDigits_step hn
      rw [← hquot] at hstep
      rw [hstep, List.length_append, List.length_singleton] at h ⊢
      rw [digitLoop_succ pos out hn, ih _ (by omega), Nat.add_sub_add_right]
      -- the digits go right in front of the one that was just written
      obtain ⟨o, rfl⟩ := Nat.exists_eq_add_of_le'
        (show (loopDigits (limbsValue (divideByTen 0 n).1)).length ≤ pos by omega)
      rw [Nat.add_sub_cancel, CharMem.set_eq_store, CharMem.store_prepend]

/-- Without enough room the loop fails, and has not written past `pos`. -/
theorem digitLoop_of_lt (pos : ℕ) {n : List UInt16} (out : CharMem)
    (h : pos < (loopDigits (limbsValue n)).length) :
    (digitLoop pos n out).1 = none ∧ ∀ i, pos ≤ i → (digitLoop pos n out).2 i = out i := by
  induction pos generalizing n out with
  | zero =>
    have hzero : ¬n.all (· == 0) = true := by
      intro hall
      rw [(all_zero_iff n).mp hall] at h
      simp [loopDigits] at h
    rw [digitLoop, if_neg hzero]
    exact ⟨rfl, fun _ _ => rfl⟩
  | succ pos ih =>
    have hn : limbsValue n ≠ 0 := by
      intro hn
      rw [hn] at h
      simp [loopDigits] at h
    rw [loopDigits_step hn, ← (divideByTen_spec n).1, List.length_append,
      List.length_singleton] at h
    rw [digitLoop_succ pos out hn]
    obtain ⟨hnone, hframe⟩ :=
      ih (n := (divideByTen 0 n).1) (out.set pos (limbsValue n % 10).digitChar) (by omega)
    refine ⟨hnone, fun i hi => ?_⟩
    rw [hframe i (by omega), CharMem.set, if_neg (by omega)]

/-! ### The conversion -/

/-- The room that `uint256_to_decimal` asks for: for the digits, and only for zero also for the
NUL. -/
def decimalRoom (n : ℕ) : ℕ := if n = 0 then 2 else (Nat.toDigits 10 n).length

section Conversion

variable (value : ℤ → UInt8) {valueLen : ℕ} (out : CharMem) {outLen : ℕ}

theorem allzeroes_rightAligned (h : valueLen ≤ int256Length) :
    allzeroes (rightAligned int256Length value valueLen) = true ↔
      amountValue value valueLen = 0 := by
  rw [allzeroes, decide_eq_true_iff, ← Bytes.toNat_eq_zero_iff,
    toNat_rightAligned value h (by decide)]

theorem limbsValue_rightAligned (h : valueLen ≤ int256Length) :
    limbsValue (limbs (n := 16) (rightAligned int256Length value valueLen)) =
      amountValue value valueLen :=
  (value_limbs (n := 16) _).trans (toNat_rightAligned value h (by decide))

theorem uint256ToDecimal_of_gt (h : int256Length < valueLen) :
    uint256ToDecimal value valueLen out outLen = (false, out) := if_pos h

theorem uint256ToDecimal_of_room (hlen : valueLen ≤ int256Length)
    (hroom : decimalRoom (amountValue value valueLen) ≤ outLen) :
    ∃ before : CharMem, (∀ i, outLen ≤ i → before i = out i) ∧
      uint256ToDecimal value valueLen out outLen =
        (true, before.store 0 (Nat.toDigits 10 (amountValue value valueLen) ++ [nul])) := by
  unfold decimalRoom at hroom
  rw [uint256ToDecimal, if_neg (by omega)]
  by_cases hzero : amountValue value valueLen = 0
  · rw [if_pos hzero] at hroom
    have hall := (allzeroes_rightAligned value hlen).mpr hzero
    refine ⟨out, fun _ _ => rfl, ?_⟩
    simp only [hall, if_true]
    rw [if_neg (by omega), CharMem.strlcpy_of_lt _ (by simp; omega), hzero, Nat.toDigits_zero]
  · rw [if_neg hzero] at hroom
    have hall : ¬allzeroes (rightAligned int256Length value valueLen) = true := fun h =>
      hzero ((allzeroes_rightAligned value hlen).mp h)
    have hdigits : loopDigits (limbsValue
        (limbs (n := 16) (rightAligned int256Length value valueLen))) =
          Nat.toDigits 10 (amountValue value valueLen) := by
      rw [limbsValue_rightAligned value hlen, loopDigits_of_ne_zero hzero]
    set digits := Nat.toDigits 10 (amountValue value valueLen) with hdef
    refine ⟨out.store (outLen - digits.length) digits, fun i hi => ?_, ?_⟩
    · exact CharMem.store_of_ge (by omega)
    · simp only [hall]
      have hloop := digitLoop_of_le outLen
        (n := limbs (n := 16) (rightAligned int256Length value valueLen)) out
        (by rw [hdigits]; exact hroom)
      rw [hdigits] at hloop
      rw [hloop]
      have hset := CharMem.store_set (out.store (outLen - digits.length) digits) 0 digits nul
      rw [Nat.zero_add] at hset
      simp only [Nat.sub_sub_self hroom, CharMem.load_store, hset, Bool.false_eq_true, if_false]

theorem uint256ToDecimal_of_no_room (hlen : valueLen ≤ int256Length)
    (hroom : outLen < decimalRoom (amountValue value valueLen)) :
    (uint256ToDecimal value valueLen out outLen).1 = false ∧
      ∀ i, outLen ≤ i → (uint256ToDecimal value valueLen out outLen).2 i = out i := by
  unfold decimalRoom at hroom
  rw [uint256ToDecimal, if_neg (by omega)]
  by_cases hzero : amountValue value valueLen = 0
  · rw [if_pos hzero] at hroom
    have hall := (allzeroes_rightAligned value hlen).mpr hzero
    simp only [hall, if_true]
    rw [if_pos hroom]
    exact ⟨rfl, fun _ _ => rfl⟩
  · rw [if_neg hzero] at hroom
    have hall : ¬allzeroes (rightAligned int256Length value valueLen) = true := fun h =>
      hzero ((allzeroes_rightAligned value hlen).mp h)
    obtain ⟨hnone, hframe⟩ := digitLoop_of_lt outLen
      (n := limbs (n := 16) (rightAligned int256Length value valueLen)) out
      (by rw [limbsValue_rightAligned value hlen, loopDigits_of_ne_zero hzero]; exact hroom)
    simp only [hall]
    rcases hloop : digitLoop outLen (limbs (n := 16) (rightAligned int256Length value valueLen)) out
      with ⟨pos, left⟩
    rw [hloop] at hnone hframe
    obtain rfl : pos = none := hnone
    exact ⟨rfl, hframe⟩

end Conversion

/-- **`uint256_to_decimal`.**  It succeeds exactly for values of at most 32 bytes whose digits fit
the buffer, and then leaves these digits and a NUL.  It asks for no room for that NUL unless the
value is zero: with exactly as many digits as characters it goes into the byte behind the buffer,
and nothing else is ever written there.  In C the position is an `int`, which limits the buffer to
fewer than 2^31 characters. -/
theorem uint256ToDecimal_correct (value : ℤ → UInt8) (valueLen : ℕ) (out : CharMem) (outLen : ℕ) :
    let result := uint256ToDecimal value valueLen out outLen
    let digits := Nat.toDigits 10 (amountValue value valueLen)
    (result.1 = true ↔
        valueLen ≤ int256Length ∧ decimalRoom (amountValue value valueLen) ≤ outLen) ∧
      (result.1 = true → result.2.load 0 (digits.length + 1) = digits ++ [nul]) ∧
      ∀ i, outLen ≤ i →
        result.2 i = if result.1 = true ∧ i = digits.length then nul else out i := by
  intro result digits
  by_cases hlen : valueLen ≤ int256Length
  · by_cases hroom : decimalRoom (amountValue value valueLen) ≤ outLen
    · obtain ⟨before, hbefore, heq⟩ := uint256ToDecimal_of_room value out hlen hroom
      have hresult : result = (true, before.store 0 (digits ++ [nul])) := heq
      have hfit : digits.length ≤ outLen := by
        refine le_trans ?_ hroom
        simp only [decimalRoom, digits]
        split_ifs with hzero
        · rw [hzero, Nat.toDigits_zero]
          decide
        · exact le_refl _
      rw [hresult]
      refine ⟨⟨fun _ => ⟨hlen, hroom⟩, fun _ => rfl⟩, fun _ => ?_, fun i hi => ?_⟩
      · have := before.load_store 0 (digits ++ [nul])
        simpa using this
      · by_cases hbehind : i = digits.length
        · have hstore := CharMem.store_add (m := before) (o := 0) (i := i) (l := digits ++ [nul])
            (by simp [hbehind])
          rw [Nat.zero_add] at hstore
          rw [if_pos ⟨rfl, hbehind⟩]
          refine hstore.trans ?_
          simp [hbehind]
        · have hge : 0 + (digits ++ [nul]).length ≤ i := by simp; omega
          rw [if_neg fun h => hbehind h.2]
          exact (CharMem.store_of_ge hge).trans (hbefore i hi)
    · obtain ⟨hfalse, hframe⟩ :=
        uint256ToDecimal_of_no_room value out hlen (Nat.lt_of_not_le hroom)
      have hresult : result.1 = false := hfalse
      rw [hresult]
      exact ⟨by simp [hroom], by simp, fun i hi => by simpa using hframe i hi⟩
  · have hresult : result = (false, out) :=
      uint256ToDecimal_of_gt value out (Nat.lt_of_not_le hlen)
    rw [hresult]
    simp [hlen]

end OriginDefi
