import OriginDefi.UintDecimal

/-!
# `adjustDecimals` and `amountToString`

`adjustDecimals` puts the point into a string of digits and cuts trailing zeros; `amountToString`
writes a ticker, a blank and the result.  The length that it passes on for the rest of the buffer
can wrap around, and is taken modulo `sizeT`.

* `cutZeros_eq`: the last loop and the two cuts behind it;
* `adjustDecimals_of_room`: the text is the canonical text of the scaled number;
* `amountToString_of_room`, `amountToString_of_no_room`: the whole text, and when it is refused;
* `readAmount`: what a reader takes the text for.
-/

namespace OriginDefi

/-! ### The functions -/

/-- The end of `adjustDecimals`: the text is cut at its trailing zeros, and at a point in front of
them. -/
def cutZeros (target : CharMem) (startOffset offset : ℕ) : CharMem :=
  let lastZeroOffset := target.trailing '0' 0 startOffset (offset - startOffset)
  if lastZeroOffset ≠ 0 then
    let target := target.set lastZeroOffset nul
    if target (lastZeroOffset - 1) = '.' then target.set (lastZeroOffset - 1) nul else target
  else target

/-- `adjustDecimals` -/
def adjustDecimals (src : CharMem) (srcLength : ℕ) (target : CharMem) (targetLength : ℕ)
    (decimals : UInt8) : Bool × CharMem :=
  if srcLength = 1 ∧ src 0 = '0' then
    if targetLength < 2 then (false, target)
    else (true, (target.set 0 '0').set 1 nul)
  else if srcLength ≤ decimals.toNat then
    let delta := decimals.toNat - srcLength
    if targetLength < srcLength + 1 + 2 + delta then (false, target)
    else
      let target := (target.set 0 '0').set 1 '.'
      let target := CharMem.fill '0' target 2 delta
      let startOffset := 2 + delta
      let target := CharMem.copy src 0 target startOffset srcLength
      let offset := startOffset + srcLength
      let target := target.set offset nul
      (true, cutZeros target startOffset offset)
  else
    let delta := srcLength - decimals.toNat
    if targetLength < srcLength + 1 + 1 then (false, target)
    else
      let target := CharMem.copy src 0 target 0 delta
      let (target, startOffset) :=
        if decimals ≠ 0 then (target.set delta '.', delta + 1) else (target, delta)
      let target := CharMem.copy src delta target startOffset (srcLength - delta)
      let offset := startOffset + (srcLength - delta)
      let target := target.set offset nul
      (true, cutZeros target startOffset offset)

/-- `amountToString` -/
def amountToString (amount : ℤ → UInt8) (amountSize decimals : UInt8) (ticker : CString)
    (outBuffer : CharMem) (outBufferSize : ℕ) : CharMem × Option Exception :=
  match uint256ToDecimal amount amountSize.toNat (fun _ => nul) 100 with
  | (false, _) => (outBuffer, some .overflow)
  | (true, tmpBuffer) =>
    let amountLen := (tmpBuffer.cstring 100).length
    let tickerLen := min ticker.length maxTickerLen
    let out := outBuffer.store 0 (ticker.take (min outBufferSize tickerLen))
    let (out, tickerLen) :=
      if 0 < tickerLen then (out.set tickerLen ' ', tickerLen + 1) else (out, tickerLen)
    let targetLength := ((outBufferSize - tickerLen - 1 : ℤ) % sizeT).toNat
    match adjustDecimals tmpBuffer amountLen (out.shift tickerLen) targetLength decimals with
    | (false, target) => (out.paste tickerLen target, some .overflow)
    | (true, target) =>
      ((out.paste tickerLen target).set ((outBufferSize - 1 : ℤ) % sizeT).toNat nul, none)

/-! ### The point -/

/-- A list that ends in `c` is what stands in front of its trailing run, a `c`, and the rest. -/
theorem exists_trailing {l : List Char} {c : Char} (h : l.getLast? = some c) :
    ∃ run, l = l.rdropWhile (· = c) ++ c :: run := by
  have hsplit : l.rdropWhile (· = c) ++ l.rtakeWhile (· = c) = l :=
    List.rdropWhile_append_rtakeWhile
  rcases hrun : l.rtakeWhile (· = c) with _ | ⟨d, run⟩
  · have hne : l ≠ [] := by
      rintro rfl
      simp at h
    rw [List.getLast?_eq_some_getLast hne, Option.some_inj] at h
    exact absurd (decide_eq_true h) (List.rtakeWhile_eq_nil_iff.mp hrun hne)
  · have hmem : d ∈ l.rtakeWhile (· = c) := by rw [hrun]; simp
    have hd := List.mem_rtakeWhile_imp hmem
    rw [hrun, of_decide_eq_true hd] at hsplit
    exact ⟨run, hsplit.symm⟩

/-- Where the loop over the fraction finds the trailing zeros.  It may skip the first digits of the
fraction, when these cannot be cut. -/
theorem trailing_fraction (target : CharMem) (whole lead : List Char) {frac : List Char}
    (hne : frac ≠ [])
    (hlead : (lead ++ frac).rdropWhile (· = '0') = lead ++ frac.rdropWhile (· = '0')) :
    (target.store 0 (whole ++ '.' :: (lead ++ frac ++ [nul]))).trailing '0' 0
        (whole.length + 1 + lead.length) frac.length =
      if (lead ++ frac).getLast? = some '0' then
        (whole ++ '.' :: (lead ++ frac).rdropWhile (· = '0')).length
      else 0 := by
  have hload : (target.store 0 (whole ++ '.' :: (lead ++ frac ++ [nul]))).load
      (whole.length + 1 + lead.length) frac.length = frac := by
    have hinside := target.load_store_inside 0 (whole ++ ['.'] ++ lead) frac [nul]
    have hstart : 0 + (whole ++ ['.'] ++ lead).length = whole.length + 1 + lead.length := by
      simp
      omega
    rw [hstart] at hinside
    simpa only [List.append_assoc, List.cons_append, List.nil_append] using hinside
  have hgetLast : (lead ++ frac).getLast? = frac.getLast? := List.getLast?_append_of_ne_nil _ hne
  have hindex : whole.length + 1 + lead.length + (frac.rdropWhile (· = '0')).length =
      (whole ++ '.' :: (lead ++ frac).rdropWhile (· = '0')).length := by
    rw [hlead]
    simp
    omega
  rw [CharMem.trailing_eq _ '0' (by omega), hload, hgetLast, hindex]

/-- The cut at the first of the trailing zeros takes a point in front of it along. -/
theorem cut_run (target : CharMem) (whole tail : List Char) {s : List Char}
    (hpoint : '.' ∉ s) :
    ∃ rest,
      (let k := (whole ++ '.' :: s).length
        let m := (target.store 0 ((whole ++ '.' :: s) ++ '0' :: tail)).set k nul
        if m (k - 1) = '.' then m.set (k - 1) nul else m) =
        target.store 0 ((if s = [] then whole else whole ++ '.' :: s) ++ nul :: rest) ∧
      ((if s = [] then whole else whole ++ '.' :: s) ++ nul :: rest).length =
        ((whole ++ '.' :: s) ++ '0' :: tail).length := by
  dsimp only
  rw [CharMem.store_set_middle]
  rcases List.eq_nil_or_concat s with rfl | ⟨s', c, rfl⟩
  · -- all zeros: the point goes as well
    have hbefore := target.store_middle whole (nul :: tail) '.'
    have hset := target.store_set_middle whole (nul :: tail) '.' nul
    refine ⟨nul :: tail, ?_, ?_⟩
    · simp only [List.append_assoc, List.cons_append, List.nil_append, List.length_append,
        List.length_cons, List.length_nil, Nat.add_sub_cancel, Nat.zero_add, hbefore, if_true, hset]
    · simp
  · -- another digit stands in front of the run
    simp only [List.concat_eq_append] at hpoint ⊢
    have hne : s' ++ [c] ≠ [] := by simp
    have hdigit : c ≠ '.' := by
      rintro rfl
      exact hpoint (by simp)
    have hbefore := target.store_middle (whole ++ '.' :: s') (nul :: tail) c
    have hlayout : whole ++ '.' :: s' ++ c :: nul :: tail =
        whole ++ '.' :: (s' ++ [c]) ++ nul :: tail := by
      simp
    have hindex : (whole ++ '.' :: s').length = (whole ++ '.' :: (s' ++ [c])).length - 1 := by
      simp
    rw [hlayout, hindex] at hbefore
    refine ⟨tail, ?_, ?_⟩
    · rw [if_neg hne, hbefore, if_neg hdigit]
    · rw [if_neg hne]
      simp

/-- The loop over the fraction and the cuts leave the canonical text. -/
theorem cutZeros_eq (target : CharMem) {whole : List Char} (lead : List Char) {frac : List Char}
    (hwhole : IsWhole whole) (hdigits : IsDigits (lead ++ frac)) (hne : frac ≠ [])
    (hlead : (lead ++ frac).rdropWhile (· = '0') = lead ++ frac.rdropWhile (· = '0')) :
    ∃ rest,
      cutZeros (target.store 0 (whole ++ '.' :: (lead ++ frac ++ [nul])))
          (whole.length + 1 + lead.length) (whole.length + 1 + lead.length + frac.length) =
        target.store 0 ((DecimalText.strip whole (lead ++ frac) hwhole hdigits).text ++ nul :: rest) ∧
      ((DecimalText.strip whole (lead ++ frac) hwhole hdigits).text ++ nul :: rest).length =
        whole.length + lead.length + frac.length + 2 := by
  have htext : (DecimalText.strip whole (lead ++ frac) hwhole hdigits).text =
      if (lead ++ frac).rdropWhile (· = '0') = [] then whole
      else whole ++ '.' :: (lead ++ frac).rdropWhile (· = '0') := rfl
  have hlength : whole.length + lead.length + frac.length + 2 =
      (whole ++ '.' :: (lead ++ frac ++ [nul])).length := by
    simp
    omega
  rw [htext, hlength]
  unfold cutZeros
  rw [Nat.add_sub_cancel_left, trailing_fraction target whole lead hne hlead]
  by_cases hlast : (lead ++ frac).getLast? = some '0'
  · -- a run of zeros, the first of which becomes the NUL
    obtain ⟨run, hrun⟩ := exists_trailing hlast
    have hlayout : whole ++ '.' :: (lead ++ frac ++ [nul]) =
        (whole ++ '.' :: (lead ++ frac).rdropWhile (· = '0')) ++ '0' :: (run ++ [nul]) := by
      conv_lhs => rw [hrun]
      simp
    have hpoint : '.' ∉ (lead ++ frac).rdropWhile (· = '0') := by
      intro hmem
      have hfront : (lead ++ frac).rdropWhile (· = '0') <+: lead ++ frac :=
        List.rdropWhile_prefix _ _
      exact absurd rfl (of_decide_eq_true (DecimalText.ne_point hdigits '.' (hfront.subset hmem)))
    rw [if_pos hlast, hlayout]
    dsimp only
    rw [if_pos (by simp)]
    exact cut_run target whole (run ++ [nul]) hpoint
  · -- nothing to cut
    have hself : (lead ++ frac).rdropWhile (· = '0') = lead ++ frac := by
      refine List.rdropWhile_eq_self_iff.mpr fun hne heq => hlast ?_
      rw [List.getLast?_eq_some_getLast hne, of_decide_eq_true heq]
    have hne' : lead ++ frac ≠ [] := by simp [hne]
    rw [if_neg hlast]
    dsimp only
    rw [if_neg (by simp), hself, if_neg hne']
    refine ⟨[], ?_, ?_⟩
    · simp
    · simp

/-- The room that `adjustDecimals` asks for. -/
def scaledRoom (n decimals : ℕ) : ℕ :=
  if n = 0 then 2
  else if (Nat.toDigits 10 n).length ≤ decimals then decimals + 3
  else (Nat.toDigits 10 n).length + 2

/-- The room for the longest amount with given decimals: 78 digits, a point and a NUL, or a zero, a
point, all the decimals and a NUL. -/
def largestRoom (decimals : ℕ) : ℕ := max 80 (decimals + 3)

theorem scaledRoom_le {n : ℕ} (h : n < 10 ^ 78) (decimals : ℕ) :
    scaledRoom n decimals ≤ largestRoom decimals := by
  have hlength : (Nat.toDigits 10 n).length ≤ 78 :=
    (Nat.length_toDigits_le_iff (by decide) (by decide)).mpr h
  unfold scaledRoom largestRoom
  split_ifs <;> omega

theorem nul_notMem_text (d : DecimalText) : nul ∉ d.text := by
  intro h
  rcases DecimalText.mem_text h with h | h
  · exact absurd h (by decide)
  · exact absurd h (by decide)

section Point

variable {src target : CharMem}

/-- The layout with a leading `0.`. -/
theorem fraction_layout (target : CharMem) {digits : List Char} (delta : ℕ)
    (hsrc : src.load 0 digits.length = digits) :
    (CharMem.copy src 0 (CharMem.fill '0' ((target.set 0 '0').set 1 '.') 2 delta) (2 + delta)
        digits.length).set (2 + delta + digits.length) nul =
      target.store 0 (['0'] ++ '.' :: (List.replicate delta '0' ++ digits ++ [nul])) := by
  have hfront : (target.set 0 '0').set 1 '.' = target.store 0 ['0', '.'] := by
    rw [target.set_eq_store]
    exact target.store_set 0 ['0'] '.'
  have hfill : (target.store 0 ['0', '.']).store 2 (List.replicate delta '0') =
      target.store 0 (['0', '.'] ++ List.replicate delta '0') :=
    target.store_append 0 ['0', '.'] _
  have hcopy := target.store_append 0 (['0', '.'] ++ List.replicate delta '0') digits
  have hnul := target.store_set 0 (['0', '.'] ++ List.replicate delta '0' ++ digits) nul
  have hlen : 0 + (['0', '.'] ++ List.replicate delta '0').length = 2 + delta := by
    simp
    omega
  have hlen' : 0 + (['0', '.'] ++ List.replicate delta '0' ++ digits).length =
      2 + delta + digits.length := by
    simp
    omega
  rw [hlen] at hcopy
  rw [hlen'] at hnul
  rw [CharMem.copy_eq, CharMem.fill_eq, hfront, hfill, hsrc, hcopy, hnul]
  simp

/-- The layout of a whole part, a point and a fraction. -/
theorem point_layout (target : CharMem) {whole frac : List Char}
    (hsrc : src.load 0 (whole.length + frac.length) = whole ++ frac) :
    (CharMem.copy src whole.length
        ((CharMem.copy src 0 target 0 whole.length).set whole.length '.') (whole.length + 1)
        frac.length).set (whole.length + 1 + frac.length) nul =
      target.store 0 (whole ++ '.' :: (frac ++ [nul])) := by
  rw [CharMem.load_add, Nat.zero_add] at hsrc
  obtain ⟨hwhole, hfrac⟩ := List.append_inj hsrc (by simp)
  have hpoint := target.store_set 0 whole '.'
  have hcopy := target.store_append 0 (whole ++ ['.']) frac
  have hnul := target.store_set 0 (whole ++ ['.'] ++ frac) nul
  rw [Nat.zero_add] at hpoint hcopy hnul
  rw [CharMem.copy_eq, CharMem.copy_eq, hwhole, hfrac, hpoint]
  simp only [List.length_append, List.length_singleton] at hcopy hnul
  rw [hcopy, hnul]
  simp

/-- The layout of a whole number. -/
theorem whole_layout (target : CharMem) {whole : List Char}
    (hsrc : src.load 0 whole.length = whole) :
    (CharMem.copy src whole.length (CharMem.copy src 0 target 0 whole.length) whole.length 0).set
        whole.length nul = target.store 0 (whole ++ [nul]) := by
  have hnul := target.store_set 0 whole nul
  rw [Nat.zero_add] at hnul
  rw [CharMem.copy_eq, CharMem.copy_eq, hsrc, CharMem.load_zero, CharMem.store_nil, hnul]

theorem toDigits_eq_zero_iff (n : ℕ) : Nat.toDigits 10 n = ['0'] ↔ n = 0 := by
  refine ⟨fun h => ?_, fun h => by rw [h, Nat.toDigits_zero]⟩
  have hvalue := congrArg digitsValue h
  rw [digitsValue_toDigits, digitsValue_singleton] at hvalue
  exact hvalue

/-- The test for zero. -/
theorem zero_test {n : ℕ}
    (hsrc : src.load 0 (Nat.toDigits 10 n).length = Nat.toDigits 10 n) :
    (Nat.toDigits 10 n).length = 1 ∧ src 0 = '0' ↔ n = 0 := by
  rw [← toDigits_eq_zero_iff]
  constructor
  · rintro ⟨hlen, h0⟩
    rw [hlen, CharMem.load_succ, CharMem.load_zero, h0] at hsrc
    exact hsrc.symm
  · intro h
    rw [h] at hsrc
    refine ⟨by rw [h]; rfl, ?_⟩
    rw [List.length_singleton, CharMem.load_succ, CharMem.load_zero] at hsrc
    exact List.head_eq_of_cons_eq hsrc

/-- Trailing zeros end where the digits of a number other than zero begin. -/
theorem rdropWhile_leading (n : ℕ) (hn : n ≠ 0) (l : List Char) :
    (l ++ Nat.toDigits 10 n).rdropWhile (· = '0') =
      l ++ (Nat.toDigits 10 n).rdropWhile (· = '0') := by
  have hne : (Nat.toDigits 10 n).reverse.dropWhile (· = '0') ≠ [] := by
    intro hnil
    have hall : ∀ c ∈ Nat.toDigits 10 n, c = '0' := fun c hc =>
      of_decide_eq_true (List.dropWhile_eq_nil_iff.mp hnil c (List.mem_reverse.mpr hc))
    have hvalue := digitsValue_replicate (Nat.toDigits 10 n).length
    rw [← List.eq_replicate_of_mem hall, digitsValue_toDigits] at hvalue
    exact hn hvalue
  rw [List.rdropWhile, List.rdropWhile, List.reverse_append, List.dropWhile_append,
    if_neg (by simpa using hne), List.reverse_append, List.reverse_reverse]

variable (src) (target) (targetLength : ℕ) {n : ℕ} (decimals : UInt8)

/-- Without room nothing is written. -/
theorem adjustDecimals_of_no_room
    (hsrc : src.load 0 (Nat.toDigits 10 n).length = Nat.toDigits 10 n)
    (hroom : targetLength < scaledRoom n decimals.toNat) :
    adjustDecimals src (Nat.toDigits 10 n).length target targetLength decimals =
      (false, target) := by
  unfold scaledRoom at hroom
  unfold adjustDecimals
  by_cases hn : n = 0
  · rw [if_pos hn] at hroom
    rw [if_pos ((zero_test hsrc).mpr hn), if_pos hroom]
  rw [if_neg hn] at hroom
  rw [if_neg fun h => hn ((zero_test hsrc).mp h)]
  by_cases hle : (Nat.toDigits 10 n).length ≤ decimals.toNat
  · rw [if_pos hle] at hroom
    rw [if_pos hle]
    exact if_pos (by omega)
  · rw [if_neg hle] at hroom
    rw [if_neg hle]
    exact if_pos (by omega)

/-- More digits than decimals: the last ones become the fraction. -/
theorem adjustDecimals_of_whole {whole frac : List Char} (hwhole : IsWhole whole)
    (hdigits : IsDigits frac) (hdecimals : frac.length = decimals.toNat)
    (hsrc : src.load 0 (whole.length + frac.length) = whole ++ frac)
    (hzero : ¬(whole.length + frac.length = 1 ∧ src 0 = '0'))
    (hroom : whole.length + frac.length + 2 ≤ targetLength) :
    ∃ rest, adjustDecimals src (whole.length + frac.length) target targetLength decimals =
        (true, target.store 0
          ((DecimalText.strip whole frac hwhole hdigits).text ++ nul :: rest)) ∧
      ((DecimalText.strip whole frac hwhole hdigits).text ++ nul :: rest).length ≤
        targetLength := by
  have hpos := List.length_pos_iff.mpr hwhole.ne_nil
  unfold adjustDecimals
  rw [if_neg hzero, if_neg (by omega), if_neg (by omega), ← hdecimals, Nat.add_sub_cancel,
    Nat.add_sub_cancel_left]
  by_cases hdec : decimals = 0
  · -- no fraction at all
    have hnil : frac = [] := by
      refine List.length_eq_zero_iff.mp ?_
      rw [hdecimals, hdec]
      rfl
    subst hnil
    rw [List.length_nil, Nat.add_zero, List.append_nil] at hsrc
    have hlayout := whole_layout target hsrc
    have htext : (DecimalText.strip whole [] hwhole hdigits).text = whole := rfl
    refine ⟨[], ?_, by rw [htext]; simp; omega⟩
    simp only [hdec, ne_eq, not_true_eq_false, if_false, List.length_nil, Nat.add_zero, hlayout,
      htext, cutZeros, Nat.sub_self, CharMem.trailing]
  · have hne : frac ≠ [] := by
      rintro rfl
      exact hdec (UInt8.toNat_inj.mp hdecimals.symm)
    obtain ⟨rest, hcut, hlen⟩ := cutZeros_eq target [] hwhole hdigits hne rfl
    simp only [List.nil_append, List.length_nil, Nat.add_zero] at hcut hlen
    rw [← point_layout target hsrc] at hcut
    refine ⟨rest, ?_, by rw [hlen]; omega⟩
    simp only [hdec, ne_eq, not_false_eq_true, if_true, hcut]

/-- **`adjustDecimals`.**  With enough room it stores the canonical text of `n / 10 ^ decimals`. -/
theorem adjustDecimals_of_room
    (hsrc : src.load 0 (Nat.toDigits 10 n).length = Nat.toDigits 10 n)
    (hroom : scaledRoom n decimals.toNat ≤ targetLength) :
    ∃ rest, adjustDecimals src (Nat.toDigits 10 n).length target targetLength decimals =
        (true, target.store 0 ((DecimalText.scaled n decimals.toNat).text ++ nul :: rest)) ∧
      ((DecimalText.scaled n decimals.toNat).text ++ nul :: rest).length ≤ targetLength := by
  unfold scaledRoom at hroom
  by_cases hn : n = 0
  · rw [if_pos hn] at hroom
    unfold adjustDecimals
    rw [if_pos ((zero_test hsrc).mpr hn), if_neg (by omega), hn, DecimalText.text_scaled_zero,
      target.set_eq_store]
    have hnul := target.store_set 0 ['0'] nul
    exact ⟨[], by rw [← hnul]; rfl, by simpa using hroom⟩
  have hzero := fun h => hn ((zero_test hsrc).mp h)
  rw [if_neg hn] at hroom
  by_cases hle : (Nat.toDigits 10 n).length ≤ decimals.toNat
  · rw [if_pos hle] at hroom
    have hfrac := (isDigits_replicate (decimals.toNat - (Nat.toDigits 10 n).length)).append
      (isDigits_toDigits n)
    obtain ⟨rest, hcut, hlen⟩ := cutZeros_eq target _ isWhole_zero hfrac Nat.toDigits_ne_nil
      (rdropWhile_leading n hn _)
    rw [← fraction_layout target _ hsrc] at hcut
    simp only [List.length_replicate, List.length_singleton] at hcut hlen
    unfold adjustDecimals
    rw [if_neg hzero, if_pos hle, if_neg (by omega), DecimalText.scaled_of_le hle]
    exact ⟨rest, by rw [← hcut], by rw [hlen]; omega⟩
  · rw [if_neg hle] at hroom
    have hlt := Nat.lt_of_not_le hle
    have hcut := List.take_append_drop ((Nat.toDigits 10 n).length - decimals.toNat)
      (Nat.toDigits 10 n)
    have hsum := congrArg List.length hcut
    have hfrac : ((Nat.toDigits 10 n).drop
        ((Nat.toDigits 10 n).length - decimals.toNat)).length = decimals.toNat := by
      rw [List.length_drop]
      omega
    rw [List.length_append] at hsum
    have hwhole := adjustDecimals_of_whole src target targetLength decimals
      ((isWhole_toDigits n).take
        (show 0 < (Nat.toDigits 10 n).length - decimals.toNat by omega))
      ((isDigits_toDigits n).subset (List.drop_subset _ _)) hfrac
      (by rw [hsum, hcut, hsrc]) (by rw [hsum]; exact hzero) (by omega)
    rw [hsum] at hwhole
    rw [DecimalText.scaled_of_lt hlt]
    exact hwhole

end Point

/-- **The point.**  Given the digits of a number, `adjustDecimals` succeeds exactly when there is
room for them all, the leading zeros, a point and a NUL, the point also where it has no decimals to
separate; only a zero needs no more than itself and a NUL.  It then leaves the canonical text of the
number over `10 ^ decimals`, and never writes outside its buffer. -/
theorem adjustDecimals_correct (src target : CharMem) (targetLength n : ℕ) (decimals : UInt8)
    (hsrc : src.load 0 (Nat.toDigits 10 n).length = Nat.toDigits 10 n) :
    let result :=
      adjustDecimals src (Nat.toDigits 10 n).length target targetLength decimals
    (result.1 = true ↔ scaledRoom n decimals.toNat ≤ targetLength) ∧
      (result.1 = true → ∃ d : DecimalText,
        result.2.cstring targetLength = d.text ∧ d.value = n / 10 ^ decimals.toNat) ∧
      (result.1 = false → result.2 = target) ∧
      ∀ i, targetLength ≤ i → result.2 i = target i := by
  intro result
  by_cases hroom : scaledRoom n decimals.toNat ≤ targetLength
  · obtain ⟨rest, hadjust, hlen⟩ :=
      adjustDecimals_of_room src target targetLength decimals hsrc hroom
    have hresult : result = (true, target.store 0
        ((DecimalText.scaled n decimals.toNat).text ++ nul :: rest)) := hadjust
    have hnul := nul_notMem_text (DecimalText.scaled n decimals.toNat)
    rw [hresult]
    refine ⟨⟨fun _ => hroom, fun _ => rfl⟩, fun _ => ?_, fun h => by simp at h, fun i hi => ?_⟩
    · exact ⟨DecimalText.scaled n decimals.toNat, CharMem.cstring_store target hnul hlen,
        DecimalText.value_scaled n decimals.toNat⟩
    · have hbehind : 0 + ((DecimalText.scaled n decimals.toNat).text ++ nul :: rest).length ≤ i := by
        omega
      exact CharMem.store_of_ge hbehind
  · have hresult : result = (false, target) :=
      adjustDecimals_of_no_room src target targetLength decimals hsrc (Nat.lt_of_not_le hroom)
    rw [hresult]
    exact ⟨by simp [hroom], fun h => by simp at h, fun _ => rfl, fun _ _ => rfl⟩

theorem adjustDecimals_correct_point :
    let src := CharMem.store (fun _ => nul) 0 "1250".toList
    let result := adjustDecimals src (Nat.toDigits 10 1250).length (fun _ => nul) 8 3
    (result.1 = true ↔ scaledRoom 1250 3 ≤ 8) ∧
      (result.1 = true → ∃ d : DecimalText,
        result.2.cstring 8 = d.text ∧ d.value = (1250 : ℕ) / 10 ^ 3) ∧
      (result.1 = false → result.2 = fun _ => nul) ∧
      ∀ i, 8 ≤ i → result.2 i = nul :=
  adjustDecimals_correct (CharMem.store (fun _ => nul) 0 "1250".toList) (fun _ => nul) 8 1250 3
    (by decide)

/-! ### The whole text -/

/-- The ticker and the blank in front of a number. -/
def amountPrefix (ticker : CString) : List Char :=
  if ticker = [] then [] else ticker.take maxTickerLen ++ [' ']

theorem length_amountPrefix (ticker : CString) :
    (amountPrefix ticker).length =
      if 0 < min ticker.length maxTickerLen then min ticker.length maxTickerLen + 1
      else min ticker.length maxTickerLen := by
  unfold amountPrefix
  cases ticker with
  | nil => rfl
  | cons c ticker =>
    rw [if_neg (by simp), if_pos (by simp [maxTickerLen]), List.length_append, List.length_take,
      List.length_singleton, Nat.min_comm]

/-- Only the first characters of a ticker count. -/
theorem amountPrefix_congr {ticker ticker' : CString}
    (h : ticker.take maxTickerLen = ticker'.take maxTickerLen) :
    amountPrefix ticker = amountPrefix ticker' := by
  have hnil : ticker = [] ↔ ticker' = [] := by
    have htake : ∀ t : CString, t.take maxTickerLen = [] ↔ t = [] := by
      intro t
      simp [List.take_eq_nil_iff, maxTickerLen]
    rw [← htake ticker, h, htake ticker']
  unfold amountPrefix
  rw [h]
  simp only [hnil]

section Whole

variable (amount : ℤ → UInt8) {amountSize : UInt8} (decimals : UInt8) (ticker : CString)
  (out : CharMem) {outSize : ℕ}

/-- The buffer after the ticker and the blank. -/
def afterPrefix (outSize : ℕ) : CharMem :=
  let tickerLen := min ticker.length maxTickerLen
  let out := out.store 0 (ticker.take (min outSize tickerLen))
  if 0 < tickerLen then out.set tickerLen ' ' else out

theorem afterPrefix_eq (outSize : ℕ) (h : (amountPrefix ticker).length ≤ outSize) :
    afterPrefix ticker out outSize = out.store 0 (amountPrefix ticker) := by
  rw [length_amountPrefix] at h
  unfold afterPrefix amountPrefix
  cases ticker with
  | nil => simp
  | cons c ticker =>
    have hpos : 0 < min (c :: ticker).length maxTickerLen := by simp [maxTickerLen]
    rw [if_pos hpos] at h
    have hset := out.store_set 0 ((c :: ticker).take maxTickerLen) ' '
    rw [Nat.zero_add, List.length_take, Nat.min_comm] at hset
    have htake : (c :: ticker).take (min outSize (min (c :: ticker).length maxTickerLen)) =
        (c :: ticker).take maxTickerLen := by
      rw [Nat.min_eq_right (by omega), Nat.min_comm, ← List.take_take, List.take_length]
    simp only [htake, hpos, if_true, hset]
    rfl

/-- The call, in terms of the prefix. -/
theorem amountToString_eq :
    amountToString amount amountSize decimals ticker out outSize =
      match uint256ToDecimal amount amountSize.toNat (fun _ => nul) 100 with
      | (false, _) => (out, some .overflow)
      | (true, tmp) =>
        let k := (amountPrefix ticker).length
        let front := afterPrefix ticker out outSize
        let length := ((outSize - k - 1 : ℤ) % sizeT).toNat
        match adjustDecimals tmp (tmp.cstring 100).length (front.shift k) length decimals with
        | (false, target) => (front.paste k target, some .overflow)
        | (true, target) =>
          ((front.paste k target).set ((outSize - 1 : ℤ) % sizeT).toNat nul, none) := by
  unfold amountToString
  split
  · rfl
  · simp only [length_amountPrefix, afterPrefix]
    by_cases hpos : 0 < min ticker.length maxTickerLen
    · simp only [hpos, if_true]
    · simp only [hpos, if_false]

theorem amountValue_lt (hsize : amountSize.toNat ≤ int256Length) :
    amountValue amount amountSize.toNat < 10 ^ 78 :=
  calc amountValue amount amountSize.toNat < 256 ^ amountSize.toNat := Bytes.toNat_lt _
    _ ≤ 256 ^ 32 := Nat.pow_le_pow_right (by decide) hsize
    _ < 10 ^ 78 := by norm_num

/-- 32 bytes are never too many digits for the temporary buffer. -/
theorem length_toDigits_le (hsize : amountSize.toNat ≤ int256Length) :
    (Nat.toDigits 10 (amountValue amount amountSize.toNat)).length ≤ 78 :=
  (Nat.length_toDigits_le_iff (by decide) (by decide)).mpr (amountValue_lt amount hsize)

/-- What `adjustDecimals` finds in the temporary buffer. -/
theorem tmpBuffer_spec (hsize : amountSize.toNat ≤ int256Length) :
    ∃ tmp, uint256ToDecimal amount amountSize.toNat (fun _ => nul) 100 = (true, tmp) ∧
      tmp.cstring 100 = Nat.toDigits 10 (amountValue amount amountSize.toNat) ∧
      tmp.load 0 (Nat.toDigits 10 (amountValue amount amountSize.toNat)).length =
        Nat.toDigits 10 (amountValue amount amountSize.toNat) := by
  have hlen := length_toDigits_le amount hsize
  have hroom : decimalRoom (amountValue amount amountSize.toNat) ≤ 100 := by
    unfold decimalRoom
    split_ifs <;> omega
  obtain ⟨before, -, heq⟩ := uint256ToDecimal_of_room amount (fun _ => nul) hsize hroom
  refine ⟨_, heq, before.cstring_store_nul ?_ (by omega), ?_⟩
  · intro hmem
    exact absurd (isDigits_toDigits _ nul hmem) (by decide)
  · have hinside := before.load_store_inside 0 []
      (Nat.toDigits 10 (amountValue amount amountSize.toNat)) [nul]
    simpa using hinside

theorem amountToString_of_size (h : int256Length < amountSize.toNat) :
    amountToString amount amountSize decimals ticker out outSize = (out, some .overflow) := by
  rw [amountToString_eq, uint256ToDecimal_of_gt amount _ h]

/-- The room that the whole text asks for, its NUL included. -/
def amountRoom (amountSize : UInt8) : ℕ :=
  (amountPrefix ticker).length +
    scaledRoom (amountValue amount amountSize.toNat) decimals.toNat

variable {amount decimals ticker}

/-- With enough room the call stores the prefix and the canonical text, and a NUL at the end of
the buffer. -/
theorem amountToString_of_room (hsize : amountSize.toNat ≤ int256Length)
    (hout : (outSize : ℤ) < sizeT) (hroom : amountRoom amount decimals ticker amountSize < outSize) :
    ∃ rest,
      amountToString amount amountSize decimals ticker out outSize =
        ((out.set (outSize - 1) nul).store 0
          (amountPrefix ticker ++
            (DecimalText.scaled (amountValue amount amountSize.toNat) decimals.toNat).text ++
              nul :: rest), none) ∧
      (amountPrefix ticker ++
        (DecimalText.scaled (amountValue amount amountSize.toNat) decimals.toNat).text ++
          nul :: rest).length < outSize := by
  unfold amountRoom at hroom
  obtain ⟨tmp, hconvert, hstring, hload⟩ := tmpBuffer_spec amount hsize
  have hlength : ((outSize - (amountPrefix ticker).length - 1 : ℤ) % sizeT).toNat =
      outSize - (amountPrefix ticker).length - 1 := by
    rw [Int.emod_eq_of_lt (by omega) (by omega)]
    omega
  have hlast : ((outSize - 1 : ℤ) % sizeT).toNat = outSize - 1 := by
    rw [Int.emod_eq_of_lt (by omega) (by omega)]
    omega
  obtain ⟨rest, hadjust, hlen⟩ := adjustDecimals_of_room tmp
    ((out.store 0 (amountPrefix ticker)).shift (amountPrefix ticker).length)
    (outSize - (amountPrefix ticker).length - 1) decimals hload (by omega)
  refine ⟨rest, ?_, by rw [List.append_assoc, List.length_append]; omega⟩
  rw [amountToString_eq, hconvert]
  simp only [afterPrefix_eq ticker out outSize (by omega), hlength, hlast, hstring,
    hadjust, CharMem.paste_shift_store]
  have happend := out.store_append 0 (amountPrefix ticker)
    ((DecimalText.scaled (amountValue amount amountSize.toNat) decimals.toNat).text ++ nul :: rest)
  rw [Nat.zero_add] at happend
  rw [Nat.add_zero, happend, CharMem.store_set_behind _ (by rw [List.length_append]; omega),
    List.append_assoc]

/-- Without it, only the prefix is stored. -/
theorem amountToString_of_no_room (hsize : amountSize.toNat ≤ int256Length)
    (hout : (outSize : ℤ) < sizeT) (hfront : (amountPrefix ticker).length < outSize)
    (hroom : outSize ≤ amountRoom amount decimals ticker amountSize) :
    amountToString amount amountSize decimals ticker out outSize =
      (out.store 0 (amountPrefix ticker), some .overflow) := by
  unfold amountRoom at hroom
  obtain ⟨tmp, hconvert, hstring, hload⟩ := tmpBuffer_spec amount hsize
  have hlength : ((outSize - (amountPrefix ticker).length - 1 : ℤ) % sizeT).toNat =
      outSize - (amountPrefix ticker).length - 1 := by
    rw [Int.emod_eq_of_lt (by omega) (by omega)]
    omega
  have hadjust := adjustDecimals_of_no_room tmp
    ((out.store 0 (amountPrefix ticker)).shift (amountPrefix ticker).length)
    (outSize - (amountPrefix ticker).length - 1) decimals hload (by omega)
  rw [amountToString_eq, hconvert]
  simp only [afterPrefix_eq ticker out outSize (by omega), hlength, hstring,
    hadjust, CharMem.paste_shift]

end Whole

/-! ### Reading the text -/

/-- What a reader takes an amount text for: the ticker is what stands in front of the last blank,
and the number what stands behind it. -/
def readAmount (t : CString) : CString × ℚ :=
  ((t.rdropWhile (· ≠ ' ')).dropLast, DecimalText.read (t.rtakeWhile (· ≠ ' ')))

theorem text_ne_blank (d : DecimalText) : ∀ c ∈ d.text, decide (c ≠ ' ') = true := by
  intro c hc
  refine decide_eq_true ?_
  rintro rfl
  rcases DecimalText.mem_text hc with h | h
  · exact absurd h (by decide)
  · exact absurd h (by decide)

/-- The last blank separates the ticker from the number, whatever the ticker holds. -/
theorem readAmount_text (ticker : CString) (d : DecimalText) :
    readAmount (amountPrefix ticker ++ d.text) = (ticker.take maxTickerLen, d.value) := by
  unfold amountPrefix
  split_ifs with hnil
  · have htake : d.text.rtakeWhile (· ≠ ' ') = d.text :=
      List.rtakeWhile_eq_self_iff.mpr (text_ne_blank d)
    have hdrop : d.text.rdropWhile (· ≠ ' ') = [] := by
      rw [List.rdropWhile_eq_nil_iff]
      exact text_ne_blank d
    rw [List.nil_append, readAmount, htake, hdrop, DecimalText.read_text, hnil]
    rfl
  · have hrev : ∀ c ∈ d.text.reverse, decide (c ≠ ' ') = true := fun c hc =>
      text_ne_blank d c (List.mem_reverse.mp hc)
    have htake : (ticker.take maxTickerLen ++ [' '] ++ d.text).rtakeWhile (· ≠ ' ') = d.text := by
      rw [List.rtakeWhile, List.reverse_append, List.takeWhile_append_of_pos hrev]
      simp
    have hdrop : (ticker.take maxTickerLen ++ [' '] ++ d.text).rdropWhile (· ≠ ' ') =
        ticker.take maxTickerLen ++ [' '] := by
      rw [List.rdropWhile, List.reverse_append, List.dropWhile_append_of_pos hrev]
      simp
    rw [readAmount, htake, hdrop, List.dropLast_concat, DecimalText.read_text]

theorem nul_notMem_amountPrefix {ticker : CString} (h : nul ∉ ticker) :
    nul ∉ amountPrefix ticker := by
  intro hmem
  unfold amountPrefix at hmem
  split_ifs at hmem
  · simp at hmem
  · rcases List.mem_append.mp hmem with hmem | hmem
    · exact h (List.mem_of_mem_take hmem)
    · exact absurd (List.mem_singleton.mp hmem) (by decide)

section Results

variable (amount : ℤ → UInt8) {amountSize : UInt8} (decimals : UInt8) {ticker : CString}
  (out : CharMem) {outSize : ℕ}

/-- The string in the buffer after a call that succeeds. -/
theorem amountToString_cstring (hsize : amountSize.toNat ≤ int256Length)
    (hout : (outSize : ℤ) < sizeT) (hticker : nul ∉ ticker)
    (hroom : amountRoom amount decimals ticker amountSize < outSize) :
    (amountToString amount amountSize decimals ticker out outSize).1.cstring outSize =
      amountPrefix ticker ++
        (DecimalText.scaled (amountValue amount amountSize.toNat) decimals.toNat).text := by
  obtain ⟨rest, heq, hlen⟩ := amountToString_of_room out hsize hout hroom
  rw [heq]
  refine CharMem.cstring_store _ ?_ (by omega)
  intro hmem
  rcases List.mem_append.mp hmem with h | h
  · exact nul_notMem_amountPrefix hticker h
  · exact nul_notMem_text _ h

/-- When the call succeeds. -/
theorem amountToString_thrown (hout : (outSize : ℤ) < sizeT)
    (hfront : (amountPrefix ticker).length < outSize) :
    (amountToString amount amountSize decimals ticker out outSize).2 =
      if amountSize.toNat ≤ int256Length ∧ amountRoom amount decimals ticker amountSize < outSize
      then none else some .overflow := by
  by_cases hsize : amountSize.toNat ≤ int256Length
  · by_cases hroom : amountRoom amount decimals ticker amountSize < outSize
    · obtain ⟨rest, heq, -⟩ := amountToString_of_room out hsize hout hroom
      rw [heq, if_pos ⟨hsize, hroom⟩]
    · rw [amountToString_of_no_room out hsize hout hfront (Nat.le_of_not_lt hroom),
        if_neg fun h => hroom h.2]
  · rw [amountToString_of_size amount decimals ticker out (Nat.lt_of_not_le hsize),
      if_neg fun h => hsize h.1]

/-- What a reader sees after a call that succeeds. -/
theorem amountToString_read (hout : (outSize : ℤ) < sizeT) (hticker : nul ∉ ticker)
    (hfront : (amountPrefix ticker).length < outSize)
    (h : (amountToString amount amountSize decimals ticker out outSize).2 = none) :
    readAmount ((amountToString amount amountSize decimals ticker out outSize).1.cstring outSize) =
      (ticker.take maxTickerLen,
        (amountValue amount amountSize.toNat : ℚ) / 10 ^ decimals.toNat) := by
  rw [amountToString_thrown amount decimals out hout hfront] at h
  split_ifs at h with hfits
  rw [amountToString_cstring amount decimals out hfits.1 hout hticker hfits.2, readAmount_text,
    DecimalText.value_scaled]

/-- **The text of an amount.**  When the ticker and its blank leave room in the buffer, the call
throws `EXCEPTION_OVERFLOW` exactly when the amount has more than 32 bytes or the buffer does not
have the room that `adjustDecimals` asks for, in which trailing zeros and an idle point are counted;
otherwise the text, read back, is the ticker and the amount. -/
theorem amountToString_correct (hout : (outSize : ℤ) < sizeT) (hticker : nul ∉ ticker)
    (hfront : (amountPrefix ticker).length < outSize) :
    let result := amountToString amount amountSize decimals ticker out outSize
    (result.2 =
        if amountSize.toNat ≤ int256Length ∧
          amountRoom amount decimals ticker amountSize < outSize
        then none else some .overflow) ∧
      (result.2 = none →
        readAmount (result.1.cstring outSize) =
          (ticker.take maxTickerLen,
            (amountValue amount amountSize.toNat : ℚ) / 10 ^ decimals.toNat)) :=
  ⟨amountToString_thrown amount decimals out hout hfront,
    amountToString_read amount decimals out hout hticker hfront⟩

theorem amountToString_correct_eth :
    let result := amountToString (fun _ => 15) 1 1 "ETH".toList (fun _ => nul) 20
    (result.2 =
        if (1 : UInt8).toNat ≤ int256Length ∧
          amountRoom (fun _ => 15) 1 "ETH".toList 1 < 20
        then none else some .overflow) ∧
      (result.2 = none →
        readAmount (result.1.cstring 20) =
          ("ETH".toList.take maxTickerLen,
            (amountValue (fun _ => 15) (1 : UInt8).toNat : ℚ) / 10 ^ (1 : UInt8).toNat)) :=
  amountToString_correct (fun _ => 15) 1 (fun _ => nul) (by decide) (by decide) (by decide)

end Results

/-- **Texts identify amounts.**  Two calls that succeed, in buffers with room for the ticker and its
blank, leave the same text exactly when they were given the same ticker and amounts that are equal
after scaling. -/
theorem amountToString_text_eq_iff {amount amount' : ℤ → UInt8} {size size' : UInt8}
    {decimals decimals' : UInt8} {ticker ticker' : CString} {out out' : CharMem}
    {outSize outSize' : ℕ} (hout : (outSize : ℤ) < sizeT) (hout' : (outSize' : ℤ) < sizeT)
    (hticker : nul ∉ ticker) (hticker' : nul ∉ ticker')
    (hfront : (amountPrefix ticker).length < outSize)
    (hfront' : (amountPrefix ticker').length < outSize')
    (h : (amountToString amount size decimals ticker out outSize).2 = none)
    (h' : (amountToString amount' size' decimals' ticker' out' outSize').2 = none) :
    (amountToString amount size decimals ticker out outSize).1.cstring outSize =
        (amountToString amount' size' decimals' ticker' out' outSize').1.cstring outSize' ↔
      ticker.take maxTickerLen = ticker'.take maxTickerLen ∧
        (amountValue amount size.toNat : ℚ) / 10 ^ decimals.toNat =
          (amountValue amount' size'.toNat : ℚ) / 10 ^ decimals'.toNat := by
  constructor
  · intro htext
    have hread := amountToString_read amount decimals out hout hticker hfront h
    rw [htext, amountToString_read amount' decimals' out' hout' hticker' hfront' h'] at hread
    exact ⟨(congrArg Prod.fst hread).symm, (congrArg Prod.snd hread).symm⟩
  · rintro ⟨htickers, hvalues⟩
    rw [amountToString_thrown _ _ _ hout hfront] at h
    rw [amountToString_thrown _ _ _ hout' hfront'] at h'
    split_ifs at h with hfits
    split_ifs at h' with hfits'
    rw [amountToString_cstring _ _ _ hfits.1 hout hticker hfits.2,
      amountToString_cstring _ _ _ hfits'.1 hout' hticker' hfits'.2]
    have hscaled : DecimalText.scaled (amountValue amount size.toNat) decimals.toNat =
        DecimalText.scaled (amountValue amount' size'.toNat) decimals'.toNat := by
      refine DecimalText.value_injective ?_
      rw [DecimalText.value_scaled, DecimalText.value_scaled, hvalues]
    rw [hscaled, amountPrefix_congr htickers]

theorem amountToString_text_eq_iff_eth :
    (amountToString (fun _ => 15) 1 1 "ETH".toList (fun _ => nul) 20).1.cstring 20 =
        (amountToString (fun _ => 150) 1 2 "ETH".toList (fun _ => nul) 30).1.cstring 30 ↔
      "ETH".toList.take maxTickerLen = "ETH".toList.take maxTickerLen ∧
        (amountValue (fun _ => 15) (1 : UInt8).toNat : ℚ) / 10 ^ (1 : UInt8).toNat =
          (amountValue (fun _ => 150) (1 : UInt8).toNat : ℚ) / 10 ^ (2 : UInt8).toNat :=
  amountToString_text_eq_iff (by decide) (by decide) (by decide) (by decide) (by decide)
    (by decide) (by decide) (by decide)

/-! ### Bounds of the writes -/

/-- When the ticker and its blank leave no room, the length that is passed on wraps around, and
the number goes behind the buffer. -/
theorem amountToString_writes_behind (amount : ℤ → UInt8) {amountSize : UInt8} (decimals : UInt8)
    (ticker : CString) {outSize : ℕ} (hsize : amountSize.toNat ≤ int256Length)
    (hfront : outSize ≤ (amountPrefix ticker).length) :
    (amountToString amount amountSize decimals ticker (fun _ => nul) outSize).1
      (amountPrefix ticker).length ≠ nul := by
  have hk : (amountPrefix ticker).length ≤ 12 := by
    rw [length_amountPrefix]
    unfold maxTickerLen
    split_ifs <;> omega
  have hroom := scaledRoom_le (amountValue_lt amount hsize) decimals.toNat
  have hlargest : largestRoom decimals.toNat ≤ 258 := by
    have hdecimals := decimals.toNat_lt
    unfold largestRoom
    omega
  obtain ⟨tmp, hconvert, hstring, hload⟩ := tmpBuffer_spec amount hsize
  have hlength : scaledRoom (amountValue amount amountSize.toNat) decimals.toNat ≤
      ((outSize - (amountPrefix ticker).length - 1 : ℤ) % sizeT).toNat := by
    have hmod : (outSize - (amountPrefix ticker).length - 1 : ℤ) % sizeT =
        outSize - (amountPrefix ticker).length - 1 + sizeT := by
      rw [← Int.add_emod_right, Int.emod_eq_of_lt] <;> unfold sizeT <;> omega
    rw [hmod]
    unfold sizeT
    omega
  obtain ⟨rest, hadjust, -⟩ := adjustDecimals_of_room tmp
    ((afterPrefix ticker (fun _ => nul) outSize).shift (amountPrefix ticker).length) _ decimals hload
    hlength
  rw [amountToString_eq, hconvert]
  simp only [hstring, hadjust, CharMem.paste_shift_store, Nat.add_zero]
  have hlast : (amountPrefix ticker).length ≠ ((outSize - 1 : ℤ) % sizeT).toNat := by
    by_cases h0 : outSize = 0
    · rw [h0]
      have hmod : ((0 : ℕ) - 1 : ℤ) % sizeT = 4294967295 := by decide
      rw [hmod]
      omega
    · rw [Int.emod_eq_of_lt (by omega) (by unfold sizeT; omega)]
      omega
  rw [CharMem.set, if_neg hlast]
  obtain ⟨c, text, htext⟩ := List.exists_cons_of_ne_nil (DecimalText.text_ne_nil
    (DecimalText.scaled (amountValue amount amountSize.toNat) decimals.toNat))
  have hfirst := CharMem.store_add (m := afterPrefix ticker (fun _ => nul) outSize)
    (o := (amountPrefix ticker).length) (i := 0)
    (l := (DecimalText.scaled (amountValue amount amountSize.toNat) decimals.toNat).text ++
      nul :: rest) (by simp)
  rw [Nat.add_zero] at hfirst
  rw [hfirst]
  have hnul := nul_notMem_text
    (DecimalText.scaled (amountValue amount amountSize.toNat) decimals.toNat)
  rw [htext] at hnul
  simp only [htext, List.cons_append, List.getElem_cons_zero]
  intro heq
  exact hnul (by rw [heq]; simp)

/-- **Bounds.**  A call stays inside its buffer, for whatever the memory holds, exactly when it
throws before it writes, or the ticker and its blank leave room. -/
theorem amountToString_inBounds_iff (amount : ℤ → UInt8) (amountSize decimals : UInt8)
    (ticker : CString) {outSize : ℕ} (hout : (outSize : ℤ) < sizeT) :
    (∀ (out : CharMem) (i : ℕ), outSize ≤ i →
        (amountToString amount amountSize decimals ticker out outSize).1 i = out i) ↔
      int256Length < amountSize.toNat ∨ (amountPrefix ticker).length < outSize := by
  constructor
  · intro hframe
    by_contra hnot
    push Not at hnot
    exact amountToString_writes_behind amount decimals ticker hnot.1 hnot.2 (hframe _ _ hnot.2)
  · intro hcases out i hi
    by_cases hsize : amountSize.toNat ≤ int256Length
    · have hfront := hcases.resolve_left (by omega)
      by_cases hroom : amountRoom amount decimals ticker amountSize < outSize
      · obtain ⟨rest, heq, hlen⟩ := amountToString_of_room out hsize hout hroom
        rw [heq]
        dsimp only
        rw [CharMem.store_of_ge (by omega), CharMem.set, if_neg (by omega)]
      · rw [amountToString_of_no_room out hsize hout hfront (Nat.le_of_not_lt hroom)]
        dsimp only
        rw [CharMem.store_of_ge (by omega)]
    · rw [amountToString_of_size amount decimals ticker out (Nat.lt_of_not_le hsize)]

theorem amountToString_inBounds_iff_eth :
    (∀ (out : CharMem) (i : ℕ), 4 ≤ i →
        (amountToString (fun _ => 15) 1 1 "ETH".toList out 4).1 i = out i) ↔
      int256Length < (1 : UInt8).toNat ∨ (amountPrefix "ETH".toList).length < 4 :=
  amountToString_inBounds_iff (fun _ => 15) 1 1 "ETH".toList (by decide)

end OriginDefi
