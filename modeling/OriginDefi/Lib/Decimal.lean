import Mathlib.Data.List.DropRight
import Mathlib.Data.Nat.Digits.Lemmas
import Mathlib.Tactic

/-!
# Decimal texts

A decimal text has a whole part and, behind a point, an optional fraction.  `DecimalText` carries
its canonical form as fields: both parts are digits, the whole part has no leading zero and the
fraction no trailing one.

* `ofDigitChars_inj_of_length_eq`: digit strings of one length are told apart by their numbers;
* `DecimalText.value_injective`: **a number has at most one canonical text**;
* `DecimalText.read_text`: reading a canonical text back gives its number;
* `DecimalText.scaled`: the canonical text of `n / 10 ^ d`.

The digit strings of natural numbers and their values are `Nat.toDigits` and `Nat.ofDigitChars`.
-/

/-! ### Digit strings -/

/-- Every character is a decimal digit. -/
def IsDigits (l : List Char) : Prop := ∀ c ∈ l, c.isDigit

/-- The number that a digit string spells. -/
def digitsValue (l : List Char) : ℕ := Nat.ofDigitChars 10 l 0

theorem IsDigits.append {a b : List Char} (ha : IsDigits a) (hb : IsDigits b) :
    IsDigits (a ++ b) := by
  intro c hc
  rcases List.mem_append.mp hc with h | h
  · exact ha c h
  · exact hb c h

theorem IsDigits.subset {a b : List Char} (hb : IsDigits b) (h : a ⊆ b) : IsDigits a :=
  fun c hc => hb c (h hc)

theorem isDigits_replicate (n : ℕ) : IsDigits (List.replicate n '0') := by
  intro c hc
  rw [List.eq_of_mem_replicate hc]
  rfl

theorem isDigits_toDigits (n : ℕ) : IsDigits (Nat.toDigits 10 n) := fun _ hc =>
  Nat.isDigit_of_mem_toDigits (by decide) (by decide) hc

theorem isDigit_toNat {c : Char} (h : c.isDigit) : 48 ≤ c.toNat ∧ c.toNat ≤ 57 := by
  simp only [Char.isDigit, Bool.and_eq_true, decide_eq_true_eq, ge_iff_le] at h
  exact ⟨UInt32.le_iff_toNat_le.mp h.1, UInt32.le_iff_toNat_le.mp h.2⟩

theorem digitsValue_append (a b : List Char) :
    digitsValue (a ++ b) = 10 ^ b.length * digitsValue a + digitsValue b := by
  rw [digitsValue, Nat.ofDigitChars_append, Nat.ofDigitChars_eq_ofDigitChars_zero]
  rfl

theorem digitsValue_singleton (c : Char) : digitsValue [c] = c.toNat - 48 := by
  simp [digitsValue, Nat.ofDigitChars_cons]

@[simp] theorem digitsValue_nil : digitsValue [] = 0 := by simp [digitsValue]

@[simp] theorem digitsValue_replicate (n : ℕ) : digitsValue (List.replicate n '0') = 0 := by
  simp [digitsValue]

@[simp] theorem digitsValue_toDigits (n : ℕ) : digitsValue (Nat.toDigits 10 n) = n :=
  Nat.ofDigitChars_ten_toDigits

theorem digitsValue_concat (l : List Char) (c : Char) :
    digitsValue (l ++ [c]) = 10 * digitsValue l + (c.toNat - 48) := by
  rw [digitsValue_append, digitsValue_singleton, List.length_singleton, pow_one]

theorem digitsValue_lt {l : List Char} (hl : IsDigits l) : digitsValue l < 10 ^ l.length := by
  induction l using List.reverseRecOn with
  | nil => simp
  | append_singleton l c ih =>
    have hc := isDigit_toNat (hl c (by simp))
    have hv := ih (hl.subset (List.subset_append_left _ _))
    rw [digitsValue_concat, List.length_append, List.length_singleton, pow_succ]
    omega

/-- **Digit strings of one length are told apart by their numbers.** -/
theorem digitsValue_inj_of_length_eq {a b : List Char} (ha : IsDigits a) (hb : IsDigits b)
    (hlen : a.length = b.length) (h : digitsValue a = digitsValue b) : a = b := by
  induction a using List.reverseRecOn generalizing b with
  | nil => exact (List.length_eq_zero_iff.mp hlen.symm).symm
  | append_singleton a c ih =>
    rcases List.eq_nil_or_concat b with rfl | ⟨b, d, rfl⟩
    · simp at hlen
    have hc := isDigit_toNat (ha c (by simp))
    have hd := isDigit_toNat (hb d (by simp))
    rw [List.concat_eq_append, digitsValue_concat, digitsValue_concat] at h
    have hinit : a = b := by
      refine ih (ha.subset (List.subset_append_left _ _)) (hb.subset (by simp)) ?_ (by omega)
      simpa using hlen
    have hlast : c = d := Char.toNat_inj.mp (by omega)
    rw [hinit, hlast, List.concat_eq_append]

/-- A digit string that does not start with a zero is at least a power of ten. -/
theorem pow_le_digitsValue {c : Char} {l : List Char} (hc : c.isDigit) (h0 : c ≠ '0') :
    10 ^ l.length ≤ digitsValue (c :: l) := by
  have hpos : 1 ≤ c.toNat - 48 := by
    have hrange := isDigit_toNat hc
    have : c.toNat ≠ 48 := fun h => h0 (Char.toNat_inj.mp h)
    omega
  rw [← List.singleton_append, digitsValue_append, digitsValue_singleton]
  exact le_add_right (Nat.le_mul_of_pos_right _ hpos)

/-- A whole number without superfluous digits: no leading zero, unless it is the only digit. -/
structure IsWhole (l : List Char) : Prop where
  digits : IsDigits l
  ne_nil : l ≠ []
  no_leading_zero : l.head? = some '0' → l = ['0']

theorem IsWhole.pow_le {l : List Char} (hl : IsWhole l) (hlen : 1 < l.length) :
    10 ^ (l.length - 1) ≤ digitsValue l := by
  match l, hl, hlen with
  | c :: l, hl, hlen =>
    refine pow_le_digitsValue (hl.digits c (by simp)) fun h0 => ?_
    have := congrArg List.length (hl.no_leading_zero (by rw [h0]; rfl))
    simp only [List.length_cons, List.length_nil] at this hlen
    omega

/-- A whole number has at most one digit string. -/
theorem IsWhole.eq_of_value_eq {a b : List Char} (ha : IsWhole a) (hb : IsWhole b)
    (h : digitsValue a = digitsValue b) : a = b := by
  -- the longer one would be too large
  have hle : ∀ {a b : List Char}, IsWhole a → IsWhole b → digitsValue a = digitsValue b →
      b.length ≤ a.length := by
    intro a b ha hb h
    by_contra hlt
    have hapos := List.length_pos_iff.mpr ha.ne_nil
    have hbig := hb.pow_le (by omega)
    have hsmall := digitsValue_lt ha.digits
    have hpow := Nat.pow_le_pow_right (show 0 < 10 by decide) (show a.length ≤ b.length - 1 by omega)
    omega
  exact digitsValue_inj_of_length_eq ha.digits hb.digits
    (Nat.le_antisymm (hle hb ha h.symm) (hle ha hb h)) h

theorem isWhole_toDigits (n : ℕ) : IsWhole (Nat.toDigits 10 n) where
  digits := isDigits_toDigits n
  ne_nil := Nat.toDigits_ne_nil
  no_leading_zero := by
    induction n using Nat.strong_induction_on with
    | _ n ih =>
      rw [Nat.toDigits_eq_if (by decide)]
      split_ifs with hn
      · intro h
        simpa using h
      · intro h
        rw [List.head?_append_of_ne_nil _ Nat.toDigits_ne_nil] at h
        have hdiv := ih (n / 10) (by omega) h
        have hzero := congrArg digitsValue hdiv
        rw [digitsValue_toDigits, digitsValue_singleton] at hzero
        have : ('0' : Char).toNat = 48 := rfl
        omega

theorem isWhole_zero : IsWhole ['0'] where
  digits := by simp [IsDigits]
  ne_nil := by simp
  no_leading_zero _ := rfl

theorem IsWhole.take {l : List Char} (hl : IsWhole l) {k : ℕ} (hk : 0 < k) :
    IsWhole (l.take k) where
  digits := hl.digits.subset (List.take_subset _ _)
  ne_nil := by simp [hl.ne_nil]; omega
  no_leading_zero h := by
    rw [List.head?_take, if_neg (by omega)] at h
    rw [hl.no_leading_zero h, List.take_of_length_le (by simp; omega)]

/-! ### Texts with a fraction -/

/-- A decimal text in canonical form: a whole part, and a fraction without trailing zeros. -/
structure DecimalText where
  whole : List Char
  frac : List Char
  isWhole : IsWhole whole
  frac_digits : IsDigits frac
  no_trailing_zero : frac.getLast? ≠ some '0'

namespace DecimalText

/-- The characters: the point is there only in front of a fraction. -/
def text (d : DecimalText) : List Char :=
  if d.frac = [] then d.whole else d.whole ++ '.' :: d.frac

/-- The number that a whole part and a fraction spell. -/
def valueOf (whole frac : List Char) : ℚ :=
  digitsValue whole + digitsValue frac / 10 ^ frac.length

/-- The number that a decimal text spells. -/
def value (d : DecimalText) : ℚ := valueOf d.whole d.frac

/-- Any text read as a number: the digits up to the first point, and those behind it. -/
def read (t : List Char) : ℚ :=
  valueOf (t.takeWhile (· ≠ '.')) (t.dropWhile (· ≠ '.')).tail

theorem valueOf_nil (whole : List Char) : valueOf whole [] = digitsValue whole := by
  simp [valueOf]

theorem ne_point {l : List Char} (hl : IsDigits l) : ∀ c ∈ l, decide (c ≠ '.') = true := by
  intro c hc
  refine decide_eq_true fun h => ?_
  have := hl c hc
  rw [h] at this
  exact absurd this (by decide)

/-- **Reading a canonical text back.** -/
theorem read_text (d : DecimalText) : read d.text = d.value := by
  unfold text
  split_ifs with hfrac
  · rw [read, List.takeWhile_eq_self_iff.mpr (ne_point d.isWhole.digits),
      List.dropWhile_eq_nil_iff.mpr (ne_point d.isWhole.digits), value, hfrac, List.tail_nil]
  · rw [read, List.takeWhile_append_of_pos (ne_point d.isWhole.digits),
      List.dropWhile_append_of_pos (ne_point d.isWhole.digits)]
    simp [value]

/-- No character of a text is a blank, a NUL or any other than a digit and the point. -/
theorem mem_text {d : DecimalText} {c : Char} (hc : c ∈ d.text) : c.isDigit ∨ c = '.' := by
  unfold text at hc
  split_ifs at hc
  · exact Or.inl (d.isWhole.digits c hc)
  · rcases List.mem_append.mp hc with h | h
    · exact Or.inl (d.isWhole.digits c h)
    · rcases List.mem_cons.mp h with rfl | h
      · exact Or.inr rfl
      · exact Or.inl (d.frac_digits c h)

theorem text_ne_nil (d : DecimalText) : d.text ≠ [] := by
  unfold text
  split_ifs
  · exact d.isWhole.ne_nil
  · simp

/-! ### Uniqueness -/

theorem fraction_lt_one {l : List Char} (hl : IsDigits l) :
    (digitsValue l / 10 ^ l.length : ℚ) < 1 := by
  rw [div_lt_one (by positivity)]
  exact_mod_cast digitsValue_lt hl

theorem floor_valueOf {whole frac : List Char} (hfrac : IsDigits frac) :
    ⌊valueOf whole frac⌋₊ = digitsValue whole := by
  have h0 : (0 : ℚ) ≤ digitsValue frac / 10 ^ frac.length := by positivity
  have h1 := fraction_lt_one hfrac
  rw [Nat.floor_eq_iff (by unfold valueOf; positivity), valueOf]
  constructor <;> linarith

/-- A digit string whose number is a multiple of ten ends in a zero. -/
theorem getLast_of_dvd {l : List Char} (hl : IsDigits l) (hne : l ≠ [])
    (h : 10 ∣ digitsValue l) : l.getLast? = some '0' := by
  rcases List.eq_nil_or_concat l with rfl | ⟨l, c, rfl⟩
  · exact absurd rfl hne
  rw [List.concat_eq_append] at hl h ⊢
  have hc := isDigit_toNat (hl c (by simp))
  rw [digitsValue_concat] at h
  have hzero : c = '0' := Char.toNat_inj.mp (show c.toNat = 48 by omega)
  rw [hzero, List.getLast?_append, List.getLast?_singleton, Option.some_or]

/-- Equal fractions without trailing zeros have equally many digits. -/
theorem length_le_of_fraction_eq {a b : List Char} (hb : IsDigits b)
    (hlast : b.getLast? ≠ some '0')
    (h : (digitsValue a / 10 ^ a.length : ℚ) = digitsValue b / 10 ^ b.length) :
    b.length ≤ a.length := by
  by_contra hlt
  obtain ⟨k, hk⟩ : ∃ k, b.length = a.length + (k + 1) :=
    ⟨b.length - a.length - 1, by omega⟩
  refine hlast (getLast_of_dvd hb ?_ ?_)
  · intro hnil
    rw [hnil] at hk
    simp at hk
  · rw [hk, div_eq_div_iff (by positivity) (by positivity), pow_add, ← mul_assoc,
      mul_right_comm, mul_left_inj' (by positivity)] at h
    have hnat : digitsValue a * 10 ^ (k + 1) = digitsValue b := by exact_mod_cast h
    exact ⟨digitsValue a * 10 ^ k, by rw [← hnat, pow_succ]; ring⟩

/-- **A number has at most one canonical text.** -/
theorem value_injective : Function.Injective value := by
  intro a b h
  have hwhole : a.whole = b.whole := by
    refine a.isWhole.eq_of_value_eq b.isWhole ?_
    rw [← floor_valueOf a.frac_digits, ← floor_valueOf b.frac_digits]
    exact congrArg Nat.floor h
  have hfraction : (digitsValue a.frac / 10 ^ a.frac.length : ℚ) =
      digitsValue b.frac / 10 ^ b.frac.length := by
    have h' : valueOf a.whole a.frac = valueOf b.whole b.frac := h
    rw [valueOf, valueOf, hwhole] at h'
    linarith
  have hlen : a.frac.length = b.frac.length :=
    Nat.le_antisymm (length_le_of_fraction_eq a.frac_digits a.no_trailing_zero hfraction.symm)
      (length_le_of_fraction_eq b.frac_digits b.no_trailing_zero hfraction)
  have hfrac : a.frac = b.frac := by
    refine digitsValue_inj_of_length_eq a.frac_digits b.frac_digits hlen ?_
    rw [hlen, div_left_inj' (by positivity)] at hfraction
    exact_mod_cast hfraction
  cases a
  cases b
  simp_all

/-! ### Moving the point -/

/-- Trailing zeros do not change a fraction. -/
theorem fraction_rdropWhile (l : List Char) :
    (digitsValue (l.rdropWhile (· = '0')) / 10 ^ (l.rdropWhile (· = '0')).length : ℚ) =
      digitsValue l / 10 ^ l.length := by
  induction l using List.reverseRecOn with
  | nil => simp
  | append_singleton l c ih =>
    by_cases hc : c = '0'
    · subst hc
      rw [List.rdropWhile_concat_pos _ _ _ (by simp), ih, digitsValue_concat]
      have h48 : ('0' : Char).toNat - 48 = 0 := rfl
      rw [h48, Nat.add_zero, List.length_append, List.length_singleton, pow_succ', Nat.cast_mul,
        Nat.cast_ofNat, mul_div_mul_left _ _ (by norm_num)]
    · rw [List.rdropWhile_concat_neg _ _ _ (by simpa using hc)]

/-- A whole part and a fraction, whose trailing zeros are dropped. -/
def strip (whole frac : List Char) (hwhole : IsWhole whole) (hfrac : IsDigits frac) :
    DecimalText where
  whole := whole
  frac := frac.rdropWhile (· = '0')
  isWhole := hwhole
  frac_digits := by
    have hfront : frac.rdropWhile (· = '0') <+: frac := List.rdropWhile_prefix _ _
    exact hfrac.subset hfront.subset
  no_trailing_zero := by
    intro h
    have hne : frac.rdropWhile (· = '0') ≠ [] := fun hnil => by rw [hnil] at h; simp at h
    have hlast := List.rdropWhile_last_not _ _ hne
    rw [List.getLast?_eq_some_getLast hne, Option.some_inj] at h
    exact hlast (decide_eq_true h)

theorem value_strip {whole frac : List Char} (hwhole : IsWhole whole) (hfrac : IsDigits frac) :
    (strip whole frac hwhole hfrac).value = valueOf whole frac := by
  rw [value, valueOf, valueOf]
  exact congrArg _ (fraction_rdropWhile frac)

/-- Cutting a digit string in front of its last digits divides it by a power of ten. -/
theorem valueOf_cut (whole frac : List Char) :
    valueOf whole frac = digitsValue (whole ++ frac) / 10 ^ frac.length := by
  have : (10 : ℚ) ^ frac.length ≠ 0 := by positivity
  rw [valueOf, digitsValue_append]
  push_cast
  field_simp

/-- The canonical text of `n / 10 ^ d`: the digits of `n` with the point `d` places to the left. -/
def scaled (n d : ℕ) : DecimalText :=
  let l := Nat.toDigits 10 n
  if h : l.length ≤ d then
    strip ['0'] (List.replicate (d - l.length) '0' ++ l) isWhole_zero
      ((isDigits_replicate _).append (isDigits_toDigits n))
  else
    strip (l.take (l.length - d)) (l.drop (l.length - d))
      (IsWhole.take (isWhole_toDigits n) (by omega))
      ((isDigits_toDigits n).subset (List.drop_subset _ _))

theorem value_scaled (n d : ℕ) : (scaled n d).value = n / 10 ^ d := by
  simp only [scaled]
  split_ifs with h
  · rw [value_strip, valueOf_cut, ← List.append_assoc, digitsValue_append, digitsValue_toDigits]
    have hzero : digitsValue (['0'] ++ List.replicate (d - (Nat.toDigits 10 n).length) '0') = 0 :=
      digitsValue_replicate (d - (Nat.toDigits 10 n).length + 1)
    rw [hzero, Nat.mul_zero, Nat.zero_add, List.length_append, List.length_replicate,
      Nat.sub_add_cancel h]
  · rw [value_strip, valueOf_cut, List.take_append_drop, digitsValue_toDigits, List.length_drop,
      Nat.sub_sub_self (by omega)]

theorem text_scaled_zero (d : ℕ) : (scaled 0 d).text = ['0'] := by
  have h : scaled 0 d = strip ['0'] [] isWhole_zero (isDigits_replicate 0) := by
    refine value_injective ?_
    rw [value_scaled, value_strip, valueOf_nil, digitsValue_singleton]
    simp
  rw [h]
  rfl

/-- Fewer digits than places. -/
theorem scaled_of_le {n d : ℕ} (h : (Nat.toDigits 10 n).length ≤ d) :
    scaled n d =
      strip ['0'] (List.replicate (d - (Nat.toDigits 10 n).length) '0' ++ Nat.toDigits 10 n)
        isWhole_zero ((isDigits_replicate _).append (isDigits_toDigits n)) := by
  simp only [scaled]
  rw [dif_pos h]

/-- More digits than places. -/
theorem scaled_of_lt {n d : ℕ} (h : d < (Nat.toDigits 10 n).length) :
    scaled n d =
      strip ((Nat.toDigits 10 n).take ((Nat.toDigits 10 n).length - d))
        ((Nat.toDigits 10 n).drop ((Nat.toDigits 10 n).length - d))
        ((isWhole_toDigits n).take (by omega))
        ((isDigits_toDigits n).subset (List.drop_subset _ _)) := by
  simp only [scaled]
  rw [dif_neg (by omega)]

end DecimalText
