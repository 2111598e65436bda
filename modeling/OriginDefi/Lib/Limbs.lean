import Mathlib.Data.Nat.Digits.Lemmas
import Mathlib.Tactic

/-!
# Short division of long numbers

A long number is a list of limbs to a base, the most significant first.  `shortDiv` divides it by a
small number in one pass, carrying the remainder from limb to limb.

* `value`: the number of a list of limbs;
* `shortDiv_spec`: **the pass computes quotient and remainder**.
-/

namespace Limbs

variable {B d : ℕ}

/-- The number that a list of limbs spells. -/
def value (B : ℕ) (l : List ℕ) : ℕ := Nat.ofDigits B l.reverse

/-- One pass of the division by `d`: the limbs of the quotient, and the remainder. -/
def shortDiv (B d : ℕ) (carry : ℕ) : List ℕ → List ℕ × ℕ
  | [] => ([], carry)
  | n :: ns =>
    let rest := shortDiv B d ((carry * B + n) % d) ns
    ((carry * B + n) / d :: rest.1, rest.2)

@[simp] theorem value_nil : value B [] = 0 := rfl

theorem value_cons (n : ℕ) (l : List ℕ) : value B (n :: l) = n * B ^ l.length + value B l := by
  rw [value, Nat.ofDigits_reverse_cons, value]
  ring

theorem value_concat (l : List ℕ) (n : ℕ) : value B (l ++ [n]) = B * value B l + n := by
  rw [value, List.reverse_append, List.reverse_singleton, List.singleton_append, Nat.ofDigits_cons,
    value, Nat.add_comm]

theorem value_eq_zero {l : List ℕ} (h : ∀ n ∈ l, n = 0) : value B l = 0 := by
  induction l with
  | nil => rfl
  | cons n l ih =>
    rw [value_cons, h n (by simp), ih fun k hk => h k (by simp [hk]), Nat.zero_mul]

/-- A number is zero only if all its limbs are. -/
theorem eq_zero_of_value {l : List ℕ} (hB : 0 < B) (h : value B l = 0) : ∀ n ∈ l, n = 0 := by
  induction l with
  | nil => simp
  | cons n l ih =>
    rw [value_cons] at h
    have hpow : 0 < B ^ l.length := Nat.pow_pos hB
    obtain ⟨hn, hl⟩ := Nat.add_eq_zero_iff.mp h
    intro k hk
    rcases List.mem_cons.mp hk with rfl | hk
    · exact (Nat.mul_eq_zero.mp hn).resolve_right (by omega)
    · exact ih hl k hk

@[simp] theorem length_shortDiv (carry : ℕ) (l : List ℕ) :
    (shortDiv B d carry l).1.length = l.length := by
  induction l generalizing carry with
  | nil => rfl
  | cons n l ih => simp [shortDiv, ih]

theorem shortDiv_remainder_lt (hd : 0 < d) {carry : ℕ} (hcarry : carry < d) (l : List ℕ) :
    (shortDiv B d carry l).2 < d := by
  induction l generalizing carry with
  | nil => exact hcarry
  | cons n l ih => exact ih (Nat.mod_lt _ hd)

/-- The pass, with the carry in front of the limbs. -/
theorem shortDiv_value (carry : ℕ) (l : List ℕ) :
    carry * B ^ l.length + value B l =
      d * value B (shortDiv B d carry l).1 + (shortDiv B d carry l).2 := by
  induction l generalizing carry with
  | nil => simp [shortDiv]
  | cons n l ih =>
    have hdiv := Nat.div_add_mod (carry * B + n) d
    have hrest := ih ((carry * B + n) % d)
    simp only [shortDiv, value_cons, List.length_cons, length_shortDiv]
    calc carry * B ^ (l.length + 1) + (n * B ^ l.length + value B l)
        = (carry * B + n) * B ^ l.length + value B l := by ring
      _ = d * ((carry * B + n) / d) * B ^ l.length
          + ((carry * B + n) % d * B ^ l.length + value B l) := by
            rw [← Nat.add_assoc, ← Nat.add_mul, hdiv]
      _ = _ := by rw [hrest]; ring

/-- **Short division.** -/
theorem shortDiv_spec (hd : 0 < d) (l : List ℕ) :
    value B (shortDiv B d 0 l).1 = value B l / d ∧ (shortDiv B d 0 l).2 = value B l % d := by
  have hlt := shortDiv_remainder_lt (B := B) hd hd l
  have hvalue := shortDiv_value (B := B) (d := d) 0 l
  rw [Nat.zero_mul, Nat.zero_add] at hvalue
  constructor
  · rw [hvalue, Nat.mul_add_div hd, Nat.div_eq_of_lt hlt, Nat.add_zero]
  · rw [hvalue, Nat.mul_add_mod, Nat.mod_eq_of_lt hlt]

end Limbs
