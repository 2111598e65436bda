import Mathlib.Data.List.DropRight
import Mathlib.Data.List.GetD
import Mathlib.Data.List.Induction
import Mathlib.Tactic

/-!
# Character memory

The characters from an address on, as C code sees them through a `char` pointer.

* `store`: the memory after a list of characters was written, one after the other;
* `load`: the characters at a range of indices;
* `cstring`: the string that a buffer holds, its characters before the first NUL;
* `copy`, `fill`: the loops `while (n--) dst[o++] = src[s++]` and `while (n--) dst[o++] = c`;
* `shift`, `paste`: the memory seen through a pointer into the buffer, and back;
* `trailing`: the loop that looks for the first character of a trailing run;
* `swapLoop`: the loop that turns a range around.

Every loop comes with a lemma that says what it stored.  A store is also a frame condition: it
leaves everything outside its range alone (`store_of_lt`, `store_of_ge`).
-/

/-- The NUL character. -/
def nul : Char := Char.ofNat 0

/-- The characters from the address of a buffer on. -/
abbrev CharMem := ℕ → Char

namespace CharMem

variable (m : CharMem)

/-- `m[i] = c` -/
def set (i : ℕ) (c : Char) : CharMem := fun j => if j = i then c else m j

/-- The memory after the characters of `l` were written from index `o` on. -/
def store (o : ℕ) (l : List Char) : CharMem := fun i =>
  if o ≤ i then l.getD (i - o) (m i) else m i

/-- The `n` characters from index `o` on. -/
def load (o n : ℕ) : List Char := (List.range n).map fun i => m (o + i)

/-- The string in a buffer of `n` characters; its length is `strnlen(m, n)`. -/
def cstring (n : ℕ) : List Char := (m.load 0 n).takeWhile (· ≠ nul)

/-- The memory seen through the pointer `m + k`. -/
def shift (k : ℕ) : CharMem := fun i => m (k + i)

/-- The memory `m` after what was seen through the pointer `m + k` has become `t`. -/
def paste (k : ℕ) (t : CharMem) : CharMem := fun i => if k ≤ i then t (i - k) else m i

/-- `strlcpy(m, src, size)`: at most `size - 1` characters and a NUL. -/
def strlcpy (src : List Char) (size : ℕ) : CharMem :=
  if size = 0 then m else m.store 0 (src.take (size - 1) ++ [nul])

/-- `strlcat(m, src, size)`: the same behind the string that is there already. -/
def strlcat (src : List Char) (size : ℕ) : CharMem :=
  let length := (m.cstring size).length
  if size = length then m else m.store length (src.take (size - length - 1) ++ [nul])

/-- `while (n--) dst[o++] = src[s++]` -/
def copy (src : CharMem) (s : ℕ) (dst : CharMem) (o : ℕ) : ℕ → CharMem
  | 0 => dst
  | n + 1 => copy src (s + 1) (dst.set o (src s)) (o + 1) n

/-- `while (n--) dst[o++] = c` -/
def fill (c : Char) (dst : CharMem) (o : ℕ) : ℕ → CharMem
  | 0 => dst
  | n + 1 => fill c (dst.set o c) (o + 1) n

/-! ### Stores -/

variable {m}

theorem store_of_lt {o i : ℕ} {l : List Char} (h : i < o) : m.store o l i = m i := by
  rw [store, if_neg (by omega)]

theorem store_of_ge {o i : ℕ} {l : List Char} (h : o + l.length ≤ i) : m.store o l i = m i := by
  unfold store
  split_ifs
  · rw [List.getD_eq_default _ _ (by omega)]
  · rfl

theorem store_add {o i : ℕ} {l : List Char} (h : i < l.length) : m.store o l (o + i) = l[i] := by
  rw [store, if_pos (by omega), Nat.add_sub_cancel_left, List.getD_eq_getElem _ _ h]

variable (m)

@[simp] theorem store_nil (o : ℕ) : m.store o [] = m := by
  funext i
  simp [store]

theorem set_eq_store (i : ℕ) (c : Char) : m.set i c = m.store i [c] := by
  funext j
  by_cases hj : j = i
  · subst hj
    simp [set, store]
  · rcases Nat.lt_or_gt_of_ne hj with h | h
    · rw [store_of_lt h, set, if_neg hj]
    · rw [store_of_ge (by simpa using h), set, if_neg hj]

/-- A store right behind another one makes it longer. -/
theorem store_append (o : ℕ) (l l' : List Char) :
    (m.store o l).store (o + l.length) l' = m.store o (l ++ l') := by
  funext i
  by_cases hlo : i < o
  · rw [store_of_lt (by omega), store_of_lt hlo, store_of_lt hlo]
  obtain ⟨j, rfl⟩ := Nat.exists_eq_add_of_le (Nat.le_of_not_lt hlo)
  by_cases hj : j < l.length
  · rw [store_of_lt (by omega), store_add hj, store_add (by simp; omega),
      List.getElem_append_left hj]
  obtain ⟨k, rfl⟩ := Nat.exists_eq_add_of_le (Nat.le_of_not_lt hj)
  by_cases hk : k < l'.length
  · rw [← Nat.add_assoc, store_add hk, Nat.add_assoc, store_add (by simp; omega),
      List.getElem_append_right (by omega)]
    simp
  · rw [store_of_ge (by omega), store_of_ge (by omega), store_of_ge (by simp; omega)]

/-- The order of two adjacent stores does not matter. -/
theorem store_prepend (o : ℕ) (l l' : List Char) :
    (m.store (o + l.length) l').store o l = m.store o (l ++ l') := by
  rw [← store_append]
  funext i
  by_cases h : o ≤ i ∧ i < o + l.length
  · obtain ⟨j, rfl⟩ := Nat.exists_eq_add_of_le h.1
    rw [store_of_lt (show o + j < o + l.length by omega), store_add (by omega), store_add (by omega)]
  · by_cases hlo : i < o
    · rw [store_of_lt hlo, store_of_lt (by omega), store_of_lt (by omega), store_of_lt hlo]
    · have heq : m.store o l i = m i := store_of_ge (by omega)
      rw [store_of_ge (by omega), store, store, heq]

theorem store_set (o : ℕ) (l : List Char) (c : Char) :
    (m.store o l).set (o + l.length) c = m.store o (l ++ [c]) := by
  rw [set_eq_store, store_append]

/-- A store right in front of another one makes it longer. -/
theorem set_store (o : ℕ) (l : List Char) (c : Char) :
    (m.set o c).store (o + 1) l = m.store o (c :: l) := by
  rw [set_eq_store]
  exact store_append m o [c] l

/-- Writing behind a store. -/
theorem store_set_behind {o j : ℕ} {l : List Char} (h : o + l.length ≤ j) (c : Char) :
    (m.store o l).set j c = (m.set j c).store o l := by
  funext i
  by_cases hin : o ≤ i ∧ i < o + l.length
  · obtain ⟨k, rfl⟩ := Nat.exists_eq_add_of_le hin.1
    rw [set, if_neg (by omega), store_add (by omega), store_add (by omega)]
  · have hout : ∀ m' : CharMem, m'.store o l i = m' i := fun m' => by
      by_cases hlo : i < o
      · exact store_of_lt hlo
      · exact store_of_ge (by omega)
    rw [set, hout, hout, set]

/-- Overwriting one character of a store. -/
theorem store_set_inside {o i : ℕ} {l : List Char} (hi : i < l.length) (c : Char) :
    (m.store o l).set (o + i) c = m.store o (l.set i c) := by
  funext j
  by_cases hlo : j < o
  · rw [set, if_neg (by omega), store_of_lt hlo, store_of_lt hlo]
  obtain ⟨k, rfl⟩ := Nat.exists_eq_add_of_le (Nat.le_of_not_lt hlo)
  by_cases hk : k < l.length
  · rw [store_add (by simpa using hk), List.getElem_set, set]
    by_cases heq : i = k
    · rw [if_pos (by omega), if_pos heq]
    · rw [if_neg (by omega), if_neg heq, store_add hk]
  · rw [set, if_neg (by omega), store_of_ge (by omega), store_of_ge (by simp; omega)]

/-- Overwriting the character behind the first `a.length` of a store. -/
theorem store_set_middle (a b : List Char) (x c : Char) :
    (m.store 0 (a ++ x :: b)).set a.length c = m.store 0 (a ++ c :: b) := by
  have h := store_set_inside m (o := 0) (i := a.length) (l := a ++ x :: b) (by simp) c
  rw [Nat.zero_add] at h
  rw [h]
  simp

/-- Reading the character behind the first `a.length` of a store. -/
theorem store_middle (a b : List Char) (x : Char) : m.store 0 (a ++ x :: b) a.length = x := by
  have h := store_add (m := m) (o := 0) (i := a.length) (l := a ++ x :: b) (by simp)
  rw [Nat.zero_add] at h
  rw [h]
  simp

/-! ### Loads and strings -/

@[simp] theorem length_load (o n : ℕ) : (m.load o n).length = n := by simp [load]

theorem load_zero (o : ℕ) : m.load o 0 = [] := rfl

theorem load_succ (o n : ℕ) : m.load o (n + 1) = m o :: m.load (o + 1) n := by
  simp only [load, List.range_succ_eq_map, List.map_cons, List.map_map, Nat.add_zero]
  congr 1
  refine List.map_congr_left fun i _ => ?_
  simp only [Function.comp_apply]
  congr 1
  omega

theorem load_add (o a b : ℕ) : m.load o (a + b) = m.load o a ++ m.load (o + a) b := by
  simp only [load, List.range_add, List.map_append, List.map_map]
  congr 1
  refine List.map_congr_left fun i _ => ?_
  simp only [Function.comp_apply, Nat.add_assoc]

/-- What was stored is loaded. -/
theorem load_store (o : ℕ) (l : List Char) : (m.store o l).load o l.length = l := by
  refine List.ext_getElem (by simp) fun i h1 h2 => ?_
  simp only [load, List.getElem_map, List.getElem_range]
  exact store_add h2

theorem load_congr {m m' : CharMem} {o n : ℕ} (h : ∀ i, o ≤ i → i < o + n → m i = m' i) :
    m.load o n = m'.load o n := by
  refine List.map_congr_left fun i hi => h (o + i) (by omega) ?_
  simpa using List.mem_range.mp hi

/-- Loading a part of what was stored. -/
theorem load_store_inside (o : ℕ) (a l b : List Char) :
    (m.store o (a ++ l ++ b)).load (o + a.length) l.length = l := by
  rw [← store_append, ← store_append]
  refine Eq.trans (load_congr fun i _ hi => store_of_lt ?_) (load_store _ _ l)
  simp only [List.length_append]
  omega

/-- The string of a buffer that starts with a list with a NUL in it. -/
theorem cstring_store_of_mem {l : List Char} {n : ℕ} (hl : nul ∈ l) (hn : l.length ≤ n) :
    (m.store 0 l).cstring n = l.takeWhile (· ≠ nul) := by
  obtain ⟨k, rfl⟩ := Nat.exists_eq_add_of_le hn
  rw [cstring, load_add, load_store, List.takeWhile_append, if_neg]
  intro hlen
  have hfront : l.takeWhile (· ≠ nul) <+: l := List.takeWhile_prefix _
  have hall := List.takeWhile_eq_self_iff.mp (hfront.eq_of_length hlen)
  simpa using hall nul hl

theorem strlcpy_of_lt {src : List Char} {size : ℕ} (h : src.length < size) :
    m.strlcpy src size = m.store 0 (src ++ [nul]) := by
  have hsize : size ≠ 0 := by omega
  rw [strlcpy, if_neg hsize, List.take_of_length_le (by omega)]

/-- `strlcpy` stays inside its buffer. -/
theorem strlcpy_frame (src : List Char) {size i : ℕ} (h : size ≤ i) :
    m.strlcpy src size i = m i := by
  unfold strlcpy
  split_ifs with hsize
  · rfl
  · refine store_of_ge ?_
    rw [List.length_append, List.length_take, List.length_singleton]
    omega

theorem takeWhile_nul {t rest : List Char} (ht : nul ∉ t) :
    (t ++ nul :: rest).takeWhile (· ≠ nul) = t := by
  rw [List.takeWhile_append_of_pos]
  · simp
  · intro c hc
    have : c ≠ nul := fun h => ht (h ▸ hc)
    simpa using this

/-- The string of a buffer that starts with `t` and a NUL. -/
theorem cstring_store {t rest : List Char} {n : ℕ} (ht : nul ∉ t)
    (hn : (t ++ nul :: rest).length ≤ n) : (m.store 0 (t ++ nul :: rest)).cstring n = t := by
  rw [cstring_store_of_mem m (by simp) hn, takeWhile_nul ht]

/-- The string of a buffer with nothing behind its NUL. -/
theorem cstring_store_nul {t : List Char} {n : ℕ} (ht : nul ∉ t) (hn : t.length < n) :
    (m.store 0 (t ++ [nul])).cstring n = t :=
  cstring_store m ht (by simpa using hn)

/-- The string that `strlcpy` leaves. -/
theorem cstring_strlcpy {src : List Char} (hsrc : nul ∉ src) (size : ℕ) :
    (m.strlcpy src size).cstring size = src.take (size - 1) := by
  by_cases hsize : size = 0
  · rw [hsize]
    rfl
  · rw [strlcpy, if_neg hsize]
    refine cstring_store_nul m (fun hmem => hsrc (List.mem_of_mem_take hmem)) ?_
    rw [List.length_take]
    omega

/-- Writing over the NUL of a string. -/
theorem store_store_nul (t : List Char) (c d : Char) (l : List Char) :
    (m.store 0 (t ++ [c])).store t.length (d :: l) = m.store 0 (t ++ d :: l) := by
  have hset := store_set m 0 t c
  have hset' := store_set m 0 t d
  have happend := store_append m 0 (t ++ [d]) l
  rw [Nat.zero_add] at hset hset' happend
  have htwice : ((m.store 0 t).set t.length c).set t.length d = (m.store 0 t).set t.length d := by
    funext i
    unfold set
    split_ifs <;> rfl
  rw [List.length_append, List.length_singleton] at happend
  rw [← hset, ← set_store, htwice, hset', happend, List.append_assoc]
  rfl

/-- Appending to the empty string. -/
theorem strlcat_of_nul {l : List Char} {n : ℕ} (h0 : m 0 = nul) (hn : l.length < n) :
    m.strlcat l n = m.store 0 (l ++ [nul]) := by
  obtain ⟨k, rfl⟩ : ∃ k, n = k + 1 := ⟨n - 1, by omega⟩
  have hempty : m.cstring (k + 1) = [] := by
    rw [cstring, load_succ, h0]
    simp
  rw [strlcat, hempty, List.length_nil, if_neg (by simp), List.take_of_length_le (by omega)]

/-! ### Loops -/

theorem copy_eq (src : CharMem) (s : ℕ) (dst : CharMem) (o n : ℕ) :
    copy src s dst o n = dst.store o (src.load s n) := by
  induction n generalizing s dst o with
  | zero => simp [copy, load_zero]
  | succ n ih => rw [copy, ih, load_succ, set_store]

theorem fill_eq (c : Char) (dst : CharMem) (o n : ℕ) :
    fill c dst o n = dst.store o (List.replicate n c) := by
  induction n generalizing dst o with
  | zero => simp [fill]
  | succ n ih => rw [fill, ih, List.replicate_succ, set_store]

/-! ### Pointers into a buffer -/

theorem paste_shift_store (k o : ℕ) (l : List Char) :
    m.paste k ((m.shift k).store o l) = m.store (k + o) l := by
  funext i
  by_cases hk : i < k
  · rw [paste, if_neg (by omega), store_of_lt (by omega)]
  obtain ⟨j, rfl⟩ := Nat.exists_eq_add_of_le (Nat.le_of_not_lt hk)
  rw [paste, if_pos (by omega), Nat.add_sub_cancel_left, store, store, shift]
  by_cases ho : o ≤ j
  · rw [if_pos ho, if_pos (by omega), Nat.add_sub_add_left]
  · rw [if_neg ho, if_neg (by omega)]

theorem paste_shift (k : ℕ) : m.paste k (m.shift k) = m := by
  simpa using paste_shift_store m k 0 []

end CharMem

/-! ### The first character of a trailing run -/

/-- Where the trailing run of `c` in `m[i .. i + n)` starts: zero stands for none, which is the
value of the variable before the loop and after a character other than `c`. -/
def CharMem.trailing (m : CharMem) (c : Char) (last i : ℕ) : ℕ → ℕ
  | 0 => last
  | n + 1 =>
    trailing m c (if m i = c then (if last = 0 then i else last) else 0) (i + 1) n

/-- The last round of the loop. -/
theorem CharMem.trailing_succ (m : CharMem) (c : Char) (last i n : ℕ) :
    m.trailing c last i (n + 1) =
      if m (i + n) = c then
        (if m.trailing c last i n = 0 then i + n else m.trailing c last i n)
      else 0 := by
  induction n generalizing last i with
  | zero => rfl
  | succ n ih =>
    rw [trailing, ih, show i + 1 + n = i + (n + 1) by omega]
    rfl

/-- **The loop finds the trailing run.**  `rdropWhile` is what stands in front of it. -/
theorem CharMem.trailing_eq (m : CharMem) (c : Char) {i : ℕ} (hi : 0 < i) (n : ℕ) :
    m.trailing c 0 i n =
      if (m.load i n).getLast? = some c then i + ((m.load i n).rdropWhile (· = c)).length
      else 0 := by
  induction n with
  | zero => rfl
  | succ n ih =>
    have hload : m.load i (n + 1) = m.load i n ++ [m (i + n)] := by
      rw [load_add, load_succ, load_zero]
    rw [trailing_succ, ih, hload, List.getLast?_append, List.rdropWhile_concat]
    by_cases hc : m (i + n) = c
    · simp only [hc, List.getLast?_singleton, Option.some_or, if_true, decide_true]
      by_cases hlast : (m.load i n).getLast? = some c
      · rw [if_pos hlast, if_neg (by omega)]
      · have hself : (m.load i n).rdropWhile (· = c) = m.load i n := by
          refine List.rdropWhile_eq_self_iff.mpr fun hne heq => hlast ?_
          rw [List.getLast?_eq_some_getLast hne, of_decide_eq_true heq]
        rw [if_neg hlast, if_pos rfl, hself, length_load]
    · simp [hc]

/-! ### Turning a range around -/

/-- `while (j < i) { swap(m[i], m[j]); i--; j++; }` -/
def CharMem.swapLoop (m : CharMem) (j i : ℕ) : CharMem :=
  if j < i then ((m.set i (m j)).set j (m i)).swapLoop (j + 1) (i - 1) else m
termination_by i - j

/-- The exchange of the first and the last character of a store. -/
theorem CharMem.swap_store (m : CharMem) (o : ℕ) (a b : Char) (l : List Char) :
    let s := m.store o (a :: (l ++ [b]))
    (s.set (o + l.length + 1) (s o)).set o (s (o + l.length + 1)) =
      m.store o (b :: (l ++ [a])) := by
  intro s
  have hfirst : s o = a := by
    have := store_add (m := m) (o := o) (i := 0) (l := a :: (l ++ [b])) (by simp)
    simpa using this
  have hlast : s (o + l.length + 1) = b := by
    have := store_add (m := m) (o := o) (i := l.length + 1) (l := a :: (l ++ [b])) (by simp)
    rw [← Nat.add_assoc] at this
    rw [show s (o + l.length + 1) = _ from this]
    simp
  have h1 := store_set_inside m (o := o) (i := l.length + 1) (l := a :: (l ++ [b])) (by simp) a
  have h2 := store_set_inside m (o := o) (i := 0)
    (l := (a :: (l ++ [b])).set (l.length + 1) a) (by simp) b
  rw [← Nat.add_assoc] at h1
  simp only [Nat.add_zero] at h2
  rw [hfirst, hlast, h1, h2]
  simp

/-- A store between two characters. -/
theorem CharMem.store_between (m : CharMem) (o : ℕ) (b a : Char) (l : List Char) :
    ((m.set o b).set (o + l.length + 1) a).store (o + 1) l = m.store o (b :: (l ++ [a])) := by
  rw [show o + l.length + 1 = o + 1 + l.length by omega, set_eq_store, store_prepend, set_store]

/-- **The loop reverses the range.** -/
theorem CharMem.swapLoop_store (m : CharMem) (o : ℕ) (l : List Char) :
    (m.store o l).swapLoop o (o + l.length - 1) = m.store o l.reverse := by
  induction l using List.bidirectionalRec generalizing m o with
  | nil => rw [swapLoop, if_neg (by simp)]; rfl
  | singleton a => rw [swapLoop, if_neg (by simp)]; rfl
  | cons_append a l b ih =>
    have hi : o + (a :: (l ++ [b])).length - 1 = o + l.length + 1 := by
      simp
      omega
    rw [hi, swapLoop, if_pos (by omega), swap_store]
    -- the rest of the loop works on what is stored between the two
    have hindex : o + l.length + 1 - 1 = o + 1 + l.length - 1 := by omega
    have hbetween := store_between m o b a l.reverse
    rw [List.length_reverse] at hbetween
    rw [← store_between, hindex, ih, hbetween, List.reverse_cons, List.reverse_append]
    rfl
