import Mathlib.Tactic

/-!
# Deterministic machines with outputs

A machine reads a list of inputs one at a time; each input moves the state and produces an output.

* `run`, `outputs`: the final state and the outputs of a list of inputs;
* `run_invariant`, `outputs_invariant`: what every step keeps, every run keeps, and what holds of
  the output of every step taken inside the invariant holds of every output of a run;
* `run_map`, `run_simulation`: a run of one machine follows the renamed, or the selected, inputs in
  another;
* `exists_cut`: cutting an input list at an index, to run its segments one after the other;
* `outputs_eq_map`: if the outputs depend only on what the steps leave alone, then each output of a
  run is the output its input would have had in the initial state;
* `outputs_flatMap`, `run_flatMap`: blocks of inputs that do not see the state before them are run
  one by one;
* `run_filter`, `outputs_filter`: inputs that leave the state alone may be dropped.
-/

/-- A machine with states `σ`, inputs `ι` and outputs `ο`. -/
structure Machine (σ ι ο : Type*) where
  step : σ → ι → σ
  output : σ → ι → ο

namespace Machine

variable {σ τ ι ο ο' : Type*} (M : Machine σ ι ο)

/-- The state after a list of inputs. -/
def run (s : σ) : List ι → σ
  | [] => s
  | i :: is => run (M.step s i) is

/-- The outputs of a list of inputs, in order. -/
def outputs (s : σ) : List ι → List ο
  | [] => []
  | i :: is => M.output s i :: outputs (M.step s i) is

@[simp] theorem run_nil (s : σ) : M.run s [] = s := rfl

@[simp] theorem run_cons (s : σ) (i : ι) (is : List ι) :
    M.run s (i :: is) = M.run (M.step s i) is := rfl

theorem run_append (s : σ) (is js : List ι) : M.run s (is ++ js) = M.run (M.run s is) js := by
  induction is generalizing s with
  | nil => rfl
  | cons i is ih => exact ih (M.step s i)

@[simp] theorem outputs_nil (s : σ) : M.outputs s [] = [] := rfl

@[simp] theorem outputs_cons (s : σ) (i : ι) (is : List ι) :
    M.outputs s (i :: is) = M.output s i :: M.outputs (M.step s i) is := rfl

theorem outputs_append (s : σ) (is js : List ι) :
    M.outputs s (is ++ js) = M.outputs s is ++ M.outputs (M.run s is) js := by
  induction is generalizing s with
  | nil => rfl
  | cons i is ih => simp only [List.cons_append, outputs_cons, run_cons, ih]

variable {M}

/-- What every step keeps, every run keeps. -/
theorem run_invariant {I : σ → Prop} (hstep : ∀ s i, I s → I (M.step s i)) {s : σ}
    (hs : I s) (is : List ι) : I (M.run s is) := by
  induction is generalizing s with
  | nil => exact hs
  | cons i is ih => exact ih (hstep s i hs)

/-- What the steps of some inputs keep, a run of such inputs keeps. -/
theorem run_invariant_of {I : σ → Prop} {P : ι → Prop}
    (hstep : ∀ s i, P i → I s → I (M.step s i)) {s : σ} (hs : I s) {is : List ι}
    (hP : ∀ i ∈ is, P i) : I (M.run s is) := by
  induction is generalizing s with
  | nil => exact hs
  | cons i is ih =>
    have hi := hP i List.mem_cons_self
    exact ih (hstep s i hi hs) fun j hj => hP j (List.mem_cons_of_mem i hj)

/-- A machine whose inputs are those of another one, under another name. -/
theorem run_map {κ : Type*} {N : Machine σ κ ο'} {g : κ → ι}
    (hstep : ∀ s k, M.step s (g k) = N.step s k) (s : σ) (ks : List κ) :
    M.run s (ks.map g) = N.run s ks := by
  induction ks generalizing s with
  | nil => rfl
  | cons k ks ih => rw [List.map_cons, run_cons, run_cons, hstep, ih]

/-- What holds of the output of every step taken inside an invariant holds of every output. -/
theorem outputs_invariant {I : σ → Prop} {P : ο → Prop}
    (hstep : ∀ s i, I s → I (M.step s i)) (hout : ∀ s i, I s → P (M.output s i)) {s : σ}
    (hs : I s) (is : List ι) : ∀ o ∈ M.outputs s is, P o := by
  induction is generalizing s with
  | nil => simp
  | cons i is ih =>
    simp only [outputs_cons, List.mem_cons, forall_eq_or_imp]
    exact ⟨hout s i hs, ih (hstep s i hs)⟩

/-- History independence: if a relation to a fixed state survives every step on the left and
related states give the same outputs, every output of a run is the one of the fixed state. -/
theorem outputs_eq_map {R : σ → σ → Prop} (hstep : ∀ s t i, R s t → R (M.step s i) t)
    (hout : ∀ s t i, R s t → M.output s i = M.output t i) {s t : σ} (h : R s t) (is : List ι) :
    M.outputs s is = is.map (M.output t) := by
  induction is generalizing s with
  | nil => rfl
  | cons i is ih =>
    rw [outputs_cons, List.map_cons, hout s t i h, ih (hstep s t i h)]

/-- Simulation: if the inputs that `sel` selects move both machines together, and the others leave
the second machine's state related, then a whole run is simulated by the selected inputs. -/
theorem run_simulation {κ : Type*} {N : Machine τ κ ο'} {R : σ → τ → Prop} {P : ι → Prop}
    {sel : ι → Option κ}
    (hsel : ∀ s t i k, P i → R s t → sel i = some k → R (M.step s i) (N.step t k))
    (hother : ∀ s t i, P i → R s t → sel i = none → R (M.step s i) t) {s : σ} {t : τ}
    (h : R s t) {is : List ι} (hP : ∀ i ∈ is, P i) :
    R (M.run s is) (N.run t (is.filterMap sel)) := by
  induction is generalizing s t with
  | nil => exact h
  | cons i is ih =>
    have hrest : ∀ j ∈ is, P j := fun j hj => hP j (List.mem_cons_of_mem i hj)
    have hi := hP i List.mem_cons_self
    cases hk : sel i with
    | none =>
      rw [List.filterMap_cons_none hk]
      exact ih (hother s t i hi h hk) hrest
    | some k =>
      rw [List.filterMap_cons_some hk]
      exact ih (hsel s t i k hi h hk) hrest

/-- The outputs of blocks that do not see what was before them are those of each block alone. -/
theorem outputs_flatMap {κ : Type*} {block : κ → List ι} {s₀ : σ}
    (hblock : ∀ s k, M.outputs s (block k) = M.outputs s₀ (block k)) (s : σ) (ks : List κ) :
    M.outputs s (ks.flatMap block) = ks.flatMap fun k => M.outputs s₀ (block k) := by
  induction ks generalizing s with
  | nil => rfl
  | cons k ks ih => rw [List.flatMap_cons, List.flatMap_cons, outputs_append, hblock, ih]

/-- The state after such blocks is that of the last one alone. -/
theorem run_flatMap {κ : Type*} {block : κ → List ι} {s₀ : σ}
    (hblock : ∀ s k, M.run s (block k) = M.run s₀ (block k)) (s : σ) {ks : List κ} {k : κ}
    (hlast : k ∈ ks.getLast?) : M.run s (ks.flatMap block) = M.run s₀ (block k) := by
  obtain ⟨before, rfl⟩ := List.getLast?_eq_some_iff.mp hlast
  rw [List.flatMap_append, List.flatMap_singleton, run_append, hblock]

section Filter

variable {p : ι → Bool} (hidle : ∀ s i, p i = false → M.step s i = s)

include hidle

/-- Inputs that leave the state alone may be dropped. -/
theorem run_filter (s : σ) (is : List ι) : M.run s (is.filter p) = M.run s is := by
  induction is generalizing s with
  | nil => rfl
  | cons i is ih =>
    cases hi : p i with
    | true => rw [List.filter_cons_of_pos hi, run_cons, run_cons, ih]
    | false => rw [List.filter_cons_of_neg (by simp [hi]), run_cons, hidle s i hi, ih]

/-- The other inputs keep their outputs. -/
theorem outputs_filter (s : σ) (is : List ι) :
    (is.filter p).zip (M.outputs s (is.filter p)) =
      (is.zip (M.outputs s is)).filter fun io => p io.1 := by
  induction is generalizing s with
  | nil => rfl
  | cons i is ih =>
    rw [outputs_cons, List.zip_cons_cons]
    cases hi : p i with
    | true =>
      rw [List.filter_cons_of_pos hi, List.filter_cons_of_pos (by exact hi), outputs_cons,
        List.zip_cons_cons, ih]
    | false =>
      rw [List.filter_cons_of_neg (by simp [hi]), List.filter_cons_of_neg (by simp [hi]),
        hidle s i hi, ih]

end Filter

/-- A list that is long enough is cut at an index. -/
theorem exists_cut (is : List ι) {n : ℕ} (h : n < is.length) :
    ∃ before i after, is = before ++ i :: after ∧ before.length = n :=
  ⟨is.take n, is[n], is.drop (n + 1), by simp, by simp; omega⟩

end Machine
