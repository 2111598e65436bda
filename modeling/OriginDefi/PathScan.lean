import OriginDefi.Copies

/-!
# The path of `exactInput`

The plugin reads `exactInput` from fixed word positions: two offsets are skipped, then come the
recipient, the deadline (skipped), two amounts, the length of the path, and the path.  The sent
token is the first 20 bytes of the path.  The received token starts 20 bytes before its end: the
parser computes from the length how many words to skip and at which byte of the next word the
token starts, and a second copy takes what spills over into the word after.

* `tupleFields_run`: once they are read, no word changes the fields of the tuple;
* `run_header`, `run_path_skipped`, `run_path_front`, `run_path`: the segments of a run, and
  `path_stage` what they say about a list of words that ends anywhere;
* `received_front`, `received_rest`: what the two copies leave in the received token;
* `run_pathWords`: the run over the words of a path of at least 52 bytes.
-/

namespace OriginDefi

variable (tx : TxContent)

/-! ### The words before the path -/

/-- The context before the first word of the path. -/
def pathContext (recipient amountIn amountOutMinimum pathLength : Word) : Context :=
  { initialContext .uniswapRouterExactInput .tokenSent 0 with
    beneficiary := Abi.address recipient
    amountSent := amountIn
    minAmountReceived := amountOutMinimum
    offset := u2be pathLength }

/-- The copies of the words before the path. -/
def headerCopies : List Memcpy :=
  [paramCopy addressLength 0 (parameterLength - addressLength) addressLength,
    paramCopy int256Length 0 0 int256Length, paramCopy int256Length 0 0 parameterLength]

theorem run_header (w₀ w₁ recipient deadline amountIn amountOutMinimum pathLength : ParamBuffer) :
    (parser tx).run (initialContext .uniswapRouterExactInput .beneficiary 2)
        [w₀, w₁, recipient, deadline, amountIn, amountOutMinimum, pathLength] =
      pathContext recipient.word amountIn.word amountOutMinimum.word pathLength.word := by
  simp [parser, provide, handleProvideParameter, handleSelector, handleUniswapExchange,
    initialContext, pathContext]

theorem copies_header
    (w₀ w₁ recipient deadline amountIn amountOutMinimum pathLength : ParamBuffer) :
    parserCopies tx (initialContext .uniswapRouterExactInput .beneficiary 2)
        [w₀, w₁, recipient, deadline, amountIn, amountOutMinimum, pathLength] = headerCopies := by
  simp [parser, provide, handleProvideParameter, handleSelector, handleUniswapExchange,
    initialContext, headerCopies]

/-- A list of words that reaches the end of the tuple. -/
theorem exists_tuple {ps : List ParamBuffer} (h : 6 ≤ ps.length) :
    ∃ w₀ w₁ w₂ w₃ w₄ w₅ ws, ps = [w₀, w₁, w₂, w₃, w₄, w₅] ++ ws := by
  rcases ps with _ | ⟨w₀, _ | ⟨w₁, _ | ⟨w₂, _ | ⟨w₃, _ | ⟨w₄, _ | ⟨w₅, ws⟩⟩⟩⟩⟩⟩
  case cons.cons.cons.cons.cons.cons => exact ⟨w₀, w₁, w₂, w₃, w₄, w₅, ws, rfl⟩
  all_goals
    simp only [List.length_cons, List.length_nil] at h
    omega

/-- A list of words that reaches the path. -/
theorem exists_header {ps : List ParamBuffer} (h : 7 ≤ ps.length) :
    ∃ w₀ w₁ w₂ w₃ w₄ w₅ w₆ ws, ps = [w₀, w₁, w₂, w₃, w₄, w₅, w₆] ++ ws := by
  obtain ⟨w₀, w₁, w₂, w₃, w₄, w₅, ws, rfl⟩ := exists_tuple (show 6 ≤ ps.length by omega)
  obtain _ | ⟨w₆, ws⟩ := ws
  · simp only [List.length_append, List.length_cons, List.length_nil] at h
    omega
  · exact ⟨w₀, w₁, w₂, w₃, w₄, w₅, w₆, ws, rfl⟩

/-- A list that ends before the path makes the first few copies of it. -/
theorem copies_header_prefix {ps : List ParamBuffer} (h : ps.length < 7) :
    parserCopies tx (initialContext .uniswapRouterExactInput .beneficiary 2) ps <+:
      headerCopies := by
  obtain ⟨w₀, w₁, w₂, w₃, w₄, w₅, w₆, ws, hps⟩ :=
    exists_header (show 7 ≤ (ps ++ zeroPadded (List.replicate 7 0)).length by simp [zeroPadded])
  have hcopies := copies_header tx w₀ w₁ w₂ w₃ w₄ w₅ w₆
  obtain ⟨more, hmore⟩ : ps <+: [w₀, w₁, w₂, w₃, w₄, w₅, w₆] :=
    List.prefix_of_prefix_length_le ⟨_, hps⟩ ⟨ws, rfl⟩ (by simp; omega)
  rw [← hmore, parserCopies_append] at hcopies
  exact ⟨_, hcopies⟩

/-- Behind the tuple: the other fields than the path have been read. -/
def Context.PastTuple (c : Context) : Prop :=
  c.selectorIndex = .uniswapRouterExactInput ∧
    c.nextParam ∈ ([.pathLength, .tokenSent, .tokenReceived, .tokenReceivedRest, .none] :
      List Parameter)

/-- The fields of the tuple that a context holds. -/
def Context.tupleFields (c : Context) : Address × Word × Word :=
  (c.beneficiary, c.amountSent, c.minAmountReceived)

/-- The words of the tuple. -/
theorem run_tuple (w₀ w₁ recipient deadline amountIn amountOutMinimum : ParamBuffer) :
    let c := (parser tx).run (initialContext .uniswapRouterExactInput .beneficiary 2)
      [w₀, w₁, recipient, deadline, amountIn, amountOutMinimum]
    c.PastTuple ∧
      c.tupleFields = (Abi.address recipient.word, amountIn.word, amountOutMinimum.word) := by
  simp [parser, provide, handleProvideParameter, handleSelector, handleUniswapExchange,
    initialContext, Context.PastTuple, Context.tupleFields]

/-- Behind the tuple no word changes its fields. -/
theorem tupleFields_step {c : Context} (h : c.PastTuple) (p : ParamBuffer) :
    ((parser tx).step c p).PastTuple ∧ ((parser tx).step c p).tupleFields = c.tupleFields := by
  obtain ⟨hsel, hnext⟩ := h
  by_cases hskip : c.skip = 0
  · rw [step_handle hskip]
    simp only [List.mem_cons, List.not_mem_nil, or_false] at hnext
    rcases hnext with hnext | hnext | hnext | hnext | hnext <;>
      simp [handleSelector, handleUniswapExchange, hsel, hnext, Context.PastTuple,
        Context.tupleFields]
  · rw [step_skip hskip]
    exact ⟨⟨hsel, hnext⟩, rfl⟩

theorem tupleFields_run {c : Context} (h : c.PastTuple) (ps : List ParamBuffer) :
    ((parser tx).run c ps).tupleFields = c.tupleFields := by
  have hrun := Machine.run_invariant (M := parser tx)
    (I := fun d => d.PastTuple ∧ d.tupleFields = c.tupleFields)
    (fun d p hd => ?_) ⟨h, rfl⟩ ps
  · exact hrun.2
  · obtain ⟨hpast, hfields⟩ := tupleFields_step tx hd.1 p
    exact ⟨hpast, hfields.trans hd.2⟩

/-! ### The words of the path -/

/-- Waiting for the first word of a path. -/
structure Context.ScansPath (c : Context) : Prop where
  selector : c.selectorIndex = .uniswapRouterExactInput
  nextParam : c.nextParam = .tokenSent
  skip : c.skip = 0

/-- The copy of the branch `TOKEN_SENT`. -/
def sentCopy : Memcpy := paramCopy addressLength 0 0 addressLength

theorem provide_path_first {c : Context} (h : c.ScansPath) (p : ParamBuffer) :
    provide tx c p =
      { txContent := tx
        context :=
          { c with
            contractAddressSent := p.word.sub 0 (by decide)
            skip := pathSkip c.offset
            nextParam := .tokenReceived }
        parameter := p
        result := .ok
        copies := [sentCopy] } := by
  obtain ⟨hsel, hnext, hskip⟩ := h
  rw [provide_handle hskip]
  simp only [handleSelector, handleUniswapExchange, hsel, hnext, ProvideParameter.copySent,
    ProvideParameter.expect, apply_front, List.nil_append, sentCopy]

theorem provide_path_received {c : Context} (hsel : c.selectorIndex = .uniswapRouterExactInput)
    (hnext : c.nextParam = .tokenReceived) (hskip : c.skip = 0) (p : ParamBuffer) :
    provide tx c p =
      { txContent := tx
        context :=
          { c with
            contractAddressReceived :=
              (receivedCopy c.offset).apply c.contractAddressReceived p.read
            nextParam := .tokenReceivedRest }
        parameter := p
        result := .ok
        copies := [receivedCopy c.offset] } := by
  rw [provide_handle hskip]
  simp only [handleSelector, handleUniswapExchange, hsel, hnext, ProvideParameter.copyReceived,
    ProvideParameter.expect, List.nil_append]

theorem provide_path_rest {c : Context} (hsel : c.selectorIndex = .uniswapRouterExactInput)
    (hnext : c.nextParam = .tokenReceivedRest) (hskip : c.skip = 0) (p : ParamBuffer) :
    provide tx c p =
      { txContent := tx
        context :=
          { c with
            contractAddressReceived :=
              (receivedRestCopy c.offset).apply c.contractAddressReceived p.read
            nextParam := .none }
        parameter := p
        result := .ok
        copies := [receivedRestCopy c.offset] } := by
  rw [provide_handle hskip]
  simp only [handleSelector, handleUniswapExchange, hsel, hnext, ProvideParameter.copyReceived,
    ProvideParameter.expect, List.nil_append]

/-- The first word of the path and the words to skip. -/
theorem run_path_skipped {c : Context} (h : c.ScansPath) (first : ParamBuffer)
    {skipped : List ParamBuffer} (hlen : skipped.length ≤ (pathSkip c.offset).toNat) :
    (parser tx).run c (first :: skipped) =
        { c with
          contractAddressSent := first.word.sub 0 (by decide)
          skip := pathSkip c.offset - UInt8.ofNat skipped.length
          nextParam := .tokenReceived } ∧
      parserCopies tx c (first :: skipped) = [sentCopy] := by
  have hstep : (parser tx).step c first = (provide tx c first).context := rfl
  rw [Machine.run_cons, parserCopies_cons, hstep, provide_path_first tx h]
  exact ⟨run_skip hlen, by rw [parserCopies_skip hlen, List.append_nil]⟩

/-- The run up to the word in which the received token starts. -/
theorem run_path_front {c : Context} (h : c.ScansPath) (first p : ParamBuffer)
    {skipped : List ParamBuffer} (hlen : skipped.length = (pathSkip c.offset).toNat) :
    (parser tx).run c (first :: skipped ++ [p]) =
        { c with
          contractAddressSent := first.word.sub 0 (by decide)
          contractAddressReceived := (receivedCopy c.offset).apply c.contractAddressReceived p.read
          skip := 0
          nextParam := .tokenReceivedRest } ∧
      parserCopies tx c (first :: skipped ++ [p]) = [sentCopy, receivedCopy c.offset] := by
  obtain ⟨hrun, hcopies⟩ := run_path_skipped tx h first hlen.le
  have hskip : pathSkip c.offset - UInt8.ofNat skipped.length = 0 := by
    rw [hlen, UInt8.ofNat_toNat, UInt8.sub_self]
  rw [hskip] at hrun
  have hprovide := provide_path_received tx
    (c := { c with
            contractAddressSent := first.word.sub 0 (by decide)
            skip := 0
            nextParam := .tokenReceived }) h.selector rfl rfl p
  rw [Machine.run_append, parserCopies_append, hrun, hcopies, Machine.run_cons, parserCopies_cons]
  exact ⟨congrArg ProvideParameter.context hprovide, by rw [hprovide]; rfl⟩

/-- The whole run: the received token spills into the word `q`, and the words after it have no
effect. -/
theorem run_path {c : Context} (h : c.ScansPath) (first p q : ParamBuffer)
    {skipped : List ParamBuffer} (rest : List ParamBuffer)
    (hlen : skipped.length = (pathSkip c.offset).toNat) :
    (parser tx).run c (first :: skipped ++ p :: q :: rest) =
        { c with
          contractAddressSent := first.word.sub 0 (by decide)
          contractAddressReceived :=
            (receivedRestCopy c.offset).apply
              ((receivedCopy c.offset).apply c.contractAddressReceived p.read) q.read
          skip := 0
          nextParam := .none } ∧
      parserCopies tx c (first :: skipped ++ p :: q :: rest) =
        [sentCopy, receivedCopy c.offset, receivedRestCopy c.offset] := by
  obtain ⟨hrun, hcopies⟩ := run_path_front tx h first p hlen
  have hprovide := provide_path_rest tx
    (c := { c with
            contractAddressSent := first.word.sub 0 (by decide)
            contractAddressReceived :=
              (receivedCopy c.offset).apply c.contractAddressReceived p.read
            skip := 0
            nextParam := .tokenReceivedRest }) h.selector rfl rfl q
  have hstep := congrArg ProvideParameter.context hprovide
  rw [show first :: skipped ++ p :: q :: rest = (first :: skipped ++ [p]) ++ q :: rest by simp,
    Machine.run_append, parserCopies_append, hrun, hcopies, Machine.run_cons, parserCopies_cons]
  change (parser tx).step _ q = _ at hstep
  rw [hstep, hprovide]
  exact ⟨run_done rfl rfl rest, by rw [parserCopies_done rfl rfl]; rfl⟩

/-- The state after `n` words of a path, `skip` of which are skipped, and the number of copies they
have made. -/
def pathStage (skip n : ℕ) : Parameter × ℕ :=
  if n = 0 then (.tokenSent, 0)
  else if n ≤ skip + 1 then (.tokenReceived, 1)
  else if n = skip + 2 then (.tokenReceivedRest, 2)
  else (.none, 3)

/-- The copies of a whole path. -/
def pathCopies (offset : UInt16) : List Memcpy :=
  [sentCopy, receivedCopy offset, receivedRestCopy offset]

/-- Wherever a list of words ends, its length alone says in which state the parser is and which
copies have been made. -/
theorem path_stage {c : Context} (h : c.ScansPath) (ws : List ParamBuffer) :
    let stage := pathStage (pathSkip c.offset).toNat ws.length
    ((parser tx).run c ws).offset = c.offset ∧ ((parser tx).run c ws).nextParam = stage.1 ∧
      parserCopies tx c ws = (pathCopies c.offset).take stage.2 := by
  unfold pathStage
  obtain _ | ⟨first, tail⟩ := ws
  · exact ⟨rfl, h.nextParam, rfl⟩
  by_cases hlen : tail.length ≤ (pathSkip c.offset).toNat
  · -- the list ends before the received token starts
    obtain ⟨hrun, hcopies⟩ := run_path_skipped tx h first hlen
    rw [hrun, hcopies, List.length_cons, if_neg (by omega), if_pos (by omega)]
    exact ⟨rfl, rfl, rfl⟩
  obtain ⟨skipped, p, after, rfl, hskipped⟩ :=
    Machine.exists_cut tail (n := (pathSkip c.offset).toNat) (by omega)
  rw [← List.cons_append]
  obtain _ | ⟨q, rest⟩ := after
  · -- the list ends with the first word of the received token
    obtain ⟨hrun, hcopies⟩ := run_path_front tx h first p hskipped
    have hlength : (first :: skipped ++ [p]).length = (pathSkip c.offset).toNat + 2 := by
      simp [hskipped]
    rw [hrun, hcopies, hlength, if_neg (by omega), if_neg (by omega), if_pos rfl]
    exact ⟨rfl, rfl, rfl⟩
  · obtain ⟨hrun, hcopies⟩ := run_path tx h first p q rest hskipped
    have hlength : (first :: skipped ++ p :: q :: rest).length =
        (pathSkip c.offset).toNat + rest.length + 3 := by
      simp [hskipped]
      omega
    rw [hrun, hcopies, hlength, if_neg (by omega), if_neg (by omega), if_neg (by omega)]
    exact ⟨rfl, rfl, rfl⟩

/-! ### What the length of the path says -/

theorem u2be_ofNat {L : ℕ} (h : L < 65536) :
    (u2be (Bytes.ofNat parameterLength L)).toNat = L := by
  have hhigh : (Bytes.ofNat parameterLength L 30).toNat = L / 256 % 256 := UInt8.toNat_ofNat'
  have hlow : (Bytes.ofNat parameterLength L 31).toNat = L % 256 := by
    have : (Bytes.ofNat parameterLength L 31).toNat = L / 1 % 256 := UInt8.toNat_ofNat'
    simpa using this
  have hword : (u2be (Bytes.ofNat parameterLength L)).toNat =
      ((Bytes.ofNat parameterLength L 30).toNat * 256 + (Bytes.ofNat parameterLength L 31).toNat) %
        65536 := UInt16.toNat_ofNat'
  rw [hword, hhigh, hlow]
  omega

section Length

variable {offset : UInt16} {L : ℕ}

theorem pathRemainder_eq (ho : offset.toNat = L) (h : 20 ≤ L) :
    pathRemainder offset = ((L - 20) % 32 : ℕ) := by
  simp only [pathRemainder, addressLength, parameterLength, ho]
  rw [Int.tmod_eq_emod_of_nonneg (by omega)]
  omega

/-- A path shorter than an address: the remainder is negative. -/
theorem pathRemainder_neg (ho : offset.toNat = L) (h : L < 20) : pathRemainder offset < 0 := by
  have hneg : (L : ℤ) - 20 = -((20 - L : ℕ) : ℤ) := by omega
  simp only [pathRemainder, addressLength, parameterLength, ho, Nat.cast_ofNat, hneg]
  rw [Int.neg_tmod, Int.tmod_eq_of_lt (by omega) (by omega)]
  omega

/-- A path shorter than 52 bytes: the 8-bit counter wraps to 255 words. -/
theorem pathSkip_short (ho : offset.toNat = L) (h : L < 52) : pathSkip offset = 255 := by
  have hdiv : ((L : ℤ) - 20).tdiv 32 = 0 := by
    by_cases h20 : 20 ≤ L
    · exact Int.tdiv_eq_zero_of_lt (by omega) (by omega)
    · have hneg : (L : ℤ) - 20 = -((20 - L : ℕ) : ℤ) := by omega
      rw [hneg, Int.neg_tdiv, Int.tdiv_eq_zero_of_lt (by omega) (by omega), neg_zero]
  simp only [pathSkip, addressLength, ho, Nat.cast_ofNat, hdiv]
  rfl

/-- The words to skip: all but one of the whole words in the first `L - 20` bytes, modulo 256. -/
theorem pathSkip_toNat (ho : offset.toNat = L) (h : 52 ≤ L) :
    (pathSkip offset).toNat = ((L - 20) / 32 - 1) % 256 := by
  have hdiv : ((L : ℤ) - 20).tdiv 32 - 1 = (((L - 20) / 32 - 1 : ℕ) : ℤ) := by
    rw [Int.tdiv_eq_ediv_of_nonneg (by omega)]
    omega
  simp only [pathSkip, addressLength, ho, Nat.cast_ofNat, hdiv]
  rw [UInt8.ofInt, UInt8.toNat_ofNat']
  omega

end Length

/-- The word of the path in which the plugin looks for the received token. -/
def receivedIndex (L : ℕ) : ℕ := ((L - 20) / 32 - 1) % 256 + 1

/-- The byte of the path at which the plugin looks for the received token. -/
def receivedPosition (L : ℕ) : ℕ := 32 * receivedIndex L + (L - 20) % 32

theorem receivedIndex_le {L : ℕ} (h : 52 ≤ L) : receivedIndex L ≤ (L - 20) / 32 := by
  have := Nat.mod_le ((L - 20) / 32 - 1) 256
  unfold receivedIndex
  omega

theorem receivedPosition_le {L : ℕ} (h : 52 ≤ L) : receivedPosition L + 20 ≤ L := by
  have := receivedIndex_le h
  unfold receivedPosition
  omega

/-- Up to 8243 bytes the counter does not wrap, and the plugin looks at the right place. -/
theorem receivedPosition_eq {L : ℕ} (h : 52 ≤ L) (hL : L ≤ 8243) : receivedPosition L = L - 20 := by
  unfold receivedPosition receivedIndex
  rw [Nat.mod_eq_of_lt (by omega)]
  omega

/-! ### What the copies leave in the tokens -/

/-- The word `p` holds the bytes of `path` from `32 * j` on, as far as the path reaches. -/
def HoldsPath (path : List UInt8) (j : ℕ) (p : ParamBuffer) : Prop :=
  ∀ i : Fin parameterLength, 32 * j + i.val < path.length → p.word i = path.getD (32 * j + i) 0

section Received

variable {path : List UInt8} {j : ℕ} {p q : ParamBuffer} {offset : UInt16} {dst : Address}

/-- The first 20 bytes of the first word are the first 20 bytes of the path. -/
theorem sub_holdsPath (hp : HoldsPath path 0 p) (h : 20 ≤ path.length) :
    p.word.sub 0 (by decide) = (Bytes.ofList path 0 : Address) := by
  funext i
  have hi : i.val < 20 := i.isLt
  rw [Bytes.sub, hp _ (by simp only; omega), Bytes.ofList_apply]
  simp

/-- The bytes of the received token that lie in its first word. -/
theorem received_byte (ho : offset.toNat = path.length) (h : 20 ≤ path.length)
    (hp : HoldsPath path j p) (hj : 32 * j + (path.length - 20) % 32 + 20 ≤ path.length)
    {i : Fin addressLength} (hi : (path.length - 20) % 32 + i.val < 32) :
    (receivedCopy offset).apply dst p.read i =
      path.getD (32 * j + (path.length - 20) % 32 + i.val) 0 := by
  have hi20 : i.val < 20 := i.isLt
  have hsrc : (receivedCopy offset).srcIndex + (i.val : ℤ) =
      (((path.length - 20) % 32 + i.val : ℕ) : ℤ) := by
    rw [show (receivedCopy offset).srcIndex = pathRemainder offset from rfl, pathRemainder_eq ho h,
      Nat.cast_add]
  rw [Memcpy.apply_whole rfl rfl (by decide)]
  simp only [hsrc]
  rw [p.read_of_lt (by omega) (by simp only [parameterLength]; omega), hp _ (by simp; omega)]
  simp only [Int.toNat_natCast, Nat.add_assoc]

/-- A received token inside one word. -/
theorem received_front (ho : offset.toNat = path.length) (h : 20 ≤ path.length)
    (hr : (path.length - 20) % 32 ≤ 12) (hp : HoldsPath path j p)
    (hj : 32 * j + (path.length - 20) % 32 + 20 ≤ path.length) :
    (receivedCopy offset).apply dst p.read =
      Bytes.ofList path (32 * j + (path.length - 20) % 32) := by
  funext i
  have hi : i.val < 20 := i.isLt
  rw [received_byte ho h hp hj (by omega), Bytes.ofList_apply]

/-- A received token that starts in the word `p` and may spill over into the word `q`.  Bytes that
the first copy read past the end of its word are overwritten by the second one. -/
theorem received_rest (ho : offset.toNat = path.length) (h : 20 ≤ path.length)
    (hp : HoldsPath path j p) (hq : 12 < (path.length - 20) % 32 → HoldsPath path (j + 1) q)
    (hj : 32 * j + (path.length - 20) % 32 + 20 ≤ path.length) :
    (receivedRestCopy offset).apply ((receivedCopy offset).apply dst p.read) q.read =
      Bytes.ofList path (32 * j + (path.length - 20) % 32) := by
  have hrem := pathRemainder_eq ho h
  by_cases hr : (path.length - 20) % 32 ≤ 12
  · -- nothing spills over, and the second copy starts behind the field
    have hbeyond : ((20 : ℕ) : ℤ) ≤ (receivedRestCopy offset).dstIndex := by
      simp only [receivedRestCopy, paramCopy, parameterLength, hrem]
      omega
    rw [Memcpy.apply_beyond hbeyond, received_front ho h hr hp hj]
  · funext i
    have hi : i.val < 20 := i.isLt
    have hlen : (receivedRestCopy offset).len % sizeT = ((path.length - 20) % 32 - 12 : ℕ) := by
      simp only [receivedRestCopy, paramCopy, parameterLength, addressLength, hrem, sizeT]
      omega
    have hdst : (receivedRestCopy offset).dstIndex = (32 - (path.length - 20) % 32 : ℕ) := by
      simp only [receivedRestCopy, paramCopy, parameterLength, hrem]
      omega
    rw [Bytes.ofList_apply, Memcpy.apply, hlen, hdst]
    split_ifs with hin
    · -- a byte of the second copy
      have hsrc : (receivedRestCopy offset).srcIndex +
          ((i.val : ℤ) - (32 - (path.length - 20) % 32 : ℕ)) =
          ((i.val + (path.length - 20) % 32 - 32 : ℕ) : ℤ) := by
        simp only [receivedRestCopy, paramCopy]
        omega
      rw [hsrc, q.read_of_lt (by omega) (by simp only [parameterLength]; omega),
        hq (by omega) _ (by simp; omega)]
      congr 1
      simp only [Int.toNat_natCast]
      omega
    · -- a byte that only the first copy wrote
      exact received_byte ho h hp hj (by omega)

end Received

/-! ### A path in words -/

/-- The words `ws` begin with the bytes of `path`. -/
def PathWords (path : List UInt8) (ws : List ParamBuffer) : Prop :=
  path.length ≤ 32 * ws.length ∧ ∀ j p, ws[j]? = some p → HoldsPath path j p

/-- The run over the words of a path: the counter may wrap, so the received token is read at
`receivedPosition`. -/
theorem run_pathWords {c : Context} (h : c.ScansPath) {path : List UInt8} {ws : List ParamBuffer}
    (ho : c.offset.toNat = path.length) (h52 : 52 ≤ path.length) (hws : PathWords path ws) :
    (parser tx).run c ws =
        { c with
          contractAddressSent := Bytes.ofList path 0
          contractAddressReceived := Bytes.ofList path (receivedPosition path.length)
          skip := 0
          nextParam :=
            if ws.length = receivedIndex path.length + 1 then .tokenReceivedRest else .none } ∧
      parserCopies tx c ws = [sentCopy, receivedCopy c.offset] ++
        if ws.length = receivedIndex path.length + 1 then [] else [receivedRestCopy c.offset] := by
  obtain ⟨hlen, hholds⟩ := hws
  have hindex := receivedIndex_le h52
  have hposition := receivedPosition_le h52
  obtain ⟨before, p, after, rfl, hbefore⟩ :=
    Machine.exists_cut ws (n := receivedIndex path.length) (by omega)
  obtain _ | ⟨first, skipped⟩ := before
  · simp [receivedIndex] at hbefore
  rw [List.length_cons] at hbefore
  have hskip : skipped.length = (pathSkip c.offset).toNat := by
    rw [pathSkip_toNat ho h52]
    unfold receivedIndex at hbefore
    omega
  have hfirst : HoldsPath path 0 first := hholds 0 first rfl
  have hp : HoldsPath path (receivedIndex path.length) p :=
    hholds _ p (by rw [← hbefore, List.getElem?_append_right (by simp)]; simp)
  rw [← sub_holdsPath hfirst (by omega)]
  obtain _ | ⟨q, rest⟩ := after
  · -- the path ends with the word of the received token, so the token lies inside it
    simp only [List.length_append, List.length_cons, List.length_nil] at hlen ⊢
    have hr : (path.length - 20) % 32 ≤ 12 := by omega
    obtain ⟨hrun, hcopies⟩ := run_path_front tx h first p hskip
    rw [received_front ho (by omega) hr hp hposition] at hrun
    rw [if_pos (by omega), if_pos (by omega)]
    exact ⟨hrun, hcopies⟩
  · -- the next word makes the second copy, and the parser is done
    have hq : HoldsPath path (receivedIndex path.length + 1) q :=
      hholds _ q (by rw [← hbefore, List.getElem?_append_right (by simp)]; simp)
    obtain ⟨hrun, hcopies⟩ := run_path tx h first p q rest hskip
    rw [received_rest ho (by omega) hp (fun _ => hq) hposition] at hrun
    simp only [List.length_append, List.length_cons]
    rw [if_neg (by omega), if_neg (by omega)]
    exact ⟨hrun, hcopies⟩

end OriginDefi
