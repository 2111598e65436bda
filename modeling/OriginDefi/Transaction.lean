import OriginDefi.ProvideParameter

/-!
# Transactions and their streams of words

A `Transaction` is a first message that `handle_init_contract` accepts; `parsed` is the context
after a list of words and `calls` the handled messages.

The facts here hold for every selector: what a skipped word does, how each copy of a whole word or
address reads, and that the parser never touches the fields that only the later messages use
(`Context.metadata`).
-/

namespace OriginDefi

/-- A first message that the plugin accepts. -/
structure Transaction where
  init : InitContract
  accepted : (handleInitContract init).result = .ok

namespace Transaction

variable (t : Transaction)

/-- The transaction content, the same in every message. -/
def tx : TxContent := t.init.txContent

/-- The context left by `handle_init_contract`. -/
def start : Context := (handleInitContract t.init).context

/-- The entry point that was recognised. -/
def selector : Selector := t.start.selectorIndex

/-- The context after a list of words. -/
def parsed (ps : List ParamBuffer) : Context := (parser t.tx).run t.start ps

/-- The messages of a list of words, after they have been handled. -/
def calls (ps : List ParamBuffer) : List ProvideParameter := (parser t.tx).outputs t.start ps

/-- The start of an accepted transaction in terms of its selector. -/
theorem start_eq : ∃ nextParam skip,
    initialParser t.tx t.selector = some (nextParam, skip) ∧
    t.start = initialContext t.selector nextParam skip := by
  obtain ⟨i, nextParam, skip, -, hparser, hcontext⟩ := handleInitContract_ok t.accepted
  have hsel : t.selector = Selector.ofIndex i := by rw [selector, start, hcontext]; rfl
  exact ⟨nextParam, skip, by rw [hsel]; exact hparser, by rw [hsel]; exact hcontext⟩

/-- The four selector bytes of an accepted transaction are the table entry of its selector. -/
theorem selector_eq : ∃ i, originDefiSelectors[i]? = some t.init.selector.toNat ∧
    t.selector = Selector.ofIndex i := by
  obtain ⟨i, nextParam, skip, hget, -, hcontext⟩ := handleInitContract_ok t.accepted
  exact ⟨i, hget, by rw [selector, start, hcontext]; rfl⟩

end Transaction

/-- A first message with a given selector and destination and no value. -/
def InitContract.plain (selector : Bytes 4) (destination : Address) : InitContract where
  interfaceVersion := ethPluginInterfaceVersionLatest
  pluginContextLength := sizeofContext
  selector := selector
  txContent := { value := { value := fun _ => 0, length := 0 }, destination := destination }
  context := Context.zero
  result := .error

/-- A parameter whose word is a number, with zeros around it. -/
def ParamBuffer.ofNat (v : ℕ) : ParamBuffer := ⟨Bytes.ofNat parameterLength v, fun _ => 0⟩

/-- The parameters of a call, with nothing but zeros around each of them. -/
def zeroPadded (words : List Word) : List ParamBuffer := words.map fun w => ⟨w, fun _ => 0⟩

theorem map_word_zeroPadded (words : List Word) :
    (zeroPadded words).map ParamBuffer.word = words := by
  simp [zeroPadded, Function.comp_def]

/-! ### Copies of whole objects -/

/-- The memory at the front of a parameter is its word. -/
theorem ParamBuffer.read_of_lt (p : ParamBuffer) {i : ℤ} (h0 : 0 ≤ i) (hi : i < parameterLength) :
    p.read i = p.word ⟨i.toNat, by omega⟩ := Bytes.read_of_lt _ _ h0 hi

theorem apply_word (dst : Word) (p : ParamBuffer) :
    (paramCopy parameterLength 0 0 parameterLength).apply dst p.read = p.word := by
  rw [Memcpy.apply_whole rfl rfl (by decide)]
  funext i
  have hi : i.val < 32 := i.isLt
  rw [show (paramCopy parameterLength 0 0 parameterLength).srcIndex + (i.val : ℤ) = i.val by
    simp [paramCopy], p.read_of_lt (by omega) (by simp only [parameterLength]; omega)]
  simp

theorem apply_address (dst : Address) (p : ParamBuffer) :
    (paramCopy addressLength 0 (parameterLength - addressLength) addressLength).apply dst p.read =
      Abi.address p.word := by
  rw [Memcpy.apply_whole rfl rfl (by decide)]
  funext i
  have hi : i.val < 20 := i.isLt
  rw [show (paramCopy addressLength 0 (parameterLength - addressLength) addressLength).srcIndex
      + (i.val : ℤ) = (12 + i.val : ℕ) by simp [paramCopy],
    p.read_of_lt (by omega) (by simp only [parameterLength]; omega)]
  rfl

theorem apply_front (dst : Address) (p : ParamBuffer) :
    (paramCopy addressLength 0 0 addressLength).apply dst p.read = p.word.sub 0 (by decide) := by
  rw [Memcpy.apply_whole rfl rfl (by decide)]
  funext i
  have hi : i.val < 20 := i.isLt
  rw [show (paramCopy addressLength 0 0 addressLength).srcIndex + (i.val : ℤ) = (0 + i.val : ℕ) by
    simp [paramCopy], p.read_of_lt (by omega) (by simp only [parameterLength]; omega)]
  rfl

theorem apply_coin (dst coin : Address) :
    addressCopy.apply dst (coin.read fun _ => 0) = coin := by
  rw [Memcpy.apply_whole rfl rfl (by decide)]
  funext i
  rw [show addressCopy.srcIndex + (i.val : ℤ) = (i.val : ℤ) by simp [addressCopy],
    Bytes.read_ofNat _ _ i.isLt]

/-! ### What each building block of a handler does to the context -/

/-- The coins of the Curve pool at an address, in the order of their indices. -/
def curvePoolTable (destination : Address) : List Address :=
  if destination = curveOethPoolAddress then [nullEthAddress, oethAddress]
  else if destination = curveOusdPoolAddress then
    [ousdAddress, daiAddress, usdcAddress, usdtAddress]
  else []

theorem curvePoolCoin_eq (destination : Address) (index : UInt8) :
    curvePoolCoin destination index = (curvePoolTable destination)[index.toNat]? := by
  unfold curvePoolCoin curvePoolTable
  simp only [eq_comm (a := destination)]
  split_ifs
  · rcases index.toNat with _ | _ | n <;> rfl
  · rcases index.toNat with _ | _ | _ | _ | n <;> rfl
  · rfl

/-- The address a token word stands for: the coin at its last byte for the Curve pools (the null
address where the pool has no such coin), the last 20 bytes of the word otherwise. -/
def tokenAddress (tx : TxContent) (s : Selector) (w : Word) : Address :=
  if s.isCurvePool then ((curvePoolTable tx.destination)[(w 31).toNat]?).getD nullEthAddress
  else Abi.address w

section Blocks

variable (msg : ProvideParameter)

@[simp] theorem context_expect (p : Parameter) :
    (msg.expect p).context = { msg.context with nextParam := p } := rfl

@[simp] theorem context_addSkip (n : UInt8) :
    (msg.addSkip n).context = { msg.context with skip := msg.context.skip + n } := rfl

@[simp] theorem context_notSupported : msg.notSupported.context = msg.context := rfl

@[simp] theorem context_copySent (copy : Memcpy) (src : ℤ → UInt8) :
    (msg.copySent copy src).context =
      { msg.context with
        contractAddressSent := copy.apply msg.context.contractAddressSent src } := rfl

@[simp] theorem context_copyReceived (copy : Memcpy) (src : ℤ → UInt8) :
    (msg.copyReceived copy src).context =
      { msg.context with
        contractAddressReceived := copy.apply msg.context.contractAddressReceived src } := rfl

@[simp] theorem context_handleTokenSent :
    (handleTokenSent msg).context =
      { msg.context with
        contractAddressSent :=
          tokenAddress msg.txContent msg.context.selectorIndex msg.parameter.word } := by
  simp only [handleTokenSent, tokenAddress, ← curvePoolCoin_eq]
  split
  · split <;> rename_i hcoin <;> simp only [hcoin, context_copySent, Option.getD_some,
      Option.getD_none, apply_coin]
    rfl
  · simp only [context_copySent, apply_address]

@[simp] theorem context_handleTokenReceived :
    (handleTokenReceived msg).context =
      { msg.context with
        contractAddressReceived :=
          tokenAddress msg.txContent msg.context.selectorIndex msg.parameter.word } := by
  simp only [handleTokenReceived, tokenAddress, ← curvePoolCoin_eq]
  split
  · split <;> rename_i hcoin <;> simp only [hcoin, context_copyReceived, Option.getD_some,
      Option.getD_none, apply_coin]
    rfl
  · simp only [context_copyReceived, apply_address]

@[simp] theorem context_handleAmountSent :
    (handleAmountSent msg).context = { msg.context with amountSent := msg.parameter.word } := by
  simp only [handleAmountSent, apply_word]

@[simp] theorem context_handleMinAmountReceived :
    (handleMinAmountReceived msg).context =
      { msg.context with minAmountReceived := msg.parameter.word } := by
  simp only [handleMinAmountReceived, apply_word]

@[simp] theorem context_handleBeneficiary :
    (handleBeneficiary msg).context =
      { msg.context with beneficiary := Abi.address msg.parameter.word } := by
  simp only [handleBeneficiary, apply_address]

end Blocks

/-! ### One word -/

/-- A word that is skipped only moves the counter. -/
theorem step_skip {tx : TxContent} {c : Context} (h : c.skip ≠ 0) (p : ParamBuffer) :
    (parser tx).step c p = { c with skip := c.skip - 1 } := by
  simp [parser, provide, handleProvideParameter, h]

/-- A word that is not skipped goes to the handler of the selector. -/
theorem step_handle {tx : TxContent} {c : Context} (h : c.skip = 0) (p : ParamBuffer) :
    (parser tx).step c p =
      (handleSelector { txContent := tx, context := c, parameter := p, result := .ok,
                        copies := [] }).context := by
  simp [parser, provide, handleProvideParameter, h]

/-- A run of words no longer than the skip counter only moves the counter. -/
theorem run_skip {tx : TxContent} {c : Context} {ps : List ParamBuffer}
    (h : ps.length ≤ c.skip.toNat) :
    (parser tx).run c ps = { c with skip := c.skip - UInt8.ofNat ps.length } := by
  induction ps generalizing c with
  | nil => simp
  | cons p ps ih =>
    simp only [List.length_cons] at h
    have hne : c.skip ≠ 0 := fun h0 => by simp [h0] at h
    have hsub : (c.skip - 1).toNat = c.skip.toNat - 1 := by
      rw [UInt8.toNat_sub_of_le _ _ (by rw [UInt8.le_iff_toNat_le]; simp; omega)]; rfl
    rw [Machine.run_cons, step_skip hne, ih (by simp only [hsub]; omega)]
    have hone : UInt8.ofNat 1 = 1 := rfl
    simp only [List.length_cons, UInt8.ofNat_add, hone, Context.mk.injEq, true_and, and_true]
    grind

/-- Exactly as many words as the skip counter says are skipped. -/
theorem run_skip_all {tx : TxContent} {c : Context} {ps : List ParamBuffer}
    (hskip : c.skip = UInt8.ofNat ps.length) (hlen : ps.length < 256) :
    (parser tx).run c ps = { c with skip := 0 } := by
  have hto : c.skip.toNat = ps.length := by
    rw [hskip]
    simpa using hlen
  rw [run_skip (by omega), ← hskip, UInt8.sub_self]

/-- Once nothing is expected a word has no effect. -/
theorem step_done {tx : TxContent} {c : Context} (hnext : c.nextParam = .none) (hskip : c.skip = 0)
    (p : ParamBuffer) : (parser tx).step c p = c := by
  rw [step_handle hskip]
  unfold handleSelector
  split
  case h_18 => rfl
  all_goals
    simp only [handleZapperDepositEth, handleZapperDepositSfrxeth, handleVaultMint,
      handleVaultRedeem, handleCurvePoolExchange, handleCurveRouterExchange, handleUniswapExchange,
      handleUniswapExchangeSingle, handleFlipperExchange, handleWrap, hnext]

theorem run_done {tx : TxContent} {c : Context} (hnext : c.nextParam = .none) (hskip : c.skip = 0)
    (ps : List ParamBuffer) : (parser tx).run c ps = c := by
  induction ps with
  | nil => rfl
  | cons p ps ih => rw [Machine.run_cons, step_done hnext hskip, ih]

/-! ### What the parser leaves alone -/

/-- The fields that only the messages after the parameters use. -/
def Context.metadata (c : Context) : Selector × UInt8 × CString × CString × UInt8 × UInt8 :=
  (c.selectorIndex, c.tokensFound, c.tickerSent, c.tickerReceived, c.decimalsSent,
    c.decimalsReceived)

theorem metadata_handleCurveRouterExchange (msg : ProvideParameter) :
    (handleCurveRouterExchange msg).context.metadata = msg.context.metadata := by
  unfold handleCurveRouterExchange
  split
  case h_2 =>
    dsimp only
    split <;> simp [Context.metadata]
  all_goals simp [Context.metadata]

/-- No handler touches the metadata. -/
theorem metadata_handleSelector (msg : ProvideParameter) :
    (handleSelector msg).context.metadata = msg.context.metadata := by
  unfold handleSelector
  split
  case h_1 => unfold handleZapperDepositEth; split <;> simp [Context.metadata]
  case h_2 => unfold handleZapperDepositSfrxeth; split <;> simp [Context.metadata]
  case h_3 => unfold handleVaultMint; split <;> simp [Context.metadata]
  case h_4 => unfold handleVaultRedeem; split <;> simp [Context.metadata]
  case h_5 | h_6 => unfold handleCurvePoolExchange; split <;> simp [Context.metadata]
  case h_7 => exact metadata_handleCurveRouterExchange msg
  case h_8 => unfold handleUniswapExchange; split <;> simp [Context.metadata]
  case h_9 => unfold handleUniswapExchangeSingle; split <;> simp [Context.metadata]
  case h_10 | h_11 | h_12 | h_13 | h_14 | h_15 =>
    unfold handleFlipperExchange; split <;> simp [Context.metadata]
  case h_16 | h_17 => unfold handleWrap; split <;> simp [Context.metadata]
  case h_18 => simp [Context.metadata]

theorem metadata_step (tx : TxContent) (c : Context) (p : ParamBuffer) :
    ((parser tx).step c p).metadata = c.metadata := by
  by_cases h : c.skip = 0
  · rw [step_handle h, metadata_handleSelector]
  · rw [step_skip h]
    rfl

/-- The parser leaves the metadata as `handle_init_contract` set it. -/
theorem metadata_run (tx : TxContent) (c : Context) (ps : List ParamBuffer) :
    ((parser tx).run c ps).metadata = c.metadata :=
  Machine.run_invariant (I := fun d : Context => d.metadata = c.metadata)
    (fun d p hd => by rw [metadata_step, hd]) rfl ps

theorem Transaction.selectorIndex_parsed (t : Transaction) (ps : List ParamBuffer) :
    (t.parsed ps).selectorIndex = t.selector :=
  congrArg Prod.fst (metadata_run t.tx t.start ps)

end OriginDefi
