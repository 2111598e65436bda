import OriginDefi.Transaction

/-!
# The states of the parser

Each handler treats some values of `next_param` and sends every other one to its `default:` branch,
the only place where a word is refused.  `Selector.expects` lists the states a handler treats.

The first state of an accepted transaction is one of them and every handled word leads to another
(`expected_step`), so the `default:` branches are never reached: every call of a stream returns OK
(`calls_ok`).
-/

namespace OriginDefi

/-- The values of `next_param` that the handler of a selector treats. -/
def Selector.expects : Selector → List Parameter
  | .zapperDepositEth => [.none]
  | .zapperDepositSfrxeth | .vaultRedeem => [.amountSent, .minAmountReceived, .none]
  | .vaultMint => [.tokenSent, .amountSent, .minAmountReceived, .none]
  | .curvePoolExchange | .curvePoolExchangeUnderlying | .curveRouterExchangeMultiple =>
    [.tokenSent, .tokenReceived, .amountSent, .minAmountReceived, .none]
  | .uniswapRouterExactInput =>
    [.beneficiary, .amountSent, .minAmountReceived, .pathLength, .tokenSent, .tokenReceived,
      .tokenReceivedRest, .none]
  | .uniswapRouterExactInputSingle =>
    [.tokenSent, .tokenReceived, .beneficiary, .amountSent, .minAmountReceived, .none]
  | .flipperBuyOusdWithUsdt | .flipperSellOusdForUsdt | .flipperBuyOusdWithDai
  | .flipperSellOusdForDai | .flipperBuyOusdWithUsdc | .flipperSellOusdForUsdc =>
    [.amountSent, .none]
  | .wrap | .unwrap => [.amountSent, .beneficiary, .none]
  | .unlisted => []

/-- The parser is in a state that the handler of its selector treats. -/
def Context.Expected (c : Context) : Prop := c.nextParam ∈ c.selectorIndex.expects

section Blocks

variable (msg : ProvideParameter)

@[simp] theorem result_expect (p : Parameter) : (msg.expect p).result = msg.result := rfl

@[simp] theorem result_addSkip (n : UInt8) : (msg.addSkip n).result = msg.result := rfl

@[simp] theorem result_copySent (copy : Memcpy) (src : ℤ → UInt8) :
    (msg.copySent copy src).result = msg.result := rfl

@[simp] theorem result_copyReceived (copy : Memcpy) (src : ℤ → UInt8) :
    (msg.copyReceived copy src).result = msg.result := rfl

@[simp] theorem result_handleTokenSent : (handleTokenSent msg).result = msg.result := by
  simp only [handleTokenSent]
  split
  · split <;> rfl
  · rfl

@[simp] theorem result_handleTokenReceived : (handleTokenReceived msg).result = msg.result := by
  simp only [handleTokenReceived]
  split
  · split <;> rfl
  · rfl

@[simp] theorem result_handleAmountSent : (handleAmountSent msg).result = msg.result := by
  simp only [handleAmountSent]

@[simp] theorem result_handleMinAmountReceived :
    (handleMinAmountReceived msg).result = msg.result := by
  simp only [handleMinAmountReceived]

@[simp] theorem result_handleBeneficiary : (handleBeneficiary msg).result = msg.result := by
  simp only [handleBeneficiary]

end Blocks

/-- A handler in one of its own states keeps the result and moves to another of its states. -/
theorem handleSelector_expected {msg : ProvideParameter} (h : msg.context.Expected) :
    (handleSelector msg).result = msg.result ∧ (handleSelector msg).context.Expected := by
  have hmeta := metadata_handleSelector msg
  have hsel : (handleSelector msg).context.selectorIndex = msg.context.selectorIndex :=
    congrArg Prod.fst hmeta
  rw [Context.Expected, hsel]
  unfold Context.Expected at h
  cases hs : msg.context.selectorIndex <;> rw [hs] at h <;>
    simp only [Selector.expects, List.mem_cons, List.not_mem_nil, or_false] at h
  case zapperDepositEth => simp [handleSelector, handleZapperDepositEth, hs, h, Selector.expects]
  case zapperDepositSfrxeth =>
    rcases h with h | h | h <;>
      simp [handleSelector, handleZapperDepositSfrxeth, hs, h, Selector.expects]
  case vaultMint =>
    rcases h with h | h | h | h <;> simp [handleSelector, handleVaultMint, hs, h, Selector.expects]
  case vaultRedeem =>
    rcases h with h | h | h <;> simp [handleSelector, handleVaultRedeem, hs, h, Selector.expects]
  case curvePoolExchange | curvePoolExchangeUnderlying =>
    rcases h with h | h | h | h | h <;>
      simp [handleSelector, handleCurvePoolExchange, hs, h, Selector.expects]
  case curveRouterExchangeMultiple =>
    rcases h with h | h | h | h | h
    case inr.inl =>
      simp only [handleSelector, hs, handleCurveRouterExchange, h]
      split <;> simp [Selector.expects]
    all_goals simp [handleSelector, handleCurveRouterExchange, hs, h, Selector.expects]
  case uniswapRouterExactInput =>
    rcases h with h | h | h | h | h | h | h | h <;>
      simp [handleSelector, handleUniswapExchange, hs, h, Selector.expects]
  case uniswapRouterExactInputSingle =>
    rcases h with h | h | h | h | h | h <;>
      simp [handleSelector, handleUniswapExchangeSingle, hs, h, Selector.expects]
  case wrap | unwrap =>
    rcases h with h | h | h <;> simp [handleSelector, handleWrap, hs, h, Selector.expects]
  all_goals
    rcases h with h | h <;> simp [handleSelector, handleFlipperExchange, hs, h, Selector.expects]

/-- A word keeps the parser in the states of its handler. -/
theorem expected_step (tx : TxContent) (c : Context) (p : ParamBuffer) (h : c.Expected) :
    ((parser tx).step c p).Expected := by
  by_cases hskip : c.skip = 0
  · rw [step_handle hskip]
    exact (handleSelector_expected h).2
  · rw [step_skip hskip]
    exact h

/-- In these states no word is refused. -/
theorem result_provide {tx : TxContent} {c : Context} (h : c.Expected) (p : ParamBuffer) :
    (provide tx c p).result = .ok := by
  unfold provide handleProvideParameter
  by_cases hskip : c.skip = 0
  · simp only [hskip, ne_eq, not_true_eq_false, if_false]
    exact (handleSelector_expected h).1
  · simp [hskip]

/-- From these states on every call returns OK. -/
theorem outputs_ok {tx : TxContent} {c : Context} (h : c.Expected) (ps : List ParamBuffer) :
    ∀ call ∈ (parser tx).outputs c ps, call.result = .ok :=
  Machine.outputs_invariant (expected_step tx) (fun _ p hc => result_provide hc p) h ps

namespace Transaction

variable (t : Transaction)

/-- The first state of an accepted transaction is one its handler treats. -/
theorem start_expected : t.start.Expected := by
  obtain ⟨nextParam, skip, hparser, hstart⟩ := t.start_eq
  rw [Context.Expected, hstart]
  simp only [initialContext]
  cases hs : t.selector <;> rw [hs] at hparser <;> simp only [initialParser] at hparser
  case curvePoolExchange | curvePoolExchangeUnderlying =>
    split at hparser <;> simp_all [Selector.expects]
  all_goals simp_all [Selector.expects]

/-- Every prefix of a stream leaves the parser in a state its handler treats. -/
theorem parsed_expected (ps : List ParamBuffer) : (t.parsed ps).Expected :=
  Machine.run_invariant (expected_step t.tx) t.start_expected ps

/-- Every call of a stream returns OK. -/
theorem calls_ok (ps : List ParamBuffer) : ∀ call ∈ t.calls ps, call.result = .ok :=
  outputs_ok t.start_expected ps

end Transaction

end OriginDefi
