import OriginDefi.Context

/-!
# `handle_init_contract.c`

The first message of a transaction: the selector is looked up and the parser is put in its first
state.  `initialParser` is the final switch of the function: the first parameter and the words to
skip before it, or `none` where the call is refused.

`handleInitContract_ok` says exactly what an accepted message leaves behind.
-/

namespace OriginDefi

/-- `ethPluginInitContract_t` -/
structure InitContract where
  interfaceVersion : UInt8
  pluginContextLength : ℕ
  selector : Bytes 4
  txContent : TxContent
  context : Context
  result : Result

/-- `find_selector`, from index `i` of the table on. -/
def findSelectorFrom (selector : ℕ) : ℕ → List ℕ → Option ℕ
  | _, [] => none
  | i, s :: selectors =>
    if selector = s then some i else findSelectorFrom selector (i + 1) selectors

/-- `find_selector` -/
def findSelector (selector : ℕ) (selectors : List ℕ) : Option ℕ :=
  findSelectorFrom selector 0 selectors

/-- The switch over `selectorIndex` in `handle_init_contract`: `next_param`, and what is added to
`skip`. -/
def initialParser (txContent : TxContent) : Selector → Option (Parameter × UInt8)
  | .zapperDepositEth => some (.none, 0)
  | .zapperDepositSfrxeth => some (.amountSent, 0)
  | .vaultMint => some (.tokenSent, 0)
  | .vaultRedeem => some (.amountSent, 0)
  | .curvePoolExchange | .curvePoolExchangeUnderlying =>
    if curveOethPoolAddress = txContent.destination ∨
        curveOusdPoolAddress = txContent.destination then
      some (.tokenSent, 0)
    else none
  | .curveRouterExchangeMultiple => some (.tokenSent, 0)
  | .uniswapRouterExactInput => some (.beneficiary, 2)
  | .uniswapRouterExactInputSingle => some (.tokenSent, 0)
  | .flipperBuyOusdWithUsdt | .flipperSellOusdForUsdt | .flipperBuyOusdWithDai
  | .flipperSellOusdForDai | .flipperBuyOusdWithUsdc | .flipperSellOusdForUsdc
  | .wrap | .unwrap => some (.amountSent, 0)
  | .unlisted => none

/-- `handle_init_contract` -/
def handleInitContract (msg : InitContract) : InitContract :=
  if msg.interfaceVersion ≠ ethPluginInterfaceVersionLatest then
    { msg with result := .unavailable }
  else if msg.pluginContextLength < sizeofContext then
    { msg with result := .error }
  else
    let context := Context.zero
    match findSelector msg.selector.toNat originDefiSelectors with
    | none => { msg with context := context, result := .unavailable }
    | some i =>
      let context := { context with selectorIndex := Selector.ofIndex i }
      match initialParser msg.txContent context.selectorIndex with
      | none => { msg with context := context, result := .error }
      | some (nextParam, skip) =>
        { msg with
          context := { context with nextParam := nextParam, skip := context.skip + skip }
          result := .ok }

/-- The context of an accepted message: everything zero but the selector and the parser's first
state. -/
def initialContext (selector : Selector) (nextParam : Parameter) (skip : UInt8) : Context :=
  { Context.zero with selectorIndex := selector, nextParam := nextParam, skip := skip }

theorem findSelectorFrom_lt {selector i j : ℕ} {selectors : List ℕ}
    (h : findSelectorFrom selector i selectors = some j) : i ≤ j ∧ j < i + selectors.length := by
  induction selectors generalizing i with
  | nil => simp [findSelectorFrom] at h
  | cons s selectors ih =>
    rw [findSelectorFrom] at h
    split_ifs at h
    · cases h
      simp
    · have := ih h
      simp only [List.length_cons]
      omega

theorem findSelectorFrom_get {selector i j : ℕ} {selectors : List ℕ}
    (h : findSelectorFrom selector i selectors = some j) : selectors[j - i]? = some selector := by
  induction selectors generalizing i with
  | nil => simp [findSelectorFrom] at h
  | cons s selectors ih =>
    rw [findSelectorFrom] at h
    split_ifs at h with hs
    · cases h
      simp [hs]
    · obtain ⟨hij, -⟩ := findSelectorFrom_lt h
      rw [show j - i = (j - (i + 1)) + 1 by omega, List.getElem?_cons_succ]
      exact ih h

/-- What an accepted message leaves behind. -/
theorem handleInitContract_ok {msg : InitContract} (h : (handleInitContract msg).result = .ok) :
    ∃ i nextParam skip,
      originDefiSelectors[i]? = some msg.selector.toNat ∧
      initialParser msg.txContent (Selector.ofIndex i) = some (nextParam, skip) ∧
      (handleInitContract msg).context = initialContext (Selector.ofIndex i) nextParam skip := by
  unfold handleInitContract at h ⊢
  split_ifs at h with hversion hlength
  rw [if_neg hversion, if_neg hlength]
  cases hfind : findSelector msg.selector.toNat originDefiSelectors with
  | none => simp [hfind] at h
  | some i =>
    simp only [hfind] at h ⊢
    cases hparser : initialParser msg.txContent (Selector.ofIndex i) with
    | none => simp [hparser] at h
    | some first =>
      refine ⟨i, first.1, first.2, findSelectorFrom_get hfind, hparser, ?_⟩
      simp [initialContext, Context.zero]

end OriginDefi
