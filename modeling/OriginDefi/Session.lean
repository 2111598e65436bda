import OriginDefi.Finalize
import OriginDefi.Transaction

/-!
# From the last word to the first screen

`Transaction.finalized` is `handle_finalize` after the last word, `Transaction.tokens` what follows
it: the host sends its token answer if `handle_finalize` asked for one.

`shown_eq` gives the context that the screens are shown from.  Each side of the trade has its
ticker and decimals from one source, and `tokens_found` has the bit of a side exactly when its
token is `resolved`.
-/

namespace OriginDefi

/-- The five tokens the plugin knows by address. -/
def builtinTokens : List Address := [oethAddress, ousdAddress, daiAddress, usdcAddress, usdtAddress]

theorem checkedDecimals_eq_none_iff (address : Address) :
    checkedDecimals address = none ↔ address ∉ builtinTokens := by
  simp only [checkedDecimals, builtinTokens]
  split_ifs <;> simp_all

/-- The token at an address is the network token, built in, or known to the host. -/
def resolved (address : Address) (item : Option TokenDefinition) : Bool :=
  address = nullEthAddress ∨ address ∈ builtinTokens ∨ item.isSome

/-- The decimals that a token gets. -/
def tokenDecimals (address : Address) (item : Option TokenDefinition) : UInt8 :=
  if address = nullEthAddress then weiToEther
  else (checkedDecimals address).getD (item.elim defaultDecimal TokenDefinition.decimals)

/-- The ticker that `handle_provide_token` stores for a token, over the one in the context. -/
def storedTicker (address : Address) (item : Option TokenDefinition) (ticker : CString) : CString :=
  if address = nullEthAddress ∨ address ∈ builtinTokens then ticker
  else item.elim defaultTicker fun token => token.ticker.text

/-- The bit of a token in `tokens_found`. -/
def foundBit (bit : UInt8) (found : Bool) : UInt8 := if found then bit else 0

/-! ### The two sides of `handle_provide_token` -/

theorem null_notMem_builtinTokens : nullEthAddress ∉ builtinTokens := by decide

/-- A token whose decimals are built in is not the network token. -/
theorem mem_builtinTokens_of_decimals {address : Address} {decimals : UInt8}
    (h : checkedDecimals address = some decimals) :
    address ∈ builtinTokens ∧ address ≠ nullEthAddress := by
  have hmem : address ∈ builtinTokens := by
    by_contra hmem
    rw [(checkedDecimals_eq_none_iff _).2 hmem] at h
    cases h
  refine ⟨hmem, ?_⟩
  rintro rfl
  exact null_notMem_builtinTokens hmem

theorem provideSent_eq (msg : ProvideInfo) :
    provideSent msg =
      let address := msg.context.contractAddressSent
      { msg with
        context :=
          { msg.context with
            decimalsSent := tokenDecimals address msg.item1
            tickerSent := storedTicker address msg.item1 msg.context.tickerSent
            tokensFound :=
              msg.context.tokensFound ||| foundBit tokenSentFound (resolved address msg.item1) }
        additionalScreens :=
          msg.additionalScreens + if resolved address msg.item1 then 0 else 1 } := by
  simp only [provideSent, checkTokenSent]
  cases hknown : checkedDecimals msg.context.contractAddressSent with
  | some decimals =>
    obtain ⟨hmem, hne⟩ := mem_builtinTokens_of_decimals hknown
    simp [tokenDecimals, storedTicker, resolved, foundBit, hknown, hmem, hne]
  | none =>
    have hmem := (checkedDecimals_eq_none_iff _).1 hknown
    by_cases hne : msg.context.contractAddressSent = nullEthAddress
    · simp [tokenDecimals, storedTicker, resolved, foundBit, hne, sentNetworkToken]
    · cases hitem : msg.item1 with
      | none =>
        simp [tokenDecimals, storedTicker, resolved, foundBit, hknown, hmem, hne, strlcpy,
          defaultTicker, maxTickerLen]
      | some token =>
        simp [tokenDecimals, storedTicker, resolved, foundBit, hknown, hmem, hne, strlcpy_ticker]

/-- The special case of `VAULT_REDEEM` is never taken where that selector records no token. -/
theorem provideReceived_eq (msg : ProvideInfo)
    (hredeem : msg.context.selectorIndex = .vaultRedeem →
      msg.context.contractAddressReceived = nullEthAddress) :
    provideReceived msg =
      let address := msg.context.contractAddressReceived
      { msg with
        context :=
          { msg.context with
            decimalsReceived := tokenDecimals address msg.item2
            tickerReceived := storedTicker address msg.item2 msg.context.tickerReceived
            tokensFound :=
              msg.context.tokensFound |||
                foundBit tokenReceivedFound (resolved address msg.item2) }
        additionalScreens :=
          msg.additionalScreens + if resolved address msg.item2 then 0 else 1 } := by
  simp only [provideReceived, checkTokenReceived]
  cases hknown : checkedDecimals msg.context.contractAddressReceived with
  | some decimals =>
    obtain ⟨hmem, hne⟩ := mem_builtinTokens_of_decimals hknown
    simp [tokenDecimals, storedTicker, resolved, foundBit, hknown, hmem, hne]
  | none =>
    have hmem := (checkedDecimals_eq_none_iff _).1 hknown
    by_cases hne : msg.context.contractAddressReceived = nullEthAddress
    · simp [tokenDecimals, storedTicker, resolved, foundBit, hne, receivedNetworkToken]
    · have hsel : msg.context.selectorIndex ≠ .vaultRedeem := by
        intro h
        exact hne (hredeem h)
      cases hitem : msg.item2 with
      | none =>
        simp [tokenDecimals, storedTicker, resolved, foundBit, hknown, hmem, hne, strlcpy, hsel,
          defaultTicker, maxTickerLen]
      | some token =>
        simp [tokenDecimals, storedTicker, resolved, foundBit, hknown, hmem, hne, strlcpy_ticker]

/-- What `handle_provide_token` does, as one function of the two addresses and items. -/
def providedContext (c : Context) (item1 item2 : Option TokenDefinition) : Context :=
  let sent := c.contractAddressSent
  let received := c.contractAddressReceived
  { c with
    decimalsSent := tokenDecimals sent item1
    tickerSent := storedTicker sent item1 c.tickerSent
    decimalsReceived := tokenDecimals received item2
    tickerReceived := storedTicker received item2 c.tickerReceived
    tokensFound :=
      c.tokensFound ||| foundBit tokenSentFound (resolved sent item1) |||
        foundBit tokenReceivedFound (resolved received item2) }

theorem handleProvideToken_eq (msg : ProvideInfo)
    (hredeem : msg.context.selectorIndex = .vaultRedeem →
      msg.context.contractAddressReceived = nullEthAddress) :
    handleProvideToken msg =
      { msg with
        context := providedContext msg.context msg.item1 msg.item2
        additionalScreens :=
          msg.additionalScreens +
            (if resolved msg.context.contractAddressSent msg.item1 then 0 else 1) +
            (if resolved msg.context.contractAddressReceived msg.item2 then 0 else 1)
        result := .ok } := by
  have hreceived := provideReceived_eq (provideSent msg) (by rw [provideSent_eq]; exact hredeem)
  simp only [handleProvideToken, hreceived]
  simp only [provideSent_eq, providedContext]

/-! ### `handle_finalize` -/

/-- The screens counted by `handle_finalize`. -/
def countedScreens (c : Context) (user : Address) : UInt8 :=
  if c.selectorIndex.isUniswap ∧ user ≠ c.beneficiary then 3
  else if c.selectorIndex.isWrap ∧ user = c.beneficiary then 1
  else 2

theorem finalizeSent_eq (msg : Finalize) :
    finalizeSent msg =
      let sent := msg.context.contractAddressSent
      { msg with
        context :=
          { msg.context with
            decimalsSent := if sent = nullEthAddress then weiToEther else msg.context.decimalsSent
            tokensFound :=
              msg.context.tokensFound ||| foundBit tokenSentFound (sent = nullEthAddress) }
        tokenLookup1 := if sent = nullEthAddress then none else some sent } := by
  by_cases h : msg.context.contractAddressSent = nullEthAddress <;>
    simp [finalizeSent, sentNetworkToken, foundBit, h]

theorem finalizeReceived_eq (msg : Finalize) :
    finalizeReceived msg =
      let received := msg.context.contractAddressReceived
      { msg with
        context :=
          { msg.context with
            decimalsReceived :=
              if received = nullEthAddress then weiToEther else msg.context.decimalsReceived
            tokensFound :=
              msg.context.tokensFound |||
                foundBit tokenReceivedFound (received = nullEthAddress) }
        tokenLookup2 := if received = nullEthAddress then none else some received } := by
  by_cases h : msg.context.contractAddressReceived = nullEthAddress <;>
    simp [finalizeReceived, receivedNetworkToken, foundBit, h]

/-- What `handle_finalize` does to the context. -/
def finalizedContext (c : Context) : Context :=
  { c with
    decimalsSent := if c.contractAddressSent = nullEthAddress then weiToEther else c.decimalsSent
    decimalsReceived :=
      if c.contractAddressReceived = nullEthAddress then weiToEther else c.decimalsReceived
    tokensFound :=
      c.tokensFound ||| foundBit tokenSentFound (c.contractAddressSent = nullEthAddress) |||
        foundBit tokenReceivedFound (c.contractAddressReceived = nullEthAddress) }

theorem handleFinalize_eq (msg : Finalize) :
    handleFinalize msg =
      let sent := msg.context.contractAddressSent
      let received := msg.context.contractAddressReceived
      { context := finalizedContext msg.context
        address := msg.address
        tokenLookup1 := if sent = nullEthAddress then none else some sent
        tokenLookup2 := if received = nullEthAddress then none else some received
        numScreens := countedScreens msg.context msg.address
        uiType := .generic
        result := .ok } := by
  simp only [handleFinalize, finalizeSent_eq, finalizeReceived_eq, countedScreens]
  by_cases huniswap : msg.context.selectorIndex.isUniswap ∧ msg.address ≠ msg.context.beneficiary
  · have hwrap : ¬(msg.context.selectorIndex.isWrap ∧ msg.address = msg.context.beneficiary) := by
      rintro ⟨-, hsame⟩
      exact huniswap.2 hsame
    simp only [if_pos huniswap, if_neg hwrap]
    rfl
  · simp only [if_neg huniswap]
    by_cases hwrap : msg.context.selectorIndex.isWrap ∧ msg.address = msg.context.beneficiary
    · simp only [if_pos hwrap]
      rfl
    · simp only [if_neg hwrap]
      rfl

/-- Bits that are already set do not matter. -/
theorem foundBits_absorb {sent received sent' received' : Bool} (hsent : sent → sent')
    (hreceived : received → received') :
    foundBit tokenSentFound sent ||| foundBit tokenReceivedFound received |||
        foundBit tokenSentFound sent' ||| foundBit tokenReceivedFound received' =
      foundBit tokenSentFound sent' ||| foundBit tokenReceivedFound received' := by
  revert sent received sent' received'
  decide

theorem resolved_of_null {address : Address} (item : Option TokenDefinition)
    (h : address = nullEthAddress) : resolved address item := by
  simp [resolved, h]

/-! ### Selectors without tokens of their own -/

/-- The selectors whose calls name a sent token. -/
def Selector.recordsSent : Selector → Bool
  | .vaultMint | .curvePoolExchange | .curvePoolExchangeUnderlying | .curveRouterExchangeMultiple
  | .uniswapRouterExactInput | .uniswapRouterExactInputSingle => true
  | _ => false

/-- The selectors whose calls name a received token. -/
def Selector.recordsReceived : Selector → Bool
  | .curvePoolExchange | .curvePoolExchangeUnderlying | .curveRouterExchangeMultiple
  | .uniswapRouterExactInput | .uniswapRouterExactInputSingle => true
  | _ => false

theorem sent_handleSelector {msg : ProvideParameter}
    (h : msg.context.selectorIndex.recordsSent = false) :
    (handleSelector msg).context.contractAddressSent = msg.context.contractAddressSent := by
  cases hs : msg.context.selectorIndex <;> rw [hs] at h <;> try cases h
  all_goals simp only [handleSelector, hs]
  case zapperDepositEth => unfold handleZapperDepositEth; split <;> simp
  case zapperDepositSfrxeth => unfold handleZapperDepositSfrxeth; split <;> simp
  case vaultRedeem => unfold handleVaultRedeem; split <;> simp
  case wrap | unwrap => unfold handleWrap; split <;> simp
  case unlisted => simp
  all_goals unfold handleFlipperExchange; split <;> simp

theorem received_handleSelector {msg : ProvideParameter}
    (h : msg.context.selectorIndex.recordsReceived = false) :
    (handleSelector msg).context.contractAddressReceived =
      msg.context.contractAddressReceived := by
  cases hs : msg.context.selectorIndex <;> rw [hs] at h <;> try cases h
  all_goals simp only [handleSelector, hs]
  case zapperDepositEth => unfold handleZapperDepositEth; split <;> simp
  case zapperDepositSfrxeth => unfold handleZapperDepositSfrxeth; split <;> simp
  case vaultMint => unfold handleVaultMint; split <;> simp
  case vaultRedeem => unfold handleVaultRedeem; split <;> simp
  case wrap | unwrap => unfold handleWrap; split <;> simp
  case unlisted => simp
  all_goals unfold handleFlipperExchange; split <;> simp

/-- Addresses stay null where the selector records no token. -/
def Context.TokensNamed (c : Context) : Prop :=
  (c.selectorIndex.recordsSent = false → c.contractAddressSent = nullEthAddress) ∧
    (c.selectorIndex.recordsReceived = false → c.contractAddressReceived = nullEthAddress)

theorem tokensNamed_step (tx : TxContent) (c : Context) (p : ParamBuffer) (h : c.TokensNamed) :
    ((parser tx).step c p).TokensNamed := by
  have hsel : ((parser tx).step c p).selectorIndex = c.selectorIndex :=
    congrArg Prod.fst (metadata_step tx c p)
  rw [Context.TokensNamed, hsel]
  by_cases hskip : c.skip = 0
  · rw [step_handle hskip]
    obtain ⟨hsent, hreceived⟩ := h
    constructor
    · intro hs
      exact (sent_handleSelector hs).trans (hsent hs)
    · intro hs
      exact (received_handleSelector hs).trans (hreceived hs)
  · rw [step_skip hskip]
    exact h

/-! ### The whole run -/

/-- What the host answers to the token lookups. -/
structure HostAnswer where
  item1 : Option TokenDefinition
  item2 : Option TokenDefinition

namespace Transaction

variable (t : Transaction) (ps : List ParamBuffer) (user : Address) (answer : HostAnswer)

theorem parsed_tokensNamed : (t.parsed ps).TokensNamed := by
  refine Machine.run_invariant (tokensNamed_step t.tx) ?_ ps
  obtain ⟨nextParam, skip, -, hstart⟩ := t.start_eq
  rw [hstart]
  exact ⟨fun _ => rfl, fun _ => rfl⟩

theorem metadata_parsed : (t.parsed ps).metadata = (t.selector, 0, [], [], 0, 0) := by
  obtain ⟨nextParam, skip, -, hstart⟩ := t.start_eq
  rw [parsed, metadata_run, hstart]
  rfl

/-- The message of `handle_finalize` after the last word. -/
def finalized : Finalize :=
  handleFinalize
    { context := t.parsed ps, address := user, tokenLookup1 := none, tokenLookup2 := none,
      numScreens := 0, uiType := .amountAddress, result := .error }

/-- `handle_finalize` accepts every context. -/
theorem finalized_ok : (t.finalized ps user).result = .ok := by
  rw [finalized, handleFinalize_eq]

/-- The token answer, sent only if `handle_finalize` asked for a token. -/
def tokens : ProvideInfo :=
  let msg : ProvideInfo :=
    { context := (t.finalized ps user).context, item1 := answer.item1, item2 := answer.item2,
      additionalScreens := 0, result := .ok }
  if (t.finalized ps user).tokenLookup1.isSome ∨ (t.finalized ps user).tokenLookup2.isSome then
    handleProvideToken msg
  else msg

/-- The context that the screens are shown from. -/
def shown : Context := (t.tokens ps user answer).context

/-- The number of screens. -/
def screenCount : ℕ :=
  ((t.finalized ps user).numScreens + (t.tokens ps user answer).additionalScreens).toNat

/-- Each side gets its ticker and decimals from its own token, whether or not the host was asked. -/
theorem tokens_eq :
    t.tokens ps user answer =
      let c := t.parsed ps
      { context :=
          { c with
            decimalsSent := tokenDecimals c.contractAddressSent answer.item1
            tickerSent := storedTicker c.contractAddressSent answer.item1 []
            decimalsReceived := tokenDecimals c.contractAddressReceived answer.item2
            tickerReceived := storedTicker c.contractAddressReceived answer.item2 []
            tokensFound :=
              foundBit tokenSentFound (resolved c.contractAddressSent answer.item1) |||
                foundBit tokenReceivedFound (resolved c.contractAddressReceived answer.item2) }
        item1 := answer.item1
        item2 := answer.item2
        additionalScreens :=
          (if resolved c.contractAddressSent answer.item1 then 0 else 1) +
            (if resolved c.contractAddressReceived answer.item2 then 0 else 1)
        result := .ok } := by
  have hmeta := t.metadata_parsed ps
  have hnamed := t.parsed_tokensNamed ps
  simp only [Context.metadata, Prod.mk.injEq] at hmeta
  obtain ⟨hsel, hfound, hsent, hreceived, -, -⟩ := hmeta
  simp only [tokens, finalized, handleFinalize_eq]
  by_cases hnull : (t.parsed ps).contractAddressSent = nullEthAddress ∧
      (t.parsed ps).contractAddressReceived = nullEthAddress
  · -- nothing to look up: `handle_finalize` has settled both sides
    obtain ⟨hs, hr⟩ := hnull
    rw [if_pos hs, if_pos hr, if_neg (by simp)]
    simp [finalizedContext, hs, hr, hfound, hsent, hreceived, resolved, tokenDecimals, storedTicker]
  · have hlookup : ((if (t.parsed ps).contractAddressSent = nullEthAddress then none
          else some (t.parsed ps).contractAddressSent).isSome ∨
        (if (t.parsed ps).contractAddressReceived = nullEthAddress then none
          else some (t.parsed ps).contractAddressReceived).isSome) := by
      by_cases hs : (t.parsed ps).contractAddressSent = nullEthAddress
      · exact Or.inr (by simp [show ¬_ from fun hr => hnull ⟨hs, hr⟩])
      · exact Or.inl (by simp [hs])
    have hredeem : (finalizedContext (t.parsed ps)).selectorIndex = .vaultRedeem →
        (finalizedContext (t.parsed ps)).contractAddressReceived = nullEthAddress := fun h =>
      hnamed.2 (by rw [show (t.parsed ps).selectorIndex = .vaultRedeem from h]; rfl)
    rw [if_pos hlookup, handleProvideToken_eq _ hredeem]
    simp only [providedContext, finalizedContext, hfound, hsent, hreceived, UInt8.zero_or]
    rw [foundBits_absorb (fun h => resolved_of_null _ (of_decide_eq_true h))
      (fun h => resolved_of_null _ (of_decide_eq_true h))]
    simp

end Transaction

end OriginDefi
