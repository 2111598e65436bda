import OriginDefi.QueryContractUi

/-!
# What the amount screens show

`set_send_ui` and `set_receive_ui` settle the ticker in up to three steps: what the context holds,
the table of known addresses, and the switch over the selector, each overriding the one before.

`sentCall` and `receivedCall` are the arguments they come to pass to `amountToString`, as functions
of the context; `setSendUi_eq` and `setReceiveUi_eq` say so.  What they write into the context does
not change these arguments (`sentCall_sendContext` and its three siblings).
-/

namespace OriginDefi

/-! ### The switches over the selector -/

/-- The title of the first amount screen. -/
def Selector.sendTitle : Selector → String
  | .zapperDepositEth | .zapperDepositSfrxeth | .vaultMint => "Deposit"
  | .vaultRedeem => "Redeem"
  | .wrap => "Wrap"
  | .unwrap => "Unwrap"
  | _ => "Send"

/-- The ticker that the switch of `set_send_ui` stores. -/
def Selector.sendTicker (tx : TxContent) : Selector → Option CString
  | .zapperDepositSfrxeth => some sfrxethTicker
  | .vaultRedeem => some (if oethVaultAddress = tx.destination then oethTicker else ousdTicker)
  | .flipperBuyOusdWithUsdt => some usdtTicker
  | .flipperBuyOusdWithDai => some daiTicker
  | .flipperBuyOusdWithUsdc => some usdcTicker
  | .flipperSellOusdForUsdt | .flipperSellOusdForDai | .flipperSellOusdForUsdc => some ousdTicker
  | .wrap => some (if woethAddress = tx.destination then oethTicker else ousdTicker)
  | .unwrap => some (if woethAddress = tx.destination then woethTicker else wousdTicker)
  | _ => none

/-- The decimals that the switch of `set_send_ui` stores. -/
def Selector.sendDecimals : Selector → Option UInt8
  | .flipperBuyOusdWithUsdt | .flipperBuyOusdWithUsdc => some defaultDecimal
  | .flipperBuyOusdWithDai => some daiDecimals
  | .flipperSellOusdForUsdt | .flipperSellOusdForDai | .flipperSellOusdForUsdc =>
    some ousdDecimals
  | _ => none

/-- The ticker that the switch of `set_receive_ui` stores. -/
def Selector.receiveTicker (tx : TxContent) : Selector → Option CString
  | .zapperDepositEth => some oethTicker
  | .zapperDepositSfrxeth | .vaultMint =>
    some (if oethVaultAddress = tx.destination then oethTicker else ousdTicker)
  | .vaultRedeem =>
    some (if oethVaultAddress = tx.destination then lstMixTicker else usdMixTicker)
  | .flipperBuyOusdWithUsdt | .flipperBuyOusdWithDai | .flipperBuyOusdWithUsdc => some ousdTicker
  | .flipperSellOusdForUsdt => some usdtTicker
  | .flipperSellOusdForDai => some daiTicker
  | .flipperSellOusdForUsdc => some usdcTicker
  | _ => none

/-- The decimals that the switch of `set_receive_ui` stores. -/
def Selector.receiveDecimals : Selector → Option UInt8
  | .flipperBuyOusdWithUsdt | .flipperBuyOusdWithDai | .flipperBuyOusdWithUsdc => some ousdDecimals
  | .flipperSellOusdForUsdt | .flipperSellOusdForUsdc => some defaultDecimal
  | .flipperSellOusdForDai => some daiDecimals
  | _ => none

/-- The selectors of the flipper. -/
def Selector.isFlipper : Selector → Bool
  | .flipperBuyOusdWithUsdt | .flipperSellOusdForUsdt | .flipperBuyOusdWithDai
  | .flipperSellOusdForDai | .flipperBuyOusdWithUsdc | .flipperSellOusdForUsdc => true
  | _ => false

/-- The selectors with a case in `set_receive_ui`. -/
def Selector.receives : Selector → Bool
  | .wrap | .unwrap | .unlisted => false
  | _ => true

/-! ### The arguments of `amountToString` -/

section Calls

variable (networkTicker : Ticker) (tx : TxContent) (c : Context)

/-- The length of both amounts: only the value of a `deposit()` has one of its own. -/
def shownLength : UInt8 :=
  if c.selectorIndex = .zapperDepositEth then tx.value.length else UInt8.ofNat int256Length

/-- What `set_send_ui` passes to `amountToString`. -/
def sentCall : AmountCall where
  amount := if c.selectorIndex = .zapperDepositEth then copyValue tx c.amountSent else c.amountSent
  amountSize := shownLength tx c
  decimals := c.selectorIndex.sendDecimals.getD c.decimalsSent
  ticker :=
    ((c.selectorIndex.sendTicker tx).or (addressTicker networkTicker c.contractAddressSent)).getD
      c.tickerSent

/-- What `set_receive_ui` passes to `amountToString`. -/
def receivedCall : AmountCall where
  amount :=
    if c.selectorIndex = .zapperDepositEth then copyValue tx c.minAmountReceived
    else if c.selectorIndex.isFlipper then c.amountSent
    else c.minAmountReceived
  amountSize := shownLength tx c
  decimals := c.selectorIndex.receiveDecimals.getD c.decimalsReceived
  ticker :=
    ((c.selectorIndex.receiveTicker tx).or
      (addressTicker networkTicker c.contractAddressReceived)).getD c.tickerReceived

/-- The context after `set_send_ui`. -/
def sendContext : Context :=
  { c with
    amountSent := (sentCall networkTicker tx c).amount
    amountLength := (sentCall networkTicker tx c).amountSize
    decimalsSent := (sentCall networkTicker tx c).decimals
    tickerSent := (sentCall networkTicker tx c).ticker }

/-- The context after `set_receive_ui`. -/
def receiveContext : Context :=
  { c with
    minAmountReceived := (receivedCall networkTicker tx c).amount
    amountLength := (receivedCall networkTicker tx c).amountSize
    decimalsReceived := (receivedCall networkTicker tx c).decimals
    tickerReceived := (receivedCall networkTicker tx c).ticker }

end Calls

/-- Only the last of two copies into the same buffer counts. -/
theorem strlcpy_strlcpy (dst a b : CString) (size : ℕ) :
    strlcpy (strlcpy dst a size) b size = strlcpy dst b size := by
  unfold strlcpy
  split_ifs <;> rfl

theorem addressTicker_fits {networkTicker : Ticker} {address : Address} {ticker : CString}
    (h : addressTicker networkTicker address = some ticker) : ticker.length < maxTickerLen := by
  unfold addressTicker at h
  split_ifs at h <;> cases h
  · exact networkTicker.fits
  all_goals decide

theorem setTickerSent_of_fits (m : QueryContractUi) {ticker : CString}
    (h : ticker.length < maxTickerLen) :
    m.setTickerSent ticker = { m with context.tickerSent := ticker } := by
  rw [QueryContractUi.setTickerSent, strlcpy_of_lt h]

theorem setTickerReceived_of_fits (m : QueryContractUi) {ticker : CString}
    (h : ticker.length < maxTickerLen) :
    m.setTickerReceived ticker = { m with context.tickerReceived := ticker } := by
  rw [QueryContractUi.setTickerReceived, strlcpy_of_lt h]

/-- The table of addresses overrides the ticker of the context. -/
theorem setKnownTickerSent_eq (m : QueryContractUi) :
    m.setKnownTickerSent =
      { m with
        context.tickerSent :=
          (addressTicker m.networkTicker m.context.contractAddressSent).getD
            m.context.tickerSent } := by
  unfold QueryContractUi.setKnownTickerSent
  cases h : addressTicker m.networkTicker m.context.contractAddressSent with
  | none => rfl
  | some ticker => exact setTickerSent_of_fits m (addressTicker_fits h)

theorem setKnownTickerReceived_eq (m : QueryContractUi) :
    m.setKnownTickerReceived =
      { m with
        context.tickerReceived :=
          (addressTicker m.networkTicker m.context.contractAddressReceived).getD
            m.context.tickerReceived } := by
  unfold QueryContractUi.setKnownTickerReceived
  cases h : addressTicker m.networkTicker m.context.contractAddressReceived with
  | none => rfl
  | some ticker => exact setTickerReceived_of_fits m (addressTicker_fits h)

/-- `set_send_ui` shows the amount of `sentCall`, or refuses a selector it does not know. -/
theorem setSendUi_eq (f : Formatter) (m : QueryContractUi) :
    setSendUi f m =
      let m' :=
        { m with
          context := sendContext m.networkTicker m.txContent m.context
          title := strlcpy m.title m.context.selectorIndex.sendTitle.toList m.titleLength }
      if m.context.selectorIndex = .unlisted then m'.unhandledSelector else m'.showSent f := by
  unfold setSendUi
  rw [setKnownTickerSent_eq]
  cases hs : m.context.selectorIndex
  all_goals
    simp (disch := decide) [hs, QueryContractUi.setTitle, strlcpy_strlcpy, sendContext, sentCall,
      Selector.sendTitle, Selector.sendTicker, Selector.sendDecimals, shownLength,
      setTickerSent_of_fits, QueryContractUi.setDecimalsSent]
  case vaultRedeem | wrap | unwrap => split_ifs <;> rfl

/-- `set_receive_ui` shows the amount of `receivedCall`, or refuses a selector it does not know. -/
theorem setReceiveUi_eq (f : Formatter) (m : QueryContractUi) :
    setReceiveUi f m =
      let m' :=
        { m with
          context := receiveContext m.networkTicker m.txContent m.context
          title := strlcpy m.title "Receive Min".toList m.titleLength }
      if m.context.selectorIndex.receives then m'.showReceived f else m'.unhandledSelector := by
  unfold setReceiveUi
  rw [setKnownTickerReceived_eq]
  cases hs : m.context.selectorIndex
  all_goals
    simp (disch := decide) [hs, QueryContractUi.setTitle, receiveContext, receivedCall,
      Selector.receiveTicker, Selector.receiveDecimals, Selector.receives, Selector.isFlipper,
      shownLength, setTickerReceived_of_fits, QueryContractUi.setDecimalsReceived,
      QueryContractUi.copyAmountSent]
  case zapperDepositSfrxeth | vaultMint | vaultRedeem => split_ifs <;> rfl

/-! ### The calls do not depend on what the screens wrote -/

theorem getD_getD {α : Type*} (a : Option α) (x : α) : a.getD (a.getD x) = a.getD x := by
  cases a <;> rfl

theorem copyValue_copyValue (tx : TxContent) (amount : Bytes int256Length) :
    copyValue tx (copyValue tx amount) = copyValue tx amount := by
  funext i
  simp only [copyValue, Memcpy.apply]
  split_ifs <;> rfl

section Views

variable (networkTicker : Ticker) (tx : TxContent) (c : Context)

@[simp] theorem sentCall_sendContext :
    sentCall networkTicker tx (sendContext networkTicker tx c) = sentCall networkTicker tx c := by
  by_cases hdeposit : c.selectorIndex = .zapperDepositEth <;>
    simp [sentCall, sendContext, shownLength, getD_getD, hdeposit, copyValue_copyValue,
      -Option.getD_or]

@[simp] theorem sentCall_receiveContext :
    sentCall networkTicker tx (receiveContext networkTicker tx c) = sentCall networkTicker tx c :=
  rfl

/-- Only the flipper shows its sent amount on both screens, and `set_send_ui` leaves it alone. -/
@[simp] theorem receivedCall_sendContext :
    receivedCall networkTicker tx (sendContext networkTicker tx c) =
      receivedCall networkTicker tx c := by
  by_cases hdeposit : c.selectorIndex = .zapperDepositEth <;>
    simp [receivedCall, sendContext, sentCall, shownLength, hdeposit]

@[simp] theorem receivedCall_receiveContext :
    receivedCall networkTicker tx (receiveContext networkTicker tx c) =
      receivedCall networkTicker tx c := by
  by_cases hdeposit : c.selectorIndex = .zapperDepositEth <;>
    by_cases hflipper : c.selectorIndex.isFlipper <;>
    simp [receivedCall, receiveContext, shownLength, getD_getD, hdeposit, hflipper,
      copyValue_copyValue, -Option.getD_or]

end Views

end OriginDefi
