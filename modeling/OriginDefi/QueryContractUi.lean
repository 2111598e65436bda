import OriginDefi.Finalize

/-!
# `handle_query_contract_ui.c` and `handle_query_contract_id.c`

The messages that ask what to show: the name of the operation, and the title and text of the
screen at an index.

`amountToString` may throw.  A handler therefore returns the message together with the exception
that ended it, if any, and `queryContractUi` is the call through `main`, which catches it.  The
ghost field `amounts` records the calls of `amountToString`.

A screen also writes into the context (tickers, decimals, amounts), which later queries see.
-/

namespace OriginDefi

/-- The arguments of a call of `amountToString`, apart from the output buffer. -/
structure AmountCall where
  amount : Bytes int256Length
  amountSize : UInt8
  decimals : UInt8
  ticker : CString

/-- `ethQueryContractUI_t`, the fields the plugin uses, and the calls of `amountToString` made so
far. -/
structure QueryContractUi where
  txContent : TxContent
  networkTicker : Ticker
  context : Context
  screenIndex : UInt8
  title : CString
  titleLength : ℕ
  msg : CString
  msgLength : ℕ
  result : Result
  amounts : List AmountCall

/-- The `memcpy` of the value of the transaction, `length` bytes of it, over an amount. -/
def copyValue (tx : TxContent) (amount : Bytes int256Length) : Bytes int256Length :=
  Memcpy.apply
    { dstSize := int256Length, dstIndex := 0, srcSize := int256Length, srcIndex := 0,
      len := tx.value.length.toNat }
    amount (tx.value.value.read fun _ => 0)

namespace QueryContractUi

variable (m : QueryContractUi)

/-- `strlcpy(msg->title, title, msg->titleLength)` -/
def setTitle (title : String) : QueryContractUi :=
  { m with title := strlcpy m.title title.toList m.titleLength }

/-- `strlcpy(context->ticker_sent, ticker, sizeof(context->ticker_sent))` -/
def setTickerSent (ticker : CString) : QueryContractUi :=
  { m with context.tickerSent := strlcpy m.context.tickerSent ticker maxTickerLen }

/-- `strlcpy(context->ticker_received, ticker, sizeof(context->ticker_received))` -/
def setTickerReceived (ticker : CString) : QueryContractUi :=
  { m with context.tickerReceived := strlcpy m.context.tickerReceived ticker maxTickerLen }

/-- `context->decimals_sent = decimals` -/
def setDecimalsSent (decimals : UInt8) : QueryContractUi :=
  { m with context.decimalsSent := decimals }

/-- `context->decimals_received = decimals` -/
def setDecimalsReceived (decimals : UInt8) : QueryContractUi :=
  { m with context.decimalsReceived := decimals }

/-- A call of `amountToString` with the text buffer as its output. -/
def showAmount (f : Formatter) (call : AmountCall) : QueryContractUi × Option Exception :=
  let (text, thrown) :=
    f.amountToString call.amount call.amountSize call.decimals call.ticker m.msgLength
  ({ m with msg := text, amounts := m.amounts ++ [call] }, thrown)

/-- The end of `set_send_ui`. -/
def showSent (f : Formatter) : QueryContractUi × Option Exception :=
  m.showAmount f
    { amount := m.context.amountSent, amountSize := m.context.amountLength,
      decimals := m.context.decimalsSent, ticker := m.context.tickerSent }

/-- The end of `set_receive_ui`. -/
def showReceived (f : Formatter) : QueryContractUi × Option Exception :=
  m.showAmount f
    { amount := m.context.minAmountReceived, amountSize := m.context.amountLength,
      decimals := m.context.decimalsReceived, ticker := m.context.tickerReceived }

/-- The `default:` branches. -/
def unhandledSelector : QueryContractUi × Option Exception :=
  ({ m with result := .error }, none)

end QueryContractUi

/-- The tickers of the addresses that `set_send_ui` and `set_receive_ui` know. -/
def addressTicker (networkTicker : Ticker) (address : Address) : Option CString :=
  if address = nullEthAddress then some networkTicker.text
  else if address = oethAddress then some oethTicker
  else if address = ousdAddress then some ousdTicker
  else if address = daiAddress then some daiTicker
  else if address = usdcAddress then some usdcTicker
  else if address = usdtAddress then some usdtTicker
  else none

/-- The tests of `contract_address_sent` at the start of `set_send_ui`. -/
def QueryContractUi.setKnownTickerSent (m : QueryContractUi) : QueryContractUi :=
  match addressTicker m.networkTicker m.context.contractAddressSent with
  | some ticker => m.setTickerSent ticker
  | none => m

/-- The tests of `contract_address_received` at the start of `set_receive_ui`. -/
def QueryContractUi.setKnownTickerReceived (m : QueryContractUi) : QueryContractUi :=
  match addressTicker m.networkTicker m.context.contractAddressReceived with
  | some ticker => m.setTickerReceived ticker
  | none => m

/-- `set_send_ui` -/
def setSendUi (f : Formatter) (m : QueryContractUi) : QueryContractUi × Option Exception :=
  let m := m.setKnownTickerSent
  let m := { m with context.amountLength := UInt8.ofNat int256Length }
  let m := m.setTitle "Send"
  match m.context.selectorIndex with
  | .zapperDepositEth =>
    let m := m.setTitle "Deposit"
    let m := { m with context.amountSent := copyValue m.txContent m.context.amountSent }
    let m := { m with context.amountLength := m.txContent.value.length }
    m.showSent f
  | .zapperDepositSfrxeth =>
    let m := m.setTitle "Deposit"
    (m.setTickerSent sfrxethTicker).showSent f
  | .vaultMint => (m.setTitle "Deposit").showSent f
  | .vaultRedeem =>
    let m := m.setTitle "Redeem"
    if oethVaultAddress = m.txContent.destination then (m.setTickerSent oethTicker).showSent f
    else (m.setTickerSent ousdTicker).showSent f
  | .curvePoolExchange | .curvePoolExchangeUnderlying | .curveRouterExchangeMultiple
  | .uniswapRouterExactInput | .uniswapRouterExactInputSingle => m.showSent f
  | .flipperBuyOusdWithUsdt =>
    ((m.setTickerSent usdtTicker).setDecimalsSent defaultDecimal).showSent f
  | .flipperBuyOusdWithDai => ((m.setTickerSent daiTicker).setDecimalsSent daiDecimals).showSent f
  | .flipperBuyOusdWithUsdc =>
    ((m.setTickerSent usdcTicker).setDecimalsSent defaultDecimal).showSent f
  | .flipperSellOusdForUsdt | .flipperSellOusdForDai | .flipperSellOusdForUsdc =>
    ((m.setTickerSent ousdTicker).setDecimalsSent ousdDecimals).showSent f
  | .wrap =>
    let m := m.setTitle "Wrap"
    if woethAddress = m.txContent.destination then (m.setTickerSent oethTicker).showSent f
    else (m.setTickerSent ousdTicker).showSent f
  | .unwrap =>
    let m := m.setTitle "Unwrap"
    if woethAddress = m.txContent.destination then (m.setTickerSent woethTicker).showSent f
    else (m.setTickerSent wousdTicker).showSent f
  | .unlisted => m.unhandledSelector

/-- `memcpy(context->min_amount_received, context->amount_sent, sizeof(context->amount_sent))`, the
flipper's rate of one. -/
def QueryContractUi.copyAmountSent (m : QueryContractUi) : QueryContractUi :=
  { m with context.minAmountReceived := m.context.amountSent }

/-- `set_receive_ui`.  `WRAP` and `UNWRAP` are not among its cases. -/
def setReceiveUi (f : Formatter) (m : QueryContractUi) : QueryContractUi × Option Exception :=
  let m := m.setKnownTickerReceived
  let m := { m with context.amountLength := UInt8.ofNat int256Length }
  let m := m.setTitle "Receive Min"
  match m.context.selectorIndex with
  | .zapperDepositEth =>
    let m :=
      { m with context.minAmountReceived := copyValue m.txContent m.context.minAmountReceived }
    let m := { m with context.amountLength := m.txContent.value.length }
    (m.setTickerReceived oethTicker).showReceived f
  | .zapperDepositSfrxeth | .vaultMint =>
    if oethVaultAddress = m.txContent.destination then
      (m.setTickerReceived oethTicker).showReceived f
    else (m.setTickerReceived ousdTicker).showReceived f
  | .vaultRedeem =>
    if oethVaultAddress = m.txContent.destination then
      (m.setTickerReceived lstMixTicker).showReceived f
    else (m.setTickerReceived usdMixTicker).showReceived f
  | .curvePoolExchange | .curvePoolExchangeUnderlying | .curveRouterExchangeMultiple
  | .uniswapRouterExactInput | .uniswapRouterExactInputSingle => m.showReceived f
  | .flipperBuyOusdWithUsdt | .flipperBuyOusdWithDai | .flipperBuyOusdWithUsdc =>
    let m := m.copyAmountSent
    ((m.setTickerReceived ousdTicker).setDecimalsReceived ousdDecimals).showReceived f
  | .flipperSellOusdForUsdt =>
    ((m.copyAmountSent.setTickerReceived usdtTicker).setDecimalsReceived
      defaultDecimal).showReceived f
  | .flipperSellOusdForDai =>
    ((m.copyAmountSent.setTickerReceived daiTicker).setDecimalsReceived daiDecimals).showReceived f
  | .flipperSellOusdForUsdc =>
    ((m.copyAmountSent.setTickerReceived usdcTicker).setDecimalsReceived
      defaultDecimal).showReceived f
  | .wrap | .unwrap | .unlisted => m.unhandledSelector

/-- `set_warning_ui` -/
def setWarningUi (m : QueryContractUi) : QueryContractUi :=
  let m := m.setTitle "WARNING"
  { m with msg := strlcpy m.msg "Unknown token".toList m.msgLength }

/-- `set_beneficiary_ui` -/
def setBeneficiaryUi (f : Formatter) (m : QueryContractUi) : QueryContractUi :=
  let m := m.setTitle "Beneficiary"
  { m with msg := '0' :: 'x' :: f.getEthAddressStringFromBinary m.context.beneficiary 0 }

/-- `get_screen` -/
def getScreen (screenIndex : UInt8) (context : Context) : Screen :=
  let tokenSentFound := context.tokensFound &&& tokenSentFound ≠ 0
  let tokenReceivedFound := context.tokensFound &&& tokenReceivedFound ≠ 0
  let bothTokensFound := tokenReceivedFound ∧ tokenSentFound
  let bothTokensNotFound := ¬tokenReceivedFound ∧ ¬tokenSentFound
  match screenIndex.toNat with
  | 0 =>
    if bothTokensFound then .send
    else if bothTokensNotFound then .warn
    else if tokenSentFound then .send
    else if tokenReceivedFound then .warn
    else .error
  | 1 =>
    if context.selectorIndex.isWrap then .beneficiary
    else if bothTokensFound then .receive
    else if bothTokensNotFound then .send
    else if tokenSentFound then .warn
    else if tokenReceivedFound then .send
    else .error
  | 2 =>
    if bothTokensFound then .beneficiary
    else if bothTokensNotFound then .warn
    else .receive
  | 3 =>
    if bothTokensFound then .error
    else if bothTokensNotFound then .receive
    else .beneficiary
  | 4 =>
    if bothTokensFound then .error
    else if bothTokensNotFound then .beneficiary
    else .error
  | _ => .error

/-- `handle_query_contract_ui` -/
def handleQueryContractUi (f : Formatter) (m : QueryContractUi) :
    QueryContractUi × Option Exception :=
  let m :=
    { m with
      title := clearString m.title m.titleLength
      msg := clearString m.msg m.msgLength
      result := .ok }
  match getScreen m.screenIndex m.context with
  | .send => setSendUi f m
  | .receive => setReceiveUi f m
  | .warn => (setWarningUi m, none)
  | .beneficiary => (setBeneficiaryUi f m, none)
  | .error => ({ m with result := .error }, none)

/-- `handle_query_ui_exception` -/
def handleQueryUiException (m : QueryContractUi) : QueryContractUi := { m with result := .error }

/-- The handler of exceptions in `main`. -/
def catchOther : QueryContractUi × Option Exception → QueryContractUi
  | (m, some .code6502) | (m, some .overflow) => handleQueryUiException m
  | (m, some .other) | (m, none) => m

/-- A query through `main`. -/
def queryContractUi (f : Formatter) (m : QueryContractUi) : QueryContractUi :=
  catchOther (handleQueryContractUi f m)

/-! ### The name of the operation -/

/-- `ethQueryContractID_t`, the fields the plugin uses. -/
structure QueryContractId where
  context : Context
  name : CString
  nameLength : ℕ
  version : CString
  versionLength : ℕ
  result : Result

/-- `PLUGIN_NAME` -/
def pluginName : CString := "Origin DeFi".toList

/-- The second line of the first screen. -/
def Selector.version : Selector → Option String
  | .zapperDepositEth | .zapperDepositSfrxeth | .vaultMint => some "Mint"
  | .vaultRedeem => some "Redeem"
  | .curvePoolExchange | .curvePoolExchangeUnderlying | .curveRouterExchangeMultiple
  | .uniswapRouterExactInput | .uniswapRouterExactInputSingle
  | .flipperBuyOusdWithUsdt | .flipperSellOusdForUsdt | .flipperBuyOusdWithDai
  | .flipperSellOusdForDai | .flipperBuyOusdWithUsdc | .flipperSellOusdForUsdc => some "Swap"
  | .wrap => some "Wrap"
  | .unwrap => some "Unwrap"
  | .unlisted => none

/-- `handle_query_contract_id` -/
def handleQueryContractId (m : QueryContractId) : QueryContractId :=
  let m := { m with name := strlcpy m.name pluginName m.nameLength }
  match m.context.selectorIndex.version with
  | some version =>
    { m with version := strlcpy m.version version.toList m.versionLength, result := .ok }
  | none => { m with result := .error }

end OriginDefi
