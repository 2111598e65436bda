import OriginDefi.InitContract

/-!
# `handle_finalize.c` and `handle_provide_token.c`

After the last word the plugin counts its screens and asks the host to look up the tokens that are
not the network token.  If it asked for one, the host answers with two token definitions, either
of which may be missing, and the plugin adds a warning screen for each token it still does not
know.

`finalizeSent` and `provideSent` are the halves of the two functions that treat the sent token,
`finalizeReceived` and `provideReceived` those that treat the received one.
-/

namespace OriginDefi

/-- `ethPluginFinalize_t`, the fields the plugin uses. -/
structure Finalize where
  context : Context
  address : Address
  tokenLookup1 : Option Address
  tokenLookup2 : Option Address
  numScreens : UInt8
  uiType : UiType
  result : Result

/-- The part of `handle_finalize` about the sent token. -/
def finalizeSent (msg : Finalize) : Finalize :=
  if msg.context.contractAddressSent ≠ nullEthAddress then
    { msg with tokenLookup1 := some msg.context.contractAddressSent }
  else
    { msg with context := sentNetworkToken msg.context, tokenLookup1 := none }

/-- The part of `handle_finalize` about the received token. -/
def finalizeReceived (msg : Finalize) : Finalize :=
  if msg.context.contractAddressReceived ≠ nullEthAddress then
    { msg with tokenLookup2 := some msg.context.contractAddressReceived }
  else
    { msg with context := receivedNetworkToken msg.context, tokenLookup2 := none }

/-- The two Uniswap selectors. -/
def Selector.isUniswap (s : Selector) : Bool :=
  s = .uniswapRouterExactInput ∨ s = .uniswapRouterExactInputSingle

/-- `WRAP` and `UNWRAP`. -/
def Selector.isWrap (s : Selector) : Bool := s = .wrap ∨ s = .unwrap

/-- `handle_finalize` -/
def handleFinalize (msg : Finalize) : Finalize :=
  let msg := { msg with numScreens := 2 }
  -- a swap for somebody else gets a third screen
  let msg :=
    if msg.context.selectorIndex.isUniswap ∧ msg.address ≠ msg.context.beneficiary then
      { msg with numScreens := msg.numScreens + 1 }
    else msg
  -- a wrap has no received token, and its second screen is the beneficiary
  let msg :=
    if msg.context.selectorIndex.isWrap ∧ msg.address = msg.context.beneficiary then
      { msg with numScreens := msg.numScreens - 1 }
    else msg
  let msg := finalizeSent msg
  let msg := finalizeReceived msg
  { msg with uiType := .generic, result := .ok }

/-- `ethPluginProvideInfo_t` -/
structure ProvideInfo where
  context : Context
  item1 : Option TokenDefinition
  item2 : Option TokenDefinition
  additionalScreens : UInt8
  result : Result

/-- The part of `handle_provide_token` about the sent token. -/
def provideSent (msg : ProvideInfo) : ProvideInfo :=
  let (context, found) := checkTokenSent msg.context
  if found then { msg with context := context }
  else if msg.context.contractAddressSent = nullEthAddress then
    { msg with context := sentNetworkToken msg.context }
  else
    match msg.item1 with
    | some token =>
      { msg with
        context :=
          { msg.context with
            decimalsSent := token.decimals
            tickerSent := strlcpy msg.context.tickerSent token.ticker.text maxTickerLen
            tokensFound := msg.context.tokensFound ||| tokenSentFound } }
    | none =>
      { msg with
        context :=
          { msg.context with
            decimalsSent := defaultDecimal
            tickerSent := strlcpy msg.context.tickerSent defaultTicker maxTickerLen }
        additionalScreens := msg.additionalScreens + 1 }

/-- The part of `handle_provide_token` about the received token.  What a vault pays out has no
address of its own and needs no warning. -/
def provideReceived (msg : ProvideInfo) : ProvideInfo :=
  let (context, found) := checkTokenReceived msg.context
  if found then { msg with context := context }
  else if msg.context.contractAddressReceived = nullEthAddress then
    { msg with context := receivedNetworkToken msg.context }
  else
    match msg.item2 with
    | some token =>
      { msg with
        context :=
          { msg.context with
            decimalsReceived := token.decimals
            tickerReceived := strlcpy msg.context.tickerReceived token.ticker.text maxTickerLen
            tokensFound := msg.context.tokensFound ||| tokenReceivedFound } }
    | none =>
      if msg.context.selectorIndex = .vaultRedeem then
        { msg with
          context :=
            { msg.context with
              decimalsReceived := defaultDecimal
              tickerReceived := strlcpy msg.context.tickerReceived unitsTicker maxTickerLen } }
      else
        { msg with
          context :=
            { msg.context with
              decimalsReceived := defaultDecimal
              tickerReceived := strlcpy msg.context.tickerReceived defaultTicker maxTickerLen }
          additionalScreens := msg.additionalScreens + 1 }

/-- `handle_provide_token` -/
def handleProvideToken (msg : ProvideInfo) : ProvideInfo :=
  let msg := provideSent msg
  let msg := provideReceived msg
  { msg with result := .ok }

end OriginDefi
