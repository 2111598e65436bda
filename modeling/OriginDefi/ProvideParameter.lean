import OriginDefi.Lib.Abi
import OriginDefi.Lib.Machine
import OriginDefi.InitContract

/-!
# `handle_provide_parameter.c`

The streaming parser.  The host sends the calldata one 32-byte word at a time; each word either
only decreases `skip` or goes to the handler of the current selector, which stores it according to
`next_param` and moves `next_param` on.

Every handler works on the message `ethPluginProvideParameter_t`, whose context it updates.  The
ghost field `copies` records the `memcpy` calls made while the message is handled; the one place
where C would write outside the destination of a copy (`tokenReceivedRest` below) shows up there,
and in the context only the destination itself changes.

`parser` is the machine of the whole stream, over the transaction that stays fixed meanwhile.
-/

namespace OriginDefi

/-- `ethPluginProvideParameter_t`, and the copies made so far. -/
structure ProvideParameter where
  txContent : TxContent
  context : Context
  parameter : ParamBuffer
  result : Result
  copies : List Memcpy

/-! ### Storing one word -/

/-- A copy of `len` bytes of the parameter into a field of `size` bytes. -/
def paramCopy (size : ℕ) (dstIndex srcIndex len : ℤ) : Memcpy :=
  { dstSize := size
    dstIndex := dstIndex
    srcSize := parameterLength
    srcIndex := srcIndex
    len := len }

/-- A copy of a constant address into an address field. -/
def addressCopy : Memcpy :=
  { dstSize := addressLength, dstIndex := 0, srcSize := addressLength, srcIndex := 0,
    len := addressLength }

/-- `copy` into `contract_address_sent`, from memory `src`. -/
def ProvideParameter.copySent (msg : ProvideParameter) (copy : Memcpy) (src : ℤ → UInt8) :
    ProvideParameter :=
  { msg with
    context.contractAddressSent := copy.apply msg.context.contractAddressSent src
    copies := msg.copies ++ [copy] }

/-- `copy` into `contract_address_received`, from memory `src`. -/
def ProvideParameter.copyReceived (msg : ProvideParameter) (copy : Memcpy) (src : ℤ → UInt8) :
    ProvideParameter :=
  { msg with
    context.contractAddressReceived := copy.apply msg.context.contractAddressReceived src
    copies := msg.copies ++ [copy] }

/-- `context->next_param = nextParam` -/
def ProvideParameter.expect (msg : ProvideParameter) (nextParam : Parameter) : ProvideParameter :=
  { msg with context.nextParam := nextParam }

/-- `context->skip += n` -/
def ProvideParameter.addSkip (msg : ProvideParameter) (n : UInt8) : ProvideParameter :=
  { msg with context.skip := msg.context.skip + n }

/-- The `default:` branch of a handler. -/
def ProvideParameter.notSupported (msg : ProvideParameter) : ProvideParameter :=
  { msg with result := .error }

/-- The switches over the last byte of a Curve pool index: the coin of the pool at the
destination, or `none` in the `default:` branch and at any other destination. -/
def curvePoolCoin (destination : Address) (index : UInt8) : Option Address :=
  if curveOethPoolAddress = destination then
    match index.toNat with
    | 0 => some nullEthAddress
    | 1 => some oethAddress
    | _ => none
  else if curveOusdPoolAddress = destination then
    match index.toNat with
    | 0 => some ousdAddress
    | 1 => some daiAddress
    | 2 => some usdcAddress
    | 3 => some usdtAddress
    | _ => none
  else none

/-- The selectors whose tokens are indices into a Curve pool. -/
def Selector.isCurvePool (s : Selector) : Bool :=
  s = .curvePoolExchange ∨ s = .curvePoolExchangeUnderlying

/-- `handle_token_sent` -/
def handleTokenSent (msg : ProvideParameter) : ProvideParameter :=
  let msg := { msg with context.contractAddressSent := fun _ => 0 }
  if msg.context.selectorIndex.isCurvePool then
    match curvePoolCoin msg.txContent.destination (msg.parameter.word 31) with
    | some coin => msg.copySent addressCopy (coin.read fun _ => 0)
    -- "Param not supported": the address stays zero, but the result stays OK
    | none => msg
  else
    msg.copySent (paramCopy addressLength 0 (parameterLength - addressLength) addressLength)
      msg.parameter.read

/-- `handle_token_received` -/
def handleTokenReceived (msg : ProvideParameter) : ProvideParameter :=
  let msg := { msg with context.contractAddressReceived := fun _ => 0 }
  if msg.context.selectorIndex.isCurvePool then
    match curvePoolCoin msg.txContent.destination (msg.parameter.word 31) with
    | some coin => msg.copyReceived addressCopy (coin.read fun _ => 0)
    | none => msg
  else
    msg.copyReceived (paramCopy addressLength 0 (parameterLength - addressLength) addressLength)
      msg.parameter.read

/-- `handle_amount_sent` -/
def handleAmountSent (msg : ProvideParameter) : ProvideParameter :=
  let copy := paramCopy int256Length 0 0 int256Length
  { msg with
    context.amountSent := copy.apply msg.context.amountSent msg.parameter.read
    copies := msg.copies ++ [copy] }

/-- `handle_min_amount_received` -/
def handleMinAmountReceived (msg : ProvideParameter) : ProvideParameter :=
  let copy := paramCopy int256Length 0 0 parameterLength
  { msg with
    context.minAmountReceived := copy.apply msg.context.minAmountReceived msg.parameter.read
    copies := msg.copies ++ [copy] }

/-- `handle_beneficiary` -/
def handleBeneficiary (msg : ProvideParameter) : ProvideParameter :=
  let copy := paramCopy addressLength 0 (parameterLength - addressLength) addressLength
  { msg with
    context.beneficiary := copy.apply (fun _ => 0) msg.parameter.read
    copies := msg.copies ++ [copy] }

/-! ### The handlers of the selectors -/

/-- `handle_zapper_deposit_eth` -/
def handleZapperDepositEth (msg : ProvideParameter) : ProvideParameter :=
  match msg.context.nextParam with
  | .none => msg
  | _ => msg.notSupported

/-- `handle_zapper_deposit_sfrxeth` -/
def handleZapperDepositSfrxeth (msg : ProvideParameter) : ProvideParameter :=
  match msg.context.nextParam with
  | .amountSent => (handleAmountSent msg).expect .minAmountReceived
  | .minAmountReceived => (handleMinAmountReceived msg).expect .none
  | .none => msg
  | _ => msg.notSupported

/-- `handle_vault_mint` -/
def handleVaultMint (msg : ProvideParameter) : ProvideParameter :=
  match msg.context.nextParam with
  | .tokenSent => (handleTokenSent msg).expect .amountSent
  | .amountSent => (handleAmountSent msg).expect .minAmountReceived
  | .minAmountReceived => (handleMinAmountReceived msg).expect .none
  | .none => msg
  | _ => msg.notSupported

/-- `handle_vault_redeem` -/
def handleVaultRedeem (msg : ProvideParameter) : ProvideParameter :=
  match msg.context.nextParam with
  | .amountSent => (handleAmountSent msg).expect .minAmountReceived
  | .minAmountReceived => (handleMinAmountReceived msg).expect .none
  | .none => msg
  | _ => msg.notSupported

/-- `handle_curve_pool_exchange` -/
def handleCurvePoolExchange (msg : ProvideParameter) : ProvideParameter :=
  match msg.context.nextParam with
  | .tokenSent => (handleTokenSent msg).expect .tokenReceived
  | .tokenReceived => (handleTokenReceived msg).expect .amountSent
  | .amountSent => (handleAmountSent msg).expect .minAmountReceived
  | .minAmountReceived => (handleMinAmountReceived msg).expect .none
  | .none => msg
  | _ => msg.notSupported

/-- `handle_curve_router_exchange`.  A zero word ends the route; the rest of the route and the
twelve words of `_swap_params` are skipped. -/
def handleCurveRouterExchange (msg : ProvideParameter) : ProvideParameter :=
  match msg.context.nextParam with
  | .tokenSent => (handleTokenSent msg).expect .tokenReceived
  | .tokenReceived =>
    -- the word that ends the route is counted too
    let msg := { msg with context.counter := msg.context.counter + 1 }
    if Abi.address msg.parameter.word = nullEthAddress then
      let msg := msg.addSkip (20 - msg.context.counter)
      let msg := { msg with context.counter := 0 }
      msg.expect .amountSent
    else
      (handleTokenReceived msg).expect .tokenReceived
  | .amountSent => (handleAmountSent msg).expect .minAmountReceived
  | .minAmountReceived => (handleMinAmountReceived msg).expect .none
  | .none => msg
  | _ => msg.notSupported

/-- `U2BE(word, PARAMETER_LENGTH - sizeof(offset))`: the two low bytes of a word. -/
def u2be (w : Word) : UInt16 := UInt16.ofNat ((w 30).toNat * 256 + (w 31).toNat)

/-- `(context->offset - ADDRESS_LENGTH) % PARAMETER_LENGTH`, in C's signed arithmetic. -/
def pathRemainder (offset : UInt16) : ℤ := ((offset.toNat : ℤ) - addressLength).tmod parameterLength

/-- `(context->offset - ADDRESS_LENGTH) / 32 - 1`, converted to `uint8_t`. -/
def pathSkip (offset : UInt16) : UInt8 :=
  UInt8.ofInt (((offset.toNat : ℤ) - addressLength).tdiv 32 - 1)

/-- The copy of the branch `TOKEN_RECEIVED` of `handle_uniswap_exchange`. -/
def receivedCopy (offset : UInt16) : Memcpy :=
  paramCopy addressLength 0 (pathRemainder offset) addressLength

/-- The copy of the branch `TOKEN_RECEIVED_REST` of `handle_uniswap_exchange`. -/
def receivedRestCopy (offset : UInt16) : Memcpy :=
  paramCopy addressLength (parameterLength - pathRemainder offset) 0
    (pathRemainder offset + addressLength - parameterLength)

/-- `handle_uniswap_exchange`.  The received token starts 20 bytes before the end of the path; it
may straddle two words. -/
def handleUniswapExchange (msg : ProvideParameter) : ProvideParameter :=
  match msg.context.nextParam with
  | .beneficiary => ((handleBeneficiary msg).addSkip 1).expect .amountSent
  | .amountSent => (handleAmountSent msg).expect .minAmountReceived
  | .minAmountReceived => (handleMinAmountReceived msg).expect .pathLength
  | .pathLength =>
    let msg := { msg with context.offset := u2be msg.parameter.word }
    msg.expect .tokenSent
  | .tokenSent =>
    -- the path begins with the token itself, without padding before it
    let msg := msg.copySent (paramCopy addressLength 0 0 addressLength) msg.parameter.read
    let msg := { msg with context.skip := pathSkip msg.context.offset }
    msg.expect .tokenReceived
  | .tokenReceived =>
    (msg.copyReceived (receivedCopy msg.context.offset) msg.parameter.read).expect
      .tokenReceivedRest
  | .tokenReceivedRest =>
    -- made whether or not there is a rest
    (msg.copyReceived (receivedRestCopy msg.context.offset) msg.parameter.read).expect .none
  | .none => msg
  | _ => msg.notSupported

/-- `handle_uniswap_exchange_single` -/
def handleUniswapExchangeSingle (msg : ProvideParameter) : ProvideParameter :=
  match msg.context.nextParam with
  | .tokenSent => (handleTokenSent msg).expect .tokenReceived
  | .tokenReceived => ((handleTokenReceived msg).addSkip 1).expect .beneficiary
  | .beneficiary => ((handleBeneficiary msg).addSkip 1).expect .amountSent
  | .amountSent => (handleAmountSent msg).expect .minAmountReceived
  | .minAmountReceived => (handleMinAmountReceived msg).expect .none
  | .none => msg
  | _ => msg.notSupported

/-- `handle_flipper_exchange` -/
def handleFlipperExchange (msg : ProvideParameter) : ProvideParameter :=
  match msg.context.nextParam with
  | .amountSent => (handleAmountSent msg).expect .none
  | .none => msg
  | _ => msg.notSupported

/-- `handle_wrap` -/
def handleWrap (msg : ProvideParameter) : ProvideParameter :=
  match msg.context.nextParam with
  | .amountSent => (handleAmountSent msg).expect .beneficiary
  | .beneficiary => (handleBeneficiary msg).expect .none
  | .none => msg
  | _ => msg.notSupported

/-- The switch over `selectorIndex` in `handle_provide_parameter`. -/
def handleSelector (msg : ProvideParameter) : ProvideParameter :=
  match msg.context.selectorIndex with
  | .zapperDepositEth => handleZapperDepositEth msg
  | .zapperDepositSfrxeth => handleZapperDepositSfrxeth msg
  | .vaultMint => handleVaultMint msg
  | .vaultRedeem => handleVaultRedeem msg
  | .curvePoolExchange | .curvePoolExchangeUnderlying => handleCurvePoolExchange msg
  | .curveRouterExchangeMultiple => handleCurveRouterExchange msg
  | .uniswapRouterExactInput => handleUniswapExchange msg
  | .uniswapRouterExactInputSingle => handleUniswapExchangeSingle msg
  | .flipperBuyOusdWithUsdt | .flipperSellOusdForUsdt | .flipperBuyOusdWithDai
  | .flipperSellOusdForDai | .flipperBuyOusdWithUsdc | .flipperSellOusdForUsdc =>
    handleFlipperExchange msg
  | .wrap | .unwrap => handleWrap msg
  | .unlisted => msg.notSupported

/-- `handle_provide_parameter` -/
def handleProvideParameter (msg : ProvideParameter) : ProvideParameter :=
  let msg := { msg with result := .ok }
  if msg.context.skip ≠ 0 then
    { msg with context.skip := msg.context.skip - 1 }
  else
    handleSelector msg

/-! ### The stream of words -/

/-- The message that delivers the word `p` in context `context`, after it has been handled. -/
def provide (tx : TxContent) (context : Context) (p : ParamBuffer) : ProvideParameter :=
  handleProvideParameter
    { txContent := tx, context := context, parameter := p, result := .ok, copies := [] }

/-- The parser of a transaction: contexts, words and handled messages. -/
def parser (tx : TxContent) : Machine Context ParamBuffer ProvideParameter where
  step context p := (provide tx context p).context
  output := provide tx

end OriginDefi
