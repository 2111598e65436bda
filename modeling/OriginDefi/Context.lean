import OriginDefi.Interface

/-!
# The plugin context

`origin_defi_plugin.h` and the tables of `main.c`: the selectors, the parser states, the screens,
the addresses and tickers the plugin knows, and the context shared by all its entry points.

The enumerations are inductive types.  `selectorIndex` is also compared with `default:` branches,
so `Selector` has one more value, `unlisted`, for a byte that is not an enumerator.
-/

namespace OriginDefi

/-- `selector_t` -/
inductive Selector
  | zapperDepositEth
  | zapperDepositSfrxeth
  | vaultMint
  | vaultRedeem
  | curvePoolExchange
  | curvePoolExchangeUnderlying
  | curveRouterExchangeMultiple
  | uniswapRouterExactInput
  | uniswapRouterExactInputSingle
  | flipperBuyOusdWithUsdt
  | flipperSellOusdForUsdt
  | flipperBuyOusdWithDai
  | flipperSellOusdForDai
  | flipperBuyOusdWithUsdc
  | flipperSellOusdForUsdc
  | wrap
  | unwrap
  | unlisted
  deriving DecidableEq

/-- The enumerator with a given index. -/
def Selector.ofIndex : ℕ → Selector
  | 0 => .zapperDepositEth
  | 1 => .zapperDepositSfrxeth
  | 2 => .vaultMint
  | 3 => .vaultRedeem
  | 4 => .curvePoolExchange
  | 5 => .curvePoolExchangeUnderlying
  | 6 => .curveRouterExchangeMultiple
  | 7 => .uniswapRouterExactInput
  | 8 => .uniswapRouterExactInputSingle
  | 9 => .flipperBuyOusdWithUsdt
  | 10 => .flipperSellOusdForUsdt
  | 11 => .flipperBuyOusdWithDai
  | 12 => .flipperSellOusdForDai
  | 13 => .flipperBuyOusdWithUsdc
  | 14 => .flipperSellOusdForUsdc
  | 15 => .wrap
  | 16 => .unwrap
  | _ => .unlisted

/-- `parameter`: what the parser expects next. -/
inductive Parameter
  | tokenSent
  | tokenReceived
  | tokenReceivedRest
  | amountSent
  | minAmountReceived
  | beneficiary
  | pathLength
  | unexpectedParameter
  | none
  deriving DecidableEq

/-- `screens_t` -/
inductive Screen
  | send
  | receive
  | warn
  | beneficiary
  | error
  deriving DecidableEq

/-- `ORIGIN_DEFI_SELECTORS`, in the order of `selector_t`. -/
def originDefiSelectors : List ℕ :=
  [0xd0e30db0,  -- deposit()
   0xd443e97d,  -- depositSFRXETH(uint256 amount,uint256 minOETH)
   0x156e29f6,  -- mint(address _asset,uint256 _amount,uint256 _minimumOusdAmount)
   0x7cbc2373,  -- redeem(uint256 _amount,uint256 _minimumUnitAmount)
   0x3df02124,  -- exchange(int128 i,int128 j,uint256 _dx,uint256 _min_dy)
   0xa6417ed6,  -- exchange_underlying(int128 i,int128 j,uint256 dx,uint256 min_dy)
   0x353ca424,  -- exchange_multiple(address[9],uint256[3][4],uint256,uint256)
   0xc04b8d59,  -- exactInput(tuple params)
   0x414bf389,  -- exactInputSingle(tuple params)
   0x35aa0b96,  -- buyOusdWithUsdt(uint256 amount)
   0xcb939053,  -- sellOusdForUsdt(uint256 amount)
   0x5981c746,  -- buyOusdWithDai(uint256 amount)
   0x8a095a0f,  -- sellOusdForDai(uint256 amount)
   0xbfc11ffd,  -- buyOusdWithUsdc(uint256 amount)
   0xc6b68169,  -- sellOusdForUsdc(uint256 amount)
   0x6e553f65,  -- deposit(uint256 assets,address receiver)
   0xba087652]  -- redeem(uint256 shares,address receiver,address owner)

/-! ### Addresses -/

/-- `NULL_ETH_ADDRESS`: stands for the network token. -/
def nullEthAddress : Address := fun _ => 0

/-- `OETH_ADDRESS` -/
def oethAddress : Address :=
  ![0x85, 0x6c, 0x4e, 0xfb, 0x76, 0xc1, 0xd1, 0xae, 0x02, 0xe2,
    0x0c, 0xeb, 0x03, 0xa2, 0xa6, 0xa0, 0x8b, 0x0b, 0x8d, 0xc3]

/-- `OUSD_ADDRESS` -/
def ousdAddress : Address :=
  ![0x2a, 0x8e, 0x1e, 0x67, 0x6e, 0xc2, 0x38, 0xd8, 0xa9, 0x92,
    0x30, 0x7b, 0x49, 0x5b, 0x45, 0xb3, 0xfe, 0xaa, 0x5e, 0x86]

/-- `DAI_ADDRESS` -/
def daiAddress : Address :=
  ![0x6b, 0x17, 0x54, 0x74, 0xe8, 0x90, 0x94, 0xc4, 0x4d, 0xa9,
    0x8b, 0x95, 0x4e, 0xed, 0xea, 0xc4, 0x95, 0x27, 0x1d, 0x0f]

/-- `USDC_ADDRESS` -/
def usdcAddress : Address :=
  ![0xa0, 0xb8, 0x69, 0x91, 0xc6, 0x21, 0x8b, 0x36, 0xc1, 0xd1,
    0x9d, 0x4a, 0x2e, 0x9e, 0xb0, 0xce, 0x36, 0x06, 0xeb, 0x48]

/-- `USDT_ADDRESS` -/
def usdtAddress : Address :=
  ![0xda, 0xc1, 0x7f, 0x95, 0x8d, 0x2e, 0xe5, 0x23, 0xa2, 0x20,
    0x62, 0x06, 0x99, 0x45, 0x97, 0xc1, 0x3d, 0x83, 0x1e, 0xc7]

/-- `OETH_VAULT_ADDRESS` -/
def oethVaultAddress : Address :=
  ![0x39, 0x25, 0x40, 0x33, 0x94, 0x5a, 0xa2, 0xe4, 0x80, 0x9c,
    0xc2, 0x97, 0x7e, 0x70, 0x87, 0xbe, 0xe4, 0x8b, 0xd7, 0xab]

/-- `WOETH_ADDRESS` -/
def woethAddress : Address :=
  ![0xdc, 0xee, 0x70, 0x65, 0x42, 0x61, 0xaf, 0x21, 0xc4, 0x4c,
    0x09, 0x3c, 0x30, 0x0e, 0xd3, 0xbb, 0x97, 0xb7, 0x81, 0x92]

/-- `CURVE_OETH_POOL_ADDRESS` -/
def curveOethPoolAddress : Address :=
  ![0x94, 0xb1, 0x74, 0x76, 0xa9, 0x3b, 0x32, 0x62, 0xd8, 0x7b,
    0x9a, 0x32, 0x69, 0x65, 0xd1, 0xe9, 0x1f, 0x9c, 0x13, 0xe7]

/-- `CURVE_OUSD_POOL_ADDRESS` -/
def curveOusdPoolAddress : Address :=
  ![0x87, 0x65, 0x0d, 0x7b, 0xbf, 0xc3, 0xa9, 0xf1, 0x05, 0x87,
    0xd7, 0x77, 0x82, 0x06, 0x67, 0x17, 0x19, 0xd9, 0x91, 0x0d]

/-! ### Tickers and decimals -/

def defaultTicker : CString := []
def defaultDecimal : UInt8 := weiToEther
def oethTicker : CString := "OETH".toList
def oethDecimals : UInt8 := weiToEther
def ousdTicker : CString := "OUSD".toList
def ousdDecimals : UInt8 := weiToEther
def daiTicker : CString := "DAI".toList
def daiDecimals : UInt8 := weiToEther
def usdcTicker : CString := "USDC".toList
def usdcDecimals : UInt8 := 6
def usdtTicker : CString := "USDT".toList
def usdtDecimals : UInt8 := 6
def woethTicker : CString := "WOETH".toList
def wousdTicker : CString := "WOUSD".toList
def sfrxethTicker : CString := "sfrxETH".toList

/-- The names of what the vaults pay out, written as literals in the source. -/
def lstMixTicker : CString := "LST MIX".toList
def usdMixTicker : CString := "USD MIX".toList
def unitsTicker : CString := "UNITS".toList

/-- `TOKEN_SENT_FOUND` -/
def tokenSentFound : UInt8 := 1

/-- `TOKEN_RECEIVED_FOUND` -/
def tokenReceivedFound : UInt8 := (1 : UInt8) <<< (1 : UInt8)

/-! ### The context -/

/-- `origin_defi_parameters_t`.  The member `valid` is never written or read and is left out. -/
structure Context where
  amountSent : Bytes int256Length
  minAmountReceived : Bytes int256Length
  contractAddressSent : Address
  contractAddressReceived : Address
  beneficiary : Address
  tickerSent : CString
  tickerReceived : CString
  tokensFound : UInt8
  decimalsSent : UInt8
  decimalsReceived : UInt8
  skip : UInt8
  amountLength : UInt8
  nextParam : Parameter
  counter : UInt8
  offset : UInt16
  selectorIndex : Selector

/-- `sizeof(origin_defi_parameters_t)`: 146 bytes of arrays, eight single bytes, the 16-bit
`offset`, and the one-byte enumeration padded to an even address. -/
def sizeofContext : ℕ := 158

/-- The context after `memset(context, 0, sizeof(*context))`. -/
def Context.zero : Context where
  amountSent := fun _ => 0
  minAmountReceived := fun _ => 0
  contractAddressSent := fun _ => 0
  contractAddressReceived := fun _ => 0
  beneficiary := fun _ => 0
  tickerSent := []
  tickerReceived := []
  tokensFound := 0
  decimalsSent := 0
  decimalsReceived := 0
  skip := 0
  amountLength := 0
  nextParam := .tokenSent
  counter := 0
  offset := 0
  selectorIndex := .zapperDepositEth

/-- The decimals of the tokens that `check_token_sent` and `check_token_received` know. -/
def checkedDecimals (address : Address) : Option UInt8 :=
  if address = oethAddress then some oethDecimals
  else if address = ousdAddress then some ousdDecimals
  else if address = daiAddress then some daiDecimals
  else if address = usdcAddress then some usdcDecimals
  else if address = usdtAddress then some usdtDecimals
  else none

/-- `check_token_sent` -/
def checkTokenSent (context : Context) : Context × Bool :=
  match checkedDecimals context.contractAddressSent with
  | some decimals =>
    ({ context with
        decimalsSent := decimals
        tokensFound := context.tokensFound ||| tokenSentFound }, true)
  | none => (context, false)

/-- `check_token_received` -/
def checkTokenReceived (context : Context) : Context × Bool :=
  match checkedDecimals context.contractAddressReceived with
  | some decimals =>
    ({ context with
        decimalsReceived := decimals
        tokensFound := context.tokensFound ||| tokenReceivedFound }, true)
  | none => (context, false)

/-- `sent_network_token` -/
def sentNetworkToken (context : Context) : Context :=
  { context with
    decimalsSent := weiToEther
    tokensFound := context.tokensFound ||| tokenSentFound }

/-- `received_network_token` -/
def receivedNetworkToken (context : Context) : Context :=
  { context with
    decimalsReceived := weiToEther
    tokensFound := context.tokensFound ||| tokenReceivedFound }

end OriginDefi
