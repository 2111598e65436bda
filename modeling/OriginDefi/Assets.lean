import OriginDefi.FixedLayout
import OriginDefi.Tickers

/-!
# The assets of the registered calls

`b2c.json` lists the contracts and entry points that the plugin is registered for.
`sendAssets` and `receiveAssets` name what the calls without token addresses move: the asset that
leaves the account and the one that comes in.

`namesAssets_iff` says that the two amount screens show these names for every registered call but
`depositSFRXETH`: `set_receive_ui` treats it like a `mint` and looks for the OETH vault, but its
destination is the zapper, so it shows OUSD.
-/

namespace OriginDefi

/-- The contract `OETHZapper`. -/
def oethZapperAddress : Address :=
  ![0x98, 0x58, 0xe4, 0x7b, 0xcb, 0xbe, 0x6f, 0xba, 0xc0, 0x40,
    0x51, 0x9b, 0x02, 0xd7, 0xcd, 0x4b, 0x2c, 0x47, 0x0c, 0x66]

/-- The Curve router. -/
def curveRouterAddress : Address :=
  ![0x99, 0xa5, 0x84, 0x82, 0xbd, 0x75, 0xcb, 0xab, 0x83, 0xb2,
    0x7e, 0xc0, 0x3c, 0xa6, 0x8f, 0xf4, 0x89, 0xb5, 0x78, 0x8f]

/-- The contract `OriginDollarVault`. -/
def ousdVaultAddress : Address :=
  ![0xe7, 0x5d, 0x77, 0xb1, 0x86, 0x5a, 0xe9, 0x3c, 0x7e, 0xaa,
    0x30, 0x40, 0xb0, 0x38, 0xd7, 0xaa, 0x7b, 0xc0, 0x2f, 0x70]

/-- The contract `OriginDollarFlipper`. -/
def flipperAddress : Address :=
  ![0xce, 0xca, 0xd6, 0x9d, 0x7d, 0x4e, 0xd6, 0xd5, 0x2e, 0xfc,
    0xfa, 0x02, 0x8a, 0xf8, 0x73, 0x2f, 0x27, 0xe0, 0x8f, 0x70]

/-- The Uniswap router. -/
def uniswapRouterAddress : Address :=
  ![0xe5, 0x92, 0x42, 0x7a, 0x0a, 0xec, 0xe9, 0x2d, 0xe3, 0xed,
    0xee, 0x1f, 0x18, 0xe0, 0x15, 0x7c, 0x05, 0x86, 0x15, 0x64]

/-- The contract `WOUSD`. -/
def wousdAddress : Address :=
  ![0xd2, 0xaf, 0x83, 0x0e, 0x8c, 0xbd, 0xfe, 0xd6, 0xcc, 0x11,
    0xba, 0xb6, 0x97, 0xbb, 0x25, 0x49, 0x6e, 0xd6, 0xfa, 0x62]

/-- `b2c.json`: the contracts and their entry points. -/
def b2cCalls : List (Address × Selector) :=
  [(oethZapperAddress, .zapperDepositEth), (oethZapperAddress, .zapperDepositSfrxeth),
    (oethVaultAddress, .vaultMint), (oethVaultAddress, .vaultRedeem),
    (curveOethPoolAddress, .curvePoolExchange),
    (curveRouterAddress, .curveRouterExchangeMultiple),
    (woethAddress, .wrap), (woethAddress, .unwrap),
    (ousdVaultAddress, .vaultMint), (ousdVaultAddress, .vaultRedeem),
    (flipperAddress, .flipperBuyOusdWithUsdt), (flipperAddress, .flipperSellOusdForUsdt),
    (flipperAddress, .flipperBuyOusdWithDai), (flipperAddress, .flipperSellOusdForDai),
    (flipperAddress, .flipperBuyOusdWithUsdc), (flipperAddress, .flipperSellOusdForUsdc),
    (uniswapRouterAddress, .uniswapRouterExactInput),
    (uniswapRouterAddress, .uniswapRouterExactInputSingle),
    (curveOusdPoolAddress, .curvePoolExchangeUnderlying),
    (wousdAddress, .wrap), (wousdAddress, .unwrap)]

/-- The assets that the calls without token addresses send. -/
def sendAssets (networkTicker : Ticker) : List ((Address × Selector) × CString) :=
  [((oethZapperAddress, .zapperDepositEth), networkTicker.text),
    ((oethZapperAddress, .zapperDepositSfrxeth), sfrxethTicker),
    ((oethVaultAddress, .vaultRedeem), oethTicker),
    ((ousdVaultAddress, .vaultRedeem), ousdTicker),
    ((woethAddress, .wrap), oethTicker),
    ((wousdAddress, .wrap), ousdTicker),
    ((woethAddress, .unwrap), woethTicker),
    ((wousdAddress, .unwrap), wousdTicker),
    ((flipperAddress, .flipperBuyOusdWithUsdt), usdtTicker),
    ((flipperAddress, .flipperBuyOusdWithDai), daiTicker),
    ((flipperAddress, .flipperBuyOusdWithUsdc), usdcTicker),
    ((flipperAddress, .flipperSellOusdForUsdt), ousdTicker),
    ((flipperAddress, .flipperSellOusdForDai), ousdTicker),
    ((flipperAddress, .flipperSellOusdForUsdc), ousdTicker)]

/-- The assets that these calls receive. -/
def receiveAssets : List ((Address × Selector) × CString) :=
  [((oethZapperAddress, .zapperDepositEth), oethTicker),
    ((oethZapperAddress, .zapperDepositSfrxeth), oethTicker),
    ((oethVaultAddress, .vaultMint), oethTicker),
    ((ousdVaultAddress, .vaultMint), ousdTicker),
    ((oethVaultAddress, .vaultRedeem), lstMixTicker),
    ((ousdVaultAddress, .vaultRedeem), usdMixTicker),
    ((flipperAddress, .flipperBuyOusdWithUsdt), ousdTicker),
    ((flipperAddress, .flipperBuyOusdWithDai), ousdTicker),
    ((flipperAddress, .flipperBuyOusdWithUsdc), ousdTicker),
    ((flipperAddress, .flipperSellOusdForUsdt), usdtTicker),
    ((flipperAddress, .flipperSellOusdForDai), daiTicker),
    ((flipperAddress, .flipperSellOusdForUsdc), usdcTicker)]

namespace Transaction

variable (t : Transaction) (ps : List ParamBuffer) (user : Address) (answer : HostAnswer)

/-- The destination and the entry point of a transaction. -/
def call : Address × Selector := (t.tx.destination, t.selector)

/-- What the host keeps fixed while it shows the screens of this transaction. -/
def hostInputs (networkTicker : Ticker) (titleLength msgLength : ℕ) : HostInputs where
  txContent := t.tx
  networkTicker := networkTicker
  titleLength := titleLength
  msgLength := msgLength

/-- The amount screens of a run show the assets that the call moves. -/
def NamesAssets (f : Formatter) (networkTicker : Ticker) (titleLength msgLength : ℕ) : Prop :=
  (∀ asset, (t.call, asset) ∈ sendAssets networkTicker → ∃ amount,
    t.Passes ps user answer f (t.hostInputs networkTicker titleLength msgLength) .send amount ∧
      amount.ticker = asset) ∧
  (∀ asset, (t.call, asset) ∈ receiveAssets → ∃ amount,
    t.Passes ps user answer f (t.hostInputs networkTicker titleLength msgLength) .receive amount ∧
      amount.ticker = asset)

end Transaction

/-- The switch of `set_send_ui` names the asset, but for a plain `deposit()`. -/
theorem sendTicker_asset {networkTicker : Ticker} {tx : TxContent} {s : Selector} {asset : CString}
    (h : ((tx.destination, s), asset) ∈ sendAssets networkTicker) :
    s.sendTicker tx = some asset ∨ s = .zapperDepositEth ∧ asset = networkTicker.text := by
  simp only [sendAssets, List.mem_cons, List.not_mem_nil, or_false, Prod.mk.injEq] at h
  rcases h with
    ⟨⟨hdest, rfl⟩, rfl⟩ | ⟨⟨hdest, rfl⟩, rfl⟩ | ⟨⟨hdest, rfl⟩, rfl⟩ | ⟨⟨hdest, rfl⟩, rfl⟩ |
    ⟨⟨hdest, rfl⟩, rfl⟩ | ⟨⟨hdest, rfl⟩, rfl⟩ | ⟨⟨hdest, rfl⟩, rfl⟩ | ⟨⟨hdest, rfl⟩, rfl⟩ |
    ⟨⟨hdest, rfl⟩, rfl⟩ | ⟨⟨hdest, rfl⟩, rfl⟩ | ⟨⟨hdest, rfl⟩, rfl⟩ | ⟨⟨hdest, rfl⟩, rfl⟩ |
    ⟨⟨hdest, rfl⟩, rfl⟩ | ⟨⟨hdest, rfl⟩, rfl⟩ <;>
    simp +decide [Selector.sendTicker, hdest]

/-- The switch of `set_receive_ui` names the asset, but for `depositSFRXETH`. -/
theorem receiveTicker_asset {tx : TxContent} {s : Selector} {asset : CString}
    (h : ((tx.destination, s), asset) ∈ receiveAssets) (hs : s ≠ .zapperDepositSfrxeth) :
    s.receiveTicker tx = some asset ∧ s.isWrap = false := by
  simp only [receiveAssets, List.mem_cons, List.not_mem_nil, or_false, Prod.mk.injEq] at h
  rcases h with
    ⟨⟨hdest, rfl⟩, rfl⟩ | ⟨⟨hdest, rfl⟩, rfl⟩ | ⟨⟨hdest, rfl⟩, rfl⟩ | ⟨⟨hdest, rfl⟩, rfl⟩ |
    ⟨⟨hdest, rfl⟩, rfl⟩ | ⟨⟨hdest, rfl⟩, rfl⟩ | ⟨⟨hdest, rfl⟩, rfl⟩ | ⟨⟨hdest, rfl⟩, rfl⟩ |
    ⟨⟨hdest, rfl⟩, rfl⟩ | ⟨⟨hdest, rfl⟩, rfl⟩ | ⟨⟨hdest, rfl⟩, rfl⟩ | ⟨⟨hdest, rfl⟩, rfl⟩ <;>
    first | exact absurd rfl hs | simp +decide [Selector.receiveTicker, hdest]

section NamesAssets

variable (t : Transaction) (ps : List ParamBuffer) (user : Address) (answer : HostAnswer)
variable (f : Formatter) (networkTicker : Ticker) (titleLength msgLength : ℕ)

/-- The sent asset is always named. -/
theorem passes_sendAsset {asset : CString} (h : (t.call, asset) ∈ sendAssets networkTicker) :
    ∃ amount,
      t.Passes ps user answer f (t.hostInputs networkTicker titleLength msgLength) .send amount ∧
        amount.ticker = asset := by
  refine ⟨_, t.passes_sent ps user answer f _, ?_⟩
  simp only [sentCall, t.selectorIndex_shown]
  rcases sendTicker_asset h with hticker | ⟨hsel, rfl⟩
  · rw [show (t.hostInputs networkTicker titleLength msgLength).txContent = t.tx from rfl, hticker]
    rfl
  · -- a plain deposit has no sent token, which stands for the network token
    have hnull : (t.shown ps user answer).contractAddressSent = nullEthAddress := by
      rw [Transaction.shown, t.tokens_eq]
      exact (t.parsed_tokensNamed ps).1 (by rw [t.selectorIndex_parsed, hsel]; rfl)
    rw [hnull, hsel]
    simp [Selector.sendTicker, addressTicker, Transaction.hostInputs]

/-- The received asset is named by every other call. -/
theorem passes_receiveAsset {asset : CString} (h : (t.call, asset) ∈ receiveAssets)
    (hs : t.selector ≠ .zapperDepositSfrxeth) :
    ∃ amount,
      t.Passes ps user answer f (t.hostInputs networkTicker titleLength msgLength) .receive amount ∧
        amount.ticker = asset := by
  obtain ⟨hticker, hwrap⟩ := receiveTicker_asset h hs
  refine ⟨_, t.passes_received ps user answer f _ hwrap, ?_⟩
  simp only [receivedCall, t.selectorIndex_shown]
  rw [show (t.hostInputs networkTicker titleLength msgLength).txContent = t.tx from rfl, hticker]
  rfl

/-- A deposit of sfrxETH through the zapper shows OUSD. -/
theorem passes_sfrxeth (h : t.call = (oethZapperAddress, .zapperDepositSfrxeth)) :
    ∃ amount,
      t.Passes ps user answer f (t.hostInputs networkTicker titleLength msgLength) .receive amount ∧
        amount.ticker = ousdTicker := by
  obtain ⟨hdest, hsel⟩ := Prod.mk.inj h
  refine ⟨_, t.passes_received ps user answer f _ (by rw [hsel]; rfl), ?_⟩
  simp only [receivedCall, t.selectorIndex_shown, hsel]
  simp +decide [Selector.receiveTicker, Transaction.hostInputs, hdest]

theorem not_namesAssets_sfrxeth (h : t.call = (oethZapperAddress, .zapperDepositSfrxeth)) :
    ¬t.NamesAssets ps user answer f networkTicker titleLength msgLength := by
  rintro ⟨-, hreceive⟩
  obtain ⟨amount, hpasses, hoeth⟩ :=
    hreceive oethTicker (by rw [h]; simp [receiveAssets])
  obtain ⟨amount', hpasses', housd⟩ :=
    passes_sfrxeth t ps user answer f networkTicker titleLength msgLength h
  rw [hpasses.unique hpasses', housd] at hoeth
  exact absurd hoeth (by decide)

/-- **Which registered calls show the assets they move**: all but `depositSFRXETH`. -/
theorem namesAssets_iff (h : t.call ∈ b2cCalls) :
    t.NamesAssets ps user answer f networkTicker titleLength msgLength ↔
      t.selector ≠ .zapperDepositSfrxeth := by
  constructor
  · rintro hnames hsel
    refine not_namesAssets_sfrxeth t ps user answer f networkTicker titleLength msgLength ?_ hnames
    simp only [b2cCalls, Transaction.call, List.mem_cons, List.not_mem_nil, or_false,
      Prod.mk.injEq, hsel, reduceCtorEq, and_false, false_or, and_true] at h
    rw [Transaction.call, h, hsel]
  · intro hsel
    constructor
    · intro asset hasset
      exact passes_sendAsset t ps user answer f networkTicker titleLength msgLength hasset
    · intro asset hasset
      exact passes_receiveAsset t ps user answer f networkTicker titleLength msgLength hasset hsel

end NamesAssets

/-- The words of `mint(DAI, 5, 4)`. -/
def mintWords : List ParamBuffer :=
  zeroPadded [Abi.addressWord daiAddress, Bytes.ofNat parameterLength 5,
    Bytes.ofNat parameterLength 4]

theorem namesAssets_iff_mint :
    vaultMintTransaction.NamesAssets mintWords nullEthAddress ⟨none, none⟩ zeroFormatter ethTicker
        32 64 ↔
      vaultMintTransaction.selector ≠ .zapperDepositSfrxeth :=
  namesAssets_iff vaultMintTransaction mintWords nullEthAddress ⟨none, none⟩ zeroFormatter ethTicker
    32 64 (by decide)

/-- A call of `depositSFRXETH` on the zapper. -/
def zapperTransaction : Transaction where
  init := .plain ![0xd4, 0x43, 0xe9, 0x7d] oethZapperAddress
  accepted := by decide

/-- The screens of `depositSFRXETH(0, 0)` do not name OETH. -/
theorem namesAssets_zapper_false :
    ¬zapperTransaction.NamesAssets [.ofNat 0, .ofNat 0] nullEthAddress ⟨none, none⟩ zeroFormatter
      ethTicker 32 32 :=
  not_namesAssets_sfrxeth _ _ _ _ _ _ _ _ (by decide)

end OriginDefi
