import OriginDefi.AddressText
import OriginDefi.AmountText
import OriginDefi.Assets

/-!
# The texts of a whole run

`sdkFormatter` puts the functions of the SDK behind the screens.  `Transaction.display` is what the
user should see: one text for each planned screen, a pure function of the parsed calldata, the
answer of the host and the network.

`outputs_eq_display` says that whatever the user pages through shows the display.
-/

namespace OriginDefi

/-- The functions of the SDK, on the text buffer that a query has cleared. -/
def sdkFormatter (keccak : List Char → Bytes int256Length) : Formatter where
  amountToString amount amountSize decimals ticker outBufferSize :=
    let (out, thrown) :=
      OriginDefi.amountToString (amount.read fun _ => 0) amountSize decimals ticker (fun _ => nul)
        outBufferSize
    (out.cstring outBufferSize, thrown)
  getEthAddressStringFromBinary address chainId :=
    let (out, _) :=
      OriginDefi.getEthAddressStringFromBinary keccak (fun _ => nul) address (fun _ => nul)
        (UInt64.ofNat chainId)
    out.cstring 41

/-! ### Quantities -/

/-- An amount of a token, in the smallest unit of the token. -/
@[ext]
structure Quantity where
  ticker : CString
  amount : ℕ
  decimals : UInt8

namespace Quantity

variable (x : Quantity)

/-- The amount in whole tokens. -/
def value : ℚ := x.amount / 10 ^ x.decimals.toNat

/-- The text of a quantity. -/
def text : CString :=
  amountPrefix x.ticker ++ (DecimalText.scaled x.amount x.decimals.toNat).text

/-- The room that `amountToString` asks for. -/
def room : ℕ := (amountPrefix x.ticker).length + scaledRoom x.amount x.decimals.toNat

theorem read_text : readAmount x.text = (x.ticker.take maxTickerLen, x.value) := by
  rw [text, OriginDefi.readAmount_text, DecimalText.value_scaled]
  rfl

end Quantity

/-- What a call of `amountToString` is about. -/
def AmountCall.quantity (call : AmountCall) : Quantity where
  ticker := call.ticker
  amount := amountValue (call.amount.read fun _ => 0) call.amountSize.toNat
  decimals := call.decimals

/-- A ticker that fits its buffer and the text buffers. -/
def IsTicker (ticker : CString) : Prop := ticker.length < maxTickerLen ∧ nul ∉ ticker

theorem IsTicker.length_amountPrefix_le {ticker : CString} (h : IsTicker ticker) :
    (amountPrefix ticker).length ≤ maxTickerLen := by
  have hlt := h.1
  rw [length_amountPrefix]
  split_ifs <;> omega

section Sdk

variable (keccak : List Char → Bytes int256Length)

/-- The string that `amountToString` leaves in a cleared buffer. -/
theorem sdk_amountToString {call : AmountCall} {outSize : ℕ}
    (hsize : call.amountSize.toNat ≤ int256Length) (hticker : IsTicker call.ticker)
    (hroom : maxTickerLen < outSize) (hout : (outSize : ℤ) < sizeT) :
    (sdkFormatter keccak).amountToString call.amount call.amountSize call.decimals call.ticker
        outSize =
      if call.quantity.room < outSize then (call.quantity.text, none)
      else (amountPrefix call.ticker, some .overflow) := by
  have hfront := hticker.length_amountPrefix_le
  have hroom' : call.quantity.room =
      amountRoom (call.amount.read fun _ => 0) call.decimals call.ticker call.amountSize := rfl
  simp only [sdkFormatter]
  split_ifs with hfits
  · rw [hroom'] at hfits
    rw [amountToString_cstring _ _ _ hsize hout hticker.2 hfits,
      amountToString_thrown _ _ _ hout (by omega), if_pos ⟨hsize, hfits⟩]
    rfl
  · rw [hroom'] at hfits
    rw [amountToString_of_no_room _ hsize hout (by omega) (Nat.le_of_not_lt hfits)]
    refine Prod.ext ?_ rfl
    -- behind the ticker the buffer is still clear
    have hstore : CharMem.store (fun _ => nul) 0 (amountPrefix call.ticker) =
        CharMem.store (fun _ => nul) 0 (amountPrefix call.ticker ++ [nul]) := by
      rw [← CharMem.store_set]
      funext i
      unfold CharMem.set
      split_ifs with hi
      · rw [hi, CharMem.store_of_ge (le_refl _)]
      · rfl
    have hnul : nul ∉ amountPrefix call.ticker := nul_notMem_amountPrefix hticker.2
    dsimp only
    rw [hstore, CharMem.cstring_store_nul _ hnul (by omega)]

theorem sdk_address (address : Address) :
    (sdkFormatter keccak).getEthAddressStringFromBinary address 0 =
      addressText keccak address 0 := by
  have hnul : nul ∉ addressText keccak address 0 := nul_notMem_addressText keccak address 0
  simp only [sdkFormatter, getEthAddressStringFromBinary_eq]
  exact CharMem.cstring_store_nul _ hnul (by rw [length_addressText]; decide)

end Sdk

/-! ### The display of a run -/

/-- The title, the text and the result of a query. -/
structure ScreenText where
  title : CString
  msg : CString
  result : Result
  deriving DecidableEq

/-- The part of an answer that the host shows. -/
def UiAnswer.text (a : UiAnswer) : ScreenText := ⟨a.title, a.msg, a.result⟩

/-- The screen of a quantity: the text if the buffer has the room that `amountToString` asks for, an
error otherwise. -/
def Quantity.screen (x : Quantity) (title : String) (msgLength : ℕ) : ScreenText :=
  if x.room < msgLength then ⟨title.toList, x.text, .ok⟩
  else ⟨title.toList, amountPrefix x.ticker, .error⟩

/-- The number that the value of a transaction spells. -/
def depositValue (tx : TxContent) : ℕ :=
  amountValue (tx.value.value.read fun _ => 0) tx.value.length.toNat

namespace Transaction

variable (t : Transaction) (ps : List ParamBuffer) (user : Address) (answer : HostAnswer)
  (networkTicker : Ticker) (keccak : List Char → Bytes int256Length)

/-- The quantity of the first amount screen: `deposit()` sends the value of the transaction. -/
def sent : Quantity where
  ticker :=
    ((t.selector.sendTicker t.tx).or
      (addressTicker networkTicker (t.parsed ps).contractAddressSent)).getD
        (storedTicker (t.parsed ps).contractAddressSent answer.item1 [])
  amount :=
    if t.selector = .zapperDepositEth then depositValue t.tx
    else Bytes.toNat (t.parsed ps).amountSent
  decimals :=
    t.selector.sendDecimals.getD
      (tokenDecimals (t.parsed ps).contractAddressSent answer.item1)

/-- The quantity of the second one: the flipper and `deposit()` trade at a rate of one. -/
def received : Quantity where
  ticker :=
    ((t.selector.receiveTicker t.tx).or
      (addressTicker networkTicker (t.parsed ps).contractAddressReceived)).getD
        (storedTicker (t.parsed ps).contractAddressReceived answer.item2 [])
  amount :=
    if t.selector = .zapperDepositEth then depositValue t.tx
    else if t.selector.isFlipper then Bytes.toNat (t.parsed ps).amountSent
    else Bytes.toNat (t.parsed ps).minAmountReceived
  decimals :=
    t.selector.receiveDecimals.getD
      (tokenDecimals (t.parsed ps).contractAddressReceived answer.item2)

/-- What a planned screen shows. -/
def screenText (msgLength : ℕ) : Screen → ScreenText
  | .send => (t.sent ps answer networkTicker).screen t.selector.sendTitle msgLength
  | .receive => (t.received ps answer networkTicker).screen "Receive Min" msgLength
  | .warn => ⟨"WARNING".toList, "Unknown token".toList, .ok⟩
  | .beneficiary =>
    ⟨"Beneficiary".toList, '0' :: 'x' :: addressText keccak (t.parsed ps).beneficiary 0, .ok⟩
  | .error => ⟨[], [], .error⟩

theorem screenText_send (msgLength : ℕ) :
    t.screenText ps answer networkTicker keccak msgLength .send =
      (t.sent ps answer networkTicker).screen t.selector.sendTitle msgLength := rfl

theorem screenText_receive (msgLength : ℕ) :
    t.screenText ps answer networkTicker keccak msgLength .receive =
      (t.received ps answer networkTicker).screen "Receive Min" msgLength := rfl

theorem screenText_beneficiary (msgLength : ℕ) :
    t.screenText ps answer networkTicker keccak msgLength .beneficiary =
      ⟨"Beneficiary".toList, '0' :: 'x' :: addressText keccak (t.parsed ps).beneficiary 0, .ok⟩ :=
  rfl

/-- The texts of the planned screens, in order. -/
def display (msgLength : ℕ) : List ScreenText :=
  (t.plan ps user answer).map (t.screenText ps answer networkTicker keccak msgLength)

end Transaction

/-! ### The screens show the display -/

/-- The tickers that come from the host are C strings. -/
structure HostTickers (networkTicker : Ticker) (answer : HostAnswer) : Prop where
  network : nul ∉ networkTicker.text
  item1 : ∀ token ∈ answer.item1, nul ∉ token.ticker.text
  item2 : ∀ token ∈ answer.item2, nul ∉ token.ticker.text

/-- The buffers of the host hold every title and an address. -/
structure HostBuffers (titleLength msgLength : ℕ) : Prop where
  title : "Receive Min".length < titleLength
  msg : 43 ≤ msgLength
  size : (msgLength : ℤ) < sizeT

theorem amountValue_word (w : Word) : amountValue (w.read fun _ => 0) 32 = w.toNat := by
  have hbytes : (fun i : Fin 32 => w.read (fun _ => 0) i) = w :=
    funext fun i => Bytes.read_ofNat _ _ i.isLt
  rw [amountValue, hbytes]

/-- The copied value spells the same number as the value itself. -/
theorem amountValue_copyValue (tx : TxContent) (amount : Bytes int256Length)
    (h : tx.value.length.toNat ≤ int256Length) :
    amountValue ((copyValue tx amount).read fun _ => 0) tx.value.length.toNat =
      depositValue tx := by
  unfold depositValue amountValue
  congr 1
  funext i
  have hi : i.val < int256Length := by omega
  have hsmall : tx.value.length.toNat < 256 := tx.value.length.toNat_lt
  have hmod : (tx.value.length.toNat : ℤ) % sizeT = tx.value.length.toNat :=
    Int.emod_eq_of_lt (by omega) (by unfold sizeT; omega)
  rw [Bytes.read_ofNat _ _ hi, copyValue, Memcpy.apply, if_pos (by simp only [hmod]; omega)]
  simp

/-- The amount of a screen: the value of the transaction for a `deposit()`. -/
theorem amountValue_shown {tx : TxContent} (h : tx.value.length.toNat ≤ int256Length)
    (a b : Word) (c : Context) :
    amountValue ((if c.selectorIndex = .zapperDepositEth then copyValue tx a else b).read fun _ => 0)
        (shownLength tx c).toNat =
      if c.selectorIndex = .zapperDepositEth then depositValue tx else b.toNat := by
  unfold shownLength
  by_cases hsel : c.selectorIndex = .zapperDepositEth
  · rw [if_pos hsel, if_pos hsel, if_pos hsel, amountValue_copyValue tx a h]
  · rw [if_neg hsel, if_neg hsel, if_neg hsel]
    exact amountValue_word b

theorem isTicker_sendTicker {tx : TxContent} {s : Selector} {ticker : CString}
    (h : s.sendTicker tx = some ticker) : IsTicker ticker := by
  unfold Selector.sendTicker at h
  split at h <;> cases h <;> try split_ifs
  all_goals exact ⟨by decide, by decide⟩

theorem isTicker_receiveTicker {tx : TxContent} {s : Selector} {ticker : CString}
    (h : s.receiveTicker tx = some ticker) : IsTicker ticker := by
  unfold Selector.receiveTicker at h
  split at h <;> cases h <;> try split_ifs
  all_goals exact ⟨by decide, by decide⟩

theorem isTicker_addressTicker {networkTicker : Ticker} (hnetwork : nul ∉ networkTicker.text)
    {address : Address} {ticker : CString} (h : addressTicker networkTicker address = some ticker) :
    IsTicker ticker := by
  refine ⟨addressTicker_fits h, ?_⟩
  unfold addressTicker at h
  split_ifs at h <;> cases h
  · exact hnetwork
  all_goals decide

theorem isTicker_storedTicker {item : Option TokenDefinition}
    (hitem : ∀ token ∈ item, nul ∉ token.ticker.text) (address : Address) :
    IsTicker (storedTicker address item []) := by
  unfold storedTicker
  split_ifs
  · exact ⟨by decide, by simp⟩
  · cases item with
    | none => exact ⟨by decide, by simp [defaultTicker]⟩
    | some token => exact ⟨token.ticker.fits, hitem token rfl⟩

/-- The ticker of a side, whichever of the three sources it comes from. -/
theorem isTicker_shown {networkTicker : Ticker} (hnetwork : nul ∉ networkTicker.text)
    {item : Option TokenDefinition} (hitem : ∀ token ∈ item, nul ∉ token.ticker.text)
    {fixed : Option CString} (hfixed : ∀ ticker, fixed = some ticker → IsTicker ticker)
    (address : Address) :
    IsTicker ((fixed.or (addressTicker networkTicker address)).getD
      (storedTicker address item [])) := by
  cases hf : fixed with
  | some ticker => exact hfixed ticker hf
  | none =>
    cases ha : addressTicker networkTicker address with
    | some ticker => exact isTicker_addressTicker hnetwork ha
    | none => exact isTicker_storedTicker hitem address

namespace Transaction

variable (t : Transaction) (ps : List ParamBuffer) (user : Address) (answer : HostAnswer)
  (networkTicker : Ticker)

theorem sentCall_quantity (hvalue : t.tx.value.length.toNat ≤ int256Length) :
    (sentCall networkTicker t.tx (t.shown ps user answer)).quantity =
      t.sent ps answer networkTicker := by
  have hamount := amountValue_shown hvalue (t.parsed ps).amountSent (t.parsed ps).amountSent
    (t.shown ps user answer)
  rw [t.selectorIndex_shown] at hamount
  have hshown := congrArg ProvideInfo.context (t.tokens_eq ps user answer)
  refine Quantity.ext ?_ ?_ ?_
  · simp only [AmountCall.quantity, sentCall, sent, shown, hshown, t.selectorIndex_parsed]
  · rw [sent, ← hamount]
    simp only [AmountCall.quantity, sentCall, shown, hshown, t.selectorIndex_parsed]
  · simp only [AmountCall.quantity, sentCall, sent, shown, hshown, t.selectorIndex_parsed]

theorem receivedCall_quantity (hvalue : t.tx.value.length.toNat ≤ int256Length) :
    (receivedCall networkTicker t.tx (t.shown ps user answer)).quantity =
      t.received ps answer networkTicker := by
  have hamount := amountValue_shown hvalue (t.parsed ps).minAmountReceived
    (if t.selector.isFlipper then (t.parsed ps).amountSent else (t.parsed ps).minAmountReceived)
    (t.shown ps user answer)
  rw [t.selectorIndex_shown, apply_ite Bytes.toNat] at hamount
  have hshown := congrArg ProvideInfo.context (t.tokens_eq ps user answer)
  refine Quantity.ext ?_ ?_ ?_
  · simp only [AmountCall.quantity, receivedCall, received, shown, hshown, t.selectorIndex_parsed]
  · rw [received, ← hamount]
    simp only [AmountCall.quantity, receivedCall, shown, hshown, t.selectorIndex_parsed]
  · simp only [AmountCall.quantity, receivedCall, received, shown, hshown, t.selectorIndex_parsed]

variable {answer networkTicker}

theorem isTicker_sent (hhost : HostTickers networkTicker answer) :
    IsTicker (t.sent ps answer networkTicker).ticker :=
  isTicker_shown hhost.network hhost.item1 (fun _ h => isTicker_sendTicker h) _

theorem isTicker_received (hhost : HostTickers networkTicker answer) :
    IsTicker (t.received ps answer networkTicker).ticker :=
  isTicker_shown hhost.network hhost.item2 (fun _ h => isTicker_receiveTicker h) _

theorem shownLength_le (hvalue : t.tx.value.length.toNat ≤ int256Length) (c : Context) :
    (shownLength t.tx c).toNat ≤ int256Length := by
  unfold shownLength
  split_ifs
  · exact hvalue
  · decide

theorem amountSize_sentCall_le (hvalue : t.tx.value.length.toNat ≤ int256Length) (c : Context) :
    (sentCall networkTicker t.tx c).amountSize.toNat ≤ int256Length := by
  simp only [sentCall]
  exact t.shownLength_le hvalue c

theorem amountSize_receivedCall_le (hvalue : t.tx.value.length.toNat ≤ int256Length)
    (c : Context) : (receivedCall networkTicker t.tx c).amountSize.toNat ≤ int256Length := by
  simp only [receivedCall]
  exact t.shownLength_le hvalue c

end Transaction

/-- A title that fits is shown as it is. -/
theorem title_of_fits {titleLength msgLength : ℕ} (hbuf : HostBuffers titleLength msgLength)
    (dst : CString) {title : String} (h : title.length ≤ "Receive Min".length) :
    strlcpy dst title.toList titleLength = title.toList := by
  have htitle := hbuf.title
  exact strlcpy_of_lt (by rw [String.length_toList]; omega)

theorem length_sendTitle_le (s : Selector) : s.sendTitle.length ≤ "Receive Min".length := by
  cases s <;> decide

/-- An amount screen shows the quantity of its call. -/
theorem amountAnswer_text (keccak : List Char → Bytes int256Length) (host : HostInputs)
    {titleLength : ℕ} (hbuf : HostBuffers titleLength host.msgLength) (title : String)
    (call : AmountCall) (hsize : call.amountSize.toNat ≤ int256Length)
    (hticker : IsTicker call.quantity.ticker) :
    (amountAnswer (sdkFormatter keccak) host title.toList call).text =
      call.quantity.screen title host.msgLength := by
  have hmsg := hbuf.msg
  unfold amountAnswer Quantity.screen
  rw [sdk_amountToString keccak hsize hticker (by unfold maxTickerLen; omega) hbuf.size]
  split_ifs
  · rfl
  · rfl

section Display

variable (t : Transaction) (ps : List ParamBuffer) (user : Address) {answer : HostAnswer}
  (keccak : List Char → Bytes int256Length) {host : HostInputs}

theorem answer_send (hvalue : t.tx.value.length.toNat ≤ int256Length)
    (htx : host.txContent = t.tx) (hhost : HostTickers host.networkTicker answer)
    (hbuf : HostBuffers host.titleLength host.msgLength) (q : UiQuery)
    (hscreen : getScreen q.screenIndex (t.shown ps user answer) = .send) :
    (OriginDefi.answer (sdkFormatter keccak) host (t.shown ps user answer) q).text =
      (t.sent ps answer host.networkTicker).screen t.selector.sendTitle host.msgLength := by
  have hquantity := t.sentCall_quantity ps user answer host.networkTicker hvalue
  have hticker := t.isTicker_sent ps hhost
  rw [← hquantity] at hticker ⊢
  have htitle := title_of_fits hbuf (clearString q.title host.titleLength)
    (length_sendTitle_le t.selector)
  have htext := amountAnswer_text keccak host hbuf t.selector.sendTitle
    (sentCall host.networkTicker t.tx (t.shown ps user answer))
    (t.amountSize_sentCall_le hvalue _) hticker
  rw [← htext]
  simp only [OriginDefi.answer, hscreen, t.selectorIndex_shown, if_neg t.selector_ne_unlisted,
    htitle, htx]

theorem answer_receive (hvalue : t.tx.value.length.toNat ≤ int256Length)
    (htx : host.txContent = t.tx) (hhost : HostTickers host.networkTicker answer)
    (hbuf : HostBuffers host.titleLength host.msgLength) (q : UiQuery)
    (hscreen : getScreen q.screenIndex (t.shown ps user answer) = .receive)
    (hwrap : t.selector.isWrap = false) :
    (OriginDefi.answer (sdkFormatter keccak) host (t.shown ps user answer) q).text =
      (t.received ps answer host.networkTicker).screen "Receive Min" host.msgLength := by
  have hquantity := t.receivedCall_quantity ps user answer host.networkTicker hvalue
  have hticker := t.isTicker_received ps hhost
  rw [← hquantity] at hticker ⊢
  have hreceives := Selector.receives_of_not_isWrap hwrap t.selector_ne_unlisted
  have htitle := title_of_fits hbuf (clearString q.title host.titleLength)
    (le_refl "Receive Min".length)
  have htext := amountAnswer_text keccak host hbuf "Receive Min"
    (receivedCall host.networkTicker t.tx (t.shown ps user answer))
    (t.amountSize_receivedCall_le hvalue _) hticker
  rw [← htext]
  simp only [OriginDefi.answer, hscreen, t.selectorIndex_shown, hreceives, if_true, htitle, htx]

theorem answer_warn (hbuf : HostBuffers host.titleLength host.msgLength) (q : UiQuery)
    (hscreen : getScreen q.screenIndex (t.shown ps user answer) = .warn) :
    (OriginDefi.answer (sdkFormatter keccak) host (t.shown ps user answer) q).text =
      ⟨"WARNING".toList, "Unknown token".toList, .ok⟩ := by
  have hlength : "Unknown token".toList.length < 43 := by decide
  have hwarning : strlcpy (clearString q.msg host.msgLength) "Unknown token".toList
      host.msgLength = "Unknown token".toList := strlcpy_of_lt (hlength.trans_le hbuf.msg)
  have htitle := title_of_fits hbuf (clearString q.title host.titleLength)
    (show "WARNING".length ≤ "Receive Min".length by decide)
  simp only [OriginDefi.answer, hscreen, hwarning, htitle, UiAnswer.text]

theorem answer_beneficiary (hbuf : HostBuffers host.titleLength host.msgLength) (q : UiQuery)
    (hscreen : getScreen q.screenIndex (t.shown ps user answer) = .beneficiary) :
    (OriginDefi.answer (sdkFormatter keccak) host (t.shown ps user answer) q).text =
      ⟨"Beneficiary".toList, '0' :: 'x' :: addressText keccak (t.parsed ps).beneficiary 0, .ok⟩ := by
  have hbeneficiary : (t.shown ps user answer).beneficiary = (t.parsed ps).beneficiary :=
    congrArg (fun m : ProvideInfo => m.context.beneficiary) (t.tokens_eq ps user answer)
  have htitle := title_of_fits hbuf (clearString q.title host.titleLength)
    (show "Beneficiary".length ≤ "Receive Min".length by decide)
  simp only [OriginDefi.answer, hscreen, sdk_address, hbeneficiary, htitle, UiAnswer.text]

/-- The text of a planned screen. -/
theorem answer_text (hvalue : t.tx.value.length.toNat ≤ int256Length)
    (htx : host.txContent = t.tx) (hhost : HostTickers host.networkTicker answer)
    (hbuf : HostBuffers host.titleLength host.msgLength) (q : UiQuery)
    (hmem : getScreen q.screenIndex (t.shown ps user answer) ∈ t.plan ps user answer) :
    (OriginDefi.answer (sdkFormatter keccak) host (t.shown ps user answer) q).text =
      t.screenText ps answer host.networkTicker keccak host.msgLength
        (getScreen q.screenIndex (t.shown ps user answer)) := by
  obtain ⟨herror, hreceive⟩ := t.mem_plan ps user answer hmem
  cases hscreen : getScreen q.screenIndex (t.shown ps user answer) with
  | send => exact answer_send t ps user keccak hvalue htx hhost hbuf q hscreen
  | receive =>
    exact answer_receive t ps user keccak hvalue htx hhost hbuf q hscreen (hreceive hscreen)
  | warn => exact answer_warn t ps user keccak hbuf q hscreen
  | beneficiary => exact answer_beneficiary t ps user keccak hbuf q hscreen
  | error => exact absurd hscreen herror

/-- The screen at a counted index is the one the plan has there. -/
theorem plan_getElem (q : UiQuery)
    (h : q.screenIndex.toNat < t.screenCount ps user answer) :
    (t.plan ps user answer)[q.screenIndex.toNat]? =
      some (getScreen q.screenIndex (t.shown ps user answer)) := by
  rw [← t.map_getScreen ps user answer, List.getElem?_map, List.getElem?_range h, Option.map_some,
    UInt8.ofNat_toNat]

/-- **The user reads the display.**  However the user pages through the counted screens, each query
shows the text that the display has at its index. -/
theorem outputs_eq_display (hvalue : t.tx.value.length.toNat ≤ int256Length)
    (htx : host.txContent = t.tx) (hhost : HostTickers host.networkTicker answer)
    (hbuf : HostBuffers host.titleLength host.msgLength) (qs : List UiQuery)
    (hqs : ∀ q ∈ qs, q.screenIndex.toNat < t.screenCount ps user answer) :
    ((ui (sdkFormatter keccak) host).outputs (t.shown ps user answer) qs).map
        (fun shown => some shown.text) =
      qs.map fun q =>
        (t.display ps user answer host.networkTicker keccak host.msgLength)[
          q.screenIndex.toNat]? := by
  rw [outputs_eq_map, List.map_map]
  refine List.map_congr_left fun q hq => ?_
  have hplan := plan_getElem t ps user q (hqs q hq)
  rw [Function.comp_apply, (ui_step_output _ q).2,
    answer_text t ps user keccak hvalue htx hhost hbuf q (List.mem_of_getElem? hplan),
    Transaction.display, List.getElem?_map, hplan, Option.map_some]

end Display

/-- The main network with its buffers. -/
def mintHost : HostInputs := vaultMintTransaction.hostInputs ethTicker 32 64

theorem mintHost_tickers : HostTickers mintHost.networkTicker ⟨none, none⟩ where
  network := by decide
  item1 := nofun
  item2 := nofun

theorem mintHost_buffers : HostBuffers mintHost.titleLength mintHost.msgLength where
  title := by decide
  msg := by decide
  size := by decide

theorem outputs_eq_display_mint :
    ((ui (sdkFormatter fun _ _ => 0) mintHost).outputs
        (vaultMintTransaction.shown [.ofNat 7, .ofNat 5] nullEthAddress ⟨none, none⟩)
        [⟨1, [], []⟩, ⟨0, [], []⟩]).map (fun shown => some shown.text) =
      [⟨1, [], []⟩, ⟨0, [], []⟩].map fun q : UiQuery =>
        (vaultMintTransaction.display [.ofNat 7, .ofNat 5] nullEthAddress ⟨none, none⟩
          mintHost.networkTicker (fun _ _ => 0) mintHost.msgLength)[q.screenIndex.toNat]? :=
  outputs_eq_display vaultMintTransaction _ _ _ (by decide) rfl mintHost_tickers mintHost_buffers _
    (by decide)

end OriginDefi
