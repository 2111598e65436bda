import OriginDefi.CurvePools
import OriginDefi.ScreenPlan

/-!
# Names and decimals on the amount screens

`Transaction.Passes` says that a screen is planned and that every view of it, whatever was viewed
before, passes the same arguments to `amountToString`.  The two amount screens pass `sentCall` and
`receivedCall` of the context that the screens are shown from (`passes_sent`, `passes_received`).

`metadata_one_source`: where a token is taken from an address, ticker and decimals come from one
source, and the host cannot override a token that the plugin knows.
-/

namespace OriginDefi

namespace Transaction

variable (t : Transaction) (ps : List ParamBuffer) (user : Address) (answer : HostAnswer)
variable (f : Formatter) (host : HostInputs)

/-- The screen is planned, and every view of it passes `call` to `amountToString` and shows the
text that comes back. -/
structure Passes (screen : Screen) (call : AmountCall) : Prop where
  planned : screen ∈ t.plan ps user answer
  passed : ∀ (viewed : List UiQuery) (q : UiQuery),
    getScreen q.screenIndex (t.shown ps user answer) = screen →
    let shown := (ui f host).output ((ui f host).run (t.shown ps user answer) viewed) q
    shown.amounts = [call] ∧
      shown.msg =
        (f.amountToString call.amount call.amountSize call.decimals call.ticker host.msgLength).1

/-- Whatever was viewed before, a query answers as it would have answered first. -/
theorem output_viewed (viewed : List UiQuery) (q : UiQuery) :
    (ui f host).output ((ui f host).run (t.shown ps user answer) viewed) q =
      OriginDefi.answer f host (t.shown ps user answer) q := by
  rw [(ui_step_output _ q).2, answer_congr (sameScreens_run f host (t.shown ps user answer) viewed)]

theorem passes_sent :
    t.Passes ps user answer f host .send
      (sentCall host.networkTicker host.txContent (t.shown ps user answer)) where
  planned := by
    unfold plan planned
    simp
  passed viewed q hq := by
    have hlisted : (t.shown ps user answer).selectorIndex ≠ .unlisted := by
      rw [selectorIndex_shown]
      exact t.selector_ne_unlisted
    simp only [output_viewed, OriginDefi.answer, hq, if_neg hlisted, amountAnswer, and_self]

theorem passes_received (h : t.selector.isWrap = false) :
    t.Passes ps user answer f host .receive
      (receivedCall host.networkTicker host.txContent (t.shown ps user answer)) where
  planned := by
    unfold plan planned
    simp [h]
  passed viewed q hq := by
    have hreceives : (t.shown ps user answer).selectorIndex.receives := by
      rw [selectorIndex_shown]
      exact Selector.receives_of_not_isWrap h t.selector_ne_unlisted
    simp only [output_viewed, OriginDefi.answer, hq, hreceives, if_true, amountAnswer, and_self]

variable {t ps user answer f host}

/-- A screen passes one call. -/
theorem Passes.unique {screen : Screen} {call call' : AmountCall}
    (h : t.Passes ps user answer f host screen call)
    (h' : t.Passes ps user answer f host screen call') : call = call' := by
  have hmem := h.planned
  rw [← t.map_getScreen ps user answer, List.mem_map] at hmem
  obtain ⟨i, -, hi⟩ := hmem
  have hcall := (h.passed [] ⟨UInt8.ofNat i, [], []⟩ hi).1
  rw [(h'.passed [] ⟨UInt8.ofNat i, [], []⟩ hi).1, List.singleton_inj] at hcall
  exact hcall.symm

end Transaction

/-! ### One source for ticker and decimals -/

/-- The built-in tokens with their tickers and decimals. -/
def builtinMetadata (address : Address) : Option (CString × UInt8) :=
  if address = oethAddress then some (oethTicker, oethDecimals)
  else if address = ousdAddress then some (ousdTicker, ousdDecimals)
  else if address = daiAddress then some (daiTicker, daiDecimals)
  else if address = usdcAddress then some (usdcTicker, usdcDecimals)
  else if address = usdtAddress then some (usdtTicker, usdtDecimals)
  else none

/-- The ticker and the decimals of a token: the network's, built in, or the host's. -/
def tokenMetadata (networkTicker : Ticker) (address : Address) (item : Option TokenDefinition) :
    CString × UInt8 :=
  if address = nullEthAddress then (networkTicker.text, weiToEther)
  else
    (builtinMetadata address).getD
      (item.elim (defaultTicker, defaultDecimal) fun token => (token.ticker.text, token.decimals))

/-- The tables of `origin_defi_plugin.h`, `handle_provide_token.c` and `handle_query_contract_ui.c`
agree on every address. -/
theorem tokenMetadata_eq (networkTicker : Ticker) (address : Address)
    (item : Option TokenDefinition) :
    ((addressTicker networkTicker address).getD (storedTicker address item []),
      tokenDecimals address item) = tokenMetadata networkTicker address item := by
  by_cases hnull : address = nullEthAddress
  · simp [addressTicker, tokenDecimals, tokenMetadata, hnull]
  by_cases hbuiltin : address ∈ builtinTokens
  · simp only [builtinTokens, List.mem_cons, List.not_mem_nil, or_false] at hbuiltin
    rcases hbuiltin with rfl | rfl | rfl | rfl | rfl <;>
      simp +decide [addressTicker, tokenDecimals, tokenMetadata, checkedDecimals, builtinMetadata]
  · have hstored : storedTicker address item [] =
        item.elim defaultTicker fun token => token.ticker.text := by
      simp [storedTicker, hnull, hbuiltin]
    have hunknown := (checkedDecimals_eq_none_iff address).2 hbuiltin
    simp only [builtinTokens, List.mem_cons, List.not_mem_nil, or_false, not_or] at hbuiltin
    obtain ⟨hoeth, housd, hdai, husdc, husdt⟩ := hbuiltin
    simp only [addressTicker, tokenDecimals, tokenMetadata, builtinMetadata, hstored, hunknown,
      hnull, hoeth, housd, hdai, husdc, husdt, if_false, Option.getD_none]
    cases item <;> rfl

/-- The decimals of a known token do not come from the host. -/
theorem tokenDecimals_of_known {address : Address}
    (h : address = nullEthAddress ∨ address ∈ builtinTokens) (item item' : Option TokenDefinition) :
    tokenDecimals address item = tokenDecimals address item' := by
  rcases h with h | h
  · simp [tokenDecimals, h]
  · cases hknown : checkedDecimals address with
    | none => exact absurd h ((checkedDecimals_eq_none_iff address).1 hknown)
    | some decimals => simp [tokenDecimals, hknown]

namespace Transaction

variable (t : Transaction) (ps : List ParamBuffer) (user : Address)

theorem sentCall_metadata (answer : HostAnswer) (host : HostInputs) (h : t.selector.recordsSent) :
    ((sentCall host.networkTicker host.txContent (t.shown ps user answer)).ticker,
        (sentCall host.networkTicker host.txContent (t.shown ps user answer)).decimals) =
      tokenMetadata host.networkTicker (t.parsed ps).contractAddressSent answer.item1 := by
  have hticker : t.selector.sendTicker host.txContent = none := by
    cases hs : t.selector <;> rw [hs] at h <;> first | rfl | cases h
  have hdecimals : t.selector.sendDecimals = none := by
    cases hs : t.selector <;> rw [hs] at h <;> first | rfl | cases h
  rw [← tokenMetadata_eq]
  simp only [sentCall, shown, tokens_eq, t.selectorIndex_parsed, hticker, hdecimals, Option.none_or,
    Option.getD_none]

theorem receivedCall_metadata (answer : HostAnswer) (host : HostInputs)
    (h : t.selector.recordsReceived) :
    ((receivedCall host.networkTicker host.txContent (t.shown ps user answer)).ticker,
        (receivedCall host.networkTicker host.txContent (t.shown ps user answer)).decimals) =
      tokenMetadata host.networkTicker (t.parsed ps).contractAddressReceived answer.item2 := by
  have hticker : t.selector.receiveTicker host.txContent = none := by
    cases hs : t.selector <;> rw [hs] at h <;> first | rfl | cases h
  have hdecimals : t.selector.receiveDecimals = none := by
    cases hs : t.selector <;> rw [hs] at h <;> first | rfl | cases h
  rw [← tokenMetadata_eq]
  simp only [receivedCall, shown, tokens_eq, t.selectorIndex_parsed, hticker, hdecimals,
    Option.none_or, Option.getD_none]

/-- The calls of a run as functions of its two tokens: nothing else of the answer matters. -/
theorem sentCall_known (answer answer' : HostAnswer) (host : HostInputs)
    (h : (t.parsed ps).contractAddressSent = nullEthAddress ∨
      (t.parsed ps).contractAddressSent ∈ builtinTokens) :
    sentCall host.networkTicker host.txContent (t.shown ps user answer) =
      sentCall host.networkTicker host.txContent (t.shown ps user answer') := by
  simp only [sentCall, shown, tokens_eq, shownLength, tokenDecimals_of_known h answer.item1
    answer'.item1, storedTicker, if_pos h]

theorem receivedCall_known (answer answer' : HostAnswer) (host : HostInputs)
    (h : (t.parsed ps).contractAddressReceived = nullEthAddress ∨
      (t.parsed ps).contractAddressReceived ∈ builtinTokens) :
    receivedCall host.networkTicker host.txContent (t.shown ps user answer) =
      receivedCall host.networkTicker host.txContent (t.shown ps user answer') := by
  simp only [receivedCall, shown, tokens_eq, shownLength, tokenDecimals_of_known h answer.item2
    answer'.item2, storedTicker, if_pos h]

end Transaction

theorem Selector.recordsReceived_not_isWrap {s : Selector} (h : s.recordsReceived) :
    s.isWrap = false := by
  cases s <;> first | rfl | cases h

/-- **Ticker and decimals come from one source** on every side whose token is an address: the
network for the null address, the built-in values for a built-in token, and otherwise the host's
item or the defaults.  What the host answers cannot change the text for a token the plugin knows. -/
theorem metadata_one_source (t : Transaction) (ps : List ParamBuffer) (user : Address)
    (f : Formatter) (host : HostInputs) :
    (t.selector.recordsSent → ∀ answer, ∃ call,
      t.Passes ps user answer f host .send call ∧
      (call.ticker, call.decimals) =
        tokenMetadata host.networkTicker (t.parsed ps).contractAddressSent answer.item1) ∧
    (t.selector.recordsReceived → ∀ answer, ∃ call,
      t.Passes ps user answer f host .receive call ∧
      (call.ticker, call.decimals) =
        tokenMetadata host.networkTicker (t.parsed ps).contractAddressReceived answer.item2) ∧
    (t.selector.recordsSent →
      (t.parsed ps).contractAddressSent = nullEthAddress ∨
        (t.parsed ps).contractAddressSent ∈ builtinTokens →
      ∀ answer answer', ∃ call, t.Passes ps user answer f host .send call ∧
        t.Passes ps user answer' f host .send call) ∧
    (t.selector.recordsReceived →
      (t.parsed ps).contractAddressReceived = nullEthAddress ∨
        (t.parsed ps).contractAddressReceived ∈ builtinTokens →
      ∀ answer answer', ∃ call, t.Passes ps user answer f host .receive call ∧
        t.Passes ps user answer' f host .receive call) := by
  refine ⟨?_, ?_, ?_, ?_⟩
  · intro h answer
    exact ⟨_, t.passes_sent ps user answer f host, t.sentCall_metadata ps user answer host h⟩
  · intro h answer
    have hwrap := Selector.recordsReceived_not_isWrap h
    exact ⟨_, t.passes_received ps user answer f host hwrap,
      t.receivedCall_metadata ps user answer host h⟩
  · intro _ hknown answer answer'
    refine ⟨_, t.passes_sent ps user answer f host, ?_⟩
    rw [t.sentCall_known ps user answer answer' host hknown]
    exact t.passes_sent ps user answer' f host
  · intro h hknown answer answer'
    have hwrap := Selector.recordsReceived_not_isWrap h
    refine ⟨_, t.passes_received ps user answer f host hwrap, ?_⟩
    rw [t.receivedCall_known ps user answer answer' host hknown]
    exact t.passes_received ps user answer' f host hwrap

/-- A formatter for amounts of zero. -/
def zeroFormatter : Formatter where
  amountToString _ _ _ ticker _ := (ticker ++ " 0".toList, none)
  getEthAddressStringFromBinary _ _ := List.replicate 40 '0'

/-- The network token of the main network. -/
def ethTicker : Ticker := ⟨"ETH".toList, by decide⟩

/-- The words of `exchange_underlying(1, 2, 5, 4)`, from DAI to USDC. -/
def poolWords : List ParamBuffer := [.ofNat 1, .ofNat 2, .ofNat 5, .ofNat 4]

theorem metadata_one_source_pool :
    let t := ousdPoolTransaction
    let host : HostInputs := ⟨t.tx, ethTicker, 32, 64⟩
    let nothing : HostAnswer := ⟨none, none⟩
    let swapped : HostAnswer := ⟨some ⟨ethTicker, 0⟩, some ⟨ethTicker, 0⟩⟩
    (∃ call, t.Passes poolWords nullEthAddress swapped zeroFormatter host .send call ∧
        (call.ticker, call.decimals) = tokenMetadata host.networkTicker
          (t.parsed poolWords).contractAddressSent swapped.item1) ∧
      (∃ call, t.Passes poolWords nullEthAddress swapped zeroFormatter host .receive call ∧
        (call.ticker, call.decimals) = tokenMetadata host.networkTicker
          (t.parsed poolWords).contractAddressReceived swapped.item2) ∧
      (∃ call, t.Passes poolWords nullEthAddress nothing zeroFormatter host .send call ∧
        t.Passes poolWords nullEthAddress swapped zeroFormatter host .send call) ∧
      ∃ call, t.Passes poolWords nullEthAddress nothing zeroFormatter host .receive call ∧
        t.Passes poolWords nullEthAddress swapped zeroFormatter host .receive call := by
  intro t host nothing swapped
  have hsent : (t.parsed poolWords).contractAddressSent ∈ builtinTokens := by decide
  have hreceived : (t.parsed poolWords).contractAddressReceived ∈ builtinTokens := by decide
  obtain ⟨hsend, hreceive, hsendKnown, hreceiveKnown⟩ :=
    metadata_one_source t poolWords nullEthAddress zeroFormatter host
  exact ⟨hsend (by decide) swapped, hreceive (by decide) swapped,
    hsendKnown (by decide) (Or.inr hsent) nothing swapped,
    hreceiveKnown (by decide) (Or.inr hreceived) nothing swapped⟩

end OriginDefi
