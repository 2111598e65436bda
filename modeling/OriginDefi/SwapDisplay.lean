import OriginDefi.CurvePools
import OriginDefi.RouteScan
import OriginDefi.RouterDecoder
import OriginDefi.ScreenReading
import OriginDefi.SessionDisplay
import OriginDefi.Tickers

/-!
# What a swap shows

A `Swap` is a swap as its contract reads it off the calldata: two tokens, two amounts and, at
Uniswap, a recipient.  `Swap.Of` says which words are the call of which swap, for the pools and the
router of Curve and for both calls to Uniswap, and `Swap.display` what its user should see.  Neither
mentions the states of the parser; the coins of a pool are those of `curvePoolTable`, and what is
known of a token is `tokenMetadata`.

Left out of `Swap.Of` are the calls that the plugin reads wrongly: paths of one hop or of more than
357, words behind a path that make the second copy of its last token one of negative length, and
routes of four swaps that the scan runs past.

`swap_on_screen`: whatever `main` was called with before, the replies to the queries after the calls
of a swap are its display, and a text that is not an error reads as the swap.
-/

namespace OriginDefi

/-- A swap as its contract reads it. -/
structure Swap where
  tokenSent : Address
  tokenReceived : Address
  amountSent : Word
  minAmountReceived : Word
  /-- Curve pays the sender. -/
  recipient : Option Address

/-- The last address of a route of up to four swaps is in the table. -/
theorem route_index_lt {m : ℕ} (h : m ≤ 4) : 2 * m < 9 := by omega

/-- The words are the call of a swap. -/
inductive Swap.Of (t : Transaction) (ps : List ParamBuffer) : Swap → Prop
  /-- `exchange(i, j, dx, min_dy)` and `exchange_underlying`, with indices in the table of the
  pool. -/
  | pool {i j dx dy : Word} {sent received : Address} (selector : t.selector.isCurvePool)
      (words : [i, j, dx, dy] <+: ps.map ParamBuffer.word)
      (coinSent : (curvePoolTable t.tx.destination)[i.toNat]? = some sent)
      (coinReceived : (curvePoolTable t.tx.destination)[j.toNat]? = some received) :
      Swap.Of t ps ⟨sent, received, dx, dy, none⟩
  /-- `exchange_multiple`, with a route of up to three swaps, or of four if the scan stops at its
  end. -/
  | router {m : ℕ} {route : Fin 9 → Address} {swapParams : Fin 12 → Word} {amount expected : Word}
      (selector : t.selector = .curveRouterExchangeMultiple) (pos : 1 ≤ m) (le : m ≤ 4)
      (valid : IsRoute m route) (stops : RouteStops m route swapParams)
      (words : ps.map ParamBuffer.word = exchangeMultipleCall route swapParams amount expected) :
      Swap.Of t ps ⟨route 0, route ⟨2 * m, route_index_lt le⟩, amount, expected, none⟩
  /-- `exactInput(params)`, as Solidity decodes it, with the usual offsets and 2 to 357 hops. -/
  | exactInput {params : ExactInputParams} {n : ℕ}
      (selector : t.selector = .uniswapRouterExactInput)
      (decodes : decodeExactInput (calldataOf ps) = some params)
      (offsets : UsualOffsets (calldataOf ps))
      (hops : params.path.length = 20 + 23 * n) (two_le : 2 ≤ n) (le : n ≤ 357)
      (last : ps.length = 7 + (params.path.length + 31) / 32 ∨ 12 ≤ 23 * n % 32) :
      Swap.Of t ps
        ⟨Bytes.ofList params.path 0, Bytes.ofList params.path (params.path.length - addressLength),
          params.amountIn, params.amountOutMinimum, some params.recipient⟩
  /-- `exactInputSingle(params)`, whose tuple has no offsets. -/
  | exactInputSingle {tokenIn tokenOut recipient : Address}
      {fee deadline amountIn amountOutMinimum : Word}
      (selector : t.selector = .uniswapRouterExactInputSingle)
      (words : [Abi.addressWord tokenIn, Abi.addressWord tokenOut, fee, Abi.addressWord recipient,
        deadline, amountIn, amountOutMinimum] <+: ps.map ParamBuffer.word) :
      Swap.Of t ps ⟨tokenIn, tokenOut, amountIn, amountOutMinimum, some recipient⟩

/-! ### The plugin records the swap -/

/-- The fields of a context are those of a swap. -/
structure Swap.RecordedBy (swap : Swap) (c : Context) : Prop where
  tokenSent : c.contractAddressSent = swap.tokenSent
  tokenReceived : c.contractAddressReceived = swap.tokenReceived
  amountSent : c.amountSent = swap.amountSent
  minAmountReceived : c.minAmountReceived = swap.minAmountReceived
  recipient : ∀ recipient ∈ swap.recipient, c.beneficiary = recipient

section Recorded

variable (t : Transaction) {ps : List ParamBuffer}

/-- What the words say about a slot, in terms of the first words of the call. -/
theorem positional_of_words {words : List Word} (h : words <+: ps.map ParamBuffer.word)
    {slot : Slot} {pos : ℕ} {w : Word} (hpos : t.selector.position slot = some pos)
    (hw : words[pos]? = some w) :
    positional t.tx t.selector slot ps = slot.decode t.tx t.selector w := by
  have hget : (ps.map ParamBuffer.word)[pos]? = some w := by
    obtain ⟨rest, hrest⟩ := h
    rw [← hrest, List.getElem?_append_left (List.getElem?_eq_some_iff.mp hw).1, hw]
  rw [List.getElem?_map, Option.map_eq_some_iff] at hget
  obtain ⟨p, hp, rfl⟩ := hget
  simp only [positional, hpos, Option.bind_some, hp]

/-- The field of a slot after the words of a call with a fixed layout. -/
theorem get_of_words (hfixed : t.selector.isFixed) {words : List Word}
    (h : words <+: ps.map ParamBuffer.word) {slot : Slot} {pos : ℕ} {w : Word}
    (hpos : t.selector.position slot = some pos) (hw : words[pos]? = some w) :
    slot.get (t.parsed ps) = slot.decode t.tx t.selector w := by
  rw [get_parsed t hfixed, positional_of_words t h hpos hw]

/-- A coin of a pool is at the last byte of its index. -/
theorem tokenAddress_of_coin {w : Word} {coin : Address} (h : t.selector.isCurvePool)
    (hcoin : (curvePoolTable t.tx.destination)[w.toNat]? = some coin) :
    tokenAddress t.tx t.selector w = coin := by
  have hlt := (List.getElem?_eq_some_iff.mp hcoin).1
  have hlen := curvePoolTable_length_le t.tx.destination
  rw [tokenAddress, if_pos h, Word.last_of_lt (by omega), hcoin, Option.getD_some]

theorem recordedBy_pool {i j dx dy : Word} {sent received : Address}
    (hpool : t.selector.isCurvePool) (hwords : [i, j, dx, dy] <+: ps.map ParamBuffer.word)
    (hsent : (curvePoolTable t.tx.destination)[i.toNat]? = some sent)
    (hreceived : (curvePoolTable t.tx.destination)[j.toNat]? = some received) :
    Swap.RecordedBy ⟨sent, received, dx, dy, none⟩ (t.parsed ps) := by
  have hfixed := Selector.isFixed_of_isCurvePool hpool
  have hposition : t.selector.position .tokenSent = some 0 ∧
      t.selector.position .tokenReceived = some 1 ∧
      t.selector.position .amountSent = some 2 ∧
      t.selector.position .minAmountReceived = some 3 := by
    cases hs : t.selector <;> rw [hs] at hpool <;>
      first | exact ⟨rfl, rfl, rfl, rfl⟩ | exact absurd hpool (by decide)
  obtain ⟨hpos0, hpos1, hpos2, hpos3⟩ := hposition
  exact
    { tokenSent := (get_of_words t hfixed hwords hpos0 rfl).trans
        (tokenAddress_of_coin t hpool hsent)
      tokenReceived := (get_of_words t hfixed hwords hpos1 rfl).trans
        (tokenAddress_of_coin t hpool hreceived)
      amountSent := get_of_words t hfixed hwords hpos2 rfl
      minAmountReceived := get_of_words t hfixed hwords hpos3 rfl
      recipient := nofun }

theorem recordedBy_exactInputSingle {tokenIn tokenOut recipient : Address}
    {fee deadline amountIn amountOutMinimum : Word}
    (hsingle : t.selector = .uniswapRouterExactInputSingle)
    (hwords : [Abi.addressWord tokenIn, Abi.addressWord tokenOut, fee, Abi.addressWord recipient,
      deadline, amountIn, amountOutMinimum] <+: ps.map ParamBuffer.word) :
    Swap.RecordedBy ⟨tokenIn, tokenOut, amountIn, amountOutMinimum, some recipient⟩
      (t.parsed ps) := by
  have hfixed : t.selector.isFixed := by rw [hsingle]; rfl
  have htoken (a : Address) : tokenAddress t.tx t.selector (Abi.addressWord a) = a := by
    rw [tokenAddress, hsingle, if_neg (by decide), Abi.address_addressWord]
  have hposition (slot : Slot) : t.selector.position slot =
      Selector.position .uniswapRouterExactInputSingle slot := by rw [hsingle]
  exact
    { tokenSent := (get_of_words t hfixed hwords (hposition .tokenSent) rfl).trans (htoken tokenIn)
      tokenReceived :=
        (get_of_words t hfixed hwords (hposition .tokenReceived) rfl).trans (htoken tokenOut)
      amountSent := get_of_words t hfixed hwords (hposition .amountSent) rfl
      minAmountReceived := get_of_words t hfixed hwords (hposition .minAmountReceived) rfl
      recipient := by
        rintro _ ⟨⟩
        exact (get_of_words t hfixed hwords (hposition .beneficiary) rfl).trans
          (Abi.address_addressWord recipient) }

/-- The scan of the route stops at its last address. -/
theorem recordedBy_router {m : ℕ} {route : Fin 9 → Address} {swapParams : Fin 12 → Word}
    {amount expected : Word} (hrouter : t.selector = .curveRouterExchangeMultiple) (hm1 : 1 ≤ m)
    (hm : m ≤ 4) (hvalid : IsRoute m route) (hstops : RouteStops m route swapParams)
    (hwords : ps.map ParamBuffer.word = exchangeMultipleCall route swapParams amount expected) :
    Swap.RecordedBy ⟨route 0, route ⟨2 * m, route_index_lt hm⟩, amount, expected, none⟩
      (t.parsed ps) := by
  have hrecords :
      RecordsExchange t ps (route 0) (route ⟨2 * m, route_index_lt hm⟩) amount expected := by
    by_cases hm3 : m ≤ 3
    · exact recordsExchange_three t hrouter hm1 hm3 hvalid hwords
    · obtain rfl : m = 4 := by omega
      obtain ⟨k, hzero, hfirst, hlast⟩ := hstops.resolve_left hm3
      exact (recordsExchange_of_stop t hrouter hvalid hwords hzero hfirst).mpr hlast
  obtain ⟨hsent, hreceived, hamount, hexpected, -⟩ := hrecords
  exact ⟨hsent, hreceived, hamount, hexpected, nofun⟩

/-- The plugin looks for the received token where the path ends. -/
theorem recordedBy_exactInput {params : ExactInputParams} {n : ℕ}
    (hrouter : t.selector = .uniswapRouterExactInput)
    (hdecodes : decodeExactInput (calldataOf ps) = some params)
    (hoffsets : UsualOffsets (calldataOf ps)) (hhops : params.path.length = 20 + 23 * n)
    (h2 : 2 ≤ n) (h357 : n ≤ 357)
    (hlast : ps.length = 7 + (params.path.length + 31) / 32 ∨ 12 ≤ 23 * n % 32) :
    Swap.RecordedBy
      ⟨Bytes.ofList params.path 0, Bytes.ofList params.path (params.path.length - addressLength),
        params.amountIn, params.amountOutMinimum, some params.recipient⟩ (t.parsed ps) := by
  obtain ⟨header, ws, rfl, hheader, hpath⟩ := header_of_decode hoffsets hdecodes
  have hseven : header.length = 7 := by
    rw [← List.length_map, hheader]
    rfl
  have htokens : params.path.length - 20 = 23 * n := by omega
  have hend : ws.length = receivedIndex params.path.length + 1 ∨
      12 ≤ (params.path.length - 20) % 32 := by
    rw [List.length_append, hseven] at hlast
    rw [receivedIndex, Nat.mod_eq_of_lt (by omega), htokens]
    omega
  have hposition : receivedPosition params.path.length = params.path.length - addressLength :=
    receivedPosition_eq (by omega) (by omega)
  obtain ⟨-, hsent, hreceived, hrecipient, hamount, hminimum⟩ :=
    (recordsPath_iff t hrouter (by omega) (by omega) hheader hpath).mpr ⟨hend, by rw [hposition]⟩
  refine ⟨hsent, hreceived, hamount, hminimum, ?_⟩
  rintro _ ⟨⟩
  exact hrecipient

/-- After the words of a swap the context holds it. -/
theorem Swap.Of.recordedBy {swap : Swap} (h : swap.Of t ps) : swap.RecordedBy (t.parsed ps) := by
  cases h with
  | pool hpool hwords hsent hreceived => exact recordedBy_pool t hpool hwords hsent hreceived
  | router hrouter hm1 hm hvalid hstops hwords =>
    exact recordedBy_router t hrouter hm1 hm hvalid hstops hwords
  | exactInput hrouter hdecodes hoffsets hhops h2 h357 hlast =>
    exact recordedBy_exactInput t hrouter hdecodes hoffsets hhops h2 h357 hlast
  | exactInputSingle hsingle hwords => exact recordedBy_exactInputSingle t hsingle hwords

/-- What the selector of a swap is like. -/
theorem Swap.Of.selector_of {swap : Swap} (h : swap.Of t ps) :
    t.selector.recordsReceived ∧ (swap.recipient.isSome ↔ t.selector.isUniswap) := by
  cases h with
  | pool hpool _ _ _ =>
    cases hs : t.selector <;> rw [hs] at hpool <;>
      first | exact absurd hpool (by decide) | exact ⟨rfl, by simp [Selector.isUniswap]⟩
  | router hrouter _ _ _ _ _ =>
    rw [hrouter]
    exact ⟨rfl, by simp [Selector.isUniswap]⟩
  | exactInput hrouter _ _ _ _ _ _ =>
    rw [hrouter]
    exact ⟨rfl, by simp [Selector.isUniswap]⟩
  | exactInputSingle hsingle _ =>
    rw [hsingle]
    exact ⟨rfl, by simp [Selector.isUniswap]⟩

end Recorded

/-! ### The display of a swap -/

namespace Swap

variable (swap : Swap) (user : Address) (answer : HostAnswer) (networkTicker : Ticker)
  (keccak : List Char → Bytes int256Length)

/-- What is sent, in the units of its token. -/
def sent : Quantity where
  ticker := (tokenMetadata networkTicker swap.tokenSent answer.item1).1
  amount := swap.amountSent.toNat
  decimals := (tokenMetadata networkTicker swap.tokenSent answer.item1).2

/-- What is received at least. -/
def received : Quantity where
  ticker := (tokenMetadata networkTicker swap.tokenReceived answer.item2).1
  amount := swap.minAmountReceived.toNat
  decimals := (tokenMetadata networkTicker swap.tokenReceived answer.item2).2

/-- The screens of a swap: a warning before each token that nobody knows, and the recipient if it is
somebody else. -/
def screens : List Screen :=
  planned false (resolved swap.tokenSent answer.item1) (resolved swap.tokenReceived answer.item2)
    (swap.recipient.any fun recipient => recipient ≠ user)

/-- The events at the end of the words: the host is asked for tokens that are not the network
token. -/
def closing : List Event :=
  .finalize user ::
    if swap.tokenSent = nullEthAddress ∧ swap.tokenReceived = nullEthAddress then []
    else [.info answer]

/-- What a screen of a swap shows. -/
def screenText (msgLength : ℕ) : Screen → ScreenText
  | .send => (swap.sent answer networkTicker).screen "Send" msgLength
  | .receive => (swap.received answer networkTicker).screen "Receive Min" msgLength
  | .warn => ⟨"WARNING".toList, "Unknown token".toList, .ok⟩
  | .beneficiary =>
    ⟨"Beneficiary".toList,
      '0' :: 'x' :: addressText keccak (swap.recipient.getD nullEthAddress) 0, .ok⟩
  | .error => ⟨[], [], .error⟩

theorem screenText_beneficiary (msgLength : ℕ) :
    swap.screenText answer networkTicker keccak msgLength .beneficiary =
      ⟨"Beneficiary".toList,
        '0' :: 'x' :: addressText keccak (swap.recipient.getD nullEthAddress) 0, .ok⟩ := rfl

/-- The texts of a swap, in order. -/
def display (msgLength : ℕ) : List ScreenText :=
  (swap.screens user answer).map (swap.screenText answer networkTicker keccak msgLength)

/-- The text of a screen says to its reader what the swap is. -/
def Says (msg : CString) : Screen → Prop
  | .send =>
    readAmount msg = ((swap.sent answer networkTicker).ticker,
      (swap.amountSent.toNat : ℚ) / 10 ^ (swap.sent answer networkTicker).decimals.toNat)
  | .receive =>
    readAmount msg = ((swap.received answer networkTicker).ticker,
      (swap.minAmountReceived.toNat : ℚ) /
        10 ^ (swap.received answer networkTicker).decimals.toNat)
  | .beneficiary =>
    ∃ recipient digits, swap.recipient = some recipient ∧ msg = '0' :: 'x' :: digits ∧
      IsChecksummed keccak 0 digits ∧ readAddress digits = some recipient
  | .warn => msg = "Unknown token".toList
  | .error => False

end Swap

/-- The beneficiary is on a screen of a swap only if it has one. -/
theorem Swap.recipient_of_screens (swap : Swap) (user : Address) (answer : HostAnswer)
    (hmem : .beneficiary ∈ swap.screens user answer) :
    ∃ recipient, swap.recipient = some recipient := by
  have hshown := (beneficiary_mem_planned _ _ _ _).mp hmem
  cases hr : swap.recipient with
  | none =>
    rw [hr] at hshown
    cases hshown
  | some recipient => exact ⟨recipient, rfl⟩

/-- The switches over the selector have no case of their own for a swap. -/
theorem switches_swap {s : Selector} (h : s.recordsReceived) (tx : TxContent) :
    s.sendTitle = "Send" ∧ s.sendTicker tx = none ∧ s.sendDecimals = none ∧
      s.receiveTicker tx = none ∧ s.receiveDecimals = none ∧ s ≠ .zapperDepositEth ∧
      ¬s.isFlipper := by
  cases s <;> first | exact ⟨rfl, rfl, rfl, rfl, rfl, by decide, by decide⟩ | cases h

section Display

variable {t : Transaction} {ps : List ParamBuffer} {swap : Swap} (h : swap.Of t ps)
  (user : Address) (answer : HostAnswer) (networkTicker : Ticker)
  (keccak : List Char → Bytes int256Length)

include h

theorem sent_eq_swap : t.sent ps answer networkTicker = swap.sent answer networkTicker := by
  have hrecorded := h.recordedBy t
  have hmeta := tokenMetadata_eq networkTicker swap.tokenSent answer.item1
  obtain ⟨-, hticker, hdecimals, -, -, hdeposit, -⟩ := switches_swap (h.selector_of t).1 t.tx
  refine Quantity.ext ?_ ?_ ?_
  · simp only [Transaction.sent, Swap.sent, hticker, Option.none_or, hrecorded.tokenSent, ← hmeta]
  · simp only [Transaction.sent, Swap.sent, if_neg hdeposit, hrecorded.amountSent]
  · simp only [Transaction.sent, Swap.sent, hdecimals, Option.getD_none, hrecorded.tokenSent,
      ← hmeta]

theorem received_eq_swap :
    t.received ps answer networkTicker = swap.received answer networkTicker := by
  have hrecorded := h.recordedBy t
  have hmeta := tokenMetadata_eq networkTicker swap.tokenReceived answer.item2
  obtain ⟨-, -, -, hticker, hdecimals, hdeposit, hflipper⟩ :=
    switches_swap (h.selector_of t).1 t.tx
  refine Quantity.ext ?_ ?_ ?_
  · simp only [Transaction.received, Swap.received, hticker, Option.none_or,
      hrecorded.tokenReceived, ← hmeta]
  · simp only [Transaction.received, Swap.received, if_neg hdeposit, if_neg hflipper,
      hrecorded.minAmountReceived]
  · simp only [Transaction.received, Swap.received, hdecimals, Option.getD_none,
      hrecorded.tokenReceived, ← hmeta]

theorem closing_eq_swap : t.closing ps user answer = swap.closing user answer := by
  have hrecorded := h.recordedBy t
  have hasks := t.not_asksTokens_iff ps user
  rw [hrecorded.tokenSent, hrecorded.tokenReceived] at hasks
  rw [Transaction.closing, Swap.closing]
  by_cases hnull : swap.tokenSent = nullEthAddress ∧ swap.tokenReceived = nullEthAddress
  · rw [if_pos hnull, if_neg (hasks.mpr hnull)]
  · rw [if_neg hnull, if_pos (not_not.mp (mt hasks.mp hnull))]

theorem plan_eq_swap : t.plan ps user answer = swap.screens user answer := by
  have hrecorded := h.recordedBy t
  obtain ⟨hselector, hrecipient⟩ := h.selector_of t
  have hwrap := Selector.recordsReceived_not_isWrap hselector
  have hshows : t.showsBeneficiary ps user = swap.recipient.any fun a => a ≠ user := by
    rw [Transaction.showsBeneficiary]
    cases hr : swap.recipient with
    | none =>
      have huniswap : t.selector.isUniswap = false := by simpa [hr] using hrecipient
      simp [huniswap, hwrap]
    | some recipient =>
      have huniswap : t.selector.isUniswap = true := by simpa [hr] using hrecipient
      simp [huniswap, hrecorded.recipient recipient hr]
  rw [Transaction.plan, Swap.screens, hwrap, hrecorded.tokenSent, hrecorded.tokenReceived, hshows]

theorem screenText_eq_swap (msgLength : ℕ) {screen : Screen}
    (hmem : screen ∈ swap.screens user answer) :
    t.screenText ps answer networkTicker keccak msgLength screen =
      swap.screenText answer networkTicker keccak msgLength screen := by
  cases screen with
  | send =>
    rw [t.screenText_send, sent_eq_swap h, (switches_swap (h.selector_of t).1 t.tx).1]
    rfl
  | receive =>
    rw [t.screenText_receive, received_eq_swap h]
    rfl
  | beneficiary =>
    obtain ⟨recipient, hrecipient⟩ := swap.recipient_of_screens user answer hmem
    rw [t.screenText_beneficiary, swap.screenText_beneficiary,
      (h.recordedBy t).recipient recipient hrecipient, hrecipient, Option.getD_some]
  | warn | error => rfl

/-- The display of the parsed words is that of the swap. -/
theorem display_eq_swap (msgLength : ℕ) :
    t.display ps user answer networkTicker keccak msgLength =
      swap.display user answer networkTicker keccak msgLength := by
  rw [Transaction.display, Swap.display, plan_eq_swap h]
  refine List.map_congr_left ?_
  intro screen hmem
  exact screenText_eq_swap h user answer networkTicker keccak msgLength hmem

/-- A text of a swap that is not an error says what the swap is. -/
theorem says_swap (hhost : HostTickers networkTicker answer) {msgLength : ℕ} {screen : Screen}
    (hmem : screen ∈ swap.screens user answer)
    (hok : (swap.screenText answer networkTicker keccak msgLength screen).result = .ok) :
    swap.Says answer networkTicker keccak
      (swap.screenText answer networkTicker keccak msgLength screen).msg screen := by
  cases screen with
  | send =>
    have hticker := t.isTicker_sent ps hhost
    rw [sent_eq_swap h] at hticker
    exact Quantity.read_screen hticker hok
  | receive =>
    have hticker := t.isTicker_received ps hhost
    rw [received_eq_swap h] at hticker
    exact Quantity.read_screen hticker hok
  | beneficiary =>
    obtain ⟨recipient, hrecipient⟩ := swap.recipient_of_screens user answer hmem
    obtain ⟨hread, hcheck⟩ := addressText_spec keccak recipient 0
    refine ⟨recipient, addressText keccak recipient 0, hrecipient, ?_, hcheck, hread⟩
    rw [swap.screenText_beneficiary, hrecipient, Option.getD_some]
  | warn => rfl
  | error => cases hok

end Display

/-- **What is signed is what is shown**, for swaps.  Take any calls of `main` that are, but for
calls without an event, those of an accepted transaction: the first message, the words with any
queries among them, and the closing.  If the words are the call of a swap, then whatever the context
held before, and however many queries come after, the reply to a query is the text that the display
of the swap has there, and a text that is not an error says what the swap is. -/
theorem swap_on_screen (t : Transaction) (ps : List ParamBuffer) (swap : Swap)
    (hswap : swap.Of t ps) (user : Address) (answer : HostAnswer)
    (keccak : List Char → Bytes int256Length) (host : HostInputs)
    (hvalue : t.tx.value.length.toNat ≤ int256Length) (htx : host.txContent = t.tx)
    (hhost : HostTickers host.networkTicker answer)
    (hbuf : HostBuffers host.titleLength host.msgLength) (c : Context) (calls : List Args)
    (early : List Event) (hearly : ∀ e ∈ early, e.Early t.tx)
    (hwords : early.filterMap Event.word? = ps) (viewed : List UiQuery)
    (hcalls : calls.filterMap Args.event =
      .init t.init :: (early ++ (swap.closing user answer ++ viewed.map (.query host))))
    (args : Args) (q : UiQuery) (hargs : args.event = some (.query host q)) (screen : Screen)
    (hscreen : (swap.screens user answer)[q.screenIndex.toNat]? = some screen) :
    let f := sdkFormatter keccak
    let shown := ((plugin f).output ((plugin f).run c calls) args).queryContractUi.answer
    shown.text = swap.screenText answer host.networkTicker keccak host.msgLength screen ∧
      (shown.result = .ok → swap.Says answer host.networkTicker keccak shown.msg screen) := by
  intro f shown
  rw [← closing_eq_swap hswap] at hcalls
  have hsame := sameScreens_session t ps user f c htx hearly hwords hcalls
  have hcount : q.screenIndex.toNat < t.screenCount ps user answer := by
    have hlt := (List.getElem?_eq_some_iff.mp hscreen).1
    rw [← plan_eq_swap hswap, ← t.map_getScreen ps user answer, List.length_map,
      List.length_range] at hlt
    exact hlt
  have htext := reply_text t ps user keccak hvalue htx hhost hbuf hsame hargs hcount
  rw [display_eq_swap hswap, Swap.display, List.getElem?_map, hscreen, Option.map_some,
    Option.some_inj] at htext
  refine ⟨htext, ?_⟩
  intro hok
  have hmsg := congrArg ScreenText.msg htext
  have hresult := congrArg ScreenText.result htext
  rw [show shown.msg = _ from hmsg]
  exact says_swap hswap user answer host.networkTicker keccak hhost (List.mem_of_getElem? hscreen)
    (hresult.symm.trans hok)

theorem words_early (tx : TxContent) (ps : List ParamBuffer) :
    ∀ e ∈ ps.map (Event.word tx), e.Early tx := by
  intro e he
  obtain ⟨p, -, rfl⟩ := List.mem_map.mp he
  exact rfl

theorem filterMap_words (tx : TxContent) (ps : List ParamBuffer) :
    (ps.map (Event.word tx)).filterMap Event.word? = ps := by
  rw [List.filterMap_map]
  exact List.filterMap_some

/-- A swap of two hops for the recipient. -/
def twoHopsSwap : Swap :=
  ⟨Bytes.ofList (twoHops 1).path 0,
    Bytes.ofList (twoHops 1).path ((twoHops 1).path.length - addressLength), (twoHops 1).amountIn,
    (twoHops 1).amountOutMinimum, some (twoHops 1).recipient⟩

/-- Its words. -/
def twoHopsWords : List ParamBuffer :=
  zeroPadded (exactInputCall (twoHops 1).path (twoHops 1).recipient (twoHops 1).deadline
    (twoHops 1).amountIn (twoHops 1).amountOutMinimum)

theorem twoHopsSwap_of : twoHopsSwap.Of uniswapTransaction twoHopsWords := by
  have hlen : (twoHops 1).path.length = 20 + 23 * 2 := List.length_replicate
  have hwords := map_word_zeroPadded (exactInputCall (twoHops 1).path (twoHops 1).recipient
    (twoHops 1).deadline (twoHops 1).amountIn (twoHops 1).amountOutMinimum)
  refine .exactInput (by decide) ?_ (usualOffsets_call _ hwords) hlen le_rfl (by decide)
    (Or.inr (by decide))
  rw [twoHopsWords, calldataOf, hwords]
  exact decodeExactInput_call _ (by rw [hlen]; decide)

/-- The network that shows it. -/
def twoHopsHost : HostInputs := uniswapTransaction.hostInputs ethTicker 32 64

/-- Its events: the words, the token it asks for, and a query of the first screen. -/
def twoHopsSession : List Event :=
  .init uniswapTransaction.init ::
    (twoHopsWords.map (Event.word uniswapTransaction.tx) ++
      (twoHopsSwap.closing nullEthAddress ⟨none, none⟩ ++
        [UiQuery.mk 0 [] []].map (Event.query twoHopsHost)))

theorem swap_on_screen_two :
    let p := uniswapTransaction.init.parameters
    let f := sdkFormatter fun _ _ => 0
    let shown := ((plugin f).output
      ((plugin f).run Context.zero (twoHopsSession.map (Event.call p)))
      (Event.call p (.query twoHopsHost ⟨1, [], []⟩))).queryContractUi.answer
    shown.text = twoHopsSwap.screenText ⟨none, none⟩ twoHopsHost.networkTicker (fun _ _ => 0)
        twoHopsHost.msgLength .send ∧
      (shown.result = .ok →
        twoHopsSwap.Says ⟨none, none⟩ twoHopsHost.networkTicker (fun _ _ => 0) shown.msg .send) :=
  swap_on_screen uniswapTransaction twoHopsWords twoHopsSwap twoHopsSwap_of nullEthAddress
    ⟨none, none⟩ (fun _ _ => 0) twoHopsHost (by decide) rfl ⟨by decide, nofun, nofun⟩
    ⟨by decide, by decide, by decide⟩ Context.zero _
    (twoHopsWords.map (Event.word uniswapTransaction.tx)) (words_early _ _) (filterMap_words _ _) _
    (filterMap_calls _ twoHopsSession) _ ⟨1, [], []⟩ (event_call _ _) .send (by decide)

end OriginDefi
