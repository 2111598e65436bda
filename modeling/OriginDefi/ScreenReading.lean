import OriginDefi.ScreenTexts

/-!
# Reading the screens

The display of a run is read back: the ticker and the number of an amount, the digits of an
address.

* `calldata_on_screen`: for calls with a fixed layout a text says what the calldata says at the
  position of its parameter;
* `display_eq_iff`: two lists of words of one call have the same display exactly when they agree on
  every parameter that is shown.
-/

namespace OriginDefi

theorem IsTicker.take_eq {ticker : CString} (h : IsTicker ticker) :
    ticker.take maxTickerLen = ticker := List.take_of_length_le (Nat.le_of_lt h.1)

/-- A screen that is not an error is read as its quantity. -/
theorem Quantity.read_screen {x : Quantity} (hticker : IsTicker x.ticker) {title : String}
    {msgLength : ℕ} (h : (x.screen title msgLength).result = .ok) :
    readAmount (x.screen title msgLength).msg = (x.ticker, x.value) := by
  unfold Quantity.screen at h ⊢
  split_ifs at h ⊢
  rw [x.read_text, hticker.take_eq]

theorem Quantity.result_screen (x : Quantity) (title : String) (msgLength : ℕ) :
    (x.screen title msgLength).result = .ok ↔ x.room < msgLength := by
  unfold Quantity.screen
  split_ifs with h
  · exact ⟨fun _ => h, fun _ => rfl⟩
  · exact ⟨fun hok => by simp at hok, fun hroom => absurd hroom h⟩

namespace Transaction

variable (t : Transaction) (ps : List ParamBuffer) (user : Address) (answer : HostAnswer)
  (networkTicker : Ticker) (keccak : List Char → Bytes int256Length)

/-- What the words of a call with a fixed layout say is sent. -/
def sentWord : ℕ :=
  if t.selector = .zapperDepositEth then depositValue t.tx
  else Bytes.toNat (n := int256Length) (positional t.tx t.selector .amountSent ps)

/-- What they say is received. -/
def receivedWord : ℕ :=
  if t.selector = .zapperDepositEth then depositValue t.tx
  else if t.selector.isFlipper then
    Bytes.toNat (n := int256Length) (positional t.tx t.selector .amountSent ps)
  else Bytes.toNat (n := int256Length) (positional t.tx t.selector .minAmountReceived ps)

/-- The text of a screen says to its reader what the words of the call say. -/
def SaysCalldata (msg : CString) : Screen → Prop
  | .send =>
    readAmount msg = ((t.sent ps answer networkTicker).ticker,
      (t.sentWord ps : ℚ) / 10 ^ (t.sent ps answer networkTicker).decimals.toNat)
  | .receive =>
    readAmount msg = ((t.received ps answer networkTicker).ticker,
      (t.receivedWord ps : ℚ) / 10 ^ (t.received ps answer networkTicker).decimals.toNat)
  | .beneficiary =>
    ∃ digits, msg = '0' :: 'x' :: digits ∧ IsChecksummed keccak 0 digits ∧
      readAddress digits = some (positional t.tx t.selector .beneficiary ps)
  | .warn => msg = "Unknown token".toList
  | .error => False

theorem amount_sent (h : t.selector.isFixed) :
    (t.sent ps answer networkTicker).amount = t.sentWord ps := by
  have hamount : (t.parsed ps).amountSent = positional t.tx t.selector .amountSent ps :=
    get_parsed t h ps .amountSent
  rw [sent, sentWord, hamount]

theorem amount_received (h : t.selector.isFixed) :
    (t.received ps answer networkTicker).amount = t.receivedWord ps := by
  have hamount : (t.parsed ps).amountSent = positional t.tx t.selector .amountSent ps :=
    get_parsed t h ps .amountSent
  have hminimum : (t.parsed ps).minAmountReceived =
      positional t.tx t.selector .minAmountReceived ps := get_parsed t h ps .minAmountReceived
  rw [received, receivedWord, hamount, hminimum]

end Transaction

section Reading

variable (t : Transaction) (ps : List ParamBuffer) (user : Address) {answer : HostAnswer}
  (keccak : List Char → Bytes int256Length) {host : HostInputs}

theorem read_send (hfixed : t.selector.isFixed) (hhost : HostTickers host.networkTicker answer) :
    let shown := t.screenText ps answer host.networkTicker keccak host.msgLength .send
    (shown.result = .ok →
        t.SaysCalldata ps answer host.networkTicker keccak shown.msg .send) ∧
      (shown.result = .ok ↔ (t.sent ps answer host.networkTicker).room < host.msgLength) := by
  constructor
  · intro h
    rw [Transaction.SaysCalldata, ← t.amount_sent ps answer host.networkTicker hfixed]
    exact Quantity.read_screen (t.isTicker_sent ps hhost) h
  · exact Quantity.result_screen _ _ _

theorem read_receive (hfixed : t.selector.isFixed)
    (hhost : HostTickers host.networkTicker answer) :
    let shown := t.screenText ps answer host.networkTicker keccak host.msgLength .receive
    (shown.result = .ok →
        t.SaysCalldata ps answer host.networkTicker keccak shown.msg .receive) ∧
      (shown.result = .ok ↔ (t.received ps answer host.networkTicker).room < host.msgLength) := by
  constructor
  · intro h
    rw [Transaction.SaysCalldata, ← t.amount_received ps answer host.networkTicker hfixed]
    exact Quantity.read_screen (t.isTicker_received ps hhost) h
  · exact Quantity.result_screen _ _ _

theorem read_beneficiary (hfixed : t.selector.isFixed) :
    t.SaysCalldata ps answer host.networkTicker keccak
      ('0' :: 'x' :: addressText keccak (t.parsed ps).beneficiary 0) .beneficiary := by
  have hbeneficiary : (t.parsed ps).beneficiary = positional t.tx t.selector .beneficiary ps :=
    get_parsed t hfixed ps .beneficiary
  obtain ⟨hread, hcheck⟩ := addressText_spec keccak (t.parsed ps).beneficiary 0
  refine ⟨_, rfl, hcheck, ?_⟩
  rw [← hbeneficiary]
  exact hread

/-- What a planned screen says. -/
theorem read_screenText (hfixed : t.selector.isFixed)
    (hhost : HostTickers host.networkTicker answer) {screen : Screen} (herror : screen ≠ .error) :
    let shown := t.screenText ps answer host.networkTicker keccak host.msgLength screen
    (shown.result = .ok →
        t.SaysCalldata ps answer host.networkTicker keccak shown.msg screen) ∧
      (shown.result = .ok ↔
        (screen = .send → (t.sent ps answer host.networkTicker).room < host.msgLength) ∧
        (screen = .receive →
          (t.received ps answer host.networkTicker).room < host.msgLength)) := by
  cases screen with
  | send =>
    obtain ⟨hread, hok⟩ := read_send t ps keccak hfixed hhost
    exact ⟨hread, fun h => ⟨fun _ => hok.mp h, nofun⟩, fun h => hok.mpr (h.1 rfl)⟩
  | receive =>
    obtain ⟨hread, hok⟩ := read_receive t ps keccak hfixed hhost
    exact ⟨hread, fun h => ⟨nofun, fun _ => hok.mp h⟩, fun h => hok.mpr (h.2 rfl)⟩
  | warn => exact ⟨fun _ => rfl, fun _ => ⟨nofun, nofun⟩, fun _ => rfl⟩
  | beneficiary =>
    exact ⟨fun _ => read_beneficiary t ps keccak hfixed, fun _ => ⟨nofun, nofun⟩, fun _ => rfl⟩
  | error => exact absurd rfl herror

/-- **From the calldata to the reader.**  For every call with a fixed layout, every list of words
and every host, whatever was viewed before: a screen that is not an error, read back, says what the
calldata says at the position of its parameter.  The only error is an amount for which the buffer
has not the room that `amountToString` asks for. -/
theorem calldata_on_screen (hfixed : t.selector.isFixed)
    (hvalue : t.tx.value.length.toNat ≤ int256Length) (htx : host.txContent = t.tx)
    (hhost : HostTickers host.networkTicker answer)
    (hbuf : HostBuffers host.titleLength host.msgLength) (viewed : List UiQuery) (q : UiQuery)
    (hq : q.screenIndex.toNat < t.screenCount ps user answer) :
    let shown :=
      (ui (sdkFormatter keccak) host).output
        ((ui (sdkFormatter keccak) host).run (t.shown ps user answer) viewed) q
    let screen := getScreen q.screenIndex (t.shown ps user answer)
    (shown.result = .ok →
        t.SaysCalldata ps answer host.networkTicker keccak shown.msg screen) ∧
      (shown.result = .ok ↔
        (screen = .send → (t.sent ps answer host.networkTicker).room < host.msgLength) ∧
        (screen = .receive →
          (t.received ps answer host.networkTicker).room < host.msgLength)) := by
  have hplan := List.mem_of_getElem? (plan_getElem t ps user q hq)
  have htext := answer_text t ps user keccak hvalue htx hhost hbuf q hplan
  rw [← t.output_viewed ps user answer (sdkFormatter keccak) host viewed q] at htext
  obtain ⟨hread, hok⟩ := read_screenText t ps keccak hfixed hhost
    (t.mem_plan ps user answer hplan).1
  rw [← htext] at hread hok
  exact ⟨hread, hok⟩

end Reading

theorem calldata_on_screen_mint :
    let ps : List ParamBuffer := [.ofNat 7, .ofNat 5]
    let c := vaultMintTransaction.shown ps nullEthAddress ⟨none, none⟩
    let f := sdkFormatter fun _ _ => 0
    let shown := (ui f mintHost).output ((ui f mintHost).run c []) ⟨1, [], []⟩
    let screen := getScreen 1 c
    (shown.result = .ok →
        vaultMintTransaction.SaysCalldata ps ⟨none, none⟩ mintHost.networkTicker (fun _ _ => 0)
          shown.msg screen) ∧
      (shown.result = .ok ↔
        (screen = .send →
          (vaultMintTransaction.sent ps ⟨none, none⟩ mintHost.networkTicker).room <
            mintHost.msgLength) ∧
        (screen = .receive →
          (vaultMintTransaction.received ps ⟨none, none⟩ mintHost.networkTicker).room <
            mintHost.msgLength)) :=
  calldata_on_screen vaultMintTransaction _ _ _ (by decide) (by decide) rfl mintHost_tickers
    mintHost_buffers [] ⟨1, [], []⟩ (by decide)

/-! ### What the display tells apart -/

/-- Two quantities of one token with the same screen are the same amount. -/
theorem Quantity.amount_eq_of_screen {x y : Quantity} (hx : IsTicker x.ticker)
    (hy : IsTicker y.ticker) (hdecimals : x.decimals = y.decimals) {title : String}
    {msgLength : ℕ} (hok : (x.screen title msgLength).result = .ok)
    (h : x.screen title msgLength = y.screen title msgLength) : x.amount = y.amount := by
  have hread := Quantity.read_screen hx hok
  rw [h] at hread hok
  rw [Quantity.read_screen hy hok] at hread
  have hvalue := congrArg Prod.snd hread
  have hpow : (10 : ℚ) ^ y.decimals.toNat ≠ 0 := by positivity
  simp only [Quantity.value, hdecimals] at hvalue
  rw [div_left_inj' hpow] at hvalue
  exact_mod_cast hvalue.symm

theorem addressText_injective (keccak : List Char → Bytes int256Length) (chainId : UInt64) :
    Function.Injective fun address => addressText keccak address chainId := by
  intro a b h
  have hread := (addressText_spec keccak a chainId).1
  rw [show addressText keccak a chainId = addressText keccak b chainId from h,
    (addressText_spec keccak b chainId).1] at hread
  exact (Option.some_inj.mp hread).symm

/-- Only the last planned screen can tell two plans with the same tokens apart. -/
theorem planned_inj {wrap sent received beneficiary beneficiary' : Bool}
    (h : (planned wrap sent received beneficiary).length =
      (planned wrap sent received beneficiary').length) : beneficiary = beneficiary' := by
  revert wrap sent received beneficiary beneficiary'
  decide

theorem send_mem_planned (wrap sent received beneficiary : Bool) :
    .send ∈ planned wrap sent received beneficiary := by
  revert wrap sent received beneficiary
  decide

theorem receive_mem_planned (sent received beneficiary : Bool) :
    .receive ∈ planned false sent received beneficiary := by
  revert sent received beneficiary
  decide

theorem beneficiary_mem_planned (wrap sent received beneficiary : Bool) :
    .beneficiary ∈ planned wrap sent received beneficiary ↔ beneficiary = true := by
  revert wrap sent received beneficiary
  decide

/-- The selectors whose second amount is a parameter of its own. -/
def Selector.showsMinimum (s : Selector) : Bool :=
  s ≠ .zapperDepositEth ∧ s.isFlipper = false ∧ s.isWrap = false

/-- The selectors that show a beneficiary. -/
def Selector.namesBeneficiary (s : Selector) : Bool := s.isUniswap ∨ s.isWrap

namespace Transaction

variable (t : Transaction) (ps ps' : List ParamBuffer)

/-- Two lists of words that agree on every parameter that is shown. -/
structure SameShown : Prop where
  amountSent : t.selector ≠ .zapperDepositEth →
    (t.parsed ps).amountSent = (t.parsed ps').amountSent
  minAmountReceived : t.selector.showsMinimum →
    (t.parsed ps).minAmountReceived = (t.parsed ps').minAmountReceived
  beneficiary : t.selector.namesBeneficiary →
    (t.parsed ps).beneficiary = (t.parsed ps').beneficiary

/-- Two lists of words that name the same tokens. -/
structure SameTokens : Prop where
  sent : (t.parsed ps).contractAddressSent = (t.parsed ps').contractAddressSent
  received : (t.parsed ps).contractAddressReceived = (t.parsed ps').contractAddressReceived

variable {t ps ps'} {answer : HostAnswer} {networkTicker : Ticker}

/-- The same tokens and parameters give the same quantities. -/
theorem SameShown.sent_eq (h : t.SameShown ps ps') (htokens : t.SameTokens ps ps') :
    t.sent ps answer networkTicker = t.sent ps' answer networkTicker := by
  unfold sent
  rw [htokens.sent]
  congr 1
  split_ifs with hdeposit
  · rfl
  · rw [h.amountSent hdeposit]

theorem SameShown.received_eq (h : t.SameShown ps ps') (htokens : t.SameTokens ps ps')
    (hwrap : t.selector.isWrap = false) :
    t.received ps answer networkTicker = t.received ps' answer networkTicker := by
  unfold received
  rw [htokens.received]
  congr 1
  split_ifs with hdeposit hflipper
  · rfl
  · rw [h.amountSent hdeposit]
  · have hminimum : t.selector.showsMinimum := by
      simp [Selector.showsMinimum, hdeposit, hflipper, hwrap]
    rw [h.minAmountReceived hminimum]

variable {user : Address} {keccak : List Char → Bytes int256Length} {msgLength : ℕ}

/-- What is shown does not depend on anything else. -/
theorem SameShown.display_eq (h : t.SameShown ps ps') (htokens : t.SameTokens ps ps') :
    t.display ps user answer networkTicker keccak msgLength =
      t.display ps' user answer networkTicker keccak msgLength := by
  have hshows : t.showsBeneficiary ps user = t.showsBeneficiary ps' user := by
    unfold showsBeneficiary
    by_cases hnames : t.selector.isUniswap ∨ t.selector.isWrap
    · rw [h.beneficiary (by simpa [Selector.namesBeneficiary] using hnames)]
    · simp only [hnames, false_and]
  have hplan : t.plan ps user answer = t.plan ps' user answer := by
    unfold plan
    rw [htokens.sent, htokens.received, hshows]
  unfold display
  rw [← hplan]
  refine List.map_congr_left fun screen hmem => ?_
  obtain ⟨-, hreceive⟩ := t.mem_plan ps user answer hmem
  cases screen with
  | send => rw [screenText_send, screenText_send, h.sent_eq htokens]
  | receive => rw [screenText_receive, screenText_receive, h.received_eq htokens (hreceive rfl)]
  | warn | error => rfl
  | beneficiary =>
    have hshown := (beneficiary_mem_planned _ _ _ _).mp hmem
    have hnames : t.selector.namesBeneficiary := by
      simp only [showsBeneficiary, decide_eq_true_eq] at hshown
      simpa [Selector.namesBeneficiary] using hshown.1
    rw [screenText_beneficiary, screenText_beneficiary, h.beneficiary hnames]

/-- Everything that is shown can be told from the display. -/
theorem sameShown_of_display (htokens : t.SameTokens ps ps')
    (hhost : HostTickers networkTicker answer)
    (hok : ∀ s ∈ t.display ps user answer networkTicker keccak msgLength, s.result = .ok)
    (h : t.display ps user answer networkTicker keccak msgLength =
      t.display ps' user answer networkTicker keccak msgLength) : t.SameShown ps ps' := by
  have hshows : t.showsBeneficiary ps user = t.showsBeneficiary ps' user := by
    have hlength := congrArg List.length h
    rw [display, display, List.length_map, List.length_map, plan, plan, htokens.sent,
      htokens.received] at hlength
    exact planned_inj hlength
  have hplan : t.plan ps user answer = t.plan ps' user answer := by
    unfold plan
    rw [htokens.sent, htokens.received, hshows]
  rw [display, display, ← hplan, List.map_inj_left] at h
  have hresult : ∀ screen ∈ t.plan ps user answer,
      (t.screenText ps answer networkTicker keccak msgLength screen).result = .ok :=
    fun screen hmem => hok _ (List.mem_map_of_mem hmem)
  have hsend : .send ∈ t.plan ps user answer := send_mem_planned _ _ _ _
  have hsent : (t.sent ps answer networkTicker).amount =
      (t.sent ps' answer networkTicker).amount :=
    Quantity.amount_eq_of_screen (t.isTicker_sent ps hhost) (t.isTicker_sent ps' hhost)
      (by rw [sent, sent, htokens.sent]) (hresult _ hsend) (h _ hsend)
  constructor
  · intro hdeposit
    simp only [sent, if_neg hdeposit] at hsent
    exact Bytes.toNat_injective hsent
  · intro hminimum
    simp only [Selector.showsMinimum, decide_eq_true_eq] at hminimum
    obtain ⟨hdeposit, hflipper, hwrap⟩ := hminimum
    have hreceive : .receive ∈ t.plan ps user answer := by
      rw [plan, hwrap]
      exact receive_mem_planned _ _ _
    have hreceived : (t.received ps answer networkTicker).amount =
        (t.received ps' answer networkTicker).amount :=
      Quantity.amount_eq_of_screen (t.isTicker_received ps hhost) (t.isTicker_received ps' hhost)
        (by rw [received, received, htokens.received]) (hresult _ hreceive) (h _ hreceive)
    simp only [received, if_neg hdeposit, hflipper, Bool.false_eq_true, if_false] at hreceived
    exact Bytes.toNat_injective hreceived
  · intro hnames
    simp only [Selector.namesBeneficiary, decide_eq_true_eq] at hnames
    by_cases hshown : t.showsBeneficiary ps user = true
    · have hmem := (beneficiary_mem_planned t.selector.isWrap
        (resolved (t.parsed ps).contractAddressSent answer.item1)
        (resolved (t.parsed ps).contractAddressReceived answer.item2) _).mpr hshown
      have htext := congrArg ScreenText.msg (h _ hmem)
      rw [screenText_beneficiary, screenText_beneficiary] at htext
      simp only [List.cons.injEq, true_and] at htext
      exact addressText_injective keccak 0 htext
    · -- the beneficiary that is not shown is the user
      have hshown' := hshown
      rw [hshows] at hshown'
      simp only [showsBeneficiary, hnames, true_and, decide_eq_true_eq, not_not] at hshown hshown'
      rw [hshown, hshown']

end Transaction

/-- **What is shown is what is told apart.**  Two lists of words for one call that name the same
tokens give the same display, when no screen of it is an error, exactly when they agree on every
parameter that the call shows: the amounts and, for Uniswap and wrapping, the beneficiary, shown or
not. -/
theorem display_eq_iff (t : Transaction) (ps ps' : List ParamBuffer) (user : Address)
    (answer : HostAnswer) (networkTicker : Ticker) (keccak : List Char → Bytes int256Length)
    (msgLength : ℕ) (htokens : t.SameTokens ps ps') (hhost : HostTickers networkTicker answer)
    (hok : ∀ s ∈ t.display ps user answer networkTicker keccak msgLength, s.result = .ok) :
    t.display ps user answer networkTicker keccak msgLength =
        t.display ps' user answer networkTicker keccak msgLength ↔
      t.SameShown ps ps' :=
  ⟨Transaction.sameShown_of_display htokens hhost hok, fun h => h.display_eq htokens⟩

theorem display_eq_iff_mint :
    vaultMintTransaction.display [.ofNat 7, .ofNat 5] nullEthAddress ⟨none, none⟩ ethTicker
          (fun _ _ => 0) 64 =
        vaultMintTransaction.display [.ofNat 7, .ofNat 6] nullEthAddress ⟨none, none⟩ ethTicker
          (fun _ _ => 0) 64 ↔
      vaultMintTransaction.SameShown [.ofNat 7, .ofNat 5] [.ofNat 7, .ofNat 6] :=
  display_eq_iff vaultMintTransaction _ _ _ _ _ _ _ ⟨by decide, by decide⟩ mintHost_tickers
    (by decide)

end OriginDefi
