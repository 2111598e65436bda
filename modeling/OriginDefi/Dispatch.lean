import OriginDefi.Assets
import OriginDefi.Copies
import OriginDefi.ErrorBranches

/-!
# `main.c`: the dispatcher

Every call of the plugin goes through `main`: the number of a message and a pointer to its
parameters, which the handler of the message casts to its own type.  `plugin` is the machine of
these calls; its state is the context, which belongs to the host and outlives each of them.

`Args.event` is what a call does to the context, if anything: `context_main` says so, and the
results about runs are about the events of their calls.
-/

namespace OriginDefi

/-! ### The functions -/

/-- `eth_plugin_msg_t` -/
inductive PluginMsg
  | initContract
  | provideParameter
  | finalize
  | provideInfo
  | queryContractId
  | queryContractUi
  | checkPresence
  deriving DecidableEq

/-- The enumerator with a given value. -/
def PluginMsg.ofCode : ℕ → Option PluginMsg
  | 0x0101 => some .initContract
  | 0x0102 => some .provideParameter
  | 0x0103 => some .finalize
  | 0x0104 => some .provideInfo
  | 0x0105 => some .queryContractId
  | 0x0106 => some .queryContractUi
  | 0x01ff => some .checkPresence
  | _ => none

/-- What `args[1]` points to, read as the parameters of each message.  The contexts in it are not
used: `pluginContext` points to the context of the host. -/
structure Parameters where
  initContract : InitContract
  provideParameter : ProvideParameter
  finalize : Finalize
  provideInfo : ProvideInfo
  queryContractId : QueryContractId
  queryContractUi : QueryContractUi

/-- The arguments of `main`. -/
structure Args where
  message : ℕ
  parameters : Parameters

/-- `dispatch_plugin_calls`: the context and the parameters after the call, and the exception that
ended it. -/
def dispatchPluginCalls (f : Formatter) (context : Context) (message : ℕ) (p : Parameters) :
    Context × Parameters × Option Exception :=
  match PluginMsg.ofCode message with
  | some .initContract =>
    let msg := handleInitContract { p.initContract with context := context }
    (msg.context, { p with initContract := msg }, none)
  | some .provideParameter =>
    let msg := handleProvideParameter { p.provideParameter with context := context, copies := [] }
    (msg.context, { p with provideParameter := msg }, none)
  | some .finalize =>
    let msg := handleFinalize { p.finalize with context := context }
    (msg.context, { p with finalize := msg }, none)
  | some .provideInfo =>
    let msg := handleProvideToken { p.provideInfo with context := context }
    (msg.context, { p with provideInfo := msg }, none)
  | some .queryContractId =>
    let msg := handleQueryContractId { p.queryContractId with context := context }
    (msg.context, { p with queryContractId := msg }, none)
  | some .queryContractUi =>
    let (msg, thrown) :=
      handleQueryContractUi f { p.queryContractUi with context := context, amounts := [] }
    (msg.context, { p with queryContractUi := msg }, thrown)
  | _ => (context, p, none)

/-- `handle_query_ui_exception` -/
def Args.handleQueryUiException (args : Args) : Parameters :=
  match PluginMsg.ofCode args.message with
  | some .queryContractUi =>
    { args.parameters with
      queryContractUi := OriginDefi.handleQueryUiException args.parameters.queryContractUi }
  | _ => args.parameters

/-- `main`, called from the Ethereum application. -/
def main (f : Formatter) (context : Context) (args : Args) : Context × Parameters :=
  let (context, parameters, thrown) :=
    if PluginMsg.ofCode args.message ≠ some .checkPresence then
      dispatchPluginCalls f context args.message args.parameters
    else (context, args.parameters, none)
  match thrown with
  | some .code6502 | some .overflow =>
    (context, Args.handleQueryUiException { args with parameters := parameters })
  | some .other | none => (context, parameters)

/-- The machine of the calls. -/
def plugin (f : Formatter) : Machine Context Args Parameters where
  step context args := (main f context args).1
  output context args := (main f context args).2

/-- The result that the host reads after a message. -/
def Parameters.result (p : Parameters) : PluginMsg → Option Result
  | .initContract => some p.initContract.result
  | .provideParameter => some p.provideParameter.result
  | .finalize => some p.finalize.result
  | .provideInfo => some p.provideInfo.result
  | .queryContractId => some p.queryContractId.result
  | .queryContractUi => some p.queryContractUi.result
  | .checkPresence => none

/-! ### Events -/

/-- What a call does to the context. -/
inductive Event
  | init (msg : InitContract)
  | word (tx : TxContent) (p : ParamBuffer)
  | finalize (user : Address)
  | info (answer : HostAnswer)
  | query (host : HostInputs) (q : UiQuery)

/-- The host of a query. -/
def QueryContractUi.host (m : QueryContractUi) : HostInputs where
  txContent := m.txContent
  networkTicker := m.networkTicker
  titleLength := m.titleLength
  msgLength := m.msgLength

/-- The query itself. -/
def QueryContractUi.query (m : QueryContractUi) : UiQuery where
  screenIndex := m.screenIndex
  title := m.title
  msg := m.msg

/-- The event of a call; the name of the operation, `ETH_PLUGIN_CHECK_PRESENCE` and the numbers that
`dispatch_plugin_calls` does not know have none. -/
def Args.event (args : Args) : Option Event :=
  match PluginMsg.ofCode args.message with
  | some .initContract => some (.init args.parameters.initContract)
  | some .provideParameter =>
    some (.word args.parameters.provideParameter.txContent
      args.parameters.provideParameter.parameter)
  | some .finalize => some (.finalize args.parameters.finalize.address)
  | some .provideInfo =>
    some (.info ⟨args.parameters.provideInfo.item1, args.parameters.provideInfo.item2⟩)
  | some .queryContractUi =>
    some (.query args.parameters.queryContractUi.host args.parameters.queryContractUi.query)
  | some .queryContractId | some .checkPresence | none => none

/-- A call with a given event. -/
def Event.call (p : Parameters) : Event → Args
  | .init msg => ⟨0x0101, { p with initContract := msg }⟩
  | .word tx w =>
    ⟨0x0102, { p with provideParameter.txContent := tx, provideParameter.parameter := w }⟩
  | .finalize user => ⟨0x0103, { p with finalize.address := user }⟩
  | .info answer =>
    ⟨0x0104, { p with provideInfo.item1 := answer.item1, provideInfo.item2 := answer.item2 }⟩
  | .query host q =>
    ⟨0x0106, { p with
      queryContractUi := { uiMessage host p.queryContractUi.context q with result := .error } }⟩

@[simp] theorem event_call (p : Parameters) (e : Event) : (e.call p).event = some e := by
  cases e <;> rfl

/-- The context after an event. -/
def Event.apply (c : Context) : Event → Context
  | .init msg => (handleInitContract { msg with context := c }).context
  | .word tx p => (parser tx).step c p
  | .finalize _ => finalizedContext c
  | .info answer =>
    (handleProvideToken
      { context := c, item1 := answer.item1, item2 := answer.item2, additionalScreens := 0,
        result := .ok }).context
  | .query host q => queried host c q

/-- The machine of the events. -/
def events : Machine Context Event Unit where
  step := Event.apply
  output _ _ := ()

/-! ### What a call does to the context -/

section ProvideInfo

variable {msg msg' : ProvideInfo}

theorem context_provideSent (hcontext : msg.context = msg'.context)
    (hitem : msg.item1 = msg'.item1) : (provideSent msg).context = (provideSent msg').context := by
  unfold provideSent
  rw [hcontext, hitem]
  obtain ⟨context, found⟩ := checkTokenSent msg'.context
  dsimp only
  split_ifs
  · rfl
  · rfl
  · cases msg'.item1 <;> rfl

theorem item2_provideSent (msg : ProvideInfo) : (provideSent msg).item2 = msg.item2 := by
  unfold provideSent
  obtain ⟨context, found⟩ := checkTokenSent msg.context
  dsimp only
  split_ifs
  · rfl
  · rfl
  · cases msg.item1 <;> rfl

theorem context_provideReceived (hcontext : msg.context = msg'.context)
    (hitem : msg.item2 = msg'.item2) :
    (provideReceived msg).context = (provideReceived msg').context := by
  unfold provideReceived
  rw [hcontext, hitem]
  obtain ⟨context, found⟩ := checkTokenReceived msg'.context
  dsimp only
  split_ifs
  · rfl
  · rfl
  · cases msg'.item2 <;> rfl
  · cases msg'.item2 <;> rfl

/-- What `handle_provide_token` leaves depends on the context and the two items only. -/
theorem context_handleProvideToken (hcontext : msg.context = msg'.context)
    (hitem1 : msg.item1 = msg'.item1) (hitem2 : msg.item2 = msg'.item2) :
    (handleProvideToken msg).context = (handleProvideToken msg').context := by
  have hsent := context_provideSent hcontext hitem1
  have hitem : (provideSent msg).item2 = (provideSent msg').item2 := by
    rw [item2_provideSent, item2_provideSent, hitem2]
  have hreceived := context_provideReceived hsent hitem
  unfold handleProvideToken
  exact hreceived

end ProvideInfo

/-! ### One equation for each message -/

section Main

variable (f : Formatter) (context : Context) {args : Args}

theorem main_initContract (h : PluginMsg.ofCode args.message = some .initContract) :
    main f context args =
      let msg := handleInitContract { args.parameters.initContract with context := context }
      (msg.context, { args.parameters with initContract := msg }) := by
  simp [main, dispatchPluginCalls, h]

theorem main_provideParameter (h : PluginMsg.ofCode args.message = some .provideParameter) :
    main f context args =
      let msg := provide args.parameters.provideParameter.txContent context
        args.parameters.provideParameter.parameter
      (msg.context, { args.parameters with provideParameter := msg }) := by
  simp only [main, dispatchPluginCalls, h, ne_eq, Option.some.injEq, reduceCtorEq,
    not_false_eq_true, if_true]
  rfl

theorem main_finalize (h : PluginMsg.ofCode args.message = some .finalize) :
    main f context args =
      let msg := handleFinalize { args.parameters.finalize with context := context }
      (msg.context, { args.parameters with finalize := msg }) := by
  simp [main, dispatchPluginCalls, h]

theorem main_provideInfo (h : PluginMsg.ofCode args.message = some .provideInfo) :
    main f context args =
      let msg := handleProvideToken { args.parameters.provideInfo with context := context }
      (msg.context, { args.parameters with provideInfo := msg }) := by
  simp [main, dispatchPluginCalls, h]

theorem main_queryContractId (h : PluginMsg.ofCode args.message = some .queryContractId) :
    main f context args =
      let msg := handleQueryContractId { args.parameters.queryContractId with context := context }
      (msg.context, { args.parameters with queryContractId := msg }) := by
  simp [main, dispatchPluginCalls, h]

/-- An exception reaches the host as an error of this message. -/
theorem main_queryContractUi (h : PluginMsg.ofCode args.message = some .queryContractUi) :
    main f context args =
      let msg := queryContractUi f
        (uiMessage args.parameters.queryContractUi.host context
          args.parameters.queryContractUi.query)
      (msg.context, { args.parameters with queryContractUi := msg }) := by
  have hmessage : handleQueryContractUi f
      { args.parameters.queryContractUi with context := context, amounts := [] } =
      handleQueryContractUi f (uiMessage args.parameters.queryContractUi.host context
        args.parameters.queryContractUi.query) := rfl
  simp only [main, dispatchPluginCalls, h, hmessage, queryContractUi, ne_eq, Option.some.injEq,
    reduceCtorEq, not_false_eq_true, if_true]
  rcases handleQueryContractUi f (uiMessage args.parameters.queryContractUi.host context
    args.parameters.queryContractUi.query) with ⟨msg, thrown⟩
  rcases thrown with _ | thrown
  · rfl
  · cases thrown <;> simp [Args.handleQueryUiException, h, catchOther, handleQueryUiException]

/-- Every other number does nothing. -/
theorem main_idle
    (h : PluginMsg.ofCode args.message = none ∨
      PluginMsg.ofCode args.message = some .checkPresence) :
    main f context args = (context, args.parameters) := by
  rcases h with h | h
  · simp [main, dispatchPluginCalls, h]
  · simp [main, h]

end Main

theorem context_provideInfo (m : ProvideInfo) (c : Context) :
    (handleProvideToken { m with context := c }).context =
      Event.apply c (.info ⟨m.item1, m.item2⟩) := by
  rw [Event.apply]
  refine context_handleProvideToken ?_ ?_ ?_ <;> dsimp only

theorem context_handleQueryContractId (m : QueryContractId) :
    (handleQueryContractId m).context = m.context := by
  unfold handleQueryContractId
  dsimp only
  split <;> rfl

/-- The event of a call is what the call does to the context. -/
theorem context_main (f : Formatter) (context : Context) (args : Args) :
    (main f context args).1 = args.event.elim context (events.step context) := by
  cases h : PluginMsg.ofCode args.message with
  | none =>
    rw [main_idle f context (Or.inl h), Args.event, h]
    rfl
  | some message =>
    cases message with
    | initContract =>
      rw [main_initContract f context h, Args.event, h]
      rfl
    | provideParameter =>
      rw [main_provideParameter f context h, Args.event, h]
      rfl
    | finalize =>
      rw [main_finalize f context h, Args.event, h, handleFinalize_eq]
      rfl
    | provideInfo =>
      rw [main_provideInfo f context h, Args.event, h]
      dsimp only [Option.elim_some]
      exact context_provideInfo args.parameters.provideInfo context
    | queryContractId =>
      rw [main_queryContractId f context h, Args.event, h]
      exact context_handleQueryContractId _
    | queryContractUi =>
      rw [main_queryContractUi f context h, Args.event, h]
      dsimp only [Option.elim_some]
      exact (ui_step_output context args.parameters.queryContractUi.query).1
    | checkPresence =>
      rw [main_idle f context (Or.inr h), Args.event, h]
      rfl

/-- A run of calls is the run of their events. -/
theorem run_plugin (f : Formatter) (context : Context) (calls : List Args) :
    (plugin f).run context calls = events.run context (calls.filterMap Args.event) := by
  refine Machine.run_simulation (R := fun c d => c = d) (P := fun _ => True) ?_ ?_ rfl
    fun _ _ => trivial
  · rintro c _ args event - rfl hevent
    have hmain := context_main f c args
    rw [hevent] at hmain
    exact hmain
  · rintro c _ args - rfl hevent
    have hmain := context_main f c args
    rw [hevent] at hmain
    exact hmain

/-! ### Parsing while other messages come -/

/-- The part of the context that only the words of a call decide.  The screens of a `deposit()`
write both amounts, and those of the flipper the second one. -/
def Context.parsedPart (c : Context) : Context :=
  { c with
    amountSent := if c.selectorIndex = .zapperDepositEth then 0 else c.amountSent
    minAmountReceived :=
      if c.selectorIndex = .zapperDepositEth ∨ c.selectorIndex.isFlipper then 0
      else c.minAmountReceived
    tickerSent := []
    tickerReceived := []
    tokensFound := 0
    decimalsSent := 0
    decimalsReceived := 0
    amountLength := 0 }

section ParsedPart

variable {c d : Context}

/-- The fields that are part of it. -/
theorem fields_of_parsedPart (h : c.parsedPart = d.parsedPart) :
    c.selectorIndex = d.selectorIndex ∧ c.nextParam = d.nextParam ∧ c.skip = d.skip ∧
      c.contractAddressSent = d.contractAddressSent ∧
      c.contractAddressReceived = d.contractAddressReceived ∧ c.beneficiary = d.beneficiary :=
  ⟨(congrArg Context.selectorIndex h :), (congrArg Context.nextParam h :),
    (congrArg Context.skip h :), (congrArg Context.contractAddressSent h :),
    (congrArg Context.contractAddressReceived h :), (congrArg Context.beneficiary h :)⟩

/-- The amounts are part of it where no screen writes them. -/
theorem amounts_of_parsedPart (h : c.parsedPart = d.parsedPart)
    (hdeposit : c.selectorIndex ≠ .zapperDepositEth) :
    c.amountSent = d.amountSent ∧
      (c.selectorIndex.isFlipper = false → c.minAmountReceived = d.minAmountReceived) := by
  obtain ⟨hselector, -⟩ := fields_of_parsedPart h
  have hsent := congrArg Context.amountSent h
  have hreceived := congrArg Context.minAmountReceived h
  rw [hselector] at hdeposit ⊢
  simp only [Context.parsedPart, hselector, hdeposit, false_or, if_false] at hsent hreceived
  refine ⟨hsent, ?_⟩
  intro hflipper
  simpa [hflipper] using hreceived

end ParsedPart

/-- A handler reads and moves on only that part. -/
theorem parsedPart_handleSelector (msg : ProvideParameter) :
    (handleSelector msg).context.parsedPart =
      (handleSelector { msg with context := msg.context.parsedPart }).context.parsedPart := by
  cases hs : msg.context.selectorIndex
  all_goals simp only [handleSelector, Context.parsedPart, hs]
  case curveRouterExchangeMultiple =>
    cases hn : msg.context.nextParam
    case tokenReceived =>
      by_cases hzero : Abi.address msg.parameter.word = nullEthAddress <;>
        simp [handleCurveRouterExchange, hn, hs, hzero, Selector.isFlipper, tokenAddress]
    all_goals simp [handleCurveRouterExchange, hn, hs, Selector.isFlipper, tokenAddress]
  case unlisted => simp [hs, Selector.isFlipper]
  all_goals
    cases hn : msg.context.nextParam <;>
      simp [handleZapperDepositEth, handleZapperDepositSfrxeth, handleVaultMint, handleVaultRedeem,
        handleCurvePoolExchange, handleUniswapExchange, handleUniswapExchangeSingle,
        handleFlipperExchange, handleWrap, hn, hs, Selector.isFlipper, tokenAddress]

theorem parsedPart_word (tx : TxContent) (c : Context) (p : ParamBuffer) :
    ((parser tx).step c p).parsedPart = ((parser tx).step c.parsedPart p).parsedPart := by
  by_cases hskip : c.skip = 0
  · have hskip' : c.parsedPart.skip = 0 := hskip
    rw [step_handle hskip, step_handle hskip']
    exact parsedPart_handleSelector _
  · have hskip' : c.parsedPart.skip ≠ 0 := hskip
    rw [step_skip hskip, step_skip hskip']
    simp only [Context.parsedPart]
    split_ifs <;> rfl

/-- The copies of a handler depend only on that part, too. -/
theorem copies_handleSelector_parsedPart (msg : ProvideParameter) :
    (handleSelector msg).copies =
      (handleSelector { msg with context := msg.context.parsedPart }).copies := by
  cases hs : msg.context.selectorIndex
  all_goals simp only [handleSelector, Context.parsedPart, hs]
  case curveRouterExchangeMultiple =>
    cases hn : msg.context.nextParam
    case tokenReceived =>
      by_cases hzero : Abi.address msg.parameter.word = nullEthAddress <;>
        simp [handleCurveRouterExchange, handleTokenReceived, Selector.isCurvePool, hn, hs, hzero]
    all_goals
      simp [handleCurveRouterExchange, handleTokenSent, Selector.isCurvePool, hn, hs]
  case curvePoolExchange | curvePoolExchangeUnderlying =>
    cases hn : msg.context.nextParam
    case tokenSent | tokenReceived =>
      cases hcoin : curvePoolCoin msg.txContent.destination (msg.parameter.word 31) <;>
        simp [handleCurvePoolExchange, handleTokenSent, handleTokenReceived, Selector.isCurvePool,
          hn, hs, hcoin]
    all_goals simp [handleCurvePoolExchange, hn]
  all_goals
    cases hn : msg.context.nextParam <;>
      simp [handleZapperDepositEth, handleZapperDepositSfrxeth, handleVaultMint, handleVaultRedeem,
        handleUniswapExchange, handleUniswapExchangeSingle, handleFlipperExchange, handleWrap,
        handleTokenSent, handleTokenReceived, Selector.isCurvePool, hn, hs]

theorem copies_provide_parsedPart (tx : TxContent) (c : Context) (p : ParamBuffer) :
    (provide tx c p).copies = (provide tx c.parsedPart p).copies := by
  by_cases hskip : c.skip = 0
  · have hskip' : c.parsedPart.skip = 0 := hskip
    rw [provide_handle hskip, provide_handle hskip']
    exact copies_handleSelector_parsedPart _
  · have hskip' : c.parsedPart.skip ≠ 0 := hskip
    rw [copies_skip hskip, copies_skip hskip']

/-- An event of a transaction under way. -/
def Event.OfTransaction (tx : TxContent) : Event → Prop
  | .init _ => False
  | .word tx' _ => tx' = tx
  | .finalize _ | .info _ | .query _ _ => True

/-- The word of an event. -/
def Event.word? : Event → Option ParamBuffer
  | .word _ p => some p
  | _ => none

theorem parsedPart_provideSent (msg : ProvideInfo) :
    (provideSent msg).context.parsedPart = msg.context.parsedPart := by
  unfold provideSent checkTokenSent
  cases checkedDecimals msg.context.contractAddressSent with
  | some decimals => rfl
  | none =>
    by_cases hnull : msg.context.contractAddressSent = nullEthAddress
    · simp only [Bool.false_eq_true, if_false, if_pos hnull]
      rfl
    · simp only [Bool.false_eq_true, if_false, if_neg hnull]
      cases msg.item1 <;> rfl

theorem parsedPart_provideReceived (msg : ProvideInfo) :
    (provideReceived msg).context.parsedPart = msg.context.parsedPart := by
  unfold provideReceived checkTokenReceived
  cases checkedDecimals msg.context.contractAddressReceived with
  | some decimals => rfl
  | none =>
    by_cases hnull : msg.context.contractAddressReceived = nullEthAddress
    · simp only [Bool.false_eq_true, if_false, if_pos hnull]
      rfl
    · simp only [Bool.false_eq_true, if_false, if_neg hnull]
      cases msg.item2 with
      | some token => rfl
      | none => split_ifs <;> rfl

theorem parsedPart_query (c : Context) (host : HostInputs) (q : UiQuery) :
    (queried host c q).parsedPart = c.parsedPart := by
  unfold queried
  split
  · by_cases hdeposit : c.selectorIndex = .zapperDepositEth <;>
      simp [Context.parsedPart, sendContext, sentCall, hdeposit]
  · by_cases hdeposit : c.selectorIndex = .zapperDepositEth <;>
      by_cases hflipper : c.selectorIndex.isFlipper <;>
      simp [Context.parsedPart, receiveContext, receivedCall, hdeposit, hflipper]
  · rfl

/-- Only words move that part on. -/
theorem parsedPart_apply {e : Event} (hinit : ∀ msg, e ≠ .init msg) (hword : e.word? = none)
    (c : Context) : (Event.apply c e).parsedPart = c.parsedPart := by
  cases e with
  | init msg => exact absurd rfl (hinit msg)
  | word tx p => cases hword
  | finalize user => rfl
  | info answer =>
    refine (parsedPart_provideReceived _).trans ?_
    exact parsedPart_provideSent _
  | query host q => exact parsedPart_query c host q

/-- A run of events parses as the words among them. -/
theorem parsedPart_events {tx : TxContent} (c : Context) {es : List Event}
    (h : ∀ e ∈ es, e.OfTransaction tx) :
    (events.run c es).parsedPart =
      ((parser tx).run c (es.filterMap Event.word?)).parsedPart := by
  refine Machine.run_simulation (N := parser tx)
    (R := fun (c d : Context) => c.parsedPart = d.parsedPart) (P := Event.OfTransaction tx)
    ?_ ?_ rfl h
  · intro c d e p he hcd hword
    cases e with
    | word tx' p' =>
      obtain rfl : tx' = tx := he
      obtain rfl : p' = p := Option.some_inj.mp hword
      have hstep := parsedPart_word tx' d p'
      rw [← hcd, ← parsedPart_word] at hstep
      exact hstep.symm
    | init _ | finalize _ | info _ | query _ _ => cases hword
  · intro c d e he hcd hword
    rw [← hcd]
    refine parsedPart_apply ?_ hword c
    rintro msg rfl
    exact he

/-- A call of a transaction under way. -/
def Args.OfTransaction (tx : TxContent) (args : Args) : Prop :=
  ∀ e ∈ args.event, e.OfTransaction tx

/-- The word that a call delivers. -/
def Args.word? (args : Args) : Option ParamBuffer := args.event.bind Event.word?

theorem ofTransaction_events {tx : TxContent} {calls : List Args}
    (h : ∀ args ∈ calls, args.OfTransaction tx) :
    ∀ e ∈ calls.filterMap Args.event, e.OfTransaction tx := by
  intro e he
  obtain ⟨args, hargs, hevent⟩ := List.mem_filterMap.mp he
  exact h args hargs e hevent

theorem ofTransaction_calls {tx : TxContent} (p : Parameters) {es : List Event}
    (h : ∀ e ∈ es, e.OfTransaction tx) : ∀ args ∈ es.map (Event.call p), args.OfTransaction tx := by
  intro args hargs
  obtain ⟨e, he, rfl⟩ := List.mem_map.mp hargs
  rw [Args.OfTransaction, event_call]
  intro e' he'
  obtain rfl : e = e' := Option.some_inj.mp he'
  exact h e he

/-- **The parser does not notice the other messages.**  However the calls of a transaction are
ordered and repeated, the parsed part of the context is what the words among them give alone. -/
theorem plugin_parses_words (f : Formatter) (tx : TxContent) (c : Context) (calls : List Args)
    (h : ∀ args ∈ calls, args.OfTransaction tx) :
    ((plugin f).run c calls).parsedPart =
      ((parser tx).run c (calls.filterMap Args.word?)).parsedPart := by
  rw [run_plugin, parsedPart_events c (ofTransaction_events h), List.filterMap_filterMap]
  rfl

/-- The parameters before the first message of a transaction. -/
def InitContract.parameters (m : InitContract) : Parameters where
  initContract := m
  provideParameter :=
    { txContent := m.txContent, context := m.context, parameter := .ofNat 0, result := .error,
      copies := [] }
  finalize :=
    { context := m.context, address := nullEthAddress, tokenLookup1 := none, tokenLookup2 := none,
      numScreens := 0, uiType := .amountAddress, result := .error }
  provideInfo :=
    { context := m.context, item1 := none, item2 := none, additionalScreens := 0, result := .error }
  queryContractId :=
    { context := m.context, name := [], nameLength := 32, version := [], versionLength := 32,
      result := .error }
  queryContractUi := uiMessage ⟨m.txContent, ethTicker, 32, 64⟩ m.context ⟨0, [], []⟩

/-- A `mint` call whose first screen is asked for between its words. -/
def mintEvents : List Event :=
  [.word vaultMintTransaction.tx (.ofNat 7),
    .query (vaultMintTransaction.hostInputs ethTicker 32 64) ⟨0, [], []⟩,
    .word vaultMintTransaction.tx (.ofNat 5)]

theorem mintEvents_ofTransaction : ∀ e ∈ mintEvents, e.OfTransaction vaultMintTransaction.tx := by
  simp [mintEvents, Event.OfTransaction]

/-- The calls of these events. -/
def mintCalls : List Args := mintEvents.map (Event.call vaultMintTransaction.init.parameters)

theorem plugin_parses_words_mint :
    ((plugin zeroFormatter).run vaultMintTransaction.start mintCalls).parsedPart =
      ((parser vaultMintTransaction.tx).run vaultMintTransaction.start
        (mintCalls.filterMap Args.word?)).parsedPart :=
  plugin_parses_words zeroFormatter _ _ _ (ofTransaction_calls _ mintEvents_ofTransaction)

/-! ### The replies -/

section Replies

variable {t : Transaction} {c d : Context}

/-- The states of the parser are part of what only the words decide. -/
theorem expected_of_parsedPart (h : c.parsedPart = d.parsedPart) (hd : d.Expected) :
    c.Expected := by
  obtain ⟨hselector, hnext, -⟩ := fields_of_parsedPart h
  rw [Context.Expected, hnext, hselector]
  exact hd

/-- The parser stays in the states of its selector, whatever the order of the calls. -/
theorem expected_plugin (f : Formatter) {calls : List Args}
    (h : ∀ args ∈ calls, args.OfTransaction t.tx) :
    ((plugin f).run t.start calls).Expected ∧
      ((plugin f).run t.start calls).selectorIndex = t.selector := by
  have hparsed := parsedPart_events t.start (ofTransaction_events h)
  rw [← run_plugin f] at hparsed
  obtain ⟨hselector, -⟩ := fields_of_parsedPart hparsed
  exact ⟨expected_of_parsedPart hparsed (t.parsed_expected _),
    hselector.trans (t.selectorIndex_parsed _)⟩

theorem resultOf_eq_error (thrown : Option Exception) :
    resultOf thrown = .error ↔ thrown ∈ [some .code6502, some .overflow] := by
  rcases thrown with _ | _ | _ | _ <;> decide

theorem resultOf_eq_ok (thrown : Option Exception) :
    resultOf thrown = .ok ↔ thrown ∉ [some .code6502, some .overflow] := by
  rcases thrown with _ | _ | _ | _ <;> decide

/-- The part of a message that a handled query leaves as the host set it. -/
def QueryContractUi.request (m : QueryContractUi) : UInt8 × ℕ × ℕ :=
  (m.screenIndex, m.titleLength, m.msgLength)

theorem request_catchOther (r : QueryContractUi × Option Exception) :
    (catchOther r).request = r.1.request := by
  obtain ⟨m, thrown⟩ := r
  rcases thrown with _ | _ | _ | _ <;> rfl

theorem request_handleQueryContractUi (f : Formatter) (m : QueryContractUi) :
    (handleQueryContractUi f m).1.request = m.request := by
  unfold handleQueryContractUi
  dsimp only
  cases getScreen m.screenIndex m.context with
  | send =>
    dsimp only
    rw [setSendUi_eq]
    split_ifs <;> rfl
  | receive =>
    dsimp only
    rw [setReceiveUi_eq]
    split_ifs <;> rfl
  | warn | beneficiary | error => rfl

theorem request_queryContractUi (f : Formatter) (m : QueryContractUi) :
    (queryContractUi f m).request = m.request := by
  rw [queryContractUi, request_catchOther, request_handleQueryContractUi]

/-- A screen fails if there is none at its index, if it is the received side of a wrap, or if
`amountToString` ends with one of the two exceptions that `main` knows. -/
def ScreenFails (f : Formatter) (c : Context) (screenIndex : UInt8) (msgLength : ℕ)
    (amounts : List AmountCall) : Prop :=
  getScreen screenIndex c = .error ∨
    (getScreen screenIndex c = .receive ∧ c.selectorIndex.isWrap) ∨
    ∃ call ∈ amounts,
      (f.amountToString call.amount call.amountSize call.decimals call.ticker msgLength).2 ∈
        [some .code6502, some .overflow]

theorem screenFails_amount {f : Formatter} {screenIndex : UInt8} {msgLength : ℕ}
    {call : AmountCall} (hscreen : getScreen screenIndex c = .send ∨
      getScreen screenIndex c = .receive ∧ c.selectorIndex.isWrap = false) :
    ScreenFails f c screenIndex msgLength [call] ↔
      (f.amountToString call.amount call.amountSize call.decimals call.ticker msgLength).2 ∈
        [some .code6502, some .overflow] := by
  rcases hscreen with hscreen | ⟨hscreen, hwrap⟩
  · simp [ScreenFails, hscreen]
  · simp [ScreenFails, hscreen, hwrap]

/-- The answer to a query is an error exactly if its screen fails, and OK otherwise. -/
theorem result_answer (f : Formatter) (host : HostInputs) (hlisted : c.selectorIndex ≠ .unlisted)
    (q : UiQuery) :
    let a := answer f host c q
    (a.result = .error ↔ ScreenFails f c q.screenIndex host.msgLength a.amounts) ∧
      (a.result = .ok ↔ ¬ScreenFails f c q.screenIndex host.msgLength a.amounts) := by
  have hamount : ∀ (title : CString) (call : AmountCall),
      (getScreen q.screenIndex c = .send ∨
        getScreen q.screenIndex c = .receive ∧ c.selectorIndex.isWrap = false) →
      ((amountAnswer f host title call).result = .error ↔
        ScreenFails f c q.screenIndex host.msgLength [call]) ∧
      ((amountAnswer f host title call).result = .ok ↔
        ¬ScreenFails f c q.screenIndex host.msgLength [call]) := by
    intro title call hscreen
    rw [screenFails_amount hscreen]
    exact ⟨resultOf_eq_error _, resultOf_eq_ok _⟩
  have hreceives : c.selectorIndex.receives = !c.selectorIndex.isWrap := by
    cases hs : c.selectorIndex
    case unlisted => exact absurd hs hlisted
    all_goals rfl
  cases hscreen : getScreen q.screenIndex c with
  | send =>
    simp only [answer, hscreen, if_neg hlisted]
    exact hamount _ _ (Or.inl hscreen)
  | receive =>
    cases hwrap : c.selectorIndex.isWrap with
    | true => simp [answer, ScreenFails, hscreen, hreceives, hwrap]
    | false =>
      simp only [answer, hscreen, hreceives, hwrap, Bool.not_false, if_true]
      exact hamount _ _ (Or.inr ⟨hscreen, hwrap⟩)
  | warn | beneficiary | error => simp [answer, ScreenFails, hscreen]

/-- The reply to a query. -/
theorem result_queryContractUi (f : Formatter) (host : HostInputs)
    (hlisted : c.selectorIndex ≠ .unlisted) (q : UiQuery) :
    let m := queryContractUi f (uiMessage host c q)
    (m.result = .error ↔ ScreenFails f c m.screenIndex m.msgLength m.amounts) ∧
      (m.result = .ok ↔ ¬ScreenFails f c m.screenIndex m.msgLength m.amounts) := by
  intro m
  have houtput : m.answer = answer f host c q := (ui_step_output c q).2
  have hresult : m.result = (answer f host c q).result := congrArg UiAnswer.result houtput
  have hamounts : m.amounts = (answer f host c q).amounts := congrArg UiAnswer.amounts houtput
  have hrequest := request_queryContractUi f (uiMessage host c q)
  have hscreenIndex : m.screenIndex = q.screenIndex := congrArg Prod.fst hrequest
  have hmsgLength : m.msgLength = host.msgLength := congrArg (fun r => r.2.2) hrequest
  rw [hresult, hamounts, hscreenIndex, hmsgLength]
  exact result_answer f host hlisted q

/-- The copies of a word are those that the parser makes at it. -/
theorem copies_plugin (f : Formatter) {calls : List Args}
    (h : ∀ args ∈ calls, args.OfTransaction t.tx) (p : ParamBuffer) :
    (provide t.tx ((plugin f).run t.start calls) p).copies =
      (provide t.tx (t.parsed (calls.filterMap Args.word?)) p).copies := by
  have hparsed := parsedPart_events t.start (ofTransaction_events h)
  rw [← run_plugin f, List.filterMap_filterMap] at hparsed
  rw [copies_provide_parsedPart, hparsed, ← copies_provide_parsedPart]
  rfl

/-- The word of a call that delivers one. -/
theorem word_of_message {args : Args}
    (hmessage : PluginMsg.ofCode args.message = some .provideParameter) :
    args.event = some (.word args.parameters.provideParameter.txContent
        args.parameters.provideParameter.parameter) := by
  simp only [Args.event, hmessage]

/-- The copies of a call that delivers a word are among those of all words. -/
theorem writesInBounds_word (f : Formatter) {calls : List Args} {args : Args}
    (h : ∀ a ∈ calls ++ [args], a.OfTransaction t.tx)
    (hcopies : ∀ copy ∈ t.copies ((calls ++ [args]).filterMap Args.word?), copy.WritesInBounds)
    (hmessage : PluginMsg.ofCode args.message = some .provideParameter) :
    ∀ copy ∈ (provide args.parameters.provideParameter.txContent ((plugin f).run t.start calls)
      args.parameters.provideParameter.parameter).copies, copy.WritesInBounds := by
  obtain ⟨hcalls, hargs⟩ := List.forall_mem_append.mp h
  have hevent := word_of_message hmessage
  have htx : args.parameters.provideParameter.txContent = t.tx :=
    hargs args List.mem_cons_self _ hevent
  have hword : args.word? = some args.parameters.provideParameter.parameter := by
    rw [Args.word?, hevent]
    rfl
  rw [htx, copies_plugin f hcalls]
  intro copy hcopy
  refine hcopies copy ?_
  rw [Transaction.copies, List.filterMap_append, parserCopies_append]
  refine List.mem_append_right _ ?_
  simpa [List.filterMap_cons, hword, Transaction.parsed] using hcopy

end Replies

/-- **The replies of a transaction.**  However the calls before it were ordered, a word, the end of
the words, the tokens and the name of the operation are answered with OK, and a screen is answered
with an error exactly if it fails.  The copies of all words have to stay inside their fields; with
the one of negative length nothing is said about what follows. -/
theorem replies (t : Transaction) (f : Formatter) (calls : List Args) (args : Args)
    (message : PluginMsg) (h : ∀ a ∈ calls ++ [args], a.OfTransaction t.tx)
    (hcopies : ∀ copy ∈ t.copies ((calls ++ [args]).filterMap Args.word?), copy.WritesInBounds)
    (hmessage : PluginMsg.ofCode args.message = some message) :
    let context := (plugin f).run t.start calls
    let reply := (plugin f).output context args
    (message ∈ [.provideParameter, .finalize, .provideInfo, .queryContractId] →
      reply.result message = some .ok) ∧
    (message = .provideParameter →
      ∀ copy ∈ reply.provideParameter.copies, copy.WritesInBounds) ∧
    (message = .queryContractUi →
      let m := reply.queryContractUi
      (reply.result message = some .error ↔
        ScreenFails f context m.screenIndex m.msgLength m.amounts) ∧
      (reply.result message = some .ok ↔
        ¬ScreenFails f context m.screenIndex m.msgLength m.amounts)) := by
  have hword := writesInBounds_word f h hcopies
  obtain ⟨hcalls, -⟩ := List.forall_mem_append.mp h
  obtain ⟨hexpected, hselector⟩ := expected_plugin f hcalls
  generalize (plugin f).run t.start calls = context at hexpected hselector hword ⊢
  have hlisted : context.selectorIndex ≠ .unlisted := hselector ▸ t.selector_ne_unlisted
  dsimp only [plugin]
  refine ⟨?_, ?_, ?_⟩
  · intro hmem
    simp only [List.mem_cons, List.not_mem_nil, or_false] at hmem
    rcases hmem with rfl | rfl | rfl | rfl
    · rw [main_provideParameter f context hmessage]
      exact congrArg some (result_provide hexpected _)
    · rw [main_finalize f context hmessage]
      rfl
    · rw [main_provideInfo f context hmessage]
      rfl
    · rw [main_queryContractId f context hmessage]
      exact congrArg some (result_handleQueryContractId hlisted)
  · rintro rfl
    rw [main_provideParameter f context hmessage]
    exact hword hmessage
  · rintro rfl
    rw [main_queryContractUi f context hmessage]
    simp only [Parameters.result, Option.some.injEq]
    exact result_queryContractUi f args.parameters.queryContractUi.host hlisted
      args.parameters.queryContractUi.query

/-- The last word of the `mint` call and the query for its second screen. -/
theorem replies_mint :
    let t := vaultMintTransaction
    let context := (plugin zeroFormatter).run t.start mintCalls
    let word := (plugin zeroFormatter).output context
      (Event.call t.init.parameters (.word t.tx (.ofNat 4)))
    let screen := (plugin zeroFormatter).output context
      (Event.call t.init.parameters (.query (t.hostInputs ethTicker 32 64) ⟨1, [], []⟩))
    let m := screen.queryContractUi
    word.result .provideParameter = some .ok ∧
      (∀ copy ∈ word.provideParameter.copies, copy.WritesInBounds) ∧
      (screen.result .queryContractUi = some .error ↔
        ScreenFails zeroFormatter context m.screenIndex m.msgLength m.amounts) ∧
      (screen.result .queryContractUi = some .ok ↔
        ¬ScreenFails zeroFormatter context m.screenIndex m.msgLength m.amounts) := by
  have hcalls (e : Event) (he : e.OfTransaction vaultMintTransaction.tx) :
      ∀ a ∈ mintCalls ++ [Event.call vaultMintTransaction.init.parameters e],
        a.OfTransaction vaultMintTransaction.tx := by
    have hlast : ∀ e' ∈ [e], e'.OfTransaction vaultMintTransaction.tx := by simpa using he
    exact ofTransaction_calls vaultMintTransaction.init.parameters
      (List.forall_mem_append.mpr ⟨mintEvents_ofTransaction, hlast⟩)
  obtain ⟨hword, hcopies, -⟩ := replies vaultMintTransaction zeroFormatter mintCalls _
    .provideParameter (hcalls (.word vaultMintTransaction.tx (.ofNat 4)) rfl) (by decide) rfl
  obtain ⟨-, -, hscreen⟩ := replies vaultMintTransaction zeroFormatter mintCalls _ .queryContractUi
    (hcalls (.query (vaultMintTransaction.hostInputs ethTicker 32 64) ⟨1, [], []⟩) trivial)
    (by decide) rfl
  exact ⟨hword (by simp), hcopies rfl, hscreen rfl⟩

end OriginDefi
