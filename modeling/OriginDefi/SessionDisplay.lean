import OriginDefi.Acceptance
import OriginDefi.ScreenTexts

/-!
# From the first call to the screens

What the host does with a transaction: the first message, the words, and at their end
`Transaction.closing`, the message of `handle_finalize` and the tokens if it asked for them.

`session_display` is about the calls of `main` themselves.  Whatever the context held before, with
calls in between that have no event and with screens that are asked for too early, the replies to
the queries at the end are the display of the transaction.  `session_count` says that the screens
that the plugin announces in its answers are as many as the display has.

A query that comes too early writes tickers, decimals and, for `deposit()` and the flipper, amounts
into the context.  `AlikeEarly` relates the context with these to the one that the words alone would
have left; the closing of both gives the same screens.
-/

namespace OriginDefi

/-! ### The same screens from contexts that are not the same -/

/-- What a side shows depends on the ticker of the context only if the table does not know its
address. -/
theorem getD_ticker_congr {networkTicker : Ticker} {address : Address} {ticker ticker' : CString}
    (h : addressTicker networkTicker address = none → ticker = ticker') (fixed : Option CString) :
    (fixed.or (addressTicker networkTicker address)).getD ticker =
      (fixed.or (addressTicker networkTicker address)).getD ticker' := by
  cases fixed with
  | some _ => rfl
  | none =>
    cases hknown : addressTicker networkTicker address with
    | some _ => rfl
    | none => exact h hknown

/-- The two amounts agree as far as a screen shows them. -/
structure SameValues (tx : TxContent) (c d : Context) : Prop where
  sent : c.selectorIndex = .zapperDepositEth →
    copyValue tx c.amountSent = copyValue tx d.amountSent
  received : c.selectorIndex = .zapperDepositEth →
    copyValue tx c.minAmountReceived = copyValue tx d.minAmountReceived

/-- The two sides have the same decimals, and the same tickers where these matter. -/
structure SameSides (networkTicker : Ticker) (c d : Context) : Prop where
  decimalsSent : c.decimalsSent = d.decimalsSent
  decimalsReceived : c.decimalsReceived = d.decimalsReceived
  tickerSent : addressTicker networkTicker c.contractAddressSent = none →
    c.tickerSent = d.tickerSent
  tickerReceived : addressTicker networkTicker c.contractAddressReceived = none →
    c.tickerReceived = d.tickerReceived

section Screens

variable {tx : TxContent} {host : HostInputs} {c d : Context}

theorem sentCall_congr (h : c.parsedPart = d.parsedPart) (hvalues : SameValues tx c d)
    {networkTicker : Ticker} (hsides : SameSides networkTicker c d) :
    sentCall networkTicker tx c = sentCall networkTicker tx d := by
  obtain ⟨hselector, -, -, hsent, -⟩ := fields_of_parsedPart h
  have hticker := getD_ticker_congr hsides.tickerSent (c.selectorIndex.sendTicker tx)
  simp only [sentCall, shownLength, AmountCall.mk.injEq, ← hselector, ← hsent,
    hsides.decimalsSent, hticker, and_true]
  split_ifs with hdeposit
  · exact hvalues.sent hdeposit
  · exact (amounts_of_parsedPart h hdeposit).1

theorem receivedCall_congr (h : c.parsedPart = d.parsedPart) (hvalues : SameValues tx c d)
    {networkTicker : Ticker} (hsides : SameSides networkTicker c d) :
    receivedCall networkTicker tx c = receivedCall networkTicker tx d := by
  obtain ⟨hselector, -, -, -, hreceived, -⟩ := fields_of_parsedPart h
  have hticker := getD_ticker_congr hsides.tickerReceived (c.selectorIndex.receiveTicker tx)
  simp only [receivedCall, shownLength, AmountCall.mk.injEq, ← hselector, ← hreceived,
    hsides.decimalsReceived, hticker, and_true]
  split_ifs with hdeposit hflipper
  · exact hvalues.received hdeposit
  · exact (amounts_of_parsedPart h hdeposit).1
  · exact (amounts_of_parsedPart h hdeposit).2 (by simpa using hflipper)

theorem sameScreens_of_parsedPart (htx : host.txContent = tx) (h : c.parsedPart = d.parsedPart)
    (hfound : c.tokensFound = d.tokensFound) (hvalues : SameValues tx c d)
    (hsides : SameSides host.networkTicker c d) : SameScreens host c d := by
  obtain ⟨hselector, -, -, -, -, hbeneficiary⟩ := fields_of_parsedPart h
  subst htx
  exact ⟨hselector, hfound, hbeneficiary, sentCall_congr h hvalues hsides,
    receivedCall_congr h hvalues hsides⟩

end Screens

/-! ### Screens that are asked for too early -/

/-- The events between the first message and the end of the words: the words, and queries. -/
def Event.Early (tx : TxContent) : Event → Prop
  | .word tx' _ => tx' = tx
  | .query host _ => host.txContent = tx
  | .init _ | .finalize _ | .info _ => False

/-- The context with queries among the words, against the one without. -/
structure AlikeEarly (tx : TxContent) (c d : Context) : Prop where
  parsedPart : c.parsedPart = d.parsedPart
  tokensFound : c.tokensFound = d.tokensFound
  values : SameValues tx c d

section Early

variable {tx : TxContent} {c d : Context}

/-- A `deposit()` has no words, and its parser touches no amount. -/
theorem amounts_step_deposit (h : c.selectorIndex = .zapperDepositEth) (p : ParamBuffer) :
    ((parser tx).step c p).amountSent = c.amountSent ∧
      ((parser tx).step c p).minAmountReceived = c.minAmountReceived := by
  by_cases hskip : c.skip = 0
  · rw [step_handle hskip]
    simp only [handleSelector, h, handleZapperDepositEth]
    split <;> exact ⟨rfl, rfl⟩
  · rw [step_skip hskip]
    exact ⟨rfl, rfl⟩

theorem alikeEarly_word (h : AlikeEarly tx c d) (p : ParamBuffer) :
    AlikeEarly tx ((parser tx).step c p) ((parser tx).step d p) := by
  obtain ⟨hselector, -⟩ := fields_of_parsedPart h.parsedPart
  have hmeta := metadata_step tx c p
  have hselector' : ((parser tx).step c p).selectorIndex = c.selectorIndex :=
    congrArg Prod.fst hmeta
  refine ⟨?_, ?_, ?_, ?_⟩
  · rw [parsedPart_word, h.parsedPart, ← parsedPart_word]
  · have hfound := congrArg (fun m => m.2.1) hmeta
    have hfound' := congrArg (fun m => m.2.1) (metadata_step tx d p)
    exact hfound.trans (h.tokensFound.trans hfound'.symm)
  · intro hdeposit
    rw [hselector'] at hdeposit
    rw [(amounts_step_deposit hdeposit p).1,
      (amounts_step_deposit (hselector ▸ hdeposit) p).1, h.values.sent hdeposit]
  · intro hdeposit
    rw [hselector'] at hdeposit
    rw [(amounts_step_deposit hdeposit p).2,
      (amounts_step_deposit (hselector ▸ hdeposit) p).2, h.values.received hdeposit]

/-- A query writes the value of a `deposit()` over itself. -/
theorem alikeEarly_query (h : AlikeEarly tx c d) {host : HostInputs} (htx : host.txContent = tx)
    (q : UiQuery) : AlikeEarly tx (queried host c q) d := by
  refine ⟨(parsedPart_query c host q).trans h.parsedPart, ?_, ?_⟩
  · refine Eq.trans ?_ h.tokensFound
    unfold queried
    split <;> rfl
  · unfold queried
    split
    · refine ⟨?_, h.values.received⟩
      intro hdeposit
      have hamount : (sendContext host.networkTicker host.txContent c).amountSent =
          copyValue tx c.amountSent := by
        simp only [sendContext, sentCall, if_pos (show c.selectorIndex = _ from hdeposit), htx]
      rw [hamount, copyValue_copyValue]
      exact h.values.sent hdeposit
    · refine ⟨h.values.sent, ?_⟩
      intro hdeposit
      have hamount : (receiveContext host.networkTicker host.txContent c).minAmountReceived =
          copyValue tx c.minAmountReceived := by
        simp only [receiveContext, receivedCall, if_pos (show c.selectorIndex = _ from hdeposit),
          htx]
      rw [hamount, copyValue_copyValue]
      exact h.values.received hdeposit
    · exact h.values

/-- Queries among the words leave a context that is alike. -/
theorem alikeEarly_run (c : Context) {es : List Event} (h : ∀ e ∈ es, e.Early tx) :
    AlikeEarly tx (events.run c es) ((parser tx).run c (es.filterMap Event.word?)) := by
  refine Machine.run_simulation (N := parser tx) (R := AlikeEarly tx) (P := Event.Early tx)
    ?_ ?_ ⟨rfl, rfl, fun _ => rfl, fun _ => rfl⟩ h
  · intro c d e p he hcd hword
    cases e with
    | word tx' p' =>
      obtain rfl : tx' = tx := he
      obtain rfl : p' = p := Option.some_inj.mp hword
      exact alikeEarly_word hcd p'
    | init _ | finalize _ | info _ | query _ _ => cases hword
  · intro c d e he hcd hword
    cases e with
    | query host q => exact alikeEarly_query hcd he q
    | word _ _ => cases hword
    | init _ | finalize _ | info _ => exact he.elim

end Early

/-! ### The end of the words -/

theorem step_info_eq (c : Context) (answer : HostAnswer) :
    events.step c (.info answer) =
      (handleProvideToken
        { context := c, item1 := answer.item1, item2 := answer.item2, additionalScreens := 0,
          result := .ok }).context := rfl

/-- The table of the screens knows every built-in token. -/
theorem addressTicker_eq_none {networkTicker : Ticker} {address : Address}
    (h : addressTicker networkTicker address = none) :
    address ≠ nullEthAddress ∧ address ∉ builtinTokens := by
  simp only [addressTicker] at h
  split_ifs at h with hnull hoeth housd hdai husdc husdt
  refine ⟨hnull, ?_⟩
  simp [builtinTokens, hoeth, housd, hdai, husdc, husdt]

theorem storedTicker_congr {networkTicker : Ticker} {address : Address}
    (h : addressTicker networkTicker address = none) (item : Option TokenDefinition)
    (ticker ticker' : CString) :
    storedTicker address item ticker = storedTicker address item ticker' := by
  have hunknown : ¬(address = nullEthAddress ∨ address ∈ builtinTokens) :=
    not_or.mpr (addressTicker_eq_none h)
  rw [storedTicker, storedTicker, if_neg hunknown, if_neg hunknown]

section Closing

variable {c d : Context}

/-- Without tokens to look up the decimals are those of the network token. -/
theorem sameSides_finalized (networkTicker : Ticker) (h : c.parsedPart = d.parsedPart)
    (hsent : c.contractAddressSent = nullEthAddress)
    (hreceived : c.contractAddressReceived = nullEthAddress) :
    SameSides networkTicker (finalizedContext c) (finalizedContext d) := by
  obtain ⟨-, -, -, hsent', hreceived', -⟩ := fields_of_parsedPart h
  constructor
  · simp only [finalizedContext, ← hsent', hsent, if_true]
  · simp only [finalizedContext, ← hreceived', hreceived, if_true]
  · intro hunknown
    exact absurd hsent (addressTicker_eq_none hunknown).1
  · intro hunknown
    exact absurd hreceived (addressTicker_eq_none hunknown).1

theorem sameSides_provided (networkTicker : Ticker) (answer : HostAnswer)
    (h : c.parsedPart = d.parsedPart) :
    SameSides networkTicker (providedContext c answer.item1 answer.item2)
      (providedContext d answer.item1 answer.item2) := by
  obtain ⟨-, -, -, hsent, hreceived, -⟩ := fields_of_parsedPart h
  constructor
  · simp only [providedContext, hsent]
  · simp only [providedContext, hreceived]
  · intro hunknown
    simp only [providedContext, ← hsent]
    exact storedTicker_congr hunknown _ _ _
  · intro hunknown
    simp only [providedContext, ← hreceived]
    exact storedTicker_congr hunknown _ _ _

theorem tokensFound_finalized (h : c.parsedPart = d.parsedPart)
    (hfound : c.tokensFound = d.tokensFound) :
    (finalizedContext c).tokensFound = (finalizedContext d).tokensFound := by
  obtain ⟨-, -, -, hsent, hreceived, -⟩ := fields_of_parsedPart h
  simp only [finalizedContext, hsent, hreceived, hfound]

theorem tokensFound_provided (answer : HostAnswer) (h : c.parsedPart = d.parsedPart)
    (hfound : c.tokensFound = d.tokensFound) :
    (providedContext c answer.item1 answer.item2).tokensFound =
      (providedContext d answer.item1 answer.item2).tokensFound := by
  obtain ⟨-, -, -, hsent, hreceived, -⟩ := fields_of_parsedPart h
  simp only [providedContext, hsent, hreceived, hfound]

end Closing

namespace Transaction

variable (t : Transaction) (ps : List ParamBuffer) (user : Address) (answer : HostAnswer)

/-- `handle_finalize` asked for a token. -/
def AsksTokens : Prop :=
  (t.finalized ps user).tokenLookup1.isSome ∨ (t.finalized ps user).tokenLookup2.isSome

instance : Decidable (t.AsksTokens ps user) := inferInstanceAs (Decidable (_ ∨ _))

theorem not_asksTokens_iff :
    ¬t.AsksTokens ps user ↔
      (t.parsed ps).contractAddressSent = nullEthAddress ∧
        (t.parsed ps).contractAddressReceived = nullEthAddress := by
  rw [AsksTokens, finalized, handleFinalize_eq]
  simp only [not_or]
  split_ifs <;> simp [*]

/-- The events at the end of the words. -/
def closing : List Event :=
  .finalize user :: if t.AsksTokens ps user then [.info answer] else []

/-- A vault that is redeemed from names no received token, in any context that is parsed alike. -/
theorem redeem_null {c : Context} (h : c.parsedPart = (t.parsed ps).parsedPart) :
    c.selectorIndex = .vaultRedeem → c.contractAddressReceived = nullEthAddress := by
  obtain ⟨hselector, -, -, -, hreceived, -⟩ := fields_of_parsedPart h
  intro hs
  rw [hreceived]
  refine (t.parsed_tokensNamed ps).2 ?_
  rw [← hselector, hs]
  rfl

/-- The tokens of a context that is parsed like this one. -/
theorem step_info {c : Context} (h : c.parsedPart = (t.parsed ps).parsedPart) :
    events.step c (.info answer) = providedContext c answer.item1 answer.item2 := by
  rw [step_info_eq, handleProvideToken_eq _ (t.redeem_null ps h)]

/-- The closing of a context that is alike gives the same screens. -/
theorem sameScreens_closing {host : HostInputs} (htx : host.txContent = t.tx) {c : Context}
    (h : AlikeEarly t.tx c (t.parsed ps)) :
    SameScreens host (events.run c (t.closing ps user answer))
      (events.run (t.parsed ps) (t.closing ps user answer)) := by
  have hparsed : (finalizedContext c).parsedPart = (t.parsed ps).parsedPart := h.parsedPart
  have hfound := tokensFound_finalized h.parsedPart h.tokensFound
  have hvalues : SameValues t.tx (finalizedContext c) (finalizedContext (t.parsed ps)) :=
    ⟨h.values.sent, h.values.received⟩
  by_cases hasks : t.AsksTokens ps user
  · have hclosing : t.closing ps user answer = [.finalize user, .info answer] := by
      rw [closing, if_pos hasks]
    have hstep : ∀ d : Context, d.parsedPart = (t.parsed ps).parsedPart →
        events.run d [.finalize user, .info answer] =
          providedContext (finalizedContext d) answer.item1 answer.item2 := by
      intro d hd
      exact t.step_info ps answer hd
    rw [hclosing, hstep c h.parsedPart, hstep (t.parsed ps) rfl]
    exact sameScreens_of_parsedPart htx hparsed (tokensFound_provided answer hparsed hfound)
      ⟨hvalues.sent, hvalues.received⟩ (sameSides_provided host.networkTicker answer hparsed)
  · obtain ⟨hsent, hreceived⟩ := (t.not_asksTokens_iff ps user).mp hasks
    obtain ⟨-, -, -, hsent', hreceived', -⟩ := fields_of_parsedPart h.parsedPart
    have hclosing : t.closing ps user answer = [.finalize user] := by
      rw [closing, if_neg hasks]
    rw [hclosing]
    exact sameScreens_of_parsedPart htx hparsed hfound hvalues
      (sameSides_finalized host.networkTicker h.parsedPart (hsent'.trans hsent)
        (hreceived'.trans hreceived))

/-- The closing of the words alone leads to the context that the screens are shown from. -/
theorem run_closing :
    events.run (t.parsed ps) (t.closing ps user answer) = t.shown ps user answer := by
  have hfinalize : events.step (t.parsed ps) (.finalize user) = (t.finalized ps user).context := by
    rw [finalized, handleFinalize_eq]
    rfl
  rw [closing, Machine.run_cons, hfinalize, shown, tokens]
  by_cases hasks : t.AsksTokens ps user
  · have hasked : (t.finalized ps user).tokenLookup1.isSome ∨
        (t.finalized ps user).tokenLookup2.isSome := hasks
    simp only [if_pos hasks, if_pos hasked, Machine.run_cons, Machine.run_nil, step_info_eq]
  · have hasked : ¬((t.finalized ps user).tokenLookup1.isSome ∨
        (t.finalized ps user).tokenLookup2.isSome) := hasks
    simp only [if_neg hasks, if_neg hasked, Machine.run_nil]

/-- An accepted first message is compatible. -/
theorem compatible : t.init.Compatible := by
  have haccepted := t.accepted
  by_contra hcompatible
  unfold handleInitContract at haccepted
  split_ifs at haccepted with hversion hlength
  exact hcompatible ⟨not_not.mp hversion, Nat.not_lt.mp hlength⟩

/-- The first message leaves the start of the transaction, whatever the context held. -/
theorem step_init (c : Context) : events.step c (.init t.init) = t.start := by
  have hhandle := t.compatible.handle_eq c t.init.context
  exact congrArg InitContract.context hhandle

end Transaction

/-! ### The replies to the queries -/

theorem run_queries (f : Formatter) (host : HostInputs) (c : Context) (qs : List UiQuery) :
    events.run c (qs.map (.query host)) = (ui f host).run c qs := by
  refine Machine.run_map ?_ c qs
  intro c q
  exact (ui_step_output c q).1.symm

/-- The message that an event comes with. -/
def Event.message : Event → PluginMsg
  | .init _ => .initContract
  | .word _ _ => .provideParameter
  | .finalize _ => .finalize
  | .info _ => .provideInfo
  | .query _ _ => .queryContractUi

theorem message_of_event {args : Args} {e : Event} (h : args.event = some e) :
    PluginMsg.ofCode args.message = some e.message := by
  rw [Args.event] at h
  split at h <;> cases h <;> assumption

/-- The reply to a query. -/
theorem answer_main (f : Formatter) (c : Context) {args : Args} {host : HostInputs} {q : UiQuery}
    (h : args.event = some (.query host q)) :
    ((plugin f).output c args).queryContractUi.answer = answer f host c q := by
  have hmessage : PluginMsg.ofCode args.message = some .queryContractUi := message_of_event h
  rw [Args.event, hmessage] at h
  simp only [Option.some.injEq, Event.query.injEq] at h
  obtain ⟨rfl, rfl⟩ := h
  simp only [plugin, main_queryContractUi f c hmessage]
  exact (ui_step_output c _).2

section Session

variable (t : Transaction) (ps : List ParamBuffer) (user : Address) {answer : HostAnswer}
  {host : HostInputs} {calls : List Args} {early : List Event} {viewed : List UiQuery}

/-- After the calls of a transaction the screens are those of the words alone. -/
theorem sameScreens_session (f : Formatter) (c : Context) (htx : host.txContent = t.tx)
    (hearly : ∀ e ∈ early, e.Early t.tx) (hwords : early.filterMap Event.word? = ps)
    (hcalls : calls.filterMap Args.event =
      .init t.init :: (early ++ (t.closing ps user answer ++ viewed.map (.query host)))) :
    SameScreens host ((plugin f).run c calls) (t.shown ps user answer) := by
  have halike := alikeEarly_run t.start hearly
  rw [hwords] at halike
  have hclosed := t.sameScreens_closing ps user answer htx halike
  rw [t.run_closing] at hclosed
  have hcontext : (plugin f).run c calls =
      (ui f host).run
        (events.run (events.run t.start early) (t.closing ps user answer)) viewed := by
    rw [run_plugin, hcalls, Machine.run_cons, t.step_init, Machine.run_append, Machine.run_append,
      run_queries]
  rw [hcontext]
  exact (sameScreens_run f host _ viewed).trans hclosed

/-- The reply to a query in a context with these screens. -/
theorem reply_text (keccak : List Char → Bytes int256Length)
    (hvalue : t.tx.value.length.toNat ≤ int256Length) (htx : host.txContent = t.tx)
    (hhost : HostTickers host.networkTicker answer)
    (hbuf : HostBuffers host.titleLength host.msgLength)
    {c : Context} (hsame : SameScreens host c (t.shown ps user answer)) {args : Args} {q : UiQuery}
    (hargs : args.event = some (.query host q))
    (hq : q.screenIndex.toNat < t.screenCount ps user answer) :
    some ((plugin (sdkFormatter keccak)).output c args).queryContractUi.answer.text =
      (t.display ps user answer host.networkTicker keccak host.msgLength)[
        q.screenIndex.toNat]? := by
  have hreply : ((plugin (sdkFormatter keccak)).output c args).queryContractUi.answer =
      OriginDefi.answer (sdkFormatter keccak) host (t.shown ps user answer) q := by
    rw [← answer_congr hsame]
    exact answer_main _ _ hargs
  have hplan := plan_getElem t ps user q hq
  rw [hreply, answer_text t ps user keccak hvalue htx hhost hbuf q (List.mem_of_getElem? hplan),
    Transaction.display, List.getElem?_map, hplan, Option.map_some]

end Session

/-- **What the calls show.**  Take any calls that are, but for calls without an event, those of an
accepted transaction: the first message, the words with any queries among them, and the closing.
Whatever the context held before, and however many queries come after them, the reply to a query of
a counted screen is the text that the display has there. -/
theorem session_display (t : Transaction) (ps : List ParamBuffer) (user : Address)
    (answer : HostAnswer) (keccak : List Char → Bytes int256Length) (host : HostInputs)
    (hvalue : t.tx.value.length.toNat ≤ int256Length) (htx : host.txContent = t.tx)
    (hhost : HostTickers host.networkTicker answer)
    (hbuf : HostBuffers host.titleLength host.msgLength) (c : Context) (calls : List Args)
    (early : List Event) (hearly : ∀ e ∈ early, e.Early t.tx)
    (hwords : early.filterMap Event.word? = ps) (viewed : List UiQuery)
    (hcalls : calls.filterMap Args.event =
      .init t.init :: (early ++ (t.closing ps user answer ++ viewed.map (.query host))))
    (args : Args) (q : UiQuery) (hargs : args.event = some (.query host q))
    (hq : q.screenIndex.toNat < t.screenCount ps user answer) :
    let reply := (plugin (sdkFormatter keccak)).output
      ((plugin (sdkFormatter keccak)).run c calls) args
    some reply.queryContractUi.answer.text =
      (t.display ps user answer host.networkTicker keccak host.msgLength)[q.screenIndex.toNat]? := by
  have hsame := sameScreens_session t ps user (sdkFormatter keccak) c htx hearly hwords hcalls
  exact reply_text t ps user keccak hvalue htx hhost hbuf hsame hargs hq

theorem filterMap_calls (p : Parameters) (es : List Event) :
    (es.map (Event.call p)).filterMap Args.event = es := by
  rw [List.filterMap_map]
  have hcomp : Args.event ∘ Event.call p = some := funext (event_call p)
  rw [hcomp, List.filterMap_some]

/-- The events of a `mint`, with a query among its words and one at the end. -/
def mintSession : List Event :=
  .init vaultMintTransaction.init ::
    (mintEvents ++
      (vaultMintTransaction.closing [.ofNat 7, .ofNat 5] nullEthAddress ⟨none, none⟩ ++
        [UiQuery.mk 1 [] []].map (Event.query mintHost)))

theorem mintEvents_early : ∀ e ∈ mintEvents, e.Early vaultMintTransaction.tx := by
  simp [mintEvents, Event.Early, Transaction.hostInputs]

theorem session_display_mint :
    let p := vaultMintTransaction.init.parameters
    let f := sdkFormatter fun _ _ => 0
    let reply := (plugin f).output ((plugin f).run Context.zero (mintSession.map (Event.call p)))
      (Event.call p (.query mintHost ⟨0, [], []⟩))
    some reply.queryContractUi.answer.text =
      (vaultMintTransaction.display [.ofNat 7, .ofNat 5] nullEthAddress ⟨none, none⟩
        mintHost.networkTicker (fun _ _ => 0) mintHost.msgLength)[(0 : UInt8).toNat]? :=
  session_display vaultMintTransaction _ _ _ _ mintHost (by decide) rfl mintHost_tickers
    mintHost_buffers Context.zero _ mintEvents mintEvents_early rfl _
    (filterMap_calls _ mintSession) _ ⟨0, [], []⟩ (event_call _ _) (by decide)

/-! ### The number of screens -/

theorem countedScreens_congr {c d : Context} (h : c.parsedPart = d.parsedPart) (user : Address) :
    countedScreens c user = countedScreens d user := by
  obtain ⟨hselector, -, -, -, -, hbeneficiary⟩ := fields_of_parsedPart h
  simp only [countedScreens, hselector, hbeneficiary]

/-- The reply to the message at the end of the words. -/
theorem reply_finalize (f : Formatter) (c : Context) {args : Args} {user : Address}
    (h : args.event = some (.finalize user)) :
    ((plugin f).output c args).finalize =
      handleFinalize { args.parameters.finalize with context := c, address := user } := by
  have hmessage : PluginMsg.ofCode args.message = some .finalize := message_of_event h
  rw [Args.event, hmessage] at h
  simp only [Option.some.injEq, Event.finalize.injEq] at h
  subst h
  simp only [plugin, main_finalize f c hmessage]

/-- The reply to the tokens. -/
theorem reply_info (f : Formatter) (c : Context) {args : Args} {answer : HostAnswer}
    (h : args.event = some (.info answer)) :
    ((plugin f).output c args).provideInfo =
      handleProvideToken
        { args.parameters.provideInfo with
          context := c, item1 := answer.item1, item2 := answer.item2 } := by
  have hmessage : PluginMsg.ofCode args.message = some .provideInfo := message_of_event h
  rw [Args.event, hmessage] at h
  simp only [Option.some.injEq, Event.info.injEq] at h
  subst h
  simp only [plugin, main_provideInfo f c hmessage]

/-- The calls of the first message and the words leave a context that is alike. -/
theorem alikeEarly_calls (f : Formatter) (t : Transaction) (c : Context) {calls : List Args}
    {early : List Event} (hearly : ∀ e ∈ early, e.Early t.tx)
    (hcalls : calls.filterMap Args.event = .init t.init :: early) :
    AlikeEarly t.tx ((plugin f).run c calls) (t.parsed (early.filterMap Event.word?)) := by
  rw [run_plugin, hcalls, Machine.run_cons, t.step_init]
  exact alikeEarly_run t.start hearly

section Count

variable (t : Transaction) (ps : List ParamBuffer) (user : Address) (answer : HostAnswer)

/-- `handle_finalize` asks for the same tokens and counts the same screens in a context that is
parsed like that of the words alone. -/
theorem handleFinalize_counts (msg : Finalize)
    (h : msg.context.parsedPart = (t.parsed ps).parsedPart) (huser : msg.address = user) :
    (handleFinalize msg).tokenLookup1 = (t.finalized ps user).tokenLookup1 ∧
      (handleFinalize msg).tokenLookup2 = (t.finalized ps user).tokenLookup2 ∧
      (handleFinalize msg).numScreens = (t.finalized ps user).numScreens := by
  obtain ⟨-, -, -, hsent, hreceived, -⟩ := fields_of_parsedPart h
  have hcounted := countedScreens_congr h user
  subst huser
  rw [Transaction.finalized, handleFinalize_eq, handleFinalize_eq]
  simp only [hsent, hreceived, hcounted, and_self]

/-- `handle_provide_token` adds the same screens there. -/
theorem handleProvideToken_adds (msg : ProvideInfo)
    (h : msg.context.parsedPart = (t.parsed ps).parsedPart) (hitem1 : msg.item1 = answer.item1)
    (hitem2 : msg.item2 = answer.item2) :
    (handleProvideToken msg).additionalScreens - msg.additionalScreens =
      (if resolved (t.parsed ps).contractAddressSent answer.item1 then 0 else 1) +
        (if resolved (t.parsed ps).contractAddressReceived answer.item2 then 0 else 1) := by
  obtain ⟨-, -, -, hsent, hreceived, -⟩ := fields_of_parsedPart h
  rw [handleProvideToken_eq _ (t.redeem_null ps h)]
  simp only [hitem1, hitem2, hsent, hreceived]
  rw [add_assoc, add_sub_cancel_left]

/-- The display has a text for each counted screen. -/
theorem Transaction.length_display (networkTicker : Ticker)
    (keccak : List Char → Bytes int256Length) (msgLength : ℕ) :
    (t.display ps user answer networkTicker keccak msgLength).length =
      t.screenCount ps user answer := by
  rw [display, List.length_map, ← t.map_getScreen ps user answer, List.length_map,
    List.length_range]

/-- The counted screens are those of the two answers, the second one only if a token was asked
for. -/
theorem Transaction.screenCount_eq :
    t.screenCount ps user answer =
      (if t.AsksTokens ps user then
          (t.finalized ps user).numScreens +
            ((if resolved (t.parsed ps).contractAddressSent answer.item1 then 0 else 1) +
              (if resolved (t.parsed ps).contractAddressReceived answer.item2 then 0 else 1))
        else (t.finalized ps user).numScreens).toNat := by
  rw [screenCount, t.tokens_eq]
  by_cases hasks : t.AsksTokens ps user
  · rw [if_pos hasks]
  · obtain ⟨hsent, hreceived⟩ := (t.not_asksTokens_iff ps user).mp hasks
    simp only [if_neg hasks, resolved_of_null _ hsent, resolved_of_null _ hreceived, if_true,
      UInt8.add_zero]

end Count

/-- **What the host is told about the screens.**  After the words, with any queries among them and
whatever the context held before, the message at the end of the words is answered with the tokens of
the transaction that are not the network token; the screens of this answer, and those that the
answer to the tokens adds if it asked for any, are as many as the display has. -/
theorem session_count (f : Formatter) (t : Transaction) (user : Address) (answer : HostAnswer)
    (networkTicker : Ticker) (keccak : List Char → Bytes int256Length) (msgLength : ℕ)
    (c : Context) (calls : List Args) (early : List Event) (hearly : ∀ e ∈ early, e.Early t.tx)
    (hcalls : calls.filterMap Args.event = .init t.init :: early) (last tokens : Args)
    (hlast : last.event = some (.finalize user)) (htokens : tokens.event = some (.info answer)) :
    let ps := early.filterMap Event.word?
    let context := (plugin f).run c calls
    let counted := ((plugin f).output context last).finalize
    let added := ((plugin f).output ((plugin f).step context last) tokens).provideInfo
    counted.tokenLookup1 =
        (if (t.parsed ps).contractAddressSent = nullEthAddress then none
          else some (t.parsed ps).contractAddressSent) ∧
      counted.tokenLookup2 =
        (if (t.parsed ps).contractAddressReceived = nullEthAddress then none
          else some (t.parsed ps).contractAddressReceived) ∧
      (if counted.tokenLookup1.isSome ∨ counted.tokenLookup2.isSome then
          counted.numScreens +
            (added.additionalScreens - tokens.parameters.provideInfo.additionalScreens)
        else counted.numScreens).toNat =
        (t.display ps user answer networkTicker keccak msgLength).length := by
  intro ps context counted added
  have halike := alikeEarly_calls f t c hearly hcalls
  have hcounted : counted = handleFinalize
      { last.parameters.finalize with context := context, address := user } :=
    reply_finalize f context hlast
  have hadded : added = handleProvideToken
      { tokens.parameters.provideInfo with
        context := (plugin f).step context last, item1 := answer.item1, item2 := answer.item2 } :=
    reply_info f _ htokens
  have hfinalized : (plugin f).step context last = finalizedContext context := by
    have hmain := context_main f context last
    rw [hlast] at hmain
    exact hmain
  have hparsed : ((plugin f).step context last).parsedPart = (t.parsed ps).parsedPart := by
    rw [hfinalized]
    exact halike.parsedPart
  obtain ⟨hlookup1, hlookup2, hnum⟩ := handleFinalize_counts t ps user
    { last.parameters.finalize with context := context, address := user } halike.parsedPart rfl
  have hadds := handleProvideToken_adds t ps answer
    { tokens.parameters.provideInfo with
      context := (plugin f).step context last, item1 := answer.item1, item2 := answer.item2 }
    hparsed rfl rfl
  rw [← hcounted] at hlookup1 hlookup2 hnum
  rw [← hadded] at hadds
  have hlookups : t.finalized ps user = handleFinalize _ := rfl
  rw [handleFinalize_eq] at hlookups
  refine ⟨?_, ?_, ?_⟩
  · rw [hlookup1, hlookups]
  · rw [hlookup2, hlookups]
  · rw [t.length_display, t.screenCount_eq, hlookup1, hlookup2, hnum, hadds]
    rfl

/-- The first calls of a `mint`, with a query among its words. -/
def mintOpening : List Event := .init vaultMintTransaction.init :: mintEvents

theorem session_count_mint :
    let t := vaultMintTransaction
    let p := t.init.parameters
    let f := sdkFormatter fun _ _ => 0
    let last := Event.call p (.finalize nullEthAddress)
    let tokens := Event.call p (.info ⟨none, none⟩)
    let ps := mintEvents.filterMap Event.word?
    let context := (plugin f).run Context.zero (mintOpening.map (Event.call p))
    let counted := ((plugin f).output context last).finalize
    let added := ((plugin f).output ((plugin f).step context last) tokens).provideInfo
    counted.tokenLookup1 =
        (if (t.parsed ps).contractAddressSent = nullEthAddress then none
          else some (t.parsed ps).contractAddressSent) ∧
      counted.tokenLookup2 =
        (if (t.parsed ps).contractAddressReceived = nullEthAddress then none
          else some (t.parsed ps).contractAddressReceived) ∧
      (if counted.tokenLookup1.isSome ∨ counted.tokenLookup2.isSome then
          counted.numScreens +
            (added.additionalScreens - tokens.parameters.provideInfo.additionalScreens)
        else counted.numScreens).toNat =
        (t.display ps nullEthAddress ⟨none, none⟩ ethTicker (fun _ _ => 0) 64).length :=
  session_count (sdkFormatter fun _ _ => 0) vaultMintTransaction nullEthAddress ⟨none, none⟩
    ethTicker (fun _ _ => 0) 64 Context.zero _ mintEvents mintEvents_early
    (filterMap_calls _ mintOpening) _ _ (event_call _ _) (event_call _ _)

end OriginDefi
