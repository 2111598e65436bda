import OriginDefi.Dispatch

/-!
# The first message and what it leaves

`handleInitContract_classified` says which first messages are answered with which result.

A message that reaches the `memset` of the context leaves nothing of what was there before: the
replies of a session are those of its transactions, each of them alone (`session_isolated`).  After
a message with an unknown selector no word is ever accepted (`unknown_selector_words`).
-/

namespace OriginDefi

theorem findSelectorFrom_eq (selector i : ℕ) (selectors : List ℕ) :
    findSelectorFrom selector i selectors =
      if selector ∈ selectors then some (i + selectors.idxOf selector) else none := by
  induction selectors generalizing i with
  | nil => simp [findSelectorFrom]
  | cons s selectors ih =>
    rw [findSelectorFrom, ih]
    by_cases hs : selector = s
    · simp [hs]
    · have hindex : i + (s :: selectors).idxOf selector = i + 1 + selectors.idxOf selector := by
        rw [List.idxOf_cons_ne _ (Ne.symm hs)]
        omega
      rw [if_neg hs, hindex]
      simp only [List.mem_cons, hs, false_or]

/-- `find_selector` gives the index of the selector in the table. -/
theorem findSelector_eq (selector : ℕ) (selectors : List ℕ) :
    findSelector selector selectors =
      if selector ∈ selectors then some (selectors.idxOf selector) else none := by
  rw [findSelector, findSelectorFrom_eq, Nat.zero_add]

namespace InitContract

variable (msg : InitContract)

/-- The host speaks the version of the plugin and has room for its context. -/
def Compatible : Prop :=
  msg.interfaceVersion = ethPluginInterfaceVersionLatest ∧ sizeofContext ≤ msg.pluginContextLength

/-- The selector is in the table. -/
def Known : Prop := msg.selector.toNat ∈ originDefiSelectors

/-- An exchange with a contract that is not one of the two Curve pools. -/
def OtherPool : Prop :=
  msg.selector.toNat ∈ [0x3df02124, 0xa6417ed6] ∧
    msg.txContent.destination ∉ [curveOethPoolAddress, curveOusdPoolAddress]

variable {msg}

theorem Compatible.not_short (h : msg.Compatible) :
    ¬msg.pluginContextLength < sizeofContext := Nat.not_lt.mpr h.2

/-- A compatible message with an unknown selector. -/
theorem handle_of_unknown (h : msg.Compatible) (hknown : ¬msg.Known) :
    handleInitContract msg = { msg with context := Context.zero, result := .unavailable } := by
  have hfind : findSelector msg.selector.toNat originDefiSelectors = none := by
    rw [findSelector_eq]
    exact if_neg hknown
  rw [handleInitContract, if_neg (not_not.mpr h.1), if_neg h.not_short]
  simp only [hfind]

variable (msg)

/-- The enumerator of the selector. -/
def selectorIndex : Selector := Selector.ofIndex (originDefiSelectors.idxOf msg.selector.toNat)

variable {msg}

/-- A compatible message with a known selector. -/
theorem handle_of_known (h : msg.Compatible) (hknown : msg.Known) :
    handleInitContract msg =
      match initialParser msg.txContent msg.selectorIndex with
      | none =>
        { msg with context := initialContext msg.selectorIndex .tokenSent 0, result := .error }
      | some (nextParam, skip) =>
        { msg with context := initialContext msg.selectorIndex nextParam skip, result := .ok } := by
  have hfind : findSelector msg.selector.toNat originDefiSelectors =
      some (originDefiSelectors.idxOf msg.selector.toNat) := by
    rw [findSelector_eq]
    exact if_pos hknown
  rw [handleInitContract, if_neg (not_not.mpr h.1), if_neg h.not_short]
  simp only [hfind, selectorIndex]
  cases initialParser msg.txContent (Selector.ofIndex (originDefiSelectors.idxOf
    msg.selector.toNat)) with
  | none => rfl
  | some first => simp [initialContext, Context.zero]

end InitContract

theorem initialParser_eq_none_iff (tx : TxContent) (s : Selector) :
    initialParser tx s = none ↔
      s = .unlisted ∨
        s.isCurvePool ∧ tx.destination ∉ [curveOethPoolAddress, curveOusdPoolAddress] := by
  cases s
  case curvePoolExchange | curvePoolExchangeUnderlying =>
    simp [initialParser, Selector.isCurvePool, eq_comm (a := tx.destination)]
  all_goals simp [initialParser, Selector.isCurvePool]

/-- The entries of the table are listed, and two of them are exchanges with a Curve pool. -/
theorem table_curvePool : ∀ n ∈ originDefiSelectors,
    Selector.ofIndex (originDefiSelectors.idxOf n) ≠ .unlisted ∧
      ((Selector.ofIndex (originDefiSelectors.idxOf n)).isCurvePool ↔
        n ∈ [0x3df02124, 0xa6417ed6]) := by
  decide

namespace InitContract

variable {msg : InitContract}

theorem initialParser_eq_none (hknown : msg.Known) :
    initialParser msg.txContent msg.selectorIndex = none ↔ msg.OtherPool := by
  obtain ⟨hlisted, hcurve⟩ := table_curvePool _ hknown
  rw [initialParser_eq_none_iff, selectorIndex, hcurve, OtherPool]
  simp only [hlisted, false_or]

/-- The second kind of refusal has a known selector. -/
theorem OtherPool.known (h : msg.OtherPool) : msg.Known := by
  have hsub : ∀ n ∈ [0x3df02124, 0xa6417ed6], n ∈ originDefiSelectors := by decide
  exact hsub _ h.1

end InitContract

/-- **The first message.**  It is answered with `UNAVAILABLE` for another version of the interface
or an unknown selector, with `ERROR` for a context without room or an exchange with another
contract, and with OK otherwise; the context then has the selector, and it is untouched where the
message was refused before the `memset`. -/
theorem handleInitContract_classified (msg : InitContract) :
    ((handleInitContract msg).result = .unavailable ↔
      msg.interfaceVersion ≠ ethPluginInterfaceVersionLatest ∨ msg.Compatible ∧ ¬msg.Known) ∧
    ((handleInitContract msg).result = .error ↔
      msg.interfaceVersion = ethPluginInterfaceVersionLatest ∧
        (msg.pluginContextLength < sizeofContext ∨ msg.OtherPool)) ∧
    ((handleInitContract msg).result = .ok ↔ msg.Compatible ∧ msg.Known ∧ ¬msg.OtherPool) ∧
    ((handleInitContract msg).result = .ok →
      (handleInitContract msg).context.selectorIndex = msg.selectorIndex) ∧
    (¬msg.Compatible → (handleInitContract msg).context = msg.context) := by
  by_cases hversion : msg.interfaceVersion = ethPluginInterfaceVersionLatest
  · by_cases hlength : msg.pluginContextLength < sizeofContext
    · have hhandle : handleInitContract msg = { msg with result := .error } := by
        rw [handleInitContract, if_neg (not_not.mpr hversion), if_pos hlength]
      have hcompatible : ¬msg.Compatible := fun h => h.not_short hlength
      simp [hhandle, hversion, hlength, hcompatible]
    · have hcompatible : msg.Compatible := ⟨hversion, Nat.not_lt.mp hlength⟩
      by_cases hknown : msg.Known
      · have hnone := msg.initialParser_eq_none hknown
        have hhandle := msg.handle_of_known hcompatible hknown
        cases hparser : initialParser msg.txContent msg.selectorIndex with
        | none =>
          have hother : msg.OtherPool := hnone.mp hparser
          simp [hhandle, hparser, hversion, hcompatible, hknown, hother]
        | some first =>
          have hother : ¬msg.OtherPool := by
            rw [← hnone, hparser]
            nofun
          simp [hhandle, hparser, hversion, hlength, hcompatible, hknown, hother, initialContext]
      · have hother : ¬msg.OtherPool := fun h => hknown h.known
        simp [msg.handle_of_unknown hcompatible hknown, hversion, hlength, hcompatible, hknown,
          hother]
  · have hhandle : handleInitContract msg = { msg with result := .unavailable } := by
      rw [handleInitContract, if_pos hversion]
    have hcompatible : ¬msg.Compatible := fun h => hversion h.1
    simp [hhandle, hversion, hcompatible]

/-! ### What the first message leaves -/

/-- Behind the `memset` nothing is left of the context that was there. -/
theorem InitContract.Compatible.handle_eq {msg : InitContract} (h : msg.Compatible)
    (c c' : Context) :
    handleInitContract { msg with context := c } =
      handleInitContract { msg with context := c' } := by
  have hversion : ¬msg.interfaceVersion ≠ ethPluginInterfaceVersionLatest := not_not.mpr h.1
  simp only [handleInitContract, if_neg hversion, if_neg h.not_short]

/-- A call of the first message. -/
def Args.IsInit (args : Args) : Prop := PluginMsg.ofCode args.message = some .initContract

/-- The calls of one transaction, from a compatible first message on. -/
structure TransactionCalls where
  first : Args
  rest : List Args
  isInit : first.IsInit
  compatible : first.parameters.initContract.Compatible

namespace TransactionCalls

/-- All of them, in order. -/
def calls (t : TransactionCalls) : List Args := t.first :: t.rest

variable (f : Formatter) (c c' : Context) (t : TransactionCalls)

theorem main_first : main f c t.first = main f c' t.first := by
  rw [main_initContract f c t.isInit, main_initContract f c' t.isInit, t.compatible.handle_eq c c']

theorem step_first : (plugin f).step c t.first = (plugin f).step c' t.first :=
  congrArg Prod.fst (t.main_first f c c')

theorem outputs_calls : (plugin f).outputs c t.calls = (plugin f).outputs c' t.calls := by
  have houtput : (plugin f).output c t.first = (plugin f).output c' t.first :=
    congrArg Prod.snd (t.main_first f c c')
  rw [calls, Machine.outputs_cons, Machine.outputs_cons, t.step_first f c c', houtput]

theorem run_calls : (plugin f).run c t.calls = (plugin f).run c' t.calls := by
  rw [calls, Machine.run_cons, Machine.run_cons, t.step_first f c c']

end TransactionCalls

instance (msg : InitContract) : Decidable msg.Compatible :=
  inferInstanceAs (Decidable (_ ∧ _))

/-- The calls that the context does not notice: those without an event, and a first message that is
refused before the `memset`. -/
def Args.inert (args : Args) : Bool :=
  match args.event with
  | none => true
  | some (.init msg) => ¬msg.Compatible
  | some _ => false

theorem handle_of_not_compatible {msg : InitContract} (h : ¬msg.Compatible) :
    (handleInitContract msg).context = msg.context := by
  rw [handleInitContract]
  split_ifs with hversion hlength
  · rfl
  · rfl
  · exact absurd ⟨not_not.mp hversion, Nat.not_lt.mp hlength⟩ h

theorem step_inert (f : Formatter) (c : Context) {args : Args} (h : args.inert) :
    (plugin f).step c args = c := by
  have hmain : (plugin f).step c args = args.event.elim c (events.step c) := context_main f c args
  rw [Args.inert] at h
  rw [hmain]
  cases hevent : args.event with
  | none => rfl
  | some e =>
    cases e with
    | init msg =>
      simp only [hevent, decide_eq_true_eq] at h
      exact handle_of_not_compatible h
    | word _ _ | finalize _ | info _ | query _ _ => simp [hevent] at h

/-- **Transactions do not see each other.**  In whatever context, the replies of a session are those
of its transactions, each of them alone, and the context it leaves is that of the last one.  Calls
that the context does not notice may come anywhere in between: without them the other calls are
answered as with them. -/
theorem session_isolated (f : Formatter) (c : Context) (session : List TransactionCalls) :
    let calls := session.flatMap TransactionCalls.calls
    let noticed := calls.filter fun args => !args.inert
    (plugin f).outputs c calls =
        session.flatMap (fun t => (plugin f).outputs Context.zero t.calls) ∧
      (∀ last ∈ session.getLast?,
        (plugin f).run c calls = (plugin f).run Context.zero last.calls) ∧
      (plugin f).run c noticed = (plugin f).run c calls ∧
      noticed.zip ((plugin f).outputs c noticed) =
        (calls.zip ((plugin f).outputs c calls)).filter fun reply => !reply.1.inert := by
  intro calls noticed
  have hidle : ∀ (s : Context) (args : Args), (!args.inert) = false →
      (plugin f).step s args = s := by
    intro s args h
    exact step_inert f s (by simpa using h)
  refine ⟨?_, ?_, ?_, ?_⟩
  · exact Machine.outputs_flatMap (fun s t => t.outputs_calls f s Context.zero) c session
  · intro last hlast
    exact Machine.run_flatMap (fun s t => t.run_calls f s Context.zero) c hlast
  · exact Machine.run_filter hidle c calls
  · exact Machine.outputs_filter hidle c calls

/-- The calls of a `mint`, with one for `ETH_PLUGIN_CHECK_PRESENCE` among them. -/
def mintTransactionCalls : TransactionCalls where
  first := Event.call vaultMintTransaction.init.parameters (.init vaultMintTransaction.init)
  rest := ⟨0x01ff, vaultMintTransaction.init.parameters⟩ :: mintCalls
  isInit := rfl
  compatible := ⟨rfl, le_refl _⟩

theorem session_isolated_mint :
    let session := [mintTransactionCalls, { mintTransactionCalls with rest := mintCalls }]
    let calls := session.flatMap TransactionCalls.calls
    let noticed := calls.filter fun args => !args.inert
    noticed.length + 1 = calls.length ∧
      (plugin zeroFormatter).outputs Context.zero calls =
        session.flatMap (fun t => (plugin zeroFormatter).outputs Context.zero t.calls) ∧
      (plugin zeroFormatter).run Context.zero calls =
        (plugin zeroFormatter).run Context.zero
          { mintTransactionCalls with rest := mintCalls }.calls ∧
      (plugin zeroFormatter).run Context.zero noticed =
        (plugin zeroFormatter).run Context.zero calls := by
  intro session calls noticed
  obtain ⟨houtputs, hrun, hnoticed, -⟩ := session_isolated zeroFormatter Context.zero session
  exact ⟨by decide, houtputs, hrun _ rfl, hnoticed⟩

/-! ### Unknown selectors -/

/-- The context that `find_selector` fails with: the parser of `deposit()` in a state that it does
not treat. -/
def Context.Refuses (c : Context) : Prop :=
  c.selectorIndex = .zapperDepositEth ∧ c.nextParam = .tokenSent ∧ c.skip = 0

theorem refuses_of_parsedPart {c d : Context} (h : c.parsedPart = d.parsedPart)
    (hd : d.Refuses) : c.Refuses := by
  obtain ⟨hselector, hnext, hskip, -⟩ := fields_of_parsedPart h
  rw [Context.Refuses, hselector, hnext, hskip]
  exact hd

/-- A word is refused there and changes nothing. -/
theorem provide_of_refuses {c : Context} (h : c.Refuses) (tx : TxContent) (p : ParamBuffer) :
    (provide tx c p).result = .error ∧ (provide tx c p).context = c := by
  obtain ⟨hselector, hnext, hskip⟩ := h
  simp [provide, handleProvideParameter, handleSelector, handleZapperDepositEth, hselector, hnext,
    hskip, ProvideParameter.notSupported]

theorem refuses_step {c : Context} (h : c.Refuses) {e : Event} (he : ∀ msg, e ≠ .init msg) :
    (events.step c e).Refuses := by
  cases hword : e.word? with
  | none => exact refuses_of_parsedPart (parsedPart_apply he hword c) h
  | some p =>
    cases e with
    | word tx p' =>
      have hcontext : (parser tx).step c p' = c := (provide_of_refuses h tx p').2
      change ((parser tx).step c p').Refuses
      rw [hcontext]
      exact h
    | init _ | finalize _ | info _ | query _ _ => cases hword

theorem Args.event_ne_init {args : Args} (h : ¬args.IsInit) :
    ∀ e ∈ args.event, ∀ msg, e ≠ .init msg := by
  rintro e he msg rfl
  rw [Args.event] at he
  split at he
  · exact h ‹_›
  all_goals cases he

theorem refuses_run (f : Formatter) {c : Context} (hc : c.Refuses) {calls : List Args}
    (hcalls : ∀ args ∈ calls, ¬args.IsInit) : ((plugin f).run c calls).Refuses := by
  rw [run_plugin]
  have hstep : ∀ (d : Context) (e : Event), (∀ msg, e ≠ .init msg) → d.Refuses →
      (events.step d e).Refuses := fun d e he hd => refuses_step hd he
  refine Machine.run_invariant_of hstep hc ?_
  intro e he
  obtain ⟨args, hargs, hevent⟩ := List.mem_filterMap.mp he
  exact args.event_ne_init (hcalls args hargs) e hevent

/-- **An unknown selector is never parsed.**  After it every word is refused, whatever comes in
between, until the next first message. -/
theorem unknown_selector_words (f : Formatter) (c : Context) (args : Args) (hinit : args.IsInit)
    (hcompatible : args.parameters.initContract.Compatible)
    (hknown : ¬args.parameters.initContract.Known) (calls : List Args)
    (hcalls : ∀ args ∈ calls, ¬args.IsInit) (call : Args)
    (hcall : PluginMsg.ofCode call.message = some .provideParameter) :
    ((plugin f).output ((plugin f).run c (args :: calls)) call).result .provideParameter =
      some .error := by
  have hstep : ((plugin f).step c args).Refuses := by
    have hhandle : handleInitContract { args.parameters.initContract with context := c } =
        { args.parameters.initContract with context := Context.zero, result := .unavailable } :=
      InitContract.handle_of_unknown hcompatible hknown
    simp only [plugin, main_initContract f c hinit, hhandle]
    exact ⟨rfl, rfl, rfl⟩
  have hrefuses := refuses_run f hstep hcalls
  rw [Machine.run_cons]
  simp only [plugin, main_provideParameter f _ hcall]
  exact congrArg some (provide_of_refuses hrefuses _ _).1

theorem isInit_call {p : Parameters} {e : Event} (h : (e.call p).IsInit) :
    ∃ msg, e = .init msg := by
  cases e with
  | init msg => exact ⟨msg, rfl⟩
  | word _ _ | finalize _ | info _ | query _ _ =>
    simp [Args.IsInit, Event.call, PluginMsg.ofCode] at h

theorem mintCalls_not_init : ∀ args ∈ mintCalls, ¬args.IsInit := by
  intro args hargs
  obtain ⟨e, he, rfl⟩ := List.mem_map.mp hargs
  intro hinit
  obtain ⟨msg, rfl⟩ := isInit_call hinit
  exact mintEvents_ofTransaction _ he

/-- A first message for the selector zero. -/
def unknownInit : Args :=
  let msg := InitContract.plain 0 oethVaultAddress
  Event.call msg.parameters (.init msg)

theorem unknown_selector_words_zero :
    ((plugin zeroFormatter).output
        ((plugin zeroFormatter).run Context.zero (unknownInit :: mintCalls))
        (Event.call vaultMintTransaction.init.parameters
          (.word vaultMintTransaction.tx (.ofNat 7)))).result .provideParameter = some .error :=
  unknown_selector_words zeroFormatter _ unknownInit rfl ⟨rfl, le_refl _⟩
    (by unfold InitContract.Known; decide) mintCalls mintCalls_not_init _ rfl

end OriginDefi
