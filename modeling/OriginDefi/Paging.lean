import OriginDefi.Display
import OriginDefi.Lib.Machine

/-!
# Paging through the screens

The user pages forward and back; every page is a query, and all queries share the context.  `ui` is
the machine of these queries.

A screen depends on the context only through its selector, the tokens found, the beneficiary and
the arguments of the two calls of `amountToString` (`answer_congr`), and no query changes any of
these (`sameScreens_step`).  So a screen shows what it would have shown first
(`outputs_history_independent`).
-/

namespace OriginDefi

/-- What the host keeps fixed while it shows the screens of a transaction. -/
structure HostInputs where
  txContent : TxContent
  networkTicker : Ticker
  titleLength : ℕ
  msgLength : ℕ

/-- A query: the index of the screen, and what the host left in the two buffers. -/
structure UiQuery where
  screenIndex : UInt8
  title : CString
  msg : CString

/-- What a query produces: the title, the text and the result, and the calls of `amountToString`
it made. -/
structure UiAnswer where
  title : CString
  msg : CString
  result : Result
  amounts : List AmountCall

/-- The answer in a handled message. -/
def QueryContractUi.answer (m : QueryContractUi) : UiAnswer where
  title := m.title
  msg := m.msg
  result := m.result
  amounts := m.amounts

/-- The message of a query. -/
def uiMessage (host : HostInputs) (c : Context) (q : UiQuery) : QueryContractUi where
  txContent := host.txContent
  networkTicker := host.networkTicker
  context := c
  screenIndex := q.screenIndex
  title := q.title
  titleLength := host.titleLength
  msg := q.msg
  msgLength := host.msgLength
  result := .ok
  amounts := []

/-- The machine of the queries. -/
def ui (f : Formatter) (host : HostInputs) : Machine Context UiQuery UiAnswer where
  step c q := (queryContractUi f (uiMessage host c q)).context
  output c q := (queryContractUi f (uiMessage host c q)).answer

/-! ### The answer of one query -/

/-- The result that reaches the host when `amountToString` ended with an exception or without. -/
def resultOf : Option Exception → Result
  | some .code6502 | some .overflow => .error
  | some .other | none => .ok

section Answer

variable (f : Formatter) (host : HostInputs)

/-- A screen that shows an amount. -/
def amountAnswer (title : CString) (call : AmountCall) : UiAnswer :=
  let (text, thrown) :=
    f.amountToString call.amount call.amountSize call.decimals call.ticker host.msgLength
  { title := title, msg := text, result := resultOf thrown, amounts := [call] }

/-- The answer to a query in a context. -/
def answer (c : Context) (q : UiQuery) : UiAnswer :=
  let title := clearString q.title host.titleLength
  let msg := clearString q.msg host.msgLength
  match getScreen q.screenIndex c with
  | .send =>
    let title := strlcpy title c.selectorIndex.sendTitle.toList host.titleLength
    if c.selectorIndex = .unlisted then ⟨title, msg, .error, []⟩
    else amountAnswer f host title (sentCall host.networkTicker host.txContent c)
  | .receive =>
    let title := strlcpy title "Receive Min".toList host.titleLength
    if c.selectorIndex.receives then
      amountAnswer f host title (receivedCall host.networkTicker host.txContent c)
    else ⟨title, msg, .error, []⟩
  | .warn =>
    ⟨strlcpy title "WARNING".toList host.titleLength,
      strlcpy msg "Unknown token".toList host.msgLength, .ok, []⟩
  | .beneficiary =>
    ⟨strlcpy title "Beneficiary".toList host.titleLength,
      '0' :: 'x' :: f.getEthAddressStringFromBinary c.beneficiary 0, .ok, []⟩
  | .error => ⟨title, msg, .error, []⟩

/-- The context after a query. -/
def queried (c : Context) (q : UiQuery) : Context :=
  match getScreen q.screenIndex c with
  | .send => sendContext host.networkTicker host.txContent c
  | .receive => receiveContext host.networkTicker host.txContent c
  | _ => c

variable {f host}

theorem catchOther_showAmount (m : QueryContractUi) (call : AmountCall) (h : m.result = .ok) :
    (catchOther (m.showAmount f call)).context = m.context ∧
      (catchOther (m.showAmount f call)).answer =
        let (text, thrown) :=
          f.amountToString call.amount call.amountSize call.decimals call.ticker m.msgLength
        ⟨m.title, text, resultOf thrown, m.amounts ++ [call]⟩ := by
  unfold QueryContractUi.showAmount
  obtain ⟨text, thrown⟩ :=
    f.amountToString call.amount call.amountSize call.decimals call.ticker m.msgLength
  rcases thrown with _ | _ | _ | _ <;>
    simp [catchOther, handleQueryUiException, QueryContractUi.answer, resultOf, h]

/-- What a query produces and leaves behind. -/
theorem ui_step_output (c : Context) (q : UiQuery) :
    (ui f host).step c q = queried host c q ∧ (ui f host).output c q = answer f host c q := by
  simp only [ui, queryContractUi, handleQueryContractUi, uiMessage, queried, answer]
  cases getScreen q.screenIndex c
  case send =>
    simp only [setSendUi_eq]
    split_ifs with hs
    · exact ⟨rfl, rfl⟩
    · exact catchOther_showAmount _ _ rfl
  case receive =>
    simp only [setReceiveUi_eq]
    split_ifs with hs
    · exact catchOther_showAmount _ _ rfl
    · exact ⟨rfl, rfl⟩
  all_goals exact ⟨rfl, rfl⟩

end Answer

/-! ### History independence -/

/-- Two contexts that give the same screens. -/
structure SameScreens (host : HostInputs) (c c' : Context) : Prop where
  selector : c.selectorIndex = c'.selectorIndex
  tokensFound : c.tokensFound = c'.tokensFound
  beneficiary : c.beneficiary = c'.beneficiary
  sent : sentCall host.networkTicker host.txContent c =
    sentCall host.networkTicker host.txContent c'
  received : receivedCall host.networkTicker host.txContent c =
    receivedCall host.networkTicker host.txContent c'

section Paging

variable {f : Formatter} {host : HostInputs}

theorem getScreen_congr {c c' : Context} (hsel : c.selectorIndex = c'.selectorIndex)
    (hfound : c.tokensFound = c'.tokensFound) (s : UInt8) : getScreen s c = getScreen s c' := by
  simp only [getScreen, hsel, hfound]

/-- Such contexts answer every query alike. -/
theorem answer_congr {c c' : Context} (h : SameScreens host c c') (q : UiQuery) :
    answer f host c q = answer f host c' q := by
  simp only [answer, getScreen_congr h.selector h.tokensFound, h.selector, h.beneficiary, h.sent,
    h.received]

/-- A query changes nothing that a screen depends on. -/
theorem sameScreens_step (c : Context) (q : UiQuery) :
    SameScreens host ((ui f host).step c q) c := by
  rw [(ui_step_output c q).1, queried]
  split
  · exact ⟨rfl, rfl, rfl, sentCall_sendContext _ _ _, receivedCall_sendContext _ _ _⟩
  · exact ⟨rfl, rfl, rfl, sentCall_receiveContext _ _ _, receivedCall_receiveContext _ _ _⟩
  · exact ⟨rfl, rfl, rfl, rfl, rfl⟩

theorem SameScreens.trans {c c' c'' : Context} (h : SameScreens host c c')
    (h' : SameScreens host c' c'') : SameScreens host c c'' :=
  ⟨h.selector.trans h'.selector, h.tokensFound.trans h'.tokensFound,
    h.beneficiary.trans h'.beneficiary, h.sent.trans h'.sent, h.received.trans h'.received⟩

/-- No sequence of queries changes what a screen depends on. -/
theorem sameScreens_run (f : Formatter) (host : HostInputs) (c : Context) (qs : List UiQuery) :
    SameScreens host ((ui f host).run c qs) c :=
  Machine.run_invariant (I := fun d => SameScreens host d c)
    (fun d q hd => (sameScreens_step d q).trans hd) ⟨rfl, rfl, rfl, rfl, rfl⟩ qs

/-- Each answer of a sequence of queries is the one its query would have got first. -/
theorem outputs_eq_map (f : Formatter) (host : HostInputs) (c : Context) (qs : List UiQuery) :
    (ui f host).outputs c qs = qs.map ((ui f host).output c) := by
  refine Machine.outputs_eq_map (R := SameScreens host) ?_ ?_ ⟨rfl, rfl, rfl, rfl, rfl⟩ qs
  · intro d _ q hd
    exact (sameScreens_step d q).trans hd
  · intro d c' q hd
    rw [(ui_step_output d q).2, (ui_step_output c' q).2, answer_congr hd]

/-- With buffers that are not empty, what the host left in them does not matter. -/
theorem output_buffers (ht : 0 < host.titleLength) (hm : 0 < host.msgLength) (c : Context)
    (q : UiQuery) : (ui f host).output c q = (ui f host).output c ⟨q.screenIndex, [], []⟩ := by
  rw [(ui_step_output _ _).2, (ui_step_output _ _).2]
  simp only [answer, clearString, if_neg (by omega : ¬host.titleLength = 0),
    if_neg (by omega : ¬host.msgLength = 0)]

/-- **What a screen shows does not depend on the screens viewed before it**, nor, with buffers that
are not empty, on what the host left in them: only the indices of the queries matter. -/
theorem outputs_history_independent (f : Formatter) (host : HostInputs) (c : Context)
    (qs : List UiQuery) :
    (ui f host).outputs c qs = qs.map ((ui f host).output c) ∧
      (0 < host.titleLength → 0 < host.msgLength → ∀ qs' : List UiQuery,
        qs'.map UiQuery.screenIndex = qs.map UiQuery.screenIndex →
        (ui f host).outputs c qs' = (ui f host).outputs c qs) := by
  refine ⟨outputs_eq_map f host c qs, ?_⟩
  intro ht hm qs' hindices
  have houtput : (ui f host).output c =
      (fun s => (ui f host).output c ⟨s, [], []⟩) ∘ UiQuery.screenIndex :=
    funext (output_buffers ht hm c)
  rw [outputs_eq_map, outputs_eq_map, houtput, ← List.map_map, hindices, List.map_map]

end Paging

end OriginDefi
