import OriginDefi.ParserStates

/-!
# The route of `exchange_multiple`

The 23 words of a call are the nine addresses of the route, twelve swap parameters, the amount and
the expected value.  The plugin stores one route address after the other as the received token
until it meets a word whose last 20 bytes are zero; it counts the words in `counter` and then skips
`20 - counter` of them, which should bring it to the amount.

The run is cut into segments: `run_route` (the loop over non-zero words), `step_terminator`,
`run_amounts` (the skip and the two amounts).  `parsed_of_terminator` puts them together for a first
zero word at any index from 1 to 20, whatever the other words hold.

A route of four swaps fills all nine slots and the scan goes on into the swap parameters;
`exchangeMultiple_iff` says exactly when the plugin still records the call.
-/

namespace OriginDefi

variable {tx : TxContent}

/-- The word at an index of the stream, zero past its end. -/
def wordAt (ps : List ParamBuffer) (i : ℕ) : Word := (ps[i]?).elim 0 ParamBuffer.word

/-- Waiting for the next address of a route. -/
structure Context.ScansRoute (c : Context) : Prop where
  selector : c.selectorIndex = .curveRouterExchangeMultiple
  nextParam : c.nextParam = .tokenReceived
  skip : c.skip = 0

theorem tokenAddress_router (w : Word) :
    tokenAddress tx .curveRouterExchangeMultiple w = Abi.address w := rfl

/-- An address of the route becomes the received token. -/
theorem step_route {c : Context} (h : c.ScansRoute) {p : ParamBuffer}
    (hp : Abi.address p.word ≠ nullEthAddress) :
    (parser tx).step c p =
      { c with
        counter := c.counter + 1
        contractAddressReceived := Abi.address p.word } := by
  obtain ⟨hsel, hnext, hskip⟩ := h
  rw [step_handle hskip]
  simp [handleSelector, handleCurveRouterExchange, hsel, hnext, hp, tokenAddress_router]

/-- A zero word ends the route. -/
theorem step_terminator {c : Context} (h : c.ScansRoute) {p : ParamBuffer}
    (hp : Abi.address p.word = nullEthAddress) :
    (parser tx).step c p =
      { c with counter := 0, skip := 20 - (c.counter + 1), nextParam := .amountSent } := by
  obtain ⟨hsel, hnext, hskip⟩ := h
  rw [step_handle hskip]
  simp [handleSelector, handleCurveRouterExchange, hsel, hnext, hp, hskip]

/-- The loop over non-zero words: the counter counts them, the last one is the received token. -/
theorem run_route {c : Context} (h : c.ScansRoute) {ps : List ParamBuffer}
    (hps : ∀ p ∈ ps, Abi.address p.word ≠ nullEthAddress) :
    (parser tx).run c ps =
      { c with
        counter := c.counter + UInt8.ofNat ps.length
        contractAddressReceived :=
          (ps.getLast?).elim c.contractAddressReceived fun p => Abi.address p.word } := by
  induction ps generalizing c with
  | nil => simp
  | cons p ps ih =>
    have hone : UInt8.ofNat 1 = 1 := rfl
    have hscan : Context.ScansRoute
        { c with counter := c.counter + 1, contractAddressReceived := Abi.address p.word } :=
      ⟨h.selector, h.nextParam, h.skip⟩
    rw [Machine.run_cons, step_route h (hps p (by simp)), ih hscan fun q hq => hps q (by simp [hq])]
    simp only [List.length_cons, UInt8.ofNat_add, hone, Context.mk.injEq, true_and, and_true]
    refine ⟨?_, by grind⟩
    cases ps <;> simp [List.getLast?_cons]

/-- The amount, once the skipped words are over. -/
theorem step_router_amount (tx : TxContent) {c : Context}
    (hsel : c.selectorIndex = .curveRouterExchangeMultiple) (hnext : c.nextParam = .amountSent)
    (hskip : c.skip = 0) (p : ParamBuffer) :
    (parser tx).step c p =
      { c with amountSent := p.word, nextParam := .minAmountReceived } := by
  rw [step_handle hskip]
  simp [handleSelector, handleCurveRouterExchange, hsel, hnext]

/-- The expected value, the last word of a call. -/
theorem step_router_expected (tx : TxContent) {c : Context}
    (hsel : c.selectorIndex = .curveRouterExchangeMultiple)
    (hnext : c.nextParam = .minAmountReceived) (hskip : c.skip = 0) (p : ParamBuffer) :
    (parser tx).step c p = { c with minAmountReceived := p.word, nextParam := .none } := by
  rw [step_handle hskip]
  simp [handleSelector, handleCurveRouterExchange, hsel, hnext]

/-- From the end of the route on: the skipped words, then the amount and the expected value. -/
theorem run_amounts {c : Context} (hsel : c.selectorIndex = .curveRouterExchangeMultiple)
    (hnext : c.nextParam = .amountSent) {skipped rest : List ParamBuffer}
    {amount expected : ParamBuffer}
    (hskip : c.skip = UInt8.ofNat skipped.length) (hlen : skipped.length < 256) :
    (parser tx).run c (skipped ++ amount :: expected :: rest) =
      { c with
        skip := 0
        amountSent := amount.word
        minAmountReceived := expected.word
        nextParam := .none } := by
  have hamount := step_router_amount tx (c := { c with skip := 0 }) hsel hnext rfl amount
  have hexpected := step_router_expected tx
    (c := { c with skip := 0, amountSent := amount.word, nextParam := .minAmountReceived }) hsel rfl
    rfl expected
  rw [Machine.run_append, run_skip_all hskip hlen, Machine.run_cons, hamount, Machine.run_cons,
    hexpected]
  exact run_done rfl rfl rest

theorem wordAt_of_cut {ps before after : List ParamBuffer} {p : ParamBuffer} {n : ℕ}
    (hps : ps = before ++ p :: after) (hn : before.length = n) : wordAt ps n = p.word := by
  subst hps hn
  simp [wordAt]

/-- The words between the first one and a known index of the stream are not zero. -/
theorem route_ne_null {first : ParamBuffer} {route tail : List ParamBuffer}
    (h : ∀ i, 1 ≤ i → i < route.length + 1 →
      Abi.address (wordAt (first :: (route ++ tail)) i) ≠ nullEthAddress) :
    ∀ p ∈ route, Abi.address p.word ≠ nullEthAddress := by
  intro p hp
  obtain ⟨before, after, rfl⟩ := List.append_of_mem hp
  rw [List.length_append, List.length_cons] at h
  have hword : wordAt (first :: ((before ++ p :: after) ++ tail)) (before.length + 1) = p.word :=
    wordAt_of_cut (by simp : _ = (first :: before) ++ p :: (after ++ tail)) (by simp)
  rw [← hword]
  exact h _ (by omega) (by omega)

variable (t : Transaction)

theorem Transaction.start_router (h : t.selector = .curveRouterExchangeMultiple) :
    t.start = initialContext .curveRouterExchangeMultiple .tokenSent 0 := by
  obtain ⟨nextParam, skip, hparser, hstart⟩ := t.start_eq
  rw [h] at hparser hstart
  cases hparser
  exact hstart

/-- The first word of a route is the sent token. -/
theorem step_start_router (p : ParamBuffer) :
    (parser tx).step (initialContext .curveRouterExchangeMultiple .tokenSent 0) p =
      { initialContext .curveRouterExchangeMultiple .tokenReceived 0 with
        contractAddressSent := Abi.address p.word } := by
  rw [step_handle rfl]
  simp [handleSelector, handleCurveRouterExchange, initialContext, tokenAddress_router]

/-- The segments of a stream of at least 23 words whose route ends at index `k`. -/
theorem exists_router_segments {ps : List ParamBuffer} {k : ℕ} (hk1 : 1 ≤ k) (hk : k ≤ 20)
    (hlen : 23 ≤ ps.length) : ∃ first route z skipped amount expected rest,
      ps = first :: (route ++ z :: (skipped ++ amount :: expected :: rest)) ∧
      route.length = k - 1 ∧ skipped.length = 20 - k := by
  obtain _ | ⟨first, tail⟩ := ps
  · simp at hlen
  obtain ⟨route, z, tail, rfl, hroute⟩ := Machine.exists_cut tail (n := k - 1) (by
    simp only [List.length_cons] at hlen
    omega)
  obtain ⟨skipped, amount, tail, rfl, hskipped⟩ := Machine.exists_cut tail (n := 20 - k) (by
    simp only [List.length_cons, List.length_append] at hlen
    omega)
  obtain _ | ⟨expected, rest⟩ := tail
  · simp only [List.length_cons, List.length_append, List.length_nil] at hlen
    omega
  · exact ⟨first, route, z, skipped, amount, expected, rest, rfl, hroute, hskipped⟩

/-- The run over these segments. -/
theorem run_router_segments {first z amount expected : ParamBuffer}
    {route skipped rest : List ParamBuffer}
    (hroute : ∀ p ∈ route, Abi.address p.word ≠ nullEthAddress)
    (hz : Abi.address z.word = nullEthAddress) (hlen : route.length + skipped.length = 19) :
    (parser tx).run (initialContext .curveRouterExchangeMultiple .tokenSent 0)
        (first :: (route ++ z :: (skipped ++ amount :: expected :: rest))) =
      { initialContext .curveRouterExchangeMultiple .none 0 with
        contractAddressSent := Abi.address first.word
        contractAddressReceived :=
          (route.getLast?).elim nullEthAddress fun p => Abi.address p.word
        amountSent := amount.word
        minAmountReceived := expected.word } := by
  -- `counter` is `route.length`, so the terminator skips `19 - route.length` words
  have hskip : 20 - (0 + UInt8.ofNat route.length + 1) = UInt8.ofNat skipped.length := by
    have hsum : UInt8.ofNat route.length + UInt8.ofNat skipped.length = 19 := by
      rw [← UInt8.ofNat_add, hlen]
      rfl
    grind
  rw [Machine.run_cons, step_start_router, Machine.run_append, run_route ⟨rfl, rfl, rfl⟩ hroute,
    Machine.run_cons, step_terminator ⟨rfl, rfl, rfl⟩ hz,
    run_amounts rfl rfl hskip (by omega)]
  rfl

/-- **The route scan keeps the amounts aligned**: wherever between 1 and 20 the first zero word
stands, the amounts are words 21 and 22. -/
theorem parsed_of_terminator (h : t.selector = .curveRouterExchangeMultiple) {ps : List ParamBuffer}
    {k : ℕ} (hk1 : 1 ≤ k) (hk : k ≤ 20) (hlen : 23 ≤ ps.length)
    (hzero : Abi.address (wordAt ps k) = nullEthAddress)
    (hroute : ∀ i, 1 ≤ i → i < k → Abi.address (wordAt ps i) ≠ nullEthAddress) :
    t.parsed ps =
      { initialContext .curveRouterExchangeMultiple .none 0 with
        contractAddressSent := Abi.address (wordAt ps 0)
        contractAddressReceived :=
          if k = 1 then nullEthAddress else Abi.address (wordAt ps (k - 1))
        amountSent := wordAt ps 21
        minAmountReceived := wordAt ps 22 } := by
  obtain ⟨first, route, z, skipped, amount, expected, rest, hps, hrlen, hslen⟩ :=
    exists_router_segments hk1 hk hlen
  have hfirst : wordAt ps 0 = first.word := by rw [hps]; rfl
  have hz : wordAt ps k = z.word :=
    wordAt_of_cut (by rw [hps]; rfl : ps = (first :: route) ++ z ::
      (skipped ++ amount :: expected :: rest))
      (by simp; omega)
  have hamount : wordAt ps 21 = amount.word :=
    wordAt_of_cut
      (by simp [hps] : ps = (first :: (route ++ z :: skipped)) ++ amount :: expected :: rest)
      (by simp; omega)
  have hexpected : wordAt ps 22 = expected.word :=
    wordAt_of_cut
      (by simp [hps] : ps = (first :: (route ++ z :: (skipped ++ [amount]))) ++ expected :: rest)
      (by simp; omega)
  have hmem : ∀ p ∈ route, Abi.address p.word ≠ nullEthAddress := by
    rw [hps] at hroute
    exact route_ne_null fun i hi1 hi => hroute i hi1 (by omega)
  have hlast : (if k = 1 then nullEthAddress else Abi.address (wordAt ps (k - 1))) =
      (route.getLast?).elim nullEthAddress fun p => Abi.address p.word := by
    rcases List.eq_nil_or_concat' route with rfl | ⟨init, p, rfl⟩
    · rw [if_pos (by simp at hrlen; omega)]
      rfl
    · rw [List.length_append, List.length_singleton] at hrlen
      have hword : wordAt ps (k - 1) = p.word :=
        wordAt_of_cut (by simp [hps] : ps = (first :: init) ++ p ::
          (z :: (skipped ++ amount :: expected :: rest))) (by simp; omega)
      rw [if_neg (by omega), hword]
      simp
  rw [hz] at hzero
  rw [hfirst, hamount, hexpected, hlast, Transaction.parsed, t.start_router h, hps,
    run_router_segments hmem hzero (by omega)]

/-- **The amounts stay aligned and nothing else matters**: every field after the run, the results of
the calls, and that the words strictly between `k` and 21 and those after 22 have no influence. -/
theorem route_scan_aligned (h : t.selector = .curveRouterExchangeMultiple) {ps : List ParamBuffer}
    {k : ℕ} (hk1 : 1 ≤ k) (hk : k ≤ 20) (hlen : 23 ≤ ps.length)
    (hzero : Abi.address (wordAt ps k) = nullEthAddress)
    (hroute : ∀ i, 1 ≤ i → i < k → Abi.address (wordAt ps i) ≠ nullEthAddress) :
    let c := t.parsed ps
    c.amountSent = wordAt ps 21 ∧ c.minAmountReceived = wordAt ps 22 ∧
      c.contractAddressSent = Abi.address (wordAt ps 0) ∧
      (2 ≤ k → c.contractAddressReceived = Abi.address (wordAt ps (k - 1))) ∧
      (k = 1 → c.contractAddressReceived = nullEthAddress) ∧
      c.skip = 0 ∧ c.counter = 0 ∧ c.nextParam = .none ∧
      (∀ call ∈ t.calls ps, call.result = .ok) ∧
      ∀ ps' : List ParamBuffer, 23 ≤ ps'.length → (∀ i ≤ k, wordAt ps' i = wordAt ps i) →
        wordAt ps' 21 = wordAt ps 21 → wordAt ps' 22 = wordAt ps 22 → t.parsed ps' = c := by
  have hparsed := parsed_of_terminator t h hk1 hk hlen hzero hroute
  dsimp only
  refine ⟨?_, ?_, ?_, fun hk2 => ?_, fun hk1 => ?_, ?_, ?_, ?_, t.calls_ok ps, ?_⟩
  case refine_9 =>
    intro ps' hlen' hsame h21 h22
    have hzero' : Abi.address (wordAt ps' k) = nullEthAddress := by
      rw [hsame k le_rfl]
      exact hzero
    have hroute' : ∀ i, 1 ≤ i → i < k → Abi.address (wordAt ps' i) ≠ nullEthAddress := by
      intro i hi1 hi
      rw [hsame i hi.le]
      exact hroute i hi1 hi
    rw [parsed_of_terminator t h hk1 hk hlen' hzero' hroute', hparsed, hsame 0 (by omega),
      hsame (k - 1) (by omega), h21, h22]
  all_goals rw [hparsed]
  case refine_4 => exact if_neg (by omega)
  case refine_5 => exact if_pos hk1
  all_goals rfl

/-- A call to the Curve router. -/
def routerTransaction : Transaction where
  init := .plain ![0x35, 0x3c, 0xa4, 0x24] nullEthAddress
  accepted := by decide

/-- Words 0, 1, 2, 0, 1, 2 and so on: the route ends at word 3. -/
def roundWords : List ParamBuffer := (List.range 23).map fun i => .ofNat (i % 3)

theorem route_scan_aligned_round :
    (routerTransaction.parsed roundWords).amountSent = Bytes.ofNat 32 0 ∧
      (routerTransaction.parsed roundWords).minAmountReceived = Bytes.ofNat 32 1 ∧
      (routerTransaction.parsed roundWords).contractAddressReceived =
        Abi.address (Bytes.ofNat 32 2) := by
  have hroute : ∀ i, 1 ≤ i → i < 3 → Abi.address (wordAt roundWords i) ≠ nullEthAddress := by
    intro i hi1 hi
    obtain rfl | rfl : i = 1 ∨ i = 2 := by omega
    all_goals decide
  obtain ⟨hamount, hminimum, -, hreceived, -⟩ := route_scan_aligned routerTransaction (by decide)
    (k := 3) (by decide) (by decide) (by decide) (by decide) hroute
  exact ⟨hamount, hminimum, hreceived (by decide)⟩

/-- Without a zero word up to index 20, the 23 words of a call leave the parser waiting. -/
theorem parsed_unterminated (h : t.selector = .curveRouterExchangeMultiple) {ps : List ParamBuffer}
    (hlen : ps.length = 23)
    (hroute : ∀ i, 1 ≤ i → i ≤ 20 → Abi.address (wordAt ps i) ≠ nullEthAddress) :
    (t.parsed ps).nextParam ≠ .none := by
  obtain ⟨route, p, tail, hps, hrlen⟩ := Machine.exists_cut ps (n := 21) (by omega)
  obtain ⟨q, rfl⟩ : ∃ q, tail = [q] := by
    rw [← List.length_eq_one_iff]
    simp only [hps, List.length_append, List.length_cons] at hlen
    omega
  obtain _ | ⟨first, route⟩ := route
  · simp at hrlen
  rw [List.length_cons] at hrlen
  rw [List.cons_append] at hps
  have hmem : ∀ p ∈ route, Abi.address p.word ≠ nullEthAddress := by
    rw [hps] at hroute
    exact route_ne_null fun i hi1 hi => hroute i hi1 (by omega)
  rw [Transaction.parsed, t.start_router h, hps, Machine.run_cons,
    step_start_router, Machine.run_append, run_route ⟨rfl, rfl, rfl⟩ hmem, Machine.run_cons]
  by_cases hp : Abi.address p.word = nullEthAddress
  · -- the amount ends the route: `20 - 21` wraps to 255 words to skip
    have hskip : 20 - (0 + UInt8.ofNat route.length + 1) ≠ 0 := by
      rw [show route.length = 20 by omega]
      decide
    rw [step_terminator ⟨rfl, rfl, rfl⟩ hp, Machine.run_cons, step_skip hskip]
    simp
  · rw [step_route ⟨rfl, rfl, rfl⟩ hp, Machine.run_cons]
    by_cases hq : Abi.address q.word = nullEthAddress
    · rw [step_terminator ⟨rfl, rfl, rfl⟩ hq]
      simp
    · rw [step_route ⟨rfl, rfl, rfl⟩ hq]
      simp [initialContext]

/-! ### Calls in their ABI encoding -/

/-- The words of `exchange_multiple(_route, _swap_params, _amount, _expected)`. -/
def exchangeMultipleCall (route : Fin 9 → Address) (swapParams : Fin 12 → Word)
    (amount expected : Word) : List Word :=
  List.ofFn (fun i => Abi.addressWord (route i)) ++ List.ofFn swapParams ++ [amount, expected]

/-- A route of `m` swaps: `2m + 1` addresses that are not zero, then zeros. -/
def IsRoute (m : ℕ) (route : Fin 9 → Address) : Prop :=
  ∀ i : Fin 9, route i ≠ nullEthAddress ↔ i.val ≤ 2 * m

section ExchangeMultiple

variable {route : Fin 9 → Address} {swapParams : Fin 12 → Word} {amount expected : Word}
variable {ps : List ParamBuffer}

theorem wordAt_eq_map (ps : List ParamBuffer) (i : ℕ) :
    wordAt ps i = ((ps.map ParamBuffer.word)[i]?).getD 0 := by
  rw [wordAt, List.getElem?_map]
  cases ps[i]? <;> rfl

theorem wordAt_route
    (hps : ps.map ParamBuffer.word = exchangeMultipleCall route swapParams amount expected)
    (i : Fin 9) : wordAt ps i = Abi.addressWord (route i) := by
  rw [wordAt_eq_map, hps, exchangeMultipleCall, List.append_assoc,
    List.getElem?_append_left (by rw [List.length_ofFn]; exact i.isLt), List.getElem?_ofFn,
    dif_pos i.isLt]
  rfl

theorem wordAt_swapParams
    (hps : ps.map ParamBuffer.word = exchangeMultipleCall route swapParams amount expected)
    (i : Fin 12) : wordAt ps (9 + i) = swapParams i := by
  rw [wordAt_eq_map, hps, exchangeMultipleCall, List.append_assoc,
    List.getElem?_append_right (by rw [List.length_ofFn]; omega), List.length_ofFn,
    Nat.add_sub_cancel_left, List.getElem?_append_left (by rw [List.length_ofFn]; exact i.isLt),
    List.getElem?_ofFn, dif_pos i.isLt]
  rfl

theorem wordAt_amounts
    (hps : ps.map ParamBuffer.word = exchangeMultipleCall route swapParams amount expected) :
    wordAt ps 21 = amount ∧ wordAt ps 22 = expected := by
  rw [wordAt_eq_map, wordAt_eq_map, hps, exchangeMultipleCall,
    List.getElem?_append_right (by simp), List.getElem?_append_right (by simp)]
  simp

theorem length_of_call
    (hps : ps.map ParamBuffer.word = exchangeMultipleCall route swapParams amount expected) :
    ps.length = 23 := by
  have := congrArg List.length hps
  simpa [exchangeMultipleCall] using this

/-- What a stream of the call should leave behind. -/
def RecordsExchange (t : Transaction) (ps : List ParamBuffer) (tokenSent tokenReceived : Address)
    (amount expected : Word) : Prop :=
  (t.parsed ps).contractAddressSent = tokenSent ∧
    (t.parsed ps).contractAddressReceived = tokenReceived ∧
    (t.parsed ps).amountSent = amount ∧ (t.parsed ps).minAmountReceived = expected ∧
    (t.parsed ps).nextParam = .none

/-- The scan of a route of `m` swaps stops at its last address.  A route of four swaps has no zero
slot of its own: the first swap parameter with 20 zero bytes at its end stops the scan, and the
word before it must hold the last address of the route. -/
def RouteStops (m : ℕ) (route : Fin 9 → Address) (swapParams : Fin 12 → Word) : Prop :=
  m ≤ 3 ∨ ∃ k : Fin 12, Abi.address (swapParams k) = nullEthAddress ∧
    (∀ j < k, Abi.address (swapParams j) ≠ nullEthAddress) ∧
    ∀ j : Fin 12, j.val + 1 = k.val → Abi.address (swapParams j) = route 8

/-- A scan that stops at index `k` records the call if and only if the word before is its last
address. -/
theorem recordsExchange_of_terminator (t : Transaction)
    (h : t.selector = .curveRouterExchangeMultiple)
    (hps : ps.map ParamBuffer.word = exchangeMultipleCall route swapParams amount expected)
    {k : ℕ} (hk1 : 2 ≤ k) (hk : k ≤ 20) (hzero : Abi.address (wordAt ps k) = nullEthAddress)
    (hroute : ∀ i, 1 ≤ i → i < k → Abi.address (wordAt ps i) ≠ nullEthAddress) (last : Address) :
    RecordsExchange t ps (route 0) last amount expected ↔
      Abi.address (wordAt ps (k - 1)) = last := by
  obtain ⟨hamount, hexpected⟩ := wordAt_amounts hps
  have hfirst : wordAt ps 0 = Abi.addressWord (route 0) := wordAt_route hps 0
  rw [RecordsExchange, parsed_of_terminator t h (by omega) hk (by rw [length_of_call hps]) hzero
    hroute, if_neg (by omega : k ≠ 1), hamount, hexpected, hfirst]
  simp [initialContext]

/-- A route of up to three swaps has a zero slot after its last address. -/
theorem recordsExchange_three (t : Transaction) (h : t.selector = .curveRouterExchangeMultiple)
    {m : ℕ} (hm1 : 1 ≤ m) (hm : m ≤ 3) (hvalid : IsRoute m route)
    (hps : ps.map ParamBuffer.word = exchangeMultipleCall route swapParams amount expected) :
    RecordsExchange t ps (route 0) (route ⟨2 * m, by omega⟩) amount expected := by
  have hword : ∀ i : Fin 9, Abi.address (wordAt ps i) = route i := by
    intro i
    rw [wordAt_route hps, Abi.address_addressWord]
  have hzero : Abi.address (wordAt ps (2 * m + 1)) = nullEthAddress := by
    rw [hword ⟨2 * m + 1, by omega⟩]
    by_contra hne
    exact absurd ((hvalid _).1 hne) (by simp)
  have hroute : ∀ i, 1 ≤ i → i < 2 * m + 1 → Abi.address (wordAt ps i) ≠ nullEthAddress := by
    intro i _ hi
    rw [hword ⟨i, by omega⟩]
    exact (hvalid _).2 (by simp; omega)
  rw [recordsExchange_of_terminator t h hps (by omega) (by omega) hzero hroute]
  exact hword ⟨2 * m, by omega⟩

/-- On a route of four swaps the scan goes on as long as the swap parameters are not zero. -/
theorem fullRoute_ne_null (hvalid : IsRoute 4 route)
    (hps : ps.map ParamBuffer.word = exchangeMultipleCall route swapParams amount expected)
    {n : ℕ} (hn : n ≤ 12)
    (hparams : ∀ j : Fin 12, j.val < n → Abi.address (swapParams j) ≠ nullEthAddress) :
    ∀ i, 1 ≤ i → i < 9 + n → Abi.address (wordAt ps i) ≠ nullEthAddress := by
  intro i _ hi
  by_cases hi9 : i < 9
  · have hword : wordAt ps i = _ := wordAt_route hps ⟨i, hi9⟩
    rw [hword, Abi.address_addressWord]
    exact (hvalid _).2 (by simp; omega)
  · have hword := wordAt_swapParams hps ⟨i - 9, by omega⟩
    simp only [show 9 + (i - 9) = i by omega] at hword
    rw [hword]
    exact hparams _ (by simp; omega)

/-- On a route of four swaps that stops at a swap parameter, the word before is taken for the
received token. -/
theorem recordsExchange_of_stop (t : Transaction) (h : t.selector = .curveRouterExchangeMultiple)
    (hvalid : IsRoute 4 route)
    (hps : ps.map ParamBuffer.word = exchangeMultipleCall route swapParams amount expected)
    {k : Fin 12} (hzero : Abi.address (swapParams k) = nullEthAddress)
    (hfirst : ∀ j < k, Abi.address (swapParams j) ≠ nullEthAddress) :
    RecordsExchange t ps (route 0) (route 8) amount expected ↔
      ∀ j : Fin 12, j.val + 1 = k.val → Abi.address (swapParams j) = route 8 := by
  have hparam : ∀ j : Fin 12, wordAt ps (9 + j) = swapParams j := wordAt_swapParams hps
  have hlt := k.isLt
  rw [recordsExchange_of_terminator t h hps (k := 9 + k.val) (by omega) (by omega)
    (by rw [hparam]; exact hzero) (fullRoute_ne_null hvalid hps hlt.le hfirst)]
  constructor
  · intro hlast j hj
    rw [← hparam, show 9 + j.val = 9 + k.val - 1 by omega]
    exact hlast
  · intro hlast
    by_cases hk0 : k.val = 0
    · have hword : wordAt ps 8 = _ := wordAt_route hps 8
      rw [hk0, hword, Abi.address_addressWord]
    · have hbefore := hlast ⟨k.val - 1, by omega⟩ (by simp; omega)
      rw [← hparam] at hbefore
      rw [show 9 + k.val - 1 = 9 + (k.val - 1) by omega]
      exact hbefore

/-- **When the plugin records an `exchange_multiple` call**: exactly when the scan stops at the
last address of the route. -/
theorem exchangeMultiple_iff (t : Transaction) (h : t.selector = .curveRouterExchangeMultiple)
    {m : ℕ} (hm1 : 1 ≤ m) (hm : m ≤ 4) (hvalid : IsRoute m route)
    (hps : ps.map ParamBuffer.word = exchangeMultipleCall route swapParams amount expected) :
    RecordsExchange t ps (route 0) (route ⟨2 * m, by omega⟩) amount expected ↔
      RouteStops m route swapParams := by
  by_cases hm3 : m ≤ 3
  · exact iff_of_true (recordsExchange_three t h hm1 hm3 hvalid hps) (Or.inl hm3)
  obtain rfl : m = 4 := by omega
  rw [RouteStops, or_iff_right hm3]
  by_cases hall : ∀ j, Abi.address (swapParams j) ≠ nullEthAddress
  · -- no swap parameter stops the scan
    have hroute := fullRoute_ne_null hvalid hps le_rfl fun j _ => hall j
    have hnone := parsed_unterminated t h (length_of_call hps) fun i hi1 hi =>
      hroute i hi1 (by omega)
    constructor
    · rintro ⟨-, -, -, -, hdone⟩
      exact absurd hdone hnone
    · rintro ⟨k, hzero, -⟩
      exact absurd hzero (hall k)
  · push Not at hall
    obtain ⟨k, hzero, hfirst⟩ := wellFounded_lt.has_min
      {k : Fin 12 | Abi.address (swapParams k) = nullEthAddress} hall
    have hfirst : ∀ j < k, Abi.address (swapParams j) ≠ nullEthAddress := by
      intro j hj hj0
      exact hfirst j hj0 hj
    have hiff := recordsExchange_of_stop t h hvalid hps hzero hfirst
    constructor
    · intro hrec
      exact ⟨k, hzero, hfirst, hiff.1 hrec⟩
    · rintro ⟨k', hzero', hfirst', hlast⟩
      obtain rfl : k' = k := by
        rcases lt_trichotomy k' k with hlt | heq | hlt
        · exact absurd hzero' (hfirst k' hlt)
        · exact heq
        · exact absurd hzero (hfirst' k hlt)
      exact hiff.2 hlast

end ExchangeMultiple

/-! ### A call of one swap and a call of four -/

/-- A route of `m` swaps through tokens and pools at the addresses 1, 2, 3 and so on. -/
def countingRoute (m : ℕ) : Fin 9 → Address := fun i =>
  if i.val ≤ 2 * m then Bytes.ofNat addressLength (i.val + 1) else nullEthAddress

theorem exchangeMultiple_iff_one :
    RecordsExchange routerTransaction
        (zeroPadded (exchangeMultipleCall (countingRoute 1) (fun _ => 0) (Bytes.ofNat 32 5)
          (Bytes.ofNat 32 6)))
        (countingRoute 1 0) (countingRoute 1 2) (Bytes.ofNat 32 5) (Bytes.ofNat 32 6) ↔
      RouteStops 1 (countingRoute 1) (fun _ => 0) :=
  exchangeMultiple_iff routerTransaction (by decide) (m := 1) (by decide) (by decide)
    (by unfold IsRoute; decide) (map_word_zeroPadded _)

/-- The swap parameters 1, 0, ..., 0. -/
def leadingSwapParam : Fin 12 → Word := fun i => if i = 0 then Bytes.ofNat 32 1 else 0

/-- A call of four swaps with these swap parameters. -/
def fourSwaps : List ParamBuffer :=
  zeroPadded (exchangeMultipleCall (countingRoute 4) leadingSwapParam (Bytes.ofNat 32 5)
    (Bytes.ofNat 32 6))

/-- On a route of four swaps the received token is overwritten by the first swap parameter. -/
theorem exchangeMultiple_four_swaps : IsRoute 4 (countingRoute 4) ∧
    ¬RecordsExchange routerTransaction fourSwaps (countingRoute 4 0) (countingRoute 4 8)
      (Bytes.ofNat 32 5) (Bytes.ofNat 32 6) := by
  have hvalid : IsRoute 4 (countingRoute 4) := by unfold IsRoute; decide
  have hps := map_word_zeroPadded (exchangeMultipleCall (countingRoute 4) leadingSwapParam
    (Bytes.ofNat 32 5) (Bytes.ofNat 32 6))
  have hiff := recordsExchange_of_stop routerTransaction (by decide) hvalid hps
    (show Abi.address (leadingSwapParam 1) = nullEthAddress by decide) (by decide)
  refine ⟨hvalid, ?_⟩
  intro hrec
  have hlast : Abi.address (leadingSwapParam 0) = countingRoute 4 8 := hiff.1 hrec 0 rfl
  exact absurd hlast (by decide)

end OriginDefi
