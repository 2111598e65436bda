import OriginDefi.ExactInput
import OriginDefi.FixedLayout
import OriginDefi.RouteScan
import OriginDefi.Session

/-!
# What has been read when the screens are shown

Neither the parser nor `handle_finalize` checks that the calldata is complete.  `FullyRead` says of
a context that the parser waits for none of the fields that the screens show, and
`fullyRead_iff` says for every list of words when this is so (`WordsSuffice`): for a fixed layout
when the list reaches its last word, for `exchange_multiple` when it reaches two words beyond the
ones that the end of the route tells the parser to skip, for `exactInput` when it reaches the last
word of the received token.
-/

namespace OriginDefi

/-- The states that a parser in state `nextParam` has still to go through. -/
def Selector.unread (s : Selector) (nextParam : Parameter) : List Parameter :=
  s.expects.dropWhile (· ≠ nextParam)

/-- The fields that the screens of a selector show.  The received token of `exactInput` may have a
rest in a second word, and the beneficiary has a screen only if it is somebody else. -/
def Selector.shownFields (s : Selector) (rest elsewhere : Bool) : List Parameter :=
  match s with
  | .zapperDepositEth | .unlisted => []
  | .zapperDepositSfrxeth | .vaultRedeem => [.amountSent, .minAmountReceived]
  | .vaultMint => [.tokenSent, .amountSent, .minAmountReceived]
  | .curvePoolExchange | .curvePoolExchangeUnderlying | .curveRouterExchangeMultiple =>
    [.tokenSent, .tokenReceived, .amountSent, .minAmountReceived]
  | .uniswapRouterExactInput =>
    [.tokenSent, .tokenReceived, .amountSent, .minAmountReceived] ++
      (if rest then [.tokenReceivedRest] else []) ++ (if elsewhere then [.beneficiary] else [])
  | .uniswapRouterExactInputSingle =>
    [.tokenSent, .tokenReceived, .amountSent, .minAmountReceived] ++
      (if elsewhere then [.beneficiary] else [])
  | .flipperBuyOusdWithUsdt | .flipperSellOusdForUsdt | .flipperBuyOusdWithDai
  | .flipperSellOusdForDai | .flipperBuyOusdWithUsdc | .flipperSellOusdForUsdc => [.amountSent]
  | .wrap | .unwrap => [.amountSent] ++ (if elsewhere then [.beneficiary] else [])

/-- A parser in state `nextParam` waits for none of the fields that are shown. -/
def Selector.ReadBy (s : Selector) (rest elsewhere : Bool) (nextParam : Parameter) : Prop :=
  ∀ p ∈ s.shownFields rest elsewhere, p ∉ s.unread nextParam

instance (s : Selector) (rest elsewhere : Bool) (nextParam : Parameter) :
    Decidable (s.ReadBy rest elsewhere nextParam) := by
  unfold Selector.ReadBy
  infer_instance

/-- Every field that the planned screens show has been read. -/
def Context.FullyRead (c : Context) (user : Address) : Prop :=
  c.selectorIndex.ReadBy (12 < pathRemainder c.offset) (c.beneficiary ≠ user) c.nextParam

/-! ### Which states have read everything -/

theorem readBy_fixed {s : Selector} (hfixed : s.isFixed) (hwrap : s.isWrap = false)
    (rest elsewhere : Bool) (n : ℕ) :
    s.ReadBy rest elsewhere (awaited (s.layout.drop n)).1 ↔ s.layout.length ≤ n := by
  have hdrop : s.layout.drop n = s.layout.drop (min n 7) := by
    by_cases hn : n ≤ 7
    · rw [Nat.min_eq_left hn]
    · have := s.layout_length_le
      rw [List.drop_of_length_le (by omega), List.drop_of_length_le (by omega)]
  have hmin : s.layout.length ≤ n ↔ s.layout.length ≤ min n 7 := by
    have := s.layout_length_le
    omega
  rw [hdrop, hmin]
  have hlt : min n 7 < 8 := by omega
  generalize min n 7 = m at hlt
  revert m rest elsewhere
  cases s
  case curveRouterExchangeMultiple | uniswapRouterExactInput => cases hfixed
  case wrap | unwrap => cases hwrap
  all_goals decide

theorem isFixed_of_isWrap {s : Selector} (h : s.isWrap) : s.isFixed := by
  cases s
  case wrap | unwrap => rfl
  all_goals cases h

theorem readBy_wrap {s : Selector} (hwrap : s.isWrap) (rest elsewhere : Bool) (n : ℕ) :
    s.ReadBy rest elsewhere (awaited (s.layout.drop n)).1 ↔
      1 ≤ n ∧ (2 ≤ n ∨ elsewhere = false) := by
  have hcases : ∀ m < 3, ∀ rest elsewhere : Bool,
      s.ReadBy rest elsewhere (awaited (s.layout.drop m)).1 ↔
        1 ≤ m ∧ (2 ≤ m ∨ elsewhere = false) := by
    cases s
    case wrap | unwrap => decide
    all_goals cases hwrap
  by_cases hn : n < 3
  · exact hcases n hn rest elsewhere
  · have hlength : s.layout.length ≤ 2 := by
      cases s
      case wrap | unwrap => decide
      all_goals cases hwrap
    rw [List.drop_of_length_le (by omega), ← List.drop_of_length_le hlength,
      hcases 2 (by omega)]
    omega

theorem readBy_router (rest elsewhere : Bool) {nextParam : Parameter}
    (h : nextParam ∈ Selector.curveRouterExchangeMultiple.expects) :
    Selector.curveRouterExchangeMultiple.ReadBy rest elsewhere nextParam ↔ nextParam = .none := by
  revert rest elsewhere nextParam
  decide

theorem readBy_exactInput (rest elsewhere : Bool) {nextParam : Parameter}
    (h : nextParam ∈ Selector.uniswapRouterExactInput.expects) :
    Selector.uniswapRouterExactInput.ReadBy rest elsewhere nextParam ↔
      nextParam = .none ∨ nextParam = .tokenReceivedRest ∧ rest = false := by
  revert rest elsewhere nextParam
  decide

/-! ### The route of `exchange_multiple` -/

/-- The words after the end of a route reach the expected value if there are two of them beyond the
skipped ones. -/
theorem amounts_done_iff {tx : TxContent} {c : Context}
    (hsel : c.selectorIndex = .curveRouterExchangeMultiple) (hnext : c.nextParam = .amountSent)
    (ps : List ParamBuffer) :
    ((parser tx).run c ps).nextParam = .none ↔ c.skip.toNat + 2 ≤ ps.length := by
  by_cases hlen : ps.length ≤ c.skip.toNat
  · -- the stream ends inside the skipped words
    rw [run_skip hlen]
    simp only [hnext, reduceCtorEq, false_iff]
    omega
  obtain ⟨skipped, amount, tail, rfl, hskipped⟩ :=
    Machine.exists_cut ps (n := c.skip.toNat) (by omega)
  have hskip : c.skip = UInt8.ofNat skipped.length := by rw [hskipped, UInt8.ofNat_toNat]
  have hlt : skipped.length < 256 := hskipped ▸ c.skip.toNat_lt
  simp only [List.length_append, List.length_cons, hskipped]
  obtain _ | ⟨expected, rest⟩ := tail
  · -- the stream ends with the amount
    have hamount := step_router_amount tx (c := { c with skip := 0 }) hsel hnext rfl amount
    rw [Machine.run_append, run_skip_all hskip hlt, Machine.run_cons, hamount]
    simp
  · rw [run_amounts hsel hnext hskip hlt]
    simp only [List.length_cons, true_iff]
    omega

/-- The route ends at an index `k`, and the words reach the expected value after it: `20 - k` words
are skipped, counted in eight bits. -/
def RouteEnds (ps : List ParamBuffer) : Prop :=
  ∃ k, 1 ≤ k ∧ k < ps.length ∧ Abi.address (wordAt ps k) = nullEthAddress ∧
    (∀ i, 1 ≤ i → i < k → Abi.address (wordAt ps i) ≠ nullEthAddress) ∧
    k + 3 + (20 - UInt8.ofNat k).toNat ≤ ps.length

/-- A list whose first zero word after word 0 is `z`. -/
theorem routeEnds_cut (first : ParamBuffer) {z : ParamBuffer} {route rest : List ParamBuffer}
    (hroute : ∀ p ∈ route, Abi.address p.word ≠ nullEthAddress)
    (hz : Abi.address z.word = nullEthAddress) :
    RouteEnds (first :: (route ++ z :: rest)) ↔
      (20 - UInt8.ofNat (route.length + 1)).toNat + 2 ≤ rest.length := by
  have hword : wordAt (first :: (route ++ z :: rest)) (route.length + 1) = z.word :=
    wordAt_of_cut (by simp : _ = (first :: route) ++ z :: rest) (by simp)
  have hbetween : ∀ i, 1 ≤ i → i < route.length + 1 →
      Abi.address (wordAt (first :: (route ++ z :: rest)) i) ≠ nullEthAddress := by
    intro i hi1 hi
    obtain ⟨i, rfl⟩ : ∃ i', i = i' + 1 := ⟨i - 1, by omega⟩
    rw [wordAt, List.getElem?_cons_succ, List.getElem?_append_left (by omega),
      List.getElem?_eq_getElem (by omega)]
    exact hroute _ (List.getElem_mem _)
  constructor
  · rintro ⟨k, hk1, -, hzero, hnonzero, hlen⟩
    -- the first zero word is `z`
    obtain rfl : k = route.length + 1 := by
      rcases lt_trichotomy k (route.length + 1) with hlt | heq | hgt
      · exact absurd hzero (hbetween k hk1 hlt)
      · exact heq
      · exact absurd (by rw [hword]; exact hz) (hnonzero _ (by omega) hgt)
    simp only [List.length_cons, List.length_append] at hlen
    omega
  · intro hlen
    refine ⟨route.length + 1, by omega, by simp, by rw [hword]; exact hz, hbetween, ?_⟩
    simp only [List.length_cons, List.length_append]
    omega

/-- A list without a zero word after word 0. -/
theorem not_routeEnds (first : ParamBuffer) {tail : List ParamBuffer}
    (hroute : ∀ p ∈ tail, Abi.address p.word ≠ nullEthAddress) : ¬RouteEnds (first :: tail) := by
  rintro ⟨k, hk1, hk, hzero, -⟩
  obtain ⟨k, rfl⟩ : ∃ k', k = k' + 1 := ⟨k - 1, by omega⟩
  rw [List.length_cons] at hk
  rw [wordAt, List.getElem?_cons_succ, List.getElem?_eq_getElem (by omega)] at hzero
  exact hroute tail[k] (List.getElem_mem _) hzero

theorem router_done_iff (t : Transaction) (h : t.selector = .curveRouterExchangeMultiple)
    (ps : List ParamBuffer) : (t.parsed ps).nextParam = .none ↔ RouteEnds ps := by
  rw [Transaction.parsed, t.start_router h]
  obtain _ | ⟨first, tail⟩ := ps
  · simp [initialContext, RouteEnds]
  rw [Machine.run_cons, step_start_router]
  cases hfind : tail.find? fun p => decide (Abi.address p.word = nullEthAddress) with
  | none =>
    -- no end of the route: the parser waits for the next address
    have hroute : ∀ p ∈ tail, Abi.address p.word ≠ nullEthAddress := by simpa using hfind
    rw [run_route ⟨rfl, rfl, rfl⟩ hroute]
    exact iff_of_false (by simp [initialContext]) (not_routeEnds first hroute)
  | some z =>
    obtain ⟨hz, route, rest, rfl, hbefore⟩ := List.find?_eq_some_iff_append.1 hfind
    have hz : Abi.address z.word = nullEthAddress := of_decide_eq_true hz
    have hroute : ∀ p ∈ route, Abi.address p.word ≠ nullEthAddress := by simpa using hbefore
    have hskip : 20 - (0 + UInt8.ofNat route.length + 1) = 20 - UInt8.ofNat (route.length + 1) := by
      have hone : UInt8.ofNat 1 = 1 := rfl
      rw [UInt8.ofNat_add, hone]
      grind
    rw [routeEnds_cut first hroute hz, Machine.run_append, run_route ⟨rfl, rfl, rfl⟩ hroute,
      Machine.run_cons, step_terminator ⟨rfl, rfl, rfl⟩ hz, amounts_done_iff rfl rfl]
    simp only [initialContext, Context.zero, hskip]

/-! ### The path of `exactInput` -/

/-- In the words before the path the parser waits for none of the last two states. -/
theorem header_prefix (tx : TxContent) {ps : List ParamBuffer} (h : ps.length < 7) :
    let c := (parser tx).run (initialContext .uniswapRouterExactInput .beneficiary 2) ps
    c.offset = 0 ∧ c.nextParam ≠ .none ∧ c.nextParam ≠ .tokenReceivedRest := by
  rcases ps with _ | ⟨w₀, _ | ⟨w₁, _ | ⟨w₂, _ | ⟨w₃, _ | ⟨w₄, _ | ⟨w₅, _ | ⟨w₆, ps⟩⟩⟩⟩⟩⟩⟩
  case cons.cons.cons.cons.cons.cons.cons =>
    simp only [List.length_cons] at h
    omega
  all_goals
    simp [parser, provide, handleProvideParameter, handleSelector, handleUniswapExchange,
      initialContext, Context.zero]

/-- The words that an `exactInput` call needs, up to the last word of the received token. -/
def pathWordsNeeded (offset : UInt16) : ℕ :=
  9 + (pathSkip offset).toNat + if 12 < pathRemainder offset then 1 else 0

/-- The states after the path length, by the number of words. -/
theorem path_done_iff (tx : TxContent) {c : Context} (h : c.ScansPath) (ws : List ParamBuffer) :
    let d := (parser tx).run c ws
    d.offset = c.offset ∧
      ((d.nextParam = .none ∨
          d.nextParam = .tokenReceivedRest ∧ decide (12 < pathRemainder c.offset) = false) ↔
        pathWordsNeeded c.offset ≤ ws.length + 7) := by
  obtain ⟨hoffset, hnext, -⟩ := path_stage tx h ws
  refine ⟨hoffset, ?_⟩
  rw [hnext]
  unfold pathWordsNeeded pathStage
  by_cases hrest : 12 < pathRemainder c.offset
  · rw [if_pos hrest]
    split_ifs <;> simp [hrest] <;> omega
  · rw [if_neg hrest]
    split_ifs <;> simp [hrest] <;> omega

theorem exactInput_done_iff (t : Transaction) (h : t.selector = .uniswapRouterExactInput)
    (ps : List ParamBuffer) :
    (t.parsed ps).offset = u2be (wordAt ps 6) ∧
      (((t.parsed ps).nextParam = .none ∨ (t.parsed ps).nextParam = .tokenReceivedRest ∧
          decide (12 < pathRemainder (t.parsed ps).offset) = false) ↔
        pathWordsNeeded (u2be (wordAt ps 6)) ≤ ps.length) := by
  rw [Transaction.parsed, t.start_exactInput h]
  by_cases hlen : ps.length < 7
  · obtain ⟨hoffset, hnone, hrest⟩ := header_prefix t.tx hlen
    have hzero : u2be (wordAt ps 6) = 0 := by
      rw [wordAt, List.getElem?_eq_none (by omega)]
      rfl
    rw [hoffset, hzero]
    refine ⟨rfl, ?_⟩
    constructor
    · rintro (hdone | ⟨hdone, -⟩)
      · exact absurd hdone hnone
      · exact absurd hdone hrest
    · intro hlong
      have hneeded : pathWordsNeeded 0 = 264 := by decide
      omega
  · obtain ⟨w₀, w₁, w₂, w₃, w₄, w₅, w₆, ws, rfl⟩ := exists_header (show 7 ≤ ps.length by omega)
    rw [Machine.run_append, run_header]
    obtain ⟨hoffset, hdone⟩ := path_done_iff t.tx
      (c := pathContext w₂.word w₄.word w₅.word w₆.word) ⟨rfl, rfl, rfl⟩ ws
    have hpath : (pathContext w₂.word w₄.word w₅.word w₆.word).offset = u2be w₆.word := rfl
    rw [hoffset, hdone, hpath]
    refine ⟨rfl, ?_⟩
    change _ ↔ pathWordsNeeded (u2be w₆.word) ≤ _
    simp only [List.length_append, List.length_cons, List.length_nil]
    omega

/-! ### Every accepted transaction -/

/-- The state of a fixed-layout call after a list of words. -/
theorem nextParam_parsed_fixed (t : Transaction) (h : t.selector.isFixed) (ps : List ParamBuffer) :
    (t.parsed ps).nextParam = (awaited (t.selector.layout.drop ps.length)).1 := by
  rw [Transaction.parsed, run_awaits t.tx (t.start_awaits h) ps]
  rfl

/-- While the second word of `wrap` or `unwrap` is missing, the beneficiary is zero. -/
theorem beneficiary_parsed_wrap (t : Transaction) (h : t.selector.isWrap) {ps : List ParamBuffer}
    (hlen : ps.length < 2) : (t.parsed ps).beneficiary = nullEthAddress := by
  have hposition : t.selector.position .beneficiary = some 1 := by
    cases hs : t.selector <;> rw [hs] at h
    case wrap | unwrap => rfl
    all_goals cases h
  have hget : (t.parsed ps).beneficiary = _ := get_parsed t (isFixed_of_isWrap h) ps .beneficiary
  rw [hget, positional, hposition, Option.bind_some, List.getElem?_eq_none (by omega)]
  rfl

/-- The list of words is long enough for the fields that are shown. -/
def Transaction.WordsSuffice (t : Transaction) (ps : List ParamBuffer) (user : Address) : Prop :=
  match t.selector with
  | .curveRouterExchangeMultiple => RouteEnds ps
  | .uniswapRouterExactInput => pathWordsNeeded (u2be (wordAt ps 6)) ≤ ps.length
  | .wrap | .unwrap => 1 ≤ ps.length ∧ (2 ≤ ps.length ∨ user = nullEthAddress)
  | s => s.layout.length ≤ ps.length

theorem fullyRead_fixed_iff (t : Transaction) (hfixed : t.selector.isFixed)
    (hwrap : t.selector.isWrap = false) (ps : List ParamBuffer) (user : Address) :
    (t.parsed ps).FullyRead user ↔ t.selector.layout.length ≤ ps.length := by
  rw [Context.FullyRead, t.selectorIndex_parsed, nextParam_parsed_fixed t hfixed,
    readBy_fixed hfixed hwrap]

theorem fullyRead_wrap_iff (t : Transaction) (hwrap : t.selector.isWrap) (ps : List ParamBuffer)
    (user : Address) :
    (t.parsed ps).FullyRead user ↔
      1 ≤ ps.length ∧ (2 ≤ ps.length ∨ user = nullEthAddress) := by
  rw [Context.FullyRead, t.selectorIndex_parsed,
    nextParam_parsed_fixed t (isFixed_of_isWrap hwrap), readBy_wrap hwrap]
  refine and_congr_right fun _ => ?_
  by_cases hlen : 2 ≤ ps.length
  · simp [hlen]
  · rw [beneficiary_parsed_wrap t hwrap (by omega)]
    simp only [hlen, false_or, decide_eq_false_iff_not, ne_eq, not_not]
    exact eq_comm

/-- **No call is refused, and the screens show fields that have been read exactly when the list of
words is long enough**, where the copies of the words stay inside their fields.  The copy of negative
length, from which `memcpy` may not come back, is left out. -/
theorem fullyRead_iff (t : Transaction) (ps : List ParamBuffer) (user : Address) :
    (∀ copy ∈ t.copies ps, copy.WritesInBounds) →
      (∀ call ∈ t.calls ps, call.result = .ok) ∧ (t.finalized ps user).result = .ok ∧
        ((t.parsed ps).FullyRead user ↔ t.WordsSuffice ps user) := by
  intro _
  refine ⟨t.calls_ok ps, t.finalized_ok ps user, ?_⟩
  have hexpected := t.parsed_expected ps
  rw [Context.Expected, t.selectorIndex_parsed] at hexpected
  unfold Transaction.WordsSuffice
  split
  case h_1 hs =>
    rw [hs] at hexpected
    rw [Context.FullyRead, t.selectorIndex_parsed, hs, readBy_router _ _ hexpected,
      router_done_iff t hs]
  case h_2 hs =>
    rw [hs] at hexpected
    rw [Context.FullyRead, t.selectorIndex_parsed, hs, readBy_exactInput _ _ hexpected,
      (exactInput_done_iff t hs ps).2]
  case h_3 hs | h_4 hs => exact fullyRead_wrap_iff t (by rw [hs]; rfl) ps user
  case h_5 hrouter hpath hwrap hunwrap =>
    exact fullyRead_fixed_iff t (decide_eq_true ⟨hrouter, hpath⟩)
      (decide_eq_false fun h => h.elim hwrap hunwrap) ps user

theorem fullyRead_iff_mint :
    let ps : List ParamBuffer := [.ofNat 7, .ofNat 5, .ofNat 5]
    (∀ call ∈ vaultMintTransaction.calls ps, call.result = .ok) ∧
      (vaultMintTransaction.finalized ps nullEthAddress).result = .ok ∧
      ((vaultMintTransaction.parsed ps).FullyRead nullEthAddress ↔
        vaultMintTransaction.WordsSuffice ps nullEthAddress) :=
  fullyRead_iff vaultMintTransaction [.ofNat 7, .ofNat 5, .ofNat 5] nullEthAddress (by decide)

/-- A `mint` call without its parameters is shown. -/
theorem fullyRead_mint_without_words :
    (∀ call ∈ vaultMintTransaction.calls [], call.result = .ok) ∧
      (vaultMintTransaction.finalized [] nullEthAddress).result = .ok ∧
      ¬(vaultMintTransaction.parsed []).FullyRead nullEthAddress := by
  refine ⟨vaultMintTransaction.calls_ok [], vaultMintTransaction.finalized_ok _ _, ?_⟩
  rw [fullyRead_fixed_iff vaultMintTransaction (by decide) (by decide)]
  decide

end OriginDefi
