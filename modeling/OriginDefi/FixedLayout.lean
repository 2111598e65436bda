import OriginDefi.ParserStates

/-!
# Calls with a fixed layout

For every selector but `exchange_multiple` and `exactInput` each parameter sits at a fixed word of
the calldata.  The abstract parser of such a call knows only the list of slots it still has to
fill (`Selector.layout`): a word goes to the first slot, and a slot may be `ignored`.

`Awaits c slots` relates a context of the plugin's parser to the slots it still waits for: the first
slot that is not ignored gives `next_param`, the ignored slots before it are `skip`.  One word moves
both sides together (`step_slot`), so a whole stream fills the slots in order (`run_awaits`) and
every field ends up with the word at its position (`get_parsed`).
-/

namespace OriginDefi

/-- What a word of a call is for. -/
inductive Slot
  | tokenSent
  | tokenReceived
  | amountSent
  | minAmountReceived
  | beneficiary
  | ignored
  deriving DecidableEq

namespace Slot

/-- The state of the parser that waits for the slot. -/
def param : Slot → Parameter
  | .tokenSent => .tokenSent
  | .tokenReceived => .tokenReceived
  | .amountSent => .amountSent
  | .minAmountReceived => .minAmountReceived
  | .beneficiary => .beneficiary
  | .ignored => .none

/-- What a slot holds. -/
abbrev Value : Slot → Type
  | .tokenSent | .tokenReceived | .beneficiary => Address
  | .amountSent | .minAmountReceived => Word
  | .ignored => Unit

/-- The field of the context that belongs to the slot. -/
def get : (slot : Slot) → Context → slot.Value
  | .tokenSent, c => c.contractAddressSent
  | .tokenReceived, c => c.contractAddressReceived
  | .amountSent, c => c.amountSent
  | .minAmountReceived, c => c.minAmountReceived
  | .beneficiary, c => c.beneficiary
  | .ignored, _ => ()

/-- What a word means in the slot. -/
def decode (tx : TxContent) (s : Selector) : (slot : Slot) → Word → slot.Value
  | .tokenSent, w | .tokenReceived, w => tokenAddress tx s w
  | .amountSent, w | .minAmountReceived, w => w
  | .beneficiary, w => Abi.address w
  | .ignored, _ => ()

/-- Storing a word in the slot. -/
def store (tx : TxContent) (w : Word) (c : Context) : Slot → Context
  | .tokenSent => { c with contractAddressSent := tokenAddress tx c.selectorIndex w }
  | .tokenReceived => { c with contractAddressReceived := tokenAddress tx c.selectorIndex w }
  | .amountSent => { c with amountSent := w }
  | .minAmountReceived => { c with minAmountReceived := w }
  | .beneficiary => { c with beneficiary := Abi.address w }
  | .ignored => c

variable (tx : TxContent) (w : Word) (c : Context)

theorem get_store_same (slot : Slot) :
    slot.get (slot.store tx w c) = slot.decode tx c.selectorIndex w := by
  cases slot <;> rfl

theorem get_store_other {slot other : Slot} (h : slot ≠ other) :
    slot.get (other.store tx w c) = slot.get c := by
  cases slot <;> cases other <;> first | rfl | exact absurd rfl h

@[simp] theorem selectorIndex_store (slot : Slot) :
    (slot.store tx w c).selectorIndex = c.selectorIndex := by
  cases slot <;> rfl

end Slot

/-- The words of a fixed-layout call, up to the last one that is stored. -/
def Selector.layout : Selector → List Slot
  | .zapperDepositSfrxeth | .vaultRedeem => [.amountSent, .minAmountReceived]
  | .vaultMint => [.tokenSent, .amountSent, .minAmountReceived]
  | .curvePoolExchange | .curvePoolExchangeUnderlying =>
    [.tokenSent, .tokenReceived, .amountSent, .minAmountReceived]
  | .uniswapRouterExactInputSingle =>
    [.tokenSent, .tokenReceived, .ignored, .beneficiary, .ignored, .amountSent, .minAmountReceived]
  | .flipperBuyOusdWithUsdt | .flipperSellOusdForUsdt | .flipperBuyOusdWithDai
  | .flipperSellOusdForDai | .flipperBuyOusdWithUsdc | .flipperSellOusdForUsdc => [.amountSent]
  | .wrap | .unwrap => [.amountSent, .beneficiary]
  | .zapperDepositEth | .curveRouterExchangeMultiple | .uniswapRouterExactInput | .unlisted => []

/-- The state of the parser that waits for a list of slots, and the words it skips first. -/
def awaited : List Slot → Parameter × ℕ
  | [] => (.none, 0)
  | .ignored :: slots => ((awaited slots).1, (awaited slots).2 + 1)
  | slot :: _ => (slot.param, 0)

theorem awaited_cons {slot : Slot} (h : slot ≠ .ignored) (slots : List Slot) :
    awaited (slot :: slots) = (slot.param, 0) := by
  cases slot <;> first | rfl | exact absurd rfl h

theorem awaited_skip_le (slots : List Slot) : (awaited slots).2 ≤ slots.length := by
  induction slots with
  | nil => simp [awaited]
  | cons slot slots ih =>
    by_cases h : slot = .ignored
    · subst h
      simp only [awaited, List.length_cons]
      omega
    · rw [awaited_cons h]
      simp

/-- The context waits for exactly these slots of its call. -/
structure Awaits (c : Context) (slots : List Slot) : Prop where
  suffix : slots <:+ c.selectorIndex.layout
  nextParam : c.nextParam = (awaited slots).1
  skip : c.skip = UInt8.ofNat (awaited slots).2

/-- The context with the parser waiting for these slots. -/
def Context.await (c : Context) (slots : List Slot) : Context :=
  { c with nextParam := (awaited slots).1, skip := UInt8.ofNat (awaited slots).2 }

theorem Awaits.await_eq {c : Context} {slots : List Slot} (h : Awaits c slots) :
    c.await slots = c := by
  unfold Context.await
  rw [← h.nextParam, ← h.skip]

theorem Selector.layout_length_le (s : Selector) : s.layout.length ≤ 7 := by
  cases s <;> simp [Selector.layout]

/-- The handler of a selector stores the word in the slot it waits for and goes on to the next. -/
theorem handleSelector_slot {msg : ProvideParameter} {slot : Slot} {slots : List Slot}
    (h : Awaits msg.context (slot :: slots)) (hslot : slot ≠ .ignored) :
    (handleSelector msg).context =
      (slot.store msg.txContent msg.parameter.word msg.context).await slots := by
  have hnext := h.nextParam
  have hskip := h.skip
  -- the slots are a suffix of the layout, which leaves a few cases for each selector
  have hmem := (List.mem_tails _ _).2 h.suffix
  rw [awaited_cons hslot] at hnext hskip
  have hskip0 : msg.context.skip = 0 := hskip
  cases hs : msg.context.selectorIndex <;> rw [hs] at hmem <;>
    simp only [Selector.layout, List.tails, List.mem_cons, List.cons.injEq, reduceCtorEq,
      List.not_mem_nil, or_false] at hmem
  case zapperDepositSfrxeth =>
    rcases hmem with ⟨rfl, rfl⟩ | ⟨rfl, rfl⟩ <;>
      simp [handleSelector, handleZapperDepositSfrxeth, hs, hnext, hskip0, Slot.store,
        Slot.param, Context.await, awaited]
  case vaultMint =>
    rcases hmem with ⟨rfl, rfl⟩ | ⟨rfl, rfl⟩ | ⟨rfl, rfl⟩ <;>
      simp [handleSelector, handleVaultMint, hs, hnext, hskip0, Slot.store,
        Slot.param, Context.await, awaited]
  case vaultRedeem =>
    rcases hmem with ⟨rfl, rfl⟩ | ⟨rfl, rfl⟩ <;>
      simp [handleSelector, handleVaultRedeem, hs, hnext, hskip0, Slot.store,
        Slot.param, Context.await, awaited]
  case curvePoolExchange | curvePoolExchangeUnderlying =>
    rcases hmem with ⟨rfl, rfl⟩ | ⟨rfl, rfl⟩ | ⟨rfl, rfl⟩ | ⟨rfl, rfl⟩ <;>
      simp [handleSelector, handleCurvePoolExchange, hs, hnext, hskip0, Slot.store,
        Slot.param, Context.await, awaited]
  case uniswapRouterExactInputSingle =>
    rcases hmem with ⟨rfl, rfl⟩ | ⟨rfl, rfl⟩ | ⟨rfl, -⟩ | ⟨rfl, rfl⟩ | ⟨rfl, -⟩ | ⟨rfl, rfl⟩ |
      ⟨rfl, rfl⟩
    case inr.inr.inl | inr.inr.inr.inr.inl => exact absurd rfl hslot
    all_goals
      simp [handleSelector, handleUniswapExchangeSingle, hs, hnext, hskip0, Slot.store,
        Slot.param, Context.await, awaited]
  case wrap | unwrap =>
    rcases hmem with ⟨rfl, rfl⟩ | ⟨rfl, rfl⟩ <;>
      simp [handleSelector, handleWrap, hs, hnext, hskip0, Slot.store,
        Slot.param, Context.await, awaited]
  all_goals
    obtain ⟨rfl, rfl⟩ := hmem
    simp [handleSelector, handleFlipperExchange, hs, hnext, hskip0, Slot.store,
      Slot.param, Context.await, awaited]

/-- One word fills the first slot. -/
theorem step_slot {tx : TxContent} {c : Context} {slot : Slot} {slots : List Slot}
    (h : Awaits c (slot :: slots)) (p : ParamBuffer) :
    (parser tx).step c p = (slot.store tx p.word c).await slots := by
  by_cases hslot : slot = .ignored
  · -- an ignored slot is one more word in the counter
    subst hslot
    have hlen := h.suffix.length_le
    have hbound := awaited_skip_le slots
    have hlayout := c.selectorIndex.layout_length_le
    have hone : UInt8.ofNat 1 = 1 := rfl
    have hskip : c.skip = UInt8.ofNat (awaited slots).2 + 1 := by
      rw [h.skip, awaited, UInt8.ofNat_add, hone]
    have hne : c.skip ≠ 0 := by
      rw [h.skip, awaited]
      simp only [List.length_cons] at hlen
      intro h0
      have := congrArg UInt8.toNat h0
      simp at this
      omega
    rw [step_skip hne]
    simp only [Slot.store, Context.await, h.nextParam, awaited, Context.mk.injEq, true_and,
      and_true]
    rw [hskip, UInt8.add_sub_cancel]
  · have hskip : c.skip = 0 := by
      rw [h.skip, awaited_cons hslot]
      rfl
    rw [step_handle hskip]
    exact @handleSelector_slot ⟨tx, c, p, .ok, []⟩ slot slots h hslot

theorem awaits_await {c : Context} {slots : List Slot} (h : slots <:+ c.selectorIndex.layout) :
    Awaits (c.await slots) slots :=
  ⟨h, rfl, rfl⟩

/-- Filling slots in order, one word each, until either runs out. -/
def storeAll (tx : TxContent) : List Slot → List ParamBuffer → Context → Context
  | slot :: slots, p :: ps, c => storeAll tx slots ps (slot.store tx p.word c)
  | _, _, c => c

theorem await_storeAll (tx : TxContent) (slots rest rest' : List Slot) (ps : List ParamBuffer)
    (c : Context) :
    (storeAll tx slots ps (c.await rest)).await rest' = (storeAll tx slots ps c).await rest' := by
  induction slots generalizing ps c with
  | nil => simp [storeAll, Context.await]
  | cons slot slots ih =>
    cases ps with
    | nil => simp [storeAll, Context.await]
    | cons p ps =>
      have hstore : slot.store tx p.word (c.await rest) = (slot.store tx p.word c).await rest := by
        cases slot <;> rfl
      rw [storeAll, storeAll, hstore, ih]

/-- A stream of words fills the slots in order and leaves the parser waiting for the others. -/
theorem run_awaits (tx : TxContent) {c : Context} {slots : List Slot} (h : Awaits c slots)
    (ps : List ParamBuffer) :
    (parser tx).run c ps = (storeAll tx slots ps c).await (slots.drop ps.length) := by
  induction ps generalizing c slots with
  | nil => cases slots <;> exact h.await_eq.symm
  | cons p ps ih =>
    cases slots with
    | nil => rw [run_done h.nextParam h.skip]; exact h.await_eq.symm
    | cons slot slots =>
      have hsuffix : slots <:+ (slot.store tx p.word c).selectorIndex.layout := by
        rw [Slot.selectorIndex_store]
        exact (List.suffix_cons slot slots).trans h.suffix
      rw [Machine.run_cons, step_slot h, ih (awaits_await hsuffix), await_storeAll]
      rfl

/-! ### The fields after a stream -/

theorem get_storeAll_of_notMem {slot : Slot} {slots : List Slot} (h : slot ∉ slots)
    (tx : TxContent) (ps : List ParamBuffer) (c : Context) :
    slot.get (storeAll tx slots ps c) = slot.get c := by
  induction slots generalizing ps c with
  | nil => simp [storeAll]
  | cons other slots ih =>
    cases ps with
    | nil => simp [storeAll]
    | cons p ps =>
      rw [List.mem_cons, not_or] at h
      rw [storeAll, ih h.2, Slot.get_store_other _ _ _ h.1]

/-- A slot that occurs once ends up with the word at its position, if the stream gets there. -/
theorem get_storeAll {slot : Slot} {slots : List Slot} {pos : ℕ} (hpos : slots[pos]? = some slot)
    (huniq : ∀ i, slots[i]? = some slot → i = pos) (tx : TxContent) (ps : List ParamBuffer)
    (c : Context) :
    slot.get (storeAll tx slots ps c) =
      (ps[pos]?).elim (slot.get c) fun p => slot.decode tx c.selectorIndex p.word := by
  induction slots generalizing ps c pos with
  | nil => simp at hpos
  | cons other slots ih =>
    cases ps with
    | nil => simp [storeAll]
    | cons p ps =>
      cases pos with
      | zero =>
        have hother : other = slot := by simpa using hpos
        have htail : slot ∉ slots := by
          intro hmem
          obtain ⟨i, hi⟩ := List.mem_iff_getElem?.1 hmem
          exact absurd (huniq (i + 1) hi) (by omega)
        subst hother
        rw [storeAll, get_storeAll_of_notMem htail, Slot.get_store_same]
        rfl
      | succ pos =>
        have hother : slot ≠ other := by
          intro h
          exact absurd (huniq 0 (by simp [h])) (by omega)
        have htail : ∀ i, slots[i]? = some slot → i = pos := by
          intro i hi
          have := huniq (i + 1) hi
          omega
        rw [storeAll, List.getElem?_cons_succ, ih hpos htail, Slot.selectorIndex_store,
          Slot.get_store_other _ _ _ hother]

/-! ### The positional decoder -/

/-- The selectors whose parameters sit at fixed words. -/
def Selector.isFixed (s : Selector) : Bool :=
  s ≠ .curveRouterExchangeMultiple ∧ s ≠ .uniswapRouterExactInput

/-- The word of the calldata that holds a parameter of a call, counted after the selector. -/
def Selector.position : Selector → Slot → Option ℕ
  | .zapperDepositSfrxeth, .amountSent => some 0
  | .zapperDepositSfrxeth, .minAmountReceived => some 1
  | .vaultRedeem, .amountSent => some 0
  | .vaultRedeem, .minAmountReceived => some 1
  | .vaultMint, .tokenSent => some 0
  | .vaultMint, .amountSent => some 1
  | .vaultMint, .minAmountReceived => some 2
  | .curvePoolExchange, .tokenSent | .curvePoolExchangeUnderlying, .tokenSent => some 0
  | .curvePoolExchange, .tokenReceived | .curvePoolExchangeUnderlying, .tokenReceived => some 1
  | .curvePoolExchange, .amountSent | .curvePoolExchangeUnderlying, .amountSent => some 2
  | .curvePoolExchange, .minAmountReceived
  | .curvePoolExchangeUnderlying, .minAmountReceived => some 3
  | .uniswapRouterExactInputSingle, .tokenSent => some 0
  | .uniswapRouterExactInputSingle, .tokenReceived => some 1
  | .uniswapRouterExactInputSingle, .beneficiary => some 3
  | .uniswapRouterExactInputSingle, .amountSent => some 5
  | .uniswapRouterExactInputSingle, .minAmountReceived => some 6
  | .flipperBuyOusdWithUsdt, .amountSent | .flipperSellOusdForUsdt, .amountSent
  | .flipperBuyOusdWithDai, .amountSent | .flipperSellOusdForDai, .amountSent
  | .flipperBuyOusdWithUsdc, .amountSent | .flipperSellOusdForUsdc, .amountSent => some 0
  | .wrap, .amountSent | .unwrap, .amountSent => some 0
  | .wrap, .beneficiary | .unwrap, .beneficiary => some 1
  | _, _ => none

/-- What the words of a call say about a slot: the word at its position, zero where there is no
such word. -/
def positional (tx : TxContent) (s : Selector) (slot : Slot) (ps : List ParamBuffer) : slot.Value :=
  match (s.position slot).bind (ps[·]?) with
  | some p => slot.decode tx s p.word
  | none => slot.get Context.zero

theorem layout_position {s : Selector} {slot : Slot} {pos : ℕ} (h : s.position slot = some pos) :
    s.layout[pos]? = some slot ∧ ∀ i, s.layout[i]? = some slot → i = pos := by
  cases s <;> cases slot <;> simp only [Selector.position, Option.some.injEq, reduceCtorEq] at h <;>
    subst h <;> refine ⟨rfl, fun i hi => ?_⟩ <;>
    rcases i with _ | _ | _ | _ | _ | _ | _ | i <;> simp [Selector.layout] at hi ⊢

theorem layout_notMem {s : Selector} {slot : Slot} (h : s.position slot = none)
    (hslot : slot ≠ .ignored) : slot ∉ s.layout := by
  cases s <;> cases slot <;> simp_all [Selector.position, Selector.layout]

/-- An accepted call with a fixed layout starts out waiting for its whole layout. -/
theorem Transaction.start_awaits (t : Transaction) (h : t.selector.isFixed) :
    Awaits t.start t.selector.layout := by
  obtain ⟨nextParam, skip, hparser, hstart⟩ := t.start_eq
  have hinit : nextParam = (awaited t.selector.layout).1 ∧
      skip = UInt8.ofNat (awaited t.selector.layout).2 := by
    cases hs : t.selector <;> rw [hs] at hparser h <;> simp only [initialParser] at hparser
    case curvePoolExchange | curvePoolExchangeUnderlying =>
      split at hparser <;> cases hparser
      exact ⟨rfl, rfl⟩
    case curveRouterExchangeMultiple | uniswapRouterExactInput => exact absurd h (by decide)
    case unlisted => cases hparser
    all_goals
      cases hparser
      exact ⟨rfl, rfl⟩
  rw [hstart]
  exact ⟨List.suffix_rfl, hinit.1, hinit.2⟩

/-- **The streaming parser is the positional decoder**: after any list of words each field holds
the word at its position, or zero while the stream has not reached it. -/
theorem get_parsed (t : Transaction) (h : t.selector.isFixed) (ps : List ParamBuffer)
    (slot : Slot) :
    slot.get (t.parsed ps) = positional t.tx t.selector slot ps := by
  have hrun := run_awaits t.tx (t.start_awaits h) ps
  have hzero : slot.get t.start = slot.get Context.zero := by
    obtain ⟨nextParam, skip, -, hstart⟩ := t.start_eq
    rw [hstart]
    cases slot <;> rfl
  have hget : slot.get (t.parsed ps) = slot.get (storeAll t.tx t.selector.layout ps t.start) := by
    rw [Transaction.parsed, hrun]
    cases slot <;> rfl
  have hsel : t.start.selectorIndex = t.selector := rfl
  rw [hget, positional]
  cases hpos : t.selector.position slot with
  | none =>
    by_cases hslot : slot = .ignored
    · subst hslot
      rfl
    · rw [get_storeAll_of_notMem (layout_notMem hpos hslot), hzero]
      rfl
  | some pos =>
    obtain ⟨hlayout, huniq⟩ := layout_position hpos
    rw [get_storeAll hlayout huniq, hzero, hsel, Option.bind_some]
    cases ps[pos]? <;> rfl

/-- **What the calldata says is what the plugin records**, field by field, for every selector with
a fixed layout and every list of words. -/
theorem parsed_fields_positional (t : Transaction) (h : t.selector.isFixed)
    (ps : List ParamBuffer) :
    let wordFor slot := ((t.selector.position slot).bind (ps[·]?)).map ParamBuffer.word
    (t.parsed ps).contractAddressSent =
        (wordFor .tokenSent).elim nullEthAddress (tokenAddress t.tx t.selector) ∧
      (t.parsed ps).contractAddressReceived =
        (wordFor .tokenReceived).elim nullEthAddress (tokenAddress t.tx t.selector) ∧
      (t.parsed ps).amountSent = (wordFor .amountSent).getD 0 ∧
      (t.parsed ps).minAmountReceived = (wordFor .minAmountReceived).getD 0 ∧
      (t.parsed ps).beneficiary = (wordFor .beneficiary).elim nullEthAddress Abi.address := by
  have key := get_parsed t h ps
  have hsent := key .tokenSent
  have hreceived := key .tokenReceived
  have hamount := key .amountSent
  have hminimum := key .minAmountReceived
  have hbeneficiary := key .beneficiary
  simp only [Slot.get, positional] at hsent hreceived hamount hminimum hbeneficiary
  dsimp only
  rw [hsent, hreceived, hamount, hminimum, hbeneficiary]
  refine ⟨?_, ?_, ?_, ?_, ?_⟩ <;> split <;> rename_i hword <;> rw [hword] <;> rfl

/-- A `mint` call to the OETH vault. -/
def vaultMintTransaction : Transaction where
  init := .plain ![0x15, 0x6e, 0x29, 0xf6] oethVaultAddress
  accepted := by decide

theorem parsed_fields_positional_mint :
    let c := vaultMintTransaction.parsed [.ofNat 7, .ofNat 5]
    c.contractAddressSent = Abi.address (Bytes.ofNat 32 7) ∧
      c.contractAddressReceived = nullEthAddress ∧ c.amountSent = Bytes.ofNat 32 5 ∧
      c.minAmountReceived = 0 ∧ c.beneficiary = nullEthAddress :=
  parsed_fields_positional vaultMintTransaction (by decide) [.ofNat 7, .ofNat 5]

end OriginDefi
