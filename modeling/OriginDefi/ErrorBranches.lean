import OriginDefi.ParserStates
import OriginDefi.ScreenPlan

/-!
# The error branches

A word is refused only in a `default:` branch: the one of the handler, for a state that it does not
treat, or the one of the switch over the selectors.  `takesDefault_iff` says that these are exactly
the states outside `Selector.expects`, so `error_branches_unreachable` rules them out for every
prefix of every list of words, together with the `default:` branch of `handle_query_contract_id`.
-/

namespace OriginDefi

/-- The handler of the selector, or the switch that chooses it, ends in its `default:` branch. -/
def ProvideParameter.TakesDefault (msg : ProvideParameter) : Prop :=
  handleSelector msg = msg.notSupported

/-- In a state that it does not treat, a handler does nothing but refuse the word. -/
theorem takesDefault_of_notMem {msg : ProvideParameter}
    (h : msg.context.nextParam ∉ msg.context.selectorIndex.expects) : msg.TakesDefault := by
  unfold ProvideParameter.TakesDefault handleSelector
  split <;> rename_i hs <;> rw [hs] at h
  all_goals
    simp only [handleZapperDepositEth, handleZapperDepositSfrxeth, handleVaultMint,
      handleVaultRedeem, handleCurvePoolExchange, handleCurveRouterExchange, handleUniswapExchange,
      handleUniswapExchangeSingle, handleFlipperExchange, handleWrap]
    split
  -- the last branch of each handler refuses the word, and `h` excludes the states of the others
  all_goals first
    | rename_i hnext
      rw [hnext] at h
      exact absurd (by decide) h
    | rfl

/-- The states that a selector expects are those in which no `default:` branch is taken. -/
theorem takesDefault_iff {msg : ProvideParameter} (h : msg.result = .ok) :
    msg.TakesDefault ↔ msg.context.nextParam ∉ msg.context.selectorIndex.expects := by
  constructor
  · intro hdefault hexpected
    have hresult := (handleSelector_expected (show msg.context.Expected from hexpected)).1
    rw [hdefault, h] at hresult
    cases hresult
  · exact takesDefault_of_notMem

/-- The name of the operation is known for the selectors of the table. -/
theorem result_handleQueryContractId {m : QueryContractId}
    (h : m.context.selectorIndex ≠ .unlisted) : (handleQueryContractId m).result = .ok := by
  unfold handleQueryContractId
  cases hs : m.context.selectorIndex
  case unlisted => exact absurd hs h
  all_goals simp [hs, Selector.version]

namespace Transaction

variable (t : Transaction)

/-- The message with the word `p` after the words `ps`, as it comes to the switch over the
selectors. -/
def delivered (ps : List ParamBuffer) (p : ParamBuffer) : ProvideParameter where
  txContent := t.tx
  context := t.parsed ps
  parameter := p
  result := .ok
  copies := []

theorem delivered_not_takesDefault (ps : List ParamBuffer) (p : ParamBuffer) :
    ¬(t.delivered ps p).TakesDefault := by
  rw [takesDefault_iff rfl, not_not]
  exact t.parsed_expected ps

/-- The selector of an accepted transaction is one of the 17 of the table. -/
theorem selector_eq_ofIndex : ∃ i < 17, t.selector = Selector.ofIndex i := by
  obtain ⟨i, hget, hsel⟩ := t.selector_eq
  exact ⟨i, (List.getElem?_eq_some_iff.1 hget).1, hsel⟩

end Transaction

/-- **The error branches are unreachable.**  After every prefix of a list of words the selector is
the one that was accepted, the state is one that its handler treats, the next word does not lead to
a `default:` branch, and the name of the operation can be shown, before and after the host has
answered. -/
theorem error_branches_unreachable (t : Transaction) (ps : List ParamBuffer) :
    (∃ i < 17, t.selector = Selector.ofIndex i) ∧
      (∀ n : ℕ, (t.parsed (ps.take n)).selectorIndex = t.selector ∧
        (t.parsed (ps.take n)).nextParam ∈ t.selector.expects ∧
        (∀ p, ¬(t.delivered (ps.take n) p).TakesDefault) ∧
        ∀ m : QueryContractId,
          (handleQueryContractId { m with context := t.parsed (ps.take n) }).result = .ok ∧
          ∀ user answer,
            (handleQueryContractId
              { m with context := t.shown (ps.take n) user answer }).result = .ok) ∧
      ∀ call ∈ t.calls ps, call.result = .ok := by
  refine ⟨t.selector_eq_ofIndex, ?_, t.calls_ok ps⟩
  intro n
  have hsel := t.selectorIndex_parsed (ps.take n)
  have hexpected := t.parsed_expected (ps.take n)
  rw [Context.Expected, hsel] at hexpected
  refine ⟨hsel, hexpected, t.delivered_not_takesDefault (ps.take n), ?_⟩
  intro m
  constructor
  · refine result_handleQueryContractId ?_
    rw [hsel]
    exact t.selector_ne_unlisted
  · intro user answer
    refine result_handleQueryContractId ?_
    rw [t.selectorIndex_shown]
    exact t.selector_ne_unlisted

end OriginDefi
