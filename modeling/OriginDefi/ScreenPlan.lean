import OriginDefi.Paging
import OriginDefi.Session

/-!
# The screens of a whole run

`handle_finalize` and `handle_provide_token` count the screens; `get_screen` chooses the screen at
each index on its own, from `tokens_found` and the selector.  `Transaction.plan` is the list of
screens the user should page through, and `screens_eq_plan` says that these are the screens that
`get_screen` chooses, one at each counted index, and that all of them can be shown.
-/

namespace OriginDefi

/-- The screens of a trade: a warning before each token that nobody knows, no received side when
wrapping, and the beneficiary at the end. -/
def planned (wrap sentResolved receivedResolved beneficiary : Bool) : List Screen :=
  (if sentResolved then [] else [.warn]) ++ [.send] ++
    (if wrap then [] else (if receivedResolved then [] else [.warn]) ++ [.receive]) ++
    (if beneficiary then [.beneficiary] else [])

namespace Transaction

variable (t : Transaction) (ps : List ParamBuffer) (user : Address) (answer : HostAnswer)

/-- The beneficiary is shown for swaps through Uniswap and for wrapping, when it is somebody
else. -/
def showsBeneficiary : Bool :=
  (t.selector.isUniswap ∨ t.selector.isWrap) ∧ (t.parsed ps).beneficiary ≠ user

/-- The screens of a run, in order. -/
def plan : List Screen :=
  planned t.selector.isWrap (resolved (t.parsed ps).contractAddressSent answer.item1)
    (resolved (t.parsed ps).contractAddressReceived answer.item2) (t.showsBeneficiary ps user)

end Transaction

/-! ### `get_screen` as a function of four facts -/

/-- `get_screen` in terms of which tokens were found. -/
def screenAt (wrap sentFound receivedFound : Bool) : ℕ → Screen
  | 0 => if sentFound then .send else .warn
  | 1 =>
    if wrap then .beneficiary
    else if sentFound then (if receivedFound then .receive else .warn)
    else .send
  | 2 =>
    if sentFound && receivedFound then .beneficiary
    else if sentFound || receivedFound then .receive
    else .warn
  | 3 =>
    if sentFound && receivedFound then .error
    else if sentFound || receivedFound then .beneficiary
    else .receive
  | 4 => if sentFound || receivedFound then .error else .beneficiary
  | _ => .error

theorem getScreen_eq {c : Context} {sentFound receivedFound : Bool}
    (h : c.tokensFound =
      foundBit tokenSentFound sentFound ||| foundBit tokenReceivedFound receivedFound) (s : UInt8) :
    getScreen s c = screenAt c.selectorIndex.isWrap sentFound receivedFound s.toNat := by
  have hsent : c.tokensFound &&& tokenSentFound ≠ 0 ↔ sentFound := by
    rw [h]
    cases sentFound <;> cases receivedFound <;> decide
  have hreceived : c.tokensFound &&& tokenReceivedFound ≠ 0 ↔ receivedFound := by
    rw [h]
    cases sentFound <;> cases receivedFound <;> decide
  simp only [getScreen, hsent, hreceived]
  rcases s.toNat with _ | _ | _ | _ | _ | n <;> cases sentFound <;> cases receivedFound <;>
    simp [screenAt]

/-- The counted indices give the planned screens, as both tokens of a wrap are found. -/
theorem map_screenAt (wrap uniswap sentFound receivedFound elsewhere : Bool)
    (hwrap : wrap → sentFound ∧ receivedFound ∧ uniswap = false) :
    (List.range ((if uniswap ∧ elsewhere then (3 : UInt8) else if wrap ∧ ¬elsewhere then 1 else 2) +
        ((if sentFound then 0 else 1) + (if receivedFound then 0 else 1))).toNat).map
        (screenAt wrap sentFound receivedFound) =
      planned wrap sentFound receivedFound ((uniswap ∨ wrap) ∧ elsewhere) := by
  revert wrap uniswap sentFound receivedFound elsewhere
  decide

/-! ### The screens of a run -/

namespace Transaction

variable (t : Transaction) (ps : List ParamBuffer) (user : Address) (answer : HostAnswer)

/-- An accepted transaction has a selector of the table. -/
theorem selector_ne_unlisted : t.selector ≠ .unlisted := by
  obtain ⟨i, hget, hsel⟩ := t.selector_eq
  have hlt : i < originDefiSelectors.length := (List.getElem?_eq_some_iff.1 hget).1
  have hall : ∀ j < originDefiSelectors.length, Selector.ofIndex j ≠ .unlisted := by decide
  rw [hsel]
  exact hall i hlt

theorem selectorIndex_shown : (t.shown ps user answer).selectorIndex = t.selector := by
  rw [shown, tokens_eq]
  exact t.selectorIndex_parsed ps

theorem tokensFound_shown :
    (t.shown ps user answer).tokensFound =
      foundBit tokenSentFound (resolved (t.parsed ps).contractAddressSent answer.item1) |||
        foundBit tokenReceivedFound
          (resolved (t.parsed ps).contractAddressReceived answer.item2) := by
  rw [shown, tokens_eq]

/-- A wrap records no token, so both of its tokens count as found. -/
theorem resolved_of_isWrap (h : t.selector.isWrap) :
    resolved (t.parsed ps).contractAddressSent answer.item1 ∧
      resolved (t.parsed ps).contractAddressReceived answer.item2 ∧
      t.selector.isUniswap = false := by
  obtain ⟨hsent, hreceived⟩ := t.parsed_tokensNamed ps
  rw [t.selectorIndex_parsed] at hsent hreceived
  cases hs : t.selector <;> rw [hs] at h hsent hreceived <;> try cases h
  all_goals
    exact ⟨resolved_of_null _ (hsent rfl), resolved_of_null _ (hreceived rfl), rfl⟩

/-- The screens that `get_screen` chooses at the counted indices. -/
theorem map_getScreen :
    (List.range (t.screenCount ps user answer)).map
        (fun i => getScreen (UInt8.ofNat i) (t.shown ps user answer)) =
      t.plan ps user answer := by
  have hscreen : ∀ i ∈ List.range (t.screenCount ps user answer),
      getScreen (UInt8.ofNat i) (t.shown ps user answer) =
        screenAt t.selector.isWrap (resolved (t.parsed ps).contractAddressSent answer.item1)
          (resolved (t.parsed ps).contractAddressReceived answer.item2) i := by
    intro i hi
    have hlt : i < 256 := (List.mem_range.1 hi).trans (UInt8.toNat_lt _)
    rw [getScreen_eq (t.tokensFound_shown ps user answer), t.selectorIndex_shown,
      UInt8.toNat_ofNat', Nat.mod_eq_of_lt hlt]
  have hcount : t.screenCount ps user answer =
      ((if t.selector.isUniswap ∧ decide ((t.parsed ps).beneficiary ≠ user) then (3 : UInt8)
          else if t.selector.isWrap ∧ ¬decide ((t.parsed ps).beneficiary ≠ user) then 1 else 2) +
        ((if resolved (t.parsed ps).contractAddressSent answer.item1 then 0 else 1) +
          (if resolved (t.parsed ps).contractAddressReceived answer.item2 then 0
            else 1))).toNat := by
    rw [screenCount, tokens_eq]
    simp only [finalized, handleFinalize_eq, countedScreens, t.selectorIndex_parsed, ne_eq,
      decide_eq_true_eq, not_not, eq_comm (a := user)]
  rw [List.map_congr_left hscreen, hcount,
    map_screenAt _ _ _ _ _ (t.resolved_of_isWrap ps answer)]
  simp only [plan, showsBeneficiary, decide_eq_true_eq]

/-- A planned screen is not an error, and a received side is not planned for a wrap. -/
theorem mem_plan {s : Screen} (h : s ∈ t.plan ps user answer) :
    s ≠ .error ∧ (s = .receive → t.selector.isWrap = false) := by
  unfold plan at h
  generalize t.selector.isWrap = wrap at h ⊢
  generalize resolved (t.parsed ps).contractAddressSent answer.item1 = sentResolved at h
  generalize resolved (t.parsed ps).contractAddressReceived answer.item2 = receivedResolved at h
  generalize t.showsBeneficiary ps user = beneficiary at h
  revert wrap sentResolved receivedResolved beneficiary
  cases s <;> decide

end Transaction

theorem Selector.receives_of_not_isWrap {s : Selector} (hwrap : s.isWrap = false)
    (hlisted : s ≠ .unlisted) : s.receives := by
  cases s
  case wrap | unwrap => cases hwrap
  case unlisted => exact absurd rfl hlisted
  all_goals rfl

/-- A screen that is not an error is shown, if the switches cover its selector. -/
theorem result_handleQueryContractUi (f : Formatter) (m : QueryContractUi)
    (hscreen : getScreen m.screenIndex m.context ≠ .error)
    (hlisted : m.context.selectorIndex ≠ .unlisted)
    (hreceive : getScreen m.screenIndex m.context = .receive → m.context.selectorIndex.receives) :
    (handleQueryContractUi f m).1.result = .ok := by
  cases hs : getScreen m.screenIndex m.context <;> simp only [handleQueryContractUi, hs]
  case send =>
    rw [setSendUi_eq]
    simp only [if_neg hlisted]
    rfl
  case receive =>
    rw [setReceiveUi_eq]
    simp only [hreceive hs, if_true]
    rfl
  case warn | beneficiary => rfl
  case error => exact absurd hs hscreen

/-- **The screens of a run** are the planned ones, one at each counted index and in order; none of
them is an error, and whatever was viewed before, `handle_query_contract_ui` shows each of them. -/
theorem screens_eq_plan (t : Transaction) (ps : List ParamBuffer) (user : Address)
    (answer : HostAnswer) :
    (List.range (t.screenCount ps user answer)).map
        (fun i => getScreen (UInt8.ofNat i) (t.shown ps user answer)) =
      t.plan ps user answer ∧
    .error ∉ t.plan ps user answer ∧
    ∀ (f : Formatter) (host : HostInputs) (viewed : List UiQuery) (q : UiQuery),
      q.screenIndex.toNat < t.screenCount ps user answer →
      (handleQueryContractUi f
        (uiMessage host ((ui f host).run (t.shown ps user answer) viewed) q)).1.result = .ok := by
  have hmap := t.map_getScreen ps user answer
  refine ⟨hmap, fun herror => (t.mem_plan ps user answer herror).1 rfl, ?_⟩
  intro f host viewed q hq
  have hsame := sameScreens_run f host (t.shown ps user answer) viewed
  have hsel := hsame.selector.trans (t.selectorIndex_shown ps user answer)
  have hscreen := getScreen_congr hsame.selector hsame.tokensFound q.screenIndex
  have hmem : getScreen q.screenIndex (t.shown ps user answer) ∈ t.plan ps user answer := by
    rw [← hmap, List.mem_map]
    exact ⟨q.screenIndex.toNat, List.mem_range.2 hq, by rw [UInt8.ofNat_toNat]⟩
  obtain ⟨herror, hreceive⟩ := t.mem_plan ps user answer hmem
  rw [← hscreen] at herror hreceive
  refine result_handleQueryContractUi f _ herror (hsel ▸ t.selector_ne_unlisted) fun hr => ?_
  have hreceives := Selector.receives_of_not_isWrap (hreceive hr) t.selector_ne_unlisted
  rw [← hsel] at hreceives
  exact hreceives

end OriginDefi
