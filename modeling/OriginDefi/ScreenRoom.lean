import OriginDefi.ScreenReading

/-!
# Which text buffers are large enough

`amountToString` ends with an exception when the buffer has not the room that it asks for, and the
screen is then an error.

* `amounts_fit_iff`: the exact size from which on there is room for every amount of a token;
* `display_ok`: with tokens of at most 77 decimals, 92 characters are enough for every screen of
  every transaction.
-/

namespace OriginDefi

/-- A number of 78 digits takes all of it. -/
theorem scaledRoom_ten_pow (decimals : ℕ) :
    scaledRoom (10 ^ 77) decimals = largestRoom decimals := by
  have hle : (Nat.toDigits 10 (10 ^ 77)).length ≤ 78 :=
    (Nat.length_toDigits_le_iff (by decide) (by decide)).mpr (by norm_num)
  have hgt : ¬(Nat.toDigits 10 (10 ^ 77)).length ≤ 77 := by
    rw [Nat.length_toDigits_le_iff (by decide) (by decide)]
    exact lt_irrefl _
  unfold scaledRoom largestRoom
  rw [if_neg (by positivity)]
  split_ifs <;> omega

theorem word_lt (w : Word) : w.toNat < 10 ^ 78 :=
  calc w.toNat < 256 ^ 32 := Bytes.toNat_lt w
    _ < 10 ^ 78 := by norm_num

/-- **How large a text buffer must be.**  In a buffer of more than `MAX_TICKER_LEN` characters
`amountToString` ends without an exception for every amount of a token exactly if there is room for
the ticker, its blank and the longest number with the decimals of the token. -/
theorem amounts_fit_iff (keccak : List Char → Bytes int256Length) {ticker : CString}
    (hticker : IsTicker ticker) (decimals : UInt8) {outSize : ℕ} (hroom : maxTickerLen < outSize)
    (hout : (outSize : ℤ) < sizeT) :
    (∀ amount : Word,
        ((sdkFormatter keccak).amountToString amount 32 decimals ticker outSize).2 = none) ↔
      (amountPrefix ticker).length + largestRoom decimals.toNat < outSize := by
  have hcall : ∀ amount : Word,
      ((sdkFormatter keccak).amountToString amount 32 decimals ticker outSize).2 = none ↔
        (amountPrefix ticker).length + scaledRoom amount.toNat decimals.toNat < outSize := by
    intro amount
    have hsize : (AmountCall.mk amount 32 decimals ticker).amountSize.toNat ≤ int256Length :=
      show (32 : UInt8).toNat ≤ int256Length by decide
    have htext := sdk_amountToString keccak hsize hticker hroom hout
    have hquantity : (AmountCall.mk amount 32 decimals ticker).quantity.room =
        (amountPrefix ticker).length + scaledRoom amount.toNat decimals.toNat := by
      rw [Quantity.room, ← amountValue_word amount]
      rfl
    rw [htext, hquantity]
    split_ifs with hfits
    · exact ⟨fun _ => hfits, fun _ => rfl⟩
    · exact ⟨nofun, fun h => absurd h hfits⟩
  constructor
  · intro h
    have hlongest := (hcall (Bytes.ofNat 32 (10 ^ 77))).mp (h _)
    rw [Bytes.toNat_ofNat_of_lt (by norm_num), scaledRoom_ten_pow] at hlongest
    exact hlongest
  · intro h amount
    have hle := scaledRoom_le (word_lt amount) decimals.toNat
    exact (hcall amount).mpr (by omega)

theorem amounts_fit_iff_eth :
    (∀ amount : Word,
        ((sdkFormatter fun _ _ => 0).amountToString amount 32 18 "ETH".toList 85).2 = none) ↔
      (amountPrefix "ETH".toList).length + largestRoom (18 : UInt8).toNat < 85 :=
  amounts_fit_iff (fun _ _ => 0) ⟨by decide, by decide⟩ 18 (by decide) (by decide)

namespace Transaction

variable (t : Transaction) (ps : List ParamBuffer) (answer : HostAnswer) (networkTicker : Ticker)

theorem amount_sent_lt (hvalue : t.tx.value.length.toNat ≤ int256Length) :
    (t.sent ps answer networkTicker).amount < 10 ^ 78 := by
  unfold sent
  dsimp only
  split_ifs
  · exact amountValue_lt _ hvalue
  · exact word_lt _

theorem amount_received_lt (hvalue : t.tx.value.length.toNat ≤ int256Length) :
    (t.received ps answer networkTicker).amount < 10 ^ 78 := by
  unfold received
  dsimp only
  split_ifs
  · exact amountValue_lt _ hvalue
  · exact word_lt _
  · exact word_lt _

end Transaction

/-- The decimals of the tokens that the host knows. -/
def HostAnswer.DecimalsLe (answer : HostAnswer) (decimals : ℕ) : Prop :=
  (∀ token ∈ answer.item1, token.decimals.toNat ≤ decimals) ∧
    ∀ token ∈ answer.item2, token.decimals.toNat ≤ decimals

theorem tokenDecimals_le {bound : ℕ} (h : 18 ≤ bound) {item : Option TokenDefinition}
    (hitem : ∀ token ∈ item, token.decimals.toNat ≤ bound) (address : Address) :
    (tokenDecimals address item).toNat ≤ bound := by
  have hknown : ∀ decimals ∈ checkedDecimals address, decimals.toNat ≤ 18 := by
    intro decimals hdecimals
    unfold checkedDecimals at hdecimals
    split_ifs at hdecimals <;> cases hdecimals <;> decide
  unfold tokenDecimals
  split_ifs with hnull
  · exact h
  · cases hchecked : checkedDecimals address with
    | some decimals => exact (hknown decimals hchecked).trans h
    | none =>
      cases item with
      | none => exact h
      | some token => exact hitem token rfl

/-- The decimals that the switches set are built in. -/
theorem getD_decimals_le {bound : ℕ} (h : 18 ≤ bound) {fixed : Option UInt8}
    (hfixed : ∀ decimals ∈ fixed, decimals.toNat ≤ 18) {decimals : UInt8}
    (hdecimals : decimals.toNat ≤ bound) : (fixed.getD decimals).toNat ≤ bound := by
  cases fixed with
  | none => exact hdecimals
  | some decimals' => exact (hfixed decimals' rfl).trans h

theorem sendDecimals_le (s : Selector) : ∀ decimals ∈ s.sendDecimals, decimals.toNat ≤ 18 := by
  intro decimals h
  cases s <;> cases h <;> decide

theorem receiveDecimals_le (s : Selector) :
    ∀ decimals ∈ s.receiveDecimals, decimals.toNat ≤ 18 := by
  intro decimals h
  cases s <;> cases h <;> decide

/-- A quantity of at most 77 decimals fits a buffer of 92 characters. -/
theorem Quantity.result_screen_of_room {x : Quantity} (hticker : IsTicker x.ticker)
    (hamount : x.amount < 10 ^ 78) (hdecimals : x.decimals.toNat ≤ 77) (title : String)
    {msgLength : ℕ} (h : 92 ≤ msgLength) : (x.screen title msgLength).result = .ok := by
  have hfront : (amountPrefix x.ticker).length ≤ 11 := hticker.length_amountPrefix_le
  have hscaled := scaledRoom_le hamount x.decimals.toNat
  have hlargest : largestRoom x.decimals.toNat ≤ 80 := by
    unfold largestRoom
    omega
  rw [Quantity.result_screen, Quantity.room]
  omega

/-- **No screen fails for want of room.**  With tokens of at most 77 decimals, every planned screen
of every transaction can be shown in a buffer of 92 characters. -/
theorem display_ok (t : Transaction) (ps : List ParamBuffer) (user : Address) (answer : HostAnswer)
    (networkTicker : Ticker) (keccak : List Char → Bytes int256Length) {msgLength : ℕ}
    (hvalue : t.tx.value.length.toNat ≤ int256Length) (hhost : HostTickers networkTicker answer)
    (hdecimals : answer.DecimalsLe 77) (hroom : 92 ≤ msgLength) :
    ∀ shown ∈ t.display ps user answer networkTicker keccak msgLength, shown.result = .ok := by
  intro shown hshown
  obtain ⟨screen, hmem, rfl⟩ := List.mem_map.mp hshown
  obtain ⟨herror, -⟩ := t.mem_plan ps user answer hmem
  cases screen with
  | send =>
    rw [Transaction.screenText_send]
    refine Quantity.result_screen_of_room (t.isTicker_sent ps hhost)
      (t.amount_sent_lt ps answer networkTicker hvalue) ?_ _ hroom
    exact getD_decimals_le (by decide) (sendDecimals_le _)
      (tokenDecimals_le (by decide) hdecimals.1 _)
  | receive =>
    rw [Transaction.screenText_receive]
    refine Quantity.result_screen_of_room (t.isTicker_received ps hhost)
      (t.amount_received_lt ps answer networkTicker hvalue) ?_ _ hroom
    exact getD_decimals_le (by decide) (receiveDecimals_le _)
      (tokenDecimals_le (by decide) hdecimals.2 _)
  | warn => rfl
  | beneficiary => rw [Transaction.screenText_beneficiary]
  | error => exact absurd rfl herror

theorem display_ok_mint :
    (vaultMintTransaction.display [.ofNat 7, .ofNat 5] nullEthAddress ⟨none, none⟩ ethTicker
      (fun _ _ => 0) 100).all (fun shown => shown.result = .ok) := by
  rw [List.all_eq_true]
  intro shown hshown
  exact decide_eq_true (display_ok vaultMintTransaction [.ofNat 7, .ofNat 5] nullEthAddress
    ⟨none, none⟩ ethTicker (fun _ _ => 0) (by decide) mintHost_tickers ⟨nofun, nofun⟩ (by decide)
    shown hshown)

end OriginDefi
