import OriginDefi.ExactInput
import OriginDefi.RouteScan

/-!
# The bounds of the copies

Every `memcpy` of the parser has fixed indices and a fixed length, except the two of the received
token of `exactInput`, which it computes from the length of the path and makes in any case: the
first one reads 20 bytes from the remainder of the length on, and the second one is made even if
nothing spills over into its word.

* `copies_inBounds_iff`: for every list of words, when all copies stay inside the parameter and
  their field;
* `ignoresExtra_iff`: when the words behind a canonical call of 2 to 357 hops are ignored.
-/

namespace OriginDefi

/-! ### Copies with fixed indices -/

/-- The copies made so far stay inside their objects. -/
def ProvideParameter.CopiesInBounds (msg : ProvideParameter) : Prop :=
  ∀ copy ∈ msg.copies, copy.InBounds

section Blocks

variable (msg : ProvideParameter)

@[simp] theorem copiesInBounds_expect (p : Parameter) :
    (msg.expect p).CopiesInBounds ↔ msg.CopiesInBounds := Iff.rfl

@[simp] theorem copiesInBounds_addSkip (n : UInt8) :
    (msg.addSkip n).CopiesInBounds ↔ msg.CopiesInBounds := Iff.rfl

@[simp] theorem copiesInBounds_notSupported :
    msg.notSupported.CopiesInBounds ↔ msg.CopiesInBounds := Iff.rfl

/-- One more copy inside its objects. -/
theorem copiesInBounds_append {msg msg' : ProvideParameter} {copy : Memcpy}
    (h : msg'.copies = msg.copies ++ [copy]) (hcopy : copy.InBounds) :
    msg'.CopiesInBounds ↔ msg.CopiesInBounds := by
  rw [ProvideParameter.CopiesInBounds, h, List.forall_mem_append, List.forall_mem_singleton,
    and_iff_left hcopy]
  rfl

@[simp] theorem copiesInBounds_handleTokenSent :
    (handleTokenSent msg).CopiesInBounds ↔ msg.CopiesInBounds := by
  unfold handleTokenSent
  dsimp only
  split
  · split
    · exact copiesInBounds_append (copies_copySent _ _ _) (by decide)
    · rfl
  · exact copiesInBounds_append (copies_copySent _ _ _) (by decide)

@[simp] theorem copiesInBounds_handleTokenReceived :
    (handleTokenReceived msg).CopiesInBounds ↔ msg.CopiesInBounds := by
  unfold handleTokenReceived
  dsimp only
  split
  · split
    · exact copiesInBounds_append (copies_copyReceived _ _ _) (by decide)
    · rfl
  · exact copiesInBounds_append (copies_copyReceived _ _ _) (by decide)

@[simp] theorem copiesInBounds_handleAmountSent :
    (handleAmountSent msg).CopiesInBounds ↔ msg.CopiesInBounds :=
  copiesInBounds_append (copies_handleAmountSent msg) (by decide)

@[simp] theorem copiesInBounds_handleMinAmountReceived :
    (handleMinAmountReceived msg).CopiesInBounds ↔ msg.CopiesInBounds :=
  copiesInBounds_append (copies_handleMinAmountReceived msg) (by decide)

@[simp] theorem copiesInBounds_handleBeneficiary :
    (handleBeneficiary msg).CopiesInBounds ↔ msg.CopiesInBounds :=
  copiesInBounds_append (copies_handleBeneficiary msg) (by decide)

end Blocks

/-- The handlers of all entry points except `exactInput`. -/
theorem copiesInBounds_handleSelector {msg : ProvideParameter}
    (h : msg.context.selectorIndex ≠ .uniswapRouterExactInput) :
    (handleSelector msg).CopiesInBounds ↔ msg.CopiesInBounds := by
  unfold handleSelector
  split
  case h_1 => unfold handleZapperDepositEth; split <;> simp
  case h_2 => unfold handleZapperDepositSfrxeth; split <;> simp
  case h_3 => unfold handleVaultMint; split <;> simp
  case h_4 => unfold handleVaultRedeem; split <;> simp
  case h_5 | h_6 => unfold handleCurvePoolExchange; split <;> simp
  case h_7 =>
    unfold handleCurveRouterExchange
    split
    case h_2 =>
      dsimp only
      split
      · simp only [copiesInBounds_expect]
        rfl
      · simp only [copiesInBounds_expect, copiesInBounds_handleTokenReceived]
        rfl
    all_goals simp
  case h_8 hs => exact absurd hs h
  case h_9 => unfold handleUniswapExchangeSingle; split <;> simp
  case h_10 | h_11 | h_12 | h_13 | h_14 | h_15 => unfold handleFlipperExchange; split <;> simp
  case h_16 | h_17 => unfold handleWrap; split <;> simp
  case h_18 => simp

theorem copiesInBounds_provide {tx : TxContent} {c : Context}
    (h : c.selectorIndex ≠ .uniswapRouterExactInput) (p : ParamBuffer) :
    (provide tx c p).CopiesInBounds := by
  by_cases hskip : c.skip = 0
  · rw [provide_handle hskip, copiesInBounds_handleSelector h]
    exact List.forall_mem_nil _
  · rw [ProvideParameter.CopiesInBounds, copies_skip hskip]
    exact List.forall_mem_nil _

/-- No list of words brings another entry point than `exactInput` to a copy outside its objects. -/
theorem copies_inBounds_of_ne (t : Transaction) (h : t.selector ≠ .uniswapRouterExactInput)
    (ps : List ParamBuffer) : ∀ copy ∈ t.copies ps, copy.InBounds := by
  have hcalls : ∀ call ∈ t.calls ps, call.CopiesInBounds := by
    refine Machine.outputs_invariant (I := fun c : Context => c.selectorIndex = t.selector)
      ?_ ?_ rfl ps
    · intro c p hc
      exact (congrArg Prod.fst (metadata_step t.tx c p)).trans hc
    · intro c p hc
      rw [← hc] at h
      exact copiesInBounds_provide h p
  intro copy hcopy
  obtain ⟨call, hcall, hmem⟩ := List.mem_flatMap.1 hcopy
  exact hcalls call hcall copy hmem

/-! ### The received token of `exactInput` -/

section Received

variable (offset : UInt16)

/-- The first copy reads past its word if the token spills over. -/
theorem receivedCopy_inBounds_iff :
    (receivedCopy offset).InBounds ↔ 20 ≤ offset.toNat ∧ (offset.toNat - 20) % 32 ≤ 12 := by
  simp only [Memcpy.InBounds, Memcpy.WritesInBounds, Memcpy.ReadsInBounds, receivedCopy, paramCopy,
    addressLength, parameterLength]
  by_cases h : 20 ≤ offset.toNat
  · rw [pathRemainder_eq rfl h]
    omega
  · have := pathRemainder_neg (show offset.toNat = offset.toNat from rfl) (by omega)
    omega

/-- The second copy has a negative length if nothing spills over. -/
theorem receivedRestCopy_inBounds_iff :
    (receivedRestCopy offset).InBounds ↔ 20 ≤ offset.toNat ∧ 12 ≤ (offset.toNat - 20) % 32 := by
  simp only [Memcpy.InBounds, Memcpy.WritesInBounds, Memcpy.ReadsInBounds, receivedRestCopy,
    paramCopy, addressLength, parameterLength]
  by_cases h : 20 ≤ offset.toNat
  · rw [pathRemainder_eq rfl h]
    omega
  · have := pathRemainder_neg (show offset.toNat = offset.toNat from rfl) (by omega)
    omega

end Received

/-- The words between the first one of a path of `L` bytes and the one in which the plugin looks
for the received token. -/
def skippedWords (L : ℕ) : ℕ := if L < 52 then 255 else ((L - 20) / 32 - 1) % 256

theorem pathSkip_eq (offset : UInt16) :
    (pathSkip offset).toNat = skippedWords offset.toNat := by
  unfold skippedWords
  split_ifs with h
  · rw [pathSkip_short rfl h]
    rfl
  · exact pathSkip_toNat rfl (by omega)

/-- A list of `n` words of a call with a path of `L` bytes makes no copy outside its objects: it
ends before the word of the received token, or the token ends with that word, or the list does and
the token lies inside it. -/
def PathCopiesFit (L n : ℕ) : Prop :=
  n ≤ 8 + skippedWords L ∨
    20 ≤ L ∧ ((L - 20) % 32 = 12 ∨ n = 9 + skippedWords L ∧ (L - 20) % 32 ≤ 12)

instance (L n : ℕ) : Decidable (PathCopiesFit L n) := by
  unfold PathCopiesFit
  infer_instance

-- the ten words of a call with two hops: the first copy reads two bytes past the ninth of them
example : ¬PathCopiesFit 66 10 := by decide

/-- The words of a path. -/
theorem path_copies_inBounds_iff (tx : TxContent) {c : Context} (h : c.ScansPath)
    (ws : List ParamBuffer) :
    (∀ copy ∈ parserCopies tx c ws, copy.InBounds) ↔
      PathCopiesFit c.offset.toNat (ws.length + 7) := by
  obtain ⟨-, -, hcopies⟩ := path_stage tx h ws
  have hsent : sentCopy.InBounds := by decide
  rw [hcopies, pathSkip_eq, pathCopies, PathCopiesFit, pathStage]
  split_ifs with hnone hsome hlast
  · -- before the path
    refine iff_of_true (by simp) (Or.inl ?_)
    omega
  · -- after its first word
    refine iff_of_true (by simpa using hsent) (Or.inl ?_)
    omega
  · -- after the word of the received token
    simp only [List.take_succ_cons, List.take_zero, List.forall_mem_cons, List.not_mem_nil,
      false_imp_iff, implies_true, and_true, hsent, true_and, receivedCopy_inBounds_iff]
    omega
  · -- after the word behind it
    simp only [List.take_succ_cons, List.take_zero, List.forall_mem_cons, List.not_mem_nil,
      false_imp_iff, implies_true, and_true, hsent, true_and, receivedCopy_inBounds_iff,
      receivedRestCopy_inBounds_iff]
    omega

/-- The copies before the path. -/
theorem headerCopies_inBounds : ∀ copy ∈ headerCopies, copy.InBounds := by decide

theorem exactInput_copies_inBounds_iff (t : Transaction)
    (h : t.selector = .uniswapRouterExactInput) (ps : List ParamBuffer) :
    (∀ copy ∈ t.copies ps, copy.InBounds) ↔
      PathCopiesFit (u2be (wordAt ps 6)).toNat ps.length := by
  rw [Transaction.copies, t.start_exactInput h]
  by_cases hlen : ps.length < 7
  · have hheader := copies_header_prefix t.tx hlen
    constructor
    · intro _
      exact Or.inl (by omega)
    · intro _ copy hcopy
      exact headerCopies_inBounds copy (hheader.subset hcopy)
  · obtain ⟨w₀, w₁, w₂, w₃, w₄, w₅, w₆, ws, rfl⟩ := exists_header (show 7 ≤ ps.length by omega)
    have hoffset : (pathContext w₂.word w₄.word w₅.word w₆.word).offset = u2be w₆.word := rfl
    rw [parserCopies_append, copies_header, run_header, List.forall_mem_append,
      and_iff_right headerCopies_inBounds, path_copies_inBounds_iff t.tx ⟨rfl, rfl, rfl⟩, hoffset,
      List.length_append, Nat.add_comm]
    rfl

/-! ### Every accepted transaction -/

/-- The condition on a list of words of a transaction. -/
def Transaction.CopiesFit (t : Transaction) (ps : List ParamBuffer) : Prop :=
  t.selector = .uniswapRouterExactInput → PathCopiesFit (u2be (wordAt ps 6)).toNat ps.length

/-- **When every copy stays inside the parameter and the field it is for**: always, except for
`exactInput`. -/
theorem copies_inBounds_iff (t : Transaction) (ps : List ParamBuffer) :
    (∀ copy ∈ t.copies ps, copy.InBounds) ↔ t.CopiesFit ps := by
  unfold Transaction.CopiesFit
  by_cases h : t.selector = .uniswapRouterExactInput
  · rw [exactInput_copies_inBounds_iff t h, forall_prop_of_true h]
  · constructor
    · intro _ hpath
      exact absurd hpath h
    · intro _
      exact copies_inBounds_of_ne t h ps

/-- A word behind the three words of a path of three hops: the second copy has length -7. -/
theorem copies_three_hops_not_inBounds :
    ¬∀ copy ∈ uniswapTransaction.copies
      (zeroPadded
        (exactInputCall (onesPath 3) oethAddress 0 (Bytes.ofNat 32 5) (Bytes.ofNat 32 6)) ++
        [.ofNat 7]),
      copy.InBounds := by
  rw [exactInput_copies_inBounds_iff uniswapTransaction (by decide)]
  decide

/-! ### Words after the end of a call -/

/-- The fields that the screens show. -/
def Context.displayedFields (c : Context) : Address × Address × Address × Word × Word :=
  (c.contractAddressSent, c.contractAddressReceived, c.beneficiary, c.amountSent,
    c.minAmountReceived)

/-- The words `extra` after the words `ps` are accepted, make no copy of negative length and leave
what is shown alone. -/
def Transaction.IgnoresExtra (t : Transaction) (ps extra : List ParamBuffer) : Prop :=
  (∀ call ∈ (parser t.tx).outputs (t.parsed ps) extra,
      call.result = .ok ∧ ∀ copy ∈ call.copies, 0 ≤ copy.len) ∧
    (t.parsed (ps ++ extra)).displayedFields = (t.parsed ps).displayedFields

/-- No word is refused, so only the copies and the fields matter. -/
theorem ignoresExtra_iff_copies (t : Transaction) (ps extra : List ParamBuffer) :
    t.IgnoresExtra ps extra ↔
      (∀ copy ∈ parserCopies t.tx (t.parsed ps) extra, 0 ≤ copy.len) ∧
        (t.parsed (ps ++ extra)).displayedFields = (t.parsed ps).displayedFields := by
  have hok : ∀ call ∈ (parser t.tx).outputs (t.parsed ps) extra, call.result = .ok :=
    outputs_ok (t.parsed_expected ps) extra
  refine and_congr_left fun _ => ?_
  simp only [parserCopies, List.mem_flatMap]
  constructor
  · rintro hcalls copy ⟨call, hcall, hcopy⟩
    exact (hcalls call hcall).2 copy hcopy
  · intro hcopies call hcall
    refine ⟨hok call hcall, ?_⟩
    intro copy hcopy
    exact hcopies copy ⟨call, hcall, hcopy⟩

section Extra

variable (t : Transaction) {path : List UInt8} {recipient : Address}
variable {deadline amountIn amountOutMinimum : Word} {ps : List ParamBuffer}

/-- The words after a path of at least 52 bytes change none of the fields. -/
theorem displayedFields_extra (h : t.selector = .uniswapRouterExactInput)
    (h52 : 52 ≤ path.length) (hmax : path.length ≤ 65535)
    (hps : ps.map ParamBuffer.word =
      exactInputCall path recipient deadline amountIn amountOutMinimum)
    (extra : List ParamBuffer) :
    (t.parsed (ps ++ extra)).displayedFields = (t.parsed ps).displayedFields := by
  obtain ⟨header, ws, rfl, hheader, hws⟩ := List.map_eq_append_iff.1 hps
  have hfields (more : List ParamBuffer) :
      (t.parsed (header ++ (ws ++ more))).displayedFields =
        (Bytes.ofList path 0, Bytes.ofList path (receivedPosition path.length), recipient,
          amountIn, amountOutMinimum) := by
    rw [(parsed_path t h h52 hmax hheader (pathWords_of_map hws more)).1]
    simp [Context.displayedFields, callContext, pathContext]
  have hnone := hfields []
  rw [List.append_nil] at hnone
  rw [List.append_assoc, hfields extra, hnone]

/-- The first word after a path makes the second copy if the received token ends before the end of
the path's last word. -/
theorem copies_extra (h : t.selector = .uniswapRouterExactInput)
    (h52 : 52 ≤ path.length) (hmax : path.length ≤ 8243)
    (hps : ps.map ParamBuffer.word =
      exactInputCall path recipient deadline amountIn amountOutMinimum)
    (extra : List ParamBuffer) :
    parserCopies t.tx (t.parsed ps) extra =
      if extra = [] ∨ 12 < (path.length - 20) % 32 then []
      else [receivedRestCopy (u2be (Bytes.ofNat parameterLength path.length))] := by
  obtain ⟨header, ws, rfl, hheader, hws⟩ := List.map_eq_append_iff.1 hps
  have hlen := length_of_map hws
  have hindex : receivedIndex path.length = (path.length - 20) / 32 := by
    unfold receivedIndex
    omega
  -- the copies of the call and of the call with the words behind it
  have hcopies (more : List ParamBuffer) :=
    (parsed_path t h h52 (by omega) hheader (pathWords_of_map hws more)).2
  have hnone := hcopies []
  have hextra := hcopies extra
  rw [List.append_nil] at hnone
  rw [← List.append_assoc, Transaction.copies, parserCopies_append] at hextra
  change t.copies (header ++ ws) ++ parserCopies t.tx (t.parsed (header ++ ws)) extra = _ at hextra
  rw [hnone, List.append_assoc, List.append_cancel_left_eq, List.length_append, hindex] at hextra
  by_cases hspill : 12 < (path.length - 20) % 32
  · -- the second copy has been made with the last word of the path
    rw [if_neg (by omega), if_neg (by omega)] at hextra
    rw [if_pos (Or.inr hspill)]
    simpa using hextra
  · rw [if_pos (by omega), List.nil_append] at hextra
    rw [hextra]
    refine if_congr ?_ rfl rfl
    rw [or_iff_left hspill, ← List.length_eq_zero_iff]
    omega

/-- Paths of 52 to 8243 bytes. -/
theorem ignoresExtra_length_iff (h : t.selector = .uniswapRouterExactInput)
    (h52 : 52 ≤ path.length) (hmax : path.length ≤ 8243)
    (hps : ps.map ParamBuffer.word =
      exactInputCall path recipient deadline amountIn amountOutMinimum)
    (extra : List ParamBuffer) :
    t.IgnoresExtra ps extra ↔ extra = [] ∨ 12 ≤ (path.length - 20) % 32 := by
  rw [ignoresExtra_iff_copies, and_iff_left (displayedFields_extra t h h52 (by omega) hps extra),
    copies_extra t h h52 hmax hps extra]
  have hlen : 0 ≤ (receivedRestCopy (u2be (Bytes.ofNat parameterLength path.length))).len ↔
      12 ≤ (path.length - 20) % 32 := by
    simp only [receivedRestCopy, paramCopy, parameterLength, addressLength,
      pathRemainder_eq (u2be_ofNat (show path.length < 65536 by omega))
        (show 20 ≤ path.length by omega)]
    omega
  split_ifs with hnone
  · refine iff_of_true (List.forall_mem_nil _) ?_
    rcases hnone with hnil | hspill
    · exact Or.inl hnil
    · exact Or.inr hspill.le
  · rw [not_or] at hnone
    rw [List.forall_mem_singleton, hlen, or_iff_right hnone.1]

/-- **When the words behind a call of 2 to 357 hops are ignored**: if there are none, or if the
received token does not end before the end of its word. -/
theorem ignoresExtra_iff (h : t.selector = .uniswapRouterExactInput) {n : ℕ} (hn : 2 ≤ n)
    (hmax : n ≤ 357) (hlen : path.length = 20 + 23 * n)
    (hps : ps.map ParamBuffer.word =
      exactInputCall path recipient deadline amountIn amountOutMinimum)
    (extra : List ParamBuffer) :
    t.IgnoresExtra ps extra ↔ extra = [] ∨ 12 ≤ 23 * n % 32 := by
  rw [ignoresExtra_length_iff t h (by omega) (by omega) hps, hlen, Nat.add_sub_cancel_left]

end Extra

theorem ignoresExtra_iff_two :
    uniswapTransaction.IgnoresExtra
        (zeroPadded
          (exactInputCall (onesPath 2) oethAddress 0 (Bytes.ofNat 32 5) (Bytes.ofNat 32 6)))
        [.ofNat 7] ↔
      ([.ofNat 7] : List ParamBuffer) = [] ∨ 12 ≤ 23 * 2 % 32 :=
  ignoresExtra_iff uniswapTransaction (by decide) (by decide) (by decide) (by simp [onesPath])
    (map_word_zeroPadded _) _

/-- The same word behind the same path. -/
theorem not_ignoresExtra_three_hops :
    ¬uniswapTransaction.IgnoresExtra
      (zeroPadded
        (exactInputCall (onesPath 3) oethAddress 0 (Bytes.ofNat 32 5) (Bytes.ofNat 32 6)))
      [.ofNat 7] := by
  rw [ignoresExtra_length_iff uniswapTransaction (by decide) (by simp [onesPath])
    (by simp [onesPath]) (map_word_zeroPadded _)]
  simp [onesPath]

end OriginDefi
