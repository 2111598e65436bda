import OriginDefi.ParserStates

/-!
# The copies of a stream

`parserCopies` lists the `memcpy` calls that a list of words makes, in order.  A skipped word makes
none, and neither does a word that comes when nothing is expected any more.
-/

namespace OriginDefi

variable {tx : TxContent}

/-- The copies that a list of words makes. -/
def parserCopies (tx : TxContent) (c : Context) (ps : List ParamBuffer) : List Memcpy :=
  ((parser tx).outputs c ps).flatMap ProvideParameter.copies

/-- The copies that the words of a transaction make. -/
def Transaction.copies (t : Transaction) (ps : List ParamBuffer) : List Memcpy :=
  parserCopies t.tx t.start ps

@[simp] theorem parserCopies_nil (c : Context) : parserCopies tx c [] = [] := rfl

@[simp] theorem parserCopies_cons (c : Context) (p : ParamBuffer) (ps : List ParamBuffer) :
    parserCopies tx c (p :: ps) =
      (provide tx c p).copies ++ parserCopies tx ((parser tx).step c p) ps := rfl

theorem parserCopies_append (c : Context) (ps qs : List ParamBuffer) :
    parserCopies tx c (ps ++ qs) =
      parserCopies tx c ps ++ parserCopies tx ((parser tx).run c ps) qs := by
  rw [parserCopies, Machine.outputs_append, List.flatMap_append]
  rfl

theorem copies_skip {c : Context} (h : c.skip ≠ 0) (p : ParamBuffer) :
    (provide tx c p).copies = [] := by
  simp [provide, handleProvideParameter, h]

/-- A word that is not skipped, with everything its handler does. -/
theorem provide_handle {c : Context} (h : c.skip = 0) (p : ParamBuffer) :
    provide tx c p =
      handleSelector { txContent := tx, context := c, parameter := p, result := .ok,
                       copies := [] } := by
  simp [provide, handleProvideParameter, h]

section Blocks

variable (msg : ProvideParameter)

@[simp] theorem copies_expect (p : Parameter) : (msg.expect p).copies = msg.copies := rfl

@[simp] theorem copies_addSkip (n : UInt8) : (msg.addSkip n).copies = msg.copies := rfl

@[simp] theorem copies_notSupported : msg.notSupported.copies = msg.copies := rfl

@[simp] theorem copies_copySent (copy : Memcpy) (src : ℤ → UInt8) :
    (msg.copySent copy src).copies = msg.copies ++ [copy] := rfl

@[simp] theorem copies_copyReceived (copy : Memcpy) (src : ℤ → UInt8) :
    (msg.copyReceived copy src).copies = msg.copies ++ [copy] := rfl

@[simp] theorem copies_handleAmountSent : (handleAmountSent msg).copies =
    msg.copies ++ [paramCopy int256Length 0 0 int256Length] := rfl

@[simp] theorem copies_handleMinAmountReceived : (handleMinAmountReceived msg).copies =
    msg.copies ++ [paramCopy int256Length 0 0 parameterLength] := rfl

@[simp] theorem copies_handleBeneficiary : (handleBeneficiary msg).copies =
    msg.copies ++
      [paramCopy addressLength 0 (parameterLength - addressLength) addressLength] := rfl

end Blocks

/-- Words that are skipped make no copies. -/
theorem parserCopies_skip {c : Context} {ps : List ParamBuffer} (h : ps.length ≤ c.skip.toNat) :
    parserCopies tx c ps = [] := by
  induction ps using List.reverseRecOn with
  | nil => rfl
  | append_singleton ps p ih =>
    rw [List.length_append, List.length_singleton] at h
    have hne : c.skip - UInt8.ofNat ps.length ≠ 0 := by
      intro h0
      have hskip : c.skip = UInt8.ofNat ps.length := by grind
      have hto : (UInt8.ofNat ps.length).toNat = ps.length % 256 := UInt8.toNat_ofNat'
      have hlt := c.skip.toNat_lt
      rw [← hskip] at hto
      omega
    rw [parserCopies_append, ih (by omega), run_skip (by omega), parserCopies_cons,
      copies_skip hne, parserCopies_nil]
    rfl

/-- Once nothing is expected a word makes no copies. -/
theorem copies_done {c : Context} (hnext : c.nextParam = .none) (hskip : c.skip = 0)
    (p : ParamBuffer) : (provide tx c p).copies = [] := by
  rw [provide_handle hskip]
  unfold handleSelector
  split
  case h_18 => rfl
  all_goals
    simp only [handleZapperDepositEth, handleZapperDepositSfrxeth, handleVaultMint,
      handleVaultRedeem, handleCurvePoolExchange, handleCurveRouterExchange, handleUniswapExchange,
      handleUniswapExchangeSingle, handleFlipperExchange, handleWrap, hnext]

theorem parserCopies_done {c : Context} (hnext : c.nextParam = .none) (hskip : c.skip = 0)
    (ps : List ParamBuffer) : parserCopies tx c ps = [] := by
  induction ps with
  | nil => rfl
  | cons p ps ih =>
    rw [parserCopies_cons, copies_done hnext hskip, step_done hnext hskip, ih, List.append_nil]

end OriginDefi
