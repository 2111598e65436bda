import OriginDefi.ExactInput
import OriginDefi.Session

/-!
# What the router decodes

`decodeExactInput` is the decoder that Solidity generates for `exactInput(params)`: it follows the
offset of the tuple in the first word and the offset of the path inside the tuple, to any byte
position inside the calldata, and checks only bounds and the padding of the recipient.

The plugin skips both offsets unseen.  Where they are the usual ones, `0x20` and `0xa0`, the plugin
records what the router decodes, whatever the padding of the path and the words after it hold
(`recorded_eq_decoded`).  Where they are not, a call whose copies stay inside their fields is
accepted all the same: it can show the tokens of a decoy, put where the plugin looks, and trade
along any other path (`decoy_recorded`).
-/

namespace OriginDefi

/-- `ExactInputParams` of the router. -/
structure ExactInputParams where
  path : List UInt8
  recipient : Address
  deadline : Word
  amountIn : Word
  amountOutMinimum : Word

/-- The decoder of `exactInput(params)`, on the calldata after the selector. -/
def decodeExactInput (data : List UInt8) : Option ExactInputParams :=
  let tuple := (Abi.load data 0).toNat
  let pathOffset := (Abi.load data tuple).toNat
  if 32 ≤ data.length ∧ tuple ≤ Abi.maxOffset ∧ tuple + 0xa0 ≤ data.length ∧
      pathOffset ≤ Abi.maxOffset then do
    let path ← Abi.decodeBytes data (tuple + pathOffset)
    let recipient ← Abi.decodeAddress (Abi.load data (tuple + 0x20))
    some
      { path := path
        recipient := recipient
        deadline := Abi.load data (tuple + 0x40)
        amountIn := Abi.load data (tuple + 0x60)
        amountOutMinimum := Abi.load data (tuple + 0x80) }
  else none

/-- The calldata of a stream of words. -/
def calldataOf (ps : List ParamBuffer) : List UInt8 := Abi.calldata (ps.map ParamBuffer.word)

/-- The words of a call with a given offset of the path, up to the end of the tuple. -/
def tupleWords (pathOffset : ℕ) (params : ExactInputParams) : List Word :=
  [Bytes.ofNat parameterLength 0x20, Bytes.ofNat parameterLength pathOffset,
    Abi.addressWord params.recipient, params.deadline, params.amountIn, params.amountOutMinimum]

/-- The plugin looks for the length of the path right behind the tuple. -/
theorem tupleWords_append (pathOffset : ℕ) (params : ExactInputParams) (L : ℕ) :
    tupleWords pathOffset params ++ [Bytes.ofNat parameterLength L] =
      headerWords (Bytes.ofNat parameterLength 0x20) (Bytes.ofNat parameterLength pathOffset)
        params.recipient params.deadline params.amountIn params.amountOutMinimum L := rfl

/-- The decoder finds the path of a tuple wherever the offset says. -/
theorem decodeExactInput_tupleWords (params : ExactInputParams) (between after : List Word)
    (hlen : params.path.length ≤ Abi.maxOffset)
    (hoffset : 0xa0 + 32 * between.length ≤ Abi.maxOffset) :
    decodeExactInput (Abi.calldata (tupleWords (0xa0 + 32 * between.length) params ++ between ++
      Bytes.ofNat 32 params.path.length :: (Abi.padWords params.path ++ after))) = some params := by
  have hmax : Abi.maxOffset < 256 ^ 32 := by decide
  set words := tupleWords (0xa0 + 32 * between.length) params ++ between ++
    Bytes.ofNat 32 params.path.length :: (Abi.padWords params.path ++ after) with hwords
  have hlength : 6 + between.length ≤ words.length := by
    simp [hwords, tupleWords]
    omega
  have hload (j : ℕ) : Abi.load (Abi.calldata words) (32 * j) = words.getD j 0 :=
    Abi.load_calldata words j
  have h0 := hload 0
  have h1 := hload 1
  have h2 := hload 2
  have h3 := hload 3
  have h4 := hload 4
  have h5 := hload 5
  have hpath := Abi.decodeBytes_padWords (tupleWords (0xa0 + 32 * between.length) params ++ between)
    after hlen
  rw [← hwords, List.length_append,
    show 32 * ((tupleWords (0xa0 + 32 * between.length) params).length + between.length) =
      0x20 + (0xa0 + 32 * between.length) by simp [tupleWords]; omega] at hpath
  simp only [hwords, tupleWords, List.cons_append, List.getD_cons_zero, List.getD_cons_succ,
    Nat.reduceMul] at h0 h1 h2 h3 h4 h5
  simp only [hwords, tupleWords, List.cons_append] at hpath hlength ⊢
  have htuple : (Bytes.ofNat parameterLength 0x20).toNat = 0x20 :=
    Bytes.toNat_ofNat_of_lt (by decide)
  have hpathOffset : (Bytes.ofNat parameterLength (0xa0 + 32 * between.length)).toNat =
      0xa0 + 32 * between.length := Bytes.toNat_ofNat_of_lt (by simp only [parameterLength]; omega)
  simp only [decodeExactInput, h0, htuple, h1, hpathOffset, hpath, h2, h3, h4, h5, Nat.reduceAdd,
    Abi.decodeAddress_addressWord, Abi.calldata_length]
  rw [if_pos ⟨by omega, by decide, by omega, hoffset⟩]
  rfl

/-- The decoder accepts the canonical encoding of a call. -/
theorem decodeExactInput_call (params : ExactInputParams)
    (hlen : params.path.length ≤ Abi.maxOffset) :
    decodeExactInput (Abi.calldata (exactInputCall params.path params.recipient params.deadline
      params.amountIn params.amountOutMinimum)) = some params := by
  have := decodeExactInput_tupleWords params [] [] hlen (by decide)
  simpa only [tupleWords, exactInputCall, exactInputHeader, headerWords, List.length_nil,
    Nat.mul_zero, Nat.add_zero, List.append_nil, List.cons_append, List.nil_append] using this

/-! ### Calls with the usual offsets -/

/-- The offsets that the canonical encoding has. -/
structure UsualOffsets (data : List UInt8) : Prop where
  tuple : (Abi.load data 0).toNat = 0x20
  path : (Abi.load data 0x20).toNat = 0xa0

/-- The word of a stream at an index. -/
theorem load_calldataOf {ps : List ParamBuffer} {j : ℕ} {p : ParamBuffer} (h : ps[j]? = some p) :
    Abi.load (calldataOf ps) (32 * j) = p.word := by
  rw [calldataOf, Abi.load_calldata, List.getD_eq_getElem?_getD, List.getElem?_map, h]
  rfl

/-- Where the tuple is at its usual place, the decoder takes its fields from the words where the
plugin looks for them. -/
theorem tuple_of_decode {ps : List ParamBuffer} {params : ExactInputParams}
    (htuple : (Abi.load (calldataOf ps) 0).toNat = 0x20)
    (h : decodeExactInput (calldataOf ps) = some params) :
    (∃ w₀ w₁ w₂ w₃ w₄ w₅ ws, ps = [w₀, w₁, w₂, w₃, w₄, w₅] ++ ws ∧
      w₂.word = Abi.addressWord params.recipient ∧ w₃.word = params.deadline ∧
      w₄.word = params.amountIn ∧ w₅.word = params.amountOutMinimum) ∧
    Abi.decodeBytes (calldataOf ps) (0x20 + (Abi.load (calldataOf ps) 0x20).toNat) =
      some params.path := by
  have hdata : (calldataOf ps).length = 32 * ps.length := by simp [calldataOf]
  simp only [decodeExactInput, htuple, Nat.reduceAdd] at h
  split_ifs at h with hbounds
  simp only [Option.bind_eq_bind, Option.bind_eq_some_iff, Option.some.injEq] at h
  obtain ⟨path, hpath, recipient, hrecipient, rfl⟩ := h
  have hrecipient := Abi.decodeAddress_eq_some hrecipient
  obtain ⟨-, -, hend, -⟩ := hbounds
  rw [hdata] at hend
  -- the tuple lies inside the calldata, so six words are there
  obtain ⟨w₀, w₁, w₂, w₃, w₄, w₅, ws, rfl⟩ := exists_tuple (show 6 ≤ ps.length by omega)
  refine ⟨⟨w₀, w₁, w₂, w₃, w₄, w₅, ws, rfl, ?_, ?_, ?_, ?_⟩, hpath⟩
  · rw [← hrecipient]
    exact (load_calldataOf (j := 2) rfl).symm
  · exact (load_calldataOf (j := 3) rfl).symm
  · exact (load_calldataOf (j := 4) rfl).symm
  · exact (load_calldataOf (j := 5) rfl).symm

/-- Where the offsets are the usual ones, what the decoder accepts is laid out as the plugin expects
it. -/
theorem header_of_decode {ps : List ParamBuffer} {params : ExactInputParams}
    (hoffsets : UsualOffsets (calldataOf ps))
    (h : decodeExactInput (calldataOf ps) = some params) :
    ∃ header ws, ps = header ++ ws ∧
      header.map ParamBuffer.word = exactInputHeader params.recipient params.deadline
        params.amountIn params.amountOutMinimum params.path.length ∧
      PathWords params.path ws := by
  obtain ⟨⟨w₀, w₁, w₂, w₃, w₄, w₅, ws, rfl, h₂, h₃, h₄, h₅⟩, hpath⟩ :=
    tuple_of_decode hoffsets.tuple h
  obtain ⟨htuple, hoffset⟩ := hoffsets
  rw [hoffset] at hpath
  obtain ⟨hlength, hend, hbytes⟩ := Abi.decodeBytes_eq_some hpath
  rw [calldataOf, Abi.calldata_length, List.length_map] at hend
  -- the length of the path lies inside the calldata, so a seventh word is there
  obtain _ | ⟨w₆, ws⟩ := ws
  · simp only [List.length_append, List.length_cons, List.length_nil] at hend
    omega
  set ps := [w₀, w₁, w₂, w₃, w₄, w₅] ++ w₆ :: ws with hps
  have hnumber {w : Word} {v : ℕ} (hw : w.toNat = v) : w = Bytes.ofNat parameterLength v := by
    rw [← hw, Bytes.ofNat_toNat]
  have h₀ : Abi.load (calldataOf ps) 0 = w₀.word := load_calldataOf (j := 0) rfl
  have h₁ : Abi.load (calldataOf ps) 0x20 = w₁.word := load_calldataOf (j := 1) rfl
  have h₆ : Abi.load (calldataOf ps) 0xc0 = w₆.word := load_calldataOf (j := 6) rfl
  refine ⟨[w₀, w₁, w₂, w₃, w₄, w₅, w₆], ws, rfl, ?_, ?_, ?_⟩
  · simp only [List.map_cons, List.map_nil, exactInputHeader, headerWords, h₂, h₃, h₄, h₅,
      ← hnumber (h₀ ▸ htuple), ← hnumber (h₁ ▸ hoffset), ← hnumber (h₆ ▸ hlength)]
  · simp only [hps, List.length_append, List.length_cons, List.length_nil] at hend
    omega
  · intro j p hj i hi
    have hget : ps[j + 7]? = some p := hj
    have hword := congrFun (load_calldataOf hget) i
    rw [Abi.load, Bytes.ofList_apply] at hword
    rw [← hword, ← hbytes _ hi,
      show 0x20 + 0xa0 + 32 + (32 * j + i.val) = 32 * (j + 7) + i by omega]

/-- Where the tuple is at its usual place, its fields are recorded, wherever the path is. -/
theorem tupleFields_of_decode (t : Transaction) (h : t.selector = .uniswapRouterExactInput)
    {ps : List ParamBuffer} {params : ExactInputParams}
    (htuple : (Abi.load (calldataOf ps) 0).toNat = 0x20)
    (hdecode : decodeExactInput (calldataOf ps) = some params) :
    (t.parsed ps).tupleFields = (params.recipient, params.amountIn, params.amountOutMinimum) := by
  obtain ⟨⟨w₀, w₁, w₂, w₃, w₄, w₅, ws, rfl, h₂, -, h₄, h₅⟩, -⟩ := tuple_of_decode htuple hdecode
  obtain ⟨hpast, hfields⟩ := run_tuple t.tx w₀ w₁ w₂ w₃ w₄ w₅
  rw [Transaction.parsed, t.start_exactInput h, Machine.run_append, tupleFields_run t.tx hpast,
    hfields, h₂, h₄, h₅, Abi.address_addressWord]

/-- **What the plugin records is what the router decodes** for calls with the usual offsets, and no
call whose copies stay inside their fields is refused, whatever its offsets.  The fields of the
tuple need only the first of the two offsets.  The bound on the words after the path leaves out the
copy of negative length, from which `memcpy` may not come back. -/
theorem recorded_eq_decoded (t : Transaction) (h : t.selector = .uniswapRouterExactInput)
    (ps : List ParamBuffer) :
    ((∀ copy ∈ t.copies ps, copy.WritesInBounds) →
        (∀ call ∈ t.calls ps, call.result = .ok) ∧
          ∀ user, (t.finalized ps user).result = .ok) ∧
      ∀ params, decodeExactInput (calldataOf ps) = some params →
        ((Abi.load (calldataOf ps) 0).toNat = 0x20 →
          (∀ copy ∈ t.copies ps, copy.WritesInBounds) →
          (t.parsed ps).beneficiary = params.recipient ∧
            (t.parsed ps).amountSent = params.amountIn ∧
            (t.parsed ps).minAmountReceived = params.amountOutMinimum) ∧
        ∀ n, params.path.length = 20 + 23 * n → 2 ≤ n → n ≤ 357 → UsualOffsets (calldataOf ps) →
          (ps.length = 7 + (params.path.length + 31) / 32 ∨ 12 ≤ 23 * n % 32) →
          RecordsExactInput t ps params.path params.recipient params.amountIn
            params.amountOutMinimum := by
  refine ⟨fun _ => ⟨t.calls_ok ps, t.finalized_ok ps⟩, ?_⟩
  intro params hdecode
  constructor
  · intro htuple _
    have hfields := tupleFields_of_decode t h htuple hdecode
    simpa only [Context.tupleFields, Prod.mk.injEq] using hfields
  · intro n hlen h2 h357 hoffsets hend
    obtain ⟨header, ws, rfl, hheader, hpath⟩ := header_of_decode hoffsets hdecode
    have hseven : header.length = 7 := by
      rw [← List.length_map, hheader]
      rfl
    rw [List.length_append, hseven] at hend
    rw [recordsPath_iff t h (by omega) (by omega) hheader hpath,
      receivedPosition_eq (by omega) (by omega)]
    have hhops : params.path.length - 20 = 23 * n := by omega
    rw [receivedIndex, Nat.mod_eq_of_lt (by omega), hhops]
    refine ⟨?_, rfl⟩
    omega

/-- The usual offsets of a canonical call, whatever surrounds its words. -/
theorem usualOffsets_call {ps : List ParamBuffer} (params : ExactInputParams)
    (hps : ps.map ParamBuffer.word = exactInputCall params.path params.recipient params.deadline
      params.amountIn params.amountOutMinimum) : UsualOffsets (calldataOf ps) := by
  have hload (j : ℕ) := Abi.load_calldata (ps.map ParamBuffer.word) j
  rw [hps] at hload
  have h0 : Abi.load (calldataOf ps) 0 = Bytes.ofNat parameterLength 0x20 := by
    rw [calldataOf, hps]
    exact hload 0
  have h1 : Abi.load (calldataOf ps) 0x20 = Bytes.ofNat parameterLength 0xa0 := by
    rw [calldataOf, hps]
    exact hload 1
  exact ⟨by rw [h0, Bytes.toNat_ofNat_of_lt (by decide)],
    by rw [h1, Bytes.toNat_ofNat_of_lt (by decide)]⟩

/-- Two hops, with the words of the canonical encoding. -/
def twoHops (b : UInt8) : ExactInputParams where
  path := List.replicate 66 b
  recipient := oethAddress
  deadline := 0
  amountIn := Bytes.ofNat parameterLength 5
  amountOutMinimum := Bytes.ofNat parameterLength 6

theorem recorded_eq_decoded_two :
    let call := exactInputCall (twoHops 1).path (twoHops 1).recipient (twoHops 1).deadline
      (twoHops 1).amountIn (twoHops 1).amountOutMinimum
    RecordsExactInput uniswapTransaction (zeroPadded call) (twoHops 1).path (twoHops 1).recipient
        (twoHops 1).amountIn (twoHops 1).amountOutMinimum ∧
      (∀ handled ∈ uniswapTransaction.calls (zeroPadded call), handled.result = .ok) ∧
      ∀ user, (uniswapTransaction.finalized (zeroPadded call) user).result = .ok := by
  intro call
  have hlen : (twoHops 1).path.length = 20 + 23 * 2 := List.length_replicate
  have hdecode : decodeExactInput (calldataOf (zeroPadded call)) = some (twoHops 1) := by
    rw [calldataOf, map_word_zeroPadded]
    exact decodeExactInput_call _ (by rw [hlen]; decide)
  obtain ⟨haccepted, hrecorded⟩ :=
    recorded_eq_decoded uniswapTransaction (by decide) (zeroPadded call)
  have hrecords := (hrecorded (twoHops 1) hdecode).2 2 hlen le_rfl (by omega)
    (usualOffsets_call _ (map_word_zeroPadded _)) (Or.inr (by decide))
  exact ⟨hrecords, haccepted hrecords.1⟩

/-! ### Calls with another offset -/

/-- A call with a second path where the plugin looks for the path. -/
def decoyCall (decoy : List UInt8) (params : ExactInputParams) : List Word :=
  let between := Bytes.ofNat parameterLength decoy.length :: Abi.padWords decoy
  tupleWords (0xa0 + 32 * between.length) params ++ between ++
    Bytes.ofNat parameterLength params.path.length :: Abi.padWords params.path

/-- **A decoy is recorded in place of the path** that the router decodes. -/
theorem decoy_recorded (t : Transaction) (h : t.selector = .uniswapRouterExactInput)
    {decoy : List UInt8} {params : ExactInputParams} {ps : List ParamBuffer}
    (h52 : 52 ≤ decoy.length) (h8243 : decoy.length ≤ 8243) (hspill : 12 ≤ (decoy.length - 20) % 32)
    (hpath : params.path.length ≤ Abi.maxOffset)
    (hps : ps.map ParamBuffer.word = decoyCall decoy params) :
    decodeExactInput (calldataOf ps) = some params ∧
      RecordsExactInput t ps decoy params.recipient params.amountIn params.amountOutMinimum := by
  constructor
  · have hdecode := decodeExactInput_tupleWords params
      (Bytes.ofNat parameterLength decoy.length :: Abi.padWords decoy) [] hpath
      (by simp [Abi.padWords_length, Abi.maxOffset]; omega)
    rw [List.append_nil] at hdecode
    rw [calldataOf, hps]
    exact hdecode
  · obtain ⟨front, rest, rfl, hfront, -⟩ := List.map_eq_append_iff.1 hps
    obtain ⟨tuple, between, rfl, htuple, hbetween⟩ := List.map_eq_append_iff.1 hfront
    obtain ⟨length, ws, rfl, hlength, hws⟩ := List.map_eq_cons_iff.1 hbetween
    have hheader := tupleWords_append
      (0xa0 + 32 * (Bytes.ofNat parameterLength decoy.length :: Abi.padWords decoy).length)
      params decoy.length
    rw [← htuple, ← hlength, ← List.map_singleton, ← List.map_append] at hheader
    rw [show tuple ++ length :: ws ++ rest = (tuple ++ [length]) ++ (ws ++ rest) by simp,
      recordsPath_iff t h h52 (by omega) hheader (pathWords_of_map hws rest),
      receivedPosition_eq h52 h8243]
    exact ⟨Or.inr hspill, rfl⟩

/-- A call that trades along one path and shows another is accepted, with every copy inside its
field. -/
theorem decoy_accepted :
    let ps := zeroPadded (decoyCall (twoHops 1).path (twoHops 2))
    (∀ copy ∈ uniswapTransaction.copies ps, copy.WritesInBounds) ∧
      (∀ call ∈ uniswapTransaction.calls ps, call.result = .ok) ∧
      (uniswapTransaction.finalized ps nullEthAddress).result = .ok ∧
      decodeExactInput (calldataOf ps) = some (twoHops 2) ∧
      (twoHops 2).path.length = 20 + 23 * 2 ∧
      (uniswapTransaction.parsed ps).contractAddressSent ≠ Bytes.ofList (twoHops 2).path 0 := by
  have hlen (b : UInt8) : (twoHops b).path.length = 66 := List.length_replicate
  have hwords := map_word_zeroPadded (decoyCall (twoHops 1).path (twoHops 2))
  obtain ⟨hdecode, hcopies, hsent, -⟩ := decoy_recorded uniswapTransaction (by decide)
    (by rw [hlen]; decide) (by rw [hlen]; decide) (by rw [hlen]; decide) (by rw [hlen]; decide)
    hwords
  refine ⟨hcopies, uniswapTransaction.calls_ok _, uniswapTransaction.finalized_ok _ _, hdecode,
    hlen 2, ?_⟩
  rw [hsent]
  intro heq
  have := congrFun heq 0
  revert this
  decide

end OriginDefi
