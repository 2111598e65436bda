import OriginDefi.PathScan

/-!
# Calls of `exactInput` in their ABI encoding

`exactInputCall` is the canonical encoding of a call.  `recordsExactInput_iff` says for every path
of 20 to 65535 bytes when the plugin records the call: a path shorter than 52 bytes ends before the
received token is looked for, and from 8244 bytes on the 8-bit counter wraps and the plugin looks
8192 bytes too early for every turn.

`exactInput_iff` is the same in terms of hops, each of which adds 23 bytes to the path, and
`recordsTokens_iff_length` names the lengths for which no path goes wrong: 52 to 8243 bytes.
-/

namespace OriginDefi

/-- The words before the bytes of the path, where the plugin looks for them: two offsets, the other
fields of the tuple, and the length of the path. -/
def headerWords (w₀ w₁ : Word) (recipient : Address) (deadline amountIn amountOutMinimum : Word)
    (L : ℕ) : List Word :=
  [w₀, w₁, Abi.addressWord recipient, deadline, amountIn, amountOutMinimum,
    Bytes.ofNat parameterLength L]

/-- The words of a call before the bytes of the path. -/
def exactInputHeader (recipient : Address) (deadline amountIn amountOutMinimum : Word) (L : ℕ) :
    List Word :=
  headerWords (Bytes.ofNat parameterLength 0x20) (Bytes.ofNat parameterLength 0xa0) recipient
    deadline amountIn amountOutMinimum L

/-- The words of `exactInput((path, recipient, deadline, amountIn, amountOutMinimum))`. -/
def exactInputCall (path : List UInt8) (recipient : Address)
    (deadline amountIn amountOutMinimum : Word) : List Word :=
  exactInputHeader recipient deadline amountIn amountOutMinimum path.length ++ Abi.padWords path

/-- The context before the path of a call. -/
def callContext (recipient : Address) (amountIn amountOutMinimum : Word) (L : ℕ) : Context :=
  pathContext (Abi.addressWord recipient) amountIn amountOutMinimum (Bytes.ofNat parameterLength L)

theorem callContext_scansPath (recipient : Address) (amountIn amountOutMinimum : Word) (L : ℕ) :
    (callContext recipient amountIn amountOutMinimum L).ScansPath := ⟨rfl, rfl, rfl⟩

theorem callContext_offset (recipient : Address) (amountIn amountOutMinimum : Word) {L : ℕ}
    (h : L ≤ 65535) : (callContext recipient amountIn amountOutMinimum L).offset.toNat = L :=
  u2be_ofNat (by omega)

/-- The number of words of an encoded path. -/
theorem length_of_map {path : List UInt8} {ws : List ParamBuffer}
    (hws : ws.map ParamBuffer.word = Abi.padWords path) : ws.length = (path.length + 31) / 32 := by
  rw [← Abi.padWords_length, ← hws, List.length_map]

theorem pathWords_of_map {path : List UInt8} {ws : List ParamBuffer}
    (hws : ws.map ParamBuffer.word = Abi.padWords path) (extra : List ParamBuffer) :
    PathWords path (ws ++ extra) := by
  have hlen := length_of_map hws
  refine ⟨by rw [List.length_append]; omega, ?_⟩
  intro j p hj i hi
  have hget : (ws.map ParamBuffer.word)[j]? = some (Bytes.ofList path (32 * j)) := by
    rw [hws, Abi.padWords_get path (by omega)]
  have hword : p.word = Bytes.ofList path (32 * j) := by
    rw [List.getElem?_append_left (by omega)] at hj
    rw [List.getElem?_map, hj, Option.map_some, Option.some_inj] at hget
    exact hget
  rw [hword, Bytes.ofList_apply]

variable (t : Transaction)

theorem Transaction.start_exactInput (h : t.selector = .uniswapRouterExactInput) :
    t.start = initialContext .uniswapRouterExactInput .beneficiary 2 := by
  obtain ⟨nextParam, skip, hparser, hstart⟩ := t.start_eq
  rw [h] at hparser hstart
  cases hparser
  exact hstart

section Call

variable {path : List UInt8} {recipient : Address} {deadline amountIn amountOutMinimum : Word}
variable {w₀ w₁ : Word} {ps : List ParamBuffer}

/-- The words before the path bring the parser to the path, whatever the two offsets are. -/
theorem parsed_header (h : t.selector = .uniswapRouterExactInput) {L : ℕ}
    {header : List ParamBuffer}
    (hheader : header.map ParamBuffer.word =
      headerWords w₀ w₁ recipient deadline amountIn amountOutMinimum L) (ws : List ParamBuffer) :
    t.parsed (header ++ ws) =
        (parser t.tx).run (callContext recipient amountIn amountOutMinimum L) ws ∧
      t.copies (header ++ ws) =
        headerCopies ++
          parserCopies t.tx (callContext recipient amountIn amountOutMinimum L) ws := by
  simp only [headerWords, List.map_eq_cons_iff, List.map_eq_nil_iff] at hheader
  obtain ⟨_, _, rfl, -, _, _, rfl, -, _, _, rfl, h₂, _, _, rfl, -, _, _, rfl, h₄, _, _, rfl, h₅,
    _, _, rfl, h₆, rfl⟩ := hheader
  constructor
  · rw [Transaction.parsed, t.start_exactInput h, Machine.run_append, run_header, h₂, h₄, h₅, h₆]
    rfl
  · rw [Transaction.copies, t.start_exactInput h, parserCopies_append, run_header, copies_header,
      h₂, h₄, h₅, h₆]
    rfl

/-- What a stream of the call should leave behind, without a write outside a field. -/
def RecordsExactInput (ps : List ParamBuffer) (path : List UInt8) (recipient : Address)
    (amountIn amountOutMinimum : Word) : Prop :=
  (∀ copy ∈ t.copies ps, copy.WritesInBounds) ∧
    (t.parsed ps).contractAddressSent = Bytes.ofList path 0 ∧
    (t.parsed ps).contractAddressReceived = Bytes.ofList path (path.length - addressLength) ∧
    (t.parsed ps).beneficiary = recipient ∧
    (t.parsed ps).amountSent = amountIn ∧
    (t.parsed ps).minAmountReceived = amountOutMinimum

/-- The copies before the received token, and its first copy, stay inside their fields. -/
theorem writesInBounds_front (offset : UInt16) :
    ∀ copy ∈ headerCopies ++ [sentCopy, receivedCopy offset], copy.WritesInBounds := by
  have hheader : ∀ copy ∈ headerCopies, copy.WritesInBounds := by decide
  have hsent : sentCopy.WritesInBounds := by decide
  have hreceived : (receivedCopy offset).WritesInBounds :=
    ⟨by simp [receivedCopy, paramCopy], by simp [receivedCopy, paramCopy],
      by simp [receivedCopy, paramCopy]⟩
  simp only [List.mem_append, List.mem_cons, List.not_mem_nil, or_false]
  rintro copy (hcopy | rfl | rfl)
  exacts [hheader _ hcopy, hsent, hreceived]

/-- The second copy of the received token stays inside the field if and only if something, or
exactly nothing, spills over. -/
theorem writesInBounds_rest {offset : UInt16} {L : ℕ} (ho : offset.toNat = L) (h : 20 ≤ L) :
    (receivedRestCopy offset).WritesInBounds ↔ 12 ≤ (L - 20) % 32 := by
  simp only [Memcpy.WritesInBounds, receivedRestCopy, paramCopy, pathRemainder_eq ho h,
    parameterLength, addressLength]
  omega

/-- The header and the words of a path of at least 52 bytes, whatever follows it. -/
theorem parsed_path (h : t.selector = .uniswapRouterExactInput)
    (h52 : 52 ≤ path.length) (hmax : path.length ≤ 65535) {header ws : List ParamBuffer}
    (hheader : header.map ParamBuffer.word =
      headerWords w₀ w₁ recipient deadline amountIn amountOutMinimum path.length)
    (hpath : PathWords path ws) :
    t.parsed (header ++ ws) =
        { callContext recipient amountIn amountOutMinimum path.length with
          contractAddressSent := Bytes.ofList path 0
          contractAddressReceived := Bytes.ofList path (receivedPosition path.length)
          skip := 0
          nextParam :=
            if ws.length = receivedIndex path.length + 1 then .tokenReceivedRest else .none } ∧
      t.copies (header ++ ws) =
        headerCopies ++ [sentCopy, receivedCopy (u2be (Bytes.ofNat parameterLength path.length))] ++
          if ws.length = receivedIndex path.length + 1 then []
          else [receivedRestCopy (u2be (Bytes.ofNat parameterLength path.length))] := by
  obtain ⟨hparsed, hcopies⟩ := parsed_header t h hheader ws
  obtain ⟨hrun, hcopies'⟩ := run_pathWords t.tx
    (callContext_scansPath recipient amountIn amountOutMinimum path.length)
    (callContext_offset _ _ _ hmax) h52 hpath
  rw [hparsed, hrun, hcopies, hcopies', List.append_assoc]
  exact ⟨rfl, rfl⟩

/-- **When the plugin records a path of at least 52 bytes**, whatever follows it: it looks at the
right bytes, or at bytes that happen to be the same, and it makes no second copy of negative
length. -/
theorem recordsPath_iff (h : t.selector = .uniswapRouterExactInput)
    (h52 : 52 ≤ path.length) (hmax : path.length ≤ 65535) {header ws : List ParamBuffer}
    (hheader : header.map ParamBuffer.word =
      headerWords w₀ w₁ recipient deadline amountIn amountOutMinimum path.length)
    (hpath : PathWords path ws) :
    RecordsExactInput t (header ++ ws) path recipient amountIn amountOutMinimum ↔
      (ws.length = receivedIndex path.length + 1 ∨ 12 ≤ (path.length - 20) % 32) ∧
      (Bytes.ofList path (receivedPosition path.length) : Address) =
        Bytes.ofList path (path.length - addressLength) := by
  obtain ⟨hparsed, hcopies⟩ := parsed_path t h h52 hmax hheader hpath
  have hwrites : (∀ copy ∈ t.copies (header ++ ws), copy.WritesInBounds) ↔
      ws.length = receivedIndex path.length + 1 ∨ 12 ≤ (path.length - 20) % 32 := by
    rw [hcopies, List.forall_mem_append, and_iff_right (writesInBounds_front _)]
    by_cases hend : ws.length = receivedIndex path.length + 1
    · rw [if_pos hend]
      exact iff_of_true (by simp) (Or.inl hend)
    · rw [if_neg hend, List.forall_mem_singleton,
        writesInBounds_rest (u2be_ofNat (by omega)) (by omega), or_iff_right hend]
  rw [RecordsExactInput, hwrites, hparsed]
  simp [callContext, pathContext, initialContext]

/-- A canonical call ends with the word of the received token unless the counter has wrapped or the
token spills over. -/
theorem recordsExactInput_iff (h : t.selector = .uniswapRouterExactInput)
    (h52 : 52 ≤ path.length) (hmax : path.length ≤ 65535)
    (hps : ps.map ParamBuffer.word =
      exactInputCall path recipient deadline amountIn amountOutMinimum) :
    RecordsExactInput t ps path recipient amountIn amountOutMinimum ↔
      (path.length ≤ 8243 ∨ 12 ≤ (path.length - 20) % 32) ∧
      (Bytes.ofList path (receivedPosition path.length) : Address) =
        Bytes.ofList path (path.length - addressLength) := by
  obtain ⟨header, ws, rfl, hheader, hws⟩ := List.map_eq_append_iff.1 hps
  have hlen := length_of_map hws
  have hpath := pathWords_of_map hws []
  rw [List.append_nil] at hpath
  rw [recordsPath_iff t h h52 hmax hheader hpath, hlen, receivedIndex]
  refine and_congr_left fun _ => ?_
  omega

/-- A path shorter than 52 bytes ends before the received token is looked for. -/
theorem parsed_short (h : t.selector = .uniswapRouterExactInput)
    (h20 : 20 ≤ path.length) (h52 : path.length < 52)
    (hps : ps.map ParamBuffer.word =
      exactInputCall path recipient deadline amountIn amountOutMinimum) :
    (∀ copy ∈ t.copies ps, copy.WritesInBounds) ∧
      (t.parsed ps).contractAddressSent = Bytes.ofList path 0 ∧
      (t.parsed ps).contractAddressReceived = nullEthAddress ∧
      (t.parsed ps).beneficiary = recipient ∧
      (t.parsed ps).amountSent = amountIn ∧
      (t.parsed ps).minAmountReceived = amountOutMinimum := by
  obtain ⟨header, ws, rfl, hheader, hws⟩ := List.map_eq_append_iff.1 hps
  obtain ⟨hparsed, hcopies⟩ := parsed_header t h hheader ws
  have hlen := length_of_map hws
  have ho := callContext_offset recipient amountIn amountOutMinimum
    (show path.length ≤ 65535 by omega)
  obtain ⟨-, hpath⟩ := pathWords_of_map hws []
  obtain _ | ⟨first, skipped⟩ := ws
  · rw [List.length_nil] at hlen
    omega
  rw [List.length_cons] at hlen
  have hskip : skipped.length ≤
      (pathSkip (callContext recipient amountIn amountOutMinimum path.length).offset).toNat := by
    rw [pathSkip_short ho h52]
    change skipped.length ≤ 255
    omega
  obtain ⟨hrun, hcopies'⟩ :=
    run_path_skipped t.tx (callContext_scansPath _ _ _ _) first hskip
  have hfirst := sub_holdsPath (hpath 0 first rfl) h20
  rw [hrun, hfirst] at hparsed
  rw [hcopies'] at hcopies
  refine ⟨?_, ?_⟩
  · rw [hcopies]
    decide
  · rw [hparsed]
    simp only [callContext, pathContext, initialContext, Context.zero, Abi.address_addressWord,
      and_true, true_and]
    rfl

/-- Such a path is recorded only if its last token is the null address. -/
theorem recordsExactInput_short_iff (h : t.selector = .uniswapRouterExactInput)
    (h20 : 20 ≤ path.length) (h52 : path.length < 52)
    (hps : ps.map ParamBuffer.word =
      exactInputCall path recipient deadline amountIn amountOutMinimum) :
    RecordsExactInput t ps path recipient amountIn amountOutMinimum ↔
      (Bytes.ofList path (path.length - addressLength) : Address) = nullEthAddress := by
  obtain ⟨hwrites, hsent, hreceived, hrecipient, hamount, hminimum⟩ := parsed_short t h h20 h52 hps
  rw [RecordsExactInput, hreceived]
  constructor
  · rintro ⟨-, -, hlast, -⟩
    exact hlast.symm
  · intro hlast
    exact ⟨hwrites, hsent, hlast.symm, hrecipient, hamount, hminimum⟩

/-! ### Hops -/

/-- The bytes of a path of `n` hops that the plugin takes for the received token are its last 20
bytes, and it can take them without a copy of negative length.  With one hop it takes none. -/
def ReadsLastToken (n : ℕ) (path : List UInt8) : Prop :=
  if n = 1 then (Bytes.ofList path 23 : Address) = nullEthAddress
  else n ≤ 357 ∨ 12 ≤ 23 * n % 32 ∧
    (Bytes.ofList path (receivedPosition path.length) : Address) = Bytes.ofList path (23 * n)

/-- **When the plugin records a call of `n` hops**: always for 2 to 357 hops; otherwise only where
the bytes it takes for the received token happen to be the right ones. -/
theorem exactInput_iff (h : t.selector = .uniswapRouterExactInput) {n : ℕ} (hn : 1 ≤ n)
    (hlen : path.length = 20 + 23 * n) (hmax : path.length ≤ 65535)
    (hps : ps.map ParamBuffer.word =
      exactInputCall path recipient deadline amountIn amountOutMinimum) :
    RecordsExactInput t ps path recipient amountIn amountOutMinimum ↔ ReadsLastToken n path := by
  have hlast : path.length - addressLength = 23 * n := by
    rw [hlen, addressLength]
    omega
  unfold ReadsLastToken
  by_cases hone : n = 1
  · subst hone
    rw [if_pos rfl, recordsExactInput_short_iff t h (by omega) (by omega) hps, hlast]
  · rw [if_neg hone, recordsExactInput_iff t h (by omega) hmax hps, hlast]
    by_cases hsmall : n ≤ 357
    · have heq : receivedPosition path.length = 23 * n := by
        rw [receivedPosition_eq (by omega) (by omega)]
        omega
      rw [heq]
      exact iff_of_true ⟨Or.inl (by omega), rfl⟩ (Or.inl hsmall)
    · rw [or_iff_right (by omega), or_iff_right hsmall]

end Call

/-- A call to the Uniswap router. -/
def uniswapTransaction : Transaction where
  init := .plain ![0xc0, 0x4b, 0x8d, 0x59] nullEthAddress
  accepted := by decide

/-- A path of `n` hops without a zero byte. -/
def onesPath (n : ℕ) : List UInt8 := List.replicate (20 + 23 * n) 1

theorem exactInput_iff_two :
    RecordsExactInput uniswapTransaction
        (zeroPadded
          (exactInputCall (onesPath 2) oethAddress 0 (Bytes.ofNat 32 5) (Bytes.ofNat 32 6)))
        (onesPath 2) oethAddress (Bytes.ofNat 32 5) (Bytes.ofNat 32 6) ↔
      ReadsLastToken 2 (onesPath 2) :=
  exactInput_iff uniswapTransaction (by decide) (by decide) (by simp [onesPath])
    (by simp [onesPath]) (map_word_zeroPadded _)

/-- On a path of one hop every copy stays inside its field, but the received token stays zero, which
is not what the path ends with. -/
theorem exactInput_one_hop :
    let ps := zeroPadded
      (exactInputCall (onesPath 1) oethAddress 0 (Bytes.ofNat 32 5) (Bytes.ofNat 32 6))
    (∀ copy ∈ uniswapTransaction.copies ps, copy.WritesInBounds) ∧
      (uniswapTransaction.parsed ps).contractAddressReceived = nullEthAddress ∧
      (uniswapTransaction.parsed ps).contractAddressReceived ≠ Bytes.ofList (onesPath 1) 23 := by
  intro ps
  have hps := map_word_zeroPadded
    (exactInputCall (onesPath 1) oethAddress 0 (Bytes.ofNat 32 5) (Bytes.ofNat 32 6))
  obtain ⟨hwrites, -, hreceived, -⟩ :=
    parsed_short uniswapTransaction (by decide) (by simp [onesPath]) (by simp [onesPath]) hps
  refine ⟨hwrites, hreceived, ?_⟩
  rw [hreceived]
  decide

/-! ### The range of path lengths -/

section Range

variable {path : List UInt8} {recipient : Address} {deadline amountIn amountOutMinimum : Word}
variable {ps : List ParamBuffer}

/-- What a stream of the call should leave behind of the path, without a write outside a field. -/
def RecordsTokens (ps : List ParamBuffer) (path : List UInt8) : Prop :=
  (∀ copy ∈ t.copies ps, copy.WritesInBounds) ∧
    (t.parsed ps).contractAddressSent = Bytes.ofList path 0 ∧
    (t.parsed ps).contractAddressReceived = Bytes.ofList path (path.length - addressLength)

/-- The fields of the tuple are recorded whatever the path is. -/
theorem recordsTokens_iff (h : t.selector = .uniswapRouterExactInput)
    (hps : ps.map ParamBuffer.word =
      exactInputCall path recipient deadline amountIn amountOutMinimum) :
    RecordsTokens t ps path ↔
      RecordsExactInput t ps path recipient amountIn amountOutMinimum := by
  obtain ⟨header, ws, rfl, hheader, -⟩ := List.map_eq_append_iff.1 hps
  obtain ⟨hparsed, -⟩ := parsed_header t h hheader ws
  have hfields : (t.parsed (header ++ ws)).tupleFields =
      (recipient, amountIn, amountOutMinimum) := by
    rw [hparsed, tupleFields_run t.tx ⟨rfl, by simp [callContext, pathContext, initialContext]⟩]
    simp [callContext, pathContext, Context.tupleFields]
  simp only [Context.tupleFields, Prod.mk.injEq] at hfields
  constructor
  · rintro ⟨hwrites, hsent, hreceived⟩
    exact ⟨hwrites, hsent, hreceived, hfields⟩
  · rintro ⟨hwrites, hsent, hreceived, -⟩
    exact ⟨hwrites, hsent, hreceived⟩

/-- From 8244 bytes on the plugin looks for the received token before the last 20 bytes. -/
theorem receivedPosition_lt {L : ℕ} (h : 8244 ≤ L) : receivedPosition L + 20 < L := by
  have := Nat.mod_lt ((L - 20) / 32 - 1) (show 0 < 256 by omega)
  unfold receivedPosition receivedIndex
  omega

/-- A path whose only nonzero byte is its last one. -/
def lastBytePath (L : ℕ) : List UInt8 := List.replicate (L - 1) 0 ++ [1]

theorem lastBytePath_length {L : ℕ} (h : 1 ≤ L) : (lastBytePath L).length = L := by
  rw [lastBytePath, List.length_append, List.length_replicate, List.length_singleton]
  omega

/-- Only the window at the end of the path holds its last byte. -/
theorem ofList_lastBytePath {L : ℕ} (pos : ℕ) (h : 20 ≤ L) (hpos : pos + 20 ≤ L) :
    (Bytes.ofList (lastBytePath L) pos : Address) 19 = if pos + 20 = L then 1 else 0 := by
  have h19 : (19 : Fin addressLength).val = 19 := rfl
  rw [Bytes.ofList_apply, h19, lastBytePath, List.getD_eq_getElem?_getD]
  split_ifs with hlast
  · rw [List.getElem?_append_right (by simp; omega), List.length_replicate,
      show pos + 19 - (L - 1) = 0 by omega]
    rfl
  · rw [List.getElem?_append_left (by simp; omega), List.getElem?_replicate_of_lt (by omega)]
    rfl

/-- At every length outside the range the path above goes wrong. -/
theorem not_recordsExactInput_lastBytePath (h : t.selector = .uniswapRouterExactInput) {L : ℕ}
    (h20 : 20 ≤ L) (hmax : L ≤ 65535) (hout : L < 52 ∨ 8243 < L)
    (hps : ps.map ParamBuffer.word =
      exactInputCall (lastBytePath L) recipient deadline amountIn amountOutMinimum) :
    ¬RecordsExactInput t ps (lastBytePath L) recipient amountIn amountOutMinimum := by
  have hlen : (lastBytePath L).length = L := lastBytePath_length (by omega)
  have hlast := ofList_lastBytePath (L - 20) h20 (by omega)
  rw [if_pos (by omega)] at hlast
  intro hrecords
  rcases hout with hshort | hlong
  · -- the received token stays zero
    rw [recordsExactInput_short_iff t h (by omega) (by omega) hps, hlen] at hrecords
    rw [hrecords] at hlast
    exact absurd hlast (by decide)
  · -- the received token is taken from bytes that are all zero
    rw [recordsExactInput_iff t h (by omega) (by omega) hps, hlen] at hrecords
    have hbefore := receivedPosition_lt (L := L) (by omega)
    have hzero := ofList_lastBytePath (receivedPosition L) h20 (by omega)
    rw [if_neg (by omega), hrecords.2, hlast] at hzero
    exact absurd hzero (by decide)

end Range

/-- **The lengths for which every path is recorded**, whatever the other arguments and the memory
around the parameters hold. -/
theorem recordsTokens_iff_length (h : t.selector = .uniswapRouterExactInput) {L : ℕ}
    (h20 : 20 ≤ L) (hmax : L ≤ 65535) :
    (∀ (path : List UInt8) (recipient : Address) (deadline amountIn amountOutMinimum : Word)
        (ps : List ParamBuffer), path.length = L →
        ps.map ParamBuffer.word =
          exactInputCall path recipient deadline amountIn amountOutMinimum →
        RecordsTokens t ps path) ↔
      52 ≤ L ∧ L ≤ 8243 := by
  constructor
  · intro hall
    by_contra hout
    have hps := map_word_zeroPadded (exactInputCall (lastBytePath L) nullEthAddress 0 0 0)
    have htokens := hall _ _ _ _ _ _ (lastBytePath_length (by omega)) hps
    rw [recordsTokens_iff t h hps] at htokens
    exact not_recordsExactInput_lastBytePath t h h20 hmax (by omega) hps htokens
  · rintro ⟨h52, h8243⟩ path recipient deadline amountIn amountOutMinimum ps rfl hps
    rw [recordsTokens_iff t h hps, recordsExactInput_iff t h h52 hmax hps,
      receivedPosition_eq h52 h8243]
    exact ⟨Or.inl h8243, rfl⟩

theorem recordsTokens_iff_length_two_hops :
    (∀ (path : List UInt8) (recipient : Address) (deadline amountIn amountOutMinimum : Word)
        (ps : List ParamBuffer), path.length = 66 →
        ps.map ParamBuffer.word =
          exactInputCall path recipient deadline amountIn amountOutMinimum →
        RecordsTokens uniswapTransaction ps path) ↔
      52 ≤ 66 ∧ 66 ≤ 8243 :=
  recordsTokens_iff_length uniswapTransaction (by decide) (by decide) (by decide)

end OriginDefi
