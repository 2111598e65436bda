import OriginDefi.FixedLayout

/-!
# Coins of the Curve pools

`exchange` and `exchange_underlying` name their tokens by 256-bit indices.  The plugin looks at the
last byte of an index only, and where the pool has no coin at that byte it prints "Param not
supported", leaves the address zero and goes on.  All-zero is also how it writes the network token.

`curvePool_coins_iff`: the recorded addresses are the coins the call names exactly when both
indices, as 256-bit numbers, are indices of the pool's table.
-/

namespace OriginDefi

variable (t : Transaction)

theorem Selector.isFixed_of_isCurvePool {s : Selector} (h : s.isCurvePool) : s.isFixed := by
  cases s <;> first | rfl | exact absurd h (by decide)

/-- The table of a pool has at most four coins. -/
theorem curvePoolTable_length_le (destination : Address) :
    (curvePoolTable destination).length ≤ 4 := by
  unfold curvePoolTable
  split_ifs <;> simp

/-- Below 256 a word is its last byte. -/
theorem Word.last_of_lt {w : Word} (h : w.toNat < 256) : (w 31).toNat = w.toNat := by
  have hmod : w.toNat % 256 = (w 31).toNat := Bytes.toNat_mod (n := 31) w
  omega

/-- The token fields after the two index words, whatever follows. -/
theorem parsed_pool_tokens (h : t.selector.isCurvePool) (i j : ParamBuffer)
    (rest : List ParamBuffer) :
    (t.parsed (i :: j :: rest)).contractAddressSent =
        ((curvePoolTable t.tx.destination)[(i.word 31).toNat]?).getD nullEthAddress ∧
      (t.parsed (i :: j :: rest)).contractAddressReceived =
        ((curvePoolTable t.tx.destination)[(j.word 31).toNat]?).getD nullEthAddress := by
  have hfixed := Selector.isFixed_of_isCurvePool h
  have hsent := get_parsed t hfixed (i :: j :: rest) .tokenSent
  have hreceived := get_parsed t hfixed (i :: j :: rest) .tokenReceived
  have hposition : t.selector.position .tokenSent = some 0 ∧
      t.selector.position .tokenReceived = some 1 := by
    cases hs : t.selector <;> rw [hs] at h <;> first | exact ⟨rfl, rfl⟩ | exact absurd h (by decide)
  simp only [Slot.get, positional, hposition, Option.bind_some, List.getElem?_cons_zero,
    List.getElem?_cons_succ, Slot.decode, tokenAddress, if_pos h] at hsent hreceived
  exact ⟨hsent, hreceived⟩

/-- What a pool run should record of two index words: if their calls return OK, both indices are
in the table of the pool, the token fields are the coins at these indices, and at the OUSD pool
neither of them is the network token. -/
def RecordsPoolCoins (i j : ParamBuffer) (rest : List ParamBuffer) : Prop :=
  let coins := curvePoolTable t.tx.destination
  let c := t.parsed (i :: j :: rest)
  (∀ call ∈ t.calls [i, j], call.result = .ok) →
    i.word.toNat < coins.length ∧ j.word.toNat < coins.length ∧
    coins[i.word.toNat]? = some c.contractAddressSent ∧
    coins[j.word.toNat]? = some c.contractAddressReceived ∧
    (t.tx.destination = curveOusdPoolAddress →
      c.contractAddressSent ≠ nullEthAddress ∧ c.contractAddressReceived ≠ nullEthAddress)

/-- No coin of the OUSD pool is the network token. -/
theorem null_notMem_curveOusdPool : nullEthAddress ∉ curvePoolTable curveOusdPoolAddress := by
  decide

/-- **Exactly when a pool run names the coins of its call**: both indices are in the table. -/
theorem curvePool_coins_iff (h : t.selector.isCurvePool) (i j : ParamBuffer)
    (rest : List ParamBuffer) :
    RecordsPoolCoins t i j rest ↔
      i.word.toNat < (curvePoolTable t.tx.destination).length ∧
      j.word.toNat < (curvePoolTable t.tx.destination).length := by
  constructor
  · intro hrecords
    obtain ⟨hi, hj, -⟩ := hrecords (t.calls_ok [i, j])
    exact ⟨hi, hj⟩
  · rintro ⟨hi, hj⟩ -
    have hlen := curvePoolTable_length_le t.tx.destination
    obtain ⟨hsent, hreceived⟩ := parsed_pool_tokens t h i j rest
    rw [Word.last_of_lt (by omega), List.getElem?_eq_getElem hi, Option.getD_some] at hsent
    rw [Word.last_of_lt (by omega), List.getElem?_eq_getElem hj, Option.getD_some] at hreceived
    refine ⟨hi, hj, ?_, ?_, ?_⟩
    · rw [hsent, List.getElem?_eq_getElem hi]
    · rw [hreceived, List.getElem?_eq_getElem hj]
    · intro hdest
      rw [hsent, hreceived]
      have hmem : ∀ k (hk : k < (curvePoolTable t.tx.destination).length),
          (curvePoolTable t.tx.destination)[k] ≠ nullEthAddress := by
        intro k hk heq
        refine null_notMem_curveOusdPool ?_
        rw [← hdest, ← heq]
        exact List.getElem_mem hk
      exact ⟨hmem _ hi, hmem _ hj⟩

/-- An `exchange_underlying` call to the OUSD pool. -/
def ousdPoolTransaction : Transaction where
  init := .plain ![0xa6, 0x41, 0x7e, 0xd6] curveOusdPoolAddress
  accepted := by decide

theorem curvePool_coins_iff_ousd : RecordsPoolCoins ousdPoolTransaction (.ofNat 1) (.ofNat 2) [] ↔
    (ParamBuffer.ofNat 1).word.toNat < 4 ∧ (ParamBuffer.ofNat 2).word.toNat < 4 :=
  curvePool_coins_iff ousdPoolTransaction (by decide) (.ofNat 1) (.ofNat 2) []

/-- Index 4 of the OUSD pool, where it has no coin, is recorded without an error. -/
theorem curvePool_unknown_coin :
    ¬RecordsPoolCoins ousdPoolTransaction (.ofNat 4) (.ofNat 1) [] := by
  intro h
  have hok : ∀ call ∈ ousdPoolTransaction.calls [.ofNat 4, .ofNat 1], call.result = .ok := by
    decide
  exact absurd (h hok).1 (by decide)

end OriginDefi
