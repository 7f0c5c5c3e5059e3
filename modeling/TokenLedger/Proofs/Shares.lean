import TokenLedger.Proofs.Conservation

/-! Liquidity tokens and the pools that share one. The name of a liquidity token is its pool's sides
around a fixed text, which may also occur in a side, so that two pools can have one name between
them. Main statements: when they do, and what then holds of all pools of one name. -/
namespace TokenLedger

namespace PoolKey

/-- The text between the sides stands twice in a name: the second pool reads the later one. -/
def Overlaps (k k' : PoolKey) : Prop :=
  (∃ x : String, k'.a.text = k.a.text ++ "-SWAP-" ++ x ∧
      k.b.text = x ++ "-SWAP-" ++ k'.b.text) ∨
    k'.a.text = k.a.text ++ "-SWAP" ∧ k.b.text = "SWAP-" ++ k'.b.text

variable {k k' : PoolKey}

theorem separator_border {n : Nat} (hn : n ≤ 6)
    (h : "-SWAP-".toList.drop n = "-SWAP-".toList.take (6 - n)) : n = 0 ∨ n = 5 ∨ n = 6 := by
  revert n
  decide

theorem separator_append_iff {c b b' : List Char} :
    "-SWAP-".toList ++ b = c ++ ("-SWAP-".toList ++ b') ↔
      c = [] ∧ b = b' ∨ (∃ x, c = "-SWAP-".toList ++ x ∧ b = x ++ ("-SWAP-".toList ++ b')) ∨
        c = "-SWAP".toList ∧ b = "SWAP-".toList ++ b' := by
  constructor
  · intro h
    rcases List.append_eq_append_iff.1 h with ⟨x, hc, hb⟩ | ⟨x, hs, hb⟩
    · exact .inr (.inl ⟨x, hc, hb⟩)
    · -- The second text starts within the first, so that `x` is an end of it and a start of it.
      have hlen : c.length + x.length = 6 := by
        rw [← List.length_append, ← hs]
        rfl
      have hc : c = "-SWAP-".toList.take c.length := by rw [hs, List.take_left]
      have hdrop : x = "-SWAP-".toList.drop c.length := by rw [hs, List.drop_left]
      have htake : x = "-SWAP-".toList.take x.length := by
        have hx := congrArg (List.take x.length) hb
        rwa [List.take_left, List.take_append_of_le_length (by simp; omega), eq_comm] at hx
      have hle : c.length ≤ 6 := by omega
      rw [show x.length = 6 - c.length by omega] at htake
      rcases separator_border hle (hdrop.symm.trans htake) with h0 | h5 | h6
      · rw [h0] at hc hdrop
        rw [hdrop] at hb
        exact .inl ⟨hc, (List.append_cancel_left hb).symm⟩
      · rw [h5] at hc hdrop
        rw [hdrop] at hb
        exact .inr (.inr ⟨hc, (List.cons.inj hb).2.symm⟩)
      · rw [h6] at hc hdrop
        rw [hdrop] at hb
        exact .inr (.inl ⟨[], hc, hb.symm⟩)
  · rintro (⟨rfl, rfl⟩ | ⟨x, rfl, rfl⟩ | ⟨rfl, rfl⟩)
    · rfl
    · simp
    · rfl

theorem eq_or_overlaps_iff : k = k' ∨ k.Overlaps k' ↔
    ∃ c, k'.a.text.toList = k.a.text.toList ++ c ∧ "-SWAP-".toList ++ k.b.text.toList =
      c ++ ("-SWAP-".toList ++ k'.b.text.toList) := by
  have hkey : k = k' ↔ k.a.text.toList = k'.a.text.toList ∧
      k.b.text.toList = k'.b.text.toList := by
    simp only [PoolKey.ext_iff, Ticker.ext_iff, String.toList_inj]
  simp only [separator_append_iff, hkey, Overlaps, ← String.toList_inj, String.toList_append,
    List.append_assoc]
  constructor
  · rintro (⟨ha, hb⟩ | ⟨x, ha, hb⟩ | ⟨ha, hb⟩)
    · exact ⟨[], by simp [ha], .inl ⟨rfl, hb⟩⟩
    · exact ⟨_, ha, .inr (.inl ⟨x.toList, rfl, hb⟩)⟩
    · exact ⟨_, ha, .inr (.inr ⟨rfl, hb⟩)⟩
  · rintro ⟨c, ha, ⟨rfl, hb⟩ | ⟨x, rfl, hb⟩ | ⟨rfl, hb⟩⟩
    · exact .inl ⟨by simp [ha], hb⟩
    · exact .inr (.inl ⟨String.ofList x, by simpa using ha, by simpa using hb⟩)
    · exact .inr (.inr ⟨ha, hb⟩)

/-- Two pools have one liquidity token exactly when their names overlap. -/
theorem shareTicker_eq_iff :
    k.shareTicker = k'.shareTicker ↔ k = k' ∨ k.Overlaps k' ∨ k'.Overlaps k := by
  have htext : k.shareTicker = k'.shareTicker ↔
      k.a.text.toList ++ ("-SWAP-".toList ++ k.b.text.toList) =
        k'.a.text.toList ++ ("-SWAP-".toList ++ k'.b.text.toList) := by
    rw [Ticker.ext_iff, ← String.toList_inj]
    simp only [shareTicker, Ticker.text_joined, String.toList_append, List.append_assoc]
  have hsplit : k = k' ∨ k.Overlaps k' ∨ k'.Overlaps k ↔
      (k = k' ∨ k.Overlaps k') ∨ (k' = k ∨ k'.Overlaps k) := by
    rw [@eq_comm _ k' k]
    grind
  rw [htext, hsplit, eq_or_overlaps_iff, eq_or_overlaps_iff, List.append_eq_append_iff]

theorem owner_eq_iff : k.owner = k'.owner ↔ k.shareTicker = k'.shareTicker := by
  rw [Ticker.ext_iff, Address.ext_iff, owner, owner]

end PoolKey

namespace Sound

variable {l l' : Ledger} {a : Approval} {j : Journal} {k k' : PoolKey} {p : Pool} {x : Amount}
  {o : Address}

theorem token?_shareTicker (hl : Sound l) (hk : l.pool? k ≠ none) :
    l.token? k.shareTicker = none := by
  cases ht : l.token? k.shareTicker with
  | none => rfl
  | some r => exact absurd rfl (hl.shareTicker_ne hk ht)

end Sound

namespace Ledger

variable {l : Ledger} {k : PoolKey} {p : Pool}

/-- A pool that shares its liquidity token with no other accounts for all of it. -/
theorem issued_eq_liquidity (hp : l.pool? k = some p)
    (hone : ∀ k', l.pool? k' ≠ none → k'.shareTicker = k.shareTicker → k' = k) :
    l.issued k.shareTicker = p.liquidity.val := by
  have hp' : l.pools[k]? = some p := hp
  have hrest : Table.total (fun (k' : PoolKey) (p : Pool) =>
      if k'.shareTicker = k.shareTicker then p.liquidity.val else 0) (l.pools.erase k) = 0 := by
    refine Table.total_eq_zero fun k' p' hk' => ?_
    rw [Std.ExtTreeMap.getElem?_erase] at hk'
    split at hk'
    · cases hk'
    · next hne =>
      have hpool : l.pool? k' = some p' := hk'
      refine if_neg fun he => hne ?_
      rw [hone k' (by rw [hpool]; exact Option.some_ne_none p') he]
      exact Std.ReflOrd.compare_self
  rw [issued, Table.total_of_getElem? hp', hrest, if_pos rfl, Nat.add_zero]

end Ledger

namespace Effect

variable {l l' : Ledger} {j : Journal} {k k' : PoolKey} {x : Amount} {o : Address} {t : Ticker}

theorem circulating_remove (h : Effect l (.removeLiquidity k o x) j l') (ht : k.shareTicker ≠ t) :
    l'.circulating t = l.circulating t := by
  cases h with
  | removeLiquidity _ _ _ _ _ _ _ _ moves =>
    have hj := moves.circulating_redemption (t := t)
    rwa [if_neg ht, Nat.add_zero, Ledger.circulating_setPool] at hj

theorem pool?_remove (h : Effect l (.removeLiquidity k o x) j l') (hk : k ≠ k') :
    l'.pool? k' = l.pool? k' := by
  cases h with
  | removeLiquidity _ _ _ _ _ _ _ _ moves =>
    rw [moves.pool?, Ledger.pool?_setPool, if_neg hk]

end Effect

namespace Reachable

variable {allowed : Envelope → Prop} {l : Ledger}

/-- Two pools share their liquidity token, and with it the holder of their reserves, exactly when
their names overlap. What circulates of the token is what all pools of its name have outstanding,
and a removal from one of them burns no token and changes no pool of another name. -/
theorem shares_by_name (h : Reachable allowed l) :
    (∀ k k' p p', l.pool? k = some p → l.pool? k' = some p' → k ≠ k' →
      (k.shareTicker = k'.shareTicker ↔ k.Overlaps k' ∨ k'.Overlaps k) ∧
      (p.owner = p'.owner ↔ k.shareTicker = k'.shareTicker)) ∧
    (∀ k p, l.pool? k = some p → l.circulating k.shareTicker = l.issued k.shareTicker ∧
      ((∀ k', l.pool? k' ≠ none → ¬(k.Overlaps k' ∨ k'.Overlaps k)) →
        l.circulating k.shareTicker = p.liquidity.val)) ∧
    (∀ k o x l' j, l.apply (.removeLiquidity k o x) = .ok (l', j) →
      ∀ k', k.shareTicker ≠ k'.shareTicker → l'.pool? k' = l.pool? k' ∧
        l'.circulating k'.shareTicker = l.circulating k'.shareTicker) := by
  have hl := h.sound
  refine ⟨fun k k' p p' hk hk' hne => ⟨?_, ?_⟩, fun k p hk => ?_, fun k o x l' j ha k' ht => ?_⟩
  · rw [PoolKey.shareTicker_eq_iff]
    exact or_iff_right hne
  · rw [(h.pool_formed hk).1, (h.pool_formed hk').1, PoolKey.owner_eq_iff]
  · have hpool : l.pool? k ≠ none := by rw [hk]; exact Option.some_ne_none p
    have hc := hl.circulating_of_none (hl.token?_shareTicker hpool)
    refine ⟨hc, fun hone => ?_⟩
    rw [hc]
    refine Ledger.issued_eq_liquidity hk fun k' hk' he => ?_
    exact (PoolKey.shareTicker_eq_iff.1 he).resolve_right fun ho => hone k' hk' ho.symm
  · have he := Ledger.effect_of_apply ha
    exact ⟨he.pool?_remove fun hk => ht (congrArg PoolKey.shareTicker hk), he.circulating_remove ht⟩

/-- Two holders, four tokens, and for each holder a pool of two of them. -/
def overlappingPools : List Envelope :=
  let by_ (who : String) (i : Inscription) : Envelope := ⟨⟨1, 0⟩, ⟨who⟩, "", 1, i⟩
  [by_ "DA" (.deploy ⟨"AA-SWAP", "5000", none, none, none, none⟩),
   by_ "DA" (.mint ⟨"AA-SWAP", "1000"⟩),
   by_ "DA" (.deploy ⟨"YY", "5000", none, none, none, none⟩),
   by_ "DA" (.mint ⟨"YY", "1000"⟩),
   by_ "DB" (.deploy ⟨"AA", "5000", none, none, none, none⟩),
   by_ "DB" (.mint ⟨"AA", "1000"⟩),
   by_ "DB" (.deploy ⟨"SWAP-YY", "5000", none, none, none, none⟩),
   by_ "DB" (.mint ⟨"SWAP-YY", "1000"⟩),
   by_ "DA" (.create ⟨"AA-SWAP", "YY", "1000", "1000", "0", "0"⟩),
   by_ "DB" (.create ⟨"AA", "SWAP-YY", "1000", "1000", "0", "0"⟩)]

/-- Their names are the same, neither pool accounts for the whole token, and the first holder takes
out what the second put in. -/
theorem shareTicker_not_injective :
    let l := Ledger.empty.afterAll ⟨true⟩ overlappingPools
    let k := PoolKey.ofPair (.ofText "AA-SWAP") (.ofText "YY")
    let k' := PoolKey.ofPair (.ofText "AA") (.ofText "SWAP-YY")
    let e : Envelope := ⟨⟨2, 0⟩, ⟨"DA"⟩, "", 1, .remove ⟨"AA", "SWAP-YY", "1000"⟩⟩
    Reachable (fun _ => True) l ∧ k ≠ k' ∧ k.shareTicker = k'.shareTicker ∧
      (l.pool? k).map (·.liquidity.val) = some 1000 ∧
      (l.pool? k').map (·.liquidity.val) = some 1000 ∧ l.circulating k.shareTicker = 2000 ∧
      ((l.after ⟨true⟩ e).pool? k').map (·.liquidity.val) = some 0 ∧
      ((l.after ⟨true⟩ e).held (.ofText "AA") ⟨"DA"⟩).val = 1000 := by
  intro l k k' e
  exact ⟨Reachable.empty.afterAll _ fun _ _ => trivial, by decide +kernel⟩

/-- Beside the two pools of one name there is one of another, which a removal from theirs leaves as
it is. -/
theorem shares_by_name_three_pools :
    let by_ (i : Inscription) : Envelope := ⟨⟨1, 1⟩, ⟨"DC"⟩, "", 1, i⟩
    let l := Ledger.empty.afterAll ⟨true⟩ (overlappingPools ++
      [by_ (.deploy ⟨"CC", "5000", none, none, none, none⟩), by_ (.mint ⟨"CC", "500"⟩),
       by_ (.deploy ⟨"DD", "5000", none, none, none, none⟩), by_ (.mint ⟨"DD", "500"⟩),
       by_ (.create ⟨"CC", "DD", "500", "500", "0", "0"⟩)])
    let k := PoolKey.ofPair (.ofText "AA-SWAP") (.ofText "YY")
    let k' := PoolKey.ofPair (.ofText "AA") (.ofText "SWAP-YY")
    let other := PoolKey.ofPair (.ofText "CC") (.ofText "DD")
    (k.Overlaps k' ∨ k'.Overlaps k) ∧ ¬(k.Overlaps other ∨ other.Overlaps k) ∧
      l.circulating k.shareTicker = 2000 ∧
      ∃ l' j q, l.apply (.removeLiquidity k' ⟨"DA"⟩ ⟨1000, by decide⟩) = .ok (l', j) ∧
        l.pool? other = some q ∧ l'.pool? other = some q ∧ q.liquidity.val = 500 ∧
        l'.circulating other.shareTicker = l.circulating other.shareTicker := by
  intro by_ l k k' other
  have hl : Reachable (fun _ => True) l := Reachable.empty.afterAll _ fun _ _ => trivial
  obtain ⟨hname, htoken, hremove⟩ := shares_by_name hl
  have hfacts : (l.pool? k).isSome = true ∧ (l.pool? k').isSome = true ∧
      (l.pool? other).map (·.liquidity.val) = some 500 ∧ k ≠ k' ∧ k ≠ other ∧
      k.shareTicker = k'.shareTicker ∧ k'.shareTicker ≠ other.shareTicker ∧
      l.issued k.shareTicker = 2000 ∧
      (l.apply (.removeLiquidity k' ⟨"DA"⟩ ⟨1000, by decide⟩)).toOption.isSome = true := by
    decide +kernel
  obtain ⟨hk, hk', hother, hne, hneo, hsame, hdiff, hissued, happly⟩ := hfacts
  obtain ⟨p, hp⟩ := Option.isSome_iff_exists.1 hk
  obtain ⟨p', hp'⟩ := Option.isSome_iff_exists.1 hk'
  obtain ⟨q, hq, hliquidity⟩ := Option.map_eq_some_iff.1 hother
  have hoverlap := (hname k k' p p' hp hp' hne).1.1 hsame
  have hapart : ¬(k.Overlaps other ∨ other.Overlaps k) := fun ho =>
    hdiff (hsame ▸ (hname k other p q hp hq hneo).1.2 ho)
  cases ha : l.apply (.removeLiquidity k' ⟨"DA"⟩ ⟨1000, by decide⟩) with
  | error r =>
    rw [ha] at happly
    cases happly
  | ok r =>
    obtain ⟨hsteady, hcirculating⟩ := hremove k' _ _ r.1 r.2 ha other hdiff
    exact ⟨hoverlap, hapart, (htoken k p hp).1.trans hissued, r.1, r.2, q, rfl, hq,
      hsteady.trans hq, hliquidity, hcirculating⟩

end Reachable
end TokenLedger
