import TokenLedger.Proofs.Offer
import TokenLedger.Proofs.Turns

/-! Operations under different keys. What an operation comes to depends on the ledger under its own
keys, and nothing changes elsewhere. Main statement: this, and hence that operations without a
common key commute. -/
namespace TokenLedger

theorem Inquiry.Within.on_agreeOn {α : Type} {K : LedgerKey → Prop} {P : α → Prop} {x : Inquiry α}
    {l m : Ledger} (hx : x.Within K P) (h : l.AgreeOn K m) : x.on l.answer = x.on m.answer := by
  induction x with
  | done a => rfl
  | reject r => rfl
  | ask q next ih =>
    rw [on, on, h.answer hx.1]
    exact ih _ (hx.2 _)

theorem Interleaved.of_steps {σ α : Type} {store : Store σ} {ts : Bool → Task α} {i : Bool}
    {x y : α} {s s' s'' : σ} (h : Task.Steps store (ts i) s (.done x) s')
    (h' : Task.Steps store (ts !i) s' (.done y) s'') :
    Interleaved store ts s (fun j => if j = i then x else y) s'' := by
  refine .steps h rfl (.steps (i := !i) h' ?_ (.done s'' fun j => ?_))
  · rw [Function.update_of_ne (by cases i <;> decide)]
  · cases i <;> cases j <;> rfl

namespace Store

variable {σ : Type} {store : Store σ} {s : σ} {K : LedgerKey → Prop} {rules rules' : Rules}
  {op op' : Operation} {l m : Ledger} {a : Approval}

theorem validate_agreeOn (h : l.AgreeOn (· ∈ op.footprint) m) :
    (ledger.validate rules op l).1 = (ledger.validate rules op m).1 := by
  rw [validate, validate, Inquiry.run_ledger, Inquiry.run_ledger,
    (op.verdict_within rules).on_agreeOn h]

theorem keys_of_validate (h : (store.validate rules op s).1 = .ok a) :
    ∀ key ∈ a.keys, key ∈ op.footprint :=
  (op.verdict_within rules).of_run h

theorem process_frame (h : ∀ key ∈ op.footprint, ¬K key) :
    l.AgreeOn K (ledger.process rules op l).2 := by
  rcases process_ledger_eq_or rules op l with hl | ⟨a, j, hv, he⟩
  · rw [hl]
    exact .refl K l
  · have hkeys := keys_of_validate (validated_by_ledger_iff.2 hv)
    exact he.agreeOn fun key hkey => h key (hkeys key hkey)

theorem process_commute (h : ∀ key ∈ op.footprint, key ∉ op'.footprint) :
    (ledger.process rules op (ledger.process rules' op' l).2).1 = (ledger.process rules op l).1 ∧
    (ledger.process rules' op' (ledger.process rules op l).2).1 = (ledger.process rules' op' l).1 ∧
    (ledger.process rules op (ledger.process rules' op' l).2).2 =
      (ledger.process rules' op' (ledger.process rules op l).2).2 := by
  let ts : Bool → Task Outcome
    | true => .judge .done (op.verdict rules)
    | false => .judge .done (op'.verdict rules')
  let keys : Bool → LedgerKey → Prop
    | true => (· ∈ op.footprint)
    | false => (· ∈ op'.footprint)
  have hwithin : ∀ i, (ts i).Within (keys i)
    | true => Task.judge_within (op.verdict_within rules) fun _ => trivial
    | false => Task.judge_within (op'.verdict_within rules') fun _ => trivial
  have hdisjoint : ∀ i j key, keys i key → keys j key → i = j
    | true, true, _, _, _ | false, false, _, _, _ => rfl
    | true, false, key, hi, hj => absurd hj (h key hi)
    | false, true, key, hi, hj => absurd hi (h key hj)
  have first : Interleaved ledger ts l _ _ :=
    .of_steps (i := true) (Task.steps_judge _ l) (Task.steps_judge _ _)
  have last : Interleaved ledger ts l _ _ :=
    .of_steps (i := false) (Task.steps_judge _ l) (Task.steps_judge _ _)
  obtain ⟨hout, hl⟩ := first.unique last hwithin hdisjoint
  exact ⟨(congrFun hout true).symm, congrFun hout false, hl.symm⟩

end Store

/-- On ledgers that agree under the keys of an operation the verdict is the same, and so is what
comes of its approval. Nothing changes under other keys. Hence an operation with other keys makes no
difference to it, and the two can be carried out in either order. -/
theorem Operation.footprint_covers (op : Operation) :
    (∀ rules l m, l.AgreeOn (· ∈ op.footprint) m →
      (Store.ledger.validate rules op l).1 = (Store.ledger.validate rules op m).1 ∧
      ∀ a, (Store.ledger.validate rules op l).1 = .ok a →
        (Store.ledger.apply a l).1 = (Store.ledger.apply a m).1 ∧
        (Store.ledger.apply a l).2.AgreeOn (· ∈ op.footprint) (Store.ledger.apply a m).2 ∧
        l.AgreeOn (· ∉ op.footprint) (Store.ledger.apply a l).2) ∧
    ∀ rules rules' op' l, (∀ key ∈ op.footprint, key ∉ op'.footprint) →
      let after := (Store.ledger.process rules op l).2
      let after' := (Store.ledger.process rules' op' l).2
      l.AgreeOn (· ∈ op.footprint) after' ∧ l.AgreeOn (· ∈ op'.footprint) after ∧
        (Store.ledger.process rules op after').1 = (Store.ledger.process rules op l).1 ∧
        (Store.ledger.process rules' op' after).1 = (Store.ledger.process rules' op' l).1 ∧
        (Store.ledger.process rules op after').2 = (Store.ledger.process rules' op' after).2 := by
  refine ⟨fun rules l m h => ⟨Store.validate_agreeOn h, fun a ha => ?_⟩,
    fun rules rules' op' l h => ⟨?_, Store.process_frame h, Store.process_commute h⟩⟩
  · have hkeys := Store.keys_of_validate ha
    obtain ⟨hresult, hagree⟩ := Store.apply_agreeOn h hkeys
    exact ⟨hresult, hagree, Store.apply_frame fun key hkey hn => hn (hkeys key hkey)⟩
  · exact Store.process_frame fun key hkey' hkey => h key hkey hkey'

/-- A mint of a third token makes no difference to a deposit into the pool of thousands. -/
theorem Operation.footprint_covers_mint :
    let by_ (i : Inscription) : Envelope := ⟨⟨2, 0⟩, ⟨"DA"⟩, "", 1, i⟩
    let l := Ledger.empty.afterAll ⟨true⟩
      (PairOperation.poolOfThousands ++ [by_ (.deploy ⟨"CC", "50", none, none, none, none⟩)])
    let add : Operation := .pair (PairOperation.offered 300 200 10 20)
    let m := l.after ⟨true⟩ (by_ (.mint ⟨"CC", "7"⟩))
    l.held (.ofText "CC") ⟨"DA"⟩ = .zero ∧ m.held (.ofText "CC") ⟨"DA"⟩ = .ofUInt64 7 ∧
      ∃ a, (Store.ledger.validate ⟨true⟩ add l).1 = .ok a ∧
        (Store.ledger.validate ⟨true⟩ add m).1 = .ok a ∧
        (Store.ledger.apply a l).1 = (Store.ledger.apply a m).1 ∧
        (Store.ledger.process ⟨true⟩ add m).2 =
          (Store.ledger.process ⟨true⟩ add l).2.after ⟨true⟩ (by_ (.mint ⟨"CC", "7"⟩)) := by
  intro by_ l add m
  obtain ⟨mint, hmint, hkeys⟩ : ∃ mint, ofEnvelope (by_ (.mint ⟨"CC", "7"⟩)) = .ok mint ∧
      ∀ key ∈ add.footprint, key ∉ mint.footprint := ⟨_, rfl, by decide +kernel⟩
  have hafter (n : Ledger) :
      n.after ⟨true⟩ (by_ (.mint ⟨"CC", "7"⟩)) = (Store.ledger.process ⟨true⟩ mint n).2 := by
    rw [Ledger.after, hmint]
  obtain ⟨same, other⟩ := footprint_covers add
  obtain ⟨hagree, -, -, -, hcommute⟩ := other ⟨true⟩ ⟨true⟩ mint l hkeys
  obtain ⟨hverdict, happly⟩ := same ⟨true⟩ l _ hagree
  have hv : (Store.ledger.validate ⟨true⟩ add l).1 = .ok (.addLiquidity
      (PoolKey.ofPair (.ofText "AA") (.ofText "BB")) ⟨"DA"⟩ (.ofUInt64 300) (.ofUInt64 300)
      false) := by
    decide +kernel
  have hm : m = (Store.ledger.process ⟨true⟩ mint l).2 := hafter l
  refine ⟨by decide +kernel, by decide +kernel, _, hv, ?_, ?_, ?_⟩
  · rw [hm, ← hverdict, hv]
  · rw [hm, (happly _ hv).1]
  · rw [hafter, hm, hcommute]

end TokenLedger
