import Mathlib.Data.List.Forall2
import TokenLedger.Proofs.Components
import TokenLedger.Proofs.Offer

/-! Requests for a pool with its sides named in either order. Which side is named first is forgotten
when the pair is brought into order, and where both sides have one ticker nothing but the ticker is
looked at. Main statement: requests that differ in the order of their sides get one verdict from any
store and touch the same keys, so that a batch comes to the same with either, and swaps in both
directions look up one pool. -/
namespace TokenLedger

/-- Every amount of the body is a number. -/
structure PairBody.Numeric (b : PairBody) : Prop where
  amt0 : ∃ x, Amount.ofDecimal b.amt0 = .ok x
  amt1 : ∃ x, Amount.ofDecimal b.amt1 = .ok x
  amt0Min : ∃ x, Bound.ofDecimal b.amt0Min = .ok x
  amt1Min : ∃ x, Bound.ofDecimal b.amt1Min = .ok x

structure SwapBody.Numeric (b : SwapBody) : Prop where
  amt0 : ∃ x, Amount.ofDecimal b.amt0 = .ok x
  amt1 : ∃ x, Bound.ofDecimal b.amt1 = .ok x
  amt1Min : ∃ x, Bound.ofDecimal b.amt1Min = .ok x

def RemoveBody.Numeric (b : RemoveBody) : Prop := ∃ x, Amount.ofDecimal b.liquidity = .ok x

def PairBody.exchanged (b : PairBody) : PairBody :=
  ⟨b.tick1, b.tick0, b.amt1, b.amt0, b.amt1Min, b.amt0Min⟩

def RemoveBody.exchanged (b : RemoveBody) : RemoveBody := ⟨b.tick1, b.tick0, b.liquidity⟩

/-- Two inscriptions with numbers for amounts that ask for the same thing with the sides of the pair
exchanged. -/
inductive Inscription.Exchanged : Inscription → Inscription → Prop
  | create {b : PairBody} (h : b.Numeric) : Exchanged (.create b) (.create b.exchanged)
  | add {b : PairBody} (h : b.Numeric) : Exchanged (.add b) (.add b.exchanged)
  | remove {b : RemoveBody} (h : b.Numeric) : Exchanged (.remove b) (.remove b.exchanged)

/-- Operations with the same keys on which the verdict asks the same questions, and comes to the
same from the same answers. -/
structure Operation.Alike (op op' : Operation) : Prop where
  footprint : op.footprint = op'.footprint
  verdict : ∀ rules, op.verdict rules = op'.verdict rules

namespace Operation.Alike

variable {op op' : Operation} {σ : Type}

theorem refl (op : Operation) : op.Alike op := ⟨rfl, fun _ => rfl⟩

theorem validate_eq (h : op.Alike op') (store : Store σ) (rules : Rules) (s : σ) :
    store.validate rules op s = store.validate rules op' s := by
  rw [Store.validate, Store.validate, h.verdict]

theorem process_eq (h : op.Alike op') (store : Store σ) (rules : Rules) (s : σ) :
    store.process rules op s = store.process rules op' s := by
  rw [Store.process, Store.process, h.validate_eq]

end Operation.Alike

namespace Sides

variable {s : Sides}

theorem sorted_of_eq (h : s.tickerA = s.tickerB) : s.sorted = s := by
  have hself : compare s.tickerB s.tickerB = .eq := Std.ReflCmp.compare_self
  rw [sorted, h, hself]
  rfl

theorem sorted_swap_of_ne (h : s.tickerA ≠ s.tickerB) : s.swap.sorted = s.sorted := by
  have hswap : compare s.tickerB s.tickerA = (compare s.tickerA s.tickerB).swap :=
    Std.OrientedOrd.eq_swap
  simp only [sorted, swap, hswap]
  cases hc : compare s.tickerA s.tickerB
  · rfl
  · exact absurd (Std.LawfulEqOrd.eq_of_compare hc) h
  · rfl

end Sides

theorem PairOperation.alike_swap (k : Kind) (s : Sides) (x : Amount) (a : Address) :
    (Operation.pair ⟨k, s.sorted, x, a⟩).Alike (.pair ⟨k, s.swap.sorted, x, a⟩) := by
  by_cases h : s.tickerA = s.tickerB
  · -- Nothing is exchanged here, so that the amounts stand on different sides.
    rw [Sides.sorted_of_eq h, Sides.sorted_of_eq (s := s.swap) h.symm]
    constructor
    · simp only [Operation.footprint, poolKey, Sides.swap, h]
    · intro rules
      simp only [Operation.verdict, verdict, Sides.swap, h, if_true]
  · rw [Sides.sorted_swap_of_ne h]
    exact .refl _

namespace Operation

variable {e : Envelope}

theorem boundField_of_ok {raw : String} {x : Bound} (name : String)
    (h : Bound.ofDecimal raw = .ok x) : boundField name raw = .ok x := by
  rw [boundField, h]

theorem ofPairBody_exchanged {b : PairBody} (h : b.Numeric) (e : Envelope) (k : Kind) :
    ∃ op op', ofPairBody e k b = .ok op ∧ ofPairBody e k b.exchanged = .ok op' ∧
      (pair op).Alike (pair op') := by
  obtain ⟨⟨x, hx⟩, ⟨y, hy⟩, ⟨m, hm⟩, ⟨n, hn⟩⟩ := h
  refine ⟨_, _, ?_, ?_, PairOperation.alike_swap k
    ⟨.ofText b.tick0, .ofText b.tick1, x, y, m, n⟩ .zero e.sender⟩
  · simp only [ofPairBody, amountField_eq_ok_iff.2 hx, amountField_eq_ok_iff.2 hy, boundField_of_ok _ hm,
      boundField_of_ok _ hn]
    rfl
  · simp only [ofPairBody, PairBody.exchanged, amountField_eq_ok_iff.2 hx, amountField_eq_ok_iff.2 hy,
      boundField_of_ok _ hm, boundField_of_ok _ hn]
    rfl

theorem ofRemove_exchanged {b : RemoveBody} (h : b.Numeric) (e : Envelope) :
    ∃ op op', ofRemove e b = .ok op ∧ ofRemove e b.exchanged = .ok op' ∧
      (pair op).Alike (pair op') := by
  obtain ⟨x, hx⟩ := h
  refine ⟨_, _, ?_, ?_, PairOperation.alike_swap .remove
    ⟨.ofText b.tick0, .ofText b.tick1, .zero, .zero, .zero, .zero⟩ x e.sender⟩
  · simp only [ofRemove, amountField_eq_ok_iff.2 hx]
    rfl
  · simp only [ofRemove, RemoveBody.exchanged, amountField_eq_ok_iff.2 hx]
    rfl

end Operation

/-- Two envelopes that are the same but for the order of the sides. -/
def Enveloped.Exchanged (e e' : Envelope) : Prop :=
  ∃ i, e.inscription.Exchanged i ∧ e' = { e with inscription := i }

/-- Envelopes at one place that ask for alike operations, or are rejected alike. -/
structure Enveloped.Alike (e e' : Envelope) : Prop where
  location : e.location = e'.location
  kind : e.inscription.kind = e'.inscription.kind
  operation : (∃ r, Operation.ofEnvelope e = .error r ∧ Operation.ofEnvelope e' = .error r) ∨
    ∃ op op', Operation.ofEnvelope e = .ok op ∧ Operation.ofEnvelope e' = .ok op' ∧ op.Alike op'

theorem Enveloped.Alike.refl (e : Envelope) : e.Alike e := by
  refine ⟨rfl, rfl, ?_⟩
  cases Operation.ofEnvelope e with
  | error r => exact .inl ⟨r, rfl, rfl⟩
  | ok op => exact .inr ⟨op, op, rfl, rfl, .refl op⟩

theorem Operation.ofEnvelope_exchanged {e e' : Envelope} (h : e.Exchanged e') :
    ∃ op op', ofEnvelope e = .ok op ∧ ofEnvelope e' = .ok op' ∧ op.Alike op' := by
  obtain ⟨location, sender, receivers, repeats, inscription⟩ := e
  obtain ⟨i, hi, rfl⟩ := h
  simp only [ofEnvelope]
  cases hi with
  | create hb | add hb =>
    obtain ⟨op, op', h, h', halike⟩ := ofPairBody_exchanged hb _ _
    exact ⟨_, _, congrArg (Except.map pair) h, congrArg (Except.map pair) h', halike⟩
  | remove hb =>
    obtain ⟨op, op', h, h', halike⟩ := ofRemove_exchanged hb _
    exact ⟨_, _, congrArg (Except.map pair) h, congrArg (Except.map pair) h', halike⟩

theorem Inscription.Exchanged.kind {i i' : Inscription} (h : i.Exchanged i') :
    i.kind = i'.kind := by
  cases h <;> rfl

theorem Enveloped.Exchanged.alike {e e' : Envelope} (h : e.Exchanged e') : e.Alike e' := by
  have hop := Operation.ofEnvelope_exchanged h
  obtain ⟨i, hi, rfl⟩ := h
  exact ⟨rfl, hi.kind, .inr hop⟩

structure Job.Alike (x y : Job) : Prop where
  position : x.position = y.position
  location : x.location = y.location
  operation : x.operation.Alike y.operation

section Pairs

variable {α β : Type} {R : α → β → Prop}

theorem exists_pairs {xs : List α} {ys : List β} (h : List.Forall₂ R xs ys) :
    ∃ ps : List (α × β), ps.map Prod.fst = xs ∧ ps.map Prod.snd = ys ∧ ∀ p ∈ ps, R p.1 p.2 := by
  induction h with
  | nil => exact ⟨[], rfl, rfl, List.forall_mem_nil _⟩
  | @cons x y _ _ hxy _ ih =>
    obtain ⟨ps, rfl, rfl, hps⟩ := ih
    exact ⟨(x, y) :: ps, rfl, rfl, List.forall_mem_cons.2 ⟨hxy, hps⟩⟩

theorem forall₂_map_pairs {ps : List (α × β)} (h : ∀ p ∈ ps, R p.1 p.2) :
    List.Forall₂ R (ps.map Prod.fst) (ps.map Prod.snd) := by
  rw [List.forall₂_map_left_iff, List.forall₂_map_right_iff]
  exact List.forall₂_same.2 h

theorem map_eq_map_of_forall₂ {γ : Type} {f : α → γ} {g : β → γ} {xs : List α} {ys : List β}
    (h : List.Forall₂ R xs ys) (hfg : ∀ x y, R x y → f x = g y) : xs.map f = ys.map g := by
  obtain ⟨ps, rfl, rfl, hps⟩ := exists_pairs h
  rw [List.map_map, List.map_map]
  exact List.map_congr_left fun p hp => hfg _ _ (hps p hp)

theorem forall₂_zipIdx {xs : List α} {ys : List β} (h : List.Forall₂ R xs ys) (n : Nat) :
    List.Forall₂ (fun x y => R x.1 y.1 ∧ x.2 = y.2) (xs.zipIdx n) (ys.zipIdx n) := by
  induction h generalizing n with
  | nil => exact .nil
  | cons hxy _ ih => exact .cons ⟨hxy, rfl⟩ (ih (n + 1))

end Pairs

namespace Lane

theorem groups_map {α β γ : Type} [DecidableEq γ] (f : α → β) (ps : List (α × γ)) :
    groups (ps.map (Prod.map f id)) = (groups ps).map (List.map f) := by
  simp only [groups, List.map_map, List.filter_map, Function.comp_def, Prod.map_fst, Prod.map_snd,
    id_eq]

theorem ofSorted_eq_groups (jobs : List Job) : ofSorted jobs = groups (jobs.zip
    (Links.ofFootprints fun i => (jobs.get i).operation.footprint).sets.roots) := by
  rw [ofSorted_eq, ofVisits, ← Links.ofFootprints_eq]

theorem ofSorted_map {α : Type} {xs : List α} {f g : α → Job}
    (h : ∀ x ∈ xs, (f x).operation.footprint = (g x).operation.footprint) :
    ∃ lanes : List (List α), (∀ lane ∈ lanes, ∀ x ∈ lane, x ∈ xs) ∧
      ofSorted (xs.map f) = lanes.map (List.map f) ∧
      ofSorted (xs.map g) = lanes.map (List.map g) := by
  have hlanes {k : α → Job} (hk : ∀ x ∈ xs, (k x).operation.footprint = (f x).operation.footprint) :
      ofSorted (xs.map k) = (groups (xs.zip (Links.ofFootprints fun i =>
        (f (xs.get i)).operation.footprint).sets.roots)).map (List.map k) := by
    have hkeys (i : Fin (xs.map k).length) : ((xs.map k).get i).operation.footprint =
        (f (xs.get (i.cast (List.length_map k)))).operation.footprint := by
      rw [List.get_eq_getElem, List.getElem_map]
      exact hk _ (List.getElem_mem _)
    rw [ofSorted_eq_groups, List.zip_map_left, groups_map]
    exact make_roots_congr (g := fun i => (f (xs.get i)).operation.footprint)
      (List.length_map k) hkeys fun _ roots => (groups (xs.zip roots)).map (List.map k)
  refine ⟨_, fun lane hlane x hx => ?_, hlanes fun _ _ => rfl, hlanes fun x hx => (h x hx).symm⟩
  obtain ⟨p, hp, rfl⟩ := List.mem_map.1 (mem_of_mem_groups hlane hx)
  exact (List.of_mem_zip (a := p.1) (b := p.2) hp).1

theorem plan_alike {xs ys : List Job} (h : List.Forall₂ Job.Alike xs ys) :
    List.Forall₂ (List.Forall₂ Job.Alike) (plan xs) (plan ys) := by
  obtain ⟨ps, rfl, rfl, hps⟩ := exists_pairs h
  have hfst := List.map_mergeSort (l := ps) (f := Prod.fst)
    (r := fun p q => decide (p.1.location ≤ q.1.location))
    (s := fun x y => decide (x.location ≤ y.location)) fun _ _ _ _ => rfl
  have hsnd := List.map_mergeSort (l := ps) (f := Prod.snd)
    (r := fun p q => decide (p.1.location ≤ q.1.location))
    (s := fun x y => decide (x.location ≤ y.location)) fun p hp q hq => by
      rw [(hps p hp).location, (hps q hq).location]
  rw [plan, plan, inChainOrder, inChainOrder, ← hfst, ← hsnd]
  obtain ⟨lanes, hmem, hf, hg⟩ := ofSorted_map (f := Prod.fst) (g := Prod.snd)
    fun p hp => (hps p (List.mem_mergeSort.1 hp)).operation.footprint
  rw [hf, hg, List.forall₂_map_left_iff, List.forall₂_map_right_iff, List.forall₂_same]
  exact fun lane hlane => forall₂_map_pairs fun p hp =>
    hps p (List.mem_mergeSort.1 (hmem lane hlane p hp))

end Lane

namespace Store

variable {σ : Type}

theorem runLane_alike (store : Store σ) (rules : Rules) {xs ys : Lane}
    (h : List.Forall₂ Job.Alike xs ys) (s : σ) :
    store.runLane rules xs s = store.runLane rules ys s := by
  induction h generalizing s with
  | nil => rfl
  | @cons x y xs ys hxy hrest ih =>
    have hskipped : (xs.map fun j => (j.position, Outcome.skipped)) =
        ys.map fun j => (j.position, Outcome.skipped) :=
      map_eq_map_of_forall₂ hrest fun _ _ h => by rw [h.position]
    simp only [runLane, hxy.operation.process_eq, hxy.position, hskipped, ih]

theorem runLanes_alike (store : Store σ) (rules : Rules) {lanes lanes' : List Lane}
    (h : List.Forall₂ (List.Forall₂ Job.Alike) lanes lanes') (s : σ) :
    store.runLanes rules lanes s = store.runLanes rules lanes' s := by
  induction h generalizing s with
  | nil => rfl
  | cons hlane _ ih => simp only [runLanes, store.runLane_alike rules hlane, ih]

end Store

namespace Batch

variable {σ : Type} {batch batch' : List Envelope}

theorem jobs_alike (h : List.Forall₂ Enveloped.Alike batch batch') :
    List.Forall₂ Job.Alike (jobs batch) (jobs batch') := by
  refine List.rel_filterMap ?_ (forall₂_zipIdx h 0)
  rintro ⟨e, i⟩ ⟨e', _⟩ ⟨⟨hl, -, hop⟩, rfl⟩
  dsimp only
  rcases hop with ⟨r, he, he'⟩ | ⟨op, op', he, he', halike⟩
  · rw [he, he']
    exact .none
  · rw [he, he']
    exact .some ⟨rfl, hl, halike⟩

theorem report_alike (h : List.Forall₂ Enveloped.Alike batch batch')
    (lanes : List (List (Nat × Outcome))) : report batch lanes = report batch' lanes := by
  have hentries : entries batch lanes.flatten = entries batch' lanes.flatten := by
    rw [entries, entries]
    refine congrArg (List.mergeSort · _) (map_eq_map_of_forall₂ (forall₂_zipIdx h 0) ?_)
    rintro ⟨e, i⟩ ⟨e', _⟩ ⟨⟨hl, hk, hop⟩, rfl⟩
    have houtcome : outcome lanes.flatten e i = outcome lanes.flatten e' i := by
      rcases hop with ⟨r, he, he'⟩ | ⟨op, op', he, he', -⟩
      · rw [outcome, outcome, he, he']
      · rw [outcome, outcome, he, he']
    dsimp only at hl hk ⊢
    rw [hl, e.inscription.protocol_eq, e.inscription.op_eq, hk, ← e'.inscription.protocol_eq,
      ← e'.inscription.op_eq, houtcome]
  rw [report, report, hentries]

theorem process_alike (h : List.Forall₂ Enveloped.Alike batch batch') (store : Store σ)
    (rules : Rules) (limits : Limits) (s : σ) :
    process store rules limits batch s = process store rules limits batch' s := by
  have hnil : batch = [] ↔ batch' = [] := by
    rw [← List.length_eq_zero_iff, h.length_eq, List.length_eq_zero_iff]
  have hlanes := store.runLanes_alike rules (Lane.plan_alike (jobs_alike h)) s
  simp only [process, hnil, h.length_eq, hlanes, report_alike h]

end Batch

/-- The inquiry begins with the pool of two tokens and asks for no other pool, or it rejects that one
token is both of them. -/
def Inquiry.LooksUp {α : Type} (x y : Ticker) (q : Inquiry α) : Prop :=
  if x = y then q = rejectFor .identicalTickers x.text
  else (∃ next, q = ask (.pool (.ofPair x y)) next) ∧
    q.Within (fun key => ∀ k, key = .pool k → k = .ofPair x y) fun _ => True

theorem Inquiry.LooksUp.symm {α : Type} {x y : Ticker} {q : Inquiry α} (h : q.LooksUp x y) :
    q.LooksUp y x := by
  by_cases hxy : x = y
  · subst hxy
    exact h
  · rw [LooksUp, if_neg hxy] at h
    rwa [LooksUp, if_neg (Ne.symm hxy), PoolKey.ofPair_comm]

theorem PairOperation.swap_looksUp {op : PairOperation} (hk : op.kind = .swap) :
    op.verdict.LooksUp op.sides.tickerA op.sides.tickerB := by
  unfold Inquiry.LooksUp
  split
  · next heq => rw [verdict, if_pos heq]
  · next hne =>
    constructor
    · rw [verdict, if_neg hne, hk]
      exact ⟨_, rfl⟩
    · refine (verdict_within ?_ ?_ ?_ ?_).mono (fun _ h => h) fun _ _ => trivial
      · exact fun c hc => by cases hc
      · exact fun c hc => by cases hc
      · exact fun c hc => by cases hc
      · exact fun c hc => by cases hc; rfl

theorem Operation.ofEnvelope_swap {e : Envelope} {b : SwapBody} (he : e.inscription = .swap b)
    (h : b.Numeric) (rules : Rules) : ∃ op, ofEnvelope e = .ok op ∧
      (op.verdict rules).LooksUp (.ofText b.tick0) (.ofText b.tick1) := by
  obtain ⟨⟨x, hx⟩, ⟨y, hy⟩, ⟨n, hn⟩⟩ := h
  let op : PairOperation := ⟨.swap, ⟨.ofText b.tick0, .ofText b.tick1, x,
    (Amount.ofNat? y.val).getD .max, .zero, n⟩, .zero, e.sender⟩
  have hop : ofSwap e b = .ok op := by
    simp only [ofSwap, amountField_eq_ok_iff.2 hx, boundField_of_ok _ hy, boundField_of_ok _ hn]
    rfl
  have hread : ofEnvelope e = (ofSwap e b).map pair := by rw [ofEnvelope, he]
  rw [hop] at hread
  have hlook : op.verdict.LooksUp op.sides.tickerA op.sides.tickerB :=
    PairOperation.swap_looksUp rfl
  exact ⟨pair op, hread, hlook⟩

/-- The order of the sides makes no difference to a request for a pool. With the sides exchanged, it
gets the same verdict from a store that may fail at any access, and has the same keys and effect; a
batch with such requests comes to the same report and state. Swaps in both directions look up one
pool. -/
theorem Batch.sides_exchangeable {σ : Type} (store : Store σ) (rules : Rules) :
    (∀ e e' : Envelope, e.Exchanged e' → ∃ op op',
      Operation.ofEnvelope e = .ok op ∧ Operation.ofEnvelope e' = .ok op' ∧
      op.footprint = op'.footprint ∧
      ∀ s, store.validateEnvelope rules e s = store.validateEnvelope rules e' s ∧
        store.process rules op s = store.process rules op' s) ∧
    (∀ batch batch', List.Forall₂ (fun e e' => e = e' ∨ e.Exchanged e') batch batch' →
      ∀ limits s, process store rules limits batch s = process store rules limits batch' s) ∧
    ∀ (e e' : Envelope) (b b' : SwapBody), e.inscription = .swap b → e'.inscription = .swap b' →
      b.Numeric → b'.Numeric → b'.tick0 = b.tick1 → b'.tick1 = b.tick0 → ∃ op op',
        Operation.ofEnvelope e = .ok op ∧ Operation.ofEnvelope e' = .ok op' ∧
        (op.verdict rules).LooksUp (.ofText b.tick0) (.ofText b.tick1) ∧
        (op'.verdict rules).LooksUp (.ofText b.tick0) (.ofText b.tick1) := by
  refine ⟨fun e e' h => ?_, fun batch batch' h limits s => ?_,
    fun e e' b b' he he' hb hb' h0 h1 => ?_⟩
  · obtain ⟨op, op', he, he', halike⟩ := Operation.ofEnvelope_exchanged h
    refine ⟨op, op', he, he', halike.footprint, fun s => ⟨?_, halike.process_eq store rules s⟩⟩
    rw [Store.validateEnvelope, Store.validateEnvelope, he, he']
    exact halike.validate_eq store rules s
  · refine process_alike (h.imp fun e e' h => ?_) store rules limits s
    rcases h with rfl | h
    · exact .refl e
    · exact h.alike
  · obtain ⟨op, hop, hlook⟩ := Operation.ofEnvelope_swap he hb rules
    obtain ⟨op', hop', hlook'⟩ := Operation.ofEnvelope_swap he' hb' rules
    rw [h0, h1] at hlook'
    exact ⟨op, op', hop, hop', hlook, hlook'.symm⟩

/-- An offer to the pool of thousands from its other side, and swaps there in both directions. -/
theorem Batch.sides_exchangeable_thousands :
    let l := Ledger.empty.afterAll ⟨true⟩ PairOperation.poolOfThousands
    let by_ (i : Inscription) : Envelope := ⟨⟨2, 0⟩, ⟨"DA"⟩, "", 1, i⟩
    let e := by_ (.add ⟨"bb", "AA", "250", "100", "250", "100"⟩)
    let e' := by_ (.add ⟨"AA", "bb", "100", "250", "100", "250"⟩)
    let there := by_ (.swap ⟨"aa", "BB", "500", "", "1"⟩)
    let back := by_ (.swap ⟨"BB", "aa", "70", "0", ""⟩)
    let k := PoolKey.ofPair (.ofText "aa") (.ofText "BB")
    e.Exchanged e' ∧
      (Store.ledger.validateEnvelope ⟨true⟩ e l).1 =
        .ok (.addLiquidity k ⟨"DA"⟩ (.ofUInt64 250) (.ofUInt64 250) false) ∧
      (Store.ledger.validateEnvelope ⟨true⟩ e' l).1 =
        .ok (.addLiquidity k ⟨"DA"⟩ (.ofUInt64 250) (.ofUInt64 250) false) ∧
      (∀ limits, process Store.ledger ⟨true⟩ limits [e, there] l =
        process Store.ledger ⟨true⟩ limits [e', there] l) ∧
      ∃ op op', Operation.ofEnvelope there = .ok op ∧ Operation.ofEnvelope back = .ok op' ∧
        (∃ next, op.verdict ⟨true⟩ = .ask (.pool k) next) ∧
        ∃ next, op'.verdict ⟨true⟩ = .ask (.pool k) next := by
  intro l by_ e e' there back k
  obtain ⟨requests, batches, swaps⟩ := sides_exchangeable Store.ledger ⟨true⟩
  have hexchanged : e.Exchanged e' :=
    ⟨_, .add ⟨⟨_, rfl⟩, ⟨_, rfl⟩, ⟨_, rfl⟩, ⟨_, rfl⟩⟩, rfl⟩
  have hverdict : (Store.ledger.validateEnvelope ⟨true⟩ e l).1 =
      .ok (.addLiquidity k ⟨"DA"⟩ (.ofUInt64 250) (.ofUInt64 250) false) := by
    decide +kernel
  have hthere : SwapBody.Numeric ⟨"aa", "BB", "500", "", "1"⟩ := ⟨⟨_, rfl⟩, ⟨_, rfl⟩, ⟨_, rfl⟩⟩
  have hback : SwapBody.Numeric ⟨"BB", "aa", "70", "0", ""⟩ := ⟨⟨_, rfl⟩, ⟨_, rfl⟩, ⟨_, rfl⟩⟩
  have hne : Ticker.ofText "aa" ≠ .ofText "BB" := by decide +kernel
  obtain ⟨_, _, -, -, -, hsame⟩ := requests e e' hexchanged
  obtain ⟨op, op', hop, hop', hlook, hlook'⟩ := swaps there back _ _ rfl rfl hthere hback rfl rfl
  rw [Inquiry.LooksUp, if_neg hne] at hlook hlook'
  refine ⟨hexchanged, hverdict, ?_, fun limits => ?_, op, op', hop, hop', hlook.1, hlook'.1⟩
  · rw [← (hsame l).1, hverdict]
  · exact batches _ _ (.cons (.inr hexchanged) (.cons (.inl rfl) .nil)) limits l

end TokenLedger
