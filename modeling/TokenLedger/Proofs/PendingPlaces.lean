import TokenLedger.Proofs.Account
import TokenLedger.Proofs.Components

/-! Submitting again by place. A report gives pending operations by their places, and there may be
others at these. Main statement: what is selected at them is what is pending, and what is settled at
a place where something else is pending; in a lane the settled operations come first. -/
namespace TokenLedger

namespace Batch

/-- What the envelopes at the places that a report gives as pending are. -/
structure Selects (batch : List Envelope) (what : Nat → Outcome) (r : Report) : Prop where
  places : r.pendingLocations =
    ((chain batch).filter fun x => (what x.2).isPending).map fun x => x.1.location
  pending : ∀ x ∈ batch.zipIdx, (what x.2).isPending = true → x.1.location ∈ r.pendingLocations
  settled : ∀ x ∈ batch.zipIdx, (what x.2).isPending = false →
    (x.1.location ∈ r.pendingLocations ↔ ∃ y ∈ batch.zipIdx, y.2 ≠ x.2 ∧
      y.1.location = x.1.location ∧ (what y.2).isPending = true)
  settledFirst : ∀ lane ∈ Lane.plan (jobs batch), ∀ x ∈ lane, ∀ y ∈ lane,
    (what x.position).isPending = false → (what y.position).isPending = true →
      InOrder Job.location Job.position x y
  distinct : (batch.map Enveloped.location).Nodup → ∀ x ∈ batch.zipIdx,
    (x.1.location ∈ r.pendingLocations ↔ (what x.2).isPending = true)

section

variable {rules : Rules} {batch : List Envelope} {what : Nat → Outcome} {r : Report}
  (h : Accounts rules batch what r)

include h

namespace Accounts

theorem pendingLocations_eq : r.pendingLocations =
    ((chain batch).filter fun x => (what x.2).isPending).map fun x => x.1.location := by
  rw [Report.pendingLocations, h.entries, List.filter_map, List.map_map]
  rfl

theorem mem_pendingLocations_iff {place : Location} : place ∈ r.pendingLocations ↔
    ∃ y ∈ batch.zipIdx, y.1.location = place ∧ (what y.2).isPending = true := by
  simp only [h.pendingLocations_eq, List.mem_map, List.mem_filter, (chain_perm batch).mem_iff]
  exact exists_congr fun y => by tauto

theorem inOrder_of_settled {lane : Lane} (hlane : lane ∈ Lane.plan (jobs batch)) {x y : Job}
    (hx : x ∈ lane) (hy : y ∈ lane) (hsettled : (what x.position).isPending = false)
    (hpending : (what y.position).isPending = true) : InOrder Job.location Job.position x y := by
  have hcomponents := Lane.components_plan (jobs_increasing batch)
  have hhalts := List.pairwise_map.1 (h.halts lane hlane).pairwise_isPending
  obtain ⟨i, hi, rfl⟩ := List.getElem_of_mem hx
  obtain ⟨j, hj, rfl⟩ := List.getElem_of_mem hy
  rcases Nat.lt_trichotomy i j with hij | rfl | hji
  · exact List.pairwise_iff_getElem.1 (hcomponents.inOrder lane hlane) i j hi hj hij
  · rw [hsettled] at hpending
    cases hpending
  · have hlater := List.pairwise_iff_getElem.1 hhalts j i hj hi hji hpending
    rw [hsettled] at hlater
    cases hlater

theorem selects : Selects batch what r := by
  constructor
  case places => exact h.pendingLocations_eq
  case pending => exact fun x hx hpending => h.mem_pendingLocations_iff.2 ⟨x, hx, rfl, hpending⟩
  case settled =>
    intro x hx hsettled
    rw [h.mem_pendingLocations_iff]
    refine exists_congr fun y => and_congr_right fun _ =>
      ⟨fun hy => ⟨fun he => ?_, hy⟩, fun hy => hy.2⟩
    rw [he, hsettled] at hy
    exact Bool.false_ne_true hy.2
  case settledFirst => exact fun lane hlane x hx y hy => h.inOrder_of_settled hlane hx hy
  case distinct =>
    intro hn x hx
    refine h.mem_pendingLocations_iff.trans
      ⟨fun ⟨y, hy, hplace, hpending⟩ => ?_, fun hpending => ⟨x, hx, rfl, hpending⟩⟩
    have hplaces : (batch.zipIdx.map fun x => x.1.location).Nodup := by
      rwa [← List.zipIdx_map_fst 0 batch, List.map_map] at hn
    rwa [← List.inj_on_of_nodup_map hplaces hy hx hplace]

end Accounts
end

variable {σ : Type} {limits : Limits} {batch : List Envelope}

/-- Whatever a store does, and however the lanes of a batch take turns at it, the places that the
report gives select what is pending, and what is settled only where it shares its place with
something pending. -/
theorem pendingLocations_select (store : Store σ) (rules : Rules) (hne : batch ≠ [])
    (hmax : batch.length ≤ limits.maxBatchSize.toNat) (s : σ) :
    (∀ out s', Interleaved store (tasks rules batch) s out s' →
      ∃ what, Accounts rules batch what (report batch (List.ofFn out)) ∧
        Selects batch what (report batch (List.ofFn out))) ∧
    ∃ what r s', process store rules limits batch s = (.ok r, s') ∧
      Accounts rules batch what r ∧ Selects batch what r := by
  refine ⟨fun out s' h => ⟨_, accounts_of_interleaved h, (accounts_of_interleaved h).selects⟩, ?_⟩
  obtain ⟨out, -, h, hprocess⟩ := process_interleaved store rules hne hmax s
  exact ⟨_, _, _, hprocess, accounts_of_interleaved h, (accounts_of_interleaved h).selects⟩

/-- Two mints at one place, of which the first is carried out and the second meets a failure. -/
theorem pendingLocations_select_two_mints :
    let mint (ticker : String) : Envelope := ⟨⟨1, 0⟩, ⟨"DA"⟩, "", 1, .mint ⟨ticker, "1000"⟩⟩
    let deploy (ticker : String) : Envelope :=
      ⟨⟨0, 0⟩, ⟨"DA"⟩, "", 1, .deploy ⟨ticker, "5000", none, none, none, none⟩⟩
    let store := Store.ledger.behind [⟨.supply, some "BB", .unavailable "timeout"⟩]
    let l := (Store.ledger.processInTurn ⟨false⟩ [deploy "AA", deploy "BB"] .empty).2
    ∃ what r l', process store ⟨false⟩ ⟨2, false⟩ [mint "AA", mint "BB"] l = (.ok r, l') ∧
      Selects [mint "AA", mint "BB"] what r ∧ (what 0).isApplied = true ∧
      (what 1).isPending = true ∧ (mint "AA").location ∈ r.pendingLocations := by
  intro mint deploy store l
  have hsorted : [mint "AA", mint "BB"].Pairwise fun x y => x.location ≤ y.location := by decide
  have hmax : [mint "AA", mint "BB"].length ≤ (Limits.mk 2 false).maxBatchSize.toNat := by decide
  obtain ⟨-, what, r, l', hr, ha, h⟩ := pendingLocations_select store ⟨false⟩
    (List.cons_ne_nil _ _) hmax l
  have hrun := hr
  rw [process_of_sorted hsorted _ _ (List.cons_ne_nil _ _) hmax] at hrun
  obtain ⟨rfl, -⟩ : _ = r ∧ _ = l' := (Prod.ext_iff.1 hrun).imp_left Except.ok.inj
  have hentries := ha.entries
  rw [report, entries_of_sorted hsorted, chain_of_sorted hsorted] at hentries
  simp only [List.zipIdx_cons, List.zipIdx_nil, List.map_cons, List.map_nil, entry,
    List.cons.injEq, Entry.mk.injEq, true_and, and_true] at hentries
  obtain ⟨hfirst, hsecond⟩ := hentries
  have hpending : (what 1).isPending = true := by
    rw [← hsecond]
    decide +kernel
  refine ⟨what, _, l', hr, h, ?_, hpending, h.pending (mint "BB", 1) ?_ hpending⟩
  · rw [← hfirst]
    decide +kernel
  · exact List.mem_cons_of_mem _ List.mem_cons_self

/-- A mint that is carried out twice, as the place at which it was carried out is given as pending
and submitted again. -/
theorem pending_place_replays :
    let mint (ticker : String) : Envelope := ⟨⟨1, 0⟩, ⟨"DA"⟩, "", 1, .mint ⟨ticker, "1000"⟩⟩
    let deploy (ticker : String) : Envelope :=
      ⟨⟨0, 0⟩, ⟨"DA"⟩, "", 1, .deploy ⟨ticker, "5000", none, none, none, none⟩⟩
    let store := Store.ledger.behind [⟨.supply, some "BB", .unavailable "timeout"⟩]
    let l := (Store.ledger.processInTurn ⟨false⟩ [deploy "AA", deploy "BB"] .empty).2
    ∃ r l' again l'', process store ⟨false⟩ ⟨2, false⟩ [mint "AA", mint "BB"] l = (.ok r, l') ∧
      r.entries.map (fun e => e.outcome.isPending) = [false, true] ∧
      r.pendingLocations = [(mint "AA").location] ∧
      l'.held (.ofText "AA") ⟨"DA"⟩ = .ofUInt64 1000 ∧
      process Store.ledger ⟨false⟩ ⟨2, false⟩
        ([mint "AA", mint "BB"].filter fun e => e.location ∈ r.pendingLocations) l' =
          (.ok again, l'') ∧
      l''.held (.ofText "AA") ⟨"DA"⟩ = .ofUInt64 2000 := by
  intro mint deploy store l
  have hsorted : [mint "AA", mint "BB"].Pairwise fun x y => x.location ≤ y.location := by decide
  have hmax : [mint "AA", mint "BB"].length ≤ (Limits.mk 2 false).maxBatchSize.toNat := by decide
  let lanes := Lane.ofSorted (jobs [mint "AA", mint "BB"])
  let first := store.runLanes ⟨false⟩ lanes l
  let second := Store.ledger.runLanes ⟨false⟩ lanes first.2
  have hplaces : (report [mint "AA", mint "BB"] first.1).pendingLocations =
      [(mint "AA").location] := by
    rw [Report.pendingLocations, report, entries_of_sorted hsorted]
    decide +kernel
  refine ⟨report [mint "AA", mint "BB"] first.1, first.2, report [mint "AA", mint "BB"] second.1,
    second.2, process_of_sorted hsorted _ _ (List.cons_ne_nil _ _) hmax l, ?_, hplaces, ?_, ?_, ?_⟩
  · rw [report, entries_of_sorted hsorted]
    decide +kernel
  · decide +kernel
  · rw [hplaces]
    exact process_of_sorted hsorted _ _ (List.cons_ne_nil _ _) hmax first.2
  · decide +kernel

end Batch
end TokenLedger
