import TokenLedger.Proofs.Failure
import TokenLedger.Proofs.Serial

/-! What lanes come to that meet failures. Main statement: settled jobs have the outcomes that they
have without failures, and the pending ones, carried out in chain order from there, have theirs and
lead to the same ledger. -/
namespace TokenLedger

open Function (update)

section

variable {ι β : Type} [DecidableEq ι]

namespace Shuffle

variable {lanes : ι → List β} {xs : List β}

theorem mem_iff (h : Shuffle lanes xs) (x : β) : x ∈ xs ↔ ∃ i, x ∈ lanes i := by
  induction h with
  | nil h => simp [h]
  | @cons lanes xs y i tail hi _ ih =>
    rw [List.mem_cons, ih]
    constructor
    · rintro (rfl | ⟨j, hj⟩)
      · exact ⟨i, hi ▸ List.mem_cons_self⟩
      · by_cases hij : j = i
        · subst hij
          rw [Function.update_self] at hj
          exact ⟨j, hi ▸ List.mem_cons_of_mem _ hj⟩
        · rw [Function.update_of_ne hij] at hj
          exact ⟨j, hj⟩
    · rintro ⟨j, hj⟩
      by_cases hij : j = i
      · subst hij
        rw [hi, List.mem_cons] at hj
        exact hj.imp id fun hj => ⟨j, by rwa [Function.update_self]⟩
      · exact .inr ⟨j, by rwa [Function.update_of_ne hij]⟩

theorem filter (h : Shuffle lanes xs) (p : β → Bool) :
    Shuffle (fun i => (lanes i).filter p) (xs.filter p) := by
  induction h with
  | nil h => exact .nil fun i => by rw [h i, List.filter_nil]
  | @cons lanes xs x i tail hi _ ih =>
    have hlanes : (fun j => (update lanes i tail j).filter p) =
        update (fun j => (lanes j).filter p) i (tail.filter p) :=
      funext fun j => Function.apply_update (fun _ ys => ys.filter p) lanes i tail j
    rw [hlanes] at ih
    by_cases hx : p x = true
    · rw [List.filter_cons_of_pos hx]
      exact .cons i (tail.filter p) (by rw [hi, List.filter_cons_of_pos hx]) ih
    · have hi' : (lanes i).filter p = tail.filter p := by rw [hi, List.filter_cons_of_neg hx]
      rw [List.filter_cons_of_neg hx]
      rwa [← hi', Function.update_eq_self] at ih

end Shuffle

section

variable {xs ys : List β} {p : β → Bool} (hx : ∀ x ∈ xs, p x = false) (hy : ∀ y ∈ ys, p y = true)

include hx hy

omit [DecidableEq ι]

theorem filter_append : (xs ++ ys).filter p = ys := by
  have hxs : xs.filter p = [] := List.filter_eq_nil_iff.2 fun x h => by rw [hx x h]; decide
  rw [List.filter_append, hxs, List.filter_eq_self.2 hy, List.nil_append]

theorem filter_not_append : ((xs ++ ys).filter fun x => !p x) = xs := by
  have hxs : (xs.filter fun x => !p x) = xs :=
    List.filter_eq_self.2 fun x h => by rw [hx x h]; rfl
  have hys : (ys.filter fun y => !p y) = [] :=
    List.filter_eq_nil_iff.2 fun y h => by rw [hy y h]; decide
  rw [List.filter_append, hxs, hys, List.append_nil]

end
end

namespace Store

variable {rules : Rules} {l : Ledger}

theorem processAll_append (store : Store Ledger) (rules : Rules) (xs ys : List Job) (l : Ledger) :
    store.processAll rules (xs ++ ys) l =
      ((store.processAll rules xs l).1 ++
        (store.processAll rules ys (store.processAll rules xs l).2).1,
        (store.processAll rules ys (store.processAll rules xs l).2).2) := by
  induction xs generalizing l with
  | nil => rfl
  | cons job xs ih =>
    simp only [List.cons_append, processAll, ih]

theorem runLane_ledger (rules : Rules) (lane : Lane) (l : Ledger) :
    ledger.runLane rules lane l = ledger.processAll rules lane l := by
  induction lane generalizing l with
  | nil => rfl
  | cons job rest ih =>
    have hnot := isPending_process_ledger rules job.operation l
    rw [runLane, processAll]
    generalize ledger.process rules job.operation l = p at hnot ⊢
    obtain ⟨outcome, l₁⟩ := p
    cases outcome with
    | halted | skipped => cases hnot
    | applied | rejected | unapplied => simp only [ih]

end Store

section

variable {ι : Type} [DecidableEq ι] {lanes : ι → Lane} {jobs : List Job} {K : ι → LedgerKey → Prop}

theorem Shuffle.processAll (h : Shuffle lanes jobs) (rules : Rules)
    (hK : ∀ i key, (lanes i).Touches key → K i key)
    (hd : ∀ i j key, K i key → K j key → i = j) (l : Ledger) :
    ∃ out, Shuffle out (Store.ledger.processAll rules jobs l).1 ∧
      (∀ i m, l.AgreeOn (K i) m → out i = (Store.ledger.processAll rules (lanes i) m).1 ∧
        (Store.ledger.processAll rules jobs l).2.AgreeOn (K i)
          (Store.ledger.processAll rules (lanes i) m).2) ∧
      l.AgreeOn (fun key => ∀ i, ¬K i key) (Store.ledger.processAll rules jobs l).2 := by
  obtain ⟨out, hout, hi⟩ := h.interleaved rules (fun _ => []) l
  have hw (i : ι) : (Task.ofLane rules (lanes i) []).Within (K i) := Task.ofLane_within (hK i) []
  refine ⟨out, hout, fun i m hm => ?_, hi.frame hw⟩
  have halone := hi.alone hw hd i hm
  rwa [Task.run_ofLane, Store.runLane_ledger, List.nil_append, List.nil_append] at halone

end

namespace Lane

section

variable {ι σ : Type} [DecidableEq ι] {rules : Rules} {lanes settled pending : ι → Lane}
  {jobs : List Job} {l l' : Ledger} {out : ι → List (Nat × Outcome)} {p : Job → Bool}

/-- What lanes come to at a store that may fail. The first jobs of each lane are settled as they are
without failures, and the others are pending. -/
structure Interrupted (rules : Rules) (lanes : ι → Lane) (l : Ledger)
    (out : ι → List (Nat × Outcome)) (l' : Ledger) (settled pending : ι → Lane) : Prop where
  split : ∀ i, lanes i = settled i ++ pending i
  outcomes : ∀ i, ∃ rest, out i = (Store.ledger.processAll rules (settled i) l).1 ++ rest ∧
    rest.map Prod.fst = (pending i).map Job.position ∧ ∀ x ∈ rest, x.2.isPending = true
  agree : ∀ i, l'.AgreeOn (lanes i).Touches (Store.ledger.processAll rules (settled i) l).2
  frame : l.AgreeOn (fun key => ∀ i, ¬(lanes i).Touches key) l'

theorem interrupted {store : Store σ} {view : σ → Ledger} {s s' : σ} (hf : store.MayFail view)
    (hd : ∀ i j key, (lanes i).Touches key → (lanes j).Touches key → i = j)
    (h : Interleaved store (fun i => Task.ofLane rules (lanes i) []) s out s') :
    ∃ settled pending, Interrupted rules lanes (view s) out (view s') settled pending := by
  have hw (i : ι) : (Task.ofLane rules (lanes i) []).Within (lanes i).Touches :=
    Task.ofLane_within (fun _ hkey => hkey) []
  have hlane (i : ι) : ∃ settled pending, lanes i = settled ++ pending ∧
      (∃ rest, out i = (Store.ledger.processAll rules settled (view s)).1 ++ rest ∧
        rest.map Prod.fst = pending.map Job.position ∧ ∀ x ∈ rest, x.2.isPending = true) ∧
      (view s').AgreeOn (lanes i).Touches
        (Store.ledger.processAll rules settled (view s)).2 := by
    obtain ⟨m, hrun, hm⟩ := h.fallible hf hw hd i (.refl _ (view s))
    obtain ⟨settled, pending, rest, hsplit, hout, hpos, hpend, rfl⟩ := hrun.ofLane
    exact ⟨settled, pending, hsplit, ⟨rest, hout, hpos, hpend⟩, hm⟩
  choose settled pending hsplit hout hagree using hlane
  exact ⟨settled, pending, hsplit, hout, hagree, h.frame_fallible hf hw⟩

namespace Interrupted

omit [DecidableEq ι]

variable (h : Interrupted rules lanes l out l' settled pending)

include h

theorem positions (i : ι) : (out i).map Prod.fst = (lanes i).map Job.position := by
  obtain ⟨rest, hout, hpos, -⟩ := h.outcomes i
  rw [hout, h.split, List.map_append, List.map_append, hpos, Store.map_fst_processAll]

theorem of_mem_settled {i : ι} {job : Job} (hjob : job ∈ settled i) :
    ∃ o, (job.position, o) ∈ out i ∧ o.isPending = false := by
  obtain ⟨rest, hout, -, -⟩ := h.outcomes i
  have hmem : job.position ∈ (Store.ledger.processAll rules (settled i) l).1.map Prod.fst := by
    rw [Store.map_fst_processAll]
    exact List.mem_map_of_mem hjob
  obtain ⟨x, hx, he⟩ := List.mem_map.1 hmem
  rw [hout, ← he]
  exact ⟨x.2, List.mem_append_left _ hx, Store.isPending_processAll_ledger hx⟩

theorem of_mem_pending {i : ι} {job : Job} (hjob : job ∈ pending i) :
    ∃ o, (job.position, o) ∈ out i ∧ o.isPending = true := by
  obtain ⟨rest, hout, hpos, hpend⟩ := h.outcomes i
  have hmem : job.position ∈ rest.map Prod.fst := hpos ▸ List.mem_map_of_mem hjob
  obtain ⟨x, hx, he⟩ := List.mem_map.1 hmem
  rw [hout, ← he]
  exact ⟨x.2, List.mem_append_right _ hx, hpend x hx⟩

end Interrupted

variable {K : ι → LedgerKey → Prop}

/-- Where a predicate tells the pending jobs of every lane from the settled ones, the settled jobs
alone lead to the ledger that there is, and the pending ones from there to that of all jobs, with
the outcomes that they have among all jobs. -/
theorem Interrupted.resume (h : Interrupted rules lanes l out l' settled pending)
    (hs : Shuffle lanes jobs)
    (hd : ∀ i j key, (lanes i).Touches key → (lanes j).Touches key → i = j)
    (hsettled : ∀ i, ∀ job ∈ settled i, p job = false)
    (hpending : ∀ i, ∀ job ∈ pending i, p job = true) :
    (∀ i, ∀ x ∈ out i, x.2.isPending = false → x ∈ (Store.ledger.processAll rules jobs l).1) ∧
    l' = (Store.ledger.processAll rules (jobs.filter fun job => !p job) l).2 ∧
    (Store.ledger.processAll rules (jobs.filter p) l').2 =
      (Store.ledger.processAll rules jobs l).2 ∧
    ∀ x ∈ (Store.ledger.processAll rules (jobs.filter p) l').1,
      x ∈ (Store.ledger.processAll rules jobs l).1 := by
  have hkept (q : Job → Bool) (i : ι) (key : LedgerKey) :
      Touches ((lanes i).filter q) key → (lanes i).Touches key :=
    fun ⟨job, hjob, hkey⟩ => ⟨job, List.mem_of_mem_filter hjob, hkey⟩
  have hfirst (i : ι) : ((lanes i).filter fun job => !p job) = settled i := by
    rw [h.split]
    exact filter_not_append (hsettled i) (hpending i)
  have hlast (i : ι) : (lanes i).filter p = pending i := by
    rw [h.split]
    exact filter_append (hsettled i) (hpending i)
  obtain ⟨full, hfull, hlanes, hframe⟩ :=
    hs.processAll rules (fun _ _ hkey => hkey) hd l
  obtain ⟨_, -, hlanes₁, hframe₁⟩ :=
    (hs.filter fun job => !p job).processAll rules (hkept _) hd l
  obtain ⟨again, hagain, hlanes₂, hframe₂⟩ :=
    (hs.filter p).processAll rules (hkept _) hd l'
  have hsplit (i : ι) := Store.ledger.processAll_append rules (settled i) (pending i) l
  refine ⟨fun i x hx hnot => ?_, ?_, ?_, fun x hx => ?_⟩
  · obtain ⟨rest, hout, -, hpend⟩ := h.outcomes i
    rw [hout] at hx
    refine (hfull.mem_iff x).2 ⟨i, ?_⟩
    rw [(hlanes i l (.refl _ l)).1, h.split, hsplit]
    refine List.mem_append_left _ ((List.mem_append.1 hx).resolve_right fun hr => ?_)
    rw [hpend x hr] at hnot
    cases hnot
  · refine Ledger.AgreeOn.eq_of_parts (fun i => ?_) (h.frame.symm.trans hframe₁)
    have hlane := (hlanes₁ i l (.refl _ l)).2
    rw [hfirst] at hlane
    exact (h.agree i).trans hlane.symm
  · refine Ledger.AgreeOn.eq_of_parts (fun i => ?_) (hframe₂.symm.trans (h.frame.symm.trans hframe))
    have hlane := (hlanes i l (.refl _ l)).2
    have hrest := (hlanes₂ i _ (h.agree i)).2
    rw [h.split, hsplit, ← h.split] at hlane
    rw [hlast] at hrest
    exact hrest.trans hlane.symm
  · obtain ⟨i, hi⟩ := (hagain.mem_iff x).1 hx
    rw [(hlanes₂ i _ (h.agree i)).1, hlast] at hi
    refine (hfull.mem_iff x).2 ⟨i, ?_⟩
    rw [(hlanes i l (.refl _ l)).1, h.split, hsplit]
    exact List.mem_append_right _ hi

end

/-- The outcomes of lanes leave a job to be processed. -/
def leaves (outcomes : List (Nat × Outcome)) (job : Job) : Bool :=
  ((outcomes.lookup job.position).getD .skipped).isPending

section

variable {n : Nat} {rules : Rules} {lanes settled pending : Fin n → Lane} {jobs : List Job}
  {l l' : Ledger} {out : Fin n → List (Nat × Outcome)}
  (h : Interrupted rules lanes l out l' settled pending) (hs : Shuffle lanes jobs)
  (hn : (jobs.map Job.position).Nodup)

include h hs hn

theorem Interrupted.lookup {i : Fin n} {x : Nat × Outcome} (hx : x ∈ out i) :
    (List.ofFn out).flatten.lookup x.1 = some x.2 := by
  exact (lookup_eq_some_iff (hs.nodup_positions hn h.positions)).2
    (List.mem_flatten.2 ⟨out i, List.mem_ofFn.2 ⟨i, rfl⟩, hx⟩)

theorem Interrupted.leaves_settled {i : Fin n} {job : Job} (hjob : job ∈ settled i) :
    leaves (List.ofFn out).flatten job = false := by
  obtain ⟨o, ho, hnot⟩ := h.of_mem_settled hjob
  rw [leaves, h.lookup hs hn ho]
  exact hnot

theorem Interrupted.leaves_pending {i : Fin n} {job : Job} (hjob : job ∈ pending i) :
    leaves (List.ofFn out).flatten job = true := by
  obtain ⟨o, ho, hpend⟩ := h.of_mem_pending hjob
  rw [leaves, h.lookup hs hn ho]
  exact hpend

theorem Interrupted.resume_lookup
    (hd : ∀ i j key, (lanes i).Touches key → (lanes j).Touches key → i = j)
    {outs : List (Nat × Outcome)} (houts : outs = (List.ofFn out).flatten) :
    (∀ job ∈ jobs, leaves outs job = false →
      outs.lookup job.position = (Store.ledger.processAll rules jobs l).1.lookup job.position) ∧
    l' = (Store.ledger.processAll rules (jobs.filter fun job => !leaves outs job) l).2 ∧
    (Store.ledger.processAll rules (jobs.filter (leaves outs)) l').2 =
      (Store.ledger.processAll rules jobs l).2 ∧
    ∀ job ∈ jobs, leaves outs job = true →
      (Store.ledger.processAll rules (jobs.filter (leaves outs)) l').1.lookup job.position =
        (Store.ledger.processAll rules jobs l).1.lookup job.position := by
  subst houts
  have hfull : ((Store.ledger.processAll rules jobs l).1.map Prod.fst).Nodup := by
    rwa [Store.map_fst_processAll]
  obtain ⟨hout, hwritten, hfinal, hagain⟩ := h.resume hs hd
    (fun _ _ hjob => h.leaves_settled hs hn hjob) fun _ _ hjob => h.leaves_pending hs hn hjob
  refine ⟨fun job hjob hnot => ?_, hwritten, hfinal, fun job hjob hleft => ?_⟩
  · obtain ⟨i, hi⟩ := (hs.mem_iff job).1 hjob
    rw [h.split, List.mem_append] at hi
    rcases hi with hi | hi
    · obtain ⟨o, ho, hp⟩ := h.of_mem_settled hi
      rw [h.lookup hs hn ho, (lookup_eq_some_iff hfull).2 (hout i _ ho hp)]
    · rw [h.leaves_pending hs hn hi] at hnot
      cases hnot
  · have hposition : job.position ∈ (Store.ledger.processAll rules
        (jobs.filter (leaves (List.ofFn out).flatten)) l').1.map Prod.fst := by
      rw [Store.map_fst_processAll]
      exact List.mem_map_of_mem (List.mem_filter.2 ⟨hjob, hleft⟩)
    obtain ⟨⟨k, o⟩, ho, hk⟩ := List.mem_map.1 hposition
    obtain rfl : k = job.position := hk
    rw [(lookup_eq_some_iff hfull).2 (hagain _ ho), lookup_eq_some_iff]
    · exact ho
    · rw [Store.map_fst_processAll]
      exact hn.sublist (List.filter_sublist.map _)

end

end Lane
end TokenLedger
