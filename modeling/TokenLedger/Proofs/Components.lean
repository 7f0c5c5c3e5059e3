import Mathlib.Data.List.Pairwise
import TokenLedger.Proofs.Lanes
import TokenLedger.Proofs.Order

/-! Lanes as the components of a batch. Two jobs belong together if a chain of jobs links them, of
which neighbours have a key in common. Main statement: the lanes of a plan are these components,
each in chain order and ordered by their first jobs, and no other list of lanes is. -/
namespace TokenLedger

section Groups

variable {α γ : Type} [DecidableEq γ] {ps : List (α × γ)} {r : α → α → Prop}

/-- Labelled elements by label, in the order in which the labels first occur. -/
def groups (ps : List (α × γ)) : List (List α) :=
  (ps.map Prod.snd).eraseDups.map fun c => (ps.filter fun p => p.2 = c).map Prod.fst

theorem groups_cons (x : α) (c : γ) (ps : List (α × γ)) : groups ((x, c) :: ps) =
    (x :: (ps.filter fun p => p.2 = c).map Prod.fst) :: groups (ps.filter fun p => !decide (p.2 = c)) := by
  have hlabels : (ps.map Prod.snd).filter (fun b => !b == c) =
      (ps.filter fun p => !decide (p.2 = c)).map Prod.snd := by
    rw [List.filter_map]
    refine congrArg _ (List.filter_congr fun p _ => ?_)
    simp [beq_eq_decide]
  rw [groups, List.map_cons, List.eraseDups_cons, List.map_cons, hlabels,
    List.filter_cons_of_pos (by simp), List.map_cons, groups]
  refine congrArg _ (List.map_congr_left fun d hd => ?_)
  have hdc : d ≠ c := by
    obtain ⟨p, hp, rfl⟩ := List.mem_map.1 (List.mem_eraseDups.1 hd)
    simpa using (List.mem_filter.1 hp).2
  rw [List.filter_cons_of_neg (by simpa using hdc.symm), List.filter_filter]
  refine congrArg _ (List.filter_congr fun p _ => ?_)
  by_cases hp : p.2 = d
  · simp [hp, hdc]
  · simp [hp]

theorem flatten_groups_perm (ps : List (α × γ)) : (groups ps).flatten.Perm (ps.map Prod.fst) := by
  match ps with
  | [] => exact .refl _
  | (x, c) :: ps =>
    have hlen : (ps.filter fun p => !decide (p.2 = c)).length < ps.length + 1 :=
      Nat.lt_succ_of_le (List.length_filter_le _ _)
    have hsplit := List.filter_append_perm (fun p : α × γ => decide (p.2 = c)) ps
    rw [groups_cons, List.flatten_cons, List.cons_append, List.map_cons]
    refine .cons x (((flatten_groups_perm _).append_left _).trans ?_)
    rw [← List.map_append]
    exact hsplit.map Prod.fst
termination_by ps.length

theorem mem_of_mem_groups {g : List α} {x : α} (hg : g ∈ groups ps) (hx : x ∈ g) :
    x ∈ ps.map Prod.fst :=
  (flatten_groups_perm ps).mem_iff.1 (List.mem_flatten.2 ⟨g, hg, hx⟩)

theorem nil_not_mem_groups : [] ∉ groups ps := by
  intro h
  obtain ⟨c, hc, hnil⟩ := List.mem_map.1 h
  obtain ⟨p, hp, rfl⟩ := List.mem_map.1 (List.mem_eraseDups.1 hc)
  have hp' : p.1 ∈ (ps.filter fun q => q.2 = p.2).map Prod.fst :=
    List.mem_map_of_mem (List.mem_filter.2 ⟨hp, by simp⟩)
  rw [hnil] at hp'
  cases hp'

theorem together_iff {x y : α} :
    (∃ g ∈ groups ps, x ∈ g ∧ y ∈ g) ↔ ∃ c, (x, c) ∈ ps ∧ (y, c) ∈ ps := by
  have hmem (z : α) (c : γ) : z ∈ (ps.filter fun p => p.2 = c).map Prod.fst ↔ (z, c) ∈ ps := by
    simp
  constructor
  · rintro ⟨g, hg, hx, hy⟩
    obtain ⟨c, -, rfl⟩ := List.mem_map.1 hg
    exact ⟨c, (hmem x c).1 hx, (hmem y c).1 hy⟩
  · rintro ⟨c, hx, hy⟩
    refine ⟨_, List.mem_map_of_mem (List.mem_eraseDups.2 (List.mem_map_of_mem hx)), ?_⟩
    exact ⟨(hmem x c).2 hx, (hmem y c).2 hy⟩

theorem pairwise_of_mem_groups (h : (ps.map Prod.fst).Pairwise r) {g : List α}
    (hg : g ∈ groups ps) : g.Pairwise r := by
  obtain ⟨c, -, rfl⟩ := List.mem_map.1 hg
  exact h.sublist (List.filter_sublist.map _)

theorem pairwise_groups {ps : List (α × γ)} (h : (ps.map Prod.fst).Pairwise r) :
    (groups ps).Pairwise fun g g' => ∀ x ∈ g.head?, ∀ y ∈ g', r x y := by
  match ps with
  | [] => exact .nil
  | (x, c) :: ps =>
    have hlen : (ps.filter fun p => !decide (p.2 = c)).length < ps.length + 1 :=
      Nat.lt_succ_of_le (List.length_filter_le _ _)
    rw [List.map_cons, List.pairwise_cons] at h
    have hsub : ((ps.filter fun p => !decide (p.2 = c)).map Prod.fst).Sublist (ps.map Prod.fst) :=
      List.filter_sublist.map _
    rw [groups_cons, List.pairwise_cons]
    refine ⟨fun g hg x' hx' y hy => ?_, pairwise_groups (h.2.sublist hsub)⟩
    obtain rfl : x = x' := by simpa using hx'
    exact h.1 y (hsub.subset (mem_of_mem_groups hg hy))
termination_by ps.length

end Groups

/-- A chain of jobs of a list links two jobs, and neighbours in it have a key in common. -/
def Job.Linked (jobs : List Job) : Job → Job → Prop :=
  Relation.ReflTransGen fun x y => x ∈ jobs ∧ y ∈ jobs ∧
    ∃ key ∈ x.operation.footprint, key ∈ y.operation.footprint

def Job.numbered (batch : List (Location × Operation)) : List Job :=
  batch.zipIdx.map fun x => ⟨x.2, x.1.1, x.1.2⟩

namespace Lane

/-- Every job is in exactly one lane and there once, jobs share a lane if and only if they are
linked, and chain order is the order within lanes and of the first jobs of lanes. -/
structure Components (jobs : List Job) (lanes : List Lane) : Prop where
  perm : lanes.flatten.Perm jobs
  nonempty : [] ∉ lanes
  linked : ∀ x ∈ jobs, ∀ y ∈ jobs, (∃ lane ∈ lanes, x ∈ lane ∧ y ∈ lane) ↔ Job.Linked jobs x y
  inOrder : ∀ lane ∈ lanes, lane.Pairwise (InOrder Job.location Job.position)
  firsts : lanes.Pairwise fun l m =>
    ∀ x ∈ l.head?, ∀ y ∈ m.head?, InOrder Job.location Job.position x y

/-- The lanes of jobs that are in chain order when jobs and keys are visited in some order. -/
def ofVisits (jobs : List Job) (visits : List (Fin jobs.length × LedgerKey)) : List Lane :=
  groups (jobs.zip (visits.foldl (fun l v => l.touch v.1 v.2) (Links.none jobs.length)).sets.roots)

section

variable {jobs sorted : List Job} {root : Fin sorted.length → Fin sorted.length}

theorem mem_zip_roots {x : Job} {c : Fin sorted.length} :
    (x, c) ∈ sorted.zip ((List.finRange sorted.length).map root) ↔
      ∃ i, sorted.get i = x ∧ root i = c := by
  have hzip : sorted.zip ((List.finRange sorted.length).map root) =
      (List.finRange sorted.length).map fun i => (sorted.get i, root i) :=
    List.ext_getElem (by simp) fun i _ _ => by simp
  simp [hzip]

theorem linked_get_iff (hperm : sorted.Perm jobs) (hn : sorted.Nodup) {i j : Fin sorted.length} :
    Relation.ReflTransGen (fun i j : Fin sorted.length =>
      ∃ key ∈ (sorted.get i).operation.footprint, key ∈ (sorted.get j).operation.footprint) i j ↔
      Job.Linked jobs (sorted.get i) (sorted.get j) := by
  have hmem (i : Fin sorted.length) : sorted.get i ∈ jobs := hperm.mem_iff.1 (List.get_mem ..)
  refine ⟨fun h => h.lift sorted.get fun a b hab => ⟨hmem a, hmem b, hab⟩, fun h => ?_⟩
  generalize hy : sorted.get j = y at h
  induction h generalizing j with
  | refl =>
    rw [List.nodup_iff_injective_get.1 hn hy]
  | tail _ hstep ih =>
    obtain ⟨hx, -, hkey⟩ := hstep
    obtain ⟨m, hm⟩ := List.get_of_mem (hperm.mem_iff.2 hx)
    subst hy
    exact (ih hm).tail (hm ▸ hkey)

theorem components_groups (hperm : sorted.Perm jobs)
    (hs : sorted.Pairwise (InOrder Job.location Job.position)) (hn : (jobs.map Job.position).Nodup)
    (hroot : ∀ {i j}, root i = root j ↔ Relation.ReflTransGen (fun i j : Fin sorted.length =>
      ∃ key ∈ (sorted.get i).operation.footprint, key ∈ (sorted.get j).operation.footprint) i j) :
    Components jobs (groups (sorted.zip ((List.finRange sorted.length).map root))) := by
  have hnodup : sorted.Nodup := hperm.nodup_iff.2 (.of_map _ hn)
  have hfst : (sorted.zip ((List.finRange sorted.length).map root)).map Prod.fst = sorted :=
    List.map_fst_zip (by simp)
  constructor
  case perm =>
    have hflat := flatten_groups_perm (sorted.zip ((List.finRange sorted.length).map root))
    rw [hfst] at hflat
    exact hflat.trans hperm
  case nonempty => exact nil_not_mem_groups
  case linked =>
    intro x hx y hy
    obtain ⟨i, rfl⟩ := List.get_of_mem (hperm.mem_iff.2 hx)
    obtain ⟨j, rfl⟩ := List.get_of_mem (hperm.mem_iff.2 hy)
    simp only [together_iff, mem_zip_roots, List.nodup_iff_injective_get.1 hnodup |>.eq_iff,
      exists_eq_left, exists_eq_left']
    rw [← linked_get_iff hperm hnodup, ← hroot, eq_comm]
  case inOrder => exact fun lane hlane => pairwise_of_mem_groups (hfst.symm ▸ hs) hlane
  case firsts =>
    refine (pairwise_groups (hfst.symm ▸ hs)).imp fun h x hx y hy => h x hx y ?_
    exact List.mem_of_mem_head? hy

/-- However jobs and keys are visited, the lanes are the components. -/
theorem components_ofVisits (hperm : sorted.Perm jobs)
    (hs : sorted.Pairwise (InOrder Job.location Job.position)) (hn : (jobs.map Job.position).Nodup)
    {visits : List (Fin sorted.length × LedgerKey)}
    (hv : visits.Perm (Links.visits fun i => (sorted.get i).operation.footprint)) :
    Components jobs (ofVisits sorted visits) := by
  obtain ⟨root, hf, hroot⟩ := Links.foldl_visits_joined hv
  rw [ofVisits, hf.roots]
  exact components_groups hperm hs hn hroot

end

theorem ofSorted_eq (jobs : List Job) : ofSorted jobs =
    ofVisits jobs (Links.visits fun i => (jobs.get i).operation.footprint) := by
  rw [ofVisits, ← Links.ofFootprints_eq]
  obtain ⟨root, hf, -⟩ :=
    Links.ofFootprints_joined fun i : Fin jobs.length => (jobs.get i).operation.footprint
  have hsnd : (jobs.zip ((List.finRange jobs.length).map root)).map Prod.snd =
      (List.finRange jobs.length).map root := List.map_snd_zip (by simp)
  rw [groups, hf.roots, hsnd, ← hf.roots]
  rfl

namespace Components

variable {jobs : List Job} {lanes lanes' : List Lane}

theorem lane_eq (h : Components jobs lanes) (hn : jobs.Nodup) {l m : Lane} {x : Job}
    (hl : l ∈ lanes) (hm : m ∈ lanes) (hxl : x ∈ l) (hxm : x ∈ m) : l = m := by
  have hdisjoint := (List.nodup_flatten.1 (h.perm.nodup_iff.2 hn)).2
  have : Std.Symm (List.Disjoint (α := Job)) := ⟨fun _ _ hd => hd.symm⟩
  by_contra hne
  exact hdisjoint.forall hl hm hne hxl hxm

theorem mem_lane_iff (h : Components jobs lanes) (hn : jobs.Nodup) {lane : Lane} {x y : Job}
    (hlane : lane ∈ lanes) (hx : x ∈ lane) : y ∈ lane ↔ y ∈ jobs ∧ Job.Linked jobs x y := by
  have hjob {z : Job} (hz : z ∈ lane) : z ∈ jobs :=
    h.perm.mem_iff.1 (List.mem_flatten.2 ⟨lane, hlane, hz⟩)
  constructor
  · exact fun hy => ⟨hjob hy, (h.linked x (hjob hx) y (hjob hy)).1 ⟨lane, hlane, hx, hy⟩⟩
  · rintro ⟨hy, hlink⟩
    obtain ⟨m, hm, hxm, hym⟩ := (h.linked x (hjob hx) y hy).2 hlink
    rwa [h.lane_eq hn hlane hm hx hxm]

theorem subset (h : Components jobs lanes) (h' : Components jobs lanes')
    (hn : (jobs.map Job.position).Nodup) : lanes ⊆ lanes' := by
  intro l hl
  have hjobs : jobs.Nodup := .of_map _ hn
  obtain ⟨x, hx⟩ := List.exists_mem_of_ne_nil l fun hnil => h.nonempty (hnil ▸ hl)
  have hxjob : x ∈ jobs := h.perm.mem_iff.1 (List.mem_flatten.2 ⟨l, hl, hx⟩)
  obtain ⟨m, hm, hxm⟩ := List.mem_flatten.1 (h'.perm.mem_iff.2 hxjob)
  have hlanes {k : List Lane} {lane : Lane} (hk : Components jobs k) (hmem : lane ∈ k) :
      lane.Sublist k.flatten := List.sublist_flatten_of_mem hmem
  have hperm : l.Perm m := by
    refine (List.perm_ext_iff_of_nodup ?_ ?_).2 fun y => ?_
    · exact (h.perm.nodup_iff.2 hjobs).sublist (hlanes h hl)
    · exact (h'.perm.nodup_iff.2 hjobs).sublist (hlanes h' hm)
    · rw [h.mem_lane_iff hjobs hl hx, h'.mem_lane_iff hjobs hm hxm]
  have hpositions : (l.map Job.position).Nodup :=
    ((h.perm.map _).nodup_iff.2 hn).sublist ((hlanes h hl).map _)
  rwa [eq_of_inOrder hpositions hperm (h.inOrder l hl) (h'.inOrder m hm)]

/-- There is one list of components. -/
theorem unique (h : Components jobs lanes) (h' : Components jobs lanes')
    (hn : (jobs.map Job.position).Nodup) : lanes = lanes' := by
  have hjobs : jobs.Nodup := .of_map _ hn
  have hnodup {k : List Lane} (hk : Components jobs k) : k.Nodup := by
    have hdisjoint := (List.nodup_flatten.1 (hk.perm.nodup_iff.2 hjobs)).2
    refine hdisjoint.imp_of_mem fun {l m} hl _ hd he => hk.nonempty ?_
    have hnil : l = [] := List.eq_nil_iff_forall_not_mem.2 fun x hx => hd hx (he ▸ hx)
    exact hnil ▸ hl
  have hperm : lanes.Perm lanes' := (List.perm_ext_iff_of_nodup (hnodup h) (hnodup h')).2
    fun l => ⟨fun hl => h.subset h' hn hl, fun hl => h'.subset h hn hl⟩
  refine hperm.eq_of_pairwise (fun l m hl hm hlm hml => ?_) h.firsts h'.firsts
  have hfirst {lane : Lane} (hlane : lane ∈ lanes) : ∃ x ∈ lane.head?, x ∈ lane ∧ x ∈ jobs := by
    obtain ⟨x, rest, rfl⟩ := List.exists_cons_of_ne_nil fun hnil => h.nonempty (hnil ▸ hlane)
    have hx : x ∈ x :: rest := List.mem_cons_self
    exact ⟨x, rfl, hx, h.perm.mem_iff.1 (List.mem_flatten.2 ⟨_, hlane, hx⟩)⟩
  have hm' := h'.subset h hn hm
  obtain ⟨x, hx, hxl, hxjob⟩ := hfirst hl
  obtain ⟨y, hy, hym, hyjob⟩ := hfirst hm'
  obtain rfl := InOrder.antisymm hn hxjob hyjob (hlm x hx y hy) (hml y hy x hx)
  exact h.lane_eq hjobs hl hm' hxl hym

end Components

theorem components_visits {jobs : List Job} (h : jobs.Pairwise fun x y => x.position < y.position)
    {visits : List (Fin (inChainOrder jobs).length × LedgerKey)}
    (hv : visits.Perm (Links.visits fun i => ((inChainOrder jobs).get i).operation.footprint)) :
    Components jobs (ofVisits (inChainOrder jobs) visits) :=
  components_ofVisits (List.mergeSort_perm _ _) (pairwise_sort_place h)
    (List.pairwise_map.2 (h.imp Nat.ne_of_lt)) hv

theorem components_plan {jobs : List Job} (h : jobs.Pairwise fun x y => x.position < y.position) :
    Components jobs (plan jobs) := by
  rw [plan, ofSorted_eq]
  exact components_visits h (.refl _)

theorem position_numbered (batch : List (Location × Operation)) :
    (Job.numbered batch).map Job.position = List.range batch.length := by
  rw [Job.numbered, List.map_map, List.range_eq_range', ← List.zipIdx_map_snd]
  rfl

/-- The lanes of a plan are the components of the batch, with every position in them once, and no
other list of lanes is. The order in which jobs and keys are visited makes no difference. -/
theorem plan_components (batch : List (Location × Operation)) :
    ((plan (Job.numbered batch)).flatten.map Job.position).Perm (List.range batch.length) ∧
    (∀ lanes, Components (Job.numbered batch) lanes ↔ lanes = plan (Job.numbered batch)) ∧
    ∀ visits : List (Fin (inChainOrder (Job.numbered batch)).length × LedgerKey),
      visits.Perm (Links.visits fun i =>
        ((inChainOrder (Job.numbered batch)).get i).operation.footprint) →
      ofVisits (inChainOrder (Job.numbered batch)) visits = plan (Job.numbered batch) := by
  have hrange : ((Job.numbered batch).map Job.position).Pairwise (· < ·) :=
    position_numbered batch ▸ List.pairwise_lt_range
  have hincreasing := List.pairwise_map.1 hrange
  have hn : ((Job.numbered batch).map Job.position).Nodup := hrange.imp Nat.ne_of_lt
  have hplan : Components (Job.numbered batch) (plan (Job.numbered batch)) :=
    components_plan hincreasing
  refine ⟨?_, fun lanes => ⟨fun h => h.unique hplan hn, fun h => h ▸ hplan⟩, fun visits hv => ?_⟩
  · rw [← position_numbered]
    exact hplan.perm.map _
  · exact (components_visits hincreasing hv).unique hplan hn

end Lane
end TokenLedger
