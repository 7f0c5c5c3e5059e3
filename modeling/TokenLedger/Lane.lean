import Std.Data.ExtTreeMap
import TokenLedger.Operation

/-! Lanes: operations that are linked by shared keys, in chain order. Operations of different lanes
touch different parts of the ledger. The links are kept in disjoint sets, as a forest: a walk to a
root points what it passes at its grandparent, and the root of the larger tree becomes the root of a
union. -/
namespace TokenLedger

structure DisjointSet (n : Nat) where
  parent : Vector (Fin n) n
  /-- How many numbers a root stands for. Other entries are no longer looked at. -/
  size : Vector Nat n

namespace DisjointSet

variable {n : Nat}

def singletons (n : Nat) : DisjointSet n := ⟨Vector.ofFn id, Vector.replicate n 1⟩

def setParent (s : DisjointSet n) (x p : Fin n) : DisjointSet n :=
  { s with parent := s.parent.set x p }

/-- A walk of at most the given number of steps towards a root. -/
def walk : Nat → DisjointSet n → Fin n → DisjointSet n × Fin n
  | 0, s, x => (s, x)
  | steps + 1, s, x =>
    let p := s.parent[x]
    if p = x then (s, x)
    else
      let g := s.parent[p]
      walk steps (s.setParent x g) g

/-- The root above a number. Sizes grow along parents, so that `n` steps suffice. -/
def find (s : DisjointSet n) (x : Fin n) : DisjointSet n × Fin n := walk n s x

def link (s : DisjointSet n) (root child : Fin n) : DisjointSet n :=
  ⟨s.parent.set child root, s.size.set root (s.size[root] + s.size[child])⟩

def union (s : DisjointSet n) (x y : Fin n) : DisjointSet n :=
  let (s, a) := s.find x
  let (s, b) := s.find y
  if a = b then s
  else if s.size[a] < s.size[b] then s.link b a
  else s.link a b

end DisjointSet

inductive LedgerKey
  | ticker (t : Ticker)
  | pool (k : PoolKey)
  deriving DecidableEq

namespace LedgerKey

instance : ToString LedgerKey where
  toString
    | ticker t => s!"ticker:{t}"
    | pool k => s!"pool:{k}"

instance : Keyed LedgerKey where
  key
    | ticker t => [t.text]
    | pool k => [k.a.text, k.b.text]
  key_injective {x y} h := by
    cases x <;> cases y <;> simp only [List.cons.injEq, and_true, reduceCtorEq, and_false] at h
    · exact congrArg ticker (Ticker.ext h)
    · exact congrArg pool (PoolKey.ext (Ticker.ext h.1) (Ticker.ext h.2))

end LedgerKey

/-- The keys of an operation; a pool comes with both its tickers and its liquidity token. -/
def Operation.footprint : Operation → List LedgerKey
  | token op => [.ticker op.ticker]
  | bridge op => [.ticker op.ticker]
  | pair op => [.ticker op.sides.tickerA, .ticker op.sides.tickerB,
      .ticker op.poolKey.shareTicker, .pool op.poolKey]

/-- An operation of a batch, with its position there. -/
structure Job where
  position : Nat
  location : Location
  operation : Operation
  deriving DecidableEq

abbrev Lane := List Job

/-- The sets of linked jobs, and the first job that touched each key. -/
structure Links (n : Nat) where
  sets : DisjointSet n
  owners : Std.ExtTreeMap LedgerKey (Fin n)

namespace Links

variable {n : Nat}

def none (n : Nat) : Links n := ⟨.singletons n, ∅⟩

def touch (l : Links n) (i : Fin n) (k : LedgerKey) : Links n :=
  match l.owners[k]? with
  | some owner => { l with sets := l.sets.union owner i }
  | .none => { l with owners := l.owners.insert k i }

/-- Links each job with the owners of its keys. -/
def ofFootprints (footprint : Fin n → List LedgerKey) : Links n :=
  (List.finRange n).foldl (fun l i => (footprint i).foldl (fun l k => l.touch i k) l) (none n)

end Links

namespace DisjointSet

def roots {n : Nat} (s : DisjointSet n) : List (Fin n) :=
  ((List.finRange n).foldl (fun (s, rs) i => ((s.find i).1, (s.find i).2 :: rs)) (s, [])).2.reverse

end DisjointSet

namespace Lane

/-- Chain order; jobs at one place stay in the order of the batch. -/
def inChainOrder (jobs : List Job) : List Job := jobs.mergeSort fun x y => x.location ≤ y.location

/-- The lanes of jobs that are in chain order, ordered by their first jobs. -/
def ofSorted (jobs : List Job) : List Lane :=
  let links := Links.ofFootprints fun i : Fin jobs.length => jobs[i].operation.footprint
  let labelled := jobs.zip links.sets.roots
  (links.sets.roots.eraseDups).map fun r => (labelled.filter fun jr => jr.2 = r).map Prod.fst

def plan (jobs : List Job) : List Lane := ofSorted (inChainOrder jobs)

end Lane
end TokenLedger
