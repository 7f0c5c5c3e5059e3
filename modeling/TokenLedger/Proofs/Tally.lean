import Mathlib.Algebra.BigOperators.Group.List.Lemmas
import TokenLedger.Proofs.Account
import TokenLedger.Proofs.Chunks

/-! What a run counts. While lines are read, every line that is not blank is malformed, rejected,
applied, refused or still gathered, and what is gathered is less than a batch. Main statement: a run
of any text against any ledger ends, and its summary accounts for every line that is not blank. -/
namespace TokenLedger

theorem Reason.sum_tally (rs : List Reason) : ((tally rs).map Prod.snd).sum = rs.length := by
  have hperm : (all.filter fun r => decide (rs.count r ≠ 0)).Perm rs.dedup := by
    refine (List.perm_ext_iff_of_nodup (nodup_all.filter _) rs.nodup_dedup).2 fun r => ?_
    simp [mem_all, List.count_eq_zero]
  have hcounts : (tally rs).map Prod.snd =
      (all.filter fun r => decide (rs.count r ≠ 0)).map fun r => rs.count r := by
    rw [tally, List.filter_map, List.map_map]
    rfl
  rw [hcounts, (hperm.map _).sum_eq, List.sum_map_count_dedup_eq_length]

namespace Line

def isMalformed (text : String) : Bool :=
  ((Json.read text).decode Enveloped.rawDecoder).toOption.isNone

/-- The envelope that a text is, if its document is read as well. -/
def envelope? (text : String) : Option Envelope :=
  ((Json.read text).decode Enveloped.rawDecoder).toOption.bind fun raw => raw.open.toOption

theorem read_spec (text : String) :
    (read text = .malformed → isMalformed text = true ∧ envelope? text = none) ∧
    (∀ e, read text = .undecodable e → isMalformed text = false ∧ envelope? text = none) ∧
    ∀ e, read text = .envelope e → isMalformed text = false ∧ envelope? text = some e := by
  rw [read, isMalformed, envelope?]
  cases (Json.read text).decode Enveloped.rawDecoder with
  | error err => simp [Except.toOption]
  | ok raw => cases hopen : raw.open <;> simp [Except.toOption, hopen]

end Line

/-- Every envelope of the batch has its outcome, and nothing is left to do. -/
structure Report.Settles (r : Report) (batch : List Envelope) : Prop where
  total : r.applied + r.rejected + r.unapplied = batch.length
  haltedLanes : r.haltedLanes = 0
  pending : r.pendingLocations = []

theorem Batch.settles_reference (rules : Rules) (batch : List Envelope) (l : Ledger) :
    (reference rules batch l).1.Settles batch := by
  have hnone : ∀ e ∈ (reference rules batch l).1.entries, ¬e.outcome.isPending = true :=
    fun e he => by simp [Store.isPending_processInTurn_ledger he]
  constructor
  case total =>
    have hsum := (reference rules batch l).1.counts_add
    have hlen : (reference rules batch l).1.entries.length = batch.length := by
      rw [reference, Store.length_processInTurn, (perm_map_fst_chain batch).length_eq]
    have hpending : (reference rules batch l).1.pending = 0 := List.countP_eq_zero.2 hnone
    omega
  case haltedLanes => rfl
  case pending => rw [Report.pendingLocations, List.filter_eq_nil_iff.2 hnone, List.map_nil]

namespace Feed

/-- Whatever is gathered, up to a size, is settled. -/
def SettlesBatches (chunk : Nat) (process : Processor Ledger) : Prop :=
  ∀ batch l, batch ≠ [] → batch.length ≤ chunk →
    ∃ r l', process batch l = (.ok r, l') ∧ r.Settles batch

theorem settlesBatches_of_yields {process : Processor Ledger} {rules : Rules} {limits : Limits}
    (h : ∀ batch l,
      Batch.Yields rules limits batch l (process batch l).1 (process batch l).2) :
    SettlesBatches limits.maxBatchSize.toNat process := by
  intro batch l hne hmax
  obtain ⟨hr, hl⟩ := (h batch l).eq_reference hne hmax
  exact ⟨_, _, Prod.ext hr hl, Batch.settles_reference rules batch l⟩

end Feed

namespace Summary

/-- Each of the texts that were read is malformed, has its outcome or is gathered for a batch. -/
structure Balances (texts : List String) (gathered : Nat) (s : Summary) : Prop where
  lines : s.lines = texts.length
  malformed : s.malformed = texts.countP Line.isMalformed
  total : s.lines = s.malformed + s.applied + s.unapplied + s.reasons.length + gathered
  haltedLanes : s.haltedLanes = 0
  pending : s.pending = []

/-- Before the last batch all batches are full. -/
structure Tallies (size : Nat) (texts : List String) (gathered : Nat) (s : Summary) : Prop
    extends Balances texts gathered s where
  batches : (texts.filterMap Line.envelope?).length = size * s.batches + gathered

/-- The summary accounts for the texts, with as many batches of a size as their envelopes take. -/
structure Accounts (size : Nat) (texts : List String) (s : Summary) : Prop where
  lines : s.lines = texts.length
  malformed : s.malformed = texts.countP Line.isMalformed
  total : s.lines = s.malformed + s.applied + s.unapplied +
    ((Reason.tally s.reasons).map Prod.snd).sum + s.pending.length
  haltedLanes : s.haltedLanes = 0
  batches : s.batches = Feed.batchCount (texts.filterMap Line.envelope?).length size

variable {size n : Nat} {texts : List String} {text : String} {s : Summary} {r : Report}
  {batch : List Envelope}

theorem tallies_empty (size : Nat) : Tallies size [] 0 empty :=
  ⟨⟨rfl, rfl, rfl, rfl, rfl⟩, rfl⟩

namespace Tallies

/-- One more text is read. It counts as malformed, as gathered or among the outcomes. -/
theorem concat {s' : Summary} {bad fresh : Nat} (h : s.Tallies size texts n)
    (hbad : [text].countP Line.isMalformed = bad)
    (hfresh : ([text].filterMap Line.envelope?).length = fresh)
    (hlines : s'.lines = s.lines + 1) (hmalformed : s'.malformed = s.malformed + bad)
    (htotal : bad + (s'.applied + s'.unapplied + s'.reasons.length) + fresh =
      s.applied + s.unapplied + s.reasons.length + 1)
    (hbatches : s'.batches = s.batches) (hhalted : s'.haltedLanes = s.haltedLanes)
    (hpending : s'.pending = s.pending) : s'.Tallies size (texts ++ [text]) (n + fresh) := by
  have hsum := h.total
  constructor
  case toBalances =>
    constructor
    case lines => rw [hlines, h.lines, List.length_append, List.length_singleton]
    case malformed => rw [hmalformed, h.malformed, List.countP_append, hbad]
    case total => omega
    case haltedLanes => exact hhalted.trans h.haltedLanes
    case pending => exact hpending.trans h.pending
  case batches =>
    rw [List.filterMap_append, List.length_append, hfresh, h.batches, hbatches, Nat.add_assoc]

theorem addMalformed (h : s.Tallies size texts n) (ht : Line.read text = .malformed) :
    s.addLine.addMalformed.Tallies size (texts ++ [text]) n := by
  have hread := (Line.read_spec text).1 ht
  have hbad : [text].countP Line.isMalformed = 1 := by simp [hread]
  have hfresh : ([text].filterMap Line.envelope?).length = 0 := by simp [hread]
  refine h.concat hbad hfresh rfl rfl ?_ rfl rfl rfl
  simp [addLine, Summary.addMalformed, Nat.add_comm]

theorem addReason {e : InscriptionError} (h : s.Tallies size texts n)
    (ht : Line.read text = .undecodable e) :
    (s.addLine.addReason e.reason).Tallies size (texts ++ [text]) n := by
  have hread := (Line.read_spec text).2.1 e ht
  have hbad : [text].countP Line.isMalformed = 0 := by simp [hread]
  have hfresh : ([text].filterMap Line.envelope?).length = 0 := by simp [hread]
  refine h.concat hbad hfresh rfl rfl ?_ rfl rfl rfl
  simp [addLine, Summary.addReason, Nat.add_assoc]

theorem gather {e : Envelope} (h : s.Tallies size texts n) (ht : Line.read text = .envelope e) :
    s.addLine.Tallies size (texts ++ [text]) (n + 1) := by
  have hread := (Line.read_spec text).2.2 e ht
  have hbad : [text].countP Line.isMalformed = 0 := by simp [hread]
  have hfresh : ([text].filterMap Line.envelope?).length = 1 := by simp [hread]
  exact h.concat hbad hfresh rfl rfl (by simp [addLine]) rfl rfl rfl

end Tallies

theorem Balances.addReport (h : s.Balances texts batch.length) (hr : r.Settles batch) :
    (s.addReport r).Balances texts 0 where
  lines := h.lines
  malformed := h.malformed
  total := by
    have hs := h.total
    have hb := hr.total
    simp only [Summary.addReport, List.length_append, Report.rejected] at hb ⊢
    omega
  haltedLanes := by simp [Summary.addReport, h.haltedLanes, hr.haltedLanes]
  pending := by simp [Summary.addReport, h.pending, hr.pending]

theorem Tallies.addReport (h : s.Tallies size texts batch.length) (hr : r.Settles batch)
    (hfull : batch.length = size) : (s.addReport r).Tallies size texts 0 where
  toBalances := h.toBalances.addReport hr
  batches := by
    have := h.batches
    simp only [Summary.addReport, Nat.mul_add]
    omega

theorem Balances.isComplete (h : s.Balances texts n) : s.isComplete = true :=
  beq_iff_eq.2 h.haltedLanes

theorem Balances.accounts (h : s.Balances texts 0)
    (hb : s.batches = Feed.batchCount (texts.filterMap Line.envelope?).length size) :
    s.Accounts size texts where
  lines := h.lines
  malformed := h.malformed
  total := by rw [Reason.sum_tally, h.pending, h.total, List.length_nil]
  haltedLanes := h.haltedLanes
  batches := hb

end Summary

namespace Feed

open Summary (Tallies Accounts)

variable {process : Processor Ledger} {chunk n : Nat} {texts : List String} {summary : Summary}
  {batch : List Envelope}

theorem SettlesBatches.flush (h : SettlesBatches chunk process) (hne : batch ≠ [])
    (hmax : batch.length ≤ chunk) (summary : Summary) (l : Ledger) :
    ∃ r l', flush process batch summary l = (.ok (summary.addReport r), l') ∧ r.Settles batch := by
  obtain ⟨r, l', hr, hs⟩ := h batch l hne hmax
  exact ⟨r, l', by rw [Feed.flush, hr], hs⟩

theorem SettlesBatches.runFrom_nil (h : SettlesBatches chunk process) {gathered : List Envelope}
    (hg : gathered.length < chunk) (ht : summary.Tallies chunk texts gathered.length)
    (number : Nat) (l : Ledger) :
    ∃ summary' l', runFrom process chunk number [] gathered summary l = (.ok summary', l') ∧
      summary'.Accounts chunk texts := by
  have hchunk : 0 < chunk := Nat.zero_lt_of_lt hg
  rw [Feed.runFrom]
  split
  · next hnil =>
    subst hnil
    refine ⟨summary, l, rfl, ht.toBalances.accounts ?_⟩
    rw [ht.batches, batchCount_mul_add hchunk, List.length_nil, batchCount_zero hchunk]
    rfl
  · next hne =>
    have hlen := gathered.length_reverse
    obtain ⟨r, l', hflush, hr⟩ := h.flush (mt List.reverse_eq_nil_iff.1 hne)
      (hlen ▸ Nat.le_of_lt hg) summary l
    refine ⟨_, l', hflush, ((hlen ▸ ht.toBalances).addReport hr).accounts ?_⟩
    rw [ht.batches, batchCount_mul_add hchunk,
      batchCount_of_le (List.length_pos_of_ne_nil hne) (Nat.le_of_lt hg)]
    rfl

/-- Wherever lines are cut into batches, every one of them that is not blank is accounted for. -/
theorem SettlesBatches.runFrom (h : SettlesBatches chunk process) (lines : List String)
    {gathered : List Envelope} (hg : gathered.length < chunk)
    (ht : summary.Tallies chunk texts gathered.length) (number : Nat) (l : Ledger) :
    ∃ summary' l', runFrom process chunk number (lines.map some) gathered summary l =
        (.ok summary', l') ∧
      summary'.Accounts chunk (texts ++ Text.nonblank lines) := by
  induction lines generalizing texts gathered summary number l with
  | nil =>
    rw [List.map_nil, Text.nonblank_nil, List.append_nil]
    exact h.runFrom_nil hg ht number l
  | cons line lines ih =>
    rw [List.map_cons, Feed.runFrom, Text.nonblank_cons]
    dsimp only
    by_cases hblank : Text.trim line = ""
    · rw [if_pos hblank, if_pos hblank]
      exact ih hg ht _ _
    rw [if_neg hblank, if_neg hblank, List.append_cons]
    cases hread : Line.read (Text.trim line) with
    | malformed => exact ih hg (ht.addMalformed hread) _ _
    | undecodable e => exact ih hg (ht.addReason hread) _ _
    | envelope e =>
      have hgather := ht.gather hread
      dsimp only
      split
      · next hfull =>
        have hlen : (e :: gathered).reverse.length = chunk := by
          rw [List.length_reverse, List.length_cons, hfull]
        obtain ⟨r, l', hflush, hr⟩ := h.flush (by simp) (Nat.le_of_eq hlen) summary.addLine l
        have htally := (hlen.trans hfull.symm ▸ hgather).addReport hr hlen
        rw [hflush]
        dsimp only
        rw [if_pos htally.toBalances.isComplete]
        have hnil : ([] : List Envelope).length < chunk := Nat.zero_lt_of_lt hg
        exact ih hnil htally _ _
      · next hfull =>
        have hlt : (e :: gathered).length < chunk := by
          rw [List.length_cons]
          omega
        exact ih hlt hgather _ _

/-- Every line of a text is accounted for. As long as there is a buffer for a batch, a run against
any ledger ends with a summary, whichever lines the text has and in whatever order its envelopes
come. It makes no difference how the lanes of a batch take turns. Without a buffer no line is
read. -/
theorem run_accounts {settings : Settings} (hmax : 1 ≤ settings.limits.maxBatchSize.toNat)
    (memory : Memory) (text : String) (l : Ledger) :
    (memory.Holds settings.limits.maxBatchSize.toNat →
      (∃ summary l', run memory Store.ledger settings text.toUTF8 l = (.ok summary, l') ∧
        summary.Accounts settings.limits.maxBatchSize.toNat (Text.nonblank (Text.pieces text))) ∧
      ∀ process : Processor Ledger, (∀ batch l, Batch.Yields settings.rules settings.limits batch l
          (process batch l).1 (process batch l).2) →
        ∃ summary l', runLines memory process (chunkSize settings.limits) (Text.lines text.toUTF8)
            l = (.ok summary, l') ∧
          summary.Accounts settings.limits.maxBatchSize.toNat
            (Text.nonblank (Text.pieces text))) ∧
    ∀ e, memory.reserve settings.limits.maxBatchSize.toNat = .error e →
      run memory Store.ledger settings text.toUTF8 l = (.error (.unreserved e), l) := by
  constructor
  · intro hholds
    have hall (process : Processor Ledger) (h : ∀ batch l, Batch.Yields settings.rules
        settings.limits batch l (process batch l).1 (process batch l).2) :
        ∃ summary l', runLines memory process (chunkSize settings.limits) (Text.lines text.toUTF8)
            l = (.ok summary, l') ∧
          summary.Accounts settings.limits.maxBatchSize.toNat
            (Text.nonblank (Text.pieces text)) := by
      obtain ⟨lines, hread, hnonblank⟩ := Text.lines_toUTF8 text
      have hnil : ([] : List Envelope).length < settings.limits.maxBatchSize.toNat := hmax
      rw [hread, chunkSize_of_pos hmax, runLines_of_holds hholds, ← hnonblank]
      exact (settlesBatches_of_yields h).runFrom lines hnil (Summary.tallies_empty _) 1 l
    exact ⟨hall _ (Batch.yields_process _ _), hall⟩
  · intro e he
    exact run_unreserved hmax he ..

/-- Batches of two, which are full at the last line and before lines that hold no envelope. -/
theorem run_accounts_full_batches :
    let by_ (i : Inscription) : Envelope := ⟨⟨1, 0⟩, ⟨"DA"⟩, "", 1, i⟩
    let deploy := by_ (.deploy ⟨"AA", "50", none, none, none, none⟩)
    let mint := by_ (.mint ⟨"AA", "20"⟩)
    let bad := by_ (.mint ⟨"AA", "many"⟩)
    let burn := "\x7b\"location\":\x7b\"block_height\":1,\"tx_index\":0\x7d,\"sender\":\"DA\"," ++
      "\"inscription\":\x7b\"p\":\"drc-20\",\"op\":\"burn\"\x7d\x7d"
    let lines := [deploy.line, "", mint.line, burn, "not json", bad.line, " \r", mint.line]
    ∃ summary l, run .unlimited .ledger ⟨none, ⟨false⟩, ⟨2, true⟩⟩
        (String.intercalate "\n" lines).toUTF8 .empty = (.ok summary, l) ∧
      summary.lines = 6 ∧ summary.malformed = 1 ∧ summary.batches = 2 ∧ summary.haltedLanes = 0 ∧
      summary.applied + summary.unapplied + ((Reason.tally summary.reasons).map Prod.snd).sum +
        summary.pending.length = 5 := by
  intro by_ deploy mint bad burn lines
  have hburn : Line.isMalformed burn = false ∧ Line.envelope? burn = none := by decide +kernel
  have hgarbage : Line.isMalformed "not json" = true ∧ Line.envelope? "not json" = none := by
    decide +kernel
  have henvelope (e : Envelope) :
      Line.isMalformed e.line = false ∧ Line.envelope? e.line = some e :=
    (Line.read_spec e.line).2.2 e (Line.read_line e)
  have hfeed : ∀ line ∈ lines, '\n' ∉ line.toList := by
    simp only [lines, List.forall_mem_cons, Enveloped.lineFeed_not_mem_line, not_false_eq_true]
    decide +kernel
  have htrim : Text.trim "" = "" ∧ Text.trim " \r" = "" ∧ Text.trim burn = burn ∧ burn ≠ "" ∧
      Text.trim "not json" = "not json" ∧ "not json" ≠ "" := by
    decide +kernel
  have htexts : Text.nonblank lines =
      [deploy.line, mint.line, burn, "not json", bad.line, mint.line] := by
    simp only [lines, Text.nonblank_cons, Text.nonblank_nil, Enveloped.trim_line,
      Enveloped.line_ne_empty, htrim, if_true, if_false]
  have hmax : 1 ≤ (Settings.mk none ⟨false⟩ ⟨2, true⟩).limits.maxBatchSize.toNat := by decide
  obtain ⟨⟨summary, l, hrun, h⟩, -⟩ :=
    (run_accounts hmax .unlimited (String.intercalate "\n" lines) .empty).1 ⟨by decide, rfl⟩
  rw [Text.pieces_intercalate hfeed (List.cons_ne_nil _ _), htexts] at h
  have hlines : summary.lines = 6 := h.lines
  have hmalformed : summary.malformed = 1 := by
    simp [h.malformed, henvelope, hburn, hgarbage]
  have hbatches : summary.batches = 2 := by
    rw [h.batches, List.filterMap_cons_some (henvelope deploy).2,
      List.filterMap_cons_some (henvelope mint).2, List.filterMap_cons_none hburn.2,
      List.filterMap_cons_none hgarbage.2, List.filterMap_cons_some (henvelope bad).2,
      List.filterMap_cons_some (henvelope mint).2]
    decide
  have htotal := h.total
  exact ⟨summary, l, hrun, hlines, hmalformed, hbatches, h.haltedLanes, by omega⟩

/-- The largest size of batches that settings have, and a text of one malformed line, which is not
counted. -/
theorem run_overflows_garbage :
    let settings : Settings := ⟨none, ⟨false⟩, ⟨18446744073709551615, true⟩⟩
    1 ≤ settings.limits.maxBatchSize.toNat ∧
    (Text.nonblank (Text.pieces "not json")).map Line.isMalformed = [true] ∧
    run .unlimited .ledger settings "not json".toUTF8 .empty =
      (.error (.unreserved .capacityOverflow), .empty) := by
  intro settings
  refine ⟨by decide, by decide +kernel, ?_⟩
  exact run_unreserved (by decide) (Memory.reserve_of_maxBytes_lt (by decide)) ..

end Feed
end TokenLedger
