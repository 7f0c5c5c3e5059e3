import TokenLedger.Feed
import TokenLedger.Proofs.Lines
import TokenLedger.Proofs.RoundTrip
import TokenLedger.Proofs.Serial

/-! Transcripts, which are texts with an envelope per line and blank lines anywhere, and feeds cut
into batches. What is read of a transcript is a transcript of the same envelopes. Batches of
envelopes in chain order leave off where the next ones start, so that it makes no difference where
they are cut. Main statement: a transcript in chain order comes to its envelopes one at a time,
whatever the size of the batches and however lanes take turns. -/
namespace TokenLedger

open Json Text

theorem Json.Value.exists_memberChars_eq (ms : List (String × Value)) :
    ∃ mid, memberChars ms = mid ++ ['\x7d'] := by
  induction ms with
  | nil => exact ⟨[], rfl⟩
  | cons m ms ih =>
    obtain ⟨k, v⟩ := m
    obtain ⟨mid, hmid⟩ := ih
    refine ⟨',' :: stringChars k ++ ':' :: v.chars ++ mid, ?_⟩
    rw [memberChars, hmid, ← List.append_assoc]

namespace Enveloped

/-- The line that an envelope is written on. -/
def line (e : Envelope) : String := (toValue e).render

theorem toList_line (e : Envelope) : ∃ mid, e.line.toList = '\x7b' :: mid ++ ['\x7d'] := by
  obtain ⟨mid, hmid⟩ := Value.exists_memberChars_eq [("sender", .string e.sender.text),
    ("receivers", .string e.receivers), ("repeat", .natural e.repeats.toNat),
    ("inscription", e.inscription.toValue)]
  refine ⟨Value.stringChars "location" ++ ':' :: e.location.toValue.chars ++ mid, ?_⟩
  rw [line, Value.render, String.toList_ofList, toValue, Value.chars, hmid]
  simp

theorem trim_line (e : Envelope) : trim e.line = e.line := by
  obtain ⟨mid, hmid⟩ := e.toList_line
  refine trim_of_trimmed (trimmed_iff.2 ⟨?_, ?_⟩)
  · rw [hmid]
    rfl
  · rw [hmid, List.getLast?_concat]
    rfl

theorem line_ne_empty (e : Envelope) : e.line ≠ "" := by
  obtain ⟨mid, hmid⟩ := e.toList_line
  intro h
  rw [h] at hmid
  cases hmid

theorem withoutReturn_line (e : Envelope) : withoutReturn e.line = e.line := by
  obtain ⟨mid, hmid⟩ := e.toList_line
  rw [withoutReturn, hmid, List.getLast?_append]
  rfl

theorem lineFeed_not_mem_line (e : Envelope) : '\n' ∉ e.line.toList := by
  rw [line, Value.render, String.toList_ofList]
  intro h
  exact absurd (Value.printable_chars _ e.isWhole_toValue _ h) (by decide)

end Enveloped

/-- The line of an envelope is read as the envelope. -/
theorem Line.read_line (e : Envelope) : Line.read e.line = .envelope e := by
  obtain ⟨raw, hraw, hopen⟩ := e.rawDecoder_tree
  rw [Line.read, Enveloped.line, Value.decode_render e.isWhole_toValue hraw]
  dsimp only
  rw [hopen]

namespace Feed

/-- The lines hold the envelopes in order, one each, and are blank otherwise. -/
inductive Transcript : List String → List Envelope → Prop
  | nil : Transcript [] []
  | blank {line : String} {lines : List String} {es : List Envelope} (ht : trim line = "")
      (hn : '\n' ∉ line.toList) (rest : Transcript lines es) : Transcript (line :: lines) es
  | envelope (e : Envelope) {lines : List String} {es : List Envelope}
      (rest : Transcript lines es) : Transcript (e.line :: lines) (e :: es)

namespace Transcript

variable {lines : List String} {es : List Envelope}

theorem lineFeed_not_mem (h : Transcript lines es) : ∀ line ∈ lines, '\n' ∉ line.toList := by
  induction h with
  | nil => exact List.forall_mem_nil _
  | blank _ hn _ ih => exact List.forall_mem_cons.2 ⟨hn, ih⟩
  | envelope e _ ih => exact List.forall_mem_cons.2 ⟨e.lineFeed_not_mem_line, ih⟩

theorem terminated (h : Transcript lines es) : Transcript (Text.terminated lines) es := by
  induction h with
  | nil => exact .nil
  | @blank line lines es ht hn rest ih =>
    cases lines with
    | nil =>
      rw [Text.terminated]
      split
      · exact rest
      · exact .blank ht hn rest
    | cons next lines =>
      exact .blank ((trim_withoutReturn line).trans ht)
        (fun hmem => hn (withoutReturn_subset line hmem)) ih
  | @envelope e lines es rest ih =>
    cases lines with
    | nil =>
      rw [Text.terminated, if_neg e.line_ne_empty]
      exact .envelope e rest
    | cons next lines =>
      rw [Text.terminated, e.withoutReturn_line]
      exact .envelope e ih

theorem lines_eq (h : Transcript lines es) :
    ∃ read, Text.lines (String.intercalate "\n" lines).toUTF8 = read.map some ∧
      Transcript read es :=
  ⟨Text.terminated lines, lines_intercalate h.lineFeed_not_mem, h.terminated⟩

end Transcript
end Feed

theorem Store.processInTurn_append {σ : Type} (store : Store σ) (rules : Rules)
    (xs ys : List Envelope) (s : σ) :
    store.processInTurn rules (xs ++ ys) s =
      ((store.processInTurn rules xs s).1 ++
          (store.processInTurn rules ys (store.processInTurn rules xs s).2).1,
        (store.processInTurn rules ys (store.processInTurn rules xs s).2).2) := by
  induction xs generalizing s with
  | nil => rfl
  | cons x xs ih =>
    rw [List.cons_append, processInTurn, processInTurn]
    dsimp only
    rw [ih, List.cons_append]

theorem Store.length_processInTurn {σ : Type} (store : Store σ) (rules : Rules)
    (xs : List Envelope) (s : σ) : (store.processInTurn rules xs s).1.length = xs.length := by
  induction xs generalizing s with
  | nil => rfl
  | cons x xs ih => rw [processInTurn, List.length_cons, List.length_cons, ih]

theorem Store.isPending_processInTurn_ledger {rules : Rules} {xs : List Envelope} {l : Ledger}
    {entry : Entry} (h : entry ∈ (ledger.processInTurn rules xs l).1) :
    entry.outcome.isPending = false := by
  induction xs generalizing l with
  | nil => cases h
  | cons x xs ih =>
    rw [processInTurn] at h
    rcases List.mem_cons.1 h with rfl | h
    · dsimp only
      split
      · exact isPending_process_ledger rules _ l
      · rfl
    · exact ih h

namespace Feed

variable {n chunk : Nat}

/-- How many batches of a size take a number of envelopes; the last one may be smaller. -/
def batchCount (n chunk : Nat) : Nat := (n + chunk - 1) / chunk

theorem batchCount_zero (h : 0 < chunk) : batchCount 0 chunk = 0 :=
  Nat.div_eq_of_lt (by omega)

theorem batchCount_of_le (hn : 0 < n) (h : n ≤ chunk) : batchCount n chunk = 1 := by
  have hsum : n + chunk - 1 = n - 1 + chunk := by omega
  rw [batchCount, hsum, Nat.add_div_right _ (by omega), Nat.div_eq_of_lt (by omega)]

theorem batchCount_mul_add (h : 0 < chunk) (b n : Nat) :
    batchCount (chunk * b + n) chunk = b + batchCount n chunk := by
  have hsum : chunk * b + n + chunk - 1 = chunk * b + (n + chunk - 1) := by omega
  rw [batchCount, batchCount, hsum, Nat.mul_add_div h]

theorem batchCount_add (h : 0 < chunk) : batchCount (chunk + n) chunk = 1 + batchCount n chunk := by
  rw [← batchCount_mul_add h, Nat.mul_one]

end Feed

namespace Summary

/-- The summary after more lines, batches and entries, none of which is pending. -/
def extend (s : Summary) (lines batches : Nat) (entries : List Entry) : Summary :=
  { s with
    lines := s.lines + lines
    batches := s.batches + batches
    applied := s.applied + entries.countP fun e => e.outcome.isApplied
    unapplied := s.unapplied + entries.countP fun e => e.outcome.isUnapplied
    reasons := s.reasons ++ entries.filterMap fun e => e.outcome.reason? }

/-- The summary of envelopes that are taken one at a time and counted in batches of a size. -/
def ofEntries (size : Nat) (entries : List Entry) : Summary where
  lines := entries.length
  malformed := 0
  batches := Feed.batchCount entries.length size
  applied := entries.countP fun e => e.outcome.isApplied
  unapplied := entries.countP fun e => e.outcome.isUnapplied
  reasons := entries.filterMap fun e => e.outcome.reason?
  haltedLanes := 0
  pending := []

theorem extend_zero (s : Summary) : s.extend 0 0 [] = s := by
  simp [extend]

theorem extend_empty (size : Nat) (entries : List Entry) :
    empty.extend entries.length (Feed.batchCount entries.length size) entries =
      ofEntries size entries := by
  simp [extend, ofEntries, empty]

theorem extend_extend (s : Summary) (m n b c : Nat) (xs ys : List Entry) :
    (s.extend m b xs).extend n c ys = s.extend (m + n) (b + c) (xs ++ ys) := by
  simp [extend, Nat.add_assoc]

theorem isComplete_extend (s : Summary) (lines batches : Nat) (entries : List Entry) :
    (s.extend lines batches entries).isComplete = s.isComplete := rfl

theorem addLine_eq (s : Summary) : s.addLine = s.extend 1 0 [] := by
  simp [addLine, extend]

theorem addReport_eq {s : Summary} {entries : List Entry} {lanes : Nat}
    (h : ∀ e ∈ entries, e.outcome.isPending = false) :
    s.addReport ⟨entries, lanes, 0⟩ = s.extend 0 1 entries := by
  have hpending : (Report.mk entries lanes 0).pendingLocations = [] := by
    rw [Report.pendingLocations, List.map_eq_nil_iff, List.filter_eq_nil_iff]
    exact fun e he => by simp [h e he]
  simp [addReport, extend, hpending, Report.applied, Report.unapplied, Report.reasons]

end Summary

namespace Batch

theorem reference_of_sorted (rules : Rules) {batch : List Envelope}
    (h : batch.Pairwise fun x y => x.location ≤ y.location) (l : Ledger) :
    reference rules batch l =
      (⟨(Store.ledger.processInTurn rules batch l).1, (Lane.plan (jobs batch)).length, 0⟩,
        (Store.ledger.processInTurn rules batch l).2) := by
  rw [reference, map_fst_chain_of_sorted h]

end Batch

namespace Feed

variable {process : Processor Ledger} {rules : Rules} {chunk : Nat} {lines : List String}
  {es : List Envelope} {settings : Settings}

/-- Batches in order of places, up to a size, come to their envelopes one at a time. -/
def TakesInTurn (rules : Rules) (chunk : Nat) (process : Processor Ledger) : Prop :=
  ∀ batch l, batch ≠ [] → batch.length ≤ chunk →
    (batch.Pairwise fun x y => x.location ≤ y.location) → ∃ lanes, process batch l =
      (.ok ⟨(Store.ledger.processInTurn rules batch l).1, lanes, 0⟩,
        (Store.ledger.processInTurn rules batch l).2)

theorem takesInTurn_of_yields {limits : Limits} (h : ∀ batch l,
      Batch.Yields rules limits batch l (process batch l).1 (process batch l).2) :
    TakesInTurn rules limits.maxBatchSize.toNat process := by
  intro batch l hne hmax hs
  obtain ⟨hr, hl⟩ := (h batch l).eq_reference hne hmax
  rw [Batch.reference_of_sorted rules hs] at hr hl
  exact ⟨_, Prod.ext hr hl⟩

theorem TakesInTurn.flush (h : TakesInTurn rules chunk process) {batch : List Envelope}
    (hne : batch ≠ []) (hmax : batch.length ≤ chunk)
    (hs : batch.Pairwise fun x y => x.location ≤ y.location) (summary : Summary) (l : Ledger) :
    flush process batch summary l =
      (.ok (summary.extend 0 1 (Store.ledger.processInTurn rules batch l).1),
        (Store.ledger.processInTurn rules batch l).2) := by
  obtain ⟨lanes, hprocess⟩ := h batch l hne hmax hs
  rw [Feed.flush, hprocess]
  dsimp only
  rw [Summary.addReport_eq fun e he => Store.isPending_processInTurn_ledger he]

theorem runFrom_gather {σ : Type} {process : Processor σ} {gathered : List Envelope} {e : Envelope}
    (h : (e :: gathered).length < chunk) (number : Nat) (rest : List (Option String))
    (summary : Summary) (s : σ) :
    runFrom process chunk number (some e.line :: rest) gathered summary s =
      runFrom process chunk (number + 1) rest (e :: gathered) (summary.extend 1 0 []) s := by
  rw [runFrom]
  dsimp only
  rw [e.trim_line, if_neg e.line_ne_empty, Line.read_line, Summary.addLine_eq]
  exact if_neg (Nat.ne_of_lt h)

theorem TakesInTurn.runFrom_full (h : TakesInTurn rules chunk process) {gathered : List Envelope}
    {e : Envelope} (hfull : (e :: gathered).length = chunk)
    (hs : (e :: gathered).reverse.Pairwise fun x y => x.location ≤ y.location) {summary : Summary}
    (hc : summary.isComplete = true) (number : Nat) (rest : List (Option String)) (l : Ledger) :
    runFrom process chunk number (some e.line :: rest) gathered summary l =
      runFrom process chunk (number + 1) rest []
        (summary.extend 1 1 (Store.ledger.processInTurn rules (e :: gathered).reverse l).1)
        (Store.ledger.processInTurn rules (e :: gathered).reverse l).2 := by
  have hlen : (e :: gathered).reverse.length ≤ chunk := by
    rw [List.length_reverse]
    exact Nat.le_of_eq hfull
  rw [Feed.runFrom]
  dsimp only
  rw [e.trim_line, if_neg e.line_ne_empty, Line.read_line, Summary.addLine_eq]
  dsimp only
  rw [if_pos (show gathered.length + 1 = chunk from hfull), h.flush (by simp) hlen hs]
  dsimp only
  rw [Summary.extend_extend, Summary.isComplete_extend, if_pos hc]
  rfl

/-- Wherever the lines of a transcript are cut, what has been gathered and what follows come to the
envelopes one at a time. -/
theorem TakesInTurn.runFrom (h : TakesInTurn rules chunk process) (ht : Transcript lines es)
    {gathered : List Envelope} (hg : gathered.length < chunk)
    (hs : (gathered.reverse ++ es).Pairwise fun x y => x.location ≤ y.location)
    {summary : Summary} (hc : summary.isComplete = true) (number : Nat) (l : Ledger) :
    let inTurn := Store.ledger.processInTurn rules (gathered.reverse ++ es) l
    runFrom process chunk number (lines.map some) gathered summary l =
      (.ok (summary.extend es.length (batchCount (gathered.length + es.length) chunk) inTurn.1),
        inTurn.2) := by
  induction ht generalizing gathered summary number l with
  | nil =>
    rw [List.append_nil] at hs ⊢
    rw [List.map_nil, Feed.runFrom, List.length_nil, Nat.add_zero]
    split
    · next hnil =>
      subst hnil
      rw [List.length_nil, batchCount_zero hg]
      exact congrArg (fun s => (Except.ok s, l)) summary.extend_zero.symm
    · next hne =>
      have hlen : gathered.reverse.length ≤ chunk := by simpa using Nat.le_of_lt hg
      rw [h.flush (mt List.reverse_eq_nil_iff.1 hne) hlen hs,
        batchCount_of_le (List.length_pos_of_ne_nil hne) (Nat.le_of_lt hg)]
  | blank htrim _ _ ih =>
    rw [List.map_cons, Feed.runFrom]
    dsimp only
    rw [if_pos htrim]
    exact ih hg hs hc _ _
  | @envelope e lines es rest ih =>
    have hall : gathered.reverse ++ e :: es = (e :: gathered).reverse ++ es := by simp
    have hlen : gathered.length + (e :: es).length = (e :: gathered).length + es.length := by
      simp only [List.length_cons]
      omega
    rw [hall] at hs ⊢
    rw [List.map_cons, hlen]
    dsimp only
    have hgo (b : Nat) (entries : List Entry) : (summary.extend 1 b entries).isComplete = true := hc
    have hcount : 1 + es.length = (e :: es).length := Nat.add_comm ..
    have hle : (e :: gathered).length ≤ chunk := hg
    rcases Nat.lt_or_eq_of_le hle with hlt | hfull
    · rw [runFrom_gather hlt, ih hlt hs (hgo _ _), Summary.extend_extend, hcount, Nat.zero_add,
        List.nil_append]
    · obtain ⟨hbatch, hrest, -⟩ := List.pairwise_append.1 hs
      have hnil : ([] : List Envelope).length < chunk := Nat.zero_lt_of_lt hg
      rw [Store.processInTurn_append, h.runFrom_full hfull hbatch hc, ih hnil hrest (hgo _ _),
        Summary.extend_extend, hcount, hfull, batchCount_add hnil, List.length_nil, Nat.zero_add]
      rfl

/-- A transcript in chain order comes to its envelopes one at a time: the ledger and the counts are
theirs, the batches are as many as it takes, and nothing is pending. It makes no difference how
large the batches are, as long as there is a buffer for one, nor how the lanes of a batch take
turns. Without a buffer no line is read. -/
theorem run_eq_inTurn (ht : Transcript lines es)
    (hs : es.Pairwise fun x y => x.location ≤ y.location)
    (hmax : 1 ≤ settings.limits.maxBatchSize.toNat) (memory : Memory) (l : Ledger) :
    let inTurn := Store.ledger.processInTurn settings.rules es l
    let summary := Summary.ofEntries settings.limits.maxBatchSize.toNat inTurn.1
    let input := (String.intercalate "\n" lines).toUTF8
    (memory.Holds settings.limits.maxBatchSize.toNat →
      run memory Store.ledger settings input l = (.ok summary, inTurn.2) ∧
      ∀ process : Processor Ledger, (∀ batch l, Batch.Yields settings.rules settings.limits batch l
          (process batch l).1 (process batch l).2) →
        runLines memory process (chunkSize settings.limits) (Text.lines input) l =
          (.ok summary, inTurn.2)) ∧
    ∀ e, memory.reserve settings.limits.maxBatchSize.toNat = .error e →
      run memory Store.ledger settings input l = (.error (.unreserved e), l) := by
  intro inTurn summary input
  constructor
  · intro hholds
    have hall (process : Processor Ledger) (h : ∀ batch l, Batch.Yields settings.rules
        settings.limits batch l (process batch l).1 (process batch l).2) :
        runLines memory process (chunkSize settings.limits) (Text.lines input) l =
          (.ok summary, inTurn.2) := by
      obtain ⟨read, hread, ht'⟩ := ht.lines_eq
      have hnil : ([] : List Envelope).length < settings.limits.maxBatchSize.toNat := hmax
      have hlen : inTurn.1.length = es.length := Store.length_processInTurn ..
      rw [hread, chunkSize_of_pos hmax, runLines_of_holds hholds,
        (takesInTurn_of_yields h).runFrom ht' hnil hs rfl, List.length_nil, Nat.zero_add, ← hlen,
        List.reverse_nil, List.nil_append, Summary.extend_empty]
    exact ⟨hall _ (Batch.yields_process _ _), hall⟩
  · intro e he
    exact run_unreserved hmax he ..

/-- Three envelopes of one transaction, of which the last is cut off from the others. -/
theorem run_eq_inTurn_cut :
    let deploy : Envelope := ⟨⟨1, 0⟩, ⟨"DA"⟩, "", 1, .deploy ⟨"AA", "5000", none, none, none, none⟩⟩
    let mint : Envelope := ⟨⟨1, 0⟩, ⟨"DA"⟩, "", 1, .mint ⟨"AA", "2000"⟩⟩
    let lines := [deploy.line, "", mint.line, " \r", mint.line, ""]
    let settings : Settings := ⟨none, ⟨false⟩, ⟨2, true⟩⟩
    ∃ summary l, run .unlimited .ledger settings (String.intercalate "\n" lines).toUTF8 .empty =
      (.ok summary, l) ∧ summary.batches = 2 ∧ summary.applied = 3 ∧ summary.pending = [] := by
  intro deploy mint lines settings
  have ht : Transcript lines [deploy, mint, mint] :=
    .envelope _ <| .blank (by decide) (by decide) <| .envelope _ <|
      .blank (by decide) (by decide) <| .envelope _ <| .blank (by decide) (by decide) .nil
  have h := (@run_eq_inTurn lines _ settings ht (by decide) (by decide) .unlimited .empty).1
    ⟨by decide, rfl⟩
  exact ⟨_, _, h.1, by decide +kernel, by decide +kernel, rfl⟩

/-- The largest size of batches that settings have, and a transcript of one envelope. In turn it
deploys a token, but there is no buffer for a batch. -/
theorem run_overflows_deploy :
    let deploy : Envelope := ⟨⟨1, 0⟩, ⟨"DA"⟩, "", 1, .deploy ⟨"AA", "5000", none, none, none, none⟩⟩
    let settings : Settings := ⟨none, ⟨false⟩, ⟨18446744073709551615, true⟩⟩
    Transcript [deploy.line] [deploy] ∧ 1 ≤ settings.limits.maxBatchSize.toNat ∧
    ((Store.ledger.processInTurn settings.rules [deploy] .empty).1.countP fun e =>
      e.outcome.isApplied) = 1 ∧
    run .unlimited .ledger settings deploy.line.toUTF8 .empty =
      (.error (.unreserved .capacityOverflow), .empty) := by
  intro deploy settings
  refine ⟨.envelope _ .nil, by decide, by decide +kernel, ?_⟩
  exact run_unreserved (by decide) (Memory.reserve_of_maxBytes_lt (by decide)) ..

end Feed
end TokenLedger
