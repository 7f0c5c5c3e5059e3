import TokenLedger.Envelope
import TokenLedger.Json.Forms
import TokenLedger.Json.Record
import TokenLedger.Proofs.Schema

/-! Documents that are written are read back. Each type has a lemma for what its decoder makes of
its document, and the decoders of records put together those of their fields, of which no two have
one name. Main statement: for every type that is written, decoding undoes encoding. -/
namespace TokenLedger

namespace Json
namespace Fields

variable {α β τ : Type}

def names : {τ : Type} → Fields τ → List String
  | _, .done => []
  | _, .field name _ _ _ rest => name :: rest.names

/-- The members that a record is written as: each field in turn, or left out where what is read for
a missing one is right. -/
inductive Written : {τ : Type} → Fields τ → τ → List (Option String × Tree) → Prop
  | done : Written .done () []
  | member {α β : Type} {name : String} {d : Decoder α} {absent short : Option α} {rest : Fields β}
      {a : α} {b : β} {t : Tree} {ms : List (Option String × Tree)} (read : d t = .ok a)
      (others : Written rest b ms) :
      Written (.field name d absent short rest) (a, b) ((some name, t) :: ms)
  | absent {α β : Type} {name : String} {d : Decoder α} {short : Option α} {rest : Fields β}
      {a : α} {b : β} {ms : List (Option String × Tree)} (others : Written rest b ms) :
      Written (.field name d (some a) short rest) (a, b) ms

theorem Written.key_mem {f : Fields τ} {x : τ} {ms : List (Option String × Tree)}
    (h : Written f x ms) : ∀ m ∈ ms, ∃ name ∈ f.names, m.1 = some name := by
  induction h with
  | done => exact fun m hm => (List.not_mem_nil hm).elim
  | member _ _ ih =>
    refine List.forall_mem_cons.2 ⟨⟨_, List.mem_cons_self, rfl⟩, fun m hm => ?_⟩
    obtain ⟨name, hn, he⟩ := ih m hm
    exact ⟨name, List.mem_cons_of_mem _ hn, he⟩
  | absent _ ih =>
    intro m hm
    obtain ⟨name, hn, he⟩ := ih m hm
    exact ⟨name, List.mem_cons_of_mem _ hn, he⟩

theorem Written.key_ne {f : Fields τ} {x : τ} {ms : List (Option String × Tree)} {name : String}
    (h : Written f x ms) (hn : name ∉ f.names) : ∀ m ∈ ms, ∃ key, m.1 = some key ∧ key ≠ name := by
  intro m hm
  obtain ⟨key, hk, he⟩ := h.key_mem m hm
  exact ⟨key, he, fun h => hn (h ▸ hk)⟩

theorem ofMembers_field {name : String} {d : Decoder α} {absent short : Option α} {rest : Fields β}
    {ms : List (Option String × Tree)} {slot : Option α} {others : rest.Slots} {a : α}
    (hms : ∀ m ∈ ms, ∃ key, m.1 = some key ∧ key ≠ name) (ha : (slot <|> absent) = some a) :
    (Fields.field name d absent short rest).ofMembers ms (slot, others) =
      (rest.ofMembers ms others).map (a, ·) := by
  induction ms generalizing others with
  | nil => simp only [ofMembers, collect, ha]
  | cons m ms ih =>
    obtain ⟨key, t⟩ := m
    obtain ⟨k, rfl, hk⟩ := hms _ List.mem_cons_self
    have htail := fun m hm => hms m (List.mem_cons_of_mem _ hm)
    simp only [ofMembers, offer, if_neg hk]
    cases rest.offer k t others with
    | error e => rfl
    | ok s => exact ih htail

theorem Written.ofMembers {f : Fields τ} {x : τ} {ms : List (Option String × Tree)}
    (h : Written f x ms) (hd : f.names.Nodup) : f.ofMembers ms f.noSlots = .ok x := by
  induction h with
  | done => rfl
  | @member α β name d absent short rest a b t ms read others ih =>
    obtain ⟨hname, hrest⟩ := List.nodup_cons.1 hd
    have hfirst : (Fields.field name d absent short rest).ofMembers ((some name, t) :: ms)
        (none, rest.noSlots) =
          (Fields.field name d absent short rest).ofMembers ms (some a, rest.noSlots) := by
      simp only [Fields.ofMembers, offer, if_true, read]
      rfl
    rw [noSlots, hfirst, ofMembers_field (others.key_ne hname) rfl, ih hrest]
    rfl
  | @absent α β name d short rest a b ms others ih =>
    obtain ⟨hname, hrest⟩ := List.nodup_cons.1 hd
    rw [noSlots, ofMembers_field (others.key_ne hname) rfl, ih hrest]
    rfl

/-- A record that was written is read back. -/
theorem Written.decode {f : Fields τ} {x : τ} {ms : List (Option String × Tree)}
    (h : Written f x ms) (hd : f.names.Nodup) : f.decode (.object ms) = .ok x :=
  h.ofMembers hd

end Fields
end Json

open Json Json.Value Json.Fields

namespace Json.Decoder

variable {α : Type}

theorem text_string (s : String) : text (Value.string s).tree = .ok s := rfl

theorem flag_bool (b : Bool) : flag (Value.bool b).tree = .ok b := rfl

theorem optional_null (d : Decoder α) : d.optional Value.null.tree = .ok none := rfl

theorem optional_string {d : Decoder α} {s : String} {a : α}
    (h : d (Value.string s).tree = .ok a) : d.optional (Value.string s).tree = .ok (some a) := by
  have htext : d.optional (Value.string s).tree = (d (Value.string s).tree).map some := rfl
  rw [htext, h]
  rfl

theorem below_natural {limit n : Nat} (h : n < limit) : below limit (natural n).tree = .ok n := by
  have hpart : (numeral n).wholePart = n := Nat.ofDigitChars_ten_toDigits
  have hnat : (numeral n).nat? = some n := by
    rw [Numeral.nat?, if_pos ⟨rfl, rfl⟩, hpart]
  simp [natural, tree, below, hnat, h]

theorem word64_natural (n : UInt64) : word64 (natural n.toNat).tree = .ok n := by
  rw [word64, below_natural n.toNat_lt]
  exact congrArg _ UInt64.ofNat_toNat

theorem word32_natural (n : UInt32) : word32 (natural n.toNat).tree = .ok n := by
  rw [word32, below_natural n.toNat_lt]
  exact congrArg _ UInt32.ofNat_toNat

theorem word8_natural (n : UInt8) : word8 (natural n.toNat).tree = .ok n := by
  rw [word8, below_natural n.toNat_lt]
  exact congrArg _ UInt8.ofNat_toNat

theorem named_string {all : List α} {name : α → String} (hd : (all.map name).Nodup) {a : α}
    (ha : a ∈ all) : named all name (Value.string (name a)).tree = .ok a := by
  have hfind : all.find? (fun b => name b = name a) = some a := by
    induction all with
    | nil => cases ha
    | cons b bs ih =>
      obtain ⟨hb, hd⟩ := List.nodup_cons.1 hd
      rcases List.mem_cons.1 ha with rfl | ha
      · simp
      · have hne : name b ≠ name a := fun h => hb (h ▸ List.mem_map_of_mem ha)
        simp [hne, ih hd ha]
  simp only [tree, named, hfind]

theorem list_strings {d : Decoder α} {text : α → String}
    (h : ∀ a, d (Value.string (text a)).tree = .ok a) (as : List α) :
    list d (Value.array (as.map fun a => .string (text a))).tree = .ok as := by
  rw [tree, trees_eq_map, list]
  induction as with
  | nil => rfl
  | cons a as ih =>
    simp only [List.map_cons, List.mapM_cons, h, ih]
    rfl

theorem value_tree {v : Value} {depth : Nat} (h : v.IsWhole) (hd : v.depth ≤ depth) :
    value depth v.tree = .ok v.sorted := by
  rw [value, ofTree?_tree v h hd]

end Json.Decoder

open Json.Decoder

theorem Decimal.nat?_toString (n : Nat) : nat? (toString n) = some n := by
  have hdigits := isDigit_toDigits n
  have hne : Nat.toDigits 10 n ≠ [] := Nat.toDigits_ne_nil
  rw [nat?, digits?, Nat.toString_eq_ofList_toDigits, String.toList_ofList,
    dropPlus_of_isDigit hdigits]
  simp [hne, List.all_eq_true.2 hdigits]

theorem Amount.ofDecimal_toString (a : Amount) : Amount.ofDecimal (toString a) = .ok a := by
  have hdigits : Decimal.nat? (toString a) = some a.val := Decimal.nat?_toString a.val
  have hne : toString a ≠ "" := fun h => by
    rw [h] at hdigits
    cases hdigits
  rw [ofDecimal, if_neg hne, hdigits]
  dsimp only
  rw [ofNat?_val]

theorem Amount.decoder_tree (a : Amount) : Decoder.amount a.toValue.tree = .ok a := by
  have htext : Decoder.text a.toValue.tree = .ok (toString a) := rfl
  rw [Decoder.amount, bind_of_ok htext, Amount.ofDecimal_toString]

theorem Ticker.decoder_tree (t : Ticker) : Ticker.decoder t.toValue.tree = .ok t :=
  congrArg _ (Ticker.ofText_text t)

theorem Address.decoder_tree (a : Address) : Address.decoder a.toValue.tree = .ok a := rfl

theorem Location.decoder_tree (l : Location) : Location.decoder l.toValue.tree = .ok l :=
  bind_of_ok <| Written.decode
    (.member (word64_natural l.height) <| .member (word32_natural l.index) .done) (by decide)

theorem PoolKey.decoder_tree (k : PoolKey) : PoolKey.decoder k.toValue.tree = .ok k :=
  bind_of_ok <| Written.decode
    (.member k.a.decoder_tree <| .member k.b.decoder_tree .done) (by decide)

theorem Pool.decoder_tree (k : PoolKey) (p : Pool) : Pool.decoder (p.toValue k).tree = .ok (k, p) :=
  bind_of_ok <| Written.decode
    (.member k.decoder_tree <| .member p.reserveA.decoder_tree <|
      .member p.reserveB.decoder_tree <| .member p.liquidity.decoder_tree <|
      .member p.owner.decoder_tree .done) (by decide)

theorem Supply.decoder_tree (s : Supply) : Supply.decoder s.toValue.tree = .ok s :=
  bind_of_ok <| Written.decode
    (.member s.minted.decoder_tree <| .member s.max.decoder_tree <|
      .member s.limit.decoder_tree .done) (by decide)

theorem Token.decoder_tree (r : Token) : Token.decoder r.toValue.tree = .ok r := by
  obtain ⟨supply, decimals, deployer⟩ := r
  cases deployer with
  | none =>
    exact bind_of_ok <| Written.decode (.member supply.decoder_tree <|
      .member (word8_natural decimals) <| .member (optional_null _) .done) (by decide)
  | some a =>
    exact bind_of_ok <| Written.decode (.member supply.decoder_tree <|
      .member (word8_natural decimals) <| .member (optional_string a.decoder_tree) .done)
      (by decide)

theorem Direction.decoder_tree (d : Direction) : Direction.decoder d.toValue.tree = .ok d :=
  named_string (by decide) (by cases d <;> decide)

theorem Movement.decoder_tree (m : Movement) : Movement.decoder m.toValue.tree = .ok m :=
  bind_of_ok <| Written.decode
    (.member m.ticker.decoder_tree <| .member m.holder.decoder_tree <|
      .member m.direction.decoder_tree <| .member m.amount.decoder_tree .done) (by decide)

theorem Reason.decoder_tree (r : Reason) : Reason.decoder r.toValue.tree = .ok r :=
  named_string (by decide) r.mem_all

theorem Rejection.decoder_tree (r : Rejection) : Rejection.decoder r.toValue.tree = .ok r := by
  obtain ⟨reason, detail⟩ := r
  cases detail with
  | none =>
    exact bind_of_ok <| Written.decode (.member reason.decoder_tree <| .absent .done) (by decide)
  | some s =>
    exact bind_of_ok <| Written.decode (.member reason.decoder_tree <|
      .member (optional_string (text_string s)) .done) (by decide)

namespace Json.Value

variable {ms : List (String × Value)}

def AllTexts (ms : List (String × Value)) : Prop := ∀ m ∈ ms, ∃ s, m.2 = .string s

theorem AllTexts.tail {m : String × Value} (h : AllTexts (m :: ms)) :
    (∃ s, m.2 = .string s) ∧ AllTexts ms :=
  List.forall_mem_cons.1 h

theorem AllTexts.whole (h : AllTexts ms) : MembersWhole ms := by
  induction ms with
  | nil => trivial
  | cons m ms ih =>
    obtain ⟨⟨s, hs⟩, hms⟩ := h.tail
    rw [MembersWhole, hs]
    exact ⟨trivial, ih hms⟩

theorem AllTexts.depth (h : AllTexts ms) : membersDepth ms = 0 := by
  induction ms with
  | nil => rfl
  | cons m ms ih =>
    obtain ⟨⟨s, hs⟩, hms⟩ := h.tail
    rw [membersDepth, hs, ih hms]
    rfl

theorem AllTexts.sorted (h : AllTexts ms) : sortedMembers ms = ms := by
  induction ms with
  | nil => rfl
  | cons m ms ih =>
    obtain ⟨⟨s, hs⟩, hms⟩ := h.tail
    obtain ⟨k, v⟩ := m
    rw [sortedMembers, ih hms, show v = .string s from hs]
    rfl

end Json.Value

namespace Inscription

/-- The members that an inscription is written as. -/
def members (i : Inscription) : List (String × Value) :=
  ("p", .string i.kind.tags.1) :: ("op", .string i.kind.tags.2) :: i.bodyMembers

theorem toValue_eq (i : Inscription) : i.toValue = .object i.members := rfl

theorem allTexts_members (i : Inscription) : AllTexts i.members := by
  cases i with
  | deploy b =>
    obtain ⟨_, _, lim, dec, burn, func⟩ := b
    cases lim <;> cases dec <;> cases burn <;> cases func <;>
      simp [AllTexts, members, bodyMembers, optionalMember]
  | mint b | transfer b | create b | add b | remove b | swap b | deposit b | withdraw b =>
    simp [AllTexts, members, bodyMembers]

theorem nodup_members (i : Inscription) : (i.members.map Prod.fst).Nodup := by
  cases i with
  | deploy b =>
    obtain ⟨_, _, lim, dec, burn, func⟩ := b
    cases lim <;> cases dec <;> cases burn <;> cases func <;>
      simp [members, bodyMembers, optionalMember]
  | mint b | transfer b | create b | add b | remove b | swap b | deposit b | withdraw b =>
    simp [members, bodyMembers]

theorem describes_toValue (i : Inscription) : i.toValue.IsText "p" i.kind.protocol ∧
    i.toValue.IsText "op" i.kind.name ∧ Describes i.toValue i := by
  have hp : i.toValue.IsText "p" i.kind.tags.1 := rfl
  have hn : i.toValue.IsText "op" i.kind.tags.2 := rfl
  rw [i.kind.tags_eq] at hp hn
  refine ⟨hp, hn, ?_⟩
  cases i with
  | deploy b =>
    obtain ⟨_, _, lim, dec, burn, func⟩ := b
    cases lim <;> cases dec <;> cases burn <;> cases func <;>
      simp [Describes, IsText, MayBeText, get?, toValue_eq, members, bodyMembers, optionalMember,
        List.lookup_cons]
  | mint b | transfer b | create b | add b | remove b | swap b | deposit b | withdraw b =>
    simp [Describes, IsText, IsTextOrEmpty, get?, toValue_eq, members, bodyMembers,
      List.lookup_cons]

theorem isWhole_toValue (i : Inscription) : i.toValue.IsWhole := i.allTexts_members.whole

theorem depth_toValue (i : Inscription) : i.toValue.depth = 1 := by
  rw [toValue_eq, depth, i.allTexts_members.depth]

theorem ofValue_sorted (i : Inscription) : ofValue i.toValue.sorted = .ok i := by
  have hget (name : String) : i.toValue.sorted.get? name = i.toValue.get? name := by
    rw [toValue_eq, sorted, i.allTexts_members.sorted, get?_sortMembers i.nodup_members]
  have hwritten : ofValue i.toValue = .ok i := ofValue_eq_ok_iff.2 i.describes_toValue
  obtain ⟨hp, hn, -⟩ := i.describes_toValue
  rw [← hwritten]
  exact ofValue_congr hp hn fun name _ => (hget name).symm

end Inscription

theorem Enveloped.rawDecoder_tree (e : Envelope) : ∃ raw,
    Enveloped.rawDecoder (Enveloped.toValue e).tree = .ok raw ∧ raw.open = .ok e := by
  have hdepth : e.inscription.toValue.depth ≤ 126 := by
    rw [e.inscription.depth_toValue]
    decide
  refine ⟨⟨e.location, e.sender, e.receivers, e.repeats, e.inscription.toValue.sorted⟩, ?_, ?_⟩
  · exact bind_of_ok <| Written.decode
      (.member e.location.decoder_tree <| .member (text_string e.sender.text) <|
        .member (text_string e.receivers) <| .member (word64_natural e.repeats) <|
        .member (value_tree e.inscription.isWhole_toValue hdepth) .done) (by decide)
  · exact bind_of_ok e.inscription.ofValue_sorted

theorem Enveloped.isWhole_toValue (e : Envelope) : (Enveloped.toValue e).IsWhole :=
  ⟨⟨e.location.height.toNat_lt, Nat.lt_trans e.location.index.toNat_lt (by decide), trivial⟩,
    trivial, trivial, e.repeats.toNat_lt, e.inscription.isWhole_toValue, trivial⟩

namespace Approval

theorem isWhole_toValue (a : Approval) : a.toValue.IsWhole := by
  cases a with
  | transfer t sender recipients each total =>
    have hrecipients : AllWhole (recipients.map Address.toValue) := by
      induction recipients with
      | nil => trivial
      | cons a as ih => exact ⟨trivial, ih⟩
    exact ⟨trivial, trivial, trivial, hrecipients, trivial, trivial, trivial⟩
  | deploy t max limit decimals deployer =>
    exact ⟨trivial, trivial, trivial, trivial, Nat.lt_trans decimals.toNat_lt (by decide), trivial,
      trivial⟩
  | mint | createPool | addLiquidity | removeLiquidity | swap | deposit | withdraw =>
    simp [toValue, members, IsWhole, MembersWhole, Ticker.toValue, Address.toValue, Amount.toValue,
      PoolKey.toValue]

theorem depth_toValue (a : Approval) : a.toValue.depth ≤ 2 := by
  cases a with
  | transfer t sender recipients each total =>
    have hrecipients : itemsDepth (recipients.map Address.toValue) = 0 := by
      induction recipients with
      | nil => rfl
      | cons a as ih => rw [List.map_cons, itemsDepth, ih]; rfl
    simp [toValue, members, depth, membersDepth, hrecipients, Ticker.toValue, Address.toValue,
      Amount.toValue]
  | deploy | mint | createPool | addLiquidity | removeLiquidity | swap | deposit | withdraw =>
    simp [toValue, members, depth, membersDepth, natural, Ticker.toValue, Address.toValue,
      Amount.toValue, PoolKey.toValue]

theorem decoder_of_members {name : String} {ms : List (Option String × Tree)}
    (hv : ∃ v, Decoder.value 127 (.object ((some "kind", .string (some name)) :: ms)) = .ok v)
    (hms : ∀ m ∈ ms, ∃ key, m.1 = some key ∧ key ≠ "kind") :
    decoder (.object ((some "kind", .string (some name)) :: ms)) =
      formDecoder name (.object ms) := by
  obtain ⟨v, hv⟩ := hv
  have hkind : ∀ m ∈ ms, m.1 ≠ some "kind" := fun m hm h => by
    obtain ⟨key, hk, hne⟩ := hms m hm
    rw [hk] at h
    exact hne (Option.some.inj h)
  have hnone : ms.filter (fun m => m.1 = some "kind") = [] := by
    simpa using hkind
  have hall : ms.filter (fun m => !decide (m.1 = some "kind")) = ms := by
    simpa using hkind
  simp [decoder, bind_of_ok hv, hnone, hall]

theorem decoder_of_form {a : Approval} {name : String} {τ : Type} {f : Fields τ} {x : τ}
    {ms : List (Option String × Tree)} {result : τ → Except DecodeError Approval}
    (htree : a.toValue.tree = .object ((some "kind", .string (some name)) :: ms))
    (hform : formDecoder name (.object ms) = f.decode (.object ms) >>= result)
    (hw : Written f x ms) (hd : ("kind" :: f.names).Nodup) (hresult : result x = .ok a) :
    decoder a.toValue.tree = .ok a := by
  obtain ⟨hkind, hnames⟩ := List.nodup_cons.1 hd
  have hvalue := value_tree a.isWhole_toValue (Nat.le_trans a.depth_toValue (by decide : 2 ≤ 127))
  rw [htree] at hvalue ⊢
  rw [decoder_of_members ⟨_, hvalue⟩ (hw.key_ne hkind), hform, bind_of_ok (hw.decode hnames),
    hresult]

theorem decoder_tree (a : Approval) : decoder a.toValue.tree = .ok a := by
  cases a with
  | deploy t max limit decimals deployer =>
    exact decoder_of_form rfl rfl (.member t.decoder_tree <| .member max.decoder_tree <|
      .member limit.decoder_tree <| .member (word8_natural decimals) <|
      .member deployer.decoder_tree .done) (by decide) rfl
  | mint t recipient total =>
    exact decoder_of_form rfl rfl (.member t.decoder_tree <| .member recipient.decoder_tree <|
      .member total.decoder_tree .done) (by decide) rfl
  | transfer t sender recipients each total =>
    exact decoder_of_form rfl rfl (.member t.decoder_tree <| .member sender.decoder_tree <|
      .member (list_strings Address.decoder_tree recipients) <| .member each.decoder_tree <|
      .member total.decoder_tree .done) (by decide) rfl
  | createPool k holder a b =>
    exact decoder_of_form rfl rfl (.member k.decoder_tree <| .member holder.decoder_tree <|
      .member a.decoder_tree <| .member b.decoder_tree .done) (by decide) rfl
  | addLiquidity k holder a b first =>
    exact decoder_of_form rfl rfl (.member k.decoder_tree <| .member holder.decoder_tree <|
      .member a.decoder_tree <| .member b.decoder_tree <| .member (flag_bool first) .done)
      (by decide) rfl
  | removeLiquidity k holder liquidity =>
    exact decoder_of_form rfl rfl (.member k.decoder_tree <| .member holder.decoder_tree <|
      .member liquidity.decoder_tree .done) (by decide) rfl
  | swap k holder tickerIn tickerOut amountIn fee amountOut owner =>
    exact decoder_of_form rfl rfl (.member k.decoder_tree <| .member holder.decoder_tree <|
      .member tickerIn.decoder_tree <| .member tickerOut.decoder_tree <|
      .member amountIn.decoder_tree <| .member fee.decoder_tree <|
      .member amountOut.decoder_tree <| .member owner.decoder_tree .done) (by decide) rfl
  | deposit holder amount =>
    exact decoder_of_form rfl rfl (.member holder.decoder_tree <|
      .member amount.decoder_tree .done) (by decide) rfl
  | withdraw holder amount =>
    exact decoder_of_form rfl rfl (.member holder.decoder_tree <|
      .member amount.decoder_tree .done) (by decide) rfl

end Approval

theorem Token.isWhole_toValue (r : Token) : r.toValue.IsWhole := by
  refine ⟨⟨trivial, trivial, trivial, trivial⟩,
    Nat.lt_trans r.decimals.toNat_lt (by decide), ?_, trivial⟩
  cases r.deployer <;> trivial

theorem Rejection.isWhole_toValue (r : Rejection) : r.toValue.IsWhole := by
  obtain ⟨reason, detail⟩ := r
  cases detail
  · exact ⟨trivial, trivial⟩
  · exact ⟨trivial, trivial, trivial⟩

/-- Whatever is written is read back: inscriptions from their own texts and from the documents that
envelopes carry, and the records of the ledger, of its movements and of verdicts. -/
theorem decode_encode :
    (∀ i : Inscription, Inscription.ofJson i.toValue.render = .ok i) ∧
    (∀ e : Envelope, ∃ raw, (Json.read (Enveloped.toValue e).render).decode Enveloped.rawDecoder =
      .ok raw ∧ raw.open = .ok e) ∧
    (∀ a : Approval, (Json.read a.toValue.render).decode Approval.decoder = .ok a) ∧
    (∀ (k : PoolKey) (p : Pool), (Json.read (p.toValue k).render).decode Pool.decoder =
      .ok (k, p)) ∧
    (∀ s : Supply, (Json.read s.toValue.render).decode Supply.decoder = .ok s) ∧
    (∀ r : Token, (Json.read r.toValue.render).decode Token.decoder = .ok r) ∧
    (∀ m : Movement, (Json.read m.toValue.render).decode Movement.decoder = .ok m) ∧
    ∀ r : Rejection, (Json.read r.toValue.render).decode Rejection.decoder = .ok r := by
  refine ⟨fun i => ?_, fun e => ?_, fun a => decode_render a.isWhole_toValue a.decoder_tree,
    fun k p => decode_render ?_ (p.decoder_tree k), fun s => decode_render ?_ s.decoder_tree,
    fun r => decode_render r.isWhole_toValue r.decoder_tree,
    fun m => decode_render ?_ m.decoder_tree,
    fun r => decode_render r.isWhole_toValue r.decoder_tree⟩
  · have hdepth : i.toValue.depth ≤ 127 := by
      rw [i.depth_toValue]
      decide
    rw [Inscription.ofJson, value?_render i.isWhole_toValue hdepth]
    exact i.ofValue_sorted
  · obtain ⟨raw, hraw, hopen⟩ := Enveloped.rawDecoder_tree e
    exact ⟨raw, decode_render e.isWhole_toValue hraw, hopen⟩
  · exact ⟨⟨trivial, trivial, trivial⟩, trivial, trivial, trivial, trivial, trivial⟩
  · exact ⟨trivial, trivial, trivial, trivial⟩
  · exact ⟨trivial, trivial, trivial, trivial, trivial⟩
end TokenLedger
