import TokenLedger.Inscription
import TokenLedger.Text.Lines
import TokenLedger.Ticker

/-! Envelopes: an inscription with the transaction that carries it, and its place on the chain.
Lines of input are envelopes whose inscription is still any document, so that a bad one costs a
verdict and not the line. -/
namespace TokenLedger

structure Location where
  height : UInt64
  index : UInt32
  deriving DecidableEq

namespace Location

instance : ToString Location := ⟨fun l => toString l.height.toNat ++ ":" ++ toString l.index.toNat⟩

instance : LE Location :=
  ⟨fun a b => a.height.toNat < b.height.toNat ∨ a.height = b.height ∧ a.index.toNat ≤ b.index.toNat⟩

instance (a b : Location) : Decidable (a ≤ b) :=
  inferInstanceAs (Decidable (a.height.toNat < b.height.toNat ∨ _))

theorem le_def {a b : Location} : a ≤ b ↔
    a.height.toNat < b.height.toNat ∨ a.height = b.height ∧ a.index.toNat ≤ b.index.toNat := .rfl

theorem le_total (a b : Location) : a ≤ b ∨ b ≤ a := by
  simp only [le_def, ← UInt64.toNat_inj]; omega

theorem le_trans {a b c : Location} (hab : a ≤ b) (hbc : b ≤ c) : a ≤ c := by
  simp only [le_def, ← UInt64.toNat_inj] at *; omega

end Location

structure Enveloped (ι : Type) where
  location : Location
  sender : Address
  /-- Addresses with commas between them. -/
  receivers : String
  /-- How often the operation is asked for. -/
  repeats : UInt64
  inscription : ι
  deriving DecidableEq

abbrev Envelope := Enveloped Inscription

/-- The parts between commas, without white space at their ends, as far as anything is left. -/
def recipientsOf (receivers : String) : List Address :=
  ((receivers.toList.splitOn ',').map Text.trimList).filter (· ≠ []) |>.map (⟨String.ofList ·⟩)

def Enveloped.recipients {ι : Type} (e : Enveloped ι) : List Address := recipientsOf e.receivers

/-- The envelope once its document is read as an inscription. -/
def Enveloped.open (e : Enveloped Json.Value) : Except InscriptionError Envelope := do
  let i ← Inscription.ofValue e.inscription
  return { e with inscription := i }

namespace Location

open Json

def toValue (l : Location) : Value :=
  .object [("block_height", .natural l.height.toNat), ("tx_index", .natural l.index.toNat)]

def decoder : Decoder Location := fun t => do
  let (height, index, ()) ← (Fields.required "block_height" Decoder.word64 <|
    Fields.required "tx_index" Decoder.word32 .done).decode t
  return ⟨height, index⟩

end Location

namespace Enveloped

open Json

def toValue (e : Envelope) : Value :=
  .object [("location", e.location.toValue), ("sender", .string e.sender.text),
    ("receivers", .string e.receivers), ("repeat", .natural e.repeats.toNat),
    ("inscription", e.inscription.toValue)]

def decoder {ι : Type} (d : Decoder ι) : Decoder (Enveloped ι) := fun t => do
  let (location, sender, receivers, repeats, inscription, ()) ←
    (Fields.required "location" Location.decoder <|
      Fields.required "sender" Decoder.text <|
      Fields.defaulted "receivers" Decoder.text "" <|
      Fields.defaulted "repeat" Decoder.word64 1 <|
      Fields.required "inscription" d .done).decode t
  return ⟨location, ⟨sender⟩, receivers, repeats, inscription⟩

/-- An envelope around any document. The envelope is one container of the 127 that may lie within
each other. -/
def rawDecoder : Decoder (Enveloped Value) := decoder (Decoder.value 126)

def fullDecoder : Decoder Envelope := decoder (Inscription.decoder 126)

end Enveloped
end TokenLedger
