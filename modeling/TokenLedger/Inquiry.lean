import TokenLedger.Amount
import TokenLedger.Pool
import TokenLedger.Rejection
import TokenLedger.Ticker

/-! Questions to the ledger, one after another, and what it records of a token. An inquiry ends with
a result or a rejection, or asks one question and goes on with the answer; who answers, and how, is
not its business. -/
namespace TokenLedger

/-- How much of a token there is and may be. -/
structure Supply where
  minted : Amount
  max : Amount
  /-- The most that one mint may make. -/
  limit : Amount
  deriving DecidableEq

structure Token where
  supply : Supply
  decimals : UInt8
  /-- None for the bridged token, which nobody deploys. -/
  deployer : Option Address
  deriving DecidableEq

namespace Token

def deployed (max limit : Amount) (decimals : UInt8) (deployer : Address) : Token :=
  ⟨⟨.zero, max, limit⟩, decimals, some deployer⟩

/-- The record that the first deposit over the bridge makes. -/
def wrapped : Token := ⟨⟨.zero, .max, .max⟩, defaultDecimals, none⟩

def withMinted (t : Token) (minted : Amount) : Token :=
  { t with supply := { t.supply with minted } }

@[simp] theorem minted_withMinted (t : Token) (m : Amount) :
    (t.withMinted m).supply.minted = m := rfl

@[simp] theorem max_withMinted (t : Token) (m : Amount) :
    (t.withMinted m).supply.max = t.supply.max := rfl

end Token

inductive Query
  | supply (ticker : Ticker)
  | balance (ticker : Ticker) (holder : Address)
  | pool (key : PoolKey)
  deriving DecidableEq

/-- What is recorded, if anything is. -/
abbrev Query.Answer : Query → Type
  | supply _ => Option Supply
  | balance _ _ => Option Amount
  | pool _ => Option Pool

inductive Inquiry (α : Type)
  | done (a : α)
  | reject (r : Rejection)
  | ask (q : Query) (next : q.Answer → Inquiry α)

namespace Inquiry

variable {α β : Type}

def bind : Inquiry α → (α → Inquiry β) → Inquiry β
  | done a, f => f a
  | reject r, _ => reject r
  | ask q next, f => ask q fun x => (next x).bind f

instance : Monad Inquiry where
  pure := done
  bind := bind

@[simp] theorem done_bind (a : α) (f : α → Inquiry β) : (done a >>= f) = f a := rfl
@[simp] theorem pure_eq (a : α) : (pure a : Inquiry α) = done a := rfl
@[simp] theorem reject_bind (r : Rejection) (f : α → Inquiry β) : (reject r >>= f) = reject r := rfl
@[simp] theorem ask_bind (q : Query) (next : q.Answer → Inquiry α) (f : α → Inquiry β) :
    (ask q next >>= f) = ask q fun x => next x >>= f := rfl

instance : LawfulMonad Inquiry :=
  LawfulMonad.mk' Inquiry
    (fun x => by
      change x.bind done = x
      induction x with
      | done a => rfl
      | reject r => rfl
      | ask q next ih => simp only [bind, ih])
    (fun _ _ => rfl)
    (fun x f g => by
      change (x.bind f).bind g = x.bind fun a => (f a).bind g
      induction x with
      | done a => rfl
      | reject r => rfl
      | ask q next ih => simp only [bind, ih])

def supply (t : Ticker) : Inquiry (Option Supply) := ask (.supply t) done
def balance (t : Ticker) (a : Address) : Inquiry (Option Amount) := ask (.balance t a) done
def pool (k : PoolKey) : Inquiry (Option Pool) := ask (.pool k) done

def rejectFor (reason : Reason) (detail : String) : Inquiry α := reject (.because reason detail)

end Inquiry
end TokenLedger
