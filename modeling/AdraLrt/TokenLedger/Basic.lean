import AdraLrt.TokenLedger.Checked
import Mathlib.Logic.Function.Basic

/-!
# Mints, token accounts and the ledger

The state that a token program keeps, over an arbitrary type `K` of addresses: a mint holds the two
authorities, the supply and the decimals; a token account holds an amount of one mint for an owner,
an optional delegate with an allowance, an optional close authority and the frozen flag. A ledger
maps addresses to mints and to token accounts. `program` is the token program that owns the data, so
one ledger can hold the data of several token programs.

Amounts are natural numbers; every addition the instructions make goes through `Checked.addU64`.
Accounts that wrap the native coin are left out.
-/

set_option autoImplicit false

namespace TokenLedger

/-- The transfer-fee setting of a mint. -/
structure TransferFee where
  basisPoints : Nat
  maximumFee : Nat
deriving DecidableEq, Repr

/-- The fee withheld from a transfer of `amount`: the rate rounded up, at most the maximum. -/
def TransferFee.calculate (f : TransferFee) (amount : Nat) : Nat :=
  min f.maximumFee ((amount * f.basisPoints + 9999) / 10000)

/-- A mint. -/
structure Mint (K : Type) where
  mintAuthority : Option K
  freezeAuthority : Option K
  supply : Nat
  decimals : UInt8
  program : K
  transferFee : Option TransferFee
deriving DecidableEq, Repr

/-- A token account. -/
structure TokenAccount (K : Type) where
  mint : K
  owner : K
  amount : Nat
  delegate : Option K
  delegatedAmount : Nat
  closeAuthority : Option K
  frozen : Bool
  program : K
  withheld : Nat
deriving DecidableEq, Repr

/-- The fee of a transfer in this mint. -/
def Mint.fee {K : Type} (m : Mint K) (amount : Nat) : Nat :=
  match m.transferFee with
  | some f => f.calculate amount
  | none => 0

/-- A token account as the token program initializes it. -/
def TokenAccount.fresh {K : Type} (program mint owner : K) : TokenAccount K where
  mint := mint
  owner := owner
  amount := 0
  delegate := none
  delegatedAmount := 0
  closeAuthority := none
  frozen := false
  program := program
  withheld := 0

/-- The account after `amount` left it. -/
def TokenAccount.debit {K : Type} (a : TokenAccount K) (amount : Nat) : TokenAccount K :=
  { a with amount := a.amount - amount }

/-- The account after `amount` arrived, with `fee` withheld from it. -/
def TokenAccount.credit {K : Type} (a : TokenAccount K) (amount fee : Nat) : TokenAccount K :=
  { a with amount := a.amount + amount, withheld := a.withheld + fee }

/-- The mint with another supply. -/
def Mint.withSupply {K : Type} (m : Mint K) (supply : Nat) : Mint K :=
  { m with supply := supply }

section Fields

variable {K : Type} (a : TokenAccount K) (m : Mint K) (amount fee : Nat)

@[simp] theorem TokenAccount.debit_amount : (a.debit amount).amount = a.amount - amount := rfl
@[simp] theorem TokenAccount.debit_mint : (a.debit amount).mint = a.mint := rfl
@[simp] theorem TokenAccount.debit_owner : (a.debit amount).owner = a.owner := rfl
@[simp] theorem TokenAccount.debit_program : (a.debit amount).program = a.program := rfl
@[simp] theorem TokenAccount.debit_delegate : (a.debit amount).delegate = a.delegate := rfl
@[simp] theorem TokenAccount.debit_closeAuthority :
    (a.debit amount).closeAuthority = a.closeAuthority := rfl
@[simp] theorem TokenAccount.debit_frozen : (a.debit amount).frozen = a.frozen := rfl

@[simp] theorem TokenAccount.credit_amount : (a.credit amount fee).amount = a.amount + amount := rfl
@[simp] theorem TokenAccount.credit_mint : (a.credit amount fee).mint = a.mint := rfl
@[simp] theorem TokenAccount.credit_owner : (a.credit amount fee).owner = a.owner := rfl
@[simp] theorem TokenAccount.credit_program : (a.credit amount fee).program = a.program := rfl
@[simp] theorem TokenAccount.credit_delegate : (a.credit amount fee).delegate = a.delegate := rfl
@[simp] theorem TokenAccount.credit_closeAuthority :
    (a.credit amount fee).closeAuthority = a.closeAuthority := rfl
@[simp] theorem TokenAccount.credit_frozen : (a.credit amount fee).frozen = a.frozen := rfl

@[simp] theorem Mint.withSupply_supply : (m.withSupply amount).supply = amount := rfl
@[simp] theorem Mint.withSupply_mintAuthority :
    (m.withSupply amount).mintAuthority = m.mintAuthority := rfl
@[simp] theorem Mint.withSupply_freezeAuthority :
    (m.withSupply amount).freezeAuthority = m.freezeAuthority := rfl
@[simp] theorem Mint.withSupply_decimals : (m.withSupply amount).decimals = m.decimals := rfl
@[simp] theorem Mint.withSupply_program : (m.withSupply amount).program = m.program := rfl
@[simp] theorem Mint.withSupply_transferFee :
    (m.withSupply amount).transferFee = m.transferFee := rfl

end Fields

/-- The mints and token accounts by address. -/
@[ext] structure Ledger (K : Type) where
  mints : K → Option (Mint K)
  accounts : K → Option (TokenAccount K)

namespace Ledger

variable {K : Type}

/-- The amount in a token account; an absent account holds nothing. -/
def balance (l : Ledger K) (k : K) : Nat :=
  match l.accounts k with
  | some a => a.amount
  | none => 0

/-- The supply of a mint; an absent mint has none. -/
def supply (l : Ledger K) (m : K) : Nat :=
  match l.mints m with
  | some x => x.supply
  | none => 0

/-- A ledger without transfer fees. -/
def FeeFree (l : Ledger K) : Prop :=
  ∀ m x, l.mints m = some x → x.transferFee = none

theorem balance_of_some {l : Ledger K} {k : K} {a : TokenAccount K} (h : l.accounts k = some a) :
    l.balance k = a.amount := by
  simp [balance, h]

theorem supply_of_some {l : Ledger K} {m : K} {x : Mint K} (h : l.mints m = some x) :
    l.supply m = x.supply := by
  simp [supply, h]

/-- A balance is held in some account. -/
theorem exists_of_balance_pos {l : Ledger K} {k : K} (h : 0 < l.balance k) :
    ∃ a, l.accounts k = some a := by
  cases ha : l.accounts k with
  | none => simp [balance, ha] at h
  | some a => exact ⟨a, rfl⟩

theorem balance_congr {l l' : Ledger K} {k : K} (h : l'.accounts k = l.accounts k) :
    l'.balance k = l.balance k := by
  simp only [balance, h]

theorem supply_congr {l l' : Ledger K} {m : K} (h : l'.mints m = l.mints m) :
    l'.supply m = l.supply m := by
  simp only [supply, h]

variable [DecidableEq K]

/-- Store, replace or delete the token account at `k`. -/
def setAccount (l : Ledger K) (k : K) (a : Option (TokenAccount K)) : Ledger K :=
  { l with accounts := fun k' => if k' = k then a else l.accounts k' }

/-- Store or replace the mint at `k`. -/
def setMint (l : Ledger K) (k : K) (m : Mint K) : Ledger K :=
  { l with mints := fun k' => if k' = k then some m else l.mints k' }

@[simp] theorem setAccount_mints (l : Ledger K) (k : K) (a : Option (TokenAccount K)) :
    (l.setAccount k a).mints = l.mints := rfl

@[simp] theorem setAccount_accounts (l : Ledger K) (k k' : K) (a : Option (TokenAccount K)) :
    (l.setAccount k a).accounts k' = if k' = k then a else l.accounts k' := rfl

@[simp] theorem setMint_accounts (l : Ledger K) (k : K) (m : Mint K) :
    (l.setMint k m).accounts = l.accounts := rfl

@[simp] theorem setMint_mints (l : Ledger K) (k k' : K) (m : Mint K) :
    (l.setMint k m).mints k' = if k' = k then some m else l.mints k' := rfl

@[simp] theorem balance_setMint (l : Ledger K) (k k' : K) (m : Mint K) :
    (l.setMint k m).balance k' = l.balance k' := rfl

@[simp] theorem supply_setAccount (l : Ledger K) (k k' : K) (a : Option (TokenAccount K)) :
    (l.setAccount k a).supply k' = l.supply k' := rfl

theorem balance_setAccount (l : Ledger K) (k k' : K) (a : TokenAccount K) :
    (l.setAccount k (some a)).balance k' = if k' = k then a.amount else l.balance k' := by
  by_cases h : k' = k
  · simp [balance, h]
  · simp [balance, h]

/-- A new account holds nothing. -/
theorem balance_create {l : Ledger K} {k : K} (h : l.accounts k = none) (program mint owner j : K) :
    (l.setAccount k (some (.fresh program mint owner))).balance j = l.balance j := by
  rw [balance_setAccount]
  split
  · next hj =>
      rw [hj, balance, h]
      rfl
  · rfl

theorem supply_setMint (l : Ledger K) (k k' : K) (m : Mint K) :
    (l.setMint k m).supply k' = if k' = k then m.supply else l.supply k' := by
  by_cases h : k' = k
  · simp [supply, h]
  · simp [supply, h]

end Ledger

end TokenLedger
