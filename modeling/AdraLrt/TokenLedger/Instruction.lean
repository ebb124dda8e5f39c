import AdraLrt.TokenLedger.Basic

/-!
# Token-program instructions

The instructions of the token program and their effect on a ledger (`process`), with the checks and
their order as in the program: frozen accounts, funds, mints, decimals, then the authority. An
authority is accepted when it is the owner of the account or its delegate within the allowance
(`TokenAccount.authorize`), the holder of the mint authority for minting, and so on; whether it
signed is a question of privileges and is asked in `TokenLedger.Privilege`.

A transfer that names its mint and decimals is the checked variant, and the only one allowed on a
mint with a transfer fee. The checked variants of minting, burning and approving add a decimals
check only and are left out, as are multisignature owners and the burning of what belongs to nobody
(the accounts of the system program and the incinerator).
-/

set_option autoImplicit false

namespace TokenLedger

open Checked

/-- Errors of the token program. -/
inductive TokenError where
  | uninitializedState
  | alreadyInUse
  | incorrectProgramId
  | accountFrozen
  | insufficientFunds
  | mintMismatch
  | mintDecimalsMismatch
  | mintRequiredForTransfer
  | ownerMismatch
  | fixedSupply
  | mintCannotFreeze
  | invalidState
  | nonNativeHasBalance
  | invalidAccountData
  | overflow
deriving DecidableEq, Repr

/-- The authority that `setAuthority` replaces, with the new holder. The owner of a token account
cannot be cleared, the other three can. -/
inductive AuthorityChange (K : Type) where
  | mintTokens (new : Option K)
  | freezeAccount (new : Option K)
  | accountOwner (new : K)
  | closeAccount (new : Option K)
deriving DecidableEq, Repr

/-- Token-program instructions; `authority` is the account that has to sign. -/
inductive TokenIx (K : Type) where
  | initializeMint (mint : K) (decimals : UInt8) (mintAuthority : K) (freezeAuthority : Option K)
  | initializeAccount (account mint owner : K)
  | transfer (source destination authority : K) (amount : Nat) (checked : Option (K × UInt8))
  | approve (source delegate authority : K) (amount : Nat)
  | revoke (source authority : K)
  | setAuthority (owned authority : K) (change : AuthorityChange K)
  | mintTo (mint destination authority : K) (amount : Nat)
  | burn (source mint authority : K) (amount : Nat)
  | closeAccount (account destination authority : K)
  | freezeAccount (account mint authority : K)
  | thawAccount (account mint authority : K)
deriving DecidableEq, Repr

section Process

variable {K : Type} [DecidableEq K]

/-- Read a token account that belongs to `program`. -/
def Ledger.getAccount (l : Ledger K) (program k : K) : Except TokenError (TokenAccount K) := do
  let a ← orError .uninitializedState (l.accounts k)
  require (a.program = program) .incorrectProgramId
  pure a

/-- Read a mint that belongs to `program`. -/
def Ledger.getMint (l : Ledger K) (program k : K) : Except TokenError (Mint K) := do
  let m ← orError .uninitializedState (l.mints k)
  require (m.program = program) .incorrectProgramId
  pure m

/-- Accept `authority` for moving `amount` out of the account. The delegate is tried first, and its
allowance is reduced by the amount. -/
def TokenAccount.authorize (a : TokenAccount K) (authority : K) (amount : Nat) :
    Except TokenError (TokenAccount K) :=
  if a.delegate = some authority then do
    require (amount ≤ a.delegatedAmount) .insufficientFunds
    pure { a with
      delegatedAmount := a.delegatedAmount - amount
      delegate := if a.delegatedAmount = amount then none else a.delegate }
  else do
    require (a.owner = authority) .ownerMismatch
    pure a

/-- The fee of a transfer, after the checks on the named mint. -/
def Ledger.transferFee (l : Ledger K) (program mint : K) (amount : Nat) :
    Option (K × UInt8) → Except TokenError Nat
  | some (m, decimals) => do
    require (m = mint) .mintMismatch
    let x ← l.getMint program m
    require (decimals = x.decimals) .mintDecimalsMismatch
    pure (x.fee amount)
  -- the unchecked transfer does not read the mint and refuses accounts that record a fee
  | none => do
    require (∀ x ∈ l.mints mint, x.transferFee = none) .mintRequiredForTransfer
    pure 0

def processTransfer (program source destination authority : K) (amount : Nat)
    (checked : Option (K × UInt8)) (l : Ledger K) : Except TokenError (Ledger K) := do
  let src ← l.getAccount program source
  let dst ← l.getAccount program destination
  require (src.frozen = false ∧ dst.frozen = false) .accountFrozen
  require (amount ≤ src.amount) .insufficientFunds
  require (src.mint = dst.mint) .mintMismatch
  let fee ← l.transferFee program src.mint amount checked
  let src' ← src.authorize authority amount
  -- a transfer to itself passes all checks and moves nothing, the allowance included
  if source = destination then pure l
  else do
    let credited ← subU64 .overflow amount fee
    let _ ← addU64 .overflow dst.amount credited
    pure ((l.setAccount source (some (src'.debit amount))).setAccount
      destination (some (dst.credit credited fee)))

def processMintTo (program mint destination authority : K) (amount : Nat) (l : Ledger K) :
    Except TokenError (Ledger K) := do
  let dst ← l.getAccount program destination
  require (dst.frozen = false) .accountFrozen
  require (mint = dst.mint) .mintMismatch
  let m ← l.getMint program mint
  let holder ← orError .fixedSupply m.mintAuthority
  require (holder = authority) .ownerMismatch
  let _ ← addU64 .overflow dst.amount amount
  let supply ← addU64 .overflow m.supply amount
  pure ((l.setAccount destination (some (dst.credit amount 0))).setMint mint (m.withSupply supply))

def processBurn (program source mint authority : K) (amount : Nat) (l : Ledger K) :
    Except TokenError (Ledger K) := do
  let src ← l.getAccount program source
  let m ← l.getMint program mint
  require (src.frozen = false) .accountFrozen
  require (amount ≤ src.amount) .insufficientFunds
  require (mint = src.mint) .mintMismatch
  let src' ← src.authorize authority amount
  let supply ← subU64 .overflow m.supply amount
  pure ((l.setAccount source (some (src'.debit amount))).setMint mint (m.withSupply supply))

def processApprove (program source delegate authority : K) (amount : Nat) (l : Ledger K) :
    Except TokenError (Ledger K) := do
  let src ← l.getAccount program source
  require (src.frozen = false) .accountFrozen
  require (src.owner = authority) .ownerMismatch
  pure (l.setAccount source
    (some { src with delegate := some delegate, delegatedAmount := amount }))

def processRevoke (program source authority : K) (l : Ledger K) :
    Except TokenError (Ledger K) := do
  let src ← l.getAccount program source
  require (src.frozen = false) .accountFrozen
  require (src.owner = authority) .ownerMismatch
  pure (l.setAccount source (some { src with delegate := none, delegatedAmount := 0 }))

def processSetAuthority (program owned authority : K) (l : Ledger K) :
    AuthorityChange K → Except TokenError (Ledger K)
  | .mintTokens new => do
    let m ← l.getMint program owned
    let holder ← orError .fixedSupply m.mintAuthority
    require (holder = authority) .ownerMismatch
    pure (l.setMint owned { m with mintAuthority := new })
  | .freezeAccount new => do
    let m ← l.getMint program owned
    let holder ← orError .mintCannotFreeze m.freezeAuthority
    require (holder = authority) .ownerMismatch
    pure (l.setMint owned { m with freezeAuthority := new })
  | .accountOwner new => do
    let a ← l.getAccount program owned
    require (a.frozen = false) .accountFrozen
    require (a.owner = authority) .ownerMismatch
    -- the delegate of the former owner goes with it
    pure (l.setAccount owned
      (some { a with owner := new, delegate := none, delegatedAmount := 0 }))
  | .closeAccount new => do
    let a ← l.getAccount program owned
    require (a.frozen = false) .accountFrozen
    require (a.closeAuthority.getD a.owner = authority) .ownerMismatch
    pure (l.setAccount owned (some { a with closeAuthority := new }))

def processCloseAccount (program account destination authority : K) (l : Ledger K) :
    Except TokenError (Ledger K) := do
  require (account ≠ destination) .invalidAccountData
  let a ← l.getAccount program account
  require (a.amount = 0 ∧ a.withheld = 0) .nonNativeHasBalance
  require (a.closeAuthority.getD a.owner = authority) .ownerMismatch
  pure (l.setAccount account none)

/-- Freezing (`frozen = true`) and thawing (`frozen = false`). -/
def processToggleFreeze (program account mint authority : K) (frozen : Bool) (l : Ledger K) :
    Except TokenError (Ledger K) := do
  let a ← l.getAccount program account
  require (a.frozen ≠ frozen) .invalidState
  require (mint = a.mint) .mintMismatch
  let m ← l.getMint program mint
  let holder ← orError .mintCannotFreeze m.freezeAuthority
  require (holder = authority) .ownerMismatch
  pure (l.setAccount account (some { a with frozen := frozen }))

def processInitializeMint (program mint : K) (decimals : UInt8) (mintAuthority : K)
    (freezeAuthority : Option K) (l : Ledger K) : Except TokenError (Ledger K) := do
  require (l.mints mint = none ∧ l.accounts mint = none) .alreadyInUse
  pure (l.setMint mint ⟨some mintAuthority, freezeAuthority, 0, decimals, program, none⟩)

def processInitializeAccount (program account mint owner : K) (l : Ledger K) :
    Except TokenError (Ledger K) := do
  require (l.mints account = none ∧ l.accounts account = none) .alreadyInUse
  let _ ← l.getMint program mint
  pure (l.setAccount account (some (.fresh program mint owner)))

/-- Run one instruction of the token program `program`. -/
def process (program : K) : TokenIx K → Ledger K → Except TokenError (Ledger K)
  | .initializeMint mint decimals mintAuthority freezeAuthority =>
      processInitializeMint program mint decimals mintAuthority freezeAuthority
  | .initializeAccount account mint owner => processInitializeAccount program account mint owner
  | .transfer source destination authority amount checked =>
      processTransfer program source destination authority amount checked
  | .approve source delegate authority amount =>
      processApprove program source delegate authority amount
  | .revoke source authority => processRevoke program source authority
  | .setAuthority owned authority change => (processSetAuthority program owned authority · change)
  | .mintTo mint destination authority amount =>
      processMintTo program mint destination authority amount
  | .burn source mint authority amount => processBurn program source mint authority amount
  | .closeAccount account destination authority =>
      processCloseAccount program account destination authority
  | .freezeAccount account mint authority => processToggleFreeze program account mint authority true
  | .thawAccount account mint authority => processToggleFreeze program account mint authority false

/-! ## When the reads and the authorization succeed -/

@[simp] theorem getAccount_eq_ok_iff (l : Ledger K) (program k : K) (a : TokenAccount K) :
    l.getAccount program k = .ok a ↔ l.accounts k = some a ∧ a.program = program := by
  simp only [Ledger.getAccount, bind_eq_ok_iff, orError_eq_ok_iff, require_eq_ok_iff,
    pure_eq_ok_iff]
  constructor
  · rintro ⟨b, hb, _, hp, rfl⟩
    exact ⟨hb, hp⟩
  · rintro ⟨ha, hp⟩
    exact ⟨a, ha, (), hp, rfl⟩

@[simp] theorem getMint_eq_ok_iff (l : Ledger K) (program k : K) (m : Mint K) :
    l.getMint program k = .ok m ↔ l.mints k = some m ∧ m.program = program := by
  simp only [Ledger.getMint, bind_eq_ok_iff, orError_eq_ok_iff, require_eq_ok_iff, pure_eq_ok_iff]
  constructor
  · rintro ⟨b, hb, _, hp, rfl⟩
    exact ⟨hb, hp⟩
  · rintro ⟨hm, hp⟩
    exact ⟨m, hm, (), hp, rfl⟩

/-- The account after `authority` was accepted for `amount`. -/
def TokenAccount.authorized (a : TokenAccount K) (authority : K) (amount : Nat) : TokenAccount K :=
  if a.delegate = some authority then
    { a with
      delegatedAmount := a.delegatedAmount - amount
      delegate := if a.delegatedAmount = amount then none else a.delegate }
  else a

/-- `authority` may move `amount` out of the account: it is the delegate within the allowance, or
it is the owner and not the delegate. -/
def TokenAccount.MayMove (a : TokenAccount K) (authority : K) (amount : Nat) : Prop :=
  (a.delegate = some authority ∧ amount ≤ a.delegatedAmount) ∨
    (a.delegate ≠ some authority ∧ a.owner = authority)

instance (a : TokenAccount K) (authority : K) (amount : Nat) :
    Decidable (a.MayMove authority amount) :=
  inferInstanceAs (Decidable (_ ∨ _))

@[simp] theorem authorize_eq_ok_iff (a b : TokenAccount K) (authority : K) (amount : Nat) :
    a.authorize authority amount = .ok b ↔
      a.MayMove authority amount ∧ a.authorized authority amount = b := by
  unfold TokenAccount.authorize TokenAccount.MayMove TokenAccount.authorized
  by_cases hd : a.delegate = some authority
  · simp [hd]
  · simp [hd]

@[simp] theorem authorized_amount (a : TokenAccount K) (authority : K) (amount : Nat) :
    (a.authorized authority amount).amount = a.amount := by
  unfold TokenAccount.authorized
  split <;> rfl

@[simp] theorem authorized_mint (a : TokenAccount K) (authority : K) (amount : Nat) :
    (a.authorized authority amount).mint = a.mint := by
  unfold TokenAccount.authorized
  split <;> rfl

@[simp] theorem authorized_owner (a : TokenAccount K) (authority : K) (amount : Nat) :
    (a.authorized authority amount).owner = a.owner := by
  unfold TokenAccount.authorized
  split <;> rfl

@[simp] theorem authorized_program (a : TokenAccount K) (authority : K) (amount : Nat) :
    (a.authorized authority amount).program = a.program := by
  unfold TokenAccount.authorized
  split <;> rfl

@[simp] theorem authorized_closeAuthority (a : TokenAccount K) (authority : K) (amount : Nat) :
    (a.authorized authority amount).closeAuthority = a.closeAuthority := by
  unfold TokenAccount.authorized
  split <;> rfl

@[simp] theorem authorized_frozen (a : TokenAccount K) (authority : K) (amount : Nat) :
    (a.authorized authority amount).frozen = a.frozen := by
  unfold TokenAccount.authorized
  split <;> rfl

/-- An accepted authority keeps the delegate or exhausts its allowance. -/
theorem authorized_delegate (a : TokenAccount K) (authority : K) (amount : Nat) :
    (a.authorized authority amount).delegate = a.delegate ∨
      (a.authorized authority amount).delegate = none := by
  unfold TokenAccount.authorized
  split
  · simp only
    split
    · exact Or.inr rfl
    · exact Or.inl rfl
  · exact Or.inl rfl

end Process

end TokenLedger
