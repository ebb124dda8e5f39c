import AdraLrt.State

/-!
# Cross-program calls

What an instruction handler can ask of the runtime. A `Cx` holds the privileges of the running
instruction and the function that carries out calls to other programs. A call adds at most the
signature of one derived address, the pool seeds passed to `invoke_signed`. Token-program calls run
on the ledger (`Cx.token`); calls to the program passed as `avs_program` go through `Cx.invoke`.

Besides the calls, this module has the two things the framework does to a state around a handler:
creating an associated token account and writing the cached pool record back.
-/

set_option autoImplicit false

namespace AdraLrt

open TokenLedger Checked

/-- The instruction names of this program, whose hashes select the handler. -/
inductive InstructionName where
  | initializePool
  | deposit
  | withdraw
  | withdrawDelegatedStake
  | transferDelegateAuthority
  | delegate
  | undelegate
  | updateMintLimit
deriving DecidableEq, Repr

/-- The first eight bytes of the hash of `"global:<name>"`, by name. -/
structure Sighash where
  name : InstructionName
deriving DecidableEq, Repr

def sighash (name : InstructionName) : Sighash := ⟨name⟩

/-- An instruction: the program, its accounts, and a discriminator followed by an amount. -/
structure Instruction where
  programId : Pubkey
  accounts : List (AccountMeta Pubkey)
  discriminator : Sighash
  amount : UInt64
deriving DecidableEq, Repr

/-- `AccountMeta::new`. -/
def accountMeta (k : Pubkey) (isSigner : Bool) : AccountMeta Pubkey := ⟨k, isSigner, true⟩

/-- `AccountMeta::new_readonly`. -/
def readonlyMeta (k : Pubkey) (isSigner : Bool) : AccountMeta Pubkey := ⟨k, isSigner, false⟩

/-- The ten accounts that a call to an AVS program hands over. -/
structure AvsAccounts where
  pool : Pubkey
  avs : Pubkey
  avsTokenMint : Pubkey
  avsInputTokenVault : Pubkey
  inputTokenMint : Pubkey
  poolInputTokenVault : Pubkey
  poolAvsTokenVault : Pubkey
  tokenProgram : Pubkey
  associatedTokenProgram : Pubkey
  systemProgram : Pubkey
deriving DecidableEq, Repr

def AvsAccounts.metas (x : AvsAccounts) : List (AccountMeta Pubkey) :=
  [accountMeta x.pool true, accountMeta x.avs false, accountMeta x.avsTokenMint false,
    accountMeta x.avsInputTokenVault false, accountMeta x.inputTokenMint false,
    accountMeta x.poolInputTokenVault false, accountMeta x.poolAvsTokenVault false,
    readonlyMeta x.tokenProgram false, readonlyMeta x.associatedTokenProgram false,
    readonlyMeta x.systemProgram false]

/-- The instruction that the handlers build for an AVS program: the accounts, the hash of the name
and the amount. -/
def avsInstruction (avsProgram : Pubkey) (name : InstructionName) (x : AvsAccounts)
    (amount : UInt64) : Instruction where
  programId := avsProgram
  accounts := x.metas
  discriminator := sighash name
  amount := amount

/-- The privileges together with the signature of a derived address. -/
def sign (p : Privileges Pubkey) (k : Pubkey) : Privileges Pubkey :=
  { p with signer := fun j => p.signer j || j = k }

@[simp] theorem sign_available (p : Privileges Pubkey) (k : Pubkey) :
    (sign p k).available = p.available := rfl

@[simp] theorem sign_writable (p : Privileges Pubkey) (k : Pubkey) :
    (sign p k).writable = p.writable := rfl

@[simp] theorem sign_signer (p : Privileges Pubkey) (k j : Pubkey) :
    (sign p k).signer j = (p.signer j || j = k) := rfl

/-- The environment of a running handler: the outcome of the bump search, the privileges of the
instruction and the cross-program call. -/
structure Cx where
  findBump : Pubkey → UInt8
  priv : Privileges Pubkey
  invoke : Privileges Pubkey → Instruction → State → Except ProgramError State

/-- A call to the token program with the privileges `p`. -/
def tokenCpi (p : Privileges Pubkey) (program : Pubkey) (ix : TokenIx Pubkey) (s : State) :
    Except ProgramError State := do
  let l ← mapError .cpi (exec p program ix s.ledger)
  pure { s with ledger := l }

@[simp] theorem tokenCpi_eq_ok_iff (p : Privileges Pubkey) (program : Pubkey)
    (ix : TokenIx Pubkey) (s s' : State) :
    tokenCpi p program ix s = .ok s' ↔
      ∃ l, exec p program ix s.ledger = .ok l ∧ s' = { s with ledger := l } := by
  simp only [tokenCpi, bind_eq_ok_iff, mapError_eq_ok_iff, pure_eq_ok_iff]
  constructor
  · rintro ⟨l, hl, rfl⟩
    exact ⟨l, hl, rfl⟩
  · rintro ⟨l, hl, rfl⟩
    exact ⟨l, hl, rfl⟩

/-- `create` of the associated-token program: an empty account at the derived address. -/
def createAssociatedToken (p : Privileges Pubkey) (key wallet tokenProgram mint : Pubkey)
    (s : State) : Except ProgramError State := do
  require (p.writable key = true) .privilegeEscalation
  require (key = getAssociatedTokenAddress wallet tokenProgram mint) .invalidSeeds
  let l ← mapError (.cpi ∘ .token) (processInitializeAccount tokenProgram key mint wallet s.ledger)
  pure { s with ledger := l }

/-- Creating an associated token account adds one empty account at a free address. -/
theorem createAssociatedToken_eq_ok_iff (p : Privileges Pubkey)
    (key wallet tokenProgram mint : Pubkey) (s s' : State) :
    createAssociatedToken p key wallet tokenProgram mint s = .ok s' ↔
      p.writable key = true ∧ key = getAssociatedTokenAddress wallet tokenProgram mint ∧
        ∃ m, s.ledger.mints key = none ∧ s.ledger.accounts key = none ∧
          s.ledger.mints mint = some m ∧ m.program = tokenProgram ∧
          s' = { s with
            ledger := s.ledger.setAccount key (some (.fresh tokenProgram mint wallet)) } := by
  simp only [createAssociatedToken, bind_eq_ok_iff, require_eq_ok_iff, mapError_eq_ok_iff,
    processInitializeAccount_eq_ok_iff, pure_eq_ok_iff]
  constructor
  · rintro ⟨_, hw, _, hk, l, ⟨m, hm, ha, hx, hp, rfl⟩, rfl⟩
    exact ⟨hw, hk, m, hm, ha, hx, hp, rfl⟩
  · rintro ⟨hw, hk, m, hm, ha, hx, hp, rfl⟩
    exact ⟨(), hw, (), hk, _, ⟨m, hm, ha, hx, hp, rfl⟩, rfl⟩

end AdraLrt
