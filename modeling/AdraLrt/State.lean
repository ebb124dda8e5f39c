import AdraLrt.TokenLedger.Conservation

/-!
# Addresses, pool records and program state

Addresses are symbolic: a key pair, a built-in program, or an address derived by a program from
seeds. Derivation is then injective and derived addresses have no private key, which is
what the hash and the off-curve search of `find_program_address` provide. `findBump` in
`AdraLrt.Runtime` stands for the outcome of that search.

The state is the token ledger together with the `LRTPool` records, the only accounts of the program
that its instructions touch. Lamports and rent are left out.
-/

set_option autoImplicit false

namespace AdraLrt

open TokenLedger

/-- Programs with a fixed address. -/
inductive Program where
  | system
  | token
  | token2022
  | associatedToken
  | adraLrt
deriving DecidableEq, Repr

/-- Account addresses. `programDerived` are the addresses that a program other than this one and the
associated-token program derives for itself. -/
inductive Pubkey where
  | keypair (n : Nat)
  | program (p : Program)
  | programDerived (program : Pubkey) (seed : Nat)
  | associatedToken (wallet tokenProgram mint : Pubkey)
  | lrtPool (outputTokenMint : Pubkey) (bump : UInt8)
deriving DecidableEq, Repr

namespace Pubkey

/-- The address is derived from this program's `lrt_pool` seeds. -/
def isPool : Pubkey → Bool
  | lrtPool _ _ => true
  | _ => false

/-- The address is derived by this program or by the associated-token program. Neither lends the
signature of such an address to a transaction or to another caller of this program. -/
def isReserved : Pubkey → Bool
  | associatedToken _ _ _ => true
  | lrtPool _ _ => true
  | _ => false

/-- Another program derived the address for itself. -/
def isProgramDerived : Pubkey → Bool
  | programDerived _ _ => true
  | _ => false

/-- The address is the one of a program. -/
def isProgram : Pubkey → Bool
  | program _ => true
  | _ => false

/-- `program` can sign for the address in its own cross-program calls. -/
def controls (program : Pubkey) : Pubkey → Bool
  | programDerived p _ => p = program
  | _ => false

theorem isProgramDerived_of_controls {program k : Pubkey} (h : program.controls k = true) :
    k.isProgramDerived = true := by
  cases k with
  | programDerived p n => rfl
  | keypair n => cases h
  | program p => cases h
  | associatedToken w t m => cases h
  | lrtPool m b => cases h

theorem not_isProgramDerived_of_isPool {k : Pubkey} (h : k.isPool = true) :
    k.isProgramDerived = false := by
  cases k with
  | programDerived p n => cases h
  | keypair n => rfl
  | program p => rfl
  | associatedToken w t m => rfl
  | lrtPool m b => rfl

theorem isReserved_of_isPool {k : Pubkey} (h : k.isPool = true) : k.isReserved = true := by
  cases k with
  | programDerived p n => cases h
  | keypair n => cases h
  | program p => cases h
  | associatedToken w t m => cases h
  | lrtPool m b => rfl

theorem not_isPool_of_not_isReserved {k : Pubkey} (h : k.isReserved = false) :
    k.isPool = false := by
  rw [Bool.eq_false_iff] at h ⊢
  exact fun hpool => h (isReserved_of_isPool hpool)

@[simp] theorem isReserved_associatedToken (w t m : Pubkey) :
    (associatedToken w t m).isReserved = true :=
  rfl

theorem not_isPool_of_controls {program k : Pubkey} (h : program.controls k = true) :
    k.isPool = false := by
  cases k with
  | programDerived p n => rfl
  | keypair n => rfl
  | program p => rfl
  | associatedToken w t m => rfl
  | lrtPool m b => cases h

/-- Who can sign a transaction is not a pool. -/
theorem ne_of_not_isReserved {pool k : Pubkey} (hpool : pool.isPool = true)
    (hk : k.isReserved = false) : k ≠ pool := by
  rintro rfl
  rw [isReserved_of_isPool hpool] at hk
  cases hk

theorem ne_of_not_isPool {pool k : Pubkey} (hpool : pool.isPool = true) (hk : k.isPool = false) :
    k ≠ pool := by
  rintro rfl
  rw [hpool] at hk
  cases hk

@[simp] theorem isPool_lrtPool (mint : Pubkey) (bump : UInt8) : (lrtPool mint bump).isPool = true :=
  rfl

end Pubkey

/-- No signature of a reserved address is among the signatures from outside. -/
theorem not_signer_of_isReserved {p : Privileges Pubkey}
    (hp : ∀ k, p.signer k = true → k.isReserved = false) {k : Pubkey} (hk : k.isReserved = true) :
    p.signer k = false := by
  rw [Bool.eq_false_iff]
  intro hs
  rw [hp k hs] at hk
  cases hk

theorem not_signer_of_isPool {p : Privileges Pubkey}
    (hp : ∀ k, p.signer k = true → k.isReserved = false) {k : Pubkey} (hk : k.isPool = true) :
    p.signer k = false :=
  not_signer_of_isReserved hp (Pubkey.isReserved_of_isPool hk)

/-- `declare_id!`. -/
def programId : Pubkey := .program .adraLrt

/-- The programs that `Interface<TokenInterface>` admits. -/
def isTokenInterface (k : Pubkey) : Bool :=
  k = .program .token || k = .program .token2022

/-- The associated token address of a wallet for a mint under a token program. -/
def getAssociatedTokenAddress (wallet tokenProgram mint : Pubkey) : Pubkey :=
  .associatedToken wallet tokenProgram mint

/-- Associated addresses of different wallets, programs or mints differ. -/
theorem getAssociatedTokenAddress_inj {w t m w' t' m' : Pubkey} :
    getAssociatedTokenAddress w t m = getAssociatedTokenAddress w' t' m' ↔
      w = w' ∧ t = t' ∧ m = m' := by
  simp [getAssociatedTokenAddress]

/-- A wallet is not associated with itself. -/
theorem associated_ne_self (wallet tokenProgram mint : Pubkey) :
    getAssociatedTokenAddress wallet tokenProgram mint ≠ wallet := by
  intro h
  have hsize := congrArg sizeOf h
  simp only [getAssociatedTokenAddress, Pubkey.associatedToken.sizeOf_spec] at hsize
  omega

section Associated

variable {k k' w t m w' t' m' : Pubkey}

theorem associated_ne_of_wallet (hk : k = getAssociatedTokenAddress w t m)
    (hk' : k' = getAssociatedTokenAddress w' t' m') (h : w ≠ w') : k ≠ k' := by
  rintro rfl
  exact h (getAssociatedTokenAddress_inj.1 (hk.symm.trans hk')).1

theorem associated_ne_of_mint (hk : k = getAssociatedTokenAddress w t m)
    (hk' : k' = getAssociatedTokenAddress w' t' m') (h : m ≠ m') : k ≠ k' := by
  rintro rfl
  exact h (getAssociatedTokenAddress_inj.1 (hk.symm.trans hk')).2.2

end Associated

/-- `create_program_address` on the seeds `"lrt_pool"`, the output mint and the bump. -/
def poolAddress (outputTokenMint : Pubkey) (bump : UInt8) : Pubkey :=
  .lrtPool outputTokenMint bump

@[simp] theorem isPool_poolAddress (mint : Pubkey) (bump : UInt8) :
    (poolAddress mint bump).isPool = true :=
  rfl

theorem isPool_of_eq {pool mint : Pubkey} {bump : UInt8} (h : pool = poolAddress mint bump) :
    pool.isPool = true := by
  rw [h]
  exact isPool_poolAddress mint bump

/-- What the token programs and the associated-token program guarantee of a ledger: supplies cover
the balances, an account belongs to the program of its mint, and an associated account holds the
mint that its address is derived from. -/
structure WellFormed (l : Ledger Pubkey) : Prop where
  conserved : l.Conserved
  mint_some : ∀ k a, l.accounts k = some a → ∃ m, l.mints a.mint = some m ∧ m.program = a.program
  associated : ∀ wallet tokenProgram mint a,
    l.accounts (getAssociatedTokenAddress wallet tokenProgram mint) = some a → a.mint = mint

/-- The pool record. -/
structure LRTPool where
  bump : UInt8
  inputTokenMint : Pubkey
  outputTokenMint : Pubkey
  delegateAuthority : Pubkey
  outputMintLimit : UInt64
deriving DecidableEq, Repr

/-- The token ledger and the pool records by address. -/
@[ext] structure State where
  ledger : Ledger Pubkey
  pools : Pubkey → Option LRTPool

/-- Store the record of the pool at `k`. -/
def State.setPool (s : State) (k : Pubkey) (r : LRTPool) : State :=
  { s with pools := fun k' => if k' = k then some r else s.pools k' }

@[simp] theorem State.setPool_ledger (s : State) (k : Pubkey) (r : LRTPool) :
    (s.setPool k r).ledger = s.ledger := rfl

@[simp] theorem State.setPool_pools (s : State) (k k' : Pubkey) (r : LRTPool) :
    (s.setPool k r).pools k' = if k' = k then some r else s.pools k' := rfl

theorem State.setPool_pools_of_ne {k k' : Pubkey} (s : State) (r : LRTPool) (h : k ≠ k') :
    (s.setPool k r).pools k' = s.pools k' := by
  rw [State.setPool_pools]
  simp only [h.symm, if_false]

/-- A record found after a write is the one written, or was there before under another key. -/
theorem State.setPool_cases {s : State} {k j : Pubkey} {r r' : LRTPool}
    (h : (s.setPool k r).pools j = some r') : (j = k ∧ r' = r) ∨ (j ≠ k ∧ s.pools j = some r') := by
  rw [State.setPool_pools] at h
  split at h
  · next hj => exact Or.inl ⟨hj, (Option.some.inj h).symm⟩
  · next hj => exact Or.inr ⟨hj, h⟩

/-- Writing back an unchanged record changes nothing. -/
theorem State.setPool_self {s : State} {k : Pubkey} {r : LRTPool} (h : s.pools k = some r) :
    s.setPool k r = s := by
  ext1
  · rfl
  · funext j
    rw [State.setPool_pools]
    split
    · next hj => rw [hj, h]
    · rfl

/-- The errors of the program. -/
inductive LRTPoolError where
  | nonZeroRstMintSupply
  | insufficientSSOLFundsForWithdraw
  | insufficientStakedSOLFundsForWithdraw
  | insufficientSSOLFundsForDelegate
  | insufficientAvsTokenForUndelegate
  | missingAccounts
  | outputMintLimitExceeded
  | invalidDelegateAuthority
deriving DecidableEq, Repr

/-- The message of each error. -/
def LRTPoolError.msg : LRTPoolError → String
  | nonZeroRstMintSupply => "The RST mint supply must be zero during initialization"
  | insufficientSSOLFundsForWithdraw => "Insufficient sSOL funds for withdraw"
  | insufficientStakedSOLFundsForWithdraw => "Insufficient Staked SOL funds for withdraw"
  | insufficientSSOLFundsForDelegate => "Insufficient sSOL funds for delegate"
  | insufficientAvsTokenForUndelegate => "Insufficient Staked SOL funds for delegate"
  | missingAccounts => "Missing necessary accounts"
  | outputMintLimitExceeded => "Mint output exceeds limit"
  | invalidDelegateAuthority => "Invalid delegate authority"

/-- The errors of the account checks that the framework generates. -/
inductive AnchorError where
  | constraintMut
  | constraintHasOne
  | constraintRaw
  | constraintSeeds
  | constraintAssociated
  | constraintAddress
  | constraintTokenMint
  | constraintTokenOwner
  | constraintMintMintAuthority
  | constraintMintFreezeAuthority
  | constraintMintDecimals
  | constraintMintTokenProgram
  | constraintAssociatedTokenTokenProgram
  | accountNotInitialized
  | accountOwnedByWrongProgram
  | accountNotSigner
  | accountNotAssociatedTokenAccount
  | accountNotEnoughKeys
  | invalidProgramId
deriving DecidableEq, Repr

/-- Why an instruction failed: a framework check, an error of the program, a token-program call,
data of another kind of account, or the runtime. -/
inductive ProgramError where
  | anchor (e : AnchorError)
  | lrt (e : LRTPoolError)
  | cpi (e : ExecError)
  | invalidAccountData
  | privilegeEscalation
  | callDepth
  | calleeFailed
  | accountAlreadyInUse
  | invalidSeeds
deriving DecidableEq, Repr

end AdraLrt
