import AdraLrt.Run

/-!
# Transactions as clients build them

The generated client lists the accounts of an instruction with their flags (`Call.metas`), and the
scripts derive the addresses of token accounts from the wallet, the token program and the mint. A
transaction with one instruction has exactly the privileges of that list (`transaction`).
-/

set_option autoImplicit false

namespace AdraLrt

open TokenLedger Checked

def InitializeAccounts.metas (a : InitializeAccounts) : List (AccountMeta Pubkey) :=
  [accountMeta a.signer true, readonlyMeta a.delegateAuthority false,
    readonlyMeta a.inputTokenMint false, accountMeta a.poolInputTokenVault false,
    readonlyMeta a.outputTokenMint false, accountMeta a.pool false,
    readonlyMeta a.associatedTokenProgram false, readonlyMeta a.tokenProgram false,
    readonlyMeta a.systemProgram false]

def DepositAccounts.metas (a : DepositAccounts) : List (AccountMeta Pubkey) :=
  [accountMeta a.signer true, readonlyMeta a.inputTokenMint false,
    readonlyMeta a.signerInputTokenVault false, accountMeta a.poolInputTokenVault false,
    accountMeta a.outputTokenMint false, accountMeta a.signerOutputTokenVault false,
    accountMeta a.pool false, readonlyMeta a.associatedTokenProgram false,
    readonlyMeta a.tokenProgram false, readonlyMeta a.systemProgram false]

def WithdrawAccounts.metas (a : WithdrawAccounts) : List (AccountMeta Pubkey) :=
  [accountMeta a.signer true, accountMeta a.inputTokenMint false,
    accountMeta a.signerInputTokenVault false, accountMeta a.poolInputTokenVault false,
    accountMeta a.outputTokenMint false, accountMeta a.signerOutputTokenVault false,
    accountMeta a.pool false, readonlyMeta a.associatedTokenProgram false,
    readonlyMeta a.tokenProgram false, readonlyMeta a.systemProgram false]

def WithdrawStakeAccounts.metas (a : WithdrawStakeAccounts) : List (AccountMeta Pubkey) :=
  [accountMeta a.signer true, accountMeta a.inputTokenMint false,
    accountMeta a.signerInputTokenVault false, accountMeta a.poolInputTokenVault false,
    accountMeta a.outputTokenMint false, accountMeta a.signerOutputTokenVault false,
    accountMeta a.pool false, accountMeta a.avs false, accountMeta a.avsTokenMint false,
    accountMeta a.avsInputTokenVault false, accountMeta a.poolAvsTokenVault false,
    readonlyMeta a.avsProgram false, readonlyMeta a.associatedTokenProgram false,
    readonlyMeta a.tokenProgram false, readonlyMeta a.systemProgram false]

def DelegateAccounts.metas (a : DelegateAccounts) : List (AccountMeta Pubkey) :=
  [accountMeta a.signer true, accountMeta a.avs false, accountMeta a.avsTokenMint false,
    accountMeta a.avsInputTokenVault false, accountMeta a.inputTokenMint false,
    accountMeta a.poolInputTokenVault false, accountMeta a.poolAvsTokenVault false,
    accountMeta a.pool false, readonlyMeta a.avsProgram false, readonlyMeta a.tokenProgram false,
    readonlyMeta a.associatedTokenProgram false, readonlyMeta a.systemProgram false]

def TransferDelegateAuthorityAccounts.metas (a : TransferDelegateAuthorityAccounts) :
    List (AccountMeta Pubkey) :=
  [accountMeta a.authority true, accountMeta a.pool false, readonlyMeta a.newAuthority false]

def UpdateMintLimitAccounts.metas (a : UpdateMintLimitAccounts) : List (AccountMeta Pubkey) :=
  [accountMeta a.authority true, accountMeta a.pool false]

/-- The accounts of an instruction as the generated client lists them. -/
def Call.metas : Call → List (AccountMeta Pubkey)
  | .initializePool a _ => a.metas
  | .deposit a _ => a.metas
  | .withdraw a _ => a.metas
  | .withdrawDelegatedStake a _ => a.metas
  | .transferDelegateAuthority a => a.metas
  | .delegate a _ => a.metas
  | .undelegate a _ => a.metas
  | .updateMintLimit a _ => a.metas

/-- The privileges of a transaction with one instruction. -/
def transaction (metas : List (AccountMeta Pubkey)) : Privileges Pubkey where
  available k := metas.any fun m => m.pubkey = k
  signer k := metas.any fun m => m.pubkey = k && m.isSigner
  writable k := metas.any fun m => m.pubkey = k && m.isWritable

section Transaction

variable {metas : List (AccountMeta Pubkey)} {m : AccountMeta Pubkey}

theorem transaction_available (h : m ∈ metas) :
    (transaction metas).available m.pubkey = true := by
  simp only [transaction, List.any_eq_true, decide_eq_true_eq]
  exact ⟨m, h, rfl⟩

theorem transaction_signer (h : m ∈ metas) (hs : m.isSigner = true) :
    (transaction metas).signer m.pubkey = true := by
  simp only [transaction, List.any_eq_true, Bool.and_eq_true, decide_eq_true_eq]
  exact ⟨m, h, rfl, hs⟩

theorem transaction_writable (h : m ∈ metas) (hw : m.isWritable = true) :
    (transaction metas).writable m.pubkey = true := by
  simp only [transaction, List.any_eq_true, Bool.and_eq_true, decide_eq_true_eq]
  exact ⟨m, h, rfl, hw⟩

/-- More accounts in the list give more privileges. -/
theorem transaction_mono {metas' : List (AccountMeta Pubkey)} (h : metas ⊆ metas') :
    (transaction metas).Le (transaction metas') where
  available k hk := by
    simp only [transaction, List.any_eq_true] at hk ⊢
    obtain ⟨m, hm, hmk⟩ := hk
    exact ⟨m, h hm, hmk⟩
  signer k hk := by
    simp only [transaction, List.any_eq_true] at hk ⊢
    obtain ⟨m, hm, hmk⟩ := hk
    exact ⟨m, h hm, hmk⟩
  writable k hk := by
    simp only [transaction, List.any_eq_true] at hk ⊢
    obtain ⟨m, hm, hmk⟩ := hk
    exact ⟨m, h hm, hmk⟩

/-- What all signers in the list have in common holds of every signer. -/
theorem transaction_signer_all {P : Pubkey → Prop} {j : Pubkey}
    (h : ∀ m ∈ metas, m.isSigner = true → P m.pubkey) (hj : (transaction metas).signer j = true) :
    P j := by
  simp only [transaction, List.any_eq_true, Bool.and_eq_true, decide_eq_true_eq] at hj
  obtain ⟨m, hm, rfl, hs⟩ := hj
  exact h m hm hs

end Transaction

/-- Run instructions one after another, each in a transaction of its own, up to the first that
fails. -/
def Runtime.submit (rt : Runtime) : List Call → State → Except ProgramError State
  | [], s => .ok s
  | c :: cs, s => do
    let s' ← rt.execute (transaction c.metas) c s
    rt.submit cs s'

/-- Two transactions succeed when the first does and then the second. -/
theorem Runtime.submit_pair_iff (rt : Runtime) (c c' : Call) (s s' : State) :
    rt.submit [c, c'] s = .ok s' ↔
      ∃ s₁, rt.execute (transaction c.metas) c s = .ok s₁ ∧
        rt.execute (transaction c'.metas) c' s₁ = .ok s' := by
  simp only [Runtime.submit, bind_eq_ok_iff, Except.ok.injEq, exists_eq_right]

section Derived

variable (user tokenProgram pool : Pubkey) (r : LRTPool)

/-- The accounts that `scripts/initialize.ts` passes for a new pool of `outputTokenMint`. -/
def InitializeAccounts.derived (signer delegateAuthority inputTokenMint outputTokenMint : Pubkey) :
    InitializeAccounts where
  signer := signer
  delegateAuthority := delegateAuthority
  inputTokenMint := inputTokenMint
  poolInputTokenVault := getAssociatedTokenAddress pool tokenProgram inputTokenMint
  outputTokenMint := outputTokenMint
  pool := pool
  associatedTokenProgram := .program .associatedToken
  tokenProgram := tokenProgram
  systemProgram := .program .system

/-- The accounts that `scripts/deposit.ts` passes. -/
def DepositAccounts.derived : DepositAccounts where
  signer := user
  inputTokenMint := r.inputTokenMint
  signerInputTokenVault := getAssociatedTokenAddress user tokenProgram r.inputTokenMint
  poolInputTokenVault := getAssociatedTokenAddress pool tokenProgram r.inputTokenMint
  outputTokenMint := r.outputTokenMint
  signerOutputTokenVault := getAssociatedTokenAddress user tokenProgram r.outputTokenMint
  pool := pool
  associatedTokenProgram := .program .associatedToken
  tokenProgram := tokenProgram
  systemProgram := .program .system

/-- The accounts that `scripts/withdraw.ts` passes. -/
def WithdrawAccounts.derived : WithdrawAccounts where
  signer := user
  inputTokenMint := r.inputTokenMint
  signerInputTokenVault := getAssociatedTokenAddress user tokenProgram r.inputTokenMint
  poolInputTokenVault := getAssociatedTokenAddress pool tokenProgram r.inputTokenMint
  outputTokenMint := r.outputTokenMint
  signerOutputTokenVault := getAssociatedTokenAddress user tokenProgram r.outputTokenMint
  pool := pool
  associatedTokenProgram := .program .associatedToken
  tokenProgram := tokenProgram
  systemProgram := .program .system

variable (avs avsTokenMint avsProgram : Pubkey)

/-- The accounts that `scripts/withdraw-stake.ts` passes. -/
def WithdrawStakeAccounts.derived : WithdrawStakeAccounts where
  signer := user
  inputTokenMint := r.inputTokenMint
  signerInputTokenVault := getAssociatedTokenAddress user tokenProgram r.inputTokenMint
  poolInputTokenVault := getAssociatedTokenAddress pool tokenProgram r.inputTokenMint
  outputTokenMint := r.outputTokenMint
  signerOutputTokenVault := getAssociatedTokenAddress user tokenProgram r.outputTokenMint
  pool := pool
  avs := avs
  avsTokenMint := avsTokenMint
  avsInputTokenVault := getAssociatedTokenAddress avs tokenProgram r.inputTokenMint
  poolAvsTokenVault := getAssociatedTokenAddress pool tokenProgram avsTokenMint
  avsProgram := avsProgram
  associatedTokenProgram := .program .associatedToken
  tokenProgram := tokenProgram
  systemProgram := .program .system

/-- The accounts that `scripts/delegate.ts` and `scripts/undelegate.ts` pass. -/
def DelegateAccounts.derived (signer : Pubkey) : DelegateAccounts where
  signer := signer
  avs := avs
  avsTokenMint := avsTokenMint
  avsInputTokenVault := getAssociatedTokenAddress avs tokenProgram r.inputTokenMint
  inputTokenMint := r.inputTokenMint
  poolInputTokenVault := getAssociatedTokenAddress pool tokenProgram r.inputTokenMint
  poolAvsTokenVault := getAssociatedTokenAddress pool tokenProgram avsTokenMint
  pool := pool
  avsProgram := avsProgram
  tokenProgram := tokenProgram
  associatedTokenProgram := .program .associatedToken
  systemProgram := .program .system

/-- The accounts that a call to an AVS program gets from these lists. -/
def AvsAccounts.derived (inputTokenMint : Pubkey) : AvsAccounts where
  pool := pool
  avs := avs
  avsTokenMint := avsTokenMint
  avsInputTokenVault := getAssociatedTokenAddress avs tokenProgram inputTokenMint
  inputTokenMint := inputTokenMint
  poolInputTokenVault := getAssociatedTokenAddress pool tokenProgram inputTokenMint
  poolAvsTokenVault := getAssociatedTokenAddress pool tokenProgram avsTokenMint
  tokenProgram := tokenProgram
  associatedTokenProgram := .program .associatedToken
  systemProgram := .program .system

end Derived

end AdraLrt
