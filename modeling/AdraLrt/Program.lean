import AdraLrt.Contexts.Deposit
import AdraLrt.Contexts.Withdraw
import AdraLrt.Contexts.WithdrawStake
import AdraLrt.Contexts.Delegate
import AdraLrt.Contexts.Initialize
import AdraLrt.Contexts.Authority

/-!
# The program

The eight instruction handlers of `lib.rs`, each between the account checks and the write-back of
the pool record, and the dispatch from an instruction to its handler. The success lemma of a handler
lists the accepted accounts, the token-program calls in their order with the ledgers between them,
and the resulting state; nothing after this module unfolds a handler.
-/

set_option autoImplicit false

namespace AdraLrt

open TokenLedger Checked

/-! ## Handlers -/

/-- `initialize`. -/
def initializePool (cx : Cx) (a : InitializeAccounts) (limit : UInt64) (s : State) :
    Except ProgramError State := do
  let (self, bump) ← Initialize.tryAccounts cx a s
  pure (exit (self.initializePool bump limit) s)

def deposit (cx : Cx) (a : DepositAccounts) (amount : UInt64) (s : State) :
    Except ProgramError State := do
  let (self, s) ← Deposit.tryAccounts cx.priv a s
  let s ← self.stake cx amount s
  let mintAmount := self.calculateOutputTokenAmount amount
  let (self, s) ← self.mintOutputToken cx mintAmount s
  pure (exit self.pool s)

/-- `withdraw` with the conversion of `calculate_input_token_amount` as a parameter. -/
def withdrawWith (convert : UInt64 → UInt64) (cx : Cx) (a : WithdrawAccounts) (amount : UInt64)
    (s : State) : Except ProgramError State := do
  let self ← Withdraw.tryAccounts cx.priv a s
  let s ← self.burnOutputToken cx amount s
  let withdrawAmount := convert amount
  let (self, s) ← self.unstake cx withdrawAmount s
  pure (exit self.pool s)

def withdraw : Cx → WithdrawAccounts → UInt64 → State → Except ProgramError State :=
  withdrawWith Withdraw.calculateInputTokenAmount

/-- `withdraw_delegated_stake` with the conversion of `calculate_input_token_amount` as a parameter;
the handler applies it once and `unstake` once more. -/
def withdrawDelegatedStakeWith (convert : UInt64 → UInt64) (cx : Cx) (a : WithdrawStakeAccounts)
    (amount : UInt64) (s : State) : Except ProgramError State := do
  let (self, s) ← WithdrawStake.tryAccounts cx.priv a s
  let s ← self.burnOutputToken cx amount s
  let withdrawAmount := convert amount
  let (self, s) ← self.undelegate cx withdrawAmount s
  -- the guard of `unstake` gets the converted amount
  let (self, s) ← self.unstakeWith convert cx withdrawAmount s
  pure (exit self.pool s)

def withdrawDelegatedStake : Cx → WithdrawStakeAccounts → UInt64 → State →
    Except ProgramError State :=
  withdrawDelegatedStakeWith WithdrawStake.calculateInputTokenAmount

def transferDelegateAuthority (cx : Cx) (a : TransferDelegateAuthorityAccounts) (s : State) :
    Except ProgramError State := do
  let self ← TransferDelegateAuthority.tryAccounts cx.priv a s
  pure (exit self.transferAuthority.pool s)

def delegate (cx : Cx) (a : DelegateAccounts) (amount : UInt64) (s : State) :
    Except ProgramError State := do
  let (self, s) ← Delegate.tryAccounts cx.priv a s
  let (self, s) ← self.delegate cx amount s
  pure (exit self.pool s)

def undelegate (cx : Cx) (a : DelegateAccounts) (amount : UInt64) (s : State) :
    Except ProgramError State := do
  let (self, s) ← Delegate.tryAccounts cx.priv a s
  let (self, s) ← self.undelegate cx amount s
  pure (exit self.pool s)

def updateMintLimit (cx : Cx) (a : UpdateMintLimitAccounts) (limit : UInt64) (s : State) :
    Except ProgramError State := do
  let self ← UpdateMintLimit.tryAccounts cx.priv a s
  pure (exit (self.updateMintLimit limit).pool s)

/-! ## Dispatch -/

/-- An instruction of the program with its accounts and argument. -/
inductive Call where
  | initializePool (a : InitializeAccounts) (limit : UInt64)
  | deposit (a : DepositAccounts) (amount : UInt64)
  | withdraw (a : WithdrawAccounts) (amount : UInt64)
  | withdrawDelegatedStake (a : WithdrawStakeAccounts) (amount : UInt64)
  | transferDelegateAuthority (a : TransferDelegateAuthorityAccounts)
  | delegate (a : DelegateAccounts) (amount : UInt64)
  | undelegate (a : DelegateAccounts) (amount : UInt64)
  | updateMintLimit (a : UpdateMintLimitAccounts) (limit : UInt64)
deriving DecidableEq, Repr

namespace Call

/-- The account in the `pool` position. -/
def pool : Call → Pubkey
  | initializePool a _ => a.pool
  | deposit a _ => a.pool
  | withdraw a _ => a.pool
  | withdrawDelegatedStake a _ => a.pool
  | transferDelegateAuthority a => a.pool
  | delegate a _ => a.pool
  | undelegate a _ => a.pool
  | updateMintLimit a _ => a.pool

/-- Match the account list with the accounts struct of the instruction. Accounts beyond it are
ignored; too few are an error. -/
def parse (name : InstructionName) (accounts : List Pubkey) (amount : UInt64) :
    Except ProgramError Call :=
  match name, accounts with
  | .initializePool, k₁ :: k₂ :: k₃ :: k₄ :: k₅ :: k₆ :: k₇ :: k₈ :: k₉ :: _ =>
      .ok (.initializePool ⟨k₁, k₂, k₃, k₄, k₅, k₆, k₇, k₈, k₉⟩ amount)
  | .deposit, k₁ :: k₂ :: k₃ :: k₄ :: k₅ :: k₆ :: k₇ :: k₈ :: k₉ :: k₁₀ :: _ =>
      .ok (.deposit ⟨k₁, k₂, k₃, k₄, k₅, k₆, k₇, k₈, k₉, k₁₀⟩ amount)
  | .withdraw, k₁ :: k₂ :: k₃ :: k₄ :: k₅ :: k₆ :: k₇ :: k₈ :: k₉ :: k₁₀ :: _ =>
      .ok (.withdraw ⟨k₁, k₂, k₃, k₄, k₅, k₆, k₇, k₈, k₉, k₁₀⟩ amount)
  | .withdrawDelegatedStake, k₁ :: k₂ :: k₃ :: k₄ :: k₅ :: k₆ :: k₇ :: k₈ :: k₉ :: k₁₀ :: k₁₁ ::
      k₁₂ :: k₁₃ :: k₁₄ :: k₁₅ :: _ =>
      .ok (.withdrawDelegatedStake
        ⟨k₁, k₂, k₃, k₄, k₅, k₆, k₇, k₈, k₉, k₁₀, k₁₁, k₁₂, k₁₃, k₁₄, k₁₅⟩ amount)
  | .transferDelegateAuthority, k₁ :: k₂ :: k₃ :: _ =>
      .ok (.transferDelegateAuthority ⟨k₁, k₂, k₃⟩)
  | .delegate, k₁ :: k₂ :: k₃ :: k₄ :: k₅ :: k₆ :: k₇ :: k₈ :: k₉ :: k₁₀ :: k₁₁ :: k₁₂ :: _ =>
      .ok (.delegate ⟨k₁, k₂, k₃, k₄, k₅, k₆, k₇, k₈, k₉, k₁₀, k₁₁, k₁₂⟩ amount)
  | .undelegate, k₁ :: k₂ :: k₃ :: k₄ :: k₅ :: k₆ :: k₇ :: k₈ :: k₉ :: k₁₀ :: k₁₁ :: k₁₂ :: _ =>
      .ok (.undelegate ⟨k₁, k₂, k₃, k₄, k₅, k₆, k₇, k₈, k₉, k₁₀, k₁₁, k₁₂⟩ amount)
  | .updateMintLimit, k₁ :: k₂ :: _ => .ok (.updateMintLimit ⟨k₁, k₂⟩ amount)
  | _, _ => .error (.anchor .accountNotEnoughKeys)

/-- Run the handler. -/
def run (cx : Cx) : Call → State → Except ProgramError State
  | initializePool a limit => AdraLrt.initializePool cx a limit
  | deposit a amount => AdraLrt.deposit cx a amount
  | withdraw a amount => AdraLrt.withdraw cx a amount
  | withdrawDelegatedStake a amount => AdraLrt.withdrawDelegatedStake cx a amount
  | transferDelegateAuthority a => AdraLrt.transferDelegateAuthority cx a
  | delegate a amount => AdraLrt.delegate cx a amount
  | undelegate a amount => AdraLrt.undelegate cx a amount
  | updateMintLimit a limit => AdraLrt.updateMintLimit cx a limit

end Call

/-- The types of the fields of each accounts struct. -/
def InstructionName.fields : InstructionName → List FieldType
  | initializePool =>
      [.signer, .accountInfo, .mint, .tokenAccount, .mint, .accountInfo, .program .associatedToken,
        .tokenInterface, .program .system]
  | deposit =>
      [.signer, .mint, .tokenAccount, .tokenAccount, .mint, .accountInfo, .pool,
        .program .associatedToken, .tokenInterface, .program .system]
  | withdraw =>
      [.signer, .mint, .tokenAccount, .tokenAccount, .mint, .tokenAccount, .pool,
        .program .associatedToken, .tokenInterface, .program .system]
  | withdrawDelegatedStake =>
      [.signer, .mint, .accountInfo, .tokenAccount, .mint, .tokenAccount, .pool, .accountInfo,
        .mint, .tokenAccount, .tokenAccount, .accountInfo, .program .associatedToken,
        .tokenInterface, .program .system]
  | transferDelegateAuthority => [.signer, .pool, .accountInfo]
  | delegate =>
      [.signer, .accountInfo, .mint, .tokenAccount, .mint, .tokenAccount, .accountInfo, .pool,
        .accountInfo, .tokenInterface, .program .associatedToken, .program .system]
  | undelegate =>
      [.signer, .accountInfo, .mint, .tokenAccount, .mint, .tokenAccount, .accountInfo, .pool,
        .accountInfo, .tokenInterface, .program .associatedToken, .program .system]
  | updateMintLimit => [.signer, .pool]

/-- The only error of the matching. -/
theorem Call.parse_error {name : InstructionName} {accounts : List Pubkey} {amount : UInt64}
    {e : ProgramError} (h : Call.parse name accounts amount = .error e) :
    e = .anchor .accountNotEnoughKeys := by
  unfold Call.parse at h
  split at h <;> cases h
  rfl

/-- What matches has an account for each field. -/
theorem Call.fields_length_le {name : InstructionName} {accounts : List Pubkey} {amount : UInt64}
    {c : Call} (h : Call.parse name accounts amount = .ok c) :
    name.fields.length ≤ accounts.length := by
  unfold Call.parse at h
  split at h <;> first | cases h; done | simp [InstructionName.fields]

/-- Run the handler on the accounts. -/
def handle (cx : Cx) (name : InstructionName) (accounts : List Pubkey) (amount : UInt64)
    (s : State) : Except ProgramError State :=
  match Call.parse name accounts amount with
  | .ok call => call.run cx s
  -- a missing account is noticed after the fields before it have been deserialized
  | .error e => do
    deserialize cx.priv s name.fields accounts
    .error e

/-- The entry point. -/
def processInstruction (cx : Cx) (ix : Instruction) (s : State) : Except ProgramError State :=
  handle cx ix.discriminator.name (ix.accounts.map (·.pubkey)) ix.amount s

/-- Only a list with an account for each field gets to the handler. -/
theorem handle_eq_ok_iff {cx : Cx} {name : InstructionName} {accounts : List Pubkey}
    {amount : UInt64} {s s' : State} :
    handle cx name accounts amount s = .ok s' ↔
      ∃ call, Call.parse name accounts amount = .ok call ∧ call.run cx s = .ok s' := by
  unfold handle
  cases Call.parse name accounts amount with
  | ok call => simp
  | error e => simp [bind_eq_ok_iff]

/-- On a list that is too short the error is the one of the deserialization. -/
theorem handle_of_short (cx : Cx) {name : InstructionName} {accounts : List Pubkey}
    (amount : UInt64) (s : State) (h : accounts.length < name.fields.length) :
    ∃ e, deserialize cx.priv s name.fields accounts = .error e ∧
      handle cx name accounts amount s = .error e := by
  obtain ⟨e, he⟩ := deserialize_of_short cx.priv s h
  refine ⟨e, he, ?_⟩
  have hparse : Call.parse name accounts amount = .error (.anchor .accountNotEnoughKeys) := by
    cases hp : Call.parse name accounts amount with
    | error e' => exact congrArg _ (Call.parse_error hp)
    | ok call => exact absurd h (Nat.not_lt.2 (Call.fields_length_le hp))
  rw [handle, hparse]
  simp only [he]
  rfl

/-- A call that hands over the accounts of an AVS call to this program itself is rejected:
`Delegate` has twelve accounts and gets ten. -/
theorem processInstruction_avsInstruction (cx : Cx) (k : Pubkey) (name : InstructionName)
    (hname : name = .delegate ∨ name = .undelegate) (x : AvsAccounts) (amount : UInt64)
    (s s' : State) :
    processInstruction cx (avsInstruction k name x amount) s ≠ .ok s' := by
  intro h
  obtain ⟨call, hparse, -⟩ := handle_eq_ok_iff.1 h
  rcases hname with rfl | rfl
  · cases hparse
  · cases hparse

/-! ## Success of the handlers -/

section Success

variable (cx : Cx) (s s' : State)

theorem initializePool_eq_ok_iff (a : InitializeAccounts) (limit : UInt64) :
    initializePool cx a limit s = .ok s' ↔
      ∃ inputMint poolInput outputMint,
        Initialize.Accepted cx a s inputMint poolInput outputMint ∧
        s' = s.setPool a.pool ⟨cx.findBump a.outputTokenMint, a.inputTokenMint, a.outputTokenMint,
          a.delegateAuthority, limit⟩ := by
  simp only [initializePool, bind_eq_ok_iff, Prod.exists, Initialize.tryAccounts_eq_ok_iff,
    pure_eq_ok_iff]
  constructor
  · rintro ⟨self, bump, ⟨im, pv, om, h, rfl, rfl⟩, rfl⟩
    exact ⟨im, pv, om, h, rfl⟩
  · rintro ⟨im, pv, om, h, rfl⟩
    exact ⟨_, _, ⟨im, pv, om, h, rfl, rfl⟩, rfl⟩

theorem deposit_eq_ok_iff (a : DepositAccounts) (amount : UInt64) :
    deposit cx a amount s = .ok s' ↔
      ∃ inputMint signerInput poolInput outputMint r created s₀ l₁ l₂ m,
        Deposit.Accepted cx.priv a s inputMint signerInput poolInput outputMint r ∧
        initIfNeeded cx.priv a.signer a.signerOutputTokenVault a.outputTokenMint a.signer
          a.tokenProgram s =
          .ok (created, s₀) ∧
        exec cx.priv a.tokenProgram (.transfer a.signerInputTokenVault a.poolInputTokenVault
          a.signer amount.toNat (some (a.inputTokenMint, inputMint.decimals))) s₀.ledger = .ok l₁ ∧
        exec (sign cx.priv a.pool) a.tokenProgram
          (.mintTo a.outputTokenMint a.signerOutputTokenVault a.pool amount.toNat) l₁ = .ok l₂ ∧
        l₂.mints a.outputTokenMint = some m ∧ isTokenInterface m.program = true ∧
        m.supply ≤ r.outputMintLimit.toNat ∧ s' = { s with ledger := l₂ } := by
  simp only [deposit, bind_eq_ok_iff, Prod.exists, Deposit.tryAccounts_eq_ok_iff, Deposit.stake,
    Deposit.mintOutputToken_eq_ok_iff, Deposit.calculateOutputTokenAmount, tokenCpi_eq_ok_iff,
    pure_eq_ok_iff]
  constructor
  · rintro ⟨self, s₀, ⟨im, sv, pv, om, r, created, h, hcr, rfl⟩, s₁, ⟨l₁, hl₁, rfl⟩, h'⟩
    obtain ⟨self', s₂, ⟨l₂, m, hl₂, hm, hmp, hle, rfl, rfl⟩, rfl⟩ := h'
    -- the seeds that the handler signs with give the address of the pool
    rw [initIfNeeded_key hcr, ← h.pool_eq] at hl₂
    have hpools := initIfNeeded_pools hcr
    exact ⟨im, sv, pv, om, r, created, s₀, l₁, l₂, m, h, hcr, hl₁, hl₂, hm, hmp, hle,
      exit_eq l₂ h.pool_some hpools⟩
  · rintro ⟨im, sv, pv, om, r, created, s₀, l₁, l₂, m, h, hcr, hl₁, hl₂, hm, hmp, hle, rfl⟩
    have hpools := initIfNeeded_pools hcr
    refine ⟨_, s₀, ⟨im, sv, pv, om, r, created, h, hcr, rfl⟩, _, ⟨l₁, hl₁, rfl⟩, _, _,
      ⟨l₂, m, ?_, hm, hmp, hle, rfl, rfl⟩,
      exit_eq l₂ h.pool_some hpools⟩
    rw [initIfNeeded_key hcr, ← h.pool_eq]
    exact hl₂

theorem withdrawWith_eq_ok_iff (convert : UInt64 → UInt64) (a : WithdrawAccounts)
    (amount : UInt64) :
    withdrawWith convert cx a amount s = .ok s' ↔
      ∃ inputMint signerInput poolInput outputMint signerOutput r l₁ v l₂,
        Withdraw.Accepted cx.priv a s inputMint signerInput poolInput outputMint signerOutput r ∧
        exec cx.priv a.tokenProgram
          (.burn a.signerOutputTokenVault a.outputTokenMint a.signer amount.toNat) s.ledger =
          .ok l₁ ∧
        l₁.accounts a.poolInputTokenVault = some v ∧ isTokenInterface v.program = true ∧
        (convert amount).toNat ≤ v.amount ∧
        exec (sign cx.priv a.pool) a.tokenProgram
          (.transfer a.poolInputTokenVault a.signerInputTokenVault a.pool (convert amount).toNat
            (some (a.inputTokenMint, inputMint.decimals))) l₁ = .ok l₂ ∧
        s' = { s with ledger := l₂ } := by
  simp only [withdrawWith, bind_eq_ok_iff, Prod.exists, Withdraw.tryAccounts_eq_ok_iff,
    Withdraw.burnOutputToken, Withdraw.unstake_eq_ok_iff, tokenCpi_eq_ok_iff, pure_eq_ok_iff]
  constructor
  · rintro ⟨self, ⟨im, sv, pv, om, so, r, h, rfl⟩, s₁, ⟨l₁, hl₁, rfl⟩, h'⟩
    obtain ⟨self', s₂, ⟨v, l₂, hv, hvp, hle, hl₂, rfl, rfl⟩, rfl⟩ := h'
    rw [← h.pool_eq] at hl₂
    exact ⟨im, sv, pv, om, so, r, l₁, v, l₂, h, hl₁, hv, hvp, hle, hl₂,
      exit_eq l₂ h.pool_some rfl⟩
  · rintro ⟨im, sv, pv, om, so, r, l₁, v, l₂, h, hl₁, hv, hvp, hle, hl₂, rfl⟩
    refine ⟨_, ⟨im, sv, pv, om, so, r, h, rfl⟩, _, ⟨l₁, hl₁, rfl⟩, _, _,
      ⟨v, l₂, hv, hvp, hle, ?_, rfl, rfl⟩, exit_eq l₂ h.pool_some rfl⟩
    rw [← h.pool_eq]
    exact hl₂

theorem withdrawDelegatedStakeWith_eq_ok_iff (convert : UInt64 → UInt64)
    (a : WithdrawStakeAccounts) (amount : UInt64) :
    withdrawDelegatedStakeWith convert cx a amount s = .ok s' ↔
      ∃ inputMint poolInput outputMint signerOutput r avsMint avsInput poolAvs created s₀ l₁ w s₂ v
        l₃,
        WithdrawStake.Accepted cx.priv a s inputMint poolInput outputMint signerOutput r avsMint
          avsInput poolAvs ∧
        initIfNeeded cx.priv a.signer a.signerInputTokenVault a.inputTokenMint a.signer
          a.tokenProgram s =
          .ok (created, s₀) ∧
        exec cx.priv a.tokenProgram
          (.burn a.signerOutputTokenVault a.outputTokenMint a.signer amount.toNat) s₀.ledger =
          .ok l₁ ∧
        l₁.accounts a.poolAvsTokenVault = some w ∧ isTokenInterface w.program = true ∧
        (convert amount).toNat ≤ w.amount ∧
        cx.invoke (sign cx.priv a.pool)
          (avsInstruction a.avsProgram .undelegate a.avsAccounts (convert amount))
          { s with ledger := l₁ } = .ok s₂ ∧
        s₂.ledger.accounts a.poolInputTokenVault = some v ∧ isTokenInterface v.program = true ∧
        (convert amount).toNat ≤ v.amount ∧
        exec (sign cx.priv a.pool) a.tokenProgram
          (.transfer a.poolInputTokenVault a.signerInputTokenVault a.pool
            (convert (convert amount)).toNat (some (a.inputTokenMint, inputMint.decimals)))
          s₂.ledger = .ok l₃ ∧
        s' = { s₂ with ledger := l₃ }.setPool a.pool r := by
  simp only [withdrawDelegatedStakeWith, bind_eq_ok_iff, Prod.exists,
    WithdrawStake.tryAccounts_eq_ok_iff, WithdrawStake.burnOutputToken,
    WithdrawStake.undelegate_eq_ok_iff, WithdrawStake.unstakeWith_eq_ok_iff, tokenCpi_eq_ok_iff,
    pure_eq_ok_iff]
  constructor
  · rintro ⟨self, s₀, ⟨im, pv, om, so, r, am, av, pa, created, h, hcr, rfl⟩, s₁, ⟨l₁, hl₁, rfl⟩, h'⟩
    obtain ⟨self', s₂, ⟨w, hw, hwp, hlew, hs₂, rfl⟩, h'⟩ := h'
    obtain ⟨self', s₃, ⟨v, l₃, hv, hvp, hle, hl₃, rfl, rfl⟩, rfl⟩ := h'
    have hkey := initIfNeeded_key hcr
    have hs₁ : ({ s₀ with ledger := l₁ } : State) = { s with ledger := l₁ } := by
      simp only [initIfNeeded_pools hcr]
    rw [← h.pool_eq] at hl₃ hs₂
    rw [hs₁] at hs₂
    rw [hkey] at hl₃
    exact ⟨im, pv, om, so, r, am, av, pa, created, s₀, l₁, w, s₂, v, l₃, h, hcr, hl₁, hw, hwp, hlew,
      hs₂, hv, hvp, hle, hl₃, rfl⟩
  · rintro ⟨im, pv, om, so, r, am, av, pa, created, s₀, l₁, w, s₂, v, l₃, h, hcr, hl₁, h'⟩
    obtain ⟨hw, hwp, hlew, hs₂, hv, hvp, hle, hl₃, rfl⟩ := h'
    have hkey := initIfNeeded_key hcr
    have hs₁ : ({ s₀ with ledger := l₁ } : State) = { s with ledger := l₁ } := by
      simp only [initIfNeeded_pools hcr]
    refine ⟨_, s₀, ⟨im, pv, om, so, r, am, av, pa, created, h, hcr, rfl⟩, _, ⟨l₁, hl₁, rfl⟩, _, s₂,
      ⟨w, hw, hwp, hlew, ?_, rfl⟩, _, _, ⟨v, l₃, hv, hvp, hle, ?_, rfl, rfl⟩, rfl⟩
    · rw [← h.pool_eq, hs₁]
      exact hs₂
    · rw [← h.pool_eq, hkey]
      exact hl₃

theorem delegate_eq_ok_iff (a : DelegateAccounts) (amount : UInt64) :
    delegate cx a amount s = .ok s' ↔
      ∃ avsMint avsInput inputMint poolInput r created s₀ s₁,
        Delegate.Accepted cx.priv a s avsMint avsInput inputMint poolInput r ∧
        initIfNeeded cx.priv a.signer a.poolAvsTokenVault a.avsTokenMint a.pool a.tokenProgram s =
          .ok (created, s₀) ∧
        amount.toNat ≤ poolInput.amount ∧
        cx.invoke (sign cx.priv a.pool)
          (avsInstruction a.avsProgram .delegate a.avsAccounts amount) s₀ = .ok s₁ ∧
        s' = s₁.setPool a.pool r := by
  simp only [delegate, bind_eq_ok_iff, Prod.exists, Delegate.tryAccounts_eq_ok_iff,
    Delegate.delegate_eq_ok_iff, pure_eq_ok_iff]
  constructor
  · rintro ⟨self, s₀, ⟨am, av, im, pv, r, created, h, hcr, rfl⟩, self', s₁,
      ⟨v, hv, hvp, hle, hs₁, rfl⟩, rfl⟩
    -- nothing has happened to the vault since it was deserialized
    obtain rfl : pv = v :=
      Option.some.inj ((initIfNeeded_account_of_some hcr h.poolInput_some).symm.trans hv)
    obtain ⟨k, w⟩ := created
    obtain rfl : k = a.poolAvsTokenVault := initIfNeeded_key hcr
    rw [← h.pool_eq] at hs₁
    exact ⟨am, av, im, pv, r, _, s₀, s₁, h, hcr, hle, hs₁, rfl⟩
  · rintro ⟨am, av, im, pv, r, created, s₀, s₁, h, hcr, hle, hs₁, rfl⟩
    obtain ⟨k, w⟩ := created
    obtain rfl : k = a.poolAvsTokenVault := initIfNeeded_key hcr
    refine ⟨_, s₀, ⟨am, av, im, pv, r, _, h, hcr, rfl⟩, _, s₁,
      ⟨pv, initIfNeeded_account_of_some hcr h.poolInput_some, ?_, hle, ?_, rfl⟩, rfl⟩
    · exact h.poolInput_program ▸ h.tokenProgram
    · rw [← h.pool_eq]
      exact hs₁

theorem undelegate_eq_ok_iff (a : DelegateAccounts) (amount : UInt64) :
    undelegate cx a amount s = .ok s' ↔
      ∃ avsMint avsInput inputMint poolInput r created s₀ s₁,
        Delegate.Accepted cx.priv a s avsMint avsInput inputMint poolInput r ∧
        initIfNeeded cx.priv a.signer a.poolAvsTokenVault a.avsTokenMint a.pool a.tokenProgram s =
          .ok (created, s₀) ∧
        amount.toNat ≤ created.account.amount ∧
        cx.invoke (sign cx.priv a.pool)
          (avsInstruction a.avsProgram .undelegate a.avsAccounts amount) s₀ = .ok s₁ ∧
        s' = s₁.setPool a.pool r := by
  simp only [undelegate, bind_eq_ok_iff, Prod.exists, Delegate.tryAccounts_eq_ok_iff,
    Delegate.undelegate_eq_ok_iff, pure_eq_ok_iff]
  constructor
  · rintro ⟨self, s₀, ⟨am, av, im, pv, r, created, h, hcr, rfl⟩, self', s₁,
      ⟨w, hw, hwp, hle, hs₁, rfl⟩, rfl⟩
    obtain ⟨k, w'⟩ := created
    obtain rfl : k = a.poolAvsTokenVault := initIfNeeded_key hcr
    obtain rfl : w' = w := Option.some.inj ((initIfNeeded_account hcr).symm.trans hw)
    rw [← h.pool_eq] at hs₁
    exact ⟨am, av, im, pv, r, _, s₀, s₁, h, hcr, hle, hs₁, rfl⟩
  · rintro ⟨am, av, im, pv, r, created, s₀, s₁, h, hcr, hle, hs₁, rfl⟩
    obtain ⟨k, w⟩ := created
    obtain rfl : k = a.poolAvsTokenVault := initIfNeeded_key hcr
    refine ⟨_, s₀, ⟨am, av, im, pv, r, _, h, hcr, rfl⟩, _, s₁,
      ⟨w, initIfNeeded_account hcr, ?_, hle, ?_, rfl⟩, rfl⟩
    · exact initIfNeeded_program hcr ▸ h.tokenProgram
    · rw [← h.pool_eq]
      exact hs₁

theorem transferDelegateAuthority_eq_ok_iff (a : TransferDelegateAuthorityAccounts) :
    transferDelegateAuthority cx a s = .ok s' ↔
      ∃ r, cx.priv.signer a.authority = true ∧ cx.priv.writable a.authority = true ∧
        cx.priv.writable a.pool = true ∧ s.pools a.pool = some r ∧
        a.pool = poolAddress r.outputTokenMint r.bump ∧ r.delegateAuthority = a.authority ∧
        s' = s.setPool a.pool { r with delegateAuthority := a.newAuthority } := by
  simp only [transferDelegateAuthority, TransferDelegateAuthority.tryAccounts, bind_eq_ok_iff,
    loadOwnPool_eq_ok_iff, pure_eq_ok_iff]
  constructor
  · rintro ⟨_, ⟨⟨k, r⟩, ⟨hsig, ham, hpm, hr, rfl, hseed, hauth⟩, rfl⟩, rfl⟩
    exact ⟨r, hsig, ham, hpm, hr, hseed, hauth, rfl⟩
  · rintro ⟨r, hsig, ham, hpm, hr, hseed, hauth, rfl⟩
    exact ⟨_, ⟨⟨a.pool, r⟩, ⟨hsig, ham, hpm, hr, rfl, hseed, hauth⟩, rfl⟩, rfl⟩

theorem updateMintLimit_eq_ok_iff (a : UpdateMintLimitAccounts) (limit : UInt64) :
    updateMintLimit cx a limit s = .ok s' ↔
      ∃ r, cx.priv.signer a.authority = true ∧ cx.priv.writable a.authority = true ∧
        cx.priv.writable a.pool = true ∧ s.pools a.pool = some r ∧
        a.pool = poolAddress r.outputTokenMint r.bump ∧ r.delegateAuthority = a.authority ∧
        s' = s.setPool a.pool { r with outputMintLimit := limit } := by
  simp only [updateMintLimit, UpdateMintLimit.tryAccounts, bind_eq_ok_iff, loadOwnPool_eq_ok_iff,
    pure_eq_ok_iff]
  constructor
  · rintro ⟨_, ⟨⟨k, r⟩, ⟨hsig, ham, hpm, hr, rfl, hseed, hauth⟩, rfl⟩, rfl⟩
    exact ⟨r, hsig, ham, hpm, hr, hseed, hauth, rfl⟩
  · rintro ⟨r, hsig, ham, hpm, hr, hseed, hauth, rfl⟩
    exact ⟨_, ⟨⟨a.pool, r⟩, ⟨hsig, ham, hpm, hr, rfl, hseed, hauth⟩, rfl⟩, rfl⟩

end Success

end AdraLrt
