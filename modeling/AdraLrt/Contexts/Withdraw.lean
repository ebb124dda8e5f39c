import AdraLrt.Anchor

/-!
# The withdraw context

`contexts/withdraw.rs`: burning the signer's output tokens and paying input tokens out of the pool
vault, guarded by the reloaded balance of the vault.
-/

set_option autoImplicit false

namespace AdraLrt

open TokenLedger Checked

/-- The account addresses of a withdrawal, in the order of the struct. -/
structure WithdrawAccounts where
  signer : Pubkey
  inputTokenMint : Pubkey
  signerInputTokenVault : Pubkey
  poolInputTokenVault : Pubkey
  outputTokenMint : Pubkey
  signerOutputTokenVault : Pubkey
  pool : Pubkey
  associatedTokenProgram : Pubkey
  tokenProgram : Pubkey
  systemProgram : Pubkey
deriving DecidableEq, Repr

/-- The deserialized accounts. -/
structure Withdraw where
  signer : Pubkey
  inputTokenMint : Loaded (Mint Pubkey)
  signerInputTokenVault : Loaded (TokenAccount Pubkey)
  poolInputTokenVault : Loaded (TokenAccount Pubkey)
  outputTokenMint : Loaded (Mint Pubkey)
  signerOutputTokenVault : Loaded (TokenAccount Pubkey)
  pool : Loaded LRTPool
  associatedTokenProgram : Pubkey
  tokenProgram : Pubkey
  systemProgram : Pubkey

namespace Withdraw

def tryAccounts (p : Privileges Pubkey) (a : WithdrawAccounts) (s : State) :
    Except ProgramError Withdraw := do
  checkSigner p a.signer
  let inputTokenMint ← loadMint s a.inputTokenMint
  let signerInputTokenVault ← loadToken s a.signerInputTokenVault
  let poolInputTokenVault ← loadToken s a.poolInputTokenVault
  let outputTokenMint ← loadMint s a.outputTokenMint
  let signerOutputTokenVault ← loadToken s a.signerOutputTokenVault
  let pool ← loadPool s a.pool
  checkProgram a.associatedTokenProgram .associatedToken
  checkTokenInterface a.tokenProgram
  checkProgram a.systemProgram .system
  checkMut p a.signer
  checkMut p a.inputTokenMint
  checkAddress a.inputTokenMint pool.account.inputTokenMint
  checkMint inputTokenMint ⟨none, none, none, some a.tokenProgram⟩
  checkAssociatedToken signerInputTokenVault a.inputTokenMint a.signer (some a.tokenProgram)
  checkMut p a.signerInputTokenVault
  checkAssociatedToken poolInputTokenVault a.inputTokenMint a.pool (some a.tokenProgram)
  checkMut p a.poolInputTokenVault
  checkMut p a.outputTokenMint
  checkAddress a.outputTokenMint pool.account.outputTokenMint
  checkMint outputTokenMint
    ⟨some inputTokenMint.account.decimals, some a.pool, some a.pool, some a.tokenProgram⟩
  checkAssociatedToken signerOutputTokenVault a.outputTokenMint a.signer (some a.tokenProgram)
  checkMut p a.signerOutputTokenVault
  checkSeeds a.pool a.outputTokenMint pool.account.bump
  checkMut p a.pool
  checkHasOne pool.account.inputTokenMint a.inputTokenMint
  checkHasOne pool.account.outputTokenMint a.outputTokenMint
  pure ⟨a.signer, inputTokenMint, signerInputTokenVault, poolInputTokenVault, outputTokenMint,
    signerOutputTokenVault, pool, a.associatedTokenProgram, a.tokenProgram, a.systemProgram⟩

/-- Burn the signer's output tokens. -/
def burnOutputToken (cx : Cx) (self : Withdraw) (amount : UInt64) (s : State) :
    Except ProgramError State :=
  tokenCpi cx.priv self.tokenProgram
    (.burn self.signerOutputTokenVault.key self.outputTokenMint.key self.signer amount.toNat) s

/-- Check the reloaded vault and transfer input tokens to the signer. -/
def unstake (cx : Cx) (self : Withdraw) (amount : UInt64) (s : State) :
    Except ProgramError (Withdraw × State) := do
  let poolInputTokenVault ← reloadToken s self.poolInputTokenVault
  let self := { self with poolInputTokenVault := poolInputTokenVault }
  require (amount.toNat ≤ self.poolInputTokenVault.account.amount)
    (.lrt .insufficientStakedSOLFundsForWithdraw)
  let s ← tokenCpi (sign cx.priv (poolAddress self.outputTokenMint.key self.pool.account.bump))
    self.tokenProgram
    (.transfer self.poolInputTokenVault.key self.signerInputTokenVault.key self.pool.key
      amount.toNat (some (self.inputTokenMint.key, self.inputTokenMint.account.decimals))) s
  pure (self, s)

def calculateInputTokenAmount (amount : UInt64) : UInt64 := amount

theorem unstake_eq_ok_iff (cx : Cx) (self self' : Withdraw) (amount : UInt64) (s s' : State) :
    unstake cx self amount s = .ok (self', s') ↔
      ∃ v l, s.ledger.accounts self.poolInputTokenVault.key = some v ∧
        isTokenInterface v.program = true ∧ amount.toNat ≤ v.amount ∧
        exec (sign cx.priv (poolAddress self.outputTokenMint.key self.pool.account.bump))
          self.tokenProgram
          (.transfer self.poolInputTokenVault.key self.signerInputTokenVault.key self.pool.key
            amount.toNat (some (self.inputTokenMint.key, self.inputTokenMint.account.decimals)))
          s.ledger = .ok l ∧
        self' = { self with poolInputTokenVault := ⟨self.poolInputTokenVault.key, v⟩ } ∧
        s' = { s with ledger := l } := by
  simp only [unstake, reloadToken, bind_eq_ok_iff, tokenCpi_eq_ok_iff, loadToken_eq_ok_iff,
    require_eq_ok_iff, pure_eq_ok_iff, Prod.mk.injEq]
  constructor
  · rintro ⟨⟨k, v⟩, ⟨rfl, hv, hvp⟩, _, hle, _, ⟨l, hl, rfl⟩, rfl, rfl⟩
    exact ⟨v, l, hv, hvp, hle, hl, rfl, rfl⟩
  · rintro ⟨v, l, hv, hvp, hle, hl, rfl, rfl⟩
    exact ⟨⟨_, v⟩, ⟨rfl, hv, hvp⟩, (), hle, _, ⟨l, hl, rfl⟩, rfl, rfl⟩

/-- The account list passes the checks of `Withdraw`, with the data that was deserialized. -/
structure Accepted (p : Privileges Pubkey) (a : WithdrawAccounts) (s : State)
    (inputMint : Mint Pubkey) (signerInput poolInput : TokenAccount Pubkey)
    (outputMint : Mint Pubkey) (signerOutput : TokenAccount Pubkey) (r : LRTPool) : Prop where
  signer : p.signer a.signer = true
  signer_mut : p.writable a.signer = true
  pool_mut : p.writable a.pool = true
  inputMint_mut : p.writable a.inputTokenMint = true
  signerInput_mut : p.writable a.signerInputTokenVault = true
  poolInput_mut : p.writable a.poolInputTokenVault = true
  outputMint_mut : p.writable a.outputTokenMint = true
  signerOutput_mut : p.writable a.signerOutputTokenVault = true
  tokenProgram : isTokenInterface a.tokenProgram = true
  associatedTokenProgram : a.associatedTokenProgram = .program .associatedToken
  systemProgram : a.systemProgram = .program .system
  pool_some : s.pools a.pool = some r
  pool_eq : a.pool = poolAddress a.outputTokenMint r.bump
  inputMint_eq : a.inputTokenMint = r.inputTokenMint
  outputMint_eq : a.outputTokenMint = r.outputTokenMint
  inputMint_some : s.ledger.mints a.inputTokenMint = some inputMint
  inputMint_program : inputMint.program = a.tokenProgram
  outputMint_some : s.ledger.mints a.outputTokenMint = some outputMint
  outputMint_program : outputMint.program = a.tokenProgram
  outputMint_authority : outputMint.mintAuthority = some a.pool
  outputMint_freeze : outputMint.freezeAuthority = some a.pool
  outputMint_decimals : outputMint.decimals = inputMint.decimals
  signerInput_some : s.ledger.accounts a.signerInputTokenVault = some signerInput
  signerInput_key : a.signerInputTokenVault =
    getAssociatedTokenAddress a.signer a.tokenProgram a.inputTokenMint
  signerInput_owner : signerInput.owner = a.signer
  signerInput_program : signerInput.program = a.tokenProgram
  poolInput_some : s.ledger.accounts a.poolInputTokenVault = some poolInput
  poolInput_key : a.poolInputTokenVault =
    getAssociatedTokenAddress a.pool a.tokenProgram a.inputTokenMint
  poolInput_owner : poolInput.owner = a.pool
  poolInput_program : poolInput.program = a.tokenProgram
  signerOutput_some : s.ledger.accounts a.signerOutputTokenVault = some signerOutput
  signerOutput_key : a.signerOutputTokenVault =
    getAssociatedTokenAddress a.signer a.tokenProgram a.outputTokenMint
  signerOutput_owner : signerOutput.owner = a.signer
  signerOutput_program : signerOutput.program = a.tokenProgram

theorem tryAccounts_eq_ok_iff (p : Privileges Pubkey) (a : WithdrawAccounts) (s : State)
    (self : Withdraw) :
    tryAccounts p a s = .ok self ↔
      ∃ inputMint signerInput poolInput outputMint signerOutput r,
        Accepted p a s inputMint signerInput poolInput outputMint signerOutput r ∧
        self = ⟨a.signer, ⟨a.inputTokenMint, inputMint⟩, ⟨a.signerInputTokenVault, signerInput⟩,
          ⟨a.poolInputTokenVault, poolInput⟩, ⟨a.outputTokenMint, outputMint⟩,
          ⟨a.signerOutputTokenVault, signerOutput⟩, ⟨a.pool, r⟩, a.associatedTokenProgram,
          a.tokenProgram, a.systemProgram⟩ := by
  simp only [tryAccounts, bind_eq_ok_iff, checkSigner_eq_ok_iff, checkMut_eq_ok_iff,
    checkProgram_eq_ok_iff, checkTokenInterface_eq_ok_iff, loadMint_eq_ok_iff, loadToken_eq_ok_iff,
    loadPool_eq_ok_iff, checkMint_eq_ok_iff, checkAssociatedToken_eq_ok_iff, checkHasOne_eq_ok_iff,
    checkAddress_eq_ok_iff, checkSeeds_eq_ok_iff, pure_eq_ok_iff, asked_none, asked_some, true_and,
    Option.map_some, Option.map_none, Option.getD_some]
  constructor
  · rintro ⟨_, hsig, ⟨_, im⟩, ⟨rfl, him, -⟩, ⟨_, sv⟩, ⟨rfl, hsv, -⟩, ⟨_, pv⟩, ⟨rfl, hpv, -⟩, h⟩
    obtain ⟨⟨_, om⟩, ⟨rfl, hom, -⟩, ⟨_, so⟩, ⟨rfl, hso, -⟩, ⟨_, r⟩, ⟨rfl, hr⟩, h⟩ := h
    obtain ⟨_, hata, _, htp, _, hsys, _, hsm, _, himm, _, himk, _, himp, h⟩ := h
    obtain ⟨_, ⟨hsvp, hsvo, hsvk⟩, _, hsvm, _, ⟨hpvp, hpvo, hpvk⟩, _, hpvm, _, homm, h⟩ := h
    obtain ⟨_, homk, _, ⟨homd, homa, homf, homp⟩, _, ⟨hsop, hsoo, hsok⟩, _, hsom, h⟩ := h
    obtain ⟨_, hseed, _, hpm, _, -, _, -, rfl⟩ := h
    exact ⟨im, sv, pv, om, so, r, ⟨hsig, hsm, hpm, himm, hsvm, hpvm, homm, hsom, htp, hata, hsys,
      hr, hseed, himk, homk, him, himp, hom, homp, homa, homf, homd, hsv, hsvk, hsvo, hsvp, hpv,
      hpvk, hpvo, hpvp, hso, hsok, hsoo, hsop⟩, rfl⟩
  · rintro ⟨im, sv, pv, om, so, r, h, rfl⟩
    have htp := h.tokenProgram
    refine ⟨(), h.signer, ⟨_, im⟩, ⟨rfl, h.inputMint_some, ?_⟩, ⟨_, sv⟩,
      ⟨rfl, h.signerInput_some, ?_⟩, ⟨_, pv⟩, ⟨rfl, h.poolInput_some, ?_⟩, ⟨_, om⟩,
      ⟨rfl, h.outputMint_some, ?_⟩, ⟨_, so⟩, ⟨rfl, h.signerOutput_some, ?_⟩, ⟨_, r⟩,
      ⟨rfl, h.pool_some⟩, (), h.associatedTokenProgram, (), htp, (), h.systemProgram, (),
      h.signer_mut, (), h.inputMint_mut, (), h.inputMint_eq, (), h.inputMint_program, (),
      ⟨h.signerInput_program, h.signerInput_owner, h.signerInput_key⟩, (), h.signerInput_mut, (),
      ⟨h.poolInput_program, h.poolInput_owner, h.poolInput_key⟩, (), h.poolInput_mut, (),
      h.outputMint_mut, (), h.outputMint_eq, (),
      ⟨h.outputMint_decimals, h.outputMint_authority, h.outputMint_freeze, h.outputMint_program⟩,
      (), ⟨h.signerOutput_program, h.signerOutput_owner, h.signerOutput_key⟩, (),
      h.signerOutput_mut, (), h.pool_eq, (), h.pool_mut, (), h.inputMint_eq.symm, (),
      h.outputMint_eq.symm, rfl⟩
    · exact h.inputMint_program ▸ htp
    · exact h.signerInput_program ▸ htp
    · exact h.poolInput_program ▸ htp
    · exact h.outputMint_program ▸ htp
    · exact h.signerOutput_program ▸ htp

end Withdraw

end AdraLrt
