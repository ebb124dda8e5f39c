import AdraLrt.Anchor

/-!
# The deposit context

`contexts/deposit.rs`: the accounts of a deposit with their checks, the transfer of input tokens
into the pool vault, and the minting of output tokens with the limit checked afterwards on the
reloaded supply. The check of the pool vault names no token program, where that of every other
instruction does.
-/

set_option autoImplicit false

namespace AdraLrt

open TokenLedger Checked

/-- The account addresses of a deposit, in the order of the struct. -/
structure DepositAccounts where
  signer : Pubkey
  inputTokenMint : Pubkey
  signerInputTokenVault : Pubkey
  poolInputTokenVault : Pubkey
  outputTokenMint : Pubkey
  signerOutputTokenVault : Pubkey
  pool : Pubkey
  associatedTokenProgram : Pubkey
  tokenProgram : Pubkey
  systemProgram : Pubkey
deriving DecidableEq, Repr

/-- The deserialized accounts. -/
structure Deposit where
  signer : Pubkey
  inputTokenMint : Loaded (Mint Pubkey)
  signerInputTokenVault : Loaded (TokenAccount Pubkey)
  poolInputTokenVault : Loaded (TokenAccount Pubkey)
  outputTokenMint : Loaded (Mint Pubkey)
  signerOutputTokenVault : Loaded (TokenAccount Pubkey)
  pool : Loaded LRTPool
  associatedTokenProgram : Pubkey
  tokenProgram : Pubkey
  systemProgram : Pubkey

namespace Deposit

def tryAccounts (p : Privileges Pubkey) (a : DepositAccounts) (s : State) :
    Except ProgramError (Deposit × State) := do
  checkSigner p a.signer
  let inputTokenMint ← loadMint s a.inputTokenMint
  let signerInputTokenVault ← loadToken s a.signerInputTokenVault
  let poolInputTokenVault ← loadToken s a.poolInputTokenVault
  let outputTokenMint ← loadMint s a.outputTokenMint
  let pool ← loadPool s a.pool
  checkProgram a.associatedTokenProgram .associatedToken
  checkTokenInterface a.tokenProgram
  checkProgram a.systemProgram .system
  -- the missing account is created before any constraint of another field is tested
  let created ← initIfNeeded p a.signer a.signerOutputTokenVault a.outputTokenMint a.signer
    a.tokenProgram s
  checkMut p a.signer
  checkAddress a.inputTokenMint pool.account.inputTokenMint
  checkMint inputTokenMint ⟨none, none, none, some a.tokenProgram⟩
  -- not `mut`, although `stake` transfers from it
  checkAssociatedToken signerInputTokenVault a.inputTokenMint a.signer (some a.tokenProgram)
  -- no token program is named, so the address is the one under the legacy program
  checkAssociatedToken poolInputTokenVault a.inputTokenMint a.pool none
  checkMut p a.poolInputTokenVault
  checkMut p a.outputTokenMint
  checkAddress a.outputTokenMint pool.account.outputTokenMint
  checkMint outputTokenMint
    ⟨some inputTokenMint.account.decimals, some a.pool, some a.pool, some a.tokenProgram⟩
  checkSeeds a.pool a.outputTokenMint pool.account.bump
  checkMut p a.pool
  checkHasOne pool.account.inputTokenMint a.inputTokenMint
  checkHasOne pool.account.outputTokenMint a.outputTokenMint
  pure (⟨a.signer, inputTokenMint, signerInputTokenVault, poolInputTokenVault, outputTokenMint,
    created.1, pool, a.associatedTokenProgram, a.tokenProgram, a.systemProgram⟩, created.2)

/-- Transfer the input tokens from the signer to the pool vault. -/
def stake (cx : Cx) (self : Deposit) (amount : UInt64) (s : State) : Except ProgramError State :=
  tokenCpi cx.priv self.tokenProgram
    (.transfer self.signerInputTokenVault.key self.poolInputTokenVault.key self.signer amount.toNat
      (some (self.inputTokenMint.key, self.inputTokenMint.account.decimals))) s

/-- Mint the output tokens and check the limit on the reloaded supply. -/
def mintOutputToken (cx : Cx) (self : Deposit) (amount : UInt64) (s : State) :
    Except ProgramError (Deposit × State) := do
  let s ← tokenCpi (sign cx.priv (poolAddress self.outputTokenMint.key self.pool.account.bump))
    self.tokenProgram
    (.mintTo self.outputTokenMint.key self.signerOutputTokenVault.key self.pool.key amount.toNat) s
  -- the copy from the validation still has the supply before the minting
  let outputTokenMint ← reloadMint s self.outputTokenMint
  let self := { self with outputTokenMint := outputTokenMint }
  require (self.outputTokenMint.account.supply ≤ self.pool.account.outputMintLimit.toNat)
    (.lrt .outputMintLimitExceeded)
  pure (self, s)

def calculateOutputTokenAmount (_self : Deposit) (amount : UInt64) : UInt64 := amount

theorem mintOutputToken_eq_ok_iff (cx : Cx) (self self' : Deposit) (amount : UInt64)
    (s s' : State) :
    mintOutputToken cx self amount s = .ok (self', s') ↔
      ∃ l m, exec (sign cx.priv (poolAddress self.outputTokenMint.key self.pool.account.bump))
          self.tokenProgram (.mintTo self.outputTokenMint.key self.signerOutputTokenVault.key
            self.pool.key amount.toNat) s.ledger = .ok l ∧
        l.mints self.outputTokenMint.key = some m ∧ isTokenInterface m.program = true ∧
        m.supply ≤ self.pool.account.outputMintLimit.toNat ∧
        self' = { self with outputTokenMint := ⟨self.outputTokenMint.key, m⟩ } ∧
        s' = { s with ledger := l } := by
  simp only [mintOutputToken, reloadMint, bind_eq_ok_iff, tokenCpi_eq_ok_iff, loadMint_eq_ok_iff,
    require_eq_ok_iff, pure_eq_ok_iff, Prod.mk.injEq]
  constructor
  · rintro ⟨_, ⟨l, hl, rfl⟩, ⟨k, m⟩, ⟨rfl, hm, hmp⟩, _, hle, rfl, rfl⟩
    exact ⟨l, m, hl, hm, hmp, hle, rfl, rfl⟩
  · rintro ⟨l, m, hl, hm, hmp, hle, rfl, rfl⟩
    exact ⟨_, ⟨l, hl, rfl⟩, ⟨_, m⟩, ⟨rfl, hm, hmp⟩, (), hle, rfl, rfl⟩

/-- The account list passes the checks of `Deposit`, with the data that was deserialized. -/
structure Accepted (p : Privileges Pubkey) (a : DepositAccounts) (s : State)
    (inputMint : Mint Pubkey) (signerInput poolInput : TokenAccount Pubkey)
    (outputMint : Mint Pubkey) (r : LRTPool) : Prop where
  signer : p.signer a.signer = true
  signer_mut : p.writable a.signer = true
  pool_mut : p.writable a.pool = true
  poolInput_mut : p.writable a.poolInputTokenVault = true
  outputMint_mut : p.writable a.outputTokenMint = true
  tokenProgram : isTokenInterface a.tokenProgram = true
  associatedTokenProgram : a.associatedTokenProgram = .program .associatedToken
  systemProgram : a.systemProgram = .program .system
  pool_some : s.pools a.pool = some r
  pool_eq : a.pool = poolAddress a.outputTokenMint r.bump
  inputMint_eq : a.inputTokenMint = r.inputTokenMint
  outputMint_eq : a.outputTokenMint = r.outputTokenMint
  inputMint_some : s.ledger.mints a.inputTokenMint = some inputMint
  inputMint_program : inputMint.program = a.tokenProgram
  outputMint_some : s.ledger.mints a.outputTokenMint = some outputMint
  outputMint_program : outputMint.program = a.tokenProgram
  outputMint_authority : outputMint.mintAuthority = some a.pool
  outputMint_freeze : outputMint.freezeAuthority = some a.pool
  outputMint_decimals : outputMint.decimals = inputMint.decimals
  signerInput_some : s.ledger.accounts a.signerInputTokenVault = some signerInput
  signerInput_key : a.signerInputTokenVault =
    getAssociatedTokenAddress a.signer a.tokenProgram a.inputTokenMint
  signerInput_owner : signerInput.owner = a.signer
  signerInput_program : signerInput.program = a.tokenProgram
  poolInput_some : s.ledger.accounts a.poolInputTokenVault = some poolInput
  poolInput_key : a.poolInputTokenVault =
    getAssociatedTokenAddress a.pool (.program .token) a.inputTokenMint
  poolInput_owner : poolInput.owner = a.pool
  poolInput_program : isTokenInterface poolInput.program = true

theorem tryAccounts_eq_ok_iff (p : Privileges Pubkey) (a : DepositAccounts) (s s' : State)
    (self : Deposit) :
    tryAccounts p a s = .ok (self, s') ↔
      ∃ inputMint signerInput poolInput outputMint r created,
        Accepted p a s inputMint signerInput poolInput outputMint r ∧
        initIfNeeded p a.signer a.signerOutputTokenVault a.outputTokenMint a.signer
          a.tokenProgram s = .ok (created, s') ∧
        self = ⟨a.signer, ⟨a.inputTokenMint, inputMint⟩, ⟨a.signerInputTokenVault, signerInput⟩,
          ⟨a.poolInputTokenVault, poolInput⟩, ⟨a.outputTokenMint, outputMint⟩, created,
          ⟨a.pool, r⟩, a.associatedTokenProgram, a.tokenProgram, a.systemProgram⟩ := by
  simp only [tryAccounts, bind_eq_ok_iff, checkSigner_eq_ok_iff, checkMut_eq_ok_iff,
    checkProgram_eq_ok_iff, checkTokenInterface_eq_ok_iff, loadMint_eq_ok_iff, loadToken_eq_ok_iff,
    loadPool_eq_ok_iff, checkMint_eq_ok_iff, checkAssociatedToken_eq_ok_iff, checkHasOne_eq_ok_iff,
    checkAddress_eq_ok_iff, checkSeeds_eq_ok_iff, pure_eq_ok_iff, asked_none, asked_some, true_and,
    Option.map_some, Option.map_none, Option.getD_some, Option.getD_none, Prod.mk.injEq]
  constructor
  · rintro ⟨_, hsig, ⟨_, im⟩, ⟨rfl, him, -⟩, ⟨_, sv⟩, ⟨rfl, hsv, -⟩, ⟨_, pv⟩, ⟨rfl, hpv, hpvp⟩, h⟩
    obtain ⟨⟨_, om⟩, ⟨rfl, hom, -⟩, ⟨_, r⟩, ⟨rfl, hr⟩, _, hata, _, htp, _, hsys, h⟩ := h
    obtain ⟨created, hcr, _, hsm, _, himk, _, himp, _, ⟨hsvp, hsvo, hsvk⟩, h⟩ := h
    obtain ⟨_, ⟨hpvo, hpvk⟩, _, hpvm, _, homm, _, homk, _, ⟨homd, homa, homf, homp⟩, h⟩ := h
    obtain ⟨_, hseed, _, hpm, _, -, _, -, rfl, rfl⟩ := h
    refine ⟨im, sv, pv, om, r, created.1, ?_, hcr, rfl⟩
    exact ⟨hsig, hsm, hpm, hpvm, homm, htp, hata, hsys, hr, hseed, himk, homk, him, himp, hom, homp,
      homa, homf, homd, hsv, hsvk, hsvo, hsvp, hpv, hpvk, hpvo, hpvp⟩
  · rintro ⟨im, sv, pv, om, r, created, h, hcr, rfl⟩
    have htp := h.tokenProgram
    refine ⟨(), h.signer, ⟨_, im⟩, ⟨rfl, h.inputMint_some, ?_⟩, ⟨_, sv⟩,
      ⟨rfl, h.signerInput_some, ?_⟩, ⟨_, pv⟩, ⟨rfl, h.poolInput_some, h.poolInput_program⟩, ⟨_, om⟩,
      ⟨rfl, h.outputMint_some, ?_⟩, ⟨_, r⟩, ⟨rfl, h.pool_some⟩, (), h.associatedTokenProgram, (),
      htp, (), h.systemProgram, _, hcr, (), h.signer_mut, (), h.inputMint_eq, (),
      h.inputMint_program, (), ⟨h.signerInput_program, h.signerInput_owner, h.signerInput_key⟩, (),
      ⟨h.poolInput_owner, h.poolInput_key⟩, (), h.poolInput_mut, (), h.outputMint_mut, (),
      h.outputMint_eq, (),
      ⟨h.outputMint_decimals, h.outputMint_authority, h.outputMint_freeze, h.outputMint_program⟩,
      (), h.pool_eq, (), h.pool_mut, (), h.inputMint_eq.symm, (), h.outputMint_eq.symm, rfl, rfl⟩
    · exact h.inputMint_program ▸ htp
    · exact h.signerInput_program ▸ htp
    · exact h.outputMint_program ▸ htp

end Deposit

end AdraLrt
