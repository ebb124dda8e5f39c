import AdraLrt.Anchor

/-!
# The withdraw-stake context

`contexts/withdraw_stake.rs`: burning the signer's output tokens, undelegating at an AVS, and paying
the input tokens out of the pool vault. The AVS account, its token mint and its program are chosen
by the signer; the checks tie them to each other only.

`calculate_input_token_amount` is applied in the handler and again inside `unstake`, so `unstake`
takes the conversion as a parameter (`unstakeWith`).
-/

set_option autoImplicit false

namespace AdraLrt

open TokenLedger Checked

/-- The account addresses of a forced exit, in the order of the struct. -/
structure WithdrawStakeAccounts where
  signer : Pubkey
  inputTokenMint : Pubkey
  signerInputTokenVault : Pubkey
  poolInputTokenVault : Pubkey
  outputTokenMint : Pubkey
  signerOutputTokenVault : Pubkey
  pool : Pubkey
  avs : Pubkey
  avsTokenMint : Pubkey
  avsInputTokenVault : Pubkey
  poolAvsTokenVault : Pubkey
  avsProgram : Pubkey
  associatedTokenProgram : Pubkey
  tokenProgram : Pubkey
  systemProgram : Pubkey
deriving DecidableEq, Repr

/-- The deserialized accounts. -/
structure WithdrawStake where
  signer : Pubkey
  inputTokenMint : Loaded (Mint Pubkey)
  signerInputTokenVault : Loaded (TokenAccount Pubkey)
  poolInputTokenVault : Loaded (TokenAccount Pubkey)
  outputTokenMint : Loaded (Mint Pubkey)
  signerOutputTokenVault : Loaded (TokenAccount Pubkey)
  pool : Loaded LRTPool
  avs : Pubkey
  avsTokenMint : Loaded (Mint Pubkey)
  avsInputTokenVault : Loaded (TokenAccount Pubkey)
  poolAvsTokenVault : Loaded (TokenAccount Pubkey)
  avsProgram : Pubkey
  associatedTokenProgram : Pubkey
  tokenProgram : Pubkey
  systemProgram : Pubkey

/-- The accounts handed to the AVS program, in the order of the instruction. -/
def WithdrawStakeAccounts.avsAccounts (a : WithdrawStakeAccounts) : AvsAccounts where
  pool := a.pool
  avs := a.avs
  avsTokenMint := a.avsTokenMint
  avsInputTokenVault := a.avsInputTokenVault
  inputTokenMint := a.inputTokenMint
  poolInputTokenVault := a.poolInputTokenVault
  poolAvsTokenVault := a.poolAvsTokenVault
  tokenProgram := a.tokenProgram
  associatedTokenProgram := a.associatedTokenProgram
  systemProgram := a.systemProgram

namespace WithdrawStake

def tryAccounts (p : Privileges Pubkey) (a : WithdrawStakeAccounts) (s : State) :
    Except ProgramError (WithdrawStake × State) := do
  checkSigner p a.signer
  let inputTokenMint ← loadMint s a.inputTokenMint
  let poolInputTokenVault ← loadToken s a.poolInputTokenVault
  let outputTokenMint ← loadMint s a.outputTokenMint
  let signerOutputTokenVault ← loadToken s a.signerOutputTokenVault
  let pool ← loadPool s a.pool
  let avsTokenMint ← loadMint s a.avsTokenMint
  let avsInputTokenVault ← loadToken s a.avsInputTokenVault
  let poolAvsTokenVault ← loadToken s a.poolAvsTokenVault
  checkProgram a.associatedTokenProgram .associatedToken
  checkTokenInterface a.tokenProgram
  checkProgram a.systemProgram .system
  let created ← initIfNeeded p a.signer a.signerInputTokenVault a.inputTokenMint a.signer
    a.tokenProgram s
  checkMut p a.signer
  checkMut p a.inputTokenMint
  checkAddress a.inputTokenMint pool.account.inputTokenMint
  checkMint inputTokenMint ⟨none, none, none, some a.tokenProgram⟩
  checkAssociatedToken poolInputTokenVault a.inputTokenMint a.pool (some a.tokenProgram)
  checkMut p a.poolInputTokenVault
  checkMut p a.outputTokenMint
  checkAddress a.outputTokenMint pool.account.outputTokenMint
  checkMint outputTokenMint ⟨none, some a.pool, some a.pool, some a.tokenProgram⟩
  checkAssociatedToken signerOutputTokenVault a.outputTokenMint a.signer (some a.tokenProgram)
  checkMut p a.signerOutputTokenVault
  checkSeeds a.pool a.outputTokenMint pool.account.bump
  checkMut p a.pool
  checkHasOne pool.account.outputTokenMint a.outputTokenMint
  -- the AVS need not be known to the pool, and its program is not looked at
  checkMut p a.avs
  checkMut p a.avsTokenMint
  checkMint avsTokenMint
    ⟨some inputTokenMint.account.decimals, some a.avs, some a.avs, some a.tokenProgram⟩
  checkAssociatedToken avsInputTokenVault a.inputTokenMint a.avs (some a.tokenProgram)
  checkMut p a.avsInputTokenVault
  checkAssociatedToken poolAvsTokenVault a.avsTokenMint a.pool (some a.tokenProgram)
  checkMut p a.poolAvsTokenVault
  pure (⟨a.signer, inputTokenMint, created.1, poolInputTokenVault, outputTokenMint,
    signerOutputTokenVault, pool, a.avs, avsTokenMint, avsInputTokenVault, poolAvsTokenVault,
    a.avsProgram, a.associatedTokenProgram, a.tokenProgram, a.systemProgram⟩, created.2)

/-- Burn the signer's output tokens. -/
def burnOutputToken (cx : Cx) (self : WithdrawStake) (amount : UInt64) (s : State) :
    Except ProgramError State :=
  tokenCpi cx.priv self.tokenProgram
    (.burn self.signerOutputTokenVault.key self.outputTokenMint.key self.signer amount.toNat) s

/-- The accounts handed to the AVS program, in the order of the instruction. -/
def avsAccounts (self : WithdrawStake) : AvsAccounts where
  pool := self.pool.key
  avs := self.avs
  avsTokenMint := self.avsTokenMint.key
  avsInputTokenVault := self.avsInputTokenVault.key
  inputTokenMint := self.inputTokenMint.key
  poolInputTokenVault := self.poolInputTokenVault.key
  poolAvsTokenVault := self.poolAvsTokenVault.key
  tokenProgram := self.tokenProgram
  associatedTokenProgram := self.associatedTokenProgram
  systemProgram := self.systemProgram

/-- Check the reloaded AVS token vault and call the AVS program with the pool's signature. -/
def undelegate (cx : Cx) (self : WithdrawStake) (amount : UInt64) (s : State) :
    Except ProgramError (WithdrawStake × State) := do
  let poolAvsTokenVault ← reloadToken s self.poolAvsTokenVault
  let self := { self with poolAvsTokenVault := poolAvsTokenVault }
  require (amount.toNat ≤ self.poolAvsTokenVault.account.amount)
    (.lrt .insufficientAvsTokenForUndelegate)
  let s ← cx.invoke (sign cx.priv (poolAddress self.outputTokenMint.key self.pool.account.bump))
    (avsInstruction self.avsProgram .undelegate self.avsAccounts amount) s
  pure (self, s)

def calculateInputTokenAmount (amount : UInt64) : UInt64 := amount

/-- Check the reloaded vault against `amount` and transfer `convert amount` to the signer. -/
def unstakeWith (convert : UInt64 → UInt64) (cx : Cx) (self : WithdrawStake) (amount : UInt64)
    (s : State) : Except ProgramError (WithdrawStake × State) := do
  let poolInputTokenVault ← reloadToken s self.poolInputTokenVault
  let self := { self with poolInputTokenVault := poolInputTokenVault }
  require (amount.toNat ≤ self.poolInputTokenVault.account.amount)
    (.lrt .insufficientSSOLFundsForWithdraw)
  -- the handler has converted the amount that the guard tested, and it is converted once more here
  let s ← tokenCpi (sign cx.priv (poolAddress self.outputTokenMint.key self.pool.account.bump))
    self.tokenProgram
    (.transfer self.poolInputTokenVault.key self.signerInputTokenVault.key self.pool.key
      (convert amount).toNat
      (some (self.inputTokenMint.key, self.inputTokenMint.account.decimals))) s
  pure (self, s)

def unstake : Cx → WithdrawStake → UInt64 → State →
    Except ProgramError (WithdrawStake × State) :=
  unstakeWith calculateInputTokenAmount

theorem undelegate_eq_ok_iff (cx : Cx) (self self' : WithdrawStake) (amount : UInt64)
    (s s' : State) :
    undelegate cx self amount s = .ok (self', s') ↔
      ∃ w, s.ledger.accounts self.poolAvsTokenVault.key = some w ∧
        isTokenInterface w.program = true ∧ amount.toNat ≤ w.amount ∧
        cx.invoke (sign cx.priv (poolAddress self.outputTokenMint.key self.pool.account.bump))
          (avsInstruction self.avsProgram .undelegate self.avsAccounts amount) s = .ok s' ∧
        self' = { self with poolAvsTokenVault := ⟨self.poolAvsTokenVault.key, w⟩ } := by
  simp only [undelegate, reloadToken, bind_eq_ok_iff, loadToken_eq_ok_iff, require_eq_ok_iff,
    pure_eq_ok_iff, Prod.mk.injEq]
  constructor
  · rintro ⟨⟨k, w⟩, ⟨rfl, hw, hwp⟩, _, hle, _, hs, rfl, rfl⟩
    exact ⟨w, hw, hwp, hle, hs, rfl⟩
  · rintro ⟨w, hw, hwp, hle, hs, rfl⟩
    exact ⟨⟨_, w⟩, ⟨rfl, hw, hwp⟩, (), hle, _, hs, rfl, rfl⟩

theorem unstakeWith_eq_ok_iff (convert : UInt64 → UInt64) (cx : Cx) (self self' : WithdrawStake)
    (amount : UInt64) (s s' : State) :
    unstakeWith convert cx self amount s = .ok (self', s') ↔
      ∃ v l, s.ledger.accounts self.poolInputTokenVault.key = some v ∧
        isTokenInterface v.program = true ∧ amount.toNat ≤ v.amount ∧
        exec (sign cx.priv (poolAddress self.outputTokenMint.key self.pool.account.bump))
          self.tokenProgram
          (.transfer self.poolInputTokenVault.key self.signerInputTokenVault.key self.pool.key
            (convert amount).toNat
            (some (self.inputTokenMint.key, self.inputTokenMint.account.decimals)))
          s.ledger = .ok l ∧
        self' = { self with poolInputTokenVault := ⟨self.poolInputTokenVault.key, v⟩ } ∧
        s' = { s with ledger := l } := by
  simp only [unstakeWith, reloadToken, bind_eq_ok_iff, tokenCpi_eq_ok_iff, loadToken_eq_ok_iff,
    require_eq_ok_iff, pure_eq_ok_iff, Prod.mk.injEq]
  constructor
  · rintro ⟨⟨k, v⟩, ⟨rfl, hv, hvp⟩, _, hle, _, ⟨l, hl, rfl⟩, rfl, rfl⟩
    exact ⟨v, l, hv, hvp, hle, hl, rfl, rfl⟩
  · rintro ⟨v, l, hv, hvp, hle, hl, rfl, rfl⟩
    exact ⟨⟨_, v⟩, ⟨rfl, hv, hvp⟩, (), hle, _, ⟨l, hl, rfl⟩, rfl, rfl⟩

/-- The account list passes the checks of `WithdrawStake`, with the data that was deserialized. -/
structure Accepted (p : Privileges Pubkey) (a : WithdrawStakeAccounts) (s : State)
    (inputMint : Mint Pubkey) (poolInput : TokenAccount Pubkey) (outputMint : Mint Pubkey)
    (signerOutput : TokenAccount Pubkey) (r : LRTPool) (avsMint : Mint Pubkey)
    (avsInput poolAvs : TokenAccount Pubkey) : Prop where
  signer : p.signer a.signer = true
  signer_mut : p.writable a.signer = true
  pool_mut : p.writable a.pool = true
  inputMint_mut : p.writable a.inputTokenMint = true
  poolInput_mut : p.writable a.poolInputTokenVault = true
  outputMint_mut : p.writable a.outputTokenMint = true
  signerOutput_mut : p.writable a.signerOutputTokenVault = true
  avs_mut : p.writable a.avs = true
  avsMint_mut : p.writable a.avsTokenMint = true
  avsInput_mut : p.writable a.avsInputTokenVault = true
  poolAvs_mut : p.writable a.poolAvsTokenVault = true
  tokenProgram : isTokenInterface a.tokenProgram = true
  associatedTokenProgram : a.associatedTokenProgram = .program .associatedToken
  systemProgram : a.systemProgram = .program .system
  pool_some : s.pools a.pool = some r
  pool_eq : a.pool = poolAddress a.outputTokenMint r.bump
  inputMint_eq : a.inputTokenMint = r.inputTokenMint
  outputMint_eq : a.outputTokenMint = r.outputTokenMint
  inputMint_some : s.ledger.mints a.inputTokenMint = some inputMint
  inputMint_program : inputMint.program = a.tokenProgram
  outputMint_some : s.ledger.mints a.outputTokenMint = some outputMint
  outputMint_program : outputMint.program = a.tokenProgram
  outputMint_authority : outputMint.mintAuthority = some a.pool
  outputMint_freeze : outputMint.freezeAuthority = some a.pool
  poolInput_some : s.ledger.accounts a.poolInputTokenVault = some poolInput
  poolInput_key : a.poolInputTokenVault =
    getAssociatedTokenAddress a.pool a.tokenProgram a.inputTokenMint
  poolInput_owner : poolInput.owner = a.pool
  poolInput_program : poolInput.program = a.tokenProgram
  signerOutput_some : s.ledger.accounts a.signerOutputTokenVault = some signerOutput
  signerOutput_key : a.signerOutputTokenVault =
    getAssociatedTokenAddress a.signer a.tokenProgram a.outputTokenMint
  signerOutput_owner : signerOutput.owner = a.signer
  signerOutput_program : signerOutput.program = a.tokenProgram
  avsMint_some : s.ledger.mints a.avsTokenMint = some avsMint
  avsMint_program : avsMint.program = a.tokenProgram
  avsMint_authority : avsMint.mintAuthority = some a.avs
  avsMint_freeze : avsMint.freezeAuthority = some a.avs
  avsMint_decimals : avsMint.decimals = inputMint.decimals
  avsInput_some : s.ledger.accounts a.avsInputTokenVault = some avsInput
  avsInput_key : a.avsInputTokenVault =
    getAssociatedTokenAddress a.avs a.tokenProgram a.inputTokenMint
  avsInput_owner : avsInput.owner = a.avs
  avsInput_program : avsInput.program = a.tokenProgram
  poolAvs_some : s.ledger.accounts a.poolAvsTokenVault = some poolAvs
  poolAvs_key : a.poolAvsTokenVault =
    getAssociatedTokenAddress a.pool a.tokenProgram a.avsTokenMint
  poolAvs_owner : poolAvs.owner = a.pool
  poolAvs_program : poolAvs.program = a.tokenProgram

theorem tryAccounts_eq_ok_iff (p : Privileges Pubkey) (a : WithdrawStakeAccounts) (s s' : State)
    (self : WithdrawStake) :
    tryAccounts p a s = .ok (self, s') ↔
      ∃ inputMint poolInput outputMint signerOutput r avsMint avsInput poolAvs created,
        Accepted p a s inputMint poolInput outputMint signerOutput r avsMint avsInput poolAvs ∧
        initIfNeeded p a.signer a.signerInputTokenVault a.inputTokenMint a.signer a.tokenProgram s =
          .ok (created, s') ∧
        self = ⟨a.signer, ⟨a.inputTokenMint, inputMint⟩, created,
          ⟨a.poolInputTokenVault, poolInput⟩, ⟨a.outputTokenMint, outputMint⟩,
          ⟨a.signerOutputTokenVault, signerOutput⟩, ⟨a.pool, r⟩, a.avs, ⟨a.avsTokenMint, avsMint⟩,
          ⟨a.avsInputTokenVault, avsInput⟩, ⟨a.poolAvsTokenVault, poolAvs⟩, a.avsProgram,
          a.associatedTokenProgram, a.tokenProgram, a.systemProgram⟩ := by
  simp only [tryAccounts, bind_eq_ok_iff, checkSigner_eq_ok_iff, checkMut_eq_ok_iff,
    checkProgram_eq_ok_iff, checkTokenInterface_eq_ok_iff, loadMint_eq_ok_iff, loadToken_eq_ok_iff,
    loadPool_eq_ok_iff, checkMint_eq_ok_iff, checkAssociatedToken_eq_ok_iff, checkHasOne_eq_ok_iff,
    checkAddress_eq_ok_iff, checkSeeds_eq_ok_iff, pure_eq_ok_iff, asked_none, asked_some, true_and,
    Option.map_some, Option.map_none, Option.getD_some, Prod.mk.injEq]
  constructor
  · rintro ⟨_, hsig, ⟨_, im⟩, ⟨rfl, him, -⟩, ⟨_, pv⟩, ⟨rfl, hpv, -⟩, ⟨_, om⟩, ⟨rfl, hom, -⟩, h⟩
    obtain ⟨⟨_, so⟩, ⟨rfl, hso, -⟩, ⟨_, r⟩, ⟨rfl, hr⟩, ⟨_, am⟩, ⟨rfl, ham, -⟩, h⟩ := h
    obtain ⟨⟨_, av⟩, ⟨rfl, hav, -⟩, ⟨_, pa⟩, ⟨rfl, hpa, -⟩, _, hata, _, htp, _, hsys, h⟩ := h
    obtain ⟨created, hcr, _, hsm, _, himm, _, himk, _, himp, _, ⟨hpvp, hpvo, hpvk⟩, h⟩ := h
    obtain ⟨_, hpvm, _, homm, _, homk, _, ⟨homa, homf, homp⟩, _, ⟨hsop, hsoo, hsok⟩, h⟩ := h
    obtain ⟨_, hsom, _, hseed, _, hpm, _, -, _, hvm, _, hamm, h⟩ := h
    obtain ⟨_, ⟨hamd, hama, hamf, hamp⟩, _, ⟨havp, havo, havk⟩, _, havm, h⟩ := h
    obtain ⟨_, ⟨hpap, hpao, hpak⟩, _, hpam, rfl, rfl⟩ := h
    exact ⟨im, pv, om, so, r, am, av, pa, created.1, ⟨hsig, hsm, hpm, himm, hpvm, homm, hsom, hvm,
      hamm, havm, hpam, htp, hata, hsys, hr, hseed, himk, homk, him, himp, hom, homp, homa, homf,
      hpv, hpvk, hpvo, hpvp, hso, hsok, hsoo, hsop, ham, hamp, hama, hamf, hamd, hav, havk, havo,
      havp, hpa, hpak, hpao, hpap⟩, hcr, rfl⟩
  · rintro ⟨im, pv, om, so, r, am, av, pa, created, h, hcr, rfl⟩
    have htp := h.tokenProgram
    refine ⟨(), h.signer, ⟨_, im⟩, ⟨rfl, h.inputMint_some, ?_⟩, ⟨_, pv⟩,
      ⟨rfl, h.poolInput_some, ?_⟩, ⟨_, om⟩, ⟨rfl, h.outputMint_some, ?_⟩, ⟨_, so⟩,
      ⟨rfl, h.signerOutput_some, ?_⟩, ⟨_, r⟩, ⟨rfl, h.pool_some⟩, ⟨_, am⟩,
      ⟨rfl, h.avsMint_some, ?_⟩, ⟨_, av⟩, ⟨rfl, h.avsInput_some, ?_⟩, ⟨_, pa⟩,
      ⟨rfl, h.poolAvs_some, ?_⟩, (), h.associatedTokenProgram, (), htp, (), h.systemProgram, _, hcr,
      (), h.signer_mut, (), h.inputMint_mut, (), h.inputMint_eq, (), h.inputMint_program, (),
      ⟨h.poolInput_program, h.poolInput_owner, h.poolInput_key⟩, (), h.poolInput_mut, (),
      h.outputMint_mut, (), h.outputMint_eq, (),
      ⟨h.outputMint_authority, h.outputMint_freeze, h.outputMint_program⟩, (),
      ⟨h.signerOutput_program, h.signerOutput_owner, h.signerOutput_key⟩, (), h.signerOutput_mut,
      (), h.pool_eq, (), h.pool_mut, (), h.outputMint_eq.symm, (), h.avs_mut, (), h.avsMint_mut, (),
      ⟨h.avsMint_decimals, h.avsMint_authority, h.avsMint_freeze, h.avsMint_program⟩, (),
      ⟨h.avsInput_program, h.avsInput_owner, h.avsInput_key⟩, (), h.avsInput_mut, (),
      ⟨h.poolAvs_program, h.poolAvs_owner, h.poolAvs_key⟩, (), h.poolAvs_mut, rfl, rfl⟩
    · exact h.inputMint_program ▸ htp
    · exact h.poolInput_program ▸ htp
    · exact h.outputMint_program ▸ htp
    · exact h.signerOutput_program ▸ htp
    · exact h.avsMint_program ▸ htp
    · exact h.avsInput_program ▸ htp
    · exact h.poolAvs_program ▸ htp

end WithdrawStake

end AdraLrt
