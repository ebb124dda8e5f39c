import AdraLrt.Anchor

/-!
# The delegate context

`contexts/delegate.rs`: the accounts that delegating and undelegating share, and the two calls to
the AVS program. Only the delegate authority recorded in the pool may sign. The two AVS accounts
that are not created here name no token program in their checks, so the AVS mint may belong to
either token program and the AVS vault sits at the address derived under the legacy one.
-/

set_option autoImplicit false

namespace AdraLrt

open TokenLedger Checked

/-- The account addresses of a delegation, in the order of the struct. -/
structure DelegateAccounts where
  signer : Pubkey
  avs : Pubkey
  avsTokenMint : Pubkey
  avsInputTokenVault : Pubkey
  inputTokenMint : Pubkey
  poolInputTokenVault : Pubkey
  poolAvsTokenVault : Pubkey
  pool : Pubkey
  avsProgram : Pubkey
  tokenProgram : Pubkey
  associatedTokenProgram : Pubkey
  systemProgram : Pubkey
deriving DecidableEq, Repr

/-- The deserialized accounts. -/
structure Delegate where
  signer : Pubkey
  avs : Pubkey
  avsTokenMint : Loaded (Mint Pubkey)
  avsInputTokenVault : Loaded (TokenAccount Pubkey)
  inputTokenMint : Loaded (Mint Pubkey)
  poolInputTokenVault : Loaded (TokenAccount Pubkey)
  poolAvsTokenVault : Loaded (TokenAccount Pubkey)
  pool : Loaded LRTPool
  avsProgram : Pubkey
  tokenProgram : Pubkey
  associatedTokenProgram : Pubkey
  systemProgram : Pubkey

/-- The accounts handed to the AVS program, in the order of the instruction. -/
def DelegateAccounts.avsAccounts (a : DelegateAccounts) : AvsAccounts where
  pool := a.pool
  avs := a.avs
  avsTokenMint := a.avsTokenMint
  avsInputTokenVault := a.avsInputTokenVault
  inputTokenMint := a.inputTokenMint
  poolInputTokenVault := a.poolInputTokenVault
  poolAvsTokenVault := a.poolAvsTokenVault
  tokenProgram := a.tokenProgram
  associatedTokenProgram := a.associatedTokenProgram
  systemProgram := a.systemProgram

namespace Delegate

def tryAccounts (p : Privileges Pubkey) (a : DelegateAccounts) (s : State) :
    Except ProgramError (Delegate × State) := do
  checkSigner p a.signer
  let avsTokenMint ← loadMint s a.avsTokenMint
  let avsInputTokenVault ← loadToken s a.avsInputTokenVault
  let inputTokenMint ← loadMint s a.inputTokenMint
  let poolInputTokenVault ← loadToken s a.poolInputTokenVault
  let pool ← loadPool s a.pool
  checkTokenInterface a.tokenProgram
  checkProgram a.associatedTokenProgram .associatedToken
  checkProgram a.systemProgram .system
  let created ← initIfNeeded p a.signer a.poolAvsTokenVault a.avsTokenMint a.pool a.tokenProgram s
  checkMut p a.signer
  checkMut p a.avs
  checkMut p a.avsTokenMint
  -- the mint and the vault of the AVS name no token program, unlike those of the pool
  checkMint avsTokenMint ⟨some inputTokenMint.account.decimals, some a.avs, some a.avs, none⟩
  checkAssociatedToken avsInputTokenVault a.inputTokenMint a.avs none
  checkMut p a.avsInputTokenVault
  checkMut p a.inputTokenMint
  checkAddress a.inputTokenMint pool.account.inputTokenMint
  checkMint inputTokenMint ⟨none, none, none, some a.tokenProgram⟩
  checkAssociatedToken poolInputTokenVault a.inputTokenMint a.pool (some a.tokenProgram)
  checkMut p a.poolInputTokenVault
  -- no output mint is passed: the seed comes from the record itself
  checkSeeds a.pool pool.account.outputTokenMint pool.account.bump
  checkMut p a.pool
  checkHasOne pool.account.inputTokenMint a.inputTokenMint
  require (pool.account.delegateAuthority = a.signer) (.lrt .invalidDelegateAuthority)
  pure (⟨a.signer, a.avs, avsTokenMint, avsInputTokenVault, inputTokenMint, poolInputTokenVault,
    created.1, pool, a.avsProgram, a.tokenProgram, a.associatedTokenProgram, a.systemProgram⟩,
    created.2)

/-- The accounts handed to the AVS program, in the order of the instruction. -/
def avsAccounts (self : Delegate) : AvsAccounts where
  pool := self.pool.key
  avs := self.avs
  avsTokenMint := self.avsTokenMint.key
  avsInputTokenVault := self.avsInputTokenVault.key
  inputTokenMint := self.inputTokenMint.key
  poolInputTokenVault := self.poolInputTokenVault.key
  poolAvsTokenVault := self.poolAvsTokenVault.key
  tokenProgram := self.tokenProgram
  associatedTokenProgram := self.associatedTokenProgram
  systemProgram := self.systemProgram

/-- Check the reloaded pool vault and call the AVS program with the pool's signature. -/
def delegate (cx : Cx) (self : Delegate) (amount : UInt64) (s : State) :
    Except ProgramError (Delegate × State) := do
  let poolInputTokenVault ← reloadToken s self.poolInputTokenVault
  let self := { self with poolInputTokenVault := poolInputTokenVault }
  require (amount.toNat ≤ self.poolInputTokenVault.account.amount)
    (.lrt .insufficientSSOLFundsForDelegate)
  let s ← cx.invoke
    (sign cx.priv (poolAddress self.pool.account.outputTokenMint self.pool.account.bump))
    (avsInstruction self.avsProgram .delegate self.avsAccounts amount) s
  pure (self, s)

/-- Check the reloaded AVS token vault and call the AVS program with the pool's signature. -/
def undelegate (cx : Cx) (self : Delegate) (amount : UInt64) (s : State) :
    Except ProgramError (Delegate × State) := do
  let poolAvsTokenVault ← reloadToken s self.poolAvsTokenVault
  let self := { self with poolAvsTokenVault := poolAvsTokenVault }
  require (amount.toNat ≤ self.poolAvsTokenVault.account.amount)
    (.lrt .insufficientAvsTokenForUndelegate)
  let s ← cx.invoke
    (sign cx.priv (poolAddress self.pool.account.outputTokenMint self.pool.account.bump))
    (avsInstruction self.avsProgram .undelegate self.avsAccounts amount) s
  pure (self, s)

theorem delegate_eq_ok_iff (cx : Cx) (self self' : Delegate) (amount : UInt64) (s s' : State) :
    delegate cx self amount s = .ok (self', s') ↔
      ∃ v, s.ledger.accounts self.poolInputTokenVault.key = some v ∧
        isTokenInterface v.program = true ∧ amount.toNat ≤ v.amount ∧
        cx.invoke
          (sign cx.priv (poolAddress self.pool.account.outputTokenMint self.pool.account.bump))
          (avsInstruction self.avsProgram .delegate self.avsAccounts amount) s = .ok s' ∧
        self' = { self with poolInputTokenVault := ⟨self.poolInputTokenVault.key, v⟩ } := by
  simp only [delegate, reloadToken, bind_eq_ok_iff, loadToken_eq_ok_iff, require_eq_ok_iff,
    pure_eq_ok_iff, Prod.mk.injEq]
  constructor
  · rintro ⟨⟨k, v⟩, ⟨rfl, hv, hvp⟩, _, hle, _, hs, rfl, rfl⟩
    exact ⟨v, hv, hvp, hle, hs, rfl⟩
  · rintro ⟨v, hv, hvp, hle, hs, rfl⟩
    exact ⟨⟨_, v⟩, ⟨rfl, hv, hvp⟩, (), hle, _, hs, rfl, rfl⟩

theorem undelegate_eq_ok_iff (cx : Cx) (self self' : Delegate) (amount : UInt64) (s s' : State) :
    undelegate cx self amount s = .ok (self', s') ↔
      ∃ w, s.ledger.accounts self.poolAvsTokenVault.key = some w ∧
        isTokenInterface w.program = true ∧ amount.toNat ≤ w.amount ∧
        cx.invoke
          (sign cx.priv (poolAddress self.pool.account.outputTokenMint self.pool.account.bump))
          (avsInstruction self.avsProgram .undelegate self.avsAccounts amount) s = .ok s' ∧
        self' = { self with poolAvsTokenVault := ⟨self.poolAvsTokenVault.key, w⟩ } := by
  simp only [undelegate, reloadToken, bind_eq_ok_iff, loadToken_eq_ok_iff, require_eq_ok_iff,
    pure_eq_ok_iff, Prod.mk.injEq]
  constructor
  · rintro ⟨⟨k, w⟩, ⟨rfl, hw, hwp⟩, _, hle, _, hs, rfl, rfl⟩
    exact ⟨w, hw, hwp, hle, hs, rfl⟩
  · rintro ⟨w, hw, hwp, hle, hs, rfl⟩
    exact ⟨⟨_, w⟩, ⟨rfl, hw, hwp⟩, (), hle, _, hs, rfl, rfl⟩

/-- The account list passes the checks of `Delegate`, with the data that was deserialized. -/
structure Accepted (p : Privileges Pubkey) (a : DelegateAccounts) (s : State)
    (avsMint : Mint Pubkey) (avsInput : TokenAccount Pubkey) (inputMint : Mint Pubkey)
    (poolInput : TokenAccount Pubkey) (r : LRTPool) : Prop where
  signer : p.signer a.signer = true
  signer_mut : p.writable a.signer = true
  pool_mut : p.writable a.pool = true
  avs_mut : p.writable a.avs = true
  avsMint_mut : p.writable a.avsTokenMint = true
  avsInput_mut : p.writable a.avsInputTokenVault = true
  inputMint_mut : p.writable a.inputTokenMint = true
  poolInput_mut : p.writable a.poolInputTokenVault = true
  tokenProgram : isTokenInterface a.tokenProgram = true
  associatedTokenProgram : a.associatedTokenProgram = .program .associatedToken
  systemProgram : a.systemProgram = .program .system
  pool_some : s.pools a.pool = some r
  pool_eq : a.pool = poolAddress r.outputTokenMint r.bump
  authority : r.delegateAuthority = a.signer
  inputMint_eq : a.inputTokenMint = r.inputTokenMint
  inputMint_some : s.ledger.mints a.inputTokenMint = some inputMint
  inputMint_program : inputMint.program = a.tokenProgram
  poolInput_some : s.ledger.accounts a.poolInputTokenVault = some poolInput
  poolInput_key : a.poolInputTokenVault =
    getAssociatedTokenAddress a.pool a.tokenProgram a.inputTokenMint
  poolInput_owner : poolInput.owner = a.pool
  poolInput_program : poolInput.program = a.tokenProgram
  avsMint_some : s.ledger.mints a.avsTokenMint = some avsMint
  avsMint_program : isTokenInterface avsMint.program = true
  avsMint_authority : avsMint.mintAuthority = some a.avs
  avsMint_freeze : avsMint.freezeAuthority = some a.avs
  avsMint_decimals : avsMint.decimals = inputMint.decimals
  avsInput_some : s.ledger.accounts a.avsInputTokenVault = some avsInput
  avsInput_key : a.avsInputTokenVault =
    getAssociatedTokenAddress a.avs (.program .token) a.inputTokenMint
  avsInput_owner : avsInput.owner = a.avs
  avsInput_program : isTokenInterface avsInput.program = true

theorem tryAccounts_eq_ok_iff (p : Privileges Pubkey) (a : DelegateAccounts) (s s' : State)
    (self : Delegate) :
    tryAccounts p a s = .ok (self, s') ↔
      ∃ avsMint avsInput inputMint poolInput r created,
        Accepted p a s avsMint avsInput inputMint poolInput r ∧
        initIfNeeded p a.signer a.poolAvsTokenVault a.avsTokenMint a.pool a.tokenProgram s =
          .ok (created, s') ∧
        self = ⟨a.signer, a.avs, ⟨a.avsTokenMint, avsMint⟩, ⟨a.avsInputTokenVault, avsInput⟩,
          ⟨a.inputTokenMint, inputMint⟩, ⟨a.poolInputTokenVault, poolInput⟩, created, ⟨a.pool, r⟩,
          a.avsProgram, a.tokenProgram, a.associatedTokenProgram, a.systemProgram⟩ := by
  simp only [tryAccounts, bind_eq_ok_iff, checkSigner_eq_ok_iff, checkMut_eq_ok_iff,
    checkProgram_eq_ok_iff, checkTokenInterface_eq_ok_iff, loadMint_eq_ok_iff, loadToken_eq_ok_iff,
    loadPool_eq_ok_iff, checkMint_eq_ok_iff, checkAssociatedToken_eq_ok_iff, checkHasOne_eq_ok_iff,
    checkAddress_eq_ok_iff, checkSeeds_eq_ok_iff, require_eq_ok_iff, pure_eq_ok_iff, asked_none,
    asked_some, true_and, and_true, Option.map_some, Option.map_none, Option.getD_some,
    Option.getD_none, Prod.mk.injEq]
  constructor
  · rintro ⟨_, hsig, ⟨_, am⟩, ⟨rfl, ham, hamp⟩, ⟨_, av⟩, ⟨rfl, hav, havp⟩, ⟨_, im⟩, ⟨rfl, him, -⟩,
      h⟩
    obtain ⟨⟨_, pv⟩, ⟨rfl, hpv, -⟩, ⟨_, r⟩, ⟨rfl, hr⟩, _, htp, _, hata, _, hsys, created, hcr, h⟩ :=
      h
    obtain ⟨_, hsm, _, hvm, _, hamm, _, ⟨hamd, hama, hamf⟩, _, ⟨havo, havk⟩, _, havm, h⟩ := h
    obtain ⟨_, himm, _, himk, _, himp, _, ⟨hpvp, hpvo, hpvk⟩, _, hpvm, _, hseed, h⟩ := h
    obtain ⟨_, hpm, _, -, _, hauth, rfl, rfl⟩ := h
    refine ⟨am, av, im, pv, r, created.1, ?_, hcr, rfl⟩
    exact ⟨hsig, hsm, hpm, hvm, hamm, havm, himm, hpvm, htp, hata, hsys, hr, hseed, hauth, himk,
      him, himp, hpv, hpvk, hpvo, hpvp, ham, hamp, hama, hamf, hamd, hav, havk, havo, havp⟩
  · rintro ⟨am, av, im, pv, r, created, h, hcr, rfl⟩
    have htp := h.tokenProgram
    refine ⟨(), h.signer, ⟨_, am⟩, ⟨rfl, h.avsMint_some, h.avsMint_program⟩, ⟨_, av⟩,
      ⟨rfl, h.avsInput_some, h.avsInput_program⟩, ⟨_, im⟩, ⟨rfl, h.inputMint_some, ?_⟩, ⟨_, pv⟩,
      ⟨rfl, h.poolInput_some, ?_⟩, ⟨_, r⟩, ⟨rfl, h.pool_some⟩, (), htp, (),
      h.associatedTokenProgram, (), h.systemProgram, _, hcr, (), h.signer_mut, (), h.avs_mut, (),
      h.avsMint_mut, (), ⟨h.avsMint_decimals, h.avsMint_authority, h.avsMint_freeze⟩, (),
      ⟨h.avsInput_owner, h.avsInput_key⟩, (), h.avsInput_mut, (), h.inputMint_mut, (),
      h.inputMint_eq, (), h.inputMint_program, (),
      ⟨h.poolInput_program, h.poolInput_owner, h.poolInput_key⟩, (), h.poolInput_mut, (),
      h.pool_eq, (), h.pool_mut, (), h.inputMint_eq.symm, (), h.authority, rfl, rfl⟩
    · exact h.inputMint_program ▸ htp
    · exact h.poolInput_program ▸ htp

end Delegate

end AdraLrt
