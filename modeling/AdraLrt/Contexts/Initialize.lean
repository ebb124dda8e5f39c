import AdraLrt.Anchor

/-!
# The initialize context

`contexts/initialize.rs`: the one instruction that creates a pool record. The record goes to the
address derived from the output mint and the bump that the search finds, which must be free, and the
output mint must belong to that address and have no supply yet.
-/

set_option autoImplicit false

namespace AdraLrt

open TokenLedger Checked

/-- The account addresses of an initialization, in the order of the struct. -/
structure InitializeAccounts where
  signer : Pubkey
  delegateAuthority : Pubkey
  inputTokenMint : Pubkey
  poolInputTokenVault : Pubkey
  outputTokenMint : Pubkey
  pool : Pubkey
  associatedTokenProgram : Pubkey
  tokenProgram : Pubkey
  systemProgram : Pubkey
deriving DecidableEq, Repr

/-- The deserialized accounts. The pool record is set by the handler. -/
structure Initialize where
  signer : Pubkey
  delegateAuthority : Pubkey
  inputTokenMint : Loaded (Mint Pubkey)
  poolInputTokenVault : Loaded (TokenAccount Pubkey)
  outputTokenMint : Loaded (Mint Pubkey)
  pool : Pubkey
  associatedTokenProgram : Pubkey
  tokenProgram : Pubkey
  systemProgram : Pubkey

namespace Initialize

/-- `init` with the pool seeds: the address is the canonical one and no account is there yet. The
result is the bump. The account and its payer are handed over as writable, so the `mut` that `init`
implies is not reached without. -/
def initPool (cx : Cx) (payer k outputTokenMint : Pubkey) (s : State) :
    Except ProgramError UInt8 := do
  require (k = poolAddress outputTokenMint (cx.findBump outputTokenMint)) (.anchor .constraintSeeds)
  require (cx.priv.writable payer = true ∧ cx.priv.writable k = true) .privilegeEscalation
  require (s.pools k = none ∧ s.ledger.accounts k = none ∧ s.ledger.mints k = none)
    .accountAlreadyInUse
  pure (cx.findBump outputTokenMint)

def tryAccounts (cx : Cx) (a : InitializeAccounts) (s : State) :
    Except ProgramError (Initialize × UInt8) := do
  checkSigner cx.priv a.signer
  let inputTokenMint ← loadMint s a.inputTokenMint
  let poolInputTokenVault ← loadToken s a.poolInputTokenVault
  let outputTokenMint ← loadMint s a.outputTokenMint
  checkProgram a.associatedTokenProgram .associatedToken
  checkTokenInterface a.tokenProgram
  checkProgram a.systemProgram .system
  let bump ← initPool cx a.signer a.pool a.outputTokenMint s
  checkMut cx.priv a.signer
  checkMint inputTokenMint ⟨none, none, none, some a.tokenProgram⟩
  checkAssociatedToken poolInputTokenVault a.inputTokenMint a.pool (some a.tokenProgram)
  checkMut cx.priv a.poolInputTokenVault
  require (outputTokenMint.account.supply = 0) (.lrt .nonZeroRstMintSupply)
  checkMint outputTokenMint
    ⟨some inputTokenMint.account.decimals, some a.pool, some a.pool, some a.tokenProgram⟩
  pure (⟨a.signer, a.delegateAuthority, inputTokenMint, poolInputTokenVault, outputTokenMint,
    a.pool, a.associatedTokenProgram, a.tokenProgram, a.systemProgram⟩, bump)

/-- `initialize`: the record that `set_inner` stores. -/
def initializePool (self : Initialize) (bump : UInt8) (limit : UInt64) : Loaded LRTPool :=
  ⟨self.pool, {
    bump := bump
    inputTokenMint := self.inputTokenMint.key
    outputTokenMint := self.outputTokenMint.key
    delegateAuthority := self.delegateAuthority
    outputMintLimit := limit }⟩

/-- The account list passes the checks of `Initialize`, with the data that was deserialized. -/
structure Accepted (cx : Cx) (a : InitializeAccounts) (s : State) (inputMint : Mint Pubkey)
    (poolInput : TokenAccount Pubkey) (outputMint : Mint Pubkey) : Prop where
  signer : cx.priv.signer a.signer = true
  signer_mut : cx.priv.writable a.signer = true
  pool_mut : cx.priv.writable a.pool = true
  poolInput_mut : cx.priv.writable a.poolInputTokenVault = true
  tokenProgram : isTokenInterface a.tokenProgram = true
  associatedTokenProgram : a.associatedTokenProgram = .program .associatedToken
  systemProgram : a.systemProgram = .program .system
  pool_eq : a.pool = poolAddress a.outputTokenMint (cx.findBump a.outputTokenMint)
  pool_none : s.pools a.pool = none
  pool_no_account : s.ledger.accounts a.pool = none
  pool_no_mint : s.ledger.mints a.pool = none
  inputMint_some : s.ledger.mints a.inputTokenMint = some inputMint
  inputMint_program : inputMint.program = a.tokenProgram
  poolInput_some : s.ledger.accounts a.poolInputTokenVault = some poolInput
  poolInput_key : a.poolInputTokenVault =
    getAssociatedTokenAddress a.pool a.tokenProgram a.inputTokenMint
  poolInput_owner : poolInput.owner = a.pool
  poolInput_program : poolInput.program = a.tokenProgram
  outputMint_some : s.ledger.mints a.outputTokenMint = some outputMint
  outputMint_program : outputMint.program = a.tokenProgram
  outputMint_authority : outputMint.mintAuthority = some a.pool
  outputMint_freeze : outputMint.freezeAuthority = some a.pool
  outputMint_decimals : outputMint.decimals = inputMint.decimals
  outputMint_supply : outputMint.supply = 0

theorem tryAccounts_eq_ok_iff (cx : Cx) (a : InitializeAccounts) (s : State) (self : Initialize)
    (bump : UInt8) :
    tryAccounts cx a s = .ok (self, bump) ↔
      ∃ inputMint poolInput outputMint,
        Accepted cx a s inputMint poolInput outputMint ∧ bump = cx.findBump a.outputTokenMint ∧
        self = ⟨a.signer, a.delegateAuthority, ⟨a.inputTokenMint, inputMint⟩,
          ⟨a.poolInputTokenVault, poolInput⟩, ⟨a.outputTokenMint, outputMint⟩, a.pool,
          a.associatedTokenProgram, a.tokenProgram, a.systemProgram⟩ := by
  simp only [tryAccounts, initPool, bind_eq_ok_iff, checkSigner_eq_ok_iff, checkMut_eq_ok_iff,
    checkProgram_eq_ok_iff, checkTokenInterface_eq_ok_iff, loadMint_eq_ok_iff, loadToken_eq_ok_iff,
    checkMint_eq_ok_iff, checkAssociatedToken_eq_ok_iff, require_eq_ok_iff, pure_eq_ok_iff,
    asked_none, asked_some, true_and, Option.map_some, Option.map_none, Option.getD_some,
    Prod.mk.injEq]
  constructor
  · rintro ⟨_, hsig, ⟨_, im⟩, ⟨rfl, him, -⟩, ⟨_, pv⟩, ⟨rfl, hpv, -⟩, ⟨_, om⟩, ⟨rfl, hom, -⟩, h⟩
    obtain ⟨_, hata, _, htp, _, hsys, b, ⟨_, hk, _, hpm, _, ⟨hnp, hna, hnm⟩, rfl⟩, h⟩ := h
    obtain ⟨_, hsm, _, himp, _, ⟨hpvp, hpvo, hpvk⟩, _, hpvm, h⟩ := h
    obtain ⟨_, hsup, _, ⟨homd, homa, homf, homp⟩, rfl, rfl⟩ := h
    exact ⟨im, pv, om, ⟨hsig, hsm, hpm.2, hpvm, htp, hata, hsys, hk, hnp, hna, hnm, him, himp, hpv,
      hpvk, hpvo, hpvp, hom, homp, homa, homf, homd, hsup⟩, rfl, rfl⟩
  · rintro ⟨im, pv, om, h, rfl, rfl⟩
    have htp := h.tokenProgram
    refine ⟨(), h.signer, ⟨_, im⟩, ⟨rfl, h.inputMint_some, ?_⟩, ⟨_, pv⟩,
      ⟨rfl, h.poolInput_some, ?_⟩, ⟨_, om⟩, ⟨rfl, h.outputMint_some, ?_⟩, (),
      h.associatedTokenProgram, (), htp, (), h.systemProgram, _,
      ⟨(), h.pool_eq, (), ⟨h.signer_mut, h.pool_mut⟩, (),
        ⟨h.pool_none, h.pool_no_account, h.pool_no_mint⟩, rfl⟩,
      (), h.signer_mut, (), h.inputMint_program, (),
      ⟨h.poolInput_program, h.poolInput_owner, h.poolInput_key⟩, (), h.poolInput_mut, (),
      h.outputMint_supply, (),
      ⟨h.outputMint_decimals, h.outputMint_authority, h.outputMint_freeze, h.outputMint_program⟩,
      rfl, rfl⟩
    · exact h.inputMint_program ▸ htp
    · exact h.poolInput_program ▸ htp
    · exact h.outputMint_program ▸ htp

end Initialize

end AdraLrt
