import AdraLrt.Anchor

/-!
# The authority contexts

`contexts/transfer_delegate_authority.rs` and `contexts/update_mint_limit.rs`: the two instructions
that the delegate authority uses to change the pool record. They check the same things and differ in
the error for a wrong authority.
-/

set_option autoImplicit false

namespace AdraLrt

open TokenLedger Checked

/-- The authority signs for a pool record at its own address. -/
def loadOwnPool (p : Privileges Pubkey) (authority pool : Pubkey) (wrongAuthority : ProgramError)
    (s : State) : Except ProgramError (Loaded LRTPool) := do
  checkSigner p authority
  let pool ← loadPool s pool
  checkMut p authority
  checkSeeds pool.key pool.account.outputTokenMint pool.account.bump
  checkMut p pool.key
  require (pool.account.delegateAuthority = authority) wrongAuthority
  pure pool

theorem loadOwnPool_eq_ok_iff (p : Privileges Pubkey) (authority k : Pubkey) (e : ProgramError)
    (s : State) (pool : Loaded LRTPool) :
    loadOwnPool p authority k e s = .ok pool ↔
      p.signer authority = true ∧ p.writable authority = true ∧ p.writable k = true ∧
        s.pools k = some pool.account ∧ pool.key = k ∧
        k = poolAddress pool.account.outputTokenMint pool.account.bump ∧
        pool.account.delegateAuthority = authority := by
  simp only [loadOwnPool, bind_eq_ok_iff, checkSigner_eq_ok_iff, checkMut_eq_ok_iff,
    loadPool_eq_ok_iff, checkSeeds_eq_ok_iff, require_eq_ok_iff, pure_eq_ok_iff]
  constructor
  · rintro ⟨_, hsig, r, ⟨rfl, hr⟩, _, ham, _, hseed, _, hpm, _, hauth, rfl⟩
    exact ⟨hsig, ham, hpm, hr, rfl, hseed, hauth⟩
  · rintro ⟨hsig, ham, hpm, hr, rfl, hseed, hauth⟩
    exact ⟨(), hsig, pool, ⟨rfl, hr⟩, (), ham, (), hseed, (), hpm, (), hauth, rfl⟩

structure TransferDelegateAuthorityAccounts where
  authority : Pubkey
  pool : Pubkey
  newAuthority : Pubkey
deriving DecidableEq, Repr

structure TransferDelegateAuthority where
  authority : Pubkey
  pool : Loaded LRTPool
  newAuthority : Pubkey

namespace TransferDelegateAuthority

def tryAccounts (p : Privileges Pubkey) (a : TransferDelegateAuthorityAccounts) (s : State) :
    Except ProgramError TransferDelegateAuthority := do
  let pool ← loadOwnPool p a.authority a.pool (.anchor .constraintRaw) s
  pure ⟨a.authority, pool, a.newAuthority⟩

def transferAuthority (self : TransferDelegateAuthority) : TransferDelegateAuthority :=
  { self with pool := { self.pool with
      account := { self.pool.account with delegateAuthority := self.newAuthority } } }

end TransferDelegateAuthority

structure UpdateMintLimitAccounts where
  authority : Pubkey
  pool : Pubkey
deriving DecidableEq, Repr

structure UpdateMintLimit where
  authority : Pubkey
  pool : Loaded LRTPool

namespace UpdateMintLimit

def tryAccounts (p : Privileges Pubkey) (a : UpdateMintLimitAccounts) (s : State) :
    Except ProgramError UpdateMintLimit := do
  let pool ← loadOwnPool p a.authority a.pool (.lrt .invalidDelegateAuthority) s
  pure ⟨a.authority, pool⟩

def updateMintLimit (self : UpdateMintLimit) (limit : UInt64) : UpdateMintLimit :=
  { self with pool := { self.pool with
      account := { self.pool.account with outputMintLimit := limit } } }

end UpdateMintLimit

end AdraLrt
