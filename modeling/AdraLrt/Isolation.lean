import AdraLrt.Sample

/-!
# Isolation of pools

An instruction of one pool, whatever its accounts and whatever its AVS program does, takes nothing
from another pool. The only derived address that ever signs is the pool of the instruction, so
another pool is an owner and a mint authority that does not sign.
-/

set_option autoImplicit false

namespace AdraLrt

open TokenLedger Checked

/-- A pool that does not sign from outside is not among the signers of an instruction of another. -/
theorem ceiling_signer_pool {p : Privileges Pubkey} {pool k : Pubkey} (hp : p.signer k = false)
    (hk : k.isPool = true) (hne : pool ≠ k) : (ceiling p pool).signer k = false := by
  simp [ceiling, hp, Pubkey.not_isProgramDerived_of_isPool hk, hne.symm]

/-- `pool` has a record at its own address, it alone controls the token accounts that it owns, and
it is the authority of its output mint. -/
structure SoleCustody (s : State) (pool : Pubkey) (r : LRTPool) : Prop where
  record : s.pools pool = some r
  home : pool = poolAddress r.outputTokenMint r.bump
  accounts : ∀ k a, s.ledger.accounts k = some a → a.owner = pool → a.Held pool
  mint : ∃ m, s.ledger.mints r.outputTokenMint = some m ∧ m.mintAuthority = some pool

theorem SoleCustody.isPool {s : State} {pool : Pubkey} {r : LRTPool} (h : SoleCustody s pool r) :
    pool.isPool = true :=
  isPool_of_eq h.home

/-- An instruction leaves the record of any other pool alone. -/
theorem execute_record_of_ne {rt : Runtime} {p : Privileges Pubkey} {c : Call} {s s' : State}
    (h : rt.execute p c s = .ok s') {k : Pubkey} (hne : c.pool ≠ k) : s'.pools k = s.pools k := by
  cases execute_pools h with
  | kept c hset hpools => rw [hpools]
  | created a limit hpool hnone hs' => exact hs' ▸ s.setPool_pools_of_ne _ hne
  | transferred a r hsig hr hauth hs' => exact hs' ▸ s.setPool_pools_of_ne _ hne
  | limitSet a limit r hsig hr hauth hs' => exact hs' ▸ s.setPool_pools_of_ne _ hne

/-- An instruction of one pool, with any signers but the other pool, any accounts and any behaviour
of the AVS program: no account of the other pool is debited or changes hands, the output mint of
that pool keeps its authorities and gains no supply, and its record stays. -/
theorem execute_isolated {rt : Runtime} {p : Privileges Pubkey} {c : Call} {s s' : State}
    {pool : Pubkey} {r : LRTPool} (h : rt.execute p c s = .ok s')
    (hp : p.signer pool = false) (hpool : SoleCustody s pool r) (hne : c.pool ≠ pool) :
    (∀ k a, s.ledger.accounts k = some a → a.owner = pool →
      ∃ a', s'.ledger.accounts k = some a' ∧ a.amount ≤ a'.amount ∧ a'.owner = a.owner ∧
        a'.delegate = a.delegate ∧ a'.closeAuthority = a.closeAuthority) ∧
    (∀ m, s.ledger.mints r.outputTokenMint = some m →
      ∃ m', s'.ledger.mints r.outputTokenMint = some m' ∧ m'.supply ≤ m.supply ∧
        m'.mintAuthority = m.mintAuthority ∧
        ((∀ k ∈ m.freezeAuthority, k = pool) → m'.freezeAuthority = m.freezeAuthority)) ∧
    s'.pools pool = some r := by
  have hsig := ceiling_signer_pool hp hpool.isPool hne
  refine ⟨?_, ?_, ?_⟩
  · -- an account of the pool is in its hands only, so only its signature could take from it
    intro k a ha howner
    have hheld := hpool.accounts k a ha howner
    obtain ⟨a', ha', hheld', -, -, hle, hclose⟩ :=
      reach_accountKept hsig (execute_reach h) k a ha hheld
    exact ⟨a', ha', hle, hheld'.owner_eq.trans hheld.owner_eq.symm,
      hheld'.delegate_eq.trans hheld.delegate_eq.symm, hclose⟩
  · -- the same for minting, and for the freeze authority where it is the pool
    intro m hm
    obtain ⟨m₀, hm₀, hauth⟩ := hpool.mint
    obtain rfl := Option.some.inj (hm.symm.trans hm₀)
    obtain ⟨m', hm', hauth', hle, -, -, hfreeze⟩ :=
      reach_mintKept hsig (execute_reach h) r.outputTokenMint m hm hauth
    exact ⟨m', hm', hle, hauth'.trans hauth.symm, hfreeze⟩
  · rw [execute_record_of_ne h hne]
    exact hpool.record

namespace Sample

def secondMint : Pubkey := .keypair 13
def secondPool : Pubkey := poolAddress secondMint 255
def secondRecord : LRTPool := ⟨255, inputMint, secondMint, authority, 1000⟩

/-- A second pool with the same input token. -/
def twoPools : State where
  ledger := .ofLists
    [(inputMint, mintOf authority 100), (outputMint, mintOf pool 100),
      (secondMint, mintOf secondPool 0)]
    [account user inputMint 53, account user outputMint 100, account pool inputMint 40,
      account pool secondMint 0, account secondPool inputMint 7]
  pools k :=
    if k = pool then some (record 1000) else if k = secondPool then some secondRecord else none

/-- A forced exit from the first pool with the second one in the place of the AVS. -/
def crossExit : WithdrawStakeAccounts :=
  .derived user tokenProgram pool (record 1000) secondPool secondMint avsProgram

/-- A program that moves the vault of the first pool into the one of the second. -/
def shifter : Programs := fun _ _ _ =>
  some [(tokenProgram, .transfer (getAssociatedTokenAddress pool tokenProgram inputMint)
    (getAssociatedTokenAddress secondPool tokenProgram inputMint) pool 40 none)]

theorem secondPool_custody : SoleCustody twoPools secondPool secondRecord where
  record := by decide
  home := rfl
  accounts := by
    intro k a ha howner
    have hentries : ∀ e ∈ [account user inputMint 53, account user outputMint 100,
        account pool inputMint 40, account pool secondMint 0, account secondPool inputMint 7],
        e.2.owner = secondPool → e.2.Held secondPool := by decide
    exact hentries _ (mem_of_account ha) howner
  mint := ⟨mintOf secondPool 0, by decide, rfl⟩

/-- The second pool loses nothing to such a call. -/
theorem secondPool_untouched : ∃ s',
    Runtime.execute ⟨findBump, shifter⟩ (signedBy user) (.withdrawDelegatedStake crossExit 0)
      twoPools = .ok s' ∧ s'.pools secondPool = some secondRecord ∧
    ∀ k a, twoPools.ledger.accounts k = some a → a.owner = secondPool →
      ∃ a', s'.ledger.accounts k = some a' ∧ a.amount ≤ a'.amount ∧ a'.owner = a.owner ∧
        a'.delegate = a.delegate ∧ a'.closeAuthority = a.closeAuthority := by
  obtain ⟨s', h, -⟩ : ∃ s', Runtime.execute ⟨findBump, shifter⟩ (signedBy user)
      (.withdrawDelegatedStake crossExit 0) twoPools = .ok s' ∧ true = true :=
    exists_eq_ok (by decide)
  obtain ⟨haccounts, -, hrecord⟩ :=
    execute_isolated h (by decide) secondPool_custody (by decide)
  exact ⟨s', h, hrecord, haccounts⟩

end Sample

end AdraLrt
