import AdraLrt.Exposure
import AdraLrt.Isolation
import Mathlib.Algebra.BigOperators.Group.Finset.Basic

/-!
# What the owner of a key can lose

Two results about one key, over arbitrary runs and for AVS programs that do whatever they can with
the accounts and signatures they are handed.

* A key that signs nothing keeps what it controls: the token accounts in its hands only, the mints
  it is the authority of and the records of the pools it delegates for (`bystander_untouched`). The
  same holds for a pool and its own record, as long as no instruction of that pool runs.
* A wallet that signs instructions of the program, and nothing else, trades one for one: over a set
  of mints that contains the output mint of a pool with its input mint, its associated accounts
  never hold less than before (`trades_keep_wealth`). A hostile AVS can ruin a pool, but the exit
  that calls it either pays the wallet in full or leaves everything as it was.
-/

set_option autoImplicit false

namespace AdraLrt

open TokenLedger Checked

/-! ## Keys that do not sign -/

/-- The pool that a transaction is an instruction of. -/
def Action.pool : Action → Option Pubkey
  | .call _ _ c => some c.pool
  | _ => none

/-- What `k` controls in the first state it controls in the second, and nothing of it is lost. -/
structure Untouched (k : Pubkey) (s s' : State) : Prop where
  accounts : AccountKept k s.ledger s'.ledger
  mints : ∀ m, MintKept k m s.ledger s'.ledger
  records : ∀ pool r, s.pools pool = some r → r.delegateAuthority = k → s'.pools pool = some r
  own : ∀ r, s.pools k = some r → s'.pools k = some r

theorem Untouched.refl (k : Pubkey) (s : State) : Untouched k s s where
  accounts := AccountKept.refl k s.ledger
  mints m := MintKept.refl k m s.ledger
  records _ _ hr _ := hr
  own _ hr := hr

theorem Untouched.trans {k : Pubkey} {s t u : State} (hst : Untouched k s t)
    (htu : Untouched k t u) : Untouched k s u where
  accounts := hst.accounts.trans htu.accounts
  mints m := (hst.mints m).trans (htu.mints m)
  records pool r hr hk := htu.records pool r (hst.records pool r hr hk) hk
  own r hr := htu.own r (hst.own r hr)

/-- Every instruction checks that its pool has the address of a pool. -/
theorem execute_isPool {rt : Runtime} {p : Privileges Pubkey} {c : Call} {s s' : State}
    (h : rt.execute p c s = .ok s') : c.pool.isPool = true := by
  cases c with
  | initializePool a limit =>
      obtain ⟨im, pv, om, hacc, -⟩ := (initializePool_eq_ok_iff ..).1 h
      exact isPool_of_eq hacc.pool_eq
  | deposit a amount =>
      obtain ⟨d, -⟩ := (execute_deposit_iff ..).1 h
      exact isPool_of_eq d.accepted.pool_eq
  | withdraw a amount =>
      obtain ⟨d, -⟩ := (execute_withdraw_iff ..).1 h
      exact isPool_of_eq d.accepted.pool_eq
  | withdrawDelegatedStake a amount =>
      obtain ⟨d, -⟩ := (execute_withdrawDelegatedStake_iff ..).1 h
      exact isPool_of_eq d.accepted.pool_eq
  | transferDelegateAuthority a =>
      obtain ⟨r, -, -, -, -, hseed, -, -⟩ := (transferDelegateAuthority_eq_ok_iff ..).1 h
      exact isPool_of_eq hseed
  | delegate a amount =>
      obtain ⟨d, -, -⟩ := (execute_delegate_iff ..).1 h
      exact isPool_of_eq d.accepted.pool_eq
  | undelegate a amount =>
      obtain ⟨d, -, -⟩ := (execute_undelegate_iff ..).1 h
      exact isPool_of_eq d.accepted.pool_eq
  | updateMintLimit a limit =>
      obtain ⟨r, -, -, -, -, hseed, -, -⟩ := (updateMintLimit_eq_ok_iff ..).1 h
      exact isPool_of_eq hseed

theorem accountKept_create {k j : Pubkey} {l : Ledger Pubkey} {b : TokenAccount Pubkey}
    (hnone : l.accounts j = none) : AccountKept k l (l.setAccount j (some b)) := by
  intro i a ha hheld
  have hne : i ≠ j := by
    rintro rfl
    rw [hnone] at ha
    cases ha
  refine ⟨a, ?_, hheld, rfl, rfl, Nat.le_refl _, rfl⟩
  rw [Ledger.setAccount_accounts, if_neg hne]
  exact ha

section Bystander

variable {findBump : Pubkey → UInt8} {k : Pubkey} {a : Action} {s s' : State}

/-- Only the delegate authority of a pool changes its record. -/
theorem recordChange_authority {p : Privileges Pubkey} {c : Call}
    (h : RecordChange findBump p s s' c) (hk : p.signer k = false) {pool : Pubkey} {r : LRTPool}
    (hr : s.pools pool = some r) (hauth : r.delegateAuthority = k) : s'.pools pool = some r := by
  -- the record that is written is another one, or its authority signed
  have hne : ∀ {b authority : Pubkey} {r₀ : LRTPool}, s.pools b = some r₀ →
      r₀.delegateAuthority = authority → p.signer authority = true → pool ≠ b := by
    rintro b authority r₀ hr₀ hauth₀ hsig rfl
    obtain rfl := Option.some.inj (hr.symm.trans hr₀)
    rw [← hauth₀, hauth, hk] at hsig
    cases hsig
  cases h with
  | kept c hset hpools => rw [hpools, hr]
  | created b limit hpool hnone hs' =>
      have hfree : pool ≠ b.pool := by
        rintro rfl
        rw [hnone] at hr
        cases hr
      rw [hs', s.setPool_pools_of_ne _ hfree.symm, hr]
  | transferred b r₀ hsig hr₀ hauth₀ hs' =>
      rw [hs', s.setPool_pools_of_ne _ (hne hr₀ hauth₀ hsig).symm, hr]
  | limitSet b limit r₀ hsig hr₀ hauth₀ hs' =>
      rw [hs', s.setPool_pools_of_ne _ (hne hr₀ hauth₀ hsig).symm, hr]

theorem attempt_untouched (hk : k.isProgramDerived = false)
    (hsig : a.privileges.signer k = false) (hpool : k.isPool = true → a.pool ≠ some k)
    (h : a.attempt findBump s = .ok s') : Untouched k s s' := by
  cases a with
  | call programs p c =>
      have hsig' : p.signer k = false := hsig
      have hne : k ≠ c.pool := by
        intro hkc
        refine hpool ?_ (congrArg some hkc.symm)
        rw [hkc]
        exact execute_isPool h
      have hceil : (ceiling p c.pool).signer k = false := by simp [ceiling, hsig', hne, hk]
      have hreach := execute_reach h
      exact ⟨reach_accountKept hceil hreach, reach_mintKept hceil hreach,
        fun pool r => recordChange_authority (execute_pools h) hsig',
        fun r hr => (execute_record_of_ne h hne.symm).trans hr⟩
  | token p program ix =>
      obtain ⟨-, -, l, hl, rfl⟩ := attempt_token_iff.1 h
      exact ⟨exec_accountKept hsig hl, exec_mintKept hsig hl, fun _ _ hr _ => hr, fun _ hr => hr⟩
  | create p key wallet tokenProgram mint =>
      obtain ⟨-, -, m, -, hnone, -, -, rfl⟩ := attempt_create_iff.1 h
      exact ⟨accountKept_create hnone, fun m => MintKept.refl k m s.ledger, fun _ _ hr _ => hr,
        fun _ hr => hr⟩

end Bystander

/-- Whatever others do, and whatever AVS programs do: a key that signs nothing keeps the accounts in
its hands with at least the same balance, the mints it is the authority of with at most the same
supply, and the records of the pools it delegates for. A pool keeps its own record as well, but no
instruction of that pool may run. -/
theorem bystander_untouched {findBump : Pubkey → UInt8} {k : Pubkey}
    (hk : k.isProgramDerived = false) {as : List Action}
    (has : ∀ a ∈ as, a.privileges.signer k = false ∧ (k.isPool = true → a.pool ≠ some k))
    (s : State) : Untouched k s (run findBump s as) :=
  Rollback.run_rel (I := fun _ => True) (Untouched.refl k) (fun _ _ _ => Untouched.trans)
    (fun _ _ _ _ _ _ => trivial)
    (fun a ha _ _ _ h => attempt_untouched hk (has a ha).1 (has a ha).2 h) trivial

/-! ## Wallets that trade -/

/-- No program derived the address, so only its private key signs for it. -/
structure Pubkey.Underived (k : Pubkey) : Prop where
  not_isReserved : k.isReserved = false
  not_isProgramDerived : k.isProgramDerived = false

theorem Pubkey.Underived.not_isPool {k : Pubkey} (h : k.Underived) : k.isPool = false :=
  not_isPool_of_not_isReserved h.not_isReserved

/-- What an instruction exchanges for a wallet: the wallet gives so many tokens of one mint and gets
as many of the other. -/
structure Trade where
  wallet : Pubkey
  given : Pubkey
  received : Pubkey
  amount : Nat

/-- The exchange that the signer of an instruction asks for. -/
def Call.trade : Call → Option Trade
  | .deposit a amount => some ⟨a.signer, a.inputTokenMint, a.outputTokenMint, amount.toNat⟩
  | .withdraw a amount => some ⟨a.signer, a.outputTokenMint, a.inputTokenMint, amount.toNat⟩
  | .withdrawDelegatedStake a amount =>
      some ⟨a.signer, a.outputTokenMint, a.inputTokenMint, amount.toNat⟩
  | _ => none

/-- The transaction only creates an associated account or trades within `mints`: what it gives a
mint of the set for is in the set too. -/
def Action.TradesWithin (mints : Finset Pubkey) : Action → Prop
  | .call _ _ c => ∀ t ∈ c.trade, t.given ∈ mints → t.received ∈ mints
  | .token _ _ _ => False
  | .create _ _ _ _ _ => True

/-- The two token programs. -/
def tokenPrograms : Finset Pubkey := {.program .token, .program .token2022}

/-- What the associated accounts of a wallet hold of the given mints. -/
def wealth (wallet : Pubkey) (mints : Finset Pubkey) (l : Ledger Pubkey) : Nat :=
  ∑ x ∈ tokenPrograms ×ˢ mints, l.balance (getAssociatedTokenAddress wallet x.1 x.2)

/-- No called program initializes an account at an address that is not its own: to be allocated, an
address must sign, unless it is the associated address of the owner that the account gets. -/
def AllocatesOwn (programs : Programs) : Prop :=
  ∀ x avsProgram name amount s l cs, AvsRun programs x avsProgram name amount s l cs →
    ∀ c ∈ cs, ∀ k ∈ Action.allocated c.2, (x.privileges avsProgram).signer k = true ∨
      ∃ mint owner, c.2 = .initializeAccount k mint owner ∧
        k = getAssociatedTokenAddress owner c.1 mint

theorem mem_tokenPrograms {k : Pubkey} : k ∈ tokenPrograms ↔ isTokenInterface k = true := by
  simp [tokenPrograms, isTokenInterface]

/-- An amount at one associated account counts for the wallet and the mint of the account. -/
theorem sum_at_associated (wallet owner tokenProgram mint : Pubkey) (mints : Finset Pubkey)
    (htp : isTokenInterface tokenProgram = true) (n : Nat) :
    ∑ x ∈ tokenPrograms ×ˢ mints, (if getAssociatedTokenAddress wallet x.1 x.2 =
        getAssociatedTokenAddress owner tokenProgram mint then n else 0) =
      if wallet = owner ∧ mint ∈ mints then n else 0 := by
  by_cases hw : wallet = owner
  · subst hw
    have hiff : ∀ x : Pubkey × Pubkey, (getAssociatedTokenAddress wallet x.1 x.2 =
        getAssociatedTokenAddress wallet tokenProgram mint) ↔ x = (tokenProgram, mint) := by
      intro x
      rw [getAssociatedTokenAddress_inj, Prod.ext_iff]
      exact and_iff_right rfl
    simp only [hiff, true_and]
    rw [Finset.sum_ite_eq']
    simp only [Finset.mem_product, mem_tokenPrograms, htp, true_and]
  · have hne : ∀ x : Pubkey × Pubkey, getAssociatedTokenAddress wallet x.1 x.2 ≠
        getAssociatedTokenAddress owner tokenProgram mint := by
      intro x heq
      exact hw (getAssociatedTokenAddress_inj.1 heq).1
    simp only [hne, if_false, hw, false_and, Finset.sum_const_zero]

/-! ### The accounts of the wallet -/

section Own

variable {wallet : Pubkey} {l l' : Ledger Pubkey}

theorem initIfNeeded_inOwnHands {p : Privileges Pubkey} {s s' : State}
    {payer k mint authority tokenProgram : Pubkey} {v : Loaded (TokenAccount Pubkey)}
    (hown : InOwnHands {wallet} s.ledger)
    (h : initIfNeeded p payer k mint authority tokenProgram s = .ok (v, s')) :
    InOwnHands {wallet} s'.ledger := by
  obtain ⟨-, rfl, -, ⟨rfl, -⟩ | ⟨-, -, -, hv, rfl, -⟩⟩ := (initIfNeeded_eq_ok_iff ..).1 h
  · exact hown
  · rw [hv]
    exact create_inOwnHands hown authority tokenProgram mint

/-- An instruction that the wallet did not sign, and that initializes no foreign account at one of
its addresses. -/
theorem exec_inOwnHands_of_allocates {p : Privileges Pubkey} {program : Pubkey}
    {ix : TokenIx Pubkey}
    (hsig : p.signer wallet = false)
    (halloc : ∀ k ∈ Action.allocated ix, p.signer k = true ∨ ∃ mint owner,
      ix = .initializeAccount k mint owner ∧ k = getAssociatedTokenAddress owner program mint)
    (hata : ∀ t m, p.signer (getAssociatedTokenAddress wallet t m) = false)
    (hown : InOwnHands {wallet} l) (h : exec p program ix l = .ok l') :
    InOwnHands {wallet} l' := by
  intro w t m b hw hb
  obtain rfl : wallet = w := (Set.mem_singleton_iff.1 hw).symm
  rcases exec_account_origin h hb with ⟨a, ha, -⟩ | ⟨-, hix, hfresh, -⟩
  · obtain ⟨a', ha', hheld, -⟩ := exec_accountKept hsig h _ a ha (hown wallet t m a rfl ha)
    obtain rfl := Option.some.inj (hb.symm.trans ha')
    exact hheld
  · rcases halloc (getAssociatedTokenAddress wallet t m) (by rw [hix]; rfl) with
      hk | ⟨mint, owner, hix', heq⟩
    · rw [hata t m] at hk
      cases hk
    · -- the new account belongs to the wallet of its address
      obtain ⟨howner, -, -⟩ := getAssociatedTokenAddress_inj.1 heq
      rw [hix] at hix'
      obtain ⟨-, -, rfl⟩ := TokenIx.initializeAccount.inj hix'
      rw [hfresh]
      exact ⟨howner.symm, rfl, Or.inl rfl⟩

theorem InOwnHands.balance_le (hown : InOwnHands {wallet} l) (h : AccountKept wallet l l')
    (t m : Pubkey) : l.balance (getAssociatedTokenAddress wallet t m) ≤
      l'.balance (getAssociatedTokenAddress wallet t m) := by
  cases ha : l.accounts (getAssociatedTokenAddress wallet t m) with
  | none =>
      rw [Ledger.balance, ha]
      exact Nat.zero_le _
  | some a =>
      obtain ⟨a', ha', -, -, -, hle, -⟩ := h _ a ha (hown wallet t m a rfl ha)
      rw [Ledger.balance_of_some ha, Ledger.balance_of_some ha']
      exact hle

end Own

section Avs

variable {wallet : Pubkey} {x : AvsAccounts} {avsProgram : Pubkey}

/-- A called program signs for its pool and for addresses it derived, so neither for a wallet nor
for an associated address. -/
theorem AvsAccounts.not_signer (avsProgram : Pubkey) (hpool : x.pool.isPool = true) {k : Pubkey}
    (hk : k.isPool = false) (hderived : k.isProgramDerived = false) :
    (x.privileges avsProgram).signer k = false := by
  rw [Bool.eq_false_iff]
  intro hsig
  rcases (x.privileges_signer avsProgram k).1 hsig with rfl | ⟨-, hc⟩
  · rw [hpool] at hk
    cases hk
  · rw [Pubkey.isProgramDerived_of_controls hc] at hderived
    cases hderived

variable {programs : Programs} {name : InstructionName} {amount : UInt64} {s : State}
  {l : Ledger Pubkey} {cs : List (Pubkey × TokenIx Pubkey)}

theorem AvsRun.inOwnHands (h : AvsRun programs x avsProgram name amount s l cs)
    (halloc : AllocatesOwn programs) (hpool : x.pool.isPool = true)
    (hw : wallet.Underived) (hown : InOwnHands {wallet} s.ledger) : InOwnHands {wallet} l := by
  refine execAll_invariant h.execAll_eq hown fun c hc m n hm hix => ?_
  have hsig := AvsAccounts.not_signer avsProgram hpool hw.not_isPool hw.not_isProgramDerived
  have hata := fun t mint => AvsAccounts.not_signer avsProgram hpool
    (k := getAssociatedTokenAddress wallet t mint) rfl rfl
  exact exec_inOwnHands_of_allocates hsig (halloc _ _ _ _ _ _ _ h c hc) hata hm hix

/-- Whatever the AVS program does, the wallet has at least as much afterwards. -/
theorem AvsRun.own_balance (h : AvsRun programs x avsProgram name amount s l cs)
    (hpool : x.pool.isPool = true) (hw : wallet.Underived)
    (hown : InOwnHands {wallet} s.ledger) (t m : Pubkey) :
    s.ledger.balance (getAssociatedTokenAddress wallet t m) ≤
      l.balance (getAssociatedTokenAddress wallet t m) :=
  hown.balance_le (reach_accountKept
    (AvsAccounts.not_signer avsProgram hpool hw.not_isPool hw.not_isProgramDerived)
    (reach_of_execAll h.execAll_eq)) t m

end Avs

/-! ### One instruction -/

theorem reach_feeFree {p : Privileges Pubkey} {l l' : Ledger Pubkey} (hf : l.FeeFree)
    (h : Reach p l l') : l'.FeeFree :=
  reach_invariant h hf fun _ _ _ _ hm hix => exec_feeFree hm hix

section Step

variable {rt : Runtime} {p : Privileges Pubkey} {wallet : Pubkey} {s s' : State}

/-- What the associated accounts of a wallet hold before and after an exchange, at least. -/
def Trade.Settled (t : Trade) (tokenProgram wallet : Pubkey) (l l' : Ledger Pubkey) : Prop :=
  ∀ tp m, l.balance (getAssociatedTokenAddress wallet tp m) +
      (if getAssociatedTokenAddress wallet tp m =
        getAssociatedTokenAddress t.wallet tokenProgram t.received then t.amount else 0) ≤
    l'.balance (getAssociatedTokenAddress wallet tp m) +
      (if getAssociatedTokenAddress wallet tp m =
        getAssociatedTokenAddress t.wallet tokenProgram t.given then t.amount else 0)

theorem deposit_settled {a : DepositAccounts} {amount : UInt64} (hf : s.ledger.FeeFree)
    (d : DepositRun p a amount s) :
    Trade.Settled ⟨a.signer, a.inputTokenMint, a.outputTokenMint, amount.toNat⟩ a.tokenProgram
      wallet s.ledger d.minted := by
  intro tp m
  have hf₀ := initIfNeeded_feeFree hf d.init_eq
  have hf₁ := exec_feeFree hf₀ d.stake_eq
  have h₀ := initIfNeeded_balance d.init_eq (getAssociatedTokenAddress wallet tp m)
  have h₁ := process_balance hf₀ ((exec_eq_ok_iff ..).1 d.stake_eq).2
    (getAssociatedTokenAddress wallet tp m)
  have h₂ := process_balance hf₁ ((exec_eq_ok_iff ..).1 d.mint_eq).2
    (getAssociatedTokenAddress wallet tp m)
  -- the accounts of the signer are associated ones, so the two transfers count for its wallet
  have hout := ((initIfNeeded_eq_ok_iff ..).1 d.init_eq).2.1
  simp only [TokenIx.debited, TokenIx.credited, hout, d.accepted.signerInput_key] at h₁ h₂ ⊢
  omega

theorem withdraw_settled {a : WithdrawAccounts} {amount : UInt64} (hf : s.ledger.FeeFree)
    (hw : wallet.Underived) (d : WithdrawRun id p a amount s) :
    Trade.Settled ⟨a.signer, a.outputTokenMint, a.inputTokenMint, amount.toNat⟩ a.tokenProgram
      wallet s.ledger d.paid := by
  intro tp m
  have hf₁ := exec_feeFree hf d.burn_eq
  have h₁ := process_balance hf ((exec_eq_ok_iff ..).1 d.burn_eq).2
    (getAssociatedTokenAddress wallet tp m)
  have h₂ := process_balance hf₁ ((exec_eq_ok_iff ..).1 d.pay_eq).2
    (getAssociatedTokenAddress wallet tp m)
  have hvault : getAssociatedTokenAddress wallet tp m ≠ a.poolInputTokenVault :=
    associated_ne_of_wallet rfl d.accepted.poolInput_key
      (Pubkey.ne_of_not_isPool (isPool_of_eq d.accepted.pool_eq) hw.not_isPool)
  simp only [TokenIx.debited, TokenIx.credited, hvault, if_false, id_eq,
    d.accepted.signerOutput_key, d.accepted.signerInput_key] at h₁ h₂ ⊢
  omega

theorem withdrawStake_settled {a : WithdrawStakeAccounts} {amount : UInt64}
    (hf : s.ledger.FeeFree) (hw : wallet.Underived) (hown : InOwnHands {wallet} s.ledger)
    (d : WithdrawStakeRun id rt p a amount s) :
    Trade.Settled ⟨a.signer, a.outputTokenMint, a.inputTokenMint, amount.toNat⟩ a.tokenProgram
      wallet s.ledger d.paid := by
  intro tp m
  have hpool := isPool_of_eq d.accepted.pool_eq
  have hf₀ := initIfNeeded_feeFree hf d.init_eq
  have hf₁ := exec_feeFree hf₀ d.burn_eq
  have hf₂ : d.undelegated.FeeFree := execAll_feeFree hf₁ d.avs.execAll_eq
  have hown₁ : InOwnHands {wallet} d.burned :=
    fundsMoved_inOwnHands (initIfNeeded_inOwnHands hown d.init_eq)
      (exec_fundsMoved rfl d.burn_eq)
  have h₀ := initIfNeeded_balance d.init_eq (getAssociatedTokenAddress wallet tp m)
  have h₁ := process_balance hf₀ ((exec_eq_ok_iff ..).1 d.burn_eq).2
    (getAssociatedTokenAddress wallet tp m)
  -- in between the AVS can only add to the accounts of the wallet
  have h₂ : d.burned.balance (getAssociatedTokenAddress wallet tp m) ≤
      d.undelegated.balance (getAssociatedTokenAddress wallet tp m) :=
    d.avs.own_balance hpool hw hown₁ tp m
  have h₃ := process_balance hf₂ ((exec_eq_ok_iff ..).1 d.pay_eq).2
    (getAssociatedTokenAddress wallet tp m)
  have hvault : getAssociatedTokenAddress wallet tp m ≠ a.poolInputTokenVault :=
    associated_ne_of_wallet rfl d.accepted.poolInput_key
      (Pubkey.ne_of_not_isPool hpool hw.not_isPool)
  have hin := ((initIfNeeded_eq_ok_iff ..).1 d.init_eq).2.1
  simp only [TokenIx.debited, TokenIx.credited, hvault, if_false, id_eq,
    d.accepted.signerOutput_key, hin] at h₁ h₂ h₃ ⊢
  omega

/-- A successful instruction settles the exchange it is for, and takes nothing else from a
wallet. -/
theorem execute_settled {c : Call} (h : rt.execute p c s = .ok s') (hf : s.ledger.FeeFree)
    (hw : wallet.Underived) (hown : InOwnHands {wallet} s.ledger) :
    (∀ tp m, s.ledger.balance (getAssociatedTokenAddress wallet tp m) ≤
      s'.ledger.balance (getAssociatedTokenAddress wallet tp m)) ∨
    ∃ t ∈ c.trade, ∃ tokenProgram, isTokenInterface tokenProgram = true ∧
      t.Settled tokenProgram wallet s.ledger s'.ledger := by
  cases c with
  | initializePool a limit =>
      obtain ⟨im, pv, om, -, rfl⟩ := (initializePool_eq_ok_iff ..).1 h
      exact Or.inl fun _ _ => Nat.le_refl _
  | deposit a amount =>
      obtain ⟨d, rfl⟩ := (execute_deposit_iff ..).1 h
      exact Or.inr ⟨_, rfl, _, d.accepted.tokenProgram, deposit_settled hf d⟩
  | withdraw a amount =>
      obtain ⟨d, rfl⟩ := (execute_withdraw_iff ..).1 h
      exact Or.inr ⟨_, rfl, _, d.accepted.tokenProgram, withdraw_settled hf hw d⟩
  | withdrawDelegatedStake a amount =>
      obtain ⟨d, rfl⟩ := (execute_withdrawDelegatedStake_iff ..).1 h
      exact Or.inr ⟨_, rfl, _, d.accepted.tokenProgram, withdrawStake_settled hf hw hown d⟩
  | transferDelegateAuthority a =>
      obtain ⟨r, -, -, -, -, -, -, rfl⟩ := (transferDelegateAuthority_eq_ok_iff ..).1 h
      exact Or.inl fun _ _ => Nat.le_refl _
  | delegate a amount =>
      obtain ⟨d, -, rfl⟩ := (execute_delegate_iff ..).1 h
      -- only the AVS moves funds, and it has no say over the accounts of the wallet
      refine Or.inl fun tp m => ?_
      rw [← initIfNeeded_balance d.init_eq]
      exact d.avs.own_balance (isPool_of_eq d.accepted.pool_eq) hw
        (initIfNeeded_inOwnHands hown d.init_eq) tp m
  | undelegate a amount =>
      obtain ⟨d, -, rfl⟩ := (execute_undelegate_iff ..).1 h
      refine Or.inl fun tp m => ?_
      rw [← initIfNeeded_balance d.init_eq]
      exact d.avs.own_balance (isPool_of_eq d.accepted.pool_eq) hw
        (initIfNeeded_inOwnHands hown d.init_eq) tp m
  | updateMintLimit a limit =>
      obtain ⟨r, -, -, -, -, -, -, rfl⟩ := (updateMintLimit_eq_ok_iff ..).1 h
      exact Or.inl fun _ _ => Nat.le_refl _

theorem execute_inOwnHands {c : Call} (h : rt.execute p c s = .ok s')
    (halloc : AllocatesOwn rt.programs) (hw : wallet.Underived)
    (hown : InOwnHands {wallet} s.ledger) : InOwnHands {wallet} s'.ledger := by
  cases c with
  | initializePool a limit =>
      obtain ⟨im, pv, om, -, rfl⟩ := (initializePool_eq_ok_iff ..).1 h
      exact hown
  | deposit a amount =>
      obtain ⟨d, rfl⟩ := (execute_deposit_iff ..).1 h
      have hown₀ := initIfNeeded_inOwnHands hown d.init_eq
      exact fundsMoved_inOwnHands hown₀
        ((exec_fundsMoved rfl d.stake_eq).trans (exec_fundsMoved rfl d.mint_eq))
  | withdraw a amount =>
      obtain ⟨d, rfl⟩ := (execute_withdraw_iff ..).1 h
      exact fundsMoved_inOwnHands hown
        ((exec_fundsMoved rfl d.burn_eq).trans (exec_fundsMoved rfl d.pay_eq))
  | withdrawDelegatedStake a amount =>
      obtain ⟨d, rfl⟩ := (execute_withdrawDelegatedStake_iff ..).1 h
      have hown₁ : InOwnHands {wallet} d.burned :=
        fundsMoved_inOwnHands (initIfNeeded_inOwnHands hown d.init_eq)
          (exec_fundsMoved rfl d.burn_eq)
      have hown₂ := d.avs.inOwnHands halloc (isPool_of_eq d.accepted.pool_eq) hw hown₁
      exact fundsMoved_inOwnHands hown₂ (exec_fundsMoved rfl d.pay_eq)
  | transferDelegateAuthority a =>
      obtain ⟨r, -, -, -, -, -, -, rfl⟩ := (transferDelegateAuthority_eq_ok_iff ..).1 h
      exact hown
  | delegate a amount =>
      obtain ⟨d, -, rfl⟩ := (execute_delegate_iff ..).1 h
      exact d.avs.inOwnHands halloc (isPool_of_eq d.accepted.pool_eq) hw
        (initIfNeeded_inOwnHands hown d.init_eq)
  | undelegate a amount =>
      obtain ⟨d, -, rfl⟩ := (execute_undelegate_iff ..).1 h
      exact d.avs.inOwnHands halloc (isPool_of_eq d.accepted.pool_eq) hw
        (initIfNeeded_inOwnHands hown d.init_eq)
  | updateMintLimit a limit =>
      obtain ⟨r, -, -, -, -, -, -, rfl⟩ := (updateMintLimit_eq_ok_iff ..).1 h
      exact hown

end Step

/-! ### Runs -/

/-- Giving and getting the same amount within the set is no loss. -/
theorem Trade.Settled.wealth_le {t : Trade} {tokenProgram wallet : Pubkey} {l l' : Ledger Pubkey}
    {mints : Finset Pubkey} (h : t.Settled tokenProgram wallet l l')
    (htp : isTokenInterface tokenProgram = true)
    (hm : t.wallet = wallet → t.given ∈ mints → t.received ∈ mints) :
    wealth wallet mints l ≤ wealth wallet mints l' := by
  have hsum := Finset.sum_le_sum fun x (_ : x ∈ tokenPrograms ×ˢ mints) => h x.1 x.2
  rw [Finset.sum_add_distrib, Finset.sum_add_distrib,
    sum_at_associated wallet t.wallet tokenProgram t.received mints htp,
    sum_at_associated wallet t.wallet tokenProgram t.given mints htp] at hsum
  have hgain : (if wallet = t.wallet ∧ t.given ∈ mints then t.amount else 0) ≤
      if wallet = t.wallet ∧ t.received ∈ mints then t.amount else 0 := by
    split
    · next hgiven =>
        rw [if_pos ⟨hgiven.1, hm hgiven.1.symm hgiven.2⟩]
    · exact Nat.zero_le _
  simp only [wealth]
  omega

section Run

variable {findBump : Pubkey → UInt8} {wallet : Pubkey} {mints : Finset Pubkey} {a : Action}
  {s s' : State}

theorem attempt_wallet_feeFree (hf : s.ledger.FeeFree) (h : a.attempt findBump s = .ok s') :
    s'.ledger.FeeFree := by
  cases a with
  | call programs p c => exact reach_feeFree hf (execute_reach h)
  | token p program ix =>
      obtain ⟨-, -, l, hl, rfl⟩ := attempt_token_iff.1 h
      exact exec_feeFree hf hl
  | create p key owner tokenProgram mint =>
      obtain ⟨-, -, m, -, -, -, -, rfl⟩ := attempt_create_iff.1 h
      exact hf

/-- A transaction of the run: it is signed from outside, the AVS programs allocate their own
addresses only, and what `wallet` signs trades within `mints`. -/
structure Action.Trading (wallet : Pubkey) (mints : Finset Pubkey) (a : Action) : Prop where
  fromOutside : a.FromOutside
  allocates : a.Uses AllocatesOwn
  trades : a.privileges.signer wallet = true → a.TradesWithin mints

theorem attempt_inOwnHands_of_allocates (hw : wallet.Underived) (ha : a.Trading wallet mints)
    (h : a.attempt findBump s = .ok s') (hown : InOwnHands {wallet} s.ledger) :
    InOwnHands {wallet} s'.ledger := by
  cases a with
  | call programs p c => exact execute_inOwnHands h ha.allocates hw hown
  | token p program ix =>
      obtain ⟨-, halloc, l, hl, rfl⟩ := attempt_token_iff.1 h
      have hsig : p.signer wallet = false := Bool.eq_false_iff.2 ha.trades
      have hata : ∀ t m, p.signer (getAssociatedTokenAddress wallet t m) = false :=
        fun t m => not_signer_of_isReserved ha.fromOutside rfl
      exact exec_inOwnHands_of_allocates hsig (fun k hk => Or.inl (halloc k hk)) hata hown hl
  | create p key owner tokenProgram mint =>
      obtain ⟨-, rfl, m, -, -, -, -, rfl⟩ := attempt_create_iff.1 h
      exact create_inOwnHands hown owner tokenProgram mint

theorem attempt_wealth (hw : wallet.Underived) (ha : a.Trading wallet mints)
    (h : a.attempt findBump s = .ok s') (hf : s.ledger.FeeFree)
    (hown : InOwnHands {wallet} s.ledger) :
    wealth wallet mints s.ledger ≤ wealth wallet mints s'.ledger := by
  cases a with
  | call programs p c =>
      rcases execute_settled h hf hw hown with hle | ⟨t, ht, tokenProgram, htp, hsettled⟩
      · exact Finset.sum_le_sum fun x _ => hle x.1 x.2
      · refine hsettled.wealth_le htp fun htw => ?_
        -- the trader signed, so the wallet can only be the trader in a trade of its own
        have hsig : p.signer wallet = true := by
          rw [← htw]
          cases c with
          | deposit b amount =>
              obtain ⟨d, -⟩ := (execute_deposit_iff ..).1 h
              obtain rfl := Option.some.inj ht
              exact d.accepted.signer
          | withdraw b amount =>
              obtain ⟨d, -⟩ := (execute_withdraw_iff ..).1 h
              obtain rfl := Option.some.inj ht
              exact d.accepted.signer
          | withdrawDelegatedStake b amount =>
              obtain ⟨d, -⟩ := (execute_withdrawDelegatedStake_iff ..).1 h
              obtain rfl := Option.some.inj ht
              exact d.accepted.signer
          | _ => cases ht
        exact ha.trades hsig t ht
  | token p program ix =>
      obtain ⟨-, -, l, hl, rfl⟩ := attempt_token_iff.1 h
      have hsig : p.signer wallet = false := Bool.eq_false_iff.2 ha.trades
      exact Finset.sum_le_sum fun x _ => hown.balance_le (exec_accountKept hsig hl) x.1 x.2
  | create p key owner tokenProgram mint =>
      obtain ⟨-, rfl, m, -, hnone, -, -, rfl⟩ := attempt_create_iff.1 h
      exact Finset.sum_le_sum fun x _ => hown.balance_le (accountKept_create hnone) x.1 x.2

end Run

/-- Whatever others and the AVS programs do, a wallet that only trades within `mints` never has less
of these tokens than at the start, if no mint takes a transfer fee and nobody else has a hand in its
associated accounts. -/
theorem trades_keep_wealth {findBump : Pubkey → UInt8} {wallet : Pubkey}
    (hw : wallet.Underived) {mints : Finset Pubkey} {as : List Action}
    (has : ∀ a ∈ as, a.Trading wallet mints) {s : State} (hf : s.ledger.FeeFree)
    (hown : InOwnHands {wallet} s.ledger) :
    wealth wallet mints s.ledger ≤ wealth wallet mints (run findBump s as).ledger :=
  Rollback.run_rel (I := fun t : State => t.ledger.FeeFree ∧ InOwnHands {wallet} t.ledger)
    (R := fun t u : State => wealth wallet mints t.ledger ≤ wealth wallet mints u.ledger)
    (fun _ => Nat.le_refl _) (fun _ _ _ => Nat.le_trans)
    (fun a ha _ _ ht h =>
      ⟨attempt_wallet_feeFree ht.1 h, attempt_inOwnHands_of_allocates hw (has a ha) h ht.2⟩)
    (fun a ha _ _ ht h => attempt_wealth hw (has a ha) h ht.1 ht.2) ⟨hf, hown⟩

/-- Programs that initialize nothing. -/
theorem allocatesOwn_of_movesFunds {programs : Programs}
    (h : ∀ avsProgram x name amount s cs,
      programs avsProgram (avsInstruction avsProgram name x amount) s = some cs →
        ∀ c ∈ cs, c.2.movesFunds = true) : AllocatesOwn programs := by
  intro x avsProgram name amount s l cs hrun c hc k hk
  have hmoves := h _ _ _ _ _ cs hrun.programs_eq c hc
  cases hix : c.2 with
  | initializeMint mint decimals mintAuthority freezeAuthority =>
      rw [hix] at hmoves
      cases hmoves
  | initializeAccount account mint owner =>
      rw [hix] at hmoves
      cases hmoves
  | _ =>
      rw [hix] at hk
      cases hk

namespace Sample

/-- The authority delegates to an AVS whose program empties the vault. -/
def robbery : Action := .call thief (signedBy authority) (.delegate delegation 10)

example :
    operating.ledger.balance (getAssociatedTokenAddress pool tokenProgram inputMint) = 40 ∧
      (run findBump operating [robbery]).ledger.balance
        (getAssociatedTokenAddress pool tokenProgram inputMint) = 0 := by
  decide

/-- The vault of the pool is emptied, and the user, who did not sign, still has the output
tokens. -/
theorem user_untouched : Untouched user operating (run findBump operating [robbery]) := by
  refine bystander_untouched rfl ?_ operating
  intro a ha
  obtain rfl := List.mem_singleton.1 ha
  exact ⟨by decide, fun hpool => by cases hpool⟩

theorem thief_allocatesOwn : AllocatesOwn thief := by
  refine allocatesOwn_of_movesFunds fun avsProgram x name amount s cs hcs c hc => ?_
  obtain rfl := Option.some.inj hcs
  obtain rfl := List.mem_singleton.1 hc
  rfl

theorem registry_allocatesOwn : AllocatesOwn registry.programs := by
  refine allocatesOwn_of_movesFunds fun avsProgram x name amount s cs hcs c hc => ?_
  obtain ⟨-, rfl⟩ := Registry.programs_eq_some_iff.1 hcs
  exact exchange_movesFunds x _ name c hc

theorem user_ownHands : InOwnHands {user} ledger :=
  inOwnHands_ofLists (by decide) _

/-- The user trades with the pool, which is robbed in between. -/
def trading : List Action :=
  [initialization 1000, deposit 80, robbery, withdrawal 20,
    .call thief (signedBy user) (.withdrawDelegatedStake exit 30)]

/-- The user still has a hundred tokens of the two mints. -/
theorem user_wealth : 100 ≤ wealth user {inputMint, outputMint}
    (run findBump (deployed ledger) trading).ledger := by
  have huser := signedBy_outside (k := user) rfl
  have hauthority := signedBy_outside (k := authority) rfl
  have hstart : wealth user {inputMint, outputMint} (deployed ledger).ledger = 100 := by decide
  rw [← hstart]
  refine trades_keep_wealth ⟨rfl, rfl⟩ ?_ ledger_feeFree user_ownHands
  intro a ha
  simp only [trading, List.mem_cons, List.not_mem_nil, or_false] at ha
  rcases ha with rfl | rfl | rfl | rfl | rfl
  · exact ⟨hauthority, registry_allocatesOwn, fun hsig => absurd hsig (by decide)⟩
  · refine ⟨huser, registry_allocatesOwn, fun _ t ht _ => ?_⟩
    obtain rfl := Option.some.inj ht
    decide
  · exact ⟨hauthority, thief_allocatesOwn, fun hsig => absurd hsig (by decide)⟩
  · refine ⟨huser, registry_allocatesOwn, fun _ t ht _ => ?_⟩
    obtain rfl := Option.some.inj ht
    decide
  · refine ⟨huser, thief_allocatesOwn, fun _ t ht _ => ?_⟩
    obtain rfl := Option.some.inj ht
    decide

end Sample

end AdraLrt
