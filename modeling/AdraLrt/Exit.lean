import AdraLrt.Enabled
import AdraLrt.MintLimit
import AdraLrt.Redemption

/-!
# Every holder can exit

In every state that a run reaches, a holder of output tokens can turn any part of them into input
tokens with withdrawals and forced exits alone, signed by nobody else. One call may not be enough:
the vault may be short, and each AVS position may be smaller than the amount. The calls are found by
recursion on the amount that is left. As long as the vault does not cover it, backing says that some
AVS position is not empty, and a forced exit takes what it can from there (`Exitable.exists_step`).

The AVSs are honest and honour every undelegation of tokens that the pool holds (`AlwaysHonours`).
-/

set_option autoImplicit false

namespace AdraLrt

open TokenLedger Checked

/-! ## Backing of every pool -/

/-- Every pool whose mints are not AVS mints has assets for its output tokens, and a pool that gives
out its own input token has given out nothing. -/
def AllBacked (avsMints : Finset Pubkey) (s : State) : Prop :=
  ∀ pool r tokenProgram, s.pools pool = some r →
    PoolSound s.ledger tokenProgram pool r.inputTokenMint r.outputTokenMint →
    r.inputTokenMint ∉ avsMints → r.outputTokenMint ∉ avsMints →
    s.ledger.supply r.outputTokenMint ≤ assets avsMints tokenProgram pool r.inputTokenMint s ∧
      (r.inputTokenMint = r.outputTokenMint → s.ledger.supply r.outputTokenMint = 0)

section Backed

variable {findBump : Pubkey → UInt8} {avss : Set Pubkey} {avsMints : Finset Pubkey}
  {a : Action} {s s' : State}

/-- A pool has one token program. -/
theorem PoolSound.tokenProgram_unique {l : Ledger Pubkey} {t t' pool pool' im om om' : Pubkey}
    (h : PoolSound l t pool im om) (h' : PoolSound l t' pool' im om') : t = t' := by
  obtain ⟨x, -, hx, hp, -⟩ := h.mints
  rw [← hp]
  exact h'.inputMint_program hx

/-- A pool that gives out its own input token cannot take any in. -/
theorem attempt_selfless {tokenProgram pool mint : Pubkey} (hp : a.FromOutside)
    (hu : a.Uses (HonestPrograms avss avsMints))
    (hs : Backable tokenProgram pool mint mint findBump s) (h : a.attempt findBump s = .ok s')
    (hzero : s.ledger.supply mint = 0) :
    s'.ledger.supply mint = 0 := by
  obtain ⟨r, hr, hi, ho⟩ := hs.record
  have hisPool := hs.sound.home.isPool hr
  obtain ⟨-, om, -, -, hom, -, hauth, -, -⟩ := hs.pool.mints
  have hquiet : NothingMinted pool mint s.ledger s'.ledger → s'.ledger.supply mint = 0 := by
    intro hn
    obtain ⟨-, hle⟩ := hn ⟨om, hom, hauth⟩
    omega
  cases a with
  | call programs p c =>
      rcases call_nothingMinted h (HonestPrograms.exchangesOnly hu) hisPool ⟨om, hom, hauth⟩ with
        hn | ⟨-, b, amount, rfl, rfl, hb⟩
      · exact hquiet hn
      · obtain ⟨-, hsupply, -, -⟩ := deposit_supply h
        obtain ⟨d, -⟩ := (execute_deposit_iff ..).1 h
        have hinput : b.inputTokenMint = mint := by
          obtain rfl := Option.some.inj (hr.symm.trans d.accepted.pool_some)
          exact d.accepted.inputMint_eq.trans hi
        -- the signer holds none of the tokens to be deposited
        have hfunds : amount.toNat = 0 := by
          obtain ⟨src, dst, fee, hok⟩ :=
            (processTransfer_eq_ok_iff ..).1 ((exec_eq_ok_iff ..).1 d.stake_eq).2
          have hsrc := initIfNeeded_account_of_some d.init_eq d.accepted.signerInput_some
          obtain rfl := Option.some.inj (hsrc.symm.trans hok.source_some)
          have hcover := hs.sound.ledger.conserved.balance_le d.accepted.signerInput_some
          rw [hs.sound.ledger.associated _ _ _ _
            (d.accepted.signerInput_key ▸ d.accepted.signerInput_some), hinput, hzero] at hcover
          have hle := hok.funds
          omega
        rw [hb] at hsupply
        omega
  | token p program ix =>
      obtain ⟨-, -, l, hl, rfl⟩ := attempt_token_iff.1 h
      have hsupply :=
        exec_supply_of_authority (hp.notSignedBy_pools _ hisPool) hl hom hauth
      show l.supply mint = 0
      omega
  | create p key wallet t m =>
      obtain ⟨-, -, x, -, -, -, -, rfl⟩ := attempt_create_iff.1 h
      exact hzero

theorem attempt_allBacked (hp : a.FromOutside) (hu : a.Uses (HonestPrograms avss avsMints))
    (hs : Sound findBump s) (hf : s.ledger.FeeFree) (h : a.attempt findBump s = .ok s')
    (hb : AllBacked avsMints s) : AllBacked avsMints s' := by
  intro pool r' tokenProgram hr' hpool' hin hout
  rcases attempt_record_origin h hr' with
    ⟨r, hr, hi, ho⟩ | ⟨programs, p, b, limit, rfl, rfl, hi, ho⟩
  · -- the record was there, so backing carries over
    rw [hi, ho] at hpool' ⊢
    rw [hi] at hin
    rw [ho] at hout
    obtain ⟨t, hpool⟩ := hs.pools pool r hr
    have hkept := attempt_poolSound (hs.home.isPool hr) hp hu.fundsOnly h hs.ledger hpool
    obtain rfl := hkept.tokenProgram_unique hpool'
    have hback : Backable t pool r.inputTokenMint r.outputTokenMint findBump s :=
      ⟨hs, hf, ⟨r, hr, rfl, rfl⟩, hpool⟩
    obtain ⟨hle, hself⟩ := hb pool r t hr hpool hin hout
    have hstep := attempt_backing hp hu hin hout hback h
    refine ⟨by omega, fun heq => ?_⟩
    rw [heq] at hback
    exact attempt_selfless hp hu hback h (hself heq)
  · -- a new pool has no output tokens yet
    obtain ⟨im, v, om, hacc, rfl⟩ := (initializePool_eq_ok_iff ..).1 h
    have hzero : s.ledger.supply r'.outputTokenMint = 0 := by
      rw [ho]
      exact (Ledger.supply_of_some hacc.outputMint_some).trans hacc.outputMint_supply
    refine ⟨?_, fun _ => hzero⟩
    show s.ledger.supply r'.outputTokenMint ≤ _
    omega

variable (findBump) in
theorem run_allBacked {as : List Action} {l : Ledger Pubkey} (hl : LedgerSound l) (hf : l.FeeFree)
    (has : ∀ x ∈ as, x.FromOutside ∧ x.Uses (HonestPrograms avss avsMints)) :
    Sound findBump (run findBump (deployed l) as) ∧
      (run findBump (deployed l) as).ledger.FeeFree ∧
      AllBacked avsMints (run findBump (deployed l) as) := by
  refine Rollback.run_invariant (I := fun t : State => Sound findBump t ∧ t.ledger.FeeFree ∧
    AllBacked avsMints t) ?_ ⟨sound_deployed findBump hl, hf, fun _ _ _ hr => by cases hr⟩
  rintro x hx t t' ⟨ht, hft, hbt⟩ h
  obtain ⟨hp, hu⟩ := has x hx
  exact ⟨attempt_sound hp hu.fundsOnly h ht, attempt_feeFree hft hu.fundsOnly h,
    attempt_allBacked hp hu ht hft h hbt⟩

end Backed

/-! ## States to exit from -/

/-- The wallet has its associated account for the mint. -/
def Holds (l : Ledger Pubkey) (wallet tokenProgram mint : Pubkey) : Prop :=
  ∃ a, l.accounts (getAssociatedTokenAddress wallet tokenProgram mint) = some a ∧
    a.owner = wallet

/-- A state from which `user`, who is neither a pool nor an AVS, can leave the pool. -/
structure Exitable (findBump : Pubkey → UInt8) (programs : Programs) (avss : Set Pubkey)
    (avsMints : Finset Pubkey) (tokenProgram pool : Pubkey) (r : LRTPool) (user : Pubkey)
    (s : State) : Prop where
  outside : user.isReserved = false
  apart : user ∉ avss
  sound : Sound findBump s
  feeFree : s.ledger.FeeFree
  backed : AllBacked avsMints s
  record : s.pools pool = some r
  terms : PoolSound s.ledger tokenProgram pool r.inputTokenMint r.outputTokenMint
  thawed : Thawed s.ledger
  input : Holds s.ledger user tokenProgram r.inputTokenMint
  output : Holds s.ledger user tokenProgram r.outputTokenMint
  honours : AlwaysHonours findBump programs avss avsMints tokenProgram pool r.inputTokenMint s

theorem Exitable.user_ne {findBump : Pubkey → UInt8} {programs : Programs} {avss : Set Pubkey}
    {avsMints : Finset Pubkey} {tokenProgram pool : Pubkey} {r : LRTPool} {user : Pubkey}
    {s : State} (hs : Exitable findBump programs avss avsMints tokenProgram pool r user s) :
    user ≠ pool :=
  Pubkey.ne_of_not_isReserved (hs.sound.home.isPool hs.record) hs.outside

/-- The instruction is a withdrawal or a forced exit of `user` from `pool`. -/
def Call.IsExit (user pool : Pubkey) : Call → Prop
  | .withdraw a _ => a.signer = user ∧ a.pool = pool
  | .withdrawDelegatedStake a _ => a.signer = user ∧ a.pool = pool
  | _ => False

/-- The amount of the instruction. -/
def Call.amount : Call → Nat
  | .deposit _ amount => amount.toNat
  | .withdraw _ amount => amount.toNat
  | .withdrawDelegatedStake _ amount => amount.toNat
  | .delegate _ amount => amount.toNat
  | .undelegate _ amount => amount.toNat
  | _ => 0

section Step

variable {findBump : Pubkey → UInt8} {programs : Programs} {avss : Set Pubkey}
  {avsMints : Finset Pubkey} {tokenProgram pool : Pubkey} {r : LRTPool} {user : Pubkey} {c : Call}
  {s s' : State}

/-- Nobody but the user signs an exit. -/
theorem Call.IsExit.signer (hc : c.IsExit user pool) {k : Pubkey}
    (hk : (transaction c.metas).signer k = true) : k = user := by
  cases c with
  | withdraw a amount =>
      refine transaction_signer_all (P := (· = user)) ?_ hk
      simp [Call.metas, WithdrawAccounts.metas, accountMeta, readonlyMeta, hc.1]
  | withdrawDelegatedStake a amount =>
      refine transaction_signer_all (P := (· = user)) ?_ hk
      simp [Call.metas, WithdrawStakeAccounts.metas, accountMeta, readonlyMeta, hc.1]
  | initializePool a limit => exact hc.elim
  | deposit a amount => exact hc.elim
  | transferDelegateAuthority a => exact hc.elim
  | delegate a amount => exact hc.elim
  | undelegate a amount => exact hc.elim
  | updateMintLimit a limit => exact hc.elim

theorem Call.IsExit.fromOutside (hc : c.IsExit user pool) (huser : user.isReserved = false) :
    (Action.call programs (transaction c.metas) c).FromOutside := by
  intro k hk
  rw [hc.signer hk]
  exact huser

theorem Call.IsExit.notSignedBy {ks : Set Pubkey} (hc : c.IsExit user pool) (huser : user ∉ ks) :
    (Action.call programs (transaction c.metas) c).NotSignedBy ks := by
  intro k hk
  rw [Bool.eq_false_iff]
  intro hsigner
  exact huser (hc.signer hsigner ▸ hk)

/-- An instruction keeps accounts and their terms, and creates none that is frozen. -/
theorem execute_terms {rt : Runtime} {p : Privileges Pubkey} (h : rt.execute p c s = .ok s')
    (hh : FundsOnly rt.programs) :
    (∀ k a, s.ledger.accounts k = some a → ∃ b, s'.ledger.accounts k = some b ∧ SameTerms a b) ∧
      (Thawed s.ledger → Thawed s'.ledger) := by
  obtain ⟨start, hmoved, hstart⟩ := execute_fundsMoved h hh
  have hold : ∀ k a, s.ledger.accounts k = some a → start.ledger.accounts k = some a := by
    intro k a ha
    rcases hstart with hstart | ⟨_, _, _, _, _, _, hinit⟩
    · rw [hstart]
      exact ha
    · exact initIfNeeded_account_of_some hinit ha
  have hthawed : Thawed s.ledger → Thawed start.ledger := by
    intro ht k a ha
    rcases hstart with hstart | ⟨payer, j, mint, authority, tp, v, hinit⟩
    · exact ht k a (hstart ▸ ha)
    · obtain ⟨-, -, -, ⟨rfl, -⟩ | ⟨-, -, -, hv, rfl, -⟩⟩ :=
        (initIfNeeded_eq_ok_iff ..).1 hinit
      · exact ht k a ha
      · rw [Ledger.setAccount_accounts] at ha
        split at ha
        · obtain rfl := Option.some.inj ha
          rw [hv]
          rfl
        · exact ht k a ha
  refine ⟨fun k a ha => hmoved.some_account k a (hold k a ha), fun ht k b hb => ?_⟩
  obtain ⟨a, ha, hab⟩ := hmoved.account_of_some hb
  exact hab.frozen.trans (hthawed ht k a ha)

theorem holds_of_terms {l l' : Ledger Pubkey} {wallet mint : Pubkey}
    (h : ∀ k a, l.accounts k = some a → ∃ b, l'.accounts k = some b ∧ SameTerms a b)
    (hl : Holds l wallet tokenProgram mint) : Holds l' wallet tokenProgram mint := by
  obtain ⟨a, ha, howner⟩ := hl
  obtain ⟨b, hb, hab⟩ := h _ a ha
  exact ⟨b, hb, hab.owner.trans howner⟩

/-- After an exit of the user the next one is possible. -/
theorem Exitable.step (hs : Exitable findBump programs avss avsMints tokenProgram pool r user s)
    (hh : HonestPrograms avss avsMints programs) (hc : c.IsExit user pool)
    (h : Runtime.execute ⟨findBump, programs⟩ (transaction c.metas) c s = .ok s') :
    Exitable findBump programs avss avsMints tokenProgram pool r user s' := by
  have hattempt : Action.attempt findBump (.call programs (transaction c.metas) c) s = .ok s' := h
  have hp : (Action.call programs (transaction c.metas) c).FromOutside := hc.fromOutside hs.outside
  have hu : (Action.call programs (transaction c.metas) c).Uses (HonestPrograms avss avsMints) := hh
  obtain ⟨hterms, hthawed⟩ := execute_terms h hh.fundsOnly
  have hpools : s'.pools = s.pools := by
    cases execute_pools h with
    | kept c hset hpools => exact hpools
    | created a limit hpool hnone hs' => cases hc
    | transferred a r hsig hr hauth hs' => cases hc
    | limitSet a limit r hsig hr hauth hs' => cases hc
  exact {
    outside := hs.outside
    apart := hs.apart
    sound := attempt_sound hp hu.fundsOnly hattempt hs.sound
    feeFree := attempt_feeFree hs.feeFree hu.fundsOnly hattempt
    backed := attempt_allBacked hp hu hs.sound hs.feeFree hattempt hs.backed
    record := hpools ▸ hs.record
    terms := attempt_poolSound (hs.sound.home.isPool hs.record) hp hu.fundsOnly hattempt
      hs.sound.ledger hs.terms
    thawed := hthawed hs.thawed
    input := holds_of_terms hterms hs.input
    output := holds_of_terms hterms hs.output
    honours := hs.honours.step hp (hc.notSignedBy hs.apart) rfl hattempt }

/-- The accounts of a withdrawal are accepted. -/
theorem Exitable.withdraw_accepted
    (hs : Exitable findBump programs avss avsMints tokenProgram pool r user s) :
    ∃ im ui vault om uo,
      Withdraw.Accepted (transaction (WithdrawAccounts.derived user tokenProgram pool r).metas)
        (WithdrawAccounts.derived user tokenProgram pool r) s im ui vault om uo r := by
  obtain ⟨im, om, him, himp, hom, homp, homa, homf, hd⟩ := hs.terms.mints
  obtain ⟨vault, hvault⟩ := hs.terms.vault
  obtain ⟨ui, hui, hui_owner⟩ := hs.input
  obtain ⟨uo, huo, huo_owner⟩ := hs.output
  have hpool := hs.sound.home.isPool hs.record
  refine ⟨im, ui, vault, om, uo, ?_⟩
  constructor
  case signer => simp [transaction, WithdrawAccounts.metas, WithdrawAccounts.derived, accountMeta]
  case tokenProgram => exact hs.terms.admitted
  case associatedTokenProgram => rfl
  case systemProgram => rfl
  case pool_some => exact hs.record
  case pool_eq => exact (hs.sound.home pool r hs.record).1
  case inputMint_eq => rfl
  case outputMint_eq => rfl
  case inputMint_some => exact him
  case inputMint_program => exact himp
  case outputMint_some => exact hom
  case outputMint_program => exact homp
  case outputMint_authority => exact homa
  case outputMint_freeze => exact homf
  case outputMint_decimals => exact hd
  case signerInput_some => exact hui
  case signerInput_key => rfl
  case signerInput_owner => exact hui_owner
  case signerInput_program => exact hs.sound.ledger.program _ _ _ ui hui
  case poolInput_some => exact hvault
  case poolInput_key => rfl
  case poolInput_owner => exact (hs.sound.ledger.held _ _ _ vault hpool hvault).owner_eq
  case poolInput_program => exact hs.sound.ledger.program _ _ _ vault hvault
  case signerOutput_some => exact huo
  case signerOutput_key => rfl
  case signerOutput_owner => exact huo_owner
  case signerOutput_program => exact hs.sound.ledger.program _ _ _ uo huo
  all_goals simp [transaction, WithdrawAccounts.metas, WithdrawAccounts.derived, accountMeta]

/-- A withdrawal of what the vault covers succeeds. -/
theorem Exitable.exists_withdraw {amount : UInt64} {uo : TokenAccount Pubkey}
    (hs : Exitable findBump programs avss avsMints tokenProgram pool r user s)
    (huo : s.ledger.accounts (getAssociatedTokenAddress user tokenProgram r.outputTokenMint) =
      some uo)
    (hmay : uo.MayMove user amount.toNat) (hburn : amount.toNat ≤ uo.amount)
    (hpay : amount.toNat ≤
      s.ledger.balance (getAssociatedTokenAddress pool tokenProgram r.inputTokenMint)) :
    ∃ s', Runtime.execute ⟨findBump, programs⟩
      (transaction (WithdrawAccounts.derived user tokenProgram pool r).metas)
      (.withdraw (WithdrawAccounts.derived user tokenProgram pool r) amount) s = .ok s' := by
  obtain ⟨im, ui, vault, om, uo', hacc⟩ := hs.withdraw_accepted
  obtain rfl := Option.some.inj (huo.symm.trans hacc.signerOutput_some)
  have hvault := Ledger.balance_of_some hacc.poolInput_some
  refine AdraLrt.exists_withdraw hacc hs.sound.ledger (fun m hm => transaction_available hm)
    hs.user_ne (hs.feeFree _ im hacc.inputMint_some) (hs.thawed _ ui hacc.signerInput_some)
    (hs.thawed _ vault hacc.poolInput_some) (hs.thawed _ uo huo) hmay hburn ?_
  exact hvault ▸ hpay

/-- The user can burn by itself what a withdrawal burns first. -/
theorem Exitable.exists_burn {amount : UInt64} {uo : TokenAccount Pubkey}
    (hs : Exitable findBump programs avss avsMints tokenProgram pool r user s)
    (huo : s.ledger.accounts (getAssociatedTokenAddress user tokenProgram r.outputTokenMint) =
      some uo)
    (hmay : uo.MayMove user amount.toNat) (hburn : amount.toNat ≤ uo.amount) :
    ∃ burned, exec (transaction (WithdrawAccounts.derived user tokenProgram pool r).metas)
      tokenProgram (.burn (getAssociatedTokenAddress user tokenProgram r.outputTokenMint)
        r.outputTokenMint user amount.toNat) s.ledger = .ok burned := by
  obtain ⟨im, ui, vault, om, uo', hacc⟩ := hs.withdraw_accepted
  obtain rfl := Option.some.inj (huo.symm.trans hacc.signerOutput_some)
  have hq : ∀ a ∈ (TokenIx.burn (getAssociatedTokenAddress user tokenProgram r.outputTokenMint)
      r.outputTokenMint user amount.toNat).metas,
      (transaction (WithdrawAccounts.derived user tokenProgram pool r).metas).admits a = true := by
    simp [TokenIx.metas, Privileges.admits, transaction, WithdrawAccounts.metas,
      WithdrawAccounts.derived, accountMeta]
  have hok := exec_burn_of_mayMove hs.sound.ledger.conserved huo hacc.outputMint_some
    (hs.sound.ledger.associated _ _ _ uo huo)
    (hacc.signerOutput_program.trans hacc.outputMint_program.symm) (hs.thawed _ uo huo) hmay hburn
    hq
  rw [hacc.outputMint_program] at hok
  exact ⟨_, hok⟩

/-- A forced exit of tokens that the pool holds at some AVS succeeds, at an AVS that redeems them
after the user's tokens are burned. -/
theorem Exitable.exists_withdrawDelegatedStake {amount : UInt64} {uo : TokenAccount Pubkey}
    {mint : Pubkey} (hs : Exitable findBump programs avss avsMints tokenProgram pool r user s)
    (hh : HonestPrograms avss avsMints programs) (hin : r.inputTokenMint ∉ avsMints)
    (hmint : mint ∈ avsMints)
    (huo : s.ledger.accounts (getAssociatedTokenAddress user tokenProgram r.outputTokenMint) =
      some uo)
    (hmay : uo.MayMove user amount.toNat) (hburn : amount.toNat ≤ uo.amount)
    (hpos : 0 < amount.toNat)
    (hredeem : amount.toNat ≤
      s.ledger.balance (getAssociatedTokenAddress pool tokenProgram mint)) :
    ∃ avs avsProgram s',
      Runtime.execute ⟨findBump, programs⟩
        (transaction (WithdrawStakeAccounts.derived user tokenProgram pool r avs mint
          avsProgram).metas)
        (.withdrawDelegatedStake (WithdrawStakeAccounts.derived user tokenProgram pool r avs mint
          avsProgram) amount) s = .ok s' := by
  have hpool := hs.sound.home.isPool hs.record
  obtain ⟨burned, hburned⟩ := hs.exists_burn huo hmay hburn
  have hmoved : FundsMoved s.ledger burned := exec_fundsMoved rfl hburned
  -- the user could reach it by a transaction of its own, so the AVS honours the pool there too
  have hattempt : Action.attempt findBump
      (.token (transaction (WithdrawAccounts.derived user tokenProgram pool r).metas) tokenProgram
        (.burn (getAssociatedTokenAddress user tokenProgram r.outputTokenMint) r.outputTokenMint
          user amount.toNat)) s = .ok { s with ledger := burned } :=
    attempt_token_iff.2 ⟨hs.terms.admitted, by simp [Action.allocated], burned, hburned, rfl⟩
  have hexit : Call.IsExit user pool
      (.withdraw (WithdrawAccounts.derived user tokenProgram pool r) amount) := ⟨rfl, rfl⟩
  have hkept : burned.balance (getAssociatedTokenAddress pool tokenProgram mint) =
      s.ledger.balance (getAssociatedTokenAddress pool tokenProgram mint) := by
    have hbal := process_balance hs.feeFree ((exec_eq_ok_iff ..).1 hburned).2
      (getAssociatedTokenAddress pool tokenProgram mint)
    have hne : pool ≠ user := hs.user_ne.symm
    simpa [TokenIx.debited, TokenIx.credited, getAssociatedTokenAddress_inj, hne] using hbal
  have houtside : (Action.call programs _ _).FromOutside := hexit.fromOutside hs.outside
  have hapart : (Action.call programs _ _).NotSignedBy avss := hexit.notSignedBy hs.apart
  have hnow := hs.honours.step (a := .token _ _ _) houtside hapart trivial hattempt
  obtain ⟨avs, avsProgram, hr⟩ := hnow.now (thawed_of_fundsMoved hmoved hs.thawed) mint hmint amount
    hpos (hkept ▸ hredeem)
  -- the mint and the vault of that AVS are as they were before the burn
  obtain ⟨x, y, hx, hy, hxp, hxa, hxf, hxd⟩ := hr.mint_some
  obtain ⟨avsMint, i, havsMint, rfl⟩ := hmoved.mint_of_some hx
  obtain ⟨im, j, him, rfl⟩ := hmoved.mint_of_some hy
  obtain ⟨w, hw, hwowner⟩ := hr.vault
  obtain ⟨avsInput, havsInput, hterms⟩ := hmoved.account_of_some hw
  obtain ⟨poolAvs, hpoolAvs⟩ := Ledger.exists_of_balance_pos (hpos.trans_le hredeem)
  obtain ⟨im', ui, vault, om, uo', hacc⟩ := hs.withdraw_accepted
  obtain rfl := Option.some.inj (huo.symm.trans hacc.signerOutput_some)
  obtain rfl := Option.some.inj (him.symm.trans hacc.inputMint_some)
  have hstake : WithdrawStake.Accepted
      (transaction (WithdrawStakeAccounts.derived user tokenProgram pool r avs mint
        avsProgram).metas)
      (WithdrawStakeAccounts.derived user tokenProgram pool r avs mint avsProgram) s im vault om uo
      r avsMint avsInput poolAvs := by
    constructor
    case tokenProgram => exact hs.terms.admitted
    case associatedTokenProgram => rfl
    case systemProgram => rfl
    case pool_some => exact hs.record
    case pool_eq => exact hacc.pool_eq
    case inputMint_eq => rfl
    case outputMint_eq => rfl
    case inputMint_some => exact him
    case inputMint_program => exact hacc.inputMint_program
    case outputMint_some => exact hacc.outputMint_some
    case outputMint_program => exact hacc.outputMint_program
    case outputMint_authority => exact hacc.outputMint_authority
    case outputMint_freeze => exact hacc.outputMint_freeze
    case poolInput_some => exact hacc.poolInput_some
    case poolInput_key => rfl
    case poolInput_owner => exact hacc.poolInput_owner
    case poolInput_program => exact hacc.poolInput_program
    case signerOutput_some => exact huo
    case signerOutput_key => rfl
    case signerOutput_owner => exact hacc.signerOutput_owner
    case signerOutput_program => exact hacc.signerOutput_program
    case avsMint_some => exact havsMint
    case avsMint_program => exact hxp
    case avsMint_authority => exact hxa
    case avsMint_freeze => exact hxf
    case avsMint_decimals => exact hxd
    case avsInput_some => exact havsInput
    case avsInput_key => rfl
    case avsInput_owner => exact hterms.owner.symm.trans hwowner
    case avsInput_program => exact hs.sound.ledger.program _ _ _ avsInput havsInput
    case poolAvs_some => exact hpoolAvs
    case poolAvs_key => rfl
    case poolAvs_owner =>
      exact (hs.sound.ledger.held _ _ _ poolAvs hpool hpoolAvs).owner_eq
    case poolAvs_program => exact hs.sound.ledger.program _ _ _ poolAvs hpoolAvs
    all_goals
      simp [transaction, WithdrawStakeAccounts.metas, WithdrawStakeAccounts.derived, accountMeta]
  refine ⟨avs, avsProgram, ?_⟩
  have hui_mint := hs.sound.ledger.associated _ _ _ ui
    (hacc.signerInput_key ▸ hacc.signerInput_some)
  refine AdraLrt.exists_withdrawDelegatedStake hstake hs.sound.ledger (hs.feeFree _ im him) hh hin
    (fun m hm => transaction_available hm) hs.user_ne
    ((initIfNeeded_eq_ok_iff _ _ _ ⟨_, ui⟩).2 ⟨?_, rfl, rfl, Or.inl ⟨rfl, hacc.signerInput_some,
      hui_mint, hacc.signerInput_owner, hacc.signerInput_program⟩⟩)
    (hs.thawed _ ui hacc.signerInput_some) (hs.thawed _ vault hacc.poolInput_some)
    (hs.thawed _ uo huo) hmay hburn (Ledger.balance_of_some hpoolAvs ▸ hredeem) ?_
  · simp [transaction, WithdrawStakeAccounts.metas, WithdrawStakeAccounts.derived, accountMeta]
  · intro burned' hburned'
    have hmono : exec (transaction (WithdrawStakeAccounts.derived user tokenProgram pool r avs mint
        avsProgram).metas) tokenProgram
        (.burn (getAssociatedTokenAddress user tokenProgram r.outputTokenMint) r.outputTokenMint
          user amount.toNat) s.ledger = .ok burned := by
      refine exec_mono (transaction_mono ?_) hburned
      simp [WithdrawAccounts.metas, WithdrawStakeAccounts.metas, WithdrawAccounts.derived,
        WithdrawStakeAccounts.derived]
    -- more accounts on the list do not change what the burn does
    obtain rfl := Except.ok.inj (hmono.symm.trans hburned')
    exact hr.called

/-! ## One step -/

/-- A holder of output tokens is not in a pool that gives out its own input token. -/
theorem Exitable.mints_ne (hs : Exitable findBump programs avss avsMints tokenProgram pool r user s)
    (hin : r.inputTokenMint ∉ avsMints) (hout : r.outputTokenMint ∉ avsMints)
    (hpos : 0 < s.ledger.balance (getAssociatedTokenAddress user tokenProgram r.outputTokenMint)) :
    r.inputTokenMint ≠ r.outputTokenMint := by
  intro heq
  obtain ⟨a, ha⟩ := Ledger.exists_of_balance_pos hpos
  have hcover := hs.sound.ledger.conserved.balance_le ha
  rw [hs.sound.ledger.associated _ _ _ a ha, ← Ledger.balance_of_some ha,
    (hs.backed pool r tokenProgram hs.record hs.terms hin hout).2 heq] at hcover
  omega

/-- What a withdrawal does for the user. -/
theorem withdraw_moves {rt : Runtime} {p : Privileges Pubkey} {amount : UInt64}
    (huser_ne : user ≠ pool) (hne : r.inputTokenMint ≠ r.outputTokenMint) (hf : s.ledger.FeeFree)
    (hh : HonestPrograms avss avsMints rt.programs)
    (h : rt.execute p (.withdraw (WithdrawAccounts.derived user tokenProgram pool r) amount) s =
      .ok s') :
    s'.ledger.balance (getAssociatedTokenAddress user tokenProgram r.inputTokenMint) =
        s.ledger.balance (getAssociatedTokenAddress user tokenProgram r.inputTokenMint) +
          amount.toNat ∧
      s'.ledger.balance (getAssociatedTokenAddress user tokenProgram r.outputTokenMint) +
          amount.toNat =
        s.ledger.balance (getAssociatedTokenAddress user tokenProgram r.outputTokenMint) := by
  have hbal := execute_balance h hh (feeFree_call hf _)
  have hinput := hbal (getAssociatedTokenAddress user tokenProgram r.inputTokenMint)
  have houtput := hbal (getAssociatedTokenAddress user tokenProgram r.outputTokenMint)
  simp only [Call.debited, Call.credited, WithdrawAccounts.derived, getAssociatedTokenAddress_inj,
    huser_ne, hne, hne.symm, and_false, false_and, and_self, if_true, if_false] at hinput houtput
  exact ⟨by omega, by omega⟩

/-- A forced exit does the same. -/
theorem withdrawDelegatedStake_moves {rt : Runtime} {p : Privileges Pubkey} {amount : UInt64}
    {avs mint avsProgram : Pubkey} (huser_ne : user ≠ pool) (huser : user ∉ avss)
    (hne : r.inputTokenMint ≠ r.outputTokenMint) (hf : s.ledger.FeeFree)
    (hh : HonestPrograms avss avsMints rt.programs)
    (h : rt.execute p (.withdrawDelegatedStake
      (WithdrawStakeAccounts.derived user tokenProgram pool r avs mint avsProgram) amount) s =
      .ok s') :
    s'.ledger.balance (getAssociatedTokenAddress user tokenProgram r.inputTokenMint) =
        s.ledger.balance (getAssociatedTokenAddress user tokenProgram r.inputTokenMint) +
          amount.toNat ∧
      s'.ledger.balance (getAssociatedTokenAddress user tokenProgram r.outputTokenMint) +
          amount.toNat =
        s.ledger.balance (getAssociatedTokenAddress user tokenProgram r.outputTokenMint) := by
  obtain ⟨d, -⟩ := (execute_withdrawDelegatedStake_iff ..).1 h
  obtain ⟨-, hmem, -, -⟩ := hh _ _ _ _ _ _ _ d.avs
  have havs_ne : user ≠ avs := (ne_of_mem_of_not_mem hmem huser).symm
  have hbal := execute_balance h hh (feeFree_call hf _)
  have hinput := hbal (getAssociatedTokenAddress user tokenProgram r.inputTokenMint)
  have houtput := hbal (getAssociatedTokenAddress user tokenProgram r.outputTokenMint)
  simp only [Call.debited, Call.credited, WithdrawStakeAccounts.derived,
    getAssociatedTokenAddress_inj, huser_ne, havs_ne, hne, hne.symm, and_false, false_and, and_self,
    if_true, if_false] at hinput houtput
  exact ⟨by omega, by omega⟩

/-- The wallet is the delegate of its own associated account. The token program then holds it to its
allowance, and forgets about the delegate when that is used up. -/
def SelfApproved (l : Ledger Pubkey) (wallet tokenProgram mint : Pubkey) : Prop :=
  ∃ a, l.accounts (getAssociatedTokenAddress wallet tokenProgram mint) = some a ∧
    a.delegate = some wallet

/-- A withdrawal of nothing does away with an allowance of nothing. -/
theorem withdraw_zero_clears {rt : Runtime} {p : Privileges Pubkey} {uo : TokenAccount Pubkey}
    (huo : s.ledger.accounts (getAssociatedTokenAddress user tokenProgram r.outputTokenMint) =
      some uo)
    (hzero : uo.delegatedAmount = 0)
    (h : rt.execute p (.withdraw (WithdrawAccounts.derived user tokenProgram pool r) 0) s =
      .ok s') :
    ¬ SelfApproved s'.ledger user tokenProgram r.outputTokenMint := by
  obtain ⟨d, rfl⟩ := (execute_withdraw_iff ..).1 h
  obtain ⟨src, x, hsrc, -, hx, -, -, -, -, -, -, hburned⟩ :=
    (processBurn_eq_ok_iff ..).1 ((exec_eq_ok_iff ..).1 d.burn_eq).2
  obtain rfl := Option.some.inj (huo.symm.trans hsrc)
  have hafter : d.burned.accounts
      (getAssociatedTokenAddress user tokenProgram r.outputTokenMint) =
      some ((uo.authorized user 0).debit 0) := by
    rw [hburned]
    exact if_pos rfl
  -- the burn of nothing uses up what is left of the allowance
  have hcleared : (uo.authorized user 0).delegate ≠ some user := by
    rw [TokenAccount.authorized]
    split
    · simp
    · next hd => exact hd
  obtain ⟨b, hb, hterms⟩ := (exec_fundsMoved rfl d.pay_eq).some_account _ _ hafter
  rintro ⟨b', hb', hself⟩
  obtain rfl := Option.some.inj (hb.symm.trans hb')
  rcases hterms.delegate with hd | hd
  · rw [hd, TokenAccount.debit_delegate] at hself
    exact hcleared hself
  · rw [hd] at hself
    cases hself

theorem exists_toNat_eq {k : Nat} (h : k ≤ u64Max) : ∃ amount : UInt64, amount.toNat = k :=
  ⟨.ofNat k, UInt64.toNat_ofNat_of_lt' (Nat.lt_succ_of_le h)⟩

/-- The first call of an exit: it takes some of the tokens out, or it only clears an allowance that
the user gave itself. -/
theorem Exitable.exists_step {n : Nat}
    (hs : Exitable findBump programs avss avsMints tokenProgram pool r user s)
    (hh : HonestPrograms avss avsMints programs) (hin : r.inputTokenMint ∉ avsMints)
    (hout : r.outputTokenMint ∉ avsMints) (hpos : 0 < n)
    (hle : n ≤ s.ledger.balance (getAssociatedTokenAddress user tokenProgram r.outputTokenMint)) :
    ∃ c s', Call.IsExit user pool c ∧ c.amount ≤ n ∧
      Runtime.execute ⟨findBump, programs⟩ (transaction c.metas) c s = .ok s' ∧
      s'.ledger.balance (getAssociatedTokenAddress user tokenProgram r.inputTokenMint) =
        s.ledger.balance (getAssociatedTokenAddress user tokenProgram r.inputTokenMint) +
          c.amount ∧
      s'.ledger.balance (getAssociatedTokenAddress user tokenProgram r.outputTokenMint) +
          c.amount =
        s.ledger.balance (getAssociatedTokenAddress user tokenProgram r.outputTokenMint) ∧
      (0 < c.amount ∨ (SelfApproved s.ledger user tokenProgram r.outputTokenMint ∧
        ¬ SelfApproved s'.ledger user tokenProgram r.outputTokenMint)) := by
  have hne := hs.mints_ne hin hout (hpos.trans_le hle)
  obtain ⟨uo, huo, howner⟩ := hs.output
  rw [Ledger.balance_of_some huo] at hle
  have hcover := hs.sound.ledger.conserved.balance_le huo
  have hmax := hs.sound.ledger.conserved.supply_le uo.mint
  rw [hs.sound.ledger.associated _ _ _ uo huo] at hcover hmax
  obtain ⟨hbacked, -⟩ := hs.backed pool r tokenProgram hs.record hs.terms hin hout
  -- as its own delegate with nothing allowed the user cannot burn anything before that is cleared
  by_cases hzero : uo.delegate = some user ∧ uo.delegatedAmount = 0
  · obtain ⟨hself, hzero⟩ := hzero
    have hmay : uo.MayMove user (0 : UInt64).toNat := Or.inl ⟨hself, Nat.zero_le _⟩
    obtain ⟨s', hs'⟩ := hs.exists_withdraw huo hmay (Nat.zero_le _) (Nat.zero_le _)
    obtain ⟨hinput, houtput⟩ := withdraw_moves hs.user_ne hne hs.feeFree hh hs'
    exact ⟨.withdraw (WithdrawAccounts.derived user tokenProgram pool r) 0, s', ⟨rfl, rfl⟩,
      Nat.zero_le _, hs', hinput, houtput,
      Or.inr ⟨⟨uo, huo, hself⟩, withdraw_zero_clears huo hzero hs'⟩⟩
  -- at most `cap` can be burned at once
  obtain ⟨cap, hcap, hcap_le, hmay⟩ : ∃ cap, 0 < cap ∧ cap ≤ n ∧
      ∀ k, k ≤ cap → uo.MayMove user k := by
    by_cases hself : uo.delegate = some user
    · have hallowance : uo.delegatedAmount ≠ 0 := fun h => hzero ⟨hself, h⟩
      refine ⟨min n uo.delegatedAmount, by omega, by omega, fun k hk => Or.inl ⟨hself, by omega⟩⟩
    · exact ⟨n, hpos, Nat.le_refl n, fun k _ => Or.inr ⟨hself, howner⟩⟩
  by_cases hvault : cap ≤
      s.ledger.balance (getAssociatedTokenAddress pool tokenProgram r.inputTokenMint)
  · obtain ⟨amount, rfl⟩ := exists_toNat_eq (by omega : cap ≤ u64Max)
    obtain ⟨s', hs'⟩ := hs.exists_withdraw huo (hmay _ (Nat.le_refl _)) (by omega) hvault
    obtain ⟨hinput, houtput⟩ := withdraw_moves hs.user_ne hne hs.feeFree hh hs'
    exact ⟨.withdraw (WithdrawAccounts.derived user tokenProgram pool r) amount, s', ⟨rfl, rfl⟩,
      hcap_le, hs', hinput, houtput, Or.inl hcap⟩
  · -- the vault is short, so some AVS position is not empty
    obtain ⟨mint, hmint, hposition⟩ : ∃ m ∈ avsMints,
        0 < s.ledger.balance (getAssociatedTokenAddress pool tokenProgram m) := by
      by_contra hnone
      have hsum : ∑ m ∈ avsMints,
          s.ledger.balance (getAssociatedTokenAddress pool tokenProgram m) = 0 := by
        refine Finset.sum_eq_zero fun m hm => ?_
        by_contra hpos'
        exact hnone ⟨m, hm, Nat.pos_of_ne_zero hpos'⟩
      simp only [assets, overAssets, hsum] at hbacked
      omega
    obtain ⟨amount, hamount⟩ := exists_toNat_eq (k := min cap
      (s.ledger.balance (getAssociatedTokenAddress pool tokenProgram mint))) (by omega)
    have hpos' : 0 < amount.toNat := by omega
    obtain ⟨avs, avsProgram, s', hs'⟩ := hs.exists_withdrawDelegatedStake hh hin hmint huo
      (hmay _ (by omega)) (by omega) hpos' (by omega)
    obtain ⟨hinput, houtput⟩ := withdrawDelegatedStake_moves hs.user_ne hs.apart hne hs.feeFree hh
      hs'
    exact ⟨.withdrawDelegatedStake
      (WithdrawStakeAccounts.derived user tokenProgram pool r avs mint avsProgram) amount, s',
      ⟨rfl, rfl⟩, show amount.toNat ≤ n by omega, hs', hinput, houtput, Or.inl hpos'⟩

/-- The user turns `n` of its output tokens into input tokens by withdrawals and forced exits of its
own. -/
def Leaves (findBump : Pubkey → UInt8) (programs : Programs) (tokenProgram pool : Pubkey)
    (r : LRTPool) (user : Pubkey) (n : Nat) (s : State) : Prop :=
  ∃ calls s', (∀ c ∈ calls, Call.IsExit user pool c) ∧ (calls.map Call.amount).sum = n ∧
    Runtime.submit ⟨findBump, programs⟩ calls s = .ok s' ∧
    s'.ledger.balance (getAssociatedTokenAddress user tokenProgram r.inputTokenMint) =
      s.ledger.balance (getAssociatedTokenAddress user tokenProgram r.inputTokenMint) + n ∧
    s'.ledger.balance (getAssociatedTokenAddress user tokenProgram r.outputTokenMint) + n =
      s.ledger.balance (getAssociatedTokenAddress user tokenProgram r.outputTokenMint)

theorem leaves_zero : Leaves findBump programs tokenProgram pool r user 0 s :=
  ⟨[], s, by simp, rfl, rfl, rfl, rfl⟩

theorem leaves_cons {n : Nat} (hc : c.IsExit user pool)
    (h : Runtime.execute ⟨findBump, programs⟩ (transaction c.metas) c s = .ok s')
    (hinput : s'.ledger.balance (getAssociatedTokenAddress user tokenProgram r.inputTokenMint) =
      s.ledger.balance (getAssociatedTokenAddress user tokenProgram r.inputTokenMint) + c.amount)
    (houtput : s'.ledger.balance (getAssociatedTokenAddress user tokenProgram r.outputTokenMint) +
      c.amount =
      s.ledger.balance (getAssociatedTokenAddress user tokenProgram r.outputTokenMint))
    (hrest : Leaves findBump programs tokenProgram pool r user n s') :
    Leaves findBump programs tokenProgram pool r user (c.amount + n) s := by
  obtain ⟨calls, t, hcalls, hsum, hsubmit, hin, hout⟩ := hrest
  refine ⟨c :: calls, t, ?_, ?_, ?_, by omega, by omega⟩
  · intro x hx
    rcases List.mem_cons.1 hx with rfl | hx
    · exact hc
    · exact hcalls x hx
  · rw [List.map_cons, List.sum_cons, hsum]
  · rw [Runtime.submit, h]
    exact hsubmit

/-- By recursion on the amount that is left. -/
theorem Exitable.leaves (hh : HonestPrograms avss avsMints programs)
    (hin : r.inputTokenMint ∉ avsMints) (hout : r.outputTokenMint ∉ avsMints) (n : Nat) :
    ∀ s, Exitable findBump programs avss avsMints tokenProgram pool r user s →
      n ≤ s.ledger.balance (getAssociatedTokenAddress user tokenProgram r.outputTokenMint) →
      Leaves findBump programs tokenProgram pool r user n s := by
  induction n using Nat.strong_induction_on with
  | _ n ih =>
      intro s hs hle
      rcases Nat.eq_zero_or_pos n with rfl | hpos
      · exact leaves_zero
      obtain ⟨c, s₁, hc, hcn, h, hinput, houtput, hprogress⟩ :=
        hs.exists_step hh hin hout hpos hle
      have hs₁ := hs.step hh hc h
      obtain ⟨rest, rfl⟩ := Nat.exists_eq_add_of_le hcn
      refine leaves_cons hc h hinput houtput ?_
      rcases hprogress with htaken | ⟨-, hclear⟩
      · exact ih rest (by omega) s₁ hs₁ (by omega)
      rcases Nat.eq_zero_or_pos rest with rfl | hrest
      · exact leaves_zero
      obtain ⟨c₂, s₂, hc₂, hcn₂, h₂, hinput₂, houtput₂, htaken | ⟨hself, -⟩⟩ :=
        hs₁.exists_step hh hin hout hrest (by omega)
      · obtain ⟨rest₂, rfl⟩ := Nat.exists_eq_add_of_le hcn₂
        exact leaves_cons hc₂ h₂ hinput₂ houtput₂
          (ih rest₂ (by omega) s₂ (hs₁.step hh hc₂ h₂) (by omega))
      · exact (hclear hself).elim

end Step

/-! ## Exits from reachable states -/

/-- The transaction is not a token-program instruction that changes more than funds. -/
def Action.MovesFunds : Action → Prop
  | .token _ _ ix => ix.movesFunds = true
  | _ => True

section Thawed

variable {findBump : Pubkey → UInt8} {a : Action} {s s' : State}

theorem attempt_thawed (hu : a.Uses FundsOnly) (hm : a.MovesFunds)
    (h : a.attempt findBump s = .ok s') (ht : Thawed s.ledger) : Thawed s'.ledger := by
  cases a with
  | call programs p c => exact (execute_terms h hu).2 ht
  | token p program ix =>
      obtain ⟨-, -, l, hl, rfl⟩ := attempt_token_iff.1 h
      exact thawed_of_fundsMoved (exec_fundsMoved hm hl) ht
  | create p key wallet t m =>
      obtain ⟨-, -, x, -, -, -, -, rfl⟩ := attempt_create_iff.1 h
      intro k b hb
      rw [Ledger.setAccount_accounts] at hb
      split at hb
      · obtain rfl := Option.some.inj hb
        rfl
      · exact ht k b hb

theorem run_thawed {as : List Action} (has : ∀ x ∈ as, x.Uses FundsOnly ∧ x.MovesFunds)
    (ht : Thawed s.ledger) : Thawed (run findBump s as).ledger :=
  Rollback.run_invariant (I := fun t : State => Thawed t.ledger)
    (fun x hx _ _ ht h => attempt_thawed (has x hx).1 (has x hx).2 h ht) ht

end Thawed

/-- Every holder can always exit. In every state reached from a sound deployment with honest AVSs,
whoever signed, a holder of output tokens whose accounts exist can turn any part of them into input
tokens by withdrawals and forced exits that it alone signs, as long as no account is frozen and the
AVSs honour what the pool holds. -/
theorem every_holder_can_exit {findBump : Pubkey → UInt8} {avss : Set Pubkey}
    {avsMints : Finset Pubkey} {l : Ledger Pubkey} {as : List Action} {programs : Programs}
    {pool : Pubkey} {r : LRTPool} {inputMint : Mint Pubkey} {user : Pubkey} {n : Nat}
    (hl : LedgerSound l) (hf : l.FeeFree)
    (has : ∀ a ∈ as, a.FromOutside ∧ a.Uses (HonestPrograms avss avsMints))
    (hrecord : (run findBump (deployed l) as).pools pool = some r)
    (hmint : (run findBump (deployed l) as).ledger.mints r.inputTokenMint = some inputMint)
    (hin : r.inputTokenMint ∉ avsMints) (hout : r.outputTokenMint ∉ avsMints)
    (hthawed : Thawed (run findBump (deployed l) as).ledger)
    (hh : HonestPrograms avss avsMints programs)
    (hhonours : AlwaysHonours findBump programs avss avsMints inputMint.program pool
      r.inputTokenMint (run findBump (deployed l) as))
    (huser : user.isReserved = false) (havs : user ∉ avss)
    (hinput : Holds (run findBump (deployed l) as).ledger user inputMint.program r.inputTokenMint)
    (houtput : Holds (run findBump (deployed l) as).ledger user inputMint.program
      r.outputTokenMint)
    (hn : n ≤ (run findBump (deployed l) as).ledger.balance
      (getAssociatedTokenAddress user inputMint.program r.outputTokenMint)) :
    Leaves findBump programs inputMint.program pool r user n (run findBump (deployed l) as) := by
  obtain ⟨hsound, hfee, hbacked⟩ := run_allBacked findBump hl hf has
  obtain ⟨tokenProgram, hterms⟩ := hsound.pools pool r hrecord
  obtain rfl := hterms.inputMint_program hmint
  exact Exitable.leaves hh hin hout n _ ⟨huser, havs, hsound, hfee, hbacked, hrecord, hterms,
    hthawed, hinput, houtput, hhonours⟩ hn

namespace Sample

theorem lifetime_movesFunds : ∀ a ∈ lifetime, a.MovesFunds := by
  intro a ha
  simp only [lifetime, history, List.mem_cons, List.not_mem_nil, or_false] at ha
  rcases ha with rfl | rfl | rfl | rfl | rfl | rfl | rfl <;> trivial

theorem ledger_solvent : Solvent registry ledger where
  mint m hm := by
    obtain rfl := Finset.mem_singleton.1 hm
    exact ⟨_, _, rfl, rfl, rfl, rfl, rfl, rfl⟩
  vault m hm := ⟨_, rfl⟩
  covered m hm := by
    obtain rfl := Finset.mem_singleton.1 hm
    decide
  held := ledger_ownHands

theorem ledger_thawed : Thawed ledger :=
  thawed_ofLists (by decide)

/-- At the end of the history the user holds twenty-seven output tokens, of which the vault covers
fifteen. It gets all of them out. -/
theorem user_leaves :
    Leaves findBump registry.programs tokenProgram pool (record 1000) user 27
      (run findBump (deployed ledger) lifetime) := by
  have hhonest := fun a ha => uses_honest (lifetime_uses a ha).2.2
  obtain ⟨hsound, hf, hs⟩ := run_solvent lifetime_uses
    (sound_deployed findBump ledger_sound) ledger_feeFree ledger_solvent
  have hrecord : (run findBump (deployed ledger) lifetime).pools pool = some (record 1000) := rfl
  have hmint : (run findBump (deployed ledger) lifetime).ledger.mints inputMint =
      some (mintOf authority 100) := rfl
  have hthawed : Thawed (run findBump (deployed ledger) lifetime).ledger :=
    run_thawed (fun a ha => ⟨(hhonest a ha).fundsOnly, lifetime_movesFunds a ha⟩) ledger_thawed
  obtain ⟨t, hterms⟩ := hsound.pools pool _ hrecord
  obtain rfl := hterms.inputMint_program hmint
  have hhonours := Registry.alwaysHonours hs hsound hf hrecord hterms (by decide)
    (fun m _ => ⟨rfl, rfl⟩)
  exact every_holder_can_exit ledger_sound ledger_feeFree
    (fun a ha => ⟨(lifetime_uses a ha).1, hhonest a ha⟩) hrecord hmint (by decide) (by decide)
    hthawed registry.honest hhonours rfl user_apart ⟨_, rfl, rfl⟩ ⟨_, rfl, rfl⟩ (by decide)

end Sample

end AdraLrt
