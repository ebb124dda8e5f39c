import AdraLrt.Exchange
import AdraLrt.TokenLedger.Origin

/-!
# Sound states

What stays true as long as no pool and no associated address signs from outside and AVS programs
move funds only. Of the ledger (`LedgerSound`): an associated account belongs to the mint and the
program of its address, and one whose wallet is a pool is controlled by that pool alone, since
nobody can have signed for it. Of a pool (`PoolSound`): both mints belong to one token program, the
pool is the authority of its output mint, and its vault exists.

A ledger on which the program is deployed is sound because no pool address has signed anything yet.
-/

set_option autoImplicit false

namespace AdraLrt

open TokenLedger Checked

/-- What the wallets `ks` have at associated addresses is in their hands alone. -/
def InOwnHands (ks : Set Pubkey) (l : Ledger Pubkey) : Prop :=
  ∀ wallet tokenProgram mint a, wallet ∈ ks →
    l.accounts (getAssociatedTokenAddress wallet tokenProgram mint) = some a → a.Held wallet

/-- The token ledger as the token programs and the associated-token program keep it. -/
structure LedgerSound (l : Ledger Pubkey) : Prop extends WellFormed l where
  program : ∀ wallet tokenProgram mint a,
    l.accounts (getAssociatedTokenAddress wallet tokenProgram mint) = some a →
      a.program = tokenProgram
  held : InOwnHands {k | k.isPool = true} l
  no_mint : ∀ wallet tokenProgram mint,
    l.mints (getAssociatedTokenAddress wallet tokenProgram mint) = none
  legacy : ∀ m x, l.mints m = some x → x.program = .program .token → x.transferFee = none

section Ledger

variable {p : Privileges Pubkey} {program : Pubkey} {ix : TokenIx Pubkey} {l l' : Ledger Pubkey}

/-- No transaction allocates an associated address, which nobody signs for. -/
theorem not_allocated (hp : ∀ k, p.signer k = true → k.isReserved = false)
    (halloc : ∀ k ∈ Action.allocated ix, p.signer k = true) (wallet tokenProgram mint : Pubkey) :
    Action.allocated ix ≠ some (getAssociatedTokenAddress wallet tokenProgram mint) := by
  intro h
  have hreserved := hp _ (halloc _ h)
  cases hreserved

/-- Where an associated account was before a token-program instruction of a transaction. -/
theorem exec_associated (hp : ∀ k, p.signer k = true → k.isReserved = false)
    (halloc : ∀ k ∈ Action.allocated ix, p.signer k = true) (h : exec p program ix l = .ok l')
    {wallet tokenProgram mint : Pubkey} {b : TokenAccount Pubkey}
    (hb : l'.accounts (getAssociatedTokenAddress wallet tokenProgram mint) = some b) :
    ∃ a, l.accounts (getAssociatedTokenAddress wallet tokenProgram mint) = some a ∧
      b.mint = a.mint ∧ b.program = a.program := by
  rcases exec_account_origin h hb with hold | ⟨-, hix, -⟩
  · exact hold
  · exact (not_allocated hp halloc wallet tokenProgram mint (by rw [hix]; rfl)).elim

/-- A wallet that does not sign keeps what it has in its hands. -/
theorem exec_inOwnHands {ks : Set Pubkey} (hks : ∀ k ∈ ks, p.signer k = false)
    (hp : ∀ k, p.signer k = true → k.isReserved = false)
    (halloc : ∀ k ∈ Action.allocated ix, p.signer k = true) (h : exec p program ix l = .ok l')
    (hl : InOwnHands ks l) : InOwnHands ks l' := by
  intro wallet tokenProgram mint b hwallet hb
  obtain ⟨a, ha, -, -⟩ := exec_associated hp halloc h hb
  obtain ⟨a', ha', hheld, -⟩ :=
    exec_accountKept (hks _ hwallet) h _ a ha (hl _ _ _ a hwallet ha)
  obtain rfl := Option.some.inj (hb.symm.trans ha')
  exact hheld

theorem exec_ledgerSound (hp : ∀ k, p.signer k = true → k.isReserved = false)
    (halloc : ∀ k ∈ Action.allocated ix, p.signer k = true) (h : exec p program ix l = .ok l')
    (hl : LedgerSound l) : LedgerSound l' where
  conserved := process_conserved hl.conserved ((exec_eq_ok_iff ..).1 h).2
  mint_some := exec_minted h hl.mint_some
  associated wallet tokenProgram mint b hb := by
    obtain ⟨a, ha, hm, -⟩ := exec_associated hp halloc h hb
    exact hm.trans (hl.associated _ _ _ a ha)
  program wallet tokenProgram mint b hb := by
    obtain ⟨a, ha, -, hp⟩ := exec_associated hp halloc h hb
    exact hp.trans (hl.program _ _ _ a ha)
  held := exec_inOwnHands (fun _ hk => not_signer_of_isPool hp hk) hp halloc h hl.held
  no_mint wallet tokenProgram mint := by
    rw [Option.eq_none_iff_forall_ne_some]
    intro y hy
    rcases exec_mint_origin h hy with ⟨x, hx, -⟩ | ⟨-, ⟨decimals, authority, freeze, hix⟩, -⟩
    · rw [hl.no_mint] at hx
      cases hx
    · exact not_allocated hp halloc wallet tokenProgram mint (by rw [hix]; rfl)
  legacy m y hy hlegacy := by
    rcases exec_mint_origin h hy with ⟨x, hx, hp, hf⟩ | ⟨-, -, hf⟩
    · exact hf.trans (hl.legacy m x hx (hp ▸ hlegacy))
    · exact hf

theorem create_inOwnHands {ks : Set Pubkey} (hl : InOwnHands ks l)
    (wallet tokenProgram mint : Pubkey) :
    InOwnHands ks (l.setAccount (getAssociatedTokenAddress wallet tokenProgram mint)
      (some (.fresh tokenProgram mint wallet))) := by
  intro w t m a hw ha
  rw [Ledger.setAccount_accounts] at ha
  split at ha
  · next hk =>
      obtain rfl := Option.some.inj ha
      cases hk
      exact ⟨rfl, rfl, Or.inl rfl⟩
  · exact hl w t m a hw ha

/-- Creating an associated account. -/
theorem create_ledgerSound (hl : LedgerSound l) {wallet tokenProgram mint : Pubkey}
    {x : Mint Pubkey}
    (hnone : l.accounts (getAssociatedTokenAddress wallet tokenProgram mint) = none)
    (hx : l.mints mint = some x) (hp : x.program = tokenProgram) :
    LedgerSound (l.setAccount (getAssociatedTokenAddress wallet tokenProgram mint)
      (some (.fresh tokenProgram mint wallet))) := by
  -- an account of the new ledger is the created one or an old one
  have hcases : ∀ k a, (l.setAccount (getAssociatedTokenAddress wallet tokenProgram mint)
      (some (.fresh tokenProgram mint wallet))).accounts k = some a →
      (k = getAssociatedTokenAddress wallet tokenProgram mint ∧
        a = .fresh tokenProgram mint wallet) ∨ l.accounts k = some a := by
    intro k a ha
    rw [Ledger.setAccount_accounts] at ha
    split at ha
    · next hk => exact Or.inl ⟨hk, (Option.some.inj ha).symm⟩
    · exact Or.inr ha
  refine ⟨⟨conserved_create hl.conserved hnone rfl, ?_, ?_⟩, ?_,
    create_inOwnHands hl.held wallet tokenProgram mint, hl.no_mint, hl.legacy⟩
  · intro k a ha
    rcases hcases k a ha with ⟨-, rfl⟩ | hold
    · exact ⟨x, hx, hp⟩
    · exact hl.mint_some k a hold
  · intro w t m a ha
    rcases hcases _ a ha with ⟨hk, rfl⟩ | hold
    · -- the address tells the mint
      cases hk
      rfl
    · exact hl.associated w t m a hold
  · intro w t m a ha
    rcases hcases _ a ha with ⟨hk, rfl⟩ | hold
    · cases hk
      rfl
    · exact hl.program w t m a hold

theorem sameTerms_held {wallet : Pubkey} {a b : TokenAccount Pubkey} (h : SameTerms a b)
    (ha : a.Held wallet) : b.Held wallet where
  owner_eq := h.owner.trans ha.owner_eq
  delegate_eq := h.delegate_none ha.delegate_eq
  close_eq := h.closeAuthority ▸ ha.close_eq

theorem fundsMoved_inOwnHands {ks : Set Pubkey} (hl : InOwnHands ks l) (h : FundsMoved l l') :
    InOwnHands ks l' := by
  intro w t m b hw hb
  obtain ⟨a, ha, hab⟩ := h.account_of_some hb
  exact sameTerms_held hab (hl w t m a hw ha)

theorem fundsMoved_ledgerSound (hl : LedgerSound l) (h : FundsMoved l l') (hc : l'.Conserved) :
    LedgerSound l' := by
  refine ⟨⟨hc, ?_, ?_⟩, ?_, fundsMoved_inOwnHands hl.held h, ?_, ?_⟩
  · intro k b hb
    obtain ⟨a, ha, hab⟩ := h.account_of_some hb
    obtain ⟨m, hm, hp⟩ := hl.mint_some k a ha
    obtain ⟨n, hn⟩ := h.some_mint _ m hm
    exact ⟨m.withSupply n, hab.mint ▸ hn, hp.trans hab.program.symm⟩
  · intro w t m b hb
    obtain ⟨a, ha, hab⟩ := h.account_of_some hb
    exact hab.mint.trans (hl.associated w t m a ha)
  · intro w t m b hb
    obtain ⟨a, ha, hab⟩ := h.account_of_some hb
    exact hab.program.trans (hl.program w t m a ha)
  · intro w t m
    exact h.none_mint _ (hl.no_mint w t m)
  · intro m y hy hlegacy
    obtain ⟨x, n, hx, rfl⟩ := h.mint_of_some hy
    exact hl.legacy m x hx hlegacy

end Ledger

section Step

variable {findBump : Pubkey → UInt8} {rt : Runtime} {p : Privileges Pubkey} {c : Call}
  {s s' : State}

theorem initIfNeeded_ledgerSound {payer k mint authority tokenProgram : Pubkey}
    {v : Loaded (TokenAccount Pubkey)} (hl : LedgerSound s.ledger)
    (h : initIfNeeded p payer k mint authority tokenProgram s = .ok (v, s')) :
    LedgerSound s'.ledger := by
  obtain ⟨-, rfl, -, ⟨rfl, -⟩ | ⟨hnone, -, ⟨m, hx, hp⟩, hv, rfl, -⟩⟩ :=
    (initIfNeeded_eq_ok_iff ..).1 h
  · exact hl
  · rw [hv]
    exact create_ledgerSound hl hnone hx hp

theorem execute_ledgerSound (h : rt.execute p c s = .ok s') (hh : FundsOnly rt.programs)
    (hl : LedgerSound s.ledger) : LedgerSound s'.ledger := by
  have hc := reach_conserved hl.conserved (execute_reach h)
  obtain ⟨start, hmoved, hstart | ⟨payer, k, mint, authority, tokenProgram, v, hinit⟩⟩ :=
    execute_fundsMoved h hh
  · exact fundsMoved_ledgerSound hl (hstart ▸ hmoved) hc
  · exact fundsMoved_ledgerSound (initIfNeeded_ledgerSound hl hinit) hmoved hc

/-- Who does not sign keeps what it has at associated addresses in its hands. -/
theorem attempt_inOwnHands {ks : Set Pubkey} {a : Action} (hks : a.NotSignedBy ks)
    (hp : a.FromOutside) (hu : a.Uses FundsOnly) (h : a.attempt findBump s = .ok s')
    (hl : InOwnHands ks s.ledger) : InOwnHands ks s'.ledger := by
  cases a with
  | call programs p c =>
      obtain ⟨start, hmoved, hstart | ⟨payer, k, mint, authority, tokenProgram, v, hinit⟩⟩ :=
        execute_fundsMoved h hu
      · exact fundsMoved_inOwnHands (hstart ▸ hl) hmoved
      · obtain ⟨-, rfl, -, ⟨rfl, -⟩ | ⟨-, -, -, hv, rfl, -⟩⟩ :=
          (initIfNeeded_eq_ok_iff ..).1 hinit
        · exact fundsMoved_inOwnHands hl hmoved
        · rw [hv] at hmoved
          exact fundsMoved_inOwnHands (create_inOwnHands hl _ _ _) hmoved
  | token p program ix =>
      obtain ⟨-, halloc, l, hl', rfl⟩ := attempt_token_iff.1 h
      exact exec_inOwnHands hks hp halloc hl' hl
  | create p key wallet tokenProgram mint =>
      obtain ⟨-, rfl, m, -, -, -, -, rfl⟩ := attempt_create_iff.1 h
      exact create_inOwnHands hl wallet tokenProgram mint

theorem attempt_ledgerSound {a : Action} (hp : a.FromOutside) (hu : a.Uses FundsOnly)
    (h : a.attempt findBump s = .ok s') (hl : LedgerSound s.ledger) : LedgerSound s'.ledger := by
  cases a with
  | call programs p c => exact execute_ledgerSound h hu hl
  | token p program ix =>
      obtain ⟨-, halloc, l, hl', rfl⟩ := attempt_token_iff.1 h
      exact exec_ledgerSound hp halloc hl' hl
  | create p key wallet tokenProgram mint =>
      obtain ⟨-, rfl, m, -, hnone, hx, hpm, rfl⟩ := attempt_create_iff.1 h
      exact create_ledgerSound hl hnone hx hpm

end Step

/-! ## Pools -/

/-- What holds of a pool with the given mints under a token program. -/
structure PoolSound (l : Ledger Pubkey) (tokenProgram pool inputMint outputMint : Pubkey) :
    Prop where
  admitted : isTokenInterface tokenProgram = true
  mints : ∃ im om, l.mints inputMint = some im ∧ im.program = tokenProgram ∧
    l.mints outputMint = some om ∧ om.program = tokenProgram ∧ om.mintAuthority = some pool ∧
    om.freezeAuthority = some pool ∧ om.decimals = im.decimals
  vault : ∃ v, l.accounts (getAssociatedTokenAddress pool tokenProgram inputMint) = some v

/-- Mints stay, with their authorities where both are `pool`, and so do the accounts that `pool`
controls. -/
structure TermsKept (pool : Pubkey) (l l' : Ledger Pubkey) : Prop where
  mint : ∀ m x, l.mints m = some x → ∃ x', l'.mints m = some x' ∧ x'.program = x.program ∧
    x'.decimals = x.decimals ∧ (x.mintAuthority = some pool → x.freezeAuthority = some pool →
      x'.mintAuthority = some pool ∧ x'.freezeAuthority = some pool)
  account : ∀ k a, l.accounts k = some a → a.Held pool → ∃ a', l'.accounts k = some a'

section Terms

variable {pool : Pubkey} {l l' : Ledger Pubkey}

theorem termsKept_of_fundsMoved (h : FundsMoved l l') : TermsKept pool l l' where
  mint m x hx := by
    obtain ⟨n, hn⟩ := h.some_mint m x hx
    exact ⟨x.withSupply n, hn, rfl, rfl, fun ha hf => ⟨ha, hf⟩⟩
  account k a ha _ := by
    obtain ⟨b, hb, -⟩ := h.some_account k a ha
    exact ⟨b, hb⟩

theorem termsKept_of_exec {p : Privileges Pubkey} {program : Pubkey} {ix : TokenIx Pubkey}
    (hs : p.signer pool = false) (h : exec p program ix l = .ok l') : TermsKept pool l l' where
  mint m x hx := by
    obtain ⟨x', hx', hp, hd, -⟩ := exec_mint_fixed h hx
    refine ⟨x', hx', hp, hd, fun ha hf => ?_⟩
    obtain ⟨y, hy, hya, -, -, -, hyf⟩ := exec_mintKept hs h m x hx ha
    obtain rfl := Option.some.inj (hx'.symm.trans hy)
    refine ⟨hya, (hyf ?_).trans hf⟩
    rintro k hk
    rw [hf, Option.mem_some_iff] at hk
    exact hk.symm
  account k a ha hheld := by
    obtain ⟨b, hb, -⟩ := exec_accountKept hs h k a ha hheld
    exact ⟨b, hb⟩

theorem termsKept_of_create {k : Pubkey} {b : TokenAccount Pubkey} (hnone : l.accounts k = none) :
    TermsKept pool l (l.setAccount k (some b)) where
  mint _ x hx := ⟨x, hx, rfl, rfl, fun ha hf => ⟨ha, hf⟩⟩
  account j a ha _ := by
    have hne : j ≠ k := by
      rintro rfl
      rw [hnone] at ha
      cases ha
    exact ⟨a, by simpa [hne] using ha⟩

theorem TermsKept.trans {m : Ledger Pubkey} (h : TermsKept pool l m) (h' : FundsMoved m l') :
    TermsKept pool l l' where
  mint k x hx := by
    obtain ⟨y, hy, hp, hd, ha⟩ := h.mint k x hx
    obtain ⟨n, hn⟩ := h'.some_mint k y hy
    exact ⟨y.withSupply n, hn, hp, hd, ha⟩
  account k a ha hheld := by
    obtain ⟨b, hb⟩ := h.account k a ha hheld
    obtain ⟨c, hc, -⟩ := h'.some_account k b hb
    exact ⟨c, hc⟩

theorem PoolSound.of_termsKept {tokenProgram inputMint outputMint : Pubkey}
    (hpool : pool.isPool = true) (hl : LedgerSound l) (h : TermsKept pool l l')
    (hs : PoolSound l tokenProgram pool inputMint outputMint) :
    PoolSound l' tokenProgram pool inputMint outputMint where
  admitted := hs.admitted
  mints := by
    obtain ⟨im, om, him, himp, hom, homp, homa, homf, hd⟩ := hs.mints
    obtain ⟨im', him', himp', himd, -⟩ := h.mint _ im him
    obtain ⟨om', hom', homp', homd, hauth⟩ := h.mint _ om hom
    obtain ⟨homa', homf'⟩ := hauth homa homf
    exact ⟨im', om', him', himp'.trans himp, hom', homp'.trans homp, homa', homf',
      homd.trans (hd.trans himd.symm)⟩
  vault := by
    obtain ⟨v, hv⟩ := hs.vault
    exact h.account _ v hv (hl.held _ _ _ v hpool hv)

end Terms

/-- The state of the program in which every record, account and mint is as it should be. -/
structure Sound (findBump : Pubkey → UInt8) (s : State) : Prop where
  home : RecordsAtHome findBump s
  ledger : LedgerSound s.ledger
  pools : ∀ k r, s.pools k = some r →
    ∃ tokenProgram, PoolSound s.ledger tokenProgram k r.inputTokenMint r.outputTokenMint

theorem RecordsAtHome.isPool {findBump : Pubkey → UInt8} {s : State} (h : RecordsAtHome findBump s)
    {k : Pubkey} {r : LRTPool} (hr : s.pools k = some r) : k.isPool = true :=
  isPool_of_eq (h k r hr).1

/-- No record is at an associated address. -/
theorem RecordsAtHome.pools_associated {findBump : Pubkey → UInt8} {s : State}
    (h : RecordsAtHome findBump s) (wallet tokenProgram mint : Pubkey) :
    s.pools (getAssociatedTokenAddress wallet tokenProgram mint) = none := by
  rw [Option.eq_none_iff_forall_ne_some]
  intro r hr
  have hpool := h.isPool hr
  cases hpool

section Step

variable {findBump : Pubkey → UInt8} {a : Action} {s s' : State}

theorem attempt_termsKept {pool : Pubkey} (hp : a.privileges.signer pool = false)
    (hu : a.Uses FundsOnly) (h : a.attempt findBump s = .ok s') :
    TermsKept pool s.ledger s'.ledger := by
  cases a with
  | call programs p c =>
      obtain ⟨start, hmoved, hstart | ⟨payer, k, mint, authority, tokenProgram, v, hinit⟩⟩ :=
        execute_fundsMoved h hu
      · exact termsKept_of_fundsMoved (hstart ▸ hmoved)
      · -- an account was created before the funds moved
        obtain ⟨-, -, -, ⟨rfl, -⟩ | ⟨hnone, -, -, -, rfl, -⟩⟩ :=
          (initIfNeeded_eq_ok_iff ..).1 hinit
        · exact termsKept_of_fundsMoved hmoved
        · exact (termsKept_of_create hnone).trans hmoved
  | token p program ix =>
      obtain ⟨-, -, l, hl, rfl⟩ := attempt_token_iff.1 h
      exact termsKept_of_exec hp hl
  | create p key wallet tokenProgram mint =>
      obtain ⟨-, -, m, -, hnone, -, -, rfl⟩ := attempt_create_iff.1 h
      exact termsKept_of_create hnone

theorem attempt_poolSound {tokenProgram pool inputMint outputMint : Pubkey}
    (hpool : pool.isPool = true) (hp : a.FromOutside) (hu : a.Uses FundsOnly)
    (h : a.attempt findBump s = .ok s') (hl : LedgerSound s.ledger)
    (hs : PoolSound s.ledger tokenProgram pool inputMint outputMint) :
    PoolSound s'.ledger tokenProgram pool inputMint outputMint :=
  hs.of_termsKept hpool hl (attempt_termsKept (hp.notSignedBy_pools _ hpool) hu h)

/-- A record that is there after a transaction was there before, with the same mints, or the
transaction created it. -/
theorem attempt_record_origin (h : a.attempt findBump s = .ok s') {k : Pubkey} {r' : LRTPool}
    (hr' : s'.pools k = some r') :
    (∃ r, s.pools k = some r ∧ r'.inputTokenMint = r.inputTokenMint ∧
      r'.outputTokenMint = r.outputTokenMint) ∨
      ∃ programs p b limit, a = .call programs p (.initializePool b limit) ∧ k = b.pool ∧
        r'.inputTokenMint = b.inputTokenMint ∧ r'.outputTokenMint = b.outputTokenMint := by
  rcases attempt_pools h with ⟨-, hpools⟩ | ⟨programs, p, c, rfl, hc⟩
  · exact Or.inl ⟨r', hpools ▸ hr', rfl, rfl⟩
  · cases hc with
    | kept c hset hpools => exact Or.inl ⟨r', hpools ▸ hr', rfl, rfl⟩
    | created b limit hpool hnone hs' =>
        subst hs'
        rcases State.setPool_cases hr' with ⟨hk, rfl⟩ | ⟨-, hold⟩
        · exact Or.inr ⟨programs, p, b, limit, rfl, hk, rfl, rfl⟩
        · exact Or.inl ⟨r', hold, rfl, rfl⟩
    | transferred b r hsig hr hauth hs' =>
        subst hs'
        rcases State.setPool_cases hr' with ⟨rfl, rfl⟩ | ⟨-, hold⟩
        · exact Or.inl ⟨r, hr, rfl, rfl⟩
        · exact Or.inl ⟨r', hold, rfl, rfl⟩
    | limitSet b limit r hsig hr hauth hs' =>
        subst hs'
        rcases State.setPool_cases hr' with ⟨rfl, rfl⟩ | ⟨-, hold⟩
        · exact Or.inl ⟨r, hr, rfl, rfl⟩
        · exact Or.inl ⟨r', hold, rfl, rfl⟩

/-- An accepted initialization finds a sound pool. -/
theorem Initialize.Accepted.poolSound {cx : Cx} {b : InitializeAccounts} {im om : Mint Pubkey}
    {v : TokenAccount Pubkey} (h : Initialize.Accepted cx b s im v om) :
    PoolSound s.ledger b.tokenProgram b.pool b.inputTokenMint b.outputTokenMint where
  admitted := h.tokenProgram
  mints := ⟨im, om, h.inputMint_some, h.inputMint_program, h.outputMint_some, h.outputMint_program,
    h.outputMint_authority, h.outputMint_freeze, h.outputMint_decimals⟩
  vault := ⟨v, h.poolInput_key ▸ h.poolInput_some⟩

theorem attempt_sound (hp : a.FromOutside) (hu : a.Uses FundsOnly)
    (h : a.attempt findBump s = .ok s') (hs : Sound findBump s) : Sound findBump s' where
  home := attempt_recordsAtHome hs.home h
  ledger := attempt_ledgerSound hp hu h hs.ledger
  pools := by
    intro k r' hr'
    have hpool := (attempt_recordsAtHome hs.home h).isPool hr'
    rcases attempt_record_origin h hr' with
      ⟨r, hr, hi, ho⟩ | ⟨programs, p, b, limit, rfl, rfl, hi, ho⟩
    · obtain ⟨tokenProgram, hr⟩ := hs.pools k r hr
      exact ⟨tokenProgram, hi ▸ ho ▸ attempt_poolSound hpool hp hu h hs.ledger hr⟩
    · -- a new pool was sound when it was accepted, and nothing else happened
      obtain ⟨im, v, om, hacc, -⟩ := (initializePool_eq_ok_iff ..).1 h
      exact ⟨b.tokenProgram,
        hi ▸ ho ▸ attempt_poolSound hpool hp hu h hs.ledger hacc.poolSound⟩

end Step

theorem run_sound {findBump : Pubkey → UInt8} {as : List Action} {s : State}
    (has : ∀ a ∈ as, a.FromOutside ∧ a.Uses FundsOnly) (hs : Sound findBump s) :
    Sound findBump (run findBump s as) :=
  Rollback.run_invariant (fun a ha _ _ ht h => attempt_sound (has a ha).1 (has a ha).2 h ht) hs

theorem run_poolSound {findBump : Pubkey → UInt8} {as : List Action} {s : State}
    {tokenProgram pool inputMint outputMint : Pubkey} (hpool : pool.isPool = true)
    (has : ∀ x ∈ as, x.FromOutside ∧ x.Uses FundsOnly) (hs : Sound findBump s)
    (h : PoolSound s.ledger tokenProgram pool inputMint outputMint) :
    PoolSound (run findBump s as).ledger tokenProgram pool inputMint outputMint := by
  refine (Rollback.run_invariant (I := fun t : State => Sound findBump t ∧
    PoolSound t.ledger tokenProgram pool inputMint outputMint) ?_ ⟨hs, h⟩).2
  rintro x hx t t' ⟨ht, htt⟩ h
  obtain ⟨hp, hu⟩ := has x hx
  exact ⟨attempt_sound hp hu h ht, attempt_poolSound hpool hp hu h ht.ledger htt⟩

/-- The start of every run. -/
theorem sound_deployed (findBump : Pubkey → UInt8) {l : Ledger Pubkey} (hl : LedgerSound l) :
    Sound findBump (deployed l) where
  home := by
    rintro k r hr
    cases hr
  ledger := hl
  pools := by
    rintro k r hr
    cases hr

end AdraLrt
