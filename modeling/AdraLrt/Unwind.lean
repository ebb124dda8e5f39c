import AdraLrt.Refinement
import AdraLrt.WindDown

/-!
# Unwinding

What the delegate authority did with the funds of a pool it can take back: every sequence of
delegations and undelegations that went through can be undone step by step from its end, by the
opposite instructions on the same accounts, and then every balance and every supply is what it was
(`delegations_unwind`). Nothing that happens in between makes an account list invalid, because
instructions change neither the terms of an account nor those of a mint (`Delegate.Accepted.kept`).
A user can take a deposit back in the same way (`deposit_taken_back`).

The AVSs are those of a registry that is solvent, and no AVS takes in the tokens of another.
-/

set_option autoImplicit false

namespace AdraLrt

open TokenLedger Checked

/-! ## What account lists depend on -/

/-- The second state has all accounts and mints of the first on the same terms, and the same
records. -/
structure Kept (s t : State) : Prop where
  pools : t.pools = s.pools
  account : ∀ k x, s.ledger.accounts k = some x →
    ∃ y, t.ledger.accounts k = some y ∧ SameTerms x y
  mint : ∀ m x, s.ledger.mints m = some x → ∃ n, t.ledger.mints m = some (x.withSupply n)

section Kept

variable {p : Privileges Pubkey} {s t u : State}

theorem Kept.refl (s : State) : Kept s s where
  pools := rfl
  account _ x hx := ⟨x, hx, SameTerms.refl x⟩
  mint _ x hx := ⟨x.supply, hx⟩

theorem Kept.trans (hst : Kept s t) (htu : Kept t u) : Kept s u where
  pools := htu.pools.trans hst.pools
  account k x hx := by
    obtain ⟨y, hy, hxy⟩ := hst.account k x hx
    obtain ⟨z, hz, hyz⟩ := htu.account k y hy
    exact ⟨z, hz, hxy.trans hyz⟩
  mint m x hx := by
    obtain ⟨n, hn⟩ := hst.mint m x hx
    obtain ⟨n', hn'⟩ := htu.mint m _ hn
    exact ⟨n', hn'⟩

theorem PlainStep.kept {c : Call} (h : PlainStep c s t) : Kept s t :=
  ⟨h.pools, h.terms, h.mintTerms⟩

theorem Delegate.Accepted.kept {a : DelegateAccounts} {am im : Mint Pubkey}
    {av pv : TokenAccount Pubkey} {r : LRTPool} (h : Delegate.Accepted p a s am av im pv r)
    (hst : Kept s t) : ∃ am' av' im' pv', Delegate.Accepted p a t am' av' im' pv' r := by
  obtain ⟨n, ham⟩ := hst.mint _ _ h.avsMint_some
  obtain ⟨n', him⟩ := hst.mint _ _ h.inputMint_some
  obtain ⟨av', hav, hav_terms⟩ := hst.account _ _ h.avsInput_some
  obtain ⟨pv', hpv, hpv_terms⟩ := hst.account _ _ h.poolInput_some
  exact ⟨am.withSupply n, av', im.withSupply n', pv', { h with
    pool_some := hst.pools ▸ h.pool_some
    inputMint_some := him
    poolInput_some := hpv
    poolInput_owner := hpv_terms.owner.trans h.poolInput_owner
    poolInput_program := hpv_terms.program.trans h.poolInput_program
    avsMint_some := ham
    avsInput_some := hav
    avsInput_owner := hav_terms.owner.trans h.avsInput_owner
    avsInput_program := hav_terms.program ▸ h.avsInput_program }⟩

/-- An account that was found or created is found again. -/
theorem initIfNeeded_again {payer k mint authority tokenProgram : Pubkey} {start : State}
    {v : Loaded (TokenAccount Pubkey)}
    (h : initIfNeeded p payer k mint authority tokenProgram s = .ok (v, start))
    (hst : Kept start t) :
    ∃ w, initIfNeeded p payer k mint authority tokenProgram t = .ok (w, t) := by
  obtain ⟨w, hw, hterms⟩ := hst.account _ _ (initIfNeeded_account h)
  obtain ⟨hmut, hk, -, hcases⟩ := (initIfNeeded_eq_ok_iff ..).1 h
  have hv : v.account.mint = mint ∧ v.account.owner = authority := by
    rcases hcases with ⟨-, -, hm, ho, -⟩ | ⟨-, -, -, hfresh, -⟩
    · exact ⟨hm, ho⟩
    · rw [hfresh]
      exact ⟨rfl, rfl⟩
  -- this time it exists, and the checks of an existing account are on its terms
  refine ⟨⟨k, w⟩, (initIfNeeded_eq_ok_iff ..).2 ⟨hmut, hk, rfl, Or.inl ⟨rfl, hw, ?_, ?_, ?_⟩⟩⟩
  · exact hterms.mint.trans hv.1
  · exact hterms.owner.trans hv.2
  · exact hterms.program.trans (initIfNeeded_program h)

end Kept

/-! ## Delegations and their opposites -/

/-- A delegation or an undelegation. -/
inductive Shift where
  | delegate (a : DelegateAccounts) (amount : UInt64)
  | undelegate (a : DelegateAccounts) (amount : UInt64)
deriving DecidableEq, Repr

namespace Shift

def accounts : Shift → DelegateAccounts
  | delegate a _ => a
  | undelegate a _ => a

def call : Shift → Call
  | delegate a amount => .delegate a amount
  | undelegate a amount => .undelegate a amount

/-- The other instruction on the same accounts and amount. -/
def opposite : Shift → Shift
  | delegate a amount => undelegate a amount
  | undelegate a amount => delegate a amount

variable (x : Shift)

@[simp] theorem opposite_accounts : x.opposite.accounts = x.accounts := by
  cases x <;> rfl

@[simp] theorem metas_call : x.call.metas = x.accounts.metas := by
  cases x <;> rfl

theorem debited_opposite (k : Pubkey) : x.opposite.call.debited k = x.call.credited k := by
  cases x with
  | delegate a amount => exact Nat.add_comm ..
  | undelegate a amount => rfl

theorem credited_opposite (k : Pubkey) : x.opposite.call.credited k = x.call.debited k := by
  cases x with
  | delegate a amount => rfl
  | undelegate a amount => exact Nat.add_comm ..

theorem burned_opposite (m : Pubkey) : x.opposite.call.burned m = x.call.minted m := by
  cases x <;> rfl

theorem minted_opposite (m : Pubkey) : x.opposite.call.minted m = x.call.burned m := by
  cases x <;> rfl

end Shift

/-! ## Operating states -/

/-- The ledger is sound, on the legacy token program and without frozen accounts, and the AVSs are
covered. -/
structure Operable (R : Registry) (s : State) : Prop where
  ledger : LedgerSound s.ledger
  legacy : ∀ m x, s.ledger.mints m = some x → x.program = .program .token
  thawed : Thawed s.ledger
  solvent : Solvent R s.ledger

section Operable

variable {findBump : Pubkey → UInt8} {R : Registry} {p : Privileges Pubkey} {c : Call}
  {s s' t : State}

theorem Operable.feeFree (hs : Operable R s) : s.ledger.FeeFree :=
  fun m x hx => hs.ledger.legacy m x hx (hs.legacy m x hx)

/-- Instructions that no AVS signs keep it. -/
theorem Operable.execute (hs : Operable R s) (hp : ∀ k, p.signer k = true → k.isReserved = false)
    (hks : ∀ k ∈ R.addresses, p.signer k = false)
    (h : Runtime.execute ⟨findBump, R.programs⟩ p c s = .ok s') : Operable R s' where
  ledger := execute_ledgerSound h R.honest.fundsOnly hs.ledger
  legacy m y hy := by
    obtain ⟨start, hmoved, hstart⟩ := execute_fundsMoved h R.honest.fundsOnly
    obtain ⟨x, n, hx, rfl⟩ := hmoved.mint_of_some hy
    rcases hstart with hstart | ⟨_, _, _, _, _, _, hinit⟩
    · exact hs.legacy m x (hstart ▸ hx)
    · exact hs.legacy m x ((congrFun (initIfNeeded_mints hinit) m).symm.trans hx)
  thawed := (execute_terms h R.honest.fundsOnly).2 hs.thawed
  solvent :=
    @attempt_solvent findBump R (.call R.programs p c) s s' hp hks rfl hs.feeFree h hs.solvent

/-- A transaction that is accepted and covered goes through. -/
theorem Operable.exists_execute (hs : Operable R s) (hacc : c.Accepted (transaction c.metas) s)
    (hc : c.Covered s) (hdemands : c.demands = c.metas)
    (huser : ∀ u, c.user = some u → u.isPool = false ∧
      ∀ x avsProgram, c.avsCall = some (x, avsProgram) → u ≠ x.avs)
    (havs : ∀ x avsProgram, c.avsCall = some (x, avsProgram) →
      HonestAvs R.mints R.programs x avsProgram s.ledger) :
    ∃ s', Runtime.execute ⟨findBump, R.programs⟩ (transaction c.metas) c s = .ok s' := by
  have hset : Setting R.mints R.programs (transaction c.metas) c s :=
    ⟨hs.ledger, fun m _ => hs.legacy m, fun k _ => hs.thawed k, huser, R.honest.univ, havs⟩
  have hadm : ∀ m ∈ c.demands, (transaction c.metas).admits m = true :=
    fun m hm => transaction_admits (hdemands ▸ hm)
  exact @execute_of_covered R.mints ⟨findBump, R.programs⟩ _ _ _ hset hacc hadm hc

/-- An instruction that sets no record is a step of the plain ledger, whoever submits it. -/
theorem Operable.plainStep (hs : Operable R s)
    (h : Runtime.execute ⟨findBump, R.programs⟩ p c s = .ok s') (hc : c.setsRecord = false) :
    PlainStep c s s' :=
  execute_plainStep h R.honest (feeFree_call hs.feeFree c) hc

/-- An AVS of the registry is honest, if no AVS takes in the tokens of another. -/
theorem Operable.honestAvs {x : AvsAccounts} {avsProgram : Pubkey} (hs : Operable R s)
    (hR : ∀ m ∈ R.mints, (R.avs m).inputTokenMint ∉ R.mints) (hserves : R.Serves avsProgram x)
    (htp : isTokenInterface x.tokenProgram = true) :
    HonestAvs R.mints R.programs x avsProgram s.ledger := by
  obtain ⟨hmem, -, -, hinput, -, hvault⟩ := id hserves
  refine Registry.honestAvs hserves htp ?_ ?_ hs.solvent.held
  · rw [← hinput]
    exact hR _ hmem
  · rw [← hvault]
    exact hs.solvent.covered _ hmem

end Operable

/-! ## Taking back -/

/-- The second state has the balances and supplies of the first, and the same records. -/
structure Restored (s t : State) : Prop where
  kept : Kept s t
  balance : ∀ k, t.ledger.balance k = s.ledger.balance k
  supply : ∀ m, t.ledger.supply m = s.ledger.supply m

theorem Restored.refl (s : State) : Restored s s :=
  ⟨Kept.refl s, fun _ => rfl, fun _ => rfl⟩

section Undo

variable {findBump : Pubkey → UInt8} {R : Registry} {p : Privileges Pubkey} {a : DelegateAccounts}
  {name : InstructionName} {amount : UInt64} {s s₁ t t' : State} {x : Shift}

theorem FundsMoved.kept {l l' : Ledger Pubkey} {pools : Pubkey → Option LRTPool}
    (h : FundsMoved l l') : Kept ⟨l, pools⟩ ⟨l', pools⟩ :=
  ⟨rfl, h.some_account, h.some_mint⟩

/-- The account list of a delegation that went through is accepted ever after. -/
theorem DelegateRun.accepted_again {rt : Runtime} (d : DelegateRun rt p a name amount s)
    {avss : Set Pubkey} {avsMints : Finset Pubkey}
    (hh : HonestPrograms avss avsMints rt.programs) (hst : Kept s t)
    (ht : Kept { s with ledger := d.exchanged } t) :
    (∃ y, Delegate.tryAccounts p a (t.authorize a.pool a.signer) = .ok y) ∧
      (t.pools a.pool).map LRTPool.delegateAuthority = some a.signer := by
  obtain ⟨am, av, im, pv, hacc⟩ := d.accepted.kept hst
  -- the position that the delegation found or created is still there
  obtain ⟨-, -, -, hex⟩ := hh _ _ _ _ _ _ _ d.avs
  have hstart : Kept d.start t := by
    have hmoved := execAll_fundsMoved (exchange_movesFunds _ _ _) hex
    have hkept : Kept d.start ⟨d.exchanged, d.start.pools⟩ := FundsMoved.kept hmoved
    rw [initIfNeeded_pools d.init_eq] at hkept
    exact hkept.trans ht
  obtain ⟨w, hw⟩ := initIfNeeded_again d.init_eq hstart
  have htry := (Delegate.tryAccounts_eq_ok_iff p a t t _).2
    ⟨am, av, im, pv, d.record, w, hacc, hw, rfl⟩
  have hauth : (t.pools a.pool).map LRTPool.delegateAuthority = some a.signer := by
    rw [hacc.pool_some, Option.map_some, hacc.authority]
  refine ⟨?_, hauth⟩
  rw [← hacc.authority, State.authorize_self hacc.pool_some]
  exact ⟨_, htry⟩

/-- The accounts of a delegation that went through are apart. -/
theorem DelegateRun.apart {rt : Runtime} (d : DelegateRun rt p a name amount s)
    {avss : Set Pubkey} {avsMints : Finset Pubkey} (hh : HonestPrograms avss avsMints rt.programs)
    (hin : a.inputTokenMint ∉ avsMints) :
    a.poolInputTokenVault ≠ a.poolAvsTokenVault ∧
      a.poolInputTokenVault ≠ a.avsInputTokenVault := by
  obtain ⟨havs, -, hmem, -⟩ := hh _ _ _ _ _ _ _ d.avs
  have hpool : a.pool.isPool = true := isPool_of_eq d.accepted.pool_eq
  have hmint : a.inputTokenMint ≠ a.avsTokenMint := (ne_of_mem_of_not_mem hmem hin).symm
  have hne : a.pool ≠ a.avs := (Pubkey.ne_of_not_isPool hpool havs).symm
  exact ⟨associated_ne_of_mint d.accepted.poolInput_key
    ((initIfNeeded_eq_ok_iff ..).1 d.init_eq).2.1 hmint,
    associated_ne_of_wallet d.accepted.poolInput_key d.accepted.avsInput_key hne⟩

/-- After a delegation or an undelegation the opposite one is accepted and covered, in every state
that has the balances of the one it led to. -/
theorem Shift.opposite_ready (hR : ∀ m ∈ R.mints, (R.avs m).inputTokenMint ∉ R.mints)
    (hs : Operable R s) (h : Runtime.execute ⟨findBump, R.programs⟩ p x.call s = .ok s₁)
    (ht : Operable R t) (hst : Restored s₁ t) :
    x.opposite.call.Accepted p t ∧ x.opposite.call.Covered t ∧
      ∀ y avsProgram, x.opposite.call.avsCall = some (y, avsProgram) →
        HonestAvs R.mints R.programs y avsProgram t.ledger := by
  have hstep := hs.plainStep h (by cases x <;> rfl)
  have hkept := hstep.kept.trans hst.kept
  cases x with
  | delegate a amount =>
      obtain ⟨d, -, rfl⟩ := (execute_delegate_iff ..).1 h
      obtain ⟨hserves, -⟩ := Registry.serves_of_avsRun d.avs
      obtain ⟨hmem, -, -, hinput, -⟩ := id hserves
      have hin : a.inputTokenMint ∉ R.mints := fun hm => hR _ hmem (by rw [hinput]; exact hm)
      obtain ⟨hapart, -⟩ := d.apart R.honest hin
      obtain ⟨hacc, hauth⟩ := d.accepted_again R.honest hkept hst.kept
      refine ⟨hacc, ⟨hauth, ?_⟩, ?_⟩
      · have hmoved := hstep.balance a.poolAvsTokenVault
        rw [← hst.balance] at hmoved
        simp only [Shift.call, Call.debited, Call.credited, if_neg hapart.symm, if_true] at hmoved
        omega
      · intro y avsProgram hy
        obtain ⟨rfl, rfl⟩ := Prod.mk.inj (Option.some.inj hy)
        exact ht.honestAvs hR hserves d.accepted.tokenProgram
  | undelegate a amount =>
      obtain ⟨d, -, rfl⟩ := (execute_undelegate_iff ..).1 h
      obtain ⟨hserves, -⟩ := Registry.serves_of_avsRun d.avs
      obtain ⟨hmem, -, -, hinput, -⟩ := id hserves
      have hin : a.inputTokenMint ∉ R.mints := fun hm => hR _ hmem (by rw [hinput]; exact hm)
      obtain ⟨hpoolAvs, havs⟩ := d.apart R.honest hin
      obtain ⟨hacc, hauth⟩ := d.accepted_again R.honest hkept hst.kept
      refine ⟨hacc, ⟨hauth, ?_⟩, ?_⟩
      · have hmoved := hstep.balance a.poolInputTokenVault
        rw [← hst.balance] at hmoved
        simp only [Shift.call, Call.debited, Call.credited, if_neg hpoolAvs, if_neg havs,
          if_true] at hmoved
        omega
      · intro y avsProgram hy
        obtain ⟨rfl, rfl⟩ := Prod.mk.inj (Option.some.inj hy)
        exact ht.honestAvs hR hserves d.accepted.tokenProgram

/-- The transaction of a delegation is signed by its signer. -/
theorem Shift.signer {k : Pubkey} (hk : (transaction x.call.metas).signer k = true) :
    k = x.accounts.signer := by
  rw [Shift.metas_call] at hk
  refine transaction_signer_all (P := (· = x.accounts.signer)) ?_ hk
  simp [DelegateAccounts.metas, accountMeta, readonlyMeta]

theorem Shift.operable (x : Shift) (hsigner : x.accounts.signer.isReserved = false)
    (hapart : x.accounts.signer ∉ R.addresses) (hs : Operable R s)
    (h : Runtime.execute ⟨findBump, R.programs⟩ (transaction x.call.metas) x.call s = .ok s₁) :
    Operable R s₁ := by
  refine hs.execute ?_ ?_ h
  · intro k hk
    rw [x.signer hk]
    exact hsigner
  · intro k hk
    rw [Bool.eq_false_iff]
    intro hsig
    rw [x.signer hsig] at hk
    exact hapart hk

/-- So it can be taken back. -/
theorem Shift.exists_undo (hR : ∀ m ∈ R.mints, (R.avs m).inputTokenMint ∉ R.mints)
    (hsigner : x.accounts.signer.isReserved = false) (hapart : x.accounts.signer ∉ R.addresses)
    (hs : Operable R s)
    (h : Runtime.execute ⟨findBump, R.programs⟩ (transaction x.call.metas) x.call s = .ok s₁)
    (ht : Operable R t) (hst : Restored s₁ t) :
    ∃ t', Runtime.execute ⟨findBump, R.programs⟩ (transaction x.opposite.call.metas)
      x.opposite.call t = .ok t' ∧ Operable R t' ∧ Restored s t' := by
  have hmetas : x.opposite.call.metas = x.call.metas := by simp
  obtain ⟨hacc, hcovered, havs⟩ := Shift.opposite_ready hR hs h ht hst
  rw [← hmetas] at hacc
  have huser : x.opposite.call.user = none := by cases x <;> rfl
  obtain ⟨t', ht'⟩ := @Operable.exists_execute findBump R _ t ht hacc hcovered
    (by cases x <;> rfl) (fun u hu => by rw [huser] at hu; cases hu) havs
  refine ⟨t', ht', x.opposite.operable (by simpa using hsigner) (by simpa using hapart) ht ht', ?_⟩
  -- what the one takes the other gives
  have hstep := hs.plainStep h (by cases x <;> rfl)
  have hstep' := ht.plainStep ht' (by cases x <;> rfl)
  refine ⟨hstep.kept.trans (hst.kept.trans hstep'.kept), fun k => ?_, fun m => ?_⟩
  · have hthere := hstep.balance k
    have hback := hstep'.balance k
    rw [Shift.debited_opposite, Shift.credited_opposite, hst.balance] at hback
    omega
  · have hthere := hstep.supply m
    have hback := hstep'.supply m
    rw [Shift.burned_opposite, Shift.minted_opposite, hst.supply] at hback
    omega

end Undo

/-- Delegations can be unwound. In every operable state, whatever sequence of delegations and
undelegations went through, for any pools, AVSs of the registry and authorities other than these,
the opposite ones go through in the reverse order, and then every balance, supply and record is what
it was. -/
theorem delegations_unwind {findBump : Pubkey → UInt8} {R : Registry} {xs : List Shift}
    {s s' : State} (hR : ∀ m ∈ R.mints, (R.avs m).inputTokenMint ∉ R.mints) (hs : Operable R s)
    (hsigners : ∀ x ∈ xs, x.accounts.signer.isReserved = false ∧
      x.accounts.signer ∉ R.addresses)
    (h : Runtime.submit ⟨findBump, R.programs⟩ (xs.map Shift.call) s = .ok s') :
    ∃ s'', Runtime.submit ⟨findBump, R.programs⟩ ((xs.reverse.map Shift.opposite).map Shift.call)
        s' = .ok s'' ∧ s''.pools = s.pools ∧ (∀ k, s''.ledger.balance k = s.ledger.balance k) ∧
      ∀ m, s''.ledger.supply m = s.ledger.supply m := by
  -- an undo needs an operable state with the same balances, which the earlier undos lead to
  rw [Runtime.submit_eq_bundle, Rollback.bundle_map] at h
  have hkeeps : ∀ x ∈ xs, ∀ t t', Runtime.execute ⟨findBump, R.programs⟩
      (transaction x.call.metas) x.call t = .ok t' → Operable R t → Operable R t' :=
    fun x hx _ _ ht hgood => x.operable (hsigners x hx).1 (hsigners x hx).2 hgood ht
  obtain ⟨s'', h', -, hrestored⟩ := Rollback.bundle_unwound Restored.refl hkeeps
    (fun x hx _ _ _ hgood ht hgood' halike =>
      Shift.exists_undo hR (hsigners x hx).1 (hsigners x hx).2 hgood ht hgood' halike) hs h
  refine ⟨s'', ?_, hrestored.kept.pools, hrestored.balance, hrestored.supply⟩
  rw [Runtime.submit_eq_bundle, Rollback.bundle_map]
  exact h'

namespace Sample

theorem operating_operable : Operable registry operating where
  ledger := operating_sound
  legacy := program_ofLists (by decide)
  thawed := thawed_ofLists (by decide)
  solvent :=
    { mint := by
        intro m hm
        obtain rfl := Finset.mem_singleton.1 hm
        exact ⟨_, _, rfl, rfl, rfl, rfl, rfl, rfl⟩
      vault := fun m hm => ⟨_, rfl⟩
      covered := by
        intro m hm
        obtain rfl := Finset.mem_singleton.1 hm
        decide
      held := operating_ownHands }

/-- The authority delegates thirty tokens and takes fifty back. -/
def session : List Shift := [.delegate delegation 30, .undelegate delegation 50]

/-- It can delegate the fifty again and take the thirty back, and everything is as before. -/
theorem session_unwinds :
    ∃ s', Runtime.submit ⟨findBump, registry.programs⟩ (session.map Shift.call) operating =
        .ok s' ∧
      ∃ s'', Runtime.submit ⟨findBump, registry.programs⟩
          ((session.reverse.map Shift.opposite).map Shift.call) s' = .ok s'' ∧
        s''.pools = operating.pools ∧
        (∀ k, s''.ledger.balance k = operating.ledger.balance k) ∧
        ∀ m, s''.ledger.supply m = operating.ledger.supply m := by
  obtain ⟨s', hs', -⟩ : ∃ s', Runtime.submit ⟨findBump, registry.programs⟩
      (session.map Shift.call) operating = .ok s' ∧ true = true := exists_eq_ok (by decide)
  refine ⟨s', hs', delegations_unwind ?_ operating_operable ?_ hs'⟩
  · intro m hm
    obtain rfl := Finset.mem_singleton.1 hm
    decide
  · intro x hx
    simp only [session, List.mem_cons, List.not_mem_nil, or_false] at hx
    rcases hx with rfl | rfl
    · exact ⟨rfl, authority_apart⟩
    · exact ⟨rfl, authority_apart⟩

end Sample

/-! ## Taking a deposit back -/

/-- The accounts of the withdrawal of what was deposited. -/
def DepositAccounts.returned (a : DepositAccounts) : WithdrawAccounts where
  signer := a.signer
  inputTokenMint := a.inputTokenMint
  signerInputTokenVault := a.signerInputTokenVault
  poolInputTokenVault := a.poolInputTokenVault
  outputTokenMint := a.outputTokenMint
  signerOutputTokenVault := a.signerOutputTokenVault
  pool := a.pool
  associatedTokenProgram := a.associatedTokenProgram
  tokenProgram := a.tokenProgram
  systemProgram := a.systemProgram

/-- The withdrawal takes what the deposit gave. -/
theorem debited_returned (a : DepositAccounts) (amount : UInt64) (k : Pubkey) :
    (Call.withdraw a.returned amount).debited k = (Call.deposit a amount).credited k :=
  Nat.add_comm ..

theorem credited_returned (a : DepositAccounts) (amount : UInt64) (k : Pubkey) :
    (Call.withdraw a.returned amount).credited k = (Call.deposit a amount).debited k :=
  rfl

theorem burned_returned (a : DepositAccounts) (amount : UInt64) (m : Pubkey) :
    (Call.withdraw a.returned amount).burned m = (Call.deposit a amount).minted m :=
  rfl

section Deposit

variable {findBump : Pubkey → UInt8} {R : Registry} {p : Privileges Pubkey} {a : DepositAccounts}
  {amount : UInt64} {s s₁ : State}

/-- After a deposit the withdrawal is accepted. -/
theorem DepositRun.returned_accepted (d : DepositRun p a amount s) (hs : Operable R s)
    (hkept : Kept s { s with ledger := d.minted }) :
    Call.Accepted (transaction (Call.withdraw a.returned amount).metas)
      { s with ledger := d.minted } (.withdraw a.returned amount) := by
  have hacc := d.accepted
  have htoken : a.tokenProgram = .program .token :=
    hacc.inputMint_program.symm.trans (hs.legacy _ _ hacc.inputMint_some)
  have hvault_key : a.poolInputTokenVault =
      getAssociatedTokenAddress a.pool a.tokenProgram a.inputTokenMint :=
    htoken.symm ▸ hacc.poolInput_key
  have hvault_program := hs.ledger.program _ _ _ _ (hvault_key ▸ hacc.poolInput_some)
  obtain ⟨-, huo_key, -, hcases⟩ := (initIfNeeded_eq_ok_iff ..).1 d.init_eq
  have huo_owner : d.created.account.owner = a.signer := by
    rcases hcases with ⟨-, -, -, ho, -⟩ | ⟨-, -, -, hfresh, -⟩
    · exact ho
    · rw [hfresh]
      rfl
  have hmoved := (exec_fundsMoved rfl d.stake_eq).trans (exec_fundsMoved rfl d.mint_eq)
  obtain ⟨n, him⟩ := hkept.mint _ _ hacc.inputMint_some
  obtain ⟨n', hom⟩ := hkept.mint _ _ hacc.outputMint_some
  obtain ⟨ui, hui, hui_terms⟩ := hkept.account _ _ hacc.signerInput_some
  obtain ⟨pv, hpv, hpv_terms⟩ := hkept.account _ _ hacc.poolInput_some
  obtain ⟨uo, huo, huo_terms⟩ := hmoved.some_account _ _ (initIfNeeded_account d.init_eq)
  refine ⟨_, (Withdraw.tryAccounts_eq_ok_iff ..).2 ⟨d.inputMint.withSupply n, ui, pv,
    d.outputMint.withSupply n', uo, d.record, ?_, rfl⟩⟩
  constructor
  case tokenProgram => exact hacc.tokenProgram
  case associatedTokenProgram => exact hacc.associatedTokenProgram
  case systemProgram => exact hacc.systemProgram
  case pool_some => exact hacc.pool_some
  case pool_eq => exact hacc.pool_eq
  case inputMint_eq => exact hacc.inputMint_eq
  case outputMint_eq => exact hacc.outputMint_eq
  case inputMint_some => exact him
  case inputMint_program => exact hacc.inputMint_program
  case outputMint_some => exact hom
  case outputMint_program => exact hacc.outputMint_program
  case outputMint_authority => exact hacc.outputMint_authority
  case outputMint_freeze => exact hacc.outputMint_freeze
  case outputMint_decimals => exact hacc.outputMint_decimals
  case signerInput_some => exact hui
  case signerInput_key => exact hacc.signerInput_key
  case signerInput_owner => exact hui_terms.owner.trans hacc.signerInput_owner
  case signerInput_program => exact hui_terms.program.trans hacc.signerInput_program
  case poolInput_some => exact hpv
  case poolInput_key => exact hvault_key
  case poolInput_owner => exact hpv_terms.owner.trans hacc.poolInput_owner
  case poolInput_program => exact hpv_terms.program.trans hvault_program
  case signerOutput_some => exact huo
  case signerOutput_key => exact huo_key
  case signerOutput_owner => exact huo_terms.owner.trans huo_owner
  case signerOutput_program => exact huo_terms.program.trans (initIfNeeded_program d.init_eq)
  all_goals
    simp [transaction, Call.metas, WithdrawAccounts.metas, DepositAccounts.returned, accountMeta]

/-- A signer that did not approve itself can spend all that it was credited. -/
theorem DepositRun.credit_spendable (d : DepositRun p a amount s)
    (hself : ∀ x, s.ledger.accounts a.signerOutputTokenVault = some x →
      x.delegate ≠ some a.signer) :
    d.minted.spendable a.signerOutputTokenVault a.signer =
      d.minted.balance a.signerOutputTokenVault := by
  have hmoved := (exec_fundsMoved rfl d.stake_eq).trans (exec_fundsMoved rfl d.mint_eq)
  obtain ⟨uo, huo, hterms⟩ := hmoved.some_account _ _ (initIfNeeded_account d.init_eq)
  -- a new account has no delegate, and none is added
  have hcreated : d.created.account.delegate ≠ some a.signer := by
    rcases ((initIfNeeded_eq_ok_iff ..).1 d.init_eq).2.2.2 with
      ⟨-, hold, -⟩ | ⟨-, -, -, hfresh, -⟩
    · exact hself _ hold
    · rw [hfresh]
      simp [TokenAccount.fresh]
  have hdelegate : uo.delegate ≠ some a.signer := by
    rcases hterms.delegate with hd | hd
    · rw [hd]
      exact hcreated
    · simp [hd]
  rw [Ledger.spendable_of_some huo, Ledger.balance_of_some huo, TokenAccount.spendable,
    if_neg hdelegate]

end Deposit

/-- A deposit can be taken back. In every operable state, after a deposit that no AVS signed and of
a signer that is not its own delegate, the withdrawal of the amount succeeds, and then every
balance, supply and record is what it was. -/
theorem deposit_taken_back {findBump : Pubkey → UInt8} {R : Registry} {p : Privileges Pubkey}
    {a : DepositAccounts} {amount : UInt64} {s s₁ : State} (hs : Operable R s)
    (hp : ∀ k, p.signer k = true → k.isReserved = false)
    (hks : ∀ k ∈ R.addresses, p.signer k = false)
    (hself : ∀ x, s.ledger.accounts a.signerOutputTokenVault = some x →
      x.delegate ≠ some a.signer)
    (h : Runtime.execute ⟨findBump, R.programs⟩ p (.deposit a amount) s = .ok s₁) :
    ∃ s₂, Runtime.execute ⟨findBump, R.programs⟩
        (transaction (Call.withdraw a.returned amount).metas) (.withdraw a.returned amount) s₁ =
        .ok s₂ ∧ Restored s s₂ := by
  have hs₁ := hs.execute hp hks h
  have hstep := hs.plainStep h rfl
  have hcovered := execute_covered h rfl
  obtain ⟨d, rfl⟩ := (execute_deposit_iff ..).1 h
  have hsigner := hp _ d.accepted.signer
  have hne : a.signerInputTokenVault ≠ a.poolInputTokenVault :=
    associated_ne_of_wallet d.accepted.signerInput_key d.accepted.poolInput_key
      (Pubkey.ne_of_not_isReserved (isPool_of_eq d.accepted.pool_eq) hsigner)
  -- what was minted and what was paid in cover the withdrawal
  have hback : (Call.withdraw a.returned amount).Covered { s with ledger := d.minted } := by
    refine ⟨?_, ?_⟩
    · -- where input and output tokens are the same, the signer had as many before
      change amount.toNat ≤ d.minted.spendable a.signerOutputTokenVault a.signer
      rw [d.credit_spendable hself]
      have hcredited := hstep.balance a.signerOutputTokenVault
      have hspend := hcovered.1.trans (Ledger.spendable_le_balance ..)
      by_cases hsame : a.signerOutputTokenVault = a.signerInputTokenVault
      · rw [← hsame] at hspend
        simp only [Call.debited, Call.credited, if_pos hsame, if_true] at hcredited
        omega
      · simp only [Call.debited, Call.credited, if_neg hsame, if_true] at hcredited
        omega
    · change amount.toNat ≤ d.minted.balance a.poolInputTokenVault
      have hpaid := hstep.balance a.poolInputTokenVault
      simp only [Call.debited, Call.credited, if_neg hne.symm, if_true] at hpaid
      omega
  have huser : ∀ u, (Call.withdraw a.returned amount).user = some u → u.isPool = false ∧
      ∀ x avsProgram, (Call.withdraw a.returned amount).avsCall = some (x, avsProgram) →
        u ≠ x.avs := by
    intro u hu
    obtain rfl : a.signer = u := Option.some.inj hu
    exact ⟨Pubkey.not_isPool_of_not_isReserved hsigner, fun _ _ hx => by cases hx⟩
  obtain ⟨s₂, hs₂⟩ := @Operable.exists_execute findBump R _ _ hs₁
    (d.returned_accepted hs hstep.kept) hback rfl huser (fun x q hx => by cases hx)
  have hstep' := hs₁.plainStep hs₂ rfl
  refine ⟨s₂, hs₂, hstep.kept.trans hstep'.kept, fun k => ?_, fun m => ?_⟩
  · have hthere := hstep.balance k
    have hagain := hstep'.balance k
    rw [debited_returned, credited_returned] at hagain
    omega
  · have hthere := hstep.supply m
    have hagain := hstep'.supply m
    rw [burned_returned] at hagain
    simp only [Call.burned, Call.minted] at hthere hagain
    omega

namespace Sample

theorem opened_operable : Operable registry (opened 1000) where
  ledger := ledger_sound
  legacy := program_ofLists (by decide)
  thawed := ledger_thawed
  solvent := ledger_solvent

/-- The user deposits eighty tokens and takes them back. -/
theorem deposit_returned :
    ∃ s₁ s₂, Runtime.execute ⟨findBump, registry.programs⟩ (signedBy user)
        (.deposit (.derived user tokenProgram pool (record 1000)) 80) (opened 1000) = .ok s₁ ∧
      Runtime.execute ⟨findBump, registry.programs⟩
        (transaction (WithdrawAccounts.derived user tokenProgram pool (record 1000)).metas)
        (.withdraw (.derived user tokenProgram pool (record 1000)) 80) s₁ = .ok s₂ ∧
      Restored (opened 1000) s₂ := by
  obtain ⟨s₁, hs₁, -⟩ : ∃ s₁, Runtime.execute ⟨findBump, registry.programs⟩ (signedBy user)
      (.deposit (.derived user tokenProgram pool (record 1000)) 80) (opened 1000) = .ok s₁ ∧
      true = true := exists_eq_ok (by decide)
  have hself : ∀ x, (opened 1000).ledger.accounts
      (getAssociatedTokenAddress user tokenProgram outputMint) = some x →
      x.delegate ≠ some user := by
    intro x hx
    cases hx
  obtain ⟨s₂, hs₂, hrestored⟩ :=
    deposit_taken_back opened_operable (signedBy_outside rfl) (signedBy_apart user_apart) hself hs₁
  exact ⟨s₁, s₂, hs₁, hs₂, hrestored⟩

end Sample

end AdraLrt
