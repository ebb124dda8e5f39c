import AdraLrt.Run
import Mathlib.Data.List.Induction

/-!
# The history of a pool's authority

The delegate authority of a pool is decided by the run that led to the state: it starts as the key
given to `initialize` and moves only by a transfer that its holder signs (`AuthorityChain`). Every
instruction that needs the authority is signed by the holder of the moment, and the call that a
handler makes to its AVS program never succeeds when that program is this one, so no instruction
acts for the authority from inside another.
-/

set_option autoImplicit false

namespace AdraLrt

open TokenLedger

namespace Call

/-- The account that the instruction needs to be the delegate authority of its pool. -/
def authorizer : Call → Option Pubkey
  | transferDelegateAuthority a => some a.authority
  | delegate a _ => some a.signer
  | undelegate a _ => some a.signer
  | updateMintLimit a _ => some a.authority
  | _ => none

/-- The instruction sets the delegate authority of the pool `k`. -/
def setsAuthority (k : Pubkey) : Call → Prop
  | initializePool a _ => a.pool = k
  | transferDelegateAuthority a => a.pool = k
  | _ => False

end Call

/-- The key that a run from `s₀` gave the authority over `k` to first, and the one that has it now.
-/
inductive AuthorityChain (findBump : Pubkey → UInt8) (k : Pubkey) (s₀ : State) :
    List Action → Pubkey → Pubkey → Prop
  | initialized {as : List Action} {s' : State} {p : Privileges Pubkey}
      (programs : Programs) (a : InitializeAccounts) (limit : UInt64) : a.pool = k →
      Action.attempt findBump (.call programs p (.initializePool a limit))
        (run findBump s₀ as) = .ok s' →
      AuthorityChain findBump k s₀ (as ++ [.call programs p (.initializePool a limit)])
        a.delegateAuthority a.delegateAuthority
  | transferred {as : List Action} {s' : State} {p : Privileges Pubkey} {first : Pubkey}
      (programs : Programs) (a : TransferDelegateAuthorityAccounts) : a.pool = k →
      AuthorityChain findBump k s₀ as first a.authority → p.signer a.authority = true →
      Action.attempt findBump (.call programs p (.transferDelegateAuthority a))
        (run findBump s₀ as) = .ok s' →
      AuthorityChain findBump k s₀ (as ++ [.call programs p (.transferDelegateAuthority a)])
        first a.newAuthority
  | kept {as : List Action} {first key : Pubkey} (a : Action) :
      AuthorityChain findBump k s₀ as first key →
      (∀ programs p c s', a = .call programs p c →
        a.attempt findBump (run findBump s₀ as) = .ok s' → ¬ c.setsAuthority k) →
      AuthorityChain findBump k s₀ (as ++ [a]) first key

section Step

variable {findBump : Pubkey → UInt8} {s s' : State}

/-- An instruction that needs the authority was signed by it. -/
theorem execute_authorizer {rt : Runtime} {p : Privileges Pubkey} {c : Call} {key : Pubkey}
    (h : rt.execute p c s = .ok s') (hc : c.authorizer = some key) :
    ∃ r, s.pools c.pool = some r ∧ r.delegateAuthority = key ∧ p.signer key = true := by
  cases c with
  | initializePool a limit => cases hc
  | deposit a amount => cases hc
  | withdraw a amount => cases hc
  | withdrawDelegatedStake a amount => cases hc
  | transferDelegateAuthority a =>
      obtain ⟨r, hsig, -, -, hr, -, hauth, -⟩ := (transferDelegateAuthority_eq_ok_iff ..).1 h
      obtain rfl := Option.some.inj hc
      exact ⟨r, hr, hauth, hsig⟩
  | delegate a amount =>
      obtain ⟨d, -, -⟩ := (execute_delegate_iff ..).1 h
      obtain rfl := Option.some.inj hc
      exact ⟨d.record, d.accepted.pool_some, d.accepted.authority, d.accepted.signer⟩
  | undelegate a amount =>
      obtain ⟨d, -, -⟩ := (execute_undelegate_iff ..).1 h
      obtain rfl := Option.some.inj hc
      exact ⟨d.record, d.accepted.pool_some, d.accepted.authority, d.accepted.signer⟩
  | updateMintLimit a limit =>
      obtain ⟨r, hsig, -, -, hr, -, hauth, -⟩ := (updateMintLimit_eq_ok_iff ..).1 h
      obtain rfl := Option.some.inj hc
      exact ⟨r, hr, hauth, hsig⟩

/-- A changed limit was set by an update that the authority signed. -/
theorem attempt_limit {a : Action} {k : Pubkey} {r r' : LRTPool}
    (h : a.attempt findBump s = .ok s') (hr : s.pools k = some r) (hr' : s'.pools k = some r')
    (hne : r'.outputMintLimit ≠ r.outputMintLimit) :
    ∃ programs p b limit, a = .call programs p (.updateMintLimit b limit) ∧ b.pool = k ∧
      b.authority = r.delegateAuthority ∧ p.signer r.delegateAuthority = true := by
  have hkept : s'.pools = s.pools → False := by
    intro hpools
    rw [hpools, hr] at hr'
    exact hne (Option.some.inj hr' ▸ rfl)
  rcases attempt_pools h with ⟨-, hpools⟩ | ⟨programs, p, c, rfl, hc⟩
  · exact (hkept hpools).elim
  · cases hc with
    | kept _ _ hpools => exact (hkept hpools).elim
    | created b limit hpool hnone hs' =>
        subst hs'
        rcases State.setPool_cases hr' with ⟨rfl, rfl⟩ | ⟨-, hold⟩
        · rw [hr] at hnone
          cases hnone
        · exact (hne (Option.some.inj (hr.symm.trans hold) ▸ rfl)).elim
    | transferred b r₀ hsig hr₀ hauth hs' =>
        subst hs'
        rcases State.setPool_cases hr' with ⟨rfl, rfl⟩ | ⟨-, hold⟩
        · obtain rfl := Option.some.inj (hr.symm.trans hr₀)
          exact (hne rfl).elim
        · exact (hne (Option.some.inj (hr.symm.trans hold) ▸ rfl)).elim
    | limitSet b limit r₀ hsig hr₀ hauth hs' =>
        subst hs'
        rcases State.setPool_cases hr' with ⟨rfl, rfl⟩ | ⟨-, hold⟩
        · obtain rfl := Option.some.inj (hr.symm.trans hr₀)
          exact ⟨programs, p, b, limit, rfl, rfl, hauth.symm, hauth ▸ hsig⟩
        · exact (hne (Option.some.inj (hr.symm.trans hold) ▸ rfl)).elim

/-- The record of `k` after an attempt: new and with the key given to `initialize`, with the key
given to a transfer that its authority signed, or with the authority it had. -/
theorem attempt_authority {a : Action} {k : Pubkey} {r' : LRTPool}
    (h : a.attempt findBump s = .ok s') (hr' : s'.pools k = some r') :
    (∃ programs p b limit, a = .call programs p (.initializePool b limit) ∧ b.pool = k ∧
        r'.delegateAuthority = b.delegateAuthority) ∨
      (∃ programs p b r, a = .call programs p (.transferDelegateAuthority b) ∧ b.pool = k ∧
        s.pools k = some r ∧ r.delegateAuthority = b.authority ∧ p.signer b.authority = true ∧
        r'.delegateAuthority = b.newAuthority) ∨
      ((∀ programs p c, a = .call programs p c → ¬ c.setsAuthority k) ∧
        ∃ r, s.pools k = some r ∧ r'.delegateAuthority = r.delegateAuthority) := by
  rcases attempt_pools h with ⟨hno, hpools⟩ | ⟨programs, p, c, rfl, hc⟩
  · exact Or.inr (Or.inr ⟨fun programs p c ha => (hno programs p c ha).elim, r', hpools ▸ hr', rfl⟩)
  · cases hc with
    | kept c hset hpools =>
        refine Or.inr (Or.inr ⟨?_, r', hpools ▸ hr', rfl⟩)
        -- the two instructions that set an authority are among those that set a record
        rintro _ _ _ ⟨⟩ hk
        cases c with
        | initializePool a limit => cases hset
        | transferDelegateAuthority a => cases hset
        | deposit a amount => exact hk
        | withdraw a amount => exact hk
        | withdrawDelegatedStake a amount => exact hk
        | delegate a amount => exact hk
        | undelegate a amount => exact hk
        | updateMintLimit a limit => exact hk
    | created b limit hpool hnone hs' =>
        subst hs'
        rcases State.setPool_cases hr' with ⟨hk, rfl⟩ | ⟨hk, hold⟩
        · exact Or.inl ⟨programs, p, b, limit, rfl, hk.symm, rfl⟩
        · refine Or.inr (Or.inr ⟨?_, r', hold, rfl⟩)
          rintro _ _ _ ⟨⟩ hbk
          exact hk hbk.symm
    | transferred b r₀ hsig hr₀ hauth hs' =>
        subst hs'
        rcases State.setPool_cases hr' with ⟨rfl, rfl⟩ | ⟨hk, hold⟩
        · exact Or.inr (Or.inl ⟨programs, p, b, r₀, rfl, rfl, hr₀, hauth, hsig, rfl⟩)
        · refine Or.inr (Or.inr ⟨?_, r', hold, rfl⟩)
          rintro _ _ _ ⟨⟩ hbk
          exact hk hbk.symm
    | limitSet b limit r₀ hsig hr₀ hauth hs' =>
        subst hs'
        refine Or.inr (Or.inr ⟨?_, ?_⟩)
        · rintro _ _ _ ⟨⟩ hbk
          exact hbk
        · rcases State.setPool_cases hr' with ⟨rfl, rfl⟩ | ⟨-, hold⟩
          · exact ⟨r₀, hr₀, rfl⟩
          · exact ⟨r', hold, rfl⟩

end Step

section Run

variable {findBump : Pubkey → UInt8} {s₀ : State}

/-- The authority of a pool is the end of its chain. -/
theorem run_authorityChain (h₀ : ∀ k, s₀.pools k = none) (as : List Action) (k : Pubkey)
    (r : LRTPool) (hr : (run findBump s₀ as).pools k = some r) :
    ∃ first, AuthorityChain findBump k s₀ as first r.delegateAuthority := by
  -- the chain grows at its end, and so does the run
  induction as using List.reverseRecOn generalizing r with
  | nil =>
      rw [run, Rollback.run_nil, h₀] at hr
      cases hr
  | append_singleton as a ih =>
      rw [run, Rollback.run_concat, ← run] at hr
      cases ha : a.attempt findBump (run findBump s₀ as) with
      | error e =>
          -- a failed transaction adds nothing to the chain
          rw [Rollback.apply_of_error ha] at hr
          obtain ⟨first, hchain⟩ := ih r hr
          refine ⟨first, .kept a hchain ?_⟩
          intro programs p c s' _ hok
          rw [ha] at hok
          cases hok
      | ok s' =>
          rw [Rollback.apply_of_ok ha] at hr
          rcases attempt_authority ha hr with ⟨programs, p, b, limit, rfl, hk, hkey⟩ |
            ⟨programs, p, b, r₀, rfl, hk, hr₀, hauth, hsig, hkey⟩ | ⟨hno, r₀, hr₀, hkey⟩
          · exact ⟨b.delegateAuthority, hkey ▸ .initialized programs b limit hk ha⟩
          · obtain ⟨first, hchain⟩ := ih r₀ hr₀
            exact ⟨first, hkey ▸ .transferred programs b hk (hauth ▸ hchain) hsig ha⟩
          · obtain ⟨first, hchain⟩ := ih r₀ hr₀
            exact ⟨first, hkey ▸ .kept a hchain (fun programs p c _ hc _ => hno programs p c hc)⟩

/-- The transaction is a transfer of the authority over `k` to `key`. -/
def Action.TransfersTo (k key : Pubkey) : Action → Prop
  | .call _ _ (.transferDelegateAuthority a) => a.pool = k ∧ a.newAuthority = key
  | _ => False

/-- A key that is not the authority of a pool stays so as long as no transfer of the authority to it
succeeds. -/
theorem run_not_authority {s : State} {k key : Pubkey} {r : LRTPool} (hr : s.pools k = some r)
    (hne : r.delegateAuthority ≠ key) (as : List Action)
    (hback : ∀ a ∈ committed findBump s as, ¬ a.TransfersTo k key) :
    ∃ r', (run findBump s as).pools k = some r' ∧ r'.delegateAuthority ≠ key := by
  refine Rollback.run_invariant_committed (I := fun t : State => ∃ r', t.pools k = some r' ∧
    r'.delegateAuthority ≠ key) ?_ ⟨r, hr, hne⟩
  rintro a ha t t' ⟨r₁, hr₁, hne₁⟩ hok
  obtain ⟨r₂, hr₂, -⟩ := attempt_recordKept hok k r₁ hr₁
  refine ⟨r₂, hr₂, ?_⟩
  rcases attempt_authority hok hr₂ with ⟨programs, p, b, limit, rfl, hk, -⟩ |
    ⟨programs, p, b, r₀, rfl, hk, -, -, -, hkey⟩ | ⟨-, r₀, hr₀, hkey⟩
  · -- the pool is there, so it cannot be initialized again
    have hnone : t.pools b.pool = none := by
      obtain ⟨im, pv, om, hacc, -⟩ := (initializePool_eq_ok_iff ..).1 hok
      exact hacc.pool_none
    rw [hk, hr₁] at hnone
    cases hnone
  · rw [hkey]
    exact fun h => hback _ ha ⟨hk, h⟩
  · rw [hr₁] at hr₀
    obtain rfl := Option.some.inj hr₀
    rw [hkey]
    exact hne₁

/-- The call that a handler makes to its AVS program fails if that program is this one. -/
theorem invoke_self (rt : Runtime) (depth : Nat) (p : Privileges Pubkey) (x : AvsAccounts)
    {name : InstructionName} (hname : name = .delegate ∨ name = .undelegate) (amount : UInt64)
    (s : State) : ∃ e, rt.invoke depth p (avsInstruction programId name x amount) s = .error e := by
  cases depth with
  | zero => exact ⟨_, rfl⟩
  | succ depth =>
      cases h : rt.invoke (depth + 1) p (avsInstruction programId name x amount) s with
      | error e => exact ⟨e, rfl⟩
      | ok s' =>
          obtain ⟨-, cs, l, hrun, -⟩ := (rt.invoke_eq_ok_iff _ _ _ _ hname _ _ _).1 h
          exact (hrun.external _ rfl).elim

/-- The history of the pool records over any run: where they are, which fields stay, whose signature
every change of authority and of limit and every delegation carried, and that a key that gave its
authority away has no further say. -/
theorem authority_history (findBump : Pubkey → UInt8) (l : Ledger Pubkey) (as : List Action) :
    (∀ k r, (run findBump (deployed l) as).pools k = some r →
      k = poolAddress r.outputTokenMint r.bump ∧ r.bump = findBump r.outputTokenMint) ∧
    (∀ k k' r r', (run findBump (deployed l) as).pools k = some r →
      (run findBump (deployed l) as).pools k' = some r' →
      r.outputTokenMint = r'.outputTokenMint → k = k') ∧
    (∀ bs k r, (run findBump (deployed l) as).pools k = some r →
      ∃ r', (run findBump (deployed l) (as ++ bs)).pools k = some r' ∧ r'.bump = r.bump ∧
        r'.inputTokenMint = r.inputTokenMint ∧ r'.outputTokenMint = r.outputTokenMint) ∧
    (∀ k r, (run findBump (deployed l) as).pools k = some r →
      ∃ first, AuthorityChain findBump k (deployed l) as first r.delegateAuthority) ∧
    (∀ a s', Action.attempt findBump a (run findBump (deployed l) as) = .ok s' →
      (∀ k r r', (run findBump (deployed l) as).pools k = some r → s'.pools k = some r' →
        r'.outputMintLimit ≠ r.outputMintLimit →
        a.privileges.signer r.delegateAuthority = true) ∧
      (∀ programs p c key, a = .call programs p c → c.authorizer = some key →
        ∃ r, (run findBump (deployed l) as).pools c.pool = some r ∧ r.delegateAuthority = key ∧
          p.signer key = true)) ∧
    (∀ (rt : Runtime) depth p x name amount s, name = .delegate ∨ name = .undelegate →
      ∃ e, rt.invoke depth p (avsInstruction programId name x amount) s = .error e) ∧
    (∀ k r key bs programs p c s', (run findBump (deployed l) as).pools k = some r →
      r.delegateAuthority ≠ key →
      (∀ b ∈ committed findBump (run findBump (deployed l) as) bs, ¬ b.TransfersTo k key) →
      c.pool = k → c.authorizer = some key →
      Action.attempt findBump (.call programs p c) (run findBump (deployed l) (as ++ bs)) ≠
        .ok s') := by
  have hhome : RecordsAtHome findBump (run findBump (deployed l) as) :=
    run_recordsAtHome as (fun _ _ hr => nomatch hr)
  have happend : ∀ bs, run findBump (deployed l) (as ++ bs) =
      run findBump (run findBump (deployed l) as) bs := Rollback.run_append _ as
  refine ⟨hhome, fun k k' r r' => hhome.key_unique, ?_, ?_, ?_, ?_, ?_⟩
  · intro bs k r hr
    rw [happend]
    exact run_recordKept findBump _ bs k r hr
  · exact run_authorityChain (fun _ => rfl) as
  · intro a s' hok
    refine ⟨?_, ?_⟩
    · intro k r r' hr hr' hne
      obtain ⟨programs, p, b, limit, rfl, -, -, hsig⟩ := attempt_limit hok hr hr' hne
      exact hsig
    · rintro programs p c key rfl hc
      exact execute_authorizer hok hc
  · intro rt depth p x name amount s hname
    exact invoke_self rt depth p x hname amount s
  · intro k r key bs programs p c s' hr hne hback hk hc hok
    rw [happend] at hok
    obtain ⟨r₁, hr₁, hne₁⟩ : ∃ r₁, (run findBump (run findBump (deployed l) as) bs).pools k =
        some r₁ ∧ r₁.delegateAuthority ≠ key := run_not_authority hr hne bs hback
    obtain ⟨r₂, hr₂, hauth, -⟩ := execute_authorizer hok hc
    rw [hk, hr₁] at hr₂
    obtain rfl := Option.some.inj hr₂
    exact hne₁ hauth

end Run

end AdraLrt
