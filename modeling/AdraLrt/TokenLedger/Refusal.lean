import AdraLrt.TokenLedger.Success

/-!
# Why the token program refuses

Between accounts that are in order, a transfer or a burn by the owner has one way to fail: the
amount is more than the owner can move (`exec_transfer_eq_error`, `exec_burn_eq_error`). Minting by
the authority fails when the supply would leave the 64-bit range (`exec_mintTo_eq_error`). Each is
the other half of a lemma about success.
-/

set_option autoImplicit false

namespace TokenLedger

open Checked

variable {K : Type} [DecidableEq K] {q : Privileges K} {l : Ledger K} {e : ExecError}

theorem getAccount_of_some {program k : K} {a : TokenAccount K} (h : l.accounts k = some a)
    (hp : a.program = program) : l.getAccount program k = .ok a :=
  (getAccount_eq_ok_iff ..).2 ⟨h, hp⟩

theorem getMint_of_some {program k : K} {m : Mint K} (h : l.mints k = some m)
    (hp : m.program = program) : l.getMint program k = .ok m :=
  (getMint_eq_ok_iff ..).2 ⟨h, hp⟩

/-- With the privileges, an instruction fails as the token program fails. -/
theorem exec_of_admits {program : K} {ix : TokenIx K} (hq : ∀ a ∈ ix.metas, q.admits a = true) :
    exec q program ix l = mapError .token (process program ix l) := by
  rw [exec, require, if_pos hq]
  rfl

/-- An owner is refused only as its own delegate, when the allowance is too small. -/
theorem authorize_of_not_mayMove {a : TokenAccount K} {owner : K} {amount : Nat}
    (howner : a.owner = owner) (h : ¬a.MayMove owner amount) :
    a.authorize owner amount = .error .insufficientFunds := by
  by_cases hd : a.delegate = some owner
  · have hshort : ¬amount ≤ a.delegatedAmount := fun hle => h (Or.inl ⟨hd, hle⟩)
    rw [TokenAccount.authorize, if_pos hd, require, if_neg hshort]
    rfl
  · exact (h (Or.inr ⟨hd, howner⟩)).elim

/-- A transfer by the owner. -/
theorem exec_transfer_eq_error {source destination owner mint : K} {src dst : TokenAccount K}
    {x : Mint K} {amount : Nat} (hc : l.Conserved) (hne : source ≠ destination)
    (hsrc : l.accounts source = some src) (hdst : l.accounts destination = some dst)
    (hx : l.mints mint = some x) (hsm : src.mint = mint) (hdm : dst.mint = mint)
    (hsp : src.program = x.program) (hdp : dst.program = x.program) (hfee : x.transferFee = none)
    (hs : src.frozen = false) (hd : dst.frozen = false) (howner : src.owner = owner)
    (hq : ∀ a ∈ (TokenIx.transfer source destination owner amount (some (mint, x.decimals))).metas,
      q.admits a = true)
    (h : exec q x.program (.transfer source destination owner amount (some (mint, x.decimals))) l =
      .error e) :
    e = .token .insufficientFunds ∧ src.spendable owner < amount := by
  by_cases hle : amount ≤ src.spendable owner
  · obtain ⟨hfunds, hmay⟩ := (TokenAccount.le_spendable_iff howner amount).1 hle
    rw [exec_transfer_of_mayMove hc (Or.inr rfl) hne hsrc hdst hx hsm hdm hsp hdp hfee hs hmay hd
      hfunds hq] at h
    cases h
  refine ⟨?_, Nat.lt_of_not_le hle⟩
  suffices hprocess : process x.program
      (.transfer source destination owner amount (some (mint, x.decimals))) l =
        .error .insufficientFunds by
    rw [exec_of_admits hq, hprocess] at h
    cases h
    rfl
  simp only [process, processTransfer, getAccount_of_some hsrc hsp, getAccount_of_some hdst hdp]
  rw [TokenAccount.le_spendable_iff howner] at hle
  by_cases hfunds : amount ≤ src.amount
  · -- the owner is held to its allowance
    have hrefused := authorize_of_not_mayMove howner fun hmay => hle ⟨hfunds, hmay⟩
    simp [require, hs, hd, hfunds, hsm, hdm, Ledger.transferFee, getMint_of_some hx rfl, hrefused,
      bind, Except.bind, pure, Except.pure]
  · simp [require, hs, hd, hfunds, bind, Except.bind]

/-- A burn by the owner. -/
theorem exec_burn_eq_error {source owner mint : K} {src : TokenAccount K} {x : Mint K}
    {amount : Nat} (hc : l.Conserved) (hsrc : l.accounts source = some src)
    (hx : l.mints mint = some x) (hsm : src.mint = mint) (hsp : src.program = x.program)
    (hs : src.frozen = false) (howner : src.owner = owner)
    (hq : ∀ a ∈ (TokenIx.burn source mint owner amount).metas, q.admits a = true)
    (h : exec q x.program (.burn source mint owner amount) l = .error e) :
    e = .token .insufficientFunds ∧ src.spendable owner < amount := by
  by_cases hle : amount ≤ src.spendable owner
  · obtain ⟨hfunds, hmay⟩ := (TokenAccount.le_spendable_iff howner amount).1 hle
    rw [exec_burn_of_mayMove hc hsrc hx hsm hsp hs hmay hfunds hq] at h
    cases h
  refine ⟨?_, Nat.lt_of_not_le hle⟩
  suffices hprocess : process x.program (.burn source mint owner amount) l =
      .error .insufficientFunds by
    rw [exec_of_admits hq, hprocess] at h
    cases h
    rfl
  simp only [process, processBurn, getAccount_of_some hsrc hsp, getMint_of_some hx rfl]
  rw [TokenAccount.le_spendable_iff howner] at hle
  by_cases hfunds : amount ≤ src.amount
  · have hrefused := authorize_of_not_mayMove howner fun hmay => hle ⟨hfunds, hmay⟩
    simp [require, hs, hfunds, hsm, hrefused, bind, Except.bind]
  · simp [require, hs, hfunds, bind, Except.bind]

/-- Minting by the authority. -/
theorem exec_mintTo_eq_error {destination authority mint : K} {dst : TokenAccount K}
    {x : Mint K} {amount : Nat} (hc : l.Conserved) (hdst : l.accounts destination = some dst)
    (hx : l.mints mint = some x) (hdm : dst.mint = mint) (hdp : dst.program = x.program)
    (hd : dst.frozen = false) (hauth : x.mintAuthority = some authority)
    (hq : ∀ a ∈ (TokenIx.mintTo mint destination authority amount).metas, q.admits a = true)
    (h : exec q x.program (.mintTo mint destination authority amount) l = .error e) :
    e = .token .overflow ∧ u64Max < x.supply + amount := by
  by_cases hfits : x.supply + amount ≤ u64Max
  · rw [exec_mintTo_of_authority hc hdst hx hdm hdp hd hauth hfits hq] at h
    cases h
  refine ⟨?_, Nat.lt_of_not_le hfits⟩
  suffices hprocess : process x.program (.mintTo mint destination authority amount) l =
      .error .overflow by
    rw [exec_of_admits hq, hprocess] at h
    cases h
    rfl
  simp only [process, processMintTo, getAccount_of_some hdst hdp, getMint_of_some hx rfl]
  -- the balance of the account is added to first, with the same error
  by_cases hbalance : dst.amount + amount ≤ u64Max
  · simp [require, addU64, orError, hd, hdm, hauth, hbalance, hfits, bind, Except.bind]
  · simp [require, addU64, orError, hd, hdm, hauth, hbalance, bind, Except.bind]

end TokenLedger
