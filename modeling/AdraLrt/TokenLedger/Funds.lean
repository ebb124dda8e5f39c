import AdraLrt.TokenLedger.Custody
import Mathlib.Algebra.GroupWithZero.Nat

/-!
# Instructions that move funds only

Transfers, minting and burning change amounts and supplies and leave the terms of every account and
every mint alone: who owns it, which mint and program it belongs to, who may close or freeze it. A
delegate can only exhaust its allowance. So whatever is known about these terms survives such
instructions, whoever signed them.
-/

set_option autoImplicit false

namespace TokenLedger

variable {K : Type}

/-- Transfers, minting and burning. -/
def TokenIx.movesFunds : TokenIx K → Bool
  | .transfer _ _ _ _ _ => true
  | .mintTo _ _ _ _ => true
  | .burn _ _ _ _ => true
  | _ => false

/-- `b` differs from `a` in its amounts, and may have lost its delegate. -/
structure SameTerms (a b : TokenAccount K) : Prop where
  mint : b.mint = a.mint
  owner : b.owner = a.owner
  program : b.program = a.program
  closeAuthority : b.closeAuthority = a.closeAuthority
  frozen : b.frozen = a.frozen
  delegate : b.delegate = a.delegate ∨ b.delegate = none

theorem SameTerms.refl (a : TokenAccount K) : SameTerms a a :=
  ⟨rfl, rfl, rfl, rfl, rfl, Or.inl rfl⟩

theorem SameTerms.trans {a b c : TokenAccount K} (h : SameTerms a b) (h' : SameTerms b c) :
    SameTerms a c where
  mint := h'.mint.trans h.mint
  owner := h'.owner.trans h.owner
  program := h'.program.trans h.program
  closeAuthority := h'.closeAuthority.trans h.closeAuthority
  frozen := h'.frozen.trans h.frozen
  delegate := by
    rcases h'.delegate with hd | hd
    · rw [hd]
      exact h.delegate
    · exact Or.inr hd

theorem SameTerms.delegate_none {a b : TokenAccount K} (h : SameTerms a b)
    (ha : a.delegate = none) : b.delegate = none := by
  rcases h.delegate with hd | hd
  · rw [hd, ha]
  · exact hd

/-- The two ledgers have the same accounts and mints on the same terms. -/
structure FundsMoved (l l' : Ledger K) : Prop where
  none_account : ∀ k, l.accounts k = none → l'.accounts k = none
  some_account : ∀ k a, l.accounts k = some a → ∃ b, l'.accounts k = some b ∧ SameTerms a b
  none_mint : ∀ m, l.mints m = none → l'.mints m = none
  some_mint : ∀ m x, l.mints m = some x → ∃ n, l'.mints m = some (x.withSupply n)

theorem FundsMoved.refl (l : Ledger K) : FundsMoved l l where
  none_account _ h := h
  some_account _ a h := ⟨a, h, SameTerms.refl a⟩
  none_mint _ h := h
  some_mint _ x h := ⟨x.supply, h⟩

theorem FundsMoved.trans {l m n : Ledger K} (h : FundsMoved l m) (h' : FundsMoved m n) :
    FundsMoved l n where
  none_account k hk := h'.none_account k (h.none_account k hk)
  some_account k a ha := by
    obtain ⟨b, hb, hab⟩ := h.some_account k a ha
    obtain ⟨c, hc, hbc⟩ := h'.some_account k b hb
    exact ⟨c, hc, hab.trans hbc⟩
  none_mint m hm := h'.none_mint m (h.none_mint m hm)
  some_mint m x hx := by
    obtain ⟨i, hi⟩ := h.some_mint m x hx
    obtain ⟨j, hj⟩ := h'.some_mint m _ hi
    exact ⟨j, hj⟩

theorem FundsMoved.account_of_some {l l' : Ledger K} (h : FundsMoved l l') {k : K}
    {b : TokenAccount K} (hb : l'.accounts k = some b) :
    ∃ a, l.accounts k = some a ∧ SameTerms a b := by
  cases ha : l.accounts k with
  | none =>
      rw [h.none_account k ha] at hb
      cases hb
  | some a =>
      obtain ⟨b', hb', hab⟩ := h.some_account k a ha
      obtain rfl := Option.some.inj (hb.symm.trans hb')
      exact ⟨a, rfl, hab⟩

theorem FundsMoved.mint_of_some {l l' : Ledger K} (h : FundsMoved l l') {m : K} {y : Mint K}
    (hy : l'.mints m = some y) : ∃ x n, l.mints m = some x ∧ y = x.withSupply n := by
  cases hx : l.mints m with
  | none =>
      rw [h.none_mint m hx] at hy
      cases hy
  | some x =>
      obtain ⟨n, hn⟩ := h.some_mint m x hx
      exact ⟨x, n, rfl, Option.some.inj (hy.symm.trans hn)⟩

variable [DecidableEq K]

theorem sameTerms_debit (a : TokenAccount K) (authority : K) (amount n : Nat) :
    SameTerms a ((a.authorized authority amount).debit n) where
  mint := by simp
  owner := by simp
  program := by simp
  closeAuthority := by simp
  frozen := by simp
  delegate := by
    rw [TokenAccount.debit_delegate]
    exact authorized_delegate a authority amount

omit [DecidableEq K] in
theorem sameTerms_credit (a : TokenAccount K) (amount fee : Nat) :
    SameTerms a (a.credit amount fee) :=
  ⟨rfl, rfl, rfl, rfl, rfl, Or.inl rfl⟩

theorem fundsMoved_setAccount {l : Ledger K} {k : K} {a b : TokenAccount K}
    (ha : l.accounts k = some a) (h : SameTerms a b) : FundsMoved l (l.setAccount k (some b)) where
  none_account j hj := by
    have hne : j ≠ k := by
      rintro rfl
      rw [ha] at hj
      cases hj
    simpa [hne] using hj
  some_account j c hc := by
    rw [Ledger.setAccount_accounts]
    split
    · next hj =>
        obtain rfl := Option.some.inj (ha.symm.trans (hj ▸ hc))
        exact ⟨b, rfl, h⟩
    · exact ⟨c, hc, SameTerms.refl c⟩
  none_mint _ hm := hm
  some_mint _ x hx := ⟨x.supply, hx⟩

theorem fundsMoved_setMint {l : Ledger K} {m : K} {x : Mint K} (hx : l.mints m = some x) (n : Nat) :
    FundsMoved l (l.setMint m (x.withSupply n)) where
  none_account _ h := h
  some_account _ a h := ⟨a, h, SameTerms.refl a⟩
  none_mint j hj := by
    have hne : j ≠ m := by
      rintro rfl
      rw [hx] at hj
      cases hj
    simpa [hne] using hj
  some_mint j y hy := by
    rw [Ledger.setMint_mints]
    split
    · next hj =>
        obtain rfl := Option.some.inj (hx.symm.trans (hj ▸ hy))
        exact ⟨n, rfl⟩
    · exact ⟨y.supply, hy⟩

/-- Transfers, minting and burning leave all terms alone. -/
theorem process_fundsMoved {program : K} {ix : TokenIx K} {l l' : Ledger K}
    (hix : ix.movesFunds = true) (h : process program ix l = .ok l') : FundsMoved l l' := by
  cases ix with
  | transfer source destination authority amount checked =>
      obtain ⟨src, dst, fee, h⟩ := (processTransfer_eq_ok_iff ..).1 h
      have hres := h.result
      by_cases hself : source = destination
      · simp only [hself, if_true] at hres
        rw [hres]
        exact FundsMoved.refl l
      · simp only [hself, if_false] at hres
        obtain ⟨-, -, rfl⟩ := hres
        refine (fundsMoved_setAccount h.source_some
          (sameTerms_debit src authority amount amount)).trans ?_
        refine fundsMoved_setAccount ?_ (sameTerms_credit dst (amount - fee) fee)
        simpa [Ne.symm hself] using h.destination_some
  | mintTo mint destination authority amount =>
      obtain ⟨dst, x, hd, -, -, -, hx, -, -, -, -, rfl⟩ := (processMintTo_eq_ok_iff ..).1 h
      refine (fundsMoved_setAccount hd (sameTerms_credit dst amount 0)).trans ?_
      refine fundsMoved_setMint ?_ (x.supply + amount)
      exact hx
  | burn source mint authority amount =>
      obtain ⟨src, x, hs, -, hx, -, -, -, -, -, -, rfl⟩ := (processBurn_eq_ok_iff ..).1 h
      refine (fundsMoved_setAccount hs (sameTerms_debit src authority amount amount)).trans ?_
      refine fundsMoved_setMint ?_ (x.supply - amount)
      exact hx
  | initializeMint mint decimals mintAuthority freezeAuthority => cases hix
  | initializeAccount account mint owner => cases hix
  | approve source delegate authority amount => cases hix
  | revoke source authority => cases hix
  | setAuthority owned authority change => cases hix
  | closeAccount account destination authority => cases hix
  | freezeAccount account mint authority => cases hix
  | thawAccount account mint authority => cases hix

theorem exec_fundsMoved {p : Privileges K} {program : K} {ix : TokenIx K} {l l' : Ledger K}
    (hix : ix.movesFunds = true) (h : exec p program ix l = .ok l') : FundsMoved l l' :=
  process_fundsMoved hix ((exec_eq_ok_iff ..).1 h).2

theorem execAll_fundsMoved {p : Privileges K} {cs : List (K × TokenIx K)} {l l' : Ledger K}
    (hcs : ∀ c ∈ cs, c.2.movesFunds = true) (h : execAll p cs l = .ok l') : FundsMoved l l' :=
  execAll_invariant h (FundsMoved.refl l) fun c hc _ _ hmoved hix =>
    hmoved.trans (exec_fundsMoved (hcs c hc) hix)

/-- Nothing is taken from an account that does not exist. -/
theorem debited_eq_zero_of_none {program : K} {ix : TokenIx K} {l l' : Ledger K}
    (h : process program ix l = .ok l') {k : K} (hk : l.accounts k = none) : ix.debited k = 0 := by
  cases ix with
  | transfer source destination authority amount checked =>
      obtain ⟨src, dst, fee, h⟩ := (processTransfer_eq_ok_iff ..).1 h
      have hne : k ≠ source := by
        rintro rfl
        rw [h.source_some] at hk
        cases hk
      simp [TokenIx.debited, hne]
  | burn source mint authority amount =>
      obtain ⟨src, x, hs, -, -, -, -, -, -, -, -, -⟩ := (processBurn_eq_ok_iff ..).1 h
      have hne : k ≠ source := by
        rintro rfl
        rw [hs] at hk
        cases hk
      simp [TokenIx.debited, hne]
  | mintTo mint destination authority amount => rfl
  | initializeMint mint decimals mintAuthority freezeAuthority => rfl
  | initializeAccount account mint owner => rfl
  | approve source delegate authority amount => rfl
  | revoke source authority => rfl
  | setAuthority owned authority change => rfl
  | closeAccount account destination authority => rfl
  | freezeAccount account mint authority => rfl
  | thawAccount account mint authority => rfl

/-! ## Balances over a list of instructions -/

/-- No instruction sets a transfer fee. -/
theorem exec_feeFree {p : Privileges K} {program : K} {ix : TokenIx K} {l l' : Ledger K}
    (hf : l.FeeFree) (h : exec p program ix l = .ok l') : l'.FeeFree := by
  intro m y hy
  rcases exec_mint h m with heq | ⟨-, hc⟩
  · exact hf m y (heq ▸ hy)
  · rw [hy] at hc
    generalize hx : l.mints m = x at hc
    cases hc with
    | created decimals mintAuthority freezeAuthority => rfl
    | minted amount hh hsig =>
        have hfee := hf m _ hx
        exact hfee
    | burned amount hle =>
        have hfee := hf m _ hx
        exact hfee
    | mintAuthoritySet new hh hsig =>
        have hfee := hf m _ hx
        exact hfee
    | freezeAuthoritySet new hh hsig =>
        have hfee := hf m _ hx
        exact hfee

theorem execAll_feeFree {p : Privileges K} {cs : List (K × TokenIx K)} {l l' : Ledger K}
    (hf : l.FeeFree) (h : execAll p cs l = .ok l') : l'.FeeFree :=
  execAll_invariant h hf fun _ _ _ _ hm hix => exec_feeFree hm hix

/-- If every instruction of a list adds `f` to a quantity and takes `g` from it, the list adds the
one sum and takes the other. -/
theorem execAll_tally {p : Privileges K} {I : Ledger K → Prop} {X : Ledger K → Nat}
    {f g : K × TokenIx K → Nat} {cs : List (K × TokenIx K)} {l l' : Ledger K}
    (h : execAll p cs l = .ok l') (hl : I l)
    (hinv : ∀ c ∈ cs, ∀ m n, I m → exec p c.1 c.2 m = .ok n → I n)
    (hstep : ∀ c ∈ cs, ∀ m n, I m → exec p c.1 c.2 m = .ok n → X n + g c = X m + f c) :
    X l' + (cs.map g).sum = X l + (cs.map f).sum := by
  induction cs generalizing l with
  | nil =>
      simp only [execAll, Except.ok.injEq] at h
      simp [h]
  | cons c cs ih =>
      obtain ⟨m, hm, hrest⟩ := (execAll_cons_eq_ok_iff ..).1 h
      have hfirst := hstep c List.mem_cons_self l m hl hm
      have hothers := ih hrest (hinv c List.mem_cons_self l m hl hm)
        (fun d hd => hinv d (List.mem_cons_of_mem c hd))
        (fun d hd => hstep d (List.mem_cons_of_mem c hd))
      simp only [List.map_cons, List.sum_cons]
      omega

/-- A sequence of instructions that take no fee anywhere. -/
theorem execAll_balance_of_free {p : Privileges K} {cs : List (K × TokenIx K)} {l l' : Ledger K}
    (hf : ∀ c ∈ cs, ∀ m, c.2.Free m) (h : execAll p cs l = .ok l') (k : K) :
    l'.balance k + (cs.map fun c => c.2.debited k).sum =
      l.balance k + (cs.map fun c => c.2.credited k).sum := by
  apply execAll_tally (I := fun _ => True) (X := fun l => l.balance k) h trivial
  · exact fun _ _ _ _ _ _ => trivial
  · intro c hc m n _ hix
    exact process_balance_of_free (hf c hc m) ((exec_eq_ok_iff ..).1 hix).2 k

theorem execAll_supply {p : Privileges K} {cs : List (K × TokenIx K)} {l l' : Ledger K}
    (h : execAll p cs l = .ok l') (m : K) :
    l'.supply m + (cs.map fun c => c.2.burned m).sum =
      l.supply m + (cs.map fun c => c.2.minted m).sum := by
  apply execAll_tally (I := fun _ => True) (X := fun l => l.supply m) h trivial
  · exact fun _ _ _ _ _ _ => trivial
  · intro c _ l₁ l₂ _ hix
    exact process_supply ((exec_eq_ok_iff ..).1 hix).2 m

end TokenLedger
