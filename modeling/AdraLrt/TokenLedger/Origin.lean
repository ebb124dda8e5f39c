import AdraLrt.TokenLedger.Spend

/-!
# Where accounts and mints come from

Only the two initializing instructions put data at a free address, and no instruction changes the
mint or the program of an account. So an account found after an instruction was there before, with
the same mint and program, or the instruction initialized it.
-/

set_option autoImplicit false

namespace TokenLedger

open Checked

variable {K : Type} [DecidableEq K] {p : Privileges K} {program : K} {ix : TokenIx K}
  {l l' : Ledger K}

/-- Writing to an account that exists leaves free addresses free. -/
theorem none_account_of_set {k j : K} {a : TokenAccount K} {b : Option (TokenAccount K)}
    (ha : l.accounts k = some a) (hj : l.accounts j = none) :
    (l.setAccount k b).accounts j = none := by
  have hne : j ≠ k := by
    rintro rfl
    rw [ha] at hj
    cases hj
  simpa [hne] using hj

theorem none_mint_of_set {k j : K} {x y : Mint K} (hx : l.mints k = some x)
    (hj : l.mints j = none) : (l.setMint k y).mints j = none := by
  have hne : j ≠ k := by
    rintro rfl
    rw [hx] at hj
    cases hj
  simpa [hne] using hj

/-- An account that was not there was initialized. -/
theorem process_account_new (h : process program ix l = .ok l') {k : K} {b : TokenAccount K}
    (hnone : l.accounts k = none) (hb : l'.accounts k = some b) :
    ix = .initializeAccount k b.mint b.owner ∧ b = .fresh program b.mint b.owner ∧
      ∃ m, l.mints b.mint = some m ∧ m.program = program := by
  have hno : l'.accounts k = none → ix = .initializeAccount k b.mint b.owner ∧
      b = .fresh program b.mint b.owner ∧ ∃ m, l.mints b.mint = some m ∧ m.program = program := by
    intro hk
    rw [hk] at hb
    cases hb
  cases ix with
  | initializeAccount account mint owner =>
      obtain ⟨m, -, -, hm, hp, rfl⟩ := (processInitializeAccount_eq_ok_iff ..).1 h
      rw [Ledger.setAccount_accounts] at hb
      split at hb
      · next hk =>
          obtain rfl := Option.some.inj hb
          exact ⟨by rw [hk]; rfl, rfl, m, hm, hp⟩
      · rw [hnone] at hb
        cases hb
  | initializeMint mint decimals mintAuthority freezeAuthority =>
      obtain ⟨-, -, rfl⟩ := (processInitializeMint_eq_ok_iff ..).1 h
      exact hno hnone
  | transfer source destination authority amount checked =>
      obtain ⟨src, dst, fee, h⟩ := (processTransfer_eq_ok_iff ..).1 h
      have hres := h.result
      by_cases hself : source = destination
      · simp only [hself, if_true] at hres
        exact hno (hres ▸ hnone)
      · simp only [hself, if_false] at hres
        obtain ⟨-, -, rfl⟩ := hres
        have hdst : (l.setAccount source (some ((src.authorized authority amount).debit
            amount))).accounts destination = some dst := by
          simpa [Ne.symm hself] using h.destination_some
        exact hno (none_account_of_set hdst (none_account_of_set h.source_some hnone))
  | mintTo mint destination authority amount =>
      obtain ⟨dst, x, hd, -, -, -, -, -, -, -, -, rfl⟩ := (processMintTo_eq_ok_iff ..).1 h
      exact hno (none_account_of_set hd hnone)
  | burn source mint authority amount =>
      obtain ⟨src, x, hs, -, -, -, -, -, -, -, -, rfl⟩ := (processBurn_eq_ok_iff ..).1 h
      exact hno (none_account_of_set hs hnone)
  | approve source delegate authority amount =>
      obtain ⟨a, ha, -, -, -, rfl⟩ := (processApprove_eq_ok_iff ..).1 h
      exact hno (none_account_of_set ha hnone)
  | revoke source authority =>
      obtain ⟨a, ha, -, -, -, rfl⟩ := (processRevoke_eq_ok_iff ..).1 h
      exact hno (none_account_of_set ha hnone)
  | setAuthority owned authority change =>
      have hset := (processSetAuthority_eq_ok_iff program owned authority l l' change).1 h
      cases change with
      | mintTokens new =>
          obtain ⟨m, -, -, -, rfl⟩ := hset
          exact hno hnone
      | freezeAccount new =>
          obtain ⟨m, -, -, -, rfl⟩ := hset
          exact hno hnone
      | accountOwner new =>
          obtain ⟨a, ha, -, -, -, rfl⟩ := hset
          exact hno (none_account_of_set ha hnone)
      | closeAccount new =>
          obtain ⟨a, ha, -, -, -, rfl⟩ := hset
          exact hno (none_account_of_set ha hnone)
  | closeAccount account destination authority =>
      obtain ⟨a, -, ha, -, -, -, -, rfl⟩ := (processCloseAccount_eq_ok_iff ..).1 h
      exact hno (none_account_of_set ha hnone)
  | freezeAccount account mint authority =>
      obtain ⟨a, m, ha, -, -, -, -, -, -, rfl⟩ := (processToggleFreeze_eq_ok_iff ..).1 h
      exact hno (none_account_of_set ha hnone)
  | thawAccount account mint authority =>
      obtain ⟨a, m, ha, -, -, -, -, -, -, rfl⟩ := (processToggleFreeze_eq_ok_iff ..).1 h
      exact hno (none_account_of_set ha hnone)

/-- A mint that was not there was initialized, without a transfer fee. -/
theorem process_mint_new (h : process program ix l = .ok l') {k : K} {y : Mint K}
    (hnone : l.mints k = none) (hy : l'.mints k = some y) :
    (∃ decimals authority freezeAuthority,
      ix = .initializeMint k decimals authority freezeAuthority) ∧ y.transferFee = none := by
  have hno : l'.mints k = none → (∃ decimals authority freezeAuthority,
      ix = .initializeMint k decimals authority freezeAuthority) ∧ y.transferFee = none := by
    intro hk
    rw [hk] at hy
    cases hy
  cases ix with
  | initializeMint mint decimals mintAuthority freezeAuthority =>
      obtain ⟨-, -, rfl⟩ := (processInitializeMint_eq_ok_iff ..).1 h
      rw [Ledger.setMint_mints] at hy
      split at hy
      · next hk =>
          obtain rfl := Option.some.inj hy
          exact ⟨⟨decimals, mintAuthority, freezeAuthority, by rw [hk]⟩, rfl⟩
      · rw [hnone] at hy
        cases hy
  | initializeAccount account mint owner =>
      obtain ⟨m, -, -, -, -, rfl⟩ := (processInitializeAccount_eq_ok_iff ..).1 h
      exact hno hnone
  | transfer source destination authority amount checked =>
      exact hno ((congrFun (processTransfer_mints h) k).trans hnone)
  | mintTo mint destination authority amount =>
      obtain ⟨dst, x, -, -, -, -, hx, -, -, -, -, rfl⟩ := (processMintTo_eq_ok_iff ..).1 h
      exact hno (none_mint_of_set (by exact hx) hnone)
  | burn source mint authority amount =>
      obtain ⟨src, x, -, -, hx, -, -, -, -, -, -, rfl⟩ := (processBurn_eq_ok_iff ..).1 h
      exact hno (none_mint_of_set (by exact hx) hnone)
  | approve source delegate authority amount =>
      obtain ⟨a, -, -, -, -, rfl⟩ := (processApprove_eq_ok_iff ..).1 h
      exact hno hnone
  | revoke source authority =>
      obtain ⟨a, -, -, -, -, rfl⟩ := (processRevoke_eq_ok_iff ..).1 h
      exact hno hnone
  | setAuthority owned authority change =>
      have hset := (processSetAuthority_eq_ok_iff program owned authority l l' change).1 h
      cases change with
      | mintTokens new =>
          obtain ⟨m, hm, -, -, rfl⟩ := hset
          exact hno (none_mint_of_set hm hnone)
      | freezeAccount new =>
          obtain ⟨m, hm, -, -, rfl⟩ := hset
          exact hno (none_mint_of_set hm hnone)
      | accountOwner new =>
          obtain ⟨a, -, -, -, -, rfl⟩ := hset
          exact hno hnone
      | closeAccount new =>
          obtain ⟨a, -, -, -, -, rfl⟩ := hset
          exact hno hnone
  | closeAccount account destination authority =>
      obtain ⟨a, -, -, -, -, -, -, rfl⟩ := (processCloseAccount_eq_ok_iff ..).1 h
      exact hno hnone
  | freezeAccount account mint authority =>
      obtain ⟨a, m, -, -, -, -, -, -, -, rfl⟩ := (processToggleFreeze_eq_ok_iff ..).1 h
      exact hno hnone
  | thawAccount account mint authority =>
      obtain ⟨a, m, -, -, -, -, -, -, -, rfl⟩ := (processToggleFreeze_eq_ok_iff ..).1 h
      exact hno hnone

/-- An account keeps its mint and its program as long as it exists. -/
theorem exec_account_fixed (h : exec p program ix l = .ok l') {k : K} {a b : TokenAccount K}
    (ha : l.accounts k = some a) (hb : l'.accounts k = some b) :
    b.mint = a.mint ∧ b.program = a.program := by
  rcases exec_account h k with heq | ⟨-, hc⟩
  · rw [heq, ha] at hb
    obtain rfl := Option.some.inj hb
    exact ⟨rfl, rfl⟩
  · rw [ha, hb] at hc
    cases hc with
    | moved authority amount hsig hmay hf hle => exact ⟨by simp, by simp⟩
    | credited amount fee hf => exact ⟨rfl, rfl⟩
    | approved delegate amount hsig hf => exact ⟨rfl, rfl⟩
    | revoked hsig hf => exact ⟨rfl, rfl⟩
    | ownerSet new hsig hf => exact ⟨rfl, rfl⟩
    | closeAuthoritySet new hsig hf => exact ⟨rfl, rfl⟩
    | frozenSet frozen hm hfa hsig => exact ⟨rfl, rfl⟩

/-- An account found after an instruction was there before, or the instruction initialized it. -/
theorem exec_account_origin (h : exec p program ix l = .ok l') {k : K} {b : TokenAccount K}
    (hb : l'.accounts k = some b) :
    (∃ a, l.accounts k = some a ∧ b.mint = a.mint ∧ b.program = a.program) ∨
      (l.accounts k = none ∧ ix = .initializeAccount k b.mint b.owner ∧
        b = .fresh program b.mint b.owner ∧
        ∃ m, l.mints b.mint = some m ∧ m.program = program) := by
  cases ha : l.accounts k with
  | some a =>
      obtain ⟨hm, hp⟩ := exec_account_fixed h ha hb
      exact Or.inl ⟨a, rfl, hm, hp⟩
  | none => exact Or.inr ⟨rfl, process_account_new ((exec_eq_ok_iff ..).1 h).2 ha hb⟩

/-- A mint found after an instruction was there before, or the instruction initialized it. -/
theorem exec_mint_origin (h : exec p program ix l = .ok l') {k : K} {y : Mint K}
    (hy : l'.mints k = some y) :
    (∃ x, l.mints k = some x ∧ y.program = x.program ∧ y.transferFee = x.transferFee) ∨
      (l.mints k = none ∧ (∃ decimals authority freezeAuthority,
        ix = .initializeMint k decimals authority freezeAuthority) ∧ y.transferFee = none) := by
  cases hx : l.mints k with
  | some x =>
      obtain ⟨x', hx', hp, -, hf⟩ := exec_mint_fixed h hx
      obtain rfl := Option.some.inj (hy.symm.trans hx')
      exact Or.inl ⟨x, rfl, hp, hf⟩
  | none => exact Or.inr ⟨rfl, process_mint_new ((exec_eq_ok_iff ..).1 h).2 hx hy⟩

/-- Every account holds a mint of its own program. -/
def Ledger.Minted (l : Ledger K) : Prop :=
  ∀ k a, l.accounts k = some a → ∃ x, l.mints a.mint = some x ∧ x.program = a.program

/-- It stays so, as mints are never closed. -/
theorem exec_minted (h : exec p program ix l = .ok l') (hl : l.Minted) : l'.Minted := by
  intro k b hb
  rcases exec_account_origin h hb with ⟨a, ha, hm, hp⟩ | ⟨-, -, hfresh, x, hx, hxp⟩
  · obtain ⟨x, hx, hxp⟩ := hl k a ha
    obtain ⟨x', hx', hp', -⟩ := exec_mint_fixed h hx
    exact ⟨x', hm ▸ hx', hp'.trans (hxp.trans hp.symm)⟩
  · obtain ⟨x', hx', hp', -⟩ := exec_mint_fixed h hx
    refine ⟨x', hx', hp'.trans (hxp.trans ?_)⟩
    rw [hfresh]
    rfl

theorem reach_minted (h : Reach p l l') (hl : l.Minted) : l'.Minted :=
  reach_invariant h hl fun _ _ _ _ hm hix => exec_minted hix hm

/-- No address has a mint and a token account. -/
def Ledger.Apart (l : Ledger K) : Prop :=
  ∀ k x, l.mints k = some x → l.accounts k = none

/-- Both are initialized at free addresses only. -/
theorem exec_apart (h : exec p program ix l = .ok l') (hl : l.Apart) : l'.Apart := by
  have hp := ((exec_eq_ok_iff ..).1 h).2
  intro k y hy
  rw [Option.eq_none_iff_forall_ne_some]
  intro b hb
  rcases exec_account_origin h hb with ⟨a, ha, -⟩ | ⟨-, rfl, -⟩
  · rcases exec_mint_origin h hy with ⟨x, hx, -⟩ | ⟨-, ⟨decimals, authority, freeze, rfl⟩, -⟩
    · rw [hl k x hx] at ha
      cases ha
    · obtain ⟨-, hnone, -⟩ := (processInitializeMint_eq_ok_iff ..).1 hp
      rw [hnone] at ha
      cases ha
  · obtain ⟨m, hnone, -, -, -, rfl⟩ := (processInitializeAccount_eq_ok_iff ..).1 hp
    rw [Ledger.setAccount_mints, hnone] at hy
    cases hy

theorem reach_apart (h : Reach p l l') (hl : l.Apart) : l'.Apart :=
  reach_invariant h hl fun _ _ _ _ hm hix => exec_apart hix hm

end TokenLedger
