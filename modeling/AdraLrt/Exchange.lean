import AdraLrt.Run
import AdraLrt.TokenLedger.Funds

/-!
# Honest AVS programs

An honest AVS exchanges input tokens of a pool for its own tokens, one for one, and does nothing
else: delegating moves the tokens into its vault and mints as many for the pool, undelegating burns
them and pays back (`AvsAccounts.exchange`). Its address is owned by its program, so it is neither
a pool nor a user, and its token mint is its own: addresses and mints of the AVSs are fixed sets,
from which users and the mints of pools are kept apart.

Under honest programs every successful instruction moves funds only, apart from creating an empty
associated account, and `execute_balance` and `execute_supply` give what it does to every balance
and every supply.
-/

set_option autoImplicit false

namespace AdraLrt

open TokenLedger Checked

/-- The token-program instructions of an exchange. -/
def AvsAccounts.exchange (x : AvsAccounts) (amount : Nat) :
    InstructionName → List (Pubkey × TokenIx Pubkey)
  | .delegate => [
      (x.tokenProgram, .transfer x.poolInputTokenVault x.avsInputTokenVault x.pool amount none),
      (x.tokenProgram, .mintTo x.avsTokenMint x.poolAvsTokenVault x.avs amount)]
  | .undelegate => [
      (x.tokenProgram, .burn x.poolAvsTokenVault x.avsTokenMint x.pool amount),
      (x.tokenProgram, .transfer x.avsInputTokenVault x.poolInputTokenVault x.avs amount none)]
  | _ => []

/-- Every AVS program behaves honestly: when it does not fail, the ledger is as after the exchange.
`avss` are the addresses of the AVSs and `avsMints` their token mints. -/
def HonestPrograms (avss : Set Pubkey) (avsMints : Finset Pubkey) (programs : Programs) : Prop :=
  ∀ x avsProgram name amount s l cs, AvsRun programs x avsProgram name amount s l cs →
    x.avs.isPool = false ∧ x.avs ∈ avss ∧ x.avsTokenMint ∈ avsMints ∧
      execAll (x.privileges avsProgram) (x.exchange amount.toNat name) s.ledger = .ok l

/-- No AVS program changes the terms of an account or a mint, whatever it does with the funds. -/
def FundsOnly (programs : Programs) : Prop :=
  ∀ x avsProgram name amount s l cs, AvsRun programs x avsProgram name amount s l cs →
    FundsMoved s.ledger l

/-- No AVS program touches what belongs to pools except by the exchange, and no AVS is a pool: after
a call the accounts that pools own and the mints that they are the authority of are as the exchange
leaves them. -/
def ExchangesOnly (programs : Programs) : Prop :=
  ∀ x avsProgram name amount s l cs, AvsRun programs x avsProgram name amount s l cs →
    x.avs.isPool = false ∧
      ∃ l', execAll (x.privileges avsProgram) (x.exchange amount.toNat name) s.ledger = .ok l' ∧
        (∀ k a, s.ledger.accounts k = some a → a.owner.isPool = true →
          l.accounts k = l'.accounts k) ∧
        ∀ m y, s.ledger.mints m = some y → (∃ k ∈ y.mintAuthority, k.isPool = true) →
          l.mints m = l'.mints m

theorem exchange_movesFunds (x : AvsAccounts) (amount : Nat) (name : InstructionName) :
    ∀ c ∈ x.exchange amount name, c.2.movesFunds = true := by
  intro c hc
  cases name with
  | delegate =>
      simp only [AvsAccounts.exchange, List.mem_cons, List.not_mem_nil, or_false] at hc
      rcases hc with rfl | rfl
      · rfl
      · rfl
  | undelegate =>
      simp only [AvsAccounts.exchange, List.mem_cons, List.not_mem_nil, or_false] at hc
      rcases hc with rfl | rfl
      · rfl
      · rfl
  | initializePool => cases hc
  | deposit => cases hc
  | withdraw => cases hc
  | withdrawDelegatedStake => cases hc
  | transferDelegateAuthority => cases hc
  | updateMintLimit => cases hc

/-- An AVS program that controls its AVS may run an exchange with the accounts of its call. -/
theorem exchange_admitted {x : AvsAccounts} {avsProgram : Pubkey}
    (h : avsProgram.controls x.avs = true) (amount : Nat) (name : InstructionName) :
    ∀ c ∈ x.exchange amount name, ∀ a ∈ c.2.metas, (x.privileges avsProgram).admits a = true := by
  have hpool := x.signer_pool avsProgram
  have havs := AvsAccounts.signer_avs h
  have hpool_available := AvsAccounts.available_of_signer hpool
  have havs_available := AvsAccounts.available_of_signer havs
  have hwritable : ∀ k ∈ x.writable, (x.privileges avsProgram).available k = true ∧
      (x.privileges avsProgram).writable k = true :=
    fun k hk => AvsAccounts.available_of_mem_writable hk
  simp only [AvsAccounts.writable, List.forall_mem_cons, List.not_mem_nil, false_imp_iff,
    implies_true, and_true] at hwritable
  intro c hc
  cases name with
  | delegate =>
      simp only [AvsAccounts.exchange, List.mem_cons, List.not_mem_nil, or_false] at hc
      rcases hc with rfl | rfl
      · simp [TokenIx.metas, Privileges.admits, hwritable, hpool]
      · simp [TokenIx.metas, Privileges.admits, hwritable, havs]
  | undelegate =>
      simp only [AvsAccounts.exchange, List.mem_cons, List.not_mem_nil, or_false] at hc
      rcases hc with rfl | rfl
      · simp [TokenIx.metas, Privileges.admits, hwritable, hpool]
      · simp [TokenIx.metas, Privileges.admits, hwritable, havs]
  | _ => cases hc

theorem HonestPrograms.univ {avss : Set Pubkey} {avsMints : Finset Pubkey} {programs : Programs}
    (h : HonestPrograms avss avsMints programs) : HonestPrograms Set.univ avsMints programs := by
  intro x avsProgram name amount s l cs hrun
  obtain ⟨havs, -, hmem, hex⟩ := h x avsProgram name amount s l cs hrun
  exact ⟨havs, trivial, hmem, hex⟩

theorem HonestPrograms.fundsOnly {avss : Set Pubkey} {avsMints : Finset Pubkey}
    {programs : Programs} (h : HonestPrograms avss avsMints programs) : FundsOnly programs := by
  intro x avsProgram name amount s l cs hrun
  obtain ⟨-, -, -, hex⟩ := h x avsProgram name amount s l cs hrun
  exact execAll_fundsMoved (exchange_movesFunds _ _ _) hex

theorem HonestPrograms.exchangesOnly {avss : Set Pubkey} {avsMints : Finset Pubkey}
    {programs : Programs} (h : HonestPrograms avss avsMints programs) : ExchangesOnly programs := by
  intro x avsProgram name amount s l cs hrun
  obtain ⟨havs, -, -, hex⟩ := h x avsProgram name amount s l cs hrun
  exact ⟨havs, l, hex, fun _ _ _ _ => rfl, fun _ _ _ _ => rfl⟩

/-! ## Effects of an instruction -/

namespace Call

/-- What a successful instruction takes from the account at `k`. -/
def debited (c : Call) (k : Pubkey) : Nat :=
  match c with
  | deposit a amount => if k = a.signerInputTokenVault then amount.toNat else 0
  | withdraw a amount =>
      (if k = a.signerOutputTokenVault then amount.toNat else 0) +
        (if k = a.poolInputTokenVault then amount.toNat else 0)
  | withdrawDelegatedStake a amount =>
      (if k = a.signerOutputTokenVault then amount.toNat else 0) +
        (if k = a.poolAvsTokenVault then amount.toNat else 0) +
        (if k = a.avsInputTokenVault then amount.toNat else 0) +
        (if k = a.poolInputTokenVault then amount.toNat else 0)
  | delegate a amount => if k = a.poolInputTokenVault then amount.toNat else 0
  | undelegate a amount =>
      (if k = a.poolAvsTokenVault then amount.toNat else 0) +
        (if k = a.avsInputTokenVault then amount.toNat else 0)
  | _ => 0

/-- What it adds there. -/
def credited (c : Call) (k : Pubkey) : Nat :=
  match c with
  | deposit a amount =>
      (if k = a.poolInputTokenVault then amount.toNat else 0) +
        (if k = a.signerOutputTokenVault then amount.toNat else 0)
  | withdraw a amount => if k = a.signerInputTokenVault then amount.toNat else 0
  | withdrawDelegatedStake a amount =>
      (if k = a.poolInputTokenVault then amount.toNat else 0) +
        (if k = a.signerInputTokenVault then amount.toNat else 0)
  | delegate a amount =>
      (if k = a.avsInputTokenVault then amount.toNat else 0) +
        (if k = a.poolAvsTokenVault then amount.toNat else 0)
  | undelegate a amount => if k = a.poolInputTokenVault then amount.toNat else 0
  | _ => 0

/-- What it burns of the mint `m`. -/
def burned (c : Call) (m : Pubkey) : Nat :=
  match c with
  | withdraw a amount => if m = a.outputTokenMint then amount.toNat else 0
  | withdrawDelegatedStake a amount =>
      (if m = a.outputTokenMint then amount.toNat else 0) +
        (if m = a.avsTokenMint then amount.toNat else 0)
  | undelegate a amount => if m = a.avsTokenMint then amount.toNat else 0
  | _ => 0

/-- What it mints of it. -/
def minted (c : Call) (m : Pubkey) : Nat :=
  match c with
  | deposit a amount => if m = a.outputTokenMint then amount.toNat else 0
  | delegate a amount => if m = a.avsTokenMint then amount.toNat else 0
  | _ => 0

/-- The mint that the checked transfers of the instruction name. -/
def checkedMint : Call → Option Pubkey
  | deposit a _ => some a.inputTokenMint
  | withdraw a _ => some a.inputTokenMint
  | withdrawDelegatedStake a _ => some a.inputTokenMint
  | _ => none

/-- The instruction takes no transfer fee. -/
def FeeFree (c : Call) (l : Ledger Pubkey) : Prop :=
  ∀ m ∈ c.checkedMint, ∀ x, l.mints m = some x → x.transferFee = none

end Call

theorem feeFree_call {l : Ledger Pubkey} (hf : l.FeeFree) (c : Call) : c.FeeFree l :=
  fun m _ => hf m

/-- Moving funds sets no fee. -/
theorem namesNoFee_of_fundsMoved {l l' : Ledger Pubkey} {m : Pubkey} {d : UInt8}
    (hmoved : FundsMoved l l') (hf : ∀ x, l.mints m = some x → x.transferFee = none) :
    NamesNoFee (some (m, d)) l' := by
  rintro - ⟨⟩ y hy
  obtain ⟨x, n, hx, rfl⟩ := hmoved.mint_of_some hy
  have hfee := hf x hx
  exact hfee

/-- The transfers of an exchange name no mint. -/
theorem exchange_free (x : AvsAccounts) (amount : Nat) (name : InstructionName) :
    ∀ c ∈ x.exchange amount name, ∀ l, c.2.Free l := by
  intro c hc l
  cases name with
  | delegate =>
      simp only [AvsAccounts.exchange, List.mem_cons, List.not_mem_nil, or_false] at hc
      rcases hc with rfl | rfl
      · exact namesNoFee_none l
      · trivial
  | undelegate =>
      simp only [AvsAccounts.exchange, List.mem_cons, List.not_mem_nil, or_false] at hc
      rcases hc with rfl | rfl
      · trivial
      · exact namesNoFee_none l
  | _ => cases hc

section Honest

variable {avss : Set Pubkey} {avsMints : Finset Pubkey} {rt : Runtime} {p : Privileges Pubkey}
  {c : Call} {s s' : State}

theorem initIfNeeded_feeFree {payer k mint authority tokenProgram : Pubkey}
    {v : Loaded (TokenAccount Pubkey)} (hf : s.ledger.FeeFree)
    (h : initIfNeeded p payer k mint authority tokenProgram s = .ok (v, s')) :
    s'.ledger.FeeFree := by
  intro m x hx
  rw [initIfNeeded_mints h] at hx
  exact hf m x hx

/-- Apart from an empty associated account that may be created first, an instruction moves funds
only as long as AVS programs do. -/
theorem execute_fundsMoved (h : rt.execute p c s = .ok s') (hh : FundsOnly rt.programs) :
    ∃ start : State, FundsMoved start.ledger s'.ledger ∧
      (start.ledger = s.ledger ∨ ∃ payer k mint authority tokenProgram v,
        initIfNeeded p payer k mint authority tokenProgram s = .ok (v, start)) := by
  cases c with
  | initializePool a limit =>
      obtain ⟨-, -, -, -, rfl⟩ := (initializePool_eq_ok_iff ..).1 h
      exact ⟨s, FundsMoved.refl _, Or.inl rfl⟩
  | deposit a amount =>
      obtain ⟨d, rfl⟩ := (execute_deposit_iff ..).1 h
      refine ⟨d.start, ?_, Or.inr ⟨_, _, _, _, _, _, d.init_eq⟩⟩
      exact (exec_fundsMoved rfl d.stake_eq).trans (exec_fundsMoved rfl d.mint_eq)
  | withdraw a amount =>
      obtain ⟨d, rfl⟩ := (execute_withdraw_iff ..).1 h
      refine ⟨s, ?_, Or.inl rfl⟩
      exact (exec_fundsMoved rfl d.burn_eq).trans (exec_fundsMoved rfl d.pay_eq)
  | withdrawDelegatedStake a amount =>
      obtain ⟨d, rfl⟩ := (execute_withdrawDelegatedStake_iff ..).1 h
      refine ⟨d.start, ?_, Or.inr ⟨_, _, _, _, _, _, d.init_eq⟩⟩
      exact ((exec_fundsMoved rfl d.burn_eq).trans (hh _ _ _ _ _ _ _ d.avs)).trans
        (exec_fundsMoved rfl d.pay_eq)
  | transferDelegateAuthority a =>
      obtain ⟨-, -, -, -, -, -, -, rfl⟩ := (transferDelegateAuthority_eq_ok_iff ..).1 h
      exact ⟨s, FundsMoved.refl _, Or.inl rfl⟩
  | delegate a amount =>
      obtain ⟨d, -, rfl⟩ := (execute_delegate_iff ..).1 h
      refine ⟨d.start, ?_, Or.inr ⟨_, _, _, _, _, _, d.init_eq⟩⟩
      exact hh _ _ _ _ _ _ _ d.avs
  | undelegate a amount =>
      obtain ⟨d, -, rfl⟩ := (execute_undelegate_iff ..).1 h
      refine ⟨d.start, ?_, Or.inr ⟨_, _, _, _, _, _, d.init_eq⟩⟩
      exact hh _ _ _ _ _ _ _ d.avs
  | updateMintLimit a limit =>
      obtain ⟨-, -, -, -, -, -, -, rfl⟩ := (updateMintLimit_eq_ok_iff ..).1 h
      exact ⟨s, FundsMoved.refl _, Or.inl rfl⟩

/-- The effect of an instruction on every balance. -/
theorem execute_balance (h : rt.execute p c s = .ok s')
    (hh : HonestPrograms avss avsMints rt.programs) (hf : c.FeeFree s.ledger) (k : Pubkey) :
    s'.ledger.balance k + c.debited k = s.ledger.balance k + c.credited k := by
  cases c with
  | initializePool a limit =>
      obtain ⟨-, -, -, -, rfl⟩ := (initializePool_eq_ok_iff ..).1 h
      rfl
  | deposit a amount =>
      obtain ⟨d, rfl⟩ := (execute_deposit_iff ..).1 h
      have hfree : NamesNoFee (some (a.inputTokenMint, d.inputMint.decimals)) d.start.ledger :=
        namesNoFee_of_fundsMoved (FundsMoved.refl _)
          fun x hx => hf _ rfl x ((congrFun (initIfNeeded_mints d.init_eq) _).symm.trans hx)
      have h₀ := initIfNeeded_balance d.init_eq k
      have h₁ := process_balance_of_free (by exact hfree) ((exec_eq_ok_iff ..).1 d.stake_eq).2 k
      have h₂ := process_balance_of_free (by trivial) ((exec_eq_ok_iff ..).1 d.mint_eq).2 k
      simp only [TokenIx.debited, TokenIx.credited] at h₁ h₂
      simp only [Call.debited, Call.credited]
      omega
  | withdraw a amount =>
      obtain ⟨d, rfl⟩ := (execute_withdraw_iff ..).1 h
      have hfree : NamesNoFee (some (a.inputTokenMint, d.inputMint.decimals)) d.burned :=
        namesNoFee_of_fundsMoved (exec_fundsMoved rfl d.burn_eq) (hf _ rfl)
      have h₁ := process_balance_of_free (by trivial) ((exec_eq_ok_iff ..).1 d.burn_eq).2 k
      have h₂ := process_balance_of_free (by exact hfree) ((exec_eq_ok_iff ..).1 d.pay_eq).2 k
      simp only [TokenIx.debited, TokenIx.credited, id_eq] at h₁ h₂
      simp only [Call.debited, Call.credited]
      omega
  | withdrawDelegatedStake a amount =>
      obtain ⟨d, rfl⟩ := (execute_withdrawDelegatedStake_iff ..).1 h
      obtain ⟨-, -, -, hex⟩ := hh _ _ _ _ _ _ _ d.avs
      have hmoved := (exec_fundsMoved rfl d.burn_eq).trans
        (execAll_fundsMoved (exchange_movesFunds _ _ _) hex)
      -- neither the burn nor the exchange gives the input mint a fee
      have hfree : NamesNoFee (some (a.inputTokenMint, d.inputMint.decimals)) d.undelegated :=
        namesNoFee_of_fundsMoved hmoved
          fun x hx => hf _ rfl x ((congrFun (initIfNeeded_mints d.init_eq) _).symm.trans hx)
      have h₀ := initIfNeeded_balance d.init_eq k
      have h₁ := process_balance_of_free (by trivial) ((exec_eq_ok_iff ..).1 d.burn_eq).2 k
      have h₂ := execAll_balance_of_free (exchange_free _ _ _) hex k
      have h₃ := process_balance_of_free (by exact hfree) ((exec_eq_ok_iff ..).1 d.pay_eq).2 k
      simp only [AvsAccounts.exchange, WithdrawStakeAccounts.avsAccounts, List.map_cons,
        List.map_nil, List.sum_cons, List.sum_nil, TokenIx.debited, TokenIx.credited, id_eq]
        at h₁ h₂ h₃
      simp only [Call.debited, Call.credited]
      omega
  | transferDelegateAuthority a =>
      obtain ⟨-, -, -, -, -, -, -, rfl⟩ := (transferDelegateAuthority_eq_ok_iff ..).1 h
      rfl
  | delegate a amount =>
      obtain ⟨d, -, rfl⟩ := (execute_delegate_iff ..).1 h
      obtain ⟨-, -, -, hex⟩ := hh _ _ _ _ _ _ _ d.avs
      have h₀ := initIfNeeded_balance d.init_eq k
      have h₁ := execAll_balance_of_free (exchange_free _ _ _) hex k
      simp only [AvsAccounts.exchange, DelegateAccounts.avsAccounts, List.map_cons, List.map_nil,
        List.sum_cons, List.sum_nil, TokenIx.debited, TokenIx.credited] at h₁
      simp only [Call.debited, Call.credited]
      omega
  | undelegate a amount =>
      obtain ⟨d, -, rfl⟩ := (execute_undelegate_iff ..).1 h
      obtain ⟨-, -, -, hex⟩ := hh _ _ _ _ _ _ _ d.avs
      have h₀ := initIfNeeded_balance d.init_eq k
      have h₁ := execAll_balance_of_free (exchange_free _ _ _) hex k
      simp only [AvsAccounts.exchange, DelegateAccounts.avsAccounts, List.map_cons, List.map_nil,
        List.sum_cons, List.sum_nil, TokenIx.debited, TokenIx.credited] at h₁
      simp only [Call.debited, Call.credited]
      omega
  | updateMintLimit a limit =>
      obtain ⟨-, -, -, -, -, -, -, rfl⟩ := (updateMintLimit_eq_ok_iff ..).1 h
      rfl

/-- The effect of an instruction on every supply. -/
theorem execute_supply (h : rt.execute p c s = .ok s')
    (hh : HonestPrograms avss avsMints rt.programs) (m : Pubkey) :
    s'.ledger.supply m + c.burned m = s.ledger.supply m + c.minted m := by
  cases c with
  | initializePool a limit =>
      obtain ⟨-, -, -, -, rfl⟩ := (initializePool_eq_ok_iff ..).1 h
      rfl
  | deposit a amount =>
      obtain ⟨d, rfl⟩ := (execute_deposit_iff ..).1 h
      have h₀ := Ledger.supply_congr (congrFun (initIfNeeded_mints d.init_eq) m)
      have h₁ := process_supply ((exec_eq_ok_iff ..).1 d.stake_eq).2 m
      have h₂ := process_supply ((exec_eq_ok_iff ..).1 d.mint_eq).2 m
      simp only [TokenIx.burned, TokenIx.minted] at h₁ h₂
      simp only [Call.burned, Call.minted]
      omega
  | withdraw a amount =>
      obtain ⟨d, rfl⟩ := (execute_withdraw_iff ..).1 h
      have h₁ := process_supply ((exec_eq_ok_iff ..).1 d.burn_eq).2 m
      have h₂ := process_supply ((exec_eq_ok_iff ..).1 d.pay_eq).2 m
      simp only [TokenIx.burned, TokenIx.minted] at h₁ h₂
      simp only [Call.burned, Call.minted]
      omega
  | withdrawDelegatedStake a amount =>
      obtain ⟨d, rfl⟩ := (execute_withdrawDelegatedStake_iff ..).1 h
      obtain ⟨-, -, -, hex⟩ := hh _ _ _ _ _ _ _ d.avs
      have h₀ := Ledger.supply_congr (congrFun (initIfNeeded_mints d.init_eq) m)
      have h₁ := process_supply ((exec_eq_ok_iff ..).1 d.burn_eq).2 m
      have h₂ := execAll_supply hex m
      have h₃ := process_supply ((exec_eq_ok_iff ..).1 d.pay_eq).2 m
      simp only [AvsAccounts.exchange, WithdrawStakeAccounts.avsAccounts, List.map_cons,
        List.map_nil, List.sum_cons, List.sum_nil, TokenIx.burned, TokenIx.minted, id_eq]
        at h₁ h₂ h₃
      simp only [Call.burned, Call.minted]
      omega
  | transferDelegateAuthority a =>
      obtain ⟨-, -, -, -, -, -, -, rfl⟩ := (transferDelegateAuthority_eq_ok_iff ..).1 h
      rfl
  | delegate a amount =>
      obtain ⟨d, -, rfl⟩ := (execute_delegate_iff ..).1 h
      obtain ⟨-, -, -, hex⟩ := hh _ _ _ _ _ _ _ d.avs
      have h₀ := Ledger.supply_congr (congrFun (initIfNeeded_mints d.init_eq) m)
      have h₁ := execAll_supply hex m
      simp only [AvsAccounts.exchange, DelegateAccounts.avsAccounts, List.map_cons, List.map_nil,
        List.sum_cons, List.sum_nil, TokenIx.burned, TokenIx.minted] at h₁
      simp only [Call.burned, Call.minted]
      omega
  | undelegate a amount =>
      obtain ⟨d, -, rfl⟩ := (execute_undelegate_iff ..).1 h
      obtain ⟨-, -, -, hex⟩ := hh _ _ _ _ _ _ _ d.avs
      have h₀ := Ledger.supply_congr (congrFun (initIfNeeded_mints d.init_eq) m)
      have h₁ := execAll_supply hex m
      simp only [AvsAccounts.exchange, DelegateAccounts.avsAccounts, List.map_cons, List.map_nil,
        List.sum_cons, List.sum_nil, TokenIx.burned, TokenIx.minted] at h₁
      simp only [Call.burned, Call.minted]
      omega
  | updateMintLimit a limit =>
      obtain ⟨-, -, -, -, -, -, -, rfl⟩ := (updateMintLimit_eq_ok_iff ..).1 h
      rfl

end Honest

end AdraLrt
