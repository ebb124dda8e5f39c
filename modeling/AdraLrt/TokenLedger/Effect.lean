import AdraLrt.TokenLedger.Instruction

/-!
# What each instruction does

One exact success lemma for each instruction (`processTransfer_eq_ok_iff` and its siblings), and
from them the effect on every balance and every supply at once: on a ledger without transfer fees a
successful instruction adds `TokenIx.credited` and removes `TokenIx.debited` at each account
(`process_balance`), and does the same with `TokenIx.minted` and `TokenIx.burned` at each mint
(`process_supply`).
-/

set_option autoImplicit false

namespace TokenLedger

open Checked

variable {K : Type} [DecidableEq K]

/-- The facts behind a successful transfer. -/
structure TransferOk (program source destination authority : K) (amount : Nat)
    (checked : Option (K × UInt8)) (l l' : Ledger K) (src dst : TokenAccount K) (fee : Nat) :
    Prop where
  source_some : l.accounts source = some src
  source_program : src.program = program
  destination_some : l.accounts destination = some dst
  destination_program : dst.program = program
  source_thawed : src.frozen = false
  destination_thawed : dst.frozen = false
  funds : amount ≤ src.amount
  mint_eq : src.mint = dst.mint
  fee_ok : l.transferFee program src.mint amount checked = .ok fee
  mayMove : src.MayMove authority amount
  result : if source = destination then l' = l
    else fee ≤ amount ∧ dst.amount + (amount - fee) ≤ u64Max ∧
      l' = (l.setAccount source (some ((src.authorized authority amount).debit amount))).setAccount
        destination (some (dst.credit (amount - fee) fee))

theorem processTransfer_eq_ok_iff (program source destination authority : K) (amount : Nat)
    (checked : Option (K × UInt8)) (l l' : Ledger K) :
    processTransfer program source destination authority amount checked l = .ok l' ↔
      ∃ src dst fee,
        TransferOk program source destination authority amount checked l l' src dst fee := by
  simp only [processTransfer, bind_eq_ok_iff, getAccount_eq_ok_iff, require_eq_ok_iff,
    authorize_eq_ok_iff]
  constructor
  · rintro ⟨src, ⟨hs, hsp⟩, dst, ⟨hd, hdp⟩, _, ⟨hsf, hdf⟩, _, hfunds, _, hmint, fee, hfee, _,
      ⟨hmay, rfl⟩, hres⟩
    refine ⟨src, dst, fee, hs, hsp, hd, hdp, hsf, hdf, hfunds, hmint, hfee, hmay, ?_⟩
    by_cases hself : source = destination
    · simp only [hself, if_true, pure_eq_ok_iff] at hres
      simp [hself, hres]
    · simp only [hself, if_false, bind_eq_ok_iff, subU64_eq_ok_iff, addU64_eq_ok_iff,
        pure_eq_ok_iff] at hres
      obtain ⟨_, ⟨hle, rfl⟩, _, ⟨hadd, -⟩, rfl⟩ := hres
      simp [hself, hle, hadd]
  · rintro ⟨src, dst, fee, h⟩
    refine ⟨src, ⟨h.source_some, h.source_program⟩, dst, ⟨h.destination_some,
      h.destination_program⟩, (), ⟨h.source_thawed, h.destination_thawed⟩, (), h.funds, (),
      h.mint_eq, fee, h.fee_ok, _, ⟨h.mayMove, rfl⟩, ?_⟩
    have hres := h.result
    by_cases hself : source = destination
    · simp only [hself, if_true] at hres ⊢
      simp [hres]
    · simp only [hself, if_false] at hres ⊢
      obtain ⟨hle, hadd, rfl⟩ := hres
      simp [hle, hadd]

theorem processMintTo_eq_ok_iff (program mint destination authority : K) (amount : Nat)
    (l l' : Ledger K) :
    processMintTo program mint destination authority amount l = .ok l' ↔
      ∃ dst m, l.accounts destination = some dst ∧ dst.program = program ∧ dst.frozen = false ∧
        mint = dst.mint ∧ l.mints mint = some m ∧ m.program = program ∧
        m.mintAuthority = some authority ∧ dst.amount + amount ≤ u64Max ∧
        m.supply + amount ≤ u64Max ∧
        l' = (l.setAccount destination (some (dst.credit amount 0))).setMint mint
          (m.withSupply (m.supply + amount)) := by
  simp only [processMintTo, bind_eq_ok_iff, getAccount_eq_ok_iff, getMint_eq_ok_iff,
    require_eq_ok_iff, orError_eq_ok_iff, addU64_eq_ok_iff, pure_eq_ok_iff]
  constructor
  · rintro ⟨dst, ⟨hd, hdp⟩, _, hf, _, hm, m, ⟨hx, hxp⟩, holder, hholder, _, rfl, _, ⟨ha, -⟩, _,
      ⟨hs, rfl⟩, rfl⟩
    exact ⟨dst, m, hd, hdp, hf, hm, hx, hxp, hholder, ha, hs, rfl⟩
  · rintro ⟨dst, m, hd, hdp, hf, hm, hx, hxp, hholder, ha, hs, rfl⟩
    exact ⟨dst, ⟨hd, hdp⟩, (), hf, (), hm, m, ⟨hx, hxp⟩, authority, hholder, (), rfl, _, ⟨ha, rfl⟩,
      _, ⟨hs, rfl⟩, rfl⟩

theorem processBurn_eq_ok_iff (program source mint authority : K) (amount : Nat)
    (l l' : Ledger K) :
    processBurn program source mint authority amount l = .ok l' ↔
      ∃ src m, l.accounts source = some src ∧ src.program = program ∧ l.mints mint = some m ∧
        m.program = program ∧ src.frozen = false ∧ amount ≤ src.amount ∧ mint = src.mint ∧
        src.MayMove authority amount ∧ amount ≤ m.supply ∧
        l' = (l.setAccount source (some ((src.authorized authority amount).debit amount))).setMint
          mint (m.withSupply (m.supply - amount)) := by
  simp only [processBurn, bind_eq_ok_iff, getAccount_eq_ok_iff, getMint_eq_ok_iff,
    require_eq_ok_iff, authorize_eq_ok_iff, subU64_eq_ok_iff, pure_eq_ok_iff]
  constructor
  · rintro ⟨src, ⟨hs, hsp⟩, m, ⟨hx, hxp⟩, _, hf, _, hfunds, _, hm, _, ⟨hmay, rfl⟩, _, ⟨hle, rfl⟩,
      rfl⟩
    exact ⟨src, m, hs, hsp, hx, hxp, hf, hfunds, hm, hmay, hle, rfl⟩
  · rintro ⟨src, m, hs, hsp, hx, hxp, hf, hfunds, hm, hmay, hle, rfl⟩
    exact ⟨src, ⟨hs, hsp⟩, m, ⟨hx, hxp⟩, (), hf, (), hfunds, (), hm, _, ⟨hmay, rfl⟩, _,
      ⟨hle, rfl⟩, rfl⟩

theorem processApprove_eq_ok_iff (program source delegate authority : K) (amount : Nat)
    (l l' : Ledger K) :
    processApprove program source delegate authority amount l = .ok l' ↔
      ∃ src, l.accounts source = some src ∧ src.program = program ∧ src.frozen = false ∧
        src.owner = authority ∧
        l' = l.setAccount source
          (some { src with delegate := some delegate, delegatedAmount := amount }) := by
  simp only [processApprove, bind_eq_ok_iff, getAccount_eq_ok_iff, require_eq_ok_iff,
    pure_eq_ok_iff]
  constructor
  · rintro ⟨src, ⟨hs, hsp⟩, _, hf, _, ho, rfl⟩
    exact ⟨src, hs, hsp, hf, ho, rfl⟩
  · rintro ⟨src, hs, hsp, hf, ho, rfl⟩
    exact ⟨src, ⟨hs, hsp⟩, (), hf, (), ho, rfl⟩

theorem processRevoke_eq_ok_iff (program source authority : K) (l l' : Ledger K) :
    processRevoke program source authority l = .ok l' ↔
      ∃ src, l.accounts source = some src ∧ src.program = program ∧ src.frozen = false ∧
        src.owner = authority ∧
        l' = l.setAccount source (some { src with delegate := none, delegatedAmount := 0 }) := by
  simp only [processRevoke, bind_eq_ok_iff, getAccount_eq_ok_iff, require_eq_ok_iff,
    pure_eq_ok_iff]
  constructor
  · rintro ⟨src, ⟨hs, hsp⟩, _, hf, _, ho, rfl⟩
    exact ⟨src, hs, hsp, hf, ho, rfl⟩
  · rintro ⟨src, hs, hsp, hf, ho, rfl⟩
    exact ⟨src, ⟨hs, hsp⟩, (), hf, (), ho, rfl⟩

/-- Replacing an authority: the holder gives it away. -/
theorem processSetAuthority_eq_ok_iff (program owned authority : K) (l l' : Ledger K)
    (change : AuthorityChange K) :
    processSetAuthority program owned authority l change = .ok l' ↔
      match change with
      | .mintTokens new => ∃ m, l.mints owned = some m ∧ m.program = program ∧
          m.mintAuthority = some authority ∧ l' = l.setMint owned { m with mintAuthority := new }
      | .freezeAccount new => ∃ m, l.mints owned = some m ∧ m.program = program ∧
          m.freezeAuthority = some authority ∧
          l' = l.setMint owned { m with freezeAuthority := new }
      | .accountOwner new => ∃ a, l.accounts owned = some a ∧ a.program = program ∧
          a.frozen = false ∧ a.owner = authority ∧
          l' = l.setAccount owned
            (some { a with owner := new, delegate := none, delegatedAmount := 0 })
      | .closeAccount new => ∃ a, l.accounts owned = some a ∧ a.program = program ∧
          a.frozen = false ∧ a.closeAuthority.getD a.owner = authority ∧
          l' = l.setAccount owned (some { a with closeAuthority := new }) := by
  cases change with
  | mintTokens new =>
      simp only [processSetAuthority, bind_eq_ok_iff, getMint_eq_ok_iff, require_eq_ok_iff,
        orError_eq_ok_iff, pure_eq_ok_iff]
      constructor
      · rintro ⟨m, ⟨hm, hp⟩, _, hh, _, rfl, rfl⟩
        exact ⟨m, hm, hp, hh, rfl⟩
      · rintro ⟨m, hm, hp, hh, rfl⟩
        exact ⟨m, ⟨hm, hp⟩, _, hh, (), rfl, rfl⟩
  | freezeAccount new =>
      simp only [processSetAuthority, bind_eq_ok_iff, getMint_eq_ok_iff, require_eq_ok_iff,
        orError_eq_ok_iff, pure_eq_ok_iff]
      constructor
      · rintro ⟨m, ⟨hm, hp⟩, _, hh, _, rfl, rfl⟩
        exact ⟨m, hm, hp, hh, rfl⟩
      · rintro ⟨m, hm, hp, hh, rfl⟩
        exact ⟨m, ⟨hm, hp⟩, _, hh, (), rfl, rfl⟩
  | accountOwner new =>
      simp only [processSetAuthority, bind_eq_ok_iff, getAccount_eq_ok_iff, require_eq_ok_iff,
        pure_eq_ok_iff]
      constructor
      · rintro ⟨a, ⟨ha, hp⟩, _, hf, _, ho, rfl⟩
        exact ⟨a, ha, hp, hf, ho, rfl⟩
      · rintro ⟨a, ha, hp, hf, ho, rfl⟩
        exact ⟨a, ⟨ha, hp⟩, (), hf, (), ho, rfl⟩
  | closeAccount new =>
      simp only [processSetAuthority, bind_eq_ok_iff, getAccount_eq_ok_iff, require_eq_ok_iff,
        pure_eq_ok_iff]
      constructor
      · rintro ⟨a, ⟨ha, hp⟩, _, hf, _, ho, rfl⟩
        exact ⟨a, ha, hp, hf, ho, rfl⟩
      · rintro ⟨a, ha, hp, hf, ho, rfl⟩
        exact ⟨a, ⟨ha, hp⟩, (), hf, (), ho, rfl⟩

theorem processCloseAccount_eq_ok_iff (program account destination authority : K)
    (l l' : Ledger K) :
    processCloseAccount program account destination authority l = .ok l' ↔
      ∃ a, account ≠ destination ∧ l.accounts account = some a ∧ a.program = program ∧
        a.amount = 0 ∧ a.withheld = 0 ∧ a.closeAuthority.getD a.owner = authority ∧
        l' = l.setAccount account none := by
  simp only [processCloseAccount, bind_eq_ok_iff, getAccount_eq_ok_iff, require_eq_ok_iff,
    pure_eq_ok_iff]
  constructor
  · rintro ⟨_, hne, a, ⟨ha, hp⟩, _, ⟨h0, hw⟩, _, hauth, rfl⟩
    exact ⟨a, hne, ha, hp, h0, hw, hauth, rfl⟩
  · rintro ⟨a, hne, ha, hp, h0, hw, hauth, rfl⟩
    exact ⟨(), hne, a, ⟨ha, hp⟩, (), ⟨h0, hw⟩, (), hauth, rfl⟩

theorem processToggleFreeze_eq_ok_iff (program account mint authority : K) (frozen : Bool)
    (l l' : Ledger K) :
    processToggleFreeze program account mint authority frozen l = .ok l' ↔
      ∃ a m, l.accounts account = some a ∧ a.program = program ∧ a.frozen ≠ frozen ∧
        mint = a.mint ∧ l.mints mint = some m ∧ m.program = program ∧
        m.freezeAuthority = some authority ∧
        l' = l.setAccount account (some { a with frozen := frozen }) := by
  simp only [processToggleFreeze, bind_eq_ok_iff, getAccount_eq_ok_iff, getMint_eq_ok_iff,
    require_eq_ok_iff, orError_eq_ok_iff, pure_eq_ok_iff]
  constructor
  · rintro ⟨a, ⟨ha, hp⟩, _, hf, _, hm, m, ⟨hx, hxp⟩, _, hh, _, rfl, rfl⟩
    exact ⟨a, m, ha, hp, hf, hm, hx, hxp, hh, rfl⟩
  · rintro ⟨a, m, ha, hp, hf, hm, hx, hxp, hh, rfl⟩
    exact ⟨a, ⟨ha, hp⟩, (), hf, (), hm, m, ⟨hx, hxp⟩, _, hh, (), rfl, rfl⟩

theorem processInitializeMint_eq_ok_iff (program mint : K) (decimals : UInt8) (mintAuthority : K)
    (freezeAuthority : Option K) (l l' : Ledger K) :
    processInitializeMint program mint decimals mintAuthority freezeAuthority l = .ok l' ↔
      l.mints mint = none ∧ l.accounts mint = none ∧
        l' = l.setMint mint ⟨some mintAuthority, freezeAuthority, 0, decimals, program, none⟩ := by
  simp only [processInitializeMint, bind_eq_ok_iff, require_eq_ok_iff, pure_eq_ok_iff]
  constructor
  · rintro ⟨_, ⟨hm, ha⟩, rfl⟩
    exact ⟨hm, ha, rfl⟩
  · rintro ⟨hm, ha, rfl⟩
    exact ⟨(), ⟨hm, ha⟩, rfl⟩

theorem processInitializeAccount_eq_ok_iff (program account mint owner : K) (l l' : Ledger K) :
    processInitializeAccount program account mint owner l = .ok l' ↔
      ∃ m, l.mints account = none ∧ l.accounts account = none ∧ l.mints mint = some m ∧
        m.program = program ∧
        l' = l.setAccount account (some (.fresh program mint owner)) := by
  simp only [processInitializeAccount, bind_eq_ok_iff, require_eq_ok_iff, getMint_eq_ok_iff,
    pure_eq_ok_iff]
  constructor
  · rintro ⟨_, ⟨hm, ha⟩, m, ⟨hx, hp⟩, rfl⟩
    exact ⟨m, hm, ha, hx, hp, rfl⟩
  · rintro ⟨m, hm, ha, hx, hp, rfl⟩
    exact ⟨(), ⟨hm, ha⟩, m, ⟨hx, hp⟩, rfl⟩

/-! ## Balances and supplies -/

/-- The mint that a checked transfer names has no transfer fee. -/
def NamesNoFee (checked : Option (K × UInt8)) (l : Ledger K) : Prop :=
  ∀ c ∈ checked, ∀ x, l.mints c.1 = some x → x.transferFee = none

omit [DecidableEq K] in
theorem Ledger.FeeFree.namesNoFee {l : Ledger K} (hf : l.FeeFree) (checked : Option (K × UInt8)) :
    NamesNoFee checked l :=
  fun c _ x hx => hf c.1 x hx

omit [DecidableEq K] in
/-- A transfer that names no mint fails where a fee is due. -/
@[simp] theorem namesNoFee_none (l : Ledger K) : NamesNoFee none l := by
  simp [NamesNoFee]

/-- Without a transfer fee the fee of a transfer is zero. -/
theorem transferFee_eq_zero {l : Ledger K} {program mint : K} {amount fee : Nat}
    {checked : Option (K × UInt8)} (hf : NamesNoFee checked l)
    (h : l.transferFee program mint amount checked = .ok fee) : fee = 0 := by
  cases checked with
  | none =>
      simp only [Ledger.transferFee, bind_eq_ok_iff, require_eq_ok_iff, pure_eq_ok_iff] at h
      obtain ⟨_, -, rfl⟩ := h
      rfl
  | some named =>
      obtain ⟨m, decimals⟩ := named
      simp only [Ledger.transferFee, bind_eq_ok_iff, require_eq_ok_iff, pure_eq_ok_iff,
        getMint_eq_ok_iff] at h
      obtain ⟨_, -, x, ⟨hx, -⟩, _, -, rfl⟩ := h
      simp [Mint.fee, hf _ rfl x hx]

/-- What an instruction adds to a token account when no fee is taken. -/
def TokenIx.credited (ix : TokenIx K) (k : K) : Nat :=
  match ix with
  | .transfer _ destination _ amount _ => if k = destination then amount else 0
  | .mintTo _ destination _ amount => if k = destination then amount else 0
  | _ => 0

/-- What an instruction takes from a token account. -/
def TokenIx.debited (ix : TokenIx K) (k : K) : Nat :=
  match ix with
  | .transfer source _ _ amount _ => if k = source then amount else 0
  | .burn source _ _ amount => if k = source then amount else 0
  | _ => 0

/-- What an instruction adds to the supply of a mint. -/
def TokenIx.minted (ix : TokenIx K) (m : K) : Nat :=
  match ix with
  | .mintTo mint _ _ amount => if m = mint then amount else 0
  | _ => 0

/-- What an instruction takes from the supply of a mint. -/
def TokenIx.burned (ix : TokenIx K) (m : K) : Nat :=
  match ix with
  | .burn _ mint _ amount => if m = mint then amount else 0
  | _ => 0

/-- Replacing an account by one with the same amount changes no balance. -/
theorem balance_setAccount_same {l : Ledger K} {k : K} {a b : TokenAccount K}
    (ha : l.accounts k = some a) (hb : b.amount = a.amount) (j : K) :
    (l.setAccount k (some b)).balance j = l.balance j := by
  rw [Ledger.balance_setAccount]
  split
  · next h => rw [h, hb, Ledger.balance_of_some ha]
  · rfl

theorem processTransfer_balance {program source destination authority : K} {amount : Nat}
    {checked : Option (K × UInt8)} {l l' : Ledger K} (hf : NamesNoFee checked l)
    (h : processTransfer program source destination authority amount checked l = .ok l') (k : K) :
    l'.balance k + (if k = source then amount else 0) =
      l.balance k + (if k = destination then amount else 0) := by
  obtain ⟨src, dst, fee, h⟩ := (processTransfer_eq_ok_iff ..).1 h
  have hfee := transferFee_eq_zero hf h.fee_ok
  have hsrc := Ledger.balance_of_some h.source_some
  have hdst := Ledger.balance_of_some h.destination_some
  have hfunds := h.funds
  have hres := h.result
  by_cases hself : source = destination
  · -- a transfer to itself adds what it takes
    simp only [hself, if_true] at hres
    rw [hres, hself]
  · simp only [hself, if_false] at hres
    obtain ⟨-, -, rfl⟩ := hres
    simp only [Ledger.balance_setAccount, TokenAccount.debit_amount, TokenAccount.credit_amount,
      authorized_amount]
    by_cases hd : k = destination
    · have hs : k ≠ source := fun e => hself (e ▸ hd)
      simp only [hd, if_true, if_neg (hd ▸ hs)]
      omega
    · by_cases hs : k = source
      · simp only [hs, if_true, if_neg hself]
        omega
      · simp only [if_neg hd, if_neg hs]

/-- The instruction takes no transfer fee. -/
def TokenIx.Free (ix : TokenIx K) (l : Ledger K) : Prop :=
  match ix with
  | .transfer _ _ _ _ checked => NamesNoFee checked l
  | _ => True

omit [DecidableEq K] in
theorem Ledger.FeeFree.free {l : Ledger K} (hf : l.FeeFree) (ix : TokenIx K) : ix.Free l := by
  cases ix with
  | transfer source destination authority amount checked => exact hf.namesNoFee checked
  | _ => trivial

/-- The effect of an instruction on every balance, where no fee is taken. -/
theorem process_balance_of_free {program : K} {ix : TokenIx K} {l l' : Ledger K} (hf : ix.Free l)
    (h : process program ix l = .ok l') (k : K) :
    l'.balance k + ix.debited k = l.balance k + ix.credited k := by
  cases ix with
  | initializeMint mint decimals mintAuthority freezeAuthority =>
      obtain ⟨-, -, rfl⟩ := (processInitializeMint_eq_ok_iff ..).1 h
      rfl
  | initializeAccount account mint owner =>
      obtain ⟨m, -, hnone, -, -, rfl⟩ := (processInitializeAccount_eq_ok_iff ..).1 h
      simp only [TokenIx.debited, TokenIx.credited, Ledger.balance_setAccount]
      split
      · next hk => simp [hk, Ledger.balance, hnone, TokenAccount.fresh]
      · rfl
  | transfer source destination authority amount checked =>
      exact processTransfer_balance hf h k
  | approve source delegate authority amount =>
      obtain ⟨src, hs, -, -, -, rfl⟩ := (processApprove_eq_ok_iff ..).1 h
      refine balance_setAccount_same hs ?_ k
      rfl
  | revoke source authority =>
      obtain ⟨src, hs, -, -, -, rfl⟩ := (processRevoke_eq_ok_iff ..).1 h
      refine balance_setAccount_same hs ?_ k
      rfl
  | setAuthority owned authority change =>
      have h' := (processSetAuthority_eq_ok_iff ..).1 h
      cases change with
      | mintTokens new =>
          obtain ⟨m, -, -, -, rfl⟩ := h'
          rfl
      | freezeAccount new =>
          obtain ⟨m, -, -, -, rfl⟩ := h'
          rfl
      | accountOwner new =>
          obtain ⟨a, ha, -, -, -, rfl⟩ := h'
          refine balance_setAccount_same ha ?_ k
          rfl
      | closeAccount new =>
          obtain ⟨a, ha, -, -, -, rfl⟩ := h'
          refine balance_setAccount_same ha ?_ k
          rfl
  | mintTo mint destination authority amount =>
      obtain ⟨dst, m, hd, -, -, -, -, -, -, -, -, rfl⟩ := (processMintTo_eq_ok_iff ..).1 h
      have hdst := Ledger.balance_of_some hd
      simp only [TokenIx.debited, TokenIx.credited, Ledger.balance_setMint,
        Ledger.balance_setAccount, TokenAccount.credit_amount]
      split
      · next hk => rw [hk, hdst]
                   rfl
      · rfl
  | burn source mint authority amount =>
      obtain ⟨src, m, hs, -, -, -, -, hle, -, -, -, rfl⟩ := (processBurn_eq_ok_iff ..).1 h
      have hsrc := Ledger.balance_of_some hs
      simp only [TokenIx.debited, TokenIx.credited, Ledger.balance_setMint,
        Ledger.balance_setAccount, TokenAccount.debit_amount, authorized_amount]
      split
      · next hk =>
          rw [hk, hsrc]
          omega
      · rfl
  | closeAccount account destination authority =>
      obtain ⟨a, -, ha, -, h0, -, -, rfl⟩ := (processCloseAccount_eq_ok_iff ..).1 h
      by_cases hk : k = account
      · simp [TokenIx.debited, TokenIx.credited, Ledger.balance, hk, ha, h0]
      · simp [TokenIx.debited, TokenIx.credited, Ledger.balance, hk]
  | freezeAccount account mint authority =>
      obtain ⟨a, m, ha, -, -, -, -, -, -, rfl⟩ := (processToggleFreeze_eq_ok_iff ..).1 h
      refine balance_setAccount_same ha ?_ k
      rfl
  | thawAccount account mint authority =>
      obtain ⟨a, m, ha, -, -, -, -, -, -, rfl⟩ := (processToggleFreeze_eq_ok_iff ..).1 h
      refine balance_setAccount_same ha ?_ k
      rfl

/-- The effect of an instruction on every balance. -/
theorem process_balance {program : K} {ix : TokenIx K} {l l' : Ledger K} (hf : l.FeeFree)
    (h : process program ix l = .ok l') (k : K) :
    l'.balance k + ix.debited k = l.balance k + ix.credited k :=
  process_balance_of_free (hf.free ix) h k

/-- The effect of an instruction on every supply. -/
theorem process_supply {program : K} {ix : TokenIx K} {l l' : Ledger K}
    (h : process program ix l = .ok l') (m : K) :
    l'.supply m + ix.burned m = l.supply m + ix.minted m := by
  cases ix with
  | initializeMint mint decimals mintAuthority freezeAuthority =>
      obtain ⟨hnone, -, rfl⟩ := (processInitializeMint_eq_ok_iff ..).1 h
      simp only [TokenIx.burned, TokenIx.minted, Ledger.supply_setMint]
      split
      · next hm => simp [hm, Ledger.supply, hnone]
      · rfl
  | initializeAccount account mint owner =>
      obtain ⟨x, -, -, -, -, rfl⟩ := (processInitializeAccount_eq_ok_iff ..).1 h
      rfl
  | transfer source destination authority amount checked =>
      obtain ⟨src, dst, fee, h⟩ := (processTransfer_eq_ok_iff ..).1 h
      have hres := h.result
      split at hres
      · rw [hres]
        rfl
      · obtain ⟨-, -, rfl⟩ := hres
        rfl
  | approve source delegate authority amount =>
      obtain ⟨src, -, -, -, -, rfl⟩ := (processApprove_eq_ok_iff ..).1 h
      rfl
  | revoke source authority =>
      obtain ⟨src, -, -, -, -, rfl⟩ := (processRevoke_eq_ok_iff ..).1 h
      rfl
  | setAuthority owned authority change =>
      have h' := (processSetAuthority_eq_ok_iff ..).1 h
      have hsame : ∀ (x y : Mint K), l.mints owned = some x → y.supply = x.supply →
          (l.setMint owned y).supply m = l.supply m := by
        intro x y hx hy
        rw [Ledger.supply_setMint]
        split
        · next hm => rw [hm, hy, Ledger.supply_of_some hx]
        · rfl
      cases change with
      | mintTokens new =>
          obtain ⟨x, hx, -, -, rfl⟩ := h'
          refine hsame x _ hx ?_
          rfl
      | freezeAccount new =>
          obtain ⟨x, hx, -, -, rfl⟩ := h'
          refine hsame x _ hx ?_
          rfl
      | accountOwner new =>
          obtain ⟨a, -, -, -, -, rfl⟩ := h'
          rfl
      | closeAccount new =>
          obtain ⟨a, -, -, -, -, rfl⟩ := h'
          rfl
  | mintTo mint destination authority amount =>
      obtain ⟨dst, x, -, -, -, -, hx, -, -, -, -, rfl⟩ := (processMintTo_eq_ok_iff ..).1 h
      have hsup := Ledger.supply_of_some hx
      simp only [TokenIx.burned, TokenIx.minted, Ledger.supply_setMint, Ledger.supply_setAccount,
        Mint.withSupply_supply]
      split
      · next hm =>
          rw [hm, hsup]
          rfl
      · rfl
  | burn source mint authority amount =>
      obtain ⟨src, x, -, -, hx, -, -, -, -, -, hle, rfl⟩ := (processBurn_eq_ok_iff ..).1 h
      have hsup := Ledger.supply_of_some hx
      simp only [TokenIx.burned, TokenIx.minted, Ledger.supply_setMint, Ledger.supply_setAccount,
        Mint.withSupply_supply]
      split
      · next hm =>
          rw [hm, hsup]
          omega
      · rfl
  | closeAccount account destination authority =>
      obtain ⟨a, -, -, -, -, -, -, rfl⟩ := (processCloseAccount_eq_ok_iff ..).1 h
      rfl
  | freezeAccount account mint authority =>
      obtain ⟨a, x, -, -, -, -, -, -, -, rfl⟩ := (processToggleFreeze_eq_ok_iff ..).1 h
      rfl
  | thawAccount account mint authority =>
      obtain ⟨a, x, -, -, -, -, -, -, -, rfl⟩ := (processToggleFreeze_eq_ok_iff ..).1 h
      rfl

end TokenLedger
