import AdraLrt.TokenLedger.Funds
import AdraLrt.TokenLedger.Spend

/-!
# Instructions that succeed

When the authority may move the amount, nothing is frozen, no fee is taken and the holdings are
covered by the supply, the one thing a transfer or a burn still depends on is that the funds
suffice, and the one thing that minting depends on is that the supply does not overflow. Each rule
gives the ledger that results.
-/

set_option autoImplicit false

namespace TokenLedger

open Checked

variable {K : Type} [DecidableEq K] {q : Privileges K} {l : Ledger K}

/-- An account that its owner can move: it is not frozen, and no allowance to the owner itself
stands in the way. -/
structure TokenAccount.Usable (owner : K) (a : TokenAccount K) : Prop where
  owner_eq : a.owner = owner
  thawed : a.frozen = false
  delegate_ne : a.delegate ≠ some owner

omit [DecidableEq K] in
theorem TokenAccount.Held.usable {owner : K} {a : TokenAccount K} (h : a.Held owner)
    (hf : a.frozen = false) : a.Usable owner where
  owner_eq := h.owner_eq
  thawed := hf
  delegate_ne := by simp [h.delegate_eq]

omit [DecidableEq K] in
theorem SameTerms.usable {owner : K} {a b : TokenAccount K} (h : SameTerms a b)
    (ha : a.Usable owner) : b.Usable owner where
  owner_eq := h.owner.trans ha.owner_eq
  thawed := h.frozen.trans ha.thawed
  delegate_ne := by
    rcases h.delegate with hd | hd
    · rw [hd]
      exact ha.delegate_ne
    · simp [hd]

omit [DecidableEq K] in
theorem TokenAccount.Usable.mayMove {owner : K} {a : TokenAccount K} (h : a.Usable owner)
    (amount : Nat) : a.MayMove owner amount :=
  Or.inr ⟨h.delegate_ne, h.owner_eq⟩

theorem TokenAccount.Usable.authorized {owner : K} {a : TokenAccount K} (h : a.Usable owner)
    (amount : Nat) : a.authorized owner amount = a := by
  simp [TokenAccount.authorized, h.delegate_ne]

/-- What the owner can move at once. An allowance to the owner itself takes precedence over the
ownership. -/
def TokenAccount.spendable (owner : K) (a : TokenAccount K) : Nat :=
  if a.delegate = some owner then min a.amount a.delegatedAmount else a.amount

theorem TokenAccount.le_spendable_iff {owner : K} {a : TokenAccount K} (h : a.owner = owner)
    (n : Nat) : n ≤ a.spendable owner ↔ n ≤ a.amount ∧ a.MayMove owner n := by
  unfold TokenAccount.spendable TokenAccount.MayMove
  by_cases hd : a.delegate = some owner
  · simp [hd]
  · simp [hd, h]

/-- What the owner can move out of the account at `k`. -/
def Ledger.spendable (l : Ledger K) (k owner : K) : Nat :=
  match l.accounts k with
  | some a => a.spendable owner
  | none => 0

theorem Ledger.spendable_of_some {k owner : K} {a : TokenAccount K} (h : l.accounts k = some a) :
    l.spendable k owner = a.spendable owner := by
  simp [Ledger.spendable, h]

/-- Nobody can move more than is there. -/
theorem Ledger.spendable_le_balance (l : Ledger K) (k owner : K) :
    l.spendable k owner ≤ l.balance k := by
  cases ha : l.accounts k with
  | none => simp [Ledger.spendable, ha]
  | some a =>
      rw [Ledger.spendable_of_some ha, Ledger.balance_of_some ha, TokenAccount.spendable]
      split
      · exact Nat.min_le_left ..
      · exact Nat.le_refl _

/-- A transfer by the owner is within what it can move. -/
theorem le_spendable_of_transfer {program source destination owner : K} {amount : Nat}
    {checked : Option (K × UInt8)} {a : TokenAccount K} {l' : Ledger K}
    (h : exec q program (.transfer source destination owner amount checked) l = .ok l')
    (ha : l.accounts source = some a) (howner : a.owner = owner) :
    amount ≤ l.spendable source owner := by
  obtain ⟨src, dst, fee, hok⟩ := (processTransfer_eq_ok_iff ..).1 ((exec_eq_ok_iff ..).1 h).2
  obtain rfl := Option.some.inj (ha.symm.trans hok.source_some)
  rw [Ledger.spendable_of_some ha]
  exact (TokenAccount.le_spendable_iff howner amount).2 ⟨hok.funds, hok.mayMove⟩

/-- So is a burn. -/
theorem le_spendable_of_burn {program source mint owner : K} {amount : Nat} {a : TokenAccount K}
    {l' : Ledger K} (h : exec q program (.burn source mint owner amount) l = .ok l')
    (ha : l.accounts source = some a) (howner : a.owner = owner) :
    amount ≤ l.spendable source owner := by
  obtain ⟨src, m, hsrc, -, -, -, -, hfunds, -, hmay, -⟩ :=
    (processBurn_eq_ok_iff ..).1 ((exec_eq_ok_iff ..).1 h).2
  obtain rfl := Option.some.inj (ha.symm.trans hsrc)
  rw [Ledger.spendable_of_some ha]
  exact (TokenAccount.le_spendable_iff howner amount).2 ⟨hfunds, hmay⟩

/-- A transfer by whoever may move the amount. When it names a mint and decimals, they have to be
right. -/
theorem exec_transfer_of_mayMove {source destination owner mint : K} {src dst : TokenAccount K}
    {x : Mint K} {amount : Nat} {checked : Option (K × UInt8)} (hc : l.Conserved)
    (hchecked : checked = none ∨ checked = some (mint, x.decimals)) (hne : source ≠ destination)
    (hsrc : l.accounts source = some src) (hdst : l.accounts destination = some dst)
    (hx : l.mints mint = some x) (hsm : src.mint = mint) (hdm : dst.mint = mint)
    (hsp : src.program = x.program) (hdp : dst.program = x.program) (hfee : x.transferFee = none)
    (hs : src.frozen = false) (hmay : src.MayMove owner amount) (hd : dst.frozen = false)
    (hle : amount ≤ src.amount)
    (hq : ∀ a ∈ (TokenIx.transfer source destination owner amount checked).metas,
      q.admits a = true) :
    exec q x.program (.transfer source destination owner amount checked) l =
      .ok ((l.setAccount source (some ((src.authorized owner amount).debit amount))).setAccount
        destination (some (dst.credit amount 0))) := by
  have hfits := hc.add_le hne hsrc hdst (hdm.trans hsm.symm)
  have hmax := hc.supply_le src.mint
  have hfees : l.transferFee x.program src.mint amount checked = .ok 0 := by
    rcases hchecked with rfl | rfl
    · simp only [Ledger.transferFee, bind_eq_ok_iff, require_eq_ok_iff, pure_eq_ok_iff, and_true]
      refine ⟨(), ?_⟩
      intro y hy
      rw [hsm, hx, Option.mem_some_iff] at hy
      rw [← hy, hfee]
    · simp only [Ledger.transferFee, bind_eq_ok_iff, require_eq_ok_iff, getMint_eq_ok_iff,
        pure_eq_ok_iff]
      exact ⟨(), hsm.symm, x, ⟨hx, rfl⟩, (), rfl, by simp [Mint.fee, hfee]⟩
  refine (exec_eq_ok_iff ..).2 ⟨hq, (processTransfer_eq_ok_iff ..).2 ⟨src, dst, 0, hsrc, hsp, hdst,
    hdp, hs, hd, hle, hsm.trans hdm.symm, hfees, hmay, ?_⟩⟩
  rw [if_neg hne, Nat.sub_zero]
  exact ⟨Nat.zero_le _, by omega, rfl⟩

/-- A transfer by the owner. -/
theorem exec_transfer_of_usable {source destination owner mint : K} {src dst : TokenAccount K}
    {x : Mint K} {amount : Nat} {checked : Option (K × UInt8)} (hc : l.Conserved)
    (hchecked : checked = none ∨ checked = some (mint, x.decimals)) (hne : source ≠ destination)
    (hsrc : l.accounts source = some src) (hdst : l.accounts destination = some dst)
    (hx : l.mints mint = some x) (hsm : src.mint = mint) (hdm : dst.mint = mint)
    (hsp : src.program = x.program) (hdp : dst.program = x.program) (hfee : x.transferFee = none)
    (hs : src.Usable owner) (hd : dst.frozen = false) (hle : amount ≤ src.amount)
    (hq : ∀ a ∈ (TokenIx.transfer source destination owner amount checked).metas,
      q.admits a = true) :
    exec q x.program (.transfer source destination owner amount checked) l =
      .ok ((l.setAccount source (some (src.debit amount))).setAccount destination
        (some (dst.credit amount 0))) := by
  have h := exec_transfer_of_mayMove hc hchecked hne hsrc hdst hx hsm hdm hsp hdp hfee hs.thawed
    (hs.mayMove amount) hd hle hq
  rwa [hs.authorized] at h

/-- A burn by whoever may move the amount. -/
theorem exec_burn_of_mayMove {source owner mint : K} {src : TokenAccount K} {x : Mint K}
    {amount : Nat} (hc : l.Conserved) (hsrc : l.accounts source = some src)
    (hx : l.mints mint = some x) (hsm : src.mint = mint) (hsp : src.program = x.program)
    (hf : src.frozen = false) (hmay : src.MayMove owner amount) (hle : amount ≤ src.amount)
    (hq : ∀ a ∈ (TokenIx.burn source mint owner amount).metas, q.admits a = true) :
    exec q x.program (.burn source mint owner amount) l =
      .ok ((l.setAccount source (some ((src.authorized owner amount).debit amount))).setMint mint
        (x.withSupply (x.supply - amount))) := by
  have hcover := hc.balance_le hsrc
  rw [hsm, Ledger.supply_of_some hx] at hcover
  exact (exec_eq_ok_iff ..).2 ⟨hq, (processBurn_eq_ok_iff ..).2 ⟨src, x, hsrc, hsp, hx, rfl,
    hf, hle, hsm.symm, hmay, by omega, rfl⟩⟩

/-- Minting by the authority. -/
theorem exec_mintTo_of_authority {destination authority mint : K} {dst : TokenAccount K}
    {x : Mint K} {amount : Nat} (hc : l.Conserved) (hdst : l.accounts destination = some dst)
    (hx : l.mints mint = some x) (hdm : dst.mint = mint) (hdp : dst.program = x.program)
    (hd : dst.frozen = false) (hauth : x.mintAuthority = some authority)
    (hfits : x.supply + amount ≤ u64Max)
    (hq : ∀ a ∈ (TokenIx.mintTo mint destination authority amount).metas, q.admits a = true) :
    exec q x.program (.mintTo mint destination authority amount) l =
      .ok ((l.setAccount destination (some (dst.credit amount 0))).setMint mint
        (x.withSupply (x.supply + amount))) := by
  have hcover := hc.balance_le hdst
  rw [hdm, Ledger.supply_of_some hx] at hcover
  exact (exec_eq_ok_iff ..).2 ⟨hq, (processMintTo_eq_ok_iff ..).2 ⟨dst, x, hdst, hdp, hd, hdm.symm,
    hx, rfl, hauth, by omega, hfits, rfl⟩⟩

end TokenLedger
