import AdraLrt.TokenLedger.Conservation

/-!
# Spending with an owner's signature

The converse of custody: what the holder of the owner's signature can take. Unless the account is
frozen by an authority out of reach, its delegate can be revoked and any part of its balance burned
(`exists_burn`), and nothing else changes. A transfer looks at nothing of a mint but its program,
its decimals and its fee, so it goes through after the authorities of the mint were replaced
(`processTransfer_setMint`).
-/

set_option autoImplicit false

namespace TokenLedger

open Checked

variable {K : Type} [DecidableEq K]

/-! ## Transfers and mints -/

theorem processTransfer_mints {program source destination authority : K} {amount : Nat}
    {checked : Option (K × UInt8)} {l l' : Ledger K}
    (h : processTransfer program source destination authority amount checked l = .ok l') :
    l'.mints = l.mints := by
  obtain ⟨src, dst, fee, h⟩ := (processTransfer_eq_ok_iff ..).1 h
  have hres := h.result
  split at hres
  · rw [hres]
  · obtain ⟨-, -, rfl⟩ := hres
    rfl

/-- What a transfer reads of a mint. -/
def Mint.fixed (m : Mint K) : K × UInt8 × Option TransferFee :=
  (m.program, m.decimals, m.transferFee)

/-- Two ledgers whose mints differ in authorities and supplies only. -/
def MintsAlike (l l' : Ledger K) : Prop :=
  ∀ m, (l'.mints m).map Mint.fixed = (l.mints m).map Mint.fixed

theorem mintsAlike_setMint {l : Ledger K} {k : K} {x y : Mint K} (hx : l.mints k = some x)
    (h : y.fixed = x.fixed) : MintsAlike l (l.setMint k y) := by
  intro m
  rw [Ledger.setMint_mints]
  split
  · next hm => rw [hm, hx, Option.map_some, Option.map_some, h]
  · rfl

/-- Alike ledgers have the same transfer fees. -/
theorem transferFee_of_alike {l l' : Ledger K} (h : MintsAlike l l') {program mint : K}
    {amount fee : Nat} {checked : Option (K × UInt8)}
    (hfee : l.transferFee program mint amount checked = .ok fee) :
    l'.transferFee program mint amount checked = .ok fee := by
  cases checked with
  | none =>
      simp only [Ledger.transferFee, bind_eq_ok_iff, require_eq_ok_iff, pure_eq_ok_iff] at hfee ⊢
      obtain ⟨u, hnone, hfee⟩ := hfee
      refine ⟨u, fun y hy => ?_, hfee⟩
      have hm := h mint
      rw [hy, Option.map_some] at hm
      obtain ⟨x, hx, hxy⟩ := Option.map_eq_some_iff.1 hm.symm
      simp only [Mint.fixed, Prod.mk.injEq] at hxy
      exact hxy.2.2.symm.trans (hnone x hx)
  | some named =>
      obtain ⟨m, decimals⟩ := named
      simp only [Ledger.transferFee, bind_eq_ok_iff, require_eq_ok_iff, pure_eq_ok_iff,
        getMint_eq_ok_iff] at hfee ⊢
      obtain ⟨u, hmint, x, ⟨hx, hxp⟩, v, hxd, hfee⟩ := hfee
      have hm := h m
      rw [hx, Option.map_some] at hm
      obtain ⟨y, hy, hxy⟩ := Option.map_eq_some_iff.1 hm
      simp only [Mint.fixed, Prod.mk.injEq] at hxy
      obtain ⟨hp, hd, hf⟩ := hxy
      refine ⟨u, hmint, y, ⟨hy, hp.trans hxp⟩, v, hxd.trans hd.symm, ?_⟩
      rw [← hfee, Mint.fee, Mint.fee, hf]

/-- A transfer goes through as before after the authorities or the supply of a mint changed. -/
theorem processTransfer_setMint {program source destination authority : K} {amount : Nat}
    {checked : Option (K × UInt8)} {l l' : Ledger K} {k : K} {x y : Mint K}
    (hx : l.mints k = some x) (hxy : y.fixed = x.fixed)
    (h : processTransfer program source destination authority amount checked l = .ok l') :
    processTransfer program source destination authority amount checked (l.setMint k y) =
      .ok (l'.setMint k y) := by
  obtain ⟨src, dst, fee, h⟩ := (processTransfer_eq_ok_iff ..).1 h
  have hfee := transferFee_of_alike (mintsAlike_setMint hx hxy) h.fee_ok
  refine (processTransfer_eq_ok_iff ..).2 ⟨src, dst, fee, h.source_some, h.source_program,
    h.destination_some, h.destination_program, h.source_thawed, h.destination_thawed, h.funds,
    h.mint_eq, hfee, h.mayMove, ?_⟩
  have hres := h.result
  by_cases hself : source = destination
  · simp only [hself, if_true] at hres ⊢
    rw [hres]
  · simp only [hself, if_false] at hres ⊢
    obtain ⟨hle, hadd, rfl⟩ := hres
    exact ⟨hle, hadd, rfl⟩

/-- Whoever may move `a` may move `b` as well. -/
def TokenAccount.Movable (a b : TokenAccount K) : Prop :=
  ∀ authority amount, a.MayMove authority amount → b.MayMove authority amount

/-- A transfer that succeeds also succeeds from a source with other funds that suffice. -/
theorem exists_processTransfer {program source destination authority : K} {amount : Nat}
    {checked : Option (K × UInt8)} {l l' l₁ : Ledger K} {a b : TokenAccount K}
    (h : processTransfer program source destination authority amount checked l = .ok l')
    (hne : source ≠ destination) (ha : l.accounts source = some a)
    (hb : l₁.accounts source = some b) (hbm : b.mint = a.mint) (hbp : b.program = a.program)
    (hbf : b.frozen = a.frozen) (hba : amount ≤ b.amount) (hmove : a.Movable b)
    (hdst : l₁.accounts destination = l.accounts destination) (hmints : MintsAlike l l₁) :
    ∃ l₁', processTransfer program source destination authority amount checked l₁ = .ok l₁' := by
  obtain ⟨src, dst, fee, h⟩ := (processTransfer_eq_ok_iff ..).1 h
  obtain rfl := Option.some.inj (ha.symm.trans h.source_some)
  have hres := h.result
  simp only [hne, if_false] at hres
  obtain ⟨hle, hadd, -⟩ := hres
  refine ⟨(l₁.setAccount source (some ((b.authorized authority amount).debit amount))).setAccount
    destination (some (dst.credit (amount - fee) fee)),
    (processTransfer_eq_ok_iff ..).2 ⟨b, dst, fee, hb, hbp.trans h.source_program,
    hdst.trans h.destination_some, h.destination_program, hbf.trans h.source_thawed,
    h.destination_thawed, hba, hbm.trans h.mint_eq, ?_, hmove _ _ h.mayMove, ?_⟩⟩
  · rw [hbm]
    exact transferFee_of_alike hmints h.fee_ok
  · rw [if_neg hne]
    exact ⟨hle, hadd, rfl⟩

/-- The balances after a transfer between two accounts, whatever the fee. -/
theorem processTransfer_balances {program source destination authority : K} {amount : Nat}
    {checked : Option (K × UInt8)} {l l' : Ledger K} (hne : source ≠ destination)
    (h : processTransfer program source destination authority amount checked l = .ok l') :
    l'.balance source + amount = l.balance source ∧
      ∀ k, k ≠ source → k ≠ destination → l'.balance k = l.balance k := by
  obtain ⟨src, dst, fee, h⟩ := (processTransfer_eq_ok_iff ..).1 h
  have hres := h.result
  have hfunds := h.funds
  simp only [hne, if_false] at hres
  obtain ⟨-, -, rfl⟩ := hres
  refine ⟨?_, fun k hs hd => ?_⟩
  · rw [Ledger.balance_setAccount, if_neg hne, Ledger.balance_setAccount, if_pos rfl,
      TokenAccount.debit_amount, authorized_amount, Ledger.balance_of_some h.source_some]
    omega
  · rw [Ledger.balance_setAccount, if_neg hd, Ledger.balance_setAccount, if_neg hs]

/-! ## Mints persist -/

/-- A mint keeps its program, its decimals and its fee under any instruction. -/
theorem exec_mint_fixed {p : Privileges K} {program : K} {ix : TokenIx K} {l l' : Ledger K}
    (h : exec p program ix l = .ok l') {m : K} {x : Mint K} (hx : l.mints m = some x) :
    ∃ x', l'.mints m = some x' ∧ x'.program = x.program ∧ x'.decimals = x.decimals ∧
      x'.transferFee = x.transferFee := by
  rcases exec_mint h m with heq | ⟨-, hc⟩
  · exact ⟨x, heq.trans hx, rfl, rfl, rfl⟩
  · rw [hx] at hc
    generalize l'.mints m = y at hc
    cases hc with
    | minted amount hh hsig => exact ⟨_, rfl, rfl, rfl, rfl⟩
    | burned amount hle => exact ⟨_, rfl, rfl, rfl, rfl⟩
    | mintAuthoritySet new hh hsig => exact ⟨_, rfl, rfl, rfl, rfl⟩
    | freezeAuthoritySet new hh hsig => exact ⟨_, rfl, rfl, rfl, rfl⟩

theorem reach_mint_fixed {p : Privileges K} {l l' : Ledger K} (h : Reach p l l') {m : K}
    {x : Mint K} (hx : l.mints m = some x) :
    ∃ x', l'.mints m = some x' ∧ x'.program = x.program ∧ x'.decimals = x.decimals ∧
      x'.transferFee = x.transferFee := by
  apply reach_invariant h
  · exact ⟨x, hx, rfl, rfl, rfl⟩
  · rintro program ix m n ⟨y, hy, hp, hd, hf⟩ hix
    obtain ⟨z, hz, hp', hd', hf'⟩ := exec_mint_fixed hix hy
    exact ⟨z, hz, hp'.trans hp, hd'.trans hd, hf'.trans hf⟩

/-! ## Burning -/

section Burn

variable {q : Privileges K} {l : Ledger K} {k : K} {a : TokenAccount K} {m : Mint K}

/-- Clear the frozen flag, if need be by the freeze authority. -/
theorem exists_thaw (hq : ∀ j, q.signer j = true → q.available j = true)
    (ha : l.accounts k = some a) (hm : l.mints a.mint = some m) (hp : m.program = a.program)
    (hk : q.available k = true ∧ q.writable k = true) (hmint : q.available a.mint = true)
    (hthaw : a.frozen = true → ∃ h, m.freezeAuthority = some h ∧ q.signer h = true) :
    ∃ cs l', (∀ c ∈ cs, c.1 = a.program) ∧ execAll q cs l = .ok l' ∧ l'.mints = l.mints ∧
      l'.accounts k = some { a with frozen := false } ∧
      ∀ j, j ≠ k → l'.accounts j = l.accounts j := by
  cases hf : a.frozen with
  | false =>
      refine ⟨[], l, by simp, rfl, rfl, ?_, fun j _ => rfl⟩
      rw [ha, ← hf]
  | true =>
      obtain ⟨holder, hholder, hsig⟩ := hthaw hf
      refine ⟨[(a.program, .thawAccount k a.mint holder)],
        l.setAccount k (some { a with frozen := false }), by simp, ?_, rfl, by simp, ?_⟩
      · simp only [execAll, bind_eq_ok_iff, Except.ok.injEq, exists_eq_right, exec_eq_ok_iff]
        refine ⟨?_, ?_⟩
        · simp [TokenIx.metas, Privileges.admits, hk, hmint, hsig, hq holder hsig]
        · exact (processToggleFreeze_eq_ok_iff ..).2
            ⟨a, m, ha, rfl, by simp [hf], rfl, hm, hp, hholder, rfl⟩
      · intro j hj
        simp [hj]

/-- The owner burns from an account that is not frozen and leaves the rights of others alone. Only
an allowance to the owner itself is revoked first. -/
theorem exists_burn_thawed (hq : ∀ j, q.signer j = true → q.available j = true)
    (ha : l.accounts k = some a) (hm : l.mints a.mint = some m) (hp : m.program = a.program)
    (hk : q.available k = true ∧ q.writable k = true)
    (hmint : q.available a.mint = true ∧ q.writable a.mint = true)
    (howner : q.signer a.owner = true) (hf : a.frozen = false) {n : Nat} (hn : n ≤ a.amount)
    (hs : n ≤ m.supply) :
    ∃ cs l' b, (∀ c ∈ cs, c.1 = a.program) ∧ execAll q cs l = .ok l' ∧
      l'.accounts k = some b ∧ b = { a with
        delegate := b.delegate, delegatedAmount := b.delegatedAmount, amount := a.amount - n } ∧
      a.Movable b ∧ (∀ j, j ≠ k → l'.accounts j = l.accounts j) ∧
      l'.mints a.mint = some (m.withSupply (m.supply - n)) ∧
      ∀ j, j ≠ a.mint → l'.mints j = l.mints j := by
  have hburn : ∀ (l₁ : Ledger K) (b : TokenAccount K), l₁.accounts k = some b →
      l₁.mints = l.mints → b.program = a.program → b.mint = a.mint → b.owner = a.owner →
      b.frozen = false → b.amount = a.amount → b.delegate ≠ some a.owner →
      exec q a.program (.burn k a.mint a.owner n) l₁ =
        .ok ((l₁.setAccount k (some (b.debit n))).setMint a.mint
          (m.withSupply (m.supply - n))) := by
    intro l₁ b hb hmints hbp hbm hbo hbf hba hbd
    refine (exec_eq_ok_iff ..).2 ⟨?_, ?_⟩
    · simp [TokenIx.metas, Privileges.admits, hk, hmint, howner, hq _ howner]
    · refine (processBurn_eq_ok_iff ..).2 ⟨b, m, hb, hbp, hmints ▸ hm, hp, hbf, hba ▸ hn, hbm.symm,
        Or.inr ⟨hbd, hbo⟩, hs, ?_⟩
      simp [TokenAccount.authorized, hbd]
  by_cases hd : a.delegate = some a.owner
  · -- as the delegate the owner could burn the allowance only
    let b : TokenAccount K := { a with delegate := none, delegatedAmount := 0 }
    have hrevoke : exec q a.program (.revoke k a.owner) l = .ok (l.setAccount k (some b)) := by
      refine (exec_eq_ok_iff ..).2 ⟨?_, ?_⟩
      · simp [TokenIx.metas, Privileges.admits, hk, howner, hq _ howner]
      · exact (processRevoke_eq_ok_iff ..).2 ⟨a, ha, rfl, hf, rfl, rfl⟩
    refine ⟨[(a.program, .revoke k a.owner), (a.program, .burn k a.mint a.owner n)], _, b.debit n,
      by simp, (execAll_cons_eq_ok_iff ..).2 ⟨_, hrevoke, (execAll_cons_eq_ok_iff ..).2 ⟨_,
        hburn _ b (by simp) rfl rfl rfl rfl hf rfl (by simp [b]), rfl⟩⟩, by simp, rfl, ?_, ?_,
      by simp, ?_⟩
    · rintro authority amount (⟨hx, -⟩ | ⟨hx, ho⟩)
      · obtain rfl := Option.some.inj (hd.symm.trans hx)
        exact Or.inr ⟨by simp [b], rfl⟩
      · exact (hx (ho ▸ hd)).elim
    · intro j hj
      simp [hj]
    · intro j hj
      simp [hj]
  · refine ⟨[(a.program, .burn k a.mint a.owner n)], _, a.debit n, by simp,
      (execAll_cons_eq_ok_iff ..).2 ⟨_, hburn l a ha rfl rfl rfl rfl hf rfl hd, rfl⟩, by simp, rfl,
      fun _ _ h => h, ?_, by simp, ?_⟩
    · intro j hj
      simp [hj]
    · intro j hj
      simp [hj]

/-- The owner's signature takes any part of the balance of an account that is not frozen out of
reach. -/
theorem exists_burn (hq : ∀ j, q.signer j = true → q.available j = true)
    (ha : l.accounts k = some a) (hm : l.mints a.mint = some m) (hp : m.program = a.program)
    (hk : q.available k = true ∧ q.writable k = true)
    (hmint : q.available a.mint = true ∧ q.writable a.mint = true)
    (howner : q.signer a.owner = true)
    (hthaw : a.frozen = true → ∃ h, m.freezeAuthority = some h ∧ q.signer h = true) {n : Nat}
    (hn : n ≤ a.amount) (hs : n ≤ m.supply) :
    ∃ cs l', (∀ c ∈ cs, c.1 = a.program) ∧ execAll q cs l = .ok l' ∧
      l'.balance k + n = l.balance k ∧ ∀ j, j ≠ k → l'.balance j = l.balance j := by
  obtain ⟨cs, l₁, hcs, hl₁, hmints, hacc, hframe⟩ := exists_thaw hq ha hm hp hk hmint.1 hthaw
  obtain ⟨ds, l₂, b, hds, hl₂, hb, hba, -, hframe', -, -⟩ :=
    exists_burn_thawed (a := { a with frozen := false }) hq hacc (hmints ▸ hm) hp hk hmint howner
      rfl hn hs
  refine ⟨cs ++ ds, l₂, ?_, (execAll_append_eq_ok_iff ..).2 ⟨l₁, hl₁, hl₂⟩, ?_, ?_⟩
  · intro c hc
    rcases List.mem_append.1 hc with hc | hc
    · exact hcs c hc
    · exact hds c hc
  · rw [Ledger.balance_of_some hb, Ledger.balance_of_some ha, hba]
    exact Nat.sub_add_cancel hn
  · intro j hj
    exact Ledger.balance_congr ((hframe' j hj).trans (hframe j hj))

end Burn

/-! ## Delegates -/

/-- Where `d` is the delegate of the account at `k`, the owner is a signer. -/
def OwnerSigns (q : Privileges K) (d k : K) (l : Ledger K) : Prop :=
  ∀ a, l.accounts k = some a → a.delegate = some d → q.signer a.owner = true

theorem exec_ownerSigns {q : Privileges K} {d k program : K} {ix : TokenIx K} {l l' : Ledger K}
    (h : exec q program ix l = .ok l') (hl : OwnerSigns q d k l) : OwnerSigns q d k l' := by
  intro b hb hbd
  rcases exec_account h k with heq | ⟨-, hc⟩
  · exact hl b (heq ▸ hb) hbd
  · rw [hb] at hc
    generalize hx : l.accounts k = x at hc
    cases hc with
    | created mint owner => cases hbd
    | moved authority amount hsig hmay hf hle =>
        rw [TokenAccount.debit_delegate] at hbd
        rw [TokenAccount.debit_owner, authorized_owner]
        rcases authorized_delegate _ authority amount with hd | hd
        · exact hl _ hx (hd ▸ hbd)
        · rw [hd] at hbd
          cases hbd
    | credited amount fee hf =>
        have howner := hl _ hx hbd
        exact howner
    | approved delegate amount hsig hf => exact hsig
    | revoked hsig hf => cases hbd
    | ownerSet new hsig hf => cases hbd
    | closeAuthoritySet new hsig hf =>
        have howner := hl _ hx hbd
        exact howner
    | frozenSet frozen hm hh hsig =>
        have howner := hl _ hx hbd
        exact howner

theorem reach_ownerSigns {q : Privileges K} {d k : K} {l l' : Ledger K} (h : Reach q l l')
    (hl : OwnerSigns q d k l) : OwnerSigns q d k l' :=
  reach_invariant h hl fun _ _ _ _ hm hix => exec_ownerSigns hix hm

end TokenLedger
