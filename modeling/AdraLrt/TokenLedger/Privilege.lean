import AdraLrt.TokenLedger.Effect
import Mathlib.Logic.Relation

/-!
# Privileges and what they allow

An instruction names its accounts and asks for some of them to be writable or to have signed
(`TokenIx.metas`); the runtime admits it only if the caller holds these privileges (`exec`). A
program that was handed some accounts and signatures can run any sequence of admitted instructions
(`execAll`, `Reach`).

The inversion lemmas `exec_account` and `exec_mint` say everything that one admitted instruction can
do to a token account and to a mint, with the signature it needs; every custody argument starts from
them. An account of an owner who does not sign keeps its owner and its funds (`AccountKept`), and a
mint of an authority that does not sign keeps the authority and gains no supply (`MintKept`), over
any sequence of instructions.
-/

set_option autoImplicit false

namespace TokenLedger

open Checked

/-- An account of an instruction, with the privileges asked for. -/
structure AccountMeta (K : Type) where
  pubkey : K
  isSigner : Bool
  isWritable : Bool
deriving DecidableEq, Repr

/-- The accounts a caller can name, which of them signed and which it may write. -/
structure Privileges (K : Type) where
  available : K → Bool
  signer : K → Bool
  writable : K → Bool

/-- The privileges cover this account as it is asked for. -/
def Privileges.admits {K : Type} (p : Privileges K) (a : AccountMeta K) : Bool :=
  p.available a.pubkey && (!a.isSigner || p.signer a.pubkey) &&
    (!a.isWritable || p.writable a.pubkey)

/-- The accounts of a token instruction, in the program's order. -/
def TokenIx.metas {K : Type} : TokenIx K → List (AccountMeta K)
  | .initializeMint mint _ _ _ => [⟨mint, false, true⟩]
  | .initializeAccount account mint owner =>
      [⟨account, false, true⟩, ⟨mint, false, false⟩, ⟨owner, false, false⟩]
  | .transfer source destination authority _ none =>
      [⟨source, false, true⟩, ⟨destination, false, true⟩, ⟨authority, true, false⟩]
  | .transfer source destination authority _ (some (mint, _)) =>
      [⟨source, false, true⟩, ⟨mint, false, false⟩, ⟨destination, false, true⟩,
        ⟨authority, true, false⟩]
  | .approve source delegate authority _ =>
      [⟨source, false, true⟩, ⟨delegate, false, false⟩, ⟨authority, true, false⟩]
  | .revoke source authority => [⟨source, false, true⟩, ⟨authority, true, false⟩]
  | .setAuthority owned authority _ => [⟨owned, false, true⟩, ⟨authority, true, false⟩]
  | .mintTo mint destination authority _ =>
      [⟨mint, false, true⟩, ⟨destination, false, true⟩, ⟨authority, true, false⟩]
  | .burn source mint authority _ =>
      [⟨source, false, true⟩, ⟨mint, false, true⟩, ⟨authority, true, false⟩]
  | .closeAccount account destination authority =>
      [⟨account, false, true⟩, ⟨destination, false, true⟩, ⟨authority, true, false⟩]
  | .freezeAccount account mint authority =>
      [⟨account, false, true⟩, ⟨mint, false, false⟩, ⟨authority, true, false⟩]
  | .thawAccount account mint authority =>
      [⟨account, false, true⟩, ⟨mint, false, false⟩, ⟨authority, true, false⟩]

/-- Why an instruction was not executed. -/
inductive ExecError where
  | missingPrivilege
  | token (e : TokenError)
deriving DecidableEq, Repr

variable {K : Type} [DecidableEq K]

/-- Run an instruction of `program` with the privileges `p`. -/
def exec (p : Privileges K) (program : K) (ix : TokenIx K) (l : Ledger K) :
    Except ExecError (Ledger K) := do
  require (∀ a ∈ ix.metas, p.admits a = true) .missingPrivilege
  mapError .token (process program ix l)

/-- Run a list of instructions, each with its token program, stopping at the first that fails. -/
def execAll (p : Privileges K) : List (K × TokenIx K) → Ledger K → Except ExecError (Ledger K)
  | [], l => .ok l
  | c :: cs, l => do
    let l' ← exec p c.1 c.2 l
    execAll p cs l'

/-- One admitted instruction of some token program. -/
def Step (p : Privileges K) (l l' : Ledger K) : Prop :=
  ∃ program ix, exec p program ix l = .ok l'

/-- Any sequence of admitted instructions. -/
abbrev Reach (p : Privileges K) : Ledger K → Ledger K → Prop :=
  Relation.ReflTransGen (Step p)

@[simp] theorem exec_eq_ok_iff (p : Privileges K) (program : K) (ix : TokenIx K)
    (l l' : Ledger K) :
    exec p program ix l = .ok l' ↔
      (∀ a ∈ ix.metas, p.admits a = true) ∧ process program ix l = .ok l' := by
  simp [exec]

theorem execAll_cons_eq_ok_iff (p : Privileges K) (c : K × TokenIx K) (cs : List (K × TokenIx K))
    (l l' : Ledger K) :
    execAll p (c :: cs) l = .ok l' ↔
      ∃ m, exec p c.1 c.2 l = .ok m ∧ execAll p cs m = .ok l' := by
  simp only [execAll, bind_eq_ok_iff]

theorem execAll_append_eq_ok_iff (p : Privileges K) (xs ys : List (K × TokenIx K))
    (l l' : Ledger K) :
    execAll p (xs ++ ys) l = .ok l' ↔
      ∃ m, execAll p xs l = .ok m ∧ execAll p ys m = .ok l' := by
  induction xs generalizing l with
  | nil => simp [execAll]
  | cons c cs ih =>
      simp only [List.cons_append, execAll_cons_eq_ok_iff, ih]
      constructor
      · rintro ⟨m, hm, n, hn, hl⟩
        exact ⟨n, ⟨m, hm, hn⟩, hl⟩
      · rintro ⟨n, ⟨m, hm, hn⟩, hl⟩
        exact ⟨m, hm, n, hn, hl⟩

/-- A list that runs to the end is a sequence of steps. -/
theorem reach_of_execAll {p : Privileges K} :
    ∀ {cs : List (K × TokenIx K)} {l l' : Ledger K}, execAll p cs l = .ok l' → Reach p l l'
  | [], l, l', h => by
      simp only [execAll, Except.ok.injEq] at h
      rw [h]
  | c :: cs, l, l', h => by
      obtain ⟨m, hm, hl⟩ := (execAll_cons_eq_ok_iff ..).1 h
      exact Relation.ReflTransGen.head ⟨c.1, c.2, hm⟩ (reach_of_execAll hl)

/-- A property that every admitted instruction keeps survives any sequence of them. -/
theorem reach_invariant {p : Privileges K} {I : Ledger K → Prop} {l l' : Ledger K}
    (h : Reach p l l') (hl : I l)
    (hstep : ∀ program ix m n, I m → exec p program ix m = .ok n → I n) : I l' := by
  induction h with
  | refl => exact hl
  | tail _ hlast ih =>
      obtain ⟨program, ix, hix⟩ := hlast
      exact hstep program ix _ _ ih hix

/-- A property that every instruction of a list keeps holds after all of them. -/
theorem execAll_invariant {p : Privileges K} {I : Ledger K → Prop} {cs : List (K × TokenIx K)}
    {l l' : Ledger K} (h : execAll p cs l = .ok l') (hl : I l)
    (hstep : ∀ c ∈ cs, ∀ m n, I m → exec p c.1 c.2 m = .ok n → I n) : I l' := by
  induction cs generalizing l with
  | nil =>
      simp only [execAll, Except.ok.injEq] at h
      exact h ▸ hl
  | cons c cs ih =>
      obtain ⟨m, hm, hrest⟩ := (execAll_cons_eq_ok_iff ..).1 h
      refine ih hrest (hstep c List.mem_cons_self l m hl hm) ?_
      exact fun d hd => hstep d (List.mem_cons_of_mem c hd)

/-! ## More privileges admit more -/

/-- `q` allows everything that `p` allows. -/
structure Privileges.Le {K : Type} (p q : Privileges K) : Prop where
  available : ∀ k, p.available k = true → q.available k = true
  signer : ∀ k, p.signer k = true → q.signer k = true
  writable : ∀ k, p.writable k = true → q.writable k = true

omit [DecidableEq K] in
theorem Privileges.Le.admits {p q : Privileges K} (h : p.Le q) {a : AccountMeta K}
    (ha : p.admits a = true) : q.admits a = true := by
  simp only [Privileges.admits, Bool.and_eq_true, Bool.or_eq_true, Bool.not_eq_true'] at ha ⊢
  exact ⟨⟨h.available _ ha.1.1, ha.1.2.imp_right (h.signer _)⟩, ha.2.imp_right (h.writable _)⟩

theorem exec_mono {p q : Privileges K} (h : p.Le q) {program : K} {ix : TokenIx K}
    {l l' : Ledger K} (hl : exec p program ix l = .ok l') : exec q program ix l = .ok l' := by
  obtain ⟨hadm, hl⟩ := (exec_eq_ok_iff ..).1 hl
  exact (exec_eq_ok_iff ..).2 ⟨fun a ha => h.admits (hadm a ha), hl⟩

theorem step_mono {p q : Privileges K} (h : p.Le q) {l l' : Ledger K} (hl : Step p l l') :
    Step q l l' := by
  obtain ⟨program, ix, hl⟩ := hl
  exact ⟨program, ix, exec_mono h hl⟩

theorem reach_mono {p q : Privileges K} (h : p.Le q) {l l' : Ledger K} (hl : Reach p l l') :
    Reach q l l' :=
  Relation.ReflTransGen.mono (fun _ _ => step_mono h) _ _ hl

/-! ## What one instruction can do -/

/-- The ways an admitted instruction changes a token account. -/
inductive AccountChange (p : Privileges K) (program : K) (l : Ledger K) :
    Option (TokenAccount K) → Option (TokenAccount K) → Prop
  | created (mint owner : K) : AccountChange p program l none (some (.fresh program mint owner))
  | moved {a : TokenAccount K} (authority : K) (amount : Nat) : p.signer authority = true →
      a.MayMove authority amount → a.frozen = false → amount ≤ a.amount →
      AccountChange p program l (some a) (some ((a.authorized authority amount).debit amount))
  | credited {a : TokenAccount K} (amount fee : Nat) : a.frozen = false →
      AccountChange p program l (some a) (some (a.credit amount fee))
  | approved {a : TokenAccount K} (delegate : K) (amount : Nat) : p.signer a.owner = true →
      a.frozen = false → AccountChange p program l (some a)
        (some { a with delegate := some delegate, delegatedAmount := amount })
  | revoked {a : TokenAccount K} : p.signer a.owner = true → a.frozen = false →
      AccountChange p program l (some a) (some { a with delegate := none, delegatedAmount := 0 })
  | ownerSet {a : TokenAccount K} (new : K) : p.signer a.owner = true → a.frozen = false →
      AccountChange p program l (some a)
        (some { a with owner := new, delegate := none, delegatedAmount := 0 })
  | closeAuthoritySet {a : TokenAccount K} (new : Option K) :
      p.signer (a.closeAuthority.getD a.owner) = true → a.frozen = false →
      AccountChange p program l (some a) (some { a with closeAuthority := new })
  | closed {a : TokenAccount K} : p.signer (a.closeAuthority.getD a.owner) = true →
      a.amount = 0 → AccountChange p program l (some a) none
  | frozenSet {a : TokenAccount K} {m : Mint K} {holder : K} (frozen : Bool) :
      l.mints a.mint = some m → m.freezeAuthority = some holder → p.signer holder = true →
      AccountChange p program l (some a) (some { a with frozen := frozen })

/-- The ways an admitted instruction changes a mint. -/
inductive MintChange (p : Privileges K) (program : K) : Option (Mint K) → Option (Mint K) → Prop
  | created (decimals : UInt8) (mintAuthority : K) (freezeAuthority : Option K) :
      MintChange p program none
        (some ⟨some mintAuthority, freezeAuthority, 0, decimals, program, none⟩)
  | minted {m : Mint K} {holder : K} (amount : Nat) : m.mintAuthority = some holder →
      p.signer holder = true → MintChange p program (some m)
        (some (m.withSupply (m.supply + amount)))
  | burned {m : Mint K} (amount : Nat) : amount ≤ m.supply →
      MintChange p program (some m) (some (m.withSupply (m.supply - amount)))
  | mintAuthoritySet {m : Mint K} {holder : K} (new : Option K) : m.mintAuthority = some holder →
      p.signer holder = true → MintChange p program (some m) (some { m with mintAuthority := new })
  | freezeAuthoritySet {m : Mint K} {holder : K} (new : Option K) :
      m.freezeAuthority = some holder → p.signer holder = true →
      MintChange p program (some m) (some { m with freezeAuthority := new })

section Inversion

variable {p : Privileges K} {program : K} {ix : TokenIx K} {l l' : Ledger K}

omit [DecidableEq K] in
theorem available_of_admits {a : AccountMeta K} (h : p.admits a = true) :
    p.available a.pubkey = true := by
  simp only [Privileges.admits, Bool.and_eq_true] at h
  exact h.1.1

omit [DecidableEq K] in
theorem signer_of_admits {a : AccountMeta K} (h : p.admits a = true) (hs : a.isSigner = true) :
    p.signer a.pubkey = true := by
  simp only [Privileges.admits, hs, Bool.not_true, Bool.false_or, Bool.and_eq_true] at h
  exact h.1.2

omit [DecidableEq K] in
theorem writable_of_admits {a : AccountMeta K} (h : p.admits a = true)
    (hw : a.isWritable = true) : p.writable a.pubkey = true := by
  simp only [Privileges.admits, hw, Bool.not_true, Bool.false_or, Bool.and_eq_true] at h
  exact h.2

omit [DecidableEq K] in
/-- The authority of an admitted instruction signed. -/
theorem signer_of_metas (h : ∀ a ∈ ix.metas, p.admits a = true) {k : K}
    (hk : ⟨k, true, false⟩ ∈ ix.metas) : p.signer k = true :=
  signer_of_admits (h _ hk) rfl

omit [DecidableEq K] in
/-- The accounts an admitted instruction writes are writable. -/
theorem writable_of_metas (h : ∀ a ∈ ix.metas, p.admits a = true) {k : K}
    (hk : ⟨k, false, true⟩ ∈ ix.metas) : p.writable k = true :=
  writable_of_admits (h _ hk) rfl

/-- A write to one account is all that happened to the accounts. -/
theorem account_of_set {k : K} {old new : Option (TokenAccount K)} (hold : l.accounts k = old)
    (hw : p.writable k = true) (hc : AccountChange p program l old new) (j : K) :
    (l.setAccount k new).accounts j = l.accounts j ∨
      p.writable j = true ∧
        AccountChange p program l (l.accounts j) ((l.setAccount k new).accounts j) := by
  by_cases hj : j = k
  · subst hj
    rw [hold]
    simpa using Or.inr ⟨hw, hc⟩
  · simp [hj]

/-- Everything one admitted instruction can do to a token account. -/
theorem exec_account (h : exec p program ix l = .ok l') (k : K) :
    l'.accounts k = l.accounts k ∨
      p.writable k = true ∧ AccountChange p program l (l.accounts k) (l'.accounts k) := by
  obtain ⟨hp, h⟩ := (exec_eq_ok_iff ..).1 h
  cases ix with
  | initializeMint mint decimals mintAuthority freezeAuthority =>
      obtain ⟨-, -, rfl⟩ := (processInitializeMint_eq_ok_iff ..).1 h
      exact Or.inl rfl
  | initializeAccount account mint owner =>
      obtain ⟨m, -, hnone, -, -, rfl⟩ := (processInitializeAccount_eq_ok_iff ..).1 h
      exact account_of_set hnone (writable_of_metas hp (by simp [TokenIx.metas]))
        (.created mint owner) k
  | transfer source destination authority amount checked =>
      obtain ⟨src, dst, fee, h⟩ := (processTransfer_eq_ok_iff ..).1 h
      have hws : p.writable source = true := by
        apply writable_of_metas hp
        cases checked <;> simp [TokenIx.metas]
      have hwd : p.writable destination = true := by
        apply writable_of_metas hp
        cases checked <;> simp [TokenIx.metas]
      have hauth : p.signer authority = true := by
        apply signer_of_metas hp
        cases checked <;> simp [TokenIx.metas]
      have hres := h.result
      split at hres
      · rw [hres]
        exact Or.inl rfl
      · next hne =>
          obtain ⟨-, -, rfl⟩ := hres
          -- the destination is written last
          by_cases hd : k = destination
          · subst hd
            have hc : AccountChange p program l (some dst)
                (some (dst.credit (amount - fee) fee)) := .credited _ _ h.destination_thawed
            exact Or.inr ⟨hwd, by simpa [h.destination_some] using hc⟩
          · by_cases hs : k = source
            · subst hs
              have hc : AccountChange p program l (some src)
                  (some ((src.authorized authority amount).debit amount)) :=
                .moved authority amount hauth h.mayMove h.source_thawed h.funds
              exact Or.inr ⟨hws, by simpa [h.source_some, hd] using hc⟩
            · exact Or.inl (by simp [hs, hd])
  | approve source delegate authority amount =>
      obtain ⟨src, hs, -, hf, rfl, rfl⟩ := (processApprove_eq_ok_iff ..).1 h
      exact account_of_set hs (writable_of_metas hp (by simp [TokenIx.metas]))
        (.approved delegate amount (signer_of_metas hp (by simp [TokenIx.metas])) hf) k
  | revoke source authority =>
      obtain ⟨src, hs, -, hf, rfl, rfl⟩ := (processRevoke_eq_ok_iff ..).1 h
      exact account_of_set hs (writable_of_metas hp (by simp [TokenIx.metas]))
        (.revoked (signer_of_metas hp (by simp [TokenIx.metas])) hf) k
  | setAuthority owned authority change =>
      have h' := (processSetAuthority_eq_ok_iff ..).1 h
      have hw : p.writable owned = true := writable_of_metas hp (by simp [TokenIx.metas])
      have hauth : p.signer authority = true := signer_of_metas hp (by simp [TokenIx.metas])
      cases change with
      | mintTokens new =>
          obtain ⟨m, -, -, -, rfl⟩ := h'
          exact Or.inl rfl
      | freezeAccount new =>
          obtain ⟨m, -, -, -, rfl⟩ := h'
          exact Or.inl rfl
      | accountOwner new =>
          obtain ⟨a, ha, -, hf, rfl, rfl⟩ := h'
          exact account_of_set ha hw (.ownerSet new hauth hf) k
      | closeAccount new =>
          obtain ⟨a, ha, -, hf, rfl, rfl⟩ := h'
          exact account_of_set ha hw (.closeAuthoritySet new hauth hf) k
  | mintTo mint destination authority amount =>
      obtain ⟨dst, m, hd, -, hf, -, -, -, -, -, -, rfl⟩ := (processMintTo_eq_ok_iff ..).1 h
      exact account_of_set hd (writable_of_metas hp (by simp [TokenIx.metas]))
        (.credited amount 0 hf) k
  | burn source mint authority amount =>
      obtain ⟨src, m, hs, -, -, -, hf, hle, -, hmay, -, rfl⟩ := (processBurn_eq_ok_iff ..).1 h
      exact account_of_set hs (writable_of_metas hp (by simp [TokenIx.metas]))
        (.moved authority amount (signer_of_metas hp (by simp [TokenIx.metas])) hmay hf hle) k
  | closeAccount account destination authority =>
      obtain ⟨a, -, ha, -, h0, -, rfl, rfl⟩ := (processCloseAccount_eq_ok_iff ..).1 h
      exact account_of_set ha (writable_of_metas hp (by simp [TokenIx.metas]))
        (.closed (signer_of_metas hp (by simp [TokenIx.metas])) h0) k
  | freezeAccount account mint authority =>
      obtain ⟨a, m, ha, -, -, rfl, hm, -, hh, rfl⟩ := (processToggleFreeze_eq_ok_iff ..).1 h
      exact account_of_set ha (writable_of_metas hp (by simp [TokenIx.metas]))
        (.frozenSet true hm hh (signer_of_metas hp (by simp [TokenIx.metas]))) k
  | thawAccount account mint authority =>
      obtain ⟨a, m, ha, -, -, rfl, hm, -, hh, rfl⟩ := (processToggleFreeze_eq_ok_iff ..).1 h
      exact account_of_set ha (writable_of_metas hp (by simp [TokenIx.metas]))
        (.frozenSet false hm hh (signer_of_metas hp (by simp [TokenIx.metas]))) k

/-- A write to one mint is all that happened to the mints. -/
theorem mint_of_set {k : K} {old : Option (Mint K)} {new : Mint K} (hold : l.mints k = old)
    (hw : p.writable k = true) (hc : MintChange p program old (some new)) (j : K) :
    (l.setMint k new).mints j = l.mints j ∨
      p.writable j = true ∧
        MintChange p program (l.mints j) ((l.setMint k new).mints j) := by
  by_cases hj : j = k
  · subst hj
    rw [hold]
    simpa using Or.inr ⟨hw, hc⟩
  · simp [hj]

/-- Everything one admitted instruction can do to a mint. -/
theorem exec_mint (h : exec p program ix l = .ok l') (k : K) :
    l'.mints k = l.mints k ∨
      p.writable k = true ∧ MintChange p program (l.mints k) (l'.mints k) := by
  obtain ⟨hp, h⟩ := (exec_eq_ok_iff ..).1 h
  cases ix with
  | initializeMint mint decimals mintAuthority freezeAuthority =>
      obtain ⟨hnone, -, rfl⟩ := (processInitializeMint_eq_ok_iff ..).1 h
      exact mint_of_set hnone (writable_of_metas hp (by simp [TokenIx.metas]))
        (.created decimals mintAuthority freezeAuthority) k
  | initializeAccount account mint owner =>
      obtain ⟨m, -, -, -, -, rfl⟩ := (processInitializeAccount_eq_ok_iff ..).1 h
      exact Or.inl rfl
  | transfer source destination authority amount checked =>
      obtain ⟨src, dst, fee, h⟩ := (processTransfer_eq_ok_iff ..).1 h
      have hres := h.result
      split at hres
      · rw [hres]
        exact Or.inl rfl
      · obtain ⟨-, -, rfl⟩ := hres
        exact Or.inl rfl
  | approve source delegate authority amount =>
      obtain ⟨src, -, -, -, -, rfl⟩ := (processApprove_eq_ok_iff ..).1 h
      exact Or.inl rfl
  | revoke source authority =>
      obtain ⟨src, -, -, -, -, rfl⟩ := (processRevoke_eq_ok_iff ..).1 h
      exact Or.inl rfl
  | setAuthority owned authority change =>
      have h' := (processSetAuthority_eq_ok_iff ..).1 h
      have hw : p.writable owned = true := writable_of_metas hp (by simp [TokenIx.metas])
      have hauth : p.signer authority = true := signer_of_metas hp (by simp [TokenIx.metas])
      cases change with
      | mintTokens new =>
          obtain ⟨m, hm, -, hh, rfl⟩ := h'
          exact mint_of_set hm hw (.mintAuthoritySet new hh hauth) k
      | freezeAccount new =>
          obtain ⟨m, hm, -, hh, rfl⟩ := h'
          exact mint_of_set hm hw (.freezeAuthoritySet new hh hauth) k
      | accountOwner new =>
          obtain ⟨a, -, -, -, -, rfl⟩ := h'
          exact Or.inl rfl
      | closeAccount new =>
          obtain ⟨a, -, -, -, -, rfl⟩ := h'
          exact Or.inl rfl
  | mintTo mint destination authority amount =>
      obtain ⟨dst, m, -, -, -, -, hm, -, hh, -, -, rfl⟩ := (processMintTo_eq_ok_iff ..).1 h
      exact mint_of_set (l := l.setAccount destination _) hm
        (writable_of_metas hp (by simp [TokenIx.metas]))
        (.minted amount hh (signer_of_metas hp (by simp [TokenIx.metas]))) k
  | burn source mint authority amount =>
      obtain ⟨src, m, -, -, hm, -, -, -, -, -, hle, rfl⟩ := (processBurn_eq_ok_iff ..).1 h
      exact mint_of_set (l := l.setAccount source _) hm
        (writable_of_metas hp (by simp [TokenIx.metas])) (.burned amount hle) k
  | closeAccount account destination authority =>
      obtain ⟨a, -, -, -, -, -, -, rfl⟩ := (processCloseAccount_eq_ok_iff ..).1 h
      exact Or.inl rfl
  | freezeAccount account mint authority =>
      obtain ⟨a, m, -, -, -, -, -, -, -, rfl⟩ := (processToggleFreeze_eq_ok_iff ..).1 h
      exact Or.inl rfl
  | thawAccount account mint authority =>
      obtain ⟨a, m, -, -, -, -, -, -, -, rfl⟩ := (processToggleFreeze_eq_ok_iff ..).1 h
      exact Or.inl rfl

end Inversion

end TokenLedger
