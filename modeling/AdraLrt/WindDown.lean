import AdraLrt.Exit

/-!
# All holders can exit

An exit of one holder leaves the accounts of all others alone and burns as much as it pays
(`exit_balance_other`, `exit_supply`), and the pool can be left as before (`Leavable`). So the
holders can leave one after another, in any order, each with any part of its tokens: nobody has to
be first to be paid (`all_holders_can_exit`).
-/

set_option autoImplicit false

namespace AdraLrt

open TokenLedger Checked

/-- A state in which a pool can be left, whoever leaves it. -/
structure Leavable (findBump : Pubkey → UInt8) (programs : Programs) (avss : Set Pubkey)
    (avsMints : Finset Pubkey) (tokenProgram pool : Pubkey) (r : LRTPool) (s : State) : Prop where
  sound : Sound findBump s
  feeFree : s.ledger.FeeFree
  backed : AllBacked avsMints s
  record : s.pools pool = some r
  terms : PoolSound s.ledger tokenProgram pool r.inputTokenMint r.outputTokenMint
  thawed : Thawed s.ledger
  honours : AlwaysHonours findBump programs avss avsMints tokenProgram pool r.inputTokenMint s

section Exits

variable {findBump : Pubkey → UInt8} {programs : Programs} {avss : Set Pubkey}
  {avsMints : Finset Pubkey} {tokenProgram pool : Pubkey} {r : LRTPool} {user : Pubkey} {c : Call}
  {calls : List Call} {s s' : State}

theorem Leavable.exitable (h : Leavable findBump programs avss avsMints tokenProgram pool r s)
    (huser : user.isReserved = false) (havs : user ∉ avss)
    (hinput : Holds s.ledger user tokenProgram r.inputTokenMint)
    (houtput : Holds s.ledger user tokenProgram r.outputTokenMint) :
    Exitable findBump programs avss avsMints tokenProgram pool r user s :=
  ⟨huser, havs, h.sound, h.feeFree, h.backed, h.record, h.terms, h.thawed, hinput, houtput,
    h.honours⟩

theorem Exitable.leavable
    (h : Exitable findBump programs avss avsMints tokenProgram pool r user s) :
    Leavable findBump programs avss avsMints tokenProgram pool r s :=
  ⟨h.sound, h.feeFree, h.backed, h.record, h.terms, h.thawed, h.honours⟩

/-- The accounts of others, apart from the pool and the AVSs, are not touched. -/
theorem exit_balance_other (hf : s.ledger.FeeFree) (hh : HonestPrograms avss avsMints programs)
    (hpool : pool.isPool = true) (hc : c.IsExit user pool)
    (h : Runtime.execute ⟨findBump, programs⟩ (transaction c.metas) c s = .ok s') {other : Pubkey}
    (hother : other.isPool = false) (havs : other ∉ avss) (hne : other ≠ user) (t m : Pubkey) :
    s'.ledger.balance (getAssociatedTokenAddress other t m) =
      s.ledger.balance (getAssociatedTokenAddress other t m) := by
  have hbalance := execute_balance h hh (feeFree_call hf _) (getAssociatedTokenAddress other t m)
  have hother_pool : other ≠ pool := Pubkey.ne_of_not_isPool hpool hother
  cases c with
  | withdraw a amount =>
      obtain ⟨rfl, rfl⟩ := hc
      obtain ⟨d, -⟩ := (execute_withdraw_iff ..).1 h
      have hacc := d.accepted
      simpa [Call.debited, Call.credited, hacc.signerInput_key, hacc.signerOutput_key,
        hacc.poolInput_key, getAssociatedTokenAddress_inj, hne, hother_pool] using hbalance
  | withdrawDelegatedStake a amount =>
      obtain ⟨rfl, rfl⟩ := hc
      obtain ⟨d, -⟩ := (execute_withdrawDelegatedStake_iff ..).1 h
      have hacc := d.accepted
      obtain ⟨-, hmem, -, -⟩ := hh _ _ _ _ _ _ _ d.avs
      have hother_avs : other ≠ a.avs := (ne_of_mem_of_not_mem hmem havs).symm
      have hinput := ((initIfNeeded_eq_ok_iff ..).1 d.init_eq).2.1
      simpa [Call.debited, Call.credited, hinput, hacc.signerOutput_key, hacc.poolInput_key,
        hacc.avsInput_key, hacc.poolAvs_key, getAssociatedTokenAddress_inj, hne, hother_pool,
        hother_avs] using hbalance
  | initializePool a limit => exact hc.elim
  | deposit a amount => exact hc.elim
  | transferDelegateAuthority a => exact hc.elim
  | delegate a amount => exact hc.elim
  | undelegate a amount => exact hc.elim
  | updateMintLimit a limit => exact hc.elim

/-- As many output tokens are burned as the user gives up. -/
theorem exit_supply (hh : HonestPrograms avss avsMints programs)
    (hout : r.outputTokenMint ∉ avsMints) (hr : s.pools pool = some r) (hc : c.IsExit user pool)
    (h : Runtime.execute ⟨findBump, programs⟩ (transaction c.metas) c s = .ok s') :
    s'.ledger.supply r.outputTokenMint + c.amount = s.ledger.supply r.outputTokenMint := by
  have hsupply := execute_supply h hh r.outputTokenMint
  cases c with
  | withdraw a amount =>
      obtain ⟨rfl, rfl⟩ := hc
      obtain ⟨d, -⟩ := (execute_withdraw_iff ..).1 h
      obtain rfl := Option.some.inj (hr.symm.trans d.accepted.pool_some)
      simpa [Call.burned, Call.minted, Call.amount, d.accepted.outputMint_eq] using hsupply
  | withdrawDelegatedStake a amount =>
      obtain ⟨rfl, rfl⟩ := hc
      obtain ⟨d, -⟩ := (execute_withdrawDelegatedStake_iff ..).1 h
      obtain rfl := Option.some.inj (hr.symm.trans d.accepted.pool_some)
      -- what the AVS burns are its own tokens
      obtain ⟨-, -, hmem, -⟩ := hh _ _ _ _ _ _ _ d.avs
      have hne : d.record.outputTokenMint ≠ a.avsTokenMint := (ne_of_mem_of_not_mem hmem hout).symm
      simpa [Call.burned, Call.minted, Call.amount, d.accepted.outputMint_eq, hne] using hsupply
  | initializePool a limit => exact hc.elim
  | deposit a amount => exact hc.elim
  | transferDelegateAuthority a => exact hc.elim
  | delegate a amount => exact hc.elim
  | undelegate a amount => exact hc.elim
  | updateMintLimit a limit => exact hc.elim

/-- The exits of one user, one after another. By induction on the calls: each keeps the pool
leavable, the accounts of others and the existence of every account. -/
theorem submit_exits (hh : HonestPrograms avss avsMints programs)
    (hout : r.outputTokenMint ∉ avsMints) :
    ∀ s, Exitable findBump programs avss avsMints tokenProgram pool r user s →
      (∀ c ∈ calls, c.IsExit user pool) → Runtime.submit ⟨findBump, programs⟩ calls s = .ok s' →
      Exitable findBump programs avss avsMints tokenProgram pool r user s' ∧
        s'.ledger.supply r.outputTokenMint + (calls.map Call.amount).sum =
          s.ledger.supply r.outputTokenMint ∧
        (∀ wallet t m, Holds s.ledger wallet t m → Holds s'.ledger wallet t m) ∧
        ∀ other, other.isPool = false → other ∉ avss → other ≠ user → ∀ t m,
          s'.ledger.balance (getAssociatedTokenAddress other t m) =
            s.ledger.balance (getAssociatedTokenAddress other t m) := by
  induction calls with
  | nil =>
      intro s hs hcalls h
      cases h
      exact ⟨hs, rfl, fun _ _ _ h => h, fun _ _ _ _ _ _ => rfl⟩
  | cons c calls ih =>
      intro s hs hcalls h
      rw [Runtime.submit] at h
      obtain ⟨s₁, h₁, h₂⟩ := (bind_eq_ok_iff ..).1 h
      have hc : c.IsExit user pool := hcalls c (List.mem_cons_self ..)
      have hs₁ := hs.step hh hc h₁
      obtain ⟨hs', hsupply, hholds, hothers⟩ :=
        ih s₁ hs₁ (fun x hx => hcalls x (List.mem_cons_of_mem _ hx)) h₂
      have hsupply₁ := exit_supply hh hout hs.record hc h₁
      obtain ⟨hterms, -⟩ := execute_terms h₁ hh.fundsOnly
      refine ⟨hs', ?_, ?_, ?_⟩
      · rw [List.map_cons, List.sum_cons]
        omega
      · intro wallet t m hw
        exact hholds wallet t m (holds_of_terms hterms hw)
      · intro other hother havs hne t m
        rw [hothers other hother havs hne t m]
        exact exit_balance_other hs.feeFree hh (hs.sound.home.isPool hs.record) hc h₁ hother havs
          hne t m

end Exits

/-! ## One after another -/

/-- Each of `users` turns its `part` of output tokens into input tokens by withdrawals and forced
exits of its own, in the order of the list. All others, apart from pools and AVSs, keep what they
have, and the pool can still be left. -/
def AllLeave (findBump : Pubkey → UInt8) (programs : Programs) (avss : Set Pubkey)
    (avsMints : Finset Pubkey) (tokenProgram pool : Pubkey) (r : LRTPool) (part : Pubkey → Nat)
    (users : List Pubkey) (s : State) : Prop :=
  ∃ (calls : Pubkey → List Call) (s' : State),
    (∀ u ∈ users, ∀ c ∈ calls u, Call.IsExit u pool c) ∧
    Runtime.submit ⟨findBump, programs⟩ (users.flatMap calls) s = .ok s' ∧
    (∀ u ∈ users,
      s'.ledger.balance (getAssociatedTokenAddress u tokenProgram r.inputTokenMint) =
          s.ledger.balance (getAssociatedTokenAddress u tokenProgram r.inputTokenMint) + part u ∧
        s'.ledger.balance (getAssociatedTokenAddress u tokenProgram r.outputTokenMint) + part u =
          s.ledger.balance (getAssociatedTokenAddress u tokenProgram r.outputTokenMint)) ∧
    (∀ other, other.isPool = false → other ∉ avss → other ∉ users → ∀ t m,
      s'.ledger.balance (getAssociatedTokenAddress other t m) =
        s.ledger.balance (getAssociatedTokenAddress other t m)) ∧
    s'.ledger.supply r.outputTokenMint + (users.map part).sum =
      s.ledger.supply r.outputTokenMint ∧
    Leavable findBump programs avss avsMints tokenProgram pool r s'

section AllLeave

variable {findBump : Pubkey → UInt8} {programs : Programs} {avss : Set Pubkey}
  {avsMints : Finset Pubkey} {tokenProgram pool : Pubkey} {r : LRTPool} {part : Pubkey → Nat}
  {users : List Pubkey}

/-- Transactions one after another are a bundle. -/
theorem Runtime.submit_eq_bundle (rt : Runtime) (calls : List Call) (s : State) :
    rt.submit calls s =
      Rollback.bundle (fun c => rt.execute (transaction c.metas) c) calls s := by
  induction calls generalizing s with
  | nil => rfl
  | cons c calls ih =>
      rw [Runtime.submit, Rollback.bundle]
      exact bind_congr ih

theorem submit_append {rt : Runtime} {calls calls' : List Call} {s s₁ s' : State}
    (h : rt.submit calls s = .ok s₁) (h' : rt.submit calls' s₁ = .ok s') :
    rt.submit (calls ++ calls') s = .ok s' := by
  rw [Runtime.submit_eq_bundle] at h h' ⊢
  exact Rollback.bundle_append_eq_ok_iff.2 ⟨s₁, h, h'⟩

/-- By induction on the holders. Those who are still to come are not touched by the first. -/
theorem Leavable.allLeave (hh : HonestPrograms avss avsMints programs)
    (hin : r.inputTokenMint ∉ avsMints) (hout : r.outputTokenMint ∉ avsMints)
    (hnodup : users.Nodup) :
    ∀ s, Leavable findBump programs avss avsMints tokenProgram pool r s →
      (∀ u ∈ users, u.isReserved = false ∧ u ∉ avss ∧
        Holds s.ledger u tokenProgram r.inputTokenMint ∧
        Holds s.ledger u tokenProgram r.outputTokenMint ∧
        part u ≤ s.ledger.balance (getAssociatedTokenAddress u tokenProgram r.outputTokenMint)) →
      AllLeave findBump programs avss avsMints tokenProgram pool r part users s := by
  induction users with
  | nil =>
      intro s hs husers
      exact ⟨fun _ => [], s, by simp, rfl, by simp, fun _ _ _ _ _ _ => rfl, rfl, hs⟩
  | cons u users ih =>
      intro s hs husers
      obtain ⟨hnotin, hrest⟩ := List.nodup_cons.1 hnodup
      obtain ⟨huser, havs, hinput, houtput, hpart⟩ := husers u (List.mem_cons_self ..)
      have huser_pool := Pubkey.not_isPool_of_not_isReserved huser
      have hexit := hs.exitable huser havs hinput houtput
      obtain ⟨calls, s₁, hcalls, hsum, hsubmit, hin₁, hout₁⟩ :=
        Exitable.leaves hh hin hout (part u) s hexit hpart
      obtain ⟨hs₁, hsupply₁, hholds, hothers⟩ := submit_exits hh hout s hexit hcalls hsubmit
      -- the exits of the first leave the others what they need for theirs
      have hne : ∀ x ∈ users, x ≠ u := fun x hx => ne_of_mem_of_not_mem hx hnotin
      have husers₁ : ∀ x ∈ users, x.isReserved = false ∧ x ∉ avss ∧
          Holds s₁.ledger x tokenProgram r.inputTokenMint ∧
          Holds s₁.ledger x tokenProgram r.outputTokenMint ∧
          part x ≤
            s₁.ledger.balance (getAssociatedTokenAddress x tokenProgram r.outputTokenMint) := by
        intro x hx
        obtain ⟨hx_outside, hx_apart, hi, ho, hle⟩ := husers x (List.mem_cons_of_mem _ hx)
        refine ⟨hx_outside, hx_apart, hholds _ _ _ hi, hholds _ _ _ ho, ?_⟩
        rw [hothers x (Pubkey.not_isPool_of_not_isReserved hx_outside) hx_apart (hne x hx)]
        exact hle
      obtain ⟨later, s', hlater, hsubmit', hbalances, hkept, hsupply', hs'⟩ :=
        ih hrest s₁ hs₁.leavable husers₁
      have hagree : ∀ x ∈ users, Function.update later u calls x = later x :=
        fun x hx => Function.update_of_ne (hne x hx) ..
      refine ⟨Function.update later u calls, s', ?_, ?_, ?_, ?_, ?_, hs'⟩
      · intro x hx c hc
        rcases List.mem_cons.1 hx with rfl | hx
        · rw [Function.update_self] at hc
          exact hcalls c hc
        · rw [hagree x hx] at hc
          exact hlater x hx c hc
      · rw [List.flatMap_cons, Function.update_self, List.flatMap_congr hagree]
        exact submit_append hsubmit hsubmit'
      · intro x hx
        rcases List.mem_cons.1 hx with rfl | hx
        · rw [hkept x huser_pool havs hnotin, hkept x huser_pool havs hnotin]
          exact ⟨hin₁, hout₁⟩
        · obtain ⟨hx_outside, hx_apart, -⟩ := husers x (List.mem_cons_of_mem _ hx)
          obtain ⟨hi, ho⟩ := hbalances x hx
          rw [hothers x (Pubkey.not_isPool_of_not_isReserved hx_outside) hx_apart (hne x hx)]
            at hi ho
          exact ⟨hi, ho⟩
      · intro other hother hother_apart hnot t m
        obtain ⟨hnot_u, hnot_users⟩ := List.ne_and_not_mem_of_not_mem_cons hnot
        rw [hkept other hother hother_apart hnot_users, hothers other hother hother_apart hnot_u]
      · rw [List.map_cons, List.sum_cons]
        omega

end AllLeave

/-- All holders can exit, in any order. In every state reached from a sound deployment without
transfer fees with honest AVSs, whoever signed, any holders of output tokens whose accounts exist
can turn any parts of them into input tokens one after another, by withdrawals and forced exits that
each signs for itself, as long as no account is frozen and the AVSs honour what the pool holds. -/
theorem all_holders_can_exit {findBump : Pubkey → UInt8} {avss : Set Pubkey}
    {avsMints : Finset Pubkey} {l : Ledger Pubkey} {as : List Action} {programs : Programs}
    {pool : Pubkey} {r : LRTPool} {inputMint : Mint Pubkey} {users : List Pubkey}
    {part : Pubkey → Nat} (hl : LedgerSound l)
    (hf : l.FeeFree) (has : ∀ a ∈ as, a.FromOutside ∧ a.Uses (HonestPrograms avss avsMints))
    (hrecord : (run findBump (deployed l) as).pools pool = some r)
    (hmint : (run findBump (deployed l) as).ledger.mints r.inputTokenMint = some inputMint)
    (hin : r.inputTokenMint ∉ avsMints) (hout : r.outputTokenMint ∉ avsMints)
    (hthawed : Thawed (run findBump (deployed l) as).ledger)
    (hh : HonestPrograms avss avsMints programs)
    (hhonours : AlwaysHonours findBump programs avss avsMints inputMint.program pool
      r.inputTokenMint (run findBump (deployed l) as))
    (hnodup : users.Nodup)
    (husers : ∀ u ∈ users, u.isReserved = false ∧ u ∉ avss ∧
      Holds (run findBump (deployed l) as).ledger u inputMint.program r.inputTokenMint ∧
      Holds (run findBump (deployed l) as).ledger u inputMint.program r.outputTokenMint ∧
      part u ≤ (run findBump (deployed l) as).ledger.balance
        (getAssociatedTokenAddress u inputMint.program r.outputTokenMint)) :
    AllLeave findBump programs avss avsMints inputMint.program pool r part users
      (run findBump (deployed l) as) := by
  obtain ⟨hsound, hfee, hbacked⟩ := run_allBacked findBump hl hf has
  obtain ⟨tokenProgram, hterms⟩ := hsound.pools pool r hrecord
  obtain rfl := hterms.inputMint_program hmint
  exact Leavable.allLeave hh hin hout hnodup _
    ⟨hsound, hfee, hbacked, hrecord, hterms, hthawed, hhonours⟩ husers

namespace Sample

/-- The user hands twelve of its output tokens to the authority. -/
def sharing : List Action :=
  lifetime ++
    [.create (signedBy authority) (getAssociatedTokenAddress authority tokenProgram inputMint)
        authority tokenProgram inputMint,
      .create (signedBy authority) (getAssociatedTokenAddress authority tokenProgram outputMint)
        authority tokenProgram outputMint,
      .token (signedBy user) tokenProgram
        (.transfer (getAssociatedTokenAddress user tokenProgram outputMint)
          (getAssociatedTokenAddress authority tokenProgram outputMint) user 12 none)]

theorem sharing_uses : ∀ a ∈ sharing, (a.FromOutside ∧ a.NotSignedBy registry.addresses ∧
    a.Uses (· = registry.programs)) ∧ a.MovesFunds := by
  intro a ha
  rcases List.mem_append.1 ha with ha | ha
  · exact ⟨lifetime_uses a ha, lifetime_movesFunds a ha⟩
  · simp only [List.mem_cons, List.not_mem_nil, or_false] at ha
    rcases ha with rfl | rfl | rfl
    · exact ⟨⟨signedBy_outside (k := authority) rfl, signedBy_apart authority_apart, trivial⟩,
        trivial⟩
    · exact ⟨⟨signedBy_outside (k := authority) rfl, signedBy_apart authority_apart, trivial⟩,
        trivial⟩
    · exact ⟨⟨signedBy_outside (k := user) rfl, signedBy_apart user_apart, trivial⟩, rfl⟩

/-- The authority and the user hold twelve and fifteen output tokens, of which the vault covers
fifteen in all. Both get everything out, the authority first. -/
theorem both_leave :
    AllLeave findBump registry.programs registry.addresses registry.mints tokenProgram pool
      (record 1000)
      (fun u => if u = authority then 12 else 15) [authority, user]
      (run findBump (deployed ledger) sharing) := by
  have huses := fun a ha => (sharing_uses a ha).1
  have hhonest := fun a ha => uses_honest (huses a ha).2.2
  obtain ⟨hsound, hf, hs⟩ := run_solvent huses (sound_deployed findBump ledger_sound)
    ledger_feeFree ledger_solvent
  have hrecord : (run findBump (deployed ledger) sharing).pools pool = some (record 1000) := rfl
  have hmint : (run findBump (deployed ledger) sharing).ledger.mints inputMint =
      some (mintOf authority 100) := rfl
  have hthawed : Thawed (run findBump (deployed ledger) sharing).ledger :=
    run_thawed (fun a ha => ⟨(hhonest a ha).fundsOnly, (sharing_uses a ha).2⟩) ledger_thawed
  obtain ⟨t, hterms⟩ := hsound.pools pool _ hrecord
  obtain rfl := hterms.inputMint_program hmint
  have hhonours := Registry.alwaysHonours hs hsound hf hrecord hterms (by decide)
    (fun m _ => ⟨rfl, rfl⟩)
  refine all_holders_can_exit ledger_sound ledger_feeFree
    (fun a ha => ⟨(huses a ha).1, hhonest a ha⟩) hrecord hmint (by decide) (by decide) hthawed
    registry.honest hhonours (by decide) ?_
  intro u hu
  simp only [List.mem_cons, List.not_mem_nil, or_false] at hu
  rcases hu with rfl | rfl
  · exact ⟨rfl, authority_apart, ⟨_, rfl, rfl⟩, ⟨_, rfl, rfl⟩, by decide⟩
  · exact ⟨rfl, user_apart, ⟨_, rfl, rfl⟩, ⟨_, rfl, rfl⟩, by decide⟩

end Sample

end AdraLrt
