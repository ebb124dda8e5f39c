import AdraLrt.TokenLedger.Checked
import Mathlib.Algebra.GroupWithZero.Nat

/-!
# Runs with rollback

A system that attempts actions one after another, where a failed attempt leaves the state as it was.
Five induction rules: a property that every successful attempt preserves holds at the end of a run;
a reflexive and transitive relation that every successful attempt satisfies relates the two ends of
a run; where every successful attempt changes the difference of two quantities by what it
contributes, a run changes it by the total (`total`); a quantity that rises only up to the bound in
force stays below the largest bound that was in force (`peak`); and a quantity that every successful
attempt raises by one amount and lowers by another is at the end what the successful actions of the
run (`committed`) make of it.

Several actions can be bundled into one attempt, which fails when one of them does (`bundle`). Where
each success of a system can be had from another one, so can its bundles and its runs
(`bundle_simulated`, `run_simulated`). Where each success can be undone, so can a bundle, from its
end (`bundle_unwound`).
-/

set_option autoImplicit false

namespace Rollback

variable {S A ε : Type}

/-- The state after an attempt; a failed one changes nothing. -/
def apply (attempt : A → S → Except ε S) (a : A) (s : S) : S :=
  match attempt a s with
  | .ok s' => s'
  | .error _ => s

/-- The state after a list of attempts. -/
def run (attempt : A → S → Except ε S) : S → List A → S
  | s, [] => s
  | s, a :: as => run attempt (apply attempt a s) as

variable {attempt : A → S → Except ε S}

theorem apply_of_ok {a : A} {s s' : S} (h : attempt a s = .ok s') : apply attempt a s = s' := by
  rw [apply, h]

theorem apply_of_error {a : A} {s : S} {e : ε} (h : attempt a s = .error e) :
    apply attempt a s = s := by
  rw [apply, h]

@[simp] theorem run_nil (s : S) : run attempt s [] = s := rfl

@[simp] theorem run_cons (s : S) (a : A) (as : List A) :
    run attempt s (a :: as) = run attempt (apply attempt a s) as := rfl

theorem run_append (s : S) (as bs : List A) :
    run attempt s (as ++ bs) = run attempt (run attempt s as) bs := by
  induction as generalizing s with
  | nil => rfl
  | cons a as ih => exact ih _

theorem run_concat (s : S) (as : List A) (a : A) :
    run attempt s (as ++ [a]) = apply attempt a (run attempt s as) := by
  rw [run_append]
  rfl

/-- A property that one action of the run keeps is kept by an attempt of it. -/
theorem apply_invariant {I : S → Prop} {a : A} {s : S}
    (hstep : ∀ s', attempt a s = .ok s' → I s') (h : I s) : I (apply attempt a s) := by
  cases ha : attempt a s with
  | error e =>
      rw [apply_of_error ha]
      exact h
  | ok s' =>
      rw [apply_of_ok ha]
      exact hstep s' ha

/-- A property that every successful attempt keeps holds at the end of a run. -/
theorem run_invariant {I : S → Prop} {as : List A} {s : S}
    (hstep : ∀ a ∈ as, ∀ s s', I s → attempt a s = .ok s' → I s') (h : I s) :
    I (run attempt s as) := by
  induction as generalizing s with
  | nil => exact h
  | cons a as ih =>
      refine ih (fun b hb => hstep b (List.mem_cons_of_mem a hb)) ?_
      exact apply_invariant (fun s' => hstep a List.mem_cons_self s s' h) h

/-- A preorder that relates the two sides of every successful attempt, as long as an invariant
holds, relates the two ends of a run. -/
theorem run_rel {I : S → Prop} {R : S → S → Prop} {as : List A} {s : S}
    (hrefl : ∀ s, R s s) (htrans : ∀ s t u, R s t → R t u → R s u)
    (hinv : ∀ a ∈ as, ∀ s s', I s → attempt a s = .ok s' → I s')
    (hstep : ∀ a ∈ as, ∀ s s', I s → attempt a s = .ok s' → R s s') (h : I s) :
    R s (run attempt s as) := by
  induction as generalizing s with
  | nil => exact hrefl s
  | cons a as ih =>
      have ha : R s (apply attempt a s) :=
        apply_invariant (fun s' => hstep a List.mem_cons_self s s' h) (hrefl s)
      have hI : I (apply attempt a s) :=
        apply_invariant (fun s' => hinv a List.mem_cons_self s s' h) h
      refine htrans _ _ _ ha (ih ?_ ?_ hI)
      · exact fun b hb => hinv b (List.mem_cons_of_mem a hb)
      · exact fun b hb => hstep b (List.mem_cons_of_mem a hb)

/-- What an attempt contributes to a total: `f` of the action, if it succeeds. -/
def contribution (attempt : A → S → Except ε S) (f : A → Nat) (a : A) (s : S) : Nat :=
  match attempt a s with
  | .ok _ => f a
  | .error _ => 0

/-- The total of `f` over the actions of a run that succeed. -/
def total (attempt : A → S → Except ε S) (f : A → Nat) : S → List A → Nat
  | _, [] => 0
  | s, a :: as => contribution attempt f a s + total attempt f (apply attempt a s) as

theorem contribution_add (f g : A → Nat) (a : A) (s : S) :
    contribution attempt (fun a => f a + g a) a s =
      contribution attempt f a s + contribution attempt g a s := by
  unfold contribution
  cases attempt a s with
  | error e => rfl
  | ok s' => rfl

theorem total_add (f g : A → Nat) (s : S) (as : List A) :
    total attempt (fun a => f a + g a) s as = total attempt f s as + total attempt g s as := by
  induction as generalizing s with
  | nil => rfl
  | cons a as ih =>
      simp only [total, contribution_add, ih]
      omega

/-- Two quantities whose difference grows with every successful attempt by what it contributes. -/
theorem run_balance {I : S → Prop} {X Y : S → Nat} {f : A → Nat} {as : List A} {s : S}
    (hinv : ∀ a ∈ as, ∀ s s', I s → attempt a s = .ok s' → I s')
    (hstep : ∀ a ∈ as, ∀ s s', I s → attempt a s = .ok s' → X s' + Y s = X s + Y s' + f a)
    (h : I s) :
    X (run attempt s as) + Y s = X s + Y (run attempt s as) + total attempt f s as := by
  induction as generalizing s with
  | nil => rfl
  | cons a as ih =>
      have hI : I (apply attempt a s) :=
        apply_invariant (fun s' => hinv a List.mem_cons_self s s' h) h
      have hrest := ih (fun b hb => hinv b (List.mem_cons_of_mem a hb))
        (fun b hb => hstep b (List.mem_cons_of_mem a hb)) hI
      have hfirst : X (apply attempt a s) + Y s =
          X s + Y (apply attempt a s) + contribution attempt f a s := by
        unfold contribution
        cases ha : attempt a s with
        | error e =>
            rw [apply_of_error ha]
            rfl
        | ok s' =>
            rw [apply_of_ok ha]
            exact hstep a List.mem_cons_self s s' h ha
      rw [run_cons, total]
      omega

/-- The largest value of `f` at any state of a run. -/
def peak (attempt : A → S → Except ε S) (f : S → Nat) : S → List A → Nat
  | s, [] => f s
  | s, a :: as => max (f s) (peak attempt f (apply attempt a s) as)

theorem le_peak (f : S → Nat) (s : S) (as : List A) : f s ≤ peak attempt f s as := by
  cases as with
  | nil => exact Nat.le_refl _
  | cons a as => exact Nat.le_max_left _ _

/-- A quantity that every successful attempt keeps below its old value or below the new bound. -/
theorem run_le_peak {I : S → Prop} {X L : S → Nat} {as : List A} {s : S}
    (hinv : ∀ a ∈ as, ∀ s s', I s → attempt a s = .ok s' → I s')
    (hstep : ∀ a ∈ as, ∀ s s', I s → attempt a s = .ok s' → X s' ≤ X s ∨ X s' ≤ L s') (h : I s) :
    X (run attempt s as) ≤ max (X s) (peak attempt L s as) := by
  induction as generalizing s with
  | nil => exact Nat.le_max_left _ _
  | cons a as ih =>
      have hI : I (apply attempt a s) :=
        apply_invariant (fun s' => hinv a List.mem_cons_self s s' h) h
      have hrest := ih (fun b hb => hinv b (List.mem_cons_of_mem a hb))
        (fun b hb => hstep b (List.mem_cons_of_mem a hb)) hI
      have hbound : L (apply attempt a s) ≤ peak attempt L (apply attempt a s) as := le_peak L _ as
      have hfirst : X (apply attempt a s) ≤ X s ∨
          X (apply attempt a s) ≤ L (apply attempt a s) := by
        cases ha : attempt a s with
        | error e =>
            rw [apply_of_error ha]
            exact Or.inl (Nat.le_refl _)
        | ok s' =>
            rw [apply_of_ok ha]
            exact hstep a List.mem_cons_self s s' h ha
      rw [run_cons, peak]
      omega

/-! ## The actions that succeed -/

/-- The actions of a run that succeed. -/
def committed (attempt : A → S → Except ε S) : S → List A → List A
  | _, [] => []
  | s, a :: as =>
      match attempt a s with
      | .ok s' => a :: committed attempt s' as
      | .error _ => committed attempt s as

/-- Only the actions that succeed have to keep a property. -/
theorem run_invariant_committed {I : S → Prop} {as : List A} {s : S}
    (hstep : ∀ a ∈ committed attempt s as, ∀ s s', I s → attempt a s = .ok s' → I s') (h : I s) :
    I (run attempt s as) := by
  induction as generalizing s with
  | nil => exact h
  | cons a as ih =>
      rw [run_cons]
      rw [committed] at hstep
      cases ha : attempt a s with
      | error e =>
          rw [ha] at hstep
          rw [apply_of_error ha]
          exact ih hstep h
      | ok s' =>
          rw [ha] at hstep
          rw [apply_of_ok ha]
          exact ih (fun b hb => hstep b (List.mem_cons_of_mem a hb))
            (hstep a List.mem_cons_self s s' h ha)

/-- A quantity that every successful attempt raises by `g` and lowers by `f`. -/
theorem run_tally {I : S → Prop} {X : S → Nat} {f g : A → Nat} {as : List A} {s : S}
    (hinv : ∀ a ∈ as, ∀ s s', I s → attempt a s = .ok s' → I s')
    (hstep : ∀ a ∈ as, ∀ s s', I s → attempt a s = .ok s' → X s' + f a = X s + g a) (h : I s) :
    X (run attempt s as) + ((committed attempt s as).map f).sum =
      X s + ((committed attempt s as).map g).sum := by
  induction as generalizing s with
  | nil => rfl
  | cons a as ih =>
      have hinv' := fun b hb => hinv b (List.mem_cons_of_mem a hb)
      have hstep' := fun b hb => hstep b (List.mem_cons_of_mem a hb)
      rw [committed, run_cons]
      cases ha : attempt a s with
      | error e =>
          rw [apply_of_error ha]
          exact ih hinv' hstep' h
      | ok s' =>
          rw [apply_of_ok ha]
          have hfirst := hstep a List.mem_cons_self s s' h ha
          have hrest := ih hinv' hstep' (hinv a List.mem_cons_self s s' h ha)
          simp only [List.map_cons, List.sum_cons]
          omega

/-! ## Bundles -/

/-- Attempts one after another as a single one, which fails when one of them does. -/
def bundle (attempt : A → S → Except ε S) : List A → S → Except ε S
  | [], s => .ok s
  | a :: as, s => do
    let s' ← attempt a s
    bundle attempt as s'

@[simp] theorem bundle_nil (s : S) : bundle attempt [] s = .ok s := rfl

theorem bundle_cons_eq_ok_iff {a : A} {as : List A} {s s' : S} :
    bundle attempt (a :: as) s = .ok s' ↔
      ∃ t, attempt a s = .ok t ∧ bundle attempt as t = .ok s' := by
  rw [bundle, Checked.bind_eq_ok_iff]

theorem bundle_singleton (a : A) (s : S) : bundle attempt [a] s = attempt a s := by
  rw [bundle]
  cases attempt a s with
  | error e => rfl
  | ok s' => rfl

theorem bundle_append_eq_ok_iff {as bs : List A} {s s' : S} :
    bundle attempt (as ++ bs) s = .ok s' ↔
      ∃ t, bundle attempt as s = .ok t ∧ bundle attempt bs t = .ok s' := by
  induction as generalizing s with
  | nil => simp
  | cons a as ih =>
      simp only [List.cons_append, bundle_cons_eq_ok_iff, ih]
      constructor
      · rintro ⟨t, ht, u, hu, h⟩
        exact ⟨u, ⟨t, ht, hu⟩, h⟩
      · rintro ⟨u, ⟨t, ht, hu⟩, h⟩
        exact ⟨t, ht, u, hu, h⟩

theorem bundle_map {B : Type} (f : B → A) (bs : List B) (s : S) :
    bundle attempt (bs.map f) s = bundle (fun b => attempt (f b)) bs s := by
  induction bs generalizing s with
  | nil => rfl
  | cons b bs ih =>
      rw [List.map_cons, bundle, bundle]
      exact bind_congr ih

/-- Attempts that can be undone one by one, up to what `Alike` leaves open, can be undone as a
bundle from its end. By induction on the bundle: the later attempts are undone first, and what is
then reached is alike to what the first attempt had led to. -/
theorem bundle_unwound {inverse : A → A} {Good : S → Prop} {Alike : S → S → Prop} {as : List A}
    {s s' : S} (hrefl : ∀ s, Alike s s)
    (hgood : ∀ a ∈ as, ∀ s s', attempt a s = .ok s' → Good s → Good s')
    (hundo : ∀ a ∈ as, ∀ s s₁ t, Good s → attempt a s = .ok s₁ → Good t → Alike s₁ t →
      ∃ t', attempt (inverse a) t = .ok t' ∧ Good t' ∧ Alike s t')
    (hs : Good s) (h : bundle attempt as s = .ok s') :
    ∃ s'', bundle attempt (as.reverse.map inverse) s' = .ok s'' ∧ Good s'' ∧ Alike s s'' := by
  induction as generalizing s with
  | nil =>
      obtain rfl := Except.ok.inj h
      exact ⟨s, rfl, hs, hrefl s⟩
  | cons a as ih =>
      obtain ⟨s₁, ha, has⟩ := bundle_cons_eq_ok_iff.1 h
      have hs₁ := hgood a List.mem_cons_self s s₁ ha hs
      obtain ⟨t, ht, hgood_t, halike⟩ := ih
        (fun b hb => hgood b (List.mem_cons_of_mem a hb))
        (fun b hb => hundo b (List.mem_cons_of_mem a hb)) hs₁ has
      obtain ⟨t', ht', hgood', halike'⟩ :=
        hundo a List.mem_cons_self s s₁ t hs ha hgood_t halike
      refine ⟨t', ?_, hgood', halike'⟩
      rw [List.reverse_cons, List.map_append, bundle_append_eq_ok_iff]
      exact ⟨t, ht, by rw [List.map_singleton, bundle_singleton, ht']⟩

/-- A run of actions with the property `P` leads from one state to the other. -/
def Reaches (attempt : A → S → Except ε S) (P : A → Prop) (s t : S) : Prop :=
  ∃ as, (∀ a ∈ as, P a) ∧ run attempt s as = t

section Simulation

variable {I δ : Type} {step : I → S → Except δ S} {P : A → Prop} {is : List I} {s s' t u : S}

theorem Reaches.refl (s : S) : Reaches attempt P s s :=
  ⟨[], List.forall_mem_nil P, rfl⟩

theorem Reaches.trans (hst : Reaches attempt P s t) (htu : Reaches attempt P t u) :
    Reaches attempt P s u := by
  obtain ⟨as, has, rfl⟩ := hst
  obtain ⟨bs, hbs, rfl⟩ := htu
  refine ⟨as ++ bs, ?_, run_append s as bs⟩
  intro a ha
  rcases List.mem_append.1 ha with ha | ha
  · exact has a ha
  · exact hbs a ha

theorem Reaches.single {a : A} (ha : P a) (h : attempt a s = .ok t) : Reaches attempt P s t := by
  refine ⟨[a], List.forall_mem_singleton.2 ha, ?_⟩
  rw [run_cons, apply_of_ok h]
  rfl

/-- A bundle of steps, each of which can be had. -/
theorem bundle_simulated
    (hstep : ∀ i ∈ is, ∀ s s', step i s = .ok s' → Reaches attempt P s s')
    (h : bundle step is s = .ok s') : Reaches attempt P s s' := by
  induction is generalizing s with
  | nil =>
      obtain rfl := Except.ok.inj h
      exact Reaches.refl s
  | cons i is ih =>
      obtain ⟨t, hi, his⟩ := bundle_cons_eq_ok_iff.1 h
      have hfirst := hstep i List.mem_cons_self s t hi
      exact hfirst.trans (ih (fun j hj => hstep j (List.mem_cons_of_mem i hj)) his)

/-- A run of such steps. -/
theorem run_simulated
    (hstep : ∀ i ∈ is, ∀ s s', step i s = .ok s' → Reaches attempt P s s') (s : S) :
    Reaches attempt P s (run step s is) :=
  run_invariant (I := fun t => Reaches attempt P s t)
    (fun i hi t t' ht h => ht.trans (hstep i hi t t' h)) (Reaches.refl s)

end Simulation

end Rollback
