import Mathlib.Data.List.Basic
import Mathlib.Data.List.TakeWhile

/-!
# Patterns with captured runs

A pattern is a row of literal texts and of captured runs, a run being one or more symbols of a
class. It is looked for as a backtracking matcher does: at the leftmost place where it matches at
all, with every run as long as the rest of the pattern allows (`search`).

`Reads` says what a match is without saying how it is found. The matcher finds a match exactly where
there is one (`matchAt_eq_none_iff`, `search_eq_none_iff`). Where a run ends in front of a symbol
that it could not hold, there is nothing to backtrack for (`matchAt_run_text`).
-/

set_option autoImplicit false

namespace Text

universe u

variable {α : Type u}

/-- One step of a pattern: a literal text, or a captured run of symbols of the class `p`. -/
inductive Item (α : Type u) where
  | text (cs : List α)
  | run (p : α → Bool)

/-- What it is for the items to match a beginning of the input with these captures. -/
inductive Reads : List (Item α) → List α → List (List α) → Prop
  | nil (s : List α) : Reads [] s []
  | text {items : List (Item α)} {s : List α} {caps : List (List α)} (cs : List α)
      (h : Reads items s caps) : Reads (.text cs :: items) (cs ++ s) caps
  | run {items : List (Item α)} {s : List α} {caps : List (List α)} {p : α → Bool} {w : List α}
      (hne : w ≠ []) (hall : ∀ c ∈ w, p c = true) (h : Reads items s caps) :
      Reads (.run p :: items) (w ++ s) (w :: caps)

/-- Runs of at most `k` symbols, the longest first. -/
def backtrack (rest : List α → Option (List (List α))) (s : List α) :
    Nat → Option (List (List α))
  | 0 => none
  | k + 1 =>
      match rest (s.drop (k + 1)) with
      | some caps => some (s.take (k + 1) :: caps)
      | none => backtrack rest s k

/-- The captures of the match at the beginning of the input. -/
def matchAt [DecidableEq α] : List (Item α) → List α → Option (List (List α))
  | [], _ => some []
  | .text cs :: items, s => if cs <+: s then matchAt items (s.drop cs.length) else none
  | .run p :: items, s => backtrack (matchAt items) s (s.takeWhile p).length

/-- The captures of the leftmost match. -/
def search [DecidableEq α] (items : List (Item α)) : List α → Option (List (List α))
  | [] => matchAt items []
  | c :: s =>
      match matchAt items (c :: s) with
      | some caps => some caps
      | none => search items s

/-! ## Backtracking -/

theorem backtrack_eq_none_iff (rest : List α → Option (List (List α))) (s : List α) (n : Nat) :
    backtrack rest s n = none ↔ ∀ k, k < n → rest (s.drop (k + 1)) = none := by
  induction n with
  | zero =>
      constructor
      · intro _ k hk
        omega
      · intro _
        rfl
  | succ n ih =>
      rw [backtrack]
      constructor
      · intro h k hk
        split at h
        · cases h
        · rename_i hlast
          rcases Nat.lt_succ_iff_lt_or_eq.1 hk with hlt | rfl
          · exact ih.1 h k hlt
          · exact hlast
      · intro h
        rw [h n (Nat.lt_succ_self n)]
        exact ih.2 fun k hk => h k (Nat.lt_succ_of_lt hk)

/-- The run that is taken is one of those tried. -/
theorem exists_of_backtrack {rest : List α → Option (List (List α))} {s : List α} {n : Nat}
    {caps : List (List α)} (h : backtrack rest s n = some caps) :
    ∃ k caps', k < n ∧ rest (s.drop (k + 1)) = some caps' ∧ caps = s.take (k + 1) :: caps' := by
  induction n with
  | zero => cases h
  | succ n ih =>
      rw [backtrack] at h
      split at h
      · rename_i caps' hlast
        cases h
        exact ⟨n, caps', Nat.lt_succ_self n, hlast, rfl⟩
      · obtain ⟨k, caps', hk, hrest, hcaps⟩ := ih h
        exact ⟨k, caps', Nat.lt_succ_of_lt hk, hrest, hcaps⟩

/-- Where the rest matches behind no shorter run, the longest run decides. -/
theorem backtrack_longest {rest : List α → Option (List (List α))} {s : List α} {n : Nat}
    (h : ∀ k, k < n → rest (s.drop (k + 1)) = none) :
    backtrack rest s (n + 1) = (rest (s.drop (n + 1))).map (s.take (n + 1) :: ·) := by
  rw [backtrack]
  cases hlast : rest (s.drop (n + 1)) with
  | some caps => rfl
  | none => exact (backtrack_eq_none_iff rest s n).2 h

/-! ## The matcher and the matches -/

variable [DecidableEq α]

theorem matchAt_text (cs : List α) (items : List (Item α)) (s : List α) :
    matchAt (.text cs :: items) (cs ++ s) = matchAt items s := by
  rw [matchAt, if_pos (List.prefix_append cs s), List.drop_left' rfl]

theorem reads_of_matchAt {items : List (Item α)} {s : List α} {caps : List (List α)}
    (h : matchAt items s = some caps) : Reads items s caps := by
  induction items generalizing s caps with
  | nil =>
      cases h
      exact Reads.nil s
  | cons item items ih =>
      cases item with
      | text cs =>
          rw [matchAt] at h
          split at h
          · rename_i hbegins
            obtain ⟨rest, rfl⟩ := hbegins
            rw [List.drop_left' rfl] at h
            exact Reads.text cs (ih h)
          · cases h
      | run p =>
          rw [matchAt] at h
          obtain ⟨k, caps', hk, hrest, rfl⟩ := exists_of_backtrack h
          -- every run that is tried is a part of the longest
          have hsome : s.take (k + 1) <+: s.takeWhile p := by
            apply List.prefix_of_prefix_length_le (List.take_prefix _ _) (List.takeWhile_prefix p)
            rw [List.length_take]
            omega
          have hread : Reads (.run p :: items) (s.take (k + 1) ++ s.drop (k + 1))
              (s.take (k + 1) :: caps') := by
            refine Reads.run ?_ ?_ (ih hrest)
            · intro hnil
              have hlen : (s.take (k + 1)).length = 0 := by rw [hnil]; rfl
              have hle : (s.takeWhile p).length ≤ s.length := (List.takeWhile_prefix p).length_le
              rw [List.length_take] at hlen
              omega
            · intro c hc
              exact List.mem_takeWhile_imp (hsome.subset hc)
          rwa [List.take_append_drop] at hread

/-- The matcher misses no match. -/
theorem matchAt_isSome_of_reads {items : List (Item α)} {s : List α} {caps : List (List α)}
    (h : Reads items s caps) : matchAt items s ≠ none := by
  induction h with
  | nil s =>
      intro h
      cases h
  | text cs _ ih => rwa [matchAt_text]
  | @run items s caps p w hne hall _ ih =>
      intro hnone
      rw [matchAt, backtrack_eq_none_iff] at hnone
      have hpos : 0 < w.length := List.length_pos_of_ne_nil hne
      have hlong : w.length ≤ ((w ++ s).takeWhile p).length := by
        rw [List.takeWhile_append_of_pos hall, List.length_append]
        omega
      -- the matcher tries the run of this match too
      apply ih
      have hlast := hnone (w.length - 1) (by omega)
      rwa [Nat.sub_add_cancel hpos, List.drop_left' rfl] at hlast

theorem matchAt_eq_none_iff (items : List (Item α)) (s : List α) :
    matchAt items s = none ↔ ∀ caps, ¬ Reads items s caps := by
  constructor
  · intro h caps hread
    exact matchAt_isSome_of_reads hread h
  · intro h
    cases hmatch : matchAt items s with
    | none => rfl
    | some caps => exact absurd (reads_of_matchAt hmatch) (h caps)

/-! ## Runs whose end is marked -/

/-- A last run takes all it can. -/
theorem matchAt_last {p : α → Bool} {w s : List α} (hne : w ≠ []) (hall : ∀ c ∈ w, p c = true)
    (hstop : ∀ c ∈ s.head?, p c = false) :
    matchAt [.run p] (w ++ s) = some [w] := by
  have htake : (w ++ s).takeWhile p = w := by
    rw [List.takeWhile_append_of_pos hall]
    cases s with
    | nil => rw [List.takeWhile_nil, List.append_nil]
    | cons c s =>
        have hc : p c = false := hstop c rfl
        rw [List.takeWhile_cons_of_neg (by simp [hc]), List.append_nil]
  rw [matchAt, htake]
  cases w with
  | nil => exact absurd rfl hne
  | cons c w =>
      rw [List.length_cons, backtrack, matchAt]
      simp only [Option.some.injEq, List.cons.injEq, and_true]
      exact List.take_left' rfl

/-- In front of a text that does not begin with a symbol of the class, only the whole run will
do. -/
theorem matchAt_run_text {p : α → Bool} {w s : List α} {c : α} {cs : List α}
    {items : List (Item α)} (hne : w ≠ []) (hall : ∀ c ∈ w, p c = true) (hc : p c = false) :
    matchAt (.run p :: .text (c :: cs) :: items) (w ++ (c :: cs ++ s)) =
      (matchAt items s).map (w :: ·) := by
  have htake : (w ++ (c :: cs ++ s)).takeWhile p = w := by
    rw [List.takeWhile_append_of_pos hall, List.cons_append,
      List.takeWhile_cons_of_neg (by simp [hc]), List.append_nil]
  rw [matchAt, htake]
  obtain ⟨n, hn⟩ : ∃ n, w.length = n + 1 := ⟨w.length - 1, by
    have hpos := List.length_pos_of_ne_nil hne
    omega⟩
  have hshort : ∀ k, k < n →
      matchAt (.text (c :: cs) :: items) ((w ++ (c :: cs ++ s)).drop (k + 1)) = none := by
    intro k hk
    rw [matchAt, if_neg]
    intro hbegins
    -- a shorter run stops in front of a symbol of the class
    have hlt : k + 1 < w.length := by omega
    rw [List.drop_append_of_le_length (Nat.le_of_lt hlt), List.drop_eq_getElem_cons hlt,
      List.cons_append, List.cons_prefix_cons] at hbegins
    have hin : p c = true := by
      rw [hbegins.1]
      exact hall _ (List.getElem_mem hlt)
    rw [hc] at hin
    cases hin
  rw [hn, backtrack_longest hshort, ← hn, List.drop_left' rfl, List.take_left' rfl, matchAt_text]

/-! ## The leftmost match -/

/-- A match is found unless there is none anywhere. -/
theorem search_eq_none_iff (items : List (Item α)) (s : List α) :
    search items s = none ↔ ∀ before rest caps, s = before ++ rest → ¬ Reads items rest caps := by
  induction s with
  | nil =>
      rw [search, matchAt_eq_none_iff]
      constructor
      · intro h before rest caps hs
        obtain ⟨-, rfl⟩ := List.append_eq_nil_iff.1 hs.symm
        exact h caps
      · intro h caps
        exact h [] [] caps rfl
  | cons c s ih =>
      rw [search]
      constructor
      · intro h before rest caps hs
        split at h
        · cases h
        · rename_i hhere
          cases before with
          | nil =>
              rw [List.nil_append] at hs
              subst hs
              exact (matchAt_eq_none_iff items _).1 hhere caps
          | cons b before =>
              rw [List.cons_append] at hs
              obtain ⟨-, hs⟩ := List.cons.inj hs
              exact ih.1 h before rest caps hs
      · intro h
        have hhere : matchAt items (c :: s) = none :=
          (matchAt_eq_none_iff items _).2 fun caps => h [] (c :: s) caps rfl
        rw [hhere]
        exact ih.2 fun before rest caps hs => h (c :: before) rest caps (by rw [hs]; rfl)

/-- The match that is found is the first from the left. -/
theorem search_eq_some_iff (items : List (Item α)) (s : List α) (caps : List (List α)) :
    search items s = some caps ↔
      ∃ before rest, s = before ++ rest ∧ matchAt items rest = some caps ∧
        ∀ before' rest' caps', s = before' ++ rest' → Reads items rest' caps' →
          before.length ≤ before'.length := by
  induction s with
  | nil =>
      rw [search]
      constructor
      · intro h
        exact ⟨[], [], rfl, h, fun _ _ _ _ _ => Nat.zero_le _⟩
      · rintro ⟨before, rest, hs, hmatch, -⟩
        obtain ⟨-, rfl⟩ := List.append_eq_nil_iff.1 hs.symm
        exact hmatch
  | cons c s ih =>
      rw [search]
      cases hhere : matchAt items (c :: s) with
      | some found =>
          constructor
          · intro h
            cases h
            exact ⟨[], c :: s, rfl, hhere, fun _ _ _ _ _ => Nat.zero_le _⟩
          · rintro ⟨before, rest, hs, hmatch, hfirst⟩
            -- nothing is further to the left than the beginning
            have hzero := hfirst [] (c :: s) found rfl (reads_of_matchAt hhere)
            have hnil : before = [] := List.length_eq_zero_iff.1 (Nat.le_zero.1 hzero)
            subst hnil
            rw [List.nil_append] at hs
            subst hs
            exact hhere.symm.trans hmatch
      | none =>
          show search items s = some caps ↔ _
          rw [ih]
          constructor
          · rintro ⟨before, rest, rfl, hmatch, hfirst⟩
            refine ⟨c :: before, rest, rfl, hmatch, ?_⟩
            intro before' rest' caps' hs hread
            cases before' with
            | nil =>
                rw [List.nil_append] at hs
                subst hs
                exact absurd hread ((matchAt_eq_none_iff items _).1 hhere caps')
            | cons b before' =>
                rw [List.cons_append] at hs
                obtain ⟨-, hs⟩ := List.cons.inj hs
                exact Nat.succ_le_succ (hfirst before' rest' caps' hs hread)
          · rintro ⟨before, rest, hs, hmatch, hfirst⟩
            cases before with
            | nil =>
                rw [List.nil_append] at hs
                subst hs
                rw [hhere] at hmatch
                cases hmatch
            | cons b before =>
                rw [List.cons_append] at hs
                obtain ⟨rfl, rfl⟩ := List.cons.inj hs
                refine ⟨before, rest, rfl, hmatch, ?_⟩
                intro before' rest' caps' hs' hread
                have hle := hfirst (c :: before') rest' caps' (by rw [hs']; rfl) hread
                exact Nat.le_of_succ_le_succ hle

end Text
