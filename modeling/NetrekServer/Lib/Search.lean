/-
A search for the first hit by an index and a pointer, which move on together. If they start apart, what is
found has the index of another cell. The search returns the first hit from its start on if and only if the
cells begin like the ones that lie so far ahead; when it is taken up after each result, it goes from one
multiple to the next.
-/
import Mathlib.Data.Nat.Find
import Mathlib.Order.Lattice.Nat
import Mathlib.Tactic.Common

namespace Netrek.Lib

/-- For `n` turns, with the index at `i` and the pointer at `p`, the index of the first hit. -/
def search (hit : Nat → Prop) [DecidablePred hit] : Nat → Nat → Nat → Option Nat
  | 0, _, _ => none
  | n + 1, i, p => if hit p then some i else search hit n (i + 1) (p + 1)

/-- The index goes from `j` to `n`, the pointer starts at 0. -/
def searchFrom (hit : Nat → Prop) [DecidablePred hit] (n j : Nat) : Option Nat := search hit (n - j) j 0

/-- The first hit below `n` from `j` on, if there is one. -/
inductive FirstFrom (hit : Nat → Prop) (n j : Nat) : Option Nat → Prop
  | found {i : Nat} (h : IsLeast {k | j ≤ k ∧ k < n ∧ hit k} i) : FirstFrom hit n j (some i)
  | missing (h : ∀ k, j ≤ k → k < n → ¬ hit k) : FirstFrom hit n j none

/-- As far as the first hit, the cells from 0 and those from `j` on are hits at the same places. -/
def InStep (hit : Nat → Prop) (n j : Nat) : Prop :=
  ∀ d, j + d < n → (∀ e < d, ¬ hit e ∧ ¬ hit (j + e)) → (hit d ↔ hit (j + d))

/-- In step, what comes before the first hit from 0 is no hit from `j` on either. -/
theorem InStep.not_hit {hit : Nat → Prop} {n j m : Nat} (h : InStep hit n j) (hm : ∀ e < m, ¬ hit e) :
    ∀ d < m, j + d < n → ¬ hit (j + d) := by
  intro d
  induction d using Nat.strong_induction_on with
  | _ d ih =>
    intro hd hn hhit
    have hsame := h d hn fun e he => ⟨hm e (by omega), ih e he (by omega) (by omega)⟩
    exact hm d hd (hsame.2 hhit)

section

variable {hit : Nat → Prop} [DecidablePred hit] {n j k m : Nat}

/-- The search stops at the first hit. -/
theorem search_some : ∀ {n i p k : Nat}, search hit n i p = some k →
    ∃ d < n, k = i + d ∧ hit (p + d) ∧ ∀ e < d, ¬ hit (p + e)
  | n + 1, i, p, k, h => by
    unfold search at h
    split at h
    · next hp =>
      cases h
      exact ⟨0, by omega, rfl, hp, nofun⟩
    · next hp =>
      obtain ⟨d, hd, rfl, hhit, hbefore⟩ := search_some h
      refine ⟨d + 1, by omega, by omega, ?_, ?_⟩
      · rw [Nat.add_comm d 1, ← Nat.add_assoc]
        exact hhit
      · rintro (_ | e) he
        · exact hp
        · rw [Nat.add_comm e 1, ← Nat.add_assoc]
          exact hbefore e (by omega)

theorem search_none : ∀ {n i p : Nat}, search hit n i p = none → ∀ d < n, ¬ hit (p + d)
  | n + 1, i, p, h, d, hd => by
    unfold search at h
    split at h
    · cases h
    · next hp =>
      cases d with
      | zero => exact hp
      | succ d =>
        rw [Nat.add_comm d 1, ← Nat.add_assoc]
        exact search_none h d (by omega)

/-- What is found lies as far behind `j` as the first hit behind 0. -/
theorem searchFrom_some (h : searchFrom hit n j = some k) : ∃ d, k = j + d ∧ j + d < n ∧ hit d ∧ ∀ e < d, ¬ hit e := by
  obtain ⟨d, hd, rfl, hhit, hbefore⟩ := search_some h
  simp only [Nat.zero_add] at hhit hbefore
  exact ⟨d, rfl, by omega, hhit, hbefore⟩

theorem searchFrom_none (h : searchFrom hit n j = none) {d : Nat} (hd : j + d < n) : ¬ hit d := by
  have hzero := search_none h d (by omega)
  rwa [Nat.zero_add] at hzero

/-- The search from `j` is a search among the places from `j` on exactly if they keep step. -/
theorem searchFrom_first_iff (j : Nat) : FirstFrom hit n j (searchFrom hit n j) ↔ InStep hit n j := by
  constructor
  · intro h d hd hbefore
    cases hs : searchFrom hit n j with
    | none =>
      rw [hs] at h
      cases h with
      | missing hno => exact iff_of_false (searchFrom_none hs hd) (hno (j + d) (by omega) hd)
    | some k =>
      rw [hs] at h
      obtain ⟨m, rfl, hm, hhit, hfirst⟩ := searchFrom_some hs
      cases h with
      | found hleast =>
        obtain ⟨⟨-, -, hfound⟩, hle⟩ := hleast
        -- `j + m` was found: before it there is no hit on either side
        rcases Nat.lt_trichotomy d m with hdm | rfl | hdm
        · refine iff_of_false (hfirst d hdm) fun hahead => ?_
          have := hle ⟨by omega, hd, hahead⟩
          omega
        · exact iff_of_true hhit hfound
        · exact absurd hhit (hbefore m hdm).1
  · intro h
    cases hs : searchFrom hit n j with
    | none =>
      refine .missing fun k hjk hkn hhit => ?_
      obtain ⟨d, rfl⟩ := Nat.exists_eq_add_of_le hjk
      exact h.not_hit (fun e he => searchFrom_none hs (by omega)) d (Nat.lt_succ_self d) hkn hhit
    | some k =>
      obtain ⟨m, rfl, hm, hhit, hfirst⟩ := searchFrom_some hs
      have hahead := h.not_hit hfirst
      refine .found ⟨⟨by omega, hm, ?_⟩, ?_⟩
      · exact (h m hm fun e he => ⟨hfirst e he, hahead e he (by omega)⟩).1 hhit
      · rintro i ⟨hji, hin, hi⟩
        obtain ⟨d, rfl⟩ := Nat.exists_eq_add_of_le hji
        by_contra hlt
        exact hahead d (by omega) hin hi

end

/-! ## One search after the other -/

/-- The results of searches from `j` on, each taken up behind the last result. -/
inductive Results (find : Nat → Option Nat) : Nat → List Nat → Prop
  | stop {j : Nat} (h : find j = none) : Results find j []
  | next {j i : Nat} {l : List Nat} (h : find j = some i) (hl : Results find (i + 1) l) : Results find j (i :: l)

/-- They find every hit, each once. -/
def FindsAll (hit : Nat → Prop) (n : Nat) (find : Nat → Option Nat) : Prop :=
  ∃ l, Results find 0 l ∧ l.Nodup ∧ ∀ i, i ∈ l ↔ i < n ∧ hit i

/-- The hits are the multiples of some step, counted from 1. -/
def Periodic (hit : Nat → Prop) (n : Nat) : Prop := ∃ step, 0 < step ∧ ∀ i < n, hit i ↔ step ∣ i + 1

section

variable {hit : Nat → Prop} [DecidablePred hit] {n m : Nat}

theorem searchFrom_eq (hm : hit m) (hbefore : ∀ e < m, ¬ hit e) (j : Nat) :
    searchFrom hit n j = if j + m < n then some (j + m) else none := by
  cases hs : searchFrom hit n j with
  | none => rw [if_neg fun hlt => searchFrom_none hs hlt hm]
  | some k =>
    obtain ⟨d, rfl, hlt, hhit, hfirst⟩ := searchFrom_some hs
    rcases Nat.lt_trichotomy d m with hd | rfl | hd
    · exact absurd hhit (hbefore d hd)
    · rw [if_pos hlt]
    · exact absurd hm (hfirst m hd)

/-- From a multiple on, the results are the indices before the multiples. -/
theorem Results.mem_iff (hm : hit m) (hbefore : ∀ e < m, ¬ hit e) {j : Nat} {l : List Nat}
    (h : Results (searchFrom hit n) j l) (hj : m + 1 ∣ j) : l.Nodup ∧ ∀ i, i ∈ l ↔ j ≤ i ∧ i < n ∧ m + 1 ∣ i + 1 := by
  induction h with
  | @stop j hstop =>
    rw [searchFrom_eq hm hbefore] at hstop
    refine ⟨List.nodup_nil, fun i => iff_of_false List.not_mem_nil ?_⟩
    rintro ⟨hji, hin, hdvd⟩
    -- a multiple behind `j` is at least `m + 1` away, so that the search would not have stopped
    have hle := Nat.le_of_dvd (by omega) (Nat.dvd_sub hdvd hj)
    have hlt : j + m < n := by omega
    rw [if_pos hlt] at hstop
    cases hstop
  | @next j i l hnext hl ih =>
    rw [searchFrom_eq hm hbefore] at hnext
    split at hnext
    · next hlt =>
      cases hnext
      have hdvd : m + 1 ∣ j + m + 1 := (Nat.dvd_add_right hj).2 (Nat.dvd_refl _)
      obtain ⟨hnodup, hmem⟩ := ih hdvd
      constructor
      · refine List.nodup_cons.2 ⟨fun hin => ?_, hnodup⟩
        have := ((hmem _).1 hin).1
        omega
      · intro i
        rw [List.mem_cons, hmem]
        constructor
        · rintro (rfl | ⟨hi, hin, hdvd⟩)
          · exact ⟨by omega, hlt, hdvd⟩
          · exact ⟨by omega, hin, hdvd⟩
        · rintro ⟨hi, hin, hdvd⟩
          by_cases heq : i = j + m
          · exact .inl heq
          · have hle := Nat.le_of_dvd (by omega) (Nat.dvd_sub hdvd hj)
            exact .inr ⟨by omega, hin, hdvd⟩
    · cases hnext

/-- The results come to an end. -/
theorem exists_results (j : Nat) : ∃ l, Results (searchFrom hit n) j l := by
  induction hk : n - j using Nat.strong_induction_on generalizing j with
  | _ k ih =>
    cases hs : searchFrom hit n j with
    | none => exact ⟨[], .stop hs⟩
    | some i =>
      obtain ⟨d, rfl, hlt, -, -⟩ := searchFrom_some hs
      obtain ⟨l, hl⟩ := ih (n - (j + d + 1)) (by omega) (j + d + 1) rfl
      exact ⟨(j + d) :: l, .next hs hl⟩

/-- It finds what there is from everywhere exactly if the hits are periodic. -/
theorem findsAll_iff : FindsAll hit n (searchFrom hit n) ↔ Periodic hit n := by
  constructor
  · rintro ⟨l, hl, -, hmem⟩
    by_cases hex : ∃ i, i < n ∧ hit i
    · obtain ⟨i, hi, hhit⟩ := hex
      have hsome : ∃ i, hit i := ⟨i, hhit⟩
      obtain ⟨-, hmultiple⟩ := hl.mem_iff (Nat.find_spec hsome) (fun e => Nat.find_min hsome) (Nat.dvd_zero _)
      refine ⟨Nat.find hsome + 1, Nat.succ_pos _, fun i hi => ?_⟩
      have hboth := (hmem i).symm.trans (hmultiple i)
      simpa [hi] using hboth
    · refine ⟨n + 1, Nat.succ_pos n, fun i hi => iff_of_false (fun hhit => hex ⟨i, hi, hhit⟩) fun hdvd => ?_⟩
      have := Nat.le_of_dvd (Nat.succ_pos i) hdvd
      omega
  · rintro ⟨step, hpos, hhit⟩
    have hno : ∀ e < n, e + 1 < step → ¬ hit e := by
      intro e he hlt h
      have := Nat.le_of_dvd (Nat.succ_pos e) ((hhit e he).1 h)
      omega
    obtain ⟨m, rfl⟩ := Nat.exists_eq_add_of_lt hpos
    obtain ⟨l, hl⟩ : ∃ l, Results (searchFrom hit n) 0 l := exists_results 0
    rw [Nat.zero_add] at hhit hno
    by_cases hm : m < n
    · have hfirst : hit m := (hhit m hm).2 (Nat.dvd_refl _)
      obtain ⟨hnodup, hmem⟩ := hl.mem_iff hfirst (fun e he => hno e (by omega) (by omega)) (Nat.dvd_zero _)
      refine ⟨l, hl, hnodup, fun i => ?_⟩
      rw [hmem]
      constructor
      · rintro ⟨-, hi, hdvd⟩
        exact ⟨hi, (hhit i hi).2 hdvd⟩
      · rintro ⟨hi, h⟩
        exact ⟨Nat.zero_le i, hi, (hhit i hi).1 h⟩
    -- no multiple is in the table
    · have hnone : searchFrom hit n 0 = none := by
        cases hs : searchFrom hit n 0 with
        | none => rfl
        | some k =>
          obtain ⟨d, -, hlt, h, -⟩ := searchFrom_some hs
          exact absurd h (hno d (by omega) (by omega))
      refine ⟨[], .stop hnone, List.nodup_nil, fun i => iff_of_false List.not_mem_nil ?_⟩
      rintro ⟨hi, h⟩
      exact hno i hi (by omega) h

end

end Netrek.Lib
