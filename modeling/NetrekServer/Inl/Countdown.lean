/-
The countdown of a league game: what `countdown` does with the table of `inl_game`, whose action is at
the entry for one second. Before that it announces, in the last second it acts, at the end it only
announces, and a second later it runs off its table.
-/
import Mathlib.Algebra.Order.Ring.Int
import NetrekServer.Inl.Game

namespace Netrek.Inl

/-! ## The table of a countdown -/

theorem advance_idx {p t : Int} : ∀ (fuel : Nat) {c d : Countdown}, advance p t fuel c = some d →
    ∃ i, d = { c with idx := i }
  | 0, _, _, h => nomatch h
  | fuel + 1, c, d, h => by
    unfold advance at h
    split at h
    · exact ⟨c.idx, (Option.some.inj h).symm⟩
    split at h
    · cases h
    split at h
    · obtain ⟨i, rfl⟩ := advance_idx fuel h
      exact ⟨i, rfl⟩
    · exact ⟨c.idx, (Option.some.inj h).symm⟩

/-- A countdown goes on in its table. -/
theorem countdown_idx {p t : Int} {c d : Countdown} {due : Bool} (h : countdown p t c = some (d, due)) :
    ∃ i, d = { c with idx := i } := by
  unfold countdown at h
  split at h
  · cases h
  split at h
  · cases h
    exact ⟨c.idx, rfl⟩
  split at h
  · cases h
  · next hc =>
    obtain ⟨i, rfl⟩ := advance_idx _ hc
    cases h
    exact ⟨i + 1, rfl⟩

/-! ## The countdown of a game -/

section Countdown

variable {p t : Int} {c : Countdown}

/-- The loop goes on to the action when all that is left is due. -/
theorem advance_acts (hp : 0 < p) (hcount : ∀ i ≤ c.act, ∃ n, 1 ≤ n ∧ c.counts[i]? = some n)
    (hdue : c.ends ≤ t + p) : ∀ (fuel i : Nat), i ≤ c.act → c.act - i < fuel →
    advance p t fuel { c with idx := i } = some { c with idx := c.act }
  | 0, _, _, hfuel => absurd hfuel (Nat.not_lt_zero _)
  | fuel + 1, i, hi, hfuel => by
    unfold advance
    by_cases h : i = c.act
    · rw [if_pos h, h]
    · obtain ⟨n, hn, hc⟩ := hcount (i + 1) (by omega)
      have hnp : p ≤ n * p := le_mul_of_one_le_left hp.le hn
      have hle : c.ends - n * p ≤ t := by omega
      dsimp only
      rw [if_neg h, hc]
      dsimp only
      rw [if_pos hle]
      exact advance_acts hp hcount hdue fuel (i + 1) (by omega) (by omega)

/-- The loop stops before the action when the last second has not begun. -/
theorem advance_waits (hlast : c.counts[c.act]? = some 1) (hlen : c.act < c.counts.length)
    (hearly : t + p < c.ends) : ∀ (fuel i : Nat), i < c.act → c.act - i < fuel →
    ∃ k < c.act, advance p t fuel { c with idx := i } = some { c with idx := k }
  | 0, _, _, hfuel => absurd hfuel (Nat.not_lt_zero _)
  | fuel + 1, i, hi, hfuel => by
    unfold advance
    rw [if_neg (Nat.ne_of_lt hi)]
    obtain ⟨n, hsome⟩ : ∃ n, c.counts[i + 1]? = some n := ⟨_, List.getElem?_eq_getElem (by omega)⟩
    dsimp only
    rw [hsome]
    dsimp only
    by_cases h : c.ends - n * p ≤ t
    · rw [if_pos h]
      have hne : i + 1 ≠ c.act := by
        intro he
        rw [he, hlast] at hsome
        cases hsome
        omega
      exact advance_waits hlast hlen hearly fuel (i + 1) (by omega) (by omega)
    · rw [if_neg h]
      exact ⟨i, hi, rfl⟩

/-- A countdown before its action does not read beyond its table. -/
theorem advance_some (hlen : c.act < c.counts.length) : ∀ (fuel i : Nat), i ≤ c.act → c.act - i < fuel →
    ∃ k ≤ c.act, advance p t fuel { c with idx := i } = some { c with idx := k }
  | 0, _, _, hfuel => absurd hfuel (Nat.not_lt_zero _)
  | fuel + 1, i, hi, hfuel => by
    unfold advance
    by_cases h : i = c.act
    · exact ⟨i, hi, by rw [if_pos h]⟩
    · obtain ⟨n, hsome⟩ : ∃ n, c.counts[i + 1]? = some n := ⟨_, List.getElem?_eq_getElem (by omega)⟩
      dsimp only
      rw [if_neg h, hsome]
      dsimp only
      split
      · exact advance_some hlen fuel (i + 1) (by omega) (by omega)
      · exact ⟨i, hi, rfl⟩

/-- What a countdown does when its entry is due. -/
theorem countdown_due {n : Int} (hn : c.counts[c.idx]? = some n) (hpass : c.ends - n * p ≤ t) {c' : Countdown}
    (hadv : advance p t c.counts.length c = some c') :
    countdown p t c = some ({ c' with idx := c'.idx + 1 }, c'.idx == c'.act) := by
  unfold countdown
  rw [hn]
  dsimp only
  rw [if_neg (not_lt.mpr hpass), hadv]

theorem countdown_none {n : Int} (hn : c.counts[c.idx]? = some n) (hpass : c.ends - n * p ≤ t)
    (hadv : advance p t c.counts.length c = none) : countdown p t c = none := by
  unfold countdown
  rw [hn]
  dsimp only
  rw [if_neg (not_lt.mpr hpass), hadv]

/-- A countdown whose action is not behind it goes on to the action at most. -/
theorem countdown_some (hlen : c.act < c.counts.length) (hi : c.idx ≤ c.act) :
    ∃ i due, countdown p t c = some ({ c with idx := i }, due) ∧ (due = false → i ≤ c.act) := by
  obtain ⟨n, hn⟩ : ∃ n, c.counts[c.idx]? = some n := ⟨_, List.getElem?_eq_getElem (by omega)⟩
  obtain ⟨k, hk, hadv⟩ := advance_some (p := p) (t := t) hlen c.counts.length c.idx hi (by omega)
  have hadv : advance p t c.counts.length c = some { c with idx := k } := hadv
  unfold countdown
  rw [hn]
  dsimp only
  by_cases hw : t < c.ends - n * p
  · rw [if_pos hw]
    exact ⟨c.idx, false, rfl, fun _ => hi⟩
  · rw [if_neg hw, hadv]
    refine ⟨k + 1, k == c.act, rfl, fun hdue => ?_⟩
    rw [beq_eq_false_iff_ne] at hdue
    omega

end Countdown

/-- The table and the action of `inl_game`. -/
structure IsGame (c : Countdown) : Prop where
  counts : c.counts = gameCounts
  act : c.act = 12
  action : c.action = .endTourney

section Game

variable {p t : Int} {c : Countdown}

theorem IsGame.count (h : IsGame c) : ∀ i ≤ c.act, ∃ n, 1 ≤ n ∧ c.counts[i]? = some n := by
  have htable : ∀ i ≤ 12, 1 ≤ gameCounts.getD i 0 ∧ gameCounts[i]? = some (gameCounts.getD i 0) := by decide
  rw [h.counts, h.act]
  exact fun i hi => ⟨_, htable i hi⟩

/-- Before the last second the countdown only announces. -/
theorem IsGame.early (h : IsGame c) (hi : c.idx ≤ 12) (ht : t + p < c.ends) :
    ∃ i ≤ 12, countdown p t c = some ({ c with idx := i }, false) := by
  obtain ⟨n, hn, hc⟩ := h.count c.idx (by rw [h.act]; exact hi)
  unfold countdown
  rw [hc]
  dsimp only
  by_cases hw : t < c.ends - n * p
  · rw [if_pos hw]
    exact ⟨c.idx, hi, rfl⟩
  · rw [if_neg hw]
    have hlast : c.counts[c.act]? = some 1 := by
      rw [h.counts, h.act]
      rfl
    have hlen : c.counts.length = 20 := by
      rw [h.counts]
      rfl
    have hlt : c.idx < c.act := by
      have hact := h.act
      rcases Nat.lt_or_ge c.idx c.act with hlt | hge
      · exact hlt
      · have he : c.idx = c.act := by omega
        rw [he, hlast] at hc
        cases hc
        omega
    obtain ⟨k, hk, hadv⟩ := advance_waits hlast (by rw [hlen, h.act]; decide) ht c.counts.length c.idx hlt
      (by rw [hlen, h.act]; omega)
    rw [hadv]
    rw [h.act] at hk ⊢
    refine ⟨k + 1, hk, ?_⟩
    have hne : (k == 12) = false := by
      rw [beq_eq_false_iff_ne]
      omega
    simp only [hne]

/-- In the last second the action is due, whatever has been announced. -/
theorem IsGame.due (h : IsGame c) (hp : 0 < p) (hi : c.idx ≤ 12) (ht : c.ends ≤ t + p) :
    countdown p t c = some ({ c with idx := 13 }, true) := by
  obtain ⟨n, hn, hc⟩ := h.count c.idx (by rw [h.act]; exact hi)
  have hlen : c.counts.length = 20 := by
    rw [h.counts]
    rfl
  have hnp : p ≤ n * p := le_mul_of_one_le_left hp.le hn
  have hpass : ¬ t < c.ends - n * p := by omega
  have hadv := advance_acts hp h.count ht c.counts.length c.idx (by rw [h.act]; exact hi) (by rw [hlen, h.act]; omega)
  rw [countdown_due hc (by omega) hadv, h.act]
  rfl

theorem IsGame.last (h : IsGame c) (hi : c.idx = 13) (ht : t < c.ends) : countdown p t c = some (c, false) := by
  unfold countdown
  rw [h.counts, hi]
  show (if t < c.ends - 0 * p then _ else _) = _
  rw [if_pos (by omega)]

theorem IsGame.zero (h : IsGame c) (hp : 0 < p) (hi : c.idx = 13) (ht : c.ends = t) :
    countdown p t c = some ({ c with idx := 14 }, false) := by
  have hadv (fuel : Nat) : advance p t (fuel + 1) c = some c := by
    unfold advance
    rw [hi, h.act, h.counts, if_neg (by decide)]
    show (if c.ends - (-1) * p ≤ t then _ else _) = _
    rw [if_neg (by omega)]
  have hn : c.counts[c.idx]? = some 0 := by
    rw [h.counts, hi]
    rfl
  have hlen : c.counts.length = 19 + 1 := by
    rw [h.counts]
    rfl
  rw [countdown_due hn (by omega) (by rw [hlen]; exact hadv 19), hi, h.act]
  rfl

theorem IsGame.past (h : IsGame c) (hi : c.idx = 14) (ht : t < c.ends + p) : countdown p t c = some (c, false) := by
  unfold countdown
  rw [h.counts, hi]
  show (if t < c.ends - (-1) * p then _ else _) = _
  rw [if_pos (by omega)]

/-- A second after the end the countdown runs off its table. -/
theorem IsGame.stray (h : IsGame c) (hp : 0 < p) (hi : c.idx = 14) (ht : c.ends + p ≤ t) : countdown p t c = none := by
  have hzero : ∀ i, 14 ≤ i → gameCounts[i + 1]? = none ∨ gameCounts[i + 1]? = some 0 := by
    intro i hi
    rcases Nat.lt_or_ge i 19 with hlt | hge
    · right
      have hall : ∀ i < 19, 14 ≤ i → gameCounts[i + 1]? = some 0 := by decide
      exact hall i hlt hi
    · left
      exact List.getElem?_eq_none (by show 20 ≤ i + 1; omega)
  have hadv : ∀ (fuel i : Nat), 14 ≤ i → advance p t fuel { c with idx := i } = none := by
    intro fuel
    induction fuel with
    | zero => exact fun _ _ => rfl
    | succ fuel ih =>
      intro i hi
      unfold advance
      rw [h.act, if_neg (by dsimp only; omega)]
      dsimp only
      rw [h.counts]
      rcases hzero i hi with hn | hn
      · rw [hn]
      · rw [hn]
        dsimp only
        rw [if_pos (by omega)]
        have := ih (i + 1) (by omega)
        rwa [h.counts, h.act] at this
  have hn : c.counts[c.idx]? = some (-1) := by
    rw [h.counts, hi]
    rfl
  exact countdown_none hn (by omega) (hadv c.counts.length c.idx (by omega))

end Game

end Netrek.Inl
