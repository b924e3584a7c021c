/-
Drawing at random until what is drawn is free: without a limit, where the drawing may not end, or with one,
where what is drawn last is kept although it may not be free.
-/
import Mathlib.Logic.Function.Iterate
import Mathlib.Tactic.Common

namespace Netrek.Lib

variable {σ α : Type} (draw : σ → α × σ) (taken : α → Bool)

/-- What is drawn if it is free within `n` turns. -/
def drawFree : Nat → σ → Option (α × σ)
  | 0, _ => none
  | n + 1, s =>
    let (a, s) := draw s
    if taken a then drawFree n s else some (a, s)

/-- After `n` turns in vain it is drawn once more, and given up. -/
def drawOrGiveUp : Nat → σ → (α × σ) × Bool
  | 0, s => (draw s, true)
  | n + 1, s =>
    let (a, s) := draw s
    if taken a then drawOrGiveUp n s else ((a, s), false)

variable {draw taken} {n : Nat} {s : σ}

theorem drawFree_succ : drawFree draw taken (n + 1) s =
    if taken (draw s).1 then drawFree draw taken n (draw s).2 else some (draw s) := rfl

theorem drawOrGiveUp_succ : drawOrGiveUp draw taken (n + 1) s =
    if taken (draw s).1 then drawOrGiveUp draw taken n (draw s).2 else (draw s, false) := rfl

/-- What is drawn is free, and whatever drawing does not change is as it was. -/
theorem drawFree_spec {β : Type} {f : σ → β} (hf : ∀ s, f (draw s).2 = f s) {a : α} {s' : σ}
    (h : drawFree draw taken n s = some (a, s')) : taken a = false ∧ f s' = f s := by
  induction n generalizing s with
  | zero => cases h
  | succ n ih =>
    rw [drawFree_succ] at h
    split at h
    · obtain ⟨hfree, hsame⟩ := ih h
      exact ⟨hfree, hsame.trans (hf s)⟩
    · next hfree =>
      have hdrawn := Option.some.inj h
      rw [hdrawn] at hfree
      exact ⟨Bool.eq_false_iff.2 hfree, by rw [← hf s, hdrawn]⟩

/-- If it is not given up, it is as without a limit. -/
theorem drawFree_of_not_gaveUp (h : (drawOrGiveUp draw taken n s).2 = false) :
    drawFree draw taken n s = some (drawOrGiveUp draw taken n s).1 := by
  induction n generalizing s with
  | zero => cases h
  | succ n ih =>
    rw [drawOrGiveUp_succ] at h ⊢
    rw [drawFree_succ]
    split
    · next htaken =>
      rw [if_pos htaken] at h
      exact ih h
    · rfl

/-- More turns change nothing. -/
theorem drawFree_mono {m : Nat} {r : α × σ} (h : drawFree draw taken n s = some r) (hle : n ≤ m) :
    drawFree draw taken m s = some r := by
  induction n generalizing m s with
  | zero => cases h
  | succ n ih =>
    obtain ⟨m, rfl⟩ := Nat.exists_eq_add_of_le' (Nat.one_le_of_lt hle)
    rw [drawFree_succ] at h ⊢
    split
    · next htaken =>
      rw [if_pos htaken] at h
      exact ih h (by omega)
    · next hfree =>
      rw [if_neg hfree] at h
      exact h

/-- If something free is going to be drawn, some number of turns is enough. -/
theorem exists_drawFree : ∀ {k : Nat} {s : σ}, taken (draw ((fun s => (draw s).2)^[k] s)).1 = false →
    ∃ n r, drawFree draw taken n s = some r
  | 0, s, h => ⟨1, draw s, if_neg (Bool.eq_false_iff.1 h)⟩
  | k + 1, s, h => by
    by_cases htaken : taken (draw s).1 = true
    · rw [Function.iterate_succ_apply] at h
      obtain ⟨n, r, hr⟩ := exists_drawFree h
      exact ⟨n + 1, r, by rw [drawFree_succ, if_pos htaken, hr]⟩
    · exact ⟨1, draw s, by rw [drawFree_succ, if_neg htaken]⟩

end Netrek.Lib
