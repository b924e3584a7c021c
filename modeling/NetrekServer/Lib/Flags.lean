/-
Groups of flags that exclude one another in a word. Each statement that writes the word treats every flag by itself, so
that what a list of them makes of a group depends on the group alone, and can be decided value by value.
-/
import Mathlib.Data.BitVec
import Mathlib.Data.Fintype.Basic

namespace Netrek.Lib.Flags

variable {n k : Nat}

/-! ## Writes -/

/-- A statement that writes a word of flags. -/
inductive Write (n : Nat)
  | set (w : BitVec n)
  | clear (w : BitVec n)
  | toggle (w : BitVec n)

def Write.apply : Write n → BitVec n → BitVec n
  | .set w, a => a ||| w
  | .clear w, a => a &&& ~~~w
  | .toggle w, a => a ^^^ w

/-- One statement after the other. -/
def run (ws : List (Write n)) (a : BitVec n) : BitVec n := ws.foldl (fun a w => w.apply a) a

theorem Write.apply_and (w : Write n) (a m : BitVec n) : w.apply a &&& m = w.apply (a &&& m) &&& m := by
  ext i hi
  cases w with
  | set w =>
    simp only [apply, BitVec.getElem_and, BitVec.getElem_or]
    cases a[i] <;> cases w[i] <;> cases m[i] <;> rfl
  | clear w =>
    simp only [apply, BitVec.getElem_and, BitVec.getElem_not]
    cases a[i] <;> cases w[i] <;> cases m[i] <;> rfl
  | toggle w =>
    simp only [apply, BitVec.getElem_and, BitVec.getElem_xor]
    cases a[i] <;> cases w[i] <;> cases m[i] <;> rfl

/-- What the statements leave under a mask depends on what was there. -/
theorem run_and (ws : List (Write n)) (a m : BitVec n) : run ws a &&& m = run ws (a &&& m) &&& m := by
  induction ws generalizing a with
  | nil =>
    show a &&& m = a &&& m &&& m
    rw [BitVec.and_assoc, BitVec.and_self]
  | cons w ws ih =>
    show run ws (w.apply a) &&& m = run ws (w.apply (a &&& m)) &&& m
    rw [ih, w.apply_and, ← ih]

/-! ## Groups -/

/-- The flags under `mask`, and the `k` words that they may be. -/
structure Group (n k : Nat) where
  mask : BitVec n
  word : Fin k → BitVec n

namespace Group

variable {g : Group n k} {ws : List (Write n)} {a : BitVec n} {d d' : Fin k}

/-- In the word `a`, the group is the word of `d`. -/
def At (g : Group n k) (a : BitVec n) (d : Fin k) : Prop := a &&& g.mask = g.word d

instance : Decidable (g.At a d) := inferInstanceAs (Decidable (_ = _))

/-- In the word `a`, the group is one of its words. -/
def Holds (g : Group n k) (a : BitVec n) : Prop := ∃ d, g.At a d

instance : Decidable (g.Holds a) := inferInstanceAs (Decidable (∃ _, _))

/-- The statements take the group from the word of `d` to that of `d'`. -/
def Takes (g : Group n k) (ws : List (Write n)) (d d' : Fin k) : Prop := g.At (run ws (g.word d)) d'

instance : Decidable (g.Takes ws d d') := inferInstanceAs (Decidable (g.At _ _))

/-- The statements take every word of the group to one of its words. -/
def Fits (g : Group n k) (ws : List (Write n)) : Prop := ∀ d, ∃ d', g.Takes ws d d'

instance : Decidable (g.Fits ws) := inferInstanceAs (Decidable (∀ _, ∃ _, _))

theorem At.run (h : g.At a d) (ht : g.Takes ws d d') : g.At (run ws a) d' := by
  unfold At at h ⊢
  rw [run_and, h]
  exact ht

theorem Holds.run (h : g.Holds a) (hf : g.Fits ws) : g.Holds (run ws a) := by
  obtain ⟨d, hd⟩ := h
  obtain ⟨d', ht⟩ := hf d
  exact ⟨d', hd.run ht⟩

/-- What lies in the group is read off the group. -/
theorem At.and (h : g.At a d) {m : BitVec n} (hm : m &&& g.mask = m) : a &&& m = g.word d &&& m := by
  rw [← h, BitVec.and_assoc, BitVec.and_comm g.mask, hm]

end Group

end Netrek.Lib.Flags
