/-
A ranking kept in an array of fixed length: who comes next is put before the first who is worse, and the rest
move up by one. Every access is checked; one outside the array is `none`.
-/
import Mathlib.Data.List.Sort

namespace Netrek.Lib.Insertion

variable {α β : Type}

/-! ## The loops -/

/-- A write to an array. -/
def write (a : List β) (i : Nat) (x : β) : Option (List β) := if i < a.length then some (a.set i x) else none

/-- The first of the `n` places from `k` on that `x` comes before, or the place behind them. -/
def place (before : β → Bool) (a : List β) (k : Nat) : Nat → Option Nat
  | 0 => some k
  | n + 1 => a[k]?.bind fun y => if before y then some k else place before a (k + 1) n

/-- The `n` places from `k` on move up by one, the last first. -/
def shift (k : Nat) : Nat → List β → Option (List β)
  | 0, a => some a
  | n + 1, a => a[k + n]?.bind fun y => (write a (k + n + 1) y).bind (shift k n)

/-- `x` is put in its place among the first `number`. -/
def insert (before : β → Bool) (x : β) (number : Nat) (a : List β) : Option (List β) :=
  (place before a 0 number).bind fun k => (shift k (number + 1 - k) a).bind fun a => write a k x

/-! ## What the loops do -/

variable {a : List β} {k n number : Nat}

/-- The place is the first that the new element comes before. -/
theorem place_eq (before : β → Bool) (h : k + n ≤ a.length) :
    place before a k n = some (k + ((a.drop k).take n).findIdx before) := by
  induction n generalizing k with
  | zero => simp [place]
  | succ n ih =>
    have hk : k < a.length := by omega
    have hdrop : (a.drop k).take (n + 1) = a[k] :: (a.drop (k + 1)).take n := by
      rw [List.drop_eq_getElem_cons hk, List.take_succ_cons]
    unfold place
    rw [List.getElem?_eq_getElem hk, hdrop, List.findIdx_cons]
    show (if before a[k] then _ else _) = _
    cases before a[k] with
    | true => rfl
    | false =>
      rw [if_neg (by decide), ih (show k + 1 + n ≤ a.length by omega)]
      simp only [cond_false]
      congr 1
      omega

/-- Every place behind `k` is what was before it. -/
theorem shift_spec (h : k + n < a.length) :
    ∃ b, shift k n a = some b ∧ b.length = a.length ∧ ∀ i, b[i]? = if k < i ∧ i ≤ k + n then a[i - 1]? else a[i]? := by
  induction n generalizing a with
  | zero =>
    refine ⟨a, rfl, rfl, fun i => ?_⟩
    rw [if_neg (by omega)]
  | succ n ih =>
    have hread : a[k + n]? = some a[k + n] := List.getElem?_eq_getElem (by omega)
    have hwrite : write a (k + n + 1) a[k + n] = some (a.set (k + n + 1) a[k + n]) := if_pos (by omega)
    obtain ⟨b, hb, hlen, hget⟩ := ih (a := a.set (k + n + 1) a[k + n]) (by rw [List.length_set]; omega)
    refine ⟨b, ?_, by rw [hlen, List.length_set], fun i => ?_⟩
    · unfold shift
      rw [hread]
      show (write a (k + n + 1) a[k + n]).bind (shift k n) = some b
      rw [hwrite]
      exact hb
    · rw [hget]
      rcases Nat.lt_trichotomy i (k + n + 1) with hi | rfl | hi
      · rw [List.getElem?_set_ne (by omega), List.getElem?_set_ne (by omega)]
        by_cases hk : k < i
        · rw [if_pos (by omega), if_pos (by omega)]
        · rw [if_neg (by omega), if_neg (by omega)]
      · rw [if_neg (by omega), if_pos (by omega), List.getElem?_set_self (by omega), ← hread]
        rfl
      · rw [if_neg (by omega), if_neg (by omega), List.getElem?_set_ne (by omega)]

/-- The new entry is put before the first it comes before, and no access is outside the array. -/
theorem insert_spec (before : β → Bool) (x : β) (h : number + 1 < a.length) :
    ∃ b, insert before x number a = some b ∧ b.length = a.length ∧
      b.take (number + 1) = (a.take number).takeWhile (!before ·) ++ x :: (a.take number).dropWhile (!before ·) := by
  have hplace := place_eq before (show 0 + number ≤ a.length by omega)
  rw [List.drop_zero, Nat.zero_add] at hplace
  have hk : (a.take number).findIdx before ≤ number :=
    (List.findIdx_le_length).trans (by rw [List.length_take]; omega)
  rw [List.takeWhile_eq_take_findIdx_not, List.dropWhile_eq_drop_findIdx_not]
  simp only [Bool.not_not]
  generalize (a.take number).findIdx before = k at hplace hk
  obtain ⟨b, hshift, hlen, hget⟩ := shift_spec (a := a) (k := k) (n := number + 1 - k) (by omega)
  refine ⟨b.set k x, ?_, by rw [List.length_set, hlen], ?_⟩
  · unfold insert
    rw [hplace]
    show (shift k (number + 1 - k) a).bind _ = _
    rw [hshift]
    exact if_pos (by omega)
  · apply List.ext_getElem?
    intro i
    have hleft : ((a.take number).take k).length = k := by
      simp only [List.length_take]
      omega
    rw [List.getElem?_take]
    rcases Nat.lt_trichotomy i k with hi | rfl | hi
    · rw [if_pos (by omega), List.getElem?_set_ne (by omega), hget, if_neg (by omega),
        List.getElem?_append_left (by omega), List.getElem?_take_of_lt hi, List.getElem?_take_of_lt (by omega)]
    · rw [if_pos (by omega), List.getElem?_set_self (by omega), List.getElem?_append_right (by omega), hleft,
        Nat.sub_self]
      rfl
    · obtain ⟨j, rfl⟩ := Nat.exists_eq_add_of_lt hi
      have hj : k + j + 1 - k = j + 1 := by omega
      rw [List.getElem?_append_right (by omega), hleft, hj, List.getElem?_cons_succ, List.getElem?_drop,
        List.getElem?_take]
      by_cases hn : k + j < number
      · rw [if_pos (by omega), if_pos hn, List.getElem?_set_ne (by omega), hget, if_pos (by omega)]
        rfl
      · rw [if_neg (by omega), if_neg hn]

/-! ## Stable rankings -/

/-- `y` is worse than `x`. -/
def Worse (key : α → Int) (x y : α) : Prop := key y < key x

instance (key : α → Int) : DecidableRel (Worse key) := fun x y => inferInstanceAs (Decidable (key y < key x))

/-- `x` comes before `y`: it is better, or as good and earlier. -/
def Ranked [LT α] (key : α → Int) (x y : α) : Prop := key y < key x ∨ (key x = key y ∧ x < y)

/-- An entry is put before the first that is worse. -/
theorem insert_worse (key : β → Int) (x : β) (h : number + 1 < a.length) :
    ∃ b, insert (fun y => decide (key y < key x)) x number a = some b ∧ b.length = a.length ∧
      b.take (number + 1) = (a.take number).orderedInsert (Worse key) x := by
  obtain ⟨b, hb, hlen, htake⟩ := insert_spec (fun y => decide (key y < key x)) x h
  refine ⟨b, hb, hlen, ?_⟩
  have hnot : (fun y => decide ¬ Worse key x y) = fun y => !decide (key y < key x) := by
    funext y
    exact decide_not
  rw [htake, List.orderedInsert_eq_take_drop, hnot]

/-- Whoever comes later, put before the first who is worse, leaves a ranking one. -/
theorem pairwise_orderedInsert [LT α] {key : α → Int} {x : α} {l : List α} (hl : l.Pairwise (Ranked key))
    (hx : ∀ y ∈ l, y < x) : (l.orderedInsert (Worse key) x).Pairwise (Ranked key) := by
  induction l with
  | nil => exact List.pairwise_singleton _ _
  | cons y l ih =>
    obtain ⟨hy, hl⟩ := List.pairwise_cons.1 hl
    rw [List.orderedInsert_cons]
    split
    · rename_i hworse
      have hworse' : key y < key x := hworse
      refine List.pairwise_cons.2 ⟨fun z hz => .inl ?_, List.pairwise_cons.2 ⟨hy, hl⟩⟩
      rcases List.mem_cons.1 hz with rfl | hz
      · exact hworse
      · rcases hy z hz with h | ⟨h, -⟩ <;> omega
    · rename_i hworse
      have hle : key x ≤ key y := Int.not_lt.1 hworse
      refine List.pairwise_cons.2 ⟨fun z hz => ?_, ih hl fun z hz => hx z (List.mem_cons_of_mem _ hz)⟩
      rcases (List.mem_orderedInsert _).1 hz with rfl | hz
      · rcases Int.lt_or_eq_of_le hle with h | h
        · exact .inl h
        · exact .inr ⟨h.symm, hx y List.mem_cons_self⟩
      · exact hy z hz

end Netrek.Lib.Insertion
