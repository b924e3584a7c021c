/-
A buffer read into at a position and consumed from an offset. `window buf off count` is what lies
between the offset and the fill count; storing behind it appends to it.
-/
import Mathlib.Data.List.Basic
import Mathlib.Tactic.Common

namespace Netrek.Lib.Buffer

variable {α : Type} {buf bs : List α} {off pos count n : Nat}

/-- The contents from `off` up to `count`. -/
def window (buf : List α) (off count : Nat) : List α := (buf.drop off).take (count - off)

/-- The buffer with `bs` stored from `pos` on. -/
def store (buf : List α) (pos : Nat) (bs : List α) : List α := buf.take pos ++ bs ++ buf.drop (pos + bs.length)

theorem length_store (h : pos + bs.length ≤ buf.length) : (store buf pos bs).length = buf.length := by
  simp only [store, List.length_append, List.length_take, List.length_drop]
  omega

theorem length_window (h : count ≤ buf.length) : (window buf off count).length = count - off := by
  simp only [window, List.length_take, List.length_drop]
  omega

theorem window_self (buf : List α) (off : Nat) : window buf off off = [] := by
  simp [window]

/-- Storing at the fill count appends to the window. -/
theorem window_store (ho : off ≤ pos) (h : pos + bs.length ≤ buf.length) :
    window (store buf pos bs) off (pos + bs.length) = window buf off pos ++ bs := by
  have hlen : (buf.take pos).length = pos := by rw [List.length_take]; omega
  unfold window store
  rw [List.append_assoc, List.drop_append_of_le_length (by omega), List.drop_take, ← List.append_assoc]
  have hl : ((buf.drop off).take (pos - off) ++ bs).length = pos + bs.length - off := by
    simp only [List.length_append, List.length_take, List.length_drop]
    omega
  rw [← hl, List.take_left']
  rfl

/-- What follows the first `n` items of the window. -/
theorem window_drop (buf : List α) (off count n : Nat) : window buf (off + n) count = (window buf off count).drop n := by
  unfold window
  rw [List.drop_take, List.drop_drop, Nat.sub_sub]

/-- The first `n` items of the window. -/
theorem window_take (h : n ≤ count - off) : (window buf off count).take n = (buf.drop off).take n := by
  unfold window
  rw [List.take_take, Nat.min_eq_left h]

theorem getElem?_off (h : off < count) : buf[off]? = (window buf off count).head? := by
  unfold window
  rw [List.head?_take, if_neg (by omega), List.head?_drop]

/-- Moving the second half of the buffer down keeps a window that lies in it. -/
theorem window_moveDown (hlen : buf.length = n + n) (ho : n ≤ off) (hc : off ≤ count) (hcl : count ≤ buf.length) :
    window ((buf.drop n).take n ++ buf.drop n) (off - n) (count - n) = window buf off count := by
  have hhalf : (buf.drop n).length = n := by rw [List.length_drop]; omega
  have ho' : n + (off - n) = off := by omega
  have hc' : count - n - (off - n) = count - off := by omega
  have hrest : (buf.drop off).length = buf.length - off := List.length_drop
  have ht : (buf.drop n).take n = buf.drop n := List.take_of_length_le (by omega)
  unfold window
  rw [ht, List.drop_append_of_le_length (by omega), List.drop_drop, ho', hc', List.take_append_of_le_length (by omega)]

end Netrek.Lib.Buffer
