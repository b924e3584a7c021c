/-
What the server uses of the C library for texts: white space, numbers, and the lines of a file as `fgets` reads them
into a buffer.
-/
import Mathlib.Algebra.Order.Ring.Int

namespace Netrek.Text

/-! ## Characters and numbers -/

def nul : Char := Char.ofNat 0

/-- `isspace`. -/
def isSpace (c : Char) : Bool := c == ' ' || decide (9 ≤ c.toNat ∧ c.toNat ≤ 13)

/-- `strtol` to base 10, of the digits alone. -/
def digitsValue (text : List Char) : Nat := (text.takeWhile Char.isDigit).foldl (fun n c => 10 * n + (c.toNat - '0'.toNat)) 0

/-- `atoi`: `strtol`, which stops at the bounds of `long`, converted to `int`. -/
def atoi (text : List Char) : Int :=
  let n : Int := match text.dropWhile isSpace with
    | '-' :: text => max (-(digitsValue text : Int)) (-2 ^ 63)
    | '+' :: text => min (digitsValue text) (2 ^ 63 - 1)
    | text => min (digitsValue text) (2 ^ 63 - 1)
  n.bmod (2 ^ 32)

/-! ## Lines -/

/-- The calls of `fgets`: `current` is the start of a piece, in reverse, and there is room for `room` characters more, of
`size` in all. -/
def pieces (size : Nat) : List Char → Nat → List Char → List (List Char)
  | current, _, [] => if current = [] then [] else [current.reverse]
  | current, room, c :: stream =>
    if c = '\n' ∨ room ≤ 1 then (c :: current).reverse :: pieces size [] size stream
    else pieces size (c :: current) (room - 1) stream

/-- What `fgets` returns, call by call, with a buffer for `size` characters and a NUL. -/
def fgets (size : Nat) (stream : List Char) : List (List Char) := pieces size [] size stream

/-- What fits the room that is left ends at its newline. -/
theorem pieces_short {size : Nat} {text rest current : List Char} {room : Nat} (hn : '\n' ∉ text) (hlen : text.length < room) :
    pieces size current room (text ++ '\n' :: rest) = (current.reverse ++ text ++ ['\n']) :: pieces size [] size rest := by
  induction text generalizing current room with
  | nil =>
    show pieces size current room ('\n' :: rest) = _
    rw [pieces, if_pos (.inl rfl), List.reverse_cons, List.append_nil]
  | cons c text ih =>
    rw [List.mem_cons, not_or] at hn
    obtain ⟨hc, hn⟩ := hn
    rw [List.length_cons] at hlen
    show pieces size current room (c :: (text ++ '\n' :: rest)) = _
    have hgo : ¬ (c = '\n' ∨ room ≤ 1) := by
      rintro (rfl | h)
      · exact hc rfl
      · omega
    rw [pieces, if_neg hgo, ih hn (by omega), List.reverse_cons, List.append_assoc _ [c]]
    rfl

/-- However a line is read, the next begins a piece. -/
theorem pieces_line (size : Nat) (text rest current : List Char) (room : Nat) :
    ∃ ps, pieces size current room (text ++ '\n' :: rest) = ps ++ pieces size [] size rest := by
  induction text generalizing current room with
  | nil => exact ⟨[('\n' :: current).reverse], by rw [List.nil_append, pieces, if_pos (.inl rfl)]; rfl⟩
  | cons c text ih =>
    rw [List.cons_append, pieces]
    split
    · obtain ⟨ps, hps⟩ := ih [] size
      exact ⟨(c :: current).reverse :: ps, by rw [hps]; rfl⟩
    · exact ih (c :: current) (room - 1)

/-- A line that fits the buffer is read whole. -/
theorem fgets_short {size : Nat} {text rest : List Char} (hn : '\n' ∉ text) (hlen : text.length < size) :
    fgets size (text ++ '\n' :: rest) = (text ++ ['\n']) :: fgets size rest :=
  pieces_short hn hlen

/-- However a line is read, the next begins a piece. -/
theorem fgets_line (size : Nat) (text rest : List Char) :
    ∃ ps, fgets size (text ++ '\n' :: rest) = ps ++ fgets size rest :=
  pieces_line size text rest [] size

end Netrek.Text
