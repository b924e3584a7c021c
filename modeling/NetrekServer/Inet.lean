/-
`inet_addr` of the C library: an IPv4 address in numbers and dots, as the word in which a
little-endian host stores it in network order. The first octet is the lowest.
-/
import Mathlib.Data.List.TakeWhile
import NetrekServer.Struct
import NetrekServer.Text

namespace Netrek.Inet

open Text (isSpace)

/-! ## Numbers -/

/-- The value of a digit. -/
def digit (c : Char) : Option Nat :=
  if c.isDigit then some (c.toNat - '0'.toNat)
  else if 'a' ≤ c ∧ c ≤ 'f' then some (c.toNat - 'a'.toNat + 10)
  else if 'A' ≤ c ∧ c ≤ 'F' then some (c.toNat - 'A'.toNat + 10)
  else none

/-- A text of digits, and at least one. -/
def numeral (base : Nat) (text : List Char) : Option Nat :=
  if text = [] then none
  else text.foldlM (fun n c => do
    let d ← digit c
    if d < base then some (base * n + d) else none) 0

/-- A number of an address: hexadecimal, octal or decimal. -/
def number : List Char → Option Nat
  | '0' :: c :: text => if c = 'x' ∨ c = 'X' then numeral 16 text else numeral 8 (c :: text)
  | text => numeral 10 text

/-! ## Addresses -/

/-- `htonl`. -/
def htonl (n : Nat) : Word :=
  BitVec.ofNat 8 n ++ BitVec.ofNat 8 (n / 2 ^ 8) ++ BitVec.ofNat 8 (n / 2 ^ 16) ++ BitVec.ofNat 8 (n / 2 ^ 24)

/-- `INADDR_NONE`, which is also the broadcast address. -/
def inaddrNone : Word := BitVec.allOnes 32

/-- `inet_addr`: up to four numbers, the last of which fills the octets that are left. -/
def inetAddr (text : List Char) : Word :=
  match ((text.takeWhile (!isSpace ·)).splitOn '.').mapM number with
  | some [a] => if a < 2 ^ 32 then htonl a else inaddrNone
  | some [a, b] => if a < 2 ^ 8 ∧ b < 2 ^ 24 then htonl (a * 2 ^ 24 + b) else inaddrNone
  | some [a, b, c] => if a < 2 ^ 8 ∧ b < 2 ^ 8 ∧ c < 2 ^ 16 then htonl (a * 2 ^ 24 + b * 2 ^ 16 + c) else inaddrNone
  | some [a, b, c, d] =>
    if a < 2 ^ 8 ∧ b < 2 ^ 8 ∧ c < 2 ^ 8 ∧ d < 2 ^ 8 then htonl (a * 2 ^ 24 + b * 2 ^ 16 + c * 2 ^ 8 + d) else inaddrNone
  | _ => inaddrNone

/-! ## Dotted quads -/

/-- The octets of an address. -/
structure Quad where
  a : UInt8
  b : UInt8
  c : UInt8
  d : UInt8
  deriving DecidableEq

/-- A number in decimal. -/
def dec (n : Nat) : List Char := Nat.toDigits 10 n

namespace Quad

def text (q : Quad) : List Char :=
  dec q.a.toNat ++ '.' :: (dec q.b.toNat ++ '.' :: (dec q.c.toNat ++ '.' :: dec q.d.toNat))

/-- The bits of the address, the most significant bit of the first octet first. -/
def net (q : Quad) : Word := q.a.toBitVec ++ q.b.toBitVec ++ q.c.toBitVec ++ q.d.toBitVec

/-- The address in network order, as a little-endian host sees it. -/
def word (q : Quad) : Word := q.d.toBitVec ++ q.c.toBitVec ++ q.b.toBitVec ++ q.a.toBitVec

end Quad

theorem number_dec (n : UInt8) : number (dec n.toNat) = some n.toNat := by
  have h : ∀ i : Fin 256, number (dec i) = some i.val := by decide +kernel
  exact h ⟨n.toNat, n.toNat_lt⟩

theorem isDigit_dec {n : Nat} {c : Char} (h : c ∈ dec n) : c.isDigit = true :=
  Nat.isDigit_of_mem_toDigits (by decide) (by decide) h

theorem not_mem_dec {n : Nat} {c : Char} (hc : c.isDigit = false) : c ∉ dec n := by
  intro h
  rw [isDigit_dec h] at hc
  cases hc

theorem mem_text {q : Quad} {c : Char} (h : c ∈ q.text) : c.isDigit = true ∨ c = '.' := by
  unfold Quad.text at h
  simp only [List.mem_append, List.mem_cons] at h
  rcases h with h | h | h | h | h | h | h
  all_goals first | exact .inr h | exact .inl (isDigit_dec h)

theorem not_isSpace_of_isDigit {c : Char} (h : c.isDigit = true) : isSpace c = false := by
  simp only [Char.isDigit, Bool.and_eq_true, decide_eq_true_eq] at h
  have h48 : 48 ≤ c.toNat := h.1
  unfold isSpace
  simp only [Bool.or_eq_false_iff, beq_eq_false_iff_ne, ne_eq, decide_eq_false_iff_not, not_and, not_le]
  constructor
  · rintro rfl
    exact absurd h48 (by decide)
  · omega

theorem splitOn_text (q : Quad) :
    q.text.splitOn '.' = [dec q.a.toNat, dec q.b.toNat, dec q.c.toNat, dec q.d.toNat] := by
  have hsplit : q.text = ['.'].intercalate [dec q.a.toNat, dec q.b.toNat, dec q.c.toNat, dec q.d.toNat] := by
    simp [Quad.text, List.intercalate]
  rw [hsplit, List.splitOn_intercalate _ _ (by simp)]
  simp [not_mem_dec]

/-- The octets of an address, the first the lowest. -/
theorem htonl_octets (q : Quad) :
    htonl (q.a.toNat * 2 ^ 24 + q.b.toNat * 2 ^ 16 + q.c.toNat * 2 ^ 8 + q.d.toNat) = q.word := by
  have ha := q.a.toNat_lt
  have hb := q.b.toNat_lt
  have hc := q.c.toNat_lt
  have hd := q.d.toNat_lt
  unfold htonl Quad.word
  congr 1
  · congr 1
    · congr 1 <;> apply BitVec.eq_of_toNat_eq <;> simp <;> omega
    · apply BitVec.eq_of_toNat_eq
      simp
      omega
  · apply BitVec.eq_of_toNat_eq
    simp
    omega

/-- A dotted quad is read as its octets. -/
theorem inetAddr_text (q : Quad) : inetAddr q.text = q.word := by
  have hclean : q.text.takeWhile (!isSpace ·) = q.text := by
    rw [List.takeWhile_eq_self_iff]
    intro c hc
    rcases mem_text hc with h | rfl
    · simp [not_isSpace_of_isDigit h]
    · rfl
  have ha := q.a.toNat_lt
  have hb := q.b.toNat_lt
  have hc := q.c.toNat_lt
  have hd := q.d.toNat_lt
  unfold inetAddr
  rw [hclean, splitOn_text]
  simp only [List.mapM_cons, List.mapM_nil, number_dec, Option.pure_def, Option.bind_eq_bind, Option.bind_some]
  rw [if_pos ⟨ha, hb, hc, hd⟩, htonl_octets]

end Netrek.Inet
