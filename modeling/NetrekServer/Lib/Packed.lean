/-
Fields of some bits each, packed into bytes one behind the other, least significant bit first. Bytes and fields
are the digits of one number, so that each field is read back whatever was packed behind it.
-/
import Mathlib.Data.Nat.Digits.Defs
import Mathlib.Tactic.Ring

namespace Netrek.Lib.Packed

variable {w : Nat} {bs bs' : List UInt8} {fs : List Nat}

/-- The number that the bytes are, the least significant first. -/
def value (bs : List UInt8) : Nat := Nat.ofDigits 256 (bs.map UInt8.toNat)

/-- The `k`th field of `w` bits. -/
def field (w : Nat) (bs : List UInt8) (k : Nat) : Nat := value bs / (2 ^ w) ^ k % 2 ^ w

/-- The bytes hold these fields of `w` bits, and nothing behind them. -/
structure Packs (w : Nat) (bs : List UInt8) (fs : List Nat) : Prop where
  fits : ∀ f ∈ fs, f < 2 ^ w
  value_eq : value bs = Nat.ofDigits (2 ^ w) fs

theorem value_snoc (bs : List UInt8) (b : UInt8) : value (bs ++ [b]) = value bs + 256 ^ bs.length * b.toNat := by
  unfold value
  rw [List.map_append, Nat.ofDigits_append, List.length_map]
  simp only [List.map_cons, List.map_nil, Nat.ofDigits_singleton]

theorem value_append (bs bs' : List UInt8) : value (bs ++ bs') = value bs + 256 ^ bs.length * value bs' := by
  unfold value
  rw [List.map_append, Nat.ofDigits_append, List.length_map]

/-- Only the bytes that a field lies in decide it. -/
theorem field_append {k : Nat} (h : (k + 1) * w ≤ 8 * bs.length) : field w (bs ++ bs') k = field w bs k := by
  unfold field
  rw [value_append]
  have hpow : 256 ^ bs.length = (2 ^ w) ^ k * (2 ^ w * 2 ^ (8 * bs.length - (k + 1) * w)) := by
    rw [← pow_mul, ← pow_add, ← pow_add, show (256 : Nat) = 2 ^ 8 from rfl, ← pow_mul]
    congr 1
    have : w * k + w = (k + 1) * w := by ring
    omega
  rw [hpow, Nat.mul_assoc, Nat.add_mul_div_left _ _ (by positivity), Nat.mul_assoc, Nat.add_mul_mod_self_left]

namespace Packs

/-- What was packed is read back. -/
theorem field (h : Packs w bs fs) {k : Nat} (hk : k < fs.length) : Packed.field w bs k = fs[k] := by
  have hpos : 0 < 2 ^ w := by positivity
  have hlt : fs[k] < 2 ^ w := h.fits _ (List.getElem_mem hk)
  unfold Packed.field
  rw [h.value_eq, Nat.ofDigits_div_pow_eq_ofDigits_drop k hpos fs h.fits, List.drop_eq_getElem_cons hk, Nat.ofDigits_cons,
    Nat.add_mul_mod_self_left]
  exact Nat.mod_eq_of_lt hlt

/-- All fields, in order. -/
theorem fields (h : Packs w bs fs) : (List.range fs.length).map (Packed.field w bs) = fs := by
  refine List.ext_getElem (by simp) fun k _ hk => ?_
  rw [List.getElem_map, List.getElem_range, h.field hk]

theorem start : Packs w [0] [] := ⟨fun _ h => absurd h (List.not_mem_nil), rfl⟩

/-- The next byte is cleared. -/
theorem clear (h : Packs w bs fs) : Packs w (bs ++ [0]) fs := by
  refine ⟨h.fits, ?_⟩
  rw [value_snoc, h.value_eq]
  rfl

theorem value_lt_pow (h : Packs w bs fs) (hw : 0 < w) : value bs < 2 ^ (w * fs.length) := by
  rw [h.value_eq, pow_mul]
  exact Nat.ofDigits_lt_base_pow_length (Nat.one_lt_two_pow (by omega)) h.fits

/-- A field is put behind the others: the bits that the last byte has left, and the rest in the byte that follows. -/
theorem snoc {b l u : UInt8} {r v : Nat} (h : Packs w (bs ++ [b]) fs) (hw : 0 < w)
    (hbits : w * fs.length = 8 * bs.length + r) (hr : r ≤ 8) (hv : v < 2 ^ w)
    (hl : l.toNat = v * 2 ^ r % 256) (hu : u.toNat = v * 2 ^ r / 256) :
    Packs w (bs ++ [b ||| l] ++ [u]) (fs ++ [v]) := by
  have hsplit : (256 : Nat) = 2 ^ r * 2 ^ (8 - r) := by
    rw [← pow_add, show (256 : Nat) = 2 ^ 8 from rfl]
    congr 1
    omega
  -- the bits of the last byte that are in use
  have hb : b.toNat < 2 ^ r := by
    have hlt := h.value_lt_pow hw
    rw [value_snoc, hbits, pow_add, pow_mul] at hlt
    have hlt' : 256 ^ bs.length * b.toNat < 256 ^ bs.length * 2 ^ r := by
      refine Nat.lt_of_le_of_lt (Nat.le_add_left _ (value bs)) hlt
    exact Nat.lt_of_mul_lt_mul_left hlt'
  have hl' : l.toNat = 2 ^ r * (v % 2 ^ (8 - r)) := by
    rw [hl, Nat.mul_comm v, hsplit, Nat.mul_mod_mul_left]
  have hor : (b ||| l).toNat = b.toNat + l.toNat := by
    rw [UInt8.toNat_or, hl', Nat.or_comm, ← Nat.two_pow_add_eq_or_of_lt hb, Nat.add_comm]
  have hsum : l.toNat + 256 * u.toNat = v * 2 ^ r := by
    rw [hl, hu]
    exact Nat.mod_add_div _ _
  constructor
  · intro f hf
    rcases List.mem_append.1 hf with hf | hf
    · exact h.fits f hf
    · rw [List.mem_singleton.1 hf]
      exact hv
  · have hvalue := h.value_eq
    rw [value_snoc] at hvalue
    rw [value_snoc, value_snoc, hor, Nat.ofDigits_append, Nat.ofDigits_singleton, ← hvalue, ← pow_mul, hbits,
      List.length_append, List.length_singleton, pow_succ, pow_add 2 (8 * bs.length), pow_mul 2 8,
      show (2 : Nat) ^ 8 = 256 from rfl]
    calc value bs + 256 ^ bs.length * (b.toNat + l.toNat) + 256 ^ bs.length * 256 * u.toNat
        = value bs + 256 ^ bs.length * b.toNat + 256 ^ bs.length * (l.toNat + 256 * u.toNat) := by ring
      _ = value bs + 256 ^ bs.length * b.toNat + 256 ^ bs.length * 2 ^ r * v := by rw [hsum]; ring

end Packs

end Netrek.Lib.Packed
