/-
Dividing a list in two: by the bits of a number, or by a function of its entries. The even division of least difference,
and of least cost among those, is found by trying all numbers one after another.
-/
import Mathlib

namespace Netrek.Lib

variable {α β ι κ : Type}

/-! ## The first of the best -/

section Scan

variable [LinearOrder κ] (key : β → κ)

/-- A candidate replaces the best so far if it is better. -/
def keepBest (best : β) : Option β → β
  | none => best
  | some c => if key c < key best then c else best

/-- The best of a start and the candidates of a list. -/
def scanBest (candidate : ι → Option β) (best : β) (l : List ι) : β :=
  l.foldl (fun best i => keepBest key best (candidate i)) best

theorem keepBest_some (best c : β) : keepBest key best (some c) = if key c < key best then c else best := rfl

theorem scanBest_cons (candidate : ι → Option β) (best : β) (i : ι) (l : List ι) :
    scanBest key candidate best (i :: l) = scanBest key candidate (keepBest key best (candidate i)) l := rfl

theorem keepBest_le (best : β) (c : Option β) : key (keepBest key best c) ≤ key best := by
  cases c with
  | none => exact le_refl _
  | some c =>
    rw [keepBest_some]
    split_ifs with h
    · exact h.le
    · exact le_refl _

theorem keepBest_le_some (best c : β) : key (keepBest key best (some c)) ≤ key c := by
  rw [keepBest_some]
  split_ifs with h
  · exact le_refl _
  · exact not_lt.mp h

theorem scanBest_le (candidate : ι → Option β) (best : β) (l : List ι) :
    key (scanBest key candidate best l) ≤ key best := by
  induction l generalizing best with
  | nil => exact le_refl _
  | cons i l ih => exact (ih _).trans (keepBest_le key best (candidate i))

/-- No candidate is better than the one kept. -/
theorem scanBest_least {candidate : ι → Option β} {l : List ι} {i : ι} {c : β} (hi : i ∈ l) (hc : candidate i = some c)
    (best : β) : key (scanBest key candidate best l) ≤ key c := by
  induction l generalizing best with
  | nil => cases hi
  | cons j l ih =>
    rw [scanBest_cons]
    rcases List.mem_cons.mp hi with rfl | hi
    · rw [hc]
      exact (scanBest_le key candidate _ l).trans (keepBest_le_some key best c)
    · exact ih hi _

/-- The best is the one so far, or a candidate. -/
theorem scanBest_mem (candidate : ι → Option β) (best : β) (l : List ι) :
    scanBest key candidate best l = best ∨ ∃ i ∈ l, candidate i = some (scanBest key candidate best l) := by
  induction l generalizing best with
  | nil => exact .inl rfl
  | cons i l ih =>
    rw [scanBest_cons]
    rcases ih (keepBest key best (candidate i)) with heq | ⟨j, hj, hcand⟩
    · rw [heq]
      cases hc : candidate i with
      | none => exact .inl rfl
      | some c =>
        rw [keepBest_some]
        split_ifs
        · exact .inr ⟨i, List.mem_cons_self, hc⟩
        · exact .inl rfl
    · exact .inr ⟨j, List.mem_cons_of_mem _ hj, hcand⟩

/-- If a candidate is better than the start, one of the candidates is kept. -/
theorem scanBest_candidate {candidate : ι → Option β} {l : List ι} {i : ι} {c best : β} (hi : i ∈ l)
    (hc : candidate i = some c) (hlt : key c < key best) :
    ∃ j ∈ l, candidate j = some (scanBest key candidate best l) := by
  rcases scanBest_mem key candidate best l with heq | hmem
  · have hle := scanBest_least key hi hc best
    rw [heq] at hle
    exact absurd hlt (not_lt.mpr hle)
  · exact hmem

end Scan

/-! ## Divisions by the bits of a number -/

/-- The entries whose bits in `i` are `b`. -/
def side (i : Nat) (b : Bool) (l : List α) : List α := (l.zipIdx.filter fun x => i.testBit x.2 == b).map Prod.fst

/-- A number divides a list as a function does. -/
def Divides (i : Nat) (f : α → Bool) (l : List α) : Prop := ∀ x ∈ l.zipIdx, i.testBit x.2 = f x.1

variable {i : Nat} {f : α → Bool} {l : List α}

theorem Divides.side_eq (h : Divides i f l) (b : Bool) : side i b l = l.filter fun x => f x == b := by
  have hcongr : l.zipIdx.filter (fun x => i.testBit x.2 == b) = l.zipIdx.filter (fun x => f x.1 == b) :=
    List.filter_congr fun x hx => by rw [h x hx]
  rw [side, hcongr]
  conv_rhs => rw [← List.zipIdx_map_fst 0 l, List.filter_map]
  rfl

/-- Every function divides as some number of as many bits as the list has entries. -/
theorem exists_divides (f : α → Bool) (l : List α) : ∃ i < 2 ^ l.length, Divides i f l := by
  refine ⟨Nat.ofBits fun j : Fin l.length => f l[j], Nat.ofBits_lt_two_pow _, ?_⟩
  intro x hx
  obtain ⟨hlt, heq⟩ := List.mem_zipIdx' hx
  rw [Nat.testBit_ofBits_lt _ _ hlt, heq]
  rfl

/-- Every number divides a list without duplicates as the function that finds the bit of an entry. -/
theorem divides_idxOf [DecidableEq α] (hl : l.Nodup) (i : Nat) : Divides i (fun x => i.testBit (l.idxOf x)) l := by
  intro x hx
  obtain ⟨hlt, heq⟩ := List.mem_zipIdx' hx
  show _ = i.testBit (l.idxOf x.1)
  rw [heq, hl.idxOf_getElem]

/-! ## Even divisions -/

/-- By how many entries the two parts differ. -/
def sizeGap (f : α → Bool) (l : List α) : Int :=
  |((l.filter fun x => f x == true).length : Int) - (l.filter fun x => f x == false).length|

/-- By how much the totals of the two parts differ. -/
def valueGap (value : α → Int) (f : α → Bool) (l : List α) : Int :=
  |((l.filter fun x => f x == true).map value).sum - ((l.filter fun x => f x == false).map value).sum|

/-- How many entries are not where they were. -/
def moves (home : α → Bool → Bool) (f : α → Bool) (l : List α) : Nat := l.countP fun x => !home x (f x)

/-- An even division of least difference, with the fewest moves among those of that difference. -/
structure Optimal (value : α → Int) (home : α → Bool → Bool) (l : List α) (f : α → Bool) : Prop where
  even : sizeGap f l ≤ 1
  least : ∀ g, sizeGap g l ≤ 1 → valueGap value f l ≤ valueGap value g l
  fewest : ∀ g, sizeGap g l ≤ 1 → valueGap value g l = valueGap value f l → moves home f l ≤ moves home g l

section Divisions

variable {l' : List α} {value : α → Int} {home : α → Bool → Bool}

theorem Divides.sizeGap_eq (h : Divides i f l) :
    sizeGap f l = |((side i true l).length : Int) - (side i false l).length| := by
  rw [h.side_eq, h.side_eq, sizeGap]

theorem Divides.valueGap_eq (h : Divides i f l) :
    valueGap value f l = |((side i true l).map value).sum - ((side i false l).map value).sum| := by
  rw [h.side_eq, h.side_eq, valueGap]

theorem Divides.moves_eq (h : Divides i f l) :
    moves home f l =
      (side i true l).countP (fun x => !home x true) + (side i false l).countP (fun x => !home x false) := by
  rw [h.side_eq, h.side_eq, moves]
  simp only [beq_true, beq_false]
  clear h
  induction l with
  | nil => rfl
  | cons x l ih =>
    cases hx : f x
    · simp [hx, List.countP_cons, ih, Nat.add_assoc]
    · simp [hx, List.countP_cons, ih, Nat.add_right_comm]

theorem sizeGap_perm (h : l.Perm l') (f : α → Bool) : sizeGap f l = sizeGap f l' := by
  rw [sizeGap, sizeGap, (h.filter _).length_eq, (h.filter _).length_eq]

theorem valueGap_perm (h : l.Perm l') (f : α → Bool) : valueGap value f l = valueGap value f l' := by
  rw [valueGap, valueGap, ((h.filter _).map _).sum_eq, ((h.filter _).map _).sum_eq]

theorem moves_perm (h : l.Perm l') (f : α → Bool) : moves home f l = moves home f l' := h.countP_eq _

theorem Optimal.perm (h : l.Perm l') (ho : Optimal value home l f) : Optimal value home l' f where
  even := by
    rw [← sizeGap_perm h]
    exact ho.even
  least g hg := by
    rw [← valueGap_perm h, ← valueGap_perm h]
    exact ho.least g (by rw [sizeGap_perm h]; exact hg)
  fewest g hg heq := by
    rw [← moves_perm h, ← moves_perm h]
    rw [← valueGap_perm h, ← valueGap_perm h] at heq
    exact ho.fewest g (by rw [sizeGap_perm h]; exact hg) heq

theorem sizeGap_map (e : β → α) (f : α → Bool) (l : List β) : sizeGap f (l.map e) = sizeGap (fun x => f (e x)) l := by
  simp only [sizeGap, List.filter_map, List.length_map]
  rfl

theorem valueGap_map (e : β → α) (f : α → Bool) (l : List β) :
    valueGap value f (l.map e) = valueGap (fun x => value (e x)) (fun x => f (e x)) l := by
  simp only [valueGap, List.filter_map, List.map_map]
  rfl

theorem moves_map (e : β → α) (f : α → Bool) (l : List β) :
    moves home f (l.map e) = moves (fun x => home (e x)) (fun x => f (e x)) l := by
  simp only [moves, List.countP_map]
  rfl

/-- Of a list of records, each of an entry that it names. -/
theorem Optimal.of_map {e : β → α} {name : α → β} (hname : ∀ x, name (e x) = x) {l : List β}
    (h : Optimal value home (l.map e) f) :
    Optimal (fun x => value (e x)) (fun x => home (e x)) l fun x => f (e x) := by
  have hback (g : β → Bool) : (fun x => (fun a => g (name a)) (e x)) = g := funext fun x => congrArg g (hname x)
  refine ⟨by rw [← sizeGap_map]; exact h.even, fun g hg => ?_, fun g hg heq => ?_⟩
  · have hle := h.least (fun a => g (name a)) (by rw [sizeGap_map, hback]; exact hg)
    rwa [valueGap_map, valueGap_map, hback] at hle
  · have hle := h.fewest (fun a => g (name a)) (by rw [sizeGap_map, hback]; exact hg)
      (by rw [valueGap_map, valueGap_map, hback]; exact heq)
    rwa [moves_map, moves_map, hback] at hle

/-- Half of a list without duplicates is an even division. -/
theorem exists_even [DecidableEq α] (hl : l.Nodup) : ∃ f, sizeGap f l ≤ 1 := by
  let half := l.take (l.length / 2)
  let rest := l.drop (l.length / 2)
  have happ : l = half ++ rest := (List.take_append_drop _ l).symm
  have hdisj : half.Disjoint rest := List.disjoint_of_nodup_append (happ ▸ hl)
  have hone : (l.filter fun x => decide (x ∈ half) == true) = half := by
    simp only [beq_true]
    rw [happ, List.filter_append, List.filter_eq_self.mpr (by simp),
      List.filter_eq_nil_iff.mpr (fun x hx => by simpa using fun hh => hdisj hh hx), List.append_nil]
  have htwo : (l.filter fun x => decide (x ∈ half) == false) = rest := by
    simp only [beq_false]
    rw [happ, List.filter_append, List.filter_eq_nil_iff.mpr (by simp),
      List.filter_eq_self.mpr (fun x hx => by simpa using fun hh => hdisj hh hx), List.nil_append]
  refine ⟨fun x => decide (x ∈ half), ?_⟩
  rw [sizeGap, hone, htwo, List.length_take, List.length_drop, abs_le]
  omega

theorem sum_filter_add (value : α → Int) (f : α → Bool) (l : List α) :
    ((l.filter fun x => f x == true).map value).sum + ((l.filter fun x => f x == false).map value).sum =
      (l.map value).sum := by
  simp only [beq_true, beq_false]
  induction l with
  | nil => rfl
  | cons x l ih =>
    rw [List.map_cons, List.sum_cons, ← ih]
    cases hx : f x
    · simp [hx, Int.add_left_comm]
    · simp [hx, Int.add_assoc]

/-- Two parts of values that are not negative differ by no more than there is. -/
theorem valueGap_le_sum (hvalue : ∀ x ∈ l, 0 ≤ value x) (f : α → Bool) : valueGap value f l ≤ (l.map value).sum := by
  have hpart (b : Bool) : 0 ≤ ((l.filter fun x => f x == b).map value).sum := by
    refine List.sum_nonneg fun v hv => ?_
    obtain ⟨x, hx, rfl⟩ := List.mem_map.mp hv
    exact hvalue x (List.mem_of_mem_filter hx)
  have hone := hpart true
  have htwo := hpart false
  rw [← sum_filter_add value f l, valueGap, abs_le]
  omega

/-- An even division that is as good as that by any number is optimal. -/
theorem Optimal.of_divides (heven : sizeGap f l ≤ 1)
    (hleast : ∀ j < 2 ^ l.length, ∀ g, Divides j g l → sizeGap g l ≤ 1 →
      toLex (valueGap value f l, moves home f l) ≤ toLex (valueGap value g l, moves home g l)) :
    Optimal value home l f := by
  have hkey (g : α → Bool) (hg : sizeGap g l ≤ 1) : valueGap value f l < valueGap value g l ∨
      valueGap value f l = valueGap value g l ∧ moves home f l ≤ moves home g l := by
    obtain ⟨j, hj, hdiv⟩ := exists_divides g l
    exact Prod.Lex.toLex_le_toLex.mp (hleast j hj g hdiv hg)
  refine ⟨heven, fun g hg => ?_, fun g hg heq => ?_⟩
  · rcases hkey g hg with hlt | ⟨heq, -⟩
    · exact hlt.le
    · exact heq.le
  · rcases hkey g hg with hlt | ⟨-, hle⟩
    · exact absurd heq hlt.ne'
    · exact hle

end Divisions

end Netrek.Lib
