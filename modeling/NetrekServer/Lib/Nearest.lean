/-
The nearest of some things, looked for in order. One is taken if it is strictly nearer than the one
taken before, but not if it lies outside the box whose half side is the whole distance of that one.
The squares of distances are kept modulo a limit.
-/
import Mathlib.Data.List.Induction
import Mathlib.Data.List.Pairwise
import Mathlib.Data.Nat.Sqrt
import Mathlib.Order.Lattice
import Mathlib.Tactic.Common

namespace Netrek.Lib

/-- Things at a distance: its square, and the larger of the offsets along the axes. -/
structure Scene (α : Type) where
  sq : α → Nat
  reach : α → Nat
  reach_le : ∀ a, reach a * reach a ≤ sq a
  limit : Nat

namespace Scene

variable {α : Type} (s : Scene α)

/-- The distance as a whole number. -/
def whole (a : α) : Nat := (s.sq a).sqrt

/-- What is kept of the square. -/
def kept (a : α) : Nat := s.sq a % s.limit

/-- The square is kept as it is. -/
def Fits (a : α) : Prop := s.sq a < s.limit

/-- One more thing is looked at. -/
def look (best : Option α) (a : α) : Option α :=
  match best with
  | none => some a
  | some b => if s.reach a < (s.kept b).sqrt ∧ s.kept a < s.kept b then some a else some b

def seek (l : List α) : Option α := l.foldl s.look none

theorem seek_append (s : Scene α) (l : List α) (a : α) : s.seek (l ++ [a]) = s.look (s.seek l) a := by
  unfold seek
  rw [List.foldl_append]
  rfl

theorem kept_of_fits {s : Scene α} {a : α} (h : s.Fits a) : s.kept a = s.sq a := Nat.mod_eq_of_lt h

theorem reach_le_whole (s : Scene α) (a : α) : s.reach a ≤ s.whole a := Nat.le_sqrt.2 (s.reach_le a)

theorem sq_lt_of_whole_lt {s : Scene α} {a c : α} (h : s.whole a < s.whole c) : s.sq a < s.sq c := by
  by_contra hge
  exact absurd (Nat.sqrt_le_sqrt (Nat.le_of_not_lt hge)) (Nat.not_le_of_lt h)

/-! ## What is taken -/

section Order

variable [LinearOrder α]

/-- A thing whose square does not fit has one before it that keeps it out of the box. -/
def Sheltered (l : List α) : Prop := ∀ a ∈ l, ¬ s.Fits a → ∃ k ∈ l, k < a ∧ s.Fits k ∧ s.whole k ≤ s.reach a

/-- The first of its whole distance, if none before is nearer, or well inside its box. -/
def Contends (l : List α) (a : α) : Prop := (∀ k ∈ l, k < a → s.Fits k → s.whole a < s.whole k) ∨ s.reach a < s.whole a

/-- Of the things of least whole distance, the nearest that contends, and the first of these. -/
structure Chosen (l : List α) (c : α) : Prop where
  mem : c ∈ l
  fits : s.Fits c
  least : ∀ k ∈ l, s.Fits k → s.whole c ≤ s.whole k
  contends : s.Contends l c
  nearest : ∀ k ∈ l, s.Fits k → s.whole k = s.whole c → s.Contends l k → s.sq c < s.sq k ∨ s.sq c = s.sq k ∧ c ≤ k

variable {s} {l : List α} {a c : α}

/-- Only one is chosen. -/
theorem Chosen.unique {c' : α} (h : s.Chosen l c) (h' : s.Chosen l c') : c = c' := by
  have hw : s.whole c = s.whole c' := Nat.le_antisymm (h.least c' h'.mem h'.fits) (h'.least c h.mem h.fits)
  rcases h.nearest c' h'.mem h'.fits hw.symm h'.contends with hlt | ⟨heq, hle⟩
  · rcases h'.nearest c h.mem h.fits hw h.contends with hlt' | ⟨heq', -⟩ <;> omega
  · rcases h'.nearest c h.mem h.fits hw h.contends with hlt' | ⟨-, hle'⟩
    · omega
    · exact le_antisymm hle hle'

theorem Sheltered.init (hl : ∀ k ∈ l, k < a) (h : s.Sheltered (l ++ [a])) : s.Sheltered l := by
  intro x hx hf
  obtain ⟨k, hk, hkx, hfit, hr⟩ := h x (List.mem_append_left _ hx) hf
  rcases List.mem_append.1 hk with hk | hk
  · exact ⟨k, hk, hkx, hfit, hr⟩
  · rw [List.mem_singleton.1 hk] at hkx
    exact absurd (hkx.trans (hl x hx)) (lt_irrefl a)

/-- Whether a thing contends does not depend on later ones. -/
theorem contends_append {k : α} (hl : ∀ k ∈ l, k < a) (hk : k ∈ l) : s.Contends (l ++ [a]) k ↔ s.Contends l k := by
  have hlater (x : α) (hx : x ∈ l ++ [a]) (hxk : x < k) : x ∈ l := by
    rcases List.mem_append.1 hx with hx | hx
    · exact hx
    · rw [List.mem_singleton.1 hx] at hxk
      exact absurd (hxk.trans (hl k hk)) (lt_irrefl a)
  constructor
  · rintro (h | h)
    · exact .inl fun x hx => h x (List.mem_append_left _ hx)
    · exact .inr h
  · rintro (h | h)
    · exact .inl fun x hx hxk => h x (hlater x hx hxk) hxk
    · exact .inr h

/-- What was chosen stays so, if the next thing does not fit, is not nearer, or lies outside the box. -/
theorem Chosen.stays (h : s.Chosen l c) (hl : ∀ k ∈ l, k < a)
    (ha : s.Fits a → ¬ (s.reach a < s.whole c ∧ s.sq a < s.sq c)) : s.Chosen (l ++ [a]) c := by
  have hleast (hf : s.Fits a) : s.whole c ≤ s.whole a := by
    by_contra hlt
    have hlt := Nat.lt_of_not_le hlt
    exact ha hf ⟨Nat.lt_of_le_of_lt (s.reach_le_whole a) hlt, sq_lt_of_whole_lt hlt⟩
  refine ⟨List.mem_append_left _ h.mem, h.fits, ?_, (contends_append hl h.mem).2 h.contends, ?_⟩
  · intro k hk hf
    rcases List.mem_append.1 hk with hk | hk
    · exact h.least k hk hf
    · rw [List.mem_singleton.1 hk] at hf ⊢
      exact hleast hf
  · intro k hk hf hw hc
    rcases List.mem_append.1 hk with hk | hk
    · exact h.nearest k hk hf hw ((contends_append hl hk).1 hc)
    · rw [List.mem_singleton.1 hk] at hf hw hc ⊢
      rcases hc with hfirst | hin
      -- the one chosen comes before and is as near
      · have := hfirst c (List.mem_append_left _ h.mem) (hl c h.mem) h.fits
        omega
      · have hge : ¬ s.sq a < s.sq c := fun hlt => ha hf ⟨by omega, hlt⟩
        rcases Nat.lt_or_eq_of_le (Nat.le_of_not_lt hge) with hlt | heq
        · exact .inl hlt
        · exact .inr ⟨heq, (hl c h.mem).le⟩

/-- A nearer thing inside the box is chosen instead. -/
theorem Chosen.replace (h : s.Chosen l c) (hl : ∀ k ∈ l, k < a) (hf : s.Fits a) (hr : s.reach a < s.whole c)
    (hlt : s.sq a < s.sq c) : s.Chosen (l ++ [a]) a := by
  have hle : s.whole a ≤ s.whole c := Nat.sqrt_le_sqrt hlt.le
  refine ⟨List.mem_append_right _ (List.mem_singleton_self a), hf, ?_, ?_, ?_⟩
  · intro k hk hfk
    rcases List.mem_append.1 hk with hk | hk
    · exact hle.trans (h.least k hk hfk)
    · rw [List.mem_singleton.1 hk]
  · rcases Nat.lt_or_eq_of_le hle with hw | hw
    · refine .inl fun k hk hka hfk => ?_
      rcases List.mem_append.1 hk with hk | hk
      · exact Nat.lt_of_lt_of_le hw (h.least k hk hfk)
      · rw [List.mem_singleton.1 hk] at hka
        exact absurd hka (lt_irrefl a)
    · exact .inr (hw ▸ hr)
  · intro k hk hfk hw hc
    rcases List.mem_append.1 hk with hk | hk
    · have hck := h.least k hk hfk
      have hwc : s.whole k = s.whole c := by omega
      rcases h.nearest k hk hfk hwc ((contends_append hl hk).1 hc) with hn | ⟨hn, -⟩ <;> exact .inl (by omega)
    · rw [List.mem_singleton.1 hk]
      exact .inr ⟨rfl, le_rfl⟩

/-- What is found among things in order: nothing if there is nothing, otherwise what is chosen. -/
theorem seek_spec (hl : l.Pairwise (· < ·)) (hs : s.Sheltered l) :
    (l = [] ∧ s.seek l = none) ∨ ∃ c, s.seek l = some c ∧ s.Chosen l c := by
  induction l using List.reverseRecOn with
  | nil => exact .inl ⟨rfl, rfl⟩
  | append_singleton l a ih =>
    right
    obtain ⟨hl, -, hla⟩ := List.pairwise_append.1 hl
    have hla : ∀ k ∈ l, k < a := fun k hk => hla k hk a (List.mem_singleton_self a)
    rw [seek_append]
    rcases ih hl (hs.init hla) with ⟨rfl, hnone⟩ | ⟨c, hc, hchosen⟩
    · rw [hnone]
      refine ⟨a, rfl, List.mem_singleton_self a, ?_, ?_, ?_, ?_⟩
      · by_contra hf
        obtain ⟨k, hk, hka, -⟩ := hs a (List.mem_singleton_self a) hf
        rw [List.mem_singleton.1 hk] at hka
        exact lt_irrefl a hka
      · intro k hk _
        rw [List.mem_singleton.1 hk]
      · refine .inl fun k hk hka => ?_
        rw [List.mem_singleton.1 hk] at hka
        exact absurd hka (lt_irrefl a)
      · intro k hk _ _ _
        rw [List.mem_singleton.1 hk]
        exact .inr ⟨rfl, le_rfl⟩
    · rw [hc]
      have hkc : s.kept c = s.sq c := kept_of_fits hchosen.fits
      show ∃ b, (if s.reach a < (s.kept c).sqrt ∧ s.kept a < s.kept c then some a else some c) = some b ∧ _
      rw [hkc]
      by_cases hf : s.Fits a
      · rw [kept_of_fits hf]
        by_cases ht : s.reach a < s.whole c ∧ s.sq a < s.sq c
        · exact ⟨a, if_pos ht, hchosen.replace hla hf ht.1 ht.2⟩
        · exact ⟨c, if_neg ht, hchosen.stays hla fun _ => ht⟩
      -- one before keeps it out
      · obtain ⟨k, hk, hka, hfk, hr⟩ := hs a (List.mem_append_right _ (List.mem_singleton_self a)) hf
        have hkl : k ∈ l := by
          rcases List.mem_append.1 hk with hk | hk
          · exact hk
          · rw [List.mem_singleton.1 hk] at hka
            exact absurd hka (lt_irrefl a)
        have hout := (hchosen.least k hkl hfk).trans hr
        refine ⟨c, if_neg ?_, hchosen.stays hla fun h => absurd h hf⟩
        rintro ⟨hin, -⟩
        exact absurd hin (Nat.not_lt_of_le hout)

end Order

end Scene

end Netrek.Lib
