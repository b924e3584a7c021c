/-
Pools of slots. A slot is free or held by an account, and every account keeps a count of the slots
that it holds. A pool is balanced if all counts are right; a slot that changes hands keeps it so when
the counts of both accounts follow.
-/
import Mathlib.Algebra.BigOperators.Group.Finset.Piecewise
import Mathlib.Logic.Function.Basic
import Mathlib.Tactic.Common

namespace Netrek.Lib

/-- Who holds each slot, and how many slots each account counts. -/
structure Pool (ι κ : Type) where
  holder : ι → Option κ
  count : κ → Int

namespace Pool

variable {ι κ : Type} [DecidableEq κ] {slots : Finset ι} {p : Pool ι κ} {i : ι} {a : κ}

/-- The slots that an account holds. -/
def held (p : Pool ι κ) (slots : Finset ι) (a : κ) : Finset ι := slots.filter fun i => p.holder i = some a

/-- Every account counts the slots it holds. -/
def Balanced (slots : Finset ι) (p : Pool ι κ) : Prop := ∀ a, p.count a = (p.held slots a).card

/-- A slot passes to `new`: the account that had it counts one less, the account that gets it one more. -/
def pass [DecidableEq ι] (p : Pool ι κ) (i : ι) (new : Option κ) : Pool ι κ where
  holder := Function.update p.holder i new
  count a := p.count a - (if p.holder i = some a then 1 else 0) + if new = some a then 1 else 0

/-! ## Counting -/

theorem held_card (p : Pool ι κ) (slots : Finset ι) (a : κ) :
    (p.held slots a).card = ∑ i ∈ slots, if p.holder i = some a then 1 else 0 := by
  unfold held
  rw [Finset.card_filter]

theorem held_pass [DecidableEq ι] (hi : i ∈ slots) (new : Option κ) (a : κ) :
    ((p.pass i new).held slots a).card + (if p.holder i = some a then 1 else 0) =
      (p.held slots a).card + if new = some a then 1 else 0 := by
  rw [held_card, held_card, ← Finset.add_sum_erase _ _ hi, ← Finset.add_sum_erase _ _ hi]
  have hrest : ∑ j ∈ slots.erase i, (if (p.pass i new).holder j = some a then 1 else 0) =
      ∑ j ∈ slots.erase i, if p.holder j = some a then 1 else 0 := by
    apply Finset.sum_congr rfl
    intro j hj
    show (if Function.update p.holder i new j = some a then 1 else 0) = _
    rw [Function.update_of_ne (Finset.ne_of_mem_erase hj)]
  have hhead : (p.pass i new).holder i = new := Function.update_self _ _ _
  rw [hrest, hhead]
  omega

/-- Passing a slot on keeps the balance. -/
theorem Balanced.pass [DecidableEq ι] (h : p.Balanced slots) (hi : i ∈ slots) (new : Option κ) : (p.pass i new).Balanced slots := by
  intro a
  have hcard := held_pass (p := p) hi new a
  have hcount : (p.pass i new).count a =
      p.count a - (if p.holder i = some a then 1 else 0) + if new = some a then 1 else 0 := rfl
  rw [hcount, h a]
  by_cases ho : p.holder i = some a <;> by_cases hn : new = some a <;>
    simp only [ho, hn, if_true, if_false] at hcard ⊢ <;> omega

/-! ## Slots reserved for an account -/

/-- An account counts the slots in use of its own block, if it holds no others and nobody else holds these. -/
theorem Balanced.count_block (h : p.Balanced slots) (block : Finset ι) (hsub : block ⊆ slots)
    (hown : ∀ i ∈ block, ∀ b, p.holder i = some b → b = a) (hin : ∀ i ∈ slots, p.holder i = some a → i ∈ block) :
    p.count a = (block.filter fun i => p.holder i ≠ none).card := by
  have hheld : p.held slots a = block.filter fun i => p.holder i ≠ none := by
    ext i
    simp only [held, Finset.mem_filter]
    constructor
    · rintro ⟨hi, ha⟩
      exact ⟨hin i hi ha, by rw [ha]; exact Option.some_ne_none a⟩
    · rintro ⟨hi, hne⟩
      obtain ⟨b, hb⟩ := Option.ne_none_iff_exists'.1 hne
      exact ⟨hsub hi, hown i hi b hb ▸ hb⟩
  rw [h a, hheld]

end Pool

end Netrek.Lib
