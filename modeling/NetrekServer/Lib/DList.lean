/-
Doubly linked lists threaded through tables. The cells are of any type `ι`, a table `next` (or
`prev`) maps a cell to a pointer of type `π`, and `ptr` encodes "no cell" and "this cell" as a
pointer. `DList` says that the cells of a list are linked both ways, in order, between `first` and
`last`; appending a cell at the end and unlinking any cell preserve it.
-/
import Mathlib.Data.List.Nodup
import Mathlib.Tactic.Common

namespace Netrek.Lib

variable {ι π : Type} {ptr : Option ι → π}

/-- Following `next` from the pointer `p` visits exactly the cells of the list, then stops. -/
def Follows (ptr : Option ι → π) (next : ι → π) : π → List ι → Prop
  | p, [] => p = ptr none
  | p, i :: l => p = ptr (some i) ∧ Follows ptr next (next i) l

namespace Follows

theorem head {next : ι → π} : ∀ {p : π} {l : List ι}, Follows ptr next p l → p = ptr l.head?
  | _, [], h => h
  | _, _ :: _, h => h.1

/-- The pointer stored in a cell leads to the cell after it. -/
theorem next_eq {next : ι → π} {i : ι} {b : List ι} :
    ∀ {p : π} {a : List ι}, Follows ptr next p (a ++ i :: b) → next i = ptr b.head?
  | _, [], h => h.2.head
  | _, _ :: _, h => next_eq (a := _) h.2

theorem congr {next next' : ι → π} :
    ∀ {p : π} {l : List ι}, (∀ i ∈ l, next' i = next i) → Follows ptr next p l → Follows ptr next' p l
  | _, [], _, h => h
  | p, i :: l, he, h => by
    refine ⟨h.1, ?_⟩
    rw [he i (List.mem_cons_self ..)]
    exact congr (fun j hj => he j (List.mem_cons_of_mem _ hj)) h.2

/-- The cells a pointer leads to are determined by the table. -/
theorem unique (hptr : Function.Injective ptr) {next : ι → π} :
    ∀ {p : π} {l l' : List ι}, Follows ptr next p l → Follows ptr next p l' → l = l'
  | _, [], [], _, _ => rfl
  | _, [], _ :: _, h, h' => by cases hptr (h.symm.trans h'.1)
  | _, _ :: _, [], h, h' => by cases hptr (h'.symm.trans h.1)
  | _, i :: l, j :: l', h, h' => by
    cases hptr (h.1.symm.trans h'.1)
    rw [unique hptr h.2 h'.2]

/-- Redirecting the last cell (or the entry pointer, when there is none) to a new last cell. -/
theorem append [DecidableEq ι] {next next' : ι → π} {i : ι} (hi : next' i = ptr none) :
    ∀ {p p' : π} {l : List ι}, Follows ptr next p l → l.Nodup →
      p' = (if l = [] then ptr (some i) else p) →
      (∀ j ∈ l, next' j = if l.getLast? = some j then ptr (some i) else next j) →
      Follows ptr next' p' (l ++ [i])
  | _, _, [], _, _, hp, _ => ⟨by simpa using hp, hi⟩
  | p, p', c :: l, h, hnd, hp, hn => by
    refine ⟨by simpa [h.1] using hp, append hi h.2 hnd.of_cons ?_ fun j hj => ?_⟩
    · rw [hn c (List.mem_cons_self ..)]
      cases l with
      | nil => simp
      | cons d l =>
        have hne : (c :: d :: l).getLast? ≠ some c := by
          rw [List.getLast?_cons_cons]
          intro hl
          exact (List.nodup_cons.1 hnd).1 (List.mem_of_getLast? hl)
        rw [if_neg hne]; simp
    · rw [hn j (List.mem_cons_of_mem _ hj)]
      cases l with
      | nil => cases hj
      | cons d l => rw [List.getLast?_cons_cons]

/-- Redirecting the cell before `i` (or the entry pointer, when there is none) past `i`. -/
theorem erase [DecidableEq ι] {next next' : ι → π} {i : ι} {b : List ι} :
    ∀ {p p' : π} {a : List ι}, Follows ptr next p (a ++ i :: b) → (a ++ i :: b).Nodup →
      p' = (if a = [] then next i else p) →
      (∀ j ∈ a ++ b, next' j = if a.getLast? = some j then next i else next j) →
      Follows ptr next' p' (a ++ b)
  | _, _, [], h, _, hp, hn => by
    rw [hp, if_pos rfl]
    exact h.2.congr fun j hj => by simpa using hn j hj
  | p, p', c :: a, h, hnd, hp, hn => by
    have hc : c ∉ a ++ i :: b := (List.nodup_cons.1 hnd).1
    refine ⟨by simpa [h.1] using hp, erase h.2 hnd.of_cons ?_ fun j hj => ?_⟩
    · rw [hn c (List.mem_cons_self ..)]
      cases a with
      | nil => simp
      | cons d a =>
        have hne : (c :: d :: a).getLast? ≠ some c := by
          rw [List.getLast?_cons_cons]
          intro hl
          exact hc (List.mem_append_left _ (List.mem_of_getLast? hl))
        rw [if_neg hne]; simp
    · rw [hn j (List.mem_cons_of_mem _ hj)]
      cases a with
      | nil =>
        have hjc : c ≠ j := by
          rintro rfl
          exact hc (List.mem_append_right _ (List.mem_cons_of_mem _ (by simpa using hj)))
        simp [hjc]
      | cons d a => rw [List.getLast?_cons_cons]

/-- Redirecting the last cell of a list to the first of another. -/
theorem join [DecidableEq ι] {next next' : ι → π} :
    ∀ {p p' : π} {l l' : List ι}, Follows ptr next p l → Follows ptr next p' l' → (l ++ l').Nodup → l ≠ [] →
      (∀ j ∈ l ++ l', next' j = if l.getLast? = some j then p' else next j) → Follows ptr next' p (l ++ l')
  | _, _, [], _, _, _, _, hne, _ => absurd rfl hne
  | _, p', [c], l', h, h', hnd, _, hn => by
    refine ⟨h.1, ?_⟩
    rw [hn c (List.mem_cons_self ..), List.getLast?_singleton, if_pos rfl]
    refine h'.congr fun j hj => ?_
    rw [hn j (List.mem_cons_of_mem _ hj), List.getLast?_singleton, if_neg]
    rintro ⟨⟩
    exact (List.nodup_cons.1 hnd).1 hj
  | _, p', c :: d :: l, l', h, h', hnd, _, hn => by
    have hc := (List.nodup_cons.1 hnd).1
    refine ⟨h.1, ?_⟩
    rw [hn c (List.mem_cons_self ..), if_neg]
    · refine join h.2 h' hnd.of_cons (by simp) fun j hj => ?_
      rw [hn j (List.mem_cons_of_mem _ hj), List.getLast?_cons_cons]
    · rw [List.getLast?_cons_cons]
      intro hl
      exact hc (List.mem_append_left _ (List.mem_of_getLast? hl))

end Follows

/-- The cells of `l` are linked in both directions between `first` and `last`. -/
structure DList (ptr : Option ι → π) (next prev : ι → π) (first last : π) (l : List ι) : Prop where
  fwd : Follows ptr next first l
  bwd : Follows ptr prev last l.reverse
  nodup : l.Nodup

namespace DList

variable {next prev next' prev' : ι → π} {first last first' last' : π} {l : List ι}

theorem nil (ptr : Option ι → π) (next prev : ι → π) : DList ptr next prev (ptr none) (ptr none) [] :=
  ⟨rfl, rfl, List.nodup_nil⟩

theorem last_eq (h : DList ptr next prev first last l) : last = ptr l.getLast? := by
  rw [h.bwd.head, List.head?_reverse]

theorem next_eq {a b : List ι} {i : ι} (h : DList ptr next prev first last (a ++ i :: b)) :
    next i = ptr b.head? := h.fwd.next_eq

theorem prev_eq {a b : List ι} {i : ι} (h : DList ptr next prev first last (a ++ i :: b)) :
    prev i = ptr a.getLast? := by
  have hb := h.bwd
  rw [List.reverse_append, List.reverse_cons, List.append_assoc] at hb
  simpa using Follows.next_eq (i := i) (b := a.reverse) (by simpa using hb)

/-- Going back is the inverse of going on. -/
theorem next_iff_prev (hptr : Function.Injective ptr) (h : DList ptr next prev first last l) {i j : ι} (hi : i ∈ l)
    (hj : j ∈ l) : next i = ptr (some j) ↔ prev j = ptr (some i) := by
  constructor
  · intro hn
    obtain ⟨a, b, rfl⟩ := List.append_of_mem hi
    have hb : b.head? = some j := hptr (h.next_eq.symm.trans hn)
    obtain ⟨b, rfl⟩ : ∃ b', b = j :: b' := by
      cases b with
      | nil => cases hb
      | cons k b => cases hb; exact ⟨b, rfl⟩
    have h' : DList ptr next prev first last ((a ++ [i]) ++ j :: b) := by simpa using h
    rw [h'.prev_eq]; simp
  · intro hp
    obtain ⟨a, b, rfl⟩ := List.append_of_mem hj
    have ha : a.getLast? = some i := hptr (h.prev_eq.symm.trans hp)
    obtain ⟨a, rfl⟩ := List.getLast?_eq_some_iff.1 ha
    have h' : DList ptr next prev first last (a ++ i :: j :: b) := by simpa using h
    rw [h'.next_eq]; rfl

/-- A table changed only outside the list. -/
theorem congr (h : DList ptr next prev first last l) (hn : ∀ i ∈ l, next' i = next i)
    (hp : ∀ i ∈ l, prev' i = prev i) : DList ptr next' prev' first last l :=
  ⟨h.fwd.congr hn, h.bwd.congr fun i hi => hp i (List.mem_reverse.1 hi), h.nodup⟩

/-- Appending the cell `i`. -/
theorem append [DecidableEq ι] (h : DList ptr next prev first last l) {i : ι} (hi : i ∉ l)
    (hni : next' i = ptr none) (hpi : prev' i = last)
    (hfirst : first' = if l = [] then ptr (some i) else first) (hlast : last' = ptr (some i))
    (hn : ∀ j ∈ l, next' j = if l.getLast? = some j then ptr (some i) else next j)
    (hp : ∀ j ∈ l, prev' j = prev j) : DList ptr next' prev' first' last' (l ++ [i]) := by
  refine ⟨h.fwd.append hni h.nodup hfirst hn, ?_, ?_⟩
  · rw [List.reverse_append]
    refine ⟨hlast, ?_⟩
    rw [hpi]
    exact h.bwd.congr fun j hj => hp j (List.mem_reverse.1 hj)
  · exact List.nodup_append.2 ⟨h.nodup, List.nodup_singleton _, fun a ha b hb => by
      rw [List.mem_singleton] at hb; subst hb; rintro rfl; exact hi ha⟩

/-- Unlinking the cell `i`. -/
theorem erase [DecidableEq ι] {a b : List ι} {i : ι} (h : DList ptr next prev first last (a ++ i :: b))
    (hfirst : first' = if a = [] then next i else first)
    (hlast : last' = if b = [] then prev i else last)
    (hn : ∀ j ∈ a ++ b, next' j = if a.getLast? = some j then next i else next j)
    (hp : ∀ j ∈ a ++ b, prev' j = if b.head? = some j then prev i else prev j) :
    DList ptr next' prev' first' last' (a ++ b) := by
  have hrev : (a ++ i :: b).reverse = b.reverse ++ i :: a.reverse := by simp
  refine ⟨h.fwd.erase h.nodup hfirst hn, ?_, ?_⟩
  · rw [List.reverse_append]
    have hb := h.bwd
    rw [hrev] at hb
    refine hb.erase (hrev ▸ List.nodup_reverse.2 h.nodup) (by simpa using hlast) fun j hj => ?_
    rw [List.getLast?_reverse]
    exact hp j (by rw [List.mem_append] at hj ⊢; simpa [or_comm] using hj)
  · exact h.nodup.sublist (List.Sublist.append_left (List.sublist_cons_self ..) _)

/-- Appending a list that is not empty to one that is not. -/
theorem join [DecidableEq ι] {l' : List ι} {first₂ last₂ : π} (h : DList ptr next prev first last l)
    (h₂ : DList ptr next prev first₂ last₂ l') (hl : l ≠ []) (hl' : l' ≠ []) (hnd : (l ++ l').Nodup)
    (hn : ∀ j ∈ l ++ l', next' j = if l.getLast? = some j then first₂ else next j)
    (hp : ∀ j ∈ l ++ l', prev' j = if l'.head? = some j then last else prev j) :
    DList ptr next' prev' first last₂ (l ++ l') := by
  refine ⟨h.fwd.join h₂.fwd hnd hl hn, ?_, hnd⟩
  rw [List.reverse_append]
  refine h₂.bwd.join h.bwd ?_ (by simpa using hl') fun j hj => ?_
  · rw [← List.reverse_append]
    exact List.nodup_reverse.2 hnd
  · rw [List.getLast?_reverse]
    exact hp j (by rw [List.mem_append] at hj ⊢; simpa [or_comm] using hj)

end DList

end Netrek.Lib
