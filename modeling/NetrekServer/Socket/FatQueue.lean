/-
The queues of fat UDP are doubly linked lists, and no node is on two of them, as long as no node is updated that is at
an end of a temporary list, and nothing is set up anew while the temporary lists hold nodes.
-/
import Mathlib.Algebra.Order.BigOperators.Group.List
import NetrekServer.Socket.Fat
import NetrekServer.Lib.DList
import NetrekServer.Lib.Run

namespace Netrek.Sending

open Netrek.Lib

/-! ## Links -/

namespace Fat

section Links

variable (s : Fat) (n m : Node) (p q : Option Node) (v w : Place)

@[simp] theorem next_setNextAt : (s.setNextAt p q).next m = if p = some m then q else s.next m := by
  cases p with
  | none => rfl
  | some n =>
    show Function.update s.next n q m = _
    rw [Function.update_apply]
    simp only [Option.some.injEq, eq_comm]

@[simp] theorem prev_setPrevAt : (s.setPrevAt p q).prev m = if p = some m then q else s.prev m := by
  cases p with
  | none => rfl
  | some n =>
    show Function.update s.prev n q m = _
    rw [Function.update_apply]
    simp only [Option.some.injEq, eq_comm]

@[simp] theorem prev_setNextAt : (s.setNextAt p q).prev = s.prev := by cases p <;> rfl
@[simp] theorem list_setNextAt : (s.setNextAt p q).list = s.list := by cases p <;> rfl
@[simp] theorem size_setNextAt : (s.setNextAt p q).size = s.size := by cases p <;> rfl
@[simp] theorem next_setPrevAt : (s.setPrevAt p q).next = s.next := by cases p <;> rfl
@[simp] theorem list_setPrevAt : (s.setPrevAt p q).list = s.list := by cases p <;> rfl
@[simp] theorem size_setPrevAt : (s.setPrevAt p q).size = s.size := by cases p <;> rfl

@[simp] theorem list_setHead : (s.setHead w p).list v = if v = w then ⟨p, (s.list w).tail⟩ else s.list v := by
  show Function.update s.list w _ v = _
  rw [Function.update_apply]

@[simp] theorem list_setTail : (s.setTail w p).list v = if v = w then ⟨(s.list w).head, p⟩ else s.list v := by
  show Function.update s.list w _ v = _
  rw [Function.update_apply]

@[simp] theorem next_setHead : (s.setHead w p).next = s.next := rfl
@[simp] theorem prev_setHead : (s.setHead w p).prev = s.prev := rfl
@[simp] theorem size_setHead : (s.setHead w p).size = s.size := rfl
@[simp] theorem next_setTail : (s.setTail w p).next = s.next := rfl
@[simp] theorem prev_setTail : (s.setTail w p).prev = s.prev := rfl
@[simp] theorem size_setTail : (s.setTail w p).size = s.size := rfl

end Links

end Fat

/-! ## Lists of nodes -/

/-- The lists hold the nodes `q`, from head to tail. -/
structure Queued (s : Fat) (q : Place → List Node) : Prop where
  dlist : ∀ w, DList id s.prev s.next (s.list w).head (s.list w).tail (q w)
  apart : ∀ {w w' : Place} {n : Node}, n ∈ q w → n ∈ q w' → w = w'
  loose : ∀ n, (∀ w, n ∉ q w) → s.next n = none ∧ s.prev n = none
  range : ∀ i, maxFatList ≤ i → q (.fatlist i) = []

namespace Queued

variable {s : Fat} {q : Place → List Node} {w : Place} {n : Node} {a b : List Node}

theorem head_eq (h : Queued s q) (w : Place) : (s.list w).head = (q w).head? := (h.dlist w).fwd.head

theorem tail_eq (h : Queued s q) (w : Place) : (s.list w).tail = (q w).getLast? := (h.dlist w).last_eq

theorem next_eq (h : Queued s q) (hq : q w = a ++ n :: b) : s.next n = a.getLast? := by
  have hd := h.dlist w
  rw [hq] at hd
  exact hd.prev_eq

theorem prev_eq (h : Queued s q) (hq : q w = a ++ n :: b) : s.prev n = b.head? := by
  have hd := h.dlist w
  rw [hq] at hd
  exact hd.next_eq

/-- A list has a head just if it has a tail. The head has no next, the tail no previous node. -/
theorem ends (h : Queued s q) (w : Place) : ((s.list w).head = none ↔ (s.list w).tail = none) ∧
    (∀ n, (s.list w).head = some n → s.next n = none) ∧ ∀ n, (s.list w).tail = some n → s.prev n = none := by
  rw [h.head_eq, h.tail_eq]
  refine ⟨by rw [List.head?_eq_none_iff, List.getLast?_eq_none_iff], fun n hn => ?_, fun n hn => ?_⟩
  · obtain ⟨l, hl⟩ := List.head?_eq_some_iff.mp hn
    exact h.next_eq (a := []) hl
  · obtain ⟨l, hl⟩ := List.getLast?_eq_some_iff.mp hn
    exact h.prev_eq hl

/-- In a list, next and previous are inverse. -/
theorem next_iff_prev (h : Queued s q) {m : Node} (hn : n ∈ q w) (hm : m ∈ q w) :
    s.prev n = some m ↔ s.next m = some n := (h.dlist w).next_iff_prev Function.injective_id hn hm

/-- The nodes are determined by the lists. -/
theorem unique (h : Queued s q) {q' : Place → List Node} (h' : Queued s q') : q = q' :=
  funext fun w => (h.dlist w).fwd.unique Function.injective_id (h'.dlist w).fwd

theorem lt_of_mem (h : Queued s q) {i : Nat} (hn : n ∈ q (.fatlist i)) : i < maxFatList := by
  by_contra hge
  rw [h.range i (Nat.le_of_not_lt hge)] at hn
  cases hn

end Queued

theorem find_only {p : Nat → Bool} {i : Nat} (hi : i < maxFatList) (hp : p i = true) (honly : ∀ j, p j = true → j = i) :
    (List.range maxFatList).find? p = some i := by
  cases hf : (List.range maxFatList).find? p with
  | none => exact absurd hp (List.find?_eq_none.mp hf i (List.mem_range.mpr hi))
  | some j => rw [honly j (List.find?_some hf)]

/-! ## Removal -/

/-- The node `n` is taken out of the list `w` between `a` and `b`. -/
structure Unlinked (s s' : Fat) (w : Place) (a : List Node) (n : Node) (b : List Node) : Prop where
  next : ∀ m, s'.next m = if m = n then none else if b.head? = some m then a.getLast? else s.next m
  prev : ∀ m, s'.prev m = if m = n then none else if a.getLast? = some m then b.head? else s.prev m
  list : ∀ v, s'.list v = if v = w then ⟨if a = [] then b.head? else (s.list w).head,
    if b = [] then a.getLast? else (s.list w).tail⟩ else s.list v
  size : s'.size = s.size

section Removal

variable {s : Fat} {q : Place → List Node} {w : Place} {n : Node} {a b : List Node}

/-- A list is linked when one of its nodes is out. -/
theorem Queued.unlinked (h : Queued s q) (hq : q w = a ++ n :: b) {s' : Fat} (hu : Unlinked s s' w a n b) :
    Queued s' (Function.update q w (a ++ b)) := by
  -- the node is on the list once, so the rest does not have it
  have hd := h.dlist w
  rw [hq] at hd
  have hn : n ∉ a ++ b := (List.nodup_cons.mp (List.nodup_middle.mp hd.nodup)).1
  have hne {m : Node} (hm : m ∈ a ++ b) : m ≠ n := by
    rintro rfl
    exact hn hm
  have hin {m : Node} (hm : m ∈ a ++ b) : m ∈ q w := by
    rw [hq]
    rcases List.mem_append.mp hm with hl | hr
    · exact List.mem_append_left _ hl
    · exact List.mem_append_right _ (List.mem_cons_of_mem _ hr)
  have hlast {m : Node} (hm : a.getLast? = some m) : m ∈ q w := hin (List.mem_append_left _ (List.mem_of_getLast? hm))
  have hhead {m : Node} (hm : b.head? = some m) : m ∈ q w := hin (List.mem_append_right _ (List.mem_of_head? hm))
  -- no list has gained a node
  have hsub {v : Place} {m : Node} (hm : m ∈ Function.update q w (a ++ b) v) : m ∈ q v := by
    rw [Function.update_apply] at hm
    split at hm
    · next hv =>
      rw [hv]
      exact hin hm
    · exact hm
  have hnw : n ∈ q w := by
    rw [hq]
    exact List.mem_append_right _ List.mem_cons_self
  refine ⟨fun v => ?_, fun hm hm' => h.apart (hsub hm) (hsub hm'), fun m hm => ?_, fun i hi => ?_⟩
  · rw [hu.list, Function.update_apply]
    -- the list that lost the node: its neighbours now point at each other
    split
    · next hv =>
      subst hv
      refine hd.erase ?_ ?_ (fun m hm => ?_) fun m hm => ?_
      · rw [h.prev_eq hq]
      · rw [h.next_eq hq]
      · rw [hu.prev, if_neg (hne hm), h.prev_eq hq]
      · rw [hu.next, if_neg (hne hm), h.next_eq hq]
    · next hv =>
      -- any other list shares no node with it, so none of its links were written
      refine (h.dlist v).congr (fun m hm => ?_) fun m hm => ?_
      · rw [hu.prev, if_neg, if_neg]
        · exact fun hl => hv (h.apart hm (hlast hl))
        · rintro rfl
          exact hv (h.apart hm hnw)
      · rw [hu.next, if_neg, if_neg]
        · exact fun hl => hv (h.apart hm (hhead hl))
        · rintro rfl
          exact hv (h.apart hm hnw)
  -- the loose nodes are those of before and `n`, whose links are cleared
  · by_cases hmn : m = n
    · rw [hu.next, hu.prev, if_pos hmn, if_pos hmn]
      exact ⟨rfl, rfl⟩
    · have hout (v : Place) : m ∉ q v := by
        intro hmv
        have hmv' := hm v
        rw [Function.update_apply] at hmv'
        split at hmv'
        · next hv =>
          rw [hv, hq] at hmv
          rcases List.mem_append.mp hmv with hl | hr
          · exact hmv' (List.mem_append_left _ hl)
          · exact hmv' (List.mem_append_right _ (List.mem_of_ne_of_mem hmn hr))
        · exact hmv' hmv
      obtain ⟨hnext, hprev⟩ := h.loose m hout
      rw [hu.next, hu.prev, if_neg hmn, if_neg hmn, if_neg fun hl => hout w (hhead hl), if_neg fun hl => hout w (hlast hl)]
      exact ⟨hnext, hprev⟩
  · rw [Function.update_apply]
    split
    · next hi' =>
      rw [← hi', h.range i hi] at hnw
      cases hnw
    · exact h.range i hi

/-- The first node of a list leaves it by its head. -/
theorem Queued.leaveHead_eq (h : Queued s q) {i : Nat} (hq : q (.fatlist i) = n :: b) :
    s.leaveHead n = (s.setHead (.fatlist i) b.head?).setNextAt b.head? none := by
  have hn : n ∈ q (.fatlist i) := by
    rw [hq]
    exact List.mem_cons_self
  have hfind : ((List.range maxFatList).find? fun j => (s.list (.fatlist j)).head == some n) = some i := by
    refine find_only (h.lt_of_mem hn) ?_ fun j hj => ?_
    · rw [h.head_eq, hq]
      exact beq_self_eq_true _
    · rw [h.head_eq] at hj
      cases h.apart (List.mem_of_head? (eq_of_beq hj)) hn
      rfl
  unfold Fat.leaveHead
  rw [hfind, h.prev_eq (a := []) hq]

/-- The last node of a list leaves it by its tail. -/
theorem Queued.leaveTail_eq (h : Queued s q) {t : Fat} (ht : ∀ v, (t.list v).tail = (s.list v).tail) {i : Nat}
    (hq : q (.fatlist i) = a ++ [n]) :
    t.leaveTail n = (t.setTail (.fatlist i) (t.next n)).setPrevAt (t.next n) none := by
  have hn : n ∈ q (.fatlist i) := by
    rw [hq]
    exact List.mem_append_right _ List.mem_cons_self
  have hfind : ((List.range maxFatList).find? fun j => (t.list (.fatlist j)).tail == some n) = some i := by
    refine find_only (h.lt_of_mem hn) ?_ fun j hj => ?_
    · rw [ht, h.tail_eq, hq, List.getLast?_concat]
      exact beq_self_eq_true _
    · rw [ht, h.tail_eq] at hj
      cases h.apart (List.mem_of_getLast? (eq_of_beq hj)) hn
      rfl
  unfold Fat.leaveTail
  rw [hfind]

/-- A node on a queue, or between others on a temporary list, is taken out. -/
theorem Queued.dequeue_unlinked (h : Queued s q) (hq : q w = a ++ n :: b)
    (hw : (∃ i, w = .fatlist i) ∨ (a ≠ [] ∧ b ≠ [])) : Unlinked s (s.dequeue n) w a n b := by
  have hd := h.dlist w
  rw [hq] at hd
  have hn : n ∉ a ++ b := (List.nodup_cons.mp (List.nodup_middle.mp hd.nodup)).1
  have hlast : a.getLast? ≠ some n := fun hl => hn (List.mem_append_left _ (List.mem_of_getLast? hl))
  have hhead : b.head? ≠ some n := fun hl => hn (List.mem_append_right _ (List.mem_of_head? hl))
  have hnext := h.next_eq hq
  have hprev := h.prev_eq hq
  -- what the first half makes of the lists, and then the second
  obtain ⟨t, ht, htnext, htprev, htlist, htsize⟩ : ∃ t,
      (if s.next n = none then s.leaveHead n else s.setNextAt (s.prev n) (s.next n)) = t ∧
        (∀ m, t.next m = if b.head? = some m then a.getLast? else s.next m) ∧ t.prev = s.prev ∧
        (∀ v, t.list v = if v = w then ⟨if a = [] then b.head? else (s.list w).head, (s.list w).tail⟩ else s.list v) ∧
        t.size = s.size := by
    refine ⟨_, rfl, ?_⟩
    rcases List.eq_nil_or_concat a with rfl | ⟨a', k, rfl⟩
    · obtain ⟨i, rfl⟩ : ∃ i, w = .fatlist i := hw.resolve_right fun hne => hne.1 rfl
      rw [hnext, List.getLast?_nil, if_pos rfl, h.leaveHead_eq hq]
      refine ⟨fun m => ?_, ?_, fun v => ?_, ?_⟩ <;> simp
    · rw [hnext, hprev, List.concat_eq_append, List.getLast?_concat, if_neg nofun]
      refine ⟨fun m => ?_, ?_, fun v => ?_, ?_⟩
      · simp
      · simp
      · rw [Fat.list_setNextAt]
        split
        · next hv => rw [if_neg (by simp), hv]
        · rfl
      · simp
  have htn : t.next n = a.getLast? := by
    rw [htnext, if_neg hhead, hnext]
  have htail (v : Place) : (t.list v).tail = (s.list v).tail := by
    rw [htlist]
    split
    · next hv => rw [hv]
    · rfl
  obtain ⟨u, hu, hunext, huprev, hulist, husize⟩ : ∃ u,
      (if t.prev n = none then t.leaveTail n else t.setPrevAt (t.next n) (t.prev n)) = u ∧ u.next = t.next ∧
        (∀ m, u.prev m = if a.getLast? = some m then b.head? else s.prev m) ∧
        (∀ v, u.list v = if v = w then ⟨(t.list w).head, if b = [] then a.getLast? else (s.list w).tail⟩ else s.list v) ∧
        u.size = s.size := by
    refine ⟨_, rfl, ?_⟩
    cases b with
    | nil =>
      obtain ⟨i, rfl⟩ : ∃ i, w = .fatlist i := hw.resolve_right fun hne => hne.2 rfl
      rw [htprev, hprev, List.head?_nil, if_pos rfl, h.leaveTail_eq htail hq, htn]
      refine ⟨?_, fun m => ?_, fun v => ?_, ?_⟩
      · simp
      · simp [htprev]
      · simp only [Fat.list_setPrevAt, Fat.list_setTail, if_true]
        split
        · rfl
        · next hv => rw [htlist, if_neg hv]
      · simp [htsize]
    | cons k b' =>
      rw [htprev, hprev, List.head?_cons, if_neg nofun, htn]
      refine ⟨?_, fun m => ?_, fun v => ?_, ?_⟩
      · simp
      · simp [htprev]
      · rw [Fat.list_setPrevAt]
        split
        · next hv => rw [if_neg (by simp), hv, ← htail w]
        · next hv => rw [htlist, if_neg hv]
      · simp [htsize]
  have heq : s.dequeue n = (u.setPrev n none).setNext n none := by
    unfold Fat.dequeue
    dsimp only
    rw [ht, hu]
  rw [heq]
  refine ⟨fun m => ?_, fun m => ?_, fun v => ?_, husize⟩
  · show Function.update u.next n none m = _
    rw [Function.update_apply, hunext, htnext]
  · show Function.update u.prev n none m = _
    rw [Function.update_apply, huprev]
  · show u.list v = _
    rw [hulist, htlist w, if_pos rfl]

/-- A node on no list stays so. -/
theorem Queued.dequeue_loose (h : Queued s q) (hn : ∀ w, n ∉ q w) : s.dequeue n = s := by
  obtain ⟨hnext, hprev⟩ := h.loose n hn
  have hhead : ((List.range maxFatList).find? fun i => (s.list (.fatlist i)).head == some n) = none := by
    refine List.find?_eq_none.mpr fun i _ hi => hn (.fatlist i) ?_
    rw [h.head_eq] at hi
    exact List.mem_of_head? (eq_of_beq hi)
  have htail : ((List.range maxFatList).find? fun i => (s.list (.fatlist i)).tail == some n) = none := by
    refine List.find?_eq_none.mpr fun i _ hi => hn (.fatlist i) ?_
    rw [h.tail_eq] at hi
    exact List.mem_of_getLast? (eq_of_beq hi)
  have hleave : s.leaveHead n = s := by
    unfold Fat.leaveHead
    rw [hhead]
  have hleave' : s.leaveTail n = s := by
    unfold Fat.leaveTail
    rw [htail]
  unfold Fat.dequeue
  dsimp only
  rw [if_pos hnext, hleave, if_pos hprev, hleave']
  have hnext' : Function.update s.next n none = s.next := by rw [← hnext, Function.update_eq_self]
  have hprev' : Function.update s.prev n none = s.prev := by rw [← hprev, Function.update_eq_self]
  show { s with prev := Function.update s.prev n none, next := Function.update s.next n none } = s
  rw [hnext', hprev']

/-- `dequeue` takes a node out of whatever list it is on, unless it is at an end of a temporary list. -/
theorem Queued.dequeue (h : Queued s q)
    (hn : ∀ i, (q (.tmplist i)).head? ≠ some n ∧ (q (.tmplist i)).getLast? ≠ some n) :
    Queued (s.dequeue n) (fun w => (q w).erase n) ∧ (s.dequeue n).size = s.size := by
  by_cases hon : ∃ w, n ∈ q w
  · obtain ⟨w, hw⟩ := hon
    obtain ⟨a, b, hab⟩ := List.append_of_mem hw
    have hd := h.dlist w
    rw [hab] at hd
    have hna : n ∉ a ++ b := (List.nodup_cons.mp (List.nodup_middle.mp hd.nodup)).1
    have hplace : (∃ i, w = .fatlist i) ∨ (a ≠ [] ∧ b ≠ []) := by
      cases w with
      | fatlist i => exact .inl ⟨i, rfl⟩
      | tmplist i =>
        obtain ⟨hhead, hlast⟩ := hn i
        rw [hab] at hhead hlast
        refine .inr ⟨?_, ?_⟩
        · rintro rfl
          exact hhead rfl
        · rintro rfl
          exact hlast List.getLast?_concat
    have hu := h.dequeue_unlinked hab hplace
    have heq : Function.update q w (a ++ b) = fun w => (q w).erase n := by
      funext v
      rw [Function.update_apply]
      split
      · next hv =>
        rw [hv, hab, List.erase_append_right _ fun hin => hna (List.mem_append_left _ hin), List.erase_cons_head]
      · next hv => exact (List.erase_of_not_mem fun hin => hv (h.apart hin hw)).symm
    rw [← heq]
    exact ⟨h.unlinked hab hu, hu.size⟩
  · have hloose : ∀ w, n ∉ q w := fun w hw => hon ⟨w, hw⟩
    have heq : (fun w => (q w).erase n) = q := funext fun w => List.erase_of_not_mem (hloose w)
    rw [h.dequeue_loose hloose, heq]
    exact ⟨h, rfl⟩

end Removal

/-! ## Insertion -/

section Insertion

variable {s : Fat} {q : Place → List Node} {n : Node}

/-- `enqueue` puts a node that is on no list at the tail of a temporary list. -/
theorem Queued.enqueue (h : Queued s q) (hn : ∀ w, n ∉ q w) (i : Nat) :
    Queued (s.enqueue n i) (Function.update q (.tmplist i) (q (.tmplist i) ++ [n])) ∧
      (s.enqueue n i).size = s.size := by
  obtain ⟨hnext, hprev⟩ := h.loose n hn
  have hhead := h.head_eq (.tmplist i)
  have htail := h.tail_eq (.tmplist i)
  have hlast {m : Node} (hm : (q (.tmplist i)).getLast? = some m) : m ∈ q (.tmplist i) := List.mem_of_getLast? hm
  -- what `enqueue` does to the pointers, whether or not the list was empty
  obtain ⟨t, ht, htnext, htprev, htlist, htsize⟩ : ∃ t, s.enqueue n i = t ∧
      (∀ m, t.next m = if m = n then (q (.tmplist i)).getLast? else s.next m) ∧
      (∀ m, t.prev m = if (q (.tmplist i)).getLast? = some m then some n else s.prev m) ∧
      (∀ v, t.list v = if v = .tmplist i then ⟨if q (.tmplist i) = [] then some n else (s.list (.tmplist i)).head, some n⟩
        else s.list v) ∧ t.size = s.size := by
    refine ⟨_, rfl, ?_⟩
    unfold Fat.enqueue
    rw [htail]
    rcases List.eq_nil_or_concat (q (.tmplist i)) with hq | ⟨l, k, hq⟩
    · rw [hq, List.getLast?_nil]
      dsimp only
      refine ⟨fun m => ?_, fun m => (if_neg nofun).symm, fun v => ?_, rfl⟩
      · show s.next m = _
        split
        · next hm => rw [hm, hnext]
        · rfl
      · show Function.update s.list _ _ v = _
        rw [Function.update_apply, if_pos rfl]
    · have hkn : k ≠ n := by
        rintro rfl
        exact hn (.tmplist i) (hlast (by rw [hq, List.concat_eq_append, List.getLast?_concat]))
      rw [hq, List.concat_eq_append, List.getLast?_concat]
      dsimp only
      refine ⟨fun m => ?_, fun m => ?_, fun v => ?_, rfl⟩
      · show Function.update s.next n _ m = _
        rw [Function.update_apply]
      · show Function.update s.prev k _ m = _
        rw [Function.update_apply]
        simp only [Option.some.injEq, eq_comm]
      · rw [Fat.list_setTail]
        split
        · rw [if_neg (by simp)]
          rfl
        · rfl
  rw [ht]
  -- the nodes of the new lists are those of the old, and `n`
  have hin {v : Place} {m : Node} (hm : m ∈ Function.update q (.tmplist i) (q (.tmplist i) ++ [n]) v) :
      m ∈ q v ∨ (m = n ∧ v = .tmplist i) := by
    rw [Function.update_apply] at hm
    split at hm
    · next hv =>
      rcases List.mem_append.mp hm with hq | hnew
      · exact .inl (hv ▸ hq)
      · exact .inr ⟨List.mem_singleton.mp hnew, hv⟩
    · exact .inl hm
  refine ⟨⟨fun v => ?_, fun {v v' m} hm hm' => ?_, fun m hm => ?_, fun k hk => ?_⟩, htsize⟩
  · rw [htlist, Function.update_apply]
    split
    -- the list that gets `n`
    · refine (h.dlist (.tmplist i)).append (hn _) ?_ ?_ rfl rfl (fun m _ => ?_) fun m hm => ?_
      · rw [htprev, if_neg fun hl => hn _ (hlast hl), hprev]
        rfl
      · rw [htnext, if_pos rfl, htail]
      · rw [htprev]
        rfl
      · rw [htnext, if_neg]
        rintro rfl
        exact hn _ hm
    · next hv =>
      -- the others have none of the nodes whose pointers change
      refine (h.dlist v).congr (fun m hm => ?_) fun m hm => ?_
      · rw [htprev, if_neg fun hl => hv (h.apart hm (hlast hl))]
      · rw [htnext, if_neg]
        rintro rfl
        exact hn _ hm
  · rcases hin hm with hq | ⟨rfl, hv⟩
    · rcases hin hm' with hq' | ⟨rfl, -⟩
      · exact h.apart hq hq'
      · exact absurd hq (hn v)
    · rcases hin hm' with hq' | ⟨-, hv'⟩
      · exact absurd hq' (hn v')
      · exact hv.trans hv'.symm
  -- a node on no list is loose still
  · have hout (v : Place) : m ∉ q v := by
      intro hmv
      have hmv' := hm v
      rw [Function.update_apply] at hmv'
      split at hmv'
      · next hv => exact hmv' (List.mem_append_left _ (hv ▸ hmv))
      · exact hmv' hmv
    have hmn : m ≠ n := by
      rintro rfl
      have hmi := hm (.tmplist i)
      rw [Function.update_self] at hmi
      exact hmi (List.mem_append_right _ List.mem_cons_self)
    obtain ⟨hmnext, hmprev⟩ := h.loose m hout
    rw [htnext, htprev, if_neg hmn, if_neg fun hl => hout _ (hlast hl)]
    exact ⟨hmnext, hmprev⟩
  · rw [Function.update_of_ne (by nofun)]
    exact h.range k hk

end Insertion

/-! ## Merging -/

/-- The temporary list `i` goes to the end of the queue `i`. -/
def mergeAt (q : Place → List Node) (i : Nat) : Place → List Node :=
  Function.update (Function.update q (.fatlist i) (q (.fatlist i) ++ q (.tmplist i))) (.tmplist i) []

section Merging

variable {s : Fat} {q : Place → List Node} {i : Nat}

theorem mergeAt_fatlist (q : Place → List Node) (i : Nat) :
    mergeAt q i (.fatlist i) = q (.fatlist i) ++ q (.tmplist i) := by
  unfold mergeAt
  rw [Function.update_of_ne (by nofun), Function.update_self]

theorem mergeAt_tmplist (q : Place → List Node) (i : Nat) : mergeAt q i (.tmplist i) = [] := Function.update_self ..

theorem mergeAt_other (q : Place → List Node) {i : Nat} {w : Place} (hf : w ≠ .fatlist i) (ht : w ≠ .tmplist i) :
    mergeAt q i w = q w := by
  unfold mergeAt
  rw [Function.update_of_ne ht, Function.update_of_ne hf]

/-- Where a node is after merging. -/
theorem mem_mergeAt {q : Place → List Node} {i : Nat} {w : Place} {m : Node} :
    m ∈ mergeAt q i w ↔ w ≠ .tmplist i ∧ (m ∈ q w ∨ (w = .fatlist i ∧ m ∈ q (.tmplist i))) := by
  by_cases ht : w = .tmplist i
  · rw [ht, mergeAt_tmplist]
    simp
  by_cases hf : w = .fatlist i
  · rw [hf, mergeAt_fatlist, List.mem_append]
    simp
  · rw [mergeAt_other q hf ht]
    simp [hf, ht]

/-- The nodes are on the same lists but for those that are merged. -/
theorem Queued.mergeAt_of (h : Queued s q) (hi : i < maxFatList) {t : Fat}
    (hdlist : ∀ w, DList id t.prev t.next (t.list w).head (t.list w).tail (mergeAt q i w))
    (hloose : ∀ m, (∀ w, m ∉ q w) → t.next m = s.next m ∧ t.prev m = s.prev m) : Queued t (mergeAt q i) := by
  refine ⟨hdlist, fun {w w' m} hm hm' => ?_, fun m hm => ?_, fun k hk => ?_⟩
  · obtain ⟨hwt, hw⟩ := mem_mergeAt.mp hm
    obtain ⟨hwt', hw'⟩ := mem_mergeAt.mp hm'
    rcases hw with hq | ⟨rfl, hq⟩
    · rcases hw' with hq' | ⟨rfl, hq'⟩
      · exact h.apart hq hq'
      · exact absurd (h.apart hq hq') hwt
    · rcases hw' with hq' | ⟨rfl, -⟩
      · exact absurd (h.apart hq' hq) hwt'
      · rfl
  · have hout (w : Place) : m ∉ q w := by
      intro hq
      by_cases hw : w = .tmplist i
      · refine hm (.fatlist i) (mem_mergeAt.mpr ⟨by nofun, .inr ⟨rfl, ?_⟩⟩)
        rwa [hw] at hq
      · exact hm w (mem_mergeAt.mpr ⟨hw, .inl hq⟩)
    obtain ⟨hnext, hprev⟩ := hloose m hout
    rw [hnext, hprev]
    exact h.loose m hout
  · rw [mergeAt_other q _ (by nofun)]
    · exact h.range k hk
    · rintro ⟨⟩
      omega

/-- `fatMerge` for one list: the temporary list is linked behind the queue, and no node changes its size. -/
theorem Queued.merge (h : Queued s q) (hi : i < maxFatList) :
    Queued (s.merge i) (mergeAt q i) ∧ (s.merge i).size = s.size := by
  have hft : Place.fatlist i ≠ .tmplist i := nofun
  have hthead := h.head_eq (.tmplist i)
  have hfhead := h.head_eq (.fatlist i)
  have hft' := h.tail_eq (.fatlist i)
  unfold Fat.merge
  rw [hthead]
  cases hq : q (.tmplist i) with
  -- nothing is merged
  | nil =>
    rw [List.head?_nil]
    dsimp only
    refine ⟨h.mergeAt_of hi (fun w => ?_) fun _ _ => ⟨rfl, rfl⟩, rfl⟩
    have heq : mergeAt q i w = q w := by
      by_cases ht : w = .tmplist i
      · rw [ht, mergeAt_tmplist, hq]
      by_cases hf : w = .fatlist i
      · rw [hf, mergeAt_fatlist, hq, List.append_nil]
      · exact mergeAt_other q hf ht
    rw [heq]
    exact h.dlist w
  | cons k l =>
    rw [List.head?_cons]
    dsimp only
    split
    · next hnone =>
      -- the queue is empty, and the pointers are copied
      have hempty : q (.fatlist i) = [] := by
        rw [hfhead] at hnone
        exact List.head?_eq_none_iff.mp hnone
      refine ⟨h.mergeAt_of hi (fun w => ?_) fun _ _ => ⟨rfl, rfl⟩, rfl⟩
      show DList id s.prev s.next (Function.update (Function.update s.list _ _) _ _ w).head
        (Function.update (Function.update s.list _ _) _ _ w).tail (mergeAt q i w)
      by_cases ht : w = .tmplist i
      · rw [ht, mergeAt_tmplist, Function.update_self]
        exact DList.nil id _ _
      by_cases hf : w = .fatlist i
      · rw [hf, mergeAt_fatlist, hempty, List.nil_append, Function.update_of_ne hft, Function.update_self]
        exact h.dlist (.tmplist i)
      · rw [mergeAt_other q hf ht, Function.update_of_ne ht, Function.update_of_ne hf]
        exact h.dlist w
    · next hsome =>
      -- the lists are joined at the tail of the queue and the head `k` of the other
      have hne : q (.fatlist i) ≠ [] := by
        intro hempty
        rw [hfhead, hempty] at hsome
        exact hsome rfl
      have hk : k ∈ q (.tmplist i) := by
        rw [hq]
        exact List.mem_cons_self
      have hlast {m : Node} (hm : (q (.fatlist i)).getLast? = some m) : m ∈ q (.fatlist i) := List.mem_of_getLast? hm
      -- what that does to the pointers
      obtain ⟨t, ht, htnext, htprev, htlist, htsize⟩ : ∃ t,
          ((((s.setNext k (s.list (.fatlist i)).tail).setPrevAt (s.list (.fatlist i)).tail (some k)).setTail (.fatlist i)
            (s.list (.tmplist i)).tail).setList (.tmplist i) ⟨none, none⟩) = t ∧
          (∀ m, t.next m = if m = k then (s.list (.fatlist i)).tail else s.next m) ∧
          (∀ m, t.prev m = if (q (.fatlist i)).getLast? = some m then some k else s.prev m) ∧
          (∀ w, t.list w = if w = .tmplist i then ⟨none, none⟩ else if w = .fatlist i then
            ⟨(s.list (.fatlist i)).head, (s.list (.tmplist i)).tail⟩ else s.list w) ∧ t.size = s.size := by
        refine ⟨_, rfl, fun m => ?_, fun m => ?_, fun w => ?_, ?_⟩
        · show (Fat.setPrevAt _ _ _).next m = _
          rw [Fat.next_setPrevAt]
          exact Function.update_apply ..
        · show (Fat.setPrevAt _ _ _).prev m = _
          rw [Fat.prev_setPrevAt, hft']
          rfl
        · show Function.update (Fat.setTail _ _ _).list _ _ w = _
          rw [Function.update_apply, Fat.list_setTail, Fat.list_setPrevAt]
          rfl
        · show (Fat.setPrevAt _ _ _).size = _
          rw [Fat.size_setPrevAt]
          rfl
      rw [ht]
      refine ⟨h.mergeAt_of hi (fun w => ?_) fun m hm => ⟨?_, ?_⟩, htsize⟩
      · rw [htlist]
        split
        · next hw =>
          rw [hw, mergeAt_tmplist]
          exact DList.nil id _ _
        split
        · next hw =>
          rw [hw, mergeAt_fatlist]
          -- the joined list
          refine (h.dlist (.fatlist i)).join (h.dlist (.tmplist i)) hne (List.ne_nil_of_mem hk) ?_ (fun m _ => ?_) fun m _ => ?_
          · refine List.nodup_append.mpr ⟨(h.dlist _).nodup, (h.dlist _).nodup, fun m hm m' hm' heq => ?_⟩
            subst heq
            exact hft (h.apart hm hm')
          · rw [htprev, hthead, hq]
            rfl
          · rw [htnext, hq, List.head?_cons]
            simp only [Option.some.injEq, eq_comm]
        · next hwt hwf =>
          rw [mergeAt_other q hwf hwt]
          -- the others have none of the nodes whose pointers change
          refine (h.dlist w).congr (fun m hm => ?_) fun m hm => ?_
          · rw [htprev, if_neg fun hl => hwf (h.apart hm (hlast hl))]
          · rw [htnext, if_neg]
            rintro rfl
            exact hwt (h.apart hm hk)
      · rw [htnext, if_neg]
        rintro rfl
        exact hm _ hk
      · rw [htprev, if_neg fun hl => hm _ (hlast hl)]

/-- All temporary lists go to the ends of their queues. -/
def mergeAll (q : Place → List Node) : Place → List Node := (List.range maxFatList).foldl mergeAt q

theorem Queued.fatMerge (h : Queued s q) : Queued s.fatMerge (mergeAll q) ∧ s.fatMerge.size = s.size := by
  have hloop : ∀ (l : List Nat) {s : Fat} {q : Place → List Node}, (∀ i ∈ l, i < maxFatList) → Queued s q →
      Queued (l.foldl Fat.merge s) (l.foldl mergeAt q) ∧ (l.foldl Fat.merge s).size = s.size := by
    intro l
    induction l with
    | nil => exact fun _ h => ⟨h, rfl⟩
    | cons i l ih =>
      intro s q hl h
      obtain ⟨hq, hsize⟩ := h.merge (hl i List.mem_cons_self)
      obtain ⟨hq', hsize'⟩ := ih (fun j hj => hl j (List.mem_cons_of_mem _ hj)) hq
      exact ⟨hq', hsize'.trans hsize⟩
  exact hloop (List.range maxFatList) (fun i hi => List.mem_range.mp hi) h

end Merging

/-! ## Fattening -/

/-- Some nodes `new` have been sent, each once, and have left the queues; the others are where they were. -/
structure Fattened (f : Fattening) (q : Place → List Node) (f' : Fattening) (q' : Place → List Node)
    (new : List Node) : Prop where
  queued : Queued f'.fat q'
  size : f'.fat.size = f.fat.size
  sent : f'.sent = f.sent ++ new
  bytes : f'.bytesleft + (new.map f.fat.size).sum = f.bytesleft
  others : ∀ m ∉ new, ∀ w, m ∈ q' w ↔ m ∈ q w
  source : ∀ m ∈ new, ∃ i, m ∈ q (.fatlist i)
  gone : ∀ m ∈ new, ∀ i, m ∉ q' (.fatlist i)
  once : new.Nodup

namespace Fattened

variable {f f₁ f₂ : Fattening} {q q₁ q₂ : Place → List Node} {new new' : List Node}

theorem refl (h : Queued f.fat q) : Fattened f q f q [] where
  queued := h
  size := rfl
  sent := (List.append_nil _).symm
  bytes := rfl
  others _ _ _ := Iff.rfl
  source _ hm := nomatch hm
  gone _ hm := nomatch hm
  once := List.nodup_nil

/-- First some nodes are sent, then others. -/
theorem trans (h : Fattened f q f₁ q₁ new) (h' : Fattened f₁ q₁ f₂ q₂ new') : Fattened f q f₂ q₂ (new ++ new') := by
  have hsource {m : Node} (hm : m ∈ new') : m ∉ new ∧ ∃ i, m ∈ q (.fatlist i) := by
    obtain ⟨i, hi⟩ := h'.source m hm
    have hnew : m ∉ new := fun hin => h.gone m hin i hi
    exact ⟨hnew, i, (h.others m hnew _).mp hi⟩
  constructor
  · exact h'.queued
  · exact h'.size.trans h.size
  · rw [h'.sent, h.sent, List.append_assoc]
  · have hbytes := h.bytes
    have hbytes' := h'.bytes
    rw [h.size] at hbytes'
    rw [List.map_append, List.sum_append]
    omega
  · intro m hm w
    rw [List.mem_append, not_or] at hm
    exact (h'.others m hm.2 w).trans (h.others m hm.1 w)
  · intro m hm
    rcases List.mem_append.mp hm with hold | hnew
    · exact h.source m hold
    · exact (hsource hnew).2
  · intro m hm i hi
    by_cases hnew : m ∈ new'
    · exact h'.gone m hnew i hi
    · have hold : m ∈ new := (List.mem_append.mp hm).resolve_right hnew
      exact h.gone m hold i ((h'.others m hnew _).mp hi)
  · refine List.nodup_append.mpr ⟨h.once, h'.once, fun m hm m' hm' heq => ?_⟩
    subst heq
    exact (hsource hm').1 hm

/-- Queues do not grow. -/
theorem length_le (h : Fattened f q f₁ q₁ new) (i : Nat) : (q₁ (.fatlist i)).length ≤ (q (.fatlist i)).length := by
  have hsub : q₁ (.fatlist i) ⊆ q (.fatlist i) := by
    intro m hm
    refine (h.others m ?_ _).mp hm
    exact fun hnew => h.gone m hnew i hm
  exact (List.subperm_of_subset (h.queued.dlist _).nodup hsub).length_le

end Fattened

section Fattening

variable {f : Fattening} {q : Place → List Node} {n : Node} {list : Nat}

/-- A node of a queue is sent. -/
theorem Queued.add (h : Queued f.fat q) (hn : n ∈ q (.fatlist list)) (hfit : f.fat.size n < f.bytesleft) :
    ∃ q₁, Fattened f q (f.add list n) q₁ [n] ∧ q₁ (.fatlist list) = (q (.fatlist list)).erase n := by
  have htmp (i : Nat) : n ∉ q (.tmplist i) := fun hin => nomatch h.apart hn hin
  obtain ⟨hq, hsize⟩ := h.dequeue (n := n) fun i =>
    ⟨fun hl => htmp i (List.mem_of_head? hl), fun hl => htmp i (List.mem_of_getLast? hl)⟩
  have hout (w : Place) : n ∉ (q w).erase n := (h.dlist w).nodup.not_mem_erase
  have hothers {m : Node} (hm : m ∉ [n]) (w : Place) : m ∈ (q w).erase n ↔ m ∈ q w :=
    List.mem_erase_of_ne fun heq => hm (heq ▸ List.mem_cons_self)
  have hbytes : (f.add list n).bytesleft + ([n].map f.fat.size).sum = f.bytesleft := by
    show f.bytesleft - f.fat.size n + (f.fat.size n + 0) = f.bytesleft
    omega
  have hsource : ∀ m ∈ [n], ∃ i, m ∈ q (.fatlist i) := by
    intro m hm
    rw [List.mem_singleton.mp hm]
    exact ⟨list, hn⟩
  by_cases hlast : list + 1 = maxFatList
  · refine ⟨fun w => (q w).erase n, ⟨?_, ?_, rfl, hbytes, fun m hm w => hothers hm w, hsource, ?_,
      List.nodup_singleton n⟩, rfl⟩
    · show Queued (if list + 1 = maxFatList then _ else _) _
      rw [if_pos hlast]
      exact hq
    · show Fat.size (if list + 1 = maxFatList then _ else _) = _
      rw [if_pos hlast]
      exact hsize
    · intro m hm i
      rw [List.mem_singleton.mp hm]
      exact hout _
  · obtain ⟨hq', hsize'⟩ := hq.enqueue hout (list + 1)
    refine ⟨Function.update (fun w => (q w).erase n) (.tmplist (list + 1)) ((q (.tmplist (list + 1))).erase n ++ [n]),
      ⟨?_, ?_, rfl, hbytes, fun m hm w => ?_, hsource, ?_, List.nodup_singleton n⟩, ?_⟩
    · show Queued (if list + 1 = maxFatList then _ else _) _
      rw [if_neg hlast]
      exact hq'
    · show Fat.size (if list + 1 = maxFatList then _ else _) = _
      rw [if_neg hlast]
      exact hsize'.trans hsize
    · rw [Function.update_apply]
      split
      · next hw =>
        rw [hw, List.mem_append, hothers hm]
        exact or_iff_left hm
      · exact hothers hm w
    · intro m hm i
      rw [List.mem_singleton.mp hm, Function.update_of_ne (by nofun)]
      exact hout _
    · exact Function.update_of_ne (by nofun) ..

/-- The loop over a list sends the nodes that there is room for, and comes to its end. -/
theorem fattenList_spec (list : Nat) : ∀ (rest kept : List Node) (f : Fattening) (q : Place → List Node) (fuel : Nat),
    Queued f.fat q → q (.fatlist list) = kept ++ rest → rest.length < fuel →
    ∃ f' done q' new, fattenList list fuel f rest.head? = some (f', done) ∧ Fattened f q f' q' new
  | _, _, _, _, 0, _, _, hfuel => absurd hfuel (Nat.not_lt_zero _)
  | [], _, f, q, _ + 1, h, _, _ => ⟨f, false, q, [], rfl, Fattened.refl h⟩
  | n :: rest, kept, f, q, fuel + 1, h, hq, hfuel => by
    have hfuel : rest.length < fuel := Nat.lt_of_succ_lt_succ hfuel
    have hprev := h.prev_eq hq
    have hn : n ∈ q (.fatlist list) := by
      rw [hq]
      exact List.mem_append_right _ List.mem_cons_self
    have hkept : n ∉ kept := by
      have hnd := (h.dlist (.fatlist list)).nodup
      rw [hq] at hnd
      exact fun hin => (List.nodup_cons.mp (List.nodup_middle.mp hnd)).1 (List.mem_append_left _ hin)
    rw [List.head?_cons]
    unfold fattenList
    dsimp only
    rw [hprev]
    split
    · next hfit =>
      obtain ⟨q₁, hadd, hq₁⟩ := h.add hn hfit
      split
      · exact ⟨_, true, q₁, [n], rfl, hadd⟩
      · rw [hq, List.erase_append_right _ hkept, List.erase_cons_head] at hq₁
        obtain ⟨f', done, q', new, heq, hrest⟩ := fattenList_spec list rest kept _ q₁ fuel hadd.queued hq₁ hfuel
        exact ⟨f', done, q', [n] ++ new, heq, hadd.trans hrest⟩
    · refine fattenList_spec list rest (kept ++ [n]) f q fuel h ?_ hfuel
      rw [hq, List.append_assoc]
      rfl

/-- The lists are gone through one after the other. -/
theorem fattenLists_spec (fuel : Nat) : ∀ (lists : List Nat) (f : Fattening) (q : Place → List Node),
    Queued f.fat q → (∀ i, (q (.fatlist i)).length < fuel) →
    ∃ f' q' new, fattenLists fuel lists f = some f' ∧ Fattened f q f' q' new
  | [], f, q, h, _ => ⟨f, q, [], rfl, Fattened.refl h⟩
  | list :: lists, f, q, h, hfuel => by
    obtain ⟨f₁, done, q₁, new, heq, hone⟩ := fattenList_spec list (q (.fatlist list)) [] f q fuel h rfl (hfuel list)
    unfold fattenLists
    rw [h.head_eq, heq]
    cases done with
    | true => exact ⟨f₁, q₁, new, rfl, hone⟩
    | false =>
      obtain ⟨f', q', new', heq', hrest⟩ := fattenLists_spec fuel lists f₁ q₁ hone.queued fun i =>
        Nat.lt_of_le_of_lt (hone.length_le i) (hfuel i)
      exact ⟨f', q', new ++ new', heq', hone.trans hrest⟩

end Fattening

/-- `fatten` ends, when it is given a turn more than the longest queue has nodes. -/
theorem Queued.fatten {s : Fat} {q : Place → List Node} (h : Queued s q) (fuel : Nat)
    (hfuel : ∀ i, (q (.fatlist i)).length < fuel) :
    ∃ f q' new, s.fatten fuel = some f ∧ Fattened ⟨s, maxFatData, []⟩ q f q' new :=
  fattenLists_spec fuel _ ⟨s, maxFatData, []⟩ q h hfuel

/-- There are only so many nodes. -/
theorem Queued.bounded {s : Fat} {q : Place → List Node} (h : Queued s q) :
    ∃ bound, ∀ i, (q (.fatlist i)).length < bound := by
  refine ⟨((List.range maxFatList).map fun i => (q (.fatlist i)).length).sum + 1, fun i => Nat.lt_succ_of_le ?_⟩
  by_cases hi : i < maxFatList
  · exact List.single_le_sum (fun _ _ => Nat.zero_le _) _ (List.mem_map.mpr ⟨i, List.mem_range.mpr hi, rfl⟩)
  · rw [h.range i (Nat.le_of_not_lt hi)]
    exact Nat.zero_le _

/-- More turns make no difference. -/
theorem fattenList_mono {list : Nat} {r : Fattening × Bool} : ∀ {fuel fuel' : Nat} {f : Fattening} {p : Option Node},
    fuel ≤ fuel' → fattenList list fuel f p = some r → fattenList list fuel' f p = some r
  | 0, _, _, _, _, h => nomatch h
  | _ + 1, 0, _, _, hle, _ => absurd hle (Nat.not_succ_le_zero _)
  | _ + 1, _ + 1, _, none, _, h => h
  | fuel + 1, fuel' + 1, f, some n, hle, h => by
    have hle : fuel ≤ fuel' := Nat.le_of_succ_le_succ hle
    unfold fattenList at h ⊢
    dsimp only at h ⊢
    split at h
    · next hfit =>
      rw [if_pos hfit]
      split at h
      · next hdone =>
        rw [if_pos hdone]
        exact h
      · next hmore =>
        rw [if_neg hmore]
        exact fattenList_mono hle h
    · next hbig =>
      rw [if_neg hbig]
      exact fattenList_mono hle h

/-- More fuel than is needed changes nothing. -/
theorem fattenLists_mono {fuel fuel' : Nat} (hle : fuel ≤ fuel') {r : Fattening} : ∀ {lists : List Nat} {f : Fattening},
    fattenLists fuel lists f = some r → fattenLists fuel' lists f = some r
  | [], _, h => h
  | list :: lists, f, h => by
    unfold fattenLists at h ⊢
    cases hone : fattenList list fuel f (f.fat.list (.fatlist list)).head with
    | none =>
      rw [hone] at h
      cases h
    | some r₁ =>
      rw [hone] at h
      rw [fattenList_mono hle hone]
      obtain ⟨f₁, done⟩ := r₁
      cases done with
      | true => exact h
      | false => exact fattenLists_mono hle h

/-- Whatever `fatten` gives back, it has sent some nodes and left the others where they were. -/
theorem Queued.fatten_some {s : Fat} {q : Place → List Node} (h : Queued s q) {fuel : Nat} {f : Fattening}
    (hf : s.fatten fuel = some f) : ∃ q' new, Fattened ⟨s, maxFatData, []⟩ q f q' new := by
  obtain ⟨bound, hbound⟩ := h.bounded
  obtain ⟨f', q', new, hf', hfat⟩ := h.fatten (max fuel bound) fun i =>
    Nat.lt_of_lt_of_le (hbound i) (Nat.le_max_right ..)
  have hmono : s.fatten (max fuel bound) = some f := fattenLists_mono (Nat.le_max_left ..) hf
  rw [hmono] at hf'
  cases hf'
  exact ⟨q', new, hfat⟩

/-! ## Setting up -/

/-- The queues are empty, the temporary lists as they were. -/
def clearQueues (q : Place → List Node) : Place → List Node
  | .fatlist _ => []
  | .tmplist i => q (.tmplist i)

/-- A new client has empty lists, whatever the nodes pointed at. -/
theorem Queued.initClientData {s : Fat} {q : Place → List Node} (h : Queued s q)
    (htmp : ∀ i, (s.list (.tmplist i)).head = (s.list (.tmplist i)).tail)
    (hplasma : ∀ p, s.next (.plasmaInfo p) = none) :
    Queued s.initClientData (clearQueues q) := by
  have hnext (n : Node) : s.initClientData.next n = none := by
    cases n with
    | plasmaInfo p => exact hplasma p
    | _ => rfl
  refine ⟨fun w => ?_, fun {w w' n} hm hm' => ?_, fun n _ => ⟨hnext n, rfl⟩, fun _ _ => rfl⟩
  · cases w with
    | fatlist i => exact DList.nil id _ _
    | tmplist i =>
      have hends := htmp i
      have hd := h.dlist (.tmplist i)
      rw [h.head_eq, h.tail_eq] at hends
      show DList id (fun _ => none) s.initClientData.next (s.list (.tmplist i)).head (s.list (.tmplist i)).tail
        (q (.tmplist i))
      cases hq : q (.tmplist i) with
      | nil =>
        rw [hq] at hd
        exact hd.congr (fun _ hm => nomatch hm) fun _ hm => nomatch hm
      | cons n l =>
        -- it is the only node
        have hl : l = [] := by
          have hnd := hd.nodup
          rw [hq] at hends hnd
          cases l with
          | nil => rfl
          | cons k l =>
            rw [List.head?_cons, List.getLast?_cons_cons] at hends
            exact absurd (List.mem_of_getLast? hends.symm) (List.nodup_cons.mp hnd).1
        subst hl
        have hhead := h.head_eq (.tmplist i)
        have htail := h.tail_eq (.tmplist i)
        rw [hq] at hhead htail
        exact ⟨⟨hhead, rfl⟩, ⟨htail, hnext n⟩, List.nodup_singleton n⟩
  · cases w with
    | fatlist i => cases hm
    | tmplist i =>
      cases w' with
      | fatlist i' => cases hm'
      | tmplist i' => exact h.apart hm hm'

theorem queued_blank : Queued .blank fun _ => [] :=
  ⟨fun _ => DList.nil id _ _, fun {_ _ _} hm => (nomatch hm), fun _ _ => ⟨rfl, rfl⟩, fun _ _ => rfl⟩

/-! ## Runs -/

inductive FatAct
  | initClientData
  | updateFat (sizes : UInt8 → Int) (packet : Packet)
  /-- `fatten`, with turns enough. -/
  | fatten (fuel : Nat)
  | fatMerge

def FatAct.run (s : Fat) : FatAct → Fat
  | .initClientData => s.initClientData
  | .updateFat sizes packet => s.updateFat sizes packet
  | .fatten fuel => ((s.fatten fuel).map Fattening.fat).getD s
  | .fatMerge => s.fatMerge

def FatAct.lawful (s : Fat) : FatAct → Prop
  | .fatten fuel => (s.fatten fuel).isSome = true
  | _ => True

/-- No node is updated that is at an end of a temporary list; and before all is set up anew, there is at most one node
on each temporary list, and no plasma's node behind another. -/
def FatAct.fine (s : Fat) : FatAct → Prop
  | .initClientData =>
    (∀ i, (s.list (.tmplist i)).head = (s.list (.tmplist i)).tail) ∧ ∀ p, s.next (.plasmaInfo p) = none
  | .updateFat _ packet =>
    ∀ n, fatNode packet = some n →
      ∀ i, (s.list (.tmplist i)).head ≠ some n ∧ (s.list (.tmplist i)).tail ≠ some n
  | _ => True

/-- No node changes its list but those that are updated or sent; those on a temporary list are merged. -/
def FatAct.Frame (s : Fat) (q q' : Place → List Node) : FatAct → Prop
  | .initClientData => True
  | .updateFat _ packet => ∀ m, fatNode packet ≠ some m → ∀ w, m ∈ q' w ↔ m ∈ q w
  | .fatten fuel => ∃ f, s.fatten fuel = some f ∧ ∀ m ∉ f.sent, ∀ w, m ∈ q' w ↔ m ∈ q w
  | .fatMerge =>
    ∀ m, ∀ i < maxFatList, m ∉ q' (.tmplist i) ∧ (m ∈ q' (.fatlist i) ↔ m ∈ q (.fatlist i) ∨ m ∈ q (.tmplist i))

theorem mem_mergeAll (m : Node) (i : Nat) : ∀ (l : List Nat) (q : Place → List Node),
    (m ∈ l.foldl mergeAt q (.tmplist i) ↔ i ∉ l ∧ m ∈ q (.tmplist i)) ∧
      (m ∈ l.foldl mergeAt q (.fatlist i) ↔ m ∈ q (.fatlist i) ∨ (i ∈ l ∧ m ∈ q (.tmplist i)))
  | [], q => by simp
  | k :: l, q => by
    obtain ⟨htmp, hfat⟩ := mem_mergeAll m i l (mergeAt q k)
    rw [List.foldl_cons, htmp, hfat, mem_mergeAt, mem_mergeAt]
    by_cases hik : i = k
    · simp [hik]
    · have hki : k ≠ i := Ne.symm hik
      simp [hik]

/-- Each operation keeps the lists linked, and moves only the nodes it should. -/
theorem FatAct.step {s : Fat} {q : Place → List Node} (h : Queued s q) {a : FatAct} (hok : a.lawful s)
    (hfine : a.fine s) : ∃ q', Queued (a.run s) q' ∧ a.Frame s q q' := by
  cases a with
  | initClientData => exact ⟨_, h.initClientData hfine.1 hfine.2, trivial⟩
  | updateFat sizes packet =>
    show ∃ q', Queued (s.updateFat sizes packet) q' ∧ _
    unfold Fat.updateFat
    cases hn : fatNode packet with
    | none => exact ⟨q, h, fun _ _ _ => Iff.rfl⟩
    | some n =>
      have hresize : Queued (s.resize sizes n) q := by
        unfold Fat.resize
        split <;> exact ⟨h.dlist, h.apart, h.loose, h.range⟩
      have hends (i : Nat) : (q (.tmplist i)).head? ≠ some n ∧ (q (.tmplist i)).getLast? ≠ some n := by
        rw [← h.head_eq, ← h.tail_eq]
        exact hfine n hn i
      obtain ⟨hq, -⟩ := hresize.dequeue hends
      have hout (w : Place) : n ∉ (q w).erase n := (h.dlist w).nodup.not_mem_erase
      obtain ⟨hq', -⟩ := hq.enqueue hout 0
      refine ⟨_, hq', fun m hm w => ?_⟩
      have hmn : m ≠ n := by
        rintro rfl
        exact hm hn
      rw [Function.update_apply]
      split
      · next hw =>
        rw [hw, List.mem_append, List.mem_erase_of_ne hmn]
        exact or_iff_left fun hin => hmn (List.mem_singleton.mp hin)
      · exact List.mem_erase_of_ne hmn
  | fatten fuel =>
    obtain ⟨f, hf⟩ := Option.isSome_iff_exists.mp hok
    obtain ⟨q', new, hfat⟩ := h.fatten_some hf
    have hsent : f.sent = new := hfat.sent
    refine ⟨q', ?_, f, hf, ?_⟩
    · show Queued (((s.fatten fuel).map Fattening.fat).getD s) q'
      rw [hf]
      exact hfat.queued
    · rw [hsent]
      exact hfat.others
  | fatMerge =>
    refine ⟨_, h.fatMerge.1, fun m i hi => ?_⟩
    obtain ⟨htmp, hfat⟩ := mem_mergeAll m i (List.range maxFatList) q
    have hin : i ∈ List.range maxFatList := List.mem_range.mpr hi
    exact ⟨fun hm => (htmp.mp hm).1 hin, hfat.trans (by simp [hin])⟩

/-- The ten lists are well-formed and hold no node twice, a node on none of them has no links, `fatten` ends, and the
next step that is fine moves no other node. -/
def WellLinked (s : Fat) : Prop :=
  ∃ q, Queued s q ∧ (∃ fuel, (s.fatten fuel).isSome = true) ∧
    ∀ a : FatAct, a.lawful s → a.fine s → ∃ q', Queued (a.run s) q' ∧ a.Frame s q q'

theorem Queued.wellLinked {s : Fat} {q : Place → List Node} (h : Queued s q) : WellLinked s := by
  refine ⟨q, h, ?_, fun a hok hfine => FatAct.step h hok hfine⟩
  obtain ⟨bound, hbound⟩ := h.bounded
  obtain ⟨f, -, -, hf, -⟩ := h.fatten bound hbound
  exact ⟨bound, by rw [hf]; rfl⟩

/-- However often packets are updated, sent and merged, and all is set up anew, the queues of fat UDP stay well-formed,
provided that every step is fine. -/
theorem fat_wellLinked {s : Fat} {acts : List FatAct}
    (hrun : Run (fun s a => FatAct.lawful s a ∧ FatAct.fine s a) FatAct.run (Fat.initClientData .blank) acts s) :
    WellLinked s := by
  have hinit : ∃ q, Queued (Fat.initClientData .blank) q :=
    ⟨_, queued_blank.initClientData (fun _ => rfl) fun _ => rfl⟩
  have hstep (s : Fat) (a : FatAct) (ha : FatAct.lawful s a ∧ FatAct.fine s a) (h : ∃ q, Queued s q) :
      ∃ q, Queued (FatAct.run s a) q := by
    obtain ⟨q, h⟩ := h
    obtain ⟨q', h', -⟩ := FatAct.step h ha.1 ha.2
    exact ⟨q', h'⟩
  obtain ⟨q, h⟩ := hrun.inv hstep hinit
  exact h.wellLinked

/-- `SP_YOU`. -/
def youPacket : Packet := fun k => [12].getD k 0

def noSizes : UInt8 → Int := fun _ => 0

/-- A packet is sent, and sent again in two transmissions. -/
def youRun : List FatAct := [.updateFat noSizes youPacket, .fatMerge, .fatten 2, .fatMerge, .fatten 2, .fatMerge]

theorem fat_wellLinked_you : WellLinked (youRun.foldl FatAct.run (Fat.initClientData .blank)) := by
  suffices hrun : Run (fun s a => FatAct.lawful s a ∧ FatAct.fine s a) FatAct.run (Fat.initClientData .blank) youRun
      (youRun.foldl FatAct.run (Fat.initClientData .blank)) from fat_wellLinked hrun
  unfold youRun
  refine .cons ⟨trivial, fun n _ i => ⟨nofun, nofun⟩⟩ (.cons ⟨trivial, trivial⟩ (.cons ⟨?_, trivial⟩
    (.cons ⟨trivial, trivial⟩ (.cons ⟨?_, trivial⟩ (.cons ⟨trivial, trivial⟩ (.nil _))))))
  · show Option.isSome _ = true
    decide +kernel
  · show Option.isSome _ = true
    decide +kernel

/-- A packet that is sent twice between two flushes. -/
theorem you_twice : ¬ ∀ (s : Fat) (acts : List FatAct),
    Run FatAct.lawful FatAct.run (Fat.initClientData .blank) acts s → WellLinked s := by
  intro hall
  obtain ⟨q, h, -⟩ := hall _ [.updateFat noSizes youPacket, .updateFat noSizes youPacket]
    (.cons trivial (.cons trivial (.nil _)))
  generalize hs : FatAct.run _ _ = s at h
  have hhead : (s.list (.tmplist 0)).head = some .you := by
    rw [← hs]
    decide +kernel
  have hprev : s.prev .you = some .you := by
    rw [← hs]
    decide +kernel
  -- the node comes after itself
  rw [h.head_eq] at hhead
  obtain ⟨a, b, hab⟩ := List.append_of_mem (List.mem_of_head? hhead)
  rw [h.prev_eq hab] at hprev
  have hnd := (h.dlist (.tmplist 0)).nodup
  rw [hab] at hnd
  have hout := (List.nodup_cons.mp (List.nodup_middle.mp hnd)).1
  exact hout (List.mem_append_right _ (List.mem_of_head? hprev))

end Netrek.Sending
