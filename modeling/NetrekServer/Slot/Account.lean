/-
The account of the slots. The slots given to a queue and its `free_slots` always come to what
`queues_init` gave it. The count includes slot t, which no queue but one with `QU_TOK` may use, so
a queue whose range has slot t can count a free slot and not have one to give.
-/
import NetrekServer.Lib.Pool
import NetrekServer.Lib.Run
import NetrekServer.Slot.Maint

namespace Netrek.SlotMaint

open Netrek.Lib Netrek.Queue

/-! ## Runs -/

/-- A call by anybody. -/
inductive Call
  | pick (wQueue : Nat)
  | free (who : Slot)
  | team (k : Slot) (ours theirs : Word)

/-- A slot that is freed or changes teams is somebody's. -/
def Call.allowed (b : Build) (r : Roster) : Call → Prop
  | .pick q => q < b.maxQueue
  | .free i => (r.player i).status ≠ .pfree
  | .team k _ _ => (r.player k).status ≠ .pfree

instance (b : Build) (r : Roster) : (c : Call) → Decidable (c.allowed b r)
  | .pick q => inferInstanceAs (Decidable (q < b.maxQueue))
  | .free i => inferInstanceAs (Decidable ((r.player i).status ≠ .pfree))
  | .team k _ _ => inferInstanceAs (Decidable ((r.player k).status ≠ .pfree))

def Call.run (r : Roster) : Call → Roster
  | .pick q => (pickslot r q).1
  | .free i => (freeslot r i).1
  | .team k ours theirs => changeTeamQuietly r k ours theirs

/-- The game as the daemon starts it: nobody is in, and the queues are set up. -/
structure Booted (b : Build) (r : Roster) : Prop where
  free : ∀ i, (r.player i).status = .pfree
  queues : ∃ m, r.queues = (queuesInit b m).queues

/-! ## The slots as a pool -/

/-- The queue that a slot was given by. -/
def holder (r : Roster) (i : Slot) : Option Nat :=
  if (r.player i).status = .pfree then none else some (r.player i).wQueue

/-- The slots in use of a queue. -/
def inUse (r : Roster) (q : Nat) : Nat := (Finset.univ.filter fun i => holder r i = some q).card

/-- The pool of slots; each queue counts what it has given out, from its initial `free_slots`. -/
def pool (total : Nat → Int) (r : Roster) : Pool Slot Nat where
  holder := holder r
  count q := total q - (r.queues q).freeSlots

theorem holder_eq_none {r : Roster} {i : Slot} : holder r i = none ↔ (r.player i).status = .pfree := by
  unfold holder
  split <;> simp_all

theorem holder_of_ne {r : Roster} {i : Slot} (h : (r.player i).status ≠ .pfree) : holder r i = some (r.player i).wQueue :=
  if_neg h

/-- Two pools are the same if slots and counts are. -/
theorem pool_ext {p p' : Pool Slot Nat} (hh : ∀ i, p.holder i = p'.holder i) (hc : ∀ q, p.count q = p'.count q) : p = p' := by
  cases p
  cases p'
  congr
  · exact funext hh
  · exact funext hc

theorem freeSlots_addFree (r : Roster) (q x : Nat) (n : Int) :
    ((r.addFree q n).queues x).freeSlots = (r.queues x).freeSlots + if x = q then n else 0 := by
  unfold Roster.addFree Roster.modifyQueue
  by_cases h : x = q
  · subst h
    simp
  · simp [h]

theorem freeSlots_setSem (r : Roster) (q x : Nat) (n : Int) :
    ((setSem r q n).queues x).freeSlots = (r.queues x).freeSlots := by
  unfold setSem Roster.modifyQueue
  by_cases h : x = q
  · subst h
    simp
  · simp [h]

theorem pool_setSem (total : Nat → Int) (r : Roster) (q : Nat) (n : Int) : pool total (setSem r q n) = pool total r :=
  pool_ext (fun _ => rfl) fun x => by
    show total x - _ = total x - _
    rw [freeSlots_setSem]

/-- Leaving gives the slot back. -/
theorem pool_freeslot (total : Nat → Int) {r : Roster} {i : Slot} (h : (r.player i).status ≠ .pfree) :
    pool total (freeslot r i).1 = (pool total r).pass i none := by
  have hf : ((r.player i).status == .pfree) = false := by simpa using h
  apply pool_ext
  · intro j
    show holder _ j = Function.update (holder r) i none j
    unfold freeslot holder
    simp only [hf, Bool.false_eq_true, if_false, Roster.player_modifyDesk, Roster.player_addFree,
      Roster.player_modifyPlayer]
    by_cases hj : j = i
    · subst hj
      simp
    · simp [hj]
  · intro q
    show total q - _ = total q - _ - _ + _
    have hh : (pool total r).holder i = some (r.player i).wQueue := holder_of_ne h
    unfold freeslot
    simp only [hf, Bool.false_eq_true, if_false, Roster.queues_modifyDesk, freeSlots_addFree, Roster.queues_modifyPlayer,
      hh, Option.some.injEq, reduceCtorEq]
    by_cases hq : q = (r.player i).wQueue
    · subst hq
      simp only [if_true]
      omega
    · simp [hq, Ne.symm hq]

/-- Changing teams passes the slot to the queue of the new team. -/
theorem pool_changeTeamQuietly (total : Nat → Int) {r : Roster} {k : Slot} (h : (r.player k).status ≠ .pfree)
    (ours theirs : Word) :
    ∃ new, pool total (changeTeamQuietly r k ours theirs) = (pool total r).pass k (some new) := by
  have hh : (pool total r).holder k = some (r.player k).wQueue := holder_of_ne h
  by_cases hc : (r.player k).wQueue ≠ quPickup ∧ ours ≠ nobody
  · refine ⟨if ours = fed then quHome else quAway, ?_⟩
    rw [changeTeamQuietly_eq]
    simp only [if_pos hc]
    generalize (if ours = fed then quHome else quAway) = new
    apply pool_ext
    · intro j
      show holder _ j = Function.update (holder r) k (some new) j
      unfold holder
      by_cases hj : j = k
      · subst hj
        simp [Player.joinTeam, h]
      · simp [hj]
    · intro q
      show total q - _ = total q - _ - _ + _
      rw [Roster.queues_modifyPlayer, freeSlots_addFree, Roster.queues_modifyPlayer, freeSlots_addFree, hh]
      simp only [Option.some.injEq, @eq_comm _ q]
      split <;> split <;> omega
  · refine ⟨(r.player k).wQueue, ?_⟩
    rw [changeTeamQuietly_eq]
    simp only [if_neg hc]
    apply pool_ext
    · intro j
      show holder _ j = Function.update (holder r) k _ j
      unfold holder
      by_cases hj : j = k
      · subst hj
        simp [Player.joinTeam, h]
      · simp [hj]
    · intro q
      show total q - _ = total q - _ - _ + _
      rw [Roster.queues_modifyPlayer, hh]
      omega

/-! ## Picking a slot -/

/-- A slot that the queue may be given. -/
def usable (r : Roster) (q : Nat) (i : Slot) : Prop := (r.player i).status = .pfree ∧ verboten r q i = false

/-- A slot that can be used is given, and is one less in its queue. -/
theorem pickslotAction_usable (total : Nat → Int) {r : Roster} {q : Nat} {i : Slot} (h : usable r q i) :
    (pickslotAction r q i).2 = true ∧ pool total (pickslotAction r q i).1 = (pool total r).pass i (some q) := by
  obtain ⟨hf, hv⟩ := h
  have hh : (pool total r).holder i = none := holder_eq_none.2 hf
  unfold pickslotAction
  simp only [hf, hv, ne_eq, not_true_eq_false, Bool.false_eq_true, if_false, true_and]
  apply pool_ext
  · intro j
    show holder _ j = Function.update (holder r) i (some q) j
    unfold holder
    by_cases hj : j = i
    · subst hj
      simp
    · simp [hj]
  · intro x
    show total x - _ = total x - _ - _ + _
    rw [freeSlots_addFree, Roster.queues_modifyDesk, Roster.queues_modifyPlayer, hh]
    simp only [Option.some.injEq, reduceCtorEq, if_false, @eq_comm _ x]
    split <;> omega

theorem pickslotAction_gives {r : Roster} {q : Nat} {i : Slot} (h : usable r q i) :
    ((pickslotAction r q i).1.player i).status = .poutfit ∧ ((pickslotAction r q i).1.player i).wQueue = q := by
  obtain ⟨hf, hv⟩ := h
  unfold pickslotAction
  rw [if_neg (not_not_intro hf), hv]
  simp

theorem pickslotAction_not_usable {r : Roster} {q : Nat} {i : Slot} (h : ¬ usable r q i) :
    pickslotAction r q i = (r, false) := by
  unfold pickslotAction
  by_cases hf : (r.player i).status = .pfree
  · have hv : verboten r q i = true := by
      rw [← Bool.not_eq_false]
      intro hv
      exact h ⟨hf, hv⟩
    rw [if_neg (not_not_intro hf), if_pos hv]
  · rw [if_pos hf]

/-- A loop gives the first slot that may be given, if there is one. -/
theorem scan_spec (r : Roster) (q : Nat) : ∀ l : List Slot,
    (∃ i ∈ l, usable r q i ∧ scan r q l = ((pickslotAction r q i).1, some i)) ∨
      (∀ i ∈ l, ¬ usable r q i) ∧ scan r q l = (r, none)
  | [] => .inr ⟨fun _ h => absurd h (List.not_mem_nil), rfl⟩
  | i :: l => by
    by_cases hu : usable r q i
    · left
      refine ⟨i, List.mem_cons_self .., hu, ?_⟩
      have ht := (pickslotAction_usable (fun _ => 0) hu).1
      unfold scan
      cases hp : pickslotAction r q i with
      | mk r' b =>
        rw [hp] at ht
        cases ht
        rfl
    · have hs : scan r q (i :: l) = scan r q l := by
        rw [scan, pickslotAction_not_usable hu]
      rw [hs]
      rcases scan_spec r q l with ⟨j, hj, hju, h⟩ | ⟨hn, h⟩
      · exact .inl ⟨j, List.mem_cons_of_mem _ hj, hju, h⟩
      · right
        refine ⟨?_, h⟩
        rintro j hj
        rcases List.mem_cons.1 hj with rfl | hj
        · exact hu
        · exact hn j hj

/-- The slot is one of those that the queue prefers, or of its range. -/
def inRange (r : Roster) (q : Nat) (i : Slot) : Prop :=
  let x := r.queues q
  (x.lowSlot ≤ i.val ∨ x.prefer ≠ 0 ∧ x.prefer ≤ i.val) ∧ i.val < x.highSlot

theorem mem_slotRange {low high : Nat} {i : Slot} : i ∈ slotRange low high ↔ low ≤ i.val ∧ i.val < high := by
  unfold slotRange
  simp [List.mem_filter]

theorem mem_preferred {prefer high : Nat} {i : Slot} :
    i ∈ (if prefer = 0 then [] else slotRange prefer high) ↔ prefer ≠ 0 ∧ prefer ≤ i.val ∧ i.val < high := by
  split
  · simp [*]
  · rw [mem_slotRange]
    tauto

/-- The scan of a queue finds a slot of its range, if one may be given. -/
theorem scanqueue_spec (r : Roster) (q : Nat) :
    (∃ i, inRange r q i ∧ usable r q i ∧ scanqueue r q = ((pickslotAction r q i).1, some i)) ∨
      (∀ i, inRange r q i → ¬ usable r q i) ∧ scanqueue r q = (r, none) := by
  unfold scanqueue inRange
  dsimp only
  rcases scan_spec r q (if (r.queues q).prefer = 0 then [] else slotRange (r.queues q).prefer (r.queues q).highSlot) with
    ⟨i, hi, hu, h⟩ | ⟨hn, h⟩
  · rw [h]
    obtain ⟨hp, hl, hh⟩ := mem_preferred.1 hi
    exact .inl ⟨i, ⟨.inr ⟨hp, hl⟩, hh⟩, hu, rfl⟩
  · rw [h]
    dsimp only
    rcases scan_spec r q (slotRange (r.queues q).lowSlot (r.queues q).highSlot) with ⟨i, hi, hu, h⟩ | ⟨hn', h⟩
    · rw [h]
      obtain ⟨hl, hh⟩ := mem_slotRange.1 hi
      exact .inl ⟨i, ⟨.inl hl, hh⟩, hu, rfl⟩
    · rw [h]
      right
      refine ⟨?_, rfl⟩
      rintro i ⟨hl | hl, hh⟩
      · exact hn' i (mem_slotRange.2 ⟨hl, hh⟩)
      · exact hn i (mem_preferred.2 ⟨hl.1, hl.2, hh⟩)

/-! ## What a call changes -/

theorem usable_setSem (r : Roster) (q x : Nat) (n : Int) (i : Slot) : usable (setSem r q n) x i ↔ usable r x i := by
  have hf : ((setSem r q n).queues x).qFlags = (r.queues x).qFlags := by
    unfold setSem Roster.modifyQueue
    by_cases h : x = q
    · subst h
      simp
    · simp [h]
  unfold usable verboten
  rw [player_setSem, hf]

/-- The bounds and the flags of a queue, which no call changes. -/
def layout (x : PQueue) : Nat × Nat × Nat × Word := (x.lowSlot, x.highSlot, x.prefer, x.qFlags)

theorem layout_modifyQueue (r : Roster) (q x : Nat) (f : PQueue → PQueue) (hf : ∀ y, layout (f y) = layout y) :
    layout ((r.modifyQueue q f).queues x) = layout (r.queues x) := by
  unfold Roster.modifyQueue
  by_cases h : x = q
  · subst h
    simp [hf]
  · simp [h]

@[simp] theorem layout_addFree (r : Roster) (q x : Nat) (n : Int) : layout ((r.addFree q n).queues x) = layout (r.queues x) :=
  layout_modifyQueue r q x _ fun _ => rfl

@[simp] theorem layout_setSem (r : Roster) (q x : Nat) (n : Int) : layout ((setSem r q n).queues x) = layout (r.queues x) :=
  layout_modifyQueue r q x _ fun _ => rfl

theorem layout_pickslotAction (r : Roster) (q x : Nat) (i : Slot) :
    layout ((pickslotAction r q i).1.queues x) = layout (r.queues x) := by
  unfold pickslotAction
  split
  · rfl
  split
  · rfl
  simp

theorem inRange_congr {r r' : Roster} {q : Nat} (h : layout (r'.queues q) = layout (r.queues q)) (i : Slot) :
    inRange r' q i ↔ inRange r q i := by
  unfold layout at h
  simp only [Prod.mk.injEq] at h
  obtain ⟨hl, hh, hp, -⟩ := h
  unfold inRange
  simp only [hl, hh, hp]

theorem verboten_congr {r r' : Roster} {q : Nat} (h : layout (r'.queues q) = layout (r.queues q)) (i : Slot) :
    verboten r' q i = verboten r q i := by
  unfold layout at h
  simp only [Prod.mk.injEq] at h
  unfold verboten
  rw [h.2.2.2]

/-- What `pickslot` does: nothing but to the semaphore, or it gives a slot of the range. -/
theorem pickslot_cases (total : Nat → Int) (r : Roster) (q : Nat) :
    pool total (pickslot r q).1 = pool total r ∨
      ∃ i, usable r q i ∧ pool total (pickslot r q).1 = (pool total r).pass i (some q) := by
  unfold pickslot
  dsimp only
  split
  · exact .inl rfl
  split
  · exact .inl (pool_setSem ..)
  split
  · left
    rw [pool_setSem, pool_setSem]
  rcases scanqueue_spec (setSem r q ((r.queues q).enterSem - 1)) q with ⟨i, _, hu, h⟩ | ⟨_, h⟩
  · rw [h]
    right
    refine ⟨i, (usable_setSem ..).1 hu, ?_⟩
    show pool total (setSem (pickslotAction _ q i).1 q 1) = _
    rw [pool_setSem, (pickslotAction_usable total hu).2, pool_setSem]
  · rw [h]
    left
    show pool total (setSem (setSem r q _) q 1) = _
    rw [pool_setSem, pool_setSem]

/-- Picking a slot leaves the bounds of the queues. -/
theorem layout_pickslot (r : Roster) (q x : Nat) : layout ((pickslot r q).1.queues x) = layout (r.queues x) := by
  unfold pickslot
  dsimp only
  split
  · rfl
  split
  · simp
  split
  · simp
  rcases scanqueue_spec (setSem r q ((r.queues q).enterSem - 1)) q with ⟨i, _, _, h⟩ | ⟨_, h⟩
  · rw [h]
    simp [layout_pickslotAction]
  · rw [h]
    simp

/-- Every call keeps the pool balanced. -/
theorem Call.balanced {b : Build} {total : Nat → Int} (r : Roster) (c : Call) (ha : c.allowed b r)
    (h : (pool total r).Balanced Finset.univ) : (pool total (c.run r)).Balanced Finset.univ := by
  cases c with
  | pick q =>
    rcases pickslot_cases total r q with he | ⟨i, _, he⟩
    · exact he ▸ h
    · exact he ▸ h.pass (Finset.mem_univ i) _
  | free i => exact pool_freeslot total ha ▸ h.pass (Finset.mem_univ i) _
  | team k ours theirs =>
    obtain ⟨new, he⟩ := pool_changeTeamQuietly total ha ours theirs
    exact he ▸ h.pass (Finset.mem_univ k) _

theorem Call.layout (r : Roster) (c : Call) (x : Nat) : SlotMaint.layout ((c.run r).queues x) = SlotMaint.layout (r.queues x) := by
  cases c with
  | pick q => exact layout_pickslot r q x
  | free i =>
    show SlotMaint.layout ((freeslot r i).1.queues x) = _
    unfold freeslot
    dsimp only
    split <;> simp
  | team k ours theirs =>
    show SlotMaint.layout ((changeTeamQuietly r k ours theirs).queues x) = _
    rw [changeTeamQuietly_eq]
    dsimp only
    split <;> simp

/-! ## The account -/

/-- A queue that has a slot to give, by its own count, and no other queue's player in its range. -/
structure Ready (r : Roster) (q : Nat) : Prop where
  isOpen : (r.queues q).qFlags.has quOpen = true
  sem : 1 ≤ (r.queues q).enterSem
  free : 0 < (r.queues q).freeSlots
  own : ∀ i, inRange r q i → (r.player i).status ≠ .pfree → (r.player i).wQueue = q

/-- `pickslot` gives a slot of the queue's range that was free. -/
def Allocates (r : Roster) (q : Nat) : Prop :=
  ∃ i : Slot, (pickslot r q).2 = i.val ∧ inRange r q i ∧ (r.player i).status = .pfree ∧
    ((pickslot r q).1.player i).status = .poutfit ∧ ((pickslot r q).1.player i).wQueue = q

/-- The slots of a queue's range that it may be given. -/
def usableSlots (r : Roster) (q : Nat) : Nat :=
  (Finset.univ.filter fun i : Slot => ((r.queues q).lowSlot ≤ i.val ∨ (r.queues q).prefer ≠ 0 ∧ (r.queues q).prefer ≤ i.val) ∧
    i.val < (r.queues q).highSlot ∧ verboten r q i = false).card

/-- A queue that counts a free slot gives one if there is one that it may be given. -/
theorem Ready.allocates_iff {r : Roster} {q : Nat} (h : Ready r q) :
    Allocates r q ↔ ∃ i, inRange r q i ∧ usable r q i := by
  have ho : (!(r.queues q).qFlags.has quOpen) = false := by rw [h.isOpen]; rfl
  have hsem : ¬ (r.queues q).enterSem < 1 := by have := h.sem; omega
  have hfree : ¬ (r.queues q).freeSlots ≤ 0 := by have := h.free; omega
  have hr (i : Slot) := inRange_congr (layout_setSem r q q ((r.queues q).enterSem - 1)) i
  unfold Allocates pickslot
  simp only [ho, Bool.false_eq_true, if_false, if_neg hsem, if_neg hfree]
  rcases scanqueue_spec (setSem r q ((r.queues q).enterSem - 1)) q with ⟨i, hi, hu, he⟩ | ⟨hn, he⟩
  · refine iff_of_true ⟨i, ?_, (hr i).1 hi, ((usable_setSem ..).1 hu).1, ?_⟩
      ⟨i, (hr i).1 hi, (usable_setSem ..).1 hu⟩
    · rw [he]
      rfl
    · rw [he]
      exact pickslotAction_gives hu
  · refine iff_of_false ?_ ?_
    · rintro ⟨i, hi, -⟩
      rw [he] at hi
      exact absurd hi (by show (-1 : Int) ≠ _; omega)
    · rintro ⟨i, hi, hu⟩
      exact hn i ((hr i).2 hi) ((usable_setSem ..).2 hu)

theorem booted_balanced {b : Build} {r : Roster} (h : Booted b r) :
    (pool (fun q => (r.queues q).freeSlots) r).Balanced Finset.univ := by
  intro q
  have hempty : (pool (fun q => (r.queues q).freeSlots) r).held Finset.univ q = ∅ := by
    apply Finset.filter_eq_empty_iff.2
    intro i _ hi
    rw [show (pool _ r).holder i = none from holder_eq_none.2 (h.free i)] at hi
    exact Option.some_ne_none q hi.symm
  rw [hempty]
  show (r.queues q).freeSlots - (r.queues q).freeSlots = _
  simp

/-- A run keeps the pool balanced, and the bounds and flags of the queues. -/
theorem run_account {b : Build} {r₀ r : Roster} {calls : List Call} (h₀ : Booted b r₀)
    (h : Run (Call.allowed b) Call.run r₀ calls r) :
    (pool (fun q => (r₀.queues q).freeSlots) r).Balanced Finset.univ ∧ ∀ q, layout (r.queues q) = layout (r₀.queues q) := by
  constructor
  · exact h.inv (I := fun r => (pool _ r).Balanced Finset.univ) (fun r c ha hb => c.balanced r ha hb) (booted_balanced h₀)
  · apply h.rel (R := fun r r' => ∀ q, layout (r'.queues q) = layout (r.queues q))
    · exact fun _ _ => rfl
    · exact fun h₁ h₂ q => (h₂ q).trans (h₁ q)
    · exact fun r c _ q => c.layout r q

/-- A queue that was given no more free slots than it may use always has one to give. -/
theorem exists_usable {r₀ r : Roster} {q : Nat} (hb : (pool (fun q => (r₀.queues q).freeSlots) r).Balanced Finset.univ)
    (hl : layout (r.queues q) = layout (r₀.queues q)) (hr : Ready r q) (hu : (r₀.queues q).freeSlots ≤ usableSlots r₀ q) :
    ∃ i, inRange r q i ∧ usable r q i := by
  by_contra hn
  have hcount : (r₀.queues q).freeSlots - (r.queues q).freeSlots = inUse r q := hb q
  have hle : usableSlots r₀ q ≤ inUse r q := by
    apply Finset.card_le_card
    intro i hi
    obtain ⟨-, hlow, hhigh, hv⟩ := Finset.mem_filter.1 hi
    have hin : inRange r q i := (inRange_congr hl i).2 ⟨hlow, hhigh⟩
    have hv' : verboten r q i = false := (verboten_congr hl i).trans hv
    have hne : (r.player i).status ≠ .pfree := fun hf => hn ⟨i, hin, hf, hv'⟩
    refine Finset.mem_filter.2 ⟨Finset.mem_univ i, ?_⟩
    rw [holder_of_ne hne, hr.own i hin hne]
  have := hr.free
  omega

/-! ## Which queues have enough slots -/

/-- The slots that a queue may use, as it is set up. -/
def usableOf (s : Queue.Setup) : Nat :=
  (Finset.univ.filter fun i : Slot => (s.lowSlot ≤ i.val ∨ s.prefer ≠ 0 ∧ s.prefer ≤ i.val) ∧ i.val < s.highSlot ∧
    (i.val == 29 && !s.qFlags.has quTok) = false).card

/-- The queues that count slot t but may not use it, and the one whose range is empty. -/
def shortQueues : List Nat := [quRobot, quPickupObs, quGod, quGodObs, quNewbieObs]

theorem setups_short : ∀ x y z, ∀ s ∈ setups ⟨x, y, z⟩, s.freeSlots ≤ usableOf s ↔ s.queue ∉ shortQueues := by decide +kernel

theorem setup_other (b : Build) (m : QMem) (s : Queue.Setup) {q : Nat} (h : q ≠ s.queue) :
    (setup b m s).queues q = m.queues q := by
  unfold setup queueSetname
  split <;> simp [QMem.modifyQueue, QMem.error, h]

theorem setup_own (b : Build) (m : QMem) (s : Queue.Setup) :
    ((setup b m s).queues s.queue).freeSlots = s.freeSlots ∧
      layout ((setup b m s).queues s.queue) = (s.lowSlot, s.highSlot, s.prefer, s.qFlags) := by
  unfold setup queueSetname
  split <;> simp [QMem.modifyQueue, QMem.error, layout]

theorem setup_foldl_other (b : Build) {q : Nat} : ∀ (l : List Queue.Setup) (m : QMem), (∀ s ∈ l, q ≠ s.queue) →
    (l.foldl (setup b) m).queues q = m.queues q
  | [], _, _ => rfl
  | s :: l, m, h => by
    rw [List.foldl_cons, setup_foldl_other b l _ fun s hs => h s (List.mem_cons_of_mem _ hs)]
    exact setup_other b m s (h s (List.mem_cons_self ..))

/-- Each queue is set up once, so what is stored stays. -/
theorem setup_foldl_own (b : Build) : ∀ (l : List Queue.Setup) (m : QMem), (l.map Queue.Setup.queue).Nodup → ∀ s ∈ l,
    ((l.foldl (setup b) m).queues s.queue).freeSlots = s.freeSlots ∧
      layout ((l.foldl (setup b) m).queues s.queue) = (s.lowSlot, s.highSlot, s.prefer, s.qFlags)
  | a :: l, m, hnd, s, hs => by
    rw [List.map_cons, List.nodup_cons] at hnd
    rw [List.foldl_cons]
    rcases List.mem_cons.1 hs with rfl | hs
    · rw [setup_foldl_other b l]
      · exact setup_own b m s
      · rintro x hx he
        exact hnd.1 (he ▸ List.mem_map_of_mem hx)
    · exact setup_foldl_own b l _ hnd.2 s hs

theorem setups_nodup : ∀ x y z, ((setups ⟨x, y, z⟩).map Queue.Setup.queue).Nodup := by decide +kernel

/-- A queue outside `shortQueues` is given no more than it may use. -/
theorem booted_usable {b : Build} {r : Roster} (h : Booted b r) {q : Nat} (hq : q < b.maxQueue) (hs : q ∉ shortQueues) :
    (r.queues q).freeSlots ≤ usableSlots r q := by
  obtain ⟨m, hm⟩ := h.queues
  obtain ⟨x, y, z⟩ := b
  rw [hm]
  by_cases hx : ∃ s ∈ setups ⟨x, y, z⟩, s.queue = q
  · obtain ⟨s, hmem, rfl⟩ := hx
    obtain ⟨hfree, hlay⟩ := setup_foldl_own ⟨x, y, z⟩ (setups ⟨x, y, z⟩) _ (setups_nodup x y z) s hmem
    have hle := (setups_short x y z s hmem).2 hs
    have husable : usableSlots r s.queue = usableOf s := by
      unfold layout at hlay
      simp only [Prod.mk.injEq] at hlay
      obtain ⟨hlow, hhigh, hprefer, hflags⟩ := hlay
      unfold usableSlots usableOf verboten
      rw [hm]
      unfold queuesInit
      rw [hlow, hhigh, hprefer, hflags]
    rw [husable]
    unfold queuesInit
    rw [hfree]
    omega
  · have hfree : ((queuesInit ⟨x, y, z⟩ m).queues q).freeSlots = 0 := by
      unfold queuesInit
      rw [setup_foldl_other _ _ _ fun s hs he => hx ⟨s, hs, he.symm⟩]
      simp [hq, clearQueue]
    rw [hfree]
    omega

/-- In every state that calls lead to, `free_slots` and the slots in use of a queue come to what the queue was given.
A queue that has a slot to give by its own count gives one exactly if its range has one that is free and not reserved;
outside `shortQueues` it always has. -/
theorem slots_accounted {b : Build} {r₀ r : Roster} {calls : List Call} (h₀ : Booted b r₀)
    (h : Run (Call.allowed b) Call.run r₀ calls r) {q : Nat} (hq : q < b.maxQueue) :
    (r.queues q).freeSlots + inUse r q = (r₀.queues q).freeSlots ∧
      (Ready r q →
        (Allocates r q ↔ ∃ i, inRange r q i ∧ (r.player i).status = .pfree ∧ verboten r q i = false)) ∧
      (Ready r q → q ∉ shortQueues → Allocates r q) := by
  obtain ⟨hb, hl⟩ := run_account h₀ h
  have hcount : (r₀.queues q).freeSlots - (r.queues q).freeSlots = inUse r q := hb q
  refine ⟨by omega, fun hr => hr.allocates_iff, ?_⟩
  intro hr hs
  exact hr.allocates_iff.2 (exists_usable hb (hl q) hr (booted_usable h₀ hq hs))

/-! ## A queue that runs short -/

/-- The server at its start. -/
def booted (b : Build) : Roster :=
  { (default : Roster) with
    server := { (default : Server) with mem := { (default : Memory) with players := fun _ => { (default : Player) with status := .pfree } } }
    queues := (queuesInit b default).queues }

theorem booted_booted (b : Build) : Booted b (booted b) := ⟨fun _ => rfl, default, rfl⟩

theorem slots_accounted_pickup :
    (((pickslot (booted ⟨false, true, false⟩) quPickup).1.queues quPickup).freeSlots +
        inUse (pickslot (booted ⟨false, true, false⟩) quPickup).1 quPickup = 16) ∧
      Allocates (pickslot (booted ⟨false, true, false⟩) quPickup).1 quPickup := by
  have h := slots_accounted (booted_booted ⟨false, true, false⟩) (q := quPickup)
    (.of_allowedAll _ [.pick quPickup] (by decide +kernel)) (by decide)
  refine ⟨h.1, h.2.2 ?_ (by decide)⟩
  exact ⟨by decide +kernel, by decide +kernel, by decide +kernel, by unfold inRange; decide +kernel⟩

/-- As many robots as slots without slot t have come in. -/
def robots (n : Nat) : Roster := (List.replicate n (Call.pick quRobot)).foldl Call.run (booted ⟨false, true, false⟩)

/-- One more robot is counted as having a slot free, and gets none. -/
theorem slots_not_allocated :
    Run (Call.allowed ⟨false, true, false⟩) Call.run (booted ⟨false, true, false⟩)
        (List.replicate 15 (Call.pick quRobot)) (robots 15) ∧
      Ready (robots 15) quRobot ∧ ((robots 15).queues quRobot).freeSlots = 1 ∧ (pickslot (robots 15) quRobot).2 = -1 ∧
      ¬ Allocates (robots 15) quRobot := by
  have hnone : (pickslot (robots 15) quRobot).2 = -1 := by decide +kernel
  refine ⟨?_, ⟨by decide +kernel, by decide +kernel, by decide +kernel, ?_⟩, by decide +kernel, hnone, ?_⟩
  · exact .of_allowedAll _ _ (by decide +kernel)
  · unfold inRange
    decide +kernel
  · rintro ⟨i, hi, -⟩
    rw [hnone] at hi
    exact absurd hi (by omega)

end Netrek.SlotMaint
