/-
How kills become carries. The tally of a player, summed over the races and ships, is a small machine of
its own: a kill counts as potential or converted at most once in a life. It keeps the order of the
counters as long as no second kill is converted that was not counted as potential; `ltd_stats.c` steps
it, so that the counters that it keeps are in that order too.
-/
import Mathlib.Algebra.BigOperators.Fin
import NetrekServer.Lib.Run
import NetrekServer.Stats.Armies

namespace Netrek.Stats

open Netrek.Lib

/-! ## The tally -/

/-- The counters of first and second kills, of those that could be converted, and of those that were. -/
inductive Count
  | first
  | firstPotential
  | firstConverted
  | second
  | secondPotential
  | secondConverted
  deriving DecidableEq

def Count.of (k : Kills) : Count → Counter
  | first => k.first
  | firstPotential => k.firstPotential
  | firstConverted => k.firstConverted
  | second => k.second
  | secondPotential => k.secondPotential
  | secondConverted => k.secondConverted

/-- What a player has counted, in all ships, and where it stands in its present life. -/
@[ext] structure Tally where
  counts : Count → Nat
  numKills : Nat
  killPotential : Nat
  /-- The second kill of this life was counted as potential. -/
  counted : Bool

namespace Tally

def count (t : Tally) (x : Count) : Tally := { t with counts := fun c => t.counts c + if c = x then 1 else 0 }

@[grind =] theorem counts_count (t : Tally) (x c : Count) : (t.count x).counts c = t.counts c + if c = x then 1 else 0 := rfl
@[grind =] theorem numKills_count (t : Tally) (x : Count) : (t.count x).numKills = t.numKills := rfl
@[grind =] theorem killPotential_count (t : Tally) (x : Count) : (t.count x).killPotential = t.killPotential := rfl
@[grind =] theorem counted_count (t : Tally) (x : Count) : (t.count x).counted = t.counted := rfl

/-- In green alert, the first kill is potential. -/
def markFirst (t : Tally) (safe : Bool) : Tally :=
  if t.killPotential = 0 ∧ 0 < t.numKills ∧ safe = true then { t.count .firstPotential with killPotential := 1 } else t

/-- In green alert, the second kill is potential once the first is. -/
def markSecond (t : Tally) (safe : Bool) : Tally :=
  if t.killPotential = 1 ∧ 1 < t.numKills ∧ safe = true then
    { t.count .secondPotential with killPotential := 2, counted := true }
  else t

def tick (t : Tally) (safe : Bool) : Tally := (t.markFirst safe).markSecond safe

/-- The kills of a life are counted as far as the history reaches. -/
def kill (t : Tally) : Tally :=
  if t.numKills < numHist then
    let t := if t.numKills = 0 then t.count .first else if t.numKills = 1 then t.count .second else t
    { t with numKills := t.numKills + 1 }
  else t

/-- An army is beamed up, more than the first kill carries or not. -/
def carry (t : Tally) (many : Bool) : Tally :=
  if t.killPotential = 0 then
    let t := if 1 ≤ t.numKills then t.count .firstPotential else t
    let t := if 2 ≤ t.numKills then { t.count .secondPotential with counted := true } else t
    { t with killPotential := 3 }
  else if t.killPotential = 1 ∨ t.killPotential = 2 then
    if 0 < t.numKills then { t.count .firstConverted with killPotential := 3 } else t
  else if t.killPotential = 3 then
    if 1 < t.numKills ∧ many = true then { t.count .secondConverted with killPotential := 4 } else t
  else t

/-- A life is over. -/
def endLife (t : Tally) : Tally := { t with numKills := 0, killPotential := 0, counted := false }

/-- The army that is beamed up converts the second kill. -/
def carries (t : Tally) (many : Bool) : Prop := t.killPotential = 3 ∧ 1 < t.numKills ∧ many = true

/-- No second kill is converted here that was not counted as potential. -/
def timely (t : Tally) (many : Bool) : Prop := t.carries many → t.counted = true

/-- The counters are in order, with what the present life may still count. -/
structure Ordered (t : Tally) : Prop where
  first : t.counts .firstPotential + (if t.killPotential = 0 ∧ 0 < t.numKills then 1 else 0) ≤ t.counts .first
  firstConverted :
    t.counts .firstConverted + (if t.killPotential = 1 ∨ t.killPotential = 2 then 1 else 0) ≤ t.counts .firstPotential
  second : t.counts .secondPotential + (if 1 < t.numKills ∧ t.counted = false then 1 else 0) ≤ t.counts .second
  secondConverted :
    t.counts .secondConverted + (if t.counted = true ∧ t.killPotential ≠ 4 then 1 else 0) ≤ t.counts .secondPotential
  kills : t.counts .second + (if t.numKills = 1 then 1 else 0) ≤ t.counts .first
  early : t.counted = true → 1 < t.numKills ∧ 2 ≤ t.killPotential

theorem first_markFirst (t : Tally) (safe : Bool) : (t.markFirst safe).counts .first = t.counts .first := by
  unfold markFirst
  split
  · rw [counts_count, if_neg (by decide), Nat.add_zero]
  · rfl

theorem Ordered.markFirst {t : Tally} (h : t.Ordered) (safe : Bool) : (t.markFirst safe).Ordered := by
  unfold Tally.markFirst
  split
  · next hc =>
    obtain ⟨hk, hn, -⟩ := hc
    obtain ⟨h₁, h₂, h₃, h₄, h₅, h₆⟩ := h
    constructor <;> grind -linarith
  · exact h

theorem Ordered.markSecond {t : Tally} (h : t.Ordered) (safe : Bool) : (t.markSecond safe).Ordered := by
  unfold Tally.markSecond
  split
  · next hc =>
    obtain ⟨hk, hn, -⟩ := hc
    obtain ⟨h₁, h₂, h₃, h₄, h₅, h₆⟩ := h
    constructor <;> grind -linarith
  · exact h

theorem Ordered.tick {t : Tally} (h : t.Ordered) (safe : Bool) : (t.tick safe).Ordered :=
  (h.markFirst safe).markSecond safe

theorem Ordered.kill {t : Tally} (h : t.Ordered) : t.kill.Ordered := by
  obtain ⟨h₁, h₂, h₃, h₄, h₅, h₆⟩ := h
  unfold Tally.kill
  split
  · dsimp only
    split
    · constructor <;> grind -linarith
    split
    · constructor <;> grind -linarith
    · constructor <;> grind -linarith
  · exact ⟨h₁, h₂, h₃, h₄, h₅, h₆⟩

/-- An army is beamed up in time. -/
theorem Ordered.carry {t : Tally} (h : t.Ordered) {many : Bool} (ht : t.timely many) : (t.carry many).Ordered := by
  obtain ⟨h₁, h₂, h₃, h₄, h₅, h₆⟩ := h
  unfold Tally.timely carries at ht
  unfold Tally.carry
  dsimp only
  split
  · split <;> split <;> constructor <;> grind -linarith
  split
  · split
    · constructor <;> grind -linarith
    · exact ⟨h₁, h₂, h₃, h₄, h₅, h₆⟩
  split
  · split
    · constructor <;> grind -linarith
    · exact ⟨h₁, h₂, h₃, h₄, h₅, h₆⟩
  · exact ⟨h₁, h₂, h₃, h₄, h₅, h₆⟩

theorem Ordered.endLife {t : Tally} (h : t.Ordered) : t.endLife.Ordered := by
  obtain ⟨h₁, h₂, h₃, h₄, h₅, h₆⟩ := h
  unfold Tally.endLife
  constructor <;> grind -linarith

end Tally

/-! ## The tally of the counters -/

/-- A counter of a player, summed over the races and the ships. -/
def total (c : Count) (b : Book) (i : Slot) : Nat :=
  ∑ x : Fin numRaces × Fin numShips, (c.of (b.ltd i x.1 x.2).kills).toNat

/-- The tally of a player, with what is known of its present life. -/
def tally (b : Book) (counted : Bool) (i : Slot) : Tally where
  counts c := total c b i
  numKills := (b.hist i).numKills
  killPotential := (b.hist i).killPotential
  counted := counted

/-- The calls that keep the tally: other counters and other entries of the history change. -/
structure Aside (b b' : Book) : Prop where
  server : b'.server = b.server
  perRace : b'.perRace = b.perRace
  counts : ∀ i r s (c : Count), c.of (b'.ltd i r s).kills = c.of (b.ltd i r s).kills
  numKills : ∀ i, (b'.hist i).numKills = (b.hist i).numKills
  killPotential : ∀ i, (b'.hist i).killPotential = (b.hist i).killPotential

theorem Aside.refl (b : Book) : Aside b b := ⟨rfl, rfl, fun _ _ _ _ => rfl, fun _ => rfl, fun _ => rfl⟩

theorem Aside.trans {a b c : Book} (h : Aside a b) (h' : Aside b c) : Aside a c :=
  ⟨h'.server.trans h.server, h'.perRace.trans h.perRace, fun i r s c => (h'.counts i r s c).trans (h.counts i r s c),
    fun i => (h'.numKills i).trans (h.numKills i), fun i => (h'.killPotential i).trans (h.killPotential i)⟩

theorem Aside.player {b b' : Book} (h : Aside b b') (i : Slot) : b'.player i = b.player i := by
  unfold Book.player
  rw [h.server]

theorem Aside.tally {b b' : Book} (h : Aside b b') (g : Bool) (i : Slot) : tally b' g i = tally b g i := by
  unfold Stats.tally total
  simp only [h.counts, h.numKills, h.killPotential]

/-- Counters that are none of these. -/
theorem aside_modifyAt (b : Book) (i : Slot) (r : Fin numRaces) (s : Fin numShips) {f : LtdStats → LtdStats}
    (hf : ∀ l (c : Count), c.of (f l).kills = c.of l.kills) : Aside b (b.modifyAt i r s f) := by
  refine ⟨rfl, rfl, ?_, fun _ => rfl, fun _ => rfl⟩
  intro j r' s' c
  unfold Book.modifyAt Book.modifyCell
  dsimp only
  by_cases hj : j = i
  · subst hj
    rw [Function.update_self]
    by_cases hr : r' = r
    · subst hr
      rw [Function.update_self]
      by_cases hs : s' = s
      · subst hs
        rw [Function.update_self, hf]
      · rw [Function.update_of_ne hs]
    · rw [Function.update_of_ne hr]
  · rw [Function.update_of_ne hj]

theorem aside_modifyStats (b : Book) (i : Slot) {f : LtdStats → LtdStats}
    (hf : ∀ l (c : Count), c.of (f l).kills = c.of l.kills) :
    Aside b (b.modifyStats i f) := by
  refine ⟨rfl, rfl, ?_, fun _ => rfl, fun _ => rfl⟩
  intro j r s c
  unfold Book.modifyStats
  dsimp only
  split
  · exact (aside_modifyAt b i _ _ hf).counts j r s c
  · rfl

theorem aside_modifyHist (b : Book) (i : Slot) {f : History → History} (hn : ∀ h, (f h).numKills = h.numKills)
    (hk : ∀ h, (f h).killPotential = h.killPotential) : Aside b (b.modifyHist i f) := by
  refine ⟨rfl, rfl, fun _ _ _ _ => rfl, ?_, ?_⟩ <;>
    · intro j
      unfold Book.modifyHist
      dsimp only
      by_cases hj : j = i
      · subst hj
        rw [Function.update_self]
        simp [hn, hk]
      · rw [Function.update_of_ne hj]

/-! ## Counting one more -/

/-- A total changes by what one of its entries does. -/
theorem total_modifyAt (c : Count) (b : Book) (i : Slot) (r : Fin numRaces) (s : Fin numShips) (f : LtdStats → LtdStats) :
    total c (b.modifyAt i r s f) i + (c.of (b.ltd i r s).kills).toNat =
      total c b i + (c.of (f (b.ltd i r s)).kills).toNat := by
  have hmem : (r, s) ∈ (Finset.univ : Finset (Fin numRaces × Fin numShips)) := Finset.mem_univ _
  unfold total
  rw [← Finset.add_sum_erase _ _ hmem, ← Finset.add_sum_erase _ _ hmem]
  have hhead : (b.modifyAt i r s f).ltd i r s = f (b.ltd i r s) := by
    unfold Book.modifyAt Book.modifyCell
    simp
  have hrest : ∑ x ∈ Finset.univ.erase (r, s), (c.of ((b.modifyAt i r s f).ltd i x.1 x.2).kills).toNat =
      ∑ x ∈ Finset.univ.erase (r, s), (c.of (b.ltd i x.1 x.2).kills).toNat := by
    apply Finset.sum_congr rfl
    intro x hx
    have hne := Finset.ne_of_mem_erase hx
    congr 3
    unfold Book.modifyAt Book.modifyCell
    dsimp only
    rw [Function.update_self]
    by_cases hr : x.1 = r
    · have hs : x.2 ≠ s := fun hs => hne (Prod.ext hr hs)
      rw [hr, Function.update_self, Function.update_of_ne hs]
    · rw [Function.update_of_ne hr]
  rw [hrest, hhead]
  dsimp only
  omega

/-- One cell is at most the sum. -/
theorem toNat_le_total (c : Count) (b : Book) (i : Slot) (r : Fin numRaces) (s : Fin numShips) :
    (c.of (b.ltd i r s).kills).toNat ≤ total c b i := by
  unfold total
  rw [← Finset.add_sum_erase _ _ (Finset.mem_univ (r, s))]
  exact Nat.le_add_right _ _

/-- A change of the kills that counts one kill and nothing else of the tally. -/
structure Counts (f : Kills → Kills) (x : Count) : Prop where
  one : ∀ k, x.of (f k) = x.of k + 1
  others : ∀ k (c : Count), c ≠ x → c.of (f k) = c.of k

theorem counts_firstPotential : Counts (fun k => { k with firstPotential := k.firstPotential + 1 }) .firstPotential :=
  ⟨fun _ => rfl, fun _ c h => by cases c <;> first | rfl | exact absurd rfl h⟩

theorem counts_firstConverted : Counts (fun k => { k with firstConverted := k.firstConverted + 1 }) .firstConverted :=
  ⟨fun _ => rfl, fun _ c h => by cases c <;> first | rfl | exact absurd rfl h⟩

theorem counts_secondPotential : Counts (fun k => { k with secondPotential := k.secondPotential + 1 }) .secondPotential :=
  ⟨fun _ => rfl, fun _ c h => by cases c <;> first | rfl | exact absurd rfl h⟩

theorem counts_secondConverted : Counts (fun k => { k with secondConverted := k.secondConverted + 1 }) .secondConverted :=
  ⟨fun _ => rfl, fun _ c h => by cases c <;> first | rfl | exact absurd rfl h⟩

theorem counts_first : Counts (fun k => { k with first := k.first + 1 }) .first :=
  ⟨fun _ => rfl, fun _ c h => by cases c <;> first | rfl | exact absurd rfl h⟩

theorem counts_second : Counts (fun k => { k with second := k.second + 1 }) .second :=
  ⟨fun _ => rfl, fun _ c h => by cases c <;> first | rfl | exact absurd rfl h⟩

/-- A counter that cannot overflow counts one more. -/
theorem total_modifyKills {b : Book} (ht : b.server.mem.status.tourn = true) {i : Slot} {f : Kills → Kills} {x : Count}
    (hf : Counts f x) (hlt : total x b i + 1 < 2 ^ 32) (c : Count) :
    total c (b.modifyKills i f) i = total c b i + if c = x then 1 else 0 := by
  have hat : total c (b.modifyKills i f) i = total c (b.modifyAt i (ltdRace b.perRace (b.player i).team)
      (shipIndex (b.player i).ship.type) fun l => { l with kills := f l.kills }) i := by
    unfold total Book.modifyKills Book.modifyStats
    simp only [ht, if_true]
  rw [hat]
  generalize ltdRace b.perRace (b.player i).team = r
  generalize shipIndex (b.player i).ship.type = s
  have hsum := total_modifyAt c b i r s fun l => { l with kills := f l.kills }
  have hle := toNat_le_total c b i r s
  dsimp only at hsum
  by_cases hc : c = x
  · subst hc
    have hadd : (c.of (b.ltd i r s).kills + 1).toNat = (c.of (b.ltd i r s).kills).toNat + 1 := by
      rw [BitVec.toNat_add]
      exact Nat.mod_eq_of_lt (by show _ + 1 < _; omega)
    rw [hf.one, hadd] at hsum
    rw [if_pos rfl]
    omega
  · rw [hf.others _ _ hc] at hsum
    rw [if_neg hc]
    omega

/-- Counting a kill counts it in the tally. -/
theorem tally_modifyKills {b : Book} (ht : b.server.mem.status.tourn = true) {i : Slot} {f : Kills → Kills} {x : Count}
    (hf : Counts f x) {g : Bool}
    (hlt : (tally b g i).counts x + 1 < 2 ^ 32) : tally (b.modifyKills i f) g i = (tally b g i).count x := by
  unfold tally Tally.count
  rw [show (b.modifyKills i f).hist = b.hist from hist_modifyStats ..]
  simp only [total_modifyKills ht hf hlt]

/-- The other players' tallies are kept. -/
theorem tally_modifyStats_ne {b : Book} {i j : Slot} (h : j ≠ i) (f : LtdStats → LtdStats) (g : Bool) :
    tally (b.modifyStats i f) g j = tally b g j := by
  unfold tally total Book.modifyStats Book.modifyAt
  dsimp only
  split
  · simp only [Function.update_of_ne h]
  · rfl

theorem tally_modifyHist_ne {b : Book} {i j : Slot} (h : j ≠ i) (f : History → History) (g : Bool) :
    tally (b.modifyHist i f) g j = tally b g j := by
  unfold tally total Book.modifyHist
  simp only [Function.update_of_ne h]

/-! ## The calls step the tally -/

section

variable {b : Book} {g : Bool} {i : Slot}

theorem tally_modifyHist (b : Book) (g : Bool) (i : Slot) (f : History → History) :
    tally (b.modifyHist i f) g i =
      { tally b g i with numKills := (f (b.hist i)).numKills, killPotential := (f (b.hist i)).killPotential } := by
  unfold tally
  rw [hist_modifyHist]
  rfl

/-- The other counters are below the first kills, so they do not overflow before these. -/
theorem Tally.Ordered.lt {t : Tally} (h : t.Ordered) (hlt : t.counts .first < 2 ^ 32) :
    (t.killPotential = 0 → 0 < t.numKills → t.counts .firstPotential + 1 < 2 ^ 32) ∧
      (t.killPotential = 1 ∨ t.killPotential = 2 → t.counts .firstConverted + 1 < 2 ^ 32) ∧
      (1 < t.numKills → t.counted = false → t.counts .secondPotential + 1 < 2 ^ 32) ∧
      (t.killPotential = 3 → t.counted = true → t.counts .secondConverted + 1 < 2 ^ 32) ∧
      (t.numKills = 1 → t.counts .second + 1 < 2 ^ 32) := by
  obtain ⟨h₁, h₂, h₃, h₄, h₅, -⟩ := h
  refine ⟨?_, ?_, ?_, ?_, ?_⟩ <;> grind

/-- A kill is counted and the potential set. -/
theorem tally_mark (ht : b.server.mem.status.tourn = true) {f : Kills → Kills} {x : Count} (hf : Counts f x)
    (hlt : (tally b g i).counts x + 1 < 2 ^ 32) (n : Nat) :
    tally ((b.modifyKills i f).modifyHist i fun h => { h with killPotential := n }) g i =
      { (tally b g i).count x with killPotential := n } := by
  rw [tally_modifyHist, tally_modifyKills ht hf hlt]
  unfold Book.modifyKills
  rw [hist_modifyStats]
  rfl

theorem tally_markFirst (ht : b.server.mem.status.tourn = true) (h : (tally b g i).Ordered)
    (hlt : (tally b g i).counts .first < 2 ^ 32) :
    tally (markFirst b i) g i = (tally b g i).markFirst (safe (b.player i)) := by
  unfold markFirst
  split
  · next hc =>
    rw [tally_mark ht counts_firstPotential ((h.lt hlt).1 hc.1 hc.2.1)]
    exact (if_pos hc).symm
  · next hc => exact (if_neg hc).symm

/-- A tick in green alert counts the second kill of a life as potential, if the first is, or becomes so in this tick. -/
def ripens (b : Book) (i : Slot) : Bool :=
  decide ((b.hist i).killPotential ≤ 1 ∧ 1 < (b.hist i).numKills ∧ safe (b.player i) = true)

/-- The first army of a life with two kills counts both as potential. -/
def doubles (b : Book) (i : Slot) : Bool := decide ((b.hist i).killPotential = 0 ∧ 2 ≤ (b.hist i).numKills)

/-- The second potential kill of a life. -/
theorem tally_markSecond (ht : b.server.mem.status.tourn = true) (h : (tally b g i).Ordered)
    (hlt : (tally b g i).counts .first < 2 ^ 32) :
    tally (markSecond b i) (g || decide ((b.hist i).killPotential = 1 ∧ 1 < (b.hist i).numKills ∧ safe (b.player i) = true)) i =
      (tally b g i).markSecond (safe (b.player i)) := by
  unfold markSecond
  split
  · next hc =>
    have hg : (tally b g i).counted = false := by
      rw [← Bool.not_eq_true]
      intro hg
      have := (h.early hg).2
      have hk : (tally b g i).killPotential = 1 := hc.1
      omega
    have hmark := tally_mark ht counts_secondPotential ((h.lt hlt).2.2.1 hc.2.1 hg) 2
    rw [decide_eq_true hc, Bool.or_true]
    exact (congrArg (fun t : Tally => { t with counted := true }) hmark).trans (if_pos hc).symm
  · next hc =>
    rw [decide_eq_false hc, Bool.or_false]
    exact (if_neg hc).symm

/-- Once the first kill has been looked at, the second is potential if it was so for the tick. -/
theorem ripens_markFirst (t : Tally) (safe : Bool) :
    ((t.markFirst safe).killPotential = 1 ∧ 1 < (t.markFirst safe).numKills ∧ safe = true) ↔
      t.killPotential ≤ 1 ∧ 1 < t.numKills ∧ safe = true := by
  unfold Tally.markFirst
  cases safe with
  | false => simp
  | true =>
    simp only [and_true]
    split
    · rw [Tally.numKills_count]
      dsimp only
      omega
    · omega

/-- Both kills of a life are looked at. -/
theorem tally_marks (ht : b.server.mem.status.tourn = true) (h : (tally b g i).Ordered)
    (hlt : (tally b g i).counts .first < 2 ^ 32) :
    tally (markSecond (markFirst b i) i) (g || ripens b i) i = (tally b g i).tick (safe (b.player i)) := by
  have hfirst := tally_markFirst ht h hlt
  have hserver : (markFirst b i).server = b.server := by
    unfold markFirst
    split <;> rfl
  have hplayer : (markFirst b i).player i = b.player i := by
    unfold Book.player
    rw [hserver]
  have hordered : (tally (markFirst b i) g i).Ordered := by
    rw [hfirst]
    exact h.markFirst _
  have hroom : (tally (markFirst b i) g i).counts .first < 2 ^ 32 := by
    rw [hfirst, Tally.first_markFirst]
    exact hlt
  have hnow : decide (((markFirst b i).hist i).killPotential = 1 ∧ 1 < ((markFirst b i).hist i).numKills ∧
      safe (b.player i) = true) = ripens b i := by
    have hiff := ripens_markFirst (tally b g i) (safe (b.player i))
    rw [← hfirst] at hiff
    exact decide_eq_decide.2 hiff
  have hsecond := tally_markSecond (by rw [hserver]; exact ht) hordered hroom
  rw [hplayer, hnow] at hsecond
  rw [hsecond, hfirst]
  rfl

/-- A tick steps the tally. -/
theorem tally_updateTicks (ht : b.server.mem.status.tourn = true) (h : (tally b g i).Ordered)
    (hlt : (tally b g i).counts .first < 2 ^ 32) :
    tally (updateTicks b i) (g || ripens b i) i = (tally b g i).tick (safe (b.player i)) := by
  have ha : Aside b (b.modifyTicks i (countTick (b.player i) (b.hist i))) := aside_modifyStats b i fun _ _ => rfl
  unfold updateTicks
  generalize b.modifyTicks i (countTick (b.player i) (b.hist i)) = b₀ at ha ⊢
  have ht₀ : b₀.server.mem.status.tourn = true := by rw [ha.server]; exact ht
  have hripens : ripens b i = ripens b₀ i := by
    unfold ripens
    rw [ha.killPotential, ha.numKills, ha.player]
  rw [← ha.tally g i] at h hlt ⊢
  rw [hripens, ← ha.player]
  exact tally_marks ht₀ h hlt

/-! ## Kills -/

theorem aside_updateKillsMax (b : Book) (j : Slot) : Aside b (updateKillsMax b j) := by
  unfold updateKillsMax Book.modifyKills
  refine aside_modifyStats b j ?_
  intro l c
  dsimp only
  split <;> cases c <;> rfl

theorem aside_modifyOgged (b : Book) (j : Slot) (f : Ogged → Ogged) : Aside b (b.modifyOgged j f) :=
  aside_modifyStats b j fun _ _ => rfl

theorem aside_countCarrier (b : Book) (credit actual victim : Slot) : Aside b (countCarrier b credit actual victim) := by
  unfold countCarrier
  dsimp only
  refine Aside.trans ?_ (aside_modifyOgged ..)
  split
  · split
    · exact (aside_modifyOgged ..).trans (aside_modifyOgged ..)
    · exact aside_modifyOgged ..
  · split
    · exact (aside_modifyOgged ..).trans (aside_modifyOgged ..)
    · exact aside_modifyOgged ..

theorem of_countWeapon (w : WhyDead) (k : Kills) (c : Count) : c.of (countWeapon w k) = c.of k := by
  unfold countWeapon
  split <;> cases c <;> rfl

/-- A kill is remembered, and counted if it is the first or the second of the life. -/
theorem tally_remember (ht : b.server.mem.status.tourn = true) (h : (tally b g i).Ordered)
    (hlt : (tally b g i).counts .first + 1 < 2 ^ 32) (victim : Slot) :
    tally (remember b i victim) g i = (tally b g i).kill := by
  unfold remember
  dsimp only
  split
  · next hk =>
    have ha : Aside b (b.modifyHist i fun h =>
        { h with kills := Function.update h.kills ⟨(b.hist i).numKills, hk⟩ (histKill b i victim) }) :=
      aside_modifyHist b i (fun _ => rfl) fun _ => rfl
    generalize b.modifyHist i _ = b₁ at ha ⊢
    have ht₁ : b₁.server.mem.status.tourn = true := by rw [ha.server]; exact ht
    have hn : (b.hist i).numKills = (tally b₁ g i).numKills := (ha.numKills i).symm
    rw [← ha.tally g i] at h hlt ⊢
    rw [hn] at hk ⊢
    unfold Tally.kill
    rw [if_pos hk, tally_modifyHist]
    dsimp only
    by_cases h0 : (tally b₁ g i).numKills = 0
    · rw [if_pos h0, if_pos h0, tally_modifyKills ht₁ counts_first hlt]
      unfold Book.modifyKills
      rw [hist_modifyStats]
      rfl
    · rw [if_neg h0, if_neg h0]
      by_cases h1 : (tally b₁ g i).numKills = 1
      · have hsecond := (h.lt (by omega)).2.2.2.2 h1
        rw [if_pos h1, if_pos h1, tally_modifyKills ht₁ counts_second hsecond]
        unfold Book.modifyKills
        rw [hist_modifyStats]
        rfl
      · rw [if_neg h1, if_neg h1]
        rfl
  · next hk => exact (if_neg hk).symm

/-- A kill steps the tally of the player it is credited to. -/
theorem tally_updateKills (ht : b.server.mem.status.tourn = true) (h : (tally b g i).Ordered)
    (hlt : (tally b g i).counts .first + 1 < 2 ^ 32) (actual victim : Slot) :
    tally (updateKills b i actual victim) g i = (tally b g i).kill := by
  have hw : Aside b (b.modifyKills i fun k => countWeapon (b.player victim).whydead { k with total := k.total + 1 }) :=
    aside_modifyStats b i fun l c => (of_countWeapon ..).trans (by cases c <;> rfl)
  have hrest : ∀ b₁, Aside b b₁ → tally (updateKillsMax (remember b₁ i victim) i) g i = (tally b g i).kill := by
    intro b₁ ha
    rw [(aside_updateKillsMax ..).tally, tally_remember (by rw [ha.server]; exact ht) (by rw [ha.tally]; exact h)
      (by rw [ha.tally]; exact hlt), ha.tally]
  unfold updateKills
  dsimp only
  split
  · exact hrest _ (hw.trans (aside_countCarrier ..))
  · exact hrest _ (hw.trans (aside_modifyOgged ..))

/-! ## Armies -/

/-- The armies are more than the first kill carries. -/
def many (p : Player) : Bool := decide (perKill p.ship.type < p.armies)

theorem server_modifyKills (b : Book) (i : Slot) (f : Kills → Kills) : (b.modifyKills i f).server = b.server :=
  server_modifyStats b i _

/-- The first army of a life makes all its kills potential ones at once. -/
theorem tally_first_army (ht : b.server.mem.status.tourn = true) (h : (tally b g i).Ordered)
    (hlt : (tally b g i).counts .first < 2 ^ 32) (h0 : (b.hist i).killPotential = 0) (m : Bool) :
    tally (convert b i) (g || doubles b i) i = (tally b g i).carry m := by
  obtain ⟨hfp, -, hsp, -, -⟩ := h.lt hlt
  have hg : (tally b g i).counted = false := by
    rw [← Bool.not_eq_true]
    intro hg
    have := (h.early hg).2
    have hk : (tally b g i).killPotential = 0 := h0
    omega
  have hn : (tally b g i).numKills = (b.hist i).numKills := rfl
  unfold convert Tally.carry doubles
  dsimp only
  rw [if_pos h0, if_pos (show (tally b g i).killPotential = 0 from h0), hn]
  by_cases h1 : 1 ≤ (b.hist i).numKills
  · rw [if_pos h1, if_pos h1, Tally.numKills_count, hn]
    by_cases h2 : 2 ≤ (b.hist i).numKills
    · rw [if_pos h2, if_pos h2, decide_eq_true ⟨h0, h2⟩, Bool.or_true]
      have hfirst := tally_modifyKills ht counts_firstPotential (hfp h0 h1)
      have hover : (tally (b.modifyKills i fun k => { k with firstPotential := k.firstPotential + 1 }) g i).counts
          .secondPotential + 1 < 2 ^ 32 := by
        rw [hfirst, Tally.counts_count, if_neg (by decide)]
        exact hsp h2 hg
      have hmark := tally_mark (by rw [server_modifyKills]; exact ht) counts_secondPotential hover 3
      rw [hfirst] at hmark
      exact congrArg (fun t : Tally => { t with counted := true }) hmark
    · rw [if_neg h2, if_neg h2, decide_eq_false fun hd => h2 hd.2, Bool.or_false,
        tally_mark ht counts_firstPotential (hfp h0 h1)]
  · have h2 : ¬ 2 ≤ (b.hist i).numKills := by omega
    rw [if_neg h1, if_neg h1, hn, if_neg h2, if_neg h2, decide_eq_false fun hd => h2 hd.2, Bool.or_false, tally_modifyHist]
    rfl

/-- An army that is beamed up steps the tally. -/
theorem tally_convert (ht : b.server.mem.status.tourn = true) (h : (tally b g i).Ordered)
    (hlt : (tally b g i).counts .first < 2 ^ 32)
    (hroom : (tally b g i).carries (many (b.player i)) → (tally b g i).counts .secondConverted + 1 < 2 ^ 32) :
    tally (convert b i) (g || doubles b i) i = (tally b g i).carry (many (b.player i)) := by
  obtain ⟨-, hfc, -⟩ := h.lt hlt
  have hmany : many (b.player i) = true ↔ perKill (b.player i).ship.type < (b.player i).armies := decide_eq_true_iff
  by_cases h0 : (b.hist i).killPotential = 0
  · exact tally_first_army ht h hlt h0 _
  · have hsame : (g || doubles b i) = g := by
      unfold doubles
      rw [decide_eq_false fun hd => h0 hd.1, Bool.or_false]
    rw [hsame]
    unfold convert Tally.carry
    dsimp only
    rw [if_neg h0, if_neg (show (tally b g i).killPotential ≠ 0 from h0)]
    by_cases h12 : (b.hist i).killPotential = 1 ∨ (b.hist i).killPotential = 2
    · rw [if_pos h12, if_pos (show (tally b g i).killPotential = 1 ∨ (tally b g i).killPotential = 2 from h12)]
      by_cases hn : 0 < (b.hist i).numKills
      · rw [if_pos hn, if_pos (show 0 < (tally b g i).numKills from hn), tally_mark ht counts_firstConverted (hfc h12)]
      · rw [if_neg hn, if_neg (show ¬ 0 < (tally b g i).numKills from hn)]
    · rw [if_neg h12, if_neg (show ¬ ((tally b g i).killPotential = 1 ∨ (tally b g i).killPotential = 2) from h12)]
      by_cases h3 : (b.hist i).killPotential = 3
      · rw [if_pos h3, if_pos (show (tally b g i).killPotential = 3 from h3)]
        by_cases hn : 1 < (b.hist i).numKills ∧ perKill (b.player i).ship.type < (b.player i).armies
        · have hn' : 1 < (tally b g i).numKills ∧ many (b.player i) = true := ⟨hn.1, hmany.2 hn.2⟩
          rw [if_pos hn, if_pos hn', tally_mark ht counts_secondConverted (hroom ⟨h3, hn'⟩)]
        · have hn' : ¬ (1 < (tally b g i).numKills ∧ many (b.player i) = true) := fun h => hn ⟨h.1, hmany.1 h.2⟩
          rw [if_neg hn, if_neg hn']
      · rw [if_neg h3, if_neg (show (tally b g i).killPotential ≠ 3 from h3)]

theorem aside_debitVictim (i : Slot) : ∀ (ks : List (Fin numHist)) (b : Book), Aside b (debitVictim b i ks)
  | [], b => .refl b
  | k :: ks, b => by
    unfold debitVictim
    dsimp only
    split
    · split
      · refine Aside.trans ?_ (aside_modifyHist _ i ?_ ?_)
        · exact aside_modifyAt b _ _ _ fun _ _ => rfl
        · exact fun _ => rfl
        · exact fun _ => rfl
      · exact aside_debitVictim i ks b
    · exact aside_debitVictim i ks b

theorem aside_beamupFrom (b : Book) (i : Slot) (place : Int) : Aside b (beamupFrom b i place) := by
  have hh : Aside b (b.modifyHist i fun h => { h with lastBeamupPlanet := place }) :=
    aside_modifyHist b i (fun _ => rfl) fun _ => rfl
  unfold beamupFrom
  dsimp only
  split
  · split
    · exact hh.trans (aside_modifyStats _ i fun _ _ => rfl)
    · exact hh
  · exact .refl b

theorem aside_beamupBy (b : Book) (i : Slot) (sb : Option Slot) : Aside b (beamupBy b i sb) := by
  cases sb with
  | none => exact aside_beamupFrom ..
  | some sb =>
    have hs : Aside b (b.modifyStats sb fun l => { l with armiesAttack := l.armiesAttack + 1 }) :=
      aside_modifyStats b sb fun _ _ => rfl
    exact hs.trans (aside_beamupFrom ..)

/-- Beaming up an army steps the tally. -/
theorem tally_updateArmiesCarried (ht : b.server.mem.status.tourn = true) (h : (tally b g i).Ordered)
    (hlt : (tally b g i).counts .first < 2 ^ 32)
    (hroom : (tally b g i).carries (many (b.player i)) → (tally b g i).counts .secondConverted + 1 < 2 ^ 32)
    (sb : Option Slot) :
    tally (updateArmiesCarried b i sb) (g || doubles b i) i = (tally b g i).carry (many (b.player i)) := by
  have ha : Aside b (b.modifyStats i fun l => { l with armiesTotal := l.armiesTotal + 1 }) :=
    aside_modifyStats b i fun _ _ => rfl
  unfold updateArmiesCarried
  dsimp only
  generalize b.modifyStats i _ = b₀ at ha ⊢
  have ht₀ : b₀.server.mem.status.tourn = true := by rw [ha.server]; exact ht
  have hdoubles : doubles b i = doubles b₀ i := by
    unfold doubles
    rw [ha.killPotential, ha.numKills]
  rw [← ha.tally g i] at h hlt hroom ⊢
  rw [← ha.player] at hroom ⊢
  have hafter : Aside (convert b₀ i) (beamupBy (debitVictim (convert b₀ i) i
      ((List.finRange numHist).take ((convert b₀ i).hist i).numKills)) i sb) :=
    (aside_debitVictim ..).trans (aside_beamupBy ..)
  rw [hafter.tally, hdoubles]
  exact tally_convert ht₀ h hlt hroom

end

/-! ## Runs -/

/-- The book, and for whom a tick or a first army has counted the second kill of the life as potential. -/
structure Ledger where
  book : Book
  counted : Slot → Bool

inductive LtdCall
  | ticks (i : Slot)
  | kill (credit actual victim : Slot)
  /-- An army is beamed up from a planet, or from a starbase. -/
  | carried (i : Slot) (sb : Option Slot)
  | death (i : Slot)
  /-- The game goes on, for the player in a slot. -/
  | play (i : Slot) (p : Player)

/-- The ledger after a call that may count the second kill of a player. -/
def Ledger.note (l : Ledger) (i : Slot) (b : Book) (counts : Bool) : Ledger :=
  ⟨b, Function.update l.counted i (l.counted i || counts)⟩

def LtdCall.run (l : Ledger) : LtdCall → Ledger
  | .ticks i => l.note i (updateTicks l.book i) (ripens l.book i)
  | .kill credit actual victim => { l with book := updateKills l.book credit actual victim }
  | .carried i sb => l.note i (updateArmiesCarried l.book i sb) (doubles l.book i)
  | .death i => ⟨resetHist l.book i, Function.update l.counted i false⟩
  | .play i p => { l with book := { l.book with server := l.book.server.modifyPlayer i fun _ => p } }

/-- Of a player's calls: there is room to count another kill, and no second kill is converted that was not counted as
potential in its life. -/
def LtdCall.timely (i : Slot) (l : Ledger) : LtdCall → Prop
  | .kill credit _ _ => credit = i → total .first l.book i + 1 < 2 ^ 32
  | .carried j _ => j = i → (tally l.book (l.counted i) i).timely (many (l.book.player i))
  | _ => True

/-- A call keeps the tallies of the others. -/
def Others (b b' : Book) (i : Slot) : Prop :=
  b'.server = b.server ∧ ∀ j, j ≠ i → ∀ g, tally b' g j = tally b g j

theorem Others.refl (b : Book) (i : Slot) : Others b b i := ⟨rfl, fun _ _ _ => rfl⟩

theorem Others.trans {a b c : Book} {i : Slot} (h : Others a b i) (h' : Others b c i) : Others a c i :=
  ⟨h'.1.trans h.1, fun j hj g => (h'.2 j hj g).trans (h.2 j hj g)⟩

theorem Aside.others {b b' : Book} (h : Aside b b') (i : Slot) : Others b b' i := ⟨h.server, fun j _ g => h.tally g j⟩

theorem others_modifyStats (b : Book) (i : Slot) (f : LtdStats → LtdStats) : Others b (b.modifyStats i f) i :=
  ⟨server_modifyStats .., fun _ hj g => tally_modifyStats_ne hj f g⟩

theorem others_modifyKills (b : Book) (i : Slot) (f : Kills → Kills) : Others b (b.modifyKills i f) i :=
  others_modifyStats b i _

theorem others_modifyHist (b : Book) (i : Slot) (f : History → History) : Others b (b.modifyHist i f) i :=
  ⟨rfl, fun _ hj g => tally_modifyHist_ne hj f g⟩

theorem others_mark (b : Book) (i : Slot) (f : Kills → Kills) (h : History → History) :
    Others b ((b.modifyKills i f).modifyHist i h) i :=
  (others_modifyKills b i f).trans (others_modifyHist ..)

theorem others_updateTicks (b : Book) (i : Slot) : Others b (updateTicks b i) i := by
  have hfirst (b : Book) : Others b (markFirst b i) i := by
    unfold markFirst
    split
    · exact others_mark ..
    · exact .refl b i
  have hsecond (b : Book) : Others b (markSecond b i) i := by
    unfold markSecond
    split
    · exact others_mark ..
    · exact .refl b i
  unfold updateTicks
  exact ((others_modifyStats b i _).trans (hfirst _)).trans (hsecond _)

theorem others_remember (b : Book) (i victim : Slot) : Others b (remember b i victim) i := by
  unfold remember
  dsimp only
  split
  · refine Others.trans ?_ (others_modifyHist ..)
    split
    · exact (others_modifyHist ..).trans (others_modifyKills ..)
    split
    · exact (others_modifyHist ..).trans (others_modifyKills ..)
    · exact others_modifyHist ..
  · exact .refl b i

theorem others_updateKills (b : Book) (i actual victim : Slot) : Others b (updateKills b i actual victim) i := by
  unfold updateKills
  dsimp only
  refine Others.trans ?_ ((aside_updateKillsMax ..).others i)
  refine Others.trans ?_ (others_remember ..)
  split
  · exact (others_modifyKills ..).trans ((aside_countCarrier ..).others i)
  · exact (others_modifyKills ..).trans ((aside_modifyOgged ..).others i)

/-- A conversion is counted for the carrier alone. -/
theorem others_convert (b : Book) (i : Slot) : Others b (convert b i) i := by
  unfold convert
  dsimp only
  split
  · refine Others.trans ?_ (others_modifyHist ..)
    split <;> split
    · exact (others_modifyKills ..).trans (others_modifyKills ..)
    · exact others_modifyKills ..
    · exact others_modifyKills ..
    · exact .refl b i
  split
  · split
    · exact others_mark ..
    · exact .refl b i
  split
  · split
    · exact others_mark ..
    · exact .refl b i
  · exact .refl b i

theorem others_updateArmiesCarried (b : Book) (i : Slot) (sb : Option Slot) :
    Others b (updateArmiesCarried b i sb) i := by
  unfold updateArmiesCarried
  exact ((others_modifyStats b i _).trans (others_convert ..)).trans
    (((aside_debitVictim ..).trans (aside_beamupBy ..)).others i)

/-- The tally of a player is in order, and so is what its counters leave room for. -/
structure Kept (i : Slot) (l : Ledger) : Prop where
  tourn : l.book.server.mem.status.tourn = true
  ordered : (tally l.book (l.counted i) i).Ordered
  room : total .first l.book i < 2 ^ 32

theorem Kept.carries_room {i : Slot} {l : Ledger} (h : Kept i l)
    (ht : (tally l.book (l.counted i) i).timely (many (l.book.player i))) :
    (tally l.book (l.counted i) i).carries (many (l.book.player i)) →
      (tally l.book (l.counted i) i).counts .secondConverted + 1 < 2 ^ 32 :=
  fun hc => (h.ordered.lt h.room).2.2.2.1 hc.1 (ht hc)

/-- What a call does to the tally of a player. -/
def LtdCall.step (i : Slot) (l : Ledger) (t : Tally) : LtdCall → Tally
  | .ticks j => if i = j then t.tick (safe (l.book.player i)) else t
  | .kill credit _ _ => if i = credit then t.kill else t
  | .carried j _ => if i = j then t.carry (many (l.book.player i)) else t
  | .death j => if i = j then t.endLife else t
  | .play _ _ => t

def Ledger.tally (l : Ledger) (i : Slot) : Tally := Stats.tally l.book (l.counted i) i

/-- The calls of `ltd_stats.c` step the tally of each player. -/
theorem Kept.tally_run {i : Slot} {l : Ledger} (h : Kept i l) (c : LtdCall) (hc : c.timely i l) :
    (c.run l).tally i = c.step i l (l.tally i) := by
  have ht := h.tourn
  cases c with
  | ticks j =>
    by_cases hj : i = j
    · subst hj
      show Stats.tally (updateTicks l.book i) (Function.update l.counted i _ i) i = _
      rw [Function.update_self]
      exact (tally_updateTicks ht h.ordered h.room).trans (if_pos rfl).symm
    · show Stats.tally _ (Function.update l.counted j _ i) i = _
      rw [Function.update_of_ne hj]
      exact ((others_updateTicks l.book j).2 i hj _).trans (if_neg hj).symm
  | kill credit actual victim =>
    by_cases hj : i = credit
    · subst hj
      exact (tally_updateKills ht h.ordered (hc rfl) actual victim).trans (if_pos rfl).symm
    · exact ((others_updateKills l.book credit actual victim).2 i hj _).trans (if_neg hj).symm
  | carried j sb =>
    by_cases hj : i = j
    · subst hj
      show Stats.tally (updateArmiesCarried l.book i sb) (Function.update l.counted i _ i) i = _
      rw [Function.update_self]
      exact (tally_updateArmiesCarried ht h.ordered h.room (h.carries_room (hc rfl)) sb).trans (if_pos rfl).symm
    · show Stats.tally _ (Function.update l.counted j _ i) i = _
      rw [Function.update_of_ne hj]
      exact ((others_updateArmiesCarried l.book j sb).2 i hj _).trans (if_neg hj).symm
  | death j =>
    by_cases hj : i = j
    · subst hj
      show Stats.tally (resetHist l.book i) (Function.update l.counted i false i) i = _
      unfold resetHist
      rw [Function.update_self, tally_modifyHist]
      exact (if_pos rfl).symm
    · show Stats.tally (resetHist l.book j) (Function.update l.counted j false i) i = _
      rw [Function.update_of_ne hj]
      exact ((others_modifyHist l.book j _).2 i hj _).trans (if_neg hj).symm
  | play j p => rfl

/-- Only the game changes the players, and nothing changes the mode. -/
theorem LtdCall.server_run (l : Ledger) (c : LtdCall) :
    (c.run l).book.server = match c with
      | .play i p => l.book.server.modifyPlayer i fun _ => p
      | _ => l.book.server := by
  cases c with
  | ticks i => exact (others_updateTicks l.book i).1
  | kill credit actual victim => exact (others_updateKills l.book credit actual victim).1
  | carried i sb => exact (others_updateArmiesCarried l.book i sb).1
  | death i => rfl
  | play i p => rfl

theorem Tally.first_tick (t : Tally) (safe : Bool) : (t.tick safe).counts .first = t.counts .first := by
  unfold Tally.tick Tally.markSecond
  split
  · show ((t.markFirst safe).count .secondPotential).counts .first = _
    rw [Tally.counts_count, if_neg (by decide), Nat.add_zero, Tally.first_markFirst]
  · exact Tally.first_markFirst t safe

theorem Tally.first_carry (t : Tally) (m : Bool) : (t.carry m).counts .first = t.counts .first := by
  unfold Tally.carry
  dsimp only
  split
  · split <;> split <;> grind
  split
  · split <;> grind
  split
  · split <;> grind
  · rfl

theorem Tally.first_kill (t : Tally) : t.kill.counts .first ≤ t.counts .first + 1 := by
  unfold Tally.kill
  split
  · dsimp only
    split
    · grind
    split <;> grind
  · omega

/-- A timely call keeps the tally in order. -/
theorem LtdCall.ordered_step {i : Slot} {l : Ledger} (c : LtdCall) (hc : c.timely i l) (h : (l.tally i).Ordered) :
    (c.step i l (l.tally i)).Ordered := by
  cases c with
  | ticks j =>
    dsimp only [LtdCall.step]
    split
    · exact h.tick _
    · exact h
  | kill credit actual victim =>
    dsimp only [LtdCall.step]
    split
    · exact h.kill
    · exact h
  | carried j sb =>
    dsimp only [LtdCall.step]
    split
    · next hj =>
      subst hj
      exact h.carry (hc rfl)
    · exact h
  | death j =>
    dsimp only [LtdCall.step]
    split
    · exact h.endLife
    · exact h
  | play j p => exact h

/-- The count of first kills does not wrap if all are counted in time. -/
theorem LtdCall.first_step {i : Slot} {l : Ledger} (c : LtdCall) (hc : c.timely i l)
    (h : (l.tally i).counts .first < 2 ^ 32) : (c.step i l (l.tally i)).counts .first < 2 ^ 32 := by
  cases c with
  | ticks j =>
    dsimp only [LtdCall.step]
    split
    · rwa [Tally.first_tick]
    · exact h
  | kill credit actual victim =>
    dsimp only [LtdCall.step]
    split
    · next hj =>
      subst hj
      exact (Tally.first_kill _).trans_lt (hc rfl)
    · exact h
  | carried j sb =>
    dsimp only [LtdCall.step]
    split
    · rwa [Tally.first_carry]
    · exact h
  | death j =>
    dsimp only [LtdCall.step]
    split
    · exact h
    · exact h
  | play j p => exact h

theorem Kept.run {i : Slot} {l : Ledger} (c : LtdCall) (hc : c.timely i l) (h : Kept i l) : Kept i (c.run l) := by
  have hstep := h.tally_run c hc
  refine ⟨?_, ?_, ?_⟩
  · rw [LtdCall.server_run]
    split
    · exact h.tourn
    · exact h.tourn
  · show ((c.run l).tally i).Ordered
    rw [hstep]
    exact c.ordered_step hc h.ordered
  · show ((c.run l).tally i).counts .first < 2 ^ 32
    rw [hstep]
    exact c.first_step hc h.room

/-- The ledger of a player that starts after `ltd_reset`, in tournament mode. -/
structure Started (i : Slot) (l : Ledger) : Prop where
  tourn : l.book.server.mem.status.tourn = true
  reset : ∃ b, l.book = reset b i
  counted : l.counted i = false

/-- Nothing is counted yet. -/
def Tally.zero : Tally := ⟨fun _ => 0, 0, 0, false⟩

/-- At the start nothing is counted. -/
theorem Started.tally {i : Slot} {l : Ledger} (h : Started i l) : l.tally i = .zero := by
  obtain ⟨-, ⟨b, hb⟩, hc⟩ := h
  unfold Ledger.tally
  rw [hc, hb]
  unfold Stats.reset resetHist
  rw [tally_modifyHist]
  ext c
  · show total c _ i = 0
    unfold total
    apply Finset.sum_eq_zero
    rintro x -
    dsimp only
    rw [Function.update_self]
    cases c <;> rfl
  · rfl
  · rfl
  · rfl

theorem Started.kept {i : Slot} {l : Ledger} (h : Started i l) : Kept i l := by
  have hzero := h.tally
  refine ⟨h.tourn, ?_, ?_⟩
  · show (l.tally i).Ordered
    rw [hzero]
    constructor <;> decide
  · have hfirst : (l.tally i).counts .first = 0 := by rw [hzero]; rfl
    exact hfirst.trans_lt (Nat.two_pow_pos 32)

/-- In every run of timely calls, of any players: no more kills were converted to carries than were potential, and no
more were potential than were made, of first kills and of second ones. -/
theorem conversions_ordered {i : Slot} {l₀ l : Ledger} {calls : List LtdCall} (h₀ : Started i l₀)
    (h : Run (LtdCall.timely i) LtdCall.run l₀ calls l) :
    total .firstConverted l.book i ≤ total .firstPotential l.book i ∧
      total .firstPotential l.book i ≤ total .first l.book i ∧
      total .secondConverted l.book i ≤ total .secondPotential l.book i ∧
      total .secondPotential l.book i ≤ total .second l.book i := by
  have hk := (h.inv (fun _ c hc hk => hk.run c hc) h₀.kept).ordered
  obtain ⟨hfirst, hconverted, hsecond, hsecondConverted, -, -⟩ := hk
  exact ⟨(Nat.le_add_right _ _).trans hconverted, (Nat.le_add_right _ _).trans hfirst,
    (Nat.le_add_right _ _).trans hsecondConverted, (Nat.le_add_right _ _).trans hsecond⟩

/-! ## A conversion that was not potential -/

/-- A cruiser of the federation in green alert, with armies on board. -/
def cruiser (armies : Int) : Player :=
  { (default : Player) with
    status := .palive
    team := fed
    flags := pfGreen
    ship := { (default : Ship) with type := .cruiser, maxDamage := 100 }
    armies := armies }

/-- The start, in tournament mode. -/
def started : Ledger :=
  let status : Status := { (default : Status) with tourn := true }
  let server : Server := { (default : Server) with mem := { (default : Memory) with players := fun _ => cruiser 0, status := status } }
  ⟨reset { (default : Book) with server := server } 0, fun _ => false⟩

theorem started_started : Started 0 started := ⟨rfl, ⟨_, rfl⟩, rfl⟩

theorem player_play (l : Ledger) (i : Slot) (p : Player) : (LtdCall.run l (.play i p)).book.player i = p := by
  show (l.book.server.modifyPlayer i fun _ => p).player i = p
  rw [Server.player_modifyPlayer, if_pos rfl]

/-- A kill, and then armies on board. -/
def killed (l : Ledger) (armies : Int) : Ledger := LtdCall.run (LtdCall.run l (.kill 0 0 1)) (.play 0 (cruiser armies))

theorem many_killed (l : Ledger) (armies : Int) : many ((killed l armies).book.player 0) = many (cruiser armies) := by
  unfold killed
  rw [player_play]

theorem timely_kill {l : Ledger} {t : Tally} (ht : l.tally 0 = t) (hroom : t.counts .first + 1 < 2 ^ 32) :
    (LtdCall.kill 0 0 1).timely 0 l := by
  rintro -
  show (l.tally 0).counts .first + 1 < 2 ^ 32
  rw [ht]
  exact hroom

theorem kept_killed {l : Ledger} {t : Tally} (h : Kept 0 l) (ht : l.tally 0 = t) (hroom : t.counts .first + 1 < 2 ^ 32)
    (armies : Int) : Kept 0 (killed l armies) ∧ (killed l armies).tally 0 = t.kill := by
  have hk := timely_kill ht hroom
  have hkill := h.run _ hk
  refine ⟨hkill.run (.play 0 (cruiser armies)) trivial, ?_⟩
  have hplay := hkill.tally_run (.play 0 (cruiser armies)) trivial
  have hstep := h.tally_run _ hk
  rw [ht] at hstep
  exact hplay.trans hstep

theorem timely_firstArmy : (LtdCall.carried 0 none).timely 0 (killed started 1) := by
  obtain ⟨-, ht⟩ := kept_killed started_started.kept started_started.tally (Nat.one_lt_two_pow (by decide)) 1
  rintro - ⟨hk, -⟩
  exact absurd ((congrArg Tally.killPotential ht).symm.trans hk) (by decide)

/-- A kill, and an army before green alert. -/
def firstArmy : Ledger := LtdCall.run (killed started 1) (.carried 0 none)

theorem conversions_ordered_firstArmy : total .firstConverted firstArmy.book 0 ≤ total .firstPotential firstArmy.book 0 := by
  have hroom : Tally.zero.counts .first + 1 < 2 ^ 32 := Nat.one_lt_two_pow (by decide)
  have hrun : Run (LtdCall.timely 0) LtdCall.run started [.kill 0 0 1, .play 0 (cruiser 1), .carried 0 none] firstArmy :=
    .cons (timely_kill started_started.tally hroom) (.cons trivial (.cons timely_firstArmy (.nil _)))
  exact (conversions_ordered started_started hrun).1

/-- A second kill then, and armies enough to convert it. -/
def secondArmy : Ledger := LtdCall.run (killed firstArmy 3) (.carried 0 none)

/-- The second kill comes when an army of the first is on board already: it is counted as converted, and never as
potential. -/
theorem converted_not_potential :
    Started 0 started ∧ total .second secondArmy.book 0 = 1 ∧ total .secondConverted secondArmy.book 0 = 1 ∧
      total .secondPotential secondArmy.book 0 = 0 := by
  obtain ⟨h₁, ht₁⟩ := kept_killed started_started.kept started_started.tally (Nat.one_lt_two_pow (by decide)) 1
  have h₂ : Kept 0 firstArmy := h₁.run _ timely_firstArmy
  have ht₂ : firstArmy.tally 0 = Tally.zero.kill.carry false := by
    have hstep : firstArmy.tally 0 = ((killed started 1).tally 0).carry (many ((killed started 1).book.player 0)) :=
      h₁.tally_run _ timely_firstArmy
    rw [hstep, many_killed, ht₁]
    rfl
  obtain ⟨h₃, ht₃⟩ := kept_killed h₂ ht₂ (Nat.lt_of_lt_of_eq (by decide : 2 < 4294967296) (by decide)) 3
  -- the last army is not timely, but nothing overflows
  have hroom : (tally (killed firstArmy 3).book ((killed firstArmy 3).counted 0) 0).counts .secondConverted + 1 < 2 ^ 32 := by
    have hzero : (tally (killed firstArmy 3).book ((killed firstArmy 3).counted 0) 0).counts .secondConverted = 0 :=
      (congrArg (fun t : Tally => t.counts .secondConverted) ht₃).trans (by decide)
    rw [hzero]
    exact Nat.one_lt_two_pow (by decide)
  have hlast := tally_updateArmiesCarried h₃.tourn h₃.ordered h₃.room (fun _ => hroom) none
  rw [many_killed, show tally (killed firstArmy 3).book ((killed firstArmy 3).counted 0) 0 = _ from ht₃] at hlast
  have hcount (c : Count) := congrArg (fun t : Tally => t.counts c) hlast
  exact ⟨started_started, (hcount .second).trans (by decide), (hcount .secondConverted).trans (by decide),
    (hcount .secondPotential).trans (by decide)⟩

end Netrek.Stats
