/-
What `countdown` of `robots/inl.c` announces, in calls a second apart. The first call that is late
announces the last entry of the table that has passed, not the time that is left; from then on the
announcements are right as long as the end is a whole number of seconds away. The action of
`inl_countdown` is at the entry for the end, that of `inl_game` at the entry for one second, and a
second after the end the table is left.
-/
import Mathlib.Algebra.Ring.Divisibility.Basic
import Mathlib.Data.List.GetD
import Mathlib.Tactic.Linarith
import Mathlib.Tactic.Ring
import NetrekServer.Inl.Countdown

namespace Netrek.Inl

/-! ## Notices -/

/-- `time_msg`. -/
inductive TimeMsg
  | seconds
  | second
  | minutes
  | minute
  deriving DecidableEq

/-- What is put into the text of a countdown. -/
structure Notice where
  number : Int
  unit : TimeMsg
  deriving DecidableEq

def Notice.seconds (m : Notice) : Int :=
  match m.unit with
  | .seconds | .second => m.number
  | .minutes | .minute => 60 * m.number

/-- An entry of a table is announced in minutes if it is above 60. -/
def notice (n : Int) : Notice :=
  if 60 < n then ⟨n.tdiv 60, if n.tdiv 60 = 1 then .minute else .minutes⟩ else ⟨n, if n = 1 then .second else .seconds⟩

/-- An entry of the table. -/
def Countdown.count (c : Countdown) (i : Nat) : Int := c.counts.getD i 0

/-- `countdown`: the countdown afterwards, which entry is announced and how, and whether the action is due. -/
def countdownSaid (persec counter : Int) (c : Countdown) : Option (Countdown × Option (Nat × Notice) × Bool) :=
  match c.counts[c.idx]? with
  | none => none
  | some n =>
    if counter < c.ends - n * persec then some (c, none, false)
    else
      match advance persec counter c.counts.length c with
      | none => none
      | some c => some ({ c with idx := c.idx + 1 }, some (c.idx, notice (c.count c.idx)), c.idx == c.act)

/-- Without what is announced, it is the countdown of the robot. -/
theorem countdown_eq (p t : Int) (c : Countdown) :
    countdown p t c = (countdownSaid p t c).map fun r => (r.1, r.2.2) := by
  unfold countdown countdownSaid
  cases c.counts[c.idx]? with
  | none => rfl
  | some n =>
    dsimp only
    split
    · rfl
    · cases advance p t c.counts.length c <;> rfl

/-- What a call does. -/
structure Call where
  counter : Int
  said : Option (Nat × Notice)
  due : Bool

/-- `n` calls a second apart. -/
def calls (p : Int) : Nat → Int → Countdown → Option (List Call)
  | 0, _, _ => some []
  | n + 1, t, c =>
    match countdownSaid p t c with
    | none => none
    | some (c, said, due) => (calls p n (t + p) c).map (⟨t, said, due⟩ :: ·)

/-- The announcements of a run that begins at `t` are true. -/
structure Truthful (p : Int) (c : Countdown) (t : Int) (run : List Call) : Prop where
  /-- What is announced is an entry and the time that is left, in minutes above 60. -/
  exact : ∀ a ∈ run, ∀ i m, a.said = some (i, m) → m = notice (c.count i) ∧
    m.seconds * p = c.ends - a.counter ∧ ((m.unit = .minutes ∨ m.unit = .minute) ↔ 60 < c.count i)
  once : run.Pairwise fun a b => ∀ i m m', a.said = some (i, m) → b.said ≠ some (i, m')
  /-- What has passed before the first call is not announced. -/
  passed : ∀ a ∈ run, ∀ i m, a.said = some (i, m) → c.count i * p ≤ c.ends - t
  /-- The action is due at the first call at the end or after it. -/
  due : ∀ a ∈ run, a.due = true ↔ c.ends ≤ a.counter ∧ ∀ b ∈ run, b.counter < a.counter → b.counter < c.ends

/-! ## Tables -/

/-- With the action at an entry above the end, the entry before it is the last one before which all is well. -/
def Countdown.lowest (c : Countdown) : Int := if c.count c.act = 0 then 0 else c.count c.act + 1

/-- A table of seconds in descending order, down to the action at the end or a second before it. -/
structure Descending (c : Countdown) : Prop where
  room : c.act + 1 < c.counts.length
  desc : ∀ i < c.act, c.count (i + 1) < c.count i
  last : c.count c.act = 0 ∨ c.count c.act = 1
  beyond : ∀ i, -1 ≤ c.count i
  whole : ∀ i, 60 < c.count i → 60 ∣ c.count i

section Table

variable {p t : Int} {c : Countdown}

theorem getElem?_counts {i : Nat} (hi : i < c.counts.length) : c.counts[i]? = some (c.count i) := by
  unfold Countdown.count
  rw [List.getD_eq_getElem?_getD, List.getElem?_eq_getElem hi, Option.getD_some]

theorem notice_seconds {n : Int} (h : 60 < n → 60 ∣ n) : (notice n).seconds = n := by
  unfold notice
  split
  · next hn =>
    obtain ⟨m, rfl⟩ := h hn
    have hm : (60 * m).tdiv 60 = m := Int.mul_tdiv_cancel_left m (by decide)
    rw [hm]
    unfold Notice.seconds
    split_ifs <;> rfl
  · unfold Notice.seconds
    split_ifs <;> rfl

theorem notice_unit (n : Int) :
    ((notice n).unit = .minutes ∨ (notice n).unit = .minute) ↔ 60 < n := by
  unfold notice
  split_ifs with h h1 h1 <;> simp [h]

theorem Descending.lt (h : Descending c) {i j : Nat} (hij : i < j) (hj : j ≤ c.act) : c.count j < c.count i := by
  induction j with
  | zero => omega
  | succ j ih =>
    have hstep := h.desc j (by omega)
    rcases Nat.lt_or_ge i j with hlt | hge
    · exact hstep.trans (ih hlt (by omega))
    · rw [show i = j by omega]
      exact hstep

theorem Descending.le (h : Descending c) {i j : Nat} (hij : i ≤ j) (hj : j ≤ c.act) : c.count j ≤ c.count i := by
  rcases Nat.lt_or_ge i j with hlt | hge
  · exact (h.lt hlt hj).le
  · rw [show i = j by omega]

theorem Descending.nonneg (h : Descending c) {i : Nat} (hi : i ≤ c.act) : 0 ≤ c.count i := by
  have hle := h.le hi le_rfl
  rcases h.last with hl | hl <;> omega

/-- The loop goes on to the last entry that is due. -/
theorem advance_stops (h : Descending c) : ∀ (fuel i : Nat), i ≤ c.act → c.act - i < fuel → c.ends - c.count i * p ≤ t →
    ∃ k, i ≤ k ∧ k ≤ c.act ∧ c.ends - c.count k * p ≤ t ∧ (k = c.act ∨ t < c.ends - c.count (k + 1) * p) ∧
      advance p t fuel { c with idx := i } = some { c with idx := k }
  | 0, _, _, hfuel, _ => absurd hfuel (Nat.not_lt_zero _)
  | fuel + 1, i, hi, hfuel, hpass => by
    have hroom := h.room
    unfold advance
    by_cases hact : i = c.act
    · exact ⟨i, le_rfl, hi, hpass, .inl hact, by rw [if_pos hact]⟩
    · dsimp only
      rw [if_neg hact, getElem?_counts (by omega)]
      dsimp only
      by_cases hnext : c.ends - c.count (i + 1) * p ≤ t
      · rw [if_pos hnext]
        obtain ⟨k, hik, hk, hkpass, hkstop, heq⟩ := advance_stops h fuel (i + 1) (by omega) (by omega) hnext
        exact ⟨k, by omega, hk, hkpass, hkstop, heq⟩
      · rw [if_neg hnext]
        exact ⟨i, le_rfl, hi, hpass, .inr (not_le.1 hnext), rfl⟩

/-- Beyond the action the loop runs off the table once a second has passed. -/
theorem advance_strays (h : Descending c) (hp : 0 < p) (ht : c.ends + p ≤ t) : ∀ (fuel i : Nat), c.act < i →
    advance p t fuel { c with idx := i } = none
  | 0, _, _ => rfl
  | fuel + 1, i, hi => by
    unfold advance
    dsimp only
    rw [if_neg (Nat.ne_of_gt hi)]
    by_cases hlen : i + 1 < c.counts.length
    · have hnext : c.ends - c.count (i + 1) * p ≤ t := by
        have hmul : -1 * p ≤ c.count (i + 1) * p := mul_le_mul_of_nonneg_right (h.beyond (i + 1)) hp.le
        linarith
      rw [getElem?_counts hlen]
      dsimp only
      rw [if_pos hnext]
      exact advance_strays h hp ht fuel (i + 1) (by omega)
    · rw [List.getElem?_eq_none (by omega)]

/-! ## One call -/

theorem countdownSaid_silent (hi : c.idx < c.counts.length) (ht : t < c.ends - c.count c.idx * p) :
    countdownSaid p t c = some (c, none, false) := by
  unfold countdownSaid
  rw [getElem?_counts hi]
  exact if_pos ht

/-- A call that is due announces the last entry that is. -/
theorem countdownSaid_says (h : Descending c) (hi : c.idx ≤ c.act) (ht : c.ends - c.count c.idx * p ≤ t) :
    ∃ k, c.idx ≤ k ∧ k ≤ c.act ∧ c.ends - c.count k * p ≤ t ∧ (k = c.act ∨ t < c.ends - c.count (k + 1) * p) ∧
      countdownSaid p t c = some ({ c with idx := k + 1 }, some (k, notice (c.count k)), k == c.act) := by
  have hroom := h.room
  obtain ⟨k, hik, hk, hpass, hstop, heq⟩ := advance_stops h c.counts.length c.idx hi (by omega) ht
  refine ⟨k, hik, hk, hpass, hstop, ?_⟩
  change advance p t c.counts.length c = some { c with idx := k } at heq
  unfold countdownSaid
  rw [getElem?_counts (by omega)]
  dsimp only
  rw [if_neg (not_lt.2 ht), heq]
  rfl

/-- A second after the end. -/
theorem countdownSaid_strays (h : Descending c) (hp : 0 < p) (hi : c.idx = c.act + 1) (ht : c.ends + p ≤ t) :
    countdownSaid p t c = none := by
  have hroom := h.room
  have hpass : c.ends - c.count c.idx * p ≤ t := by
    have hmul : -1 * p ≤ c.count c.idx * p := mul_le_mul_of_nonneg_right (h.beyond c.idx) hp.le
    linarith
  have heq : advance p t c.counts.length c = none := advance_strays h hp ht c.counts.length c.idx (by omega)
  unfold countdownSaid
  rw [getElem?_counts (by omega)]
  dsimp only
  rw [if_neg (not_lt.2 hpass), heq]

/-! ## Runs -/

/-- A call that is right by itself. -/
structure Proper (p : Int) (c : Countdown) (a : Call) : Prop where
  exact : ∀ i m, a.said = some (i, m) → m = notice (c.count i) ∧ c.count i * p = c.ends - a.counter
  due : a.due = true ↔ c.ends ≤ a.counter ∧ a.counter - p < c.ends

/-- `n` calls from `t` on do not leave the table, and are right. -/
def FineRun (p : Int) (n : Nat) (t : Int) (c : Countdown) : Prop := ∃ run, calls p n t c = some run ∧ ∀ a ∈ run, Proper p c a

theorem fineRun_zero : FineRun p 0 t c := ⟨[], rfl, nofun⟩

/-- The first call, and the others. -/
theorem fineRun_succ {i n : Nat} {said : Option (Nat × Notice)} {due : Bool}
    (h : countdownSaid p t c = some ({ c with idx := i }, said, due)) :
    FineRun p (n + 1) t c ↔ Proper p c ⟨t, said, due⟩ ∧ FineRun p n (t + p) { c with idx := i } := by
  unfold FineRun
  simp only [calls, h, Option.map_eq_some_iff]
  constructor
  · rintro ⟨_, ⟨run, hrun, rfl⟩, hfine⟩
    exact ⟨hfine _ List.mem_cons_self, run, hrun, fun a ha => ⟨(hfine a (List.mem_cons_of_mem _ ha)).exact,
      (hfine a (List.mem_cons_of_mem _ ha)).due⟩⟩
  · rintro ⟨hfirst, run, hrun, hfine⟩
    refine ⟨_, ⟨run, hrun, rfl⟩, fun a ha => ?_⟩
    rcases List.mem_cons.1 ha with rfl | ha
    · exact hfirst
    · exact ⟨(hfine a ha).exact, (hfine a ha).due⟩

theorem not_fineRun_succ {n : Nat} (h : countdownSaid p t c = none) : ¬ FineRun p (n + 1) t c := by
  rintro ⟨run, hrun, -⟩
  simp [calls, h] at hrun

/-- `n` calls, of which the first comes when the next entry is less than a second ahead, are fine. -/
def OnTime (p : Int) (n : Nat) (c : Countdown) (left : Int) : Prop :=
  n = 0 ∨ c.count c.idx * p < left - (n - 1) * p ∨ p ∣ left ∧ c.lowest * p ≤ left - (n - 1) * p

/-- After a call that announces an entry, the run is fine if the notice is exact and the calls do
not go on for too long. -/
theorem fineRun_said (h : Descending c) (hp : 0 < p) {n k : Nat} (hk : k ≤ c.act) (hpass : c.ends - c.count k * p ≤ t)
    (hstop : k = c.act ∨ t < c.ends - c.count (k + 1) * p)
    (heq : countdownSaid p t c = some ({ c with idx := k + 1 }, some (k, notice (c.count k)), k == c.act))
    (ih : ∀ (t : Int) (i : Nat), i ≤ c.act → c.count i * p < c.ends - t + p →
      (FineRun p n t { c with idx := i } ↔ OnTime p n { c with idx := i } (c.ends - t))) :
    FineRun p (n + 1) t c ↔ c.count k * p = c.ends - t ∧ c.lowest * p ≤ c.ends - t - n * p := by
  rw [fineRun_succ heq]
  by_cases hexact : c.count k * p = c.ends - t
  swap
  · simp only [hexact, false_and, iff_false]
    exact fun hfine => hexact (hfine.1.exact k _ rfl).2
  simp only [hexact, true_and]
  have hfineExact : ∀ i m, some (k, notice (c.count k)) = some (i, m) →
      m = notice (c.count i) ∧ c.count i * p = c.ends - t := by
    rintro i m ⟨⟩
    exact ⟨rfl, hexact⟩
  rw [← hexact, ← sub_mul]
  rcases Nat.lt_or_eq_of_le hk with hlt | rfl
  -- an entry before the action
  · have hpos : 0 < c.count k := (h.nonneg le_rfl).trans_lt (h.lt hlt le_rfl)
    have hleft : 0 < c.count k * p := mul_pos hpos hp
    have hfine : Proper p c ⟨t, some (k, notice (c.count k)), k == c.act⟩ := by
      refine ⟨hfineExact, ?_⟩
      have hne : (k == c.act) = false := beq_eq_false_iff_ne.2 (Nat.ne_of_lt hlt)
      simp only [hne, Bool.false_eq_true, false_iff, not_and, not_lt]
      intro hend
      omega
    have hahead : c.count (k + 1) * p < c.ends - (t + p) + p := by
      rcases hstop with hs | hs
      · omega
      · linarith
    have hlow : c.lowest ≤ c.count (k + 1) + 1 ∧ c.lowest ≤ c.count k := by
      have hle := h.le (show k + 1 ≤ c.act by omega) le_rfl
      have hdesc := h.desc k hlt
      have hnonneg := h.nonneg (le_refl c.act)
      unfold Countdown.lowest
      split_ifs <;> omega
    have hleft' : c.ends - (t + p) = (c.count k - 1) * p := by
      rw [sub_mul, hexact]
      ring
    rw [ih (t + p) (k + 1) (by omega) hahead]
    simp only [hfine, true_and]
    unfold OnTime
    show n = 0 ∨ c.count (k + 1) * p < _ ∨ p ∣ _ ∧ c.lowest * p ≤ _ ↔ _
    rw [hleft', show (c.count k - 1) * p - ((n : Int) - 1) * p = (c.count k - n) * p by ring,
      mul_lt_mul_iff_left₀ hp, mul_le_mul_iff_left₀ hp]
    constructor
    · rintro (rfl | hsilent | ⟨-, hlong⟩)
      · push_cast
        omega
      · omega
      · exact hlong
    · exact fun hlong => .inr (.inr ⟨Dvd.intro_left _ rfl, hlong⟩)
  · rcases h.last with hlast | hlast
    -- the action at the end, after which there is no further call
    · have hend : t = c.ends := by
        rw [hlast] at hexact
        omega
      have hfine : Proper p c ⟨t, some (c.act, notice (c.count c.act)), c.act == c.act⟩ := by
        refine ⟨hfineExact, ?_⟩
        simp only [beq_self_eq_true, true_iff]
        omega
      have hlow : c.lowest = 0 := if_pos hlast
      simp only [hfine, true_and]
      rw [mul_le_mul_iff_left₀ hp, hlast, hlow]
      cases n with
      | zero => simp [fineRun_zero]
      | succ n =>
        have hdesc : Descending { c with idx := c.act + 1 } := ⟨h.room, h.desc, h.last, h.beyond, h.whole⟩
        have hnone := countdownSaid_strays (t := t + p) hdesc hp rfl (by show c.ends + p ≤ t + p; omega)
        simp only [not_fineRun_succ hnone, false_iff]
        push_cast
        omega
    -- the action a second before the end
    · have hfine : ¬ Proper p c ⟨t, some (c.act, notice (c.count c.act)), c.act == c.act⟩ := by
        intro hfine
        have hdue := (hfine.due.1 (beq_self_eq_true _)).1
        rw [hlast] at hexact
        dsimp only at hdue
        omega
      have hlow : c.lowest = 2 := by
        unfold Countdown.lowest
        rw [hlast]
        rfl
      simp only [hfine, false_and, false_iff]
      rw [mul_le_mul_iff_left₀ hp, hlast, hlow]
      omega

/-- Calls of which the first comes when the next entry is less than a second ahead: they are fine if there are none,
if the entry is not reached, or if the end is whole seconds away and they do not go on for too long. -/
theorem fineRun_onTime (h : Descending c) (hp : 0 < p) : ∀ (n : Nat) (t : Int) (i : Nat), i ≤ c.act →
    c.count i * p < c.ends - t + p →
    (FineRun p n t { c with idx := i } ↔ OnTime p n { c with idx := i } (c.ends - t)) := by
  intro n
  induction n with
  | zero => exact fun t i _ _ => iff_of_true fineRun_zero (.inl rfl)
  | succ n ih =>
    intro t i hi hahead
    have hdesc : Descending { c with idx := i } := ⟨h.room, h.desc, h.last, h.beyond, h.whole⟩
    have hroom := h.room
    have hunfold : OnTime p (n + 1) { c with idx := i } (c.ends - t) ↔
        c.count i * p < c.ends - t - n * p ∨ p ∣ c.ends - t ∧ c.lowest * p ≤ c.ends - t - n * p := by
      have hpred : ((n + 1 : Nat) : Int) - 1 = n := by omega
      unfold OnTime
      rw [hpred]
      exact or_iff_right (Nat.succ_ne_zero n)
    rw [hunfold]
    -- nothing is due
    by_cases hsilent : t < c.ends - c.count i * p
    · have hlen : i < c.counts.length := by omega
      have heq := countdownSaid_silent (c := { c with idx := i }) hlen hsilent
      have hfine : Proper p { c with idx := i } ⟨t, none, false⟩ := by
        refine ⟨nofun, ?_⟩
        have hnonneg : 0 ≤ c.count i * p := mul_nonneg (h.nonneg hi) hp.le
        simp only [Bool.false_eq_true, false_iff, not_and, not_lt]
        intro hend
        exfalso
        change c.ends ≤ t at hend
        omega
      rw [fineRun_succ (i := i) heq]
      simp only [hfine, true_and]
      rw [ih (t + p) i hi (by omega)]
      unfold OnTime
      show n = 0 ∨ c.count i * p < c.ends - (t + p) - ((n : Int) - 1) * p ∨
        p ∣ c.ends - (t + p) ∧ c.lowest * p ≤ c.ends - (t + p) - ((n : Int) - 1) * p ↔ _
      rw [show c.ends - (t + p) - ((n : Int) - 1) * p = c.ends - t - n * p by ring,
        show c.ends - (t + p) = c.ends - t - p by ring, dvd_sub_self_right]
      constructor
      · rintro (rfl | hrest)
        · left
          simp only [Nat.cast_zero, zero_mul, sub_zero]
          omega
        · exact hrest
      · exact .inr
    -- the entry `k` is due, which has not been announced
    · obtain ⟨k, hik, hk, hpass, hstop, heq⟩ := countdownSaid_says hdesc hi (not_lt.1 hsilent)
      change i ≤ k at hik
      change c.ends - c.count k * p ≤ t at hpass
      have hki : k = i := by
        by_contra hne
        have hlt := h.lt (show i < k by omega) hk
        have hmul : (c.count k + 1) * p ≤ c.count i * p := mul_le_mul_of_nonneg_right (by omega) hp.le
        rw [add_mul, one_mul] at hmul
        omega
      subst hki
      rw [fineRun_said hdesc hp hk hpass hstop heq ih]
      show c.count k * p = c.ends - t ∧ c.lowest * p ≤ c.ends - t - n * p ↔ _
      have hn : 0 ≤ (n : Int) * p := mul_nonneg (Int.natCast_nonneg n) hp.le
      constructor
      · rintro ⟨hexact, hlong⟩
        exact .inr ⟨Dvd.intro_left _ hexact, hlong⟩
      · rintro (hreached | ⟨⟨q, hq⟩, hlong⟩)
        · omega
        -- between the entry and a second less there is no other whole second
        · refine ⟨?_, hlong⟩
          have hlo : c.count k * p < (q + 1) * p := by
            rw [add_mul, one_mul, mul_comm q p, ← hq]
            exact hahead
          have hhi : q * p ≤ c.count k * p := by
            rw [mul_comm q p, ← hq]
            omega
          rw [mul_lt_mul_iff_left₀ hp] at hlo
          rw [mul_le_mul_iff_left₀ hp] at hhi
          rw [hq, mul_comm p q, show c.count k = q by omega]

/-- `n` calls from `t` on, from any entry. -/
def Announced (p : Int) (n : Nat) (c : Countdown) (t : Int) : Prop :=
  n = 0 ∨ c.count c.idx * p < c.ends - t - (n - 1) * p ∨
    p ∣ c.ends - t ∧ c.lowest * p ≤ c.ends - t - (n - 1) * p ∧
      (c.count c.idx * p ≤ c.ends - t ∨ ∃ i, c.idx ≤ i ∧ i ≤ c.act ∧ c.count i * p = c.ends - t)

/-- The first call may be late. -/
theorem fineRun_iff (h : Descending c) (hp : 0 < p) (hi : c.idx ≤ c.act) (n : Nat) : FineRun p n t c ↔ Announced p n c t := by
  cases n with
  | zero => exact iff_of_true fineRun_zero (.inl rfl)
  | succ n =>
    have hroom := h.room
    have hpred : ((n + 1 : Nat) : Int) - 1 = n := by omega
    have hunfold : Announced p (n + 1) c t ↔ c.count c.idx * p < c.ends - t - n * p ∨
        p ∣ c.ends - t ∧ c.lowest * p ≤ c.ends - t - n * p ∧
          (c.count c.idx * p ≤ c.ends - t ∨ ∃ i, c.idx ≤ i ∧ i ≤ c.act ∧ c.count i * p = c.ends - t) := by
      unfold Announced
      rw [hpred]
      exact or_iff_right (Nat.succ_ne_zero n)
    rw [hunfold]
    by_cases hsilent : t < c.ends - c.count c.idx * p
    -- the first entry is still ahead, so this call may as well be one of a run on time
    · have hahead : c.count c.idx * p < c.ends - t + p := by omega
      rw [fineRun_onTime h hp (n + 1) t c.idx hi hahead]
      unfold OnTime
      rw [hpred, or_iff_right (Nat.succ_ne_zero n)]
      have hle : c.count c.idx * p ≤ c.ends - t := by omega
      simp only [hle, true_or, and_true]
    · obtain ⟨k, hik, hk, hpass, hstop, heq⟩ := countdownSaid_says h hi (not_lt.1 hsilent)
      have hn : 0 ≤ (n : Int) * p := mul_nonneg (Int.natCast_nonneg n) hp.le
      rw [fineRun_said h hp hk hpass hstop heq (fineRun_onTime h hp n)]
      constructor
      · rintro ⟨hexact, hlong⟩
        exact .inr ⟨Dvd.intro_left _ hexact, hlong, .inr ⟨k, hik, hk, hexact⟩⟩
      · rintro (hreached | ⟨-, hlong, hlate⟩)
        · omega
        · refine ⟨?_, hlong⟩
          obtain ⟨i, hi, hia, hexact⟩ : ∃ i, c.idx ≤ i ∧ i ≤ c.act ∧ c.count i * p = c.ends - t := by
            rcases hlate with hfirst | hlater
            · exact ⟨c.idx, le_rfl, hi, by omega⟩
            · exact hlater
          -- the entry announced is the last one that is due
          have hki : i ≤ k := by
            by_contra hlt
            have hact : k ≠ c.act := by omega
            have hnext := hstop.resolve_left hact
            have hle := h.le (show k + 1 ≤ i by omega) hia
            have hmul : c.count i * p ≤ c.count (k + 1) * p := mul_le_mul_of_nonneg_right hle hp.le
            omega
          have hle := h.le hki hk
          have hmul : c.count k * p ≤ c.count i * p := mul_le_mul_of_nonneg_right hle hp.le
          omega

/-! ## True announcements -/

/-- The counters of a run: from `t` on, a second apart. -/
structure Spaced (p t : Int) (run : List Call) : Prop where
  start : ∀ a ∈ run, a.counter = t ∨ ∃ b ∈ run, b.counter + p = a.counter
  order : ∀ a ∈ run, t ≤ a.counter
  apart : ∀ a ∈ run, ∀ b ∈ run, a.counter < b.counter → a.counter + p ≤ b.counter
  pairwise : run.Pairwise fun a b => a.counter < b.counter

/-- The calls of a run that stays in the table are a second apart. -/
theorem calls_spaced (hp : 0 < p) : ∀ (n : Nat) (t : Int) (c : Countdown) {run : List Call}, calls p n t c = some run →
    Spaced p t run
  | 0, _, _, _, h => by
    cases h
    exact ⟨nofun, nofun, nofun, .nil⟩
  | n + 1, t, c, _, h => by
    unfold calls at h
    split at h
    · cases h
    · obtain ⟨run, hrun, rfl⟩ := Option.map_eq_some_iff.1 h
      obtain ⟨hstart, horder, hapart, hpair⟩ := calls_spaced hp n _ _ hrun
      refine ⟨fun a ha => ?_, fun a ha => ?_, fun a ha b hb hlt => ?_, .cons (fun a ha => ?_) hpair⟩
      · rcases List.mem_cons.1 ha with rfl | ha
        · exact .inl rfl
        · rcases hstart a ha with hfirst | ⟨b, hb, hnext⟩
          · exact .inr ⟨_, List.mem_cons_self, hfirst.symm⟩
          · exact .inr ⟨b, List.mem_cons_of_mem _ hb, hnext⟩
      · rcases List.mem_cons.1 ha with rfl | ha
        · exact le_rfl
        · have hle := horder a ha
          omega
      · rcases List.mem_cons.1 hb with rfl | hb
        · rcases List.mem_cons.1 ha with rfl | ha
          · exact absurd hlt (lt_irrefl _)
          · have hle := horder a ha
            dsimp only at hlt
            omega
        · rcases List.mem_cons.1 ha with rfl | ha
          · exact horder b hb
          · exact hapart a ha b hb hlt
      · have hle := horder a ha
        dsimp only
        omega

/-- A call is the first one at the end or after it if a second before it was not the end. -/
theorem Spaced.first_iff (hp : 0 < p) {run : List Call} (h : Spaced p t run) (ht : t ≤ c.ends) {a : Call} (ha : a ∈ run) :
    (∀ b ∈ run, b.counter < a.counter → b.counter < c.ends) ↔ a.counter - p < c.ends := by
  constructor
  · intro hearlier
    rcases h.start a ha with hfirst | ⟨b, hb, hnext⟩
    · omega
    · have hlt := hearlier b hb (by omega)
      omega
  · intro hlast b hb hlt
    have hle := h.apart b hb a ha hlt
    omega

/-- Calls that are fine each by itself are true together. -/
theorem truthful_iff (h : Descending c) (hp : 0 < p) (ht : t ≤ c.ends) {n : Nat} {run : List Call}
    (hrun : calls p n t c = some run) : Truthful p c t run ↔ ∀ a ∈ run, Proper p c a := by
  have hspaced := calls_spaced hp n t c hrun
  constructor
  · intro htrue a ha
    refine ⟨fun i m hsaid => ?_, ?_⟩
    · obtain ⟨hm, hexact, -⟩ := htrue.exact a ha i m hsaid
      rw [hm, notice_seconds (h.whole i)] at hexact
      exact ⟨hm, hexact⟩
    · rw [htrue.due a ha, hspaced.first_iff hp ht ha]
  · intro hfine
    refine ⟨fun a ha i m hsaid => ?_, ?_, fun a ha i m hsaid => ?_, fun a ha => ?_⟩
    · obtain ⟨rfl, hexact⟩ := (hfine a ha).exact i m hsaid
      rw [notice_seconds (h.whole i)]
      exact ⟨rfl, hexact, notice_unit _⟩
    -- an entry is right at one time only
    · refine hspaced.pairwise.imp_of_mem fun ha hb hlt i m m' hsaid hsaid' => ?_
      have hexact := ((hfine _ ha).exact i m hsaid).2
      have hexact' := ((hfine _ hb).exact i m' hsaid').2
      omega
    · have hexact := ((hfine a ha).exact i m hsaid).2
      have hle := hspaced.order a ha
      omega
    · rw [(hfine a ha).due, hspaced.first_iff hp ht ha]

end Table

/-- `inl_countdown` from its beginning, or from the entry for ten seconds with the end ten seconds away. -/
structure IsStart (p : Int) (c : Countdown) (t : Int) : Prop where
  counts : c.counts = startCounts
  act : c.act = 8
  idx : c.idx = 0 ∨ c.idx = 2 ∧ c.ends - t = 10 * p

/-- `inl_game` from its beginning. -/
structure IsWhole (c : Countdown) : Prop where
  counts : c.counts = gameCounts
  act : c.act = 12
  idx : c.idx = 0

theorem descending_of_table {table : List Int} {act : Nat} (hroom : act + 1 < table.length)
    (hdesc : ∀ i < act, table.getD (i + 1) 0 < table.getD i 0) (hlast : table.getD act 0 = 0 ∨ table.getD act 0 = 1)
    (hwhole : ∀ n ∈ table, -1 ≤ n ∧ (60 < n → 60 ∣ n)) {c : Countdown} (hcounts : c.counts = table) (hact : c.act = act) :
    Descending c := by
  have hentry : ∀ i, -1 ≤ table.getD i 0 ∧ (60 < table.getD i 0 → 60 ∣ table.getD i 0) := by
    intro i
    rcases Nat.lt_or_ge i table.length with hlt | hge
    · rw [List.getD_eq_getElem _ _ hlt]
      exact hwhole _ (List.getElem_mem hlt)
    · rw [List.getD_eq_default _ _ hge]
      decide
  subst hcounts hact
  exact ⟨hroom, hdesc, hlast, fun i => (hentry i).1, fun i => (hentry i).2⟩

theorem IsStart.descending {p t : Int} {c : Countdown} (h : IsStart p c t) : Descending c :=
  descending_of_table (by decide) (by decide) (by decide) (by decide) h.counts h.act

theorem IsWhole.descending {c : Countdown} (h : IsWhole c) : Descending c :=
  descending_of_table (by decide) (by decide) (by decide) (by decide) h.counts h.act

/-- The announcements of `inl_countdown` and of `inl_game` are true if and only if no call comes, the first entry is not
reached, or the end is whole seconds away, the first entry is not passed yet or an entry is due just at the first
call, and the last call is at the end at the latest, for `inl_game` two seconds before. -/
theorem countdown_true_iff (p : Int) (c : Countdown) (t : Int) (n : Nat) (hp : 0 < p) (hset : IsStart p c t ∨ IsWhole c)
    (ht : t ≤ c.ends) : (∃ run, calls p n t c = some run ∧ Truthful p c t run) ↔ Announced p n c t := by
  have hdesc : Descending c := hset.elim IsStart.descending IsWhole.descending
  have hidx : c.idx ≤ c.act := by
    rcases hset with h | h
    · rw [h.act]
      rcases h.idx with hi | ⟨hi, -⟩ <;> omega
    · rw [h.act, h.idx]
      omega
  rw [← fineRun_iff hdesc hp hidx]
  exact exists_congr fun run => and_congr_right fun hrun => truthful_iff hdesc hp ht hrun

/-- A game of half an hour, at ten calls a second. -/
def halfHour : Countdown := { idx := 0, counts := gameCounts, act := 12, ends := 18000, action := .endTourney }

theorem countdown_true_at_half_hour :
    (∃ run, calls 10 1801 0 halfHour = some run ∧ Truthful 10 halfHour 0 run) ↔ Announced 10 1801 halfHour 0 :=
  countdown_true_iff 10 halfHour 0 1801 (by decide) (.inr ⟨rfl, rfl, rfl⟩) (by decide)

/-- The end of `inl_game`: with one second left the action is due. -/
theorem game_ends_early : ¬ ∀ (p : Int) (c : Countdown) (t : Int) (n : Nat), 0 < p → IsStart p c t ∨ IsWhole c →
    t ≤ c.ends → ∃ run, calls p n t c = some run ∧ Truthful p c t run := by
  intro h
  let game : Countdown := { idx := 0, counts := gameCounts, act := 12, ends := 20, action := .endTourney }
  obtain ⟨run, hrun, htrue⟩ := h 10 game 0 2 (by decide) (.inr ⟨rfl, rfl, rfl⟩) (by decide)
  have hcalls : calls 10 2 0 game = some [⟨0, some (11, ⟨2, .seconds⟩), false⟩, ⟨10, some (12, ⟨1, .second⟩), true⟩] := rfl
  rw [hcalls] at hrun
  cases hrun
  have hdue := (htrue.due ⟨10, some (12, ⟨1, .second⟩), true⟩ (by simp)).1 rfl
  exact absurd hdue.1 (by decide)

end Netrek.Inl
