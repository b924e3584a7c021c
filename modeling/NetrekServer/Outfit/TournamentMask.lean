/-
`tournamentMask` of `ntserv/getentry.c`: which teams a player may pick. Full teams, the teams across the galaxy from the
two largest, dead teams, and teams that would grow too large are taken out one after another, so that for some players
nothing is left.
-/
import Mathlib
import NetrekServer.Outfit.Entry

namespace Netrek.Outfit

open Netrek.Queue

/-! ## Data -/

def guGameOk : Word := 0x1

/-- What else `tournamentMask` reads: settings, the hours, and the process of the player. -/
structure Admission where
  inlMode : Bool
  observer : Bool
  /-- `is_guest` of the player's name. -/
  guest : Bool
  timeAccess : Bool
  mustexit : Bool
  recreationalDogfightMode : Bool
  topgun : Bool
  nodiag : Bool
  classictourn : Bool

/-- There are teams, so that 0 is the number of one. -/
local instance neZero_teams : NeZero 4 := ⟨by decide⟩

/-- `1 << i`, the team of this number. -/
def teamBit (i : Fin 4) : Word := BitVec.twoPow 32 i.val

/-- The team across the galaxy from a team. -/
def diagonal : Fin 4 → Word
  | 0 => kli
  | 1 => ori
  | 2 => fed
  | 3 => rom

/-- `realNumShipsBots`. -/
def realNumShipsBots (y : Yard) (owner : Word) : Nat :=
  (List.finRange maxPlayer).countP fun i =>
    (y.player i).status != .pfree && !(y.player i).flags.has pfObserv && (y.player i).team == owner

/-- `deadTeam`. -/
def deadTeam (o : Admission) (y : Yard) (owner : Word) : Bool :=
  !o.timeAccess || (List.finRange maxPlanets).countP (fun l => (y.server.planet l).owner.has owner) == 0

/-! ## The two largest teams -/

/-- The count of a team, bots included before tournament mode. -/
def teamCount (y : Yard) (i : Fin 4) : Nat :=
  if y.mode guPret then realNumShipsBots y (teamBit i) else realNumShips y.server.mem (teamBit i)

/-- The largest team and the second largest, after another team is looked at. -/
def pickLarge (count : Fin 4 → Nat) (large : Fin 4 × Fin 4) (i : Fin 4) : Fin 4 × Fin 4 :=
  if count large.1 < count i then (i, large.1)
  else if count large.2 < count i ∨ large.1 = large.2 then (large.1, i)
  else large

def largest (count : Fin 4 → Nat) : Fin 4 × Fin 4 := [0, 1, 2, 3].foldl (pickLarge count) (0, 0)

/-! ## The mask -/

/-- `mask &= ~w`, if so. -/
def dropIf (b : Bool) (w mask : Word) : Word := if b then mask &&& ~~~w else mask

/-- A team that no others may join. -/
def isFull (y : Yard) (i : Fin 4) : Bool := decide (8 ≤ teamCount y i) || (decide (4 ≤ teamCount y i) && y.mode guPret)

/-- Full teams are taken out, but for one's own. -/
def dropFull (o : Admission) (y : Yard) (team mask : Word) : Word :=
  [0, 1, 2, 3].foldl (fun mask i => dropIf (isFull y i && team != teamBit i && !o.observer) (teamBit i) mask) mask

/-- The teams across from the two largest are taken out, if those have two players. -/
def dropDiagonals (o : Admission) (y : Yard) (mask : Word) : Word :=
  let large := largest (teamCount y)
  let on := o.nodiag && (!o.classictourn || y.server.mem.status.tourn)
  [large.1, large.2].foldl (fun mask l => dropIf (on && decide (2 ≤ teamCount y l)) (diagonal l) mask) mask

/-- The last part: new players, players of the two largest teams, and players of another. -/
def dropLarge (o : Admission) (y : Yard) (team mask : Word) : Word :=
  let count := teamCount y
  let large := largest count
  if team = allTeam ∧ o.observer = true then mask
  else if o.classictourn = false ∧ y.server.mem.status.tourn = false ∧ team = allTeam then
    dropIf (decide (4 ≤ count large.2)) (teamBit large.2) (dropIf (decide (4 ≤ count large.1)) (teamBit large.1) mask)
  else if team ≠ allTeam ∧ (team = teamBit large.1 ∨ team = teamBit large.2) then
    if team = teamBit large.1 ∧ count large.1 < count large.2 + 2 then dropIf true (teamBit large.2) mask
    else if team = teamBit large.2 ∧ count large.2 < count large.1 + 2 then dropIf true (teamBit large.1) mask
    else mask
  else if count large.2 + 1 < count large.1 then dropIf true (teamBit large.1) mask
  else if count large.1 + 1 < count large.2 then dropIf true (teamBit large.2) mask
  else mask

/-- `tournamentMask`. -/
def tournamentMask (o : Admission) (y : Yard) (me : Slot) (team : Word) (queue : PQueue) : Word :=
  let origmask := queue.tournmask
  let large := largest (teamCount y)
  if o.inlMode && !o.observer && o.guest || !o.timeAccess || !y.mode guGameOk || o.mustexit then 0
  else if (y.player me).authorised && (y.player me).flags.has pfObserv then allTeam
  else if o.recreationalDogfightMode then allTeam
  else if y.mode guChaos || o.topgun then origmask
  else if !queue.qFlags.has quRestrict then origmask
  else if deadTeam o y team then
    dropIf true (teamBit large.2) (dropIf true (teamBit large.1) (origmask &&& ~~~team))
  else dropLarge o y team (dropDiagonals o y (dropFull o y team origmask))

/-! ## Bits -/

variable {o : Admission} {y : Yard} {me : Slot} {team mask : Word} {queue : PQueue}

theorem has_teamBit (mask : Word) (i : Fin 4) : mask.has (teamBit i) = mask.getLsbD i.val := by
  unfold Word.has teamBit
  rw [BitVec.and_twoPow]
  cases mask.getLsbD i.val with
  | true => revert i; decide
  | false => rfl

theorem teamBit_getLsbD (i j : Fin 4) : (teamBit i).getLsbD j.val = decide (i = j) := by
  revert i j
  decide

theorem teamBit_inj {i j : Fin 4} (h : teamBit i = teamBit j) : i = j := by
  revert i j
  decide

theorem diagonal_eq (i : Fin 4) : diagonal i = teamBit (i + 2) := by
  revert i
  decide

@[simp] theorem getLsbD_dropIf (b : Bool) (i j : Fin 4) (mask : Word) :
    (dropIf b (teamBit i) mask).getLsbD j.val = (mask.getLsbD j.val && !(b && decide (i = j))) := by
  unfold dropIf
  cases b with
  | true =>
    have hj : j.val < 32 := by omega
    rw [if_pos rfl, BitVec.getLsbD_and, BitVec.getLsbD_not, teamBit_getLsbD]
    simp [hj]
  | false => simp

/-- A mask within all teams is empty if it offers none. -/
theorem eq_zero_iff (h : mask &&& ~~~allTeam = 0) : mask = 0 ↔ ∀ i : Fin 4, mask.getLsbD i.val = false := by
  constructor
  · rintro rfl i
    simp
  · intro hbits
    have hkept : mask = mask &&& allTeam := by
      calc mask = mask &&& (allTeam ||| ~~~allTeam) := by
            rw [show allTeam ||| ~~~allTeam = (-1 : Word) from by decide]
            exact (BitVec.and_allOnes).symm
        _ = mask &&& allTeam := by rw [BitVec.and_or_distrib_left, h]; exact BitVec.or_zero
    rw [hkept, show allTeam = teamBit 0 ||| teamBit 1 ||| teamBit 2 ||| teamBit 3 from by decide]
    have hnone (i : Fin 4) : mask &&& teamBit i = 0 := by
      unfold teamBit
      rw [BitVec.and_twoPow, if_neg (by rw [hbits i]; decide)]
      rfl
    simp [BitVec.and_or_distrib_left, hnone]

/-- The two largest teams among those looked at; they are the same only at the first. -/
structure Leads (count : Fin 4 → Nat) (seen : List (Fin 4)) (large : Fin 4 × Fin 4) : Prop where
  mem : large.1 ∈ seen
  ordered : count large.2 ≤ count large.1
  rest : ∀ i ∈ seen, i ≠ large.1 → count i ≤ count large.2
  apart : large.1 = large.2 → ∀ i ∈ seen, i = large.1

/-- After one more team, the two largest are still known. -/
theorem Leads.pick {count : Fin 4 → Nat} {seen : List (Fin 4)} {large : Fin 4 × Fin 4} (h : Leads count seen large)
    {i : Fin 4} (hi : i ∉ seen) : Leads count (i :: seen) (pickLarge count large i) := by
  have hne1 : large.1 ≠ i := by
    rintro rfl
    exact hi h.mem
  unfold pickLarge
  split_ifs with hfirst hsecond
  · refine ⟨List.mem_cons_self, hfirst.le, ?_, fun heq => absurd heq.symm hne1⟩
    intro j hj hne
    by_cases hj1 : j = large.1
    · rw [hj1]
    · have hmem : j ∈ seen := (List.mem_cons.mp hj).resolve_left hne
      exact (h.rest j hmem hj1).trans h.ordered
  · refine ⟨List.mem_cons_of_mem _ h.mem, not_lt.mp hfirst, ?_, fun heq => absurd heq hne1⟩
    intro j hj hne
    obtain rfl | hmem := List.mem_cons.mp hj
    · exact le_refl _
    · obtain hlt | heq := hsecond
      · exact (h.rest j hmem hne).trans hlt.le
      · exact absurd (h.apart heq j hmem) hne
  · obtain ⟨hle, hdiff⟩ := not_or.mp hsecond
    refine ⟨List.mem_cons_of_mem _ h.mem, h.ordered, ?_, fun heq => absurd heq hdiff⟩
    intro j hj hne
    obtain rfl | hmem := List.mem_cons.mp hj
    · exact not_lt.mp hle
    · exact h.rest j hmem hne

/-- The two largest teams are different, and no other is larger. -/
theorem largest_leads (count : Fin 4 → Nat) : Leads count [3, 2, 1, 0] (largest count) := by
  have hfirst : Leads count [0] (pickLarge count (0, 0) 0) := by
    simp only [pickLarge, lt_irrefl, if_false, or_true, if_true]
    exact ⟨by simp, le_refl _, by simp, by simp⟩
  exact ((hfirst.pick (by decide)).pick (by decide)).pick (by decide)

theorem mem_teams (i : Fin 4) : i ∈ ([3, 2, 1, 0] : List (Fin 4)) := by
  revert i
  decide

theorem largest_ne (count : Fin 4 → Nat) : (largest count).1 ≠ (largest count).2 := by
  intro heq
  have h0 := (largest_leads count).apart heq 0 (mem_teams 0)
  have h1 := (largest_leads count).apart heq 1 (mem_teams 1)
  rw [← h0] at h1
  exact absurd h1 (by decide)

theorem largest_rest (count : Fin 4 → Nat) {i : Fin 4} (h : i ≠ (largest count).1) : count i ≤ count (largest count).2 :=
  (largest_leads count).rest i (mem_teams i) h

/-! ## What each part leaves -/

@[simp] theorem getLsbD_dropFull (o : Admission) (y : Yard) (team mask : Word) (j : Fin 4) :
    (dropFull o y team mask).getLsbD j.val =
      (mask.getLsbD j.val && !(isFull y j && team != teamBit j && !o.observer)) := by
  simp only [dropFull, List.foldl_cons, List.foldl_nil, getLsbD_dropIf]
  fin_cases j <;> simp

/-- The diagonals are closed. -/
def diagonalsClosed (o : Admission) (y : Yard) : Bool := o.nodiag && (!o.classictourn || y.server.mem.status.tourn)

@[simp] theorem getLsbD_dropDiagonals (o : Admission) (y : Yard) (mask : Word) (j : Fin 4) :
    (dropDiagonals o y mask).getLsbD j.val =
      (mask.getLsbD j.val && !(diagonalsClosed o y && decide (2 ≤ teamCount y (largest (teamCount y)).1) &&
          decide ((largest (teamCount y)).1 + 2 = j)) &&
        !(diagonalsClosed o y && decide (2 ≤ teamCount y (largest (teamCount y)).2) &&
          decide ((largest (teamCount y)).2 + 2 = j))) := by
  simp only [dropDiagonals, List.foldl_cons, List.foldl_nil, diagonal_eq, getLsbD_dropIf, diagonalsClosed]

/-- The player is on one of the two largest teams. -/
def Seated (y : Yard) (team : Word) : Prop :=
  team = teamBit (largest (teamCount y)).1 ∨ team = teamBit (largest (teamCount y)).2

/-- A new player outside tournament mode. -/
def Newcomer (o : Admission) (y : Yard) (team : Word) : Prop :=
  o.classictourn = false ∧ y.server.mem.status.tourn = false ∧ team = allTeam

theorem teamBit_ne_allTeam (i : Fin 4) : teamBit i ≠ allTeam := by
  revert i
  decide

theorem Seated.ne_allTeam (h : Seated y team) : team ≠ allTeam := by
  rcases h with rfl | rfl
  · exact teamBit_ne_allTeam _
  · exact teamBit_ne_allTeam _

/-- Nothing but the two largest teams is taken out last. -/
theorem dropLarge_drops (o : Admission) (y : Yard) (team mask : Word) : ∃ first second,
    dropLarge o y team mask =
      dropIf second (teamBit (largest (teamCount y)).2) (dropIf first (teamBit (largest (teamCount y)).1) mask) := by
  unfold dropLarge
  dsimp only
  split
  · exact ⟨false, false, rfl⟩
  split
  · exact ⟨_, _, rfl⟩
  split
  · split
    · exact ⟨false, true, rfl⟩
    split
    · exact ⟨true, false, rfl⟩
    · exact ⟨false, false, rfl⟩
  split
  · exact ⟨true, false, rfl⟩
  split
  · exact ⟨false, true, rfl⟩
  · exact ⟨false, false, rfl⟩

theorem getLsbD_dropLarge_le {j : Fin 4} (h : (dropLarge o y team mask).getLsbD j.val = true) :
    mask.getLsbD j.val = true := by
  obtain ⟨first, second, hdrop⟩ := dropLarge_drops o y team mask
  rw [hdrop] at h
  simp only [getLsbD_dropIf, Bool.and_eq_true] at h
  exact h.1.1

theorem getLsbD_dropLarge_of_ne {j : Fin 4} (h1 : (largest (teamCount y)).1 ≠ j) (h2 : (largest (teamCount y)).2 ≠ j) :
    (dropLarge o y team mask).getLsbD j.val = mask.getLsbD j.val := by
  obtain ⟨first, second, hdrop⟩ := dropLarge_drops o y team mask
  simp [hdrop, h1, h2]

/-- A player of one of the two largest teams keeps it. -/
theorem getLsbD_dropLarge_own {j : Fin 4} (h : team = teamBit j) (hseat : Seated y team) :
    (dropLarge o y team mask).getLsbD j.val = mask.getLsbD j.val := by
  have hne := hseat.ne_allTeam
  unfold dropLarge
  rw [if_neg (fun hp => hne hp.1), if_neg (fun hp => hne hp.2.2), if_pos ⟨hne, hseat⟩]
  have hother := largest_ne (teamCount y)
  split_ifs with hfirst hsecond
  · have hj : j = (largest (teamCount y)).1 := teamBit_inj (h.symm.trans hfirst.1)
    simp [hj, hother.symm]
  · have hj : j = (largest (teamCount y)).2 := teamBit_inj (h.symm.trans hsecond.1)
    simp [hj, hother]
  · rfl

/-- The second largest team is closed to new players alone. -/
theorem getLsbD_dropLarge_second (hseat : ¬Seated y team) :
    (dropLarge o y team mask).getLsbD (largest (teamCount y)).2.val = true ↔
      mask.getLsbD (largest (teamCount y)).2.val = true ∧
        ¬(o.observer = false ∧ Newcomer o y team ∧ 4 ≤ teamCount y (largest (teamCount y)).2) := by
  have hother := largest_ne (teamCount y)
  have hle := (largest_leads (teamCount y)).ordered
  have hnot : ¬(team ≠ allTeam ∧ (team = teamBit (largest (teamCount y)).1 ∨ team = teamBit (largest (teamCount y)).2)) :=
    fun hp => hseat hp.2
  have hmore : ¬teamCount y (largest (teamCount y)).1 + 1 < teamCount y (largest (teamCount y)).2 := by omega
  by_cases hobs : team = allTeam ∧ o.observer = true
  · simp [dropLarge, hobs.1, hobs.2]
  unfold dropLarge Newcomer
  dsimp only
  by_cases hnew : o.classictourn = false ∧ y.server.mem.status.tourn = false ∧ team = allTeam
  · have ho : o.observer = false := Bool.eq_false_iff.mpr fun ht => hobs ⟨hnew.2.2, ht⟩
    rw [if_neg hobs, if_pos hnew]
    simp [hother, ho, hnew]
  · rw [if_neg hobs, if_neg hnew, if_neg hnot, if_neg hmore]
    split <;> simp [hother, hnew]

/-- A new player may join neither of the two largest teams from four players on. -/
theorem getLsbD_dropLarge_newcomer (hplayer : o.observer = false) (hnew : Newcomer o y team)
    (hfour : 4 ≤ teamCount y (largest (teamCount y)).1) :
    (dropLarge o y team mask).getLsbD (largest (teamCount y)).1.val = false := by
  obtain ⟨hclassic, htourn, hall⟩ := hnew
  unfold dropLarge
  dsimp only
  rw [if_neg (by simp [hplayer]), if_pos ⟨hclassic, htourn, hall⟩]
  simp [hfour]

/-! ## Who is left without a team -/

/-- The two largest teams are across from each other. -/
def Across (y : Yard) : Prop := (largest (teamCount y)).2 = (largest (teamCount y)).1 + 2

/-- The mask of a player whose team is not dead. -/
def openMask (o : Admission) (y : Yard) (team mask : Word) : Word :=
  dropLarge o y team (dropDiagonals o y (dropFull o y team mask))

/-- The two largest teams close the other two, and are closed themselves. -/
structure Cornered (o : Admission) (y : Yard) (team : Word) : Prop where
  closed : diagonalsClosed o y = true
  adjacent : ¬Across y
  player : o.observer = false
  outside : ¬Seated y team
  full : Newcomer o y team ∧ 4 ≤ teamCount y (largest (teamCount y)).2 ∨
    ¬Newcomer o y team ∧ isFull y (largest (teamCount y)).2 = true

theorem allTeam_getLsbD (j : Fin 4) : allTeam.getLsbD j.val = true := by
  revert j
  decide

theorem isFull_four {i : Fin 4} (h : isFull y i = true) : 4 ≤ teamCount y i := by
  unfold isFull at h
  simp only [Bool.or_eq_true, Bool.and_eq_true, decide_eq_true_eq] at h
  omega

theorem isFull_mono {i j : Fin 4} (h : isFull y i = true) (hle : teamCount y i ≤ teamCount y j) : isFull y j = true := by
  unfold isFull at h ⊢
  simp only [Bool.or_eq_true, Bool.and_eq_true, decide_eq_true_eq] at h ⊢
  rcases h with h | ⟨h, hpret⟩
  · exact .inl (by omega)
  · exact .inr ⟨by omega, hpret⟩

theorem not_isFull {i : Fin 4} (h : teamCount y i < 4) : isFull y i = false :=
  Bool.eq_false_iff.mpr fun hfull => absurd (isFull_four hfull) (by omega)

/-- Some team other than the largest has room. -/
theorem room_apart (hroom : ∃ i, teamCount y i < 4) : ∃ i, i ≠ (largest (teamCount y)).1 ∧ teamCount y i < 4 := by
  obtain ⟨i, hi⟩ := hroom
  by_cases hfirst : i = (largest (teamCount y)).1
  · have hle := (largest_leads (teamCount y)).ordered
    exact ⟨_, (largest_ne (teamCount y)).symm, by rw [← hfirst] at hle; omega⟩
  · exact ⟨i, hfirst, hi⟩

/-- Between two teams across from each other there is one with room. -/
theorem room_between (hroom : ∃ i, teamCount y i < 4) (hacross : Across y) :
    ∃ i, i ≠ (largest (teamCount y)).1 ∧ i ≠ (largest (teamCount y)).2 ∧ teamCount y i < 4 := by
  obtain ⟨i, hfirst, hi⟩ := room_apart hroom
  by_cases hsecond : i = (largest (teamCount y)).2
  · have hne : (largest (teamCount y)).1 + 1 ≠ (largest (teamCount y)).1 := by
      generalize (largest (teamCount y)).1 = a
      revert a
      decide
    refine ⟨_, hne, ?_, ?_⟩
    · rw [hacross]
      generalize (largest (teamCount y)).1 = a
      revert a
      decide
    · have hle := largest_rest (teamCount y) hne
      rw [← hsecond] at hle
      omega
  · exact ⟨i, hfirst, hsecond, hi⟩

/-- If the two largest teams are closed, so are all. -/
theorem Cornered.openMask_none (h : Cornered o y team) (j : Fin 4) : (openMask o y team allTeam).getLsbD j.val = false := by
  rw [Bool.eq_false_iff]
  intro hbit
  have hfour : 4 ≤ teamCount y (largest (teamCount y)).2 := by
    rcases h.full with ⟨-, hfour⟩ | ⟨-, hfull⟩
    · exact hfour
    · exact isFull_four hfull
  have hle := (largest_leads (teamCount y)).ordered
  have hkept := getLsbD_dropLarge_le hbit
  simp only [getLsbD_dropDiagonals, getLsbD_dropFull, allTeam_getLsbD, h.closed, h.player] at hkept
  by_cases hfirst : j = (largest (teamCount y)).1
  · rcases h.full with ⟨hnew, -⟩ | ⟨-, hfull⟩
    · subst hfirst
      rw [openMask, getLsbD_dropLarge_newcomer h.player hnew (by omega)] at hbit
      exact absurd hbit (by decide)
    · have hown : team ≠ teamBit j := fun hown => h.outside (.inl (hfirst ▸ hown))
      simp [hfirst ▸ isFull_mono hfull hle, hown] at hkept
  by_cases hsecond : j = (largest (teamCount y)).2
  · rcases h.full with ⟨hnew, -⟩ | ⟨-, hfull⟩
    · subst hsecond
      exact ((getLsbD_dropLarge_second h.outside).mp hbit).2 ⟨h.player, hnew, hfour⟩
    · have hown : team ≠ teamBit j := fun hown => h.outside (.inr (hsecond ▸ hown))
      simp [hsecond ▸ hfull, hown] at hkept
  · have hother : ∀ a b j : Fin 4, a ≠ b → b ≠ a + 2 → j ≠ a → j ≠ b → a + 2 = j ∨ b + 2 = j := by decide
    rcases hother _ _ j (largest_ne (teamCount y)) h.adjacent hfirst hsecond with hj | hj
    · simp [hj, show 2 ≤ teamCount y (largest (teamCount y)).1 by omega] at hkept
    · simp [hj, show 2 ≤ teamCount y (largest (teamCount y)).2 by omega] at hkept

/-- A team is across from one of the two largest, which has two players. -/
def Opposed (y : Yard) (j : Fin 4) : Prop :=
  2 ≤ teamCount y (largest (teamCount y)).1 ∧ (largest (teamCount y)).1 + 2 = j ∨
    2 ≤ teamCount y (largest (teamCount y)).2 ∧ (largest (teamCount y)).2 + 2 = j

/-- A team stays on the mask up to the last part. -/
theorem kept_iff (j : Fin 4) : (dropDiagonals o y (dropFull o y team allTeam)).getLsbD j.val = true ↔
    ¬(isFull y j = true ∧ team ≠ teamBit j ∧ o.observer = false) ∧ ¬(diagonalsClosed o y = true ∧ Opposed y j) := by
  simp only [getLsbD_dropDiagonals, getLsbD_dropFull, allTeam_getLsbD, Opposed]
  cases isFull y j <;> cases o.observer <;> cases diagonalsClosed o y <;> simp <;> grind

/-- One's own team, if it is one of the two largest, is lost only across the galaxy. -/
theorem openMask_own {j : Fin 4} (hown : team = teamBit j) (hseat : Seated y team) :
    (openMask o y team allTeam).getLsbD j.val = true ↔ ¬(diagonalsClosed o y = true ∧ Opposed y j) := by
  rw [openMask, getLsbD_dropLarge_own hown hseat, kept_iff]
  simp [hown]

theorem add_two_add_two (a : Fin 4) : a + 2 + 2 = a := by
  revert a
  decide

/-- Of two teams that are not across from each other, none is across from the other. -/
theorem not_opposed (h : ¬Across y) {j : Fin 4} (hj : j = (largest (teamCount y)).1 ∨ j = (largest (teamCount y)).2) :
    ¬Opposed y j := by
  have hself : ∀ a : Fin 4, a + 2 ≠ a := by decide
  rintro (⟨-, heq⟩ | ⟨-, heq⟩) <;> rcases hj with rfl | rfl
  · exact hself _ heq
  · exact h heq.symm
  · exact h (by rw [Across, ← heq, add_two_add_two])
  · exact hself _ heq

theorem Seated.kept (hseat : Seated y team) (hshut : ¬(diagonalsClosed o y = true ∧ Across y)) :
    ∃ j : Fin 4, (openMask o y team allTeam).getLsbD j.val = true := by
  have hoffer {j : Fin 4} (hown : team = teamBit j) (hj : j = (largest (teamCount y)).1 ∨ j = (largest (teamCount y)).2) :
      (openMask o y team allTeam).getLsbD j.val = true := by
    rw [openMask_own hown hseat]
    rintro ⟨hclosed, hopp⟩
    exact not_opposed (fun hacross => hshut ⟨hclosed, hacross⟩) hj hopp
  rcases hseat with hown | hown
  · exact ⟨_, hoffer hown (.inl rfl)⟩
  · exact ⟨_, hoffer hown (.inr rfl)⟩

/-- Else a team is open, if one has room. -/
theorem openMask_some (hroom : ∃ i, teamCount y i < 4) (h : ¬Cornered o y team) :
    ∃ j : Fin 4, (openMask o y team allTeam).getLsbD j.val = true := by
  by_cases hshut : diagonalsClosed o y = true ∧ Across y
  -- a team beside the two has room, and is across from the other one beside them
  · obtain ⟨hclosed, hacross⟩ := hshut
    obtain ⟨i, hfirst, hsecond, hi⟩ := room_between hroom hacross
    refine ⟨i, ?_⟩
    rw [openMask, getLsbD_dropLarge_of_ne hfirst.symm hsecond.symm, kept_iff]
    refine ⟨fun hfull => by simp [not_isFull hi] at hfull, ?_⟩
    rintro ⟨-, ⟨-, hj⟩ | ⟨-, hj⟩⟩
    · exact hsecond (hj.symm.trans hacross.symm)
    · exact hfirst (by rw [← hj, hacross, add_two_add_two])
  by_cases hseat : Seated y team
  · exact hseat.kept hshut
  by_cases hsecond : teamCount y (largest (teamCount y)).2 < 4
  · refine ⟨(largest (teamCount y)).2, ?_⟩
    rw [openMask, getLsbD_dropLarge_second hseat, kept_iff]
    refine ⟨⟨fun hfull => by simp [not_isFull hsecond] at hfull, ?_⟩, fun hnew => by omega⟩
    exact fun ⟨hclosed, hopp⟩ => not_opposed (fun hacross => hshut ⟨hclosed, hacross⟩) (.inr rfl) hopp
  by_cases hclosed : diagonalsClosed o y = true
  · refine ⟨(largest (teamCount y)).2, ?_⟩
    have hacross : ¬Across y := fun hacross => hshut ⟨hclosed, hacross⟩
    rw [openMask, getLsbD_dropLarge_second hseat, kept_iff]
    refine ⟨⟨?_, fun hp => not_opposed hacross (.inr rfl) hp.2⟩, ?_⟩
    · rintro ⟨hfull, -, hplayer⟩
      refine h ⟨hclosed, hacross, hplayer, hseat, ?_⟩
      by_cases hnew : Newcomer o y team
      · exact .inl ⟨hnew, isFull_four hfull⟩
      · exact .inr ⟨hnew, hfull⟩
    · rintro ⟨hplayer, hnew, hfour⟩
      exact h ⟨hclosed, hacross, hplayer, hseat, .inl ⟨hnew, hfour⟩⟩
  -- any other team with room will do
  · obtain ⟨i, hfirst, hi⟩ := room_apart hroom
    have hne : (largest (teamCount y)).2 ≠ i := by
      rintro rfl
      exact hsecond hi
    refine ⟨i, ?_⟩
    rw [openMask, getLsbD_dropLarge_of_ne hfirst.symm hne, kept_iff]
    exact ⟨fun hfull => by simp [not_isFull hi] at hfull, fun hp => hclosed hp.1⟩

/-! ## Within the mask of the queue -/

variable {w : Word}

theorem dropIf_within (h : mask &&& ~~~w = 0) (b : Bool) (v : Word) : dropIf b v mask &&& ~~~w = 0 := by
  unfold dropIf
  cases b with
  | true =>
    calc (mask &&& ~~~v) &&& ~~~w = (mask &&& ~~~w) &&& ~~~v := by
          rw [BitVec.and_assoc, BitVec.and_comm (~~~v), BitVec.and_assoc]
      _ = 0 := by
          rw [h]
          exact BitVec.zero_and
  | false => exact h

theorem foldl_dropIf_within {α : Type} (b : α → Bool) (v : α → Word) (l : List α) (h : mask &&& ~~~w = 0) :
    (l.foldl (fun mask x => dropIf (b x) (v x) mask) mask) &&& ~~~w = 0 := by
  induction l generalizing mask with
  | nil => exact h
  | cons x l ih => exact ih (dropIf_within h (b x) (v x))

theorem openMask_within (h : mask &&& ~~~w = 0) : openMask o y team mask &&& ~~~w = 0 := by
  obtain ⟨first, second, hdrop⟩ := dropLarge_drops o y team (dropDiagonals o y (dropFull o y team mask))
  rw [openMask, hdrop]
  have hfull : dropFull o y team mask &&& ~~~w = 0 := foldl_dropIf_within _ _ _ h
  have hdiag : dropDiagonals o y (dropFull o y team mask) &&& ~~~w = 0 := foldl_dropIf_within _ _ _ hfull
  exact dropIf_within (dropIf_within hdiag _ _) _ _

/-! ## What is offered -/

/-- A player who may play, on a queue for all teams. -/
structure MayPlay (o : Admission) (y : Yard) (queue : PQueue) : Prop where
  welcome : (o.inlMode && !o.observer && o.guest) = false
  hours : o.timeAccess = true
  daemon : y.mode guGameOk = true
  stays : o.mustexit = false
  restricted : queue.qFlags.has quRestrict = true
  teams : queue.tournmask = allTeam

/-- A mask of the queue's teams, not empty while a team has room, with one's own team if it is one of the two largest and
    owns a planet. -/
structure Offers (y : Yard) (team tournmask mask : Word) : Prop where
  within : mask &&& ~~~tournmask = 0
  some : (∃ i, teamCount y i < 4) → mask ≠ 0
  own : Seated y team → (∃ l, (y.server.planet l).owner.has team = true) → mask.has team = true

/-- All teams are offered before any is looked at. -/
def Unrestricted (o : Admission) (y : Yard) (me : Slot) : Prop :=
  ((y.player me).authorised = true ∧ (y.player me).flags.has pfObserv = true) ∨ o.recreationalDogfightMode = true ∨
    y.mode guChaos = true ∨ o.topgun = true

/-- Nobody is left to join for a dead team, or for a new player of two neighbouring teams. -/
def LockedOut (o : Admission) (y : Yard) (team : Word) : Prop :=
  if deadTeam o y team then
    ∀ i : Fin 4, team.getLsbD i.val = true ∨ i = (largest (teamCount y)).1 ∨ i = (largest (teamCount y)).2
  else Cornered o y team

/-- The two largest teams are across from each other, and the other one has two players. -/
def Displaced (o : Admission) (y : Yard) (team : Word) : Prop :=
  deadTeam o y team = false ∧ diagonalsClosed o y = true ∧ Seated y team ∧ ∃ j, team = teamBit j ∧ Opposed y j

theorem deadTeam_eq_false (hours : o.timeAccess = true) :
    deadTeam o y team = false ↔ ∃ l, (y.server.planet l).owner.has team = true := by
  simp [deadTeam, hours, List.countP_eq_zero]

theorem MayPlay.admitted (h : MayPlay o y queue) :
    (o.inlMode && !o.observer && o.guest || !o.timeAccess || !y.mode guGameOk || o.mustexit) = false := by
  simp [h.welcome, h.hours, h.daemon, h.stays]

theorem Unrestricted.eq (h : MayPlay o y queue) (hu : Unrestricted o y me) :
    tournamentMask o y me team queue = allTeam := by
  unfold tournamentMask
  simp only [h.admitted, h.teams]
  rcases hu with hu | hu | hu | hu <;> simp [hu]

/-- Past the special cases. -/
theorem tournamentMask_restricted (h : MayPlay o y queue) (hu : ¬Unrestricted o y me) :
    tournamentMask o y me team queue =
      if deadTeam o y team then
        dropIf true (teamBit (largest (teamCount y)).2)
          (dropIf true (teamBit (largest (teamCount y)).1) (allTeam &&& ~~~team))
      else openMask o y team allTeam := by
  simp only [Unrestricted, not_or, not_and, Bool.not_eq_true] at hu
  obtain ⟨hauth, hdog, hchaos, htop⟩ := hu
  have hguest : ((y.player me).authorised && (y.player me).flags.has pfObserv) = false := by
    simpa using hauth
  unfold tournamentMask
  simp only [h.admitted, h.teams, h.restricted, hguest, hdog, hchaos, htop]
  rfl

/-- Of what a dead team leaves, none of its own and none of the two largest. -/
theorem dead_getLsbD (j : Fin 4) :
    (dropIf true (teamBit (largest (teamCount y)).2)
      (dropIf true (teamBit (largest (teamCount y)).1) (allTeam &&& ~~~team))).getLsbD j.val = true ↔
        ¬(team.getLsbD j.val = true ∨ j = (largest (teamCount y)).1 ∨ j = (largest (teamCount y)).2) := by
  have hj : j.val < 32 := by omega
  simp only [getLsbD_dropIf, BitVec.getLsbD_and, BitVec.getLsbD_not, allTeam_getLsbD, hj]
  grind

/-- The mask is empty for the players who are locked out and, while a team has room, for no others. -/
theorem tournamentMask_eq_zero (h : MayPlay o y queue) (hu : ¬Unrestricted o y me) (hroom : ∃ i, teamCount y i < 4) :
    tournamentMask o y me team queue = 0 ↔ LockedOut o y team := by
  rw [tournamentMask_restricted h hu]
  unfold LockedOut
  split
  · have hwithin : allTeam &&& ~~~team &&& ~~~allTeam = 0 := dropIf_within (by decide : allTeam &&& ~~~allTeam = 0) true team
    rw [eq_zero_iff (dropIf_within (dropIf_within hwithin _ _) _ _)]
    refine forall_congr' fun j => ?_
    rw [← Bool.not_eq_true, dead_getLsbD, not_not]
  · rw [eq_zero_iff (openMask_within (by decide))]
    constructor
    · intro hnone
      by_contra hcorner
      obtain ⟨j, hj⟩ := openMask_some hroom hcorner
      rw [hnone j] at hj
      exact absurd hj (by decide)
    · exact fun hcorner j => hcorner.openMask_none j

theorem tournamentMask_within (h : MayPlay o y queue) : tournamentMask o y me team queue &&& ~~~allTeam = 0 := by
  by_cases hu : Unrestricted o y me
  · rw [hu.eq h]
    decide
  rw [tournamentMask_restricted h hu]
  split
  · exact dropIf_within (dropIf_within (dropIf_within (by decide : allTeam &&& ~~~allTeam = 0) true team) _ _) _ _
  · exact openMask_within (by decide)

/-- One's own team of the two largest is on the mask, unless it is displaced. -/
theorem tournamentMask_own (h : MayPlay o y queue) (hu : ¬Unrestricted o y me) (hdead : deadTeam o y team = false)
    (hseat : Seated y team) : (tournamentMask o y me team queue).has team = true ↔ ¬Displaced o y team := by
  have hteam : ∃ j, team = teamBit j := by
    rcases hseat with hown | hown <;> exact ⟨_, hown⟩
  obtain ⟨j, hown⟩ := hteam
  rw [tournamentMask_restricted h hu, hdead, if_neg (by decide)]
  conv_lhs => rw [hown, has_teamBit, ← hown]
  rw [openMask_own hown hseat]
  unfold Displaced
  constructor
  · rintro hno ⟨-, hclosed, -, i, hi, hopp⟩
    exact hno ⟨hclosed, teamBit_inj (hi.symm.trans hown) ▸ hopp⟩
  · exact fun hno ⟨hclosed, hopp⟩ => hno ⟨hdead, hclosed, hseat, j, hown, hopp⟩

/-- The mask offers what it should, but to players who are locked out or displaced. -/
theorem tournamentMask_offers (h : MayPlay o y queue) (me : Slot) (team : Word) :
    Offers y team queue.tournmask (tournamentMask o y me team queue) ↔
      Unrestricted o y me ∨ ((∃ i, teamCount y i < 4) → ¬LockedOut o y team) ∧ ¬Displaced o y team := by
  rw [h.teams]
  by_cases hu : Unrestricted o y me
  · refine iff_of_true ⟨tournamentMask_within h, fun _ => ?_, fun hseat _ => ?_⟩ (.inl hu)
    · rw [hu.eq h]
      decide
    · rw [hu.eq h]
      rcases hseat with rfl | rfl <;> rw [has_teamBit, allTeam_getLsbD]
  constructor
  · intro hoffer
    refine .inr ⟨fun hroom hlocked => hoffer.some hroom ((tournamentMask_eq_zero h hu hroom).mpr hlocked), ?_⟩
    intro hdis
    have hhas := hoffer.own hdis.2.2.1 ((deadTeam_eq_false h.hours).mp hdis.1)
    exact (tournamentMask_own h hu hdis.1 hdis.2.2.1).mp hhas hdis
  · rintro (hu' | ⟨hlocked, hdis⟩)
    · exact absurd hu' hu
    · refine ⟨tournamentMask_within h, ?_, ?_⟩
      · exact fun hroom hzero => hlocked hroom ((tournamentMask_eq_zero h hu hroom).mp hzero)
      · exact fun hseat howns => (tournamentMask_own h hu ((deadTeam_eq_false h.hours).mpr howns) hseat).mpr hdis

/-! ## A server with two teams -/

/-- `count` players in the slots of each of two teams. -/
def twoTeams (count : Nat) (team other : Word) : Yard :=
  let server : Server := default
  { (default : Yard) with
    server := { server with
      mem := { server.mem with
        status := { server.mem.status with gameup := guGameOk }
        planets := fun _ => { (default : Planet) with owner := team }
        players := fun i => { (default : Player) with
          status := if i.val < 2 * count then .palive else .pfree
          team := if i.val < count then team else other } } } }

def noDiagonals : Admission where
  inlMode := false
  observer := false
  guest := false
  timeAccess := true
  mustexit := false
  recreationalDogfightMode := false
  topgun := false
  nodiag := true
  classictourn := false

def pickup : PQueue := { (default : PQueue) with tournmask := allTeam, qFlags := quRestrict }

theorem twoTeams_mayPlay : MayPlay noDiagonals (twoTeams 5 fed rom) pickup := by
  constructor <;> decide +kernel

/-- For a new player of a server with five players on each of two neighbouring teams. -/
theorem tournamentMask_offers_two :
    Offers (twoTeams 5 fed rom) fed pickup.tournmask (tournamentMask noDiagonals (twoTeams 5 fed rom) 0 fed pickup) ↔
      Unrestricted noDiagonals (twoTeams 5 fed rom) 0 ∨
        ((∃ i, teamCount (twoTeams 5 fed rom) i < 4) → ¬LockedOut noDiagonals (twoTeams 5 fed rom) fed) ∧
          ¬Displaced noDiagonals (twoTeams 5 fed rom) fed :=
  tournamentMask_offers twoTeams_mayPlay 0 fed

/-- A new player is shown no team, though two have no player; with two players on each of two teams across from each other,
    none of these four may stay on the team. -/
theorem tournamentMask_locks_out :
    (MayPlay noDiagonals (twoTeams 5 fed rom) pickup ∧
      ¬Offers (twoTeams 5 fed rom) allTeam pickup.tournmask (tournamentMask noDiagonals (twoTeams 5 fed rom) 31 allTeam pickup)) ∧
    MayPlay noDiagonals (twoTeams 2 fed kli) pickup ∧
      ¬Offers (twoTeams 2 fed kli) fed pickup.tournmask (tournamentMask noDiagonals (twoTeams 2 fed kli) 0 fed pickup) := by
  refine ⟨⟨twoTeams_mayPlay, fun h => ?_⟩, by constructor <;> decide +kernel, fun h => ?_⟩
  · exact h.some ⟨2, by decide +kernel⟩ (by decide +kernel)
  · have hseat : Seated (twoTeams 2 fed kli) fed := .inl (by decide +kernel)
    have hhas := h.own hseat ⟨0, by decide +kernel⟩
    exact absurd hhas (by decide +kernel)

end Netrek.Outfit
