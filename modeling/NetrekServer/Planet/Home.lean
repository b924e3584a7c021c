/-
Home planets: `pl_pick_home` of `ntserv/planet.c`, and the placing of ships by it in `enter` and in
`conquer_go_home`. The table of start planets is indexed by the number of the team, which is -1 for
NOBODY and for ALLTEAM; what lies outside a table is not modelled, an access there is a fault.
-/
import Mathlib.Tactic.IntervalCases
import NetrekServer.Planet.Populate

namespace Netrek.Planets

/-! ## Teams -/

/-- `team_no`. -/
def teamNo (team : Word) : Int :=
  if team = fed then 0 else if team = rom then 1 else if team = kli then 2 else if team = ori then 3 else -1

/-- One of the four teams. -/
def IsTeam (team : Word) : Prop := team = fed ∨ team = rom ∨ team = kli ∨ team = ori

instance (team : Word) : Decidable (IsTeam team) := inferInstanceAs (Decidable (_ ∨ _))

/-- `team_opposing`, with the teams of the tournament. -/
def teamOpposing (quorum : Word × Word) (s : Server) (team : Word) : Word :=
  if !s.mem.status.tourn then nobody
  else if team = quorum.1 then quorum.2
  else if team = quorum.2 then quorum.1
  else nobody

/-! ## Home planets -/

/-- `startplanets`. -/
abbrev Startplanets := Fin maxPlanets → Int

/-- An index outside `startplanets` and `planets`, which have the same length. -/
structure Fault where
  index : Int
  deriving DecidableEq

/-- An index of `startplanets`. -/
def entry (i : Int) : Except Fault (Fin maxPlanets) :=
  if h : 0 ≤ i ∧ i.toNat < maxPlanets then .ok ⟨i.toNat, h.2⟩ else .error ⟨i⟩

/-- The loop of `pl_pick_home`, with `n` tries left; then it is Regulus. -/
def pickFrom (startplanets : Startplanets) (tno : Int) (s : Server) : Nat → Except Fault (Fin maxPlanets × Server)
  | 0 => .ok (13, s)
  | n + 1 => do
    let (r, s) := s.draw
    let i ← entry (tno * 10 + (r % 10 : Nat))
    if startplanets i ≠ 0 then .ok (i, s) else pickFrom startplanets tno s n

/-- `pl_pick_home`. -/
def plPickHome (startplanets : Startplanets) (team : Word) (s : Server) : Except Fault (Fin maxPlanets × Server) :=
  pickFrom startplanets (teamNo team) s gWidth.toNat

/-- `pl_pick_home_offset`. -/
def plPickHomeOffset (startplanets : Startplanets) (team : Word) (s : Server) : Except Fault (Int × Int × Server) := do
  let (l, s) ← plPickHome startplanets team s
  let (rx, s) := s.draw
  let (ry, s) := s.draw
  .ok ((s.planet l).x + (rx % 10000 : Nat) - 5000, (s.planet l).y + (ry % 10000 : Nat) - 5000, s)

/-- `p_x_y_go_home`. -/
def pXYGoHome (startplanets : Startplanets) (s : Server) (k : Slot) : Except Fault Server := do
  let (x, y, s) ← plPickHomeOffset startplanets (s.player k).team s
  .ok (s.modifyPlayer k fun p => p.go x y)

/-- `conquer_go_home`. -/
def conquerGoHome (startplanets : Startplanets) (s : Server) : Except Fault Server :=
  (List.finRange maxPlayer).foldlM (fun s j =>
    if (s.player j).status = .pfree then .ok s else pXYGoHome startplanets s j) s

/-! ## Entering -/

/-- The middle ninth of the galaxy. -/
def indep : Int := gWidth / 3

/-- Another ship is too close for an independent. -/
def crowded (s : Server) (me : Slot) : Bool :=
  (List.finRange maxPlayer).any fun i =>
    let p := s.player i
    p.status != .pfree && i != me && decide (|p.x - (s.player me).x| < 2 * tractDist ∧ |p.y - (s.player me).y| < 2 * tractDist)

/-- `placeIndependent`, with so many failures still to come. -/
def placeIndependent (s : Server) (me : Slot) : Nat → Server
  | 0 => s
  | failures + 1 =>
    let (rx, s) := s.draw
    let (ry, s) := s.draw
    let s := s.modifyPlayer me fun p =>
      p.go (gWidth / 2 + rx % indep - indep / 2) (gWidth / 2 + ry % indep - indep / 2)
    if crowded s me then placeIndependent s me failures else s

/-- `to_dir` from the ship to a point, rounded to 45 degrees. -/
def course (s : Server) (me : Slot) (x y : Int) : UInt8 :=
  (s.setup.toDir (x - (s.player me).x) (y - (s.player me).y) + 16) &&& 0xe0

/-- `face_enemy`. -/
def faceEnemy (startplanets : Startplanets) (quorum : Word × Word) (s : Server) (me : Slot) : Except Fault (UInt8 × Server) :=
  if s.setup.inlMode then .ok (0, s)
  else
    let other := teamOpposing quorum s (s.player me).team
    if other = nobody then .ok (course s me (gWidth / 2) (gWidth / 2), s)
    else do
      let (l, s) ← plPickHome startplanets other s
      .ok (course s me (s.planet l).x (s.planet l).y, s)

/-- `QU_GOD_OBS`. -/
def quGodObs : Nat := 8

/-- How `enter` puts a ship into the galaxy. -/
def enterPlace (startplanets : Startplanets) (quorum : Word × Word) (s : Server) (me : Slot) (tno : Nat) :
    Except Fault Server :=
  if tno = 4 ∨ tno = 5 ∨ (s.player me).wQueue = quGodObs then
    let s := placeIndependent (s.modifyPlayer me fun p => { p with team := nobody }) me 10
    .ok (s.modifyPlayer me fun p => { p with dir := 0 })
  else do
    let s ← pXYGoHome startplanets (s.modifyPlayer me fun p => { p with team := (1 : Word) <<< tno }) me
    let (dir, s) ← faceEnemy startplanets quorum s me
    .ok (s.modifyPlayer me fun p => { p with dir := dir })

/-! ## A team has a home -/

/-- The computation comes to a result. -/
def Returns {α : Type} (x : Except Fault α) : Prop := ∃ a, x = .ok a

theorem returns_ok {α : Type} (a : α) : Returns (.ok a) := ⟨a, rfl⟩

theorem not_returns_error {α : Type} (e : Fault) : ¬ Returns (.error e : Except Fault α) := by
  rintro ⟨a, h⟩
  cases h

theorem returns_ok_bind {α β : Type} {a : α} {f : α → Except Fault β} : Returns (.ok a >>= f) ↔ Returns (f a) := Iff.rfl

theorem returns_bind {α β : Type} {x : Except Fault α} {f : α → Except Fault β} (h : ∀ a, x = .ok a → Returns (f a)) :
    Returns (x >>= f) ↔ Returns x := by
  constructor
  · rintro ⟨b, hb⟩
    cases x with
    | error e => cases hb
    | ok a => exact returns_ok a
  · rintro ⟨a, rfl⟩
    exact h a rfl

theorem teamNo_of_isTeam {team : Word} (h : IsTeam team) : 0 ≤ teamNo team ∧ teamNo team < 4 := by
  rcases h with rfl | rfl | rfl | rfl <;> decide

theorem teamNo_of_not_isTeam {team : Word} (h : ¬ IsTeam team) : teamNo team = -1 := by
  unfold IsTeam at h
  push Not at h
  obtain ⟨hf, hr, hk, ho⟩ := h
  simp [teamNo, hf, hr, hk, ho]

theorem entry_of_nonneg {i : Int} (h : 0 ≤ i) (hi : i < 40) : ∃ l, entry i = .ok l := by
  have hb : 0 ≤ i ∧ i.toNat < maxPlanets := ⟨h, by unfold maxPlanets; omega⟩
  exact ⟨⟨i.toNat, hb.2⟩, dif_pos hb⟩

theorem entry_of_neg {i : Int} (h : i < 0) : entry i = .error ⟨i⟩ := dif_neg fun hb => absurd hb.1 (not_le_of_gt h)

variable {startplanets : Startplanets}

/-- A team number finds a planet, however many tries are left. -/
theorem pickFrom_returns {tno : Int} (h : 0 ≤ tno ∧ tno < 4) (n : Nat) :
    ∀ s, Returns (pickFrom startplanets tno s n) := by
  induction n with
  | zero => exact fun s => returns_ok (13, s)
  | succ n ih =>
    intro s
    obtain ⟨l, hl⟩ := entry_of_nonneg (i := tno * 10 + (s.draw.1 % 10 : Nat)) (by omega) (by omega)
    unfold pickFrom
    simp only [hl, returns_ok_bind]
    split
    · exact returns_ok _
    · exact ih _

/-- Without a number the first try is a fault. -/
theorem pickFrom_faults (s : Server) (n : Nat) : ¬ Returns (pickFrom startplanets (-1) s (n + 1)) := by
  have hl := entry_of_neg (i := -1 * 10 + (s.draw.1 % 10 : Nat)) (by omega)
  unfold pickFrom
  simp only [hl]
  exact not_returns_error _

/-- Trying draws random numbers, and changes nothing else. -/
theorem pickFrom_mem {tno : Int} {n : Nat} : ∀ {s s' : Server} {l : Fin maxPlanets},
    pickFrom startplanets tno s n = .ok (l, s') → s'.mem = s.mem ∧ s'.setup = s.setup := by
  induction n with
  | zero =>
    rintro s s' l ⟨⟩
    exact ⟨rfl, rfl⟩
  | succ n ih =>
    intro s s' l h
    unfold pickFrom at h
    cases he : entry (tno * 10 + (s.draw.1 % 10 : Nat)) with
    | error e =>
      simp only [he] at h
      cases h
    | ok i =>
      simp only [he] at h
      replace h : (if startplanets i ≠ 0 then .ok (i, s.draw.2) else pickFrom startplanets tno s.draw.2 n) = .ok (l, s') := h
      split at h
      · cases h
        exact ⟨rfl, rfl⟩
      · obtain ⟨hmem, hsetup⟩ := ih h
        exact ⟨hmem, hsetup⟩

variable (startplanets)

theorem plPickHome_returns (team : Word) (s : Server) : Returns (plPickHome startplanets team s) ↔ IsTeam team := by
  constructor
  · intro h
    by_contra hteam
    unfold plPickHome at h
    rw [teamNo_of_not_isTeam hteam] at h
    exact pickFrom_faults s 99999 h
  · exact fun h => pickFrom_returns (teamNo_of_isTeam h) _ s

theorem plPickHomeOffset_returns (team : Word) (s : Server) :
    Returns (plPickHomeOffset startplanets team s) ↔ IsTeam team := by
  rw [← plPickHome_returns startplanets team s]
  exact returns_bind fun _ _ => returns_ok _

theorem pXYGoHome_returns (s : Server) (k : Slot) :
    Returns (pXYGoHome startplanets s k) ↔ IsTeam (s.player k).team := by
  rw [← plPickHomeOffset_returns startplanets (s.player k).team s]
  exact returns_bind fun _ _ => returns_ok _

/-- Putting a ship home leaves alone who is where on which team. -/
theorem pXYGoHome_frame {s s' : Server} {k : Slot} (h : pXYGoHome startplanets s k = .ok s') :
    s'.setup = s.setup ∧ s'.mem.status = s.mem.status ∧
      ∀ j, (s'.player j).status = (s.player j).status ∧ (s'.player j).team = (s.player j).team := by
  unfold pXYGoHome plPickHomeOffset at h
  cases hpick : plPickHome startplanets (s.player k).team s with
  | error e =>
    rw [hpick] at h
    cases h
  | ok r =>
    obtain ⟨l, t⟩ := r
    obtain ⟨hmem, hsetup⟩ := pickFrom_mem hpick
    have hstatus : t.mem.status = s.mem.status := congrArg Memory.status hmem
    have hplayer : ∀ j, t.player j = s.player j := fun j => congrFun (congrArg Memory.players hmem) j
    rw [hpick] at h
    cases h
    refine ⟨hsetup, hstatus, fun j => ?_⟩
    rw [← hplayer, Server.player_modifyPlayer]
    split
    · next heq =>
      subst heq
      exact ⟨rfl, rfl⟩
    · exact ⟨rfl, rfl⟩

/-! ## All ships go home -/

/-- A loop over slots comes to an end if every slot lets it go on, and no turn changes which do. -/
theorem foldlM_returns {f : Server → Slot → Except Fault Server} {P : Server → Slot → Prop}
    (hturn : ∀ s j, Returns (f s j) ↔ P s j) (hframe : ∀ s j s', f s j = .ok s' → ∀ i, P s' i ↔ P s i) :
    ∀ (l : List Slot) (s : Server), Returns (l.foldlM f s) ↔ ∀ j ∈ l, P s j
  | [], s => by simp [returns_ok s, pure, Except.pure]
  | j :: l, s => by
    rw [List.foldlM_cons, List.forall_mem_cons]
    cases hj : f s j with
    | error e =>
      have hP : ¬ P s j := by
        rw [← hturn, hj]
        exact not_returns_error e
      exact ⟨fun h => absurd h (not_returns_error e), fun h => absurd h.1 hP⟩
    | ok s' =>
      have hP : P s j := (hturn s j).1 ⟨s', hj⟩
      rw [returns_ok_bind, foldlM_returns hturn hframe l s']
      simp only [hframe s j s' hj, hP, true_and]

/-- `conquer_go_home` fails to find a home only for a player who is of none of the four teams. -/
theorem conquerGoHome_returns (s : Server) :
    Returns (conquerGoHome startplanets s) ↔ ∀ j, (s.player j).status ≠ .pfree → IsTeam (s.player j).team := by
  unfold conquerGoHome
  rw [foldlM_returns (P := fun s j => (s.player j).status ≠ .pfree → IsTeam (s.player j).team)]
  · simp
  · intro s j
    split
    · next h => simp [h, returns_ok s]
    · next h => simp [h, pXYGoHome_returns]
  · intro s j s' h i
    split at h
    · cases h
      rfl
    · obtain ⟨hstatus, hteam⟩ := (pXYGoHome_frame startplanets h).2.2 i
      simp only [hstatus, hteam]

/-! ## A ship enters -/

theorem isTeam_shift (tno : Nat) : IsTeam ((1 : Word) <<< tno) ↔ tno < 4 := by
  rcases lt_or_ge tno 32 with h | h
  · interval_cases tno <;> decide
  · have hzero : (1 : Word) <<< tno = 0 := by
      ext i hi
      simp [show i < tno by omega]
    rw [hzero]
    simp [show ¬ tno < 4 by omega]
    decide

/-- Where a ship of the team would face: the centre, or a home of the opposing team. -/
def Faces (quorum : Word × Word) (s : Server) (team : Word) : Prop :=
  s.setup.inlMode = true ∨ teamOpposing quorum s team = nobody ∨ IsTeam (teamOpposing quorum s team)

theorem faceEnemy_returns (quorum : Word × Word) (s : Server) (me : Slot) :
    Returns (faceEnemy startplanets quorum s me) ↔ Faces quorum s (s.player me).team := by
  unfold faceEnemy Faces
  by_cases hinl : s.setup.inlMode = true
  · simp [hinl, returns_ok]
  by_cases hother : teamOpposing quorum s (s.player me).team = nobody
  · simp [hinl, hother, returns_ok]
  simp only [hinl, hother, Bool.false_eq_true, if_false, false_or]
  rw [← plPickHome_returns startplanets _ s]
  exact returns_bind fun _ _ => returns_ok _

/-- Observers and those who enter anywhere always get a place; the others do if their team has something to face. -/
theorem enterPlace_returns (quorum : Word × Word) (s : Server) (me : Slot) (tno : Nat) :
    Returns (enterPlace startplanets quorum s me tno) ↔
      ((tno = 4 ∨ tno = 5 ∨ (s.player me).wQueue = quGodObs) ∨ tno < 4 ∧ Faces quorum s ((1 : Word) <<< tno)) := by
  unfold enterPlace
  split
  · next h => simp [h, returns_ok]
  next h =>
  simp only [h, false_or]
  generalize hs : s.modifyPlayer me (fun p => { p with team := (1 : Word) <<< tno }) = t
  have hteam : (t.player me).team = (1 : Word) <<< tno := by
    rw [← hs, Server.player_modifyPlayer, if_pos rfl]
  have hgo := pXYGoHome_returns startplanets t me
  rw [hteam, isTeam_shift] at hgo
  cases ht : pXYGoHome startplanets t me with
  | error e =>
    have hno : ¬ tno < 4 := by
      rw [← hgo, ht]
      exact not_returns_error e
    exact ⟨fun hr => absurd hr (not_returns_error e), fun hr => absurd hr.1 hno⟩
  | ok u =>
    have hlt : tno < 4 := hgo.1 ⟨u, ht⟩
    obtain ⟨hsetup, hstatus, hplayer⟩ := pXYGoHome_frame startplanets ht
    have hface : Faces quorum u (u.player me).team ↔ Faces quorum s ((1 : Word) <<< tno) := by
      unfold Faces teamOpposing
      rw [(hplayer me).2, hteam, hsetup, hstatus, ← hs]
      rfl
    rw [returns_ok_bind, returns_bind (fun _ _ => returns_ok _), faceEnemy_returns, hface]
    simp [hlt]

/-- Picking a home, and placing ships by it, stays in the tables if and only if the ships that are
placed, and the opponents that are faced, are of one of the four teams. -/
theorem home_in_range_iff (startplanets : Startplanets) (s : Server) :
    (∀ team, Returns (plPickHome startplanets team s) ↔ IsTeam team) ∧
    (Returns (conquerGoHome startplanets s) ↔ ∀ j, (s.player j).status ≠ .pfree → IsTeam (s.player j).team) ∧
    ∀ quorum me tno, Returns (enterPlace startplanets quorum s me tno) ↔
      ((tno = 4 ∨ tno = 5 ∨ (s.player me).wQueue = quGodObs) ∨ tno < 4 ∧ Faces quorum s ((1 : Word) <<< tno)) :=
  ⟨fun team => plPickHome_returns startplanets team s, conquerGoHome_returns startplanets s,
    fun quorum me tno => enterPlace_returns startplanets quorum s me tno⟩

/-- After a conquest, a slot that waits for its player has no team yet, and there is no home for it. -/
theorem home_out_of_range :
    ¬ ∀ (startplanets : Startplanets) (s : Server), (∀ team, Returns (plPickHome startplanets team s)) ∧
      Returns (conquerGoHome startplanets s) := by
  intro h
  let waiting (i : Slot) : Player :=
    { (default : Player) with status := if i = 0 then .poutfit else .pfree, team := if i = 0 then nobody else fed }
  let s : Server := { (default : Server) with mem := { (default : Memory) with players := waiting } }
  have hteam := (conquerGoHome_returns _ s).1 (h (fun _ => 1) s).2 0 (by decide)
  exact absurd hteam (by decide)

end Netrek.Planets
