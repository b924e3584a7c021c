/-
The flags of one's own ship: the functions that write `p_flags`, and how nineteen of the flags are packed into spare
bytes, eleven into five base-3 digits and eight into eight bits. The digits suffice because flags exclude one another.
-/
import Mathlib.Data.Fin.VecNotation
import NetrekServer.Enter
import NetrekServer.Lib.Flags

namespace Netrek.Short.Own

open Netrek.Lib.Flags

/-! ## Packing -/

/-- The flags that `SP_S_YOU_SS` has room for. -/
def padFlags : Word := pfGreen ||| pfYellow ||| pfRed ||| pfBeamUp ||| pfBeamDown ||| pfPLock |||
  pfPlLock ||| pfPress ||| pfTract ||| pfOrbit ||| pfDock

/-- The flags that `SP_SEQUENCE` has room for. -/
def seqFlags : Word := pfShield ||| pfRepair ||| pfBomb ||| pfCloak ||| pfWep ||| pfEng ||| pfRefitting ||| pfDockOk

/-- The digit of two flags, the second looked at if the first is not set. -/
def trit (f m : Word) (d : Nat) (m' : Word) (d' : Nat) : Nat := if f.has m then d else if f.has m' then d' else 0

/-- `pad1` as `sndSelfShip` computes it. -/
def pad1 (f : Word) : BitVec 8 :=
  BitVec.ofNat 8 (trit f pfGreen 2 pfYellow 1 + trit f pfBeamUp 2 pfBeamDown 1 * 3 + trit f pfPLock 2 pfPlLock 1 * 9 +
    trit f pfPress 1 pfTract 2 * 27 + trit f pfOrbit 2 pfDock 1 * 81)

/-- `flag8` as `addSequenceFlags` computes it. -/
def flag8 (f : Word) : BitVec 8 :=
  (if f.has pfShield then 0x01 else 0) ||| (if f.has pfRepair then 0x02 else 0) ||| (if f.has pfBomb then 0x04 else 0) |||
  (if f.has pfCloak then 0x08 else 0) ||| (if f.has pfWep then 0x10 else 0) ||| (if f.has pfEng then 0x20 else 0) |||
  (if f.has pfRefitting then 0x40 else 0) ||| (if f.has pfDockOk then 0x80 else 0)

/-! ## Groups -/

def alert : Group 32 3 := ⟨pfGreen ||| pfYellow ||| pfRed, ![pfRed, pfYellow, pfGreen]⟩
def beam : Group 32 3 := ⟨pfBeamUp ||| pfBeamDown, ![0, pfBeamDown, pfBeamUp]⟩
def lock : Group 32 3 := ⟨pfPLock ||| pfPlLock, ![0, pfPlLock, pfPLock]⟩
/-- A pressor is a tractor that pushes. -/
def tractor : Group 32 3 := ⟨pfTract ||| pfPress, ![0, pfTract ||| pfPress, pfTract]⟩
def berth : Group 32 3 := ⟨pfOrbit ||| pfDock, ![0, pfDock, pfOrbit]⟩

def groups : List (Group 32 3) := [alert, beam, lock, tractor, berth]

/-- Of the flags that exclude one another at most one is set, and always one of the alerts. -/
def InOrder (f : Word) : Prop := ∀ g ∈ groups, g.Holds f

instance (f : Word) : Decidable (InOrder f) := inferInstanceAs (Decidable (∀ g ∈ groups, g.Holds f))

/-- What a client makes of the digit in the `k`th place of `pad1`. -/
def digit (b : BitVec 8) (k : Nat) : Fin 3 := Fin.ofNat 3 (b.toNat / 3 ^ k)

/-- What a client makes of `pad1`. -/
def padWord (b : BitVec 8) : Word :=
  alert.word (digit b 0) ||| beam.word (digit b 1) ||| lock.word (digit b 2) ||| tractor.word (digit b 3) |||
    berth.word (digit b 4)

/-- What a client makes of `flag8`. -/
def seqWord (b : BitVec 8) : Word :=
  (if b.getLsbD 0 then pfShield else 0) ||| (if b.getLsbD 1 then pfRepair else 0) |||
  (if b.getLsbD 2 then pfBomb else 0) ||| (if b.getLsbD 3 then pfCloak else 0) |||
  (if b.getLsbD 4 then pfWep else 0) ||| (if b.getLsbD 5 then pfEng else 0) |||
  (if b.getLsbD 6 then pfRefitting else 0) ||| (if b.getLsbD 7 then pfDockOk else 0)

/-! ## Nothing is lost -/

/-- A flag of a group is tested in the group. -/
theorem has_of_at {g : Group 32 3} {f : Word} {d : Fin 3} (h : g.At f d) {m : Word} (hm : m &&& g.mask = m) :
    f.has m = Word.has (g.word d) m := by
  unfold Word.has
  rw [h.and hm]

/-- On its group, a digit that is right for every word of the group is right. -/
theorem trit_of_at {g : Group 32 3} {f : Word} {d : Fin 3} (h : g.At f d) {m m' : Word} {e e' : Nat}
    (hm : m &&& g.mask = m) (hm' : m' &&& g.mask = m') (hd : ∀ d, trit (g.word d) m e m' e' = d.val) :
    trit f m e m' e' = d.val := by
  unfold trit
  rw [has_of_at h hm, has_of_at h hm']
  exact hd d

/-- The digits of a number of five. -/
theorem digit_ofNat (d₀ d₁ d₂ d₃ d₄ : Fin 3) :
    let b := BitVec.ofNat 8 (d₀.val + d₁.val * 3 + d₂.val * 9 + d₃.val * 27 + d₄.val * 81)
    digit b 0 = d₀ ∧ digit b 1 = d₁ ∧ digit b 2 = d₂ ∧ digit b 3 = d₃ ∧ digit b 4 = d₄ := by
  intro b
  have hb : b.toNat = d₀.val + d₁.val * 3 + d₂.val * 9 + d₃.val * 27 + d₄.val * 81 := by
    show (BitVec.ofNat 8 _).toNat = _
    rw [BitVec.toNat_ofNat]
    omega
  unfold digit
  rw [hb]
  refine ⟨Fin.ext ?_, Fin.ext ?_, Fin.ext ?_, Fin.ext ?_, Fin.ext ?_⟩ <;> simp only [Fin.ofNat] <;> omega

/-- Of words in order, `pad1` tells all eleven flags. -/
theorem padWord_pad1 {f : Word} (h : InOrder f) : padWord (pad1 f) = f &&& padFlags := by
  obtain ⟨d₀, h₀⟩ := h alert (by simp [groups])
  obtain ⟨d₁, h₁⟩ := h beam (by simp [groups])
  obtain ⟨d₂, h₂⟩ := h lock (by simp [groups])
  obtain ⟨d₃, h₃⟩ := h tractor (by simp [groups])
  obtain ⟨d₄, h₄⟩ := h berth (by simp [groups])
  have e₀ : trit f pfGreen 2 pfYellow 1 = d₀.val := trit_of_at h₀ (by decide) (by decide) (by decide)
  have e₁ : trit f pfBeamUp 2 pfBeamDown 1 = d₁.val := trit_of_at h₁ (by decide) (by decide) (by decide)
  have e₂ : trit f pfPLock 2 pfPlLock 1 = d₂.val := trit_of_at h₂ (by decide) (by decide) (by decide)
  have e₃ : trit f pfPress 1 pfTract 2 = d₃.val := trit_of_at h₃ (by decide) (by decide) (by decide)
  have e₄ : trit f pfOrbit 2 pfDock 1 = d₄.val := trit_of_at h₄ (by decide) (by decide) (by decide)
  have hmask : padFlags = alert.mask ||| beam.mask ||| lock.mask ||| tractor.mask ||| berth.mask := by decide
  obtain ⟨g₀, g₁, g₂, g₃, g₄⟩ := digit_ofNat d₀ d₁ d₂ d₃ d₄
  unfold padWord pad1
  rw [e₀, e₁, e₂, e₃, e₄, g₀, g₁, g₂, g₃, g₄, ← h₀, ← h₁, ← h₂, ← h₃, ← h₄, hmask]
  simp only [BitVec.and_or_distrib_left]

/-- The bits of a byte put together from eight tests. -/
theorem getLsbD_byte : ∀ b₀ b₁ b₂ b₃ b₄ b₅ b₆ b₇ : Bool,
    let b : BitVec 8 := (if b₀ then 0x01 else 0) ||| (if b₁ then 0x02 else 0) ||| (if b₂ then 0x04 else 0) |||
      (if b₃ then 0x08 else 0) ||| (if b₄ then 0x10 else 0) ||| (if b₅ then 0x20 else 0) |||
      (if b₆ then 0x40 else 0) ||| (if b₇ then 0x80 else 0)
    b.getLsbD 0 = b₀ ∧ b.getLsbD 1 = b₁ ∧ b.getLsbD 2 = b₂ ∧ b.getLsbD 3 = b₃ ∧ b.getLsbD 4 = b₄ ∧
      b.getLsbD 5 = b₅ ∧ b.getLsbD 6 = b₆ ∧ b.getLsbD 7 = b₇ := by decide

/-- A test of one flag finds the flag. -/
theorem ite_has {m : Word} {i : Nat} (hm : m = BitVec.twoPow 32 i) (f : Word) :
    (if f.has m then m else 0) = f &&& m := by
  unfold Word.has
  subst hm
  rw [BitVec.and_twoPow]
  cases f.getLsbD i with
  | false => simp
  | true => simpa using Eq.symm

/-- `flag8` tells all eight flags, of any word. -/
theorem seqWord_flag8 (f : Word) : seqWord (flag8 f) = f &&& seqFlags := by
  obtain ⟨h₀, h₁, h₂, h₃, h₄, h₅, h₆, h₇⟩ := getLsbD_byte (f.has pfShield) (f.has pfRepair) (f.has pfBomb)
    (f.has pfCloak) (f.has pfWep) (f.has pfEng) (f.has pfRefitting) (f.has pfDockOk)
  unfold seqWord flag8
  rw [h₀, h₁, h₂, h₃, h₄, h₅, h₆, h₇, ite_has (show pfShield = BitVec.twoPow 32 0 by decide),
    ite_has (show pfRepair = BitVec.twoPow 32 1 by decide), ite_has (show pfBomb = BitVec.twoPow 32 2 by decide),
    ite_has (show pfCloak = BitVec.twoPow 32 4 by decide), ite_has (show pfWep = BitVec.twoPow 32 5 by decide),
    ite_has (show pfEng = BitVec.twoPow 32 6 by decide), ite_has (show pfRefitting = BitVec.twoPow 32 21 by decide),
    ite_has (show pfDockOk = BitVec.twoPow 32 24 by decide)]
  unfold seqFlags
  simp only [BitVec.and_or_distrib_left]

/-! ## Setters -/

/-- The functions that write the flags of a ship in the game and nothing that depends on them, under the names of
the source. -/
inductive Setter
  | enter (starbase : Bool)
  | setSpeed
  | setCourse
  | shieldUp
  | shieldDown
  | bombPlanet
  | beamUp
  | beamDown
  | repair
  | repairOff
  | cloak
  | cloakOn
  | cloakOff
  | lockPlanet
  | lockPlayer
  /-- `tractor_player` and `pressor_player` out of bounds, and the beam that the daemon takes away. -/
  | beamOff
  | tractorPlayer
  /-- The victim of `tractor_player`. -/
  | tractored
  | pressorPlayer
  /-- The victim of `pressor_player`. -/
  | pressored
  | declareWar
  | doRefit (starbase : Bool)
  | bayRelease
  /-- `handleDirReq`, before `set_course`. -/
  | handleDirReq
  /-- `handleOrbitReq` without a state, and an explosion. -/
  | leaveOrbit
  /-- `orbit_release_by_planet`. -/
  | orbitRelease
  | bombOff
  | beamUpOff
  | beamDownOff
  | playerLockOff
  | planetLockOff
  | handleTranswarp
  | twarpOff
  | handleQuitReq
  | quitOff
  | handleDockingReq (state : Bool)
  /-- `udplayers_palive_cool_weapons`. -/
  | coolWeapons (melted : Bool)
  /-- `udplayers_palive_cool_engines`. -/
  | coolEngines (melted : Bool)
  /-- `udplayersight`. -/
  | sight (seen : Bool)
  /-- The pauses of `input.c` are over. -/
  | warOff
  | refittingOff

namespace Setter

def locks : Word := pfPLock ||| pfPlLock
def beams : Word := pfTract ||| pfPress

/-- The statements, in the order of the source; `bay_release` clears one flag. -/
def writes : Setter → List (Write 32)
  | enter starbase => [.clear (BitVec.allOnes 32), .set (pfShield ||| pfGreen)] ++
      if starbase then [.set pfDockOk] else []
  | setSpeed => [.clear pfDock, .clear (pfRepair ||| pfBomb ||| pfOrbit ||| pfBeamUp ||| pfBeamDown)]
  | setCourse => [.clear pfDock, .clear (pfBomb ||| pfOrbit ||| pfBeamUp ||| pfBeamDown)]
  | shieldUp => [.set pfShield, .clear (pfBomb ||| pfRepair ||| pfBeamUp ||| pfBeamDown)]
  | shieldDown => [.clear pfShield]
  | bombPlanet => [.set pfBomb, .clear (pfShield ||| pfRepair ||| pfBeamUp ||| pfBeamDown)]
  | beamUp => [.set pfBeamUp, .clear (pfShield ||| pfRepair ||| pfBomb ||| pfBeamDown)]
  | beamDown => [.set pfBeamDown, .clear (pfShield ||| pfRepair ||| pfBomb ||| pfBeamUp)]
  | repair => [.set pfRepair, .clear (pfShield ||| pfBomb ||| pfBeamUp ||| pfBeamDown ||| locks)]
  | repairOff => [.clear pfRepair]
  | cloak => [.toggle pfCloak, .clear beams]
  | cloakOn => [.set pfCloak, .clear beams]
  | cloakOff => [.clear pfCloak]
  | lockPlanet => [.set pfPlLock, .clear (pfPLock ||| pfOrbit ||| pfBeamUp ||| pfBeamDown ||| pfBomb)]
  | lockPlayer => [.clear (pfPlLock ||| pfOrbit ||| pfBeamUp ||| pfBeamDown ||| pfBomb), .set pfPLock]
  | beamOff => [.clear beams]
  | tractorPlayer => [.clear pfDock, .clear pfOrbit, .set pfTract]
  | tractored => [.clear pfDock, .clear pfOrbit]
  | pressorPlayer => [.clear pfDock, .clear (pfOrbit ||| pfDock), .set beams]
  | pressored => [.clear pfDock, .clear (pfOrbit ||| pfDock)]
  | declareWar => [.set pfWar]
  | doRefit starbase => (if starbase then [.set pfDockOk] else []) ++
      [.clear (pfRefit ||| pfWep ||| pfEng), .set pfRefitting]
  | bayRelease => [.clear pfDock]
  | handleDirReq => [.clear locks]
  | leaveOrbit => [.clear pfOrbit]
  | orbitRelease => [.clear (pfBomb ||| pfOrbit ||| pfBeamUp ||| pfBeamDown)]
  | bombOff => [.clear pfBomb]
  | beamUpOff => [.clear pfBeamUp]
  | beamDownOff => [.clear pfBeamDown]
  | playerLockOff => [.clear pfPLock]
  | planetLockOff => [.clear pfPlLock]
  | handleTranswarp => [.clear pfDock, .clear (pfRepair ||| pfBomb ||| pfOrbit ||| pfBeamUp ||| pfBeamDown),
      .clear (locks ||| pfDock), .set (pfShield ||| pfTwarp ||| pfPLock)]
  | twarpOff => [.clear pfTwarp]
  | handleQuitReq => [.set pfSelfDest]
  | quitOff => [.clear pfSelfDest]
  | handleDockingReq state => [if state then .set pfDockOk else .clear pfDockOk]
  | coolWeapons melted => [if melted then .set pfWep else .clear pfWep]
  | coolEngines melted => [if melted then .set pfEng else .clear pfEng]
  | sight seen => [if seen then .set pfSeen else .clear pfSeen]
  | warOff => [.clear pfWar]
  | refittingOff => [.clear pfRefitting]

/-- The flags that the functions test before they write. Their other guards look at the rest of the game, which may
fall out either way. -/
def guard (f : Word) : Setter → Bool
  | bombPlanet => f.has pfOrbit
  | beamUp | beamDown | doRefit _ => f.has (pfOrbit ||| pfDock)
  | tractorPlayer => !f.has pfCloak
  | pressorPlayer => !f.has pfPress && !f.has pfCloak
  | _ => true

def run (s : Setter) (f : Word) : Word := if s.guard f then Lib.Flags.run s.writes f else f

end Setter

/-! ## Alert -/

/-- How near an enemy is. -/
inductive Nearness
  | far
  | yellow
  | red

/-- One enemy in the loop of `udplayers_palive_set_alert`. -/
def alarm (f : Word) : Nearness → Word
  | .far => f
  | .red => run [.set pfRed, .clear (pfGreen ||| pfYellow)] f
  | .yellow => if f.has pfRed then f else run [.set pfYellow, .clear (pfGreen ||| pfRed)] f

/-- `udplayers_palive_set_alert`, for the enemies in the order of their slots. -/
def setAlert (enemies : List Nearness) (f : Word) : Word :=
  enemies.foldl alarm (run [.set pfGreen, .clear (pfRed ||| pfYellow)] f)

/-! ## Orbit -/

/-- What `dock` returns. -/
inductive Dock
  | noBase
  | failure
  | success
  deriving DecidableEq

/-- Who arrives in transwarp is refitting for a while. -/
def arrive (f : Word) : Word := if f.has pfTwarp then run [.clear pfTwarp, .set pfRefitting] f else f

/-- `de_lock`. -/
def deLock (f : Word) : Word := arrive (run [.clear (Setter.locks ||| Setter.beams)] f)

/-- `dock`. -/
def dock (f : Word) : Dock → Word
  | .noBase => f
  | .failure => deLock f
  | .success => arrive (run [.clear (Setter.locks ||| Setter.beams), .set pfDock] f)

/-- The loop of `orbit` over the ships that have a beam on us, each a starbase or not: the flags, and whether a
starbase holds us. Two beams or a beam of another ship prevent orbiting. -/
def orbitBeams : List Bool → Bool → Word → Word × Option Bool
  | [], held, f => (f, some held)
  | starbase :: l, held, f =>
    if !starbase || held then (f, none) else orbitBeams l true (run [.clear (pfDock ||| pfOrbit)] f)

/-- `orbit`, given the beams, what `dock` finds at the bases in turn, and whether a planet is in reach. -/
def orbit (beams : List Bool) (docks : List Dock) (planet : Bool) (f : Word) : Word :=
  match orbitBeams beams false f with
  | (f, none) => f
  | (f, some true) => dock f (docks.headD .noBase)
  | (f, some false) =>
    if f.has (pfDock ||| pfOrbit) then f
    else
      match docks.find? (· != .noBase) with
      | some d => dock f d
      | none => if planet then run [.clear (Setter.locks ||| Setter.beams), .set pfOrbit] f else f

/-! ## In order -/

/-- The flags of a ship that enters. -/
def enterFlags (starbase : Bool) : Word := pfShield ||| pfGreen ||| if starbase then pfDockOk else 0

theorem enterFlags_inOrder (starbase : Bool) : InOrder (enterFlags starbase) := by cases starbase <;> decide

/-- So `enter` writes them. -/
theorem player_flags (e : Entry) (c : Setup) (m : Memory) (pno : Slot) (p : Player) :
    (e.player c m pno p).flags = enterFlags (e.sType = .starbase) := by
  unfold Entry.player enterFlags
  simp only [decide_eq_true_eq]
  split <;> rfl

theorem Setter.run_enter (starbase : Bool) (f : Word) : (Setter.enter starbase).run f = enterFlags starbase := by
  have hclear : f &&& ~~~BitVec.allOnes 32 = 0 := by simp
  cases starbase with
  | false =>
    show (f &&& ~~~BitVec.allOnes 32) ||| (pfShield ||| pfGreen) = _
    rw [hclear]
    rfl
  | true =>
    show (f &&& ~~~BitVec.allOnes 32) ||| (pfShield ||| pfGreen) ||| pfDockOk = _
    rw [hclear]
    rfl

/-- Statements that leave every group one of its words keep the flags in order. -/
theorem InOrder.run {f : Word} (h : InOrder f) {ws : List (Write 32)} (hf : ∀ g ∈ groups, g.Fits ws) :
    InOrder (run ws f) := fun g hg => (h g hg).run (hf g hg)

theorem Setter.fits (s : Setter) : ∀ g ∈ groups, g.Fits s.writes := by
  cases s with
  | enter starbase => cases starbase <;> decide
  | doRefit starbase => cases starbase <;> decide
  | handleDockingReq state => cases state <;> decide
  | coolWeapons melted => cases melted <;> decide
  | coolEngines melted => cases melted <;> decide
  | sight seen => cases seen <;> decide
  | _ => decide

theorem InOrder.setter {f : Word} (h : InOrder f) (s : Setter) : InOrder (s.run f) := by
  unfold Setter.run
  split
  · exact h.run s.fits
  · exact h

theorem InOrder.alarm {f : Word} (h : InOrder f) (n : Nearness) : InOrder (alarm f n) := by
  cases n with
  | far => exact h
  | red => exact h.run (by decide)
  | yellow =>
    show InOrder (if f.has pfRed then f else _)
    split
    · exact h
    · exact h.run (by decide)

theorem InOrder.setAlert {f : Word} (h : InOrder f) (enemies : List Nearness) : InOrder (setAlert enemies f) := by
  unfold Own.setAlert
  have hgreen : InOrder (Lib.Flags.run [.set pfGreen, .clear (pfRed ||| pfYellow)] f) := h.run (by decide)
  generalize Lib.Flags.run [.set pfGreen, .clear (pfRed ||| pfYellow)] f = f' at hgreen
  induction enemies generalizing f' with
  | nil => exact hgreen
  | cons n enemies ih => exact ih _ (hgreen.alarm n)

theorem InOrder.arrive {f : Word} (h : InOrder f) : InOrder (arrive f) := by
  unfold Own.arrive
  split
  · exact h.run (by decide)
  · exact h

/-- A ship that is neither docked nor in orbit has no berth. -/
theorem berth_empty {f : Word} (hfree : f.has (pfDock ||| pfOrbit) = false) : berth.At f 0 := by
  have hzero : f &&& (pfDock ||| pfOrbit) = 0 := by
    by_contra hne
    rw [Word.has_iff.2 hne] at hfree
    cases hfree
  rw [BitVec.or_comm] at hzero
  exact hzero

/-- It may take one. -/
theorem InOrder.takeBerth {f : Word} (h : InOrder f) (hfree : f.has (pfDock ||| pfOrbit) = false) {m : Word}
    (hm : m = pfDock ∨ m = pfOrbit) :
    InOrder (Lib.Flags.run [.clear (Setter.locks ||| Setter.beams), .set m] f) := by
  have hfits : ∀ g ∈ [alert, beam, lock, tractor],
      g.Fits [.clear (Setter.locks ||| Setter.beams), .set m] := by
    rcases hm with rfl | rfl <;> decide
  have htakes : ∃ d, berth.Takes [.clear (Setter.locks ||| Setter.beams), .set m] 0 d := by
    rcases hm with rfl | rfl <;> decide
  intro g hg
  rcases List.mem_append.1 (show g ∈ [alert, beam, lock, tractor] ++ [berth] from hg) with hg' | hg'
  · exact (h g hg).run (hfits g hg')
  · obtain rfl := List.mem_singleton.1 hg'
    obtain ⟨d, hd⟩ := htakes
    exact ⟨d, (berth_empty hfree).run hd⟩

theorem InOrder.dock {f : Word} (h : InOrder f) (hfree : f.has (pfDock ||| pfOrbit) = false) (d : Dock) :
    InOrder (dock f d) := by
  cases d with
  | noBase => exact h
  | failure => exact (h.run (by decide)).arrive
  | success => exact (h.takeBerth hfree (.inl rfl)).arrive

/-- The beams cost the berth, which is gone if they end with a starbase holding us. -/
theorem InOrder.orbitBeams {f : Word} (h : InOrder f) (beams : List Bool) (held : Bool)
    (hheld : held = true → f.has (pfDock ||| pfOrbit) = false) :
    InOrder (orbitBeams beams held f).1 ∧
      ((orbitBeams beams held f).2 = some true → (orbitBeams beams held f).1.has (pfDock ||| pfOrbit) = false) := by
  induction beams generalizing held f with
  | nil => exact ⟨h, fun he => hheld (Option.some.inj he)⟩
  | cons starbase beams ih =>
    unfold Own.orbitBeams
    split
    · exact ⟨h, fun he => by cases he⟩
    · refine ih (h.run (by decide)) true fun _ => ?_
      show Word.has (f &&& ~~~(pfDock ||| pfOrbit)) (pfDock ||| pfOrbit) = false
      unfold Word.has
      rw [BitVec.and_assoc, show ~~~(pfDock ||| pfOrbit) &&& (pfDock ||| pfOrbit) = 0 by decide]
      simp

theorem InOrder.orbit {f : Word} (h : InOrder f) (beams : List Bool) (docks : List Dock) (planet : Bool) :
    InOrder (orbit beams docks planet f) := by
  have hbeams := h.orbitBeams beams false fun he => by cases he
  unfold Own.orbit
  split
  next f' heq =>
    rw [heq] at hbeams
    exact hbeams.1
  next f' heq =>
    rw [heq] at hbeams
    exact hbeams.1.dock (hbeams.2 rfl) _
  next f' heq =>
    rw [heq] at hbeams
    split
    · exact hbeams.1
    next hfree =>
      have hfree : f'.has (pfDock ||| pfOrbit) = false := Bool.eq_false_iff.2 hfree
      split
      · exact hbeams.1.dock hfree _
      · split
        · exact hbeams.1.takeBerth hfree (.inr rfl)
        · exact hbeams.1

end Netrek.Short.Own
