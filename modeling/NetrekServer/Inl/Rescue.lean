/-
Armies aboard a ship that is taken out of the game are put down at home: `do_free` of
`robots/inlcomm.c`, `ghostmess` of `ntserv/daemon.c` and `obliterate` of `robots/inl.c`. The first
leaves them aboard as well, so nothing is put down twice as long as it frees the slot at once.
-/
import NetrekServer.Inl.Slots
import NetrekServer.Lib.Freight
import NetrekServer.Lib.Run

namespace Netrek.Inl

open Netrek.Lib
open SlotMaint (Desk)

/-! ## The three rescues -/

def badversionNoslot : Int := 2

/-- Armies are added to a planet. -/
def Bureau.putDown (b : Bureau) (l : Fin maxPlanets) (armies : Int) : Bureau :=
  { b with robot := { b.robot with mem := b.mem.modifyPlanet l fun x => { x with armies := x.armies + armies } } }

/-- `ghostmess` but for its message. -/
def ghostmess (b : Bureau) (victim : Slot) : Bureau :=
  let p := b.player victim
  if p.flags.has pfObserv then b
  else if 0 < p.armies then
    match homePlanet b.mem p.team with
    | none => b
    | some l => (b.putDown l p.armies).modifyPlayer victim fun p => { p with armies := 0 }
  else b

/-- The planet that gets the armies of a slot that a captain frees: those of a starbase are saved. -/
def savedAt (b : Bureau) (victim : Slot) : Option (Fin maxPlanets) :=
  let j := b.player victim
  if j.ship.type = .starbase ∧ 0 < j.armies ∧ !j.flags.has pfObserv then homePlanet b.mem j.team else none

/-- `do_free` of a slot: its server process is told to go, or the slot is free. -/
def freeVictim (b : Bureau) (victim : Slot) : Bureau :=
  let b :=
    match savedAt b victim with
    | none => b
    | some l => b.putDown l (b.player victim).armies
  if b.process victim ≠ 0 then { b with disconnect := Function.update b.disconnect victim badversionNoslot }
  else b.freeslot victim

/-- The slot that `do_free` is about, if a captain asks and names one that is in use. -/
def freed (b : Bureau) (who : Slot) (id : Option Char) : Option Slot :=
  (checkPlayer b.robot who true).bind fun _ => SlotMaint.getplayer b.roster who (argument id)

/-- `do_free`. -/
def doFree (b : Bureau) (who : Slot) (id : Option Char) : Bureau :=
  match freed b who id with
  | none => b
  | some victim => if (b.player victim).status = .pfree then b else freeVictim b victim

/-! ## What takes ships out of the game -/

/-- What takes ships out of the game. -/
inductive Removal
  | doFree (who : Slot) (id : Option Char)
  | ghostmess (victim : Slot)
  | obliterate (wflag : Nat) (kreason : WhyDead)
  /-- The server process of a slot goes. -/
  | freeslot (victim : Slot)

namespace Bureau

def remove (b : Bureau) : Removal → Bureau
  | .doFree who id => Inl.doFree b who id
  | .ghostmess victim => Inl.ghostmess b victim
  | .obliterate wflag kreason => { b with robot := Inl.obliterate b.robot wflag kreason }
  | .freeslot victim => b.freeslot victim

/-- The daemon considers slots in use, and a process has one. -/
def lawful (b : Bureau) : Removal → Prop
  | .doFree .. => True
  | .ghostmess victim => (b.player victim).status ≠ .pfree
  | .obliterate .. => True
  | .freeslot victim => (b.player victim).status ≠ .pfree

/-- A captain saves no armies from a slot that stays in use, and a slot that is freed does not owe any. -/
def ok (b : Bureau) : Removal → Prop
  | .doFree who id => ∀ victim ∈ freed b who id,
      if b.process victim = 0 then 0 ≤ (b.player victim).armies else savedAt b victim = none
  | .freeslot victim => 0 ≤ (b.player victim).armies
  | _ => True

end Bureau

/-! ## Where armies are -/

/-- The armies aboard a ship in use. -/
def carried (p : Player) : Int := if p.status = .pfree then 0 else p.armies

/-- The armies of the ships and of the planets. -/
def freight (m : Memory) : Freight Slot (Fin maxPlanets) where
  aboard j := carried (m.players j)
  stored l := (m.planets l).armies

/-- The planet belongs to the team of the ship. -/
def AtHome (m : Memory) (j : Slot) (l : Fin maxPlanets) : Prop := (m.planets l).owner = (m.players j).team

/-- From one state to another, armies on planets come from ships of the planet's team and are then no longer aboard. -/
structure Rescues (m m' : Memory) : Prop where
  delivers : (freight m).Delivers (AtHome m) (freight m')
  owner : ∀ l, (m'.planets l).owner = (m.planets l).owner
  team : ∀ j, (m'.players j).team = (m.players j).team

namespace Rescues

variable {m m' m'' : Memory} {j : Slot} {l : Fin maxPlanets}

theorem trans (h : Rescues m m') (h' : Rescues m' m'') : Rescues m m'' := by
  have hhome : AtHome m' = AtHome m := by
    funext j l
    unfold AtHome
    rw [h.owner, h.team]
  refine ⟨h.delivers.trans (hhome ▸ h'.delivers), ?_, ?_⟩
  · intro l
    rw [h'.owner, h.owner]
  · intro j
    rw [h'.team, h.team]

/-- Nothing is put down. -/
theorem of_planets (hp : m'.planets = m.planets) (ht : ∀ j, (m'.players j).team = (m.players j).team)
    (ha : ∀ j, carried (m'.players j) ≤ carried (m.players j)) : Rescues m m' := by
  refine ⟨.of_lost ?_ ha, ?_, ht⟩
  · intro l
    show (m'.planets l).armies = _
    rw [hp]
    rfl
  · intro l
    rw [hp]

theorem refl (m : Memory) : Rescues m m := of_planets rfl (fun _ => rfl) fun _ => le_rfl

/-- One player changes. -/
theorem of_player {p : Player} (hp : m'.planets = m.planets) (hm : ∀ i, m'.players i = if i = j then p else m.players i)
    (ht : p.team = (m.players j).team) (ha : carried p ≤ carried (m.players j)) : Rescues m m' := by
  refine of_planets hp ?_ ?_
  · intro i
    rw [hm]
    split
    · next h => rw [ht, h]
    · rfl
  · intro i
    rw [hm]
    split
    · next h => rwa [h]
    · exact le_rfl

/-- The armies of a ship in use are put down on a planet of its team. -/
theorem unload {p : Player} (hu : (m.players j).status ≠ .pfree) (hn : 0 ≤ (m.players j).armies)
    (hl : (m.planets l).owner = (m.players j).team)
    (hp : m'.planets = (m.modifyPlanet l fun x => { x with armies := x.armies + (m.players j).armies }).planets)
    (hm : ∀ i, m'.players i = if i = j then p else m.players i) (ht : p.team = (m.players j).team)
    (hc : carried p = 0) : Rescues m m' := by
  have hplanets (k : Fin maxPlanets) : m'.planets k =
      if k = l then { m.planets l with armies := (m.planets l).armies + (m.players j).armies } else m.planets k := by
    rw [hp]
    show Function.update m.planets l _ k = _
    rw [Function.update_apply]
  refine ⟨.unload (m.players j).armies.toNat hl ?_ ?_, ?_, ?_⟩
  · intro k
    show (m'.planets k).armies = (m.planets k).armies + _
    rw [hplanets]
    split
    · next h =>
      subst h
      show (m.planets k).armies + (m.players j).armies = _
      omega
    · omega
  · intro i
    show carried (m'.players i) + _ ≤ carried (m.players i)
    rw [hm]
    split
    · next h =>
      subst h
      rw [hc]
      unfold carried
      rw [if_neg hu]
      omega
    · omega
  · intro k
    rw [hplanets]
    split
    · next h => rw [h]
    · rfl
  · intro i
    rw [hm]
    split
    · next h => rw [ht, h]
    · rfl

end Rescues

/-! ## Each rescue -/

theorem owner_of_homePlanet {m : Memory} {team : Word} {l : Fin maxPlanets} (h : homePlanet m team = some l) :
    (m.planets l).owner = team := by
  unfold homePlanet at h
  dsimp only at h
  split at h
  · have hfound := List.find?_some h
    rw [Bool.and_eq_true] at hfound
    exact eq_of_beq hfound.2
  · cases h

theorem rescues_ghostmess {b : Bureau} {victim : Slot} (hu : (b.player victim).status ≠ .pfree) :
    Rescues b.mem (ghostmess b victim).mem := by
  unfold ghostmess
  dsimp only
  split
  · exact .refl _
  split
  · next ha =>
    cases hl : homePlanet b.mem (b.player victim).team with
    | none => exact .refl _
    | some l =>
      exact .unload hu ha.le (owner_of_homePlanet hl) rfl (Bureau.player_modifyPlayer _ victim · _) rfl (ite_self _)
  · exact .refl _

theorem rescues_modifyPlayer {m : Memory} {j : Slot} {f : Player → Player} (ht : (f (m.players j)).team = (m.players j).team)
    (ha : carried (f (m.players j)) ≤ carried (m.players j)) : Rescues m (m.modifyPlayer j f) :=
  .of_player rfl (Memory.players_modifyPlayer m j · f) ht ha

/-- A ship in use that stays in use with its armies. -/
theorem carried_le {p p' : Player} (hu : p.status ≠ .pfree) (hu' : p'.status ≠ .pfree) (ha : p'.armies = p.armies) :
    carried p' ≤ carried p := by
  unfold carried
  rw [if_neg hu, if_neg hu', ha]

theorem rescues_dropArmies {r : Robot} {j : Slot} (hu : (r.player j).status ≠ .pfree) :
    Rescues r.mem (dropArmies r j).mem := by
  unfold dropArmies
  dsimp only
  split
  · next ha =>
    cases hl : homePlanet r.mem (r.player j).team with
    | none => exact .refl _
    | some l =>
      dsimp only
      split
      · refine .unload (p := { r.player j with armies := 0 }) hu ha.le (owner_of_homePlanet hl) rfl ?_ rfl (ite_self _)
        intro i
        show Function.update r.mem.players j { r.player j with armies := 0 } i = _
        rw [Function.update_apply]
      · exact .refl _
  · exact .refl _

theorem player_modifyPlayer_self (r : Robot) (j : Slot) (f : Player → Player) :
    (r.modifyPlayer j f).player j = f (r.player j) := Function.update_self _ _ _

/-- An obliterated ship leaves its armies on a planet of its team, if anywhere. -/
theorem rescues_obliterateOne (wflag : Nat) (kreason : WhyDead) (r : Robot) (j : Slot) :
    Rescues r.mem (obliterateOne wflag kreason r j).mem := by
  -- the part after the flag of the captain is cleared
  have hrest (r : Robot) (hu : (r.player j).status ≠ .pfree) : Rescues r.mem (if (r.player j).status = .pobserv then
        r.modifyPlayer j fun p => { p with status := .pexplode, whydead := kreason }
      else if !(r.player j).flags.has pfRobot && decide (r.pos j < 0) then
        r.modifyPlayer j fun p => { p with status := .pexplode, whydead := .kquit, explode := 10, whodead := 0 }
      else dropArmies (r.modifyPlayer j (explodeShip wflag kreason)) j).mem := by
    have hexplode (f : Player → Player) (hf : ∀ p, (f p).team = p.team) (hs : ∀ p, (f p).status = .pexplode)
        (ha : ∀ p, (f p).armies = p.armies) : Rescues r.mem (r.modifyPlayer j f).mem :=
      rescues_modifyPlayer (hf _) (carried_le hu (by rw [hs]; decide) (ha _))
    split
    · exact hexplode _ (fun _ => rfl) (fun _ => rfl) fun _ => rfl
    split
    · exact hexplode _ (fun _ => rfl) (fun _ => rfl) fun _ => rfl
    · refine (hexplode (explodeShip wflag kreason) (fun _ => rfl) (fun _ => rfl) fun _ => rfl).trans ?_
      apply rescues_dropArmies
      rw [player_modifyPlayer_self]
      exact PStatus.noConfusion
  unfold obliterateOne
  dsimp only
  split
  · exact .refl _
  · next hu =>
    split
    · refine (rescues_modifyPlayer rfl (carried_le hu hu rfl)).trans (hrest (r.modifyPlayer j _) ?_)
      rw [player_modifyPlayer_self]
      exact hu
    · exact hrest r hu

theorem rescues_obliterate (r : Robot) (wflag : Nat) (kreason : WhyDead) : Rescues r.mem (obliterate r wflag kreason).mem := by
  have hloop (js : List Slot) : ∀ r : Robot, Rescues r.mem (js.foldl (obliterateOne wflag kreason) r).mem := by
    induction js with
    | nil => exact fun r => .refl _
    | cons j js ih => exact fun r => (rescues_obliterateOne wflag kreason r j).trans (ih _)
  let r' := { r with obliterateTimer := 10, mem := { r.mem with torps := fun _ => default } }
  have htorps : Rescues r.mem r'.mem := .of_planets rfl (fun _ => rfl) fun _ => le_rfl
  exact htorps.trans (hloop (List.finRange maxPlayer) r')

/-- A slot that is freed forgets its armies. -/
theorem rescues_freeslot {b : Bureau} {victim : Slot} (hn : 0 ≤ (b.player victim).armies) :
    Rescues b.mem (b.freeslot victim).mem := by
  refine .of_player (planets_freeslot b victim) (player_freeslot b victim) rfl ?_
  unfold carried
  rw [if_pos rfl]
  split
  · exact le_rfl
  · exact hn

theorem savedAt_spec {b : Bureau} {victim : Slot} {l : Fin maxPlanets} (h : savedAt b victim = some l) :
    0 < (b.player victim).armies ∧ homePlanet b.mem (b.player victim).team = some l := by
  unfold savedAt at h
  dsimp only at h
  split at h
  · next hc => exact ⟨hc.2.1, h⟩
  · cases h

/-- So does a player whom `do_free` frees. -/
theorem rescues_freeVictim {b : Bureau} {victim : Slot} (hu : (b.player victim).status ≠ .pfree)
    (hok : if b.process victim = 0 then 0 ≤ (b.player victim).armies else savedAt b victim = none) :
    Rescues b.mem (freeVictim b victim).mem := by
  unfold freeVictim
  split at hok
  · next hz =>
    cases hl : savedAt b victim with
    | none =>
      dsimp only
      rw [if_neg (not_not_intro hz)]
      exact rescues_freeslot hok
    | some l =>
      obtain ⟨ha, hhome⟩ := savedAt_spec hl
      have hz' : (b.putDown l (b.player victim).armies).process victim = 0 := hz
      dsimp only
      rw [if_neg (not_not_intro hz')]
      exact .unload hu ha.le (owner_of_homePlanet hhome) (planets_freeslot _ victim) (player_freeslot _ victim) rfl (if_pos rfl)
  · next hz =>
    rw [hok]
    dsimp only
    rw [if_pos hz]
    exact .refl _

theorem rescues_doFree {b : Bureau} {who : Slot} {id : Option Char} (hok : b.ok (.doFree who id)) :
    Rescues b.mem (doFree b who id).mem := by
  unfold doFree
  cases hf : freed b who id with
  | none => exact .refl _
  | some victim =>
    dsimp only
    split
    · exact .refl _
    · next hu => exact rescues_freeVictim hu (hok victim hf)

/-! ## A captain who saves armies again -/

theorem status_of_freed {b : Bureau} {who victim : Slot} {id : Option Char} (h : freed b who id = some victim) :
    (b.player victim).status ≠ .pfree := by
  unfold freed SlotMaint.getplayer at h
  cases hc : checkPlayer b.robot who true with
  | none =>
    rw [hc] at h
    cases h
  | some num =>
    rw [hc, Option.bind_some, Option.filter_eq_some_iff] at h
    exact bne_iff_ne.1 h.2

/-- A captain who saves armies from a slot that stays in use adds to the armies of the game, by as many. -/
theorem total_freeVictim_stays {b : Bureau} {victim : Slot} {l : Fin maxPlanets} (hp : b.process victim ≠ 0)
    (hl : savedAt b victim = some l) :
    (freight (freeVictim b victim).mem).total = (freight b.mem).total + (b.player victim).armies := by
  unfold freeVictim
  rw [hl]
  dsimp only
  have hp' : (b.putDown l (b.player victim).armies).process victim ≠ 0 := hp
  rw [if_pos hp']
  have hgain := Freight.total_gain (freight b.mem) (freight (b.putDown l (b.player victim).armies).mem)
    (i := victim) (k := l) (d := 0) (n := (b.player victim).armies) (fun j => by simp; rfl) fun k => by
      show (Function.update b.mem.planets l _ k).armies = (b.mem.planets k).armies + _
      rw [Function.update_apply]
      split
      · next h => rw [h]
      · omega
  rw [Int.add_zero] at hgain
  exact hgain

/-- A slot that is freed with what it owes adds as much. -/
theorem total_freeslot {b : Bureau} {victim : Slot} (hu : (b.player victim).status ≠ .pfree) :
    (freight (b.freeslot victim).mem).total = (freight b.mem).total - (b.player victim).armies := by
  have hgain := Freight.total_gain (freight b.mem) (freight (b.freeslot victim).mem) (i := victim)
    (k := (0 : Fin maxPlanets)) (d := -(b.player victim).armies) (n := 0) (fun j => by
      show carried ((b.freeslot victim).player j) = carried (b.player j) + _
      rw [player_freeslot]
      split
      · next h =>
        subst h
        unfold carried
        rw [if_pos rfl, if_neg hu]
        omega
      · omega) fun k => by
      show ((b.freeslot victim).mem.planets k).armies = (b.mem.planets k).armies + _
      rw [planets_freeslot]
      split <;> omega
  omega

/-- One FREE keeps the armies of the game within what they were exactly if it saves none from a slot that stays in use
and frees no slot that owes armies. -/
theorem total_doFree_le_iff {b : Bureau} {who : Slot} {id : Option Char} :
    (freight (doFree b who id).mem).total ≤ (freight b.mem).total ↔ b.ok (.doFree who id) := by
  refine ⟨fun hle victim hv => ?_, fun hok => (rescues_doFree hok).delivers.total_le⟩
  have hu := status_of_freed hv
  have hfree : doFree b who id = freeVictim b victim := by
    unfold doFree
    rw [Option.mem_def.1 hv]
    exact if_neg hu
  rw [hfree] at hle
  split
  · next hz =>
    by_contra hneg
    have hnone : savedAt b victim = none := by
      cases hl : savedAt b victim with
      | none => rfl
      | some l => exact absurd (savedAt_spec hl).1.le hneg
    have hslot : freeVictim b victim = b.freeslot victim := by
      unfold freeVictim
      rw [hnone]
      exact if_neg (not_not_intro hz)
    rw [hslot, total_freeslot hu] at hle
    omega
  · next hz =>
    cases hl : savedAt b victim with
    | none => rfl
    | some l =>
      have hpos := (savedAt_spec hl).1
      rw [total_freeVictim_stays hz hl] at hle
      omega

/-! ## Runs -/

theorem rescues_remove {b : Bureau} {a : Removal} (hlawful : b.lawful a) (hok : b.ok a) : Rescues b.mem (b.remove a).mem := by
  cases a with
  | doFree who id => exact rescues_doFree hok
  | ghostmess victim => exact rescues_ghostmess hlawful
  | obliterate wflag kreason => exact rescues_obliterate b.robot wflag kreason
  | freeslot victim => exact rescues_freeslot hok

/-- As long as captains save no armies from slots that stay in use, every army that reaches a planet comes from a ship of
the planet's team that had it aboard and has not any more, and there are never more armies than before. The next FREE
adds none exactly if it does the same. -/
theorem armies_rescued_once {b b' : Bureau} {ops : List Removal}
    (h : Run (fun b a => b.lawful a ∧ b.ok a) Bureau.remove b ops b') :
    (Rescues b.mem b'.mem ∧ (freight b'.mem).total ≤ (freight b.mem).total) ∧
      ∀ who id, (freight (doFree b' who id).mem).total ≤ (freight b'.mem).total ↔ b'.ok (.doFree who id) := by
  have hr : Rescues b.mem b'.mem :=
    Run.rel (R := fun b b' => Rescues b.mem b'.mem) (fun b => .refl b.mem) Rescues.trans
      (fun b a hok => rescues_remove hok.1 hok.2) h
  exact ⟨⟨hr, hr.delivers.total_le⟩, fun who id => total_doFree_le_iff⟩

/-- A captain of the Federation in slot 0, and a starbase of the Federation with five armies in slot 1. -/
def laden (process : Int) : Bureau :=
  { (default : Bureau) with
    desks := fun _ => { (default : Desk) with process := process }
    robot :=
      { (default : Robot) with
        teams := fun t => { (default : Team) with captain := some 0, side := if t = home then fed else rom }
        mem :=
          { (default : Memory) with
            planets := fun _ => { (default : Planet) with owner := fed }
            players := fun j =>
              { (default : Player) with
                status := if j.val ≤ 1 then .palive else .pfree
                team := fed
                wQueue := quHome
                armies := if j.val = 1 then 5 else 0
                ship := { (default : Ship) with type := .starbase } } } } }

/-- The slot is freed at once. -/
theorem armies_rescued_once_laden : (Rescues (laden 0).mem (doFree (laden 0) 0 (some '1')).mem ∧
    (freight (doFree (laden 0) 0 (some '1')).mem).total ≤ (freight (laden 0).mem).total) ∧
      ∀ who id, (freight (doFree (doFree (laden 0) 0 (some '1')) who id).mem).total ≤
        (freight (doFree (laden 0) 0 (some '1')).mem).total ↔ (doFree (laden 0) 0 (some '1')).ok (.doFree who id) := by
  have hok : (laden 0).ok (.doFree 0 (some '1')) := by
    intro victim hv
    have hone : freed (laden 0) 0 (some '1') = some 1 := by decide
    obtain rfl : 1 = victim := Option.some.inj (hone.symm.trans hv)
    decide
  have hrun : Run (fun b a => b.lawful a ∧ b.ok a) Bureau.remove (laden 0) [.doFree 0 (some '1')]
      (doFree (laden 0) 0 (some '1')) := .cons ⟨trivial, hok⟩ (.nil _)
  exact armies_rescued_once hrun

/-- The captain repeats FREE while the server process of the starbase has not gone, and the daemon takes it for a ghost. -/
theorem armies_rescued_thrice : ∃ b', Run Bureau.lawful Bureau.remove (laden 100)
    [.doFree 0 (some '1'), .doFree 0 (some '1'), .ghostmess 1] b' ∧
      (freight b'.mem).total = (freight (laden 100).mem).total + 10 ∧ ¬ Rescues (laden 100).mem b'.mem := by
  have htotal : (freight (ghostmess (doFree (doFree (laden 100) 0 (some '1')) 0 (some '1')) 1).mem).total =
      (freight (laden 100).mem).total + 10 := by decide +kernel
  refine ⟨_, .cons trivial (.cons trivial (.cons ?_ (.nil _))), htotal, ?_⟩
  · show ((doFree (doFree (laden 100) 0 (some '1')) 0 (some '1')).player 1).status ≠ .pfree
    decide
  · intro h
    have hle : (freight (ghostmess (doFree (doFree (laden 100) 0 (some '1')) 0 (some '1')) 1).mem).total ≤
        (freight (laden 100).mem).total := h.delivers.total_le
    omega

end Netrek.Inl
