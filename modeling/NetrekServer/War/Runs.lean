/-
The masks of a ship stay in order from its entry into the game on: whoever enters, declares war or changes
teams, and whatever the daemon does. A team that was attacked remains an enemy. But a phaser begins its war
before the daemon looks whether the target is alive: if a newcomer has taken the target's slot, who counts
as of all teams, the ship is at war with its own.
-/
import NetrekServer.Lib.Run
import NetrekServer.Slot.Maint
import NetrekServer.War.Keeps

namespace Netrek.War

open Daemon Empire Netrek.Lib

/-! ## Declaring war -/

theorem masked_nobody {p : Player} (hh : p.hostile = nobody) (hs : p.swar = nobody) (hw : p.war = nobody) : Masked p := by
  refine ⟨?_, ?_, ?_, ?_, ?_⟩
  · rw [hh, hs, hw]
    decide
  · rw [hs]
    exact BitVec.zero_and
  · rw [hh]
    exact BitVec.zero_and
  · rw [hs]
    exact BitVec.zero_and
  · rw [hw]
    exact BitVec.zero_and

/-- Whatever is asked for, the wars of the past stay, and there is none with one's own team. -/
theorem Masked.declare {p : Player} (h : Masked p) {mask hostile : Word}
    (hm : hostile = mask &&& allTeam &&& ~~~p.team ||| p.swar) :
    Masked { p with hostile := hostile, war := p.swar ||| hostile } := by
  subst hm
  refine .of_bits (BitVec.or_comm _ _) (fun k hk => ?_) fun k hk => ?_
  · dsimp only at hk ⊢
    rw [BitVec.getLsbD_or, hk, Bool.or_true]
  · dsimp only at hk ⊢
    have hk32 : k < 32 := BitVec.lt_of_getLsbD hk
    rw [BitVec.getLsbD_or, BitVec.getLsbD_and, BitVec.getLsbD_not, Bool.or_eq_true] at hk
    rcases hk with hk | hk
    · simpa [hk32] using (Bool.and_eq_true_iff.1 hk).2
    · exact h.disjoint k (h.sub k hk)

theorem peace_bayRelease (s : Server) (i : Slot) : Peace s { s with mem := Dock.bayRelease s.mem i } := by
  unfold Dock.bayRelease
  extract_lets p
  split
  · have hbay : Peace s (s.modifyPlayer p.dockWith fun b => Dock.setBay b p.dockBay none) :=
      .modifyPlayer s p.dockWith (fun _ => rfl) fun _ => id
    exact hbay.trans (.modifyPlayer _ i (fun _ => rfl) fun _ => id)
  · exact .refl s

theorem peace_releaseHostile (mask : Word) (me : Slot) (s : Server) (i : Fin numBays) :
    Peace s (releaseHostile mask me s i) := by
  unfold releaseHostile
  split
  · exact .refl s
  split
  · exact peace_bayRelease s _
  · exact .refl s

/-- The requests of a client keep the masks in order. -/
theorem keeps_declareWar (j : Slot) (s : Server) (i : Slot) (mask : Word) (refitdelay : Bool) :
    Keeps j s (declareWar s i mask refitdelay) := by
  unfold declareWar
  extract_lets p mask s₁ s₂ s₃
  split
  · rename_i hp
    have hnobody : (s.player i).team = nobody := by
      rw [Bool.and_eq_true, beq_iff_eq] at hp
      exact hp.2
    exact keeps_modifyPlayer s i j id rfl (fun _ _ => masked_nobody rfl rfl rfl) fun h => absurd hnobody h
  split
  · exact .refl j s
  have h₁ : Peace s s₁ := by
    show Peace s (if _ then _ else s)
    split
    · exact peace_bayRelease s i
    · exact .refl s
  have h₂ : Peace s₁ s₂ := by
    show Peace s₁ (if _ then (List.finRange numBays).foldl (releaseHostile mask i) s₁ else s₁)
    split
    · exact .foldl (peace_releaseHostile mask i) _ s₁
    · exact .refl s₁
  have h₃ : Peace s₂ s₃ := by
    show Peace s₂ (if _ then _ else s₂)
    split
    · have hflag : Peace s₂ (s₂.modifyPlayer i fun p => p.setFlags pfWar) :=
        .modifyPlayer s₂ i (fun _ => rfl) fun _ => id
      have hwarn (s : Server) (text : String) : Peace s (s.warn i text) := .of_mem rfl rfl
      exact hflag.trans (hwarn _ _)
    · exact .refl s₂
  have h := (h₁.trans h₂).trans h₃
  have hswar : p.swar = (s₃.player i).swar := (congrArg (·.2.1) (h.masks i)).symm
  have hteam : p.team = (s₃.player i).team := (congrArg (·.2.2.2) (h.masks i)).symm
  refine (h.keeps j).trans (keeps_modifyPlayer s₃ i j id rfl (fun _ hm => ?_) fun _ => BitVec.and_not_self _)
  exact hm.declare (by rw [← hswar, ← hteam])

/-- Without a ship in a bay, the request comes to what `enter` makes of it. -/
theorem player_declareWar (s : Server) (i : Slot) (mask : Word) (hd : (s.player i).flags.has pfDock = false)
    (hb : ∀ k, (s.player i).bays k = none) : (declareWar s i mask false).player i = (s.player i).declareWar mask := by
  have hbays (mask : Word) : ∀ ks : List (Fin numBays), ks.foldl (releaseHostile mask i) s = s := by
    intro ks
    induction ks with
    | nil => rfl
    | cons k ks ih =>
      rw [List.foldl_cons, show releaseHostile mask i s k = s by unfold releaseHostile; rw [hb]]
      exact ih
  unfold declareWar Player.declareWar
  extract_lets p mask s₁ s₂ s₃
  have h₁ : s₁ = s := if_neg (by rw [hd, Bool.false_and]; decide)
  have h₂ : s₂ = s := by
    show (if _ then (List.finRange numBays).foldl (releaseHostile mask i) s₁ else s₁) = s
    rw [h₁, hbays, ite_self]
  have h₃ : s₃ = s := by
    show (if false && _ then _ else s₂) = s
    rw [Bool.false_and]
    exact h₂
  rw [h₃]
  split
  · exact player_self s i _
  split
  · rfl
  · exact player_self s i _

/-! ## Entering -/

theorem team_entry {e : Entry} (h : e.tno ≤ 5) : e.team ∈ nobody :: fourTeams := by
  obtain ⟨tno, sType, name, x, y, dir, keeppeace, godObserver, lastteam⟩ := e
  unfold Entry.team
  dsimp only at h ⊢
  split
  · exact List.mem_cons_self
  · rename_i hn
    have hfour : tno = 0 ∨ tno = 1 ∨ tno = 2 ∨ tno = 3 := by omega
    rcases hfour with rfl | rfl | rfl | rfl <;> decide

theorem masks_entry (e : Entry) (c : Setup) (m : Memory) (i : Slot) (p : Player) :
    ∃ hostile, masks (e.player c m i p) = (hostile &&& ~~~e.team, nobody, hostile &&& ~~~e.team, e.team) := by
  unfold Entry.player
  dsimp only
  by_cases ht : e.team = nobody
  · refine ⟨nobody, ?_⟩
    rw [if_pos ht, show nobody &&& ~~~e.team = nobody from BitVec.zero_and]
    rfl
  · rw [if_neg ht]
    exact ⟨_, rfl⟩

theorem masked_declareWar {p : Player} (h : Masked p) (mask : Word) : Masked (p.declareWar mask) := by
  unfold Player.declareWar
  extract_lets mask
  split
  · exact masked_nobody rfl rfl rfl
  split
  · exact h
  · exact h.declare rfl

/-- On entry there are no wars of the past. -/
theorem masked_entry (e : Entry) (c : Setup) (m : Memory) (i : Slot) (p : Player) :
    Masked (e.switch (e.player c m i p)) := by
  have hp : Masked (e.player c m i p) := by
    obtain ⟨hostile, h⟩ := masks_entry e c m i p
    unfold masks at h
    simp only [Prod.mk.injEq] at h
    obtain ⟨hh, hs, hw, ht⟩ := h
    refine .of_bits ?_ (fun k hk => ?_) fun k hk => ?_
    · rw [hw, hh, hs]
      exact BitVec.or_zero.symm
    · rw [hs] at hk
      exact absurd hk (by simp [nobody])
    · rw [hh, BitVec.getLsbD_and, BitVec.getLsbD_not, Bool.and_eq_true, Bool.and_eq_true] at hk
      rw [ht]
      simpa using hk.2.2
  unfold Entry.switch
  split
  · split
    · exact masked_declareWar hp _
    · exact hp
  · exact hp

theorem team_declareWar (p : Player) (mask : Word) : (p.declareWar mask).team = p.team := by
  unfold Player.declareWar
  extract_lets mask
  split
  · rfl
  split <;> rfl

theorem team_enter (e : Entry) (c : Setup) (m : Memory) (i : Slot) (p : Player) :
    (e.switch (e.player c m i p)).team = e.team := by
  obtain ⟨hostile, h⟩ := masks_entry e c m i p
  have ht : (e.player c m i p).team = e.team := congrArg (·.2.2.2) h
  unfold Entry.switch
  split
  · split
    · rw [team_declareWar, ht]
    · exact ht
  · exact ht

theorem peace_permitDocking (s : Server) (team : Word) : Peace s (permitDocking s team) := by
  refine ⟨fun j => ?_, fun j => ?_, fun _ => rfl, fun _ => rfl⟩
  · show masks (if _ then { s.player j with canDock := true } else s.player j) = _
    split <;> rfl
  · show (if _ then { s.player j with canDock := true } else s.player j : Player).status = .palive → _
    split <;> exact id

/-- Whoever enters does so with its masks in order, and the others keep theirs. -/
theorem enter_masks (s : Server) (i : Slot) {e : Entry} (he : e.tno ≤ 5) :
    (Lawful s → Lawful (Netrek.enter s i e)) ∧ Masked ((Netrek.enter s i e).player i) ∧
      ∀ j, j ≠ i → Keeps j s (Netrek.enter s i e) := by
  unfold Netrek.enter
  extract_lets s₁
  have h₁ : Peace s s₁ := by
    show Peace s (if _ then _ else s)
    split
    · exact peace_permitDocking s _
    · exact .refl s
  have hteam : (e.switch (e.player s₁.setup s₁.mem i (s₁.player i))).team ∈ nobody :: fourTeams := by
    rw [team_enter]
    exact team_entry he
  refine ⟨fun hl => ((h₁.keeps i).lawful hl).modifyPlayer i fun _ => hteam, ?_, fun j hj => ?_⟩
  · rw [player_self]
    exact masked_entry e _ _ _ _
  · exact (h₁.keeps j).trans (keeps_other s₁ hj fun _ _ => hteam)

/-! ## Changing teams -/

/-- The wars go on, but those with the new team. -/
theorem Masked.join {p : Player} (h : Masked p) (i : Slot) (ours theirs : Word) : Masked (p.joinTeam i ours theirs) := by
  refine .of_bits rfl (fun k hk => ?_) fun k hk => ?_
  · unfold Player.joinTeam at hk ⊢
    dsimp only at hk ⊢
    rw [BitVec.getLsbD_and, BitVec.getLsbD_or, Bool.and_eq_true, Bool.or_eq_true] at hk
    rw [BitVec.getLsbD_and, BitVec.getLsbD_or, Bool.and_eq_true, Bool.or_eq_true]
    exact ⟨hk.1.imp_left (h.sub k), hk.2⟩
  · unfold Player.joinTeam at hk ⊢
    dsimp only at hk ⊢
    have hk32 : k < 32 := BitVec.lt_of_getLsbD hk
    rw [BitVec.getLsbD_and, BitVec.getLsbD_not, Bool.and_eq_true] at hk
    simpa [hk32] using hk.2

theorem server_changeTeamQuietly (r : SlotMaint.Roster) (i : Slot) (ours theirs : Word) : ∃ s, Peace r.server s ∧
    (SlotMaint.changeTeamQuietly r i ours theirs).server = s.modifyPlayer i fun p => p.joinTeam i ours theirs := by
  rw [SlotMaint.changeTeamQuietly_eq]
  extract_lets old queue r₁
  refine ⟨r₁.server, ?_, rfl⟩
  show Peace r.server (if _ then _ else r : SlotMaint.Roster).server
  split
  · exact .modifyPlayer r.server i (fun _ => rfl) fun _ => id
  · exact .refl _

/-- Whoever changes teams keeps its masks in order, and the others keep theirs. -/
theorem changeTeam_masks (r : SlotMaint.Roster) (i : Slot) {ours : Word} (theirs : Word)
    (ho : ours ∈ nobody :: fourTeams) :
    (Lawful r.server → Lawful (SlotMaint.changeTeamQuietly r i ours theirs).server) ∧
      (Masked (r.player i) → Masked ((SlotMaint.changeTeamQuietly r i ours theirs).player i)) ∧
      ∀ j, j ≠ i → Keeps j r.server (SlotMaint.changeTeamQuietly r i ours theirs).server := by
  obtain ⟨s, hp, hs⟩ := server_changeTeamQuietly r i ours theirs
  unfold SlotMaint.Roster.player
  rw [hs]
  refine ⟨fun hl => ((hp.keeps i).lawful hl).modifyPlayer i fun _ => ho, fun hm => ?_, fun j hj => ?_⟩
  · rw [player_self]
    exact (hm.congr (hp.masks i)).join i ours theirs
  · exact (hp.keeps j).trans (keeps_other s hj fun _ _ => ho)

/-! ## Runs -/

/-- The game, with what the slots and the queues keep. -/
structure Front extends Beam.Campaign where
  desks : Slot → SlotMaint.Desk
  queues : Nat → Queue.PQueue
  deriving Inhabited

namespace Front

def roster (f : Front) : SlotMaint.Roster := ⟨f.server, f.desks, f.queues⟩

def withRoster (f : Front) (r : SlotMaint.Roster) : Front :=
  { f with server := r.server, desks := r.desks, queues := r.queues }

def player (f : Front) (i : Slot) : Player := f.server.player i

end Front

/-- What may change masks, and anything else. -/
inductive Op
  | enter (i : Slot) (e : Entry)
  | declareWar (i : Slot) (mask : Word) (refitdelay : Bool)
  | changeTeam (i : Slot) (ours theirs : Word)
  | tExplosion (k : Nat)
  | udphaser
  | plfight
  | beam
  | others (f : Front)

def step (f : Front) : Op → Front
  | .enter i e => f.withRoster (SlotMaint.enter f.roster i e)
  | .declareWar i mask refitdelay => { f with server := declareWar f.server i mask refitdelay }
  | .changeTeam i ours theirs => f.withRoster (SlotMaint.changeTeamQuietly f.roster i ours theirs)
  | .tExplosion k => { f with server := tExplosion f.server k }
  | .udphaser => { f with server := udphaser f.server }
  | .plfight => { f with server := plfight f.server }
  | .beam => { f with toCampaign := (Beam.beam f.toCampaign).1 }
  | .others f' => f'

/-- Teams are among those there are, and anything else leaves the masks of the ship alone. -/
def Allowed (me : Slot) (f : Front) : Op → Prop
  | .enter _ e => e.tno ≤ 5
  | .changeTeam _ ours _ => ours ∈ nobody :: fourTeams
  | .others f' => Lawful f'.server ∧ masks (f'.player me) = masks (f.player me)
  | _ => True

/-- The ship enters again, or changes teams. -/
def Renews (me : Slot) : Op → Prop
  | .enter i _ | .changeTeam i _ _ => i = me
  | _ => False

/-- When the daemon comes to the ship's phaser, it has not just hit a slot of a team that is hostile and one that is not. -/
structure Clean (me : Slot) (f : Front) (op : Op) : Prop where
  allowed : Allowed me f op
  aimed : op = .udphaser → ¬ Misfires (phaserTurn f.server me) me

/-- All other steps keep the wars of the past. -/
theorem keeps_step {me : Slot} {f : Front} {op : Op} (hc : Clean me f op) (hr : ¬ Renews me op) :
    Keeps me f.server (step f op).server := by
  have ha := hc.allowed
  cases op with
  | enter i e => exact (enter_masks f.server i ha).2.2 me (Ne.symm hr)
  | declareWar i mask refitdelay => exact keeps_declareWar me f.server i mask refitdelay
  | changeTeam i ours theirs => exact (changeTeam_masks f.roster i theirs ha).2.2 me (Ne.symm hr)
  | tExplosion k => exact keeps_tExplosion me f.server k
  | udphaser => exact keeps_udphaser me f.server (hc.aimed rfl)
  | plfight =>
    unfold step
    dsimp only
    exact keeps_plfight me f.server
  | beam => exact keeps_beam me f.toCampaign
  | others f' =>
    have hteam : (f'.player me).team = (f.player me).team := congrArg (·.2.2.2) ha.2
    have hswar : (f'.player me).swar = (f.player me).swar := congrArg (·.2.1) ha.2
    refine ⟨fun _ => ha.1, fun _ hm => hm.congr ha.2, hteam, fun _ => ?_⟩
    show (f.player me).swar &&& ~~~(f'.player me).swar = 0
    rw [hswar]
    exact BitVec.and_not_self _

/-- Everyone alive is of a team, and the ship's masks are in order. -/
def Ordered (me : Slot) (f : Front) : Prop := Lawful f.server ∧ Masked (f.player me)

theorem ordered_enter {me : Slot} {f : Front} {e : Entry} (hl : Lawful f.server) (he : e.tno ≤ 5) :
    Ordered me (step f (.enter me e)) := by
  obtain ⟨hlawful, hmasked, -⟩ := enter_masks f.server me he
  exact ⟨hlawful hl, hmasked⟩

/-- Every step that is clean keeps the order. -/
theorem ordered_step {me : Slot} {f : Front} {op : Op} (hc : Clean me f op) (h : Ordered me f) :
    Ordered me (step f op) := by
  obtain ⟨hl, hm⟩ := h
  by_cases hr : Renews me op
  · have ha := hc.allowed
    cases op with
    | enter i e =>
      obtain rfl : i = me := hr
      exact ordered_enter hl ha
    | changeTeam i ours theirs =>
      obtain rfl : i = me := hr
      obtain ⟨hlawful, hmasked, -⟩ := changeTeam_masks f.roster i theirs ha
      exact ⟨hlawful hl, hmasked hm⟩
    | _ => exact hr.elim
  · have hk := keeps_step hc hr
    exact ⟨hk.lawful hl, hk.masked hl hm⟩

/-- After a ship has entered, its masks are in order in every state; and while it does not enter again or
change teams, it stays at war with whom it attacked; as long as its phaser does not hit a newcomer. -/
theorem wars_of_the_past {me : Slot} {e : Entry} {f f' f'' : Front} {ops ops' : List Op} (hl : Lawful f.server)
    (he : e.tno ≤ 5) (h : Run (Clean me) step (step f (.enter me e)) ops f')
    (h' : Run (fun f op => Clean me f op ∧ ¬ Renews me op) step f' ops' f'') :
    Masked (f'.player me) ∧ Masked (f''.player me) ∧
      ((f'.player me).team ∈ fourTeams → (f'.player me).swar &&& ~~~(f''.player me).war = 0) := by
  have hf' : Ordered me f' := h.inv (fun _ _ => ordered_step) (ordered_enter hl he)
  have hf'' : Ordered me f'' := h'.inv (fun _ _ hc => ordered_step hc.1) hf'
  have hk : Keeps me f'.server f''.server :=
    h'.rel (R := fun f g => Keeps me f.server g.server) (fun f => .refl me f.server) Keeps.trans
      fun _ _ hc => keeps_step hc.1 hc.2
  refine ⟨hf'.2, hf''.2, fun ht => sub_iff.2 fun k hk' => ?_⟩
  have hteam : (f'.player me).team ≠ nobody := by
    intro hn
    rw [hn] at ht
    exact absurd ht (by decide)
  have hswar := sub_iff.1 (hk.sticky hteam) k hk'
  rw [hf''.2.war, BitVec.getLsbD_or]
  exact Bool.or_eq_true_iff.2 (.inr hswar)

/-! ## A phaser that hits -/

/-- A Romulan is in slot 1, and a phaser of the ship in slot 0 is about to hit there. -/
def phasing : Front :=
  let base : Front := default
  { base with
    server := { base.server with
      setup := { base.server.setup with shipvals := fun t => { (default : Ship) with type := t, phaserFuse := 10 } }
      mem := { base.server.mem with
        players := fun i => { base.server.mem.players i with status := .palive, team := if i = 1 then rom else nobody }
        phasers := fun i => { base.server.mem.phasers i with
          status := if i = 0 then .phhit else .phfree, target := 1, fuse := 10 } } } }

/-- A cruiser of the Federation. -/
def cruiser : Entry := ⟨0, .cruiser, "", 0, 0, 0, false, false, none⟩

theorem lawful_phasing : Lawful phasing.server := by
  refine ⟨fun j _ => ?_, fun l => List.mem_cons_self, fun l => ?_⟩
  · show (if j = 1 then rom else nobody) ∈ _
    split <;> decide
  · show nobody &&& allTeam ∈ _
    decide

/-- A ship of the Federation that hits a Romulan with its phaser, and asks for peace. -/
theorem wars_of_the_past_phaser : ∃ (f' f'' : Front) (ops ops' : List Op),
    Run (Clean 0) step (step phasing (.enter 0 cruiser)) ops f' ∧
      Run (fun f op => Clean 0 f op ∧ ¬ Renews 0 op) step f' ops' f'' ∧
      (f'.player 0).swar = rom ∧ (f''.player 0).hostile = rom ∧
      Masked (f'.player 0) ∧ Masked (f''.player 0) ∧
      ((f'.player 0).team ∈ fourTeams → (f'.player 0).swar &&& ~~~(f''.player 0).war = 0) := by
  let f' := step (step phasing (.enter 0 cruiser)) .udphaser
  let f'' := step f' (.declareWar 0 nobody false)
  have h : Run (Clean 0) step (step phasing (.enter 0 cruiser)) [.udphaser] f' :=
    .cons ⟨trivial, fun _ hm => absurd hm.beyond (by decide)⟩ (.nil _)
  have h' : Run (fun f op => Clean 0 f op ∧ ¬ Renews 0 op) step f' [.declareWar 0 nobody false] f'' :=
    .cons ⟨⟨trivial, fun hop => by cases hop⟩, id⟩ (.nil _)
  exact ⟨f', f'', _, _, h, h', by decide, by decide, wars_of_the_past lawful_phasing (by decide) h h'⟩

/-- The Romulan's slot is freed, and a newcomer takes it. -/
def newcomer (f : Front) : Front :=
  { f with server := f.server.modifyPlayer 1 fun p => { p with status := .poutfit, team := allTeam } }

/-- The ship, alive and of the Federation, is then at war with the Federation. -/
theorem war_with_oneself : ∃ f' : Front, Lawful phasing.server ∧
    Run (Allowed 0) step (step phasing (.enter 0 cruiser))
      [.others (newcomer (step phasing (.enter 0 cruiser))), .udphaser] f' ∧
      (f'.player 0).status = .palive ∧ (f'.player 0).team = fed ∧ (f'.player 0).swar.has fed = true ∧
      ¬ Masked (f'.player 0) := by
  have hl : Lawful (newcomer (step phasing (.enter 0 cruiser))).server := by
    have hentered : Lawful (step phasing (.enter 0 cruiser)).server := (ordered_enter lawful_phasing (by decide)).1
    exact hentered.modifyPlayer 1 fun hs => by cases hs
  refine ⟨step (newcomer (step phasing (.enter 0 cruiser))) .udphaser, lawful_phasing,
    .cons ⟨hl, by decide⟩ (.cons trivial (.nil _)), by decide, by decide, by decide, fun hm => ?_⟩
  exact absurd hm.own.2.1 (by decide)

end Netrek.War
