/-
A draft from its beginning: what every step keeps, and from it what holds in every run, whatever the
order of the arrivals, selections and joinings.
-/
import NetrekServer.Draft.Turns

namespace Netrek.Draft

open Netrek.Lib
open Netrek.Request

/-! ## Loops over all players -/

/-- What of the draft stays in a loop over the players. -/
structure Kept (d d' : Hall) : Prop where
  draft : d'.draft = d.draft
  log : d'.log = d.log
  arrived : d'.arrived = d.arrived
  home : d'.world.inlHomePick = d.world.inlHomePick
  away : d'.world.inlAwayPick = d.world.inlAwayPick

theorem Kept.foldl {f : Hall → Slot → Hall} (hf : ∀ d j, Kept d (f d j)) :
    ∀ (l : List Slot) (d : Hall), Kept d (l.foldl f d)
  | [], _ => ⟨rfl, rfl, rfl, rfl, rfl⟩
  | j :: l, d => by
    obtain ⟨h1, h2, h3, h4, h5⟩ := hf d j
    obtain ⟨h1', h2', h3', h4', h5'⟩ := Kept.foldl hf l (f d j)
    exact ⟨h1'.trans h1, h2'.trans h2, h3'.trans h3, h4'.trans h4, h5'.trans h5⟩

/-- A loop that changes the role of one player at a time changes the role of each. -/
theorem foldl_role {f : Hall → Slot → Hall} {g : Role → Role}
    (hf : ∀ d j i, (f d j).role i = if i = j then g (d.role j) else d.role i) (hg : ∀ r, g (g r) = g r) :
    ∀ (l : List Slot) (d : Hall) (i : Slot), (l.foldl f d).role i = if i ∈ l then g (d.role i) else d.role i
  | [], _, _ => rfl
  | j :: l, d, i => by
    show (l.foldl f (f d j)).role i = _
    rw [foldl_role hf hg l (f d j) i, hf]
    by_cases hij : i = j
    · subst hij
      rw [if_pos rfl, if_pos List.mem_cons_self, hg, ite_self]
    · rw [if_neg hij]
      simp only [List.mem_cons, hij, false_or]

/-! ## The end -/

section

variable {a b : Slot} {d d' : Hall}

/-- Everybody is sent away, or stays as it is; the captains are sent away. -/
theorem Turns.dismiss (h : Turns a b d) (state : Slot → InlDraft)
    (hr : ∀ i, d'.role i = { d.role i with state := state i })
    (hstate : ∀ i, Dismissed (state i) ∨ state i = (d.role i).state)
    (hcaptain : ∀ c o, Opposed a b c o → Dismissed (state c)) (hdraft : d'.draft ≠ .movingToPool)
    (hlog : d'.log = d.log) (hhome : d'.world.inlHomePick = d.world.inlHomePick)
    (haway : d'.world.inlAwayPick = d.world.inlAwayPick) : Turns a b d' := by
  have hr' (i : Slot) : role d'.world i = { role d.world i with state := state i } := hr i
  refine ⟨⟨⟨h.sides.two.ne, fun i => ?_, ?_, ?_⟩, ?_, ?_, fun i hia hib => ?_⟩, fun hd => absurd hd hdraft,
    fun _ => ?_, fun hd => absurd hd hdraft, fun j hj => ?_, ?_, ?_, ?_⟩
  · rw [hr']; exact h.sides.two.captains i
  · rw [hr']; exact h.sides.two.here
  · rw [hr']; exact h.sides.two.there
  · rw [hr']; exact h.sides.home
  · rw [hr']; exact h.sides.away
  · rw [hr']
    rcases hstate i with hs | hs
    · rcases hs with hs | hs | hs <;> simp [hs]
    · show state i ≠ _ ∧ state i ≠ _
      rw [hs]
      exact h.sides.others i hia hib
  · rw [hr, hr]
    exact ⟨hcaptain a b (.inl ⟨rfl, rfl⟩), hcaptain b a (.inr ⟨rfl, rfl⟩)⟩
  · rw [hlog] at hj
    refine ⟨?_, fun hd => absurd hd hdraft⟩
    rw [hr]
    rcases hstate j with hs | hs
    · rintro (hp | hp)
      · have hp : state j = .movingToPool := hp
        rcases hs with hs | hs | hs <;> rw [hs] at hp <;> cases hp
      · have hp : state j = .pooled := hp
        rcases hs with hs | hs | hs <;> rw [hs] at hp <;> cases hp
    · show ¬ InPool (state j)
      rw [hs]
      exact (h.drafted j hj).1
  · rw [hlog]; exact h.once
  · rw [hhome, hlog]; exact h.home
  · rw [haway, hlog]; exact h.away

/-- Whoever takes part is sent home. -/
def sentHome (r : Role) : Role := if r.ignored then r else { r with state := .movingToHome }

theorem doneOne_role (home : Slot → Int × Int) (d : Hall) (j i : Slot) :
    (doneOne home d j).role i = if i = j then sentHome (d.role j) else d.role i := by
  unfold doneOne sentHome
  have hign : inlDraftIgnore (d.player j) = (d.role j).ignored := rfl
  rw [hign]
  split
  · split
    · next hij => rw [hij]
    · rfl
  · refine (role_modifyPlayer_same _ j i (fun p => { p with ship := d.world.shipvals .cruiser }) fun _ => rfl).trans ?_
    exact role_state d.world j i .movingToHome

theorem doneOne_kept (home : Slot → Int × Int) (d : Hall) (j : Slot) : Kept d (doneOne home d j) := by
  unfold doneOne
  split <;> exact ⟨rfl, rfl, rfl, rfl, rfl⟩

theorem sentHome_sentHome (r : Role) : sentHome (sentHome r) = sentHome r := by
  unfold sentHome
  split <;> rfl

/-- `inl_draft_done` dismisses the captains. -/
theorem Turns.done (h : Turns a b d) (home : Slot → Int × Int) : Turns a b (inlDraftDone d home) := by
  have hloop : Turns a b ((List.finRange maxPlayer).foldl (doneOne home) { d with draft := .movingToHome }) := by
    have hr := foldl_role (doneOne_role home) sentHome_sentHome (List.finRange maxPlayer) { d with draft := .movingToHome }
    have hk := Kept.foldl (doneOne_kept home) (List.finRange maxPlayer) { d with draft := .movingToHome }
    refine h.dismiss (fun i => (sentHome (d.role i)).state) (fun i => ?_) (fun i => ?_) (fun c o hc => ?_) ?_ hk.log
      hk.home hk.away
    · rw [hr i, if_pos (List.mem_finRange i)]
      show sentHome (d.role i) = _
      unfold sentHome
      split <;> rfl
    · unfold sentHome
      split
      · exact .inr rfl
      · exact .inl (.inl rfl)
    · have hhere : (d.role c).ignored = false := (h.sides.opposed hc).here
      unfold sentHome
      rw [if_neg (by rw [hhere]; simp)]
      exact .inl rfl
    · rw [hk.draft]
      nofun
  unfold inlDraftDone
  dsimp only
  split
  · exact hloop.same (same_modifyStatus _ _)
  · exact hloop

theorem endOne_role (d : Hall) (j i : Slot) : (d.modifyPlayer j fun p => { p with inlDraft := .off }.heal).role i =
    if i = j then { d.role j with state := .off } else d.role i := role_modifyPlayer d.world j i _

/-- `inl_draft_end` clears every state. -/
theorem Turns.finish (h : Turns a b d) : Turns a b (inlDraftEnd d) := by
  have hloop : Turns a b ((List.finRange maxPlayer).foldl
      (fun d j => d.modifyPlayer j fun p => { p with inlDraft := .off }.heal) { d with draft := .off }) := by
    have hr := foldl_role (g := fun r => { r with state := .off }) endOne_role (fun _ => rfl) (List.finRange maxPlayer)
      { d with draft := .off }
    have hk := Kept.foldl (f := fun d j => d.modifyPlayer j fun p => { p with inlDraft := .off }.heal)
      (fun _ _ => ⟨rfl, rfl, rfl, rfl, rfl⟩) (List.finRange maxPlayer) { d with draft := .off }
    refine h.dismiss (fun _ => .off) (fun i => ?_) (fun _ => .inl (.inr (.inr rfl))) (fun _ _ _ => .inr (.inr rfl)) ?_
      hk.log hk.home hk.away
    · rw [hr i, if_pos (List.mem_finRange i)]
      rfl
    · rw [hk.draft]
      nofun
  exact (hloop.same (same_announce _ _ _)).same
    (same_modifyStatus _ fun s => { s with gameup := s.gameup &&& ~~~guInlDrafting })

/-- One update of the daemon. -/
theorem Turns.update (h : Turns a b d) (home : Slot → Int × Int) : Turns a b (inlDraftUpdate d home) := by
  have hloop := Turns.updateAll (List.finRange maxPlayer) h
  unfold inlDraftUpdate
  dsimp only
  split
  · split
    · exact hloop.done home
    · exact hloop
  · split
    · exact hloop.finish
    · exact hloop
  · exact hloop

/-! ## The beginning -/

/-- Flags that the draft does not look at. -/
theorem roleOf_clearFlags (p : Player) {w : Word} (hr : ~~~w &&& pfRobot = pfRobot) (ho : ~~~w &&& pfObserv = pfObserv) :
    roleOf (p.clearFlags w) = roleOf p := by
  unfold roleOf inlDraftIgnore Player.clearFlags
  simp only [Word.has_andNot hr, Word.has_andNot ho]

theorem roleOf_setFlags (p : Player) {w : Word} (hr : w &&& pfRobot = 0) (ho : w &&& pfObserv = 0) :
    roleOf (p.setFlags w) = roleOf p := by
  unfold roleOf inlDraftIgnore Player.setFlags
  simp only [Word.has_or hr, Word.has_or ho]

theorem role_bayRelease (w : World) (j i : Slot) : role { w with mem := Dock.bayRelease w.mem j } i = role w i := by
  unfold Dock.bayRelease
  dsimp only
  split
  · refine (role_modifyPlayer_same (w.modifyPlayer (w.mem.players j).dockWith fun b =>
      Dock.setBay b (w.mem.players j).dockBay none) j i (fun p => p.clearFlags pfDock) fun p => ?_).trans ?_
    · exact roleOf_clearFlags p (by decide) (by decide)
    · exact role_modifyPlayer_same w _ i (fun b => Dock.setBay b (w.mem.players j).dockBay none) fun _ => rfl
  · rfl

/-- Whoever takes part is on the way to the pool, and on no team unless it is a captain. -/
def gathered (r : Role) : Role :=
  if r.ignored then r else { r with state := .movingToPool, team := if r.captain then r.team else nobody }

theorem gathered_gathered (r : Role) : gathered (gathered r) = gathered r := by
  unfold gathered
  cases hi : r.ignored with
  | true => simp [hi]
  | false => cases r.captain <;> simp

/-- A player as the draft begins: out of its bay, with nothing under way. -/
def halt (d : Hall) (j : Slot) : Hall :=
  let d := { d with world := { d.world with mem := Dock.bayRelease d.world.mem j } }
  highlightOff (d.modifyPlayer j fun p =>
    (p.clearFlags (pfRepair ||| pfBomb ||| pfOrbit ||| pfBeamUp ||| pfBeamDown ||| pfCloak)).setFlags pfSeen) j

theorem beginOne_eq (d : Hall) (j : Slot) :
    beginOne d j = if inlDraftIgnore (d.player j) then d else place (assignToPool (halt d j) j) j := rfl

theorem same_halt (d : Hall) (j : Slot) : Same d (halt d j) := by
  let d1 : Hall := { d with world := { d.world with mem := Dock.bayRelease d.world.mem j } }
  have h1 : Same d d1 := ⟨role_bayRelease d.world j, rfl, rfl, rfl, rfl, rfl⟩
  have h2 := same_modifyPlayer d1 j (fun p =>
    (p.clearFlags (pfRepair ||| pfBomb ||| pfOrbit ||| pfBeamUp ||| pfBeamDown ||| pfCloak)).setFlags pfSeen) fun p => by
      rw [roleOf_setFlags _ (by decide) (by decide), roleOf_clearFlags _ (by decide) (by decide)]
  exact (h1.trans h2).trans (same_modifyPlayer _ j (fun p => { p with ship := d.world.shipvals .cruiser }) fun _ => rfl)

theorem beginOne_role (d : Hall) (j i : Slot) :
    (beginOne d j).role i = if i = j then gathered (d.role j) else d.role i := by
  rw [beginOne_eq]
  unfold gathered
  have hign : inlDraftIgnore (d.player j) = (d.role j).ignored := rfl
  rw [hign]
  split
  · split
    · next hij => rw [hij]
    · rfl
  · rw [(same_place _ j).role, assignToPool_role, (same_halt d j).role, (same_halt d j).role]

theorem beginOne_kept (d : Hall) (j : Slot) : Kept d (beginOne d j) := by
  rw [beginOne_eq]
  split
  · exact ⟨rfl, rfl, rfl, rfl, rfl⟩
  · obtain ⟨-, h1, h2, h3, h4, h5⟩ := same_halt d j
    obtain ⟨-, k1, k2, -, k4, k5, -⟩ := assignToPool_beside (halt d j) j
    obtain ⟨-, l1, l2, l3, l4, l5⟩ := same_place (assignToPool (halt d j) j) j
    have k3 : (assignToPool (halt d j) j).arrived = (halt d j).arrived := by
      unfold assignToPool
      split <;> rfl
    exact ⟨l1.trans (k1.trans h1), l2.trans (k2.trans h2), l3.trans (k3.trans h3), l4.trans (k4.trans h4),
      l5.trans (k5.trans h5)⟩

/-- The state of a draft before its players are gathered. -/
def convene (d : Hall) : Hall :=
  let d := d.modifyStatus fun s => { s with gameup := s.gameup &&& ~~~guInlDrafted }
  { d with
    draft := .movingToPool, inlPool := 0, world := { d.world with inlHomePick := 0, inlAwayPick := 0 },
    arrived := fun _ => false, log := [] }

theorem inlDraftBegin_eq (d : Hall) :
    inlDraftBegin d =
      (((List.finRange maxPlayer).foldl beginOne (convene d)).modifyStatus fun s =>
        { s with gameup := s.gameup ||| guInlDrafting }).announce
        "The captains have agreed to hold a draft." "The captains have agreed to hold a draft." := rfl

/-- A draft begins with both captains on the way and nobody picked. -/
theorem Turns.begin (h : Sides d.world a b) : Turns a b (inlDraftBegin d) := by
  rw [inlDraftBegin_eq]
  have hr := foldl_role beginOne_role gathered_gathered (List.finRange maxPlayer) (convene d)
  have hk := Kept.foldl beginOne_kept (List.finRange maxPlayer) (convene d)
  generalize (List.finRange maxPlayer).foldl beginOne (convene d) = d1 at hr hk
  have hrole (i : Slot) : role d1.world i = gathered (role d.world i) := by
    have hi := hr i
    rw [if_pos (List.mem_finRange i)] at hi
    exact hi
  have hcaptain {c o : Slot} (hc : Opposed a b c o) : role d1.world c = { role d.world c with state := .movingToPool } := by
    have htwo := h.opposed hc
    rw [hrole]
    unfold gathered
    rw [if_neg (by rw [htwo.here]; simp), if_pos ((htwo.captains c).2 (.inl rfl))]
  have ha : role d1.world a = _ := hcaptain (.inl ⟨rfl, rfl⟩)
  have hb : role d1.world b = _ := hcaptain (.inr ⟨rfl, rfl⟩)
  have h1 : Turns a b d1 := by
    refine ⟨⟨⟨h.two.ne, fun i => ?_, ?_, ?_⟩, ?_, ?_, fun i hia hib => ?_⟩, fun _ => ?_, fun hd => ?_, fun _ c o _ harr => ?_,
      fun j hj => ?_, ?_, ?_, ?_⟩
    · rw [hrole]
      refine Iff.trans ?_ (h.two.captains i)
      unfold gathered
      split <;> rfl
    · rw [ha]; exact h.two.here
    · rw [hb]; exact h.two.there
    · rw [ha]; exact h.home
    · rw [hb]; exact h.away
    · rw [hrole]
      unfold gathered
      split
      · exact h.others i hia hib
      · exact ⟨nofun, nofun⟩
    · refine .inl ⟨?_, ?_⟩
      · exact congrArg Role.state ha
      · exact congrArg Role.state hb
    · exact absurd hk.draft hd
    · rw [hk.arrived] at harr
      cases harr
    · rw [hk.log] at hj
      cases hj
    · rw [hk.log]
      intro l₁ l₂ j team pick heq
      cases l₁ <;> cases heq
    · rw [hk.home, hk.log]
      exact ⟨0, rfl, rfl⟩
    · rw [hk.away, hk.log]
      exact ⟨0, rfl, rfl⟩
  exact (h1.same (same_modifyStatus d1 fun s => { s with gameup := s.gameup ||| guInlDrafting })).same
    (same_announce _ _ _)

/-! ## Entering -/

theorem Turns.noteEntered (h : Turns a b d) (j : Slot) : Turns a b { d with log := .entered j :: d.log } := by
  refine ⟨h.sides, h.lasting, h.ended, h.arrived, fun i hi => ?_, h.once.entered, h.home, h.away⟩
  have hi : (j != i && isDrafted d.log i) = true := hi
  exact h.drafted i (Bool.and_eq_true _ _ ▸ hi).2

theorem declareWar_role (p : Player) (mask : Word) : roleOf (p.declareWar mask) = roleOf p := by
  unfold Player.declareWar
  split
  · rfl
  · dsimp only
    split <;> rfl

theorem switch_role (e : Entry) (p : Player) : roleOf (e.switch p) = roleOf p := by
  unfold Entry.switch
  split
  · split
    · exact declareWar_role _ _
    · rfl
  · rfl

/-- What a player is when it has entered: in no draft. -/
theorem entry_role (e : Entry) (c : Setup) (m : Memory) (j : Slot) (p : Player) :
    (roleOf (e.player c m j p)).state = .off ∧ (roleOf (e.player c m j p)).captain = p.inlCaptain := by
  unfold Entry.player
  dsimp only
  split <;> exact ⟨rfl, rfl⟩

theorem enterMemory_eq (c : Setup) (m : Memory) (j : Slot) (e : Entry) :
    ∃ m' : Memory, (∀ i, roleOf (m'.players i) = roleOf (m.players i)) ∧
      enterMemory c m j e = m'.modifyPlayer j fun p => e.switch (e.player c m' j p) := by
  unfold enterMemory enter
  dsimp only
  split
  · refine ⟨_, fun i => ?_, rfl⟩
    unfold permitDocking
    dsimp only
    split <;> rfl
  · exact ⟨m, fun _ => rfl, rfl⟩

/-- Whoever enters the game is in no draft; the others are where they were. -/
theorem enter_role (d : Hall) (j : Slot) (e : Entry) :
    (∀ i, i ≠ j → (step d (.enter j e)).role i = d.role i) ∧ ((step d (.enter j e)).role j).state = .off ∧
      ((step d (.enter j e)).role j).captain = (d.role j).captain := by
  obtain ⟨m', hm, heq⟩ := enterMemory_eq d.setup d.world.mem j e
  have hr (i : Slot) : (step d (.enter j e)).role i =
      if i = j then roleOf (e.switch (e.player d.setup m' j (m'.players j))) else d.role i := by
    show roleOf ((enterMemory d.setup d.world.mem j e).players i) = _
    rw [heq]
    unfold Memory.modifyPlayer
    dsimp only
    by_cases hi : i = j
    · subst hi
      rw [Function.update_self, if_pos rfl]
    · rw [Function.update_of_ne hi, if_neg hi]
      exact hm i
  obtain ⟨hoff, hcap⟩ := entry_role e d.setup m' j (m'.players j)
  refine ⟨fun i hi => ?_, ?_⟩
  · rw [hr, if_neg hi]
  · rw [hr, if_pos rfl, switch_role]
    exact ⟨hoff, hcap.trans (congrArg Role.captain (hm j))⟩

/-- Whoever enters the game may be drafted again. -/
theorem Turns.enter (h : Turns a b d) (j : Slot) (e : Entry) (hj : (d.player j).inlCaptain = false) :
    Turns a b (step d (.enter j e)) := by
  obtain ⟨hother, hoff, hcap⟩ := enter_role d j e
  refine (h.noteEntered j).plain hj ⟨hother, rfl, rfl, fun _ _ => rfl, rfl, rfl, hcap⟩ ?_ fun hd => ?_
  · rw [hoff]
    exact ⟨nofun, nofun⟩
  · simp [isDrafted] at hd

/-! ## Selections -/

/-- The turn passes from one captain to the other. -/
theorem Turns.pass (h : Turns a b d) {c o : Slot} (hc : Opposed a b c o) (hup : (d.role c).state = .captainUp)
    (hr : ∀ i, d'.role i = if i = c then { d.role c with state := .captainDown }
      else if i = o then { d.role o with state := .captainUp } else d.role i)
    (hdraft : d'.draft = d.draft) (hlog : d'.log = d.log)
    (hhome : d'.world.inlHomePick = d.world.inlHomePick) (haway : d'.world.inlAwayPick = d.world.inlAwayPick) :
    Turns a b d' := by
  have hne : o ≠ c := (h.sides.opposed hc).ne.symm
  -- a captain is up, so the draft has not been dismissed
  have hlasting : d.draft = .movingToPool := by
    by_contra hd
    have := h.dismissed hc hd
    unfold Dismissed at this
    rw [hup] at this
    simp at this
  have hdown : (d'.role c).state = .captainDown := by rw [hr, if_pos rfl]
  have hthen : (d'.role o).state = .captainUp := by rw [hr, if_neg hne, if_pos rfl]
  -- the pass touches the two states and nothing else
  have hkeep (i : Slot) : ∃ s, role d'.world i = { role d.world i with state := s } := by
    show ∃ s, d'.role i = { d.role i with state := s }
    rw [hr]
    split
    · next hi => exact ⟨_, by rw [hi]⟩
    · split
      · next hi => exact ⟨_, by rw [hi]⟩
      · exact ⟨(d.role i).state, rfl⟩
  have hteam (i : Slot) : (role d'.world i).team = (role d.world i).team := by
    obtain ⟨s, hs⟩ := hkeep i
    rw [hs]
  have hignored (i : Slot) : (role d'.world i).ignored = (role d.world i).ignored := by
    obtain ⟨s, hs⟩ := hkeep i
    rw [hs]
  refine ⟨⟨⟨h.sides.two.ne, fun i => ?_, ?_, ?_⟩, ?_, ?_, fun i hia hib => ?_⟩, fun _ => ?_, fun hd => ?_,
    fun _ x y hx _ => ?_, fun j hj => ?_, ?_, ?_, ?_⟩
  · obtain ⟨s, hs⟩ := hkeep i
    rw [hs]
    exact h.sides.two.captains i
  · exact (hignored a).trans h.sides.two.here
  · exact (hignored b).trans h.sides.two.there
  · exact (hteam a).trans h.sides.home
  · exact (hteam b).trans h.sides.away
  -- a player who is neither captain keeps the state
  · have hic : i ≠ c ∧ i ≠ o := by
      rcases hc with ⟨rfl, rfl⟩ | ⟨rfl, rfl⟩
      · exact ⟨hia, hib⟩
      · exact ⟨hib, hia⟩
    show (d'.role i).state ≠ _ ∧ (d'.role i).state ≠ _
    rw [hr, if_neg hic.1, if_neg hic.2]
    exact h.sides.others i hia hib
  -- exactly one of the two is up again
  · rcases hc with ⟨rfl, rfl⟩ | ⟨rfl, rfl⟩
    · exact .inr (.inr ⟨hthen, .inr hdown⟩)
    · exact .inr (.inl ⟨hthen, .inr hdown⟩)
  · exact absurd (hdraft.trans hlasting) hd
  · rcases hc.either hx with rfl | rfl
    · rw [hdown]; nofun
    · rw [hthen]; nofun
  · rw [hdraft]
    rw [hlog] at hj
    -- the drafted are neither captain: a captain is not in the pool
    by_cases hjc : j = c
    · subst hjc
      rw [hdown]
      refine ⟨?_, nofun⟩
      rintro (hp | hp) <;> cases hp
    by_cases hjo : j = o
    · subst hjo
      rw [hthen]
      refine ⟨?_, nofun⟩
      rintro (hp | hp) <;> cases hp
    rw [hr, if_neg hjc, if_neg hjo]
    exact h.drafted j hj
  · rw [hlog]; exact h.once
  · rw [hhome, hlog]; exact h.home
  · rw [haway, hlog]; exact h.away

/-- A pick is numbered and put on record. -/
def record (d : Hall) (n : Slot) (team : Word) : Hall :=
  let home := d.world.inlHomePick
  let away := d.world.inlAwayPick
  { d with
    log := .drafted n team (if team = fed then home else away) :: d.log
    world := { d.world with
      inlHomePick := if team = fed then home + 1 else home
      inlAwayPick := if team = fed then away else away + 1 } }

/-- A player who has not been drafted is recorded for one of the two teams. -/
theorem Turns.record (h : Turns a b d) {n : Slot} {team : Word} (hteam : team = fed ∨ team = rom)
    (hn : isDrafted d.log n = false)
    (hst : ¬ InPool (d.role n).state ∧ (d.draft = .movingToPool → (d.role n).state ≠ .off)) :
    Turns a b (record d n team) := by
  obtain ⟨x, hx, hnx⟩ := h.home
  obtain ⟨y, hy, hny⟩ := h.away
  refine ⟨h.sides.congr fun _ => rfl, h.lasting, h.ended, h.arrived, fun i hi => ?_, h.once.drafted hn, ?_, ?_⟩
  · by_cases hin : i = n
    · subst hin
      exact hst
    · refine h.drafted i ?_
      have hi : (n == i || isDrafted d.log i) = true := hi
      simpa [Ne.symm hin] using hi
  all_goals
    unfold Draft.record
    rcases hteam with rfl | rfl
  · refine ⟨x + 1, ?_, ?_⟩
    · simp [hx]
    · simp [numbers, hnx, hx, countdown_succ]
  · refine ⟨x, ?_, ?_⟩
    · simp [hx, show rom ≠ fed by decide]
    · simp [numbers, hnx, show rom ≠ fed by decide]
  · refine ⟨y, ?_, ?_⟩
    · simp [hy]
    · simp [numbers, hny, show fed ≠ rom by decide]
  · refine ⟨y + 1, ?_, ?_⟩
    · simp [hy, show rom ≠ fed by decide]
    · simp [numbers, hny, hy, countdown_succ, show rom ≠ fed by decide]

/-- The player who is picked goes to the team of the captain, who passes the turn. -/
theorem Turns.picked (h : Turns a b d) {w : World} {c o n : Slot} (hc : Opposed a b c o)
    (hup : (d.role c).state = .captainUp) (hpool : InPool (d.role n).state) (hplain : (d.role n).captain = false)
    (hr : ∀ i, role w i = if i = n then { d.role n with state := .movingToPick, team := (d.role c).team }
      else if i = c then { d.role c with state := .captainDown }
      else if i = o then { d.role o with state := .captainUp } else d.role i)
    (hnumber : (w.mem.players n).inlPick = if (d.role c).team = fed then d.world.inlHomePick else d.world.inlAwayPick)
    (hhome : w.inlHomePick = if (d.role c).team = fed then d.world.inlHomePick + 1 else d.world.inlHomePick)
    (haway : w.inlAwayPick = if (d.role c).team = fed then d.world.inlAwayPick else d.world.inlAwayPick + 1) :
    Turns a b (noteSelection (d.player n) n { d with world := w }) := by
  have hnever : isDrafted d.log n = false := by
    by_contra hn
    rw [Bool.not_eq_false] at hn
    exact (h.drafted n hn).1 hpool
  have htwo := h.sides.opposed hc
  have hcn : c ≠ n := by
    rintro rfl
    rw [show (d.role c).captain = true from (htwo.captains c).2 (.inl rfl)] at hplain
    cases hplain
  have hon : o ≠ n := by
    rintro rfl
    rw [show (d.role o).captain = true from (htwo.captains o).2 (.inr rfl)] at hplain
    cases hplain
  -- the player moves, then the pick is put on record, and then the turn passes
  let d1 := d.modifyPlayer n fun p => { p with inlDraft := .movingToPick, team := (d.role c).team }
  have hr1 (i : Slot) : d1.role i =
      if i = n then { d.role n with state := .movingToPick, team := (d.role c).team } else d.role i :=
    role_modifyPlayer d.world n i _
  have h1 : Turns a b d1 := by
    refine h.plain hplain ⟨fun i hi => by rw [hr1, if_neg hi], rfl, rfl, fun _ _ => rfl, rfl, rfl, ?_⟩ ?_ fun hd => ?_
    · rw [hr1, if_pos rfl]
    · rw [hr1, if_pos rfl]
      exact ⟨nofun, nofun⟩
    · rw [hnever] at hd
      cases hd
  have h2 : Turns a b (Draft.record d1 n (d.role c).team) := by
    refine h1.record (h.sides.team hc) hnever ⟨?_, fun _ => ?_⟩
    · rw [hr1, if_pos rfl]
      rintro (hp | hp) <;> cases hp
    · rw [hr1, if_pos rfl]
      nofun
  have hr2 (i : Slot) : (Draft.record d1 n (d.role c).team).role i = d1.role i := rfl
  have hrole (i : Slot) : role w i = if i = c then { d1.role c with state := .captainDown }
      else if i = o then { d1.role o with state := .captainUp } else d1.role i := by
    rw [hr, hr1, hr1, hr1, if_neg hcn, if_neg hon]
    by_cases hin : i = n
    · subst hin
      rw [if_pos rfl, if_neg hcn.symm, if_neg hon.symm, if_pos rfl]
    · rw [if_neg hin, if_neg hin]
  have hn := hr n
  rw [if_pos rfl] at hn
  have hmoved : (w.mem.players n).inlDraft = .movingToPick := congrArg Role.state hn
  have hteam : (w.mem.players n).team = (d.role c).team := congrArg Role.team hn
  have hbefore : (d.player n).inlDraft ≠ .movingToPick := by
    have hp : InPool (d.player n).inlDraft := hpool
    rcases hp with hp | hp <;> rw [hp] <;> nofun
  let pick : Int := if (d.role c).team = fed then d.world.inlHomePick else d.world.inlAwayPick
  have hlog : noteSelection (d.player n) n { d with world := w } =
      { d with world := w, log := .drafted n (d.role c).team pick :: d.log } := by
    have hpick : (w.mem.players n).inlPick = pick := hnumber
    unfold noteSelection
    rw [if_pos ⟨hbefore, hmoved⟩, ← hteam, ← hpick]
    rfl
  rw [hlog]
  refine h2.pass hc ?_ hrole rfl rfl hhome haway
  rw [hr2, hr1, if_neg hcn]
  exact hup

/-- A selection of anybody keeps the turns. -/
theorem Turns.select (h : Turns a b d) (proc : Proc) (n : Slot) : Turns a b (Draft.select d proc n) := by
  have quiet (w : World) (hn : (role w n).state = .movingToPick → (d.role n).state = .movingToPick)
      (hw : Turns a b { d with world := w }) : Turns a b (noteSelection (d.player n) n { d with world := w }) := by
    unfold noteSelection
    rw [if_neg]
    · exact hw
    · rintro ⟨hb, ha⟩
      exact hb (hn ha)
  unfold Draft.select
  cases hw : inlDraftSelect { d.world with proc := proc } n.val with
  | error _ => exact h
  | ok w =>
    dsimp only
    have hsides : Sides { d.world with proc := proc } a b := h.sides.congr fun _ => rfl
    have hs := select_spec hsides n hw
    rcases hs with ⟨hr, hhome, haway⟩ | ⟨c, o, hc, hup, hr, hhome, haway⟩ |
      ⟨c, o, hc, hup, -, hpool, hplain, hr, hnumber, hhome, haway⟩ | ⟨state, hb, ha, hr, hhome, haway⟩
    · refine quiet w (fun hn => ?_) (h.same ⟨hr, rfl, rfl, rfl, hhome, haway⟩)
      rw [hr] at hn
      exact hn
    · refine quiet w (fun hn => ?_) (h.pass hc hup hr rfl rfl hhome haway)
      rw [hr] at hn
      split at hn
      · cases hn
      · split at hn
        · cases hn
        · exact hn
    · exact h.picked hc hup hpool hplain hr hnumber hhome haway
    · have hstate : (role w n).state = state := by rw [hr, if_pos rfl]
      refine quiet w (fun hn => ?_) ?_
      · rw [hstate] at hn
        rcases ha with rfl | rfl <;> cases hn
      · have hplain : (d.role n).captain = false := by
          refine h.plain_of_state (.inr ?_)
          exact hb
        refine h.plain hplain (beside_state hr rfl rfl (fun _ _ => rfl) hhome haway) ?_ fun _ => ?_
        · rw [show (({ d with world := w } : Hall).role n).state = state from hstate]
          rcases ha with rfl | rfl <;> exact ⟨nofun, nofun⟩
        · rw [show (({ d with world := w } : Hall).role n).state = state from hstate]
          refine ⟨?_, fun _ => ?_⟩
          · rintro (hp | hp) <;> rcases ha with rfl | rfl <;> cases hp
          · rcases ha with rfl | rfl <;> nofun

/-! ## Steps -/

/-- The rest of the game leaves the draft to itself, and the captains where they are. -/
def Plays (d : Hall) (m : Memory) : Prop :=
  ∀ i, (m.players i).inlDraft = (d.player i).inlDraft ∧ (m.players i).inlCaptain = (d.player i).inlCaptain ∧
    ((d.player i).inlCaptain = true →
      (m.players i).team = (d.player i).team ∧ inlDraftIgnore (m.players i) = inlDraftIgnore (d.player i))

/-- The captains stay in the game. -/
def Lawful (d : Hall) : Step → Prop
  | .update _ => True
  | .select _ _ => True
  | .enter j _ => (d.player j).inlCaptain = false
  | .play m _ => Plays d m

/-- What happens in the game meanwhile leaves the turns. -/
theorem Turns.play (h : Turns a b d) {m : Memory} (queues : Nat → Queue.PQueue) (hm : Plays d m) :
    Turns a b (step d (.play m queues)) := by
  have hstate (i : Slot) : (roleOf (m.players i)).state = (d.role i).state := (hm i).1
  have hcaptain (i : Slot) : (roleOf (m.players i)).captain = (d.role i).captain := (hm i).2.1
  have hsame {c o : Slot} (hc : Opposed a b c o) : roleOf (m.players c) = d.role c := by
    have hcap : (d.player c).inlCaptain = true := ((h.sides.opposed hc).captains c).2 (.inl rfl)
    obtain ⟨h1, h2, h3⟩ := hm c
    obtain ⟨h4, h5⟩ := h3 hcap
    show (⟨_, _, _, _⟩ : Role) = ⟨_, _, _, _⟩
    rw [h1, h2, h4, h5]
    rfl
  have ha := hsame (.inl ⟨rfl, rfl⟩)
  have hb := hsame (.inr ⟨rfl, rfl⟩)
  have hrole (i : Slot) : (step d (.play m queues)).role i = roleOf (m.players i) := rfl
  refine ⟨⟨⟨h.sides.two.ne, fun i => ?_, ?_, ?_⟩, ?_, ?_, fun i hia hib => ?_⟩, fun hd => ?_, fun hd => ?_,
    fun hd c o hc harr => ?_, fun j hj => ?_, h.once, h.home, h.away⟩
  · show (roleOf (m.players i)).captain = true ↔ _
    rw [hcaptain]
    exact h.sides.two.captains i
  · exact (congrArg Role.ignored ha).trans h.sides.two.here
  · exact (congrArg Role.ignored hb).trans h.sides.two.there
  · exact (congrArg Role.team ha).trans h.sides.home
  · exact (congrArg Role.team hb).trans h.sides.away
  · show (roleOf (m.players i)).state ≠ _ ∧ (roleOf (m.players i)).state ≠ _
    rw [hstate]
    exact h.sides.others i hia hib
  · rw [hrole, hrole, hstate, hstate]
    exact h.lasting hd
  · rw [hrole, hrole, hstate, hstate]
    exact h.ended hd
  · rw [hrole, hstate]
    exact h.arrived hd c o hc harr
  · rw [hrole, hstate]
    exact h.drafted j hj

/-- Every step keeps the turns. -/
theorem Turns.step (h : Turns a b d) (st : Step) (hl : Lawful d st) : Turns a b (step d st) := by
  cases st with
  | update home => exact h.update home
  | select proc n => exact h.select proc n
  | enter j e => exact h.enter j e hl
  | play m queues => exact h.play queues hl

/-! ## Who leaves the pool -/

/-- Nobody has been picked. -/
def Unpicked (d d' : Hall) : Prop := ∀ j, (d'.role j).state = .movingToPick → (d.role j).state = .movingToPick

theorem Same.unpicked (h : Same d d') : Unpicked d d' := fun j hj => by rwa [h.role] at hj

theorem Unpicked.trans {d₁ d₂ d₃ : Hall} (h : Unpicked d₁ d₂) (h' : Unpicked d₂ d₃) : Unpicked d₁ d₃ :=
  fun j hj => h j (h' j hj)

/-- One player gets another state. -/
theorem unpicked_of_role {k : Slot} {r : Role} (hr : ∀ i, d'.role i = if i = k then r else d.role i)
    (hs : r.state ≠ .movingToPick) : Unpicked d d' := by
  intro j hj
  rw [hr] at hj
  split at hj
  · exact absurd hj hs
  · exact hj

theorem unpicked_forcePool (d : Hall) (j : Slot) : Unpicked d (forcePool d j) := by
  unfold forcePool
  split
  · exact unpicked_of_role (assignToPool_role (d.announce _ _) j) nofun
  · exact (Same.refl d).unpicked

/-- An arrival picks nobody. -/
theorem unpicked_arrival (d : Hall) (j : Slot) : Unpicked d (arrival d j) := by
  have captain (d : Hall) : Unpicked d (arrivalCaptain d j) := by
    obtain ⟨s, hs, hr⟩ := arrivalCaptain_role d j
    refine unpicked_of_role hr ?_
    rcases hs with rfl | rfl <;> nofun
  have moved (arrived : Slot → Bool) (state : InlDraft) (hs : state ≠ .movingToPick) :
      Unpicked d ({ d with arrived := arrived }.modifyPlayer j fun p => { p with inlDraft := state }) :=
    unpicked_of_role (fun i => role_state d.world j i state) hs
  have stays (arrived : Slot → Bool) : Unpicked d { d with arrived := arrived } := fun _ h => h
  unfold arrival
  dsimp only
  split
  · split
    · exact (stays _).trans (captain _)
    · exact moved _ _ nofun
  · exact moved _ _ nofun
  · split
    · exact (stays _).trans (captain _)
    · exact stays _
  · split
    · exact (stays _).trans (captain _)
    · exact stays _
  · exact moved _ _ nofun
  · exact stays _

theorem unpicked_updateOne (d : Hall) (j : Slot) : Unpicked d (updateOne d j) := by
  unfold updateOne
  split
  · exact (Same.refl d).unpicked
  · refine ((unpicked_forcePool d j).trans (same_place _ j).unpicked).trans ?_
    obtain ⟨d1, h1, h2 | h2⟩ := same_approach (place (forcePool d j) j) j
    · rw [h2]
      exact h1.unpicked
    · rw [h2]
      exact h1.unpicked.trans (unpicked_arrival d1 j)

theorem unpicked_foldl {f : Hall → Slot → Hall} (hf : ∀ d j, Unpicked d (f d j)) :
    ∀ (l : List Slot) (d : Hall), Unpicked d (l.foldl f d)
  | [], _ => fun _ h => h
  | j :: l, d => (hf d j).trans (unpicked_foldl hf l (f d j))

theorem unpicked_doneOne (home : Slot → Int × Int) (d : Hall) (j : Slot) : Unpicked d (doneOne home d j) := by
  intro i hi
  rw [doneOne_role] at hi
  split at hi
  · next hij =>
    subst hij
    unfold sentHome at hi
    split at hi
    · exact hi
    · cases hi
  · exact hi

theorem unpicked_draft (d : Hall) (draft : InlDraft) : Unpicked d { d with draft := draft } := fun _ h => h

theorem unpicked_done (d : Hall) (home : Slot → Int × Int) : Unpicked d (inlDraftDone d home) := by
  have h := (unpicked_draft d .movingToHome).trans
    (unpicked_foldl (unpicked_doneOne home) (List.finRange maxPlayer) { d with draft := .movingToHome })
  unfold inlDraftDone
  dsimp only
  split
  · exact h.trans (same_modifyStatus _ _).unpicked
  · exact h

theorem unpicked_end (d : Hall) : Unpicked d (inlDraftEnd d) := by
  have hone (d : Hall) (j : Slot) : Unpicked d (d.modifyPlayer j fun p => { p with inlDraft := .off }.heal) :=
    unpicked_of_role (endOne_role d j) nofun
  have h := (unpicked_draft d .off).trans (unpicked_foldl hone (List.finRange maxPlayer) { d with draft := .off })
  exact (h.trans (same_announce _ _ _).unpicked).trans
    (same_modifyStatus _ fun s => { s with gameup := s.gameup &&& ~~~guInlDrafting }).unpicked

theorem unpicked_update (d : Hall) (home : Slot → Int × Int) : Unpicked d (inlDraftUpdate d home) := by
  have hloop := unpicked_foldl unpicked_updateOne (List.finRange maxPlayer) d
  unfold inlDraftUpdate
  dsimp only
  split
  · split
    · exact hloop.trans (unpicked_done _ home)
    · exact hloop
  · split
    · exact hloop.trans (unpicked_end _)
    · exact hloop
  · exact hloop

/-- A selection by `proc` takes the player `j` out of the pool, for the captain `c` whose turn it was. -/
structure PickedBy (a b : Slot) (d d' : Hall) (me j : Slot) : Prop where
  captain : ∃ c o, Opposed a b c o ∧ (d.player c).inlDraft = .captainUp ∧
    (me = c ∨ (d.player me).inlDraft = .pickedSelector ∧ (d.player me).team = (d.player c).team) ∧
    (d'.player j).team = (d.player c).team ∧ (d'.player c).inlDraft = .captainDown ∧
    (d'.player o).inlDraft = .captainUp

theorem noteSelection_role (before : Player) (n : Slot) (d : Hall) (i : Slot) :
    (noteSelection before n d).role i = d.role i := by
  unfold noteSelection
  split <;> rfl

/-- Nobody leaves the pool but by a selection. -/
theorem Turns.picked_by (h : Turns a b d) {st : Step} (hl : Lawful d st) {j : Slot} (hp : InPool (d.role j).state)
    (hm : ((Draft.step d st).role j).state = .movingToPick) :
    ∃ proc, st = .select proc j ∧ PickedBy a b d (Draft.step d st) proc.me j := by
  have hnot : (d.role j).state ≠ .movingToPick := by
    rcases hp with hp | hp <;> rw [hp] <;> nofun
  cases st with
  -- `inl_draft_update()` moves a player on from `PICK`, never to it
  | update home => exact absurd (unpicked_update d home j hm) hnot
  | enter k e =>
    -- a newcomer is off the draft, and the others are untouched
    obtain ⟨hother, hoff, -⟩ := enter_role d k e
    by_cases hjk : j = k
    · subst hjk
      rw [hoff] at hm
      cases hm
    · rw [hother j hjk] at hm
      exact absurd hm hnot
  | play m queues =>
    have hstate : (m.players j).inlDraft = .movingToPick := hm
    exact absurd ((hl j).1.symm.trans hstate) hnot
  | select proc n =>
    have hstep : Draft.step d (.select proc n) = Draft.select d proc n := rfl
    rw [hstep] at hm ⊢
    unfold Draft.select at hm ⊢
    cases hw : inlDraftSelect { d.world with proc := proc } n.val with
    | error _ =>
      rw [hw] at hm
      exact absurd hm hnot
    | ok w =>
      rw [hw] at hm
      dsimp only at hm ⊢
      rw [noteSelection_role] at hm
      -- what one selection can do; only the third case puts a player into `PICK`
      have hsides : Sides { d.world with proc := proc } a b := h.sides.congr fun _ => rfl
      have hs := select_spec hsides n hw
      have hm : (role w j).state = .movingToPick := hm
      have hold (i : Slot) : role { d.world with proc := proc } i = d.role i := rfl
      rcases hs with ⟨hr, -, -⟩ | ⟨c, o, hc, hup, hr, -, -⟩ | ⟨c, o, hc, hup, hme, hpool, hplain, hr, -, -, -⟩ |
        ⟨state, hb, ha, hr, -, -⟩
      · rw [hr] at hm
        exact absurd hm hnot
      -- a pass moves the captains alone
      · rw [hr] at hm
        split at hm
        · cases hm
        split at hm
        · cases hm
        · exact absurd hm hnot
      -- the pick itself: the player is `n`, and neither captain
      · have htwo := h.sides.opposed hc
        have hjn : j = n := by
          by_contra hjn
          rw [hr, if_neg hjn] at hm
          split at hm
          · cases hm
          split at hm
          · cases hm
          · exact absurd hm hnot
        subst hjn
        have hcj : c ≠ j := by
          rintro rfl
          rw [show (role { d.world with proc := proc } c).captain = true from (htwo.captains c).2 (.inl rfl)] at hplain
          cases hplain
        have hoj : o ≠ j := by
          rintro rfl
          rw [show (role { d.world with proc := proc } o).captain = true from (htwo.captains o).2 (.inr rfl)] at hplain
          cases hplain
        have hafter (i : Slot) : (noteSelection (d.player j) j { d with world := w }).role i = role w i :=
          noteSelection_role _ _ _ i
        refine ⟨proc, rfl, ⟨c, o, hc, hup, hme, ?_, ?_, ?_⟩⟩
        · have hj := hafter j
          rw [hr, if_pos rfl] at hj
          exact congrArg Role.team hj
        · have hj := hafter c
          rw [hr, if_neg hcj, if_pos rfl] at hj
          exact congrArg Role.state hj
        · have hj := hafter o
          rw [hr, if_neg hoj, if_neg htwo.ne.symm, if_pos rfl] at hj
          exact congrArg Role.state hj
      -- a delegation makes a player `PICKED` or a selector
      · rw [hr] at hm
        split at hm
        · have hm : state = .movingToPick := hm
          rcases ha with rfl | rfl <;> cases hm
        · exact absurd hm hnot

end

/-! ## Runs -/

/-- Every run of a draft keeps the turns. -/
theorem Turns.run {a b : Slot} {d₀ d : Hall} {ops : List Step} (h₀ : Sides d₀.world a b)
    (hr : Run Lawful Draft.step (inlDraftBegin d₀) ops d) : Turns a b d :=
  hr.inv (fun _ st hl h => h.step st hl) (Turns.begin h₀)

/-- Two captains that have the turn are the same. -/
theorem Turns.one_up {a b : Slot} {d : Hall} (h : Turns a b d) {i j : Slot} (hi : (d.player i).inlDraft = .captainUp)
    (hj : (d.player j).inlDraft = .captainUp) : i = j := by
  obtain ⟨o, ho⟩ := h.sides.of_state (c := i) (.inl hi)
  obtain ⟨o', ho'⟩ := h.sides.of_state (c := j) (.inl hj)
  rcases ho.either ho' with rfl | rfl
  · rfl
  -- the other one is on the way, waits, or has been dismissed
  · exfalso
    have hi : (d.role i).state = .captainUp := hi
    have hj : (d.role j).state = .captainUp := hj
    by_cases hd : d.draft = .movingToPool
    · have hf := h.fair ho hd
      unfold Fair at hf
      rw [hi, hj] at hf
      simp at hf
    · have hf := h.dismissed ho hd
      unfold Dismissed at hf
      rw [hi] at hf
      simp at hf

/-- While the draft lasts, a captain has the turn once one has arrived. -/
theorem Turns.some_up {a b : Slot} {d : Hall} (h : Turns a b d) (hd : d.draft = .movingToPool)
    (ha : d.arrived a = true) : ∃! c, (d.player c).inlDraft = .captainUp := by
  have hup : ∃ c, (d.player c).inlDraft = .captainUp := by
    have hna := h.arrived hd a b (.inl ⟨rfl, rfl⟩) ha
    rcases h.lasting hd with ⟨hs, -⟩ | ⟨hs, -⟩ | ⟨hs, -⟩
    · exact absurd hs hna
    · exact ⟨a, hs⟩
    · exact ⟨b, hs⟩
  obtain ⟨c, hc⟩ := hup
  exact ⟨c, hc, fun i hi => h.one_up hi hc⟩

/-- In every run of a draft with one captain on each side: at most one captain has the turn, and while the draft
lasts exactly one has once both have arrived; a player leaves the pool only by a selection for the captain whose
turn it is, which passes the turn; nobody is picked twice without entering the game again, and the picks of each
team are numbered 0, 1, 2, ... -/
theorem draft_turns {a b : Slot} {d₀ d : Hall} {ops : List Step} (h₀ : Sides d₀.world a b)
    (hr : Run Lawful step (inlDraftBegin d₀) ops d) :
    (∀ i j, (d.player i).inlDraft = .captainUp → (d.player j).inlDraft = .captainUp → i = j) ∧
    (d.draft = .movingToPool → d.arrived a = true → d.arrived b = true →
      ∃! c, (d.player c).inlDraft = .captainUp) ∧
    (∀ st j, Lawful d st → InPool (d.player j).inlDraft → ((step d st).player j).inlDraft = .movingToPick →
      ∃ proc, st = .select proc j ∧ PickedBy a b d (step d st) proc.me j) ∧
    OnceEach d.log ∧ (∃ n, numbers fed d.log = countdown n) ∧ ∃ n, numbers rom d.log = countdown n := by
  have h := Turns.run h₀ hr
  obtain ⟨x, -, hx⟩ := h.home
  obtain ⟨y, -, hy⟩ := h.away
  refine ⟨fun i j hi hj => h.one_up hi hj, fun hd ha _ => h.some_up hd ha, fun st j hl hp hm => ?_, h.once, ⟨x, hx⟩, ⟨y, hy⟩⟩
  exact h.picked_by hl hp hm

/-! ## A draft of two and of three -/

/-- A captain at the place of the draft. -/
def captainAt (team : Word) : Player :=
  { (default : Player) with status := .palive, team := team, inlCaptain := true, x := draftX, y := draftY }

/-- Two captains, and nobody to pick. -/
def twoCaptains : Hall :=
  let d : Hall := default
  (d.modifyPlayer 0 fun _ => captainAt fed).modifyPlayer 1 fun _ => captainAt rom

/-- Two captains, and one player to pick. -/
def onePlayer : Hall := twoCaptains.modifyPlayer 2 fun _ => { (default : Player) with status := .palive }

/-- The process of a player. -/
def served (j : Slot) : Proc :=
  let p : Proc := default
  { p with me := j }

/-- The player is picked by one captain, enters the game again, and is picked by the other. -/
def pickedTwice : List Step :=
  let arrive : Step := .update fun _ => (0, 0)
  [arrive, arrive, .select (served 0) 2, .enter 2 ⟨0, .cruiser, "", 0, 0, 0, false, false, none⟩, arrive,
    .select (served 1) 2]

theorem sides_of_captains {w : World} {a b : Slot} (hne : a ≠ b)
    (hc : ∀ i, (role w i).captain = true ↔ i = a ∨ i = b) (ha : (role w a).ignored = false)
    (hb : (role w b).ignored = false) (hhome : (role w a).team = fed) (haway : (role w b).team = rom)
    (ho : ∀ i, (role w i).state = .off) : Sides w a b :=
  ⟨⟨hne, hc, ha, hb⟩, hhome, haway, fun i _ _ => by rw [ho]; exact ⟨nofun, nofun⟩⟩

theorem sides_twoCaptains : Sides twoCaptains.world 0 1 :=
  sides_of_captains (by decide) (by decide +kernel) (by decide +kernel) (by decide +kernel) (by decide +kernel)
    (by decide +kernel) (by decide +kernel)

theorem sides_onePlayer : Sides onePlayer.world 0 1 :=
  sides_of_captains (by decide) (by decide +kernel) (by decide +kernel) (by decide +kernel) (by decide +kernel)
    (by decide +kernel) (by decide +kernel)

theorem run_pickedTwice :
    Run Lawful step (inlDraftBegin onePlayer) pickedTwice (pickedTwice.foldl step (inlDraftBegin onePlayer)) := by
  have henter : ((([Step.update fun _ => (0, 0), .update fun _ => (0, 0), .select (served 0) 2].foldl step
      (inlDraftBegin onePlayer))).player 2).inlCaptain = false := by decide +kernel
  unfold pickedTwice
  simp only [List.foldl_cons, List.foldl_nil] at henter ⊢
  generalize inlDraftBegin onePlayer = d at henter ⊢
  exact .cons trivial (.cons trivial (.cons trivial (.cons henter (.cons trivial (.cons trivial (.nil _))))))

theorem draft_turns_onePlayer : OnceEach (pickedTwice.foldl step (inlDraftBegin onePlayer)).log :=
  (draft_turns sides_onePlayer run_pickedTwice).2.2.2.1

/-- With nobody to pick, the draft is over as soon as the captains have arrived, and neither has the turn; and
a player who enters the game again is picked again. -/
theorem draft_turns_over :
    (∃ ops d, Sides twoCaptains.world 0 1 ∧ Run Lawful step (inlDraftBegin twoCaptains) ops d ∧
      d.arrived 0 = true ∧ d.arrived 1 = true ∧ ∀ c, (d.player c).inlDraft ≠ .captainUp) ∧
    ∃ ops d, Sides onePlayer.world 0 1 ∧ Run Lawful step (inlDraftBegin onePlayer) ops d ∧
      d.log = [.drafted 2 rom 0, .entered 2, .drafted 2 fed 0] := by
  constructor
  · refine ⟨[.update fun _ => (0, 0)], _, sides_twoCaptains, .cons trivial (.nil _), ?_, ?_, ?_⟩
    · decide +kernel
    · decide +kernel
    · decide +kernel
  · refine ⟨pickedTwice, _, sides_onePlayer, run_pickedTwice, ?_⟩
    decide +kernel

end Netrek.Draft
