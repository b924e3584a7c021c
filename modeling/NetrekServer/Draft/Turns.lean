/-
The turn of a draft with one captain on each side: never have both the pick, and while the draft
lasts exactly one has it once both have arrived. A player leaves the pool by a selection made for
the captain whose turn it is, which gives the turn to the other one.
-/
import NetrekServer.Draft.Selection
import NetrekServer.Lib.Run

namespace Netrek.Draft

open Netrek.Lib
open Netrek.Request

/-! ## The record -/

/-- The player has been drafted, and has not entered the game since. -/
def isDrafted : List Note → Slot → Bool
  | [], _ => false
  | .drafted i _ _ :: log, j => i == j || isDrafted log j
  | .entered i :: log, j => i != j && isDrafted log j

/-- The numbers given to the picks of a team, newest first. -/
def numbers (team : Word) : List Note → List Int
  | [] => []
  | .drafted _ t pick :: log => if t = team then pick :: numbers team log else numbers team log
  | .entered _ :: log => numbers team log

/-- The numbers below `n`, the largest first. -/
def countdown (n : Nat) : List Int := (List.range n).reverse.map Nat.cast

theorem countdown_succ (n : Nat) : countdown (n + 1) = (n : Int) :: countdown n := by
  unfold countdown
  rw [List.range_succ, List.reverse_append]
  rfl

/-- Nobody is drafted twice without entering the game in between. -/
def OnceEach (log : List Note) : Prop :=
  ∀ l₁ l₂ j team pick, log = l₁ ++ .drafted j team pick :: l₂ → isDrafted l₂ j = false

theorem OnceEach.drafted {log : List Note} {j : Slot} {team : Word} {pick : Int} (h : OnceEach log)
    (hj : isDrafted log j = false) : OnceEach (.drafted j team pick :: log) := by
  intro l₁ l₂ i t n heq
  cases l₁ with
  | nil =>
    cases heq
    exact hj
  | cons x l₁ =>
    cases heq
    exact h l₁ l₂ i t n rfl

theorem OnceEach.entered {log : List Note} {j : Slot} (h : OnceEach log) : OnceEach (.entered j :: log) := by
  intro l₁ l₂ i t n heq
  cases l₁ with
  | nil => cases heq
  | cons x l₁ =>
    cases heq
    exact h l₁ l₂ i t n rfl

/-! ## The invariant -/

/-- Both captains are on the way to the draft, or one has the turn and the other is on the way or waits. -/
def Fair (s t : InlDraft) : Prop :=
  (s = .movingToPool ∧ t = .movingToPool) ∨ (s = .captainUp ∧ (t = .movingToPool ∨ t = .captainDown)) ∨
    (t = .captainUp ∧ (s = .movingToPool ∨ s = .captainDown))

/-- The state of a captain when the draft is over. -/
def Dismissed (s : InlDraft) : Prop := s = .movingToHome ∨ s = .finished ∨ s = .off

structure Turns (a b : Slot) (d : Hall) : Prop where
  sides : Sides d.world a b
  lasting : d.draft = .movingToPool → Fair (d.role a).state (d.role b).state
  ended : d.draft ≠ .movingToPool → Dismissed (d.role a).state ∧ Dismissed (d.role b).state
  arrived : d.draft = .movingToPool → ∀ c o, Opposed a b c o → d.arrived c = true → (d.role c).state ≠ .movingToPool
  drafted : ∀ j, isDrafted d.log j = true →
    ¬ InPool (d.role j).state ∧ (d.draft = .movingToPool → (d.role j).state ≠ .off)
  once : OnceEach d.log
  home : ∃ n : Nat, d.world.inlHomePick = n ∧ numbers fed d.log = countdown n
  away : ∃ n : Nat, d.world.inlAwayPick = n ∧ numbers rom d.log = countdown n

/-! ## What leaves the roles alone -/

/-- Two states of the draft that differ in places and texts only. -/
structure Same (d d' : Hall) : Prop where
  role : ∀ i, d'.role i = d.role i
  draft : d'.draft = d.draft
  log : d'.log = d.log
  arrived : d'.arrived = d.arrived
  home : d'.world.inlHomePick = d.world.inlHomePick
  away : d'.world.inlAwayPick = d.world.inlAwayPick

theorem Same.refl (d : Hall) : Same d d := ⟨fun _ => rfl, rfl, rfl, rfl, rfl, rfl⟩

theorem Same.trans {d₁ d₂ d₃ : Hall} (h : Same d₁ d₂) (h' : Same d₂ d₃) : Same d₁ d₃ :=
  ⟨fun i => (h'.role i).trans (h.role i), h'.draft.trans h.draft, h'.log.trans h.log, h'.arrived.trans h.arrived,
    h'.home.trans h.home, h'.away.trans h.away⟩

theorem same_modifyPlayer (d : Hall) (k : Slot) (f : Player → Player) (hf : ∀ p, roleOf (f p) = roleOf p) :
    Same d (d.modifyPlayer k f) :=
  ⟨fun i => role_modifyPlayer_same d.world k i f hf, rfl, rfl, rfl, rfl, rfl⟩

theorem same_modifyStatus (d : Hall) (f : Status → Status) : Same d (d.modifyStatus f) :=
  ⟨fun _ => rfl, rfl, rfl, rfl, rfl, rfl⟩

theorem same_announce (d : Hall) (fmt text : String) : Same d (d.announce fmt text) :=
  ⟨fun _ => rfl, rfl, rfl, rfl, rfl, rfl⟩

theorem same_place (d : Hall) (j : Slot) : Same d (place d j) := by
  unfold place
  dsimp only
  split <;> exact ⟨fun _ => rfl, rfl, rfl, rfl, rfl, rfl⟩

theorem Sides.congr {w w' : World} {a b : Slot} (h : Sides w a b) (hr : ∀ i, role w' i = role w i) : Sides w' a b where
  two := by
    refine ⟨h.two.ne, fun i => ?_, ?_, ?_⟩
    · rw [hr]; exact h.two.captains i
    · rw [hr]; exact h.two.here
    · rw [hr]; exact h.two.there
  home := by rw [hr]; exact h.home
  away := by rw [hr]; exact h.away
  others i := by rw [hr]; exact h.others i

theorem Turns.same {a b : Slot} {d d' : Hall} (h : Turns a b d) (hs : Same d d') : Turns a b d' where
  sides := h.sides.congr hs.role
  lasting hd := by rw [hs.role, hs.role]; exact h.lasting (hs.draft ▸ hd)
  ended hd := by rw [hs.role, hs.role]; exact h.ended (hs.draft ▸ hd)
  arrived hd c o hc hc' := by rw [hs.role]; exact h.arrived (hs.draft ▸ hd) c o hc (hs.arrived ▸ hc')
  drafted j hj := by
    rw [hs.role, hs.draft]
    exact h.drafted j (hs.log ▸ hj)
  once := by rw [hs.log]; exact h.once
  home := by rw [hs.home, hs.log]; exact h.home
  away := by rw [hs.away, hs.log]; exact h.away

/-! ## One player -/

theorem Fair.symm {s t : InlDraft} (h : Fair s t) : Fair t s := by
  rcases h with ⟨hs, ht⟩ | h | h
  · exact .inl ⟨ht, hs⟩
  · exact .inr (.inr h)
  · exact .inr (.inl h)

section

variable {a b : Slot} {d d' : Hall}

/-- What of the draft stays when the role of one player changes. -/
structure Beside (d d' : Hall) (j : Slot) : Prop where
  role : ∀ i, i ≠ j → d'.role i = d.role i
  draft : d'.draft = d.draft
  log : d'.log = d.log
  arrived : ∀ i, i ≠ j → d'.arrived i = d.arrived i
  home : d'.world.inlHomePick = d.world.inlHomePick
  away : d'.world.inlAwayPick = d.world.inlAwayPick
  captain : (d'.role j).captain = (d.role j).captain

theorem Turns.fair (h : Turns a b d) {c o : Slot} (hc : Opposed a b c o) (hd : d.draft = .movingToPool) :
    Fair (d.role c).state (d.role o).state := by
  rcases hc with ⟨rfl, rfl⟩ | ⟨rfl, rfl⟩
  · exact h.lasting hd
  · exact (h.lasting hd).symm

theorem Turns.dismissed (h : Turns a b d) {c o : Slot} (hc : Opposed a b c o) (hd : d.draft ≠ .movingToPool) :
    Dismissed (d.role c).state := by
  rcases hc with ⟨rfl, rfl⟩ | ⟨rfl, rfl⟩
  · exact (h.ended hd).1
  · exact (h.ended hd).2

/-- A player who is no captain changes its state, but not to a captain's. -/
theorem Turns.plain (h : Turns a b d) {j : Slot} (hj : (d.role j).captain = false) (hb : Beside d d' j)
    (hst : (d'.role j).state ≠ .captainUp ∧ (d'.role j).state ≠ .captainDown)
    (hdr : isDrafted d.log j = true →
      ¬ InPool (d'.role j).state ∧ (d.draft = .movingToPool → (d'.role j).state ≠ .off)) : Turns a b d' := by
  have hne {c o : Slot} (hc : Opposed a b c o) : c ≠ j := by
    rintro rfl
    have := ((h.sides.opposed hc).captains c).2 (.inl rfl)
    rw [show (role d.world c).captain = false from hj] at this
    cases this
  have ha : a ≠ j := hne (.inl ⟨rfl, rfl⟩)
  have hbj : b ≠ j := hne (.inr ⟨rfl, rfl⟩)
  have hra := hb.role a ha
  have hrb := hb.role b hbj
  refine ⟨⟨⟨h.sides.two.ne, fun i => ?_, ?_, ?_⟩, ?_, ?_, fun i hia hib => ?_⟩, fun hd => ?_, fun hd => ?_,
    fun hd c o hc harr => ?_, fun i hi => ?_, ?_, ?_, ?_⟩
  · by_cases hi : i = j
    · subst hi
      have hcap : (role d'.world i).captain = (role d.world i).captain := hb.captain
      rw [hcap]
      exact h.sides.two.captains i
    · rw [show role d'.world i = role d.world i from hb.role i hi]
      exact h.sides.two.captains i
  · exact (congrArg Role.ignored hra).trans h.sides.two.here
  · exact (congrArg Role.ignored hrb).trans h.sides.two.there
  · exact (congrArg Role.team hra).trans h.sides.home
  · exact (congrArg Role.team hrb).trans h.sides.away
  · by_cases hi : i = j
    · subst hi
      exact hst
    · rw [show role d'.world i = role d.world i from hb.role i hi]
      exact h.sides.others i hia hib
  · rw [hra, hrb]
    exact h.lasting (hb.draft ▸ hd)
  · rw [hra, hrb]
    exact h.ended (hb.draft ▸ hd)
  · rw [hb.role c (hne hc)]
    exact h.arrived (hb.draft ▸ hd) c o hc ((hb.arrived c (hne hc)).symm.trans harr)
  · rw [hb.log] at hi
    rw [hb.draft]
    by_cases hij : i = j
    · subst hij
      exact hdr hi
    · rw [hb.role i hij]
      exact h.drafted i hi
  · rw [hb.log]; exact h.once
  · rw [hb.home, hb.log]; exact h.home
  · rw [hb.away, hb.log]; exact h.away

/-- A captain changes its state: the turn stays fair, and one that has arrived is no longer on the way. -/
theorem Turns.captain (h : Turns a b d) {c o : Slot} (hc : Opposed a b c o) (hb : Beside d d' c)
    (hteam : (d'.role c).team = (d.role c).team) (hign : (d'.role c).ignored = (d.role c).ignored)
    (hfair : d.draft = .movingToPool → Fair (d'.role c).state (d.role o).state)
    (hover : d.draft ≠ .movingToPool → Dismissed (d'.role c).state)
    (harrived : d.draft = .movingToPool → d'.arrived c = true → (d'.role c).state ≠ .movingToPool)
    (hdr : isDrafted d.log c = true →
      ¬ InPool (d'.role c).state ∧ (d.draft = .movingToPool → (d'.role c).state ≠ .off)) : Turns a b d' := by
  have hne : o ≠ c := (h.sides.opposed hc).ne.symm
  have hro := hb.role o hne
  have htwo := h.sides.opposed hc
  -- the captains are the same two slots, whichever of them has moved
  have hcaptains : ∀ i, (role d'.world i).captain = true ↔ i = a ∨ i = b := by
    intro i
    by_cases hi : i = c
    · subst hi
      have hcap : (role d'.world i).captain = (role d.world i).captain := hb.captain
      rw [hcap]
      exact h.sides.two.captains i
    · rw [show role d'.world i = role d.world i from hb.role i hi]
      exact h.sides.two.captains i
  have hother {x y : Slot} (hx : Opposed a b x y) (hxc : x ≠ c) : x = o := by
    rcases hc with ⟨rfl, rfl⟩ | ⟨rfl, rfl⟩ <;> rcases hx with ⟨rfl, rfl⟩ | ⟨rfl, rfl⟩
    · exact absurd rfl hxc
    · rfl
    · rfl
    · exact absurd rfl hxc
  have hherec : (role d'.world c).ignored = false := hign.trans htwo.here
  have hhereo : (role d'.world o).ignored = false := (congrArg Role.ignored hro).trans htwo.there
  have hteamc : (role d'.world c).team = (role d.world c).team := hteam
  have hteamo : (role d'.world o).team = (role d.world o).team := congrArg Role.team hro
  refine ⟨?_, fun hd => ?_, fun hd => ?_, fun hd x y hx harr => ?_, fun i hi => ?_, ?_, ?_, ?_⟩
  -- nobody else is given a captain's state
  · have hothers : ∀ i, i ≠ a → i ≠ b → (role d'.world i).state ≠ .captainUp ∧ (role d'.world i).state ≠ .captainDown := by
      intro i hia hib
      have hi : i ≠ c := by
        rintro rfl
        rcases hc with ⟨rfl, -⟩ | ⟨rfl, -⟩
        · exact hia rfl
        · exact hib rfl
      rw [show role d'.world i = role d.world i from hb.role i hi]
      exact h.sides.others i hia hib
    rcases hc with ⟨rfl, rfl⟩ | ⟨rfl, rfl⟩
    · exact ⟨⟨h.sides.two.ne, hcaptains, hherec, hhereo⟩, hteamc.trans h.sides.home, hteamo.trans h.sides.away, hothers⟩
    · exact ⟨⟨h.sides.two.ne, hcaptains, hhereo, hherec⟩, hteamo.trans h.sides.home, hteamc.trans h.sides.away, hothers⟩
  -- while it lasts, the new state is fair against the opponent's
  · have := hfair (hb.draft ▸ hd)
    rw [← hro] at this
    rcases hc with ⟨rfl, rfl⟩ | ⟨rfl, rfl⟩
    · exact this
    · exact this.symm
  -- after it, both are dismissed
  · have hd' : d.draft ≠ .movingToPool := hb.draft ▸ hd
    have ho : Dismissed (d'.role o).state := by
      rw [hro]
      exact h.dismissed hc.symm hd'
    rcases hc with ⟨rfl, rfl⟩ | ⟨rfl, rfl⟩
    · exact ⟨hover hd', ho⟩
    · exact ⟨ho, hover hd'⟩
  · by_cases hxc : x = c
    · subst hxc
      exact harrived (hb.draft ▸ hd) harr
    · have hxo := hother hx hxc
      rw [hb.role x hxc]
      exact h.arrived (hb.draft ▸ hd) x y hx ((hb.arrived x hxc).symm.trans harr)
  · rw [hb.log] at hi
    rw [hb.draft]
    -- a drafted player who is the captain answers for himself, any other is as he was
    by_cases hij : i = c
    · subst hij
      exact hdr hi
    · rw [hb.role i hij]
      exact h.drafted i hi
  · rw [hb.log]; exact h.once
  · rw [hb.home, hb.log]; exact h.home
  · rw [hb.away, hb.log]; exact h.away

end

/-! ## Places and arrivals -/

section

variable {a b : Slot} {d : Hall}

theorem toPool_role (d : Hall) (j i : Slot) :
    (toPool d j).role i = if i = j then { d.role j with state := .movingToPool } else d.role i :=
  role_modifyPlayer d.world j i _

theorem takePlace_role (d : Hall) (j i : Slot) :
    (takePlace d j).role i = if i = j then { d.role j with team := nobody } else d.role i :=
  role_changeTeamQuietly d.world j i nobody _

theorem assignToPool_role (d : Hall) (j i : Slot) :
    (assignToPool d j).role i = if i = j then
        { d.role j with state := .movingToPool, team := if (d.role j).captain then (d.role j).team else nobody }
      else d.role i := by
  unfold assignToPool
  split
  · next hc =>
    have hc : (d.role j).captain = true := hc
    rw [toPool_role, if_pos hc]
  · next hc =>
    have hc : ¬ (d.role j).captain = true := hc
    rw [takePlace_role, toPool_role, toPool_role, if_pos rfl, if_neg hc]
    split <;> rfl

/-- Only the player who is assigned changes his part in the draft. -/
theorem assignToPool_beside (d : Hall) (j : Slot) : Beside d (assignToPool d j) j := by
  have hrole := assignToPool_role d j
  have hplace (d : Hall) := counts_changeTeamQuietly d.world j nobody (d.player j).team
  refine ⟨fun i hi => by rw [hrole, if_neg hi], ?_, ?_, fun i _ => ?_, ?_, ?_, by rw [hrole, if_pos rfl]⟩
  all_goals
    unfold assignToPool
    split
  · rfl
  · rfl
  · rfl
  · rfl
  · rfl
  · rfl
  · rfl
  · exact (hplace (toPool d j)).1
  · rfl
  · exact (hplace (toPool d j)).2

/-- Newly arriving players are on the way to the pool. -/
theorem Turns.forcePool (h : Turns a b d) (j : Slot) : Turns a b (Draft.forcePool d j) := by
  unfold Draft.forcePool
  split
  · next hoff =>
    obtain ⟨hd, hoff⟩ := hoff
    have hoff : (d.role j).state = .off := hoff
    have hplain : (d.role j).captain = false := by
      by_contra hc
      rw [Bool.not_eq_false] at hc
      rcases (h.sides.two.captains j).1 hc with rfl | rfl
      all_goals
        have hf := h.lasting hd
        unfold Fair at hf
        rw [hoff] at hf
        simp at hf
    dsimp only
    refine Turns.plain (h.same (same_announce d _ _)) hplain (assignToPool_beside _ j) ?_ fun hdr => ?_
    · rw [assignToPool_role, if_pos rfl]
      exact ⟨nofun, nofun⟩
    · exact absurd hoff ((h.drafted j hdr).2 hd)
  · exact h

theorem captainUp_role (d : Hall) (k i : Slot) :
    (captainUp d k).role i = if i = k then { d.role k with state := .captainUp } else d.role i :=
  (role_highlightUp _ k i).trans (role_state d.world k i _)

theorem captainDown_role (d : Hall) (k i : Slot) :
    (captainDown d k).role i = if i = k then { d.role k with state := .captainDown } else d.role i :=
  (role_highlightDown _ k i).trans (role_state d.world k i _)

/-- A player's state is set, and nothing else of its role. -/
theorem beside_state {d d' : Hall} {j : Slot} {state : InlDraft}
    (hr : ∀ i, d'.role i = if i = j then { d.role j with state := state } else d.role i) (hdraft : d'.draft = d.draft)
    (hlog : d'.log = d.log) (harr : ∀ i, i ≠ j → d'.arrived i = d.arrived i)
    (hhome : d'.world.inlHomePick = d.world.inlHomePick) (haway : d'.world.inlAwayPick = d.world.inlAwayPick) :
    Beside d d' j :=
  ⟨fun i hi => by rw [hr, if_neg hi], hdraft, hlog, harr, hhome, haway, by rw [hr, if_pos rfl]⟩

/-- In a league game a captain is an admiral. -/
def promote (d : Hall) (k : Slot) : Hall :=
  if d.gameup guInRobot then d.modifyPlayer k fun p => { p with rank := rankAdmiral } else d

theorem arrivalCaptain_eq (d : Hall) (k : Slot) : Draft.arrivalCaptain d k =
    match teamToCaptain d.world (if (d.player k).team = rom then fed else rom) with
    | none => captainUp (promote d k) k
    | some other =>
      if ((promote d k).player other).inlDraft = .captainUp then captainDown (promote d k) k
      else captainUp (promote d k) k := rfl

theorem same_promote (d : Hall) (k : Slot) : Same d (promote d k) := by
  unfold promote
  split
  · exact same_modifyPlayer d k (fun p => { p with rank := rankAdmiral }) fun _ => rfl
  · exact Same.refl d

/-- A captain that arrives has the turn, unless the other one has it. -/
theorem Turns.arrivalCaptain (h : Turns a b d) {c o : Slot} (hc : Opposed a b c o)
    (hst : (d.role c).state = .movingToPool) : Turns a b (Draft.arrivalCaptain d c) := by
  have hlasting : d.draft = .movingToPool := by
    by_contra hd
    have := h.dismissed hc hd
    unfold Dismissed at this
    rw [hst] at this
    simp at this
  have hfair := h.fair hc hlasting
  have htwo := h.sides.opposed hc
  -- the captain of the other team is the other captain
  have hteams : (role d.world c).team ≠ (if (d.player c).team = rom then fed else rom) ∧
      (role d.world o).team = if (d.player c).team = rom then fed else rom := by
    show (role d.world c).team ≠ (if (role d.world c).team = rom then fed else rom) ∧
      (role d.world o).team = if (role d.world c).team = rom then fed else rom
    rcases hc with ⟨rfl, rfl⟩ | ⟨rfl, rfl⟩
    · rw [h.sides.home, h.sides.away]
      decide
    · rw [h.sides.home, h.sides.away]
      decide
  have hfound := teamToCaptain_spec htwo hteams.1 hteams.2
  rw [arrivalCaptain_eq, hfound]
  have hrank := same_promote d c
  generalize promote d c = d1 at hrank ⊢
  have h1 := h.same hrank
  have hst1 : (d1.role c).state = .movingToPool := by rw [hrank.role]; exact hst
  have hundrafted (hdr : isDrafted d1.log c = true) : False := (h1.drafted c hdr).1 (.inl hst1)
  have hlasting1 : d1.draft = .movingToPool := hrank.draft.trans hlasting
  have turn (d' : Hall) (state : InlDraft) (hne : state ≠ .movingToPool)
      (hr : ∀ i, d'.role i = if i = c then { d1.role c with state := state } else d1.role i)
      (hb : Beside d1 d' c) (hf : Fair state (d1.role o).state) : Turns a b d' := by
    have hstate : (d'.role c).state = state := by rw [hr, if_pos rfl]
    refine h1.captain hc hb ?_ ?_ ?_ ?_ ?_ fun hdr => (hundrafted hdr).elim
    · rw [hr, if_pos rfl]
    · rw [hr, if_pos rfl]
    · rw [hstate]
      exact fun _ => hf
    · exact fun hd => absurd hlasting1 hd
    · rw [hstate]
      exact fun _ _ => hne
  have hup (hf : Fair .captainUp (d1.role o).state) : Turns a b (captainUp d1 c) :=
    turn (captainUp d1 c) .captainUp nofun (captainUp_role d1 c)
      (beside_state (captainUp_role d1 c) rfl rfl (fun _ _ => rfl) rfl rfl) hf
  have hdown (hf : Fair .captainDown (d1.role o).state) : Turns a b (captainDown d1 c) :=
    turn (captainDown d1 c) .captainDown nofun (captainDown_role d1 c)
      (beside_state (captainDown_role d1 c) rfl rfl (fun _ _ => rfl) rfl rfl) hf
  have hother : (d.role o).state = .movingToPool ∨ (d.role o).state = .captainUp := by
    unfold Fair at hfair
    rw [hst] at hfair
    simp at hfair
    exact hfair
  rcases hother with ho | ho
  · rw [if_neg (by rw [show (role d.world o).state = _ from ho]; simp)]
    refine hup ?_
    rw [hrank.role, ho]
    exact .inr (.inl ⟨rfl, .inl rfl⟩)
  · rw [if_pos (.inl ho)]
    dsimp only
    have ho1 : (d1.player o).inlDraft = .captainUp := (congrArg Role.state (hrank.role o)).trans ho
    rw [if_pos ho1]
    refine hdown ?_
    rw [hrank.role, ho]
    exact .inr (.inr ⟨rfl, .inr rfl⟩)

/-- Whoever arrives as a captain has the turn or waits. -/
theorem arrivalCaptain_role (d : Hall) (c : Slot) : ∃ s, (s = .captainUp ∨ s = .captainDown) ∧
    ∀ i, (Draft.arrivalCaptain d c).role i = if i = c then { d.role c with state := s } else d.role i := by
  have hup : ∀ i, (captainUp (promote d c) c).role i =
      if i = c then { d.role c with state := .captainUp } else d.role i := by
    intro i
    rw [captainUp_role, (same_promote d c).role, (same_promote d c).role]
  have hdown : ∀ i, (captainDown (promote d c) c).role i =
      if i = c then { d.role c with state := .captainDown } else d.role i := by
    intro i
    rw [captainDown_role, (same_promote d c).role, (same_promote d c).role]
  rw [arrivalCaptain_eq]
  split
  · exact ⟨_, .inl rfl, hup⟩
  · split
    · exact ⟨_, .inr rfl, hdown⟩
    · exact ⟨_, .inl rfl, hup⟩

/-- A captain is in none of the other players' states. -/
theorem Turns.state (h : Turns a b d) {c o : Slot} (hc : Opposed a b c o) :
    (d.role c).state = .movingToPool ∨ (d.role c).state = .captainUp ∨ (d.role c).state = .captainDown ∨
      Dismissed (d.role c).state := by
  by_cases hd : d.draft = .movingToPool
  · rcases h.fair hc hd with ⟨hs, -⟩ | ⟨hs, -⟩ | ⟨-, hs | hs⟩
    · exact .inl hs
    · exact .inr (.inl hs)
    · exact .inl hs
    · exact .inr (.inr (.inl hs))
  · exact .inr (.inr (.inr (h.dismissed hc hd)))

/-- A player in one of their states is no captain. -/
theorem Turns.plain_of_state (h : Turns a b d) {j : Slot}
    (hj : (d.role j).state = .pooled ∨ (d.role j).state = .movingToPick ∨ (d.role j).state = .picked ∨
      (d.role j).state = .pickedSelector) : (d.role j).captain = false := by
  by_contra hc
  rw [Bool.not_eq_false] at hc
  have hop : ∃ o, Opposed a b j o := by
    rcases (h.sides.two.captains j).1 hc with rfl | rfl
    · exact ⟨b, .inl ⟨rfl, rfl⟩⟩
    · exact ⟨a, .inr ⟨rfl, rfl⟩⟩
  obtain ⟨o, ho⟩ := hop
  have hst := h.state ho
  unfold Dismissed at hst
  rcases hj with hj | hj | hj | hj <;> rw [hj] at hst <;> simp at hst

/-- A player is noted as having arrived. -/
theorem Turns.arrive (h : Turns a b d) {j : Slot} {arrived : Slot → Bool} (ha : ∀ i, i ≠ j → arrived i = d.arrived i)
    (hj : d.draft = .movingToPool → ∀ o, Opposed a b j o → (d.role j).state ≠ .movingToPool) :
    Turns a b { d with arrived := arrived } := by
  refine ⟨h.sides, h.lasting, h.ended, fun hd c o hc harr => ?_, h.drafted, h.once, h.home, h.away⟩
  by_cases hcj : c = j
  · subst hcj
    exact hj hd o hc
  · exact h.arrived hd c o hc ((ha c hcj).symm.trans harr)

/-- The arrival of a captain does not look at who has arrived. -/
theorem arrivalCaptain_arrived (d : Hall) (c : Slot) (arrived : Slot → Bool) :
    Draft.arrivalCaptain { d with arrived := arrived } c = { Draft.arrivalCaptain d c with arrived := arrived } := by
  have hpromote : promote { d with arrived := arrived } c = { promote d c with arrived := arrived } := by
    unfold promote
    by_cases hg : d.gameup guInRobot = true
    · have hg' : ({ d with arrived := arrived } : Hall).gameup guInRobot = true := hg
      rw [if_pos hg, if_pos hg']
      rfl
    · have hg' : ¬ ({ d with arrived := arrived } : Hall).gameup guInRobot = true := hg
      rw [if_neg hg, if_neg hg']
  obtain ⟨other, hother⟩ : ∃ other, teamToCaptain d.world (if (d.player c).team = rom then fed else rom) = other :=
    ⟨_, rfl⟩
  have hother' : teamToCaptain ({ d with arrived := arrived } : Hall).world
      (if (({ d with arrived := arrived } : Hall).player c).team = rom then fed else rom) = other := hother
  rw [arrivalCaptain_eq, arrivalCaptain_eq, hpromote, hother, hother']
  generalize promote d c = d1
  cases other with
  | none => rfl
  | some other =>
    dsimp only
    by_cases hup : (d1.player other).inlDraft = .captainUp
    · have hup' : (({ d1 with arrived := arrived } : Hall).player other).inlDraft = .captainUp := hup
      rw [if_pos hup, if_pos hup']
      rfl
    · have hup' : ¬ (({ d1 with arrived := arrived } : Hall).player other).inlDraft = .captainUp := hup
      rw [if_neg hup, if_neg hup']
      rfl

theorem arrivalCaptain_keeps (d : Hall) (c : Slot) : (Draft.arrivalCaptain d c).arrived = d.arrived := by
  have h := congrArg Hall.arrived (arrivalCaptain_arrived d c d.arrived)
  exact h

theorem Sides.captain {w : World} (h : Sides w a b) {j : Slot} (hj : (role w j).captain = true) :
    ∃ o, Opposed a b j o := by
  rcases (h.two.captains j).1 hj with rfl | rfl
  · exact ⟨b, .inl ⟨rfl, rfl⟩⟩
  · exact ⟨a, .inr ⟨rfl, rfl⟩⟩

/-- An arrival changes the state of a player; the first of the captains to arrive has the turn. -/
theorem Turns.arrival (h : Turns a b d) (j : Slot) : Turns a b (Draft.arrival d j) := by
  have harr (i : Slot) (hi : i ≠ j) : Function.update d.arrived j true i = d.arrived i := Function.update_of_ne hi ..
  have hr (state : InlDraft) (i : Slot) :
      ({ d with arrived := Function.update d.arrived j true }.modifyPlayer j fun p =>
        { p with inlDraft := state }).role i = if i = j then { d.role j with state := state } else d.role i :=
    role_state d.world j i state
  have hb (state : InlDraft) := beside_state (hr state) rfl rfl harr rfl rfl
  have moved (state : InlDraft) (hplain : (d.role j).captain = false)
      (hst : state ≠ .captainUp ∧ state ≠ .captainDown)
      (hdr : isDrafted d.log j = true → ¬ InPool state ∧ (d.draft = .movingToPool → state ≠ .off)) :
      Turns a b ({ d with arrived := Function.update d.arrived j true }.modifyPlayer j fun p =>
        { p with inlDraft := state }) := by
    refine h.plain hplain (hb state) ?_ fun hd => ?_
    · rw [hr, if_pos rfl]
      exact hst
    · rw [hr, if_pos rfl]
      exact hdr hd
  have stays (hst : (d.role j).state ≠ .movingToPool) :
      Turns a b { d with arrived := Function.update d.arrived j true } := h.arrive harr fun _ _ _ => hst
  unfold Draft.arrival
  dsimp only
  split
  · next hst =>
    have hst : (d.role j).state = .movingToPool := hst
    split
    · next hc =>
      obtain ⟨o, ho⟩ := h.sides.captain hc
      rw [arrivalCaptain_arrived]
      refine (h.arrivalCaptain ho hst).arrive (j := j) ?_ fun _ _ _ => ?_
      · rw [arrivalCaptain_keeps]
        exact harr
      · obtain ⟨s, hs, hr⟩ := arrivalCaptain_role d j
        rw [hr, if_pos rfl]
        rcases hs with rfl | rfl <;> nofun
    · next hc =>
      refine moved .pooled ((Bool.not_eq_true _).mp hc) ⟨nofun, nofun⟩ fun hd => ?_
      exact absurd (.inl hst) (h.drafted j hd).1
  · next hst =>
    have hst : (d.role j).state = .movingToPick := hst
    refine moved .picked (h.plain_of_state (.inr (.inl hst))) ⟨nofun, nofun⟩ fun _ => ⟨?_, nofun⟩
    rintro (hp | hp) <;> cases hp
  · next hst =>
    have hst : (d.role j).state = .pooled := hst
    have hplain : (d.player j).inlCaptain = false := h.plain_of_state (.inl hst)
    rw [if_neg (by rw [hplain]; simp)]
    exact stays (by rw [hst]; simp)
  · next hst =>
    have hst : (d.role j).state = .picked := hst
    have hplain : (d.player j).inlCaptain = false := h.plain_of_state (.inr (.inr (.inl hst)))
    rw [if_neg (by rw [hplain]; simp)]
    exact stays (by rw [hst]; simp)
  · next hst =>
    have hst : (d.role j).state = .movingToHome := hst
    cases hc : (d.role j).captain with
    | false =>
      refine moved .finished hc ⟨nofun, nofun⟩ fun _ => ⟨?_, nofun⟩
      rintro (hp | hp) <;> cases hp
    | true =>
      obtain ⟨o, ho⟩ := h.sides.captain hc
      -- no captain goes home while the draft lasts
      have hover : d.draft ≠ .movingToPool := by
        intro hd
        have hf := h.fair ho hd
        unfold Fair at hf
        rw [hst] at hf
        simp at hf
      refine h.captain ho (hb .finished) ?_ ?_ (fun hd => absurd hd hover) (fun _ => ?_) (fun hd => absurd hd hover)
        fun _ => ?_
      · rw [hr, if_pos rfl]
      · rw [hr, if_pos rfl]
      · rw [hr, if_pos rfl]
        exact .inr (.inl rfl)
      · rw [hr, if_pos rfl]
        refine ⟨?_, nofun⟩
        rintro (hp | hp) <;> cases hp
  · next hne _ _ _ _ =>
    exact stays hne

/-- A ship comes nearer to its place, and may arrive there. -/
theorem same_approach (d : Hall) (j : Slot) :
    ∃ d1, Same d d1 ∧ (Draft.approach d j = d1 ∨ Draft.approach d j = Draft.arrival d1 j) := by
  unfold Draft.approach
  dsimp only
  split
  · exact ⟨_, same_modifyPlayer d j (fun p =>
      { p.go (p.x - ((d.player j).x - (d.spots j).x).tdiv 10) (p.y - ((d.player j).y - (d.spots j).y).tdiv 10) with
        dir := p.dir + 24 }) fun _ => rfl, .inl rfl⟩
  · exact ⟨_, same_modifyPlayer d j (fun p => p.go (d.spots j).x (d.spots j).y) fun _ => rfl, .inr rfl⟩

theorem Turns.approach (h : Turns a b d) (j : Slot) : Turns a b (Draft.approach d j) := by
  obtain ⟨d1, h1, h2 | h2⟩ := same_approach d j
  · rw [h2]
    exact h.same h1
  · rw [h2]
    exact (h.same h1).arrival j

theorem Turns.updateOne (h : Turns a b d) (j : Slot) : Turns a b (Draft.updateOne d j) := by
  unfold Draft.updateOne
  split
  · exact h
  · exact ((h.forcePool j).same (same_place _ j)).approach j

theorem Turns.updateAll : ∀ (l : List Slot) {d : Hall}, Turns a b d → Turns a b (l.foldl Draft.updateOne d)
  | [], _, h => h
  | j :: l, _, h => Turns.updateAll l (h.updateOne j)

end

end Netrek.Draft
