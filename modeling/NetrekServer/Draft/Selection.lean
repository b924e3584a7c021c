/-
What `inl_draft_select` can do in a draft with one captain on each side: pass the turn, pick a player
for the captain whose turn it is, delegate, or nothing.

Of the players only their roles matter: their state in the draft, whether they are captains, their
team, and whether the draft ignores them.
-/
import NetrekServer.Draft.Update

namespace Netrek.Draft

open Netrek.Request

/-! ## Roles -/

/-- What the draft knows of a player. -/
structure Role where
  state : InlDraft
  captain : Bool
  team : Word
  ignored : Bool

def roleOf (p : Player) : Role := ⟨p.inlDraft, p.inlCaptain, p.team, inlDraftIgnore p⟩

def role (w : World) (i : Slot) : Role := roleOf (w.mem.players i)

def Hall.role (d : Hall) (i : Slot) : Role := Draft.role d.world i

theorem role_modifyPlayer (w : World) (k i : Slot) (f : Player → Player) :
    role (w.modifyPlayer k f) i = if i = k then roleOf (f (w.mem.players k)) else role w i := by
  unfold role World.modifyPlayer Memory.modifyPlayer
  simp only [Function.update_apply]
  split <;> rfl

/-- A change that keeps the role of a player keeps every role. -/
theorem role_modifyPlayer_same (w : World) (k i : Slot) (f : Player → Player) (hf : ∀ p, roleOf (f p) = roleOf p) :
    role (w.modifyPlayer k f) i = role w i := by
  rw [role_modifyPlayer]
  split
  · next h => rw [hf, h]; rfl
  · rfl

@[simp] theorem role_pmessage (w : World) (recip : Int) (group : Word) (address : String) (mFrom : Int)
    (fmt text : String) (i : Slot) : role (w.pmessage recip group address mFrom fmt text) i = role w i := rfl

theorem role_state (w : World) (k i : Slot) (state : InlDraft) :
    role (w.modifyPlayer k fun p => { p with inlDraft := state }) i =
      if i = k then { role w k with state := state } else role w i :=
  role_modifyPlayer w k i _

theorem role_highlightUp (w : World) (k i : Slot) : role (inlDraftHighlightUp w k) i = role w i :=
  role_modifyPlayer_same w k i (fun p => { p with ship := w.shipvals .battleship }) fun _ => rfl

theorem role_highlightDown (w : World) (k i : Slot) : role (inlDraftHighlightDown w k) i = role w i :=
  role_modifyPlayer_same w k i (fun p => { p with ship := w.shipvals .scout }) fun _ => rfl

/-! ## Two captains -/

/-- The two captains, of whom `k` may act: nobody else is one, and they take part. -/
structure Two (w : World) (k o : Slot) : Prop where
  ne : k ≠ o
  captains : ∀ i, (role w i).captain = true ↔ i = k ∨ i = o
  here : (role w k).ignored = false
  there : (role w o).ignored = false

theorem Two.symm {w : World} {k o : Slot} (h : Two w k o) : Two w o k where
  ne := h.ne.symm
  captains i := (h.captains i).trans or_comm
  here := h.there
  there := h.here

/-- The only element with a property is the one that is found. -/
theorem find_unique {α : Type} {p : α → Bool} {l : List α} {x : α} (hx : x ∈ l) (hp : p x = true)
    (hu : ∀ y ∈ l, p y = true → y = x) : l.find? p = some x := by
  cases h : l.find? p with
  | none => exact absurd hp (List.find?_eq_none.1 h x hx)
  | some y => rw [hu y (List.mem_of_find?_eq_some h) (List.find?_some h)]

/-- The pick goes to the other captain. -/
theorem next_spec {w : World} {k o : Slot} (h : Two w k o) :
    ∃ w', inlDraftNext w k = (w', true) ∧ w'.inlHomePick = w.inlHomePick ∧ w'.inlAwayPick = w.inlAwayPick ∧
      ∀ i, role w' i = if i = k then { role w k with state := .captainDown }
        else if i = o then { role w o with state := .captainUp } else role w i := by
  have hfind : (List.finRange maxPlayer).find? (fun h =>
      h != k && !inlDraftIgnore (w.mem.players h) && (w.mem.players h).inlCaptain) = some o := by
    refine find_unique (List.mem_finRange o) ?_ fun y _ hy => ?_
    · have hc : (w.mem.players o).inlCaptain = true := (h.captains o).2 (.inr rfl)
      have hi : inlDraftIgnore (w.mem.players o) = false := h.there
      simp [hc, hi, h.ne.symm]
    · simp only [Bool.and_eq_true, bne_iff_ne, ne_eq] at hy
      exact ((h.captains y).1 hy.2).resolve_left hy.1.1
  have heq : inlDraftNext w k = (inlDraftHighlightDown ((inlDraftHighlightUp (w.modifyPlayer o fun p =>
      { p with inlDraft := .captainUp }) o).modifyPlayer k fun p => { p with inlDraft := .captainDown }) k, true) := by
    unfold inlDraftNext
    rw [hfind]
  refine ⟨_, heq, rfl, rfl, fun i => ?_⟩
  rw [role_highlightDown, role_state]
  split
  · rw [role_highlightUp, role_state, if_neg h.ne]
  · rw [role_highlightUp, role_state]

/-- The captain of the other side is found once it has had a turn. -/
theorem teamToCaptain_spec {w : World} {k o : Slot} (h : Two w k o) {team : Word} (hk : (role w k).team ≠ team)
    (ho : (role w o).team = team) :
    teamToCaptain w team =
      if (role w o).state = .captainUp ∨ (role w o).state = .captainDown then some o else none := by
  have hi : inlDraftIgnore (w.mem.players o) = false := h.there
  have hc : (w.mem.players o).inlCaptain = true := (h.captains o).2 (.inr rfl)
  have hteam : (w.mem.players o).team = team := ho
  have only : ∀ y, (w.mem.players y).inlCaptain = true → (w.mem.players y).team = team → y = o := by
    intro y hy ht
    rcases (h.captains y).1 hy with rfl | rfl
    · exact absurd ht hk
    · rfl
  unfold teamToCaptain
  split
  · next hs =>
    refine find_unique (List.mem_finRange o) ?_ fun y _ hy => ?_
    · have hs : (w.mem.players o).inlDraft = .captainUp ∨ (w.mem.players o).inlDraft = .captainDown := hs
      rcases hs with hs | hs <;> simp [hi, hc, hteam, hs]
    · simp only [Bool.and_eq_true, beq_iff_eq] at hy
      exact only y hy.1.1.2 hy.1.2
  · next hs =>
    rw [List.find?_eq_none]
    intro y _ hy
    simp only [Bool.and_eq_true, Bool.or_eq_true, beq_iff_eq] at hy
    have := only y hy.1.1.2 hy.1.2
    subst this
    exact hs hy.2

/-! ## A pick -/

/-- For the draft, a change of teams changes the team of one player. -/
theorem role_changeTeamQuietly (w : World) (j i : Slot) (ours theirs : Word) :
    role (changeTeamQuietly w j ours theirs) i = if i = j then { role w j with team := ours } else role w i := by
  have hqueue (queue : Nat) (i : Slot) : role (((w.addFreeSlots (w.mem.players j).wQueue 1).modifyPlayer j fun p =>
      { p with wQueue := queue }).addFreeSlots queue (-1)) i = role w i :=
    role_modifyPlayer_same (w.addFreeSlots (w.mem.players j).wQueue 1) j i (fun p => { p with wQueue := queue })
      fun _ => rfl
  have hjoin (w' : World) (hw : ∀ i, role w' i = role w i) :
      role (w'.modifyPlayer j fun p => p.joinTeam j ours theirs) i =
        if i = j then { role w j with team := ours } else role w i := by
    rw [role_modifyPlayer, hw i, ← hw j]
    rfl
  rw [changeTeamQuietly_eq]
  dsimp only
  split
  · exact hjoin _ (hqueue _)
  · exact hjoin _ fun _ => rfl

theorem counts_changeTeamQuietly (w : World) (j : Slot) (ours theirs : Word) :
    (changeTeamQuietly w j ours theirs).inlHomePick = w.inlHomePick ∧
      (changeTeamQuietly w j ours theirs).inlAwayPick = w.inlAwayPick := by
  rw [changeTeamQuietly_eq]
  dsimp only
  split <;> exact ⟨rfl, rfl⟩

/-- A player joins the team of the captain who picks it. -/
def joinSide (w : World) (j k : Slot) : World :=
  if (w.mem.players j).team ≠ (w.mem.players k).team then
    changeTeamQuietly w j (w.mem.players k).team (w.mem.players j).team
  else w

/-- A player is given the next number of its team. -/
def giveNumber (w : World) (j : Slot) : World :=
  let w := if (w.mem.players j).team = fed then
      { w.modifyPlayer j fun p => { p with inlPick := w.inlHomePick } with inlHomePick := w.inlHomePick + 1 }
    else w
  if (w.mem.players j).team = rom then
    { w.modifyPlayer j fun p => { p with inlPick := w.inlAwayPick } with inlAwayPick := w.inlAwayPick + 1 }
  else w

/-- In a league game the rank of a player goes by the pick. -/
def rankPick (w : World) (j : Slot) (n : Int) : World :=
  if w.proc.inRobot then w.modifyPlayer j fun p => { p with rank := numRanks - (n - 1).tdiv 2 - 2 } else w

/-- The selection is announced. -/
def announcePick (w : World) (j k : Slot) : World :=
  let w := w.modifyPlayer j fun p => { p with inlDraft := .movingToPick }
  let n := w.inlHomePick + w.inlAwayPick
  let side := if (w.mem.players j).team = fed then "HOME" else "AWAY"
  let kChars := (w.mem.players k).mapchars
  let jChars := (w.mem.players j).mapchars
  let jName := (w.mem.players j).name
  rankPick (w.pmessage 0 0x08 "GOD->ALL" 255 "Selection #%d: %s (%s) drafts %s (%s)."
    s!"Selection #{n}: {kChars} ({side}) drafts {jChars} ({jName}).") j n

theorem pick_eq (w : World) (j k : Slot) :
    inlDraftPick w j k = announcePick (giveNumber (joinSide w j k) j) j k := by
  unfold inlDraftPick
  extract_lets ours theirs w₁ home w₂ away w₃
  have h₁ : w₁ = joinSide w j k := rfl
  have h₃ : w₃ = giveNumber w₁ j := rfl
  rw [← h₁, ← h₃]
  -- what is announced does not look at how `w₃` came about
  clear_value w₃
  rfl

theorem players_modifyPlayer (w : World) (j : Slot) (f : Player → Player) :
    (w.modifyPlayer j f).mem.players j = f (w.mem.players j) :=
  Function.update_self ..

theorem joinSide_spec (w : World) (j k : Slot) :
    (∀ i, role (joinSide w j k) i = if i = j then { role w j with team := (role w k).team } else role w i) ∧
      (joinSide w j k).inlHomePick = w.inlHomePick ∧ (joinSide w j k).inlAwayPick = w.inlAwayPick := by
  unfold joinSide
  split
  · exact ⟨fun i => role_changeTeamQuietly w j i _ _, counts_changeTeamQuietly w j _ _⟩
  · next h =>
    refine ⟨fun i => ?_, rfl, rfl⟩
    split
    · next hi => rw [hi, show (role w k).team = (role w j).team from (not_not.1 h).symm]
    · rfl

/-- The player gets the next number of his side. -/
theorem giveNumber_spec (w : World) (j : Slot) (hteam : (role w j).team = fed ∨ (role w j).team = rom) :
    (∀ i, role (giveNumber w j) i = role w i) ∧
      ((giveNumber w j).mem.players j).inlPick = (if (role w j).team = fed then w.inlHomePick else w.inlAwayPick) ∧
      (giveNumber w j).inlHomePick = (if (role w j).team = fed then w.inlHomePick + 1 else w.inlHomePick) ∧
      (giveNumber w j).inlAwayPick = (if (role w j).team = fed then w.inlAwayPick else w.inlAwayPick + 1) := by
  have hpick (n : Int) (i : Slot) : role (w.modifyPlayer j fun p => { p with inlPick := n }) i = role w i :=
    role_modifyPlayer_same w j i (fun p => { p with inlPick := n }) fun _ => rfl
  unfold giveNumber
  dsimp only
  rcases hteam with hteam | hteam
  · have h1 : (w.mem.players j).team = fed := hteam
    have h2 : ((w.modifyPlayer j fun p => { p with inlPick := w.inlHomePick }).mem.players j).team ≠ rom := by
      rw [players_modifyPlayer]
      show (w.mem.players j).team ≠ rom
      rw [h1]
      decide
    rw [if_pos h1, if_neg h2, if_pos hteam, if_pos hteam, if_pos hteam]
    exact ⟨hpick _, by rw [players_modifyPlayer], rfl, rfl⟩
  · have h1 : (w.mem.players j).team = rom := hteam
    have h2 : (w.mem.players j).team ≠ fed := by
      rw [h1]
      decide
    have h3 : (role w j).team ≠ fed := h2
    rw [if_neg h2, if_pos h1, if_neg h3, if_neg h3, if_neg h3]
    exact ⟨hpick _, by rw [players_modifyPlayer], rfl, rfl⟩

theorem rankPick_spec (w : World) (j : Slot) (n : Int) :
    (∀ i, role (rankPick w j n) i = role w i) ∧
      ((rankPick w j n).mem.players j).inlPick = (w.mem.players j).inlPick ∧
      (rankPick w j n).inlHomePick = w.inlHomePick ∧ (rankPick w j n).inlAwayPick = w.inlAwayPick := by
  unfold rankPick
  split
  · refine ⟨fun i => role_modifyPlayer_same _ _ _ _ fun _ => rfl, ?_, rfl, rfl⟩
    rw [players_modifyPlayer]
  · exact ⟨fun _ => rfl, rfl, rfl, rfl⟩

theorem announcePick_spec (w : World) (j k : Slot) :
    (∀ i, role (announcePick w j k) i = if i = j then { role w j with state := .movingToPick } else role w i) ∧
      ((announcePick w j k).mem.players j).inlPick = (w.mem.players j).inlPick ∧
      (announcePick w j k).inlHomePick = w.inlHomePick ∧ (announcePick w j k).inlAwayPick = w.inlAwayPick := by
  unfold announcePick
  dsimp only
  have hspec := rankPick_spec
  refine ⟨fun i => ((hspec _ j _).1 i).trans (role_state w j i _), ((hspec _ j _).2.1).trans ?_, (hspec _ j _).2.2.1,
    (hspec _ j _).2.2.2⟩
  show ((w.modifyPlayer j fun p => { p with inlDraft := .movingToPick }).mem.players j).inlPick = _
  rw [players_modifyPlayer]

/-- What a pick does: the player goes to the captain's team, with the next number of that team. -/
theorem pick_spec (w : World) (j k : Slot) (hteam : (role w k).team = fed ∨ (role w k).team = rom) :
    (∀ i, role (inlDraftPick w j k) i =
        if i = j then { role w j with state := .movingToPick, team := (role w k).team } else role w i) ∧
      ((inlDraftPick w j k).mem.players j).inlPick =
        (if (role w k).team = fed then w.inlHomePick else w.inlAwayPick) ∧
      (inlDraftPick w j k).inlHomePick = (if (role w k).team = fed then w.inlHomePick + 1 else w.inlHomePick) ∧
      (inlDraftPick w j k).inlAwayPick = (if (role w k).team = fed then w.inlAwayPick else w.inlAwayPick + 1) := by
  obtain ⟨hjoin, hh1, ha1⟩ := joinSide_spec w j k
  have hj : (role (joinSide w j k) j).team = (role w k).team := by rw [hjoin, if_pos rfl]
  obtain ⟨hgive, hn2, hh2, ha2⟩ := giveNumber_spec (joinSide w j k) j (by rw [hj]; exact hteam)
  obtain ⟨hmove, hn3, hh3, ha3⟩ := announcePick_spec (giveNumber (joinSide w j k) j) j k
  rw [pick_eq, hn3, hh3, ha3, hn2, hh2, ha2, hj, hh1, ha1]
  refine ⟨fun i => ?_, rfl, rfl, rfl⟩
  rw [hmove, hgive, hgive, hjoin, hjoin, if_pos rfl]
  split <;> rfl

/-! ## Selections -/

/-- One captain on each side, and nobody else with a captain's state. -/
structure Sides (w : World) (a b : Slot) : Prop where
  two : Two w a b
  home : (role w a).team = fed
  away : (role w b).team = rom
  others : ∀ i, i ≠ a → i ≠ b → (role w i).state ≠ .captainUp ∧ (role w i).state ≠ .captainDown

/-- `c` is one of the captains, and `o` the other. -/
def Opposed (a b c o : Slot) : Prop := (c = a ∧ o = b) ∨ (c = b ∧ o = a)

theorem Opposed.symm {a b c o : Slot} (h : Opposed a b c o) : Opposed a b o c := by
  rcases h with ⟨rfl, rfl⟩ | ⟨rfl, rfl⟩
  · exact .inr ⟨rfl, rfl⟩
  · exact .inl ⟨rfl, rfl⟩

/-- Every captain is one of the two. -/
theorem Opposed.either {a b c o x y : Slot} (hc : Opposed a b c o) (hx : Opposed a b x y) : x = c ∨ x = o := by
  rcases hc with ⟨rfl, rfl⟩ | ⟨rfl, rfl⟩ <;> rcases hx with ⟨rfl, rfl⟩ | ⟨rfl, rfl⟩
  · exact .inl rfl
  · exact .inr rfl
  · exact .inr rfl
  · exact .inl rfl

theorem Sides.opposed {w : World} {a b c o : Slot} (h : Sides w a b) (hc : Opposed a b c o) : Two w c o := by
  rcases hc with ⟨rfl, rfl⟩ | ⟨rfl, rfl⟩
  · exact h.two
  · exact h.two.symm

theorem Sides.team {w : World} {a b c o : Slot} (h : Sides w a b) (hc : Opposed a b c o) :
    (role w c).team = fed ∨ (role w c).team = rom := by
  rcases hc with ⟨rfl, rfl⟩ | ⟨rfl, rfl⟩
  · exact .inl h.home
  · exact .inr h.away

/-- Whoever has a captain's state is one of the captains. -/
theorem Sides.of_state {w : World} {a b c : Slot} (h : Sides w a b)
    (hc : (role w c).state = .captainUp ∨ (role w c).state = .captainDown) : ∃ o, Opposed a b c o := by
  by_cases ha : c = a
  · exact ⟨b, .inl ⟨ha, rfl⟩⟩
  by_cases hb : c = b
  · exact ⟨a, .inr ⟨hb, rfl⟩⟩
  exact (hc.elim (h.others c ha hb).1 (h.others c ha hb).2).elim

/-- In the pool, or on the way there. -/
def InPool (s : InlDraft) : Prop := s = .movingToPool ∨ s = .pooled

/-- What a selection of the player `n` by `me` can do. -/
inductive Selected (a b : Slot) (w w' : World) (me n : Slot) : Prop
  | keep (roles : ∀ i, role w' i = role w i) (home : w'.inlHomePick = w.inlHomePick)
      (away : w'.inlAwayPick = w.inlAwayPick)
  | pass (c o : Slot) (opposed : Opposed a b c o) (up : (role w c).state = .captainUp)
      (roles : ∀ i, role w' i = if i = c then { role w c with state := .captainDown }
        else if i = o then { role w o with state := .captainUp } else role w i)
      (home : w'.inlHomePick = w.inlHomePick) (away : w'.inlAwayPick = w.inlAwayPick)
  | pick (c o : Slot) (opposed : Opposed a b c o) (up : (role w c).state = .captainUp)
      (by_me : me = c ∨ (role w me).state = .pickedSelector ∧ (role w me).team = (role w c).team)
      (pool : InPool (role w n).state) (plain : (role w n).captain = false)
      (roles : ∀ i, role w' i = if i = n then { role w n with state := .movingToPick, team := (role w c).team }
        else if i = c then { role w c with state := .captainDown }
        else if i = o then { role w o with state := .captainUp } else role w i)
      (number : (w'.mem.players n).inlPick = if (role w c).team = fed then w.inlHomePick else w.inlAwayPick)
      (home : w'.inlHomePick = if (role w c).team = fed then w.inlHomePick + 1 else w.inlHomePick)
      (away : w'.inlAwayPick = if (role w c).team = fed then w.inlAwayPick else w.inlAwayPick + 1)
  | delegate (state : InlDraft) (before : (role w n).state = .movingToPick ∨ (role w n).state = .picked ∨
        (role w n).state = .pickedSelector) (after : state = .picked ∨ state = .pickedSelector)
      (roles : ∀ i, role w' i = if i = n then { role w n with state := state } else role w i)
      (home : w'.inlHomePick = w.inlHomePick) (away : w'.inlAwayPick = w.inlAwayPick)

/-- A pool player fingered for the captain whose turn it is. -/
theorem draftFromPool_spec {a b c o : Slot} {w : World} (h : Sides w a b) (hc : Opposed a b c o)
    (hup : (role w c).state = .captainUp) (me n : Slot)
    (hme : me = c ∨ (role w me).state = .pickedSelector ∧ (role w me).team = (role w c).team)
    (hpool : InPool (role w n).state) : Selected a b w (draftFromPool w n c) me n := by
  have htwo := h.opposed hc
  unfold draftFromPool
  split
  · exact .keep (fun _ => rfl) rfl rfl
  · next hcap =>
    have hplain : (role w n).captain = false := (Bool.not_eq_true _).mp hcap
    have hnc : n ≠ c := by
      rintro rfl
      rw [(htwo.captains n).2 (.inl rfl)] at hplain
      cases hplain
    have hno : n ≠ o := by
      rintro rfl
      rw [(htwo.captains n).2 (.inr rfl)] at hplain
      cases hplain
    obtain ⟨w1, hnext, hh, ha, hroles⟩ := next_spec htwo
    rw [hnext]
    dsimp only
    have hteam : (role w1 c).team = (role w c).team := by rw [hroles, if_pos rfl]
    obtain ⟨hp1, hp2, hp3, hp4⟩ := pick_spec w1 n c (by rw [hteam]; exact h.team hc)
    rw [hteam, hh, ha] at hp2
    rw [hteam, hh] at hp3
    rw [hteam, ha] at hp4
    refine .pick c o hc hup hme hpool hplain (fun i => ?_) hp2 hp3 hp4
    rw [hp1, hteam, hroles n, if_neg hnc, if_neg hno, hroles i]

theorem playerAt_val (n : Slot) : playerAt n.val = .ok n := by
  unfold playerAt
  rw [dif_pos ⟨by omega, by exact_mod_cast n.isLt⟩]
  rfl

/-- A selection passes the turn, picks for the captain whose turn it is, delegates, or does nothing. -/
theorem select_spec {a b : Slot} {w w' : World} (h : Sides w a b) (n : Slot)
    (hw : inlDraftSelect w n.val = .ok w') : Selected a b w w' w.proc.me n := by
  unfold inlDraftSelect at hw
  rw [if_neg (by have := n.isLt; omega), playerAt_val] at hw
  dsimp only [Except.map] at hw
  have hw := Except.ok.inj hw
  subst hw
  have keep : Selected a b w w w.proc.me n := .keep (fun _ => rfl) rfl rfl
  cases hs : (w.mem.players n).inlDraft with
  -- the opponent is asked for: the captain who is up passes
  | captainDown =>
    dsimp only
    split
    · next hup =>
      have hup : (role w w.proc.me).state = .captainUp := hup
      obtain ⟨o, ho⟩ := h.of_state (.inl hup)
      obtain ⟨w1, hnext, hh, ha, hroles⟩ := next_spec (h.opposed ho)
      rw [hnext]
      exact .pass w.proc.me o ho hup hroles hh ha
    · exact keep
  | movingToPool | pooled =>
    have hpool : InPool (role w n).state := by
      unfold InPool role roleOf
      simp [hs]
    dsimp only
    split
    -- a player of the pool: a captain who is up picks him
    · next hup =>
      have hup : (role w w.proc.me).state = .captainUp := hup
      obtain ⟨o, ho⟩ := h.of_state (.inl hup)
      exact draftFromPool_spec h ho hup _ n (.inl rfl) hpool
    split
    -- a selector picks in the name of his team's captain
    · next hsel =>
      split
      · exact .keep (fun _ => rfl) rfl rfl
      · next c hc =>
        split
        · exact .keep (fun _ => rfl) rfl rfl
        · next hup =>
          have hup : (role w c).state = .captainUp := not_not.1 hup
          obtain ⟨o, ho⟩ := h.of_state (.inl hup)
          have hteam := List.find?_some hc
          simp only [Bool.and_eq_true, beq_iff_eq] at hteam
          exact draftFromPool_spec h ho hup _ n (.inr ⟨hsel, hteam.1.2.symm⟩) hpool
    · exact keep
  -- a picked player is made a selector, and a selector is made none
  | movingToPick | picked =>
    have hbefore : (role w n).state = .movingToPick ∨ (role w n).state = .picked ∨
        (role w n).state = .pickedSelector := by
      unfold role roleOf
      simp [hs]
    dsimp only
    split
    · exact .delegate .pickedSelector hbefore (.inr rfl) (fun i => role_state w n i _) rfl rfl
    · exact keep
  | pickedSelector =>
    have hbefore : (role w n).state = .movingToPick ∨ (role w n).state = .picked ∨
        (role w n).state = .pickedSelector := by
      unfold role roleOf
      simp [hs]
    dsimp only
    split
    · exact .delegate .picked hbefore (.inl rfl) (fun i => role_state w n i _) rfl rfl
    · exact keep
  -- nobody else can be selected
  | off | captainUp | movingToHome | finished => exact keep

end Netrek.Draft
