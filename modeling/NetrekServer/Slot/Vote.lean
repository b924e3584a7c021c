/-
`do_vote` of `ntserv/gencmds.c` and the motions of `ntserv/ntscmds.c`. A vote is the time at which a
player last voted for a motion; it counts until it expires. The votes that a player cast are cleared
with the slot, the votes cast against a player are not, but for those to eject, which `enter` resets.
-/
import NetrekServer.Slot.Account

namespace Netrek.SlotMaint

open Netrek.Lib

/-! ## Motions -/

/-- `struct command_handler_2`, the fields of a vote: it is put to a team or to all, and it is against a player or not. -/
structure Motion where
  command : String
  team : Bool
  player : Bool
  minpass : Nat
  start : Nat
  frequency : Int
  expiretime : Int
  deriving DecidableEq

def eject : Motion := ⟨"EJECT", true, true, 2, pvEject, 120, 300⟩
def ban : Motion := ⟨"BAN", true, true, 4, pvBan, 120, 120⟩
def nopick : Motion := ⟨"NOPICK", true, true, 4, pvNopick, 120, 120⟩

/-- A motion against nobody, which every build has its own selection of. -/
def general (command : String) (minpass k : Nat) : Motion := ⟨command, false, false, minpass, pvOther + k, 0, 0⟩

/-- The votes of `nts_commands`. -/
def ntsCommands : List Motion :=
  [eject, ban, nopick, general "TRIPLE" 2 0, general "BALANCE" 4 1, general "INL" 1 2, general "PRACTICE" 1 3,
    general "HOCKEY" 1 4, general "DOGFIGHT" 1 5]

/-! ## Voting -/

/-- The player has a say in a motion that `who` votes for. -/
def eligible (r : Roster) (m : Motion) (who j : Slot) : Bool :=
  (r.player j).status != .pfree && !(r.player j).flags.has pfRobot &&
    (!m.team || (r.player j).team == (r.player who).team) && (r.player j).status != .pobserv

/-- A vote that has not expired. -/
def standing (r : Roster) (now : Int) (m : Motion) (what : Nat) (j : Slot) : Bool :=
  let cast := (r.desks j).voting what
  decide (0 < cast) && (m.expiretime == 0 || decide (now < cast + m.expiretime))

inductive Outcome
  | observer
  | noPlayer
  /-- There is no such entry of `voting[]`. -/
  | noEntry
  /-- Only so often may one vote. -/
  | tooSoon
  | ejectSelf
  /-- Who has voted, who has not, and whether the motion passes. -/
  | counted (voted nv : List Slot) (passes : Bool)
  deriving DecidableEq

/-- The vote was entered, whether it is counted or not. -/
def Outcome.isEntered : Outcome → Bool
  | .ejectSelf | .counted .. => true
  | _ => false

/-- The vote is entered. -/
def castVote (r : Roster) (now : Int) (who : Slot) (what : Nat) : Roster :=
  r.modifyDesk who fun d => { d with voting := Function.update d.voting what now }

/-- The votes for a motion that passed are reset. -/
def resetVotes (r : Roster) (what : Nat) : Roster :=
  { r with desks := fun j => { r.desks j with voting := Function.update (r.desks j).voting what (-1) } }

/-- The test of whether a motion passes; both ways to put it ask for more than half. -/
def passes (m : Motion) (vcount pcount : Nat) : Bool :=
  decide (m.minpass ≤ vcount) &&
    ((decide (pcount < 2 * vcount) && !m.team) || (m.team && decide (pcount / 2 + 1 ≤ vcount)))

/-- `do_vote`, once it is settled what the vote is for. -/
def voteFor (r : Roster) (now : Int) (who : Slot) (m : Motion) (player : Option Slot) (what : Nat) : Roster × Outcome :=
  let last := (r.desks who).voting what
  if pvTotal ≤ what then (r, .noEntry)
  else if last ≠ 0 ∧ m.frequency ≠ 0 ∧ now < last + m.frequency then (r, .tooSoon)
  else
    let r := castVote r now who what
    if m.command = "EJECT" ∧ player = some who then (r, .ejectSelf)
    else
      let voters := (List.finRange maxPlayer).filter fun j => eligible r m who j
      let voted := voters.filter fun j => standing r now m what j
      let nv := voters.filter fun j => !standing r now m what j
      let pass := passes m voted.length voters.length
      (if pass then resetVotes r what else r, .counted voted nv pass)

/-- `do_vote`, at the time `now`. -/
def doVote (r : Roster) (now : Int) (who : Slot) (m : Motion) (a : Argument) : Roster × Outcome :=
  if (r.player who).status = .pobserv then (r, .observer)
  else if m.player then
    match getplayer r who a with
    | none => (r, .noPlayer)
    | some player => voteFor r now who m (some player) (m.start + player.val)
  else voteFor r now who m none m.start

/-! ## Who voted against whom -/

/-- A vote as it was cast: when, by whom, and against whom if that player was in the game. -/
structure Ballot where
  time : Int
  voter : Nat
  target : Option Nat
  deriving DecidableEq

/-- The roster over time. People are numbered as they are given slots. -/
structure Poll where
  roster : Roster
  now : Int
  people : Nat
  occupant : Slot → Nat
  /-- The occupant has entered the game. -/
  entered : Slot → Bool
  ballots : Slot → Nat → Option Ballot

/-- The vote that an occupant casts now against a player. -/
def Poll.ballot (p : Poll) (who player : Slot) : Ballot :=
  ⟨p.now, p.occupant who, if p.entered player then some (p.occupant player) else none⟩

inductive PollStep
  | vote (who : Slot) (m : Motion) (a : Argument)
  | pick (wQueue : Nat)
  | free (who : Slot)
  | enter (me : Slot) (e : Entry)
  /-- The game goes on, for the player in a slot. -/
  | play (i : Slot) (p : Player)
  | tick (seconds : Nat)

/-- The vote that a player casts is recorded, if it is one against a player and is entered. -/
def Poll.castBallot (p : Poll) (who : Slot) (m : Motion) (a : Argument) : Slot → Nat → Option Ballot :=
  match getplayer p.roster who a with
  | some player =>
    if m.player && (doVote p.roster p.now who m a).2.isEntered then
      Function.update p.ballots who (Function.update (p.ballots who) (m.start + player.val) (some (p.ballot who player)))
    else p.ballots
  | none => p.ballots

def PollStep.run (p : Poll) : PollStep → Poll
  | .vote who m a => { p with roster := (doVote p.roster p.now who m a).1, ballots := p.castBallot who m a }
  | .pick q =>
    let given := (pickslot p.roster q).2
    { p with
      roster := (pickslot p.roster q).1
      people := p.people + 1
      occupant := fun i => if given = i.val then p.people else p.occupant i
      entered := fun i => if given = i.val then false else p.entered i }
  | .free who => { p with roster := (freeslot p.roster who).1 }
  | .enter me e => { p with roster := SlotMaint.enter p.roster me e, entered := Function.update p.entered me true }
  | .play i q => { p with roster := p.roster.modifyPlayer i fun _ => q }
  | .tick seconds => { p with now := p.now + seconds }

/-- What callers see to: only people in a slot vote, leave, enter and play. -/
def PollStep.lawful (p : Poll) : PollStep → Prop
  | .vote who m _ => (p.roster.player who).status ≠ .pfree ∧ m ∈ ntsCommands
  | .pick _ => True
  | .free who => (p.roster.player who).status ≠ .pfree
  | .enter me _ => (p.roster.player me).status ≠ .pfree
  | .play i q => (p.roster.player i).status ≠ .pfree ∧ q.status ≠ .pfree
  | .tick _ => True

/-- No vote to ban a player, or that it may not pick, stands against a slot. -/
def Unopposed (p : Poll) (t : Slot) : Prop :=
  ∀ v, standing p.roster p.now ban (pvBan + t.val) v = false ∧ standing p.roster p.now nopick (pvNopick + t.val) v = false

/-- A vote against a player waits until that player has entered, and nobody enters for the first time a slot that
votes still stand against. -/
def PollStep.fair (p : Poll) : PollStep → Prop
  | .vote who m a => m.player = true → ∀ t, getplayer p.roster who a = some t → p.entered t = true
  | .enter me _ => p.entered me = false → Unopposed p me
  | _ => True

instance (p : Poll) : (s : PollStep) → Decidable (s.lawful p)
  | .vote who m _ => inferInstanceAs (Decidable ((p.roster.player who).status ≠ .pfree ∧ m ∈ ntsCommands))
  | .pick _ => inferInstanceAs (Decidable True)
  | .free who => inferInstanceAs (Decidable ((p.roster.player who).status ≠ .pfree))
  | .enter me _ => inferInstanceAs (Decidable ((p.roster.player me).status ≠ .pfree))
  | .play i q => inferInstanceAs (Decidable ((p.roster.player i).status ≠ .pfree ∧ q.status ≠ .pfree))
  | .tick _ => inferInstanceAs (Decidable True)

instance (p : Poll) : (s : PollStep) → Decidable (s.fair p)
  | .vote who m a =>
    inferInstanceAs (Decidable (m.player = true → ∀ t, getplayer p.roster who a = some t → p.entered t = true))
  | .enter me _ => inferInstanceAs (Decidable (p.entered me = false → ∀ v,
      standing p.roster p.now ban (pvBan + me.val) v = false ∧ standing p.roster p.now nopick (pvNopick + me.val) v = false))
  | .pick _ => inferInstanceAs (Decidable True)
  | .free _ => inferInstanceAs (Decidable True)
  | .play _ _ => inferInstanceAs (Decidable True)
  | .tick _ => inferInstanceAs (Decidable True)

/-! ## Genuine votes -/

/-- Every vote is a ballot of the slot's occupant, and one that stands against a player in the game is against that
player. -/
structure Genuine (p : Poll) : Prop where
  clock : 0 < p.now
  cast : ∀ v what, what < pvOther → 0 < (p.roster.desks v).voting what →
    ∃ b, p.ballots v what = some b ∧ b.time = (p.roster.desks v).voting what ∧ b.voter = p.occupant v ∧ b.time ≤ p.now
  against : ∀ m ∈ ntsCommands, m.player = true → ∀ t v, p.entered t = true →
    standing p.roster p.now m (m.start + t.val) v = true →
      ∃ b, p.ballots v (m.start + t.val) = some b ∧ b.target = some (p.occupant t)

/-- The motions against players, and where their votes start. -/
theorem against_player {m : Motion} (hm : m ∈ ntsCommands) (hp : m.player = true) :
    m = eject ∨ m = ban ∨ m = nopick := by
  unfold ntsCommands at hm
  simp only [List.mem_cons, List.not_mem_nil, or_false] at hm
  rcases hm with rfl | rfl | rfl | rfl | rfl | rfl | rfl | rfl | rfl
  · exact .inl rfl
  · exact .inr (.inl rfl)
  · exact .inr (.inr rfl)
  all_goals exact absurd hp (by decide)

theorem start_lt {m : Motion} (hm : m ∈ ntsCommands) (hp : m.player = true) (t : Slot) : m.start + t.val < pvOther := by
  have ht : t.val < 32 := t.isLt
  rcases against_player hm hp with rfl | rfl | rfl <;>
    simp only [eject, ban, nopick, pvEject, pvBan, pvNopick, pvOther, maxPlayer] <;> omega

/-- Each motion has an entry of its own against each slot. -/
theorem start_inj {m m' : Motion} (hm : m ∈ ntsCommands) (hp : m.player = true) (hm' : m' ∈ ntsCommands)
    (hp' : m'.player = true) {t t' : Slot} (h : m.start + t.val = m'.start + t'.val) : m = m' ∧ t = t' := by
  have ht : t.val < 32 := t.isLt
  have ht' : t'.val < 32 := t'.isLt
  rcases against_player hm hp with rfl | rfl | rfl <;> rcases against_player hm' hp' with rfl | rfl | rfl <;>
    simp only [eject, ban, nopick, pvEject, pvBan, pvNopick, maxPlayer] at h <;>
    first
    | exact ⟨rfl, Fin.ext (by omega)⟩
    | omega

theorem standing_cast {r : Roster} {now : Int} {m : Motion} {what : Nat} {j : Slot}
    (h : standing r now m what j = true) : 0 < (r.desks j).voting what := by
  unfold standing at h
  simp only [Bool.and_eq_true, decide_eq_true_iff] at h
  exact h.1

/-- Whether a vote stands depends on the vote alone. -/
theorem standing_congr {r r' : Roster} {m : Motion} {what : Nat} {j : Slot}
    (h : (r'.desks j).voting what = (r.desks j).voting what) (now : Int) :
    standing r' now m what j = standing r now m what j := by
  unfold standing
  rw [h]

theorem voting_castVote (r : Roster) (now : Int) (who v : Slot) (what k : Nat) :
    ((castVote r now who what).desks v).voting k =
      if v = who ∧ k = what then now else (r.desks v).voting k := by
  unfold castVote
  rw [Roster.desks_modifyDesk]
  by_cases hv : v = who
  · subst hv
    simp [Function.update_apply]
  · simp [hv]

/-- A change of the votes that takes some back and enters none keeps them genuine. -/
theorem Genuine.of_le {p p' : Poll} (h : Genuine p) (hnow : p.now ≤ p'.now) (hocc : p'.occupant = p.occupant)
    (hent : p'.entered = p.entered) (hbal : p'.ballots = p.ballots)
    (hvote : ∀ v k, k < pvOther → (p'.roster.desks v).voting k = (p.roster.desks v).voting k ∨
      (p'.roster.desks v).voting k ≤ 0) : Genuine p' := by
  have := h.clock
  refine ⟨by omega, ?_, ?_⟩
  · intro v k hk hpos
    rcases hvote v k hk with he | hle
    · obtain ⟨b, hb, ht, hv, hle⟩ := h.cast v k hk (he ▸ hpos)
      exact ⟨b, by rw [hbal, hb], by rw [ht, he], by rw [hv, hocc], by omega⟩
    · omega
  · intro m hm hp t v he hs
    rcases hvote v _ (start_lt hm hp t) with heq | hle
    · have hs' : standing p.roster p.now m (m.start + t.val) v = true := by
        unfold standing at hs ⊢
        rw [heq] at hs
        simp only [Bool.and_eq_true, Bool.or_eq_true, decide_eq_true_iff] at hs ⊢
        exact ⟨hs.1, hs.2.imp_right fun h => by omega⟩
      obtain ⟨b, hb, ht⟩ := h.against m hm hp t v (hent ▸ he) hs'
      exact ⟨b, by rw [hbal, hb], by rw [ht, hocc]⟩
    · have := standing_cast hs
      omega

/-- A vote against a player in the game is genuine. -/
theorem Genuine.castBallot {p : Poll} (h : Genuine p) (who : Slot) {m : Motion} (hm : m ∈ ntsCommands)
    (hp : m.player = true) {t : Slot} (he : p.entered t = true) :
    Genuine { p with
      roster := castVote p.roster p.now who (m.start + t.val)
      ballots := Function.update p.ballots who
        (Function.update (p.ballots who) (m.start + t.val) (some (p.ballot who t))) } := by
  refine ⟨h.clock, ?_, ?_⟩
  · intro v k hk hpos
    simp only [voting_castVote] at hpos ⊢
    by_cases hv : v = who
    · subst hv
      rw [Function.update_self]
      by_cases hkt : k = m.start + t.val
      · subst hkt
        rw [Function.update_self]
        exact ⟨_, rfl, by simp [Poll.ballot], rfl, le_refl _⟩
      · rw [Function.update_of_ne hkt]
        simp only [hkt, and_false, if_false] at hpos ⊢
        exact h.cast v k hk hpos
    · rw [Function.update_of_ne hv]
      simp only [hv, false_and, if_false] at hpos ⊢
      exact h.cast v k hk hpos
  · intro m' hm' hp' t' v he' hs
    by_cases hvt : v = who ∧ m'.start + t'.val = m.start + t.val
    · obtain ⟨rfl, hk⟩ := hvt
      obtain ⟨rfl, rfl⟩ := start_inj hm' hp' hm hp hk
      refine ⟨p.ballot v t', ?_, ?_⟩
      · dsimp only
        rw [Function.update_self, Function.update_self]
      · unfold Poll.ballot
        rw [if_pos he']
    · have hold : standing p.roster p.now m' (m'.start + t'.val) v = true := by
        rw [← hs]
        refine (standing_congr ?_ _).symm
        rw [voting_castVote, if_neg hvt]
      obtain ⟨b, hb, ht⟩ := h.against m' hm' hp' t' v he' hold
      refine ⟨b, ?_, ht⟩
      rw [← hb]
      dsimp only
      by_cases hv : v = who
      · subst hv
        rw [Function.update_self, Function.update_of_ne fun hk => hvt ⟨rfl, hk⟩]
      · rw [Function.update_of_ne hv]

/-! ## Every step keeps the votes genuine -/

/-- What `do_vote` does with a vote, and with the ballot: nothing, or the vote is entered; then it may be counted. -/
theorem voteFor_cases (r : Roster) (now : Int) (who : Slot) (m : Motion) (player : Option Slot) (what : Nat) :
    ((voteFor r now who m player what).1 = r ∧ (voteFor r now who m player what).2.isEntered = false) ∨
      ((voteFor r now who m player what).2.isEntered = true ∧
        ((voteFor r now who m player what).1 = castVote r now who what ∨
          (voteFor r now who m player what).1 = resetVotes (castVote r now who what) what)) := by
  unfold voteFor
  dsimp only
  split
  · exact .inl ⟨rfl, rfl⟩
  split
  · exact .inl ⟨rfl, rfl⟩
  split
  · exact .inr ⟨rfl, .inl rfl⟩
  refine .inr ⟨rfl, ?_⟩
  dsimp only
  split
  · exact .inr rfl
  · exact .inl rfl

theorem Genuine.resetVotes {p : Poll} (h : Genuine p) (what : Nat) :
    Genuine { p with roster := SlotMaint.resetVotes p.roster what } := by
  refine h.of_le (le_refl _) rfl rfl rfl ?_
  intro v k _
  show Function.update (p.roster.desks v).voting what (-1) k = _ ∨ Function.update (p.roster.desks v).voting what (-1) k ≤ 0
  by_cases hk : k = what
  · subst hk
    rw [Function.update_self]
    exact .inr (by omega)
  · rw [Function.update_of_ne hk]
    exact .inl rfl

/-- A vote is a ballot of its voter, against the player who is meant. -/
theorem Genuine.vote {p : Poll} (h : Genuine p) {who : Slot} {m : Motion} {a : Argument} (hm : m ∈ ntsCommands)
    (hfair : (PollStep.vote who m a).fair p) : Genuine (PollStep.run p (.vote who m a)) := by
  show Genuine { p with roster := (doVote p.roster p.now who m a).1, ballots := p.castBallot who m a }
  unfold Poll.castBallot doVote
  by_cases ho : (p.roster.player who).status = .pobserv
  · simp only [ho, if_true, Outcome.isEntered, Bool.and_false, Bool.false_eq_true, if_false]
    split <;> exact h
  simp only [ho, if_false]
  cases hp : m.player with
  | true =>
    cases hg : getplayer p.roster who a with
    | none => simpa using h
    | some t =>
      have he := hfair hp t hg
      simp only [if_true, Bool.true_and]
      rcases voteFor_cases p.roster p.now who m (some t) (m.start + t.val) with ⟨hr, hb⟩ | ⟨hb, hr | hr⟩ <;>
        rw [hr, hb]
      · exact h
      · exact h.castBallot who hm hp he
      · exact (h.castBallot who hm hp he).resetVotes _
  | false =>
    -- a motion against nobody has no entry below `pvOther`
    have hstart : pvOther ≤ m.start := by
      unfold ntsCommands at hm
      simp only [List.mem_cons, List.not_mem_nil, or_false] at hm
      rcases hm with rfl | rfl | rfl | rfl | rfl | rfl | rfl | rfl | rfl <;> first | exact absurd hp (by decide) | decide
    have hcast : Genuine { p with roster := castVote p.roster p.now who m.start } := by
      refine h.of_le (le_refl _) rfl rfl rfl ?_
      intro v k hk
      left
      dsimp only
      rw [voting_castVote, if_neg]
      rintro ⟨-, rfl⟩
      omega
    simp only [Bool.false_eq_true, if_false, Bool.false_and]
    have hbal : (match getplayer p.roster who a with
      | some _ => p.ballots
      | none => p.ballots) = p.ballots := by split <;> rfl
    rw [hbal]
    rcases voteFor_cases p.roster p.now who m none m.start with ⟨hr, -⟩ | ⟨-, hr | hr⟩ <;> rw [hr]
    · exact h
    · exact hcast
    · exact hcast.resetVotes _

/-- The votes of a slot are cleared below `pvOther`, whatever is left above. -/
theorem voting_clearVotes (d : Desk) {k : Nat} (h : k < pvOther) : d.clearVotes.voting k = 0 := by
  unfold Desk.clearVotes pvOther maxPlayer at *
  exact if_pos (by unfold sizeofTime votingBytes sizeofTime maxPlayer pvExtra; omega)

/-- The slot that is given starts without votes, and the others keep theirs. -/
theorem voting_pickslot (r : Roster) (q : Nat) (v : Slot) :
    ((pickslot r q).2 ≠ v.val ∧ ((pickslot r q).1.desks v).voting = (r.desks v).voting) ∨
      ((pickslot r q).2 = v.val ∧ ∀ k < pvOther, ((pickslot r q).1.desks v).voting k = 0) := by
  have hnone : (-1 : Int) ≠ v.val := by omega
  unfold pickslot
  dsimp only
  split
  · exact .inl ⟨by dsimp only; omega, rfl⟩
  split
  · exact .inl ⟨hnone, rfl⟩
  split
  · exact .inl ⟨hnone, rfl⟩
  rcases scanqueue_spec (setSem r q ((r.queues q).enterSem - 1)) q with ⟨i, -, ⟨hf, hv⟩, h⟩ | ⟨-, h⟩
  · rw [h]
    dsimp only [slotNumber]
    unfold pickslotAction
    rw [if_neg (not_not_intro hf), hv]
    simp only [Bool.false_eq_true, if_false, desks_setSem, Roster.desks_addFree, Roster.desks_modifyDesk,
      Roster.desks_modifyPlayer]
    by_cases hi : v = i
    · subst hi
      right
      rw [if_pos rfl]
      exact ⟨rfl, fun k hk => voting_clearVotes _ hk⟩
    · left
      rw [if_neg hi]
      refine ⟨?_, rfl⟩
      intro he
      exact hi (Fin.ext (by omega))
  · rw [h]
    exact .inl ⟨hnone, rfl⟩

theorem voting_freeslot (r : Roster) (who v : Slot) {k : Nat} (hk : k < pvOther) :
    (((freeslot r who).1.desks v).voting k = (r.desks v).voting k) ∨ ((freeslot r who).1.desks v).voting k ≤ 0 := by
  unfold freeslot
  simp only [Roster.desks_modifyDesk, Roster.desks_addFree, Roster.desks_modifyPlayer]
  by_cases hv : v = who
  · subst hv
    right
    rw [if_pos rfl]
    exact (voting_clearVotes _ hk).le
  · left
    rw [if_neg hv]
    split <;> rfl

/-- A slot that is picked begins without votes. -/
theorem Genuine.pick {p : Poll} (h : Genuine p) (q : Nat) : Genuine (PollStep.run p (.pick q)) := by
  refine ⟨h.clock, ?_, ?_⟩
  · intro v k hk hpos
    dsimp only [PollStep.run] at hpos ⊢
    rcases voting_pickslot p.roster q v with ⟨hn, hv⟩ | ⟨-, hz⟩
    · rw [hv] at hpos ⊢
      rw [if_neg hn]
      exact h.cast v k hk hpos
    · rw [hz k hk] at hpos
      exact absurd hpos (by omega)
  · intro m hm hp t v he hs
    dsimp only [PollStep.run] at he hs ⊢
    by_cases ht : (pickslot p.roster q).2 = t.val
    · rw [if_pos ht] at he
      exact absurd he (by decide)
    · rw [if_neg ht] at he
      rcases voting_pickslot p.roster q v with ⟨-, hv⟩ | ⟨-, hz⟩
      · rw [standing_congr (congrFun hv _)] at hs
        obtain ⟨b, hb, hbt⟩ := h.against m hm hp t v he hs
        exact ⟨b, hb, by rw [if_neg ht, hbt]⟩
      · have := standing_cast hs
        rw [hz _ (start_lt hm hp t)] at this
        exact absurd this (by omega)

/-- Entering resets the votes to eject; no others stand, or they were cast against the same player. -/
theorem Genuine.enter {p : Poll} (h : Genuine p) {me : Slot} {e : Entry} (hfair : (PollStep.enter me e).fair p) :
    Genuine (PollStep.run p (.enter me e)) := by
  have hvote (v : Slot) (k : Nat) : ((SlotMaint.enter p.roster me e).desks v).voting k =
      if k = pvEject + me.val then -1 else (p.roster.desks v).voting k := by
    show Function.update (p.roster.desks v).voting (pvEject + me.val) (-1) k = _
    rw [Function.update_apply]
  refine ⟨h.clock, ?_, ?_⟩
  · intro v k hk hpos
    dsimp only [PollStep.run] at hpos ⊢
    rw [hvote] at hpos ⊢
    by_cases hke : k = pvEject + me.val
    · rw [if_pos hke] at hpos
      exact absurd hpos (by omega)
    · rw [if_neg hke] at hpos ⊢
      exact h.cast v k hk hpos
  · intro m hm hp t v he hs
    dsimp only [PollStep.run] at he hs ⊢
    have hke : m.start + t.val ≠ pvEject + me.val := by
      intro hke
      have := standing_cast hs
      rw [hvote, if_pos hke] at this
      exact absurd this (by omega)
    have hold : standing p.roster p.now m (m.start + t.val) v = true := by
      rw [← hs]
      refine (standing_congr ?_ _).symm
      rw [hvote, if_neg hke]
    by_cases ht : t = me
    · subst ht
      cases hent : p.entered t with
      | true => exact h.against m hm hp t v hent hold
      | false =>
        obtain ⟨hban, hnopick⟩ := hfair hent v
        rcases against_player hm hp with rfl | rfl | rfl
        · exact absurd rfl hke
        · exact absurd (hban.symm.trans hold) (by decide)
        · exact absurd (hnopick.symm.trans hold) (by decide)
    · rw [Function.update_of_ne ht] at he
      exact h.against m hm hp t v he hold

/-- Every step keeps the votes genuine. -/
theorem Genuine.run {p : Poll} (s : PollStep) (h : Genuine p) (hl : s.lawful p) (hf : s.fair p) : Genuine (s.run p) := by
  cases s with
  | vote who m a => exact h.vote hl.2 hf
  | pick q => exact h.pick q
  | free who => exact h.of_le (le_refl _) rfl rfl rfl fun v k hk => voting_freeslot p.roster who v hk
  | enter me e => exact h.enter hf
  | play i q => exact h.of_le (le_refl _) rfl rfl rfl fun v k _ => .inl rfl
  | tick seconds => exact h.of_le (by show p.now ≤ p.now + seconds; omega) rfl rfl rfl fun v k _ => .inl rfl

/-! ## The votes that are counted -/

/-- The server at its start: nobody has voted. -/
structure Opened (p : Poll) : Prop where
  clock : 0 < p.now
  voting : ∀ v k, (p.roster.desks v).voting k = 0
  entered : ∀ t, p.entered t = false

/-- A step that callers may take, and that waits for its player. -/
def PollStep.ok (p : Poll) (s : PollStep) : Prop := s.lawful p ∧ s.fair p

instance (p : Poll) (s : PollStep) : Decidable (s.ok p) := inferInstanceAs (Decidable (s.lawful p ∧ s.fair p))

theorem Opened.genuine {p : Poll} (h : Opened p) : Genuine p := by
  refine ⟨h.clock, ?_, ?_⟩
  · intro v k _ hpos
    rw [h.voting] at hpos
    exact absurd hpos (by omega)
  · intro m _ _ t v he
    rw [h.entered] at he
    exact absurd he (by decide)

/-- Both ways to count ask for more than half. -/
theorem passes_iff (m : Motion) (vcount pcount : Nat) :
    passes m vcount pcount = true ↔ m.minpass ≤ vcount ∧ pcount < 2 * vcount := by
  unfold passes
  cases m.team <;> simp only [Bool.and_eq_true, Bool.or_eq_true, decide_eq_true_iff, Bool.not_false, Bool.not_true,
    Bool.false_eq_true, and_true, true_and, and_false, false_and, or_false, false_or]
  omega

/-- What the count says, when there is one. -/
theorem voteFor_counted {r : Roster} {now : Int} {who : Slot} {m : Motion} {player : Option Slot} {what : Nat}
    {voted nv : List Slot} {pass : Bool} (h : (voteFor r now who m player what).2 = .counted voted nv pass) :
    voted = ((List.finRange maxPlayer).filter (eligible r m who)).filter
        (fun j => standing (castVote r now who what) now m what j) ∧
      pass = passes m voted.length ((List.finRange maxPlayer).filter (eligible r m who)).length := by
  have heligible : (eligible (castVote r now who what) m who) = eligible r m who := rfl
  unfold voteFor at h
  dsimp only at h
  rw [heligible] at h
  split at h
  · cases h
  split at h
  · cases h
  split at h
  · cases h
  cases h
  exact ⟨rfl, rfl⟩

/-- Which motion a count is about. -/
theorem doVote_counted {r : Roster} {now : Int} {who : Slot} {m : Motion} {a : Argument} {voted nv : List Slot}
    {pass : Bool} (h : (doVote r now who m a).2 = .counted voted nv pass) :
    (m.player = false ∧ (voteFor r now who m none m.start).2 = .counted voted nv pass) ∨
      ∃ t, m.player = true ∧ getplayer r who a = some t ∧
        (voteFor r now who m (some t) (m.start + t.val)).2 = .counted voted nv pass := by
  unfold doVote at h
  split at h
  · cases h
  cases hp : m.player with
  | false =>
    rw [hp] at h
    exact .inl ⟨rfl, h⟩
  | true =>
    rw [hp] at h
    cases hg : getplayer r who a with
    | none =>
      rw [hg] at h
      cases h
    | some t =>
      rw [hg] at h
      exact .inr ⟨t, rfl, rfl, h⟩

/-- In a run in which nobody is voted against before it enters, and nobody enters a slot that votes stand against:
the votes counted against a player were cast by the people now in the slots, in time, and against the player now in the
slot after it entered. A motion passes if enough have voted, and more than half of those who may. -/
theorem votes_of_present {p₀ p : Poll} {steps : List PollStep} (h₀ : Opened p₀)
    (h : Run PollStep.ok PollStep.run p₀ steps p) {who : Slot} {m : Motion} {a : Argument} {voted nv : List Slot} {pass : Bool}
    (hok : (PollStep.vote who m a).ok p) (hc : (doVote p.roster p.now who m a).2 = .counted voted nv pass) :
    (∀ t, m.player = true → getplayer p.roster who a = some t → ∀ v ∈ voted,
      ∃ b, (PollStep.run p (.vote who m a)).ballots v (m.start + t.val) = some b ∧ b.voter = p.occupant v ∧
        b.target = some (p.occupant t) ∧ b.time ≤ p.now ∧ p.now < b.time + m.expiretime) ∧
      (∀ v ∈ voted, eligible p.roster m who v = true) ∧
      (pass = true ↔ m.minpass ≤ voted.length ∧
        ((List.finRange maxPlayer).filter (eligible p.roster m who)).length < 2 * voted.length) := by
  obtain ⟨hl, hf⟩ := hok
  have hg : Genuine p := h.inv (fun p s hs hg => hg.run s hs.1 hs.2) h₀.genuine
  rcases doVote_counted hc with ⟨hp, hv⟩ | ⟨t, hp, hget, hv⟩
  · obtain ⟨hvoted, hpass⟩ := voteFor_counted hv
    refine ⟨fun t hp' => absurd (hp.symm.trans hp') (by decide), ?_, by rw [hpass, passes_iff]⟩
    rw [hvoted]
    exact fun v hv => (List.mem_filter.1 (List.mem_filter.1 hv).1).2
  · obtain ⟨hvoted, hpass⟩ := voteFor_counted hv
    refine ⟨?_, ?_, by rw [hpass, passes_iff]⟩
    · rintro t' - hget' v hmem
      obtain rfl : t = t' := Option.some.inj (hget.symm.trans hget')
      have hcast := hg.castBallot who hl.2 hp (hf hp t hget)
      rw [hvoted] at hmem
      have hstand := (List.mem_filter.1 hmem).2
      obtain ⟨b, hb, htime, hvoter, hle⟩ := hcast.cast v _ (start_lt hl.2 hp t) (standing_cast hstand)
      obtain ⟨b', hb', htarget⟩ := hcast.against m hl.2 hp t v (hf hp t hget) hstand
      obtain rfl : b = b' := Option.some.inj (hb.symm.trans hb')
      refine ⟨b, ?_, hvoter, htarget, hle, ?_⟩
      · have hent : (doVote p.roster p.now who m a).2.isEntered = true := by
          rw [hc]
          rfl
        show p.castBallot who m a v _ = _
        unfold Poll.castBallot
        rw [hget, hp, hent]
        exact hb
      · unfold standing at hstand
        simp only [Bool.and_eq_true, Bool.or_eq_true, decide_eq_true_iff, beq_iff_eq] at hstand
        rcases hstand.2 with he | hlt
        · rcases against_player hl.2 hp with rfl | rfl | rfl <;> exact absurd he (by decide)
        · dsimp only at htime
          rw [htime]
          exact hlt
    · rw [hvoted]
      exact fun v hv => (List.mem_filter.1 (List.mem_filter.1 hv).1).2

/-! ## A vote that outlives its target -/

/-- The server at its start. -/
def opened : Poll := ⟨booted ⟨false, true, false⟩, 1000, 0, fun _ => 0, fun _ => false, fun _ _ => none⟩

/-- A federation player enters a slot and is alive. -/
def joins (i : Slot) : List PollStep :=
  [.pick Queue.quPickup, .enter i ⟨0, .cruiser, "", 0, 0, 0, false, false, none⟩,
    .play i { (default : Player) with status := .palive, team := fed }]

/-- Three players are in the game. -/
def joined : Poll := (joins 0 ++ joins 1 ++ joins 2).foldl PollStep.run opened

theorem opened_opened : Opened opened := ⟨by decide, fun _ _ => rfl, fun _ => rfl⟩

/-- One of the three votes to eject another. -/
theorem votes_of_present_eject :
    ∃ b, (PollStep.run joined (.vote 0 eject (.slot 2))).ballots 0 2 = some b ∧ b.target = some (joined.occupant 2) := by
  have hrun : Run PollStep.ok PollStep.run opened (joins 0 ++ joins 1 ++ joins 2) joined :=
    .of_allowedAll _ _ (by decide +kernel)
  have hok : (PollStep.vote 0 eject (.slot 2)).ok joined := by decide +kernel
  have hcounted : (doVote joined.roster joined.now 0 eject (.slot 2)).2 = .counted [0] [1, 2] false := by decide +kernel
  obtain ⟨hv, -⟩ := votes_of_present opened_opened hrun hok hcounted
  obtain ⟨b, hb, -, ht, -⟩ := hv 2 rfl (by decide +kernel) 0 (by decide)
  exact ⟨b, hb, ht⟩

/-- Three of four vote to ban the fifth, who quits; another takes the slot. -/
def banned : List PollStep :=
  joins 0 ++ joins 1 ++ joins 2 ++ joins 3 ++ joins 4 ++
    [.vote 0 ban (.slot 4), .vote 1 ban (.slot 4), .tick 30, .vote 2 ban (.slot 4), .free 4, .tick 20] ++ joins 4

/-- The fourth vote bans the newcomer, by the votes against the player before. -/
theorem vote_outlives_target :
    Opened opened ∧ Run PollStep.lawful PollStep.run opened banned (banned.foldl PollStep.run opened) ∧
      (PollStep.vote 3 ban (.slot 4)).lawful (banned.foldl PollStep.run opened) ∧
      (doVote (banned.foldl PollStep.run opened).roster (banned.foldl PollStep.run opened).now 3 ban (.slot 4)).2 =
        .counted [0, 1, 2, 3] [4] true ∧
      ((banned.foldl PollStep.run opened).ballots 0 (pvBan + 4)).map Ballot.target ≠
        some (some ((banned.foldl PollStep.run opened).occupant 4)) := by
  refine ⟨opened_opened, .of_allowedAll _ _ ?_, ?_, ?_, ?_⟩
  · decide +kernel
  · decide +kernel
  · decide +kernel
  · decide +kernel

end Netrek.SlotMaint
