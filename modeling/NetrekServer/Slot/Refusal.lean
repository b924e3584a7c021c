/-
The requests that `do_vote` of `ntserv/gencmds.c` refuses. All but one are refused before the vote is entered; that
one may not eject oneself is found after, and the vote stays in `voting[]`, where the next vote counts it.
-/
import NetrekServer.Slot.Vote

namespace Netrek.SlotMaint

/-! ## Refusals -/

def Outcome.isRefused : Outcome → Bool
  | .counted .. => false
  | _ => true

/-- A refused request leaves every vote as it was, so that no later vote finds a difference. -/
def RefusalInert (r : Roster) (now : Int) (who : Slot) (m : Motion) (a : Argument) : Prop :=
  (doVote r now who m a).2.isRefused = true →
    (∀ j, ((doVote r now who m a).1.desks j).voting = (r.desks j).voting) ∧
      ∀ now' who' m' a', (doVote (doVote r now who m a).1 now' who' m' a').2 = (doVote r now' who' m' a').2

/-- One voted for this motion too short a time ago. -/
def votedLately (r : Roster) (now : Int) (who : Slot) (m : Motion) (what : Nat) : Prop :=
  (r.desks who).voting what ≠ 0 ∧ m.frequency ≠ 0 ∧ now < (r.desks who).voting what + m.frequency

/-- A vote to eject oneself that no earlier check refuses, other than one entered this very second. -/
structure EjectsSelf (r : Roster) (now : Int) (who : Slot) (m : Motion) (a : Argument) : Prop where
  status : (r.player who).status ≠ .pobserv
  motion : m.player = true ∧ m.command = "EJECT"
  target : getplayer r who a = some who
  entry : m.start + who.val < pvTotal
  time : ¬ votedLately r now who m (m.start + who.val)
  changes : (r.desks who).voting (m.start + who.val) ≠ now

/-! ## What a refusal changes -/

/-- A vote entered anew in the same second is the same vote. -/
theorem castVote_self {r : Roster} {now : Int} {who : Slot} {what : Nat} (h : (r.desks who).voting what = now) :
    castVote r now who what = r := by
  subst h
  unfold castVote Roster.modifyDesk
  dsimp only
  rw [Function.update_eq_self]
  exact congrArg (fun desks => { r with desks := desks }) (Function.update_eq_self who r.desks)

/-- A refusal before the vote is entered changes nothing; after, it is the player who would be ejected. -/
theorem voteFor_refused {r : Roster} {now : Int} {who : Slot} {m : Motion} {player : Option Slot} {what : Nat}
    (h : (voteFor r now who m player what).2.isRefused = true) :
    (voteFor r now who m player what).1 = r ∨
      (m.command = "EJECT" ∧ player = some who ∧ what < pvTotal ∧ ¬ votedLately r now who m what ∧
        (voteFor r now who m player what).1 = castVote r now who what) := by
  unfold voteFor at h ⊢
  dsimp only at h ⊢
  split
  · exact .inl rfl
  split
  · exact .inl rfl
  split
  · rename_i hentry htime hself
    exact .inr ⟨hself.1, hself.2, by omega, htime, rfl⟩
  · rename_i hentry htime hself
    rw [if_neg hentry, if_neg htime, if_neg hself] at h
    cases h

/-- A vote to eject oneself is entered, and refused. -/
theorem EjectsSelf.doVote_eq {r : Roster} {now : Int} {who : Slot} {m : Motion} {a : Argument}
    (h : EjectsSelf r now who m a) :
    doVote r now who m a = (castVote r now who (m.start + who.val), .ejectSelf) := by
  unfold doVote
  rw [if_neg h.status, if_pos h.motion.1, h.target]
  have hentry : ¬ pvTotal ≤ m.start + who.val := Nat.not_le.2 h.entry
  have htime := h.time
  unfold votedLately at htime
  unfold voteFor
  dsimp only
  rw [if_neg hentry, if_neg htime, if_pos ⟨h.motion.2, rfl⟩]

/-- Any other refused request leaves the roster as it is. -/
theorem doVote_refused {r : Roster} {now : Int} {who : Slot} {m : Motion} {a : Argument}
    (h : (doVote r now who m a).2.isRefused = true) (hself : ¬ EjectsSelf r now who m a) :
    (doVote r now who m a).1 = r := by
  unfold doVote at h ⊢
  by_cases ho : (r.player who).status = .pobserv
  · rw [if_pos ho]
  rw [if_neg ho] at h ⊢
  cases hp : m.player with
  | false =>
    rw [hp] at h
    rcases voteFor_refused h with hr | ⟨-, hnone, -⟩
    · exact hr
    · cases hnone
  | true =>
    cases hg : getplayer r who a with
    | none => rfl
    | some t =>
      rw [hp, hg] at h
      rcases voteFor_refused h with hr | ⟨hc, ht, hentry, htime, hr⟩
      · exact hr
      · obtain rfl := Option.some.inj ht
        refine hr.trans (castVote_self ?_)
        by_contra hne
        exact hself ⟨ho, ⟨hp, hc⟩, hg, hentry, htime, hne⟩

/-- A refused request changes nothing unless it is a vote to eject oneself that passed the checks before. -/
theorem refusalInert_iff (r : Roster) (now : Int) (who : Slot) (m : Motion) (a : Argument) :
    RefusalInert r now who m a ↔ ¬ EjectsSelf r now who m a := by
  constructor
  · intro h hself
    rw [RefusalInert, hself.doVote_eq] at h
    have hvote := congrFun ((h rfl).1 who) (m.start + who.val)
    rw [voting_castVote, if_pos ⟨rfl, rfl⟩] at hvote
    exact hself.changes hvote.symm
  · intro hself h
    rw [doVote_refused h hself]
    exact ⟨fun _ => rfl, fun _ _ _ _ => rfl⟩

/-- A vote to eject oneself stands, until it expires. -/
theorem EjectsSelf.standing {r : Roster} {now now' : Int} {who : Slot} {m : Motion} {a : Argument}
    (h : EjectsSelf r now who m a) (hpos : 0 < now) (hlate : now' < now + m.expiretime) :
    standing (doVote r now who m a).1 now' m (m.start + who.val) who = true := by
  rw [h.doVote_eq]
  unfold SlotMaint.standing
  rw [voting_castVote, if_pos ⟨rfl, rfl⟩]
  simp [hpos, hlate]

/-- Two of three vote to eject the third: the first does, and then the third does, in vain. -/
theorem eject_self_counted :
    ¬ RefusalInert joined.roster joined.now 2 eject (.slot 2) ∧
      (doVote (doVote joined.roster joined.now 2 eject (.slot 2)).1 joined.now 0 eject (.slot 2)).2 =
        .counted [0, 2] [1] true ∧
      (doVote joined.roster joined.now 0 eject (.slot 2)).2 = .counted [0] [1, 2] false := by
  refine ⟨?_, by decide +kernel, by decide +kernel⟩
  intro h
  have hvote := congrFun ((h (by decide +kernel)).1 2) 2
  exact absurd hvote (by decide +kernel)

end Netrek.SlotMaint
