/-
What the explosion of a torp leaves alone: the other torps, the planets, and all ships but the victim
and the two who may be credited; and what it does to a ship that is not one of these two.
-/
import NetrekServer.Daemon.Torps

namespace Netrek.Daemon

/-! ## Records of explosions -/

/-- A record that is not about an explosion or a launch. -/
def Plain : Event → Prop
  | .launched _ | .exploded _ | .hurt (some _) _ => False
  | _ => True

/-- How often `t_explosion` was called on a slot since a torp last began to move in it. -/
def explosions (k : Nat) : List Event → Nat
  | [] => 0
  | .launched i :: log => if i = k then 0 else explosions k log
  | .exploded i :: log => if i = k then explosions k log + 1 else explosions k log
  | _ :: log => explosions k log

/-- How often the torp of a slot damaged the ship `j` since it last began to move. -/
def hurts (k : Nat) (j : Slot) : List Event → Nat
  | [] => 0
  | .launched i :: log => if i = k then 0 else hurts k j log
  | .hurt (some i) v :: log => if i = k ∧ v = j then hurts k j log + 1 else hurts k j log
  | _ :: log => hurts k j log

theorem explosions_plain {k : Nat} {e : Event} (he : Plain e) (log : List Event) :
    explosions k (e :: log) = explosions k log := by
  cases e with
  | launched i => cases he
  | exploded i => cases he
  | _ => rfl

theorem hurts_plain {k : Nat} {j : Slot} {e : Event} (he : Plain e) (log : List Event) :
    hurts k j (e :: log) = hurts k j log := by
  cases e with
  | launched i => cases he
  | hurt i v =>
    cases i with
    | none => rfl
    | some i => cases he
  | _ => rfl

/-! ## Frames -/

/-- Only the ships of `touch` change, and none of them its team or its torps. -/
structure Calm (touch : Slot → Prop) (s s' : Server) : Prop where
  setup : s'.setup = s.setup
  torps : s'.mem.torps = s.mem.torps
  planets : s'.mem.planets = s.mem.planets
  tourn : s'.mem.status.tourn = s.mem.status.tourn
  gameup : s'.mem.status.gameup = s.mem.status.gameup
  keeps : ∀ i, (s'.player i).team = (s.player i).team ∧ (s'.player i).ntorp = (s.player i).ntorp ∧
    (s'.player i).nplasmatorp = (s.player i).nplasmatorp
  others : ∀ i, ¬ touch i → s'.player i = s.player i

/-- Besides, nothing is recorded of an explosion or a launch. -/
structure Frame (touch : Slot → Prop) (s s' : Server) : Prop extends Calm touch s s' where
  explosions : ∀ k, explosions k s'.log = explosions k s.log
  hurts : ∀ k j, hurts k j s'.log = hurts k j s.log

namespace Calm

variable {touch : Slot → Prop}

theorem refl (s : Server) : Calm touch s s := ⟨rfl, rfl, rfl, rfl, rfl, fun _ => ⟨rfl, rfl, rfl⟩, fun _ _ => rfl⟩

theorem trans {s s' s'' : Server} (h : Calm touch s s') (h' : Calm touch s' s'') : Calm touch s s'' where
  setup := h'.setup.trans h.setup
  torps := h'.torps.trans h.torps
  planets := h'.planets.trans h.planets
  tourn := h'.tourn.trans h.tourn
  gameup := h'.gameup.trans h.gameup
  keeps i := ⟨(h'.keeps i).1.trans (h.keeps i).1, (h'.keeps i).2.1.trans (h.keeps i).2.1,
    (h'.keeps i).2.2.trans (h.keeps i).2.2⟩
  others i hi := (h'.others i hi).trans (h.others i hi)

theorem mono {touch' : Slot → Prop} {s s' : Server} (h : Calm touch s s') (ht : ∀ i, touch i → touch' i) :
    Calm touch' s s' := { h with others := fun i hi => h.others i fun h => hi (ht i h) }

/-- Being idle depends on the ship, its planet and the game only. -/
theorem isIdle {s s' : Server} (h : Calm touch s s') {j : Slot} (hj : ¬ touch j) : s'.isIdle j = s.isIdle j := by
  unfold Server.isIdle Server.planet
  rw [h.others j hj, h.setup, h.planets, h.tourn]

end Calm

namespace Frame

variable {touch : Slot → Prop}

theorem refl (s : Server) : Frame touch s s := ⟨.refl s, fun _ => rfl, fun _ _ => rfl⟩

theorem trans {s s' s'' : Server} (h : Frame touch s s') (h' : Frame touch s' s'') : Frame touch s s'' where
  toCalm := h.toCalm.trans h'.toCalm
  explosions k := (h'.explosions k).trans (h.explosions k)
  hurts k j := (h'.hurts k j).trans (h.hurts k j)

theorem modifyPlayer (s : Server) {i : Slot} {f : Player → Player} (hi : touch i)
    (hf : ∀ p, (f p).team = p.team ∧ (f p).ntorp = p.ntorp ∧ (f p).nplasmatorp = p.nplasmatorp) :
    Frame touch s (s.modifyPlayer i f) := by
  refine ⟨⟨rfl, rfl, rfl, rfl, rfl, fun j => ?_, fun j hj => ?_⟩, fun _ => rfl, fun _ _ => rfl⟩
  · rw [Server.player_modifyPlayer]
    split
    · subst j; exact hf _
    · exact ⟨rfl, rfl, rfl⟩
  · rw [Server.player_modifyPlayer, if_neg]
    rintro rfl
    exact hj hi

theorem record (s : Server) {e : Event} (he : Plain e) : Frame touch s (s.record e) :=
  ⟨⟨rfl, rfl, rfl, rfl, rfl, fun _ => ⟨rfl, rfl, rfl⟩, fun _ _ => rfl⟩, fun _ => explosions_plain he _,
    fun _ _ => hurts_plain he _⟩

theorem ite {s s' : Server} {p : Prop} [Decidable p] (h : p → Frame touch s s') : Frame touch s (if p then s' else s) := by
  split
  · exact h ‹_›
  · exact refl s

theorem countKill (s : Server) : Frame touch s (countKill s) :=
  ite fun _ => ⟨⟨rfl, rfl, rfl, rfl, rfl, fun _ => ⟨rfl, rfl, rfl⟩, fun _ _ => rfl⟩, fun _ => rfl, fun _ _ => rfl⟩

theorem startWar (s : Server) {owner victim : Slot} (ho : touch owner) : Frame touch s (startWar s owner victim) :=
  ite fun _ => modifyPlayer s ho fun _ => ⟨rfl, rfl, rfl⟩

theorem inflict (s : Server) {j : Slot} (d : Int) (hj : touch j) :
    Frame touch s (s.modifyPlayer j fun p => inflict p d) := by
  refine modifyPlayer s hj fun p => ?_
  unfold Daemon.inflict
  split
  · split <;> exact ⟨rfl, rfl, rfl⟩
  · exact ⟨rfl, rfl, rfl⟩

theorem killmess (s : Server) {victim killer : Slot} (why : WhyDead) (hk : touch killer) :
    Frame touch s (killmess s victim killer why) := by
  unfold Daemon.killmess
  refine trans ?_ (ite fun _ => modifyPlayer _ hk fun _ => ⟨rfl, rfl, rfl⟩)
  exact record s trivial

end Frame

/-! ## The explosion of a torp -/

/-- The victim, the owner of the torp and the one who detonated it. -/
def Involved (t : Torp) (j i : Slot) : Prop := i = j ∨ i = t.owner ∨ t.whodet = some i

theorem involved_tKiller (s : Server) (t : Torp) (j : Slot) : Involved t j (tKiller s t j) := by
  unfold tKiller
  split
  · exact .inr (.inl rfl)
  · rename_i d hd
    split
    · exact .inr (.inr hd)
    · exact .inr (.inl rfl)

theorem frame_tKill (s : Server) (t : Torp) (j : Slot) : Frame (Involved t j) s (tKill s t j) := by
  unfold tKill
  refine Frame.trans ?_ (.killmess _ _ (.inr (.inl rfl)))
  refine Frame.trans ?_ (.record _ trivial)
  refine Frame.trans ?_ (.record _ trivial)
  refine Frame.trans ?_ (.countKill _)
  refine Frame.trans ?_ (.ite fun _ => .modifyPlayer _ (involved_tKiller s t j) fun _ => ⟨rfl, rfl, rfl⟩)
  exact .modifyPlayer _ (.inl rfl) fun _ => ⟨rfl, rfl, rfl⟩

/-- The damage that the ship `j` takes from a torp, if any. -/
def tHits (s : Server) (t : Torp) (j : Slot) : Option Int :=
  if (s.player j).status ≠ .palive ∨ tSpares s t j = true then none
  else (tDamage t (s.player j)).filter fun d => decide (0 < d)

/-- A turn of the loop of an explosion: nothing out of its reach, else damage, and a death perhaps. -/
theorem tExplosionOn_eq (k : Nat) (s : Server) (j : Slot) : tExplosionOn k s j =
    match tHits s (s.torp k) j with
    | none => s
    | some d =>
      let s1 := startWar ((s.record (.hurt (some k) j)).record (.torpDamage (s.torp k).type (s.torp k).owner j d))
        (s.torp k).owner j
      let s2 := s1.modifyPlayer j fun p => inflict p d
      if destroyed (s2.player j) then tKill s2 (s.torp k) j else s2 := by
  unfold tExplosionOn tHits
  simp only
  by_cases hj : (s.player j).status ≠ .palive
  · rw [if_pos hj, if_pos (.inl hj)]
  rw [if_neg hj]
  by_cases hs : tSpares s (s.torp k) j = true
  · rw [if_pos hs, if_pos (.inr hs)]
  rw [if_neg hs, if_neg (not_or.2 ⟨hj, hs⟩)]
  cases hd : tDamage (s.torp k) (s.player j) with
  | none => rfl
  | some d =>
    rw [Option.filter_some]
    by_cases hpos : d ≤ 0
    · simp only [if_pos hpos, if_neg (show ¬ decide (0 < d) = true by simpa using hpos)]
    · simp only [if_neg hpos, if_pos (show decide (0 < d) = true by simpa using hpos)]

theorem frame_hit {s s0 : Server} {t : Torp} {j : Slot} {d : Int} (hs : Frame (Involved t j) s0 s) :
    Frame (Involved t j) s0 (if destroyed ((s.modifyPlayer j fun p => inflict p d).player j) then
      tKill (s.modifyPlayer j fun p => inflict p d) t j else s.modifyPlayer j fun p => inflict p d) :=
  (hs.trans (.inflict s d (.inl rfl))).trans (.ite fun _ => frame_tKill _ t j)

/-- Either the ship is not hit, or that it is hurt is all that is recorded of the explosion. -/
theorem tExplosionOn_frame (k : Nat) (s : Server) (j : Slot) :
    Frame (Involved (s.torp k) j) (if tHits s (s.torp k) j = none then s else s.record (.hurt (some k) j))
      (tExplosionOn k s j) := by
  rw [tExplosionOn_eq]
  cases h : tHits s (s.torp k) j with
  | none => exact .refl s
  | some d =>
    rw [if_neg (by simp)]
    refine frame_hit (Frame.trans ?_ (.startWar _ (.inr (.inl rfl))))
    exact .record _ trivial

theorem tExplosionOn_calm (k : Nat) (s : Server) (j : Slot) :
    Calm (Involved (s.torp k) j) s (tExplosionOn k s j) := by
  have h := (tExplosionOn_frame k s j).toCalm
  split at h
  · exact h
  · exact ⟨h.setup, h.torps, h.planets, h.tourn, h.gameup, h.keeps, h.others⟩

theorem tExplosionOn_log (k : Nat) (s : Server) (j : Slot) :
    (∀ i, explosions i (tExplosionOn k s j).log = explosions i s.log) ∧
      ∀ i v, hurts i v (tExplosionOn k s j).log ≤ hurts i v s.log + if i = k ∧ v = j then 1 else 0 := by
  have h := tExplosionOn_frame k s j
  split at h
  · exact ⟨h.explosions, fun i v => by rw [h.hurts]; exact Nat.le_add_right _ _⟩
  · refine ⟨h.explosions, fun i v => ?_⟩
    rw [h.hurts]
    show (if k = i ∧ j = v then _ else _) ≤ _
    split
    · rename_i hi
      rw [if_pos ⟨hi.1.symm, hi.2.symm⟩]
    · exact Nat.le_add_right _ _

/-- The loop of `t_explosion`: each ship is hurt as often as it comes up. -/
theorem tExplosionLoop_log (k : Nat) : ∀ (js : List Slot) (s : Server),
    (∀ i, explosions i (js.foldl (tExplosionOn k) s).log = explosions i s.log) ∧
      ∀ i v, hurts i v (js.foldl (tExplosionOn k) s).log ≤ hurts i v s.log + if i = k then js.count v else 0
  | [], s => ⟨fun _ => rfl, fun _ _ => Nat.le_add_right _ _⟩
  | j :: js, s => by
    obtain ⟨he, hh⟩ := tExplosionOn_log k s j
    obtain ⟨he', hh'⟩ := tExplosionLoop_log k js (tExplosionOn k s j)
    refine ⟨fun i => (he' i).trans (he i), fun i v => (hh' i v).trans ?_⟩
    have h := hh i v
    have hbeq : (j == v) = true ↔ v = j := beq_iff_eq.trans eq_comm
    rw [List.count_cons, if_congr hbeq rfl rfl]
    by_cases hi : i = k
    · simp only [hi, true_and, if_true] at h ⊢
      omega
    · simp only [hi, false_and, if_false] at h ⊢
      omega

/-- The ships that an explosion may change. -/
def InBlast (t : Torp) (js : List Slot) (i : Slot) : Prop := i ∈ js ∨ i = t.owner ∨ t.whodet = some i

/-- The loop changes only players in the blast. -/
theorem tExplosionLoop_calm (k : Nat) : ∀ (js : List Slot) (s : Server),
    Calm (InBlast (s.torp k) js) s (js.foldl (tExplosionOn k) s)
  | [], s => .refl s
  | j :: js, s => by
    have h := tExplosionOn_calm k s j
    have ht : (tExplosionOn k s j).torp k = s.torp k := congrFun h.torps k
    have h' := tExplosionLoop_calm k js (tExplosionOn k s j)
    rw [ht] at h'
    refine Calm.trans (h.mono fun i hi => ?_) (h'.mono fun i hi => ?_)
    · rcases hi with rfl | hi
      · exact .inl List.mem_cons_self
      · exact .inr hi
    · rcases hi with hi | hi
      · exact .inl (List.mem_cons_of_mem _ hi)
      · exact .inr hi

/-! ## Bystanders -/

/-- What becomes of a ship that has no part in the torp. -/
def Struck (s : Server) (t : Torp) (j : Slot) (p' : Player) : Prop :=
  match tHits s t j with
  | none => p' = s.player j
  | some d => if destroyed (inflict (s.player j) d) then p'.status = .pexplode else p' = inflict (s.player j) d

theorem tHits_congr {touch : Slot → Prop} {s s' : Server} (h : Calm touch s s') (t : Torp) {j : Slot} (hj : ¬ touch j) :
    tHits s' t j = tHits s t j := by
  have hspares : tSpares s' t j = tSpares s t j := by
    unfold tSpares
    simp only [h.isIdle hj, h.others j hj, (h.keeps _).1]
  unfold tHits
  rw [hspares, h.others j hj]

/-- Another's torp kills. -/
theorem tKill_status {s : Server} {t : Torp} {j : Slot} (ho : j ≠ t.owner) (hd : t.whodet ≠ some j) :
    ((tKill s t j).player j).status = .pexplode := by
  have hk : j ≠ tKiller s t j := by
    intro h
    unfold tKiller at h
    split at h
    · exact ho h
    · rename_i d hw
      split at h
      · rw [h] at hd; exact hd hw
      · exact ho h
  have hj : ∀ i ≠ j, ∀ (s' : Server) (f : Player → Player), (s'.modifyPlayer i f).player j = s'.player j := by
    intro i hi s' f
    rw [Server.player_modifyPlayer, if_neg (Ne.symm hi)]
  have hcount : ∀ s' : Server, (countKill s').player j = s'.player j := by
    intro s'
    unfold countKill countTourn
    split <;> rfl
  unfold tKill killmess killerCredit
  simp only
  have hheal : ∀ (s' : Server) (c : Prop) [Decidable c],
      (if c then s'.modifyPlayer t.owner Player.heal else s').player j = s'.player j := by
    intro s' c _
    split
    · exact hj _ ho.symm _ _
    · rfl
  rw [hheal, Server.player_record, Server.player_record, Server.player_record, hcount]
  have hexpl : ∀ why who, ((pExplosion s j why who).player j).status = .pexplode := by
    intro why who
    unfold pExplosion
    rw [Server.player_modifyPlayer, if_pos rfl]
  split
  · rw [hj _ hk.symm]; exact hexpl _ _
  · exact hexpl _ _

/-- A player in the blast of another's torp is struck. -/
theorem tExplosionOn_struck {k : Nat} {s : Server} {j : Slot} (ho : j ≠ (s.torp k).owner)
    (hd : (s.torp k).whodet ≠ some j) : Struck s (s.torp k) j ((tExplosionOn k s j).player j) := by
  rw [tExplosionOn_eq]
  unfold Struck
  cases h : tHits s (s.torp k) j with
  | none => rfl
  | some d =>
    simp only
    have hwar : ∀ s' : Server, (startWar s' (s.torp k).owner j).player j = s'.player j := by
      intro s'
      unfold startWar
      simp only
      split
      · rw [Server.player_modifyPlayer, if_neg ho]
      · rfl
    rw [Server.player_modifyPlayer, if_pos rfl, hwar, Server.player_record, Server.player_record]
    split
    · exact tKill_status ho hd
    · rw [Server.player_modifyPlayer, if_pos rfl, hwar, Server.player_record, Server.player_record]

/-- In the loop a bystander is struck when it comes up, and not before or after. -/
theorem tExplosionLoop_struck (k : Nat) {j : Slot} : ∀ (js : List Slot) (s : Server), js.Nodup → j ∈ js →
    j ≠ (s.torp k).owner → (s.torp k).whodet ≠ some j →
    Struck s (s.torp k) j ((js.foldl (tExplosionOn k) s).player j)
  | [], _, _, hmem, _, _ => absurd hmem List.not_mem_nil
  | i :: js, s, hnodup, hmem, ho, hd => by
    rw [List.nodup_cons] at hnodup
    rw [List.foldl_cons]
    have hcalm := tExplosionOn_calm k s i
    have ht : (tExplosionOn k s i).torp k = s.torp k := congrFun hcalm.torps k
    by_cases hi : j = i
    · subst i
      have hrest := (tExplosionLoop_calm k js (tExplosionOn k s j)).others j
      rw [ht] at hrest
      rw [hrest (fun h => h.elim hnodup.1 fun h => h.elim ho hd)]
      exact tExplosionOn_struck ho hd
    · have hj : ¬ Involved (s.torp k) i j := fun h => h.elim hi fun h => h.elim ho hd
      have hrest := tExplosionLoop_struck k js (tExplosionOn k s i) hnodup.2 ((List.mem_cons.1 hmem).resolve_left hi)
      rw [ht] at hrest
      have h := hrest ho hd
      unfold Struck at h ⊢
      rw [tHits_congr hcalm _ hj, hcalm.others j hj] at h
      exact h

end Netrek.Daemon
