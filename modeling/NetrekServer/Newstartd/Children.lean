/-
How the listener counts its children, and which child each datagram port waits for. Both are right as long as no
child of `statistics` is reaped, and as long as a reload leaves the records of running children alone.
-/
import NetrekServer.Newstartd.Basic
import NetrekServer.Lib.Run

namespace Netrek.Newstartd

open Netrek.Lib

/-! ## Children -/

/-- The children that run a program. -/
def running (s : Netrekd) : Nat := s.children.countP Child.runs

/-- The count is right and within the limit; and a port that waits for a child waits for one that was started for
it, and no longer than until this child is reaped. -/
structure Counted (s : Netrekd) : Prop where
  active : s.active = running s
  limit : (running s : Int) ≤ maxProcesses + 1
  child : ∀ i < s.numProgs, (s.prog i).child ≠ 0 → (s.prog i).type = .dgram ∧
    ⟨(s.prog i).child, .program (s.prog i).toPort⟩ ∈ s.children ∧ ((reaper s (s.prog i).child).prog i).child = 0

/-- The same for the whole table, with room for a client who is admitted. -/
structure Accounted (s : Netrekd) : Prop where
  active : s.active = running s
  limit : s.active ≤ maxProcesses + 1
  room : ∀ i, s.point = .admitted i → s.active ≤ maxProcesses
  pids : (s.children.map Child.pid).Nodup
  child : ∀ i, (s.prog i).child ≠ 0 →
    (s.prog i).type = .dgram ∧ ⟨(s.prog i).child, .program (s.prog i).toPort⟩ ∈ s.children

theorem Accounted.counted {s : Netrekd} (h : Accounted s) : Counted s := by
  refine ⟨h.active, h.active ▸ h.limit, fun i hi hne => ?_⟩
  obtain ⟨htype, hmem⟩ := h.child i hne
  refine ⟨htype, hmem, ?_⟩
  unfold reaper
  dsimp only
  rw [if_pos ⟨hi, rfl⟩]

theorem accounted_start : Accounted start := by
  refine ⟨rfl, by decide, nofun, List.nodup_nil, fun i hi => ?_⟩
  exact absurd rfl hi

/-- What a reload must leave alone, and which children may be reaped: an entry whose child runs keeps its port,
only children that run a program are reaped, and none whose record is no longer in the table. -/
def fine (s : Netrekd) : Act → Prop
  | .line l => ∀ i, s.point = .reading i → (s.prog i).child ≠ 0 → l.toPort = (s.prog i).toPort
  | .eof => s.point = .reading 0 → (s.prog 0).child ≠ 0 → (s.prog 0).port = defaultPort
  | .reap pid =>
    (∀ c ∈ s.children, c.pid = pid → c.runs = true) ∧ ∀ i, s.numProgs ≤ i → (s.prog i).child ≠ pid
  | _ => True

section Steps

variable {s : Netrekd}

/-- Nobody is forked or reaped, and the records of running children keep their ports. -/
theorem Accounted.kept (h : Accounted s) {s' : Netrekd} (ha : s'.active = s.active) (hc : s'.children = s.children)
    (hroom : ∀ i, s'.point = .admitted i → s.active ≤ maxProcesses)
    (hprog : ∀ i, (s'.prog i).child = (s.prog i).child ∧
      ((s.prog i).child ≠ 0 → (s'.prog i).toPort = (s.prog i).toPort)) : Accounted s' := by
  have hrun : running s' = running s := by
    unfold running
    rw [hc]
  refine ⟨?_, ?_, ?_, ?_, fun i hi => ?_⟩
  · rw [ha, hrun]
    exact h.active
  · rw [ha]
    exact h.limit
  · rw [ha]
    exact hroom
  · rw [hc]
    exact h.pids
  · obtain ⟨hchild, hport⟩ := hprog i
    rw [hchild] at hi
    obtain ⟨htype, hmem⟩ := h.child i hi
    rw [hc, hchild, hport hi]
    exact ⟨htype, hmem⟩

/-- One record changes. -/
theorem kept_modifyProg {i : Nat} {f : ProgRecord → ProgRecord} (hchild : (f (s.prog i)).child = (s.prog i).child)
    (hport : (s.prog i).child ≠ 0 → (f (s.prog i)).toPort = (s.prog i).toPort) (k : Nat) :
    ((s.modifyProg i f).prog k).child = (s.prog k).child ∧
      ((s.prog k).child ≠ 0 → ((s.modifyProg i f).prog k).toPort = (s.prog k).toPort) := by
  rw [Netrekd.prog_modifyProg]
  split
  · next hk =>
    subst hk
    exact ⟨hchild, hport⟩
  · exact ⟨rfl, fun _ => rfl⟩

theorem Accounted.readLine (h : Accounted s) {i : Nat} {l : Line} (hpoint : s.point = .reading i)
    (hfine : (s.prog i).child ≠ 0 → l.toPort = (s.prog i).toPort) : Accounted (readLine s i l) := by
  have hentry := kept_modifyProg (s := s) (i := i) (f := readEntry l) rfl hfine
  unfold Newstartd.readLine
  dsimp only
  split
  · refine h.kept rfl rfl (fun k hk => ?_) hentry
    cases hpoint.symm.trans hk
  split
  · exact h.kept rfl rfl nofun hentry
  · exact h.kept rfl rfl nofun hentry

theorem Accounted.readEnd (h : Accounted s) {i : Nat}
    (hfine : i = 0 → (s.prog 0).child ≠ 0 → (s.prog 0).port = defaultPort) : Accounted (readEnd s i) := by
  unfold Newstartd.readEnd
  split
  · next hi =>
    refine h.kept rfl rfl nofun (kept_modifyProg (f := standardEntry) rfl fun hc => ?_)
    unfold standardEntry
    rw [← hfine hi hc]
  · exact h.kept rfl rfl nofun fun _ => ⟨rfl, fun _ => rfl⟩

theorem Accounted.check (h : Accounted s) (i : Nat) (denied : Bool) : Accounted (check s i denied) := by
  unfold Newstartd.check
  split
  · have hentry := kept_modifyProg (s := s) (i := i) (f := fun p => { p with denials := p.denials + 1 }) rfl fun _ => rfl
    exact h.kept rfl rfl nofun hentry
  split
  · exact h.kept rfl rfl nofun fun _ => ⟨rfl, fun _ => rfl⟩
  · next hlimit =>
    exact h.kept rfl rfl (fun _ _ => by omega) fun _ => ⟨rfl, fun _ => rfl⟩

/-- A child that `statistics` has forked is not counted. -/
theorem Accounted.statistics (h : Accounted s) {pid : Option Nat}
    (hpid : ∀ p, pid = some p → ∀ c ∈ s.children, c.pid ≠ p) : Accounted ((statistics s pid).goto .listening) := by
  cases pid with
  | none => exact h.kept rfl rfl nofun fun _ => ⟨rfl, fun _ => rfl⟩
  | some p =>
    refine ⟨?_, h.limit, nofun, ?_, fun i hi => ?_⟩
    · exact h.active
    · refine List.nodup_cons.mpr ⟨fun hmem => ?_, h.pids⟩
      obtain ⟨c, hc, hcp⟩ := List.mem_map.mp hmem
      exact hpid p rfl c hc hcp
    · obtain ⟨htype, hmem⟩ := h.child i hi
      exact ⟨htype, List.mem_cons_of_mem _ hmem⟩

/-- A child more, if it could be started. -/
theorem Accounted.execute (h : Accounted s) {i : Nat} {pid : Option Nat} (hroom : s.active ≤ maxProcesses)
    (hpid : ∀ p, pid = some p → ∀ c ∈ s.children, c.pid ≠ p) : Accounted ((execute s i pid).goto .listening) := by
  cases pid with
  | none => exact h.kept rfl rfl nofun fun _ => ⟨rfl, fun _ => rfl⟩
  | some p =>
    unfold Newstartd.execute
    dsimp only
    generalize hX : (if (s.prog i).type = .dgram then _ else _ : Netrekd) = X
    have hX : X.active = s.active ∧ X.children = ⟨p, .program (s.prog i).toPort⟩ :: s.children ∧
        ∀ k, (X.prog k).toPort = (s.prog k).toPort ∧
          ((X.prog k).child = (s.prog k).child ∨ k = i ∧ (s.prog i).type = .dgram ∧ (X.prog k).child = p) := by
      rw [← hX]
      -- a datagram entry remembers its child, a stream entry does not
      split
      · next htype =>
        refine ⟨rfl, rfl, fun k => ?_⟩
        rw [Netrekd.prog_modifyProg]
        split
        · next hk =>
          subst hk
          exact ⟨rfl, .inr ⟨rfl, htype, rfl⟩⟩
        · exact ⟨rfl, .inl rfl⟩
      · exact ⟨rfl, rfl, fun k => ⟨rfl, .inl rfl⟩⟩
    obtain ⟨ha, hc, hprog⟩ := hX
    have hforks := kept_modifyProg (s := X) (i := i) (f := fun p => { p with forks := p.forks + 1 }) rfl fun _ => rfl
    refine ⟨?_, ?_, nofun, ?_, fun k hk => ?_⟩
    -- one more child, and one more counted
    · show X.active + 1 = (X.children.countP Child.runs : Int)
      rw [ha, hc, h.active, List.countP_cons_of_pos rfl]
      rfl
    · show X.active + 1 ≤ maxProcesses + 1
      omega
    · show (X.children.map Child.pid).Nodup
      rw [hc]
      refine List.nodup_cons.mpr ⟨fun hmem => ?_, h.pids⟩
      obtain ⟨c, hin, hcp⟩ := List.mem_map.mp hmem
      exact hpid p rfl c hin hcp
    -- the entry that remembers a child is an old one, or the one just served
    · obtain ⟨hchild, hport⟩ := hforks k
      obtain ⟨hsame, hcase⟩ := hprog k
      have hk : (X.prog k).child ≠ 0 := fun h0 => hk (hchild.trans h0)
      have hport := (hport hk).trans hsame
      generalize hZ : X.modifyProg i _ = Z at hchild hport ⊢
      have hchildren : Z.children = X.children := by
        rw [← hZ]
        rfl
      show (Z.prog k).toPort.type = .dgram ∧ Child.mk (Z.prog k).child (.program (Z.prog k).toPort) ∈ Z.children
      rw [hport, hchild, hchildren, hc]
      rcases hcase with hold | ⟨rfl, htype, hnew⟩
      · rw [hold] at hk ⊢
        obtain ⟨htype, hmem⟩ := h.child k hk
        exact ⟨htype, List.mem_cons_of_mem _ hmem⟩
      · rw [hnew]
        exact ⟨htype, List.mem_cons_self⟩

/-- One of the children is reaped. -/
theorem countP_reaped (pr : Child → Bool) : ∀ (l : List Child) {c : Child}, (l.map Child.pid).Nodup → c ∈ l →
    pr c = true → l.countP pr = (l.filter fun d => d.pid ≠ c.pid).countP pr + 1
  | [], _, _, hc, _ => nomatch hc
  | d :: l, c, hpids, hc, hp => by
    obtain ⟨hd, hpids⟩ := List.nodup_cons.mp hpids
    rcases List.mem_cons.mp hc with rfl | hin
    · have hrest : (l.filter fun d => d.pid ≠ c.pid) = l := by
        refine List.filter_eq_self.mpr fun d hdl => ?_
        rw [decide_eq_true_eq]
        exact fun heq => hd (List.mem_map.mpr ⟨d, hdl, heq⟩)
      rw [List.filter_cons_of_neg (by simp), hrest, List.countP_cons_of_pos hp]
    · have hne : d.pid ≠ c.pid := fun heq => hd (List.mem_map.mpr ⟨c, hin, heq.symm⟩)
      rw [List.filter_cons_of_pos (by simpa using hne), List.countP_cons, List.countP_cons,
        countP_reaped pr l hpids hin hp]
      omega

/-- A child is reaped, and counted off. -/
theorem Accounted.reap (h : Accounted s) {pid : Nat} (hok : lawful s (.reap pid)) (hfine : fine s (.reap pid)) :
    Accounted (reaper s pid) := by
  obtain ⟨c, hc, rfl⟩ := hok
  obtain ⟨hruns, hbeyond⟩ := hfine
  have hcount : running s = running (reaper s c.pid) + 1 :=
    countP_reaped Child.runs s.children h.pids hc (hruns c hc rfl)
  have hactive : (reaper s c.pid).active = s.active - 1 := rfl
  have hlimit := h.limit
  refine ⟨?_, ?_, fun i hi => ?_, ?_, fun i hi => ?_⟩
  · rw [hactive, h.active]
    omega
  · omega
  · have hroom := h.room i hi
    omega
  · exact (List.filter_sublist.map Child.pid).nodup h.pids
  · have hentry : (reaper s c.pid).prog i =
        if i < s.numProgs ∧ (s.prog i).child = c.pid then { s.prog i with child := 0 } else s.prog i := rfl
    rw [hentry] at hi ⊢
    split at hi
    · exact absurd rfl hi
    · next hno =>
      rw [if_neg hno]
      obtain ⟨htype, hmem⟩ := h.child i hi
      refine ⟨htype, List.mem_filter.mpr ⟨hmem, ?_⟩⟩
      rw [decide_eq_true_eq]
      intro heq
      by_cases hin : i < s.numProgs
      · exact hno ⟨hin, heq⟩
      · exact hbeyond i (Nat.le_of_not_lt hin) heq

/-- Every step that is fine. -/
theorem Accounted.step (h : Accounted s) {a : Act} (hok : lawful s a) (hfine : fine s a) : Accounted (step s a) := by
  have hsame (k : Nat) : (s.prog k).child = (s.prog k).child ∧
      ((s.prog k).child ≠ 0 → (s.prog k).toPort = (s.prog k).toPort) := ⟨rfl, fun _ => rfl⟩
  unfold Newstartd.step
  cases a with
  | line l =>
    cases hp : s.point with
    | reading i => exact h.readLine hp (hfine i hp)
    | _ => exact h
  | eof =>
    cases hp : s.point with
    | reading i =>
      refine h.readEnd fun hi => hfine ?_
      rw [hp, hi]
    | _ => exact h
  | openSocket i sock =>
    dsimp only
    -- a socket or a count in the table is no child
    split
    · next hp =>
      have hentry := kept_modifyProg (s := s) (i := i) (f := fun p => { p with sock := some sock }) rfl fun _ => rfl
      refine h.kept rfl rfl (fun k hk => ?_) hentry
      cases hp.symm.trans hk
    · exact h
  | accept i =>
    dsimp only
    split
    · have hentry := kept_modifyProg (s := s) (i := i) (f := fun p => { p with accepts := p.accepts + 1 }) rfl
        fun _ => rfl
      exact h.kept rfl rfl nofun hentry
    · exact h
  | check denied =>
    cases hp : s.point with
    | connected i => exact h.check i denied
    | _ => exact h
  | serve pid =>
    cases hp : s.point with
    | admitted i =>
      -- the kernel gives the child a process number that no child has
      have hpid : ∀ p, pid = some p → ∀ c ∈ s.children, c.pid ≠ p := by
        rintro p rfl
        exact hok.2
      dsimp only
      unfold serve
      split
      · exact h.statistics hpid
      · exact h.execute (h.room i hp) hpid
    | _ => exact h
  | hangup => exact h.kept rfl rfl h.room hsame
  | again =>
    dsimp only
    split
    · exact h.kept rfl rfl nofun hsame
    · exact h
  | reap pid => exact h.reap hok hfine

end Steps

/-! ## Runs -/

/-- Whatever connects, exits and is read, the children are counted, provided that every step is fine. -/
theorem children_counted {s : Netrekd} {acts : List Act}
    (hrun : Run (fun s a => lawful s a ∧ fine s a) step start acts s) : Counted s := by
  have hstep (s : Netrekd) (a : Act) (ha : lawful s a ∧ fine s a) (h : Accounted s) : Accounted (step s a) :=
    h.step ha.1 ha.2
  exact (hrun.inv hstep accounted_start).counted

/-- A datagram port, and a port for statistics. -/
def metaLine : Line := { host := none, port := 3521, udp := true, prog := "tools/players", accessible := true }
def statsLine : Line := { host := none, port := 2593, udp := false, prog := "special", accessible := false }

/-- A datagram comes, the port file is read again as it was, and the child exits. -/
def datagramRun : List Act :=
  [.line metaLine, .eof, .openSocket 0 4, .accept 0, .check false, .serve (some 100), .hangup, .again,
    .line metaLine, .eof, .reap 100]

/-- A run with a datagram. -/
theorem children_counted_reload : Counted (datagramRun.foldl step start) := by
  suffices hrun : Run (fun s a => lawful s a ∧ fine s a) step start datagramRun (datagramRun.foldl step start) from
    children_counted hrun
  unfold datagramRun
  refine .cons ⟨trivial, fun _ _ h => absurd rfl h⟩ (.cons ⟨trivial, nofun⟩ (.cons ⟨by decide, trivial⟩
    (.cons ⟨by decide, trivial⟩ (.cons ⟨trivial, trivial⟩ (.cons ⟨by decide, trivial⟩ (.cons ⟨trivial, trivial⟩
    (.cons ⟨trivial, trivial⟩ (.cons ⟨trivial, ?_⟩ (.cons ⟨trivial, nofun⟩ (.cons ⟨by decide, ?_, ?_⟩ (.nil _)))))))))))
  · intro i hi _
    cases hi
    rfl
  · decide
  · intro i hi hc
    cases i with
    | zero => exact absurd hi (by decide)
    | succ i => cases (show 0 = 100 from hc)

/-- A connection to the port for statistics, and the exit of its child. -/
def statsRun : List Act :=
  [.line statsLine, .eof, .openSocket 0 4, .accept 0, .check false, .serve (some 100), .reap 100]

theorem statistics_counted : ¬ ∀ (s : Netrekd) (acts : List Act), Run lawful step start acts s → Counted s := by
  intro hall
  have hrun : Run lawful step start statsRun (statsRun.foldl step start) := Run.of_allowedAll start statsRun (by decide)
  have hactive := (hall _ _ hrun).active
  revert hactive
  decide

end Netrek.Newstartd
