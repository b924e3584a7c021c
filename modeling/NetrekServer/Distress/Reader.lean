/-
The passes of `makedistress` as readers, which take one character after another. A reader keeps what the recursion of the
source keeps in its calls, so the only thing that can go wrong is the state in which it is left when the text ends.
-/
import NetrekServer.Distress.Macro

namespace Netrek.Distress

/-! ## The pass over conditionals -/

/-- How the next character is taken: by itself, as an escape, or without a look whether there is one. -/
inductive Taken
  | plain
  | escape
  | forced
  deriving DecidableEq

/-- `flag` and `include` of a call of `condmacro`. -/
structure Frame where
  flag : Bool
  incl : Bool

/-- The calls of `condmacro` that have not returned, and how deep a conditional is that is skipped. -/
structure Reader where
  taken : Taken
  calls : List Frame
  skipping : Option Nat
  sheet : Sheet

/-- `%` leads an escape in. -/
def takenAfter (c : Char) : Taken := if c == '%' then .escape else .plain

/-- A character within a conditional that is skipped. -/
def Reader.skip (r : Reader) (depth : Nat) (c : Char) : Reader :=
  if r.taken = .escape then
    match c with
    | '{' => { r with taken := .plain, skipping := some (depth + 1) }
    | '}' =>
      if depth = 0 then { r with taken := .plain, skipping := none }
      else { r with taken := .escape, skipping := some (depth - 1) }
    | '!' | '%' => { r with taken := .plain }
    | _ => { r with taken := .forced }
  else { r with taken := takenAfter c }

/-- A character of a call of `condmacro`. -/
def Reader.walk (r : Reader) (f : Frame) (calls : List Frame) (c : Char) : Reader :=
  if maxMacLen ≤ r.sheet.indb then r
  else if r.taken = .escape then
    match c with
    | '}' => { r with taken := .plain, calls := calls }
    | '{' =>
      let (newflag, s) := r.sheet.takeResult
      if f.incl then { r with taken := .plain, calls := ⟨newflag, newflag⟩ :: f :: calls, sheet := s }
      else { r with taken := .plain, skipping := some 0, sheet := { s with indb := s.indb + 1 } }
    | '!' => { r with taken := .plain, calls := ⟨f.flag, !f.flag⟩ :: calls }
    | '*' =>
      if f.incl then { r with taken := .plain, calls := calls, sheet := r.sheet.abort } else { r with taken := .plain }
    | '%' => { r with taken := .plain, sheet := if f.incl then r.sheet.push '%' else r.sheet }
    | _ => { r with taken := .forced }
  else if c == '%' then { r with taken := .escape }
  else { r with taken := .plain, sheet := if f.incl then r.sheet.push c else r.sheet }

def Reader.step (r : Reader) (c : Char) : Reader :=
  match r.calls, r.skipping with
  | [], _ => r
  | _ :: _, some depth => r.skip depth c
  | f :: calls, none => r.walk f calls c

def Reader.run (r : Reader) (text : List Char) : Reader := text.foldl Reader.step r

@[simp] theorem Reader.run_nil (r : Reader) : r.run [] = r := rfl
@[simp] theorem Reader.run_cons (r : Reader) (c : Char) (text : List Char) : r.run (c :: text) = (r.step c).run text := rfl

/-- After the last call has returned, nothing is read. -/
theorem Reader.run_returned {r : Reader} (h : r.calls = []) (text : List Char) : r.run text = r := by
  induction text with
  | nil => rfl
  | cons c text ih =>
    have hstep : r.step c = r := by
      unfold step
      rw [h]
    rw [run_cons, hstep, ih]

/-- When the text is full, nothing is read. -/
theorem Reader.run_full {r : Reader} (hskip : r.skipping = none) (hfull : maxMacLen ≤ r.sheet.indb) (text : List Char) :
    r.run text = r := by
  induction text with
  | nil => rfl
  | cons c text ih =>
    have hstep : r.step c = r := by
      unfold step
      rw [hskip]
      cases r.calls with
      | nil => rfl
      | cons f calls => exact if_pos hfull
    rw [run_cons, hstep, ih]

/-- How `state` has the next character taken. -/
def takenOf (state : Bool) : Taken := if state then .escape else .plain

/-! ### Skipping -/

/-- A reader within a conditional that is skipped. -/
def skipAt (taken : Taken) (f : Frame) (calls : List Frame) (depth : Nat) (s : Sheet) : Reader :=
  ⟨taken, f :: calls, some depth, s⟩

/-- The reader behind a conditional that is skipped. -/
def skipped (f : Frame) (calls : List Frame) (depth : Nat) (s : Sheet) : Reader :=
  if depth = 0 then ⟨.plain, f :: calls, none, s⟩ else ⟨.escape, f :: calls, some (depth - 1), s⟩

/-- What `skipmacro` may come to: it runs off the text, it returns behind the conditional, or the text ends first. -/
inductive Skips (f : Frame) (calls : List Frame) (depth : Nat) (s : Sheet) (start : Reader) (text : List Char) :
    Except Fault (List Char) → Prop
  | lost (h : (start.run text).taken = .forced) : Skips f calls depth s start text (.error .pastEnd)
  | closed (rest : List Char) (hle : rest.length ≤ text.length)
      (h : start.run text = (skipped f calls depth s).run rest) : Skips f calls depth s start text (.ok rest)
  | ended (hsheet : (start.run text).sheet = s) (htaken : (start.run text).taken ≠ .forced) :
      Skips f calls depth s start text (.ok [])

/-- What is left to read may be read by another reader. -/
theorem Skips.of_run {f : Frame} {calls : List Frame} {depth : Nat} {s : Sheet} {start start' : Reader}
    {text text' : List Char} {r : Except Fault (List Char)} (h : Skips f calls depth s start' text' r)
    (hrun : start.run text = start'.run text') (hle : text'.length ≤ text.length) :
    Skips f calls depth s start text r := by
  cases h with
  | lost h => exact .lost (by rw [hrun]; exact h)
  | closed rest hrest h => exact .closed rest (hrest.trans hle) (hrun.trans h)
  | ended hsheet htaken => exact .ended (by rw [hrun]; exact hsheet) (by rw [hrun]; exact htaken)

/-- One character more before the text. -/
theorem Skips.cons {f : Frame} {calls : List Frame} {depth : Nat} {s : Sheet} {start start' : Reader} {c : Char}
    {text : List Char} {r : Except Fault (List Char)} (h : Skips f calls depth s start' text r)
    (hstep : start.step c = start') : Skips f calls depth s start (c :: text) r :=
  h.of_run (by rw [Reader.run_cons, hstep]) (by simp)

theorem takenOf_ne_forced (state : Bool) : takenOf state ≠ .forced := by
  cases state <;> decide

/-- A character that is taken by itself, or without a look. -/
theorem skipAt_step {taken : Taken} (h : taken ≠ .escape) (f : Frame) (calls : List Frame) (depth : Nat) (s : Sheet)
    (c : Char) : (skipAt taken f calls depth s).step c = skipAt (takenOf (c == '%')) f calls depth s := by
  show (skipAt taken f calls depth s).skip depth c = _
  unfold Reader.skip skipAt
  dsimp only
  rw [if_neg h]
  rfl

theorem skipAt_escape (f : Frame) (calls : List Frame) (depth : Nat) (s : Sheet) (c : Char) :
    (skipAt .escape f calls depth s).step c =
      match c with
      | '{' => skipAt .plain f calls (depth + 1) s
      | '}' => skipped f calls depth s
      | '!' | '%' => skipAt .plain f calls depth s
      | _ => skipAt .forced f calls depth s := by
  show (skipAt .escape f calls depth s).skip depth c = _
  unfold Reader.skip skipAt
  dsimp only
  rw [if_pos rfl]
  rfl

/-- `skipmacro` does what the reader does that skips, one character after the other. -/
theorem skipMacro_skips (f : Frame) (calls : List Frame) (s : Sheet) :
    ∀ (fuel : Nat) (state : Bool) (depth : Nat) (text : List Char), text.length < fuel →
      Skips f calls depth s (skipAt (takenOf state) f calls depth s) text (skipMacro fuel state text) := by
  intro fuel
  induction fuel with
  | zero => exact fun _ _ text h => absurd h (Nat.not_lt_zero _)
  | succ fuel ih =>
    intro state depth text hlen
    cases text with
    | nil => exact .ended rfl (takenOf_ne_forced state)
    | cons c buf =>
      have hbuf : buf.length < fuel := by
        rw [List.length_cons] at hlen
        omega
      cases state with
      | false => exact (ih (c == '%') depth buf hbuf).cons (skipAt_step (by decide) ..)
      | true =>
        have hstep := skipAt_escape f calls depth s c
        show Skips f calls depth s (skipAt .escape f calls depth s) (c :: buf) _
        unfold skipMacro
        simp only [if_true]
        split
        -- a conditional within
        · refine Skips.cons ?_ hstep
          have hin := ih false (depth + 1) buf hbuf
          generalize skipMacro fuel false buf = r at hin
          cases hin with
          | lost h => exact .lost h
          | closed rest hle h => exact (ih true depth rest (by omega)).of_run h hle
          | ended hsheet htaken =>
            cases fuel with
            | zero => exact absurd hbuf (Nat.not_lt_zero _)
            | succ fuel => exact .ended hsheet htaken
        · exact .closed buf (by simp) (by rw [Reader.run_cons, hstep]; rfl)
        · exact (ih false depth buf hbuf).cons hstep
        · exact (ih false depth buf hbuf).cons hstep
        -- no escape: one character more is taken
        · have hother : (skipAt .escape f calls depth s).step c = skipAt .forced f calls depth s := by
            rw [hstep]
            split <;> first | rfl | contradiction
          cases buf with
          | nil => exact .lost (by rw [Reader.run_cons, hother]; rfl)
          | cons e buf =>
            rw [List.length_cons] at hbuf
            exact ((ih (e == '%') depth buf (by omega)).cons (skipAt_step (by decide) ..)).cons hother

/-! ### Calls -/

/-- A reader in a call of `condmacro`. -/
def walkAt (taken : Taken) (f : Frame) (calls : List Frame) (s : Sheet) : Reader := ⟨taken, f :: calls, none, s⟩

/-- What a call of `condmacro` may come to: it runs off the text, it returns to the call before, or the text ends or is full
    first. -/
inductive Conds (calls : List Frame) (start : Reader) (text : List Char) : Except Fault (List Char × Sheet) → Prop
  | lost (h : (start.run text).taken = .forced) : Conds calls start text (.error .pastEnd)
  | returned (rest : List Char) (s : Sheet) (hle : rest.length ≤ text.length)
      (h : start.run text = (⟨.plain, calls, none, s⟩ : Reader).run rest) : Conds calls start text (.ok (rest, s))
  | ended (rest : List Char) (s : Sheet) (hend : rest = [] ∨ maxMacLen ≤ s.indb) (hsheet : (start.run text).sheet = s)
      (htaken : (start.run text).taken ≠ .forced) : Conds calls start text (.ok (rest, s))

theorem Conds.of_run {calls : List Frame} {start start' : Reader} {text text' : List Char}
    {r : Except Fault (List Char × Sheet)} (h : Conds calls start' text' r) (hrun : start.run text = start'.run text')
    (hle : text'.length ≤ text.length) : Conds calls start text r := by
  cases h with
  | lost h => exact .lost (by rw [hrun]; exact h)
  | returned rest s hrest h => exact .returned rest s (hrest.trans hle) (hrun.trans h)
  | ended rest s hend hsheet htaken => exact .ended rest s hend (by rw [hrun]; exact hsheet) (by rw [hrun]; exact htaken)

theorem Conds.cons {calls : List Frame} {start start' : Reader} {c : Char} {text : List Char}
    {r : Except Fault (List Char × Sheet)} (h : Conds calls start' text r) (hstep : start.step c = start') :
    Conds calls start (c :: text) r :=
  h.of_run (by rw [Reader.run_cons, hstep]) (by simp)

section Walk

variable {taken : Taken} {s : Sheet} (f : Frame) (calls : List Frame) (c : Char)

theorem walkAt_step (h : taken ≠ .escape) (hroom : ¬maxMacLen ≤ s.indb) :
    (walkAt taken f calls s).step c =
      if c == '%' then walkAt .escape f calls s else walkAt .plain f calls (if f.incl then s.push c else s) := by
  show (walkAt taken f calls s).walk f calls c = _
  unfold Reader.walk walkAt
  dsimp only
  rw [if_neg hroom, if_neg h]

/-- A character behind a percent sign. -/
theorem walkAt_escape (hroom : ¬maxMacLen ≤ s.indb) :
    (walkAt .escape f calls s).step c =
      match c with
      | '}' => ⟨.plain, calls, none, s⟩
      | '{' =>
        if f.incl then walkAt .plain ⟨s.takeResult.1, s.takeResult.1⟩ (f :: calls) s.takeResult.2
        else skipAt .plain f calls 0 { s.takeResult.2 with indb := s.takeResult.2.indb + 1 }
      | '!' => walkAt .plain ⟨f.flag, !f.flag⟩ calls s
      | '*' => if f.incl then ⟨.plain, calls, none, s.abort⟩ else walkAt .plain f calls s
      | '%' => walkAt .plain f calls (if f.incl then s.push '%' else s)
      | _ => walkAt .forced f calls s := by
  show (walkAt .escape f calls s).walk f calls c = _
  unfold Reader.walk walkAt skipAt
  dsimp only
  rw [if_neg hroom, if_pos rfl]

end Walk

theorem condMacro_full {s : Sheet} (hfull : maxMacLen ≤ s.indb) (fuel : Nat) (flag incl state : Bool) (text : List Char) :
    condMacro (fuel + 1) flag incl state s text = .ok (text, s) := by
  cases text with
  | nil => rfl
  | cons c bufa => exact if_pos hfull

theorem condMacro_plain {s : Sheet} (hroom : ¬maxMacLen ≤ s.indb) (fuel : Nat) (flag incl : Bool) (c : Char)
    (bufa : List Char) : condMacro (fuel + 1) flag incl false s (c :: bufa) =
      if c == '%' then condMacro fuel flag incl true s bufa
      else condMacro fuel flag incl false (if incl then s.push c else s) bufa :=
  if_neg hroom

/-- A call that cannot go on returns at once. -/
theorem condMacro_stays {fuel : Nat} (hfuel : 0 < fuel) {rest : List Char} {s : Sheet}
    (hend : rest = [] ∨ maxMacLen ≤ s.indb) (flag incl : Bool) :
    condMacro fuel flag incl false s rest = .ok (rest, s) := by
  obtain ⟨fuel, rfl⟩ := Nat.exists_eq_succ_of_ne_zero hfuel.ne'
  rcases hend with rfl | hfull
  · rfl
  · exact condMacro_full hfull ..

/-- What a call within comes to, and the call that goes on behind it. -/
theorem Conds.within {f : Frame} {calls : List Frame} {start : Reader} {text : List Char}
    {r : Except Fault (List Char × Sheet)} {next : List Char × Sheet → Except Fault (List Char × Sheet)}
    (hin : Conds (f :: calls) start text r)
    (hnext : ∀ rest s, rest.length ≤ text.length → Conds calls (walkAt .plain f calls s) rest (next (rest, s)))
    (hstays : ∀ rest s, rest = [] ∨ maxMacLen ≤ s.indb → next (rest, s) = .ok (rest, s)) :
    Conds calls start text (r >>= next) := by
  cases hin with
  | lost h => exact .lost h
  | returned rest s hle h => exact (hnext rest s hle).of_run h hle
  | ended rest s hend hsheet htaken =>
    show Conds calls start text (next (rest, s))
    rw [hstays rest s hend]
    exact .ended rest s hend hsheet htaken

/-- What skipping comes to, and the call that goes on behind it. -/
theorem Skips.within {f : Frame} {calls : List Frame} {s : Sheet} {start : Reader} {text : List Char}
    {r : Except Fault (List Char)} {next : List Char → Except Fault (List Char × Sheet)}
    (hin : Skips f calls 0 s start text r)
    (hnext : ∀ rest, rest.length ≤ text.length → Conds calls (walkAt .plain f calls s) rest (next rest))
    (hstays : next [] = .ok ([], s)) : Conds calls start text (r >>= next) := by
  cases hin with
  | lost h => exact .lost h
  | closed rest hle h => exact (hnext rest hle).of_run h hle
  | ended hsheet htaken =>
    show Conds calls start text (next [])
    rw [hstays]
    exact .ended [] s (.inl rfl) hsheet htaken

/-- `condmacro` does what the reader does from where the conditional is taken, or is not. -/
theorem condMacro_conds : ∀ (fuel : Nat) (f : Frame) (calls : List Frame) (state : Bool) (s : Sheet) (text : List Char),
    text.length < fuel →
      Conds calls (walkAt (takenOf state) f calls s) text (condMacro fuel f.flag f.incl state s text) := by
  intro fuel
  induction fuel with
  | zero => exact fun _ _ _ _ text h => absurd h (Nat.not_lt_zero _)
  | succ fuel ih =>
    intro f calls state s text hlen
    by_cases hfull : maxMacLen ≤ s.indb
    · have hrun : (walkAt (takenOf state) f calls s).run text = _ := Reader.run_full rfl hfull text
      rw [condMacro_full hfull]
      exact .ended _ s (.inr hfull) (by rw [hrun]; rfl) (by rw [hrun]; exact takenOf_ne_forced state)
    cases text with
    | nil => exact .ended [] s (.inl rfl) rfl (takenOf_ne_forced state)
    | cons c bufa =>
      have hbufa : bufa.length < fuel := by
        rw [List.length_cons] at hlen
        omega
      -- a character by itself: the text goes on behind it
      have hplain {taken : Taken} (htaken : taken ≠ .escape) (c : Char) (bufa : List Char) (hbufa : bufa.length < fuel) :
          Conds calls (walkAt taken f calls s) (c :: bufa)
            (if c == '%' then condMacro fuel f.flag f.incl true s bufa
              else condMacro fuel f.flag f.incl false (if f.incl then s.push c else s) bufa) := by
        have hstep := walkAt_step f calls c htaken hfull
        by_cases hc : (c == '%') = true
        · rw [if_pos hc] at hstep ⊢
          exact (ih f calls true s bufa hbufa).cons hstep
        · rw [if_neg hc] at hstep ⊢
          exact (ih f calls false _ bufa hbufa).cons hstep
      cases state with
      | false =>
        rw [condMacro_plain hfull]
        exact hplain (by decide) c bufa hbufa
      | true =>
        have hstep := walkAt_escape f calls c hfull
        show Conds calls (walkAt .escape f calls s) (c :: bufa) _
        unfold condMacro
        simp only [if_neg hfull, if_true]
        split
        · exact .returned bufa s (by simp) (by rw [Reader.run_cons, hstep]; rfl)
        · refine Conds.cons ?_ hstep
          by_cases hincl : f.incl = true
          -- a call within, and what it leaves
          · simp only [if_pos hincl]
            refine (ih ⟨s.takeResult.1, s.takeResult.1⟩ (f :: calls) false s.takeResult.2 bufa hbufa).within ?_ ?_
            · exact fun rest s hle => ih f calls false s rest (by omega)
            · exact fun rest s hend => condMacro_stays (by omega) hend ..
          -- a conditional that is skipped
          · simp only [if_neg hincl]
            refine (skipMacro_skips f calls _ fuel false 0 bufa hbufa).within ?_ ?_
            · exact fun rest hle => ih f calls false _ rest (by omega)
            · exact condMacro_stays (by omega) (.inl rfl) ..
        · exact (ih ⟨f.flag, !f.flag⟩ calls false s bufa hbufa).cons hstep
        · by_cases hincl : f.incl = true
          · rw [if_pos hincl]
            exact .returned bufa s.abort (by simp) (by rw [Reader.run_cons, hstep]; simp only [if_pos hincl])
          · rw [if_neg hincl]
            exact (ih f calls false s bufa hbufa).cons (by rw [hstep]; simp only [if_neg hincl]; rfl)
        · exact (ih f calls false _ bufa hbufa).cons hstep
        -- no escape: one character more is taken
        · have hother : (walkAt .escape f calls s).step c = walkAt .forced f calls s := by
            rw [hstep]
            split <;> first | rfl | contradiction
          cases bufa with
          | nil => exact .lost (by rw [Reader.run_cons, hother]; rfl)
          | cons e bufa =>
            rw [List.length_cons] at hbufa
            exact (hplain (by decide) e bufa (by omega)).cons hother

/-- The reader of the third pass behind the text. -/
def readAll (junk : Nat → Char) (text : List Char) : Reader := (walkAt .plain ⟨true, true⟩ [] ⟨junk, 0, false⟩).run text

/-- The third pass runs off the text if its reader is left to take a character without a look, and only then. -/
theorem condMacro_run (junk : Nat → Char) (text : List Char) :
    (readAll junk text).taken = .forced ∧
        condMacro (text.length + 1) true true false ⟨junk, 0, false⟩ text = .error .pastEnd ∨
      (readAll junk text).taken ≠ .forced ∧ ∃ rest,
        condMacro (text.length + 1) true true false ⟨junk, 0, false⟩ text = .ok (rest, (readAll junk text).sheet) := by
  have hcall := condMacro_conds (text.length + 1) ⟨true, true⟩ [] false ⟨junk, 0, false⟩ text (by omega)
  dsimp only at hcall
  generalize condMacro (text.length + 1) true true false ⟨junk, 0, false⟩ text = result at hcall
  cases hcall with
  | lost h => exact .inl ⟨h, rfl⟩
  | returned rest s hle h =>
    have hr : readAll junk text = ⟨.plain, [], none, s⟩ := h.trans (Reader.run_returned rfl rest)
    exact .inr ⟨by rw [hr]; exact takenOf_ne_forced false, rest, by rw [hr]⟩
  | ended rest s hend hsheet htaken => exact .inr ⟨htaken, rest, by rw [← hsheet]; rfl⟩

/-! ## The pass over tests -/

/-- What the next character belongs to; of a test, what has been read of its sides. -/
inductive Part
  | plain
  | escape
  | left (bufh : List Char)
  | right (bufh : List Char) (operation : Char) (state : Bool) (bufc : List Char)

structure Tester where
  part : Part
  bufb : List Char

/-- A character behind `%`. -/
def afterEscape (bufb : List Char) (c : Char) : Tester :=
  match c with
  | '*' | '%' | '{' | '}' | '!' => ⟨.plain, bufb ++ ['%', c]⟩
  | '?' => ⟨.left [], bufb⟩
  | _ => ⟨.plain, bufb⟩

def Tester.step (t : Tester) (c : Char) : Tester :=
  match t.part with
  | .plain => if c == '%' then ⟨.escape, t.bufb⟩ else ⟨.plain, t.bufb ++ [c]⟩
  | .escape => afterEscape t.bufb c
  | .left bufh => ⟨if isOperation c then .right bufh c false [] else .left (bufh ++ [c]), t.bufb⟩
  | .right bufh operation state bufc =>
    if state && (c == '?' || c == '{') then afterEscape (t.bufb ++ flagText (compare bufh operation bufc)) c
    else if state && (c == '%' || c == '!' || c == '}') then ⟨.right bufh operation false (bufc ++ ['%', c]), t.bufb⟩
    else if c == '%' then ⟨.right bufh operation true bufc, t.bufb⟩
    else ⟨.right bufh operation false (bufc ++ [c]), t.bufb⟩

def Tester.run (t : Tester) (text : List Char) : Tester := text.foldl Tester.step t

@[simp] theorem Tester.run_nil (t : Tester) : t.run [] = t := rfl
@[simp] theorem Tester.run_cons (t : Tester) (c : Char) (text : List Char) : t.run (c :: text) = (t.step c).run text := rfl

/-- What has been made of the text, unless it ends within the left side of a test. -/
def Tester.result (t : Tester) : Option (List Char) :=
  match t.part with
  | .left _ => none
  | .right bufh operation _ bufc => some (t.bufb ++ flagText (compare bufh operation bufc))
  | _ => some t.bufb

/-- The right side of a test is no longer than what is left of it. -/
theorem rightSide_length (text : List Char) : ∀ (state : Bool) (prev : List Char), prev.length = text.length + 1 →
    (rightSide state prev text).1.length ≤ text.length + state.toNat ∧
      (rightSide state prev text).2.length ≤ text.length + 1 := by
  induction text with
  | nil => exact fun state prev _ => ⟨Nat.zero_le _, Nat.zero_le _⟩
  | cons c bufa ih =>
    intro state prev hprev
    have hfalse := ih false (c :: bufa) rfl
    have htrue := ih true (c :: bufa) rfl
    simp only [Bool.toNat_false, Bool.toNat_true] at hfalse htrue
    unfold rightSide
    split_ifs with hstop hspecial hescape
    · exact ⟨Nat.zero_le _, by rw [hprev]⟩
    · have hstate : state = true := (Bool.and_eq_true_iff.mp hspecial).1
      simp only [List.length_cons, hstate, Bool.toNat_true]
      omega
    · simp only [List.length_cons]
      omega
    · simp only [List.length_cons]
      omega

/-- The second loop of `solvetest` reads as the reader does. -/
theorem rightSide_run (bufh : List Char) (operation : Char) (bufb text : List Char) :
    ∀ (state : Bool) (prev bufc : List Char), (state = true → prev = '%' :: text) →
      (Tester.run ⟨.right bufh operation state bufc, bufb⟩ text).result =
        (Tester.run ⟨.plain, bufb ++ flagText (compare bufh operation (bufc ++ (rightSide state prev text).1))⟩
          (rightSide state prev text).2).result := by
  induction text with
  | nil =>
    intro state prev bufc _
    simp [rightSide, Tester.result]
  | cons c bufa ih =>
    intro state prev bufc hprev
    have hfalse := fun bufc => ih false (c :: bufa) bufc (by simp)
    rw [Tester.run_cons]
    unfold rightSide Tester.step
    dsimp only
    split_ifs with hstop hspecial hescape
    -- the text goes on at the character before
    · obtain ⟨hstate, hc⟩ := Bool.and_eq_true_iff.mp hstop
      rw [hprev hstate, List.append_nil]
      rfl
    · rw [hfalse, List.append_assoc]
      rfl
    · refine ih true (c :: bufa) bufc fun _ => ?_
      rw [beq_iff_eq.mp hescape]
    · rw [hfalse, List.append_assoc]
      rfl

/-- The first loop of `solvetest` reads as the reader does. -/
theorem left_run (bufb text : List Char) : ∀ bufh : List Char,
    Tester.run ⟨.left bufh, bufb⟩ text =
      match text.dropWhile fun c => !isOperation c with
      | [] => ⟨.left (bufh ++ text), bufb⟩
      | operation :: rest =>
        Tester.run ⟨.right (bufh ++ text.takeWhile fun c => !isOperation c) operation false [], bufb⟩ rest := by
  induction text with
  | nil =>
    intro bufh
    simp
  | cons c text ih =>
    intro bufh
    rw [Tester.run_cons]
    unfold Tester.step
    cases hc : isOperation c with
    | true => simp [hc]
    | false =>
      simp only [hc, Bool.false_eq_true, if_false, ih, List.dropWhile_cons, List.takeWhile_cons, Bool.not_false, if_true,
        List.append_assoc, List.cons_append, List.nil_append]

/-- `solvetest` runs off the text if the text has no operation, and else goes on where the reader does. -/
theorem solveTest_run (bufb text : List Char) (hlen : text.length < bufSize) :
    solveTest text = .error .pastEnd ∧ (Tester.run ⟨.left [], bufb⟩ text).result = none ∨
      ∃ result rest, solveTest text = .ok (result, rest) ∧ rest.length ≤ text.length ∧
        (Tester.run ⟨.left [], bufb⟩ text).result = (Tester.run ⟨.plain, bufb ++ flagText result⟩ rest).result := by
  have hrun := left_run bufb text []
  have hsplit := congrArg List.length (List.takeWhile_append_dropWhile (p := fun c => !isOperation c) (l := text))
  unfold solveTest
  dsimp only
  cases hdrop : text.dropWhile fun c => !isOperation c with
  | nil =>
    rw [hdrop] at hrun
    exact .inl ⟨rfl, by rw [hrun]; rfl⟩
  | cons operation bufa =>
    rw [hdrop] at hrun hsplit
    rw [List.length_append, List.length_cons] at hsplit
    obtain ⟨hbufc, hrest⟩ := rightSide_length bufa false (operation :: bufa) rfl
    rw [Bool.toNat_false] at hbufc
    refine .inr ⟨_, _, if_neg (by omega), by omega, ?_⟩
    rw [hrun, rightSide_run _ _ _ _ false (operation :: bufa) [] (by simp)]
    rfl

/-- What a reader comes to, as `testmacro` returns it. -/
def testResult : Option (List Char) → Except Fault (List Char)
  | none => .error .pastEnd
  | some bufb => .ok bufb

def partOf (state : Bool) : Part := if state then .escape else .plain

/-- `testmacro` reads as the reader does, as long as its buffer is not full. -/
theorem testMacro_run : ∀ (fuel : Nat) (state : Bool) (text bufb : List Char), text.length < fuel →
    bufb.length + state.toNat + text.length < bufSize →
      testMacro fuel state text bufb = testResult (Tester.run ⟨partOf state, bufb⟩ text).result := by
  intro fuel
  induction fuel with
  | zero => exact fun _ text _ h => absurd h (Nat.not_lt_zero _)
  | succ fuel ih =>
    intro state text bufb hlen hroom
    cases text with
    | nil => cases state <;> rfl
    | cons c bufa =>
      rw [List.length_cons] at hlen hroom
      have hfull : ¬bufSize ≤ bufb.length := by omega
      rw [Tester.run_cons]
      unfold testMacro
      rw [if_neg hfull]
      -- between two escapes the automaton copies the characters
      cases state with
      | false =>
        rw [Bool.toNat_false] at hroom
        simp only [Bool.false_eq_true, if_false]
        unfold Tester.step partOf
        dsimp only
        by_cases hc : (c == '%') = true
        · rw [if_pos hc, if_neg (by decide), if_pos hc]
          exact ih true bufa bufb (by omega) (by rw [Bool.toNat_true]; omega)
        · rw [if_neg hc, if_neg (by decide), if_neg hc]
          exact ih false bufa (bufb ++ [c]) (by omega) (by simp; omega)
      -- after a `%` two characters are copied, or a test is solved
      | true =>
        rw [Bool.toNat_true] at hroom
        have hpair : bufb.length < bufSize - 2 := by omega
        simp only [if_true, if_pos hpair]
        have hgo (e : Char) := ih false bufa (bufb ++ ['%', e]) (by omega) (by simp; omega)
        split
        · exact hgo '*'
        · exact hgo '%'
        · exact hgo '{'
        · exact hgo '}'
        · exact hgo '!'
        -- a test that loses its end is the overrun
        · have htest := solveTest_run bufb bufa (by omega)
          rcases htest with ⟨hlost, hnone⟩ | ⟨result, rest, hok, hle, hresult⟩
          · rw [hlost]
            show Except.error Fault.pastEnd = testResult (Tester.run ⟨.left [], bufb⟩ bufa).result
            rw [hnone]
            rfl
          · rw [hok]
            show testMacro fuel false rest (bufb ++ flagText result) = testResult (Tester.run ⟨.left [], bufb⟩ bufa).result
            rw [hresult]
            exact ih false rest (bufb ++ flagText result) (by omega) (by simp [flagText]; omega)
        -- any other escape is dropped
        · have hother : afterEscape bufb c = ⟨.plain, bufb⟩ := by
            unfold afterEscape
            split <;> first | rfl | contradiction
          show _ = testResult (Tester.run (afterEscape bufb c) bufa).result
          rw [hother]
          exact ih false bufa bufb (by omega) (by rw [Bool.toNat_false]; omega)

/-! ### The length of what is made -/

/-- How much a reader may have made of the text so far. -/
def Tester.weight (t : Tester) : Nat :=
  match t.part with
  | .plain => t.bufb.length
  | .escape | .left _ => t.bufb.length + 1
  | .right _ _ state _ => t.bufb.length + 1 + state.toNat

theorem afterEscape_weight (bufb : List Char) (c : Char) : (afterEscape bufb c).weight ≤ bufb.length + 2 := by
  unfold afterEscape
  split <;> simp [Tester.weight]

/-- A character adds at most one to the text. -/
theorem Tester.weight_step (t : Tester) (c : Char) : (t.step c).weight ≤ t.weight + 1 := by
  obtain ⟨part, bufb⟩ := t
  unfold step
  cases part with
  | plain =>
    dsimp only
    split <;> simp [weight]
  | escape => exact afterEscape_weight bufb c
  | left bufh =>
    dsimp only
    split <;> simp [weight]
  | right bufh operation state bufc =>
    dsimp only
    by_cases hstop : (state && (c == '?' || c == '{')) = true
    · rw [if_pos hstop]
      have hle := afterEscape_weight (bufb ++ flagText (compare bufh operation bufc)) c
      rw [(Bool.and_eq_true_iff.mp hstop).1]
      simp only [weight, flagText, List.length_append, List.length_singleton, Bool.toNat_true] at hle ⊢
      omega
    · rw [if_neg hstop]
      cases state <;> split <;> (try split) <;> simp [weight]

/-- The second pass makes no text longer. -/
theorem Tester.result_length {t : Tester} {text bufb : List Char} (h : (t.run text).result = some bufb) :
    bufb.length ≤ t.weight + text.length := by
  have hrun : (t.run text).weight ≤ t.weight + text.length := by
    clear h
    induction text generalizing t with
    | nil => exact le_refl _
    | cons c text ih =>
      have hstep := t.weight_step c
      rw [run_cons, List.length_cons]
      exact ih.trans (by omega)
  refine le_trans ?_ hrun
  generalize t.run text = u at h
  obtain ⟨part, made⟩ := u
  cases part <;> simp [result, weight, flagText] at h ⊢ <;> subst h <;> simp

/-! ## The pass over values -/

theorem slot_ok {i : Nat} (h : i < maxPlayer) : slot i = .ok ⟨i, h⟩ := dif_pos h

theorem slot_error {i : Nat} (h : ¬i < maxPlayer) : slot i = .error (.outOfRange .players i) := dif_neg h

theorem planet_ok {i : Nat} (h : i < maxPlanets) : planet i = .ok ⟨i, h⟩ := dif_pos h

theorem planet_error {i : Nat} (h : ¬i < maxPlanets) : planet i = .error (.outOfRange .planets i) := dif_neg h

/-- The bytes of a message that an escape takes for an index, and how many there are of what it takes. -/
def indexBytes (cap : Bool) (c : Char) : List (Nat × Nat) :=
  match c with
  | 'p' => [(12, maxPlayer)]
  | 'g' => [(14, maxPlayer)]
  | 'h' | 'K' | 'U' | 'u' => [(11, maxPlayer)]
  | 'P' => [(13, maxPlayer)]
  | 'G' => [(15, maxPlayer)]
  | 'H' => [(9, maxPlayer)]
  | 'k' => if cap then [(11, maxPlayer)] else []
  | 'B' | 'b' => [(8, maxPlanets)]
  | 'n' | 'L' | 'l' | 'Z' | 'z' | 't' => [(10, maxPlanets)]
  | _ => []

/-- The field of a record that is decoded from a byte. -/
def Call.field (d : Call) : Nat → Nat
  | 8 => d.closePl
  | 9 => d.closeEn
  | 10 => d.tclosePl
  | 11 => d.tcloseEn
  | 12 => d.tcloseJ
  | 13 => d.closeJ
  | 14 => d.tcloseFr
  | 15 => d.closeFr
  | _ => 0

/-- The escape finds what its indices name. -/
def Call.Names (d : Call) (cap : Bool) (c : Char) : Prop := ∀ x ∈ indexBytes cap c, d.field x.1 < x.2

/-- An escape has a value if it finds what its indices name, and else leaves a table. -/
inductive Escapes (d : Call) (cap : Bool) (c : Char) : Except Fault (List Char) → Prop
  | value (h : d.Names cap c) (text : List Char) : Escapes d cap c (.ok text)
  | leaves (h : ¬d.Names cap c) (t : Table) (i : Nat) : Escapes d cap c (.error (.outOfRange t i))

section Lookup

variable {d : Call} {cap : Bool} {c : Char}

theorem escapes_player (k : Nat) (h : indexBytes cap c = [(k, maxPlayer)]) (text : Slot → List Char) :
    Escapes d cap c (do return text (← slot (d.field k))) := by
  by_cases hk : d.field k < maxPlayer
  · rw [slot_ok hk]
    exact .value (by simpa [Call.Names, h] using hk) _
  · rw [slot_error hk]
    exact .leaves (by simpa [Call.Names, h] using hk) ..

theorem escapes_planet (k : Nat) (h : indexBytes cap c = [(k, maxPlanets)]) (text : Fin maxPlanets → List Char) :
    Escapes d cap c (do return text (← planet (d.field k))) := by
  by_cases hk : d.field k < maxPlanets
  · rw [planet_ok hk]
    exact .value (by simpa [Call.Names, h] using hk) _
  · rw [planet_error hk]
    exact .leaves (by simpa [Call.Names, h] using hk) ..

theorem escapes_both (hsender : d.sender < maxPlayer) (k : Nat) (h : indexBytes cap c = [(k, maxPlanets)])
    (text : Fin maxPlanets → Slot → List Char) :
    Escapes d cap c (do
      let l ← planet (d.field k)
      return text l (← slot d.sender)) := by
  rw [slot_ok hsender]
  exact escapes_planet k h fun l => text l ⟨d.sender, hsender⟩

theorem escapes_own (hsender : d.sender < maxPlayer) (h : indexBytes cap c = []) (text : Slot → List Char) :
    Escapes d cap c (do return text (← slot d.sender)) := by
  rw [slot_ok hsender]
  exact .value (by simp [Call.Names, h]) _

/-- Another player's if `cap` is set, and else the sender's. -/
theorem escapes_either (hsender : d.sender < maxPlayer) (k : Nat)
    (h : indexBytes cap c = if cap then [(k, maxPlayer)] else []) (text : Slot → List Char) :
    Escapes d cap c (do return text (← slot (if cap then d.field k else d.sender))) := by
  cases cap with
  | true => exact escapes_player k h text
  | false => exact escapes_own hsender h text

theorem escapes_text (h : indexBytes cap c = []) (text : List Char) : Escapes d cap c (.ok text) :=
  .value (by simp [Call.Names, h]) _

end Lookup

/-- An escape reads its tables only at the indices of the call. -/
theorem escape_escapes (g : Scene) {d : Call} (hsender : d.sender < maxPlayer) (cap : Bool) (c : Char) :
    Escapes d cap c (escape g d cap c) := by
  unfold escape
  split
  all_goals first
    | exact escapes_text rfl _
    | exact escapes_own hsender rfl _
    | exact escapes_player 9 rfl _
    | exact escapes_player 11 rfl _
    | exact escapes_player 12 rfl _
    | exact escapes_player 13 rfl _
    | exact escapes_player 14 rfl _
    | exact escapes_player 15 rfl _
    | exact escapes_planet 8 rfl _
    | exact escapes_planet 10 rfl _
    | exact escapes_both hsender 10 rfl fun l i =>
        itoa2 (if (g.mem.planets l).info.has (g.mem.players i).team then (g.mem.planets l).armies else -1)
    | exact escapes_either hsender 11 rfl _
    | skip
  -- no letter of an escape
  refine escapes_text ?_ _
  unfold indexBytes
  split <;> first | rfl | contradiction

/-! ### The whole macro -/

/-- No escape is cut off. -/
def whole : List Char → Bool
  | [] => true
  | ['%'] => false
  | '%' :: _ :: pm => whole pm
  | _ :: pm => whole pm

/-- The bytes that the escapes of a macro take for indices. -/
def macroBytes (cap : Bool) : List Char → List (Nat × Nat)
  | [] => []
  | ['%'] => []
  | '%' :: c :: pm => indexBytes cap c ++ macroBytes (capAfter cap c) pm
  | _ :: pm => macroBytes cap pm

/-- What an escape puts in its place, if it finds it. -/
def value (g : Scene) (d : Call) (cap : Bool) (c : Char) : List Char :=
  match escape g d cap c with
  | .ok text => text
  | .error _ => []

/-- The macro with its values. -/
def expansion (g : Scene) (d : Call) (cap : Bool) : List Char → List Char
  | [] => []
  | ['%'] => []
  | '%' :: c :: pm => value g d cap c ++ expansion g d (capAfter cap c) pm
  | c :: pm => c :: expansion g d cap pm

section Substitute

variable (g : Scene) {d : Call} {cap : Bool} {c : Char} {pm : List Char}

theorem escape_named (hsender : d.sender < maxPlayer) (h : d.Names cap c) :
    escape g d cap c = .ok (value g d cap c) := by
  have hesc := escape_escapes g hsender cap c
  unfold value
  generalize escape g d cap c = r at hesc
  cases hesc with
  | value _ text => rfl
  | leaves hno t i => exact absurd h hno

theorem escape_leaves (hsender : d.sender < maxPlayer) (h : ¬d.Names cap c) :
    ∃ t i, escape g d cap c = .error (.outOfRange t i) := by
  have hesc := escape_escapes g hsender cap c
  generalize escape g d cap c = r at hesc
  cases hesc with
  | value hyes text => exact absurd hyes h
  | leaves _ t i => exact ⟨t, i, rfl⟩

/-- The first pass, if the escapes find what their indices name. -/
theorem substitute_eq (hsender : d.sender < maxPlayer) (hnames : ∀ x ∈ macroBytes cap pm, d.field x.1 < x.2) :
    substitute g d cap pm = if whole pm then .ok (expansion g d cap pm) else .error .pastEnd := by
  fun_induction substitute g d cap pm with
  | case1 => rfl
  | case2 => rfl
  | case3 cap c pm ih =>
    rw [macroBytes] at hnames
    rw [escape_named g hsender fun x hx => hnames x (List.mem_append_left _ hx),
      ih fun x hx => hnames x (List.mem_append_right _ hx), whole, expansion]
    cases whole pm <;> rfl
  | case4 cap c pm hone htwo ih =>
    rw [macroBytes] at hnames
    · rw [ih hnames, whole, expansion]
      · cases whole pm <;> rfl
      all_goals assumption
    all_goals assumption

/-- The first pass leaves a table, if an escape does. -/
theorem substitute_leaves (hsender : d.sender < maxPlayer) (hwhole : whole pm = true)
    (h : ¬∀ x ∈ macroBytes cap pm, d.field x.1 < x.2) : ∃ t i, substitute g d cap pm = .error (.outOfRange t i) := by
  fun_induction substitute g d cap pm with
  | case1 => simp [macroBytes] at h
  | case2 => simp [macroBytes] at h
  | case3 cap c pm ih =>
    rw [macroBytes] at h
    rw [whole] at hwhole
    by_cases hc : d.Names cap c
    · rw [escape_named g hsender hc]
      have hrest : ¬∀ x ∈ macroBytes (capAfter cap c) pm, d.field x.1 < x.2 := by
        intro hall
        apply h
        intro x hx
        rcases List.mem_append.mp hx with hx | hx
        · exact hc x hx
        · exact hall x hx
      obtain ⟨t, i, heq⟩ := ih hwhole hrest
      exact ⟨t, i, by rw [heq]; rfl⟩
    · obtain ⟨t, i, heq⟩ := escape_leaves g hsender hc
      exact ⟨t, i, by rw [heq]; rfl⟩
  | case4 cap c pm hone htwo ih =>
    rw [macroBytes] at h
    · rw [whole] at hwhole
      · obtain ⟨t, i, heq⟩ := ih hwhole h
        exact ⟨t, i, by rw [heq]; rfl⟩
      all_goals assumption
    all_goals assumption

end Substitute

end Netrek.Distress
