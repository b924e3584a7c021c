/-
`bans_check_permanent` of `ntserv/bans.c`. The banned file is read a piece at a time, a line unless it is longer than
the buffer. A hit on the login is not forgotten at the end of its line, and the end of the host part is looked for
beyond what was copied of it.
-/
import Mathlib.Data.List.Infix
import Mathlib.Data.List.TakeWhile
import Mathlib.Data.Nat.Find
import NetrekServer.Text

namespace Netrek.Bans

open Text (nul isSpace fgets fgets_short fgets_line)

/-! ## Reading -/

/-- A buffer of 160 holds so many characters and a NUL. -/
def lineRoom : Nat := 159

def logBuf : Nat := 64

/-- So many characters are copied into `host_buf`, whose last byte is left as it was. -/
def hostRoom : Nat := 63

/-- A piece that is looked at: what is before the last `@` and behind it. -/
structure Entry where
  login : List Char
  after : List Char
  deriving DecidableEq

/-- Comments, blank lines and pieces without `@` are passed over. -/
def entry? (piece : List Char) : Option Entry :=
  let line := piece.takeWhile (· ≠ nul)
  if line.head? = some '#' ∨ line.head? = some '\n' ∨ '@' ∉ line then none
  else
    let after := (line.reverse.takeWhile (· ≠ '@')).reverse
    some ⟨line.take (line.length - after.length - 1), after⟩

namespace Entry

/-- No end of the host part is found in what is copied of it. -/
def unended (e : Entry) : Bool := !(e.after.take hostRoom).any isSpace

/-- The host part, once its end is found. -/
def host (e : Entry) : List Char := (e.after.take hostRoom).takeWhile (!isSpace ·)

def loginHit (e : Entry) (login : List Char) : Bool := e.login.head? == some '*' || login == e.login

def hostHit (e : Entry) (host : List Char) : Bool := e.host.head? == some '*' || decide (e.host <:+: host) || host == e.host

end Entry

/-- The loop: `hit` after a login that matched, and `last` the last byte of `host_buf`. It is `none` if a buffer is
overrun. -/
def scan (login host : List Char) : Bool → Char → List Entry → Option Bool
  | _, _, [] => some false
  | hit, last, e :: es =>
    if logBuf ≤ e.login.length then none
    else if e.unended && !isSpace last then none
    else
      let last := if e.unended then nul else last
      let hit := hit || e.loginHit login
      if hit && e.hostHit host then some true else scan login host hit last es

def entries (content : List Char) : List Entry := (fgets lineRoom content).filterMap entry?

/-- `bans_check_permanent`; `last` is what the stack had in the last byte of `host_buf`. -/
def bansCheckPermanent (last : Char) (bannedFile : Option (List Char)) (login host : List Char) : Option Bool :=
  match bannedFile with
  | none => some false
  | some content => scan login host false last (entries content)

/-! ## What the scan comes to -/

variable {login host : List Char} {hit sound : Bool} {last : Char} {e : Entry} {es : List Entry} {k : Nat}

/-- At an entry a visitor is banned: the host part matches, and a login part did, of this entry or of one before. -/
def BansAt (login host : List Char) (hit : Bool) (es : List Entry) (k : Nat) : Prop :=
  (∃ e, es[k]? = some e ∧ e.hostHit host = true) ∧ (hit = true ∨ ∃ i ≤ k, ∃ d, es[i]? = some d ∧ d.loginHit login = true)

/-- At an entry a buffer is overrun: the login part has no room, or the end of the host part is not found; what follows
the part may happen to end it, once. -/
def OverrunsAt (sound : Bool) (es : List Entry) (k : Nat) : Prop :=
  ∃ e, es[k]? = some e ∧ (logBuf ≤ e.login.length ∨
    (e.unended = true ∧ (sound = false ∨ ∃ i < k, ∃ d, es[i]? = some d ∧ d.unended = true)))

theorem bansAt_zero : BansAt login host hit (e :: es) 0 ↔ e.hostHit host = true ∧ (hit || e.loginHit login) = true := by
  unfold BansAt
  simp

/-- The entries behind the first, with the hit carried along. -/
theorem bansAt_succ : BansAt login host hit (e :: es) (k + 1) ↔ BansAt login host (hit || e.loginHit login) es k := by
  unfold BansAt
  rw [List.getElem?_cons_succ]
  refine and_congr_right fun _ => ?_
  rw [Bool.or_eq_true, or_assoc]
  refine or_congr_right ?_
  constructor
  · rintro ⟨i, hi, d, hd, hl⟩
    cases i with
    | zero =>
      obtain rfl := Option.some.inj hd
      exact .inl hl
    | succ i => exact .inr ⟨i, by omega, d, hd, hl⟩
  · rintro (hl | ⟨i, hi, d, hd, hl⟩)
    · exact ⟨0, by omega, e, rfl, hl⟩
    · exact ⟨i + 1, by omega, d, hd, hl⟩

theorem overrunsAt_zero : OverrunsAt sound (e :: es) 0 ↔ logBuf ≤ e.login.length ∨ (e.unended && !sound) = true := by
  unfold OverrunsAt
  simp

/-- The entries behind the first, with the end of the buffer as it was left. -/
theorem overrunsAt_succ : OverrunsAt sound (e :: es) (k + 1) ↔ OverrunsAt (sound && !e.unended) es k := by
  unfold OverrunsAt
  rw [List.getElem?_cons_succ]
  refine exists_congr fun x => and_congr_right fun _ => or_congr_right (and_congr_right fun _ => ?_)
  rw [Bool.and_eq_false_iff, Bool.not_eq_false', or_assoc]
  refine or_congr_right ?_
  constructor
  · rintro ⟨i, hi, d, hd, hl⟩
    cases i with
    | zero =>
      obtain rfl := Option.some.inj hd
      exact .inl hl
    | succ i => exact .inr ⟨i, by omega, d, hd, hl⟩
  · rintro (hl | ⟨i, hi, d, hd, hl⟩)
    · exact ⟨0, by omega, e, rfl, hl⟩
    · exact ⟨i + 1, by omega, d, hd, hl⟩

/-- A file without long parts, whose lines all end, overruns nothing. -/
theorem not_overrunsAt {sound : Bool} {es : List Entry} (h : ∀ e ∈ es, e.login.length < logBuf ∧ e.unended = false)
    (k : Nat) : ¬ OverrunsAt sound es k := by
  rintro ⟨e, he, hlog | ⟨hend, -⟩⟩
  · exact absurd (h e (List.mem_of_getElem? he)).1 (Nat.not_lt.2 hlog)
  · rw [(h e (List.mem_of_getElem? he)).2] at hend
    cases hend

theorem isSpace_last : isSpace (if e.unended then nul else last) = (isSpace last && !e.unended) := by
  cases e.unended <;> simp [isSpace, nul]

/-- One entry: the scan is overrun, bans, or goes on. -/
theorem scan_cons (login host : List Char) (hit : Bool) (last : Char) (e : Entry) (es : List Entry) :
    (OverrunsAt (isSpace last) (e :: es) 0 ∧ scan login host hit last (e :: es) = none) ∨
      (¬ OverrunsAt (isSpace last) (e :: es) 0 ∧
        ((BansAt login host hit (e :: es) 0 ∧ scan login host hit last (e :: es) = some true) ∨
          (¬ BansAt login host hit (e :: es) 0 ∧ scan login host hit last (e :: es) =
            scan login host (hit || e.loginHit login) (if e.unended then nul else last) es))) := by
  rw [overrunsAt_zero, bansAt_zero, scan]
  by_cases hlog : logBuf ≤ e.login.length
  · exact .inl ⟨.inl hlog, if_pos hlog⟩
  rw [if_neg hlog]
  cases hend : e.unended && !isSpace last with
  | true => exact .inl ⟨.inr rfl, if_pos rfl⟩
  | false =>
    refine .inr ⟨by simp [hlog], ?_⟩
    rw [if_neg (by decide)]
    dsimp only
    cases hban : (hit || e.loginHit login) && e.hostHit host with
    | true => exact .inl ⟨(Bool.and_eq_true_iff.1 hban).symm, if_pos rfl⟩
    | false =>
      refine .inr ⟨fun h => ?_, if_neg (by decide)⟩
      rw [h.1, h.2] at hban
      cases hban

/-- The visitor is banned if there is an entry to ban for, up to which nothing is overrun. -/
theorem scan_true_iff : scan login host hit last es = some true ↔
    ∃ k, BansAt login host hit es k ∧ ∀ j ≤ k, ¬ OverrunsAt (isSpace last) es j := by
  induction es generalizing hit last with
  | nil =>
    refine iff_of_false (by simp [scan]) ?_
    rintro ⟨k, ⟨⟨e, he, -⟩, -⟩, -⟩
    cases he
  | cons e es ih =>
    rcases scan_cons login host hit last e es with ⟨hover, hs⟩ | ⟨hover, ⟨hban, hs⟩ | ⟨hban, hs⟩⟩
    · refine iff_of_false (by simp [hs]) ?_
      rintro ⟨k, -, hk⟩
      exact hk 0 (Nat.zero_le k) hover
    · refine iff_of_true hs ⟨0, hban, fun j hj => ?_⟩
      obtain rfl : j = 0 := by omega
      exact hover
    · rw [hs, ih, isSpace_last]
      constructor
      · rintro ⟨k, hk, hno⟩
        refine ⟨k + 1, bansAt_succ.2 hk, fun j hj => ?_⟩
        cases j with
        | zero => exact hover
        | succ j => exact fun h => hno j (by omega) (overrunsAt_succ.1 h)
      · rintro ⟨k, hk, hno⟩
        cases k with
        | zero => exact absurd hk hban
        | succ k =>
          exact ⟨k, bansAt_succ.1 hk, fun j hj h => hno (j + 1) (by omega) (overrunsAt_succ.2 h)⟩

/-- The visitor is let in if there is no entry to ban for, and nothing is overrun. -/
theorem scan_false_iff : scan login host hit last es = some false ↔
    ∀ k, ¬ BansAt login host hit es k ∧ ¬ OverrunsAt (isSpace last) es k := by
  induction es generalizing hit last with
  | nil =>
    refine iff_of_true rfl fun k => ⟨?_, ?_⟩
    · rintro ⟨⟨e, he, -⟩, -⟩
      cases he
    · rintro ⟨e, he, -⟩
      cases he
  | cons e es ih =>
    rcases scan_cons login host hit last e es with ⟨hover, hs⟩ | ⟨hover, ⟨hban, hs⟩ | ⟨hban, hs⟩⟩
    · exact iff_of_false (by simp [hs]) fun h => (h 0).2 hover
    · exact iff_of_false (by simp [hs]) fun h => (h 0).1 hban
    · rw [hs, ih, isSpace_last]
      constructor
      · intro h k
        cases k with
        | zero => exact ⟨hban, hover⟩
        | succ k => exact ⟨fun hk => (h k).1 (bansAt_succ.1 hk), fun hk => (h k).2 (overrunsAt_succ.1 hk)⟩
      · exact fun h k => ⟨fun hk => (h (k + 1)).1 (bansAt_succ.2 hk), fun hk => (h (k + 1)).2 (overrunsAt_succ.2 hk)⟩

/-! ## The file, line by line -/

/-- A line of the file, without its newline. -/
inductive Line
  /-- A comment, a blank line, or one without `@`. -/
  | other (text : List Char)
  | ban (login host : List Char)

/-- A line that bans nobody. -/
structure Idle (text : List Char) : Prop where
  newline : '\n' ∉ text
  idle : text.head? = some '#' ∨ '@' ∉ text

/-- The parts of a ban fit in 64 bytes with their NUL. -/
structure Ban (login host : List Char) : Prop where
  login_newline : '\n' ∉ login
  login_nul : nul ∉ login
  login_comment : login.head? ≠ some '#'
  login_length : login.length < 64
  host_space : ∀ c ∈ host, isSpace c = false
  host_nul : nul ∉ host
  host_at : '@' ∉ host
  host_length : host.length < 64

namespace Line

def WellFormed : Line → Prop
  | other text => Idle text
  | ban login host => Ban login host

def text : Line → List Char
  | other text => text
  | ban login host => login ++ '@' :: host

/-- The line bans the visitor: its own login part matches, and its own host part does. -/
def Matches (login host : List Char) : Line → Prop
  | other _ => False
  | ban l h => (l.head? = some '*' ∨ login = l) ∧ (h.head? = some '*' ∨ h <:+: host)

end Line

/-- The file: lines, and perhaps a last one without a newline, which bans nobody. -/
def content (lines : List Line) (tail : List Char) : List Char := lines.flatMap (fun l => l.text ++ ['\n']) ++ tail

/-- A ban that is a line of its own is an entry. -/
theorem entry?_ban {l h : List Char} (hb : Ban l h) : entry? (l ++ '@' :: h ++ ['\n']) = some ⟨l, h ++ ['\n']⟩ := by
  have hline : (l ++ '@' :: h ++ ['\n']).takeWhile (· ≠ nul) = l ++ '@' :: h ++ ['\n'] := by
    rw [List.takeWhile_eq_self_iff]
    intro c hc
    simp only [List.append_assoc, List.cons_append, List.mem_append, List.mem_cons, List.not_mem_nil, or_false] at hc
    rw [decide_eq_true_iff]
    rintro rfl
    rcases hc with hc | hc | hc | hc
    · exact hb.login_nul hc
    · exact absurd hc (by decide)
    · exact hb.host_nul hc
    · exact absurd hc (by decide)
  have hafter : ((l ++ '@' :: h ++ ['\n']).reverse.takeWhile (· ≠ '@')).reverse = h ++ ['\n'] := by
    have hrev : (l ++ '@' :: h ++ ['\n']).reverse = ('\n' :: h.reverse) ++ '@' :: l.reverse := by simp
    rw [hrev, List.takeWhile_append_of_pos]
    · rw [List.takeWhile_cons_of_neg (by decide), List.append_nil, List.reverse_cons, List.reverse_reverse]
    · intro c hc
      rw [decide_eq_true_iff]
      rintro rfl
      rcases List.mem_cons.1 hc with hc | hc
      · exact absurd hc (by decide)
      · exact hb.host_at (List.mem_reverse.1 hc)
  have htake : (l ++ '@' :: h ++ ['\n']).length - (h ++ ['\n']).length - 1 = l.length := by
    simp only [List.length_append, List.length_cons, List.length_nil]
    omega
  have hlook : ¬ ((l ++ '@' :: h ++ ['\n']).head? = some '#' ∨ (l ++ '@' :: h ++ ['\n']).head? = some '\n' ∨
      '@' ∉ l ++ '@' :: h ++ ['\n']) := by
    rintro (hc | hc | hc)
    · cases l with
      | nil => exact absurd (Option.some.inj hc) (by decide)
      | cons c l => exact hb.login_comment hc
    · cases l with
      | nil => exact absurd (Option.some.inj hc) (by decide)
      | cons c l => exact hb.login_newline (Option.some.inj hc ▸ List.mem_cons_self)
    · exact hc (by simp)
  unfold entry?
  rw [hline]
  dsimp only
  rw [if_neg hlook, hafter, htake, List.append_assoc, List.take_left]

/-- Every ban in the file is looked at. -/
theorem mem_entries {lines : List Line} (tail : List Char) (hw : ∀ line ∈ lines, line.WellFormed) {l h : List Char}
    (hm : Line.ban l h ∈ lines) : ⟨l, h ++ ['\n']⟩ ∈ entries (content lines tail) := by
  unfold entries content
  induction lines with
  | nil => cases hm
  | cons line lines ih =>
    have hsplit : (line :: lines).flatMap (fun l => l.text ++ ['\n']) ++ tail =
        line.text ++ '\n' :: (lines.flatMap (fun l => l.text ++ ['\n']) ++ tail) := by
      rw [List.flatMap_cons]
      simp only [List.append_assoc, List.cons_append, List.nil_append]
    rw [hsplit]
    rcases List.mem_cons.1 hm with rfl | hm
    · have hb : Ban l h := hw _ List.mem_cons_self
      have hn : '\n' ∉ l ++ '@' :: h := by
        intro hc
        rcases List.mem_append.1 hc with hc | hc
        · exact hb.login_newline hc
        · rcases List.mem_cons.1 hc with hc | hc
          · exact absurd hc (by decide)
          · exact absurd (hb.host_space _ hc) (by decide)
      have hlen : (l ++ '@' :: h).length < lineRoom := by
        have hl := hb.login_length
        have hh := hb.host_length
        rw [List.length_append, List.length_cons]
        unfold lineRoom
        omega
      show _ ∈ (fgets lineRoom ((l ++ '@' :: h) ++ '\n' :: _)).filterMap entry?
      rw [fgets_short hn hlen]
      exact List.mem_filterMap.2 ⟨_, List.mem_cons_self, entry?_ban hb⟩
    · obtain ⟨ps, hps⟩ := fgets_line lineRoom line.text (lines.flatMap (fun l => l.text ++ ['\n']) ++ tail)
      rw [hps, List.filterMap_append]
      exact List.mem_append_right _ (ih (fun line h => hw line (List.mem_cons_of_mem _ h)) hm)

/-- The host part of a ban is found. -/
theorem host_ban {l h : List Char} (hb : Ban l h) : (⟨l, h ++ ['\n']⟩ : Entry).host = h := by
  have hspace : ∀ c ∈ h, (!isSpace c) = true := fun c hc => by rw [hb.host_space c hc]; rfl
  have hlen := hb.host_length
  show ((h ++ ['\n']).take hostRoom).takeWhile (!isSpace ·) = h
  by_cases hfull : h.length = hostRoom
  · rw [List.take_left' hfull, List.takeWhile_eq_self_iff.2 hspace]
  · rw [List.take_of_length_le, List.takeWhile_append_of_pos hspace, List.takeWhile_cons_of_neg (by decide), List.append_nil]
    rw [List.length_append, List.length_singleton]
    unfold hostRoom at *
    omega

/-! ## The verdict -/

/-- A line that bans the visitor is an entry to ban for. -/
theorem bansAt_of_matches {lines : List Line} (tail login host : List Char) (hw : ∀ line ∈ lines, line.WellFormed)
    (hm : ∃ line ∈ lines, line.Matches login host) : ∃ k, BansAt login host false (entries (content lines tail)) k := by
  obtain ⟨line, hline, hm⟩ := hm
  cases line with
  | other text => exact hm.elim
  | ban l h =>
    have hb : Ban l h := hw _ hline
    obtain ⟨k, hk, hget⟩ := List.mem_iff_getElem.1 (mem_entries tail hw hline)
    have hentry : (entries (content lines tail))[k]? = some ⟨l, h ++ ['\n']⟩ := List.getElem?_eq_some_iff.2 ⟨hk, hget⟩
    obtain ⟨hl, hh⟩ := hm
    refine ⟨k, ⟨_, hentry, ?_⟩, .inr ⟨k, le_refl k, _, hentry, ?_⟩⟩
    · unfold Entry.hostHit
      rw [host_ban hb]
      rcases hh with hh | hh <;> simp [hh]
    · unfold Entry.loginHit
      rcases hl with hl | hl <;> simp [hl]

/-- The visitor is told whether a single line of the file bans. -/
def Judges (last : Char) (lines : List Line) (tail login host : List Char) : Prop :=
  ∃ b, bansCheckPermanent last (some (content lines tail)) login host = some b ∧
    (b = true ↔ ∃ line ∈ lines, line.Matches login host)

/-- The visitor is told so exactly if nothing is overrun before a ban, and if a host part matches after a login part
did only where some one line matches both. -/
theorem judges_iff (last : Char) {lines : List Line} (tail login host : List Char)
    (hw : ∀ line ∈ lines, line.WellFormed) :
    Judges last lines tail login host ↔
      (∀ k, OverrunsAt (isSpace last) (entries (content lines tail)) k →
        ∃ j < k, BansAt login host false (entries (content lines tail)) j) ∧
      ((∃ k, BansAt login host false (entries (content lines tail)) k) → ∃ line ∈ lines, line.Matches login host) := by
  have hmatch := bansAt_of_matches tail login host hw
  unfold Judges bansCheckPermanent
  dsimp only
  generalize entries (content lines tail) = es at hmatch ⊢
  constructor
  · rintro ⟨b, hscan, hb⟩
    cases b with
    | true =>
      obtain ⟨k, hk, hno⟩ := scan_true_iff.1 hscan
      refine ⟨fun k' hover => ⟨k, ?_, hk⟩, fun _ => hb.1 rfl⟩
      by_contra hle
      exact hno k' (by omega) hover
    | false =>
      have hno := scan_false_iff.1 hscan
      exact ⟨fun k hover => absurd hover (hno k).2, fun ⟨k, hk⟩ => absurd hk (hno k).1⟩
  · rintro ⟨hover, hban⟩
    by_cases hex : ∃ k, BansAt login host false es k
    · classical
      -- at the first entry to ban for nothing has been overrun
      refine ⟨true, scan_true_iff.2 ⟨Nat.find hex, Nat.find_spec hex, fun j hj ho => ?_⟩, iff_of_true rfl (hban hex)⟩
      obtain ⟨i, hi, hbi⟩ := hover j ho
      exact Nat.find_min hex (by omega) hbi
    · refine ⟨false, scan_false_iff.2 fun k => ⟨fun hk => hex ⟨k, hk⟩, fun ho => ?_⟩, ?_⟩
      · obtain ⟨i, -, hbi⟩ := hover k ho
        exact hex ⟨i, hbi⟩
      · exact iff_of_false (by decide) fun hm => hex (hmatch hm)

/-- A comment, a guest who is banned at one host, and everybody from a domain. -/
def schools : List Line :=
  [.other ['#', ' ', 's', 'c', 'h', 'o', 'o', 'l', 's'], .ban ['g', 'u', 'e', 's', 't'] ['d', 'i', 'a', 'l'], .ban ['*'] ['e', 'd', 'u']]

theorem schools_wellFormed : ∀ line ∈ schools, line.WellFormed := by
  intro line hline
  simp only [schools, List.mem_cons, List.not_mem_nil, or_false] at hline
  rcases hline with rfl | rfl | rfl
  · exact ⟨by decide, .inl rfl⟩
  · exact ⟨by decide, by decide, by decide, by decide, by simp [isSpace], by decide, by decide, by decide⟩
  · exact ⟨by decide, by decide, by decide, by decide, by simp [isSpace], by decide, by decide, by decide⟩

theorem judges_schools : Judges ' ' schools ['x'] ['a'] ['m', '.', 'e', 'd', 'u'] := by
  have hshort : ∀ e ∈ entries (content schools ['x']), e.login.length < logBuf ∧ e.unended = false := by decide
  refine (judges_iff ' ' ['x'] ['a'] ['m', '.', 'e', 'd', 'u'] schools_wellFormed).2 ⟨fun k hover => ?_, fun _ => ?_⟩
  · exact absurd hover (not_overrunsAt hshort k)
  · exact ⟨.ban ['*'] ['e', 'd', 'u'], by simp [schools], .inl rfl, .inr (by decide)⟩

/-- A login is banned at one host, and another at a second host. -/
def crossed : List Line := [.ban ['a'] ['x'], .ban ['b'] ['y']]

theorem crossed_wellFormed : ∀ line ∈ crossed, line.WellFormed := by
  intro line hline
  rcases List.mem_cons.1 hline with rfl | hline
  · exact ⟨by decide, by decide, by decide, by decide, by simp [isSpace], by decide, by decide, by decide⟩
  · obtain rfl := List.mem_singleton.1 hline
    exact ⟨by decide, by decide, by decide, by decide, by simp [isSpace], by decide, by decide, by decide⟩

/-- The first login is refused at the second host. -/
theorem bans_across_lines :
    bansCheckPermanent ' ' (some (content crossed [])) ['a'] ['y'] = some true ∧
      ¬ ∀ last lines tail login host, (∀ line ∈ lines, line.WellFormed) → Idle tail → Judges last lines tail login host := by
  have hscan : bansCheckPermanent ' ' (some (content crossed [])) ['a'] ['y'] = some true := by decide
  refine ⟨hscan, fun h => ?_⟩
  obtain ⟨b, hb, hiff⟩ := h ' ' crossed [] ['a'] ['y'] crossed_wellFormed ⟨by decide, .inr (by decide)⟩
  obtain rfl := Option.some.inj (hscan.symm.trans hb)
  obtain ⟨line, hline, hm⟩ := hiff.1 rfl
  rcases List.mem_cons.1 hline with rfl | hline
  · exact absurd hm.2 (by decide)
  · obtain rfl := List.mem_singleton.1 hline
    exact absurd hm.1 (by decide)

end Netrek.Bans
