/-
`gwrite` of `ntserv/socket.c`, call by call. A write may take all that it is offered, a part of it or nothing, or
report an error; no space in the kernel is waited out, and a partial write is continued. An interrupted one is
meant to be tried again, but falls through to where the client is given up.
-/
import Mathlib.Algebra.BigOperators.Group.Finset.Basic
import NetrekServer.Socket.Output

namespace Netrek.Sending

/-! ## Calls of `write` -/

/-- `errno` after a `write` that failed. -/
inductive Errno
  | enobufs
  | eintr
  | epipe
  | eagain
  | other
  deriving DecidableEq

/-- What `write` reports: how many bytes it took, as many as it was offered at most, or an error. -/
inductive Reported
  | wrote (n : Nat)
  | error (e : Errno)
  deriving DecidableEq

/-- A call of `write`. -/
structure Attempt where
  offered : List UInt8
  reported : Reported
  deriving DecidableEq

namespace Attempt

/-- The bytes that went out. -/
def taken (a : Attempt) : List UInt8 :=
  match a.reported with
  | .wrote n => a.offered.take n
  | .error _ => []

/-- What is left to write. -/
def rest (a : Attempt) : List UInt8 := a.offered.drop a.taken.length

end Attempt

/-- What a call of `gwrite` does: its calls of `write`, what it returns, and whether it marks the client dead. -/
structure Gwrite where
  calls : List Attempt
  ret : Int
  dead : Bool
  deriving DecidableEq

namespace Gwrite

def written (g : Gwrite) : List UInt8 := g.calls.flatMap Attempt.taken

/-- The call of `write` came first. -/
def after (a : Attempt) (g : Gwrite) : Gwrite := { g with calls := a :: g.calls }

end Gwrite

/-! ## The loop -/

/-- Writes after which another is one too many. -/
def maxWrites : Nat := 101

/-- The loop, with `left` more writes to go before one is too many. -/
def gwriteLoop (orig : Nat) : Nat → (Nat → Reported) → List UInt8 → Gwrite
  | left, net, wbuf =>
    if wbuf = [] then ⟨[], orig, false⟩
    else
      let a : Attempt := ⟨wbuf, net 0⟩
      match left with
      | 0 => ⟨[a], -1, true⟩
      | left + 1 =>
        match net 0 with
        | .wrote _ => (gwriteLoop orig left (fun k => net (k + 1)) a.rest).after a
        | .error .enobufs => (gwriteLoop orig left (fun k => net (k + 1)) wbuf).after a
        -- an interruption has its `n` set to zero, and goes on to the end of the error path
        | .error .eintr => ⟨[a], -1, false⟩
        | .error .epipe => ⟨[a], -1, false⟩
        | .error .eagain => ⟨[a], -1, false⟩
        | .error .other => ⟨[a], -1, false⟩

/-- `gwrite`; `net` is what the calls of `write` report. -/
def gwrite (clientDead : Bool) (net : Nat → Reported) (wbuf : List UInt8) : Gwrite :=
  if clientDead then ⟨[], 0, false⟩
  else if bufSize < wbuf.length then ⟨[], -1, false⟩
  else gwriteLoop wbuf.length maxWrites net wbuf

/-! ## All or an error -/

/-- An error that is no passing condition; whether a write that would block is one is left open. -/
def Errno.isReal (blocked : Bool) : Errno → Bool
  | .enobufs | .eintr => false
  | .eagain => blocked
  | .epipe | .other => true

/-- The write was interrupted, or took only a part. -/
def Attempt.unfinished (a : Attempt) : Prop :=
  a.reported = .error .eintr ∨ ∃ n < a.offered.length, a.reported = .wrote n

def Attempt.failed (blocked : Bool) (a : Attempt) : Prop := ∃ e, a.reported = .error e ∧ e.isReal blocked = true

/-- The count that is returned tells whether all was written, an unfinished write is continued from the first byte that
is left, and a negative result comes of a real error. -/
structure AllOrError (blocked : Bool) (g : Gwrite) (orig : Nat) (wbuf : List UInt8) : Prop where
  whole : g.ret = orig ↔ g.written = wbuf
  continued : ∀ i a, g.calls[i]? = some a → a.unfinished → ∃ b, g.calls[i + 1]? = some b ∧ b.offered = a.rest
  error : g.ret < 0 → ∃ a, g.calls.getLast? = some a ∧ a.failed blocked

/-- The loop goes on after the write. -/
def Reported.goesOn : Reported → Bool
  | .wrote _ => true
  | .error e => e == .enobufs

def Reported.count : Reported → Nat
  | .wrote n => n
  | .error _ => 0

def Reported.isReal (blocked : Bool) : Reported → Bool
  | .wrote _ => false
  | .error e => e.isReal blocked

/-- With writes that take bytes, or report no space, the network takes `size` bytes, or comes to a real error, before
more than `left` of them. -/
def Settles (blocked : Bool) (net : Nat → Reported) (size left : Nat) : Prop :=
  ∃ k ≤ left, (∀ i < k, (net i).goesOn = true) ∧
    (size ≤ ∑ i ∈ Finset.range k, (net i).count ∨ (net k).isReal blocked = true)

variable {blocked : Bool} {net : Nat → Reported} {orig size left : Nat} {wbuf : List UInt8} {g : Gwrite} {a : Attempt}

/-! ## One write -/

theorem Attempt.taken_prefix (a : Attempt) : a.taken <+: a.offered := by
  unfold Attempt.taken
  split
  · exact List.take_prefix _ _
  · exact List.nil_prefix

theorem Attempt.taken_append_rest (a : Attempt) : a.taken ++ a.rest = a.offered :=
  (List.prefix_iff_eq_append.1 a.taken_prefix)

theorem Attempt.length_rest (a : Attempt) : a.rest.length = a.offered.length - a.reported.count := by
  unfold Attempt.rest Attempt.taken Reported.count
  rw [List.length_drop]
  split
  · rw [List.length_take]
    omega
  · rfl

/-- A real error is neither an interruption nor a write. -/
theorem Attempt.failed_iff : a.failed blocked ↔ a.reported.isReal blocked = true := by
  unfold Attempt.failed Reported.isReal
  constructor
  · rintro ⟨e, he, hr⟩
    rw [he]
    exact hr
  · intro h
    split at h
    · cases h
    · rename_i e he
      exact ⟨e, he, h⟩

/-- Where the loop is left after a write, only a real error is right. -/
theorem allOrError_gaveUp (hne : a.offered ≠ []) (dead : Bool) :
    AllOrError blocked ⟨[a], -1, dead⟩ orig a.offered ↔ a.reported.isReal blocked = true := by
  rw [← Attempt.failed_iff]
  constructor
  · intro h
    obtain ⟨b, hb, hf⟩ := h.error (by show (-1 : Int) < 0; omega)
    cases hb
    exact hf
  · rintro ⟨e, he, hr⟩
    have htaken : a.taken = [] := by
      unfold Attempt.taken
      rw [he]
    refine ⟨?_, ?_, fun _ => ⟨a, rfl, e, he, hr⟩⟩
    · apply iff_of_false
      · show (-1 : Int) ≠ orig
        omega
      · show a.taken ++ [] ≠ a.offered
        rw [htaken]
        exact hne.symm
    · intro i b hb hu
      obtain ⟨rfl, rfl⟩ : i = 0 ∧ a = b := by
        cases i with
        | zero => exact ⟨rfl, Option.some.inj hb⟩
        | succ i => cases hb
      rcases hu with hu | ⟨n, -, hu⟩
      · obtain rfl := Reported.error.inj (he.symm.trans hu)
        cases hr
      · cases he.symm.trans hu

/-! ## The loop, write by write -/

/-- The loop has nothing to do, or begins with a write of all there is. -/
theorem gwriteLoop_head (orig left : Nat) (net : Nat → Reported) (wbuf : List UInt8) :
    (wbuf = [] ∧ gwriteLoop orig left net wbuf = ⟨[], orig, false⟩) ∨
      (wbuf ≠ [] ∧ (gwriteLoop orig left net wbuf).calls.head? = some ⟨wbuf, net 0⟩) := by
  by_cases hw : wbuf = []
  · refine .inl ⟨hw, ?_⟩
    unfold gwriteLoop
    exact if_pos hw
  · refine .inr ⟨hw, ?_⟩
    unfold gwriteLoop
    rw [if_neg hw]
    dsimp only
    split
    · rfl
    · split <;> rfl

/-- What may come after a write: nothing if it took all, else a write of what is left. -/
def Continues (orig : Nat) (rest : List UInt8) (g : Gwrite) : Prop :=
  (rest = [] ∧ g = ⟨[], orig, false⟩) ∨ (rest ≠ [] ∧ ∃ b, g.calls.head? = some b ∧ b.offered = rest)

/-- A write that goes on and is unfinished leaves something. -/
theorem Attempt.rest_ne_nil (hgo : a.reported.goesOn = true) (hu : a.unfinished) : a.rest ≠ [] := by
  rcases hu with hu | ⟨n, hn, hu⟩
  · rw [hu] at hgo
    cases hgo
  · have hlen := a.length_rest
    rw [hu] at hlen
    have hcount : (Reported.wrote n).count = n := rfl
    intro hnil
    rw [hnil, hcount, List.length_nil] at hlen
    omega

/-- A call that begins with a write the loop goes on after is right if the rest of it is. -/
theorem allOrError_after (hgo : a.reported.goesOn = true) (hc : Continues orig a.rest g) :
    AllOrError blocked (g.after a) orig a.offered ↔ AllOrError blocked g orig a.rest := by
  have hwritten : (g.after a).written = a.offered ↔ g.written = a.rest := by
    show a.taken ++ g.written = a.offered ↔ _
    rw [← a.taken_append_rest, List.append_cancel_left_eq]
  -- a negative result comes after a second write
  have hlast (hret : g.ret < 0) : (g.after a).calls.getLast? = g.calls.getLast? := by
    rcases hc with ⟨-, rfl⟩ | ⟨-, b, hb, -⟩
    · exact absurd hret (by show ¬ (orig : Int) < 0; omega)
    · obtain ⟨cs, hcs⟩ := List.head?_eq_some_iff.1 hb
      show (a :: g.calls).getLast? = _
      rw [hcs, List.getLast?_cons_cons]
  constructor
  · intro h
    refine ⟨h.whole.trans hwritten, fun i b hb hu => ?_, fun hret => ?_⟩
    · exact h.continued (i + 1) b hb hu
    · rw [← hlast hret]
      exact h.error hret
  · intro h
    refine ⟨h.whole.trans hwritten.symm, fun i b hb hu => ?_, fun hret => ?_⟩
    · cases i with
      | zero =>
        obtain rfl := Option.some.inj hb
        rcases hc with ⟨hnil, -⟩ | ⟨-, c, hhead, ho⟩
        · exact absurd hnil (Attempt.rest_ne_nil hgo hu)
        · exact ⟨c, by rw [← hhead, List.head?_eq_getElem?]; rfl, ho⟩
      | succ i => exact h.continued i b hb hu
    · rw [hlast hret]
      exact h.error hret

/-- With nothing to write nothing is written. -/
theorem allOrError_nil (orig : Nat) : AllOrError blocked ⟨[], orig, false⟩ orig [] :=
  ⟨iff_of_true rfl rfl, fun _ _ h => by simp at h, fun h => absurd h (by show ¬ (orig : Int) < 0; omega)⟩

/-! ## When the network settles it -/

theorem settles_zero (left : Nat) : Settles blocked net 0 left :=
  ⟨0, Nat.zero_le _, fun i hi => absurd hi (Nat.not_lt_zero i), .inl (Nat.zero_le _)⟩

/-- If the loop goes on after a write, the writes after it settle the rest. -/
theorem settles_succ (hgo : (net 0).goesOn = true) (hpos : 0 < size) :
    Settles blocked net size (left + 1) ↔ Settles blocked (fun k => net (k + 1)) (size - (net 0).count) left := by
  have hreal : (net 0).isReal blocked = false := by
    cases h : net 0 with
    | wrote n => rfl
    | error e =>
      rw [h] at hgo
      obtain rfl : e = .enobufs := by simpa [Reported.goesOn] using hgo
      rfl
  constructor
  · rintro ⟨k, hk, hgoes, hend⟩
    cases k with
    | zero =>
      rcases hend with hend | hend
      · exact absurd hend (by simp only [Finset.range_zero, Finset.sum_empty]; omega)
      · exact absurd (hreal.symm.trans hend) (by decide)
    | succ k =>
      refine ⟨k, by omega, fun i hi => hgoes (i + 1) (by omega), hend.imp_left fun hend => ?_⟩
      rw [Finset.sum_range_succ'] at hend
      dsimp only
      omega
  · rintro ⟨k, hk, hgoes, hend⟩
    refine ⟨k + 1, by omega, fun i hi => ?_, hend.imp_left fun hend => ?_⟩
    · cases i with
      | zero => exact hgo
      | succ i => exact hgoes i (by omega)
    · rw [Finset.sum_range_succ']
      dsimp only at hend
      omega

/-- If the loop ends with the first write, that is a real error, or it was one write too many. -/
theorem settles_iff_isReal (h : (net 0).goesOn = false ∨ left = 0) (hpos : 0 < size) :
    Settles blocked net size left ↔ (net 0).isReal blocked = true := by
  constructor
  · rintro ⟨k, hk, hgoes, hend⟩
    obtain rfl : k = 0 := by
      rcases h with h | rfl
      · by_contra hne
        exact absurd (h.symm.trans (hgoes 0 (by omega))) (by decide)
      · omega
    rcases hend with hend | hend
    · exact absurd hend (by simp only [Finset.range_zero, Finset.sum_empty]; omega)
    · exact hend
  · intro hreal
    exact ⟨0, Nat.zero_le _, fun i hi => absurd hi (Nat.not_lt_zero i), .inr hreal⟩

theorem gwriteLoop_goesOn (hne : wbuf ≠ []) (hgo : (net 0).goesOn = true) :
    gwriteLoop orig (left + 1) net wbuf =
      (gwriteLoop orig left (fun k => net (k + 1)) (⟨wbuf, net 0⟩ : Attempt).rest).after ⟨wbuf, net 0⟩ := by
  rw [gwriteLoop, if_neg hne]
  cases h : net 0 with
  | wrote n => rfl
  | error e =>
    rw [h] at hgo
    obtain rfl : e = .enobufs := by simpa [Reported.goesOn] using hgo
    rfl

theorem gwriteLoop_gaveUp (hne : wbuf ≠ []) (hgo : (net 0).goesOn = false) :
    gwriteLoop orig (left + 1) net wbuf = ⟨[⟨wbuf, net 0⟩], -1, false⟩ := by
  rw [gwriteLoop, if_neg hne]
  cases h : net 0 with
  | wrote n =>
    rw [h] at hgo
    cases hgo
  | error e =>
    rw [h] at hgo
    cases e <;> first | rfl | cases hgo

/-- The loop is right exactly if the network settles it in time. -/
theorem gwriteLoop_allOrError (orig left : Nat) (net : Nat → Reported) (wbuf : List UInt8) :
    AllOrError blocked (gwriteLoop orig left net wbuf) orig wbuf ↔ Settles blocked net wbuf.length left := by
  induction left generalizing net wbuf with
  | zero =>
    rcases gwriteLoop_head orig 0 net wbuf with ⟨rfl, hg⟩ | ⟨hne, -⟩
    · rw [hg]
      exact iff_of_true (allOrError_nil orig) (settles_zero 0)
    · have hg : gwriteLoop orig 0 net wbuf = ⟨[⟨wbuf, net 0⟩], -1, true⟩ := by
        unfold gwriteLoop
        exact if_neg hne
      rw [hg, settles_iff_isReal (.inr rfl) (List.length_pos_iff.2 hne)]
      exact allOrError_gaveUp hne true
  | succ left ih =>
    rcases gwriteLoop_head orig (left + 1) net wbuf with ⟨rfl, hg⟩ | ⟨hne, -⟩
    · rw [hg]
      exact iff_of_true (allOrError_nil orig) (settles_zero (left + 1))
    have hpos := List.length_pos_iff.2 hne
    cases hgo : (net 0).goesOn with
    | true =>
      have hlen : (⟨wbuf, net 0⟩ : Attempt).rest.length = wbuf.length - (net 0).count := Attempt.length_rest _
      rw [gwriteLoop_goesOn hne hgo, settles_succ hgo hpos, ← hlen, ← ih]
      refine allOrError_after hgo ?_
      exact (gwriteLoop_head orig left (fun k => net (k + 1)) _).imp id fun h => ⟨h.1, _, h.2, rfl⟩
    | false =>
      rw [gwriteLoop_gaveUp hne hgo, settles_iff_isReal (.inl hgo) hpos]
      exact allOrError_gaveUp hne false

/-! ## The call -/

/-- `gwrite` is right exactly if the client is dead already, or if the buffer is no larger than it may be and every write
takes bytes or reports no space until all is written or a real error comes, in 101 writes or before a further one. -/
theorem gwrite_allOrError (blocked clientDead : Bool) (net : Nat → Reported) (wbuf : List UInt8) :
    AllOrError blocked (gwrite clientDead net wbuf) wbuf.length wbuf ↔
      clientDead = true ∨ (wbuf.length ≤ bufSize ∧ Settles blocked net wbuf.length maxWrites) := by
  unfold gwrite
  cases clientDead with
  | true =>
    refine iff_of_true ⟨?_, fun _ _ h => by simp at h, fun h => absurd h (Int.lt_irrefl 0)⟩ (.inl rfl)
    show (0 : Int) = wbuf.length ↔ [] = wbuf
    rw [eq_comm (a := []), ← List.length_eq_zero_iff]
    omega
  | false =>
    rw [if_neg (by decide)]
    simp only [Bool.false_eq_true, false_or]
    by_cases hlen : bufSize < wbuf.length
    · rw [if_pos hlen]
      apply iff_of_false
      · intro h
        obtain ⟨a, ha, -⟩ := h.error (by show (-1 : Int) < 0; omega)
        cases ha
      · omega
    · rw [if_neg hlen, gwriteLoop_allOrError]
      exact ⟨fun h => ⟨by omega, h⟩, fun h => h.2⟩

/-- An interruption after two bytes of four ends the call. -/
theorem gwrite_interrupted :
    ¬ ∀ blocked clientDead net wbuf, AllOrError blocked (gwrite clientDead net wbuf) wbuf.length wbuf := by
  intro h
  obtain ⟨a, ha, hf⟩ := (h true false (fun k => if k = 0 then .wrote 2 else .error .eintr) [1, 2, 3, 4]).error (by decide)
  obtain rfl : (⟨[3, 4], .error .eintr⟩ : Attempt) = a := Option.some.inj ha
  exact absurd (Attempt.failed_iff.1 hf) (by decide)

end Netrek.Sending
