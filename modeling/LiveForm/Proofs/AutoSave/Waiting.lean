import Mathlib
import LiveForm.AutoSave.Run

/-!
# How long a run waits

Twice a run waits until fields are no longer being validated: all of its fields when it starts, and
the dependent ones when their validation has been asked for. It looks at the form, pauses, and looks
again, with the deadline that it set at its first look. If the clock goes on by one interval in each
pause, a wait takes no more pauses than intervals fit into the patience of the run, and how it ends
is told by what the run sees then (`wait_bounded`), whatever the form does meanwhile.
-/

namespace LiveForm.Run

/-! ### One look -/

/-- What a look at the form says to a run that waits. -/
inductive Look where
  | again
  /-- The wait has ended: nothing is being validated any more, or the run ends with an outcome. -/
  | ends (outcome : Option Outcome)
deriving DecidableEq

/-- What a run that waits for names until a deadline sees. -/
def look (r : Run) (s : Sight) (names : FieldNames) (deadline : Instant) : Look :=
  if r.superseded s then .ends (some .aborted)
  else if names.any s.validating then
    if deadline ≤ s.now then .ends (some .blocked) else .again
  else .ends none

/-- What the log says when a wait ends the run. -/
def waitLog (r : Run) (names : FieldNames) : Outcome → Log
  | .blocked => [r.entry .warning
      ("timed out waiting for validation of " ++ shownNames (FieldName.sorted names))]
  | _ => []

/-- The move of a run after a look. -/
def moveAfter (r : Run) (names : FieldNames) (phase : Phase) (move : Move) : Look → Move
  | .again => .pause { r with phase }
  | .ends none => move
  | .ends (some outcome) => .finish outcome (r.waitLog names outcome)

theorem settle_eq_moveAfter (r : Run) (s : Sight) (names : FieldNames) (deadline : Instant)
    (phase : Phase) (move : Move) : r.settle s names deadline phase move =
      r.moveAfter names phase move (r.look s names deadline) := by
  unfold settle look
  split_ifs <;> rfl

/-- **What a look means**: which of the ends it is, and what the run sees then. -/
inductive Seen (r : Run) (s : Sight) (names : FieldNames) (deadline : Instant) : Look → Prop
  | settled : (∀ n ∈ names, s.validating n = false) → s.version = r.version →
      Seen r s names deadline (.ends none)
  | late : (∃ n ∈ names, s.validating n = true) → s.version = r.version → deadline ≤ s.now →
      Seen r s names deadline (.ends (some .blocked))
  | superseded : s.version ≠ r.version → Seen r s names deadline (.ends (some .aborted))
  | unsettled : (∃ n ∈ names, s.validating n = true) → s.version = r.version → s.now < deadline →
      Seen r s names deadline .again

theorem seen_look (r : Run) (s : Sight) (names : FieldNames) (deadline : Instant) :
    Seen r s names deadline (r.look s names deadline) := by
  unfold look
  split_ifs with hversion hvalidating hlate
  · exact .superseded (by simpa [Run.superseded] using hversion)
  · exact .late (by simpa using hvalidating) (by simpa [Run.superseded] using hversion) hlate
  · exact .unsettled (by simpa using hvalidating) (by simpa [Run.superseded] using hversion)
      (Nat.lt_of_not_le hlate)
  · exact .settled (by simpa using hvalidating) (by simpa [Run.superseded] using hversion)

/-! ### Look after look -/

/-- A run begins to wait: the fields that it waits for, the phase in which it waits with a deadline,
and how it goes on when their validations have ended. -/
inductive BeginsToWait (r : Run) (s : Sight) :
    Except Fault Bool → FieldNames → (Instant → Phase) → (Sight → Move) → Prop
  | first (answer : Except Fault Bool) : r.phase = .created →
      BeginsToWait r s answer r.batch.fields .settling r.examine
  | second (passed : Bool) : r.phase = .validating → s.version = r.version →
      BeginsToWait r s (.ok passed) r.batch.dependents (.confirming passed)
        fun s => r.confirm s passed

variable {r : Run} {answer : Except Fault Bool} {names : FieldNames} {phase : Instant → Phase}
  {move : Sight → Move} {sights : Nat → Sight}

/-- The first look, with the deadline that is set then. -/
theorem BeginsToWait.resume_eq {s : Sight} (h : r.BeginsToWait s answer names phase move) :
    r.resume s answer = r.moveAfter names (phase (s.now + s.patience)) (move s)
      (r.look s names (s.now + s.patience)) := by
  rw [← settle_eq_moveAfter]
  cases h with
  | first _ hphase => simp only [resume, hphase]
  | second passed hphase hversion =>
    have hcurrent : r.superseded s = false := by simp [Run.superseded, hversion]
    simp only [resume, hphase, hcurrent, Bool.false_eq_true, if_false]

/-- A later look, with the deadline that was set at the first one. -/
theorem BeginsToWait.resume_again {s₀ : Sight} (h : r.BeginsToWait s₀ answer names phase move)
    (deadline : Instant) (s : Sight) (a : Except Fault Bool) :
    { r with phase := phase deadline }.resume s a =
      r.moveAfter names (phase deadline) (move s) (r.look s names deadline) := by
  rw [← settle_eq_moveAfter]
  cases h with
  | first _ _ => rfl
  | second _ _ _ => rfl

/-- The move of a run at its look of a number, if it looks again after each pause. -/
def lookingOn (r : Run) (answer : Except Fault Bool) (sights : Nat → Sight) : Nat → Move
  | 0 => r.resume (sights 0) answer
  | n + 1 =>
    match r.lookingOn answer sights n with
    | .pause waiting => waiting.resume (sights (n + 1)) (.ok true)
    | done => done

/-- While every look before has said to look again, the wait goes on with the next. -/
theorem BeginsToWait.lookingOn_eq (h : r.BeginsToWait (sights 0) answer names phase move)
    {deadline : Instant} (hdeadline : (sights 0).now + (sights 0).patience = deadline) {n : Nat}
    (hbefore : ∀ i < n, r.look (sights i) names deadline = .again) :
    r.lookingOn answer sights n = r.moveAfter names (phase deadline) (move (sights n))
      (r.look (sights n) names deadline) := by
  induction n with
  | zero =>
    rw [← hdeadline]
    exact h.resume_eq
  | succ n ih =>
    rw [lookingOn, ih fun i hi => hbefore i (by omega), hbefore n (by omega)]
    exact h.resume_again deadline (sights (n + 1)) (.ok true)

/-! ### The bound -/

theorem now_eq {interval : Nat} (hclock : ∀ n, (sights (n + 1)).now = (sights n).now + interval)
    (n : Nat) : (sights n).now = (sights 0).now + n * interval := by
  induction n with
  | zero => simp
  | succ n ih => rw [hclock, ih, Nat.succ_mul, Nat.add_assoc]

/-- A run whose patience has run out does not look again. -/
theorem look_ne_again {interval : Nat} (hpos : 0 < interval)
    (hclock : ∀ n, (sights (n + 1)).now = (sights n).now + interval) :
    r.look (sights ⌈((sights 0).patience : ℚ) / interval⌉₊) names
      ((sights 0).now + (sights 0).patience) ≠ .again := by
  intro hagain
  have hseen := r.seen_look (sights ⌈((sights 0).patience : ℚ) / interval⌉₊) names
    ((sights 0).now + (sights 0).patience)
  rw [hagain] at hseen
  cases hseen with
  | unsettled _ _ hearly =>
    have hceil : ((sights 0).patience : ℚ) ≤ ⌈((sights 0).patience : ℚ) / interval⌉₊ * interval :=
      (div_le_iff₀ (by exact_mod_cast hpos)).1 (Nat.le_ceil _)
    have hpatience : (sights 0).patience ≤ ⌈((sights 0).patience : ℚ) / interval⌉₊ * interval := by
      exact_mod_cast hceil
    rw [now_eq hclock] at hearly
    exact absurd (Nat.lt_of_add_lt_add_left hearly) (Nat.not_lt.2 hpatience)

/-- **A wait is bounded, and its end is exact.** If the clock goes on by an interval in each pause, a
run that begins to wait pauses at most as often as the interval fits into its patience, rounded up.
It goes on only when no field is being validated, it ends blocked only when one still is and the
deadline has come, both with the version unchanged, and it ends aborted only when the version has
changed. -/
theorem wait_bounded {interval : Nat} (hpos : 0 < interval)
    (hclock : ∀ n, (sights (n + 1)).now = (sights n).now + interval)
    (h : r.BeginsToWait (sights 0) answer names phase move) :
    ∃ n outcome, n ≤ ⌈((sights 0).patience : ℚ) / interval⌉₊ ∧
      (∀ i < n, ∃ waiting, r.lookingOn answer sights i = .pause waiting) ∧
      Seen r (sights n) names ((sights 0).now + (sights 0).patience) (.ends outcome) ∧
      r.lookingOn answer sights n =
        match outcome with
        | none => move (sights n)
        | some outcome => .finish outcome (r.waitLog names outcome) := by
  have hends : ∃ n, r.look (sights n) names ((sights 0).now + (sights 0).patience) ≠ .again :=
    ⟨_, look_ne_again hpos hclock⟩
  classical
  -- The first look that does not say to look again ends the wait.
  have hagain : ∀ i < Nat.find hends,
      r.look (sights i) names ((sights 0).now + (sights 0).patience) = .again :=
    fun i hi => not_not.1 (Nat.find_min hends hi)
  have hmove := h.lookingOn_eq rfl hagain
  cases hlook : r.look (sights (Nat.find hends)) names
      ((sights 0).now + (sights 0).patience) with
  | again => exact absurd hlook (Nat.find_spec hends)
  | ends outcome =>
    refine ⟨Nat.find hends, outcome, Nat.find_min' hends (look_ne_again hpos hclock),
      fun i hi => ?_, hlook ▸ r.seen_look _ _ _, ?_⟩
    · rw [h.lookingOn_eq rfl fun j hj => hagain j (hj.trans hi), hagain i hi]
      exact ⟨_, rfl⟩
    · rw [hmove, hlook]
      cases outcome <;> rfl

/-- A run with one field that is validated for ever, and with a patience of two and a half
intervals. -/
theorem wait_bounded_endless :
    let r : Run := { version := 1, batch := { changed := [.text "a"] } }
    let sights (n : Nat) : Sight :=
      { now := 100 + n * 10, version := 1, patience := 25, validating := fun _ => true,
        invalid := fun _ => false }
    r.BeginsToWait (sights 0) (.ok true) [.text "a"] .settling r.examine ∧
      ∃ n ≤ 3, (∀ i < n, ∃ waiting, r.lookingOn (.ok true) sights i = .pause waiting) ∧
        125 ≤ (sights n).now ∧
        r.lookingOn (.ok true) sights n = .finish .blocked (r.waitLog [.text "a"] .blocked) := by
  intro r sights
  have hbegins : r.BeginsToWait (sights 0) (.ok true) [.text "a"] .settling r.examine :=
    .first (.ok true) rfl
  obtain ⟨n, outcome, hn, hpauses, hseen, hmove⟩ :=
    wait_bounded (by decide : 0 < 10)
      (fun n => by simp only [sights, Nat.succ_mul, Nat.add_assoc]) hbegins
  have hceil : ⌈((sights 0).patience : ℚ) / (10 : Nat)⌉₊ = 3 := by
    rw [Nat.ceil_eq_iff (by decide)]
    norm_num [sights]
  refine ⟨hbegins, n, hceil ▸ hn, hpauses, ?_⟩
  cases hseen with
  | settled hquiet _ => exact absurd (hquiet (.text "a") List.mem_cons_self) (by simp [sights])
  | late _ _ hlate => exact ⟨hlate, hmove⟩
  | superseded hversion => exact absurd rfl hversion

end LiveForm.Run
