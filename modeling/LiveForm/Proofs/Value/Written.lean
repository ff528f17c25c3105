import Mathlib
import LiveForm.Value.Compare
import LiveForm.Value.Written

/-!
# Values that cannot be written, and values without wrappings

Writing a value fails in one way only: some whole number in it has too many digits
(`Value.written_failsOnly`). What has been stripped holds no wrapping at any depth
(`Value.unwrapped_stripped`).
-/

namespace LiveForm

/-- If a computation fails, it fails with an error that has a property. -/
def FailsOnly {ε α : Type} (P : ε → Prop) (r : Except ε α) : Prop :=
  ∀ e, r = .error e → P e

namespace FailsOnly

variable {ε δ α β : Type} {P Q : ε → Prop}

theorem ok (a : α) : FailsOnly P (.ok a : Except ε α) :=
  fun _ h => nomatch h

theorem error {e : ε} (h : P e) : FailsOnly P (.error e : Except ε α) :=
  fun _ he => Except.error.inj he ▸ h

theorem mono {r : Except ε α} (h : FailsOnly P r) (hPQ : ∀ e, P e → Q e) : FailsOnly Q r :=
  fun e he => hPQ e (h e he)

theorem bind {r : Except ε α} {f : α → Except ε β} (hr : FailsOnly P r)
    (hf : ∀ a, r = .ok a → FailsOnly P (f a)) : FailsOnly P (r >>= f) := by
  cases r with
  | error e => exact error (hr e rfl)
  | ok a => exact hf a rfl

theorem map {r : Except ε α} (hr : FailsOnly P r) (f : α → β) : FailsOnly P (r.map f) := by
  cases r with
  | error e => exact error (hr e rfl)
  | ok a => exact ok _

theorem mapError {r : Except ε α} {f : ε → δ} {R : δ → Prop} (h : FailsOnly (fun e => R (f e)) r) :
    FailsOnly R (r.mapError f) := by
  cases r with
  | error e => exact error (h e rfl)
  | ok a => exact ok _

end FailsOnly

/-! ### Values that are too long to be written -/

namespace Value

/-- In the value stands a whole number that is too long to be written. -/
inductive HoldsLong : Value → Prop
  | number {n : Int} : Nat.pow 10 digitLimit ≤ n.natAbs → HoldsLong (.int n)
  | item {items : List Value} {v : Value} : v ∈ items → HoldsLong v → HoldsLong (.list items)
  | key {entries : List (Key × Value)} {n : Int} {v : Value} : (.number (.int n), v) ∈ entries →
      Nat.pow 10 digitLimit ≤ n.natAbs → HoldsLong (.map entries)
  | entry {entries : List (Key × Value)} {k : Key} {v : Value} : (k, v) ∈ entries → HoldsLong v →
      HoldsLong (.map entries)
  | value {value : Value} {marks : Marks} {error : Value} : HoldsLong value →
      HoldsLong (.field value marks error)
  | error {value : Value} {marks : Marks} {error : Value} : HoldsLong error →
      HoldsLong (.field value marks error)
  | message {type : String} {message : Value} : HoldsLong message → HoldsLong (.issue type message)

/-- The value is no number itself, and a whole number stands in it that is too long to be
written. -/
def HidesLong (v : Value) : Prop :=
  v.count? = none ∧ v.HoldsLong

end Value

theorem Numeral.write_failsOnly (n : Int) :
    FailsOnly (fun e => e = .tooLongToWrite ∧ Nat.pow 10 digitLimit ≤ n.natAbs)
      (Numeral.write n) := by
  rw [write]
  by_cases h : n.natAbs < Nat.pow 10 digitLimit
  · rw [if_pos h]
    exact .ok _
  · rw [if_neg h]
    exact .error ⟨rfl, Nat.le_of_not_lt h⟩

theorem Key.written_failsOnly (k : Key) :
    FailsOnly (fun e => e = .tooLongToWrite ∧
      ∃ n : Int, k = .number (.int n) ∧ Nat.pow 10 digitLimit ≤ n.natAbs) k.written := by
  cases k with
  | null | bool _ | text _ => exact .ok _
  | number n =>
    cases n with
    | float x => exact .ok _
    | int n => exact (Numeral.write_failsOnly n).mono fun _ ⟨he, hlong⟩ => ⟨he, n, rfl, hlong⟩

mutual

/-- A value that cannot be written holds a number that is too long. -/
theorem Value.written_failsOnly :
    ∀ v : Value, FailsOnly (fun e => e = .tooLongToWrite ∧ v.HoldsLong) v.written
  | .null | .bool _ | .number (.float _) | .text _ | .unset | .callback _ | .check _ => .ok _
  | .number (.int n) =>
    (Numeral.write_failsOnly n).mono fun _ ⟨he, hlong⟩ => ⟨he, .number hlong⟩
  | .list items => by
    refine ((writtenItems_failsOnly items).mono ?_).bind fun _ _ => .ok _
    rintro _ ⟨he, v, hv, hlong⟩
    exact ⟨he, .item hv hlong⟩
  | .map entries => (writtenEntries_failsOnly entries).bind fun _ _ => .ok _
  | .field value _ error => by
    refine (value.written_failsOnly.mono ?_).bind fun _ _ =>
      (error.written_failsOnly.mono ?_).bind fun _ _ => .ok _
    · rintro _ ⟨he, hlong⟩
      exact ⟨he, .value hlong⟩
    · rintro _ ⟨he, hlong⟩
      exact ⟨he, .error hlong⟩
  | .issue _ message => by
    refine (message.written_failsOnly.mono ?_).bind fun _ _ => .ok _
    rintro _ ⟨he, hlong⟩
    exact ⟨he, .message hlong⟩

theorem writtenItems_failsOnly :
    ∀ items : List Value,
      FailsOnly (fun e => e = .tooLongToWrite ∧ ∃ v ∈ items, v.HoldsLong) (writtenItems items)
  | [] => .ok _
  | v :: rest => by
    have hrest := writtenItems_failsOnly rest
    refine (v.written_failsOnly.mono ?_).bind fun _ _ => (hrest.mono ?_).bind fun _ _ => .ok _
    · rintro _ ⟨he, hlong⟩
      exact ⟨he, v, List.mem_cons_self, hlong⟩
    · rintro _ ⟨he, w, hw, hlong⟩
      exact ⟨he, w, List.mem_cons_of_mem _ hw, hlong⟩

theorem writtenEntries_failsOnly :
    ∀ entries : List (Key × Value),
      FailsOnly (fun e => e = .tooLongToWrite ∧ (Value.map entries).HoldsLong)
        (writtenEntries entries)
  | [] => .ok _
  | (k, v) :: rest => by
    have hrest := writtenEntries_failsOnly rest
    refine (k.written_failsOnly.mono ?_).bind fun _ _ => (v.written_failsOnly.mono ?_).bind
      fun _ _ => (hrest.mono ?_).bind fun _ _ => .ok _
    · rintro _ ⟨he, n, rfl, hlong⟩
      exact ⟨he, .key List.mem_cons_self hlong⟩
    · rintro _ ⟨he, hlong⟩
      exact ⟨he, .entry List.mem_cons_self hlong⟩
    · rintro _ ⟨he, hlong⟩
      refine ⟨he, ?_⟩
      cases hlong with
      | key hmem hlong => exact .key (List.mem_cons_of_mem _ hmem) hlong
      | entry hmem hlong => exact .entry (List.mem_cons_of_mem _ hmem) hlong

end

/-! ### Values without wrappings -/

/-- No field stands in the value, at any depth of lists and maps. -/
inductive Value.Unwrapped : Value → Prop
  | null : Unwrapped .null
  | bool (b : Bool) : Unwrapped (.bool b)
  | number (n : Number) : Unwrapped (.number n)
  | text (s : String) : Unwrapped (.text s)
  | list {items : List Value} : (∀ v ∈ items, Unwrapped v) → Unwrapped (.list items)
  | map {entries : List (Key × Value)} : (∀ e ∈ entries, Unwrapped e.2) → Unwrapped (.map entries)
  | issue (type : String) (message : Value) : Unwrapped (.issue type message)
  | unset : Unwrapped .unset
  | callback (ref : Nat) : Unwrapped (.callback ref)
  | check (ref : Nat) : Unwrapped (.check ref)

mutual

/-- What has been stripped is unwrapped. -/
theorem Value.unwrapped_stripped : ∀ v : Value, v.stripped.Unwrapped
  | .null => .null
  | .bool b => .bool b
  | .number n => .number n
  | .text s => .text s
  | .list items => .list (unwrapped_strippedItems items)
  | .map entries => .map (unwrapped_strippedEntries entries)
  | .field value _ _ => value.unwrapped_stripped
  | .issue type message => .issue type message
  | .unset => .unset
  | .callback ref => .callback ref
  | .check ref => .check ref

theorem unwrapped_strippedItems :
    ∀ items : List Value, ∀ v ∈ Value.strippedItems items, v.Unwrapped
  | [] => List.forall_mem_nil _
  | v :: rest => List.forall_mem_cons.2 ⟨v.unwrapped_stripped, unwrapped_strippedItems rest⟩

theorem unwrapped_strippedEntries :
    ∀ entries : List (Key × Value), ∀ e ∈ Value.strippedEntries entries, e.2.Unwrapped
  | [] => List.forall_mem_nil _
  | (_, v) :: rest => List.forall_mem_cons.2 ⟨v.unwrapped_stripped, unwrapped_strippedEntries rest⟩

end

end LiveForm
