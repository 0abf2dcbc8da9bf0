import Mathlib.Algebra.Order.AbsoluteValue
import Mathlib.Data.UInt

/-! `_validate_time` of the server: a request is accepted when its timestamp lies within the
timeout of the reference instant, in the past or in the future. A `SystemTime` is an instant
as a signed count of nanoseconds from the epoch, which is what Unix's `(tv_sec, tv_nsec)`
orders by, and a `Duration` a count of nanoseconds. `Timestamp::as_system_time` is not in src:
it is a parameter, with its own error. -/
namespace ManyRs.Server

/-- `SystemTime`, in nanoseconds from the epoch. -/
abbrev SystemTime := Int

/-- `SystemTime::duration_since`: the time from `early` to `later`, an error when `early` is
later. -/
def SystemTime.durationSince (later early : SystemTime) : Option Nat :=
  if early ≤ later then some (later - early).toNat else none

/-- `Duration::as_secs`: the whole seconds. -/
def asSecs (d : Nat) : Nat := d / 1000000000

/-- Modelled from the spec: `RequestMessage`, of which `_validate_time` reads the
timestamp. -/
structure RequestMessage (Timestamp : Type) where
  timestamp : Option Timestamp

/-- Modelled from the spec: the `ManyError`s `_validate_time` returns, by the constructor that
builds them, and the error of `as_system_time`, passed on by `?`. -/
inductive TimeError (ε : Type)
  | timestampOutOfRange
  | requiredFieldMissing (field : String)
  | conversion (e : ε)
  deriving DecidableEq, Repr

variable {Timestamp ε : Type} (asSystemTime : Timestamp → Except ε SystemTime)

/-- `_validate_time`. -/
def validateTime (message : RequestMessage Timestamp) (now : SystemTime) (timeoutInSecs : UInt64) :
    Except (TimeError ε) Unit := do
  if timeoutInSecs = 0 then throw .timestampOutOfRange
  let ts ← match message.timestamp with
    | none => throw (.requiredFieldMissing "timestamp")
    | some t => (asSystemTime t).mapError .conversion
  let (early, later) := if ts < now then (ts, now) else (now, ts)
  let diff ← match later.durationSince early with
    | some d => pure d
    | none => throw .timestampOutOfRange
  if asSecs diff ≥ timeoutInSecs.toNat then throw .timestampOutOfRange

/-- The ordered pair of `ts` and `now` is always apart by `|ts - now|`. -/
theorem durationSince_ordered (ts now : SystemTime) :
    (if ts < now then (ts, now) else (now, ts)).2.durationSince
        (if ts < now then (ts, now) else (now, ts)).1 = some |ts - now|.toNat := by
  unfold SystemTime.durationSince
  split
  · next h => rw [if_pos h.le, abs_of_neg (sub_neg.mpr h), neg_sub]
  · next h => rw [if_pos (not_lt.mp h), abs_of_nonneg (sub_nonneg.mpr (not_lt.mp h))]

/-- Whole seconds below the timeout are a span below the timeout in nanoseconds. -/
theorem asSecs_lt_iff (d t : Nat) : asSecs d < t ↔ d < t * 1000000000 := by
  rw [asSecs, Nat.div_lt_iff_lt_mul (by norm_num)]

theorem asSecs_abs_lt_iff (x : Int) (t : Nat) : asSecs |x|.toNat < t ↔ |x| < t * 1000000000 := by
  rw [asSecs_lt_iff]
  have h := abs_nonneg x
  generalize |x| = a at *
  omega

/-- `_validate_time` as the checks it makes, in order. -/
theorem validateTime_eq (message : RequestMessage Timestamp) (now : SystemTime)
    (timeoutInSecs : UInt64) :
    validateTime asSystemTime message now timeoutInSecs =
      if timeoutInSecs = 0 then .error .timestampOutOfRange else
        match message.timestamp with
        | none => .error (.requiredFieldMissing "timestamp")
        | some stamp =>
          match asSystemTime stamp with
          | .error e => .error (.conversion e)
          | .ok ts =>
            if asSecs |ts - now|.toNat < timeoutInSecs.toNat then .ok () else
              .error .timestampOutOfRange := by
  unfold validateTime
  by_cases h0 : timeoutInSecs = 0
  · simp only [h0, if_true]
    rfl
  · cases hts : message.timestamp with
    | none => simp only [h0, if_false]; rfl
    | some stamp =>
      cases hc : asSystemTime stamp with
      | error e => simp only [h0, if_false, Except.mapError, hc]; rfl
      | ok ts =>
        simp only [h0, hc, Except.mapError, durationSince_ordered, if_false]
        show (if asSecs |ts - now|.toNat ≥ timeoutInSecs.toNat then
          (throw .timestampOutOfRange : Except (TimeError ε) Unit) else pure ()) = _
        by_cases hlt : asSecs |ts - now|.toNat < timeoutInSecs.toNat
        · rw [if_neg (not_le.mpr hlt), if_pos hlt]
          rfl
        · rw [if_pos (not_lt.mp hlt), if_neg hlt]
          rfl

/-- A request is accepted exactly when the timeout is positive, the timestamp is there and
converts, and it lies strictly within the timeout of `now`; a timestamp `d` before `now` gets
the answer one `d` after it gets. -/
theorem validate_time_ok_iff (message : RequestMessage Timestamp) (now : SystemTime)
    (timeoutInSecs : UInt64) :
    (validateTime asSystemTime message now timeoutInSecs = .ok () ↔
      timeoutInSecs ≠ 0 ∧ ∃ stamp ts, message.timestamp = some stamp ∧
        asSystemTime stamp = .ok ts ∧ |ts - now| < timeoutInSecs.toNat * 1000000000) ∧
      ∀ d : Int, validateTime (fun _ => .ok (now - d)) message now timeoutInSecs =
        (validateTime (fun _ => .ok (now + d)) message now timeoutInSecs :
          Except (TimeError ε) Unit) := by
  refine ⟨?_, fun d => ?_⟩
  · rw [validateTime_eq]
    by_cases h0 : timeoutInSecs = 0
    · simp only [h0, if_true, ne_eq, not_true_eq_false, false_and, iff_false]
      nofun
    · rw [if_neg h0]
      cases hts : message.timestamp with
      | none => simp only [reduceCtorEq, false_and, exists_false, and_false, iff_false]
      | some stamp =>
        cases hc : asSystemTime stamp with
        | error e => simp [hc]
        | ok ts => simp [h0, hc, ← asSecs_abs_lt_iff]
  · simp only [validateTime_eq, sub_sub_cancel_left, abs_neg, add_sub_cancel_left]

end ManyRs.Server
