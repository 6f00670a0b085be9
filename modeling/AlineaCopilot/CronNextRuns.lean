import AlineaCopilot.CronJobs
import AlineaCopilot.RustPanics

open AlineaCopilot.CronJobs AlineaCopilot.RustPanics AlineaCopilot.RustText

namespace AlineaCopilot.CronNextRuns

-- The `cron` and `chrono-tz` crates: how they read an expression and a time zone,
-- and the milliseconds of `schedule.after(&instant).next()`.
structure Crates where
  Schedule : Type
  Zone : Type
  utc : Zone
  fromStr : String → Except String Schedule
  parseTz : String → Option Zone
  next : Schedule → Zone → Int64 → Option Int64

-- A schedule as the service holds it, in machine integers.
inductive Schedule where
  | atTime (atMs : Int64) (description : Option String)
  | every (everyMs : Int64) (description : Option String)
  | cron (expr : String) (tz description : Option String)

-- `split_whitespace().count()`
def fieldCount (text : List Char) : Nat := go false text
where
  go (within : Bool) : List Char → Nat
    | [] => 0
    | c :: rest => if isWhitespace c then go false rest else (if within then 0 else 1) + go true rest

def normalizeCronExpr (expr : String) : String :=
  let trimmed := trim expr
  if fieldCount trimmed.toList = 5 then "0 " ++ trimmed else trimmed

-- The instants that `chrono` can represent; `timestamp_millis_opt` is single for
-- each of them.
def chronoMin : Int := -8334601228800000
def chronoMax : Int := 8210266876799999

def timestampMillisOpt (now : Int64) : Option Int64 :=
  if chronoMin ≤ now.toInt ∧ now.toInt ≤ chronoMax then some now else none

section Functions
variable (crates : Crates)

def validateCronExpression (expr : String) : Except CronError crates.Schedule :=
  match crates.fromStr (normalizeCronExpr expr) with
  | .ok schedule => .ok schedule
  | .error e => .error (.invalidCronExpression (expr ++ ": " ++ e))

def validateTimezone (tz : String) : Except CronError crates.Zone :=
  match crates.parseTz tz with
  | some zone => .ok zone
  | none => .error (.invalidTimezone tz)

def validateSchedule : Schedule → Except CronError Unit
  | .atTime _ _ => .ok ()
  | .every everyMs _ => if everyMs ≤ 0 then .error (.invalidSchedule "every_ms must be positive") else .ok ()
  | .cron expr tz _ =>
    if (trim expr).isEmpty then .ok ()
    else do
      let _ ← validateCronExpression crates expr
      match tz with
      | some tz => do
        let _ ← validateTimezone crates tz
        return ()
      | none => return ()

def computeCronNextRun (expr : String) (tz : Option String) (now : Int64) : Option Int64 :=
  match crates.fromStr (normalizeCronExpr expr) with
  | .error _ => none
  | .ok schedule => match tz with
    | some tz => do
      let zone ← crates.parseTz tz
      let instant ← timestampMillisOpt now
      crates.next schedule zone instant
    | none => do
      let instant ← timestampMillisOpt now
      crates.next schedule crates.utc instant

def computeNextRun : Schedule → Int64 → Checked (Option Int64)
  | .atTime atMs _,_ => .ok (some atMs)
  | .every everyMs _,now =>
    if everyMs ≤ 0 then .ok none else do
      let next ← addI64 now everyMs
      return some next
  | .cron expr tz _,now => .ok (computeCronNextRun crates expr tz now)

end Functions

def subI64 (a b : Int64) : Checked Int64 :=
  if -2 ^ 63 ≤ a.toInt - b.toInt ∧ a.toInt - b.toInt < 2 ^ 63 then .ok (a - b) else .error .arithmetic

def delayUntil (targetMs now : Int64) : Checked Int64 := do
  let delay ← subI64 targetMs now
  return max delay 0

section Advance
variable {crates : Crates} {schedule : Schedule} {now : Int64}

def Recurring : Schedule → Prop
  | .atTime _ _ => False
  | _ => True

-- Why a recurring schedule may have no next run: it has no expression, or the
-- expression never matches again.
def Ends (crates : Crates) (now : Int64) : Schedule → Prop
  | .cron expr tz _ => (trim expr).isEmpty = true ∨ ∃ parsed zone, crates.fromStr (normalizeCronExpr expr) = .ok parsed ∧
      (zone = match tz with
        | some tz => crates.parseTz tz
        | none => some crates.utc) ∧
      ∀ place ∈ zone, crates.next parsed place now = none
  | _ => False

def Advances (crates : Crates) (schedule : Schedule) (now : Int64) : Prop :=
  ∃ next, computeNextRun crates schedule now = .ok next ∧ match next with
    | none => Ends crates now schedule
    | some nextMs => now < nextMs ∧ ∃ delay, delayUntil nextMs now = .ok delay ∧ 0 < delay

-- `now_ms` counts from the epoch, and `chrono` can represent the instant.
def Real (now : Int64) : Prop := 0 ≤ now.toInt ∧ now.toInt ≤ chronoMax

theorem timestamp_real (real : Real now) : timestampMillisOpt now = some now := by
  refine if_pos ⟨?_,real.2⟩
  have least : chronoMin ≤ 0 := by decide
  exact Int.le_trans least real.1

theorem toInt_add_exact {a b : Int64} (low : -2 ^ 63 ≤ a.toInt + b.toInt) (high : a.toInt + b.toInt < 2 ^ 63) :
    (a + b).toInt = a.toInt + b.toInt := by
  rw [Int64.toInt_add]
  exact Int.bmod_eq_of_le (by omega) (by omega)

theorem toInt_sub_exact {a b : Int64} (low : -2 ^ 63 ≤ a.toInt - b.toInt) (high : a.toInt - b.toInt < 2 ^ 63) :
    (a - b).toInt = a.toInt - b.toInt := by
  rw [Int64.toInt_sub]
  exact Int.bmod_eq_of_le (by omega) (by omega)

-- The timer of a later instant waits.
theorem delay_positive {target : Int64} (real : Real now) (later : now < target) :
    ∃ delay, delayUntil target now = .ok delay ∧ 0 < delay := by
  have above := Int64.lt_iff_toInt_lt.mp later
  have bound := target.toInt_lt
  have start := real.1
  have low : -2 ^ 63 ≤ target.toInt - now.toInt := by omega
  have high : target.toInt - now.toInt < 2 ^ 63 := by omega
  have positive : (0 : Int64) < target - now := by
    rw [Int64.lt_iff_toInt_lt,toInt_sub_exact low high,Int64.toInt_zero]
    omega
  refine ⟨max (target - now) 0,?_,?_⟩
  · unfold delayUntil subI64
    rw [if_pos ⟨low,high⟩]
    rfl
  · have largest : max (target - now) 0 = target - now := if_neg (Int64.not_le.mpr positive)
    rw [largest]
    exact positive

theorem accepted_every {everyMs : Int64} {description : Option String}
    (accepted : validateSchedule crates (.every everyMs description) = .ok ()) : ¬everyMs ≤ 0 := by
  intro refused
  simp only [validateSchedule,if_pos refused] at accepted
  cases accepted

theorem every_advances {everyMs : Int64} {description : Option String} (real : Real now) (positive : ¬everyMs ≤ 0) :
    Advances crates (.every everyMs description) now ↔ now.toInt + everyMs.toInt < 2 ^ 63 := by
  have above : 0 < everyMs.toInt := by
    have := Int64.lt_iff_toInt_lt.mp (Int64.not_le.mp positive)
    simpa using this
  have start := real.1
  simp only [Advances,computeNextRun,if_neg positive]
  constructor
  · rintro ⟨next,computed,-⟩
    obtain ⟨sum,added,-⟩ := returns_bind.mp ⟨next,computed⟩
    exact (returns_addI64.mp ⟨sum,added⟩).2
  · intro high
    have low : -2 ^ 63 ≤ now.toInt + everyMs.toInt := by omega
    have later : now < now + everyMs := by
      rw [Int64.lt_iff_toInt_lt,toInt_add_exact low high]
      omega
    refine ⟨some (now + everyMs),?_,later,delay_positive real later⟩
    unfold addI64
    rw [if_pos ⟨low,high⟩]
    rfl

-- The expression is read by the same function when it is accepted and when the
-- next run is computed.
theorem accepted_cron {expr : String} {tz description : Option String} (full : ¬(trim expr).isEmpty = true)
    (accepted : validateSchedule crates (.cron expr tz description) = .ok ()) :
    (∃ parsed, crates.fromStr (normalizeCronExpr expr) = .ok parsed) ∧ ∀ name, tz = some name → ∃ zone, crates.parseTz name = some zone := by
  simp only [validateSchedule,if_neg full,validateCronExpression] at accepted
  cases read : crates.fromStr (normalizeCronExpr expr) with
  | error e =>
    rw [read] at accepted
    cases accepted
  | ok parsed =>
    refine ⟨⟨parsed,rfl⟩,?_⟩
    rintro name rfl
    rw [read] at accepted
    unfold validateTimezone at accepted
    cases placed : crates.parseTz name with
    | none =>
      simp only [placed] at accepted
      cases accepted
    | some zone => exact ⟨zone,rfl⟩

theorem cron_advances {expr : String} {tz description : Option String} (real : Real now)
    (later : ∀ parsed zone instant next, crates.next parsed zone instant = some next → instant < next)
    (accepted : validateSchedule crates (.cron expr tz description) = .ok ()) :
    Advances crates (.cron expr tz description) now := by
  refine ⟨computeCronNextRun crates expr tz now,rfl,?_⟩
  cases computed : computeCronNextRun crates expr tz now with
  | some next =>
    have after : now < next := by
      unfold computeCronNextRun at computed
      rw [timestamp_real real] at computed
      split at computed
      · cases computed
      · split at computed
        · obtain ⟨zone,-,matched⟩ := Option.bind_eq_some_iff.mp computed
          exact later _ _ _ _ matched
        · exact later _ _ _ _ computed
    exact ⟨after,delay_positive real after⟩
  | none =>
    by_cases blank : (trim expr).isEmpty = true
    · exact .inl blank
    · obtain ⟨⟨parsed,read⟩,zoned⟩ := accepted_cron blank accepted
      unfold computeCronNextRun at computed
      rw [read,timestamp_real real] at computed
      cases tz with
      | none =>
        refine .inr ⟨parsed,some crates.utc,read,rfl,fun place inside => ?_⟩
        cases inside
        exact computed
      | some name =>
        obtain ⟨zone,placed⟩ := zoned name rfl
        refine .inr ⟨parsed,some zone,read,placed.symm,fun place inside => ?_⟩
        cases inside
        simp only [placed] at computed
        exact computed

theorem recurring_advances_iff (crates : Crates) (schedule : Schedule) (now : Int64) (real : Real now) (recurring : Recurring schedule)
    (later : ∀ parsed zone instant next, crates.next parsed zone instant = some next → instant < next)
    (accepted : validateSchedule crates schedule = .ok ()) :
    Advances crates schedule now ↔ ∀ everyMs description, schedule = .every everyMs description → now.toInt + everyMs.toInt < 2 ^ 63 := by
  cases schedule with
  | atTime atMs description => exact absurd recurring id
  | every everyMs description =>
    rw [every_advances real (accepted_every accepted)]
    constructor
    · rintro high _ _ ⟨⟩
      exact high
    · exact fun high => high everyMs description rfl
  | cron expr tz description =>
    refine iff_of_true (cron_advances real later accepted) ?_
    rintro everyMs other ⟨⟩

end Advance

section Examples

-- Every minute, as far as the first one of all goes.
def minutely : Crates where
  Schedule := Unit
  Zone := Unit
  utc := ()
  fromStr text := if text = "0 * * * * *" then .ok () else .error "Invalid expression: Invalid cron expression."
  parseTz name := if name = "Asia/Shanghai" then some () else none
  next _ _ instant := if instant < 60000 then some 60000 else none

theorem minutely_later (parsed zone : Unit) (instant next : Int64) (matched : minutely.next parsed zone instant = some next) :
    instant < next := by
  obtain ⟨early,same⟩ := Option.ite_none_right_eq_some.mp matched
  cases same
  exact early

theorem recurring_advances_minutely :
    Advances minutely (.cron "* * * * *" (some "Asia/Shanghai") none) 1000 ∧ Advances minutely (.every 86400000 none) 1000 := by
  have real : Real 1000 := ⟨by decide,by decide⟩
  constructor
  · refine (recurring_advances_iff minutely (.cron "* * * * *" (some "Asia/Shanghai") none) 1000 real trivial minutely_later
      (by decide)).mpr ?_
    rintro everyMs description ⟨⟩
  · refine (recurring_advances_iff minutely (.every 86400000 none) 1000 real trivial minutely_later (by decide)).mpr ?_
    rintro everyMs description ⟨⟩
    decide

-- The longest interval there is, at the end of 2025.
theorem longest_interval_overflows : validateSchedule minutely (.every Int64.maxValue none) = .ok () ∧
    computeNextRun minutely (.every Int64.maxValue none) 1767225599000 = .error .arithmetic ∧
    ¬Advances minutely (.every Int64.maxValue none) 1767225599000 := by
  have overflows : computeNextRun minutely (.every Int64.maxValue none) 1767225599000 = .error .arithmetic := by decide
  refine ⟨by decide,overflows,?_⟩
  rintro ⟨next,computed,-⟩
  rw [overflows] at computed
  cases computed

end Examples

end AlineaCopilot.CronNextRuns
