import IsadoraAir.Schedule.Resolution

/-!
# Scheduled windows of talent assignments

An assignment applies on one date or weekly. Its window on a date is widened by
the station's allowances and may run past midnight. The evaluator looks at three
dates, which leaves out one: a window that is opened two days ago and still open.

A date is its number, and an instant of the wall clock is its microsecond since
the start of date 0; both instants that are compared are in the station's zone.
-/

namespace IsadoraAir.Authz

open Schedule (TimeOfDay)

def microsecondsPerDay : ℤ := 86400000000

def microsecondsPerMinute : ℤ := 60000000

/-- The microsecond of the day. -/
def microsecondOf (time : TimeOfDay) : ℤ :=
  ((time.hour * 60 + time.minute) * 60 + time.second) * 1000000 + time.microsecond

theorem microsecondOf_range (time : TimeOfDay) :
    0 ≤ microsecondOf time ∧ microsecondOf time < microsecondsPerDay := by
  obtain ⟨hour, minute, second, microsecond, hh, hm, hs, hu⟩ := time
  simp only [microsecondOf, microsecondsPerDay]
  omega

/-- `dt.datetime.combine(date, time)` -/
def combine (date : ℤ) (time : TimeOfDay) : ℤ := date * microsecondsPerDay + microsecondOf time

/-- `date.weekday()`, Monday first; date 1 is a Monday. -/
def weekday (date : ℤ) : ℤ := (date + 6) % 7

/-- The constraint on the table sets exactly one of the day and the date. -/
structure TalentAssignment where
  dayOfWeek : Option (Fin 7)
  specificDate : Option ℤ
  startTime : TimeOfDay
  endTime : TimeOfDay
  active : Bool
  exactlyOne : dayOfWeek.isSome ≠ specificDate.isSome

namespace TalentAssignment

variable (a : TalentAssignment)

def crossesMidnight : Bool := microsecondOf a.endTime ≤ microsecondOf a.startTime

/-- The test of an anchor. -/
def appliesOn (date : ℤ) : Bool :=
  match a.specificDate with
  | some specificDate => specificDate = date
  | none => a.dayOfWeek.map (fun day => (day.val : ℤ)) = some (weekday date)

/-- The window on a date, half-open. -/
def windowOn (pre post : ℕ) (date now : ℤ) : Bool :=
  let start := combine date a.startTime
  let endDate := if a.crossesMidnight then date + 1 else date
  let stop := combine endDate a.endTime
  start - pre * microsecondsPerMinute ≤ now ∧ now < stop + post * microsecondsPerMinute

/-- `_assignment_covers` -/
def covers (now : ℤ) (pre post : ℕ) : Bool :=
  [-1, 0, 1].any fun delta =>
    let referenceDate := now / microsecondsPerDay + delta
    a.appliesOn referenceDate && a.windowOn pre post referenceDate now

/-- Some date's window covers the instant. -/
def IsCovered (now : ℤ) (pre post : ℕ) : Prop :=
  ∃ date, a.appliesOn date = true ∧ a.windowOn pre post date now = true

/-- The window that was opened two days ago is still open. -/
def OpenSinceTwoDays (now : ℤ) (post : ℕ) : Prop :=
  a.appliesOn (now / microsecondsPerDay - 2) = true ∧ a.crossesMidnight = true ∧
    now % microsecondsPerDay + microsecondsPerDay <
      microsecondOf a.endTime + post * microsecondsPerMinute

end TalentAssignment

/-! ## The result of a check -/

inductive ResultCode where
  | allowed
  | noAssignment
  | inactiveAssignment
  | outsideScheduleWindow
  deriving DecidableEq

structure AuthzResult where
  allowed : Bool
  code : ResultCode
  reason : String

/-- `_check_schedule` for the assignments of a user; the capability's name is quoted. -/
def checkSchedule (assignments : List TalentAssignment) (capability : String) (now : ℤ)
    (pre post : ℕ) : AuthzResult :=
  if assignments = [] then
    ⟨false, .noAssignment, "No talent assignment exists for this account; " ++ capability ++
      " requires one."⟩
  else if assignments.any fun a => a.active && a.covers now pre post then
    ⟨true, .allowed, "Authorized via Role-granted capability " ++ capability ++
      ", confirmed by an active talent assignment covering the current time."⟩
  else if assignments.any fun a => !a.active && a.covers now pre post then
    ⟨false, .inactiveAssignment, "A talent assignment covers the current time but is marked " ++
      "inactive; " ++ capability ++ " requires an active one."⟩
  else
    ⟨false, .outsideScheduleWindow, "No talent assignment is currently in its effective window; " ++
      capability ++ " requires one."⟩

/-- A check allows exactly when an active assignment covers the instant. -/
theorem checkSchedule_allowed {assignments : List TalentAssignment} {capability : String} {now : ℤ}
    {pre post : ℕ} :
    (checkSchedule assignments capability now pre post).allowed = true ↔
      ∃ a ∈ assignments, a.active = true ∧ a.covers now pre post = true := by
  by_cases hnil : assignments = []
  · simp [checkSchedule, hnil]
  · simp only [checkSchedule, if_neg hnil, ← Bool.and_eq_true, ← List.any_eq_true]
    split_ifs with h h'
    · simp [h]
    · simp [h]
    · simp [h]

namespace TalentAssignment

variable {a : TalentAssignment} {pre post : ℕ} {date now : ℤ}

/-! ## Windows relative to the current date -/

theorem windowOn_iff :
    a.windowOn pre post date now = true ↔
      date * microsecondsPerDay + microsecondOf a.startTime - pre * microsecondsPerMinute ≤ now ∧
        now < (if a.crossesMidnight = true then date + 1 else date) * microsecondsPerDay +
          microsecondOf a.endTime + post * microsecondsPerMinute := by
  simp [windowOn, combine]

/-- Two dates less than a week apart on which an assignment applies are the same. -/
theorem eq_of_appliesOn {date' : ℤ} (h : a.appliesOn date = true) (h' : a.appliesOn date' = true)
    (hnear : -7 < date - date' ∧ date - date' < 7) : date = date' := by
  unfold appliesOn at h h'
  cases hdate : a.specificDate with
  | some specificDate =>
    simp only [hdate, decide_eq_true_eq] at h h'
    omega
  | none =>
    simp only [hdate, decide_eq_true_eq] at h h'
    have hsame : weekday date = weekday date' := Option.some.inj (h.symm.trans h')
    simp only [weekday] at hsame
    omega

/-- With allowances below a day, a window that covers an instant is opened on one of the three
dates around it, or two days before. -/
theorem date_of_windowOn (hpre : pre < 1440) (hpost : post < 1440)
    (h : a.windowOn pre post date now = true) :
    (∃ delta ∈ [-1, 0, 1], date = now / microsecondsPerDay + delta) ∨
      date = now / microsecondsPerDay - 2 := by
  have hstart := microsecondOf_range a.startTime
  have hend := microsecondOf_range a.endTime
  rw [windowOn_iff] at h
  simp only [microsecondsPerDay, microsecondsPerMinute] at h hstart hend ⊢
  have hbounds : now / 86400000000 - 2 ≤ date ∧ date ≤ now / 86400000000 + 1 := by
    split_ifs at h <;> omega
  simp only [List.mem_cons, List.not_mem_nil, or_false, exists_eq_or_imp, exists_eq_left]
  omega

/-- The window of two days ago covers the instant exactly when it runs past midnight and far enough
into today. -/
theorem windowOn_two_days_ago (hpre : pre < 1440) (hpost : post < 1440) :
    a.windowOn pre post (now / microsecondsPerDay - 2) now = true ↔
      a.crossesMidnight = true ∧ now % microsecondsPerDay + microsecondsPerDay <
        microsecondOf a.endTime + post * microsecondsPerMinute := by
  have hstart := microsecondOf_range a.startTime
  have hend := microsecondOf_range a.endTime
  rw [windowOn_iff]
  simp only [microsecondsPerDay, microsecondsPerMinute] at hstart hend ⊢
  cases a.crossesMidnight with
  | true =>
    simp only [if_true, true_and]
    constructor <;> intro h <;> omega
  | false =>
    simp only [Bool.false_eq_true, if_false, false_and, iff_false]
    omega

theorem isCovered_of_covers (h : a.covers now pre post = true) : a.IsCovered now pre post := by
  obtain ⟨delta, -, hdelta⟩ := List.any_eq_true.mp h
  rw [Bool.and_eq_true] at hdelta
  exact ⟨_, hdelta⟩

theorem openSinceTwoDays_iff (hpre : pre < 1440) (hpost : post < 1440) :
    a.OpenSinceTwoDays now post ↔ a.appliesOn (now / microsecondsPerDay - 2) = true ∧
      a.windowOn pre post (now / microsecondsPerDay - 2) now = true := by
  rw [windowOn_two_days_ago hpre hpost, OpenSinceTwoDays]

/-- Where a window is open since two days, no other date of the assignment is looked at. -/
theorem not_covers_of_openSinceTwoDays (h : a.OpenSinceTwoDays now post) :
    ¬a.covers now pre post = true := by
  intro hcovers
  obtain ⟨delta, hmem, hdelta⟩ := List.any_eq_true.mp hcovers
  rw [Bool.and_eq_true] at hdelta
  have hrange : -1 ≤ delta ∧ delta ≤ 1 := by
    simp only [List.mem_cons, List.not_mem_nil, or_false] at hmem
    omega
  have hsame := eq_of_appliesOn hdelta.1 h.1 (by omega)
  omega

end TalentAssignment

/-- The three dates miss no window unless one is open since two days. -/
theorem covers_iff_isCovered_iff (a : TalentAssignment) (now : ℤ) {pre post : ℕ}
    (hpre : pre < 1440) (hpost : post < 1440) :
    (a.covers now pre post = true ↔ a.IsCovered now pre post) ↔ ¬a.OpenSinceTwoDays now post := by
  constructor
  · intro h hopen
    refine TalentAssignment.not_covers_of_openSinceTwoDays hopen
      (h.mpr ⟨now / microsecondsPerDay - 2, ?_⟩)
    exact (TalentAssignment.openSinceTwoDays_iff hpre hpost).mp hopen
  · intro hclosed
    refine ⟨TalentAssignment.isCovered_of_covers, ?_⟩
    rintro ⟨date, happlies, hwindow⟩
    rcases TalentAssignment.date_of_windowOn hpre hpost hwindow with ⟨delta, hmem, rfl⟩ | rfl
    · exact List.any_eq_true.mpr ⟨delta, hmem, by simp only [happlies, hwindow, Bool.and_self]⟩
    · exact absurd ((TalentAssignment.openSinceTwoDays_iff hpre hpost).mpr ⟨happlies, hwindow⟩)
        hclosed

/-- From 22:00 to 20:00 on the next day, on date 100. -/
def sampleAssignment : TalentAssignment where
  dayOfWeek := none
  specificDate := some 100
  startTime := ⟨22, 0, 0, 0, by decide, by decide, by decide, by decide⟩
  endTime := ⟨20, 0, 0, 0, by decide, by decide, by decide, by decide⟩
  active := true
  exactlyOne := by decide

/-- An hour into date 101. -/
theorem covers_iff_isCovered_iff_sample :
    (sampleAssignment.covers (101 * microsecondsPerDay + 3600000000) 10 15 = true ↔
      sampleAssignment.IsCovered (101 * microsecondsPerDay + 3600000000) 10 15) ↔
      ¬sampleAssignment.OpenSinceTwoDays (101 * microsecondsPerDay + 3600000000) 15 :=
  covers_iff_isCovered_iff sampleAssignment _ (by decide) (by decide)

/-- The window of date 100 ends at 02:00 on date 102 with an allowance of six hours, and is not
found an hour before. -/
theorem window_open_since_two_days_is_missed :
    sampleAssignment.IsCovered (102 * microsecondsPerDay + 3600000000) 10 360 ∧
      ¬sampleAssignment.covers (102 * microsecondsPerDay + 3600000000) 10 360 = true :=
  ⟨⟨100, by decide, by decide⟩, by decide⟩

end IsadoraAir.Authz
