import Mathlib.Tactic.Positivity
import IsadoraAir.HiddenTracks.Spans

/-!
# What the detector finds

Every candidate is a span that meets the limits with a sustained return behind it. A span that
meets the limits and has a long enough unbroken stretch of audio behind it becomes a candidate
while the budget lasts: an attempt that fails ends less than a validation window into the stretch,
and the next one begins within it.
-/

namespace IsadoraAir.HiddenTracks

variable {r : Resumed} {span : Span} {attempts first j left searchFrom : ℕ}

section Counting

variable {p : ℕ → Bool} {i k : ℕ}

theorem countBetween_succ (h : i ≤ k + 1) :
    countBetween p i (k + 1) = countBetween p i k + if p (k + 1) then 1 else 0 := by
  have hlength : k + 1 + 1 - i = k + 1 - i + 1 := by omega
  have hlast : i + (k + 1 - i) = k + 1 := by omega
  rw [countBetween, hlength, List.range'_1_concat, List.countP_append, hlast,
    List.countP_singleton]
  rfl

theorem countBetween_of_forall (h : ∀ x, i ≤ x → x ≤ k → p x = true) :
    countBetween p i k = k + 1 - i := by
  rw [countBetween, List.countP_eq_length.mpr, List.length_range']
  intro x hx
  rw [List.mem_range'_1] at hx
  exact h x hx.1 (by omega)

end Counting

section Search

variable {times levels : List ℚ} {s : Settings}

/-- The windows of a stretch are all active. -/
def Unbroken (levels : List ℚ) (s : Settings) (a b : ℕ) : Prop :=
  ∀ x, a ≤ x → x ≤ b → isActive levels s x = true

theorem nextCrossing_spec (h : nextCrossing times levels s searchFrom = some first) :
    searchFrom ≤ first ∧ first < times.length ∧ isActive levels s first = true ∧
      ∀ x, searchFrom ≤ x → x < first → isActive levels s x = false := by
  obtain ⟨hactive, hmem, hbefore⟩ := List.find?_range'_eq_some.mp h
  rw [List.mem_range'_1] at hmem
  exact ⟨hmem.1, by omega, hactive, fun x hx hlt => by simpa using hbefore x hx hlt⟩

/-- An active window is the first crossing at the latest. -/
theorem nextCrossing_of_active {x : ℕ} (hx : searchFrom ≤ x) (hlt : x < times.length)
    (hactive : isActive levels s x = true) :
    ∃ first, nextCrossing times levels s searchFrom = some first ∧ first ≤ x := by
  rcases h : nextCrossing times levels s searchFrom with _ | first
  · have hnone := List.find?_range'_eq_none.mp h x hx (by omega)
    simp [hactive] at hnone
  · refine ⟨first, rfl, ?_⟩
    by_contra hlater
    have hfalse := (nextCrossing_spec h).2.2.2 x hx (not_le.mp hlater)
    rw [hactive] at hfalse
    cases hfalse

/-- The validation window is as short as the required length allows. -/
structure Validates (times : List ℚ) (s : Settings) (first j : ℕ) : Prop where
  le : first ≤ j
  lt : j < times.length
  enough : s.minResumedAudioSeconds ≤ spanExtent times first j ∨ j + 1 = times.length
  short : first < j → spanExtent times first (j - 1) < s.minResumedAudioSeconds

theorem validationEnd_spec (hleft : j + left + 1 = times.length) (hle : first ≤ j)
    (hshort : first < j → spanExtent times first (j - 1) < s.minResumedAudioSeconds) :
    Validates times s first (validationEnd times s first left j) := by
  induction left generalizing j with
  | zero =>
    change Validates times s first j
    exact ⟨hle, by omega, .inr hleft, hshort⟩
  | succ left ih =>
    unfold validationEnd
    split_ifs with hextent
    · exact ih (by omega) (by omega) fun _ => hextent
    · exact ⟨hle, by omega, .inl (not_lt.mp hextent), hshort⟩

theorem validates_search (hfirst : first < times.length) :
    Validates times s first (validationEnd times s first (times.length - (first + 1)) first) :=
  validationEnd_spec (by omega) le_rfl fun h => absurd h (lt_irrefl first)

/-- What a validated stretch has. -/
structure Validated (times levels : List ℚ) (s : Settings) (r : Resumed) : Prop where
  le : r.first ≤ r.last
  lt : r.last < times.length
  crossing : isActive levels s r.first = true
  long : s.minResumedAudioSeconds ≤ spanExtent times r.first r.last
  activeCount : r.activeCount = countBetween (isActive levels s) r.first r.last
  totalCount : r.totalCount = r.last - r.first + 1
  active : s.requiredActiveRatio ≤ (r.activeCount : ℚ) / r.totalCount

theorem search_sound (h : search times levels s attempts searchFrom = (some r, left)) :
    searchFrom ≤ r.first ∧ Validated times levels s r := by
  fun_induction search times levels s attempts searchFrom with
  | case1 => cases h
  | case2 => cases h
  | case3 => cases h
  | case4 => cases h
  | case5 attempts searchFrom hlt first hcrossing j hlong activeCount totalCount hratio =>
    cases h
    obtain ⟨hfrom, hfirst, hactive, -⟩ := nextCrossing_spec hcrossing
    have hvalidates : Validates times s first j := validates_search hfirst
    exact ⟨hfrom, hvalidates.le, hvalidates.lt, hactive, not_lt.mp hlong, rfl, rfl, hratio⟩
  | case6 attempts searchFrom hlt first hcrossing j hlong activeCount totalCount hratio ih =>
    obtain ⟨hfrom, hvalidated⟩ := ih h
    obtain ⟨hfirst, hlt', -⟩ := nextCrossing_spec hcrossing
    have hvalidates : Validates times s first j := validates_search hlt'
    exact ⟨hfirst.trans (hvalidates.le.trans (Nat.le_of_succ_le hfrom)), hvalidated⟩

/-- The budget only shrinks. -/
theorem search_budget_le (times levels : List ℚ) (s : Settings) (attempts searchFrom : ℕ) :
    (search times levels s attempts searchFrom).2 ≤ attempts := by
  fun_induction search times levels s attempts searchFrom with
  | case6 attempts searchFrom hlt first hcrossing j hlong activeCount totalCount hratio ih =>
    exact ih.trans (Nat.le_succ attempts)
  | _ => simp

/-- An unbroken stretch behind a span that is long enough to be found. -/
structure Sustained (times levels : List ℚ) (s : Settings) (widest : ℚ) (a b : ℕ) : Prop where
  le : a ≤ b
  lt : b < times.length
  unbroken : Unbroken levels s a b
  long : 2 * s.minResumedAudioSeconds + 2 * widest ≤ spanExtent times a b

/-- The search has not come far into the stretch. -/
def Reaches (times : List ℚ) (s : Settings) (widest : ℚ) (a b searchFrom : ℕ) : Prop :=
  searchFrom ≤ a ∨ a < searchFrom ∧ searchFrom ≤ b ∧
    nth times searchFrom - nth times a < s.minResumedAudioSeconds + widest

section Completeness

variable {widest : ℚ} {a b : ℕ}

/-- From where the search is, enough of the stretch is left. -/
theorem Sustained.enough (h : Sustained times levels s widest a b) (hinc : Increasing times)
    (hwidest : 0 ≤ widest) {k : ℕ} (hreaches : Reaches times s widest a b first)
    (hbk : b ≤ k) (hk : k < times.length) :
    s.minResumedAudioSeconds ≤ spanExtent times first k := by
  have hlong := h.long
  have hstop := stopTime_mono hinc hbk hk
  rw [spanExtent_eq] at hlong ⊢
  rcases hreaches with hle | ⟨-, hle, hnear⟩
  · have htimes := nth_le_nth hinc hle (h.le.trans_lt h.lt)
    have hnonneg := (nth_le_nth hinc (h.le.trans hbk) hk).trans (nth_le_stopTime hinc hk)
    rcases le_total 0 s.minResumedAudioSeconds with hpos | hneg
    · linarith
    · linarith
  · linarith

/-- The next crossing is not far into the stretch either. -/
theorem Sustained.reaches_first (h : Sustained times levels s widest a b)
    (hreaches : Reaches times s widest a b searchFrom)
    (hcrossing : nextCrossing times levels s searchFrom = some first) :
    Reaches times s widest a b first ∧ first ≤ b := by
  have hfrom := (nextCrossing_spec hcrossing).1
  rcases hreaches with hle | ⟨hlt, hle, hnear⟩
  · obtain ⟨_, heq, hfirst⟩ := nextCrossing_of_active hle (h.le.trans_lt h.lt)
      (h.unbroken a le_rfl h.le)
    obtain rfl := Option.some.inj (hcrossing.symm.trans heq)
    exact ⟨.inl hfirst, hfirst.trans h.le⟩
  · obtain ⟨_, heq, hfirst⟩ := nextCrossing_of_active le_rfl (hle.trans_lt h.lt)
      (h.unbroken searchFrom hlt.le hle)
    obtain rfl := Option.some.inj (hcrossing.symm.trans heq)
    obtain rfl := le_antisymm hfirst hfrom
    exact ⟨.inr ⟨hlt, hle, hnear⟩, hle⟩

theorem Sustained.exists_crossing (h : Sustained times levels s widest a b)
    (hreaches : Reaches times s widest a b searchFrom) :
    ∃ first, nextCrossing times levels s searchFrom = some first := by
  rcases hreaches with hle | ⟨hlt, hle, -⟩
  · obtain ⟨first, heq, -⟩ := nextCrossing_of_active hle (h.le.trans_lt h.lt)
      (h.unbroken a le_rfl h.le)
    exact ⟨first, heq⟩
  · obtain ⟨first, heq, -⟩ := nextCrossing_of_active le_rfl (hle.trans_lt h.lt)
      (h.unbroken searchFrom hlt.le hle)
    exact ⟨first, heq⟩

/-- A validation window that is active throughout passes. -/
theorem ratio_of_unbroken (hratio : s.requiredActiveRatio ≤ 1) (hle : first ≤ j)
    (hunbroken : Unbroken levels s first j) :
    s.requiredActiveRatio ≤
      (countBetween (isActive levels s) first j : ℚ) / (j - first + 1 : ℕ) := by
  have hcount : countBetween (isActive levels s) first j = j - first + 1 := by
    rw [countBetween_of_forall hunbroken]
    omega
  rw [hcount, div_self (by positivity)]
  exact hratio

/-- A window that fails begins before the stretch and ends early in it. -/
theorem Sustained.reaches_next (h : Sustained times levels s widest a b) (hinc : Increasing times)
    (hwidth : ∀ i < times.length, trailingWidth times i ≤ widest)
    (hratio : s.requiredActiveRatio ≤ 1) (hreaches : Reaches times s widest a b first)
    (hfirst : first ≤ b) (hvalidates : Validates times s first j) (hfails : ¬s.requiredActiveRatio ≤
      (countBetween (isActive levels s) first j : ℚ) / (j - first + 1 : ℕ)) :
    Reaches times s widest a b (j + 1) := by
  have hwidest : 0 ≤ widest :=
    (trailingWidth_nonneg hinc h.lt).trans (hwidth b h.lt)
  have hjb : j ≤ b := by
    by_contra hbj
    have hbj := not_le.mp hbj
    have henough := h.enough hinc hwidest hreaches (Nat.le_sub_one_of_lt hbj) (by
      have := hvalidates.lt
      omega)
    exact absurd henough (not_le.mpr (hvalidates.short (by omega)))
  have hfa : first < a := by
    by_contra haf
    exact hfails (ratio_of_unbroken hratio hvalidates.le fun x hx hxj =>
      h.unbroken x ((not_lt.mp haf).trans hx) (hxj.trans hjb))
  rcases Nat.lt_or_ge j a with hja | haj
  · exact .inl hja
  · have hshort := hvalidates.short (hfa.trans_le haj)
    have hprevious : j - 1 + 1 = j := by omega
    have hj := hvalidates.lt
    rw [spanExtent_eq, stopTime_of_lt (by omega), hprevious] at hshort
    have hpositive := nth_le_nth hinc hvalidates.le hj
    have hbefore := nth_le_nth hinc hfa.le (haj.trans_lt hj)
    have hjwidth := hwidth j hj
    have hbound : stopTime times j - nth times a < s.minResumedAudioSeconds + widest := by
      rw [stopTime]
      linarith
    have hlt : j < b := by
      refine hjb.lt_of_ne ?_
      rintro rfl
      have hlong := h.long
      rw [spanExtent_eq] at hlong
      linarith
    rw [stopTime_of_lt (by have := h.lt; omega)] at hbound
    exact .inr ⟨by omega, hlt, hbound⟩

theorem search_complete (h : Sustained times levels s widest a b) (hinc : Increasing times)
    (hwidth : ∀ i < times.length, trailingWidth times i ≤ widest)
    (hratio : s.requiredActiveRatio ≤ 1) (hreaches : Reaches times s widest a b searchFrom)
    (hleft : 0 < (search times levels s attempts searchFrom).2) :
    ∃ r, (search times levels s attempts searchFrom).1 = some r := by
  fun_induction search times levels s attempts searchFrom with
  | case1 => exact absurd hleft (lt_irrefl 0)
  | case2 attempts searchFrom hend =>
    have hlt := h.lt
    have hle := h.le
    rcases hreaches with hfrom | ⟨-, hfrom, -⟩
    · omega
    · omega
  | case3 attempts searchFrom hlt hnone =>
    obtain ⟨first, hcrossing⟩ := h.exists_crossing hreaches
    rw [hcrossing] at hnone
    cases hnone
  | case4 attempts searchFrom hlt first hcrossing j hshort =>
    have hvalidates : Validates times s first j :=
      validates_search (nextCrossing_spec hcrossing).2.1
    have hwidest := (trailingWidth_nonneg hinc h.lt).trans (hwidth b h.lt)
    rcases hvalidates.enough with henough | hend
    · exact absurd henough (not_le.mpr hshort)
    · have hlt := h.lt
      exact absurd (h.enough hinc hwidest (h.reaches_first hreaches hcrossing).1 (by omega)
        hvalidates.lt) (not_le.mpr hshort)
  | case5 => exact ⟨_, rfl⟩
  | case6 attempts searchFrom hlt first hcrossing j hlong activeCount totalCount hfails ih =>
    have hvalidates : Validates times s first j :=
      validates_search (nextCrossing_spec hcrossing).2.1
    obtain ⟨hfirst, hle⟩ := h.reaches_first hreaches hcrossing
    exact ih (h.reaches_next hinc hwidth hratio hfirst hle hvalidates hfails) hleft

end Completeness

/-! ## Behind one span -/

/-- The next window would take the stretch below the required ratio. -/
def Maximal (times levels : List ℚ) (s : Settings) (r : Resumed) : Prop :=
  r.last + 1 < times.length →
    (countBetween (isActive levels s) r.first (r.last + 1) : ℚ) / (r.last + 1 - r.first + 1 : ℕ) <
      s.requiredActiveRatio

/-- What is found behind a span. -/
structure Resumes (times levels : List ℚ) (s : Settings) (span : Span) (r : Resumed) : Prop where
  after : span.stop < r.first
  validated : Validated times levels s r
  maximal : Maximal times levels s r

theorem extendResumed_spec (hinc : Increasing times)
    (hleft : r.last + left + 1 = times.length) (h : Validated times levels s r) :
    (extendResumed levels s left r).first = r.first ∧
      Validated times levels s (extendResumed levels s left r) ∧
      Maximal times levels s (extendResumed levels s left r) := by
  induction left generalizing r with
  | zero => exact ⟨rfl, h, fun hlt => absurd hlt (by change ¬r.last + 1 < _; omega)⟩
  | succ left ih =>
    have hle := h.le
    have hactive : r.activeCount + (if isActive levels s (r.last + 1) then 1 else 0) =
        countBetween (isActive levels s) r.first (r.last + 1) := by
      rw [countBetween_succ (by omega), h.activeCount]
    have htotal : r.totalCount + 1 = r.last + 1 - r.first + 1 := by
      rw [h.totalCount]
      omega
    rw [extendResumed]
    simp only [hactive, htotal]
    split_ifs with hbelow
    · exact ⟨rfl, h, fun _ => hbelow⟩
    · have hlong := spanExtent_mono hinc le_rfl hle (Nat.le_succ r.last) (by omega)
      exact ih (by change r.last + 1 + left + 1 = _; omega)
        ⟨Nat.le_succ_of_le hle, by change r.last + 1 < _; omega, h.crossing, h.long.trans hlong,
          rfl, rfl, not_lt.mp hbelow⟩

theorem resumedAfter_sound (hinc : Increasing times)
    (h : resumedAfter times levels s attempts span = (some r, left)) :
    MeetsLimits times levels s span ∧ Resumes times levels s span r := by
  unfold resumedAfter at h
  split_ifs at h with hlimits
  · rcases hsearch : search times levels s attempts (span.stop + 1) with ⟨_ | found, rest⟩
    · rw [hsearch] at h
      cases h
    · rw [hsearch] at h
      cases h
      obtain ⟨hfrom, hvalidated⟩ := search_sound hsearch
      have hlast := hvalidated.lt
      have hleft : found.last + (times.length - (found.last + 1)) + 1 = times.length := by omega
      obtain ⟨hfirst, hextended, hmaximal⟩ := extendResumed_spec hinc hleft hvalidated
      exact ⟨hlimits.1, by omega, hextended, hmaximal⟩
  · cases h

theorem resumedAfter_budget_le (times levels : List ℚ) (s : Settings) (attempts : ℕ)
    (span : Span) : (resumedAfter times levels s attempts span).2 ≤ attempts := by
  unfold resumedAfter
  split_ifs
  · have hle := search_budget_le times levels s attempts (span.stop + 1)
    rcases hsearch : search times levels s attempts (span.stop + 1) with ⟨_ | found, rest⟩
    · simpa [hsearch] using hle
    · simpa [hsearch] using hle
  · exact le_rfl

/-- The last crossing is not in front of an active window. -/
theorem mayResume_of_active {b : ℕ} (hlt : b < times.length)
    (hactive : isActive levels s b = true) (hspan : span.stop < b) :
    mayResume times levels s span = true := by
  rcases h : lastResumedCrossing times levels s with _ | last
  · have hnone := List.find?_eq_none.mp h b (by simpa using hlt)
    exact absurd hactive hnone
  · obtain ⟨-, front, back, heq, hfront⟩ := List.find?_eq_some_iff_append.mp h
    have hsorted : (front ++ last :: back).Pairwise (· > ·) := by
      rw [← heq, List.pairwise_reverse]
      exact List.pairwise_lt_range
    have hmem : b ∈ front ++ last :: back := by
      rw [← heq]
      simpa using hlt
    have hle : b ≤ last := by
      rcases List.mem_append.mp hmem with hb | hb
      · have hfalse := hfront b hb
        simp [hactive] at hfalse
      · rcases List.mem_cons.mp hb with rfl | hb
        · exact le_rfl
        · exact (List.rel_of_pairwise_cons (List.pairwise_append.mp hsorted).2.1 hb).le
    simp only [mayResume, h, decide_eq_true_eq]
    omega

theorem resumedAfter_complete (hinc : Increasing times) {widest : ℚ} {a b : ℕ}
    (h : Sustained times levels s widest a b)
    (hwidth : ∀ i < times.length, trailingWidth times i ≤ widest)
    (hratio : s.requiredActiveRatio ≤ 1) (hlimits : MeetsLimits times levels s span)
    (hspan : span.stop < a) (hleft : 0 < (resumedAfter times levels s attempts span).2) :
    ∃ r, (resumedAfter times levels s attempts span).1 = some r := by
  have hmay := mayResume_of_active h.lt (h.unbroken b h.le le_rfl) (hspan.trans_le h.le)
  rw [resumedAfter, if_pos ⟨hlimits, hmay⟩] at hleft ⊢
  rcases hsearch : search times levels s attempts (span.stop + 1) with ⟨_ | found, rest⟩
  · rw [hsearch] at hleft
    have hpositive : 0 < (search times levels s attempts (span.stop + 1)).2 := by
      rw [hsearch]
      exact hleft
    obtain ⟨r, hr⟩ := search_complete h hinc hwidth hratio (.inl hspan) hpositive
    rw [hsearch] at hr
    cases hr
  · exact ⟨_, rfl⟩

/-! ## Behind all spans -/

theorem resumedAfterSpans_budget_le (times levels : List ℚ) (s : Settings) (attempts : ℕ)
    (spans : List Span) : (resumedAfterSpans times levels s attempts spans).2 ≤ attempts := by
  induction spans generalizing attempts with
  | nil => exact le_rfl
  | cons span spans ih =>
    have hle := resumedAfter_budget_le times levels s attempts span
    unfold resumedAfterSpans
    rcases hafter : resumedAfter times levels s attempts span with ⟨_ | r, left⟩
    · rw [hafter] at hle
      exact (ih left).trans hle
    · rw [hafter] at hle
      exact (ih left).trans hle

theorem resumedAfterSpans_sound (hinc : Increasing times) (attempts : ℕ) (spans : List Span) :
    ((resumedAfterSpans times levels s attempts spans).1.map Prod.fst).Sublist spans ∧
      ∀ x ∈ (resumedAfterSpans times levels s attempts spans).1,
        MeetsLimits times levels s x.1 ∧ Resumes times levels s x.1 x.2 := by
  induction spans generalizing attempts with
  | nil => exact ⟨.slnil, by simp [resumedAfterSpans]⟩
  | cons span spans ih =>
    unfold resumedAfterSpans
    rcases hafter : resumedAfter times levels s attempts span with ⟨_ | r, left⟩
    · exact ⟨(ih left).1.cons span, (ih left).2⟩
    · refine ⟨(ih left).1.cons_cons span, ?_⟩
      rintro x (_ | ⟨_, hx⟩)
      · exact resumedAfter_sound hinc hafter
      · exact (ih left).2 x hx

theorem resumedAfterSpans_complete (hinc : Increasing times) {widest : ℚ} {a b : ℕ}
    (h : Sustained times levels s widest a b)
    (hwidth : ∀ i < times.length, trailingWidth times i ≤ widest)
    (hratio : s.requiredActiveRatio ≤ 1) {spans : List Span}
    (hmem : span ∈ spans) (hlimits : MeetsLimits times levels s span) (hspan : span.stop < a)
    (hleft : 0 < (resumedAfterSpans times levels s attempts spans).2) :
    ∃ r, (span, r) ∈ (resumedAfterSpans times levels s attempts spans).1 := by
  induction spans generalizing attempts with
  | nil => cases hmem
  | cons first spans ih =>
    unfold resumedAfterSpans at hleft ⊢
    rcases hafter : resumedAfter times levels s attempts first with ⟨_ | r, left⟩
    · rw [hafter] at hleft
      rcases List.mem_cons.mp hmem with rfl | hmem
      · have hpositive : 0 < (resumedAfter times levels s attempts span).2 := by
          rw [hafter]
          exact hleft.trans_le (resumedAfterSpans_budget_le times levels s left spans)
        obtain ⟨r, hr⟩ := resumedAfter_complete hinc h hwidth hratio hlimits hspan hpositive
        rw [hafter] at hr
        cases hr
      · exact ih hmem hleft
    · rw [hafter] at hleft
      rcases List.mem_cons.mp hmem with rfl | hmem
      · exact ⟨r, List.mem_cons_self⟩
      · obtain ⟨r', hr'⟩ := ih hmem hleft
        exact ⟨r', List.mem_cons_of_mem _ hr'⟩

end Search

/-! ## The detector -/

section Detector

variable (times levels : List ℚ) (s : Settings)

/-- The width of the widest window. -/
def widestWindow : ℚ := ((List.range times.length).map (trailingWidth times)).foldr max 0

theorem le_foldr_max {xs : List ℚ} {x : ℚ} (hx : x ∈ xs) : x ≤ xs.foldr max 0 := by
  induction xs with
  | nil => cases hx
  | cons y xs ih =>
    rcases List.mem_cons.mp hx with rfl | hx
    · exact le_max_left _ _
    · exact (ih hx).trans (le_max_right _ _)

theorem trailingWidth_le_widestWindow {i : ℕ} (hi : i < times.length) :
    trailingWidth times i ≤ widestWindow times :=
  le_foldr_max (List.mem_map_of_mem (List.mem_range.mpr hi))

/-- The prefix sums add up the widths of the active windows. -/
theorem cumulativeActiveSeconds_eq (i : ℕ) :
    cumulativeActiveSeconds times levels s i =
      (((List.range i).filter (isActive levels s)).map (trailingWidth times)).sum := by
  induction i with
  | zero => rfl
  | succ i ih =>
    rw [cumulativeActiveSeconds, ih, List.range_succ, List.filter_append, List.map_append,
      List.sum_append]
    by_cases hactive : isActive levels s i
    · simp [hactive]
    · simp [hactive]

/-- What the detector promises of a track. -/
structure Detected : Prop where
  flags : ∀ x, (quietFlags levels s)[x]? = some true ↔
    x < times.length ∧ nth levels x ≤ s.silenceThresholdDb
  spans : QuietSpans times (quietFlags levels s) (findQuietSpans times (quietFlags levels s))
  preGap : ∀ i, cumulativeActiveSeconds times levels s i =
    (((List.range i).filter (isActive levels s)).map (trailingWidth times)).sum
  /-- Every candidate has a span of its own, and a sustained return behind it. -/
  sound : ∃ found : List (Span × Resumed),
    (detectHiddenTrackCandidates times levels s).Perm (found.map (candidate times levels)) ∧
      (found.map Prod.fst).Nodup ∧
      ∀ x ∈ found, x.1 ∈ findQuietSpans times (quietFlags levels s) ∧
        MeetsLimits times levels s x.1 ∧ Resumes times levels s x.1 x.2
  /-- A span with a long unbroken stretch behind it is a candidate while attempts are left. -/
  complete : s.requiredActiveRatio ≤ 1 → 0 < (scan times levels s).2 →
    ∀ span ∈ findQuietSpans times (quietFlags levels s), MeetsLimits times levels s span →
      ∀ a b, span.stop < a → Sustained times levels s (widestWindow times) a b →
        ∃ c ∈ detectHiddenTrackCandidates times levels s,
          c.silenceStart = nth times span.start ∧ c.silenceEnd = nth times span.stop

variable {times levels s}

theorem quietFlags_spec (hlength : levels.length = times.length) (x : ℕ) :
    (quietFlags levels s)[x]? = some true ↔
      x < times.length ∧ nth levels x ≤ s.silenceThresholdDb := by
  rw [quietFlags, List.getElem?_map, ← hlength]
  by_cases hx : x < levels.length
  · simp [nth, hx]
  · simp [hx]

theorem scan_sound (hinc : Increasing times) :
    ((scan times levels s).1.map Prod.fst).Sublist
        (findQuietSpans times (quietFlags levels s)) ∧
      ∀ x ∈ (scan times levels s).1,
        MeetsLimits times levels s x.1 ∧ Resumes times levels s x.1 x.2 := by
  unfold scan
  split_ifs
  · simp
  · exact resumedAfterSpans_sound hinc _ _

theorem scan_complete (hinc : Increasing times) (hlength : levels.length = times.length)
    (hratio : s.requiredActiveRatio ≤ 1) (hleft : 0 < (scan times levels s).2)
    (hmem : span ∈ findQuietSpans times (quietFlags levels s))
    (hlimits : MeetsLimits times levels s span) {a b : ℕ} (hspan : span.stop < a)
    (h : Sustained times levels s (widestWindow times) a b) :
    ∃ r, (span, r) ∈ (scan times levels s).1 := by
  have hle := h.le
  have hlt := h.lt
  have hscan : ¬(times.length = 0 ∨ levels.length ≠ times.length ∨ times.length < 2) := by omega
  rw [scan, if_neg hscan] at hleft ⊢
  exact resumedAfterSpans_complete hinc h (fun _ hi => trailingWidth_le_widestWindow times hi)
    hratio hmem hlimits hspan hleft

theorem mem_detect {c : HiddenTrackCandidate} :
    c ∈ detectHiddenTrackCandidates times levels s ↔
      c ∈ (scan times levels s).1.map (candidate times levels) :=
  (List.perm_insertionSort _ _).mem_iff

theorem detector_spec (hinc : Increasing times) (hlength : levels.length = times.length) :
    Detected times levels s := by
  have hspans : QuietSpans times (quietFlags levels s)
      (findQuietSpans times (quietFlags levels s)) :=
    quietSpans_findQuietSpans hinc (by rw [quietFlags, List.length_map, hlength])
  obtain ⟨hsublist, hfound⟩ := @scan_sound times levels s hinc
  refine ⟨quietFlags_spec hlength, hspans, cumulativeActiveSeconds_eq times levels s, ?_, ?_⟩
  · refine ⟨(scan times levels s).1, List.perm_insertionSort _ _,
      hspans.nodup.sublist hsublist, ?_⟩
    intro x hx
    exact ⟨hsublist.subset (List.mem_map_of_mem hx), hfound x hx⟩
  · intro hratio hleft span hmem hlimits a b hspan h
    obtain ⟨r, hr⟩ := scan_complete hinc hlength hratio hleft hmem hlimits hspan h
    exact ⟨candidate times levels (span, r), mem_detect.mpr (List.mem_map_of_mem hr), rfl, rfl⟩

/-! ## A track with a click in the gap -/

def sampleTimes : List ℚ := [0, 10, 20, 30, 40, 50, 60, 70, 80, 90, 100, 110, 120, 130, 140, 150]

def sampleLevels : List ℚ :=
  [-20, -20, -20, -20, -20, -20, -20, -60, -60, -60, -20, -60, -20, -20, -20, -20]

/-- The click fails at seventy percent, and the return behind it is found. -/
example : (scan sampleTimes sampleLevels { requiredActiveRatio := 0.7 }).1 =
    [(⟨7, 9⟩, ⟨12, 15, 4, 4⟩)] := by
  decide +kernel

theorem detector_spec_sample : sampleTimes.length = 16 ∧
    Detected sampleTimes sampleLevels { requiredActiveRatio := 0.7 } :=
  ⟨rfl, detector_spec (by decide +kernel) rfl⟩

end Detector

end IsadoraAir.HiddenTracks
