import Mathlib.Data.List.Chain
import Mathlib.Data.List.GetD
import Mathlib.Tactic.Linarith
import Mathlib.Tactic.Ring
import IsadoraAir.HiddenTracks.Detection

/-!
# Quiet spans

The spans of an envelope are ordered and begin and end quietly, with short excursions only in
between. Every quiet window is in one, and from one span to the next there is a single excursion,
too long to be tolerated.
-/

namespace IsadoraAir.HiddenTracks

open Stretch (Constant Tiles)

variable {runs : List (Stretch Bool)} {spans : List Span} {r : Stretch Bool}
  {i k lo start stop x : ℕ}

section Extents

variable {times : List ℚ}

/-- The window times are in strictly increasing order. -/
abbrev Increasing (times : List ℚ) : Prop := times.Pairwise (· < ·)

/-- Where the window is over. -/
def stopTime (times : List ℚ) (i : ℕ) : ℚ := nth times i + trailingWidth times i

theorem spanExtent_eq (times : List ℚ) (i k : ℕ) :
    spanExtent times i k = stopTime times k - nth times i := by
  unfold spanExtent stopTime
  ring

theorem nth_lt_nth (h : Increasing times) (hik : i < k) (hk : k < times.length) :
    nth times i < nth times k := by
  have hi := hik.trans hk
  rw [nth, nth, List.getD_eq_getElem _ _ hi, List.getD_eq_getElem _ _ hk]
  exact List.pairwise_iff_getElem.mp h i k hi hk hik

theorem nth_le_nth (h : Increasing times) (hik : i ≤ k) (hk : k < times.length) :
    nth times i ≤ nth times k := by
  rcases hik.lt_or_eq with hlt | rfl
  · exact (nth_lt_nth h hlt hk).le
  · exact le_rfl

theorem stopTime_of_lt (hi : i + 1 < times.length) : stopTime times i = nth times (i + 1) := by
  rw [stopTime, trailingWidth, if_pos hi]
  ring

theorem trailingWidth_nonneg (h : Increasing times) (hi : i < times.length) :
    0 ≤ trailingWidth times i := by
  unfold trailingWidth
  split_ifs with hnext hpos
  · linarith [nth_lt_nth h (Nat.lt_succ_self i) hnext]
  · linarith [nth_lt_nth h (Nat.sub_lt hpos Nat.one_pos) hi]
  · exact le_rfl

theorem nth_le_stopTime (h : Increasing times) (hi : i < times.length) :
    nth times i ≤ stopTime times i := by
  linarith [trailingWidth_nonneg h hi, stopTime.eq_def times i]

theorem stopTime_mono (h : Increasing times) (hik : i ≤ k) (hk : k < times.length) :
    stopTime times i ≤ stopTime times k := by
  rcases hik.lt_or_eq with hlt | rfl
  · rw [stopTime_of_lt (by omega)]
    exact (nth_le_nth h hlt hk).trans (nth_le_stopTime h hk)
  · exact le_rfl

/-- A part of a stretch of windows is not longer than the stretch. -/
theorem spanExtent_mono (h : Increasing times) {a b : ℕ} (hai : a ≤ i) (hik : i ≤ k)
    (hkb : k ≤ b) (hb : b < times.length) : spanExtent times i k ≤ spanExtent times a b := by
  rw [spanExtent_eq, spanExtent_eq]
  linarith [nth_le_nth h hai (by omega), stopTime_mono h hkb hb]

end Extents

section Spans

variable {times : List ℚ} {flags : List Bool}

/-- Every excursion within the windows is short. -/
def Tolerant (times : List ℚ) (flags : List Bool) (start stop : ℕ) : Prop :=
  ∀ i k, start ≤ i → i ≤ k → k ≤ stop → Constant flags false i k →
    spanExtent times i k ≤ maxSingleExcursionSeconds

/-- One excursion that is too long leads from the one window to the other. -/
structure Separated (times : List ℚ) (flags : List Bool) (stop start : ℕ) : Prop where
  lt : stop + 1 < start
  loud : Constant flags false (stop + 1) (start - 1)
  long : maxSingleExcursionSeconds < spanExtent times (stop + 1) (start - 1)

/-- The spans of the windows from `lo` on. -/
inductive Found (times : List ℚ) (flags : List Bool) : ℕ → List Span → Prop
  | done {lo : ℕ} (hloud : ∀ x, lo ≤ x → flags[x]? ≠ some true) : Found times flags lo []
  | span {lo : ℕ} {s : Span} {rest : List Span} (hlo : lo ≤ s.start)
      (hloud : ∀ x, lo ≤ x → x < s.start → flags[x]? ≠ some true) (hle : s.start ≤ s.stop)
      (hstart : flags[s.start]? = some true) (hstop : flags[s.stop]? = some true)
      (htolerant : Tolerant times flags s.start s.stop)
      (hseparated : ∀ t ∈ rest.head?, Separated times flags s.stop t.start)
      (hrest : Found times flags (s.stop + 1) rest) : Found times flags lo (s :: rest)

/-- Loud windows in front do not matter. -/
theorem Found.mono {lo' : ℕ} (h : Found times flags lo spans)
    (hle : lo' ≤ lo) (hloud : ∀ x, lo' ≤ x → x < lo → flags[x]? ≠ some true) :
    Found times flags lo' spans := by
  have hfront : ∀ x stop, lo' ≤ x → x < stop →
      (∀ x, lo ≤ x → x < stop → flags[x]? ≠ some true) → flags[x]? ≠ some true := by
    intro x stop hx hstop hrest
    rcases Nat.lt_or_ge x lo with hlt | hge
    · exact hloud x hx hlt
    · exact hrest x hge hstop
  cases h with
  | done h =>
    exact .done fun x hx => hfront x (x + 1) hx (Nat.lt_succ_self x) fun y hy _ => h y hy
  | span hlo hbefore hrun hstart hstop htolerant hseparated hrest =>
    exact .span (hle.trans hlo) (fun x hx hs => hfront x _ hx hs hbefore) hrun hstart hstop
      htolerant hseparated hrest

/-- What the loops say of the windows after `stop`: nothing more is folded into the span. -/
def Ends (times : List ℚ) : List (Stretch Bool) → Prop
  | exc :: _ :: _ =>
    exc.value = false ∧ maxSingleExcursionSeconds < spanExtent times exc.start exc.stop
  | [exc] => exc.value = false
  | [] => True

/-- A short excursion and the quiet run behind it keep a span tolerant. -/
theorem tolerant_fold (hinc : Increasing times)
    (hlength : flags.length = times.length) {exc next : Stretch Bool}
    (htolerant : Tolerant times flags start stop) (hquiet : flags[stop]? = some true)
    (hexc : exc.start = stop + 1) (hnext : next.start = exc.stop + 1)
    (hlt : exc.stop < flags.length) (hnextQuiet : Constant flags true next.start next.stop)
    (hshort : spanExtent times exc.start exc.stop ≤ maxSingleExcursionSeconds) :
    Tolerant times flags start next.stop := by
  intro i k hi hik hk hloud
  have hne : ∀ {x}, i ≤ x → x ≤ k → flags[x]? ≠ some true := by
    intro x hix hxk
    rw [hloud x hix hxk]
    decide
  -- The windows lie in front of the excursion or within it.
  rcases Nat.lt_or_ge k stop with hfront | hback
  · exact htolerant i k hi hik hfront.le hloud
  · have his : stop < i := by
      by_contra hle'
      exact hne (not_lt.mp hle') hback hquiet
    have hkx : k ≤ exc.stop := by
      by_contra hlt'
      exact hne hik le_rfl (hnextQuiet k (by omega) hk)
    exact (spanExtent_mono hinc (by omega) hik hkx (by omega)).trans hshort

/-- What the inner loop makes of a span that ends at `stop` so far. -/
structure Extended (times : List ℚ) (flags : List Bool) (start : ℕ) (runs : List (Stretch Bool))
    (last folded : ℕ) : Prop where
  tolerant : Tolerant times flags start last
  quiet : flags[last]? = some true
  le : start ≤ last
  tiles : Tiles flags (last + 1) (runs.drop folded)
  ends : Ends times (runs.drop folded)

theorem extendSpan_spec (hinc : Increasing times) (hlength : flags.length = times.length)
    (htiles : Tiles flags (stop + 1) runs)
    (hfirst : ∀ r ∈ runs.head?, r.value = false) (htolerant : Tolerant times flags start stop)
    (hquiet : flags[stop]? = some true) (hle : start ≤ stop) :
    Extended times flags start runs (extendSpan times stop runs).1
      (extendSpan times stop runs).2 := by
  fun_induction extendSpan times stop runs with
  | case1 stop exc next rest hvalue =>
    rw [hfirst exc rfl] at hvalue
    cases hvalue
  | case2 stop exc next rest _ hlong =>
    exact ⟨htolerant, hquiet, hle, htiles, hfirst exc rfl, hlong⟩
  | case3 stop exc next rest _ _ hvalue =>
    have hne := htiles.next_ne
    rw [hfirst exc rfl] at hne
    simp [hne] at hvalue
  | case4 stop exc next rest _ hshort hvalue last folded heq ih =>
    rw [heq] at ih
    have hnextQuiet : next.value = true := by simpa using hvalue
    have hconstant := htiles.tail.constant
    rw [hnextQuiet] at hconstant
    have htolerant' := tolerant_fold hinc hlength htolerant hquiet htiles.start
      htiles.tail.start htiles.stop_lt hconstant (not_lt.mp hshort)
    have hstart := htiles.start
    have hstart' := htiles.tail.start
    have hexc := htiles.le
    have hnext := htiles.tail.le
    have hrest : ∀ r ∈ rest.head?, r.value = false := by
      intro r hr
      obtain ⟨rest', rfl⟩ := List.head?_eq_some_iff.mp hr
      simpa [hnextQuiet] using htiles.tail.next_ne
    obtain ⟨h₁, h₂, h₃, h₄, h₅⟩ := ih htiles.tail.tail hrest htolerant'
      (hconstant next.stop hnext le_rfl) (by omega)
    exact ⟨h₁, h₂, h₃, h₄, h₅⟩
  | case5 runs stop hshape =>
    refine ⟨htolerant, hquiet, hle, htiles, ?_⟩
    rcases runs with _ | ⟨exc, _ | ⟨next, rest⟩⟩
    · trivial
    · exact hfirst exc rfl
    · exact absurd rfl (hshape exc next rest)

theorem quietSpansFrom_drop (times : List ℚ) (folded : ℕ) (runs : List (Stretch Bool)) :
    quietSpansFrom times folded runs = quietSpansFrom times 0 (runs.drop folded) := by
  induction runs generalizing folded with
  | nil => simp [quietSpansFrom]
  | cons run rest ih =>
    cases folded with
    | zero => rfl
    | succ folded => exact ih folded

theorem not_quiet_of_loud (h : Constant flags false i k) (hi : i ≤ x) (hk : x ≤ k) :
    flags[x]? ≠ some true := by
  rw [h x hi hk]
  decide

@[simp] theorem quietSpansFrom_loud (h : r.value = false) (rest : List (Stretch Bool)) :
    quietSpansFrom times 0 (r :: rest) = quietSpansFrom times 0 rest := by
  simp [quietSpansFrom, h]

theorem quietSpansFrom_quiet (h : r.value = true) (rest : List (Stretch Bool)) :
    quietSpansFrom times 0 (r :: rest) =
      ⟨r.start, (extendSpan times r.stop rest).1⟩ ::
        quietSpansFrom times 0 (rest.drop (extendSpan times r.stop rest).2) := by
  rw [← quietSpansFrom_drop]
  simp [quietSpansFrom, h]

/-- Behind the point where nothing more is folded, the next span is one long excursion away. -/
theorem separated_of_ends
    (htiles : Tiles flags (stop + 1) runs) (hends : Ends times runs) {t : Span}
    (ht : t ∈ (quietSpansFrom times 0 runs).head?) : Separated times flags stop t.start := by
  rcases runs with _ | ⟨exc, _ | ⟨next, rest⟩⟩
  · cases ht
  · rw [quietSpansFrom_loud hends] at ht
    cases ht
  · obtain ⟨hloud, hlong⟩ := hends
    have hne := htiles.next_ne
    have hnext : next.value = true := by simpa [hloud] using hne
    rw [quietSpansFrom_loud hloud, quietSpansFrom_quiet hnext] at ht
    cases ht
    have hconstant := htiles.constant
    rw [hloud] at hconstant
    have hexc := htiles.start
    have hle := htiles.le
    have hstart : next.start = exc.stop + 1 := htiles.tail.start
    rw [hexc] at hconstant hlong
    change Separated times flags stop next.start
    exact ⟨by omega, by simpa [hstart] using hconstant, by simpa [hstart] using hlong⟩

theorem found_quietSpansFrom (hinc : Increasing times) (hlength : flags.length = times.length)
    (htiles : Tiles flags lo runs) :
    Found times flags lo (quietSpansFrom times 0 runs) := by
  induction h : runs.length using Nat.strongRecOn generalizing lo runs with
  | ind n ih =>
    cases htiles with
    | nil =>
      refine .done fun x hx => ?_
      rw [List.getElem?_eq_none hx]
      decide
    | @cons r rest hle hconstant hnext hrest =>
      rcases hvalue : r.value with _ | _
      · rw [quietSpansFrom_loud hvalue]
        rw [hvalue] at hconstant
        have hfound := ih rest.length (by simp [← h]) hrest rfl
        exact hfound.mono (by omega) fun x hx hlt =>
          not_quiet_of_loud hconstant hx (Nat.le_of_lt_succ hlt)
      · rw [quietSpansFrom_quiet hvalue]
        rw [hvalue] at hconstant hnext
        have htolerant : Tolerant times flags r.start r.stop := fun i k hi hik hk hloud =>
          absurd (hconstant i hi (hik.trans hk)) (not_quiet_of_loud hloud le_rfl hik)
        have hextended := extendSpan_spec hinc hlength hrest
          (fun x hx => Bool.eq_false_iff.mpr (hnext x hx)) htolerant
          (hconstant r.stop hle le_rfl) hle
        have hshorter : (rest.drop (extendSpan times r.stop rest).2).length < n := by
          rw [← h, List.length_drop, List.length_cons]
          omega
        exact .span le_rfl (fun x hx hlt => absurd hx (not_le.mpr hlt)) hextended.le
          (hconstant r.start le_rfl hle) hextended.quiet hextended.tolerant
          (fun t => separated_of_ends hextended.tiles hextended.ends)
          (ih _ hshorter hextended.tiles rfl)

/-! ## The spans of an envelope -/

/-- What is said of the spans of an envelope. -/
structure QuietSpans (times : List ℚ) (flags : List Bool) (spans : List Span) : Prop where
  ordered : spans.Pairwise fun s t => s.stop < t.start
  quiet : ∀ s ∈ spans, s.start ≤ s.stop ∧ flags[s.start]? = some true ∧
    flags[s.stop]? = some true
  tolerant : ∀ s ∈ spans, Tolerant times flags s.start s.stop
  maximal : spans.IsChain fun s t => Separated times flags s.stop t.start
  covers : ∀ x, flags[x]? = some true → ∃ s ∈ spans, s.start ≤ x ∧ x ≤ s.stop

theorem Found.le_start (h : Found times flags lo spans) : ∀ s ∈ spans, lo ≤ s.start := by
  induction h with
  | done => simp
  | span hlo _ hle _ _ _ _ _ ih =>
    rintro t (_ | ⟨_, ht⟩)
    · exact hlo
    · have := ih t ht
      omega

theorem Found.ordered (h : Found times flags lo spans) :
    spans.Pairwise fun s t => s.stop < t.start := by
  induction h with
  | done => exact .nil
  | span _ _ _ _ _ _ _ hrest ih => exact .cons (fun t ht => hrest.le_start t ht) ih

theorem Found.tolerant (h : Found times flags lo spans) :
    ∀ s ∈ spans, (s.start ≤ s.stop ∧ flags[s.start]? = some true ∧ flags[s.stop]? = some true) ∧
      Tolerant times flags s.start s.stop := by
  induction h with
  | done => simp
  | span _ _ hle hstart hstop htolerant _ _ ih =>
    rintro t (_ | ⟨_, ht⟩)
    · exact ⟨⟨hle, hstart, hstop⟩, htolerant⟩
    · exact ih t ht

theorem Found.separated (h : Found times flags lo spans) :
    spans.IsChain fun s t => Separated times flags s.stop t.start := by
  induction h with
  | done => exact .nil
  | span _ _ _ _ _ _ hseparated _ ih => exact ih.cons hseparated

theorem Found.covers (h : Found times flags lo spans)
    (hx : lo ≤ x) (hquiet : flags[x]? = some true) : ∃ s ∈ spans, s.start ≤ x ∧ x ≤ s.stop := by
  induction h with
  | done hloud => exact absurd hquiet (hloud x hx)
  | @span _ s _ _ hloud _ _ _ _ _ _ ih =>
    have hstart : s.start ≤ x := by
      by_contra hlt
      exact hloud x hx (not_le.mp hlt) hquiet
    rcases Nat.lt_or_ge s.stop x with hlt | hge
    · obtain ⟨t, ht, hspan⟩ := ih hlt
      exact ⟨t, List.mem_cons_of_mem _ ht, hspan⟩
    · exact ⟨s, List.mem_cons_self, hstart, hge⟩

theorem QuietSpans.nodup (h : QuietSpans times flags spans) : spans.Nodup := by
  refine h.ordered.imp_of_mem fun {s t} hs _ hlt => ?_
  rintro rfl
  exact absurd (h.quiet s hs).1 (not_le.mpr hlt)

theorem quietSpans_findQuietSpans (hinc : Increasing times)
    (hlength : flags.length = times.length) :
    QuietSpans times flags (findQuietSpans times flags) := by
  have hfound := found_quietSpansFrom hinc hlength (Stretch.tiles_list flags)
  exact ⟨hfound.ordered, fun s hs => (hfound.tolerant s hs).1, fun s hs => (hfound.tolerant s hs).2,
    hfound.separated, fun x => hfound.covers (Nat.zero_le x)⟩

end Spans

end IsadoraAir.HiddenTracks
