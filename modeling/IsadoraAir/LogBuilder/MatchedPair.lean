import IsadoraAir.Foundation.Keyed
import IsadoraAir.LogBuilder.Picks

/-!
# A matched pair of tracks

Two tracks that together land close to the runway. Each candidate of the first
pool is held against the candidates of the second whose durations are next to
what is missing, and chance picks among the best pairs.
-/

namespace IsadoraAir.LogBuilder

variable {a b : FitCandidate} {i : ℕ}

structure FitCandidate where
  trackId : ℕ
  identityKeys : Finset String
  durationSeconds : ℚ
  effectiveWeight : ℚ
  deriving DecidableEq

structure PairResult where
  candidateA : FitCandidate
  candidateB : FitCandidate
  pairScore : ℚ
  landingError : ℚ
  deriving DecidableEq

def pairDurationNeighbors : ℕ := 8
def pairFinalistLimit : ℕ := 50
def pairLandingQualityDivisor : ℚ := 15

/-- `_pair_valid` -/
def pairValid (a b : FitCandidate) : Bool :=
  a.trackId ≠ b.trackId ∧ a.identityKeys ∩ b.identityKeys = ∅

/-- `_score_pair` -/
def scorePair (a b : FitCandidate) (remainingSeconds : ℚ) : PairResult :=
  let landingError := |remainingSeconds - (a.durationSeconds + b.durationSeconds)|
  let landingQuality := 1 / (1 + landingError / pairLandingQualityDivisor)
  ⟨a, b, a.effectiveWeight * b.effectiveWeight * landingQuality, landingError⟩

/-- `bisect_left` of a sorted list. -/
def bisectLeft (durations : List ℚ) (target : ℚ) : ℕ :=
  (durations.takeWhile fun d => d < target).length

/-- The candidates of the sorted second pool that are examined with `a`. -/
def neighbours (sortedB : List FitCandidate) (a : FitCandidate) (remainingSeconds : ℚ) :
    List FitCandidate :=
  let idx := bisectLeft (sortedB.map FitCandidate.durationSeconds)
    (remainingSeconds - a.durationSeconds)
  let halfWindow := max 1 (pairDurationNeighbors / 2)
  (sortedB.take (min sortedB.length (idx + halfWindow))).drop (idx - halfWindow)

/-- The clock is read before every 200th candidate but the first. -/
def overBudget (expired : ℕ → Bool) (i : ℕ) : Bool := i % 200 = 0 ∧ 0 < i ∧ expired i

/-- The loop over the first pool, from its `i`-th candidate on. -/
def scorePairs (expired : ℕ → Bool) (sortedB : List FitCandidate) (remainingSeconds : ℚ) :
    ℕ → List FitCandidate → List PairResult
  | _, [] => []
  | i, a :: rest =>
    if overBudget expired i then []
    else
      (((neighbours sortedB a remainingSeconds).filter (pairValid a)).map
          fun b => scorePair a b remainingSeconds) ++
        scorePairs expired sortedB remainingSeconds (i + 1) rest

/-- A random choice among finalists that are there. -/
abbrev PairDraw := (finalists : List PairResult) → finalists ≠ [] → { p // p ∈ finalists }

def findMatchedPair (draw : PairDraw) (expired : ℕ → Bool)
    (candidatesA candidatesB : List FitCandidate) (remainingSeconds : ℚ) : Option PairResult :=
  if candidatesA = [] ∨ candidatesB = [] then none
  else
    let sortedB := sortedBy FitCandidate.durationSeconds candidatesB
    let scored := scorePairs expired sortedB remainingSeconds 0 candidatesA
    -- best score first; equal scores stay in the order in which they were found
    let finalists := (sortedBy (fun p => -p.pairScore) scored).take pairFinalistLimit
    if h : finalists = [] then none else some (draw finalists h).val

variable {draw : PairDraw} {expired : ℕ → Bool} {candidatesA candidatesB sortedB : List FitCandidate}
  {remainingSeconds : ℚ} {p : PairResult}

theorem mem_of_mem_neighbours (h : b ∈ neighbours sortedB a remainingSeconds) : b ∈ sortedB :=
  List.mem_of_mem_take (List.mem_of_mem_drop h)

/-- Whatever is scored is a valid pair of neighbours. -/
theorem mem_scorePairs (h : p ∈ scorePairs expired sortedB remainingSeconds i candidatesA) :
    ∃ a ∈ candidatesA, ∃ b ∈ neighbours sortedB a remainingSeconds, pairValid a b = true ∧
      p = scorePair a b remainingSeconds := by
  induction candidatesA generalizing i with
  | nil => cases h
  | cons a rest ih =>
    rw [scorePairs] at h
    split_ifs at h
    · cases h
    · rcases List.mem_append.mp h with h | h
      · obtain ⟨b, hb, rfl⟩ := List.mem_map.mp h
        obtain ⟨hneighbour, hvalid⟩ := List.mem_filter.mp hb
        exact ⟨a, List.mem_cons_self, b, hneighbour, hvalid, rfl⟩
      · obtain ⟨a', ha', hpair⟩ := ih h
        exact ⟨a', List.mem_cons_of_mem a ha', hpair⟩

/-- Within the budget every valid pair of neighbours is scored. -/
theorem scored_of_valid
    (hbudget : ∀ j, i ≤ j → j < i + candidatesA.length → overBudget expired j = false)
    (ha : a ∈ candidatesA) (hb : b ∈ neighbours sortedB a remainingSeconds)
    (hvalid : pairValid a b = true) :
    scorePair a b remainingSeconds ∈ scorePairs expired sortedB remainingSeconds i candidatesA := by
  induction candidatesA generalizing i with
  | nil => cases ha
  | cons first rest ih =>
    have hfirst : ¬ overBudget expired i = true := by
      rw [hbudget i le_rfl (by simp)]
      exact Bool.false_ne_true
    rw [scorePairs, if_neg hfirst, List.mem_append]
    rcases List.mem_cons.mp ha with rfl | ha
    · exact .inl (List.mem_map_of_mem (f := fun b => scorePair a b remainingSeconds)
        (List.mem_filter.mpr ⟨hb, hvalid⟩))
    · refine .inr (ih (fun j hij hj => hbudget j (by omega) ?_) ha)
      rw [List.length_cons]
      omega

/-- The pools' pairs that the search examines. -/
def Examined (candidatesB : List FitCandidate) (remainingSeconds : ℚ) (a b : FitCandidate) : Prop :=
  b ∈ neighbours (sortedBy FitCandidate.durationSeconds candidatesB) a remainingSeconds

instance decidableExamined (candidatesB : List FitCandidate) (remainingSeconds : ℚ)
    (a b : FitCandidate) : Decidable (Examined candidatesB remainingSeconds a b) :=
  inferInstanceAs (Decidable (_ ∈ _))

theorem findMatchedPair_eq_some (h : findMatchedPair draw expired candidatesA candidatesB
    remainingSeconds = some p) :
    ∃ a ∈ candidatesA, ∃ b ∈ candidatesB, Examined candidatesB remainingSeconds a b ∧
      pairValid a b = true ∧ p = scorePair a b remainingSeconds := by
  unfold findMatchedPair at h
  split_ifs at h with hempty
  dsimp only at h
  split_ifs at h with hnone
  cases h
  have hmem := List.mem_of_mem_take (draw _ hnone).property
  rw [mem_sortedBy] at hmem
  obtain ⟨a, ha, b, hb, hvalid, hp⟩ := mem_scorePairs hmem
  exact ⟨a, ha, b, (mem_sortedBy _).mp (mem_of_mem_neighbours hb), hb, hvalid, hp⟩

/-- Within the budget only a lack of examined valid pairs gives none. -/
theorem findMatchedPair_eq_none_iff
    (hbudget : ∀ i < candidatesA.length, overBudget expired i = false) :
    findMatchedPair draw expired candidatesA candidatesB remainingSeconds = none ↔
      ∀ a ∈ candidatesA, ∀ b ∈ candidatesB, Examined candidatesB remainingSeconds a b →
        pairValid a b = false := by
  constructor
  · intro h a ha b hb hexamined
    by_contra hvalid
    rw [Bool.not_eq_false] at hvalid
    have hscored := scored_of_valid (i := 0)
      (fun j _ hj => hbudget j (by omega)) ha hexamined hvalid
    unfold findMatchedPair at h
    rw [if_neg (by simp [List.ne_nil_of_mem ha, List.ne_nil_of_mem hb])] at h
    dsimp only at h
    split_ifs at h with hnone
    rw [pairFinalistLimit, List.take_eq_nil_iff] at hnone
    rw [← mem_sortedBy fun p : PairResult => -p.pairScore] at hscored
    rw [hnone.resolve_left (by decide)] at hscored
    cases hscored
  · intro h
    cases hfound : findMatchedPair draw expired candidatesA candidatesB remainingSeconds with
    | none => rfl
    | some p =>
      obtain ⟨a, ha, b, hb, hexamined, hvalid, -⟩ := findMatchedPair_eq_some hfound
      rw [h a ha b hb hexamined] at hvalid
      cases hvalid

/-- None is returned, within the budget, exactly where no examined pair is valid;
a returned pair is a valid one of the pools, with its distance from the runway. -/
theorem matched_pair_examined (draw : PairDraw) (expired : ℕ → Bool)
    (candidatesA candidatesB : List FitCandidate) (remainingSeconds : ℚ) :
    ((∀ i < candidatesA.length, overBudget expired i = false) →
      (findMatchedPair draw expired candidatesA candidatesB remainingSeconds = none ↔
        ∀ a ∈ candidatesA, ∀ b ∈ candidatesB, Examined candidatesB remainingSeconds a b →
          pairValid a b = false)) ∧
    ∀ p, findMatchedPair draw expired candidatesA candidatesB remainingSeconds = some p →
      p.candidateA ∈ candidatesA ∧ p.candidateB ∈ candidatesB ∧
        pairValid p.candidateA p.candidateB = true ∧
        p.landingError = |remainingSeconds -
          (p.candidateA.durationSeconds + p.candidateB.durationSeconds)| := by
  refine ⟨findMatchedPair_eq_none_iff, fun p hp => ?_⟩
  obtain ⟨a, ha, b, hb, -, hvalid, rfl⟩ := findMatchedPair_eq_some hp
  exact ⟨ha, hb, hvalid, rfl⟩

/-- Four conflicting tracks hide the one that would go with the first. -/
theorem conflicts_hide_a_pair :
    let track (id : ℕ) (artist : String) (duration : ℚ) : FitCandidate := ⟨id, {artist}, duration, 1⟩
    let first := track 1 "abba" 100
    let partner := track 6 "queen" 150
    let pool := [track 2 "abba" 100, track 3 "abba" 100, track 4 "abba" 100, track 5 "abba" 100,
      partner]
    pairValid first partner = true ∧
      ∀ draw : PairDraw, findMatchedPair draw (fun _ => false) [first] pool 200 = none := by
  refine ⟨by decide, fun draw => ?_⟩
  rw [findMatchedPair_eq_none_iff (by decide)]
  decide +kernel

end IsadoraAir.LogBuilder
