import IsadoraAir.Refill.Install
import Mathlib.Data.List.Lex
import Mathlib.Data.Prod.Lex

/-!
# The search for the best fit

Single tracks are all tried. Pairs are tried for the partners whose airtime is
next below the gap that the first track leaves, a bounded number of them.
-/

namespace IsadoraAir.Refill

variable {first second : Candidate}

def pairNeighbours : ℕ := 8
def pairScanLimit : ℕ := 64

abbrev RankKey := ℚ ×ₗ ℕ ×ₗ ℕ ×ₗ List ℕ

/-- `_rank_key` -/
def rankKey (residual : ℚ) (seq : List Candidate) : RankKey :=
  toLex (roundMillis residual, toLex ((seq.map Candidate.rank).sum,
    toLex (seq.length, seq.map Candidate.trackId)))

structure Best where
  key : RankKey
  seq : List Candidate
  total : ℚ
  residual : ℚ

structure Search where
  best : Option Best
  evaluations : ℕ
  truncated : Bool

structure FitResult where
  items : List Candidate
  totalSeconds : ℚ
  residualSeconds : ℚ
  evaluations : ℕ
  truncated : Bool
  deriving DecidableEq

/-- `frame.window - value` -/
def FitFrame.windowMinus (frame : FitFrame) (value : ℚ) : Except PyError ℚ :=
  match frame.window with
  | none => .error .typeError
  | some window => .ok (window - value)

def FitFrame.residual (frame : FitFrame) (seq : List Candidate) : Except PyError ℚ := do
  let total ← frame.total seq
  frame.windowMinus total

/-- The window less what is committed without any insertion. -/
def FitFrame.available (frame : FitFrame) : Except PyError ℚ := do
  let total ← frame.baseTotal
  frame.windowMinus total

/-- The better of what was found so far and a new sequence. -/
def Search.keep (search : Search) (seq : List Candidate) (total residual : ℚ) : Option Best :=
  if residual < 0 then search.best
  else
    match search.best with
    | none => some ⟨rankKey residual seq, seq, total, residual⟩
    | some best =>
      if rankKey residual seq < best.key then some ⟨rankKey residual seq, seq, total, residual⟩
      else some best

def consider (frame : FitFrame) (search : Search) (seq : List Candidate) :
    Except PyError Search := do
  let total ← frame.total seq
  let residual ← frame.windowMinus total
  .ok { search with best := search.keep seq total residual, evaluations := search.evaluations + 1 }

def considerAll (frame : FitFrame) : Search → List (List Candidate) → Except PyError Search
  | search, [] => .ok search
  | search, seq :: seqs => do
    let search ← consider frame search seq
    considerAll frame search seqs

/-- Two tracks that may stand in one sequence. -/
def compatible (first second : Candidate) : Bool :=
  second.trackId ≠ first.trackId ∧ ∀ key ∈ first.identityKeys, key ∉ second.identityKeys

/-- The walk down from the gap: `valid` partners found and `scanned` looked at. -/
def partnersBelow (first : Candidate) : ℕ → ℕ → List Candidate → List Candidate
  | _, _, [] => []
  | valid, scanned, second :: rest =>
    if valid < pairNeighbours ∧ scanned < pairScanLimit then
      if compatible first second then second :: partnersBelow first (valid + 1) (scanned + 1) rest
      else partnersBelow first valid (scanned + 1) rest
    else []

/-- `bisect_right` of a sorted list. -/
def bisectRight (airtimes : List ℚ) (gap : ℚ) : ℕ :=
  (airtimes.takeWhile fun airtime => airtime ≤ gap).length

/-- The partners that are tried with `first`. -/
def partners (ordered : List Candidate) (available : ℚ) (first : Candidate) : List Candidate :=
  partnersBelow first 0 0
    (ordered.take (bisectRight (ordered.map Candidate.effective)
      (available - first.effective))).reverse

def bothOrders (first : Candidate) (seconds : List Candidate) : List (List Candidate) :=
  seconds.flatMap fun second => [[first, second], [second, first]]

/-- The loop over the first tracks, up to the budget. -/
def searchPairs (frame : FitFrame) (ordered : List Candidate) (available : ℚ) (budget : ℕ) :
    List Candidate → Search → Except PyError Search
  | [], search => .ok search
  | first :: firsts, search =>
    if budget ≤ search.evaluations then .ok { search with truncated := true }
    else do
      let search ← considerAll frame search (bothOrders first (partners ordered available first))
      searchPairs frame ordered available budget firsts search

/-- The candidates by airtime, and by track where that is equal. -/
def byAirtime (candidates : List Candidate) : List Candidate :=
  sortedBy (fun c => toLex (c.effective, c.trackId)) candidates

def searchBest (candidates : List Candidate) (frame : FitFrame) (maxTracks budget : ℕ) :
    Except PyError Search := do
  let ordered := byAirtime candidates
  let singles ← considerAll frame ⟨none, 0, false⟩ (ordered.map fun c => [c])
  if 2 ≤ maxTracks ∧ 1 < ordered.length then do
    let available ← frame.available
    searchPairs frame ordered available budget (sortedBy Candidate.trackId ordered) singles
  else .ok singles

def searchBestFit (candidates : List Candidate) (frame : FitFrame) (maxTracks budget : ℕ) :
    Except PyError FitResult := do
  let search ← searchBest candidates frame maxTracks budget
  match search.best with
  | none => .ok ⟨[], 0, 0, search.evaluations, search.truncated⟩
  | some best =>
    .ok ⟨best.seq, roundMillis best.total, roundMillis best.residual, search.evaluations,
      search.truncated⟩

/-! ## The best of what was tried -/

variable {frame : FitFrame} {search search' : Search} {seq : List Candidate}
  {tried seqs : List (List Candidate)}

/-- A sequence that ends within the window. -/
def Fits (frame : FitFrame) (seq : List Candidate) : Prop :=
  ∃ residual, frame.residual seq = .ok residual ∧ 0 ≤ residual

/-- `best` is the least by rank key of the sequences tried so far that fit. -/
structure BestOf (frame : FitFrame) (tried : List (List Candidate)) (best : Option Best) :
    Prop where
  none_iff : best = none ↔ ∀ seq ∈ tried, ¬ Fits frame seq
  found : ∀ b ∈ best, b.seq ∈ tried ∧ frame.residual b.seq = .ok b.residual ∧ 0 ≤ b.residual ∧
    b.key = rankKey b.residual b.seq
  least : ∀ b ∈ best, ∀ seq ∈ tried, ∀ residual, frame.residual seq = .ok residual →
    0 ≤ residual → b.key ≤ rankKey residual seq

theorem bestOf_nil (frame : FitFrame) : BestOf frame [] none where
  none_iff := by simp
  found b hb := by cases hb
  least b hb := by cases hb

theorem fits_iff {residual : ℚ} (h : frame.residual seq = .ok residual) :
    Fits frame seq ↔ 0 ≤ residual := by
  constructor
  · rintro ⟨other, hother, hle⟩
    rw [h] at hother
    cases hother
    exact hle
  · intro hle
    exact ⟨residual, h, hle⟩

/-- A sequence that overruns the window changes nothing. -/
theorem BestOf.overrun (h : BestOf frame tried search.best) (hfits : ¬ Fits frame seq) :
    BestOf frame (tried ++ [seq]) search.best where
  none_iff := by
    rw [h.none_iff, List.forall_mem_append]
    simp [hfits]
  found b hb := by
    obtain ⟨hmem, hb⟩ := h.found b hb
    exact ⟨List.mem_append_left _ hmem, hb⟩
  least b hb other hother residual hresidual hle := by
    rcases List.mem_append.mp hother with hother | hother
    · exact h.least b hb other hother residual hresidual hle
    · rw [List.mem_singleton.mp hother] at hresidual
      exact absurd ⟨residual, hresidual, hle⟩ hfits

/-- A new best, below everything that was tried before. -/
theorem BestOf.replace {total residual : ℚ} (h : BestOf frame tried search.best)
    (hresidual : frame.residual seq = .ok residual) (hle : 0 ≤ residual)
    (hless : ∀ b ∈ search.best, rankKey residual seq < b.key) :
    BestOf frame (tried ++ [seq]) (some ⟨rankKey residual seq, seq, total, residual⟩) where
  none_iff := by
    constructor
    · intro hnone
      cases hnone
    · intro hnone
      exact absurd ⟨residual, hresidual, hle⟩ (hnone seq (by simp))
  found b hb := by
    cases hb
    exact ⟨by simp, hresidual, hle, rfl⟩
  least b hb other hother r hr hrle := by
    cases hb
    rcases List.mem_append.mp hother with hother | hother
    · cases hbest : search.best with
      | none => exact absurd ⟨r, hr, hrle⟩ (h.none_iff.mp hbest other hother)
      | some best => exact (hless best hbest).le.trans (h.least best hbest other hother r hr hrle)
    · rw [List.mem_singleton.mp hother, hresidual] at hr
      cases hr
      rw [List.mem_singleton.mp hother]

/-- A best that is not beaten stays. -/
theorem BestOf.retain {residual : ℚ} {best : Best} (h : BestOf frame tried search.best)
    (hbest : search.best = some best) (hresidual : frame.residual seq = .ok residual)
    (hnot : ¬ rankKey residual seq < best.key) :
    BestOf frame (tried ++ [seq]) (some best) where
  none_iff := by
    constructor
    · intro hnone
      cases hnone
    · intro hnone
      have hfound := h.found best hbest
      exact absurd ⟨best.residual, hfound.2.1, hfound.2.2.1⟩
        (hnone best.seq (List.mem_append_left _ hfound.1))
  found b hb := by
    cases hb
    obtain ⟨hmem, hb⟩ := h.found best hbest
    exact ⟨List.mem_append_left _ hmem, hb⟩
  least b hb other hother r hr hrle := by
    cases hb
    rcases List.mem_append.mp hother with hother | hother
    · exact h.least best hbest other hother r hr hrle
    · rw [List.mem_singleton.mp hother, hresidual] at hr
      cases hr
      rw [List.mem_singleton.mp hother]
      exact not_lt.mp hnot

/-- One sequence more. -/
theorem consider_bestOf (h : BestOf frame tried search.best)
    (hconsider : consider frame search seq = .ok search') :
    BestOf frame (tried ++ [seq]) search'.best ∧ search'.truncated = search.truncated := by
  obtain ⟨total, htotal, hconsider⟩ := bind_eq_ok.mp hconsider
  obtain ⟨residual, hwindow, hconsider⟩ := bind_eq_ok.mp hconsider
  cases hconsider
  have hresidual : frame.residual seq = .ok residual := by
    rw [FitFrame.residual, htotal]
    exact hwindow
  refine ⟨?_, rfl⟩
  unfold Search.keep
  dsimp only
  split_ifs with hneg
  · exact h.overrun (by rw [fits_iff hresidual, not_le]; exact hneg)
  · have hle := not_lt.mp hneg
    cases hbest : search.best with
    | none => exact h.replace hresidual hle fun b hb => by rw [hbest] at hb; cases hb
    | some best =>
      dsimp only
      split_ifs with hless
      · refine h.replace hresidual hle fun b hb => ?_
        rw [hbest] at hb
        cases hb
        exact hless
      · exact h.retain hbest hresidual hless

theorem considerAll_bestOf (h : BestOf frame tried search.best)
    (hconsider : considerAll frame search seqs = .ok search') :
    BestOf frame (tried ++ seqs) search'.best ∧ search'.truncated = search.truncated := by
  induction seqs generalizing tried search with
  | nil =>
    cases hconsider
    exact ⟨by rwa [List.append_nil], rfl⟩
  | cons seq seqs ih =>
    obtain ⟨next, hnext, hrest⟩ := bind_eq_ok.mp hconsider
    obtain ⟨hbest, htruncated⟩ := consider_bestOf h hnext
    obtain ⟨hall, hsame⟩ := ih hbest hrest
    rw [List.append_assoc, List.singleton_append] at hall
    exact ⟨hall, hsame.trans htruncated⟩

/-- The pairs tried by the time the budget is used up, or all of them. -/
theorem searchPairs_bestOf {ordered firsts : List Candidate} {available : ℚ} {budget : ℕ}
    (h : BestOf frame tried search.best) (hstart : search.truncated = false)
    (hsearch : searchPairs frame ordered available budget firsts search = .ok search') :
    ∃ done later, firsts = done ++ later ∧
      BestOf frame (tried ++ done.flatMap fun first =>
        bothOrders first (partners ordered available first)) search'.best ∧
      (search'.truncated = false → later = []) := by
  induction firsts generalizing tried search with
  | nil =>
    cases hsearch
    exact ⟨[], [], rfl, by simpa using h, fun _ => rfl⟩
  | cons first firsts ih =>
    rw [searchPairs] at hsearch
    split_ifs at hsearch with hbudget
    · cases hsearch
      exact ⟨[], first :: firsts, rfl, by simpa using h, fun htruncated => by cases htruncated⟩
    · obtain ⟨next, hnext, hrest⟩ := bind_eq_ok.mp hsearch
      obtain ⟨hbest, hsame⟩ := considerAll_bestOf h hnext
      obtain ⟨done, later, rfl, hall, hlater⟩ := ih hbest (hsame.trans hstart) hrest
      refine ⟨first :: done, later, rfl, ?_, hlater⟩
      rw [List.flatMap_cons, ← List.append_assoc]
      exact hall

/-! ## What is tried -/

/-- A pair that the search tries, in either order. -/
def Examined (candidates : List Candidate) (frame : FitFrame) (maxTracks : ℕ)
    (seq : List Candidate) : Prop :=
  2 ≤ maxTracks ∧ 1 < candidates.length ∧ ∃ available, frame.available = .ok available ∧
    ∃ first ∈ candidates,
      seq ∈ bothOrders first (partners (byAirtime candidates) available first)

/-- One candidate, or two different ones without a common identity key. -/
def Proper (candidates seq : List Candidate) : Prop :=
  (∃ c ∈ candidates, seq = [c]) ∨
    ∃ first ∈ candidates, ∃ second ∈ candidates, seq = [first, second] ∧
      first.trackId ≠ second.trackId ∧ ∀ key ∈ first.identityKeys, key ∉ second.identityKeys

variable {candidates : List Candidate} {maxTracks budget : ℕ}

theorem mem_partnersBelow {valid scanned : ℕ} {below : List Candidate}
    (h : second ∈ partnersBelow first valid scanned below) :
    second ∈ below ∧ compatible first second = true := by
  induction below generalizing valid scanned with
  | nil => cases h
  | cons c rest ih =>
    rw [partnersBelow] at h
    split_ifs at h with hbound hcompatible
    · rcases List.mem_cons.mp h with rfl | h
      · exact ⟨List.mem_cons_self, hcompatible⟩
      · exact ⟨List.mem_cons_of_mem c (ih h).1, (ih h).2⟩
    · exact ⟨List.mem_cons_of_mem c (ih h).1, (ih h).2⟩
    · cases h

theorem mem_byAirtime {c : Candidate} : c ∈ byAirtime candidates ↔ c ∈ candidates := mem_sortedBy _

theorem mem_partners {available : ℚ}
    (h : second ∈ partners (byAirtime candidates) available first) :
    second ∈ candidates ∧ compatible first second = true := by
  obtain ⟨hmem, hcompatible⟩ := mem_partnersBelow h
  exact ⟨mem_byAirtime.mp (List.mem_of_mem_take (List.mem_reverse.mp hmem)), hcompatible⟩

theorem Examined.proper (h : Examined candidates frame maxTracks seq) : Proper candidates seq := by
  obtain ⟨-, -, available, -, first, hfirst, hseq⟩ := h
  obtain ⟨second, hsecond, hseq⟩ := List.mem_flatMap.mp hseq
  obtain ⟨hmem, hcompatible⟩ := mem_partners hsecond
  simp only [compatible, decide_eq_true_eq] at hcompatible
  simp only [List.mem_cons, List.not_mem_nil, or_false] at hseq
  rcases hseq with rfl | rfl
  · exact .inr ⟨first, hfirst, second, hmem, rfl, hcompatible.1.symm, hcompatible.2⟩
  · exact .inr ⟨second, hmem, first, hfirst, rfl, hcompatible.1,
      fun key hkey hother => hcompatible.2 key hother hkey⟩

theorem Proper.ne_nil (h : Proper candidates seq) : seq ≠ [] := by
  rcases h with ⟨c, -, rfl⟩ | ⟨first, -, second, -, rfl, -⟩
  · simp
  · simp

/-- All singles are tried, then examined pairs, and without truncation all of those. -/
theorem searchBest_bestOf (h : searchBest candidates frame maxTracks budget = .ok search) :
    ∃ tried, BestOf frame tried search.best ∧ (∀ c ∈ candidates, [c] ∈ tried) ∧
      (∀ seq ∈ tried, (∃ c ∈ candidates, seq = [c]) ∨
        Examined candidates frame maxTracks seq) ∧
      (search.truncated = false → ∀ seq, Examined candidates frame maxTracks seq →
        seq ∈ tried) := by
  have hlength : (byAirtime candidates).length = candidates.length :=
    (sortedBy_perm _ candidates).length_eq
  obtain ⟨singles, hsingles, h⟩ := bind_eq_ok.mp h
  obtain ⟨hbest, htruncated⟩ := considerAll_bestOf (bestOf_nil frame) hsingles
  rw [List.nil_append] at hbest
  have hsingle {seq : List Candidate} (hseq : seq ∈ (byAirtime candidates).map fun c => [c]) :
      ∃ c ∈ candidates, seq = [c] := by
    obtain ⟨c, hc, rfl⟩ := List.mem_map.mp hseq
    exact ⟨c, mem_byAirtime.mp hc, rfl⟩
  have hall {c : Candidate} (hc : c ∈ candidates) :
      [c] ∈ (byAirtime candidates).map fun c => [c] :=
    List.mem_map_of_mem (mem_byAirtime.mpr hc)
  split_ifs at h with hpairs
  · obtain ⟨available, havailable, h⟩ := bind_eq_ok.mp h
    obtain ⟨done, later, hsplit, hpairbest, hlater⟩ := searchPairs_bestOf hbest htruncated h
    have hfirsts {first : Candidate} : first ∈ done ++ later ↔ first ∈ candidates := by
      rw [← hsplit, mem_sortedBy, mem_byAirtime]
    rw [hlength] at hpairs
    refine ⟨_, hpairbest, fun c hc => List.mem_append_left _ (hall hc), ?_, ?_⟩
    · intro seq hseq
      rcases List.mem_append.mp hseq with hseq | hseq
      · exact .inl (hsingle hseq)
      · obtain ⟨first, hfirst, hseq⟩ := List.mem_flatMap.mp hseq
        exact .inr ⟨hpairs.1, hpairs.2, available, havailable, first,
          hfirsts.mp (List.mem_append_left _ hfirst), hseq⟩
    · rintro hdone seq ⟨-, -, available', havailable', first, hfirst, hseq⟩
      rw [havailable] at havailable'
      cases havailable'
      refine List.mem_append_right _ (List.mem_flatMap.mpr ⟨first, ?_, hseq⟩)
      have hmem := hfirsts.mpr hfirst
      rwa [hlater hdone, List.append_nil] at hmem
  · cases h
    refine ⟨_, hbest, fun c hc => hall hc, fun seq hseq => .inl (hsingle hseq), ?_⟩
    rintro - seq ⟨hmax, hmany, -⟩
    rw [hlength] at hpairs
    exact absurd ⟨hmax, hmany⟩ hpairs

/-! ## No error -/

/-- A frame whose window and last end point are known. -/
structure Timed (frame : FitFrame) : Prop where
  window : frame.window ≠ none
  last : frame.lastPrefix.endPoint ≠ none

theorem Timed.exists_windowMinus (h : Timed frame) (value : ℚ) :
    ∃ residual, frame.windowMinus value = .ok residual := by
  obtain ⟨window, hwindow⟩ := Option.ne_none_iff_exists'.mp h.window
  exact ⟨window - value, by rw [FitFrame.windowMinus, hwindow]⟩

theorem Timed.exists_consider (h : Timed frame) (search : Search) (hseq : seq ≠ []) :
    ∃ next, consider frame search seq = .ok next := by
  obtain ⟨first, rest, rfl⟩ := List.exists_cons_of_ne_nil hseq
  have htotal : ∃ total, frame.total (first :: rest) = .ok total := by
    refine ⟨_, bind_eq_ok.mpr ⟨_, frame.lastPrefix.span_eq h.last _ _, rfl⟩⟩
  obtain ⟨total, htotal⟩ := htotal
  obtain ⟨residual, hresidual⟩ := h.exists_windowMinus total
  exact ⟨_, bind_eq_ok.mpr ⟨total, htotal, bind_eq_ok.mpr ⟨residual, hresidual, rfl⟩⟩⟩

theorem Timed.exists_considerAll (h : Timed frame) (search : Search)
    (seqs : List (List Candidate)) (hseqs : ∀ seq ∈ seqs, seq ≠ []) :
    ∃ next, considerAll frame search seqs = .ok next := by
  induction seqs generalizing search with
  | nil => exact ⟨search, rfl⟩
  | cons seq seqs ih =>
    obtain ⟨next, hnext⟩ := h.exists_consider search (hseqs seq List.mem_cons_self)
    obtain ⟨last, hlast⟩ := ih next fun s hs => hseqs s (List.mem_cons_of_mem seq hs)
    exact ⟨last, bind_eq_ok.mpr ⟨next, hnext, hlast⟩⟩

theorem Timed.exists_searchPairs (h : Timed frame) (ordered firsts : List Candidate)
    (available : ℚ) (budget : ℕ) (search : Search) :
    ∃ next, searchPairs frame ordered available budget firsts search = .ok next := by
  induction firsts generalizing search with
  | nil => exact ⟨search, rfl⟩
  | cons first firsts ih =>
    rw [searchPairs]
    split_ifs
    · exact ⟨_, rfl⟩
    · obtain ⟨next, hnext⟩ := h.exists_considerAll search
        (bothOrders first (partners ordered available first)) fun seq hseq => by
          obtain ⟨second, -, hseq⟩ := List.mem_flatMap.mp hseq
          simp only [List.mem_cons, List.not_mem_nil, or_false] at hseq
          rcases hseq with rfl | rfl <;> simp
      obtain ⟨last, hlast⟩ := ih next
      exact ⟨last, bind_eq_ok.mpr ⟨next, hnext, hlast⟩⟩

theorem Timed.exists_searchBestFit (h : Timed frame) (candidates : List Candidate)
    (maxTracks budget : ℕ) :
    ∃ result, searchBestFit candidates frame maxTracks budget = .ok result := by
  have hbest : ∃ search, searchBest candidates frame maxTracks budget = .ok search := by
    obtain ⟨singles, hsingles⟩ := h.exists_considerAll ⟨none, 0, false⟩
      ((byAirtime candidates).map fun c => [c]) fun seq hseq => by
        obtain ⟨c, -, rfl⟩ := List.mem_map.mp hseq
        simp
    by_cases hpairs : 2 ≤ maxTracks ∧ 1 < (byAirtime candidates).length
    · have hbase : ∃ total, frame.baseTotal = .ok total :=
        ⟨_, bind_eq_ok.mpr ⟨_, frame.lastPrefix.span_eq h.last _ _, rfl⟩⟩
      obtain ⟨total, htotal⟩ := hbase
      obtain ⟨available, havailable⟩ := h.exists_windowMinus total
      obtain ⟨last, hlast⟩ := h.exists_searchPairs (byAirtime candidates)
        (sortedBy Candidate.trackId (byAirtime candidates)) available budget singles
      refine ⟨last, bind_eq_ok.mpr ⟨singles, hsingles, ?_⟩⟩
      rw [if_pos hpairs]
      exact bind_eq_ok.mpr ⟨available, bind_eq_ok.mpr ⟨total, htotal, havailable⟩, hlast⟩
    · refine ⟨singles, bind_eq_ok.mpr ⟨singles, hsingles, ?_⟩⟩
      rw [if_neg hpairs]
  obtain ⟨search, hsearch⟩ := hbest
  cases hfound : search.best with
  | none => exact ⟨_, bind_eq_ok.mpr ⟨search, hsearch, by rw [hfound]⟩⟩
  | some best => exact ⟨_, bind_eq_ok.mpr ⟨search, hsearch, by rw [hfound]⟩⟩

/-! ## Pairs against singles -/

/-- A trigger that is not clamped is the earliest a track can end at. -/
theorem spanSeconds_le_of_unclamped {endPoint : ℚ} {successor : Option ℚ} (cueIn allowance : ℚ)
    {later : ℚ} (hclamp : triggerClampSeconds ≤ endPoint - successor.getD 0) (hlater : 0 ≤ later) :
    spanSeconds cueIn endPoint successor none allowance ≤
      spanSeconds cueIn endPoint (some later) none allowance := by
  have hbase : max (endPoint - successor.getD 0) pollMinPositionSeconds =
      endPoint - successor.getD 0 := by
    refine max_eq_left (le_trans ?_ hclamp)
    decide +kernel
  have hend : endPoint ≤ max (if endPoint - later < triggerClampSeconds then endPoint
      else endPoint - later) pollMinPositionSeconds + later := by
    refine le_trans ?_ (add_le_add_left (le_max_left _ _) later)
    split_ifs
    · linarith
    · linarith
  simp only [spanSeconds, Option.getD_some, Option.getD_none, if_neg (not_lt.mpr hclamp), hbase]
  refine add_le_add_left (max_le_max_left 0 ?_) allowance
  linarith

/-- A track whose trigger is not clamped fits alone when it fits before another. -/
theorem Fits.single (h : Fits frame [first, second]) (hcue : 0 ≤ second.cueIn)
    (hclamp : triggerClampSeconds ≤ first.endPoint - frame.suffixFirstCue.getD 0)
    (hallowance : 0 ≤ frame.allowance) (hreserve : 0 ≤ frame.reservePerItem) :
    Fits frame [first] := by
  obtain ⟨residual, h, hle⟩ := h
  obtain ⟨total, htotal, h⟩ := bind_eq_ok.mp h
  obtain ⟨last, hlast, htotal⟩ := bind_eq_ok.mp htotal
  cases htotal
  cases hwindow : frame.window with
  | none =>
    rw [FitFrame.windowMinus, hwindow] at h
    cases h
  | some window =>
    rw [FitFrame.windowMinus, hwindow] at h
    cases h
    have hspan := spanSeconds_le_of_unclamped first.cueIn frame.allowance hclamp hcue
    have hnonneg : 0 ≤ spanSeconds second.cueIn second.endPoint frame.suffixFirstCue none
        frame.allowance := add_nonneg (le_max_left _ _) hallowance
    have hspans : (frame.insertedSpans [first]).sum ≤
        (frame.insertedSpans [first, second]).sum := by
      simp only [FitFrame.insertedSpans, List.sum_cons, List.sum_nil, firstCue_nil, firstCue_cons]
      linarith
    have hreserved : frame.reserve [first].length ≤ frame.reserve [first, second].length := by
      simp [FitFrame.reserve]
      linarith
    have hsingle : frame.residual [first] = .ok (window - (frame.prefixFixed + last +
        frame.suffixTotal + (frame.insertedSpans [first]).sum + frame.reserve [first].length)) := by
      refine bind_eq_ok.mpr ⟨_, bind_eq_ok.mpr ⟨last, hlast, rfl⟩, ?_⟩
      rw [FitFrame.windowMinus, hwindow]
    exact ⟨_, hsingle, by linarith⟩

/-! ## The result -/

/-- What `search_best_fit` reports of the best sequence. -/
theorem searchBestFit_eq_ok {result : FitResult}
    (h : searchBestFit candidates frame maxTracks budget = .ok result) :
    ∃ search, searchBest candidates frame maxTracks budget = .ok search ∧
      result.truncated = search.truncated ∧
      ((search.best = none ∧ result.items = []) ∨
        ∃ best ∈ search.best, result.items = best.seq ∧
          result.residualSeconds = roundMillis best.residual) := by
  obtain ⟨search, hsearch, h⟩ := bind_eq_ok.mp h
  cases hbest : search.best with
  | none =>
    rw [hbest] at h
    cases h
    exact ⟨search, hsearch, rfl, .inl ⟨hbest, rfl⟩⟩
  | some best =>
    rw [hbest] at h
    cases h
    exact ⟨search, hsearch, rfl, .inr ⟨best, hbest, rfl, rfl⟩⟩

/-- Nothing is returned exactly when nothing that the search tries fits, and what
is returned fits and comes no later than any single that fits. Where no candidate's
trigger is clamped, any fitting sequence gives a result. -/
theorem search_best_fit_examined (candidates : List Candidate) (frame : FitFrame)
    (maxTracks budget : ℕ) :
    (frame.window ≠ none → frame.lastPrefix.endPoint ≠ none →
      ∃ result, searchBestFit candidates frame maxTracks budget = .ok result) ∧
    ∀ result, searchBestFit candidates frame maxTracks budget = .ok result →
      (result.truncated = false → (result.items = [] ↔ (∀ c ∈ candidates, ¬ Fits frame [c]) ∧
        ∀ seq, Examined candidates frame maxTracks seq → ¬ Fits frame seq)) ∧
      (result.items ≠ [] → Proper candidates result.items ∧
        ∃ residual, frame.residual result.items = .ok residual ∧ 0 ≤ residual ∧
          result.residualSeconds = roundMillis residual ∧
          ∀ c ∈ candidates, ∀ other, frame.residual [c] = .ok other → 0 ≤ other →
            rankKey residual result.items ≤ rankKey other [c]) ∧
      (0 ≤ frame.allowance → 0 ≤ frame.reservePerItem →
        (∀ c ∈ candidates, 0 ≤ c.cueIn ∧
          triggerClampSeconds ≤ c.endPoint - frame.suffixFirstCue.getD 0) →
        ∀ seq, Proper candidates seq → Fits frame seq → result.items ≠ []) := by
  refine ⟨fun hwindow hlast => Timed.exists_searchBestFit ⟨hwindow, hlast⟩ _ _ _, ?_⟩
  intro result hresult
  obtain ⟨search, hsearch, htruncated, hfound⟩ := searchBestFit_eq_ok hresult
  obtain ⟨tried, hbest, hsingles, htried, hall⟩ := searchBest_bestOf hsearch
  have hproper {seq : List Candidate} (hseq : seq ∈ tried) : Proper candidates seq := by
    rcases htried seq hseq with hsingle | hpair
    · exact .inl hsingle
    · exact hpair.proper
  have hempty : result.items = [] ↔ search.best = none := by
    rcases hfound with ⟨hnone, hitems⟩ | ⟨best, hsome, hitems, -⟩
    · simp [hnone, hitems]
    · rw [hitems, hsome]
      have hne := (hproper (hbest.found best hsome).1).ne_nil
      simp [hne]
  refine ⟨?_, ?_, ?_⟩
  · intro hdone
    rw [htruncated] at hdone
    rw [hempty, hbest.none_iff]
    constructor
    · intro hnone
      exact ⟨fun c hc => hnone [c] (hsingles c hc), fun seq hseq => hnone seq (hall hdone seq hseq)⟩
    · rintro ⟨hsingle, hpair⟩ seq hseq
      rcases htried seq hseq with ⟨c, hc, rfl⟩ | hexamined
      · exact hsingle c hc
      · exact hpair seq hexamined
  · intro hitems
    rcases hfound with ⟨-, hnil⟩ | ⟨best, hsome, hseq, hreported⟩
    · exact absurd hnil hitems
    · obtain ⟨hmem, hresidual, hle, hkey⟩ := hbest.found best hsome
      rw [hseq]
      refine ⟨hproper hmem, best.residual, hresidual, hle, hreported, ?_⟩
      intro c hc other hother hole
      rw [← hkey]
      exact hbest.least best hsome [c] (hsingles c hc) other hother hole
  · intro hallowance hreserve hunclamped seq hseq hfits hnil
    have hnone := hbest.none_iff.mp (hempty.mp hnil)
    rcases hseq with ⟨c, hc, rfl⟩ | ⟨first, hfirst, second, hsecond, rfl, -⟩
    · exact hnone [c] (hsingles c hc) hfits
    · exact hnone [first] (hsingles first hfirst) (hfits.single (hunclamped second hsecond).1
        (hunclamped first hfirst).2 hallowance hreserve)

/-- Before a suffix whose first cue is 400 seconds in. -/
def lateCueFrame : FitFrame where
  window := some 600
  prefixFixed := 0
  lastPrefix := ⟨1, 0, some 150, none, .deck⟩
  suffixFirstCue := some 400
  suffixTotal := 0
  allowance := 0
  prefixElementCount := 1
  reserveBase := 0
  reservePerItem := 0

def shortTrack : Candidate := ⟨1, 1, 0, 100, 210, 110, ["a"], "a.flac"⟩
def longTrack : Candidate := ⟨2, 1, 0, 200, 500, 300, ["b"], "b.flac"⟩

theorem best_fit_of_one_track :
    (Proper [longTrack] [longTrack] ∧
      ∃ residual, FitFrame.residual { lateCueFrame with window := some 700 } [longTrack] =
        .ok residual ∧ 0 ≤ residual ∧ 50 = roundMillis residual ∧
        ∀ c ∈ [longTrack], ∀ other,
          FitFrame.residual { lateCueFrame with window := some 700 } [c] = .ok other →
          0 ≤ other → rankKey residual [longTrack] ≤ rankKey other [c]) :=
  ((search_best_fit_examined [longTrack] { lateCueFrame with window := some 700 } 2 10).2
    ⟨[longTrack], 650, 50, 1, false⟩ (by decide +kernel)).2.1 (by simp)

/-- The short track before the long one fits, and neither fits alone: alone each
runs to its end and then into the late cue of the suffix. The gap that is left
without an insertion is too small for the pair to be tried. -/
theorem fitting_pair_is_missed :
    Proper [shortTrack, longTrack] [shortTrack, longTrack] ∧
      Fits lateCueFrame [shortTrack, longTrack] ∧
      searchBestFit [shortTrack, longTrack] lateCueFrame 2 50000 = .ok ⟨[], 0, 0, 2, false⟩ := by
  refine ⟨.inr ⟨shortTrack, by simp, longTrack, by simp, rfl, by decide, by decide⟩, ?_, ?_⟩
  · exact ⟨40, by decide +kernel, by decide +kernel⟩
  · decide +kernel

end IsadoraAir.Refill
