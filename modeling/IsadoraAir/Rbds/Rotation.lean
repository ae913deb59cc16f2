import IsadoraAir.Foundation.PyError
import Mathlib.Algebra.Order.Ring.Rat
import Mathlib.Data.List.Chain

/-!
# RT rotation

`rbds/services/rotation.py`: now-playing is interrupted by the active promos,
which are shown one after the other. Clock readings are exact seconds.
-/

namespace IsadoraAir.Rbds

structure Promo where
  name : String
  displaySeconds : ℚ
  deriving DecidableEq

inductive Mode where
  | nowplaying
  | promo
  deriving DecidableEq

/-- What is shown. -/
inductive Source where
  | nowplaying
  | promo (name : String)
  deriving DecidableEq

structure RTRotation where
  nowplayingMinSeconds : ℚ
  mode : Mode
  modeStartedAt : Option ℚ
  promoIndex : ℕ
  promosKey : Option (List Promo)

namespace RTRotation

def new (nowplayingMinSeconds : ℚ) : RTRotation := ⟨nowplayingMinSeconds, .nowplaying, none, 0, none⟩

/-- `active_promos[index]` -/
def getPromo (promos : List Promo) (index : ℕ) : Except PyError Promo :=
  match promos[index]? with
  | some promo => .ok promo
  | none => .error .indexError

/-- The first call starts the timer. -/
def start (s : RTRotation) (now : ℚ) : RTRotation :=
  { s with modeStartedAt := some (s.modeStartedAt.getD now) }

/-- A list that has changed in the middle of the promos restarts them. -/
def remember (s : RTRotation) (now : ℚ) (promos : List Promo) : RTRotation :=
  if s.mode = .promo ∧ s.promosKey ≠ some promos then
    { s with promosKey := some promos, promoIndex := 0, modeStartedAt := some now }
  else { s with promosKey := some promos }

def elapsed (s : RTRotation) (now : ℚ) : ℚ := now - s.modeStartedAt.getD now

/-- The promo has been shown for its time. -/
def nextPromo (s : RTRotation) (now : ℚ) (promos : List Promo) : RTRotation :=
  { s with
    promoIndex := s.promoIndex + 1
    mode := if promos.length ≤ s.promoIndex + 1 then .nowplaying else s.mode
    modeStartedAt := some now }

def turn (s : RTRotation) (now : ℚ) (promos : List Promo) : Except PyError RTRotation :=
  match s.mode with
  | .nowplaying =>
    if promos ≠ [] ∧ s.nowplayingMinSeconds ≤ s.elapsed now then
      .ok { s with mode := .promo, promoIndex := 0, modeStartedAt := some now }
    else .ok s
  | .promo =>
    if promos = [] then .ok { s with mode := .nowplaying, modeStartedAt := some now }
    else do
      let promo ← getPromo promos s.promoIndex
      if promo.displaySeconds ≤ s.elapsed now then .ok (s.nextPromo now promos) else .ok s

def shown (s : RTRotation) (promos : List Promo) : Except PyError Source :=
  if s.mode = .promo ∧ promos ≠ [] then do
    let promo ← getPromo promos s.promoIndex
    .ok (.promo promo.name)
  else .ok .nowplaying

def advance (s : RTRotation) (now : ℚ) (promos : List Promo) :
    Except PyError (Source × RTRotation) := do
  let turned ← ((s.start now).remember now promos).turn now promos
  let source ← turned.shown promos
  .ok (source, turned)

end RTRotation

/-- A call of `advance`, with the clock reading. -/
structure Call where
  now : ℚ
  promos : List Promo

def advanceAll (s : RTRotation) : List Call → Except PyError (List Source × RTRotation)
  | [] => .ok ([], s)
  | call :: calls => do
    let (source, s) ← s.advance call.now call.promos
    let (sources, s) ← advanceAll s calls
    .ok (source :: sources, s)

/-! ## Places -/

/-- A place in the cycle: now-playing, or a promo of the list. -/
abbrev Place := Option ℕ

def Place.next (promos : List Promo) : Place → Place
  | none => some 0
  | some i => if i + 1 < promos.length then some (i + 1) else none

def Place.source (promos : List Promo) : Place → Source
  | none => .nowplaying
  | some i => (promos[i]?).elim .nowplaying fun promo => .promo promo.name

/-- How long a place is to be shown. -/
def Place.dwell (nowplayingMinSeconds : ℚ) (promos : List Promo) : Place → ℚ
  | none => nowplayingMinSeconds
  | some i => (promos[i]?).elim 0 Promo.displaySeconds

def Place.Valid (promos : List Promo) (place : Place) : Prop := ∀ i ∈ place, i < promos.length

def RTRotation.place (s : RTRotation) : Place :=
  match s.mode with
  | .nowplaying => none
  | .promo => some s.promoIndex

/-- The rotation stands at a promo of the list that it remembers. -/
def RTRotation.Ready (s : RTRotation) : Prop :=
  s.mode = .promo → ∃ promos, s.promosKey = some promos ∧ s.promoIndex < promos.length

/-- What the rotation shows. -/
def RTRotation.current (s : RTRotation) : Source := s.place.source (s.promosKey.getD [])

/-- The rotation stands in this list since this reading. -/
structure RTRotation.Stands (s : RTRotation) (promos : List Promo) (since : ℚ) : Prop where
  key : s.promosKey = some promos
  valid : s.place.Valid promos
  started : s.modeStartedAt = some since

variable {s s' : RTRotation} {promos : List Promo} {now since : ℚ} {source : Source}

namespace RTRotation

theorem getPromo_of_lt {i : ℕ} (h : i < promos.length) :
    ∃ promo, promos[i]? = some promo ∧ getPromo promos i = .ok promo := by
  refine ⟨promos[i], List.getElem?_eq_getElem h, ?_⟩
  simp [getPromo, List.getElem?_eq_getElem h]

theorem Stands.shown_eq (h : s.Stands promos since) : s.shown promos = .ok (s.place.source promos) := by
  cases hmode : s.mode with
  | nowplaying => simp [shown, place, hmode, Place.source]
  | promo =>
    have hlt : s.promoIndex < promos.length := h.valid _ (by simp [place, hmode])
    obtain ⟨promo, hget, hpromo⟩ := getPromo_of_lt hlt
    have hne : promos ≠ [] := List.ne_nil_of_length_pos (Nat.zero_lt_of_lt hlt)
    simp only [shown, place, hmode, Place.source, hget, hpromo]
    rw [if_pos ⟨trivial, hne⟩]
    rfl

/-- What a call does to a rotation that stands in its list: it stays, or goes on. -/
inductive Goes (s : RTRotation) (promos : List Promo) (since now : ℚ) (s' : RTRotation) : Prop
  | stays (hplace : s'.place = s.place) (hstands : s'.Stands promos since)
  | moves (hplace : s'.place = s.place.next promos) (hstands : s'.Stands promos now)
    (hdwell : s.place.dwell s.nowplayingMinSeconds promos ≤ now - since)

theorem turn_nowplaying (h : s.Stands promos since) (hmode : s.mode = .nowplaying) :
    ∃ s', s.turn now promos = .ok s' ∧ s.Goes promos since now s' ∧
      s'.nowplayingMinSeconds = s.nowplayingMinSeconds := by
  have hplace : s.place = none := by simp [place, hmode]
  simp only [turn, hmode, elapsed, h.started, Option.getD_some]
  split_ifs with hturn
  · refine ⟨_, rfl, .moves ?_ ⟨h.key, ?_, rfl⟩ ?_, rfl⟩
    · simp [place, hmode, Place.next]
    · intro i hi
      cases hi
      exact List.length_pos_iff.mpr hturn.1
    · rw [hplace]
      exact hturn.2
  · exact ⟨s, rfl, .stays rfl h, rfl⟩

theorem turn_promo (h : s.Stands promos since) (hmode : s.mode = .promo) :
    ∃ s', s.turn now promos = .ok s' ∧ s.Goes promos since now s' ∧
      s'.nowplayingMinSeconds = s.nowplayingMinSeconds := by
  have hplace : s.place = some s.promoIndex := by simp [place, hmode]
  have hlt : s.promoIndex < promos.length := h.valid _ (by simp [hplace])
  have hne : promos ≠ [] := List.ne_nil_of_length_pos (Nat.zero_lt_of_lt hlt)
  obtain ⟨promo, hget, hpromo⟩ := getPromo_of_lt hlt
  by_cases hshown : promo.displaySeconds ≤ now - since
  · refine ⟨s.nextPromo now promos, ?_, ?_, rfl⟩
    · simp only [turn, hmode, if_neg hne, hpromo, elapsed, h.started, Option.getD_some]
      exact if_pos hshown
    · have hnext : (s.nextPromo now promos).place = s.place.next promos := by
        by_cases hlast : promos.length ≤ s.promoIndex + 1
        · simp [place, nextPromo, hmode, Place.next, hlast, Nat.not_lt.mpr hlast]
        · simp [place, nextPromo, hmode, Place.next, hlast, Nat.not_le.mp hlast]
      refine .moves hnext ⟨h.key, ?_, rfl⟩ ?_
      · rw [hnext, hplace]
        intro i hi
        simp only [Place.next] at hi
        split_ifs at hi with hmore
        · cases hi
          exact hmore
        · cases hi
      · simpa [hplace, Place.dwell, hget] using hshown
  · refine ⟨s, ?_, .stays rfl h, rfl⟩
    simp only [turn, hmode, if_neg hne, hpromo, elapsed, h.started, Option.getD_some]
    exact if_neg hshown

theorem turn_goes (h : s.Stands promos since) (now : ℚ) :
    ∃ s', s.turn now promos = .ok s' ∧ s.Goes promos since now s' ∧
      s'.nowplayingMinSeconds = s.nowplayingMinSeconds := by
  cases hmode : s.mode with
  | nowplaying => exact turn_nowplaying h hmode
  | promo => exact turn_promo h hmode

theorem Stands.ready (h : s.Stands promos since) : s.Ready := by
  intro hmode
  exact ⟨promos, h.key, h.valid _ (by simp [place, hmode])⟩

/-- The list is unchanged. -/
theorem Stands.advance (h : s.Stands promos since) (now : ℚ) :
    ∃ s', s.advance now promos = .ok (s'.place.source promos, s') ∧ s.Goes promos since now s' ∧
      s'.nowplayingMinSeconds = s.nowplayingMinSeconds := by
  have hstart : s.start now = s := by
    unfold start
    rw [h.started, Option.getD_some, ← h.started]
  have hremember : s.remember now promos = s := by
    unfold RTRotation.remember
    rw [if_neg fun hchanged => hchanged.2 h.key, ← h.key]
  obtain ⟨s', hturn, hgoes, hmin⟩ := turn_goes h now
  have hshown : s'.shown promos = .ok (s'.place.source promos) := by
    cases hgoes with
    | stays _ hstands => exact hstands.shown_eq
    | moves _ hstands => exact hstands.shown_eq
  refine ⟨s', ?_, hgoes, hmin⟩
  simp only [RTRotation.advance, hstart, hremember, hturn]
  change (s'.shown promos >>= fun source => .ok (source, s')) = _
  rw [hshown]
  rfl

/-- A call starts the timer again, or still shows what has been shown. -/
def Keeps (s : RTRotation) (now : ℚ) (s' : RTRotation) : Prop :=
  s'.modeStartedAt = some now ∨
    s'.modeStartedAt = s.modeStartedAt ∧ s'.current = s.current

theorem keeps_start (hstarted : s'.modeStartedAt = some (s.modeStartedAt.getD now))
    (hcurrent : s'.current = s.current) : s.Keeps now s' := by
  cases hcase : s.modeStartedAt with
  | none =>
    rw [hcase] at hstarted
    exact .inl hstarted
  | some since =>
    refine .inr ⟨?_, hcurrent⟩
    rw [hstarted, hcase]
    rfl

/-- Once the list is remembered, the rotation stands in it, or is about to leave an empty one. -/
theorem Ready.remember (h : s.Ready) (now : ℚ) (promos : List Promo) :
    (∃ since, ((s.start now).remember now promos).Stands promos since ∧
      s.Keeps now ((s.start now).remember now promos)) ∨
      promos = [] ∧ ((s.start now).remember now promos).mode = .promo := by
  unfold RTRotation.remember
  split_ifs with hchanged
  · by_cases hempty : promos = []
    · exact .inr ⟨hempty, hchanged.1⟩
    · refine .inl ⟨now, ⟨rfl, fun i hi => ?_, rfl⟩, .inl rfl⟩
      simp only [place, hchanged.1] at hi
      cases hi
      exact List.length_pos_iff.mpr hempty
  · refine .inl ⟨s.modeStartedAt.getD now, ⟨rfl, fun i hi => ?_, rfl⟩, keeps_start rfl ?_⟩
    · cases hmode : s.mode with
      | nowplaying => simp [place, start, hmode] at hi
      | promo =>
        obtain ⟨known, hkey, hlt⟩ := h hmode
        have hsame : known = promos := by simpa [start, hmode, hkey] using hchanged
        have hplace : i = s.promoIndex := by simpa [place, start, hmode] using hi.symm
        rw [hplace, ← hsame]
        exact hlt
    · cases hmode : s.mode with
      | nowplaying => simp [current, place, start, hmode, Place.source]
      | promo =>
        obtain ⟨known, hkey, hlt⟩ := h hmode
        have hsame : known = promos := by simpa [start, hmode, hkey] using hchanged
        simp [current, place, start, hmode, hkey, hsame]

theorem Goes.keeps {r : RTRotation} (h : r.Goes promos since now s') (hr : r.Stands promos since)
    (hkeeps : s.Keeps now r) : s.Keeps now s' := by
  cases h with
  | moves _ hstands => exact .inl hstands.started
  | stays hplace hstands =>
    have hstarted : s'.modeStartedAt = r.modeStartedAt := hstands.started.trans hr.started.symm
    have hcurrent : s'.current = r.current := by
      rw [current, current, hplace, hstands.key, hr.key]
    rcases hkeeps with hnow | ⟨hsame, hshown⟩
    · exact .inl (hstarted.trans hnow)
    · exact .inr ⟨hstarted.trans hsame, hcurrent.trans hshown⟩

/-- A call never fails, and shows a place of its own list. -/
theorem Ready.advance (h : s.Ready) (now : ℚ) (promos : List Promo) :
    ∃ s' since, s.advance now promos = .ok (s'.place.source promos, s') ∧
      s'.Stands promos since ∧ s'.nowplayingMinSeconds = s.nowplayingMinSeconds ∧
      s.Keeps now s' := by
  have hmin : ((s.start now).remember now promos).nowplayingMinSeconds =
      s.nowplayingMinSeconds := by
    unfold RTRotation.remember
    split_ifs <;> rfl
  have hof {s' : RTRotation} {since : ℚ}
      (hturn : ((s.start now).remember now promos).turn now promos = .ok s')
      (hstands : s'.Stands promos since) :
      s.advance now promos = .ok (s'.place.source promos, s') := by
    simp only [RTRotation.advance, hturn]
    change (s'.shown promos >>= fun source => .ok (source, s')) = _
    rw [hstands.shown_eq]
    rfl
  rcases h.remember now promos with ⟨since, hstands, hkeeps⟩ | ⟨rfl, hmode⟩
  · obtain ⟨s', hturn, hgoes, hmin'⟩ := turn_goes hstands now
    have hkeeps' := hgoes.keeps hstands hkeeps
    cases hgoes with
    | stays _ hstands' => exact ⟨s', since, hof hturn hstands', hstands', hmin'.trans hmin, hkeeps'⟩
    | moves _ hstands' => exact ⟨s', now, hof hturn hstands', hstands', hmin'.trans hmin, hkeeps'⟩
  · have hkey : ((s.start now).remember now []).promosKey = some [] := by
      unfold RTRotation.remember
      split_ifs <;> rfl
    let left : RTRotation :=
      { (s.start now).remember now [] with mode := .nowplaying, modeStartedAt := some now }
    have hstands : left.Stands [] now := by
      refine ⟨hkey, fun i hi => ?_, rfl⟩
      cases hi
    refine ⟨left, now, hof ?_ hstands, hstands, hmin, .inl rfl⟩
    simp only [turn, hmode, if_pos]
    rfl

end RTRotation

/-! ## Runs -/

theorem new_ready (nowplayingMinSeconds : ℚ) : (RTRotation.new nowplayingMinSeconds).Ready :=
  fun h => by cases h

/-- What a call shows is on its list. -/
def Source.On (promos : List Promo) : Source → Prop
  | .nowplaying => True
  | .promo name => ∃ promo ∈ promos, promo.name = name

theorem source_on (promos : List Promo) (place : Place) : (place.source promos).On promos := by
  cases place with
  | none => trivial
  | some i =>
    cases hget : promos[i]? with
    | none => simp [Place.source, hget, Source.On]
    | some promo =>
      simp only [Place.source, hget]
      exact ⟨promo, List.mem_of_getElem? hget, rfl⟩

theorem advanceAll_cons (call : Call) {calls : List Call} {sources : List Source}
    {s₁ : RTRotation} (hadvance : s.advance call.now call.promos = .ok (source, s₁))
    (hrest : advanceAll s₁ calls = .ok (sources, s')) :
    advanceAll s (call :: calls) = .ok (source :: sources, s') := by
  simp only [advanceAll, hadvance]
  change (advanceAll s₁ calls >>= fun x => .ok (source :: x.1, x.2)) = _
  rw [hrest]
  rfl

/-- The last calls, since the timer has been started, show what is shown now. -/
structure Traced (s : RTRotation) (calls : List Call) (sources : List Source) : Prop where
  length : calls.length = sources.length
  on : List.Forall₂ (fun call source => Source.On call.promos source) calls sources
  recent : ∃ earlier recent, calls = earlier ++ recent ∧
    sources.drop earlier.length = recent.map (fun _ => s.current) ∧
    recent.head?.map Call.now = s.modeStartedAt

theorem RTRotation.Stands.current_eq (h : s.Stands promos since) :
    s.current = s.place.source promos := by
  rw [RTRotation.current, h.key, Option.getD_some]

variable {before : List Call} {shownBefore : List Source}

/-- Since when the next call's source has been shown. -/
theorem Traced.begun (h : Traced s before shownBefore) (hkeeps : s.Keeps now s')
    (hstands : s'.Stands promos since) :
    ∃ earlier recent, before = earlier ++ recent ∧
      shownBefore.drop earlier.length = recent.map (fun _ => s'.place.source promos) ∧
      (recent.map Call.now ++ [now]).head? = some since := by
  rcases hkeeps with hnow | ⟨hstarted, hcurrent⟩
  · refine ⟨before, [], (List.append_nil _).symm, ?_, ?_⟩
    · simp [h.length]
    · simpa [hnow] using hstands.started
  · obtain ⟨earlier, recent, hbefore, hshown, hhead⟩ := h.recent
    refine ⟨earlier, recent, hbefore, ?_, ?_⟩
    · rw [hshown, ← hstands.current_eq, hcurrent]
    · rw [← hstarted, hstands.started] at hhead
      rw [List.head?_append, List.head?_map, hhead]
      rfl

theorem Traced.advance (h : Traced s before shownBefore) (hkeeps : s.Keeps now s')
    (hstands : s'.Stands promos since) :
    Traced s' (before ++ [⟨now, promos⟩]) (shownBefore ++ [s'.place.source promos]) := by
  obtain ⟨earlier, recent, hbefore, hshown, hhead⟩ := h.begun hkeeps hstands
  refine ⟨by simp [h.length], List.rel_append h.on (.cons (source_on ..) .nil), earlier,
    recent ++ [⟨now, promos⟩], ?_, ?_, ?_⟩
  · rw [hbefore, List.append_assoc]
  · have hle : earlier.length ≤ shownBefore.length := by
      rw [← h.length, hbefore, List.length_append]
      exact Nat.le_add_right ..
    rw [List.drop_append_of_le_length hle, hshown, List.map_append, hstands.current_eq]
    rfl
  · rw [hstands.started, ← hhead]
    cases recent <;> rfl

/-- Any calls at all. -/
theorem advanceAll_traced (hready : s.Ready) (h : Traced s before shownBefore)
    (calls : List Call) :
    ∃ sources s', advanceAll s calls = .ok (sources, s') ∧ s'.Ready ∧
      s'.nowplayingMinSeconds = s.nowplayingMinSeconds ∧
      Traced s' (before ++ calls) (shownBefore ++ sources) := by
  induction calls generalizing s before shownBefore with
  | nil => exact ⟨[], s, rfl, hready, rfl, by simpa using h⟩
  | cons call calls ih =>
    obtain ⟨s₁, since, hadvance, hstands, hmin, hkeeps⟩ := hready.advance call.now call.promos
    obtain ⟨sources, s', hrest, hready', hmin', htraced⟩ :=
      ih hstands.ready (h.advance hkeeps hstands)
    refine ⟨s₁.place.source call.promos :: sources, s', advanceAll_cons call hadvance hrest, hready',
      hmin'.trans hmin, ?_⟩
    simpa using htraced

theorem advanceAll_append {first second : List Call} {sources more : List Source}
    {s₁ : RTRotation} (hfirst : advanceAll s first = .ok (sources, s₁))
    (hsecond : advanceAll s₁ second = .ok (more, s')) :
    advanceAll s (first ++ second) = .ok (sources ++ more, s') := by
  induction first generalizing s sources with
  | nil =>
    cases hfirst
    exact hsecond
  | cons call rest ih =>
    rw [advanceAll] at hfirst
    cases hadvance : s.advance call.now call.promos with
    | error e =>
      rw [hadvance] at hfirst
      cases hfirst
    | ok result =>
      obtain ⟨source, s₂⟩ := result
      rw [hadvance] at hfirst
      cases hrest : advanceAll s₂ rest with
      | error e =>
        change (advanceAll s₂ rest >>= fun x => .ok (source :: x.1, x.2)) = _ at hfirst
        rw [hrest] at hfirst
        cases hfirst
      | ok result =>
        change (advanceAll s₂ rest >>= fun x => .ok (source :: x.1, x.2)) = _ at hfirst
        rw [hrest] at hfirst
        cases hfirst
        exact advanceAll_cons _ hadvance (ih hrest)

/-! ## Stretches with an unchanged list -/

/-- Consecutive calls that show one place. -/
structure Spell where
  place : Place
  since : ℚ
  readings : List ℚ

def Spell.sources (promos : List Promo) (spell : Spell) : List Source :=
  spell.readings.map fun _ => spell.place.source promos

/-- The spell that follows comes next in the list, and no earlier than it may. -/
def Spell.Then (nowplayingMinSeconds : ℚ) (promos : List Promo) (x y : Spell) : Prop :=
  y.place = x.place.next promos ∧
    x.place.dwell nowplayingMinSeconds promos ≤ y.since - x.since

/-- The rest of a stretch: the current spell goes on, and others follow. -/
theorem advanceAll_spells (h : s.Stands promos since) (readings : List ℚ) (before : List ℚ) :
    ∃ more rest s', advanceAll s (readings.map fun now => ⟨now, promos⟩) =
        .ok (more.map (fun _ => s.place.source promos) ++ rest.flatMap (Spell.sources promos), s') ∧
      readings = more ++ rest.flatMap Spell.readings ∧
      (∀ spell ∈ rest, spell.place.Valid promos ∧ spell.readings.head? = some spell.since) ∧
      (⟨s.place, since, before ++ more⟩ :: rest).IsChain
        (Spell.Then s.nowplayingMinSeconds promos) := by
  induction readings generalizing s since before with
  | nil => exact ⟨[], [], s, rfl, rfl, by simp, by simp⟩
  | cons now readings ih =>
    obtain ⟨s₁, hadvance, hgoes, hmin⟩ := h.advance now
    cases hgoes with
    | stays hplace hstands =>
      obtain ⟨more, rest, s', hrun, hreadings, hrest, hchain⟩ := ih hstands (before ++ [now])
      refine ⟨now :: more, rest, s', ?_, ?_, hrest, ?_⟩
      · have hrun := advanceAll_cons ⟨now, promos⟩ hadvance hrun
        rw [hplace] at hrun
        exact hrun
      · rw [hreadings, List.cons_append]
      · rw [hplace, hmin, List.append_assoc] at hchain
        exact hchain
    | moves hplace hstands hdwell =>
      obtain ⟨more, rest, s', hrun, hreadings, hrest, hchain⟩ := ih hstands [now]
      refine ⟨[], ⟨s₁.place, now, now :: more⟩ :: rest, s', ?_, ?_, ?_, ?_⟩
      · exact advanceAll_cons ⟨now, promos⟩ hadvance hrun
      · rw [hreadings]
        rfl
      · exact List.forall_mem_cons.mpr ⟨⟨hstands.valid, rfl⟩, hrest⟩
      · rw [hmin] at hchain
        exact .cons_cons ⟨hplace, hdwell⟩ hchain

/-- What is shown over a stretch with one list: place after place in the order of the cycle, each
for its time. The first spell may have begun before, under other lists. -/
structure InTurn (nowplayingMinSeconds : ℚ) (promos : List Promo) (before : List Call)
    (shownBefore : List Source) (readings : List ℚ) (sources : List Source) (spells : List Spell) :
    Prop where
  sources_eq : sources = spells.flatMap (Spell.sources promos)
  readings_eq : readings = spells.flatMap Spell.readings
  valid : ∀ spell ∈ spells, spell.place.Valid promos
  order : spells.IsChain (Spell.Then nowplayingMinSeconds promos)
  since : ∀ spell ∈ spells.tail, spell.readings.head? = some spell.since
  begun : ∀ spell ∈ spells.head?, ∃ earlier recent, before = earlier ++ recent ∧
    shownBefore.drop earlier.length = recent.map (fun _ => spell.place.source promos) ∧
    (recent.map Call.now ++ spell.readings).head? = some spell.since

/-- Whatever the lists and the clock: no call fails, what is shown is on the list of its call, and
over any stretch with one list the promos are shown in turn. -/
theorem rotation_in_turn (nowplayingMinSeconds : ℚ) (before : List Call) (promos : List Promo)
    (first : ℚ) (readings : List ℚ) :
    ∃ shownBefore sources s spells,
      advanceAll (.new nowplayingMinSeconds)
        (before ++ (first :: readings).map fun now => ⟨now, promos⟩) = .ok (shownBefore ++ sources, s) ∧
      List.Forall₂ (fun call source => Source.On call.promos source)
        (before ++ (first :: readings).map fun now => ⟨now, promos⟩) (shownBefore ++ sources) ∧
      shownBefore.length = before.length ∧
      InTurn nowplayingMinSeconds promos before shownBefore (first :: readings) sources spells := by
  have hnew : Traced (.new nowplayingMinSeconds) [] [] := ⟨rfl, .nil, [], [], rfl, rfl, rfl⟩
  obtain ⟨shownBefore, s, hbefore, hready, hmin, htraced⟩ :=
    advanceAll_traced (new_ready nowplayingMinSeconds) hnew before
  obtain ⟨s₁, since, hadvance, hstands, hmin₁, hkeeps⟩ := hready.advance first promos
  obtain ⟨more, rest, s', hrun, hreadings, hrest, hchain⟩ := advanceAll_spells hstands readings [first]
  obtain ⟨earlier, recent, hsplit, hshown, hhead⟩ := htraced.begun hkeeps hstands
  have hstretch := advanceAll_cons ⟨first, promos⟩ hadvance hrun
  obtain ⟨sources, s₂, hall, -, -, htraced'⟩ :=
    advanceAll_traced hready htraced ((first :: readings).map fun now => ⟨now, promos⟩)
  obtain ⟨rfl, rfl⟩ := Prod.mk.inj (Except.ok.inj (hall.symm.trans hstretch))
  refine ⟨shownBefore, _, _, ⟨s₁.place, since, first :: more⟩ :: rest,
    advanceAll_append hbefore hstretch, htraced'.on, htraced.length.symm, ?_⟩
  refine ⟨rfl, by rw [hreadings]; rfl, ?_, ?_, ?_, ?_⟩
  · exact List.forall_mem_cons.mpr ⟨hstands.valid, fun spell hspell => (hrest spell hspell).1⟩
  · rw [hmin₁, hmin] at hchain
    exact hchain
  · exact fun spell hspell => (hrest spell hspell).2
  · intro spell hspell
    cases hspell
    refine ⟨earlier, recent, hsplit, hshown, ?_⟩
    rw [← hhead]
    cases recent <;> rfl

end IsadoraAir.Rbds
