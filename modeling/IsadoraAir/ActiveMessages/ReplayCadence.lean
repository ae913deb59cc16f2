import IsadoraAir.ActiveMessages.Recording

/-!
# The replay cadence over whole runs

A scheduled execution has a due set, and keeps its distance from the airing before it. Evidence
of the same start or end, once more, changes nothing, and neither does evidence that does not
fit the row.
-/

namespace IsadoraAir.ActiveMessages

open Transaction

variable {start : Store} {newId : Uuid} {m : Message} {s s' : Store} {w : World} {deck : Deck}

/-! ## Scheduled executions -/

/-- The active messages that are due. -/
def dueSet (now : Time) (s : Store) : List Message :=
  s.messages.filter fun m => m.state = .active ∧ m.nextDueAt.any (· ≤ now)

/-- The smallest replay interval of the messages in the airing. -/
def smallestInterval (s : Store) (airing : Execution) : Option ℕ :=
  ((s.messages.filter fun m => m.id ∈ Composition.messageIds airing.compositionSnapshot).filterMap
    Message.replayIntervalSeconds).min?

/-- The operation creates `row`, as a scheduled execution. -/
structure Operated.Schedules (o : Operated) (s : Store) (row : Execution) : Prop where
  mem : row ∈ (o.step s).executions
  new : row.id ∉ s.executions.map Execution.id
  scheduled : row.reason = .scheduled

/-- A new execution is due with the first message of the due set. -/
structure DueNow (w : World) (s : Store) (row : Execution) : Prop where
  due : firstDue w.now (s.messages.filter fun m => m.state = .active) = some row.dueAt
  created : row.createdAt = w.createdAt
  generation : row.policyGeneration = s.policy.generation

theorem createExecution_due {policy : Policy} {snapshot : Snapshot} {digest unavailable : String}
    {request : Request} {dueAt : Time} :
    Ensures (createExecution w policy snapshot digest unavailable request dueAt newId) s
      fun row s' => s'.policy = s.policy ∧ s'.messages = s.messages ∧
        s'.executions = s.executions ++ [row] ∧ row.dueAt = dueAt ∧ row.createdAt = w.createdAt ∧
          row.policyGeneration = policy.generation := by
  unfold createExecution
  exact insertExecution_bind fun _ => event_bind (Ensures.pure ⟨rfl, rfl, rfl, rfl, rfl, rfl⟩)

theorem materializeDueExecution_due {actorKind : ActorKind} {blockingCodes : List String}
    (hs : Sound s) :
    Ensures (materializeDueExecution w actorKind blockingCodes newId) s fun _ s' =>
      ∀ row ∈ s'.executions, row.id ∉ s.executions.map Execution.id → DueNow w s' row := by
  unfold materializeDueExecution
  refine lockPolicy_bind ?_
  refine expireLocked_bind hs rfl fun policy _ s₁ hpolicy h₁ => ?_
  refine suppressSwept_bind hpolicy h₁ (fun _ _ => ⟨rfl, rfl⟩) fun s₂ hpolicy₂ h₂ => ?_
  have hnone : ∀ row ∈ s₂.executions, row.id ∉ s.executions.map Execution.id → DueNow w s₂ row :=
    fun row hrow hnew => absurd (h₂.ids ▸ List.mem_map_of_mem hrow) hnew
  refine openExecution_bind (fun _ => ?_) fun e => Ensures.pure hnone
  refine activeMessages_bind ?_
  dsimp only
  cases hdue : firstDue w.now (s₂.messages.filter fun m => m.state = .active) with
  | none => exact Ensures.pure hnone
  | some dueAt =>
    dsimp only
    set messages := s₂.messages.filter fun m => m.state = .active
    cases checkEligible w policy messages (stingerOf w policy messages).seconds with
    | error refusal => exact Ensures.pure hnone
    | ok total =>
      dsimp only
      refine Ensures.raised_bind fun r _ => Ensures.get_bind ?_
      cases blockingFailure s₂ policy r.2 blockingCodes with
      | some code => exact Ensures.pure hnone
      | none =>
        refine createExecution_due.bind fun row s' h => Ensures.pure fun e he hnew => ?_
        obtain ⟨hpolicy', hmessages, hexecutions, hat, hcreated, hgeneration⟩ := h
        rw [hexecutions] at he
        rcases List.mem_append.mp he with he | he
        · exact absurd (h₂.ids ▸ List.mem_map_of_mem he) hnew
        · rw [List.mem_singleton.mp he]
          refine ⟨?_, hcreated, ?_⟩
          · rw [hmessages, hat]
            exact hdue
          · rw [hpolicy', hpolicy₂, hgeneration]

/-- Only a materialization schedules, and it does when a message is due. -/
theorem Operated.Schedules.dueNow {o : Operated} {row : Execution} (h : o.Schedules s row)
    (hs : Sound s) : DueNow o.world (o.step s) row := by
  rcases o.step_effect hs with hpaced | ⟨airing, state, ended, hended⟩
  · rcases hpaced.sources row h.mem with ⟨e, he, hcontinues⟩ | ⟨-, -, hscheduling, -⟩
    · exact absurd (hcontinues.id ▸ List.mem_map_of_mem he) h.new
    · have hcall := hscheduling h.scheduled
      obtain ⟨world, deck, operation⟩ := o
      cases operation with
      | call c =>
        cases c with
        | materialize actorKind blockingCodes newId =>
          have hensures : Ensures (operate world deck (.call (.materialize actorKind blockingCodes
              newId))) s fun _ s' => ∀ row ∈ s'.executions,
                row.id ∉ s.executions.map Execution.id → DueNow world s' row :=
            ((materializeDueExecution_due hs).bind fun _ _ h => Ensures.pure h).ignore
          refine commit_rel (R := fun s s' => ∀ row ∈ s'.executions,
              row.id ∉ s.executions.map Execution.id → DueNow world s' row) ?_ hensures row
            h.mem h.new
          exact fun e he hnew => absurd (List.mem_map_of_mem he) hnew
        | _ => cases hcall
      | _ => cases hcall
  · rcases (hended.rows hs).2.2 row h.mem with ⟨duration, rfl⟩ | ⟨he, -⟩
    · exact absurd (List.mem_map_of_mem hended.mem) h.new
    · exact absurd (List.mem_map_of_mem he) h.new

theorem mem_dueSet {now : Time} :
    m ∈ dueSet now s ↔ m ∈ s.messages ∧ m.state = .active ∧ ∃ due, m.nextDueAt = some due ∧
      due ≤ now := by
  cases h : m.nextDueAt <;> simp [dueSet, h]

/-- The due set is not empty, and the execution is due with the first of it. -/
theorem DueNow.earliest {row : Execution} (h : DueNow w s row) :
    (∃ m ∈ dueSet w.now s, m.nextDueAt = some row.dueAt) ∧
      ∀ m ∈ dueSet w.now s, ∀ due, m.nextDueAt = some due → row.dueAt ≤ due := by
  obtain ⟨hmem, hleast⟩ := List.min?_eq_some_iff.mp h.due
  constructor
  · simp only [List.mem_filter, List.mem_filterMap, decide_eq_true_eq] at hmem
    obtain ⟨⟨m, ⟨hm, hactive⟩, hdue⟩, hle⟩ := hmem
    exact ⟨m, mem_dueSet.mpr ⟨hm, hactive, _, hdue, hle⟩, hdue⟩
  · intro m hm due hdue
    obtain ⟨hmem, hactive, due', hdue', hle⟩ := mem_dueSet.mp hm
    rw [hdue] at hdue'
    cases hdue'
    refine hleast due ?_
    simp only [List.mem_filter, List.mem_filterMap, decide_eq_true_eq]
    exact ⟨⟨m, ⟨hmem, hactive⟩, hdue⟩, hle⟩

/-! ## Runs -/

/-- The store after the operations, in the order the policy lock serializes them. -/
def operated (policy : Policy) (operations : List Operated) : Store :=
  Runs.run Operated.step operations (.initial policy)

theorem operated_invariant (policy : Policy) (operations : List Operated) :
    Sound (operated policy operations) ∧ Composed (operated policy operations) := by
  refine Runs.invariant (P := fun _ _ => True) (I := fun s => Sound s ∧ Composed s)
    (fun o s _ h => ⟨o.step_sound h.1, o.step_composed h.1 h.2⟩) ⟨initial_sound policy, ?_⟩
    (Runs.throughout_true operations _)
  exact fun e he => by cases he

theorem operated_append (policy : Policy) (first second : List Operated) :
    operated policy (first ++ second) = Runs.run Operated.step second (operated policy first) :=
  Runs.run_append first second _

/-- What holds from the end of an airing on, as long as the generation stays. -/
structure Keeps (start : Store) (airing : Execution) (anchor : Time) (s : Store) : Prop where
  sound : Sound s
  generation : start.policy.generation ≤ s.policy.generation
  active : s.policy.generation = start.policy.generation →
    activeIds s.messages = activeIds start.messages
  spaced : s.policy.generation = start.policy.generation → Spaced airing anchor s

theorem Keeps.step {airing : Execution} {anchor : Time} {o : Operated}
    (h : Keeps start airing anchor s) (hlater : EndsNoEarlier anchor o s) :
    Keeps start airing anchor (o.step s) := by
  have hgeneration := o.step_generation h.sound
  have hbefore := h.generation
  refine ⟨o.step_sound h.sound, hbefore.trans hgeneration, fun hsame => ?_, fun hsame => ?_⟩
  · rw [o.step_active h.sound (by omega), h.active (by omega)]
  · exact o.step_spaced h.sound hlater (by omega) (h.spaced (by omega))

theorem Keeps.run {airing : Execution} {anchor : Time} {middle : List Operated}
    (h : Keeps start airing anchor s)
    (hlater : Runs.Throughout Operated.step (EndsNoEarlier anchor) middle s) :
    Keeps start airing anchor (Runs.run Operated.step middle s) :=
  Runs.invariant (fun _ _ hlater h => h.step hlater) h hlater

/-- A scheduled execution ends no airing. -/
theorem Operated.Schedules.endsNoEarlier {o : Operated} {row : Execution} {anchor : Time}
    (h : o.Schedules s row) (hs : Sound s) : EndsNoEarlier anchor o s := by
  intro airing ended hends
  rcases o.step_effect hs with hpaced | ⟨started, state, ended', hended⟩
  · exact absurd hends hpaced.not_endsAiring
  · rcases (hended.rows hs).2.2 row h.mem with ⟨duration, rfl⟩ | ⟨he, -⟩
    · exact absurd (List.mem_map_of_mem hended.mem) h.new
    · exact absurd (List.mem_map_of_mem he) h.new

/-- `airing` ends with `o` after `before`, and after `middle`, in which no airing ends with earlier
evidence, `c` creates the scheduled execution `row` in the same generation. -/
structure Follows (policy : Policy) (before : List Operated) (o : Operated)
    (middle : List Operated) (c : Operated) (airing : Execution) (anchor : Time)
    (row : Execution) : Prop where
  ends : EndsAiring (operated policy before) (o.step (operated policy before)) airing anchor
  later : Runs.Throughout Operated.step (EndsNoEarlier anchor) middle
    (operated policy (before ++ [o]))
  schedules : c.Schedules (operated policy (before ++ o :: middle)) row
  generation : row.policyGeneration = (operated policy (before ++ [o])).policy.generation

namespace Follows

variable {policy : Policy} {before middle : List Operated} {o c : Operated} {airing : Execution}
  {anchor : Time} {row : Execution}

/-- The store in which the scheduled execution exists. -/
theorem keeps (h : Follows policy before o middle c airing anchor row) :
    Keeps (operated policy (before ++ [o])) airing anchor
      (c.step (operated policy (before ++ o :: middle))) := by
  obtain ⟨hsound, -⟩ := operated_invariant policy before
  have hend : operated policy (before ++ [o]) = o.step (operated policy before) :=
    operated_append policy before [o]
  have hmiddle : operated policy (before ++ o :: middle) =
      Runs.run Operated.step middle (operated policy (before ++ [o])) := by
    rw [hend]
    exact operated_append policy before (o :: middle)
  have hstart : Keeps (operated policy (before ++ [o])) airing anchor
      (operated policy (before ++ [o])) := by
    refine ⟨(operated_invariant policy _).1, le_refl _, fun _ => rfl, fun _ => ?_⟩
    rw [hend]
    exact o.step_starts hsound h.ends
  have hrun := hmiddle ▸ hstart.run h.later
  exact hrun.step (h.schedules.endsNoEarlier hrun.sound)

theorem dueNow (h : Follows policy before o middle c airing anchor row) :
    DueNow c.world (c.step (operated policy (before ++ o :: middle))) row :=
  h.schedules.dueNow (operated_invariant policy _).1

theorem current (h : Follows policy before o middle c airing anchor row) :
    (c.step (operated policy (before ++ o :: middle))).policy.generation =
      (operated policy (before ++ [o])).policy.generation :=
  h.dueNow.generation.symm.trans h.generation

/-- A message of the airing is due one interval after it at the earliest. -/
theorem due (h : Follows policy before o middle c airing anchor row)
    (hm : m ∈ dueSet c.world.now (c.step (operated policy (before ++ o :: middle))))
    (hin : m.id ∈ Composition.messageIds airing.compositionSnapshot) :
    ∃ interval due, m.replayIntervalSeconds = some interval ∧ m.nextDueAt = some due ∧
      anchor + interval * 1000000 ≤ due := by
  obtain ⟨hmem, hactive, -⟩ := mem_dueSet.mp hm
  exact h.keeps.spaced h.current m hmem hactive hin

/-- Built for the same generation, the airing contains whatever is active. -/
theorem within (h : Follows policy before o middle c airing anchor row)
    (hbuilt : airing.policyGeneration = row.policyGeneration)
    (hm : m ∈ dueSet c.world.now (c.step (operated policy (before ++ o :: middle)))) :
    m.id ∈ Composition.messageIds airing.compositionSnapshot := by
  obtain ⟨hmem, hactive, -⟩ := mem_dueSet.mp hm
  obtain ⟨-, hcomposed⟩ := operated_invariant policy (before ++ [o])
  have hend : operated policy (before ++ [o]) = o.step (operated policy before) :=
    operated_append policy before [o]
  have hlive : airing.state.isLive = true := by
    have haired := h.ends.aired
    cases hstate : airing.state <;> simp [ExecutionState.hasAired, ExecutionState.isLive,
      hstate] at *
  refine (hcomposed airing (hend ▸ h.ends.mem) hlive).2 (hbuilt.trans h.generation) m.id ?_
  rw [← h.keeps.active h.current]
  exact mem_activeIds.mpr ⟨m, hmem, hactive, rfl⟩

theorem spacing (h : Follows policy before o middle c airing anchor row)
    (hbuilt : airing.policyGeneration = row.policyGeneration) :
    ∃ interval, smallestInterval (c.step (operated policy (before ++ o :: middle))) airing =
      some interval ∧ anchor + interval * 1000000 ≤ row.dueAt := by
  obtain ⟨⟨m, hm, hdue⟩, -⟩ := h.dueNow.earliest
  obtain ⟨interval, due, hinterval, hdue', hle⟩ := h.due hm (h.within hbuilt hm)
  rw [hdue] at hdue'
  cases hdue'
  set rows := (((c.step (operated policy (before ++ o :: middle))).messages.filter fun m =>
    m.id ∈ Composition.messageIds airing.compositionSnapshot).filterMap
      Message.replayIntervalSeconds) with hrows
  have hin : interval ∈ rows := by
    rw [hrows]
    simp only [List.mem_filterMap, List.mem_filter, decide_eq_true_eq]
    exact ⟨m, ⟨(mem_dueSet.mp hm).1, h.within hbuilt hm⟩, hinterval⟩
  cases hmin : rows.min? with
  | none =>
    rw [List.min?_eq_none_iff.mp hmin] at hin
    cases hin
  | some least =>
    have hleast : least ≤ interval := (List.min?_eq_some_iff.mp hmin).2 interval hin
    refine ⟨least, hmin, ?_⟩
    have hscaled : (least : ℤ) * 1000000 ≤ interval * 1000000 := by omega
    exact (Int.add_le_add_left hscaled anchor).trans hle

end Follows

/-! ## The cadence -/

/-- The same evidence once more, wherever and whenever it is reported. -/
theorem repeated_unchanged {policy : Policy} {before middle : List Operated} {o o' : Operated}
    (hevidence : o.operation.isEvidence = true)
    (haccepted : o.accepted (operated policy before) = true) (hsame : o'.operation = o.operation) :
    o'.step (operated policy (before ++ o :: middle)) =
      operated policy (before ++ o :: middle) := by
  obtain ⟨hsound, -⟩ := operated_invariant policy before
  obtain ⟨e, he, hrecorded⟩ := o.recorded hsound hevidence haccepted
  obtain ⟨e', he', hrecorded'⟩ :
      ∃ e' ∈ (Runs.run Operated.step middle (o.step (operated policy before))).executions,
        o.operation.Recorded e' :=
    hrecorded.run (o.step_sound hsound) he
  have hrun : operated policy (before ++ o :: middle) =
      Runs.run Operated.step middle (o.step (operated policy before)) :=
    operated_append policy before (o :: middle)
  rw [hrun]
  refine o'.unchanged ?_ he' (hsame ▸ hrecorded'.misfits)
  rw [← hrun]
  exact (operated_invariant policy _).1

/-- In every run: no message of an airing that has ended is due again before its interval is over,
and none of its generation is; what is scheduled has a due set; and evidence that is repeated or
does not fit the row changes nothing. -/
theorem replay_cadence (policy : Policy) :
    (∀ before o middle c airing anchor row, Follows policy before o middle c airing anchor row →
      (∀ m ∈ dueSet c.world.now (c.step (operated policy (before ++ o :: middle))),
        m.id ∈ Composition.messageIds airing.compositionSnapshot →
          ∃ interval due, m.replayIntervalSeconds = some interval ∧ m.nextDueAt = some due ∧
            anchor + interval * 1000000 ≤ due) ∧
      (airing.policyGeneration = row.policyGeneration →
        ∃ interval, smallestInterval (c.step (operated policy (before ++ o :: middle))) airing =
          some interval ∧ anchor + interval * 1000000 ≤ row.dueAt)) ∧
    (∀ operations (c : Operated) (row : Execution), c.Schedules (operated policy operations) row →
      row.createdAt = c.world.createdAt ∧ row.dueAt ≤ c.world.now ∧
      (∃ m ∈ dueSet c.world.now (c.step (operated policy operations)),
        m.nextDueAt = some row.dueAt) ∧
      ∀ m ∈ dueSet c.world.now (c.step (operated policy operations)),
        ∀ due, m.nextDueAt = some due → row.dueAt ≤ due) ∧
    (∀ before (o : Operated) middle (o' : Operated), o.operation.isEvidence = true →
      o.accepted (operated policy before) = true → o'.operation = o.operation →
      o'.step (operated policy (before ++ o :: middle)) =
        operated policy (before ++ o :: middle)) ∧
    ∀ operations (o : Operated), ∀ e ∈ (operated policy operations).executions,
      o.operation.Misfits e →
      o.step (operated policy operations) = operated policy operations := by
  refine ⟨fun before o middle c airing anchor row h => ⟨fun m => h.due, h.spacing⟩, ?_, ?_, ?_⟩
  · intro operations c row h
    obtain ⟨⟨m, hm, hdue⟩, hleast⟩ := (h.dueNow (operated_invariant policy operations).1).earliest
    obtain ⟨-, -, due, hdue', hle⟩ := mem_dueSet.mp hm
    rw [hdue] at hdue'
    cases hdue'
    exact ⟨(h.dueNow (operated_invariant policy operations).1).created, hle, ⟨m, hm, hdue⟩, hleast⟩
  · exact fun before o middle o' => repeated_unchanged
  · exact fun operations o e he => o.unchanged (operated_invariant policy operations).1 he

/-! ## Two airings -/

def samplePublication : Publication :=
  ⟨"p", 5, "mix", "am-00000000000000000000000000000000.flac"⟩

/-- The gate is open, and the mix is published; `insertions` are those made so far. -/
def sampleDeck (insertions : List Insertion) : Deck where
  available := true
  libraryRoot := "/library"
  trackPath := fun _ => some "/library/am-00000000000000000000000000000000.flac"
  categoryExists := true
  publicationOf := fun _ => some samplePublication
  problem := fun _ => ""
  insertions := insertions
  logItem := fun _ => some (none, none)
  hasPlayEvent := fun _ => false

def sampleOperated (now : Time) (insertions : List Insertion) (o : Operation) : Operated :=
  ⟨{ sampleWorld with now := now, createdAt := now }, sampleDeck insertions, o⟩

def openPolicy : Policy := { samplePolicy with nativeAiringEnabled := true }

/-- One message, from its preparation until it is on air. -/
def sampleAiring : List Operated :=
  [.call (.prepare (some sampleUser) (.pk 3) "Closed" none "m"),
    .call (.bindMedia "m" "media" (some sampleUser) none),
    .call (.activate "m" (some sampleUser) none), .call (.materialize .worker [] "x"),
    .call (.bindMix "x" "mix" .worker), .dispatch "x" "a",
    .recordInsertion "x" "a" 5 9 "e"].map (sampleOperated 1000 []) ++
  [.authorizeOpen 9 (some 5) "e", .recordAirStarted "x" "a" (some 2000) none .engine].map
    (sampleOperated 1000 [⟨"x", "a", samplePublication, some 9, 9⟩])

/-- It ends at 3000. -/
def sampleEnd : Operated :=
  sampleOperated 3500 []
    (.recordAirCompleted "x" "a" (some 3000) (some (.decimal 30000000)) .engine)

def sampleMaterialize (now : Time) : Operated :=
  sampleOperated now [] (.call (.materialize .worker [] "y"))

/-- A scheduled execution right after the end of an airing. -/
theorem exists_follows {policy : Policy} {before : List Operated} {o c : Operated} {anchor : Time}
    {P Q : Execution → Prop} (h : (∃ airing ∈ (o.step (operated policy before)).executions,
      airing.state.hasAired = true ∧ airing.endedAt = some anchor ∧
        (∀ e ∈ (operated policy before).executions, e.id = airing.id → e.state.hasAired = false) ∧
          P airing) ∧
    ∃ row ∈ (c.step (o.step (operated policy before))).executions,
      row.id ∉ (o.step (operated policy before)).executions.map Execution.id ∧
        row.reason = .scheduled ∧
          row.policyGeneration = (o.step (operated policy before)).policy.generation ∧ Q row) :
    ∃ airing row, Follows policy before o [] c airing anchor row ∧ P airing ∧ Q row := by
  obtain ⟨⟨airing, hmem, haired, hanchor, hbefore, hP⟩, hends⟩ := h
  have hafter : operated policy (before ++ [o]) = o.step (operated policy before) := by
    simp only [operated, Runs.run_append]
    rfl
  rw [← hafter] at hends
  obtain ⟨row, hrow, hnew, hscheduled, hgeneration, hQ⟩ := hends
  exact ⟨airing, row, ⟨⟨hmem, haired, hanchor, hbefore⟩, trivial, ⟨hrow, hnew, hscheduled⟩,
    hgeneration⟩, hP, hQ⟩

theorem replay_cadence_once : ∃ airing row, Follows openPolicy sampleAiring sampleEnd []
    (sampleMaterialize 900003000) airing 3000 row ∧
    ∃ interval, smallestInterval ((sampleMaterialize 900003000).step
      (operated openPolicy (sampleAiring ++ [sampleEnd]))) airing = some interval ∧
        3000 + interval * 1000000 ≤ row.dueAt := by
  have hsample : ∃ airing row, Follows openPolicy sampleAiring sampleEnd []
      (sampleMaterialize 900003000) airing 3000 row ∧ airing.policyGeneration = 2 ∧
      row.policyGeneration = 2 := exists_follows (by decide +kernel)
  obtain ⟨airing, row, hfollows, hairing, hrow⟩ := hsample
  exact ⟨airing, row, hfollows,
    ((replay_cadence openPolicy).1 _ _ _ _ _ _ _ hfollows).2 (hairing.trans hrow.symm)⟩

/-- During the airing its message is cleared, and another becomes active. -/
def sampleLate : List Operated :=
  [.call (.clear "m" (some sampleUser) "over" none),
    .call (.prepare (some sampleUser) (.pk 3) "Late" none "n"),
    .call (.bindMedia "n" "media" (some sampleUser) none),
    .call (.activate "n" (some sampleUser) none)].map (sampleOperated 2500 [])

/-- It is scheduled right after the airing, which is no change of the generation any more. -/
theorem replay_cadence_late : ∃ airing row, Follows openPolicy (sampleAiring ++ sampleLate)
    sampleEnd [] (sampleMaterialize 4000) airing 3000 row ∧
    smallestInterval ((sampleMaterialize 4000).step
      (operated openPolicy (sampleAiring ++ sampleLate ++ [sampleEnd]))) airing = some 900 ∧
    row.createdAt < 3000 + 900 * 1000000 :=
  exists_follows (by decide +kernel)

end IsadoraAir.ActiveMessages
