import IsadoraAir.ActiveMessages.Cadence

/-!
# The spacing of airings

Runs of all the services: the domain's calls, the playout, the policy and the air evidence, in
any order. An airing that has ended keeps its messages off for one interval each, unless a new
generation begins; evidence that is repeated or does not fit changes nothing.
-/

namespace IsadoraAir.ActiveMessages

open Transaction

variable {airing : Execution} {scheduling : Prop} {anchor : Time}

/-! ## Operations -/

/-- One call of a service with its arguments; a token is a UUID that it generates. -/
inductive Operation where
  | call (c : Call)
  | recordAirStarted (execution : Uuid) (attemptToken : String) (startedAt claimedAt : Option Time)
      (actorKind : ActorKind)
  | recordAirCompleted (execution : Uuid) (attemptToken : String) (endedAt : Option Time)
      (duration : Option Confirmed) (actorKind : ActorKind)
  | recordAirInterrupted (execution : Uuid) (attemptToken : String) (lastEvidenceAt : Option Time)
      (duration : Option Confirmed) (actorKind : ActorKind)
  | recordRenderRetry (execution : Uuid) (code : String) (actorKind : ActorKind)
  | setDefaultReplayInterval (seconds : ℤ) (actor : Option User)
  | setStingerKey (key : String) (actor : Option User)
  | setLimits (requested : Limits (Option ℤ)) (actor : Option User)
  | setNativeAiring (enabled : Bool) (actor : Option User)
  | dispatch (execution token : Uuid)
  | recordInsertion (execution attempt : Uuid) (track logItem : ℕ) (engineInstance : String)
  | authorizeOpen (logItem : ℕ) (track : Option ℕ) (engineInstance : String)
  | reportNotAired (logItem : ℕ) (engineInstance stage : String) (token : Uuid)
  | engineStarted (execution : Uuid) (engineInstance : String) (token : Uuid)
  | engineHeldStep (execution token : Uuid)
  | failPublication (execution : Uuid) (code detail : String)
  | recordPublicationRetry (execution : Uuid) (code detail : String)

def operate (w : World) (deck : Deck) : Operation → Tx Unit
  | .call c => do let _ ← perform w c
  | .recordAirStarted execution attemptToken startedAt claimedAt actorKind => do
    let _ ← recordAirStarted w execution attemptToken startedAt claimedAt actorKind
  | .recordAirCompleted execution attemptToken endedAt duration actorKind => do
    let _ ← recordAirCompleted w execution attemptToken endedAt duration actorKind
  | .recordAirInterrupted execution attemptToken lastEvidenceAt duration actorKind => do
    let _ ← recordAirInterrupted w execution attemptToken lastEvidenceAt duration actorKind
  | .recordRenderRetry execution code actorKind => do
    let _ ← recordRenderRetry execution code actorKind
  | .setDefaultReplayInterval seconds actor => do
    let _ ← setDefaultReplayInterval w seconds actor
  | .setStingerKey key actor => do let _ ← setStingerKey w key actor
  | .setLimits requested actor => do let _ ← setLimits w requested actor
  | .setNativeAiring enabled actor => do let _ ← setNativeAiring w deck.available enabled actor
  | .dispatch execution token => do let _ ← dispatch w deck execution token
  | .recordInsertion execution attempt track logItem engineInstance => do
    let _ ← recordInsertion w deck execution attempt track logItem engineInstance
  | .authorizeOpen logItem track engineInstance => do
    let _ ← authorizeOpen w deck logItem track engineInstance
  | .reportNotAired logItem engineInstance stage token => do
    let _ ← reportNotAired w deck logItem engineInstance stage token
  | .engineStarted execution engineInstance token =>
    engineStarted w deck execution engineInstance token
  | .engineHeldStep execution token => do let _ ← engineHeldStep w deck execution token
  | .failPublication execution code detail => failPublication w execution code detail
  | .recordPublicationRetry execution code detail => do
    let _ ← recordPublicationRetry execution code detail

/-- An operation in the surroundings it is made in. -/
structure Operated where
  world : World
  deck : Deck
  operation : Operation

namespace Operated

/-- The store after the operation; a refused one is rolled back. -/
def step (o : Operated) (s : Store) : Store :=
  ((operate o.world o.deck o.operation).commit s).2

/-- Whether it returned. -/
def accepted (o : Operated) (s : Store) : Bool :=
  ((operate o.world o.deck o.operation).commit s).1.isOk

end Operated

variable {s s' : Store} {w : World} {deck : Deck}

def Operation.schedules : Operation → Prop
  | .call c => c.schedules
  | _ => False

/-! ## One step -/

/-- The airing of a row has ended. -/
def EndsOne (now : Time) (s s' : Store) : Prop := ∃ row state ended, Ended now row state ended s s'

theorem operate_ensures (hs : Sound s) (o : Operation) :
    Ensures (operate w deck o) s fun _ s' => Paced o.schedules s s' ∨ EndsOne w.now s s' := by
  have hadvanced {α : Type} {m : Tx α} (h : Respects Advanced m) :
      Ensures m s fun _ s' => Paced False s s' ∨ EndsOne w.now s s' :=
    (h s).mono fun _ _ h => .inl ((h hs.keyed).paced hs)
  have hends {α : Type} {m : Tx α} (h : Ensures m s fun _ s' => s' = s ∨ EndsOne w.now s s') :
      Ensures m s fun _ s' => Paced False s s' ∨ EndsOne w.now s s' :=
    h.mono fun _ s' h => h.imp_left fun heq => by rw [heq]; exact hs.paced
  have hpaced {scheduling : Prop} {α : Type} {m : Tx α}
      (h : Ensures m s fun _ s' => Paced scheduling s s') :
      Ensures m s fun _ s' => Paced scheduling s s' ∨ EndsOne w.now s s' := h.mono fun _ _ => .inl
  cases o with
  | call c => exact (hpaced (perform_paced hs c)).ignore
  | recordAirStarted execution attemptToken startedAt claimedAt actorKind =>
    exact (hadvanced recordAirStarted_advanced).ignore
  | recordAirCompleted execution attemptToken endedAt duration actorKind =>
    exact (hends (recordAirCompleted_ensures hs)).ignore
  | recordAirInterrupted execution attemptToken lastEvidenceAt duration actorKind =>
    exact (hends (recordAirInterrupted_ensures hs)).ignore
  | recordRenderRetry execution code actorKind =>
    exact (hadvanced recordRenderRetry_advanced).ignore
  | setDefaultReplayInterval seconds actor =>
    exact (hpaced (setDefaultReplayInterval_ensures hs)).ignore
  | setStingerKey key actor => exact (hpaced (setStingerKey_ensures hs)).ignore
  | setLimits requested actor => exact (hpaced (setLimits_ensures hs)).ignore
  | setNativeAiring enabled actor => exact (hpaced (setNativeAiring_ensures hs)).ignore
  | dispatch execution token => exact (hadvanced dispatch_advanced).ignore
  | recordInsertion execution attempt track logItem engineInstance =>
    exact (hadvanced recordInsertion_advanced).ignore
  | authorizeOpen logItem track engineInstance =>
    exact (hadvanced authorizeOpen_advanced).ignore
  | reportNotAired logItem engineInstance stage token =>
    exact (hadvanced reportNotAired_advanced).ignore
  | engineStarted execution engineInstance token => exact hadvanced engineStarted_advanced
  | engineHeldStep execution token => exact (hadvanced engineHeldStep_advanced).ignore
  | failPublication execution code detail => exact hadvanced failPublication_advanced
  | recordPublicationRetry execution code detail =>
    exact (hadvanced recordPublicationRetry_advanced).ignore

theorem Operated.step_effect (o : Operated) (hs : Sound s) :
    Paced o.operation.schedules s (o.step s) ∨ EndsOne o.world.now s (o.step s) :=
  commit_rel (R := fun s s' => Paced o.operation.schedules s s' ∨ EndsOne o.world.now s s')
    (.inl hs.paced) (operate_ensures hs o.operation)

namespace Ended

variable {now : Time} {row : Execution} {state : ExecutionState} {ended : Time}

theorem rows (h : Ended now row state ended s s') (hs : Sound s) :
    (∃ duration, airEnded state now ended duration row ∈ s'.executions) ∧
    (∀ e ∈ s.executions, e.id ≠ row.id → e ∈ s'.executions) ∧
    ∀ e' ∈ s'.executions, (∃ duration, e' = airEnded state now ended duration row) ∨
      e' ∈ s.executions ∧ e'.id ≠ row.id := by
  obtain ⟨duration, hexecutions⟩ := h.executions
  refine ⟨⟨duration, ?_⟩, fun e he hne => ?_, fun e' he' => ?_⟩
  · rw [hexecutions]
    exact List.mem_map.mpr ⟨row, h.mem, if_pos rfl⟩
  · rw [hexecutions]
    exact List.mem_map.mpr ⟨e, he, if_neg hne⟩
  · rw [hexecutions] at he'
    obtain ⟨e, he, rfl⟩ := List.mem_map.mp he'
    by_cases hid : e.id = row.id
    · rw [if_pos hid, List.inj_on_of_nodup_map hs.executions.ids he h.mem hid]
      exact .inl ⟨duration, rfl⟩
    · rw [if_neg hid]
      exact .inr ⟨he, hid⟩

theorem activeIds_eq (h : Ended now row state ended s s') :
    activeIds s'.messages = activeIds s.messages := by
  rw [h.messages]
  exact MessagesSound.activeIds_map_eq Message.airedAt_id fun m _ => by rw [Message.airedAt_state]

theorem sound (h : Ended now row state ended s s') (hs : Sound s) : Sound s' := by
  constructor
  · rw [h.messages]
    refine hs.messages.map Message.airedAt_id Message.airedAt_sameSlot fun m hm ha => ?_
    rw [Message.airedAt_state] at ha
    exact ⟨ha, Message.airedAt_isComplete (hs.messages.complete m hm ha)⟩
  · obtain ⟨duration, hexecutions⟩ := h.executions
    have hover : ∀ e : Execution, (airEnded state now ended duration e).state.isUnfinished = false
        ∧ (airEnded state now ended duration e).state.isPrestart = false := by
      intro e
      have haired := h.aired
      show state.isUnfinished = false ∧ state.isPrestart = false
      cases state <;> simp [ExecutionState.hasAired, ExecutionState.isUnfinished,
        ExecutionState.isPrestart] at *
    rw [hexecutions, h.policy]
    refine hs.executions.map (fun e => ?_) (fun e _ hu => ?_) fun e he hp => ?_
    · split <;> rfl
    · split at hu
      · rw [(hover e).1] at hu
        cases hu
      · exact hu
    · split at hp
      · rw [(hover e).2] at hp
        cases hp
      · next hne =>
        rw [if_neg hne]
        exact hs.executions.current e he hp

end Ended

theorem Operated.step_sound (o : Operated) (hs : Sound s) : Sound (o.step s) := by
  rcases o.step_effect hs with h | ⟨row, state, ended, h⟩
  · exact h.sound
  · exact h.sound hs

theorem Operated.step_generation (o : Operated) (hs : Sound s) :
    s.policy.generation ≤ (o.step s).policy.generation := by
  rcases o.step_effect hs with h | ⟨row, state, ended, h⟩
  · exact h.generation
  · rw [h.policy]

theorem Operated.step_active (o : Operated) (hs : Sound s)
    (h : (o.step s).policy.generation = s.policy.generation) :
    activeIds (o.step s).messages = activeIds s.messages := by
  rcases o.step_effect hs with hpaced | ⟨row, state, ended, hended⟩
  · exact hpaced.active h
  · exact hended.activeIds_eq

/-! ## Compositions -/

/-- It may still air, or has aired. -/
def ExecutionState.isLive (s : ExecutionState) : Bool := s ≠ .suppressed ∧ s ≠ .failed

/-- An airing that was built for the current generation contains every active message. -/
def Composed (s : Store) : Prop :=
  ∀ e ∈ s.executions, e.state.isLive = true → e.policyGeneration ≤ s.policy.generation ∧
    (e.policyGeneration = s.policy.generation →
      ∀ id ∈ activeIds s.messages, id ∈ Composition.messageIds e.compositionSnapshot)

theorem Paced.composed (h : Paced scheduling s s') (hs : Composed s) : Composed s' := by
  intro e' he' hlive
  rcases h.sources e' he' with ⟨e, he, hcontinues⟩ | ⟨hnew, hdomestic, -, hids⟩
  · have hold : e.state.isLive = true := by
      by_contra hdead
      have hfixed : e.state.isFixed = true := by
        cases hstate : e.state <;> simp [ExecutionState.isLive, ExecutionState.isFixed,
          ExecutionState.isUnfinished, hstate] at *
      rw [hcontinues.fixed hfixed] at hlive
      exact hdead hlive
    obtain ⟨hle, hcomposed⟩ := hs e he hold
    have hgeneration := h.generation
    refine ⟨hcontinues.generation ▸ hle.trans hgeneration, fun hcurrent id hid => ?_⟩
    rw [hcontinues.generation] at hcurrent
    have hsame : s'.policy.generation = s.policy.generation := by omega
    rw [h.active hsame] at hid
    rw [hcontinues.snapshot]
    exact hcomposed (hcurrent.trans hsame) id hid
  · have hprestart : e'.state.isPrestart = true := by
      cases hstate : e'.state <;> simp [ExecutionState.isLive, ExecutionState.isDomestic,
        ExecutionState.isPrestart, hstate] at *
    exact ⟨(h.sound.executions.current e' he' hprestart).le, fun _ id hid => (hids id).mpr hid⟩

theorem Ended.composed {now : Time} {row : Execution} {state : ExecutionState} {ended : Time}
    (h : Ended now row state ended s s') (hsound : Sound s) (hs : Composed s) : Composed s' := by
  intro e' he' hlive
  rw [h.policy, h.activeIds_eq]
  rcases (h.rows hsound).2.2 e' he' with ⟨duration, rfl⟩ | ⟨he, -⟩
  · exact hs row h.mem (by rw [h.started]; rfl)
  · exact hs e' he hlive

theorem Operated.step_composed (o : Operated) (hsound : Sound s) (hs : Composed s) :
    Composed (o.step s) := by
  rcases o.step_effect hsound with h | ⟨row, state, ended, h⟩
  · exact h.composed hs
  · exact h.composed hsound hs

/-! ## Spacing -/

/-- `airing` has ended in this step, its last evidence at `anchor`. -/
structure EndsAiring (s s' : Store) (airing : Execution) (anchor : Time) : Prop where
  mem : airing ∈ s'.executions
  aired : airing.state.hasAired = true
  anchor : airing.endedAt = some anchor
  before : ∀ e ∈ s.executions, e.id = airing.id → e.state.hasAired = false

/-- Every active message of the airing is due no earlier than one interval after the anchor. -/
def Spaced (airing : Execution) (anchor : Time) (s : Store) : Prop :=
  ∀ m ∈ s.messages, m.state = .active →
    m.id ∈ Composition.messageIds airing.compositionSnapshot →
    ∃ interval due, m.replayIntervalSeconds = some interval ∧ m.nextDueAt = some due ∧
      anchor + interval * 1000000 ≤ due

theorem Paced.spaced
    (h : Paced scheduling s s') (hsame : s'.policy.generation = s.policy.generation)
    (hs : Spaced airing anchor s) : Spaced airing anchor s' := by
  intro m' hm' hactive' hin
  have hid : m'.id ∈ activeIds s.messages := by
    rw [← h.active hsame]
    exact mem_activeIds.mpr ⟨m', hm', hactive', rfl⟩
  obtain ⟨m, hm, hactive, heq⟩ := mem_activeIds.mp hid
  obtain ⟨m'', hm'', hcontinues⟩ := h.messages m hm
  have hrow : m'' = m' := eq_of_id_eq h.sound.messages.ids hm'' hm' (hcontinues.id.trans heq)
  subst hrow
  obtain ⟨interval, due, hinterval, hdue, hle⟩ := hs m hm hactive (heq ▸ hin)
  rcases hcontinues.active hactive with hterminal | ⟨-, hinterval', hdue'⟩
  · rw [hactive'] at hterminal
    cases hterminal
  · exact ⟨interval, due, hinterval'.trans hinterval, hdue'.trans hdue, hle⟩

namespace Ended

variable {now : Time} {row : Execution} {state : ExecutionState} {ended : Time}

/-- The cadence of the airing that ends. -/
theorem starts (h : Ended now row state ended s s') (hs : Sound s) : Spaced row ended s' := by
  intro m' hm' hactive hin
  rw [h.messages] at hm'
  obtain ⟨m, hm, rfl⟩ := List.mem_map.mp hm'
  rw [Message.airedAt_state] at hactive
  rw [Message.airedAt_id] at hin
  obtain ⟨interval, hinterval⟩ :=
    Option.isSome_iff_exists.mp (hs.messages.complete m hm hactive).2.1
  rw [Message.airedAt_of hin hactive hinterval]
  exact ⟨interval, _, hinterval, rfl, le_refl _⟩

/-- The end of an airing with no earlier evidence. -/
theorem spaced (h : Ended now row state ended s s')
    (hsound : Sound s) (hlater : anchor ≤ ended) (hs : Spaced airing anchor s) :
    Spaced airing anchor s' := by
  intro m' hm' hactive hin
  rw [h.messages] at hm'
  obtain ⟨m, hm, rfl⟩ := List.mem_map.mp hm'
  rw [Message.airedAt_state] at hactive
  rw [Message.airedAt_id] at hin
  by_cases hid : m.id ∈ Composition.messageIds row.compositionSnapshot
  · obtain ⟨interval, hinterval⟩ :=
      Option.isSome_iff_exists.mp (hsound.messages.complete m hm hactive).2.1
    rw [Message.airedAt_of hid hactive hinterval]
    exact ⟨interval, _, hinterval, rfl, Int.add_le_add_right hlater _⟩
  · rw [Message.airedAt_of_not fun h => hid h.1]
    exact hs m hm hactive hin

theorem endsAiring (h : Ended now row state ended s s') (hs : Sound s) :
    ∃ duration, EndsAiring s s' (airEnded state now ended duration row) ended := by
  obtain ⟨⟨duration, hmem⟩, -, -⟩ := h.rows hs
  refine ⟨duration, hmem, h.aired, rfl, fun e he hid => ?_⟩
  rw [List.inj_on_of_nodup_map hs.executions.ids he h.mem hid, h.started]
  rfl

end Ended

/-- Nothing but air evidence ends an airing. -/
theorem Paced.not_endsAiring (h : Paced scheduling s s') : ¬EndsAiring s s' airing anchor := by
  intro hends
  rcases h.sources airing hends.mem with ⟨e, he, hcontinues⟩ | ⟨-, hdomestic, -, -⟩
  · have hsame := hcontinues.aired hends.aired
    subst hsame
    have hbefore := hends.before airing he rfl
    rw [hends.aired] at hbefore
    cases hbefore
  · have haired := hends.aired
    cases hstate : airing.state <;> simp [ExecutionState.hasAired, ExecutionState.isDomestic,
      ExecutionState.isPrestart, hstate] at *

theorem Operated.step_starts (o : Operated) (hs : Sound s)
    (h : EndsAiring s (o.step s) airing anchor) : Spaced airing anchor (o.step s) := by
  rcases o.step_effect hs with hpaced | ⟨row, state, ended, hended⟩
  · exact absurd h hpaced.not_endsAiring
  · rcases (hended.rows hs).2.2 airing h.mem with ⟨duration, rfl⟩ | ⟨hold, -⟩
    · have hanchor : ended = anchor := Option.some.inj h.anchor
      exact hanchor ▸ hended.starts hs
    · have hbefore := h.before airing hold rfl
      rw [h.aired] at hbefore
      cases hbefore

/-- No airing ends in this step with evidence before the anchor. -/
def EndsNoEarlier (anchor : Time) (o : Operated) (s : Store) : Prop :=
  ∀ airing ended, EndsAiring s (o.step s) airing ended → anchor ≤ ended

theorem Operated.step_spaced (o : Operated) (hs : Sound s) (hlater : EndsNoEarlier anchor o s)
    (hsame : (o.step s).policy.generation = s.policy.generation) (h : Spaced airing anchor s) :
    Spaced airing anchor (o.step s) := by
  rcases o.step_effect hs with hpaced | ⟨row, state, ended, hended⟩
  · exact hpaced.spaced hsame h
  · obtain ⟨duration, hends⟩ := hended.endsAiring hs
    exact hended.spaced hs (hlater _ _ hends) h

end IsadoraAir.ActiveMessages
