import IsadoraAir.ActiveMessages.Executions
import Mathlib.Data.Finset.Basic

/-!
# Sound stores

At most one active message in a slot and at most one unfinished execution, each
active message complete, and everything that still waits built for the current
generation. What the writes of the services keep of it.
-/

namespace IsadoraAir.ActiveMessages

open Transaction

variable {row : Message} {s : Store} {id : Uuid} {m : Message} {f : Message → Message}

/-! ## Messages -/

def Message.SameSlot (m m' : Message) : Prop :=
  m.producerKey = m'.producerKey ∧ m.contentType = m'.contentType

/-- It has its media, its interval and its due time. -/
def Message.IsComplete (m : Message) : Prop :=
  m.messageMedia.isSome = true ∧ m.replayIntervalSeconds.isSome = true ∧ m.nextDueAt.isSome = true

structure MessagesSound (ms : List Message) : Prop where
  ids : (ms.map Message.id).Nodup
  oneActive : ∀ m ∈ ms, ∀ m' ∈ ms, m.state = .active → m'.state = .active → m.SameSlot m' → m = m'
  complete : ∀ m ∈ ms, m.state = .active → m.IsComplete

/-- The ids of the active messages. -/
def activeIds (ms : List Message) : Finset Uuid :=
  ((ms.filter fun m => m.state = .active).map Message.id).toFinset

theorem mem_activeIds {ms : List Message} :
    id ∈ activeIds ms ↔ ∃ m ∈ ms, m.state = .active ∧ m.id = id := by
  simp [activeIds, and_assoc]

theorem eq_of_id_eq {ms : List Message} (h : (ms.map Message.id).Nodup) {m' : Message}
    (hm : m ∈ ms) (hm' : m' ∈ ms) (hid : m.id = m'.id) : m = m' :=
  List.inj_on_of_nodup_map h hm hm' hid

namespace MessagesSound

variable {ms : List Message}

theorem active_iff (h : MessagesSound ms) (hm : m ∈ ms) :
    m.id ∈ activeIds ms ↔ m.state = .active := by
  rw [mem_activeIds]
  constructor
  · rintro ⟨m', hm', hactive, hid⟩
    rw [eq_of_id_eq h.ids hm hm' hid.symm]
    exact hactive
  · intro hactive
    exact ⟨m, hm, hactive, rfl⟩

/-- A new row that is not active. -/
theorem append (h : MessagesSound ms) (hid : row.id ∉ ms.map Message.id)
    (hrow : row.state ≠ .active) : MessagesSound (ms ++ [row]) where
  ids := by
    rw [List.map_append, List.nodup_append]
    simpa using And.intro h.ids (fun m hm heq => hid (List.mem_map.mpr ⟨m, hm, heq⟩))
  oneActive := by
    intro m hm m' hm' ha ha'
    have hold : ∀ {x : Message}, x ∈ ms ++ [row] → x.state = .active → x ∈ ms := by
      intro x hx hactive
      rcases List.mem_append.mp hx with hx | hx
      · exact hx
      · exact absurd (List.mem_singleton.mp hx ▸ hactive) hrow
    exact h.oneActive m (hold hm ha) m' (hold hm' ha') ha ha'
  complete := by
    intro m hm hactive
    rcases List.mem_append.mp hm with hm | hm
    · exact h.complete m hm hactive
    · exact absurd (List.mem_singleton.mp hm ▸ hactive) hrow

theorem activeIds_append (row : Message) (hrow : row.state ≠ .active) :
    activeIds (ms ++ [row]) = activeIds ms := by
  simp [activeIds, hrow]

/-- Rows change, and none becomes active. -/
theorem map (h : MessagesSound ms) (hid : ∀ m, (f m).id = m.id) (hslot : ∀ m, (f m).SameSlot m)
    (hactive : ∀ m ∈ ms, (f m).state = .active → m.state = .active ∧ (f m).IsComplete) :
    MessagesSound (ms.map f) where
  ids := by
    have hsame : Message.id ∘ f = Message.id := funext hid
    rw [List.map_map, hsame]
    exact h.ids
  oneActive := by
    intro x hx x' hx' ha ha' hs
    obtain ⟨m, hm, rfl⟩ := List.mem_map.mp hx
    obtain ⟨m', hm', rfl⟩ := List.mem_map.mp hx'
    have hsame : m.SameSlot m' :=
      ⟨(hslot m).1.symm.trans (hs.1.trans (hslot m').1),
        (hslot m).2.symm.trans (hs.2.trans (hslot m').2)⟩
    rw [h.oneActive m hm m' hm' (hactive m hm ha).1 (hactive m' hm' ha').1 hsame]
  complete := by
    intro x hx ha
    obtain ⟨m, hm, rfl⟩ := List.mem_map.mp hx
    exact (hactive m hm ha).2

theorem activeIds_map_subset (hid : ∀ m, (f m).id = m.id)
    (hactive : ∀ m ∈ ms, (f m).state = .active → m.state = .active) :
    activeIds (ms.map f) ⊆ activeIds ms := by
  intro id hmem
  obtain ⟨x, hx, ha, rfl⟩ := mem_activeIds.mp hmem
  obtain ⟨m, hm, rfl⟩ := List.mem_map.mp hx
  exact mem_activeIds.mpr ⟨m, hm, hactive m hm ha, (hid m).symm⟩

/-- An active row leaves the active set. -/
theorem activeIds_map_ne (h : MessagesSound ms)
    (hid : ∀ m, (f m).id = m.id) (hm : m ∈ ms) (hactive : m.state = .active)
    (hleaves : (f m).state ≠ .active) : activeIds (ms.map f) ≠ activeIds ms := by
  intro heq
  have hmem : m.id ∈ activeIds (ms.map f) := heq ▸ mem_activeIds.mpr ⟨m, hm, hactive, rfl⟩
  obtain ⟨x, hx, ha, hxid⟩ := mem_activeIds.mp hmem
  obtain ⟨m', hm', rfl⟩ := List.mem_map.mp hx
  rw [eq_of_id_eq h.ids hm' hm ((hid m').symm.trans hxid)] at ha
  exact hleaves ha

/-- States stay as they are. -/
theorem activeIds_map_eq (hid : ∀ m, (f m).id = m.id)
    (hstate : ∀ m ∈ ms, (f m).state = .active ↔ m.state = .active) :
    activeIds (ms.map f) = activeIds ms := by
  apply Finset.Subset.antisymm
  · exact activeIds_map_subset hid fun m hm => (hstate m hm).mp
  · intro id hmem
    obtain ⟨m, hm, ha, rfl⟩ := mem_activeIds.mp hmem
    exact mem_activeIds.mpr ⟨f m, List.mem_map_of_mem hm, (hstate m hm).mpr ha, hid m⟩

/-- A row whose slot has no active message becomes active. -/
theorem activate (h : MessagesSound ms)
    (hrow : row ∈ ms) (hrowId : row.id = id) (hfree : ∀ m ∈ ms, m.state = .active → ¬m.SameSlot row)
    (hid : (f row).id = row.id) (hslot : (f row).SameSlot row) (hcomplete : (f row).IsComplete) :
    MessagesSound (ms.map fun m => if m.id = id then f m else m) := by
  have hat : ∀ m ∈ ms, m.id = id → m = row := fun m hm hmid =>
    eq_of_id_eq h.ids hm hrow (hmid.trans hrowId.symm)
  have hback : ∀ x ∈ ms.map (fun m => if m.id = id then f m else m),
      x = f row ∨ x ∈ ms := by
    intro x hx
    obtain ⟨m, hm, rfl⟩ := List.mem_map.mp hx
    by_cases hmid : m.id = id
    · left
      rw [if_pos hmid, hat m hm hmid]
    · right
      rw [if_neg hmid]
      exact hm
  constructor
  · rw [List.map_map]
    have hsame : ∀ m ∈ ms, (Message.id ∘ fun m => if m.id = id then f m else m) m = m.id := by
      intro m hm
      by_cases hmid : m.id = id
      · rw [Function.comp_apply, if_pos hmid, hat m hm hmid, hid]
      · rw [Function.comp_apply, if_neg hmid]
    rw [List.map_congr_left hsame]
    exact h.ids
  · intro x hx x' hx' ha ha' hs
    rcases hback x hx with rfl | hm <;> rcases hback x' hx' with rfl | hm'
    · rfl
    · exact absurd ⟨hs.1.symm.trans hslot.1, hs.2.symm.trans hslot.2⟩ (hfree x' hm' ha')
    · exact absurd ⟨hs.1.trans hslot.1, hs.2.trans hslot.2⟩ (hfree x hm ha)
    · exact h.oneActive x hm x' hm' ha ha' hs
  · intro x hx ha
    rcases hback x hx with rfl | hm
    · exact hcomplete
    · exact h.complete x hm ha

end MessagesSound

/-! ## Executions -/

structure ExecutionsSound (generation : ℕ) (es : List Execution) : Prop where
  ids : (es.map Execution.id).Nodup
  oneUnfinished : ∀ e ∈ es, ∀ e' ∈ es, e.state.isUnfinished = true → e'.state.isUnfinished = true →
    e = e'
  current : ∀ e ∈ es, e.state.isPrestart = true → e.policyGeneration = generation

namespace ExecutionsSound

variable {generation : ℕ} {es : List Execution}

theorem map (h : ExecutionsSound generation es) {f : Execution → Execution} {generation' : ℕ}
    (hid : ∀ e, (f e).id = e.id)
    (hunfinished : ∀ e ∈ es, (f e).state.isUnfinished = true → e.state.isUnfinished = true)
    (hcurrent : ∀ e ∈ es, (f e).state.isPrestart = true → (f e).policyGeneration = generation') :
    ExecutionsSound generation' (es.map f) where
  ids := by
    have hsame : Execution.id ∘ f = Execution.id := funext hid
    rw [List.map_map, hsame]
    exact h.ids
  oneUnfinished := by
    intro x hx x' hx' hu hu'
    obtain ⟨e, he, rfl⟩ := List.mem_map.mp hx
    obtain ⟨e', he', rfl⟩ := List.mem_map.mp hx'
    rw [h.oneUnfinished e he e' he' (hunfinished e he hu) (hunfinished e' he' hu')]
  current := by
    intro x hx hp
    obtain ⟨e, he, rfl⟩ := List.mem_map.mp hx
    exact hcurrent e he hp

/-- Whatever is stale for the new generation is suppressed. -/
theorem suppress (h : ExecutionsSound generation es) (policy : Policy) (now : Time) :
    ExecutionsSound policy.generation
      (es.map fun e => if e.isStale policy then suppressed policy now e else e) := by
  apply h.map
  · intro e
    split <;> rfl
  · intro e _ hu
    split at hu
    · cases hu
    · exact hu
  · intro e _ hp
    by_cases hstale : e.isStale policy = true
    · rw [if_pos hstale] at hp
      cases hp
    · rw [if_neg hstale] at hp ⊢
      simp only [Execution.isStale, decide_eq_true_eq, not_and, not_not] at hstale
      exact hstale hp

/-- A new execution, when none is unfinished. -/
theorem append (h : ExecutionsSound generation es) {row : Execution}
    (hid : row.id ∉ es.map Execution.id) (hnone : ∀ e ∈ es, e.state.isUnfinished = false)
    (hgeneration : row.policyGeneration = generation) : ExecutionsSound generation (es ++ [row]) where
  ids := by
    rw [List.map_append, List.nodup_append]
    simpa using And.intro h.ids (fun e he heq => hid (List.mem_map.mpr ⟨e, he, heq⟩))
  oneUnfinished := by
    have honly : ∀ x ∈ es ++ [row], x.state.isUnfinished = true → x = row := by
      intro x hx hu
      rcases List.mem_append.mp hx with hx | hx
      · rw [hnone x hx] at hu
        cases hu
      · exact List.mem_singleton.mp hx
    intro e he e' he' hu hu'
    rw [honly e he hu, honly e' he' hu']
  current := by
    intro e he hp
    rcases List.mem_append.mp he with he | he
    · exact h.current e he hp
    · rw [List.mem_singleton.mp he]
      exact hgeneration

end ExecutionsSound

structure Sound (s : Store) : Prop where
  messages : MessagesSound s.messages
  executions : ExecutionsSound s.policy.generation s.executions

/-- With nothing stale, nothing is suppressed. -/
theorem Sound.map_suppressed (h : Sound s) (now : Time) :
    (s.executions.map fun e => if e.isStale s.policy then suppressed s.policy now e else e) =
      s.executions := by
  have hid : ∀ e ∈ s.executions,
      (if e.isStale s.policy then suppressed s.policy now e else e) = id e := by
    intro e he
    have hfresh : e.isStale s.policy = false := by
      simp only [Execution.isStale, decide_eq_false_iff_not, not_and, not_not]
      exact h.executions.current e he
    simp [hfresh]
  rw [List.map_congr_left hid, List.map_id]

/-! ## What one call may change -/

structure Changes (now : Time) (s s' : Store) : Prop where
  generation : s'.policy.generation =
    s.policy.generation + if activeIds s'.messages = activeIds s.messages then 0 else 1
  final : ∀ m ∈ s.messages, m.state.isTerminal = true → m ∈ s'.messages
  frozen : ∀ e ∈ s.executions, ∃ e' ∈ s'.executions, e'.id = e.id ∧
    e'.compositionSnapshot = e.compositionSnapshot
  created : ∀ e ∈ s'.executions, e.id ∉ s.executions.map Execution.id →
    (∀ id, id ∈ Composition.messageIds e.compositionSnapshot ↔ id ∈ activeIds s'.messages) ∧
    ∀ m ∈ s'.messages, m.state = .active → ∀ t ∈ m.expiresAt, now < t
  history : s.events <+: s'.events

theorem Changes.refl (now : Time) (s : Store) : Changes now s s where
  generation := by rw [if_pos rfl, Nat.add_zero]
  final := fun _ hm _ => hm
  frozen := fun e he => ⟨e, he, rfl, rfl⟩
  created := fun _ he hnew => absurd (List.mem_map_of_mem he) hnew
  history := List.prefix_rfl

/-- A change that makes no execution, then one that leaves policy and messages alone. -/
theorem Changes.then {now : Time} {t u : Store} (h : Changes now s t)
    (hids : ∀ e ∈ t.executions, e.id ∈ s.executions.map Execution.id) (h' : Changes now t u)
    (hpolicy : u.policy = t.policy) (hmessages : u.messages = t.messages) : Changes now s u where
  generation := by rw [hpolicy, hmessages, h.generation]
  final := fun m hm hterminal => hmessages ▸ h.final m hm hterminal
  frozen := by
    intro e he
    obtain ⟨e', he', hid, hsnapshot⟩ := h.frozen e he
    obtain ⟨e'', he'', hid', hsnapshot'⟩ := h'.frozen e' he'
    exact ⟨e'', he'', hid'.trans hid, hsnapshot'.trans hsnapshot⟩
  created := by
    intro e he hnew
    refine h'.created e he fun hold => ?_
    obtain ⟨e', he', hid⟩ := List.mem_map.mp hold
    exact hnew (hid ▸ hids e' he')
  history := h.history.trans h'.history

/-- A sound store again, changed as a call may change it. -/
structure Lawful (now : Time) (s s' : Store) : Prop where
  sound : Sound s'
  changes : Changes now s s'

end IsadoraAir.ActiveMessages
