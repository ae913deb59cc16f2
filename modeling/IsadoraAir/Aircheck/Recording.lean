import IsadoraAir.Aircheck.Recorder

/-!
# What a recording is made of

While a session is recorded its audio lies in committed segments, in at most one
handoff and in the file that the recording process has open. Where the handoff
stands is the phase of the recording. Every phase but the cut itself is left
alone by the recording process.
-/

namespace IsadoraAir.Aircheck.Recorder

open Relation

variable {key : Key} {c i : ℕ}

namespace RecorderState

/-- The names, numbers and samples fit together, whatever is recorded. -/
structure Tidy (d : RecorderState) : Prop where
  open_lt : d.openInode < d.nextInode
  live : d.content d.openInode = List.Ico (d.birth d.openInode) d.heard
  birth_le : d.birth d.openInode ≤ d.heard
  working_eq : ∀ i, d.working = some i → i = d.openInode
  handoff_lt : ∀ key i, d.handoffs.lookup key = some i → i < d.nextInode
  handoff_open : ∀ key, d.handoffs.lookup key = some d.openInode → d.working = none
  handoff_session : ∀ key ∈ d.handoffs, key.session < d.nextSession
  segment_session : ∀ key ∈ d.segments, key.session < d.nextSession
  named_session : ∀ key b, (key, b) ∈ d.named → key.session < d.nextSession
  session_lt : ∀ s ∈ d.sessions, s.id < d.nextSession
  moved_lt : ∀ id, d.isMoved id → id < d.nextSession
  functional : ∀ key b b', (key, b) ∈ d.named → (key, b') ∈ d.named → b = b'
  pending_lt : ∀ c ∈ d.pending, c < d.nextCommand
  handled_lt : ∀ c p, d.handled c = some p → c < d.nextCommand

end RecorderState

/-- Where the last piece of a recording is: in the working file; in the working file after
a committed handoff that is still there; in a closed handoff; in the handoff that is
still written to. -/
inductive Phase where
  | whole
  | duplicate
  | closed
  | live
  deriving DecidableEq

/-- The sequences of the handoffs after `n` committed segments. -/
def Phase.pending (n : ℕ) : Phase → List ℕ
  | whole => []
  | duplicate => [n]
  | closed => [n + 1]
  | live => [n + 1]

/-- `b` is the first sample that is not in a committed segment. -/
def Phase.At (d : RecorderState) (id n b : ℕ) : Phase → Prop
  | whole => d.working = some d.openInode ∧ d.birth d.openInode = b
  | duplicate => d.working = some d.openInode ∧ d.birth d.openInode = b ∧
    ∃ i, d.handoffs.lookup ⟨id, n⟩ = some i ∧ i ≠ d.openInode ∧
      d.segments.lookup ⟨id, n⟩ = some (d.content i)
  | closed => d.working = some d.openInode ∧ b ≤ d.birth d.openInode ∧
    ∃ i, d.handoffs.lookup ⟨id, n + 1⟩ = some i ∧ i ≠ d.openInode ∧
      d.content i = List.Ico b (d.birth d.openInode)
  | live => d.working = none ∧ d.birth d.openInode = b ∧
    ∀ key, d.handoffs.lookup key = some d.openInode ↔ key = ⟨id, n + 1⟩

/-- The session `id` is recorded since sample `since`, with `n` committed segments. -/
structure Recording (d : RecorderState) (id since n b : ℕ) (p : Phase) : Prop where
  tidy : d.Tidy
  running : ∃ s ∈ d.sessions, s.stillRunning
  only : ∀ s ∈ d.sessions, s.stillRunning → s.id = id ∧ s.since = since
  not_moved : d.isMoved id = false
  segments : ∀ q, ⟨id, q⟩ ∈ d.segments ↔ 1 ≤ q ∧ q ≤ n
  handoffs : ∀ q, ⟨id, q⟩ ∈ d.handoffs ↔ q ∈ p.pending n
  committed : (List.Ico 1 (n + 1)).flatMap (fun q => (d.segments.lookup ⟨id, q⟩).getD []) =
    List.Ico since b
  since_le : since ≤ b
  named : ∀ q c, (⟨id, q⟩, c) ∈ d.named → q ≤ n ∨ q = n + 1 ∧ c = b
  phase : p.At d id n b

namespace RecorderState

/-- A running session whose file Stop has not moved. -/
def isRecorded (d : RecorderState) : Bool :=
  d.sessions.any fun s => s.stillRunning && !d.isMoved s.id

/-- The reopen that a Start has sent is handled. -/
def isCued (d : RecorderState) : Bool := d.starting.any fun c => (d.handled c).isSome

/-- Nothing of a recording is in a file at the working path. -/
def Admits (d : RecorderState) : Prop :=
  d.isRecorded = true ∨ d.isCued = true → d.audioOf d.working = []

instance (d : RecorderState) : Decidable d.Admits :=
  inferInstanceAs (Decidable (_ → _))

/-- What the recording process does, a reopen only where it is in time. -/
inductive Others : RecorderState → RecorderState → Prop
  | sample (d : RecorderState) : Others d d.sample
  | handle (d : RecorderState) (c : ℕ) (h : c ∈ d.pending → d.Admits) : Others d (d.handle c)

variable {d d' : RecorderState}

theorem sample_content_of_ne (h : i ≠ d.openInode) : d.sample.content i = d.content i :=
  Function.update_of_ne h ..

theorem switch_content_of_lt (h : i < d.nextInode) : d.switch.content i = d.content i :=
  Function.update_of_ne h.ne ..

theorem Tidy.sample (h : d.Tidy) : d.sample.Tidy :=
  { h with
    live := by
      show Function.update d.content d.openInode _ d.openInode = List.Ico _ (d.heard + 1)
      rw [Function.update_self]
      exact (congrArg (· ++ [d.heard]) h.live).trans (List.Ico.succ_top h.birth_le).symm
    birth_le := Nat.le_succ_of_le h.birth_le }

theorem switch_birth_self : d.switch.birth d.nextInode = d.heard := Function.update_self ..

theorem Tidy.switch (h : d.Tidy) : d.switch.Tidy :=
  { h with
    open_lt := Nat.lt_succ_self _
    live := by
      show Function.update d.content d.nextInode [] d.nextInode =
        List.Ico (d.switch.birth d.nextInode) d.heard
      rw [Function.update_self, switch_birth_self, List.Ico.self_empty]
    birth_le := by
      show d.switch.birth d.nextInode ≤ d.heard
      rw [switch_birth_self]
    working_eq := fun i hi => (Option.some.inj hi).symm
    handoff_lt := fun key i hi => Nat.lt_succ_of_lt (h.handoff_lt key i hi)
    handoff_open := fun key hkey => absurd (h.handoff_lt key _ hkey) (Nat.lt_irrefl _) }

theorem Tidy.handle (h : d.Tidy) (c : ℕ) : (d.handle c).Tidy := by
  unfold RecorderState.handle
  split_ifs with hc
  · exact { h.switch with
      pending_lt := fun c' hc' => h.pending_lt c' (List.mem_of_mem_erase hc')
      handled_lt := by
        intro c' p hp
        by_cases heq : c' = c
        · rw [heq]
          exact h.pending_lt c hc
        · exact h.handled_lt c' p ((Function.update_of_ne heq ..).symm.trans hp) }
  · exact h

theorem handle_sessions (c : ℕ) : (d.handle c).sessions = d.sessions := by
  unfold RecorderState.handle
  split_ifs <;> rfl

theorem handle_moved (c : ℕ) : (d.handle c).moved = d.moved := by
  unfold RecorderState.handle
  split_ifs <;> rfl

theorem handle_handled_self (h : c ∈ d.pending) : (d.handle c).handled c = some d.heard := by
  unfold RecorderState.handle
  rw [if_pos h]
  exact Function.update_self ..

theorem handle_handled_of_ne {c' : ℕ} (h : c ≠ c') : (d.handle c').handled c = d.handled c := by
  unfold RecorderState.handle
  split_ifs
  · exact Function.update_of_ne h ..
  · rfl

theorem others_sessions (h : Others d d') : d'.sessions = d.sessions := by
  cases h with
  | sample => rfl
  | handle c hc => exact handle_sessions c

theorem others_handoffs (h : Others d d') : d'.handoffs = d.handoffs := by
  cases h with
  | sample => rfl
  | handle c hc =>
    unfold RecorderState.handle
    split_ifs <;> rfl

theorem others_partials (h : Others d d') : d'.partials = d.partials := by
  cases h with
  | sample => rfl
  | handle c hc =>
    unfold RecorderState.handle
    split_ifs <;> rfl

theorem others_content (h : Others d d') (hne : i ≠ d.openInode) (hlt : i < d.nextInode) :
    d'.content i = d.content i := by
  cases h with
  | sample => exact sample_content_of_ne hne
  | handle c hc =>
    unfold RecorderState.handle
    split_ifs
    · exact switch_content_of_lt hlt
    · rfl

theorem Tidy.reopen (h : d.Tidy) (forStart : Bool) : (d.reopen forStart).Tidy :=
  { h with
    pending_lt := by
      intro c hc
      rcases List.mem_cons.mp hc with rfl | hc
      · exact Nat.lt_succ_self _
      · exact Nat.lt_succ_of_lt (h.pending_lt c hc)
    handled_lt := fun c p hp => Nat.lt_succ_of_lt (h.handled_lt c p hp) }

theorem Tidy.others (h : d.Tidy) (hstep : Others d d') : d'.Tidy := by
  cases hstep with
  | sample => exact h.sample
  | handle c hc => exact h.handle c

end RecorderState

section Recording

open RecorderState

variable {d d' : RecorderState} {id since n b : ℕ} {p : Phase}

theorem Recording.isRecorded (h : Recording d id since n b p) : d.isRecorded = true := by
  obtain ⟨s, hs, hrunning⟩ := h.running
  refine List.any_eq_true.mpr ⟨s, hs, ?_⟩
  rw [hrunning, (h.only s hs hrunning).1, h.not_moved]
  rfl

theorem Recording.sample (h : Recording d id since n b p) : Recording d.sample id since n b p :=
  { h with
    tidy := h.tidy.sample
    phase := by
      have hphase := h.phase
      cases p with
      | whole => exact hphase
      | duplicate =>
        obtain ⟨hworking, hbirth, i, hi, hne, hsegment⟩ := hphase
        exact ⟨hworking, hbirth, i, hi, hne, by rw [sample_content_of_ne hne]; exact hsegment⟩
      | closed =>
        obtain ⟨hworking, hle, i, hi, hne, hcontent⟩ := hphase
        exact ⟨hworking, hle, i, hi, hne, by rw [sample_content_of_ne hne]; exact hcontent⟩
      | live => exact hphase }

/-- The boundary of a cut: the recording process lets go of the handoff. -/
theorem Recording.switch_of_live (h : Recording d id since n b .live) :
    Recording d.switch id since n b .closed := by
  obtain ⟨-, hbirth, hkeys⟩ := h.phase
  have hlt := h.tidy.open_lt
  refine { h with tidy := h.tidy.switch, phase := ⟨rfl, ?_, d.openInode, ?_, hlt.ne, ?_⟩ }
  · show b ≤ d.switch.birth d.nextInode
    rw [switch_birth_self, ← hbirth]
    exact h.tidy.birth_le
  · exact (hkeys _).mpr rfl
  · show d.switch.content d.openInode = List.Ico b (d.switch.birth d.nextInode)
    rw [switch_content_of_lt hlt, switch_birth_self, h.tidy.live, hbirth]

/-- A new file in the place of an empty one. -/
theorem Recording.switch_of_empty (h : Recording d id since n b p)
    (hworking : d.working = some d.openInode) (hempty : d.content d.openInode = []) :
    Recording d.switch id since n b p := by
  have hbirth : d.switch.birth d.nextInode = d.birth d.openInode := by
    rw [switch_birth_self]
    rw [h.tidy.live, List.Ico.eq_empty_iff] at hempty
    exact le_antisymm hempty h.tidy.birth_le
  refine { h with tidy := h.tidy.switch, phase := ?_ }
  have hphase := h.phase
  cases p with
  | whole => exact ⟨rfl, hbirth.trans hphase.2⟩
  | duplicate =>
    obtain ⟨-, hb, i, hi, hne, hsegment⟩ := hphase
    have hlt := h.tidy.handoff_lt _ i hi
    refine ⟨rfl, hbirth.trans hb, i, hi, hlt.ne, ?_⟩
    rw [switch_content_of_lt hlt]
    exact hsegment
  | closed =>
    obtain ⟨-, hle, i, hi, hne, hcontent⟩ := hphase
    have hlt := h.tidy.handoff_lt _ i hi
    refine ⟨rfl, hle.trans hbirth.ge, i, hi, hlt.ne, ?_⟩
    show d.switch.content i = List.Ico b (d.switch.birth d.nextInode)
    rw [switch_content_of_lt hlt, hbirth]
    exact hcontent
  | live => cases hworking.symm.trans hphase.1

/-- What the recording process may turn a phase into. -/
def Phase.Becomes (p p' : Phase) : Prop := p' = p ∨ p = .live ∧ p' = .closed

theorem Recording.switch (h : Recording d id since n b p) (hadmits : d.Admits) :
    ∃ p', p.Becomes p' ∧ Recording d.switch id since n b p' := by
  by_cases hlive : p = .live
  · subst hlive
    exact ⟨.closed, .inr ⟨rfl, rfl⟩, h.switch_of_live⟩
  · have hworking : d.working = some d.openInode := by
      have hphase := h.phase
      cases p with
      | whole => exact hphase.1
      | duplicate => exact hphase.1
      | closed => exact hphase.1
      | live => exact absurd rfl hlive
    have hempty := hadmits (.inl h.isRecorded)
    rw [hworking] at hempty
    exact ⟨p, .inl rfl, h.switch_of_empty hworking hempty⟩

theorem Recording.handle_of_switch (hmem : c ∈ d.pending) (htidy : d.Tidy)
    (h : Recording d.switch id since n b p) : Recording (d.handle c) id since n b p := by
  have htidy := htidy.handle c
  unfold RecorderState.handle at htidy ⊢
  rw [if_pos hmem] at htidy ⊢
  exact { h with tidy := htidy, phase := by cases p <;> exact h.phase }

theorem Recording.handle (h : Recording d id since n b p) (c : ℕ) (hc : c ∈ d.pending → d.Admits) :
    ∃ p', p.Becomes p' ∧ Recording (d.handle c) id since n b p' := by
  by_cases hmem : c ∈ d.pending
  · obtain ⟨p', hp, hswitch⟩ := h.switch (hc hmem)
    exact ⟨p', hp, hswitch.handle_of_switch hmem h.tidy⟩
  · unfold RecorderState.handle
    rw [if_neg hmem]
    exact ⟨p, .inl rfl, h⟩

theorem Recording.others (h : Recording d id since n b p) (hstep : Others d d') :
    ∃ p', p.Becomes p' ∧ Recording d' id since n b p' := by
  cases hstep with
  | sample => exact ⟨p, .inl rfl, h.sample⟩
  | handle c hc => exact h.handle c hc

theorem Recording.segmentExists (h : Recording d id since n b p) (q : ℕ) :
    (d.segments.lookup ⟨id, q⟩).isSome = decide (1 ≤ q ∧ q ≤ n) := by
  rw [Bool.eq_iff_iff, AList.lookup_isSome, decide_eq_true_eq]
  exact h.segments q

/-! ## The actions of the service -/

theorem mem_iff_lookup {β : Type} {entries : AList fun _ : Key => β} :
    key ∈ entries ↔ ∃ x, entries.lookup key = some x := by
  rw [← AList.lookup_isSome, Option.isSome_iff_exists]

theorem mem_of_lookup {β : Type} {entries : AList fun _ : Key => β} {x : β}
    (h : entries.lookup key = some x) : key ∈ entries :=
  mem_iff_lookup.mpr ⟨x, h⟩

theorem lookup_erase_eq_some {β : Type} {entries : AList fun _ : Key => β} {erased : Key}
    {x : β} : (entries.erase erased).lookup key = some x ↔
      key ≠ erased ∧ entries.lookup key = some x := by
  by_cases h : key = erased
  · subst h
    simp
  · simp [AList.lookup_erase_ne h, h]

theorem RecorderState.Tidy.erase (h : d.Tidy) (key : Key) : (d.unlinkHandoff key).Tidy :=
  { h with
    handoff_lt := fun k i hi => h.handoff_lt k i (lookup_erase_eq_some.mp hi).2
    handoff_open := fun k hk => h.handoff_open k (lookup_erase_eq_some.mp hk).2
    handoff_session := fun k hk => h.handoff_session k (AList.mem_erase.mp hk).2 }

theorem Recording.one_le_of_duplicate (h : Recording d id since n b .duplicate) : 1 ≤ n := by
  obtain ⟨-, -, i, -, -, hsegment⟩ := h.phase
  exact ((h.segments n).mp (mem_of_lookup hsegment)).1

/-- A handoff whose segment is committed is not needed any more. -/
theorem Recording.unlink (h : Recording d id since n b .duplicate) :
    Recording (d.unlinkHandoff ⟨id, n⟩) id since n b .whole :=
  { h with
    tidy := h.tidy.erase _
    handoffs := by
      intro q
      have hq := h.handoffs q
      simp only [Phase.pending, List.mem_singleton] at hq
      simp [unlinkHandoff, Phase.pending, AList.mem_erase, hq]
    phase := ⟨h.phase.1, h.phase.2.1⟩ }

theorem Recording.copyToPartial (h : Recording d id since n b p) (key : Key) (i : ℕ) :
    Recording (d.copyToPartial key i) id since n b p :=
  { h with
    tidy := { h.tidy with }
    phase := by cases p <;> exact h.phase }

/-- The closed handoff becomes the next segment. -/
theorem Recording.publish {audio : List ℕ} (h : Recording d id since n b .closed)
    (haudio : ∀ i, d.handoffs.lookup ⟨id, n + 1⟩ = some i → audio = d.content i) :
    Recording (d.publish ⟨id, n + 1⟩ audio) id since (n + 1) (d.birth d.openInode) .duplicate := by
  obtain ⟨hworking, hle, i, hi, hne, hcontent⟩ := h.phase
  have hold : ∀ q ∈ List.Ico 1 (n + 1),
      (d.segments.insert ⟨id, n + 1⟩ audio).lookup ⟨id, q⟩ = d.segments.lookup ⟨id, q⟩ := by
    intro q hq
    apply AList.lookup_insert_ne
    intro heq
    cases heq
    exact absurd (List.Ico.mem.mp hq).2 (Nat.lt_irrefl _)
  refine { h with
    tidy := { h.tidy with segment_session := ?_ }, segments := ?_, handoffs := h.handoffs,
    committed := ?_, since_le := h.since_le.trans hle, named := ?_,
    phase := ⟨hworking, rfl, i, hi, hne, ?_⟩ }
  · intro key hkey
    rcases AList.mem_insert _ |>.mp hkey with rfl | hkey
    · exact h.tidy.handoff_session _ (mem_of_lookup hi)
    · exact h.tidy.segment_session key hkey
  · intro q
    show _ ∈ d.segments.insert _ _ ↔ _
    rw [AList.mem_insert, h.segments q, Key.mk.injEq]
    omega
  · show (List.Ico 1 (n + 1 + 1)).flatMap
      (fun q => ((d.segments.insert ⟨id, n + 1⟩ audio).lookup ⟨id, q⟩).getD []) = _
    rw [List.Ico.succ_top (Nat.le_add_left 1 n), List.flatMap_append, List.flatMap_singleton,
      AList.lookup_insert, List.flatMap_congr fun q hq => by rw [hold q hq], h.committed,
      Option.getD_some, haudio i hi, hcontent]
    exact List.Ico.append_consecutive h.since_le hle
  · intro q c hq
    rcases h.named q c hq with hle | ⟨rfl, -⟩
    · exact .inl (Nat.le_succ_of_le hle)
    · exact .inl le_rfl
  · show (d.segments.insert _ _).lookup _ = _
    rw [AList.lookup_insert, haudio i hi]
    rfl

/-- The handoff that is still written to gets its old name back. -/
theorem Recording.restore (h : Recording d id since n b .live) :
    Recording (d.restore ⟨id, n + 1⟩ d.openInode) id since n b .whole := by
  obtain ⟨hworking, hbirth, hkeys⟩ := h.phase
  have herased := h.tidy.erase ⟨id, n + 1⟩
  refine { h with
    tidy := { herased with working_eq := ?_, handoff_open := ?_ }, handoffs := ?_,
    phase := ⟨rfl, hbirth⟩ }
  · intro i hi
    exact (Option.some.inj hi).symm
  · intro key hkey
    obtain ⟨hne, hkey⟩ := lookup_erase_eq_some.mp hkey
    exact absurd ((hkeys key).mp hkey) hne
  · intro q
    have hq := h.handoffs q
    simp only [Phase.pending, List.mem_singleton] at hq
    simp [RecorderState.restore, Phase.pending, AList.mem_erase, hq]

/-- The working file becomes the next handoff, which names the piece that begins at `b`. -/
theorem Recording.isolate (h : Recording d id since n b .whole) :
    Recording (d.isolate ⟨id, n + 1⟩ d.openInode) id since n b .live := by
  obtain ⟨hworking, hbirth⟩ := h.phase
  have hsession : id < d.nextSession := by
    obtain ⟨s, hs, hrunning⟩ := h.running
    rw [← (h.only s hs hrunning).1]
    exact h.tidy.session_lt s hs
  have hnone : ∀ key, d.handoffs.lookup key ≠ some d.openInode := by
    intro key hkey
    cases hworking.symm.trans (h.tidy.handoff_open key hkey)
  have hlookup : ∀ key i, (d.handoffs.insert ⟨id, n + 1⟩ d.openInode).lookup key = some i →
      key = ⟨id, n + 1⟩ ∧ i = d.openInode ∨ key ≠ ⟨id, n + 1⟩ ∧ d.handoffs.lookup key = some i := by
    intro key i hi
    by_cases heq : key = ⟨id, n + 1⟩
    · subst heq
      rw [AList.lookup_insert] at hi
      exact .inl ⟨rfl, (Option.some.inj hi).symm⟩
    · rw [AList.lookup_insert_ne heq] at hi
      exact .inr ⟨heq, hi⟩
  refine { h with
    tidy := { h.tidy with
      working_eq := nofun, handoff_lt := ?_, handoff_open := fun _ _ => rfl, handoff_session := ?_,
      named_session := ?_, functional := ?_ },
    handoffs := ?_, named := ?_, phase := ⟨rfl, hbirth, ?_⟩ }
  · intro key i hi
    rcases hlookup key i hi with ⟨-, rfl⟩ | ⟨-, hi⟩
    · exact h.tidy.open_lt
    · exact h.tidy.handoff_lt key i hi
  · intro key hkey
    rcases AList.mem_insert _ |>.mp hkey with rfl | hkey
    · exact hsession
    · exact h.tidy.handoff_session key hkey
  · intro key c hc
    rcases List.mem_cons.mp hc with heq | hc
    · cases heq
      exact hsession
    · exact h.tidy.named_session key c hc
  · intro key c c' hc hc'
    have hnew : ∀ c, (⟨id, n + 1⟩, c) ∈ d.named → c = d.birth d.openInode := by
      intro c hc
      rcases h.named _ c hc with hle | ⟨-, rfl⟩
      · exact absurd hle (Nat.not_succ_le_self n)
      · exact hbirth.symm
    rcases List.mem_cons.mp hc with heq | hc <;> rcases List.mem_cons.mp hc' with heq' | hc'
    · cases heq
      cases heq'
      rfl
    · cases heq
      exact (hnew c' hc').symm
    · cases heq'
      exact hnew c hc
    · exact h.tidy.functional key c c' hc hc'
  · intro q
    have hq := h.handoffs q
    simp only [Phase.pending, List.not_mem_nil, iff_false] at hq
    simp [RecorderState.isolate, Phase.pending, AList.mem_insert, hq]
  · intro q c hc
    rcases List.mem_cons.mp hc with heq | hc
    · cases heq
      exact .inr ⟨rfl, hbirth⟩
    · exact h.named q c hc
  · intro key
    constructor
    · intro hkey
      rcases hlookup key _ hkey with ⟨heq, -⟩ | ⟨-, hkey⟩
      · exact heq
      · exact absurd hkey (hnone key)
    · rintro rfl
      exact AList.lookup_insert _

theorem Recording.reopen (h : Recording d id since n b p) (forStart : Bool) :
    Recording (d.reopen forStart) id since n b p :=
  { h with
    tidy := h.tidy.reopen forStart
    phase := by cases p <;> exact h.phase }

end Recording

/-! ## The audio of a recording -/

section Audio

open RecorderState

variable {d : RecorderState} {id since n b : ℕ} {p : Phase}

/-- Sorting a set of numbers gives its increasing list. -/
theorem insertionSort_eq_of_mem {xs ys : List ℕ} (hxs : xs.Nodup) (hys : ys.Pairwise (· < ·))
    (h : ∀ q, q ∈ xs ↔ q ∈ ys) : xs.insertionSort (· ≤ ·) = ys := by
  have hperm : List.Perm (xs.insertionSort (· ≤ ·)) ys :=
    (List.perm_insertionSort _ xs).trans ((List.perm_ext_iff_of_nodup hxs hys.nodup).mpr h)
  exact hperm.eq_of_pairwise' (List.pairwise_insertionSort _ xs) (hys.imp Nat.le_of_lt)

theorem nodup_sequences {β : Type} (entries : AList fun _ : Key => β) (session : ℕ) :
    ((entries.keys.filter fun key => key.session = session).map Key.sequence).Nodup := by
  apply List.Nodup.map_on _ (entries.keys_nodup.filter _)
  intro x hx y hy hsequence
  have hsession : x.session = session := by simpa using List.of_mem_filter hx
  have hsession' : y.session = session := by simpa using List.of_mem_filter hy
  cases x
  cases y
  rw [Key.mk.injEq]
  exact ⟨hsession.trans hsession'.symm, hsequence⟩

theorem sequences_eq {β : Type} {entries : AList fun _ : Key => β} {session : ℕ} {ys : List ℕ}
    (hys : ys.Pairwise (· < ·)) (h : ∀ q, ⟨session, q⟩ ∈ entries ↔ q ∈ ys) :
    sequences entries session = ys := by
  apply insertionSort_eq_of_mem (nodup_sequences entries session) hys
  intro q
  rw [← h q, List.mem_map]
  constructor
  · rintro ⟨⟨_, q⟩, hkey, rfl⟩
    obtain ⟨hkey, hsession⟩ := List.mem_filter.mp hkey
    rw [← of_decide_eq_true hsession]
    exact hkey
  · intro hkey
    exact ⟨⟨session, q⟩, List.mem_filter.mpr ⟨hkey, decide_eq_true rfl⟩, rfl⟩

theorem Phase.pairwise_pending (n : ℕ) (p : Phase) : (p.pending n).Pairwise (· < ·) := by
  cases p with
  | whole => exact .nil
  | duplicate => exact List.pairwise_singleton ..
  | closed => exact List.pairwise_singleton ..
  | live => exact List.pairwise_singleton ..

theorem Recording.pendingHandoffs_eq (h : Recording d id since n b p) :
    d.pendingHandoffs id = p.pending n :=
  sequences_eq (Phase.pairwise_pending n p) h.handoffs

theorem Recording.discoverSegments_eq (h : Recording d id since n b p) :
    d.discoverSegments id = List.Ico 1 (n + 1) :=
  sequences_eq (List.Ico.pairwise_lt ..) fun q => by rw [h.segments q, List.Ico.mem, Nat.lt_succ_iff]

/-- The handoff that is not committed yet, if there is one. -/
def Phase.uncommitted (n : ℕ) : Phase → List ℕ
  | whole => []
  | duplicate => []
  | closed => [n + 1]
  | live => [n + 1]

theorem Recording.pieces_eq (h : Recording d id since n b p) :
    d.pieces id = List.Ico 1 (n + 1) ++ p.uncommitted n := by
  have hfilter : ((p.pending n).filter fun q => q ∉ List.Ico 1 (n + 1)) = p.uncommitted n := by
    cases p with
    | whole => rfl
    | duplicate =>
      have hn := h.one_le_of_duplicate
      simp [Phase.pending, Phase.uncommitted, List.Ico.mem, hn]
    | closed => simp [Phase.pending, Phase.uncommitted, List.Ico.mem]
    | live => simp [Phase.pending, Phase.uncommitted, List.Ico.mem]
  have hsorted : (List.Ico 1 (n + 1) ++ p.uncommitted n).Pairwise (· < ·) := by
    refine List.pairwise_append.mpr ⟨List.Ico.pairwise_lt .., ?_, ?_⟩
    · rw [← hfilter]
      exact (Phase.pairwise_pending n p).filter _
    · intro q hq q' hq'
      have hlt := (List.Ico.mem.mp hq).2
      cases p with
      | whole => cases hq'
      | duplicate => cases hq'
      | closed => rwa [List.mem_singleton.mp hq']
      | live => rwa [List.mem_singleton.mp hq']
  unfold RecorderState.pieces
  rw [h.discoverSegments_eq, h.pendingHandoffs_eq, hfilter]
  exact (hsorted.imp Nat.le_of_lt).insertionSort_eq

/-- The audio of a recording is everything since it began. -/
theorem Recording.audio_eq (h : Recording d id since n b p) :
    d.audio id = List.Ico since d.heard := by
  have hcommitted : (List.Ico 1 (n + 1)).flatMap (fun q => d.piece ⟨id, q⟩) = List.Ico since b := by
    rw [← h.committed]
    apply List.flatMap_congr
    intro q hq
    have hsegment := (h.segments q).mpr (by rw [List.Ico.mem] at hq; omega)
    obtain ⟨audio, haudio⟩ := mem_iff_lookup.mp hsegment
    simp [piece, haudio]
  have hnew : d.segments.lookup ⟨id, n + 1⟩ = none := by
    rw [AList.lookup_eq_none, h.segments]
    omega
  have hlive := h.tidy.live
  have hbirth := h.tidy.birth_le
  have hle := h.since_le
  unfold RecorderState.audio
  rw [h.pieces_eq, List.flatMap_append, hcommitted]
  cases p with
  | whole =>
    obtain ⟨hworking, rfl⟩ := h.phase
    rw [hworking]
    simp only [Phase.uncommitted, List.flatMap_nil, List.append_nil, audioOf, Option.elim_some,
      hlive]
    exact List.Ico.append_consecutive hle hbirth
  | duplicate =>
    obtain ⟨hworking, rfl, -⟩ := h.phase
    rw [hworking]
    simp only [Phase.uncommitted, List.flatMap_nil, List.append_nil, audioOf, Option.elim_some,
      hlive]
    exact List.Ico.append_consecutive hle hbirth
  | closed =>
    obtain ⟨hworking, hb, i, hi, -, hcontent⟩ := h.phase
    rw [hworking]
    simp only [Phase.uncommitted, List.flatMap_singleton, piece, hnew, hi, Option.getD_none,
      audioOf, Option.elim_some, hlive, hcontent]
    rw [List.Ico.append_consecutive hle hb, List.Ico.append_consecutive (hle.trans hb) hbirth]
  | live =>
    obtain ⟨hworking, rfl, hkeys⟩ := h.phase
    rw [hworking]
    simp only [Phase.uncommitted, List.flatMap_singleton, piece, hnew, (hkeys _).mpr rfl,
      Option.getD_none, audioOf, Option.elim_some, Option.elim_none, hlive, List.append_nil]
    exact List.Ico.append_consecutive hle hbirth

end Audio

/-! ## Before and after a recording -/

section Idle

open RecorderState

variable {d d' : RecorderState} {id since n b : ℕ} {p : Phase}

/-- Nothing is recorded for a session. -/
structure Idle (d : RecorderState) : Prop where
  tidy : d.Tidy
  stopped : ∀ s ∈ d.sessions, s.stillRunning = false

/-- Every session that is still running has its file moved: Stop is about to save it. -/
structure Stopping (d : RecorderState) : Prop where
  tidy : d.Tidy
  moved : ∀ s ∈ d.sessions, s.stillRunning → d.isMoved s.id

/-- What is to hold while no operation is under way. -/
def Rest (d : RecorderState) : Prop := Idle d ∨ ∃ id since n b p, Recording d id since n b p

theorem Recording.rest (h : Recording d id since n b p) : Rest d := .inr ⟨id, since, n, b, p, h⟩

/-- The first session starts with an empty working file that its own reopen has opened. -/
theorem Idle.createSession (h : Idle d) (hworking : d.working = some d.openInode)
    (hhandled : d.handled c = some (d.birth d.openInode)) (audioFormat : AudioFormat) :
    Recording (d.createSession c audioFormat) d.nextSession (d.birth d.openInode) 0
      (d.birth d.openInode) .whole where
  tidy := { h.tidy with
    handoff_session := fun key hkey => Nat.lt_succ_of_lt (h.tidy.handoff_session key hkey)
    segment_session := fun key hkey => Nat.lt_succ_of_lt (h.tidy.segment_session key hkey)
    named_session := fun key c hc => Nat.lt_succ_of_lt (h.tidy.named_session key c hc)
    session_lt := by
      intro s hs
      rcases List.mem_cons.mp hs with rfl | hs
      · exact Nat.lt_succ_self _
      · exact Nat.lt_succ_of_lt (h.tidy.session_lt s hs)
    moved_lt := fun id hid => Nat.lt_succ_of_lt (h.tidy.moved_lt id hid) }
  running := ⟨_, List.mem_cons_self, rfl⟩
  only := by
    intro s hs hrunning
    rcases List.mem_cons.mp hs with rfl | hs
    · exact ⟨rfl, by rw [hhandled]; rfl⟩
    · cases (h.stopped s hs).symm.trans hrunning
  not_moved := by
    by_contra hmoved
    exact absurd (h.tidy.moved_lt _ (eq_true_of_ne_false hmoved)) (Nat.lt_irrefl _)
  segments := by
    intro q
    constructor
    · intro hq
      exact absurd (h.tidy.segment_session _ hq) (Nat.lt_irrefl _)
    · omega
  handoffs := by
    intro q
    constructor
    · intro hq
      exact absurd (h.tidy.handoff_session _ hq) (Nat.lt_irrefl _)
    · exact fun hq => nomatch hq
  committed := by rw [List.Ico.self_empty, List.Ico.self_empty, List.flatMap_nil]
  since_le := le_rfl
  named := fun q c hc => absurd (h.tidy.named_session _ c hc) (Nat.lt_irrefl _)
  phase := ⟨hworking, rfl⟩

theorem Recording.moveSource (h : Recording d id since n b p) :
    Stopping (d.moveSource id (.handoff key) i) where
  tidy := { h.tidy.erase key with
    moved_lt := by
      intro s hs
      have hs : s ∈ id :: d.moved.map Prod.fst := of_decide_eq_true hs
      rcases List.mem_cons.mp hs with rfl | hs
      · obtain ⟨t, ht, hrunning⟩ := h.running
        rw [← (h.only t ht hrunning).1]
        exact h.tidy.session_lt t ht
      · exact h.tidy.moved_lt s (decide_eq_true hs) }
  moved := by
    intro s hs hrunning
    simp [isMoved, RecorderState.moveSource, (h.only s hs hrunning).1]

theorem saveStopped_idle (h : d.Tidy) (honly : ∀ s ∈ d.sessions, s.stillRunning → s.id = id) :
    Idle (d.saveStopped id) where
  tidy := { h with
    session_lt := by
      intro s hs
      obtain ⟨t, ht, rfl⟩ := List.mem_map.mp hs
      split_ifs <;> exact h.session_lt t ht }
  stopped := by
    intro s hs
    obtain ⟨t, ht, rfl⟩ := List.mem_map.mp hs
    split_ifs with heq
    · rfl
    · exact eq_false_of_ne_true fun hrunning => heq (honly t ht hrunning)

theorem Idle.others (h : Idle d) (hstep : Others d d') : Idle d' where
  tidy := h.tidy.others hstep
  stopped := by
    cases hstep with
    | sample => exact h.stopped
    | handle c hc =>
      rw [handle_sessions]
      exact h.stopped

theorem Stopping.others (h : Stopping d) (hstep : Others d d') : Stopping d' where
  tidy := h.tidy.others hstep
  moved := by
    cases hstep with
    | sample => exact h.moved
    | handle c hc =>
      intro s
      rw [handle_sessions, isMoved, handle_moved]
      exact h.moved s

theorem Rest.others (h : Rest d) (hstep : Others d d') : Rest d' := by
  rcases h with h | ⟨id, since, n, b, p, h⟩
  · exact .inl (h.others hstep)
  · obtain ⟨p', -, h'⟩ := h.others hstep
    exact .inr ⟨id, since, n, b, p', h'⟩

end Idle

end IsadoraAir.Aircheck.Recorder
