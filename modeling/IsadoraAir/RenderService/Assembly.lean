import IsadoraAir.RenderService.Shape

/-!
# Assemblies

The order of the inputs is checked in the loop and after it. Together the checks
say that an optional stinger comes first, then the messages, urgent ones before
public-address ones.
-/

namespace IsadoraAir.RenderService.Protocol

variable {entries : List WireValue} {index : ℕ}

/-- An optional stinger, then messages. -/
def inputsOf (stinger : Option Reference) (messages : List Message) : List Input :=
  stinger.toList.map .stinger ++ messages.map .message

/-- The inputs of an assembly in order; the total is a sum in the default decimal context. -/
structure Sequence (inputs : List Input) (stinger : Option Reference) (messages : List Message) :
    Prop where
  order : inputs = inputsOf stinger messages
  nonempty : messages ≠ []
  few : messages.length ≤ maxAssembleMessages
  distinct : messages.Pairwise fun a b => a.message ≠ b.message
  urgentFirst : messages.Pairwise fun a b => b.kind = .urgent → a.kind = .urgent
  leads : stinger ≠ none → ∀ m ∈ messages.head?, m.kind = .urgent
  total : Decimal.sum (inputs.map Input.durationSeconds) ≤ maxAssembleTotalSeconds

/-! ## The loop -/

section Loop

variable {digit : Char → Option (Fin 10)} {maxBytes : ℤ} {entry : WireValue} {p q : Progress}

theorem stingerOf_eq_ok {s : Reference} :
    stingerOf digit maxBytes entry index = .ok s ↔
      SpellsReference digit maxBytes maxAssembleInputSeconds stingerKeys entry s ∧ index = 0 := by
  simp only [stingerOf, bind_eq_ok_of fun _ => media_eq_ok, orRaise_bind_eq_ok, key_eq_some,
    raiseIf_bind_eq_ok, bind_eq_ok_of fun _ => uuidText_eq_ok, not_not]
  constructor
  · rintro ⟨m, hm, k, hk, hindex, u, hu, ⟨⟩⟩
    exact ⟨⟨hm, hk, hu⟩, hindex⟩
  · rintro ⟨⟨hm, hk, hu⟩, hindex⟩
    exact ⟨_, hm, _, hk, hindex, _, hu, rfl⟩

theorem messageOf_eq_ok {seen : List UuidNumber} {m : Message}
    (hrole : entry.field (codePoints "role") = .str (codePoints "message")) :
    messageOf digit maxBytes seen entry index = .ok m ↔
      SpellsMessage digit maxBytes entry m ∧ m.message ∉ seen := by
  simp only [messageOf, bind_eq_ok_of fun _ => media_eq_ok, orRaise_bind_eq_ok, kind_eq_some,
    raiseIf_bind_eq_ok, bind_eq_ok_of fun _ => uuidText_eq_ok]
  constructor
  · rintro ⟨m, hm, k, hk, u, hu, hfresh, ⟨⟩⟩
    exact ⟨⟨hrole, hm, hk, hu⟩, hfresh⟩
  · rintro ⟨⟨-, hm, hk, hu⟩, hfresh⟩
    exact ⟨_, hm, _, hk, _, hu, hfresh, rfl⟩

/-- A turn takes a stinger at the start, or a message that has not been seen. -/
theorem addInput_eq_ok :
    addInput digit maxBytes p (entry, index) = .ok q ↔
      (∃ s, SpellsStinger digit maxBytes entry s ∧ index = 0 ∧ q = p.addStinger s) ∨
      ∃ m, SpellsMessage digit maxBytes entry m ∧ m.message ∉ p.seen ∧ q = p.addMessage m := by
  have hne : codePoints "stinger" ≠ codePoints "message" := by decide
  unfold addInput
  dsimp only
  split_ifs with hstinger hmessage
  · rw [WireValue.isStr_iff] at hstinger
    simp only [bind_eq_ok_of fun _ => stingerOf_eq_ok]
    constructor
    · rintro ⟨s, ⟨hs, hindex⟩, ⟨⟩⟩
      exact .inl ⟨s, ⟨hstinger, hs⟩, hindex, rfl⟩
    · rintro (⟨s, hs, hindex, rfl⟩ | ⟨m, hm, -, -⟩)
      · exact ⟨s, ⟨hs.reference, hindex⟩, rfl⟩
      · rw [hm.role, WireValue.str.injEq] at hstinger
        exact absurd hstinger.symm hne
  · rw [WireValue.isStr_iff] at hmessage
    simp only [bind_eq_ok_of fun _ => messageOf_eq_ok hmessage]
    constructor
    · rintro ⟨m, ⟨hm, hfresh⟩, ⟨⟩⟩
      exact .inr ⟨m, hm, hfresh, rfl⟩
    · rintro (⟨s, hs, -, -⟩ | ⟨m, hm, hfresh, rfl⟩)
      · rw [hs.role, WireValue.str.injEq] at hmessage
        exact absurd hmessage hne
      · exact ⟨m, ⟨hm, hfresh⟩, rfl⟩
  · constructor
    · intro h
      cases h
    · rintro (⟨s, hs, -, -⟩ | ⟨m, hm, -, -⟩)
      · exact absurd (WireValue.isStr_iff.mpr hs.role) hstinger
      · exact absurd (WireValue.isStr_iff.mpr hm.role) hmessage

/-- What messages add to what has been gathered. -/
def Progress.addMessages (p : Progress) (messages : List Message) : Progress where
  normalized := p.normalized ++ messages.map .message
  messages := p.messages + messages.length
  kinds := p.kinds ++ messages.map fun m => m.kind.index
  seen := p.seen ++ messages.map Message.message

theorem Progress.addMessages_nil : p.addMessages [] = p := by
  simp [Progress.addMessages]

theorem Progress.addMessages_cons (m : Message) (messages : List Message) :
    (p.addMessage m).addMessages messages = p.addMessages (m :: messages) := by
  simp [Progress.addMessages, Progress.addMessage, Nat.add_assoc, Nat.add_comm 1]

/-- Behind the first input the loop takes messages only. -/
theorem foldlM_addInput_succ :
    (entries.zipIdx (index + 1)).foldlM (addInput digit maxBytes) p = .ok q ↔
      ∃ messages, List.Forall₂ (SpellsMessage digit maxBytes) entries messages ∧
        (messages.Pairwise fun a b => a.message ≠ b.message) ∧
        (∀ m ∈ messages, m.message ∉ p.seen) ∧ q = p.addMessages messages := by
  induction entries generalizing p index with
  | nil =>
    simp only [List.zipIdx_nil, List.foldlM_nil, pure, Except.pure, Except.ok.injEq,
      List.forall₂_nil_left_iff]
    constructor
    · rintro rfl
      exact ⟨[], rfl, .nil, by simp, Progress.addMessages_nil.symm⟩
    · rintro ⟨messages, rfl, -, -, rfl⟩
      exact Progress.addMessages_nil.symm
  | cons entry entries ih =>
    rw [List.zipIdx_cons, List.foldlM_cons, bind_eq_ok_of fun _ => addInput_eq_ok]
    constructor
    · rintro ⟨p', ⟨s, -, hindex, -⟩ | ⟨m, hm, hfresh, rfl⟩, hrest⟩
      · cases hindex
      · obtain ⟨messages, hspells, hdistinct, hseen, rfl⟩ := ih.mp hrest
        refine ⟨m :: messages, .cons hm hspells, List.pairwise_cons.mpr ⟨?_, hdistinct⟩, ?_,
          Progress.addMessages_cons m messages⟩
        · rintro m' hm' heq
          exact hseen m' hm' (List.mem_append_right _ (by simp [heq]))
        · intro m' hm'
          rcases List.mem_cons.mp hm' with rfl | hm'
          · exact hfresh
          · exact fun hmem => hseen m' hm' (List.mem_append_left _ hmem)
    · rintro ⟨messages, hspells, hdistinct, hseen, rfl⟩
      obtain ⟨m, messages, hm, hmessages, rfl⟩ := List.forall₂_cons_left_iff.mp hspells
      obtain ⟨hm', hdistinct⟩ := List.pairwise_cons.mp hdistinct
      refine ⟨p.addMessage m, .inr ⟨m, hm, hseen m (by simp), rfl⟩, ih.mpr
        ⟨messages, hmessages, hdistinct, ?_, (Progress.addMessages_cons m messages).symm⟩⟩
      intro m₂ hm₂ hmem
      rcases List.mem_append.mp hmem with hmem | hmem
      · exact hseen m₂ (by simp [hm₂]) hmem
      · exact hm' m₂ hm₂ (List.mem_singleton.mp hmem).symm

/-- What the loop gathers from an optional stinger and messages. -/
def progressOf (stinger : Option Reference) (messages : List Message) : Progress where
  normalized := inputsOf stinger messages
  messages := messages.length
  kinds := messages.map fun m => m.kind.index
  seen := messages.map Message.message

theorem forall₂_map_message {messages : List Message} :
    List.Forall₂ (SpellsInput digit maxBytes) entries (messages.map .message) ↔
      List.Forall₂ (SpellsMessage digit maxBytes) entries messages :=
  List.forall₂_map_right_iff

theorem addMessages_start (messages : List Message) :
    Progress.start.addMessages messages = progressOf none messages := by
  simp [Progress.addMessages, Progress.start, progressOf, inputsOf]

theorem addMessages_stinger (s : Reference) (messages : List Message) :
    (Progress.start.addStinger s).addMessages messages = progressOf (some s) messages := by
  simp [Progress.addMessages, Progress.addStinger, Progress.start, progressOf, inputsOf]

theorem foldlM_addInput :
    entries.zipIdx.foldlM (addInput digit maxBytes) .start = .ok q ↔
      ∃ stinger messages,
        List.Forall₂ (SpellsInput digit maxBytes) entries (inputsOf stinger messages) ∧
        (messages.Pairwise fun a b => a.message ≠ b.message) ∧ q = progressOf stinger messages := by
  cases entries with
  | nil =>
    simp only [List.zipIdx_nil, List.foldlM_nil, pure, Except.pure, Except.ok.injEq,
      List.forall₂_nil_left_iff]
    constructor
    · rintro rfl
      exact ⟨none, [], rfl, .nil, rfl⟩
    · rintro ⟨stinger, messages, hnil, -, rfl⟩
      obtain ⟨hstinger, hmessages⟩ := List.append_eq_nil_iff.mp hnil
      cases stinger with
      | none =>
        rw [List.map_eq_nil_iff.mp hmessages]
        rfl
      | some s => cases hstinger
  | cons entry entries =>
    rw [List.zipIdx_cons, List.foldlM_cons, bind_eq_ok_of fun _ => addInput_eq_ok]
    simp only [foldlM_addInput_succ]
    constructor
    · rintro ⟨p, ⟨s, hs, -, rfl⟩ | ⟨m, hm, -, rfl⟩, messages, hmessages, hdistinct, hseen, rfl⟩
      · exact ⟨some s, messages, .cons hs (forall₂_map_message.mpr hmessages), hdistinct,
          addMessages_stinger s messages⟩
      · refine ⟨none, m :: messages, .cons hm (forall₂_map_message.mpr hmessages),
          List.pairwise_cons.mpr ⟨?_, hdistinct⟩, ?_⟩
        · intro m' hm' heq
          exact hseen m' hm' (heq ▸ List.mem_singleton.mpr rfl)
        · rw [Progress.addMessages_cons, addMessages_start]
    · rintro ⟨stinger, messages, hspells, hdistinct, rfl⟩
      cases stinger with
      | some s =>
        obtain ⟨input, inputs, hs, hmessages, heq⟩ := List.forall₂_cons_left_iff.mp hspells
        obtain ⟨rfl, rfl⟩ := List.cons.inj heq
        refine ⟨_, .inl ⟨s, hs, trivial, rfl⟩, messages, forall₂_map_message.mp hmessages,
          hdistinct, ?_, (addMessages_stinger s messages).symm⟩
        simp [Progress.addStinger, Progress.start]
      | none =>
        obtain ⟨m, rest, hm, hrest, rfl⟩ :=
          List.forall₂_cons_left_iff.mp (forall₂_map_message.mp hspells)
        obtain ⟨hm', hdistinct⟩ := List.pairwise_cons.mp hdistinct
        refine ⟨_, .inr ⟨m, hm, by simp [Progress.start], rfl⟩, rest, hrest, hdistinct, ?_, ?_⟩
        · intro m₂ hm₂ hmem
          exact hm' m₂ hm₂ (List.mem_singleton.mp hmem).symm
        · rw [Progress.addMessages_cons, addMessages_start]

end Loop

/-! ## The checks after the loop -/

section Order

variable {stinger : Option Reference} {messages : List Message}

theorem index_le_iff {a b : Kind} : a.index ≤ b.index ↔ (b = .urgent → a = .urgent) := by
  cases a <;> cases b <;> simp [Kind.index]

theorem eq_insertionSort_iff {kinds : List ℕ} :
    kinds = kinds.insertionSort (· ≤ ·) ↔ kinds.Pairwise (· ≤ ·) := by
  constructor
  · intro h
    rw [h]
    exact List.pairwise_insertionSort _ _
  · intro h
    exact h.insertionSort_eq.symm

theorem checkLead_eq_ok (hmessages : messages ≠ []) :
    checkLead (progressOf stinger messages) = .ok () ↔
      (stinger ≠ none → ∀ m ∈ messages.head?, m.kind = .urgent) := by
  obtain ⟨m, rest, rfl⟩ := List.exists_cons_of_ne_nil hmessages
  cases stinger with
  | none => simp [checkLead, progressOf, inputsOf, orRaise, bind, Except.bind, pure, Except.pure]
  | some s =>
    cases hkind : m.kind <;>
      simp [checkLead, progressOf, inputsOf, orRaise, raiseIf, bind, Except.bind, hkind, Kind.index]

theorem checkOrder_eq_ok :
    checkOrder (progressOf stinger messages) = .ok () ↔
      messages ≠ [] ∧ messages.length ≤ maxAssembleMessages ∧
      (messages.Pairwise fun a b => b.kind = .urgent → a.kind = .urgent) ∧
      (stinger ≠ none → ∀ m ∈ messages.head?, m.kind = .urgent) ∧
      Decimal.sum ((inputsOf stinger messages).map Input.durationSeconds) ≤
        maxAssembleTotalSeconds := by
  simp only [checkOrder, unit_bind_eq_ok, raiseIf_eq_ok, not_not, not_lt, eq_insertionSort_iff,
    ne_eq]
  by_cases hmessages : messages = []
  · subst hmessages
    simp [progressOf]
  · have hpairwise : (progressOf stinger messages).kinds.Pairwise (· ≤ ·) ↔
        messages.Pairwise fun a b => b.kind = .urgent → a.kind = .urgent := by
      simp [progressOf, List.pairwise_map, index_le_iff]
    have hpos : 0 < (progressOf stinger messages).messages := List.length_pos_iff.mpr hmessages
    simp only [hpairwise, hpos, checkLead_eq_ok hmessages, true_and, hmessages, not_false_eq_true,
      ne_eq]
    rfl

/-- One stinger and 24 messages are as many inputs as there may be. -/
theorem length_inputsOf (hnonempty : messages ≠ []) (hfew : messages.length ≤ maxAssembleMessages)
    (stinger : Option Reference) :
    0 < (inputsOf stinger messages).length ∧
      (inputsOf stinger messages).length ≤ maxAssembleInputs := by
  have hpos := List.length_pos_iff.mpr hnonempty
  rw [inputsOf, List.length_append, List.length_map, List.length_map]
  rw [maxAssembleMessages] at hfew
  rw [maxAssembleInputs]
  cases stinger <;> simp only [Option.toList_none, Option.toList_some, List.length_nil,
    List.length_singleton] <;> omega

end Order

/-- An `assemble` request is returned exactly when the value spells it and its inputs are in
order. -/
theorem parseAssemble_eq_ok {digit : Char → Option (Fin 10)} {maxBytes : ℤ} {request : WireValue}
    {r : AssembleRequest} :
    parseAssemble digit maxBytes request = .ok r ↔
      SpellsAssemble digit maxBytes request r ∧
        ∃ stinger messages, Sequence r.inputs stinger messages := by
  simp only [parseAssemble, bind_eq_ok_of fun _ => checkHead_eq_ok,
    bind_eq_ok_of fun _ => recipeOf_eq_ok, bind_eq_ok_of fun _ => digestOf_eq_ok,
    bind_eq_ok_of fun _ => timeoutOf_eq_ok, unit_bind_eq_ok, raiseIf_eq_ok, orRaise_bind_eq_ok,
    WireValue.list?_eq_some, bind_eq_ok_of fun _ => foldlM_addInput,
    bind_eq_ok_of fun _ => uuidText_eq_ok, not_not, Bool.not_eq_false]
  constructor
  · rintro ⟨_, hhead, _, hrecipe, _, hdigest, _, htimeout, hcorrelation, entries, hentries, -, _,
      ⟨stinger, messages, hspells, hdistinct, rfl⟩, horder, _, hexecution, ⟨⟩⟩
    obtain ⟨hnonempty, hfew, hurgent, hleads, htotal⟩ := checkOrder_eq_ok.mp horder
    refine ⟨?_, stinger, messages, rfl, hnonempty, hfew, hdistinct, hurgent, hleads, htotal⟩
    exact ⟨hhead, hrecipe, hdigest, htimeout, hcorrelation, hexecution, entries, hentries, hspells⟩
  · rintro ⟨h, stinger, messages, hsequence⟩
    obtain ⟨entries, hentries, hspells⟩ := h.inputs
    have hlength : entries.length = (inputsOf stinger messages).length := by
      rw [hspells.length_eq, hsequence.order]
    have hbounds := length_inputsOf hsequence.nonempty hsequence.few stinger
    have horder := checkOrder_eq_ok.mpr ⟨hsequence.nonempty, hsequence.few, hsequence.urgentFirst,
      hsequence.leads, hsequence.order ▸ hsequence.total⟩
    refine ⟨_, h.head, _, h.recipe, _, h.digest, _, h.timeout, h.correlation, entries, hentries,
      hlength ▸ hbounds, _, ⟨stinger, messages, hsequence.order ▸ hspells, hsequence.distinct, rfl⟩,
      horder, _, h.execution, ?_⟩
    rw [show (progressOf stinger messages).normalized = r.inputs from hsequence.order.symm]
    rfl

end IsadoraAir.RenderService.Protocol
