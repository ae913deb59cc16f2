import IsadoraAir.RenderService.Refusals

/-!
# Requests in canonical form

A request that was returned is written with canonical identifiers and decimals,
and read back. The text of a decimal may be longer than the one it was read
from; the protocol takes 32 characters.
-/

namespace IsadoraAir.RenderService.Protocol

variable {r : AssembleRequest} {input : Input} {items : List (Text × Reference)}
  {keys : List String} {references : WireValue}

/-! ## Writing -/

def uuidValue (u : UuidNumber) : WireValue := .str (u.str.map .scalar)

def optionalUuidValue (u : Option UuidNumber) : WireValue := u.elim .null uuidValue

def Media.fields (m : Media) : List (Text × WireValue) :=
  [(codePoints "media", uuidValue m.media),
    (codePoints "sha256", .str m.sha256.text),
    (codePoints "bytes", .int m.bytes),
    (codePoints "duration_seconds", .str (m.durationSeconds.str.map .scalar))]

def Reference.fields (r : Reference) : List (Text × WireValue) :=
  [(codePoints "key", .str r.key.text), (codePoints "reference", uuidValue r.reference)]

def Reference.encode (r : Reference) : WireValue := .obj (r.toMedia.fields ++ r.fields)

def Input.encode : Input → WireValue
  | stinger s =>
    .obj (s.toMedia.fields ++ (codePoints "role", .str (codePoints "stinger")) :: s.fields)
  | message m =>
    .obj (m.toMedia.fields ++
      [(codePoints "role", .str (codePoints "message")),
        (codePoints "message", uuidValue m.message),
        (codePoints "kind", .str (codePoints m.kind.text))])

def Recipe.encode (r : Recipe) : WireValue :=
  .obj [(codePoints "key", .str r.key.text), (codePoints "version", r.version)]

def AssembleRequest.encode (r : AssembleRequest) : WireValue :=
  .obj
    [(codePoints "v", .int 1),
      (codePoints "op", .str (codePoints "assemble")),
      (codePoints "request_id", .str r.requestId.text),
      (codePoints "correlation", .obj [(codePoints "execution", uuidValue r.execution)]),
      (codePoints "recipe", r.recipe.encode),
      (codePoints "inputs", .list (r.inputs.map Input.encode)),
      (codePoints "expected_digest", .str r.expectedDigest.text),
      (codePoints "timeout", .float r.timeout)]

def encodeReferences (references : List (Text × Reference)) : List (Text × WireValue) :=
  references.map fun item => (item.1, item.2.encode)

def RenderRequest.encode (r : RenderRequest) : WireValue :=
  .obj
    [(codePoints "v", .int 1),
      (codePoints "op", .str (codePoints "render")),
      (codePoints "request_id", .str r.requestId.text),
      (codePoints "correlation", .obj
        [(codePoints "item", optionalUuidValue r.item),
          (codePoints "lease", optionalUuidValue r.lease)]),
      (codePoints "source", .obj r.source.fields),
      (codePoints "recipe", r.recipe.encode),
      (codePoints "params", .obj r.params),
      (codePoints "references", .obj (encodeReferences r.references)),
      (codePoints "expected_digest", .str r.expectedDigest.text),
      (codePoints "timeout", .float r.timeout)]

/-- The canonical text of the duration is as short as the protocol asks for. -/
def Media.Writable (m : Media) : Prop := m.durationSeconds.str.length ≤ 32

def Input.media : Input → Media
  | stinger s => s.toMedia
  | message m => m.toMedia

def AssembleRequest.Writable (r : AssembleRequest) : Prop :=
  ∀ input ∈ r.inputs, input.media.Writable

def RenderRequest.Writable (r : RenderRequest) : Prop :=
  r.source.Writable ∧ ∀ item ∈ r.references, item.2.toMedia.Writable

/-! ## Reading back -/

section RoundTrip

variable {digit : Char → Option (Fin 10)} {maxBytes : ℤ} {maxSeconds : ℚ} {entry : WireValue}

theorem spellsUuid_value (u : UuidNumber) : SpellsUuid digit (uuidValue u) u :=
  ⟨_, rfl, UuidNumber.ofText_str u⟩

theorem spellsOptionalUuid_value (u : Option UuidNumber) :
    SpellsOptionalUuid digit (optionalUuidValue u) u := by
  cases u with
  | none => exact .inl ⟨rfl, rfl⟩
  | some n => exact .inr ⟨n, rfl, spellsUuid_value n⟩

/-- The fields of a medium are spelled again, whatever stands behind them. -/
theorem SpellsMedia.encode {keys' : List String} {m : Media} {extra : List (Text × WireValue)}
    (h : SpellsMedia digit maxBytes maxSeconds keys entry m) (hwritable : m.Writable)
    (hkeys : (m.fields ++ extra).map Prod.fst = keys'.map codePoints) :
    SpellsMedia digit maxBytes maxSeconds keys' (.obj (m.fields ++ extra)) m where
  keys := WireValue.hasKeys_of_eq hkeys
  media := spellsUuid_value m.media
  sha256 := rfl
  bytes := ⟨rfl, h.bytes.2⟩
  duration := by
    obtain ⟨text, -, -, hread, hrange⟩ := h.duration
    refine ⟨m.durationSeconds.str.map .scalar, rfl, ?_,
      Decimal.ofText_str (Decimal.fits_of_ofText hread), hrange⟩
    rw [List.length_map]
    exact hwritable

theorem SpellsReference.encode {r : Reference}
    (h : SpellsReference digit maxBytes maxSeconds keys entry r) (hwritable : r.toMedia.Writable) :
    SpellsReference digit maxBytes maxSeconds referenceKeys r.encode r where
  media := h.media.encode hwritable rfl
  key := rfl
  reference := spellsUuid_value r.reference

theorem SpellsInput.encode (h : SpellsInput digit maxBytes entry input)
    (hwritable : input.media.Writable) : SpellsInput digit maxBytes input.encode input := by
  cases input with
  | stinger s =>
    exact ⟨rfl, SpellsMedia.encode h.reference.media hwritable rfl, rfl, spellsUuid_value _⟩
  | message m => exact ⟨rfl, SpellsMedia.encode h.media hwritable rfl, rfl, spellsUuid_value _⟩

theorem SpellsTimeout.encode {value : WireValue} {x : Double} (h : SpellsTimeout value x) :
    SpellsTimeout (.float x) x :=
  ⟨.inl rfl, h.2⟩

theorem spellsRecipe_encode (r : Recipe) : SpellsRecipe r.encode r where
  keys := WireValue.hasKeys_of_eq rfl
  key := rfl
  version := rfl

theorem SpellsAssemble.encode {request : WireValue}
    (h : SpellsAssemble digit maxBytes request r) (hwritable : r.Writable) :
    SpellsAssemble digit maxBytes r.encode r where
  head := ⟨WireValue.hasKeys_of_eq rfl, rfl, rfl, rfl⟩
  recipe := spellsRecipe_encode r.recipe
  digest := rfl
  timeout := h.timeout.encode
  correlation := WireValue.hasKeys_of_eq rfl
  execution := spellsUuid_value r.execution
  inputs := by
    obtain ⟨entries, -, hspells⟩ := h.inputs
    refine ⟨r.inputs.map Input.encode, rfl, List.forall₂_map_left_iff.mpr ?_⟩
    refine List.forall₂_same.mpr fun input hinput => ?_
    obtain ⟨entry, -, hentry⟩ := exists_of_forall₂ hspells hinput
    exact hentry.encode (hwritable input hinput)

theorem map_fst_references {names : List Text}

    (h : List.Forall₂ (SpellsNamed digit maxBytes maxSeconds references) names items) :
    items.map Prod.fst = names := by
  induction h with
  | nil => rfl
  | cons hnamed _ ih => rw [List.map_cons, ih, hnamed.1]

theorem map_fst_encodeReferences (items : List (Text × Reference)) :
    (encodeReferences items).map Prod.fst = items.map Prod.fst := by
  simp [encodeReferences]

theorem nodup_keys (value : WireValue) : value.keys.Nodup := by
  cases value <;> simp [WireValue.keys, List.nodup_dedup]

/-- The references are written under their names, which are already sorted. -/
theorem keys_encodeReferences (h : List.Forall₂ (SpellsNamed digit maxBytes maxSeconds references)
      (Text.sorted references.keys) items) :
    (WireValue.obj (encodeReferences items)).keys = Text.sorted references.keys ∧
      ((encodeReferences items).map Prod.fst).Nodup := by
  have hnames : (encodeReferences items).map Prod.fst = Text.sorted references.keys := by
    rw [map_fst_encodeReferences, map_fst_references h]
  have hnodup : ((encodeReferences items).map Prod.fst).Nodup := by
    rw [hnames, (Text.sorted_perm _).nodup_iff]
    exact nodup_keys references
  exact ⟨(WireValue.keys_of_nodup hnodup).trans hnames, hnodup⟩

theorem SpellsRender.encode {request : WireValue} {r : RenderRequest}
    (h : SpellsRender digit maxBytes maxSeconds request r) (hwritable : r.Writable) :
    SpellsRender digit maxBytes maxSeconds r.encode r := by
  obtain ⟨hkeys, hnodup⟩ := keys_encodeReferences h.references
  have hperm := Text.sorted_perm (request.field (codePoints "references")).keys
  have hsource : SpellsMedia digit maxBytes maxSeconds mediaKeys (.obj (r.source.fields ++ []))
      r.source := h.source.encode hwritable.1 rfl
  rw [List.append_nil] at hsource
  have hreferences : List.Forall₂
      (SpellsNamed digit maxBytes maxSeconds (.obj (encodeReferences r.references)))
      (Text.sorted (WireValue.obj (encodeReferences r.references)).keys) r.references := by
    rw [hkeys, Text.sorted_sorted, ← map_fst_references h.references, List.forall₂_map_left_iff,
      List.forall₂_same]
    intro item hitem
    obtain ⟨name, -, hnamed⟩ := exists_of_forall₂ h.references hitem
    have hfield : (WireValue.obj (encodeReferences r.references)).field item.1 = item.2.encode :=
      WireValue.field_of_mem hnodup (List.mem_map_of_mem hitem)
    exact ⟨rfl, hfield ▸ hnamed.2.encode (hwritable.2 item hitem)⟩
  exact {
    head := ⟨WireValue.hasKeys_of_eq rfl, rfl, rfl, rfl⟩
    correlation := WireValue.hasKeys_of_eq rfl
    item := spellsOptionalUuid_value r.item
    lease := spellsOptionalUuid_value r.lease
    source := hsource
    recipe := spellsRecipe_encode r.recipe
    params := rfl
    isObj := rfl
    few := by
      show (WireValue.obj (encodeReferences r.references)).keys.length ≤ maxReferences
      rw [hkeys, hperm.length_eq]
      exact h.few
    names := by
      show ∀ name ∈ (WireValue.obj (encodeReferences r.references)).keys, isParam name = true
      rw [hkeys]
      exact fun name hname => h.names name (hperm.mem_iff.mp hname)
    references := hreferences
    digest := rfl
    timeout := h.timeout.encode }

end RoundTrip

/-! ## The contract of the parsers -/

section Contract

variable {digit : Char → Option (Fin 10)} {maxBytes : ℤ} {maxSeconds : ℚ} {request : WireValue}

/-- The parser returns, or raises a declared error. -/
def Answers {α : Type} (result : Except Error α) : Prop :=
  (∃ r, result = .ok r) ∨ ∃ e, result = .error e ∧ Declared e

theorem answers_of_raises {α : Type} {result : Except Error α}
    (h : Raises (Refuses request) result) (hsmall : ¬HugeTimeout request) : Answers result := by
  cases result with
  | ok r => exact .inl ⟨r, rfl⟩
  | error e =>
    rcases h e rfl with hdeclared | ⟨-, hhuge⟩
    · exact .inr ⟨e, rfl, hdeclared⟩
    · exact absurd hhuge hsmall

theorem SpellsInput.duration {entry : WireValue} (h : SpellsInput digit maxBytes entry input) :
    0 < input.durationSeconds.value ∧ input.durationSeconds.value ≤ maxAssembleInputSeconds := by
  cases input with
  | stinger s =>
    obtain ⟨_, -, -, -, hrange⟩ := h.reference.media.duration
    exact hrange
  | message m =>
    obtain ⟨_, -, -, -, hrange⟩ := h.media.duration
    exact hrange

theorem sum_le_mul {xs : List ℚ} {bound : ℚ} (h : ∀ x ∈ xs, x ≤ bound) :
    xs.sum ≤ xs.length * bound := by
  have hsum := List.sum_le_card_nsmul xs bound h
  rwa [nsmul_eq_mul] at hsum

/-- With at most 23 places behind the point the sum of the durations is exact. -/
theorem SpellsAssemble.total (h : SpellsAssemble digit maxBytes request r)
    (hfew : r.inputs.length ≤ maxAssembleInputs)
    (hplaces : ∀ input ∈ r.inputs, -23 ≤ input.durationSeconds.exponent) :
    Decimal.sum (r.inputs.map Input.durationSeconds) =
      (r.inputs.map fun input => input.durationSeconds.value).sum := by
  obtain ⟨entries, -, hspells⟩ := h.inputs
  have hrange : ∀ input ∈ r.inputs, 0 < input.durationSeconds.value ∧
      input.durationSeconds.value ≤ maxAssembleInputSeconds := by
    intro input hinput
    obtain ⟨_, -, hentry⟩ := exists_of_forall₂ hspells hinput
    exact hentry.duration
  have hvalues : (r.inputs.map Input.durationSeconds).map Decimal.value =
      r.inputs.map fun input => input.durationSeconds.value := by
    rw [List.map_map]
    rfl
  rw [← hvalues]
  have hplace : (-1000026 : ℤ) ≤ -23 := by norm_num
  refine Decimal.sum_eq hplace ?_ ?_
  · intro d hd
    obtain ⟨input, hinput, rfl⟩ := List.mem_map.mp hd
    exact ⟨hplaces input hinput, (hrange input hinput).1.le⟩
  · have hle : ∀ x ∈ (r.inputs.map Input.durationSeconds).map Decimal.value,
        x ≤ maxAssembleInputSeconds := by
      rw [hvalues]
      intro x hx
      obtain ⟨input, hinput, rfl⟩ := List.mem_map.mp hx
      exact (hrange input hinput).2
    have hcount : ((r.inputs.length : ℕ) : ℚ) ≤ 25 := by exact_mod_cast hfew
    calc ((r.inputs.map Input.durationSeconds).map Decimal.value).sum
        ≤ r.inputs.length * maxAssembleInputSeconds := by simpa using sum_le_mul hle
      _ ≤ 25 * 1200 := by
        rw [maxAssembleInputSeconds]
        gcongr
      _ < (10 : ℚ) ^ (-23 + 28 : ℤ) := by norm_num

/-- A message of an assembly, by the last digit of its identifier and its duration. -/
def sampleMessage (last duration : String) : WireValue :=
  .obj
    [(codePoints "media", .str (codePoints "00000000000000000000000000000001")),
      (codePoints "sha256", .str (List.replicate 64 (.scalar 'a'))),
      (codePoints "bytes", .int 1),
      (codePoints "duration_seconds", .str (codePoints duration)),
      (codePoints "role", .str (codePoints "message")),
      (codePoints "message", .str (codePoints ("0000000000000000000000000000000" ++ last))),
      (codePoints "kind", .str (codePoints "urgent"))]

def sampleRequest (timeout : WireValue) (inputs : List WireValue) : WireValue :=
  .obj
    [(codePoints "v", .int 1),
      (codePoints "op", .str (codePoints "assemble")),
      (codePoints "request_id", .str (List.replicate 32 (.scalar 'b'))),
      (codePoints "correlation",
        .obj [(codePoints "execution", .str (codePoints "00000000000000000000000000000009"))]),
      (codePoints "recipe", .obj
        [(codePoints "key", .str (codePoints "active_message_mix")),
          (codePoints "version", .int 1)]),
      (codePoints "inputs", .list inputs),
      (codePoints "expected_digest", .str (List.replicate 64 (.scalar 'c'))),
      (codePoints "timeout", timeout)]

/-- The error of a parser. -/
def errorOf {α : Type} : Except Error α → Option Error
  | .ok _ => none
  | .error e => some e

def totalOf (r : AssembleRequest) : ℚ :=
  (r.inputs.map fun input => input.durationSeconds.value).sum

/-- Unless the timeout is too large for a float, both parsers return or raise a declared error.
An assembly is returned exactly when the value spells it and its inputs are in order; with at most
23 places behind the point their total is exact. What is returned can be written in canonical form
and is read back, as long as the texts of its durations fit. -/
theorem parsers_spec (digit : Char → Option (Fin 10)) (maxBytes : ℤ) (maxSeconds : ℚ)
    (request : WireValue) :
    (¬HugeTimeout request →
      Answers (parseRequest digit maxBytes maxSeconds request) ∧
        Answers (parseAssemble digit maxBytes request)) ∧
    (∀ r, parseAssemble digit maxBytes request = .ok r ↔
      SpellsAssemble digit maxBytes request r ∧
        ∃ stinger messages, Sequence r.inputs stinger messages) ∧
    (∀ r, SpellsAssemble digit maxBytes request r → r.inputs.length ≤ maxAssembleInputs →
      (∀ input ∈ r.inputs, -23 ≤ input.durationSeconds.exponent) →
      Decimal.sum (r.inputs.map Input.durationSeconds) =
        (r.inputs.map fun input => input.durationSeconds.value).sum) ∧
    (∀ r, parseAssemble digit maxBytes request = .ok r → r.Writable →
      parseAssemble digit maxBytes r.encode = .ok r) ∧
    ∀ r, parseRequest digit maxBytes maxSeconds request = .ok r → r.Writable →
      parseRequest digit maxBytes maxSeconds r.encode = .ok r := by
  refine ⟨fun hsmall => ⟨answers_of_raises (parseRequest_raises request) hsmall,
    answers_of_raises (parseAssemble_raises request) hsmall⟩, fun r => parseAssemble_eq_ok,
    fun r hspells => hspells.total, ?_, ?_⟩
  · intro r hparse hwritable
    obtain ⟨hspells, hsequence⟩ := parseAssemble_eq_ok.mp hparse
    exact parseAssemble_eq_ok.mpr ⟨hspells.encode hwritable, hsequence⟩
  · intro r hparse hwritable
    exact parseRequest_eq_ok.mpr ((parseRequest_eq_ok.mp hparse).encode hwritable)

theorem parsers_spec_sample :
    Answers (parseAssemble (fun _ => none) 10
      (sampleRequest (.int 60) [sampleMessage "1" "5", sampleMessage "2" "7.25"])) ∧
    ∃ r, parseAssemble (fun _ => none) 10
        (sampleRequest (.int 60) [sampleMessage "1" "5", sampleMessage "2" "7.25"]) = .ok r ∧
      parseAssemble (fun _ => none) 10 r.encode = .ok r := by
  obtain ⟨hanswers, -, -, hread, -⟩ := parsers_spec (fun _ => none) 10 60
    (sampleRequest (.int 60) [sampleMessage "1" "5", sampleMessage "2" "7.25"])
  have hsmall : ¬HugeTimeout
      (sampleRequest (.int 60) [sampleMessage "1" "5", sampleMessage "2" "7.25"]) := by
    rintro ⟨n, hn, hhuge⟩
    obtain rfl : (60 : ℤ) = n := WireValue.int.inj hn
    exact absurd hhuge (by decide +kernel)
  have hparsed : ((parseAssemble (fun _ => none) 10 (sampleRequest (.int 60)
      [sampleMessage "1" "5", sampleMessage "2" "7.25"])).toOption.map fun r =>
        r.inputs.all fun input => input.media.durationSeconds.str.length ≤ 32) = some true := by
    decide +kernel
  obtain ⟨r, hr, hwritable⟩ := Option.map_eq_some_iff.mp hparsed
  have hok : parseAssemble (fun _ => none) 10
      (sampleRequest (.int 60) [sampleMessage "1" "5", sampleMessage "2" "7.25"]) = .ok r := by
    cases hparse : parseAssemble (fun _ => none) 10
        (sampleRequest (.int 60) [sampleMessage "1" "5", sampleMessage "2" "7.25"]) with
    | error e => rw [hparse] at hr; cases hr
    | ok r' =>
      rw [hparse] at hr
      exact congrArg _ (Option.some.inj hr)
  refine ⟨(hanswers hsmall).2, r, hok, hread r hok ?_⟩
  intro input hinput
  have hlength := List.all_eq_true.mp hwritable input hinput
  rwa [decide_eq_true_eq] at hlength

/-- An integer timeout overflows, a total above the limit is rounded to it, and a decimal of 32
characters is refused in canonical form. -/
theorem parseAssemble_limits :
    errorOf (parseAssemble (fun _ => none) 10
      (sampleRequest (.int (10 ^ 309)) [sampleMessage "1" "5"])) = some .overflowError ∧
    ((parseAssemble (fun _ => none) 10 (sampleRequest (.int 60) [sampleMessage "1" "600",
      sampleMessage "2" "600.0000000000000000000000001"])).toOption.map fun r =>
        decide (maxAssembleTotalSeconds < totalOf r)) = some true ∧
    ((parseAssemble (fun _ => none) 10 (sampleRequest (.int 60)
      [sampleMessage "1" ".1111111111111111111111111111111"])).toOption.map fun r =>
        errorOf (parseAssemble (fun _ => none) 10 r.encode)) =
      some (some (wrong (codePoints "inputs[0].duration_seconds")
        " must be a decimal string")) := by
  refine ⟨?_, ?_, ?_⟩ <;> decide +kernel

end Contract

end IsadoraAir.RenderService.Protocol
