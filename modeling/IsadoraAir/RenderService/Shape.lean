import IsadoraAir.RenderService.Protocol

/-!
# The shape of a request

What it means that a value spells a part of a request, and that the readers of
the parts succeed exactly on their spellings.
-/

namespace IsadoraAir.RenderService.Protocol

variable {d : Decimal} {x : Double} {k : Key} {keys : List String} {text : Text} {n : ℕ}

/-! ## Spellings -/

section Spellings

variable (digit : Char → Option (Fin 10)) (maxBytes : ℤ) (maxSeconds : ℚ)

def SpellsUuid (value : WireValue) (u : UuidNumber) : Prop :=
  ∃ text, value = .str text ∧ UuidNumber.ofText digit text = some u

def SpellsOptionalUuid (value : WireValue) (u : Option UuidNumber) : Prop :=
  value = .null ∧ u = none ∨ ∃ n, u = some n ∧ SpellsUuid digit value n

/-- A positive decimal of at most 32 characters. -/
def SpellsDuration (value : WireValue) (d : Decimal) : Prop :=
  ∃ text, value = .str text ∧ text.length ≤ 32 ∧ Decimal.ofText digit text = some (.finite d) ∧
    0 < d.value ∧ d.value ≤ maxSeconds

structure SpellsMedia (keys : List String) (entry : WireValue) (m : Media) : Prop where
  keys : entry.hasKeys keys = true
  media : SpellsUuid digit (entry.field (codePoints "media")) m.media
  sha256 : entry.field (codePoints "sha256") = .str m.sha256.text
  bytes : entry.field (codePoints "bytes") = .int m.bytes ∧ 0 < m.bytes ∧ m.bytes ≤ maxBytes
  duration : SpellsDuration digit maxSeconds (entry.field (codePoints "duration_seconds"))
    m.durationSeconds

structure SpellsReference (keys : List String) (entry : WireValue) (r : Reference) : Prop where
  media : SpellsMedia digit maxBytes maxSeconds keys entry r.toMedia
  key : entry.field (codePoints "key") = .str r.key.text
  reference : SpellsUuid digit (entry.field (codePoints "reference")) r.reference

structure SpellsMessage (entry : WireValue) (m : Message) : Prop where
  role : entry.field (codePoints "role") = .str (codePoints "message")
  media : SpellsMedia digit maxBytes maxAssembleInputSeconds messageKeys entry m.toMedia
  kind : entry.field (codePoints "kind") = .str (codePoints m.kind.text)
  message : SpellsUuid digit (entry.field (codePoints "message")) m.message

structure SpellsStinger (entry : WireValue) (s : Reference) : Prop where
  role : entry.field (codePoints "role") = .str (codePoints "stinger")
  reference : SpellsReference digit maxBytes maxAssembleInputSeconds stingerKeys entry s

def SpellsInput (entry : WireValue) : Input → Prop
  | .stinger s => SpellsStinger digit maxBytes entry s
  | .message m => SpellsMessage digit maxBytes entry m

/-- A number of seconds, as a float or as an integer that is turned into one. -/
def SpellsTimeout (value : WireValue) (x : Double) : Prop :=
  (value = .float x ∨ ∃ n, value = .int n ∧ ofInt n = some x) ∧
    ∃ q, x = .finite q ∧ 0 < q ∧ q ≤ maxTimeoutSeconds

structure SpellsRecipe (value : WireValue) (r : Recipe) : Prop where
  keys : value.hasKeys ["key", "version"] = true
  key : value.field (codePoints "key") = .str r.key.text
  version : value.field (codePoints "version") = r.version

structure SpellsHead (keys : List String) (op : String) (request : WireValue)
    (requestId : HexText 32) : Prop where
  keys : request.hasKeys keys = true
  version : (request.field (codePoints "v")).equalsInt 1 = true
  op : request.field (codePoints "op") = .str (codePoints op)
  requestId : request.field (codePoints "request_id") = .str requestId.text

/-- The value spells this request, whatever the order of its inputs. -/
structure SpellsAssemble (request : WireValue) (r : AssembleRequest) : Prop where
  head : SpellsHead assembleKeys "assemble" request r.requestId
  recipe : SpellsRecipe (request.field (codePoints "recipe")) r.recipe
  digest : request.field (codePoints "expected_digest") = .str r.expectedDigest.text
  timeout : SpellsTimeout (request.field (codePoints "timeout")) r.timeout
  correlation : (request.field (codePoints "correlation")).hasKeys ["execution"] = true
  execution : SpellsUuid digit
    ((request.field (codePoints "correlation")).field (codePoints "execution")) r.execution
  inputs : ∃ entries, request.field (codePoints "inputs") = .list entries ∧
    List.Forall₂ (SpellsInput digit maxBytes) entries r.inputs

def SpellsNamed (references : WireValue) (name : Text) (item : Text × Reference) : Prop :=
  item.1 = name ∧
    SpellsReference digit maxBytes maxSeconds referenceKeys (references.field name) item.2

/-- The references are read in the order of their names. -/
structure SpellsRender (request : WireValue) (r : RenderRequest) : Prop where
  head : SpellsHead requestKeys "render" request r.requestId
  correlation : (request.field (codePoints "correlation")).hasKeys ["item", "lease"] = true
  item : SpellsOptionalUuid digit
    ((request.field (codePoints "correlation")).field (codePoints "item")) r.item
  lease : SpellsOptionalUuid digit
    ((request.field (codePoints "correlation")).field (codePoints "lease")) r.lease
  source : SpellsMedia digit maxBytes maxSeconds mediaKeys (request.field (codePoints "source"))
    r.source
  recipe : SpellsRecipe (request.field (codePoints "recipe")) r.recipe
  params : request.field (codePoints "params") = .obj r.params
  isObj : (request.field (codePoints "references")).isObj = true
  few : (request.field (codePoints "references")).keys.length ≤ maxReferences
  names : ∀ name ∈ (request.field (codePoints "references")).keys, isParam name = true
  references : List.Forall₂
    (SpellsNamed digit maxBytes maxSeconds (request.field (codePoints "references")))
    (Text.sorted (request.field (codePoints "references")).keys) r.references
  digest : request.field (codePoints "expected_digest") = .str r.expectedDigest.text
  timeout : SpellsTimeout (request.field (codePoints "timeout")) r.timeout

end Spellings

/-! ## Readers -/

section Readers

variable {digit : Char → Option (Fin 10)} {maxBytes : ℤ} {maxSeconds : ℚ} {value entry : WireValue}
  {what : Text}

theorem ofText_eq_some_hex {t : HexText n} : HexText.ofText n text = some t ↔ text = t.text := by
  unfold HexText.ofText
  constructor
  · intro h
    split_ifs at h
    cases h
    rfl
  · rintro rfl
    rw [dif_pos t.valid]

theorem ofText_eq_some_key : Key.ofText text = some k ↔ text = k.text := by
  unfold Key.ofText
  constructor
  · intro h
    split_ifs at h
    cases h
    rfl
  · rintro rfl
    rw [dif_pos k.valid]

theorem hex_eq_some {t : HexText n} :
    value.str?.bind (HexText.ofText n) = some t ↔ value = .str t.text := by
  simp [Option.bind_eq_some_iff, ofText_eq_some_hex]

theorem key_eq_some : value.str?.bind Key.ofText = some k ↔ value = .str k.text := by
  simp [Option.bind_eq_some_iff, ofText_eq_some_key]

theorem kind_eq_some {k : Kind} :
    Kind.ofValue value = some k ↔ value = .str (codePoints k.text) := by
  unfold Kind.ofValue
  constructor
  · intro h
    split_ifs at h with hurgent hpublic
    · cases h
      exact WireValue.isStr_iff.mp hurgent
    · cases h
      exact WireValue.isStr_iff.mp hpublic
  · rintro rfl
    cases k <;> rfl

theorem uuidText_eq_ok {u : UuidNumber} :
    uuidText digit value what = .ok u ↔ SpellsUuid digit value u := by
  simp [uuidText, orRaise_eq_ok, Option.bind_eq_some_iff, SpellsUuid]

theorem inRange_eq_some {number : Decimal.Value} :
    inRange maxSeconds number = some d ↔
      number = .finite d ∧ 0 < d.value ∧ d.value ≤ maxSeconds := by
  cases number with
  | finite e =>
    simp only [inRange, Decimal.Value.finite.injEq]
    constructor
    · intro h
      split_ifs at h with hrange
      cases h
      exact ⟨rfl, hrange⟩
    · rintro ⟨rfl, hrange⟩
      rw [if_pos hrange]
  | infinity negative => simp [inRange]
  | nan => simp [inRange]

theorem decimal_eq_ok :
    decimal digit value what maxSeconds = .ok d ↔ SpellsDuration digit maxSeconds value d := by
  simp only [decimal, orRaise_bind_eq_ok, raiseIf_bind_eq_ok, orRaise_eq_ok, inRange_eq_some,
    WireValue.str?_eq_some, not_lt, SpellsDuration]
  constructor
  · rintro ⟨text, hvalue, hlength, number, hnumber, rfl, hrange⟩
    exact ⟨text, hvalue, hlength, hnumber, hrange⟩
  · rintro ⟨text, hvalue, hlength, hnumber, hrange⟩
    exact ⟨text, hvalue, hlength, _, hnumber, rfl, hrange⟩

theorem count_eq_ok {maximum n : ℤ} :
    count value what maximum = .ok n ↔ value = .int n ∧ 0 < n ∧ n ≤ maximum := by
  simp only [count, orRaise_bind_eq_ok, raiseIf_bind_eq_ok, not_not, WireValue.int?_eq_some]
  constructor
  · rintro ⟨m, hvalue, hrange, ⟨⟩⟩
    exact ⟨hvalue, hrange⟩
  · rintro ⟨hvalue, hrange⟩
    exact ⟨n, hvalue, hrange, rfl⟩

theorem media_eq_ok {m : Media} :
    media digit entry what keys maxBytes maxSeconds = .ok m ↔
      SpellsMedia digit maxBytes maxSeconds keys entry m := by
  simp only [media, raiseIf_bind_eq_ok, orRaise_bind_eq_ok, hex_eq_some,
    bind_eq_ok_of fun _ => uuidText_eq_ok, bind_eq_ok_of fun _ => count_eq_ok,
    bind_eq_ok_of fun _ => decimal_eq_ok, Bool.not_eq_false]
  constructor
  · rintro ⟨hkeys, sha256, hsha256, u, hu, n, hn, d, hd, ⟨⟩⟩
    exact ⟨hkeys, hu, hsha256, hn, hd⟩
  · rintro ⟨hkeys, hu, hsha256, hn, hd⟩
    exact ⟨hkeys, _, hsha256, _, hu, _, hn, _, hd, rfl⟩

theorem checkTimeout_eq_ok {y : Double} :
    checkTimeout x = .ok y ↔ x = y ∧ ∃ q, x = .finite q ∧ 0 < q ∧ q ≤ maxTimeoutSeconds := by
  rw [checkTimeout, raiseIf_bind_eq_ok, not_not]
  cases x with
  | finite q =>
    simp only [Double.gt, Double.zero, Double.eq, decide_eq_true_eq, Double.finite.injEq,
      exists_eq_left', ← le_iff_lt_or_eq, pure, Except.pure, Except.ok.injEq]
    exact and_comm
  | infinity negative => cases negative <;> simp [Double.gt, Double.eq, Double.zero]
  | nan => simp [Double.gt]

theorem timeoutOf_eq_ok : timeoutOf value = .ok x ↔ SpellsTimeout value x := by
  cases value with
  | int n =>
    simp only [timeoutOf, orRaise_bind_eq_ok, checkTimeout_eq_ok, SpellsTimeout]
    constructor
    · rintro ⟨y, hy, rfl, hrange⟩
      exact ⟨.inr ⟨n, rfl, hy⟩, hrange⟩
    · rintro ⟨heq | ⟨m, heq, hx⟩, hrange⟩
      · cases heq
      · cases heq
        exact ⟨x, hx, rfl, hrange⟩
  | float y =>
    simp only [timeoutOf, checkTimeout_eq_ok, SpellsTimeout]
    constructor
    · rintro ⟨rfl, hrange⟩
      exact ⟨.inl rfl, hrange⟩
    · rintro ⟨heq | ⟨m, heq, hx⟩, hrange⟩
      · cases heq
        exact ⟨rfl, hrange⟩
      · cases heq
  | _ => simp [timeoutOf, SpellsTimeout]

theorem recipeOf_eq_ok {r : Recipe} : recipeOf value = .ok r ↔ SpellsRecipe value r := by
  simp only [recipeOf, raiseIf_bind_eq_ok, orRaise_bind_eq_ok, key_eq_some, Bool.not_eq_false]
  constructor
  · rintro ⟨hkeys, k, hk, ⟨⟩⟩
    exact ⟨hkeys, hk, rfl⟩
  · rintro ⟨hkeys, hk, hversion⟩
    exact ⟨hkeys, _, hk, by rw [hversion]; rfl⟩

theorem digestOf_eq_ok {t : HexText 64} : digestOf value = .ok t ↔ value = .str t.text := by
  rw [digestOf, orRaise_eq_ok, hex_eq_some]

theorem checkHead_eq_ok {op : String} {t : HexText 32} :
    checkHead value keys op = .ok t ↔ SpellsHead keys op value t := by
  simp only [checkHead, raiseIf_bind_eq_ok, orRaise_eq_ok, hex_eq_some, not_not, Bool.not_eq_false,
    WireValue.isStr_iff]
  constructor
  · rintro ⟨hkeys, ⟨hversion, hop⟩, hid⟩
    exact ⟨hkeys, hversion, hop, hid⟩
  · rintro ⟨hkeys, hversion, hop, hid⟩
    exact ⟨hkeys, ⟨hversion, hop⟩, hid⟩

theorem optionalUuid_eq_ok {name : String} {u : Option UuidNumber} :
    optionalUuid digit value name = .ok u ↔ SpellsOptionalUuid digit value u := by
  unfold optionalUuid SpellsOptionalUuid
  split_ifs with hnull
  · rw [WireValue.isNull_iff] at hnull
    subst hnull
    simp [SpellsUuid, pure, Except.pure, eq_comm]
  · have hne : value ≠ .null := fun heq => hnull (WireValue.isNull_iff.mpr heq)
    simp only [bind_eq_ok_of fun _ => uuidText_eq_ok, hne, false_and, false_or, pure, Except.pure,
      Except.ok.injEq]
    exact ⟨fun ⟨n, hn, hu⟩ => ⟨n, hu.symm, hn⟩, fun ⟨n, hu, hn⟩ => ⟨n, hn, hu.symm⟩⟩

theorem referenceOf_eq_ok {references : WireValue} {name : Text} {item : Text × Reference} :
    referenceOf digit maxBytes maxSeconds references name = .ok item ↔
      SpellsNamed digit maxBytes maxSeconds references name item := by
  simp only [referenceOf, bind_eq_ok_of fun _ => media_eq_ok, orRaise_bind_eq_ok, key_eq_some,
    bind_eq_ok_of fun _ => uuidText_eq_ok]
  constructor
  · rintro ⟨m, hm, k, hk, u, hu, ⟨⟩⟩
    exact ⟨rfl, hm, hk, hu⟩
  · obtain ⟨name', r⟩ := item
    rintro ⟨rfl, hm, hk, hu⟩
    exact ⟨_, hm, _, hk, _, hu, rfl⟩

/-- A `render` request is returned exactly when the value spells it. -/
theorem parseRequest_eq_ok {request : WireValue} {r : RenderRequest} :
    parseRequest digit maxBytes maxSeconds request = .ok r ↔
      SpellsRender digit maxBytes maxSeconds request r := by
  simp only [parseRequest, bind_eq_ok_of fun _ => checkHead_eq_ok, raiseIf_bind_eq_ok,
    bind_eq_ok_of fun _ => recipeOf_eq_ok, orRaise_bind_eq_ok, WireValue.obj?_eq_some,
    bind_eq_ok_of fun _ => digestOf_eq_ok, bind_eq_ok_of fun _ => timeoutOf_eq_ok,
    bind_eq_ok_of fun _ => mapM_eq_ok fun _ _ => referenceOf_eq_ok,
    bind_eq_ok_of fun _ => optionalUuid_eq_ok, bind_eq_ok_of fun _ => media_eq_ok, not_not,
    Bool.not_eq_false, List.all_eq_true]
  constructor
  · rintro ⟨_, hhead, hcorrelation, _, hrecipe, _, hparams, ⟨hobj, hfew, hnames⟩, _, hdigest,
      _, htimeout, _, hreferences, _, hitem, _, hlease, _, hsource, ⟨⟩⟩
    exact ⟨hhead, hcorrelation, hitem, hlease, hsource, hrecipe, hparams, hobj, hfew, hnames,
      hreferences, hdigest, htimeout⟩
  · intro h
    exact ⟨_, h.head, h.correlation, _, h.recipe, _, h.params, ⟨h.isObj, h.few, h.names⟩, _,
      h.digest, _, h.timeout, _, h.references, _, h.item, _, h.lease, _, h.source, rfl⟩

end Readers

end IsadoraAir.RenderService.Protocol
