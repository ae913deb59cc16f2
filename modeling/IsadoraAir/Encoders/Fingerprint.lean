import IsadoraAir.Encoders.Script
import IsadoraAir.Foundation.Checks

/-!
# The fingerprint of a configuration

The rows of a group are put in order by all their fields, written as JSON and
hashed. Groups with the same rows, in whatever order, have the same fingerprint
and scripts that differ in the order and the keys of the destinations only.
-/

namespace IsadoraAir.Encoders

variable {ds : List Destination} {rows rows' : List RuntimeFields} {script : String}

def encoderConfigFormatVersion : ℤ := 5

/-- A row of the payload; `fields` are in order. -/
def fieldItems (f : RuntimeFields) : List (String × Json) :=
  [("bitrate_kbps", .int f.bitrateKbps), ("format", .str f.format), ("genre", .str f.genre),
    ("host", .str f.host), ("input_device", .str f.inputDevice), ("mount", .str f.mount),
    ("mp3_rate_mode", .str f.mp3RateMode), ("password", .str f.password), ("port", .int f.port),
    ("protocol", .str f.protocol), ("provider", .str f.provider), ("public", .bool f.isPublic),
    ("station_name", .str f.stationName), ("url", .str f.url), ("username", .str f.username)]

/-- `str(value)` of a field. -/
def fieldText : Json → String
  | .int n => String.ofList (Json.intText n)
  | .bool b => if b then "True" else "False"
  | .str s => s
  | _ => ""

def sortKey (f : RuntimeFields) : List String := (fieldItems f).map fun item => fieldText item.2

/-- `rows.sort(key=...)` -/
def sortRows (rows : List RuntimeFields) : List RuntimeFields :=
  rows.insertionSort fun a b => sortKey a ≤ sortKey b

def payload (inputDevice : String) (rows : List RuntimeFields) (diagnostics : Bool) : Json :=
  .obj
    [("audio_gap_diagnostics_enabled", .bool diagnostics),
      ("encoders", .list ((sortRows rows).map fun f => .obj (fieldItems f))),
      ("input_device", .str inputDevice),
      ("version", .int encoderConfigFormatVersion)]

/-- The hash is taken of the payload's text, which is ASCII. -/
def computeFingerprint {δ : Type} (hash : List Char → δ) (inputDevice : String)
    (encoders : List Encoder) (diagnostics : Bool) : δ :=
  hash (payload inputDevice (encoders.map Encoder.toRuntimeFields) diagnostics).text

/-! ## Order -/

theorem fieldItems_injective : Function.Injective fieldItems := by
  intro a b h
  obtain ⟨⟩ := a
  obtain ⟨⟩ := b
  simp only [fieldItems, List.cons.injEq, Prod.mk.injEq, true_and, Json.int.injEq, Json.str.injEq,
    Json.bool.injEq, Nat.cast_inj, and_true] at h
  simp only [RuntimeFields.mk.injEq]
  tauto

theorem intText_injective : Function.Injective Json.intText := by
  intro m n h
  have hends : Json.Ends [] := by simp [Json.Ends]
  exact (Json.intText_append hends hends (by rw [h])).1

theorem fieldText_bool {a b : Bool} : fieldText (.bool a) = fieldText (.bool b) ↔ a = b := by
  cases a <;> cases b <;> simp [fieldText]

theorem fieldText_int {m n : ℤ} : fieldText (.int m) = fieldText (.int n) ↔ m = n := by
  simp only [fieldText, String.ofList_inj]
  exact intText_injective.eq_iff

/-- Rows tie only when they are the same. -/
theorem sortKey_injective : Function.Injective sortKey := by
  intro a b h
  obtain ⟨⟩ := a
  obtain ⟨⟩ := b
  simp only [sortKey, fieldItems, List.map_cons, List.map_nil, List.cons.injEq, fieldText_int,
    fieldText_bool, Nat.cast_inj, and_true] at h
  simp only [fieldText] at h
  simp only [RuntimeFields.mk.injEq]
  tauto

theorem sortRows_perm (rows : List RuntimeFields) : (sortRows rows).Perm rows :=
  List.perm_insertionSort _ rows

/-- The order of the rows does not matter. -/
theorem sortRows_eq (h : rows.Perm rows') : sortRows rows = sortRows rows' := by
  have htotal : Std.Total fun a b : RuntimeFields => sortKey a ≤ sortKey b :=
    ⟨fun a b => le_total (sortKey a) (sortKey b)⟩
  have htrans : IsTrans RuntimeFields fun a b => sortKey a ≤ sortKey b :=
    ⟨fun _ _ _ hab hbc => le_trans hab hbc⟩
  have hperm : (sortRows rows).Perm (sortRows rows') :=
    (sortRows_perm rows).trans (h.trans (sortRows_perm rows').symm)
  refine hperm.eq_of_pairwise ?_ (List.pairwise_insertionSort _ rows)
    (List.pairwise_insertionSort _ rows')
  intro a b _ _ hab hba
  exact sortKey_injective (le_antisymm hab hba)

/-! ## The payload -/

theorem plain_row (f : RuntimeFields) : Json.Plain (.obj (fieldItems f)) := by
  refine ⟨?_, ?_⟩
  · show List.Pairwise (· ≤ ·) ["bitrate_kbps", "format", "genre", "host", "input_device", "mount",
      "mp3_rate_mode", "password", "port", "protocol", "provider", "public", "station_name", "url",
      "username"]
    decide
  · simp [Json.plainItems_iff, fieldItems, Json.Plain]

theorem plain_payload (inputDevice : String) (rows : List RuntimeFields) (diagnostics : Bool) :
    Json.Plain (payload inputDevice rows diagnostics) := by
  refine ⟨?_, ?_⟩
  · show List.Pairwise (· ≤ ·) ["audio_gap_diagnostics_enabled", "encoders", "input_device",
      "version"]
    decide
  · refine ⟨trivial, ?_, trivial, trivial, trivial⟩
    refine Json.plainList_iff.mpr fun row hrow => ?_
    obtain ⟨f, -, rfl⟩ := List.mem_map.mp hrow
    exact plain_row f

theorem payload_injective {inputDevice : String} {diagnostics : Bool}

    (h : payload inputDevice rows diagnostics = payload inputDevice rows' diagnostics) :
    sortRows rows = sortRows rows' := by
  simp only [payload, Json.obj.injEq, List.cons.injEq, Prod.mk.injEq, true_and, Json.list.injEq,
    and_true] at h
  refine List.map_injective_iff.mpr ?_ h
  intro a b hab
  exact fieldItems_injective (Json.obj.inj hab)

section Hash

variable {δ : Type} {hash : List Char → δ} {inputDevice : String} {diagnostics : Bool}
  {encoders encoders' : List Encoder}

theorem computeFingerprint_perm
    (h : (encoders.map Encoder.toRuntimeFields).Perm (encoders'.map Encoder.toRuntimeFields)) :
    computeFingerprint hash inputDevice encoders diagnostics =
      computeFingerprint hash inputDevice encoders' diagnostics := by
  rw [computeFingerprint, computeFingerprint, payload, payload, sortRows_eq h]

/-- Without collisions of the hash, groups with the same fingerprint have the same rows. -/
theorem computeFingerprint_eq_iff (hinj : Function.Injective hash) :
    computeFingerprint hash inputDevice encoders diagnostics =
        computeFingerprint hash inputDevice encoders' diagnostics ↔
      (encoders.map Encoder.toRuntimeFields).Perm (encoders'.map Encoder.toRuntimeFields) := by
  refine ⟨fun h => ?_, computeFingerprint_perm⟩
  have hpayload := Json.text_injective (plain_payload _ _ _) (plain_payload _ _ _) (hinj h)
  have hrows := payload_injective hpayload
  exact (sortRows_perm _).symm.trans (hrows ▸ sortRows_perm _)

end Hash

/-! ## Scripts -/

/-- The output of a row that can be rendered. -/
def outputOf (f : RuntimeFields) : String := (outputExpr f "source").toOption.getD ""

def Renders (f : RuntimeFields) : Prop := ∃ output, outputExpr f "source" = .ok output

theorem destinations_of_ok {encoders : List Encoder} {index : ℕ}
    (h : (encoders.zipIdx index).mapM destination = .ok ds) :
    ds.map Destination.output = (encoders.map Encoder.toRuntimeFields).map outputOf ∧
      ∀ f ∈ encoders.map Encoder.toRuntimeFields, Renders f := by
  induction encoders generalizing index ds with
  | nil =>
    cases h
    exact ⟨rfl, by simp⟩
  | cons e encoders ih =>
    rw [List.zipIdx_cons, List.mapM_cons] at h
    obtain ⟨d, hd, hrest⟩ := bind_eq_ok.mp h
    obtain ⟨output, houtput, ⟨⟩⟩ := bind_eq_ok.mp hd
    obtain ⟨ds', hds, ⟨⟩⟩ := bind_eq_ok.mp hrest
    obtain ⟨houtputs, hrenders⟩ := ih hds
    have hfirst : outputOf e.toRuntimeFields = output := by
      rw [outputOf, houtput]
      rfl
    refine ⟨?_, ?_⟩
    · rw [List.map_cons, List.map_cons, List.map_cons, houtputs, hfirst]
    · intro f hf
      rcases List.mem_cons.mp hf with rfl | hf
      · exact ⟨output, houtput⟩
      · exact hrenders f hf

theorem exists_destinations {encoders : List Encoder} (index : ℕ)
    (h : ∀ f ∈ encoders.map Encoder.toRuntimeFields, Renders f) :
    ∃ ds, (encoders.zipIdx index).mapM destination = .ok ds := by
  induction encoders generalizing index with
  | nil => exact ⟨[], rfl⟩
  | cons e encoders ih =>
    obtain ⟨output, houtput⟩ := h e.toRuntimeFields (by simp)
    obtain ⟨ds, hds⟩ := ih (index + 1) fun f hf => h f (by simp_all)
    have hfirst : destination (e, index) = .ok ⟨destKey e index, output⟩ := by
      rw [destination, houtput]
      rfl
    exact ⟨_, by rw [List.zipIdx_cons, List.mapM_cons, hfirst, hds]; rfl⟩

/-- Rows with the same fields are rendered to the same outputs, or not at all. -/
theorem destinations_perm {encoders encoders' : List Encoder}
    (h : (encoders.map Encoder.toRuntimeFields).Perm (encoders'.map Encoder.toRuntimeFields))
    (hds : encoders.zipIdx.mapM destination = .ok ds) :
    ∃ ds', encoders'.zipIdx.mapM destination = .ok ds' ∧
      (ds.map Destination.output).Perm (ds'.map Destination.output) := by
  obtain ⟨houtputs, hrenders⟩ := destinations_of_ok hds
  obtain ⟨ds', hds'⟩ := exists_destinations 0 fun f hf => hrenders f (h.mem_iff.mpr hf)
  refine ⟨ds', hds', ?_⟩
  rw [houtputs, (destinations_of_ok hds').1]
  exact h.map outputOf

/-- The scripts differ at most in the generation, and in the order and the keys of the
destinations; or neither can be rendered. -/
def SameScript (a b : Except ScriptError String) : Prop :=
  (∃ hostAircheck diagnostics cfg device path generation generation' ds ds',
    a = .ok (scriptText (scriptLines hostAircheck diagnostics cfg device generation path ds)) ∧
    b = .ok (scriptText (scriptLines hostAircheck diagnostics cfg device generation' path ds')) ∧
    (ds.map Destination.output).Perm (ds'.map Destination.output)) ∨
  (∃ e, a = .error e) ∧ ∃ e, b = .error e

/-- The text can be embedded in a script. -/
def Embeds (value : String) : Prop := ∃ quoted, liqString value = .ok quoted

section Build

variable {isAlnum : Char → Bool} {inputDevice generation generation' : String}
  {encoders encoders' : List Encoder} {hostAircheck diagnostics : Bool} {cfg : AircheckConfig}

theorem build_eq_ok :
    buildLiquidsoapScript isAlnum inputDevice encoders hostAircheck generation diagnostics cfg =
        .ok script ↔
      ∃ device, liqString inputDevice = .ok device ∧
      ∃ quoted, liqString generation = .ok quoted ∧
      ∃ path, liqString (audioStatePath isAlnum inputDevice) = .ok path ∧
      ∃ ds, encoders.zipIdx.mapM destination = .ok ds ∧
        scriptText (scriptLines hostAircheck diagnostics cfg device quoted path ds) = script := by
  simp only [buildLiquidsoapScript, bind_eq_ok, pure, Except.pure, Except.ok.injEq]

/-- If one group can be rendered, so can the other, with the same outputs. -/
theorem build_perm
    (h : (encoders.map Encoder.toRuntimeFields).Perm (encoders'.map Encoder.toRuntimeFields))
    (hgeneration : Embeds generation')
    (hscript : buildLiquidsoapScript isAlnum inputDevice encoders hostAircheck generation
      diagnostics cfg = .ok script) :
    SameScript (.ok script) (buildLiquidsoapScript isAlnum inputDevice encoders' hostAircheck
      generation' diagnostics cfg) := by
  obtain ⟨device, hdevice, quoted, -, path, hpath, ds, hds, rfl⟩ := build_eq_ok.mp hscript
  obtain ⟨quoted', hquoted⟩ := hgeneration
  obtain ⟨ds', hds', hperm⟩ := destinations_perm h hds
  exact .inl ⟨hostAircheck, diagnostics, cfg, device, path, quoted, quoted', ds, ds', rfl,
    build_eq_ok.mpr ⟨device, hdevice, quoted', hquoted, path, hpath, ds', hds', rfl⟩, hperm⟩

theorem SameScript.symm {a b : Except ScriptError String} (h : SameScript a b) :
    SameScript b a := by
  rcases h with ⟨host, diag, cfg, device, path, g, g', ds, ds', ha, hb, hperm⟩ | ⟨ha, hb⟩
  · exact .inl ⟨host, diag, cfg, device, path, g', g, ds', ds, hb, ha, hperm.symm⟩
  · exact .inr ⟨hb, ha⟩

theorem build_sameScript
    (h : (encoders.map Encoder.toRuntimeFields).Perm (encoders'.map Encoder.toRuntimeFields))
    (hgeneration : Embeds generation) (hgeneration' : Embeds generation') :
    SameScript
      (buildLiquidsoapScript isAlnum inputDevice encoders hostAircheck generation diagnostics cfg)
      (buildLiquidsoapScript isAlnum inputDevice encoders' hostAircheck generation' diagnostics
        cfg) := by
  cases hscript : buildLiquidsoapScript isAlnum inputDevice encoders hostAircheck generation
      diagnostics cfg with
  | ok script => exact build_perm h hgeneration' hscript
  | error e =>
    cases hscript' : buildLiquidsoapScript isAlnum inputDevice encoders' hostAircheck generation'
        diagnostics cfg with
    | error e' => exact .inr ⟨⟨e, rfl⟩, e', rfl⟩
    | ok script' =>
      have hsame := build_perm h.symm hgeneration hscript'
      rw [hscript] at hsame
      exact hsame.symm

end Build

/-! ## What the fingerprint covers -/

/-- Every field that affects the running script. -/
def Encoder.runtime (e : Encoder) : Bool × RuntimeFields := (e.enabled, e.toRuntimeFields)

theorem map_runtime {encoders : List Encoder} (h : ∀ e ∈ encoders, e.enabled = true) :
    encoders.map Encoder.runtime =
      (encoders.map Encoder.toRuntimeFields).map (Prod.mk true) := by
  rw [List.map_map, List.map_congr_left]
  intro e he
  simp [Encoder.runtime, h e he]

/-- Groups of enabled rows have the same fingerprint exactly when they have the same rows, in any
order, and then their scripts stand in for each other. -/
theorem fingerprint_covers {δ : Type} (hash : List Char → δ) (hinj : Function.Injective hash)
    (inputDevice : String) (diagnostics : Bool) (encoders encoders' : List Encoder)
    (henabled : ∀ e ∈ encoders, e.enabled = true) (henabled' : ∀ e ∈ encoders', e.enabled = true) :
    (computeFingerprint hash inputDevice encoders diagnostics =
        computeFingerprint hash inputDevice encoders' diagnostics ↔
      (encoders.map Encoder.runtime).Perm (encoders'.map Encoder.runtime)) ∧
    (encoders.Perm encoders' → computeFingerprint hash inputDevice encoders diagnostics =
      computeFingerprint hash inputDevice encoders' diagnostics) ∧
    (computeFingerprint hash inputDevice encoders diagnostics =
        computeFingerprint hash inputDevice encoders' diagnostics →
      ∀ isAlnum hostAircheck generation generation' cfg, Embeds generation → Embeds generation' →
        SameScript
          (buildLiquidsoapScript isAlnum inputDevice encoders hostAircheck generation diagnostics
            cfg)
          (buildLiquidsoapScript isAlnum inputDevice encoders' hostAircheck generation' diagnostics
            cfg)) := by
  refine ⟨?_, fun hperm => computeFingerprint_perm (hperm.map _), ?_⟩
  · rw [computeFingerprint_eq_iff hinj, map_runtime henabled, map_runtime henabled',
      List.map_perm_map_iff (Prod.mk_right_injective true)]
  · intro hfingerprint isAlnum hostAircheck generation generation' cfg hgeneration hgeneration'
    exact build_sameScript ((computeFingerprint_eq_iff hinj).mp hfingerprint) hgeneration
      hgeneration'

def sampleEncoder (id : ℤ) (protocol mount : String) : Encoder where
  protocol := protocol
  host := "stream.example"
  port := 8000
  mount := mount
  username := "source"
  password := "se\"cret"
  format := "aac"
  bitrateKbps := 64
  inputDevice := "airtap"
  stationName := "Station"
  genre := ""
  url := ""
  isPublic := false
  provider := "generic"
  mp3RateMode := "auto"
  id := some id
  enabled := true

theorem fingerprint_covers_swapped :
    computeFingerprint id "airtap"
        [sampleEncoder 1 "icecast" "/air", sampleEncoder 2 "shoutcast2" "/4"] false =
      computeFingerprint id "airtap"
        [sampleEncoder 7 "shoutcast2" "/4", sampleEncoder 8 "icecast" "/air"] false ∧
    SameScript
      (buildLiquidsoapScript Char.isAlphanum "airtap"
        [sampleEncoder 1 "icecast" "/air", sampleEncoder 2 "shoutcast2" "/4"] true "a1" false
        ⟨"mp3", 192⟩)
      (buildLiquidsoapScript Char.isAlphanum "airtap"
        [sampleEncoder 7 "shoutcast2" "/4", sampleEncoder 8 "icecast" "/air"] true "b2" false
        ⟨"mp3", 192⟩) := by
  obtain ⟨hiff, -, hscript⟩ := fingerprint_covers id Function.injective_id "airtap" false
    [sampleEncoder 1 "icecast" "/air", sampleEncoder 2 "shoutcast2" "/4"]
    [sampleEncoder 7 "shoutcast2" "/4", sampleEncoder 8 "icecast" "/air"]
    (by simp [sampleEncoder]) (by simp [sampleEncoder])
  have hsame := hiff.mpr (List.Perm.swap _ _ [])
  exact ⟨hsame, hscript hsame _ _ _ _ _ ⟨_, rfl⟩ ⟨_, rfl⟩⟩

end IsadoraAir.Encoders
