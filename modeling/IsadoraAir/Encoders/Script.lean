import IsadoraAir.Foundation.JsonText
import Mathlib.Data.List.Infix

/-!
# The script of an encoder group

One source, one output for each encoder that reads it. Texts that are embedded
are quoted; a text that could be taken for an expression is refused.
-/

namespace IsadoraAir.Encoders

/-- The fields that the script or its qualification depends on, without `enabled`. -/
structure RuntimeFields where
  protocol : String
  host : String
  port : ℕ
  mount : String
  username : String
  password : String
  format : String
  bitrateKbps : ℕ
  inputDevice : String
  stationName : String
  genre : String
  url : String
  isPublic : Bool
  provider : String
  mp3RateMode : String
  deriving DecidableEq

/-- A row; one that was never saved has no identifier. -/
structure Encoder extends RuntimeFields where
  id : Option ℤ
  enabled : Bool
  deriving DecidableEq

/-- How rendering fails: a text is not safe to embed, or a stream has no identifier. -/
inductive ScriptError where
  | valueError
  | configValidationError
  deriving DecidableEq

/-- What an aircheck is recorded as, with its bitrate in kbps. -/
structure AircheckConfig where
  audioFormat : String
  effectiveKbps : ℤ

def fdkaacPath : String := "/usr/local/bin/fdkaac"

def telnetHost : String := "127.0.0.1"

def telnetPort : String := "1234"

def aircheckCurrentPath : String := "/run/isadoraair/aircheck-current.audio"

def aircheckOutputId : String := "aircheck"

def blankDetectThresholdDb : String := "-40.0"

def nowPlayingPath : String := "/run/isadoraair/now_playing.json"

def postStereotoolDiagPath : String := "/run/isadoraair/post_stereotool_audio.json"

def transientThresholdMs : String := "8.0"

/-! ## Embedded texts -/

def liqEscape (c : Char) : List Char :=
  if c = '\\' then ['\\', '\\'] else if c = '"' then ['\\', '"'] else [c]

/-- A text in quotation marks. -/
def liqQuote (value : String) : String :=
  "\"" ++ String.ofList (value.toList.flatMap liqEscape) ++ "\""

/-- `_liq_string(value)`; `#{` begins an interpolation, which cannot be escaped. -/
def liqString (value : String) : Except ScriptError String :=
  if ['#', '\x7b'] <:+: value.toList then .error .valueError else .ok (liqQuote value)

/-- `normalize_shoutcast_sid(raw)` -/
def normalizeShoutcastSid (raw : String) : Except ScriptError ℕ :=
  let text := trim (· = ' ') raw.toList
  let digits := if text.head? = some '/' then text.tail else text
  if digits ≠ [] ∧ digits.all Char.isDigit ∧ 0 < Nat.ofDigitChars 10 digits 0 then
    .ok (Nat.ofDigitChars 10 digits 0)
  else .error .configValidationError

def effectiveMp3RateMode (f : RuntimeFields) : String :=
  if f.mp3RateMode = "cbr" ∨ f.mp3RateMode = "abr" then f.mp3RateMode
  else if 192 ≤ f.bitrateKbps then "cbr" else "abr"

/-! ## Formats -/

/-- The profile of an AAC stream. -/
def aacProfile (kbps : ℤ) : String := if kbps ≤ 64 then "29" else if kbps ≤ 96 then "5" else "2"

/-- The external AAC encoder; its command line holds numbers only. -/
def fdkaacBlock (kbps : ℤ) : String :=
  let command := fdkaacPath ++ " -R --raw-channels 2 --raw-rate 44100 --raw-format S16L -p " ++
    aacProfile kbps ++ " -b " ++ toString (kbps * 1000) ++ " -f 2 -a 1 -S -o - -"
  "%external(process=" ++ liqQuote command ++ ", header=false)"

def mp3Cbr (kbps : ℤ) : String := "%mp3(bitrate=" ++ toString kbps ++ ")"

def mp3Abr (kbps : ℤ) : String := "%mp3.abr(bitrate=" ++ toString kbps ++ ", internal_quality=0)"

def formatBlock (f : RuntimeFields) : String :=
  if f.format = "mp3" then
    if effectiveMp3RateMode f = "cbr" then mp3Cbr f.bitrateKbps else mp3Abr f.bitrateKbps
  else if f.format = "aac" then fdkaacBlock f.bitrateKbps
  else "%vorbis(bitrate=" ++ toString f.bitrateKbps ++ ")"

def aircheckFormatBlock (cfg : AircheckConfig) : String :=
  if cfg.audioFormat = "he_aac" then fdkaacBlock cfg.effectiveKbps
  else if cfg.audioFormat = "mp3" then
    if 192 ≤ cfg.effectiveKbps then mp3Cbr cfg.effectiveKbps else mp3Abr cfg.effectiveKbps
  else if cfg.audioFormat = "flac" then "%flac"
  else if cfg.audioFormat = "wav" then "%wav"
  else mp3Cbr 192

/-! ## Destinations -/

/-- A destination of the group: the key of its variables, and its output. -/
structure Destination where
  key : String
  output : String

/-- The output operator of a row, applied to the source. -/
def outputExpr (f : RuntimeFields) (sourceVar : String) : Except ScriptError String := do
  let host ← liqString f.host
  let password ← liqString f.password
  let name ← liqString f.stationName
  let genre ← liqString f.genre
  let url ← liqString f.url
  let formatArg :=
    if f.format = "aac" then ", format=\"audio/aacp\", send_icy_metadata=true" else ""
  let common := "host=" ++ host ++ ", port=" ++ toString f.port ++ ", password=" ++ password ++
    ", name=" ++ name ++ ", genre=" ++ genre ++ ", url=" ++ url ++ ", public=" ++
    (if f.isPublic then "true" else "false") ++ formatArg
  if f.protocol = "icecast" then
    let mount ← liqString f.mount
    let user ← liqString f.username
    return "output.icecast(" ++ formatBlock f ++ ", " ++ common ++ ", mount=" ++ mount ++
      ", user=" ++ user ++ ", " ++ sourceVar ++ ")"
  else if f.protocol = "shoutcast2" then
    let sid ← normalizeShoutcastSid f.mount
    return "output.shoutcast(" ++ formatBlock f ++ ", " ++ common ++ ", icy_id=" ++
      toString sid ++ ", " ++ sourceVar ++ ")"
  else
    return "output.shoutcast(" ++ formatBlock f ++ ", " ++ common ++ ", " ++ sourceVar ++ ")"

def destKey (e : Encoder) (index : ℕ) : String :=
  match e.id with
  | some n => toString n
  | none => "idx" ++ toString index

def destination (item : Encoder × ℕ) : Except ScriptError Destination := do
  let output ← outputExpr item.1.toRuntimeFields "source"
  return ⟨destKey item.1 item.2, output⟩

/-- The variables that hold the state of a destination. -/
def destRefs (d : Destination) : List String :=
  ["dest_connected_" ++ d.key ++ " = ref(null)", "dest_since_" ++ d.key ++ " = ref(null)"]

/-- The state of all destinations, as a list of records. -/
def destinationsSnapshotExpr (ds : List Destination) : String :=
  if ds = [] then "([] : [\x7bid: string, connected: bool?, since: float?\x7d])"
  else
    "[" ++ ", ".intercalate (ds.map fun d => "\x7bid = " ++ liqQuote d.key ++
      ", connected = dest_connected_" ++ d.key ++ "(), since = dest_since_" ++ d.key ++
      "()\x7d") ++ "]"

/-- The output of a destination, and what is done when it connects. -/
def outputBlock (d : Destination) : List String :=
  let output := "output_" ++ d.key
  [output ++ " = " ++ d.output,
    "def dest_connect_" ++ d.key ++ "() =",
    "  dest_connected_" ++ d.key ++ ".set(true)",
    "  dest_since_" ++ d.key ++ ".set(time())",
    "  write_state(last_status(), last_is_blank(), since_ts())",
    "end",
    "def dest_disconnect_" ++ d.key ++ "() =",
    "  dest_connected_" ++ d.key ++ ".set(false)",
    "  dest_since_" ++ d.key ++ ".set(time())",
    "  write_state(last_status(), last_is_blank(), since_ts())",
    "end",
    output ++ ".on_connect(synchronous=false, dest_connect_" ++ d.key ++ ")",
    output ++ ".on_disconnect(synchronous=false, dest_disconnect_" ++ d.key ++ ")",
    ""]

/-! ## The script -/

def telnetServerBlock : List String :=
  ["settings.server.telnet.set(true)",
    "settings.server.telnet.bind_addr.set(" ++ liqQuote telnetHost ++ ")",
    "settings.server.telnet.port.set(" ++ telnetPort ++ ")",
    ""]

def postStereotoolLatchLines : List String :=
  ["post_diag_expected_frame_ms = frame.duration() * 1000.0",
    "post_diag_last_frame_at = ref(0.0)",
    "post_diag_frame_count = ref(0)",
    "post_diag_frame_interval_ms = ref(0.0)",
    "post_diag_arrival_jitter_count = ref(0)",
    "post_diag_last_arrival_jitter_at = ref(0.0)",
    "post_diag_last_arrival_jitter_late_ms = ref(0.0)",
    "post_diag_max_arrival_jitter_ms = ref(0.0)",
    "def observe_post_stereotool_frame(now) =",
    "  previous_frame_at = post_diag_last_frame_at()",
    "  frame_interval_ms = if previous_frame_at > 0.0 then",
    "    (now - previous_frame_at) * 1000.0",
    "  else",
    "    0.0",
    "  end",
    "  post_diag_last_frame_at.set(now)",
    "  post_diag_frame_count.set(post_diag_frame_count() + 1)",
    "  post_diag_frame_interval_ms.set(frame_interval_ms)",
    "  late_by_ms = frame_interval_ms - post_diag_expected_frame_ms",
    "  if previous_frame_at > 0.0 and late_by_ms >= " ++ transientThresholdMs ++ " then",
    "    post_diag_arrival_jitter_count.set(post_diag_arrival_jitter_count() + 1)",
    "    post_diag_last_arrival_jitter_at.set(now)",
    "    post_diag_last_arrival_jitter_late_ms.set(late_by_ms)",
    "    post_diag_max_arrival_jitter_ms.set(max(post_diag_max_arrival_jitter_ms(), late_by_ms))",
    "  end",
    "end"]

def postStereotoolDiagLines : List String :=
  ["def observe_post_stereotool_frame_callback() =",
    "  observe_post_stereotool_frame(time())",
    "end",
    "def write_post_stereotool_diag() =",
    "  now = time()",
    "  try",
    "    state = json.stringify(compact=true, \x7b",
    "      timestamp = now,",
    "      last_frame_at = post_diag_last_frame_at(),",
    "      frame_interval_ms = post_diag_frame_interval_ms(),",
    "      expected_frame_ms = post_diag_expected_frame_ms,",
    "      frame_count = post_diag_frame_count(),",
    "      arrival_jitter_count = post_diag_arrival_jitter_count(),",
    "      last_arrival_jitter_at = post_diag_last_arrival_jitter_at(),",
    "      last_arrival_jitter_late_ms = post_diag_last_arrival_jitter_late_ms(),",
    "      max_arrival_jitter_ms = post_diag_max_arrival_jitter_ms(),",
    "      source_time = source.time(),",
    "      levels_db = source.dB_levels(),",
    "      input_device = input_device_str,",
    "      pid = process.pid(),",
    "      generation = generation,",
    "    \x7d)",
    "    file.write(data=state, atomic=true, temp_dir=\"/run/isadoraair\", " ++
      liqQuote postStereotoolDiagPath ++ ")",
    "  catch _ do",
    "    ()",
    "  end",
    "end",
    "source.on_frame(before=false, synchronous=true, observe_post_stereotool_frame_callback)",
    "thread.run(every=0.05, fast=false, write_post_stereotool_diag)",
    ""]

def aircheckBlock (cfg : AircheckConfig) : List String :=
  ["",
    "# --- Aircheck output.file (Start/Stop cut files via telnet reopen) ---",
    "aircheck_output = output.file(",
    "  id=" ++ liqQuote aircheckOutputId ++ ",",
    "  fallible=true,",
    "  flush=true,",
    "  reopen_delay=\x7b0.\x7d,",
    "  " ++ aircheckFormatBlock cfg ++ ",",
    "  " ++ liqQuote aircheckCurrentPath ++ ",",
    "  source",
    ")",
    "def aircheck_reopen_handler(_) =",
    "  aircheck_output.reopen()",
    "  \"reopened\"",
    "end",
    "server.register(namespace=" ++ liqQuote aircheckOutputId ++
      ", \"reopen\", aircheck_reopen_handler)"]

def sourceLines (device : String) : List String :=
  ["source = input.alsa(buffer_size=1.0, device=" ++ device ++ ")",
    "source = blank.detect(threshold=" ++ blankDetectThresholdDb ++
      ", max_blank=20.0, min_noise=0.5, source)",
    ""]

def stateRefLines : List String :=
  ["",
    "last_status = ref(\"starting\")",
    "last_is_blank = ref(null)",
    "audio_observed = ref(false)",
    "since_ts = ref(time())"]

/-- The function that writes the state; it knows all destinations. -/
def writeStateLines (path : String) (ds : List Destination) : List String :=
  ["def write_state(status, is_blank, since) =",
    "  file_ok = if file.exists(" ++ path ++ ") then",
    "    (try",
    "      current_text = file.contents(" ++ path ++ ")",
    "      has_generation_key = string.contains(substring=\"\\\"generation\\\":\", current_text)",
    "      matches_ours = " ++
      "string.contains(substring=\"\\\"generation\\\":\\\"#\x7bgeneration\x7d\\\"\", current_text)",
    "        or string.contains(substring=\"\\\"generation\\\": " ++
      "\\\"#\x7bgeneration\x7d\\\"\", current_text)",
    "      matches_ours or (not has_generation_key)",
    "    catch _ do",
    "      true",
    "    end : bool)",
    "  else",
    "    true",
    "  end",
    "  if file_ok then",
    "    last_status.set(status)",
    "    last_is_blank.set(is_blank)",
    "    since_ts.set(since)",
    "    destinations = " ++ destinationsSnapshotExpr ds] ++
  ["    state = json.stringify(compact=true, \x7b",
    "      status = status,",
    "      is_blank = is_blank,",
    "      audio_observed = audio_observed(),",
    "      input_device = input_device_str,",
    "      pid = process.pid(),",
    "      generation = generation,",
    "      started_at = started_at,",
    "      since = since,",
    "      timestamp = time(),",
    "      destinations = destinations,",
    "    \x7d)",
    "    file.write(data=state, atomic=true, temp_dir=\"/run/isadoraair\", " ++ path ++ ")",
    "  end",
    "end",
    ""]

def transitionLines : List String :=
  ["real_transition_seen = ref(false)",
    "source.on_blank(synchronous=false, \x7b",
    "  real_transition_seen.set(true)",
    "  write_state(\"silent\", true, time())",
    "\x7d)",
    "source.on_noise(synchronous=false, \x7b",
    "  real_transition_seen.set(true)",
    "  audio_observed.set(true)",
    "  write_state(\"audio_ok\", false, time())",
    "\x7d)",
    "write_state(\"starting\", null, time())"]

def classifyLines : List String :=
  ["classify_last_status = ref(\"\")",
    "classify_attempts = ref(0)",
    "def classify_startup() =",
    "  if (not real_transition_seen()) and (classify_attempts() < 20) then",
    "    classify_attempts.set(classify_attempts() + 1)",
    "    levels = source.dB_levels()",
    "    if levels != null then",
    "      lv = null.get(levels)",
    "      max_level = list.fold(fun (acc, x) -> if x > acc then x else acc end, -1000.0, lv)",
    "      new_status = if max_level > " ++ blankDetectThresholdDb ++
      " then \"audio_ok\" else \"silent\" end",
    "      if new_status != classify_last_status() then",
    "        classify_last_status.set(new_status)",
    "        if new_status == \"audio_ok\" then",
    "          audio_observed.set(true)",
    "          write_state(\"audio_ok\", false, time())",
    "        else",
    "          write_state(\"silent\", true, time())",
    "        end",
    "      end",
    "    end",
    "  end",
    "end",
    "thread.run(delay=1.0, every=0.5, classify_startup)",
    "",
    "thread.run(every=60., \x7bwrite_state(last_status(), last_is_blank(), since_ts())\x7d)",
    ""]

def nowPlayingLines : List String :=
  ["def update_now_playing() =",
    "  try",
    "    content = file.contents(" ++ liqQuote nowPlayingPath ++ ")",
    "    parsed = metadata.json.parse(content)",
    "    source.insert_metadata(new_track=true, parsed)",
    "  catch err do",
    "    print(\"update_now_playing: skipping malformed read (#\x7berr\x7d)\")",
    "  end",
    "end",
    "file.watch(" ++ liqQuote nowPlayingPath ++ ", update_now_playing)",
    "update_now_playing()",
    ""]

/-- The lines of a script. What the destinations add stands in three places. -/
def scriptLines (hostAircheck diagnostics : Bool) (cfg : AircheckConfig)
    (device generation path : String) (ds : List Destination) : List String :=
  (if hostAircheck then telnetServerBlock else []) ++ sourceLines device ++
    ["generation = " ++ generation] ++
    ["input_device_str = " ++ device, "started_at = time()", ""] ++
    ds.flatMap destRefs ++ stateRefLines ++ writeStateLines path ds ++ transitionLines ++
    classifyLines ++ nowPlayingLines ++
    (if hostAircheck ∧ diagnostics then postStereotoolLatchLines ++ postStereotoolDiagLines
      else []) ++
    ds.flatMap outputBlock ++ (if hostAircheck then aircheckBlock cfg else [])

/-- `"\n".join(lines) + "\n"` -/
def scriptText (lines : List String) : String := "\n".intercalate lines ++ "\n"

/-- The state file of a device; which characters are letters or digits is up to Unicode. -/
def audioStatePath (isAlnum : Char → Bool) (device : String) : String :=
  "/run/isadoraair/liquidsoap_silence_" ++
    device.map (fun c => if isAlnum c then c else '_') ++ ".json"

def buildLiquidsoapScript (isAlnum : Char → Bool) (inputDevice : String)
    (encoders : List Encoder) (hostAircheck : Bool) (generation : String) (diagnostics : Bool)
    (cfg : AircheckConfig) : Except ScriptError String := do
  let device ← liqString inputDevice
  let generation ← liqString generation
  let path ← liqString (audioStatePath isAlnum inputDevice)
  let ds ← encoders.zipIdx.mapM destination
  return scriptText (scriptLines hostAircheck diagnostics cfg device generation path ds)

end IsadoraAir.Encoders
