import IsadoraAir.Foundation.Checks
import IsadoraAir.RenderService.Requests
import IsadoraAir.RenderService.Wire

/-!
# The wire protocol

A request is checked for its shape and copied in normal form. An identifier
is kept as its number of 128 bits, of which the copy holds the canonical text.
-/

namespace IsadoraAir.RenderService.Protocol

/-- What a parser raises. -/
inductive Error where
  | protocolError (code : String) (message : Text)
  | overflowError
  | indexError
  deriving DecidableEq

def invalid (message : Text) : Error := .protocolError "invalid_request" message

def inputOrder (message : String) : Error := .protocolError "input_order" (codePoints message)

/-- A text that is built into a message. -/
def wrong (what : Text) (rest : String) : Error := invalid (what ++ codePoints rest)

def requestKeys : List String :=
  ["v", "op", "request_id", "correlation", "source", "recipe", "params", "references",
    "expected_digest", "timeout"]

def mediaKeys : List String := ["media", "sha256", "bytes", "duration_seconds"]

def referenceKeys : List String := mediaKeys ++ ["key", "reference"]

def assembleKeys : List String :=
  ["v", "op", "request_id", "correlation", "recipe", "inputs", "expected_digest", "timeout"]

def stingerKeys : List String := mediaKeys ++ ["role", "key", "reference"]

def messageKeys : List String := mediaKeys ++ ["role", "message", "kind"]

def maxAssembleMessages : ℕ := 24

def maxAssembleInputSeconds : ℚ := 1200

def maxAssembleTotalSeconds : ℚ := 1200

def maxTimeoutSeconds : ℚ := 3600

/-! ## What a request holds -/

def isLowerHex : CodePoint → Bool
  | .scalar c => c.isDigit || ('a' ≤ c && c ≤ 'f')
  | .surrogate _ => false

/-- `^[0-9a-f]{n}$` -/
structure HexText (n : ℕ) where
  text : Text
  valid : text.length = n ∧ text.all isLowerHex = true
  deriving DecidableEq

def HexText.ofText (n : ℕ) (text : Text) : Option (HexText n) :=
  if h : text.length = n ∧ text.all isLowerHex = true then some ⟨text, h⟩ else none

/-- A key of a recipe or of a reference. -/
structure Key where
  text : Text
  valid : 0 < text.length ∧ text.length ≤ 64
  deriving DecidableEq

def Key.ofText (text : Text) : Option Key :=
  if h : 0 < text.length ∧ text.length ≤ 64 then some ⟨text, h⟩ else none

def isParamStart : CodePoint → Bool
  | .scalar c => 'a' ≤ c && c ≤ 'z'
  | .surrogate _ => false

def isParamRest : CodePoint → Bool
  | .scalar c => ('a' ≤ c && c ≤ 'z') || c.isDigit || c = '_'
  | .surrogate _ => false

/-- `^[a-z][a-z0-9_]{0,31}$` -/
def isParam : Text → Bool
  | [] => false
  | c :: rest => isParamStart c && rest.length ≤ 31 && rest.all isParamRest

/-- In airing order. -/
inductive Kind where
  | urgent
  | publicAddress
  deriving DecidableEq

/-- `MESSAGE_KINDS.index(kind)` -/
def Kind.index : Kind → ℕ
  | urgent => 0
  | publicAddress => 1

def Kind.text : Kind → String
  | urgent => "urgent"
  | publicAddress => "public_address"

def Kind.ofValue (value : WireValue) : Option Kind :=
  if value.isStr "urgent" then some .urgent
  else if value.isStr "public_address" then some .publicAddress
  else none

structure Media where
  media : UuidNumber
  sha256 : HexText 64
  bytes : ℤ
  durationSeconds : Decimal
  deriving DecidableEq

structure Reference extends Media where
  key : Key
  reference : UuidNumber
  deriving DecidableEq

structure Message extends Media where
  message : UuidNumber
  kind : Kind
  deriving DecidableEq

/-- A stinger is a reference that is played first. -/
inductive Input where
  | stinger (s : Reference)
  | message (m : Message)
  deriving DecidableEq

def Input.durationSeconds : Input → Decimal
  | stinger s => s.durationSeconds
  | message m => m.durationSeconds

structure Recipe where
  key : Key
  version : WireValue

structure RenderRequest where
  requestId : HexText 32
  item : Option UuidNumber
  lease : Option UuidNumber
  source : Media
  recipe : Recipe
  params : List (Text × WireValue)
  references : List (Text × Reference)
  expectedDigest : HexText 64
  timeout : Double

structure AssembleRequest where
  requestId : HexText 32
  execution : UuidNumber
  recipe : Recipe
  inputs : List Input
  expectedDigest : HexText 64
  timeout : Double

/-! ## Fields -/

section Fields

variable (digit : Char → Option (Fin 10))

/-- `float(n)`; `none` when that raises `OverflowError`. -/
def ofInt (n : ℤ) : Option Double :=
  if |n| < 2 ^ 1024 - 2 ^ 970 then some (.finite (Double.round n)) else none

def uuidText (value : WireValue) (what : Text) : Except Error UuidNumber :=
  orRaise (value.str?.bind (UuidNumber.ofText digit)) (wrong what " must be a UUID string")

/-- The number, when it is finite and within bounds. -/
def inRange (maximum : ℚ) : Decimal.Value → Option Decimal
  | .finite d => if 0 < d.value ∧ d.value ≤ maximum then some d else none
  | _ => none

def decimal (value : WireValue) (what : Text) (maximum : ℚ) : Except Error Decimal := do
  let text ← orRaise value.str? (wrong what " must be a decimal string")
  raiseIf (32 < text.length) (wrong what " must be a decimal string")
  let number ← orRaise (Decimal.ofText digit text) (wrong what " must be a decimal string")
  orRaise (inRange maximum number) (wrong what " is out of range")

def count (value : WireValue) (what : Text) (maximum : ℤ) : Except Error ℤ := do
  let n ← orRaise value.int? (wrong what " is out of range")
  raiseIf (¬(0 < n ∧ n ≤ maximum)) (wrong what " is out of range")
  return n

def media (entry : WireValue) (what : Text) (keys : List String) (maxBytes : ℤ)
    (maxSeconds : ℚ) : Except Error Media := do
  raiseIf (entry.hasKeys keys = false) (wrong what " has the wrong shape")
  let sha256 ← orRaise ((entry.field (codePoints "sha256")).str?.bind (HexText.ofText 64))
    (wrong what ".sha256 must be 64 lowercase hex digits")
  let media ← uuidText digit (entry.field (codePoints "media")) (what ++ codePoints ".media")
  let bytes ← count (entry.field (codePoints "bytes")) (what ++ codePoints ".bytes") maxBytes
  let duration ← decimal digit (entry.field (codePoints "duration_seconds"))
    (what ++ codePoints ".duration_seconds") maxSeconds
  return ⟨media, sha256, bytes, duration⟩

/-- `0 < x <= MAX_TIMEOUT_SECONDS` -/
def checkTimeout (x : Double) : Except Error Double := do
  let limit := Double.finite maxTimeoutSeconds
  raiseIf (¬(x.gt .zero ∧ (limit.gt x ∨ x.eq limit)))
    (invalid (codePoints "timeout is out of range"))
  return x

/-- The range check of `timeout`, and `float(timeout)`. -/
def timeoutOf : WireValue → Except Error Double
  | .int n => do
    let x ← orRaise (ofInt n) .overflowError
    checkTimeout x
  | .float x => checkTimeout x
  | _ => .error (invalid (codePoints "timeout is out of range"))

/-- The first checks of both parsers. -/
def checkHead (request : WireValue) (keys : List String) (op : String) :
    Except Error (HexText 32) := do
  raiseIf (request.hasKeys keys = false) (invalid (codePoints "the request has the wrong shape"))
  raiseIf (¬((request.field (codePoints "v")).equalsInt 1 ∧
      (request.field (codePoints "op")).isStr op))
    (invalid (codePoints "unsupported protocol version or operation"))
  orRaise ((request.field (codePoints "request_id")).str?.bind (HexText.ofText 32))
    (invalid (codePoints "request_id must be 32 lowercase hex digits"))

def recipeOf (value : WireValue) : Except Error Recipe := do
  raiseIf (value.hasKeys ["key", "version"] = false)
    (invalid (codePoints "recipe has the wrong shape"))
  let key ← orRaise ((value.field (codePoints "key")).str?.bind Key.ofText)
    (invalid (codePoints "recipe has the wrong shape"))
  return ⟨key, value.field (codePoints "version")⟩

def digestOf (value : WireValue) : Except Error (HexText 64) :=
  orRaise (value.str?.bind (HexText.ofText 64))
    (invalid (codePoints "expected_digest must be 64 lowercase hex digits"))

/-- `None if value is None else _uuid_text(value, name)` -/
def optionalUuid (value : WireValue) (name : String) : Except Error (Option UuidNumber) :=
  if value.isNull then return none
  else do
    let u ← uuidText digit value (codePoints name)
    return some u

end Fields

/-! ## `render` -/

section Render

variable (digit : Char → Option (Fin 10)) (maxBytes : ℤ) (maxSeconds : ℚ)

def referenceOf (references : WireValue) (name : Text) : Except Error (Text × Reference) := do
  let entry := references.field name
  let what := codePoints "references." ++ name
  let m ← media digit entry what referenceKeys maxBytes maxSeconds
  let key ← orRaise ((entry.field (codePoints "key")).str?.bind Key.ofText)
    (wrong what ".key has the wrong shape")
  let reference ← uuidText digit (entry.field (codePoints "reference"))
    (what ++ codePoints ".reference")
  return (name, ⟨m, key, reference⟩)

def parseRequest (request : WireValue) : Except Error RenderRequest := do
  let requestId ← checkHead request requestKeys "render"
  let correlation := request.field (codePoints "correlation")
  raiseIf (correlation.hasKeys ["item", "lease"] = false)
    (invalid (codePoints "correlation has the wrong shape"))
  let recipe ← recipeOf (request.field (codePoints "recipe"))
  let params ← orRaise (request.field (codePoints "params")).obj?
    (invalid (codePoints "params must be an object"))
  let references := request.field (codePoints "references")
  raiseIf (¬(references.isObj ∧ references.keys.length ≤ maxReferences ∧
      references.keys.all isParam))
    (invalid (codePoints "references has the wrong shape"))
  let digest ← digestOf (request.field (codePoints "expected_digest"))
  let timeout ← timeoutOf (request.field (codePoints "timeout"))
  let normalized ← (Text.sorted references.keys).mapM
    (referenceOf digit maxBytes maxSeconds references)
  let item ← optionalUuid digit (correlation.field (codePoints "item")) "item"
  let lease ← optionalUuid digit (correlation.field (codePoints "lease")) "lease"
  let source ← media digit (request.field (codePoints "source")) (codePoints "source") mediaKeys
    maxBytes maxSeconds
  return ⟨requestId, item, lease, source, recipe, params, normalized, digest, timeout⟩

end Render

/-! ## `assemble` -/

section Assemble

variable (digit : Char → Option (Fin 10)) (maxBytes : ℤ)

/-- What the loop over the inputs has gathered. -/
structure Progress where
  normalized : List Input
  messages : ℕ
  kinds : List ℕ
  seen : List UuidNumber

def Progress.start : Progress := ⟨[], 0, [], []⟩

def Progress.addStinger (p : Progress) (s : Reference) : Progress :=
  { p with normalized := p.normalized ++ [.stinger s] }

def Progress.addMessage (p : Progress) (m : Message) : Progress where
  normalized := p.normalized ++ [.message m]
  messages := p.messages + 1
  kinds := p.kinds ++ [m.kind.index]
  seen := p.seen ++ [m.message]

def inputName (index : ℕ) : Text := codePoints ("inputs[" ++ toString index ++ "]")

def stingerOf (entry : WireValue) (index : ℕ) : Except Error Reference := do
  let what := inputName index
  let m ← media digit entry what stingerKeys maxBytes maxAssembleInputSeconds
  let key ← orRaise ((entry.field (codePoints "key")).str?.bind Key.ofText)
    (wrong what ".key has the wrong shape")
  raiseIf (index ≠ 0) (inputOrder "the stinger is the first input, once")
  let reference ← uuidText digit (entry.field (codePoints "reference"))
    (what ++ codePoints ".reference")
  return ⟨m, key, reference⟩

def messageOf (seen : List UuidNumber) (entry : WireValue) (index : ℕ) :
    Except Error Message := do
  let what := inputName index
  let m ← media digit entry what messageKeys maxBytes maxAssembleInputSeconds
  let kind ← orRaise (Kind.ofValue (entry.field (codePoints "kind")))
    (wrong what ".kind is urgent or public_address")
  let message ← uuidText digit (entry.field (codePoints "message")) (what ++ codePoints ".message")
  raiseIf (message ∈ seen) (inputOrder "a message appears once")
  return ⟨m, message, kind⟩

/-- One turn of the loop over the inputs. -/
def addInput (p : Progress) (item : WireValue × ℕ) : Except Error Progress :=
  let role := item.1.field (codePoints "role")
  if role.isStr "stinger" then do
    let s ← stingerOf digit maxBytes item.1 item.2
    return p.addStinger s
  else if role.isStr "message" then do
    let m ← messageOf digit maxBytes p.seen item.1 item.2
    return p.addMessage m
  else .error (wrong (inputName item.2) ".role is stinger or message")

/-- `normalized[0]["role"] == "stinger" and kinds[0] != 0` -/
def checkLead (p : Progress) : Except Error Unit := do
  let first ← orRaise p.normalized.head? .indexError
  match first with
  | .message _ => return ()
  | .stinger _ => do
    let kind ← orRaise p.kinds.head? .indexError
    raiseIf (kind ≠ 0) (inputOrder "a stinger precedes urgent material only")

/-- The checks after the loop. -/
def checkOrder (p : Progress) : Except Error Unit := do
  raiseIf (¬(0 < p.messages ∧ p.messages ≤ maxAssembleMessages))
    (invalid (codePoints "an assembly holds 1..24 messages"))
  raiseIf (p.kinds ≠ p.kinds.insertionSort (· ≤ ·))
    (inputOrder "urgent messages precede public-address messages")
  checkLead p
  raiseIf (maxAssembleTotalSeconds < Decimal.sum (p.normalized.map Input.durationSeconds))
    (invalid (codePoints "the inputs are longer than one assembly may be"))

def parseAssemble (request : WireValue) : Except Error AssembleRequest := do
  let requestId ← checkHead request assembleKeys "assemble"
  let recipe ← recipeOf (request.field (codePoints "recipe"))
  let digest ← digestOf (request.field (codePoints "expected_digest"))
  let timeout ← timeoutOf (request.field (codePoints "timeout"))
  let correlation := request.field (codePoints "correlation")
  raiseIf (correlation.hasKeys ["execution"] = false)
    (invalid (codePoints "correlation has the wrong shape"))
  let inputs ← orRaise (request.field (codePoints "inputs")).list?
    (invalid (codePoints "inputs must be a list of 1..25 entries"))
  raiseIf (¬(0 < inputs.length ∧ inputs.length ≤ maxAssembleInputs))
    (invalid (codePoints "inputs must be a list of 1..25 entries"))
  let p ← inputs.zipIdx.foldlM (addInput digit maxBytes) .start
  checkOrder p
  let execution ← uuidText digit (correlation.field (codePoints "execution"))
    (codePoints "correlation.execution")
  return ⟨requestId, execution, recipe, p.normalized, digest, timeout⟩

end Assemble

end IsadoraAir.RenderService.Protocol
