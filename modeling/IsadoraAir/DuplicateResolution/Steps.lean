import IsadoraAir.DuplicateResolution.Requests
import IsadoraAir.Foundation.Crew

/-!
# Steps of previews and apply requests

What each action does to the station, to the reports and to the spent tokens.
The pair's transaction is one step: it holds the locks of both rows.
-/

namespace IsadoraAir.DuplicateResolution

/-- A deletion that has been committed, with the station before it and after it. -/
structure Deletion where
  job : Job
  before : Station
  after : Station

/-- What the agents `α` share. The last five only tell what has happened. -/
structure Shared (α : Type) where
  station : Station
  /-- The latest report first. -/
  reports : List Report
  clock : ℤ
  /-- The rows of `django_session` that claim a nonce, with `expire_date`. -/
  claims : Dict String ℤ
  issued : List Plan
  /-- When a worker has received its request. -/
  received : α → ℤ
  past : List Station
  /-- The stations there had been when the token of a nonce was signed. -/
  drawn : String → List Station
  spent : List String
  holding : α → Option String
  ledger : List Deletion

inductive Fault where
  | protectedError (names : List String)
  | operationalError
  | databaseError
  | unexpected
  deriving DecidableEq

/-- What the outside decides about an action. -/
structure Decision where
  /-- `secrets.token_urlsafe(16)` -/
  nonce : String
  /-- A lock has been waited for too long. -/
  busy : Bool
  fault : Option Fault

def Fault.outcome : Fault → Outcome
  | .protectedError names => .stillReferenced names
  | _ => .failed

/-- The worker timeout: a worker that has taken longer over a request is gone. -/
def workerTimeout : ℤ := 30 * 1000000

/-- How long a spent nonce is kept. -/
def claimLifetime : ℤ := tokenMaxAge + 300 * 1000000

def wholeSeconds (time : ℤ) : ℤ := time / 1000000 * 1000000

variable (cfg : Config) {α : Type}

def claimKey (nonce : String) : String :=
  "dupres:" ++ String.ofList ((cfg.sha256 nonce).toList.take 33)

/-- The station has become another one. -/
def Shared.become (s : Shared α) (w : Station) : Shared α :=
  { s with station := w, past := s.past ++ [w] }

def purgeClaims (s : Shared α) : Shared α :=
  { s with
    claims := ⟨s.claims.items.filter fun item => s.clock ≤ item.2,
      s.claims.nodup.sublist (List.filter_sublist.map _)⟩ }

def loadToken (s : Shared α) (token : Token) : Except Unsigned Plan := do
  let plan ← orRaise (s.issued[token]?) .bad
  raiseIf (tokenMaxAge < s.clock - plan.signedAt) .expired
  pure plan

variable [DecidableEq α]

def receive (s : Shared α) (a : α) : Shared α :=
  { s with received := Function.update s.received a s.clock }

/-- The row of the nonce is inserted. -/
def spend (s : Shared α) (a : α) (nonce : String) : Shared α :=
  { s with
    claims := s.claims.insert (claimKey cfg nonce) (s.clock + claimLifetime)
    spent := s.spent ++ [nonce]
    holding := Function.update s.holding a (some nonce) }

def claimNonce (s : Shared α) (a : α) (nonce : String) (busy : Bool) :
    Option (ClaimResult × Shared α) :=
  if s.received a + workerTimeout < s.clock then none
  else if busy then some (.busy, s)
  else if (s.claims.get? (claimKey cfg nonce)).isSome then some (.alreadyUsed, s)
  else some (.claimed, spend cfg s a nonce)

/-- The deletion is committed. -/
def commitPair (s : Shared α) (a : α) (job : Job) : Shared α :=
  { s.become (resolve job s.station) with
    holding := Function.update s.holding a none
    ledger := s.ledger ++ [⟨job, s.station, resolve job s.station⟩] }

/-- `_apply_delete` -/
def resolvePair (s : Shared α) (a : α) (job : Job) : Option Fault → Outcome × Shared α
  | some fault => (fault.outcome, s)
  | none =>
    match recheck job cfg.localHour s.clock s.station with
    | .error outcome => (outcome, s)
    | .ok inspection =>
      (.deleted job.choice.categories inspection.voicetracks, commitPair s a job)

/-- Nobody else deletes a Track. -/
def keepsTracks (w w' : Station) : Prop := ∀ track ∈ w.tracks.keys, track ∈ w'.tracks.keys

instance (w w' : Station) : Decidable (keepsTracks w w') :=
  inferInstanceAs (Decidable (∀ track ∈ w.tracks.keys, _))

def newPlan (s : Shared α) (user : ℕ) (scan nonce : String) (entry : PlanEntry) : Plan :=
  ⟨user, scan, nonce, entry, wholeSeconds s.clock⟩

def sign (s : Shared α) (user : ℕ) (scan nonce : String) (entry : PlanEntry) : Shared α :=
  { s with
    issued := s.issued ++ [newPlan s user scan nonce entry]
    drawn := Function.update s.drawn nonce s.past }

def exec (d : Decision) (a : α) : (x : Action) → Shared α → Option (x.Result × Shared α)
  | .loadReport, s => some (s.reports.head?, s)
  | .protection, s => some (s.station.protection, s)
  | .engine, s => some (engineState (s.clock / 1000000) s.station.engine, s)
  | .now, s => some (s.clock, s)
  | .look, s => some (s.station, s)
  | .sign user scan entry, s =>
    if d.nonce ∈ s.issued.map Plan.nonce then none
    else some (s.issued.length, sign s user scan d.nonce entry)
  | .loads token, s => some (loadToken s token, receive s a)
  | .claim nonce, s => claimNonce cfg s a nonce d.busy
  | .purge, s => some ((), if d.busy then s else purgeClaims s)
  | .pair job, s => some (resolvePair cfg s a job d.fault)
  | .keepBoth track other, s =>
    if d.busy then some (.failed, s)
    else some ((keepBoth track other s.station).1, s.become (keepBoth track other s.station).2)
  | .edit f, s =>
    if keepsTracks s.station (f s.station) then some ((), s.become (f s.station)) else none
  | .publish report, s => some ((), { s with reports := report :: s.reports })
  | .elapse microseconds, s => some ((), { s with clock := s.clock + microseconds })

/-- A worker may be gone at any moment; what it has done stays. -/
def crew : Crew Action.Result (Shared α) α Decision where
  exec := exec cfg
  abandon _ s := s

abbrev State (α : Type) := Crew.State Action.Result (Shared α) α Call Refusal Answer

abbrev Event (α : Type) := Crew.Event α Decision Call

def step (e : Event α) (s : State α) : State α := (crew cfg).step (program cfg) e s

/-- Nothing has been previewed yet. -/
def initial (w : Station) (reports : List Report) (clock : ℤ) (claims : Dict String ℤ) : State α :=
  Crew.idle ⟨w, reports, clock, claims, [], fun _ => clock, [w], fun _ => [], [],
    fun _ => none, []⟩

/-! ## What an action does -/

inductive Effect (a : α) (s : Shared α) : Action → Shared α → Prop
  | none (x : Action) : Effect a s x s
  | sign (user : ℕ) (scan nonce : String) (entry : PlanEntry)
    (hfresh : nonce ∉ s.issued.map Plan.nonce) :
    Effect a s (.sign user scan entry) (sign s user scan nonce entry)
  | receive (token : Token) : Effect a s (.loads token) (receive s a)
  | spend (nonce : String) (hlive : s.clock ≤ s.received a + workerTimeout)
    (hfree : s.claims.get? (claimKey cfg nonce) = Option.none) :
    Effect a s (.claim nonce) (spend cfg s a nonce)
  | purge : Effect a s .purge (purgeClaims s)
  | pair (job : Job) (i : Inspection)
    (h : recheck job cfg.localHour s.clock s.station = .ok i) :
    Effect a s (.pair job) (commitPair s a job)
  | keepBoth (track other : TrackId) :
    Effect a s (.keepBoth track other) (s.become (keepBoth track other s.station).2)
  | edit (f : Station → Station) (h : keepsTracks s.station (f s.station)) :
    Effect a s (.edit f) (s.become (f s.station))
  | publish (report : Report) :
    Effect a s (.publish report) { s with reports := report :: s.reports }
  | elapse (microseconds : ℕ) :
    Effect a s (.elapse microseconds) { s with clock := s.clock + microseconds }

variable {cfg}

theorem exec_effect {d : Decision} {a : α} {x : Action} {s s' : Shared α} {r : x.Result}
    (h : exec cfg d a x s = some (r, s')) : Effect cfg a s x s' := by
  cases x with
  | sign user scan entry =>
    simp only [exec] at h
    split_ifs at h with hfresh
    cases h
    exact .sign user scan d.nonce entry hfresh
  | loads token =>
    cases h
    exact .receive token
  | claim nonce =>
    simp only [exec, claimNonce] at h
    split_ifs at h with hlate hbusy hused
    · cases h
      exact .none _
    · cases h
      exact .none _
    · cases h
      exact .spend nonce (not_lt.mp hlate) (by simpa using hused)
  | purge =>
    simp only [exec] at h
    split_ifs at h
    · cases h
      exact .none _
    · cases h
      exact .purge
  | pair job =>
    simp only [exec, resolvePair] at h
    split at h
    · cases h
      exact .none _
    · split at h
      · cases h
        exact .none _
      · next i hi =>
        cases h
        exact .pair job i hi
  | keepBoth track other =>
    simp only [exec] at h
    split_ifs at h
    · cases h
      exact .none _
    · cases h
      exact .keepBoth track other
  | edit f =>
    simp only [exec] at h
    split_ifs at h with hkeeps
    cases h
    exact .edit f hkeeps
  | publish report =>
    cases h
    exact .publish report
  | elapse microseconds =>
    cases h
    exact .elapse microseconds
  | _ =>
    cases h
    exact .none _

end IsadoraAir.DuplicateResolution
