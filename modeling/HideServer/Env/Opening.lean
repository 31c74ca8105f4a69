import HideServer.Env.Workspace

/-!
# Opening a path

A directory is listed; for a file there is a shared document on the instance that the cache notes, and
the request is passed on to it. A call runs to its end here, everything it asks for may fail, and what
the daemon and the cache answer is part of it.
-/

namespace HideServer.Env.Opening

open Async Async.Prog Cache

structure StatDTO where
  ino : Nat
  isDir : Bool
  deriving DecidableEq, Repr

structure FSOpenDTO where
  name : String
  path : String
  isDir : Bool
  id : Nat
  deriving DecidableEq, Repr

/-- The request to open a path. -/
structure FSOpen where
  uid : String
  sessionId : String
  uuid : String
  path : String
  correlationId : Option String
  deriving DecidableEq, Repr

structure WSSharedDoc where
  path : String
  text : String
  users : List String
  isConflicting : Bool
  conflictResolver : String
  deriving DecidableEq, Repr

abbrev Docs := Dict String (Dict Nat WSSharedDoc)

inductive Reply where
  | listed (entries : List FSOpenDTO) (correlationId : String)
  | opened (isConflicting : Bool) (conflictResolver : String)
  | error (code : String)
  deriving DecidableEq, Repr

inductive Message where
  | socketSend (uid sessionId pattern : String) (msg : Reply)
  | watchAdd (uuid path : String)
  | openfile (instanceId : String) (request : FSOpen) (stat : StatDTO)
  deriving DecidableEq, Repr

structure Host where
  docs : String → Docs
  sent : List Message

def Message.under (correlationId : String) : Message → Bool
  | .socketSend _ _ pattern _ => pattern = correlationId
  | _ => false

def Host.answers (s : Host) (correlationId : String) : Nat := s.sent.countP (Message.under correlationId)

/-- What is asked of the daemon or the cache comes with what is answered, `none` or `false` where it fails. -/
inductive Cmd where
  | getStat (uuid path : String) (stat : Option StatDTO)
  | dir (uuid path : String) (entries : Option (List FSOpenDTO))
  | read (uuid path : String) (content : Option String)
  | getWorkspace (uuid : String) (cached : Option (Option CachedWorkspace))
  | setWorkspace (uuid : String) (workspace : CachedWorkspace) (stored : Bool)
  | emit (message : Message)
  /-- The map of the workspace is made if there is none. -/
  | activeDocs (me uuid : String)
  | find (me uuid : String) (ino : Nat)
  | enter (me uuid : String) (ino : Nat) (doc : WSSharedDoc)
  | join (me uuid : String) (ino : Nat) (uid : String)
  /-- The map of the workspace is forgotten if there is exactly one document in it. -/
  | abandon (me uuid : String)

abbrev Cmd.Answer : Cmd → Type
  | .getStat .. => Option StatDTO
  | .dir .. => Option (List FSOpenDTO)
  | .read .. => Option String
  | .getWorkspace .. => Option (Option CachedWorkspace)
  | .setWorkspace .. => Bool
  | .find .. => Option WSSharedDoc
  | _ => Unit

/-- The user is entered in the document. -/
def WSSharedDoc.join (uid : String) (doc : WSSharedDoc) : WSSharedDoc :=
  { doc with users := if uid ∈ doc.users then doc.users else doc.users ++ [uid] }

namespace Docs

/-- There is a map for the workspace. -/
def activated (docs : Docs) (uuid : String) : Docs :=
  if (docs.get? uuid).isSome then docs else docs.set uuid .empty

/-- The document of a file. -/
def doc? (docs : Docs) (uuid : String) (ino : Nat) : Option WSSharedDoc :=
  (docs.get? uuid).bind fun activeDocs => activeDocs.get? ino

def entered (docs : Docs) (uuid : String) (ino : Nat) (doc : WSSharedDoc) : Docs :=
  docs.modify uuid fun activeDocs => activeDocs.set ino doc

/-- A user is entered. -/
def joined (docs : Docs) (uuid : String) (ino : Nat) (uid : String) : Docs :=
  docs.modify uuid fun activeDocs => activeDocs.modify ino (·.join uid)

def abandoned (docs : Docs) (uuid : String) : Docs :=
  if ((docs.get? uuid).map (·.entries.length)) = some 1 then docs.erase uuid else docs

end Docs

def Host.change (s : Host) (me : String) (f : Docs → Docs) : Host :=
  { s with docs := Function.update s.docs me (f (s.docs me)) }

def exec : (cmd : Cmd) → Host → cmd.Answer × Host
  | .getStat _ _ stat, s => (stat, s)
  | .dir _ _ entries, s => (entries, s)
  | .read _ _ content, s => (content, s)
  | .getWorkspace _ cached, s => (cached, s)
  | .setWorkspace _ _ stored, s => (stored, s)
  | .emit message, s => ((), { s with sent := s.sent ++ [message] })
  | .activeDocs me uuid, s => ((), s.change me (·.activated uuid))
  | .find me uuid ino, s => ((s.docs me).doc? uuid ino, s)
  | .enter me uuid ino doc, s => ((), s.change me (·.entered uuid ino doc))
  | .join me uuid ino uid, s => ((), s.change me (·.joined uuid ino uid))
  | .abandon me uuid, s => ((), s.change me (·.abandoned uuid))

abbrev Io := Prog Cmd Cmd.Answer

abbrev ask (cmd : Cmd) : Io cmd.Answer := perform cmd

variable (request : FSOpen)

/-- A request without a correlation id is not answered. -/
def reply (msg : Reply) : Io Unit :=
  match given request.correlationId with
  | none => return ()
  | some correlationId => ask (.emit (.socketSend request.uid request.sessionId correlationId msg))

def sendError (code : String) : Io Unit := reply request (.error code)

structure CacheCalls where
  cached : Option (Option CachedWorkspace)
  stored : Bool

def CacheCalls.Succeed (calls : CacheCalls) : Prop :=
  ∃ cached, calls.cached = some cached ∧ (cached.isSome = true → calls.stored = true)

/-- `updateCache` of either service; `false` if the cache fails. -/
def updateCache (uuid : String) (updated : CachedWorkspace → CachedWorkspace) (calls : CacheCalls) : Io Bool := do
  let cached : Option (Option CachedWorkspace) ← ask (.getWorkspace uuid calls.cached)
  match cached with
  | none => return false
  | some none => return true
  | some (some workspace) => ask (.setWorkspace uuid (updated workspace) calls.stored)

/-- The success of a listing is reported before the cache is updated, inside the same `try`. -/
def openDir (entries : Option (List FSOpenDTO)) (calls : CacheCalls) : Io Unit := do
  ask (.emit (.watchAdd request.uuid request.path))
  let listed : Option (List FSOpenDTO) ← ask (.dir request.uuid request.path entries)
  match listed with
  | none => sendError request "FS_ERR_FETCH_DIRECTORY"
  | some entries =>
    reply request (.listed entries (request.correlationId.getD ""))
    let ok ← updateCache request.uuid (FSService.updated request.uid request.path true) calls
    if ok then return () else sendError request "FS_ERR_FETCH_DIRECTORY"

structure FileCalls where
  cached : Option (Option CachedWorkspace)
  content : Option String
  update : CacheCalls

def elsewhere (me : String) (envInstanceId : Option String) : Option String :=
  (given envInstanceId).filter (· ≠ me)

/-- How `openFile` ends. -/
inductive Outcome where
  /-- The first reading of the cache is not in a `try`. -/
  | threw
  | passedOn (other : String)
  | failed (code : String)
  | opened (isConflicting : Bool) (conflictResolver : String)
  deriving DecidableEq, Repr

def fail (code : String) : Io Outcome := do
  sendError request code
  return .failed code

/-- The document is there, and the user joins. -/
def enlist (me : String) (request : FSOpen) (ino : Nat) (doc : WSSharedDoc) (calls : CacheCalls) : Io Outcome := do
  ask (.join me request.uuid ino request.uid)
  let ok ← updateCache request.uuid (SyncService.updated me ino true) calls
  if ok then
    reply request (.opened doc.isConflicting doc.conflictResolver)
    return .opened doc.isConflicting doc.conflictResolver
  else fail request "FS_ERR_FETCH_FILE"

/-- A document is made; it is entered in the map only when its text is there. -/
def load (me : String) (request : FSOpen) (ino : Nat) (calls : FileCalls) : Io Outcome := do
  let content : Option String ← ask (.read request.uuid request.path calls.content)
  match content with
  | none =>
    sendError request "FS_ERR_READ_FILE"
    ask (.abandon me request.uuid)
    return .failed "FS_ERR_READ_FILE"
  | some content =>
    let doc : WSSharedDoc := ⟨request.path, content, [], false, ""⟩
    ask (.enter me request.uuid ino doc)
    enlist me request ino doc calls.update

/-- The `try` of `openFile`: the document is on this instance, or will be. -/
def openHere (me : String) (request : FSOpen) (ino : Nat) (calls : FileCalls) : Io Outcome := do
  ask (.activeDocs me request.uuid)
  let found : Option WSSharedDoc ← ask (.find me request.uuid ino)
  match found with
  | some doc => enlist me request ino doc calls.update
  | none => load me request ino calls

def openFile (me : String) (request : FSOpen) (stat : StatDTO) (calls : FileCalls) : Io Outcome := do
  let cached : Option (Option CachedWorkspace) ← ask (.getWorkspace request.uuid calls.cached)
  match cached with
  | none => return .threw
  | some none => fail request "FATAL_ERR_NO_WORKSPACE"
  | some (some workspace) =>
    match elsewhere me (workspace.docs.get? stat.ino) with
    | some other =>
      ask (.emit (.openfile other request stat))
      return .passedOn other
    | none => openHere me request stat.ino calls

structure Calls where
  stat : Option StatDTO
  entries : Option (List FSOpenDTO)
  dirs : CacheCalls
  file : FileCalls

def Outcome.next (stat : StatDTO) : Outcome → Option (String × StatDTO)
  | .passedOn other => some (other, stat)
  | _ => none

def rooted : FSOpen := { request with path := "/workspace" ++ request.path }

def handleOpen (me : String) (request : FSOpen) (calls : Calls) : Io (Option (String × StatDTO)) := do
  let found : Option StatDTO ← ask (.getStat request.uuid (rooted request).path calls.stat)
  match found with
  | none =>
    sendError (rooted request) "UNKNOWN"
    return none
  | some stat =>
    if stat.isDir then
      openDir (rooted request) calls.entries calls.dirs
      return none
    else
      let outcome ← openFile me (rooted request) stat calls.file
      if outcome = .threw then sendError (rooted request) "UNKNOWN"
      return outcome.next stat

/-- The handlers of `openfile` messages. Each of them may pass the request on, and what one of them throws is lost. -/
def relay : Option (String × StatDTO) → List FileCalls → Io Unit
  | some (other, stat), calls :: hops => do
    let outcome ← openFile other request stat calls
    relay (outcome.next stat) hops
  | _, _ => return ()

def serve (me : String) (request : FSOpen) (calls : Calls) (hops : List FileCalls) : Io Unit := do
  let next ← handleOpen me request calls
  relay (rooted request) next hops

def Outcome.messages (stat : StatDTO) : Outcome → List Message
  | .threw => []
  | .passedOn other => [.openfile other request stat]
  | .failed code => ((given request.correlationId).map fun id =>
    Message.socketSend request.uid request.sessionId id (.error code)).toList
  | .opened isConflicting conflictResolver => ((given request.correlationId).map fun id =>
    Message.socketSend request.uid request.sessionId id (.opened isConflicting conflictResolver)).toList

/-- The request ends here. -/
def Outcome.final : Outcome → Bool
  | .failed _ | .opened .. => true
  | _ => false

def FileCalls.other? (calls : FileCalls) (me : String) (stat : StatDTO) : Option String :=
  calls.cached.join.bind fun workspace => elsewhere me (workspace.docs.get? stat.ino)

section

variable (me : String) (request : FSOpen) (stat : StatDTO) (s : Host)

theorem run_reply (msg : Reply) : run exec (reply request msg) s =
    ((), { s with sent := s.sent ++ ((given request.correlationId).map fun id =>
      Message.socketSend request.uid request.sessionId id msg).toList }) := by
  unfold reply
  cases given request.correlationId with
  | none => simp
  | some id => rfl

theorem run_updateCache (uuid : String) (updated : CachedWorkspace → CachedWorkspace)
    (calls : CacheCalls) : ∃ ok, run exec (updateCache uuid updated calls) s = (ok, s) ∧
      (ok = true ↔ calls.Succeed) := by
  obtain ⟨cached, stored⟩ := calls
  cases cached with
  | none => exact ⟨false, rfl, by simp [CacheCalls.Succeed]⟩
  | some cached =>
    cases cached with
    | none => exact ⟨true, rfl, by simp [CacheCalls.Succeed]⟩
    | some workspace => exact ⟨stored, rfl, by simp [CacheCalls.Succeed]⟩

theorem run_enlist (ino : Nat) (doc : WSSharedDoc) (calls : CacheCalls) : ∃ (outcome : Outcome) (told : List Message),
    outcome.final = true ∧ (∀ stat, outcome.messages request stat = told) ∧
      run exec (enlist me request ino doc calls) s =
        (outcome, { (exec (.join me request.uuid ino request.uid) s).2 with sent := s.sent ++ told }) := by
  simp only [enlist, run_bind, run_perform]
  obtain ⟨ok, hrun, -⟩ := run_updateCache (exec (.join me request.uuid ino request.uid) s).2 request.uuid
    (SyncService.updated me ino true) calls
  rw [hrun]
  cases ok with
  | true =>
    refine ⟨.opened doc.isConflicting doc.conflictResolver, _, rfl, fun _ => rfl, ?_⟩
    simp only [if_true, run_bind, run_reply]
    rfl
  | false =>
    refine ⟨.failed "FS_ERR_FETCH_FILE", _, rfl, fun _ => rfl, ?_⟩
    simp only [fail, sendError, Bool.false_eq_true, if_false, run_bind, run_reply]
    rfl

def Answered (program : Io Outcome) : Prop :=
  (run exec program s).1.final = true ∧
    (run exec program s).2.sent = s.sent ++ (run exec program s).1.messages request stat

theorem answered_enlist (ino : Nat) (doc : WSSharedDoc) (calls : CacheCalls) :
    Answered request stat s (enlist me request ino doc calls) := by
  obtain ⟨outcome, told, hfinal, htold, hrun⟩ := run_enlist me request s ino doc calls
  unfold Answered
  rw [hrun, htold stat]
  exact ⟨hfinal, rfl⟩

theorem answered_fail (code : String) : Answered request stat s (fail request code) := by
  unfold Answered
  simp only [fail, sendError, run_bind, run_reply]
  exact ⟨rfl, rfl⟩

theorem answered_load (ino : Nat) (calls : FileCalls) : Answered request stat s (load me request ino calls) := by
  unfold Answered
  simp only [load, run_bind, run_perform, exec]
  cases calls.content with
  | none =>
    simp only [sendError, run_bind, run_reply]
    exact ⟨rfl, rfl⟩
  | some content =>
    exact answered_enlist me request stat _ ino _ calls.update

theorem answered_openHere (ino : Nat) (calls : FileCalls) :
    Answered request stat s (openHere me request ino calls) := by
  unfold Answered
  simp only [openHere, run_bind, run_perform, exec]
  split
  · exact answered_enlist me request stat _ ino _ calls.update
  · exact answered_load me request stat _ ino calls

theorem sent_openFile (calls : FileCalls) :
    (run exec (openFile me request stat calls) s).2.sent =
      s.sent ++ (run exec (openFile me request stat calls) s).1.messages request stat := by
  simp only [openFile, run_bind, run_perform, exec]
  cases calls.cached with
  | none => simp [Outcome.messages]
  | some cached =>
    cases cached with
    | none => exact (answered_fail request stat s _).2
    | some workspace =>
      simp only
      cases elsewhere me (workspace.docs.get? stat.ino) with
      | some other => rfl
      | none => exact (answered_openHere me request stat s stat.ino calls).2

theorem outcome_openFile (calls : FileCalls) : let outcome := (run exec (openFile me request stat calls) s).1
    (calls.cached = none ∧ outcome = .threw) ∨ (∃ other ∈ calls.other? me stat, outcome = .passedOn other) ∨
      (calls.cached ≠ none ∧ calls.other? me stat = none ∧ outcome.final = true) := by
  simp only [openFile, FileCalls.other?, run_bind, run_perform, exec]
  cases calls.cached with
  | none => exact .inl ⟨rfl, rfl⟩
  | some cached =>
    right
    cases cached with
    | none => exact .inr ⟨by simp, rfl, (answered_fail request stat s _).1⟩
    | some workspace =>
      simp only [Option.join_some, Option.bind_some]
      cases elsewhere me (workspace.docs.get? stat.ino) with
      | some other => exact .inl ⟨other, rfl, rfl⟩
      | none => exact .inr ⟨by simp, rfl, (answered_openHere me request stat s stat.ino calls).1⟩

end

end HideServer.Env.Opening
