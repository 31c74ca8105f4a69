import HideServer.Async.Pool
import HideServer.Env.Site

/-!
# Changed files and conflicts

`FSService.sync` compares the hash of a written file with that of its document. What another instance
replies is a packet with the hash in it, which differs from every hash; one that has no such document
never replies. `handleConflictResolve` ends a conflict.
-/

namespace HideServer.Env.Site

open Async Cache Sync

variable {U : Type}

variable (uuid : String)

def sessionId (presence : Option CachedPresence) : Option String :=
  given (presence.bind fun presence => (presence.entries.find? fun entry => entry.2.wsUuid = some uuid).map Prod.fst)

/-- The users who have a session in the workspace, with it. The presences are looked up one after the other. -/
def activeSessions {E : Type} {R : E → Type} (getPresence : String → Prog E R (Option CachedPresence)) (uuid : String) :
    List String → Prog E R (List (String × String))
  | [] => return []
  | uid :: uids => do
    let presence ← getPresence uid
    let rest ← activeSessions getPresence uuid uids
    return ((sessionId uuid presence).map fun sessionId => (uid, sessionId)).toList ++ rest

theorem only_activeSessions {E : Type} {R : E → Type} {ok : E → Prop}
    {getPresence : String → Prog E R (Option CachedPresence)} (hget : ∀ uid, (getPresence uid).Only ok) (uuid : String)
    (uids : List String) : (activeSessions getPresence uuid uids).Only ok := by
  induction uids with
  | nil => trivial
  | cons uid uids ih => exact (hget uid).bind fun _ => ih.bind fun _ => trivial

abbrev sessions (uids : List String) : Io U (List (String × String)) :=
  activeSessions (fun uid => ask (.getPresence uid)) uuid uids

/-- Every user of the document is told. -/
def sendConflict (ino : Nat) (uids : List String) (resolverUid : String) : Io U Unit := do
  let active ← sessions uuid uids
  Prog.each active fun entry => ask (.emit (.conflict entry.1 entry.2 ino resolverUid))

/-- Every user is told that it is over. -/
def sendConflictResolved (uids : List String) (ino : Nat) : Io U Unit :=
  if uids = [] then return ()
  else do
    let active ← sessions uuid uids
    ask (.emit (.resolved (active.map Prod.fst) (active.map Prod.snd) ino))

/-- An instance id that is not empty. -/
def named (envInstanceId : Option String) : Option InstanceId :=
  envInstanceId.bind fun id => if h : id = "" then none else some ⟨id, h⟩

/-- What is known of the document of a file: its hash, if it is on this instance, or what another instance replies. -/
inductive DocHash where
  | hash (hex : String)
  | reply (packet : Packet)
  deriving DecidableEq, Repr

namespace DocHash

/-- The test `!docHash`. -/
def truthy : DocHash → Bool
  | .hash hex => hex ≠ ""
  | .reply _ => true

/-- The hash, wherever it is. -/
def hex : DocHash → String
  | .hash hex => hex
  | .reply packet => packet.data

/-- `fileHash === docHash`: a packet is no text. -/
def same (fileHash : String) : DocHash → Bool
  | .hash hex => fileHash = hex
  | .reply _ => false

end DocHash

variable (me : InstanceId)

/-- The hash of the document of a file, if it has one; without an answer there is nothing at all. -/
def getDocHash (ino : Nat) (wCache : CachedWorkspace) : Io U (Option (Option DocHash)) :=
  match named (wCache.docs.get? ino) with
  | none => return some none
  | some owner =>
    if owner = me then do
      let hash : Option String ← ask (.computeHash me ino)
      return some (hash.map .hash)
    else do
      let packet : Option Packet ← ask (.requestHash me owner ino)
      return packet.map fun packet => some (.reply packet)

/-- What becomes of an event: the loop does not go on, it goes on without the event, or the event is passed on. -/
inductive Verdict where
  | stop
  | skip
  | pass
  deriving DecidableEq, Repr

def flag (ino : Nat) : Io U Verdict := do
  let marked : Option (List String × Option String) ← ask (.mark me ino)
  match marked with
  | none => return .pass
  -- `pickOne` throws
  | some (_, none) => return .stop
  | some (users, some conflictResolver) => do
    sendConflict uuid ino users conflictResolver
    return .pass

def compareHash (ino : Nat) (docHash : Option DocHash) : Io U Verdict :=
  match docHash.filter DocHash.truthy with
  | none => return .skip
  | some docHash => do
    let fileHash : String ← ask (.fetchHash me ino)
    if docHash.same fileHash then return .skip else flag uuid me ino

/-- The comparison for a written file. -/
def check (wCache : CachedWorkspace) (ino : Nat) : Io U Verdict := do
  let docHash ← getDocHash me ino wCache
  match docHash with
  | none => return .stop
  | some docHash => compareHash uuid me ino docHash

def FSEvent.writes (event : FSEvent) : Bool := event.entryType = .file && event.action = .write

def examine (wCache : CachedWorkspace) (event : FSEvent) : Io U Verdict :=
  if event.writes then
    match event.ino with
    | none => return .skip
    | some ino => check uuid me wCache ino
  else return .pass

/-- The event is added to what is passed on to each user who watches the path. -/
def enlist (wCache : CachedWorkspace) (event : FSEvent) (batches : Dict String (List FSEvent)) :
    Dict String (List FSEvent) :=
  let event := if event.watchedPath = "/workspace" then { event with watchedPath := "/workspace/" } else event
  ((wCache.dirs.get? event.watchedPath).getD []).foldl
    (fun batches uid => batches.set uid ((batches.get? uid).getD [] ++ [event])) batches

/-- The loop of `sync`. -/
def gather (wCache : CachedWorkspace) :
    List FSEvent → Dict String (List FSEvent) → Io U (Option (Dict String (List FSEvent)))
  | [], batches => return some batches
  | event :: events, batches => do
    let verdict ← examine uuid me wCache event
    match verdict with
    | .stop => return none
    | .skip => gather wCache events batches
    | .pass => gather wCache events (enlist wCache event batches)

/-- `sendBatch` for every user. -/
def sendBatches (batches : Dict String (List FSEvent)) : Io U Unit := do
  let active ← sessions uuid batches.keys
  Prog.each active fun entry => ask (.emit (.batch entry.1 entry.2 ((batches.get? entry.1).getD [])))

/-- `sync`, once the workspace is found. -/
def distribute (batch : List FSEvent) (wCache : CachedWorkspace) : Io U Unit := do
  let gathered ← gather uuid me wCache batch .empty
  match gathered with
  | none => return ()
  | some batches => sendBatches uuid batches

def sync (batch : List FSEvent) : Io U Unit := do
  let cached : Option CachedWorkspace ← ask .getWorkspace
  match cached with
  | none => return ()
  | some wCache => distribute uuid me batch wCache

inductive Decision where
  | keep
  | discard
  deriving DecidableEq, Repr

def applyDecision (ino d : Nat) (text : List U) : Decision → Io U Unit
  | .keep => ask (.setFileContent ino text)
  | .discard => do
    let content : Option (List U) ← ask (.fetchContent me ino)
    match content with
    | none => return ()
    | some content => ask (.replace me d content)

def handleConflictResolve (uid sessionId : String) (ino : Nat) (decision : Decision) : Io U Unit := do
  let found : Option (Nat × List U) ← ask (.find me ino)
  match found with
  | none => ask (.emit (.lost uid sessionId ino))
  | some (d, text) => do
    applyDecision me ino d text decision
    let uids : List String ← ask (.clear me d)
    sendConflictResolved uuid uids ino

inductive Op where
  | sync (me : InstanceId) (batch : List FSEvent)
  | resolve (me : InstanceId) (uid sessionId : String) (ino : Nat) (decision : Decision)

def program : Op → Io U Unit
  | .sync me batch => sync uuid me batch
  | .resolve me uid sessionId ino decision => handleConflictResolve uuid me uid sessionId ino decision

abbrev Service (U : Type) := Pool (State U) Op (Command U) Command.Answer Unit

abbrev Act (U : Type) := Action Op (Outside U)

def step (c : Setting U) : Service U → Act U → Service U :=
  Pool.step (program c.uuid) (exec c) outside

def start (world : World) (files : File → List U) : Service U := ⟨.start world files, []⟩

/-- A workspace whose hashes tell texts apart by their length. -/
def w1 : Setting Nat where
  uuid := "w1"
  hash
    | [] => "blank"
    | [_] => "line"
    | _ => "lines"

def noted (i : InstanceId) (world : World) : World :=
  let workspace : CachedWorkspace := ⟨.active, "e1", .empty, Dict.empty.set 7 i.1, .empty⟩
  { world with workspace := Function.update world.workspace "w1" (some workspace) }

def written : FSEvent := ⟨"/workspace", "/workspace/notes", none, some 7, .write, 0, .file⟩

end HideServer.Env.Site
