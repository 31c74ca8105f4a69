import HideServer.Env.Fleet

/-!
# The env service and the files it watches

The instances with their documents, the cache, and the files. `known` and `foreign` are history: what
the service last loaded or wrote, and whether somebody else has written since. Random numbers and the
outcomes of requests change from outside.
-/

namespace HideServer.Env.Site

open Async Cache Sync Function

variable {U : Type}

/-- The clients of each user, and the live states. -/
structure Awareness where
  clients : String → List Nat
  states : List Nat

def Awareness.empty : Awareness := ⟨fun _ => [], []⟩

def isResolverRemoved (conflictResolver : String) (initialUids updatedUids : List String) : Bool :=
  conflictResolver ≠ "" && initialUids.contains conflictResolver && !updatedUids.contains conflictResolver

def controlled (users : List String) (clients : String → List Nat) (added removed : List Nat) :
    Option String → String → List Nat
  | some uid =>
    if uid ∈ users then update clients uid ((clients uid ++ added).filter (· ∉ removed)) else clients
  | none => clients

/-- `_awarenessChangeHandler`, which says also whether the conflict is announced. -/
def awarenessChangeHandler (doc : WSSharedDoc U) (conflictResolver : String) (awareness : Awareness)
    (added removed : List Nat) (uid : Option String) : Awareness × Bool :=
  let initialUids := doc.users
  let clients := controlled doc.users awareness.clients added removed uid
  let updatedUids := doc.users
  (⟨clients, (awareness.states ++ added).filter (· ∉ removed)⟩,
    doc.isConflicting && removed ≠ [] && isResolverRemoved conflictResolver initialUids updatedUids)

/-- The users are the same before and after, so a conflict is never announced again. -/
theorem awarenessChangeHandler_silent (doc : WSSharedDoc U) (conflictResolver : String)
    (awareness : Awareness) (added removed : List Nat) (uid : Option String) :
    (awarenessChangeHandler doc conflictResolver awareness added removed uid).2 = false := by
  simp only [awarenessChangeHandler, isResolverRemoved]
  cases doc.users.contains conflictResolver <;> simp

/-- What is decided outside: the number that `pickOne` draws, and whether the next request to a daemon succeeds. -/
structure Chance where
  draw : Nat
  ok : Bool
  deriving DecidableEq, Repr

/-- The uuid of the workspace, and the hash of a text. -/
structure Setting (U : Type) where
  uuid : String
  hash : List U → String

def Setting.file (c : Setting U) (ino : Nat) : File := ⟨c.uuid, ino⟩

structure State (U : Type) where
  fleet : Fleet U
  world : World
  conflictResolver : InstanceId → Nat → String
  awareness : InstanceId → Nat → Awareness
  /-- The documents whose conflict was announced by `_awarenessChangeHandler`. -/
  announced : List (InstanceId × Nat)
  chance : Chance
  known : File → List U
  foreign : File → Bool

def State.start (world : World) (files : File → List U) : State U where
  fleet i := .start i.1 files
  world := world
  conflictResolver _ _ := ""
  awareness _ _ := .empty
  announced := []
  chance := ⟨0, true⟩
  known := files
  foreign _ := false

namespace State

variable (s : State U)

/-- The document of a file on an instance. -/
def doc (i : InstanceId) (file : File) : Option (Nat × WSSharedDoc U) :=
  ((s.fleet i).here file).bind fun d => ((s.fleet i).objects d).map fun doc => (d, doc)

def put (i : InstanceId) (d : Nat) (doc : WSSharedDoc U) : State U :=
  { s with fleet := update s.fleet i ((s.fleet i).put d doc) }

def setResolver (i : InstanceId) (d : Nat) (uid : String) : State U :=
  { s with conflictResolver := update s.conflictResolver i (update (s.conflictResolver i) d uid) }

/-- The content of a file changes. -/
def write (file : File) (content : List U) : State U :=
  { s with fleet := fun i => { s.fleet i with files := update (s.fleet i).files file content } }

def learn (file : File) (content : List U) : State U :=
  { s with
    known := update s.known file content
    foreign := update s.foreign file false }

def learned : Option (File × List U) → State U
  | none => s
  | some (file, content) => s.learn file content

def changeAwareness (i : InstanceId) (d : Nat) (doc : WSSharedDoc U) (added removed : List Nat)
    (uid : Option String) : State U :=
  let handled := awarenessChangeHandler doc (s.conflictResolver i d) (s.awareness i d) added removed uid
  { s with
    awareness := update s.awareness i (update (s.awareness i) d handled.1)
    announced := if handled.2 then s.announced ++ [(i, d)] else s.announced }

/-- The states of a user's clients go. -/
def removeAwareness (i : InstanceId) (d : Nat) (uid : String) : State U :=
  match (s.fleet i).objects d with
  | none => s
  | some doc =>
    let removed := ((s.awareness i d).clients uid).filter (· ∈ (s.awareness i d).states)
    if removed = [] then s else s.changeAwareness i d doc [] removed none

end State

inductive FSEventType where
  | create
  | remove
  | rename
  | write
  deriving DecidableEq, Repr

inductive EntryType where
  | file
  | dir
  deriving DecidableEq, Repr

/-- An event as the daemon reports it. -/
structure FSEvent where
  watchedPath : String
  path : String
  oldPath : Option String
  ino : Option Nat
  action : FSEventType
  timestamp : Nat
  entryType : EntryType
  deriving DecidableEq, Repr

inductive Notice where
  | conflict (uid sessionId : String) (ino : Nat) (resolverUid : String)
  | batch (uid sessionId : String) (events : List FSEvent)
  | lost (uid sessionId : String) (ino : Nat)
  | resolved (uids sessionIds : List String) (ino : Nat)
  deriving DecidableEq, Repr

/-- The reply to `doc.hash`, `{ id, data, pattern }`, of which `data` is the hash. The client takes it for a value of its
own and hands it over as it is. -/
structure Packet where
  data : String
  deriving DecidableEq, Repr

inductive Command (U : Type) where
  | getWorkspace
  | getPresence (uid : String)
  | emit (notice : Notice)
  /-- `docs.get(uuid)?.get(ino)?.computeHash()` -/
  | computeHash (me : InstanceId) (ino : Nat)
  /-- `doc.hash`, asked of another instance. -/
  | requestHash (me other : InstanceId) (ino : Nat)
  | fetchHash (me : InstanceId) (ino : Nat)
  /-- The document of the file, if it is found, is made a conflicting one. -/
  | mark (me : InstanceId) (ino : Nat)
  | find (me : InstanceId) (ino : Nat)
  | setFileContent (ino : Nat) (content : List U)
  | fetchContent (me : InstanceId) (ino : Nat)
  | replace (me : InstanceId) (d : Nat) (content : List U)
  | clear (me : InstanceId) (d : Nat)

/-- There is no answer of another instance without a document, and no resolver without users. -/
abbrev Command.Answer : Command U → Type
  | .getWorkspace => Option CachedWorkspace
  | .getPresence _ => Option CachedPresence
  | .computeHash .. => Option String
  | .requestHash .. => Option Packet
  | .fetchHash .. => String
  | .mark .. => Option (List String × Option String)
  | .find .. => Option (Nat × List U)
  | .fetchContent .. => Option (List U)
  | .clear .. => List String
  | _ => Unit

def pickOne (draw : Nat) (list : List String) : Option String := list[draw % list.length]?

theorem pickOne_mem (draw : Nat) {list : List String} (hlist : list ≠ []) :
    ∃ uid ∈ list, pickOne draw list = some uid := by
  have hlt : draw % list.length < list.length := Nat.mod_lt _ (List.length_pos_of_ne_nil hlist)
  exact ⟨list[draw % list.length], List.getElem_mem hlt, List.getElem?_eq_getElem hlt⟩

def exec (c : Setting U) : (command : Command U) → State U → command.Answer × State U
  | .getWorkspace, s => (s.world.workspace c.uuid, s)
  | .getPresence uid, s => (s.world.presence uid, s)
  | .emit _, s => ((), s)
  | .computeHash me ino, s => ((s.doc me (c.file ino)).map fun found => c.hash found.2.text, s)
  | .requestHash _ other ino, s => ((s.doc other (c.file ino)).map fun found => ⟨c.hash found.2.text⟩, s)
  | .fetchHash me ino, s => (if s.chance.ok then c.hash ((s.fleet me).files (c.file ino)) else "", s)
  | .mark me ino, s =>
    match s.doc me (c.file ino) with
    | none => (none, s)
    | some (d, doc) =>
      (some (doc.users, pickOne s.chance.draw doc.users),
        (s.put me d { doc with isConflicting := true }).setResolver me d
          ((pickOne s.chance.draw doc.users).getD (s.conflictResolver me d)))
  | .find me ino, s => ((s.doc me (c.file ino)).map fun found => (found.1, found.2.text), s)
  | .setFileContent ino content, s =>
    ((), if s.chance.ok then (s.write (c.file ino) content).learn (c.file ino) content else s)
  | .fetchContent me ino, s =>
    let content := (s.fleet me).files (c.file ino)
    if s.chance.ok then (some content, s.learn (c.file ino) content) else (none, s)
  | .replace me d content, s =>
    match (s.fleet me).objects d with
    | none => ((), s)
    | some doc => ((), s.put me d { doc with load := .finished content, edits := [], timer := true })
  | .clear me d, s =>
    match (s.fleet me).objects d with
    | none => ([], s)
    | some doc => (doc.users, (s.put me d { doc with isConflicting := false }).setResolver me d "")

abbrev Io (U : Type) := Prog (Command U) Command.Answer

abbrev ask (command : Command U) : Io U command.Answer := Prog.perform command

inductive Outside (U : Type) where
  /-- A step of an instance: opening, editing, flushing, closing. -/
  | step (i : InstanceId) (label : Sync.Label U)
  | awareness (i : InstanceId) (uid : String) (file : File) (added removed : List Nat)
  | write (file : File) (content : List U)
  | world (world : World)
  | chance (chance : Chance)

def learns (inst : Instance U) : Sync.Label U → Option (File × List U)
  | .read d ok _ =>
    if ok then
      (inst.objects d).bind fun doc =>
        match doc.load with
        | .requested _ _ => some (doc.file, inst.files doc.file)
        | _ => none
    else none
  | .write d i ok =>
    if ok then
      (inst.objects d).bind fun doc =>
        match doc.flushes[i]? with
        | some (some content) => some (doc.file, content)
        | _ => none
    else none
  | _ => none

def State.attend (s : State U) (i : InstanceId) (before : Instance U) : Sync.Label U → State U
  | .openFile uid file cached =>
    match before.here file with
    | some d =>
      if before.responsible cached then
        let clients := update (s.awareness i d).clients uid []
        { s with
          awareness := update s.awareness i (update (s.awareness i) d ⟨clients, (s.awareness i d).states⟩) }
      else s
    | none => s
  | .closeFile uid file cached =>
    match before.here file with
    | some d =>
      if before.responsible cached && (before.users file).any (uid ∈ ·) then s.removeAwareness i d uid else s
    | none => s
  | _ => s

def State.act (s : State U) (i : InstanceId) (label : Sync.Label U) : State U :=
  (({ s with fleet := s.fleet.act i label } : State U).learned (learns (s.fleet i) label)).attend i (s.fleet i) label

def outside (s : State U) : Outside U → State U
  | .step i label => s.act i label
  | .awareness i uid file added removed =>
    match s.doc i file with
    | none => s
    | some (d, doc) => s.changeAwareness i d doc added removed (some uid)
  | .write file content => { s.write file content with foreign := update s.foreign file true }
  | .world world => { s with world := world }
  | .chance chance => { s with chance := chance }

end HideServer.Env.Site
