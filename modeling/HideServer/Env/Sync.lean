import HideServer.Async.Trace
import HideServer.Cache.World

/-!
# The documents of an env instance

Opening reads the file, edits go to the document, and five seconds after the last one the text is
written back. Closing for the last user destroys the document but does not clear its timer. Everything
between two awaits is one step. A text is represented by the edits whose effect it has.
-/

namespace HideServer.Env.Sync

open Cache Function

structure File where
  uuid : String
  ino : Nat
  deriving DecidableEq, Repr

def notes : File := ⟨"w1", 7⟩

variable {U : Type}

/-- How far `loadFileContent` and the rest of `openFile` have come, for the user who opens the file and the map of
documents found then. -/
inductive Load (U : Type) where
  /-- The daemon has not read the file yet. -/
  | requested (map : Nat) (uid : String)
  /-- The daemon has read the file; `blank` if there was no text in it. -/
  | served (map : Nat) (uid : String) (content : List U) (blank : Bool)
  | finished (content : List U)

def Load.into : Load U → Option Nat
  | .requested map _ => some map
  | .served map _ _ _ => some map
  | .finished _ => none

/-- The document of a file. -/
structure WSSharedDoc (U : Type) where
  file : File
  load : Load U
  edits : List U
  users : List String
  timer : Bool
  /-- The flushes under way: without a content while `getStat` is awaited, and then with the one that is being
  written. -/
  flushes : List (Option (List U))
  isDisplaced : Bool
  isConflicting : Bool
  destroyed : Bool

namespace WSSharedDoc

def new (file : File) (map : Nat) (uid : String) : WSSharedDoc U :=
  ⟨file, .requested map uid, [], [], false, [], false, false, false⟩

/-- What was loaded, and the edits since. -/
def text (doc : WSSharedDoc U) : List U :=
  match doc.load with
  | .finished content => content ++ doc.edits
  | _ => doc.edits

end WSSharedDoc

structure Instance (U : Type) where
  instanceId : String
  docs : Dict String Nat
  /-- Every map of documents there has been, by inode; one that is not in use any more may still be referred to. -/
  maps : Nat → Dict Nat Nat
  mapCount : Nat
  objects : Nat → Option (WSSharedDoc U)
  docCount : Nat
  /-- The workspaces of the closings that await the cache. -/
  closings : List String
  files : File → List U

def Instance.start (instanceId : String) (files : File → List U) : Instance U :=
  ⟨instanceId, .empty, fun _ => .empty, 0, fun _ => none, 0, [], files⟩

namespace Instance

variable (s : Instance U)

def here (file : File) : Option Nat :=
  (s.docs.get? file.uuid).bind fun map => (s.maps map).get? file.ino

variable (d : Nat) (doc : WSSharedDoc U)

def put : Instance U :=
  { s with objects := update s.objects d (some doc) }

/-- The cached workspace, of which only the entry for the document matters here, does not name another instance. -/
def responsible (cached : Option (Option String)) : Bool :=
  match cached with
  | none => false
  | some envInstanceId => (given envInstanceId).all (· = s.instanceId)

/-- The map of a workspace, made if there is none. -/
def activeDocs (uuid : String) : Nat × Instance U :=
  match s.docs.get? uuid with
  | some map => (map, s)
  | none =>
    (s.mapCount,
      { s with
        docs := s.docs.set uuid s.mapCount
        maps := update s.maps s.mapCount .empty
        mapCount := s.mapCount + 1 })

/-- The user is entered in a document. -/
def join (uid : String) : Instance U :=
  match s.objects d with
  | none => s
  | some doc => s.put d { doc with users := if uid ∈ doc.users then doc.users else doc.users ++ [uid] }

def create (file : File) (map : Nat) (uid : String) : Instance U :=
  { s.put s.docCount (.new file map uid) with docCount := s.docCount + 1 }

/-- `openFile`, from the answer of the cache on. -/
def openFile (uid : String) (file : File) (cached : Option (Option String)) : Instance U :=
  if !s.responsible cached then s
  else
    match s.here file with
    | some d => s.join d uid
    | none => (s.activeDocs file.uuid).2.create file (s.activeDocs file.uuid).1 uid

/-- A document that could not be loaded: the map is forgotten if there is exactly one document in it. -/
def abandon : Instance U :=
  let s := s.put d { doc with load := .finished [], destroyed := true }
  match s.docs.get? doc.file.uuid with
  | none => s
  | some map => if (s.maps map).entries.length = 1 then { s with docs := s.docs.erase doc.file.uuid } else s

def read (ok blank : Bool) : Instance U :=
  match s.objects d with
  | none => s
  | some doc =>
    match doc.load with
    | .requested map uid =>
      if ok then s.put d { doc with load := .served map uid (s.files doc.file) blank } else s.abandon d doc
    | _ => s

/-- The text is inserted, which schedules a flush unless there is none, and the document is entered in the map. -/
def initialized : Instance U :=
  match s.objects d with
  | none => s
  | some doc =>
    match doc.load with
    | .served map uid content blank =>
      { s.put d { doc with load := .finished content, timer := doc.timer || !blank, users := [uid] } with
        maps := update s.maps map ((s.maps map).set doc.file.ino d) }
    | _ => s

/-- `update` is `none` for messages that do not change the text. -/
def handleSync (file : File) (update : Option U) : Instance U :=
  match (s.here file).bind fun d => (s.objects d).map fun doc => (d, doc), update with
  | some (d, doc), some update => s.put d { doc with edits := doc.edits ++ [update], timer := true }
  | _, _ => s

/-- The document goes with its last user. -/
def destroy : Instance U :=
  let s := s.put d { doc with users := [], destroyed := true }
  { s with
    maps :=
      match s.docs.get? doc.file.uuid with
      | none => s.maps
      | some map => update s.maps map ((s.maps map).erase doc.file.ino)
    closings := s.closings ++ [doc.file.uuid] }

/-- `closeFile`, from the answer of the cache to the next await. -/
def closeFile (uid : String) (file : File) (cached : Option (Option String)) : Instance U :=
  match (s.here file).bind fun d => (s.objects d).map fun doc => (d, doc) with
  | none => s
  | some (d, doc) =>
    if !s.responsible cached || uid ∉ doc.users then s
    else if doc.users.erase uid = [] then s.destroy d doc
    else s.put d { doc with users := doc.users.erase uid }

def closed (i : Nat) : Instance U :=
  match s.closings[i]? with
  | none => s
  | some uuid =>
    let s := { s with closings := s.closings.eraseIdx i }
    match s.docs.get? uuid with
    | none => s
    | some map => if (s.maps map).entries = [] then { s with docs := s.docs.erase uuid } else s

/-- The flush timer of a document fires. -/
def fire : Instance U :=
  match s.objects d with
  | none => s
  | some doc =>
    if doc.timer then
      s.put d { doc with
        timer := false
        flushes := if doc.isDisplaced || doc.isConflicting then doc.flushes else doc.flushes ++ [none] }
    else s

def stat (d i : Nat) (ok : Bool) : Instance U :=
  match s.objects d with
  | none => s
  | some doc =>
    match doc.flushes[i]? with
    | some none =>
      if ok then s.put d { doc with flushes := doc.flushes.set i (some doc.text) }
      else s.put d { doc with flushes := doc.flushes.eraseIdx i, isDisplaced := true }
    | _ => s

def write (d i : Nat) (ok : Bool) : Instance U :=
  match s.objects d with
  | none => s
  | some doc =>
    match doc.flushes[i]? with
    | some (some content) =>
      { s.put d { doc with flushes := doc.flushes.eraseIdx i } with
        files := if ok then update s.files doc.file content else s.files }
    | _ => s

end Instance

inductive Label (U : Type) where
  | openFile (uid : String) (file : File) (cached : Option (Option String))
  | read (d : Nat) (ok blank : Bool)
  | initialized (d : Nat)
  | handleSync (file : File) (update : Option U)
  | closeFile (uid : String) (file : File) (cached : Option (Option String))
  | closed (i : Nat)
  | fire (d : Nat)
  | stat (d i : Nat) (ok : Bool)
  | write (d i : Nat) (ok : Bool)

def step (s : Instance U) : Label U → Instance U
  | .openFile uid file cached => s.openFile uid file cached
  | .read d ok blank => s.read d ok blank
  | .initialized d => s.initialized d
  | .handleSync file update => s.handleSync file update
  | .closeFile uid file cached => s.closeFile uid file cached
  | .closed i => s.closed i
  | .fire d => s.fire d
  | .stat d i ok => s.stat d i ok
  | .write d i ok => s.write d i ok

def Succeeds : Label U → Prop
  | .read _ ok _ | .stat _ _ ok | .write _ _ ok => ok = true
  | _ => True

/-- What is read for a new document has the effect of every update of the earlier documents of the file. -/
def Complete (s : Instance U) : Label U → Prop
  | .read d _ _ =>
    ∀ doc map uid, s.objects d = some doc → doc.load = .requested map uid → ∀ d' < d, ∀ doc', s.objects d' = some doc' →
      doc'.file = doc.file → ∀ update ∈ doc'.edits, update ∈ s.files doc.file
  | _ => True

def Orderly (s : Instance U) : Label U → Prop
  -- an opening that makes a document finds no other opening of the file under way
  | .openFile _ file cached =>
    s.responsible cached = true → s.here file = none → ∀ d < s.docCount, ∀ doc ∈ s.objects d, doc.file = file →
      doc.load.into = none
  -- a closing by the last user finds the text written
  | .closeFile uid file cached =>
    s.responsible cached = true → ∀ d ∈ s.here file, ∀ doc ∈ s.objects d, uid ∈ doc.users → doc.users.erase uid = [] →
      doc.timer = false ∧ doc.flushes = []
  -- a map is dropped only if no document is about to be entered in it
  | .closed i =>
    ∀ uuid ∈ s.closings[i]?, ∀ map ∈ s.docs.get? uuid, (s.maps map).entries = [] → ∀ d < s.docCount,
      ∀ doc ∈ s.objects d, doc.load.into ≠ some map
  -- a flush starts when the one before is over
  | .fire d => ∀ doc ∈ s.objects d, doc.timer = true → doc.flushes = []
  | _ => True

instance (label : Label U) : Decidable (Succeeds label) := by
  cases label <;> (unfold Succeeds; infer_instance)

instance [DecidableEq U] (s : Instance U) (label : Label U) : Decidable (Orderly s label) := by
  cases label <;> (unfold Orderly; infer_instance)

end HideServer.Env.Sync
