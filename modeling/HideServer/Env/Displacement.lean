import HideServer.Async.Protocol
import HideServer.Env.Watch

/-!
# Flushing to a path

`flush` writes to the path the file was opened under, if that is not a directory. The inode in the
answer is not compared, and a failed request counts as an answer that the file is gone.
-/

namespace HideServer.Env.Displacement

open Async Cache Function Trace

variable {U : Type}

/-- What a path denotes. -/
structure Node where
  ino : Nat
  isDir : Bool
  deriving DecidableEq, Repr

structure Doc (U : Type) where
  uuid : String
  path : String
  ino : Nat
  text : List U
  users : List String
  isDisplaced : Bool
  isConflicting : Bool

def Doc.node (doc : Doc U) : Node := ⟨doc.ino, false⟩

structure State (U : Type) where
  docs : Nat → Option (Doc U)
  /-- What the paths of each workspace denote. -/
  names : String → String → Option Node
  /-- The files of each workspace, by inode. -/
  contents : String → Nat → List U
  presence : String → Option CachedPresence
  answers : Bool

def State.start (names : String → String → Option Node) (contents : String → Nat → List U)
    (presence : String → Option CachedPresence) : State U :=
  ⟨fun _ => none, names, contents, presence, true⟩

namespace State

variable (s : State U)

def put (d : Nat) (doc : Doc U) : State U := { s with docs := update s.docs d (some doc) }

def at? (doc : Doc U) : Option Node := s.names doc.uuid doc.path

/-- The daemon writes to a path; it is the file that is there whose content changes. -/
def write (uuid path : String) (content : List U) : State U :=
  match s.names uuid path with
  | some ⟨ino, false⟩ =>
    { s with contents := update s.contents uuid (update (s.contents uuid) ino content) }
  | _ => s

end State

inductive Command (U : Type) where
  /-- The timer of a document fires, and its flags are looked at. -/
  | look (d : Nat)
  | getStat (d : Nat)
  /-- The text is taken when `getStat` is answered. -/
  | takeText (d : Nat)
  | setFileContent (d : Nat) (content : List U)
  /-- The document is marked displaced; the answer is who has it open. -/
  | displace (d : Nat)
  | getPresence (uid : String)
  /-- `displaced`, sent to sessions. -/
  | emit (uids sessionIds : List String) (ino : Nat)

abbrev Command.Answer : Command U → Type
  | .look _ => Option (Doc U)
  | .getStat _ => Option Node
  | .takeText _ => List U
  | .displace _ => List String
  | .getPresence _ => Option CachedPresence
  | _ => Unit

def exec : (command : Command U) → State U → command.Answer × State U
  | .look d, s => (s.docs d, s)
  | .getStat d, s => (if s.answers then (s.docs d).bind s.at? else none, s)
  | .takeText d, s => (((s.docs d).map Doc.text).getD [], s)
  | .setFileContent d content, s =>
    match s.docs d with
    | none => ((), s)
    | some doc => ((), if s.answers then s.write doc.uuid doc.path content else s)
  | .displace d, s =>
    match s.docs d with
    | none => ([], s)
    | some doc => (doc.users, s.put d { doc with isDisplaced := true })
  | .getPresence uid, s => (s.presence uid, s)
  | .emit .., s => ((), s)

abbrev Io (U : Type) := Prog (Command U) Command.Answer

abbrev ask (command : Command U) : Io U command.Answer := Prog.perform command

def sendFileMovedOrDeleted (uids : List String) (uuid : String) (ino : Nat) : Io U Unit :=
  if uids = [] then return ()
  else do
    let active ← Site.activeSessions (fun uid => ask (.getPresence uid)) uuid uids
    ask (.emit (active.map Prod.fst) (active.map Prod.snd) ino)

/-- The end of `flush`. -/
def writeBack (d : Nat) (doc : Doc U) : Io U Unit := do
  let stat : Option Node ← ask (.getStat d)
  if stat.any fun stat => !stat.isDir then
    let content : List U ← ask (.takeText d)
    ask (.setFileContent d content)
  else
    let uids : List String ← ask (.displace d)
    sendFileMovedOrDeleted uids doc.uuid doc.ino

/-- `flush` of `sync.service.ts`. -/
def flush (d : Nat) : Io U Unit := do
  let found : Option (Doc U) ← ask (.look d)
  match found with
  | none => return ()
  | some doc => if doc.isDisplaced || doc.isConflicting then return () else writeBack d doc

inductive Outside (U : Type) where
  /-- A file is opened, and there is a document for it now. -/
  | opened (d : Nat) (uuid path : String) (ino : Nat) (text : List U) (users : List String)
  | edited (d : Nat) (text : List U)
  | users (d : Nat) (users : List String)
  | conflict (d : Nat) (isConflicting : Bool)
  | rearrange (uuid : String) (names : String → Option Node)
  | contents (uuid : String) (contents : Nat → List U)
  | presence (presence : String → Option CachedPresence)
  | answers (answers : Bool)

variable (s : State U) (d : Nat)

/-- One document is changed. -/
def State.alter (change : Doc U → Doc U) : State U :=
  match s.docs d with
  | none => s
  | some doc => s.put d (change doc)

def outside : Outside U → State U
  | .opened d uuid path ino text users =>
    match s.docs d with
    | none => s.put d ⟨uuid, path, ino, text, users, false, false⟩
    | some _ => s
  | .edited d text => s.alter d ({ · with text := text })
  | .users d users => s.alter d ({ · with users := users })
  | .conflict d isConflicting => s.alter d ({ · with isConflicting := isConflicting })
  | .rearrange uuid names => { s with names := update s.names uuid names }
  | .contents uuid contents => { s with contents := update s.contents uuid contents }
  | .presence presence => { s with presence := presence }
  | .answers answers => { s with answers := answers }

abbrev Service (U : Type) := Pool (State U) Nat (Command U) Command.Answer Unit

abbrev Act (U : Type) := Action Nat (Outside U)

def step : Service U → Act U → Service U := Pool.step flush exec outside

def start (names : String → String → Option Node) (contents : String → Nat → List U)
    (presence : String → Option CachedPresence) : Service U :=
  ⟨.start names contents presence, []⟩

/-- A document is written only if its flags are not set and its own file is at its path, and marked displaced only
if it is not. -/
def Justified : Command U → Prop
  | .setFileContent d _ =>
    ∀ doc ∈ s.docs d, doc.isDisplaced = false ∧ doc.isConflicting = false ∧ s.at? doc = some doc.node
  | .displace d => ∀ doc ∈ s.docs d, s.at? doc ≠ some doc.node
  | _ => True

/-- Each write goes to the file of its document, and no other is displaced. -/
def Proper (service : Service U) : Act U → Prop
  | .resume k => ∀ next ∈ service.next? k, Justified service.shared next.2
  | _ => True

def Command.flushed : Command U → Option Nat
  | .getStat d | .takeText d | .setFileContent d _ | .displace d => some d
  | _ => none

/-- The document is not being flushed. -/
def AtRest (service : Service U) (d : Nat) : Prop :=
  ∀ task ∈ service.tasks, ∀ command ∈ task.prog.head?, command.flushed ≠ some d

def Telling : Command U → Prop
  | .getStat d =>
    ∀ doc ∈ s.docs d, (s.at? doc = some doc.node → s.answers = true) ∧
      ∀ node ∈ s.at? doc, node.isDir = false → node = doc.node
  | _ => True

def Calm (service : Service U) : Act U → Prop
  | .resume k => ∀ next ∈ service.next? k, Telling service.shared next.2
  -- a conflict is found when no flush of the document is under way
  | .outside (.conflict d true) => AtRest service d
  -- the paths of the documents that are being flushed stay what they are
  | .outside (.rearrange uuid names) =>
    ∀ d doc, service.shared.docs d = some doc → doc.uuid = uuid → ¬AtRest service d →
      names doc.path = service.shared.at? doc
  | _ => True

inductive Stage where
  | idle
  | looked (d : Nat)
  | found (d : Nat)
  /-- There is no answer, or nothing that could be written. -/
  | gone (d : Nat)
  deriving DecidableEq, Repr

def flushing : Protocol (Command U) Command.Answer Stage where
  allowed stage
    | .getStat d => stage = .looked d
    | .takeText d => stage = .found d
    | .setFileContent d _ => stage = .found d
    | .displace d => stage = .gone d
    | _ => True
  after _
    | .look d, found =>
      match found with
      | none => .idle
      | some doc => if doc.isDisplaced || doc.isConflicting then .idle else .looked d
    | .getStat d, stat => if stat.any fun stat => !stat.isDir then .found d else .gone d
    | .takeText d, _ => .found d
    | _, _ => .idle

def Free (command : Command U) : Prop := ∀ stage, flushing.allowed stage command

theorem only_sendFileMovedOrDeleted (uids : List String) (uuid : String) (ino : Nat) :
    (sendFileMovedOrDeleted uids uuid ino : Io U Unit).Only Free := by
  have hget (uid : String) : (ask (.getPresence uid) : Io U _).Only Free := .single (fun _ => trivial)
  refine .ite trivial ?_
  exact (Site.only_activeSessions hget uuid uids).bind fun _ => .single (fun _ => trivial)

theorem follows_writeBack (doc : Doc U) :
    (writeBack d doc : Io U Unit).Follows flushing (fun _ _ => True) (.looked d) := by
  refine .perform_bind rfl fun stat => ?_
  by_cases hfile : stat.any fun stat => !stat.isDir
  · simp only [flushing, hfile, if_true]
    exact .perform_bind rfl fun content => ⟨rfl, fun _ => trivial⟩
  · simp only [flushing, hfile]
    exact .perform_bind rfl fun uids => (only_sendFileMovedOrDeleted uids doc.uuid doc.ino).follows _

theorem follows_flush : (flush d : Io U Unit).Follows flushing (fun _ _ => True) .idle := by
  refine .perform_bind trivial fun found => ?_
  cases found with
  | none => trivial
  | some doc =>
    by_cases hflags : doc.isDisplaced || doc.isConflicting
    · simp only [hflags, if_true]
      trivial
    · simp only [flushing, hflags]
      exact follows_writeBack d doc

/-- A document that is being flushed. -/
structure Underway (s : State U) (d : Nat) (doc : Doc U) : Prop where
  there : s.docs d = some doc
  quiet : doc.isConflicting = false
  displaced : doc.isDisplaced = true → s.at? doc ≠ some doc.node

def Stage.Holds : Stage → Prop
  | .idle => True
  | .looked d => ∃ doc, Underway s d doc
  | .found d => ∃ doc, Underway s d doc ∧ s.at? doc = some doc.node
  | .gone d => ∃ doc, Underway s d doc ∧ s.at? doc ≠ some doc.node

def meaning (stage : Stage) (command : Command U) : Prop :=
  command.flushed ≠ none → stage.Holds s

section

variable {s : State U} {service : Service U} {d : Nat} {doc : Doc U} {command : Command U}

theorem Stage.Holds.mono {s' : State U} {stage : Stage}
    (hflushed : command.flushed = some d) (hallowed : flushing.allowed stage command) (hkept : ∀ doc, Underway s d doc →
      ∃ doc', Underway s' d doc' ∧ doc'.node = doc.node ∧ s'.at? doc' = s.at? doc)
    (h : stage.Holds s) : stage.Holds s' := by
  cases command with
  | getStat =>
    cases hflushed
    cases hallowed
    obtain ⟨doc, hdoc⟩ := h
    obtain ⟨doc', hdoc', -, -⟩ := hkept doc hdoc
    exact ⟨doc', hdoc'⟩
  | takeText | setFileContent =>
    cases hflushed
    cases hallowed
    obtain ⟨doc, hdoc, hat⟩ := h
    obtain ⟨doc', hdoc', hnode, hsame⟩ := hkept doc hdoc
    exact ⟨doc', hdoc', by rw [hsame, hnode, hat]⟩
  | displace =>
    cases hflushed
    cases hallowed
    obtain ⟨doc, hdoc, hat⟩ := h
    obtain ⟨doc', hdoc', hnode, hsame⟩ := hkept doc hdoc
    exact ⟨doc', hdoc', by rwa [hsame, hnode]⟩
  | _ => cases hflushed

theorem exec_keeps (command : Command U) (s : State U) :
    (exec command s).2.names = s.names ∧ ∀ d, (exec command s).2.docs d = s.docs d ∨ command = .displace d ∧
          (exec command s).2.docs d = (s.docs d).map ({ · with isDisplaced := true }) := by
  cases command with
  | setFileContent e content =>
    simp only [exec]
    split
    · exact ⟨rfl, fun _ => .inl rfl⟩
    · split
      · unfold State.write
        split <;> exact ⟨rfl, fun _ => .inl rfl⟩
      · exact ⟨rfl, fun _ => .inl rfl⟩
  | displace e =>
    simp only [exec]
    split
    · exact ⟨rfl, fun _ => .inl rfl⟩
    · rename_i doc hdoc
      refine ⟨rfl, fun d => ?_⟩
      by_cases hd : d = e
      · subst hd
        exact .inr ⟨rfl, by simp [State.put, hdoc]⟩
      · exact .inl (by simp [State.put, hd])
  | _ => exact ⟨rfl, fun _ => .inl rfl⟩

theorem alter_docs (change : Doc U → Doc U) (e : Nat) :
    (s.alter e change).names = s.names ∧
      (s.alter e change).docs d = if d = e then (s.docs d).map change else s.docs d := by
  unfold State.alter
  split
  · rename_i hnone
    refine ⟨rfl, ?_⟩
    split_ifs with hd
    · rw [hd, hnone]
      rfl
    · rfl
  · rename_i doc hdoc
    refine ⟨rfl, ?_⟩
    split_ifs with hd
    · subst hd
      simp [State.put, hdoc]
    · simp [State.put, hd]

theorem Underway.congr {s' : State U} {doc' : Doc U} (h : Underway s d doc)
    (hthere : s'.docs d = some doc') (huuid : doc'.uuid = doc.uuid) (hpath : doc'.path = doc.path)
    (hino : doc'.ino = doc.ino) (hconflicting : doc'.isConflicting = doc.isConflicting)
    (hnames : s'.names doc.uuid doc.path = s.names doc.uuid doc.path)
    (hdisplaced : doc'.isDisplaced = true → s.at? doc ≠ some doc.node) :
    ∃ doc', Underway s' d doc' ∧ doc'.node = doc.node ∧ s'.at? doc' = s.at? doc := by
  have hnode : doc'.node = doc.node := by simp only [Doc.node, hino]
  have hat : s'.at? doc' = s.at? doc := by simp only [State.at?, huuid, hpath, hnames]
  refine ⟨doc', ⟨hthere, hconflicting.trans h.quiet, fun hflag => ?_⟩, hnode, hat⟩
  rw [hat, hnode]
  exact hdisplaced hflag

theorem underway_exec (h : Underway s d doc) (hgone : command = .displace d → s.at? doc ≠ some doc.node) :
    ∃ doc', Underway (exec command s).2 d doc' ∧ doc'.node = doc.node ∧ (exec command s).2.at? doc' = s.at? doc := by
  obtain ⟨hnames, hdocs⟩ := exec_keeps command s
  rcases hdocs d with hsame | ⟨hcommand, hdisplaced⟩
  · exact h.congr (hsame.trans h.there) rfl rfl rfl rfl (by rw [hnames]) h.displaced
  · rw [h.there, Option.map_some] at hdisplaced
    exact h.congr hdisplaced rfl rfl rfl rfl (by rw [hnames]) fun _ => hgone hcommand

theorem underway_alter (h : Underway s d doc) (e : Nat) {change : Doc U → Doc U}
    (hplace : (change doc).uuid = doc.uuid ∧ (change doc).path = doc.path ∧ (change doc).ino = doc.ino)
    (hflags : d = e → (change doc).isConflicting = doc.isConflicting)
    (hdisplaced : (change doc).isDisplaced = doc.isDisplaced) :
    ∃ doc', Underway (s.alter e change) d doc' ∧ doc'.node = doc.node ∧ (s.alter e change).at? doc' = s.at? doc := by
  obtain ⟨hnames, hdocs⟩ := alter_docs (s := s) (d := d) change e
  rw [h.there] at hdocs
  split_ifs at hdocs with hd
  · refine h.congr hdocs hplace.1 hplace.2.1 hplace.2.2 (hflags hd) (by rw [hnames]) ?_
    rw [hdisplaced]
    exact h.displaced
  · exact h.congr hdocs rfl rfl rfl rfl (by rw [hnames]) h.displaced

theorem underway_outside {a : Outside U} (h : Underway service.shared d doc)
    (hbusy : ¬AtRest service d) (hcalm : Calm service (.outside a)) :
    ∃ doc', Underway (outside service.shared a) d doc' ∧ doc'.node = doc.node ∧
      (outside service.shared a).at? doc' = service.shared.at? doc := by
  cases a with
  | opened e uuid path ino text users =>
    simp only [outside]
    split
    · rename_i hnone
      have hne : d ≠ e := by
        rintro rfl
        simp [h.there] at hnone
      exact h.congr (by simp [State.put, hne, h.there]) rfl rfl rfl rfl rfl h.displaced
    · exact ⟨doc, h, rfl, rfl⟩
  | edited e | users e => exact underway_alter h e ⟨rfl, rfl, rfl⟩ (fun _ => rfl) rfl
  | conflict e isConflicting =>
    refine underway_alter h e ⟨rfl, rfl, rfl⟩ (fun hd => ?_) rfl
    subst hd
    cases isConflicting with
    | false => exact h.quiet.symm
    | true => exact absurd hcalm hbusy
  | rearrange uuid names =>
    refine h.congr h.there rfl rfl rfl rfl ?_ h.displaced
    by_cases huuid : doc.uuid = uuid
    · simpa [outside, State.at?, huuid] using hcalm d doc h.there huuid hbusy
    · simp [outside, huuid]
  | contents | presence | answers => exact h.congr h.there rfl rfl rfl rfl rfl h.displaced

theorem holds_after {stage : Stage} (htelling : Telling s command)
    (hallowed : flushing.allowed stage command) (hmeaning : meaning s stage command) :
    (flushing.after stage command (exec command s).1).Holds (exec command s).2 := by
  cases command with
  | look e =>
    simp only [exec, flushing]
    cases hdoc : s.docs e with
    | none => trivial
    | some doc =>
      by_cases hflags : doc.isDisplaced || doc.isConflicting
      · simp only [hflags, if_true]
        trivial
      · simp only [hflags]
        simp only [Bool.or_eq_true, not_or, Bool.not_eq_true] at hflags
        exact ⟨doc, hdoc, hflags.2, by simp [hflags.1]⟩
  | getStat e =>
    cases hallowed
    obtain ⟨doc, hdoc⟩ := hmeaning (by simp [Command.flushed])
    obtain ⟨hanswers, hown⟩ := htelling doc hdoc.there
    simp only [exec, flushing, hdoc.there, Option.bind_some]
    by_cases hat : s.at? doc = some doc.node
    · simp only [hat, hanswers hat, if_true, Option.any_some, Doc.node, Bool.not_false]
      exact ⟨doc, hdoc, hat⟩
    · have hnone : ((if s.answers then s.at? doc else none).any fun stat => !stat.isDir) = false := by
        split
        · cases hnode : s.at? doc with
          | none => rfl
          | some node =>
            by_contra hdir
            exact hat (hnode.trans (congrArg some (hown node hnode (by simpa using hdir))))
        · rfl
      simp only [hnone]
      exact ⟨doc, hdoc, hat⟩
  | takeText e =>
    cases hallowed
    exact hmeaning (by simp [Command.flushed])
  | _ => trivial

theorem heeds_of_calm {act : Act U} (h : service.Heeds flushing meaning)
    (hcalm : Calm service act) : (step service act).Heeds flushing meaning := by
  apply Pool.heeds_step h
  · intro e
    exact ⟨.idle, follows_flush e, fun _ _ _ => trivial⟩
  · intro k op command hact hnext stage hallowed hmeaning _ _
    subst hact
    exact holds_after (hcalm (op, command) hnext) hallowed hmeaning
  · intro k task htask _ command hcommand stage hallowed hmeaning hflushed
    obtain ⟨e, he⟩ := Option.ne_none_iff_exists'.mp hflushed
    have hbusy : ¬AtRest service e := fun hrest => hrest task (List.mem_of_getElem? htask) command hcommand he
    refine (hmeaning hflushed).mono he hallowed fun doc hdoc => ?_
    rcases Pool.step_shared_cases flush exec outside service act with hsame | ⟨k, op, other, -, hnext, hexec⟩ | ⟨a, rfl, houtside⟩
    · rw [hsame]
      exact ⟨doc, hdoc, rfl, rfl⟩
    · rw [hexec]
      refine underway_exec hdoc ?_
      rintro rfl
      obtain ⟨found, hgone, htrue⟩ := h.next hnext
      cases hgone
      obtain ⟨same, hsame, hat⟩ := htrue (by simp [Command.flushed])
      cases hdoc.there.symm.trans hsame.there
      exact hat
    · exact underway_outside hdoc hbusy hcalm

theorem proper_of_heeds (h : service.Heeds flushing meaning) (act : Act U) : Proper service act := by
  cases act with
  | resume k =>
    intro next hnext
    obtain ⟨stage, hallowed, hmeaning⟩ := h.next hnext
    obtain ⟨op, command⟩ := next
    cases command with
    | setFileContent e content =>
      cases hallowed
      obtain ⟨doc, hdoc, hat⟩ := hmeaning (by simp [Command.flushed])
      intro same hsame
      cases hdoc.there.symm.trans hsame
      refine ⟨?_, hdoc.quiet, hat⟩
      cases hflag : doc.isDisplaced with
      | false => rfl
      | true => exact absurd hat (hdoc.displaced hflag)
    | displace e =>
      cases hallowed
      obtain ⟨doc, hdoc, hat⟩ := hmeaning (by simp [Command.flushed])
      intro same hsame
      cases hdoc.there.symm.trans hsame
      exact hat
    | _ => trivial
  | _ => trivial

end

/-- In a run where nothing comes between the steps of a flush, the daemon answers, and no other file takes the path
of a document, flushes write what they may and mark what is gone. -/
theorem proper_of_calm {names : String → String → Option Node} {contents : String → Nat → List U}
    {presence : String → Option CachedPresence} {acts : List (Act U)}
    (hcalm : Along step Calm (start names contents presence) acts) :
    Along step Proper (start names contents presence) acts := by
  have hstart : (start names contents presence).Heeds flushing meaning := fun task htask => by cases htask
  exact along_of_invariant (fun _ _ h hcalm => heeds_of_calm h hcalm)
    (fun _ act h _ => proper_of_heeds h act) hstart hcalm

def tree (node : Option Node) (path : String) : Option Node := if path = "/workspace/notes" then node else none

def w1 : Service Nat := start (fun _ => tree (some ⟨7, false⟩)) (fun _ _ => []) (fun _ => none)

def opened : List (Act Nat) := [.outside (.opened 0 "w1" "/workspace/notes" 7 [1] ["alice"])]

def flushes (k steps : Nat) : List (Act Nat) := .spawn 0 :: List.replicate steps (.resume k)

def removed : List (Act Nat) := opened ++ flushes 0 4 ++ [.outside (.rearrange "w1" (tree none))] ++ flushes 1 3

theorem proper_removed : Along step Proper w1 removed := by
  apply proper_of_calm
  refine ⟨trivial, trivial, ?_, ?_, ?_, ?_, ?_, trivial, ?_, ?_, ?_, trivial⟩
  · rintro next ⟨⟩
    trivial
  · rintro next ⟨⟩ doc ⟨⟩
    refine ⟨fun _ => rfl, ?_⟩
    rintro node ⟨⟩ _
    rfl
  · rintro next ⟨⟩
    trivial
  · rintro next ⟨⟩
    trivial
  · intro d doc _ _ hbusy
    refine absurd ?_ hbusy
    intro task htask command hcommand
    cases List.mem_singleton.mp htask
    cases hcommand
  · rintro next ⟨⟩
    trivial
  · rintro next ⟨⟩ doc ⟨⟩
    refine ⟨?_, ?_⟩
    · rintro ⟨⟩
    · rintro node ⟨⟩
  · rintro next ⟨⟩
    trivial

def conflicting : List (Act Nat) := opened ++ flushes 0 2 ++ [.outside (.conflict 0 true), .resume 0, .resume 0]

def replaced : List (Act Nat) := opened ++ [.outside (.rearrange "w1" (tree (some ⟨8, false⟩)))] ++ flushes 0 4

def unanswered : List (Act Nat) := opened ++ [.outside (.answers false)] ++ flushes 0 3

/-- A document in conflict is written, a file is overwritten with the text of another, and a document is marked
displaced whose file is there. -/
theorem improper_flushes :
    ¬Along step Proper w1 conflicting ∧ ¬Along step Proper w1 replaced ∧ ¬Along step Proper w1 unanswered := by
  have hlast (acts : List (Act Nat)) (act : Act Nat) (h : Along step Proper w1 (acts ++ [act])) :
      Proper (run step w1 acts) act :=
    ((along_append step Proper w1 acts [act]).mp h).2.1
  refine ⟨fun hproper => ?_, fun hproper => ?_, fun hproper => ?_⟩
  · have hwrite := hlast (conflicting.take 6) (.resume 0) hproper
    have hflags := hwrite _ rfl _ rfl
    exact absurd hflags.2.1 (by decide)
  · have hwrite := hlast (replaced.take 6) (.resume 0) hproper
    have hflags := hwrite _ rfl _ rfl
    exact absurd hflags.2.2 (by decide)
  · have hmark := hlast (unanswered.take 5) (.resume 0) hproper
    exact hmark _ rfl _ rfl rfl

end HideServer.Env.Displacement
