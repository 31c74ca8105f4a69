import HideServer.Async.Protocol
import HideServer.Env.Moves

/-!
# Conflicts and foreign changes

`sync` compares the hash of a file with that of its document, both as they are when the event is
handled. A hash that could not be fetched, and what another instance replies, differ from every hash.
What a handler knows at each stage of this protocol holds as long as the service leaves the file alone.
-/

namespace HideServer.Env.Site

open Async Cache Sync Function Trace

variable {U : Type}

variable (c : Setting U) (service : Service U)

/-- A document becomes a conflicting one only if somebody else has written the file since the service last loaded
or wrote it. -/
def RaisedByForeign (act : Act U) : Prop :=
  ∀ i d doc', ((step c service act).shared.fleet i).objects d = some doc' → doc'.isConflicting = true →
    (∃ doc, (service.shared.fleet i).objects d = some doc ∧ doc.isConflicting = true) ∨
      service.shared.foreign doc'.file = true

def Setting.compared : Command U → Option File
  | .fetchHash _ ino => some (c.file ino)
  | .mark _ ino => some (c.file ino)
  | _ => none

/-- Nobody is comparing the file. -/
def Undisturbed (file : File) : Prop :=
  ∀ task ∈ service.tasks, ∀ command ∈ task.prog.head?, c.compared command ≠ some file
  deriving Decidable

def Flushed (s : State U) (i : InstanceId) (file : File) : Prop :=
  s.foreign file = false → ∀ found ∈ s.doc i file, found.2.text = s.known file

def Apt : Command U → Prop
  -- the hash of a document is taken when it has no edits that are not in the file
  | .computeHash me ino => Flushed service.shared me (c.file ino)
  -- another instance that has the document is asked when this one has none
  | .requestHash me other ino =>
    service.shared.foreign (c.file ino) = false → (service.shared.doc other (c.file ino)).isSome →
      service.shared.doc me (c.file ino) = none
  -- the hash of a file that nobody else has written is fetched successfully
  | .fetchHash _ ino => service.shared.foreign (c.file ino) = false → service.shared.chance.ok = true
  -- the service loads or writes a file when it is not being compared
  | .setFileContent ino _ => service.shared.chance.ok = true → Undisturbed c service (c.file ino)
  | .fetchContent _ ino => service.shared.chance.ok = true → Undisturbed c service (c.file ino)
  | _ => True

/-- The file whose document a step of an instance enters in its map. -/
def enters (inst : Instance U) : Sync.Label U → Option File
  | .initialized d => (inst.objects d).map (·.file)
  | _ => none

/-- The service compares hashes at the right time, and loads, enters or writes nothing that is being compared. -/
def Timely : Act U → Prop
  | .resume k => ∀ next ∈ service.next? k, Apt c service next.2
  | .outside (.step i label) =>
    (∀ learned ∈ learns (service.shared.fleet i) label, Undisturbed c service learned.1) ∧
      ∀ file ∈ enters (service.shared.fleet i) label, Undisturbed c service file
  | _ => True

inductive Stage where
  | idle
  | hashed (ino : Nat) (hash : String)
  | differs (me : InstanceId) (ino : Nat)
  deriving DecidableEq, Repr

/-- A reply differs from every hash of a file. -/
def Stage.of (me : InstanceId) (ino : Nat) : DocHash → Stage
  | .hash hex => .hashed ino hex
  | .reply _ => .differs me ino

def comparison : Protocol (Command U) Command.Answer Stage where
  allowed stage
    | .fetchHash me ino => (∃ hash, stage = .hashed ino hash) ∨ stage = .differs me ino
    | .mark me ino => stage = .differs me ino
    | _ => True
  after stage
    | .computeHash _ ino, hash => hash.elim .idle (.hashed ino)
    | .requestHash me _ ino, packet => packet.elim .idle fun _ => .differs me ino
    | .fetchHash me ino, fileHash => if stage = .hashed ino fileHash then .idle else .differs me ino
    | _, _ => .idle

/-- A command that no stage forbids. -/
def Free (command : Command U) : Prop := ∀ stage, comparison.allowed stage command

theorem Free.of_sends {ino : Option Nat} {command : Command U} (h : Sends ino command) : Free command := by
  intro stage
  cases command with
  | getPresence | emit => trivial
  | _ => cases h

theorem only_handleConflictResolve (uuid : String) (me : InstanceId) (uid sessionId : String)
    (ino : Nat) (decision : Decision) :
    (handleConflictResolve uuid me uid sessionId ino decision : Io U Unit).Only Free := by
  refine .perform_bind (fun _ => trivial) fun found => ?_
  cases found with
  | none => exact .single (fun _ => trivial)
  | some found =>
    have happly : (applyDecision me ino found.1 found.2 decision : Io U Unit).Only Free := by
      cases decision with
      | keep => exact .single (fun _ => trivial)
      | discard =>
        refine .perform_bind (fun _ => trivial) fun content => ?_
        cases content with
        | none => trivial
        | some content => exact .single (fun _ => trivial)
    refine happly.bind fun _ => .perform_bind (fun _ => trivial) fun uids => ?_
    exact (sends_sendConflictResolved uuid uids ino).mono fun _ => Free.of_sends

section

variable (uuid : String) (me : InstanceId) (wCache : CachedWorkspace)

abbrev Heedful {α : Type} (p : Io U α) (stage : Stage) : Prop :=
  p.Follows comparison (fun _ _ => True) stage

theorem heedful_flag (ino : Nat) : Heedful (flag uuid me ino : Io U Verdict) (.differs me ino) := by
  refine .perform_bind rfl fun marked => ?_
  cases marked with
  | none => trivial
  | some marked =>
    obtain ⟨users, conflictResolver⟩ := marked
    cases conflictResolver with
    | none => trivial
    | some conflictResolver =>
      have hfree := (sends_sendConflict (U := U) uuid ino users conflictResolver).mono fun _ => Free.of_sends
      exact (hfree.follows _).bind fun _ _ _ => trivial

theorem after_fetchHash {docHash : DocHash} {fileHash : String} (hdiffers : ¬docHash.same fileHash) (ino : Nat) :
    (comparison (U := U)).after (.of me ino docHash) (.fetchHash me ino) fileHash = .differs me ino := by
  refine if_neg ?_
  cases docHash with
  | hash hex =>
    intro hsame
    cases hsame
    simp [DocHash.same] at hdiffers
  | reply packet => simp [Stage.of]

theorem heedful_compareHash (ino : Nat) {docHash : Option DocHash} {stage : Stage}
    (hstage : ∀ known ∈ docHash, stage = .of me ino known) :
    Heedful (compareHash uuid me ino docHash : Io U Verdict) stage := by
  unfold compareHash
  cases hknown : docHash.filter DocHash.truthy with
  | none => trivial
  | some known =>
    obtain rfl := hstage known (Option.filter_eq_some_iff.mp hknown).1
    have hallowed : (comparison (U := U)).allowed (.of me ino known) (.fetchHash me ino) := by
      cases known with
      | hash hex => exact .inl ⟨hex, rfl⟩
      | reply packet => exact .inr rfl
    refine .perform_bind hallowed fun fileHash => ?_
    by_cases hsame : known.same fileHash
    · rw [if_pos hsame]
      trivial
    · rw [if_neg hsame, after_fetchHash me hsame]
      exact heedful_flag uuid me ino

theorem heedful_check (ino : Nat) (stage : Stage) : Heedful (check uuid me wCache ino : Io U Verdict) stage := by
  have hmissing (stage : Stage) : Heedful (compareHash uuid me ino none : Io U Verdict) stage :=
    heedful_compareHash uuid me ino (by simp)
  unfold check getDocHash
  cases named (wCache.docs.get? ino) with
  | none => exact hmissing stage
  | some owner =>
    by_cases howner : owner = me
    · simp only [howner, if_true]
      refine .perform_bind trivial fun hash => ?_
      cases hash with
      | none => exact hmissing _
      | some hash => exact heedful_compareHash uuid me ino (by simp [comparison, Stage.of])
    · simp only [howner, if_false]
      refine .perform_bind trivial fun packet => ?_
      cases packet with
      | none => trivial
      | some packet => exact heedful_compareHash uuid me ino (by simp [comparison, Stage.of])

theorem heedful_examine (event : FSEvent) (stage : Stage) :
    Heedful (examine uuid me wCache event : Io U Verdict) stage := by
  unfold examine
  split
  · cases event.ino with
    | none => trivial
    | some ino => exact heedful_check uuid me wCache ino stage
  · trivial

theorem heedful_gather (events : List FSEvent) (batches : Dict String (List FSEvent))
    (stage : Stage) : Heedful (gather uuid me wCache events batches : Io U _) stage := by
  induction events generalizing batches stage with
  | nil => trivial
  | cons event events ih =>
    refine (heedful_examine uuid me wCache event stage).bind fun verdict stage _ => ?_
    cases verdict with
    | stop => trivial
    | skip => exact ih batches stage
    | pass => exact ih (enlist wCache event batches) stage

theorem heedful_sync (batch : List FSEvent) (stage : Stage) : Heedful (sync uuid me batch : Io U Unit) stage := by
  refine .perform_bind trivial fun cached => ?_
  cases cached with
  | none => trivial
  | some wCache =>
    refine (heedful_gather uuid me wCache batch .empty _).bind fun gathered stage _ => ?_
    cases gathered with
    | none => trivial
    | some batches => exact ((sends_sendBatches uuid batches).mono fun _ => Free.of_sends).follows stage

theorem heedful_program (op : Op) (stage : Stage) : Heedful (program uuid op : Io U Unit) stage := by
  cases op with
  | sync me batch => exact heedful_sync uuid me batch stage
  | resolve me uid sessionId ino decision =>
    exact (only_handleConflictResolve uuid me uid sessionId ino decision).follows stage

end

structure Informed (s : State U) : Prop where
  same : ∀ i j, (s.fleet i).files = (s.fleet j).files
  known : ∀ i file, s.foreign file = false → (s.fleet i).files file = s.known file

/-- The files stay as they are. -/
structure Untouched (s s' : State U) : Prop where
  files : ∀ i, (s'.fleet i).files = (s.fleet i).files
  known : s'.known = s.known
  foreign : s'.foreign = s.foreign

/-- The service loads or writes a file. -/
structure Learned (s s' : State U) (file : File) (content : List U) : Prop where
  files : ∀ i, (s'.fleet i).files = update (s.fleet i).files file content
  known : s'.known = update s.known file content
  foreign : s'.foreign = update s.foreign file false

section

variable {s s' : State U} {c : Setting U} {service : Service U}

theorem informed_start (world : World) (files : File → List U) : Informed (.start world files) :=
  ⟨fun _ _ => rfl, fun _ _ _ => rfl⟩

theorem Untouched.informed (h : Informed s) (huntouched : Untouched s s') : Informed s' := by
  constructor
  · intro i j
    rw [huntouched.files, huntouched.files, h.same i j]
  · intro i file
    rw [huntouched.files, huntouched.known, huntouched.foreign]
    exact h.known i file

theorem Learned.informed (h : Informed s) {file : File} {content : List U}
    (hlearned : Learned s s' file content) : Informed s' := by
  constructor
  · intro i j
    rw [hlearned.files, hlearned.files, h.same i j]
  · intro i other
    rw [hlearned.files, hlearned.known, hlearned.foreign]
    by_cases hother : other = file
    · subst hother
      simp
    · simpa [hother] using h.known i other

theorem informed_write (h : Informed s) (file : File) (content : List U) :
    Informed (outside s (.write file content)) := by
  constructor
  · intro i j
    simp only [outside, State.write, h.same i j]
  · intro i other
    by_cases hother : other = file
    · subst hother
      simp [outside]
    · simpa [outside, State.write, hother] using h.known i other

theorem exec_touches (h : Informed service.shared) {command : Command U} (hapt : Apt c service command) :
    Untouched service.shared (exec c command service.shared).2 ∨ ∃ file content, Undisturbed c service file ∧
        Learned service.shared (exec c command service.shared).2 file content := by
  cases command with
  | setFileContent ino content =>
    simp only [exec]
    split
    · rename_i hok
      exact .inr ⟨c.file ino, content, hapt hok, fun _ => rfl, rfl, rfl⟩
    · exact .inl ⟨fun _ => rfl, rfl, rfl⟩
  | fetchContent me ino =>
    simp only [exec]
    split
    · rename_i hok
      refine .inr ⟨c.file ino, _, hapt hok, fun i => ?_, rfl, rfl⟩
      rw [h.same me i, update_eq_self]
      rfl
    · exact .inl ⟨fun _ => rfl, rfl, rfl⟩
  | mark | replace | clear =>
    simp only [exec]
    split
    · exact .inl ⟨fun _ => rfl, rfl, rfl⟩
    · exact .inl ⟨files_put, rfl, rfl⟩
  | _ => exact .inl ⟨fun _ => rfl, rfl, rfl⟩

theorem here_exec (command : Command U) (j : InstanceId) (file : File) :
    ((exec c command s).2.fleet j).here file = (s.fleet j).here file := by
  have hput (i : InstanceId) (d : Nat) (doc : WSSharedDoc U) :
      ((s.put i d doc).fleet j).here file = (s.fleet j).here file := by
    by_cases hj : j = i
    · subst hj
      simp only [State.put, update_self]
      rfl
    · simp only [State.put, update_of_ne hj]
  cases command with
  | setFileContent | fetchContent =>
    simp only [exec]
    split <;> rfl
  | mark | replace | clear =>
    simp only [exec]
    split
    · rfl
    · exact hput _ _ _
  | _ => rfl

/-- A file of which an instance has no document has none until one is entered. -/
theorem here_outside (hstanding : Standing s) {a : Outside U} {file : File}
    (henters : ∀ i label, a = .step i label → enters (s.fleet i) label ≠ some file) (j : InstanceId)
    (hnone : (s.fleet j).here file = none) : ((outside s a).fleet j).here file = none := by
  cases a with
  | step i label =>
    simp only [outside, (act_fleet i label).1]
    by_cases hj : j = i
    · subst hj
      obtain ⟨owner, hplaced⟩ := hstanding j
      rw [Fleet.act_self]
      by_contra hsome
      obtain ⟨d, hd⟩ := Option.ne_none_iff_exists'.mp hsome
      rcases here_step hplaced hd with hbefore | ⟨rfl, doc, hdoc, hfile⟩
      · simp [hnone] at hbefore
      · exact henters j _ rfl (by simp [enters, hdoc, hfile])
    · rw [Fleet.act_of_ne hj]
      exact hnone
  | awareness i uid other added removed =>
    simp only [outside]
    split <;> exact hnone
  | write | world | chance => exact hnone

theorem act_touches (h : Informed s) (i : InstanceId) (label : Sync.Label U) :
    Untouched s (s.act i label) ∨ ∃ file content, learns (s.fleet i) label = some (file, content) ∧
        Learned s (s.act i label) file content := by
  have hfiles (j : InstanceId) : ((s.act i label).fleet j).files = (Sync.step (s.fleet i) label).files := by
    rw [(act_fleet i label).1]
    by_cases hj : j = i
    · rw [hj, Fleet.act_self]
    · rw [Fleet.act_of_ne hj]
  obtain ⟨hknown, hforeign⟩ := act_known (s := s) i label
  have hstep := files_step (s.fleet i) label
  cases hlearns : learns (s.fleet i) label with
  | none =>
    rw [hlearns] at hknown hforeign hstep
    refine .inl ⟨fun j => ?_, hknown, hforeign⟩
    rw [hfiles, hstep, h.same j i]
    rfl
  | some learned =>
    rw [hlearns] at hknown hforeign hstep
    refine .inr ⟨learned.1, learned.2, rfl, fun j => ?_, hknown, hforeign⟩
    rw [hfiles, hstep, h.same j i]
    rfl

theorem outside_touches (h : Informed s) (a : Outside U) :
    Untouched s (outside s a) ∨
    (∃ i label file content, a = .step i label ∧ learns (s.fleet i) label = some (file, content) ∧
      Learned s (outside s a) file content) ∨
    ∃ file content, a = .write file content := by
  cases a with
  | step i label =>
    rcases act_touches h i label with huntouched | ⟨file, content, hlearns, hlearned⟩
    · exact .inl huntouched
    · exact .inr (.inl ⟨i, label, file, content, rfl, hlearns, hlearned⟩)
  | write file content => exact .inr (.inr ⟨file, content, rfl⟩)
  | awareness i uid file added removed =>
    left
    simp only [outside]
    split <;> exact ⟨fun _ => rfl, rfl, rfl⟩
  | world | chance => exact .inl ⟨fun _ => rfl, rfl, rfl⟩

section

variable (h : Informed service.shared)

include h

theorem step_touches {act : Act U} (htimely : Timely c service act) :
    Untouched service.shared (step c service act).shared ∨
    (∃ file content, Undisturbed c service file ∧ Learned service.shared (step c service act).shared file content) ∨
    ∃ file content, act = .outside (.write file content) := by
  rcases step_shared c service act with hsame | ⟨k, op, command, rfl, hnext, hexec⟩ | ⟨a, rfl, houtside⟩
  · rw [hsame]
    exact .inl ⟨fun _ => rfl, rfl, rfl⟩
  · rw [hexec]
    rcases exec_touches h (htimely (op, command) hnext) with huntouched | hlearned
    · exact .inl huntouched
    · exact .inr (.inl hlearned)
  · rcases outside_touches h a with huntouched | ⟨i, label, file, content, rfl, hlearns, hlearned⟩ | ⟨file, content, rfl⟩
    · exact .inl huntouched
    · exact .inr (.inl ⟨file, content, htimely.1 (file, content) hlearns, hlearned⟩)
    · exact .inr (.inr ⟨file, content, rfl⟩)

theorem informed_step {act : Act U} (htimely : Timely c service act) : Informed (step c service act).shared := by
  rcases step_touches h htimely with huntouched | ⟨file, content, -, hlearned⟩ | ⟨file, content, rfl⟩
  · exact huntouched.informed h
  · exact hlearned.informed h
  · exact informed_write h file content

theorem compared_step {act : Act U} (htimely : Timely c service act)
    (file : File) (hcompared : ¬Undisturbed c service file) :
    (step c service act).shared.known file = service.shared.known file ∧
      (service.shared.foreign file = true → (step c service act).shared.foreign file = true) := by
  rcases step_touches h htimely with huntouched | ⟨other, content, hundisturbed, hlearned⟩ | ⟨other, content, rfl⟩
  · rw [huntouched.known, huntouched.foreign]
    exact ⟨rfl, id⟩
  · have hne : file ≠ other := by
      rintro rfl
      exact hcompared hundisturbed
    simp [hlearned.known, hlearned.foreign, hne]
  · refine ⟨rfl, fun hforeign => ?_⟩
    by_cases hother : file = other
    · subst hother
      simp [step, outside]
    · simpa [step, outside, hother] using hforeign

end

theorem here_compared_step (hstanding : Standing service.shared) {act : Act U} (htimely : Timely c service act) {file : File}
    (hcompared : ¬Undisturbed c service file) (j : InstanceId) (hnone : (service.shared.fleet j).here file = none) :
    ((step c service act).shared.fleet j).here file = none := by
  rcases step_shared c service act with hsame | ⟨k, op, command, rfl, -, hexec⟩ | ⟨a, rfl, houtside⟩
  · rw [hsame]
    exact hnone
  · rw [hexec, here_exec]
    exact hnone
  · refine here_outside hstanding (fun i label ha hentered => ?_) j hnone
    subst ha
    exact hcompared (htimely.2 file hentered)

end

/-- What a handler may rely on at a stage: it marks nothing, or somebody else has written the file. -/
def Stage.Holds (s : State U) : Stage → Prop
  | .idle => True
  | .hashed ino hash => s.foreign (c.file ino) = false → hash = c.hash (s.known (c.file ino))
  | .differs me ino => s.foreign (c.file ino) = true ∨ (s.fleet me).here (c.file ino) = none

/-- What a stage says while a file is compared. -/
def meaning (s : State U) (stage : Stage) (command : Command U) : Prop :=
  c.compared command ≠ none → stage.Holds c s

section

variable {c : Setting U} {service : Service U}

theorem holds_of_allowed {s s' : State U} {stage : Stage} {command : Command U} {file : File}
    (hcompared : c.compared command = some file) (hallowed : comparison.allowed stage command)
    (hknown : s'.known file = s.known file)
    (hforeign : s.foreign file = true → s'.foreign file = true)
    (hhere : ∀ i, (s.fleet i).here file = none → (s'.fleet i).here file = none) (hholds : stage.Holds c s) :
    stage.Holds c s' := by
  cases command with
  | fetchHash me ino =>
    cases hcompared
    rcases hallowed with ⟨hash, rfl⟩ | rfl
    · intro hfalse
      rw [hknown]
      apply hholds
      cases hbefore : s.foreign (c.file ino) with
      | false => rfl
      | true => simp [hforeign hbefore] at hfalse
    · exact hholds.imp hforeign (hhere me)
  | mark me ino =>
    cases hcompared
    cases hallowed
    exact hholds.imp hforeign (hhere me)
  | _ => cases hcompared

theorem holds_after (h : Informed service.shared) (hstanding : Standing service.shared) {command : Command U}
    (hapt : Apt c service command) {stage : Stage} (hallowed : comparison.allowed stage command)
    (hmeaning : meaning c service.shared stage command) :
    (comparison.after stage command (exec c command service.shared).1).Holds c (exec c command service.shared).2 := by
  cases command with
  | computeHash me ino =>
    simp only [exec, comparison]
    cases hfound : service.shared.doc me (c.file ino) with
    | none => trivial
    | some found =>
      intro hforeign
      exact congrArg c.hash (hapt hforeign found hfound)
  | requestHash me other ino =>
    simp only [exec, comparison]
    cases hfound : service.shared.doc other (c.file ino) with
    | none => trivial
    | some found =>
      cases hforeign : service.shared.foreign (c.file ino) with
      | true => exact .inl hforeign
      | false => exact .inr ((hstanding.doc_eq_none _ _).mp (hapt hforeign (by simp [hfound])))
  | fetchHash me ino =>
    have hholds := hmeaning (by simp [Setting.compared])
    rcases hallowed with ⟨hash, rfl⟩ | rfl
    · cases hforeign : service.shared.foreign (c.file ino) with
      | false =>
        have hsame : (exec c (.fetchHash me ino) service.shared).1 = hash := by
          simp only [exec]
          rw [if_pos (hapt hforeign), h.known me _ hforeign, hholds hforeign]
        rw [hsame]
        simp [comparison, Stage.Holds]
      | true =>
        simp only [comparison]
        split
        · trivial
        · exact .inl hforeign
    · simpa [comparison, exec] using hholds
  | _ => trivial

structure Aware (c : Setting U) (service : Service U) : Prop where
  standing : Standing service.shared
  informed : Informed service.shared
  heeds : service.Heeds comparison (meaning c)

theorem aware_start (c : Setting U) (world : World) (files : File → List U) : Aware c (start world files) where
  standing := standing_start world files
  informed := informed_start world files
  heeds _ htask := nomatch htask

theorem aware_step (h : Aware c service) {act : Act U} (htimely : Timely c service act) :
    Aware c (step c service act) where
  standing := standing_step h.standing c act
  informed := informed_step h.informed htimely
  heeds := by
    apply Pool.heeds_step h.heeds
    · intro op
      exact ⟨.idle, heedful_program c.uuid op .idle, fun _ _ _ => trivial⟩
    · intro k op command hact hnext stage hallowed hmeaning _ _
      subst hact
      exact holds_after h.informed h.standing (htimely (op, command) hnext) hallowed hmeaning
    · intro k task htask _ command hcommand stage hallowed hmeaning hcompared
      obtain ⟨file, hfile⟩ := Option.ne_none_iff_exists'.mp hcompared
      have hcomparing : ¬Undisturbed c service file :=
        fun hundisturbed => hundisturbed task (List.mem_of_getElem? htask) command hcommand hfile
      obtain ⟨hknown, hforeign⟩ := compared_step h.informed htimely file hcomparing
      have hhere := here_compared_step h.standing htimely hcomparing
      exact holds_of_allowed hfile hallowed hknown hforeign hhere (hmeaning hcompared)

theorem Aware.raisedByForeign (h : Aware c service) (act : Act U) : RaisedByForeign c service act := by
  intro i d doc' hdoc' hafter
  rcases step_shared c service act with hsame | ⟨k, op, command, -, hnext, hexec⟩ | ⟨a, -, houtside⟩
  · rw [hsame] at hdoc'
    exact .inl ⟨doc', hdoc', hafter⟩
  · rw [hexec] at hdoc'
    rcases eq_mark_of_raised hdoc' hafter with hbefore | ⟨doc, ino, rfl, hfound, hfile⟩
    · exact .inl hbefore
    · obtain ⟨stage, hallowed, hmeaning⟩ := h.heeds.next hnext
      cases hallowed
      rw [hfile, (h.standing.found hfound).1]
      refine .inr ((hmeaning (by simp [Setting.compared])).resolve_right fun hnone => ?_)
      simp [(doc_eq_some.mp hfound).1] at hnone
  · rw [houtside] at hdoc'
    exact .inl (conflicting_before_outside h.standing a hdoc' hafter)

end

/-- In a run where hashes are taken of flushed documents, fetched successfully, and compared while the service
leaves the file alone, only a foreign change raises a conflict. -/
theorem raisedByForeign_of_timely {c : Setting U} {world : World} {files : File → List U}
    {acts : List (Act U)} (htimely : Along (step c) (Timely c) (start world files) acts) :
    Along (step c) (RaisedByForeign c) (start world files) acts := by
  have hstep (service : Service U) (act : Act U) : Aware c service → Timely c service act →
      Aware c (step c service act) := fun h htimely => aware_step h htimely
  exact along_of_invariant hstep (fun _ act h _ => h.raisedByForeign act) (aware_start c world files) htimely

instance [DecidableEq U] (s : State U) (i : InstanceId) (file : File) : Decidable (Flushed s i file) :=
  inferInstanceAs (Decidable (_ → ∀ found ∈ s.doc i file, found.2.text = s.known file))

instance [DecidableEq U] (c : Setting U) (service : Service U) (command : Command U) :
    Decidable (Apt c service command) := by
  cases command <;> (unfold Apt; infer_instance)

instance [DecidableEq U] (c : Setting U) (service : Service U) (act : Act U) : Decidable (Timely c service act) := by
  unfold Timely
  split <;> infer_instance

def opens (i : InstanceId) : List (Act Nat) :=
  [.outside (.step i (.openFile "alice" notes (some none))), .outside (.step i (.read 0 true true)),
    .outside (.step i (.initialized 0)), .outside (.world (noted i .empty))]

def types (i : InstanceId) : List (Act Nat) :=
  [.outside (.step i (.handleSync notes (some 1))), .outside (.step i (.fire 0)),
    .outside (.step i (.stat 0 0 true)), .outside (.step i (.write 0 0 true))]

/-- Alice types a line, and it is flushed. -/
def typed : List (Act Nat) := opens e1 ++ types e1

/-- Somebody else writes the file. -/
def overwritten : List (Act Nat) :=
  typed ++ [.spawn (.sync e1 [written]), .resume 0, .resume 0, .resume 0, .outside (.write notes [5, 6]),
    .spawn (.sync e1 [written]), .resume 1, .resume 1, .resume 1, .resume 1]

theorem raisedByForeign_overwritten : Along (step w1) (RaisedByForeign w1) (start .empty fun _ => []) overwritten :=
  raisedByForeign_of_timely (by decide +kernel)

def typedOn : List (Act Nat) :=
  typed ++ [.outside (.step e1 (.handleSync notes (some 2))), .spawn (.sync e1 [written]), .resume 0, .resume 0,
    .resume 0, .resume 0]

def unanswered : List (Act Nat) :=
  typed ++ [.spawn (.sync e1 [written]), .resume 0, .resume 0, .outside (.chance ⟨0, false⟩), .resume 0, .resume 0]

/-- Both instances have a document of the file, and the cache names the second one. -/
def openTwice : List (Act Nat) :=
  opens e1 ++ opens e2 ++ types e2 ++ [.spawn (.sync e1 [written]), .resume 0, .resume 0, .resume 0, .resume 0]

theorem not_raisedByForeign {c : Setting U} {service : Service U} {act : Act U} {i : InstanceId}
    {d : Nat} {doc doc' : WSSharedDoc U} (hdoc : (service.shared.fleet i).objects d = some doc)
    (hbefore : doc.isConflicting = false) (hdoc' : ((step c service act).shared.fleet i).objects d = some doc')
    (hafter : doc'.isConflicting = true) (hforeign : service.shared.foreign doc'.file = false) :
    ¬RaisedByForeign c service act := by
  intro hraised
  rcases hraised i d doc' hdoc' hafter with ⟨same, hsame, htrue⟩ | htrue
  · cases hdoc.symm.trans hsame
    simp [hbefore] at htrue
  · simp [hforeign] at htrue

/-- Nobody else has written the file in any of the runs, and all end with a conflict. -/
theorem conflict_unanswered :
    ¬Along (step w1) (RaisedByForeign w1) (start .empty fun _ => []) typedOn ∧
      ¬Along (step w1) (RaisedByForeign w1) (start .empty fun _ => []) unanswered ∧
      ¬Along (step w1) (RaisedByForeign w1) (start .empty fun _ => []) openTwice := by
  refine ⟨?_, ?_, ?_⟩
  · intro hraised
    have hlast := ((along_append (step w1) (RaisedByForeign w1) _ (typedOn.take 13) [.resume 0]).mp hraised).2.1
    exact not_raisedByForeign (i := e1) (d := 0) (by rfl) (by rfl) (by rfl) (by rfl) (by rfl) hlast
  · intro hraised
    have hlast := ((along_append (step w1) (RaisedByForeign w1) _ (unanswered.take 13) [.resume 0]).mp hraised).2.1
    exact not_raisedByForeign (i := e1) (d := 0) (by rfl) (by rfl) (by rfl) (by rfl) (by rfl) hlast
  · intro hraised
    have hlast := ((along_append (step w1) (RaisedByForeign w1) _ (openTwice.take 16) [.resume 0]).mp hraised).2.1
    exact not_raisedByForeign (i := e1) (d := 0) (by rfl) (by rfl) (by rfl) (by rfl) (by rfl) hlast

end HideServer.Env.Site
