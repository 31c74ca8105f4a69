import HideServer.Env.Placed
import HideServer.Env.Watch

/-!
# What the steps of the service do to documents

Only `mark` makes a document a conflicting one, and only `clear` ends a conflict.
-/

namespace HideServer.Env.Site

open Async Async.Prog Cache Sync Instance

variable {U : Type} {s s' : State U} {i : InstanceId} {d : Nat} {doc doc' : WSSharedDoc U}

theorem doc_eq_some {file : File} : s.doc i file = some (d, doc) ↔
    (s.fleet i).here file = some d ∧ (s.fleet i).objects d = some doc :=
  found_eq_some

theorem objects_fleet_put (j : InstanceId) (e : Nat) : ((s.put i d doc').fleet j).objects e =
    if j = i ∧ e = d then some doc' else (s.fleet j).objects e := by
  by_cases hj : j = i
  · subst hj
    simp [State.put, objects_put]
  · simp [State.put, hj]

theorem files_put (j : InstanceId) : ((s.put i d doc').fleet j).files = (s.fleet j).files := by
  by_cases hj : j = i
  · subst hj
    simp [State.put, put]
  · simp [State.put, hj]

theorem removeAwareness_eq (uid : String) : ∃ awareness announced,
    s.removeAwareness i d uid = { s with awareness := awareness, announced := announced } := by
  unfold State.removeAwareness
  split
  · exact ⟨_, _, rfl⟩
  · simp only
    split
    · exact ⟨_, _, rfl⟩
    · exact ⟨_, _, rfl⟩

theorem attend_eq (before : Instance U) (label : Sync.Label U) : ∃ awareness announced,
    s.attend i before label = { s with awareness := awareness, announced := announced } := by
  unfold State.attend
  split
  · split
    · split <;> exact ⟨_, _, rfl⟩
    · exact ⟨_, _, rfl⟩
  · split
    · split
      · exact removeAwareness_eq _
      · exact ⟨_, _, rfl⟩
    · exact ⟨_, _, rfl⟩
  · exact ⟨_, _, rfl⟩

theorem learned_fleet (learns : Option (File × List U)) :
    (s.learned learns).fleet = s.fleet ∧ (s.learned learns).conflictResolver = s.conflictResolver := by
  cases learns <;> exact ⟨rfl, rfl⟩

theorem act_fleet (i : InstanceId) (label : Sync.Label U) :
    (s.act i label).fleet = s.fleet.act i label ∧ (s.act i label).conflictResolver = s.conflictResolver := by
  obtain ⟨awareness, announced, hact⟩ := attend_eq (s.fleet i) label
  rw [State.act, hact]
  exact learned_fleet _

theorem act_known (i : InstanceId) (label : Sync.Label U) :
    (s.act i label).known = (s.learned (learns (s.fleet i) label)).known ∧
      (s.act i label).foreign = (s.learned (learns (s.fleet i) label)).foreign := by
  obtain ⟨awareness, announced, hact⟩ := attend_eq (s.fleet i) label
  rw [State.act, hact]
  cases learns (s.fleet i) label <;> exact ⟨rfl, rfl⟩

theorem world_act (i : InstanceId) (label : Sync.Label U) : (s.act i label).world = s.world := by
  obtain ⟨awareness, announced, hact⟩ := attend_eq (s.fleet i) label
  rw [State.act, hact]
  cases learns (s.fleet i) label <;> rfl

theorem abandon_files (inst : Instance U) (d : Nat) (doc : WSSharedDoc U) :
    (inst.abandon d doc).files = inst.files := by
  simp only [abandon]
  split
  · rfl
  · split <;> rfl

theorem files_step (inst : Instance U) (label : Sync.Label U) : (Sync.step inst label).files =
    (learns inst label).elim inst.files fun learned =>
      Function.update inst.files learned.1 learned.2 := by
  cases label with
  | openFile uid file cached =>
    simp only [Sync.step, openFile, learns, Option.elim]
    split
    · rfl
    · split
      · unfold join
        split <;> rfl
      · exact activeDocs_files file.uuid
  | read d ok blank =>
    simp only [Sync.step, Instance.read, learns]
    cases hdoc : inst.objects d with
    | none => simp
    | some doc =>
      cases hload : doc.load with
      | requested map uid => cases ok <;> simp [hload, abandon_files, Instance.put]
      | served | finished => cases ok <;> simp [hload]
  | initialized d =>
    simp only [Sync.step, initialized, learns, Option.elim]
    split
    · rfl
    · split <;> rfl
  | handleSync file update =>
    simp only [Sync.step, handleSync, learns, Option.elim]
    split <;> rfl
  | closeFile uid file cached =>
    simp only [Sync.step, closeFile, learns, Option.elim]
    split
    · rfl
    · split
      · rfl
      · split <;> rfl
  | closed i => exact (closed_objects_files i).2
  | fire d =>
    simp only [Sync.step, fire, learns, Option.elim]
    split
    · rfl
    · split <;> rfl
  | stat d i ok =>
    simp only [Sync.step, stat, learns, Option.elim]
    split
    · rfl
    · split
      · split <;> rfl
      · rfl
  | write d i ok =>
    simp only [Sync.step, write, learns]
    cases hdoc : inst.objects d with
    | none => simp
    | some doc =>
      cases hflush : doc.flushes[i]? with
      | none => simp [hflush]
      | some flush => cases flush <;> cases ok <;> simp [hflush, put]

theorem objects_act (j : InstanceId) (label : Sync.Label U) : ((s.act i label).fleet j).objects =
    if j = i then (Sync.step (s.fleet i) label).objects else (s.fleet j).objects := by
  rw [(act_fleet i label).1]
  split_ifs with hj
  · rw [hj, Fleet.act_self]
  · rw [Fleet.act_of_ne hj]

theorem objects_outside (a : Outside U) :
    (∀ i, ((outside s a).fleet i).objects = (s.fleet i).objects) ∨ ∃ i label, a = .step i label := by
  cases a with
  | step i label => exact .inr ⟨i, label, rfl⟩
  | awareness i uid file added removed =>
    left
    intro j
    simp only [outside]
    split <;> rfl
  | _ => exact .inl fun _ => rfl

theorem world_outside (a : Outside U) : (outside s a).world = s.world ∨ a = .world (outside s a).world := by
  cases a with
  | step i label => exact .inl (world_act i label)
  | awareness i uid file added removed =>
    left
    simp only [outside]
    split <;> rfl
  | world world => exact .inr rfl
  | _ => exact .inl rfl

theorem objects_exec (c : Setting U) (command : Command U) (s : State U) :
    (∀ i d, ((exec c command s).2.fleet i).objects d = (s.fleet i).objects d) ∨
    ∃ me e doc doc', (s.fleet me).objects e = some doc ∧
      (∀ i d, ((exec c command s).2.fleet i).objects d = if i = me ∧ d = e then some doc' else (s.fleet i).objects d) ∧
      doc'.file = doc.file ∧
      (doc'.isConflicting = doc.isConflicting ∨ (doc'.isConflicting = false ∧ command = .clear me e) ∨
        (doc'.isConflicting = true ∧ ∃ ino, command = .mark me ino ∧ s.doc me (c.file ino) = some (e, doc))) := by
  cases command with
  | mark me ino =>
    simp only [exec]
    split
    · exact .inl fun _ _ => rfl
    · rename_i e doc hfound
      exact .inr ⟨me, e, doc, _, (doc_eq_some.mp hfound).2, objects_fleet_put, rfl,
        .inr (.inr ⟨rfl, ino, rfl, hfound⟩)⟩
  | replace me e content =>
    simp only [exec]
    split
    · exact .inl fun _ _ => rfl
    · rename_i doc hdoc
      exact .inr ⟨me, e, doc, _, hdoc, objects_fleet_put, rfl, .inl rfl⟩
  | clear me e =>
    simp only [exec]
    split
    · exact .inl fun _ _ => rfl
    · rename_i doc hdoc
      exact .inr ⟨me, e, doc, _, hdoc, objects_fleet_put, rfl, .inr (.inl ⟨rfl, rfl⟩)⟩
  | setFileContent | fetchContent =>
    simp only [exec]
    split <;> exact .inl fun _ _ => rfl
  | _ => exact .inl fun _ _ => rfl

theorem world_exec (c : Setting U) (command : Command U) : (exec c command s).2.world = s.world := by
  cases command with
  | mark | setFileContent | fetchContent | replace | clear =>
    simp only [exec]
    split <;> rfl
  | _ => rfl

theorem eq_clear_of_ended {c : Setting U} {command : Command U}
    (hdoc : (s.fleet i).objects d = some doc) (hbefore : doc.isConflicting = true)
    (hdoc' : ((exec c command s).2.fleet i).objects d = some doc')
    (hafter : doc'.isConflicting = false) : command = .clear i d := by
  rcases objects_exec c command s with hsame | ⟨me, e, x, y, hx, hobjects, -, hflag⟩
  · rw [hsame, hdoc] at hdoc'
    cases hdoc'
    simp [hbefore] at hafter
  · rw [hobjects] at hdoc'
    split_ifs at hdoc' with hhere
    · obtain ⟨rfl, rfl⟩ := hhere
      cases hdoc'
      cases hdoc.symm.trans hx
      rcases hflag with hsame | ⟨-, hclear⟩ | ⟨htrue, -⟩
      · simp [hsame, hbefore] at hafter
      · exact hclear
      · simp [htrue] at hafter
    · cases hdoc.symm.trans hdoc'
      simp [hbefore] at hafter

theorem eq_mark_of_raised {c : Setting U} {command : Command U}
    (hdoc' : ((exec c command s).2.fleet i).objects d = some doc') (hafter : doc'.isConflicting = true) :
    (∃ doc, (s.fleet i).objects d = some doc ∧ doc.isConflicting = true) ∨
      ∃ doc ino, command = .mark i ino ∧ s.doc i (c.file ino) = some (d, doc) ∧ doc'.file = doc.file := by
  rcases objects_exec c command s with hsame | ⟨me, e, x, y, hx, hobjects, hfile, hflag⟩
  · rw [hsame] at hdoc'
    exact .inl ⟨doc', hdoc', hafter⟩
  · rw [hobjects] at hdoc'
    split_ifs at hdoc' with hhere
    · obtain ⟨rfl, rfl⟩ := hhere
      cases hdoc'
      rcases hflag with hsame | ⟨hfalse, -⟩ | ⟨-, ino, hmark, hfound⟩
      · exact .inl ⟨x, hx, hsame ▸ hafter⟩
      · simp [hfalse] at hafter
      · exact .inr ⟨x, ino, hmark, hfound, hfile⟩
    · exact .inl ⟨doc', hdoc', hafter⟩

/-- Every instance is placed. -/
def Standing (s : State U) : Prop := ∀ i, ∃ owner, Placed owner (s.fleet i)

theorem standing_start (world : World) (files : File → List U) : Standing (.start world files) :=
  fun i => ⟨fun _ => "", placed_start _ i.1 files⟩

section

variable (h : Standing s)

include h

theorem Standing.found {file : File} (hfound : s.doc i file = some (d, doc)) :
    doc.file = file ∧ doc.destroyed = false ∧ doc.load.into = none ∧ doc.users ≠ [] := by
  obtain ⟨hhere, hdoc⟩ := doc_eq_some.mp hfound
  obtain ⟨owner, hplaced⟩ := h i
  exact hplaced.found_at hhere hdoc

theorem Standing.doc_eq_none (i : InstanceId) (file : File) : s.doc i file = none ↔ (s.fleet i).here file = none := by
  constructor
  · intro hnone
    by_contra hsome
    obtain ⟨d, hhere⟩ := Option.ne_none_iff_exists'.mp hsome
    obtain ⟨owner, hplaced⟩ := h i
    obtain ⟨doc, hdoc, -⟩ := hplaced.found hhere
    simp [doc_eq_some.mpr ⟨hhere, hdoc⟩] at hnone
  · intro hnone
    simp [State.doc, hnone]

theorem Standing.congr (hfleet : s'.fleet = s.fleet) : Standing s' := by
  unfold Standing
  rw [hfleet]
  exact h

theorem Standing.put
    (hput : ∀ owner, Placed owner (s.fleet i) → Placed owner ((s.fleet i).put d doc')) : Standing (s.put i d doc') := by
  intro j
  obtain ⟨owner, hplaced⟩ := h j
  by_cases hj : j = i
  · subst hj
    exact ⟨owner, by simpa [State.put] using hput owner hplaced⟩
  · exact ⟨owner, by simpa [State.put, hj] using hplaced⟩

theorem Standing.write (file : File) (content : List U) : Standing (s.write file content) := by
  intro j
  obtain ⟨owner, hplaced⟩ := h j
  exact ⟨owner, hplaced.congr rfl rfl rfl rfl id⟩

theorem standing_exec (c : Setting U) (command : Command U) : Standing (exec c command s).2 := by
  cases command with
  | mark me ino =>
    simp only [exec]
    split
    · exact h
    · rename_i d doc hfound
      obtain ⟨-, -, hload, -⟩ := h.found hfound
      refine (h.put fun owner hplaced => ?_).congr rfl
      exact hplaced.put (doc_eq_some.mp hfound).2 rfl rfl rfl (fun hloading => absurd hload hloading) id
  | replace me d content =>
    simp only [exec]
    split
    · exact h
    · rename_i doc hdoc
      refine h.put fun owner hplaced => ?_
      by_cases hload : doc.load.into = none
      · exact hplaced.put hdoc rfl rfl hload.symm (fun _ => rfl) id
      · exact hplaced.put_absent hdoc (hplaced.not_entered hdoc hload) rfl
  | clear me d =>
    simp only [exec]
    split
    · exact h
    · rename_i doc hdoc
      refine (h.put fun owner hplaced => ?_).congr rfl
      refine hplaced.put hdoc rfl rfl rfl (fun hload => ?_) id
      obtain ⟨map, hmap⟩ := Option.ne_none_iff_exists'.mp hload
      exact (hplaced.aimed hdoc hmap).2.2.symm
  | setFileContent ino content =>
    simp only [exec]
    split
    · exact (h.write (c.file ino) content).congr rfl
    · exact h
  | fetchContent me ino =>
    simp only [exec]
    split
    · exact h.congr rfl
    · exact h
  | _ => exact h

theorem standing_act (i : InstanceId) (label : Sync.Label U) : Standing (s.act i label) := by
  unfold Standing
  rw [(act_fleet i label).1]
  intro j
  obtain ⟨owner, hplaced⟩ := h j
  by_cases hj : j = i
  · subst hj
    rw [Fleet.act_self]
    exact placed_step hplaced label
  · rw [Fleet.act_of_ne hj]
    exact ⟨owner, hplaced.congr rfl rfl rfl rfl id⟩

theorem standing_outside (a : Outside U) : Standing (outside s a) := by
  cases a with
  | step i label => exact standing_act h i label
  | awareness i uid file added removed =>
    simp only [outside]
    split
    · exact h
    · exact h.congr rfl
  | write file content => exact (h.write file content).congr rfl
  | world world => exact h.congr rfl
  | chance chance => exact h.congr rfl

end

theorem step_shared (c : Setting U) (service : Service U) (act : Act U) :
    (step c service act).shared = service.shared ∨
    (∃ k op command, act = .resume k ∧ service.next? k = some (op, command) ∧
      (step c service act).shared = (exec c command service.shared).2) ∨
    ∃ a, act = .outside a ∧ (step c service act).shared = outside service.shared a :=
  Pool.step_shared_cases (program c.uuid) (exec c) outside service act

theorem standing_step {service : Service U} (h : Standing service.shared) (c : Setting U)
    (act : Act U) : Standing (step c service act).shared := by
  rcases step_shared c service act with hsame | ⟨k, op, command, -, -, hexec⟩ | ⟨a, -, houtside⟩
  · rw [hsame]
    exact h
  · rw [hexec]
    exact standing_exec h c command
  · rw [houtside]
    exact standing_outside h a

/-- Every document that an instance finds has a user. -/
def Populated (s : State U) : Prop :=
  ∀ i file d, (s.fleet i).here file = some d → ∃ doc, (s.fleet i).objects d = some doc ∧ doc.users ≠ []

def PicksSomebody (c : Setting U) (s : State U) : Prop :=
  ∀ me ino users conflictResolver, (exec c (.mark me ino) s).1 = some (users, conflictResolver) →
    users ≠ [] ∧ conflictResolver.isSome

theorem Standing.populated (h : Standing s) : Populated s := by
  intro i file d hhere
  obtain ⟨owner, hplaced⟩ := h i
  obtain ⟨doc, hdoc, -, -, -, husers⟩ := hplaced.found hhere
  exact ⟨doc, hdoc, husers⟩

theorem Standing.picksSomebody (h : Standing s) (c : Setting U) : PicksSomebody c s := by
  intro me ino users conflictResolver hmarked
  simp only [exec] at hmarked
  split at hmarked
  · cases hmarked
  · rename_i d doc hdoc
    cases hmarked
    have husers := (h.found hdoc).2.2.2
    obtain ⟨uid, -, hpicked⟩ := pickOne_mem s.chance.draw husers
    exact ⟨husers, by rw [hpicked]; rfl⟩

/-- However the handlers are interleaved, and whatever loads, requests and cache calls come to, every document that is
found has a user, and nobody is ever picked from an empty list. -/
theorem populated_run (c : Setting U) (world : World) (files : File → List U) (acts : List (Act U)) :
    Trace.Always (step c) (fun service => Populated service.shared ∧ PicksSomebody c service.shared)
      (start world files) acts := by
  intro done _
  have hstep : ∀ (service : Service U) (act : Act U), Standing service.shared → Standing (step c service act).shared :=
    fun service act h => standing_step h c act
  have hstart : Standing (start world files : Service U).shared := standing_start world files
  have hstanding : Standing (Trace.run (step c) (start world files) done).shared :=
    Trace.run_preserves (S := Service U) hstep hstart done
  exact ⟨hstanding.populated, hstanding.picksSomebody c⟩

theorem isConflicting_outside (h : Standing s) (a : Outside U) (hdoc : (s.fleet i).objects d = some doc) :
    ∃ doc', ((outside s a).fleet i).objects d = some doc' ∧ doc'.isConflicting = doc.isConflicting := by
  rcases objects_outside (s := s) a with hsame | ⟨j, label, rfl⟩
  · exact ⟨doc, by rw [hsame, hdoc], rfl⟩
  · simp only [outside, objects_act]
    split_ifs with hj
    · subst hj
      obtain ⟨owner, hplaced⟩ := h i
      exact isConflicting_step hplaced hdoc
    · exact ⟨doc, hdoc, rfl⟩

theorem conflicting_before_outside (h : Standing s) (a : Outside U)
    (hdoc' : ((outside s a).fleet i).objects d = some doc') (hafter : doc'.isConflicting = true) :
    ∃ doc, (s.fleet i).objects d = some doc ∧ doc.isConflicting = true := by
  rcases objects_outside (s := s) a with hsame | ⟨j, label, rfl⟩
  · exact ⟨doc', by rw [← hsame, hdoc'], hafter⟩
  · simp only [outside, objects_act] at hdoc'
    split_ifs at hdoc' with hj
    · subst hj
      obtain ⟨owner, hplaced⟩ := h i
      obtain ⟨doc, hdoc, hbefore, -⟩ := users_of_conflicting hplaced hdoc' hafter
      exact ⟨doc, hdoc, hbefore⟩
    · exact ⟨doc', hdoc', hafter⟩

def Sends (ino : Option Nat) : Command U → Prop
  | .getPresence _ => True
  | .emit (.conflict _ _ other _) => some other = ino
  | .emit _ => True
  | _ => False

section

variable (uuid : String)

theorem sends_sessions (ino : Option Nat) (uids : List String) : (sessions uuid uids : Io U _).Only (Sends ino) := by
  refine only_activeSessions (fun uid => ?_) uuid uids
  exact .single trivial

theorem sends_sendConflict (ino : Nat) (uids : List String) (resolverUid : String) :
    (sendConflict uuid ino uids resolverUid : Io U Unit).Only (Sends (some ino)) :=
  (sends_sessions uuid (some ino) uids).bind fun active => .each active fun _ _ => .single rfl

theorem sends_sendConflictResolved (uids : List String) (ino : Nat) :
    (sendConflictResolved uuid uids ino : Io U Unit).Only (Sends none) := by
  refine .ite trivial ?_
  exact (sends_sessions uuid none uids).bind fun active => .single trivial

theorem sends_sendBatches (batches : Dict String (List FSEvent)) :
    (sendBatches uuid batches : Io U Unit).Only (Sends none) :=
  (sends_sessions uuid none batches.keys).bind fun active => .each active fun _ _ => .single trivial

end

theorem run_sessions (c : Setting U) (uuid : String) (uids : List String) (t : State U) :
    run (exec c) (sessions uuid uids) t =
      (uids.flatMap fun uid => ((sessionId uuid (t.world.presence uid)).map fun sid => (uid, sid)).toList, t) := by
  induction uids with
  | nil => rfl
  | cons uid uids ih => simp [activeSessions, exec, ih]

theorem calls_sessions (c : Setting U) (uuid : String) (uids : List String) (t : State U) :
    calls (exec c) (sessions uuid uids) t = uids.map fun uid => (t, .getPresence uid) := by
  induction uids with
  | nil => rfl
  | cons uid uids ih => simp [activeSessions, exec, ih]

theorem calls_each {ι : Type} (c : Setting U) (notice : ι → Notice) (xs : List ι) (t : State U) :
    calls (exec c) (each xs fun x => ask (.emit (notice x))) t = xs.map fun x => (t, .emit (notice x)) := by
  induction xs with
  | nil => rfl
  | cons x xs ih => exact congrArg (List.cons _) ih

def Command.about : Command U → Option Nat
  | .computeHash _ ino | .requestHash _ _ ino | .fetchHash _ ino | .mark _ ino => some ino
  | .emit (.conflict _ _ ino _) => some ino
  | _ => none

def Syncs (me : InstanceId) : Command U → Prop
  | .getWorkspace | .getPresence _ | .emit _ | .computeHash .. | .requestHash .. | .fetchHash .. => True
  | .mark i _ => i = me
  | _ => False

section

variable (uuid : String) (me : InstanceId) (wCache : CachedWorkspace)

abbrev Concerns (me : InstanceId) (ino : Option Nat) (command : Command U) : Prop :=
  Syncs me command ∧ (command.about = none ∨ command.about = ino)

theorem Concerns.of_sends {ino : Option Nat} {command : Command U} (h : Sends ino command) :
    Concerns me ino command := by
  cases command with
  | getPresence uid => exact ⟨trivial, .inl rfl⟩
  | emit notice =>
    refine ⟨trivial, ?_⟩
    cases notice with
    | conflict uid sessionId other resolverUid => exact .inr h
    | _ => exact .inl rfl
  | _ => cases h

theorem concerns_flag (ino : Nat) : (flag uuid me ino : Io U Verdict).Only (Concerns me (some ino)) := by
  refine .perform_bind ⟨rfl, .inr rfl⟩ fun marked => ?_
  cases marked with
  | none => trivial
  | some marked =>
    obtain ⟨users, conflictResolver⟩ := marked
    cases conflictResolver with
    | none => trivial
    | some conflictResolver =>
      have hsends := (sends_sendConflict (U := U) uuid ino users conflictResolver).mono fun _ => Concerns.of_sends me
      exact hsends.bind fun _ => trivial

theorem concerns_compareHash (ino : Nat) (docHash : Option DocHash) :
    (compareHash uuid me ino docHash : Io U Verdict).Only (Concerns me (some ino)) := by
  unfold compareHash
  cases docHash.filter DocHash.truthy with
  | none => trivial
  | some docHash =>
    refine .perform_bind ⟨trivial, .inr rfl⟩ fun fileHash => ?_
    exact .ite trivial (concerns_flag uuid me ino)

theorem concerns_getDocHash (ino : Nat) : (getDocHash me ino wCache : Io U _).Only (Concerns me (some ino)) := by
  unfold getDocHash
  cases named (wCache.docs.get? ino) with
  | none => trivial
  | some owner => exact .ite ⟨⟨trivial, .inr rfl⟩, fun _ => trivial⟩ ⟨⟨trivial, .inr rfl⟩, fun _ => trivial⟩

theorem concerns_check (ino : Nat) : (check uuid me wCache ino : Io U Verdict).Only (Concerns me (some ino)) := by
  refine (concerns_getDocHash me wCache ino).bind fun docHash => ?_
  cases docHash with
  | none => trivial
  | some docHash => exact concerns_compareHash uuid me ino docHash

theorem syncs_examine (event : FSEvent) : (examine uuid me wCache event : Io U Verdict).Only (Syncs me) := by
  refine .ite ?_ trivial
  cases event.ino with
  | none => trivial
  | some ino => exact (concerns_check uuid me wCache ino).mono fun _ => And.left

theorem syncs_gather (events : List FSEvent) (batches : Dict String (List FSEvent)) :
    (gather uuid me wCache events batches : Io U _).Only (Syncs me) := by
  induction events generalizing batches with
  | nil => trivial
  | cons event events ih =>
    refine (syncs_examine uuid me wCache event).bind fun verdict => ?_
    cases verdict with
    | stop => trivial
    | skip => exact ih batches
    | pass => exact ih (enlist wCache event batches)

theorem syncs_sync (batch : List FSEvent) : (sync uuid me batch : Io U Unit).Only (Syncs me) := by
  refine .perform_bind trivial fun cached => ?_
  cases cached with
  | none => trivial
  | some wCache =>
    refine (syncs_gather uuid me wCache batch .empty).bind fun gathered => ?_
    cases gathered with
    | none => trivial
    | some batches => exact (sends_sendBatches uuid batches).mono fun _ h => (Concerns.of_sends me h).1

end

end HideServer.Env.Site
