import HideServer.Env.Moves

/-!
# Files that are only looked at

Loading a file into a document schedules a flush, so a file that nobody edits is written back. The
flush looks at the flags of the document and not at the file.
-/

namespace HideServer.Env.Site

open Async Cache Sync Trace List

variable {U : Type}

/-- Nobody edits a document. -/
def Viewing : Act U → Prop
  | .spawn (.resolve ..) => False
  | .outside (.step _ (.handleSync _ update)) => update = none
  | _ => True

/-- The service changes no file. -/
def Unwritten (c : Setting U) (service : Service U) (act : Act U) : Prop :=
  (∀ file content, act ≠ .outside (.write file content)) →
    ∀ i, ((step c service act).shared.fleet i).files = (service.shared.fleet i).files

def Current (inst : Instance U) : Sync.Label U → Prop
  | .fire d =>
    ∀ doc ∈ inst.objects d, doc.timer = true → doc.isDisplaced = false → doc.isConflicting = false →
      doc.text = inst.files doc.file
  | _ => True

def Unraced (service : Service U) : Act U → Prop
  | .outside (.step i label) => Current (service.shared.fleet i) label
  -- somebody else writes a file only when no flush of it is under way
  | .outside (.write file _) =>
    ∀ i d doc, (service.shared.fleet i).objects d = some doc → doc.file = file → doc.flushes = []
  | _ => True

/-- Every flush under way writes what is in the file. -/
structure Faithful (inst : Instance U) : Prop where
  loading : ∀ {d doc}, inst.objects d = some doc → doc.load.into ≠ none → doc.timer = false ∧ doc.flushes = []
  flushes : ∀ {d doc}, inst.objects d = some doc → ∀ flush ∈ doc.flushes, flush.getD doc.text = inst.files doc.file

section

variable {inst : Instance U} {d : Nat} {doc doc' : WSSharedDoc U}

theorem faithful_start (instanceId : String) (files : File → List U) : Faithful (.start instanceId files) :=
  ⟨fun h => (by cases h), fun h => (by cases h)⟩

section

variable (h : Faithful inst)

include h

theorem Faithful.congr {inst' : Instance U}
    (hobjects : inst'.objects = inst.objects) (hfiles : inst'.files = inst.files) : Faithful inst' := by
  constructor
  · intro d doc hdoc
    rw [hobjects] at hdoc
    exact h.loading hdoc
  · intro d doc hdoc
    rw [hobjects] at hdoc
    rw [hfiles]
    exact h.flushes hdoc

theorem Faithful.files_step (label : Sync.Label U) : (Sync.step inst label).files = inst.files := by
  have hlearns : ∀ learned ∈ learns inst label, learned.2 = inst.files learned.1 := by
    intro learned hlearned
    cases label with
    | read d ok blank =>
      simp only [learns, Option.mem_def] at hlearned
      split at hlearned
      · obtain ⟨doc, hdoc, hload⟩ := Option.bind_eq_some_iff.mp hlearned
        split at hload
        · cases hload
          rfl
        · cases hload
      · cases hlearned
    | write d i ok =>
      simp only [learns, Option.mem_def] at hlearned
      split at hlearned
      · obtain ⟨doc, hdoc, hflush⟩ := Option.bind_eq_some_iff.mp hlearned
        split at hflush
        · rename_i content hcontent
          cases hflush
          exact h.flushes hdoc _ (mem_of_getElem? hcontent)
        · cases hflush
      · cases hlearned
    | _ => cases hlearned
  rw [Site.files_step]
  cases hlearned : learns inst label with
  | none => rfl
  | some learned =>
    rw [Option.elim, hlearns learned hlearned, Function.update_eq_self]

def Agrees (files : File → List U) (doc : WSSharedDoc U) : Prop :=
  (doc.load.into ≠ none → doc.timer = false ∧ doc.flushes = []) ∧ ∀ flush ∈ doc.flushes, flush.getD doc.text = files doc.file

theorem Faithful.agrees (hdoc : inst.objects d = some doc) : Agrees inst.files doc :=
  ⟨h.loading hdoc, h.flushes hdoc⟩

theorem Faithful.put (hagrees : Agrees inst.files doc') : Faithful (inst.put d doc') := by
  have hput : ∀ {e x}, (inst.put d doc').objects e = some x → Agrees inst.files x := by
    intro e x hx
    rw [objects_put] at hx
    split_ifs at hx
    · cases hx
      exact hagrees
    · exact h.agrees hx
  exact ⟨fun hx => (hput hx).1, fun hx => (hput hx).2⟩

end

theorem agrees_changes {label : Sync.Label U} (h : Agrees inst.files doc) (hdoc : inst.objects d = some doc)
    (hview : ∀ file update, label = .handleSync file update → update = none) (hcurrent : Current inst label)
    (hchanges : Changes inst d doc label doc') : Agrees inst.files doc' := by
  obtain ⟨hloading, hflushes⟩ := h
  -- a document that is being loaded has no flushes
  have hloaded {i : Nat} {flush : Option (List U)} (hflush : doc.flushes[i]? = some flush) : doc.load.into = none := by
    by_contra hinto
    rw [(hloading hinto).2] at hflush
    cases hflush
  cases hchanges with
  | joined | left | destroyed => exact ⟨hloading, hflushes⟩
  | served blank hload | failed blank hload =>
    obtain ⟨htimer, hnone⟩ := hloading (by simp [hload, Load.into])
    exact ⟨fun _ => ⟨htimer, hnone⟩, by simp [hnone]⟩
  | initialized hload =>
    obtain ⟨-, hnone⟩ := hloading (by simp [hload, Load.into])
    exact ⟨fun hinto => absurd rfl hinto, by simp [hnone]⟩
  | edited update => cases hview _ _ rfl
  | fired htimer =>
    refine ⟨fun hinto => ?_, fun flush hflush => ?_⟩
    · have hquiet := (hloading hinto).1
      simp [htimer] at hquiet
    · split at hflush
      · exact hflushes flush hflush
      · rename_i hflags
        simp only [Bool.or_eq_true, not_or, Bool.not_eq_true] at hflags
        rcases mem_append.mp hflush with hflush | hflush
        · exact hflushes flush hflush
        · rw [mem_singleton] at hflush
          subst hflush
          exact hcurrent doc hdoc htimer hflags.1 hflags.2
  | taken hflush =>
    refine ⟨fun hinto => absurd (hloaded hflush) hinto, fun flush hmem => ?_⟩
    rcases mem_or_eq_of_mem_set hmem with hmem | rfl
    · exact hflushes flush hmem
    · exact hflushes none (mem_of_getElem? hflush)
  | displaced hflush | written _ hflush =>
    exact ⟨fun hinto => absurd (hloaded hflush) hinto, fun flush hmem => hflushes flush (mem_of_mem_eraseIdx hmem)⟩

theorem agrees_new (files : File → List U) (file : File) (map : Nat) (uid : String) : Agrees files (.new file map uid) :=
  ⟨fun _ => ⟨rfl, rfl⟩, fun _ hflush => by cases hflush⟩

theorem faithful_step (h : Faithful inst) {label : Sync.Label U}
    (hview : ∀ file update, label = .handleSync file update → update = none)
    (hcurrent : Current inst label) : Faithful (Sync.step inst label) := by
  have hagrees : ∀ {d doc}, (Sync.step inst label).objects d = some doc → Agrees inst.files doc := by
    intro d doc hdoc
    rcases objects_cases inst label with hobjects | ⟨e, x, y, hx, hchanges, hobjects⟩ | ⟨file, map, uid, hobjects⟩
    · rw [hobjects] at hdoc
      exact h.agrees hdoc
    · rw [hobjects] at hdoc
      split_ifs at hdoc
      · cases hdoc
        exact agrees_changes (h.agrees hx) hx hview hcurrent hchanges
      · exact h.agrees hdoc
    · rw [hobjects] at hdoc
      split_ifs at hdoc
      · cases hdoc
        exact agrees_new inst.files file map uid
      · exact h.agrees hdoc
  refine ⟨fun hdoc => (hagrees hdoc).1, fun hdoc => ?_⟩
  rw [h.files_step label]
  exact (hagrees hdoc).2

end

/-- All instances are faithful, with the same files. -/
structure Mirrored (s : State U) : Prop where
  same : ∀ i j, (s.fleet i).files = (s.fleet j).files
  faithful : ∀ i, Faithful (s.fleet i)

section

variable {c : Setting U} {s : State U} {service : Service U}

theorem mirrored_start (world : World) (files : File → List U) : Mirrored (.start world files) :=
  ⟨fun _ _ => rfl, fun i => faithful_start i.1 files⟩

theorem Mirrored.congr (h : Mirrored s) {s' : State U} (hfleet : s'.fleet = s.fleet) : Mirrored s' := by
  constructor
  · rw [hfleet]
    exact h.same
  · rw [hfleet]
    exact h.faithful

theorem mirrored_exec (h : Mirrored s) {me : InstanceId} {command : Command U} (hsyncs : Syncs me command) :
    (∀ i, ((exec c command s).2.fleet i).files = (s.fleet i).files) ∧ Mirrored (exec c command s).2 := by
  cases command with
  | mark me ino =>
    simp only [exec]
    split
    · exact ⟨fun _ => rfl, h⟩
    · rename_i d doc hfound
      have hfiles (i : InstanceId) : ((s.put me d { doc with isConflicting := true }).fleet i).files = (s.fleet i).files :=
        files_put i
      refine ⟨hfiles, fun i j => ?_, fun i => ?_⟩
      · exact ((hfiles i).trans (h.same i j)).trans (hfiles j).symm
      · have hagrees := (h.faithful me).agrees (doc_eq_some.mp hfound).2
        have hput : Faithful ((s.fleet me).put d { doc with isConflicting := true }) := (h.faithful me).put hagrees
        by_cases hi : i = me
        · subst hi
          simpa [State.setResolver, State.put] using hput
        · simpa [State.setResolver, State.put, hi] using h.faithful i
  | setFileContent | fetchContent | replace | clear | find => cases hsyncs
  | _ => exact ⟨fun _ => rfl, h⟩

theorem mirrored_act (h : Mirrored s) (i : InstanceId) {label : Sync.Label U}
    (hview : ∀ file update, label = .handleSync file update → update = none) (hcurrent : Current (s.fleet i) label) :
    (∀ j, ((s.act i label).fleet j).files = (s.fleet j).files) ∧ Mirrored (s.act i label) := by
  have hstep := faithful_step (h.faithful i) hview hcurrent
  have hkept := (h.faithful i).files_step label
  have hfiles (j : InstanceId) : ((s.act i label).fleet j).files = (s.fleet j).files := by
    rw [(act_fleet i label).1]
    by_cases hj : j = i
    · rw [hj, Fleet.act_self, hkept]
    · rw [Fleet.act_of_ne hj, hkept, h.same i j]
  refine ⟨hfiles, fun j k => ?_, fun j => ?_⟩
  · rw [hfiles, hfiles, h.same j k]
  · rw [(act_fleet i label).1]
    by_cases hj : j = i
    · rw [hj, Fleet.act_self]
      exact hstep
    · rw [Fleet.act_of_ne hj]
      exact (h.faithful j).congr rfl (hkept.trans (h.same i j))

theorem mirrored_write (h : Mirrored s) {file : File} (content : List U)
    (hidle : ∀ i d doc, (s.fleet i).objects d = some doc → doc.file = file → doc.flushes = []) :
    Mirrored (s.write file content) := by
  constructor
  · intro i j
    simp only [State.write, h.same i j]
  · intro i
    refine ⟨(h.faithful i).loading, fun {d doc} hdoc flush hflush => ?_⟩
    have hother : doc.file ≠ file := by
      intro hfile
      rw [hidle i d doc hdoc hfile] at hflush
      cases hflush
    simpa [State.write, hother] using (h.faithful i).flushes hdoc flush hflush

theorem mirrored_outside (h : Mirrored service.shared) {a : Outside U}
    (hview : Viewing (.outside a : Act U)) (hunraced : Unraced service (.outside a)) :
    ((∀ file content, a ≠ .write file content) →
      ∀ i, ((outside service.shared a).fleet i).files = (service.shared.fleet i).files) ∧
    Mirrored (outside service.shared a) := by
  cases a with
  | step i label =>
    have hnone : ∀ file update, label = .handleSync file update → update = none := by
      rintro file update rfl
      exact hview
    have hact := mirrored_act h i hnone hunraced
    exact ⟨fun _ => hact.1, hact.2⟩
  | awareness i uid file added removed =>
    simp only [outside]
    split
    · exact ⟨fun _ _ => rfl, h⟩
    · exact ⟨fun _ _ => rfl, h.congr rfl⟩
  | write file content =>
    refine ⟨fun hnot => absurd rfl (hnot file content), ?_⟩
    exact (mirrored_write h content hunraced).congr rfl
  | world | chance => exact ⟨fun _ _ => rfl, h.congr rfl⟩

structure Idle (service : Service U) : Prop where
  mirrored : Mirrored service.shared
  tasks : service.Confined fun command => ∃ me, Syncs me command

theorem idle_step (h : Idle service) {act : Act U} (hview : Viewing act) (hunraced : Unraced service act) :
    Unwritten c service act ∧ Idle (step c service act) := by
  have htasks : (step c service act).Confined fun command => ∃ me, Syncs me command := by
    apply Pool.confined_step h.tasks
    rintro op rfl
    cases op with
    | sync me batch => exact (syncs_sync c.uuid me batch).mono fun _ hsyncs => ⟨me, hsyncs⟩
    | resolve => exact hview.elim
  rcases step_shared c service act with hsame | ⟨k, op, command, rfl, hnext, hexec⟩ | ⟨a, rfl, houtside⟩
  · refine ⟨fun _ i => by rw [hsame], ?_, htasks⟩
    rw [hsame]
    exact h.mirrored
  · obtain ⟨me, hsyncs⟩ := h.tasks.next hnext
    obtain ⟨hfiles, hmirrored⟩ := mirrored_exec (c := c) h.mirrored hsyncs
    refine ⟨fun _ i => by rw [hexec, hfiles], ?_, htasks⟩
    rw [hexec]
    exact hmirrored
  · obtain ⟨hfiles, hmirrored⟩ := mirrored_outside h.mirrored hview hunraced
    refine ⟨fun hnot i => ?_, ?_, htasks⟩
    · exact hfiles (fun file content heq => hnot file content (by rw [heq])) i
    · exact hmirrored

end

/-- If a flush starts only while the file has the text of the document, and nobody else writes the file during a
flush, then looking at files changes none. -/
theorem unwritten_of_unraced {c : Setting U} {world : World} {files : File → List U} {acts : List (Act U)}
    (hviewing : Along (step c) (fun _ act => Viewing act) (start world files) acts)
    (hunraced : Along (step c) Unraced (start world files) acts) :
    Along (step c) (Unwritten c) (start world files) acts := by
  have hstart : Idle (start world files) := ⟨mirrored_start world files, fun task htask => by cases htask⟩
  exact along_of_invariant (fun _ _ h hboth => (idle_step h hboth.1 hboth.2).2)
    (fun _ _ h hboth => (idle_step h hboth.1 hboth.2).1) hstart (hviewing.and hunraced)

def openedOnce : List (Act Nat) :=
  [.outside (.step e1 (.openFile "alice" notes (some none))), .outside (.step e1 (.read 0 true false)),
    .outside (.step e1 (.initialized 0)), .outside (.world (noted e1 .empty))]

def flushed : List (Act Nat) :=
  [.outside (.step e1 (.fire 0)), .outside (.step e1 (.stat 0 0 true)), .outside (.step e1 (.write 0 0 true))]

def rewritten : Act Nat := .outside (.write notes [1, 2])

theorem unwritten_flushed :
    Along (step w1) (Unwritten w1) (start .empty fun _ => [1]) (openedOnce ++ flushed ++ [rewritten]) := by
  apply unwritten_of_unraced
  · exact ⟨trivial, trivial, trivial, trivial, trivial, trivial, trivial, trivial, trivial⟩
  · rw [along_append]
    refine ⟨⟨trivial, trivial, trivial, trivial, ?_, trivial, trivial, trivial⟩, ?_, trivial⟩
    · intro doc hdoc _ _ _
      cases hdoc
      rfl
    · intro i d doc hdoc _
      by_cases hi : i = e1
      · subst hi
        cases d with
        | zero =>
          cases hdoc
          rfl
        | succ d => cases hdoc
      · have hother (s : State Nat) (label : Sync.Label Nat) : ((s.act e1 label).fleet i).objects = (s.fleet i).objects := by
          rw [objects_act, if_neg hi]
        simp only [openedOnce, flushed, cons_append, nil_append, run_cons, run_nil, step,
          Pool.step_outside, outside, hother] at hdoc
        cases hdoc

/-- Nobody edits the file, and what somebody else has written between the loading and the flush is gone. -/
theorem overwritten_by_flush :
    Along (step w1) (fun _ act => Viewing act) (start .empty fun _ => [1]) (openedOnce ++ rewritten :: flushed) ∧
      ¬Along (step w1) (Unwritten w1) (start .empty fun _ => [1]) (openedOnce ++ rewritten :: flushed) := by
  constructor
  · exact ⟨trivial, trivial, trivial, trivial, trivial, trivial, trivial, trivial, trivial⟩
  · intro hunwritten
    have hlast := ((along_append (step w1) (Unwritten w1) _ (openedOnce ++ rewritten :: flushed.take 2)
      [.outside (.step e1 (.write 0 0 true))]).mp hunwritten).2.1
    have hfile := congrFun (hlast (by simp) e1) notes
    have hkept : ([1] : List Nat) = [1, 2] := hfile
    simp at hkept

end HideServer.Env.Site
