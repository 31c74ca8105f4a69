import HideServer.Async.Triple
import HideServer.Env.Moves

/-!
# What ends a conflict

A conflict is over when the document and the file have the same content again; `handleConflictResolve`
ends it whatever the daemon answers. Users go on editing meanwhile, and edits that cancel out count as
a change all the same. Nobody else writes the file while the request is under way.
-/

namespace HideServer.Env.Site

open Async Async.Prog Cache Sync

variable {U : Type}

/-- The document, if there is one, has the content of its file. -/
def MatchesFile (c : Setting U) (me : InstanceId) (ino : Nat) (s : State U) : Prop :=
  ∀ found ∈ s.doc me (c.file ino), found.2.text = (s.fleet me).files (c.file ino)

def Command.EndsConflict : Command U → Prop
  | .clear .. => True
  | .emit (.resolved ..) => True
  | _ => False

def Command.isRequest : Command U → Bool
  | .setFileContent .. | .fetchContent .. => true
  | _ => false

/-- Users edit the document. -/
def State.edited (s : State U) (me : InstanceId) (file : File) (updates : List U) : State U :=
  updates.foldl (fun s update => s.act me (.handleSync file (some update))) s

/-- Users edit while a request is under way. -/
def execDuring (c : Setting U) (me : InstanceId) (ino : Nat) (updates : List U) (command : Command U)
    (s : State U) : command.Answer × State U :=
  ((exec c command s).1,
    if command.isRequest then (exec c command s).2.edited me (c.file ino) updates else (exec c command s).2)

def StillConflicting (me : InstanceId) (file : File) (s s' : State U) : Prop :=
  ∀ found ∈ s.doc me file, found.2.isConflicting = true → ∃ doc, s'.doc me file = some (found.1, doc) ∧
    doc.isConflicting = true ∧ s'.conflictResolver me found.1 = s.conflictResolver me found.1

/-- What `handleConflictResolve` should do, for a document that users edit in the meantime. -/
structure Truthful (c : Setting U) (me : InstanceId) (uid sessionId : String) (ino : Nat) (decision : Decision)
    (updates : List U) (s : State U) : Prop where
  ended : ∀ call ∈ calls (execDuring c me ino updates)
    (handleConflictResolve c.uuid me uid sessionId ino decision) s, call.2.EndsConflict → MatchesFile c me ino call.1
  kept : s.chance.ok = false → StillConflicting me (c.file ino) s (run (execDuring c me ino updates)
      (handleConflictResolve c.uuid me uid sessionId ino decision) s).2

section

variable {s : State U} {me : InstanceId} {file : File} {d : Nat} {doc doc' : WSSharedDoc U}

theorem doc_of_put {s' : State U} (hdoc : s.doc me file = some (d, doc)) (hput : s'.fleet me = (s.fleet me).put d doc') :
    s'.doc me file = some (d, doc') := by
  rw [doc_eq_some] at hdoc ⊢
  rw [hput]
  exact ⟨hdoc.1, by simp [Instance.put]⟩

theorem fleet_put_self : (s.put me d doc').fleet me = (s.fleet me).put d doc' :=
  Function.update_self ..

theorem fleet_act_handleSync (hdoc : s.doc me file = some (d, doc)) (update : U) :
    (s.act me (.handleSync file (some update))).fleet me =
      (s.fleet me).put d { doc with edits := doc.edits ++ [update], timer := true } := by
  unfold State.doc at hdoc
  rw [(act_fleet me _).1, Fleet.act_self]
  simp only [Sync.step, Instance.handleSync, hdoc]

theorem edited_spec (hdoc : s.doc me file = some (d, doc)) (updates : List U) :
    ∃ doc', (s.edited me file updates).doc me file = some (d, doc') ∧ doc'.text = doc.text ++ updates ∧
      ((s.edited me file updates).fleet me).files = (s.fleet me).files := by
  induction updates generalizing s doc with
  | nil => exact ⟨doc, hdoc, by simp, rfl⟩
  | cons update updates ih =>
    have hput := fleet_act_handleSync hdoc update
    obtain ⟨doc', hdoc', htext, hfiles⟩ := ih (doc_of_put hdoc hput)
    refine ⟨doc', hdoc', ?_, ?_⟩
    · rw [htext]
      cases hload : doc.load <;> simp [WSSharedDoc.text, hload]
    · refine hfiles.trans ?_
      rw [hput]
      rfl

end

section

variable {s : State U} {me : InstanceId} {ino d : Nat} {doc : WSSharedDoc U} {c : Setting U} (updates : List U)
  (decision : Decision)

theorem execDuring_of_sends {command : Command U} (h : Sends none command) :
    (execDuring c me ino updates command s).2 = s := by
  cases command with
  | getPresence | emit => rfl
  | _ => cases h

theorem applyDecision_spec (hdoc : s.doc me (c.file ino) = some (d, doc)) :
    let decided := (run (execDuring c me ino updates) (applyDecision me ino d doc.text decision) s).2
    ∃ doc', decided.doc me (c.file ino) = some (d, doc') ∧ (s.chance.ok = true →
      (doc'.text = (decided.fleet me).files (c.file ino) ↔ (decision = .keep → updates = []))) := by
  cases decision with
  | keep =>
    have hwritten : (exec c (.setFileContent ino doc.text) s).2.doc me (c.file ino) = some (d, doc) := by
      simp only [exec]
      split
      · exact hdoc
      · exact hdoc
    obtain ⟨doc', hdoc', htext, hfiles⟩ := edited_spec hwritten updates
    refine ⟨doc', hdoc', fun hok => ?_⟩
    have hcontent : ((exec c (.setFileContent ino doc.text) s).2.fleet me).files (c.file ino) = doc.text := by
      simp [exec, hok, State.write, State.learn]
    have hrun : (run (execDuring c me ino updates) (applyDecision me ino d doc.text .keep) s).2 =
        (exec c (.setFileContent ino doc.text) s).2.edited me (c.file ino) updates := rfl
    rw [hrun, hfiles, hcontent, htext]
    simp
  | discard =>
    cases hok : s.chance.ok with
    | false =>
      obtain ⟨doc', hdoc', -, -⟩ := edited_spec hdoc updates
      refine ⟨doc', ?_, by simp⟩
      simp only [applyDecision, run_bind, run_perform, execDuring, exec, Command.isRequest, hok]
      exact hdoc'
    | true =>
      -- what is edited in the meantime is replaced as well
      have hlearned : (exec c (.fetchContent me ino) s).2.doc me (c.file ino) = some (d, doc) := by
        simp only [exec, hok, if_true]
        exact hdoc
      obtain ⟨doc', hdoc', -, hfiles⟩ := edited_spec hlearned updates
      simp only [exec, hok, if_true] at hdoc' hfiles
      simp only [applyDecision, run_bind, run_perform, execDuring, exec, Command.isRequest, hok, if_true,
        (doc_eq_some.mp hdoc').2, Bool.false_eq_true, if_false]
      refine ⟨_, doc_of_put hdoc' fleet_put_self, fun _ => ?_⟩
      rw [files_put, hfiles]
      simp [WSSharedDoc.text, State.learn]

theorem calls_applyDecision (text : List U) :
    ∀ call ∈ calls (execDuring c me ino updates) (applyDecision me ino d text decision) s, ¬call.2.EndsConflict := by
  cases decision with
  | keep => simp [applyDecision, Command.EndsConflict]
  | discard =>
    simp only [applyDecision, calls_bind, calls_perform]
    split
    · simp [Command.EndsConflict]
    · simp [Command.EndsConflict]

section

variable (hdoc : s.doc me (c.file ino) = some (d, doc))

include hdoc

theorem clear_spec :
    (execDuring c me ino updates (.clear me d) s).2.doc me (c.file ino) = some (d, { doc with isConflicting := false }) ∧
      ((execDuring c me ino updates (.clear me d) s).2.fleet me).files = (s.fleet me).files := by
  have hclear : (execDuring c me ino updates (.clear me d) s).2 =
      (s.put me d { doc with isConflicting := false }).setResolver me d "" := by
    simp [execDuring, exec, Command.isRequest, (doc_eq_some.mp hdoc).2]
  rw [hclear]
  exact ⟨doc_of_put hdoc fleet_put_self, files_put me⟩

theorem find_spec : execDuring c me ino updates (.find me ino) s = (some (d, doc.text), s) := by
  simp [execDuring, exec, hdoc, Command.isRequest]

theorem run_handleConflictResolve (uid sessionId : String) :
    (run (execDuring c me ino updates) (handleConflictResolve c.uuid me uid sessionId ino decision) s).2 =
      (execDuring c me ino updates (.clear me d)
        (run (execDuring c me ino updates) (applyDecision me ino d doc.text decision) s).2).2 := by
  have hexec : ∀ command t, Sends none command → id (execDuring c me ino updates command t).2 = id t :=
    fun _ _ h => execDuring_of_sends updates h
  simp only [handleConflictResolve, run_bind, run_perform, find_spec updates hdoc]
  exact Only.run_eq hexec (sends_sendConflictResolved c.uuid _ ino) _

theorem mem_calls_handleConflictResolve (uid sessionId : String)
    {call : State U × Command U} (hends : call.2.EndsConflict) :
    let decided := (run (execDuring c me ino updates) (applyDecision me ino d doc.text decision) s).2
    call ∈ calls (execDuring c me ino updates) (handleConflictResolve c.uuid me uid sessionId ino decision) s →
      call = (decided, .clear me d) ∨ call.1 = (execDuring c me ino updates (.clear me d) decided).2 := by
  intro decided hcall
  have hexec : ∀ command t, Sends none command → t = (execDuring c me ino updates (.clear me d) decided).2 →
      (execDuring c me ino updates command t).2 = (execDuring c me ino updates (.clear me d) decided).2 := by
    intro command t hsends ht
    rw [execDuring_of_sends updates hsends, ht]
  simp only [handleConflictResolve, calls_bind, calls_perform, run_perform, find_spec updates hdoc,
    List.mem_append, List.mem_singleton] at hcall
  rcases hcall with hcall | hcall | hcall | hcall
  · rw [hcall] at hends
    cases hends
  · cases calls_applyDecision updates decision doc.text call hcall hends
  · exact .inl hcall
  · exact .inr (Only.calls_inv hexec (sends_sendConflictResolved c.uuid _ ino) rfl call hcall)

theorem clear_mem_calls (uid sessionId : String) :
    ((run (execDuring c me ino updates) (applyDecision me ino d doc.text decision) s).2, .clear me d) ∈
      calls (execDuring c me ino updates) (handleConflictResolve c.uuid me uid sessionId ino decision) s := by
  simp [handleConflictResolve, find_spec updates hdoc]

end

end

/-- A conflict is ended truthfully if and only if the daemon does what it is asked and, where the text is written, nobody
edits it meanwhile. -/
theorem truthful_iff (c : Setting U) (me : InstanceId) (uid sessionId : String) (ino : Nat) (decision : Decision)
    (updates : List U) (s : State U) {d : Nat} {doc : WSSharedDoc U} (hdoc : s.doc me (c.file ino) = some (d, doc))
    (hconflicting : doc.isConflicting = true) :
    Truthful c me uid sessionId ino decision updates s ↔ s.chance.ok = true ∧ (decision = .keep → updates = []) := by
  obtain ⟨doc', hdoc', hagrees⟩ := applyDecision_spec updates decision hdoc
  obtain ⟨hcleared, hfiles⟩ := clear_spec updates hdoc'
  constructor
  · intro h
    cases hok : s.chance.ok with
    | false =>
      obtain ⟨after, hafter, hstill, -⟩ := h.kept hok (d, doc) hdoc hconflicting
      rw [run_handleConflictResolve updates decision hdoc, hcleared] at hafter
      cases hafter
      cases hstill
    | true =>
      have hended := h.ended _ (clear_mem_calls updates decision hdoc uid sessionId) trivial
      exact ⟨rfl, (hagrees hok).mp (hended (d, doc') hdoc')⟩
  · rintro ⟨hok, hkeep⟩
    have htext := (hagrees hok).mpr hkeep
    refine ⟨fun call hcall hends => ?_, fun hfails => ?_⟩
    · rcases mem_calls_handleConflictResolve updates decision hdoc uid sessionId hends hcall with rfl | hcall
      · intro found hfound
        obtain rfl := Option.some.inj (hdoc'.symm.trans hfound)
        exact htext
      · rw [hcall]
        intro found hfound
        obtain rfl := Option.some.inj (hcleared.symm.trans hfound)
        rw [hfiles]
        exact htext
    · rw [hok] at hfails
      cases hfails

def conflicted (ok : Bool) : State Nat :=
  let labels : List (Sync.Label Nat) := [.openFile "alice" notes (some none), .read 0 true false, .initialized 0,
    .handleSync notes (some 1)]
  let s := labels.foldl (fun s label => s.act e1 label) (.start .empty fun _ => [])
  { (exec w1 (.mark e1 7) s).2 with chance := ⟨0, ok⟩ }

theorem truthful_keep : Truthful w1 e1 "alice" "s1" 7 .keep [] (conflicted true) :=
  (truthful_iff w1 e1 "alice" "s1" 7 .keep [] (conflicted true) rfl rfl).mpr ⟨rfl, fun _ => rfl⟩

/-- The text could not be written, and the conflict is over. -/
theorem conflict_ended_unresolved :
    let after := (run (execDuring w1 e1 7 []) (handleConflictResolve "w1" e1 "alice" "s1" 7 .keep)
      (conflicted false)).2
    ((conflicted false).doc e1 notes).map (·.2.isConflicting) = some true ∧
      (after.doc e1 notes).map (·.2.isConflicting) = some false ∧
      (after.doc e1 notes).map (·.2.text) = some [1] ∧ (after.fleet e1).files notes = [] := by
  decide

end HideServer.Env.Site
