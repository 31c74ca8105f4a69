import HideServer.Env.Opening

/-!
# Documents after a failed open

After a failed load `openFile` deletes the map if there is exactly one document in it, as if that were
the one that could not be loaded; but this one was never entered.
-/

namespace HideServer.Env.Opening

open Async Async.Prog Cache Dict

namespace Docs

variable {docs : Docs} {uuid : String} {ino : Nat}

theorem activated_eq_self {activeDocs : Dict Nat WSSharedDoc} (h : docs.get? uuid = some activeDocs) :
    docs.activated uuid = docs := by
  simp [activated, h]

theorem get?_activated (docs : Docs) (uuid : String) :
    (docs.activated uuid).get? uuid = some ((docs.get? uuid).getD .empty) := by
  unfold activated
  cases h : docs.get? uuid with
  | none => simp [get?_set]
  | some activeDocs => simp [h]

theorem doc?_activated : (docs.activated uuid).doc? uuid ino = docs.doc? uuid ino := by
  unfold doc?
  rw [get?_activated]
  cases docs.get? uuid <;> rfl

theorem doc?_entered (doc : WSSharedDoc) (h : (docs.get? uuid).isSome = true) :
    (docs.entered uuid ino doc).doc? uuid ino = some doc := by
  obtain ⟨activeDocs, hactive⟩ := Option.isSome_iff_exists.mp h
  simp [entered, doc?, get?_modify, hactive, get?_set]

theorem doc?_joined (uid : String) :
    (docs.joined uuid ino uid).doc? uuid ino = (docs.doc? uuid ino).map (·.join uid) := by
  unfold joined doc?
  rw [get?_modify, if_pos rfl]
  cases docs.get? uuid with
  | none => rfl
  | some activeDocs => simp [get?_modify]

theorem joined_eq_self_iff {doc : WSSharedDoc} (hdoc : docs.doc? uuid ino = some doc) (uid : String) :
    docs.joined uuid ino uid = docs ↔ uid ∈ doc.users := by
  constructor
  · intro hsame
    have hjoin : (docs.joined uuid ino uid).doc? uuid ino = _ := doc?_joined uid
    rw [hsame, hdoc] at hjoin
    have husers := congrArg WSSharedDoc.users (Option.some.inj hjoin)
    by_contra huid
    simp [WSSharedDoc.join, huid] at husers
  · intro huid
    apply modify_eq_self
    intro activeDocs hactive
    apply modify_eq_self
    intro found hfound
    have : found = doc := by
      rw [doc?, hactive] at hdoc
      exact Option.some.inj (hfound.symm.trans hdoc)
    subst this
    simp [WSSharedDoc.join, huid]

theorem abandoned_activated_eq_self_iff :
    (docs.activated uuid).abandoned uuid = docs ↔ ∃ activeDocs ∈ docs.get? uuid, activeDocs.entries.length ≠ 1 := by
  unfold abandoned
  rw [get?_activated]
  cases hactive : docs.get? uuid with
  | none =>
    have hne : docs.activated uuid ≠ docs := by
      intro hsame
      have := get?_activated docs uuid
      rw [hsame, hactive] at this
      cases this
    simpa [empty] using hne
  | some activeDocs =>
    rw [activated_eq_self hactive]
    by_cases hlength : activeDocs.entries.length = 1
    · have hne : docs.erase uuid ≠ docs := by
        intro hsame
        have := get?_erase docs uuid uuid
        rw [hsame, hactive] at this
        simp at this
      simpa [hlength] using hne
    · simp [hlength]

end Docs

/-- A failed call finds the map of the workspace, and in it either the document with the user or, if the document could
not be loaded, some other number of documents than one. -/
def Spared (docs : Docs) (request : FSOpen) (ino : Nat) (calls : FileCalls) : Prop :=
  ∃ activeDocs ∈ docs.get? request.uuid, (∃ doc ∈ activeDocs.get? ino, request.uid ∈ doc.users) ∨
      (activeDocs.get? ino = none ∧ calls.content = none ∧ activeDocs.entries.length ≠ 1)

section

variable (me : String) (request : FSOpen) (s : Host)

theorem docs_reply (msg : Reply) : (run exec (reply request msg) s).2.docs = s.docs := by
  rw [run_reply]

theorem docs_change (f : Docs → Docs) : (s.change me f).docs me = f (s.docs me) := by
  simp [Host.change]

theorem docs_enlist (ino : Nat) (doc : WSSharedDoc) (calls : CacheCalls) :
    (run exec (enlist me request ino doc calls) s).2.docs me = (s.docs me).joined request.uuid ino request.uid := by
  obtain ⟨outcome, told, -, -, hrun⟩ := run_enlist me request s ino doc calls
  rw [hrun]
  exact docs_change me s (·.joined request.uuid ino request.uid)

theorem docs_load_of_none (ino : Nat) {calls : FileCalls} (h : calls.content = none) :
    (run exec (load me request ino calls) s).2.docs me = (s.docs me).abandoned request.uuid := by
  simp only [load, run_bind, run_perform, exec, h]
  simp [sendError, docs_reply, docs_change]

theorem doc?_load_of_some (ino : Nat) {calls : FileCalls} {content : String} (h : calls.content = some content)
    (hactive : ((s.docs me).get? request.uuid).isSome = true) :
    (((run exec (load me request ino calls) s).2.docs me).doc? request.uuid ino).isSome = true := by
  simp only [load, run_bind, run_perform, exec, h, docs_enlist]
  simp [docs_change, Docs.doc?_joined, Docs.doc?_entered _ hactive]

theorem docs_openHere_eq_iff (ino : Nat) (calls : FileCalls) :
    (run exec (openHere me request ino calls) s).2.docs me = s.docs me ↔ Spared (s.docs me) request ino calls := by
  simp only [openHere, run_bind, run_perform, exec, docs_change, Docs.doc?_activated]
  cases hdoc : (s.docs me).doc? request.uuid ino with
  | some doc =>
    obtain ⟨activeDocs, hactive, hget⟩ := Option.bind_eq_some_iff.mp hdoc
    rw [docs_enlist, docs_change, Docs.activated_eq_self hactive, Docs.joined_eq_self_iff hdoc]
    simp [Spared, hactive, hget]
  | none =>
    have hget : ∀ activeDocs ∈ (s.docs me).get? request.uuid, activeDocs.get? ino = none :=
      Option.bind_eq_none_iff.mp hdoc
    cases hcontent : calls.content with
    | none =>
      simp only [docs_load_of_none me request _ ino hcontent, docs_change, Docs.abandoned_activated_eq_self_iff]
      constructor
      · rintro ⟨activeDocs, hactive, hlength⟩
        exact ⟨activeDocs, hactive, .inr ⟨hget activeDocs hactive, hcontent, hlength⟩⟩
      · rintro ⟨activeDocs, hactive, ⟨doc, hdoc, -⟩ | ⟨-, -, hlength⟩⟩
        · rw [hget activeDocs hactive] at hdoc
          cases hdoc
        · exact ⟨activeDocs, hactive, hlength⟩
    | some content =>
      -- the new document is in the map then
      have hentered := doc?_load_of_some me request (s.change me (·.activated request.uuid)) ino hcontent
        (by rw [docs_change, Docs.get?_activated]; rfl)
      refine iff_of_false (fun hsame => ?_) ?_
      · rw [hsame, hdoc] at hentered
        cases hentered
      · rintro ⟨activeDocs, hactive, ⟨doc, hdoc, -⟩ | ⟨-, hnone, -⟩⟩
        · rw [hget activeDocs hactive] at hdoc
          cases hdoc
        · rw [hcontent] at hnone
          cases hnone

/-- A call of `openFile` that fails leaves the documents as they are if and only if there is no workspace, or what it has
done by then changes nothing. -/
theorem failed_open_unchanged_iff (stat : StatDTO) (calls : FileCalls) (code : String)
    (hfailed : (run exec (openFile me request stat calls) s).1 = .failed code) :
    (run exec (openFile me request stat calls) s).2.docs me = s.docs me ↔
      calls.cached = some none ∨ Spared (s.docs me) request stat.ino calls := by
  simp only [openFile, run_bind, run_perform, exec] at hfailed ⊢
  cases hcached : calls.cached with
  | none =>
    rw [hcached] at hfailed
    cases hfailed
  | some cached =>
    rw [hcached] at hfailed
    cases cached with
    | none => simp [fail, sendError, docs_reply]
    | some workspace =>
      simp only at hfailed ⊢
      cases helsewhere : elsewhere me (workspace.docs.get? stat.ino) with
      | some other =>
        rw [helsewhere] at hfailed
        cases hfailed
      | none => simp [docs_openHere_eq_iff]

end

def openDraft : FSOpen := ⟨"u1", "s1", "w1", "/workspace/draft", some "c1"⟩

def unread : FileCalls := ⟨some (some ⟨.active, "e1", .empty, .empty, .empty⟩), none, ⟨none, false⟩⟩

def theirs : WSSharedDoc := ⟨"/workspace/notes", "text", ["u2"], false, ""⟩

def busy (inos : List Nat) : Host where
  docs _ := empty.set "w1" (inos.foldl (fun docs ino => docs.set ino theirs) .empty)
  sent := []

theorem failed_open_unchanged_busy :
    (run exec (openFile "e1" openDraft ⟨7, false⟩ unread) (busy [8, 9])).2.docs "e1" = (busy [8, 9]).docs "e1" :=
  (failed_open_unchanged_iff "e1" openDraft (busy [8, 9]) ⟨7, false⟩ unread "FS_ERR_READ_FILE" rfl).mpr
    (.inr ⟨_, rfl, .inr ⟨rfl, rfl, by decide⟩⟩)

/-- The only other file of the workspace is somebody else's, and its document is gone. -/
theorem failed_open_drops :
    (run exec (openFile "e1" openDraft ⟨7, false⟩ unread) (busy [8])).1 = .failed "FS_ERR_READ_FILE" ∧
      (((busy [8]).docs "e1").doc? "w1" 8).map (·.users) = some ["u2"] ∧
      ((run exec (openFile "e1" openDraft ⟨7, false⟩ unread) (busy [8])).2.docs "e1").doc? "w1" 8 = none := by
  decide

end HideServer.Env.Opening
