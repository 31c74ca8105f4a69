import HideServer.Env.Wiring

/-!
# Edits across closing and opening again

A document that is closed leaves its timer behind. `Saved` says that whatever has no document with a
flush ahead of it is in the file, so a new document starts with all the edits of the earlier ones.
-/

namespace HideServer.Env.Sync

open Trace List WSSharedDoc

variable {U : Type}

/-- The content has the edits of every document of the file. -/
def Covers (objects : Nat → Option (WSSharedDoc U)) (file : File) (content : List U) : Prop :=
  ∀ d doc, objects d = some doc → doc.file = file → ∀ update ∈ doc.edits, update ∈ content

/-- No flush of the document is ahead or under way. -/
def WSSharedDoc.Quiet (doc : WSSharedDoc U) : Prop := doc.timer = false ∧ doc.flushes = []

/-- What holds of a document. -/
structure WSSharedDoc.Good (covers : List U → Prop) (doc : WSSharedDoc U) : Prop where
  clear : doc.isDisplaced = false ∧ doc.isConflicting = false
  idle : doc.destroyed = true ∨ doc.load.into ≠ none → doc.Quiet
  single : doc.flushes.length ≤ 1
  served : ∀ {map uid content blank}, doc.load = .served map uid content blank → covers content
  text : doc.destroyed = false → doc.load.into = none → covers doc.text
  written : ∀ {content}, doc.timer = false → some content ∈ doc.flushes → covers content

structure Saved (s : Instance U) : Prop where
  good : ∀ {d doc}, s.objects d = some doc → doc.Good (Covers s.objects doc.file)
  settled : ∀ file, (∀ d doc, s.objects d = some doc → doc.file = file → doc.Quiet) →
    Covers s.objects file (s.files file)

section

variable {s : Instance U} {d : Nat} {doc doc' : WSSharedDoc U}

theorem saved_start (instanceId : String) (files : File → List U) : Saved (.start instanceId files) where
  good h := nomatch h
  settled _ _ _ _ h := nomatch h

theorem WSSharedDoc.Good.congr {covers covers' : List U → Prop} (h : doc.Good covers)
    (himp : ∀ content, covers content → covers' content) : doc.Good covers' :=
  ⟨h.clear, h.idle, h.single, fun hload => himp _ (h.served hload), fun hlive hload => himp _ (h.text hlive hload),
    fun htimer hcontent => himp _ (h.written htimer hcontent)⟩

theorem WSSharedDoc.Good.of_destroyed {covers covers' : List U → Prop} (h : doc.Good covers)
    (hdestroyed : doc.destroyed = true) (hload : doc.load.into = none) : doc.Good covers' where
  clear := h.clear
  idle := h.idle
  single := h.single
  served := by
    intro map uid content blank hserved
    rw [hserved] at hload
    cases hload
  text := by
    intro hlive
    rw [hdestroyed] at hlive
    cases hlive
  written := by
    intro content _ hcontent
    rw [(h.idle (.inl hdestroyed)).2] at hcontent
    cases hcontent

theorem WSSharedDoc.not_idle (hlive : doc.destroyed = false) (hload : doc.load.into = none) :
    ¬(doc.destroyed = true ∨ doc.load.into ≠ none) := by
  simp [hlive, hload]

theorem covers_put (hdoc : s.objects d = some doc) (hfile : doc'.file = doc.file)
    (hedits : doc'.edits = doc.edits) (file : File) (content : List U) :
    Covers (s.put d doc').objects file content ↔ Covers s.objects file content := by
  constructor
  · intro h e x hx
    by_cases he : e = d
    · subst he
      cases hdoc.symm.trans hx
      have hput := h e doc' (by rw [objects_put, if_pos rfl])
      rw [hfile, hedits] at hput
      exact hput
    · exact h e x (by rw [objects_put, if_neg he, hx])
  · intro h e x hx
    rw [objects_put] at hx
    split_ifs at hx with he
    · cases hx
      rw [hfile, hedits]
      exact h d doc hdoc
    · exact h e x hx

section

variable (h : Saved s)

include h

section

variable (hdoc : s.objects d = some doc)

include hdoc

theorem Saved.put {files : File → List U}
    (hfile : doc'.file = doc.file) (hedits : doc'.edits = doc.edits) (hgood : doc'.Good (Covers s.objects doc.file))
    (hfiles : ∀ file, file ≠ doc.file → files file = s.files file)
    (hsettled : doc'.Quiet → (∀ e x, e ≠ d → s.objects e = some x → x.file = doc.file → x.Quiet) →
      Covers s.objects doc.file (files doc.file)) :
    Saved { s.put d doc' with files := files } := by
  have hcovers := covers_put hdoc hfile hedits
  constructor
  · intro e x hx
    rw [objects_put] at hx
    split_ifs at hx with he
    · cases hx
      rw [hfile]
      exact hgood.congr fun content => (hcovers doc.file content).mpr
    · exact (h.good hx).congr fun content => (hcovers x.file content).mpr
  · intro file hquiet
    apply (hcovers file (files file)).mpr
    have hothers (e : Nat) (x : WSSharedDoc U) (he : e ≠ d) (hx : s.objects e = some x) (hx_file : x.file = file) : x.Quiet :=
      hquiet e x ((objects_put e).trans ((if_neg he).trans hx)) hx_file
    by_cases hsame : file = doc.file
    · subst hsame
      exact hsettled (hquiet d doc' ((objects_put d).trans (if_pos rfl)) hfile) hothers
    · rw [hfiles file hsame]
      apply h.settled
      intro e x hx hx_file
      apply hothers e x _ hx hx_file
      rintro rfl
      cases hdoc.symm.trans hx
      exact hsame hx_file.symm

theorem Saved.covers_of_others (hquiet : doc.Quiet)
    (hothers : ∀ e x, e ≠ d → s.objects e = some x → x.file = doc.file → x.Quiet) :
    Covers s.objects doc.file (s.files doc.file) := by
  apply h.settled
  intro e x hx hx_file
  by_cases he : e = d
  · subst he
    cases hdoc.symm.trans hx
    exact hquiet
  · exact hothers e x he hx hx_file

theorem Saved.put_users (users : List String) : Saved (s.put d { doc with users := users }) := by
  have hgood := h.good hdoc
  refine h.put hdoc rfl rfl ?_ (fun _ _ => rfl) fun hquiet hothers => h.covers_of_others hdoc hquiet hothers
  exact ⟨hgood.clear, hgood.idle, hgood.single, hgood.served, hgood.text, hgood.written⟩

theorem Saved.destroy (hquiet : doc.Quiet) : Saved (s.destroy d doc) := by
  have hgood := h.good hdoc
  have hgone : ({ doc with users := [], destroyed := true } : WSSharedDoc U).Good (Covers s.objects doc.file) :=
    ⟨hgood.clear, fun _ => hquiet, hgood.single, hgood.served, nofun, hgood.written⟩
  have hput : Saved (s.put d { doc with users := [], destroyed := true }) :=
    h.put hdoc rfl rfl hgone (fun _ _ => rfl) fun _ hothers => h.covers_of_others hdoc hquiet hothers
  exact ⟨hput.good, hput.settled⟩

end

section

variable (hwired : Wired s)

include hwired

theorem Saved.quiet_of_loading {map : Nat}
    (hdoc : s.objects d = some doc) (hload : doc.load.into = some map) (e : Nat) (x : WSSharedDoc U)
    (hx : s.objects e = some x) (hfile : x.file = doc.file) : x.Quiet := by
  by_cases he : e = d
  · subst he
    cases hdoc.symm.trans hx
    exact (h.good hx).idle (.inr (by simp [hload]))
  · apply (h.good hx).idle
    left
    by_contra hlive
    exact he (hwired.unique hx hdoc hfile (by simpa using hlive) (hwired.live hdoc hload))

theorem Saved.read (d : Nat) (blank : Bool) : Saved (s.read d true blank) := by
  unfold Instance.read
  split
  · exact h
  rename_i doc hdoc
  split
  case h_2 => exact h
  rename_i map uid hload
  have hinto : doc.load.into = some map := by rw [hload]; rfl
  have hcovers := h.settled doc.file (h.quiet_of_loading hwired hdoc hinto)
  have hgood := h.good hdoc
  have hidle := hgood.idle (.inr (by simp [hinto]))
  refine h.put hdoc rfl rfl ⟨hgood.clear, fun _ => hidle, hgood.single, ?_, nofun, hgood.written⟩ (fun _ _ => rfl)
    fun _ _ => hcovers
  intro map' uid' content blank' hserved
  cases hserved
  exact hcovers

theorem Saved.initialized (d : Nat) : Saved (s.initialized d) := by
  unfold Instance.initialized
  split
  · exact h
  rename_i doc hdoc
  split
  case h_2 => exact h
  rename_i map uid content blank hload
  have hinto : doc.load.into = some map := by rw [hload]; rfl
  have hcovers := h.settled doc.file (h.quiet_of_loading hwired hdoc hinto)
  have hgood := h.good hdoc
  have hidle := hgood.idle (.inr (by simp [hinto]))
  have hlive := hwired.live hdoc hinto
  have hput : Saved (s.put d { doc with load := .finished content, timer := doc.timer || !blank, users := [uid] }) := by
    refine h.put hdoc rfl rfl ⟨hgood.clear, ?_, hgood.single, nofun, ?_, ?_⟩ (fun _ _ => rfl) fun _ _ => hcovers
    · intro hends
      exact absurd hends (not_idle hlive rfl)
    · intro _ _ e x hx hx_file update hupdate
      exact mem_append_left _ (hgood.served hload e x hx hx_file update hupdate)
    · intro written _ hwritten
      rw [show doc.flushes = [] from hidle.2] at hwritten
      cases hwritten
  exact ⟨hput.good, hput.settled⟩

theorem Saved.create (file : File) (map : Nat) (uid : String) : Saved (s.create file map uid) := by
  have hcovers (other : File) (content : List U) (hother : Covers s.objects other content) :
      Covers (s.create file map uid).objects other content := by
    intro e x hx
    rw [objects_create] at hx
    split_ifs at hx
    · cases hx
      intro _ update hupdate
      cases hupdate
    · exact hother e x hx
  constructor
  · intro e x hx
    rw [objects_create] at hx
    split_ifs at hx
    · cases hx
      exact ⟨⟨rfl, rfl⟩, fun _ => ⟨rfl, rfl⟩, Nat.zero_le _, nofun, nofun, nofun⟩
    · exact (h.good hx).congr (hcovers x.file)
  · intro other hquiet
    apply hcovers
    apply h.settled
    intro e x hx
    have hne : e ≠ s.docCount := Nat.ne_of_lt (hwired.docs_lt hx)
    exact hquiet e x (by rw [objects_create, if_neg hne, hx])

theorem Saved.edit (hdoc : s.objects d = some doc)
    (hlive : doc.destroyed = false) (hload : doc.load.into = none) (update : U) :
    Saved (s.put d { doc with edits := doc.edits ++ [update], timer := true }) := by
  have hcovers {file : File} {content : List U} (hfile : Covers s.objects file content)
      (hupdate : file = doc.file → update ∈ content) :
      Covers (s.put d { doc with edits := doc.edits ++ [update], timer := true }).objects file content := by
    intro e x hx hx_file edit hedit
    rw [objects_put] at hx
    split_ifs at hx with he
    · cases hx
      rcases mem_append.mp hedit with hedit | hedit
      · exact hfile d doc hdoc hx_file edit hedit
      · rw [mem_singleton.mp hedit]
        exact hupdate hx_file.symm
    · exact hfile e x hx hx_file edit hedit
  have hgood := h.good hdoc
  constructor
  · intro e x hx
    rw [objects_put] at hx
    split_ifs at hx with he
    · cases hx
      refine ⟨hgood.clear, ?_, hgood.single, ?_, ?_, nofun⟩
      · intro hends
        exact absurd hends (not_idle hlive hload)
      · intro map uid content blank hserved
        rw [show doc.load = _ from hserved] at hload
        cases hload
      · intro _ _
        have htext : ({ doc with edits := doc.edits ++ [update], timer := true } : WSSharedDoc U).text = doc.text ++ [update] := by
          unfold text
          split <;> simp_all
        rw [htext]
        apply hcovers
        · intro e x hx hx_file edit hedit
          exact mem_append_left _ (hgood.text hlive hload e x hx hx_file edit hedit)
        · exact fun _ => mem_append_right _ (mem_singleton_self update)
    · by_cases hfile : x.file = doc.file
      · -- the other documents of the file are destroyed
        have hdestroyed : x.destroyed = true := by
          by_contra hx_live
          exact he (hwired.unique hx hdoc hfile (by simpa using hx_live) hlive)
        have hx_load : x.load.into = none := by
          by_contra hloading
          obtain ⟨map, hmap⟩ := Option.ne_none_iff_exists'.mp hloading
          rw [hwired.live hx hmap] at hdestroyed
          cases hdestroyed
        exact (h.good hx).of_destroyed hdestroyed hx_load
      · exact (h.good hx).congr fun content hcontent => hcovers hcontent fun hsame => absurd hsame hfile
  · intro file hquiet
    have hne : file ≠ doc.file := by
      rintro rfl
      have hd := hquiet d { doc with edits := doc.edits ++ [update], timer := true }
        ((objects_put d).trans (if_pos rfl)) rfl
      cases hd.1
    apply hcovers _ fun hsame => absurd hsame hne
    apply h.settled
    intro e x hx hx_file
    apply hquiet e x _ hx_file
    rw [objects_put, if_neg]
    · exact hx
    · rintro rfl
      cases hdoc.symm.trans hx
      exact hne hx_file.symm

end

end

theorem eq_singleton_of_getElem? {α : Type} {xs : List α} {i : Nat} {x : α}
    (hlength : xs.length ≤ 1) (hx : xs[i]? = some x) : i = 0 ∧ xs = [x] := by
  match xs with
  | [] => cases hx
  | [y] =>
    cases i with
    | zero =>
      cases hx
      exact ⟨rfl, rfl⟩
    | succ i => cases hx
  | _ :: _ :: _ => exact absurd hlength (by simp)

theorem Saved.fire (h : Saved s) (horderly : Orderly s (.fire d)) : Saved (s.fire d) := by
  unfold Instance.fire
  split
  · exact h
  rename_i doc hdoc
  split
  case isFalse => exact h
  rename_i htimer
  have hgood := h.good hdoc
  have hflushes : doc.flushes = [] := horderly doc hdoc htimer
  simp only [hgood.clear, hflushes, Bool.or_self, Bool.false_eq_true, if_false, nil_append]
  refine h.put hdoc rfl rfl ⟨⟨rfl, rfl⟩, ?_, Nat.le_refl 1, hgood.served, hgood.text, ?_⟩ (fun _ _ => rfl) ?_
  · intro hidle
    have hquiet := hgood.idle hidle
    rw [hquiet.1] at htimer
    cases htimer
  · intro content _ hcontent
    simp at hcontent
  · intro hquiet
    cases hquiet.2

theorem WSSharedDoc.Good.of_flush {covers : List U → Prop} (h : doc.Good covers) {i : Nat}
    {flush : Option (List U)} (hflush : doc.flushes[i]? = some flush) :
    doc.destroyed = false ∧ doc.load.into = none := by
  have hbusy : ¬doc.Quiet := by
    intro hquiet
    rw [hquiet.2] at hflush
    cases hflush
  constructor
  · by_contra hdestroyed
    exact hbusy (h.idle (.inl (by simpa using hdestroyed)))
  · by_contra hload
    exact hbusy (h.idle (.inr hload))

theorem Saved.stat (h : Saved s) (d i : Nat) : Saved (s.stat d i true) := by
  unfold Instance.stat
  split
  · exact h
  rename_i doc hdoc
  split
  case h_2 => exact h
  rename_i hflush
  have hgood := h.good hdoc
  obtain ⟨hlive, hload⟩ := hgood.of_flush hflush
  obtain ⟨rfl, hflushes⟩ := eq_singleton_of_getElem? hgood.single hflush
  rw [if_pos rfl, hflushes]
  refine h.put hdoc rfl rfl ⟨hgood.clear, ?_, Nat.le_refl 1, hgood.served, hgood.text, ?_⟩ (fun _ _ => rfl) ?_
  · intro hends
    exact absurd hends (not_idle hlive hload)
  · intro content _ hcontent
    cases mem_singleton.mp hcontent
    exact hgood.text hlive hload
  · intro hquiet
    cases hquiet.2

theorem Saved.write (h : Saved s) (d i : Nat) : Saved (s.write d i true) := by
  unfold Instance.write
  split
  · exact h
  rename_i doc hdoc
  split
  case h_2 => exact h
  rename_i content hflush
  have hgood := h.good hdoc
  obtain ⟨hlive, hload⟩ := hgood.of_flush hflush
  obtain ⟨rfl, hflushes⟩ := eq_singleton_of_getElem? hgood.single hflush
  rw [if_pos rfl]
  refine h.put hdoc rfl rfl ⟨hgood.clear, ?_, ?_, hgood.served, hgood.text, ?_⟩ ?_ ?_
  · intro hends
    exact absurd hends (not_idle hlive hload)
  · simp [hflushes]
  · intro other _ hother
    simp [hflushes] at hother
  · intro file hfile
    exact Function.update_of_ne hfile _ _
  · intro hquiet _
    rw [Function.update_self]
    exact hgood.written hquiet.1 (by rw [hflushes]; exact mem_singleton_self _)

theorem Saved.congr {s' : Instance U} (h : Saved s) (hobjects : s'.objects = s.objects) (hfiles : s'.files = s.files) :
    Saved s' := by
  constructor
  · rw [hobjects]
    exact h.good
  · rw [hobjects, hfiles]
    exact h.settled

end

structure Sound (s : Instance U) : Prop where
  wired : Wired s
  saved : Saved s

section

variable {s : Instance U}

section

variable (h : Sound s)

include h

theorem saved_openFile (uid : String) (file : File)
    (cached : Option (Option String)) : Saved (s.openFile uid file cached) := by
  unfold Instance.openFile
  split
  · exact h.saved
  cases hhere : s.here file with
  | some d =>
    obtain ⟨doc, hdoc, -⟩ := h.wired.found hhere
    simp only [Instance.join, hdoc]
    exact h.saved.put_users hdoc _
  | none =>
    have hsaved := h.saved.congr (activeDocs_objects file.uuid) (activeDocs_files file.uuid)
    exact hsaved.create (h.wired.activeDocs file.uuid) file _ uid

theorem saved_handleSync (file : File) (update : Option U) : Saved (s.handleSync file update) := by
  unfold Instance.handleSync
  split
  · rename_i d doc update hfound
    obtain ⟨hhere, hdoc⟩ := found_eq_some.mp hfound
    obtain ⟨-, hlive, hload⟩ := h.wired.found_at hhere hdoc
    exact h.saved.edit h.wired hdoc hlive hload update
  · exact h.saved

theorem saved_closeFile {uid : String} {file : File} {cached : Option (Option String)}
    (horderly : Orderly s (.closeFile uid file cached)) : Saved (s.closeFile uid file cached) := by
  unfold Instance.closeFile
  split
  · exact h.saved
  rename_i d doc hfound
  obtain ⟨hhere, hdoc⟩ := found_eq_some.mp hfound
  split
  · exact h.saved
  rename_i hcloses
  simp only [Bool.or_eq_true, Bool.not_eq_true', decide_eq_true_eq, not_or, Bool.not_eq_false, not_not] at hcloses
  split
  · rename_i hlast
    exact h.saved.destroy hdoc (horderly hcloses.1 d hhere doc hdoc hcloses.2 hlast)
  · exact h.saved.put_users hdoc _

theorem saved_closed (i : Nat) : Saved (s.closed i) := by
  obtain ⟨hobjects, hfiles⟩ := closed_objects_files (s := s) i
  exact h.saved.congr hobjects hfiles

/-- Orderly steps lose no edit. -/
theorem saved_step {label : Label U} (hsucceeds : Succeeds label) (horderly : Orderly s label) :
    Saved (step s label) := by
  cases label with
  | openFile uid file cached => exact saved_openFile h uid file cached
  | read d ok blank =>
    cases hsucceeds
    exact h.saved.read h.wired d blank
  | initialized d => exact h.saved.initialized h.wired d
  | handleSync file update => exact saved_handleSync h file update
  | closeFile uid file cached => exact saved_closeFile h horderly
  | closed i => exact saved_closed h i
  | fire d => exact h.saved.fire horderly
  | stat d i ok =>
    cases hsucceeds
    exact h.saved.stat d i
  | write d i ok =>
    cases hsucceeds
    exact h.saved.write d i

theorem sound_step {label : Label U} (hsucceeds : Succeeds label) (horderly : Orderly s label) :
    Sound (step s label) :=
  ⟨wired_step h.wired (tidy_of_orderly hsucceeds horderly), saved_step h hsucceeds horderly⟩

theorem complete_of_sound (label : Label U) : Complete s label := by
  cases label with
  | read d ok blank =>
    intro doc map uid hdoc hload d' _ doc' hdoc' hfile update hupdate
    have hinto : doc.load.into = some map := by rw [hload]; rfl
    exact h.saved.settled doc.file (h.saved.quiet_of_loading h.wired hdoc hinto) d' doc' hdoc' hfile update hupdate
  | _ => trivial

end

end

/-- In a run of orderly steps every new document starts with all the edits of the earlier documents of its file. -/
theorem complete_of_orderly {instanceId : String} {files : File → List U} {labels : List (Label U)}
    (horderly : Along step (fun s label => Succeeds label ∧ Orderly s label) (.start instanceId files) labels) :
    Along step Complete (.start instanceId files) labels := by
  have hstep (s : Instance U) (label : Label U) :
      Sound s → Succeeds label ∧ Orderly s label → Sound (step s label) := fun h hlabel => sound_step h hlabel.1 hlabel.2
  exact along_of_invariant hstep (fun s label h _ => complete_of_sound h label)
    ⟨wired_start instanceId files, saved_start instanceId files⟩ horderly

def patient : List (Label Nat) :=
  [.openFile "alice" notes (some none), .read 0 true false, .initialized 0, .handleSync notes (some 1), .fire 0,
    .stat 0 0 true, .write 0 0 true, .closeFile "alice" notes (some (some "e1")), .closed 0,
    .openFile "bob" notes (some none), .read 1 true false, .initialized 1]

theorem complete_patient : Along step Complete (.start "e1" fun _ => []) patient :=
  complete_of_orderly (by decide +kernel)

def hasty : List (Label Nat) :=
  [.openFile "alice" notes (some none), .read 0 true false, .initialized 0, .handleSync notes (some 1),
    .closeFile "alice" notes (some (some "e1")), .closed 0, .openFile "bob" notes (some none), .read 1 true false]

/-- What Bob gets does not have the edit. -/
theorem lost_hasty :
    Along step (fun _ label => Succeeds label) (.start "e1" fun _ => []) hasty ∧
      ¬Along step Complete (.start "e1" fun _ => []) hasty := by
  refine ⟨by decide +kernel, fun hcomplete => ?_⟩
  have hread : Complete (run step (.start "e1" fun _ => []) (hasty.take 7)) (.read 1 true false) :=
    ((along_append step Complete _ (hasty.take 7) [.read 1 true false]).mp hcomplete).2.1
  have hlost := hread _ _ _ rfl rfl 0 (by decide) _ rfl rfl 1 (by decide +kernel)
  exact absurd hlost (by decide +kernel)

end HideServer.Env.Sync
