import HideServer.Env.Wiring

/-!
# Who has a file open

For most purposes an instance is two tables: the users of each open file, and the file and the user of
each document that is being loaded.
-/

namespace HideServer.Env.Sync

open Option Instance

variable {U : Type}

variable {uid : String}

def Load.opener : Load U → Option String
  | .requested _ uid => some uid
  | .served _ uid _ _ => some uid
  | .finished _ => none

theorem Load.opener_eq_none {load : Load U} : load.opener = none ↔ load.into = none := by
  cases load <;> simp [Load.opener, Load.into]

theorem Load.into_of_opener {load : Load U} (h : load.opener = some uid) : ∃ map, load.into = some map := by
  rw [← ne_none_iff_exists', Ne, ← opener_eq_none, h]
  exact some_ne_none uid

def joined (uid : String) (users : List String) : List String :=
  if uid ∈ users then users else users ++ [uid]

theorem mem_joined (uid : String) (users : List String) : uid ∈ joined uid users := by
  unfold joined
  split
  · assumption
  · exact List.mem_append_right _ (List.mem_singleton_self uid)

theorem mem_joined_of_mem {other : String} {users : List String} (huid : uid ∈ users) : uid ∈ joined other users := by
  unfold joined
  split
  · exact huid
  · exact List.mem_append_left _ huid

def parted (uid : String) (users : List String) : Option (List String) :=
  if uid ∈ users ∧ users.erase uid = [] then none else some (users.erase uid)

namespace Instance

variable (s : Instance U)

/-- The users of an open file. -/
def users (file : File) : Option (List String) :=
  (s.here file).bind fun d => (s.objects d).map (·.users)

/-- The file and the user of a document that is being loaded. -/
def opening (d : Nat) : Option (File × String) :=
  (s.objects d).bind fun doc => doc.load.opener.map (doc.file, ·)

def served (d : Nat) : Bool :=
  match s.objects d with
  | some ⟨_, .served _ _ _ _, _, _, _, _, _, _, _⟩ => true
  | _ => false

/-- The last user leaves. -/
def parts (uid : String) (file : File) (cached : Option (Option String)) : Bool :=
  s.responsible cached && (s.users file).any fun users => uid ∈ users ∧ users.erase uid = []

end Instance

section

variable {s : Instance U} {d : Nat} {doc doc' : WSSharedDoc U}

variable {file : File}

theorem opening_eq_some :
    s.opening d = some (file, uid) ↔
      ∃ doc, s.objects d = some doc ∧ doc.file = file ∧ doc.load.opener = some uid := by
  simp only [opening, bind_eq_some_iff, map_eq_some_iff, Prod.mk.injEq]
  constructor
  · rintro ⟨doc, hdoc, opener, hopener, rfl, rfl⟩
    exact ⟨doc, hdoc, rfl, hopener⟩
  · rintro ⟨doc, hdoc, rfl, hopener⟩
    exact ⟨doc, hdoc, uid, hopener, rfl, rfl⟩

theorem served_iff : s.served d = true ↔ ∃ doc map uid content blank, s.objects d = some doc ∧
      doc.load = .served map uid content blank := by
  unfold served
  split
  · rename_i file map uid content blank edits users timer flushes isDisplaced isConflicting destroyed hdoc
    simp only [true_iff]
    exact ⟨_, map, uid, content, blank, hdoc, rfl⟩
  · rename_i hother
    simp only [Bool.false_eq_true, false_iff]
    rintro ⟨⟨⟩, map, uid, content, blank, hdoc, rfl⟩
    exact hother _ _ _ _ _ _ _ _ _ _ _ _ hdoc

theorem opening_of_served (hserved : s.served d = true) : ∃ file uid, s.opening d = some (file, uid) := by
  obtain ⟨doc, map, uid, content, blank, hdoc, hload⟩ := served_iff.mp hserved
  refine ⟨doc.file, uid, opening_eq_some.mpr ⟨doc, hdoc, rfl, ?_⟩⟩
  rw [hload]
  rfl

theorem users_put (d : Nat) (doc' : WSSharedDoc U) (file : File) :
    (s.put d doc').users file = if s.here file = some d then some doc'.users else s.users file := by
  have hhere : (s.put d doc').here file = s.here file := rfl
  unfold users
  rw [hhere]
  cases s.here file with
  | none => rfl
  | some e =>
    simp only [bind_some, objects_put, some.injEq]
    split_ifs <;> rfl

theorem opening_put (d : Nat) (doc' : WSSharedDoc U) (e : Nat) :
    (s.put d doc').opening e =
      if e = d then doc'.load.opener.map (doc'.file, ·) else s.opening e := by
  unfold opening
  rw [objects_put]
  split_ifs <;> rfl

section

variable (hdoc : s.objects d = some doc)

include hdoc

theorem users_put_of_eq (husers : doc'.users = doc.users) : (s.put d doc').users = s.users := by
  funext file
  rw [users_put]
  split_ifs with hhere
  · rw [users, hhere, bind_some, hdoc, husers]
    rfl
  · rfl

theorem opening_put_of_eq (hfile : doc'.file = doc.file)
    (hload : doc'.load.opener = doc.load.opener) : (s.put d doc').opening = s.opening := by
  funext e
  rw [opening_put]
  split_ifs with he
  · rw [he, opening, hdoc, hfile, hload]
    rfl
  · rfl

theorem tables_put (husers : doc'.users = doc.users)
    (hfile : doc'.file = doc.file) (hload : doc'.load.opener = doc.load.opener) :
    (s.put d doc').users = s.users ∧ (s.put d doc').opening = s.opening :=
  ⟨users_put_of_eq hdoc husers, opening_put_of_eq hdoc hfile hload⟩

end

variable {label : Label U}

theorem tables_inner (hinner : label.inner = true) :
    (step s label).users = s.users ∧ (step s label).opening = s.opening := by
  rcases inner_cases hinner s with hsame | ⟨d, doc, doc', files, hdoc, hafter, hkept⟩
  · rw [hsame]
    exact ⟨rfl, rfl⟩
  · rw [hafter]
    exact tables_put hdoc hkept.users hkept.file (congrArg Load.opener hkept.load)

theorem tidy_of_inner (hinner : label.inner = true) : Tidy s label := by
  cases label with
  | openFile uid file cached => cases hinner
  | read d ok blank => cases hinner
  | closed i => cases hinner
  | _ => trivial

theorem Wired.users_eq_none (h : Wired s) : s.users file = none ↔ s.here file = none := by
  unfold users
  cases hhere : s.here file with
  | none => simp
  | some d =>
    obtain ⟨doc, hdoc, -⟩ := h.found hhere
    simp [hdoc]

theorem Wired.live_of_opener (h : Wired s) (hdoc : s.objects d = some doc) (hopener : doc.load.opener = some uid) :
    doc.destroyed = false := by
  obtain ⟨map, hmap⟩ := Load.into_of_opener hopener
  exact h.live hdoc hmap

theorem Wired.opening_of_users (h : Wired s) (hopening : s.opening d = some (file, uid)) : s.users file = none := by
  obtain ⟨doc, hdoc, rfl, hopener⟩ := opening_eq_some.mp hopening
  rw [h.users_eq_none]
  by_contra hhere
  obtain ⟨e, he⟩ := ne_none_iff_exists'.mp hhere
  obtain ⟨other, hother, hfile, hlive, hload⟩ := h.found he
  obtain ⟨map, hmap⟩ := Load.into_of_opener hopener
  obtain rfl := h.unique hdoc hother hfile.symm (h.live hdoc hmap) hlive
  cases hdoc.symm.trans hother
  rw [hmap] at hload
  cases hload

theorem Wired.opening_unique (h : Wired s) {e : Nat} {other : String} (hd : s.opening d = some (file, uid))
    (he : s.opening e = some (file, other)) : d = e := by
  obtain ⟨doc, hdoc, hfile, hopener⟩ := opening_eq_some.mp hd
  obtain ⟨doc', hdoc', hfile', hopener'⟩ := opening_eq_some.mp he
  exact h.unique hdoc hdoc' (hfile.trans hfile'.symm) (h.live_of_opener hdoc hopener) (h.live_of_opener hdoc' hopener')

theorem Wired.opening_docCount (h : Wired s) : s.opening s.docCount = none := by
  unfold opening
  cases hdoc : s.objects s.docCount with
  | none => rfl
  | some doc => exact absurd (h.docs_lt hdoc) (Nat.lt_irrefl _)

theorem Wired.users_put_here (h : Wired s) (hhere : s.here file = some d) (doc' : WSSharedDoc U) (other : File) :
    (s.put d doc').users other = if other = file then some doc'.users else s.users other := by
  have hiff : s.here other = some d ↔ other = file := by
    constructor
    · intro hother
      obtain ⟨doc, hdoc, hfile, -⟩ := h.found hhere
      exact (h.found_at hother hdoc).1.symm.trans hfile
    · rintro rfl
      exact hhere
  rw [users_put]
  simp only [hiff]

theorem users_eq_some (hhere : s.here doc.file = some d) (hdoc : s.objects d = some doc) :
    s.users doc.file = some doc.users := by
  simp [users, hhere, hdoc]

theorem users_openFile (h : Wired s) (uid : String) (file : File) (cached : Option (Option String)) (other : File) :
    (s.openFile uid file cached).users other =
      if s.responsible cached = true ∧ other = file then (s.users file).map (joined uid)
      else s.users other := by
  unfold openFile
  by_cases hresponsible : s.responsible cached = true
  · simp only [hresponsible, Bool.not_true, Bool.false_eq_true, if_false, true_and]
    cases hhere : s.here file with
    | some d =>
      obtain ⟨doc, hdoc, rfl, -⟩ := h.found hhere
      simp only [Instance.join, hdoc, h.users_put_here hhere, users_eq_some hhere hdoc]
      rfl
    | none =>
      have hkeep (file : File) : (s.activeDocs file.uuid).2.users other = s.users other := by
        unfold users
        rw [here_activeDocs h.maps_lt, activeDocs_objects]
      have hfresh : (s.activeDocs file.uuid).2.here other ≠ some (s.activeDocs file.uuid).2.docCount := by
        intro hat
        obtain ⟨doc, hdoc, -⟩ := (h.activeDocs file.uuid).found hat
        exact absurd ((h.activeDocs file.uuid).docs_lt hdoc) (Nat.lt_irrefl _)
      have hnone := h.users_eq_none.mpr hhere
      have hcreate := users_put (s := (s.activeDocs file.uuid).2) (s.activeDocs file.uuid).2.docCount
        (.new file (s.activeDocs file.uuid).1 uid) other
      rw [if_neg hfresh, hkeep] at hcreate
      refine Eq.trans hcreate ?_
      split_ifs with hother
      · rw [hother, hnone]
        rfl
      · rfl
  · simp [hresponsible]

theorem opening_openFile (h : Wired s) (uid : String) (file : File) (cached : Option (Option String)) (e : Nat) :
    (s.openFile uid file cached).opening e =
      if (s.responsible cached = true ∧ s.here file = none) ∧ e = s.docCount then some (file, uid)
      else s.opening e := by
  unfold openFile
  by_cases hresponsible : s.responsible cached = true
  · simp only [hresponsible, Bool.not_true, Bool.false_eq_true, if_false, true_and]
    cases hhere : s.here file with
    | some d =>
      obtain ⟨doc, hdoc, -⟩ := h.found hhere
      simp only [Instance.join, hdoc, reduceCtorEq, false_and, if_false]
      apply congrFun
      exact opening_put_of_eq hdoc rfl rfl
    | none =>
      have hcreate := opening_put (s := (s.activeDocs file.uuid).2) (s.activeDocs file.uuid).2.docCount
        (.new file (s.activeDocs file.uuid).1 uid) e
      simp only [true_and]
      refine Eq.trans hcreate ?_
      simp only [opening, activeDocs_objects, activeDocs_docCount]
      rfl
  · simp [hresponsible]

theorem users_read (d : Nat) (blank : Bool) : (s.read d true blank).users = s.users := by
  unfold Instance.read
  split
  · rfl
  rename_i doc hdoc
  split
  · exact users_put_of_eq hdoc rfl
  · rfl

theorem opening_read (d : Nat) (blank : Bool) : (s.read d true blank).opening = s.opening := by
  unfold Instance.read
  split
  · rfl
  rename_i doc hdoc
  split
  · rename_i map uid hload
    refine opening_put_of_eq hdoc rfl ?_
    rw [hload]
    rfl
  · rfl

theorem Wired.users_of_ne (h : Wired s) {s' : Instance U} {other : File} (hdoc : s.objects d = some doc)
    (hother : ¬other = doc.file) (hhere : s'.here other = s.here other)
    (hobjects : ∀ e, ¬e = d → s'.objects e = s.objects e) : s'.users other = s.users other := by
  unfold users
  rw [hhere]
  cases hold : s.here other with
  | none => rfl
  | some e =>
    have hne : ¬e = d := by
      rintro rfl
      exact hother (h.found_at hold hdoc).1.symm
    simp only [bind_some, hobjects e hne]

theorem users_initialized (h : Wired s) (hserved : s.served d = true) (hopening : s.opening d = some (file, uid))
    (other : File) : (s.initialized d).users other = if other = file then some [uid] else s.users other := by
  obtain ⟨doc, map, opener, content, blank, hdoc, hload⟩ := served_iff.mp hserved
  obtain ⟨doc', hdoc', rfl, hopener⟩ := opening_eq_some.mp hopening
  cases hdoc.symm.trans hdoc'
  rw [hload] at hopener
  cases hopener
  have hhere := h.here_initialized hdoc hload other
  have hobjects (e : Nat) : (s.initialized d).objects e =
      if e = d then
        some { doc with load := .finished content, timer := doc.timer || !blank, users := [uid] }
      else s.objects e := by
    unfold initialized
    simp only [hdoc, hload]
    exact objects_put e
  split_ifs at hhere ⊢ with hother
  · simp [users, hhere, hobjects]
  · exact h.users_of_ne hdoc hother hhere fun e he => (hobjects e).trans (if_neg he)

theorem opening_initialized (hserved : s.served d = true) (e : Nat) :
    (s.initialized d).opening e = if e = d then none else s.opening e := by
  obtain ⟨doc, map, uid, content, blank, hdoc, hload⟩ := served_iff.mp hserved
  unfold initialized
  simp only [hdoc, hload]
  exact opening_put ..

theorem initialized_of_not_served (hserved : s.served d = false) : s.initialized d = s := by
  unfold initialized
  split
  · rfl
  rename_i doc hdoc
  split
  · rename_i map uid content blank hload
    rw [served_iff.mpr ⟨doc, map, uid, content, blank, hdoc, hload⟩] at hserved
    cases hserved
  · rfl

theorem users_destroy (h : Wired s) (hdoc : s.objects d = some doc) (hhere : s.here doc.file = some d) (other : File) :
    (s.destroy d doc).users other = if other = doc.file then none else s.users other := by
  have hafter := h.here_destroy hhere other
  split_ifs at hafter ⊢ with hother
  · simp [users, hafter]
  · exact h.users_of_ne hdoc hother hafter fun e he => (objects_destroy e).trans (if_neg he)

theorem users_closeFile (h : Wired s) (uid : String) (file : File) (cached : Option (Option String)) (other : File) :
    (s.closeFile uid file cached).users other =
      if s.responsible cached = true ∧ other = file then (s.users file).bind (parted uid)
      else s.users other := by
  unfold closeFile
  cases hhere : s.here file with
  | none =>
    have hnone := h.users_eq_none.mpr hhere
    simp only [bind_none]
    split_ifs with hother
    · rw [hother.2, hnone]
      rfl
    · rfl
  | some d =>
    obtain ⟨doc, hdoc, rfl, -⟩ := h.found hhere
    simp only [bind_some, hdoc, map_some, users_eq_some hhere hdoc, parted]
    by_cases hresponsible : s.responsible cached = true
    · simp only [hresponsible, true_and, Bool.not_true, Bool.false_or, decide_eq_true_eq]
      by_cases hin : uid ∈ doc.users
      · simp only [hin, not_true, if_false, true_and]
        by_cases hlast : doc.users.erase uid = []
        · simp only [hlast, if_true]
          exact users_destroy h hdoc hhere other
        · simp only [hlast, if_false]
          exact h.users_put_here hhere _ other
      · simp only [hin, not_false_eq_true, if_true, false_and, if_false, List.erase_of_not_mem hin]
        split_ifs with hother
        · rw [hother]
          exact users_eq_some hhere hdoc
        · rfl
    · simp [hresponsible]

theorem opening_closeFile (uid : String) (file : File) (cached : Option (Option String)) :
    (s.closeFile uid file cached).opening = s.opening := by
  unfold closeFile
  split
  · rfl
  rename_i d doc hfound
  have hdoc := (found_eq_some.mp hfound).2
  split
  · rfl
  split
  · exact opening_put_of_eq hdoc rfl rfl
  · exact opening_put_of_eq hdoc rfl rfl

theorem users_closed (i : Nat) : (s.closed i).users = s.users := by
  funext file
  unfold users
  rw [here_closed, (closed_objects_files i).1]

theorem opening_closed (i : Nat) : (s.closed i).opening = s.opening := by
  unfold opening
  rw [(closed_objects_files i).1]

theorem instanceId_step (s : Instance U) (label : Label U) : (step s label).instanceId = s.instanceId := by
  cases label <;>
    simp only [step, Instance.openFile, Instance.join, Instance.create, Instance.activeDocs, Instance.read,
      Instance.abandon, Instance.initialized, Instance.handleSync, Instance.closeFile, Instance.destroy,
      Instance.closed, Instance.fire, Instance.stat, Instance.write] <;>
    (repeat' split) <;> rfl

theorem opening_step (h : Wired s) (htidy : Tidy s label) (hlabel : label ≠ .initialized d)
    (hopening : s.opening d = some (file, uid)) : (step s label).opening d = some (file, uid) := by
  cases label with
  | openFile opener other cached =>
    have hold : d ≠ s.docCount := by
      rintro rfl
      rw [h.opening_docCount] at hopening
      cases hopening
    rw [step, opening_openFile h, if_neg fun hnew => hold hnew.2]
    exact hopening
  | read e ok blank =>
    cases htidy
    rw [step, opening_read]
    exact hopening
  | initialized e =>
    have hne : d ≠ e := fun he => hlabel (by rw [he])
    by_cases hserved : s.served e = true
    · rw [step, opening_initialized hserved, if_neg hne]
      exact hopening
    · rw [step, initialized_of_not_served (by simpa using hserved)]
      exact hopening
  | closeFile closer other cached =>
    rw [step, opening_closeFile]
    exact hopening
  | closed i =>
    rw [step, opening_closed]
    exact hopening
  | _ =>
    rw [(tables_inner rfl).2]
    exact hopening

theorem users_step (h : Wired s) (htidy : Tidy s label) {users : List String}
    (hlabel : ∀ cached, label ≠ .closeFile uid file cached) (husers : s.users file = some users) (huid : uid ∈ users) :
    ∃ users, (step s label).users file = some users ∧ uid ∈ users := by
  cases label with
  | openFile opener other cached =>
    rw [step, users_openFile h]
    split_ifs with hopens
    · rw [← hopens.2, husers]
      exact ⟨joined opener users, rfl, mem_joined_of_mem huid⟩
    · exact ⟨users, husers, huid⟩
  | read e ok blank =>
    cases htidy
    rw [step, users_read]
    exact ⟨users, husers, huid⟩
  | initialized e =>
    by_cases hserved : s.served e = true
    · obtain ⟨other, opener, hopening⟩ := opening_of_served hserved
      have hne : file ≠ other := by
        rintro rfl
        rw [h.opening_of_users hopening] at husers
        cases husers
      rw [step, users_initialized h hserved hopening, if_neg hne]
      exact ⟨users, husers, huid⟩
    · rw [step, initialized_of_not_served (by simpa using hserved)]
      exact ⟨users, husers, huid⟩
  | closeFile closer other cached =>
    rw [step, users_closeFile h]
    split_ifs with hcloses
    · obtain ⟨-, rfl⟩ := hcloses
      have hne : uid ≠ closer := by
        rintro rfl
        exact hlabel cached rfl
      have hleft : uid ∈ users.erase closer := (List.mem_erase_of_ne hne).mpr huid
      refine ⟨users.erase closer, ?_, hleft⟩
      rw [husers, bind_some, parted, if_neg]
      exact fun hlast => List.ne_nil_of_mem hleft hlast.2
    · exact ⟨users, husers, huid⟩
  | closed i =>
    rw [step, users_closed]
    exact ⟨users, husers, huid⟩
  | _ =>
    rw [(tables_inner rfl).1]
    exact ⟨users, husers, huid⟩

end

end HideServer.Env.Sync
