import HideServer.Env.Placed

/-!
# The documents and the maps they are found in

In a run of orderly steps a file has at most one document that is not destroyed, in the map of its
workspace or about to be entered in it.
-/

namespace HideServer.Env.Sync

open Function Dict Instance

variable {U : Type}

/-- The live document of a file is found, or it is on its way into the map that is in use. -/
structure Tracked (s : Instance U) : Prop where
  unique : ∀ {d d' doc doc'}, s.objects d = some doc → s.objects d' = some doc' → doc.file = doc'.file →
    doc.destroyed = false → doc'.destroyed = false → d = d'
  listed : ∀ {d doc}, s.objects d = some doc → doc.destroyed = false → doc.load.into = none → s.here doc.file = some d
  mapped : ∀ {d doc map}, s.objects d = some doc → doc.load.into = some map → s.docs.get? doc.file.uuid = some map

structure Wired (s : Instance U) : Prop extends Tracked s where
  placed : ∃ owner, Placed owner s

def WSSharedDoc.face (doc : WSSharedDoc U) : File × Bool × Option Nat :=
  (doc.file, doc.destroyed, doc.load.into)

section

variable {s : Instance U} {d : Nat} {doc doc' : WSSharedDoc U} {file : File}

theorem wired_start (instanceId : String) (files : File → List U) : Wired (.start instanceId files) where
  unique h := nomatch h
  listed h := nomatch h
  mapped h := nomatch h
  placed := ⟨fun _ => "", placed_start _ instanceId files⟩

theorem Tracked.put (h : Tracked s) (hdoc : s.objects d = some doc) (hface : doc'.face = doc.face) :
    Tracked (s.put d doc') := by
  have hold {e : Nat} {x : WSSharedDoc U} (hx : (s.put d doc').objects e = some x) :
      ∃ y, s.objects e = some y ∧ x.file = y.file ∧ x.destroyed = y.destroyed ∧ x.load.into = y.load.into := by
    rw [objects_put] at hx
    split_ifs at hx with he
    · subst he
      cases hx
      simp only [WSSharedDoc.face, Prod.mk.injEq] at hface
      exact ⟨doc, hdoc, hface⟩
    · exact ⟨x, hx, rfl, rfl, rfl⟩
  constructor
  · intro e e' x x' hx hx' hfile hlive hlive'
    obtain ⟨y, hy, hyfile, hylive, -⟩ := hold hx
    obtain ⟨y', hy', hyfile', hylive', -⟩ := hold hx'
    exact h.unique hy hy' (hyfile ▸ hyfile' ▸ hfile) (hylive ▸ hlive) (hylive' ▸ hlive')
  · intro e x hx hlive hload
    obtain ⟨y, hy, hyfile, hylive, hyload⟩ := hold hx
    rw [hyfile]
    exact h.listed hy (hylive ▸ hlive) (hyload ▸ hload)
  · intro e x map hx hload
    obtain ⟨y, hy, hyfile, -, hyload⟩ := hold hx
    rw [hyfile]
    exact h.mapped hy (hyload ▸ hload)

section

variable (h : Wired s)

include h

theorem Wired.maps_lt {uuid : String} {map : Nat} (hmap : s.docs.get? uuid = some map) : map < s.mapCount := by
  obtain ⟨owner, hplaced⟩ := h.placed
  exact (hplaced.owned hmap).1

theorem Wired.docs_lt (hdoc : s.objects d = some doc) : d < s.docCount := by
  obtain ⟨owner, hplaced⟩ := h.placed
  exact hplaced.docs_lt hdoc

theorem Wired.found (hhere : s.here file = some d) :
    ∃ doc, s.objects d = some doc ∧ doc.file = file ∧ doc.destroyed = false ∧ doc.load.into = none := by
  obtain ⟨owner, hplaced⟩ := h.placed
  obtain ⟨doc, hdoc, hfile, hlive, hload, -⟩ := hplaced.found hhere
  exact ⟨doc, hdoc, hfile, hlive, hload⟩

theorem Wired.found_at (hhere : s.here file = some d) (hdoc : s.objects d = some doc) :
    doc.file = file ∧ doc.destroyed = false ∧ doc.load.into = none := by
  obtain ⟨same, hsame, hrest⟩ := h.found hhere
  cases hdoc.symm.trans hsame
  exact hrest

theorem Wired.live {map : Nat} (hdoc : s.objects d = some doc) (hload : doc.load.into = some map) :
    doc.destroyed = false := by
  obtain ⟨owner, hplaced⟩ := h.placed
  exact (hplaced.aimed hdoc hload).2.1

theorem Wired.files (files : File → List U) : Wired { s with files := files } := by
  obtain ⟨owner, hplaced⟩ := h.placed
  exact ⟨⟨h.unique, h.listed, h.mapped⟩, owner, hplaced.congr rfl rfl rfl rfl id⟩

theorem Wired.activeDocs (uuid : String) : Wired (s.activeDocs uuid).2 := by
  obtain ⟨owner, hplaced⟩ := h.placed
  obtain ⟨owner', hplaced', -⟩ := hplaced.activeDocs uuid
  refine ⟨⟨?_, ?_, ?_⟩, owner', hplaced'⟩
  · rw [activeDocs_objects]
    exact h.unique
  · intro e x hx
    rw [activeDocs_objects] at hx
    rw [here_activeDocs h.maps_lt]
    exact h.listed hx
  · intro e x map hx hload
    rw [activeDocs_objects] at hx
    exact get?_activeDocs_of_some (h.mapped hx hload) uuid

theorem Wired.tracked_create {map : Nat} (uid : String) (hmap : s.docs.get? file.uuid = some map) (hnone : s.here file = none)
    (halone : ∀ d doc, s.objects d = some doc → doc.file = file → doc.load.into = none) :
    Tracked (s.create file map uid) := by
  have hdead {e : Nat} {x : WSSharedDoc U} (hx : s.objects e = some x) (hfile : x.file = file) : x.destroyed = true := by
    by_contra hlive
    have hlisted := h.listed hx (by simpa using hlive) (halone e x hx hfile)
    rw [hfile, hnone] at hlisted
    cases hlisted
  constructor
  · intro e e' x x' hx hx' hfile hlive hlive'
    rw [objects_create] at hx hx'
    split_ifs at hx hx' with he he' he'
    · exact he.trans he'.symm
    · cases hx
      rw [hdead hx' hfile.symm] at hlive'
      cases hlive'
    · cases hx'
      rw [hdead hx hfile] at hlive
      cases hlive
    · exact h.unique hx hx' hfile hlive hlive'
  · intro e x hx hlive hload
    rw [objects_create] at hx
    split_ifs at hx
    · cases hx
      cases hload
    · exact h.listed hx hlive hload
  · intro e x into hx hload
    rw [objects_create] at hx
    split_ifs at hx
    · cases hx
      cases hload
      exact hmap
    · exact h.mapped hx hload

theorem Wired.here_set {map : Nat} (hmap : s.docs.get? file.uuid = some map) (change : Dict Nat Nat)
    (hchange : ∀ ino, ino ≠ file.ino → change.get? ino = (s.maps map).get? ino) (other : File) :
    ({ s with maps := update s.maps map change } : Instance U).here other =
      if other = file then change.get? file.ino else s.here other := by
  simp only [here]
  split_ifs with hsame
  · subst hsame
    simp [hmap]
  · cases hother : s.docs.get? other.uuid with
    | none => rfl
    | some map' =>
      by_cases hmaps : map' = map
      · subst hmaps
        obtain ⟨owner, hplaced⟩ := h.placed
        have huuid := (hplaced.owned hother).2.symm.trans (hplaced.owned hmap).2
        have hino : other.ino ≠ file.ino := by
          intro hino
          apply hsame
          cases other
          cases file
          simp_all
        simp [hchange _ hino]
      · simp [update_of_ne hmaps]

theorem Wired.rewire {s' : Instance U} (hdoc : s.objects d = some doc) (hlive : doc.destroyed = false)
    (hobjects : ∀ e, s'.objects e = if e = d then some doc' else s.objects e)
    (hfile : doc'.file = doc.file) (hloaded : doc'.load.into = none) (hdocs : s'.docs = s.docs)
    (hhere : ∀ file, s'.here file = if file = doc.file then (if doc'.destroyed then none else some d) else s.here file) :
    Tracked s' := by
  constructor
  · intro e e' x x' hx hx' hsame hx_live hx_live'
    rw [hobjects] at hx hx'
    split_ifs at hx hx' with he he' he'
    · exact he.trans he'.symm
    · cases hx
      rw [he]
      exact h.unique hdoc hx' (hfile.symm.trans hsame) hlive hx_live'
    · cases hx'
      rw [he']
      exact h.unique hx hdoc (hsame.trans hfile) hx_live hlive
    · exact h.unique hx hx' hsame hx_live hx_live'
  · intro e x hx hx_live hx_load
    rw [hobjects] at hx
    split_ifs at hx with he
    · cases hx
      rw [hhere, if_pos hfile, hx_live, he]
      rfl
    · have hne : x.file ≠ doc.file := fun hsame => he (h.unique hx hdoc hsame hx_live hlive)
      rw [hhere, if_neg hne]
      exact h.listed hx hx_live hx_load
  · intro e x map hx hx_load
    rw [hobjects] at hx
    split_ifs at hx
    · cases hx
      rw [hloaded] at hx_load
      cases hx_load
    · rw [hdocs]
      exact h.mapped hx hx_load

theorem Wired.here_initialized {map : Nat} {uid : String} {content : List U} {blank : Bool}
    (hdoc : s.objects d = some doc) (hload : doc.load = .served map uid content blank) (file : File) :
    (s.initialized d).here file = if file = doc.file then some d else s.here file := by
  have hset := h.here_set (h.mapped hdoc (by rw [hload]; rfl)) ((s.maps map).set doc.file.ino d)
    (fun ino hino => by rw [get?_set, if_neg hino]) file
  rw [get?_set, if_pos rfl] at hset
  simp only [initialized, hdoc, hload]
  exact hset

theorem Wired.tracked_initialized (d : Nat) : Tracked (s.initialized d) := by
  unfold Instance.initialized
  split
  · exact h.toTracked
  rename_i doc hdoc
  split
  case h_2 => exact h.toTracked
  rename_i map uid content blank hload
  have hinto : doc.load.into = some map := by rw [hload]; rfl
  have hlive := h.live hdoc hinto
  refine h.rewire hdoc hlive objects_put rfl rfl rfl fun file => ?_
  have hhere := h.here_initialized hdoc hload file
  simp only [initialized, hdoc, hload] at hhere
  simp only [hlive, Bool.false_eq_true, if_false]
  exact hhere

theorem Wired.here_destroy (hhere : s.here doc.file = some d) (file : File) :
    (s.destroy d doc).here file = if file = doc.file then none else s.here file := by
  obtain ⟨map, hmap, -⟩ := here_eq_some.mp hhere
  have hset := h.here_set hmap ((s.maps map).erase doc.file.ino)
    (fun ino hino => by rw [get?_erase, if_neg hino]) file
  rw [get?_erase, if_pos rfl] at hset
  rw [← hset]
  simp only [Instance.destroy, Instance.put, Instance.here, hmap]

theorem Wired.tracked_destroy (hdoc : s.objects d = some doc) (hhere : s.here doc.file = some d) :
    Tracked (s.destroy d doc) := by
  obtain ⟨-, hlive, hload⟩ := h.found_at hhere hdoc
  exact h.rewire hdoc hlive objects_destroy rfl hload rfl (h.here_destroy hhere)

end

theorem Wired.tracked_closed (h : Wired s) {i : Nat} (horderly : Orderly s (.closed i)) : Tracked (s.closed i) := by
  obtain ⟨hobjects, -⟩ := closed_objects_files (s := s) i
  constructor
  · rw [hobjects]
    exact h.unique
  · intro e x hx
    rw [hobjects] at hx
    rw [here_closed]
    exact h.listed hx
  · intro e x map hx hload
    rw [hobjects] at hx
    have hmapped := h.mapped hx hload
    unfold Instance.closed
    split
    · exact hmapped
    rename_i uuid huuid
    simp only
    split
    · exact hmapped
    rename_i map' hmap
    split
    case isFalse => exact hmapped
    rename_i hempty
    rw [get?_erase, if_neg]
    · exact hmapped
    · intro hsame
      rw [hsame, hmap] at hmapped
      cases hmapped
      exact horderly uuid huuid map hmap hempty e (h.docs_lt hx) x hx hload

variable {label : Label U}

def Tidy (s : Instance U) : Label U → Prop
  | .openFile uid file cached => Orderly s (.openFile uid file cached)
  | .read _ ok _ => ok = true
  | .closed i => Orderly s (.closed i)
  | _ => True

theorem tidy_of_orderly (hsucceeds : Succeeds label) (horderly : Orderly s label) : Tidy s label := by
  cases label with
  | openFile uid file cached => exact horderly
  | read d ok blank => exact hsucceeds
  | closed i => exact horderly
  | _ => trivial

theorem Wired.tracked_openFile (h : Wired s) {uid : String} {cached : Option (Option String)}
    (horderly : Orderly s (.openFile uid file cached)) : Tracked (s.openFile uid file cached) := by
  unfold Instance.openFile
  split
  · exact h.toTracked
  rename_i hresponsible
  cases hhere : s.here file with
  | some d =>
    obtain ⟨doc, hdoc, -⟩ := h.found hhere
    simp only [join, hdoc]
    exact h.toTracked.put hdoc rfl
  | none =>
    refine (h.activeDocs file.uuid).tracked_create uid (get?_activeDocs file.uuid) ?_ ?_
    · rw [here_activeDocs h.maps_lt, hhere]
    · intro d doc hdoc
      rw [activeDocs_objects] at hdoc
      exact horderly (by simpa using hresponsible) hhere d (h.docs_lt hdoc) doc hdoc

theorem Tracked.read (h : Tracked s) (d : Nat) (blank : Bool) : Tracked (s.read d true blank) := by
  unfold Instance.read
  split
  · exact h
  rename_i doc hdoc
  split
  · rename_i map uid hload
    refine h.put hdoc ?_
    rw [WSSharedDoc.face, WSSharedDoc.face, hload]
    rfl
  · exact h

theorem Wired.tracked_closeFile (h : Wired s) (uid : String) (file : File)
    (cached : Option (Option String)) : Tracked (s.closeFile uid file cached) := by
  unfold Instance.closeFile
  split
  · exact h.toTracked
  rename_i d doc hfound
  obtain ⟨hhere, hdoc⟩ := found_eq_some.mp hfound
  obtain ⟨hfile, -⟩ := h.found_at hhere hdoc
  split
  · exact h.toTracked
  split
  · exact h.tracked_destroy hdoc (by rw [hfile, hhere])
  · exact h.toTracked.put hdoc rfl

theorem Tracked.inner (h : Tracked s) (hinner : label.inner = true) : Tracked (step s label) := by
  rcases inner_cases hinner s with hsame | ⟨d, doc, doc', files, hdoc, hafter, hkept⟩
  · rw [hsame]
    exact h
  · rw [hafter]
    have hput : Tracked (s.put d doc') := by
      refine h.put hdoc ?_
      rw [WSSharedDoc.face, WSSharedDoc.face, hkept.file, hkept.destroyed, hkept.load]
    exact ⟨hput.unique, hput.listed, hput.mapped⟩

theorem Wired.tracked_step (h : Wired s) (htidy : Tidy s label) : Tracked (step s label) := by
  cases label with
  | openFile uid file cached => exact h.tracked_openFile htidy
  | read d ok blank =>
    cases htidy
    exact h.toTracked.read d blank
  | initialized d => exact h.tracked_initialized d
  | closeFile uid file cached => exact h.tracked_closeFile uid file cached
  | closed i => exact h.tracked_closed htidy
  | handleSync | fire | stat | write => exact h.toTracked.inner rfl

/-- Tidy steps keep maps and documents in step. -/
theorem wired_step (h : Wired s) (htidy : Tidy s label) : Wired (step s label) := by
  obtain ⟨owner, hplaced⟩ := h.placed
  exact ⟨h.tracked_step htidy, placed_step hplaced label⟩

end

end HideServer.Env.Sync
