import HideServer.Env.Sync

/-!
# What the maps lead to

Whatever the order of its steps, an instance finds only documents that are loaded, that are not
destroyed and that have users.
-/

namespace HideServer.Env.Sync

open Function Dict Instance

variable {U : Type}

section

variable {s : Instance U} {d : Nat} {doc : WSSharedDoc U} {file : File}

theorem objects_put (e : Nat) : (s.put d doc).objects e = if e = d then some doc else s.objects e :=
  update_apply ..

theorem objects_create {map : Nat} {uid : String} (e : Nat) :
    (s.create file map uid).objects e = if e = s.docCount then some (.new file map uid) else s.objects e :=
  objects_put e

theorem objects_destroy (e : Nat) : (s.destroy d doc).objects e =
    if e = d then some { doc with users := [], destroyed := true } else s.objects e :=
  objects_put e

theorem here_eq_some : s.here file = some d ↔
    ∃ map, s.docs.get? file.uuid = some map ∧ (s.maps map).get? file.ino = some d :=
  Option.bind_eq_some_iff

theorem found_eq_some :
    ((s.here file).bind fun d => (s.objects d).map fun doc => (d, doc)) = some (d, doc) ↔
      s.here file = some d ∧ s.objects d = some doc := by
  simp only [Option.bind_eq_some_iff, Option.map_eq_some_iff, Prod.mk.injEq]
  constructor
  · rintro ⟨d', hhere, doc', hdoc, rfl, rfl⟩
    exact ⟨hhere, hdoc⟩
  · rintro ⟨hhere, hdoc⟩
    exact ⟨d, hhere, doc, hdoc, rfl, rfl⟩

theorem activeDocs_objects (uuid : String) : (s.activeDocs uuid).2.objects = s.objects := by
  unfold activeDocs
  split <;> rfl

theorem activeDocs_docCount (uuid : String) : (s.activeDocs uuid).2.docCount = s.docCount := by
  unfold activeDocs
  split <;> rfl

theorem activeDocs_files (uuid : String) : (s.activeDocs uuid).2.files = s.files := by
  unfold activeDocs
  split <;> rfl

theorem get?_activeDocs (uuid : String) : (s.activeDocs uuid).2.docs.get? uuid = some (s.activeDocs uuid).1 := by
  unfold activeDocs
  split
  · assumption
  · simp [get?_set]

theorem get?_activeDocs_of_some {other : String} {map : Nat} (hmap : s.docs.get? other = some map) (uuid : String) :
    (s.activeDocs uuid).2.docs.get? other = some map := by
  unfold activeDocs
  split
  · exact hmap
  · rename_i hnone
    rw [get?_set, if_neg]
    · exact hmap
    · rintro rfl
      rw [hnone] at hmap
      cases hmap

theorem here_activeDocs (hlt : ∀ {uuid map}, s.docs.get? uuid = some map → map < s.mapCount) (uuid : String)
    (file : File) : (s.activeDocs uuid).2.here file = s.here file := by
  unfold activeDocs
  split
  · rfl
  · rename_i hnone
    simp only [here, get?_set]
    split_ifs with huuid
    · subst huuid
      simp [hnone]
    · cases hmap : s.docs.get? file.uuid with
      | none => rfl
      | some map =>
        have hne : map ≠ s.mapCount := Nat.ne_of_lt (hlt hmap)
        simp [update_of_ne hne]

theorem closed_objects_files (i : Nat) : (s.closed i).objects = s.objects ∧ (s.closed i).files = s.files := by
  simp only [closed]
  split
  · exact ⟨rfl, rfl⟩
  · split
    · exact ⟨rfl, rfl⟩
    · split <;> exact ⟨rfl, rfl⟩

theorem here_erase {uuid : String} {map : Nat} (hmap : s.docs.get? uuid = some map)
    (hempty : (s.maps map).entries = []) (file : File) :
    (((s.docs.erase uuid).get? file.uuid).bind fun map => (s.maps map).get? file.ino) = s.here file := by
  rw [get?_erase, here]
  split_ifs with hsame
  · rw [hsame, hmap]
    have hnone : (s.maps map).get? file.ino = none := by
      by_contra hsome
      obtain ⟨d, hd⟩ := Option.ne_none_iff_exists'.mp hsome
      have hentry := mem_entries.mpr hd
      rw [hempty] at hentry
      cases hentry
    exact hnone.symm
  · rfl

theorem here_closed (i : Nat) (file : File) : (s.closed i).here file = s.here file := by
  simp only [closed]
  split
  · rfl
  · split
    · rfl
    · rename_i map hmap
      split
      · rename_i hempty
        exact here_erase hmap hempty file
      · rfl

/-- The step neither opens nor closes. -/
def Label.inner : Label U → Bool
  | .handleSync _ _ | .fire _ | .stat _ _ _ | .write _ _ _ => true
  | _ => false

/-- What such a step leaves alone. -/
structure WSSharedDoc.Kept (doc doc' : WSSharedDoc U) : Prop where
  file : doc'.file = doc.file
  load : doc'.load = doc.load
  users : doc'.users = doc.users
  conflicting : doc'.isConflicting = doc.isConflicting
  destroyed : doc'.destroyed = doc.destroyed

theorem inner_cases {label : Label U} (hinner : label.inner = true) (s : Instance U) :
    step s label = s ∨ ∃ d doc doc' files, s.objects d = some doc ∧ step s label = { s.put d doc' with files := files } ∧
      doc.Kept doc' := by
  cases label with
  | handleSync file update =>
    simp only [step, handleSync]
    split
    · rename_i d doc update hfound
      exact .inr ⟨d, doc, _, s.files, (found_eq_some.mp hfound).2, rfl, ⟨rfl, rfl, rfl, rfl, rfl⟩⟩
    · exact .inl rfl
  | fire d =>
    simp only [step, fire]
    split
    · exact .inl rfl
    rename_i doc hdoc
    split
    · exact .inr ⟨d, doc, _, s.files, hdoc, rfl, ⟨rfl, rfl, rfl, rfl, rfl⟩⟩
    · exact .inl rfl
  | stat d i ok =>
    simp only [step, stat]
    split
    · exact .inl rfl
    rename_i doc hdoc
    split
    · split
      · exact .inr ⟨d, doc, _, s.files, hdoc, rfl, ⟨rfl, rfl, rfl, rfl, rfl⟩⟩
      · exact .inr ⟨d, doc, _, s.files, hdoc, rfl, ⟨rfl, rfl, rfl, rfl, rfl⟩⟩
    · exact .inl rfl
  | write d i ok =>
    simp only [step, write]
    split
    · exact .inl rfl
    rename_i doc hdoc
    split
    · exact .inr ⟨d, doc, _, _, hdoc, rfl, ⟨rfl, rfl, rfl, rfl, rfl⟩⟩
    · exact .inl rfl
  | _ => cases hinner

end

structure Placed (owner : Nat → String) (s : Instance U) : Prop where
  owned : ∀ {uuid map}, s.docs.get? uuid = some map → map < s.mapCount ∧ owner map = uuid
  docs_lt : ∀ {d doc}, s.objects d = some doc → d < s.docCount
  aimed : ∀ {d doc map}, s.objects d = some doc → doc.load.into = some map →
    (map < s.mapCount ∧ owner map = doc.file.uuid) ∧ doc.destroyed = false ∧ doc.isConflicting = false
  entered : ∀ {map ino d}, (s.maps map).get? ino = some d → map < s.mapCount ∧
    ∃ doc, s.objects d = some doc ∧ doc.file = ⟨owner map, ino⟩ ∧ doc.destroyed = false ∧
      doc.load.into = none ∧ doc.users ≠ []
  single : ∀ {map map' ino ino' d}, (s.maps map).get? ino = some d → (s.maps map').get? ino' = some d → map = map'

section

variable {owner : Nat → String} {s : Instance U} {d : Nat} {doc doc' : WSSharedDoc U}

theorem placed_start (owner : Nat → String) (instanceId : String) (files : File → List U) :
    Placed owner (.start instanceId files) where
  owned h := nomatch h
  docs_lt h := nomatch h
  aimed h := nomatch h
  entered h := nomatch h
  single h := nomatch h

variable {file : File}

section

variable (h : Placed owner s)

include h

theorem Placed.found (hhere : s.here file = some d) :
    ∃ doc, s.objects d = some doc ∧ doc.file = file ∧ doc.destroyed = false ∧ doc.load.into = none ∧
      doc.users ≠ [] := by
  obtain ⟨map, hmap, hentry⟩ := here_eq_some.mp hhere
  obtain ⟨-, doc, hdoc, hfile, hrest⟩ := h.entered hentry
  refine ⟨doc, hdoc, ?_, hrest⟩
  rw [hfile, (h.owned hmap).2]

theorem Placed.found_at (hhere : s.here file = some d) (hdoc : s.objects d = some doc) :
    doc.file = file ∧ doc.destroyed = false ∧ doc.load.into = none ∧ doc.users ≠ [] := by
  obtain ⟨same, hsame, hrest⟩ := h.found hhere
  cases hdoc.symm.trans hsame
  exact hrest

theorem Placed.congr {s' : Instance U} (hobjects : s'.objects = s.objects)
    (hmaps : s'.maps = s.maps) (hmapCount : s'.mapCount = s.mapCount) (hdocCount : s'.docCount = s.docCount)
    (hdocs : ∀ {uuid map}, s'.docs.get? uuid = some map → s.docs.get? uuid = some map) : Placed owner s' where
  owned hmap := hmapCount ▸ h.owned (hdocs hmap)
  docs_lt := hobjects ▸ hdocCount ▸ h.docs_lt
  aimed := hobjects ▸ hmapCount ▸ h.aimed
  entered := hmaps ▸ hobjects ▸ hmapCount ▸ h.entered
  single := hmaps ▸ h.single

section

variable (hdoc : s.objects d = some doc)

include hdoc

theorem Placed.docs_lt_put {e : Nat} {x : WSSharedDoc U}
    (hx : (s.put d doc').objects e = some x) : e < s.docCount := by
  rw [objects_put] at hx
  split_ifs at hx with he
  · rw [he]
    exact h.docs_lt hdoc
  · exact h.docs_lt hx

theorem Placed.put (hfile : doc'.file = doc.file) (hdestroyed : doc'.destroyed = doc.destroyed)
    (hload : doc'.load.into = doc.load.into)
    (hconflicting : doc.load.into ≠ none → doc'.isConflicting = doc.isConflicting)
    (husers : doc.users ≠ [] → doc'.users ≠ []) : Placed owner (s.put d doc') where
  owned := h.owned
  docs_lt := h.docs_lt_put hdoc
  aimed := by
    intro e x map hx hinto
    rw [objects_put] at hx
    split_ifs at hx with he
    · cases hx
      rw [hload] at hinto
      rw [hfile, hdestroyed, hconflicting (by simp [hinto])]
      exact h.aimed hdoc hinto
    · exact h.aimed hx hinto
  entered := by
    intro map ino e hentry
    obtain ⟨hlt, x, hx, hx_file, hx_live, hx_load, hx_users⟩ := h.entered hentry
    refine ⟨hlt, ?_⟩
    by_cases he : e = d
    · subst he
      cases hdoc.symm.trans hx
      refine ⟨doc', by rw [objects_put, if_pos rfl], hfile.trans hx_file, hdestroyed.trans hx_live, ?_, husers hx_users⟩
      rw [hload, hx_load]
    · exact ⟨x, by rw [objects_put, if_neg he, hx], hx_file, hx_live, hx_load, hx_users⟩
  single := h.single

theorem Placed.put_absent (habsent : ∀ map ino, (s.maps map).get? ino ≠ some d) (hload : doc'.load.into = none) :
    Placed owner (s.put d doc') where
  owned := h.owned
  docs_lt := h.docs_lt_put hdoc
  aimed := by
    intro e x map hx hinto
    rw [objects_put] at hx
    split_ifs at hx with he
    · cases hx
      rw [hload] at hinto
      cases hinto
    · exact h.aimed hx hinto
  entered := by
    intro map ino e hentry
    have hne : e ≠ d := by
      rintro rfl
      exact habsent map ino hentry
    obtain ⟨hlt, x, hx, hrest⟩ := h.entered hentry
    exact ⟨hlt, x, by rw [objects_put, if_neg hne, hx], hrest⟩
  single := h.single

theorem Placed.not_entered (hload : doc.load.into ≠ none) (map ino : Nat) : (s.maps map).get? ino ≠ some d := by
  intro hentry
  obtain ⟨-, x, hx, -, -, hx_load, -⟩ := h.entered hentry
  cases hdoc.symm.trans hx
  exact hload hx_load

end

end

section

variable (h : Placed owner s)

include h

theorem Placed.activeDocs (uuid : String) :
    ∃ owner, Placed owner (s.activeDocs uuid).2 ∧
      ((s.activeDocs uuid).1 < (s.activeDocs uuid).2.mapCount ∧ owner (s.activeDocs uuid).1 = uuid) := by
  cases hmap : s.docs.get? uuid with
  | some map =>
    simp only [Instance.activeDocs, hmap]
    exact ⟨owner, h, h.owned hmap⟩
  | none =>
    simp only [Instance.activeDocs, hmap]
    have hold {map : Nat} (hlt : map < s.mapCount) : update owner s.mapCount uuid map = owner map :=
      update_of_ne (Nat.ne_of_lt hlt) _ _
    have hmaps {map ino e : Nat} (hentry : (update s.maps s.mapCount empty map).get? ino = some e) :
        (s.maps map).get? ino = some e := by
      by_cases hnew : map = s.mapCount
      · subst hnew
        rw [update_self] at hentry
        cases hentry
      · rwa [update_of_ne hnew] at hentry
    refine ⟨update owner s.mapCount uuid, ⟨?_, h.docs_lt, ?_, ?_, ?_⟩, Nat.lt_succ_self _, update_self ..⟩
    · intro other map hother
      rw [get?_set] at hother
      split_ifs at hother with hsame
      · cases hother
        exact ⟨Nat.lt_succ_self _, (update_self ..).trans hsame.symm⟩
      · obtain ⟨hlt, howner⟩ := h.owned hother
        exact ⟨Nat.lt_succ_of_lt hlt, (hold hlt).trans howner⟩
    · intro e x map hx hinto
      obtain ⟨⟨hlt, howner⟩, hrest⟩ := h.aimed hx hinto
      exact ⟨⟨Nat.lt_succ_of_lt hlt, (hold hlt).trans howner⟩, hrest⟩
    · intro map ino e hentry
      obtain ⟨hlt, x, hx, hfile, hrest⟩ := h.entered (hmaps hentry)
      exact ⟨Nat.lt_succ_of_lt hlt, x, hx, by rw [hold hlt, hfile], hrest⟩
    · intro map map' ino ino' e hentry hentry'
      exact h.single (hmaps hentry) (hmaps hentry')

theorem Placed.create {map : Nat} (uid : String)
    (hmap : map < s.mapCount ∧ owner map = file.uuid) : Placed owner (s.create file map uid) := by
  refine ⟨h.owned, ?_, ?_, ?_, h.single⟩
  · intro e x hx
    rw [objects_create] at hx
    split_ifs at hx with he
    · rw [he]
      exact Nat.lt_succ_self _
    · exact Nat.lt_succ_of_lt (h.docs_lt hx)
  · intro e x into hx hinto
    rw [objects_create] at hx
    split_ifs at hx
    · cases hx
      cases hinto
      exact ⟨hmap, rfl, rfl⟩
    · exact h.aimed hx hinto
  · intro map ino e hentry
    obtain ⟨hlt, x, hx, hrest⟩ := h.entered hentry
    have hne : e ≠ s.docCount := Nat.ne_of_lt (h.docs_lt hx)
    exact ⟨hlt, x, by rw [objects_create, if_neg hne, hx], hrest⟩

theorem Placed.openFile (uid : String) (file : File)
    (cached : Option (Option String)) : ∃ owner, Placed owner (s.openFile uid file cached) := by
  unfold Instance.openFile
  split
  · exact ⟨owner, h⟩
  cases hhere : s.here file with
  | some d =>
    obtain ⟨doc, hdoc, -⟩ := h.found hhere
    simp only [join, hdoc]
    refine ⟨owner, h.put hdoc rfl rfl rfl (fun _ => rfl) fun husers => ?_⟩
    split
    · exact husers
    · exact List.append_ne_nil_of_left_ne_nil husers _
  | none =>
    obtain ⟨owner', hplaced, hmap⟩ := h.activeDocs file.uuid
    exact ⟨owner', hplaced.create uid hmap⟩

theorem Placed.read (d : Nat) (ok blank : Bool) : Placed owner (s.read d ok blank) := by
  unfold Instance.read
  split
  · exact h
  rename_i doc hdoc
  split
  case h_2 => exact h
  rename_i map uid hload
  have hinto : doc.load.into = some map := by rw [hload]; rfl
  split
  · refine h.put hdoc rfl rfl ?_ (fun _ => rfl) id
    rw [hload]
    rfl
  · have hput : Placed owner (s.put d { doc with load := .finished [], destroyed := true }) :=
      h.put_absent hdoc (h.not_entered hdoc (by simp [hinto])) rfl
    simp only [abandon]
    split
    · exact hput
    · split
      · refine hput.congr rfl rfl rfl rfl fun hget => ?_
        rw [get?_erase] at hget
        split_ifs at hget
        exact hget
      · exact hput

theorem Placed.initialized (d : Nat) : Placed owner (s.initialized d) := by
  unfold Instance.initialized
  split
  · exact h
  rename_i doc hdoc
  split
  case h_2 => exact h
  rename_i map uid content blank hload
  have hinto : doc.load.into = some map := by rw [hload]; rfl
  obtain ⟨⟨hlt, howner⟩, hlive, -⟩ := h.aimed hdoc hinto
  have habsent := h.not_entered hdoc (by simp [hinto])
  have hput : Placed owner (s.put d { doc with load := .finished content, timer := doc.timer || !blank, users := [uid] }) :=
    h.put_absent hdoc habsent rfl
  -- what is in a map now was there, or is the new document
  have hentries {map' ino e : Nat}
      (hentry : (update s.maps map ((s.maps map).set doc.file.ino d) map').get? ino = some e) :
      (s.maps map').get? ino = some e ∨ (map' = map ∧ ino = doc.file.ino ∧ e = d) := by
    by_cases hmap : map' = map
    · subst hmap
      rw [update_self, get?_set] at hentry
      split_ifs at hentry with hino
      · cases hentry
        exact .inr ⟨rfl, hino, rfl⟩
      · exact .inl hentry
    · rw [update_of_ne hmap] at hentry
      exact .inl hentry
  refine ⟨hput.owned, hput.docs_lt, hput.aimed, ?_, ?_⟩
  · intro map' ino e hentry
    rcases hentries hentry with hold | ⟨rfl, rfl, rfl⟩
    · exact hput.entered hold
    · refine ⟨hlt, _, (objects_put e).trans (if_pos rfl), ?_, hlive, rfl, List.cons_ne_nil _ _⟩
      rw [howner]
  · intro map' map'' ino ino' e hentry hentry'
    rcases hentries hentry with hold | ⟨rfl, -, rfl⟩
    · rcases hentries hentry' with hold' | ⟨rfl, -, rfl⟩
      · exact h.single hold hold'
      · exact absurd hold (habsent _ _)
    · rcases hentries hentry' with hold' | ⟨rfl, -, -⟩
      · exact absurd hold' (habsent _ _)
      · rfl

end

theorem get?_maps_destroy {map : Nat} (hmap : s.docs.get? doc.file.uuid = some map) {map' ino e : Nat}
    (hafter : ((s.destroy d doc).maps map').get? ino = some e) :
    (s.maps map').get? ino = some e ∧ ¬(map' = map ∧ ino = doc.file.ino) := by
  have hmaps : (s.destroy d doc).maps = update s.maps map ((s.maps map).erase doc.file.ino) := by
    have hput : (s.put d { doc with users := [], destroyed := true }).docs.get? doc.file.uuid = some map := hmap
    simp only [destroy, hput]
    rfl
  rw [hmaps] at hafter
  by_cases hsame : map' = map
  · subst hsame
    rw [update_self, get?_erase] at hafter
    split_ifs at hafter with hino
    exact ⟨hafter, fun hboth => hino hboth.2⟩
  · rw [update_of_ne hsame] at hafter
    exact ⟨hafter, fun hboth => hsame hboth.1⟩

theorem Placed.destroy (h : Placed owner s) (hdoc : s.objects d = some doc)
    (hhere : s.here doc.file = some d) : Placed owner (s.destroy d doc) := by
  obtain ⟨map, hmap, hentry⟩ := here_eq_some.mp hhere
  obtain ⟨-, -, hload, -⟩ := h.found_at hhere hdoc
  refine ⟨h.owned, ?_, ?_, ?_, ?_⟩
  · intro e x hx
    rw [objects_destroy] at hx
    split_ifs at hx with he
    · rw [he]
      exact h.docs_lt hdoc
    · exact h.docs_lt hx
  · intro e x into hx hinto
    rw [objects_destroy] at hx
    split_ifs at hx with he
    · cases hx
      rw [show doc.load.into = some into from hinto] at hload
      cases hload
    · exact h.aimed hx hinto
  · intro map' ino e hafter
    obtain ⟨hold, hother⟩ := get?_maps_destroy hmap hafter
    obtain ⟨hlt, x, hx, hfile, hrest⟩ := h.entered hold
    have hne : e ≠ d := by
      rintro rfl
      cases hdoc.symm.trans hx
      exact hother ⟨h.single hold hentry, (congrArg File.ino hfile).symm⟩
    exact ⟨hlt, x, by rw [objects_destroy, if_neg hne, hx], hfile, hrest⟩
  · intro map' map'' ino ino' e hafter hafter'
    exact h.single (get?_maps_destroy hmap hafter).1 (get?_maps_destroy hmap hafter').1

theorem Placed.closeFile (h : Placed owner s) (uid : String) (file : File)
    (cached : Option (Option String)) : Placed owner (s.closeFile uid file cached) := by
  unfold Instance.closeFile
  split
  · exact h
  rename_i d doc hfound
  obtain ⟨hhere, hdoc⟩ := found_eq_some.mp hfound
  obtain ⟨hfile, -⟩ := h.found_at hhere hdoc
  split
  · exact h
  split
  · exact h.destroy hdoc (by rw [hfile, hhere])
  · rename_i hleft
    exact h.put hdoc rfl rfl rfl (fun _ => rfl) fun _ => hleft

theorem Placed.closed (h : Placed owner s) (i : Nat) : Placed owner (s.closed i) := by
  unfold Instance.closed
  split
  · exact h
  simp only
  split
  · exact h.congr rfl rfl rfl rfl id
  · split
    · refine h.congr rfl rfl rfl rfl fun hget => ?_
      rw [get?_erase] at hget
      split_ifs at hget
      exact hget
    · exact h.congr rfl rfl rfl rfl id

variable {label : Label U}

theorem Placed.inner (h : Placed owner s) (hinner : label.inner = true) : Placed owner (step s label) := by
  rcases inner_cases hinner s with hsame | ⟨d, doc, doc', files, hdoc, hafter, hkept⟩
  · rw [hsame]
    exact h
  · rw [hafter]
    have hput : Placed owner (s.put d doc') := by
      refine h.put hdoc hkept.file hkept.destroyed (congrArg Load.into hkept.load) (fun _ => hkept.conflicting) ?_
      rw [hkept.users]
      exact id
    exact hput.congr rfl rfl rfl rfl id

/-- Every step keeps the documents in their places. -/
theorem placed_step (h : Placed owner s) (label : Label U) : ∃ owner, Placed owner (step s label) := by
  cases label with
  | openFile uid file cached => exact h.openFile uid file cached
  | read d ok blank => exact ⟨owner, h.read d ok blank⟩
  | initialized d => exact ⟨owner, h.initialized d⟩
  | closeFile uid file cached => exact ⟨owner, h.closeFile uid file cached⟩
  | closed i => exact ⟨owner, h.closed i⟩
  | handleSync | fire | stat | write => exact ⟨owner, h.inner rfl⟩

/-- What an instance finds after a step it has found before, or the step has entered it. -/
theorem here_step (h : Placed owner s) (hafter : (step s label).here file = some d) :
    s.here file = some d ∨ label = .initialized d ∧ ∃ doc, s.objects d = some doc ∧ doc.file = file := by
  have hinner (hinner : label.inner = true) : s.here file = some d := by
    rcases inner_cases hinner s with hsame | ⟨e, doc, doc', files, -, hput, -⟩
    · rwa [hsame] at hafter
    · rw [hput] at hafter
      exact hafter
  cases label with
  | openFile uid other cached =>
    left
    simp only [step, openFile] at hafter
    split at hafter
    · exact hafter
    split at hafter
    · unfold join at hafter
      split at hafter <;> exact hafter
    · rw [← here_activeDocs (fun hmap => (h.owned hmap).1) other.uuid file]
      exact hafter
  | read e ok blank =>
    left
    simp only [step, Instance.read] at hafter
    split at hafter
    · exact hafter
    rename_i doc hdoc
    split at hafter
    · split at hafter
      · exact hafter
      · simp only [abandon] at hafter
        split at hafter
        · exact hafter
        split at hafter
        · obtain ⟨map, hmap, hentry⟩ := here_eq_some.mp hafter
          rw [get?_erase] at hmap
          split_ifs at hmap
          exact here_eq_some.mpr ⟨map, hmap, hentry⟩
        · exact hafter
    · exact hafter
  | initialized e =>
    simp only [step, initialized] at hafter ⊢
    split at hafter
    · exact .inl hafter
    rename_i doc hdoc
    split at hafter
    · rename_i map uid content blank hload
      obtain ⟨map', hmap', hentry⟩ := here_eq_some.mp hafter
      by_cases hsame : map' = map
      · subst hsame
        simp only [update_self, get?_set] at hentry
        split_ifs at hentry with hino
        · cases hentry
          have howner := (h.aimed hdoc (by rw [hload]; rfl)).1.2
          refine .inr ⟨rfl, doc, hdoc, ?_⟩
          rw [(h.owned hmap').2] at howner
          cases hfile : doc.file
          rw [hfile] at hino howner
          cases file
          simp_all
        · exact .inl (here_eq_some.mpr ⟨map', hmap', hentry⟩)
      · simp only [update_of_ne hsame] at hentry
        exact .inl (here_eq_some.mpr ⟨map', hmap', hentry⟩)
    · exact .inl hafter
  | closeFile uid other cached =>
    left
    simp only [step, closeFile] at hafter
    split at hafter
    · exact hafter
    rename_i e doc hfound
    obtain ⟨hhere, hdoc⟩ := found_eq_some.mp hfound
    split at hafter
    · exact hafter
    split at hafter
    · rw [← (h.found_at hhere hdoc).1] at hhere
      obtain ⟨own, hown, -⟩ := here_eq_some.mp hhere
      obtain ⟨map, hmap, hentry⟩ := here_eq_some.mp hafter
      exact here_eq_some.mpr ⟨map, hmap, (get?_maps_destroy hown hentry).1⟩
    · exact hafter
  | closed i => exact .inl (here_closed i file ▸ hafter)
  | handleSync | fire | stat | write => exact .inl (hinner rfl)

def Leaves (s : Instance U) (label : Label U) (d : Nat) (users : List String) (uid : String) : Prop :=
  ∃ file cached, label = .closeFile uid file cached ∧ s.responsible cached = true ∧ s.here file = some d ∧
    users.erase uid ≠ []

/-- What a step does to one document. -/
inductive Changes (s : Instance U) (d : Nat) (doc : WSSharedDoc U) : Label U → WSSharedDoc U → Prop
  | joined (uid : String) {file : File} {cached : Option (Option String)} (hresponsible : s.responsible cached = true)
      (hhere : s.here file = some d) :
      Changes s d doc (.openFile uid file cached)
        { doc with users := if uid ∈ doc.users then doc.users else doc.users ++ [uid] }
  | served {map : Nat} {uid : String} (blank : Bool) (hload : doc.load = .requested map uid) :
      Changes s d doc (.read d true blank) { doc with load := .served map uid (s.files doc.file) blank }
  | failed {map : Nat} {uid : String} (blank : Bool) (hload : doc.load = .requested map uid) :
      Changes s d doc (.read d false blank) { doc with load := .finished [], destroyed := true }
  | initialized {map : Nat} {uid : String} {content : List U} {blank : Bool}
      (hload : doc.load = .served map uid content blank) :
      Changes s d doc (.initialized d)
        { doc with load := .finished content, timer := doc.timer || !blank, users := [uid] }
  | edited {file : File} (update : U) (hhere : s.here file = some d) :
      Changes s d doc (.handleSync file (some update)) { doc with edits := doc.edits ++ [update], timer := true }
  | left {uid : String} {file : File} {cached : Option (Option String)} (hresponsible : s.responsible cached = true)
      (hhere : s.here file = some d) (huid : uid ∈ doc.users) (hothers : doc.users.erase uid ≠ []) :
      Changes s d doc (.closeFile uid file cached) { doc with users := doc.users.erase uid }
  | destroyed {uid : String} {file : File} {cached : Option (Option String)} (hresponsible : s.responsible cached = true)
      (hhere : s.here file = some d) (huid : uid ∈ doc.users) (hlast : doc.users.erase uid = []) :
      Changes s d doc (.closeFile uid file cached) { doc with users := [], destroyed := true }
  | fired (htimer : doc.timer = true) :
      Changes s d doc (.fire d) { doc with
        timer := false
        flushes := if doc.isDisplaced || doc.isConflicting then doc.flushes else doc.flushes ++ [none] }
  | taken {i : Nat} (hflush : doc.flushes[i]? = some none) :
      Changes s d doc (.stat d i true) { doc with flushes := doc.flushes.set i (some doc.text) }
  | displaced {i : Nat} (hflush : doc.flushes[i]? = some none) :
      Changes s d doc (.stat d i false) { doc with flushes := doc.flushes.eraseIdx i, isDisplaced := true }
  | written {i : Nat} {content : List U} (ok : Bool) (hflush : doc.flushes[i]? = some (some content)) :
      Changes s d doc (.write d i ok) { doc with flushes := doc.flushes.eraseIdx i }

theorem abandon_objects (d : Nat) (doc : WSSharedDoc U) (e : Nat) : (s.abandon d doc).objects e =
    if e = d then some { doc with load := .finished [], destroyed := true } else s.objects e := by
  simp only [abandon]
  split
  · exact objects_put e
  · split <;> exact objects_put e

/-- A step changes one document at most, or adds a new one. -/
theorem objects_cases (s : Instance U) (label : Label U) :
    (step s label).objects = s.objects ∨
    (∃ d doc doc', s.objects d = some doc ∧ Changes s d doc label doc' ∧
      ∀ e, (step s label).objects e = if e = d then some doc' else s.objects e) ∨
    ∃ file map uid, ∀ e, (step s label).objects e =
      if e = s.docCount then some (.new file map uid) else s.objects e := by
  cases label with
  | openFile uid file cached =>
    simp only [step, openFile]
    split
    · exact .inl rfl
    rename_i hresponsible
    cases hhere : s.here file with
    | some d =>
      cases hdoc : s.objects d with
      | none => exact .inl (by simp only [join, hdoc])
      | some doc =>
        simp only [join, hdoc]
        exact .inr (.inl ⟨d, doc, _, hdoc, .joined uid (by simpa using hresponsible) hhere, objects_put⟩)
    | none =>
      refine .inr (.inr ⟨file, (s.activeDocs file.uuid).1, uid, fun e => ?_⟩)
      refine (objects_put e).trans ?_
      rw [activeDocs_docCount, activeDocs_objects]
  | read d ok blank =>
    simp only [step, Instance.read]
    split
    · exact .inl rfl
    rename_i doc hdoc
    split
    · rename_i map uid hload
      cases ok with
      | true => exact .inr (.inl ⟨d, doc, _, hdoc, .served blank hload, objects_put⟩)
      | false => exact .inr (.inl ⟨d, doc, _, hdoc, .failed blank hload, abandon_objects d doc⟩)
    · exact .inl rfl
  | initialized d =>
    simp only [step, initialized]
    split
    · exact .inl rfl
    rename_i doc hdoc
    split
    · rename_i map uid content blank hload
      exact .inr (.inl ⟨d, doc, _, hdoc, .initialized hload, objects_put⟩)
    · exact .inl rfl
  | handleSync file update =>
    simp only [step, handleSync]
    split
    · rename_i d doc update hfound
      obtain ⟨hhere, hdoc⟩ := found_eq_some.mp hfound
      exact .inr (.inl ⟨d, doc, _, hdoc, .edited update hhere, objects_put⟩)
    · exact .inl rfl
  | closeFile uid file cached =>
    simp only [step, closeFile]
    split
    · exact .inl rfl
    rename_i d doc hfound
    obtain ⟨hhere, hdoc⟩ := found_eq_some.mp hfound
    split
    · exact .inl rfl
    rename_i hcloses
    simp only [Bool.or_eq_true, Bool.not_eq_true', decide_eq_true_eq, not_or, Bool.not_eq_false, not_not] at hcloses
    split
    · rename_i hlast
      exact .inr (.inl ⟨d, doc, _, hdoc, .destroyed hcloses.1 hhere hcloses.2 hlast, objects_put⟩)
    · rename_i hothers
      exact .inr (.inl ⟨d, doc, _, hdoc, .left hcloses.1 hhere hcloses.2 hothers, objects_put⟩)
  | closed i => exact .inl (closed_objects_files i).1
  | fire d =>
    simp only [step, fire]
    split
    · exact .inl rfl
    rename_i doc hdoc
    split
    · rename_i htimer
      exact .inr (.inl ⟨d, doc, _, hdoc, .fired htimer, objects_put⟩)
    · exact .inl rfl
  | stat d i ok =>
    simp only [step, stat]
    split
    · exact .inl rfl
    rename_i doc hdoc
    split
    · rename_i hflush
      cases ok with
      | true => exact .inr (.inl ⟨d, doc, _, hdoc, .taken hflush, objects_put⟩)
      | false => exact .inr (.inl ⟨d, doc, _, hdoc, .displaced hflush, objects_put⟩)
    · exact .inl rfl
  | write d i ok =>
    simp only [step, write]
    split
    · exact .inl rfl
    rename_i doc hdoc
    split
    · rename_i content hflush
      exact .inr (.inl ⟨d, doc, _, hdoc, .written ok hflush, objects_put⟩)
    · exact .inl rfl

theorem stays_or_leaves {uid other : String} {cached : Option (Option String)} {users : List String}
    (hresponsible : s.responsible cached = true) (hhere : s.here file = some d) (hothers : users.erase uid ≠ [])
    (hother : other ∈ users) : other ∈ users.erase uid ∨ Leaves s (.closeFile uid file cached) d users other := by
  by_cases hsame : other = uid
  · subst hsame
    exact .inr ⟨file, cached, rfl, hresponsible, hhere, hothers⟩
  · exact .inl ((List.mem_erase_of_ne hsame).mpr hother)

structure Alters (s : Instance U) (label : Label U) (d : Nat) (doc doc' : WSSharedDoc U) : Prop where
  conflicting : doc'.isConflicting = doc.isConflicting
  live : doc'.destroyed = false → doc.destroyed = false
  users : doc'.destroyed = false → doc.isConflicting = true → ∀ uid ∈ doc.users,
    uid ∈ doc'.users ∨ Leaves s label d doc.users uid

theorem Alters.of_users (hconflicting : doc'.isConflicting = doc.isConflicting)
    (hlive : doc'.destroyed = doc.destroyed) (husers : ∀ uid ∈ doc.users, uid ∈ doc'.users) :
    Alters s label d doc doc' :=
  ⟨hconflicting, fun h => hlive ▸ h, fun _ _ uid huid => .inl (husers uid huid)⟩

theorem Changes.alters (h : Placed owner s) (hdoc : s.objects d = some doc)
    (hchanges : Changes s d doc label doc') : Alters s label d doc doc' := by
  cases hchanges with
  | failed | destroyed => exact ⟨rfl, fun hlive => (by cases hlive), fun hlive => (by cases hlive)⟩
  | joined uid hresponsible hhere =>
    refine .of_users rfl rfl fun other hother => ?_
    split
    · exact hother
    · exact List.mem_append_left _ hother
  | initialized hload =>
    obtain ⟨-, hlive, hconflicting⟩ := h.aimed hdoc (by rw [hload]; rfl)
    refine ⟨rfl, fun _ => hlive, fun _ htrue => ?_⟩
    rw [hconflicting] at htrue
    cases htrue
  | left hresponsible hhere huid hothers =>
    exact ⟨rfl, id, fun _ _ other hother => stays_or_leaves hresponsible hhere hothers hother⟩
  | _ => exact .of_users rfl rfl fun _ => id

theorem isConflicting_step (h : Placed owner s) (hdoc : s.objects d = some doc) :
    ∃ doc', (step s label).objects d = some doc' ∧ doc'.isConflicting = doc.isConflicting := by
  rcases objects_cases s label with hsame | ⟨e, x, y, hx, hchanges, hobjects⟩ | ⟨file, map, uid, hobjects⟩
  · rw [hsame]
    exact ⟨doc, hdoc, rfl⟩
  · rw [hobjects]
    split_ifs with he
    · subst he
      cases hdoc.symm.trans hx
      exact ⟨y, rfl, (hchanges.alters h hx).conflicting⟩
    · exact ⟨doc, hdoc, rfl⟩
  · have hne : d ≠ s.docCount := Nat.ne_of_lt (h.docs_lt hdoc)
    rw [hobjects, if_neg hne]
    exact ⟨doc, hdoc, rfl⟩

theorem users_of_conflicting (h : Placed owner s)
    (hdoc' : (step s label).objects d = some doc') (hconflicting : doc'.isConflicting = true) :
    ∃ doc, s.objects d = some doc ∧ doc.isConflicting = true ∧ (doc'.destroyed = false → doc.destroyed = false ∧
      ∀ uid ∈ doc.users, uid ∈ doc'.users ∨ Leaves s label d doc.users uid) := by
  have hsame (hdoc : s.objects d = some doc') : ∃ doc, s.objects d = some doc ∧ doc.isConflicting = true ∧
      (doc'.destroyed = false → doc.destroyed = false ∧
        ∀ uid ∈ doc.users, uid ∈ doc'.users ∨ Leaves s label d doc.users uid) :=
    ⟨doc', hdoc, hconflicting, fun hlive => ⟨hlive, fun _ => .inl⟩⟩
  rcases objects_cases s label with hobjects | ⟨e, x, y, hx, hchanges, hobjects⟩ | ⟨file, map, uid, hobjects⟩
  · rw [hobjects] at hdoc'
    exact hsame hdoc'
  · rw [hobjects] at hdoc'
    split_ifs at hdoc' with he
    · subst he
      cases hdoc'
      have halters := hchanges.alters h hx
      rw [halters.conflicting] at hconflicting
      exact ⟨x, hx, hconflicting, fun hlive => ⟨halters.live hlive, halters.users hlive hconflicting⟩⟩
    · exact hsame hdoc'
  · rw [hobjects] at hdoc'
    split_ifs at hdoc' with he
    · cases hdoc'
      cases hconflicting
    · exact hsame hdoc'

end

end HideServer.Env.Sync
