import HideServer.Env.Moves

/-!
# Who resolves a conflict

Only one user of the document is asked to end its conflict. When they close the file nobody takes their
place, and `handleConflictResolve` does not ask who sent the message.
-/

namespace HideServer.Env.Site

open Async Cache Sync Trace

variable {U : Type}

/-- Every document in conflict has its resolver among its users. -/
def Resolvable (s : State U) : Prop :=
  ∀ i file d doc, s.doc i file = some (d, doc) → doc.isConflicting = true → s.conflictResolver i d ∈ doc.users

def Op.sender : Op → Option String
  | .resolve _ uid _ _ _ => some uid
  | .sync _ _ => none

def EndedByResolver (c : Setting U) (service : Service U) (act : Act U) : Prop :=
  ∀ i d doc doc', (service.shared.fleet i).objects d = some doc → doc.isConflicting = true →
    ((step c service act).shared.fleet i).objects d = some doc' → doc'.isConflicting = false →
    ∃ k op command, act = .resume k ∧ service.next? k = some (op, command) ∧
      op.sender = some (service.shared.conflictResolver i d)

/-- Only the resolver ends the conflict. -/
def Rightful (s : State U) (op : Op) : Command U → Prop
  | .clear me d =>
    ∀ doc ∈ (s.fleet me).objects d, doc.isConflicting = true → op.sender = some (s.conflictResolver me d)
  | _ => True

def InHand (service : Service U) : Act U → Prop
  -- the resolver of a conflict closes the file only as its last user
  | .outside (.step i (.closeFile uid file cached)) =>
    (service.shared.fleet i).responsible cached = true → ∀ found ∈ service.shared.doc i file,
      found.2.isConflicting = true → service.shared.conflictResolver i found.1 = uid → found.2.users.erase uid = []
  | .resume k => ∀ next ∈ service.next? k, Rightful service.shared next.1 next.2
  | _ => True

/-- Every conflicting document has its resolver among its users. -/
structure Kept (s : State U) : Prop where
  standing : Standing s
  resolved : ∀ {i d doc}, (s.fleet i).objects d = some doc → doc.destroyed = false → doc.isConflicting = true →
    s.conflictResolver i d ∈ doc.users

section

variable {s s' : State U} {i : InstanceId} {d : Nat} {doc doc' : WSSharedDoc U}

theorem kept_start (world : World) (files : File → List U) : Kept (.start world files) where
  standing := standing_start world files
  resolved h := nomatch h

theorem Kept.resolvable (h : Kept s) : Resolvable s := by
  intro i file d doc hfound hconflicting
  exact h.resolved (doc_eq_some.mp hfound).2 (h.standing.found hfound).2.1 hconflicting

theorem Kept.congr (h : Kept s) (hstanding : Standing s') (hobjects : ∀ i, (s'.fleet i).objects = (s.fleet i).objects)
    (hresolver : s'.conflictResolver = s.conflictResolver) : Kept s' := by
  refine ⟨hstanding, fun {i d doc} hdoc => ?_⟩
  rw [hobjects] at hdoc
  rw [hresolver]
  exact h.resolved hdoc

theorem setResolver_self : s.setResolver i d (s.conflictResolver i d) = s := by
  unfold State.setResolver
  rw [Function.update_eq_self, Function.update_eq_self]

theorem Kept.change (h : Kept s) {uid : String} (hstanding : Standing ((s.put i d doc').setResolver i d uid))
    (hresolver : doc'.destroyed = false → doc'.isConflicting = true → uid ∈ doc'.users) :
    Kept ((s.put i d doc').setResolver i d uid) := by
  refine ⟨hstanding, fun {j e x} hx hlive hconflicting => ?_⟩
  replace hx : ((s.put i d doc').fleet j).objects e = some x := hx
  rw [objects_fleet_put] at hx
  by_cases hj : j = i
  · subst hj
    by_cases he : e = d
    · subst he
      simp only [and_self, if_true] at hx
      cases hx
      simpa [State.setResolver] using hresolver hlive hconflicting
    · rw [if_neg fun hboth => he hboth.2] at hx
      simpa [State.setResolver, he, State.put] using h.resolved hx hlive hconflicting
  · rw [if_neg fun hboth => hj hboth.1] at hx
    simpa [State.setResolver, hj, State.put] using h.resolved hx hlive hconflicting

theorem kept_exec (h : Kept s) (c : Setting U) (command : Command U) : Kept (exec c command s).2 := by
  have hstanding := standing_exec h.standing c command
  cases command with
  | mark me ino =>
    simp only [exec] at hstanding ⊢
    split at hstanding
    · exact h
    · rename_i d doc hfound
      obtain ⟨-, -, -, husers⟩ := h.standing.found hfound
      obtain ⟨uid, huid, hpick⟩ := pickOne_mem s.chance.draw husers
      refine h.change hstanding fun _ _ => ?_
      rw [hpick]
      exact huid
  | replace me d content =>
    simp only [exec] at hstanding ⊢
    split at hstanding
    · exact h
    · rename_i doc hdoc
      have hself {doc'} : s.put me d doc' = (s.put me d doc').setResolver me d (s.conflictResolver me d) :=
        (setResolver_self (s := s.put me d doc')).symm
      rw [hself] at hstanding ⊢
      have hresolver : doc.destroyed = false → doc.isConflicting = true → s.conflictResolver me d ∈ doc.users :=
        h.resolved hdoc
      exact h.change hstanding hresolver
  | clear me d =>
    simp only [exec] at hstanding ⊢
    split at hstanding
    · exact h
    · exact h.change hstanding (by simp)
  | setFileContent | fetchContent =>
    apply h.congr hstanding
    · intro i
      simp only [exec]
      split <;> rfl
    · simp only [exec]
      split <;> rfl
  | _ => exact h

theorem kept_act (h : Kept s) {label : Sync.Label U}
    (hstays : ∀ uid file cached, label = .closeFile uid file cached → (s.fleet i).responsible cached = true →
      ∀ found ∈ s.doc i file, found.2.isConflicting = true → s.conflictResolver i found.1 = uid →
        found.2.users.erase uid = []) :
    Kept (s.act i label) := by
  refine ⟨standing_act h.standing i label, fun {j e doc'} hdoc' hlive hconflicting => ?_⟩
  rw [(act_fleet i label).2]
  rw [objects_act] at hdoc'
  split_ifs at hdoc' with hj
  · subst hj
    obtain ⟨owner, hplaced⟩ := h.standing j
    obtain ⟨doc, hdoc, hbefore, hold⟩ := users_of_conflicting hplaced hdoc' hconflicting
    obtain ⟨holdLive, husers⟩ := hold hlive
    rcases husers _ (h.resolved hdoc holdLive hbefore) with hstill | ⟨file, cached, hlabel, hresponsible, hhere, hothers⟩
    · exact hstill
    · have hlast := hstays _ file cached hlabel hresponsible (e, doc) (doc_eq_some.mpr ⟨hhere, hdoc⟩) hbefore rfl
      exact absurd hlast hothers
  · exact h.resolved hdoc' hlive hconflicting

end

section

variable {service : Service U} {c : Setting U}

theorem kept_outside {s : State U} (h : Kept s) (a : Outside U)
    (hstays : ∀ i uid file cached, a = .step i (.closeFile uid file cached) → (s.fleet i).responsible cached = true →
      ∀ found ∈ s.doc i file, found.2.isConflicting = true → s.conflictResolver i found.1 = uid →
        found.2.users.erase uid = []) :
    Kept (outside s a) := by
  have hstanding := standing_outside h.standing a
  cases a with
  | step i label =>
    refine kept_act h fun uid file cached hlabel => ?_
    exact hstays i uid file cached (by rw [hlabel])
  | awareness i uid file added removed =>
    simp only [outside]
    split
    · exact h
    · exact h.congr h.standing (fun _ => rfl) rfl
  | _ => exact h.congr hstanding (fun _ => rfl) rfl

theorem kept_step (h : Kept service.shared) {act : Act U} (hinHand : InHand service act) :
    Kept (step c service act).shared := by
  rcases step_shared c service act with hsame | ⟨k, op, command, -, -, hexec⟩ | ⟨a, rfl, houtside⟩
  · rw [hsame]
    exact h
  · rw [hexec]
    exact kept_exec h c command
  · refine kept_outside h a fun i uid file cached ha => ?_
    subst ha
    exact hinHand

theorem endedByResolver_of_inHand (h : Standing service.shared) {act : Act U}
    (hinHand : InHand service act) : EndedByResolver c service act := by
  intro i d doc doc' hdoc hbefore hdoc' hafter
  have hunchanged (hsame : ∃ same, ((step c service act).shared.fleet i).objects d = some same ∧
      same.isConflicting = doc.isConflicting) : False := by
    obtain ⟨same, hsame, hflag⟩ := hsame
    cases hdoc'.symm.trans hsame
    simp [hflag, hbefore] at hafter
  rcases step_shared c service act with hsame | ⟨k, op, command, rfl, hnext, hexec⟩ | ⟨a, rfl, houtside⟩
  · rw [hsame] at hunchanged
    exact (hunchanged ⟨doc, hdoc, rfl⟩).elim
  · rw [hexec] at hdoc'
    have hclear := eq_clear_of_ended hdoc hbefore hdoc' hafter
    subst hclear
    exact ⟨k, op, _, rfl, hnext, hinHand (op, .clear i d) hnext doc hdoc hbefore⟩
  · exact (hunchanged (isConflicting_outside h a hdoc)).elim

end

/-- In a run where the resolver of a conflict leaves last, and nobody else ends it, every conflict has a resolver
among the users and is ended by them. -/
theorem resolvable_of_inHand {c : Setting U} {world : World} {files : File → List U}
    {acts : List (Act U)} (hrun : Along (step c) InHand (start world files) acts) :
    Always (step c) (fun service => Resolvable service.shared) (start world files) acts ∧
      Along (step c) (EndedByResolver c) (start world files) acts := by
  have hstep (service : Service U) (act : Act U) : Kept service.shared → InHand service act →
      Kept (step c service act).shared := fun h hinHand => kept_step h hinHand
  have hstart : Kept (start world files : Service U).shared := kept_start world files
  constructor
  · exact always_of_invariant hstep (fun _ h => h.resolvable) hstart hrun
  · exact along_of_invariant hstep (fun _ _ h hinHand => endedByResolver_of_inHand h.standing hinHand) hstart hrun

instance (s : State U) (op : Op) : (command : Command U) → Decidable (Rightful s op command)
  | .clear me d => by dsimp only [Rightful]; infer_instance
  | .getWorkspace | .getPresence .. | .emit .. | .computeHash .. | .requestHash .. | .fetchHash .. | .mark .. | .find ..
  | .setFileContent .. | .fetchContent .. | .replace .. => .isTrue trivial

instance (service : Service U) : (act : Act U) → Decidable (InHand service act)
  | .resume k => by dsimp only [InHand]; infer_instance
  | .outside (.step i (.closeFile uid file cached)) => by dsimp only [InHand]; infer_instance
  | .outside (.step _ (.openFile ..)) | .outside (.step _ (.read ..)) | .outside (.step _ (.initialized ..))
  | .outside (.step _ (.handleSync ..)) | .outside (.step _ (.closed ..)) | .outside (.step _ (.fire ..))
  | .outside (.step _ (.stat ..)) | .outside (.step _ (.write ..)) | .outside (.awareness ..) | .outside (.write ..)
  | .outside (.world ..) | .outside (.chance ..) | .spawn .. => .isTrue trivial

/-- Somebody else writes the file that Alice and Bob have open. -/
def conflict : List (Act Nat) :=
  [.outside (.step e1 (.openFile "alice" notes (some none))), .outside (.step e1 (.read 0 true true)),
    .outside (.step e1 (.initialized 0)), .outside (.world (noted e1 .empty)),
    .outside (.step e1 (.openFile "bob" notes (some (some "e1")))), .outside (.write notes [5]),
    .spawn (.sync e1 [written]), .resume 0, .resume 0, .resume 0, .resume 0]

def ended : List (Act Nat) :=
  conflict ++ [.spawn (.resolve e1 "alice" "s1" 7 .keep), .resume 1, .resume 1, .resume 1,
    .outside (.step e1 (.closeFile "alice" notes (some (some "e1"))))]

theorem resolvable_ended :
    Always (step w1) (fun service => Resolvable service.shared) (start .empty fun _ => []) ended ∧
      Along (step w1) (EndedByResolver w1) (start .empty fun _ => []) ended :=
  resolvable_of_inHand (by decide +kernel)

def deserted : List (Act Nat) :=
  conflict ++ [.outside (.step e1 (.closeFile "alice" notes (some (some "e1"))))]

def usurped : List (Act Nat) :=
  conflict ++ [.spawn (.resolve e1 "bob" "s2" 7 .keep), .resume 1, .resume 1, .resume 1]

/-- Without Alice the document stays in conflict, and its resolver is not one of its users; and Bob's message is as
good as one of the resolver. -/
theorem unresolvable_deserted :
    ¬Always (step w1) (fun service => Resolvable service.shared) (start .empty fun _ => []) deserted ∧
      ¬Along (step w1) (EndedByResolver w1) (start .empty fun _ => []) usurped := by
  constructor
  · intro halways
    have hresolver := halways.final e1 notes 0 _ (by rfl) (by rfl)
    exact absurd hresolver (by decide +kernel)
  · intro hended
    have hlast : EndedByResolver w1 (run (step w1) (start .empty fun _ => []) (usurped.take 14)) (.resume 1) :=
      ((along_append (step w1) (EndedByResolver w1) _ (usurped.take 14) [.resume 1]).mp hended).2.1
    obtain ⟨k, op, command, hk, hnext, hsender⟩ := hlast e1 0 _ _ (by rfl) (by rfl) (by rfl) (by rfl)
    cases hk
    cases hnext
    exact absurd hsender (by decide +kernel)

end HideServer.Env.Site
