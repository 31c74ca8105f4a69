import HideServer.Access.Spending
import HideServer.Async.Protocol

/-!
# One active code for each user

A request for a code counts the user's active codes first, and inserts the new one after a capacity
check and a mail. What it has counted holds until it inserts, as long as no code of the user becomes
active in between.
-/

namespace HideServer.Access

open Async Async.Prog Trace Db.Table

def AccessCode.active (row : AccessCode) : Bool := row.status = .unused || row.status = .new

variable (codes : Codes) (uid : String)

def Codes.NoneActive : Prop :=
  ∀ id row, codes.rows id = some row → row.uid = uid → row.active = false

/-- No user has two active codes. -/
def Codes.OneActive : Prop :=
  ∀ id id' row row', codes.rows id = some row → codes.rows id' = some row' → row.uid = row'.uid →
    row.active = true → row'.active = true → id = id'

def Codes.isActive (id : Nat) (uid : String) : Bool :=
  (codes.rows id).any fun row => row.uid = uid && row.active

def Call.inserts : Call → Option String
  | .insert row => some row.uid
  | _ => none

/-- No other request is about to insert a code of the user. -/
def OnlyInsert (requests : Requests) (i : Nat) (uid : String) : Prop :=
  ∀ j < requests.tasks.length, j ≠ i → (requests.next? j).bind (fun next => next.2.inserts) ≠ some uid

/-- What the call of a request has to find when it is executed: one that makes a code active, no other request that is about to
insert a code of the user, and if it is a code that was used or deleted, no active code of the user. -/
def Call.InTurn (requests : Requests) (i : Nat) : Call → Prop
  | .insert row => OnlyInsert requests i row.uid
  | .save id row =>
    requests.shared.isActive id row.uid = false → OnlyInsert requests i row.uid ∧ requests.shared.NoneActive row.uid
  | _ => True

/-- Every row comes in its turn. -/
def OneAtATime (requests : Requests) : Step → Prop
  | .resume i => ∀ next ∈ requests.next? i, next.2.InTurn requests i
  | _ => True

instance (codes : Codes) (uid : String) : Decidable (codes.NoneActive uid) :=
  decidable_of_iff (∀ id < codes.next, ∀ row ∈ codes.rows id, row.uid = uid → row.active = false)
    ⟨fun h id row hrow => h id (codes.lt_next hrow) row hrow, fun h id _ row hrow => h id row hrow⟩

instance (requests : Requests) (i : Nat) (uid : String) : Decidable (OnlyInsert requests i uid) :=
  inferInstanceAs (Decidable (∀ j < requests.tasks.length, j ≠ i → _ ≠ some uid))

instance (requests : Requests) (i : Nat) : ∀ call : Call, Decidable (call.InTurn requests i)
  | .insert row => inferInstanceAs (Decidable (OnlyInsert requests i row.uid))
  | .save _ row => inferInstanceAs (Decidable (_ = false → OnlyInsert requests i row.uid ∧ requests.shared.NoneActive row.uid))
  | .countActive _ | .findOne .. | .delete _ | .markUsed .. | .notify _ | .notificationRead .. => inferInstanceAs (Decidable True)

instance (requests : Requests) : ∀ action : Step, Decidable (OneAtATime requests action)
  | .resume i => inferInstanceAs (Decidable (∀ next ∈ requests.next? i, next.2.InTurn requests i))
  | .spawn _ | .outside _ => inferInstanceAs (Decidable True)

def counting : Protocol Call Call.Answer (Option String) where
  allowed counted call :=
    match counted, call with
    | some uid, .insert row => row.uid = uid ∧ row.status = .new
    | some _, _ => False
    | none, .insert _ => False
    | none, .save _ row => row.status = .unused
    | none, _ => True
  after _ call answer :=
    match call, answer with
    | .countActive uid, count => if count = 0 then some uid else none
    | _, _ => none

/-- What was counted still holds. -/
def counted (uid : Option String) (_ : Call) : Prop := ∀ user ∈ uid, codes.NoneActive user

theorem follows_createAccessRequest (uid uuid code : String) (expiresAt : Int) (canProvision mailed : Bool) :
    (createAccessRequest uid uuid code expiresAt canProvision mailed).Follows counting (fun _ _ => True) none := by
  refine .perform_bind trivial fun activeCount => ?_
  by_cases hcount : activeCount = 0
  · subst hcount
    cases canProvision <;> cases mailed <;> simp [counting, Follows]
  · simp [hcount, Follows]

def Call.Uncounted : Call → Prop
  | .countActive _ | .insert _ => False
  | .save _ row => row.status = .unused
  | _ => True

theorem uncounted_approve (token : AccessToken) (notificationId : String) (choice : Nat) :
    (approve token notificationId choice).Only Call.Uncounted := by
  refine .perform_bind trivial fun found => ?_
  cases found with
  | none => trivial
  | some row => simp [Call.Uncounted]

theorem uncounted_consumeAccessCode (code : Option String) (now : Int) (choice : Nat) :
    (consumeAccessCode uid code now choice).Only Call.Uncounted := by
  refine .perform_bind trivial fun found => ?_
  cases found with
  | none => trivial
  | some row => simp [Call.Uncounted]

theorem uncounted_resetAccessCode (code : Option String) (choice : Nat) :
    (resetAccessCode uid code choice).Only Call.Uncounted := by
  refine .perform_bind trivial fun found => ?_
  cases found with
  | none => trivial
  | some row => simp [Call.Uncounted]

theorem uncounted_deleteAccessCode (uuid ntfnId code : Option String) (choice : Nat) :
    (deleteAccessCode uid uuid ntfnId code choice).Only Call.Uncounted := by
  refine .perform_bind trivial fun found => ?_
  refine .perform_bind trivial fun _ => ?_
  split
  · simp [Call.Uncounted]
  · trivial

theorem follows_of_uncounted {p : Io (Except String Unit)} (hp : p.Only Call.Uncounted) :
    p.Follows counting (fun _ _ => True) none := by
  induction p with
  | ret value => trivial
  | await call next ih =>
    obtain ⟨hcall, hnext⟩ := hp
    cases call with
    | countActive uid | insert row => exact hcall.elim
    | save id row => exact ⟨hcall, fun answer => ih answer (hnext answer)⟩
    | _ => exact ⟨trivial, fun answer => ih answer (hnext answer)⟩

theorem follows_program (op : Op) : (program op).Follows counting (fun _ _ => True) none := by
  cases op with
  | create uid uuid code expiresAt canProvision mailed =>
    exact follows_createAccessRequest uid uuid code expiresAt canProvision mailed
  | fulfill action token notificationId choice =>
    apply follows_of_uncounted
    cases token with
    | none => cases action <;> trivial
    | some token =>
      cases action with
      | approve => exact uncounted_approve token notificationId choice
      | reject => exact ⟨trivial, fun _ => .single trivial⟩
  | consume uid code now choice => exact follows_of_uncounted (uncounted_consumeAccessCode uid code now choice)
  | reset uid code choice => exact follows_of_uncounted (uncounted_resetAccessCode uid code choice)
  | delete uid uuid ntfnId code choice => exact follows_of_uncounted (uncounted_deleteAccessCode uid uuid ntfnId code choice)

section

variable {codes : Codes} {uid : String}

theorem active_exec {call : Call} {id : Nat} {row : AccessCode}
    (hrow : (exec call codes).2.rows id = some row) (hactive : row.active = true) :
    (∃ before, codes.rows id = some before ∧ before.uid = row.uid ∧ before.active = true) ∨
      (id = codes.next ∧ call = .insert row) ∨ call = .save id row := by
  cases call with
  | countActive uid | findOne wheres choice | notify message | notificationRead uid ntfnId =>
    exact .inl ⟨row, hrow, rfl, hactive⟩
  | insert new =>
    simp only [exec] at hrow
    split at hrow
    · exact .inl ⟨row, hrow, rfl, hactive⟩
    · rw [rows_insert] at hrow
      split_ifs at hrow with hid
      · cases hrow
        exact .inr (.inl ⟨hid, rfl⟩)
      · exact .inl ⟨row, hrow, rfl, hactive⟩
  | save key saved =>
    simp only [exec] at hrow
    split at hrow
    · exact .inl ⟨row, hrow, rfl, hactive⟩
    · rw [rows_save] at hrow
      split_ifs at hrow with hid
      · cases hrow
        rw [hid]
        exact .inr (.inr rfl)
      · exact .inl ⟨row, hrow, rfl, hactive⟩
  | delete wheres => exact .inl ⟨row, of_rows_delete hrow, rfl, hactive⟩
  | markUsed user code =>
    obtain ⟨before, hbefore, rfl⟩ := Option.map_eq_some_iff.mp hrow
    split_ifs at hactive with hcode
    · simp [AccessCode.active] at hactive
    · exact .inl ⟨before, hbefore, by simp [hcode], hactive⟩

theorem noneActive_of_count (hcount : (exec (.countActive uid) codes).1 = 0) : codes.NoneActive uid := by
  intro id row hrow huid
  have hnone := count_eq_zero.mp hcount id row hrow
  simpa [AccessCode.active, huid] using hnone

end

structure Kept (requests : Requests) : Prop where
  one : requests.shared.OneActive
  heeds : requests.Heeds counting counted

section

variable {requests : Requests} {i : Nat} {op : Op} {call : Call}

theorem Kept.alone (h : Kept requests) (hcond : OneAtATime requests (.resume i))
    (hnext : requests.next? i = some (op, call)) {id : Nat} {row : AccessCode}
    (hmade : (id = requests.shared.next ∧ call = .insert row) ∨ call = .save id row) :
    ∀ id' row', requests.shared.rows id' = some row' → row'.uid = row.uid → row'.active = true → id' = id := by
  intro id' row' hrow' huid hactive
  rcases hmade with ⟨-, rfl⟩ | rfl
  · obtain ⟨user, hallowed, hcounted⟩ := h.heeds.next hnext
    cases user with
    | none => exact hallowed.elim
    | some user =>
      have hnone := hcounted user rfl id' row' hrow' (huid.trans hallowed.1)
      rw [hactive] at hnone
      cases hnone
  · cases hthere : requests.shared.isActive id row.uid with
    | false =>
      have hnone := (hcond _ hnext hthere).2 id' row' hrow' huid
      rw [hactive] at hnone
      cases hnone
    | true =>
      obtain ⟨before, hbefore, hsame⟩ := (Option.any_eq_true ..).mp hthere
      simp only [Bool.and_eq_true, decide_eq_true_eq] at hsame
      exact h.one id' id row' before hrow' hbefore (huid.trans hsame.1.symm) hactive hsame.2

theorem Kept.one_exec (h : Kept requests) (hcond : OneAtATime requests (.resume i))
    (hnext : requests.next? i = some (op, call)) : (exec call requests.shared).2.OneActive := by
  intro id id' row row' hrow hrow' huid hactive hactive'
  rcases active_exec hrow hactive with ⟨before, hbefore, hsame, hwas⟩ | hmade
  · rcases active_exec hrow' hactive' with ⟨before', hbefore', hsame', hwas'⟩ | hmade'
    · exact h.one id id' before before' hbefore hbefore' (hsame.trans (huid.trans hsame'.symm)) hwas hwas'
    · exact h.alone hcond hnext hmade' id before hbefore (hsame.trans huid) hwas
  · rcases active_exec hrow' hactive' with ⟨before', hbefore', hsame', hwas'⟩ | hmade'
    · exact (h.alone hcond hnext hmade id' before' hbefore' (hsame'.trans huid.symm) hwas').symm
    · rcases hmade with ⟨rfl, rfl⟩ | rfl <;> rcases hmade' with ⟨rfl, hcall⟩ | hcall <;> cases hcall <;> rfl

theorem noneActive_exec (hcond : OneAtATime requests (.resume i))
    (hnext : requests.next? i = some (op, call)) {j : Nat} {row : AccessCode} (hother : j ≠ i)
    (hlt : j < requests.tasks.length)
    (hinsert : (requests.next? j).bind (fun next => next.2.inserts) = some row.uid) (hnone : requests.shared.NoneActive row.uid) :
    (exec call requests.shared).2.NoneActive row.uid := by
  intro id found hfound huid
  by_contra hactive
  rcases active_exec hfound (by simpa using hactive) with ⟨before, hbefore, hsame, hwas⟩ | ⟨-, rfl⟩ | rfl
  · rw [hnone id before hbefore (hsame.trans huid)] at hwas
    cases hwas
  · exact hcond _ hnext j hlt hother (huid ▸ hinsert)
  · have hthere : requests.shared.isActive id found.uid = false := by
      unfold Codes.isActive
      cases hbefore : requests.shared.rows id with
      | none => rfl
      | some before =>
        by_cases hsame : before.uid = found.uid
        · simp [hnone id before hbefore (hsame.trans huid)]
        · simp [hsame]
    exact (hcond _ hnext hthere).1 j hlt hother (huid ▸ hinsert)

theorem kept_step {action : Step} (h : Kept requests) (hcond : OneAtATime requests action) : Kept (poolStep requests action) where
  one := by
    rcases Pool.step_shared_cases program exec noOutside requests action with hsame | ⟨i, op, call, rfl, hnext, hexec⟩ | ⟨a, -, -⟩
    · rw [poolStep, hsame]
      exact h.one
    · rw [poolStep, hexec]
      exact h.one_exec hcond hnext
    · exact a.elim
  heeds := by
    apply Pool.heeds_step h.heeds
    · intro op
      refine ⟨none, follows_program op, fun _ _ _ huser => ?_⟩
      cases huser
    · intro i op call _ _ _ _ _ _ user huser
      cases call with
      | countActive uid =>
        simp only [counting] at huser
        split_ifs at huser with hcount
        · cases huser
          exact noneActive_of_count hcount
        · cases huser
      | _ => cases huser
    · intro j task htask hother call hcall user hallowed hmeaning uid huid
      cases huid
      obtain ⟨row, rfl, huid⟩ : ∃ row, call = .insert row ∧ row.uid = uid := by
        cases call with
        | insert row => exact ⟨row, rfl, hallowed.1⟩
        | _ => exact hallowed.elim
      subst huid
      have hinsert : (requests.next? j).bind (fun next => next.2.inserts) = some row.uid := by
        rw [Pool.next?, htask, Option.bind_some, Option.mem_def.mp hcall]
        rfl
      rcases Pool.step_shared_cases program exec noOutside requests action with hsame | ⟨i, op, call, rfl, hnext, hexec⟩ | ⟨a, -, -⟩
      · rw [hsame]
        exact hmeaning row.uid rfl
      · rw [hexec]
        exact noneActive_exec hcond hnext (fun hij => hother (hij ▸ rfl)) (List.getElem?_eq_some_iff.mp htask).1 hinsert
          (hmeaning row.uid rfl)
      · exact a.elim

end

/-- No user ever has two active codes, if codes become active one at a time. -/
theorem oneActive_of_oneAtATime (codes : Codes) (hcodes : codes.OneActive) (actions : List Step)
    (hcond : Along poolStep OneAtATime ⟨codes, []⟩ actions) :
    Always poolStep (fun requests => requests.shared.OneActive) ⟨codes, []⟩ actions := by
  refine always_of_invariant (C := OneAtATime) (fun _ _ => kept_step) (fun _ h => h.one) ⟨hcodes, ?_⟩ hcond
  intro task htask
  cases htask

def consumedCode : List Step :=
  [.spawn (.create "alice" "u1" "c1" 1000 true true), .resume 0, .resume 0,
    .spawn (.fulfill .approve (some ⟨some "alice", some "u1"⟩) "n1" 0), .resume 1, .resume 1, .resume 1, .resume 1,
    .spawn (.consume "alice" (some "c1") 1 0), .resume 2, .resume 2]

theorem oneActive_reset :
    Always poolStep (fun requests => requests.shared.OneActive) ⟨.empty, []⟩
      (consumedCode ++ [.spawn (.reset "alice" (some "c1") 0), .resume 3, .resume 3]) :=
  oneActive_of_oneAtATime .empty (by simp [Codes.OneActive]) _ (by decide)

/-- Two requests count before either inserts; or a used code is reset after another has been requested. -/
theorem two_active :
    ¬Always poolStep (fun requests => requests.shared.OneActive) ⟨.empty, []⟩
        [.spawn (.create "alice" "u1" "c1" 1000 true true), .spawn (.create "alice" "u2" "c2" 1000 true true),
          .resume 0, .resume 1, .resume 0, .resume 1] ∧
      ¬Always poolStep (fun requests => requests.shared.OneActive) ⟨.empty, []⟩
        (consumedCode ++ [.spawn (.create "alice" "u2" "c2" 1000 true true), .resume 3, .resume 3,
          .spawn (.reset "alice" (some "c1") 0), .resume 4, .resume 4]) := by
  constructor
  · intro hone
    have hsame := hone.final 1 2 ⟨"c1", "alice", "u1", .new, none, 1000⟩ ⟨"c2", "alice", "u2", .new, none, 1000⟩
      (by decide) (by decide) rfl rfl rfl
    exact absurd hsame (by decide)
  · intro hone
    have hsame := hone.final 1 2 ⟨"c1", "alice", "u1", .unused, some "n1", 1000⟩ ⟨"c2", "alice", "u2", .new, none, 1000⟩
      (by decide) (by decide) rfl rfl rfl
    exact absurd hsame (by decide)

end HideServer.Access
