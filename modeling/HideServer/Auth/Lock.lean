import HideServer.Auth.SignIn

/-!
# The lock and the mailed PIN

Calls of one address, one after the other. A request for another PIN takes over the count of the
wrong ones, and writes its PIN also where it is refused and nothing is mailed.
-/

namespace HideServer.Auth

open Async Async.Prog Trace World

variable {email : String} {w : World} {record : CacheEmailSignIn} {count : Int32} {n : Nat}

theorem toInt_succ (h : count.toInt = n) (hn : n ≤ 3) : (count + 1).toInt = (n + 1 : Nat) := by
  have hone : (1 : Int32).toInt = 1 := rfl
  rw [Int32.toInt_add, h, hone, Int.bmod_eq_of_le] <;> omega

theorem maxAttemptCount_lt_iff (h : count.toInt = n) : maxAttemptCount < count ↔ 3 < n := by
  have hmax : maxAttemptCount.toInt = 3 := rfl
  rw [Int32.lt_iff_toInt_lt, h, hmax]
  omega

/-- A record is written. -/
def World.store (w : World) (record : CacheEmailSignIn) : World :=
  { w with cached := some record, compared := if w.cached.isSome then w.compared else [] }

/-- The record after a request for a PIN. -/
def World.requested (w : World) (pin : String) : CacheEmailSignIn :=
  let record := w.cached.getD ⟨0, 0, pin⟩
  { record with reqAttemptCount := record.reqAttemptCount + 1, pin := pin }

/-- The record after an attempt. -/
def CacheEmailSignIn.attempted (record : CacheEmailSignIn) : CacheEmailSignIn :=
  { record with verifyAttemptCount := record.verifyAttemptCount + 1 }

/-- Calls that leave the world alone. -/
def Call.Aside : Call → Prop
  | .getUserByEmail _ | .createUser _ | .createCustomToken .. => True
  | _ => False

/-- A request for a PIN is not refused. -/
def World.Accepts (w : World) (pin : String) : Prop :=
  ¬maxAttemptCount < (w.requested pin).verifyAttemptCount ∧ ¬maxAttemptCount < (w.requested pin).reqAttemptCount
  deriving Decidable

theorem run_cachedOrNew (pin : String) (w : World) :
    run exec (cachedOrNew pin w.cached.isSome) w = (some (w.cached.getD ⟨0, 0, pin⟩), w) := by
  obtain ⟨cached, compared, mailed⟩ := w
  cases cached <;> rfl

theorem step_register (hvalid : validateEmail email = true) (pin : String) (sent : Bool) (w : World) :
    step email w (.register pin sent) =
      if w.Accepts pin ∧ sent then { w.store (w.requested pin) with mailed := pin :: w.mailed }
      else w.store (w.requested pin) := by
  simp only [step, program, run_map, registerEmail, hvalid, Bool.not_true, Bool.false_eq_true, if_false, run_bind,
    run_perform, exec, run_cachedOrNew]
  by_cases hverify : maxAttemptCount < (w.requested pin).verifyAttemptCount
  · have hnot : ¬(w.Accepts pin ∧ sent = true) := fun h => h.1.1 hverify
    rw [if_neg hnot]
    exact congrArg (fun p => (run exec p w).2) (if_pos hverify)
  by_cases hrequest : maxAttemptCount < (w.requested pin).reqAttemptCount
  · have hnot : ¬(w.Accepts pin ∧ sent = true) := fun h => h.1.2 hrequest
    rw [if_neg hnot]
    exact congrArg (fun p => (run exec p w).2) ((if_neg hverify).trans (if_pos hrequest))
  refine (congrArg (fun p => (run exec p w).2) ((if_neg hverify).trans (if_neg hrequest))).trans ?_
  cases sent with
  | false => simp [exec, store, requested]
  | true =>
    have haccepts : w.Accepts pin := ⟨hverify, hrequest⟩
    simp [exec, store, requested, haccepts]

theorem aside_signIn (account : Account) : (signIn account).Only Call.Aside := by
  have htoken (uid : String) : (createCustomToken uid account.token).Only Call.Aside := by
    refine .perform_bind trivial fun token => ?_
    cases token <;> trivial
  refine .perform_bind trivial fun lookup => ?_
  cases lookup with
  | failed => trivial
  | found uid => exact htoken uid
  | notFound =>
    refine .perform_bind trivial fun created => ?_
    cases created with
    | none => trivial
    | some uid => exact htoken uid

theorem exec_aside {call : Call} (h : call.Aside) (w : World) : (exec call w).2 = w := by
  cases call with
  | getUserByEmail | createUser | createCustomToken => rfl
  | _ => cases h

theorem run_signIn (account : Account) (w : World) : (run exec (signIn account) w).2 = w := by
  have hexec : ∀ call w, Call.Aside call → id (exec call w).2 = id w := fun _ w h => exec_aside h w
  exact (aside_signIn account).run_eq hexec w

theorem step_verify (pin : Option String) (account : Account) (hcached : w.cached = some record) :
    step email w (.verify pin account) =
      if maxAttemptCount < record.verifyAttemptCount then w.store record
      else if pin = some record.pin then { w with cached := none, compared := true :: w.compared }
      else { w with cached := some record.attempted, compared := false :: w.compared } := by
  by_cases hlocked : maxAttemptCount < record.verifyAttemptCount
  · simp [step, program, verifyEmail, exec, hcached, hlocked, store]
  · by_cases hright : pin = some record.pin
    · simp [step, program, verifyEmail, exec, hcached, hlocked, hright, run_signIn]
    · simp [step, program, verifyEmail, exec, hcached, hlocked, hright, CacheEmailSignIn.attempted]

theorem step_verify_none (pin : Option String) (account : Account) (hcached : w.cached = none) :
    step email w (.verify pin account) = w := by
  simp [step, program, verifyEmail, exec, hcached]

/-- A record counts the wrong PINs that were compared since it is there. -/
def Counts (w : World) : Prop := ∀ record ∈ w.cached, record.verifyAttemptCount.toInt = w.compared.count false

def Call.Silent : Call → Prop
  | .compare .. | .sendPinEmail .. | .createUser _ | .createCustomToken .. => False
  | _ => True

/-- The call throws, and sends no email, compares no PIN, creates no token and leaves the count as it is. -/
def Refuses (email : String) (count : Int32) (w : World) (op : Op) : Prop :=
  (run exec (program email op) w).1.isOk = false ∧ (∀ call ∈ calls exec (program email op) w, call.2.Silent) ∧
    (step email w op).cached.map (·.verifyAttemptCount) = some count

theorem refuses_of_locked (op : Op) (hcached : w.cached = some record)
    (hlocked : maxAttemptCount < record.verifyAttemptCount) : Refuses email record.verifyAttemptCount w op := by
  cases op with
  | register pin sent =>
    cases hvalid : validateEmail email with
    | false => simp [Refuses, step, program, registerEmail, hvalid, hcached, Except.map, Except.isOk, Except.toBool]
    | true =>
      simp [Refuses, step, program, registerEmail, cachedOrNew, hvalid, hcached, hlocked, exec, Except.map, Except.isOk,
        Except.toBool, Call.Silent]
  | verify pin account =>
    simp [Refuses, step, program, verifyEmail, hcached, hlocked, exec, Except.map, Except.isOk, Except.toBool, Call.Silent]

/-- The count is right, and at most four wrong PINs were compared. -/
def Counted (w : World) : Prop := Counts w ∧ (w.cached.isSome → w.compared.count false ≤ 4)

theorem Counted.store (h : Counted w) (hsame : record.verifyAttemptCount = (w.cached.map (·.verifyAttemptCount)).getD 0) :
    Counted (w.store record) := by
  unfold Counted Counts World.store
  cases hcached : w.cached with
  | none => simp_all
  | some old =>
    simp_all [Counted, Counts]

theorem Counted.step (h : Counted w) (op : Op) : Counted (step email w op) := by
  cases op with
  | register pin sent =>
    cases hvalid : validateEmail email with
    | false => simpa [Auth.step, program, registerEmail, cachedOrNew, hvalid] using h
    | true =>
      have hstored : Counted (w.store (w.requested pin)) := by
        apply h.store
        unfold requested
        cases w.cached <;> rfl
      rw [step_register hvalid]
      split_ifs <;> exact hstored
  | verify pin account =>
    cases hcached : w.cached with
    | none =>
      rw [step_verify_none pin account hcached]
      exact h
    | some record =>
      rw [step_verify pin account hcached]
      have hcount := h.1 record hcached
      split_ifs with hlocked hright
      · exact h.store (by simp [hcached])
      · exact ⟨nofun, nofun⟩
      · rw [maxAttemptCount_lt_iff hcount] at hlocked
        refine ⟨?_, fun _ => ?_⟩
        · rintro _ ⟨⟩
          rw [CacheEmailSignIn.attempted, toInt_succ hcount (by omega), List.count_cons_self]
        · rw [List.count_cons_self]
          omega

/-- A record that is locked stays locked, whichever calls follow. -/
theorem lockout (email : String) (ops : List Op) :
    Always (step email) Counts .empty ops ∧
      ∀ done later, ops = done ++ later → ∀ record ∈ (run (step email) .empty done).cached,
        maxAttemptCount < record.verifyAttemptCount →
          Along (step email) (Refuses email record.verifyAttemptCount) (run (step email) .empty done) later := by
  have hstep (w : World) (op : Op) (h : Counted w) (_ : True) : Counted (step email w op) := h.step op
  refine ⟨?_, fun done later _ record hcached hlocked => ?_⟩
  · exact always_of_invariant hstep (fun w h => h.1) ⟨nofun, nofun⟩ (along_of_forall fun _ _ => trivial)
  · have hlock (w : World) (op : Op) (h : w.cached.map (·.verifyAttemptCount) = some record.verifyAttemptCount) :
        Refuses email record.verifyAttemptCount w op := by
      obtain ⟨found, hfound, hsame⟩ := Option.map_eq_some_iff.mp h
      rw [← hsame] at hlocked ⊢
      exact refuses_of_locked op hfound hlocked
    refine along_of_invariant (C := fun _ _ => True) (fun w op h _ => (hlock w op h).2.2) (fun w op h _ => hlock w op h)
      (by rw [hcached]; rfl) (along_of_forall fun _ _ => trivial)

def StoredIsMailed (w : World) : Prop := ∀ record ∈ w.cached, w.mailed.head? = some record.pin

/-- A request that is refused, or whose mail is not sent, draws the PIN that was mailed last. -/
def DrawsMailed (email : String) (w : World) : Op → Prop
  | .register pin sent => validateEmail email = true → ¬(w.Accepts pin ∧ sent) → w.mailed.head? = some pin
  | .verify .. => True

theorem storedIsMailed_step_iff (h : StoredIsMailed w) (op : Op) :
    StoredIsMailed (step email w op) ↔ DrawsMailed email w op := by
  cases op with
  | register pin sent =>
    cases hvalid : validateEmail email with
    | false =>
      have hsame : step email w (.register pin sent) = w := by simp [Auth.step, program, registerEmail, hvalid]
      simp [hsame, DrawsMailed, hvalid, h]
    | true =>
      rw [step_register hvalid]
      split_ifs with hsent <;> simp [StoredIsMailed, DrawsMailed, store, requested, hvalid, hsent]
  | verify pin account =>
    refine iff_of_true ?_ trivial
    cases hcached : w.cached with
    | none =>
      rw [step_verify_none pin account hcached]
      exact h
    | some record =>
      rw [step_verify pin account hcached]
      have hpin := h record hcached
      split_ifs <;> simp [StoredIsMailed, store, CacheEmailSignIn.attempted, hpin]

theorem storedIsMailed_iff (email : String) (ops : List Op) :
    Always (step email) StoredIsMailed .empty ops ↔ Along (step email) (DrawsMailed email) .empty ops := by
  have hempty : StoredIsMailed .empty := nofun
  rw [always_iff, and_iff_right hempty]
  exact along_iff_of_invariant (fun w op h hdraws => (storedIsMailed_step_iff h op).mpr hdraws)
    (fun w op h => storedIsMailed_step_iff h op) hempty

/-- The fourth request is refused, and its PIN stored. -/
theorem refused_request_overwrites :
    ¬Always (step "a@b.io") StoredIsMailed .empty
      [.register "PIN01" true, .register "PIN02" true, .register "PIN03" true, .register "PIN04" true] := by
  intro h
  exact absurd (h.final _ rfl) (by decide)

end HideServer.Auth
