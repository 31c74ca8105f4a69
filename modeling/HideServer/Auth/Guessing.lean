import HideServer.Async.Rely
import HideServer.Auth.Lock

/-!
# Guessing a PIN

Calls of one address, interleaved at every command, with the record expiring at any time. The limit
is tested before the count goes up, and calls that overlap read the same count.
-/

namespace HideServer.Auth

open Async Trace

variable {record : CacheEmailSignIn} {count : Int32}

abbrev State := Watched World Unit Op Call Call.Answer (Except String (Option String))

abbrev Step := Action Op Unit

/-- The record is gone. -/
def expire (w : World) (_ : Unit) : World := { w with cached := none }

def observer : Observer World Unit Op Unit Call := ⟨fun _ _ _ _ => (), fun _ _ _ => ()⟩

def interleave (email : String) : State → Step → State := Watched.step (program email) exec expire observer

def start : State := ⟨⟨.empty, []⟩, ()⟩

def Call.compares : Call → Bool
  | .compare .. => true
  | _ => false

def Op.verifies : Op → Bool
  | .register .. => false
  | .verify .. => true

/-- Where a PIN is compared while there is a record, fewer than the limit were before. -/
def Bounded (w : World) (call : Call) : Prop :=
  call.compares → w.cached.isSome → (w.compared.length : Int) < maxAttemptCount.toInt

def GuessesBounded (s : State) : Step → Prop
  | .resume i => ∀ next ∈ s.pool.next? i, Bounded s.pool.shared next.2
  | _ => True

/-- A call starts when the others have ended, and no PIN is submitted when the count is at the limit. -/
def InTurn (s : State) : Step → Prop
  | .spawn op => (∀ task ∈ s.pool.tasks, task.prog.head? = none) ∧
    (op.verifies → ∀ record ∈ s.pool.shared.cached, record.verifyAttemptCount ≠ maxAttemptCount)
  | _ => True

instance (s : State) (label : Step) : Decidable (GuessesBounded s label) := by
  cases label <;> unfold GuessesBounded Bounded <;> infer_instance

instance (s : State) (label : Step) : Decidable (InTurn s label) := by
  cases label <;> unfold InTurn <;> infer_instance

abbrev Scene := World × Unit

/-- Others leave the world alone, or the record expires. -/
def Rely (scene scene' : Scene) : Prop := scene'.1 = scene.1 ∨ scene'.1 = expire scene.1 ()

def Guar (scene : Scene) (call : Call) : Prop := Bounded scene.1 call

theorem guar_of_other {call : Call} {scene : Scene} (h : call.compares = false) : Guar scene call := by
  intro hcompares
  rw [h] at hcompares
  cases hcompares

/-- No more comparisons than the count says. -/
def Tally (count : Int) (scene : Scene) : Prop :=
  0 ≤ count ∧ count ≤ 3 ∧ (scene.1.cached.isSome → scene.1.compared.length ≤ count)

/-- The count in the record is right. -/
def Tallied (scene : Scene) : Prop := ∀ record ∈ scene.1.cached, Tally record.verifyAttemptCount.toInt scene

/-- The record is not locked. -/
def Open (scene : Scene) : Prop := ∀ record ∈ scene.1.cached, record.verifyAttemptCount ≠ maxAttemptCount

theorem stable_tally (count : Int) : Prog.Stable Rely (Tally count) := by
  rintro scene scene' (hsame | hexpired) ⟨hlow, hhigh, h⟩
  · exact ⟨hlow, hhigh, by rwa [hsame]⟩
  · exact ⟨hlow, hhigh, by rw [hexpired]; nofun⟩

theorem stable_of_record {P : Scene → CacheEmailSignIn → Prop}
    (hP : ∀ scene scene' record, Rely scene scene' → P scene record → P scene' record) :
    Prog.Stable Rely fun scene => ∀ record ∈ scene.1.cached, P scene record := by
  rintro scene scene' hrely h record hrecord
  refine hP scene scene' record hrely ?_
  rcases hrely with hsame | hexpired
  · exact h record (hsame ▸ hrecord)
  · rw [hexpired] at hrecord
    cases hrecord

theorem stable_tallied : Prog.Stable Rely Tallied :=
  stable_of_record fun scene scene' _ hrely h => stable_tally _ scene scene' hrely h

theorem stable_open : Prog.Stable Rely Open := stable_of_record fun _ _ _ _ h => h

abbrev Under {α : Type} (op : Op) (pre : Scene → Prop) (p : Io α) (post : α → Scene → Prop) : Prop :=
  Prog.Under (Watched.execute exec observer op) Rely Guar pre p post

theorem rely_refl (scene : Scene) : Rely scene scene := .inl rfl

variable (op : Op)

theorem tallied_set {scene : Scene} (h : Tally record.verifyAttemptCount.toInt scene) (ttlSeconds : Nat) :
    Tallied (Watched.execute exec observer op (.set record ttlSeconds) scene).2 := by
  obtain ⟨hlow, hhigh, hcompared⟩ := h
  rintro _ ⟨⟩
  refine ⟨hlow, hhigh, fun _ => ?_⟩
  simp only [Watched.execute, exec]
  split_ifs with hsome
  · exact hcompared hsome
  · exact hlow

theorem under_set {α : Type} (hcount : record.verifyAttemptCount = count) (ttlSeconds : Nat) {p : Io α}
    (hp : Under op Tallied p fun _ => Tallied) :
    Under op (Tally count.toInt) (ask (.set record ttlSeconds) >>= fun _ => p) fun _ => Tallied := by
  subst hcount
  refine .bind rely_refl ?_ fun _ => hp
  exact .perform (stable_tally _) (fun _ => stable_tallied) fun scene h => ⟨guar_of_other rfl, tallied_set op h ttlSeconds⟩

theorem under_ret {α : Type} (value : α) : Under op Tallied (.ret value) fun _ => Tallied :=
  .ret stable_tallied fun _ h => h

/-- What was read is still right. -/
def Read (cached : Option CacheEmailSignIn) (scene : Scene) : Prop :=
  Tallied scene ∧ ∀ record ∈ cached, Tally record.verifyAttemptCount.toInt scene

theorem stable_read (cached : Option CacheEmailSignIn) : Prog.Stable Rely (Read cached) :=
  fun scene scene' hrely h => ⟨stable_tallied scene scene' hrely h.1, fun record hrecord =>
    stable_tally _ scene scene' hrely (h.2 record hrecord)⟩

theorem under_cachedOrNew (pin : String) (found : Bool) :
    Under op (fun scene => Tallied scene ∧ (found = false → scene.1.cached = none)) (cachedOrNew pin found) Read := by
  cases found with
  | true =>
    refine .consequence (.perform stable_tallied stable_read fun scene h => ⟨guar_of_other rfl, h, h⟩) fun scene h => h.1
  | false =>
    refine .ret (stable_read _) fun scene ⟨h, hnone⟩ => ⟨h, ?_⟩
    rintro _ ⟨⟩
    show Tally (0 : Int32).toInt scene
    exact ⟨by decide, by decide, fun hsome => by simp [hnone rfl] at hsome⟩

theorem under_registerEmail (email pin : String) (sent : Bool) :
    Under op Tallied (registerEmail email pin sent) fun _ => Tallied := by
  refine .ite (fun _ => under_ret op _) fun _ => ?_
  have hfound : Under op Tallied (ask .hasKey) fun found scene =>
      Tallied scene ∧ (found = false → scene.1.cached = none) := by
    refine .perform stable_tallied (fun found => stable_tallied.and ?_) fun scene h => ⟨guar_of_other rfl, h, ?_⟩
    · rintro scene scene' (hsame | hexpired) h hfound
      · rw [hsame]
        exact h hfound
      · rw [hexpired]
        rfl
    · exact fun hfound => by simpa [Watched.execute, exec] using hfound
  refine hfound.bind rely_refl fun found => (under_cachedOrNew op pin found).bind rely_refl fun cached => ?_
  cases cached with
  | none => exact .consequence (under_ret op _) fun _ h => h.1
  | some record =>
    refine .consequence ?_ fun scene h => h.2 record rfl
    have hmail : Under op Tallied (do
        let ok : Bool ← ask (.sendPinEmail pin sent)
        return if ok then Except.ok () else Except.error "MessagingException") fun _ => Tallied := by
      refine .bind rely_refl ?_ fun _ => under_ret op _
      refine .perform stable_tallied (fun _ => stable_tallied) fun scene h => ⟨guar_of_other rfl, ?_⟩
      cases sent <;> exact h
    refine .ite (fun _ => under_set op (by rfl) _ (under_ret op _)) fun _ => ?_
    exact .ite (fun _ => under_set op (by rfl) _ (under_ret op _)) fun _ => under_set op (by rfl) _ hmail

theorem under_compare (hopen : record.verifyAttemptCount ≠ maxAttemptCount) (pin : Option String) :
    Under op (Tally record.verifyAttemptCount.toInt) (ask (.compare record.pin pin)) fun _ =>
      Tally record.attempted.verifyAttemptCount.toInt := by
  refine .perform (stable_tally _) (fun _ => stable_tally _) ?_
  rintro scene ⟨hlow, hhigh, h⟩
  have hmax : maxAttemptCount.toInt = 3 := rfl
  have hlimit : record.verifyAttemptCount.toInt ≠ 3 := fun h => hopen (Int32.toInt_inj.mp (h.trans hmax.symm))
  have hcount : record.verifyAttemptCount.toInt = record.verifyAttemptCount.toInt.toNat := by omega
  have hsucc : record.attempted.verifyAttemptCount.toInt = _ := toInt_succ hcount (by omega)
  refine ⟨fun _ hsome => ?_, by omega, by omega, fun hsome => ?_⟩
  · have hcompared := h hsome
    omega
  · have hcompared := h hsome
    simp only [Watched.execute, exec, List.length_cons]
    omega

theorem under_signIn (account : Account) : Under op Tallied (signIn account) fun _ => Tallied := by
  refine (aside_signIn account).under stable_tallied fun call scene haside h => ⟨fun hcompares => ?_, ?_⟩
  · cases call with
    | compare => exact haside.elim
    | _ => cases hcompares
  · have hsame : (Watched.execute exec observer op call scene).2 = scene := Prod.ext (exec_aside haside scene.1) rfl
    rwa [hsame]

theorem under_verifyEmail (pin : Option String) (account : Account) :
    Under op (fun scene => Tallied scene ∧ Open scene) (verifyEmail pin account) fun _ => Tallied := by
  have hstable := stable_tallied.and stable_open
  refine .bind rely_refl (.perform hstable (fun _ => hstable) fun scene h => ⟨guar_of_other rfl, h⟩) fun found => ?_
  refine .ite (fun _ => .ret stable_tallied fun _ h => h.1) fun _ => ?_
  have hget : Under op (fun scene => Tallied scene ∧ Open scene) (ask .get) fun cached scene =>
      Read cached scene ∧ ∀ record ∈ cached, record.verifyAttemptCount ≠ maxAttemptCount :=
    .perform hstable (fun cached => (stable_read cached).and fun _ _ _ h => h) fun scene h =>
      ⟨guar_of_other rfl, ⟨h.1, h.1⟩, h.2⟩
  refine hget.bind rely_refl fun cached => ?_
  cases cached with
  | none => exact .ret stable_tallied fun _ h => h.1.1
  | some record =>
    refine .ite (fun _ => .consequence (under_set op (by rfl) _ (under_ret op _)) fun _ h => h.1.2 record rfl) fun _ => ?_
    by_cases hopen : record.verifyAttemptCount = maxAttemptCount
    · exact fun scene h => absurd hopen (h.2 record rfl)
    refine .consequence ((under_compare op hopen pin).bind rely_refl fun right => ?_) fun _ h => h.1.2 record rfl
    refine .ite (fun _ => under_set op rfl _ (under_ret op _)) fun _ => ?_
    have hdelete : Under op (Tally record.attempted.verifyAttemptCount.toInt) (ask .delete) fun _ => Tallied :=
      .perform (stable_tally _) (fun _ => stable_tallied) fun scene _ => ⟨guar_of_other rfl, nofun⟩
    exact hdelete.bind rely_refl fun _ => under_signIn op account

/-- Calls that run one at a time keep the tally. -/
def discipline (email : String) : Watched.Discipline (program email) exec expire observer where
  mine _ := True
  rely := Rely
  guar _ := Guar
  inv := Tallied
  ready op scene := op.verifies → Open scene
  refl := rely_refl
  trans := by
    rintro scene scene' scene'' (h | h) (h' | h')
    · exact .inl (h'.trans h)
    · exact .inr (h'.trans (by rw [h]))
    · exact .inr (h'.trans h)
    · exact .inr (h'.trans (by rw [h]; rfl))
  stable := stable_tallied
  secure op _ := by
    cases op with
    | register pin sent =>
      exact .consequence ((under_registerEmail _ email pin sent).bind rely_refl fun _ => under_ret _ _) fun _ h => h.1
    | verify pin account =>
      refine .consequence ((under_verifyEmail _ pin account).bind rely_refl fun _ => under_ret _ _) fun _ h => ?_
      exact ⟨h.1, h.2 rfl⟩
  others _ h := absurd trivial h
  around _ _ := .inr rfl

/-- Calls that are made in turn, and not when the count is at the limit, compare no more PINs than the limit says. -/
theorem guessesBounded_of_inTurn (email : String) (labels : List Step)
    (h : Along (interleave email) InTurn start labels) : Along (interleave email) GuessesBounded start labels := by
  have hadmits : Along (interleave email) (discipline email).Admits start labels := by
    refine h.mono fun s label hturn => ?_
    cases label with
    | spawn op => exact fun _ => ⟨fun task htask _ => hturn.1 task htask, hturn.2⟩
    | resume | outside => trivial
  have hguaranteed := Watched.Discipline.guaranteed_of_admitted (fun _ h => by cases h) hadmits
  refine hguaranteed.mono fun s label hguar => ?_
  cases label with
  | resume i => exact fun next hnext => hguar next.1 next.2 hnext trivial
  | spawn | outside => trivial

def completed (i : Nat) (op : Op) : List Step := .spawn op :: List.replicate 4 (.resume i)

def wrong : Op := .verify (some "PIN00") ⟨.failed, none, none⟩

theorem guessesBounded_of_inTurn_once :
    Along (interleave "a@b.io") GuessesBounded start (completed 0 (.register "PIN01" true) ++ completed 1 wrong) :=
  guessesBounded_of_inTurn "a@b.io" _ (by decide)

/-- Four wrong PINs, one after the other. -/
theorem fourth_guess : ¬Along (interleave "a@b.io") GuessesBounded start
    (completed 0 (.register "PIN01" true) ++ completed 1 wrong ++ completed 2 wrong ++ completed 3 wrong ++
      completed 4 wrong) := by
  decide

end HideServer.Auth
