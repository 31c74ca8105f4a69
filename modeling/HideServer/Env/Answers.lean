import HideServer.Env.Opening

/-!
# How often a request is answered

The success of a listing is sent before the cache is updated, and the failure of that update is an
answer as well; what `openFile` throws on another instance is caught by nobody. Apart from these a
request is answered exactly once.
-/

namespace HideServer.Env.Opening

open Async Async.Prog Cache

def Arrives (stat : StatDTO) : Option String → List FileCalls → Prop
  | none, _ => True
  | some _, [] => False
  | some other, calls :: hops => Arrives stat (calls.other? other stat) hops

/-- Every instance on the way can read the cache. -/
def Readable (stat : StatDTO) : Option String → List FileCalls → Prop
  | some other, calls :: hops => calls.cached ≠ none ∧ Readable stat (calls.other? other stat) hops
  | _, _ => True

/-- The cache does not fail where a failure is answered twice, or by nobody. -/
def Steady (me : String) (calls : Calls) (hops : List FileCalls) : Prop :=
  ∀ stat ∈ calls.stat,
    if stat.isDir then calls.entries ≠ none → calls.dirs.Succeed
    else Readable stat (calls.file.other? me stat) hops

section

variable {me : String} {request : FSOpen} {stat : StatDTO} {s : Host} {id : String}

theorem answers_append (id : String) {messages : List Message} {s' : Host} (h : s'.sent = s.sent ++ messages) :
    s'.answers id = s.answers id + messages.countP (Message.under id) := by
  unfold Host.answers
  rw [h, List.countP_append]

theorem answers_reply (hid : given request.correlationId = some id) (msg : Reply) :
    (run exec (reply request msg) s).2.answers id = s.answers id + 1 := by
  rw [run_reply, answers_append id rfl, hid]
  simp [Message.under]

theorem countP_messages (hid : given request.correlationId = some id) {outcome : Outcome}
    (hfinal : outcome.final = true) : (outcome.messages request stat).countP (Message.under id) = 1 := by
  cases outcome with
  | threw | passedOn => cases hfinal
  | failed | opened => simp [Outcome.messages, hid, Message.under]

theorem relay_none (hops : List FileCalls) : relay request none hops = .ret () := by
  cases hops <;> rfl

theorem next_of_final {outcome : Outcome} (hfinal : outcome.final = true) : outcome.next stat = none := by
  cases outcome with
  | threw | passedOn => cases hfinal
  | failed | opened => rfl

theorem answers_openFile (me : String) (stat : StatDTO) (s : Host)
    (hid : given request.correlationId = some id) (calls : FileCalls) :
    let ended := run exec (openFile me request stat calls) s
    (calls.cached = none ∧ ended.1 = .threw ∧ ended.2.answers id = s.answers id) ∨
    (∃ next ∈ calls.other? me stat, ended.1 = .passedOn next ∧ ended.2.answers id = s.answers id) ∨
    (calls.cached ≠ none ∧ calls.other? me stat = none ∧ ended.1 ≠ .threw ∧ ended.1.next stat = none ∧
      ended.2.answers id = s.answers id + 1) := by
  intro ended
  have hsent : ended.2.answers id = _ := answers_append id (sent_openFile me request stat s calls)
  rcases outcome_openFile me request stat s calls with
    ⟨hcached, hthrew⟩ | ⟨next, hnext, hpassed⟩ | ⟨hcached, hother, hfinal⟩
  · rw [hthrew] at hsent
    exact .inl ⟨hcached, hthrew, hsent⟩
  · rw [hpassed] at hsent
    exact .inr (.inl ⟨next, hnext, hpassed, hsent⟩)
  · rw [countP_messages hid hfinal] at hsent
    refine .inr (.inr ⟨hcached, hother, ?_, ?_, hsent⟩)
    · intro hthrew
      rw [show (run exec (openFile me request stat calls) s).1 = .threw from hthrew] at hfinal
      cases hfinal
    · exact next_of_final hfinal

theorem answers_relay (hid : given request.correlationId = some id) (other : String)
    (hops : List FileCalls) (s : Host) (harrives : Arrives stat (some other) hops) :
    ∃ n ≤ 1, (run exec (relay request (some (other, stat)) hops) s).2.answers id = s.answers id + n ∧
      (n = 1 ↔ Readable stat (some other) hops) := by
  induction hops generalizing other s with
  | nil => cases harrives
  | cons calls hops ih =>
    simp only [relay, run_bind, Readable]
    rcases answers_openFile other stat s hid calls with
      ⟨hcached, hthrew, hquiet⟩ | ⟨next, hnext, hpassed, hquiet⟩ | ⟨hcached, hother, -, hended, hanswered⟩
    · rw [hthrew, ← hquiet]
      simp only [Outcome.next, relay_none]
      exact ⟨0, by simp, rfl, by simp [hcached]⟩
    · simp only [Arrives] at harrives
      rw [hnext] at harrives ⊢
      have hcached : calls.cached ≠ none := by
        intro hcached
        simp [FileCalls.other?, hcached] at hnext
      obtain ⟨n, hle, hanswers, hone⟩ := ih next _ harrives
      refine ⟨n, hle, ?_, by simp [hcached, hone]⟩
      rw [hpassed, ← hquiet]
      exact hanswers
    · rw [hended, hother, relay_none]
      exact ⟨1, by simp, hanswered, by simp [hcached, Readable]⟩

theorem answers_openDir (hid : given request.correlationId = some id)
    (entries : Option (List FSOpenDTO)) (calls : CacheCalls) :
    (run exec (openDir request entries calls) s).2.answers id = s.answers id + 1 ↔
      (entries ≠ none → calls.Succeed) := by
  have hwatch : (exec (.emit (.watchAdd request.uuid request.path)) s).2.answers id = s.answers id := by
    rw [answers_append id rfl]
    simp [Message.under]
  simp only [openDir, run_bind, run_perform]
  cases entries with
  | none => simp [exec, sendError, answers_reply hid, ← hwatch]
  | some entries =>
    simp only [run_bind, exec]
    obtain ⟨ok, hrun, hok⟩ := run_updateCache _ request.uuid (FSService.updated request.uid request.path true) calls
    rw [hrun, ← hok]
    cases ok with
    | true => simp [answers_reply hid, ← hwatch, exec]
    | false => simp [answers_reply hid, ← hwatch, exec, sendError]

/-- A request is answered exactly once if and only if no cache fails after a listing or behind a message of another
instance. -/
theorem answered_once_iff (me : String) (request : FSOpen) (calls : Calls) (hops : List FileCalls) (s : Host)
    {id : String} (hid : given request.correlationId = some id)
    (harrives : ∀ stat ∈ calls.stat, stat.isDir = false → Arrives stat (calls.file.other? me stat) hops) :
    (run exec (serve me request calls hops) s).2.answers id = s.answers id + 1 ↔ Steady me calls hops := by
  have hrooted : given (rooted request).correlationId = some id := hid
  simp only [serve, handleOpen, Steady, run_bind, run_perform, exec]
  cases hstat : calls.stat with
  | none => simp [sendError, relay_none, answers_reply hrooted]
  | some stat =>
    simp only [Option.mem_def, Option.some.injEq, forall_eq']
    cases hdir : stat.isDir with
    | true => simp [relay_none, answers_openDir hrooted]
    | false =>
      specialize harrives stat hstat hdir
      rcases answers_openFile me stat s hrooted calls.file with ⟨hcached, hthrew, hquiet⟩ |
        ⟨next, hnext, hpassed, hquiet⟩ | ⟨hcached, hother, hthrew, hended, hanswered⟩
      · -- `handleOpen` catches what `openFile` throws
        have hother : calls.file.other? me stat = none := by
          rw [FileCalls.other?, hcached]
          rfl
        simp [hthrew, sendError, answers_reply hrooted, hquiet, Outcome.next, relay_none, hother, Readable]
      · rw [hnext] at harrives ⊢
        obtain ⟨n, -, hanswers, hone⟩ := answers_relay hrooted next hops
          (run exec (openFile me (rooted request) stat calls.file) s).2 harrives
        simp [hpassed, Outcome.next, hanswers, hquiet, hone]
      · simp [hthrew, hended, relay_none, hanswered, hother, Readable]

end

def openNotes : FSOpen := ⟨"u1", "s1", "w1", "/notes", some "c1"⟩

def shared : CachedWorkspace := ⟨.active, "e1", .empty, Dict.empty.set 7 "e2", .empty⟩

def fileCalls (cached : Option (Option CachedWorkspace)) : FileCalls :=
  ⟨cached, some "text", ⟨some (some shared), true⟩⟩

def fileOpened : Calls := ⟨some ⟨7, false⟩, none, ⟨none, false⟩, fileCalls (some (some shared))⟩

def dirOpened : Calls := ⟨some ⟨5, true⟩, some [], ⟨none, false⟩, fileCalls none⟩

def silent : Host := ⟨fun _ => .empty, []⟩

theorem answered_once_elsewhere :
    (run exec (serve "e1" openNotes fileOpened [fileCalls (some (some shared))]) silent).2.answers "c1" = 1 :=
  (answered_once_iff "e1" openNotes fileOpened [fileCalls (some (some shared))] silent rfl
    (by rintro stat ⟨⟩ -; exact trivial)).mpr (by rintro stat ⟨⟩; exact ⟨by simp [fileCalls], trivial⟩)

/-- The listing and the failure are both answered; and a request that is passed on may not be answered at all. -/
theorem answered_twice_or_never :
    (run exec (serve "e1" openNotes dirOpened []) silent).2.answers "c1" = 2 ∧
      (run exec (serve "e1" openNotes fileOpened [fileCalls none]) silent).2.answers "c1" = 0 := by
  decide

end HideServer.Env.Opening
