import HideServer.Env.Workspace
import HideServer.Async.Trace

/-!
# The shells of a user on a workspace

A shell enters the table when it opens; only the end of its connection takes it out again, with the
whole entry. The machine is that of one user on one workspace, each handler run to its end.
-/

namespace HideServer.Env.Shells

open Cache Function Trace Dict SSHProxyService

/-! ### The state -/

inductive Phase where
  | connecting
  | ready
  | closed
  deriving DecidableEq, Repr

/-- An ssh client, with what its handlers have of the request that made it. -/
structure Conn where
  sessionId : String
  clientId : String
  phase : Phase
  deriving DecidableEq, Repr

/-- The entry `conns[uid][uuid]`; a shell stands in it as the number of its stream. -/
structure Entry where
  conn : Nat
  sessionId : String
  sessions : Dict String Nat

/-- A shell that has been asked for, with what the callback has of the request. -/
structure Shell where
  conn : Nat
  sessionId : String
  clientId : String
  deriving DecidableEq, Repr

/-- An open stream. The session and the id are those its `close` handler tells; a stream whose
callback failed has no handler. -/
structure Stream where
  id : Nat
  conn : Nat
  listener : Option (String × String)
  deriving DecidableEq, Repr

inductive SSHMessage where
  | opened (sshSessionId clientId : String)
  | closed (sshSessionId : String)
  | error (message : String)
  deriving DecidableEq, Repr

inductive Out where
  | send (sessionId : String) (msg : SSHMessage)
  | closeStream (stream : Nat)
  | endConn (conn : Nat)
  deriving DecidableEq, Repr

structure Proxy where
  instanceId : String
  /-- Whether `conns[uid]` is there. -/
  known : Bool
  entry : Option Entry
  conns : Nat → Option Conn
  connCount : Nat
  shells : List Shell
  streams : List Stream
  streamCount : Nat
  workspace : Option CachedWorkspace
  out : List Out

def start (instanceId : String) (workspace : Option CachedWorkspace) : Proxy :=
  ⟨instanceId, false, none, fun _ => none, 0, [], [], 0, workspace, []⟩

/-! ### The handlers -/

/-- Without an entry the handler throws before it asks for a shell. -/
def handleNewSSHSession (sessionId clientId : String) (p : Proxy) : Proxy :=
  match p.entry with
  | none => p
  | some entry => { p with shells := p.shells ++ [⟨entry.conn, sessionId, clientId⟩] }

/-- `add` is the client id of the request when a connection is noted; the first shell is asked for
only where there is a record to note it in. -/
def updateConnCache (sessionId : String) (add : Option String) (p : Proxy) : Proxy :=
  match p.workspace with
  | none => p
  | some workspace =>
    let after := { p with workspace := some (updated p.instanceId sessionId add.isSome workspace) }
    match add with
    | none => after
    | some clientId => handleNewSSHSession sessionId clientId after

/-- A request for a shell. -/
def handleSSHConnection (sessionId clientId : String) (p : Proxy) : Proxy :=
  match p.entry with
  | none =>
    { p with
      known := true
      conns := update p.conns p.connCount (some ⟨sessionId, clientId, .connecting⟩)
      connCount := p.connCount + 1 }
  | some _ => handleNewSSHSession sessionId clientId { p with known := true }

/-- The streams in the table. -/
def Proxy.held (p : Proxy) : List Nat := p.entry.elim [] fun entry => entry.sessions.entries.map Prod.snd

/-- Closing a stream and ending a connection only ask for it: the events come later. -/
def handleSSHClose (sessionId sshSessionId : String) (p : Proxy) : Proxy :=
  if sshSessionId = "#all" then
    updateConnCache sessionId none
      { p with out := p.out ++ p.held.map .closeStream ++ p.entry.toList.map fun entry => .endConn entry.conn }
  else
    let asked := { p with
      out := p.out ++ (p.entry.bind fun entry => entry.sessions.get? sshSessionId).toList.map .closeStream }
    -- `conns[uid]?.[uuid].sessions` throws where the user is known and there is no entry
    if p.known && p.entry.isNone then asked
    else if p.held = [] then updateConnCache sessionId none asked
    else asked

inductive Event where
  | request (sessionId clientId : String)
  | ready (conn : Nat)
  | connError (conn : Nat)
  | connClosed (conn : Nat)
  /-- The callback of the shell, with the id that is drawn for it. -/
  | shellOpened (shell : Nat) (sshSessionId : String)
  | shellFailed (shell : Nat)
  | streamClosed (stream : Nat)
  | close (sessionId sshSessionId : String)
  deriving DecidableEq, Repr

def Proxy.onReady (p : Proxy) (k : Nat) (conn : Conn) : Proxy :=
  updateConnCache conn.sessionId (some conn.clientId)
    { p with
      conns := update p.conns k (some { conn with phase := .ready })
      entry := some ⟨k, conn.sessionId, .empty⟩ }

def Stream.farewell (stream : Stream) : List Out :=
  stream.listener.toList.map fun told => .send told.1 (.closed told.2)

/-- The streams of the connection close with it, and the entry goes, whichever connection is in it. -/
def Proxy.onConnClosed (p : Proxy) (k : Nat) (conn : Conn) : Proxy :=
  updateConnCache conn.sessionId none
    { p with
      conns := update p.conns k (some { conn with phase := .closed })
      streams := p.streams.filter (·.conn ≠ k)
      out := p.out ++ (p.streams.filter (·.conn = k)).flatMap Stream.farewell
      entry := none }

/-- Without an entry the callback throws: the stream is open, in no table and without handlers. -/
def Proxy.onShell (p : Proxy) (i : Nat) (shell : Shell) (sshSessionId : String) : Proxy :=
  let after := { p with shells := p.shells.eraseIdx i, streamCount := p.streamCount + 1 }
  match p.entry with
  | none => { after with streams := p.streams ++ [⟨p.streamCount, shell.conn, none⟩] }
  | some entry =>
    { after with
      streams := p.streams ++ [⟨p.streamCount, shell.conn, some (shell.sessionId, sshSessionId)⟩]
      entry := some { entry with sessions := entry.sessions.set sshSessionId p.streamCount }
      out := p.out ++ [.send shell.sessionId (.opened sshSessionId shell.clientId)] }

def Proxy.onShellFailed (p : Proxy) (i : Nat) (shell : Shell) : Proxy :=
  handleSSHClose shell.sessionId ""
    { p with
      shells := p.shells.eraseIdx i
      out := p.out ++ [.send shell.sessionId (.error "Failed to start shell")] }

def Proxy.phase (p : Proxy) (k : Nat) : Option Phase := (p.conns k).map Conn.phase

/-- An event of a connection, a shell or a stream that cannot have one changes nothing. -/
def step (p : Proxy) : Event → Proxy
  | .request sessionId clientId => handleSSHConnection sessionId clientId p
  | .ready k =>
    match p.conns k with
    | some conn => if conn.phase = .connecting then p.onReady k conn else p
    | none => p
  | .connError k =>
    match p.conns k with
    | some conn =>
      if conn.phase = .closed then p
      else { p with out := p.out ++ [.send conn.sessionId (.error "SSH connection failed")] }
    | none => p
  | .connClosed k =>
    match p.conns k with
    | some conn => if conn.phase = .closed then p else p.onConnClosed k conn
    | none => p
  | .shellOpened i sshSessionId =>
    match p.shells[i]? with
    | some shell => if p.phase shell.conn = some .ready then p.onShell i shell sshSessionId else p
    | none => p
  | .shellFailed i =>
    match p.shells[i]? with
    | some shell => p.onShellFailed i shell
    | none => p
  | .streamClosed id =>
    { p with
      streams := p.streams.filter (·.id ≠ id)
      out := p.out ++ (p.streams.filter (·.id = id)).flatMap Stream.farewell }
  | .close sessionId sshSessionId => handleSSHClose sessionId sshSessionId p

/-! ### What should hold, and when it does -/

/-- The table holds exactly the streams that are open. -/
def MirrorsOpen (p : Proxy) : Prop := ∀ id, id ∈ p.held ↔ id ∈ p.streams.map Stream.id

def Proxy.noted (p : Proxy) (sessionId : String) : Bool :=
  p.workspace.any fun workspace => (workspace.sshs.get? sessionId).isSome

/-- A step that closes the last shell leaves none of the sessions noted. -/
def ClearsLast (mine : String → Prop) (p : Proxy) (event : Event) : Prop :=
  p.streams ≠ [] → (step p event).streams = [] → ∀ sessionId, mine sessionId → (step p event).noted sessionId = false

/-- No connection is asked for while another one is being made, the ids drawn for the shells are new,
and no shell closes before its connection. -/
def Orderly (p : Proxy) : Event → Prop
  | .request .. => p.entry.isNone → ∀ k < p.connCount, p.phase k ≠ some .connecting
  | .shellOpened _ sshSessionId => p.entry.all fun entry => (entry.sessions.get? sshSessionId).isNone
  | .streamClosed id => ∀ stream ∈ p.streams, stream.id ≠ id
  | _ => True

instance (p : Proxy) (event : Event) : Decidable (Orderly p event) := by
  cases event <;> unfold Orderly <;> infer_instance

/-! ### What the handlers leave alone -/

/-- The handler touches only what is asked for and sent. -/
structure Keeps (p q : Proxy) : Prop where
  entry : q.entry = p.entry
  conns : q.conns = p.conns
  connCount : q.connCount = p.connCount
  streams : q.streams = p.streams
  noted : ∀ sessionId, q.noted sessionId → p.noted sessionId

namespace Keeps

theorem refl (p : Proxy) : Keeps p p := ⟨rfl, rfl, rfl, rfl, fun _ => id⟩

theorem trans {p q r : Proxy} (hpq : Keeps p q) (hqr : Keeps q r) : Keeps p r :=
  ⟨hqr.entry.trans hpq.entry, hqr.conns.trans hpq.conns, hqr.connCount.trans hpq.connCount,
    hqr.streams.trans hpq.streams, fun sessionId h => hpq.noted sessionId (hqr.noted sessionId h)⟩

end Keeps

theorem noted_remove (p : Proxy) (removed sessionId : String) :
    (updateConnCache removed none p).noted sessionId = (decide (sessionId ≠ removed) && p.noted sessionId) := by
  unfold updateConnCache Proxy.noted
  cases hworkspace : p.workspace with
  | none => simp [hworkspace]
  | some workspace =>
    by_cases heq : sessionId = removed
    · simp [updated, get?_erase, heq]
    · simp [updated, get?_erase, heq]

theorem keeps_remove (p : Proxy) (sessionId : String) : Keeps p (updateConnCache sessionId none p) := by
  have hnoted : ∀ other, (updateConnCache sessionId none p).noted other → p.noted other := by
    intro other h
    rw [noted_remove, Bool.and_eq_true] at h
    exact h.2
  unfold updateConnCache at hnoted ⊢
  split
  · exact .refl p
  · rename_i workspace hworkspace
    rw [hworkspace] at hnoted
    exact ⟨rfl, rfl, rfl, rfl, hnoted⟩

theorem keeps_handleNewSSHSession (p : Proxy) (sessionId clientId : String) :
    Keeps p (handleNewSSHSession sessionId clientId p) := by
  unfold handleNewSSHSession
  split
  · exact .refl p
  · exact ⟨rfl, rfl, rfl, rfl, fun _ => id⟩

theorem keeps_handleSSHClose (p : Proxy) (sessionId sshSessionId : String) :
    Keeps p (handleSSHClose sessionId sshSessionId p) := by
  have hasked (out : List Out) : Keeps p { p with out := out } := ⟨rfl, rfl, rfl, rfl, fun _ => id⟩
  unfold handleSSHClose
  split_ifs with hall hthrows hempty
  · exact (hasked _).trans (keeps_remove _ _)
  · exact hasked _
  · exact (hasked _).trans (keeps_remove _ _)
  · exact hasked _

theorem keeps_onShellFailed (p : Proxy) (i : Nat) (shell : Shell) : Keeps p (p.onShellFailed i shell) := by
  refine .trans ?_ (keeps_handleSSHClose _ _ _)
  exact ⟨rfl, rfl, rfl, rfl, fun _ => id⟩

theorem updateConnCache_add (p : Proxy) (sessionId clientId : String) :
    let q := updateConnCache sessionId (some clientId) p
    q.entry = p.entry ∧ q.conns = p.conns ∧ q.connCount = p.connCount ∧ q.streams = p.streams ∧
      ∀ other, q.noted other → other = sessionId ∨ p.noted other := by
  unfold updateConnCache
  cases hworkspace : p.workspace with
  | none => exact ⟨rfl, rfl, rfl, rfl, fun _ => .inr⟩
  | some workspace =>
    have hkeeps := keeps_handleNewSSHSession
      { p with workspace := some (updated p.instanceId sessionId true workspace) } sessionId clientId
    refine ⟨hkeeps.entry, hkeeps.conns, hkeeps.connCount, hkeeps.streams, fun other hother => ?_⟩
    have hset := hkeeps.noted other hother
    by_cases heq : other = sessionId
    · exact .inl heq
    · simpa [Proxy.noted, hworkspace, updated, get?_set, heq] using hset

/-! ### The two kinds of state of an orderly run -/

/-- The connection is not closed. -/
def Proxy.Live (p : Proxy) (k : Nat) : Prop := p.phase k = some .connecting ∨ p.phase k = some .ready

section

variable (mine : String → Prop)

/-- No connection is ready. -/
structure Resting (p : Proxy) : Prop where
  entry : p.entry = none
  streams : p.streams = []
  unready : ∀ k, p.phase k ≠ some .ready
  single : ∀ k k', p.phase k = some .connecting → p.phase k' = some .connecting → k = k'
  fresh : ∀ k, p.connCount ≤ k → p.conns k = none
  unnoted : ∀ sessionId, mine sessionId → p.noted sessionId = false

structure Serving (p : Proxy) (held : Entry) : Prop where
  entry : p.entry = some held
  conn : ∃ conn, p.conns held.conn = some conn ∧ conn.phase = .ready ∧ conn.sessionId = held.sessionId
  single : ∀ k, p.Live k → k = held.conn
  fresh : ∀ k, p.connCount ≤ k → p.conns k = none
  own : ∀ stream ∈ p.streams, stream.conn = held.conn
  mirrors : MirrorsOpen p
  noted : ∀ sessionId, mine sessionId → p.noted sessionId → sessionId = held.sessionId

/-- The two kinds of state. -/
def Settled (p : Proxy) : Prop := Resting mine p ∨ ∃ entry, Serving mine p entry

def Settles (p q : Proxy) : Prop :=
  Resting mine q ∨ (∃ entry, Serving mine q entry) ∧ (q.streams = [] → p.streams = [])

variable {mine} {p q : Proxy} {entry : Entry}

theorem Keeps.phase_eq (h : Keeps p q) (k : Nat) : q.phase k = p.phase k := by
  unfold Proxy.phase
  rw [h.conns]

theorem Keeps.resting (h : Keeps p q) (hp : Resting mine p) : Resting mine q where
  entry := h.entry.trans hp.entry
  streams := h.streams.trans hp.streams
  unready k := by
    rw [h.phase_eq]
    exact hp.unready k
  single k k' := by
    rw [h.phase_eq, h.phase_eq]
    exact hp.single k k'
  fresh k hk := by
    rw [h.conns]
    rw [h.connCount] at hk
    exact hp.fresh k hk
  unnoted sessionId hmine := by
    have hno := hp.unnoted sessionId hmine
    rw [← Bool.not_eq_true] at hno ⊢
    exact mt (h.noted sessionId) hno

theorem Keeps.serving (h : Keeps p q) (hp : Serving mine p entry) : Serving mine q entry where
  entry := h.entry.trans hp.entry
  conn := by
    rw [h.conns]
    exact hp.conn
  single k := by
    unfold Proxy.Live
    rw [h.phase_eq]
    exact hp.single k
  fresh k hk := by
    rw [h.conns]
    rw [h.connCount] at hk
    exact hp.fresh k hk
  own := by
    rw [h.streams]
    exact hp.own
  mirrors := by
    unfold MirrorsOpen Proxy.held
    rw [h.entry, h.streams]
    exact hp.mirrors
  noted sessionId hmine hnoted := hp.noted sessionId hmine (h.noted sessionId hnoted)

theorem Keeps.settles (h : Keeps p q) (hp : Settled mine p) : Settles mine p q := by
  obtain hresting | ⟨entry, hserving⟩ := hp
  · exact .inl (h.resting hresting)
  · exact .inr ⟨⟨entry, h.serving hserving⟩, h.streams.symm.trans⟩

theorem Settles.settled (h : Settles mine p q) : Settled mine q := h.imp_right And.left

theorem Settles.unnoted (h : Settles mine p q) (hp : p.streams ≠ []) (hq : q.streams = []) :
    ∀ sessionId, mine sessionId → q.noted sessionId = false := by
  obtain hresting | ⟨-, hempty⟩ := h
  · exact hresting.unnoted
  · exact absurd (hempty hq) hp

theorem Settled.mirrors (hp : Settled mine p) : MirrorsOpen p := by
  obtain hresting | ⟨entry, hserving⟩ := hp
  · intro id
    simp [Proxy.held, hresting.entry, hresting.streams]
  · exact hserving.mirrors

theorem resting_start {instanceId : String} {workspace : Option CachedWorkspace}
    (hmine : ∀ sessionId, mine sessionId → (start instanceId workspace).noted sessionId = false) :
    Resting mine (start instanceId workspace) where
  entry := rfl
  streams := rfl
  unready k := by simp [start, Proxy.phase]
  single k k' := by simp [start, Proxy.phase]
  fresh _ _ := rfl
  unnoted := hmine

/-! ### One step -/

theorem phase_update (conns : Nat → Option Conn) (k other : Nat) (conn : Conn) :
    (update conns k (some conn) other).map Conn.phase =
      if other = k then some conn.phase else (conns other).map Conn.phase := by
  split_ifs with heq
  · subst heq
    simp
  · simp [heq]

theorem Resting.connect (hp : Resting mine p) (sessionId clientId : String)
    (hquiet : ∀ k < p.connCount, p.phase k ≠ some .connecting) :
    Resting mine (handleSSHConnection sessionId clientId p) := by
  have hnone : ∀ k, p.phase k ≠ some .connecting := by
    intro k hk
    obtain hlt | hge := Nat.lt_or_ge k p.connCount
    · exact hquiet k hlt hk
    · simp [Proxy.phase, hp.fresh k hge] at hk
  have hnew : ∀ k, (handleSSHConnection sessionId clientId p).phase k =
      if k = p.connCount then some .connecting else p.phase k := by
    intro k
    simp only [handleSSHConnection, hp.entry, Proxy.phase]
    exact phase_update _ _ _ _
  refine ⟨?_, ?_, fun k hk => ?_, fun k k' hk hk' => ?_, fun k hk => ?_, fun other hmine => ?_⟩
  · simp only [handleSSHConnection, hp.entry]
  · simpa only [handleSSHConnection, hp.entry] using hp.streams
  · rw [hnew] at hk
    split_ifs at hk
    · cases hk
    · exact hp.unready k hk
  · rw [hnew] at hk hk'
    split_ifs at hk hk' with heq heq'
    · exact heq.trans heq'.symm
    · exact absurd hk' (hnone k')
    · exact absurd hk (hnone k)
    · exact absurd hk (hnone k)
  · simp only [handleSSHConnection, hp.entry] at hk ⊢
    rw [update_of_ne (by omega)]
    exact hp.fresh k (by omega)
  · simpa only [handleSSHConnection, hp.entry, Proxy.noted] using hp.unnoted other hmine

theorem fresh_update {k other : Nat} {conn new : Conn} (hconn : p.conns k = some conn)
    (hfresh : ∀ k, p.connCount ≤ k → p.conns k = none) (hother : p.connCount ≤ other) :
    update p.conns k (some new) other = none := by
  have hne : other ≠ k := by
    rintro rfl
    rw [hfresh other hother] at hconn
    cases hconn
  rw [update_of_ne hne]
  exact hfresh other hother

variable {conn : Conn}

theorem Resting.onReady (hp : Resting mine p) {k : Nat} (hconn : p.conns k = some conn)
    (hphase : conn.phase = .connecting) : Serving mine (p.onReady k conn) ⟨k, conn.sessionId, .empty⟩ := by
  have hk : p.phase k = some .connecting := by simp [Proxy.phase, hconn, hphase]
  obtain ⟨hentry, hconns, hcount, hstreams, hnoted⟩ := updateConnCache_add
    { p with
      conns := update p.conns k (some { conn with phase := .ready })
      entry := some ⟨k, conn.sessionId, .empty⟩ } conn.sessionId conn.clientId
  have hstreams' : (p.onReady k conn).streams = [] := hstreams.trans hp.streams
  refine ⟨hentry, ⟨{ conn with phase := .ready }, ?_, rfl, rfl⟩, fun other hlive => ?_, fun other hother => ?_,
    fun stream hstream => ?_, fun id => ?_, fun sessionId hmine h => ?_⟩
  · exact (congrFun hconns k).trans (update_self ..)
  · by_contra hne
    have hold : (p.onReady k conn).phase other = p.phase other := by
      unfold Proxy.phase Proxy.onReady
      rw [hconns, phase_update, if_neg hne]
    obtain hconnecting | hready := hlive
    · exact hne (hp.single other k (hold.symm.trans hconnecting) hk)
    · exact hp.unready other (hold.symm.trans hready)
  · exact (congrFun hconns other).trans (fresh_update hconn hp.fresh (hcount ▸ hother))
  · rw [hstreams'] at hstream
    cases hstream
  · have hheld : (p.onReady k conn).held = [] := by
      unfold Proxy.held Proxy.onReady
      rw [hentry]
      rfl
    rw [hheld, hstreams']
    rfl
  · obtain heq | hold := hnoted sessionId h
    · exact heq
    · have hno : p.noted sessionId = false := hp.unnoted sessionId hmine
      exact absurd (hno.symm.trans hold) Bool.false_ne_true

theorem resting_onConnClosed {k : Nat} (hconn : p.conns k = some conn)
    (hsingle : ∀ other, p.Live other → other = k) (hfresh : ∀ k, p.connCount ≤ k → p.conns k = none)
    (hown : ∀ stream ∈ p.streams, stream.conn = k)
    (hnoted : ∀ sessionId, mine sessionId → p.noted sessionId → sessionId = conn.sessionId) :
    Resting mine (p.onConnClosed k conn) := by
  have hkeeps := keeps_remove
    { p with
      conns := update p.conns k (some { conn with phase := .closed })
      streams := p.streams.filter (·.conn ≠ k)
      out := p.out ++ (p.streams.filter (·.conn = k)).flatMap Stream.farewell
      entry := none } conn.sessionId
  have hdead : ∀ other, ¬ (p.onConnClosed k conn).Live other := by
    intro other hlive
    have hphase : (p.onConnClosed k conn).phase other = if other = k then some .closed else p.phase other :=
      (hkeeps.phase_eq other).trans (phase_update _ _ _ _)
    unfold Proxy.Live at hlive
    rw [hphase] at hlive
    split_ifs at hlive with heq
    · simp at hlive
    · exact heq (hsingle other hlive)
  refine ⟨hkeeps.entry, ?_, fun other h => hdead other (.inr h), fun other _ h => absurd (.inl h) (hdead other),
    fun other hother => ?_, fun sessionId hmine => ?_⟩
  · refine hkeeps.streams.trans (List.filter_eq_nil_iff.mpr fun stream hstream => ?_)
    simpa using hown stream hstream
  · exact (congrFun hkeeps.conns other).trans (fresh_update hconn hfresh (hkeeps.connCount ▸ hother))
  · rw [Proxy.onConnClosed, noted_remove, Bool.and_eq_false_iff]
    by_cases heq : sessionId = conn.sessionId
    · simp [heq]
    · right
      rw [← Bool.not_eq_true]
      exact fun h => heq (hnoted sessionId hmine h)

theorem Resting.onConnClosed (hp : Resting mine p) {k : Nat} (hconn : p.conns k = some conn)
    (hphase : conn.phase ≠ .closed) : Resting mine (p.onConnClosed k conn) := by
  have hk : p.phase k = some conn.phase := by simp [Proxy.phase, hconn]
  have hconnecting : p.phase k = some .connecting := by
    cases hc : conn.phase with
    | connecting => rw [hk, hc]
    | ready => exact absurd (hk.trans (congrArg some hc)) (hp.unready k)
    | closed => exact absurd hc hphase
  refine resting_onConnClosed hconn (fun other hlive => ?_) hp.fresh ?_ fun sessionId hmine h => ?_
  · obtain hother | hother := hlive
    · exact hp.single other k hother hconnecting
    · exact absurd hother (hp.unready other)
  · simp [hp.streams]
  · rw [hp.unnoted sessionId hmine] at h
    cases h

theorem Serving.onConnClosed (hp : Serving mine p entry) {k : Nat} (hconn : p.conns k = some conn)
    (hphase : conn.phase ≠ .closed) : Resting mine (p.onConnClosed k conn) := by
  have hlive : p.Live k := by
    unfold Proxy.Live Proxy.phase
    rw [hconn]
    cases hc : conn.phase with
    | connecting => simp [hc]
    | ready => simp [hc]
    | closed => exact absurd hc hphase
  obtain rfl := hp.single k hlive
  obtain ⟨conn', hconn', -, hsession⟩ := hp.conn
  obtain rfl : conn = conn' := Option.some.inj (hconn.symm.trans hconn')
  refine resting_onConnClosed hconn hp.single hp.fresh hp.own fun sessionId hmine h => ?_
  rw [hsession]
  exact hp.noted sessionId hmine h

theorem Serving.onShell (hp : Serving mine p entry) {i : Nat} {shell : Shell} {sshSessionId : String}
    (hready : p.phase shell.conn = some .ready) (hid : entry.sessions.get? sshSessionId = none) :
    Serving mine (p.onShell i shell sshSessionId)
      { entry with sessions := entry.sessions.set sshSessionId p.streamCount } := by
  have hshell : shell.conn = entry.conn := hp.single _ (.inr hready)
  have hvalues : ∀ id, id ∈ (entry.sessions.set sshSessionId p.streamCount).entries.map Prod.snd ↔
      id ∈ entry.sessions.entries.map Prod.snd ∨ id = p.streamCount := by
    have hnew : sshSessionId ∉ entry.sessions.entries.map Prod.fst := by
      intro hmem
      have hsome := Dict.mem_keys.mp hmem
      rw [hid] at hsome
      cases hsome
    simp [Dict.set, hnew, or_comm]
  unfold Proxy.onShell
  rw [hp.entry]
  refine ⟨rfl, hp.conn, hp.single, hp.fresh, fun stream hstream => ?_, fun id => ?_, hp.noted⟩
  · obtain hold | hnew := List.mem_append.mp hstream
    · exact hp.own stream hold
    · rw [List.mem_singleton.mp hnew]
      exact hshell
  · have hmirrors := hp.mirrors id
    unfold Proxy.held at hmirrors ⊢
    rw [hp.entry] at hmirrors
    dsimp only [Option.elim_some] at hmirrors ⊢
    rw [hvalues, List.map_append, List.mem_append, hmirrors]
    simp

theorem keeps_streamClosed {closed : Nat} (h : ∀ stream ∈ p.streams, stream.id ≠ closed) :
    Keeps p (step p (.streamClosed closed)) := by
  refine ⟨rfl, rfl, rfl, ?_, fun _ => id⟩
  simpa [step] using h

theorem settles_step (p : Proxy) (event : Event) (hp : Settled mine p) (horderly : Orderly p event) :
    Settles mine p (step p event) := by
  cases event with
  | request sessionId clientId =>
    obtain hresting | ⟨entry, hserving⟩ := hp
    · exact .inl (hresting.connect sessionId clientId (horderly (by simp [hresting.entry])))
    · refine Keeps.settles ?_ (.inr ⟨entry, hserving⟩)
      simp only [step, handleSSHConnection, hserving.entry]
      refine .trans ?_ (keeps_handleNewSSHSession _ _ _)
      exact ⟨hserving.entry.symm, rfl, rfl, rfl, fun _ => id⟩
  | ready k =>
    simp only [step]
    split
    · rename_i conn hconn
      split_ifs with hphase
      · obtain hresting | ⟨entry, hserving⟩ := hp
        · exact .inr ⟨⟨_, hresting.onReady hconn hphase⟩, fun _ => hresting.streams⟩
        · -- the one live connection is ready already
          obtain rfl := hserving.single k (.inl (by simp [Proxy.phase, hconn, hphase]))
          obtain ⟨conn', hconn', hready, -⟩ := hserving.conn
          rw [Option.some.inj (hconn.symm.trans hconn'), hready] at hphase
          cases hphase
      · exact (Keeps.refl p).settles hp
    · exact (Keeps.refl p).settles hp
  | connError k =>
    refine Keeps.settles ?_ hp
    simp only [step]
    split
    · split_ifs
      · exact .refl p
      · exact ⟨rfl, rfl, rfl, rfl, fun _ => id⟩
    · exact .refl p
  | connClosed k =>
    simp only [step]
    split
    · rename_i conn hconn
      split_ifs with hphase
      · exact (Keeps.refl p).settles hp
      · obtain hresting | ⟨entry, hserving⟩ := hp
        · exact .inl (hresting.onConnClosed hconn hphase)
        · exact .inl (hserving.onConnClosed hconn hphase)
    · exact (Keeps.refl p).settles hp
  | shellOpened i sshSessionId =>
    simp only [step]
    split
    · split_ifs with hready
      · obtain hresting | ⟨entry, hserving⟩ := hp
        · exact absurd hready (hresting.unready _)
        · have hid : entry.sessions.get? sshSessionId = none := by simpa [Orderly, hserving.entry] using horderly
          refine .inr ⟨⟨_, hserving.onShell hready hid⟩, fun hempty => ?_⟩
          simp [Proxy.onShell, hserving.entry] at hempty
      · exact (Keeps.refl p).settles hp
    · exact (Keeps.refl p).settles hp
  | shellFailed i =>
    refine Keeps.settles ?_ hp
    simp only [step]
    split
    · exact keeps_onShellFailed p i _
    · exact .refl p
  | streamClosed id => exact (keeps_streamClosed horderly).settles hp
  | close sessionId sshSessionId => exact (keeps_handleSSHClose p sessionId sshSessionId).settles hp

end

/-- In every run whose steps are orderly the table holds exactly the open shells in every state, and
when the last of them has closed none of the user's sessions is noted. -/
theorem mirrorsOpen_of_orderly (mine : String → Prop) (instanceId : String) (workspace : Option CachedWorkspace)
    (events : List Event) (hmine : ∀ sessionId, mine sessionId → (start instanceId workspace).noted sessionId = false)
    (horderly : Along step Orderly (start instanceId workspace) events) :
    Always step MirrorsOpen (start instanceId workspace) events ∧
      Along step (ClearsLast mine) (start instanceId workspace) events := by
  have hstart : Settled mine (start instanceId workspace) := .inl (resting_start hmine)
  have hstep : ∀ p event, Settled mine p → Orderly p event → Settled mine (step p event) :=
    fun p event hp h => (settles_step p event hp h).settled
  refine ⟨always_of_invariant hstep (fun _ => Settled.mirrors) hstart horderly, ?_⟩
  exact along_of_invariant hstep (fun p event hp h => (settles_step p event hp h).unnoted) hstart horderly

/-- Two shells of two sessions over the one connection, which all end with it. -/
theorem mirrorsOpen_hang_up : let record : CachedWorkspace := ⟨.active, "e1", .empty, .empty, empty.set "other" "e2"⟩
    let events : List Event := [.request "s1" "c1", .ready 0, .shellOpened 0 "a", .request "s2" "c2",
      .shellOpened 0 "b", .close "s1" "#all", .connClosed 0]
    Always step MirrorsOpen (start "e1" record) events ∧
      Along step (ClearsLast fun sessionId => sessionId = "s1" ∨ sessionId = "s2") (start "e1" record) events := by
  refine mirrorsOpen_of_orderly _ _ _ _ (fun sessionId hmine => ?_) (by decide)
  obtain rfl | rfl := hmine
  · decide
  · decide

/-- The last shell is closed on request: it stays in the table, and the session stays noted. -/
theorem closed_shell_stays : let record : CachedWorkspace := ⟨.active, "e1", .empty, .empty, .empty⟩
    let before := run step (start "e1" record) [.request "s1" "c1", .ready 0, .shellOpened 0 "a", .close "s1" "a"]
    (start "e1" record).noted "s1" = false ∧ before.streams ≠ [] ∧ before.held = [0] ∧
      (step before (.streamClosed 0)).streams = [] ∧ (step before (.streamClosed 0)).held = [0] ∧
      ¬ MirrorsOpen (step before (.streamClosed 0)) ∧ ¬ ClearsLast (· = "s1") before (.streamClosed 0) := by
  refine ⟨by decide, by decide, by decide, by decide, by decide, fun h => ?_, fun h => ?_⟩
  · exact absurd ((h 0).mp (by decide)) (by decide)
  · exact absurd (h (by decide) (by decide) "s1" rfl) (by decide)

end HideServer.Env.Shells
