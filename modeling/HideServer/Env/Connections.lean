import HideServer.Env.Shells

/-!
# The connections of a user to a workspace

The table is filled when a connection becomes ready, so an earlier request makes another connection,
which takes the place of the first in the table; whichever closes first empties it.
-/

namespace HideServer.Env.Shells

open Cache Function Trace Proxy

def Proxy.owner (p : Proxy) : Option (Nat × String) := p.entry.map fun entry => (entry.conn, entry.sessionId)

/-- A connection that is ready is the one in the table, so there is one at most. -/
def OneConnection (p : Proxy) : Prop := ∀ k, p.phase k = some .ready → p.owner.map Prod.fst = some k

/-- The end of a connection takes an entry away, from the table or from the record, only if it is its own. -/
def ClosesItself (p : Proxy) : Event → Prop
  | .connClosed k =>
    ((step p (.connClosed k)).entry.isNone → ∀ owner ∈ p.owner, owner.1 = k) ∧
      ∀ sessionId, p.noted sessionId = true → (step p (.connClosed k)).noted sessionId = false →
        p.owner = some (k, sessionId)
  | _ => True

/-- A request that makes a connection comes when no other one is being made, and its session is not noted. -/
def Unhurried (p : Proxy) : Event → Prop
  | .request sessionId _ =>
    p.entry.isNone → (∀ k < p.connCount, p.phase k ≠ some .connecting) ∧ p.noted sessionId = false
  | _ => True

instance (p : Proxy) : DecidablePred (Unhurried p)
  | .request .. => inferInstanceAs (Decidable (_ → (∀ k < _, _) ∧ _))
  | .ready _ | .connError _ | .connClosed _ | .shellOpened .. | .shellFailed _ | .streamClosed _ | .close .. =>
    inferInstanceAs (Decidable True)

structure Lone (p : Proxy) : Prop where
  fresh : ∀ k, p.connCount ≤ k → p.conns k = none
  single : ∀ k k', p.Live k → p.Live k' → k = k'
  stored : ∀ k, p.phase k = some .ready → ∃ sessionId, p.owner = some (k, sessionId)
  ready : ∀ k sessionId, p.owner = some (k, sessionId) →
    ∃ conn, p.conns k = some conn ∧ conn.phase = .ready ∧ conn.sessionId = sessionId
  noted : ∀ k conn, p.conns k = some conn → conn.phase ≠ .closed → p.noted conn.sessionId = true →
    ∃ k', p.owner = some (k', conn.sessionId)

section

variable {p q : Proxy} {k : Nat} {conn : Conn}

theorem live_iff (hconn : p.conns k = some conn) : p.Live k ↔ conn.phase ≠ .closed := by
  unfold Proxy.Live phase
  rw [hconn]
  cases hphase : conn.phase <;> simp [hphase]

theorem exists_of_live (h : p.Live k) : ∃ conn, p.conns k = some conn ∧ conn.phase ≠ .closed := by
  cases hconn : p.conns k with
  | none =>
    unfold Proxy.Live phase at h
    simp [hconn] at h
  | some conn => exact ⟨conn, rfl, (live_iff hconn).mp h⟩

theorem lone_start (instanceId : String) (workspace : Option CachedWorkspace) : Lone (start instanceId workspace) where
  fresh _ _ := rfl
  single k k' h := by
    obtain ⟨conn, hconn, -⟩ := exists_of_live h
    cases hconn
  stored k h := by cases h
  ready k sessionId h := by cases h
  noted k conn h := by cases h

theorem Lone.congr (h : Lone p) (howner : q.owner = p.owner) (hconns : q.conns = p.conns)
    (hcount : q.connCount = p.connCount) (hnoted : ∀ sessionId, q.noted sessionId → p.noted sessionId) : Lone q := by
  have hphase : q.phase = p.phase := by
    unfold phase
    rw [hconns]
  refine ⟨?_, fun k k' => ?_, fun k => ?_, fun k sessionId => ?_, fun k conn hconn hlive hnote => ?_⟩
  · rw [hconns, hcount]
    exact h.fresh
  · unfold Proxy.Live
    rw [hphase]
    exact h.single k k'
  · rw [hphase, howner]
    exact h.stored k
  · rw [howner, hconns]
    exact h.ready k sessionId
  · rw [howner]
    rw [hconns] at hconn
    exact h.noted k conn hconn hlive (hnoted _ hnote)

theorem Keeps.lone (hkeeps : Keeps p q) (h : Lone p) : Lone q := by
  refine h.congr ?_ hkeeps.conns hkeeps.connCount hkeeps.noted
  unfold owner
  rw [hkeeps.entry]

theorem Lone.connect (h : Lone p) (hentry : p.entry = none) {sessionId clientId : String}
    (hquiet : ∀ k < p.connCount, p.phase k ≠ some .connecting) (hnoted : p.noted sessionId = false) :
    Lone (handleSSHConnection sessionId clientId p) := by
  have howner : p.owner = none := by rw [owner, hentry, Option.map_none]
  have hdead : ∀ k, ¬p.Live k := by
    intro k hlive
    obtain hconnecting | hready := hlive
    · obtain hlt | hge := Nat.lt_or_ge k p.connCount
      · exact hquiet k hlt hconnecting
      · simp [phase, h.fresh k hge] at hconnecting
    · obtain ⟨sid, hstored⟩ := h.stored k hready
      rw [howner] at hstored
      cases hstored
  have hold {k : Nat} {conn : Conn} (hne : k ≠ p.connCount)
      (hconn : (handleSSHConnection sessionId clientId p).conns k = some conn) : p.conns k = some conn := by
    simpa [handleSSHConnection, hentry, update_of_ne hne] using hconn
  have hnew {conn : Conn} (hconn : (handleSSHConnection sessionId clientId p).conns p.connCount = some conn) :
      conn = ⟨sessionId, clientId, .connecting⟩ := by
    simpa [handleSSHConnection, hentry, eq_comm] using hconn
  have hlive {k : Nat} (hlive : (handleSSHConnection sessionId clientId p).Live k) : k = p.connCount := by
    by_contra hne
    obtain ⟨conn, hconn, hphase⟩ := exists_of_live hlive
    exact hdead k ((live_iff (hold hne hconn)).mpr hphase)
  have howner' : (handleSSHConnection sessionId clientId p).owner = none := by
    simp [owner, handleSSHConnection, hentry]
  refine ⟨fun k hk => ?_, fun k k' hk hk' => (hlive hk).trans (hlive hk').symm, fun k hk => ?_, fun k sid hk => ?_,
    fun k conn hconn hphase hnote => ?_⟩
  · simp only [handleSSHConnection, hentry] at hk ⊢
    rw [update_of_ne (by omega)]
    exact h.fresh k (by omega)
  · obtain rfl := hlive (.inr hk)
    simp [phase, handleSSHConnection, hentry] at hk
  · rw [howner'] at hk
    cases hk
  · obtain rfl := hlive ((live_iff hconn).mpr hphase)
    rw [hnew hconn] at hnote
    have hsame : (handleSSHConnection sessionId clientId p).noted sessionId = p.noted sessionId := by
      simp [Proxy.noted, handleSSHConnection, hentry]
    rw [hsame, hnoted] at hnote
    cases hnote

theorem Lone.onReady (h : Lone p) (hconn : p.conns k = some conn) (hphase : conn.phase = .connecting) :
    Lone (p.onReady k conn) := by
  obtain ⟨hentry, hconns, hcount, -, hnoted⟩ := updateConnCache_add
    { p with
      conns := update p.conns k (some { conn with phase := .ready })
      entry := some ⟨k, conn.sessionId, .empty⟩ } conn.sessionId conn.clientId
  have hk : p.Live k := (live_iff hconn).mpr (by simp [hphase])
  have howner : (p.onReady k conn).owner = some (k, conn.sessionId) := by
    unfold Proxy.owner Proxy.onReady
    rw [hentry]
    rfl
  have hself : (p.onReady k conn).conns k = some { conn with phase := .ready } :=
    (congrFun hconns k).trans (update_self ..)
  have hlive {other : Nat} (hlive : (p.onReady k conn).Live other) : other = k := by
    by_contra hne
    obtain ⟨conn', hconn', hphase'⟩ := exists_of_live hlive
    have hold : p.conns other = some conn' :=
      (update_of_ne hne ..).symm.trans ((congrFun hconns other).symm.trans hconn')
    exact hne (h.single other k ((live_iff hold).mpr hphase') hk)
  refine ⟨fun other hother => ?_, fun i j hi hj => (hlive hi).trans (hlive hj).symm, fun other hother => ?_,
    fun other sessionId hother => ?_, fun other conn' hconn' hphase' _ => ?_⟩
  · exact (congrFun hconns other).trans (fresh_update hconn h.fresh (hcount ▸ hother))
  · rw [hlive (.inr hother)]
    exact ⟨conn.sessionId, howner⟩
  · rw [howner] at hother
    cases hother
    exact ⟨_, hself, rfl, rfl⟩
  · obtain rfl := hlive ((live_iff hconn').mpr hphase')
    rw [hself] at hconn'
    cases hconn'
    exact ⟨other, howner⟩

theorem Lone.onConnClosed (h : Lone p) (hconn : p.conns k = some conn) (hphase : conn.phase ≠ .closed) :
    Lone (p.onConnClosed k conn) := by
  have hkeeps := keeps_remove
    { p with
      conns := update p.conns k (some { conn with phase := .closed })
      streams := p.streams.filter (·.conn ≠ k)
      out := p.out ++ (p.streams.filter (·.conn = k)).flatMap Stream.farewell
      entry := none } conn.sessionId
  have howner : (p.onConnClosed k conn).owner = none := by
    unfold Proxy.owner Proxy.onConnClosed
    rw [hkeeps.entry]
    rfl
  have hdead (other : Nat) : ¬(p.onConnClosed k conn).Live other := by
    intro hlive
    obtain ⟨conn', hconn', hphase'⟩ := exists_of_live hlive
    have hupdated : update p.conns k (some { conn with phase := .closed }) other = some conn' :=
      (congrFun hkeeps.conns other).symm.trans hconn'
    by_cases heq : other = k
    · subst heq
      rw [update_self] at hupdated
      cases hupdated
      exact hphase' rfl
    · rw [update_of_ne heq] at hupdated
      exact heq (h.single other k ((live_iff hupdated).mpr hphase') ((live_iff hconn).mpr hphase))
  refine ⟨fun other hother => ?_, fun i _ hi => absurd hi (hdead i), fun other hother => absurd (.inr hother) (hdead other),
    fun other sessionId hother => ?_, fun other conn' hconn' hphase' => absurd ((live_iff hconn').mpr hphase') (hdead other)⟩
  · exact (congrFun hkeeps.conns other).trans (fresh_update hconn h.fresh (hkeeps.connCount ▸ hother))
  · rw [howner] at hother
    cases hother

theorem owner_onShell (p : Proxy) (i : Nat) (shell : Shell) (sshSessionId : String) :
    (p.onShell i shell sshSessionId).owner = p.owner := by
  unfold onShell owner
  cases p.entry <;> rfl

theorem Lone.onShell (h : Lone p) (i : Nat) (shell : Shell) (sshSessionId : String) :
    Lone (p.onShell i shell sshSessionId) := by
  have hrest : (p.onShell i shell sshSessionId).conns = p.conns ∧
      (p.onShell i shell sshSessionId).connCount = p.connCount ∧
      (p.onShell i shell sshSessionId).workspace = p.workspace := by
    unfold Proxy.onShell
    cases p.entry <;> exact ⟨rfl, rfl, rfl⟩
  refine h.congr (owner_onShell p i shell sshSessionId) hrest.1 hrest.2.1 fun sessionId hnoted => ?_
  unfold Proxy.noted at hnoted ⊢
  rwa [hrest.2.2] at hnoted

/-- Where requests wait, there is one connection at most. -/
theorem lone_step (p : Proxy) (event : Event) (h : Lone p) (hunhurried : Unhurried p event) : Lone (step p event) := by
  cases event with
  | request sessionId clientId =>
    cases hentry : p.entry with
    | none =>
      obtain ⟨hquiet, hnoted⟩ := hunhurried (by rw [hentry]; rfl)
      exact h.connect hentry hquiet hnoted
    | some entry =>
      simp only [step, handleSSHConnection, hentry]
      refine (keeps_handleNewSSHSession _ _ _).lone (h.congr ?_ rfl rfl fun _ => id)
      unfold owner
      rw [hentry]
  | ready k =>
    simp only [step]
    split
    · rename_i conn hconn
      split_ifs with hphase
      · exact h.onReady hconn hphase
      · exact h
    · exact h
  | connError k =>
    simp only [step]
    split
    · split_ifs
      · exact h
      · exact h.congr rfl rfl rfl fun _ => id
    · exact h
  | connClosed k =>
    simp only [step]
    split
    · rename_i conn hconn
      split_ifs with hphase
      · exact h
      · exact h.onConnClosed hconn hphase
    · exact h
  | shellOpened i sshSessionId =>
    simp only [step]
    split
    · split_ifs
      · exact h.onShell i _ sshSessionId
      · exact h
    · exact h
  | shellFailed i =>
    simp only [step]
    split
    · exact (keeps_onShellFailed p i _).lone h
    · exact h
  | streamClosed closed => exact h.congr rfl rfl rfl fun _ => id
  | close sessionId sshSessionId => exact (keeps_handleSSHClose p sessionId sshSessionId).lone h

theorem Lone.oneConnection (h : Lone p) : OneConnection p := by
  intro k hk
  obtain ⟨sessionId, howner⟩ := h.stored k hk
  rw [howner]
  rfl

theorem Lone.closesItself (h : Lone p) (event : Event) : ClosesItself p event := by
  cases event with
  | connClosed k =>
    unfold ClosesItself
    cases hconn : p.conns k with
    | none =>
      simp only [step, hconn]
      refine ⟨fun hnone owner howner => ?_, fun sessionId hbefore hafter => ?_⟩
      · simp [Proxy.owner, Option.isNone_iff_eq_none.mp hnone] at howner
      · rw [hbefore] at hafter
        cases hafter
    | some conn =>
      simp only [step, hconn]
      split_ifs with hphase
      · refine ⟨fun hnone owner howner => ?_, fun sessionId hbefore hafter => ?_⟩
        · simp [Proxy.owner, Option.isNone_iff_eq_none.mp hnone] at howner
        · rw [hbefore] at hafter
          cases hafter
      · have hlive : p.Live k := (live_iff hconn).mpr hphase
        have hown {k' : Nat} {sessionId : String} (howner : p.owner = some (k', sessionId)) : k' = k := by
          obtain ⟨conn', hconn', hready, -⟩ := h.ready k' sessionId howner
          exact h.single k' k ((live_iff hconn').mpr (by simp [hready])) hlive
        refine ⟨fun _ owner howner => hown howner, fun sessionId hbefore hafter => ?_⟩
        -- only the session of the connection is taken from the record
        have hsame : sessionId = conn.sessionId := by
          by_contra hne
          rw [Proxy.onConnClosed, noted_remove, decide_eq_true hne, Bool.true_and] at hafter
          exact Bool.false_ne_true (hafter.symm.trans hbefore)
        subst hsame
        obtain ⟨k', howner⟩ := h.noted k conn hconn hphase hbefore
        rw [howner, hown howner]
  | _ => trivial

end

/-- In every run in which requests wait, there is one connection at most, which is the one in the table, and the end
of a connection takes nothing away that is not its own. -/
theorem closesItself_of_unhurried (instanceId : String) (workspace : Option CachedWorkspace) (events : List Event)
    (hunhurried : Along step Unhurried (start instanceId workspace) events) :
    Always step OneConnection (start instanceId workspace) events ∧
      Along step ClosesItself (start instanceId workspace) events := by
  have hstart := lone_start instanceId workspace
  refine ⟨always_of_invariant lone_step (fun _ => Lone.oneConnection) hstart hunhurried, ?_⟩
  exact along_of_invariant lone_step (fun p event h _ => h.closesItself event) hstart hunhurried

/-- The second connection is made when the first has closed. -/
theorem closesItself_in_turn :
    let record : CachedWorkspace := ⟨.active, "e1", .empty, .empty, Dict.empty.set "other" "e2"⟩
    let events : List Event := [.request "s1" "c1", .ready 0, .request "s1" "c2", .connClosed 0,
      .request "s1" "c3", .ready 1, .connClosed 1]
    Always step OneConnection (start "e1" record) events ∧ Along step ClosesItself (start "e1" record) events := by
  exact closesItself_of_unhurried _ _ _ (by decide)

/-- Two requests come before the first connection is ready. Both connections are ready then, and the end of the first
empties the table and the record of the second. -/
theorem closes_another : let record : CachedWorkspace := ⟨.active, "e1", .empty, .empty, .empty⟩
    let p := run step (start "e1" record) [.request "s1" "c1", .request "s1" "c2", .ready 0, .ready 1]
    p.phase 0 = some .ready ∧ p.phase 1 = some .ready ∧ p.owner = some (1, "s1") ∧ p.noted "s1" = true ∧
      ¬OneConnection p ∧ (step p (.connClosed 0)).entry.isNone ∧ (step p (.connClosed 0)).noted "s1" = false ∧
      (step p (.connClosed 0)).phase 1 = some .ready ∧ ¬ClosesItself p (.connClosed 0) := by
  refine ⟨by decide, by decide, by decide, by decide, fun h => ?_, by decide, by decide, by decide, fun h => ?_⟩
  · exact absurd (h 0 (by decide)) (by decide)
  · exact absurd (h.1 (by decide) (1, "s1") (by decide)) (by decide)

end HideServer.Env.Shells
