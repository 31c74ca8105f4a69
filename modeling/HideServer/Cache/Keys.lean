import HideServer.Gateway.Socket

/-!
# The keys that expire

A key is announced as a string and taken apart at its colons. If the ids contain none, a session key
has three parts and the key of a workspace four or more.
-/

namespace HideServer.Cache

open Async Async.Prog Gateway

variable {uid sessionId sessionId' wsUuid : String}

/-- An id without a colon. -/
def Plain (id : String) : Prop := ':' ∉ id.toList

instance : DecidablePred Plain := fun _ => inferInstanceAs (Decidable (¬_))

theorem split_ne_nil (key : String) : split key ≠ [] := by
  simp [split]

theorem split_append (left right : String) : split (left ++ ":" ++ right) = split left ++ split right := by
  have hcolon : ":".toList = [':'] := rfl
  simp only [split, String.toList_append, hcolon, List.append_assoc, List.singleton_append,
    List.splitOn_append_cons_self, List.map_append]

theorem split_plain {id : String} (hplain : Plain id) : split id = [id] := by
  simp only [split]
  rw [List.splitOn_eq_singleton hplain]
  simp

theorem eq_of_split {key part : String} (h : split key = [part]) : key = part := by
  obtain ⟨chars, hchars, rfl⟩ := List.map_eq_singleton_iff.mp h
  have hkey : [':'].intercalate (key.toList.splitOn ':') = key.toList := List.intercalate_splitOn ':'
  rw [hchars] at hkey
  simpa [String.ext_iff] using hkey.symm

theorem not_mem_of_mem_splitOn (chars : List Char) : ∀ part ∈ chars.splitOn ':', ':' ∉ part := by
  induction chars with
  | nil => simp
  | cons first chars ih =>
    rw [List.splitOn_cons_eq_if_modifyHead]
    split_ifs with hcolon
    · exact List.forall_mem_cons.mpr ⟨List.not_mem_nil, ih⟩
    · have hfirst : ':' ≠ first := fun heq => hcolon (beq_iff_eq.mpr heq.symm)
      cases hparts : chars.splitOn ':' with
      | nil => simp
      | cons part parts =>
        obtain ⟨hpart, hrest⟩ := List.forall_mem_cons.mp (hparts ▸ ih)
        exact List.forall_mem_cons.mpr ⟨List.not_mem_cons_of_ne_of_not_mem hfirst hpart, hrest⟩

theorem plain_of_mem_split {key part : String} (h : part ∈ split key) : Plain part := by
  obtain ⟨chars, hchars, rfl⟩ := List.mem_map.mp h
  simpa [Plain] using not_mem_of_mem_splitOn key.toList chars hchars

theorem plain_rendered (key : String) (i : Nat) : Plain (rendered (split key).tail[i]?) := by
  cases hpart : (split key).tail[i]? with
  | none => decide
  | some part => exact plain_of_mem_split (List.mem_of_mem_tail (List.mem_of_getElem? hpart))

theorem split_presenceSession (uid sessionId : String) :
    split (presenceSession uid sessionId) = "presence" :: (split uid ++ split sessionId) := by
  have hrender : presenceSession uid sessionId = "presence" ++ ":" ++ (uid ++ ":" ++ sessionId) := by
    simp [presenceSession, String.append_assoc]
  rw [hrender, split_append, split_append, split_plain (by decide)]
  rfl

theorem split_presenceWorkspace (uid sessionId wsUuid : String) :
    split (presenceWorkspace uid sessionId wsUuid) =
      "presence" :: (split uid ++ (split sessionId ++ split wsUuid)) := by
  have hrender : presenceWorkspace uid sessionId wsUuid = presenceSession uid sessionId ++ ":" ++ wsUuid := rfl
  rw [hrender, split_append, split_presenceSession, List.cons_append, List.append_assoc]

variable {uid' : String}

theorem presenceSession_inj (huid : Plain uid) (hsession : Plain sessionId)
    (h : presenceSession uid' sessionId' = presenceSession uid sessionId) : uid' = uid ∧ sessionId' = sessionId := by
  have hparts := congrArg split h
  rw [split_presenceSession, split_presenceSession, split_plain huid, split_plain hsession, List.cons_inj_right] at hparts
  cases hleft : split uid' with
  | nil => exact absurd hleft (split_ne_nil uid')
  | cons first rest =>
    cases rest with
    | nil =>
      rw [hleft] at hparts
      obtain ⟨rfl, hright⟩ := List.cons.inj hparts
      exact ⟨eq_of_split hleft, eq_of_split hright⟩
    | cons second rest =>
      rw [hleft] at hparts
      have hright : rest ++ split sessionId' = [] := (List.cons.inj (List.cons.inj hparts).2).2
      exact absurd (List.append_eq_nil_iff.mp hright).2 (split_ne_nil sessionId')

theorem presenceWorkspace_ne (huid : Plain uid) (hsession : Plain sessionId) :
    presenceWorkspace uid' sessionId' wsUuid ≠ presenceSession uid sessionId := by
  intro h
  have hparts := congrArg List.length (congrArg split h)
  rw [split_presenceWorkspace, split_presenceSession, split_plain huid, split_plain hsession] at hparts
  have hfirst := List.length_pos_of_ne_nil (split_ne_nil uid')
  have hsecond := List.length_pos_of_ne_nil (split_ne_nil sessionId')
  have hthird := List.length_pos_of_ne_nil (split_ne_nil wsUuid)
  simp only [List.length_cons, List.length_append, List.length_nil] at hparts
  omega

theorem getLast?_split_presenceWorkspace (hplain : Plain wsUuid) :
    (split (presenceWorkspace uid sessionId wsUuid)).getLast? = some wsUuid := by
  rw [split_presenceWorkspace, split_plain hplain, ← List.append_assoc, ← List.cons_append, List.getLast?_concat]

theorem presenceWorkspace_inj {uid' wsUuid' : String} (hplain : Plain wsUuid) (hplain' : Plain wsUuid')
    (h : presenceWorkspace uid sessionId wsUuid = presenceWorkspace uid' sessionId' wsUuid') : wsUuid = wsUuid' := by
  apply Option.some.inj
  rw [← getLast?_split_presenceWorkspace hplain, h, getLast?_split_presenceWorkspace hplain']

/-- The key of the session makes the handler look after that session, and the key of the workspace after that
workspace. -/
structure Decodes (t : Timeouts) (disposed : Bool) (uid sessionId wsUuid : String) : Prop where
  session : handleStaleKey t (presenceSession uid sessionId) disposed = handleStaleSession t uid sessionId disposed
  workspace : handleStaleKey t (presenceWorkspace uid sessionId wsUuid) disposed =
    handleStaleWorkspace t uid sessionId wsUuid disposed

theorem head_split (id : String) : (split id).head? = some id ↔ Plain id := by
  constructor
  · intro hhead hcolon
    obtain ⟨left, right, hid, hleft⟩ := List.eq_append_cons_of_mem hcolon
    have happend : id = String.ofList left ++ ":" ++ String.ofList right := by
      simp [String.ext_iff, hid]
    have hplain : Plain (String.ofList left) := by simpa [Plain] using hleft
    rw [happend, split_append, split_plain hplain] at hhead
    simp [String.ext_iff] at hhead
  · intro hplain
    rw [split_plain hplain]
    rfl

theorem handleStaleKey_presenceSession (t : Timeouts) (uid sessionId : String) (disposed : Bool) :
    handleStaleKey t (presenceSession uid sessionId) disposed =
      handleStalePresence t (split uid ++ split sessionId) disposed := by
  rw [handleStaleKey, split_presenceSession]
  rfl

theorem handleStaleKey_presenceWorkspace (t : Timeouts) (uid sessionId wsUuid : String) (disposed : Bool) :
    handleStaleKey t (presenceWorkspace uid sessionId wsUuid) disposed =
      handleStalePresence t (split uid ++ (split sessionId ++ split wsUuid)) disposed := by
  rw [handleStaleKey, split_presenceWorkspace]
  rfl

theorem handleStaleSession_ne_workspace (t : Timeouts)
    (uid sessionId uid' sessionId' wsUuid : String) (disposed : Bool) :
    handleStaleSession t uid sessionId disposed ≠ handleStaleWorkspace t uid' sessionId' wsUuid disposed := by
  intro h
  have hhead := congrArg head? h
  cases hhead

variable {disposed : Bool} {t : Timeouts}

theorem handleStaleSession_inj
    (h : handleStaleSession t uid sessionId disposed = handleStaleSession t uid' sessionId' disposed) :
    uid = uid' ∧ sessionId = sessionId' := by
  have huid := Cmd.getPresence.inj (await.inj h).1
  refine ⟨huid, ?_⟩
  by_contra hsession
  -- where only the first session is there, and about to be removed, the second finds nothing to do
  let presence : CachedPresence := Dict.empty.set sessionId ⟨.inactive, "", "", none⟩
  let w : World := { World.empty with presence := fun _ => some presence }
  have hcalls := congrArg (fun p => (calls exec p w)[1]?) h
  simp [handleStaleSession, handleSessionExpiry, exec, w, presence, Dict.get?_set, Ne.symm hsession] at hcalls

theorem handleStaleWorkspace_inj {uid' wsUuid' : String} (h : handleStaleWorkspace t uid sessionId wsUuid disposed =
      handleStaleWorkspace t uid' sessionId' wsUuid' disposed) :
    wsUuid = wsUuid' :=
  Cmd.getWorkspace.inj (await.inj h).1

theorem parts_of_session {parts : List String}
    (h : handleStalePresence t parts disposed = handleStaleSession t uid sessionId disposed) :
    rendered parts[0]? = uid ∧ rendered parts[1]? = sessionId := by
  unfold handleStalePresence at h
  cases hws : given parts[2]? with
  | none =>
    rw [hws] at h
    exact handleStaleSession_inj h
  | some wsUuid =>
    rw [hws] at h
    exact (handleStaleSession_ne_workspace _ _ _ _ _ _ _ h.symm).elim

theorem parts_of_workspace {parts : List String}
    (h : handleStalePresence t parts disposed = handleStaleWorkspace t uid sessionId wsUuid disposed) :
    given parts[2]? = some wsUuid := by
  unfold handleStalePresence at h
  cases hws : given parts[2]? with
  | none =>
    rw [hws] at h
    exact (handleStaleSession_ne_workspace _ _ _ _ _ _ _ h).elim
  | some found =>
    rw [hws] at h
    rw [handleStaleWorkspace_inj h]

theorem getElem?_split_append (id : String) (parts : List String) : (split id ++ parts)[0]? = (split id).head? := by
  cases hsplit : split id with
  | nil => exact absurd hsplit (split_ne_nil id)
  | cons first rest => rfl

theorem rendered_head_split {id : String} (h : rendered (split id).head? = id) : Plain id := by
  rw [← head_split]
  cases hsplit : split id with
  | nil => exact absurd hsplit (split_ne_nil id)
  | cons first rest =>
    rw [hsplit] at h
    exact congrArg some h

theorem plain_of_parts (hfirst : rendered (split uid ++ split sessionId)[0]? = uid)
    (hsecond : rendered (split uid ++ split sessionId)[1]? = sessionId) : Plain uid ∧ Plain sessionId := by
  rw [getElem?_split_append] at hfirst
  have huid := rendered_head_split hfirst
  rw [split_plain huid, List.singleton_append, List.getElem?_cons_succ, ← List.head?_eq_getElem?] at hsecond
  exact ⟨huid, rendered_head_split hsecond⟩

theorem decodes_session_iff (t : Timeouts) (disposed : Bool) (uid sessionId : String) :
    handleStaleKey t (presenceSession uid sessionId) disposed = handleStaleSession t uid sessionId disposed ↔
      Plain uid ∧ Plain sessionId := by
  rw [handleStaleKey_presenceSession]
  constructor
  · intro hruns
    obtain ⟨hfirst, hsecond⟩ := parts_of_session hruns
    exact plain_of_parts hfirst hsecond
  · intro ⟨huid, hsession⟩
    rw [split_plain huid, split_plain hsession]
    rfl

theorem decodes_iff (t : Timeouts) (disposed : Bool) (uid sessionId wsUuid : String) :
    Decodes t disposed uid sessionId wsUuid ↔ Plain uid ∧ Plain sessionId ∧ Plain wsUuid ∧ wsUuid ≠ "" := by
  constructor
  · intro ⟨hsession, hworkspace⟩
    obtain ⟨huid, hsession⟩ := (decodes_session_iff t disposed uid sessionId).mp hsession
    rw [handleStaleKey_presenceWorkspace, split_plain huid, split_plain hsession] at hworkspace
    have hgiven : given (split wsUuid).head? = some wsUuid := by
      simpa [List.head?_eq_getElem?] using parts_of_workspace hworkspace
    obtain ⟨hhead, hne⟩ := Option.filter_eq_some_iff.mp hgiven
    exact ⟨huid, hsession, (head_split wsUuid).mp hhead, of_decide_eq_true hne⟩
  · intro ⟨huid, hsession, hws, hne⟩
    refine ⟨(decodes_session_iff t disposed uid sessionId).mpr ⟨huid, hsession⟩, ?_⟩
    have hgiven : given ([uid] ++ ([sessionId] ++ [wsUuid]))[2]? = some wsUuid := by
      simp [given, Option.filter, hne]
    rw [handleStaleKey_presenceWorkspace, split_plain huid, split_plain hsession, split_plain hws,
      handleStalePresence, hgiven]
    rfl

/-- A session that calls itself by the name of another and of a workspace acts on that workspace. -/
theorem decodes_forged :
    handleStaleKey .default (presenceSession "mallory" "s1:w1") true =
        handleStaleWorkspace .default "mallory" "s1" "w1" true ∧
      ¬Decodes .default true "mallory" "s1:w1" "w2" := by
  have hruns : handleStaleKey .default (presenceSession "mallory" "s1:w1") true =
      handleStaleWorkspace .default "mallory" "s1" "w1" true := by
    rfl
  refine ⟨hruns, fun hdecodes => ?_⟩
  exact handleStaleSession_ne_workspace _ _ _ _ _ _ _ (hdecodes.session.symm.trans hruns)

end HideServer.Cache
