import AiopsBackend.Db.Session

/-!
# Foreign keys

The column `user_id` of the three token tables and of `auth_audit_events` references `users.id`.
`commit` inserts without a check; `commitChecked` refuses an insert that references no stored user,
as the database does. The two agree on every unit of work that refers to stored users only, or to
those it has added itself (`RefersWithin`).
-/

namespace AiopsBackend

open Lib

/-- The user that an inserted row references. -/
def Write.references : Write → Option Uuid
  | .addRefreshToken r => some r.userId
  | .addOneTimeToken _ r => some r.userId
  | .addAudit e => e.userId
  | _ => none

/-- The user that a write adds. -/
def Write.creates : Write → Option Uuid
  | .addUser u => some u.id
  | _ => none

def Db.hasUser (db : Db) (id : Uuid) : Bool := db.users.rows.any fun u => u.id = id

/-- A write under the foreign keys. -/
def Write.tryApplyChecked (w : Write) (db : Db) : Option Db :=
  if w.references.all db.hasUser then w.tryApply db else none

/-- A commit under the foreign keys. -/
def commitChecked : List Write → Db → Option Db
  | [], db => some db
  | w :: ws, db => (w.tryApplyChecked db).bind (commitChecked ws)

/-- Every reference of a stored row names a stored user. -/
structure Db.Referential (db : Db) : Prop where
  refreshTokens : ∀ r ∈ db.refreshTokens.rows, db.hasUser r.userId = true
  oneTimeTokens : ∀ k, ∀ r ∈ (db.oneTimeTokens k).rows, db.hasUser r.userId = true
  authAuditEvents : ∀ e ∈ db.authAuditEvents, ∀ id ∈ e.userId, db.hasUser id = true

/-- The writes refer to known users, or to those that earlier writes add. -/
def RefersWithin : List Write → (Uuid → Prop) → Prop
  | [], _ => True
  | w :: ws, known =>
    (∀ id ∈ w.references, known id) ∧ RefersWithin ws fun id => known id ∨ w.creates = some id

section RefersWithin

variable {w : Write} {ws : List Write} {known known' : Uuid → Prop}

theorem RefersWithin.mono (h : RefersWithin ws known) (hknown : ∀ id, known id → known' id) :
    RefersWithin ws known' := by
  induction ws generalizing known known' with
  | nil => trivial
  | cons w ws ih =>
    refine ⟨fun id hid => hknown id (h.1 id hid), ih h.2 ?_⟩
    intro id hid
    exact hid.imp_left (hknown id)

/-- Writes that refer to known users only. -/
theorem refersWithin_of_forall (h : ∀ w ∈ ws, ∀ id ∈ w.references, known id) :
    RefersWithin ws known := by
  induction ws generalizing known with
  | nil => trivial
  | cons w ws ih =>
    refine ⟨h w List.mem_cons_self, ih ?_⟩
    intro v hv id hid
    exact .inl (h v (List.mem_cons_of_mem _ hv) id hid)

end RefersWithin

section Commit

variable {w : Write} {ws : List Write} {db db' : Db} {id : Uuid}

theorem Db.hasUser_iff : db.hasUser id = true ↔ ∃ u ∈ db.users.rows, u.id = id := by
  simp [Db.hasUser]

/-- A write keeps the stored users and adds the one it creates. -/
theorem Write.tryApply_hasUser (h : w.tryApply db = some db') :
    db'.hasUser id = true ↔ db.hasUser id = true ∨ w.creates = some id := by
  rw [Db.hasUser_iff, Db.hasUser_iff, w.tryApply_users h]
  cases w with
  | addUser u => simp [Write.onUsers, Write.creates, or_and_right, exists_or]
  | setUser id' c =>
    have hid : ∀ u : User, (if u.id = id' then c.apply u else u).id = u.id := by
      intro u
      split <;> simp
    simp [Write.onUsers, Write.creates, updateWhere, hid]
  | _ => simp [Write.onUsers, Write.creates]

/-- A row of `refresh_tokens` after a write has its user from before, or from the write. -/
theorem Write.onTokens_userId {rows : List RefreshToken} {r : RefreshToken}
    (h : r ∈ w.onTokens rows) :
    (∃ a ∈ rows, a.userId = r.userId) ∨ w.references = some r.userId := by
  cases w with
  | addRefreshToken n =>
    rcases List.mem_append.1 h with h | h
    · exact .inl ⟨r, h, rfl⟩
    · rw [List.mem_singleton.1 h]
      exact .inr rfl
  | revokeToken id t =>
    obtain ⟨a, ha, ⟨-, rfl⟩ | ⟨-, rfl⟩⟩ := mem_updateWhere.1 h
    · exact .inl ⟨a, ha, rfl⟩
    · exact .inl ⟨r, ha, rfl⟩
  | _ => exact .inl ⟨r, h, rfl⟩

theorem Write.onOneTime_userId {k : TokenKind} {rows : List OneTimeToken} {r : OneTimeToken}
    (h : r ∈ w.onOneTime k rows) :
    (∃ a ∈ rows, a.userId = r.userId) ∨ w.references = some r.userId := by
  cases w with
  | addOneTimeToken k' n =>
    change r ∈ if k' = k then rows ++ [n] else rows at h
    split at h
    · rcases List.mem_append.1 h with h | h
      · exact .inl ⟨r, h, rfl⟩
      · rw [List.mem_singleton.1 h]
        exact .inr rfl
    · exact .inl ⟨r, h, rfl⟩
  | useOneTimeToken k' id t =>
    change r ∈ if k' = k then updateWhere _ (OneTimeToken.use t) rows else rows at h
    split at h
    · obtain ⟨a, ha, ⟨-, rfl⟩ | ⟨-, rfl⟩⟩ := mem_updateWhere.1 h
      · exact .inl ⟨a, ha, rfl⟩
      · exact .inl ⟨r, ha, rfl⟩
    · exact .inl ⟨r, h, rfl⟩
  | _ => exact .inl ⟨r, h, rfl⟩

theorem Write.onAudit_userId {rows : List AuthAuditEvent} {e : AuthAuditEvent}
    (h : e ∈ w.onAudit rows) : e ∈ rows ∨ w.references = e.userId := by
  cases w with
  | addAudit a =>
    rcases List.mem_append.1 h with h | h
    · exact .inl h
    · rw [List.mem_singleton.1 h]
      exact .inr rfl
  | _ => exact .inl h

/-- A write that refers to a stored user keeps the references. -/
theorem Db.Referential.tryApply (h : db.Referential)
    (hw : ∀ id ∈ w.references, db.hasUser id = true)
    (happly : w.tryApply db = some db') : db'.Referential := by
  have hkeep : ∀ id, db.hasUser id = true → db'.hasUser id = true :=
    fun id hid => (Write.tryApply_hasUser happly).2 (.inl hid)
  refine ⟨?_, ?_, ?_⟩
  · intro r hr
    rw [Write.tryApply_refreshTokens happly] at hr
    rcases Write.onTokens_userId hr with ⟨a, ha, heq⟩ | href
    · exact hkeep _ (heq ▸ h.refreshTokens a ha)
    · exact hkeep _ (hw _ href)
  · intro k r hr
    rw [Write.tryApply_oneTimeTokens k happly] at hr
    rcases Write.onOneTime_userId hr with ⟨a, ha, heq⟩ | href
    · exact hkeep _ (heq ▸ h.oneTimeTokens k a ha)
    · exact hkeep _ (hw _ href)
  · intro e he id hid
    rw [Write.tryApply_authAuditEvents happly] at he
    rcases Write.onAudit_userId he with he | href
    · exact hkeep _ (h.authAuditEvents e he id hid)
    · exact hkeep _ (hw _ (href.trans hid))

/-- Where the writes refer to known users, the foreign keys refuse nothing. -/
theorem commitChecked_eq (h : RefersWithin ws fun id => db.hasUser id = true) :
    commitChecked ws db = commit ws db := by
  induction ws generalizing db with
  | nil => rfl
  | cons w ws ih =>
    have hfirst : w.references.all db.hasUser = true := by
      cases href : w.references with
      | none => rfl
      | some id => exact h.1 id href
    rw [commitChecked, commit, Write.tryApplyChecked, if_pos hfirst]
    cases happly : w.tryApply db with
    | none => rfl
    | some db₁ =>
      refine ih (h.2.mono ?_)
      intro id hid
      exact (Write.tryApply_hasUser happly).2 hid

theorem commit_hasUser (hc : commit ws db = some db') (hid : db.hasUser id = true) :
    db'.hasUser id = true := by
  induction ws generalizing db with
  | nil =>
    cases hc
    exact hid
  | cons w ws ih =>
    obtain ⟨db₁, hw, hrest⟩ := Option.bind_eq_some_iff.1 hc
    exact ih hrest ((Write.tryApply_hasUser hw).2 (.inl hid))

/-- And the references are kept. -/
theorem Db.Referential.commit (h : db.Referential)
    (hws : RefersWithin ws fun id => db.hasUser id = true)
    (hc : AiopsBackend.commit ws db = some db') : db'.Referential := by
  induction ws generalizing db with
  | nil =>
    cases hc
    exact h
  | cons w ws ih =>
    obtain ⟨db₁, hw, hrest⟩ := Option.bind_eq_some_iff.1 hc
    refine ih (h.tryApply hws.1 hw) (hws.2.mono ?_) hrest
    intro id hid
    exact (Write.tryApply_hasUser hw).2 hid

end Commit

end AiopsBackend
