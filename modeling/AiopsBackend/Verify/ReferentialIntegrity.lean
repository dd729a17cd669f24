import AiopsBackend.Concurrency
import AiopsBackend.Db.ForeignKeys
import AiopsBackend.Lib.Guarded
import AiopsBackend.Verify.UserChanges
import AiopsBackend.Verify.RegistrationRace

/-!
# The foreign keys hold by themselves

No service checks that a user it writes a row for still exists, and the store of this development
does not check it either. It need not: requests refer to users that they have read or have just
added, and no request removes one. So the database with its foreign keys goes through the same
interleavings, and never refuses a row for them (`foreign_keys_harmless`).
-/

namespace AiopsBackend

open Lib

section Effects

variable {P : Platform} {env : Env} {client : ClientContext} {db : Db} {op : Op} {reply : Reply}
  {ws : List Write}

theorem Db.hasUser_of_mem {u : User} (h : u ∈ db.users.rows) : db.hasUser u.id = true :=
  Db.hasUser_iff.2 ⟨u, h, rfl⟩

/-- A bulk revocation writes one row, for its actor or its user. -/
theorem bulkWrites_references {userId id : Uuid} {exceptJti : Option String}
    {actorUserId : Option Uuid} {auditType : AuditEventType} {detail : String} {w : Write}
    (hw : w ∈ bulkWrites env client db userId exceptJti actorUserId auditType detail)
    (hid : id ∈ w.references) : id = actorUserId.getD userId := by
  rcases List.mem_append.1 hw with hw | hw
  · obtain ⟨r, -, rfl⟩ := List.mem_map.1 hw
    cases hid
  · unfold bulkAudit at hw
    split at hw
    · rw [List.mem_singleton.1 hw] at hid
      exact (Option.some.inj hid).symm
    · cases hw

/-- An update of an account writes audit rows for its actor alone. -/
theorem adminUpdateWrites_references {actor target : User} {payload : AdminUserUpdateRequest}
    {id : Uuid} {w : Write} (hw : w ∈ adminUpdateWrites P env client db actor target payload)
    (hid : id ∈ w.references) : id = actor.id := by
  simp only [adminUpdateWrites, detailWrites, List.mem_append, List.mem_singleton] at hw
  rcases hw with ((hw | hw) | hw | hw) | rfl
  · unfold roleWrites at hw
    split at hw
    · rw [List.mem_singleton.1 hw] at hid
      cases hid
    · cases hw
  · unfold activationWrites at hw
    split at hw
    · cases hw
    split at hw
    · simp only [List.mem_cons, List.not_mem_nil, or_false] at hw
      rcases hw with rfl | rfl <;> cases hid
    · simp only [List.mem_cons] at hw
      rcases hw with rfl | rfl | hw
      · cases hid
      · cases hid
      · exact bulkWrites_references hw hid
  · obtain ⟨v, -, rfl⟩ := Option.map_eq_some_iff.1 (Option.mem_toList.1 hw)
    cases hid
  · obtain ⟨v, -, rfl⟩ := Option.map_eq_some_iff.1 (Option.mem_toList.1 hw)
    cases hid
  · exact (Option.some.inj hid).symm

/-- The writes of a call refer to users that it found or adds. -/
theorem Effect.refersWithin (h : Effect P env client db op reply ws) (hdb : db.Referential) :
    RefersWithin ws fun id => db.hasUser id = true := by
  cases h with
  | register =>
    refine ⟨fun _ hid => (Option.not_mem_none _ hid).elim, fun id hid => .inr ?_, trivial⟩
    exact hid
  | login hrow =>
    refine refersWithin_of_forall ?_
    simp [loginWrites, Write.references, auditWrite, newSession, authenticated, User.fetched,
      Db.hasUser_of_mem hrow]
  | refresh hp =>
    refine refersWithin_of_forall ?_
    simp [rotationWrites, Write.references, auditWrite, newSession, User.fetched,
      Db.hasUser_of_mem hp.user]
  | logout hn =>
    refine refersWithin_of_forall ?_
    simp [logoutWrites, Write.references, auditWrite, hdb.refreshTokens _ hn.stored]
  | emailed _ hrow =>
    refine refersWithin_of_forall ?_
    simp [newOneTimeToken, Write.references, auditWrite, Db.hasUser_of_mem hrow]
  | verifyEmail _ hrow =>
    refine refersWithin_of_forall ?_
    simp [Write.references, auditWrite, Db.hasUser_of_mem hrow]
  | resetPassword _ hrow =>
    refine refersWithin_of_forall ?_
    simp [Write.references, auditWrite, Db.hasUser_of_mem hrow]
  | patchMe hrow =>
    refine refersWithin_of_forall ?_
    intro w hw id hid
    rcases List.mem_append.1 hw with hw | hw
    · obtain ⟨name, -, rfl⟩ := Option.map_eq_some_iff.1 (Option.mem_toList.1 hw)
      cases hid
    · rw [List.mem_singleton.1 hw] at hid
      exact Option.some.inj hid ▸ Db.hasUser_of_mem hrow
  | changePassword hrow =>
    refine refersWithin_of_forall ?_
    intro w hw id hid
    simp only [passwordWrites, List.mem_cons, List.mem_append, List.not_mem_nil, or_false] at hw
    rcases hw with rfl | rfl | hw | rfl
    · cases hid
    · cases hid
    · rw [bulkWrites_references hw hid]
      exact Db.hasUser_of_mem hrow
    · exact Option.some.inj hid ▸ Db.hasUser_of_mem hrow
  | deactivateMe hrow =>
    refine refersWithin_of_forall ?_
    intro w hw id hid
    simp only [deactivateWrites, List.mem_cons, List.mem_append, List.not_mem_nil, or_false] at hw
    rcases hw with rfl | rfl | hw | rfl
    · cases hid
    · cases hid
    · rw [bulkWrites_references hw hid]
      exact Db.hasUser_of_mem hrow
    · exact Option.some.inj hid ▸ Db.hasUser_of_mem hrow
  | deleteMySession hrow =>
    refine refersWithin_of_forall ?_
    simp [revokeSessionWrites, Write.references, auditWrite, Db.hasUser_of_mem hrow]
  | revokeAllMySessions hrow =>
    refine refersWithin_of_forall ?_
    intro w hw id hid
    rw [bulkWrites_references hw hid]
    exact Db.hasUser_of_mem hrow
  | updateUser _ hactor htarget =>
    refine refersWithin_of_forall ?_
    intro w hw id hid
    rw [adminUpdateWrites_references hw hid]
    exact Db.hasUser_of_mem hactor
  | unlockUser hactor =>
    refine refersWithin_of_forall ?_
    simp [unlockWrites, Write.references, auditWrite, Db.hasUser_of_mem hactor]
  | revokeUserSessions hactor =>
    refine refersWithin_of_forall ?_
    intro w hw id hid
    rw [bulkWrites_references hw hid]
    exact Db.hasUser_of_mem hactor
  | _ => trivial

/-- What is not sent refers to no user and adds none. -/
theorem RefersWithin.flush {known : Uuid → Prop} {rows : List User} (h : RefersWithin ws known) :
    RefersWithin (flush rows ws) known := by
  induction ws generalizing known rows with
  | nil => exact h
  | cons w ws ih =>
    unfold AiopsBackend.flush
    split
    · rename_i hidle
      cases w with
      | setUser id c => exact ih (h.2.mono fun id hid => hid.resolve_right fun h => by cases h)
      | _ => cases hidle
    · exact ⟨h.1, ih h.2⟩

end Effects

/-! ## Interleaved requests -/

section Interleavings

variable {ι : Type} {P : Platform} {calls : ι → HttpCall} {db : Db}

/-- The references are closed, and all users of `db` are still there. -/
def Db.Kept (db x : Db) : Prop :=
  x.Referential ∧ ∀ id, db.hasUser id = true → x.hasUser id = true

/-- The foreign keys refuse no unit of work of a request, whatever else commits before it. -/
theorem requests_harmless (P : Platform) (calls : ι → HttpCall) (db : Db) :
    Harmless (httpTransactions P calls) commitChecked db.Kept
      fun ws x => RefersWithin ws fun id => x.hasUser id = true where
  read hx hread := by
    obtain ⟨r, s, hrun, rfl⟩ := httpTransactions_read.1 hread
    obtain ⟨env', op, ws, -, rfl, heff⟩ := Request.svc_ok hrun
    exact (heff.refersWithin hx.1).flush
  same _ hws := commitChecked_eq hws
  keep hx hws hc := ⟨hx.1.commit hws hc, fun id hid => commit_hasUser hc (hx.2 id hid)⟩
  stays _ hws _ hc := hws.mono fun _ hid => commit_hasUser hc hid

variable [DecidableEq ι] {es : List (Act ι)}

/-- With and without its foreign keys the database goes through the same interleavings of requests.
In every store reached each reference names a stored user, and no user has been removed. -/
theorem foreign_keys_harmless (hdb : db.Referential) {s : Interleaved ι Db (List Write)} :
    (Run ((httpTransactions P calls).withApply commitChecked).Step (Transactions.start db) es s ↔
      Run (httpTransactions P calls).Step (Transactions.start db) es s) ∧
    (Run (httpTransactions P calls).Step (Transactions.start db) es s →
      s.store.Referential ∧ ∀ id, db.hasUser id = true → s.store.hasUser id = true) := by
  have hkept : db.Kept db := ⟨hdb, fun _ hid => hid⟩
  exact ⟨(requests_harmless P calls db).run_iff hkept,
    (requests_harmless P calls db).run_store hkept⟩

end Interleavings

/-- The two registrations of one address, under the foreign keys. -/
theorem registrations_referential : ∃ s,
    Run ((httpTransactions Platform.reference registrationCalls).withApply commitChecked).Step
      (Transactions.start {}) [.read false, .read true, .finish false, .finish true] s ∧
    s.store.Referential := by
  have hempty : ({} : Db).Referential :=
    ⟨fun _ hr => absurd hr List.not_mem_nil,
      fun k => by cases k <;> exact fun _ hr => absurd hr List.not_mem_nil,
      fun _ he => absurd he List.not_mem_nil⟩
  obtain ⟨s, hrun⟩ := Transactions.exists_overlap
    (httpTransactions Platform.reference registrationCalls) {} Bool.false_ne_true
  exact ⟨s, (foreign_keys_harmless hempty).1.2 hrun, ((foreign_keys_harmless hempty).2 hrun).1⟩

end AiopsBackend
