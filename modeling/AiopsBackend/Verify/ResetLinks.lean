import AiopsBackend.Verify.OneTimeTokens
import AiopsBackend.Verify.PasswordReplaced

/-!
# Outstanding reset links

Replacing a password cancels the reset link it was replaced with and no other: neither operation
looks at the other rows of `password_reset_tokens`. So a link that was issued before stays good
until its own use or its expiry, whatever replacements come in between
(`reset_link_accepted_iff`). Good means that the service accepts it, before the commit, which a
database may refuse for the client that the audit event names.
-/

namespace AiopsBackend

open Lib Svc

section Runs

variable {P : Platform} {w w' : World} {es : List Event} {token : String} {kind : TokenKind}
  {r : OneTimeToken}

/-- The owner of a token stays, wherever the run goes. -/
theorem owner_of_run {row : User} (hrow : row ∈ w.db.users.rows)
    (hs : Run (OpaqueStep P) w es w') : ∃ row' ∈ w'.db.users.rows, row'.id = row.id := by
  refine hs.invariant (fun w => ∃ row' ∈ w.db.users.rows, row'.id = row.id) ?_ ⟨row, hrow, rfl⟩
  intro s e s' hI hstep
  obtain ⟨row₁, hrow₁, hid₁⟩ := hI
  obtain ⟨row₂, hrow₂, hid₂⟩ := hstep.1.transition.user_persists hrow₁
  exact ⟨row₂, hrow₂, hid₂.trans hid₁⟩

/-- Where a token stands unused, it is accepted exactly until its own acceptance or its expiry. -/
theorem Stands.accepted_after_iff {row : User} {w'' : World} {a : Event} {c : UserChange}
    (h : Stands P w token kind r) (hfree : r.usedAt = none) (hrow : row ∈ w.db.users.rows)
    (hid : row.id = r.userId) (hs : Run (OpaqueStep P) w es w') (ha : Step P w' a w'')
    (hop : a.op.confirmed? P a.env = some (kind, token, c)) : a.accepts token = true ↔
      (∀ b ∈ es, b.accepts token = false) ∧ a.env.utcnow 0 < r.expiresAt := by
  obtain ⟨r', h', hd⟩ := h.run hs
  obtain ⟨row', hrow', hid'⟩ := owner_of_run hrow hs
  have howner : row'.id = r'.userId := hid'.trans (hid.trans hd.userId_eq.symm)
  rw [h'.accepts_iff hrow' howner ha hop, h.unused_run_iff hs hfree, hd.expiresAt_eq]
  constructor
  · intro hx
    refine ⟨?_, hx.2⟩
    rcases hd with rfl | ⟨-, t, rfl⟩
    · exact h'
    · cases hx.1
  · intro hx
    refine ⟨?_, hx.2⟩
    obtain ⟨-, rfl⟩ := h'.only kind r hx.1.stored h.tokenHash
    exact hfree

variable {w₁ w₂ w₃ w₄ : World} {e a : Event} {mid : List Event} {row : User} {expiresAt : Int}

/-- In every run with fresh tokens, whatever happens after a reset link was issued (password
replacements by either operation included), the service accepts the link exactly when it has not
accepted it before and it has not expired. -/
theorem reset_link_accepted_iff (he : OpaqueStep P w₁ e w₂)
    (hreq : Requested P w₁ e .passwordReset row token expiresAt)
    (hmid : Run (OpaqueStep P) w₂ mid w₃) (ha : Step P w₃ a w₄) {newPassword : String}
    (hop : a.op = .pub (.passwordResetConfirm token newPassword)) :
    (∃ reply, a.result = .ok reply) ↔
      (∀ b ∈ mid, b.accepts token = false) ∧ a.env.utcnow 0 < expiresAt := by
  obtain ⟨-, r, hst, hfree, huser, rfl⟩ := hreq.stands he
  obtain ⟨row', hrow', hid'⟩ := he.1.transition.user_persists hreq.user
  have hconfirmed : a.op.confirmed? P a.env =
      some (.passwordReset, token, .passwordHash (hashPassword P a.env newPassword)) := by
    rw [hop]
    rfl
  rw [← hst.accepted_after_iff hfree hrow' (hid'.trans huser.symm) hmid ha hconfirmed,
    Event.accepts_iff]
  constructor
  · intro hok
    exact ⟨presents?_of_confirmed? hconfirmed, hok⟩
  · exact fun hacc => hacc.2

end Runs

/-! ## Links that outlive a replacement -/

/-- A reset link is issued to the user, a call of `op` replaces the password, and the link is
accepted after it. -/
def LinkOutlives (P : Platform) (w : World) (userId : Uuid) (op : Op) : Prop :=
  ∃ e w₁ row token expiresAt, OpaqueStep P w e w₁ ∧
    Requested P w e .passwordReset row token expiresAt ∧ row.id = userId ∧
    ∃ b w₂, OpaqueStep P w₁ b w₂ ∧ b.op = op ∧ Replaces P userId w₁ b ∧
    ∃ a w₃ newPassword, OpaqueStep P w₂ a w₃ ∧
      a.op = .pub (.passwordResetConfirm token newPassword) ∧ ∃ reply, a.result = .ok reply

/-- The event of Alice's request for a reset link. -/
def aliceRequest : Event where
  env := linkEnv 1 "link"
  op := .pub (.passwordResetRequest "alice@example.com")
  result := .ok (.emailed (some "link"))

theorem alice_requests : ∃ w₁, OpaqueStep Platform.reference aliceWorld aliceRequest w₁ ∧
    w₁.now = seconds 1 ∧ w₁.db.users.rows = [alice] ∧
    Requested Platform.reference aliceWorld aliceRequest .passwordReset alice "link"
      (seconds 1 + minutes Platform.reference.passwordResetExpireMinutes) := by
  have hop : (PublicOp.passwordResetRequest "alice@example.com").emailed? Platform.reference =
      some (.passwordReset, _, _, _, _) := rfl
  refine Step.requested (linkEnv 1 "link") {} ?_ hop List.mem_cons_self rfl ?_ ?_
  · decide
  · intro r hr
    rw [List.mem_singleton.1 hr]
    decide
  · exact alice_token_fresh (by decide)

/-- After any step that does not accept it, Alice's link is accepted. -/
theorem alice_link_accepted {w₁ w₂ : World} {b : Event}
    (he : OpaqueStep Platform.reference aliceWorld aliceRequest w₁)
    (hreq : Requested Platform.reference aliceWorld aliceRequest .passwordReset alice "link"
      (seconds 1 + minutes Platform.reference.passwordResetExpireMinutes))
    (hb : OpaqueStep Platform.reference w₁ b w₂) (hnot : b.accepts "link" = false)
    (hnow : w₂.now = seconds 2) : ∃ a w₃, OpaqueStep Platform.reference w₂ a w₃ ∧
      a.op = .pub (.passwordResetConfirm "link" "third password") ∧
      ∃ reply, a.result = .ok reply := by
  have hstart : w₂.now ≤ (linkEnv 3 "").clock.lo := by
    rw [hnow]
    decide
  obtain ⟨result, w₃, hs, -⟩ := Step.exists Platform.reference {}
    (.pub (.passwordResetConfirm "link" "third password")) hstart
  refine ⟨_, w₃, ⟨hs, nofun⟩, rfl, (reset_link_accepted_iff he hreq (.single hb) hs rfl).2 ⟨?_, ?_⟩⟩
  · intro a ha
    rw [List.mem_singleton.1 ha]
    exact hnot
  · change (linkEnv 3 "").utcnow 0 < _
    decide

/-- Alice's link works after she has changed her password, and after she has reset it with
another link. -/
theorem alice_link_outlives :
    LinkOutlives Platform.reference aliceWorld alice.id
      (.me alice.id (.changePassword "old password" "new password")) ∧
    LinkOutlives Platform.reference aliceWorld alice.id
      (.pub (.passwordResetConfirm "reset token" "new password")) := by
  obtain ⟨w₁, he, hnow, husers, hreq⟩ := alice_requests
  have hstart : w₁.now ≤ (linkEnv 2 "").clock.lo := by
    rw [hnow]
    decide
  have hrow : alice ∈ w₁.db.users.rows := by
    rw [husers]
    exact List.mem_cons_self
  refine ⟨?_, ?_⟩
  · obtain ⟨w₂, hb⟩ := Step.of_changePassword (linkEnv 2 "") {} hstart hrow alice_password
      (show "old password" ≠ "new password" by decide)
    obtain ⟨a, w₃, ha, hop, hok⟩ := alice_link_accepted he hreq ⟨hb, nofun⟩ rfl hb.stop
    exact ⟨_, w₁, _, _, _, he, hreq, rfl, _, w₂, ⟨hb, nofun⟩, rfl,
      ⟨Or.inl ⟨_, _, rfl⟩, _, rfl⟩, a, w₃, _, ha, hop, hok⟩
  · -- the link that Alice had before
    have hfirst : Stands Platform.reference aliceWorld "reset token" .passwordReset aliceReset := by
      refine ⟨List.mem_cons_self, rfl, ?_⟩
      intro k r hr _
      cases k with
      | emailVerification => cases hr
      | passwordReset => exact ⟨rfl, List.mem_singleton.1 hr⟩
    have hsecond := hfirst.step_of_not_accepted he rfl
    obtain ⟨db₂, hb, -⟩ := Step.resetPassword (linkEnv 2 "") {} "new password" hstart
      (hsecond.filter_usable rfl (by decide)) hrow rfl
    obtain ⟨a, w₃, ha, hop, hok⟩ := alice_link_accepted he hreq ⟨hb, nofun⟩ rfl hb.stop
    refine ⟨_, w₁, _, _, _, he, hreq, rfl, _, _, ⟨hb, nofun⟩, rfl, ⟨Or.inr ?_, _, rfl⟩, a, w₃, _,
      ha, hop, hok⟩
    exact ⟨_, _, rfl, aliceReset, hsecond.stored, usable_iff.2 ⟨rfl, rfl, by decide⟩, rfl⟩

/-- Alice's link is good after she has changed her password. -/
theorem alice_link_good : ∃ w₁ b w₂ a w₃,
    OpaqueStep Platform.reference aliceWorld aliceRequest w₁ ∧
    OpaqueStep Platform.reference w₁ b w₂ ∧ Replaces Platform.reference alice.id w₁ b ∧
    Step Platform.reference w₂ a w₃ ∧ (∃ reply, a.result = .ok reply) ∧
    a.op = .pub (.passwordResetConfirm "link" "third password") := by
  obtain ⟨w₁, he, hnow, husers, hreq⟩ := alice_requests
  have hstart : w₁.now ≤ (linkEnv 2 "").clock.lo := by
    rw [hnow]
    decide
  have hrow : alice ∈ w₁.db.users.rows := by
    rw [husers]
    exact List.mem_cons_self
  obtain ⟨w₂, hb⟩ := Step.of_changePassword (linkEnv 2 "") {} hstart hrow alice_password
    (show "old password" ≠ "new password" by decide)
  have hlater : w₂.now ≤ (linkEnv 3 "").clock.lo := by
    rw [hb.stop]
    decide
  obtain ⟨result, w₃, ha, -⟩ := Step.exists Platform.reference {}
    (.pub (.passwordResetConfirm "link" "third password")) hlater
  refine ⟨w₁, _, w₂, _, w₃, he, ⟨hb, nofun⟩, ⟨Or.inl ⟨_, _, rfl⟩, _, rfl⟩, ha,
    (reset_link_accepted_iff he hreq (.single ⟨hb, nofun⟩) ha rfl).2 ⟨?_, ?_⟩, rfl⟩
  · intro b hb'
    rw [List.mem_singleton.1 hb']
    rfl
  · change (linkEnv 3 "").utcnow 0 < _
    decide

end AiopsBackend
