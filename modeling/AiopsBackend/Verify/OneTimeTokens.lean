import AiopsBackend.Verify.Progress

/-!
# Emailed one-time tokens

The verification and reset tokens live in two tables and are looked up by hash alone. A call leaves
both tables alone, appends the row of a token it hands out, or marks the one row it accepts
(`OneTimeStep`). When every token that is handed out is fresh (`OpaqueStep`), its hash has at most
one row over both tables (`HasOneRow`), which says whose it is, of which kind and until when; so
a token is accepted at most once, by its own confirm operation and for its own user
(`emailed_token_contract`).
-/

namespace AiopsBackend

open Lib Svc

/-- What a confirm operation does: the kind and the token it is given, and the column it sets. -/
def Op.confirmed? (P : Platform) (env : Env) : Op → Option (TokenKind × String × UserChange)
  | .pub (.verifyEmailConfirm token) => some (.emailVerification, token, .isVerified true)
  | .pub (.passwordResetConfirm token newPassword) =>
    some (.passwordReset, token, .passwordHash (hashPassword P env newPassword))
  | _ => none

/-- The token that a confirm operation is given. -/
def Op.presents? : Op → Option String
  | .pub (.verifyEmailConfirm token) => some token
  | .pub (.passwordResetConfirm token _) => some token
  | _ => none

def Op.emailed? (P : Platform) : Op → Option (TokenKind × Int × AuditEventType × String × String)
  | .pub op => op.emailed? P
  | _ => none

/-- The call is a confirm operation that was given the token and returned. -/
def Event.accepts (token : String) (e : Event) : Bool :=
  e.op.presents? = some token && match e.result with
    | .ok _ => true
    | .error _ => false

/-- The random token that a request draws is fresh: no row of either table has its hash. -/
def DrawsFresh (P : Platform) (w : World) (e : Event) : Prop :=
  (e.op.emailed? P).isSome → ∀ k, ∀ r ∈ (w.db.oneTimeTokens k).rows,
    r.tokenHash ≠ hashToken P (generateOpaqueToken e.env)

/-- A step that draws only fresh tokens. -/
def OpaqueStep (P : Platform) (w : World) (e : Event) (w' : World) : Prop :=
  Step P w e w' ∧ DrawsFresh P w e

/-- The call returns an emailed token of the kind to the user, with this expiry. -/
structure Requested (P : Platform) (w : World) (e : Event) (kind : TokenKind) (row : User)
    (token : String) (expiresAt : Int) : Prop where
  op : ∃ lifetime event detail email,
    e.op.emailed? P = some (kind, lifetime, event, detail, email) ∧ row.email = P.lower email ∧
      expiresAt = e.env.utcnow 0 + lifetime
  user : row ∈ w.db.users.rows
  result : e.result = .ok (.emailed (some token))

/-! ## Folding the writes -/

/-- The rows of one table of emailed tokens after a list of writes. -/
def oneTimeAfter (k : TokenKind) (ws : List Write) (rows : List OneTimeToken) : List OneTimeToken :=
  ws.foldl (fun rows w => w.onOneTime k rows) rows

/-- The write leaves the tables of emailed tokens alone. -/
def Write.keepsOneTime : Write → Bool
  | .addOneTimeToken _ _ => false
  | .useOneTimeToken _ _ _ => false
  | _ => true

theorem oneTimeAfter_of_keeps {ws : List Write} (h : ∀ w ∈ ws, w.keepsOneTime = true)
    (k : TokenKind) (rows : List OneTimeToken) : oneTimeAfter k ws rows = rows := by
  unfold oneTimeAfter
  induction ws with
  | nil => rfl
  | cons w ws ih =>
    have hw : w.onOneTime k rows = rows := by
      have hkeeps := h w List.mem_cons_self
      cases w with
      | addOneTimeToken => cases hkeeps
      | useOneTimeToken => cases hkeeps
      | _ => rfl
    rw [List.foldl_cons, hw]
    exact ih fun w' hw' => h w' (List.mem_cons_of_mem _ hw')

/-! ## The three kinds of call -/

/-- What a call that returns does to the tables of emailed tokens. -/
inductive OneTimeEffect (P : Platform) (env : Env) (db : Db) : Op → List Write → Prop
  | quiet {op : Op} {ws : List Write} (hop : op.presents? = none)
      (hkeeps : ∀ w ∈ ws, w.keepsOneTime = true) : OneTimeEffect P env db op ws
  | request {op : Op} {ws : List Write} {kind : TokenKind} {lifetime : Int}
      {event : AuditEventType} {detail email : String} {row : User}
      (hop : op.emailed? P = some (kind, lifetime, event, detail, email))
      (hrow : row ∈ db.users.rows) (hemail : row.email = P.lower email)
      (hrows : ∀ k rows, oneTimeAfter k ws rows =
        if kind = k then rows ++ [newOneTimeToken P env lifetime row] else rows) :
      OneTimeEffect P env db op ws
  | confirm {op : Op} {ws : List Write} {kind : TokenKind} {token : String} {c : UserChange}
      {r : OneTimeToken} (hop : op.confirmed? P env = some (kind, token, c))
      (hr : r ∈ (db.oneTimeTokens kind).rows)
      (husable : usable (hashToken P token) (env.utcnow 0) r = true)
      (hrows : ∀ k rows, oneTimeAfter k ws rows =
        if kind = k then
          updateWhere (fun a => decide (a.id = r.id)) (OneTimeToken.use (env.utcnow 0)) rows
        else rows)
      (husers : ∀ rows, usersAfter ws rows =
        updateWhere (fun u => decide (u.id = r.userId)) c.apply rows)
      (htokens : ∀ rows, tokensAfter ws rows = rows) : OneTimeEffect P env db op ws

section Effects

variable {P : Platform} {env : Env} {client : ClientContext} {db : Db} {op : Op} {reply : Reply}
  {ws : List Write}

theorem presents?_of_confirmed? {kind : TokenKind} {token : String} {c : UserChange}
    (h : op.confirmed? P env = some (kind, token, c)) : op.presents? = some token := by
  cases op with
  | pub op => cases op <;> cases h <;> rfl
  | _ => cases h

theorem presents?_of_emailed? (h : (op.emailed? P).isSome = true) : op.presents? = none := by
  cases op with
  | pub op => cases op <;> first | rfl | cases h
  | _ => rfl

theorem bulkWrites_keepsOneTime {userId : Uuid} {exceptJti : Option String}
    {actorUserId : Option Uuid} {auditType : AuditEventType} {detail : String} {w : Write}
    (h : w ∈ bulkWrites env client db userId exceptJti actorUserId auditType detail) :
    w.keepsOneTime = true := by
  rcases bulkWrites_cases h with ⟨id, t, rfl⟩ | ⟨e, rfl⟩ <;> rfl

theorem Effect.oneTime (h : Effect P env client db op reply ws) : OneTimeEffect P env db op ws := by
  cases h with
  | emailed hop hrow hemail =>
    refine .request hop hrow hemail ?_
    intro k rows
    rfl
  | @emailedMissed op o hop =>
    have hquiet : (Op.pub op).presents? = none := presents?_of_emailed? hop
    exact .quiet hquiet (List.all_eq_true.1 rfl)
  | verifyEmail hr hrow hid husable =>
    refine .confirm rfl hr husable ?_ ?_ ?_
    · intro k rows
      rfl
    · intro rows
      rw [← hid]
      rfl
    · intro rows
      rfl
  | resetPassword hr hrow hid husable =>
    refine .confirm rfl hr husable ?_ ?_ ?_
    · intro k rows
      rfl
    · intro rows
      rw [← hid]
      rfl
    · intro rows
      rfl
  | @patchMe row user payload =>
    refine .quiet rfl ?_
    unfold profileWrites
    cases payload.displayName.join <;> exact List.all_eq_true.1 rfl
  | changePassword =>
    refine .quiet rfl ?_
    intro w hw
    rcases passwordWrites_cases hw with ⟨c, rfl, -⟩ | ⟨id, t, rfl⟩ | ⟨e, rfl⟩ <;> rfl
  | deactivateMe =>
    refine .quiet rfl ?_
    intro w hw
    rcases deactivateWrites_cases hw with ⟨c, rfl⟩ | ⟨id, t, rfl⟩ | ⟨e, rfl⟩ <;> rfl
  | revokeAllMySessions => exact .quiet rfl fun _ hw => bulkWrites_keepsOneTime hw
  | updateUser =>
    refine .quiet rfl ?_
    intro w hw
    rcases adminUpdateWrites_cases hw with ⟨c, rfl, -⟩ | ⟨id, t, rfl⟩ | ⟨e, rfl⟩ <;> rfl
  | revokeUserSessions => exact .quiet rfl fun _ hw => bulkWrites_keepsOneTime hw
  | _ => exact .quiet rfl (List.all_eq_true.1 rfl)

end Effects

/-! ## Steps -/

/-- The step accepts the token on its stored row `r`: it marks that row and sets the column `c` of
its user, and leaves all other users, the other kind of token and all sessions alone. -/
structure Acceptance (P : Platform) (w : World) (e : Event) (w' : World) (kind : TokenKind)
    (token : String) (c : UserChange) (r : OneTimeToken) : Prop where
  op : e.op.confirmed? P e.env = some (kind, token, c)
  result : ∃ reply, e.result = .ok reply
  stored : r ∈ (w.db.oneTimeTokens kind).rows
  tokenHash : r.tokenHash = hashToken P token
  unused : r.usedAt = none
  unexpired : e.env.utcnow 0 < r.expiresAt
  rows : ∀ k, (w'.db.oneTimeTokens k).rows =
    if kind = k then updateWhere (fun a => decide (a.id = r.id))
      (OneTimeToken.use (e.env.utcnow 0)) (w.db.oneTimeTokens k).rows
    else (w.db.oneTimeTokens k).rows
  users : w'.db.users.rows =
    updateWhere (fun u => decide (u.id = r.userId)) c.apply w.db.users.rows
  sessions : w'.db.refreshTokens.rows = w.db.refreshTokens.rows

/-- What a step does to the tables of emailed tokens. -/
inductive OneTimeStep (P : Platform) (w : World) (e : Event) (w' : World) : Prop
  | quiet (hacc : ∀ token, e.accepts token = false)
      (hrows : ∀ k, (w'.db.oneTimeTokens k).rows = (w.db.oneTimeTokens k).rows)
  | request {kind : TokenKind} {lifetime : Int} {event : AuditEventType} {detail email : String}
      {row : User} (hop : e.op.emailed? P = some (kind, lifetime, event, detail, email))
      (hrow : row ∈ w.db.users.rows) (hemail : row.email = P.lower email)
      (hrows : ∀ k, (w'.db.oneTimeTokens k).rows =
        if kind = k then (w.db.oneTimeTokens k).rows ++ [newOneTimeToken P e.env lifetime row]
        else (w.db.oneTimeTokens k).rows)
  | confirm {kind : TokenKind} {token : String} {c : UserChange} {r : OneTimeToken}
      (h : Acceptance P w e w' kind token c r)

/-- `r'` is `r`, or `r` was unused and `r'` is it used. -/
def OneTimeToken.Descends (r r' : OneTimeToken) : Prop :=
  r' = r ∨ r.usedAt = none ∧ ∃ t, r' = r.use t

namespace OneTimeToken.Descends

variable {r r' r'' : OneTimeToken}

theorem refl (r : OneTimeToken) : Descends r r := Or.inl rfl

theorem trans (h : Descends r r') (h' : Descends r' r'') : Descends r r'' := by
  rcases h with rfl | ⟨hfree, t, rfl⟩
  · exact h'
  · rcases h' with rfl | ⟨hused, -⟩
    · exact Or.inr ⟨hfree, t, rfl⟩
    · cases hused

theorem id_eq (h : Descends r r') : r'.id = r.id := by
  rcases h with rfl | ⟨-, t, rfl⟩ <;> rfl

theorem userId_eq (h : Descends r r') : r'.userId = r.userId := by
  rcases h with rfl | ⟨-, t, rfl⟩ <;> rfl

theorem tokenHash_eq (h : Descends r r') : r'.tokenHash = r.tokenHash := by
  rcases h with rfl | ⟨-, t, rfl⟩ <;> rfl

theorem expiresAt_eq (h : Descends r r') : r'.expiresAt = r.expiresAt := by
  rcases h with rfl | ⟨-, t, rfl⟩ <;> rfl

/-- A used row has itself as only descendant. -/
theorem eq_of_used (h : Descends r r') (hused : r.usedAt ≠ none) : r' = r := by
  rcases h with rfl | ⟨hfree, -⟩
  · rfl
  · exact absurd hfree hused

end OneTimeToken.Descends

theorem usable_iff {tokenHash : String} {now : Int} {r : OneTimeToken} :
    usable tokenHash now r = true ↔
      r.tokenHash = tokenHash ∧ r.usedAt = none ∧ now < r.expiresAt := by
  simp [usable, and_assoc]

section Steps

variable {P : Platform} {w w' : World} {e : Event} {token : String}

theorem Event.accepts_iff : e.accepts token = true ↔
    e.op.presents? = some token ∧ ∃ reply, e.result = .ok reply := by
  unfold Event.accepts
  cases e.result <;> simp

theorem Step.oneTime (h : Step P w e w') : OneTimeStep P w e w' := by
  rcases h.cases with ⟨exc, herr, hdb⟩ | ⟨reply, ws, hok, heff, hc⟩
  · refine .quiet ?_ ?_
    · intro token
      simp [Event.accepts, herr]
    · intro k
      rw [hdb]
  · have hone : ∀ k, (w'.db.oneTimeTokens k).rows =
        oneTimeAfter k ws (w.db.oneTimeTokens k).rows := fun k => commit_oneTimeTokens k hc
    cases heff.oneTime with
    | quiet hop hkeeps =>
      refine .quiet ?_ ?_
      · intro token
        simp [Event.accepts, hop]
      · intro k
        rw [hone k, oneTimeAfter_of_keeps hkeeps]
    | request hop hrow hemail hrows =>
      refine .request hop hrow hemail ?_
      intro k
      rw [hone k, hrows]
    | confirm hop hr husable hrows husers htokens =>
      obtain ⟨hhash, hunused, hexp⟩ := usable_iff.1 husable
      refine .confirm ⟨hop, ⟨reply, hok⟩, hr, hhash, hunused, hexp, ?_, ?_, ?_⟩
      · intro k
        rw [hone k, hrows]
      · exact (commit_users hc).trans (husers _)
      · exact (commit_refreshTokens hc).trans (htokens _)

/-- No row disappears, and a used row stays as it is. -/
theorem OneTimeStep.persists (h : OneTimeStep P w e w') {k : TokenKind} {r : OneTimeToken}
    (hr : r ∈ (w.db.oneTimeTokens k).rows) :
    ∃ r' ∈ (w'.db.oneTimeTokens k).rows, r.Descends r' := by
  cases h with
  | quiet _ hrows =>
    rw [hrows k]
    exact ⟨r, hr, .refl r⟩
  | @request kind _ _ _ _ _ _ _ _ hrows =>
    rw [hrows k]
    split
    · exact ⟨r, List.mem_append_left _ hr, .refl r⟩
    · exact ⟨r, hr, .refl r⟩
  | @confirm kind token c r₀ hacc =>
    rw [hacc.rows k]
    split
    · rename_i heq
      subst heq
      by_cases hid : r.id = r₀.id
      · obtain rfl : r = r₀ := (w.db.oneTimeTokens kind).eq_of_key hr hacc.stored hid
        exact ⟨_, mem_updateWhere.2 ⟨r, hr, Or.inl ⟨decide_eq_true rfl, rfl⟩⟩,
          Or.inr ⟨hacc.unused, _, rfl⟩⟩
      · exact ⟨r, mem_updateWhere.2 ⟨r, hr, Or.inr ⟨decide_eq_false hid, rfl⟩⟩, .refl r⟩
    · exact ⟨r, hr, .refl r⟩

/-- A row was there before, or has the hash of the token that a request has just drawn. -/
theorem OneTimeStep.origin (h : OneTimeStep P w e w') {k : TokenKind} {r' : OneTimeToken}
    (hr : r' ∈ (w'.db.oneTimeTokens k).rows) :
    (∃ r ∈ (w.db.oneTimeTokens k).rows, r.Descends r') ∨
      ∃ lifetime event detail email row,
        e.op.emailed? P = some (k, lifetime, event, detail, email) ∧ row ∈ w.db.users.rows ∧
          row.email = P.lower email ∧ r' = newOneTimeToken P e.env lifetime row := by
  cases h with
  | quiet _ hrows =>
    rw [hrows k] at hr
    exact Or.inl ⟨r', hr, .refl r'⟩
  | @request kind lifetime event detail email row hop hrow hemail hrows =>
    rw [hrows k] at hr
    split at hr
    · rename_i heq
      subst heq
      rcases List.mem_append.1 hr with hr | hr
      · exact Or.inl ⟨r', hr, .refl r'⟩
      · exact Or.inr ⟨lifetime, event, detail, email, row, hop, hrow, hemail,
          List.mem_singleton.1 hr⟩
    · exact Or.inl ⟨r', hr, .refl r'⟩
  | @confirm kind token c r₀ hacc =>
    rw [hacc.rows k] at hr
    split at hr
    · rename_i heq
      subst heq
      obtain ⟨r, hmem, ⟨hid, rfl⟩ | ⟨-, rfl⟩⟩ := mem_updateWhere.1 hr
      · obtain rfl : r = r₀ :=
          (w.db.oneTimeTokens kind).eq_of_key hmem hacc.stored (of_decide_eq_true hid)
        exact Or.inl ⟨r, hmem, Or.inr ⟨hacc.unused, _, rfl⟩⟩
      · exact Or.inl ⟨r', hmem, .refl r'⟩
    · exact Or.inl ⟨r', hr, .refl r'⟩

theorem OneTimeStep.accepted (h : OneTimeStep P w e w') (hacc : e.accepts token = true) :
    ∃ kind c r, Acceptance P w e w' kind token c r := by
  have hpresents := (Event.accepts_iff.1 hacc).1
  cases h with
  | quiet hnone =>
    rw [hnone token] at hacc
    cases hacc
  | request hop =>
    rw [presents?_of_emailed? (Option.isSome_of_eq_some hop)] at hpresents
    cases hpresents
  | @confirm kind token' c r h =>
    rw [presents?_of_confirmed? h.op, Option.some.injEq] at hpresents
    subst hpresents
    exact ⟨kind, c, r, h⟩

end Steps

/-! ## The one row of a token -/

/-- No row of either table has the hash of the token. -/
def Unissued (P : Platform) (w : World) (token : String) : Prop :=
  ∀ k, ∀ r ∈ (w.db.oneTimeTokens k).rows, r.tokenHash ≠ hashToken P token

/-- Over both tables, `r` is the one row with the hash of the token, and it is of this kind. -/
structure Stands (P : Platform) (w : World) (token : String) (kind : TokenKind)
    (r : OneTimeToken) : Prop where
  stored : r ∈ (w.db.oneTimeTokens kind).rows
  tokenHash : r.tokenHash = hashToken P token
  only : ∀ k, ∀ r' ∈ (w.db.oneTimeTokens k).rows, r'.tokenHash = hashToken P token →
    k = kind ∧ r' = r

section Standing

variable {P : Platform} {w w' : World} {e : Event} {es : List Event} {token : String}
  {kind : TokenKind} {r r₀ : OneTimeToken}

/-- A fresh step keeps the one row, as itself or used. -/
theorem Stands.step (h : Stands P w token kind r) (hs : OpaqueStep P w e w') :
    ∃ r', Stands P w' token kind r' ∧ r.Descends r' := by
  have hone := hs.1.oneTime
  obtain ⟨r', hr', hd⟩ := hone.persists h.stored
  refine ⟨r', ⟨hr', hd.tokenHash_eq.trans h.tokenHash, ?_⟩, hd⟩
  intro k a ha hhash
  rcases hone.origin ha with ⟨b, hb, hdesc⟩ | ⟨l, ev, d, em, row, hop, -, -, rfl⟩
  · obtain ⟨rfl, rfl⟩ := h.only k b hb (hdesc.tokenHash_eq.symm.trans hhash)
    refine ⟨rfl, ?_⟩
    exact (w'.db.oneTimeTokens k).eq_of_key ha hr' (hdesc.id_eq.trans hd.id_eq.symm)
  · -- a new row has a fresh hash
    have hfresh := hs.2 (Option.isSome_of_eq_some hop) kind r h.stored
    exact absurd (h.tokenHash.trans hhash.symm) hfresh

theorem Stands.run (h : Stands P w token kind r) (hs : Run (OpaqueStep P) w es w') :
    ∃ r', Stands P w' token kind r' ∧ r.Descends r' := by
  refine hs.invariant (fun w => ∃ r', Stands P w token kind r' ∧ r.Descends r') ?_ ⟨r, h, .refl r⟩
  intro s e s' hI hstep
  obtain ⟨r₁, h₁, hd₁⟩ := hI
  obtain ⟨r₂, h₂, hd₂⟩ := h₁.step hstep
  exact ⟨r₂, h₂, hd₁.trans hd₂⟩

/-- A token is accepted on its one row. -/
theorem Stands.accepted (h : Stands P w token kind r) (hs : Step P w e w')
    (hacc : e.accepts token = true) : ∃ c, Acceptance P w e w' kind token c r := by
  obtain ⟨k, c, r', ha⟩ := hs.oneTime.accepted hacc
  obtain ⟨rfl, rfl⟩ := h.only k r' ha.stored ha.tokenHash
  exact ⟨c, ha⟩

/-- The row that accepted a token is used. -/
theorem Acceptance.used {c : UserChange} (ha : Acceptance P w e w' kind token c r)
    {r' : OneTimeToken} (h' : Stands P w' token kind r') : r'.usedAt ≠ none := by
  have hmem : r.use (e.env.utcnow 0) ∈ (w'.db.oneTimeTokens kind).rows := by
    rw [ha.rows kind, if_pos rfl]
    exact mem_updateWhere.2 ⟨r, ha.stored, Or.inl ⟨decide_eq_true rfl, rfl⟩⟩
  obtain ⟨-, rfl⟩ := h'.only kind _ hmem ha.tokenHash
  exact nofun

/-- A row stays as it is until its token is accepted. -/
theorem Stands.step_of_not_accepted (h : Stands P w token kind r) (hs : OpaqueStep P w e w')
    (hacc : e.accepts token = false) : Stands P w' token kind r := by
  have hstays : r ∈ (w'.db.oneTimeTokens kind).rows := by
    cases hs.1.oneTime with
    | quiet _ hrows =>
      rw [hrows]
      exact h.stored
    | request _ _ _ hrows =>
      rw [hrows]
      split
      · exact List.mem_append_left _ h.stored
      · exact h.stored
    | @confirm k token' c a ha =>
      rw [ha.rows]
      split
      · rename_i heq
        subst heq
        -- the row that is used has another token
        have hid : r.id ≠ a.id := by
          intro heq
          obtain rfl : r = a := (w.db.oneTimeTokens k).eq_of_key h.stored ha.stored heq
          obtain rfl : token' = token :=
            P.sha256_injective (ha.tokenHash.symm.trans h.tokenHash)
          rw [Event.accepts_iff.2 ⟨presents?_of_confirmed? ha.op, ha.result⟩] at hacc
          cases hacc
        exact mem_updateWhere.2 ⟨r, h.stored, Or.inr ⟨decide_eq_false hid, rfl⟩⟩
      · exact h.stored
  obtain ⟨r', h', -⟩ := h.step hs
  obtain ⟨-, rfl⟩ := h'.only kind r hstays h.tokenHash
  exact h'

/-- Where an unused row stays unused, its token was not accepted on the way. -/
theorem Stands.unused_run_iff (h : Stands P w token kind r) (hs : Run (OpaqueStep P) w es w')
    (hfree : r.usedAt = none) : (∀ a ∈ es, a.accepts token = false) ↔ Stands P w' token kind r := by
  induction hs with
  | nil =>
    refine ⟨fun _ => h, ?_⟩
    intro _ a ha
    cases ha
  | @cons w w₁ w' e es hstep hrun ih =>
    constructor
    · intro hnone
      have h₁ := h.step_of_not_accepted hstep (hnone e List.mem_cons_self)
      exact (ih h₁).1 fun a ha => hnone a (List.mem_cons_of_mem _ ha)
    · intro h' a ha
      cases hacc : e.accepts token with
      | true =>
        -- its row is used from then on
        obtain ⟨c, hfor⟩ := h.accepted hstep.1 hacc
        obtain ⟨r₁, h₁, hd₁⟩ := h.step hstep
        obtain ⟨r₂, h₂, hd₂⟩ := h₁.run hrun
        have hused := hfor.used h₁
        rw [← hd₂.eq_of_used hused] at hused
        obtain ⟨-, rfl⟩ := h'.only kind r₂ h₂.stored h₂.tokenHash
        exact absurd hfree hused
      | false =>
        have h₁ := h.step_of_not_accepted hstep hacc
        rcases List.mem_cons.1 ha with rfl | ha
        · exact hacc
        · exact (ih h₁).2 h' a ha

/-- A token is accepted at most once while its row stands. -/
theorem Stands.countP_le_one (h : Stands P w token kind r) (hs : Run (OpaqueStep P) w es w') :
    es.countP (Event.accepts token) ≤ 1 := by
  refine Run.countP_le_one (Event.accepts token) (fun w => ∃ r, Stands P w token kind r)
    (fun w => ∃ r, Stands P w token kind r ∧ r.usedAt ≠ none) ?_ ?_ ?_ ?_ hs ⟨r, h⟩
  · intro s e s' hI hstep
    obtain ⟨r₁, h₁⟩ := hI
    obtain ⟨r₂, h₂, -⟩ := h₁.step hstep
    exact ⟨r₂, h₂⟩
  · intro s e s' hI hstep hacc
    obtain ⟨r₁, h₁⟩ := hI
    obtain ⟨c, ha⟩ := h₁.accepted hstep.1 hacc
    obtain ⟨r₂, h₂, -⟩ := h₁.step hstep
    exact ⟨r₂, h₂, ha.used h₂⟩
  · intro s e s' hQ hstep
    obtain ⟨r₁, h₁, hused⟩ := hQ
    obtain ⟨r₂, h₂, hd⟩ := h₁.step hstep
    rw [← hd.eq_of_used hused] at hused
    exact ⟨r₂, h₂, hused⟩
  · intro s e s' hQ hstep
    obtain ⟨r₁, h₁, hused⟩ := hQ
    cases hacc : e.accepts token with
    | false => rfl
    | true =>
      obtain ⟨c, ha⟩ := h₁.accepted hstep.1 hacc
      exact absurd ha.unused hused

/-- Before its request, a fresh token is accepted by nothing. -/
theorem Unissued.not_accepted (h : Unissued P w' token) (hs : Run (OpaqueStep P) w es w') :
    Unissued P w token ∧ es.countP (Event.accepts token) = 0 := by
  induction hs with
  | nil => exact ⟨h, rfl⟩
  | @cons w w₁ w' e es hstep _ ih =>
    obtain ⟨h₁, hcount⟩ := ih h
    have hw : Unissued P w token := by
      intro k a ha hhash
      obtain ⟨a', ha', hd⟩ := hstep.1.oneTime.persists ha
      exact h₁ k a' ha' (hd.tokenHash_eq.trans hhash)
    refine ⟨hw, ?_⟩
    rw [List.countP_cons, hcount]
    cases hacc : e.accepts token with
    | false => rfl
    | true =>
      obtain ⟨k, c, r, ha⟩ := hstep.1.oneTime.accepted hacc
      exact absurd ha.tokenHash (hw k r ha.stored)

end Standing

/-! ## The request -/

section Requests

variable {P : Platform} {w w₁ w₂ w' : World} {e : Event} {pre post : List Event} {token : String}
  {kind : TokenKind} {row : User} {expiresAt : Int}

/-- The two request endpoints call one service. -/
theorem PublicOp.svc_of_emailed? {env : Env} {client : ClientContext} {op : PublicOp}
    {lifetime : Int} {event : AuditEventType} {detail email : String}
    (hop : op.emailed? P = some (kind, lifetime, event, detail, email)) :
    op.svc P env client = (do
      let token ← requestOneTimeToken P env client kind lifetime event detail email
      return .emailed token) := by
  cases op <;> cases hop <;> rfl

/-- A token that was handed out has its one row from then on, and had none before. -/
theorem Requested.stands (h : Requested P w e kind row token expiresAt)
    (hs : OpaqueStep P w e w') : Unissued P w token ∧ ∃ r, Stands P w' token kind r ∧
      r.usedAt = none ∧ r.userId = row.id ∧ r.expiresAt = expiresAt := by
  obtain ⟨lifetime, event, detail, email, hemailed, hemail, hexp⟩ := h.op
  obtain ⟨op, hop⟩ : ∃ op, e.op = .pub op := by
    generalize e.op = op at hemailed
    cases op with
    | pub op => exact ⟨op, rfl⟩
    | _ => cases hemailed
  have hemailed' : op.emailed? P = some (kind, lifetime, event, detail, email) := by
    rw [hop] at hemailed
    exact hemailed
  have hrun := hs.1.run
  rw [h.result, hop] at hrun
  obtain ⟨s, hsvc, hc⟩ := request_ok.1 hrun
  change (op.svc P e.env e.client).run _ = _ at hsvc
  rw [PublicOp.svc_of_emailed? hemailed'] at hsvc
  obtain ⟨o, s₁, hreq, hret⟩ := run_bind_ok.1 hsvc
  cases hret
  rcases run_requestOneTimeToken_ok hreq with ⟨hnone, -⟩ | ⟨htoken, row', hrow', hemail', rfl⟩
  · cases hnone
  obtain rfl : token = generateOpaqueToken e.env := Option.some.inj htoken
  obtain rfl : row' = row :=
    w.db.users.eq_of_clash hrow' h.user (User.clash_iff.2 (Or.inr (hemail'.trans hemail.symm)))
  have hfresh : Unissued P w (generateOpaqueToken e.env) := hs.2 (Option.isSome_of_eq_some hemailed)
  have hrows : ∀ k, (w'.db.oneTimeTokens k).rows = if kind = k then
      (w.db.oneTimeTokens k).rows ++ [newOneTimeToken P e.env lifetime row']
      else (w.db.oneTimeTokens k).rows := fun k => commit_oneTimeTokens k hc
  refine ⟨hfresh, newOneTimeToken P e.env lifetime row', ⟨?_, rfl, ?_⟩, rfl, rfl, hexp.symm⟩
  · rw [hrows, if_pos rfl]
    exact List.mem_append_right _ List.mem_cons_self
  · intro k a ha hhash
    rw [hrows] at ha
    split at ha
    · rename_i heq
      rcases List.mem_append.1 ha with ha | ha
      · exact absurd hhash (hfresh k a ha)
      · exact ⟨heq.symm, List.mem_singleton.1 ha⟩
    · exact absurd hhash (hfresh k a ha)

/-- A confirm operation returns on the one usable row of its token. -/
theorem confirm_svc {env : Env} {client : ClientContext} {db : Db} {op : Op} {c : UserChange}
    {r : OneTimeToken} (hop : op.confirmed? P env = some (kind, token, c))
    (hr : (db.oneTimeTokens kind).rows.filter (usable (hashToken P token) (env.utcnow 0)) = [r])
    (hrow : row ∈ db.users.rows) (hid : row.id = r.userId) :
    ∃ db', request (op.svc P env client) db = (.ok .done, db') := by
  have hrun : ∃ ws, (op.svc P env client).run ⟨db, []⟩ = (.ok .done, ⟨db, ws⟩) ∧
      ∀ w ∈ ws, w.Total := by
    cases op with
    | pub op =>
      cases op with
      | verifyEmailConfirm t =>
        cases hop
        refine ⟨_, run_bind_ok.2 ⟨(), _, run_confirmEmailVerification_of hr hrow hid, rfl⟩, ?_⟩
        simp [Write.Total, auditWrite]
      | passwordResetConfirm t n =>
        cases hop
        refine ⟨_, run_bind_ok.2 ⟨(), _, run_confirmPasswordReset_of hr hrow hid, rfl⟩, ?_⟩
        simp [Write.Total, auditWrite]
      | _ => cases hop
    | _ => cases hop
  obtain ⟨ws, hsvc, htotal⟩ := hrun
  obtain ⟨db', hc⟩ := commit_total htotal db
  exact ⟨db', request_ok.2 ⟨_, hsvc, hc⟩⟩

/-- The one row of a token is the only one that a confirm operation can find. -/
theorem Stands.filter_usable {r : OneTimeToken} {now : Int} (h : Stands P w token kind r)
    (hfree : r.usedAt = none) (hexp : now < r.expiresAt) :
    (w.db.oneTimeTokens kind).rows.filter (usable (hashToken P token) now) = [r] := by
  have hsame : ∀ a ∈ (w.db.oneTimeTokens kind).rows,
      usable (hashToken P token) now a = decide (a.id = r.id) := by
    intro a ha
    rw [Bool.eq_iff_iff, decide_eq_true_eq, usable_iff]
    constructor
    · intro hu
      rw [(h.only kind a ha hu.1).2]
    · intro hid
      obtain rfl : a = r := (w.db.oneTimeTokens kind).eq_of_key ha h.stored hid
      exact ⟨h.tokenHash, hfree, hexp⟩
  rw [List.filter_congr hsame]
  refine (w.db.oneTimeTokens kind).filter_eq_singleton h.stored (decide_eq_true rfl) ?_
  intro a b ha hb
  exact Entity.clash_of_key ((of_decide_eq_true ha).trans (of_decide_eq_true hb).symm)

/-- A confirm operation accepts a token exactly while its row is unused and unexpired. -/
theorem Stands.accepts_iff {r : OneTimeToken} {c : UserChange} (h : Stands P w token kind r)
    (hrow : row ∈ w.db.users.rows) (hid : row.id = r.userId) (hs : Step P w e w')
    (hop : e.op.confirmed? P e.env = some (kind, token, c)) :
    e.accepts token = true ↔ r.usedAt = none ∧ e.env.utcnow 0 < r.expiresAt := by
  constructor
  · intro hacc
    obtain ⟨c', ha⟩ := h.accepted hs hacc
    exact ⟨ha.unused, ha.unexpired⟩
  · intro hx
    obtain ⟨db', hok⟩ : ∃ db', request (e.op.svc P e.env e.client) w.db = (.ok .done, db') :=
      confirm_svc hop (h.filter_usable hx.1 hx.2) hrow hid
    have hrun := hs.run
    rw [hok] at hrun
    exact Event.accepts_iff.2 ⟨presents?_of_confirmed? hop, .done, (Prod.mk.inj hrun).1.symm⟩

/-- A request for an account succeeds when the id and the token that it draws are unused. -/
theorem Step.requested (env : Env) (client : ClientContext) {op : PublicOp} {lifetime : Int}
    {event : AuditEventType} {detail email : String} (hstart : w.now ≤ env.clock.lo)
    (hop : op.emailed? P = some (kind, lifetime, event, detail, email))
    (hrow : row ∈ w.db.users.rows) (hemail : row.email = P.lower email)
    (hid : ∀ r ∈ (w.db.oneTimeTokens kind).rows, r.id ≠ env.uuid4 0)
    (hfresh : Unissued P w (generateOpaqueToken env)) :
    ∃ w', OpaqueStep P w
        ⟨env, client, .pub op, .ok (.emailed (some (generateOpaqueToken env)))⟩ w' ∧
      w'.now = env.clock.hi ∧ w'.db.users.rows = w.db.users.rows ∧
      Requested P w ⟨env, client, .pub op, .ok (.emailed (some (generateOpaqueToken env)))⟩ kind row
        (generateOpaqueToken env) (env.utcnow 0 + lifetime) := by
  have hclash : ∀ a ∈ (w.db.oneTimeTokens kind).rows,
      ¬ Clash a (newOneTimeToken P env lifetime row) := by
    intro a ha hc
    rcases OneTimeToken.clash_iff.1 hc with h | h
    · exact hid a ha h
    · exact hfresh kind a ha h.2
  have htotal : ∀ w ∈ [auditWrite env client event (some row.id) (some detail)], w.Total := by
    simp [Write.Total, auditWrite]
  obtain ⟨db', hc⟩ := (commit_addOneTimeToken_iff htotal).2 hclash
  have hsvc : (op.svc P env client).run ⟨w.db, []⟩ =
      (.ok (.emailed (some (generateOpaqueToken env))),
        ⟨w.db, [.addOneTimeToken kind (newOneTimeToken P env lifetime row),
          auditWrite env client event (some row.id) (some detail)]⟩) := by
    rw [PublicOp.svc_of_emailed? hop]
    exact run_bind_ok.2
      ⟨_, _, run_requestOneTimeToken_of hrow hemail kind lifetime event detail, rfl⟩
  have hs : Step P w ⟨env, client, .pub op, .ok (.emailed (some (generateOpaqueToken env)))⟩ _ :=
    Step.of_commit hstart hsvc hc
  refine ⟨_, ⟨hs, fun _ => hfresh⟩, rfl, commit_users hc, ?_, hrow, rfl⟩
  exact ⟨lifetime, event, detail, email, hop, hemail, rfl⟩

/-- In every run with fresh tokens, a token that a request of this kind returned for a user is
accepted at most once in the whole run, never before the request, only by the confirm operation of
its kind, strictly before its expiry, and on a row of that user, whose one column it sets
(`Acceptance`). A refused confirm changes nothing, and a row that is used stays as it is. -/
theorem emailed_token_contract (hpre : Run (OpaqueStep P) w pre w₁) (he : OpaqueStep P w₁ e w₂)
    (hpost : Run (OpaqueStep P) w₂ post w') (hreq : Requested P w₁ e kind row token expiresAt) :
    (pre ++ e :: post).countP (Event.accepts token) ≤ 1 ∧
    pre.countP (Event.accepts token) = 0 ∧
    (∀ mid a s s' rest, post = mid ++ a :: rest → Run (OpaqueStep P) w₂ mid s →
      OpaqueStep P s a s' → a.accepts token = true → a.env.utcnow 0 < expiresAt ∧
        ∃ c r, Acceptance P s a s' kind token c r ∧ r.userId = row.id) ∧
    (∀ s a s', Step P s a s' → ∀ t exc, a.op.presents? = some t → a.result = .error exc →
      s'.db = s.db) ∧
    (∀ s es s', Runs P s es s' → ∀ k, ∀ r ∈ (s.db.oneTimeTokens k).rows, r.usedAt ≠ none →
      r ∈ (s'.db.oneTimeTokens k).rows) := by
  obtain ⟨hun, r, hst, -, huser, hexp⟩ := hreq.stands he
  have hzero := (hun.not_accepted hpre).2
  obtain ⟨lifetime, event, detail, email, hemailed, -, -⟩ := hreq.op
  have he0 : e.accepts token = false := by
    simp [Event.accepts, presents?_of_emailed? (Option.isSome_of_eq_some hemailed)]
  refine ⟨?_, hzero, ?_, ?_, ?_⟩
  · rw [List.countP_append, List.countP_cons, hzero, he0]
    have hpost' := hst.countP_le_one hpost
    simpa using hpost'
  · intro mid a s s' rest _ hmid ha hacc
    obtain ⟨r', hst', hd⟩ := hst.run hmid
    obtain ⟨c, hfor⟩ := hst'.accepted ha.1 hacc
    refine ⟨?_, c, r', hfor, hd.userId_eq.trans huser⟩
    rw [← hexp, ← hd.expiresAt_eq]
    exact hfor.unexpired
  · intro s a s' ha t exc _ herr
    have hrun := ha.run
    rw [herr] at hrun
    exact request_error hrun
  · intro s es s' hrun k r hr hused
    have hkeep : ∃ r' ∈ (s'.db.oneTimeTokens k).rows, r.Descends r' := by
      refine Run.invariant (fun w => ∃ r' ∈ (w.db.oneTimeTokens k).rows, r.Descends r') ?_ hrun
        ⟨r, hr, .refl r⟩
      intro w e w' hI hs
      obtain ⟨r₁, hr₁, hd₁⟩ := hI
      obtain ⟨r₂, hr₂, hd₂⟩ := hs.oneTime.persists hr₁
      exact ⟨r₂, hr₂, hd₁.trans hd₂⟩
    obtain ⟨r', hr', hd⟩ := hkeep
    rwa [hd.eq_of_used hused] at hr'

end Requests

/-! ## Alice verifies her address -/

/-- The environment of a call `n` seconds after the start that draws this token. -/
def linkEnv (n : Nat) (token : String) : Env :=
  { Env.fixed (seconds n) (100 * n) with tokenUrlsafe := token }

theorem alice_token_fresh {token : String} (h : token ≠ "reset token") :
    Unissued Platform.reference aliceWorld token := by
  intro k r hr hhash
  cases k with
  | emailVerification => cases hr
  | passwordReset =>
    rw [List.mem_singleton.1 hr] at hhash
    exact h (Platform.reference.sha256_injective hhash).symm

/-- Alice's verification link works once, and sets her address verified. -/
theorem alice_verifies : ∃ e w₁ a w₂, OpaqueStep Platform.reference aliceWorld e w₁ ∧
    OpaqueStep Platform.reference w₁ a w₂ ∧ a.accepts "link" = true ∧
    [e, a].countP (Event.accepts "link") ≤ 1 ∧
    ∃ r, Acceptance Platform.reference w₁ a w₂ .emailVerification "link" (.isVerified true) r ∧
      r.userId = alice.id := by
  have hop : (PublicOp.verifyEmailRequest "alice@example.com").emailed? Platform.reference =
      some (.emailVerification, _, _, _, _) := rfl
  have hstart : aliceWorld.now ≤ (linkEnv 1 "link").clock.lo := by decide
  obtain ⟨w₁, hfirst, hnow, husers, hreq⟩ := Step.requested (linkEnv 1 "link") {} hstart hop
    List.mem_cons_self rfl nofun (alice_token_fresh (by decide))
  obtain ⟨-, r, hst, hfree, huser, hexp⟩ := hreq.stands hfirst
  have hnext : w₁.now ≤ (linkEnv 2 "").clock.lo := by
    rw [hnow]
    decide
  obtain ⟨result, w₂, hs, -⟩ := Step.exists Platform.reference {}
    (.pub (.verifyEmailConfirm "link")) hnext
  have hrow : alice ∈ w₁.db.users.rows := by
    rw [husers]
    exact List.mem_cons_self
  have hunexpired : (linkEnv 2 "").utcnow 0 < r.expiresAt := by
    rw [hexp]
    decide
  have hacc : Event.accepts "link" ⟨linkEnv 2 "", {}, .pub (.verifyEmailConfirm "link"), result⟩ :=
    (hst.accepts_iff hrow huser.symm hs rfl).2 ⟨hfree, hunexpired⟩
  have hsecond : OpaqueStep Platform.reference w₁ _ w₂ := ⟨hs, nofun⟩
  obtain ⟨hcount, -, hall, -⟩ :=
    emailed_token_contract (.nil _) hfirst (.single hsecond) hreq
  obtain ⟨-, c, r', hfor, howner⟩ := hall [] _ _ _ [] rfl (.nil _) hsecond hacc
  have hconfirm := hfor.op
  cases hconfirm
  exact ⟨_, w₁, _, w₂, hfirst, hsecond, hacc, hcount, r', hfor, howner⟩

end AiopsBackend
