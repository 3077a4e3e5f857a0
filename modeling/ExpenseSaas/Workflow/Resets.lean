import ExpenseSaas.Workflow.Rotation

/-!
# Who uses up a reset token

`ExecutePasswordReset` looks the token up on one connection, finds it unused, hashes
the new password, and only then opens the transaction that sets the password and marks
the token. The transaction does not look again, so two calls that have both found the
token unused both set a password.

`UnracedReset` is the condition on a step that this does not happen: no call looks a
token up while another one that has found it is on its way to use it, or while two
rows go by its hash. Then one call uses a token up (`resetOnce_of_unraced`). What an
error leaves is the same in every run: a call that has failed has changed no user
(`not_changes_of_failed`).
-/

namespace ExpenseSaas

open ReadCommitted Sql

/-! ## Vocabulary -/

/-- The transaction of a reset with this token went through. -/
def ResetDone (tr : Trace) (token : String) : Prop :=
  ∃ pre x h, pre ++ [⟨.commit, .ok true⟩] <+: tr ∧ FoundReset pre token x ∧
    server.current pre = resetEvents x h

theorem ResetDone.mono {tr tr' : Trace} {token : String} (h : ResetDone tr token) (hp : tr <+: tr') :
    ResetDone tr' token := by
  obtain ⟨pre, x, hash, hpre, hx, hcur⟩ := h
  exact ⟨pre, x, hash, hpre.trans hp, hx, hcur⟩

/-- The session has found the token, and has used it or still may. -/
def Resetting (s : Session server) (token : String) : Prop :=
  (∃ x, FoundReset s.trace token x) ∧ (ResetDone s.trace token ∨ ∀ a, s.prog ≠ .ret a)

/-- The session has found the token and is on its way to use it. -/
structure ResetInUse (s : Session server) (token : String) : Prop where
  found : ∃ x, FoundReset s.trace token x
  running : ∀ a, s.prog ≠ .ret a
  unused : ¬ ResetDone s.trace token

/-- One row at most goes by the hash of the token. -/
def OneRow (d : Database) (token : String) : Prop :=
  ∀ x ∈ d.passwordResetTokens.rows, ∀ y ∈ d.passwordResetTokens.rows,
    x.tokenHash = .ofText token → y.tokenHash = .ofText token → x = y

/--
No session looks a token up that another one has in use, or by whose hash two rows
go.
-/
def UnracedReset (w : World server) (a : Action server) : Prop :=
  ∀ (i : Nat) (o : Oracle) (s : Session server) (token : String)
    (k : Command.Resp (.sql (.getPasswordResetTokenByHash (.ofText token))) → Program Outcome),
    a = .step i o → w.sessions[i]? = some s →
    s.prog = .exec (.sql (.getPasswordResetTokenByHash (.ofText token))) k →
    OneRow w.db token ∧ ∀ (j : Nat) (t : Session server), i ≠ j → w.sessions[j]? = some t →
      ¬ ResetInUse t token

/-- A session has changed a user. -/
def Changes (w : World server) (i : Nat) : Prop :=
  ∃ e ∈ w.log, e.sess = i ∧ e.post.users ≠ e.pre.users

/-! ## Marking the token -/

/-- The row is a reset token that has been used. -/
def Version.Used (v : Version) : Prop := ∃ x, v = .passwordResetToken x ∧ x.usedAt.isSome = true

section

variable {C : World server → Action server → Prop} {d₀ : Database} {w : World server} {i : Nat}
  {s s' : Session server} {id : UUID} {token password : String}

/-- Reset tokens stay, and used ones stay used. -/
theorem keeps_used : kept.Keeps (.passwordResetToken id) Version.Used where
  present v b h := by
    obtain ⟨v', hv', _⟩ := h v rfl
    exact Option.isSome_iff_exists.mpr ⟨v', hv'⟩
  marked v v' h hused := by
    obtain ⟨x, rfl, hx⟩ := hused
    obtain ⟨u, hu, hk⟩ := h _ rfl
    cases hu
    cases v' with
    | passwordResetToken y => exact ⟨y, rfl, hk.used hx⟩
    | _ => exact hk.elim

/-- `MarkUsed` finds its token when it is there, and leaves it used. -/
theorem marks_markUsed : server.Marks (.markPasswordResetTokenUsed id) (.passwordResetToken id)
    Version.Used
    (fun snap => (passwordResetTokenRows.filter (fun x => x.id = id) snap).map
      passwordResetTokenRows.id)
    (passwordResetTokenRows.apply (fun x => x.id = id) fun _ _ clock x =>
      .ok { x with usedAt := some clock.now })
    (fun vs => exec (vs.filterMap passwordResetTokenRows.unwrap)) where
  sem := rfl
  aims d h := by
    obtain ⟨v, hv⟩ := Option.isSome_iff_exists.mp h
    have hid := id_of_server_get hv
    cases v with
    | passwordResetToken x =>
      cases hid
      have hx : x ∈ passwordResetTokenRows.rows d := (passwordResetTokenRows.mem_rows d x).mpr hv
      exact List.mem_map.mpr ⟨x, List.mem_filter.mpr ⟨hx, by simp⟩, rfl⟩
    | _ => cases hid
  hits snap cur o h := by
    obtain ⟨v, hv⟩ := Option.isSome_iff_exists.mp h
    have hid := id_of_server_get hv
    cases v with
    | passwordResetToken x =>
      cases hid
      have hfind : passwordResetTokenRows.find cur (.passwordResetToken x.id) = some x :=
        passwordResetTokenRows.find_eq_some.mpr hv
      simp [Relation.apply, hfind]
    | _ => cases hid
  marks snap cur o v h := by
    obtain ⟨x, y, _, _, hset, rfl⟩ := passwordResetTokenRows.apply_eq_some h
    cases hset
    exact ⟨_, rfl, rfl⟩

theorem get_of_mem_resetTokens {d : Database} {y : PasswordResetToken}
    (hy : y ∈ d.passwordResetTokens.rows) (hid : y.id = id) :
    server.get d (.passwordResetToken id) = some (.passwordResetToken y) := by
  rw [← hid]
  exact (passwordResetTokenRows.mem_rows _ _).mp hy

/-- What was found is there, under the same hash. -/
theorem stored_of_foundReset (h : Reachable C (.init d₀) w) (hs : w.sessions[i]? = some s)
    {x : PasswordResetToken} (hx : FoundReset s.trace token x) :
    ∃ y ∈ w.db.passwordResetTokens.rows, y.id = x.id ∧ y.tokenHash = .ofText token := by
  obtain ⟨d, hd, clock, _, hread⟩ := h.read_committed hs rfl hx
  obtain ⟨hmem, hcond⟩ := passwordResetTokenRows.mem_of_first (Except.ok.inj hread)
  simp only [Bool.and_eq_true, decide_eq_true_eq] at hcond
  have hget := (passwordResetTokenRows.mem_rows d x).mp hmem
  obtain ⟨v', hv', hkept⟩ := kept_respected.history h d hd (.passwordResetToken x.id) _ hget
  cases v' with
  | passwordResetToken y =>
    have hid : y.id = x.id := RowId.passwordResetToken.inj (id_of_server_get hv')
    rw [← hid] at hv'
    exact ⟨y, (passwordResetTokenRows.mem_rows _ _).mpr hv', hid, hkept.tokenHash.trans hcond.1.1⟩
  | _ => exact hkept.elim

/-- Whoever marks a token has found it. -/
theorem found_of_marking (h : Reachable C (.init d₀) w) (hs : w.sessions[i]? = some s)
    {k : Command.Resp (.sql (.markPasswordResetTokenUsed id)) → Program Outcome}
    (hp : s.prog = .exec (.sql (.markPasswordResetTokenUsed id)) k) :
    ∃ token x, FoundReset s.trace token x ∧ x.id = id := by
  have hask := asked h hs hp
  cases hcall : s.call with
  | tenant actor e =>
    rw [hcall] at hask
    rcases hask with hreads | ⟨hmay, _⟩
    · cases hreads
    · cases hmay with
      | copy _ hq => cases hq
      | edit _ _ hq => cases hq
      | delete _ _ hq => cases hq
  | _ =>
    rw [hcall] at hask
    rcases hask with hreads | hmay
    · cases hreads
    · cases hmay <;> exact ⟨_, _, by assumption, rfl⟩

/-- The token of a reset that went through is used. -/
theorem used_of_resetDone (h : Reachable C (.init d₀) w) (hs : w.sessions[i]? = some s)
    (hdone : ResetDone s.trace token) :
    ∃ y ∈ w.db.passwordResetTokens.rows, y.tokenHash = .ofText token ∧ y.usedAt.isSome = true := by
  obtain ⟨pre, x, hash, hpre, hx, hcur⟩ := hdone
  have hconfirmed : server.Confirmed s.trace (.markPasswordResetTokenUsed x.id) := by
    refine ⟨pre, (), hpre, ?_⟩
    rw [hcur]
    exact List.mem_cons_of_mem _ (List.mem_cons_self ..)
  have hpresent : ∀ {w : World server} {i : Nat} {s : Session server}
      {k : Command.Resp (.sql (.markPasswordResetTokenUsed x.id)) → Program Outcome},
      Reachable C (.init d₀) w → w.sessions[i]? = some s →
      s.prog = .exec (.sql (.markPasswordResetTokenUsed x.id)) k →
      (server.get w.db (.passwordResetToken x.id)).isSome := by
    intro w i s k hw hs hp
    obtain ⟨token', z, hz, hid⟩ := found_of_marking hw hs hp
    obtain ⟨y, hy, hyid, _⟩ := stored_of_foundReset hw hs hz
    exact Option.isSome_iff_exists.mpr ⟨_, get_of_mem_resetTokens hy (hyid.trans hid)⟩
  obtain ⟨v, hv, y, rfl, hused⟩ := h.marked_of_confirmed marks_markUsed keeps_used kept_respected
    hpresent hs hconfirmed
  have hfound : FoundReset s.trace token x := seen_mono hx ((List.prefix_append _ _).trans hpre)
  obtain ⟨y', hy', hid, hhash⟩ := stored_of_foundReset h hs hfound
  -- The row that was marked is the one that was found.
  cases (get_of_mem_resetTokens hy' hid).symm.trans hv
  exact ⟨y, hy', hhash, hused⟩

/-! ## One call uses a token up -/

theorem not_resetting_new {call : Call} : ¬ Resetting (.new call : Session server) token := by
  rintro ⟨⟨x, hx⟩, _⟩
  exact Engine.not_seen_nil (E := server) hx

/-- What a session that moves has found, it had found before, or it looks it up now. -/
theorem Resetting.before (h : Reachable C (.init d₀) w) (hs : w.sessions[i]? = some s) {o : Oracle}
    {d' : Option Database} (hm : Move w.db (w.others i) o s s' d') (hr : Resetting s' token) :
    Resetting s token ∨
      ((∃ k, s.prog = .exec (.sql (.getPasswordResetTokenByHash (.ofText token))) k) ∧
        ∃ x ∈ w.db.passwordResetTokens.rows, x.tokenHash = .ofText token ∧ x.usedAt = none) := by
  obtain ⟨⟨x, hx⟩, _⟩ := hr
  obtain ⟨c, k, hp⟩ := hm.running
  have hrunning : ∀ a, s.prog ≠ .ret a := by
    intro a ha
    rw [hp] at ha
    cases ha
  by_cases hold : FoundReset s.trace token x
  · exact Or.inl ⟨⟨x, hold⟩, Or.inr hrunning⟩
  · refine Or.inr ⟨?_, x, ?_⟩
    · cases hm.told with
      | wait _ htr _ =>
        rw [htr] at hx
        exact absurd hx hold
      | answer r hp' _ _ htr _ _ =>
        rw [htr] at hx
        rcases (Engine.seen_append (E := server)).mp hx with hx | ⟨hev, _⟩
        · exact absurd hx hold
        · cases hev
          exact ⟨_, hp'⟩
    · obtain ⟨_, _, _, _, clock, _, hread⟩ := (h.seen_now hs hm rfl hx).resolve_left hold
      obtain ⟨hmem, hcond⟩ := passwordResetTokenRows.mem_of_first (Except.ok.inj hread)
      simp only [Bool.and_eq_true, decide_eq_true_eq, Option.isNone_iff_eq_none] at hcond
      exact ⟨hmem, hcond.1.1, hcond.1.2⟩

/-- A command that fails finds nothing. -/
theorem Resetting.unbroken (hb : Broken s s') (hr : Resetting s' token) : Resetting s token := by
  obtain ⟨⟨x, hx⟩, _⟩ := hr
  obtain ⟨c, k, hp⟩ := hb.running
  refine ⟨⟨x, hb.seen hx⟩, Or.inr fun a ha => ?_⟩
  rw [hp] at ha
  cases ha

/-- **No two sessions are at the same token**, one of which could still use it or has used it. -/
theorem not_both_resetting (hC : ∀ w a, C w a → UnracedReset w a) (h : Reachable C (.init d₀) w)
    {j : Nat} {t : Session server} (hij : i ≠ j) (hs : w.sessions[i]? = some s)
    (ht : w.sessions[j]? = some t) (hrs : Resetting s token) : ¬ Resetting t token := by
  intro hrt
  refine h.pair_rule (P := fun s t => Resetting s token ∧ Resetting t token) ?_ ?_ ?_ ?_ hij hs ht
    ⟨hrs, hrt⟩
  · exact fun s t h => h.symm
  · exact fun c t h => not_resetting_new h.1
  · rintro w i j o s s' t d' hr hc hij hs ht hm ⟨hrs, hrt⟩
    refine ⟨?_, hrt⟩
    rcases hrs.before hr hs hm with hrs | ⟨⟨k, hp⟩, x, hx, hhash, hunused⟩
    · exact hrs
    · -- It finds the token unused now, so that `t` has not used it and is still on its way.
      obtain ⟨hone, halone⟩ := hC w _ hc i o s token k rfl hs hp
      by_cases hdone : ResetDone t.trace token
      · obtain ⟨y, hy, hyhash, hused⟩ := used_of_resetDone hr ht hdone
        rw [hone y hy x hx hyhash hhash, hunused] at hused
        cases hused
      · exact absurd ⟨hrt.1, hrt.2.resolve_left hdone, hdone⟩ (halone j t hij ht)
  · exact fun hb h => ⟨h.1.unbroken hb, h.2⟩

theorem resetting_of_resetDone (hdone : ResetDone s.trace token) : Resetting s token := by
  have hdone' := hdone
  obtain ⟨pre, x, hash, hpre, hx, _⟩ := hdone
  exact ⟨⟨x, seen_mono hx ((List.prefix_append _ _).trans hpre)⟩, Or.inl hdone'⟩

/-! ## What is changed -/

/-- A commit of a reset changes nothing, or it is that of its transaction. -/
theorem committed_of_reset (h : Reachable C (.init d₀) w) (hs : w.sessions[i]? = some s) {o : Oracle}
    {d' : Database} (hm : Move w.db (w.others i) o s s' (some d'))
    (hcall : s.call = .executePasswordReset token password) :
    d' = w.db ∨ ResetDone s'.trace token := by
  obtain ⟨hview, _, t, k, _, _, hp, htr⟩ := hm.publish
  have hask := asked h hs hp
  rw [hcall] at hask
  rcases hask with ⟨q, r, hcur, hreads⟩ | ⟨x, salt, hx, hcur⟩
  · -- The transaction that looks the token up has written nothing.
    have hclean : server.clean s.trace = true := by
      refine Engine.clean_of_current (E := server) fun ev hev => ?_
      rw [hcur] at hev
      rw [List.mem_singleton.mp hev]
      exact ⟨q, rfl, hreads⟩
    have hpending : s.pending = none := by
      cases hpe : s.pending with
      | none => rfl
      | some p =>
        obtain ⟨_, _, _, _, _, hp', _⟩ := h.pendingOk hs p hpe
        rw [hp] at hp'
        cases hp'
    left
    rw [hview, Session.view_of_writes_nil (h.cleanOk hs hclean hpending)]
  · right
    rw [htr]
    exact ⟨s.trace, x, _, List.prefix_rfl, hx, hcur⟩

/-- Who has changed a user has used the token up. -/
theorem resetDone_of_changes (h : Reachable C (.init d₀) w) (hs : w.sessions[i]? = some s)
    (hcall : s.call = .executePasswordReset token password) (hchanges : Changes w i) :
    ResetDone s.trace token := by
  obtain ⟨e, he, rfl, hne⟩ := hchanges
  have hentries : ∀ e ∈ w.log, ∃ s, w.sessions[e.sess]? = some s ∧ ∀ token password,
      s.call = .executePasswordReset token password → e.post = e.pre ∨ ResetDone s.trace token := by
    refine h.traced_entry_rule (J := fun (call : Call) tr d d' => ∀ token password,
      call = .executePasswordReset token password → d' = d ∨ ResetDone tr token) ?_ ?_
    · intro c tr tr' d d' hp hJ token password hcall
      exact (hJ token password hcall).imp_right fun hdone => hdone.mono hp
    · intro w i o s s' d' hw _ hs hm token password hcall
      exact committed_of_reset hw hs hm hcall
  obtain ⟨t, ht, hJ⟩ := hentries e he
  cases hs.symm.trans ht
  rcases hJ token password hcall with heq | hdone
  · exact absurd (congrArg Database.users heq) hne
  · exact hdone

theorem resetDone_of_succeeded (h : Reachable C (.init d₀) w) (hs : w.sessions[i]? = some s)
    (hcall : s.call = .executePasswordReset token password) {p : Payload}
    (hp : s.prog = .ret (.ok p)) : ResetDone s.trace token := by
  have hreturned := returned h hs hp
  rw [hcall] at hreturned
  obtain ⟨pre, x, salt, hpre, hx, hcur⟩ := hreturned p rfl
  exact ⟨pre, x, _, hpre, hx, hcur⟩

end

/-! ## What an error leaves -/

/-- Every transaction that went through has only read. -/
def OnlyRead (tr : Trace) : Prop :=
  ∀ pre, pre ++ [⟨.commit, .ok true⟩] <+: tr →
    ∀ ev ∈ server.current pre, ∃ q, ev.1 = .sql q ∧ server.reads q = true

/-- The service ends in an error only if nothing but reads went through. -/
abbrev FailsClean {α : Type} (tr : Trace) (x : Service α) : Prop :=
  Svc.ends freeContract tr x fun tr' r => ∀ err, r = .error err → OnlyRead tr'

section

variable {α β : Type} {tr : Trace} {x : Service β} {f : β → Service α}

theorem onlyRead_nil : OnlyRead [] := by
  intro pre hpre
  simp at hpre

theorem OnlyRead.append (h : OnlyRead tr) {ev : Event Command Command.Resp}
    (hev : ev = ⟨.commit, .ok true⟩ →
      ∀ ev' ∈ server.current tr, ∃ q, ev'.1 = .sql q ∧ server.reads q = true) :
    OnlyRead (tr ++ [ev]) := by
  intro pre hpre
  rcases List.prefix_concat_iff.mp hpre with heq | hpre
  · obtain ⟨rfl, hlast⟩ := List.append_singleton_inj.mp heq
    exact hev hlast.symm
  · exact h pre hpre

/-- Anything but a commit that goes through. -/
theorem OnlyRead.other (h : OnlyRead tr) {ev : Event Command Command.Resp}
    (hev : ev ≠ ⟨.commit, .ok true⟩) : OnlyRead (tr ++ [ev]) := h.append fun heq => absurd heq hev

theorem not_onlyRead_of_resetDone {token : String} (hdone : ResetDone tr token) : ¬ OnlyRead tr := by
  intro hread
  obtain ⟨pre, x, hash, hpre, _, hcur⟩ := hdone
  have hmem : (⟨.sql (.updateUserPassword x.userID hash), .ok ()⟩ : Event Command Command.Resp)
      ∈ server.current pre := by
    rw [hcur]
    exact List.mem_cons_self ..
  obtain ⟨q, hq, hreads⟩ := hread pre hpre _ hmem
  cases hq
  cases hreads

/-- What issues no commit keeps it so. -/
theorem ends_onlyRead {y : Service α} (hy : Svc.Only (fun c => c ≠ .commit) y) (h : OnlyRead tr) :
    Svc.ends freeContract tr y fun tr' _ => OnlyRead tr' := by
  refine Prog.wp_of_only_inv (I := OnlyRead) hy (fun _ _ _ _ => trivial) (fun tr' c r hI hc _ => ?_) h
    fun _ _ h => h
  refine hI.other fun heq => hc ?_
  cases heq
  rfl

theorem ends_onlyRead_bind (hx : Svc.ends freeContract tr x fun tr' _ => OnlyRead tr')
    (hf : ∀ tr' b, OnlyRead tr' → Svc.ends freeContract tr' (f b) fun tr'' _ => OnlyRead tr'') :
    Svc.ends freeContract tr (x >>= f) fun tr' _ => OnlyRead tr' := by
  rw [Svc.ends_bind]
  refine Svc.ends_mono hx fun tr' r hr => ?_
  cases r with
  | ok b => exact hf tr' b hr
  | error err => exact hr

/-- A read on a bare connection goes through, and nothing else. -/
theorem ends_onlyRead_autocommit {q : Stmt} (hq : server.reads q = true) (h : OnlyRead tr) :
    Svc.ends freeContract tr (autocommit q) fun tr' _ => OnlyRead tr' := by
  unfold autocommit call orSqlError
  rw [Svc.ends_bind, Svc.ends_call]
  refine ⟨trivial, fun b _ => ?_⟩
  have h₁ : OnlyRead (tr ++ [⟨.begin, b⟩]) := h.other fun heq => by cases heq
  dsimp only
  rw [Svc.ends_bind, Svc.ends_ofExcept]
  cases b with
  | error e => exact h₁
  | ok b =>
    dsimp only [Except.mapError]
    rw [Svc.ends_bind, Svc.ends_call]
    refine ⟨trivial, fun r _ => ?_⟩
    have h₂ : OnlyRead (tr ++ [⟨.begin, .ok b⟩] ++ [⟨.sql q, r⟩]) := h₁.other fun heq => by cases heq
    cases r with
    | error e =>
      have hrollback : Svc.Only (fun c : Command => c ≠ .commit)
          (do let _ ← Svc.call .rollback; throw (.sql e) : Service q.Result) :=
        Svc.only_bind (Svc.only_call fun heq => by cases heq) fun _ => Svc.only_throw
      exact ends_onlyRead hrollback h₂
    | ok r =>
      dsimp only
      rw [Svc.ends_bind, Svc.ends_call]
      refine ⟨trivial, fun c _ => ?_⟩
      have h₃ : OnlyRead (tr ++ [⟨.begin, .ok b⟩] ++ [⟨.sql q, .ok r⟩] ++ [⟨.commit, c⟩]) := by
        refine h₂.append fun _ ev hev => ?_
        rw [current_autocommit] at hev
        rw [List.mem_singleton.mp hev]
        exact ⟨q, rfl, hq⟩
      exact ends_onlyRead (Svc.only_bind Svc.only_ofExcept fun _ => Svc.only_pure) h₃

/-- What comes first has only read. -/
theorem failsClean_bind (hx : Svc.ends freeContract tr x fun tr' _ => OnlyRead tr')
    (hf : ∀ tr' b, OnlyRead tr' → FailsClean tr' (f b)) : FailsClean tr (x >>= f) := by
  unfold FailsClean
  rw [Svc.ends_bind]
  refine Svc.ends_mono hx fun tr' r hr => ?_
  cases r with
  | ok b => exact hf tr' b hr
  | error err => exact fun _ _ => hr

theorem failsClean_throw {err : GoError} (h : OnlyRead tr) :
    FailsClean tr (throw err : Service α) := fun _ _ => h

theorem failsClean_withConn {context : String} {body : Service α} (h : OnlyRead tr)
    (hbody : ∀ tr', OnlyRead tr' → FailsClean tr' body) : FailsClean tr (withConn context body) := by
  have hacquire : Svc.Only (fun c : Command => c ≠ .commit) (ext .acquire) :=
    Svc.only_call fun heq => by cases heq
  refine failsClean_bind (ends_onlyRead hacquire h) fun tr₁ conn h₁ => ?_
  refine failsClean_bind (ends_onlyRead (Svc.only_mapError Svc.only_ofExcept) h₁) fun tr₂ _ h₂ => ?_
  unfold FailsClean
  rw [Svc.ends_bind, Svc.ends_attempt]
  refine Svc.ends_mono (hbody tr₂ h₂) fun tr₃ r h₃ => ?_
  dsimp only
  unfold ext call
  rw [Svc.ends_bind, Svc.ends_call]
  refine ⟨trivial, fun _ _ err herr => ?_⟩
  exact (h₃ err herr).other fun heq => by cases heq

/-- A transaction whose commit goes through ends in a result. -/
theorem failsClean_withTx {beginContext commitContext : String} {body : Service α} (h : OnlyRead tr)
    (hbody : Svc.Only (fun c => c ≠ .commit) body) :
    FailsClean tr (withTx beginContext commitContext body) := by
  have hacquire : Svc.Only (fun c : Command => c ≠ .commit) (ext .acquire) :=
    Svc.only_call fun heq => by cases heq
  refine failsClean_bind (ends_onlyRead hacquire h) fun tr₁ conn h₁ => ?_
  refine failsClean_bind (ends_onlyRead (Svc.only_mapError Svc.only_ofExcept) h₁) fun tr₂ _ h₂ => ?_
  have hbegin : Svc.Only (fun c : Command => c ≠ .commit) (call .begin) :=
    Svc.only_call fun heq => by cases heq
  have hrelease : ∀ {tr : Trace} {r : GoError}, OnlyRead tr →
      FailsClean tr (do let _ ← ext .release; throw r : Service α) := fun h =>
    failsClean_bind (ends_onlyRead (Svc.only_call fun heq => by cases heq) h) fun _ _ h => failsClean_throw h
  refine failsClean_bind (ends_onlyRead hbegin h₂) fun tr₃ b h₃ => ?_
  cases b with
  | error e => exact hrelease h₃
  | ok b =>
    refine failsClean_bind (ends_onlyRead (Svc.only_attempt hbody) h₃) fun tr₄ r h₄ => ?_
    cases r with
    | error e =>
      exact failsClean_bind (ends_onlyRead (Svc.only_call fun heq => by cases heq) h₄) fun _ _ h => hrelease h
    | ok a =>
      unfold commitTx ext call FailsClean
      dsimp only
      rw [Svc.ends_bind, Svc.ends_call]
      refine ⟨trivial, fun c _ => ?_⟩
      dsimp only
      rw [Svc.ends_bind, Svc.ends_call]
      refine ⟨trivial, fun x _ => ?_⟩
      have hclean : c ≠ .ok true →
          OnlyRead (tr₄ ++ [⟨.commit, c⟩] ++ [⟨.ext .release, x⟩]) := by
        intro hc
        refine OnlyRead.other (h₄.other fun heq => hc ?_) fun heq => by cases heq
        cases heq
        rfl
      rcases c with e | ok
      · exact fun _ _ => hclean fun heq => by cases heq
      · cases ok with
        | false => exact fun _ _ => hclean fun heq => by cases heq
        | true =>
          intro err herr
          cases herr

theorem commitless_executePasswordResetTx {x : PasswordResetToken} {hash : PasswordHash} :
    Svc.Only (fun c => c ≠ .commit) (AuthService.executePasswordResetTx x hash) := by
  have hsql : ∀ {q : Stmt}, Svc.Only (fun c : Command => c ≠ .commit) (sql q) := fun {q} =>
    Svc.only_bind (Svc.only_call fun heq => by cases heq) fun _ => Svc.only_ofExcept
  exact Svc.only_bind (Svc.only_mapError (Svc.only_mapError hsql)) fun _ =>
    Svc.only_bind (Svc.only_mapError (Svc.only_mapError hsql)) fun _ =>
      Svc.only_mapError (Svc.only_mapError hsql)

theorem failsClean_executePasswordReset {token password : String} (h : OnlyRead tr) :
    FailsClean tr (AuthService.executePasswordReset token password) := by
  refine failsClean_withConn h fun tr₁ h₁ => ?_
  refine failsClean_bind ?_ fun tr₂ x h₂ => ?_
  · unfold notFoundIs PasswordResetRepo.getByTokenHash DBTX.exec
    rw [Svc.ends_bind, Svc.ends_attempt]
    refine Svc.ends_mono (ends_onlyRead_bind ?_ ?_) fun tr₂ r h₂ => ?_
    · exact Svc.ends_mapError.mpr (ends_onlyRead_autocommit rfl h₁)
    · intro tr' row h'
      cases row with
      | none => exact ends_onlyRead Svc.only_throw h'
      | some x => exact ends_onlyRead Svc.only_pure h'
    · dsimp only
      cases r with
      | ok x => exact ends_onlyRead Svc.only_pure h₂
      | error err =>
        dsimp only
        split
        · exact ends_onlyRead Svc.only_throw h₂
        · exact ends_onlyRead Svc.only_throw h₂
  · split
    · exact failsClean_throw h₂
    · refine failsClean_bind (ends_onlyRead (Svc.only_call fun heq => by cases heq) h₂)
        fun tr₃ now h₃ => ?_
      split
      · exact failsClean_throw h₃
      · have hhash : Svc.Only (fun c : Command => c ≠ .commit) (hashPassword password) := by
          refine Prog.only_mono exts_hashPassword fun c hc heq => ?_
          rw [heq] at hc
          exact hc
        refine failsClean_bind (ends_onlyRead (Svc.only_mapError hhash) h₃) fun tr₄ hash h₄ => ?_
        exact failsClean_withTx h₄ commitless_executePasswordResetTx

end

/-- And so ends the call. -/
theorem call_failsClean (call : Call) :
    Prog.wp freeContract [] (server.code call) fun tr a => ∀ token password,
      call = .executePasswordReset token password → ∀ err, a = .error err → OnlyRead tr := by
  cases call with
  | executePasswordReset token password =>
    show Svc.ends freeContract []
      (AuthService.executePasswordReset token password >>= fun _ => pure Payload.nothing) _
    rw [Svc.ends_bind]
    refine Svc.ends_mono (failsClean_executePasswordReset onlyRead_nil) fun tr r hr => ?_
    cases r with
    | ok u =>
      intro _ _ _ err herr
      cases herr
    | error err =>
      intro _ _ _ err' herr
      cases herr
      exact hr err rfl
  | _ =>
    refine Prog.wp_of_free (fun _ _ => trivial) fun tr a token password h => ?_
    cases h

/-! ## Single use -/

/-- Of the calls with this token one at most succeeds or changes a user, and one that fails changes
none. -/
structure ResetOnce (w : World server) (token : String) : Prop where
  one : ∀ (i j : Nat) (s t : Session server) (p q : String), w.sessions[i]? = some s →
    w.sessions[j]? = some t → s.call = .executePasswordReset token p →
    t.call = .executePasswordReset token q → (∃ a, s.prog = .ret (.ok a)) ∨ Changes w i →
    (∃ b, t.prog = .ret (.ok b)) ∨ Changes w j → i = j
  failed : ∀ (i : Nat) (s : Session server) (p : String) (err : GoError), w.sessions[i]? = some s →
    s.call = .executePasswordReset token p → s.prog = .ret (.error err) → ¬ Changes w i

section

variable {C : World server → Action server → Prop} {d₀ : Database} {w : World server} {i : Nat}
  {s : Session server} {token password : String}

/-- **A reset that has failed has changed no user**, whatever went wrong and whoever else is at
work. -/
theorem not_changes_of_failed (h : Reachable C (.init d₀) w) (hs : w.sessions[i]? = some s)
    (hcall : s.call = .executePasswordReset token password) {err : GoError}
    (hp : s.prog = .ret (.error err)) : ¬ Changes w i := by
  intro hchanges
  have hread := h.returned (fun _ c _ => call_failsClean c) hs hp token password hcall err rfl
  exact not_onlyRead_of_resetDone (resetDone_of_changes h hs hcall hchanges) hread

/-- **Without races a reset token is used once.** -/
theorem resetOnce_of_unraced (h : Reachable UnracedReset (.init d₀) w) (token : String) :
    ResetOnce w token where
  one i j s t p q hs ht hscall htcall hsdone htdone := by
    by_contra hij
    have hdone : ∀ {n : Nat} {u : Session server} {r : String}, w.sessions[n]? = some u →
        u.call = .executePasswordReset token r →
        (∃ a, u.prog = .ret (.ok a)) ∨ Changes w n → Resetting u token := by
      intro n u r hu hcall hend
      refine resetting_of_resetDone ?_
      rcases hend with ⟨a, hp⟩ | hchanges
      · exact resetDone_of_succeeded h hu hcall hp
      · exact resetDone_of_changes h hu hcall hchanges
    exact not_both_resetting (fun _ _ h => h) h hij hs ht (hdone hs hscall hsdone)
      (hdone ht htcall htdone)
  failed i s p err hs hcall hp := not_changes_of_failed h hs hcall hp

end

/-! ## One reset after another, and two at once -/

namespace Sample

/-- Two resets with one token: the second begins when the first is done. -/
def resetsInTurn : List (Action server) :=
  [.start (.executePasswordReset "reset" "first")] ++ turns 0 20 100 ++
    [.start (.executePasswordReset "reset" "second")] ++ turns 1 5 200

/-- Both look the token up before either is done. -/
def resetsAtOnce : List (Action server) :=
  [.start (.executePasswordReset "reset" "first"), .start (.executePasswordReset "reset" "second")] ++
    turns 0 4 100 ++ turns 1 20 200 ++ turns 0 15 300

end Sample

/-- How a reset with this token has ended. -/
def resetEnded (token : String) (ok : Outcome → Bool) (s : Session server) : Bool :=
  match s.call, s.prog with
  | .executePasswordReset t _, .ret a => t = token && ok a
  | _, _ => false

theorem resetEnded_eq_true {ok : Outcome → Bool} {s : Session server} {token : String}
    (h : resetEnded token ok s = true) :
    ∃ p a, s.call = .executePasswordReset token p ∧ s.prog = .ret a ∧ ok a = true := by
  unfold resetEnded at h
  split at h
  · rename_i t p a hcall hp
    obtain ⟨htoken, hok⟩ := Bool.and_eq_true_iff.mp h
    rw [of_decide_eq_true htoken] at hcall
    exact ⟨p, a, hcall, hp, hok⟩
  · cases h

/-- A check on a step that implies `UnracedReset`: there is one token, and nobody else at work. -/
def oneByOne (w : World server) : Action server → Bool
  | .step i _ => w.db.passwordResetTokens.rows.length ≤ 1 &&
      (List.range w.sessions.length).all fun j =>
        j = i || (w.sessions[j]?).all (resetEnded "reset" fun _ => true)
  | _ => true

theorem unracedReset_of_oneByOne (w : World server) (a : Action server) (h : oneByOne w a = true) :
    UnracedReset w a := by
  rintro i o s token k rfl hs hp
  simp only [oneByOne, Bool.and_eq_true, decide_eq_true_eq, List.all_eq_true, List.mem_range,
    Bool.or_eq_true] at h
  obtain ⟨hone, hall⟩ := h
  constructor
  · intro x hx y hy _ _
    obtain ⟨l, hl⟩ : ∃ l, l = w.db.passwordResetTokens.rows := ⟨_, rfl⟩
    rw [← hl] at hone hx hy
    match l, hone, hx, hy with
    | [z], _, hx, hy => rw [List.mem_singleton.mp hx, List.mem_singleton.mp hy]
  · intro j t hij ht huse
    have hlt := (List.getElem?_eq_some_iff.mp ht).1
    rcases hall j hlt with heq | hended
    · exact hij heq.symm
    · rw [ht, Option.all_some] at hended
      obtain ⟨_, a, _, ha, _⟩ := resetEnded_eq_true hended
      exact huse.running a ha

/-- The second reset is refused. -/
theorem resetOnce_of_resetsInTurn : ∃ w : World server,
    Reachable UnracedReset (.init Sample.database) w ∧
    w.sessions.map (resetEnded "reset" Except.isOk) = [true, false] ∧ ResetOnce w "reset" := by
  have hrun : ((World.init Sample.database : World server).run oneByOne Sample.resetsInTurn).any
      (fun w => w.sessions.map (resetEnded "reset" Except.isOk) = [true, false]) = true := by
    decide +kernel
  obtain ⟨w, hw, hended⟩ := exists_of_run unracedReset_of_oneByOne hrun
  exact ⟨w, hw, of_decide_eq_true hended, resetOnce_of_unraced hw "reset"⟩

/-- **Both resets succeed** when each looks the token up before the other is done. -/
theorem not_resetOnce_of_resetsAtOnce : ∃ w : World server,
    Reachable (fun _ _ => True) (.init Sample.database) w ∧ ¬ ResetOnce w "reset" := by
  have hrun : ((World.init Sample.database : World server).run (fun _ _ => true)
      Sample.resetsAtOnce).any (fun w =>
        w.sessions[0]?.any (resetEnded "reset" Except.isOk) &&
        w.sessions[1]?.any (resetEnded "reset" Except.isOk)) = true := by
    decide +kernel
  obtain ⟨w, hw, hok⟩ := exists_of_run (C := fun _ _ => True) (fun _ _ _ => trivial) hrun
  simp only [Bool.and_eq_true, Option.any_eq_true] at hok
  obtain ⟨⟨s, hs, hfirst⟩, t, ht, hsecond⟩ := hok
  obtain ⟨_, a, hscall, hp, ha⟩ := resetEnded_eq_true hfirst
  obtain ⟨_, b, htcall, hq, hb⟩ := resetEnded_eq_true hsecond
  refine ⟨w, hw, fun honce => ?_⟩
  cases a with
  | error err => cases ha
  | ok p =>
    cases b with
    | error err => cases hb
    | ok q =>
      exact absurd (honce.one 0 1 s t _ _ hs ht hscall htcall (Or.inl ⟨p, hp⟩) (Or.inl ⟨q, hq⟩))
        (by decide)

end ExpenseSaas
