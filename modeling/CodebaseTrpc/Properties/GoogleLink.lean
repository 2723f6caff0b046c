import CodebaseTrpc.Spec.Logins

/-! Accounts linked to Google. A sign-in with an unknown subject links the row that has its email,
also where that row is linked to another subject. -/
namespace CodebaseTrpc
variable {P : Packages} {w w' : World}

/-- A sign-in with an unknown subject finds no linked row under its email. -/
def LinksOnce (P : Packages) (x : Exchange) : Prop :=
  ∀ credential payload v, x.request = .google credential → 1 ≤ jsLength credential →
    GooglePayload P x.before payload → payload.sub.length ≤ 255 →
    Rows.lookup User.googleId (some payload.sub) x.before.db.users = none →
    Rows.lookup User.email payload.email x.before.db.users = some v → v.googleId = none

/-- The row of the user has the subject. -/
def HasGoogle (w : World) (userId g : String) : Prop :=
  ∃ u ∈ w.db.users, u.id = userId ∧ u.googleId = some g

/-- The row of the user has the subject, and every sign-in with it opens a session of the user.
What can stand in the way is an empty credential, or a billing row that has run out where there is
no free tier to go back to. -/
structure Linked (P : Packages) (g userId : String) (w : World) : Prop where
  row : HasGoogle w userId g
  resolves : ∀ credential payload reply w', GooglePayload P w payload → payload.sub = g →
    (handle P (.google credential)).Exec w reply w' →
      if ¬ 1 ≤ jsLength credential then reply = .error inputRefused ∧ w' = w
      else if w.lapsed userId ∧ w.freeTier = none then reply = .error freeTierNotFound ∧ w' = w
      else reply = .ok (.tokens (sessionTokens P userId w.env.now)) ∧ w' = w.openSession P userId

/-- The column is unique. -/
theorem Db.google_eq {db : Db} {u v : User} {g : String} (hu : u ∈ db.users) (hv : v ∈ db.users)
    (hug : u.googleId = some g) (hvg : v.googleId = some g) : v = u := by
  by_contra hne
  have hid : v.id ≠ u.id := fun hid => hne (Db.user_eq hv hu hid)
  have hsame : ((Rows.update User.id u.id id db.users).filterMap User.googleId).Nodup := by
    rw [Rows.update_id]
    exact db.sound.users_google
  exact (Rows.nodup_filterMap_update db.sound.users_id db.sound.users_google hu rfl).mp hsame v hv
    hid g hvg hug

theorem lookup_google {u : User} {g : String} (hu : u ∈ w.db.users) (hg : u.googleId = some g) :
    Rows.lookup User.googleId (some g) w.db.users = some u := by
  obtain ⟨v, hv⟩ := Rows.exists_lookup User.googleId hu hg
  rw [hv, Db.google_eq hu (Rows.lookup_mem hv) hg (Rows.lookup_key hv)]

theorem GooglePayload.unique {p q : TGoogleTokenPayload} (h : GooglePayload P w p)
    (h' : GooglePayload P w q) : p = q := by
  obtain ⟨ticket, ht, hp⟩ := h
  obtain ⟨ticket', ht', hq⟩ := h'
  cases ht.symm.trans ht'
  exact Except.ok.inj (hp.symm.trans hq)

theorem run_verifyGoogleCredential {payload : TGoogleTokenPayload}
    (h : GooglePayload P w payload) : (verifyGoogleCredential P).run w = (.ok payload, w) := by
  obtain ⟨ticket, ht, hp⟩ := h
  simp only [verifyGoogleCredential, Async.run_act, id, ht, hp]
  rfl

/-- A payload with the subject of a row resolves to its user. -/
theorem run_resolveGoogle_known {payload : TGoogleTokenPayload} {u : User} (hu : u ∈ w.db.users)
    (hg : u.googleId = some payload.sub) : (resolveGoogle P payload).run w = (.ok u, w) := by
  simp only [resolveGoogle, Async.bind_eq]
  rw [Async.run_bind_ok (run_getUserByGoogleId ..)]
  simp only [lookup_google hu hg]
  rfl

/-- A sign-in with an empty credential is refused by its schema. -/
theorem exec_google_empty {credential : String} {reply : Except Err Reply}
    (hempty : ¬ 1 ≤ jsLength credential)
    (hx : (handle P (.google credential)).Exec w reply w') :
    reply = .error inputRefused ∧ w' = w := by
  replace hx := (Async.exec_iff_run (awaits_handle P fun _ _ h => by cases h)).mp hx
  simp only [handle, validated, hempty, if_false] at hx
  exact ⟨(Prod.mk.inj hx).1.symm, (Prod.mk.inj hx).2.symm⟩

/-- What the service returns is answered. -/
theorem exec_google {credential : String} {reply : Except Err Reply}
    {r : Except Err LoginResponse} {t : World} (hlen : 1 ≤ jsLength credential)
    (hr : (authenticateWithGoogle P).run w = (r, t))
    (hx : (handle P (.google credential)).Exec w reply w') :
    reply = r.map Reply.tokens ∧ w' = t := by
  replace hx := (Async.exec_iff_run (awaits_handle P fun _ _ h => by cases h)).mp hx
  simp only [handle, validated, hlen, if_true] at hx
  rcases run_return_cases hx with ⟨e, hrun, rfl⟩ | ⟨tokens, hrun, rfl⟩
  · cases hr.symm.trans hrun
    exact ⟨rfl, rfl⟩
  · cases hr.symm.trans hrun
    exact ⟨rfl, rfl⟩

theorem HasGoogle.linked {userId g : String} (h : HasGoogle w userId g) : Linked P g userId w where
  row := h
  resolves credential payload reply w' hpay hsub hx := by
    obtain ⟨u, hu, rfl, hg⟩ := h
    have hrun : (authenticateWithGoogle P).run w = (startSession P u.id).run w := by
      rw [authenticateWithGoogle_eq, Async.run_bind_ok (run_verifyGoogleCredential hpay),
        Async.run_bind_ok (run_resolveGoogle_known hu (hsub ▸ hg))]
    rw [run_startSession P (lookup_of_mem hu)] at hrun
    split
    next hempty => exact exec_google_empty hempty hx
    next hlen =>
      have hlen' := not_not.mp hlen
      split at hrun
      next hstopped =>
        rw [if_pos hstopped]
        exact exec_google hlen' hrun hx
      next hopen =>
        rw [if_neg hopen]
        exact exec_google hlen' hrun hx

/-- A row before and after a change that leaves the link of the user alone. -/
def KeepsGoogle (userId : String) (u u' : User) : Prop :=
  u'.id = u.id ∧ (u.id = userId → u'.googleId = u.googleId)

theorem KeepsGoogle.refl (userId : String) (u : User) : KeepsGoogle userId u u :=
  ⟨rfl, fun _ => rfl⟩

theorem SameLogin.keepsGoogle {u u' : User} (h : SameLogin u u') (userId : String) :
    KeepsGoogle userId u u' := ⟨h.id, fun _ => h.googleId⟩

section Step
variable {userId g : String}

theorem HasGoogle.rows (h : HasGoogle w userId g)
    (hrows : List.Forall₂ (KeepsGoogle userId) w.db.users w'.db.users) :
    HasGoogle w' userId g := by
  obtain ⟨u, hu, rfl, hg⟩ := h
  obtain ⟨u', hu', hid, hkeep⟩ := Rows.exists_new hrows hu
  exact ⟨u', hu', hid, (hkeep rfl).trans hg⟩

theorem HasGoogle.append {u : User} (h : HasGoogle w userId g)
    (hrow : w'.db.users = w.db.users ++ [u]) : HasGoogle w' userId g := by
  obtain ⟨v, hv, hid, hg⟩ := h
  exact ⟨v, by rw [hrow]; exact List.mem_append_left _ hv, hid, hg⟩

/-- The row that a sign-in links is another one, or was not linked. -/
theorem HasGoogle.resolved {payload : TGoogleTokenPayload} {u : User} {w₁ : World}
    (h : HasGoogle w userId g) (hres : Resolved P w payload u w₁)
    (honce : payload.sub.length ≤ 255 →
      Rows.lookup User.googleId (some payload.sub) w.db.users = none →
      ∀ v, Rows.lookup User.email payload.email w.db.users = some v → v.googleId = none) :
    HasGoogle w₁ userId g := by
  have hmem := hres.mem
  cases hres with
  | known => exact h
  | @linked v hnone he hw =>
    have hroom : payload.sub.length ≤ 255 := by
      have hfit := (World.db _).sound.users_fit _ hmem
      simpa [linkGoogle] using hfit.2.2.2.2.1
    obtain ⟨u, hu, rfl, hg⟩ := h
    have hne : u.id ≠ v.id := by
      intro hid
      rw [Db.user_eq hu (Rows.lookup_mem he) hid, honce hroom hnone v he] at hg
      cases hg
    exact ⟨u, by rw [hw]; exact Rows.mem_update.mpr (.inr ⟨hu, hne⟩), rfl, hg⟩
  | created _ _ _ hw => exact h.append hw

theorem HasGoogle.openSession (h : HasGoogle w userId g) (id : String) :
    HasGoogle (w.openSession P id) userId g :=
  h.rows ((sameLogin_openSession id).imp fun _ _ hr => hr.keepsGoogle userId)

theorem HasGoogle.startSession {r : Except Err LoginResponse} (h : HasGoogle w userId g)
    (hr : (startSession P userId).run w = (r, w')) : HasGoogle w' userId g := by
  have h' := h
  obtain ⟨u, hu, rfl, -⟩ := h'
  rcases run_startSession_cases hu hr with ⟨-, rfl⟩ | ⟨-, rfl⟩
  · exact h
  · exact h.openSession u.id

theorem HasGoogle.verifyEmailChange {auth : Option String} {code : String}
    {reply : Except Err Reply} (h : HasGoogle w userId g) (htrx : w.trx = none)
    (hx : (handle P (.verifyEmailChange auth code)).Exec w reply w')
    (hdone : ¬ CompletesChange P userId ⟨w, .verifyEmailChange auth code, reply, w'⟩) :
    HasGoogle w' userId g := by
  refine h.rows (rows_verifyEmailChange (KeepsGoogle.refl userId) ?_ ?_ htrx hx hdone)
  · exact fun u u' hid hne => ⟨hid, fun hu => absurd hu hne⟩
  · intro u token t newEmail iat _ _ _ _
    rw [countAttempt_users]
    exact Rows.forall₂_update (KeepsGoogle.refl userId) fun _ _ _ => ⟨rfl, fun _ => rfl⟩

/-- One request, other than a completed email change of the user. -/
theorem HasGoogle.step {x : Exchange} (h : HasGoogle x.before userId g)
    (htrx : x.before.trx = none) (hx : (handle P x.request).Exec x.before x.reply x.after)
    (honce : LinksOnce P x) (hdone : ¬ CompletesChange P userId x) :
    HasGoogle x.after userId g := by
  obtain ⟨w, request, reply, w'⟩ := x
  dsimp only at h htrx hx ⊢
  have heff := effect_of_exec htrx hx
  by_cases hreq : request.WritesLogin
  swap
  · exact h.rows ((heff.sameLogin hreq).imp fun _ _ hr => hr.keepsGoogle userId)
  cases heff with
  | none => exact h
  | @google credential _ _ _ hpay hres =>
    by_cases hlen : 1 ≤ jsLength credential
    · refine HasGoogle.openSession (h.resolved hres ?_) _
      exact fun hroom hnone v he => honce _ _ v rfl hlen hpay hroom hnone he
    · rw [(exec_google_empty hlen hx).2]
      exact h
  | @googleStopped credential _ _ _ _ hpay hres =>
    by_cases hlen : 1 ≤ jsLength credential
    · exact h.resolved hres fun hroom hnone v he => honce _ _ v rfl hlen hpay hroom hnone he
    · rw [(exec_google_empty hlen hx).2]
      exact h
  | signup _ hrow =>
    exact (h.append hrow).rows ((sameLogin_issueVerification _).imp fun _ _ hr =>
      hr.keepsGoogle userId)
  | resetPassword =>
    exact h.rows (rows_updateUser (KeepsGoogle.refl userId) fun _ _ _ => ⟨rfl, fun _ => rfl⟩)
  | updateUserById =>
    exact h.rows (rows_updateUser (KeepsGoogle.refl userId) fun _ _ _ => ⟨rfl, fun _ => rfl⟩)
  | emailChanged => exact h.verifyEmailChange htrx hx hdone
  | codeWrong => exact h.verifyEmailChange htrx hx hdone
  | _ => exact hreq.elim

end Step

theorem updateUser_linkGoogle {v : User} {sub : String} (hv : v ∈ w.db.users)
    (hroom : sub.length ≤ 255)
    (hnone : Rows.lookup User.googleId (some sub) w.db.users = none) :
    ∃ db, updateUser v.id (linkGoogle sub) w w.db =
      .ok ((linkGoogle sub).apply w.env.now v, db) := by
  have hc : Constraints (Rows.update User.id v.id ((linkGoogle sub).apply w.env.now) w.db.users)
      w.db.products w.db.billings := by
    refine (constraints_updateUser w.db.sound hv rfl).mpr ⟨?_, ?_, ?_⟩
    · intro u hu hne he
      exact hne (congrArg User.id (List.inj_on_of_nodup_map w.db.sound.users_email hu hv he))
    · rintro u hu - g hg heq
      obtain rfl : sub = g := by simpa [linkGoogle] using heq
      exact Rows.lookup_eq_none.mp hnone u hu hg
    · have hfit := w.db.sound.users_fit v hv
      exact ⟨hfit.1, hfit.2.1, hfit.2.2.1, hfit.2.2.2.1, by simpa [linkGoogle] using hroom,
        hfit.2.2.2.2.2⟩
  simp only [updateUser, lookup_of_mem hv, store?_of_constraints hc]
  exact ⟨_, rfl⟩

/-- A sign-in that finds a row by its email writes its subject there. -/
theorem exec_google_links {credential : String} {payload : TGoogleTokenPayload} {v : User}
    {reply : Except Err Reply} (hlen : 1 ≤ jsLength credential) (hpay : GooglePayload P w payload)
    (hroom : payload.sub.length ≤ 255)
    (hnone : Rows.lookup User.googleId (some payload.sub) w.db.users = none)
    (he : Rows.lookup User.email payload.email w.db.users = some v)
    (hx : (handle P (.google credential)).Exec w reply w') : HasGoogle w' v.id payload.sub := by
  have hv := Rows.lookup_mem he
  obtain ⟨db, hdb⟩ := updateUser_linkGoogle hv hroom hnone
  have hlinked :
      HasGoogle (w.exec (updateUser v.id (linkGoogle payload.sub))) v.id payload.sub := by
    refine ⟨(linkGoogle payload.sub).apply w.env.now v, ?_, rfl, by simp [linkGoogle]⟩
    rw [exec_updateUser_users_of_ok hdb]
    exact Rows.mem_update_self User.id _ hv
  have hresolve : (resolveGoogle P payload).run w =
      (.ok ((linkGoogle payload.sub).apply w.env.now v),
        w.exec (updateUser v.id (linkGoogle payload.sub))) := by
    simp only [resolveGoogle, Async.bind_eq]
    rw [Async.run_bind_ok (run_getUserByGoogleId ..)]
    simp only [hnone]
    rw [Async.run_bind_ok (run_getUserByEmail ..)]
    simp only [he, updateUserById]
    rw [run_write, hdb]
    rfl
  rcases hr : (authenticateWithGoogle P).run w with ⟨r, t⟩
  obtain ⟨-, rfl⟩ := exec_google hlen hr hx
  rw [authenticateWithGoogle_eq, Async.run_bind_ok (run_verifyGoogleCredential hpay),
    Async.run_bind_ok hresolve] at hr
  exact hlinked.startSession hr

/-- A request keeps every link, but that of a completed email change, exactly if it links no
linked row. -/
theorem linksOnce_iff {x : Exchange} (htrx : x.before.trx = none)
    (hx : (handle P x.request).Exec x.before x.reply x.after) :
    LinksOnce P x ↔ ∀ userId g, HasGoogle x.before userId g → ¬ CompletesChange P userId x →
      HasGoogle x.after userId g := by
  refine ⟨fun honce userId g h hdone => h.step htrx hx honce hdone, ?_⟩
  intro hkeep credential payload v hreq hlen hpay hroom hnone he
  have hv := Rows.lookup_mem he
  by_contra hlinked
  obtain ⟨g, hg⟩ := Option.ne_none_iff_exists'.mp hlinked
  have hdone : ¬ CompletesChange P v.id x := by
    rintro ⟨_, _, _, _, hreq', -⟩
    rw [hreq] at hreq'
    cases hreq'
  obtain ⟨u, hu, hid, hug⟩ := hkeep v.id g ⟨v, hv, rfl, hg⟩ hdone
  rw [hreq] at hx
  obtain ⟨u', hu', hid', hug'⟩ := exec_google_links hlen hpay hroom hnone he hx
  -- the row has the new subject, which no row had
  obtain rfl := Db.user_eq hu' hu (hid'.trans hid.symm)
  obtain rfl := Option.some.inj (hug'.symm.trans hug)
  exact Rows.lookup_eq_none.mp hnone v hv hg

/-- In a run whose sign-ins link no linked row, a link lasts until its user completes an email
change. -/
theorem google_link_stable {s : World} {post : List Entry} {u : User} {g : String}
    (htrx : s.trx = none) (hrun : RunWhere P (fun _ x => LinksOnce P x) s post w)
    (hu : u ∈ s.db.users) (hg : u.googleId = some g)
    (hdone : ∀ x, .call x ∈ post → ¬ CompletesChange P u.id x) : Linked P g u.id w := by
  have hall := Trace.Run.restrict hrun (Q := fun i => ∀ x, i = .call x → .call x ∈ post) (by
    rintro i hi x rfl
    exact hi)
  refine (Trace.Run.invariant (I := fun _ w => w.trx = none ∧ HasGoogle w u.id g) hall
    ⟨htrx, u, hu, rfl, hg⟩ ?_).2.linked
  rintro _ _ _ _ ⟨htrx, h⟩ ⟨⟨hserves | hx, honce⟩, hmem⟩
  · exact ⟨htrx, h⟩
  · exact ⟨((effect_of_exec htrx hx).trx).trans htrx,
      h.step htrx hx (honce _ rfl) (hdone _ (hmem _ rfl))⟩

namespace Sample

/-- Google vouches for a credential with this subject and email. -/
def vouch (sub email uuid : String) : Move :=
  .wait { env with google := .ticket (some ⟨some sub, some email, some "Ann Lee"⟩), uuid }

def googleSignIn : Move := .ask (.google "credential")

/-- Ann signs in with Google for the first time. -/
def joining : List Move := [vouch "g1" "ann@mail" "u1", googleSignIn]

def joined : World := play packages start joining
def joinedRow : User := joined.db.users.headD default

def profileEmail (email : String) : Move :=
  .ask (.updateUserById (some (joined.issued.getD 0 default).text) { email := some email })

/-- She enters Bob's address in her profile, and Bob signs in with his Google account. -/
def takeover : List Move := [profileEmail "bob@mail", vouch "g2" "bob@mail" "u2", googleSignIn]

def taken : List Entry × World := playFrom packages [] joined takeover

/-- She enters another address of her own, and Bob signs in with his Google account. -/
def beside : List Move := [profileEmail "lee@mail", vouch "g2" "bob@mail" "u2", googleSignIn]

def movedOut : List Entry × World := playFrom packages [] joined beside

/-- The world in which Bob signs in. -/
def vouched : World :=
  play packages joined [profileEmail "lee@mail", vouch "g2" "bob@mail" "u2"]

theorem joined_facts : joined.trx = none ∧ joinedRow ∈ joined.db.users ∧
    joinedRow.id = "u1" ∧ joinedRow.googleId = some "g1" ∧
    taken.2.db.users.map (fun u => (u.id, u.email, u.googleId)) =
      [("u1", "bob@mail", some "g2")] := by decide +kernel

theorem vouched_facts : Rows.lookup User.email "bob@mail" vouched.db.users = none ∧
    movedOut.2.db.users.map (fun u => (u.id, u.email, u.googleId)) =
      [("u1", "lee@mail", some "g1"), ("u2", "bob@mail", some "g2")] := by decide +kernel

theorem googlePayload_vouched : GooglePayload packages vouched ⟨"g2", "bob@mail", "Ann Lee"⟩ :=
  ⟨⟨some "g2", some "bob@mail", some "Ann Lee"⟩, by decide +kernel, rfl⟩

theorem no_change {moves : List Move}
    (h : ∀ auth code, .ask (.verifyEmailChange auth code) ∉ moves) :
    ∀ x, .call x ∈ (playFrom packages [] joined moves).1 →
      ¬ CompletesChange packages joinedRow.id x := by
  rintro x hx ⟨auth, code, u, reply, hreq, -⟩
  rcases mem_playFrom hx with hx | hx
  · cases hx
  · exact h auth code (hreq ▸ hx)

/-- Bob has no account yet. -/
theorem serverRun_movedOut :
    RunWhere packages (fun _ x => LinksOnce packages x) joined movedOut.1 movedOut.2 := by
  have hmoved : RunWhere packages (fun _ x => LinksOnce packages x) joined
      (playFrom packages [] joined [profileEmail "lee@mail", vouch "g2" "bob@mail" "u2"]).1
      vouched := by
    refine runWhere_play _ _ _ _ ?_
    intro request hreq tr v r v' credential payload u hgoogle
    obtain rfl : request = .google credential := hgoogle
    simp [profileEmail, vouch] at hreq
  refine .step hmoved ⟨Move.serves packages vouched googleSignIn, ?_⟩
  rintro _ ⟨⟩ credential payload v - - hpay - - he
  obtain rfl := hpay.unique googlePayload_vouched
  cases vouched_facts.1.symm.trans he

theorem serverRun_joined : ∃ tr, ServerRun packages start tr joined := serverRun_play ..

theorem serverRun_taken : ServerRun packages joined taken.1 taken.2 :=
  runWhere_play _ _ _ _ fun _ _ _ _ _ _ => trivial

end Sample

/-- The link lasts while its user changes the address in the profile, and Bob signs in. -/
theorem google_link_stable_moved :
    Linked Sample.packages "g1" Sample.joinedRow.id Sample.movedOut.2 ∧
    Sample.movedOut.2.db.users.map (fun u => (u.id, u.email, u.googleId)) =
      [("u1", "lee@mail", some "g1"), ("u2", "bob@mail", some "g2")] := by
  refine ⟨?_, Sample.vouched_facts.2⟩
  exact google_link_stable Sample.joined_facts.1 Sample.serverRun_movedOut Sample.joined_facts.2.1
    Sample.joined_facts.2.2.2.1 (Sample.no_change (by
      simp [Sample.beside, Sample.profileEmail, Sample.vouch, Sample.googleSignIn]))

/-- A sign-in with another subject replaces a link. -/
theorem google_link_replaced : ¬ ∀ (P : Packages) (w₀ s w : World) (pre post : List Entry)
    (u : User) (g : String), Fresh w₀ → ServerRun P w₀ pre s → u ∈ s.db.users →
      u.googleId = some g → ServerRun P s post w →
        (∀ x, .call x ∈ post → ¬ CompletesChange P u.id x) → Linked P g u.id w := by
  intro h
  obtain ⟨-, hu, hid, hg, hrows⟩ := Sample.joined_facts
  obtain ⟨pre, hpre⟩ := Sample.serverRun_joined
  have hlinked := h _ _ _ _ _ _ _ _ Sample.start_fresh hpre hu hg Sample.serverRun_taken
    (Sample.no_change (by simp [Sample.takeover, Sample.profileEmail, Sample.vouch,
      Sample.googleSignIn]))
  obtain ⟨u, hu, -, hug⟩ := hlinked.row
  have hmem := List.mem_map_of_mem (f := fun u => (u.id, u.email, u.googleId)) hu
  rw [hrows, hug] at hmem
  simp at hmem

end CodebaseTrpc
