import CodebaseTrpc.Spec.RawApi
import CodebaseTrpc.Spec.Served
import CodebaseTrpc.Spec.Server

/-! Where a new password hash comes from. All parties send what they like, as JSON and with any
header, only no token of the deployment that it has not issued. -/
namespace CodebaseTrpc

/-- A raw request served, with the worlds around it. -/
structure RawExchange where
  before : World
  request : RawRequest
  reply : Except Err Reply
  after : World

inductive RawEntry where
  | idle (env : Environment)
  | call (exchange : RawExchange)

section Run
variable (P : Packages)

inductive RawServes : World → RawEntry → World → Prop
  | idle {w : World} {env : Environment} (h : w.env.now ≤ env.now) :
      RawServes w (.idle env) { w with env }
  | call {w w' : World} {request : RawRequest} {reply : Except Err Reply}
      (h : (handleRaw P request).Exec w reply w') :
      RawServes w (.call ⟨w, request, reply, w'⟩) w'

/-- The token of the header and the texts among the fields. -/
def RawRequest.presented : RawRequest → List String
  | .call _ auth input => auth.toList.map tokenOf ++
      ((inputProperties input).getD []).filterMap fun kv => match kv.2 with
        | .string s => some s
        | _ => none
  | .webhook _ => []

/-- Every token presented that passes the signature check was issued. -/
def Unforged (w : World) (request : RawRequest) : Prop :=
  ∀ token ∈ request.presented, P.jwt.authentic token = true → ∃ i ∈ w.issued, i.text = token

/-- A run of calls and events in which no token is forged. -/
abbrev RawRun (w₀ : World) (tr : List RawEntry) (w : World) : Prop :=
  Trace.Run (fun _ w entry w' => RawServes P w entry w' ∧
    ∀ x, entry = .call x → Unforged P x.before x.request) w₀ tr w

end Run

/-- The exchange is a `forgotPassword` that issued the token, for the user with the email. -/
def IssuesReset (x : RawExchange) (i : Issued) : Prop :=
  ∃ auth input fields email u, x.request = .call .forgotPassword auth input ∧
    inputProperties input = some fields ∧ textOf fields "email" = some email ∧
    Rows.lookup User.email email x.before.db.users = some u ∧ i.payload.userId = u.id ∧
    x.after.issued = x.before.issued ++ [i]

/-- The purpose that a kind of token carries in its payload. -/
def TokenKind.carried : TokenKind → Option TokenPurpose
  | .purpose p => some p
  | _ => none

/-- Every token carries the purpose of its kind, and a reset token was issued by `forgotPassword`
for its user. -/
structure TokensTraced (P : Packages) (tr : List RawEntry) (w : World) : Prop where
  trx : w.trx = none
  text : ∀ i ∈ w.issued, i.text = P.jwt.sign i.payload
  purpose : ∀ i ∈ w.issued, i.payload.purpose = i.kind.carried
  reset : ∀ i ∈ w.issued, i.kind = .purpose .passwordReset →
    ∃ x, RawEntry.call x ∈ tr ∧ IssuesReset x i

/-- The exchange is a `resetPassword` with an unexpired token that `forgotPassword` issued for the
user, earlier in the run. -/
structure ResetBy (P : Packages) (tr : List RawEntry) (x : RawExchange) (userId : String) :
    Prop where
  reset : ∃ auth input fields token t i, x.request = .call .resetPassword auth input ∧
    inputProperties input = some fields ∧ textOf fields "token" = some token ∧
    opens P token x.before.env.now t ∧ t.userId = userId ∧
    i ∈ x.before.issued ∧ i.text = token ∧ i.payload = t ∧
    (∃ y, RawEntry.call y ∈ tr ∧ IssuesReset y i) ∧
    ∀ j ∈ x.before.issued, j.text = token → j.kind = .purpose .passwordReset

variable {P : Packages} {w w' : World}

/-- What a request signs: every token carries the purpose of its kind, and a reset token is alone
and for the user that `forgotPassword` found. -/
def Signs (P : Packages) (w : World) (request : Request) (l : List Issued) : Prop :=
  ∀ i ∈ l, i.text = P.jwt.sign i.payload ∧ i.payload.purpose = i.kind.carried ∧
    (i.kind = .purpose .passwordReset → l = [i] ∧ ∃ email u, request = .forgotPassword email ∧
      Rows.lookup User.email email w.db.users = some u ∧ i.payload.userId = u.id)

/-- Tokens of another kind need no account of their request. -/
theorem signs_of_kind {request : Request} {l : List Issued}
    (h : ∀ i ∈ l, i.text = P.jwt.sign i.payload ∧ i.payload.purpose = i.kind.carried ∧
      i.kind ≠ .purpose .passwordReset) : Signs P w request l := fun i hi =>
  ⟨(h i hi).1, (h i hi).2.1, fun hk => absurd hk (h i hi).2.2⟩

theorem signs_session (request : Request) (userId : String) (now : ℕ) : Signs P w request
    [⟨.access, accessPayload userId now, P.jwt.sign (accessPayload userId now)⟩,
     ⟨.refresh, refreshPayload userId now, P.jwt.sign (refreshPayload userId now)⟩] := by
  refine signs_of_kind fun i hi => ?_
  simp only [List.mem_cons, List.not_mem_nil, or_false] at hi
  rcases hi with rfl | rfl <;> exact ⟨rfl, rfl, nofun⟩

theorem Resolved.issued {payload : TGoogleTokenPayload} {u : User}
    (h : Resolved P w payload u w') : w'.issued = w.issued := by
  cases h <;> simp

theorem Effect.signed {request : Request} {reply : Except Err Reply}
    (h : Effect P w request reply w') : ∃ l, w'.issued = w.issued ++ l ∧ Signs P w request l := by
  have hnone : w'.issued = w.issued → ∃ l, w'.issued = w.issued ++ l ∧ Signs P w request l :=
    fun h => ⟨[], by simpa using h, by simp [Signs]⟩
  cases h with
  | none => exact hnone rfl
  | @google _ _ u _ _ hres =>
    refine ⟨_, ?_, signs_session _ u.id w.env.now⟩
    rw [openSession_issued, hres.issued, hres.env]
  | googleStopped _ hres => exact hnone hres.issued
  | login => exact ⟨_, openSession_issued .., signs_session _ _ _⟩
  | refresh => exact ⟨_, openSession_issued .., signs_session _ _ _⟩
  | signup =>
    refine ⟨[⟨.purpose .emailVerification, verificationPayload w.env.uuid w.env.now,
      P.jwt.sign (verificationPayload w.env.uuid w.env.now)⟩],
      by simp [issueVerification_issued], signs_of_kind fun i hi => ?_⟩
    obtain rfl := List.mem_singleton.mp hi
    exact ⟨rfl, rfl, by simp⟩
  | resendVerificationEmail =>
    refine ⟨_, issueVerification_issued .., signs_of_kind fun i hi => ?_⟩
    obtain rfl := List.mem_singleton.mp hi
    exact ⟨rfl, rfl, by simp⟩
  | @forgotPassword email u _ hu =>
    refine ⟨_, rfl, fun i hi => ?_⟩
    obtain rfl := List.mem_singleton.mp hi
    exact ⟨rfl, rfl, fun _ => ⟨rfl, email, u, rfl, hu, rfl⟩⟩
  | requestEmailChange =>
    refine ⟨_, issueCode_issued .., signs_of_kind fun i hi => ?_⟩
    obtain rfl := List.mem_singleton.mp hi
    exact ⟨rfl, rfl, by simp⟩
  | codeWrong _ hp _ _ hdrift _ =>
    obtain ⟨l, hl, hall⟩ := hdrift.issued
    refine ⟨l, hl, signs_of_kind fun i hi => ?_⟩
    obtain ⟨hkind, htext, iat, hpay⟩ := hall i hi
    refine ⟨htext, ?_, by simp [hkind]⟩
    rw [hpay, hkind]
    rfl
  | _ => exact hnone (by simp)

theorem tokensTraced_fresh (h : Fresh w) : TokensTraced P [] w where
  trx := h.trx
  text := by simp [h.issued]
  purpose := by simp [h.issued]
  reset := by simp [h.issued]

/-- A typed request behind a raw one reads its fields. -/
theorem typed_forgotPassword {request : RawRequest} {email : String}
    (h : request.typed = some (.forgotPassword email)) : ∃ auth input fields,
      request = .call .forgotPassword auth input ∧ inputProperties input = some fields ∧
        textOf fields "email" = some email := by
  cases request with
  | webhook event => cases h
  | call procedure auth input =>
    cases procedure <;> simp [RawRequest.typed, Option.bind_eq_some_iff] at h
    obtain ⟨fields, hf, htext⟩ := h
    exact ⟨auth, input, fields, rfl, hf, htext⟩

theorem typed_resetPassword {request : RawRequest} {token newPassword : String}
    (h : request.typed = some (.resetPassword token newPassword)) : ∃ auth input fields,
      request = .call .resetPassword auth input ∧ inputProperties input = some fields ∧
        textOf fields "token" = some token := by
  cases request with
  | webhook event => cases h
  | call procedure auth input =>
    cases procedure <;> simp [RawRequest.typed, Option.bind_eq_some_iff] at h
    obtain ⟨fields, hf, htext, -⟩ := h
    exact ⟨auth, input, fields, rfl, hf, htext⟩

/-- A text field is one of the texts presented. -/
theorem mem_presented {procedure : Procedure} {auth : Option String} {input : Option Json}
    {fields : List (String × Json)} {key s : String} (hf : inputProperties input = some fields)
    (ht : textOf fields key = some s) :
    s ∈ (RawRequest.call procedure auth input).presented := by
  unfold textOf at ht
  split at ht
  next s' hl =>
    obtain rfl := Option.some.inj ht
    obtain ⟨l₁, l₂, rfl, -⟩ := List.lookup_eq_some_iff.mp hl
    simp only [RawRequest.presented, hf, Option.getD_some, List.mem_append, List.mem_filterMap]
    exact .inr ⟨(key, .string s'), by simp, rfl⟩
  next => cases ht

/-- A raw exchange did nothing, or what a typed request does. -/
theorem RawServes.effect {request : RawRequest} {reply : Except Err Reply}
    (htrx : w.trx = none) (h : (handleRaw P request).Exec w reply w') :
    w' = w ∨ ∃ typed, request.typed = some typed ∧ Effect P w typed reply w' := by
  rcases exec_handleRaw_cases h with h | ⟨typed, ht, h⟩
  · exact .inl h.2
  · exact .inr ⟨typed, ht, effect_of_exec htrx h⟩

theorem TokensTraced.step {tr : List RawEntry} {entry : RawEntry} (h : TokensTraced P tr w)
    (hs : RawServes P w entry w') : TokensTraced P (entry :: tr) w' := by
  have hold : ∀ i ∈ w.issued, i.kind = .purpose .passwordReset →
      ∃ x, RawEntry.call x ∈ entry :: tr ∧ IssuesReset x i := by
    intro i hi hk
    obtain ⟨x, hx, hissues⟩ := h.reset i hi hk
    exact ⟨x, List.mem_cons_of_mem _ hx, hissues⟩
  cases hs with
  | idle hle => exact ⟨h.trx, h.text, h.purpose, hold⟩
  | @call _ request reply hx =>
    rcases RawServes.effect h.trx hx with rfl | ⟨typed, ht, heff⟩
    · exact ⟨h.trx, h.text, h.purpose, hold⟩
    obtain ⟨l, hl, hsigned⟩ := heff.signed
    have hmem : ∀ i ∈ w'.issued, i ∈ w.issued ∨ i ∈ l := fun i hi => List.mem_append.mp (hl ▸ hi)
    refine ⟨heff.trx.trans h.trx, fun i hi => ?_, fun i hi => ?_, fun i hi hk => ?_⟩
    · exact (hmem i hi).elim (h.text i) fun hi => (hsigned i hi).1
    · exact (hmem i hi).elim (h.purpose i) fun hi => (hsigned i hi).2.1
    · rcases hmem i hi with hi | hi
      · exact hold i hi hk
      obtain ⟨rfl, email, u, rfl, hu, hid⟩ := (hsigned i hi).2.2 hk
      obtain ⟨auth, input, fields, rfl, hf, htext⟩ := typed_forgotPassword ht
      exact ⟨_, List.mem_cons_self, auth, input, fields, email, u, rfl, hf, htext, hu, hid, hl⟩

theorem RawRun.traced {w₀ : World} {tr : List RawEntry} (h : RawRun P w₀ tr w) (h₀ : Fresh w₀) :
    TokensTraced P tr w :=
  Trace.Run.invariant h (tokensTraced_fresh h₀) fun _ _ _ _ htr hs => htr.step hs.1

/-- Over every run, a password hash changes only by a `resetPassword` with an unexpired token that
`forgotPassword` issued for that user. -/
theorem password_provenance {w₀ : World} {tr : List RawEntry} {x : RawExchange}
    (hrun : RawRun P w₀ (.call x :: tr) w) (h₀ : Fresh w₀) {u : User}
    (hu : u ∈ x.before.db.users) : ∃ u' ∈ x.after.db.users, u'.id = u.id ∧
      (u'.passwordHash = u.passwordHash ∨ ResetBy P tr x u.id) := by
  cases hrun with
  | @step _ v _ _ hrun hs =>
    obtain ⟨hs, hunforged⟩ := hs
    have htr := RawRun.traced hrun h₀
    replace hunforged := hunforged x rfl
    cases hs with
    | call hx =>
      rcases RawServes.effect htr.trx hx with rfl | ⟨typed, ht, heff⟩
      · exact ⟨u, hu, rfl, .inl rfl⟩
      obtain ⟨u', hu', hserved⟩ := heff.served.exists_new hu
      refine ⟨u', hu', hserved.id, hserved.passwordHash.imp_right ?_⟩
      rintro ⟨token, newPassword, t, rfl, hopen, hpurpose, hid, -⟩
      obtain ⟨auth, input, fields, rfl, hf, htext⟩ := typed_resetPassword ht
      obtain ⟨i, hi, hitext⟩ := hunforged token (mem_presented hf htext) hopen.2.1.1
      -- every record of that text is of that payload
      have hpayload : ∀ j ∈ v.issued, j.text = token → j.payload = t := by
        rintro j hj rfl
        have hdec := hopen.2.2
        rw [htr.text j hj, P.jwt.decode_sign] at hdec
        exact Option.some.inj hdec
      have hkind : ∀ j ∈ v.issued, j.text = token → j.kind = .purpose .passwordReset := by
        intro j hj hjt
        have hcarried := htr.purpose j hj
        rw [hpayload j hj hjt, hpurpose] at hcarried
        cases hk : j.kind with
        | access => rw [hk] at hcarried; cases hcarried
        | refresh => rw [hk] at hcarried; cases hcarried
        | purpose p => rw [hk] at hcarried; rw [Option.some.inj hcarried]
      exact ⟨auth, input, fields, token, t, i, rfl, hf, htext, hopen, hid, hi, hitext,
        hpayload i hi hitext, htr.reset i hi (hkind i hi hitext), hkind⟩

namespace Sample

/-- A raw request served when nothing else runs. -/
def rawServed (w : World) (request : RawRequest) : RawExchange :=
  let served := (handleRaw packages request).run w
  ⟨w, request, served.1, served.2⟩

def signupSent : RawExchange := rawServed start (.call .signup none (some (.object
  [("fullName", .string "Ann Lee"), ("email", .string "ann@mail"), ("phone", .string "555"),
    ("password", .string "secret12"), ("age", .number 30)])))

def forgotSent : RawExchange := rawServed signupSent.after (.call .forgotPassword none (some
  (.object [("email", .string "ann@mail")])))

/-- The token of the mail comes back. -/
def resetSent : RawExchange := rawServed forgotSent.after (.call .resetPassword none (some (.object
  [("token", .string (forgotSent.after.issued.getD 1 default).text),
    ("newPassword", .string "better34")])))

theorem rawServes_served (w : World) (request : RawRequest) :
    RawServes packages w (.call (rawServed w request)) (rawServed w request).after :=
  .call (Async.exec_run ..)

instance (w : World) (request : RawRequest) : Decidable (Unforged packages w request) := by
  unfold Unforged; infer_instance

set_option maxRecDepth 10000 in
theorem sent_facts : Unforged packages start signupSent.request ∧
    Unforged packages signupSent.after forgotSent.request ∧
    Unforged packages forgotSent.after resetSent.request ∧
    buyer forgotSent.after ∈ forgotSent.after.db.users ∧
    ∀ u' ∈ resetSent.after.db.users, u'.passwordHash ≠ (buyer forgotSent.after).passwordHash := by
  decide +kernel

end Sample

/-- Ann resets her password with the token that was mailed to her. -/
theorem password_provenance_reset : ResetBy Sample.packages
    [.call Sample.forgotSent, .call Sample.signupSent] Sample.resetSent
    (Sample.buyer Sample.forgotSent.after).id := by
  obtain ⟨h₁, h₂, h₃, hu, hne⟩ := Sample.sent_facts
  have hrun : RawRun Sample.packages Sample.start
      [.call Sample.resetSent, .call Sample.forgotSent, .call Sample.signupSent]
      Sample.resetSent.after := by
    refine .step (.step (.step .start ⟨Sample.rawServes_served .., ?_⟩)
      ⟨Sample.rawServes_served .., ?_⟩) ⟨Sample.rawServes_served .., ?_⟩
    · rintro x ⟨⟩
      exact h₁
    · rintro x ⟨⟩
      exact h₂
    · rintro x ⟨⟩
      exact h₃
  obtain ⟨u', hu', -, heq | hreset⟩ := password_provenance hrun Sample.start_fresh hu
  · exact absurd heq (hne u' hu')
  · exact hreset

end CodebaseTrpc
