import CodebaseTrpc.Invariants.Ledger

/-! Which tokens `authMiddleware` lets through. It checks a signature and a clock, and no
purpose: every token of a user opens every protected procedure until it expires. -/
namespace CodebaseTrpc
variable {P : Packages} {w : World}

/-- The authorization header carries the token, with or without its prefix. -/
def Carries (auth : Option String) (token : String) : Prop :=
  auth = some token ∨ auth = some ("Bearer " ++ token)

/-- The token opens a protected procedure only if it was issued for access; a token of another
kind is answered with `UNAUTHORIZED`. -/
def Separated (P : Packages) (w : World) (i : Issued) : Prop :=
  ∀ auth, Carries auth i.text →
    (∀ user, (authMiddleware P auth).run w = (.ok user, w) → i.kind = .access) ∧
    (i.kind ≠ .access → ∃ message,
      (authMiddleware P auth).run w = (.error (.trpc .unauthorized message), w))

/-- By the clock of the server, the token has reached its `exp`. -/
def Expired (i : Issued) (now : ℕ) : Prop :=
  ∃ exp ∈ i.payload.exp, exp ≤ now / millisecondsPerSecond

theorem tokenOf_bearer (token : String) : tokenOf ("Bearer " ++ token) = token := by
  have htoList : ("Bearer " ++ token).toList = tokenPrefix ++ token.toList := by
    rw [String.toList_append]; rfl
  have hp : tokenPrefix.isPrefixOf ("Bearer " ++ token).toList = true := by
    rw [List.isPrefixOf_iff_prefix, htoList]
    exact List.prefix_append _ _
  rw [tokenOf, if_pos hp, htoList, List.drop_left, String.ofList_toList]

theorem tokenOf_of_blank {token : String} (h : ' ' ∉ token.toList) : tokenOf token = token := by
  refine if_neg fun hp => ?_
  have hp' := List.isPrefixOf_iff_prefix.mp hp
  exact h (hp'.subset (by decide))

/-- A header that carries a signed token is read as that token. -/
theorem Carries.tokenOf {auth : Option String} {t : Token} (h : Carries auth (P.jwt.sign t)) :
    ∃ header, truthyText auth = some header ∧ tokenOf header = P.jwt.sign t := by
  rcases h with rfl | rfl
  · exact ⟨_, truthyText_of_ne (P.jwt.sign_ne_empty t), tokenOf_of_blank (P.jwt.sign_no_blank t)⟩
  · refine ⟨_, truthyText_of_ne fun h => ?_, tokenOf_bearer _⟩
    have hlen := congrArg String.length h
    simp at hlen

/-- A signed token is live until its `exp`. -/
theorem live_sign {t : Token} {now : ℕ} : Live P (P.jwt.sign t) now ↔
    ∀ exp ∈ t.exp, now / millisecondsPerSecond < exp := by
  simp [Live, P.jwt.authentic_sign, P.jwt.decode_sign]

/-- An expired token is refused, whatever it was signed for. -/
theorem run_authMiddleware_expired {auth : Option String} {t : Token} {now exp : ℕ}
    (hcarry : Carries auth (P.jwt.sign t)) (hnow : w.env.now = now) (hexp : t.exp = some exp)
    (hle : exp ≤ now / millisecondsPerSecond) : ∃ message,
      (authMiddleware P auth).run w = (.error (.trpc .unauthorized message), w) := by
  obtain ⟨header, hh, htok⟩ := hcarry.tokenOf
  obtain ⟨rfl, hne⟩ := truthyText_eq_some hh
  have hdead : ¬ Live P (P.jwt.sign t) w.env.now := by
    rw [live_sign, hexp]
    simp only [Option.mem_def, Option.some.injEq, forall_eq', hnow]
    omega
  have hrun : (authenticate P (P.jwt.sign t)).run w = (.error (tokenError P (P.jwt.sign t)), w) :=
    Async.run_bind_error (by simp [run_verifyJwtToken, P.jwt.sign_ne_empty, hdead])
  rw [authMiddleware_eq header hne, htok, Async.run_tryCatch, hrun]
  exact ⟨_, rfl⟩

/-- In every reachable world, a token issued there is kept apart at the gate exactly if it is
an access token or has expired. -/
theorem gate_separates_iff {w₀ : World} {tr : List Entry} (hrun : ServerRun P w₀ tr w)
    (h₀ : Fresh w₀) {i : Issued} (hi : i ∈ w.issued) :
    Separated P w i ↔ i.kind = .access ∨ Expired i w.env.now := by
  have hl := RunWhere.ledger hrun h₀.trx (ledger_fresh h₀)
  have htext := hl.text i hi
  constructor
  · intro hsep
    by_contra hcon
    obtain ⟨hkind, hlive⟩ := not_or.mp hcon
    have hopen : opens P i.text w.env.now i.payload := by
      refine ⟨htext ▸ P.jwt.sign_ne_empty _, ?_, htext ▸ P.jwt.decode_sign _⟩
      rw [htext, live_sign]
      intro exp hexp
      by_contra hle
      exact hlive ⟨exp, hexp, by omega⟩
    obtain ⟨u, hu, hid⟩ := hl.owner i hi
    have hauth : Authenticates P w (some i.text) u := by
      refine ⟨i.text, i.payload, truthyText_of_ne hopen.1, ?_, hid ▸ lookup_of_mem hu⟩
      rw [htext, tokenOf_of_blank (P.jwt.sign_no_blank _), ← htext]
      exact hopen
    exact hkind ((hsep (some i.text) (.inl rfl)).1 u (run_authMiddleware_ok hauth))
  · rintro (hkind | ⟨exp, hexp, hle⟩) auth hcarry
    · exact ⟨fun _ _ => hkind, fun h => absurd hkind h⟩
    · obtain ⟨message, hm⟩ := run_authMiddleware_expired (htext ▸ hcarry) rfl hexp hle
      refine ⟨fun user hu => ?_, fun _ => ⟨message, hm⟩⟩
      rw [hm] at hu
      cases hu

namespace Sample

set_option maxRecDepth 10000 in
theorem refreshToken_mem : refreshToken ∈ signedIn.issued := by decide +kernel

end Sample

/-- The gate at a refresh token that has not expired. -/
theorem gate_separates_iff_signedIn : Sample.refreshToken ∈ Sample.signedIn.issued ∧
    (Separated Sample.packages Sample.signedIn Sample.refreshToken ↔
      Sample.refreshToken.kind = .access ∨
        Expired Sample.refreshToken Sample.signedIn.env.now) := by
  obtain ⟨tr, hrun⟩ := Sample.serverRun_signedIn
  exact ⟨Sample.refreshToken_mem, gate_separates_iff hrun Sample.start_fresh
    Sample.refreshToken_mem⟩

set_option maxRecDepth 10000 in
/-- A refresh token opens the protected procedures. -/
theorem refresh_token_opens_gate : ¬ ∀ (tr : List Entry) (w : World),
    ServerRun Sample.packages Sample.start tr w →
      ∀ i ∈ w.issued, Separated Sample.packages w i := by
  intro h
  obtain ⟨tr, hrun⟩ := Sample.serverRun_signedIn
  have hkind : Sample.refreshToken.kind ≠ .access := by decide +kernel
  obtain ⟨message, hm⟩ := (h tr _ hrun _ Sample.refreshToken_mem (some Sample.refreshToken.text)
    (.inl rfl)).2 hkind
  have hok : ((authMiddleware Sample.packages (some Sample.refreshToken.text)).run
      Sample.signedIn).1.isOk = true := by decide +kernel
  change (authMiddleware _ _).run Sample.signedIn = _ at hm
  rw [hm] at hok
  cases hok

end CodebaseTrpc
