import CodebaseTrpc.Spec.Frames

/-! The tokens of a deployment: whose they are, and which refresh token a user still has. -/
namespace CodebaseTrpc
variable {P : Packages} {w w' : World}

/-- The text was signed for the user. -/
def Names (P : Packages) (userId token : String) : Prop :=
  ∃ t, token = P.jwt.sign t ∧ t.userId = userId

/-- In every reachable world, for every token ever signed and every token stored. -/
structure Ledger (P : Packages) (w : World) : Prop where
  text : ∀ i ∈ w.issued, i.text = P.jwt.sign i.payload
  owner : ∀ i ∈ w.issued, ∃ u ∈ w.db.users, u.id = i.payload.userId
  pending : ∀ u ∈ w.db.users, ∀ token ∈ u.emailVerificationToken, Names P u.id token
  refresh : ∀ u ∈ w.db.users, ∀ token ∈ u.refreshToken, ∃ i ∈ w.issued,
    i.kind = .refresh ∧ i.text = token ∧ i.payload.userId = u.id
  past : ∀ i ∈ w.issued, i.kind = .refresh → ∃ e, i.payload.exp = some e ∧
    e ≤ w.env.now / millisecondsPerSecond + 7 * secondsPerDay
  /-- The stored refresh token is the one that expires last. -/
  newest : ∀ i ∈ w.issued, i.kind = .refresh → ∀ u ∈ w.db.users, u.id = i.payload.userId →
    ∃ t e e', u.refreshToken = some (P.jwt.sign t) ∧ i.payload.exp = some e ∧ t.exp = some e' ∧
      e ≤ e'
  free : w.db.users ≠ [] → w.freeTier ≠ none

/-- A change of a user row that concerns no session. -/
structure Aside (P : Packages) (u u' : User) : Prop where
  id : u'.id = u.id
  refreshToken : u'.refreshToken = u.refreshToken
  pending : ∀ token ∈ u'.emailVerificationToken,
    token ∈ u.emailVerificationToken ∨ Names P u.id token

theorem Aside.refl (u : User) : Aside P u u := ⟨rfl, rfl, fun _ h => .inl h⟩

/-- Where no session starts and no user is added, it is enough to look at the rows. -/
theorem Ledger.aside (h : Ledger P w) (hrows : List.Forall₂ (Aside P) w.db.users w'.db.users)
    (hissued : ∃ l, w'.issued = w.issued ++ l ∧ ∀ i ∈ l, i.kind ≠ .refresh ∧
      i.text = P.jwt.sign i.payload ∧ ∃ u ∈ w.db.users, u.id = i.payload.userId)
    (hnow : w.env.now ≤ w'.env.now) (hproducts : w'.db.products = w.db.products) :
    Ledger P w' := by
  obtain ⟨l, hl, hnew⟩ := hissued
  have hkept : ∀ userId, (∃ u ∈ w.db.users, u.id = userId) → ∃ u ∈ w'.db.users, u.id = userId := by
    rintro _ ⟨u, hu, rfl⟩
    obtain ⟨u', hu', hR⟩ := Rows.exists_new hrows hu
    exact ⟨u', hu', hR.id⟩
  have hold : ∀ i ∈ w'.issued, i.kind = .refresh → i ∈ w.issued := by
    intro i hi hk
    rcases List.mem_append.mp (hl ▸ hi) with hi | hi
    · exact hi
    · exact absurd hk (hnew i hi).1
  refine ⟨?_, ?_, ?_, ?_, ?_, ?_, ?_⟩
  · intro i hi
    rcases List.mem_append.mp (hl ▸ hi) with hi | hi
    · exact h.text i hi
    · exact (hnew i hi).2.1
  · intro i hi
    rcases List.mem_append.mp (hl ▸ hi) with hi | hi
    · exact hkept _ (h.owner i hi)
    · exact hkept _ (hnew i hi).2.2
  · intro u' hu' token htoken
    obtain ⟨u, hu, hR⟩ := Rows.exists_old hrows hu'
    rw [hR.id]
    rcases hR.pending token htoken with hp | hp
    · exact h.pending u hu token hp
    · exact hp
  · intro u' hu' token htoken
    obtain ⟨u, hu, hR⟩ := Rows.exists_old hrows hu'
    obtain ⟨i, hi, hk, ht, hid⟩ := h.refresh u hu token (hR.refreshToken ▸ htoken)
    exact ⟨i, hl ▸ List.mem_append_left _ hi, hk, ht, hid.trans hR.id.symm⟩
  · intro i hi hk
    obtain ⟨e, he, hle⟩ := h.past i (hold i hi hk) hk
    exact ⟨e, he, Nat.le_trans hle (Nat.add_le_add_right (Nat.div_le_div_right hnow) _)⟩
  · intro i hi hk u' hu' hid
    obtain ⟨u, hu, hR⟩ := Rows.exists_old hrows hu'
    obtain ⟨t, e, e', hs, he, he', hle⟩ := h.newest i (hold i hi hk) hk u hu (hR.id ▸ hid)
    exact ⟨t, e, e', hR.refreshToken.trans hs, he, he', hle⟩
  · intro hne
    have hne' : w.db.users ≠ [] := by
      rintro hnil
      rw [hnil] at hrows
      exact hne (List.forall₂_nil_left_iff.mp hrows)
    rw [World.freeTier, hproducts]
    exact h.free hne'

/-- A new user has no token, and no token is its own. -/
theorem Ledger.insert {row : User} (h : Ledger P w)
    (hrows : w'.db.users = w.db.users ++ [row]) (hrefresh : row.refreshToken = none)
    (hpending : row.emailVerificationToken = none) (hissued : w'.issued = w.issued)
    (hnow : w'.env = w.env) (hproducts : w'.db.products = w.db.products)
    (hfree : w.freeTier ≠ none) : Ledger P w' := by
  have hmem : ∀ u, u ∈ w'.db.users ↔ u ∈ w.db.users ∨ u = row := by
    intro u
    rw [hrows, List.mem_append, List.mem_singleton]
  have hfresh : ∀ u ∈ w.db.users, u.id ≠ row.id := by
    have hn := w'.db.sound.users_id
    rw [hrows, List.map_append, List.map_singleton, List.nodup_append] at hn
    exact fun u hu hid => hn.2.2 u.id (List.mem_map.mpr ⟨u, hu, rfl⟩) row.id (by simp) hid
  refine ⟨?_, ?_, ?_, ?_, ?_, ?_, ?_⟩
  · exact hissued ▸ h.text
  · intro i hi
    obtain ⟨u, hu, hid⟩ := h.owner i (hissued ▸ hi)
    exact ⟨u, (hmem u).mpr (.inl hu), hid⟩
  · intro u hu token htoken
    rcases (hmem u).mp hu with hu | rfl
    · exact h.pending u hu token htoken
    · rw [hpending] at htoken
      cases htoken
  · intro u hu token htoken
    rcases (hmem u).mp hu with hu | rfl
    · rw [hissued]
      exact h.refresh u hu token htoken
    · rw [hrefresh] at htoken
      cases htoken
  · rw [hissued, hnow]
    exact h.past
  · intro i hi hk u hu hid
    rcases (hmem u).mp hu with hu | rfl
    · exact h.newest i (hissued ▸ hi) hk u hu hid
    · obtain ⟨v, hv, hvid⟩ := h.owner i (hissued ▸ hi)
      exact absurd (hvid.trans hid.symm) (hfresh v hv)
  · intro _
    rw [World.freeTier, hproducts]
    exact hfree

theorem refreshPayload_exp (userId : String) (now : ℕ) : (refreshPayload userId now).exp =
    some (now / millisecondsPerSecond + 7 * secondsPerDay) := rfl

/-- A token known after a session started was known before, or is one of its pair. -/
theorem mem_openSession_issued {userId : String} {i : Issued}
    (hi : i ∈ (w.openSession P userId).issued) : i ∈ w.issued ∨
      (i.text = P.jwt.sign i.payload ∧ i.payload.userId = userId ∧
        (i.kind = .refresh → i.payload = refreshPayload userId w.env.now)) := by
  rw [openSession_issued] at hi
  rcases List.mem_append.mp hi with hi | hi
  · exact .inl hi
  · right
    simp only [List.mem_cons, List.not_mem_nil, or_false] at hi
    rcases hi with rfl | rfl
    · exact ⟨rfl, rfl, nofun⟩
    · exact ⟨rfl, rfl, fun _ => rfl⟩

/-- A row after a session started: the one of its user holds the new token. -/
theorem mem_openSession_users {userId : String} {u' : User}
    (hu' : u' ∈ (w.openSession P userId).db.users) : ∃ u ∈ (w.settle userId).db.users,
      u'.id = u.id ∧ u'.emailVerificationToken = u.emailVerificationToken ∧
      ((u.id = userId ∧ u'.refreshToken = some (P.jwt.sign (refreshPayload userId w.env.now))) ∨
        (u.id ≠ userId ∧ u' = u)) := by
  rw [openSession_users] at hu'
  rcases Rows.mem_update.mp hu' with ⟨u, hu, hk, rfl⟩ | ⟨hu, hk⟩
  · exact ⟨u, hu, rfl, rfl, .inl ⟨hk, rfl⟩⟩
  · exact ⟨u', hu, rfl, rfl, .inr ⟨hk, rfl⟩⟩

/-- No user is lost. -/
theorem exists_openSession_users {userId : String} {u : User}
    (hu : u ∈ (w.settle userId).db.users) :
    ∃ u' ∈ (w.openSession P userId).db.users, u'.id = u.id := by
  rw [openSession_users]
  refine ⟨_, Rows.mem_update_of_mem hu, ?_⟩
  split_ifs <;> rfl

/-- Starting a session moves its user to the pair just signed. -/
theorem Ledger.openSession {u : User} (h : Ledger P w) (hu : u ∈ w.db.users) :
    Ledger P (w.openSession P u.id) := by
  -- settling the subscription first
  have hs : Ledger P (w.settle u.id) := by
    refine h.aside (rows_settle u.id Aside.refl fun v p => ?_) ⟨[], by simp, by simp⟩ (by simp)
      (by simp)
    exact ⟨rfl, rfl, fun _ => .inl⟩
  obtain ⟨u₁, hu₁⟩ := lookup_settle (lookup_of_mem hu)
  have hiss : (w.settle u.id).issued = w.issued := by simp
  refine ⟨?_, ?_, ?_, ?_, ?_, ?_, ?_⟩
  · intro i hi
    rcases mem_openSession_issued hi with hi | ⟨htext, -⟩
    · exact h.text i hi
    · exact htext
  · intro i hi
    rcases mem_openSession_issued hi with hi | ⟨-, huser, -⟩
    · obtain ⟨v, hv, hid⟩ := hs.owner i (hiss ▸ hi)
      exact hid ▸ exists_openSession_users hv
    · obtain ⟨v, hv, hid⟩ := exists_openSession_users (P := P) (Rows.lookup_mem hu₁)
      exact ⟨v, hv, (hid.trans (Rows.lookup_key hu₁)).trans huser.symm⟩
  · intro v' hv' token htoken
    obtain ⟨v, hv, hid, hp, -⟩ := mem_openSession_users hv'
    rw [hid]
    exact hs.pending v hv token (hp ▸ htoken)
  · intro v' hv' token htoken
    obtain ⟨v, hv, hid, -, ⟨hk, hr⟩ | ⟨-, rfl⟩⟩ := mem_openSession_users hv'
    · rw [hr] at htoken
      cases htoken
      exact ⟨⟨.refresh, refreshPayload u.id w.env.now, _⟩, by rw [openSession_issued]; simp, rfl,
        rfl, (hid.trans hk).symm⟩
    · obtain ⟨i, hi, hrest⟩ := hs.refresh v' hv token htoken
      rw [hiss] at hi
      exact ⟨i, by rw [openSession_issued]; exact List.mem_append_left _ hi, hrest⟩
  · intro i hi hk
    simp only [openSession_env]
    rcases mem_openSession_issued hi with hi | ⟨-, -, hpay⟩
    · exact h.past i hi hk
    · rw [hpay hk]
      exact ⟨_, refreshPayload_exp _ _, Nat.le_refl _⟩
  · intro i hi hk v' hv' hid'
    obtain ⟨v, hv, hid, -, ⟨-, hr⟩ | ⟨hvk, rfl⟩⟩ := mem_openSession_users hv' <;>
      rcases mem_openSession_issued hi with hi | ⟨-, huser, hpay⟩
    · obtain ⟨e, he, hle⟩ := h.past i hi hk
      exact ⟨_, e, _, hr, he, refreshPayload_exp _ _, hle⟩
    · rw [hpay hk]
      exact ⟨_, _, _, hr, refreshPayload_exp _ _, refreshPayload_exp _ _, Nat.le_refl _⟩
    · exact hs.newest i (hiss ▸ hi) hk v' hv hid'
    · exact absurd (hid'.trans huser) hvk
  · intro _
    have hfree : (w.openSession P u.id).freeTier = w.freeTier := by simp [World.freeTier]
    rw [hfree]
    exact h.free fun hnil => by rw [hnil] at hu; cases hu

theorem Ledger.resolved {payload : TGoogleTokenPayload} {u : User} (h : Ledger P w)
    (hres : Resolved P w payload u w') : Ledger P w' := by
  cases hres with
  | known => exact h
  | linked hg he hw =>
    refine h.aside (rows_updateUser Aside.refl fun v _ _ => ?_) ⟨[], by simp, by simp⟩ (by simp)
      (by simp)
    exact ⟨rfl, rfl, fun _ => .inl⟩
  | created hg he hp hw =>
    exact h.insert hw rfl rfl (by simp) (by simp) (by simp) (by simp [hp])

/-- The token a wrong code leads to is the same user's. -/
theorem Ledger.drifted {u : User} {token : String} {t : Token} (h : Ledger P w)
    (hu : u ∈ w.db.users) (hp : PendingChange P w u token t) (hd : Drifted P w u.id t w') :
    Ledger P w' := by
  have hid : t.userId = u.id := by
    obtain ⟨t', rfl, hid⟩ := h.pending u hu token hp.stored
    have hdec := hp.opens.2.2
    rw [P.jwt.decode_sign] at hdec
    cases hdec
    exact hid
  obtain ⟨l, hl, hall⟩ := hd.issued
  refine h.aside (rows_drifted Aside.refl hd fun v v' hv hk hdr => ?_) ⟨l, hl, fun i hi => ?_⟩
    (by simp [hd.env]) hd.products
  · refine ⟨hdr.id, hdr.refreshToken, fun tok htok => ?_⟩
    rcases hdr.pending with hp | hp | ⟨iat, hp⟩ <;> rw [hp] at htok
    · exact .inl htok
    · cases htok
    · cases htok
      exact .inr ⟨_, rfl, hid.trans hk.symm⟩
  · obtain ⟨hkind, htext, iat, hpay⟩ := hall i hi
    refine ⟨by simp [hkind], htext, u, hu, ?_⟩
    rw [hpay]
    exact hid.symm

/-- Every request keeps the ledger. -/
theorem Ledger.effect {request : Request} {reply : Except Err Reply} (h : Ledger P w)
    (heff : Effect P w request reply w') : Ledger P w' := by
  -- what most requests do: one update that concerns no session
  have hupdate : ∀ (id : String) (updates : UserUpdates),
      (∀ v, Aside P v (updates.apply w.env.now v)) → Ledger P (w.exec (updateUser id updates)) :=
    fun id updates hup => h.aside (rows_updateUser Aside.refl fun v _ _ => hup v)
      ⟨[], by simp, by simp⟩ (by simp) (by simp)
  have hverification : ∀ (v : World) (u : User), Ledger P v → u ∈ v.db.users →
      Ledger P (v.issueVerification P u) := by
    intro v u hv hu
    refine hv.aside (rows_issueVerification u Aside.refl fun x _ hid => ?_)
      ⟨_, issueVerification_issued P v u, fun i hi => ?_⟩ (by simp) (by simp)
    · exact ⟨rfl, rfl, fun tok htok => .inr ⟨_, (Option.some.inj htok).symm, hid.symm⟩⟩
    · obtain rfl := List.mem_singleton.mp hi
      exact ⟨by simp, rfl, u, hu, rfl⟩
  cases heff with
  | none => exact h
  | google _ hres => exact (h.resolved hres).openSession hres.mem
  | googleStopped _ hres => exact h.resolved hres
  | login hu _ => exact h.openSession (Rows.lookup_mem hu)
  | refresh _ hu => exact h.openSession (Rows.lookup_mem hu)
  | signup hproduct hrow =>
    refine hverification _ _ (h.insert hrow rfl rfl (by simp) (by simp) (by simp) ?_) ?_
    · simp [hproduct]
    · rw [hrow]; simp
  | logout _ => exact hupdate _ _ fun v => ⟨rfl, rfl, fun _ => .inl⟩
  | verifyEmail => exact hupdate _ _ fun v => ⟨rfl, rfl, fun _ => .inl⟩
  | resendVerificationEmail hauth _ => exact hverification _ _ h hauth.mem
  | @forgotPassword email u _ hu =>
    refine h.aside (Rows.forall₂_refl Aside.refl _) ⟨_, rfl, fun i hi => ?_⟩ (Nat.le_refl _) rfl
    obtain rfl := List.mem_singleton.mp hi
    exact ⟨by simp, rfl, u, Rows.lookup_mem hu, rfl⟩
  | resetPassword => exact hupdate _ _ fun v => ⟨rfl, rfl, fun _ => .inl⟩
  | updateUserById => exact hupdate _ _ fun v => ⟨rfl, rfl, fun _ => .inl⟩
  | @requestEmailChange auth newEmail u _ hauth _ _ =>
    refine h.aside (rows_issueCode u newEmail Aside.refl fun x _ hid => ?_)
      ⟨_, issueCode_issued P w u newEmail, fun i hi => ?_⟩ (by simp) (by simp)
    · exact ⟨rfl, rfl, fun tok htok => .inr ⟨_, (Option.some.inj htok).symm, hid.symm⟩⟩
    · obtain rfl := List.mem_singleton.mp hi
      exact ⟨by simp, rfl, u, hauth.mem, rfl⟩
  | emailChanged => exact hupdate _ _ fun v => ⟨rfl, rfl, fun tok htok => by cases htok⟩
  | codeWrong hauth hp _ _ hd _ => exact h.drifted hauth.mem hp hd
  | createCheckoutSession =>
    exact h.aside (Rows.forall₂_refl Aside.refl _) ⟨[], by simp, by simp⟩ (Nat.le_refl _) rfl
  | createCustomerPortalSession =>
    exact h.aside (Rows.forall₂_refl Aside.refl _) ⟨[], by simp, by simp⟩ (Nat.le_refl _) rfl
  | webhook hb =>
    exact h.aside (rows_billed Aside.refl hb fun v p => ⟨rfl, rfl, fun _ => .inl⟩)
      ⟨[], by simp, by simp⟩ (Nat.le_refl _) hb.products

theorem ledger_fresh (h : Fresh w) : Ledger P w where
  text := by simp [h.issued]
  owner := by simp [h.issued]
  pending := by simp [h.users]
  refresh := by simp [h.users]
  past := by simp [h.issued]
  newest := by simp [h.issued]
  free := fun hne => absurd h.users hne

theorem Ledger.idle {env : Environment} (h : Ledger P w) (hle : w.env.now ≤ env.now) :
    Ledger P { w with env } :=
  h.aside (Rows.forall₂_refl Aside.refl _) ⟨[], by simp, by simp⟩ hle rfl

/-- The ledger holds in every reachable world. -/
theorem RunWhere.ledger {C : List Entry → Exchange → Prop} {w₀ : World} {tr : List Entry}
    (h : RunWhere P C w₀ tr w) (h₀ : w₀.trx = none) (hl : Ledger P w₀) : Ledger P w := by
  refine (Trace.Run.invariant (I := fun _ w => w.trx = none ∧ Ledger P w) h ⟨h₀, hl⟩ ?_).2
  rintro _ _ _ _ ⟨htrx, hl⟩ ⟨hle | hx, -⟩
  · exact ⟨htrx, hl.idle hle⟩
  · have heff := effect_of_exec htrx hx
    exact ⟨heff.trx.trans htrx, hl.effect heff⟩

end CodebaseTrpc
