import CodebaseTrpc.Invariants.Ledger
import CodebaseTrpc.Spec.Awaits

/-! Whose session a stored refresh token is, and whose row a refresh rewrites. -/
namespace CodebaseTrpc
variable {P : Packages} {w w' : World}

/-- The token was issued as a refresh token, and its payload names the user. -/
def IssuedTo (P : Packages) (w : World) (userId token : String) : Prop :=
  ∃ i ∈ w.issued, i.kind = .refresh ∧ i.text = token ∧ P.jwt.decode token = some i.payload ∧
    i.payload.userId = userId

/-- Every stored refresh token is one of its row's user, and no two rows store the same. -/
structure SessionsBound (P : Packages) (w : World) : Prop where
  issued : ∀ u ∈ w.db.users, ∀ token ∈ u.refreshToken, IssuedTo P w u.id token
  single : (w.db.users.filterMap User.refreshToken).Nodup

/-- The payload of the token names the user. -/
def BelongsTo (P : Packages) (userId token : String) : Prop :=
  ∃ t, P.jwt.decode token = some t ∧ t.userId = userId

/-- The row of the user before and after the refresh: two columns and the time of the update. -/
def RefreshedRow (w : World) (token : String) (u u' : User) : Prop :=
  ∃ productId, u' = { u with
    refreshToken := some token, currentProductId := productId, updatedAt := w.env.now }

/-- A refresh of the user's session that returned `tokens`. -/
structure Refreshed (P : Packages) (w : World) (userId : String) (tokens : LoginResponse)
    (w' : World) : Prop where
  access : BelongsTo P userId tokens.accessToken
  refresh : BelongsTo P userId tokens.refreshToken
  row : ∃ u ∈ w.db.users, u.id = userId ∧ ∃ u', RefreshedRow w tokens.refreshToken u u' ∧
    w'.db.users = Rows.update User.id userId (fun _ => u') w.db.users
  products : w'.db.products = w.db.products
  billings : w'.db.billings = w.db.billings

theorem IssuedTo.user_eq {userId userId' token : String} (h : IssuedTo P w userId token)
    (h' : IssuedTo P w userId' token) : userId = userId' := by
  obtain ⟨i, -, -, -, hi, rfl⟩ := h
  obtain ⟨j, -, -, -, hj, rfl⟩ := h'
  rw [Option.some.inj (hi.symm.trans hj)]

/-- Rows with one token have one id, and ids are unique. -/
theorem sessionsBound_of_issued
    (h : ∀ u ∈ w.db.users, ∀ token ∈ u.refreshToken, IssuedTo P w u.id token) :
    SessionsBound P w := by
  refine ⟨h, ?_⟩
  have hids := List.pairwise_map.mp w.db.sound.users_id
  rw [List.Nodup, List.pairwise_filterMap]
  refine hids.imp_of_mem fun {u v} hu hv hne => ?_
  rintro token htoken _ htoken' rfl
  exact hne ((h u hu token htoken).user_eq (h v hv token htoken'))

theorem Ledger.sessionsBound (h : Ledger P w) : SessionsBound P w := by
  refine sessionsBound_of_issued fun u hu token htoken => ?_
  obtain ⟨i, hi, hk, rfl, hid⟩ := h.refresh u hu token htoken
  have hdecode : P.jwt.decode i.text = some i.payload := by rw [h.text i hi, P.jwt.decode_sign]
  exact ⟨i, hi, hk, rfl, hdecode, hid⟩

/-- A started session rewrites the row of its user, in two columns. -/
theorem openSession_row {u : User} (hu : u ∈ w.db.users) : ∃ u',
    RefreshedRow w (sessionTokens P u.id w.env.now).refreshToken u u' ∧
      (w.openSession P u.id).db.users = Rows.update User.id u.id (fun _ => u') w.db.users := by
  rw [openSession_users]
  rcases settle_users w u.id with h | ⟨product, -, -, h⟩
  · rw [h]
    exact ⟨_, ⟨u.currentProductId, rfl⟩, Db.update_user hu _⟩
  · rw [h, Rows.update_update (UserUpdates.apply_id _ _)]
    exact ⟨_, ⟨some product.id, rfl⟩, Db.update_user hu _⟩

theorem belongsTo_sessionTokens (P : Packages) (userId : String) (now : ℕ) :
    BelongsTo P userId (sessionTokens P userId now).accessToken ∧
      BelongsTo P userId (sessionTokens P userId now).refreshToken :=
  ⟨⟨_, P.jwt.decode_sign _, rfl⟩, _, P.jwt.decode_sign _, rfl⟩

/-- A refresh finds the row of the user its token names, and no other. -/
theorem SessionsBound.refreshed {token : String} {tokens : LoginResponse}
    (h : SessionsBound P w) (hx : (refreshAccessToken P token).Exec w (.ok tokens) w') :
    ∃ t, P.jwt.decode token = some t ∧ Refreshed P w t.userId tokens w' := by
  rw [Async.exec_iff_run (awaits_refreshAccessToken P token)] at hx
  rcases run_refreshAccessToken_cases hx with ⟨⟨_, heq⟩, -⟩ | ⟨u, -, -, hl, hopen, rfl⟩
  · cases heq
  cases hopen
  have hu := Rows.lookup_mem hl
  obtain ⟨i, -, -, -, hdec, hid⟩ := h.issued u hu token (Rows.lookup_key hl)
  obtain ⟨ha, hr⟩ := belongsTo_sessionTokens P u.id w.env.now
  refine ⟨i.payload, hdec, ?_⟩
  rw [hid]
  exact ⟨ha, hr, ⟨u, hu, rfl, openSession_row hu⟩, by simp, by simp⟩

/-- In every reachable world the stored sessions are their users' own, and a refresh that
succeeds stays with the user of the token. -/
theorem session_binding {w₀ : World} {tr : List Entry} (hrun : ServerRun P w₀ tr w)
    (h₀ : Fresh w₀) : SessionsBound P w ∧
      ∀ token tokens w', (refreshAccessToken P token).Exec w (.ok tokens) w' →
        ∃ t, P.jwt.decode token = some t ∧ Refreshed P w t.userId tokens w' := by
  have hb := (RunWhere.ledger hrun h₀.trx (ledger_fresh h₀)).sessionsBound
  exact ⟨hb, fun _ _ _ => hb.refreshed⟩

namespace Sample

theorem refresh_isOk :
    ((refreshAccessToken packages refreshToken.text).run signedIn).1.isOk = true := by
  decide +kernel

end Sample

/-- Ann's session after her login, and a refresh of it. -/
theorem session_binding_signedIn : SessionsBound Sample.packages Sample.signedIn ∧
    ∃ tokens w' userId, (refreshAccessToken Sample.packages Sample.refreshToken.text).Exec
        Sample.signedIn (.ok tokens) w' ∧
      Refreshed Sample.packages Sample.signedIn userId tokens w' := by
  obtain ⟨tr, hrun⟩ := Sample.serverRun_signedIn
  obtain ⟨hb, hrefresh⟩ := session_binding hrun Sample.start_fresh
  refine ⟨hb, ?_⟩
  obtain ⟨tokens, w', hx⟩ := Async.exec_of_isOk Sample.refresh_isOk
  obtain ⟨t, -, ht⟩ := hrefresh _ _ _ hx
  exact ⟨tokens, w', t.userId, hx, ht⟩

end CodebaseTrpc
