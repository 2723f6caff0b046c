import CodebaseTrpc.Spec.Plan
import CodebaseTrpc.Spec.Server

/-! The users table under each change, row by row: what relates every row to its update
relates the tables. -/
namespace CodebaseTrpc
variable {P : Packages} {w : World} {R : User → User → Prop}

theorem rows_updateUser {id : String} {updates : UserUpdates} (hrefl : ∀ u, R u u)
    (hR : ∀ u ∈ w.db.users, u.id = id → R u (updates.apply w.env.now u)) :
    List.Forall₂ R w.db.users (w.exec (updateUser id updates)).db.users := by
  rcases hs : updateUser id updates w w.db with e | ⟨v, db⟩
  · simpa [World.exec, hs] using Rows.forall₂_refl hrefl w.db.users
  · rw [exec_updateUser_users_of_ok hs]
    exact Rows.forall₂_update hrefl hR

theorem rows_settle (userId : String) (hrefl : ∀ u, R u u)
    (hR : ∀ u p, R u ((setProduct p).apply w.env.now u)) :
    List.Forall₂ R w.db.users (w.settle userId).db.users := by
  rcases settle_users w userId with h | ⟨product, -, -, h⟩
  · rw [h]
    exact Rows.forall₂_refl hrefl _
  · rw [h]
    exact Rows.forall₂_update hrefl fun u _ _ => hR u _

theorem rows_openSession (userId : String) (hrefl : ∀ u, R u u)
    (htrans : ∀ u v x, R u v → R v x → R u x)
    (hproduct : ∀ u p, R u ((setProduct p).apply w.env.now u))
    (hrefresh : ∀ u, u.id = userId → R u ((storeRefresh
      (sessionTokens P userId w.env.now).refreshToken).apply w.env.now u)) :
    List.Forall₂ R w.db.users (w.openSession P userId).db.users := by
  rw [openSession_users]
  exact Rows.forall₂_trans htrans (rows_settle userId hrefl hproduct)
    (Rows.forall₂_update hrefl fun u _ hid => hrefresh u hid)

theorem rows_issueVerification (user : User) (hrefl : ∀ u, R u u)
    (hR : ∀ u ∈ w.db.users, u.id = user.id → R u ((storePending (P.jwt.sign
      (verificationPayload user.id w.env.now))).apply w.env.now u)) :
    List.Forall₂ R w.db.users (w.issueVerification P user).db.users := by
  rw [issueVerification_users]
  exact Rows.forall₂_update hrefl hR

theorem rows_issueCode (user : User) (newEmail : String) (hrefl : ∀ u, R u u)
    (hR : ∀ u ∈ w.db.users, u.id = user.id → R u ((storePending (P.jwt.sign
      (changePayload user.id newEmail (codeOf w.env) w.env.now))).apply w.env.now u)) :
    List.Forall₂ R w.db.users (w.issueCode P user newEmail).db.users := by
  rw [issueCode_users]
  exact Rows.forall₂_update hrefl hR

theorem rows_drifted {w' : World} {userId : String} {t : Token} (hrefl : ∀ u, R u u)
    (h : Drifted P w userId t w')
    (hR : ∀ u u', u ∈ w.db.users → u.id = userId → Drift P t w.env.now u u' → R u u') :
    List.Forall₂ R w.db.users w'.db.users := by
  obtain ⟨f, hf, hdrift⟩ := h.users
  rw [hf]
  exact Rows.forall₂_update hrefl fun u hu hid => hR u _ hu hid (hdrift u)

theorem rows_billed {event : BillingEvent} {db : Db} (hrefl : ∀ u, R u u)
    (h : Billed w event db) (hR : ∀ u p, R u ((setProduct p).apply w.env.now u)) :
    List.Forall₂ R w.db.users db.users := by
  obtain ⟨c, -, hw⟩ := h.planned
  rw [hw.users, Change.users]
  split
  · exact Rows.forall₂_refl hrefl _
  · exact Rows.forall₂_update hrefl fun u _ _ => hR u _

/-- A verification that completes no change of the user, where the relation says nothing about
other users. -/
theorem rows_verifyEmailChange {userId code : String} {auth : Option String}
    {reply : Except Err Reply} {w' : World} (hrefl : ∀ u, R u u)
    (hothers : ∀ u u', u'.id = u.id → u.id ≠ userId → R u u')
    (hattempt : ∀ u token t newEmail iat, u ∈ w.db.users → PendingChange P w u token t →
      Ready t newEmail → t.iat = some iat →
        List.Forall₂ R w.db.users (w.countAttempt P u.id t iat).db.users)
    (htrx : w.trx = none) (hx : (handle P (.verifyEmailChange auth code)).Exec w reply w')
    (hdone : ¬ CompletesChange P userId ⟨w, .verifyEmailChange auth code, reply, w'⟩) :
    List.Forall₂ R w.db.users w'.db.users := by
  cases effect_of_exec htrx hx with
  | none => exact Rows.forall₂_refl hrefl _
  | @emailChanged _ _ _ _ v _ _ hauth =>
    have hne : v.id ≠ userId := fun hid => hdone ⟨auth, code, v, _, rfl, hauth, hid, rfl⟩
    exact rows_updateUser hrefl fun u _ hid => hothers _ _ rfl (hid ▸ hne)
  | @codeWrong _ _ _ _ v _ _ _ hauth _ _ _ hdrift =>
    by_cases hid : v.id = userId
    · cases reply with
      | ok reply => exact absurd ⟨auth, code, v, reply, rfl, hauth, hid, rfl⟩ hdone
      | error e =>
        rcases exec_verifyEmailChange_error hx with
          rfl | ⟨u, _, _, _, _, hu, hp, hready, -, hiat, rfl⟩
        · exact Rows.forall₂_refl hrefl _
        · exact hattempt _ _ _ _ _ hu.mem hp hready hiat
    · exact rows_drifted hrefl hdrift fun u u' _ hu hd => hothers u u' hd.id (hu ▸ hid)

end CodebaseTrpc
