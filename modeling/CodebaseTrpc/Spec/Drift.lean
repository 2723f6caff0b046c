import CodebaseTrpc.Spec.EmailChange

/-! What a wrong code can do: the check and the change run side by side, and under every
schedule touch one row and few of its columns. -/
namespace CodebaseTrpc
variable {P : Packages} {w w' : World}

/-- One row, before and after some steps of the check and of the change. -/
structure Drift (P : Packages) (t : Token) (now : ℕ) (u u' : User) : Prop where
  id : u'.id = u.id
  refreshToken : u'.refreshToken = u.refreshToken
  passwordHash : u'.passwordHash = u.passwordHash
  currentProductId : u'.currentProductId = u.currentProductId
  email : (u'.email = u.email ∧ u'.emailVerified = u.emailVerified) ∨ t.newEmail = some u'.email
  pending : u'.emailVerificationToken = u.emailVerificationToken ∨
    u'.emailVerificationToken = none ∨
    ∃ iat, u'.emailVerificationToken = some (P.jwt.sign (attemptPayload t iat now))

theorem Drift.refl (t : Token) (now : ℕ) (u : User) : Drift P t now u u :=
  ⟨rfl, rfl, rfl, rfl, .inl ⟨rfl, rfl⟩, .inl rfl⟩

theorem Drift.trans {t : Token} {now : ℕ} {u v x : User} (h : Drift P t now u v)
    (h' : Drift P t now v x) : Drift P t now u x where
  id := h'.id.trans h.id
  refreshToken := h'.refreshToken.trans h.refreshToken
  passwordHash := h'.passwordHash.trans h.passwordHash
  currentProductId := h'.currentProductId.trans h.currentProductId
  email := by
    rcases h'.email with ⟨he, hv⟩ | he
    · rw [he, hv]
      exact h.email
    · exact .inr he
  pending := by
    rcases h'.pending with hp | hp | hp
    · exact hp ▸ h.pending
    · exact .inr (.inl hp)
    · exact .inr (.inr hp)

theorem drift_changeEmail {t : Token} {newEmail : String} (h : t.newEmail = some newEmail)
    (now at' : ℕ) (u : User) : Drift P t now u ((changeEmail newEmail).apply at' u) :=
  ⟨rfl, rfl, rfl, rfl, .inr h, .inr (.inl rfl)⟩

theorem drift_storePending (t : Token) (now at' iat : ℕ) (u : User) : Drift P t now u
    ((storePending (P.jwt.sign (attemptPayload t iat now))).apply at' u) :=
  ⟨rfl, rfl, rfl, rfl, .inl ⟨rfl, rfl⟩, .inr (.inr ⟨iat, rfl⟩)⟩

/-- The world, before and after some steps of the check and of the change. -/
structure Drifted (P : Packages) (w : World) (userId : String) (t : Token) (w' : World) :
    Prop where
  env : w'.env = w.env
  trx : w'.trx = w.trx
  outbox : w'.outbox = w.outbox
  products : w'.db.products = w.db.products
  billings : w'.db.billings = w.db.billings
  users : ∃ f, w'.db.users = Rows.update User.id userId f w.db.users ∧
    ∀ u, Drift P t w.env.now u (f u)
  issued : ∃ l, w'.issued = w.issued ++ l ∧ ∀ i ∈ l, i.kind = .purpose .emailChange ∧
    i.text = P.jwt.sign i.payload ∧ ∃ iat, i.payload = attemptPayload t iat w.env.now

theorem Drifted.refl (userId : String) (t : Token) : Drifted P w userId t w where
  env := rfl
  trx := rfl
  outbox := rfl
  products := rfl
  billings := rfl
  users := ⟨id, by simp [Rows.update], fun u => Drift.refl t _ u⟩
  issued := ⟨[], by simp, by simp⟩

theorem Drifted.exec {userId : String} {t : Token} {updates : UserUpdates}
    (h : Drifted P w userId t w') (hup : ∀ at' u, Drift P t w.env.now u (updates.apply at' u)) :
    Drifted P w userId t (w'.exec (updateUser userId updates)) := by
  rcases hs : updateUser userId updates w' w'.db with e | ⟨v, db⟩
  · have hw : w'.exec (updateUser userId updates) = w' := by simp [World.exec, hs]
    rwa [hw]
  obtain ⟨f, hf, hdrift⟩ := h.users
  exact
    { env := by simpa using h.env
      trx := by simpa using h.trx
      outbox := by simpa using h.outbox
      products := by simpa using h.products
      billings := by simpa using h.billings
      users := ⟨updates.apply w'.env.now ∘ f, by
        rw [exec_updateUser_users_of_ok hs, hf, Rows.update_update fun u => (hdrift u).id],
        fun u => (hdrift u).trans (hup _ _)⟩
      issued := by simpa using h.issued }

theorem Drifted.sign {userId : String} {t : Token} (iat : ℕ) (h : Drifted P w userId t w') :
    Drifted P w userId t (w'.sign P (.purpose .emailChange) (attemptInput t iat)
      (attemptSeconds t w.env.now)) := by
  obtain ⟨l, hl, hall⟩ := h.issued
  have hpay : stamp (attemptInput t iat) (attemptSeconds t w.env.now) w'.env.now =
      attemptPayload t iat w.env.now := by rw [h.env]; rfl
  refine { h with issued := ⟨l ++ [⟨_, _, _⟩], by rw [World.sign, hl, List.append_assoc], ?_⟩ }
  intro i hi
  rcases List.mem_append.mp hi with hi | hi
  · exact hall i hi
  · obtain rfl := List.mem_singleton.mp hi
    exact ⟨rfl, rfl, iat, hpay⟩

/-- A write on the pool that keeps an invariant. -/
theorem keeps_write {α : Type} {I : World → Prop} {statement : World → Db → Except Err (α × Db)}
    (h : ∀ s, I s → I (s.exec statement)) : (write .knex statement).Keeps I := by
  intro s hs
  have hs' := h s hs
  simp only [World.exec, World.view, World.put] at hs' ⊢
  cases he : statement s s.db with
  | error e => simpa [he] using hs'
  | ok x => simpa [he] using hs'

theorem keeps_select {α : Type} (I : World → Prop) (query : Db → α) : (select query).Keeps I :=
  fun _ hs => ⟨hs, trivial⟩

theorem keeps_getUserProfile (I : World → Prop) (userId : String) :
    (getUserProfile userId).Keeps I := (keeps_select _ _).bind fun _ => trivial

theorem keeps_applyEmailChange (userId : String) {newEmail : String} {t : Token}
    (h : t.newEmail = some newEmail) :
    (applyEmailChange userId newEmail).Keeps (Drifted P w userId t) := by
  rw [applyEmailChange_eq]
  refine (keeps_select _ _).bind fun existing => ?_
  split
  · trivial
  refine (keeps_write fun s hs => ?_).bind fun _ => ?_
  · exact hs.exec fun at' u => drift_changeEmail h _ at' u
  · refine (keeps_getUserProfile _ _).bind fun profile => ?_
    split <;> trivial

/-- The check as a program: what it keeps is what its signature and its write keep. -/
theorem keeps_verifyEmailChangeCode_of {I : World → Prop} {userId code : String} {t : Token}
    (h : ∀ s v iat, I s → I v → t.iat = some iat →
      I (v.sign P (.purpose .emailChange) (attemptInput t iat) (attemptSeconds t s.env.now)) ∧
      ∀ x, I x → I (x.exec (updateUser userId (storePending
        (P.jwt.sign (stamp (attemptInput t iat) (attemptSeconds t s.env.now) v.env.now)))))) :
    (verifyEmailChangeCode P userId code t).Keeps I := by
  by_cases hset : t.purpose ≠ some .emailChange ∨ t.code = some code
  · obtain ⟨r, hr⟩ := verifyEmailChangeCode_settled P userId hset
    rw [hr]
    cases r <;> trivial
  · simp only [not_or, not_not] at hset
    rw [verifyEmailChangeCode_wrong hset.1 hset.2]
    intro s hs
    refine ⟨hs, ?_⟩
    simp only [Async.bind_pure_left]
    cases hiat : t.iat with
    | none => trivial
    | some iat =>
      intro v hv
      obtain ⟨hsign, hwrite⟩ := h s v iat hs hv hiat
      exact ⟨hsign, (keeps_write hwrite).bind fun _ => trivial⟩

theorem keeps_verifyEmailChangeCode (userId code : String) (t : Token) :
    (verifyEmailChangeCode P userId code t).Keeps (Drifted P w userId t) := by
  refine keeps_verifyEmailChangeCode_of fun s v iat hs hv _ => ?_
  rw [hs.env]
  refine ⟨hv.sign iat, fun x hx => hx.exec fun at' u => ?_⟩
  rw [hv.env]
  exact drift_storePending t w.env.now at' iat u

theorem drifted_of_exec {userId code newEmail : String} {t : Token} {r : Except Err UserProfile}
    (ht : t.newEmail = some newEmail)
    (h : (Async.spawn (verifyEmailChangeCode P userId code t)
      (applyEmailChange userId newEmail)).Exec w r w') : Drifted P w userId t w' :=
  h.keeps ⟨keeps_verifyEmailChangeCode .., keeps_applyEmailChange userId ht⟩ (.refl userId t)

theorem Drifted.blocked {userId newEmail : String} {t : Token} (h : Drifted P w userId t w')
    (hb : Blocked w userId newEmail) : Blocked w' userId newEmail := by
  rcases hb with ⟨v, hv, hne, he⟩ | hlen
  · obtain ⟨f, hf, -⟩ := h.users
    refine .inl ⟨v, ?_, hne, he⟩
    rw [hf]
    exact Rows.mem_update.mpr (.inr ⟨hv, hne⟩)
  · exact .inr hlen

/-- Where the address is blocked, only the check has an effect, whatever the schedule. -/
theorem exec_spawn_blocked {userId code newEmail : String} {t : Token}
    {r : Except Err UserProfile} (hb : Blocked w userId newEmail)
    (h : (Async.spawn (verifyEmailChangeCode P userId code t)
      (applyEmailChange userId newEmail)).Exec w r w') :
    (∃ e, r = .error e) ∧ w' = ((verifyEmailChangeCode P userId code t).run w).2 := by
  have hkeeps :
      (verifyEmailChangeCode P userId code t).Keeps fun s => Blocked s userId newEmail := by
    refine keeps_verifyEmailChangeCode_of fun s v iat hs hv _ => ⟨hv, fun x hx => ?_⟩
    rcases hx with ⟨y, hy, hne, he⟩ | hlen
    · refine .inl ⟨y, ?_, hne, he⟩
      rw [exec_updateUser_users (storePending_quiet _)]
      exact Rows.mem_update.mpr (.inr ⟨hy, hne⟩)
    · exact .inr hlen
  exact Async.exec_spawn_reads (awaits_verifyEmailChangeCode P userId code t) hkeeps
    (applyEmailChange_reads userId newEmail) hb h

/-- The user is there, and the address can be taken. -/
def Open (userId newEmail : String) (w : World) : Prop :=
  ¬ Blocked w userId newEmail ∧ ∃ u ∈ w.db.users, u.id = userId

/-- An update of the user that leaves the email or takes the address keeps it open. -/
theorem Open.update {userId newEmail : String} {f : User → User} (h : Open userId newEmail w)
    (hw : w'.db.users = Rows.update User.id userId f w.db.users) (hid : ∀ u, (f u).id = u.id) :
    Open userId newEmail w' := by
  obtain ⟨hfree, u, hu, rfl⟩ := h
  refine ⟨?_, f u, ?_, hid u⟩
  · rintro (⟨v, hv, hne, he⟩ | hlen)
    · rw [hw] at hv
      rcases Rows.mem_update.mp hv with ⟨y, -, hy, rfl⟩ | ⟨hv, -⟩
      · exact hne ((hid y).trans hy)
      · exact hfree (.inl ⟨v, hv, hne, he⟩)
    · exact hfree (.inr hlen)
  · rw [hw]
    exact Rows.mem_update_self User.id f hu

/-- Where the address is open the change is made, whatever the check does. -/
theorem settles_applyEmailChange (userId newEmail : String) :
    (applyEmailChange userId newEmail).Settles (Open userId newEmail)
      fun r => ∃ profile, r = .ok profile := by
  rw [applyEmailChange_eq]
  intro s hs
  refine ⟨hs, ?_⟩
  have hmine : ¬ (Rows.lookup User.email newEmail s.db.users).any (fun u => u.id ≠ userId) := by
    simp only [Option.any_eq_true, decide_eq_true_eq, not_exists, not_and, not_not]
    intro v hv
    by_contra hne
    exact hs.1 (.inl ⟨v, Rows.lookup_mem hv, hne, Rows.lookup_key hv⟩)
  simp only [Async.bind_pure_left]
  rw [if_neg hmine]
  intro v hv
  obtain ⟨hfree, u, hu, rfl⟩ := hv
  obtain ⟨db, hdb⟩ := updateUser_unblocked hu hfree
  obtain ⟨-, -, -, husers, -⟩ := updateUser_ok hdb
  simp only [World.view, hdb, World.put]
  refine ⟨Open.update ⟨hfree, u, hu, rfl⟩ husers fun _ => rfl, ?_⟩
  intro x hx
  refine ⟨hx, ?_⟩
  obtain ⟨-, y, hy, hid⟩ := hx
  have hlook := hid ▸ lookup_of_mem hy
  simp only [Async.bind_pure_left, hlook]
  exact ⟨_, rfl⟩

theorem exec_spawn_open {userId code newEmail : String} {t : Token} {r : Except Err UserProfile}
    (ho : Open userId newEmail w)
    (h : (Async.spawn (verifyEmailChangeCode P userId code t)
      (applyEmailChange userId newEmail)).Exec w r w') : ∃ profile, r = .ok profile := by
  refine (h.settles (I := Open userId newEmail) (Q := fun r => ∃ profile, r = .ok profile)
    ⟨?_, settles_applyEmailChange userId newEmail⟩ ho).2
  refine keeps_verifyEmailChangeCode_of fun s v iat hs hv _ => ⟨hv, fun x hx => ?_⟩
  exact hx.update (exec_updateUser_users (storePending_quiet _)) fun _ => rfl

end CodebaseTrpc
